import MyTestserver.Library.Transition
import MyTestserver.TcpConnection

namespace MyTestserver

open Transition

-- A result of write(2) on `len` bytes that leaves the connection usable.
def WriteResult.Usable (len : ℕ) : WriteResult → Prop
  | .wrote nwrote => nwrote ≤ len
  | .failed errno => errno ≠ .EPIPE ∧ errno ≠ .ECONNRESET

theorem WriteResult.Usable.ne {len : ℕ} {result : WriteResult} (h : result.Usable len) :
    result ≠ .failed .EPIPE ∧ result ≠ .failed .ECONNRESET := by
  constructor
  · rintro rfl
    exact h.1 rfl
  · rintro rfl
    exact h.2 rfl

namespace TcpConnection

-- What happens on the loop thread of a connection that is not down. `writable 0` is also
-- the event whose write fails.
inductive Activity
  | sendInLoop (data : Bytes) (result : WriteResult)
  | shutdownInLoop
  | writable (n : ℕ)
  | setState (state : StateE)

namespace Activity

def Guard (conn : TcpConnection) : Activity → Prop
  | .sendInLoop data result => conn.state ≠ .kDisconnected ∧ result.Usable data.length
  | .shutdownInLoop => True
  | .writable n => conn.state ≠ .kDisconnected ∧ n ≤ conn.outputBuffer.readableBytes
  | .setState state => state ≠ .kDisconnected

instance (result : WriteResult) (len : ℕ) : Decidable (result.Usable len) :=
  match result with
  | .wrote nwrote => inferInstanceAs (Decidable (nwrote ≤ len))
  | .failed errno => inferInstanceAs (Decidable (errno ≠ .EPIPE ∧ errno ≠ .ECONNRESET))

instance (conn : TcpConnection) (e : Activity) : Decidable (Guard conn e) :=
  match e with
  | .sendInLoop data result =>
      inferInstanceAs (Decidable (conn.state ≠ .kDisconnected ∧ result.Usable data.length))
  | .shutdownInLoop => .isTrue trivial
  | .writable n =>
      inferInstanceAs
        (Decidable (conn.state ≠ .kDisconnected ∧ n ≤ conn.outputBuffer.readableBytes))
  | .setState state => inferInstanceAs (Decidable (state ≠ .kDisconnected))

def next (conn : TcpConnection) : Activity → TcpConnection
  | .sendInLoop data result => (conn.sendInLoop result data).getD conn
  | .shutdownInLoop => conn.shutdownInLoop
  | .writable n => conn.handleWrite n
  | .setState state => { conn with state := state }

def Step (conn : TcpConnection) (e : Activity) (conn' : TcpConnection) : Prop :=
  Guard conn e ∧ conn' = next conn e

-- The strings passed to sendInLoop, put together.
def sent (es : List Activity) : Bytes :=
  es.flatMap fun
    | .sendInLoop data _ => data
    | _ => []

end Activity

-- The flag for writable events is set while there is something to write.
def Interested (conn : TcpConnection) : Prop :=
  conn.isWriting = true ↔ conn.outputBuffer.readable ≠ []

variable {conn conn' : TcpConnection} {data : Bytes} {result : WriteResult}

theorem Interested.empty_iff (h : conn.Interested) :
    conn.isWriting = false ↔ conn.outputBuffer.readable = [] := by
  have hiff := not_congr h
  rwa [Bool.not_eq_true, not_not] at hiff

theorem Interested.keep (h : conn.Interested) (data : Bytes) : (conn.keep data).Interested := by
  unfold TcpConnection.keep
  split
  · exact h
  · rename_i hdata
    simp [Interested, hdata]

theorem Interested.shutdownInLoop (h : conn.Interested) : conn.shutdownInLoop.Interested := by
  unfold TcpConnection.shutdownInLoop
  split
  · exact h
  · exact h

theorem Interested.sendInLoop (h : conn.Interested)
    (hsend : conn.sendInLoop result data = some conn') : conn'.Interested := by
  unfold TcpConnection.sendInLoop at hsend
  split at hsend
  · cases hsend
  split at hsend
  · split at hsend
    · rename_i nwrote
      obtain rfl := Option.some.inj hsend
      have hwritten : Interested { conn with written := conn.written ++ data.take nwrote } := h
      exact hwritten.keep _
    · cases hsend
    · cases hsend
    · obtain rfl := Option.some.inj hsend
      exact h.keep data
  · obtain rfl := Option.some.inj hsend
    exact h.keep data

theorem Interested.handleWrite (h : conn.Interested) (n : ℕ) : (conn.handleWrite n).Interested := by
  unfold TcpConnection.handleWrite
  split
  · rename_i hwriting
    dsimp only
    split
    · rename_i hempty
      rw [Buffer.readableBytes_eq_zero_iff] at hempty
      split
      · apply Interested.shutdownInLoop
        simp [Interested, hempty]
      · simp [Interested, hempty]
    · rename_i hrest
      rw [Buffer.readableBytes_eq_zero_iff] at hrest
      exact iff_of_true hwriting.1 hrest
  · exact h

theorem Activity.step {e : Activity} (h : Activity.Step conn e conn') (hconn : conn.Interested) :
    conn'.stream = conn.stream ++ sent [e] ∧ conn'.Interested := by
  obtain ⟨hguard, rfl⟩ := h
  cases e with
  | sendInLoop data result =>
      obtain ⟨conn', hsend⟩ : ∃ conn', conn.sendInLoop result data = some conn' :=
        exists_sendInLoop hguard.1 hguard.2.ne
      simp only [next, hsend, Option.getD_some]
      refine ⟨?_, hconn.sendInLoop hsend⟩
      rw [(stream_sendInLoop hsend).1]
      simp [sent]
  | shutdownInLoop =>
      refine ⟨?_, hconn.shutdownInLoop⟩
      simp [next, sent]
  | writable n =>
      refine ⟨?_, hconn.handleWrite n⟩
      rw [next, (stream_handleWrite conn n).1]
      simp [sent]
  | setState state =>
      refine ⟨?_, hconn⟩
      simp [next, sent, stream]

theorem Activity.path {es : List Activity} (h : Path Activity.Step conn es conn')
    (hconn : conn.Interested) :
    conn'.stream = conn.stream ++ sent es ∧ conn'.Interested := by
  induction h with
  | nil => exact ⟨by simp [sent], hconn⟩
  | cons hstep _ ih =>
      obtain ⟨hstream, hnext⟩ := Activity.step hstep hconn
      obtain ⟨hrest, hinterest⟩ := ih hnext
      refine ⟨?_, hinterest⟩
      rw [hrest, hstream]
      simp [sent]

-- However little the socket takes at a time, what it took and what is in the buffer are
-- together what was sent.
theorem output_of_path {loop : ThreadId} {es : List Activity}
    (hrun : Path Activity.Step (.new loop) es conn) :
    conn.written ++ conn.outputBuffer.readable = Activity.sent es ∧
      (conn.isWriting = true ↔ conn.outputBuffer.readable ≠ []) := by
  obtain ⟨hstream, hinterest⟩ := Activity.path hrun (by simp [Interested, new])
  exact ⟨by simpa [stream, new] using hstream, hinterest⟩

-- One byte is taken at once, then none; of the rest two go out when there is room.
def shortWrites : List Activity :=
  [.setState .kConnected, .sendInLoop [1, 2, 3] (.wrote 1),
    .sendInLoop [4] (.failed .EWOULDBLOCK), .writable 0, .writable 2]

theorem output_of_shortWrites :
    (play Activity.next (.new 0) shortWrites).written ++
        (play Activity.next (.new 0) shortWrites).outputBuffer.readable = [1, 2, 3, 4] ∧
      ((play Activity.next (.new 0) shortWrites).isWriting = true ↔
        (play Activity.next (.new 0) shortWrites).outputBuffer.readable ≠ []) :=
  output_of_path (path_of_guards
    (by decide +kernel : Plays Activity.Guard Activity.next (.new 0) shortWrites))

end TcpConnection

end MyTestserver
