import MyTestserver.Buffer

namespace MyTestserver

-- A loop is known by the thread that it runs in, its threadId_.
abbrev ThreadId := ℕ

inductive Errno
  | EWOULDBLOCK
  | EPIPE
  | ECONNRESET
  | other
  deriving DecidableEq

-- What write(2) returns.
inductive WriteResult
  | wrote (nwrote : ℕ)
  | failed (errno : Errno)
  deriving DecidableEq

-- The side of TcpConnection that sends. `written` is what the socket took, `finSent` that
-- its write end is shut down.
structure TcpConnection where
  loop : ThreadId
  state : StateE
  outputBuffer : Buffer
  isWriting : Bool
  written : Bytes
  finSent : Bool
  deriving DecidableEq

namespace TcpConnection

variable (conn : TcpConnection)

def new (loop : ThreadId) : TcpConnection where
  loop := loop
  state := .kConnecting
  outputBuffer := .new kInitialSize
  isWriting := false
  written := []
  finSent := false

-- What the socket did not take goes into the output buffer.
def keep (data : Bytes) : TcpConnection :=
  if data = [] then conn
  else { conn with outputBuffer := conn.outputBuffer.append data, isWriting := true }

-- Nothing is taken over where the connection is down or the peer is gone.
def sendInLoop (result : WriteResult) (data : Bytes) : Option TcpConnection :=
  if conn.state = .kDisconnected then none
  else if conn.isWriting = false ∧ conn.outputBuffer.readableBytes = 0 then
    match result with
    | .wrote nwrote =>
        some ({ conn with written := conn.written ++ data.take nwrote }.keep (data.drop nwrote))
    | .failed .EPIPE | .failed .ECONNRESET => none
    | .failed _ => some (conn.keep data)
  else some (conn.keep data)

def shutdownInLoop : TcpConnection :=
  if conn.isWriting = false then { conn with finSent := true } else conn

-- The socket takes `n` bytes of the output buffer.
def handleWrite (n : ℕ) : TcpConnection :=
  if conn.isWriting = true ∧ 0 < n then
    let rest := conn.outputBuffer.retrieve n
    let conn :=
      { conn with
        written := conn.written ++ conn.outputBuffer.readable.take n
        outputBuffer := rest }
    if rest.readableBytes = 0 then
      let conn := { conn with isWriting := false }
      if conn.state = .kDisconnecting then conn.shutdownInLoop else conn
    else conn
  else conn

-- All bytes taken over, in their order on the wire.
def stream : Bytes := conn.written ++ conn.outputBuffer.readable

theorem stream_keep (data : Bytes) : (conn.keep data).stream = conn.stream ++ data := by
  unfold keep
  split
  · rename_i h
    rw [h, List.append_nil]
  · simp [stream]

theorem loop_keep (data : Bytes) : (conn.keep data).loop = conn.loop := by
  unfold keep
  split <;> rfl

@[simp] theorem stream_shutdownInLoop : conn.shutdownInLoop.stream = conn.stream := by
  unfold shutdownInLoop
  split <;> rfl

@[simp] theorem loop_shutdownInLoop : conn.shutdownInLoop.loop = conn.loop := by
  unfold shutdownInLoop
  split <;> rfl

@[simp] theorem state_shutdownInLoop : conn.shutdownInLoop.state = conn.state := by
  unfold shutdownInLoop
  split <;> rfl

@[simp] theorem state_keep (data : Bytes) : (conn.keep data).state = conn.state := by
  unfold keep
  split <;> rfl

-- However much of it the socket takes at once, the data is put at the end.
theorem stream_sendInLoop {conn conn' : TcpConnection} {result : WriteResult} {data : Bytes}
    (h : conn.sendInLoop result data = some conn') :
    conn'.stream = conn.stream ++ data ∧ conn'.loop = conn.loop := by
  unfold sendInLoop at h
  split at h
  · cases h
  split at h
  · rename_i hempty
    have hnone := (Buffer.readableBytes_eq_zero_iff _).mp hempty.2
    split at h
    · obtain rfl := Option.some.inj h
      rw [stream_keep, loop_keep]
      refine ⟨?_, rfl⟩
      simp only [stream, hnone, List.append_nil, List.append_assoc, List.take_append_drop]
    · cases h
    · cases h
    · obtain rfl := Option.some.inj h
      exact ⟨conn.stream_keep data, conn.loop_keep data⟩
  · obtain rfl := Option.some.inj h
    exact ⟨conn.stream_keep data, conn.loop_keep data⟩

-- Data is given up only when the connection is down or the write fails for good.
theorem exists_sendInLoop {conn : TcpConnection} {result : WriteResult} {data : Bytes}
    (hstate : conn.state ≠ .kDisconnected)
    (hresult : result ≠ .failed .EPIPE ∧ result ≠ .failed .ECONNRESET) :
    ∃ conn', conn.sendInLoop result data = some conn' := by
  unfold sendInLoop
  rw [if_neg hstate]
  split
  · split
    · exact ⟨_, rfl⟩
    · exact absurd rfl hresult.1
    · exact absurd rfl hresult.2
    · exact ⟨_, rfl⟩
  · exact ⟨_, rfl⟩

-- Neither sending nor writing out what is left changes the state.
@[simp] theorem state_sendInLoop (result : WriteResult) (data : Bytes) :
    ((conn.sendInLoop result data).getD conn).state = conn.state := by
  unfold sendInLoop
  split
  · rfl
  split
  · split
    · simp
    · rfl
    · rfl
    · simp
  · simp

@[simp] theorem state_handleWrite (n : ℕ) : (conn.handleWrite n).state = conn.state := by
  unfold handleWrite
  split
  · dsimp only
    split
    · split
      · exact state_shutdownInLoop _
      · rfl
    · rfl
  · rfl

@[simp] theorem finSent_keep (data : Bytes) : (conn.keep data).finSent = conn.finSent := by
  unfold keep
  split <;> rfl

@[simp] theorem finSent_sendInLoop (result : WriteResult) (data : Bytes) :
    ((conn.sendInLoop result data).getD conn).finSent = conn.finSent := by
  unfold sendInLoop
  split
  · rfl
  split
  · split
    · simp
    · rfl
    · rfl
    · simp
  · simp

theorem stream_handleWrite (n : ℕ) :
    (conn.handleWrite n).stream = conn.stream ∧ (conn.handleWrite n).loop = conn.loop := by
  unfold handleWrite
  split
  · dsimp only
    split
    · split
      · refine ⟨(stream_shutdownInLoop _).trans ?_, loop_shutdownInLoop _⟩
        simp [stream]
      · simp [stream]
    · simp [stream]
  · exact ⟨rfl, rfl⟩

end TcpConnection

end MyTestserver
