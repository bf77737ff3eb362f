import MyTestserver.Delivery
import MyTestserver.SessionTheorems

namespace MyTestserver

open WebSocketHandler ChatServer

namespace Server

variable {υ μ : Type} (env : Env υ μ) (conn : ConnId)

section Answers

-- The first answers to a request, by their status line.

def statusClass (response : Bytes) : Bytes := response.take 10

theorem statusClass_append {line : Bytes} (h : 10 ≤ line.length) (rest : Bytes) :
    statusClass (line ++ rest) = statusClass line := by
  rw [statusClass, List.take_append_of_le_length h, statusClass]

theorem statusClass_handshakeResponse (request : Bytes) :
    statusClass (generateHandshakeResponse env.crypto request) = ascii "HTTP/1.1 1" := by
  unfold generateHandshakeResponse
  simp only [List.append_assoc]
  rw [statusClass_append (by decide)]
  decide

theorem statusClass_responseHeader (filePath content : Bytes) :
    statusClass (responseHeader filePath content) = ascii "HTTP/1.1 2" := by
  unfold responseHeader
  simp only [List.append_assoc]
  rw [statusClass_append (by decide)]
  decide

-- An answer of another class comes first, and there may be more to it.
def Refuses (s t : Server υ μ) : Prop :=
  ∃ first more, (t.conns conn).sent = (s.conns conn).sent ++ first :: more ∧
    statusClass first ≠ ascii "HTTP/1.1 1"

theorem refuses_send {s : Server υ μ} (hconn : s.connected conn = true) {response : Bytes}
    (h : statusClass response ≠ ascii "HTTP/1.1 1") :
    Refuses conn s ((s.send conn response).shutdown conn) :=
  ⟨response, [], by rw [sent_shutdown, s.sent_send conn hconn], h⟩

theorem refuses_serveFile {s : Server υ μ} (hconn : s.connected conn = true) (path : Bytes) :
    Refuses conn s (serveFile env conn s path) := by
  unfold serveFile
  split
  · exact refuses_send conn hconn (by decide)
  split
  · exact refuses_send conn hconn (by decide)
  · rename_i filePath _ _ content _
    have hconn' : (s.send conn (responseHeader filePath content)).connected conn = true := by
      rw [(s.sends_send conn _).connected_eq, hconn]
    refine ⟨responseHeader filePath content, [content], ?_, ?_⟩
    · rw [sent_shutdown, sent_send _ conn hconn', s.sent_send conn hconn, List.append_assoc]
      rfl
    · rw [statusClass_responseHeader]
      decide

-- Data that is no upgrade request is answered by an error or by a file.
theorem refuses_handleHandshake {s : Server υ μ} (hconn : s.connected conn = true) {data : Bytes}
    (h : isWebSocketUpgrade data = false) : Refuses conn s (handleHandshake env conn s data) := by
  have hbad : Refuses conn s ((s.send conn badRequest).shutdown conn) :=
    refuses_send conn hconn (by decide)
  unfold handleHandshake handleHttpRequest
  simp only [h, Bool.false_eq_true, if_false]
  by_cases hget : data.take 3 = ascii "GET"
  · rw [if_pos hget]
    cases Search.find data (ascii " ") 4 with
    | none => exact hbad
    | some pathEnd => exact refuses_serveFile env conn hconn _
  · rw [if_neg hget]
    exact hbad

-- An upgrade request is answered by the response to the data it came in.
theorem handleHandshake_upgrade {s : Server υ μ} (hconn : s.connected conn = true) {data : Bytes}
    (h : isWebSocketUpgrade data = true) :
    ((handleHandshake env conn s data).conns conn).sent =
        (s.conns conn).sent ++ [generateHandshakeResponse env.crypto data] ∧
      (handleHandshake env conn s data).Upgraded conn := by
  unfold handleHandshake handleHttpRequest
  simp only [h, if_true]
  constructor
  · exact sent_send (s.setConnectionState conn _) conn hconn _
  · simp [Upgraded, setConnectionState]

end Answers

section Run

-- The bytes for the frame loop: what is in the buffer when the handshake is complete, and
-- what comes after it.
def frameInput : List Delivery → Buffer × Server υ μ → Bytes
  | [], (b, s) => if s.Upgraded conn then b.readable else []
  | d :: ds, (b, s) =>
      if s.Upgraded conn then b.readable ++ ((d :: ds).map Delivery.chunk).flatten
      else frameInput ds (onMessage env conn d.now s d.uninit (b.append d.chunk)).2

theorem frameInput_upgraded (ds : List Delivery) (b : Buffer) {s : Server υ μ}
    (h : s.Upgraded conn) :
    frameInput env conn ds (b, s) = b.readable ++ (ds.map Delivery.chunk).flatten := by
  cases ds with
  | nil => simp [frameInput, h]
  | cons d ds => simp [frameInput, h]

-- One 101 response, to the request itself, then frames only; and all bytes behind the
-- request are there for the frame loop.
def HandshakeKept (ds : List Delivery) (b : Buffer) (s : Server υ μ) (request behind : Bytes) :
    Prop :=
  (∃ frames, ((deliver env conn ds (b, s)).2.2.conns conn).sent =
      (s.conns conn).sent ++ generateHandshakeResponse env.crypto request :: frames ∧
    ∀ buf ∈ frames, IsFrame buf) ∧
  frameInput env conn ds (b, s) = behind

theorem sent_handleHandshake (s : Server υ μ) (data : Bytes) :
    Sent conn (fun _ => True) s (handleHandshake env conn s data) := by
  have hanswer : ∀ (t : Server υ μ) buf,
      Sent conn (fun _ => True) t ((t.send conn buf).shutdown conn) :=
    fun t buf => (Sent.send conn t conn trivial).trans conn (.shutdown conn _ conn)
  have hserve : ∀ path, Sent conn (fun _ => True) s (serveFile env conn s path) := by
    intro path
    unfold serveFile
    split
    · exact hanswer s _
    split
    · exact hanswer s _
    · exact (Sent.send conn s conn trivial).trans conn (hanswer _ _)
  unfold handleHandshake handleHttpRequest
  split
  · rename_i t h
    split at h
    · cases h
    split at h
    · split at h
      · cases h
      · cases h
        exact hserve _
    · cases h
  · rename_i t h
    obtain rfl : s = t := by
      split at h
      · cases h
        rfl
      split at h
      · split at h
        · cases h
          rfl
        · cases h
      · cases h
        rfl
    split
    · let accepted := s.setConnectionState conn { s.connectionStates conn with isWebSocket := true }
      have hresponse : Sent conn (fun _ => True) s
          (accepted.send conn (generateHandshakeResponse env.crypto data)) :=
        .send conn accepted conn trivial
      exact hresponse
    · exact hanswer s _

-- The first delivery is taken out of the buffer, all of it, and looked at alone.
theorem deliver_handshake (d : Delivery) (ds : List Delivery) {s : Server υ μ}
    (hnew : (s.connectionStates conn).handshakeComplete = false) {b : Buffer}
    (hb : b.readable = []) :
    ∃ b' : Buffer, b'.readable = [] ∧
      deliver env conn (d :: ds) (b, s) =
        deliver env conn ds (b', handleHandshake env conn s d.chunk) ∧
      frameInput env conn (d :: ds) (b, s) =
        frameInput env conn ds (b', handleHandshake env conn s d.chunk) := by
  have hdata : (b.append d.chunk).readable = d.chunk := by
    rw [Buffer.readable_append, hb, List.nil_append]
  have hfirst : onMessage env conn d.now s d.uninit (b.append d.chunk) =
      (.ok (), (b.append d.chunk).retrieveAllAsString.2, handleHandshake env conn s d.chunk) := by
    rw [onMessage, if_pos hnew, Buffer.retrieveAllAsString_fst, hdata]
  refine ⟨_, Buffer.readable_retrieveAllAsString (b.append d.chunk), ?_, ?_⟩
  · rw [deliver, hfirst, Outcome.andThen_ok]
  · rw [frameInput, if_neg (by simp [Upgraded, hnew]), hfirst]

-- An answer of another kind stays the first one, whatever comes later.
theorem Refuses.sent_ne (ds : List Delivery) (b : Buffer) {s t : Server υ μ}
    (h : Refuses conn s t) (request : Bytes) (rest : List Bytes) :
    ((deliver env conn ds (b, t)).2.2.conns conn).sent ≠
      (s.conns conn).sent ++ generateHandshakeResponse env.crypto request :: rest := by
  obtain ⟨first, more, hsent, hstatus⟩ := h
  obtain ⟨later, hlater, -⟩ := deliver_rel env conn
    (closed_sent conn (fun _ => True) fun _ => trivial) (fun s => .shutdown conn s conn)
    (fun s data _ => sent_handleHandshake env conn s data) ds b t
  intro hframes
  rw [hlater, hsent, List.append_assoc, List.cons_append] at hframes
  obtain ⟨rfl, -⟩ := List.cons.inj (List.append_cancel_left hframes)
  exact hstatus (statusClass_handshakeResponse env request)

-- The handshake goes by what the first delivery brings, so that has to be the request.
theorem handshake_kept_iff {request : Bytes} (hrequest : isWebSocketUpgrade request = true)
    (behind : Bytes) (ds : List Delivery)
    (hds : (ds.map Delivery.chunk).flatten = request ++ behind) {s : Server υ μ}
    (hconn : s.connected conn = true)
    (hnew : (s.connectionStates conn).handshakeComplete = false) {b : Buffer}
    (hb : b.readable = []) :
    HandshakeKept env conn ds b s request behind ↔
      ds.head?.map Delivery.chunk = some request := by
  cases ds with
  | nil =>
      have hempty : request = [] := (List.append_eq_nil_iff.mp hds.symm).1
      rw [hempty] at hrequest
      exact absurd hrequest (by decide)
  | cons d ds =>
      rw [List.map_cons, List.flatten_cons] at hds
      obtain ⟨b', hb', hdeliver, hinput⟩ := deliver_handshake env conn d ds hnew hb
      simp only [HandshakeKept, hinput, hdeliver, List.head?_cons, Option.map_some,
        Option.some.injEq]
      cases hupgrade : isWebSocketUpgrade d.chunk with
      | true =>
          obtain ⟨hsent, hup⟩ := handleHandshake_upgrade env conn hconn hupgrade
          rw [frameInput_upgraded env conn ds b' hup, hb', List.nil_append]
          constructor
          · rintro ⟨-, hbehind⟩
            rw [hbehind] at hds
            exact List.append_cancel_right hds
          · intro hchunk
            obtain ⟨frames, hframes, hkind⟩ := sent_deliver_upgraded env conn ds b' hup
            rw [hsent, List.append_assoc, hchunk] at hframes
            rw [hchunk] at hds ⊢
            exact ⟨⟨frames, hframes, hkind⟩, List.append_cancel_left hds⟩
      | false =>
          have hrefuses := refuses_handleHandshake env conn hconn hupgrade
          refine iff_of_false ?_ fun hchunk => ?_
          · rintro ⟨⟨frames, hframes, -⟩, -⟩
            exact hrefuses.sent_ne env conn ds b' request frames hframes
          · rw [hchunk, hrequest] at hupgrade
            cases hupgrade

def sampleUp : Server (List User) (List Message) := sampleStart.next sampleEnv (.up 0)

def sampleDelivery (chunk : Bytes) : Delivery := ⟨chunk, 1700000000, fun _ _ => 0⟩

-- A masked close frame.
def sampleBehind : Bytes := [0x88, 0x80, 7, 7, 7, 7]

theorem handshake_kept_sample :
    HandshakeKept sampleEnv 0 [sampleDelivery sampleRequest, sampleDelivery sampleBehind]
      (Buffer.new kInitialSize) sampleUp sampleRequest sampleBehind :=
  (handshake_kept_iff sampleEnv 0 (by decide) sampleBehind
    [sampleDelivery sampleRequest, sampleDelivery sampleBehind] (by simp [sampleDelivery])
    (by decide) (by decide) (Buffer.readable_new _)).mpr rfl

-- A frame in the same segment as the request is thrown away with it.
theorem handshake_cut :
    ¬∀ (conn : ConnId) (request behind : Bytes) (ds : List Delivery)
        (s : Server (List User) (List Message)) (b : Buffer), isWebSocketUpgrade request = true →
      crlf ++ crlf <:+ request → (ds.map Delivery.chunk).flatten = request ++ behind →
      s.connected conn = true → (s.connectionStates conn).handshakeComplete = false →
      b.readable = [] → HandshakeKept sampleEnv conn ds b s request behind := by
  intro h
  have hkept := h 0 sampleRequest sampleBehind [sampleDelivery (sampleRequest ++ sampleBehind)]
    sampleUp (Buffer.new kInitialSize) (by decide) (by decide)
    (by simp [sampleDelivery]) (by decide) (by decide) (Buffer.readable_new _)
  exact absurd hkept.2 (by decide +kernel)

end Run

end Server

end MyTestserver
