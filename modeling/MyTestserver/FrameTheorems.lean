import Mathlib.Data.List.TakeWhile
import MyTestserver.Delivery
import MyTestserver.PayloadTheorems

namespace MyTestserver

open WebSocketHandler ChatServer

section Deliveries

open MyTestserver.Stream

-- Chunks arrive one after the other, and the frame loop runs after each. The log has, for
-- each chunk, the payloads that go to the handler and whether shutdown is called, whatever
-- the two do: the handler has them in turn until it throws.
inductive Deliveries : Buffer → List Bytes → List (List Bytes × Bool) → Buffer → Prop
  | nil (b : Buffer) : Deliveries b [] [] b
  | cons {b b' last : Buffer} {chunk : Bytes} {chunks payloads : List Bytes} {closed : Bool}
      {log : List (List Bytes × Bool)} :
      (∀ {σ : Type} (handle : Bytes → σ → Outcome σ) (shutdown : σ → σ) (uninit : ℕ → MaskingKey)
        (s : σ),
        Serves (frameLoop handle shutdown uninit (b.append chunk).readableBytes (b.append chunk, s))
          ((handleAll handle payloads s).andThen fun t =>
            (.ok (), if closed then shutdown t else t)) b') →
      Deliveries b' chunks log last →
      Deliveries b (chunk :: chunks) ((payloads, closed) :: log) last

theorem deliveries_of_feeds {key : MaskingKey} {data last : Bytes} {chunks : List Bytes}
    {log : List (List Bytes × Bytes)} (h : Feeds (frontFrame key) data chunks log last) (b : Buffer)
    (hb : b.readable = data) (hdata : Wellformed (data ++ chunks.flatten)) :
    ∃ b' : Buffer, b'.readable = last ∧
      Deliveries b chunks (log.map fun entry =>
        (entry.1.filter (· ≠ []), decide (frontFrame key entry.2 = .stop))) b' := by
  induction h generalizing b with
  | nil data => exact ⟨b, hb, .nil b⟩
  | @cons data chunk rest last chunks messages log hdec _ ih =>
      rw [List.flatten_cons, ← List.append_assoc] at hdata
      have happend : (b.append chunk).readable = data ++ chunk := by rw [Buffer.readable_append, hb]
      obtain ⟨b₁, hb₁, hloop⟩ := frameLoop_decodes hdec (b.append chunk) happend hdata.of_append
      obtain ⟨b', hb', hdeliveries⟩ := ih b₁ hb₁ (hdata.decodes hdec)
      refine ⟨b', hb', .cons (fun handle shutdown uninit s => ?_) hdeliveries⟩
      have hserves := hloop handle shutdown uninit _ s (by rw [← happend, Buffer.readable_length])
      simpa using hserves

-- What becomes of the frames of a client, however they are cut: text frames are served
-- until there is a frame of another kind, and nothing behind that one is.
theorem deliveries_of_frames (fs : List ClientFrame) {part : Bytes} (hpart : Partial part)
    {chunks : List Bytes} (hchunks : chunks.flatten = fs.flatMap ClientFrame.encode ++ part)
    {b : Buffer} (hb : b.readable = []) :
    ∃ log last, Deliveries b chunks log last ∧
      log.flatMap Prod.fst =
        ((fs.takeWhile (·.IsText)).map ClientFrame.payload).filter (· ≠ []) ∧
      last.readable = (fs.dropWhile (·.IsText)).flatMap ClientFrame.encode ++ part ∧
      ((∃ entry ∈ log, entry.2 = true) ↔
        ∃ f, (fs.dropWhile (·.IsText)).head? = some f ∧ f.fin = true ∧ f.opcode = .close) := by
  let key : MaskingKey := fun _ => 0
  have hstable := stable_frontFrame key
  have hwait : frontFrame key [] = .wait := hstable.nil
  have hdata : Wellformed ([] ++ chunks.flatten) := by
    rw [List.nil_append, hchunks]
    exact wellformed_encode hpart fs
  obtain ⟨feeds, rest, hfeeds⟩ := exists_feeds hstable [] chunks
  obtain ⟨last, hlast, hdeliveries⟩ := deliveries_of_feeds hfeeds b hb hdata
  have hdecodes := hfeeds.decodes hstable (blocked_of_wait hwait)
  rw [List.nil_append, hchunks] at hdecodes
  obtain ⟨hmessages, hrest⟩ := hdecodes.unique (decodes_encode key hpart fs)
  refine ⟨_, last, hdeliveries, ?_, hlast.trans hrest, ?_⟩
  · rw [← hmessages, List.flatMap_map, List.filter_flatMap]
  · rw [← frontFrame_encode_stop_iff key hpart, ← hrest,
      ← hfeeds.stop_iff hstable (by rw [hwait]; simp)]
    simp

variable {υ μ : Type} (env : Env υ μ) (conn : ConnId)

theorem onMessage_upgraded (now : ℕ) {s : Server υ μ} (h : s.Upgraded conn)
    (uninit : ℕ → MaskingKey) (b : Buffer) :
    onMessage env conn now s uninit b =
      frameLoop (fun payload s => handleWebSocketMessage env conn now s payload)
        (fun s => s.shutdown conn) uninit b.readableBytes (b, s) := by
  unfold onMessage
  rw [if_neg (by simp [h.1]), if_pos h.2]

-- Among text and close frames the text frames are those before which there is no close.
theorem isText_of_supported {fs : List ClientFrame} (hfs : ∀ f ∈ fs, f.Supported) :
    fs.takeWhile (·.IsText) = fs.takeWhile (·.opcode ≠ .close) ∧
      fs.dropWhile (·.IsText) = fs.dropWhile (·.opcode ≠ .close) ∧
      ((∃ f, (fs.dropWhile (·.IsText)).head? = some f ∧ f.fin = true ∧ f.opcode = .close) ↔
        ∃ f ∈ fs, f.opcode = .close) := by
  induction fs with
  | nil => simp
  | cons f fs ih =>
      obtain ⟨htake, hdrop, hclosed⟩ := ih fun g hg => hfs g (List.mem_cons_of_mem _ hg)
      obtain ⟨hfin, hop⟩ := hfs f (by simp)
      by_cases hclose : f.opcode = .close
      · simp [ClientFrame.IsText, hclose, hfin]
      · have htext : f.IsText := ⟨hfin, hop.resolve_right hclose⟩
        simp only [List.takeWhile_cons, List.dropWhile_cons, htext, hclose, decide_true, if_true,
          ne_eq, not_false_iff, List.exists_mem_cons_iff, false_or]
        exact ⟨congrArg _ htake, hdrop, hclosed⟩

-- What a log comes to for the server: the payloads of each delivery are handled one after
-- the other, and the connection is shut down where the log says so.
def serve : List (Delivery × List Bytes × Bool) → Server υ μ → Outcome (Server υ μ)
  | [], s => (.ok (), s)
  | (d, payloads, closed) :: entries, s =>
      (handleAll (fun payload s => handleWebSocketMessage env conn d.now s payload) payloads
        s).andThen fun s => serve entries (if closed then s.shutdown conn else s)

theorem upgraded_handleAll (now : ℕ) (payloads : List Bytes) (s : Server υ μ) :
    (handleAll (fun payload s => handleWebSocketMessage env conn now s payload) payloads
      s).2.Upgraded conn ↔ s.Upgraded conn := by
  induction payloads generalizing s with
  | nil => rfl
  | cons payload payloads ih =>
      have hfirst := s.upgraded_handleWebSocketMessage env conn now conn payload
      unfold handleAll
      cases hresult : handleWebSocketMessage env conn now s payload with
      | mk result t =>
          rw [hresult] at hfirst
          cases result with
          | ok => exact (ih t).trans hfirst
          | error e => exact hfirst

-- Past the handshake it is the frame loop that serves the deliveries, in each of them.
theorem deliver_of_deliveries {b last : Buffer} {chunks : List Bytes}
    {log : List (List Bytes × Bool)} (h : Deliveries b chunks log last) {ds : List Delivery}
    (hds : ds.map Delivery.chunk = chunks) {s : Server υ μ} (hup : s.Upgraded conn) :
    Serves (Server.deliver env conn ds (b, s)) (serve env conn (ds.zip log) s) last := by
  induction h generalizing ds s with
  | nil b =>
      obtain rfl := List.map_eq_nil_iff.mp hds
      exact .of_ok rfl
  | @cons b b' last chunk chunks payloads closed log hloop _ ih =>
      obtain ⟨d, ds, rfl, rfl, hrest⟩ := List.map_eq_cons_iff.mp hds
      let handle := fun payload s => handleWebSocketMessage env conn d.now s payload
      have hnext : ∀ t, ((handleAll handle payloads s).andThen fun t =>
            (.ok (), if closed then t.shutdown conn else t)) = (.ok (), t) →
          Serves (Server.deliver env conn ds (b', t)) (serve env conn (ds.zip log) t) last := by
        intro t ht
        obtain ⟨u, hhandle, hclosed⟩ := Outcome.andThen_eq_ok ht
        obtain rfl : (if closed then u.shutdown conn else u) = t := congrArg Prod.snd hclosed
        have hu : u.Upgraded conn := by
          have hkept := upgraded_handleAll env conn d.now payloads s
          rw [hhandle] at hkept
          exact hkept.mpr hup
        refine ih hrest ?_
        split
        · exact (u.upgraded_shutdown conn conn).mpr hu
        · exact hu
      have hserves := (hloop handle (fun s => s.shutdown conn) d.uninit s).andThen hnext
      rw [Outcome.andThen_assoc] at hserves
      rwa [Server.deliver, onMessage_upgraded env conn d.now hup]

-- Frames are served in order, each once, wherever the stream is cut. The handler is only
-- asked to come back.
theorem frames_served (fs : List ClientFrame) (hfs : ∀ f ∈ fs, f.Supported) {part : Bytes}
    (hpart : Partial part) {ds : List Delivery}
    (hds : (ds.map Delivery.chunk).flatten = fs.flatMap ClientFrame.encode ++ part) {b : Buffer}
    (hb : b.readable = []) :
    ∃ log last, Deliveries b (ds.map Delivery.chunk) log last ∧
      (∀ s t : Server υ μ, s.Upgraded conn → serve env conn (ds.zip log) s = (.ok (), t) →
        Server.deliver env conn ds (b, s) = (.ok (), last, t)) ∧
      log.flatMap Prod.fst =
        ((fs.takeWhile (·.opcode ≠ .close)).map ClientFrame.payload).filter (· ≠ []) ∧
      last.readable = (fs.dropWhile (·.opcode ≠ .close)).flatMap ClientFrame.encode ++ part ∧
      ((∃ entry ∈ log, entry.2 = true) ↔ ∃ f ∈ fs, f.opcode = .close) := by
  obtain ⟨htake, hdrop, hclosed⟩ := isText_of_supported hfs
  obtain ⟨log, last, hdeliveries, hserved, hlast, hshut⟩ := deliveries_of_frames fs hpart hds hb
  rw [htake] at hserved
  rw [hclosed] at hshut
  rw [hdrop] at hlast
  exact ⟨log, last, hdeliveries,
    fun _ _ hup hserve => (deliver_of_deliveries env conn hdeliveries rfl hup).eq_ok hserve,
    hserved, hlast, hshut⟩

-- A greeting and a close frame, with the first byte of a third frame.

def sampleText : ClientFrame := ⟨true, .text, .short, fun _ => 7, ascii "hi", by decide⟩

def sampleClose : ClientFrame := ⟨true, .close, .short, fun _ => 7, [], by decide⟩

def sampleArrivals : List Delivery :=
  [sampleText.encode.take 3, sampleText.encode.drop 3 ++ sampleClose.encode ++ [0x81]].map
    fun chunk => ⟨chunk, 1700000000, fun _ _ => 0⟩

theorem frames_served_cut :
    ∃ log last, Deliveries (Buffer.new kInitialSize) (sampleArrivals.map Delivery.chunk) log last ∧
      log.flatMap Prod.fst = [ascii "hi"] ∧ last.readable = sampleClose.encode ++ [0x81] ∧
      ∃ entry ∈ log, entry.2 = true := by
  have hpart : Partial [0x81] := ⟨sampleText, sampleText.encode.drop 1, by decide⟩
  have hchunks : (sampleArrivals.map Delivery.chunk).flatten =
      [sampleText, sampleClose].flatMap ClientFrame.encode ++ [0x81] := by decide
  obtain ⟨log, last, hdeliveries, -, hserved, hlast, hclosed⟩ :=
    frames_served sampleEnv 0 [sampleText, sampleClose] (by decide) hpart hchunks
      (Buffer.readable_new kInitialSize)
  exact ⟨log, last, hdeliveries, hserved.trans (by decide), hlast,
    hclosed.mpr ⟨sampleClose, by simp, rfl⟩⟩

end Deliveries

section Wedge

variable {υ μ : Type} (env : Env υ μ)

theorem frameLoop_suffix {σ : Type} (handle : Bytes → σ → Outcome σ) (shutdown : σ → σ)
    (uninit : ℕ → MaskingKey) (rounds : ℕ) (b : Buffer) (s : σ) :
    (frameLoop handle shutdown uninit rounds (b, s)).2.1.readable <:+ b.readable := by
  induction rounds generalizing b s with
  | zero => exact List.suffix_refl _
  | succ rounds ih =>
      have hretrieve : ∀ len t, (frameLoop handle shutdown uninit rounds
          (b.retrieve len, t)).2.1.readable <:+ b.readable := by
        intro len t
        refine (ih _ t).trans ?_
        rw [Buffer.readable_retrieve]
        exact List.drop_suffix _ _
      unfold frameLoop
      split
      · exact List.suffix_refl _
      split
      · exact List.suffix_refl _
      · exact List.suffix_refl _
      split
      · split
        · exact List.suffix_refl _
        · exact hretrieve _ _
      split
      · exact List.suffix_refl _
      · exact hretrieve _ _

theorem not_suffix_tail (f : ClientFrame) (tail : Bytes) : ¬f.encode ++ tail <:+ tail := by
  intro h
  have hlen := h.length_le
  rw [List.length_append, f.encode_length] at hlen
  omega

namespace Server

-- One call takes the frame in front of the tail out of the buffer, or ends the connection.
def Passes (s : Server υ μ) (conn : ConnId) (now : ℕ) (uninit : ℕ → MaskingKey) (b : Buffer)
    (tail : Bytes) : Prop :=
  let result := (onMessage env conn now s uninit b).2
  result.1.readable <:+ tail ∨ result.2.connected conn = false

section Front

variable {s : Server υ μ} {conn : ConnId} (hup : s.Upgraded conn) (now : ℕ)
  (uninit : ℕ → MaskingKey) {f : ClientFrame} {tail : Bytes} {b : Buffer}
  (hb : b.readable = f.encode ++ tail)

include hup hb

-- The first round of the loop is about the frame in front.
theorem onMessage_front :
    ∃ rounds, onMessage env conn now s uninit b =
        frameLoop (fun payload s => handleWebSocketMessage env conn now s payload)
          (fun s => s.shutdown conn) uninit (rounds + 1) (b, s) ∧
      parseFrame (uninit rounds) b.readable =
        .ok (if f.Supported then some f.frame else none) := by
  have hreadable : 0 < b.readableBytes := by
    rw [← Buffer.readable_length, hb, List.length_append, f.encode_length]
    omega
  obtain ⟨rounds, hrounds⟩ : ∃ n, b.readableBytes = n + 1 := ⟨b.readableBytes - 1, by omega⟩
  refine ⟨rounds, ?_, ?_⟩
  · rw [onMessage_upgraded env conn now hup, hrounds]
  · rw [hb, f.parseFrame_complete]

theorem passes_close (hsupported : f.Supported) (hclose : f.opcode = .close) :
    s.Passes env conn now uninit b tail := by
  obtain ⟨rounds, hmessage, hparsed⟩ := onMessage_front env hup now uninit hb
  have hop : f.frame.opcode = 0x8 := by rw [ClientFrame.frame, hclose]; rfl
  rw [if_pos hsupported] at hparsed
  unfold Passes
  rw [hmessage, frameLoop_close _ _ s hparsed hop]
  exact .inr (s.connected_shutdown conn)

-- All other frames stay where they are.
theorem not_passes (hconn : s.connected conn = true) (hsupported : ¬f.Supported) :
    ¬s.Passes env conn now uninit b tail := by
  obtain ⟨rounds, hmessage, hparsed⟩ := onMessage_front env hup now uninit hb
  rw [if_neg hsupported] at hparsed
  unfold Passes
  rw [hmessage, frameLoop_wait _ _ s hparsed]
  simp [hb, not_suffix_tail, hconn]

theorem passes_text_iff (hparse : ParseDocumented env.parse) (h : Reachable env s)
    (hconn : s.connected conn = true) (htext : f.IsText) :
    s.Passes env conn now uninit b tail ↔ (f.payload ≠ [] → s.Expected env f.payload) := by
  obtain ⟨rounds, hmessage, hparsed⟩ := onMessage_front env hup now uninit hb
  rw [if_pos ⟨htext.1, .inl htext.2⟩] at hparsed
  have hop : f.frame.opcode = 0x1 := by rw [ClientFrame.frame, htext.2]; rfl
  have htail : (b.retrieve f.encode.length).readable = tail := by
    rw [Buffer.readable_retrieve, hb, List.drop_left]
  have hsuffix : ∀ t, (frameLoop (fun payload s => handleWebSocketMessage env conn now s payload)
      (fun s => s.shutdown conn) uninit rounds
      (b.retrieve f.encode.length, t)).2.1.readable <:+ tail :=
    fun t => htail ▸ frameLoop_suffix _ _ uninit rounds _ t
  unfold Passes
  rw [hmessage]
  by_cases hpayload : f.payload = []
  · rw [frameLoop_empty _ _ s hparsed hop hpayload]
    exact iff_of_true (.inl (hsuffix s)) fun hne => absurd hpayload hne
  have hreturns := handleWebSocketMessage_ok_iff env hparse h conn now f.payload
  rw [frameLoop_text _ _ s hparsed hop hpayload]
  dsimp only [ClientFrame.frame]
  cases hresult : handleWebSocketMessage env conn now s f.payload with
  | mk result t =>
      rw [hresult] at hreturns
      cases result with
      | ok => exact iff_of_true (.inl (hsuffix t)) fun _ => hreturns.mp rfl
      | error e =>
          -- What was sent before the exception does not end the connection.
          have hstate : (t.conns conn).state = (s.conns conn).state := by
            rw [← state_of_error env conn now s (congrArg Prod.fst hresult), hresult]
          have hunexpected : ¬s.Expected env f.payload := fun hexpected => by
            cases hreturns.mpr hexpected
          refine iff_of_false ?_ fun hf => hunexpected (hf hpayload)
          rintro (hpassed | hdown)
          · exact not_suffix_tail f tail (hb ▸ hpassed)
          · simp only [connected, hstate] at hdown hconn
            rw [hconn] at hdown
            cases hdown

end Front

theorem passes_iff (hparse : ParseDocumented env.parse) {s : Server υ μ} (h : Reachable env s)
    {conn : ConnId} (hup : s.Upgraded conn) (hconn : s.connected conn = true) (now : ℕ)
    (uninit : ℕ → MaskingKey) (f : ClientFrame) {tail : Bytes} {b : Buffer}
    (hb : b.readable = f.encode ++ tail) :
    s.Passes env conn now uninit b tail ↔
      f.Supported ∧ (f.opcode = .text → f.payload ≠ [] → s.Expected env f.payload) := by
  by_cases hsupported : f.Supported
  · obtain ⟨hfin, htext | hclose⟩ := id hsupported
    · rw [passes_text_iff env hup now uninit hb hparse h hconn ⟨hfin, htext⟩]
      simp [hsupported, htext]
    · refine iff_of_true (passes_close env hup now uninit hb hsupported hclose)
        ⟨hsupported, fun htext => ?_⟩
      exact absurd (hclose.symm.trans htext) (by simp)
  · exact iff_of_false (not_passes env hup now uninit hb hconn hsupported)
      fun hf => hsupported hf.1

end Server

-- A stream of frames, cut anywhere: what is in front of a text frame does not keep it from
-- being served, unless the connection is shut down.
def Served (fs : List ClientFrame) (g : ClientFrame) (log : List (List Bytes × Bool)) : Prop :=
  (∃ entry ∈ log, entry.2 = true) ∨
    ((fs ++ [g]).map ClientFrame.payload).filter (· ≠ []) <+: log.flatMap Prod.fst

theorem served_iff (fs : List ClientFrame) {g : ClientFrame} (later : List ClientFrame)
    (hg : g.IsText) (hpayload : g.payload ≠ []) {part : Bytes} (hpart : Partial part)
    {chunks : List Bytes}
    (hchunks : chunks.flatten = (fs ++ g :: later).flatMap ClientFrame.encode ++ part)
    {b : Buffer} (hb : b.readable = []) :
    ∃ log last, Deliveries b chunks log last ∧
      (Served fs g log ↔ ∀ f, (fs.dropWhile (·.IsText)).head? = some f → f.Supported) := by
  obtain ⟨log, last, hdeliveries, hserved, -, hclosed⟩ := deliveries_of_frames _ hpart hchunks hb
  refine ⟨log, last, hdeliveries, ?_⟩
  unfold Served
  rw [hclosed, hserved]
  cases hrest : fs.dropWhile (·.IsText) with
  | nil =>
      have hall : ∀ f ∈ fs, decide f.IsText = true := List.dropWhile_eq_nil_iff.mp hrest
      have htake : (fs ++ g :: later).takeWhile (·.IsText) =
          fs ++ [g] ++ later.takeWhile (·.IsText) := by
        rw [List.takeWhile_append_of_pos hall]
        simp [hg]
      refine iff_of_true (.inr ?_) (by simp)
      rw [htake]
      exact ((List.prefix_append _ _).map _).filter _
  | cons f rest =>
      have hsplit : fs.takeWhile (·.IsText) ++ f :: rest = fs := by
        rw [← hrest, List.takeWhile_append_dropWhile]
      have hshort : (fs.takeWhile (·.IsText)).length ≠ fs.length := by
        have hlen := congrArg List.length hsplit
        rw [List.length_append, List.length_cons] at hlen
        omega
      have hother : ¬f.IsText := by
        have hne := List.head_dropWhile_not (fun f : ClientFrame => decide f.IsText)
          (show fs.dropWhile (·.IsText) ≠ [] by simp [hrest])
        simpa [hrest] using hne
      rw [List.takeWhile_append, if_neg hshort, List.dropWhile_append, hrest]
      have hmissing : ¬((fs ++ [g]).map ClientFrame.payload).filter (· ≠ []) <+:
          ((fs.takeWhile (·.IsText)).map ClientFrame.payload).filter (· ≠ []) := by
        intro hprefix
        have hlen := hprefix.length_le
        have hone : (([g].map ClientFrame.payload).filter (· ≠ [])).length = 1 := by simp [hpayload]
        nth_rewrite 1 [← hsplit] at hlen
        simp only [List.map_append, List.filter_append, List.length_append, hone] at hlen
        omega
      simp only [hmissing, or_false, List.isEmpty_cons, Bool.false_eq_true, if_false,
        List.cons_append, List.head?_cons, Option.some.injEq, forall_eq', exists_eq_left']
      constructor
      · exact fun h => ⟨h.1, .inr h.2⟩
      · exact fun h => ⟨h.1, h.2.resolve_left fun htext => hother ⟨h.1, htext⟩⟩

-- A frame is no obstacle exactly when it is one of those that parseFrame reports and the
-- handler of its payload comes back.
theorem unwedged_iff (hparse : ParseDocumented env.parse) :
    (∀ (s : Server υ μ) conn now uninit (f : ClientFrame) tail b, Server.Reachable env s →
      s.Upgraded conn → s.connected conn = true → b.readable = f.encode ++ tail →
      (s.Passes env conn now uninit b tail ↔
        f.Supported ∧ (f.opcode = .text → f.payload ≠ [] → s.Expected env f.payload))) ∧
    ∀ (fs : List ClientFrame) g later part chunks b, g.IsText → g.payload ≠ [] → Partial part →
      chunks.flatten = (fs ++ g :: later).flatMap ClientFrame.encode ++ part → b.readable = [] →
      ∃ log last, Deliveries b chunks log last ∧
        (Served fs g log ↔ ∀ f, (fs.dropWhile (·.IsText)).head? = some f → f.Supported) :=
  ⟨fun _ _ now uninit f _ _ h hup hconn hb =>
      Server.passes_iff env hparse h hup hconn now uninit f hb,
    fun fs _ later _ _ _ hg hpayload hpart hchunks hb =>
      served_iff fs later hg hpayload hpart hchunks hb⟩

def samplePing : ClientFrame := ⟨true, .ping, .short, fun _ => 7, [], by decide⟩

def sampleBuffer (data : Bytes) : Buffer := (Buffer.new kInitialSize).append data

theorem readable_sampleBuffer (data : Bytes) : (sampleBuffer data).readable = data := by
  simp [sampleBuffer]

theorem unwedged_text :
    Server.bothConnected.Passes sampleEnv 0 1700000000 (fun _ _ => 0)
        (sampleBuffer (sampleText.encode ++ samplePing.encode)) samplePing.encode ∧
      ∃ log last, Deliveries (Buffer.new kInitialSize) [samplePing.encode ++ sampleText.encode] log
        last ∧ ¬Served [samplePing] sampleText log := by
  have hiff := unwedged_iff sampleEnv sampleEnv_documented
  have hpass := hiff.1 Server.bothConnected 0 1700000000 (fun _ _ => 0) sampleText samplePing.encode
    _ Server.reachable_bothConnected (by decide) (by decide) (readable_sampleBuffer _)
  obtain ⟨log, last, hdeliveries, hserved⟩ := hiff.2 [samplePing] sampleText [] []
    [samplePing.encode ++ sampleText.encode] (Buffer.new kInitialSize) (by decide) (by decide)
    (partial_nil sampleText) (by simp) (Buffer.readable_new kInitialSize)
  refine ⟨hpass.mpr ⟨by decide, fun _ _ => .inl rfl⟩, log, last, hdeliveries, fun h => ?_⟩
  exact absurd (hserved.mp h samplePing rfl) (by decide)

-- A ping is left in the buffer, and whatever comes behind it.
theorem wedged :
    ¬∀ (s : Server (List User) (List Message)) (conn : ConnId) (now : ℕ) (uninit : ℕ → MaskingKey)
        (f : ClientFrame) (tail : Bytes) (b : Buffer), Server.Reachable sampleEnv s →
      s.Upgraded conn → s.connected conn = true → b.readable = f.encode ++ tail →
      s.Passes sampleEnv conn now uninit b tail := by
  intro h
  have hup : Server.bothConnected.Upgraded 0 := by decide
  have hconn : Server.bothConnected.connected 0 = true := by decide
  have hb := readable_sampleBuffer (samplePing.encode ++ sampleText.encode)
  have hiff := Server.passes_iff sampleEnv sampleEnv_documented Server.reachable_bothConnected hup
    hconn 1700000000 (fun _ _ => 0) samplePing hb
  have hpass := hiff.mp (h _ 0 1700000000 (fun _ _ => 0) samplePing sampleText.encode _
    Server.reachable_bothConnected hup hconn hb)
  exact absurd hpass.1 (by decide)

end Wedge

end MyTestserver
