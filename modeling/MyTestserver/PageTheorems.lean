import MyTestserver.FrameTheorems
import MyTestserver.MessageTheorems

namespace MyTestserver

open ChatServer WebSocketHandler

theorem Deliveries.length_eq {b last : Buffer} {chunks : List Bytes}
    {log : List (List Bytes × Bool)} (h : Deliveries b chunks log last) :
    log.length = chunks.length := by
  induction h with
  | nil => rfl
  | cons _ _ ih => rw [List.length_cons, List.length_cons, ih]

namespace Page

namespace Action

-- What the server is to make of an action.
def request : Action → Request
  | .login username password => .login username password
  | .register username password => .register username password
  | .chat content => .chat content
  | .logout => .logout
  | .heartbeat => .heartbeat
  | .get_history => .get_history 50

-- The strings of a page have an encoding.
def Valid : Action → Prop
  | .login username password | .register username password =>
      ValidUtf8 username ∧ ValidUtf8 password
  | .chat content => ValidUtf8 content
  | .logout | .heartbeat | .get_history => True

def text (a : Action) : Bytes := a.json.render

theorem utf8_json {a : Action} (h : a.Valid) : a.json.Utf8 := by
  have hstring : ∀ {name : String} {value : Bytes} {members : List (Bytes × Json)},
      ValidUtf8 value → Json.utf8Members members = true →
        Json.utf8Members ((ascii name, .string value) :: members) = true :=
    fun hvalue hmembers => (Json.utf8Members_cons _ _ _).mpr
      ⟨validUtf8_ascii _, Json.utf8_string_iff.mpr hvalue, hmembers⟩
  cases a with
  | login username password =>
      exact hstring (validUtf8_ascii "login") (hstring h.1 (hstring h.2 rfl))
  | register username password =>
      exact hstring (validUtf8_ascii "register") (hstring h.1 (hstring h.2 rfl))
  | chat content => exact hstring (validUtf8_ascii "chat") (hstring h rfl)
  | logout => exact hstring (validUtf8_ascii "logout") rfl
  | heartbeat => exact hstring (validUtf8_ascii "heartbeat") rfl
  | get_history =>
      exact hstring (validUtf8_ascii "get_history")
        ((Json.utf8Members_cons _ _ _).mpr ⟨validUtf8_ascii "limit", rfl, rfl⟩)

theorem readable_json {a : Action} (h : a.Valid) : a.json.Readable := by
  refine ⟨utf8_json h, ?_, ?_⟩
  · cases a <;> rfl
  · cases a <;> rfl

-- The order of the properties makes no difference to the server.
theorem read_normal (a : Action) : Request.read a.json.normal = .ok a.request := by
  cases a with
  | login username password => rfl
  | register username password => rfl
  | chat content => rfl
  | logout => rfl
  | heartbeat => rfl
  | get_history => rfl

theorem text_ne_nil (a : Action) : a.text ≠ [] := by
  cases a <;> exact List.cons_ne_nil _ _

-- The requests of the actions, one after the other, and delivery by delivery.

def dispatchAll {υ μ : Type} (env : Env υ μ) (conn : ConnId) (now : ℕ) :
    List Request → Server υ μ → Outcome (Server υ μ)
  | [], s => (.ok (), s)
  | request :: requests, s =>
      (dispatch env conn now s request).andThen (dispatchAll env conn now requests)

def perform {υ μ : Type} (env : Env υ μ) (conn : ConnId) :
    List (Delivery × List Action) → Server υ μ → Outcome (Server υ μ)
  | [], s => (.ok (), s)
  | (d, actions) :: entries, s =>
      (dispatchAll env conn d.now (actions.map request) s).andThen (perform env conn entries)

variable {υ μ : Type} (env : Env υ μ) {strtod : Bytes → Option Int32}
  (hparse : env.parse = Json.parse strtod)
include hparse

theorem decode_text {a : Action} (h : a.Valid) : decode env a.text = .ok a.request := by
  rw [decode, hparse, text, Json.parse_render strtod a.json (readable_json h)]
  exact a.read_normal

theorem handleWebSocketMessage_text {a : Action} (h : a.Valid) (conn : ConnId) (now : ℕ)
    (s : Server υ μ) :
    handleWebSocketMessage env conn now s a.text = dispatch env conn now s a.request :=
  handleWebSocketMessage_decoded env conn now s (decode_text env hparse h)

theorem handleAll_text {actions : List Action} (h : ∀ a ∈ actions, a.Valid) (conn : ConnId)
    (now : ℕ) (s : Server υ μ) :
    handleAll (fun payload s => handleWebSocketMessage env conn now s payload)
        (actions.map text) s =
      dispatchAll env conn now (actions.map request) s := by
  induction actions generalizing s with
  | nil => rfl
  | cons a actions ih =>
      obtain ⟨ha, hactions⟩ := List.forall_mem_cons.mp h
      have hrest : handleAll (fun payload s => handleWebSocketMessage env conn now s payload)
          (actions.map text) = dispatchAll env conn now (actions.map request) :=
        funext (ih hactions)
      rw [List.map_cons, List.map_cons, handleAll, dispatchAll,
        handleWebSocketMessage_text env hparse ha, hrest]

theorem serve_text {entries : List (Delivery × List Action)}
    (h : ∀ entry ∈ entries, ∀ a ∈ entry.2, a.Valid) (conn : ConnId) (s : Server υ μ) :
    serve env conn (entries.map fun entry => (entry.1, entry.2.map text, false)) s =
      perform env conn entries s := by
  induction entries generalizing s with
  | nil => rfl
  | cons entry entries ih =>
      obtain ⟨d, actions⟩ := entry
      obtain ⟨hactions, hentries⟩ := List.forall_mem_cons.mp h
      have hrest : serve env conn (entries.map fun entry => (entry.1, entry.2.map text, false)) =
          perform env conn entries := funext (ih hentries)
      rw [List.map_cons, serve, perform, handleAll_text env hparse hactions]
      simp only [if_false, Bool.false_eq_true, hrest]

end Action

theorem exists_map_eq {α β : Type} {f : α → β} {log : List (List β)} {xs : List α}
    (h : log.flatten = xs.map f) : ∃ parts : List (List α), parts.flatten = xs ∧
      log = parts.map (List.map f) := by
  induction log generalizing xs with
  | nil =>
      obtain rfl := List.map_eq_nil_iff.mp h.symm
      exact ⟨[], rfl, rfl⟩
  | cons first log ih =>
      rw [List.flatten_cons] at h
      obtain ⟨left, right, rfl, rfl, hright⟩ := List.map_eq_append_iff.mp h.symm
      obtain ⟨parts, rfl, rfl⟩ := ih hright.symm
      exact ⟨left :: parts, rfl, rfl⟩

variable {υ μ : Type} (env : Env υ μ) (conn : ConnId)

-- Whatever a page sends is dispatched as what it means, each action once and in order,
-- however the frames are cut on their way, until a handler throws if one does.
theorem actions_served {strtod : Bytes → Option Int32} (hparse : env.parse = Json.parse strtod)
    {actions : List Action} (hvalid : ∀ a ∈ actions, a.Valid) {fs : List ClientFrame}
    (htext : ∀ f ∈ fs, f.IsText) (hpayloads : fs.map ClientFrame.payload = actions.map Action.text)
    {part : Bytes} (hpart : Partial part) {ds : List Delivery}
    (hds : (ds.map Delivery.chunk).flatten = fs.flatMap ClientFrame.encode ++ part) {b : Buffer}
    (hb : b.readable = []) :
    ∃ parts last, parts.length = ds.length ∧ parts.flatten = actions ∧ last.readable = part ∧
      ∀ s : Server υ μ, s.Upgraded conn →
        Serves (Server.deliver env conn ds (b, s)) (Action.perform env conn (ds.zip parts) s)
          last := by
  obtain ⟨log, last, hdeliveries, hserved, hlast, hclosed⟩ := deliveries_of_frames fs hpart hds hb
  have htexts : ∀ f ∈ fs, decide f.IsText = true := fun f hf => decide_eq_true (htext f hf)
  have hnonempty : ∀ payload ∈ actions.map Action.text, decide (payload ≠ []) = true :=
    List.forall_mem_map.mpr fun a _ => decide_eq_true a.text_ne_nil
  rw [List.dropWhile_eq_nil_iff.mpr htexts] at hlast hclosed
  rw [List.takeWhile_eq_self_iff.mpr htexts, hpayloads, List.filter_eq_self.mpr hnonempty,
    List.flatMap_def] at hserved
  obtain ⟨parts, hparts, hlog'⟩ := exists_map_eq hserved
  have hopen : ∀ entry ∈ log, entry.2 = false := by
    intro entry hentry
    by_contra hne
    obtain ⟨f, hf, -⟩ := hclosed.mp ⟨entry, hentry, by simpa using hne⟩
    cases hf
  have hlog : log = parts.map fun actions => (actions.map Action.text, false) := by
    have hself : (log.map Prod.fst).map (fun texts => (texts, false)) = log.map id := by
      rw [List.map_map]
      exact List.map_congr_left fun entry hentry => Prod.ext rfl (hopen entry hentry).symm
    rw [hlog', List.map_map, List.map_id] at hself
    exact hself.symm
  refine ⟨parts, last, ?_, hparts, hlast, fun s hup => ?_⟩
  · have hlength := hdeliveries.length_eq
    rwa [hlog, List.length_map, List.length_map] at hlength
  · have hentries : ∀ entry ∈ ds.zip parts, ∀ a ∈ entry.2, a.Valid := by
      intro entry hentry a ha
      refine hvalid a ?_
      rw [← hparts]
      exact List.mem_flatten.mpr ⟨entry.2, (List.of_mem_zip hentry).2, ha⟩
    have hperform : serve env conn (ds.zip log) s = Action.perform env conn (ds.zip parts) s := by
      rw [hlog, List.zip_map_right]
      exact Action.serve_text env hparse hentries conn s
    rw [← hperform]
    exact deliver_of_deliveries env conn hdeliveries rfl hup

def chatFrame : ClientFrame :=
  ⟨true, .text, .short, fun _ => 7, (Action.chat (ascii "hi")).text, by decide⟩

def twoDeliveries : List Delivery :=
  [Wire.loginFrame.encode.take 9, Wire.loginFrame.encode.drop 9 ++ chatFrame.encode].map
    fun chunk => ⟨chunk, 1700000000, fun _ _ => 0⟩

theorem actions_served_twoDeliveries :
    ∃ parts last, parts.length = 2 ∧
      parts.flatten = [Action.login (ascii "alice") (ascii "wonder"), .chat (ascii "hi")] ∧
      last.readable = [] ∧
      ∀ s : Server (List User) (List Message), s.Upgraded 0 →
        Serves (Server.deliver Wire.parsingEnv 0 twoDeliveries (Buffer.new kInitialSize, s))
          (Action.perform Wire.parsingEnv 0 (twoDeliveries.zip parts) s) last := by
  have hvalid : ∀ a ∈ [Action.login (ascii "alice") (ascii "wonder"), .chat (ascii "hi")],
      a.Valid := by
    simp [Action.Valid, validUtf8_ascii]
  have htext : ∀ f ∈ [Wire.loginFrame, chatFrame], f.IsText := by decide
  have hds : (twoDeliveries.map Delivery.chunk).flatten =
      [Wire.loginFrame, chatFrame].flatMap ClientFrame.encode ++ [] := by decide
  exact actions_served Wire.parsingEnv 0 rfl hvalid htext rfl (partial_nil chatFrame) hds
    (Buffer.readable_new kInitialSize)

end Page

end MyTestserver
