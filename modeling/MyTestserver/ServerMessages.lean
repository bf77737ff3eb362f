import MyTestserver.Page

namespace MyTestserver

open ChatService ChatServer

-- What the server says to a page, and what is in it.
inductive ServerMessage
  | register_resp (success : Bool) (error : Bytes)
  | login_failed (error : Bytes)
  | login_resp (onlineUsers : List Bytes)
  | logout_resp
  | broadcast (sender content : Bytes) (timestamp : ℕ)
  | heartbeat_resp (serverTime : ℕ)
  | history (messages : List Message)
  | error

namespace ServerMessage

-- createResponse, before it is dumped.
def response (msgType : Bytes) (success : Bool) (text : Bytes) : Json :=
  let j := Json.null.assign fieldMsgType (.string msgType)
  let j := j.assign fieldSuccess (.boolean success)
  if text ≠ [] then j.assign fieldError (.string text) else j

def json : ServerMessage → Json
  | .register_resp success text => response msgTypeRegisterResp success text
  | .login_failed text => response msgTypeLoginResp false text
  | .login_resp onlineUsers => loginResponse onlineUsers
  | .logout_resp => logoutResponse
  | .broadcast sender content timestamp => broadcastMessage sender content timestamp
  | .heartbeat_resp serverTime => heartbeatResponse serverTime
  | .history messages => historyResponse messages
  | .error => errorMessage

-- The texts are UTF-8, the times fit, and what fails comes with a text.
def Valid : ServerMessage → Prop
  | .register_resp success text => ValidUtf8 text ∧ (success = false → text ≠ [])
  | .login_failed text => ValidUtf8 text ∧ text ≠ []
  | .login_resp onlineUsers => ∀ u ∈ onlineUsers, ValidUtf8 u
  | .broadcast sender content timestamp =>
      ValidUtf8 sender ∧ ValidUtf8 content ∧ timestamp < 2 ^ 63
  | .heartbeat_resp serverTime => serverTime < 2 ^ 63
  | .history messages => ∀ msg ∈ messages, MessageUtf8 msg
  | .logout_resp | .error => True

section Members

-- The same members as they are kept, in the order of their keys.

def responseMembers (msgType : Bytes) (success : Bool) (text : Bytes) : List (Bytes × Json) :=
  (if text ≠ [] then [(fieldError, .string text)] else []) ++
    [(fieldMsgType, .string msgType), (fieldSuccess, .boolean success)]

def entryMembers (msg : Message) : List (Bytes × Json) :=
  [(fieldContent, .string msg.content), (fieldSender, .string msg.username),
    (fieldTimestamp, .string msg.timestamp)]

def members : ServerMessage → List (Bytes × Json)
  | .register_resp success text => responseMembers msgTypeRegisterResp success text
  | .login_failed text => responseMembers msgTypeLoginResp false text
  | .login_resp onlineUsers =>
      [(fieldMsgType, .string msgTypeLoginResp),
        (fieldOnlineUsers, .array (onlineUsers.map .string)), (fieldSuccess, .boolean true)]
  | .logout_resp => responseMembers msgTypeLogoutResp true []
  | .broadcast sender content timestamp =>
      [(fieldContent, .string content), (fieldMsgType, .string msgTypeBroadcast),
        (fieldSender, .string sender), (fieldTimestamp, .number_integer timestamp)]
  | .heartbeat_resp serverTime =>
      [(fieldMsgType, .string msgTypeHeartbeatResp), (fieldServerTime, .number_integer serverTime)]
  | .history messages =>
      [(fieldMessages, .array (messages.map fun msg => .object (entryMembers msg))),
        (fieldMsgType, .string msgTypeHistory)]
  | .error => [(fieldError, .string (ascii "Invalid JSON")), (fieldMsgType, .string msgTypeError)]

theorem response_eq (msgType : Bytes) (success : Bool) (text : Bytes) :
    response msgType success text = .object (responseMembers msgType success text) := by
  unfold response responseMembers
  by_cases htext : text = []
  · rw [if_neg (not_not.mpr htext), if_neg (not_not.mpr htext)]
    rfl
  · rw [if_pos htext, if_pos htext]
    rfl

theorem json_eq (m : ServerMessage) : m.json = .object m.members := by
  cases m with
  | register_resp success text => exact response_eq _ success text
  | login_failed text => exact response_eq _ false text
  | _ => rfl

theorem sorted_responseMembers (msgType : Bytes) (success : Bool) (text : Bytes) :
    ((responseMembers msgType success text).map Prod.fst).Pairwise (· < ·) := by
  have hshort : [fieldMsgType, fieldSuccess].Pairwise (· < ·) := by decide
  have hlong : [fieldError, fieldMsgType, fieldSuccess].Pairwise (· < ·) := by decide
  unfold responseMembers
  split
  · exact hlong
  · exact hshort

theorem sorted_entryMembers (msg : Message) :
    ((entryMembers msg).map Prod.fst).Pairwise (· < ·) := by
  have hkeys : [fieldContent, fieldSender, fieldTimestamp].Pairwise (· < ·) := by decide
  exact hkeys

theorem sorted_members (m : ServerMessage) : (m.members.map Prod.fst).Pairwise (· < ·) := by
  have hlogin : [fieldMsgType, fieldOnlineUsers, fieldSuccess].Pairwise (· < ·) := by decide
  have hbroadcast : [fieldContent, fieldMsgType, fieldSender, fieldTimestamp].Pairwise (· < ·) := by
    decide
  have hheartbeat : [fieldMsgType, fieldServerTime].Pairwise (· < ·) := by decide
  have hhistory : [fieldMessages, fieldMsgType].Pairwise (· < ·) := by decide
  have herror : [fieldError, fieldMsgType].Pairwise (· < ·) := by decide
  cases m with
  | register_resp success text => exact sorted_responseMembers _ success text
  | login_failed text => exact sorted_responseMembers _ false text
  | login_resp onlineUsers => exact hlogin
  | logout_resp => exact sorted_responseMembers _ true []
  | broadcast sender content timestamp => exact hbroadcast
  | heartbeat_resp serverTime => exact hheartbeat
  | history messages => exact hhistory
  | error => exact herror

end Members

section Readable

open Json

variable {text : Bytes}

theorem utf8_response {msgType : Bytes} (success : Bool) (hmsgType : ValidUtf8 msgType)
    (htext : ValidUtf8 text) : (response msgType success text).Utf8 := by
  have htype := utf8_assign_ascii "msgType" utf8_null (utf8_string_iff.mpr hmsgType)
  have hbase := utf8_assign_ascii "success" htype (utf8_boolean success)
  unfold response
  dsimp only
  split
  · exact utf8_assign_ascii "error" hbase (utf8_string_iff.mpr htext)
  · exact hbase

theorem utf8_json {m : ServerMessage} (h : m.Valid) : m.json.Utf8 := by
  cases m with
  | register_resp success text => exact utf8_response success (validUtf8_ascii _) h.1
  | login_failed text => exact utf8_response false (validUtf8_ascii _) h.1
  | login_resp onlineUsers => exact loginResponse_utf8 h
  | logout_resp => exact logoutResponse_utf8
  | broadcast sender content timestamp => exact broadcastMessage_utf8 h.1 h.2.1 timestamp
  | heartbeat_resp serverTime => exact heartbeatResponse_utf8 serverTime
  | history messages => exact (historyResponse_utf8_iff messages).mpr h
  | error => exact errorMessage_utf8

theorem fits_number_integer {n : ℤ} (h : -2 ^ 63 ≤ n ∧ n < 2 ^ 63) :
    (Json.number_integer n).fits = true := decide_eq_true h

-- What holds of the values that a message is made of.
structure Plain (p : Json → Bool) : Prop where
  string : ∀ value, p (.string value) = true
  boolean : ∀ value, p (.boolean value) = true
  number : ∀ n : ℕ, n < 2 ^ 63 → p (.number_integer n) = true
  array : ∀ items, p (.array items) = true
  object : ∀ members : List (Bytes × Json), (members.map Prod.fst).Pairwise (· < ·) →
    p (.object members) = true

theorem plain_fits : Plain fits where
  string _ := rfl
  boolean _ := rfl
  number n hn := by
    have hlow : -2 ^ 63 ≤ (n : ℤ) := by omega
    have hhigh : (n : ℤ) < 2 ^ 63 := by omega
    exact fits_number_integer ⟨hlow, hhigh⟩
  array _ := rfl
  object _ _ := rfl

theorem plain_isExact : Plain isExact where
  string _ := rfl
  boolean _ := rfl
  number _ _ := rfl
  array _ := rfl
  object _ _ := rfl

variable {p : Json → Bool} (hp : Plain p)
include hp

theorem Plain.all_string (value : Bytes) : (Json.string value).all p = true := hp.string value

theorem Plain.all_boolean (value : Bool) : (Json.boolean value).all p = true := hp.boolean value

theorem Plain.all_strings (values : List Bytes) : (Json.array (values.map .string)).all p = true :=
  all_array_iff.mpr ⟨hp.array _, List.forall_mem_map.mpr fun value _ => hp.string value⟩

theorem Plain.all_object {members : List (Bytes × Json)}
    (hkeys : (members.map Prod.fst).Pairwise (· < ·)) (hmembers : allMembers p members = true) :
    (Json.object members).all p = true :=
  all_object_iff.mpr ⟨hp.object members hkeys, (allMembers_iff members).mp hmembers⟩

theorem Plain.all_entries (messages : List Message) :
    (Json.array (messages.map fun msg => .object (entryMembers msg))).all p = true := by
  refine all_array_iff.mpr ⟨hp.array _, List.forall_mem_map.mpr fun msg _ => ?_⟩
  refine hp.all_object (sorted_entryMembers msg) ?_
  simp only [entryMembers, allMembers, hp.all_string, Bool.and_true]

theorem Plain.allMembers_response (msgType : Bytes) (success : Bool) (text : Bytes) :
    allMembers p (responseMembers msgType success text) = true := by
  unfold responseMembers
  split
  · simp only [List.cons_append, List.nil_append, allMembers, hp.all_string, hp.all_boolean,
      Bool.and_true]
  · simp only [List.nil_append, allMembers, hp.all_string, hp.all_boolean, Bool.and_true]

theorem Plain.allMembers_members {m : ServerMessage} (h : m.Valid) :
    allMembers p m.members = true := by
  cases m with
  | register_resp success text => exact hp.allMembers_response _ success text
  | login_failed text => exact hp.allMembers_response _ false text
  | login_resp onlineUsers =>
      simp only [members, allMembers, hp.all_strings, hp.all_string, hp.all_boolean, Bool.and_true]
  | logout_resp => exact hp.allMembers_response _ true []
  | broadcast sender content timestamp =>
      have htimestamp : (Json.number_integer timestamp).all p = true := hp.number timestamp h.2.2
      simp only [members, allMembers, hp.all_string, htimestamp, Bool.and_true]
  | heartbeat_resp serverTime =>
      have htime : (Json.number_integer serverTime).all p = true := hp.number serverTime h
      simp only [members, allMembers, hp.all_string, htime, Bool.and_true]
  | history messages =>
      simp only [members, allMembers, hp.all_entries, hp.all_string, Bool.and_true]
  | error => simp only [members, allMembers, hp.all_string, Bool.and_true]

theorem Plain.all_json {m : ServerMessage} (h : m.Valid) : m.json.all p = true := by
  rw [json_eq]
  exact hp.all_object m.sorted_members (hp.allMembers_members h)

omit hp in
theorem readable_json {m : ServerMessage} (h : m.Valid) : m.json.Readable :=
  ⟨utf8_json h, plain_fits.all_json h, plain_isExact.all_json h⟩

end Readable

end ServerMessage

namespace Page

open ServerMessage

-- What the page is to make of a message.
def display (page : Page) : ServerMessage → Page
  | .register_resp true _ => page.showError (ascii "注册成功，请登录")
  | .register_resp false text => page.showError text
  | .login_failed text => page.showError text
  | .login_resp onlineUsers =>
      let page := { page with currentUsername := page.input }.updateUserList onlineUsers
      { page with chatPanel := true }.sendMessage Action.get_history.json
  | .logout_resp => { page.disconnect with chatPanel := false }
  | .broadcast sender content timestamp => page.appendMessage sender content (.seconds timestamp)
  | .heartbeat_resp _ => page
  | .history messages =>
      page.loadHistory (messages.map fun msg => (msg.username, msg.content, .text msg.timestamp))
  | .error => { page with alerts := page.alerts ++ [ascii "错误: Invalid JSON"] }

theorem mapM_normalItems {α β : Type} (f : α → Json) (read : Json → Option β) {value : α → β}
    (h : ∀ x, read (f x).normal = some (value x)) (xs : List α) :
    (Json.normalItems (xs.map f)).mapM read = some (xs.map value) := by
  induction xs with
  | nil => rfl
  | cons x xs ih =>
      rw [List.map_cons, Json.normalItems, List.mapM_cons, h, ih]
      rfl

theorem responseMembers_of_ne (msgType : Bytes) (success : Bool) {text : Bytes} (h : text ≠ []) :
    responseMembers msgType success text =
      [(fieldError, .string text), (fieldMsgType, .string msgType),
        (fieldSuccess, .boolean success)] := by
  rw [responseMembers, if_pos h]
  rfl

theorem historyMessage_normal (msg : Message) :
    historyMessage (Json.object (entryMembers msg)).normal =
      some (msg.username, msg.content, .text msg.timestamp) := by
  rw [Json.normal_object (Json.isSorted_object.mpr (sorted_entryMembers msg))]
  rfl

theorem handleMessage_normal (page : Page) {m : ServerMessage} (h : m.Valid) :
    page.handleMessage (.object (Json.normalMembers m.members)) = some (page.display m) := by
  cases m with
  | register_resp success text =>
      by_cases htext : text = []
      · subst text
        cases success with
        | true => rfl
        | false => exact absurd rfl (h.2 rfl)
      · rw [members, responseMembers_of_ne _ _ htext]
        cases success with
        | true => rfl
        | false => rfl
  | login_failed text =>
      rw [members, responseMembers_of_ne _ _ h.2]
      rfl
  | login_resp onlineUsers =>
      have husers := mapM_normalItems .string (fun user => Page.text (some user)) (fun _ => rfl)
        onlineUsers
      have hread : page.handleMessage
          (.object (Json.normalMembers (members (.login_resp onlineUsers)))) =
            (Json.normalItems (onlineUsers.map .string)).mapM (fun user => Page.text (some user)) >>=
              fun users => some (page.display (.login_resp users)) := rfl
      rw [hread, husers, List.map_id']
      rfl
  | logout_resp => rfl
  | broadcast sender content timestamp => rfl
  | heartbeat_resp serverTime => rfl
  | history messages =>
      have hmessages := mapM_normalItems (fun msg => .object (entryMembers msg)) historyMessage
        historyMessage_normal messages
      have hread : page.handleMessage
          (.object (Json.normalMembers (members (.history messages)))) =
            (Json.normalItems (messages.map fun msg => .object (entryMembers msg))).mapM
              historyMessage >>= fun messages => some (page.loadHistory messages) := rfl
      rw [hread, hmessages]
      rfl
  | error => rfl

-- The page reads every message as the server means it.
theorem onmessage_render (strtod : Bytes → Option Int32) (page : Page) {m : ServerMessage}
    (h : m.Valid) : page.onmessage strtod m.json.render = some (page.display m) := by
  have hnormal : m.json.normal = .object (Json.normalMembers m.members) := by
    rw [json_eq, Json.normal_object (Json.isSorted_object.mpr m.sorted_members)]
  rw [onmessage, Json.parse_render strtod m.json (readable_json h), hnormal]
  exact page.handleMessage_normal h

end Page

end MyTestserver
