import MyTestserver.Json

namespace MyTestserver

section Names

def msgTypeRegister : Bytes := ascii "register"
def msgTypeLogin : Bytes := ascii "login"
def msgTypeLogout : Bytes := ascii "logout"
def msgTypeChat : Bytes := ascii "chat"
def msgTypeHeartbeat : Bytes := ascii "heartbeat"
def msgTypeGetHistory : Bytes := ascii "get_history"

def msgTypeRegisterResp : Bytes := ascii "register_resp"
def msgTypeLoginResp : Bytes := ascii "login_resp"
def msgTypeLogoutResp : Bytes := ascii "logout_resp"
def msgTypeBroadcast : Bytes := ascii "broadcast"
def msgTypeHistory : Bytes := ascii "history"
def msgTypeError : Bytes := ascii "error"
def msgTypeHeartbeatResp : Bytes := ascii "heartbeat_resp"

def fieldMsgType : Bytes := ascii "msgType"
def fieldUsername : Bytes := ascii "username"
def fieldPassword : Bytes := ascii "password"
def fieldContent : Bytes := ascii "content"
def fieldSuccess : Bytes := ascii "success"
def fieldError : Bytes := ascii "error"
def fieldSender : Bytes := ascii "sender"
def fieldTimestamp : Bytes := ascii "timestamp"
def fieldServerTime : Bytes := ascii "serverTime"
def fieldOnlineUsers : Bytes := ascii "onlineUsers"
def fieldMessages : Bytes := ascii "messages"
def fieldLimit : Bytes := ascii "limit"

end Names

-- A message of the client, with the fields that its branch of handleWebSocketMessage reads.
inductive Request
  | register (username password : Bytes)
  | login (username password : Bytes)
  | logout
  | chat (content : Bytes)
  | heartbeat
  | get_history (limit : ℤ)
  | unknown (msgType : Bytes)
  deriving DecidableEq

namespace Request

-- What the branch of a message type reads.
def readFields (msgType : Bytes) (j : Json) : Except Exception Request := do
  if msgType = msgTypeRegister then
    let username ← j.valueString fieldUsername []
    let password ← j.valueString fieldPassword []
    return .register username password
  else if msgType = msgTypeLogin then
    let username ← j.valueString fieldUsername []
    let password ← j.valueString fieldPassword []
    return .login username password
  else if msgType = msgTypeLogout then
    return .logout
  else if msgType = msgTypeChat then
    let content ← j.valueString fieldContent []
    return .chat content
  else if msgType = msgTypeHeartbeat then
    return .heartbeat
  else if msgType = msgTypeGetHistory then
    let limit ← j.valueInt fieldLimit 50
    return .get_history limit
  else
    return .unknown msgType

-- All that handleWebSocketMessage reads of the parsed payload. No branch does anything
-- else before it has read its fields, so reading comes first here.
def read (j : Json) : Except Exception Request := do
  let msgType ← j.index fieldMsgType
  let msgType ← msgType.getString
  readFields msgType j

def StringField (members : List (Bytes × Json)) (field : Bytes) : Prop :=
  ∀ v, members.lookup field = some v → ∃ text, v = .string text

-- What converts to int: the numbers, and the booleans.
def IntField (members : List (Bytes × Json)) (field : Bytes) : Prop :=
  ∀ v, members.lookup field = some v → ∃ n, v.getInt = .ok n

-- The fields that the branch of a message type uses have the types it expects, where present.
def UsedFields (msgType : Bytes) (members : List (Bytes × Json)) : Prop :=
  if msgType = msgTypeRegister then
    StringField members fieldUsername ∧ StringField members fieldPassword
  else if msgType = msgTypeLogin then
    StringField members fieldUsername ∧ StringField members fieldPassword
  else if msgType = msgTypeLogout then True
  else if msgType = msgTypeChat then StringField members fieldContent
  else if msgType = msgTypeHeartbeat then True
  else if msgType = msgTypeGetHistory then IntField members fieldLimit
  else True

def WellTyped (j : Json) : Prop :=
  ∃ members msgType, j = .object members ∧
    members.lookup fieldMsgType = some (.string msgType) ∧ UsedFields msgType members

section Reading

variable {j : Json} {msgType : Bytes} {members : List (Bytes × Json)} {r : Request} {e : Exception}

theorem valueString_object_iff {field : Bytes} :
    (∃ text, (Json.object members).valueString field [] = .ok text) ↔
      StringField members field := by
  simp only [Json.valueString, StringField]
  cases members.lookup field with
  | none => simp
  | some v => simp [Json.getString_eq_ok_iff]

theorem valueInt_object_iff {field : Bytes} :
    (∃ n, (Json.object members).valueInt field 50 = .ok n) ↔ IntField members field := by
  simp only [Json.valueInt, IntField]
  cases members.lookup field with
  | none => simp
  | some v => simp

theorem readFields_error (h : readFields msgType j = .error e) : e = .type_error := by
  unfold readFields at h
  repeat' split at h
  all_goals
    simp only [bind_eq_error_iff, pure, Except.pure, reduceCtorEq, and_false, exists_false,
      or_false] at h
  · rcases h with h | ⟨_, _, h⟩ <;> exact Json.valueString_error h
  · rcases h with h | ⟨_, _, h⟩ <;> exact Json.valueString_error h
  · exact Json.valueString_error h
  · exact Json.valueInt_error h

theorem read_error (h : read j = .error e) : e = .type_error := by
  simp only [read, bind_eq_error_iff] at h
  rcases h with h | ⟨v, _, h | ⟨_, _, h⟩⟩
  · exact Json.index_error h
  · exact Json.getString_error h
  · exact readFields_error h

-- Branch by branch the fields convert exactly when they have the expected types.
theorem readFields_ok_iff :
    (∃ r, readFields msgType (.object members) = .ok r) ↔ UsedFields msgType members := by
  unfold readFields UsedFields
  split_ifs
  all_goals
    simp only [bind_eq_ok_iff, pure, Except.pure, Except.ok.injEq, ← valueString_object_iff,
      ← valueInt_object_iff, exists_eq']
  all_goals grind

theorem read_ok_iff : (∃ r, read j = .ok r) ↔ WellTyped j := by
  simp only [read, bind_eq_ok_iff, Json.getString_eq_ok_iff]
  constructor
  · rintro ⟨r, v, hv, msgType, rfl, hr⟩
    cases j with
    | object members =>
        refine ⟨members, msgType, rfl, ?_, readFields_ok_iff.mp ⟨r, hr⟩⟩
        simp only [Json.index, Except.ok.injEq] at hv
        cases hlook : members.lookup fieldMsgType with
        | none => simp [hlook] at hv
        | some w => simpa [hlook] using hv
    | _ => simp [Json.index] at hv
  · rintro ⟨members, msgType, rfl, hlook, hused⟩
    obtain ⟨r, hr⟩ := readFields_ok_iff.mpr hused
    exact ⟨r, .string msgType, by simp [Json.index, hlook], msgType, rfl, hr⟩

-- The strings of a request come out of the parsed value, where they are UTF-8.
def Utf8 : Request → Prop
  | .register username _ | .login username _ => ValidUtf8 username
  | .chat content => ValidUtf8 content
  | _ => True

theorem readFields_utf8 (hj : j.Utf8) (h : readFields msgType j = .ok r) : r.Utf8 := by
  have hstring : ∀ {field text}, j.valueString field [] = .ok text → ValidUtf8 text :=
    fun htext => Json.valueString_utf8 hj (validUtf8_ascii "") htext
  unfold readFields at h
  repeat' split at h
  all_goals
    simp only [bind_eq_ok_iff, pure, Except.pure, Except.ok.injEq] at h
  · obtain ⟨_, hname, _, _, rfl⟩ := h
    exact hstring hname
  · obtain ⟨_, hname, _, _, rfl⟩ := h
    exact hstring hname
  · exact h ▸ trivial
  · obtain ⟨_, hcontent, rfl⟩ := h
    exact hstring hcontent
  · exact h ▸ trivial
  · obtain ⟨_, _, rfl⟩ := h
    trivial
  · exact h ▸ trivial

theorem read_utf8 (hj : j.Utf8) (h : read j = .ok r) : r.Utf8 := by
  simp only [read, bind_eq_ok_iff] at h
  obtain ⟨_, _, _, _, h⟩ := h
  exact readFields_utf8 hj h

end Reading

end Request

end MyTestserver
