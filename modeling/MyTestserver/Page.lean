import MyTestserver.ChatServer
import MyTestserver.JsonTheorems

namespace MyTestserver

-- The time of a message: seconds of the clock of the server, or a text for Date.parse.
inductive Page.Time
  | seconds (timestamp : ℤ)
  | text (timestamp : Bytes)
  deriving DecidableEq

-- What web/chat.html shows, and what it keeps beside. `input` is the value of the field for
-- the user name.
structure Page where
  input : Bytes
  chatPanel : Bool
  currentUsername : Bytes
  errorMessage : Bytes
  userList : List Bytes
  messages : List (Bytes × Bytes × Page.Time)
  alerts : List Bytes
  connected : Bool
  sent : List Bytes

namespace Page

section Values

-- The server sends no float, so that the int which is kept of one is never looked at here.

-- A property of a value that JSON.parse made; undefined is none.
def property (j : Json) (key : Bytes) : Option Json :=
  match j with
  | .object members => members.lookup key
  | _ => none

def text : Option Json → Option Bytes
  | some (.string value) => some value
  | _ => none

def truthy : Option Json → Bool
  | none | some .null => false
  | some (.boolean value) => value
  | some (.number_integer n) => n ≠ 0
  | some (.number_unsigned n) => n ≠ 0
  | some (.number_float n) => n ≠ 0
  | some (.string value) => value ≠ []
  | some (.array _) | some (.object _) => true

def number : Option Json → Option ℤ
  | some (.number_integer n) => some n
  | some (.number_unsigned n) => some n
  | some (.number_float n) => some n.toInt
  | _ => none

def items : Option Json → Option (List Json)
  | some (.array items) => some items
  | _ => none

end Values

-- JSON.stringify writes what the library of the server writes.
def sendMessage (page : Page) (data : Json) : Page :=
  if page.connected then { page with sent := page.sent ++ [data.render] }
  else { page with errorMessage := ascii "连接未打开，请重新连接" }

def showError (page : Page) (message : Bytes) : Page := { page with errorMessage := message }

def disconnect (page : Page) : Page := { page with connected := false, currentUsername := [] }

def updateUserList (page : Page) (users : List Bytes) : Page := { page with userList := users }

def appendMessage (page : Page) (sender content : Bytes) (timestamp : Time) : Page :=
  { page with messages := page.messages ++ [(sender, content, timestamp)] }

-- A message of the history, of which all three properties are texts.
def historyMessage (msg : Json) : Option (Bytes × Bytes × Time) := do
  let sender ← text (property msg fieldSender)
  let content ← text (property msg fieldContent)
  let timestamp ← text (property msg fieldTimestamp)
  return (sender, content, .text timestamp)

def loadHistory (page : Page) (messages : List (Bytes × Bytes × Time)) : Page :=
  { page with messages := messages }

-- What the handlers of the page send, with the properties in the order they are written in.
inductive Action
  | login (username password : Bytes)
  | register (username password : Bytes)
  | chat (content : Bytes)
  | logout
  | heartbeat
  | get_history
  deriving DecidableEq

def Action.json : Action → Json
  | .login username password =>
      .object [(fieldMsgType, .string msgTypeLogin), (fieldUsername, .string username),
        (fieldPassword, .string password)]
  | .register username password =>
      .object [(fieldMsgType, .string msgTypeRegister), (fieldUsername, .string username),
        (fieldPassword, .string password)]
  | .chat content => .object [(fieldMsgType, .string msgTypeChat), (fieldContent, .string content)]
  | .logout => .object [(fieldMsgType, .string msgTypeLogout)]
  | .heartbeat => .object [(fieldMsgType, .string msgTypeHeartbeat)]
  | .get_history =>
      .object [(fieldMsgType, .string msgTypeGetHistory), (fieldLimit, .number_integer 50)]

-- The function is partial where the page would go on with a property that is not there or
-- of another type than it takes it to be, or does not know the message.
def handleMessage (page : Page) (msg : Json) : Option Page := do
  let msgType ← text (property msg fieldMsgType)
  if msgType = msgTypeRegisterResp then
    if truthy (property msg fieldSuccess) then return page.showError (ascii "注册成功，请登录")
    else return page.showError (← text (property msg fieldError))
  else if msgType = msgTypeLoginResp then
    if truthy (property msg fieldSuccess) then
      let users ← items (property msg fieldOnlineUsers)
      let users ← users.mapM fun user => text (some user)
      let page := { page with currentUsername := page.input }.updateUserList users
      return { page with chatPanel := true }.sendMessage Action.get_history.json
    else return page.showError (← text (property msg fieldError))
  else if msgType = msgTypeLogoutResp then
    if truthy (property msg fieldSuccess) then return { page.disconnect with chatPanel := false }
    else return page
  else if msgType = msgTypeBroadcast then
    let sender ← text (property msg fieldSender)
    let content ← text (property msg fieldContent)
    return page.appendMessage sender content (.seconds (← number (property msg fieldTimestamp)))
  else if msgType = msgTypeHistory then
    let messages ← items (property msg fieldMessages)
    return page.loadHistory (← messages.mapM historyMessage)
  else if msgType = msgTypeError then
    let error ← text (property msg fieldError)
    return { page with alerts := page.alerts ++ [ascii "错误: " ++ error] }
  else if msgType = msgTypeHeartbeatResp then return page
  else none

-- ws.onmessage. JSON.parse reads the same texts as the parser of the server.
def onmessage (strtod : Bytes → Option Int32) (page : Page) (data : Bytes) : Option Page :=
  match Json.parse strtod data with
  | .ok msg => page.handleMessage msg
  | .error _ => none

end Page

end MyTestserver
