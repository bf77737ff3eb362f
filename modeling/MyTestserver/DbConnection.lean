import MyTestserver.Database

namespace MyTestserver

-- A C string ends at the first NUL.
def cString (bytes : Bytes) : Bytes := bytes.takeWhile (· ≠ 0)

-- One row of a result, as MYSQL_ROW points to it: a column is NULL or the stored bytes.
abbrev Row := List (Option Bytes)

-- The client library and the server behind it: whether mysql_query comes back with zero,
-- and the rows that mysql_store_result has, if it has any.
structure Mysql (δ : Type) where
  mysql_query : δ → Bytes → Bool × δ
  mysql_store_result : δ → Option (List Row) × δ

structure DbConnection (δ : Type) where
  connected : Bool
  mysql : δ
  deriving DecidableEq

section Text

-- The two bytes that stand for one of the seven, all others are copied.
def escapeByte (byte : UInt8) : Bytes :=
  if byte = 0 then ascii "\\0"
  else if byte = 10 then ascii "\\n"
  else if byte = 13 then ascii "\\r"
  else if byte = 92 then ascii "\\\\"
  else if byte = 39 then ascii "\\'"
  else if byte = 34 then ascii "\\\""
  else if byte = 26 then ascii "\\Z"
  else [byte]

-- What mysql_real_escape_string writes into the buffer, the NUL behind it included.
def mysql_real_escape_string (from_ : Bytes) : Bytes := from_.flatMap escapeByte ++ [0]

-- The number of chars that DbConnection::escape allocates.
def escapeBufferSize (str : Bytes) : ℕ := str.length * 2 + 1

-- DbConnection::escape. The string is made from the buffer as a C string.
def escape (str : Bytes) : Bytes := cString (mysql_real_escape_string str)

def toDigits (n : ℕ) : Bytes := (Nat.toDigits 10 n).map fun c => UInt8.ofNat c.toNat

-- std::to_string
def toDecimal : ℤ → Bytes
  | .ofNat n => toDigits n
  | .negSucc n => ascii "-" ++ toDigits (n + 1)

def digitsValue (digits : Bytes) : ℕ :=
  (digits.takeWhile isDigit).foldl (fun n digit => n * 10 + (digit.toNat - 48)) 0

def atoi (text : Bytes) : ℤ :=
  match text.dropWhile isSpace with
  | 45 :: digits => -digitsValue digits
  | 43 :: digits => digitsValue digits
  | digits => digitsValue digits

-- row[i] ? row[i] : "", as a C string
def column (row : Row) (i : ℕ) : Bytes := cString ((row.getD i none).getD [])

end Text

namespace DbConnection

variable {δ : Type} (api : Mysql δ) (db : DbConnection δ)

def execute (sql : Bytes) : Bool × DbConnection δ :=
  if db.connected = false then (false, db)
  else
    match api.mysql_query db.mysql (cString sql) with
    | (ok, mysql) => (ok, { db with mysql := mysql })

def query (sql : Bytes) : Option (List Row) × DbConnection δ :=
  if db.connected = false then (none, db)
  else
    match api.mysql_query db.mysql (cString sql) with
    | (false, mysql) => (none, { db with mysql := mysql })
    | (true, mysql) =>
        match api.mysql_store_result mysql with
        | (result, mysql) => (result, { db with mysql := mysql })

section Statements

def insertUserSql (username password : Bytes) : Bytes :=
  ascii "INSERT INTO users (username, password) VALUES ('" ++ escape username ++ ascii "', '" ++
    escape password ++ ascii "')"

def getUserByUsernameSql (username : Bytes) : Bytes :=
  ascii "SELECT id, username, password FROM users WHERE username = '" ++ escape username ++
    ascii "'"

def saveMessageSql (userId : ℤ) (content : Bytes) : Bytes :=
  ascii "INSERT INTO messages (user_id, content) VALUES (" ++ toDecimal userId ++ ascii ", '" ++
    escape content ++ ascii "')"

def getRecentMessagesSql (limit : ℤ) : Bytes :=
  ascii "SELECT m.id, m.user_id, u.username, m.content, " ++
    ascii "DATE_FORMAT(m.timestamp, '%Y-%m-%d %H:%i:%s') as formatted_time " ++
    ascii "FROM messages m JOIN users u ON m.user_id = u.id " ++
    ascii "ORDER BY m.timestamp DESC LIMIT " ++ toDecimal limit

end Statements

section Daos

-- The members of UserDao and MessageDao, on the connection that each of the two has.

def insertUser (username password : Bytes) : Bool × DbConnection δ :=
  if db.connected = false then (false, db) else db.execute api (insertUserSql username password)

-- atoi of a NULL would be undefined; the id of a row is never NULL.
def userOf (row : Row) : User where
  id := atoi (column row 0)
  username := column row 1
  password := column row 2

def getUserByUsername (username : Bytes) : Option User × DbConnection δ :=
  if db.connected = false then (none, db)
  else
    match db.query api (getUserByUsernameSql username) with
    | (none, db) => (none, db)
    | (some rows, db) => (rows.head?.map userOf, db)

def saveMessage (userId : ℤ) (content : Bytes) : Bool × DbConnection δ :=
  if db.connected = false then (false, db) else db.execute api (saveMessageSql userId content)

def messageOf (row : Row) : Message where
  id := atoi (column row 0)
  userId := atoi (column row 1)
  username := column row 2
  content := column row 3
  timestamp := column row 4

-- The rows are reversed to get the oldest first.
def getRecentMessages (limit : ℤ) : List Message × DbConnection δ :=
  if db.connected = false then ([], db)
  else
    match db.query api (getRecentMessagesSql limit) with
    | (none, db) => ([], db)
    | (some rows, db) => ((rows.map messageOf).reverse, db)

-- heartBeat of either
def heartBeat : Bool × DbConnection δ :=
  if db.connected = false then (false, db)
  else
    match db.query api (ascii "SELECT 1") with
    | (result, db) => (result.isSome, db)

def userDao : UserDao (DbConnection δ) where
  getUserByUsername := getUserByUsername api
  insertUser := insertUser api

def messageDao : MessageDao (DbConnection δ) where
  saveMessage := saveMessage api
  getRecentMessages := getRecentMessages api

end Daos

end DbConnection

end MyTestserver
