import MyTestserver.Basic

namespace MyTestserver

structure User where
  id : ℤ
  username : Bytes
  password : Bytes
  deriving DecidableEq

structure Message where
  id : ℤ
  userId : ℤ
  username : Bytes
  content : Bytes
  timestamp : Bytes
  deriving DecidableEq

-- The queries of UserDao, over whatever MySQL keeps in the users table and of the
-- connection to it. Any answer may come, and any later state, so that a lost connection
-- and other clients of the database are in the model.
structure UserDao (υ : Type) where
  getUserByUsername : υ → Bytes → Option User × υ
  insertUser : υ → Bytes → Bytes → Bool × υ

-- The same for MessageDao and the messages table, joined with the names of the authors.
structure MessageDao (μ : Type) where
  saveMessage : μ → ℤ → Bytes → Bool × μ
  getRecentMessages : μ → ℤ → List Message × μ

namespace UserDao

variable {υ : Type} (dao : UserDao υ)

def verifyUser (users : υ) (username password : Bytes) : Bool × υ :=
  match dao.getUserByUsername users username with
  | (some user, users) => (user.password == password, users)
  | (none, users) => (false, users)

def userExists (users : υ) (username : Bytes) : Bool × υ :=
  match dao.getUserByUsername users username with
  | (user, users) => (user.isSome, users)

end UserDao

end MyTestserver
