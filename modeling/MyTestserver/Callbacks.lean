import MyTestserver.TcpConnection

namespace MyTestserver.Callbacks

-- The callbacks of a connection as they are run: connectionCallback_ with connected() true
-- and false, messageCallback_ and closeCallback_. ChatServer sets no others.
inductive Callback
  | up
  | down
  | message
  | close
  deriving DecidableEq

-- The bits of revents_ that a channel looks at.
structure Revents where
  EPOLLIN : Bool := false
  EPOLLPRI : Bool := false
  EPOLLOUT : Bool := false
  EPOLLERR : Bool := false
  EPOLLHUP : Bool := false
  deriving DecidableEq

-- What Buffer::readFd returns.
inductive ReadResult
  | read (n : ℕ)
  | failed
  deriving DecidableEq

-- What a handler does to its own connection.
inductive Reply
  | send (buf : Bytes) (result : WriteResult)
  | shutdown

-- One connection with the callbacks so far; `known` is that connectionStates_ has an entry
-- for it.
structure Connection where
  conn : TcpConnection
  callbacks : List Callback
  known : Bool

namespace Connection

section Operations

variable (c : Connection)

def update (conn : TcpConnection) : Connection := { c with conn := conn }

-- TcpConnection::send on the loop thread.
def send (buf : Bytes) (result : WriteResult) : Connection :=
  if c.conn.state = .kConnected then c.update ((c.conn.sendInLoop result buf).getD c.conn) else c

-- TcpConnection::shutdown on the loop thread.
def shutdown : Connection :=
  if c.conn.state = .kConnected then
    c.update { c.conn with state := .kDisconnecting }.shutdownInLoop
  else c

def reply : Reply → Connection
  | .send buf result => c.send buf result
  | .shutdown => c.shutdown

-- ChatServer::onConnection, as connectionCallback_
def connectionCallback : Connection :=
  if c.conn.state = .kConnected then
    { c with callbacks := c.callbacks ++ [Callback.up], known := true }
  else { c with callbacks := c.callbacks ++ [Callback.down], known := false }.shutdown

-- ChatServer::onMessage, as messageCallback_. Its first line makes an entry where there is
-- none.
def messageCallback (replies : List Reply) : Connection :=
  replies.foldl reply { c with callbacks := c.callbacks ++ [Callback.message], known := true }

-- TcpServer::removeConnection, as closeCallback_
def closeCallback : Connection := { c with callbacks := c.callbacks ++ [Callback.close] }

-- disableAll of the channel leaves the flag for writable events off.
def setDisconnected : Connection :=
  c.update { c.conn with state := .kDisconnected, isWriting := false }

def handleClose : Connection := c.setDisconnected.connectionCallback.closeCallback

-- handleError only logs.
def handleRead (n : ReadResult) (replies : List Reply) : Connection :=
  match n with
  | .read 0 => c.handleClose
  | .read _ => c.messageCallback replies
  | .failed => c

def connectEstablished : Connection :=
  (c.update { c.conn with state := .kConnected }).connectionCallback

def connectDestroyed : Connection :=
  if c.conn.state = .kConnected then c.setDisconnected.connectionCallback else c

-- Channel::handleEventWithGuard
def handleEvent (revents : Revents) (n : ReadResult) (replies : List Reply) (written : ℕ) :
    Connection :=
  let c := if revents.EPOLLHUP && !revents.EPOLLIN then c.handleClose else c
  let c := if revents.EPOLLIN || revents.EPOLLPRI then c.handleRead n replies else c
  if revents.EPOLLOUT then c.update (c.conn.handleWrite written) else c

end Operations

-- What can happen to a connection once it is established. `reply` is a send or shutdown by
-- another handler of the loop; the rest of those made on other threads is the state that
-- shutdown sets at once, and the functors.
inductive Event
  | handleEvent (revents : Revents) (n : ReadResult) (replies : List Reply) (written : ℕ)
  | reply (reply : Reply)
  | setDisconnecting
  | sendInLoop (buf : Bytes) (result : WriteResult)
  | shutdownInLoop
  | connectDestroyed

def next (c : Connection) : Event → Connection
  | .handleEvent revents n replies written => c.handleEvent revents n replies written
  | .reply reply => c.reply reply
  | .setDisconnecting =>
      if c.conn.state = .kConnected then c.update { c.conn with state := .kDisconnecting } else c
  | .sendInLoop buf result => c.update ((c.conn.sendInLoop result buf).getD c.conn)
  | .shutdownInLoop => c.update c.conn.shutdownInLoop
  | .connectDestroyed => c.connectDestroyed

-- A new connection of the server, established on its loop.
def established (loop : ThreadId) : Connection :=
  connectEstablished { conn := .new loop, callbacks := [], known := false }

end Connection

end MyTestserver.Callbacks
