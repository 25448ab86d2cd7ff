/-
  CodexRemoteBridge.AppServer — `rpc.py` seen from one task: `connect`,
  `_request`, `call` and `close` as coroutines over the state that all
  tasks share.

  Each operation is one read or write of a shared attribute, or one
  `await`; what it answers is decided by the other tasks, the reader task
  and the server.
-/
import CodexRemoteBridge.Effects

namespace CodexRemoteBridge

open Interaction

/-- A transport, by the order in which they were opened. -/
abbrev Conn : Type := Nat

/-- A frame: a request when it has an id, a notification otherwise. -/
structure Frame where
  id : Option Nat
  method : String
  params : Dict

/-- The object that is serialized. -/
def Frame.toJson (f : Frame) : Json :=
  .obj ((f.id.toList.map fun n => ("id", Json.int n))
    ++ [("method", .str f.method), ("params", .obj f.params)])

/-- The operations of one task on an `AppServer`. -/
inductive NetOp where
  /-- `async with self._connect_lock`: entering and leaving. -/
  | lock
  | unlock
  /-- `self._reader is not None and not self._reader.done()`. -/
  | readerAlive
  /-- `self.socket_path.exists()`. -/
  | socketExists
  /-- `self._ws = await …`: a new transport. -/
  | openTransport
  /-- `self._reader = asyncio.create_task(self._receive())`. -/
  | startReader
  /-- Reading `self._ws`. -/
  | ws
  /-- The next identifier, with its future entered in `self._pending`. -/
  | register
  /-- `await ws.send(json.dumps(frame))`. -/
  | send (ws : Conn) (frame : Frame)
  /-- `await asyncio.wait_for(future, self.timeout)`. -/
  | awaitReply (ident : Nat)
  /-- `self._pending.pop(ident, None)` and `future.cancel()`. -/
  | unregister (ident : Nat)
  /-- `self.info = …`. -/
  | setInfo (info : Json)
  /-- `await self._ws.close()`. -/
  | closeTransport (ws : Conn)
  /-- `self._ws = None`. -/
  | clearWs
  /-- Reading `self._reader`; a reader is named by its connection. -/
  | reader
  | cancelReader (reader : Conn)
  /-- `await self._reader`. -/
  | joinReader (reader : Conn)
  /-- `self._reader = None`. -/
  | clearReader

/-- What an operation is answered with. -/
abbrev NetAns : NetOp → Type
  | .lock => Except Fault Unit
  | .unlock => Unit
  | .readerAlive => Bool
  | .socketExists => Except Fault Bool
  | .openTransport => Except Fault Unit
  | .startReader => Unit
  | .ws => Option Conn
  | .register => Nat
  | .send _ _ => Except Fault Unit
  | .awaitReply _ => Except Fault Dict
  | .unregister _ => Unit
  | .setInfo _ => Unit
  | .closeTransport _ => Except Fault Unit
  | .clearWs => Unit
  | .reader => Option Conn
  | .cancelReader _ => Unit
  | .joinReader _ => Except Fault Unit
  | .clearReader => Unit

/-- Where the daemon listens. -/
class Endpoint where
  socketPath : String

abbrev Endpoint.sample : Endpoint := ⟨"/run/app-server.sock"⟩

/-- A coroutine of `AppServer`. -/
abbrev Net : Type → Type := Co NetOp NetAns PyExc Unit

namespace AppServer

/-- Perform an operation that returns or raises. -/
def perform {α : Type} (op : NetOp) (view : NetAns op → Except PyExc α) : Net α :=
  Co.ask op >>= fun r => Co.ofExcept (view r)

def lock : Net Unit := perform .lock lift
def unlock : Net Unit := Co.ask NetOp.unlock
def readerAlive : Net Bool := Co.ask NetOp.readerAlive
def socketExists : Net Bool := perform .socketExists lift
def openTransport : Net Unit := perform .openTransport lift
def startReader : Net Unit := Co.ask NetOp.startReader
def ws : Net (Option Conn) := Co.ask NetOp.ws
def register : Net Nat := Co.ask NetOp.register
def send (ws : Conn) (frame : Frame) : Net Unit := perform (.send ws frame) lift
def awaitReply (ident : Nat) : Net Dict := perform (.awaitReply ident) lift
def unregister (ident : Nat) : Net Unit := Co.ask (NetOp.unregister ident)
def setInfo (info : Json) : Net Unit := Co.ask (NetOp.setInfo info)
def closeTransport (ws : Conn) : Net Unit := perform (.closeTransport ws) lift
def clearWs : Net Unit := Co.ask NetOp.clearWs
def reader : Net (Option Conn) := Co.ask NetOp.reader
def cancelReader (reader : Conn) : Net Unit := Co.ask (NetOp.cancelReader reader)
def joinReader (reader : Conn) : Net Unit := perform (.joinReader reader) lift
def clearReader : Net Unit := Co.ask NetOp.clearReader

/-- The failure of a request that got no answer. -/
def unavailable (method : String) : PyExc :=
  .transportError (method ++ ": response unavailable; do not resend")

/-- What a reply means to the request it answers. -/
def reply (method : String) (message : Dict) : Except PyExc Json :=
  match message.get? "error" with
  | some (.obj error) => .error (.rpcError method error)
  -- `RpcError.__init__` asks the error for its message.
  | some error =>
      .error (.attributeError ("'" ++ error.typeName ++ "' object has no attribute 'get'"))
  | none =>
      match message.get? "result" with
      | some result => .ok result
      | none => .error (.transportError (method ++ ": invalid response; outcome unknown"))

/-- Sending a registered request and waiting for its reply. -/
def exchange (ws : Conn) (ident : Nat) (method : String) (params : Dict) : Net Dict :=
  Co.tryCatch
    (do
      send ws ⟨some ident, method, params⟩
      awaitReply ident)
    fun error => if error.isOSError then Co.throw (unavailable method) else Co.throw error

/-- `_request`. -/
def request (method : String) (params : Dict) : Net Json := do
  let ws ← ws
  match ws with
  | none => Co.throw (.transportError "App Server is not connected")
  | some ws => do
      let ident ← register
      let message ← Co.tryFinally (exchange ws ident method params) (unregister ident)
      Co.ofExcept (reply method message)

/-- `with contextlib.suppress(asyncio.CancelledError)`. -/
def suppressCancelled (c : Net Unit) : Net Unit :=
  Co.tryCatch c fun
    | .cancelledError => pure ()
    | error => Co.throw error

/-- `close`. -/
def close : Net Unit := do
  let ws ← ws
  match ws with
  | none => pure ()
  | some ws => do
      closeTransport ws
      clearWs
  let reader ← reader
  match reader with
  | none => pure ()
  | some reader => do
      cancelReader reader
      suppressCancelled (joinReader reader)
      clearReader

/-- The parameters of the `initialize` request. -/
def clientInfo : Dict :=
  [("clientInfo", .obj
     [("name", .str "codex_remote_bridge"), ("version", .str "0.3.0")]),
   ("capabilities", .obj [("experimentalApi", .bool true)])]

variable [Endpoint]

/-- The failure when there is no control socket. -/
def socketMissing : PyExc :=
  .exception "FileNotFoundError"
    ("Codex control socket not found: " ++ Endpoint.socketPath ++ ". " ++
     "Use an existing daemon socket (--socket), or start the managed " ++
     "daemon with 'codex app-server daemon start'. The bridge does not " ++
     "start or replace app-servers.")

/-- The `try` block of `connect`: a new transport, its reader, and the
handshake. -/
def establish : Net Unit := do
  let present ← socketExists
  if !present then Co.throw socketMissing
  else do
    openTransport
    startReader
    let info ← request "initialize" clientInfo
    setInfo info
    let ws ← ws
    match ws with
    | none => Co.throw (.attributeError "'NoneType' object has no attribute 'send'")
    | some ws => send ws ⟨none, "initialized", []⟩

/-- `connect`. -/
def connect : Net Unit := do
  lock
  Co.tryFinally
    (do
      let alive ← readerAlive
      if alive then pure ()
      else do
        close
        Co.tryCatch establish fun error => do
          close
          Co.throw error)
    unlock

/-- `call`: reconnect before a new request, never retry one already sent. -/
def call (method : String) (params : Dict) : Net Json := do
  connect
  request method params

end AppServer

end CodexRemoteBridge
