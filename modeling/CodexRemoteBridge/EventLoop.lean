/-
  CodexRemoteBridge.EventLoop — `rpc.py` as all tasks of the event loop
  share it: the attributes of the `AppServer`, its transports, and the
  reader task of each connection.

  Any number of `call`, `connect` and `close` run at once.  A task goes on
  without a break between two awaits, and may be cancelled at each; what
  the transport, the peer and the clock do is in the hands of the
  surroundings.  `Spot` follows each task through its code.
-/
import CodexRemoteBridge.Lib.Cooperative
import CodexRemoteBridge.Wire
import Mathlib.Logic.Function.Basic

namespace CodexRemoteBridge

open Interaction

/-! ## §1. What the tasks share. -/

/-- A future of `self._pending`. -/
inductive Future where
  | waiting
  | resolved (message : Dict)
  | failed (failure : String)

/-- The reader task of a connection. -/
inductive Reader where
  /-- `create_task`: its first step is still to come. -/
  | created
  /-- In `async for raw in ws`. -/
  | reading (ws : Conn)
  /-- With the exception it has raised, if any. -/
  | done (raised : Option Fault)

/-- What a task has handed to a transport. -/
inductive Transit where
  | idle
  | queued (ws : Conn) (frame : Frame)
  /-- The transport's `close()` had been entered before. -/
  | refused
  | sent

/-- What has happened on the wire and to the table of requests. -/
inductive Entry where
  | registered (task ident : Nat)
  | unregistered (ident : Nat)
  | sent (task : Nat) (ws : Conn) (frame : Frame)
  | arrived (ws : Conn) (raw : Except Fault Json)

/-- The attributes of the `AppServer`, with its transports and readers. -/
structure Link where
  /-- `_ws` -/
  ws : Option Conn
  /-- `_reader`: a reader is named by its connection. -/
  reader : Option Conn
  /-- `_counter` -/
  counter : Nat
  /-- `_pending` -/
  pending : List (Nat × Future)
  /-- Who holds `_connect_lock`. -/
  holder : Option Nat
  /-- `info` -/
  info : Json
  /-- How many transports have been opened; they are numbered from 0. -/
  opened : Nat
  /-- The transport's `close()` has been entered. -/
  closing : Conn → Bool
  readers : Conn → Reader
  /-- `cancel()` has been called on the reader. -/
  cancelled : Conn → Bool
  transit : Nat → Transit
  log : List Entry

namespace Link

/-- `AppServer.__init__`. -/
def init : Link where
  ws := none
  reader := none
  counter := 0
  pending := []
  holder := none
  info := .obj []
  opened := 0
  closing := fun _ => false
  readers := fun _ => .done none
  cancelled := fun _ => false
  transit := fun _ => .idle
  log := []

/-- `self._reader is not None and not self._reader.done()`. -/
def alive (s : Link) : Bool :=
  match s.reader with
  | none => false
  | some c =>
      match s.readers c with
      | .done _ => false
      | _ => true

/-- `future.set_exception(TransportError(failure))` for every future that
is not done. -/
def failAll (failure : String) (pending : List (Nat × Future)) : List (Nat × Future) :=
  pending.map fun p =>
    match p.2 with
    | .waiting => (p.1, .failed failure)
    | _ => p

/-- `future.set_result(message)`. -/
def resolve (ident : Nat) (message : Dict) (pending : List (Nat × Future)) :
    List (Nat × Future) :=
  pending.map fun p => if p.1 = ident then (ident, .resolved message) else p

/-- The entry that `self._pending.get(id)` finds. -/
def lookup (id : Json) (pending : List (Nat × Future)) : Option (Nat × Future) :=
  pending.find? fun p => id.pyEq (.int p.1)

/-- The body of `async for raw in ws`, on one message. -/
def receive (pending : List (Nat × Future)) : Json → Except PyExc (List (Nat × Future))
  | .obj message =>
      if (Dict.get? message "method").isSome then .ok pending
      else
        match (Dict.get? message "id").getD .null with
        | .arr _ => .error (.typeError "unhashable type: 'list'")
        | .obj _ => .error (.typeError "unhashable type: 'dict'")
        | id =>
            match lookup id pending with
            | some (ident, .waiting) => .ok (resolve ident message pending)
            | _ => .ok pending
  -- `in` also searches a string and a list, which have no `get`.
  | .str s =>
      if s.toList.tails.any fun rest => "method".toList.isPrefixOf rest then .ok pending
      else .error (.attributeError "'str' object has no attribute 'get'")
  | .arr items =>
      if items.any fun item => item.pyEq (.str "method") then .ok pending
      else .error (.attributeError "'list' object has no attribute 'get'")
  | v => .error (.typeError ("argument of type '" ++ v.typeName ++ "' is not iterable"))

/-- What the reader tells every caller when it has ended. -/
def disconnected : String := "App Server disconnected"

def transportFailed (error : PyExc) : String :=
  "App Server transport failed: " ++ error.typeName ++ ": " ++ error.message

/-! ## §2. The operations. -/

/-- An operation that does not suspend. -/
inductive Acts (i : Nat) (s : Link) : Event NetAns → Link → Prop
  | unlock : Acts i s ⟨.unlock, ()⟩ { s with holder := none }
  | readerAlive : Acts i s ⟨.readerAlive, s.alive⟩ s
  | socketExists (r : Except Fault Bool) : Acts i s ⟨.socketExists, r⟩ s
  | startReader :
      Acts i s ⟨.startReader, ()⟩
        { s with
          reader := some (s.opened - 1)
          readers := Function.update s.readers (s.opened - 1) .created }
  | ws : Acts i s ⟨.ws, s.ws⟩ s
  | register :
      Acts i s ⟨.register, s.counter + 1⟩
        { s with
          counter := s.counter + 1
          pending := s.pending ++ [(s.counter + 1, .waiting)]
          log := s.log ++ [.registered i (s.counter + 1)] }
  | unregister (ident : Nat) :
      Acts i s ⟨.unregister ident, ()⟩
        { s with
          pending := s.pending.filter fun p => p.1 ≠ ident
          log := s.log ++ [.unregistered ident] }
  | setInfo (info : Json) : Acts i s ⟨.setInfo info, ()⟩ { s with info := info }
  | clearWs : Acts i s ⟨.clearWs, ()⟩ { s with ws := none }
  | reader : Acts i s ⟨.reader, s.reader⟩ s
  | cancelReader (c : Conn) :
      Acts i s ⟨.cancelReader c, ()⟩ { s with cancelled := Function.update s.cancelled c true }
  | clearReader : Acts i s ⟨.clearReader, ()⟩ { s with reader := none }

/-- What an awaited operation does before it suspends.  A send after the
transport's `close()` was entered will raise. -/
inductive Begins (i : Nat) (s : Link) : NetOp → Link → Prop
  | lock : Begins i s .lock s
  | openTransport : Begins i s .openTransport s
  | send (c : Conn) (frame : Frame) :
      Begins i s (.send c frame)
        { s with
          transit := Function.update s.transit i
            (if s.closing c then .refused else .queued c frame) }
  | awaitReply (ident : Nat) : Begins i s (.awaitReply ident) s
  | closeTransport (c : Conn) :
      Begins i s (.closeTransport c) { s with closing := Function.update s.closing c true }
  | joinReader (c : Conn) : Begins i s (.joinReader c) s

/-- The frame is transmitted. -/
inductive Stirs (i : Nat) (s : Link) : NetOp → Link → Prop
  | transmit {c : Conn} {frame : Frame} :
      s.transit i = .queued c frame →
      Stirs i s (.send c frame)
        { s with
          transit := Function.update s.transit i .sent
          log := s.log ++ [.sent i c frame] }

/-- What an awaited operation comes back with. -/
inductive Resumes (i : Nat) (s : Link) : Event NetAns → Link → Prop
  | lock : s.holder = none → Resumes i s ⟨.lock, .ok ()⟩ { s with holder := some i }
  | lockFails (fault : Fault) : Resumes i s ⟨.lock, .error fault⟩ s
  | openTransport :
      Resumes i s ⟨.openTransport, .ok ()⟩
        { s with ws := some s.opened, opened := s.opened + 1 }
  | openTransportFails (fault : Fault) : Resumes i s ⟨.openTransport, .error fault⟩ s
  | send (c : Conn) (frame : Frame) :
      s.transit i = .sent →
      Resumes i s ⟨.send c frame, .ok ()⟩
        { s with transit := Function.update s.transit i .idle }
  | sendFails (c : Conn) (frame : Frame) (fault : Fault) :
      Resumes i s ⟨.send c frame, .error fault⟩
        { s with transit := Function.update s.transit i .idle }
  | awaitReply {ident : Nat} {message : Dict} :
      (ident, .resolved message) ∈ s.pending →
      Resumes i s ⟨.awaitReply ident, .ok message⟩ s
  | awaitReplyFails {ident : Nat} {failure : String} :
      (ident, .failed failure) ∈ s.pending →
      Resumes i s ⟨.awaitReply ident, .error (.exception "TransportError" failure)⟩ s
  /-- The timeout of `wait_for`. -/
  | awaitReplyTimesOut (ident : Nat) :
      Resumes i s ⟨.awaitReply ident, .error (.exception "TimeoutError" "")⟩ s
  | awaitReplyCancelled (ident : Nat) :
      Resumes i s ⟨.awaitReply ident, .error .cancelled⟩ s
  | closeTransport (c : Conn) : Resumes i s ⟨.closeTransport c, .ok ()⟩ s
  | closeTransportFails (c : Conn) (fault : Fault) :
      Resumes i s ⟨.closeTransport c, .error fault⟩ s
  | joinReader {c : Conn} : s.readers c = .done none → Resumes i s ⟨.joinReader c, .ok ()⟩ s
  | joinReaderFails {c : Conn} {fault : Fault} :
      s.readers c = .done (some fault) → Resumes i s ⟨.joinReader c, .error fault⟩ s
  | joinReaderCancelled (c : Conn) : Resumes i s ⟨.joinReader c, .error .cancelled⟩ s

/-- What the reader of connection `c` does. -/
inductive ReaderStep where
  /-- Its first step. -/
  | starts (c : Conn)
  | receives (c : Conn) (raw : Except Fault Json)
  /-- The stream ends. -/
  | ends (c : Conn)
  /-- The stream fails. -/
  | fails (c : Conn) (cls message : String)
  /-- The cancellation arrives. -/
  | interrupted (c : Conn)

/-- The readers.  A reader that is cancelled before its first step, or that
finds no transport then, ends outside the `try`. -/
inductive Ambient (s : Link) : ReaderStep → Link → Prop
  | starts {c w : Conn} :
      s.readers c = .created → s.cancelled c = false → s.ws = some w →
      Ambient s (.starts c) { s with readers := Function.update s.readers c (.reading w) }
  | startsCancelled {c : Conn} :
      s.readers c = .created → s.cancelled c = true →
      Ambient s (.starts c)
        { s with readers := Function.update s.readers c (.done (some .cancelled)) }
  /-- `assert ws is not None`. -/
  | startsAlone {c : Conn} :
      s.readers c = .created → s.cancelled c = false → s.ws = none →
      Ambient s (.starts c)
        { s with
          readers :=
            Function.update s.readers c (.done (some (.exception "AssertionError" ""))) }
  | receives {c w : Conn} {raw : Json} {pending : List (Nat × Future)} :
      s.readers c = .reading w → receive s.pending raw = .ok pending →
      Ambient s (.receives c (.ok raw))
        { s with
          pending := pending
          log := s.log ++ [.arrived w (.ok raw)] }
  | receivesBadly {c w : Conn} {raw : Json} {error : PyExc} :
      s.readers c = .reading w → receive s.pending raw = .error error →
      Ambient s (.receives c (.ok raw))
        { s with
          pending := failAll (transportFailed error) s.pending
          readers := Function.update s.readers c (.done none)
          log := s.log ++ [.arrived w (.ok raw)] }
  /-- `json.loads` raises. -/
  | receivesNoJson {c w : Conn} {cls message : String} :
      s.readers c = .reading w →
      Ambient s (.receives c (.error (.exception cls message)))
        { s with
          pending := failAll (transportFailed (.exception cls message)) s.pending
          readers := Function.update s.readers c (.done none)
          log := s.log ++ [.arrived w (.error (.exception cls message))] }
  | ends {c w : Conn} :
      s.readers c = .reading w →
      Ambient s (.ends c)
        { s with
          pending := failAll disconnected s.pending
          readers := Function.update s.readers c (.done none) }
  | fails {c w : Conn} (cls message : String) :
      s.readers c = .reading w →
      Ambient s (.fails c cls message)
        { s with
          pending := failAll (transportFailed (.exception cls message)) s.pending
          readers := Function.update s.readers c (.done none) }
  | interrupted {c w : Conn} :
      s.readers c = .reading w → s.cancelled c = true →
      Ambient s (.interrupted c)
        { s with
          pending := failAll disconnected s.pending
          readers := Function.update s.readers c (.done (some .cancelled)) }

/-- The event loop of an `AppServer`. -/
def machine : Machine Link NetAns ReaderStep := ⟨Acts, Begins, Stirs, Resumes, Ambient⟩

end Link

/-- What a tool call asks of the `AppServer`. -/
inductive Invocation where
  | call (method : String) (params : Dict)
  | connect
  | close

variable [Endpoint]

/-- The task that carries it out. -/
def Invocation.code : Invocation → Prog NetOp NetAns (Except PyExc Json × Unit)
  | .call method params => AppServer.call method params ()
  | .connect => (AppServer.connect >>= fun _ => pure Json.null : Net Json) ()
  | .close => (AppServer.close >>= fun _ => pure Json.null : Net Json) ()

/-! ## §3. Where a task is. -/

/-- Why a transport is being closed: for its own sake, to make room for a
new one, or because the handshake has failed. -/
inductive Errand where
  | alone
  | room
  | failed (error : PyExc)

/-- What a request is for: the handshake, or the call itself. -/
inductive Purpose where
  | handshake
  | own (method : String) (params : Dict)

def Purpose.method : Purpose → String
  | .handshake => "initialize"
  | .own method _ => method

def Purpose.params : Purpose → Dict
  | .handshake => AppServer.clientInfo
  | .own _ params => params

/-- Which operation a task performs next, with what it knows there. -/
inductive Station where
  -- `connect`, under the lock from `entered` to `leaving`
  | entering
  | entered
  | leaving (r : Except PyExc Unit)
  -- `close`
  | shutting (why : Errand)
  | closing (why : Errand) (ws : Conn)
  | clearing (why : Errand) (ws : Conn)
  | reading (why : Errand) (ws : Option Conn)
  | cancelling (why : Errand) (ws : Option Conn) (reader : Conn)
  | joining (why : Errand) (reader : Conn)
  | forgetting (why : Errand)
  -- the `try` of `connect`
  | checking
  | opening
  | starting
  | informing (ws : Conn) (info : Json)
  | greeting (ws : Conn)
  | announcing (ws : Conn)
  -- `_request`
  | requesting (q : Purpose)
  | registering (q : Purpose) (ws : Conn)
  | sending (q : Purpose) (ws : Conn) (ident : Nat)
  | awaiting (q : Purpose) (ws : Conn) (ident : Nat)
  | withdrawing (q : Purpose) (ws : Conn) (ident : Nat) (got : Except PyExc Dict)
  | ended (r : Except PyExc Json)

/-- The notification that ends the handshake. -/
def Frame.initialized : Frame := ⟨none, "initialized", []⟩

/-- The request. -/
def Purpose.frame (q : Purpose) (ident : Nat) : Frame := ⟨some ident, q.method, q.params⟩

namespace Station

/-- The operation. -/
def op : Station → Option NetOp
  | .entering => some .lock
  | .entered => some .readerAlive
  | .leaving _ => some .unlock
  | .shutting _ => some .ws
  | .closing _ ws => some (.closeTransport ws)
  | .clearing _ _ => some .clearWs
  | .reading _ _ => some .reader
  | .cancelling _ _ reader => some (.cancelReader reader)
  | .joining _ reader => some (.joinReader reader)
  | .forgetting _ => some .clearReader
  | .checking => some .socketExists
  | .opening => some .openTransport
  | .starting => some .startReader
  | .informing _ info => some (.setInfo info)
  | .greeting _ => some .ws
  | .announcing ws => some (.send ws .initialized)
  | .requesting _ => some .ws
  | .registering _ _ => some .register
  | .sending q ws ident => some (.send ws (q.frame ident))
  | .awaiting _ _ ident => some (.awaitReply ident)
  | .withdrawing _ _ ident _ => some (.unregister ident)
  | .ended _ => none

/-- The identifier a task has registered and not yet withdrawn. -/
def ident : Station → Option Nat
  | .sending _ _ ident => some ident
  | .awaiting _ _ ident => some ident
  | .withdrawing _ _ ident _ => some ident
  | _ => none

/-- `connect` has left the lock. -/
def connected : Invocation → Except PyExc Unit → Station
  | _, .error error => .ended (.error error)
  | .call method params, .ok _ => .requesting (.own method params)
  | _, .ok _ => .ended (.ok .null)

/-- `close` has returned or raised. -/
def closed : Errand → Except PyExc Unit → Station
  | .alone, .ok _ => .ended (.ok .null)
  | .alone, .error error => .ended (.error error)
  | .room, .ok _ => .checking
  | .failed error, .ok _ => .leaving (.error error)
  | _, .error error => .leaving (.error error)

/-- A request has returned or raised. -/
def replied (ws : Conn) : Purpose → Except PyExc Json → Station
  | .handshake, .ok info => .informing ws info
  | .handshake, .error error => .shutting (.failed error)
  | .own _ _, r => .ended r

/-- What `_request` makes of an exception while it waits. -/
def hidden (q : Purpose) (fault : Fault) : PyExc :=
  if fault.raised.isOSError then AppServer.unavailable q.method else fault.raised

variable (o : Invocation)

/-- Where a task goes from each station. -/
def next : Station → Event NetAns → Station
  | .entering, e =>
      match e with
      | ⟨.lock, .ok _⟩ => .entered
      | ⟨.lock, .error fault⟩ => .ended (.error fault.raised)
      | _ => .entering
  | .entered, e =>
      match e with
      | ⟨.readerAlive, true⟩ => .leaving (.ok ())
      | _ => .shutting .room
  | .leaving r, _ => connected o r
  | .shutting why, e =>
      match e with
      | ⟨.ws, some ws⟩ => .closing why ws
      | _ => .reading why none
  | .closing why ws, e =>
      match e with
      | ⟨.closeTransport _, .ok _⟩ => .clearing why ws
      | ⟨.closeTransport _, .error fault⟩ => closed why (.error fault.raised)
      | _ => .closing why ws
  | .clearing why ws, _ => .reading why (some ws)
  | .reading why ws, e =>
      match e with
      | ⟨.reader, some reader⟩ => .cancelling why ws reader
      | _ => closed why (.ok ())
  | .cancelling why _ reader, _ => .joining why reader
  | .joining why reader, e =>
      match e with
      | ⟨.joinReader _, .ok _⟩ => .forgetting why
      | ⟨.joinReader _, .error .cancelled⟩ => .forgetting why
      | ⟨.joinReader _, .error fault⟩ => closed why (.error fault.raised)
      | _ => .joining why reader
  | .forgetting why, _ => closed why (.ok ())
  | .checking, e =>
      match e with
      | ⟨.socketExists, .ok true⟩ => .opening
      | ⟨.socketExists, .ok false⟩ => .shutting (.failed AppServer.socketMissing)
      | ⟨.socketExists, .error fault⟩ => .shutting (.failed fault.raised)
      | _ => .checking
  | .opening, e =>
      match e with
      | ⟨.openTransport, .ok _⟩ => .starting
      | ⟨.openTransport, .error fault⟩ => .shutting (.failed fault.raised)
      | _ => .opening
  | .starting, _ => .requesting .handshake
  | .informing ws _, _ => .greeting ws
  | .greeting _, e =>
      match e with
      | ⟨.ws, some ws⟩ => .announcing ws
      | _ =>
          .shutting
            (.failed (.attributeError "'NoneType' object has no attribute 'send'"))
  | .announcing ws, e =>
      match e with
      | ⟨.send _ _, .ok _⟩ => .leaving (.ok ())
      | ⟨.send _ _, .error fault⟩ => .shutting (.failed fault.raised)
      | _ => .announcing ws
  | .requesting q, e =>
      match e with
      | ⟨.ws, some ws⟩ => .registering q ws
      | _ => replied 0 q (.error (.transportError "App Server is not connected"))
  | .registering q ws, e =>
      match e with
      | ⟨.register, ident⟩ => .sending q ws ident
      | _ => .registering q ws
  | .sending q ws ident, e =>
      match e with
      | ⟨.send _ _, .ok _⟩ => .awaiting q ws ident
      | ⟨.send _ _, .error fault⟩ => .withdrawing q ws ident (.error (hidden q fault))
      | _ => .sending q ws ident
  | .awaiting q ws ident, e =>
      match e with
      | ⟨.awaitReply _, .ok message⟩ => .withdrawing q ws ident (.ok message)
      | ⟨.awaitReply _, .error fault⟩ => .withdrawing q ws ident (.error (hidden q fault))
      | _ => .awaiting q ws ident
  | .withdrawing q ws _ got, _ =>
      replied ws q (got.bind fun message => AppServer.reply q.method message)
  | .ended r, _ => .ended r

end Station

/-- A task: what it was called for, and where it is. -/
structure Spot where
  origin : Invocation
  station : Station

namespace Spot

def start (o : Invocation) : Spot where
  origin := o
  station :=
    match o with
    | .close => .shutting .alone
    | _ => .entering

def note (p : Spot) (e : Event NetAns) : Spot := ⟨p.origin, p.station.next p.origin e⟩

def May (p : Spot) (op : NetOp) : Prop := p.station.op = some op

def Ends (p : Spot) (a : Except PyExc Json × Unit) : Prop := p.station = .ended a.1

end Spot

abbrev SpotSpec : OpSpec NetAns Spot := observe Spot.note Spot.May

section Code

variable {o : Invocation}

theorem spotSpec_mono : SpotSpec.Mono := observe_mono _ _

/-- `close` ends as it should. -/
theorem wp_close (why : Errand) :
    Co.wp SpotSpec AppServer.close
      (fun _ _ p => p = ⟨o, Station.closed why (.ok ())⟩)
      (fun error _ p => p = ⟨o, Station.closed why (.error error)⟩)
      () ⟨o, .shutting why⟩ := by
  -- from `self._reader` on
  have hreader : ∀ ws, Co.wp SpotSpec
      (do
        let reader ← AppServer.reader
        match reader with
        | none => pure ()
        | some reader => do
            AppServer.cancelReader reader
            AppServer.suppressCancelled (AppServer.joinReader reader)
            AppServer.clearReader)
      (fun _ _ p => p = ⟨o, Station.closed why (.ok ())⟩)
      (fun error _ p => p = ⟨o, Station.closed why (.error error)⟩)
      () ⟨o, .reading why ws⟩ := by
    intro ws
    rw [Co.wp_bind, AppServer.reader, Co.wp_ask]
    refine ⟨rfl, fun reader => ?_⟩
    cases reader with
    | none => rfl
    | some reader =>
        dsimp only
        rw [Co.wp_bind, AppServer.cancelReader, Co.wp_ask]
        refine ⟨rfl, fun _ => ?_⟩
        rw [Co.wp_bind, AppServer.suppressCancelled, Co.wp_tryCatch, AppServer.joinReader,
          AppServer.wp_perform]
        refine ⟨rfl, fun r => ?_⟩
        match r with
        | .ok _ => exact ⟨rfl, fun _ => rfl⟩
        | .error .cancelled => exact ⟨rfl, fun _ => rfl⟩
        | .error (.exception cls message) => rfl
  unfold AppServer.close
  rw [Co.wp_bind, AppServer.ws, Co.wp_ask]
  refine ⟨rfl, fun ws => ?_⟩
  cases ws with
  | none => exact hreader none
  | some ws =>
      dsimp only
      rw [Co.wp_bind, AppServer.closeTransport, AppServer.wp_perform]
      refine ⟨rfl, fun r => ?_⟩
      cases r with
      | error fault => rfl
      | ok _ =>
          dsimp only [lift]
          rw [Co.wp_bind, AppServer.clearWs, Co.wp_ask]
          exact ⟨rfl, fun _ => hreader (some ws)⟩

/-- `_request` ends as it should. -/
theorem wp_request (q : Purpose) :
    Co.wp SpotSpec (AppServer.request q.method q.params)
      (fun value _ p => ∃ ws, p = ⟨o, Station.replied ws q (.ok value)⟩)
      (fun error _ p => ∃ ws, p = ⟨o, Station.replied ws q (.error error)⟩)
      () ⟨o, .requesting q⟩ := by
  unfold AppServer.request
  rw [Co.wp_bind, AppServer.ws, Co.wp_ask]
  refine ⟨rfl, fun ws => ?_⟩
  cases ws with
  | none => exact ⟨0, rfl⟩
  | some ws =>
      dsimp only
      rw [Co.wp_bind, AppServer.register, Co.wp_ask]
      refine ⟨rfl, fun ident => ?_⟩
      dsimp only
      rw [Co.wp_bind, Co.wp_tryFinally]
      -- what `finally` does with an exception of the exchange
      have hfails : ∀ fault,
          Co.wp SpotSpec
            (if (Fault.raised fault).isOSError then
                (Co.throw (AppServer.unavailable q.method) : Net Dict)
              else Co.throw (Fault.raised fault))
            (fun _ _ _ => False)
            (fun error s' => Co.wp SpotSpec (AppServer.unregister ident)
              (fun _ _ p => ∃ ws, p = ⟨o, Station.replied ws q (.error error)⟩)
              (fun error _ p => ∃ ws, p = ⟨o, Station.replied ws q (.error error)⟩) s')
            () ⟨o, .withdrawing q ws ident (.error (Station.hidden q fault))⟩ := by
        intro fault
        unfold Station.hidden
        split
        · exact ⟨rfl, fun _ => ⟨ws, rfl⟩⟩
        · exact ⟨rfl, fun _ => ⟨ws, rfl⟩⟩
      unfold AppServer.exchange
      rw [Co.wp_tryCatch, Co.wp_bind, AppServer.send, AppServer.wp_perform]
      refine ⟨rfl, fun r => ?_⟩
      cases r with
      | error fault =>
          exact Co.wp_conseq spotSpec_mono (hfails fault) (fun _ _ _ => False.elim) fun _ _ _ h => h
      | ok _ =>
          dsimp only [lift]
          rw [AppServer.awaitReply, AppServer.wp_perform]
          refine ⟨rfl, fun r => ?_⟩
          cases r with
          | error fault =>
              exact Co.wp_conseq spotSpec_mono (hfails fault) (fun _ _ _ => False.elim)
                fun _ _ _ h => h
          | ok message =>
              dsimp only [lift]
              rw [AppServer.unregister, Co.wp_ask]
              refine ⟨rfl, fun _ => ?_⟩
              rw [Co.wp_ofExcept]
              dsimp only
              cases hreply : AppServer.reply q.method message with
              | ok value =>
                  exact ⟨ws, congrArg (fun r => Spot.mk o (Station.replied ws q r)) hreply⟩
              | error error =>
                  exact ⟨ws, congrArg (fun r => Spot.mk o (Station.replied ws q r)) hreply⟩

/-- The `try` of `connect` ends as it should. -/
theorem wp_establish :
    Co.wp SpotSpec AppServer.establish
      (fun _ _ p => p = ⟨o, .leaving (.ok ())⟩)
      (fun error _ p => p = ⟨o, .shutting (.failed error)⟩)
      () ⟨o, .checking⟩ := by
  unfold AppServer.establish
  rw [Co.wp_bind, AppServer.socketExists, AppServer.wp_perform]
  refine ⟨rfl, fun r => ?_⟩
  match r with
  | .error fault => rfl
  | .ok false => rfl
  | .ok true =>
      show Co.wp SpotSpec (AppServer.openTransport >>= fun _ => _) _ _ () ⟨o, .opening⟩
      rw [Co.wp_bind, AppServer.openTransport, AppServer.wp_perform]
      refine ⟨rfl, fun r => ?_⟩
      cases r with
      | error fault => rfl
      | ok _ =>
          dsimp only [lift]
          rw [Co.wp_bind, AppServer.startReader, Co.wp_ask]
          refine ⟨rfl, fun _ => ?_⟩
          rw [Co.wp_bind]
          refine Co.wp_conseq spotSpec_mono (wp_request .handshake) ?_ ?_
          · rintro info _ p ⟨w, rfl⟩
            rw [Co.wp_bind, AppServer.setInfo, Co.wp_ask]
            refine ⟨rfl, fun _ => ?_⟩
            rw [Co.wp_bind, AppServer.ws, Co.wp_ask]
            refine ⟨rfl, fun ws => ?_⟩
            cases ws with
            | none => rfl
            | some ws =>
                dsimp only
                rw [AppServer.send, AppServer.wp_perform]
                refine ⟨rfl, fun r => ?_⟩
                cases r <;> rfl
          · rintro error _ p ⟨w, rfl⟩
            rfl

/-- `connect` ends as it should. -/
theorem wp_connect :
    Co.wp SpotSpec AppServer.connect
      (fun _ _ p => p = ⟨o, Station.connected o (.ok ())⟩)
      (fun error _ p => p = ⟨o, Station.connected o (.error error)⟩)
      () ⟨o, .entering⟩ := by
  -- leaving the lock
  have hunlock : ∀ r : Except PyExc Unit, ∀ Q : Unit → Unit → Spot → Prop, ∀ X,
      Q () () ⟨o, Station.connected o r⟩ →
      Co.wp SpotSpec AppServer.unlock Q X () ⟨o, .leaving r⟩ := by
    intro r Q X h
    exact ⟨rfl, fun _ => h⟩
  unfold AppServer.connect
  rw [Co.wp_bind, AppServer.lock, AppServer.wp_perform]
  refine ⟨rfl, fun r => ?_⟩
  cases r with
  | error fault => rfl
  | ok _ =>
      dsimp only [lift]
      rw [Co.wp_tryFinally, Co.wp_bind, AppServer.readerAlive, Co.wp_ask]
      refine ⟨rfl, fun alive => ?_⟩
      cases alive with
      | true => exact hunlock (.ok ()) _ _ rfl
      | false =>
          rw [if_neg (by simp), Co.wp_bind]
          refine Co.wp_conseq spotSpec_mono (wp_close .room) ?_ ?_
          · rintro _ _ p rfl
            rw [Co.wp_tryCatch]
            refine Co.wp_conseq spotSpec_mono wp_establish ?_ ?_
            · rintro _ _ p rfl
              exact hunlock (.ok ()) _ _ rfl
            · rintro error _ p rfl
              rw [Co.wp_bind]
              refine Co.wp_conseq spotSpec_mono (wp_close (.failed error)) ?_ ?_
              · rintro _ _ p rfl
                exact hunlock (.error error) _ _ rfl
              · rintro error' _ p rfl
                exact hunlock (.error error') _ _ rfl
          · rintro error _ p rfl
            exact hunlock (.error error) _ _ rfl

end Code

/-- **Every task goes through its stages.** -/
def spots : Script Invocation.code Spot where
  start := Spot.start
  note := Spot.note
  May := Spot.May
  Ends := Spot.Ends
  follows := by
    intro o
    have hend : ∀ (c : Net Json) (p : Spot),
        Co.wp SpotSpec c (fun value _ p => p.station = .ended (.ok value))
          (fun error _ p => p.station = .ended (.error error)) () p →
        Interaction.wp SpotSpec (c ()) (fun a p => p.Ends a) p := by
      intro c p h
      refine Interaction.wp_mono spotSpec_mono _ ?_ _ h
      rintro ⟨error | value, _⟩ p hp <;> exact hp
    cases o with
    | close =>
        refine hend (AppServer.close >>= fun _ => pure Json.null) ⟨.close, .shutting .alone⟩ ?_
        rw [Co.wp_bind]
        refine Co.wp_conseq spotSpec_mono (wp_close .alone) ?_ ?_
        · rintro _ _ p rfl
          rfl
        · rintro error _ p rfl
          rfl
    | connect =>
        refine hend (AppServer.connect >>= fun _ => pure Json.null) ⟨.connect, .entering⟩ ?_
        rw [Co.wp_bind]
        refine Co.wp_conseq spotSpec_mono wp_connect ?_ ?_
        · rintro _ _ p rfl
          rfl
        · rintro error _ p rfl
          rfl
    | call method params =>
        refine hend (AppServer.call method params) ⟨.call method params, .entering⟩ ?_
        unfold AppServer.call
        rw [Co.wp_bind]
        refine Co.wp_conseq spotSpec_mono wp_connect ?_ ?_
        · rintro _ _ p rfl
          refine Co.wp_conseq spotSpec_mono (wp_request (.own method params)) ?_ ?_
          · rintro value _ p ⟨_, rfl⟩
            rfl
          · rintro error _ p ⟨_, rfl⟩
            rfl
        · rintro error _ p rfl
          rfl

/-- A station tells its operation. -/
theorem spots_exact : spots.Exact where
  one := fun h h' => Option.some.inj (h.symm.trans h')
  apart := by
    intro p op a hmay hends
    have hop : p.station.op = some op := hmay
    rw [show p.station = .ended a.1 from hends] at hop
    cases hop

/-- What a task of the loop is. -/
abbrev NetTask : Type := Fiber Invocation NetAns (Except PyExc Json × Unit)

/-- The event loop with its tasks. -/
abbrev NetLoop : Type := Loop Link Invocation NetAns (Except PyExc Json × Unit)

theorem origin_journal (t : NetTask) : (t.journal spots).origin = t.origin := by
  have hfold : ∀ (h : List (Event NetAns)) (p : Spot),
      (h.foldl Spot.note p).origin = p.origin := by
    intro h
    induction h with
    | nil => exact fun p => rfl
    | cons e h ih => exact fun p => ih (p.note e)
  exact hfold t.history (Spot.start t.origin)

/-- Where the stations end, the task has. -/
theorem rest_of_ended {t : NetTask} {r : Except PyExc Json}
    (hrun : Run (Invocation.code t.origin) t.history t.rest)
    (hended : (t.journal spots).station = .ended r) : t.rest = .ret (r, ()) := by
  cases hrest : t.rest with
  | op op k =>
      have hop : (t.journal spots).station.op = some op :=
        Script.may (S := spots) hrun hrest
      rw [hended] at hop
      cases hop
  | ret a =>
      have hends : (t.journal spots).station = .ended a.1 :=
        Script.ends (S := spots) hrun hrest
      rw [hended] at hends
      obtain ⟨r', _⟩ := a
      obtain rfl : r = r' := Station.ended.inj hends
      rfl

/-! ## §4. A task that nobody disturbs. -/

/-- What a step of the connection is. -/
abbrev NetLabel : Type := Label Invocation NetAns Link.ReaderStep

namespace Link

/-- The task goes on, and so may what goes on by itself. -/
abbrev Walk (P : Link → NetLabel → Prop) (i : Nat) (s : Link) (running : Option Nat) (p : Spot)
    (s' : Link) (running' : Option Nat) (p' : Spot) : Prop :=
  spots.Walk machine P i s running p s' running' p'

omit [Endpoint] in
/-- Whatever the step, messages of the server apart, it does not fail. -/
def Smooth : NetLabel → Prop
  | .act _ ⟨.socketExists, r⟩ => r = .ok true
  | .act _ _ => True
  | .await _ _ => True
  | .stir _ _ => True
  | .resume _ ⟨.lock, r⟩ => r = .ok ()
  | .resume _ ⟨.openTransport, r⟩ => r = .ok ()
  | .resume _ ⟨.send _ _, r⟩ => r = .ok ()
  | .resume _ ⟨.awaitReply _, r⟩ => ∃ message, r = .ok message
  | .finish _ => True
  | .ambient (.starts _) => True
  | _ => False

/-- A request has been registered. -/
def registered (s : Link) (i : Nat) : Link :=
  { s with
    counter := s.counter + 1
    pending := s.pending ++ [(s.counter + 1, .waiting)]
    log := s.log ++ [.registered i (s.counter + 1)] }

/-- A transport has been opened, with its reader. -/
def linked (s : Link) : Link :=
  { s with
    ws := some s.opened
    reader := some s.opened
    opened := s.opened + 1
    readers := Function.update s.readers s.opened .created }

/-- A frame has gone out. -/
def transmitted (s : Link) (i : Nat) (c : Conn) (frame : Frame) : Link :=
  { s with
    transit := Function.update (Function.update (Function.update s.transit i
      (.queued c frame)) i .sent) i .idle
    log := s.log ++ [.sent i c frame] }

section Walks

variable {P : Link → NetLabel → Prop} {s : Link} {i : Nat} {c : Conn} {o : Invocation}
  {q : Purpose} {ident : Nat}

omit [Endpoint] in
theorem Acts.alive_of {b : Bool} (h : s.alive = b) : Acts i s ⟨.readerAlive, b⟩ s :=
  h ▸ .readerAlive

omit [Endpoint] in
theorem Acts.ws_of {w : Option Conn} (h : s.ws = w) : Acts i s ⟨.ws, w⟩ s := h ▸ .ws

omit [Endpoint] in
theorem Acts.reader_of {r : Option Conn} (h : s.reader = r) : Acts i s ⟨.reader, r⟩ s :=
  h ▸ .reader

omit [Endpoint] in
theorem Begins.send_of {frame : Frame} (h : s.closing c = false) :
    Begins i s (.send c frame)
      { s with transit := Function.update s.transit i (.queued c frame) } := by
  have hsend : Begins i s (.send c frame) _ := .send c frame
  rwa [h] at hsend

/-- It has gone nowhere yet. -/
theorem walk_start (P : Link → NetLabel → Prop) (i : Nat) (s : Link) (running : Option Nat)
    (p : Spot) : Walk P i s running p s running p := .refl

/-- Nothing is connected. -/
theorem walk_vacant (hP : ∀ s l, Smooth l → P s l) (hfree : s.holder = none)
    (hws : s.ws = none) (hreader : s.reader = none) :
    Walk P i s (some i) ⟨o, .entering⟩ { s with holder := some i } (some i) ⟨o, .checking⟩ := by
  have halive : alive { s with holder := some i } = false := by
    unfold alive
    rw [hreader]
  have h := walk_start P i s (some i) ⟨o, .entering⟩
  have h := h.await spots_exact rfl (hP _ _ trivial) .lock
  have h := h.resume spots_exact rfl (hP _ _ rfl) (.lock hfree)
  have h := h.act spots_exact rfl (hP _ _ trivial) (.alive_of halive)
  have h := h.act spots_exact rfl (hP _ _ trivial) (.ws_of hws)
  exact h.act spots_exact rfl (hP _ _ trivial) (.reader_of hreader)

/-- The reader is alive. -/
theorem walk_alive (hP : ∀ s l, Smooth l → P s l) (hfree : s.holder = none)
    (halive : s.alive = true) :
    Walk P i s (some i) ⟨o, .entering⟩ s (some i) ⟨o, Station.connected o (.ok ())⟩ := by
  have h := walk_start P i s (some i) ⟨o, .entering⟩
  have h := h.await spots_exact rfl (hP _ _ trivial) .lock
  have h := h.resume spots_exact rfl (hP _ _ rfl) (.lock hfree)
  have h := h.act spots_exact rfl (hP _ _ trivial) (.alive_of (b := true) halive)
  have h := h.act spots_exact rfl (hP _ _ trivial) .unlock
  have hsame : { s with holder := none } = s := by
    rw [← hfree]
  rwa [hsame] at h

/-- A transport is opened, and the handshake registered. -/
theorem walk_opening (hP : ∀ s l, Smooth l → P s l) :
    Walk P i s (some i) ⟨o, .checking⟩ (s.linked.registered i) (some i)
      ⟨o, .sending .handshake s.opened (s.counter + 1)⟩ := by
  have h := walk_start P i s (some i) ⟨o, .checking⟩
  have h := h.act spots_exact rfl (hP _ _ rfl) (.socketExists (.ok true))
  have h := h.await spots_exact rfl (hP _ _ trivial) .openTransport
  have h := h.resume spots_exact rfl (hP _ _ rfl) .openTransport
  have h := h.act spots_exact rfl (hP _ _ trivial) .startReader
  have h := h.act spots_exact rfl (hP _ _ trivial) .ws
  exact h.act spots_exact rfl (hP _ _ trivial) .register

/-- A request goes out. -/
theorem walk_sending (hP : ∀ s l, Smooth l → P s l) (hclosing : s.closing c = false) :
    Walk P i s (some i) ⟨o, .sending q c ident⟩ (s.transmitted i c (q.frame ident)) none
      ⟨o, .awaiting q c ident⟩ := by
  have h := walk_start P i s (some i) ⟨o, .sending q c ident⟩
  have h := h.await spots_exact rfl (hP _ _ trivial) (.send_of hclosing)
  have h := h.stir spots_exact rfl (hP _ _ trivial) (.transmit (Function.update_self ..))
  have h := h.resume spots_exact rfl (hP _ _ rfl) (.send _ _ (Function.update_self ..))
  exact h.await spots_exact rfl (hP _ _ trivial) (.awaitReply ident)

/-- `initialized` goes out. -/
theorem walk_informing (hP : ∀ s l, Smooth l → P s l) (hws : s.ws = some c)
    (hclosing : s.closing c = false) (info : Json) :
    Walk P i s (some i) ⟨o, .informing c info⟩
      { ({ s with info := info } : Link).transmitted i c .initialized with holder := none }
      (some i) ⟨o, Station.connected o (.ok ())⟩ := by
  have h := walk_start P i s (some i) ⟨o, .informing c info⟩
  -- nothing suspends before the frame is handed to the transport
  have h := h.act spots_exact rfl (hP _ _ trivial) (.setInfo info)
  have h := h.act spots_exact rfl (hP _ _ trivial) (.ws_of hws)
  have h := h.await spots_exact rfl (hP _ _ trivial) (.send_of hclosing)
  have h := h.stir spots_exact rfl (hP _ _ trivial) (.transmit (Function.update_self ..))
  have h := h.resume spots_exact rfl (hP _ _ rfl) (.send _ _ (Function.update_self ..))
  exact h.act spots_exact rfl (hP _ _ trivial) .unlock

/-- A request is registered, and goes out. -/
theorem walk_requesting (hP : ∀ s l, Smooth l → P s l) (hws : s.ws = some c)
    (hclosing : s.closing c = false) :
    Walk P i s (some i) ⟨o, .requesting q⟩
      ((s.registered i).transmitted i c (q.frame (s.counter + 1))) none
      ⟨o, .awaiting q c (s.counter + 1)⟩ := by
  have h := walk_start P i s (some i) ⟨o, .requesting q⟩
  have h := h.act spots_exact rfl (hP _ _ trivial) (.ws_of hws)
  have h := h.act spots_exact rfl (hP _ _ trivial) .register
  exact h.trans (walk_sending hP hclosing)

/-- The first task after `initialize` has gone out. -/
def knocked : Link :=
  (({ init with holder := some 0 } : Link).linked.registered 0).transmitted 0 0
    (Purpose.handshake.frame 1)

/-- The first task connects. -/
theorem walk_knocking (hP : ∀ s l, Smooth l → P s l) :
    Walk P 0 init (some 0) ⟨o, .entering⟩ knocked none ⟨o, .awaiting .handshake 0 1⟩ :=
  ((walk_vacant hP rfl rfl rfl).trans (walk_opening hP)).trans (walk_sending hP rfl)

end Walks

end Link

end CodexRemoteBridge
