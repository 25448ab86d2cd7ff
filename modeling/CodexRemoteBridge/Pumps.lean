/-
  CodexRemoteBridge.Pumps — `proxy_transport.py`: the two pumps between the
  WebSocket client and the relay process.

  `_to_proxy` carries from the socket pair to the standard input of the
  child, `_from_proxy` from its standard output to the socket pair.  They run
  beside the WebSocket client and the child, in any order of steps; each
  `await` of theirs may be cancelled or raise, and each of the four streams
  may break.

  Main result:
    • `Pumped.faithful` — the bytes arrive in order and none twice; what is
      lost is lost at an end, by a fault.
-/
import CodexRemoteBridge.Lib.Channel
import CodexRemoteBridge.Lib.Coroutine
import CodexRemoteBridge.Python

namespace CodexRemoteBridge

open Interaction Conduit

/-! ## §1. The pumps. -/

/-- The two pumps. -/
inductive Side where
  | toProxy
  | fromProxy
  deriving DecidableEq

/-- The operations of the pumps. -/
inductive PumpOp where
  /-- The first step of the task; it may have been cancelled before. -/
  | start
  /-- `await asyncio.get_running_loop().sock_recv(self.sockets[0], …)`. -/
  | recv (limit : Nat)
  /-- `self.process.stdin.write(data)`. -/
  | write (data : List UInt8)
  /-- `await self.process.stdin.drain()`. -/
  | drain
  /-- `self.process.stdin.close()`. -/
  | closeStdin
  /-- `await self.process.stdout.read(…)`. -/
  | read (limit : Nat)
  /-- One `send` of `sock_sendall(self.sockets[0], …)`. -/
  | send (data : List UInt8)
  /-- `self.sockets[0].shutdown(socket.SHUT_RDWR)`. -/
  | shutdown
  /-- The rounds of a loop beyond those that are unrolled. -/
  | unrolled

/-- What an operation is answered with. -/
abbrev PumpAns : PumpOp → Type
  | .start => Except Fault Unit
  | .recv _ => Except Fault (List UInt8)
  | .write _ => Unit
  | .drain => Except Fault Unit
  | .closeStdin => Unit
  | .read _ => Except Fault (List UInt8)
  -- How many bytes have gone out.
  | .send _ => Except Fault Nat
  | .shutdown => Except Fault Unit
  | .unrolled => Empty

/-- A coroutine of a pump. -/
abbrev Pump : Type → Type := Co PumpOp PumpAns PyExc Unit

namespace Pump

/-- Perform an operation that returns or raises. -/
def perform {α : Type} (op : PumpOp) (view : PumpAns op → Except PyExc α) : Pump α :=
  Co.ask op >>= fun r => Co.ofExcept (view r)

def unrolled : Pump Unit := perform .unrolled nofun

/-- `while data := await …:`, with what is done to each `data`. -/
def convey (take : Pump (List UInt8)) (deliver : List UInt8 → Pump Unit) : Nat → Pump Unit
  | 0 => unrolled
  | rounds + 1 => do
      let data ← take
      if data.isEmpty then pure ()
      else do
        deliver data
        convey take deliver rounds

/-- `loop.sock_sendall`: it sends until nothing is left. -/
def sockSendall : Nat → List UInt8 → Pump Unit
  | _, [] => pure ()
  | 0, _ => unrolled
  | fuel + 1, data => do
      let sent ← perform (.send data) lift
      sockSendall fuel (data.drop sent)

/-- `_disconnect_socket`. -/
def disconnectSocket : Pump Unit :=
  Co.tryCatch (perform .shutdown lift) fun error =>
    if error.isOSError then pure () else Co.throw error

/-- How much a pump takes at once. -/
def chunk : Nat := 65536

/-- `_to_proxy`. -/
def toProxy (rounds : Nat) : Pump Unit := do
  perform .start lift
  Co.tryFinally
    (convey (perform (.recv chunk) lift)
      (fun data => do
        Co.ask (PumpOp.write data)
        perform .drain lift) rounds)
    (do
      Co.ask PumpOp.closeStdin
      disconnectSocket)

/-- `_from_proxy`. -/
def fromProxy (rounds : Nat) : Pump Unit := do
  perform .start lift
  Co.tryFinally
    (convey (perform (.read chunk) lift)
      (fun data => sockSendall data.length data) rounds)
    disconnectSocket

/-- The coroutine of a pump. -/
def program (rounds : Nat) : Side → Pump Unit
  | .toProxy => toProxy rounds
  | .fromProxy => fromProxy rounds

end Pump

/-! ## §2. The streams. -/

/-- The four streams, and whether `sockets[0]` has been shut down. -/
structure Piping where
  /-- From the WebSocket client to `_to_proxy`. -/
  upstream : Channel UInt8
  stdin : Channel UInt8
  stdout : Channel UInt8
  /-- From `_from_proxy` to the WebSocket client. -/
  downstream : Channel UInt8
  disconnected : Bool

namespace Piping

def fresh : Piping := ⟨.empty, .empty, .empty, .empty, false⟩

/-- Nothing more comes out of a stream. -/
structure Ended (c : Channel UInt8) : Prop where
  held : c.held = []
  closed : c.shut = true ∨ c.broken = true

/-- How an operation may be answered, and the streams afterwards. -/
inductive Answers (w : Piping) : (op : PumpOp) → PumpAns op → Piping → Prop
  | start (r : Except Fault Unit) : Answers w .start r w
  | recv {limit n : Nat} : 0 < n → n ≤ limit → n ≤ w.upstream.held.length →
      Answers w (.recv limit) (.ok (w.upstream.held.take n))
        { w with upstream := w.upstream.read n }
  | recvEnd {limit : Nat} : Ended w.upstream ∨ w.disconnected = true →
      Answers w (.recv limit) (.ok []) w
  /-- A cancellation may come when the data are there already. -/
  | recvFails {limit n : Nat} (f : Fault) : n ≤ limit →
      Answers w (.recv limit) (.error f) { w with upstream := w.upstream.read n }
  | write (data : List UInt8) :
      Answers w (.write data) () { w with stdin := w.stdin.write data }
  | drain (r : Except Fault Unit) : Answers w .drain r w
  | closeStdin : Answers w .closeStdin () { w with stdin := w.stdin.close }
  | read {limit n : Nat} : 0 < n → n ≤ limit → n ≤ w.stdout.held.length →
      Answers w (.read limit) (.ok (w.stdout.held.take n)) { w with stdout := w.stdout.read n }
  | readEnd {limit : Nat} : Ended w.stdout → Answers w (.read limit) (.ok []) w
  | readFails {limit n : Nat} (f : Fault) : n ≤ limit →
      Answers w (.read limit) (.error f) { w with stdout := w.stdout.read n }
  | send {data : List UInt8} {n : Nat} : w.disconnected = false → 0 < n → n ≤ data.length →
      Answers w (.send data) (.ok n) { w with downstream := w.downstream.write (data.take n) }
  | sendFails {data : List UInt8} (f : Fault) : Answers w (.send data) (.error f) w
  /-- It raises where the connection is gone already. -/
  | shutdown (r : Except Fault Unit) : Answers w .shutdown r { w with disconnected := true }

/-- What the WebSocket client, the child and the system do to the streams. -/
inductive Moves (w : Piping) : Piping → Prop
  | clientWrites (xs : List UInt8) : w.upstream.shut = false → w.disconnected = false →
      Moves w { w with upstream := w.upstream.write xs }
  | clientReads (n : Nat) : Moves w { w with downstream := w.downstream.read n }
  | clientCloses : Moves w { w with upstream := w.upstream.close }
  | childReads (n : Nat) : Moves w { w with stdin := w.stdin.read n }
  | childWrites (xs : List UInt8) : w.stdout.shut = false →
      Moves w { w with stdout := w.stdout.write xs }
  | childCloses : Moves w { w with stdout := w.stdout.close }
  | upstreamBreaks (n : Nat) : Moves w { w with upstream := w.upstream.lose n }
  | stdinBreaks (n : Nat) : Moves w { w with stdin := w.stdin.lose n }
  | stdoutBreaks (n : Nat) : Moves w { w with stdout := w.stdout.lose n }
  | downstreamBreaks (n : Nat) : Moves w { w with downstream := w.downstream.lose n }

end Piping

/-- A pump, as far as it has got. -/
structure PumpTask where
  history : List (Event PumpAns)
  rest : Prog PumpOp PumpAns (Except PyExc Unit × Unit)

namespace PumpTask

/-- It has been scheduled at least once. -/
def Started (t : PumpTask) : Prop := ⟨.start, .ok ()⟩ ∈ t.history

/-- It has returned or raised. -/
def Over (t : PumpTask) : Prop := ∃ r, t.rest = .ret r

/-- It has returned. -/
def Returned (t : PumpTask) : Prop := t.rest = .ret (.ok (), ())

end PumpTask

/-- The streams and the pumps on them. -/
structure Pumped where
  pipes : Piping
  pump : Side → PumpTask

namespace Pumped

/-- The pumps have been created. -/
def init (rounds : Nat) : Pumped where
  pipes := .fresh
  pump side := ⟨[], Pump.program rounds side ()⟩

inductive Step (S : Pumped) : Pumped → Prop
  | act {side : Side} {op : PumpOp}
      {k : PumpAns op → Prog PumpOp PumpAns (Except PyExc Unit × Unit)} {r : PumpAns op}
      {pipes : Piping} :
      (S.pump side).rest = .op op k → S.pipes.Answers op r pipes →
      Step S ⟨pipes, Function.update S.pump side ⟨(S.pump side).history ++ [⟨op, r⟩], k r⟩⟩
  | move {pipes : Piping} : S.pipes.Moves pipes → Step S { S with pipes := pipes }

/-- The states an execution passes through, where each pump goes through at
most `rounds` rounds. -/
inductive Reach (rounds : Nat) : Pumped → Prop
  | init : Reach rounds (init rounds)
  | step {S S' : Pumped} : Reach rounds S → S.Step S' → Reach rounds S'

end Pumped

/-! ## §3. What a pump does, whatever it is answered. -/

/-- The pump that performs an operation; either may perform the others. -/
def PumpOp.side? : PumpOp → Option Side
  | .recv _ | .write _ | .drain | .closeStdin => some .toProxy
  | .read _ | .send _ => some .fromProxy
  | .start | .shutdown | .unrolled => none

/-- Where a pump stands. -/
structure Handling where
  started : Bool
  /-- What it has taken and not passed on. -/
  hand : List UInt8
  /-- It has failed to take something. -/
  failed : Bool
  /-- It has found the end of what it reads. -/
  ended : Bool
  inputClosed : Bool
  disconnected : Bool

namespace Handling

def fresh : Handling := ⟨false, [], false, false, false, false⟩

/-- What a pump has taken, or that it could not. -/
def took (m : Handling) : Except Fault (List UInt8) → Handling
  | .ok data => { m with hand := data, ended := data.isEmpty }
  | .error _ => { m with failed := true }

/-- What an operation does to where the pump stands. -/
def after (m : Handling) : Event PumpAns → Handling
  | ⟨.start, .ok _⟩ => { m with started := true }
  | ⟨.recv _, r⟩ => m.took r
  | ⟨.read _, r⟩ => m.took r
  | ⟨.write data, _⟩ => { m with hand := m.hand.drop data.length }
  | ⟨.send _, .ok n⟩ => { m with hand := m.hand.drop n }
  | ⟨.closeStdin, _⟩ => { m with inputClosed := true }
  | ⟨.shutdown, _⟩ => { m with disconnected := true }
  | _ => m

/-- It has nothing in hand, and may take something. -/
structure Idle (m : Handling) : Prop where
  hand : m.hand = []
  failed : m.failed = false

/-- It takes one chunk after the other, and what it passes on is what it has
taken. -/
def Allows (m : Handling) : PumpOp → Prop
  | .recv limit => m.Idle ∧ limit = Pump.chunk
  | .read limit => m.Idle ∧ limit = Pump.chunk
  | .write data => m.hand = data ∧ m.inputClosed = false
  | .send data => m.hand = data
  | _ => True

/-- What holds of a pump at each operation. -/
structure AtOp (side : Side) (m : Handling) (op : PumpOp) : Prop where
  side : ∀ s ∈ op.side?, s = side
  /-- Shutting the socket down is the last thing it does. -/
  open_ : m.disconnected = false
  allows : m.Allows op

/-- It is in its `try` block. -/
structure Trying (m : Handling) : Prop where
  started : m.started = true
  open_ : m.disconnected = false
  input : m.inputClosed = false

/-- It has done what its `finally` block is for. -/
structure Finished (side : Side) (m : Handling) : Prop where
  disconnected : m.disconnected = true
  inputClosed : side = .toProxy → m.inputClosed = true

end Handling

namespace Pump

open Handling

/-- The specification of a pump. -/
abbrev PumpSpec (side : Side) : OpSpec PumpAns Handling := observe after (AtOp side)

variable {side : Side}

theorem pumpSpec_mono : (PumpSpec side).Mono := observe_mono _ _

/-- It takes something, with nothing in hand. -/
def Takes (side : Side) (take : Pump (List UInt8)) : Prop :=
  ∀ m, m.Trying → m.Idle → Co.wp (PumpSpec side) take
    (fun data _ m' => m'.Trying ∧ m'.hand = data ∧ m'.failed = false
      ∧ m'.ended = data.isEmpty) (fun _ _ m' => m'.Trying) () m

/-- It passes on what it has in hand. -/
def Delivers (side : Side) (deliver : List UInt8 → Pump Unit) : Prop :=
  ∀ data m, m.Trying → m.failed = false → m.hand = data → Co.wp (PumpSpec side) (deliver data)
    (fun _ _ m' => m'.Trying ∧ m'.Idle) (fun _ _ m' => m'.Trying) () m

/-- **The loop of a pump** ends with nothing in hand, after it has found the
end of what it reads. -/
theorem wp_convey {take : Pump (List UInt8)} {deliver : List UInt8 → Pump Unit}
    (htake : Takes side take) (hdeliver : Delivers side deliver) (rounds : Nat) :
    ∀ m, m.Trying → m.Idle → Co.wp (PumpSpec side) (convey take deliver rounds)
      (fun _ _ m' => m'.Trying ∧ m'.Idle ∧ m'.ended = true) (fun _ _ m' => m'.Trying) () m := by
  induction rounds with
  | zero =>
      intro m htry _
      show AtOp side m .unrolled ∧ ∀ r : Empty, _
      exact ⟨⟨fun s hs => (by cases hs), htry.open_, trivial⟩, fun r => r.elim⟩
  | succ rounds ih =>
      intro m htry hidle
      unfold convey
      rw [Co.wp_bind]
      apply Co.wp_conseq pumpSpec_mono (htake m htry hidle) ?_ fun _ _ _ h => h
      intro data _ m₁ htook
      obtain ⟨htry₁, hhand, hfailed, hended⟩ := htook
      by_cases hempty : data.isEmpty = true
      · -- The end of the stream: `while` finds no data.
        rw [if_pos hempty]
        rw [hempty] at hended
        have hnil : m₁.hand = [] := by rw [hhand, List.isEmpty_iff.mp hempty]
        exact ⟨htry₁, ⟨hnil, hfailed⟩, hended⟩
      · rw [if_neg hempty, Co.wp_bind]
        apply Co.wp_conseq pumpSpec_mono (hdeliver data m₁ htry₁ hfailed hhand) ?_
          fun _ _ _ h => h
        intro _ _ m₂ hdone
        exact ih m₂ hdone.1 hdone.2

/-- Taking a chunk, from either stream. -/
theorem takes_perform {op : PumpOp} {view : PumpAns op → Except PyExc (List UInt8)}
    (answer : PumpAns op → Except Fault (List UInt8))
    (hside : ∀ s ∈ op.side?, s = side) (hallows : ∀ m : Handling, m.Idle → m.Allows op)
    (hafter : ∀ m r, after m ⟨op, r⟩ = m.took (answer r))
    (hview : ∀ r, view r = lift (answer r)) : Takes side (perform op view) := by
  intro m htry hidle
  show AtOp side m op ∧ ∀ r, _
  refine ⟨⟨hside, htry.open_, hallows m hidle⟩, fun r => ?_⟩
  show Interaction.wp _ ((Co.ofExcept (view r) : Pump _) ()) _ _
  rw [hafter, hview]
  cases answer r with
  | ok data => exact ⟨⟨htry.started, htry.open_, htry.input⟩, rfl, hidle.failed, rfl⟩
  | error f => exact ⟨htry.started, htry.open_, htry.input⟩

theorem takes_recv : Takes .toProxy (perform (.recv chunk) lift) :=
  takes_perform id (fun s hs => by cases hs; rfl) (fun _ hidle => ⟨hidle, rfl⟩)
    (fun _ _ => rfl) fun _ => rfl

theorem takes_read : Takes .fromProxy (perform (.read chunk) lift) :=
  takes_perform id (fun s hs => by cases hs; rfl) (fun _ hidle => ⟨hidle, rfl⟩)
    (fun _ _ => rfl) fun _ => rfl

/-- `write` takes all of it, and `drain` waits. -/
theorem delivers_write : Delivers .toProxy (fun data => do
      Co.ask (PumpOp.write data)
      perform .drain lift) := by
  intro data m htry hfailed hhand
  rw [Co.wp_bind]
  show AtOp .toProxy m (.write data) ∧ ∀ _, _
  refine ⟨⟨fun s hs => by cases hs; rfl, htry.open_, hhand, htry.input⟩, fun _ => ?_⟩
  have htry' : (after m ⟨.write data, ()⟩).Trying := ⟨htry.started, htry.open_, htry.input⟩
  have hempty : m.hand.drop data.length = [] := by rw [hhand, List.drop_length]
  show AtOp .toProxy _ .drain ∧ ∀ r : Except Fault Unit, _
  refine ⟨⟨fun s hs => by cases hs; rfl, htry.open_, trivial⟩, fun r => ?_⟩
  cases r with
  | ok _ => exact ⟨htry', hempty, hfailed⟩
  | error f => exact htry'

/-- **`sock_sendall`** sends all of it, piece by piece. -/
theorem wp_sockSendall (fuel : Nat) : ∀ data m, Handling.Trying m → m.failed = false →
    m.hand = data → Co.wp (PumpSpec .fromProxy) (sockSendall fuel data)
      (fun _ _ m' => m'.Trying ∧ m'.Idle) (fun _ _ m' => m'.Trying) () m := by
  induction fuel with
  | zero =>
      intro data m htry hfailed hhand
      cases data with
      | nil => exact ⟨htry, hhand, hfailed⟩
      | cons b data =>
          show AtOp .fromProxy m .unrolled ∧ ∀ r : Empty, _
          exact ⟨⟨fun s hs => (by cases hs), htry.open_, trivial⟩, fun r => r.elim⟩
  | succ fuel ih =>
      intro data m htry hfailed hhand
      cases data with
      | nil => exact ⟨htry, hhand, hfailed⟩
      | cons b data =>
          unfold sockSendall
          rw [Co.wp_bind]
          show AtOp .fromProxy m (.send (b :: data)) ∧ ∀ r : Except Fault Nat, _
          refine ⟨⟨fun s hs => by cases hs; rfl, htry.open_, hhand⟩, fun r => ?_⟩
          cases r with
          | ok n =>
              have hrest : m.hand.drop n = (b :: data).drop n := by rw [hhand]
              exact ih _ _ ⟨htry.started, htry.open_, htry.input⟩ hfailed hrest
          | error f => exact htry

theorem delivers_sendall : Delivers .fromProxy fun data => sockSendall data.length data :=
  fun data m => wp_sockSendall data.length data m

/-- What a pump has done before it disconnects the socket. -/
structure Leaving (side : Side) (m : Handling) : Prop where
  open_ : m.disconnected = false
  inputClosed : side = .toProxy → m.inputClosed = true

/-- `_disconnect_socket` is the end of a pump, however it goes. -/
theorem wp_disconnectSocket {m : Handling} (hleaving : Leaving side m) :
    Co.wp (PumpSpec side) disconnectSocket
      (fun _ _ m' => m' = { m with disconnected := true })
      (fun _ _ m' => m' = { m with disconnected := true }) () m := by
  unfold disconnectSocket
  rw [Co.wp_tryCatch]
  show AtOp side m .shutdown ∧ ∀ r : Except Fault Unit, _
  refine ⟨⟨fun s hs => (by cases hs), hleaving.open_, trivial⟩, fun r => ?_⟩
  cases r with
  | ok _ => rfl
  | error f =>
      show Co.wp _ (if f.raised.isOSError then pure () else Co.throw f.raised) _ _ _ _
      by_cases hos : f.raised.isOSError = true
      · rw [if_pos hos]
        rfl
      · rw [if_neg hos]
        rfl

/-- The `finally` block has run, and nothing else has changed. -/
structure Closes (side : Side) (m m' : Handling) : Prop where
  finished : Finished side m'
  started : m'.started = m.started
  hand : m'.hand = m.hand
  failed : m'.failed = m.failed
  ended : m'.ended = m.ended

/-- A `finally` block of a pump. -/
def Ends (side : Side) (last : Pump Unit) : Prop :=
  ∀ m, Handling.Trying m → Co.wp (PumpSpec side) last
    (fun _ _ m' => Closes side m m') (fun _ _ m' => Closes side m m') () m

theorem ends_toProxy : Ends .toProxy (do
      Co.ask PumpOp.closeStdin
      disconnectSocket) := by
  intro m htry
  rw [Co.wp_bind]
  show AtOp .toProxy m .closeStdin ∧ ∀ _, _
  refine ⟨⟨fun s hs => by cases hs; rfl, htry.open_, trivial⟩, fun _ => ?_⟩
  have hleaving : Leaving .toProxy { m with inputClosed := true } := ⟨htry.open_, fun _ => rfl⟩
  apply Co.wp_conseq pumpSpec_mono (wp_disconnectSocket hleaving)
  · rintro _ _ m' rfl
    exact ⟨⟨rfl, fun _ => rfl⟩, rfl, rfl, rfl, rfl⟩
  · rintro _ _ m' rfl
    exact ⟨⟨rfl, fun _ => rfl⟩, rfl, rfl, rfl, rfl⟩

theorem ends_fromProxy : Ends .fromProxy disconnectSocket := by
  intro m htry
  have hleaving : Leaving .fromProxy m := ⟨htry.open_, fun h => by cases h⟩
  apply Co.wp_conseq pumpSpec_mono (wp_disconnectSocket hleaving)
  · rintro _ _ m' rfl
    exact ⟨⟨rfl, fun h => by cases h⟩, rfl, rfl, rfl, rfl⟩
  · rintro _ _ m' rfl
    exact ⟨⟨rfl, fun h => by cases h⟩, rfl, rfl, rfl, rfl⟩

/-- Where a pump has got when it is over. -/
def Outcome (side : Side) (m : Handling) : Except PyExc Unit → Prop
  | .ok _ => Finished side m ∧ m.Idle ∧ m.ended = true
  | .error _ => m.started = true → Finished side m

/-- A loop between its first step and its `finally` block. -/
theorem wp_pump {take : Pump (List UInt8)} {deliver : List UInt8 → Pump Unit} {last : Pump Unit}
    (htake : Takes side take) (hdeliver : Delivers side deliver) (hlast : Ends side last)
    (rounds : Nat) :
    Co.wp (PumpSpec side) (do
        perform .start lift
        Co.tryFinally (convey take deliver rounds) last)
      (fun _ _ m => Outcome side m (.ok ())) (fun e _ m => Outcome side m (.error e)) ()
      Handling.fresh := by
  rw [Co.wp_bind]
  show AtOp side Handling.fresh .start ∧ ∀ r : Except Fault Unit, _
  refine ⟨⟨fun s hs => (by cases hs), rfl, trivial⟩, fun r => ?_⟩
  cases r with
  | error f =>
      -- Cancelled before its first step: neither block is entered.
      show Handling.fresh.started = true → _
      intro hstarted
      cases hstarted
  | ok _ =>
      show Co.wp _ (Co.tryFinally (convey take deliver rounds) last) _ _ () _
      rw [Co.wp_tryFinally]
      have htry : (after Handling.fresh ⟨.start, .ok ()⟩).Trying := ⟨rfl, rfl, rfl⟩
      apply Co.wp_conseq pumpSpec_mono (wp_convey htake hdeliver rounds _ htry ⟨rfl, rfl⟩)
      · intro _ _ m hdone
        obtain ⟨htry', hidle, hended⟩ := hdone
        apply Co.wp_conseq pumpSpec_mono (hlast m htry')
        · intro _ _ m' hcloses
          exact ⟨hcloses.finished, ⟨hcloses.hand.trans hidle.hand,
            hcloses.failed.trans hidle.failed⟩, hcloses.ended.trans hended⟩
        · intro _ _ m' hcloses _
          exact hcloses.finished
      · intro _ _ m htry'
        apply Co.wp_conseq pumpSpec_mono (hlast m htry')
        · intro _ _ m' hcloses _
          exact hcloses.finished
        · intro _ _ m' hcloses _
          exact hcloses.finished

/-- **What each pump does**, whatever it is answered. -/
theorem wp_program (rounds : Nat) (side : Side) :
    Interaction.wp (PumpSpec side) (program rounds side ())
      (fun out m => Outcome side m out.1) Handling.fresh := by
  have hpump : Co.wp (PumpSpec side) (program rounds side)
      (fun _ _ m => Outcome side m (.ok ())) (fun e _ m => Outcome side m (.error e)) ()
      Handling.fresh := by
    cases side with
    | toProxy => exact wp_pump takes_recv delivers_write ends_toProxy rounds
    | fromProxy => exact wp_pump takes_read delivers_sendall ends_fromProxy rounds
  apply Interaction.wp_mono pumpSpec_mono _ ?_ _ hpump
  intro out m hout
  obtain ⟨e | _, _⟩ := out
  · exact hout
  · exact hout

end Pump

/-! ## §4. The streams and the pumps. -/

namespace PumpTask

/-- Where it stands. -/
def standing (t : PumpTask) : Handling := t.history.foldl Handling.after Handling.fresh

end PumpTask

namespace Pumped

/-- The carrier has in hand what the pump has, and drops at most one chunk, in
failing to take it. -/
structure Carries (m : Handling) {source sink : Channel UInt8} (c : Carrier source sink) :
    Prop where
  hand : c.hand = m.hand
  dropped : m.failed = false → c.dropped = []
  bound : c.hand.length + c.dropped.length ≤ Pump.chunk

/-- What the streams have to do with where the pumps stand. -/
structure Joined (w : Piping) (t f : Handling) : Prop where
  up : ∃ c : Carrier w.upstream w.stdin, Carries t c
  down : ∃ c : Carrier w.stdout w.downstream, Carries f c
  closed : t.inputClosed = true → w.stdin.shut = true
  disconnected : w.disconnected = true ↔ t.disconnected = true ∨ f.disconnected = true
  upEnded : t.ended = true → Piping.Ended w.upstream ∨ f.disconnected = true
  downEnded : f.ended = true → Piping.Ended w.stdout

section Carries

variable {m : Handling} {source sink : Channel UInt8} {c : Carrier source sink}

theorem Carries.along (hc : Carries m c) {source' sink' : Channel UInt8}
    (hsource : source'.taken = source.taken) (hsink : sink'.put = sink.put) :
    ∃ c' : Carrier source' sink', Carries m c' :=
  ⟨c.along hsource hsink, hc.hand, hc.dropped, hc.bound⟩

/-- A chunk has been taken. -/
theorem Carries.pick (hc : Carries m c) (hidle : m.Idle) {n : Nat} (hn : n ≤ Pump.chunk) :
    ∃ c' : Carrier (source.read n) sink, Carries (m.took (.ok (source.held.take n))) c' := by
  have hhand : c.hand = [] := hc.hand.trans hidle.hand
  refine ⟨c.pick n hhand (hc.dropped hidle.failed), rfl, fun _ => rfl, ?_⟩
  show (source.held.take n).length + 0 ≤ Pump.chunk
  rw [List.length_take]
  omega

/-- Nothing was there to be taken. -/
theorem Carries.pickNothing (hc : Carries m c) (hidle : m.Idle) : Carries (m.took (.ok [])) c :=
  ⟨hc.hand.trans hidle.hand, hc.dropped, hc.bound⟩

/-- A chunk has been lost on the way into the pump. -/
theorem Carries.spill (hc : Carries m c) (hidle : m.Idle) {n : Nat} (hn : n ≤ Pump.chunk)
    (f : Fault) : ∃ c' : Carrier (source.read n) sink, Carries (m.took (.error f)) c' := by
  have hhand : c.hand = [] := hc.hand.trans hidle.hand
  have hdropped := hc.dropped hidle.failed
  refine ⟨c.spill n, hidle.hand.symm, fun h => (by cases h), ?_⟩
  show 0 + (c.hand ++ c.dropped ++ source.held.take n).length ≤ Pump.chunk
  rw [hhand, hdropped, List.nil_append, List.nil_append, List.length_take]
  omega

/-- The beginning of what is in hand has been passed on. -/
theorem Carries.place (hc : Carries m c) (n : Nat) :
    ∃ c' : Carrier source (sink.write (m.hand.take n)),
      Carries { m with hand := m.hand.drop n } c' := by
  rw [← hc.hand]
  refine ⟨c.place n, rfl, hc.dropped, ?_⟩
  show (c.hand.drop n).length + c.dropped.length ≤ Pump.chunk
  have hbound := hc.bound
  rw [List.length_drop]
  omega

end Carries

section Joined

variable {w w' : Piping} {t f : Handling}

/-- What is at an end stays there, as far as the reader can see. -/
theorem Ended.read {c : Channel UInt8} (h : Piping.Ended c) (n : Nat) :
    Piping.Ended (c.read n) := by
  refine ⟨?_, h.closed⟩
  rw [Channel.held_read, h.held, List.drop_nil]

theorem Ended.lose {c : Channel UInt8} (h : Piping.Ended c) (n : Nat) :
    Piping.Ended (c.lose n) := by
  refine ⟨?_, Or.inr rfl⟩
  rw [Channel.held_lose, h.held, List.take_nil]

/-- A step of `_to_proxy`. -/
theorem Joined.toProxy (h : Joined w t f) {op : PumpOp} {r : PumpAns op}
    (hat : Handling.AtOp .toProxy t op) (hr : w.Answers op r w') :
    Joined w' (t.after ⟨op, r⟩) f := by
  have hside := hat.side
  obtain ⟨c, hc⟩ := h.up
  cases hr with
  | start r =>
      cases r with
      | ok _ => exact ⟨⟨c, hc.hand, hc.dropped, hc.bound⟩, h.down, h.closed, h.disconnected,
          h.upEnded, h.downEnded⟩
      | error _ => exact h
  | recv hpos hlimit hlen =>
      have hallows := hat.allows
      refine ⟨hc.pick hallows.1 (hallows.2 ▸ hlimit), h.down, h.closed, h.disconnected, ?_,
        h.downEnded⟩
      -- What has been taken is not empty.
      intro hended
      have hnil := List.isEmpty_iff.mp hended
      rw [List.take_eq_nil_iff] at hnil
      obtain hzero | hheld := hnil
      · omega
      · rw [hheld, List.length_nil] at hlen
        omega
  | recvEnd hend =>
      refine ⟨⟨c, hc.pickNothing hat.allows.1⟩, h.down, h.closed, h.disconnected, ?_,
        h.downEnded⟩
      intro _
      obtain hended | hdisc := hend
      · exact Or.inl hended
      · -- It has not disconnected the socket itself.
        obtain ht | hf := h.disconnected.mp hdisc
        · rw [hat.open_] at ht
          cases ht
        · exact Or.inr hf
  | recvFails fault hlimit =>
      have hallows := hat.allows
      refine ⟨hc.spill hallows.1 (hallows.2 ▸ hlimit) fault, h.down, h.closed, h.disconnected, ?_,
        h.downEnded⟩
      intro hended
      exact (h.upEnded hended).imp (fun he => Ended.read he _) id
  | write data =>
      have hhand : t.hand = data := hat.allows.1
      have hplaced := hc.place data.length
      rw [hhand, List.take_length] at hplaced
      refine ⟨?_, h.down, h.closed, h.disconnected, h.upEnded, h.downEnded⟩
      show ∃ c' : Carrier w.upstream (w.stdin.write data),
        Carries { t with hand := t.hand.drop data.length } c'
      rw [hhand]
      exact hplaced
  | drain r => exact h
  | closeStdin =>
      exact ⟨⟨c.along rfl rfl, hc.hand, hc.dropped, hc.bound⟩, h.down, fun _ => rfl,
        h.disconnected, h.upEnded, h.downEnded⟩
  | read => cases hside _ rfl
  | readEnd => cases hside _ rfl
  | readFails => cases hside _ rfl
  | send => cases hside _ rfl
  | sendFails => cases hside _ rfl
  | shutdown r =>
      exact ⟨⟨c, hc.hand, hc.dropped, hc.bound⟩, h.down, h.closed,
        ⟨fun _ => Or.inl rfl, fun _ => rfl⟩, h.upEnded, h.downEnded⟩

/-- A step of `_from_proxy`. -/
theorem Joined.fromProxy (h : Joined w t f) {op : PumpOp} {r : PumpAns op}
    (hat : Handling.AtOp .fromProxy f op) (hr : w.Answers op r w') :
    Joined w' t (f.after ⟨op, r⟩) := by
  have hside := hat.side
  obtain ⟨c, hc⟩ := h.down
  cases hr with
  | start r =>
      cases r with
      | ok _ => exact ⟨h.up, ⟨c, hc.hand, hc.dropped, hc.bound⟩, h.closed, h.disconnected,
          h.upEnded, h.downEnded⟩
      | error _ => exact h
  | recv => cases hside _ rfl
  | recvEnd => cases hside _ rfl
  | recvFails => cases hside _ rfl
  | write => cases hside _ rfl
  | drain => cases hside _ rfl
  | closeStdin => cases hside _ rfl
  | read hpos hlimit hlen =>
      have hallows := hat.allows
      refine ⟨h.up, hc.pick hallows.1 (hallows.2 ▸ hlimit), h.closed, h.disconnected, h.upEnded,
        ?_⟩
      intro hended
      have hnil := List.isEmpty_iff.mp hended
      rw [List.take_eq_nil_iff] at hnil
      obtain hzero | hheld := hnil
      · omega
      · rw [hheld, List.length_nil] at hlen
        omega
  | readEnd hend =>
      exact ⟨h.up, ⟨c, hc.pickNothing hat.allows.1⟩, h.closed, h.disconnected, h.upEnded,
        fun _ => hend⟩
  | readFails fault hlimit =>
      have hallows := hat.allows
      exact ⟨h.up, hc.spill hallows.1 (hallows.2 ▸ hlimit) fault, h.closed, h.disconnected,
        h.upEnded, fun hended => Ended.read (h.downEnded hended) _⟩
  | @send data n hopen hpos hlen =>
      have hhand : f.hand = data := hat.allows
      have hplaced := hc.place n
      refine ⟨h.up, ?_, h.closed, h.disconnected, h.upEnded, h.downEnded⟩
      rw [← hhand]
      exact hplaced
  | sendFails fault => exact h
  | shutdown r =>
      exact ⟨h.up, ⟨c, hc.hand, hc.dropped, hc.bound⟩, h.closed,
        ⟨fun _ => Or.inr rfl, fun _ => rfl⟩, fun _ => Or.inr rfl, h.downEnded⟩

/-- A step of anybody else. -/
theorem Joined.moves (h : Joined w t f) (hmove : w.Moves w') : Joined w' t f := by
  obtain ⟨c, hc⟩ := h.up
  obtain ⟨d, hd⟩ := h.down
  cases hmove with
  | clientWrites xs hshut hopen =>
      refine ⟨hc.along rfl rfl, h.down, h.closed, h.disconnected, ?_, h.downEnded⟩
      intro hended
      obtain hend | hf := h.upEnded hended
      · -- The client has not closed its end, so the stream had broken.
        have hbroken : w.upstream.broken = true :=
          hend.closed.resolve_left (by rw [hshut]; exact Bool.false_ne_true)
        refine Or.inl ⟨?_, Or.inr hbroken⟩
        show (if w.upstream.broken = true then w.upstream.held else _) = []
        rw [if_pos hbroken]
        exact hend.held
      · exact Or.inr hf
  | clientReads n =>
      exact ⟨h.up, hd.along rfl rfl, h.closed, h.disconnected, h.upEnded, h.downEnded⟩
  | clientCloses =>
      refine ⟨hc.along rfl rfl, h.down, h.closed, h.disconnected, ?_, h.downEnded⟩
      exact fun hended => (h.upEnded hended).imp (fun hend => ⟨hend.held, Or.inl rfl⟩) id
  | childReads n =>
      exact ⟨hc.along rfl rfl, h.down, h.closed, h.disconnected, h.upEnded, h.downEnded⟩
  | childWrites xs hshut =>
      refine ⟨h.up, hd.along rfl rfl, h.closed, h.disconnected, h.upEnded, ?_⟩
      intro hended
      have hend := h.downEnded hended
      have hbroken : w.stdout.broken = true :=
        hend.closed.resolve_left (by rw [hshut]; exact Bool.false_ne_true)
      refine ⟨?_, Or.inr hbroken⟩
      show (if w.stdout.broken = true then w.stdout.held else _) = []
      rw [if_pos hbroken]
      exact hend.held
  | childCloses =>
      exact ⟨h.up, hd.along rfl rfl, h.closed, h.disconnected, h.upEnded,
        fun hended => ⟨(h.downEnded hended).held, Or.inl rfl⟩⟩
  | upstreamBreaks n =>
      refine ⟨hc.along rfl rfl, h.down, h.closed, h.disconnected, ?_, h.downEnded⟩
      exact fun hended => (h.upEnded hended).imp (fun hend => Ended.lose hend n) id
  | stdinBreaks n =>
      exact ⟨hc.along rfl rfl, h.down, h.closed, h.disconnected, h.upEnded, h.downEnded⟩
  | stdoutBreaks n =>
      exact ⟨h.up, hd.along rfl rfl, h.closed, h.disconnected, h.upEnded,
        fun hended => Ended.lose (h.downEnded hended) n⟩
  | downstreamBreaks n =>
      exact ⟨h.up, hd.along rfl rfl, h.closed, h.disconnected, h.upEnded, h.downEnded⟩

end Joined

/-! ## §5. Every run. -/

/-- **What holds of every state.** -/
structure Sound (rounds : Nat) (S : Pumped) : Prop where
  runs : ∀ side, Run (Pump.program rounds side ()) (S.pump side).history (S.pump side).rest
  joined : Joined S.pipes (S.pump .toProxy).standing (S.pump .fromProxy).standing

variable {rounds : Nat} {S S' : Pumped}

/-- Nothing has happened yet. -/
theorem sound_init : Sound rounds (init rounds) where
  runs _ := .start
  joined :=
    { up := ⟨.idle, rfl, fun _ => rfl, Nat.zero_le _⟩
      down := ⟨.idle, rfl, fun _ => rfl, Nat.zero_le _⟩
      closed := fun h => by cases h
      disconnected := by
        constructor
        · intro h
          cases h
        · rintro (h | h) <;> cases h
      upEnded := fun h => by cases h
      downEnded := fun h => by cases h }

/-- **One step keeps it.** -/
theorem Sound.step (h : Sound rounds S) (hstep : S.Step S') : Sound rounds S' := by
  cases hstep with
  | move hmove => exact ⟨h.runs, h.joined.moves hmove⟩
  | @act side op k r pipes hrest hr =>
      have hrun := h.runs side
      rw [hrest] at hrun
      have hat := wp_run_head (Pump.wp_program rounds side) hrun rfl
      have hstanding : ∀ k', PumpTask.standing ⟨(S.pump side).history ++ [⟨op, r⟩], k'⟩
          = (S.pump side).standing.after ⟨op, r⟩ := by
        intro k'
        exact List.foldl_append
      refine ⟨fun side' => ?_, ?_⟩
      · show Run _ (Function.update S.pump side _ side').history
          (Function.update S.pump side _ side').rest
        by_cases hside : side' = side
        · subst hside
          rw [Function.update_self]
          exact .step r hrun
        · rw [Function.update_of_ne hside]
          exact h.runs side'
      · cases side with
        | toProxy =>
            show Joined pipes (PumpTask.standing ⟨_, k r⟩) (S.pump .fromProxy).standing
            rw [hstanding]
            exact h.joined.toProxy hat hr
        | fromProxy =>
            show Joined pipes (S.pump .toProxy).standing (PumpTask.standing ⟨_, k r⟩)
            rw [hstanding]
            exact h.joined.fromProxy hat hr

/-- **Every run keeps it.** -/
theorem sound_of_reach (h : Reach rounds S) : Sound rounds S := by
  induction h with
  | init => exact sound_init
  | step _ hstep ih => exact ih.step hstep

/-- A pump that is over has an outcome. -/
theorem Sound.outcome (h : Sound rounds S) {side : Side} {out : Except PyExc Unit × Unit}
    (hout : (S.pump side).rest = .ret out) : Pump.Outcome side (S.pump side).standing out.1 := by
  have hrun := h.runs side
  rw [hout] at hrun
  exact wp_run_ret (Pump.wp_program rounds side) hrun

/-- A pump that has been scheduled stays so. -/
theorem started_after (m : Handling) (e : Event PumpAns)
    (h : m.started = true ∨ e = ⟨.start, .ok ()⟩) : (m.after e).started = true := by
  obtain ⟨op, r⟩ := e
  obtain h | h := h
  · cases op with
    | start => cases r <;> first | exact h | rfl
    | recv _ => cases r <;> exact h
    | read _ => cases r <;> exact h
    | send _ => cases r <;> exact h
    | write _ => exact h
    | drain => exact h
    | closeStdin => exact h
    | shutdown => exact h
    | unrolled => exact r.elim
  · rw [h]
    rfl

theorem started_of_mem {h : List (Event PumpAns)} (hmem : ⟨.start, .ok ()⟩ ∈ h) :
    ∀ m : Handling, (h.foldl Handling.after m).started = true := by
  have hstays : ∀ (h : List (Event PumpAns)) (m : Handling), m.started = true →
      (h.foldl Handling.after m).started = true := by
    intro h
    induction h with
    | nil => exact fun m hm => hm
    | cons e h ih => exact fun m hm => ih _ (started_after m e (Or.inl hm))
  induction h with
  | nil => cases hmem
  | cons e h ih =>
      intro m
      obtain rfl | hmem := List.mem_cons.mp hmem
      · exact hstays h _ (started_after m _ (Or.inr rfl))
      · exact ih hmem _

/-- A pump under way has not shut the socket down. -/
theorem Sound.connected (h : Sound rounds S) {side : Side} (hover : ¬ (S.pump side).Over) :
    (S.pump side).standing.disconnected = false := by
  have hrun := h.runs side
  cases hrest : (S.pump side).rest with
  | ret out => exact absurd ⟨out, hrest⟩ hover
  | op i k =>
      rw [hrest] at hrun
      exact (wp_run_head (Pump.wp_program rounds side) hrun rfl).open_

/-- **What the relay is for**, of one state. -/
structure Faithful (S : Pumped) : Prop where
  /-- The child reads what the client has written, in order. -/
  up : S.pipes.stdin.taken <+: S.pipes.upstream.put
  /-- The client reads what the child has written, in order. -/
  down : S.pipes.downstream.taken <+: S.pipes.stdout.put
  /-- No more than one chunk is between the streams. -/
  upBound : S.pipes.upstream.taken.length ≤ S.pipes.stdin.put.length + Pump.chunk
  downBound : S.pipes.stdout.taken.length ≤ S.pipes.downstream.put.length + Pump.chunk
  /-- A pump does not leave the others waiting. -/
  closes : ∀ side, (S.pump side).Over → (S.pump side).Started →
    S.pipes.disconnected = true ∧ (side = .toProxy → S.pipes.stdin.shut = true)
  /-- If `_to_proxy` has returned before `_from_proxy` was over, and the
  streams have not broken, then all that was written comes out. -/
  upWhole : (S.pump .toProxy).Returned → ¬ (S.pump .fromProxy).Over →
    S.pipes.upstream.broken = false → S.pipes.stdin.broken = false →
    S.pipes.stdin.taken ++ S.pipes.stdin.held = S.pipes.upstream.put
  /-- If `_from_proxy` has returned, likewise. -/
  downWhole : (S.pump .fromProxy).Returned →
    S.pipes.stdout.broken = false → S.pipes.downstream.broken = false →
    S.pipes.downstream.taken ++ S.pipes.downstream.held = S.pipes.stdout.put

/-- A pump has shut the socket down, and `_to_proxy` has closed the input. -/
theorem Sound.closes (h : Sound rounds S) {side : Side} (hover : (S.pump side).Over)
    (hstarted : (S.pump side).Started) :
    S.pipes.disconnected = true ∧ (side = .toProxy → S.pipes.stdin.shut = true) := by
  obtain ⟨out, hout⟩ := hover
  have houtcome := h.outcome hout
  have hbegun : (S.pump side).standing.started = true := started_of_mem hstarted Handling.fresh
  have hfinished : Handling.Finished side (S.pump side).standing := by
    obtain ⟨e | _, _⟩ := out
    · exact houtcome hbegun
    · exact houtcome.1
  constructor
  · apply h.joined.disconnected.mpr
    cases side with
    | toProxy => exact Or.inl hfinished.disconnected
    | fromProxy => exact Or.inr hfinished.disconnected
  · rintro rfl
    exact h.joined.closed (hfinished.inputClosed rfl)

/-- A carrier that has come to the end of an unbroken stream has passed all
of it on. -/
theorem Carries.whole {m : Handling} {source sink : Channel UInt8} {c : Carrier source sink}
    (hc : Carries m c) (hidle : m.Idle) (hended : Piping.Ended source)
    (hsource : source.broken = false) (hsink : sink.broken = false) :
    sink.taken ++ sink.held = source.put := calc
  sink.taken ++ sink.held = sink.put := sink.whole hsink
  _ = source.taken := c.passed (hc.hand.trans hidle.hand) (hc.dropped hidle.failed)
  _ = source.put := source.drained hsource hended.held

/-- **The relay is faithful**: whatever the client, the child and the pumps
do in whatever order, and whatever breaks or is cancelled. -/
theorem faithful (h : Reach rounds S) : S.Faithful := by
  have hsound := sound_of_reach h
  obtain ⟨c, hc⟩ := hsound.joined.up
  obtain ⟨d, hd⟩ := hsound.joined.down
  exact {
    up := c.in_order
    down := d.in_order
    upBound := by
      rw [c.length_taken]
      exact Nat.add_le_add_left hc.bound _
    downBound := by
      rw [d.length_taken]
      exact Nat.add_le_add_left hd.bound _
    closes := fun side hover hstarted => hsound.closes hover hstarted
    upWhole := by
      intro hret hover hsource hsink
      have houtcome := hsound.outcome hret
      -- The other pump has not cut the stream short.
      have hended : Piping.Ended S.pipes.upstream := by
        obtain hend | hdisc := hsound.joined.upEnded houtcome.2.2
        · exact hend
        · rw [hsound.connected hover] at hdisc
          cases hdisc
      exact hc.whole houtcome.2.1 hended hsource hsink
    downWhole := by
      intro hret hsource hsink
      have houtcome := hsound.outcome hret
      exact hd.whole houtcome.2.1 (hsound.joined.downEnded houtcome.2.2) hsource hsink }

/-- A pump's operation is answered. -/
theorem Reach.answered (h : Reach rounds S) (side : Side) {op : PumpOp}
    {k : PumpAns op → Prog PumpOp PumpAns (Except PyExc Unit × Unit)} {r : PumpAns op}
    {pipes : Piping} (hrest : (S.pump side).rest = .op op k) (hr : S.pipes.Answers op r pipes) :
    Reach rounds ⟨pipes, Function.update S.pump side
      ⟨(S.pump side).history ++ [⟨op, r⟩], k r⟩⟩ :=
  .step h (.act hrest hr)

/-- The client sends two bytes and closes. -/
theorem faithful_closed : ∃ S : Pumped, S.Faithful ∧ (S.pump .toProxy).Returned
    ∧ S.pipes.stdin.taken = [104, 105] := by
  have h₀ : Reach 2 (init 2) := .init
  have h₁ := Reach.step h₀ (.move (.clientWrites [104, 105] rfl rfl))
  have h₂ := h₁.answered .toProxy rfl (.start (.ok ()))
  have h₃ := h₂.answered .toProxy rfl (.recv (n := 2) (by decide) (by decide) (by decide))
  have h₄ := h₃.answered .toProxy rfl (.write [104, 105])
  have h₅ := Reach.step h₄ (.move (.childReads 2))
  have h₆ := h₅.answered .toProxy rfl (.drain (.ok ()))
  have h₇ := Reach.step h₆ (.move .clientCloses)
  have h₈ := h₇.answered .toProxy rfl (.recvEnd (Or.inl ⟨rfl, Or.inl rfl⟩))
  have h₉ := h₈.answered .toProxy rfl .closeStdin
  have h₁₀ := h₉.answered .toProxy rfl (.shutdown (.ok ()))
  exact ⟨_, faithful h₁₀, rfl, rfl⟩

end Pumped

end CodexRemoteBridge
