/-
  CodexRemoteBridge.Relay — `proxy_transport.py`: the object around one relay
  process, from `open` to the last caller of `close`.

  The callers of `close` share the object, and each may be cancelled at every
  `await`.  The pumps, the child and the socket end of their own accord, at
  any time.  A caller that finds `_closed` set returns at once; whatever it
  leaves behind is what the first caller has not done yet.

  Main result:
    • `ProxyWebSocket.close_releases_iff` — when every return of `close`
      finds everything released.
-/
import CodexRemoteBridge.Lib.Coroutine
import CodexRemoteBridge.Python

namespace CodexRemoteBridge

open Interaction

/-! ## §1. The object. -/

/-- What a pump, an endpoint or a child process is. -/
inductive Life where
  | live
  | gone
  deriving DecidableEq

/-- A `ProxyWebSocket`. -/
structure ProxyWebSocket where
  process : Option Life
  /-- `self.websocket is not None`. -/
  websocket : Bool
  sockets : Option (Life × Life)
  pumps : List Life
  closed : Bool

/-- The operations of `open` and of `close`. -/
inductive RelayOp where
  /-- `relay.process = await asyncio.create_subprocess_exec(…)`. -/
  | spawn
  | socketpair
  | setNonBlocking (endpoint : Bool)
  /-- `relay.pumps = [asyncio.create_task(…), …]`. -/
  | startPumps
  /-- `relay.websocket = await connect(…)`. -/
  | connect
  /-- `if self._closed: …; self._closed = True`. -/
  | enter
  /-- `self.websocket is not None`. -/
  | websocket
  /-- `await self.websocket.close()`. -/
  | closeWebsocket
  /-- The number of `self.pumps`. -/
  | pumps
  | cancelPump (pump : Nat)
  /-- `await task`: a caller that is cancelled here hands that on to the
  pump, and goes on waiting for it. -/
  | joinPump (pump : Nat)
  /-- Whether there are `self.sockets`. -/
  | sockets
  | closeSocket (endpoint : Bool)
  /-- `self.process is not None and self.process.returncode is None`. -/
  | running
  | terminate
  /-- `await asyncio.wait_for(self.process.wait(), 2)`. -/
  | waitBriefly
  | kill
  /-- `await self.process.wait()`. -/
  | wait
  /-- No effect: `close()` has returned here. -/
  | returned

/-- What an operation is answered with. -/
abbrev RelayAns : RelayOp → Type
  | .spawn => Except Fault Unit
  | .socketpair => Except Fault Unit
  | .setNonBlocking _ => Except Fault Unit
  | .startPumps => Unit
  | .connect => Except Fault Unit
  | .enter => Bool
  | .websocket => Bool
  | .closeWebsocket => Except Fault Unit
  | .pumps => Nat
  | .cancelPump _ => Unit
  | .joinPump _ => Except Fault Unit
  | .sockets => Bool
  | .closeSocket _ => Unit
  | .running => Bool
  | .terminate => Except Fault Unit
  | .waitBriefly => Except Fault Unit
  | .kill => Except Fault Unit
  | .wait => Except Fault Unit
  | .returned => Unit

/-- The operations that put a part into the object. -/
def RelayOp.builds : RelayOp → Bool
  | .spawn | .socketpair | .setNonBlocking _ | .startPumps | .connect => true
  | _ => false

/-- A coroutine of `ProxyWebSocket`. -/
abbrev Relay : Type → Type := Co RelayOp RelayAns PyExc Unit

namespace ProxyWebSocket

/-- Perform an operation that returns or raises. -/
def perform (op : RelayOp) (view : RelayAns op → Except PyExc Unit) : Relay Unit :=
  Co.ask op >>= fun r => Co.ofExcept (view r)

/-- `with contextlib.suppress(ProcessLookupError)`. -/
def suppressLookup (c : Relay Unit) : Relay Unit :=
  Co.tryCatch c fun
    | .exception "ProcessLookupError" _ => pure ()
    | error => Co.throw error

/-- `task.cancel()` for every pump. -/
def cancelPumps : List Nat → Relay Unit
  | [] => pure ()
  | pump :: rest => do
      Co.ask (RelayOp.cancelPump pump)
      cancelPumps rest

/-- `await task` for every pump, whatever it raises. -/
def joinPumps : List Nat → Relay Unit
  | [] => pure ()
  | pump :: rest => do
      Co.tryCatch (perform (.joinPump pump) lift) fun _ => pure ()
      joinPumps rest

/-- Closing both endpoints. -/
def closeSockets : Relay Unit := do
  let sockets ← Co.ask RelayOp.sockets
  if sockets then do
    Co.ask (RelayOp.closeSocket false)
    Co.ask (RelayOp.closeSocket true)
  else pure ()

/-- Ending the child. -/
def stop : Relay Unit := do
  let running ← Co.ask RelayOp.running
  if running then do
    suppressLookup (perform .terminate lift)
    Co.tryCatch (perform .waitBriefly lift) fun
      | .exception "TimeoutError" _ => do
          suppressLookup (perform .kill lift)
          perform .wait lift
      | error => Co.throw error
  else pure ()

/-- The `finally` block of `close`. -/
def release : Relay Unit := do
  let pumps ← Co.ask RelayOp.pumps
  cancelPumps (List.range pumps)
  joinPumps (List.range pumps)
  closeSockets
  stop

/-- The `try` block of `close`. -/
def disconnect : Relay Unit := do
  let websocket ← Co.ask RelayOp.websocket
  if websocket then perform .closeWebsocket lift else pure ()

/-- `close`. -/
def close : Relay Unit := do
  let closed ← Co.ask RelayOp.enter
  if closed then pure ()
  else Co.tryFinally disconnect release

/-- A caller of `close`. -/
def closing : Relay Unit := do
  close
  Co.ask RelayOp.returned

/-- The `try` block of `open`. -/
def build : Relay Unit := do
  perform .spawn lift
  perform .socketpair lift
  perform (.setNonBlocking false) lift
  perform (.setNonBlocking true) lift
  Co.ask RelayOp.startPumps
  perform .connect lift

/-- `open`. -/
def openRelay : Relay Unit :=
  Co.tryCatch build fun error => do
    closing
    Co.throw error

/-- One endpoint of the pair. -/
def endpoint (s : ProxyWebSocket) : Bool → Option Life
  | false => s.sockets.map Prod.fst
  | true => s.sockets.map Prod.snd

/-- An endpoint has been closed. -/
def closeEndpoint (s : ProxyWebSocket) (endpoint : Bool) : ProxyWebSocket :=
  { s with
    sockets := s.sockets.map fun pair =>
      if endpoint then (pair.1, .gone) else (.gone, pair.2) }

/-- **What `close` is for**: the pumps have finished, the endpoints are
closed, and the child has exited. -/
def Released (s : ProxyWebSocket) : Prop :=
  .live ∉ s.pumps ∧ (∀ e, s.endpoint e ≠ some .live) ∧ s.process ≠ some .live

/-- How an operation may be answered, and the object afterwards. -/
inductive Answers (s : ProxyWebSocket) : (op : RelayOp) → RelayAns op → ProxyWebSocket → Prop
  | spawn : Answers s .spawn (.ok ()) { s with process := some .live }
  | spawnFails (f : Fault) : Answers s .spawn (.error f) s
  | socketpair : Answers s .socketpair (.ok ()) { s with sockets := some (.live, .live) }
  | socketpairFails (f : Fault) : Answers s .socketpair (.error f) s
  | setNonBlocking (e : Bool) (r : Except Fault Unit) : Answers s (.setNonBlocking e) r s
  | startPumps : Answers s .startPumps () { s with pumps := [.live, .live] }
  | connect : Answers s .connect (.ok ()) { s with websocket := true }
  | connectFails (f : Fault) : Answers s .connect (.error f) s
  | enter : Answers s .enter s.closed { s with closed := true }
  | websocket : Answers s .websocket s.websocket s
  | closeWebsocket (r : Except Fault Unit) : Answers s .closeWebsocket r s
  | pumps : Answers s .pumps s.pumps.length s
  | cancelPump (pump : Nat) : Answers s (.cancelPump pump) () s
  | joinPump {pump : Nat} (r : Except Fault Unit) : s.pumps[pump]? ≠ some .live →
      Answers s (.joinPump pump) r s
  | sockets : Answers s .sockets s.sockets.isSome s
  | closeSocket (e : Bool) : Answers s (.closeSocket e) () (s.closeEndpoint e)
  /-- The exit of the child may not have been noticed yet. -/
  | running : s.process ≠ none → Answers s .running true s
  | notRunning : s.process ≠ some .live → Answers s .running false s
  | terminate (r : Except Fault Unit) : Answers s .terminate r s
  | waitBriefly : s.process ≠ some .live → Answers s .waitBriefly (.ok ()) s
  | waitBrieflyFails (f : Fault) : Answers s .waitBriefly (.error f) s
  | kill (r : Except Fault Unit) : Answers s .kill r s
  | wait : s.process ≠ some .live → Answers s .wait (.ok ()) s
  | waitFails (f : Fault) : Answers s .wait (.error f) s
  | returned : Answers s .returned () s

end ProxyWebSocket

/-! ## §2. The object and its callers. -/

/-- A task on the object, as far as it has got; it runs `open` or `close`. -/
structure RelayTask where
  opens : Bool
  history : List (Event RelayAns)
  rest : Prog RelayOp RelayAns (Except PyExc Unit × Unit)

namespace RelayTask

/-- The coroutine of the task. -/
def program (opens : Bool) : Relay Unit :=
  if opens then ProxyWebSocket.openRelay else ProxyWebSocket.closing

def start (opens : Bool) : RelayTask where
  opens := opens
  history := []
  rest := program opens ()

end RelayTask

/-- The object, the tasks on it, and two records: the object as it was
whenever a `close()` returned, and whenever one found `_closed` set. -/
structure Relayed where
  object : ProxyWebSocket
  tasks : List RelayTask
  returned : List ProxyWebSocket
  turned : List ProxyWebSocket

namespace Relayed

/-- `open` has been called. -/
def init : Relayed where
  object := ⟨none, false, none, [], false⟩
  tasks := [RelayTask.start true]
  returned := []
  turned := []

/-- `open` has returned the object. -/
def Opened (S : Relayed) : Prop :=
  ∃ t, S.tasks[0]? = some t ∧ t.rest = .ret (.ok (), ())

/-- `if self._closed` held. -/
def foundClosed : Event RelayAns → Bool
  | ⟨.enter, true⟩ => true
  | _ => false

/-- Task `i` has the operation answered that it stands at. -/
def after (S : Relayed) (i : Nat) (t : RelayTask) (op : RelayOp) (r : RelayAns op)
    (rest : Prog RelayOp RelayAns (Except PyExc Unit × Unit)) (object : ProxyWebSocket) :
    Relayed where
  object := object
  tasks := S.tasks.set i { t with history := t.history ++ [⟨op, r⟩], rest := rest }
  returned :=
    match rest.head? with
    | some .returned => S.returned ++ [object]
    | _ => S.returned
  turned := if foundClosed ⟨op, r⟩ then S.turned ++ [S.object] else S.turned

inductive Step (S : Relayed) : Relayed → Prop
  /-- `close()` is called. -/
  | call : S.Opened → Step S { S with tasks := S.tasks ++ [RelayTask.start false] }
  | act {i : Nat} {t : RelayTask} {op : RelayOp}
      {k : RelayAns op → Prog RelayOp RelayAns (Except PyExc Unit × Unit)} {r : RelayAns op}
      {object : ProxyWebSocket} :
      S.tasks[i]? = some t → t.rest = .op op k → S.object.Answers op r object →
      Step S (S.after i t op r (k r) object)
  | pumpEnds (pump : Nat) :
      Step S { S with object := { S.object with pumps := S.object.pumps.set pump .gone } }
  | childExits : S.object.process = some .live →
      Step S { S with object := { S.object with process := some .gone } }
  /-- The transport of the connection has closed its socket. -/
  | socketCloses (e : Bool) : Step S { S with object := S.object.closeEndpoint e }

/-- The states an execution passes through. -/
inductive Reach : Relayed → Prop
  | init : Reach init
  | step {S S' : Relayed} : Reach S → S.Step S' → Reach S'

end Relayed

/-! ## §3. What a caller has done when it returns. -/

namespace ProxyWebSocket

/-- The operations and answers of a task. -/
abbrev RelayHistory : Type := List (Event RelayAns)

/-- The last thing that happened is that `_closed` was found set. -/
def TurnedAway (h : RelayHistory) : Prop := h.getLast? = some ⟨.enter, true⟩

/-- Every pump was waited for, both endpoints were closed, and the child was
seen to have exited. -/
structure Covered (h : RelayHistory) : Prop where
  pumps : ∃ n, ⟨.pumps, n⟩ ∈ h ∧ ∀ pump < n, ∃ r, ⟨.joinPump pump, r⟩ ∈ h
  sockets : ⟨.sockets, false⟩ ∈ h ∨ ∀ e, ⟨.closeSocket e, ()⟩ ∈ h
  child : ⟨.running, false⟩ ∈ h ∨ ⟨.waitBriefly, .ok ()⟩ ∈ h ∨ ⟨.wait, .ok ()⟩ ∈ h

/-- What holds of a task at each operation. -/
structure AtOp (opens : Bool) (h : RelayHistory) (op : RelayOp) : Prop where
  /-- The object is built before anything else. -/
  builds : op.builds = true → opens = true ∧ ∀ e ∈ h, e.1.builds = true
  /-- `close` is entered once. -/
  enter : op = .enter → ∀ e ∈ h, e.1 ≠ .enter
  /-- It returns because it was turned away, or because all is done. -/
  returned : op = .returned → TurnedAway h ∨ Covered h
  turned : TurnedAway h → op = .returned

/-- The specification of a task. -/
abbrev RelaySpec (opens : Bool) : OpSpec RelayAns RelayHistory := history (AtOp opens)

theorem relaySpec_mono (opens : Bool) : OpSpec.Mono (RelaySpec opens) := observe_mono _ _

/-- The part of `close` that only takes apart. -/
def RelayOp.dismantles : RelayOp → Bool
  | .enter | .returned => false
  | op => !op.builds

theorem not_turnedAway {h : RelayHistory} {op : RelayOp} (r : RelayAns op)
    (hop : op ≠ .enter) : ¬ TurnedAway (h ++ [⟨op, r⟩]) := by
  intro hlast
  unfold TurnedAway at hlast
  rw [List.getLast?_append_of_ne_nil _ (by simp)] at hlast
  simp only [List.getLast?_singleton, Option.some.injEq, Sigma.mk.injEq] at hlast
  exact hop hlast.1

variable {opens : Bool}

/-- An operation that takes apart is always allowed. -/
theorem AtOp.of_dismantles {h : RelayHistory} {op : RelayOp} (hop : RelayOp.dismantles op = true)
    (hturned : ¬ TurnedAway h) : AtOp opens h op := by
  refine ⟨fun hbuilds => ?_, ?_, ?_, fun h => absurd h hturned⟩
  · cases op <;> simp_all [RelayOp.dismantles, RelayOp.builds]
  · rintro rfl
    cases hop
  · rintro rfl
    cases hop

/-- `c` takes apart, and has done `F` when it returns. -/
def Undoes {α : Type} (F : α → RelayHistory → Prop) (c : Relay α) : Prop :=
  ∀ opens h, ¬ TurnedAway h → Co.wp (RelaySpec opens) c
    (fun a _ h' => ¬ TurnedAway h' ∧ h ⊆ h' ∧ F a h') (fun _ _ h' => ¬ TurnedAway h' ∧ h ⊆ h') () h

section Undoes

variable {α β : Type} {F : α → RelayHistory → Prop} {G : β → RelayHistory → Prop}

theorem undoes_ask (op : RelayOp) (hop : RelayOp.dismantles op = true) :
    Undoes (fun r h => ⟨op, r⟩ ∈ h) (Co.ask op) := by
  intro opens h hturned
  have hne : op ≠ .enter := by
    intro he
    rw [he] at hop
    cases hop
  show AtOp opens h op ∧ ∀ r, _
  refine ⟨.of_dismantles hop hturned, fun r => ?_⟩
  exact ⟨not_turnedAway r hne, List.subset_append_left h _, by simp⟩

theorem undoes_pure {a : α} (ha : ∀ h, F a h) : Undoes F (pure a : Relay α) :=
  fun _ h hturned => ⟨hturned, List.Subset.refl h, ha h⟩

theorem undoes_throw (e : PyExc) : Undoes F (Co.throw e : Relay α) :=
  fun _ h hturned => ⟨hturned, List.Subset.refl h⟩

theorem Undoes.imp {c : Relay α} (hc : Undoes F c) {F' : α → RelayHistory → Prop}
    (hF : ∀ a h, F a h → F' a h) : Undoes F' c := by
  intro opens h hturned
  apply Co.wp_conseq (relaySpec_mono opens) (hc opens h hturned) ?_ fun _ _ _ hX => hX
  exact fun a _ h' hdone => ⟨hdone.1, hdone.2.1, hF a h' hdone.2.2⟩

/-- What the first part has done stays done. -/
theorem undoes_bind {c : Relay α} {f : α → Relay β} {G : α → β → RelayHistory → Prop}
    (hc : Undoes F c) (hF : ∀ a h h', F a h → h ⊆ h' → F a h')
    (hf : ∀ a, Undoes (G a) (f a)) :
    Undoes (fun b h => ∃ a, F a h ∧ G a b h) (c >>= f) := by
  intro opens h hturned
  rw [Co.wp_bind]
  apply Co.wp_conseq (relaySpec_mono opens) (hc opens h hturned) ?_ fun _ _ _ hX => hX
  intro a _ h₁ hdone
  obtain ⟨hturned₁, hsub₁, hFa⟩ := hdone
  apply Co.wp_conseq (relaySpec_mono opens) (hf a opens h₁ hturned₁)
  · intro b _ h₂ hdone
    obtain ⟨hturned₂, hsub₂, hGb⟩ := hdone
    exact ⟨hturned₂, List.Subset.trans hsub₁ hsub₂, a, hF a h₁ h₂ hFa hsub₂, hGb⟩
  · intro e _ h₂ hraised
    exact ⟨hraised.1, List.Subset.trans hsub₁ hraised.2⟩

theorem undoes_tryCatch {c : Relay α} {handler : PyExc → Relay α} (hc : Undoes F c)
    (hh : ∀ e, Undoes F (handler e)) : Undoes F (c.tryCatch handler) := by
  intro opens h hturned
  rw [Co.wp_tryCatch]
  apply Co.wp_conseq (relaySpec_mono opens) (hc opens h hturned) (fun _ _ _ hQ => hQ)
  intro e _ h₁ hraised
  obtain ⟨hturned₁, hsub₁⟩ := hraised
  apply Co.wp_conseq (relaySpec_mono opens) (hh e opens h₁ hturned₁)
  · intro a _ h₂ hdone
    exact ⟨hdone.1, List.Subset.trans hsub₁ hdone.2.1, hdone.2.2⟩
  · intro e' _ h₂ hraised
    exact ⟨hraised.1, List.Subset.trans hsub₁ hraised.2⟩

/-- An operation that returns or raises. -/
theorem undoes_perform (op : RelayOp) (view : RelayAns op → Except PyExc Unit)
    (hop : RelayOp.dismantles op = true) :
    Undoes (fun _ h => ∃ r, view r = .ok () ∧ ⟨op, r⟩ ∈ h) (perform op view) := by
  have hview : ∀ r : RelayAns op,
      Undoes (fun _ _ => view r = .ok ()) (Co.ofExcept (view r)) := by
    intro r
    cases hr : view r with
    | ok _ => exact undoes_pure fun _ => rfl
    | error e => exact undoes_throw e
  have hboth := undoes_bind (undoes_ask op hop) (fun _ _ _ hmem hsub => hsub hmem) hview
  exact hboth.imp fun _ h hdone => by
    obtain ⟨r, hmem, hr⟩ := hdone
    exact ⟨r, hr, hmem⟩

/-- The same, whatever it answers. -/
theorem undoes_suppressed {op : RelayOp} {view : RelayAns op → Except PyExc Unit}
    (hop : RelayOp.dismantles op = true) :
    Undoes (fun _ h => ∃ r, ⟨op, r⟩ ∈ h)
      (Co.tryCatch (perform op view) fun _ => pure ()) := by
  have hne : op ≠ .enter := by
    intro he
    rw [he] at hop
    cases hop
  intro opens h hturned
  rw [Co.wp_tryCatch]
  show AtOp opens h op ∧ ∀ r, _
  refine ⟨.of_dismantles hop hturned, fun r => ?_⟩
  have hdone : ¬ TurnedAway (h ++ [⟨op, r⟩]) ∧ h ⊆ h ++ [⟨op, r⟩] ∧ ∃ r', ⟨op, r'⟩ ∈ h ++ [⟨op, r⟩] :=
    ⟨not_turnedAway r hne, List.subset_append_left h _, r, by simp⟩
  show Interaction.wp _ ((Co.ofExcept (view r) : Relay Unit) ()) _ _
  cases view r with
  | ok _ => exact hdone
  | error e => exact hdone

theorem undoes_suppressLookup {c : Relay Unit} (hc : Undoes (fun _ _ => True) c) :
    Undoes (fun _ _ => True) (suppressLookup c) := by
  apply undoes_tryCatch hc
  intro e
  split
  · exact undoes_pure fun _ => trivial
  · exact undoes_throw _

end Undoes

/-! ## §4. The `finally` block does all of it. -/

theorem undoes_cancelPumps (pumps : List Nat) :
    Undoes (fun _ _ => True) (cancelPumps pumps) := by
  induction pumps with
  | nil => exact undoes_pure fun _ => trivial
  | cons pump rest ih =>
      have hboth := undoes_bind (undoes_ask (.cancelPump pump) rfl)
        (fun _ _ _ hmem hsub => hsub hmem) fun _ => ih
      exact hboth.imp fun _ _ _ => trivial

theorem undoes_joinPumps (pumps : List Nat) :
    Undoes (fun _ h => ∀ pump ∈ pumps, ∃ r, ⟨.joinPump pump, r⟩ ∈ h) (joinPumps pumps) := by
  induction pumps with
  | nil => exact undoes_pure (by simp)
  | cons pump rest ih =>
      have hjoin : Undoes (fun _ h => ∃ r, ⟨.joinPump pump, r⟩ ∈ h)
          (Co.tryCatch (perform (.joinPump pump) lift) fun _ => pure ()) := undoes_suppressed rfl
      have hstays : ∀ (_ : Unit) (h h' : RelayHistory), (∃ r, ⟨.joinPump pump, r⟩ ∈ h) → h ⊆ h' →
          ∃ r, ⟨.joinPump pump, r⟩ ∈ h' := by
        intro _ h h' hjoined hsub
        obtain ⟨r, hmem⟩ := hjoined
        exact ⟨r, hsub hmem⟩
      exact (undoes_bind hjoin hstays fun _ => ih).imp fun _ h hdone => by
        obtain ⟨_, hfirst, hrest⟩ := hdone
        exact List.forall_mem_cons.mpr ⟨hfirst, hrest⟩

theorem undoes_closeSockets : Undoes
    (fun _ h => ⟨.sockets, false⟩ ∈ h ∨ ∀ e, ⟨.closeSocket e, ()⟩ ∈ h) closeSockets := by
  have hpair : Undoes (fun _ h => ∀ e, (⟨.closeSocket e, ()⟩ : Event RelayAns) ∈ h) (do
      Co.ask (RelayOp.closeSocket false)
      Co.ask (RelayOp.closeSocket true)) := by
    have hboth := undoes_bind (undoes_ask (.closeSocket false) rfl)
      (fun _ _ _ hmem hsub => hsub hmem) fun _ => undoes_ask (.closeSocket true) rfl
    exact hboth.imp fun _ h hdone => by
      obtain ⟨_, hfalse, htrue⟩ := hdone
      intro e
      cases e with
      | false => exact hfalse
      | true => exact htrue
  have hcases : ∀ sockets : Bool, Undoes
      (fun _ h => sockets = true → ∀ e, (⟨.closeSocket e, ()⟩ : Event RelayAns) ∈ h)
      (if sockets then do
          Co.ask (RelayOp.closeSocket false)
          Co.ask (RelayOp.closeSocket true)
        else pure ()) := by
    intro sockets
    cases sockets with
    | false => exact undoes_pure fun _ => nofun
    | true => exact hpair.imp fun _ _ hdone _ => hdone
  have hboth := undoes_bind (undoes_ask .sockets rfl) (fun _ _ _ hmem hsub => hsub hmem)
    hcases
  exact hboth.imp fun _ h hdone => by
    obtain ⟨sockets, hmem, hclosed⟩ := hdone
    cases sockets with
    | false => exact .inl hmem
    | true => exact .inr (hclosed rfl)

theorem lift_ok {r : Except Fault Unit} (h : lift r = .ok ()) : r = .ok () := by
  cases r with
  | ok _ => rfl
  | error f => cases h

theorem undoes_stop : Undoes (fun _ h =>
    ⟨.running, false⟩ ∈ h ∨ ⟨.waitBriefly, .ok ()⟩ ∈ h ∨ ⟨.wait, .ok ()⟩ ∈ h) stop := by
  have hquiet : ∀ (op : RelayOp) (view : RelayAns op → Except PyExc Unit),
      RelayOp.dismantles op = true →
      Undoes (fun _ _ => True) (suppressLookup (perform op view)) := by
    intro op view hop
    exact undoes_suppressLookup ((undoes_perform op view hop).imp fun _ _ _ => trivial)
  -- a wait that returns has seen the exit, be it the first or the one after the kill
  have hwaits : Undoes
      (fun _ h => (⟨.waitBriefly, .ok ()⟩ : Event RelayAns) ∈ h ∨ ⟨.wait, .ok ()⟩ ∈ h)
      (Co.tryCatch (perform .waitBriefly lift) fun
        | .exception "TimeoutError" _ => do
            suppressLookup (perform .kill lift)
            perform .wait lift
        | error => Co.throw error) := by
    apply undoes_tryCatch
    · exact (undoes_perform .waitBriefly lift rfl).imp fun _ h hdone => by
        obtain ⟨r, hr, hmem⟩ := hdone
        obtain rfl := lift_ok hr
        exact .inl hmem
    · intro e
      split
      · have hboth := undoes_bind (hquiet .kill lift rfl) (fun _ _ _ _ _ => trivial)
          fun _ => undoes_perform .wait lift rfl
        exact hboth.imp fun _ h hdone => by
          obtain ⟨_, -, r, hr, hmem⟩ := hdone
          obtain rfl := lift_ok hr
          exact .inr hmem
      · exact undoes_throw _
  have hcases : ∀ running : Bool, Undoes
      (fun _ h => running = true →
        (⟨.waitBriefly, .ok ()⟩ : Event RelayAns) ∈ h ∨ ⟨.wait, .ok ()⟩ ∈ h)
      (if running then do
          suppressLookup (perform .terminate lift)
          Co.tryCatch (perform .waitBriefly lift) fun
            | .exception "TimeoutError" _ => do
                suppressLookup (perform .kill lift)
                perform .wait lift
            | error => Co.throw error
        else pure ()) := by
    intro running
    cases running with
    | false => exact undoes_pure fun _ => nofun
    | true =>
        have hboth := undoes_bind (hquiet .terminate lift rfl) (fun _ _ _ _ _ => trivial)
          fun _ => hwaits
        exact hboth.imp fun _ h hdone _ => by
          obtain ⟨_, -, hwaited⟩ := hdone
          exact hwaited
  have hboth := undoes_bind (undoes_ask .running rfl) (fun _ _ _ hmem hsub => hsub hmem)
    hcases
  exact hboth.imp fun _ h hdone => by
    obtain ⟨running, hmem, hwaited⟩ := hdone
    cases running with
    | false => exact .inl hmem
    | true => exact .inr (hwaited rfl)

theorem undoes_release : Undoes (fun _ h => Covered h) release := by
  have hjoins : ∀ pumps : Nat, Undoes (fun _ h => (∀ pump < pumps, ∃ r, ⟨.joinPump pump, r⟩ ∈ h) ∧
      (⟨.sockets, false⟩ ∈ h ∨ ∀ e, ⟨.closeSocket e, ()⟩ ∈ h) ∧
      (⟨.running, false⟩ ∈ h ∨ ⟨.waitBriefly, .ok ()⟩ ∈ h ∨ ⟨.wait, .ok ()⟩ ∈ h)) (do
        cancelPumps (List.range pumps)
        joinPumps (List.range pumps)
        closeSockets
        stop) := by
    intro pumps
    have hend := undoes_bind undoes_closeSockets (fun _ h h' hclosed hsub => ?_) fun _ => undoes_stop
    · have hjoined := undoes_bind (undoes_joinPumps (List.range pumps)) (fun _ h h' hall hsub => ?_)
        fun _ => hend
      · have hall := undoes_bind (undoes_cancelPumps (List.range pumps)) (fun _ _ _ _ _ => trivial)
          fun _ => hjoined
        exact hall.imp fun _ h hdone => by
          obtain ⟨_, -, _, hpumps, _, hsockets, hchild⟩ := hdone
          exact ⟨fun pump hlt => hpumps pump (List.mem_range.mpr hlt), hsockets, hchild⟩
      · intro pump hpump
        obtain ⟨r, hmem⟩ := hall pump hpump
        exact ⟨r, hsub hmem⟩
    · rcases hclosed with hnone | hclosed
      · exact .inl (hsub hnone)
      · exact .inr fun e => hsub (hclosed e)
  have hboth := undoes_bind (undoes_ask .pumps rfl) (fun _ _ _ hmem hsub => hsub hmem) hjoins
  exact hboth.imp fun _ h hdone => by
    obtain ⟨pumps, hmem, hjoined, hsockets, hchild⟩ := hdone
    exact ⟨⟨pumps, hmem, hjoined⟩, hsockets, hchild⟩

theorem undoes_disconnect : Undoes (fun _ _ => True) disconnect := by
  have hcases : ∀ websocket : Bool, Undoes (fun _ _ => True)
      (if websocket then perform .closeWebsocket lift else pure ()) := by
    intro websocket
    cases websocket with
    | false => exact undoes_pure fun _ => trivial
    | true => exact (undoes_perform .closeWebsocket lift rfl).imp fun _ _ _ => trivial
  have hboth := undoes_bind (undoes_ask .websocket rfl) (fun _ _ _ hmem hsub => hsub hmem) hcases
  exact hboth.imp fun _ _ _ => trivial

/-- **A caller of `close`**: it is turned away, or has done everything when
`close` returns. -/
theorem wp_closing {opens : Bool} {h : RelayHistory} (hturned : ¬ TurnedAway h)
    (hfirst : ∀ e ∈ h, e.1 ≠ .enter) :
    Co.wp (RelaySpec opens) closing (fun _ _ h' => ¬ TurnedAway h')
      (fun _ _ h' => ¬ TurnedAway h') () h := by
  have hreturned : ∀ h : RelayHistory, TurnedAway h ∨ Covered h → (RelaySpec opens) .returned
      (fun _ h' => ¬ TurnedAway h') h := by
    intro h hdone
    exact ⟨⟨nofun, nofun, fun _ => hdone, fun _ => rfl⟩, fun r => not_turnedAway r nofun⟩
  unfold closing close
  rw [Co.wp_bind, Co.wp_bind]
  show AtOp opens h .enter ∧ ∀ closed : Bool, _
  refine ⟨⟨nofun, fun _ => hfirst, nofun, fun ht => absurd ht hturned⟩, fun closed => ?_⟩
  cases closed with
  | true =>
      refine hreturned _ (.inl ?_)
      show (h ++ [(⟨.enter, true⟩ : Event RelayAns)]).getLast? = _
      simp
  | false =>
      have hnot : ¬ TurnedAway (h ++ [⟨.enter, false⟩]) := by
        intro hlast
        unfold TurnedAway at hlast
        simp at hlast
      show Co.wp (RelaySpec opens) (Co.tryFinally disconnect release) _ _ () _
      rw [Co.wp_tryFinally]
      -- whether it raises or not, the `finally` block follows
      apply Co.wp_conseq (relaySpec_mono opens) (undoes_disconnect opens _ hnot)
      · intro _ _ h₁ hdone
        apply Co.wp_conseq (relaySpec_mono opens) (undoes_release opens h₁ hdone.1)
        · intro _ _ h₂ hreleased
          exact hreturned h₂ (.inr hreleased.2.2)
        · intro _ _ h₂ hraised
          exact hraised.1
      · intro _ _ h₁ hraised
        apply Co.wp_conseq (relaySpec_mono opens) (undoes_release opens h₁ hraised.1)
        · intro _ _ h₂ hreleased
          exact hreleased.1
        · intro _ _ h₂ hraised
          exact hraised.1

/-- Only parts have been put in so far. -/
def Building (h : RelayHistory) : Prop := ∀ e ∈ h, e.1.builds = true

theorem Building.not_turnedAway {h : RelayHistory} (hb : Building h) : ¬ TurnedAway h := by
  intro hlast
  have hmem := List.mem_of_getLast? hlast
  exact absurd (hb _ hmem) (by decide)

theorem building_ask {op : RelayOp} (hop : op.builds = true) :
    (Co.ask op : Relay (RelayAns op)).Keeps (RelaySpec true) (fun _ h => Building h)
      fun _ _ h => Building h := by
  intro _ h hb
  show AtOp true h op ∧ ∀ r, Building _
  constructor
  · refine ⟨fun _ => ⟨rfl, hb⟩, ?_, ?_, fun ht => absurd ht hb.not_turnedAway⟩
    · rintro rfl
      cases hop
    · rintro rfl
      cases hop
  · intro r e he
    rcases List.mem_append.mp he with he | he
    · exact hb e he
    · obtain rfl := List.mem_singleton.mp he
      exact hop

theorem building_perform {op : RelayOp} {view : RelayAns op → Except PyExc Unit}
    (hop : op.builds = true) : (perform op view).Keeps (RelaySpec true) (fun _ h => Building h)
      fun _ _ h => Building h :=
  (building_ask hop).bind (relaySpec_mono true) fun _ => Co.keeps_ofExcept fun _ _ _ hb => hb

theorem building_build : build.Keeps (RelaySpec true) (fun _ h => Building h)
    fun _ _ h => Building h := by
  have hmono := relaySpec_mono true
  apply (building_perform rfl).bind hmono
  intro _
  apply (building_perform rfl).bind hmono
  intro _
  apply (building_perform rfl).bind hmono
  intro _
  apply (building_perform rfl).bind hmono
  intro _
  apply (building_ask rfl).bind hmono
  intro _
  exact building_perform rfl

/-- **A task on the object**, from its start. -/
theorem wp_program (opens : Bool) :
    Co.wp (RelaySpec opens) (RelayTask.program opens) (fun _ _ h => ¬ TurnedAway h)
      (fun _ _ h => ¬ TurnedAway h) () [] := by
  cases opens with
  | false => exact wp_closing nofun nofun
  | true =>
      show Co.wp _ (Co.tryCatch build _) _ _ () []
      rw [Co.wp_tryCatch]
      apply Co.wp_conseq (relaySpec_mono true) (building_build () [] nofun)
      · intro _ _ h hb
        exact Building.not_turnedAway hb
      · intro error _ h hb
        have hfirst : ∀ e ∈ h, e.1 ≠ .enter := by
          intro e he hent
          have hbuilds := hb e he
          rw [hent] at hbuilds
          cases hbuilds
        rw [Co.wp_bind]
        exact wp_closing (Building.not_turnedAway hb) hfirst

/-! ## §5. What an answer says stays true. -/

/-- What an answer says about the object. -/
def Holds (s : ProxyWebSocket) : Event RelayAns → Prop
  | ⟨.pumps, n⟩ => s.pumps.length = n
  | ⟨.joinPump pump, _⟩ => s.pumps[pump]? ≠ some .live
  | ⟨.sockets, present⟩ => present = s.sockets.isSome
  | ⟨.closeSocket e, _⟩ => s.endpoint e ≠ some .live
  | ⟨.running, false⟩ => s.process ≠ some .live
  | ⟨.waitBriefly, .ok _⟩ => s.process ≠ some .live
  | ⟨.wait, .ok _⟩ => s.process ≠ some .live
  | _ => True

/-- `s'` is `s`, with fewer of its parts alive. -/
structure Wanes (s s' : ProxyWebSocket) : Prop where
  pumps : s'.pumps.length = s.pumps.length
  pump : ∀ n : Nat, s.pumps[n]? ≠ some Life.live → s'.pumps[n]? ≠ some Life.live
  sockets : s'.sockets.isSome = s.sockets.isSome
  endpoint : ∀ e, s.endpoint e ≠ some .live → s'.endpoint e ≠ some .live
  process : s.process ≠ some .live → s'.process ≠ some .live

theorem Wanes.refl (s : ProxyWebSocket) : Wanes s s :=
  ⟨rfl, fun _ h => h, rfl, fun _ h => h, fun h => h⟩

theorem Wanes.holds {s s' : ProxyWebSocket} (h : Wanes s s') {e : Event RelayAns}
    (he : s.Holds e) : s'.Holds e := by
  unfold Holds at he ⊢
  split at he
  · exact h.pumps.trans he
  · exact h.pump _ he
  · exact he.trans h.sockets.symm
  · exact h.endpoint _ he
  · exact h.process he
  · exact h.process he
  · exact h.process he
  · trivial

theorem endpoint_closeEndpoint (s : ProxyWebSocket) (e e' : Bool) :
    (s.closeEndpoint e).endpoint e' = if e = e' then (s.endpoint e').map fun _ => .gone
      else s.endpoint e' := by
  unfold closeEndpoint endpoint
  cases s.sockets <;> cases e <;> cases e' <;> rfl

theorem wanes_closeEndpoint (s : ProxyWebSocket) (e : Bool) : Wanes s (s.closeEndpoint e) := by
  refine ⟨rfl, fun _ h => h, by simp [closeEndpoint], fun e' h => ?_, fun h => h⟩
  rw [endpoint_closeEndpoint]
  by_cases he : e = e'
  · rw [if_pos he]
    cases s.endpoint e' <;> simp
  · rw [if_neg he]
    exact h

/-- An answer says what is so. -/
theorem Answers.holds {s s' : ProxyWebSocket} {op : RelayOp} {r : RelayAns op}
    (h : s.Answers op r s') : s'.Holds ⟨op, r⟩ := by
  cases h with
  | pumps => exact rfl
  | joinPump r hgone => exact hgone
  | sockets => exact rfl
  | closeSocket e =>
      show (s.closeEndpoint e).endpoint e ≠ some .live
      rw [endpoint_closeEndpoint, if_pos rfl]
      cases s.endpoint e <;> simp
  | notRunning hgone => exact hgone
  | waitBriefly hgone => exact hgone
  | wait hgone => exact hgone
  | _ => trivial

/-- What does not build leaves fewer parts alive. -/
theorem Answers.wanes {s s' : ProxyWebSocket} {op : RelayOp} {r : RelayAns op}
    (h : s.Answers op r s') (hop : op.builds = false) : Wanes s s' := by
  cases h with
  | enter => exact ⟨rfl, fun _ h => h, rfl, fun _ h => h, fun h => h⟩
  | closeSocket e => exact wanes_closeEndpoint s e
  | spawn | socketpair | startPumps | connect => cases hop
  | _ => exact .refl s

/-- Building says nothing yet. -/
theorem Building.holds {s : ProxyWebSocket} {h : RelayHistory} (hb : Building h) :
    ∀ e ∈ h, s.Holds e := by
  intro e he
  have hbuilds := hb e he
  obtain ⟨op, r⟩ := e
  cases op <;> trivial

/-- **Covered is released.** -/
theorem Covered.released {s : ProxyWebSocket} {h : RelayHistory} (hc : Covered h)
    (hholds : ∀ e ∈ h, s.Holds e) : s.Released := by
  refine ⟨fun hlive => ?_, fun e => ?_, ?_⟩
  · obtain ⟨n, hn, hjoined⟩ := hc.pumps
    obtain ⟨pump, hpump⟩ := List.mem_iff_getElem?.mp hlive
    have hlength : s.pumps.length = n := hholds _ hn
    have hlt := (List.getElem?_eq_some_iff.mp hpump).1
    obtain ⟨r, hr⟩ := hjoined pump (hlength ▸ hlt)
    exact hholds _ hr hpump
  · rcases hc.sockets with hnone | hclosed
    · have hsome : false = s.sockets.isSome := hholds _ hnone
      have hempty : s.sockets = none := by simpa using hsome.symm
      unfold endpoint
      rw [hempty]
      cases e <;> exact nofun
    · exact hholds _ (hclosed e)
  · rcases hc.child with hnot | hexited | hexited
    · exact hholds _ hnot
    · exact hholds _ hexited
    · exact hholds _ hexited

theorem Wanes.released {s s' : ProxyWebSocket} (h : Wanes s s') (hs : s.Released) :
    s'.Released := by
  refine ⟨fun hlive => ?_, fun e => h.endpoint e (hs.2.1 e), h.process hs.2.2⟩
  obtain ⟨pump, hpump⟩ := List.mem_iff_getElem?.mp hlive
  refine h.pump pump (fun hbefore => ?_) hpump
  exact hs.1 (List.mem_of_getElem? hbefore)

end ProxyWebSocket

/-! ## §6. Every return. -/

namespace Relayed

open ProxyWebSocket

/-- The invariant: the tasks are runs whose answers say what is so, the
object is built before it is shared, and the two records agree. -/
structure Sound (S : Relayed) : Prop where
  runs : ∀ t ∈ S.tasks, Run (RelayTask.program t.opens ()) t.history t.rest
  holds : ∀ t ∈ S.tasks, ∀ e ∈ t.history, S.object.Holds e
  opener : ∀ (i : Nat) (t : RelayTask), S.tasks[i]? = some t → t.opens = true → i = 0
  shared : 1 < S.tasks.length → S.Opened
  /-- `_closed` is set by whoever entered first. -/
  closed : S.object.closed = true → ∃ t ∈ S.tasks, ∃ e ∈ t.history, e.1 = .enter
  returned : ∀ s ∈ S.returned, s ∈ S.turned ∨ s.Released
  turned : ∀ s ∈ S.turned, s ∈ S.returned
  alone : S.tasks.length = 1 → S.turned = []

variable {S S' : Relayed}

theorem sound_init : Sound init := by
  refine ⟨?_, ?_, ?_, ?_, nofun, nofun, nofun, fun _ => rfl⟩
  · intro t ht
    obtain rfl := List.mem_singleton.mp ht
    exact .start
  · intro t ht
    obtain rfl := List.mem_singleton.mp ht
    exact nofun
  · intro i t hi _
    exact Nat.lt_one_iff.mp (List.getElem?_eq_some_iff.mp hi).1
  · intro hlt
    exact absurd hlt (Nat.lt_irrefl 1)

/-- Parts die. -/
theorem Sound.wane (h : Sound S) {object : ProxyWebSocket} (hw : Wanes S.object object)
    (hclosed : object.closed = S.object.closed) : Sound { S with object := object } where
  runs := h.runs
  holds := fun t ht e he => hw.holds (h.holds t ht e he)
  opener := h.opener
  shared := h.shared
  closed := fun hc => h.closed (hclosed ▸ hc)
  returned := h.returned
  turned := h.turned
  alone := h.alone

/-- A new caller. -/
theorem Sound.call (h : Sound S) (hopened : S.Opened) :
    Sound { S with tasks := S.tasks ++ [RelayTask.start false] } := by
  have hlen : 0 < S.tasks.length := by
    obtain ⟨t, ht, -⟩ := hopened
    exact (List.getElem?_eq_some_iff.mp ht).1
  refine ⟨?_, ?_, ?_, fun _ => ?_, fun hc => ?_, h.returned, h.turned, fun hone => ?_⟩
  · intro t ht
    rcases List.mem_append.mp ht with ht | ht
    · exact h.runs t ht
    · obtain rfl := List.mem_singleton.mp ht
      exact .start
  · intro t ht
    rcases List.mem_append.mp ht with ht | ht
    · exact h.holds t ht
    · obtain rfl := List.mem_singleton.mp ht
      exact nofun
  · intro i t hi hopens
    have hi : (S.tasks ++ [RelayTask.start false])[i]? = some t := hi
    rw [List.getElem?_append] at hi
    split at hi
    · exact h.opener i t hi hopens
    · obtain rfl := List.mem_singleton.mp (List.mem_of_getElem? hi)
      cases hopens
  · obtain ⟨t, ht, hret⟩ := hopened
    exact ⟨t, by rw [List.getElem?_append_left hlen]; exact ht, hret⟩
  · obtain ⟨t, ht, hent⟩ := h.closed hc
    exact ⟨t, List.mem_append_left _ ht, hent⟩
  · rw [List.length_append, List.length_singleton] at hone
    omega

/-- A task that stands at a building operation is the only one. -/
theorem Sound.builder (h : Sound S) {i : Nat} {t : RelayTask} {op : RelayOp}
    {k : RelayAns op → Prog RelayOp RelayAns (Except PyExc Unit × Unit)}
    (hi : S.tasks[i]? = some t) (hrest : t.rest = .op op k) (hat : AtOp t.opens t.history op)
    (hop : op.builds = true) : ∀ t' ∈ S.tasks, t' = t := by
  obtain rfl := h.opener i t hi (hat.builds hop).1
  have hlen : ¬ 1 < S.tasks.length := by
    intro hlt
    obtain ⟨t', ht', hret⟩ := h.shared hlt
    obtain rfl := Option.some.inj (hi.symm.trans ht')
    rw [hrest] at hret
    cases hret
  intro t' ht'
  obtain ⟨j, hj⟩ := List.mem_iff_getElem?.mp ht'
  have hlt := (List.getElem?_eq_some_iff.mp hj).1
  obtain rfl : j = 0 := by omega
  exact Option.some.inj (hj.symm.trans hi)

/-- Only the entry of `close` sets the flag. -/
theorem closed_of_answers {s s' : ProxyWebSocket} {op : RelayOp} {r : RelayAns op}
    (h : s.Answers op r s') (hop : op ≠ .enter) : s'.closed = s.closed := by
  cases h with
  | enter => exact absurd rfl hop
  | _ => rfl

/-- Whoever finds the flag set leaves the object as it is. -/
theorem answers_foundClosed {s s' : ProxyWebSocket} {op : RelayOp} {r : RelayAns op}
    (h : s.Answers op r s') (hfound : foundClosed ⟨op, r⟩ = true) :
    op = .enter ∧ s.closed = true ∧ s' = s ∧ ∀ h : RelayHistory, TurnedAway (h ++ [⟨op, r⟩]) := by
  cases h with
  | enter =>
      unfold foundClosed at hfound
      split at hfound
      · rename_i heq
        obtain ⟨-, hclosed⟩ := Sigma.mk.inj heq
        have hclosed : s.closed = true := eq_of_heq hclosed
        refine ⟨rfl, hclosed, ?_, fun h => ?_⟩
        · cases s
          cases hclosed
          rfl
        · unfold TurnedAway
          rw [hclosed]
          simp
      · cases hfound
  | _ => cases hfound

theorem foundClosed_of_turnedAway {h : RelayHistory} {e : Event RelayAns}
    (ht : TurnedAway (h ++ [e])) : foundClosed e = true := by
  unfold TurnedAway at ht
  rw [List.getLast?_append_of_ne_nil _ (by simp)] at ht
  obtain rfl := Option.some.inj ht
  rfl

theorem atOp_of_run {opens : Bool} {h : RelayHistory} {op : RelayOp}
    {q : Prog RelayOp RelayAns (Except PyExc Unit × Unit)}
    (hrun : Run (RelayTask.program opens ()) h q) (hop : q.head? = some op) : AtOp opens h op := by
  have hat := wp_run_head (wp_program opens) hrun hop
  rwa [foldl_remember, List.nil_append] at hat

theorem not_turnedAway_of_run {opens : Bool} {h : RelayHistory} {a : Except PyExc Unit × Unit}
    (hrun : Run (RelayTask.program opens ()) h (.ret a)) : ¬ TurnedAway h := by
  have hend := wp_run_ret (wp_program opens) hrun
  rw [foldl_remember, List.nil_append] at hend
  obtain ⟨e | a, u⟩ := a
  · exact hend
  · exact hend

theorem mem_turned_after {i : Nat} {t : RelayTask} {op : RelayOp} {r : RelayAns op}
    {rest : Prog RelayOp RelayAns (Except PyExc Unit × Unit)} {object s : ProxyWebSocket}
    (hs : s ∈ S.turned) : s ∈ (S.after i t op r rest object).turned := by
  show s ∈ if foundClosed ⟨op, r⟩ then S.turned ++ [S.object] else S.turned
  split
  · exact List.mem_append_left _ hs
  · exact hs

theorem mem_returned_after {i : Nat} {t : RelayTask} {op : RelayOp} {r : RelayAns op}
    {rest : Prog RelayOp RelayAns (Except PyExc Unit × Unit)} {object s : ProxyWebSocket}
    (hs : s ∈ S.returned) : s ∈ (S.after i t op r rest object).returned := by
  unfold after
  dsimp only
  split
  · exact List.mem_append_left _ hs
  · exact hs

/-- **The step lemma.** -/
theorem Sound.act (h : Sound S) {i : Nat} {t : RelayTask} {op : RelayOp}
    {k : RelayAns op → Prog RelayOp RelayAns (Except PyExc Unit × Unit)} {r : RelayAns op}
    {object : ProxyWebSocket} (hi : S.tasks[i]? = some t) (hrest : t.rest = .op op k)
    (hanswer : S.object.Answers op r object) : Sound (S.after i t op r (k r) object) := by
  have ht := List.mem_of_getElem? hi
  have hlt := (List.getElem?_eq_some_iff.mp hi).1
  have hrun := h.runs t ht
  rw [hrest] at hrun
  have hrun' : Run (RelayTask.program t.opens ()) (t.history ++ [⟨op, r⟩]) (k r) := hrun.step r
  have hat : AtOp t.opens t.history op := atOp_of_run hrun rfl
  -- what the answers said of the old object they say of the new one
  have hholds : ∀ t' ∈ S.tasks, ∀ e ∈ t'.history, object.Holds e := by
    intro t' ht' e he
    cases hop : op.builds with
    | true =>
        obtain rfl := h.builder hi hrest hat hop t' ht'
        exact Building.holds (hat.builds hop).2 e he
    | false => exact (hanswer.wanes hop).holds (h.holds t' ht' e he)
  have hholds' : ∀ e ∈ t.history ++ [⟨op, r⟩], object.Holds e := by
    intro e he
    rcases List.mem_append.mp he with he | he
    · exact hholds t ht e he
    · obtain rfl := List.mem_singleton.mp he
      exact hanswer.holds
  -- a caller that was turned away returns at once
  have hreturns : foundClosed ⟨op, r⟩ = true → (k r).head? = some .returned := by
    intro hfound
    have hturned := (answers_foundClosed hanswer hfound).2.2.2 t.history
    cases hk : k r with
    | ret a =>
        rw [hk] at hrun'
        exact absurd hturned (not_turnedAway_of_run hrun')
    | op op' k' =>
        rw [hk] at hrun'
        exact congrArg some ((atOp_of_run hrun' rfl).turned hturned)
  have hmem : ∀ t' ∈ (S.after i t op r (k r) object).tasks,
      t' = { t with history := t.history ++ [⟨op, r⟩], rest := k r } ∨ t' ∈ S.tasks := by
    intro t' ht'
    rcases List.mem_or_eq_of_mem_set ht' with ht' | ht'
    · exact .inr ht'
    · exact .inl ht'
  refine ⟨?_, ?_, ?_, ?_, ?_, ?_, ?_, ?_⟩
  · intro t' ht'
    rcases hmem t' ht' with rfl | ht'
    · exact hrun'
    · exact h.runs t' ht'
  · intro t' ht'
    rcases hmem t' ht' with rfl | ht'
    · exact hholds'
    · exact hholds t' ht'
  · intro j t' hj hopens
    have hj : (S.tasks.set i _)[j]? = some t' := hj
    rw [List.getElem?_set] at hj
    split at hj
    · rename_i hij
      cases hj
      exact hij ▸ h.opener i t hi hopens
    · exact h.opener j t' hj hopens
  · intro hshared
    have hshared : 1 < (S.tasks.set i _).length := hshared
    rw [List.length_set] at hshared
    obtain ⟨t', ht', hret⟩ := h.shared hshared
    have hne : i ≠ 0 := by
      rintro rfl
      obtain rfl := Option.some.inj (hi.symm.trans ht')
      rw [hrest] at hret
      cases hret
    refine ⟨t', ?_, hret⟩
    show (S.tasks.set i _)[0]? = some t'
    rw [List.getElem?_set_ne hne]
    exact ht'
  · intro hclosed
    by_cases hop : op = .enter
    · exact ⟨_, List.mem_set hlt _, ⟨op, r⟩, List.mem_append_right _ (by simp), hop⟩
    · have hclosed : object.closed = true := hclosed
      rw [closed_of_answers hanswer hop] at hclosed
      obtain ⟨t', ht', e, he, hent⟩ := h.closed hclosed
      obtain ⟨j, hj⟩ := List.mem_iff_getElem?.mp ht'
      by_cases hij : i = j
      · subst hij
        obtain rfl := Option.some.inj (hi.symm.trans hj)
        exact ⟨_, List.mem_set hlt _, e, List.mem_append_left _ he, hent⟩
      · refine ⟨t', List.mem_iff_getElem?.mpr ⟨j, ?_⟩, e, he, hent⟩
        show (S.tasks.set i _)[j]? = some t'
        rw [List.getElem?_set_ne hij]
        exact hj
  · -- a caller returns here: it was turned away, or it has done everything
    have hkeeps : ∀ s ∈ S.returned, s ∈ (S.after i t op r (k r) object).turned ∨ s.Released := by
      intro s hs
      rcases h.returned s hs with hs | hs
      · exact .inl (mem_turned_after hs)
      · exact .inr hs
    intro s hs
    unfold after at hs
    dsimp only at hs
    split at hs
    · rename_i hhead
      rcases List.mem_append.mp hs with hs | hs
      · exact hkeeps s hs
      · obtain rfl := List.mem_singleton.mp hs
        rcases (atOp_of_run hrun' hhead).returned rfl with hturned | hcovered
        · have hfound := foundClosed_of_turnedAway hturned
          rw [(answers_foundClosed hanswer hfound).2.2.1]
          left
          show S.object ∈ if foundClosed ⟨op, r⟩ then S.turned ++ [S.object] else S.turned
          rw [if_pos hfound]
          simp
        · exact .inr (hcovered.released hholds')
    · exact hkeeps s hs
  · intro s hs
    have hs : s ∈ if foundClosed ⟨op, r⟩ then S.turned ++ [S.object] else S.turned := hs
    by_cases hfound : foundClosed ⟨op, r⟩ = true
    · rw [if_pos hfound] at hs
      show s ∈ (S.after i t op r (k r) object).returned
      unfold after
      rw [hreturns hfound]
      show s ∈ S.returned ++ [object]
      rw [(answers_foundClosed hanswer hfound).2.2.1]
      rcases List.mem_append.mp hs with hs | hs
      · exact List.mem_append_left _ (h.turned s hs)
      · exact List.mem_append_right _ hs
    · rw [if_neg hfound] at hs
      exact mem_returned_after (h.turned s hs)
  · intro hone
    have hone : (S.tasks.set i _).length = 1 := hone
    rw [List.length_set] at hone
    show (if foundClosed ⟨op, r⟩ then S.turned ++ [S.object] else S.turned) = []
    rw [h.alone hone, if_neg]
    intro hfound
    obtain ⟨hop, hclosed, -⟩ := answers_foundClosed hanswer hfound
    obtain ⟨t', ht', e, he, hent⟩ := h.closed hclosed
    obtain ⟨t₀, ht₀⟩ := List.length_eq_one_iff.mp hone
    rw [ht₀] at ht ht'
    obtain rfl := List.mem_singleton.mp ht
    obtain rfl := List.mem_singleton.mp ht'
    exact hat.enter hop e he hent

/-- One step keeps the invariant. -/
theorem Sound.step (h : Sound S) (hstep : S.Step S') : Sound S' := by
  cases hstep with
  | call hopened => exact h.call hopened
  | act hi hrest hanswer => exact h.act hi hrest hanswer
  | pumpEnds pump =>
      refine h.wane ⟨List.length_set, fun n hn => ?_, rfl, fun _ hs => hs, fun hs => hs⟩ rfl
      show (S.object.pumps.set pump .gone)[n]? ≠ some .live
      rw [List.getElem?_set]
      split
      · split <;> simp
      · exact hn
  | childExits _ => exact h.wane ⟨rfl, fun _ hs => hs, rfl, fun _ hs => hs, fun _ => nofun⟩ rfl
  | socketCloses e => exact h.wane (wanes_closeEndpoint S.object e) rfl

/-- **The run lemma.** -/
theorem sound (h : Reach S) : Sound S := by
  induction h with
  | init => exact sound_init
  | step _ hstep ih => exact ih.step hstep

end Relayed

/-- **`close` releases everything, except for callers that come too early**:
every return finds everything released exactly when every caller that finds
`_closed` set does.  Nobody finds it set while only `open` has the object, nor
finds anything alive once a caller has done its work. -/
theorem ProxyWebSocket.close_releases_iff {S : Relayed} (h : Relayed.Reach S) :
    ((∀ object ∈ S.returned, object.Released) ↔ ∀ object ∈ S.turned, object.Released) ∧
    (S.tasks.length = 1 → S.turned = []) ∧
    ∀ t ∈ S.tasks, Covered t.history → S.object.Released := by
  have hsound := Relayed.sound h
  refine ⟨⟨fun hall object hturned => ?_, fun hall object hreturned => ?_⟩, hsound.alone, ?_⟩
  · exact hall object (hsound.turned object hturned)
  · rcases hsound.returned object hreturned with hturned | hreleased
    · exact hall object hturned
    · exact hreleased
  · intro t ht hcovered
    exact hcovered.released (hsound.holds t ht)

/-- `open` is cancelled in the handshake, and takes everything down again. -/
theorem ProxyWebSocket.close_releases_cancelled_open :
    ∃ S, Relayed.Reach S ∧ S.returned ≠ [] ∧ ∀ object ∈ S.returned, object.Released := by
  have hspawned := Relayed.Reach.init.step (.act (i := 0) rfl rfl .spawn)
  have hbuilt := ((((hspawned.step (.act (i := 0) rfl rfl .socketpair)).step
    (.act (i := 0) rfl rfl (.setNonBlocking false (.ok ())))).step
    (.act (i := 0) rfl rfl (.setNonBlocking true (.ok ())))).step
    (.act (i := 0) rfl rfl .startPumps))
  have hcancelled := hbuilt.step (.act (i := 0) rfl rfl (.connectFails .cancelled))
  have hentered := ((hcancelled.step (.act (i := 0) rfl rfl .enter)).step
    (.act (i := 0) rfl rfl .websocket)).step (.act (i := 0) rfl rfl .pumps)
  have hasked := (hentered.step (.act (i := 0) rfl rfl (.cancelPump 0))).step
    (.act (i := 0) rfl rfl (.cancelPump 1))
  have hended := (hasked.step (.pumpEnds 0)).step (.pumpEnds 1)
  have hjoined := (hended.step (.act (i := 0) rfl rfl (.joinPump (.error .cancelled) nofun))).step
    (.act (i := 0) rfl rfl (.joinPump (.error .cancelled) nofun))
  have hclosed := ((hjoined.step (.act (i := 0) rfl rfl .sockets)).step
    (.act (i := 0) rfl rfl (.closeSocket false))).step
    (.act (i := 0) rfl rfl (.closeSocket true))
  have hterminated := ((hclosed.step (.act (i := 0) rfl rfl (.running nofun))).step
    (.act (i := 0) rfl rfl (.terminate (.ok ())))).step (.childExits rfl)
  have hdone := hterminated.step (.act (i := 0) rfl rfl (.waitBriefly nofun))
  obtain ⟨hiff, halone, -⟩ := ProxyWebSocket.close_releases_iff hdone
  refine ⟨_, hdone, by exact nofun, hiff.mpr ?_⟩
  rw [halone rfl]
  exact nofun

/-- A second caller returns while the first is still closing the websocket. -/
theorem ProxyWebSocket.close_releases_too_early :
    ∃ S, Relayed.Reach S ∧ ∃ object ∈ S.returned, ¬ object.Released := by
  have hspawned := Relayed.Reach.init.step (.act (i := 0) rfl rfl .spawn)
  have hbuilt := ((((hspawned.step (.act (i := 0) rfl rfl .socketpair)).step
    (.act (i := 0) rfl rfl (.setNonBlocking false (.ok ())))).step
    (.act (i := 0) rfl rfl (.setNonBlocking true (.ok ())))).step
    (.act (i := 0) rfl rfl .startPumps))
  have hopened := hbuilt.step (.act (i := 0) rfl rfl .connect)
  have hfirst := ((hopened.step (.call ⟨_, rfl, rfl⟩)).step (.act (i := 1) rfl rfl .enter)).step
    (.act (i := 1) rfl rfl .websocket)
  have hsecond := (hfirst.step (.call ⟨_, rfl, rfl⟩)).step (.act (i := 2) rfl rfl .enter)
  exact ⟨_, hsecond, _, List.mem_singleton_self _, fun hreleased => hreleased.2.2 rfl⟩

end CodexRemoteBridge
