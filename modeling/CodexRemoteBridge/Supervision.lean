/-
  CodexRemoteBridge.Supervision — the launcher while its child runs.

  `main` spawns the child and waits until it errs or exits; meanwhile every
  SIGINT, SIGTERM and SIGHUP is passed on to it.  The events come in any
  order, and the system may refuse whatever a listener asks of it.

  Main result: `Supervisor.supervises`.
-/
import CodexRemoteBridge.Launcher

namespace CodexRemoteBridge.Launcher

/-! ## §1. `terminateChild`. -/

inductive Signal where
  | sigint
  | sigterm
  | sighup
  /-- Any other signal, by its name. -/
  | other (name : String)
  deriving DecidableEq

/-- The keys of `handlers`. -/
def Signal.handled : List Signal := [.sigint, .sigterm, .sighup]

/-- What `main` reads of a child; `none` is `undefined` for the first field,
`null` for the other two. -/
structure ChildProcess where
  pid : Option Nat
  exitCode : Option Nat
  signalCode : Option Signal
  deriving DecidableEq

/-- What a listener asks of the system. -/
inductive Order where
  /-- `child.kill(signal)`. -/
  | kill (signal : Signal)
  | spawn (command : String) (args : List String)
  deriving DecidableEq

/-- `terminateChild`, as what it asks for; on Windows killing only uv can
leave its Python child running. -/
def terminateChild (child : ChildProcess) (signal : Signal) (platform : String) : Option Order :=
  if child.pid.getD 0 = 0 ∨ child.exitCode ≠ none ∨ child.signalCode ≠ none then none
  else if platform ≠ "win32" then some (.kill signal)
  else some (.spawn "taskkill.exe" ["/PID", toString (child.pid.getD 0), "/T", "/F"])

/-- `killer` in `terminateChild`: the signal it stands for, whether its
listener for `error` is there, and whether it has exited. -/
structure Killer where
  signal : Signal
  onceError : Bool
  exited : Bool
  deriving DecidableEq

/-- The listener for `exit`. -/
def Killer.onExit (k : Killer) (code : Option Nat) : Option Order :=
  if code ≠ some 0 then some (.kill k.signal) else none

/-! ## §2. The events. -/

/-- How a process ends: one of `code` and `signal` is not null. -/
inductive ExitStatus where
  | exited (code : Nat)
  | signaled (signal : Signal)
  deriving DecidableEq

def ExitStatus.code : ExitStatus → Option Nat
  | .exited code => some code
  | .signaled _ => none

def ExitStatus.signal : ExitStatus → Option Signal
  | .exited _ => none
  | .signaled signal => some signal

/-- `{ SIGINT: 130, SIGTERM: 143, SIGHUP: 129 }`. -/
def signalExitCodes : List (Signal × Nat) := [(.sigint, 130), (.sigterm, 143), (.sighup, 129)]

/-- `code ?? ({ ... }[signal] || 1)`. -/
def processExitCode (code : Option Nat) (signal : Option Signal) : Nat :=
  code.getD ((signal.bind fun signal => signalExitCodes.lookup signal).getD 1)

/-- What comes of an order: the system complies, the child emits `error`, or
the call throws. -/
inductive Compliance where
  | done
  | emits (error : JsError)
  | throws (error : JsError)
  deriving DecidableEq

/-- What happens to the launcher; `answer` is what comes of the order that
its listener gives. -/
inductive Occurrence where
  | signal (signal : Signal) (answer : Compliance)
  | childError (error : JsError)
  | childExit (status : ExitStatus)
  | killerError (i : Nat) (error : JsError) (answer : Compliance)
  | killerExit (i : Nat) (code : Option Nat) (answer : Compliance)
  deriving DecidableEq

/-- What ends the process before its time. -/
inductive Death where
  | uncaught (error : JsError)
  | signaled (signal : Signal)
  deriving DecidableEq

/-- `main`, from `spawn` on. -/
structure Supervisor where
  platform : String
  child : ChildProcess
  /-- `child.once('error', reject)` has not fired. -/
  onceError : Bool
  /-- The promise. -/
  awaited : Option (Except JsError Unit)
  /-- How `main` has settled. -/
  main : Option (Except JsError Unit)
  /-- The listeners for SIGINT, SIGTERM and SIGHUP are there. -/
  handlers : Bool
  killers : List Killer
  /-- `process.exitCode`. -/
  exitCode : Option Nat
  stderr : List String
  orders : List Order
  died : Option Death

namespace Supervisor

/-- The child has been spawned; `pid` is undefined where that has failed. -/
def start (platform : String) (pid : Option Nat) : Supervisor where
  platform := platform
  child := ⟨pid, none, none⟩
  onceError := true
  awaited := none
  main := none
  handlers := true
  killers := []
  exitCode := none
  stderr := []
  orders := []
  died := none

/-- A promise settles once. -/
def settle (s : Supervisor) (r : Except JsError Unit) : Supervisor :=
  { s with awaited := some (s.awaited.getD r) }

def die (s : Supervisor) (death : Death) : Supervisor := { s with died := some death }

/-- `error` from the child; where nobody listens for it, it is thrown. -/
def childErrs (s : Supervisor) (error : JsError) : Supervisor :=
  if s.onceError then { s.settle (.error error) with onceError := false }
  else s.die (.uncaught error)

/-- `exit` from the child. -/
def childExits (s : Supervisor) (status : ExitStatus) : Supervisor :=
  { s.settle (.ok ()) with
    child := { s.child with exitCode := status.code, signalCode := status.signal }
    exitCode := some (processExitCode status.code status.signal) }

def ordered (s : Supervisor) (order : Order) : Supervisor :=
  { s with orders := s.orders ++ [order] }

/-- A listener gives an order, if any, on behalf of `signal`. -/
def give (s : Supervisor) (signal : Signal) : Option Order → Compliance → Option Supervisor
  | none, .done => some s
  | none, _ => none
  | some order, .throws error => some ((s.ordered order).die (.uncaught error))
  | some (.kill sent), .done => some (s.ordered (.kill sent))
  | some (.kill sent), .emits error => some ((s.ordered (.kill sent)).childErrs error)
  | some (.spawn command args), .done =>
      some { s.ordered (.spawn command args) with killers := s.killers ++ [⟨signal, true, false⟩] }
  -- a process that cannot be started errs in an event of its own
  | some (.spawn _ _), .emits _ => none

/-- The listener of a killer for `error` has fired. -/
def errKiller (s : Supervisor) (i : Nat) (k : Killer) : Supervisor :=
  { s with killers := s.killers.set i { k with onceError := false } }

/-- A killer has exited. -/
def exitKiller (s : Supervisor) (i : Nat) (k : Killer) : Supervisor :=
  { s with killers := s.killers.set i { k with exited := true } }

/-- The listeners that an event reaches; without one a signal ends the
process, and so does an `error`. -/
def react (s : Supervisor) : Occurrence → Option Supervisor
  | .signal signal answer =>
      if signal ∉ Signal.handled then none
      else if s.handlers then s.give signal (terminateChild s.child signal s.platform) answer
      else some (s.die (.signaled signal))
  | .childError error => some (s.childErrs error)
  | .childExit status =>
      -- Node emits `exit` once
      if s.child.exitCode ≠ none ∨ s.child.signalCode ≠ none then none
      else some (s.childExits status)
  | .killerError i error answer =>
      s.killers[i]?.bind fun k =>
        if k.onceError then (s.errKiller i k).give k.signal (some (.kill k.signal)) answer
        else some (s.die (.uncaught error))
  | .killerExit i code answer =>
      s.killers[i]?.bind fun k =>
        if k.exited then none
        else (s.exitKiller i k).give k.signal (k.onExit code) answer

/-- Before the next event: the `finally` of `main`, and the `catch` behind it. -/
def proceed (s : Supervisor) : Supervisor :=
  match s.main, s.awaited with
  | none, some (.ok ()) => { s with main := some (.ok ()), handlers := false }
  | none, some (.error error) =>
      { s with
        main := some (.error error)
        handlers := false
        stderr := s.stderr ++ ["codex-remote-bridge: " ++ error.message ++ "\n"]
        exitCode := some 1 }
  | _, _ => s

/-- One event, while the process lives. -/
def step (s : Supervisor) (e : Occurrence) : Option Supervisor :=
  if s.died = none then (s.react e).map proceed else none

/-- **The events, one after another.** -/
def run (s : Supervisor) : List Occurrence → Option Supervisor
  | [] => some s
  | e :: es => (s.step e).bind fun s' => s'.run es

end Supervisor

/-! ## §3. What a history says. -/

namespace Occurrence

def received : Occurrence → Option Signal
  | .signal sent _ => some sent
  | _ => none

def exit : Occurrence → Option ExitStatus
  | .childExit status => some status
  | _ => none

/-- `error` from the child. -/
def childFailure : Occurrence → Option JsError
  | .signal _ (.emits error) => some error
  | .childError error => some error
  | .killerError _ _ (.emits error) => some error
  | .killerExit _ _ (.emits error) => some error
  | _ => none

/-- What settles the promise. -/
def settles (e : Occurrence) : Option (Except JsError Unit) :=
  if e.exit.isSome then some (.ok ()) else e.childFailure.map .error

/-- A call that throws. -/
def thrown : Occurrence → Option JsError
  | .signal _ (.throws error) => some error
  | .killerError _ _ (.throws error) => some error
  | .killerExit _ _ (.throws error) => some error
  | _ => none

/-- The killer that the event is about. -/
def killer : Occurrence → Option Nat
  | .killerError i _ _ => some i
  | .killerExit i _ _ => some i
  | _ => none

/-- What an event is answered by: a signal by `terminateChild` for a child
that runs, the failure of a `taskkill` by the signal it stood for. -/
def response (platform : String) (pid : Option Nat) (signals : List Signal) :
    Occurrence → Option Order
  | .signal sent _ => terminateChild ⟨pid, none, none⟩ sent platform
  | .killerError i _ _ => signals[i]?.map .kill
  | .killerExit i code _ => if code = some 0 then none else signals[i]?.map .kill
  | _ => none

end Occurrence

/-- The signals that the launcher has had. -/
def signals (es : List Occurrence) : List Signal := es.filterMap Occurrence.received

/-- How the child has ended. -/
def exitStatus (es : List Occurrence) : Option ExitStatus := es.findSome? Occurrence.exit

/-- How the promise has settled. -/
def settlement (es : List Occurrence) : Option (Except JsError Unit) :=
  es.findSome? Occurrence.settles

/-- What `process.exitCode` is to be: the child's, or 1 for an error. -/
def exitCodeAfter (es : List Occurrence) : Option Nat :=
  ((exitStatus es).map fun status => processExitCode status.code status.signal).or
    (match settlement es with
    | some (.error _) => some 1
    | _ => none)

/-- What is on stderr. -/
def stderrAfter (es : List Occurrence) : List String :=
  match settlement es with
  | some (.error error) => ["codex-remote-bridge: " ++ error.message ++ "\n"]
  | _ => []

/-- What the launcher has asked of the system. -/
def responses (platform : String) (pid : Option Nat) (es : List Occurrence) : List Order :=
  es.filterMap (Occurrence.response platform pid (signals es))

/-- A last event that nobody catches: a call that throws, or an `error`
where there has been one before. -/
def Crashes (es : List Occurrence) (e : Occurrence) (error : JsError) : Prop :=
  e.thrown = some error ∨
  (e.childFailure = some error ∧ ∃ e' ∈ es, e'.childFailure.isSome = true) ∨
  ∃ i answer error' answer',
    e = .killerError i error answer ∧ .killerError i error' answer' ∈ es

section Histories

variable (es : List Occurrence) (e : Occurrence)

@[simp] theorem signals_append :
    signals (es ++ [e]) = signals es ++ e.received.toList := by
  unfold signals
  rw [List.filterMap_append]
  cases h : e.received with
  | none => simp [h]
  | some signal => simp [h]

@[simp] theorem exitStatus_append :
    exitStatus (es ++ [e]) = (exitStatus es).or e.exit := by
  unfold exitStatus
  rw [List.findSome?_append]
  simp

@[simp] theorem settlement_append :
    settlement (es ++ [e]) = (settlement es).or e.settles := by
  unfold settlement
  rw [List.findSome?_append]
  simp

/-- A killer stands for a signal that has been had. -/
theorem responses_append (platform : String) (pid : Option Nat)
    (hkillers : ∀ e' ∈ es, ∀ i, e'.killer = some i → i < (signals es).length) :
    responses platform pid (es ++ [e])
      = responses platform pid es
        ++ (e.response platform pid (signals (es ++ [e]))).toList := by
  have hsame : ∀ e' ∈ es, e'.response platform pid (signals (es ++ [e]))
      = e'.response platform pid (signals es) := by
    intro e' he'
    have hlt := hkillers e' he'
    rw [signals_append]
    cases e' with
    | killerError i error answer =>
        simp only [Occurrence.response, List.getElem?_append_left (hlt i rfl)]
    | killerExit i code answer =>
        simp only [Occurrence.response, List.getElem?_append_left (hlt i rfl)]
    | _ => rfl
  unfold responses
  rw [List.filterMap_append, List.filterMap_congr hsame]
  congr 1

end Histories

/-! ## §4. What one event does. -/

/-- What the launcher reads of the child. -/
def childAfter (pid : Option Nat) (es : List Occurrence) : ChildProcess :=
  ⟨pid, (exitStatus es).bind ExitStatus.code, (exitStatus es).bind ExitStatus.signal⟩

/-- The first `error` of the child. -/
def failureAfter (es : List Occurrence) : Option JsError :=
  es.findSome? Occurrence.childFailure

@[simp] theorem failureAfter_append (es : List Occurrence) (e : Occurrence) :
    failureAfter (es ++ [e]) = (failureAfter es).or e.childFailure := by
  unfold failureAfter
  rw [List.findSome?_append]
  simp

theorem exitStatus_of_settlement {es : List Occurrence} (h : settlement es = none) :
    exitStatus es = none := by
  unfold settlement at h
  unfold exitStatus
  rw [List.findSome?_eq_none_iff] at h ⊢
  intro e he
  have hnone := h e he
  unfold Occurrence.settles at hnone
  by_cases hexit : e.exit.isSome = true
  · rw [if_pos hexit] at hnone
    cases hnone
  · simpa using hexit

theorem exitStatus_of_childAfter {pid : Option Nat} {es : List Occurrence}
    (hcode : (childAfter pid es).exitCode = none)
    (hsignal : (childAfter pid es).signalCode = none) : exitStatus es = none := by
  cases h : exitStatus es with
  | none => rfl
  | some status =>
      simp only [childAfter, h] at hcode hsignal
      cases status with
      | exited code => cases hcode
      | signaled signal => cases hsignal

/-- The child is tended by `taskkill`. -/
def KillsTree (platform : String) (pid : Option Nat) : Prop :=
  platform = "win32" ∧ pid.getD 0 ≠ 0

instance (platform : String) (pid : Option Nat) : Decidable (KillsTree platform pid) :=
  inferInstanceAs (Decidable (_ ∧ _))

/-- What the listeners leave behind after `es`. -/
structure Told (platform : String) (pid : Option Nat) (es : List Occurrence) (s : Supervisor) :
    Prop where
  machine : s.platform = platform
  child : s.child = childAfter pid es
  onceError : s.onceError = (failureAfter es).isNone
  awaited : s.awaited = settlement es
  orders : s.orders = responses platform pid es
  known : ∀ e ∈ es, ∀ i, e.killer = some i → i < (signals es).length

/-- The killers after `es`. -/
structure Tended (platform : String) (pid : Option Nat) (es : List Occurrence)
    (killers : List Killer) : Prop where
  standFor : killers.map Killer.signal = if KillsTree platform pid then signals es else []
  heard : ∀ (i : Nat) (k : Killer), killers[i]? = some k → k.onceError = false →
    ∃ error answer, .killerError i error answer ∈ es

/-- `main` after `es`. -/
structure Settled (es : List Occurrence) (s : Supervisor) : Prop where
  main : s.main = settlement es
  handlers : s.handlers = (settlement es).isNone
  exitCode : s.exitCode = exitCodeAfter es
  stderr : s.stderr = stderrAfter es

/-- **The invariant** of a launcher that lives. -/
structure Supervised (platform : String) (pid : Option Nat) (es : List Occurrence)
    (s : Supervisor) : Prop where
  told : Told platform pid es s
  tended : Tended platform pid es s.killers
  settled : Settled es s
  alive : s.died = none

def Compliance.emitted : Compliance → Option JsError
  | .emits error => some error
  | _ => none

/-- The killer that an order makes. -/
def Killer.madeBy (signal : Signal) : Option Order → List Killer
  | some (.spawn _ _) => [⟨signal, true, false⟩]
  | _ => []

/-- An order given, as the launcher survives it. -/
inductive Given (s : Supervisor) (signal : Signal) :
    Option Order → Compliance → Supervisor → Prop
  | nothing : Given s signal none .done s
  | killed (sent : Signal) : Given s signal (some (.kill sent)) .done (s.ordered (.kill sent))
  | refused (sent : Signal) (error : JsError) :
      s.onceError = true →
      Given s signal (some (.kill sent)) (.emits error)
        { (s.ordered (.kill sent)).settle (.error error) with onceError := false }
  | spawned (command : String) (args : List String) :
      Given s signal (some (.spawn command args)) .done
        { s.ordered (.spawn command args) with killers := s.killers ++ [⟨signal, true, false⟩] }

/-- Whether the launcher survives the order, and what it dies of. -/
theorem Supervisor.give_cases {s s' : Supervisor} {signal : Signal} {order : Option Order}
    {answer : Compliance} (h : s.give signal order answer = some s') :
    Given s signal order answer s' ∨
    (∃ error, s'.died = some (.uncaught error) ∧
      (answer = .throws error ∨ answer = .emits error ∧ s.onceError = false)) := by
  unfold Supervisor.give at h
  split at h
  · obtain rfl := Option.some.inj h
    exact .inl .nothing
  · cases h
  · rename_i order error
    obtain rfl := Option.some.inj h
    exact .inr ⟨error, rfl, .inl rfl⟩
  · rename_i sent
    obtain rfl := Option.some.inj h
    exact .inl (.killed sent)
  · rename_i sent error
    obtain rfl := Option.some.inj h
    unfold Supervisor.childErrs
    by_cases honce : s.onceError = true
    · rw [if_pos (show (s.ordered (.kill sent)).onceError = true from honce)]
      exact .inl (.refused sent error honce)
    · rw [if_neg (show ¬ (s.ordered (.kill sent)).onceError = true from honce)]
      exact .inr ⟨error, rfl, .inr ⟨rfl, by simpa using honce⟩⟩
  · rename_i command args
    obtain rfl := Option.some.inj h
    exact .inl (.spawned command args)
  · cases h

section Listeners

variable {platform : String} {pid : Option Nat} {es : List Occurrence} {e : Occurrence}
  {s s' : Supervisor} {signal : Signal} {order : Option Order} {answer : Compliance}

theorem settles_of_exit {status : ExitStatus} (h : e.exit = some status) :
    e.settles = some (.ok ()) := by
  unfold Occurrence.settles
  rw [h]
  rfl

theorem settles_of_none (h : e.exit = none) : e.settles = e.childFailure.map .error := by
  unfold Occurrence.settles
  rw [h]
  rfl

theorem childAfter_of_none (h : e.exit = none) :
    childAfter pid (es ++ [e]) = childAfter pid es := by
  unfold childAfter
  rw [exitStatus_append, h, Option.or_none]

theorem Given.killers (h : Given s signal order answer s') :
    s'.killers = s.killers ++ Killer.madeBy signal order := by
  cases h with
  | nothing => exact (List.append_nil _).symm
  | killed sent => exact (List.append_nil _).symm
  | refused sent error honce => exact (List.append_nil _).symm
  | spawned command args => rfl

theorem Given.main (h : Given s signal order answer s') :
    s'.main = s.main ∧ s'.handlers = s.handlers ∧ s'.exitCode = s.exitCode ∧
      s'.stderr = s.stderr ∧ s'.died = s.died := by
  cases h with
  | nothing => exact ⟨rfl, rfl, rfl, rfl, rfl⟩
  | killed sent => exact ⟨rfl, rfl, rfl, rfl, rfl⟩
  | refused sent error honce => exact ⟨rfl, rfl, rfl, rfl, rfl⟩
  | spawned command args => exact ⟨rfl, rfl, rfl, rfl, rfl⟩

theorem Told.known_append (h : Told platform pid es s)
    (hkiller : ∀ i, e.killer = some i → i < (signals es).length) :
    ∀ e' ∈ es ++ [e], ∀ i, e'.killer = some i → i < (signals (es ++ [e])).length := by
  intro e' he' i hi
  have hlt : i < (signals es).length := by
    rcases List.mem_append.mp he' with he' | he'
    · exact h.known e' he' i hi
    · obtain rfl := List.mem_singleton.mp he'
      exact hkiller i hi
  rw [signals_append, List.length_append]
  omega

/-- The killers are no part of it. -/
theorem Told.rekill (h : Told platform pid es s) (killers : List Killer) :
    Told platform pid es { s with killers := killers } :=
  ⟨h.machine, h.child, h.onceError, h.awaited, h.orders, h.known⟩

/-- An event that is not answered. -/
theorem Told.responses_silent (h : Told platform pid es s)
    (hnone : e.response platform pid (signals (es ++ [e])) = none) :
    responses platform pid (es ++ [e]) = s.orders := by
  rw [responses_append es e platform pid h.known, hnone, h.orders]
  exact List.append_nil _

/-- The child errs, the listener for it being there or not. -/
theorem Told.failed {error : JsError} (h : Told platform pid es s)
    (hfailure : e.childFailure = some error) (hexit : e.exit = none) :
    (failureAfter (es ++ [e])).isNone = false ∧
    settlement (es ++ [e]) = some (s.awaited.getD (.error error)) := by
  constructor
  · rw [failureAfter_append, hfailure, Option.or_some]
    rfl
  · rw [settlement_append, settles_of_none hexit, hfailure, h.awaited]
    exact Option.or_some

/-- The child does neither. -/
theorem Told.calm (h : Told platform pid es s)
    (hfailure : e.childFailure = none) (hexit : e.exit = none) :
    (failureAfter (es ++ [e])).isNone = s.onceError ∧ settlement (es ++ [e]) = s.awaited := by
  constructor
  · rw [failureAfter_append, hfailure, Option.or_none, h.onceError]
  · rw [settlement_append, settles_of_none hexit, hfailure, h.awaited]
    exact Option.or_none

/-- A listener that gives an order. -/
theorem Told.give (h : Told platform pid es s) (hgiven : Given s signal order answer s')
    (hexit : e.exit = none) (hfailure : e.childFailure = answer.emitted)
    (hkiller : ∀ i, e.killer = some i → i < (signals es).length)
    (hresponse : e.response platform pid (signals (es ++ [e])) = order) :
    Told platform pid (es ++ [e]) s' := by
  have hchild : s.child = childAfter pid (es ++ [e]) := by
    rw [childAfter_of_none hexit, h.child]
  have horders : s.orders ++ order.toList = responses platform pid (es ++ [e]) := by
    rw [responses_append es e platform pid h.known, hresponse, h.orders]
  have hknown := h.known_append hkiller
  cases hgiven with
  | nothing =>
      obtain ⟨honce, hawaited⟩ := h.calm hfailure hexit
      refine ⟨h.machine, hchild, honce.symm, hawaited.symm, ?_, hknown⟩
      rw [← horders]
      exact (List.append_nil _).symm
  | killed sent =>
      obtain ⟨honce, hawaited⟩ := h.calm hfailure hexit
      exact ⟨h.machine, hchild, honce.symm, hawaited.symm, horders, hknown⟩
  | refused sent error _ =>
      obtain ⟨honce, hawaited⟩ := h.failed hfailure hexit
      exact ⟨h.machine, hchild, honce.symm, hawaited.symm, horders, hknown⟩
  | spawned command args =>
      obtain ⟨honce, hawaited⟩ := h.calm hfailure hexit
      exact ⟨h.machine, hchild, honce.symm, hawaited.symm, horders, hknown⟩

/-! ## §5. One event. -/

/-- What is left of an event that the launcher survives, before `proceed`. -/
structure Survived (platform : String) (pid : Option Nat) (es : List Occurrence) (e : Occurrence)
    (s s' : Supervisor) : Prop where
  told : Told platform pid (es ++ [e]) s'
  tended : Tended platform pid (es ++ [e]) s'.killers
  main : s'.main = s.main
  handlers : s'.handlers = s.handlers
  stderr : s'.stderr = s.stderr
  exitCode : s'.exitCode
    = (e.exit.map fun status => processExitCode status.code status.signal).or s.exitCode
  once : e.exit.isSome = true → exitStatus es = none
  alive : s'.died = none

/-- How an event may go. -/
inductive Outcome (platform : String) (pid : Option Nat) (es : List Occurrence) (e : Occurrence)
    (s s' : Supervisor) : Prop
  | survived : Survived platform pid es e s s' → Outcome platform pid es e s s'
  | crashed (error : JsError) :
      s'.died = some (.uncaught error) → Crashes es e error → Outcome platform pid es e s s'
  | signaled (sent : Signal) (answer : Compliance) :
      e = .signal sent answer → (settlement es).isSome = true →
      s'.died = some (.signaled sent) → Outcome platform pid es e s s'

theorem Tended.append {killers : List Killer} (h : Tended platform pid es killers)
    (hreceived : e.received = none) : Tended platform pid (es ++ [e]) killers where
  standFor := by
    rw [signals_append, hreceived, h.standFor]
    show _ = if _ then signals es ++ [] else []
    rw [List.append_nil]
  heard := by
    intro i k hk hfired
    obtain ⟨error, answer, hmem⟩ := h.heard i k hk hfired
    exact ⟨error, answer, List.mem_append_left _ hmem⟩

/-- A killer and the signal it stands for. -/
theorem Tended.signal_of_get {killers : List Killer} {i : Nat} {k : Killer}
    (h : Tended platform pid es killers) (hk : killers[i]? = some k) :
    (signals es)[i]? = some k.signal := by
  have hget : (killers.map Killer.signal)[i]? = some k.signal := by
    rw [List.getElem?_map, hk]
    rfl
  rw [h.standFor] at hget
  by_cases hkills : KillsTree platform pid
  · rwa [if_pos hkills] at hget
  · rw [if_neg hkills] at hget
    cases hget

/-- A change to a killer that is still for the same signal. -/
theorem Tended.set {killers : List Killer} {i : Nat} {k k' : Killer}
    (h : Tended platform pid es killers) (hk : killers[i]? = some k)
    (hsignal : k'.signal = k.signal)
    (hheard : k'.onceError = false → k.onceError = false ∨
      ∃ error answer, .killerError i error answer ∈ es) :
    Tended platform pid es (killers.set i k') where
  standFor := by
    rw [← h.standFor, List.map_set, hsignal]
    apply List.ext_getElem?
    intro j
    rw [List.getElem?_set]
    by_cases hij : i = j
    · subst hij
      have hlt : i < (killers.map Killer.signal).length := by
        rw [List.length_map]
        exact (List.getElem?_eq_some_iff.mp hk).1
      rw [if_pos rfl, if_pos hlt, List.getElem?_map, hk]
      rfl
    · rw [if_neg hij]
  heard := by
    intro j k₀ hk₀ hfired
    rw [List.getElem?_set] at hk₀
    by_cases hij : i = j
    · subst hij
      rw [if_pos rfl, if_pos (List.getElem?_eq_some_iff.mp hk).1] at hk₀
      obtain rfl := Option.some.inj hk₀
      rcases hheard hfired with hfired | hmem
      · exact h.heard i k hk hfired
      · exact hmem
    · rw [if_neg hij] at hk₀
      exact h.heard j k₀ hk₀ hfired

/-- Which orders make a killer. -/
theorem madeBy_terminateChild (sent : Signal) :
    Killer.madeBy sent (terminateChild ⟨pid, none, none⟩ sent platform)
      = if KillsTree platform pid then [⟨sent, true, false⟩] else [] := by
  unfold terminateChild
  by_cases hpid : pid.getD 0 = 0
  · rw [if_pos (Or.inl hpid)]
    exact (if_neg fun h : KillsTree platform pid => h.2 hpid).symm
  · rw [if_neg (by simpa using hpid)]
    by_cases hwindows : platform = "win32"
    · rw [if_neg (by simpa using hwindows)]
      exact (if_pos (⟨hwindows, hpid⟩ : KillsTree platform pid)).symm
    · rw [if_pos hwindows]
      exact (if_neg fun h : KillsTree platform pid => hwindows h.1).symm

/-- The killer of a signal that has just been passed on. -/
theorem Tended.passed {killers : List Killer} {sent : Signal} {answer : Compliance}
    (h : Tended platform pid es killers) :
    Tended platform pid (es ++ [.signal sent answer])
      (killers ++ if KillsTree platform pid then [⟨sent, true, false⟩] else []) where
  standFor := by
    rw [List.map_append, h.standFor, signals_append]
    by_cases hkills : KillsTree platform pid
    · rw [if_pos hkills, if_pos hkills, if_pos hkills]
      rfl
    · rw [if_neg hkills, if_neg hkills, if_neg hkills]
      rfl
  heard := by
    intro i k hk hfired
    rcases List.mem_append.mp (List.mem_of_getElem? hk) with hmem | hmem
    · by_cases hlt : i < killers.length
      · rw [List.getElem?_append_left hlt] at hk
        obtain ⟨error, answer, hmem⟩ := h.heard i k hk hfired
        exact ⟨error, answer, List.mem_append_left _ hmem⟩
      · rw [List.getElem?_append_right (by omega)] at hk
        have hnew := List.mem_of_getElem? hk
        split at hnew
        · obtain rfl := List.mem_singleton.mp hnew
          cases hfired
        · cases hnew
    · split at hmem
      · obtain rfl := List.mem_singleton.mp hmem
        cases hfired
      · cases hmem

theorem exists_childFailure {error : JsError} (h : failureAfter es = some error) :
    ∃ e' ∈ es, e'.childFailure.isSome = true := by
  obtain ⟨e', he', hfailure⟩ := List.exists_of_findSome?_eq_some h
  exact ⟨e', he', by rw [hfailure]; rfl⟩

/-- A second `error` of the child. -/
theorem Told.childFailed (h : Told platform pid es s) (honce : s.onceError = false) :
    ∃ e' ∈ es, e'.childFailure.isSome = true := by
  rw [h.onceError] at honce
  cases hfailure : failureAfter es with
  | none =>
      rw [hfailure] at honce
      cases honce
  | some error => exact exists_childFailure hfailure

/-- The outcome of a listener that gives an order, once its killer, if it is
one's, has been seen to. -/
theorem Told.outcome {sm : Supervisor} (h : Told platform pid es sm)
    (hmain : sm.main = s.main ∧ sm.handlers = s.handlers ∧ sm.exitCode = s.exitCode ∧
      sm.stderr = s.stderr ∧ sm.died = none)
    (hgive : sm.give signal order answer = some s')
    (hexit : e.exit = none) (hfailure : e.childFailure = answer.emitted)
    (hthrown : ∀ error, answer = .throws error → e.thrown = some error)
    (hkiller : ∀ i, e.killer = some i → i < (signals es).length)
    (hresponse : e.response platform pid (signals (es ++ [e])) = order)
    (htended : Tended platform pid (es ++ [e])
      (sm.killers ++ Killer.madeBy signal order)) :
    Outcome platform pid es e s s' := by
  rcases Supervisor.give_cases hgive with hgiven | ⟨error, hdied, hwhy⟩
  · obtain ⟨hmain₁, hhandlers₁, hexit₁, hstderr₁, hdied₁⟩ := hgiven.main
    obtain ⟨hmain₂, hhandlers₂, hexit₂, hstderr₂, hdied₂⟩ := hmain
    apply Outcome.survived
    exact {
      told := h.give hgiven hexit hfailure hkiller hresponse
      tended := by rw [hgiven.killers]; exact htended
      main := hmain₁.trans hmain₂
      handlers := hhandlers₁.trans hhandlers₂
      stderr := hstderr₁.trans hstderr₂
      exitCode := by rw [hexit, hexit₁, hexit₂]; rfl
      once := by rw [hexit]; intro h; cases h
      alive := hdied₁.trans hdied₂ }
  · apply Outcome.crashed error hdied
    rcases hwhy with rfl | ⟨rfl, honce⟩
    · exact .inl (hthrown error rfl)
    · exact .inr (.inl ⟨hfailure, h.childFailed honce⟩)

namespace Supervised

theorem kept (h : Supervised platform pid es s) :
    s.main = s.main ∧ s.handlers = s.handlers ∧ s.exitCode = s.exitCode ∧
      s.stderr = s.stderr ∧ s.died = none :=
  ⟨rfl, rfl, rfl, rfl, h.alive⟩

theorem onSignal {sent : Signal}
    (h : Supervised platform pid es s) (hr : s.react (.signal sent answer) = some s') :
    Outcome platform pid es (.signal sent answer) s s' := by
  simp only [Supervisor.react] at hr
  split at hr
  · cases hr
  · by_cases hhandlers : s.handlers = true
    · rw [if_pos hhandlers] at hr
      have hpending : settlement es = none := by
        rw [h.settled.handlers] at hhandlers
        simpa using hhandlers
      -- the child has not exited, or the listener would not be there
      have hchild : s.child = ⟨pid, none, none⟩ := by
        rw [h.told.child, childAfter, exitStatus_of_settlement hpending]
        rfl
      rw [hchild, h.told.machine] at hr
      apply h.told.outcome h.kept hr rfl
      · cases answer <;> rfl
      · rintro error rfl
        rfl
      · intro i hi
        cases hi
      · rfl
      · rw [madeBy_terminateChild]
        exact h.tended.passed
    · rw [if_neg hhandlers] at hr
      obtain rfl := Option.some.inj hr
      apply Outcome.signaled sent answer rfl _ rfl
      rw [h.settled.handlers] at hhandlers
      cases hs : settlement es with
      | none =>
          rw [hs] at hhandlers
          exact absurd rfl hhandlers
      | some r => rfl

theorem onChildError {error : JsError}
    (h : Supervised platform pid es s) (hr : s.react (.childError error) = some s') :
    Outcome platform pid es (.childError error) s s' := by
  obtain rfl := Option.some.inj hr
  unfold Supervisor.childErrs
  by_cases honce : s.onceError = true
  · rw [if_pos honce]
    apply Outcome.survived
    have hchild : s.child = childAfter pid (es ++ [.childError error]) := by
      rw [childAfter_of_none rfl, h.told.child]
    obtain ⟨hfired, hawaited⟩ :=
      h.told.failed (e := .childError error) rfl rfl
    have hknown := h.told.known_append (e := .childError error) (by intro i hi; cases hi)
    have htold : Told platform pid (es ++ [.childError error])
        { s.settle (.error error) with onceError := false } :=
      ⟨h.told.machine, hchild, hfired.symm, hawaited.symm, (h.told.responses_silent rfl).symm,
        hknown⟩
    exact {
      told := htold
      tended := h.tended.append rfl
      main := rfl
      handlers := rfl
      stderr := rfl
      exitCode := rfl
      once := by intro hexit; cases hexit
      alive := h.alive }
  · rw [if_neg honce]
    apply Outcome.crashed error rfl
    exact .inr (.inl ⟨rfl, h.told.childFailed (by simpa using honce)⟩)

theorem onChildExit {status : ExitStatus}
    (h : Supervised platform pid es s) (hr : s.react (.childExit status) = some s') :
    Outcome platform pid es (.childExit status) s s' := by
  simp only [Supervisor.react] at hr
  split at hr
  · cases hr
  · rename_i hnone
    obtain rfl := Option.some.inj hr
    rw [not_or, not_not, not_not, h.told.child] at hnone
    -- there has been no exit yet, whatever errors there were
    have honce : exitStatus es = none := exitStatus_of_childAfter hnone.1 hnone.2
    apply Outcome.survived
    have hchild : childAfter pid (es ++ [.childExit status])
        = ⟨pid, status.code, status.signal⟩ := by
      unfold childAfter
      rw [exitStatus_append, honce]
      rfl
    have htold : Told platform pid (es ++ [.childExit status]) (s.childExits status) := by
      refine ⟨h.told.machine, ?_, ?_, ?_, (h.told.responses_silent rfl).symm,
        h.told.known_append (by intro i hi; cases hi)⟩
      · rw [hchild]
        show { s.child with exitCode := status.code, signalCode := status.signal } = _
        rw [h.told.child]
        rfl
      · rw [failureAfter_append]
        show s.onceError = ((failureAfter es).or none).isNone
        rw [Option.or_none, h.told.onceError]
      · rw [settlement_append, settles_of_exit rfl]
        show some (s.awaited.getD _) = _
        rw [h.told.awaited, Option.or_some]
    exact {
      told := htold
      tended := h.tended.append rfl
      main := rfl
      handlers := rfl
      stderr := rfl
      exitCode := rfl
      once := fun _ => honce
      alive := h.alive }

theorem onKillerError {i : Nat} {error : JsError}
    (h : Supervised platform pid es s) (hr : s.react (.killerError i error answer) = some s') :
    Outcome platform pid es (.killerError i error answer) s s' := by
  obtain ⟨k, hk, hr⟩ := Option.bind_eq_some_iff.mp hr
  have hsignal := h.tended.signal_of_get hk
  by_cases honce : k.onceError = true
  · rw [if_pos honce] at hr
    have htold : Told platform pid es (s.errKiller i k) := h.told.rekill _
    apply htold.outcome h.kept hr rfl
    · cases answer <;> rfl
    · rintro error rfl
      rfl
    · intro j hj
      obtain rfl := Option.some.inj hj
      exact (List.getElem?_eq_some_iff.mp hsignal).1
    · rw [signals_append]
      show ((signals es ++ [])[i]?).map Order.kill = _
      rw [List.append_nil, hsignal]
      rfl
    · show Tended _ _ _ (s.killers.set i _ ++ [])
      rw [List.append_nil]
      have hcalm : Tended platform pid (es ++ [.killerError i error answer]) s.killers :=
        h.tended.append rfl
      apply hcalm.set hk
      · rfl
      · intro _
        exact .inr ⟨error, answer, List.mem_append_right _ (List.mem_singleton_self _)⟩
  · -- its listener has fired before
    rw [if_neg honce] at hr
    obtain rfl := Option.some.inj hr
    obtain ⟨error', answer', hmem⟩ := h.tended.heard i k hk (by simpa using honce)
    apply Outcome.crashed error rfl
    exact .inr (.inr ⟨i, answer, error', answer', rfl, hmem⟩)

theorem onKillerExit {i : Nat} {code : Option Nat}
    (h : Supervised platform pid es s) (hr : s.react (.killerExit i code answer) = some s') :
    Outcome platform pid es (.killerExit i code answer) s s' := by
  obtain ⟨k, hk, hr⟩ := Option.bind_eq_some_iff.mp hr
  have hsignal := h.tended.signal_of_get hk
  split at hr
  · cases hr
  · have htold : Told platform pid es (s.exitKiller i k) := h.told.rekill _
    apply htold.outcome h.kept hr rfl
    · cases answer <;> rfl
    · rintro error rfl
      rfl
    · intro j hj
      obtain rfl := Option.some.inj hj
      exact (List.getElem?_eq_some_iff.mp hsignal).1
    · rw [signals_append]
      show (if code = some 0 then none else ((signals es ++ [])[i]?).map Order.kill) = _
      rw [List.append_nil, hsignal]
      unfold Killer.onExit
      by_cases hcode : code = some 0
      · rw [if_pos hcode, if_neg (not_not.mpr hcode)]
      · rw [if_neg hcode, if_pos hcode]
        rfl
    -- a killer that has exited is not replaced by another
    · have hnew : Killer.madeBy k.signal (k.onExit code) = [] := by
        unfold Killer.onExit
        split <;> rfl
      show Tended _ _ _ (s.killers.set i _ ++ _)
      rw [hnew, List.append_nil]
      have hcalm : Tended platform pid (es ++ [.killerExit i code answer]) s.killers :=
        h.tended.append rfl
      apply hcalm.set hk
      · rfl
      · exact .inl

/-- **What an event does**, whichever it is. -/
theorem react (h : Supervised platform pid es s) (hr : s.react e = some s') :
    Outcome platform pid es e s s' := by
  cases e with
  | signal sent answer => exact h.onSignal hr
  | childError error => exact h.onChildError hr
  | childExit status => exact h.onChildExit hr
  | killerError i error answer => exact h.onKillerError hr
  | killerExit i code answer => exact h.onKillerExit hr

end Supervised

/-! ## §6. Runs. -/

namespace Supervisor

theorem proceed_died (s : Supervisor) : s.proceed.died = s.died := by
  unfold proceed
  split <;> rfl

theorem proceed_killers (s : Supervisor) : s.proceed.killers = s.killers := by
  unfold proceed
  split <;> rfl

end Supervisor

theorem Told.proceed (h : Told platform pid es s) : Told platform pid es s.proceed := by
  unfold Supervisor.proceed
  split <;>
    exact ⟨h.machine, h.child, h.onceError, h.awaited, h.orders, h.known⟩

/-- `main` goes on once the promise has settled, and only then. -/
theorem Settled.proceed (h : Settled es s) (hs : Survived platform pid es e s s') :
    Settled (es ++ [e]) s'.proceed := by
  have hawaited : s'.awaited = (settlement es).or e.settles := by
    rw [hs.told.awaited, settlement_append]
  have hmain : s'.main = settlement es := hs.main.trans h.main
  have hexit := hs.exitCode
  rw [h.exitCode] at hexit
  have hstderr := hs.stderr
  rw [h.stderr] at hstderr
  have hhandlers := hs.handlers
  rw [h.handlers] at hhandlers
  cases hsettled : settlement es with
  | some r =>
      -- `main` is behind its `finally`; only an exit still changes something
      have hstill : settlement (es ++ [e]) = some r := by
        rw [settlement_append, hsettled]
        rfl
      have hsame : s'.proceed = s' := by
        unfold Supervisor.proceed
        rw [hmain, hsettled]
      rw [hsame]
      refine ⟨by rw [hmain, hsettled, hstill], by rw [hhandlers, hsettled, hstill], ?_, ?_⟩
      · rw [hexit]
        unfold exitCodeAfter
        rw [hstill, hsettled, exitStatus_append]
        cases he : e.exit with
        | none =>
            rw [Option.or_none]
            rfl
        | some status =>
            rw [hs.once (by rw [he]; rfl)]
            rfl
      · rw [hstderr]
        unfold stderrAfter
        rw [hstill, hsettled]
  | none =>
      -- `main` waits, so nothing has been written to `exitCode` or stderr
      have hnone := exitStatus_of_settlement hsettled
      rw [hsettled] at hawaited hmain hhandlers
      have hcode : exitCodeAfter es = none := by
        unfold exitCodeAfter
        rw [hnone, hsettled]
        rfl
      have herr : stderrAfter es = [] := by
        unfold stderrAfter
        rw [hsettled]
      rw [hcode] at hexit
      rw [herr] at hstderr
      cases he : e.exit with
      | some status =>
          have hsettles := settles_of_exit he
          have hnow : settlement (es ++ [e]) = some (.ok ()) := by
            rw [settlement_append, hsettled, hsettles]
            rfl
          have hgoes : s'.proceed = { s' with main := some (.ok ()), handlers := false } := by
            unfold Supervisor.proceed
            rw [hmain, hawaited, hsettles]
            rfl
          rw [hgoes]
          refine ⟨hnow.symm, by rw [hnow]; rfl, ?_, ?_⟩
          · show s'.exitCode = _
            unfold exitCodeAfter
            rw [hexit, exitStatus_append, hnone, he]
            rfl
          · show s'.stderr = _
            unfold stderrAfter
            rw [hstderr, hnow]
      | none =>
          rw [he] at hexit
          have hsettles := settles_of_none he
          cases hfailure : e.childFailure with
          | some error =>
              -- the rejection reaches the `catch` behind `main`
              rw [hfailure] at hsettles
              have hnow : settlement (es ++ [e]) = some (.error error) := by
                rw [settlement_append, hsettled, hsettles]
                rfl
              have hgoes : s'.proceed = { s' with
                  main := some (.error error)
                  handlers := false
                  stderr := s'.stderr ++ ["codex-remote-bridge: " ++ error.message ++ "\n"]
                  exitCode := some 1 } := by
                unfold Supervisor.proceed
                rw [hmain, hawaited, hsettles]
                rfl
              rw [hgoes]
              refine ⟨hnow.symm, by rw [hnow]; rfl, ?_, ?_⟩
              · unfold exitCodeAfter
                rw [exitStatus_append, hnone, he, hnow]
                rfl
              · unfold stderrAfter
                rw [hstderr, hnow]
                rfl
          | none =>
              rw [hfailure] at hsettles
              have hnow : settlement (es ++ [e]) = none := by
                rw [settlement_append, hsettled, hsettles]
                rfl
              have hstays : s'.proceed = s' := by
                unfold Supervisor.proceed
                rw [hmain, hawaited, hsettles]
                rfl
              rw [hstays]
              refine ⟨by rw [hmain, hnow], by rw [hhandlers, hnow], ?_, ?_⟩
              · unfold exitCodeAfter
                rw [hexit, exitStatus_append, hnone, he, hnow]
                rfl
              · unfold stderrAfter
                rw [hstderr, hnow]

/-- How an event ends the launcher. -/
def Dies (es : List Occurrence) (e : Occurrence) (s : Supervisor) : Prop :=
  (∃ error, s.died = some (.uncaught error) ∧ Crashes es e error) ∨
  ∃ sent answer, e = .signal sent answer ∧ (settlement es).isSome = true ∧
    s.died = some (.signaled sent)

theorem Dies.died (h : Dies es e s) : s.died ≠ none := by
  rcases h with ⟨error, hdied, -⟩ | ⟨sent, answer, -, -, hdied⟩
  · rw [hdied]
    exact Option.some_ne_none _
  · rw [hdied]
    exact Option.some_ne_none _

/-- **The step lemma.** -/
theorem Supervised.step (h : Supervised platform pid es s) (hstep : s.step e = some s') :
    Supervised platform pid (es ++ [e]) s' ∨ Dies es e s' := by
  unfold Supervisor.step at hstep
  rw [if_pos h.alive] at hstep
  obtain ⟨s₁, hreact, rfl⟩ := Option.map_eq_some_iff.mp hstep
  cases h.react hreact with
  | survived hs =>
      apply Or.inl
      exact {
        told := hs.told.proceed
        tended := by rw [Supervisor.proceed_killers]; exact hs.tended
        settled := h.settled.proceed hs
        alive := by rw [Supervisor.proceed_died, hs.alive] }
  | crashed error hdied hcrash =>
      exact .inr (.inl ⟨error, by rw [Supervisor.proceed_died, hdied], hcrash⟩)
  | signaled sent answer he hsettled hdied =>
      exact .inr (.inr ⟨sent, answer, he, hsettled, by rw [Supervisor.proceed_died, hdied]⟩)

theorem Supervised.start (platform : String) (pid : Option Nat) :
    Supervised platform pid [] (Supervisor.start platform pid) where
  told := ⟨rfl, rfl, rfl, rfl, rfl, fun _ he => absurd he List.not_mem_nil⟩
  tended := by
    constructor
    · show [] = if KillsTree platform pid then [] else []
      rw [ite_self]
    · intro i k hk
      cases hk
  settled := ⟨rfl, rfl, rfl, rfl⟩
  alive := rfl

theorem Supervisor.run_append (s : Supervisor) (es es' : List Occurrence) :
    s.run (es ++ es') = (s.run es).bind fun s' => s'.run es' := by
  induction es generalizing s with
  | nil => rfl
  | cons e es ih =>
      show ((s.step e).bind fun s' => s'.run (es ++ es')) = _
      simp only [Supervisor.run, ih, Option.bind_assoc]

theorem Supervisor.run_singleton (s : Supervisor) (e : Occurrence) : s.run [e] = s.step e := by
  show ((s.step e).bind fun s' => some s') = s.step e
  exact Option.bind_fun_some _

/-- Nothing happens to a process that has ended. -/
theorem Supervisor.alive_of_step (h : s.step e = some s') : s.died = none := by
  unfold Supervisor.step at h
  by_cases halive : s.died = none
  · exact halive
  · rw [if_neg halive] at h
    cases h

/-- **The run lemma**: the launcher is as its history says, or the last
event has ended it. -/
theorem Supervisor.run_cases (hrun : (Supervisor.start platform pid).run es = some s) :
    Supervised platform pid es s ∨
      ∃ before e, es = before ++ [e] ∧ Dies before e s := by
  induction es using List.reverseRecOn generalizing s with
  | nil =>
      obtain rfl := Option.some.inj hrun
      exact .inl (Supervised.start platform pid)
  | append_singleton es e ih =>
      rw [Supervisor.run_append] at hrun
      obtain ⟨s₀, hrun₀, hlast⟩ := Option.bind_eq_some_iff.mp hrun
      rw [Supervisor.run_singleton] at hlast
      have halive := Supervisor.alive_of_step hlast
      rcases ih hrun₀ with h | ⟨before, e', -, hdies⟩
      · rcases h.step hlast with h' | hdies
        · exact .inl h'
        · exact .inr ⟨es, e, rfl, hdies⟩
      · exact absurd halive hdies.died

/-- The history of a launcher that something still happens to. -/
theorem Supervisor.supervised_before {after : List Occurrence}
    (hrun : (Supervisor.start platform pid).run (es ++ e :: after) = some s) :
    ∃ s₀ s₁, Supervised platform pid es s₀ ∧ s₀.step e = some s₁ ∧ s₁.run after = some s := by
  rw [Supervisor.run_append] at hrun
  obtain ⟨s₀, hrun₀, hrest⟩ := Option.bind_eq_some_iff.mp hrun
  obtain ⟨s₁, hstep, hafter⟩ := Option.bind_eq_some_iff.mp hrest
  refine ⟨s₀, s₁, ?_, hstep, hafter⟩
  rcases Supervisor.run_cases hrun₀ with h | ⟨before, e', -, hdies⟩
  · exact h
  · exact absurd (Supervisor.alive_of_step hstep) hdies.died

/-- **The launcher while its child runs.**  After any events in any order,
whatever the system has answered: a launcher that lives is as its history
says.  It waits, with its three listeners in place, until the child has
exited or erred; where the child has a pid, each signal has been answered by
one `kill` (on Windows by one `taskkill` of the tree, and each failure of
that by one `kill`), in the order of the events; and its exit code is the
child's once the child has exited, else 1 after an error.  A signal ends the launcher exactly when the
wait is over; and nothing else does but a call that throws, or an `error`
after an `error` from the same process. -/
theorem Supervisor.supervises (hrun : (Supervisor.start platform pid).run es = some s) :
    (s.died = none →
      s.main = settlement es ∧ s.handlers = (settlement es).isNone ∧
      s.orders = responses platform pid es ∧
      s.exitCode = exitCodeAfter es ∧ s.stderr = stderrAfter es) ∧
    (∀ before sent answer after, es = before ++ .signal sent answer :: after →
      ((settlement before).isSome = true ↔ after = [] ∧ s.died = some (.signaled sent))) ∧
    (∀ error, s.died = some (.uncaught error) →
      ∃ before e, es = before ++ [e] ∧ Crashes before e error) := by
  refine ⟨?_, ?_, ?_⟩
  · intro halive
    rcases Supervisor.run_cases hrun with h | ⟨before, e, -, hdies⟩
    · exact ⟨h.settled.main, h.settled.handlers, h.told.orders, h.settled.exitCode,
        h.settled.stderr⟩
    · exact absurd halive hdies.died
  · rintro before sent answer after rfl
    obtain ⟨s₀, s₁, h, hstep, hafter⟩ := Supervisor.supervised_before hrun
    constructor
    · intro hsettled
      -- the listeners are gone
      have hhandlers : s₀.handlers = false := by
        rw [h.settled.handlers]
        cases hs : settlement before with
        | none =>
            rw [hs] at hsettled
            cases hsettled
        | some r => rfl
      have hdied : s₁.died = some (.signaled sent) := by
        unfold Supervisor.step at hstep
        rw [if_pos h.alive] at hstep
        obtain ⟨s₂, hreact, rfl⟩ := Option.map_eq_some_iff.mp hstep
        rw [Supervisor.proceed_died]
        simp only [Supervisor.react] at hreact
        split at hreact
        · cases hreact
        · rw [hhandlers] at hreact
          obtain rfl := Option.some.inj hreact
          rfl
      cases after with
      | nil =>
          obtain rfl := Option.some.inj hafter
          exact ⟨rfl, hdied⟩
      | cons e rest =>
          obtain ⟨s₂, hnext, -⟩ := Option.bind_eq_some_iff.mp hafter
          have halive := Supervisor.alive_of_step hnext
          rw [hdied] at halive
          cases halive
    · rintro ⟨rfl, hdied⟩
      obtain rfl := Option.some.inj hafter
      rcases h.step hstep with h' | hdies
      · rw [h'.alive] at hdied
        cases hdied
      · rcases hdies with ⟨error, huncaught, -⟩ | ⟨sent', answer', -, hsettled, -⟩
        · rw [huncaught] at hdied
          cases hdied
        · exact hsettled
  · intro error hdied
    rcases Supervisor.run_cases hrun with h | ⟨before, e, he, hdies⟩
    · rw [h.alive] at hdied
      cases hdied
    · rcases hdies with ⟨error', huncaught, hcrash⟩ | ⟨sent, answer, -, -, hsignaled⟩
      · rw [huncaught] at hdied
        obtain rfl : error' = error := by
          injection hdied with hdied
          injection hdied
        exact ⟨before, e, he, hcrash⟩
      · rw [hsignaled] at hdied
        cases hdied

end Listeners

/-- On Windows: a SIGTERM whose `taskkill` fails, and the child that then
ends by it. -/
theorem Supervisor.supervises_taskkill :
    ∃ s, (Supervisor.start "win32" (some 7)).run
        [.signal .sigterm .done, .killerExit 0 (some 1) .done, .childExit (.signaled .sigterm)]
          = some s ∧
      s.died = none ∧ s.main = some (.ok ()) ∧ s.exitCode = some 143 ∧
      s.orders = [.spawn "taskkill.exe" ["/PID", "7", "/T", "/F"], .kill .sigterm] := by
  refine ⟨_, rfl, rfl, ?_⟩
  obtain ⟨halive, -, -⟩ := Supervisor.supervises
    (rfl : (Supervisor.start "win32" (some 7)).run
      [.signal .sigterm .done, .killerExit 0 (some 1) .done, .childExit (.signaled .sigterm)]
        = some _)
  obtain ⟨hmain, -, horders, hexit, -⟩ := halive rfl
  exact ⟨hmain, hexit, horders⟩

end CodexRemoteBridge.Launcher
