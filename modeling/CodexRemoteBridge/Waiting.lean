/-
  CodexRemoteBridge.Waiting — `wait_thread`: polling for one turn under an
  outer deadline, and what its report rests on.

  Every answer comes with the time of the event loop.  `asyncio.timeout`
  turns the cancellation of its own deadline into a `TimeoutError`, and the
  handler behind it takes any `TimeoutError` for that one.

  Main result: `waitThread_reports_iff`.
-/
import CodexRemoteBridge.AppServer
import CodexRemoteBridge.Bridge

namespace CodexRemoteBridge

open Interaction

/-! ## §1. What a wait does. -/

/-- The operations of a wait. -/
inductive WaitOp where
  /-- `await self.rpc.call(method, params)`. -/
  | call (method : String) (params : Dict)
  /-- Entering `asyncio.timeout(seconds)`. -/
  | arm (seconds : ℚ)
  /-- Leaving it with a `CancelledError`: whether it was the deadline that
  cancelled the task, and nobody else. -/
  | expired
  /-- `await asyncio.sleep(0.5)`. -/
  | sleep
  /-- The rounds of the loop beyond those that are unrolled. -/
  | unrolled

/-- What an operation is answered with. -/
abbrev Reply : WaitOp → Type
  | .call _ _ => Except PyExc Json
  | .arm _ => Unit
  | .expired => Bool
  -- Whether the sleeping task is cancelled.
  | .sleep => Bool
  | .unrolled => Empty

/-- An answer, at a time of the event loop. -/
abbrev WaitAns (op : WaitOp) : Type := ℚ × Reply op

/-- A wait; its cell is `latest`. -/
abbrev Wait : Type → Type := Co WaitOp WaitAns PyExc (Option Json)

abbrev WaitHistory : Type := List (Event WaitAns)

/-- `except TimeoutError`. -/
def PyExc.isTimeoutError : PyExc → Bool
  | .exception cls _ => cls = "TimeoutError"
  | _ => false

/-- `TimeoutError()`. -/
def timeoutError : PyExc := .exception "TimeoutError" ""

namespace Wait

/-- Perform an operation that returns or raises. -/
def perform {α : Type} (op : WaitOp) (view : Reply op → Except PyExc α) : Wait α :=
  Co.ask op >>= fun r => Co.ofExcept (view r.2)

def call (method : String) (params : Dict) : Wait Json := perform (.call method params) fun r => r
def arm (seconds : ℚ) : Wait Unit := perform (.arm seconds) .ok
def expired : Wait Bool := perform .expired .ok

def sleep : Wait Unit :=
  perform .sleep fun cancelled => if cancelled then .error .cancelledError else .ok ()

def unrolled : Wait Unit := perform .unrolled nofun

/-- `async with asyncio.timeout(seconds)`. -/
def timeout (seconds : ℚ) (body : Wait Unit) : Wait Unit := do
  arm seconds
  Co.tryCatch body fun
    | .cancelledError => do
        let own ← expired
        if own then Co.throw timeoutError else Co.throw .cancelledError
    | error => Co.throw error

end Wait

/-! ## §2. `clipped`. -/

/-- `DISPLAY_FIELDS`. -/
def displayFields : List String :=
  ["text", "preview", "summary", "objective", "aggregatedOutput"]

mutual
/-- `clipped`. -/
def clipped (limit : Nat) (displayText : Bool) : Json → Json
  | .str s =>
      if displayText && limit < s.length then
        .str (String.ofList (s.toList.take limit) ++ "\n[truncated; original length "
          ++ toString s.length ++ " characters]")
      else .str s
  | .arr items => .arr (clippedItems limit displayText items)
  | .obj fields => .obj (clippedFields limit fields)
  | v => v

def clippedItems (limit : Nat) (displayText : Bool) : List Json → List Json
  | [] => []
  | v :: rest => clipped limit displayText v :: clippedItems limit displayText rest

def clippedFields (limit : Nat) : Dict → Dict
  | [] => []
  | (k, v) :: rest => (k, clipped limit (displayFields.contains k) v) :: clippedFields limit rest
end

theorem get?_clippedFields (limit : Nat) (fields : Dict) (key : String) :
    Dict.get? (clippedFields limit fields) key
      = (fields.get? key).map (clipped limit (displayFields.contains key)) := by
  induction fields with
  | nil => rfl
  | cons kv rest ih =>
      obtain ⟨k, v⟩ := kv
      by_cases hk : k = key
      · subst hk
        simp [clippedFields]
      · simp [clippedFields, hk, ih]

/-- An opaque field stays a given string if and only if it is one. -/
theorem clipped_eq_str {limit : Nat} {v : Json} {s : String} :
    clipped limit false v = .str s ↔ v = .str s := by
  cases v <;> simp [clipped]

/-! ## §3. `wait_thread`. -/

/-- `for item in value`. -/
def iterate : Json → Except PyExc (List Json)
  | .arr items => .ok items
  | .obj fields => .ok ((Dict.keys fields).map .str)
  | .str s => .ok (s.toList.map fun c => .str (String.singleton c))
  | v => .error (.typeError ("'" ++ v.typeName ++ "' object is not iterable"))

/-- `next((turn for turn in turns if turn["id"] == turn_id), None)`. -/
def firstTurn (turnId : String) : List Json → Except PyExc (Option Json)
  | [] => .ok none
  | turn :: rest => do
      let id ← turn.index "id"
      if id.pyEq (.str turnId) then .ok (some turn) else firstTurn turnId rest

/-- The turn on a page. -/
def turnOn (turnId : String) (page : Json) : Except PyExc (Option Json) := do
  let data ← page.index "data"
  let turns ← iterate data
  firstTurn turnId turns

/-- The states a turn does not leave. -/
def terminalStates : List String := ["completed", "failed", "interrupted"]

/-- `turn.get("status") in {"completed", "failed", "interrupted"}`. -/
def statusTerminal (turn : Json) : Except PyExc Bool := do
  let status ← turn.getNone "status"
  match status with
  | .str s => .ok (terminalStates.contains s)
  | .arr _ => .error (.typeError "unhashable type: 'list'")
  | .obj _ => .error (.typeError "unhashable type: 'dict'")
  | _ => .ok false

/-- The condition that ends the loop. -/
def settledNow : Option Json → Except PyExc Bool
  | none => .ok false
  | some turn => if turn.truthy then statusTerminal turn else .ok false

/-- `terminal`, after the loop. -/
def terminalAtEnd : Option Json → Except PyExc Bool
  | none => .ok false
  | some turn => statusTerminal turn

/-- The observation of a wait without a turn. -/
def notObserved : String := "not observed in latest 100 turns"

/-- The report, before it is clipped. -/
def waitReport (threadId turnId : String) (latest : Option Json) (terminal : Bool) : Dict :=
  [("threadId", .str threadId),
   ("turnId", .str turnId),
   ("timedOut", .bool (!terminal)),
   ("turn", latest.getD .null),
   ("observation", .str (if latest.any Json.truthy then "found" else notObserved))]

section WaitThread

variable (threadId turnId : String)

/-- `inspect`. -/
def inspect : Wait (Option Json) := do
  let page ← Wait.call "thread/turns/list"
    [("threadId", .str threadId), ("limit", .int 100), ("itemsView", .str "summary")]
  Co.ofExcept (turnOn turnId page)

/-- `latest = await inspect()`. -/
def look : Wait Unit := do
  let latest ← inspect threadId turnId
  Co.modify fun _ => latest

/-- The loop, for so many rounds. -/
def poll : Nat → Wait Unit
  | 0 => Wait.unrolled
  | rounds + 1 => do
      look threadId turnId
      let latest ← Co.get
      let done ← Co.ofExcept (settledNow latest)
      if done then pure ()
      else do
        Wait.sleep
        poll rounds

/-- The wait itself: one snapshot, or the loop under its deadline. -/
def observeTurn (rounds : Nat) (seconds : ℚ) : Wait Unit :=
  if seconds = 0 then look threadId turnId
  else
    Co.tryCatch (Wait.timeout seconds (poll threadId turnId rounds)) fun error =>
      if error.isTimeoutError then pure () else Co.throw error

/-- `wait_thread`. -/
def waitThread (rounds : Nat) (seconds : ℚ) : Wait Json := do
  Co.ofExcept (nonempty threadId "thread_id" 128)
  Co.ofExcept (nonempty turnId "turn_id" 128)
  if ¬ (0 ≤ seconds ∧ seconds ≤ 50) then
    Co.throw (.valueError "timeout_seconds must be between 0 and 50")
  else do
    observeTurn threadId turnId rounds seconds
    let latest ← Co.get
    let terminal ← Co.ofExcept (terminalAtEnd latest)
    pure (clipped 4000 false (.obj (waitReport threadId turnId latest terminal)))

end WaitThread

/-! ## §4. What a report should rest on. -/

/-- A page that was received. -/
def receivedPage : Event WaitAns → Option Json
  | ⟨.call _ _, (_, .ok page)⟩ => some page
  | _ => none

/-- The pages of a wait, in order. -/
def pages (h : WaitHistory) : List Json := h.filterMap receivedPage

/-- A request or the connection it needs failed with `e`. -/
def CallRaised (e : PyExc) (h : WaitHistory) : Prop :=
  ∃ method params time, (⟨.call method params, (time, .error e)⟩ : Event WaitAns) ∈ h

/-- The deadline was armed at a time, and struck at another. -/
def Struck (seconds : ℚ) (armed struck : ℚ) (h : WaitHistory) : Prop :=
  ∃ pre mid post, h = pre ++ ⟨.arm seconds, (armed, ())⟩ ::
    (mid ++ ⟨.expired, (struck, true)⟩ :: post)

/-- `asyncio.timeout` cancels no sooner than its deadline. -/
def Punctual (h : WaitHistory) : Prop :=
  ∀ seconds armed struck, Struck seconds armed struck h → armed + seconds ≤ struck

/-- The page lists the turn. -/
def Lists (turnId : String) (page : Json) : Prop :=
  ∃ turns, page.index "data" = .ok (.arr turns) ∧
    ∃ turn ∈ turns, turn.index "id" = .ok (.str turnId)

/-- The turn has ended. -/
def HasEnded (turn : Json) : Prop :=
  ∃ state ∈ terminalStates, turn.getNone "status" = .ok (.str state)

/-- The report says what was observed. -/
structure Reports (turnId : String) (seconds : ℚ) (h : WaitHistory) (report : Json) : Prop where
  /-- No other turn is reported. -/
  turn : ∃ turn, report.index "turn" = .ok turn ∧
    (turn = .null ∨ turn.index "id" = .ok (.str turnId))
  timedOut : ∃ turn timedOut, report.index "turn" = .ok turn ∧
    report.index "timedOut" = .ok (.bool timedOut) ∧ (timedOut = false ↔ HasEnded turn)
  /-- A turn that was not observed is not on the last page. -/
  observation : report.index "observation" = .ok (.str notObserved) →
    ∃ page, (pages h).getLast? = some page ∧ ¬ Lists turnId page
  /-- A wait that timed out took its time. -/
  elapsed : report.index "timedOut" = .ok (.bool true) → 0 < seconds →
    ∃ armed last, (⟨.arm seconds, (armed, ())⟩ : Event WaitAns) ∈ h ∧
      h.getLast? = some last ∧ armed + seconds ≤ last.2.1
  /-- No failure is reported as an expired wait. -/
  raised : ∀ e, CallRaised e h → e = .cancelledError ∧ ∃ armed struck, Struck seconds armed struck h

/-! ## §5. Reading pages and reports. -/

theorem turnOn_id {turnId : String} {page turn : Json} (h : turnOn turnId page = .ok (some turn)) :
    turn.index "id" = .ok (.str turnId) := by
  have hfirst : ∀ turns : List Json, firstTurn turnId turns = .ok (some turn) →
      turn.index "id" = .ok (.str turnId) := by
    intro turns
    induction turns with
    | nil =>
        intro hnone
        cases hnone
    | cons head rest ih =>
        intro hsome
        obtain ⟨id, hid, hrest⟩ := bind_eq_ok.mp hsome
        split at hrest
        · rename_i heq
          cases hrest
          rw [hid, (Json.pyEq_str _ _).mp heq]
        · exact ih hrest
  obtain ⟨data, -, hdata⟩ := bind_eq_ok.mp h
  obtain ⟨turns, -, hturns⟩ := bind_eq_ok.mp hdata
  exact hfirst turns hturns

theorem not_lists {turnId : String} {page : Json} (h : turnOn turnId page = .ok none) :
    ¬ Lists turnId page := by
  have hfirst : ∀ turns : List Json, firstTurn turnId turns = .ok none →
      ∀ turn ∈ turns, turn.index "id" ≠ .ok (.str turnId) := by
    intro turns
    induction turns with
    | nil => exact fun _ _ hmem => absurd hmem List.not_mem_nil
    | cons head rest ih =>
        intro hnone turn hmem he
        obtain ⟨id, hid, hrest⟩ := bind_eq_ok.mp hnone
        split at hrest
        · cases hrest
        · rename_i hne
          rcases List.mem_cons.mp hmem with rfl | hmem
          · rw [hid] at he
            exact hne ((Json.pyEq_str _ _).mpr (Except.ok.inj he))
          · exact ih hrest turn hmem he
  rintro ⟨turns, hdata, turn, hmem, hid⟩
  obtain ⟨data, hdata', hrest⟩ := bind_eq_ok.mp h
  rw [hdata] at hdata'
  obtain rfl := Except.ok.inj hdata'
  exact hfirst turns hrest turn hmem hid

/-- What has an id is no empty object. -/
theorem truthy_of_id {turn id : Json} (h : turn.index "id" = .ok id) : turn.truthy = true := by
  obtain ⟨fields, rfl, hfields⟩ := Json.index_ok h
  cases fields with
  | nil => cases hfields
  | cons kv rest => rfl

theorem statusTerminal_iff {turn : Json} {terminal : Bool}
    (h : statusTerminal turn = .ok terminal) : terminal = true ↔ HasEnded turn := by
  obtain ⟨status, hstatus, hrest⟩ := bind_eq_ok.mp h
  unfold HasEnded
  rw [hstatus]
  cases status with
  | str s =>
      obtain rfl := Except.ok.inj hrest
      simp [terminalStates]
  | arr items => cases hrest
  | obj fields => cases hrest
  | null =>
      obtain rfl := Except.ok.inj hrest
      simp
  | bool b =>
      obtain rfl := Except.ok.inj hrest
      simp
  | int n =>
      obtain rfl := Except.ok.inj hrest
      simp
  | float r =>
      obtain rfl := Except.ok.inj hrest
      simp

/-- Clipping keeps the opaque strings of a turn. -/
theorem index_clipped {limit : Nat} {v : Json} {key s : String}
    (hkey : displayFields.contains key = false) :
    (clipped limit false v).index key = .ok (.str s) ↔ v.index key = .ok (.str s) := by
  cases v with
  | obj fields =>
      simp only [clipped, Json.index, get?_clippedFields, hkey]
      cases Dict.get? fields key with
      | none => simp
      | some w => simp [clipped_eq_str]
  | str t => simp [clipped, Json.index]
  | _ => simp [clipped, Json.index]

theorem hasEnded_clipped {limit : Nat} {turn : Json} :
    HasEnded (clipped limit false turn) ↔ HasEnded turn := by
  have hstatus : ∀ s : String, (clipped limit false turn).getNone "status" = .ok (.str s) ↔
      turn.getNone "status" = .ok (.str s) := by
    intro s
    cases turn with
    | obj fields =>
        simp only [clipped, Json.getNone, Json.getField, Except.map, get?_clippedFields]
        cases Dict.get? fields "status" with
        | none => simp
        | some w =>
            have hopaque : displayFields.contains "status" = false := rfl
            simp only [Option.map_some, Option.getD_some, hopaque, Except.ok.injEq]
            exact clipped_eq_str
    | str t => simp [clipped, Json.getNone, Json.getField, Except.map]
    | _ => simp [clipped, Json.getNone, Json.getField, Except.map]
  unfold HasEnded
  exact exists_congr fun s => and_congr_right fun _ => hstatus s

section Report

variable {threadId turnId : String} {latest : Option Json} {terminal : Bool}

/-- The report as it is returned. -/
abbrev reportOf (threadId turnId : String) (latest : Option Json) (terminal : Bool) : Json :=
  clipped 4000 false (.obj (waitReport threadId turnId latest terminal))

theorem reported_turn : (reportOf threadId turnId latest terminal).index "turn"
    = .ok (clipped 4000 false (latest.getD .null)) := rfl

theorem reported_timedOut : (reportOf threadId turnId latest terminal).index "timedOut"
    = .ok (.bool (!terminal)) := rfl

theorem reported_observation : (reportOf threadId turnId latest terminal).index "observation"
    = .ok (.str (if latest.any Json.truthy then "found" else notObserved)) := by
  have hfield : (reportOf threadId turnId latest terminal).index "observation"
      = .ok (clipped 4000 false (.str (if latest.any Json.truthy then "found" else notObserved))) :=
    rfl
  rw [hfield]
  rfl

end Report

/-! ## §6. The course of a wait. -/

/-- The history of a wait, with nothing asked of its operations. -/
abbrev WaitSpec : OpSpec WaitAns WaitHistory := history fun _ _ => True

/-- `latest` is what the last page says. -/
structure Watching (turnId : String) (latest : Option Json) (h : WaitHistory) : Prop where
  seen : ∀ page, (pages h).getLast? = some page → turnOn turnId page = .ok latest
  unseen : pages h = [] → latest = none

/-- Only the deadline, or somebody else, interrupted a call. -/
def OnlyCancelled (h : WaitHistory) : Prop := ∀ e, CallRaised e h → e = .cancelledError

/-- How a wait that returns has gone. -/
inductive Outcome (turnId : String) (seconds : ℚ) (latest : Option Json) (h : WaitHistory) : Prop
  /-- The last page was reported at once: every call returned. -/
  | looked : Watching turnId latest h → (∀ e, ¬ CallRaised e h) → pages h ≠ [] →
      (seconds = 0 ∨ settledNow latest = .ok true) → Outcome turnId seconds latest h
  /-- The deadline struck. -/
  | expired (armed struck : ℚ) (pre mid : WaitHistory) : Watching turnId latest h →
      OnlyCancelled h → h = pre ++ ⟨.arm seconds, (armed, ())⟩ ::
        (mid ++ [⟨.expired, (struck, true)⟩]) → Outcome turnId seconds latest h
  /-- A failure was taken for the deadline. -/
  | swallowed (e : PyExc) : CallRaised e h → e.isTimeoutError = true →
      Outcome turnId seconds latest h

section Course

variable {α : Type} {threadId turnId : String} {seconds : ℚ} {latest : Option Json}
variable {h : WaitHistory}

theorem Wait.wp_perform {M : Type} (Φ : OpSpec WaitAns M) (op : WaitOp)
    (view : Reply op → Except PyExc α) (Q : α → Option Json → M → Prop)
    (X : PyExc → Option Json → M → Prop) (s : Option Json) :
    Co.wp Φ (Wait.perform op view) Q X s
      = Φ op (fun r m => match view r.2 with
          | .ok a => Q a s m
          | .error e => X e s m) := by
  unfold Wait.perform
  rw [Co.wp_bind, Co.wp_ask]
  congr 1
  funext r m
  rw [Co.wp_ofExcept]
  cases view r.2 <;> rfl

theorem pages_append (h : WaitHistory) (e : Event WaitAns) :
    pages (h ++ [e]) = pages h ++ (receivedPage e).toList := by
  unfold pages
  rw [List.filterMap_append]
  cases he : receivedPage e <;> simp [he]

theorem callRaised_append {e : PyExc} {event : Event WaitAns} :
    CallRaised e (h ++ [event]) ↔ CallRaised e h ∨
      ∃ method params time, event = ⟨.call method params, (time, .error e)⟩ := by
  constructor
  · rintro ⟨method, params, time, hmem⟩
    rcases List.mem_append.mp hmem with hmem | hmem
    · exact .inl ⟨method, params, time, hmem⟩
    · exact .inr ⟨method, params, time, (List.mem_singleton.mp hmem).symm⟩
  · rintro (⟨method, params, time, hmem⟩ | ⟨method, params, time, rfl⟩)
    · exact ⟨method, params, time, List.mem_append_left _ hmem⟩
    · exact ⟨method, params, time, List.mem_append_right _ (List.mem_singleton.mpr rfl)⟩

/-- An event that is no call changes nothing that was watched. -/
theorem Watching.append (hw : Watching turnId latest h) {e : Event WaitAns}
    (he : receivedPage e = none) : Watching turnId latest (h ++ [e]) := by
  have hpages : pages (h ++ [e]) = pages h := by
    rw [pages_append, he]
    simp
  exact ⟨by rw [hpages]; exact hw.seen, by rw [hpages]; exact hw.unseen⟩

/-- What the exceptions of a look say. -/
structure LookRaises (turnId : String) (e : PyExc) (latest : Option Json) (h : WaitHistory) :
    Prop where
  cancelled : e = .cancelledError → Watching turnId latest h ∧ OnlyCancelled h
  timedOut : e.isTimeoutError = true → CallRaised e h

/-- An exception of the bridge's own reading is neither. -/
def Ordinary (e : PyExc) : Prop := e ≠ .cancelledError ∧ e.isTimeoutError = false

theorem LookRaises.of_ordinary {e : PyExc} (he : Ordinary e) : LookRaises turnId e latest h :=
  ⟨fun hc => absurd hc he.1, fun ht => by rw [he.2] at ht; cases ht⟩

theorem ordinary_index {key : String} {v : Json} {e : PyExc} (h : v.index key = .error e) :
    Ordinary e := by
  cases v with
  | obj fields =>
      simp only [Json.index] at h
      split at h
      · cases h
      · cases h
        exact ⟨by simp [PyExc.keyError], by simp [PyExc.keyError, PyExc.isTimeoutError]⟩
  | _ =>
      cases h
      exact ⟨by simp [PyExc.typeError], by simp [PyExc.typeError, PyExc.isTimeoutError]⟩

theorem bind_eq_error {ε α β : Type} {x : Except ε α} {f : α → Except ε β} {e : ε}
    (h : (x >>= f) = .error e) : x = .error e ∨ ∃ a, x = .ok a ∧ f a = .error e := by
  cases x with
  | error e' =>
      cases h
      exact .inl rfl
  | ok a => exact .inr ⟨a, rfl, h⟩

theorem ordinary_turnOn {page : Json} {e : PyExc} (h : turnOn turnId page = .error e) :
    Ordinary e := by
  have hfirst : ∀ turns : List Json, firstTurn turnId turns = .error e → Ordinary e := by
    intro turns
    induction turns with
    | nil =>
        intro hnone
        cases hnone
    | cons head rest ih =>
        intro hraised
        rcases bind_eq_error hraised with hindex | ⟨id, -, hrest⟩
        · exact ordinary_index hindex
        · split at hrest
          · cases hrest
          · exact ih hrest
  rcases bind_eq_error h with hindex | ⟨data, -, hdata⟩
  · exact ordinary_index hindex
  · rcases bind_eq_error hdata with hiterate | ⟨turns, -, hturns⟩
    · cases data with
      | arr items => cases hiterate
      | obj fields => cases hiterate
      | str s => cases hiterate
      | _ =>
          cases hiterate
          exact ⟨by simp [PyExc.typeError], by simp [PyExc.typeError, PyExc.isTimeoutError]⟩
    · exact hfirst turns hturns

theorem ordinary_settledNow {e : PyExc} (h : settledNow latest = .error e) : Ordinary e := by
  cases latest with
  | none => cases h
  | some turn =>
      simp only [settledNow] at h
      split at h
      · rcases bind_eq_error h with hget | ⟨status, -, hstatus⟩
        · cases turn with
          | obj fields => cases hget
          | _ =>
              cases hget
              exact ⟨by simp [PyExc.attributeError],
                by simp [PyExc.attributeError, PyExc.isTimeoutError]⟩
        · cases status with
          | arr items =>
              cases hstatus
              exact ⟨by simp [PyExc.typeError], by simp [PyExc.typeError, PyExc.isTimeoutError]⟩
          | obj fields =>
              cases hstatus
              exact ⟨by simp [PyExc.typeError], by simp [PyExc.typeError, PyExc.isTimeoutError]⟩
          | _ => cases hstatus
      · cases h

/-- One look: `latest` is what the page says, or the call failed. -/
theorem wp_look (hw : Watching turnId latest h) (hclean : ∀ e, ¬ CallRaised e h) :
    Co.wp WaitSpec (look threadId turnId)
      (fun _ latest' h' => Watching turnId latest' h' ∧ (∀ e, ¬ CallRaised e h') ∧ pages h' ≠ [] ∧
        ∃ event, h' = h ++ [event])
      (fun e latest' h' => LookRaises turnId e latest' h' ∧ ∃ event, h' = h ++ [event])
      latest h := by
  unfold look inspect Wait.call
  rw [Co.wp_bind, Co.wp_bind, Wait.wp_perform]
  refine ⟨trivial, ?_⟩
  rintro ⟨time, reply⟩
  cases reply with
  | error e =>
      refine ⟨⟨?_, ?_⟩, _, rfl⟩
      · rintro rfl
        refine ⟨hw.append rfl, fun e' he' => ?_⟩
        rcases callRaised_append.mp he' with he' | ⟨_, _, _, heq⟩
        · exact absurd he' (hclean e')
        · cases heq
          rfl
      · exact fun _ => callRaised_append.mpr (.inr ⟨_, _, _, rfl⟩)
  | ok page =>
      dsimp only
      rw [Co.wp_ofExcept]
      have hpages : ∀ params, pages (h ++ [⟨.call "thread/turns/list" params,
          (time, (.ok page : Except PyExc Json))⟩]) = pages h ++ [page] :=
        fun params => pages_append h _
      cases hturn : turnOn turnId page with
      | error e => exact ⟨LookRaises.of_ordinary (ordinary_turnOn hturn), _, rfl⟩
      | ok found =>
          refine ⟨⟨?_, ?_⟩, ?_, ?_, _, rfl⟩
          · intro page' hpage'
            rw [remember, hpages, List.getLast?_append] at hpage'
            obtain rfl := Option.some.inj hpage'
            exact hturn
          · intro hnone
            rw [remember, hpages] at hnone
            simp at hnone
          · intro e he
            rcases callRaised_append.mp he with he | ⟨_, _, _, heq⟩
            · exact hclean e he
            · cases heq
          · rw [remember, hpages]
            simp

/-- The loop, from a state in which nothing has failed. -/
theorem wp_poll (rounds : Nat) :
    ∀ {latest : Option Json} {h : WaitHistory}, Watching turnId latest h →
      (∀ e, ¬ CallRaised e h) →
      Co.wp WaitSpec (poll threadId turnId rounds)
        (fun _ latest' h' => (Watching turnId latest' h' ∧ (∀ e, ¬ CallRaised e h') ∧ pages h' ≠ [] ∧
          settledNow latest' = .ok true) ∧ h <+: h')
        (fun e latest' h' => LookRaises turnId e latest' h' ∧ h <+: h') latest h := by
  induction rounds with
  | zero =>
      intro latest h _ _
      unfold poll Wait.unrolled
      rw [Wait.wp_perform]
      exact ⟨trivial, fun r => r.2.elim⟩
  | succ rounds ih =>
      intro latest h hw hclean
      unfold poll
      rw [Co.wp_bind]
      refine Co.wp_conseq (observe_mono _ _) (wp_look hw hclean) ?_ ?_
      · rintro _ latest h' ⟨hw, hclean, hpages, event, rfl⟩
        rw [Co.wp_bind, Co.wp_get, Co.wp_bind, Co.wp_ofExcept]
        cases hsettled : settledNow latest with
        | error e =>
            exact ⟨LookRaises.of_ordinary (ordinary_settledNow hsettled), List.prefix_append _ _⟩
        | ok done =>
            cases done with
            | true => exact ⟨⟨hw, hclean, hpages, hsettled⟩, List.prefix_append _ _⟩
            | false =>
                show Co.wp _ (Wait.sleep >>= fun _ => poll threadId turnId rounds) _ _ _ _
                unfold Wait.sleep
                rw [Co.wp_bind, Wait.wp_perform]
                refine ⟨trivial, ?_⟩
                rintro ⟨time, cancelled⟩
                have hw' := hw.append (e := ⟨.sleep, (time, cancelled)⟩) rfl
                have hclean' : ∀ e, ¬ CallRaised e
                    ((h ++ [event]) ++ [⟨.sleep, (time, cancelled)⟩]) := by
                  intro e he
                  rcases callRaised_append.mp he with he | ⟨_, _, _, heq⟩
                  · exact hclean e he
                  · cases heq
                have hpre : h <+: (h ++ [event]) ++ [⟨.sleep, (time, cancelled)⟩] := by
                  rw [List.append_assoc]
                  exact List.prefix_append _ _
                cases cancelled with
                | true =>
                    refine ⟨⟨fun _ => ⟨hw', fun e he => absurd he (hclean' e)⟩, fun ht => ?_⟩, hpre⟩
                    cases ht
                | false =>
                    refine Co.wp_conseq (observe_mono _ _) (ih hw' hclean') ?_ ?_
                    · exact fun _ _ _ hend => ⟨hend.1, hpre.trans hend.2⟩
                    · exact fun _ _ _ hend => ⟨hend.1, hpre.trans hend.2⟩
      · rintro e latest' h' ⟨hraises, event, rfl⟩
        exact ⟨hraises, List.prefix_append _ _⟩

theorem watching_start : Watching turnId none [] :=
  ⟨fun _ hpage => (nomatch hpage), fun _ => rfl⟩

/-- **The course of a wait.**  It ends with a look, at its deadline, or on a
failure that was taken for the deadline. -/
theorem wp_observeTurn (rounds : Nat) :
    Co.wp WaitSpec (observeTurn threadId turnId rounds seconds)
      (fun _ latest' h' => Outcome turnId seconds latest' h') (fun _ _ _ => True) none [] := by
  unfold observeTurn
  have hempty : ∀ e, ¬ CallRaised e [] := by
    rintro e ⟨method, params, time, hmem⟩
    cases hmem
  by_cases hzero : seconds = 0
  · rw [if_pos hzero]
    refine Co.wp_conseq (observe_mono _ _) (wp_look watching_start hempty) ?_ fun _ _ _ _ => trivial
    rintro _ latest' h' ⟨hw, hclean, hpages, -⟩
    exact .looked hw hclean hpages (.inl hzero)
  · rw [if_neg hzero, Co.wp_tryCatch]
    unfold Wait.timeout Wait.arm
    rw [Co.wp_bind, Wait.wp_perform]
    refine ⟨trivial, ?_⟩
    rintro ⟨armed, -⟩
    have harmed : ∀ e, ¬ CallRaised e [⟨.arm seconds, (armed, ())⟩] := by
      intro e he
      rcases callRaised_append (h := []).mp he with he | ⟨_, _, _, heq⟩
      · exact hempty e he
      · cases heq
    have hwatch : Watching turnId none [⟨.arm seconds, (armed, ())⟩] :=
      watching_start.append (h := []) rfl
    show Co.wp _ (Co.tryCatch _ _) _ _ _ _
    rw [Co.wp_tryCatch]
    refine Co.wp_conseq (observe_mono _ _) (wp_poll rounds hwatch harmed) ?_ ?_
    · rintro _ latest' h' ⟨⟨hw, hclean, hpages, hsettled⟩, -⟩
      exact .looked hw hclean hpages (.inr hsettled)
    · rintro e latest' h' ⟨hraises, mid, rfl⟩
      cases e with
      | cancelledError =>
          obtain ⟨hw, honly⟩ := hraises.cancelled rfl
          show Co.wp _ (Wait.expired >>= _) _ _ _ _
          unfold Wait.expired
          rw [Co.wp_bind, Wait.wp_perform]
          refine ⟨trivial, ?_⟩
          rintro ⟨struck, own⟩
          cases own with
          | false => trivial
          | true =>
              refine .expired armed struck [] mid (hw.append rfl) (fun e he => ?_) ?_
              · rcases callRaised_append.mp he with he | ⟨_, _, _, heq⟩
                · exact honly e he
                · cases heq
              · simp [remember]
      | exception cls message =>
          show Co.wp _ (if _ then _ else _) _ _ _ _
          by_cases htime : (PyExc.exception cls message).isTimeoutError = true
          · rw [if_pos htime]
            exact .swallowed _ (hraises.timedOut htime) htime
          · rw [if_neg htime]
            trivial
      | rpcError method error => trivial
      | worktreeError message => trivial

end Course

/-! ## §7. What a report rests on. -/

section Reports

variable {threadId turnId : String} {seconds : ℚ} {latest : Option Json} {h : WaitHistory}

/-- The course of a wait that reports. -/
theorem waitThread_report {rounds : Nat} {report : Json}
    (hrun : Run (waitThread threadId turnId rounds seconds none) h (.ret (.ok report, latest))) :
    Outcome turnId seconds latest h ∧ ∃ terminal, terminalAtEnd latest = .ok terminal ∧
      report = reportOf threadId turnId latest terminal := by
  have hwp : Co.wp WaitSpec (waitThread threadId turnId rounds seconds)
      (fun report latest h => Outcome turnId seconds latest h ∧
        ∃ terminal, terminalAtEnd latest = .ok terminal ∧
          report = reportOf threadId turnId latest terminal)
      (fun _ _ _ => True) none [] := by
    unfold waitThread
    refine Co.Leads.ofExcept_bind fun _ _ => Co.Leads.ofExcept_bind fun _ _ => ?_
    split
    · trivial
    · refine Co.Leads.bind (observe_mono _ _) (wp_observeTurn rounds) ?_
      intro _ latest h hcourse
      show Co.wp _ _ _ _ _ _
      rw [Co.wp_bind, Co.wp_get]
      exact Co.Leads.ofExcept_bind fun terminal hterminal => ⟨hcourse, terminal, hterminal, rfl⟩
  have hend := wp_run_ret hwp hrun
  rw [foldl_remember, List.nil_append] at hend
  exact hend

/-- The turn that was observed is the turn that was asked for. -/
theorem Watching.turn_id (hw : Watching turnId latest h) {turn : Json} (hturn : latest = some turn) :
    turn.index "id" = .ok (.str turnId) := by
  cases hlast : (pages h).getLast? with
  | none =>
      rw [hw.unseen (List.getLast?_eq_none_iff.mp hlast)] at hturn
      cases hturn
  | some page => exact turnOn_id (hturn ▸ hw.seen page hlast)

/-- A turn that was not observed is on no last page. -/
theorem Watching.unobserved (hw : Watching turnId latest h) (hpages : pages h ≠ [])
    (hobserved : latest.any Json.truthy = false) :
    ∃ page, (pages h).getLast? = some page ∧ ¬ Lists turnId page := by
  obtain ⟨page, hlast⟩ := Option.isSome_iff_exists.mp (List.getLast?_isSome.mpr hpages)
  refine ⟨page, hlast, ?_⟩
  cases latest with
  | none => exact not_lists (hw.seen page hlast)
  | some turn =>
      rw [Option.any_some, truthy_of_id (hw.turn_id rfl)] at hobserved
      cases hobserved

theorem hasEnded_latest {terminal : Bool} (hterminal : terminalAtEnd latest = .ok terminal) :
    terminal = true ↔ HasEnded (latest.getD .null) := by
  cases latest with
  | none =>
      obtain rfl := Except.ok.inj hterminal
      simp [HasEnded, Json.getNone, Json.getField, Except.map]
  | some turn => exact statusTerminal_iff hterminal

theorem reports_timedOut {terminal : Bool} (hterminal : terminalAtEnd latest = .ok terminal) :
    ∃ turn timedOut, (reportOf threadId turnId latest terminal).index "turn" = .ok turn ∧
      (reportOf threadId turnId latest terminal).index "timedOut" = .ok (.bool timedOut) ∧
      (timedOut = false ↔ HasEnded turn) := by
  refine ⟨_, _, reported_turn, reported_timedOut, ?_⟩
  rw [hasEnded_clipped, ← hasEnded_latest hterminal, Bool.not_eq_false']

theorem unobserved_of_observation {terminal : Bool}
    (h : (reportOf threadId turnId latest terminal).index "observation"
      = .ok (.str notObserved)) : latest.any Json.truthy = false := by
  rw [reported_observation] at h
  by_cases hobserved : latest.any Json.truthy = true
  · rw [if_pos hobserved] at h
    exact absurd (Json.str.inj (Except.ok.inj h)) (by decide)
  · exact Bool.eq_false_iff.mpr hobserved

/-- What a report always says of the turn it observed. -/
theorem Watching.reports_turn (hw : Watching turnId latest h) (terminal : Bool) :
    ∃ turn, (reportOf threadId turnId latest terminal).index "turn" = .ok turn ∧
      (turn = .null ∨ turn.index "id" = .ok (.str turnId)) := by
  refine ⟨_, reported_turn, ?_⟩
  cases latest with
  | none => exact .inl rfl
  | some turn => exact .inr ((index_clipped rfl).mpr (hw.turn_id rfl))

/-- A report that follows a look. -/
theorem Watching.reports_looked (hw : Watching turnId latest h) (hclean : ∀ e, ¬ CallRaised e h)
    (hpages : pages h ≠ []) (hend : seconds = 0 ∨ settledNow latest = .ok true) {terminal : Bool}
    (hterminal : terminalAtEnd latest = .ok terminal) :
    Reports turnId seconds h (reportOf threadId turnId latest terminal) where
  turn := hw.reports_turn terminal
  timedOut := reports_timedOut hterminal
  observation := fun hobs => hw.unobserved hpages (unobserved_of_observation hobs)
  elapsed := by
    intro htimed hpos
    rcases hend with hzero | hsettled
    · rw [hzero] at hpos
      exact absurd hpos (by decide)
    · cases latest with
      | none => cases hsettled
      | some turn =>
          simp only [settledNow] at hsettled
          split at hsettled
          · obtain rfl : terminal = true := Except.ok.inj (hterminal.symm.trans hsettled)
            rw [reported_timedOut] at htimed
            cases htimed
          · cases hsettled
  raised := fun e he => absurd he (hclean e)

/-- A report that follows the deadline. -/
theorem Watching.reports_expired {armed struck : ℚ} {pre mid : WaitHistory}
    (hw : Watching turnId latest h) (honly : OnlyCancelled h) (hclock : Punctual h)
    (hpages : pages h ≠ [])
    (hh : h = pre ++ ⟨.arm seconds, (armed, ())⟩ :: (mid ++ [⟨.expired, (struck, true)⟩]))
    {terminal : Bool} (hterminal : terminalAtEnd latest = .ok terminal) :
    Reports turnId seconds h (reportOf threadId turnId latest terminal) := by
  have hstruck : Struck seconds armed struck h := ⟨pre, mid, [], hh⟩
  have hlast : h.getLast? = some ⟨.expired, (struck, true)⟩ := by
    rw [hh, ← List.cons_append, ← List.append_assoc, List.getLast?_concat]
  have harmed : (⟨.arm seconds, (armed, ())⟩ : Event WaitAns) ∈ h := by
    rw [hh]
    exact List.mem_append_right _ List.mem_cons_self
  exact {
    turn := hw.reports_turn terminal
    timedOut := reports_timedOut hterminal
    observation := fun hobs => hw.unobserved hpages (unobserved_of_observation hobs)
    elapsed := fun _ _ => ⟨armed, _, harmed, hlast, hclock _ _ _ hstruck⟩
    raised := fun e he => ⟨honly e he, armed, struck, hstruck⟩ }

/-- **Waiting.**  A report says only what was observed, if and only if no
connection attempt of the wait ended in a `TimeoutError` of its own and a page
was received. -/
theorem waitThread_reports_iff {rounds : Nat} {report : Json}
    (hrun : Run (waitThread threadId turnId rounds seconds none) h (.ret (.ok report, latest)))
    (hclock : Punctual h) :
    Reports turnId seconds h report ↔
      (∀ e, CallRaised e h → e.isTimeoutError = false) ∧ pages h ≠ [] := by
  obtain ⟨hcourse, terminal, hterminal, rfl⟩ := waitThread_report hrun
  constructor
  · intro hreports
    have hnone : ∀ e, CallRaised e h → e.isTimeoutError = false := by
      intro e he
      rw [(hreports.raised e he).1]
      rfl
    refine ⟨hnone, fun hpages => ?_⟩
    cases hcourse with
    | looked _ _ hsome _ => exact hsome hpages
    | expired armed struck pre mid hw _ _ =>
        have hlatest := hw.unseen hpages
        subst hlatest
        obtain ⟨page, hpage, -⟩ := hreports.observation reported_observation
        rw [hpages] at hpage
        cases hpage
    | swallowed e he htime =>
        rw [hnone e he] at htime
        cases htime
  · rintro ⟨hnone, hpages⟩
    cases hcourse with
    | looked hw hclean _ hend => exact hw.reports_looked hclean hpages hend hterminal
    | expired armed struck pre mid hw honly hh =>
        exact hw.reports_expired honly hclock hpages hh hterminal
    | swallowed e he htime =>
        rw [hnone e he] at htime
        cases htime

end Reports

/-- The clock need only be read at the deadlines. -/
theorem punctual_of_mem {h : WaitHistory}
    (hclock : ∀ seconds armed struck, (⟨.arm seconds, (armed, ())⟩ : Event WaitAns) ∈ h →
      (⟨.expired, (struck, true)⟩ : Event WaitAns) ∈ h → armed + seconds ≤ struck) : Punctual h := by
  rintro seconds armed struck ⟨pre, mid, post, rfl⟩
  refine hclock seconds armed struck ?_ ?_
  · exact List.mem_append_right _ List.mem_cons_self
  · exact List.mem_append_right _ (List.mem_cons_of_mem _
      (List.mem_append_right _ List.mem_cons_self))

/-- A turn in progress. -/
def inProgress : Json := .obj [("id", .str "u"), ("status", .str "inProgress")]

/-- The request for the turns of thread `t`. -/
def listTurns : WaitOp :=
  .call "thread/turns/list"
    [("threadId", .str "t"), ("limit", .int 100), ("itemsView", .str "summary")]

/-- A wait of one second sees a page, and its deadline strikes in the sleep. -/
def struckInSleep : WaitHistory :=
  [⟨.arm 1, (0, ())⟩, ⟨listTurns, (0, .ok (.obj [("data", .arr [inProgress])]))⟩,
   ⟨.sleep, (1, true)⟩, ⟨.expired, (1, true)⟩]

theorem waitThread_reports_struckInSleep :
    Reports "u" 1 struckInSleep (reportOf "t" "u" (some inProgress) false) := by
  have hrun : Run (waitThread "t" "u" 1 1 none) struckInSleep
      (.ret (.ok (reportOf "t" "u" (some inProgress) false), some inProgress)) := by
    have harm := Run.step (ρ := WaitAns) (i := .arm 1) (0, ())
      (Run.start (p := waitThread "t" "u" 1 1 none))
    have hpage := Run.step (ρ := WaitAns) (i := listTurns)
      (0, .ok (.obj [("data", .arr [inProgress])])) harm
    have hsleep := Run.step (ρ := WaitAns) (i := .sleep) (1, true) hpage
    exact Run.step (ρ := WaitAns) (i := .expired) (1, true) hsleep
  have hclock : Punctual struckInSleep := by
    refine punctual_of_mem fun seconds armed struck harm hstruck => ?_
    simp [struckInSleep, listTurns] at harm hstruck
    obtain ⟨⟨rfl, rfl⟩, rfl⟩ : (seconds = 1 ∧ armed = 0) ∧ struck = 1 := ⟨harm, hstruck⟩
    decide +kernel
  refine (waitThread_reports_iff hrun hclock).mpr ⟨?_, ?_⟩
  · rintro e ⟨method, params, time, hmem⟩
    simp [struckInSleep, listTurns] at hmem
  · simp [pages, receivedPage, struckInSleep, listTurns]

/-! ## §8. Two reports of nothing. -/

/-- What the daemon answers when its handshake takes too long. -/
def handshakeTimesOut : (op : NetOp) → NetAns op
  | .lock => .ok ()
  | .unlock => ()
  | .readerAlive => false
  | .socketExists => .ok true
  | .openTransport => .error (.exception "TimeoutError" "")
  | .startReader => ()
  | .ws => none
  | .register => 0
  | .send _ _ => .ok ()
  | .awaitReply _ => .ok []
  | .unregister _ => ()
  | .setInfo _ => ()
  | .closeTransport _ => .ok ()
  | .clearWs => ()
  | .reader => none
  | .cancelReader _ => ()
  | .joinReader _ => .ok ()
  | .clearReader => ()

/-- A call whose connection attempt times out raises that `TimeoutError`. -/
theorem AppServer.call_timesOut [Endpoint] (method : String) (params : Dict) :
    ∃ h, Run (AppServer.call method params ()) h (.ret (.error timeoutError, ())) :=
  ⟨_, Run.eval handshakeTimesOut (AppServer.call method params ())⟩

/-- A wait of fifty seconds whose connection attempt times out after twenty. -/
def handshakeTimeout : WaitHistory :=
  [⟨.arm 50, (0, ())⟩, ⟨listTurns, (20, .error timeoutError)⟩]

/-- A wait of one second whose deadline strikes before any page. -/
def struckInCall : WaitHistory :=
  [⟨.arm 1, (0, ())⟩, ⟨listTurns, (1, .error .cancelledError)⟩, ⟨.expired, (1, true)⟩]

/-- Either is reported as a thread that does not list the turn. -/
theorem waitThread_reports_nothing :
    (Run (waitThread "t" "u" 1 50 none) handshakeTimeout
        (.ret (.ok (reportOf "t" "u" none false), none)) ∧
      ¬ Reports "u" 50 handshakeTimeout (reportOf "t" "u" none false)) ∧
    (Run (waitThread "t" "u" 1 1 none) struckInCall
        (.ret (.ok (reportOf "t" "u" none false), none)) ∧
      ¬ Reports "u" 1 struckInCall (reportOf "t" "u" none false)) := by
  refine ⟨⟨?_, ?_⟩, ?_, ?_⟩
  · have harm := Run.step (ρ := WaitAns) (i := .arm 50) (0, ())
      (Run.start (p := waitThread "t" "u" 1 50 none))
    exact Run.step (ρ := WaitAns) (i := listTurns) (20, .error timeoutError) harm
  · intro hreports
    have he := (hreports.raised timeoutError ⟨_, _, 20, List.mem_cons_of_mem _
      (List.mem_singleton.mpr rfl)⟩).1
    cases he
  · have harm := Run.step (ρ := WaitAns) (i := .arm 1) (0, ())
      (Run.start (p := waitThread "t" "u" 1 1 none))
    have hcall := Run.step (ρ := WaitAns) (i := listTurns) (1, .error .cancelledError) harm
    exact Run.step (ρ := WaitAns) (i := .expired) (1, true) hcall
  · intro hreports
    obtain ⟨page, hpage, -⟩ := hreports.observation reported_observation
    cases hpage

end CodexRemoteBridge
