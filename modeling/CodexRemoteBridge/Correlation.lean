/-
  CodexRemoteBridge.Correlation — which answer a call returns.

  The peer may send anything: responses in any order, late or twice,
  requests of its own with the same numbers, and what is no JSON.

  Main result: `Link.correlation`.
-/
import CodexRemoteBridge.EventLoop

namespace CodexRemoteBridge.Link

open Interaction

/-! ## §1. What a call has to show for its result. -/

/-- The identifiers taken from the counter. -/
def registeredIds (log : List Entry) : List Nat :=
  log.filterMap fun
    | .registered _ ident => some ident
    | _ => none

/-- The identifiers of the requests transmitted. -/
def sentIds (log : List Entry) : List Nat :=
  log.filterMap fun
    | .sent _ _ frame => frame.id
    | _ => none

/-- A message without a method whose id compares equal to `ident` has
arrived while task `i` had that identifier pending. -/
def Answered (log : List Entry) (i ident : Nat) (message : Dict) : Prop :=
  ∃ before after c, log = before ++ .arrived c (.ok (.obj message)) :: after ∧
    .registered i ident ∈ before ∧ .unregistered ident ∉ before ∧
    message.get? "method" = none ∧
    ((message.get? "id").getD .null).pyEq (.int ident) = true

/-- What a call has transmitted: of requests, the handshake and its own. -/
def Transmitted (log : List Entry) (i : Nat) (o : Invocation) (own : Option Nat) : Prop :=
  ∀ c frame, .sent i c frame ∈ log →
    frame = .initialized ∨
    (∃ ident, own ≠ some ident ∧ frame = Purpose.handshake.frame ident) ∨
    ∃ ident method params, own = some ident ∧ o = .call method params ∧
      frame = (Purpose.own method params).frame ident

/-- Where an error of the peer comes from: the call's own request, or the
handshake that the call has made. -/
def Blamed (log : List Entry) (i : Nat) (o : Invocation) (own : Option Nat) (e : PyExc) : Prop :=
  ∀ method error, e = .rpcError method error →
    ∃ ident message, Answered log i ident message ∧
      message.get? "error" = some (.obj error) ∧
      (own = some ident ∧ (∃ params, o = .call method params) ∨
        own ≠ some ident ∧ method = "initialize")

/-- The value is the result that came for the call's own request. -/
def Delivered (log : List Entry) (i : Nat) (own : Option Nat) (value : Json) : Prop :=
  ∃ ident message, own = some ident ∧ Answered log i ident message ∧
    message.get? "error" = none ∧ message.get? "result" = some value

/-! ## §2. What the log keeps. -/

section Log

variable {log : List Entry} {i ident : Nat} {message : Dict} {o : Invocation} {own : Option Nat}

@[simp] theorem registeredIds_append (log log' : List Entry) :
    registeredIds (log ++ log') = registeredIds log ++ registeredIds log' :=
  List.filterMap_append

@[simp] theorem sentIds_append (log log' : List Entry) :
    sentIds (log ++ log') = sentIds log ++ sentIds log' := List.filterMap_append

theorem mem_registeredIds : ident ∈ registeredIds log ↔ ∃ i, .registered i ident ∈ log := by
  unfold registeredIds
  rw [List.mem_filterMap]
  constructor
  · rintro ⟨e, he, h⟩
    cases e with
    | registered i n =>
        obtain rfl := Option.some.inj h
        exact ⟨i, he⟩
    | _ => cases h
  · rintro ⟨i, h⟩
    exact ⟨_, h, rfl⟩

theorem mem_sentIds : ident ∈ sentIds log ↔ ∃ i c frame, .sent i c frame ∈ log ∧
    frame.id = some ident := by
  unfold sentIds
  rw [List.mem_filterMap]
  constructor
  · rintro ⟨e, he, h⟩
    cases e with
    | sent i c frame => exact ⟨i, c, frame, he, h⟩
    | _ => cases h
  · rintro ⟨i, c, frame, h, hid⟩
    exact ⟨_, h, hid⟩

theorem Answered.append (h : Answered log i ident message) (es : List Entry) :
    Answered (log ++ es) i ident message := by
  obtain ⟨before, after, c, rfl, hrest⟩ := h
  exact ⟨before, after ++ es, c, by simp, hrest⟩

theorem Blamed.append {e : PyExc} (h : Blamed log i o own e) (es : List Entry) :
    Blamed (log ++ es) i o own e := by
  intro method error he
  obtain ⟨ident, message, hanswered, hrest⟩ := h method error he
  exact ⟨ident, message, hanswered.append es, hrest⟩

theorem Delivered.append {value : Json} (h : Delivered log i own value) (es : List Entry) :
    Delivered (log ++ es) i own value := by
  obtain ⟨ident, message, hown, hanswered, hrest⟩ := h
  exact ⟨ident, message, hown, hanswered.append es, hrest⟩

/-- Only what the task itself transmits matters. -/
theorem Transmitted.append (h : Transmitted log i o own) {es : List Entry}
    (hes : ∀ c frame, .sent i c frame ∉ es) : Transmitted (log ++ es) i o own := by
  intro c frame hmem
  rcases List.mem_append.mp hmem with hold | hnew
  · exact h c frame hold
  · exact absurd hnew (hes c frame)

end Log

/-- An exception that is no error of the peer. -/
def Plain (e : PyExc) : Prop := ∀ method error, e ≠ .rpcError method error

theorem plain_raised (fault : Fault) : Plain fault.raised := by
  intro method error h
  cases fault <;> cases h

theorem plain_hidden (q : Purpose) (fault : Fault) : Plain (Station.hidden q fault) := by
  unfold Station.hidden
  split
  · intro method error h
    cases h
  · exact plain_raised fault

theorem Plain.blamed {log : List Entry} {i : Nat} {o : Invocation} {own : Option Nat} {e : PyExc}
    (h : Plain e) : Blamed log i o own e := fun method error he => absurd he (h method error)

/-- What `reply` makes of a message. -/
theorem reply_ok {method : String} {message : Dict} {value : Json}
    (h : AppServer.reply method message = .ok value) :
    message.get? "error" = none ∧ message.get? "result" = some value := by
  unfold AppServer.reply at h
  split at h
  · cases h
  · cases h
  · rename_i herror
    split at h
    · rename_i result hresult
      obtain rfl := Except.ok.inj h
      exact ⟨herror, hresult⟩
    · cases h

theorem reply_rpcError {method m : String} {message error : Dict}
    (h : AppServer.reply method message = .error (.rpcError m error)) :
    m = method ∧ message.get? "error" = some (.obj error) := by
  unfold AppServer.reply at h
  split at h
  · rename_i herror
    cases h
    exact ⟨rfl, herror⟩
  · cases h
  · split at h <;> cases h

/-! ## §3. What a station stands for. -/

/-- The exception that is on its way. -/
def errandError : Errand → Option PyExc
  | .failed error => some error
  | _ => none

def stationError : Station → Option PyExc
  | .leaving (.error error) => some error
  | .shutting why => errandError why
  | .closing why _ => errandError why
  | .clearing why _ => errandError why
  | .reading why _ => errandError why
  | .cancelling why _ _ => errandError why
  | .joining why _ => errandError why
  | .forgetting why => errandError why
  | .withdrawing _ _ _ (.error error) => some error
  | .ended (.error error) => some error
  | _ => none

/-- The identifier of the call's own request, where that is settled. -/
def stationOwn : Station → Option (Option Nat)
  | .sending (.own _ _) _ ident => some (some ident)
  | .awaiting (.own _ _) _ ident => some (some ident)
  | .withdrawing (.own _ _) _ ident _ => some (some ident)
  | .ended _ => none
  | _ => some none

/-- What the request that is being made is for. -/
def stationPurpose : Station → Option Purpose
  | .requesting q => some q
  | .registering q _ => some q
  | .sending q _ _ => some q
  | .awaiting q _ _ => some q
  | .withdrawing q _ _ _ => some q
  | _ => none

/-- Closing for its own sake. -/
def errandAlone : Errand → Bool
  | .alone => true
  | _ => false

def stationAlone : Station → Bool
  | .shutting why => errandAlone why
  | .closing why _ => errandAlone why
  | .clearing why _ => errandAlone why
  | .reading why _ => errandAlone why
  | .cancelling why _ _ => errandAlone why
  | .joining why _ => errandAlone why
  | .forgetting why => errandAlone why
  | _ => false

/-- The account a task can give of its transmissions and of its result. -/
structure Account (log : List Entry) (i : Nat) (p : Spot) (own : Option Nat) : Prop where
  settled : ∀ x, stationOwn p.station = some x → own = x
  registered : ∀ ident, own = some ident → .registered i ident ∈ log
  transmitted : Transmitted log i p.origin own
  blamed : ∀ e, stationError p.station = some e → Blamed log i p.origin own e
  delivered : ∀ method params value, p.origin = .call method params →
    p.station = .ended (.ok value) → Delivered log i own value

/-- What holds of the log, the table and one task. -/
structure Tallies (log : List Entry) (pending : List (Nat × Future)) (transit : Transit)
    (runs : Bool) (i : Nat) (p : Spot) : Prop where
  registered : ∀ ident, p.station.ident = some ident → .registered i ident ∈ log
  pending : ∀ ident f, (ident, f) ∈ pending → .registered i ident ∈ log →
    p.station.ident = some ident
  unsent : ∀ q c ident, p.station = .sending q c ident →
    runs = true ∨ transit = .queued c (q.frame ident) → ident ∉ sentIds log
  got : ∀ q c ident message, p.station = .withdrawing q c ident (.ok message) →
    Answered log i ident message
  purpose : ∀ method params, stationPurpose p.station = some (.own method params) →
    p.origin = .call method params
  alone : stationAlone p.station = true → p.origin = .close
  account : ∃ own, Account log i p own

/-- What holds of the log and the table. -/
structure Ordered (log : List Entry) (pending : List (Nat × Future)) (counter n : Nat) :
    Prop where
  below : ∀ i ident, .registered i ident ∈ log → i < n ∧ ident ≤ counter
  closed : ∀ ident, .unregistered ident ∈ log → ident ≤ counter
  once : (registeredIds log).Nodup
  owner : ∀ i i' ident, .registered i ident ∈ log → .registered i' ident ∈ log → i = i'
  sentOnce : (sentIds log).Nodup
  sender : ∀ i c frame, .sent i c frame ∈ log → i < n
  sent : ∀ i c frame ident, .sent i c frame ∈ log → frame.id = some ident →
    .registered i ident ∈ log
  keys : ∀ ident f, (ident, f) ∈ pending →
    (∃ i, .registered i ident ∈ log) ∧ .unregistered ident ∉ log
  answers : ∀ i ident message, (ident, .resolved message) ∈ pending →
    .registered i ident ∈ log → Answered log i ident message

/-- The outline of correlation. -/
def tally : Outline Link Spot where
  Inv s n := Ordered s.log s.pending s.counter n
  Agree s runs i p := Tallies s.log s.pending (s.transit i) runs i p

/-- Entries that are no new identifiers keep the order. -/
theorem Ordered.append {log es : List Entry} {pending pending' : List (Nat × Future)}
    {counter n : Nat} (h : Ordered log pending counter n)
    (hregistered : ∀ i ident, .registered i ident ∉ es)
    (hclosed : ∀ ident, .unregistered ident ∈ es → ident ≤ counter)
    (hsent : ∀ i c frame, .sent i c frame ∈ es →
      i < n ∧ ∀ ident, frame.id = some ident → .registered i ident ∈ log)
    (honce : (sentIds (log ++ es)).Nodup)
    (hkeys : ∀ ident f, (ident, f) ∈ pending' →
      (∃ f', (ident, f') ∈ pending) ∧ .unregistered ident ∉ es)
    (hanswers : ∀ ident message, (ident, .resolved message) ∈ pending' →
      (ident, .resolved message) ∈ pending ∨
        ∀ i, .registered i ident ∈ log → Answered (log ++ es) i ident message) :
    Ordered (log ++ es) pending' counter n := by
  have hold : ∀ i ident, .registered i ident ∈ log ++ es → .registered i ident ∈ log := by
    intro i ident hmem
    rcases List.mem_append.mp hmem with hold | hnew
    · exact hold
    · exact absurd hnew (hregistered i ident)
  have hnone : registeredIds es = [] := by
    apply List.eq_nil_iff_forall_not_mem.mpr
    intro ident hmem
    obtain ⟨i, hi⟩ := mem_registeredIds.mp hmem
    exact hregistered i ident hi
  refine
    { below := fun i ident hmem => h.below i ident (hold i ident hmem)
      closed := ?_
      once := ?_
      owner := fun i i' ident h₁ h₂ => h.owner i i' ident (hold i ident h₁) (hold i' ident h₂)
      sentOnce := honce
      sender := ?_
      sent := ?_
      keys := ?_
      answers := ?_ }
  · intro ident hmem
    rcases List.mem_append.mp hmem with hmem | hnew
    · exact h.closed ident hmem
    · exact hclosed ident hnew
  · rw [registeredIds_append, hnone, List.append_nil]
    exact h.once
  · intro i c frame hmem
    rcases List.mem_append.mp hmem with hmem | hnew
    · exact h.sender i c frame hmem
    · exact (hsent i c frame hnew).1
  · intro i c frame ident hmem hid
    apply List.mem_append_left
    rcases List.mem_append.mp hmem with hmem | hnew
    · exact h.sent i c frame ident hmem hid
    · exact (hsent i c frame hnew).2 ident hid
  · intro ident f hmem
    obtain ⟨⟨f', hf'⟩, hnew⟩ := hkeys ident f hmem
    obtain ⟨⟨i, hi⟩, hopen⟩ := h.keys ident f' hf'
    refine ⟨⟨i, List.mem_append_left _ hi⟩, fun hmem => ?_⟩
    rcases List.mem_append.mp hmem with hmem | hmem
    · exact hopen hmem
    · exact hnew hmem
  · intro i ident message hmem hreg
    rcases hanswers ident message hmem with hmem | hnew
    · exact (h.answers i ident message hmem (hold i ident hreg)).append es
    · exact hnew i (hold i ident hreg)

/-- An account stays true while other tasks transmit. -/
theorem Account.append {log es : List Entry} {i : Nat} {p : Spot} {own : Option Nat}
    (h : Account log i p own) (hes : ∀ c frame, .sent i c frame ∉ es) :
    Account (log ++ es) i p own where
  settled := h.settled
  registered := fun ident hi => List.mem_append_left _ (h.registered ident hi)
  transmitted := h.transmitted.append hes
  blamed := fun e he => (h.blamed e he).append es
  delivered := fun method params value ho hst => (h.delivered method params value ho hst).append es

/-! ## §4. A task moves on. -/

section Moves

variable {log es : List Entry} {pending pending' : List (Nat × Future)} {tr tr' : Transit}
  {runs runs' : Bool} {i : Nat} {o : Invocation} {st st' : Station}

/-- A task that goes on without a word. -/
theorem Tallies.go (h : Tallies log pending tr runs i ⟨o, st⟩) (hident : st'.ident = st.ident)
    (hown : ∀ x, stationOwn st' = some x → stationOwn st = some x)
    (herror : ∀ e, stationError st' = some e → stationError st = some e ∨ Plain e)
    (hpurpose : ∀ q, stationPurpose st' = some q → stationPurpose st = some q)
    (halone : stationAlone st' = true → stationAlone st = true)
    (hsending : ∀ q c ident, st' ≠ .sending q c ident)
    (hgot : ∀ q c ident message, st' ≠ .withdrawing q c ident (.ok message))
    (hended : ∀ method params value, o = .call method params → st' ≠ .ended (.ok value)) :
    Tallies log pending tr' runs' i ⟨o, st'⟩ where
  registered := fun ident hi => h.registered ident (hident ▸ hi)
  pending := fun ident f hmem hreg => hident.trans (h.pending ident f hmem hreg)
  unsent := fun q c ident hst => absurd hst (hsending q c ident)
  got := fun q c ident message hst => absurd hst (hgot q c ident message)
  purpose := fun method params hq => h.purpose method params (hpurpose _ hq)
  alone := fun ha => h.alone (halone ha)
  account := by
    obtain ⟨own, hacc⟩ := h.account
    refine ⟨own, fun x hx => hacc.settled x (hown x hx), hacc.registered, hacc.transmitted, ?_,
      fun method params value ho hst => absurd hst (hended method params value ho)⟩
    intro e he
    rcases herror e he with hold | hplain
    · exact hacc.blamed e hold
    · exact hplain.blamed

/-- Other tasks have written to the log. -/
theorem Tallies.spared {p : Spot} (h : Tallies log pending tr false i p)
    (hregistered : ∀ ident, .registered i ident ∉ es) (hsent : ∀ c frame, .sent i c frame ∉ es)
    (hother : ∀ ident, p.station.ident = some ident → ident ∉ sentIds es)
    (hpending : ∀ ident f, (ident, f) ∈ pending' → .registered i ident ∈ log →
      ∃ f', (ident, f') ∈ pending) :
    Tallies (log ++ es) pending' tr false i p where
  registered := fun ident hi => List.mem_append_left _ (h.registered ident hi)
  pending := by
    intro ident f hmem hreg
    rcases List.mem_append.mp hreg with hold | hnew
    · obtain ⟨f', hf'⟩ := hpending ident f hmem hold
      exact h.pending ident f' hf' hold
    · exact absurd hnew (hregistered ident)
  unsent := by
    intro q c ident hst htr hmem
    rw [sentIds_append] at hmem
    rcases List.mem_append.mp hmem with hold | hnew
    · exact h.unsent q c ident hst htr hold
    · exact hother ident (by rw [hst]; rfl) hnew
  got := fun q c ident message hst => (h.got q c ident message hst).append es
  purpose := h.purpose
  alone := h.alone
  account := by
    obtain ⟨own, hacc⟩ := h.account
    exact ⟨own, hacc.append hsent⟩

/-- `close` comes to its end. -/
theorem Tallies.close {why : Errand} {r : Except PyExc Unit}
    (h : Tallies log pending tr runs i ⟨o, st⟩) (hident : st.ident = none)
    (hown : stationOwn st = some none) (herror : stationError st = errandError why)
    (halone : stationAlone st = errandAlone why) (hr : ∀ e, r = .error e → Plain e) :
    Tallies log pending tr' runs' i ⟨o, Station.closed why r⟩ := by
  cases r with
  | error e =>
      have hplain : Plain e := hr e rfl
      cases why with
      | alone =>
          refine h.go hident.symm (fun x hx => by cases hx) ?_ (fun q hq => by cases hq)
            (fun ha => by cases ha) nofun nofun nofun
          intro e' he'
          obtain rfl := Option.some.inj he'
          exact .inr hplain
      | room =>
          refine h.go hident.symm (fun x hx => hown.trans hx) ?_ (fun q hq => by cases hq)
            (fun ha => by cases ha) nofun nofun nofun
          intro e' he'
          obtain rfl := Option.some.inj he'
          exact .inr hplain
      | failed _ =>
          refine h.go hident.symm (fun x hx => hown.trans hx) ?_ (fun q hq => by cases hq)
            (fun ha => by cases ha) nofun nofun nofun
          intro e' he'
          obtain rfl := Option.some.inj he'
          exact .inr hplain
  | ok _ =>
      cases why with
      | alone =>
          have ho : o = .close := h.alone halone
          refine h.go hident.symm (fun x hx => by cases hx) (fun e he => by cases he)
            (fun q hq => by cases hq) (fun ha => by cases ha) nofun nofun ?_
          intro method params value hcall
          rw [ho] at hcall
          cases hcall
      | room =>
          exact h.go hident.symm (fun x hx => hown.trans hx) (fun e he => by cases he)
            (fun q hq => by cases hq) (fun ha => by cases ha) nofun nofun nofun
      | failed error =>
          exact h.go hident.symm (fun x hx => hown.trans hx)
            (fun e he => .inl (herror.trans he))
            (fun q hq => by cases hq) (fun ha => by cases ha) nofun nofun nofun

/-- `connect` comes to its end. -/
theorem Tallies.connect {r : Except PyExc Unit}
    (h : Tallies log pending tr runs i ⟨o, .leaving r⟩) :
    Tallies log pending tr' runs' i ⟨o, Station.connected o r⟩ := by
  cases r with
  | error e =>
      cases o <;>
        exact h.go rfl (fun x hx => by cases hx) (fun e he => .inl he) (fun q hq => by cases hq)
          (fun ha => by cases ha) nofun nofun nofun
  | ok _ =>
      cases o with
      | call method params =>
          have hgo : Tallies log pending tr' runs' i ⟨.call method params, .opening⟩ :=
            h.go rfl (fun x hx => hx) (fun e he => by cases he) (fun q hq => by cases hq)
              (fun ha => by cases ha) nofun nofun nofun
          refine ⟨hgo.registered, hgo.pending, nofun, nofun, ?_, nofun, ?_⟩
          · intro method' params' hq
            obtain ⟨rfl, rfl⟩ : method = method' ∧ params = params' := by
              simpa [Station.connected, stationPurpose] using hq
            rfl
          · obtain ⟨own, hacc⟩ := hgo.account
            exact ⟨own, hacc.settled, hacc.registered, hacc.transmitted,
              (fun e he => by cases he), nofun⟩
      | connect =>
          exact h.go rfl (fun x hx => by cases hx) (fun e he => by cases he)
            (fun q hq => by cases hq) (fun ha => by cases ha) nofun nofun nofun
      | close =>
          exact h.go rfl (fun x hx => by cases hx) (fun e he => by cases he)
            (fun q hq => by cases hq) (fun ha => by cases ha) nofun nofun nofun

end Moves

/-! ## §5. Every step keeps the tally. -/

section Steps

variable {R : Nat → Spot → Prop} {s s' : Link} {n i : Nat} {p : Spot}

/-- A step after which state and table are as before. -/
theorem tally_still {runs : Bool} {p' : Spot} (hinv : tally.Inv s n)
    (hown : Tallies s.log s.pending (s.transit i) runs i p') :
    Outline.Keeps R tally s s n i runs p' :=
  ⟨hinv, hown, fun _ _ _ _ h => h⟩

/-- The identifiers of two tasks differ. -/
theorem Ordered.apart {log : List Entry} {pending : List (Nat × Future)} {counter n i' ident : Nat}
    (h : Ordered log pending counter n) (hi : .registered i ident ∈ log)
    (hi' : .registered i' ident ∈ log) (hne : i' ≠ i) : False :=
  hne (h.owner i' i ident hi' hi)

section Register

variable {i : Nat} {o : Invocation} {q : Purpose} {c : Conn}

theorem Ordered.not_registered {log : List Entry} {pending : List (Nat × Future)}
    {counter n : Nat} (h : Ordered log pending counter n) (i' : Nat) :
    .registered i' (counter + 1) ∉ log := by
  intro hmem
  have hle := (h.below i' _ hmem).2
  omega

/-- Who has an identifier, once a new one is registered. -/
theorem registered_append {log : List Entry} {i i' ident ident' : Nat}
    (h : .registered i' ident' ∈ log ++ [Entry.registered i ident]) :
    .registered i' ident' ∈ log ∨ i' = i ∧ ident' = ident := by
  rcases List.mem_append.mp h with hold | hlast
  · exact .inl hold
  · cases List.mem_singleton.mp hlast
    exact .inr ⟨rfl, rfl⟩

/-- The counter goes up, and the new identifier is the last. -/
theorem Ordered.register {log : List Entry} {pending : List (Nat × Future)} {counter n : Nat}
    (hinv : Ordered log pending counter n) (hin : i < n) :
    Ordered (log ++ [.registered i (counter + 1)]) (pending ++ [(counter + 1, .waiting)])
      (counter + 1) n := by
  have hfresh := hinv.not_registered
  -- of anything else there is no more than before
  have hold : ∀ e, (∀ i' ident, e ≠ .registered i' ident) →
      e ∈ log ++ [.registered i (counter + 1)] → e ∈ log := by
    intro e hne hmem
    rcases List.mem_append.mp hmem with hold | hlast
    · exact hold
    · exact absurd (List.mem_singleton.mp hlast) (hne i (counter + 1))
  refine
    { below := ?_
      closed := ?_
      once := ?_
      owner := ?_
      sentOnce := ?_
      sender := fun i' c' frame hmem => hinv.sender i' c' frame (hold _ nofun hmem)
      sent := ?_
      keys := ?_
      answers := ?_ }
  · intro i' ident hmem
    rcases registered_append hmem with hold | ⟨rfl, rfl⟩
    · have hb := hinv.below i' ident hold
      exact ⟨hb.1, Nat.le_succ_of_le hb.2⟩
    · exact ⟨hin, Nat.le_refl _⟩
  · intro ident hmem
    exact Nat.le_succ_of_le (hinv.closed ident (hold _ nofun hmem))
  · rw [registeredIds_append]
    refine List.nodup_append.mpr ⟨hinv.once, List.nodup_singleton _, ?_⟩
    intro ident hold ident' hlast heq
    obtain ⟨i', hi'⟩ := mem_registeredIds.mp hold
    obtain rfl : ident' = counter + 1 := List.mem_singleton.mp hlast
    exact hfresh i' (heq ▸ hi')
  · intro i₁ i₂ ident h₁ h₂
    rcases registered_append h₁ with hold₁ | ⟨rfl, rfl⟩
    · rcases registered_append h₂ with hold₂ | ⟨rfl, rfl⟩
      · exact hinv.owner i₁ i₂ ident hold₁ hold₂
      · exact absurd hold₁ (hfresh i₁)
    · rcases registered_append h₂ with hold₂ | ⟨rfl, -⟩
      · exact absurd hold₂ (hfresh i₂)
      · rfl
  · rw [sentIds_append]
    simpa [sentIds] using hinv.sentOnce
  · intro i' c' frame ident hmem hid
    exact List.mem_append_left _ (hinv.sent i' c' frame ident (hold _ nofun hmem) hid)
  · intro ident f hmem
    rcases List.mem_append.mp hmem with hmem | hlast
    · obtain ⟨⟨i', hi'⟩, hopen⟩ := hinv.keys ident f hmem
      exact ⟨⟨i', List.mem_append_left _ hi'⟩, fun hmem => hopen (hold _ nofun hmem)⟩
    · cases List.mem_singleton.mp hlast
      refine ⟨⟨i, List.mem_append_right _ List.mem_cons_self⟩, fun hmem => ?_⟩
      have hle := hinv.closed _ (hold _ nofun hmem)
      omega
  · intro i' ident message hmem hreg
    rcases List.mem_append.mp hmem with hmem | hlast
    · rcases registered_append hreg with hreg | ⟨rfl, rfl⟩
      · exact (hinv.answers i' ident message hmem hreg).append _
      · obtain ⟨⟨i', hi'⟩, -⟩ := hinv.keys _ _ hmem
        exact absurd hi' (hfresh i')
    · cases List.mem_singleton.mp hlast

/-- A request of its own gets its identifier. -/
theorem Account.register {log : List Entry} {ident : Nat}
    (hacc : Account log i ⟨o, .registering q c⟩ none)
    (hsent : ∀ c frame, .sent i c frame ∈ log → frame.id ≠ some ident) :
    ∃ own, Account (log ++ [.registered i ident]) i ⟨o, .sending q c ident⟩ own := by
  cases q with
  | handshake =>
      refine ⟨none, fun x hx => by cases hx; rfl, nofun, ?_, nofun, nofun⟩
      exact hacc.transmitted.append (by simp)
  | own method params =>
      refine ⟨some ident, fun x hx => by cases hx; rfl, ?_, ?_, nofun, nofun⟩
      · intro ident' hi
        obtain rfl := Option.some.inj hi
        exact List.mem_append_right _ List.mem_cons_self
      · intro c' frame hmem
        rcases List.mem_append.mp hmem with hold | hlast
        · rcases hacc.transmitted c' frame hold with
            hinit | ⟨ident', -, hframe⟩ | ⟨_, _, _, hown, -⟩
          · exact .inl hinit
          · refine .inr (.inl ⟨ident', fun heq => ?_, hframe⟩)
            obtain rfl := Option.some.inj heq
            exact hsent c' frame hold (by rw [hframe]; rfl)
          · cases hown
        · cases List.mem_singleton.mp hlast

/-- A new identifier. -/
theorem tally_register (hin : i < n) (hinv : tally.Inv s n)
    (h : tally.Agree s true i ⟨o, .registering q c⟩) :
    Outline.Keeps R tally s
      { s with
        counter := s.counter + 1
        pending := s.pending ++ [(s.counter + 1, .waiting)]
        log := s.log ++ [.registered i (s.counter + 1)] }
      n i true ⟨o, .sending q c (s.counter + 1)⟩ := by
  have hinv : Ordered s.log s.pending s.counter n := hinv
  have h : Tallies s.log s.pending (s.transit i) true i ⟨o, .registering q c⟩ := h
  have hfresh := hinv.not_registered
  have hunsent : ∀ i' c' frame, .sent i' c' frame ∈ s.log → frame.id ≠ some (s.counter + 1) :=
    fun i' c' frame hsent hid => hfresh i' (hinv.sent i' c' frame _ hsent hid)
  refine ⟨hinv.register hin, ?_, ?_⟩
  · refine
      { registered := ?_
        pending := ?_
        unsent := ?_
        got := nofun
        purpose := h.purpose
        alone := nofun
        account := ?_ }
    · intro ident hi
      obtain rfl := Option.some.inj hi
      exact List.mem_append_right _ List.mem_cons_self
    · intro ident f hmem hreg
      rcases registered_append hreg with hreg | ⟨-, rfl⟩
      · rcases List.mem_append.mp hmem with hold | hlast
        · have hid := h.pending ident f hold hreg
          cases hid
        · cases List.mem_singleton.mp hlast
          exact absurd hreg (hfresh i)
      · rfl
    · intro q' c' ident hst _ hmem
      cases hst
      have hmem : s.counter + 1 ∈ sentIds (s.log ++ [.registered i (s.counter + 1)]) := hmem
      rw [sentIds_append] at hmem
      obtain ⟨i', c', frame, hsent, hid⟩ := mem_sentIds.mp (by simpa [sentIds] using hmem)
      exact hunsent i' c' frame hsent hid
    · obtain ⟨own, hacc⟩ := h.account
      obtain rfl : own = none := hacc.settled none rfl
      exact hacc.register (hunsent i)
  · intro i' p' hne _ hp'
    refine Tallies.spared hp' ?_ (by simp) ?_ ?_
    · intro ident hmem
      cases List.mem_singleton.mp hmem
      exact hne rfl
    · intro ident _ hmem
      simp [sentIds] at hmem
    · intro ident f hmem hreg
      rcases List.mem_append.mp hmem with hold | hlast
      · exact ⟨f, hold⟩
      · cases List.mem_singleton.mp hlast
        exact absurd hreg (hfresh i')

end Register

/-- A request that is over has no identifier left. -/
theorem ident_replied (c : Conn) (q : Purpose) (r : Except PyExc Json) :
    (Station.replied c q r).ident = none := by
  cases q <;> cases r <;> rfl

theorem purpose_replied (c : Conn) (q : Purpose) (r : Except PyExc Json) :
    stationPurpose (Station.replied c q r) = none := by
  cases q <;> cases r <;> rfl

theorem alone_replied (c : Conn) (q : Purpose) (r : Except PyExc Json) :
    stationAlone (Station.replied c q r) = false := by
  cases q <;> cases r <;> rfl

theorem error_replied {c : Conn} {q : Purpose} {r : Except PyExc Json} {e : PyExc}
    (h : stationError (Station.replied c q r) = some e) : r = .error e := by
  cases q <;> cases r <;> cases h <;> rfl

theorem own_replied {c : Conn} {q : Purpose} {r : Except PyExc Json} {x : Option Nat}
    (h : stationOwn (Station.replied c q r) = some x) : q = .handshake ∧ x = none := by
  cases q <;> cases r <;> cases h <;> exact ⟨rfl, rfl⟩

theorem ended_replied {c : Conn} {q : Purpose} {r : Except PyExc Json} {value : Json}
    (h : Station.replied c q r = .ended (.ok value)) :
    (∃ method params, q = .own method params) ∧ r = .ok value := by
  cases q with
  | handshake => cases r <;> cases h
  | own method params => exact ⟨⟨method, params, rfl⟩, by injection h⟩

section Withdraw

variable {i : Nat} {o : Invocation} {q : Purpose} {c : Conn} {ident : Nat}
  {got : Except PyExc Dict}

theorem Ordered.withdraw {log : List Entry} {pending : List (Nat × Future)} {counter n : Nat}
    (hinv : Ordered log pending counter n) (hreg : .registered i ident ∈ log) :
    Ordered (log ++ [.unregistered ident]) (pending.filter fun p => p.1 ≠ ident) counter n := by
  apply hinv.append
  · simp
  · intro m hmem
    cases List.mem_singleton.mp hmem
    exact (hinv.below i ident hreg).2
  · simp
  · rw [sentIds_append]
    simpa [sentIds] using hinv.sentOnce
  · intro m f hmem
    obtain ⟨hmem, hne⟩ := List.mem_filter.mp hmem
    refine ⟨⟨f, hmem⟩, fun hlast => ?_⟩
    cases List.mem_singleton.mp hlast
    exact of_decide_eq_true hne rfl
  · exact fun m message hmem => .inl (List.mem_filter.mp hmem).1

/-- An error of the peer is blamed on the request it answers. -/
theorem Tallies.blamed_replied {log : List Entry} {pending : List (Nat × Future)} {tr : Transit}
    {own : Option Nat} {e : PyExc}
    (h : Tallies log pending tr true i ⟨o, .withdrawing q c ident got⟩)
    (hacc : Account log i ⟨o, .withdrawing q c ident got⟩ own)
    (hr : (got.bind fun message => AppServer.reply q.method message) = .error e) :
    Blamed log i o own e := by
  cases got with
  | error e' =>
      obtain rfl := Except.error.inj hr
      exact hacc.blamed e' rfl
  | ok message =>
      intro method error hrpc
      have hreply : AppServer.reply q.method message = .error e := hr
      rw [hrpc] at hreply
      obtain ⟨hm, herr⟩ := reply_rpcError hreply
      refine ⟨ident, message, h.got q c ident message rfl, herr, ?_⟩
      cases q with
      | handshake =>
          obtain rfl : own = none := hacc.settled none rfl
          exact .inr ⟨nofun, hm⟩
      | own method' params =>
          obtain rfl : method = method' := hm
          exact .inl ⟨hacc.settled _ rfl, params, h.purpose method params rfl⟩

/-- What the answer makes of the account. -/
theorem Tallies.account_replied {log : List Entry} {pending : List (Nat × Future)} {tr : Transit}
    (h : Tallies log pending tr true i ⟨o, .withdrawing q c ident got⟩) :
    ∃ own, Account log i
      ⟨o, Station.replied c q (got.bind fun message => AppServer.reply q.method message)⟩ own := by
  obtain ⟨own, hacc⟩ := h.account
  refine ⟨own, ?_, hacc.registered, hacc.transmitted, ?_, ?_⟩
  · intro x hx
    obtain ⟨rfl, rfl⟩ := own_replied hx
    exact hacc.settled none rfl
  · intro e he
    exact h.blamed_replied hacc (error_replied he)
  · intro method params value ho hst
    obtain ⟨⟨method', params', rfl⟩, hr⟩ := ended_replied hst
    cases got with
    | error e => cases hr
    | ok message =>
        obtain ⟨hnone, hresult⟩ := reply_ok hr
        exact ⟨ident, message, hacc.settled _ rfl, h.got _ c ident message rfl, hnone, hresult⟩

/-- An identifier is given up, with what has come for it. -/
theorem tally_withdraw (hinv : tally.Inv s n)
    (h : tally.Agree s true i ⟨o, .withdrawing q c ident got⟩) :
    Outline.Keeps R tally s
      { s with
        pending := s.pending.filter fun p => p.1 ≠ ident
        log := s.log ++ [.unregistered ident] }
      n i true ⟨o, Station.replied c q
        (got.bind fun message => AppServer.reply q.method message)⟩ := by
  have hinv : Ordered s.log s.pending s.counter n := hinv
  have h : Tallies s.log s.pending (s.transit i) true i ⟨o, .withdrawing q c ident got⟩ := h
  have hnone := ident_replied c q (got.bind fun message => AppServer.reply q.method message)
  -- no station with an identifier is left
  have hleft : ∀ st m, Station.replied c q
      (got.bind fun message => AppServer.reply q.method message) = st →
      st.ident = some m → False := by
    rintro st m rfl hm
    rw [hnone] at hm
    cases hm
  refine ⟨hinv.withdraw (h.registered ident rfl), ?_, ?_⟩
  · refine
      { registered := fun m hm => absurd hm fun hm => hleft _ m rfl hm
        pending := ?_
        unsent := fun q' c' m hst => absurd rfl (hleft _ m hst)
        got := fun q' c' m message hst => absurd rfl (hleft _ m hst)
        purpose := ?_
        alone := ?_
        account := ?_ }
    · intro m f hmem hreg
      obtain ⟨hmem, hne⟩ := List.mem_filter.mp hmem
      have hreg : .registered i m ∈ s.log := by simpa using hreg
      have hid := h.pending m f hmem hreg
      exact absurd (Option.some.inj hid).symm (of_decide_eq_true hne)
    · intro method params hq
      rw [purpose_replied] at hq
      cases hq
    · intro ha
      rw [alone_replied] at ha
      cases ha
    · obtain ⟨own, hacc⟩ := h.account_replied
      exact ⟨own, hacc.append (by simp)⟩
  · intro i' p' hne _ hp'
    refine Tallies.spared hp' (by simp) (by simp) ?_ ?_
    · intro m _ hmem
      simp [sentIds] at hmem
    · exact fun m f hmem _ => ⟨f, (List.mem_filter.mp hmem).1⟩

end Withdraw

/-- A frame is transmitted. -/
theorem tally_transmit {o : Invocation} {st : Station} {c : Conn} {frame : Frame} (hin : i < n)
    (hinv : tally.Inv s n) (h : tally.Agree s false i ⟨o, st⟩)
    (hop : st.op = some (.send c frame)) (hqueued : s.transit i = .queued c frame) :
    Outline.Keeps R tally s
      { s with
        transit := Function.update s.transit i .sent
        log := s.log ++ [.sent i c frame] }
      n i false ⟨o, st⟩ := by
  have hinv : Ordered s.log s.pending s.counter n := hinv
  have h : Tallies s.log s.pending (s.transit i) false i ⟨o, st⟩ := h
  -- either the notification, or the request registered before
  have hframe : frame = .initialized ∧ st.ident = none ∧ (∀ q c' m, st ≠ .sending q c' m) ∨
      ∃ q m, st = .sending q c m ∧ frame = q.frame m := by
    cases st with
    | announcing ws =>
        cases hop
        exact .inl ⟨rfl, rfl, nofun⟩
    | sending q ws m =>
        cases hop
        exact .inr ⟨q, m, rfl, rfl⟩
    | _ => cases hop
  have hid : ∀ m, frame.id = some m →
      .registered i m ∈ s.log ∧ m ∉ sentIds s.log := by
    intro m hm
    rcases hframe with ⟨rfl, -, -⟩ | ⟨q, m', rfl, rfl⟩
    · cases hm
    · obtain rfl := Option.some.inj hm
      exact ⟨h.registered _ rfl, h.unsent q c _ rfl (.inr hqueued)⟩
  have hold : ∀ i' m, .registered i' m ∈ s.log ++ [Entry.sent i c frame] →
      .registered i' m ∈ s.log := by
    intro i' m hmem
    rcases List.mem_append.mp hmem with hold | hlast
    · exact hold
    · cases List.mem_singleton.mp hlast
  have hsent : sentIds [Entry.sent i c frame] = frame.id.toList := by
    cases hf : frame.id <;> simp [sentIds, hf]
  refine ⟨?_, ?_, ?_⟩
  · apply hinv.append
    · simp
    · simp
    · intro i' c' frame' hmem
      cases List.mem_singleton.mp hmem
      exact ⟨hin, fun m hm => (hid m hm).1⟩
    · rw [sentIds_append, hsent]
      refine List.nodup_append.mpr ⟨hinv.sentOnce, ?_, ?_⟩
      · cases frame.id <;> simp
      · intro m hmem m' hmem' heq
        subst heq
        exact (hid m (Option.mem_toList.mp hmem')).2 hmem
    · exact fun m f hmem => ⟨⟨f, hmem⟩, by simp⟩
    · exact fun m message hmem => .inl hmem
  · refine
      { registered := fun m hm => List.mem_append_left _ (h.registered m hm)
        pending := fun m f hmem hreg => h.pending m f hmem (hold i m hreg)
        unsent := ?_
        got := fun q c' m message hst => (h.got q c' m message hst).append _
        purpose := h.purpose
        alone := h.alone
        account := ?_ }
    · intro q c' m _ hqueued'
      have hsent' : Function.update s.transit i Transit.sent i = .sent := Function.update_self ..
      rcases hqueued' with hruns | hqueued'
      · cases hruns
      · rw [show Function.update s.transit i Transit.sent i = _ from hqueued'] at hsent'
        cases hsent'
    · obtain ⟨own, hacc⟩ := h.account
      refine ⟨own, hacc.settled, fun m hm => List.mem_append_left _ (hacc.registered m hm), ?_,
        fun e he => (hacc.blamed e he).append _,
        fun method params value ho hst => (hacc.delivered method params value ho hst).append _⟩
      intro c' frame' hmem
      rcases List.mem_append.mp hmem with hmem | hlast
      · exact hacc.transmitted c' frame' hmem
      · cases List.mem_singleton.mp hlast
        rcases hframe with ⟨rfl, -, -⟩ | ⟨q, m, rfl, rfl⟩
        · exact .inl rfl
        · cases q with
          | handshake =>
              obtain rfl : own = none := hacc.settled none rfl
              exact .inr (.inl ⟨m, nofun, rfl⟩)
          | own method params =>
              exact .inr (.inr ⟨m, method, params, hacc.settled _ rfl,
                h.purpose method params rfl, rfl⟩)
  · intro i' p' hne _ hp'
    have hp' : Tallies s.log s.pending (s.transit i') false i' p' := hp'
    show Tallies (s.log ++ [.sent i c frame]) s.pending
      (Function.update s.transit i .sent i') false i' p'
    rw [Function.update_of_ne hne]
    refine hp'.spared (by simp) ?_ ?_ fun m f hmem _ => ⟨f, hmem⟩
    · intro c' frame' hmem
      cases List.mem_singleton.mp hmem
      exact hne rfl
    · intro m hm hmem
      rw [hsent] at hmem
      have hreg := (hid m (Option.mem_toList.mp hmem)).1
      exact hinv.apart hreg (hp'.registered m hm) hne

/-- A message without a method resolves the future it finds waiting. -/
theorem answer_cases {pending pending' : List (Nat × Future)} {message : Dict}
    (hmethod : message.get? "method" = none)
    (hok : (match lookup ((message.get? "id").getD .null) pending with
      | some (ident, .waiting) => (.ok (resolve ident message pending) : Except PyExc _)
      | _ => .ok pending) = .ok pending') :
    pending' = pending ∨ ∃ (message' : Dict) (ident : Nat), Json.obj message = .obj message' ∧
      message'.get? "method" = none ∧
      ((message'.get? "id").getD .null).pyEq (.int ident) = true ∧
      (ident, .waiting) ∈ pending ∧ pending' = resolve ident message' pending := by
  split at hok
  · rename_i ident hlookup
    have hmem := List.mem_of_find?_eq_some hlookup
    have heq := List.find?_some hlookup
    exact .inr ⟨message, ident, rfl, hmethod, heq, hmem, (Except.ok.inj hok).symm⟩
  · exact .inl (Except.ok.inj hok).symm

/-- **What one message does to the table**: nothing, or it resolves the
future that waits under its identifier, and then it has no method. -/
theorem receive_cases {pending pending' : List (Nat × Future)} {raw : Json}
    (h : receive pending raw = .ok pending') :
    pending' = pending ∨ ∃ (message : Dict) (ident : Nat), raw = .obj message ∧
      message.get? "method" = none ∧
      ((message.get? "id").getD .null).pyEq (.int ident) = true ∧
      (ident, .waiting) ∈ pending ∧ pending' = resolve ident message pending := by
  cases raw with
  | obj message =>
      simp only [receive] at h
      by_cases hmethod : (Dict.get? message "method").isSome
      · rw [if_pos hmethod] at h
        exact .inl (Except.ok.inj h).symm
      · rw [if_neg hmethod] at h
        have hnone : Dict.get? message "method" = none := by simpa using hmethod
        split at h
        · cases h
        · cases h
        · exact answer_cases hnone h
  | str text =>
      simp only [receive] at h
      split at h
      · exact .inl (Except.ok.inj h).symm
      · cases h
  | arr items =>
      simp only [receive] at h
      split at h
      · exact .inl (Except.ok.inj h).symm
      · cases h
  | _ => cases h

theorem mem_resolve {pending : List (Nat × Future)} {ident m : Nat} {message : Dict} {f : Future}
    (h : (m, f) ∈ resolve ident message pending) :
    (m, f) ∈ pending ∨ m = ident ∧ f = .resolved message := by
  obtain ⟨⟨m', f'⟩, hmem, heq⟩ := List.mem_map.mp h
  by_cases hm : m' = ident
  · rw [if_pos hm] at heq
    cases heq
    exact .inr ⟨rfl, rfl⟩
  · rw [if_neg hm] at heq
    cases heq
    exact .inl hmem

theorem mem_failAll {pending : List (Nat × Future)} {failure : String} {m : Nat} {f : Future}
    (h : (m, f) ∈ failAll failure pending) :
    (m, f) ∈ pending ∨ (m, .waiting) ∈ pending ∧ f = .failed failure := by
  obtain ⟨⟨m', f'⟩, hmem, heq⟩ := List.mem_map.mp h
  cases f' with
  | waiting =>
      cases heq
      exact .inr ⟨hmem, rfl⟩
  | resolved message =>
      cases heq
      exact .inl hmem
  | failed failure' =>
      cases heq
      exact .inl hmem

/-- The reader writes to the log and to the table. -/
theorem tally_reads {s' : Link} {es : List Entry} (hinv : tally.Inv s n)
    (hes : ∀ e ∈ es, ∃ c raw, e = .arrived c raw) (hlog : s'.log = s.log ++ es)
    (hcounter : s'.counter = s.counter) (htransit : s'.transit = s.transit)
    (hpending : ∀ m f, (m, f) ∈ s'.pending → ∃ f', (m, f') ∈ s.pending)
    (hanswers : ∀ m message, (m, .resolved message) ∈ s'.pending →
      (m, .resolved message) ∈ s.pending ∨ ∀ i, .registered i m ∈ s.log →
        Answered (s.log ++ es) i m message) :
    tally.Inv s' n ∧ ∀ i p, Outline.Spares R tally s s' i p := by
  have hinv : Ordered s.log s.pending s.counter n := hinv
  have hnone : ∀ {γ : Type} (g : Entry → Option γ), (∀ c raw, g (.arrived c raw) = none) →
      es.filterMap g = [] := by
    intro γ g hg
    refine List.filterMap_eq_nil_iff.mpr fun e he => ?_
    obtain ⟨c, raw, rfl⟩ := hes e he
    exact hg c raw
  have hfree : ∀ e, (∀ c raw, e ≠ .arrived c raw) → e ∉ es := by
    intro e hne hmem
    obtain ⟨c, raw, he⟩ := hes e hmem
    exact hne c raw he
  refine ⟨?_, fun i p _ hp => ?_⟩
  · show Ordered s'.log s'.pending s'.counter n
    rw [hlog, hcounter]
    apply hinv.append
    · exact fun i m => hfree _ nofun
    · exact fun m hmem => absurd hmem (hfree _ nofun)
    · exact fun i c frame hmem => absurd hmem (hfree _ nofun)
    · rw [sentIds_append, show sentIds es = [] from hnone _ fun _ _ => rfl, List.append_nil]
      exact hinv.sentOnce
    · exact fun m f hmem => ⟨hpending m f hmem, hfree _ nofun⟩
    · exact hanswers
  · show Tallies s'.log s'.pending (s'.transit i) false i p
    rw [hlog, htransit]
    refine Tallies.spared hp ?_ ?_ ?_ fun m f hmem _ => hpending m f hmem
    · intro m hmem
      obtain ⟨c, raw, h⟩ := hes _ hmem
      cases h
    · intro c frame hmem
      obtain ⟨c, raw, h⟩ := hes _ hmem
      cases h
    · intro m _ hmem
      rw [show sentIds es = [] from hnone _ fun _ _ => rfl] at hmem
      cases hmem

theorem tally_ambient {b : ReaderStep} {s' : Link} (hinv : tally.Inv s n)
    (h : Ambient s b s') :
    tally.Inv s' n ∧ ∀ i p, Outline.Spares R tally s s' i p := by
  -- every way in which the reader ends
  have hfails : ∀ {s' : Link} {es : List Entry} (failure : String),
      (∀ e ∈ es, ∃ c raw, e = .arrived c raw) → s'.log = s.log ++ es →
      s'.counter = s.counter → s'.transit = s.transit →
      s'.pending = failAll failure s.pending →
      tally.Inv s' n ∧ ∀ i p, Outline.Spares R tally s s' i p := by
    intro s' es failure hes hlog hcounter htransit hpending
    refine tally_reads hinv hes hlog hcounter htransit ?_ ?_
    · intro m f hmem
      rw [hpending] at hmem
      rcases mem_failAll hmem with hmem | ⟨hmem, -⟩
      · exact ⟨f, hmem⟩
      · exact ⟨_, hmem⟩
    · intro m message hmem
      rw [hpending] at hmem
      rcases mem_failAll hmem with hmem | ⟨-, hf⟩
      · exact .inl hmem
      · cases hf
  have hone : ∀ c raw, ∀ e ∈ [Entry.arrived c raw], ∃ c raw, e = .arrived c raw := by
    intro c raw e he
    exact ⟨c, raw, List.mem_singleton.mp he⟩
  have hnil : ∀ e ∈ ([] : List Entry), ∃ c raw, e = .arrived c raw := by simp
  cases h with
  | starts _ _ _ => exact ⟨hinv, fun _ _ _ h => h⟩
  | startsCancelled _ _ => exact ⟨hinv, fun _ _ _ h => h⟩
  | startsAlone _ _ _ => exact ⟨hinv, fun _ _ _ h => h⟩
  | receivesBadly _ _ => exact hfails _ (hone _ _) rfl rfl rfl rfl
  | receivesNoJson _ => exact hfails _ (hone _ _) rfl rfl rfl rfl
  | ends _ => exact hfails _ hnil (List.append_nil _).symm rfl rfl rfl
  | fails cls message _ => exact hfails _ hnil (List.append_nil _).symm rfl rfl rfl
  | interrupted _ _ => exact hfails _ hnil (List.append_nil _).symm rfl rfl rfl
  | receives hreading hreceive =>
      refine tally_reads hinv (hone _ _) rfl rfl rfl ?_ ?_
      · intro m f hmem
        rcases receive_cases hreceive with rfl | ⟨message, ident, -, -, -, hwaiting, rfl⟩
        · exact ⟨f, hmem⟩
        · rcases mem_resolve hmem with hmem | ⟨rfl, -⟩
          · exact ⟨f, hmem⟩
          · exact ⟨_, hwaiting⟩
      · intro m message hmem
        rcases receive_cases hreceive with rfl | ⟨message', ident, rfl, hmethod, hid, hwaiting, rfl⟩
        · exact .inl hmem
        · rcases mem_resolve hmem with hmem | ⟨rfl, hf⟩
          · exact .inl hmem
          · obtain rfl := Future.resolved.inj hf
            have hopen := (hinv.keys _ _ hwaiting).2
            exact .inr fun i hreg => ⟨_, [], _, rfl, hreg, hopen, hmethod, hid⟩

/-- A step after which only the task's own transit has changed. -/
theorem tally_transit {runs : Bool} {p' : Spot} {x : Transit} (hinv : tally.Inv s n)
    (hown : Tallies s.log s.pending x runs i p') :
    Outline.Keeps R tally s { s with transit := Function.update s.transit i x }
      n i runs p' := by
  refine ⟨hinv, ?_, fun i' p hne _ hp => ?_⟩
  · show Tallies s.log s.pending (Function.update s.transit i x i) runs i p'
    rwa [Function.update_self]
  · show Tallies s.log s.pending (Function.update s.transit i x i') false i' p
    rw [Function.update_of_ne hne]
    exact hp

/-- A task that waits. -/
theorem Tallies.wait {log : List Entry} {pending : List (Nat × Future)} {tr tr' : Transit}
    {o : Invocation} {st : Station} {runs runs' : Bool}
    (h : Tallies log pending tr runs i ⟨o, st⟩)
    (hunsent : ∀ q c ident, st = .sending q c ident → ident ∉ sentIds log) :
    Tallies log pending tr' runs' i ⟨o, st⟩ :=
  { h with unsent := fun q c ident hst _ => hunsent q c ident hst }

end Steps

section Sound

variable [Endpoint] {R : Nat → Spot → Prop} {s s' : Link} {n i : Nat} {p : Spot}

variable {o : Invocation} {st : Station}

theorem tally_socketExists {r : Except Fault Bool} (hinv : tally.Inv s n)
    (h : Tallies s.log s.pending (s.transit i) true i ⟨o, st⟩) (hop : st.op = some .socketExists) :
    Outline.Keeps R tally s s n i true (Spot.note ⟨o, st⟩ ⟨.socketExists, r⟩) := by
  cases st with
  | checking =>
      refine tally_still hinv ?_
      match r with
      | .ok true =>
          exact h.go rfl (fun x hx => hx) (fun e he => by cases he) (fun q hq => by cases hq)
            (fun ha => by cases ha) nofun nofun nofun
      | .ok false =>
          refine h.go rfl (fun x hx => hx) ?_ (fun q hq => by cases hq)
            (fun ha => by cases ha) nofun nofun nofun
          intro e he
          obtain rfl := Option.some.inj he
          exact .inr fun _ _ => nofun
      | .error fault =>
          refine h.go rfl (fun x hx => hx) ?_ (fun q hq => by cases hq)
            (fun ha => by cases ha) nofun nofun nofun
          intro e he
          obtain rfl := Option.some.inj he
          exact .inr (plain_raised fault)
  | _ => cases hop

theorem tally_ws (hinv : tally.Inv s n) (h : Tallies s.log s.pending (s.transit i) true i ⟨o, st⟩)
    (hop : st.op = some .ws) :
    Outline.Keeps R tally s s n i true (Spot.note ⟨o, st⟩ ⟨.ws, s.ws⟩) := by
  cases st with
  | shutting why =>
      refine tally_still hinv ?_
      show Tallies _ _ _ _ _ ⟨o, Station.next o (.shutting why) ⟨.ws, s.ws⟩⟩
      cases s.ws <;>
        exact h.go rfl (fun x hx => hx) (fun e he => .inl he) (fun q hq => by cases hq)
          (fun ha => ha) nofun nofun nofun
  | greeting c =>
      refine tally_still hinv ?_
      show Tallies _ _ _ _ _ ⟨o, Station.next o (.greeting c) ⟨.ws, s.ws⟩⟩
      cases s.ws with
      | some w =>
          exact h.go rfl (fun x hx => hx) (fun e he => by cases he) (fun q hq => by cases hq)
            (fun ha => by cases ha) nofun nofun nofun
      | none =>
          refine h.go rfl (fun x hx => hx) ?_ (fun q hq => by cases hq)
            (fun ha => by cases ha) nofun nofun nofun
          intro e he
          obtain rfl := Option.some.inj he
          exact .inr fun _ _ => nofun
  | requesting q =>
      refine tally_still hinv ?_
      show Tallies _ _ _ _ _ ⟨o, Station.next o (.requesting q) ⟨.ws, s.ws⟩⟩
      cases s.ws with
      | some w =>
          exact h.go rfl (fun x hx => hx) (fun e he => by cases he) (fun q' hq => hq)
            (fun ha => by cases ha) nofun nofun nofun
      | none =>
          cases q with
          | handshake =>
              refine h.go rfl (fun x hx => hx) ?_ (fun q hq => by cases hq)
                (fun ha => by cases ha) nofun nofun nofun
              intro e he
              obtain rfl := Option.some.inj he
              exact .inr fun _ _ => nofun
          | own method params =>
              refine h.go rfl (fun x hx => by cases hx) ?_ (fun q hq => by cases hq)
                (fun ha => by cases ha) nofun nofun nofun
              intro e he
              obtain rfl := Option.some.inj he
              exact .inr fun _ _ => nofun
  | _ => cases hop

theorem tally_act {e : Event NetAns} (hin : i < n) (hinv : tally.Inv s n)
    (h : tally.Agree s true i p) (hmay : p.May e.1) (hacts : Acts i s e s') :
    Outline.Keeps R tally s s' n i true (p.note e) := by
  obtain ⟨o, st⟩ := p
  have h : Tallies s.log s.pending (s.transit i) true i ⟨o, st⟩ := h
  have hop : st.op = some e.1 := hmay
  cases hacts with
  | unlock =>
      cases st with
      | leaving r => exact ⟨hinv, h.connect, fun _ _ _ _ h => h⟩
      | _ => cases hop
  | readerAlive =>
      cases st with
      | entered =>
          refine tally_still hinv ?_
          show Tallies _ _ _ _ _ ⟨o, Station.next o .entered ⟨.readerAlive, s.alive⟩⟩
          cases s.alive <;>
            exact h.go rfl (fun x hx => hx) (fun e he => by cases he) (fun q hq => by cases hq)
              (fun ha => by cases ha) nofun nofun nofun
      | _ => cases hop
  | socketExists r => exact tally_socketExists hinv h hop
  | startReader =>
      cases st with
      | starting =>
          refine ⟨hinv, ?_, fun _ _ _ _ h => h⟩
          refine ⟨nofun, fun m f hm hr => h.pending m f hm hr, nofun, nofun, nofun, nofun, ?_⟩
          obtain ⟨own, hacc⟩ := h.account
          exact ⟨own, hacc.settled, hacc.registered, hacc.transmitted, nofun, nofun⟩
      | _ => cases hop
  | ws => exact tally_ws hinv h hop
  | register =>
      cases st with
      | registering q c => exact tally_register hin hinv h
      | _ => cases hop
  | unregister ident =>
      cases st with
      | withdrawing q c ident' got =>
          cases hop
          exact tally_withdraw hinv h
      | _ => cases hop
  | setInfo info =>
      cases st with
      | informing c info' =>
          refine ⟨hinv, ?_, fun _ _ _ _ h => h⟩
          exact h.go rfl (fun x hx => hx) (fun e he => by cases he) (fun q hq => by cases hq)
            (fun ha => by cases ha) nofun nofun nofun
      | _ => cases hop
  | clearWs =>
      cases st with
      | clearing why c =>
          refine ⟨hinv, ?_, fun _ _ _ _ h => h⟩
          exact h.go rfl (fun x hx => hx) (fun e he => .inl he) (fun q hq => by cases hq)
            (fun ha => ha) nofun nofun nofun
      | _ => cases hop
  | reader =>
      cases st with
      | reading why c =>
          refine tally_still hinv ?_
          show Tallies _ _ _ _ _ ⟨o, Station.next o (.reading why c) ⟨.reader, s.reader⟩⟩
          cases s.reader with
          | none => exact h.close rfl rfl rfl rfl nofun
          | some r =>
              exact h.go rfl (fun x hx => hx) (fun e he => .inl he) (fun q hq => by cases hq)
                (fun ha => ha) nofun nofun nofun
      | _ => cases hop
  | cancelReader r =>
      cases st with
      | cancelling why c r' =>
          refine ⟨hinv, ?_, fun _ _ _ _ h => h⟩
          exact h.go rfl (fun x hx => hx) (fun e he => .inl he) (fun q hq => by cases hq)
            (fun ha => ha) nofun nofun nofun
      | _ => cases hop
  | clearReader =>
      cases st with
      | forgetting why => exact ⟨hinv, h.close rfl rfl rfl rfl nofun, fun _ _ _ _ h => h⟩
      | _ => cases hop

omit [Endpoint] in
theorem tally_await {op : NetOp} (hinv : tally.Inv s n) (h : tally.Agree s true i p)
    (hmay : p.May op) (hbegins : Begins i s op s') :
    Outline.Keeps R tally s s' n i false p := by
  obtain ⟨o, st⟩ := p
  have h : Tallies s.log s.pending (s.transit i) true i ⟨o, st⟩ := h
  have hwait : ∀ x, Tallies s.log s.pending x false i ⟨o, st⟩ := fun x =>
    h.wait fun q c ident hst => h.unsent q c ident hst (.inl rfl)
  cases hbegins with
  | lock => exact tally_still hinv (hwait _)
  | openTransport => exact tally_still hinv (hwait _)
  | send c frame => exact tally_transit hinv (hwait _)
  | awaitReply ident => exact tally_still hinv (hwait _)
  | closeTransport c => exact ⟨hinv, hwait _, fun _ _ _ _ h => h⟩
  | joinReader c => exact tally_still hinv (hwait _)

omit [Endpoint] in
theorem tally_stir {op : NetOp} (hin : i < n) (hinv : tally.Inv s n) (h : tally.Agree s false i p)
    (hmay : p.May op) (hstirs : Stirs i s op s') :
    Outline.Keeps R tally s s' n i false p := by
  obtain ⟨o, st⟩ := p
  cases hstirs with
  | transmit hqueued => exact tally_transmit hin hinv h hmay hqueued

omit [Endpoint] in
/-- What has failed while a request waits. -/
theorem Tallies.failed {log : List Entry} {pending : List (Nat × Future)} {tr tr' : Transit}
    {q : Purpose} {c : Conn} {ident : Nat} (h : Tallies log pending tr false i ⟨o, st⟩)
    (fault : Fault) (hident : st.ident = some ident)
    (hown : stationOwn st = stationOwn (.sending q c ident))
    (hpurpose : stationPurpose st = some q) :
    Tallies log pending tr' true i
      ⟨o, .withdrawing q c ident (.error (Station.hidden q fault))⟩ := by
  refine h.go hident.symm ?_ ?_ (fun q' hq => hpurpose.trans hq) (fun ha => by cases ha)
    nofun nofun nofun
  · intro x hx
    rw [hown]
    cases q <;> exact hx
  · intro e he
    obtain rfl := Option.some.inj he
    exact .inr (plain_hidden q fault)

omit [Endpoint] in
/-- A failure of the handshake. -/
theorem Tallies.refused {log : List Entry} {pending : List (Nat × Future)} {tr tr' : Transit}
    (h : Tallies log pending tr false i ⟨o, st⟩) (fault : Fault) (hident : st.ident = none)
    (hown : stationOwn st = some none) :
    Tallies log pending tr' true i ⟨o, .shutting (.failed fault.raised)⟩ := by
  refine h.go hident.symm (fun x hx => hown.trans hx) ?_ (fun q hq => by cases hq)
    (fun ha => by cases ha) nofun nofun nofun
  intro e he
  obtain rfl := Option.some.inj he
  exact .inr (plain_raised fault)

theorem tally_resume {e : Event NetAns} (hinv : tally.Inv s n) (h : tally.Agree s false i p)
    (hmay : p.May e.1) (hresumes : Resumes i s e s') :
    Outline.Keeps R tally s s' n i true (p.note e) := by
  obtain ⟨o, st⟩ := p
  have h : Tallies s.log s.pending (s.transit i) false i ⟨o, st⟩ := h
  have hop : st.op = some e.1 := hmay
  cases hresumes with
  | lock hfree =>
      cases st with
      | entering =>
          refine ⟨hinv, ?_, fun _ _ _ _ h => h⟩
          exact h.go rfl (fun x hx => hx) (fun e he => by cases he) (fun q hq => by cases hq)
            (fun ha => by cases ha) nofun nofun nofun
      | _ => cases hop
  | lockFails fault =>
      cases st with
      | entering =>
          refine tally_still hinv ?_
          refine h.go rfl (fun x hx => by cases hx) ?_ (fun q hq => by cases hq)
            (fun ha => by cases ha) nofun nofun nofun
          intro e he
          obtain rfl := Option.some.inj he
          exact .inr (plain_raised fault)
      | _ => cases hop
  | openTransport =>
      cases st with
      | opening =>
          refine ⟨hinv, ?_, fun _ _ _ _ h => h⟩
          exact h.go rfl (fun x hx => hx) (fun e he => by cases he) (fun q hq => by cases hq)
            (fun ha => by cases ha) nofun nofun nofun
      | _ => cases hop
  | openTransportFails fault =>
      cases st with
      | opening => exact tally_still hinv (h.refused fault rfl rfl)
      | _ => cases hop
  | send c frame hsent =>
      cases st with
      | announcing c' =>
          refine tally_transit hinv ?_
          exact h.go rfl (fun x hx => hx) (fun e he => by cases he) (fun q hq => by cases hq)
            (fun ha => by cases ha) nofun nofun nofun
      | sending q c' ident =>
          refine tally_transit hinv ?_
          exact h.go rfl (fun x hx => by cases q <;> exact hx) (fun e he => by cases he)
            (fun q' hq => hq) (fun ha => by cases ha) nofun nofun nofun
      | _ => cases hop
  | sendFails c frame fault =>
      cases st with
      | announcing c' => exact tally_transit hinv (h.refused fault rfl rfl)
      | sending q c' ident => exact tally_transit hinv (h.failed fault rfl rfl rfl)
      | _ => cases hop
  | awaitReply hmem =>
      cases st with
      | awaiting q c m =>
          cases hop
          refine tally_still hinv
            { registered := h.registered
              pending := h.pending
              unsent := nofun
              got := ?_
              purpose := h.purpose
              alone := nofun
              account := ?_ }
          · intro q' c' m message hst
            cases hst
            exact hinv.answers i _ _ hmem (h.registered _ rfl)
          · obtain ⟨own, hacc⟩ := h.account
            refine ⟨own, fun x hx => hacc.settled x ?_, hacc.registered, hacc.transmitted,
              nofun, nofun⟩
            cases q <;> exact hx
      | _ => cases hop
  | awaitReplyFails hmem =>
      cases st with
      | awaiting q c ident =>
          cases hop
          exact tally_still hinv (h.failed _ rfl (by cases q <;> rfl) rfl)
      | _ => cases hop
  | awaitReplyTimesOut ident =>
      cases st with
      | awaiting q c ident =>
          cases hop
          exact tally_still hinv (h.failed _ rfl (by cases q <;> rfl) rfl)
      | _ => cases hop
  | awaitReplyCancelled ident =>
      cases st with
      | awaiting q c ident =>
          cases hop
          exact tally_still hinv (h.failed _ rfl (by cases q <;> rfl) rfl)
      | _ => cases hop
  | closeTransport c =>
      cases st with
      | closing why c' =>
          refine tally_still hinv ?_
          exact h.go rfl (fun x hx => hx) (fun e he => .inl he) (fun q hq => by cases hq)
            (fun ha => ha) nofun nofun nofun
      | _ => cases hop
  | closeTransportFails c fault =>
      cases st with
      | closing why c' =>
          refine tally_still hinv (h.close rfl rfl rfl rfl fun e he => ?_)
          obtain rfl := Except.error.inj he
          exact plain_raised fault
      | _ => cases hop
  | joinReader hdone =>
      cases st with
      | joining why c' =>
          refine tally_still hinv ?_
          exact h.go rfl (fun x hx => hx) (fun e he => .inl he) (fun q hq => by cases hq)
            (fun ha => ha) nofun nofun nofun
      | _ => cases hop
  | @joinReaderFails c fault hdone =>
      cases st with
      | joining why c' =>
          refine tally_still hinv ?_
          cases fault with
          | cancelled =>
              exact h.go rfl (fun x hx => hx) (fun e he => .inl he) (fun q hq => by cases hq)
                (fun ha => ha) nofun nofun nofun
          | exception cls message =>
              refine h.close rfl rfl rfl rfl fun e he => ?_
              obtain rfl := Except.error.inj he
              exact plain_raised (.exception cls message)
      | _ => cases hop
  | joinReaderCancelled c =>
      cases st with
      | joining why c' =>
          refine tally_still hinv ?_
          exact h.go rfl (fun x hx => hx) (fun e he => .inl he) (fun q hq => by cases hq)
            (fun ha => ha) nofun nofun nofun
      | _ => cases hop

/-- **Every step keeps the tally**, whatever the peer sends. -/
theorem tally_sound :
    Outline.Sound machine spots (fun _ _ => True) init (fun _ => True) tally where
  init := by
    refine ⟨?_, ?_, ?_, ?_, ?_, ?_, ?_, ?_, ?_⟩ <;> simp [init, registeredIds, sentIds]
  invoke := by
    intro L o _ hO _ _
    have hinv : Ordered L.state.log L.state.pending L.state.counter L.tasks.length := hO.inv
    have hno : ∀ ident, .registered L.tasks.length ident ∉ L.state.log := by
      intro ident hmem
      have hlt := (hinv.below _ ident hmem).1
      omega
    refine ⟨{ hinv with below := ?_, sender := ?_ }, ?_⟩
    · intro i ident hmem
      have hb := hinv.below i ident hmem
      exact ⟨by omega, hb.2⟩
    · exact fun i c frame hmem => Nat.lt_succ_of_lt (hinv.sender i c frame hmem)
    · have htransmitted : ∀ own, Transmitted L.state.log L.tasks.length o own := by
        intro own c frame hmem
        exact absurd (hinv.sender _ c frame hmem) (Nat.lt_irrefl _)
      cases o with
      | close =>
          exact ⟨nofun, fun m f _ hreg => absurd hreg (hno m), nofun, nofun, nofun,
            fun _ => rfl, none, fun x hx => Option.some.inj hx, nofun, htransmitted none, nofun,
            nofun⟩
      | connect =>
          exact ⟨nofun, fun m f _ hreg => absurd hreg (hno m), nofun, nofun, nofun, nofun, none,
            fun x hx => Option.some.inj hx, nofun, htransmitted none, nofun, nofun⟩
      | call method params =>
          exact ⟨nofun, fun m f _ hreg => absurd hreg (hno m), nofun, nofun, nofun, nofun, none,
            fun x hx => Option.some.inj hx, nofun, htransmitted none, nofun, nofun⟩
  act := fun _ hO _ hrun ht hmay hacts =>
    tally_act (List.getElem?_eq_some_iff.mp ht).1 hO.inv (hO.runner hrun ht) hmay hacts
  await := fun _ hO _ hrun ht hmay hbegins => tally_await hO.inv (hO.runner hrun ht) hmay hbegins
  stir := fun _ hO _ hrun ht hmay hstirs =>
    tally_stir (List.getElem?_eq_some_iff.mp ht).1 hO.inv (hO.idle hrun ht) hmay hstirs
  resume := fun _ hO _ hrun ht hmay hresumes => tally_resume hO.inv (hO.idle hrun ht) hmay hresumes
  finish := by
    intro L i t a _ hO hrun ht hends
    have h : Tallies _ _ _ true i (t.journal spots) := hO.runner hrun ht
    have hends : (t.journal spots).station = .ended a.1 := hends
    refine Tallies.wait h fun q c ident hst => ?_
    have hst : (t.journal spots).station = .sending q c ident := hst
    exact absurd (hst.symm.trans hends) nofun
  ambient := fun _ hO _ _ hambient => tally_ambient hO.inv hambient

end Sound

/-! ## §6. Response correlation. -/

section Main

variable [Endpoint]

/-- What the calls of an `AppServer` are held to. -/
structure Correlated (L : NetLoop) : Prop where
  /-- No identifier is taken twice, over all connections. -/
  ids : (registeredIds L.state.log).Nodup
  /-- No request is transmitted twice. -/
  sentOnce : (sentIds L.state.log).Nodup
  /-- What is transmitted has a method, so it answers nothing; and a request
  has an identifier of its sender. -/
  requests : ∀ i c frame, .sent i c frame ∈ L.state.log →
    (∃ fields method, frame.toJson = .obj fields ∧
      Dict.get? fields "method" = some (.str method)) ∧
    ∀ ident, frame.id = some ident → .registered i ident ∈ L.state.log
  calls : ∀ i t method params, L.tasks[i]? = some t → t.origin = .call method params →
    ∃ own, (∀ ident, own = some ident → .registered i ident ∈ L.state.log) ∧
      Transmitted L.state.log i (.call method params) own ∧
      (∀ value, t.rest = .ret (.ok value, ()) → Delivered L.state.log i own value) ∧
      ∀ e, t.rest = .ret (.error e, ()) → Blamed L.state.log i (.call method params) own e
  /-- Where nobody is inside `_request`, the table is empty. -/
  idle : (∀ t ∈ L.tasks, (t.journal spots).station.ident = none) → L.state.pending = []

omit [Endpoint] in
theorem toJson_method (frame : Frame) :
    ∃ fields method, frame.toJson = .obj fields ∧
      Dict.get? fields "method" = some (.str method) := by
  obtain ⟨ident, method, params⟩ := frame
  cases ident <;> exact ⟨_, method, rfl, rfl⟩

/-- **Response correlation**, for every order of steps and whatever the peer
sends. -/
theorem correlation {L : NetLoop} (h : L.Reach machine Invocation.code (fun _ _ => True) init) :
    Correlated L := by
  have hholds := tally_sound.holds (fun _ _ => trivial) h
  have hinv : Ordered L.state.log L.state.pending L.state.counter L.tasks.length := hholds.inv
  refine
    { ids := hinv.once
      sentOnce := hinv.sentOnce
      requests := fun i c frame hmem => ⟨toJson_method frame, fun ident hid =>
        hinv.sent i c frame ident hmem hid⟩
      calls := ?_
      idle := ?_ }
  · intro i t method params ht ho
    have htally : Tallies _ _ _ _ i (t.journal spots) := hholds.agrees i t ht
    have horigin : (t.journal spots).origin = .call method params :=
      (origin_journal t).trans ho
    obtain ⟨own, hacc⟩ := htally.account
    refine ⟨own, hacc.registered, horigin ▸ hacc.transmitted, fun value hrest => ?_,
      fun e hrest => ?_⟩
    · have hended : (t.journal spots).station = .ended (.ok value) :=
        Script.ends (S := spots) (h.run ht) hrest
      exact hacc.delivered method params value horigin hended
    · have hended : (t.journal spots).station = .ended (.error e) :=
        Script.ends (S := spots) (h.run ht) hrest
      exact horigin ▸ hacc.blamed e (by rw [hended]; rfl)
  · intro hidle
    cases hpending : L.state.pending with
    | nil => rfl
    | cons p rest =>
        obtain ⟨ident, f⟩ := p
        have hmem : (ident, f) ∈ L.state.pending := by simp [hpending]
        obtain ⟨⟨i, hreg⟩, -⟩ := hinv.keys ident f hmem
        have hlt := (hinv.below i ident hreg).1
        have ht : L.tasks[i]? = some L.tasks[i] := List.getElem?_eq_getElem hlt
        have htally : Tallies _ _ _ _ i (L.tasks[i].journal spots) := hholds.agrees i _ ht
        have hident := htally.pending ident f hmem hreg
        rw [hidle _ (List.getElem_mem hlt)] at hident
        cases hident

/-- An error is raised for an answer to a request of the call's own method
only. -/
def OwnErrors (L : NetLoop) : Prop :=
  ∀ i t method params m error, L.tasks[i]? = some t → t.origin = .call method params →
    t.rest = .ret (.error (.rpcError m error), ()) →
    ∃ ident message, Answered L.state.log i ident message ∧
      message.get? "error" = some (.obj error) ∧
      ∀ c frame, .sent i c frame ∈ L.state.log → frame.id = some ident → frame.method = method

/-- The peer's refusal of the handshake. -/
def refusal : Dict := [("message", .str "not now")]

/-- The table when `initialize` is answered. -/
def refused : Link where
  ws := some 0
  reader := some 0
  counter := 1
  pending := [(1, .resolved [("id", .int 1), ("error", .obj refusal)])]
  holder := some 0
  info := .obj []
  opened := 1
  closing := fun _ => false
  readers := Function.update (Function.update (fun _ => .done none) 0 .created) 0 (.reading 0)
  cancelled := fun _ => false
  transit := Function.update (Function.update (Function.update (fun _ => .idle) 0
    (.queued 0 (Purpose.handshake.frame 1))) 0 .sent) 0 .idle
  log :=
    [.registered 0 1, .sent 0 0 (Purpose.handshake.frame 1),
      .arrived 0 (.ok (.obj [("id", .int 1), ("error", .obj refusal)]))]

/-- A call connects, and the peer refuses `initialize`. -/
theorem shows_refused :
    spots.Shows machine (fun _ _ => True) init refused (some 0)
      [⟨.call "thread/list" [], .withdrawing .handshake 0 1
        (.ok [("id", .int 1), ("error", .obj refusal)])⟩] := by
  have h : spots.Shows machine (fun _ _ => True) init init none [] := Script.shows_init
  have h := h.invoke (.call "thread/list" []) trivial
  have hwalk := walk_knocking (P := fun _ _ => True) (o := .call "thread/list" [])
    fun _ _ _ => trivial
  -- the refusal
  have hwalk := hwalk.ambient (.starts 0) trivial (.starts rfl rfl rfl)
  have hwalk := hwalk.ambient
    (.receives 0 (.ok (.obj [("id", .int 1), ("error", .obj refusal)]))) trivial
    (.receives rfl rfl)
  exact h.along (i := 0) rfl
    (hwalk.resume spots_exact rfl trivial (.awaitReply List.mem_cons_self))

/-- The call fails with what the peer has answered. -/
theorem shows_failed :
    ∃ s, spots.Shows machine (fun _ _ => True) init s (some 0)
        [⟨.call "thread/list" [], .ended (.error (.rpcError "initialize" refusal))⟩] ∧
      s.log =
        [.registered 0 1, .sent 0 0 (Purpose.handshake.frame 1),
          .arrived 0 (.ok (.obj [("id", .int 1), ("error", .obj refusal)])), .unregistered 1] := by
  have h := walk_start (fun _ _ => True) 0 refused (some 0)
    ⟨.call "thread/list" [], .withdrawing .handshake 0 1
      (.ok [("id", .int 1), ("error", .obj refusal)])⟩
  have h := h.act spots_exact rfl trivial (.unregister 1)
  -- `close`, and out of the lock
  have h := h.act spots_exact rfl trivial .ws
  have h := h.await spots_exact rfl trivial (.closeTransport 0)
  have h := h.resume spots_exact rfl trivial (.closeTransport 0)
  have h := h.act spots_exact rfl trivial .clearWs
  have h := h.act spots_exact rfl trivial .reader
  have h := h.act spots_exact rfl trivial (.cancelReader 0)
  have h := h.await spots_exact rfl trivial (.joinReader 0)
  have h := h.ambient (.interrupted 0) trivial (.interrupted rfl rfl)
  have h := h.resume spots_exact rfl trivial (.joinReaderFails rfl)
  have h := h.act spots_exact rfl trivial .clearReader
  have h := h.act spots_exact rfl trivial .unlock
  exact ⟨_, shows_refused.along (i := 0) rfl h, rfl⟩

end Main

/-- The call fails with an error that nobody has sent for it: the handshake
was its own, but not its request. -/
theorem refused_handshake :
    ¬ ∀ [Endpoint] {L : NetLoop}, L.Reach machine Invocation.code (fun _ _ => True) init →
      OwnErrors L := by
  intro hclaim
  let _ := Endpoint.sample
  obtain ⟨s, ⟨L, hreach, rfl, -, htasks⟩, hlog⟩ := shows_failed
  obtain ⟨t, ht, hspot⟩ : ∃ t, L.tasks[0]? = some t ∧ t.journal spots =
      ⟨.call "thread/list" [], .ended (.error (.rpcError "initialize" refusal))⟩ := by
    have hget : (L.tasks.map (·.journal spots))[0]? = some
        ⟨.call "thread/list" [], .ended (.error (.rpcError "initialize" refusal))⟩ := by
      rw [htasks]
      rfl
    rw [List.getElem?_map] at hget
    exact Option.map_eq_some_iff.mp hget
  have horigin : t.origin = .call "thread/list" [] := by rw [← origin_journal, hspot]
  have hrest := rest_of_ended (hreach.run ht) (congrArg Spot.station hspot)
  obtain ⟨ident, message, hanswered, -, hown⟩ :=
    hclaim hreach 0 t "thread/list" [] "initialize" refusal ht horigin hrest
  obtain ⟨before, after, c, hsplit, hregistered, -⟩ := hanswered
  have hreg : .registered 0 ident ∈ L.state.log := by
    rw [hsplit]
    exact List.mem_append_left _ hregistered
  obtain rfl : ident = 1 := by simpa [hlog] using hreg
  have hmethod := hown 0 (Purpose.handshake.frame 1) (by simp [hlog]) rfl
  exact absurd hmethod (by decide)

/-- The same run, of which the rest holds. -/
theorem correlation_refused :
    let _ := Endpoint.sample
    ∃ L : NetLoop, L.tasks ≠ [] ∧ Correlated L := by
  intro _
  obtain ⟨s, ⟨L, hreach, -, -, htasks⟩, -⟩   := shows_failed
  refine ⟨L, ?_, correlation hreach⟩
  intro hnil
  rw [hnil] at htasks
  cases htasks

end CodexRemoteBridge.Link
