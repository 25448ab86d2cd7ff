/-
  CodexRemoteBridge.Sharing — tool calls that share the connection of a bridge.

  Reads and mutations have their requests, and mutations their `close()`,
  carried out on one connection.  Between two of them, and at every await of
  theirs, any other may go on: so a read may be anywhere when a mutation
  closes the connection.

  Main result: `Session.reads_isolated`.
-/
import CodexRemoteBridge.Completion
import CodexRemoteBridge.Identifiers
import CodexRemoteBridge.Visits

namespace CodexRemoteBridge

open Interaction

/-! ## §1. The session. -/

/-- A tool call that has come. -/
structure Guest where
  visit : Visit
  history : List (Event SharedAns)
  rest : Prog SharedOp SharedAns (Except PyExc Json)
  /-- What has been carried out for it, in order. -/
  tasks : List Nat
  /-- What is being carried out for it. -/
  task : Option Nat

def Guest.start [Hashlib] (v : Visit) : Guest := ⟨v, [], v.code, [], none⟩

/-- It goes on with an answer. -/
def Guest.answer (g : Guest) (op : SharedOp) (r : SharedAns op)
    (rest : Prog SharedOp SharedAns (Except PyExc Json)) : Guest :=
  { g with history := g.history ++ [⟨op, r⟩], rest := rest }

/-- Task `n` has come back to it. -/
def Guest.welcome (g : Guest) (n : Nat) : Guest := { g with tasks := g.tasks ++ [n], task := none }

/-- The event loop of the connection, and the tool calls on it. -/
structure Session where
  loop : NetLoop
  guests : List Guest

namespace Session

/-- What a step is. -/
inductive Label where
  | visit (v : Visit)
  | invoke (i : Nat) (o : Invocation)
  | link (l : NetLabel)
  | returns (i : Nat)
  | perform (i : Nat)

variable [Endpoint] [Hashlib]

/-- One step: a tool call comes, has something carried out, gets it back, or
does something by itself; or the connection goes on.  What a tool call does by
itself is answered in any way, and mutations need not take turns. -/
inductive Step : Session → Label → Session → Prop
  | visit {L : NetLoop} {gs : List Guest} (v : Visit) :
      L.running = none → Step ⟨L, gs⟩ (.visit v) ⟨L, gs ++ [.start v]⟩
  | invoke {L L' : NetLoop} {gs : List Guest} {i : Nat} {g : Guest} {o : Invocation}
      {k : SharedAns (.invoke o) → Prog SharedOp SharedAns (Except PyExc Json)} :
      gs[i]? = some g → g.task = none → g.rest = .op (.invoke o) k →
      L.Step Link.machine Invocation.code (.invoke o) L' →
      Step ⟨L, gs⟩ (.invoke i o) ⟨L', gs.set i { g with task := some L.tasks.length }⟩
  | link {L L' : NetLoop} {gs : List Guest} {l : NetLabel} :
      (∀ o, l ≠ .invoke o) → L.Step Link.machine Invocation.code l L' →
      Step ⟨L, gs⟩ (.link l) ⟨L', gs⟩
  | returns {L : NetLoop} {gs : List Guest} {i n : Nat} {g : Guest} {t : NetTask} {o : Invocation}
      {k : SharedAns (.invoke o) → Prog SharedOp SharedAns (Except PyExc Json)}
      {r : Except PyExc Json} :
      L.running = none → gs[i]? = some g → g.task = some n → g.rest = .op (.invoke o) k →
      L.tasks[n]? = some t → t.rest = .ret (r, ()) →
      Step ⟨L, gs⟩ (.returns i) ⟨L, gs.set i ((g.answer (.invoke o) r (k r)).welcome n)⟩
  | perform {L : NetLoop} {gs : List Guest} {i : Nat} {g : Guest} {op : SharedOp}
      {k : SharedAns op → Prog SharedOp SharedAns (Except PyExc Json)} (r : SharedAns op) :
      L.running = none → gs[i]? = some g → g.rest = .op op k → (∀ o, op ≠ .invoke o) →
      Step ⟨L, gs⟩ (.perform i) ⟨L, gs.set i (g.answer op r (k r))⟩

/-- The steps that the connection takes are of a kind. -/
def Under (P : NetLoop → NetLabel → Prop) (S : Session) : Label → Prop
  | .link l => P S.loop l
  | .invoke _ o => P S.loop (.invoke o)
  | _ => True

/-- What an execution reaches whose steps are of that kind. -/
inductive Reach (P : NetLoop → NetLabel → Prop) : Session → Prop
  | init : Reach P ⟨Loop.init Link.init, []⟩
  | step {S S' : Session} {l : Label} : Reach P S → S.Under P l → S.Step l S' → Reach P S'

end Session

/-! ## §2. What is carried out. -/

/-- What has been carried out in a history, with what came of it. -/
def outcomes (h : List (Event SharedAns)) : List (Invocation × Except PyExc Json) :=
  h.filterMap fun
    | ⟨.invoke o, r⟩ => some (o, r)
    | _ => none

theorem outcomes_append (h h' : List (Event SharedAns)) :
    outcomes (h ++ h') = outcomes h ++ outcomes h' := List.filterMap_append

theorem mem_outcomes {h : List (Event SharedAns)} {x : Invocation × Except PyExc Json} :
    x ∈ outcomes h ↔ (⟨.invoke x.1, x.2⟩ : Event SharedAns) ∈ h := by
  unfold outcomes
  rw [List.mem_filterMap]
  constructor
  · rintro ⟨⟨op, r⟩, he, hx⟩
    cases op with
    | invoke o =>
        obtain rfl := Option.some.inj hx
        exact he
    | _ => cases hx
  · exact fun he => ⟨_, he, rfl⟩

section Connection

variable [Endpoint] [Hashlib]

/-- Task `n` has carried it out. -/
def CarriedOut (L : NetLoop) (x : Invocation × Except PyExc Json) (n : Nat) : Prop :=
  ∃ t, L.tasks[n]? = some t ∧ t.origin = x.1 ∧ t.rest = .ret (x.2, ())

/-- A tool call runs its code, with the tasks that are its own. -/
structure Guest.Sound (L : NetLoop) (g : Guest) : Prop where
  run : Run g.visit.code g.history g.rest
  carried : List.Forall₂ (CarriedOut L) (outcomes g.history) g.tasks
  waits : ∀ n, g.task = some n →
    ∃ o k t, g.rest = .op (.invoke o) k ∧ L.tasks[n]? = some t ∧ t.origin = o

section Steps

variable {L L' : NetLoop} {l : NetLabel}

omit [Hashlib] in
theorem CarriedOut.step {x : Invocation × Except PyExc Json} {n : Nat} (h : CarriedOut L x n)
    (hstep : L.Step Link.machine Invocation.code l L') : CarriedOut L' x n := by
  obtain ⟨t, ht, ho, hrest⟩ := h
  obtain ⟨t', ht', -, hsame⟩ := hstep.task ht
  obtain rfl := hsame _ hrest
  exact ⟨t', ht', ho, hrest⟩

theorem Guest.Sound.link {g : Guest} (h : g.Sound L)
    (hstep : L.Step Link.machine Invocation.code l L') : g.Sound L' where
  run := h.run
  carried := h.carried.imp fun _ _ hc => hc.step hstep
  waits := by
    intro n hn
    obtain ⟨o, k, t, hrest, ht, ho⟩ := h.waits n hn
    obtain ⟨t', ht', ho', -⟩ := hstep.task ht
    exact ⟨o, k, t', hrest, ht', ho'.trans ho⟩

omit [Hashlib] in
/-- The task that an invocation begins. -/
theorem invoked {o : Invocation} (hstep : L.Step Link.machine Invocation.code (.invoke o) L') :
    ∃ t, L'.tasks[L.tasks.length]? = some t ∧ t.origin = o := by
  cases hstep with
  | invoke o => exact ⟨⟨o, [], o.code⟩, by simp, rfl⟩

end Steps

namespace Session

/-- The connection runs as its steps allow, and so does every tool call. -/
structure Sound (P : NetLoop → NetLabel → Prop) (S : Session) : Prop where
  loop : S.loop.Reach Link.machine Invocation.code P Link.init
  guests : ∀ g ∈ S.guests, g.Sound S.loop

variable {P : NetLoop → NetLabel → Prop} {S S' : Session} {l : Label}

omit [Endpoint] [Hashlib] in
theorem forall_mem_set {gs : List Guest} {i : Nat} {g : Guest} {p : Guest → Prop}
    (h : ∀ g ∈ gs, p g) (hg : p g) : ∀ g' ∈ gs.set i g, p g' := by
  intro g' hg'
  rcases List.mem_or_eq_of_mem_set hg' with hold | rfl
  · exact h g' hold
  · exact hg

theorem Sound.step (h : S.Sound P) (hP : S.Under P l) (hstep : S.Step l S') : S'.Sound P := by
  cases hstep with
  | visit v _ =>
      refine ⟨h.loop, fun g hg => ?_⟩
      rcases List.mem_append.mp hg with hold | hnew
      · exact h.guests g hold
      · obtain rfl := List.mem_singleton.mp hnew
        exact ⟨.start, .nil, nofun⟩
  | invoke hi _ hrest hlink =>
      refine ⟨h.loop.step hP hlink, forall_mem_set (fun g hg => (h.guests g hg).link hlink) ?_⟩
      have hg := (h.guests _ (List.mem_of_getElem? hi)).link hlink
      obtain ⟨t, ht, ho⟩ := invoked hlink
      refine ⟨hg.run, hg.carried, fun n hn => ?_⟩
      obtain rfl := Option.some.inj hn
      exact ⟨_, _, t, hrest, ht, ho⟩
  | link _ hlink => exact ⟨h.loop.step hP hlink, fun g hg => (h.guests g hg).link hlink⟩
  | @returns L gs i n g t o k r _ hi hn hrest ht hret =>
      have hg := h.guests g (List.mem_of_getElem? hi)
      obtain ⟨o', k', t', hrest', ht', ho'⟩ := hg.waits n hn
      have hop := hrest.symm.trans hrest'
      injection hop with hop _
      injection hop with hop
      obtain rfl := Option.some.inj (ht.symm.trans ht')
      refine ⟨h.loop, forall_mem_set h.guests ⟨?_, ?_, nofun⟩⟩
      · have hrun := hg.run
        rw [hrest] at hrun
        exact hrun.step r
      · show List.Forall₂ (CarriedOut L) (outcomes (g.history ++ [⟨.invoke o, r⟩])) (g.tasks ++ [n])
        rw [outcomes_append]
        exact List.rel_append hg.carried (.cons ⟨t, ht, ho'.trans hop.symm, hret⟩ .nil)
  | @perform L gs i g op k r _ hi hrest hop =>
      have hg := h.guests g (List.mem_of_getElem? hi)
      refine ⟨h.loop, forall_mem_set h.guests ⟨?_, ?_, fun n hn => ?_⟩⟩
      · have hrun := hg.run
        rw [hrest] at hrun
        exact hrun.step r
      · show List.Forall₂ (CarriedOut L) (outcomes (g.history ++ [⟨op, r⟩])) g.tasks
        have hnone : outcomes [⟨op, r⟩] = [] := by
          cases op with
          | invoke o => exact absurd rfl (hop o)
          | _ => rfl
        rw [outcomes_append, hnone, List.append_nil]
        exact hg.carried
      · obtain ⟨o, _, _, hrest', -, -⟩ := hg.waits n hn
        have hsame := hrest.symm.trans hrest'
        injection hsame with hsame _
        exact absurd hsame (hop o)

theorem Reach.sound (h : S.Reach P) : S.Sound P := by
  induction h with
  | init => exact ⟨.init, fun g hg => absurd hg List.not_mem_nil⟩
  | step _ hP hstep ih => exact ih.step hP hstep

end Session

/-! ## §3. Reads that are answered. -/

/-- The server's own answer to the request, or the end of the read's time. -/
def Genuine (L : NetLoop) (q : Query) (x : Invocation × Except PyExc Json) (n : Nat) : Prop :=
  ∃ method params, x.1 = .call method params ∧
    ((∃ value own, x.2 = .ok value ∧ Link.Delivered L.state.log n own value ∧
        Link.Transmitted L.state.log n (.call method params) own) ∨
      x.2 = .error .cancelledError ∧ q.polls = true)

namespace Session

variable {S S' : Session}

/-- What has been carried out for a read that is not disturbed. -/
theorem Sound.genuine (h : S.Sound Link.Calm) {g : Guest} {q : Query} (hg : g ∈ S.guests)
    (hvisit : g.visit = .query q) (hexpects : ∀ e ∈ g.history, q.expects e) :
    List.Forall₂ (Genuine S.loop q) (outcomes g.history) g.tasks := by
  have hsound := h.guests g hg
  have hrun : Run q.code g.history g.rest := by
    have hrun := hsound.run
    rwa [hvisit] at hrun
  refine ((List.forall₂_and_left _ _).mpr ⟨fun x hx => hx, hsound.carried⟩).imp ?_
  rintro ⟨o, r⟩ n ⟨hx, t, ht, ho, hrest⟩
  have hmem := mem_outcomes.mp hx
  obtain ⟨method, params, rfl⟩ := Query.asks_of_mem hrun hmem
  refine ⟨method, params, rfl, ?_⟩
  rcases Link.outcome h.loop ht ho hrest with hserved | rfl
  · exact .inl hserved
  · exact .inr ⟨rfl, hexpects _ hmem rfl⟩

/-- **A read that has ended has returned.** -/
theorem Sound.returned (h : S.Sound Link.Calm) {g : Guest} {q : Query} {r : Except PyExc Json}
    (hg : g ∈ S.guests) (hvisit : g.visit = .query q) (hrest : g.rest = .ret r)
    (hvalid : q.Valid) (hexpects : ∀ e ∈ g.history, q.expects e) : ∃ value, r = .ok value := by
  have hgenuine := h.genuine hg hvisit hexpects
  have hrun : Run q.code g.history (.ret r) := by
    have hrun := (h.guests g hg).run
    rwa [hvisit, hrest] at hrun
  have hgranted : ∀ e ∈ g.history, q.granted e := by
    rintro ⟨op, r⟩ he
    have hexp := hexpects _ he
    cases op with
    | invoke o =>
        have hx : (o, r) ∈ outcomes g.history := mem_outcomes.mpr he
        obtain ⟨n, -, method, params, rfl, hend⟩ : ∃ n ∈ g.tasks, Genuine S.loop q (o, r) n := by
          obtain ⟨i, hi, hget⟩ := List.mem_iff_getElem.mp hx
          have hi' : i < g.tasks.length := hgenuine.length_eq ▸ hi
          have hget' : Genuine S.loop q (outcomes g.history)[i] g.tasks[i] := hgenuine.get hi hi'
          rw [hget] at hget'
          exact ⟨_, List.getElem_mem hi', hget'⟩
        rcases hend with ⟨value, -, rfl, -⟩ | ⟨rfl, hpolls⟩
        · exact hexp
        · exact ⟨rfl, hpolls⟩
    | _ => exact hexp
  exact wp_run_on (q.returns_code hvalid).wp hrun fun pre e post hsplit =>
    hgranted e (hsplit ▸ List.mem_append_right _ List.mem_cons_self)

/-! ## §4. The end of all calls. -/

/-- A step that is neither a new tool call nor a message nobody waits for. -/
def Heeded (S S' : Session) : Label → Prop
  | .visit _ => False
  | .link l => Link.Heeded S.loop.state S'.loop.state l
  | _ => True

/-- The tool calls at hand go on. -/
def Moves (S S' : Session) : Prop :=
  ∃ l, S.Under Link.Calm l ∧ S.Heeded S' l ∧ S.Step l S'

/-- What is left of every tool call. -/
def rests (S : Session) : List (Prog SharedOp SharedAns (Except PyExc Json)) :=
  S.guests.map (·.rest)

/-- How many of them have nothing carried out. -/
def idlers (S : Session) : Nat := S.guests.countP fun g => g.task.isNone

omit [Endpoint] [Hashlib] in
/-- One of them goes on. -/
theorem answered_set {gs : List Guest} {i : Nat} {g g' : Guest} {op : SharedOp}
    {k : SharedAns op → Prog SharedOp SharedAns (Except PyExc Json)} {r : SharedAns op}
    (hi : gs[i]? = some g) (hrest : g.rest = .op op k) (hrest' : g'.rest = k r) :
    Interaction.Answered (gs.map (·.rest)) ((gs.set i g').map (·.rest)) := by
  rw [List.map_set, hrest']
  refine .answer r ?_
  rw [List.getElem?_map, hi, ← hrest]
  rfl

omit [Endpoint] [Hashlib] in
/-- One of them has something carried out. -/
theorem rests_set {gs : List Guest} {i : Nat} {g g' : Guest} (hi : gs[i]? = some g)
    (hrest : g'.rest = g.rest) : (gs.set i g').map (·.rest) = gs.map (·.rest) := by
  obtain ⟨hlt, rfl⟩ := List.getElem?_eq_some_iff.mp hi
  rw [List.map_set, hrest, ← List.map_set, List.set_getElem_self]

/-- **The tool calls at hand come to an end**: each of them has only so many
operations left, each operation one task, and the tasks come to an end. -/
theorem Sound.acc (h : S.Sound Link.Calm) : Acc (fun S' S => Moves S S') S := by
  suffices key : ∀ ps, Acc (fun qs ps => Interaction.Answered ps qs) ps → ∀ n (L : NetLoop),
      Acc (fun L' L => Link.Moves L L') L → ∀ S : Session, S.Sound Link.Calm → S.rests = ps →
        S.idlers = n → S.loop = L → Acc (fun S' S => Moves S S') S from
    key S.rests (Interaction.Answered.acc _) S.idlers S.loop (Link.moves_acc h.loop) S h rfl rfl rfl
  -- first what is left of the programs, then who has no task, then the tasks
  intro ps hps
  induction hps with
  | intro ps _ ihps =>
      intro n
      induction n using Nat.strong_induction_on with
      | _ n ihn =>
          intro L hL
          induction hL with
          | intro L _ ihL =>
              rintro S hS rfl rfl rfl
              constructor
              rintro S' ⟨l, hcalm, hheeded, hstep⟩
              have hS' : S'.Sound Link.Calm := hS.step hcalm hstep
              have hacc : Acc (fun L' L => Link.Moves L L') S'.loop := Link.moves_acc hS'.loop
              cases hstep with
              | visit v _ => exact hheeded.elim
              | returns _ hi _ hrest _ _ =>
                  exact ihps _ (answered_set hi hrest rfl) _ _ hacc _ hS' rfl rfl rfl
              | perform r _ hi hrest _ =>
                  exact ihps _ (answered_set hi hrest rfl) _ _ hacc _ hS' rfl rfl rfl
              | @invoke L L' gs i g o k hi hnone _ hlink =>
                  -- the programs stay, and one more has a task
                  have hless : idlers ⟨L', gs.set i { g with task := some L.tasks.length }⟩ <
                      idlers ⟨L, gs⟩ := by
                    obtain ⟨hlt, hget⟩ := List.getElem?_eq_some_iff.mp hi
                    show List.countP _ (gs.set i _) < List.countP _ gs
                    rw [List.countP_set hlt, hget]
                    have hpos : 0 < gs.countP fun g => g.task.isNone :=
                      List.countP_pos_iff.mpr ⟨g, List.mem_of_getElem? hi, by rw [hnone]; rfl⟩
                    rw [if_pos (by rw [hnone]; rfl), if_neg (by simp)]
                    omega
                  exact ihn _ hless _ hacc _ hS' (rests_set hi rfl) rfl rfl
              | @link L L' gs l _ hlink =>
                  exact ihL _ ⟨l, hcalm, hheeded, hlink⟩ _ hS' rfl rfl rfl

omit [Hashlib] in
/-- Where the connection can go on, so can all. -/
theorem moves_of_link {L' : NetLoop} (h : Link.Moves S.loop L') [Hashlib] : ∃ S', S.Moves S' := by
  obtain ⟨l, hcalm, hheeded, hstep⟩ := h
  refine ⟨⟨L', S.guests⟩, .link l, hcalm, hheeded, .link ?_ hstep⟩
  rintro o rfl
  exact hheeded

omit [Endpoint] [Hashlib] in
/-- An operation that is not carried out on the connection can be answered. -/
theorem answerable {op : SharedOp} (hinvoke : ∀ o, op ≠ .invoke o) (hunrolled : op ≠ .unrolled) :
    Nonempty (SharedAns op) := by
  cases op with
  | invoke o => exact absurd rfl (hinvoke o)
  | unrolled => exact absurd rfl hunrolled
  | arm seconds => exact ⟨()⟩
  | expired => exact ⟨true⟩
  | sleep => exact ⟨false⟩
  | base op => exact ⟨idleServer op⟩

/-- The read has ended, or gone through all its rounds. -/
def Spent (g : Guest) : Prop := (∃ r, g.rest = .ret r) ∨ ∃ k, g.rest = .op .unrolled k

/-- **Where nobody can go on, every read has ended.** -/
theorem Sound.spent (h : S.Sound Link.Calm) (hstuck : ∀ S', ¬ S.Moves S') {g : Guest} {q : Query}
    (hg : g ∈ S.guests) (hvisit : g.visit = .query q) : Spent g := by
  have hover : ∀ t ∈ S.loop.tasks, Link.Over t := by
    refine Link.progress h.loop fun L' hmove => ?_
    obtain ⟨S', hS'⟩ := moves_of_link hmove
    exact hstuck S' hS'
  have hrun : S.loop.running = none := by
    cases hrun : S.loop.running with
    | none => rfl
    | some i =>
        obtain ⟨L', hmove⟩ := Link.runner_moves h.loop hrun
        obtain ⟨S', hS'⟩ := moves_of_link hmove
        exact absurd hS' (hstuck S')
  obtain ⟨i, hi⟩ := List.getElem?_of_mem hg
  have hsound := h.guests g hg
  obtain ⟨⟨s, running, ts⟩, gs⟩ := S
  obtain rfl : running = none := hrun
  cases hrest : g.rest with
  | ret r => exact .inl ⟨r, hrest⟩
  | op op k =>
      by_cases hunrolled : op = .unrolled
      · subst hunrolled
        exact .inr ⟨k, hrest⟩
      exfalso
      by_cases hinvoke : ∀ o, op ≠ .invoke o
      -- by itself it can go on at any time
      · obtain ⟨r⟩ := answerable hinvoke hunrolled
        exact hstuck _ ⟨.perform i, trivial, trivial, .perform r rfl hi hrest hinvoke⟩
      · obtain ⟨o, ho⟩ := not_forall_not.mp hinvoke
        subst ho
        cases htask : g.task with
        | none =>
            -- a read has requests carried out only, which are always calm
            have hrun : Run q.code g.history g.rest := by
              have hrun := hsound.run
              rwa [hvisit] at hrun
            obtain ⟨method, params, rfl⟩ := Query.asks_of_head hrun (by rw [hrest]; rfl)
            have hcalm : Link.Calm ⟨s, none, ts⟩ (.invoke (.call method params)) :=
              ⟨trivial, trivial⟩
            exact hstuck _ ⟨.invoke i _, hcalm, trivial, .invoke hi htask hrest (.invoke _)⟩
        | some n =>
            -- the tasks are over, so its own has come back
            obtain ⟨o', k', t, -, ht, -⟩ := hsound.waits n htask
            obtain ⟨⟨r, ⟨⟩⟩, hret⟩ := hover t (List.mem_of_getElem? ht)
            exact hstuck _ ⟨.returns i, trivial, trivial, .returns rfl hi htask hrest ht hret⟩

/-- **Isolated reads**: as long as no `close()` begins where it takes something
from a call, and no call takes the connect lock before every `close()` has
ended, a read that ends has returned what its code makes of the server's own
answers; the tool calls at hand come to an end; and where none of them can go
on, every read has ended. -/
theorem reads_isolated (h : S.Reach Link.Calm) :
    (∀ g ∈ S.guests, ∀ q r, g.visit = .query q → g.rest = .ret r → q.Valid →
      (∀ e ∈ g.history, q.expects e) →
      (∃ value, r = .ok value) ∧ Run q.code g.history (.ret r) ∧
        List.Forall₂ (Genuine S.loop q) (outcomes g.history) g.tasks) ∧
    Acc (fun S' S => Moves S S') S ∧
    ((∀ S', ¬ S.Moves S') → ∀ g ∈ S.guests, ∀ q, g.visit = .query q → Spent g) := by
  have hS := h.sound
  refine ⟨fun g hg q r hvisit hrest hvalid hexpects => ⟨?_, ?_, ?_⟩, hS.acc, ?_⟩
  · exact hS.returned hg hvisit hrest hvalid hexpects
  · have hrun := (hS.guests g hg).run
    rwa [hvisit, hrest] at hrun
  · exact hS.genuine hg hvisit hexpects
  · exact fun hstuck g hg q hvisit => hS.spent hstuck hg hvisit

end Session

/-! ## §5. Runs. -/

/-- The tool call does what it does by itself, for so many operations. -/
def Guest.own (env : (op : Op) → Ans op) : Nat → Guest → Guest
  | 0, g => g
  | n + 1, g =>
      match g.rest with
      | .op (.base op) k => (g.answer (.base op) (env op) (k (env op))).own env n
      | _ => g

namespace Session

open Link

section Runs

variable {P : Link → NetLabel → Prop} {s s' : Link} {running running' : Option Nat}
  {js js' : List Spot} {gs : List Guest} {i n : Nat} {g : Guest}

/-- Some execution reaches the state `s` of the connection, with the given
task running, the given notes on the tasks, and the given tool calls. -/
def Shows (P : Link → NetLabel → Prop) (s : Link) (running : Option Nat) (js : List Spot)
    (gs : List Guest) : Prop :=
  ∃ L : NetLoop, Reach (fun L => P L.state) ⟨L, gs⟩ ∧ L.state = s ∧ L.running = running ∧
    L.tasks.map (·.journal spots) = js

/-- A stricter condition reaches less. -/
theorem Reach.mono {P P' : NetLoop → NetLabel → Prop} {S : Session} (h : S.Reach P)
    (hP : ∀ L l, P L l → P' L l) : S.Reach P' := by
  induction h with
  | init => exact .init
  | @step S S' l _ hl hstep ih =>
      refine ih.step ?_ hstep
      cases l with
      | link l => exact hP _ _ hl
      | invoke i o => exact hP _ _ hl
      | _ => exact trivial

theorem shows_init : Shows P Link.init none [] [] := ⟨Loop.init Link.init, .init, rfl, rfl, rfl⟩

theorem Shows.mono {P' : Link → NetLabel → Prop} (h : Shows P s running js gs)
    (hP : ∀ s l, P s l → P' s l) : Shows P' s running js gs := by
  obtain ⟨L, hreach, hrest⟩ := h
  exact ⟨L, hreach.mono fun L l => hP L.state l, hrest⟩

theorem Shows.go {l : NetLabel} (h : Shows P s running js gs)
    (hl : spots.Leads machine s running js l s' running' js') (hP : P s l)
    (hinvoke : ∀ o, l ≠ .invoke o) : Shows P s' running' js' gs := by
  obtain ⟨L, hreach, rfl, rfl, rfl⟩ := h
  obtain ⟨L', hstep, rfl, rfl, rfl⟩ := hl L (fun _ _ ht => hreach.sound.loop.run ht) rfl rfl rfl
  exact ⟨L', hreach.step (l := .link l) hP (.link hinvoke hstep), rfl, rfl, rfl⟩

/-- One task goes on. -/
theorem Shows.along {p p' : Spot} (h : Shows P s running js gs) (hj : js[i]? = some p)
    (hwalk : Walk P i s running p s' running' p') : Shows P s' running' (js.set i p') gs := by
  have hlt := (List.getElem?_eq_some_iff.mp hj).1
  induction hwalk with
  | refl => rwa [Script.set_of_getElem? hj]
  | step _ hP hinvoke hleads ih =>
      have hnext := ih.go (hleads _ (List.getElem?_set_self hlt)) hP hinvoke
      rwa [List.set_set] at hnext

theorem Shows.visit (h : Shows P s none js gs) (v : Visit) :
    Shows P s none js (gs ++ [.start v]) := by
  obtain ⟨L, hreach, rfl, hrun, rfl⟩ := h
  exact ⟨L, hreach.step (l := .visit v) trivial (.visit v hrun), rfl, hrun, rfl⟩

theorem Shows.invoke (h : Shows P s none js gs) {o : Invocation}
    {k : SharedAns (.invoke o) → Prog SharedOp SharedAns (Except PyExc Json)}
    (hi : gs[i]? = some g) (htask : g.task = none) (hrest : g.rest = .op (.invoke o) k)
    (hP : P s (.invoke o)) :
    Shows P s (some js.length) (js ++ [spots.start o])
      (gs.set i { g with task := some js.length }) := by
  obtain ⟨L, hreach, rfl, hrun, rfl⟩ := h
  obtain ⟨L', hstep, hstate, hrun', hjs⟩ :=
    Script.leads_invoke (S := spots) (M := machine) o L (fun _ _ ht => hreach.sound.loop.run ht)
      rfl hrun rfl
  have hnext := hreach.step (l := .invoke i o) hP (.invoke hi htask hrest hstep)
  refine ⟨L', ?_, hstate, hrun', hjs⟩
  rw [List.length_map]
  exact hnext

theorem Shows.returns (h : Shows P s none js gs) {o : Invocation}
    {k : SharedAns (.invoke o) → Prog SharedOp SharedAns (Except PyExc Json)}
    {r : Except PyExc Json} (hi : gs[i]? = some g) (htask : g.task = some n)
    (hrest : g.rest = .op (.invoke o) k) (hj : js[n]? = some ⟨o, .ended r⟩) :
    Shows P s none js (gs.set i ((g.answer (.invoke o) r (k r)).welcome n)) := by
  obtain ⟨L, hreach, rfl, hrun, rfl⟩ := h
  rw [List.getElem?_map] at hj
  obtain ⟨t, ht, hjournal⟩ := Option.map_eq_some_iff.mp hj
  have hret : t.rest = .ret (r, ()) :=
    rest_of_ended (hreach.sound.loop.run ht) (by rw [hjournal])
  exact ⟨L, hreach.step (l := .returns i) trivial (.returns hrun hi htask hrest ht hret),
    rfl, hrun, rfl⟩

theorem Shows.own (h : Shows P s none js gs) (env : (op : Op) → Ans op) (hi : gs[i]? = some g)
    (n : Nat) : Shows P s none js (gs.set i (g.own env n)) := by
  induction n generalizing gs g with
  | zero =>
      obtain ⟨hlt, rfl⟩ := List.getElem?_eq_some_iff.mp hi
      rwa [Guest.own, List.set_getElem_self]
  | succ n ih =>
      unfold Guest.own
      split
      · rename_i op k hrest
        obtain ⟨L, hreach, rfl, hrun, rfl⟩ := h
        have hstep := hreach.step (l := .perform i) trivial (.perform (env op) hrun hi hrest nofun)
        have hnext := ih ⟨L, hstep, rfl, hrun, rfl⟩
          (List.getElem?_set_self (List.getElem?_eq_some_iff.mp hi).1)
        rwa [List.set_set] at hnext
      · obtain ⟨hlt, rfl⟩ := List.getElem?_eq_some_iff.mp hi
        rwa [List.set_getElem_self]

section Requests

omit [Endpoint] [Hashlib] in
theorem set_concat (js : List Spot) (p p' : Spot) : (js ++ [p]).set js.length p' = js ++ [p'] := by
  rw [List.set_append_right _ _ le_rfl, Nat.sub_self]
  rfl

variable {method : String} {params : Dict} {c : Conn}
  {k : SharedAns (.invoke (.call method params)) → Prog SharedOp SharedAns (Except PyExc Json)}

/-- The first request connects, and is answered. -/
theorem Shows.first (h : Shows Unclosed Link.init none [] gs) (hi : gs[i]? = some g)
    (htask : g.task = none) (hrest : g.rest = .op (.invoke (.call method params)) k)
    (value : Json) :
    ∃ s, Link.Idle s 0 ∧ Shows Unclosed s none [⟨.call method params, .ended (.ok value)⟩]
      (gs.set i { g with task := some 0 }) := by
  have h := h.invoke hi htask hrest ⟨trivial, nofun⟩
  have h := h.along (i := 0) rfl (walk_settled unclosed_of_smooth unclosed_greeted)
  have h := h.along (i := 0) rfl (walk_requesting unclosed_of_smooth rfl rfl)
  obtain ⟨s, hidle, hwalk⟩ := idle_settled.walk_answered value
  exact ⟨s, hidle, h.along (i := 0) rfl hwalk⟩

/-- Another one is answered. -/
theorem Shows.next (h : Shows Unclosed s none js gs) (hidle : Link.Idle s c)
    (hi : gs[i]? = some g) (htask : g.task = none)
    (hrest : g.rest = .op (.invoke (.call method params)) k) (value : Json) :
    ∃ s', Link.Idle s' c ∧
      Shows Unclosed s' none (js ++ [⟨.call method params, .ended (.ok value)⟩])
        (gs.set i { g with task := some js.length }) := by
  have h := h.invoke hi htask hrest ⟨trivial, nofun⟩
  obtain ⟨s', hidle', hwalk⟩ := hidle.walk_answered value
  have h := h.along List.getElem?_concat_length (hidle.walk_asking.trans hwalk)
  rw [set_concat] at h
  exact ⟨s', hidle', h⟩

omit [Endpoint] [Hashlib] in
theorem friendly_fails {i ident : Nat} {failure : String} :
    Friendly s (.resume i ⟨.awaitReply ident, .error (.exception "TransportError" failure)⟩) := by
  intro h
  exact absurd (Fault.exception.inj h).1 (by decide)

/-- The stream has ended, as the transport's `close()` had been entered. -/
def severed (s : Link) (c : Conn) : Link :=
  { s with
    closing := Function.update s.closing c true
    pending := failAll disconnected s.pending
    readers := Function.update s.readers c (.done none) }

omit [Hashlib] in
/-- A `close()` ends the stream, -/
theorem walk_severing (hws : s.ws = some c) (hreading : s.readers c = .reading c) :
    Walk Friendly i s (some i) ⟨.close, .shutting .alone⟩ (severed s c) none
      ⟨.close, .closing .alone c⟩ := by
  have h := walk_start Friendly i s (some i) ⟨.close, .shutting .alone⟩
  have h := h.act spots_exact rfl trivial (.ws_of hws)
  have h := h.await spots_exact rfl trivial (.closeTransport c)
  refine h.ambient (.ends c) (fun w hw => ?_) (.ends hreading)
  obtain rfl : c = w := Reader.reading.inj (hreading.symm.trans hw)
  exact Function.update_self ..

omit [Hashlib] in
/-- and a request in flight fails. -/
theorem walk_failing {ident : Nat} (hmem : (ident, .failed disconnected) ∈ s.pending) :
    ∃ s', Walk Friendly i s none
      ⟨.call method params, .awaiting (.own method params) c ident⟩ s' none
      ⟨.call method params, .ended (.error (.transportError disconnected))⟩ := by
  have h := walk_start Friendly i s none
    ⟨.call method params, .awaiting (.own method params) c ident⟩
  have h := h.resume spots_exact rfl friendly_fails (.awaitReplyFails hmem)
  have h := h.act spots_exact rfl trivial (.unregister ident)
  exact ⟨_, h.finish (fun _ => nofun) trivial⟩

/-- A `close()` while a request is in flight. -/
theorem Shows.interrupted (h : Shows Friendly (s.asking n c method params) (some js.length)
      (js ++ [⟨.close, .shutting .alone⟩]) gs)
    (hidle : Link.Idle s c)
    (hj : js[n]? =
      some (⟨.call method params, .awaiting (.own method params) c (s.counter + 1)⟩ : Spot)) :
    ∃ s', Shows Friendly s' none
      ((js ++ [(⟨.close, .closing .alone c⟩ : Spot)]).set n
        ⟨.call method params, .ended (.error (.transportError disconnected))⟩) gs := by
  have h := h.along List.getElem?_concat_length (walk_severing hidle.ws hidle.reading)
  rw [set_concat] at h
  have hmem : (s.counter + 1, .failed disconnected) ∈
      (severed (s.asking n c method params) c).pending := by
    show _ ∈ failAll disconnected (s.pending ++ [(s.counter + 1, .waiting)])
    rw [hidle.pending]
    exact List.mem_cons_self
  have hwaits : (js ++ [(⟨.close, .closing .alone c⟩ : Spot)])[n]? =
      some ⟨.call method params, .awaiting (.own method params) c (s.counter + 1)⟩ := by
    rw [List.getElem?_append_left (List.getElem?_eq_some_iff.mp hj).1]
    exact hj
  obtain ⟨s', hwalk⟩ := walk_failing hmem
  exact ⟨s', h.along hwaits hwalk⟩

end Requests

omit [Endpoint] [Hashlib] in
theorem friendly_of_unclosed (s : Link) (l : NetLabel) (h : Unclosed s l) : Friendly s l := h.1

/-- Where nobody closes, the connection is calm. -/
theorem calm_of_unclosed {S : Session} (h : S.Reach fun L => Unclosed L.state) :
    S.Reach Link.Calm := by
  induction h with
  | init => exact .init
  | @step S S' l hprev hl hstep ih =>
      have hopen := (Link.calm_of_unclosed hprev.sound.loop).2
      refine ih.step ?_ hstep
      cases l with
      | link l => exact calm_of_open hopen hl
      | invoke i o => exact calm_of_open hopen hl
      | _ => exact trivial

end Runs

end Session

end Connection

namespace Session

open Link

/-- A read that has been answered. -/
theorem reads_isolated_answered :
    let _ := Endpoint.sample
    let _ := Hashlib.verbatim
    ∃ S : Session, ∃ g ∈ S.guests, g.visit = .query (.getGoal "t") ∧ g.rest = .ret (.ok .null) ∧
      List.Forall₂ (Genuine S.loop (.getGoal "t")) (outcomes g.history) g.tasks := by
  intro _ _
  have h : Shows Unclosed Link.init none [] [] := shows_init
  have h := h.visit (.query (.getGoal "t"))
  obtain ⟨s, -, h⟩ := h.first (i := 0) rfl rfl rfl .null
  obtain ⟨L, hreach, -⟩ := h.returns (i := 0) rfl rfl rfl rfl
  have hserved := (reads_isolated (calm_of_unclosed hreach)).1 _ List.mem_cons_self
    (.getGoal "t") (.ok .null) rfl rfl rfl fun e he => by
      obtain rfl := List.mem_singleton.mp he
      exact trivial
  refine ⟨_, _, ?_, ?_, ?_, hserved.2.2⟩
  · exact List.mem_cons_self
  · rfl
  · rfl

/-- The thread is at work. -/
def activeThread : Json := .obj [("thread", .obj [("status", .obj [("type", .str "active")])])]

/-- Its turn. -/
def activeTurn : Json := .obj [("turn", .obj [("id", .str "u")])]

/-- A send to an active thread closes the connection while a read waits for
its goal: the read raises, although the server would answer it. -/
theorem read_interrupted :
    let _ := Endpoint.sample
    let _ := Hashlib.verbatim
    ∃ S : Session, S.Reach (fun L => Friendly L.state) ∧
      S.guests.map (·.visit) =
        [.mutation "r" (.sendMessageToThread ⟨"t", "hi"⟩), .query (.getGoal "t")] ∧
      ∃ g ∈ S.guests, g.visit = .query (.getGoal "t") ∧ (Query.getGoal "t").Valid ∧
        (∀ e ∈ g.history, (Query.getGoal "t").expects e) ∧
        g.rest = .ret (.error (.transportError disconnected)) := by
  intro _ _
  have h : Shows Unclosed Link.init none [] [] := shows_init
  -- the mutation, up to its first request
  have h := h.visit (.mutation "r" (.sendMessageToThread ⟨"t", "hi"⟩))
  have h := h.own (i := 0) idleServer rfl 10
  obtain ⟨_, hidle, h⟩ := h.first (i := 0) rfl rfl rfl activeThread
  have h := (h.returns (i := 0) rfl rfl rfl rfl).own (i := 0) idleServer rfl 10
  -- the second one, and up to the close
  obtain ⟨_, hidle, h⟩ := h.next hidle (i := 0) rfl rfl rfl activeTurn
  have h := (h.returns (i := 0) rfl rfl rfl rfl).own (i := 0) idleServer rfl 10
  -- the read sends its request
  have h := h.visit (.query (.getGoal "t"))
  have h := h.invoke (i := 1) rfl rfl rfl ⟨trivial, nofun⟩
  have h := h.along (i := 2) rfl hidle.walk_asking
  -- the close
  have h := (h.mono friendly_of_unclosed).invoke (i := 0) (o := .close) rfl rfl rfl trivial
  obtain ⟨_, h⟩ := h.interrupted hidle (n := 2) rfl
  obtain ⟨L, hreach, -⟩ := h.returns (i := 1) rfl rfl rfl rfl
  refine ⟨_, hreach, rfl, _, List.mem_cons_of_mem _ List.mem_cons_self, rfl, rfl, ?_, rfl⟩
  intro e he
  obtain rfl := List.mem_singleton.mp he
  exact nofun

end Session

end CodexRemoteBridge
