/-
  CodexRemoteBridge.Progress — no mutation waits for ever.

  The surroundings may answer as they like, faults included, as long as they
  answer: the server, the filesystem, Git, the connection.  What came before
  may have been anything, crashes and cancellations too.  Then the calls
  there are come to an end, whoever goes first, and nobody is left waiting
  for a mutation lock.

  Main result: `System.progresses`.
-/
import CodexRemoteBridge.Serialization
import CodexRemoteBridge.Lib.Cooperative

namespace CodexRemoteBridge

open Interaction

/-! ## §1. Surroundings that answer. -/

/-- What the surroundings may answer an operation with, after what a call
has seen; there is always something. -/
structure Surroundings where
  answers : List (Event WireAns) → (op : WireOp) → WireAns op → Prop
  answer : ∀ h op, ∃ r, answers h op r

/-- The lock and the table do not fail, and the rest is answered by the
surroundings. -/
def Surroundings.Allows (env : Surroundings) (h : List (Event WireAns)) : Event WireAns → Prop
  | ⟨.base .acquire, r⟩ => r = .ok ()
  | ⟨.base (.select _), r⟩ => ∃ a, r = .ok a
  | ⟨.base (.beginRow _ _ _), r⟩ => ∃ a, r = .ok a
  | ⟨.base (.update _ _), r⟩ => r = .ok ()
  | ⟨op, r⟩ => env.answers h op r

/-- An operation has an answer, unless it has to wait for the lock. -/
theorem Surroundings.can_answer (env : Surroundings) (h : List (Event WireAns)) (store : Store)
    (bridge : Nat) (locked : Nat → Bool) (op : WireOp)
    (hfree : op = .base .acquire → locked bridge = false) :
    ∃ r store' locked', Serves store op r store' ∧ Locks bridge locked op r locked' ∧
      env.Allows h ⟨op, r⟩ := by
  obtain ⟨r, hr⟩ := env.answer h op
  cases op with
  | net op =>
      exact ⟨r, _, _, .other r (by simp) (by simp) (by simp), .other r (by simp) (by simp), hr⟩
  | base op =>
      cases op with
      | acquire =>
          exact ⟨.ok (), _, _, .other _ (by simp) (by simp) (by simp), .acquire (hfree rfl), rfl⟩
      | release =>
          exact ⟨(), _, _, .other _ (by simp) (by simp) (by simp), .release, hr⟩
      | select requestId =>
          exact ⟨_, _, _, .select requestId, .other _ (by simp) (by simp), _, rfl⟩
      | beginRow requestId fp receipt =>
          cases hfind : store.find? requestId with
          | none => exact ⟨_, _, _, .insert hfind, .other _ (by simp) (by simp), _, rfl⟩
          | some row => exact ⟨_, _, _, .found hfind, .other _ (by simp) (by simp), _, rfl⟩
      | update key receipt =>
          by_cases hkey : ∃ requestId, key = .str requestId
          · obtain ⟨requestId, rfl⟩ := hkey
            exact ⟨_, _, _, .update requestId receipt, .other _ (by simp) (by simp), rfl⟩
          · exact ⟨.ok (), _, _, .updateNothing receipt fun id he => hkey ⟨id, he⟩,
              .other _ (by simp) (by simp), rfl⟩
      | _ =>
          exact ⟨r, _, _, .other r (by simp) (by simp) (by simp), .other r (by simp) (by simp), hr⟩

/-! ## §2. Steps without disturbance. -/

section Model

variable [Hashlib] [Endpoint]

/-- A call goes on: nobody new comes, nobody dies, and nobody gives up
waiting for the lock. -/
inductive System.Works (env : Surroundings) (S : System) : System → Prop
  | act {i : Nat} {c : Client} {op : WireOp}
      {k : WireAns op → Prog WireOp WireAns (Except PyExc Dict × Dict)}
      {r : WireAns op} {store : Store} {locked : Nat → Bool} :
      S.clients[i]? = some c → c.stopped = false → c.rest = .op op k →
      Serves S.store op r store → Locks c.bridge S.locked op r locked →
      env.Allows c.history ⟨op, r⟩ →
      System.Works env S
        { store := store, clients := S.clients.set i (c.answered op r (k r)), locked := locked }

/-- Any number of such steps. -/
inductive System.WorksOn (env : Surroundings) (S : System) : System → Prop
  | refl : System.WorksOn env S S
  | tail {S' S'' : System} : System.WorksOn env S S' → S'.Works env S'' →
      System.WorksOn env S S''

variable {env : Surroundings} {S S' : System}

theorem System.Works.step (h : S.Works env S') : S.Step S' := by
  cases h with
  | act hi hlive hrest hserve hlock _ => exact .act hi hlive hrest hserve hlock

theorem System.WorksOn.reach {S₀ : System} (hr : System.Reach S₀ S) (h : S.WorksOn env S') :
    System.Reach S₀ S' := by
  induction h with
  | refl => exact hr
  | tail _ hworks ih => exact ih.step hworks.step

/-- What is left of every call. -/
def System.rests (S : System) : List (Prog WireOp WireAns (Except PyExc Dict × Dict)) :=
  S.clients.map Client.rest

omit [Hashlib] [Endpoint] in
theorem System.Works.answered (h : S.Works env S') : Answered S.rests S'.rests := by
  cases h with
  | @act i c op k r store locked hi _ hrest _ _ _ =>
      have hget : S.rests[i]? = some (.op op k) := by
        show (S.clients.map Client.rest)[i]? = _
        rw [List.getElem?_map, hi, ← hrest]
        rfl
      have hset : (S.clients.set i (c.answered op r (k r))).map Client.rest
          = S.rests.set i (k r) := by
        rw [List.map_set]
        rfl
      show Answered S.rests ((S.clients.set i (c.answered op r (k r))).map Client.rest)
      rw [hset]
      exact .answer r hget

omit [Hashlib] [Endpoint] in
/-- **Nothing goes on for ever.** -/
theorem System.works_acc (env : Surroundings) (S : System) :
    Acc (fun S' S => S.Works env S') S := by
  have h : ∀ rests, Acc (fun qs ps => Answered ps qs) rests → ∀ S : System, S.rests = rests →
      Acc (fun S' S => System.Works env S S') S := by
    intro rests hacc
    induction hacc with
    | intro rests _ ih =>
        rintro S rfl
        exact ⟨_, fun S' hworks => ih _ hworks.answered S' rfl⟩
  exact h _ (Answered.acc S.rests) S rfl

/-! ## §3. Nobody waits in vain. -/

/-- A call that is live and stands at an operation. -/
structure Client.Pending (c : Client) : Prop where
  live : c.stopped = false
  stands : ∃ op, c.rest.head? = some op

omit [Hashlib] [Endpoint] in
/-- A call that does not have to wait for the lock can go on. -/
theorem System.can_work {i : Nat} {c : Client} (hi : S.clients[i]? = some c)
    (hlive : c.stopped = false) {op : WireOp} (hop : c.rest.head? = some op)
    (hfree : op = .base .acquire → S.locked c.bridge = false) : ∃ S', S.Works env S' := by
  cases hrest : c.rest with
  | ret a =>
      rw [hrest] at hop
      cases hop
  | op op' k =>
      rw [hrest] at hop
      obtain rfl : op' = op := Option.some.inj hop
      obtain ⟨r, store, locked, hserve, hlock, hallows⟩ :=
        env.can_answer c.history S.store c.bridge S.locked op' hfree
      exact ⟨_, .act hi hlive hrest hserve hlock hallows⟩

/-- **No deadlock**: as long as a call is pending, one can go on. -/
theorem System.works_of_pending {store : Store} (hr : System.Reach (System.init store) S)
    {c : Client} (hc : c ∈ S.clients) (hpending : c.Pending) : ∃ S', S.Works env S' := by
  have howned := Owned.of_reach hr
  obtain ⟨holder, hexcl⟩ := Excluded.of_reach hr
  obtain ⟨i, hi⟩ := List.mem_iff_getElem?.mp hc
  obtain ⟨op, hop⟩ := hpending.stands
  by_cases hlocked : S.locked c.bridge = true
  · -- Then whoever holds the lock can.
    rw [hexcl.locked] at hlocked
    obtain ⟨j, hj⟩ := Option.isSome_iff_exists.mp hlocked
    obtain ⟨d, hd, hbridge⟩ := hexcl.real _ j hj
    rw [← hbridge] at hj
    have hholding := (hexcl.holds j d hd).mpr hj
    obtain ⟨hlive, op', hop', hne⟩ := (howned.working_iff (List.mem_of_getElem? hd)).mpr hholding
    exact System.can_work hd hlive hop' fun he => absurd he hne
  · exact System.can_work hi hpending.live hop fun _ => by simpa using hlocked

/-- Where all calls are over, no lock is taken. -/
theorem System.unlocked {store : Store} (hr : System.Reach (System.init store) S)
    (hover : ∀ c ∈ S.clients, ¬ c.Pending) (bridge : Nat) : S.locked bridge = false := by
  have howned := Owned.of_reach hr
  obtain ⟨holder, hexcl⟩ := Excluded.of_reach hr
  rw [hexcl.locked]
  cases hj : holder bridge with
  | none => rfl
  | some j =>
      obtain ⟨d, hd, rfl⟩ := hexcl.real _ j hj
      have hmem := List.mem_of_getElem? hd
      obtain ⟨hlive, op, hop, _⟩ :=
        (howned.working_iff hmem).mpr ((hexcl.holds j d hd).mpr hj)
      exact absurd ⟨hlive, op, hop⟩ (hover d hmem)

/-- How the calls of `S` go on. -/
structure System.Progresses (env : Surroundings) (S : System) : Prop where
  /-- They cannot go on for ever. -/
  finite : Acc (fun S' S => System.Works env S S') S
  /-- They do not stop before they are over: each that is live has returned or
  raised, and no lock is taken. -/
  complete : ∀ S', S.WorksOn env S' → (¬ ∃ S'', S'.Works env S'') →
    (∀ c ∈ S'.clients, c.stopped = false → ∃ out, c.rest = .ret out) ∧
      ∀ bridge, S'.locked bridge = false
  /-- So the end can be reached. -/
  reaches : ∃ S', S.WorksOn env S' ∧ ¬ ∃ S'', S'.Works env S''

omit [Hashlib] [Endpoint] in
theorem System.WorksOn.trans {S'' : System} (h : S.WorksOn env S') (h' : S'.WorksOn env S'') :
    S.WorksOn env S'' := by
  induction h' with
  | refl => exact h
  | tail _ hworks ih => exact ih.tail hworks

omit [Hashlib] [Endpoint] in
/-- From every state the end can be reached. -/
theorem System.exists_end (env : Surroundings) (S : System) :
    ∃ S', S.WorksOn env S' ∧ ¬ ∃ S'', S'.Works env S'' := by
  induction System.works_acc env S with
  | intro S _ ih =>
      by_cases hworks : ∃ S', S.Works env S'
      · obtain ⟨S', hS'⟩ := hworks
        obtain ⟨S'', hon, hend⟩ := ih S' hS'
        exact ⟨S'', (System.WorksOn.tail .refl hS').trans hon, hend⟩
      · exact ⟨S, .refl, hworks⟩

/-- **Progress.**  From every state of every execution, whatever the
surroundings answer, every live call comes to its end and every lock is
given back. -/
theorem System.progresses {store : Store} (hr : System.Reach (System.init store) S)
    (env : Surroundings) : S.Progresses env where
  finite := System.works_acc env S
  complete := by
    intro S' hon hstuck
    have hr' := hon.reach hr
    have hover : ∀ c ∈ S'.clients, ¬ c.Pending :=
      fun c hc hpending => hstuck (System.works_of_pending hr' hc hpending)
    refine ⟨fun c hc hlive => ?_, System.unlocked hr' hover⟩
    cases hrest : c.rest with
    | ret out => exact ⟨out, rfl⟩
    | op op k =>
        exact absurd ⟨hlive, op, by rw [hrest]; rfl⟩ (hover c hc)
  reaches := System.exists_end env S

end Model

instance : Inhabited Fault := ⟨.cancelled⟩

instance : Inhabited PyExc := ⟨.cancelledError⟩

/-- Surroundings that may answer anything. -/
def Surroundings.any : Surroundings where
  answers _ _ _ := True
  answer _ op := by
    rcases op with op | op <;> cases op <;> exact ⟨default, trivial⟩

/-- One retitling holds the lock, another one waits for it, and a third has
died with its bridge. -/
theorem System.progresses_waiting :
    let _ := Hashlib.verbatim
    let _ := Endpoint.sample
    ∃ S : System, System.Reach (System.init Store.empty) S ∧ S.clients.length = 3 ∧
      S.locked 0 = true ∧ S.Progresses Surroundings.any := by
  intro _ _
  have h := (System.Trace.init : System.Trace (System.init Store.empty) [] _)
    |>.call 0 "r" (.setThreadTitle ⟨"t", "x"⟩)
    |>.call 1 "p" (.setThreadTitle ⟨"t", "z"⟩)
    |>.answer 0 (.base .acquire) (.ok ()) rfl rfl rfl (.other _ (by simp) (by simp) (by simp))
        (.acquire rfl)
    |>.answer 1 (.base .acquire) (.ok ()) rfl rfl rfl (.other _ (by simp) (by simp) (by simp))
        (.acquire rfl)
    |>.call 0 "q" (.setThreadTitle ⟨"t", "y"⟩)
    |>.crash 1
  exact ⟨_, h.reach, rfl, rfl, System.progresses h.reach Surroundings.any⟩

end CodexRemoteBridge
