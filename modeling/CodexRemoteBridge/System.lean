/-
  CodexRemoteBridge.System — any number of bridges over one ledger file.

  A step starts a tool call, answers the operation one call stands at, or
  kills a bridge with everything it was doing.  SQLite's statements are
  atomic and what they commit stays; every other answer is free, so the
  server, the filesystem, Git, the connection and cancellation are
  whatever they like.

  `Owned` is the invariant behind the results about whole executions: a
  row belongs to the one call that inserted it, and holds what that call
  saved last.
-/
import CodexRemoteBridge.Ownership

namespace CodexRemoteBridge

open Interaction

/-! ## §1. States and steps. -/

section Model

variable [Hashlib] [Endpoint]

/-- A tool call, as far as it has got. -/
structure Client where
  bridge : Nat
  requestId : String
  tool : ToolCall
  history : List (Event WireAns)
  rest : Prog WireOp WireAns (Except PyExc Dict × Dict)
  /-- The process has died. -/
  stopped : Bool

/-- A call that is about to start. -/
def Client.start (bridge : Nat) (requestId : String) (tool : ToolCall) : Client where
  bridge := bridge
  requestId := requestId
  tool := tool
  history := []
  rest := tool.wire requestId
  stopped := false

/-- The ledger file, every call so far, and the mutation locks held. -/
structure System where
  store : Store
  clients : List Client
  locked : Nat → Bool

end Model

/-- The row as `SELECT fingerprint, receipt` reads it. -/
def Row.stored (row : Row) : StoredRow := (row.fingerprint, row.receipt)

/-- How SQLite answers an operation, and the table afterwards. -/
inductive Serves (s : Store) : (op : WireOp) → WireAns op → Store → Prop
  | select (requestId : String) :
      Serves s (.base (.select requestId)) (.ok ((s.find? requestId).map Row.stored)) s
  | selectFails (requestId : String) (f : Fault) :
      Serves s (.base (.select requestId)) (.error f) s
  | insert {requestId fp : String} {receipt : Dict} :
      s.find? requestId = none →
      Serves s (.base (.beginRow requestId fp receipt)) (.ok none)
        (s.insertOrIgnore ⟨requestId, fp, receipt⟩).2
  | found {requestId fp : String} {receipt : Dict} {row : Row} :
      s.find? requestId = some row →
      Serves s (.base (.beginRow requestId fp receipt)) (.ok (some row.stored)) s
  | insertFails (requestId fp : String) (receipt : Dict) (f : Fault) :
      Serves s (.base (.beginRow requestId fp receipt)) (.error f) s
  | update (requestId : String) (receipt : Dict) :
      Serves s (.base (.update (.str requestId) receipt)) (.ok ()) (s.update requestId receipt)
  /-- No `request_id` is anything but text. -/
  | updateNothing {key : Json} (receipt : Dict) :
      (∀ requestId, key ≠ .str requestId) → Serves s (.base (.update key receipt)) (.ok ()) s
  | updateFails (key : Json) (receipt : Dict) (f : Fault) :
      Serves s (.base (.update key receipt)) (.error f) s
  | other {op : WireOp} (r : WireAns op) :
      (∀ requestId, op ≠ .base (.select requestId)) →
      (∀ requestId fp receipt, op ≠ .base (.beginRow requestId fp receipt)) →
      (∀ key receipt, op ≠ .base (.update key receipt)) → Serves s op r s

/-- How the mutation lock of a bridge answers, and the locks afterwards. -/
inductive Locks (bridge : Nat) (locked : Nat → Bool) :
    (op : WireOp) → WireAns op → (Nat → Bool) → Prop
  | acquire : locked bridge = false →
      Locks bridge locked (.base .acquire) (.ok ()) (Function.update locked bridge true)
  | acquireFails (f : Fault) : Locks bridge locked (.base .acquire) (.error f) locked
  | release : Locks bridge locked (.base .release) () (Function.update locked bridge false)
  | other {op : WireOp} (r : WireAns op) :
      op ≠ .base .acquire → op ≠ .base .release → Locks bridge locked op r locked

variable [Hashlib] [Endpoint]

/-- A step of the system. -/
inductive System.Step (S : System) : System → Prop
  /-- A tool is called. -/
  | call (bridge : Nat) (requestId : String) (tool : ToolCall) :
      System.Step S { S with clients := S.clients ++ [Client.start bridge requestId tool] }
  /-- The operation a call stands at is answered. -/
  | act {i : Nat} {c : Client} {op : WireOp}
      {k : WireAns op → Prog WireOp WireAns (Except PyExc Dict × Dict)}
      {r : WireAns op} {store : Store} {locked : Nat → Bool} :
      S.clients[i]? = some c → c.stopped = false → c.rest = .op op k →
      Serves S.store op r store → Locks c.bridge S.locked op r locked →
      System.Step S
        { store := store
          clients := S.clients.set i
            { c with history := c.history ++ [⟨op, r⟩], rest := k r }
          locked := locked }
  /-- A bridge dies, with its calls; its lock goes with it. -/
  | crash (bridge : Nat) :
      System.Step S
        { S with
          clients := S.clients.map fun c =>
            if c.bridge = bridge then { c with stopped := true } else c
          locked := Function.update S.locked bridge false }

/-- The states an execution from `S₀` passes through. -/
inductive System.Reach (S₀ : System) : System → Prop
  | init : System.Reach S₀ S₀
  | step {S S' : System} : System.Reach S₀ S → S.Step S' → System.Reach S₀ S'

/-- An existing ledger file and nothing running. -/
def System.init (store : Store) : System where
  store := store
  clients := []
  locked := fun _ => false

/-! ## §2. Rows belong to the calls that inserted them. -/

namespace Client

/-- The receipt the call inserted its row with, if it has. -/
def fresh (c : Client) : Option Dict := c.history.foldl (onBase inserted) none

/-- What the call last saved. -/
def durable (c : Client) : Option Dict := c.history.foldl (onBase durableStep) none

/-- The effects the call has begun, the one it stands at included. -/
def begun (c : Client) : List Effect :=
  labels WireOp.effect c.history ++ (c.rest.head?.bind WireOp.effect).toList

end Client

/-- The row of a call that has inserted it. -/
structure Holds (store : Store) (c : Client) : Prop where
  row : ∃ row, store.find? c.requestId = some row ∧ c.durable = some row.receipt ∧
    fingerprint c.requestId c.tool.method c.tool.params = .ok row.fingerprint
  head : ∀ fresh receipt, c.fresh = some fresh → c.durable = some receipt →
    SameRow fresh receipt

/-- The invariant: the calls are runs of their tools, a call that has
inserted a row holds it, and no two calls hold the same row. -/
structure Owned (store₀ : Store) (S : System) : Prop where
  runs : ∀ c ∈ S.clients, Run (c.tool.wire c.requestId) c.history c.rest
  holds : ∀ c ∈ S.clients, c.fresh.isSome = true → Holds S.store c
  alone : ∀ (i j : Nat) (ci cj : Client), S.clients[i]? = some ci → S.clients[j]? = some cj →
    ci.requestId = cj.requestId → ci.fresh.isSome = true → cj.fresh.isSome = true → i = j
  /-- A call never inserts a row that was there before. -/
  new : ∀ c ∈ S.clients, c.fresh.isSome = true → ∀ row ∈ store₀.rows,
    row.requestId ≠ c.requestId
  /-- The rows that were there before stay as they were. -/
  kept : ∀ row ∈ store₀.rows, row ∈ S.store.rows
  origin : ∀ row ∈ S.store.rows, row ∈ store₀.rows ∨
    ∃ c ∈ S.clients, c.requestId = row.requestId ∧ c.fresh.isSome = true

/-! ## §3. The invariant holds throughout. -/

omit [Hashlib] [Endpoint] in
theorem SameRow.refl (fresh : Dict) : SameRow fresh fresh := fun _ _ _ => rfl

omit [Hashlib] [Endpoint] in
/-- What an answered operation does to the table and to the record of the
call that performed it. -/
theorem Serves.effect {s s' : Store} {op : WireOp} {r : WireAns op} (h : Serves s op r s') :
    (∃ requestId fp receipt,
      (⟨op, r⟩ : Event WireAns) = ⟨.base (.beginRow requestId fp receipt), .ok none⟩ ∧
      s.find? requestId = none ∧ s' = (s.insertOrIgnore ⟨requestId, fp, receipt⟩).2) ∨
    (∃ requestId receipt,
      (⟨op, r⟩ : Event WireAns) = ⟨.base (.update (.str requestId) receipt), .ok ()⟩ ∧
      s' = s.update requestId receipt) ∨
    (∃ key receipt, op = .base (.update key receipt) ∧ ∀ requestId, key ≠ .str requestId) ∨
    (s' = s ∧ (∀ m, onBase inserted m ⟨op, r⟩ = m) ∧ ∀ m, onBase durableStep m ⟨op, r⟩ = m) := by
  cases h with
  | insert hnone => exact .inl ⟨_, _, _, rfl, hnone, rfl⟩
  | update requestId receipt => exact .inr (.inl ⟨_, _, rfl, rfl⟩)
  | updateNothing receipt hkey => exact .inr (.inr (.inl ⟨_, _, rfl, hkey⟩))
  | other r hselect hbegin hupdate =>
      refine .inr (.inr (.inr ⟨rfl, fun m => ?_, fun m => ?_⟩))
      · cases op with
        | net op => rfl
        | base op =>
            refine inserted_of_effectless ?_
            rintro key fp receipt rfl
            exact hbegin _ _ _ rfl
      · cases op with
        | net op => rfl
        | base op =>
            show durableStep m ⟨op, r⟩ = m
            unfold durableStep
            split
            · rename_i he
              cases he
              exact absurd rfl (hbegin _ _ _)
            · rename_i he
              cases he
              exact absurd rfl (hupdate _ _)
            · rfl
  | _ => exact .inr (.inr (.inr ⟨rfl, fun _ => rfl, fun _ => rfl⟩))

namespace Owned

variable {store₀ : Store} {S : System}

theorem init (store : Store) : Owned store (System.init store) where
  runs := by simp [System.init]
  holds := by simp [System.init]
  alone := by simp [System.init]
  new := by simp [System.init]
  kept := fun _ h => h
  origin := fun _ h => .inl h

/-- A client that starts has inserted nothing. -/
theorem call (h : Owned store₀ S) (bridge : Nat) (requestId : String) (tool : ToolCall) :
    Owned store₀ { S with clients := S.clients ++ [Client.start bridge requestId tool] } := by
  have hfresh : (Client.start bridge requestId tool).fresh = none := rfl
  have hold : ∀ c ∈ S.clients ++ [Client.start bridge requestId tool],
      c.fresh.isSome = true → c ∈ S.clients := by
    intro c hc hf
    rcases List.mem_append.mp hc with hc | hc
    · exact hc
    · obtain rfl := List.mem_singleton.mp hc
      simp [hfresh] at hf
  have hget : ∀ (i : Nat) (c : Client),
      (S.clients ++ [Client.start bridge requestId tool])[i]? = some c →
      c.fresh.isSome = true → S.clients[i]? = some c := by
    intro i c hc hf
    rw [List.getElem?_append] at hc
    split at hc
    · exact hc
    · have hmem := List.mem_of_getElem? hc
      obtain rfl := List.mem_singleton.mp hmem
      simp [hfresh] at hf
  refine ⟨?_, fun c hc hf => ?_, ?_, fun c hc hf => h.new c (hold c hc hf) hf, h.kept, ?_⟩
  · intro c hc
    rcases List.mem_append.mp hc with hc | hc
    · exact h.runs c hc
    · obtain rfl := List.mem_singleton.mp hc
      exact .start
  · exact ⟨(h.holds c (hold c hc hf) hf).row, (h.holds c (hold c hc hf) hf).head⟩
  · intro i j ci cj hi hj hid hfi hfj
    exact h.alone i j ci cj (hget i ci hi hfi) (hget j cj hj hfj) hid hfi hfj
  · intro row hrow
    rcases h.origin row hrow with h0 | ⟨c, hc, hid, hf⟩
    · exact .inl h0
    · exact .inr ⟨c, List.mem_append_left _ hc, hid, hf⟩

/-- Only the `stopped` flags change when a bridge dies. -/
theorem crash (h : Owned store₀ S) (bridge : Nat) (locked : Nat → Bool) :
    Owned store₀
      { store := S.store
        clients := S.clients.map fun c =>
          if c.bridge = bridge then { c with stopped := true } else c
        locked := locked } := by
  have hmap : ∀ (i : Nat) (c : Client),
      (S.clients.map fun c : Client =>
        if c.bridge = bridge then { c with stopped := true } else c)[i]? = some c →
      ∃ c₀, S.clients[i]? = some c₀ ∧ c.requestId = c₀.requestId ∧ c.tool = c₀.tool ∧
        c.history = c₀.history ∧ c.rest = c₀.rest := by
    intro i c hc
    rw [List.getElem?_map] at hc
    obtain ⟨c₀, hc₀, rfl⟩ := Option.map_eq_some_iff.mp hc
    refine ⟨c₀, hc₀, ?_⟩
    split <;> exact ⟨rfl, rfl, rfl, rfl⟩
  have hmem : ∀ c ∈ (S.clients.map fun c : Client =>
        if c.bridge = bridge then { c with stopped := true } else c),
      ∃ c₀ ∈ S.clients, c.requestId = c₀.requestId ∧ c.tool = c₀.tool ∧
        c.history = c₀.history ∧ c.rest = c₀.rest := by
    intro c hc
    obtain ⟨i, hi⟩ := List.mem_iff_getElem?.mp hc
    obtain ⟨c₀, hc₀, hrest⟩ := hmap i c hi
    exact ⟨c₀, List.mem_of_getElem? hc₀, hrest⟩
  refine ⟨?_, ?_, ?_, ?_, h.kept, ?_⟩
  · intro c hc
    obtain ⟨c₀, hc₀, hid, htool, hhist, hrest⟩ := hmem c hc
    rw [hid, htool, hhist, hrest]
    exact h.runs c₀ hc₀
  · intro c hc hf
    obtain ⟨c₀, hc₀, hid, htool, hhist, hrest⟩ := hmem c hc
    have hh := h.holds c₀ hc₀ (by rwa [Client.fresh, ← hhist])
    refine ⟨?_, ?_⟩
    · rw [hid, htool, Client.durable, hhist]
      exact hh.row
    · rw [Client.durable, Client.fresh, hhist]
      exact hh.head
  · intro i j ci cj hi hj hid hfi hfj
    obtain ⟨c₀, hc₀, hid₀, -, hhist₀, -⟩ := hmap i ci hi
    obtain ⟨c₁, hc₁, hid₁, -, hhist₁, -⟩ := hmap j cj hj
    refine h.alone i j c₀ c₁ hc₀ hc₁ (by rw [← hid₀, ← hid₁, hid]) ?_ ?_
    · rwa [Client.fresh, ← hhist₀]
    · rwa [Client.fresh, ← hhist₁]
  · intro c hc hf row hrow
    obtain ⟨c₀, hc₀, hid, -, hhist, -⟩ := hmem c hc
    rw [hid]
    exact h.new c₀ hc₀ (by rwa [Client.fresh, ← hhist]) row hrow
  · intro row hrow
    rcases h.origin row hrow with h0 | ⟨c, hc, hid, hf⟩
    · exact .inl h0
    · refine .inr ⟨_, List.mem_map_of_mem hc, ?_, ?_⟩
      · split <;> exact hid
      · split <;> exact hf

/-- One call moves on, and the table with it. -/
theorem set (h : Owned store₀ S) {i : Nat} {c c' : Client} {store : Store}
    (locked : Nat → Bool) (hi : S.clients[i]? = some c)
    (hid : c'.requestId = c.requestId)
    (hrun : Run (c'.tool.wire c'.requestId) c'.history c'.rest)
    (hmono : c.fresh.isSome = true → c'.fresh.isSome = true)
    (hself : c'.fresh.isSome = true → Holds store c' ∧
      ∀ row ∈ store₀.rows, row.requestId ≠ c.requestId)
    (hothers : ∀ (j : Nat) (d : Client), j ≠ i → S.clients[j]? = some d →
      d.fresh.isSome = true → Holds store d ∧
        (d.requestId = c.requestId → c'.fresh.isSome = false))
    (hkept : ∀ row ∈ store₀.rows, row ∈ store.rows)
    (horigin : ∀ row ∈ store.rows, row ∈ S.store.rows ∨
      row.requestId = c.requestId ∧ c'.fresh.isSome = true) :
    Owned store₀ { store := store, clients := S.clients.set i c', locked := locked } := by
  have hget : ∀ (j : Nat) (d : Client), (S.clients.set i c')[j]? = some d →
      (j = i ∧ d = c') ∨ (j ≠ i ∧ S.clients[j]? = some d) := by
    intro j d hd
    rw [List.getElem?_set] at hd
    split at hd
    · rename_i hij
      refine .inl ⟨hij.symm, ?_⟩
      split at hd
      · exact (Option.some.inj hd).symm
      · cases hd
    · rename_i hij
      exact .inr ⟨fun e => hij e.symm, hd⟩
  have hmem : ∀ d ∈ S.clients.set i c',
      d = c' ∨ ∃ j : Nat, j ≠ i ∧ S.clients[j]? = some d := by
    intro d hd
    obtain ⟨j, hj⟩ := List.mem_iff_getElem?.mp hd
    rcases hget j d hj with ⟨-, rfl⟩ | ⟨hne, hj⟩
    · exact .inl rfl
    · exact .inr ⟨j, hne, hj⟩
  refine ⟨?_, ?_, ?_, ?_, hkept, ?_⟩
  · intro d hd
    rcases hmem d hd with rfl | ⟨j, -, hj⟩
    · exact hrun
    · exact h.runs d (List.mem_of_getElem? hj)
  · intro d hd hf
    rcases hmem d hd with rfl | ⟨j, hne, hj⟩
    · exact (hself hf).1
    · exact (hothers j d hne hj hf).1
  · intro j j' d d' hd hd' hdd hf hf'
    rcases hget j d hd with ⟨rfl, rfl⟩ | ⟨hne, hold⟩
    · rcases hget j' d' hd' with ⟨rfl, rfl⟩ | ⟨hne', hold'⟩
      · rfl
      · have hfalse := (hothers j' d' hne' hold' hf').2 (by rw [← hdd, hid])
        rw [hf] at hfalse
        cases hfalse
    · rcases hget j' d' hd' with ⟨rfl, rfl⟩ | ⟨hne', hold'⟩
      · have hfalse := (hothers j d hne hold hf).2 (by rw [hdd, hid])
        rw [hf'] at hfalse
        cases hfalse
      · exact h.alone j j' d d' hold hold' hdd hf hf'
  · intro d hd hf
    rcases hmem d hd with rfl | ⟨j, -, hj⟩
    · rw [hid]
      exact (hself hf).2
    · exact h.new d (List.mem_of_getElem? hj) hf
  · intro row hrow
    have hc' : c' ∈ S.clients.set i c' := by
      refine List.mem_iff_getElem?.mpr ⟨i, ?_⟩
      rw [List.getElem?_set_self (List.getElem?_eq_some_iff.mp hi).1]
    rcases horigin row hrow with hold | ⟨hrid, hf⟩
    · rcases h.origin row hold with h0 | ⟨d, hd, hdid, hf⟩
      · exact .inl h0
      · obtain ⟨j, hj⟩ := List.mem_iff_getElem?.mp hd
        by_cases hij : j = i
        · subst hij
          obtain rfl : c = d := Option.some.inj (hi.symm.trans hj)
          exact .inr ⟨c', hc', by rw [hid, hdid], hmono hf⟩
        · refine .inr ⟨d, List.mem_iff_getElem?.mpr ⟨j, ?_⟩, hdid, hf⟩
          rw [List.getElem?_set_ne fun e => hij e.symm]
          exact hj
    · exact .inr ⟨c', hc', by rw [hid, hrid], hf⟩

omit [Endpoint] in
theorem Holds.of_find?_eq {store store' : Store} {c c' : Client} (h : Holds store c)
    (hfind : store'.find? c.requestId = store.find? c.requestId)
    (hid : c'.requestId = c.requestId) (htool : c'.tool = c.tool)
    (hfresh : c'.fresh = c.fresh) (hdurable : c'.durable = c.durable) :
    Holds store' c' := by
  obtain ⟨row, hrow, hd, hfp⟩ := h.row
  refine ⟨⟨row, ?_, ?_, ?_⟩, ?_⟩
  · rw [hid, hfind, hrow]
  · rw [hdurable, hd]
  · rw [hid, htool, hfp]
  · rw [hfresh, hdurable]
    exact h.head

/-- A row that is about to be inserted belongs to no other call. -/
theorem fresh_eq_none (h : Owned store₀ S) {requestId : String}
    (hnone : S.store.find? requestId = none) {d : Client} (hd : d ∈ S.clients)
    (hid : d.requestId = requestId) : d.fresh.isSome = false := by
  rw [Bool.eq_false_iff]
  intro hf
  obtain ⟨row, hrow, -⟩ := (h.holds d hd hf).row
  rw [hid, hnone] at hrow
  cases hrow

/-- **The step lemma** for an answered operation. -/
theorem act (h : Owned store₀ S) {i : Nat} {c : Client} {op : WireOp}
    {k : WireAns op → Prog WireOp WireAns (Except PyExc Dict × Dict)}
    {r : WireAns op} {store : Store} (locked : Nat → Bool)
    (hi : S.clients[i]? = some c) (hrest : c.rest = .op op k)
    (hserve : Serves S.store op r store) :
    Owned store₀
      { store := store
        clients := S.clients.set i
          { c with history := c.history ++ [⟨op, r⟩], rest := k r }
        locked := locked } := by
  have hc : c ∈ S.clients := List.mem_of_getElem? hi
  have hrun := h.runs c hc
  have hown : OwnWireOp c.tool c.requestId c.fresh op :=
    wp_run_head (c.tool.owns_wire c.requestId) hrun (by rw [hrest]; rfl)
  rw [hrest] at hrun
  have hfresh : ∀ c' : Client, c'.history = c.history ++ [⟨op, r⟩] →
      c'.fresh = onBase inserted c.fresh ⟨op, r⟩ := by
    intro c' hc'
    rw [Client.fresh, hc', List.foldl_append]
    rfl
  have hdurable : ∀ c' : Client, c'.history = c.history ++ [⟨op, r⟩] →
      c'.durable = onBase durableStep c.durable ⟨op, r⟩ := by
    intro c' hc'
    rw [Client.durable, hc', List.foldl_append]
    rfl
  generalize hc'def : ({ c with history := c.history ++ [⟨op, r⟩], rest := k r } : Client) = c'
  have hid : c'.requestId = c.requestId := by rw [← hc'def]
  have htool : c'.tool = c.tool := by rw [← hc'def]
  have hhist : c'.history = c.history ++ [⟨op, r⟩] := by rw [← hc'def]
  have hrun' : Run (c'.tool.wire c'.requestId) c'.history c'.rest := by
    rw [← hc'def]
    exact hrun.step r
  rcases hserve.effect with ⟨requestId, fp, receipt, he, hnone, rfl⟩ |
    ⟨requestId, receipt, he, rfl⟩ | ⟨key, receipt, rfl, hkey⟩ | ⟨rfl, hins, hdur⟩
  · -- the row is inserted
    cases he
    obtain ⟨rfl, hcnone, hfp, -⟩ := hown.row _ _ _ rfl
    have hf' : c'.fresh = some receipt := by rw [hfresh c' hhist]; rfl
    have hd' : c'.durable = some receipt := by rw [hdurable c' hhist]; rfl
    have hrow : (S.store.insertOrIgnore ⟨c.requestId, fp, receipt⟩).2.find? c.requestId
        = some ⟨c.requestId, fp, receipt⟩ := by
      rw [Store.find?_insertOrIgnore]
      simp [hnone]
    refine h.set locked hi hid hrun' (fun _ => by simp [hf']) (fun _ => ⟨⟨?_, ?_⟩, ?_⟩)
      ?_ ?_ ?_
    · exact ⟨_, by rw [hid, hrow], hd', by rw [hid, htool, hfp]⟩
    · rintro f d hf hd
      rw [hf'] at hf
      rw [hd'] at hd
      cases hf
      cases hd
      exact SameRow.refl _
    · intro row hrow0 hrid
      have hfind := Store.find?_of_mem (h.kept row hrow0)
      rw [hrid, hnone] at hfind
      cases hfind
    · intro j d hne hj hf
      have hdne : d.requestId ≠ c.requestId := fun e => by
        rw [h.fresh_eq_none hnone (List.mem_of_getElem? hj) e] at hf
        cases hf
      refine ⟨Holds.of_find?_eq (h.holds d (List.mem_of_getElem? hj) hf) ?_ rfl rfl rfl rfl,
        fun e => absurd e hdne⟩
      rw [Store.find?_insertOrIgnore, if_neg fun hcond => hdne hcond.2]
    · intro row hrow0
      rw [Store.rows_insertOrIgnore hnone]
      exact List.mem_append_left _ (h.kept row hrow0)
    · intro row hmem
      rw [Store.rows_insertOrIgnore hnone] at hmem
      rcases List.mem_append.mp hmem with hmem | hmem
      · exact .inl hmem
      · obtain rfl := List.mem_singleton.mp hmem
        exact .inr ⟨rfl, by simp [hf']⟩
  · -- the row is written
    cases he
    obtain ⟨hrid, fresh₀, hf, hsame⟩ := hown.update _ _ rfl
    cases hrid
    have hf' : c'.fresh = some fresh₀ := by rw [hfresh c' hhist, ← hf]; rfl
    have hd' : c'.durable = some receipt := by rw [hdurable c' hhist]; rfl
    have hcf : c.fresh.isSome = true := by rw [hf]; rfl
    obtain ⟨row, hrow, -, hfp⟩ := (h.holds c hc hcf).row
    refine h.set locked hi hid hrun' (fun _ => by simp [hf'])
      (fun _ => ⟨⟨?_, ?_⟩, h.new c hc hcf⟩) ?_ ?_ ?_
    · refine ⟨{ row with receipt := receipt }, ?_, hd', by rw [hid, htool, hfp]⟩
      rw [hid, Store.find?_update, if_pos rfl, hrow]
      rfl
    · rintro f d hff hdd
      rw [hf'] at hff
      rw [hd'] at hdd
      cases hff
      cases hdd
      exact hsame
    · intro j d hne hj hfd
      have hdne : d.requestId ≠ c.requestId := fun e =>
        hne (h.alone j i d c hj hi e hfd hcf)
      refine ⟨Holds.of_find?_eq (h.holds d (List.mem_of_getElem? hj) hfd) ?_ rfl rfl rfl rfl,
        fun e => absurd e hdne⟩
      rw [Store.find?_update, if_neg hdne]
    · intro row₀ hrow₀
      have hne := h.new c hc hcf row₀ hrow₀
      refine List.mem_map.mpr ⟨row₀, h.kept row₀ hrow₀, ?_⟩
      rw [if_neg hne]
    · intro row₁ hmem
      obtain ⟨row₀, hrow₀, rfl⟩ := List.mem_map.mp hmem
      by_cases hrid : row₀.requestId = c.requestId
      · refine .inr ⟨?_, by simp [hf']⟩
        rw [if_pos hrid]
        exact hrid
      · rw [if_neg hrid]
        exact .inl hrow₀
  · -- no call writes under another key
    obtain ⟨hrid, -⟩ := hown.update _ _ rfl
    exact absurd hrid (hkey _)
  · -- the table stays
    have hf' : c'.fresh = c.fresh := by rw [hfresh c' hhist, hins]
    have hd' : c'.durable = c.durable := by rw [hdurable c' hhist, hdur]
    refine h.set locked hi hid hrun' (fun e => by rwa [hf']) (fun e => ⟨?_, ?_⟩) ?_ h.kept
      fun row hrow => .inl hrow
    · rw [hf'] at e
      exact Holds.of_find?_eq (h.holds c hc e) rfl hid htool hf' hd'
    · rw [hf'] at e
      exact h.new c hc e
    · intro j d hne hj hfd
      refine ⟨h.holds d (List.mem_of_getElem? hj) hfd, fun e => ?_⟩
      rw [hf', Bool.eq_false_iff]
      exact fun hcf => hne (h.alone j i d c hj hi e hfd hcf)

/-- One step keeps the invariant. -/
theorem step {S' : System} (h : Owned store₀ S) (hstep : S.Step S') : Owned store₀ S' := by
  cases hstep with
  | call bridge requestId tool => exact h.call bridge requestId tool
  | act hi _ hrest hserve _ => exact h.act _ hi hrest hserve
  | crash bridge => exact h.crash bridge _

/-- **The run lemma**: in every state of every execution rows belong to the
calls that inserted them. -/
theorem of_reach (hr : System.Reach (System.init store₀) S) : Owned store₀ S := by
  induction hr with
  | init => exact Owned.init store₀
  | step _ hstep ih => exact ih.step hstep

end Owned

/-- Answering the operation a call stands at. -/
theorem System.Reach.answer {S₀ S : System} (h : System.Reach S₀ S)
    (i : Nat) (op : WireOp) (r : WireAns op) {c : Client}
    {k : WireAns op → Prog WireOp WireAns (Except PyExc Dict × Dict)}
    {store : Store} {locked : Nat → Bool} (hc : S.clients[i]? = some c)
    (hlive : c.stopped = false) (hrest : c.rest = .op op k)
    (hserve : Serves S.store op r store) (hlock : Locks c.bridge S.locked op r locked) :
    System.Reach S₀
      { store := store
        clients := S.clients.set i { c with history := c.history ++ [⟨op, r⟩], rest := k r }
        locked := locked } :=
  h.step (.act hc hlive hrest hserve hlock)

end CodexRemoteBridge
