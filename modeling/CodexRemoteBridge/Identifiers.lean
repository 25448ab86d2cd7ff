/-
  CodexRemoteBridge.Identifiers — which ids a crash can lose.

  A reply to `thread/start`, `thread/fork` or `turn/start` reports an id.
  Every branch saves it before its next `await`, but for one: a send to an
  idle thread closes the connection while the id of the turn is only in
  memory.

  Main result: `ToolCall.ids_durable`.
-/
import CodexRemoteBridge.Ownership

namespace CodexRemoteBridge

open Interaction

/-! ## §1. What has been reported, and what is stored. -/

/-- The id a reply reports, with the receipt field that is to keep it. -/
def reportedBy (method : String) (reply : Json) : Option (String × Json) :=
  if method = "thread/start" ∨ method = "thread/fork" then
    (index2 "thread" "id" reply).toOption.map fun id => ("threadId", id)
  else if method = "turn/start" then
    (index2 "turn" "id" reply).toOption.map fun id => ("turnId", id)
  else none

/-- The id an answered operation reports. -/
def report : Event Ans → Option (String × Json)
  | ⟨.call method _, .ok reply⟩ => reportedBy method reply
  | _ => none

/-- The ids reported so far. -/
def reported (h : History) : List (String × Json) := h.filterMap report

/-- The receipt in the row keeps the id. -/
def Recorded (h : History) (x : String × Json) : Prop :=
  ∃ receipt, durable h = some receipt ∧ receipt.get? x.1 = some x.2

/-- The event that `thread/resume` was answered with a result. -/
def isResume : Event Ans → Bool
  | ⟨.call method _, .ok _⟩ => method = "thread/resume"
  | _ => false

/-- A thread was resumed, and a turn was started on it: the branch of
`send_message_to_thread` for an idle thread, after its dispatch. -/
def ResumedTurn (h : History) : Prop :=
  h.any isResume = true ∧ ∃ id, ("turnId", id) ∈ reported h

/-- The condition at every operation. -/
def IdsAt (h : History) (op : Op) : Prop :=
  op.isAwait = true → ((∀ x ∈ reported h, Recorded h x) ↔ ¬ ResumedTurn h)

theorem reported_append (h : History) (e : Event Ans) :
    reported (h ++ [e]) = reported h ++ (report e).toList := by
  rw [reported, List.filterMap_append]
  cases he : report e <;> simp [reported, he]

/-! ## §2. Steps of a branch that resumes nothing. -/

/-- The methods whose replies report an id. -/
def reportingMethods : List String := ["thread/start", "thread/fork", "turn/start"]

theorem reportedBy_eq_none {method : String} (h : method ∉ reportingMethods) (reply : Json) :
    reportedBy method reply = none := by
  simp only [reportingMethods, List.mem_cons, List.not_mem_nil, or_false, not_or] at h
  simp [reportedBy, h.1, h.2.1, h.2.2]

/-- The ids `xs` have been reported; the receipt in memory has them. -/
structure Held (xs : List (String × Json)) (s : Dict) (h : History) : Prop where
  ids : reported h = xs
  fields : ∀ x ∈ xs, x.1 = "threadId" ∨ x.1 = "turnId"
  known : ∀ x ∈ xs, s.get? x.1 = some x.2
  unresumed : h.any isResume = false

/-- So has the receipt in the row. -/
structure Synced (xs : List (String × Json)) (s : Dict) (h : History) : Prop
    extends Held xs s h where
  saved : ∀ x ∈ xs, Recorded h x

section Steps

variable {xs : List (String × Json)} {s : Dict} {h : History} {α β : Type}

theorem Synced.idsAt (hs : Synced xs s h) (op : Op) : IdsAt h op := by
  intro _
  refine ⟨fun _ hr => ?_, fun _ x hx => ?_⟩
  · have hresumed := hr.1
    rw [hs.unresumed] at hresumed
    cases hresumed
  · rw [hs.ids] at hx
    exact hs.saved x hx

/-- Nobody waits at these operations. -/
theorem idsAt_of_sync {op : Op} (hop : op.isAwait = false) : IdsAt h op := by
  intro he
  rw [hop] at he
  cases he

theorem Held.update (hs : Held xs s h) {fields : Dict}
    (hkeys : ∀ key ∈ fields.keys, key ≠ "threadId" ∧ key ≠ "turnId") :
    Held xs (s.update fields) h := by
  refine ⟨hs.ids, hs.fields, fun x hx => ?_, hs.unresumed⟩
  rw [Dict.get?_update_of_notMem fields s, hs.known x hx]
  intro hmem
  rcases hs.fields x hx with he | he
  · exact (hkeys _ hmem).1 he
  · exact (hkeys _ hmem).2 he

theorem Synced.update (hs : Synced xs s h) {fields : Dict}
    (hkeys : ∀ key ∈ fields.keys, key ≠ "threadId" ∧ key ≠ "turnId") :
    Synced xs (s.update fields) h :=
  ⟨hs.toHeld.update hkeys, hs.saved⟩

/-- An answer that reports nothing, resumes nothing and is not stored. -/
theorem Held.append (hs : Held xs s h) {e : Event Ans} (hreport : report e = none)
    (hresume : isResume e = false) : Held xs s (h ++ [e]) := by
  refine ⟨?_, hs.fields, hs.known, ?_⟩
  · rw [reported_append, hreport, hs.ids]
    simp
  · rw [List.any_append, hs.unresumed]
    simpa using hresume

theorem Synced.append (hs : Synced xs s h) {e : Event Ans} (hreport : report e = none)
    (hresume : isResume e = false) (hstored : durableStep (durable h) e = durable h) :
    Synced xs s (h ++ [e]) := by
  refine ⟨hs.toHeld.append hreport hresume, fun x hx => ?_⟩
  unfold Recorded
  rw [durable_append, hstored]
  exact hs.saved x hx

/-- The history semantics, with `IdsAt` at every operation. -/
abbrev IdsSpec : OpSpec Ans History := history IdsAt

theorem idsSpec_mono : IdsSpec.Mono := observe_mono _ _

theorem ids_bind {c : Act α} {f : α → Act β} {P : α → Dict → History → Prop}
    {Q : β → Dict → History → Prop} (hc : Co.Leads IdsSpec c P s h)
    (hf : ∀ a s' h', P a s' h' → Co.Leads IdsSpec (f a) Q s' h') :
    Co.Leads IdsSpec (c >>= f) Q s h := hc.bind idsSpec_mono hf

/-- Keeps the reported ids stored. -/
abbrev Retains (xs : List (String × Json)) (c : Act α) : Prop :=
  Fills IdsSpec (fun s h => Synced xs s h) (fun _ _ _ => True) c

/-- **A save stores what the receipt holds.** -/
theorem Held.stored (hs : Held xs s h) (key : Json) (updatedAt : String) :
    Synced xs s (h ++ [⟨.update key (stamped s updatedAt), .ok ()⟩]) := by
  refine ⟨hs.append rfl rfl, fun x hx => ?_⟩
  unfold Recorded
  rw [durable_append]
  refine ⟨_, rfl, ?_⟩
  rw [stamped, Dict.get?_update_of_notMem _ s, hs.known x hx]
  rcases hs.fields x hx with he | he <;> simp [he, Dict.keys]

/-- A part of an action that writes no id and makes no request that reports
one keeps the reported ids stored. -/
theorem hosts_synced (xs : List (String × Json)) :
    Hosts IdsSpec (fun key => key ≠ "threadId" ∧ key ≠ "turnId")
      (fun method => method ∉ reportingMethods ∧ method ≠ "thread/resume")
      (fun s h => Synced xs s h) (fun _ _ _ => True) where
  mono := observe_mono _ _
  act := by
    intro op s h hop hs
    refine ⟨hs.idsAt _, fun r => ?_⟩
    cases op with
    | call method params => cases hop
    | update key receipt => cases hop
    | beginRow key fp receipt => cases hop
    | _ => exact hs.append rfl rfl rfl
  update := by
    intro key updatedAt s h _ hs
    refine ⟨hs.idsAt _, fun r => ?_⟩
    cases r with
    | error f => exact hs.append rfl rfl rfl
    | ok _ => exact hs.toHeld.stored key updatedAt
  fields := fun fields s h hkeys hs => hs.update hkeys
  call := by
    rintro method params s h ⟨hreport, hresume⟩ hs
    refine ⟨hs.idsAt _, fun r => ?_⟩
    cases r with
    | error e => trivial
    | ok reply =>
        refine hs.append (reportedBy_eq_none hreport reply) ?_ rfl
        simpa [isResume] using hresume
  close := by
    intro s h hs
    refine ⟨hs.idsAt _, fun r => ?_⟩
    cases r with
    | error e => trivial
    | ok _ => exact hs.append rfl rfl rfl
  own := fun _ _ _ _ => trivial
  goal := fun _ _ _ _ _ => trivial

theorem leads_saveReceipt (hs : Held xs s h) :
    Co.Leads IdsSpec saveReceipt (fun _ s' h' => Synced xs s' h') s h := by
  unfold saveReceipt Ledger.save Act.now
  show Co.wp _ _ _ _ _ _
  rw [Co.wp_bind, Co.wp_get, Co.wp_bind, Act.wp_perform]
  refine ⟨idsAt_of_sync rfl, fun time => ?_⟩
  dsimp only
  rw [Co.wp_bind, Co.wp_ofExcept]
  have hs₁ : Held xs s (h ++ [⟨.now, time⟩]) := hs.append rfl rfl
  generalize Json.index "requestId" _ = key
  cases key with
  | error e => trivial
  | ok key =>
      dsimp only
      rw [Co.wp_bind, Act.wp_perform]
      refine ⟨idsAt_of_sync rfl, fun r => ?_⟩
      cases r with
      | error f => trivial
      | ok _ => exact hs₁.stored key time

/-- A request whose reply reports an id: until the id is in the receipt and
saved, it is known from the history only. -/
theorem leads_call (hs : Synced xs s h) {method : String} (params : Dict)
    (hresume : method ≠ "thread/resume") :
    Co.Leads IdsSpec (Act.call method params) (fun reply s' h' => s' = s ∧
      reported h' = xs ++ (reportedBy method reply).toList ∧ h'.any isResume = false) s h := by
  unfold Act.call
  show Co.wp _ _ _ _ _ _
  rw [Act.wp_perform]
  refine ⟨hs.idsAt _, fun r => ?_⟩
  cases r with
  | error e => trivial
  | ok reply =>
      refine ⟨rfl, ?_, ?_⟩
      · rw [remember, reported_append, hs.ids]
        rfl
      · rw [remember, List.any_append, hs.unresumed]
        simpa [isResume] using hresume

/-- The id of a reply enters the receipt. -/
theorem Held.learn {h' : History} {x : String × Json} (hs : Held xs s h)
    (hids : reported h' = xs ++ [x]) (hresume : h'.any isResume = false)
    (hnew : x.1 ∉ xs.map (·.1)) (hfield : x.1 = "threadId" ∨ x.1 = "turnId")
    {fields : Dict} (hx : (s.update fields).get? x.1 = some x.2)
    (hkeys : ∀ key ∈ fields.keys, key = x.1 ∨ (key ≠ "threadId" ∧ key ≠ "turnId")) :
    Held (xs ++ [x]) (s.update fields) h' := by
  refine ⟨hids, fun y hy => ?_, fun y hy => ?_, hresume⟩
  · rcases List.mem_append.mp hy with hy | hy
    · exact hs.fields y hy
    · obtain rfl := List.mem_singleton.mp hy
      exact hfield
  · rcases List.mem_append.mp hy with hy | hy
    · have hne : y.1 ≠ x.1 := fun e => hnew (e ▸ List.mem_map_of_mem hy)
      rw [Dict.get?_update_of_notMem fields s, hs.known y hy]
      intro hmem
      rcases hkeys _ hmem with he | he
      · exact hne he
      · rcases hs.fields y hy with h₁ | h₁
        · exact he.1 h₁
        · exact he.2 h₁
    · obtain rfl := List.mem_singleton.mp hy
      exact hx

/-- On the way out nobody waits. -/
theorem lenient_ids : Lenient IdsSpec where
  mono := observe_mono _ _
  now := fun _ => ⟨idsAt_of_sync rfl, fun _ => trivial⟩
  update := fun _ _ _ => ⟨idsAt_of_sync rfl, fun _ => trivial⟩

end Steps

/-! ## §3. The branches. -/

section Branches

variable {s : Dict} {h : History}

/-- What an action leads to: at every `await` on the way, `IdsAt`. -/
abbrev Respects (c : Act Unit) (s : Dict) (h : History) : Prop :=
  Co.Leads IdsSpec c (fun _ _ _ => True) s h

theorem Retains.respects {xs : List (String × Json)} {c : Act Unit} (hc : Retains xs c)
    (hs : Synced xs s h) : Respects c s h :=
  Co.wp_conseq (observe_mono _ _) (hc s h hs) (fun _ _ _ _ => trivial) fun _ _ _ h => h

/-- A reply to `thread/start` or `thread/fork` that has an id reports it. -/
theorem reportedBy_thread {method : String} (hmethod : method = "thread/start" ∨
    method = "thread/fork") {reply id : Json} (hid : index2 "thread" "id" reply = .ok id) :
    reportedBy method reply = some ("threadId", id) := by
  rw [reportedBy, if_pos hmethod, hid]
  rfl

theorem reportedBy_turn {reply id : Json} (hid : index2 "turn" "id" reply = .ok id) :
    reportedBy "turn/start" reply = some ("turnId", id) := by
  simp [reportedBy, hid, Except.toOption]

theorem CreateThread.respects_action (a : CreateThread) (cwd : String) (hs : Synced [] s h) :
    Respects (a.action cwd) s h := by
  have hproject : Retains [] (whenGiven a.appServerProjectId fun project => do
      let _ ← Act.call "project/read" [("projectId", .str project)]
      pure ()) :=
    fills_whenGiven fun project => (hosts_synced []).calls_ _ (by simp [reportingMethods])
  unfold CreateThread.action
  refine ids_bind (hproject s h hs) fun _ s h hs => ?_
  refine ids_bind (leads_call hs _ (by simp)) ?_
  rintro created _ h' ⟨rfl, hids, hresume⟩
  refine Co.Leads.ofExcept_bind fun threadId hid => ?_
  rw [reportedBy_thread (.inl rfl) hid] at hids
  refine ids_bind (P := fun _ s h => Held [("threadId", threadId)] s h)
    (hs.toHeld.learn hids hresume (by simp) (.inl rfl) ?_ ?_) fun _ s h hs => ?_
  · simp [Dict.get?_set]
  · simp [Dict.keys]
  refine ids_bind (leads_saveReceipt hs) fun _ s h hs => ?_
  refine Co.Leads.ofExcept_bind fun actual _ => Co.Leads.ofExcept_bind fun expected _ => ?_
  refine Co.Leads.ofExcept_bind fun mismatch _ => ?_
  split
  · trivial
  have htitle : Retains [("threadId", threadId)] (whenGiven a.title fun title => do
      let _ ← Act.call "thread/name/set" [("threadId", threadId), ("name", .str title)]
      updateReceipt [("title", .str title)]
      let _ ← saveReceipt
      pure ()) :=
    fills_whenGiven fun title =>
      let hosts := hosts_synced [("threadId", threadId)]
      hosts.bind (hosts.calls _ (by simp [reportingMethods])) fun _ =>
      hosts.bind (hosts.updateReceipt (by simp [Dict.keys])) fun _ =>
      hosts.bind hosts.saveReceipt fun _ => fills_pure _
  refine ids_bind (htitle s h hs) fun _ s h hs => ?_
  refine ids_bind (P := fun _ _ _ => True) ?_ fun _ s h _ => trivial
  cases a.prompt with
  | none => trivial
  | some prompt =>
      refine ids_bind (leads_call hs _ (by simp)) fun turn s' h' _ => ?_
      exact Co.Leads.ofExcept_bind fun turnId _ => trivial

namespace CreateWorktreeThread

/-- The id of the started thread is saved with the first checkpoint after
the reply. -/
theorem leads_start (a : CreateWorktreeThread) (w : Worktree) (hs : Synced [] s h) :
    Co.Leads IdsSpec (a.start w)
      (fun _ s' h' => ∃ threadId, Synced [("threadId", threadId)] s' h') s h := by
  have hosts := hosts_synced []
  unfold start
  refine ids_bind (hosts.checkpoint _ (by simp) (by simp [Dict.keys]) s h hs)
    fun _ s h hs => ?_
  refine ids_bind (leads_call hs _ (by simp)) ?_
  rintro created _ h' ⟨rfl, hids, hresume⟩
  refine Co.Leads.ofExcept_bind fun fields hfields => ?_
  obtain ⟨threadId, permissions, association, hid, rfl⟩ := environmentFields_ok hfields
  rw [reportedBy_thread (.inl rfl) hid] at hids
  refine ids_bind (P := fun _ s' h' => Synced [("threadId", threadId)] s' h') ?_ ?_
  · refine ids_bind (P := fun _ s h => Held [("threadId", threadId)] s h)
      (hs.toHeld.learn hids hresume (by simp) (.inl rfl) ?_ ?_) fun _ s h hs => ?_
    · simp [Dict.get?_set]
    · simp [Dict.keys]
    · exact ids_bind (leads_saveReceipt hs) fun _ s h hs => hs
  · intro _ s h hs
    refine Co.Leads.ofExcept_bind fun mismatch _ => ?_
    split
    · trivial
    · exact ⟨threadId, hs⟩

/-- The id of the turn is saved with the checkpoint after its reply. -/
theorem leads_dispatch (prompt : String) {threadId : Json}
    (hs : Synced [("threadId", threadId)] s h) :
    Co.Leads IdsSpec (dispatch prompt)
      (fun _ s' h' => ∃ turnId, Synced [("threadId", threadId), ("turnId", turnId)] s' h')
      s h := by
  have hosts := hosts_synced [("threadId", threadId)]
  unfold dispatch
  refine ids_bind (hosts.checkpoint _ (by simp) (by simp [Dict.keys]) s h hs)
    fun _ s h hs => ?_
  refine ids_bind (hosts.fills_receiptThreadId s h hs) fun threadId' s h hs => ?_
  refine ids_bind (leads_call hs _ (by simp)) ?_
  rintro turn _ h' ⟨rfl, hids, hresume⟩
  refine Co.Leads.ofExcept_bind fun turnId hid => ?_
  rw [reportedBy_turn hid] at hids
  refine ids_bind
    (P := fun _ s h => Held [("threadId", threadId), ("turnId", turnId)] s h)
    (hs.toHeld.learn hids hresume (by simp) (.inr rfl) ?_ ?_) fun _ s h hs => ?_
  · simp [Dict.get?_set]
  · simp [Dict.keys]
  · exact ids_bind (leads_saveReceipt hs) fun _ s h hs => ⟨turnId, hs⟩

theorem respects_action (a : CreateWorktreeThread) (hs : Synced [] s h) :
    Respects a.action s h := by
  unfold action
  refine ids_bind ((hosts_synced []).fills_prepare a (by simp [Hosts.prepareKeys])
    (by simp [reportingMethods]) s h hs) fun worktree s h hs => ?_
  refine ids_bind (leads_start a worktree hs) ?_
  rintro _ s h ⟨threadId, hs⟩
  have hosts := hosts_synced [("threadId", threadId)]
  refine ids_bind (fills_whenGiven (fun title => hosts.fills_name title (by simp) (by simp)
    (by simp [reportingMethods])) s h hs) fun _ s h hs => ?_
  refine ids_bind (hosts.fills_recheck worktree (by simp) (by simp) s h hs)
    fun _ s h hs => ?_
  refine ids_bind (P := fun _ s' h' => ∃ xs, Synced xs s' h') ?_ ?_
  · cases a.prompt with
    | none => exact ⟨_, hs⟩
    | some prompt =>
        refine Co.wp_conseq (observe_mono _ _) (leads_dispatch prompt hs) ?_ fun _ _ _ h => h
        rintro _ s' h' ⟨turnId, hs'⟩
        exact ⟨_, hs'⟩
  · rintro _ s h ⟨xs, hs⟩
    exact Retains.respects ((hosts_synced xs).checkpoint _ (by simp) (by simp [Dict.keys])) hs

end CreateWorktreeThread

namespace SendMessage

/-- Before a turn is started nothing has been reported, and neither receipt
has the id of a turn. -/
structure Turnless (resumed : Bool) (s : Dict) (h : History) : Prop where
  ids : reported h = []
  resumes : h.any isResume = resumed
  memory : s.get? "turnId" = none
  row : ∀ receipt, durable h = some receipt → receipt.get? "turnId" = none

theorem Turnless.synced (ht : Turnless false s h) : Synced [] s h where
  ids := ht.ids
  fields := by simp
  known := by simp
  unresumed := ht.resumes
  saved := by simp

theorem Turnless.idsAt {resumed : Bool} (ht : Turnless resumed s h) (op : Op) : IdsAt h op := by
  intro _
  rw [ht.ids]
  refine ⟨fun _ hr => ?_, fun _ x hx => ?_⟩
  · obtain ⟨id, hid⟩ := hr.2
    rw [ht.ids] at hid
    cases hid
  · cases hx

theorem Turnless.update {resumed : Bool} (ht : Turnless resumed s h) {fields : Dict}
    (hkeys : "turnId" ∉ fields.keys) : Turnless resumed (s.update fields) h :=
  ⟨ht.ids, ht.resumes, by rw [Dict.get?_update_of_notMem fields s hkeys, ht.memory], ht.row⟩

theorem Turnless.leads_save {resumed : Bool} (ht : Turnless resumed s h) :
    Co.Leads IdsSpec saveReceipt (fun _ s' h' => Turnless resumed s' h') s h := by
  unfold saveReceipt Ledger.save Act.now
  show Co.wp _ _ _ _ _ _
  rw [Co.wp_bind, Co.wp_get, Co.wp_bind, Act.wp_perform]
  refine ⟨idsAt_of_sync rfl, fun time => ?_⟩
  dsimp only
  rw [Co.wp_bind, Co.wp_ofExcept]
  generalize Json.index "requestId" _ = key
  cases key with
  | error e => trivial
  | ok key =>
      dsimp only
      rw [Co.wp_bind, Act.wp_perform]
      refine ⟨idsAt_of_sync rfl, fun r => ?_⟩
      cases r with
      | error f => trivial
      | ok _ =>
          refine ⟨?_, ?_, ht.memory, ?_⟩
          · rw [remember, reported_append, remember, reported_append, ht.ids]
            rfl
          · rw [remember, List.any_append, remember, List.any_append, ht.resumes]
            cases resumed <;> rfl
          · intro receipt hreceipt
            rw [remember, durable_append] at hreceipt
            obtain rfl := Option.some.inj hreceipt
            rw [Dict.get?_update_of_notMem _ s (by simp [Dict.keys]), ht.memory]

theorem Turnless.leads_call {resumed : Bool} (ht : Turnless resumed s h) {method : String}
    (params : Dict) (hreport : method ∉ reportingMethods) :
    Co.Leads IdsSpec (Act.call method params)
      (fun _ s' h' => Turnless (resumed || decide (method = "thread/resume")) s' h') s h := by
  unfold Act.call
  show Co.wp _ _ _ _ _ _
  rw [Act.wp_perform]
  refine ⟨ht.idsAt _, fun r => ?_⟩
  cases r with
  | error e => trivial
  | ok reply =>
      refine ⟨?_, ?_, ht.memory, ?_⟩
      · rw [remember, reported_append, ht.ids]
        simp [report, reportedBy_eq_none hreport reply]
      · rw [remember, List.any_append, ht.resumes]
        simp [isResume]
      · intro receipt hreceipt
        rw [remember, durable_append] at hreceipt
        exact ht.row receipt hreceipt

/-- The active branch saves the id of the turn before it closes. -/
theorem respects_deliverActive (a : SendMessage) (ht : Turnless false s h) :
    Respects a.deliverActive s h := by
  unfold deliverActive deliver
  refine ids_bind (P := fun _ s h => Turnless false s h)
    (ht.update (by simp [Dict.keys])) fun _ s h ht => ?_
  refine ids_bind ht.leads_save fun _ s h ht => ?_
  refine ids_bind (P := fun _ s h => ∃ xs, Held xs s h) ?_ ?_
  · refine ids_bind (CodexRemoteBridge.leads_call ht.synced _ (by simp)) ?_
    rintro turn _ h' ⟨rfl, hids, hresume⟩
    refine Co.Leads.ofExcept_bind fun turnId hid => ?_
    rw [reportedBy_turn hid] at hids
    refine ⟨[("turnId", turnId)],
      ht.synced.toHeld.learn hids hresume (by simp) (.inr rfl) ?_ ?_⟩
    · simp [Dict.get?_set]
    · simp [Dict.keys]
  · rintro _ s h ⟨xs, hs⟩
    refine ids_bind (leads_saveReceipt hs) fun _ s h hs => ?_
    exact Retains.respects (hosts_synced _).closes hs

/-- The idle branch does not: when it waits for the connection to close, the
id of the turn is in memory only. -/
theorem respects_deliverIdle (a : SendMessage) (ht : Turnless false s h) :
    Respects a.deliverIdle s h := by
  unfold deliverIdle deliver
  refine ids_bind (P := fun _ s h => Turnless false s h)
    (ht.update (by simp [Dict.keys])) fun _ s h ht => ?_
  refine ids_bind ht.leads_save fun _ s h ht => ?_
  refine ids_bind (ht.leads_call _ (by simp [reportingMethods])) fun resumed s h ht => ?_
  refine ids_bind (P := fun _ s h => Turnless true s h)
    (ht.update (by simp [Dict.keys])) fun _ s h ht => ?_
  refine ids_bind ht.leads_save fun _ s h ht => ?_
  refine Co.Leads.ofExcept_bind fun policy _ => ?_
  split
  · trivial
  -- what the history reports and the row lacks, from the reply on
  refine ids_bind (P := fun _ _ h => ∃ turnId, ("turnId", turnId) ∈ reported h ∧
    h.any isResume = true ∧ ∀ receipt, durable h = some receipt →
      receipt.get? "turnId" = none) ?_ ?_
  · unfold Act.call
    refine ids_bind (P := fun turn _ h => reported h = (reportedBy "turn/start" turn).toList ∧
      h.any isResume = true ∧ ∀ receipt, durable h = some receipt →
        receipt.get? "turnId" = none) ?_ ?_
    · show Co.wp _ _ _ _ _ _
      rw [Act.wp_perform]
      refine ⟨ht.idsAt _, fun r => ?_⟩
      cases r with
      | error e => trivial
      | ok turn =>
          refine ⟨?_, ?_, ?_⟩
          · rw [remember, reported_append, ht.ids]
            rfl
          · rw [remember, List.any_append, ht.resumes]
            rfl
          · intro receipt hreceipt
            rw [remember, durable_append] at hreceipt
            exact ht.row receipt hreceipt
    · rintro turn s h ⟨hids, hresumed, hrow⟩
      refine Co.Leads.ofExcept_bind fun turnId hid => ?_
      rw [reportedBy_turn hid] at hids
      refine ⟨turnId, ?_, hresumed, hrow⟩
      rw [hids]
      simp
  · rintro _ s h ⟨turnId, hid, hresumed, hrow⟩
    show Co.wp _ _ _ _ _ _
    unfold Act.close
    rw [Act.wp_perform]
    refine ⟨fun _ => ⟨fun hall => ?_, fun hno => ?_⟩, fun r => ?_⟩
    · obtain ⟨receipt, hreceipt, hget⟩ := hall _ hid
      rw [hrow receipt hreceipt] at hget
      cases hget
    · exact absurd ⟨hresumed, turnId, hid⟩ hno
    · cases r <;> trivial

theorem respects_action (a : SendMessage) (ht : Turnless false s h) : Respects a.action s h := by
  unfold action
  refine ids_bind (P := fun _ s h => Turnless false s h)
    (ht.update (by simp [Dict.keys])) fun _ s h ht => ?_
  refine ids_bind ht.leads_save fun _ s h ht => ?_
  refine ids_bind (ht.leads_call _ (by simp [reportingMethods])) fun state s h ht => ?_
  refine Co.Leads.ofExcept_bind fun thread _ => Co.Leads.ofExcept_bind fun status _ => ?_
  split
  · exact a.respects_deliverActive ht
  · exact a.respects_deliverIdle ht

end SendMessage

theorem ForkThread.respects_action (a : ForkThread) (hs : Synced [] s h) :
    Respects a.action s h := by
  have hosts := hosts_synced []
  unfold action
  refine ids_bind (hosts.calls _ (by simp [reportingMethods]) s h hs) fun state s h hs => ?_
  refine Co.Leads.ofExcept_bind fun source _ => Co.Leads.ofExcept_bind fun refused _ => ?_
  split
  · trivial
  refine ids_bind (hosts.fills_refuseGoal a (by simp [reportingMethods]) s h hs)
    fun _ s h hs => ?_
  refine ids_bind (leads_call hs _ (by simp)) ?_
  rintro fork _ h' ⟨rfl, hids, hresume⟩
  refine Co.Leads.ofExcept_bind fun forkId hid => ?_
  rw [reportedBy_thread (.inr rfl) hid] at hids
  refine ids_bind (P := fun _ s h => Held [("threadId", forkId)] s h)
    (hs.toHeld.learn hids hresume (by simp) (.inl rfl) ?_ ?_) fun _ s h hs => ?_
  · simp [Dict.get?_set]
  · simp [Dict.keys]
  refine ids_bind (leads_saveReceipt hs) fun _ s h hs => ?_
  exact Retains.respects (hosts_synced _).closes hs

theorem SetThreadTitle.respects_action (a : SetThreadTitle) (hs : Synced [] s h) :
    Respects a.action s h := by
  unfold action
  exact ids_bind ((hosts_synced []).calls _ (by simp [reportingMethods]) s h hs)
    fun _ _ _ _ => trivial

theorem SetThreadArchived.respects_action (a : SetThreadArchived) (hs : Synced [] s h) :
    Respects a.action s h := by
  have hosts := hosts_synced []
  have hrest : ∀ method, (method ∉ reportingMethods ∧ method ≠ "thread/resume") →
      ∀ s h, Synced [] s h → Respects (do
        let _ ← Act.call method [("threadId", .str a.threadId)]
        updateReceipt [("threadId", .str a.threadId), ("archived", a.archived)]) s h :=
    fun method hmethod s h hs =>
      ids_bind (hosts.calls _ hmethod s h hs) fun _ _ _ _ => trivial
  unfold action
  split
  · exact ids_bind (hosts.fills_refuseBusy a (by simp [reportingMethods]) s h hs)
      fun _ s h hs => hrest _ (by simp [reportingMethods]) s h hs
  · exact hrest _ (by simp [reportingMethods]) s h hs

/-- **Every branch but one saves what it learns** before it waits again. -/
theorem ToolCall.respects_action (t : ToolCall) (cwd : String)
    (ht : SendMessage.Turnless false s h) : Respects (t.action cwd) s h := by
  cases t with
  | createThread a => exact a.respects_action cwd ht.synced
  | createWorktreeThread a => exact a.respects_action ht.synced
  | sendMessageToThread a => exact a.respects_action ht
  | forkThread a => exact a.respects_action ht.synced
  | setThreadTitle a => exact a.respects_action ht.synced
  | setThreadArchived a => exact a.respects_action ht.synced

end Branches

/-! ## §4. Whole runs. -/

theorem respects_attempt (t : ToolCall) (requestId cwd : String) {s : Dict} {h : History}
    (ht : SendMessage.Turnless false s h) :
    Co.wp IdsSpec (attempt requestId (t.action cwd)) (fun _ _ _ => True) (fun _ _ _ => True)
      s h := by
  refine lenient_ids.attempt ⟨idsAt_of_sync rfl, fun _ => ?_⟩
  refine t.respects_action cwd ⟨?_, ?_, ht.memory, ?_⟩
  · rw [remember, reported_append, ht.ids]
    rfl
  · rw [remember, List.any_append, ht.resumes]
    rfl
  · rw [remember, durable_append]
    exact ht.row

/-- A server with one idle thread, and a ledger without faults. -/
def idleServer : (op : Op) → Ans op
  | .acquire => .ok ()
  | .release => ()
  | .isDir _ => .ok true
  | .isFile _ => .ok true
  | .pathExists _ => .ok true
  | .isSymlink _ => .ok false
  | .resolve path => .ok path
  | .resolveThread path => .ok path
  | .mkdir _ => .ok ()
  | .now => "0.0"
  | .select _ => .ok none
  | .beginRow _ _ _ => .ok none
  | .update _ _ => .ok ()
  | .git _ _ => .ok ⟨0, some "", ""⟩
  | .call method _ =>
      if method = "thread/read" then
        .ok (.obj [("thread", .obj [("status", .obj [("type", .str "idle")])])])
      else if method = "thread/resume" then .ok (.obj [("approvalPolicy", .str "never")])
      else .ok (.obj [("turn", .obj [("id", .str "u")])])
  | .close => .ok ()
  | .enter _ => ()

section Whole

variable [Hashlib]

theorem ToolCall.idsAt_run (t : ToolCall) (requestId : String) :
    Interaction.wp IdsSpec (t.prog requestId) (fun _ _ => True) [] := by
  have hΦ : Indifferent IdsSpec (fun h => Synced [] [] h ∧ durable h = none) := by
    refine ⟨observe_mono _ _, fun op h hop hs => ⟨hs.1.idsAt op, fun r => ?_⟩⟩
    have hsilent : report ⟨op, r⟩ = none ∧ isResume ⟨op, r⟩ = false ∧
        ∀ m, durableStep m ⟨op, r⟩ = m := by
      cases op with
      | call method params => cases hop
      | update key receipt => cases hop
      | beginRow key fp receipt => cases hop
      | _ => exact ⟨rfl, rfl, fun _ => rfl⟩
    refine ⟨hs.1.append hsilent.1 hsilent.2.1 (hsilent.2.2 _), ?_⟩
    rw [remember, durable_append, hsilent.2.2]
    exact hs.2
  have hstart : Synced [] [] [] := ⟨⟨rfl, by simp, by simp, rfl⟩, by simp⟩
  refine hΦ.wp_tool (P := fun _ _ => True) t requestId ⟨hstart, rfl⟩
    (fun _ _ _ => trivial) (fun _ _ _ => ⟨idsAt_of_sync rfl, fun _ => trivial⟩) ?_
  intro cwd fp startedAt h hfp hs
  refine ⟨idsAt_of_sync rfl, fun r => ?_⟩
  rcases r with f | _ | row
  · exact ⟨hs.1.append rfl rfl rfl, by rw [remember, durable_append]; exact hs.2⟩
  · refine respects_attempt t requestId cwd ⟨?_, ?_, ?_, ?_⟩
    · rw [remember, reported_append, hs.1.ids]
      rfl
    · rw [remember, List.any_append, hs.1.unresumed]
      rfl
    · rfl
    · intro receipt hreceipt
      rw [remember, durable_append] at hreceipt
      obtain rfl := Option.some.inj hreceipt
      rfl
  · exact ⟨hs.1.append rfl rfl rfl, by rw [remember, durable_append]; exact hs.2⟩

/-- **Which ids are durable.**  Whenever a mutation waits, its row keeps
every id the replies so far have reported, exactly when it has not started a
turn on a thread it resumed. -/
theorem ToolCall.ids_durable (t : ToolCall) (requestId : String) {h : History}
    {rest : Residual Dict} {op : Op} (hrun : Run (t.prog requestId) h rest)
    (hop : rest.head? = some op) (hawait : op.isAwait = true) :
    (∀ x ∈ reported h, Recorded h x) ↔ ¬ ResumedTurn h := by
  have hat := wp_run_head (t.idsAt_run requestId) hrun hop
  rw [foldl_remember, List.nil_append] at hat
  exact hat hawait

end Whole

/-- The same server, with a fork to give. -/
def forkingServer : (op : Op) → Ans op
  | .call method params =>
      if method = "thread/goal/get" then .ok (.obj [("goal", .null)])
      else if method = "thread/fork" then .ok (.obj [("thread", .obj [("id", .str "f")])])
      else idleServer (.call method params)
  | op => idleServer op

/-- A fork waits for its connection to close, and the row has the id of the
thread it made. -/
theorem ToolCall.ids_durable_forked :
    let _ := Hashlib.verbatim
    ∃ (h : History) (rest : Residual Dict),
      Run ((ToolCall.forkThread ⟨"t"⟩).prog "r") h rest ∧
      rest.head? = some .close ∧ Op.isAwait .close = true ∧
      ("threadId", .str "f") ∈ reported h ∧ Recorded h ("threadId", .str "f") ∧
      ((∀ x ∈ reported h, Recorded h x) ↔ ¬ ResumedTurn h) := by
  intro _
  have hrun := Run.follow (fun _ => forkingServer) 10
    (Run.start (p := (ToolCall.forkThread ⟨"t"⟩).prog "r"))
  refine ⟨_, _, hrun, rfl, rfl, ?_, ⟨_, rfl, ?_⟩, ToolCall.ids_durable _ _ hrun rfl rfl⟩
  · exact List.mem_singleton.mpr rfl
  · rfl

/-- A send to an idle thread waits for its connection to close, and the row
does not have the id of the turn that was started. -/
theorem ToolCall.ids_lost :
    let _ := Hashlib.verbatim
    ∃ (h : History) (rest : Residual Dict),
      Run ((ToolCall.sendMessageToThread ⟨"t", "hi"⟩).prog "r") h rest ∧
      rest.head? = some .close ∧ Op.isAwait .close = true ∧
      ∃ x ∈ reported h, ¬ Recorded h x := by
  intro _
  have hrun := Run.follow (fun _ => idleServer) 14
    (Run.start (p := (ToolCall.sendMessageToThread ⟨"t", "hi"⟩).prog "r"))
  refine ⟨_, _, hrun, rfl, rfl, ("turnId", .str "u"), List.mem_singleton.mpr rfl, ?_⟩
  rintro ⟨receipt, hreceipt, hid⟩
  obtain rfl := Option.some.inj hreceipt
  cases hid

end CodexRemoteBridge
