/-
  CodexRemoteBridge.Rows — what a row of the ledger is.

  A row is inserted with a receipt that says which call it is for, and is
  written over by that call only.  So at every moment of every execution it
  names its request and its operation, has one of four statuses, and the
  text of its receipt reads back.

  Main result: `System.rows_wellFormed`.
-/
import CodexRemoteBridge.Finality

namespace CodexRemoteBridge

open Interaction

/-! ## §1. Well-formed rows. -/

/-- The statuses of a receipt. -/
def receiptStatuses : List String :=
  ["in_progress_or_unknown", "accepted", "failed", "outcome_unknown"]

/-- The receipt has one of them. -/
def Graded (receipt : Dict) : Prop :=
  ∃ status ∈ receiptStatuses, receipt.get? "status" = some (.str status)

/-- The row of a call of a tool, under its own key. -/
structure Row.WellFormed [Hashlib] (row : Row) : Prop where
  /-- The arguments passed their checks, and the fingerprint is theirs. -/
  call : ∃ t : ToolCall, t.check = .ok () ∧
    CodexRemoteBridge.fingerprint row.requestId t.method t.params = .ok row.fingerprint ∧
    row.receipt.get? "operation" = some (.str t.method)
  requestId : row.receipt.get? "requestId" = some (.str row.requestId)
  status : Graded row.receipt
  startedAt : (row.receipt.get? "startedAt").isSome = true
  /-- No receipt invites a retry, and each is of the second version. -/
  retrySafe : row.receipt.get? "retrySafe" = some (.bool false)
  version : row.receipt.get? "fingerprintVersion" = some (.int 2)
  text : Json.loads (String.ofList (Json.dumpsText (.obj row.receipt))) = some (.obj row.receipt)

/-! ## §2. The status of what is saved. -/

/-- A save writes one of the statuses. -/
def GradedAt (op : Op) : Prop := ∀ key receipt, op = .update key receipt → Graded receipt

abbrev GradedSpec : OpSpec Ans Unit := observe (fun _ _ => ()) fun _ op => GradedAt op

theorem gradedAt_of {op : Op} (h : ∀ key receipt, op ≠ .update key receipt) : GradedAt op :=
  fun key receipt e => absurd e (h key receipt)

theorem graded_fresh [Hashlib] (requestId method : String) (startedAt : Json) :
    Graded (Ledger.freshReceipt requestId method startedAt) :=
  ⟨"in_progress_or_unknown", by simp [receiptStatuses], rfl⟩

/-- While an action goes on its receipt keeps the status it began with. -/
theorem graded_of_sameHead {fresh receipt : Dict} (h : SameHead fresh receipt)
    (hfresh : Graded fresh) : Graded receipt := by
  obtain ⟨status, hmem, hstatus⟩ := hfresh
  refine ⟨status, hmem, ?_⟩
  rw [h "status" (by simp [headKeys]), hstatus]

theorem graded_stamped {receipt : Dict} (h : Graded receipt) (updatedAt : String) :
    Graded (stamped receipt updatedAt) := by
  obtain ⟨status, hmem, hstatus⟩ := h
  refine ⟨status, hmem, ?_⟩
  rw [stamped, Dict.get?_update_of_notMem _ receipt (by simp [Dict.keys]), hstatus]

/-- Whatever leaves the action is recorded under one of them. -/
theorem graded_outcome (receipt : Dict) (e : PyExc) : Graded (receipt.update (outcome e)) := by
  cases e with
  | rpcError method error => exact ⟨"failed", by simp [receiptStatuses], by
      simp [outcome, Dict.update, Dict.get?_set]⟩
  | worktreeError message => exact ⟨"failed", by simp [receiptStatuses], by
      simp [outcome, Dict.update, Dict.get?_set]⟩
  | cancelledError => exact ⟨"outcome_unknown", by simp [receiptStatuses], by
      simp [outcome, Dict.update]⟩
  | exception cls message => exact ⟨"outcome_unknown", by simp [receiptStatuses], by
      simp [outcome, Dict.update, Dict.get?_set]⟩

theorem hosts_graded {requestId : String} {fresh : Dict}
    (hid : fresh.get? "requestId" = some (.str requestId)) (hfresh : Graded fresh) :
    HostsHead GradedSpec fresh (fun _ => True) (fun _ _ => True) := by
  refine HostsHead.mk hid (observe_mono _ _) ?_ ?_ ?_ ?_ (fun _ _ _ => trivial)
    (fun _ _ _ _ => trivial)
  · intro op m hop _
    refine ⟨gradedAt_of ?_, fun _ => trivial⟩
    rintro key receipt rfl
    cases hop
  · intro receipt m hhead _
    refine ⟨fun key written e => ?_, fun _ => trivial⟩
    cases e
    exact graded_of_sameHead hhead hfresh
  · intro method params m _
    refine ⟨gradedAt_of (by simp), fun r => ?_⟩
    cases r <;> trivial
  · intro m _
    refine ⟨gradedAt_of (by simp), fun r => ?_⟩
    cases r <;> trivial

section Reached

variable [Hashlib]

/-- **Every save of a run writes one of the statuses.** -/
theorem ToolCall.grades (t : ToolCall) (requestId : String) :
    Interaction.wp GradedSpec (t.prog requestId) (fun _ _ => True) () := by
  have hΦ : Indifferent GradedSpec (fun _ => True) := by
    refine ⟨observe_mono _ _, fun op m hop _ => ⟨gradedAt_of ?_, fun _ => trivial⟩⟩
    rintro key receipt rfl
    cases hop
  have hsave : ∀ (receipt : Dict) (Q : Dict → Except PyExc Dict) (P : Ends Unit),
      Graded receipt → (∀ r m, P r m) →
      Saves GradedSpec requestId receipt (fun w m => P (Q w) m) (fun e m => P (.error e) m) () := by
    intro receipt Q P hgraded hP
    refine ⟨gradedAt_of (by simp), fun updatedAt => ⟨fun key written e => ?_, fun r => ?_⟩⟩
    · cases e
      exact graded_stamped hgraded updatedAt
    · cases r <;> exact hP _ _
  refine hΦ.wp_tool (P := fun _ _ => True) t requestId trivial (fun _ _ _ => trivial)
    (fun _ _ _ => ⟨gradedAt_of (by simp), fun _ => trivial⟩) ?_
  intro cwd fp startedAt m hfp _
  refine ⟨gradedAt_of (by simp), fun r => ?_⟩
  rcases r with f | _ | row
  · trivial
  · refine HostsHead.wp_attempt (P := fun _ _ => True) t cwd
      (hosts_graded rfl (graded_fresh requestId t.method startedAt)) rfl
      ⟨gradedAt_of (by simp), fun _ => trivial⟩ ?_ ?_
    · intro s m _ _
      refine hsave _ .ok _ ⟨"accepted", by simp [receiptStatuses], ?_⟩ fun _ _ => trivial
      simp [Dict.update]
    · exact fun e s m _ _ => hsave _ (settled e) _ (graded_outcome s e) fun _ _ => trivial
  · trivial

/-- `GradedAt`, frame by frame. -/
def GradedWireAt : WireOp → Prop
  | .base op => GradedAt op
  | .net _ => True

variable [Endpoint]

theorem ToolCall.grades_wire (t : ToolCall) (requestId : String) :
    Interaction.wp (observe (onBase fun _ _ => ()) fun _ => GradedWireAt) (t.wire requestId)
      (fun _ _ => True) () := by
  refine wp_handle_of (observe_mono _ _) _ ?_ _ (t.grades requestId)
  intro op Q m h
  have hrpc : ∀ {α : Type} {c : Net α} {L : List Effect} {Q : Except PyExc α → Unit → Prop},
      Transmits c L → (∀ r, Q r m) →
      Interaction.wp (observe (onBase fun _ _ => ()) fun _ => GradedWireAt) (ofNet c) Q m := by
    intro α c L Q hc hQ
    refine Interaction.wp_mono (observe_mono _ _) _ ?_ m (wp_ofNet hc fun _ _ => trivial)
    rintro r m' rfl
    exact hQ r
  cases op with
  | call method params => exact hrpc (AppServer.transmits_call method params) h.2
  | close => exact hrpc AppServer.transmits_close h.2
  | _ => exact h

/-! ## §3. What a call has put in its row. -/

section Durable

variable {t : ToolCall} {requestId : String} {h : List (Event WireAns)}
variable {rest : Prog WireOp WireAns (Except PyExc Dict × Dict)}

/-- The receipt a run inserts is the fresh one of its tool. -/
theorem ToolCall.inserted_fresh (hrun : Run (t.wire requestId) h rest) {fresh : Dict}
    (hfresh : h.foldl (onBase inserted) none = some fresh) :
    ∃ startedAt, fresh = Ledger.freshReceipt requestId t.method startedAt := by
  induction hrun with
  | start => cases hfresh
  | @step h op k r hrun ih =>
      have hown : OwnWireOp t requestId (h.foldl (onBase inserted) none) op :=
        wp_run_head (t.owns_wire requestId) hrun rfl
      rw [List.foldl_append] at hfresh
      have hfresh : onBase inserted (h.foldl (onBase inserted) none) ⟨op, r⟩ = some fresh := hfresh
      cases op with
      | net op => exact ih hfresh
      | base op =>
          have hstep : inserted (h.foldl (onBase inserted) none) ⟨op, r⟩ = some fresh := hfresh
          unfold inserted at hstep
          split at hstep
          · rename_i he
            cases he
            obtain ⟨-, -, -, startedAt, rfl⟩ := hown.row _ _ _ rfl
            exact ⟨startedAt, (Option.some.inj hstep).symm⟩
          · exact ih hstep

/-- What it saved last has one of the statuses. -/
theorem ToolCall.durable_graded (hrun : Run (t.wire requestId) h rest) {receipt : Dict}
    (hdurable : h.foldl (onBase durableStep) none = some receipt) : Graded receipt := by
  induction hrun with
  | start => cases hdurable
  | @step h op k r hrun ih =>
      have hown : OwnWireOp t requestId (h.foldl (onBase inserted) none) op :=
        wp_run_head (t.owns_wire requestId) hrun rfl
      have hgraded : GradedWireAt op := wp_run_head (t.grades_wire requestId) hrun rfl
      rw [List.foldl_append] at hdurable
      have hdurable : onBase durableStep (h.foldl (onBase durableStep) none) ⟨op, r⟩
          = some receipt := hdurable
      cases op with
      | net op => exact ih hdurable
      | base op =>
          have hstep : durableStep (h.foldl (onBase durableStep) none) ⟨op, r⟩ = some receipt :=
            hdurable
          unfold durableStep at hstep
          split at hstep
          · rename_i he
            cases he
            obtain ⟨-, -, -, startedAt, rfl⟩ := hown.row _ _ _ rfl
            rw [← Option.some.inj hstep]
            exact graded_fresh requestId t.method startedAt
          · rename_i he
            cases he
            rw [← Option.some.inj hstep]
            exact hgraded _ _ rfl
          · exact ih hstep

end Durable

/-! ## §4. Every ledger that is reached. -/

/-- **Every row is a receipt.**  In every execution, a row of the ledger is
one that was there when the server started, unchanged, or is well formed. -/
theorem System.rows_wellFormed {store : Store} {S : System}
    (h : System.Reach (System.init store) S)
    (hanswered : ∀ c ∈ S.clients, ∀ e ∈ c.history, WireAnswered e) :
    ∀ row ∈ S.store.rows, row ∈ store.rows ∨ row.WellFormed := by
  have howned := Owned.of_reach h
  intro row hrow
  rcases howned.origin row hrow with hold | ⟨c, hc, hid, hbegun⟩
  · exact .inl hold
  right
  have hrun := howned.runs c hc
  obtain ⟨⟨row', hfind, hdurable, hfp⟩, hhead⟩ := howned.holds c hc hbegun
  have hrow' := Store.find?_of_mem hrow
  rw [← hid, hfind] at hrow'
  obtain rfl := Option.some.inj hrow'
  obtain ⟨fresh, hfresh⟩ := Option.isSome_iff_exists.mp hbegun
  obtain ⟨startedAt, rfl⟩ := ToolCall.inserted_fresh hrun hfresh
  have hsame := hhead _ _ hfresh hdurable
  exact {
    call := ⟨c.tool, Client.check_ok hrun hbegun, by rw [← hid]; exact hfp,
      hsame "operation" (by simp [headKeys]) (by simp)⟩
    requestId := by
      rw [hsame "requestId" (by simp [headKeys]) (by simp), ← hid]
      rfl
    status := ToolCall.durable_graded hrun hdurable
    startedAt := by
      rw [hsame "startedAt" (by simp [headKeys]) (by simp)]
      rfl
    retrySafe := hsame "retrySafe" (by simp [headKeys]) (by simp)
    version := hsame "fingerprintVersion" (by simp [headKeys]) (by simp)
    text := Client.loads_savedLast hrun (hanswered c hc) hdurable }

end Reached

/-- The row of a retitling that could not connect. -/
theorem System.rows_wellFormed_retitle :
    let _ := Hashlib.verbatim
    let _ := Endpoint.sample
    ∃ (S : System) (row : Row), row ∈ S.store.rows ∧
      row.receipt.get? "status" = some (.str "outcome_unknown") ∧ row.WellFormed := by
  intro _ _
  have h := (System.Reach.init : System.Reach (System.init Store.empty) _)
    |>.step (.call 0 "r" (.setThreadTitle ⟨"t", "x"⟩))
    |>.answer 0 (.base .acquire) (.ok ()) rfl rfl rfl (.other _ (by simp) (by simp) (by simp))
        (.acquire rfl)
    |>.answer 0 (.base (.select "r")) (.ok none) rfl rfl rfl (.select "r")
        (.other _ (by simp) (by simp))
    |>.answer 0 (.base .now) "1.5" rfl rfl rfl (.other _ (by simp) (by simp) (by simp))
        (.other _ (by simp) (by simp))
    |>.answer 0 (.base (.beginRow "r" _ _)) (.ok none) rfl rfl rfl (.insert rfl)
        (.other _ (by simp) (by simp))
    |>.answer 0 (.base (.enter "r")) () rfl rfl rfl (.other _ (by simp) (by simp) (by simp))
        (.other _ (by simp) (by simp))
    |>.answer 0 (.net .lock) (.error (.exception "RuntimeError" "no loop")) rfl rfl rfl
        (.other _ (by simp) (by simp) (by simp)) (.other _ (by simp) (by simp))
    |>.answer 0 (.base .now) "2.5" rfl rfl rfl (.other _ (by simp) (by simp) (by simp))
        (.other _ (by simp) (by simp))
    |>.answer 0 (.base (.update (.str "r") _)) (.ok ()) rfl rfl rfl (.update "r" _)
        (.other _ (by simp) (by simp))
  have hall := System.rows_wellFormed h ?answers
  · refine ⟨_, ?row, ?mem, ?status, (hall ?row ?mem).resolve_left List.not_mem_nil⟩
    case mem => exact List.Mem.head _
    case status => rfl
  · intro c hc
    obtain rfl := List.mem_singleton.mp hc
    have float : ∀ time : String, Json.isFloatText time = true →
        WireAnswered ⟨.base .now, time⟩ := fun _ h => h
    -- only the two readings of the clock carry a value
    exact List.forall_iff_forall_mem.mp
      ⟨trivial, trivial, float "1.5" (by decide), trivial, trivial, trivial,
        float "2.5" (by decide), trivial⟩

end CodexRemoteBridge
