/-
  CodexRemoteBridge.AtMostOnce — no request is dispatched twice.

  A call that has begun anything has inserted its row, a row has one call,
  and a call begins each effect at most once: so for every `request_id`
  each effect is begun at most once in the whole execution, whatever is
  answered, cancelled or killed.
-/
import CodexRemoteBridge.System

namespace CodexRemoteBridge

open Interaction

section Calls

variable [Hashlib] [Endpoint]

/-- The effects begun on behalf of a `request_id`, by every call there has
been. -/
def System.begun (S : System) (requestId : String) : List Effect :=
  S.clients.flatMap fun c => if c.requestId = requestId then c.begun else []

/-- One call begins each effect at most once. -/
theorem Client.begun_nodup {c : Client}
    (h : Run (c.tool.wire c.requestId) c.history c.rest) : c.begun.Nodup :=
  ((c.tool.emits_wire c.requestId).run h).nodup c.tool.effects_nodup

omit [Hashlib] [Endpoint] in
/-- A run does not lose the row it has inserted. -/
theorem inserted_mono (e : Event WireAns) {fresh : Option Dict} (h : fresh.isSome = true) :
    (onBase inserted fresh e).isSome = true := by
  obtain ⟨op | op, r⟩ := e
  · show (inserted fresh ⟨op, r⟩).isSome = true
    unfold inserted
    split
    · rfl
    · exact h
  · exact h

omit [Hashlib] [Endpoint] in
theorem inserted_foldl (tr : List (Event WireAns)) {fresh : Option Dict}
    (h : fresh.isSome = true) : (tr.foldl (onBase inserted) fresh).isSome = true := by
  induction tr generalizing fresh with
  | nil => exact h
  | cons e tr ih => exact ih (inserted_mono e h)

omit [Endpoint] in
/-- An operation with an effect is performed after the insertion. -/
theorem OwnWireOp.inserted {t : ToolCall} {requestId : String} {fresh : Option Dict}
    {op : WireOp} (h : OwnWireOp t requestId fresh op) (he : op.effect.isSome = true) :
    fresh.isSome = true := by
  cases op with
  | base op => exact h.effect he
  | net op => exact h he

/-- A call that has begun anything has inserted its row. -/
theorem Client.fresh_of_begun {c : Client}
    (h : Run (c.tool.wire c.requestId) c.history c.rest) (hne : c.begun ≠ []) :
    c.fresh.isSome = true := by
  have howns := c.tool.owns_wire c.requestId
  by_cases hlabels : labels WireOp.effect c.history = []
  · -- the effect is the one the call stands at
    cases hhead : c.rest.head? with
    | none => simp [Client.begun, hlabels, hhead] at hne
    | some op =>
        refine OwnWireOp.inserted (wp_run_head howns h hhead) ?_
        cases he : op.effect with
        | none => simp [Client.begun, hlabels, hhead, he] at hne
        | some e => rfl
  · obtain ⟨e, he⟩ := List.exists_mem_of_ne_nil _ hlabels
    obtain ⟨event, hevent, heffect⟩ := List.mem_filterMap.mp he
    obtain ⟨pre, post, hsplit⟩ := List.append_of_mem hevent
    have hfresh := OwnWireOp.inserted (wp_run_mem howns h hsplit) (by rw [heffect]; rfl)
    rw [Client.fresh, hsplit, List.foldl_append]
    exact inserted_foldl _ hfresh

theorem Owned.begun_nodup {store₀ : Store} {S : System} (h : Owned store₀ S)
    (requestId : String) : (S.begun requestId).Nodup := by
  refine List.nodup_flatMap.mpr ⟨fun c hc => ?_, ?_⟩
  · split
    · exact Client.begun_nodup (h.runs c hc)
    · exact List.nodup_nil
  · refine List.pairwise_iff_getElem.mpr fun i j hi hj hij => ?_
    show List.Disjoint _ _
    rw [List.disjoint_left]
    intro e hei hej
    dsimp only at hei hej
    by_cases hci : (S.clients[i]).requestId = requestId
    · by_cases hcj : (S.clients[j]).requestId = requestId
      · rw [if_pos hci] at hei
        rw [if_pos hcj] at hej
        have hfi := Client.fresh_of_begun (h.runs _ (List.getElem_mem hi))
          (List.ne_nil_of_mem hei)
        have hfj := Client.fresh_of_begun (h.runs _ (List.getElem_mem hj))
          (List.ne_nil_of_mem hej)
        have heq := h.alone i j _ _ (List.getElem?_eq_getElem hi)
          (List.getElem?_eq_getElem hj) (hci.trans hcj.symm) hfi hfj
        omega
      · rw [if_neg hcj] at hej
        cases hej
    · rw [if_neg hci] at hei
      cases hei

/-- **At most once.**  In every state of every execution, the action behind
a `request_id` has been entered at most once, and each request and each
command it stands for has been issued at most once on its behalf. -/
theorem System.at_most_once {store : Store} {S : System}
    (h : System.Reach (System.init store) S) (requestId : String) (effect : Effect) :
    (S.begun requestId).count effect ≤ 1 :=
  List.nodup_iff_count_le_one.mp ((Owned.of_reach h).begun_nodup requestId) effect

end Calls

/-- A retitling that has just entered its action. -/
theorem System.at_most_once_entered :
    let _ := Hashlib.verbatim
    let _ := Endpoint.sample
    ∃ S : System, System.Reach (System.init Store.empty) S ∧
      S.begun "r" = [.entered] ∧ (S.begun "r").count .entered ≤ 1 := by
  intro _ _
  have h := (System.Reach.init : System.Reach (System.init Store.empty) _)
    |>.step (.call 0 "r" (.setThreadTitle ⟨"t", "x"⟩))
    |>.answer 0 (.base .acquire) (.ok ()) rfl rfl rfl (.other _ (by simp) (by simp) (by simp))
        (.acquire rfl)
    |>.answer 0 (.base (.select "r")) (.ok none) rfl rfl rfl (.select "r")
        (.other _ (by simp) (by simp))
    |>.answer 0 (.base .now) "0.0" rfl rfl rfl (.other _ (by simp) (by simp) (by simp))
        (.other _ (by simp) (by simp))
    |>.answer 0 (.base (.beginRow "r" _ _)) (.ok none) rfl rfl rfl (.insert rfl)
        (.other _ (by simp) (by simp))
    |>.answer 0 (.base (.enter "r")) () rfl rfl rfl (.other _ (by simp) (by simp) (by simp))
        (.other _ (by simp) (by simp))
  exact ⟨_, h, rfl, System.at_most_once h "r" .entered⟩

end CodexRemoteBridge
