/-
  CodexRemoteBridge.Conversation — the dialogues on the wire.

  A call of a tool sends frames, reconnects and gives up waiting.  Read
  without the handshakes, what it has sent and been answered is a run of the
  dialogue of its tool, plus at most the one request that is on its way.

  Main result: `System.converses`.
-/
import CodexRemoteBridge.Dialogue
import CodexRemoteBridge.Rows

namespace CodexRemoteBridge

open Interaction

/-! ## §1. The frames of a request. -/

/-- The request a frame is, the handshake apart. -/
def NetOp.own : NetOp → Option Request
  | .send _ frame =>
      if frame.id.isSome ∧ frame.method ≠ "initialize" then some ⟨frame.method, frame.params⟩
      else none
  | _ => none

/-- The request an operation sends. -/
def WireOp.own : WireOp → Option Request
  | .base _ => none
  | .net op => op.own

/-- A request was carried out: its frame was sent at most once, and what it
returned is what the server sent in reply. -/
structure Carried (q : Request) (r : Response q) (part : List (Event WireAns)) : Prop where
  frames : (labels WireOp.own part).Sublist [q]
  reply : ∀ result, r = .ok result → Replied q.method result part

namespace AppServer

/-- A frame that is sent is `ok`. -/
def Sending (ok : Frame → Prop) (op : NetOp) : Prop := ∀ ws frame, op = .send ws frame → ok frame

variable {ok : Frame → Prop} {α : Type}

theorem sending_of_ne {op : NetOp} (h : ∀ ws frame, op ≠ .send ws frame) : Sending ok op :=
  fun ws frame he => absurd he (h ws frame)

theorem sending_send {frame : Frame} (h : ok frame) (ws : Conn) :
    Sending ok (.send ws frame) := by
  rintro ws' frame' he
  cases he
  exact h

theorem only_perform {op : NetOp} (h : Sending ok op) (view : NetAns op → Except PyExc α) :
    (perform op view).Only (Sending ok) :=
  (Co.only_ask h).bind fun _ => Co.only_ofExcept _

theorem only_exchange (ws : Conn) (ident : Nat) {method : String} {params : Dict}
    (h : ok ⟨some ident, method, params⟩) :
    (exchange ws ident method params).Only (Sending ok) := by
  refine Co.Only.tryCatch ?_ fun error => ?_
  · refine (only_perform (sending_send h ws) _).bind fun _ => ?_
    exact only_perform (sending_of_ne (by simp)) _
  · split <;> exact Co.only_throw _

theorem only_request {method : String} {params : Dict}
    (h : ∀ ident, ok ⟨some ident, method, params⟩) :
    (request method params).Only (Sending ok) := by
  unfold request
  refine (Co.only_ask (sending_of_ne (by simp))).bind fun ws => ?_
  cases ws with
  | none => exact Co.only_throw _
  | some ws =>
      refine (Co.only_ask (sending_of_ne (by simp))).bind fun ident => ?_
      refine Co.Only.bind ?_ fun message => Co.only_ofExcept _
      exact (only_exchange ws ident (h ident)).tryFinally (Co.only_ask (sending_of_ne (by simp)))

theorem only_closeReader : (do
    let reader ← reader
    match reader with
    | none => pure ()
    | some reader => do
        cancelReader reader
        suppressCancelled (joinReader reader)
        clearReader : Net Unit).Only (Sending ok) := by
  refine (Co.only_ask (sending_of_ne (by simp))).bind fun reader => ?_
  cases reader with
  | none => exact Co.only_pure _
  | some reader =>
      refine (Co.only_ask (sending_of_ne (by simp))).bind fun _ => ?_
      refine Co.Only.bind ?_ fun _ => Co.only_ask (sending_of_ne (by simp))
      refine Co.Only.tryCatch (only_perform (sending_of_ne (by simp)) _) fun error => ?_
      split
      · exact Co.only_pure _
      · exact Co.only_throw _

theorem only_close : close.Only (Sending ok) := by
  unfold close
  refine (Co.only_ask (sending_of_ne (by simp))).bind fun ws => ?_
  cases ws with
  | none => exact only_closeReader
  | some ws =>
      refine (only_perform (sending_of_ne (by simp)) _).bind fun _ => ?_
      exact (Co.only_ask (sending_of_ne (by simp))).bind fun _ => only_closeReader

variable [Endpoint]

/-- Connecting sends the frames of the handshake. -/
theorem only_connect (h : ∀ frame : Frame, frame.IsHandshake → ok frame) :
    connect.Only (Sending ok) := by
  have hestablish : establish.Only (Sending ok) := by
    unfold establish
    refine (only_perform (sending_of_ne (by simp)) _).bind fun present => ?_
    split
    · exact Co.only_throw _
    refine (only_perform (sending_of_ne (by simp)) _).bind fun _ => ?_
    refine (Co.only_ask (sending_of_ne (by simp))).bind fun _ => ?_
    refine (only_request fun ident => h _ (.inl ⟨rfl, rfl, rfl⟩)).bind fun info => ?_
    refine (Co.only_ask (sending_of_ne (by simp))).bind fun _ => ?_
    refine (Co.only_ask (sending_of_ne (by simp))).bind fun ws => ?_
    cases ws with
    | none => exact Co.only_throw _
    | some ws => exact only_perform (sending_send (h _ (.inr ⟨rfl, rfl, rfl⟩)) ws) _
  unfold connect
  refine (only_perform (sending_of_ne (by simp)) _).bind fun _ => ?_
  refine Co.Only.tryFinally ?_ (Co.only_ask (sending_of_ne (by simp)))
  refine (Co.only_ask (sending_of_ne (by simp))).bind fun alive => ?_
  split
  · exact Co.only_pure _
  refine only_close.bind fun _ => hestablish.tryCatch fun error => ?_
  exact only_close.bind fun _ => Co.only_throw _

omit [Endpoint]

theorem own_of_sending {op : NetOp}
    (h : Sending (fun frame => (NetOp.send 0 frame).own = none) op) :
    op.own = none := by
  cases op with
  | send ws frame => exact h ws frame rfl
  | _ => rfl

theorem own_handshake {frame : Frame} (h : frame.IsHandshake) : (NetOp.send 0 frame).own = none := by
  rcases h with ⟨-, hmethod, -⟩ | ⟨hid, -, -⟩
  · simp [NetOp.own, hmethod]
  · simp [NetOp.own, hid]

theorem asks_perform {α : Type} (op : NetOp) (view : NetAns op → Except PyExc α) :
    (perform op view).Emits NetOp.own op.own.toList := by
  have h := (Co.emits_ask (l := NetOp.own) (ε := PyExc) (S := Unit) op).bind
    fun r => Co.emits_ofExcept (ρ := NetAns) (S := Unit) (view r)
  rwa [List.append_nil] at h

/-- A request sends its own frame, at most once. -/
theorem asks_request (method : String) (params : Dict) :
    (request method params).Emits NetOp.own [⟨method, params⟩] := by
  have hsilent : ∀ {op : NetOp}, op.own = none →
      (Co.ask op : Net (NetAns op)).Emits NetOp.own [] := by
    intro op hop
    have h : (Co.ask op : Net (NetAns op)).Emits NetOp.own op.own.toList := Co.emits_ask op
    rwa [hop] at h
  have hsend : ∀ ws ident, (send ws ⟨some ident, method, params⟩).Emits NetOp.own
      [⟨method, params⟩] := by
    intro ws ident
    have h := asks_perform (.send ws ⟨some ident, method, params⟩) lift
    by_cases hmethod : method = "initialize"
    · have hown : (NetOp.send ws ⟨some ident, method, params⟩).own = none := by
        simp [NetOp.own, hmethod]
      rw [hown] at h
      exact h.weaken
    · have hown : (NetOp.send ws ⟨some ident, method, params⟩).own = some ⟨method, params⟩ := by
        simp [NetOp.own, hmethod]
      rwa [hown] at h
  unfold request
  refine (hsilent rfl).silent_bind fun ws => ?_
  cases ws with
  | none => exact (Co.emits_throw _).weaken
  | some ws =>
      refine (hsilent rfl).silent_bind fun ident => ?_
      rw [← List.append_nil [_]]
      refine Co.Emits.bind ?_ fun message => Co.emits_ofExcept _
      rw [← List.append_nil [_]]
      refine Co.Emits.tryFinally ?_ (hsilent rfl)
      rw [← List.append_nil [_]]
      refine Co.Emits.tryCatch ?_ fun error => ?_
      · exact (hsend ws ident).cons_bind fun _ => asks_perform (.awaitReply ident) lift
      · split <;> exact Co.emits_throw _

theorem asks_close : close.Emits NetOp.own [] :=
  only_close.emits fun _ => own_of_sending

/-- **A call sends its own request**, at most once, and none but the
handshake besides. -/
theorem asks_call [Endpoint] (method : String) (params : Dict) :
    (call method params).Emits NetOp.own [⟨method, params⟩] :=
  ((only_connect fun _ => own_handshake).emits fun _ => own_of_sending).silent_bind
    fun _ => asks_request method params

end AppServer

theorem own_ofNet {α : Type} {c : Net α} {L : List Request} (h : c.Emits NetOp.own L) :
    Emits WireOp.own (ofNet c) L := by
  rw [← List.append_nil L]
  refine Emits.bind ?_ fun r => .ret _ _
  refine Emits.handle (l := NetOp.own) (fun op => ?_) (h ())
  cases hop : op.own with
  | none => exact .silent hop fun _ => .ret _ _
  | some q => exact .label hop fun _ => .ret _ _

/-- A coroutine of `AppServer` performs operations of `AppServer`. -/
theorem net_of_ofNet {α : Type} {c : Net α} {part : List (Event WireAns)}
    {rest : Prog WireOp WireAns (Except PyExc α)} (hrun : Run (ofNet c) part rest) :
    ∀ e ∈ part, ∃ op, e.1 = .net op := by
  have hnet : ∀ {β : Type} (p : Prog NetOp NetAns β),
      Interaction.wp ((observe (ρ := WireAns) (fun (_ : Unit) _ => ())
        fun _ op => ∃ n, op = WireOp.net n).through fun op => .op (.net op) .ret)
        p (fun _ _ => True) () := by
    intro β p
    induction p with
    | ret _ => trivial
    | op i k ih => exact ⟨⟨i, rfl⟩, fun r => ih r⟩
  have hwp : Interaction.wp (observe (ρ := WireAns) (fun (_ : Unit) _ => ())
      fun _ op => ∃ n, op = WireOp.net n) (ofNet c) (fun _ _ => True) () := by
    unfold ofNet
    rw [Interaction.wp_bind, Interaction.wp_handle]
    exact hnet _
  intro e he
  obtain ⟨pre, post, he⟩ := List.append_of_mem he
  exact wp_run_mem hwp hrun he

variable [Endpoint]

theorem carried_call {method : String} {params : Dict} {r : Except PyExc Json}
    {part : List (Event WireAns)} (hrun : Run (wire (.call method params)) part (.ret r)) :
    Carried ⟨method, params⟩ r part where
  frames := by
    have h := Emits.run (own_ofNet (AppServer.asks_call method params)) hrun
    simpa [Prog.head?] using h
  reply := by
    rintro result rfl
    have h : Co.wp recordingCalls (Act.call method params) _ _ [] [] :=
      replied_call method params [] []
    unfold Act.call at h
    rw [Act.wp_perform] at h
    have hend := wp_run_ret h hrun
    rwa [foldl_remember, List.nil_append] at hend

/-! ## §2. A run, request by request. -/

/-- A history read as requests and what they came to: each was carried out
in a part of it, and nothing is sent in between. -/
inductive Conversed : List (Event WireAns) → List (Event Response) → Prop
  | start : Conversed [] []
  | aside {w : List (Event WireAns)} {said : List (Event Response)} {e : Event WireAns} :
      Conversed w said → e.1.own = none → Conversed (w ++ [e]) said
  | exchange {w part : List (Event WireAns)} {said : List (Event Response)} {q : Request}
      {r : Response q} : Conversed w said → Carried q r part →
      Conversed (w ++ part) (said ++ [⟨q, r⟩])

/-- The row is accepted. -/
def WireAccepts : Event WireAns → Prop
  | ⟨.base op, r⟩ => Accepts ⟨op, r⟩
  | ⟨.net _, _⟩ => False

omit [Endpoint] in
theorem Conversed.silent {w : List (Event WireAns)} {said : List (Event Response)}
    (h : Conversed w said) : ∀ {part : List (Event WireAns)}, (∀ e ∈ part, e.1.own = none) →
      Conversed (w ++ part) said := by
  intro part
  induction part using List.reverseRecOn with
  | nil =>
      intro _
      rwa [List.append_nil]
  | append_singleton part e ih =>
      intro hpart
      rw [← List.append_assoc]
      exact .aside (ih fun e he => hpart e (List.mem_append_left _ he))
        (hpart e (List.mem_append_right _ (List.mem_singleton_self _)))

omit [Endpoint] in
theorem own_of_labels {part : List (Event WireAns)}
    (h : (labels WireOp.own part).Sublist []) : ∀ e ∈ part, e.1.own = none := by
  intro e he
  cases hown : e.1.own with
  | none => rfl
  | some q =>
      have hmem : q ∈ labels WireOp.own part := List.mem_filterMap.mpr ⟨e, he, hown⟩
      rw [List.sublist_nil.mp h] at hmem
      cases hmem

omit [Endpoint] in
/-- An operation that is performed as it is. -/
theorem run_base {op : Op} {part : List (Event WireAns)} {rest : Prog WireOp WireAns (Ans op)}
    (hrun : Run (.op (.base op) .ret : Prog WireOp WireAns (Ans op)) part rest) :
    (part = [] ∧ rest = .op (.base op) .ret) ∨ ∃ r, part = [⟨.base op, r⟩] ∧ rest = .ret r := by
  induction hrun with
  | start => exact .inl ⟨rfl, rfl⟩
  | @step tr i k r hrun ih =>
      rcases ih with ⟨rfl, hrest⟩ | ⟨r', rfl, hrest⟩
      · cases hrest
        exact .inr ⟨r, rfl, rfl⟩
      · cases hrest

/-- What an operation becomes on the wire. -/
inductive OnWire (op : Op) : List (Event WireAns) → Prop
  | base (r : Ans op) : OnWire op [⟨.base op, r⟩]
  | net {part : List (Event WireAns)} : (∀ e ∈ part, ∃ n, e.1 = .net n) → OnWire op part

theorem onWire {op : Op} {part : List (Event WireAns)} {rest : Prog WireOp WireAns (Ans op)}
    (hrun : Run (wire op) part rest) : OnWire op part := by
  have hbase : Run (.op (.base op) .ret : Prog WireOp WireAns (Ans op)) part rest →
      OnWire op part := by
    intro hrun
    rcases run_base hrun with ⟨rfl, -⟩ | ⟨r, rfl, -⟩
    · exact .net (by simp)
    · exact .base r
  cases op with
  | call method params => exact .net (net_of_ofNet hrun)
  | close => exact .net (net_of_ofNet hrun)
  | _ => exact hbase hrun

omit [Endpoint] in
theorem onWire_accepts {op : Op} {part : List (Event WireAns)} (h : OnWire op part)
    (haccepts : ∃ e ∈ part, WireAccepts e) : ∃ r : Ans op, Accepts ⟨op, r⟩ := by
  obtain ⟨e, he, haccepts⟩ := haccepts
  cases h with
  | base r =>
      rw [List.mem_singleton.mp he] at haccepts
      exact ⟨r, haccepts⟩
  | net hnet =>
      obtain ⟨op, r⟩ := e
      obtain ⟨n, rfl⟩ := hnet _ he
      exact haccepts.elim

/-- The frames of an operation, while it is under way. -/
theorem labels_wire {op : Op} {part : List (Event WireAns)}
    {rest : Prog WireOp WireAns (Ans op)} (hrun : Run (wire op) part rest) :
    (labels WireOp.own part).Sublist
      (match op with
        | .call method params => [⟨method, params⟩]
        | _ => []) := by
  have hlabels : ∀ {L : List Request}, Emits WireOp.own (wire op) L →
      (labels WireOp.own part).Sublist L :=
    fun h => (List.sublist_append_left _ _).trans (Emits.run h hrun)
  cases op with
  | call method params => exact hlabels (own_ofNet (AppServer.asks_call method params))
  | close => exact hlabels (own_ofNet AppServer.asks_close)
  | _ => exact hlabels (.silent rfl fun _ => .ret _ _)

/-- **Each operation in its place**: a run on the wire reads as the requests of
the run above it. -/
theorem conversed_of_implements {h : History} {w : List (Event WireAns)}
    (himp : Implements wire h w) : Conversed w (replies h) := by
  induction himp with
  | nil => exact .start
  | @snoc h w part op r _ hrun ih =>
      have hquiet : replied ⟨op, r⟩ = none → (labels WireOp.own part).Sublist [] →
          Conversed (w ++ part) (replies (h ++ [⟨op, r⟩])) := by
        intro hreplied hlabels
        rw [replies_append, hreplied, Option.toList_none, List.append_nil]
        exact ih.silent (own_of_labels hlabels)
      cases op with
      | call method params =>
          rw [replies_append]
          exact .exchange ih (carried_call hrun)
      | _ => exact hquiet rfl (labels_wire hrun)

omit [Endpoint] in
/-- Where nothing was said, nothing is on the wire. -/
theorem Conversed.labels_eq_nil {w : List (Event WireAns)} {said : List (Event Response)}
    (h : Conversed w said) (hsaid : said = []) : labels WireOp.own w = [] := by
  induction h with
  | start => rfl
  | @aside w said e _ hown ih =>
      rw [labels_append, ih hsaid, List.nil_append]
      exact List.filterMap_eq_nil_iff.mpr fun e' he' => by
        rw [List.mem_singleton.mp he', hown]
  | exchange _ _ _ =>
      exact absurd hsaid (List.append_ne_nil_of_right_ne_nil _ (List.cons_ne_nil _ _))

theorem accepts_of_implements {h : History} {w : List (Event WireAns)}
    (himp : Implements wire h w) (haccepts : ∃ e ∈ w, WireAccepts e) : ∃ e ∈ h, Accepts e := by
  induction himp with
  | nil =>
      obtain ⟨e, he, -⟩ := haccepts
      cases he
  | @snoc h w part op r _ hrun ih =>
      obtain ⟨e, he, haccepts⟩ := haccepts
      rcases List.mem_append.mp he with he | he
      · obtain ⟨e', he', haccepts'⟩ := ih ⟨e, he, haccepts⟩
        exact ⟨e', List.mem_append_left _ he', haccepts'⟩
      · obtain ⟨r', haccepts'⟩ := onWire_accepts (onWire hrun) ⟨e, he, haccepts⟩
        refine ⟨⟨op, r⟩, List.mem_append_right _ (List.mem_singleton_self _), ?_⟩
        cases op with
        | update key receipt => exact haccepts'
        | _ => exact haccepts'.elim

/-- The directory a launch uses, as the run resolved it. -/
def ToolCall.ResolvedTo : ToolCall → String → List (Event WireAns) → Prop
  | .createThread a, cwd, w => ∃ resolved, cwd = resolved.str ∧
      (⟨.base (.resolve (PyPath.ofString a.cwd)), .ok resolved⟩ : Event WireAns) ∈ w
  | _, _, _ => True

omit [Endpoint] in
theorem ToolCall.ResolvedTo.mono {t : ToolCall} {cwd : String} {w w' : List (Event WireAns)}
    (hr : t.ResolvedTo cwd w) (hsub : w ⊆ w') : t.ResolvedTo cwd w' := by
  cases t with
  | createThread a =>
      obtain ⟨resolved, hcwd, hmem⟩ := hr
      exact ⟨resolved, hcwd, hsub hmem⟩
  | _ => exact hr

theorem resolvedTo_of_implements {t : ToolCall} {cwd : String} {h : History}
    {w : List (Event WireAns)} (himp : Implements wire h w) (hr : t.Resolved cwd h) :
    t.ResolvedTo cwd w := by
  cases t with
  | createThread a =>
      obtain ⟨resolved, hcwd, hmem⟩ := hr
      refine ⟨resolved, hcwd, ?_⟩
      clear hcwd
      induction himp with
      | nil => cases hmem
      | @snoc h w part op r _ hrun ih =>
          rcases List.mem_append.mp hmem with hmem | hmem
          · exact List.mem_append_left _ (ih hmem)
          · cases List.mem_singleton.mp hmem
            refine List.mem_append_right _ ?_
            rcases run_base hrun with ⟨-, hrest⟩ | ⟨r, rfl, hrest⟩
            · cases hrest
            · cases hrest
              exact List.mem_singleton_self _
  | _ => trivial

/-! ## §3. Every call of every execution. -/

/-- What a call has sent is its part of the dialogue of its tool: of the
requests of `said` each was carried out, and of the next one no more than its
frame has gone out. -/
structure Conversing (t : ToolCall) (w : List (Event WireAns)) (cwd : String)
    (said : List (Event Response)) (next : Dialogue) : Prop where
  dialogue : Run (t.dialogue cwd) said next
  wire : ∃ before last, w = before ++ last ∧ Conversed before said ∧
    (labels WireOp.own last).Sublist next.head?.toList
  /-- From the first frame on, the dialogue is about the directory resolved. -/
  resolved : said = [] ∧ labels WireOp.own w = [] ∨ t.ResolvedTo cwd w

section Whole

variable [Hashlib]

theorem ToolCall.converses_run (t : ToolCall) (requestId : String) {w : List (Event WireAns)}
    {rest : Prog WireOp WireAns (Except PyExc Dict × Dict)}
    (hrun : Run (t.wire requestId) w rest) :
    ∃ cwd said next, Conversing t w cwd said next ∧
      ((∃ e ∈ w, WireAccepts e) → next = .ret .complete) := by
  obtain ⟨h, p, done, part, hp, rfl, himp, hcase⟩ := Run.of_handle _ (t.prog requestId) hrun
  obtain ⟨cwd, next, hdialogue, hresolved, hdone⟩ := t.dialogue_run requestId hp
  have hsaid := conversed_of_implements himp
  have hresolvedTo : ∀ {cwd}, t.Resolved cwd h → t.ResolvedTo cwd (done ++ part) :=
    fun hr => (resolvedTo_of_implements himp hr).mono (List.subset_append_left _ _)
  -- where nothing of the server's is under way
  have hquiet : (labels WireOp.own part).Sublist [] → (∀ e ∈ part, ¬ WireAccepts e) →
      ∃ cwd said next, Conversing t (done ++ part) cwd said next ∧
        ((∃ e ∈ done ++ part, WireAccepts e) → next = .ret .complete) := by
    intro hlabels hnone
    refine ⟨cwd, replies h, next, ⟨hdialogue, ⟨done, part, rfl, hsaid, ?_⟩, ?_⟩, ?_⟩
    · exact hlabels.trans (List.nil_sublist _)
    · refine hresolved.imp (fun hnone => ⟨hnone, ?_⟩) hresolvedTo
      rw [labels_append, hsaid.labels_eq_nil hnone, List.nil_append]
      exact List.sublist_nil.mp hlabels
    · rintro ⟨e, he, haccepts⟩
      rcases List.mem_append.mp he with he | he
      · exact hdone (accepts_of_implements himp ⟨e, he, haccepts⟩)
      · exact absurd haccepts (hnone e he)
  rcases hcase with ⟨rfl, -⟩ | ⟨op, k, rest', rfl, hpart, -⟩
  · exact hquiet (List.Sublist.refl _) (by simp)
  have hat := wp_run_head (t.tells_run requestId) hp rfl
  rw [foldl_remember, List.nil_append] at hat
  have hlabels := labels_wire hpart
  have haccepts : (∀ r : Ans op, ¬ Accepts ⟨op, r⟩) → ∀ e ∈ part, ¬ WireAccepts e := by
    intro hnone e he haccepts
    obtain ⟨r, hr⟩ := onWire_accepts (onWire hpart) ⟨e, he, haccepts⟩
    exact hnone r hr
  cases op with
  | call method params =>
      obtain ⟨cwd, k', hr, hd, hundecided⟩ := hat
      refine ⟨cwd, replies h, _, ⟨hd, ⟨done, part, rfl, hsaid, hlabels⟩, .inr (hresolvedTo hr)⟩, ?_⟩
      rintro ⟨e, he, hacc⟩
      rcases List.mem_append.mp he with he | he
      · obtain ⟨e', he', hacc'⟩ := accepts_of_implements himp ⟨e, he, hacc⟩
        exact absurd hacc' (hundecided e' he')
      · exact absurd hacc (haccepts (fun _ => id) e he)
  | update key receipt =>
      by_cases haccepted : receipt.get? "status" = some (.str "accepted")
      · obtain ⟨cwd, hr, hd⟩ := hat haccepted
        exact ⟨cwd, replies h, _, ⟨hd, ⟨done, part, rfl, hsaid, hlabels.trans (List.nil_sublist _)⟩,
          .inr (hresolvedTo hr)⟩, fun _ => rfl⟩
      · exact hquiet hlabels (haccepts fun _ => haccepted)
  | _ => exact hquiet hlabels (haccepts fun _ => id)

/-- A row that says accepted was saved so. -/
theorem ToolCall.durable_accepts {t : ToolCall} {requestId : String} {w : List (Event WireAns)}
    {rest : Prog WireOp WireAns (Except PyExc Dict × Dict)}
    (hrun : Run (t.wire requestId) w rest) {receipt : Dict}
    (hdurable : w.foldl (onBase durableStep) none = some receipt)
    (haccepted : receipt.get? "status" = some (.str "accepted")) : ∃ e ∈ w, WireAccepts e := by
  induction hrun with
  | start => cases hdurable
  | @step w op k r hrun ih =>
      have hown : OwnWireOp t requestId (w.foldl (onBase inserted) none) op :=
        wp_run_head (t.owns_wire requestId) hrun rfl
      have hbefore : w.foldl (onBase durableStep) none = some receipt →
          ∃ e ∈ w ++ [⟨op, r⟩], WireAccepts e := by
        intro hdurable
        obtain ⟨e, he, haccepts⟩ := ih hdurable
        exact ⟨e, List.mem_append_left _ he, haccepts⟩
      rw [List.foldl_append] at hdurable
      have hdurable : onBase durableStep (w.foldl (onBase durableStep) none) ⟨op, r⟩
          = some receipt := hdurable
      cases op with
      | net op => exact hbefore hdurable
      | base op =>
          have hstep : durableStep (w.foldl (onBase durableStep) none) ⟨op, r⟩ = some receipt :=
            hdurable
          unfold durableStep at hstep
          split at hstep
          · rename_i he
            cases he
            obtain ⟨-, -, -, startedAt, rfl⟩ := hown.row _ _ _ rfl
            rw [← Option.some.inj hstep] at haccepted
            simp [Ledger.freshReceipt] at haccepted
          · rename_i he
            cases he
            rw [← Option.some.inj hstep] at haccepted
            exact ⟨_, List.mem_append_right _ (List.mem_singleton_self _), haccepted⟩
          · exact hbefore hstep

/-- **The dialogue on the wire.**  In every execution, what a call has sent
and been answered is a run of its tool's dialogue; and where the row it began
says accepted, the dialogue is complete. -/
theorem System.converses {store : Store} {S : System}
    (h : System.Reach (System.init store) S) {c : Client} (hc : c ∈ S.clients) :
    ∃ cwd said next, Conversing c.tool c.history cwd said next ∧
      ∀ row, c.fresh.isSome = true → S.store.find? c.requestId = some row →
        row.receipt.get? "status" = some (.str "accepted") → next = .ret .complete := by
  have howned := Owned.of_reach h
  have hrun := howned.runs c hc
  obtain ⟨cwd, said, next, hconversing, hdone⟩ := c.tool.converses_run c.requestId hrun
  refine ⟨cwd, said, next, hconversing, fun row hbegun hfind haccepted => ?_⟩
  obtain ⟨⟨row', hfind', hdurable, -⟩, -⟩ := howned.holds c hc hbegun
  rw [hfind] at hfind'
  obtain rfl := Option.some.inj hfind'
  exact hdone (ToolCall.durable_accepts hrun hdurable haccepted)

end Whole

omit [Endpoint] in
/-- A retitling whose request is out. -/
theorem System.converses_retitle :
    let _ := Hashlib.verbatim
    let _ := Endpoint.sample
    ∃ (S : System) (c : Client), c ∈ S.clients ∧
      labels WireOp.own c.history
        = [⟨"thread/name/set", [("threadId", .str "t"), ("name", .str "x")]⟩] ∧
      ∃ cwd said next, Conversing c.tool c.history cwd said next ∧
        ∀ row, c.fresh.isSome = true → S.store.find? c.requestId = some row →
          row.receipt.get? "status" = some (.str "accepted") → next = .ret .complete := by
  intro _ _
  have h := (System.Reach.init : System.Reach (System.init Store.empty) _)
    |>.step (.call 0 "r" (.setThreadTitle ⟨"t", "x"⟩))
    |>.answer 0 (.base .acquire) (.ok ()) rfl rfl rfl (.other _ (by simp) (by simp) (by simp))
        (.acquire rfl)
    |>.answer 0 (.base (.select "r")) (.ok none) rfl rfl rfl (.select "r")
        (.other _ (by simp) (by simp))
    |>.answer 0 (.base .now) "0.0" rfl rfl rfl (.other _ (by simp) (by simp) (by simp))
        (.other _ (by simp) (by simp))
    |>.answer 0 (.base (.beginRow "r" _ _)) (.ok none) rfl rfl rfl (.insert rfl)
        (.other _ (by simp) (by simp))
    |>.answer 0 (.base (.enter "r")) () rfl rfl rfl (.other _ (by simp) (by simp) (by simp))
        (.other _ (by simp) (by simp))
    |>.answer 0 (.net .lock) (.ok ()) rfl rfl rfl (.other _ (by simp) (by simp) (by simp))
        (.other _ (by simp) (by simp))
    |>.answer 0 (.net .readerAlive) true rfl rfl rfl (.other _ (by simp) (by simp) (by simp))
        (.other _ (by simp) (by simp))
    |>.answer 0 (.net .unlock) () rfl rfl rfl (.other _ (by simp) (by simp) (by simp))
        (.other _ (by simp) (by simp))
    |>.answer 0 (.net .ws) (some (0 : Conn)) rfl rfl rfl (.other _ (by simp) (by simp) (by simp))
        (.other _ (by simp) (by simp))
    |>.answer 0 (.net .register) (1 : Nat) rfl rfl rfl (.other _ (by simp) (by simp) (by simp))
        (.other _ (by simp) (by simp))
    |>.answer 0 (.net (.send 0 _)) (.ok ()) rfl rfl rfl (.other _ (by simp) (by simp) (by simp))
        (.other _ (by simp) (by simp))
  exact ⟨_, _, List.mem_singleton.mpr rfl, rfl, System.converses h (List.mem_singleton.mpr rfl)⟩

end CodexRemoteBridge
