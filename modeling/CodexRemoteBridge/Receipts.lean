/-
  CodexRemoteBridge.Receipts — what a run writes to its row.

  An action fills the receipt without touching the fields the ledger wrote
  when the row was inserted, and it saves to its own row only.  §2 reduces
  any question about a tool to one about its action, started from a fresh
  receipt.
-/
import CodexRemoteBridge.Hosts

namespace CodexRemoteBridge

open Interaction

/-! ## §1. The head of a receipt. -/

/-- Two receipts that agree on the fields a fresh one starts with. -/
def SameHead (fresh receipt : Dict) : Prop :=
  ∀ key ∈ headKeys, receipt.get? key = fresh.get? key

theorem SameHead.refl (fresh : Dict) : SameHead fresh fresh := fun _ _ => rfl

theorem SameHead.update {fresh receipt fields : Dict} (h : SameHead fresh receipt)
    (hkeys : ∀ key ∈ fields.keys, key ∉ headKeys) : SameHead fresh (receipt.update fields) := by
  intro key hkey
  rw [Dict.get?_update_of_notMem fields receipt fun hmem => hkeys key hmem hkey]
  exact h key hkey

theorem SameHead.stamped {fresh receipt : Dict} (h : SameHead fresh receipt)
    (updatedAt : String) : SameHead fresh (stamped receipt updatedAt) :=
  h.update (by simp [Dict.keys, headKeys])

/-- An observer that hosts any action that fills `fresh`. -/
abbrev HostsHead {M : Type} (Φ : OpSpec Ans M) (fresh : Dict) (J : M → Prop)
    (X : PyExc → M → Prop) : Prop :=
  Hosts Φ (fun key => key ∉ headKeys) (fun _ => True) (fun s m => SameHead fresh s ∧ J m)
    fun e s m => SameHead fresh s ∧ X e m

section Head

variable {M : Type} {Φ : OpSpec Ans M} {requestId : String} {fresh : Dict}
variable {J : M → Prop} {X : PyExc → M → Prop}

theorem HostsHead.fills_action (hosts : HostsHead Φ fresh J X) (t : ToolCall) (cwd : String) :
    Fills Φ (fun s m => SameHead fresh s ∧ J m) (fun e s m => SameHead fresh s ∧ X e m)
      (t.action cwd) :=
  t.fills_action hosts (fun _ h => h) (fun _ => trivial) cwd

/-- What it takes: the row is written under its own key, with its head. -/
theorem HostsHead.mk (hid : fresh.get? "requestId" = some (.str requestId)) (hmono : Φ.Mono)
    (hact : ∀ op m, op.isActing = true → J m → Φ op (fun _ m' => J m') m)
    (hupdate : ∀ receipt m, SameHead fresh receipt → J m →
      Φ (.update (.str requestId) receipt) (fun _ m' => J m') m)
    (hcall : ∀ method params m, J m → Φ (.call method params) (fun r m' =>
      match r with
      | .ok _ => J m'
      | .error e => X e m') m)
    (hclose : ∀ m, J m → Φ .close (fun r m' =>
      match r with
      | .ok _ => J m'
      | .error e => X e m') m)
    (hown : ∀ e m, J m → X e m)
    (hgoal : ∀ method error m, X (.rpcError method error) m → X ForkThread.goalUnverified m) :
    HostsHead Φ fresh J X where
  mono := hmono
  act := fun op s m hop h => hmono op (fun _ _ hJ => ⟨h.1, hJ⟩) m (hact op m hop h.2)
  update := by
    rintro key updatedAt s m hkey ⟨hs, hm⟩
    obtain rfl : key = .str requestId := by
      rw [hs "requestId" (by simp [headKeys]), hid] at hkey
      exact (Option.some.inj hkey).symm
    exact hmono _ (fun _ _ hJ => ⟨hs, hJ⟩) m (hupdate _ m (hs.stamped updatedAt) hm)
  fields := fun _ _ _ hkeys h => ⟨h.1.update hkeys, h.2⟩
  call := by
    rintro method params s m - ⟨hs, hm⟩
    refine hmono _ (fun r m' hr => ?_) m (hcall method params m hm)
    cases r with
    | ok a => exact ⟨hs, hr⟩
    | error e => exact ⟨hs, hr⟩
  close := by
    rintro s m ⟨hs, hm⟩
    refine hmono _ (fun r m' hr => ?_) m (hclose m hm)
    cases r with
    | ok a => exact ⟨hs, hr⟩
    | error e => exact ⟨hs, hr⟩
  own := fun e s m h => ⟨h.1, hown e m h.2⟩
  goal := fun method error s m h => ⟨h.1, hgoal method error m h.2⟩

end Head

/-! ## §2. Around the action. -/

/-- Saving a receipt is one `UPDATE` of its row, with a fresh time stamp. -/
def Saves {M : Type} (Φ : OpSpec Ans M) (requestId : String) (receipt : Dict)
    (Q : Dict → M → Prop) (X : PyExc → M → Prop) : M → Prop :=
  Φ .now fun t => Φ (.update (.str requestId) (stamped receipt t)) fun r m =>
    match r with
    | .ok _ => Q (stamped receipt t) m
    | .error fault => X fault.raised m

/-- What `_mutate` ends with when the action raised `e` and `written` was
saved: only a cancellation is raised again. -/
def settled : PyExc → Dict → Except PyExc Dict
  | .cancelledError, _ => .error .cancelledError
  | _, written => .ok written

section Around

variable {M : Type} {Φ : OpSpec Ans M} {requestId : String} {s : Dict} {m : M}

theorem wp_save {receipt : Dict} {Q : Dict → Dict → M → Prop} {X : PyExc → Dict → M → Prop}
    (hid : receipt.get? "requestId" = some (.str requestId)) :
    Co.wp Φ (Ledger.save receipt) Q X s
      = Saves Φ requestId receipt (fun written m => Q written s m) (fun e m => X e s m) := by
  have hindex : ∀ t, Json.index "requestId" (.obj (stamped receipt t))
      = .ok (.str requestId) := by
    intro t
    simp [Json.index, stamped, Dict.get?_set, hid]
  unfold Ledger.save Act.now Saves
  rw [Co.wp_bind, Act.wp_perform]
  congr 1
  funext t
  show Co.wp Φ (do
      let key ← Act.ofExcept (Json.index "requestId" (.obj (stamped receipt t)))
      Act.perform (.update key (stamped receipt t)) lift
      pure (stamped receipt t)) Q X s = _
  rw [hindex, Co.wp_bind, Co.wp_ofExcept]
  dsimp only
  rw [Co.wp_bind, Act.wp_perform]
  congr 1
  funext r m
  cases r with
  | ok a => rfl
  | error fault => rfl

theorem wp_attempt (Φ : OpSpec Ans M) (requestId : String) (action : Act Unit)
    (Q : Dict → Dict → M → Prop) (X : PyExc → Dict → M → Prop) (s : Dict) :
    Co.wp Φ (attempt requestId action) Q X s
      = Φ (.enter requestId) fun _ m =>
          Co.wp Φ action
            (fun _ s m =>
              Co.wp Φ saveReceipt Q X (s.update [("status", .str "accepted")]) m)
            (fun e s m =>
              Co.wp Φ (settle e) (fun _ s m => Co.wp Φ saveReceipt Q X s m) X s m) s m := by
  unfold attempt
  rw [Co.wp_bind, Co.wp_tryCatch, Co.wp_bind, Co.wp_ask]
  congr 1
  funext r m
  rw [Co.wp_bind]
  rfl

/-- What a fresh request ends in. -/
abbrev Ends (M : Type) : Type := Except PyExc Dict → M → Prop

/-- However the action raised, the receipt is saved once, with the fields
that record the exception. -/
theorem wp_settle {e : PyExc} {P : Ends M}
    (hid : s.get? "requestId" = some (.str requestId)) :
    Co.wp Φ (settle e)
      (fun _ s m => Co.wp Φ saveReceipt (fun w _ m => P (.ok w) m)
        (fun e _ m => P (.error e) m) s m)
      (fun e _ m => P (.error e) m) s
      = Saves Φ requestId (s.update (outcome e)) (fun w m => P (settled e w) m)
          (fun e m => P (.error e) m) := by
  have hid' : (s.update (outcome e)).get? "requestId" = some (.str requestId) := by
    rw [Dict.get?_update_of_notMem _ _ (by cases e <;> simp [outcome, Dict.keys]), hid]
  have hsave := wp_save (Φ := Φ) (s := s.update (outcome e)) (Q := fun w _ m => P (settled e w) m)
    (X := fun e _ m => P (.error e) m) hid'
  cases e with
  | cancelledError =>
      unfold settle
      rw [Co.wp_bind, Co.wp_get, Co.wp_bind]
      exact wp_save hid'
  | rpcError method error => exact hsave
  | worktreeError message => exact hsave
  | exception cls message => exact hsave

/-- The whole of a fresh request, from what its action does. -/
theorem wp_attempt_of (hΦ : Φ.Mono) {action : Act Unit} {P : Ends M}
    {A : Dict → M → Prop} {B : PyExc → Dict → M → Prop}
    (henter : Φ (.enter requestId)
      (fun _ m => Co.wp Φ action (fun _ s m => A s m) B s m) m)
    (haccepted : ∀ s m, A s m → s.get? "requestId" = some (.str requestId) ∧
      Saves Φ requestId (s.update [("status", .str "accepted")])
        (fun w m => P (.ok w) m) (fun e m => P (.error e) m) m)
    (hraised : ∀ e s m, B e s m → s.get? "requestId" = some (.str requestId) ∧
      Saves Φ requestId (s.update (outcome e))
        (fun w m => P (settled e w) m) (fun e m => P (.error e) m) m) :
    Co.wp Φ (attempt requestId action) (fun w _ m => P (.ok w) m)
      (fun e _ m => P (.error e) m) s m := by
  rw [wp_attempt]
  refine hΦ _ (fun _ m h => ?_) m henter
  refine Co.wp_conseq hΦ h ?_ ?_
  · intro _ s m hs
    obtain ⟨hid, hsave⟩ := haccepted s m hs
    have hid' : (s.update [("status", .str "accepted")]).get? "requestId"
        = some (.str requestId) := by
      rw [Dict.get?_update_of_notMem _ _ (by simp [Dict.keys]), hid]
    unfold CodexRemoteBridge.saveReceipt
    rw [Co.wp_bind, Co.wp_get, wp_save hid']
    exact hsave
  · intro e s m hs
    obtain ⟨hid, hsave⟩ := hraised e s m hs
    rw [wp_settle hid]
    exact hsave

/-- An observer that asks nothing of the clock and of the saves. -/
structure Lenient (Φ : OpSpec Ans M) : Prop where
  mono : Φ.Mono
  now : ∀ m, Φ .now (fun _ _ => True) m
  update : ∀ key receipt m, Φ (.update key receipt) (fun _ _ => True) m

namespace Lenient

variable (hΦ : Lenient Φ)
include hΦ

theorem save (receipt : Dict) :
    (Ledger.save receipt).Keeps Φ (fun _ _ => True) fun _ _ _ => True := by
  intro s m _
  unfold Ledger.save Act.now
  rw [Co.wp_bind, Act.wp_perform]
  refine hΦ.mono _ (fun time m _ => ?_) m (hΦ.now m)
  dsimp only
  rw [Co.wp_bind, Co.wp_ofExcept]
  generalize Json.index "requestId" _ = key
  cases key with
  | error e => trivial
  | ok key =>
      dsimp only
      rw [Co.wp_bind, Act.wp_perform]
      refine hΦ.mono _ (fun r m _ => ?_) m (hΦ.update key _ m)
      cases r <;> trivial

theorem saveReceipt : saveReceipt.Keeps Φ (fun _ _ => True) fun _ _ _ => True :=
  Co.Keeps.get_bind fun receipt m _ => hΦ.save receipt receipt m trivial

theorem settle (e : PyExc) : (settle e).Keeps Φ (fun _ _ => True) fun _ _ _ => True := by
  cases e with
  | cancelledError =>
      refine Co.Keeps.get_bind fun receipt m _ => ?_
      rw [Co.wp_bind]
      exact Co.wp_conseq hΦ.mono (hΦ.save _ receipt m trivial) (fun _ _ _ _ => trivial)
        fun _ _ _ h => h
  | _ => exact fun _ _ _ => trivial

/-- Once its action has been followed, nothing is left to ask of a request. -/
theorem attempt {action : Act Unit}
    (henter : Φ (.enter requestId)
      (fun _ m => Co.Leads Φ action (fun _ _ _ => True) s m) m) :
    Co.wp Φ (attempt requestId action) (fun _ _ _ => True) (fun _ _ _ => True) s m := by
  rw [wp_attempt]
  refine hΦ.mono _ (fun _ m haction => ?_) m henter
  refine Co.wp_conseq hΦ.mono haction ?_ ?_
  · exact fun _ s m _ => hΦ.saveReceipt _ m trivial
  · exact fun e s m _ => Co.wp_conseq hΦ.mono (hΦ.settle e s m trivial)
      (fun _ s m _ => hΦ.saveReceipt s m trivial) fun _ _ _ h => h

end Lenient

/-- The same for an observer that hosts the action. -/
theorem HostsHead.wp_attempt {fresh : Dict} {J : M → Prop} {X : PyExc → M → Prop} {P : Ends M}
    (t : ToolCall) (cwd : String) (hosts : HostsHead Φ fresh J X)
    (hid : fresh.get? "requestId" = some (.str requestId))
    (henter : Φ (.enter requestId) (fun _ m => J m) m)
    (haccepted : ∀ s m, SameHead fresh s → J m →
      Saves Φ requestId (s.update [("status", .str "accepted")])
        (fun w m => P (.ok w) m) (fun e m => P (.error e) m) m)
    (hraised : ∀ e s m, SameHead fresh s → X e m →
      Saves Φ requestId (s.update (outcome e))
        (fun w m => P (settled e w) m) (fun e m => P (.error e) m) m) :
    Co.wp Φ (attempt requestId (t.action cwd)) (fun w _ m => P (.ok w) m)
      (fun e _ m => P (.error e) m) fresh m := by
  have hhead : ∀ s, SameHead fresh s → s.get? "requestId" = some (.str requestId) := by
    intro s hs
    rw [hs "requestId" (by simp [headKeys]), hid]
  refine wp_attempt_of hosts.mono
    (hosts.mono _ (fun _ m hm => hosts.fills_action t cwd fresh m ⟨SameHead.refl fresh, hm⟩)
      m henter) ?_ ?_
  · exact fun s m hs => ⟨hhead s hs.1, haccepted s m hs.1 hs.2⟩
  · exact fun e s m hs => ⟨hhead s hs.1, hraised e s m hs.1 hs.2⟩

end Around

/-- The operations of `_mutate` around the insertion of the row. -/
def Op.isPreparatory : Op → Bool
  | .acquire | .release | .select _ => true
  | op => op.isLook

theorem Op.isPreparatory_of_isLook {op : Op} (h : op.isLook = true) :
    op.isPreparatory = true := by
  cases op <;> simp_all [Op.isLook, Op.isPreparatory]

theorem looks_legacyParams {t : ToolCall} {legacy : Act Dict}
    (h : t.legacyParams = some legacy) : Looks legacy := by
  cases t with
  | createThread a =>
      obtain rfl := Option.some.inj h
      exact (looks_resolve _).bind fun _ => Co.only_pure _
  | _ => cases h

theorem looks_validateFresh (t : ToolCall) : Looks t.validateFresh := by
  cases t with
  | createThread a => exact looks_absoluteDirectory _
  | _ => exact Co.only_pure _

variable [Hashlib]

theorem looks_matchRow {requestId method fp : String} {legacyParams : Option (Act Dict)}
    (h : ∀ legacy, legacyParams = some legacy → Looks legacy) (row : StoredRow) :
    Looks (Ledger.matchRow requestId method fp legacyParams row) := by
  obtain ⟨stored, receipt⟩ := row
  unfold Ledger.matchRow
  dsimp only
  split
  · exact Co.only_pure _
  · split
    · refine (h _ rfl).bind fun params => (Co.only_ofExcept _).bind fun fp' => ?_
      split
      · exact Co.only_pure _
      · exact Act.only_raise _
    · exact Act.only_raise _

theorem matchRow_self (requestId method fp : String) (legacyParams : Option (Act Dict))
    (receipt : Dict) :
    Ledger.matchRow requestId method fp legacyParams (fp, receipt) = pure receipt := by
  simp [Ledger.matchRow]

/-- The operations around the insertion keep `J`. -/
structure Indifferent {M : Type} (Φ : OpSpec Ans M) (J : M → Prop) : Prop where
  mono : Φ.Mono
  prepares : ∀ op m, op.isPreparatory = true → J m → Φ op (fun _ m' => J m') m

section Indifferent

variable {M : Type} {Φ : OpSpec Ans M} {J : M → Prop} {s : Dict} {m : M}
variable (hΦ : Indifferent Φ J)
include hΦ

omit [Hashlib] in
theorem Indifferent.wp_looks {α : Type} {c : Act α} {Q : α → Dict → M → Prop}
    {X : PyExc → Dict → M → Prop} (hc : Looks c) (hm : J m)
    (hQ : ∀ a m, J m → Q a s m) (hX : ∀ e m, J m → X e s m) : Co.wp Φ c Q X s m := by
  have hkeeps : c.Keeps Φ (fun s' m' => s' = s ∧ J m') (fun _ s' m' => s' = s ∧ J m') :=
    hc.keeps hΦ.mono
      (fun op _ m hop h => hΦ.mono op (fun _ _ h' => ⟨h.1, h'⟩) m
        (hΦ.prepares op m (Op.isPreparatory_of_isLook hop) h.2))
      fun _ _ _ h => h
  refine Co.wp_conseq hΦ.mono (hkeeps s m ⟨rfl, hm⟩) ?_ ?_
  · intro a s' m' h
    obtain ⟨rfl, hm'⟩ := h
    exact hQ a m' hm'
  · intro e s' m' h
    obtain ⟨rfl, hm'⟩ := h
    exact hX e m' hm'

theorem Indifferent.wp_lookup (t : ToolCall) {requestId : String}
    {Q : Option Dict → Dict → M → Prop} {X : PyExc → Dict → M → Prop} (hm : J m)
    (hQ : ∀ o m, J m → Q o s m) (hX : ∀ e m, J m → X e s m) :
    Co.wp Φ (Ledger.lookup requestId t.method t.params t.legacyParams) Q X s m := by
  unfold Ledger.lookup
  rw [Co.wp_bind, Co.wp_ofExcept]
  cases fingerprint requestId t.method t.params with
  | error e => exact hX e m hm
  | ok fp =>
      dsimp only
      rw [Co.wp_bind, Act.wp_perform]
      refine hΦ.mono _ (fun r m hm => ?_) m (hΦ.prepares _ m rfl hm)
      rcases r with e | _ | row
      · exact hX _ m hm
      · exact hQ none m hm
      · dsimp only [lift]
        rw [Co.wp_bind]
        exact hΦ.wp_looks (looks_matchRow (fun _ h => looks_legacyParams h) row) hm
          (fun receipt m hm => hQ (some receipt) m hm) hX

/-- Inserting a row: either it was there before, or it is fresh. -/
theorem Indifferent.wp_begin (t : ToolCall) {requestId : String}
    {Q : Bool × Dict → Dict → M → Prop} {X : PyExc → Dict → M → Prop} (hm : J m)
    (hX : ∀ e m, J m → X e s m) (hold : ∀ receipt m, J m → Q (false, receipt) s m)
    (hbegin : ∀ fp startedAt m, fingerprint requestId t.method t.params = .ok fp → J m →
      let fresh := Ledger.freshReceipt requestId t.method startedAt
      Φ (.beginRow requestId fp fresh) (fun r m' =>
        match r with
        | .ok none => Q (true, fresh) s m'
        | _ => J m') m) :
    Co.wp Φ (Ledger.begin requestId t.method t.params t.legacyParams) Q X s m := by
  unfold Ledger.begin
  rw [Co.wp_bind, Co.wp_ofExcept]
  cases hfp : fingerprint requestId t.method t.params with
  | error e => exact hX e m hm
  | ok fp =>
      dsimp only
      rw [Co.wp_bind]
      refine hΦ.wp_looks looks_now hm (fun startedAt m hm => ?_) hX
      rw [Co.wp_bind, Act.wp_perform]
      refine hΦ.mono _ (fun r m' h => ?_) m (hbegin fp startedAt m hfp hm)
      rcases r with e | _ | row
      · exact hX _ m' h
      · dsimp only [lift, Option.getD_none]
        rw [matchRow_self, Co.wp_bind, Co.wp_pure]
        exact h
      · dsimp only [lift, Option.getD_some]
        rw [Co.wp_bind]
        exact hΦ.wp_looks (looks_matchRow (fun _ h => looks_legacyParams h) row) h
          (fun receipt m hm => hold receipt m hm) hX

/-- **Only the action matters.**  For an observer whose `J` the operations
before the insertion keep, and whose `V` those after `validate_fresh` keep,
a tool is its action attempted on the receipt of a freshly inserted row. -/
theorem Indifferent.wp_tool_of {P : Ends M} {V : String → M → Prop} (t : ToolCall)
    (requestId : String) (hV : ∀ cwd, Indifferent Φ (V cwd)) (hm : J m)
    (hfresh : ∀ m, J m → Co.wp Φ t.validateFresh (fun cwd _ m => V cwd m) (fun _ _ m => J m) [] m)
    (hP : ∀ r m, (J m ∨ ∃ cwd, V cwd m) → P r m)
    (hrelease : ∀ r m, P r m → Φ .release (fun _ m' => P r m') m)
    (hmain : ∀ cwd fp startedAt m, fingerprint requestId t.method t.params = .ok fp → V cwd m →
      let fresh := Ledger.freshReceipt requestId t.method startedAt
      Φ (.beginRow requestId fp fresh) (fun r m' =>
        match r with
        | .ok none => Co.wp Φ (attempt requestId (t.action cwd))
            (fun w _ m => P (.ok w) m) (fun e _ m => P (.error e) m) fresh m'
        | _ => V cwd m') m) :
    Interaction.wp Φ (t.prog requestId) (fun r m => P r.1 m) m := by
  have hlocked : ∀ m, J m → Co.wp Φ (mutateLocked requestId t.method t.params
      t.legacyParams t.validateFresh t.action) (fun w _ m => P (.ok w) m)
        (fun e _ m => P (.error e) m) [] m := by
    intro m hm
    unfold mutateLocked
    rw [Co.wp_bind]
    refine hΦ.wp_lookup t hm (fun retained m hm => ?_) fun _ _ hm => hP _ _ (.inl hm)
    cases retained with
    | some receipt => exact hP _ _ (.inl hm)
    | none =>
        dsimp only
        rw [Co.wp_bind]
        refine Co.wp_conseq hΦ.mono (hfresh m hm) (fun cwd s m hv => ?_)
          fun _ _ _ hm => hP _ _ (.inl hm)
        rw [Co.wp_bind]
        exact (hV cwd).wp_begin t hv (fun _ _ hv => hP _ _ (.inr ⟨cwd, hv⟩))
          (fun _ _ hv => hP _ _ (.inr ⟨cwd, hv⟩))
          fun fp startedAt m hfp hv => hmain cwd fp startedAt m hfp hv
  suffices h : Co.wp Φ (t.run requestId) (fun w _ m => P (.ok w) m)
      (fun e _ m => P (.error e) m) [] m by
    refine Interaction.wp_mono hΦ.mono _ ?_ m h
    rintro ⟨r | r, s⟩ m' h' <;> exact h'
  unfold ToolCall.run mutate
  rw [Co.wp_bind, Co.wp_ofExcept]
  cases t.check with
  | error e => exact hP _ _ (.inl hm)
  | ok _ =>
      dsimp only
      rw [Co.wp_bind, Act.wp_perform]
      refine hΦ.mono _ (fun r m hm => ?_) m (hΦ.prepares _ m rfl hm)
      cases r with
      | error e => exact hP _ _ (.inl hm)
      | ok _ =>
          dsimp only [lift]
          rw [Co.wp_tryFinally]
          exact Co.wp_conseq hΦ.mono (hlocked m hm)
            (fun w s m h => hrelease (.ok w) m h) fun e s m h => hrelease (.error e) m h

/-- The same where nothing is asked of `validate_fresh`. -/
theorem Indifferent.wp_tool {P : Ends M} (t : ToolCall) (requestId : String) (hm : J m)
    (hP : ∀ r m, J m → P r m)
    (hrelease : ∀ r m, P r m → Φ .release (fun _ m' => P r m') m)
    (hmain : ∀ cwd fp startedAt m, fingerprint requestId t.method t.params = .ok fp → J m →
      let fresh := Ledger.freshReceipt requestId t.method startedAt
      Φ (.beginRow requestId fp fresh) (fun r m' =>
        match r with
        | .ok none => Co.wp Φ (attempt requestId (t.action cwd))
            (fun w _ m => P (.ok w) m) (fun e _ m => P (.error e) m) fresh m'
        | _ => J m') m) :
    Interaction.wp Φ (t.prog requestId) (fun r m => P r.1 m) m := by
  refine hΦ.wp_tool_of (V := fun _ => J) t requestId (fun _ => hΦ) hm ?_ ?_ hrelease hmain
  · exact fun m hm => hΦ.wp_looks (looks_validateFresh t) hm (fun _ _ hm => hm) fun _ _ hm => hm
  · rintro r m (hm | ⟨_, hm⟩) <;> exact hP r m hm

end Indifferent

end CodexRemoteBridge
