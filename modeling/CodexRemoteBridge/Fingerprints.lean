/-
  CodexRemoteBridge.Fingerprints — what a fingerprint identifies.

  The parameters of checked arguments hold no numbers and no key twice, so
  their text determines them up to `==`.  Across the six tools, and for
  any choice of optional arguments, equal fingerprints mean the same tool
  with the same arguments (`fingerprint_eq_iff`).
-/
import CodexRemoteBridge.Tools

namespace CodexRemoteBridge

open Interaction Json

/-! ## §1. The same request. -/

/-- The same tool with the same argument values; the sandbox policy is
compared as Python compares dicts. -/
def ToolCall.Same : ToolCall → ToolCall → Prop
  | .createThread a, .createThread b => a = b
  | .createWorktreeThread a, .createWorktreeThread b =>
      a.sourceRepository = b.sourceRepository ∧ a.startingRevision = b.startingRevision ∧
      a.destination = b.destination ∧ a.worktreeMode = b.worktreeMode ∧
      a.sandbox = b.sandbox ∧
      pyEq (.obj a.expectedSandboxPolicy) (.obj b.expectedSandboxPolicy) = true ∧
      a.prompt = b.prompt ∧ a.title = b.title ∧ a.model = b.model ∧
      a.reasoningEffort = b.reasoningEffort ∧ a.appServerProjectId = b.appServerProjectId
  | .sendMessageToThread a, .sendMessageToThread b => a = b
  | .forkThread a, .forkThread b => a = b
  | .setThreadTitle a, .setThreadTitle b => a = b
  | .setThreadArchived a, .setThreadArchived b => a = b
  | _, _ => False

/-! ## §2. Lookups in the parameters. -/

theorem heldEq_nullable (x y : Option String) :
    heldEq (nullable x) (nullable y) = true ↔ x = y := by
  cases x <;> cases y <;> simp [nullable, heldEq, pyEq, numberEq, number?]

theorem optionEq_str (x y : Option String) :
    optionEq (x.map Json.str) (y.map Json.str) = true ↔ x = y := by
  cases x <;> cases y <;> simp [optionEq, heldEq, pyEq]

theorem numberEq_bool (x y : Bool) : numberEq (.bool x) (.bool y) = true ↔ x = y := by
  cases x <;> cases y <;> decide

namespace CreateThread

theorem keys_nodup (a : CreateThread) (cwd : String) : (a.requestParamsAt cwd).keys.Nodup := by
  obtain ⟨_, _, _, _, model, project⟩ := a
  cases model <;> cases project <;>
    simp [requestParamsAt, launchParams, optionalField, Dict.keys]

theorem get?_requestParamsAt (a : CreateThread) (cwd : String) :
    (a.requestParamsAt cwd).get? "cwd" = some (.str cwd) ∧
    (a.requestParamsAt cwd).get? "sandbox" = some (.str a.sandbox) ∧
    (a.requestParamsAt cwd).get? "model" = a.model.map .str ∧
    (a.requestParamsAt cwd).get? "projectId" = a.appServerProjectId.map .str ∧
    (a.requestParamsAt cwd).get? "prompt" = some (nullable a.prompt) ∧
    (a.requestParamsAt cwd).get? "title" = some (nullable a.title) := by
  obtain ⟨_, _, _, _, model, project⟩ := a
  cases model <;> cases project <;>
    simp [requestParamsAt, launchParams, optionalField]

theorem plain_requestParamsAt (a : CreateThread) (cwd : String) :
    plain (.obj (a.requestParamsAt cwd)) = true := by
  simp only [plain, Bool.and_eq_true, decide_eq_true_eq]
  refine ⟨a.keys_nodup cwd, ?_⟩
  obtain ⟨_, prompt, title, _, model, project⟩ := a
  cases model <;> cases project <;> cases prompt <;> cases title <;>
    simp [requestParamsAt, launchParams, optionalField, nullable, plainFields, plain]

theorem params_inj {a b : CreateThread}
    (h : pyEq (.obj a.requestParams) (.obj b.requestParams) = true) : a = b := by
  have h := (pyEq_obj_iff (a.keys_nodup a.cwd) (b.keys_nodup b.cwd)).mp h
  obtain ⟨hac, has, ham, hap, haq, hat⟩ := a.get?_requestParamsAt a.cwd
  obtain ⟨hbc, hbs, hbm, hbp, hbq, hbt⟩ := b.get?_requestParamsAt b.cwd
  have hcwd := h "cwd"
  have hsandbox := h "sandbox"
  have hmodel := h "model"
  have hproject := h "projectId"
  have hprompt := h "prompt"
  have htitle := h "title"
  rw [hac, hbc] at hcwd
  rw [has, hbs] at hsandbox
  rw [ham, hbm, optionEq_str] at hmodel
  rw [hap, hbp, optionEq_str] at hproject
  rw [haq, hbq] at hprompt
  rw [hat, hbt] at htitle
  obtain ⟨_, _, _, _, _, _⟩ := a
  obtain ⟨_, _, _, _, _, _⟩ := b
  simp only [optionEq, heldEq, oneNaN_str, pyEq, Bool.false_or, beq_iff_eq] at hcwd hsandbox
  simp only [optionEq, heldEq_nullable] at hprompt htitle
  simp only [mk.injEq]
  exact ⟨hcwd, hprompt, htitle, hsandbox, hmodel, hproject⟩

end CreateThread

/-! ## §3. A checked policy is plain. -/

theorem eq_bool_of_isBool {v : Json} (h : isBool v = true) : ∃ b, v = .bool b := by
  cases v with
  | bool b => exact ⟨b, rfl⟩
  | _ => simp [isBool] at h

theorem plain_of_isBool {v : Json} (h : isBool v = true) : plain v = true := by
  cases v <;> simp_all [isBool, plain]

theorem plain_of_isAbsoluteText {v : Json} (h : isAbsoluteText v = true) : plain v = true := by
  cases v <;> simp_all [isAbsoluteText, plain]

/-- The protocol fields of a policy. -/
def policyKeys : List String :=
  ["type", "networkAccess", "writableRoots", "excludeTmpdirEnvVar", "excludeSlashTmp"]

theorem policyFields_lookup {kind : String} {fields : List String}
    (h : policyFields.lookup kind = some fields) : ∀ key ∈ fields, key ∈ policyKeys := by
  unfold policyFields at h
  simp only [List.lookup_cons, List.lookup_nil] at h
  repeat' split at h
  all_goals try cases h
  all_goals simp [policyKeys]

/-- **A policy that passes its check is plain**: texts, booleans and a list
of texts. -/
theorem plain_of_validateSandboxPolicy {policy : Dict} (hkeys : policy.keys.Nodup)
    (h : validateSandboxPolicy policy = .ok ()) : plain (.obj policy) = true := by
  unfold validateSandboxPolicy at h
  obtain ⟨fields, hfields, h⟩ := bind_eq_ok.mp h
  split at h
  · cases h
  rename_i hsame
  split at h
  · cases h
  rename_i hflags
  -- the type names one of the three kinds
  obtain ⟨names, rfl⟩ : ∃ names, fields = some names := by
    cases fields with
    | none => simp at hsame
    | some names => exact ⟨names, rfl⟩
  obtain ⟨kind, hkind, hnames⟩ : ∃ kind, policy.get? "type" = some (.str kind) ∧
      policyFields.lookup kind = some names := by
    unfold policyFieldsOf at hfields
    split at hfields
    · cases hfields
    · cases hfields
    · rename_i kind hkind
      exact ⟨kind, hkind, Except.ok.inj hfields⟩
    · cases hfields
  have hmember : ∀ key ∈ policy.keys, key ∈ policyKeys := by
    intro key hkey
    simp only [Option.all_some, Bool.not_eq_true', Bool.not_eq_false, sameKeys,
      Bool.and_eq_true, List.all_eq_true] at hsame
    exact policyFields_lookup hnames key (by simpa using hsame.1 key hkey)
  have hflag : ∀ key ∈ ["networkAccess", "excludeTmpdirEnvVar", "excludeSlashTmp"],
      ∀ v, policy.get? key = some v → plain v = true := by
    intro key hkey v hv
    simp only [Bool.not_eq_true', Bool.not_eq_false, List.all_eq_true] at hflags
    have hb := hflags key hkey
    rw [hv] at hb
    exact plain_of_isBool (by simpa using hb)
  have hroots : ∀ v, policy.get? "writableRoots" = some v → plain v = true := by
    intro v hv
    rw [hv] at h
    cases v with
    | arr items =>
        have hall : items.all isAbsoluteText = true := by
          by_contra hne
          simp [hne] at h
        rw [plain, plainItems_iff]
        exact fun item hitem =>
          plain_of_isAbsoluteText (List.all_eq_true.mp hall item hitem)
    | _ => simp at h
  simp only [plain, Bool.and_eq_true, decide_eq_true_eq]
  refine ⟨hkeys, (plainFields_iff policy).mpr ?_⟩
  rintro ⟨key, v⟩ hkv
  have hget := (get?_eq_some_iff hkeys).mpr hkv
  have hkey := hmember key (List.mem_map_of_mem (f := (·.1)) hkv)
  simp only [policyKeys, List.mem_cons, List.not_mem_nil, or_false] at hkey
  rcases hkey with rfl | rfl | rfl | rfl | rfl
  · rw [hkind] at hget
    cases hget
    rfl
  · exact hflag _ (by simp) v hget
  · exact hroots v hget
  · exact hflag _ (by simp) v hget
  · exact hflag _ (by simp) v hget

/-! ## §4. The parameters of a checked call. -/

theorem CreateWorktreeThread.policy_ok {a : CreateWorktreeThread} (h : a.check = .ok ()) :
    plain (.obj a.expectedSandboxPolicy) = true := by
  unfold check at h
  split at h
  · cases h
  · obtain ⟨_, hpolicy, -⟩ := bind_eq_ok.mp h
    exact plain_of_validateSandboxPolicy a.policyKeys hpolicy

theorem SetThreadArchived.flags_ok {a : SetThreadArchived} (h : a.check = .ok ()) :
    ∃ archived descendants, a.archived = .bool archived ∧
      a.archiveSpawnedDescendants = .bool descendants := by
  unfold check at h
  obtain ⟨_, -, h⟩ := bind_eq_ok.mp h
  split at h
  · cases h
  · rename_i hflags
    simp only [Bool.or_eq_true, Bool.not_eq_true', not_or, Bool.not_eq_false] at hflags
    obtain ⟨x, hx⟩ := eq_bool_of_isBool hflags.1
    obtain ⟨y, hy⟩ := eq_bool_of_isBool hflags.2
    exact ⟨x, y, hx, hy⟩

theorem ToolCall.plain_params {t : ToolCall} (h : t.check = .ok ()) :
    plain (.obj t.params) = true := by
  cases t with
  | createThread a => exact a.plain_requestParamsAt a.cwd
  | createWorktreeThread a =>
      have hpolicy := CreateWorktreeThread.policy_ok h
      have hnullable : ∀ o, plain (nullable o) = true := fun o => by cases o <;> rfl
      rw [ToolCall.params, CreateWorktreeThread.params, plain, Bool.and_eq_true]
      refine ⟨by simp [Dict.keys], ?_⟩
      rw [plain] at hpolicy
      simp only [plainFields, hpolicy, hnullable, plain, Bool.and_self]
  | sendMessageToThread a => rfl
  | forkThread a => rfl
  | setThreadTitle a => rfl
  | setThreadArchived a =>
      obtain ⟨x, y, hx, hy⟩ := SetThreadArchived.flags_ok h
      simp [ToolCall.params, SetThreadArchived.params, plain, plainFields, Dict.keys, hx, hy]

theorem pyEq_self {v : Json} (h : plain v = true) : pyEq v v = true :=
  (dumps_eq_iff_pyEq v v h h).mp rfl

theorem CreateWorktreeThread.same_iff (a b : CreateWorktreeThread) :
    (ToolCall.createWorktreeThread a).Same (.createWorktreeThread b) ↔
      pyEq (.obj a.params) (.obj b.params) = true := by
  have hnullable : ∀ x y : Option String,
      oneNaN (nullable x) (nullable y) = true ∨ pyEq (nullable x) (nullable y) = true ↔ x = y := by
    intro x y
    rw [← heldEq_nullable, heldEq, Bool.or_eq_true]
  simp [ToolCall.Same, params, pyEq, pyEqFields, hnullable]

/-- **The parameters determine the arguments**, and the method the tool. -/
theorem ToolCall.same_iff {t t' : ToolCall} (ht : t.check = .ok ()) (ht' : t'.check = .ok ()) :
    t.Same t' ↔ t.method = t'.method ∧ pyEq (.obj t.params) (.obj t'.params) = true := by
  cases t with
  | createThread a =>
      cases t' with
      | createThread b =>
          refine ⟨fun h => ⟨rfl, ?_⟩, fun h => CreateThread.params_inj h.2⟩
          obtain rfl : a = b := h
          exact pyEq_self (plain_params ht)
      | _ => simp [Same, method]
  | createWorktreeThread a =>
      cases t' with
      | createWorktreeThread b =>
          rw [CreateWorktreeThread.same_iff]
          exact ⟨fun h => ⟨rfl, h⟩, fun h => h.2⟩
      | _ => simp [Same, method]
  | sendMessageToThread a =>
      cases t' with
      | sendMessageToThread b =>
          obtain ⟨_, _⟩ := a
          obtain ⟨_, _⟩ := b
          simp [Same, method, params, SendMessage.params, pyEq, pyEqFields]
      | _ => simp [Same, method]
  | forkThread a =>
      cases t' with
      | forkThread b =>
          obtain ⟨_⟩ := a
          obtain ⟨_⟩ := b
          simp [Same, method, params, ForkThread.params, pyEq, pyEqFields]
      | _ => simp [Same, method]
  | setThreadTitle a =>
      cases t' with
      | setThreadTitle b =>
          obtain ⟨_, _⟩ := a
          obtain ⟨_, _⟩ := b
          simp [Same, method, params, SetThreadTitle.params, pyEq, pyEqFields]
      | _ => simp [Same, method]
  | setThreadArchived a =>
      cases t' with
      | setThreadArchived b =>
          obtain ⟨x, y, hx, hy⟩ := SetThreadArchived.flags_ok ht
          obtain ⟨x', y', hx', hy'⟩ := SetThreadArchived.flags_ok ht'
          obtain ⟨_, _, _⟩ := a
          obtain ⟨_, _, _⟩ := b
          subst hx hy hx' hy'
          simp [Same, method, params, SetThreadArchived.params, pyEq, pyEqFields, numberEq_bool]
      | _ => simp [Same, method]

/-! ## §5. Fingerprints. -/

theorem plain_request {method : String} {params : Dict} (h : plain (.obj params) = true) :
    plain (.arr [.str method, .obj params]) = true := by
  show (true && (plain (.obj params) && true)) = true
  rw [h]
  rfl

variable [Hashlib]

/-- Without collisions, the text hashed is what a digest identifies. -/
theorem fingerprintText_inj (hsha : Function.Injective Hashlib.sha256)
    {method method' : String} {params params' : Dict}
    (hp : plain (.obj params) = true) (hp' : plain (.obj params') = true) :
    Hashlib.sha256 (fingerprintText method params) = Hashlib.sha256 (fingerprintText method' params')
      ↔ method = method' ∧ pyEq (.obj params) (.obj params') = true := by
  rw [hsha.eq_iff]
  unfold fingerprintText
  rw [String.ofList_inj, dumps_eq_iff_pyEq _ _ (plain_request hp) (plain_request hp')]
  simp [pyEq, pyEqItems]

/-- **Equal fingerprints mean the same tool with the same arguments**, and
the other way round. -/
theorem fingerprint_eq_iff (hsha : Function.Injective Hashlib.sha256) {t t' : ToolCall}
    (ht : t.check = .ok ()) (ht' : t'.check = .ok ()) {requestId fp fp' : String}
    (h : fingerprint requestId t.method t.params = .ok fp)
    (h' : fingerprint requestId t'.method t'.params = .ok fp') :
    fp = fp' ↔ t.Same t' := by
  unfold fingerprint at h h'
  split at h
  · cases h
  rename_i hid
  rw [if_neg hid] at h'
  cases h
  cases h'
  rw [fingerprintText_inj hsha (ToolCall.plain_params ht) (ToolCall.plain_params ht'),
    ToolCall.same_iff ht ht']

end CodexRemoteBridge
