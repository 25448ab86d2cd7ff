/-
  CodexRemoteBridge.Replay — what a call with a known `request_id` returns.

  The table of a reachable system holds rows the tools inserted and rows of
  an older ledger.  A call whose `request_id` has a row asks the table
  once, and for an older receipt of `create_thread` resolves its directory;
  it returns the retained receipt exactly when the arguments are the ones
  the row was begun with.
-/
import CodexRemoteBridge.System
import CodexRemoteBridge.Fingerprints

namespace CodexRemoteBridge

open Interaction

/-! ## §1. One call against one table. -/

/-- The world a replay meets: the mutation lock, the table, and symbolic
links as they are now. -/
structure Answers (store : Store) (resolves : PyPath → Except Fault PyPath)
    (env : (op : Op) → Ans op) : Prop where
  acquire : env .acquire = .ok ()
  select : ∀ requestId, env (.select requestId) = .ok ((store.find? requestId).map Row.stored)
  resolve : ∀ path, env (.resolve path) = resolves path

/-- The operations of a replay. -/
def ReplayOp (requestId : String) (op : Op) : Prop :=
  op = .acquire ∨ op = .select requestId ∨ (∃ path, op = .resolve path) ∨ op = .release

section Call

theorem wp_answered {α : Type} (env : (op : Op) → Ans op) (op : Op)
    (view : Ans op → Except PyExc α) (Q : α → Dict → History → Prop)
    (X : PyExc → Dict → History → Prop) (s : Dict) (h : History) :
    Co.wp (answering env) (Act.perform op view) Q X s h
      = match view (env op) with
        | .ok a => Q a s (h ++ [⟨op, env op⟩])
        | .error e => X e s (h ++ [⟨op, env op⟩]) := by
  rw [Act.wp_perform]
  rfl

variable [Hashlib]

/-- What `matchRow` makes of a row, once links are resolved by `resolves`. -/
def matchOutcome (requestId fp : String) (row : Row) (t : ToolCall)
    (resolves : PyPath → Except Fault PyPath) : Except PyExc Dict :=
  if row.fingerprint = fp then .ok row.receipt
  else
    match Ledger.isVersionOne row.receipt, t with
    | true, .createThread a => do
        let path ← lift (resolves (PyPath.ofString a.cwd))
        let fp' ← fingerprint requestId "create_thread" (a.requestParamsAt path.str)
        if row.fingerprint = fp' then .ok row.receipt else .error Ledger.conflict
    | _, _ => .error Ledger.conflict

variable {store : Store} {resolves : PyPath → Except Fault PyPath} {env : (op : Op) → Ans op}

theorem wp_matchRow (henv : Answers store resolves env) (requestId fp : String) (row : Row)
    (t : ToolCall) {Q : Dict → Dict → History → Prop} {X : PyExc → Dict → History → Prop}
    (s : Dict) (h : History)
    (hQ : ∀ tr, (∀ e ∈ tr, ReplayOp requestId e.1) →
      (Ledger.isVersionOne row.receipt = false → tr = []) →
      match matchOutcome requestId fp row t resolves with
      | .ok receipt => Q receipt s (h ++ tr)
      | .error e => X e s (h ++ tr)) :
    Co.wp (answering env) (Ledger.matchRow requestId t.method fp t.legacyParams row.stored)
      Q X s h := by
  unfold Ledger.matchRow Row.stored matchOutcome at *
  dsimp only at *
  by_cases hfp : row.fingerprint = fp
  · rw [if_pos hfp] at hQ ⊢
    simpa using hQ [] (by simp) fun _ => rfl
  · rw [if_neg hfp] at hQ ⊢
    cases hv : Ledger.isVersionOne row.receipt with
    | false =>
        simp only [hv] at hQ
        simpa using hQ [] (by simp) fun _ => rfl
    | true =>
        cases t with
        | createThread a =>
            simp only [hv, ToolCall.legacyParams] at hQ ⊢
            have hQ := hQ [⟨.resolve (PyPath.ofString a.cwd), env (.resolve (PyPath.ofString a.cwd))⟩]
              (by simp [ReplayOp]) (by simp)
            unfold CreateThread.legacyParams Act.resolve
            rw [Co.wp_bind, Co.wp_bind, wp_answered]
            rw [henv.resolve] at hQ ⊢
            cases hr : lift (resolves (PyPath.ofString a.cwd)) with
            | error e =>
                rw [hr] at hQ
                exact hQ
            | ok path =>
                rw [hr] at hQ
                dsimp only [bind, Except.bind] at hQ
                dsimp only
                rw [Co.wp_pure, Co.wp_bind, Co.wp_ofExcept,
                  show (ToolCall.createThread a).method = "create_thread" from rfl]
                cases hfp' : fingerprint requestId "create_thread" (a.requestParamsAt path.str) with
                | error e =>
                    rw [hfp'] at hQ
                    exact hQ
                | ok fp' =>
                    rw [hfp'] at hQ
                    dsimp only at hQ ⊢
                    split
                    · rename_i heq
                      rw [if_pos heq] at hQ
                      exact hQ
                    · rename_i hne
                      rw [if_neg hne] at hQ
                      exact hQ
        | _ =>
            simp only [hv] at hQ
            show Co.wp _ (Act.raise Ledger.conflict) Q X s h
            simpa using hQ [] (by simp) fun _ => rfl

/-- **One replay**: the table is asked once, an older `create_thread`
receipt may cost one look at the filesystem, and nothing else happens. -/
theorem eval_replay (henv : Answers store resolves env) {requestId fp : String} {row : Row}
    {t : ToolCall} (ht : t.check = .ok ())
    (hfp : fingerprint requestId t.method t.params = .ok fp)
    (hrow : store.find? requestId = some row) :
    ∃ tr : History, (∀ e ∈ tr, ReplayOp requestId e.1) ∧
      (Ledger.isVersionOne row.receipt = false → tr = []) ∧
      (t.prog requestId).eval env
        = (⟨.acquire, .ok ()⟩ :: ⟨.select requestId, .ok (some row.stored)⟩ ::
            (tr ++ [⟨.release, ()⟩]),
           (matchOutcome requestId fp row t resolves).map replayed, []) := by
  have hselect : env (.select requestId) = .ok (some row.stored) := by
    rw [henv.select, hrow]
    rfl
  suffices h : Interaction.wp (answering env) (t.prog requestId) (fun out h =>
      ∃ tr : History, (∀ e ∈ tr, ReplayOp requestId e.1) ∧
        (Ledger.isVersionOne row.receipt = false → tr = []) ∧
        h = ⟨.acquire, .ok ()⟩ :: ⟨.select requestId, .ok (some row.stored)⟩ ::
          (tr ++ [⟨.release, ()⟩]) ∧
        out = ((matchOutcome requestId fp row t resolves).map replayed, [])) [] by
    obtain ⟨tr, hops, hv, hh, hout⟩ := (wp_answering env _ _ []).mp h
    exact ⟨tr, hops, hv, Prod.ext (by simpa using hh) hout⟩
  -- under the lock: the row is found and compared
  have hlocked : Co.wp (answering env)
      (mutateLocked requestId t.method t.params t.legacyParams t.validateFresh t.action)
      (fun receipt s h => ∃ tr : History, (∀ e ∈ tr, ReplayOp requestId e.1) ∧
        (Ledger.isVersionOne row.receipt = false → tr = []) ∧
        h = ⟨.acquire, .ok ()⟩ :: ⟨.select requestId, .ok (some row.stored)⟩ :: tr ∧
        (matchOutcome requestId fp row t resolves).map replayed = .ok receipt ∧ s = [])
      (fun e s h => ∃ tr : History, (∀ e ∈ tr, ReplayOp requestId e.1) ∧
        (Ledger.isVersionOne row.receipt = false → tr = []) ∧
        h = ⟨.acquire, .ok ()⟩ :: ⟨.select requestId, .ok (some row.stored)⟩ :: tr ∧
        (matchOutcome requestId fp row t resolves).map replayed = .error e ∧ s = [])
      [] [⟨.acquire, .ok ()⟩] := by
    unfold mutateLocked Ledger.lookup
    rw [Co.wp_bind, Co.wp_bind, Co.wp_ofExcept, hfp]
    dsimp only
    rw [Co.wp_bind, wp_answered, hselect]
    dsimp only [lift]
    rw [Co.wp_bind]
    refine wp_matchRow henv requestId fp row t [] _ fun tr hops hv => ?_
    cases hout : matchOutcome requestId fp row t resolves with
    | ok receipt => exact ⟨tr, hops, hv, by simp, rfl, rfl⟩
    | error e => exact ⟨tr, hops, hv, by simp, rfl, rfl⟩
  have hmono : OpSpec.Mono (answering env) := fun i _ _ hQ h hq => hQ _ _ hq
  suffices hrun : Co.wp (answering env) (t.run requestId)
      (fun receipt s h => ∃ tr : History, (∀ e ∈ tr, ReplayOp requestId e.1) ∧
        (Ledger.isVersionOne row.receipt = false → tr = []) ∧
        h = ⟨.acquire, .ok ()⟩ :: ⟨.select requestId, .ok (some row.stored)⟩ ::
          (tr ++ [⟨.release, ()⟩]) ∧
        (matchOutcome requestId fp row t resolves).map replayed = .ok receipt ∧ s = [])
      (fun e s h => ∃ tr : History, (∀ e ∈ tr, ReplayOp requestId e.1) ∧
        (Ledger.isVersionOne row.receipt = false → tr = []) ∧
        h = ⟨.acquire, .ok ()⟩ :: ⟨.select requestId, .ok (some row.stored)⟩ ::
          (tr ++ [⟨.release, ()⟩]) ∧
        (matchOutcome requestId fp row t resolves).map replayed = .error e ∧ s = []) [] [] by
    refine Interaction.wp_mono hmono _ ?_ [] hrun
    rintro ⟨out | out, s⟩ h ⟨tr, hops, hv, hh, hout, rfl⟩ <;>
      exact ⟨tr, hops, hv, hh, by rw [hout]⟩
  unfold ToolCall.run mutate
  rw [Co.wp_bind, Co.wp_ofExcept, ht]
  dsimp only
  rw [Co.wp_bind, wp_answered, henv.acquire]
  dsimp only [lift]
  rw [Co.wp_tryFinally]
  refine Co.wp_conseq hmono hlocked ?_ ?_
  · rintro receipt s h ⟨tr, hops, hv, rfl, hout, rfl⟩
    exact ⟨tr, hops, hv, by simp, hout, rfl⟩
  · rintro e s h ⟨tr, hops, hv, rfl, hout, rfl⟩
    exact ⟨tr, hops, hv, by simp, hout, rfl⟩

/-- The row is an older `create_thread` receipt, and its fingerprint that of
the arguments with the directory as it resolves now. -/
def LegacyMatch (requestId : String) (row : Row) (t : ToolCall)
    (resolves : PyPath → Except Fault PyPath) : Prop :=
  ∃ a path, t = .createThread a ∧ Ledger.isVersionOne row.receipt = true ∧
    resolves (PyPath.ofString a.cwd) = .ok path ∧
    fingerprint requestId "create_thread" (a.requestParamsAt path.str) = .ok row.fingerprint

/-- The exceptions of a refused replay. -/
def Refusal (row : Row) (t : ToolCall) (resolves : PyPath → Except Fault PyPath)
    (e : PyExc) : Prop :=
  e.isValueError = true ∨ ∃ a f, t = .createThread a ∧
    Ledger.isVersionOne row.receipt = true ∧
    resolves (PyPath.ofString a.cwd) = .error f ∧ e = f.raised

theorem fingerprint_error {requestId method : String} {params : Dict} {e : PyExc}
    (h : fingerprint requestId method params = .error e) : e.isValueError = true := by
  unfold fingerprint at h
  split at h
  · cases h
    rfl
  · cases h

/-- A retained receipt is returned exactly for the fingerprint of the row,
or for its older form. -/
theorem matchOutcome_cases (requestId fp : String) (row : Row) (t : ToolCall)
    (resolves : PyPath → Except Fault PyPath) :
    ((row.fingerprint = fp ∨ LegacyMatch requestId row t resolves) ∧
      matchOutcome requestId fp row t resolves = .ok row.receipt) ∨
    (¬ (row.fingerprint = fp ∨ LegacyMatch requestId row t resolves) ∧
      ∃ e, matchOutcome requestId fp row t resolves = .error e ∧ Refusal row t resolves e) := by
  unfold matchOutcome
  by_cases hfp : row.fingerprint = fp
  · exact .inl ⟨.inl hfp, if_pos hfp⟩
  rw [if_neg hfp]
  cases hv : Ledger.isVersionOne row.receipt with
  | false =>
      refine .inr ⟨?_, Ledger.conflict, rfl, .inl rfl⟩
      rintro (h | ⟨_, _, -, h, -⟩)
      · exact hfp h
      · rw [hv] at h
        cases h
  | true =>
      cases t with
      | createThread a =>
          cases hr : resolves (PyPath.ofString a.cwd) with
          | error f =>
              refine .inr ⟨?_, f.raised, by simp [hr, lift, bind, Except.bind],
                .inr ⟨a, f, rfl, hv, hr, rfl⟩⟩
              rintro (h | ⟨_, _, ha, -, h, -⟩)
              · exact hfp h
              · cases ha
                rw [hr] at h
                cases h
          | ok path =>
              have hlegacy : LegacyMatch requestId row (.createThread a) resolves ↔
                  fingerprint requestId "create_thread" (a.requestParamsAt path.str)
                    = .ok row.fingerprint := by
                constructor
                · rintro ⟨_, _, ha, -, h, hfp'⟩
                  cases ha
                  rw [hr] at h
                  cases h
                  exact hfp'
                · exact fun h => ⟨a, path, rfl, hv, hr, h⟩
              rw [hlegacy]
              simp only [hfp, false_or, hr, lift, bind, Except.bind]
              cases hfp' : fingerprint requestId "create_thread" (a.requestParamsAt path.str) with
              | error e =>
                  exact .inr ⟨by simp, e, rfl, .inl (fingerprint_error hfp')⟩
              | ok fp' =>
                  by_cases heq : row.fingerprint = fp'
                  · exact .inl ⟨by rw [heq], if_pos heq⟩
                  · refine .inr ⟨fun h => heq (Except.ok.inj h).symm, Ledger.conflict, if_neg heq, ?_⟩
                    exact .inl rfl
      | _ =>
          refine .inr ⟨?_, Ledger.conflict, rfl, .inl rfl⟩
          rintro (h | ⟨_, _, ha, -⟩)
          · exact hfp h
          · cases ha

end Call

/-! ## §2. The rows of a reachable system. -/

section Rows

variable [Hashlib] [Endpoint]

/-- A ledger file that an older bridge has left: its receipts carry no
version, and each fingerprint is that of a checked call.  (For
`create_thread` the call is recorded with its directory resolved.) -/
def LegacyLedger (store : Store) : Prop :=
  ∀ row ∈ store.rows, Ledger.isVersionOne row.receipt = true ∧
    ∃ t : ToolCall, t.check = .ok () ∧
      fingerprint row.requestId t.method t.params = .ok row.fingerprint

/-- The row was begun by `t`: by a call of the execution, or as an older
bridge recorded it. -/
def System.BegunBy (store₀ : Store) (S : System) (row : Row) (t : ToolCall) : Prop :=
  (∃ c ∈ S.clients, c.requestId = row.requestId ∧ c.fresh.isSome = true ∧ c.tool = t) ∨
  (row ∈ store₀.rows ∧ t.check = .ok () ∧
    fingerprint row.requestId t.method t.params = .ok row.fingerprint)

/-- A call whose arguments do not pass inserts nothing. -/
theorem Client.check_ok {c : Client} (h : Run (c.tool.wire c.requestId) c.history c.rest)
    (hf : c.fresh.isSome = true) : c.tool.check = .ok () := by
  cases hcheck : c.tool.check with
  | ok u => rfl
  | error e =>
      have hret : c.tool.wire c.requestId = .ret (.error e, []) := by
        unfold ToolCall.wire ToolCall.prog ToolCall.run
        rw [hcheck]
        rfl
      rw [hret] at h
      rw [Client.fresh, h.ret_inv.1] at hf
      cases hf

variable {store₀ : Store} {S : System}

/-- Whoever began a row passed the checks, and the row has the fingerprint
of that call. -/
theorem Owned.begunBy_fingerprint (h : Owned store₀ S) {row : Row} {t : ToolCall}
    (hrow : row ∈ S.store.rows) (hbegun : S.BegunBy store₀ row t) :
    t.check = .ok () ∧ fingerprint row.requestId t.method t.params = .ok row.fingerprint := by
  rcases hbegun with ⟨c, hc, hid, hf, rfl⟩ | ⟨-, hcheck, hfp⟩
  · obtain ⟨row', hrow', -, hfp⟩ := (h.holds c hc hf).row
    rw [hid, Store.find?_of_mem hrow] at hrow'
    cases hrow'
    rw [hid] at hfp
    exact ⟨Client.check_ok (h.runs c hc) hf, hfp⟩
  · exact ⟨hcheck, hfp⟩

/-- Every row was begun by some call. -/
theorem Owned.exists_begunBy (h : Owned store₀ S) (hlegacy : LegacyLedger store₀) {row : Row}
    (hrow : row ∈ S.store.rows) : ∃ t, S.BegunBy store₀ row t := by
  rcases h.origin row hrow with h0 | ⟨c, hc, hid, hf⟩
  · obtain ⟨-, t, hcheck, hfp⟩ := hlegacy row h0
    exact ⟨t, .inr ⟨h0, hcheck, hfp⟩⟩
  · exact ⟨c.tool, .inl ⟨c, hc, hid, hf, rfl⟩⟩

/-- **Replay exactness.**  With a row in the table, a checked call returns
the retained receipt exactly when the row was begun by the same tool with
the same arguments, or matches in its older form; otherwise it refuses.
Either way it only asks the table and, for an older row, resolves a path;
for a row of version 2 the answer depends on the table alone. -/
theorem System.replay_exact (hsha : Function.Injective Hashlib.sha256)
    (hlegacy : LegacyLedger store₀) (hS : System.Reach (System.init store₀) S)
    {requestId : String} {row : Row} (hrow : S.store.find? requestId = some row)
    {t : ToolCall} (ht : t.check = .ok ()) {resolves : PyPath → Except Fault PyPath}
    {env : (op : Op) → Ans op} (henv : Answers S.store resolves env) :
    let out := (t.prog requestId).eval env
    let retained := (∃ t₀, S.BegunBy store₀ row t₀ ∧ t₀.Same t) ∨
      LegacyMatch requestId row t resolves
    (out.2.1 = .ok (row.receipt.update [("replayed", .bool true)]) ↔ retained) ∧
    (¬ retained → ∃ e, out.2.1 = .error e ∧ Refusal row t resolves e) ∧
    (∀ e ∈ out.1, ReplayOp requestId e.1) ∧
    (Ledger.isVersionOne row.receipt = false → ∀ resolves' env',
      Answers S.store resolves' env' → (t.prog requestId).eval env' = out) := by
  have h := Owned.of_reach hS
  obtain ⟨hmem, rfl⟩ := Store.mem_of_find? hrow
  obtain ⟨t₀, hbegun⟩ := h.exists_begunBy hlegacy hmem
  obtain ⟨ht₀, hfp₀⟩ := h.begunBy_fingerprint hmem hbegun
  obtain ⟨fp, hfp⟩ : ∃ fp, fingerprint row.requestId t.method t.params = .ok fp := by
    unfold fingerprint at hfp₀ ⊢
    split at hfp₀
    · cases hfp₀
    · rename_i hid
      exact ⟨_, if_neg hid⟩
  have hsame : (∃ t₀, S.BegunBy store₀ row t₀ ∧ t₀.Same t) ↔ row.fingerprint = fp := by
    constructor
    · rintro ⟨t₁, hbegun₁, hsame⟩
      obtain ⟨ht₁, hfp₁⟩ := h.begunBy_fingerprint hmem hbegun₁
      exact (fingerprint_eq_iff hsha ht₁ ht hfp₁ hfp).mpr hsame
    · exact fun heq => ⟨t₀, hbegun, (fingerprint_eq_iff hsha ht₀ ht hfp₀ hfp).mp heq⟩
  obtain ⟨tr, hops, hv, heval⟩ := eval_replay henv ht hfp hrow
  intro out retained
  have hretained : retained ↔ row.fingerprint = fp ∨ LegacyMatch row.requestId row t resolves := by
    show (_ ∨ _) ↔ _
    rw [hsame]
  refine ⟨?_, ?_, ?_, ?_⟩
  · rw [hretained, show out.2.1 = (matchOutcome row.requestId fp row t resolves).map replayed from
      congrArg (fun x => x.2.1) heval]
    rcases matchOutcome_cases row.requestId fp row t resolves with ⟨hmatch, ho⟩ | ⟨hno, e, ho, -⟩
    · rw [ho]
      exact ⟨fun _ => hmatch, fun _ => rfl⟩
    · rw [ho]
      exact ⟨fun he => (by cases he), fun hmatch => absurd hmatch hno⟩
  · rw [hretained, show out.2.1 = (matchOutcome row.requestId fp row t resolves).map replayed from
      congrArg (fun x => x.2.1) heval]
    intro hno
    rcases matchOutcome_cases row.requestId fp row t resolves with ⟨hmatch, -⟩ | ⟨-, e, ho, hr⟩
    · exact absurd hmatch hno
    · exact ⟨e, by rw [ho]; rfl, hr⟩
  · rw [show out.1 = _ from congrArg Prod.fst heval]
    intro e he
    simp only [List.mem_cons, List.mem_append, List.not_mem_nil, or_false] at he
    rcases he with rfl | rfl | he | rfl
    · exact .inl rfl
    · exact .inr (.inl rfl)
    · exact hops e he
    · exact .inr (.inr (.inr rfl))
  · intro hv2 resolves' env' henv'
    obtain ⟨tr', -, hv', heval'⟩ := eval_replay henv' ht hfp hrow
    rw [heval', hv' hv2, show out = _ from heval, hv hv2]
    unfold matchOutcome
    rw [hv2]

end Rows

/-! ## §3. An older receipt, and links that changed. -/

/-- A world with this table and these links, in which nothing else works. -/
def replayEnv (store : Store) (resolves : PyPath → Except Fault PyPath) :
    (op : Op) → Ans op
  | .acquire => .ok ()
  | .release => ()
  | .isDir _ => .error .cancelled
  | .isFile _ => .error .cancelled
  | .pathExists _ => .error .cancelled
  | .isSymlink _ => .error .cancelled
  | .resolve path => resolves path
  | .resolveThread _ => .error .cancelled
  | .mkdir _ => .error .cancelled
  | .now => "0.0"
  | .select requestId => .ok ((store.find? requestId).map Row.stored)
  | .beginRow _ _ _ => .error .cancelled
  | .update _ _ => .error .cancelled
  | .git _ _ => .error .cancelled
  | .call _ _ => .error .cancelledError
  | .close => .error .cancelledError
  | .enter _ => ()

theorem answers_replayEnv (store : Store) (resolves : PyPath → Except Fault PyPath) :
    Answers store resolves (replayEnv store resolves) :=
  ⟨rfl, fun _ => rfl, fun _ => rfl⟩

/-- A bare `create_thread` in a directory. -/
def createAt (cwd : String) : CreateThread where
  cwd := cwd
  prompt := none
  title := none
  sandbox := "read-only"
  model := none
  appServerProjectId := none

/-- The row an older bridge left for a thread created in `/real`. -/
def legacyRow : Row where
  requestId := "r"
  fingerprint := fingerprintText "create_thread" (createAt "/real").requestParams
  receipt := [("requestId", .str "r"), ("threadId", .str "t")]

def legacyStore : Store := ⟨[legacyRow], List.nodup_singleton _⟩

/-- `/link` is a symbolic link to `/real`; anything else loops. -/
def links (path : PyPath) : Except Fault PyPath :=
  if path = PyPath.ofString "/link" then .ok (PyPath.ofString "/real")
  else .error (.exception "RuntimeError" "Symlink loop")

theorem legacyLedger_legacyStore :
    let _ := Hashlib.verbatim
    LegacyLedger legacyStore := by
  intro _ row hrow
  obtain rfl := List.mem_singleton.mp hrow
  exact ⟨rfl, .createThread (createAt "/real"), rfl, rfl⟩

/-- The old receipt is replayed through the link. -/
theorem System.replay_exact_link :
    let _ := Hashlib.verbatim
    let _ := Endpoint.sample
    ((ToolCall.createThread (createAt "/link")).prog "r").eval (replayEnv legacyStore links)
      |>.2.1 = .ok (legacyRow.receipt.update [("replayed", .bool true)]) := by
  intro _ _
  refine (System.replay_exact (fun _ _ h => h) legacyLedger_legacyStore .init
    (rfl : legacyStore.find? "r" = some legacyRow) rfl
    (answers_replayEnv legacyStore links)).1.mpr ?_
  exact .inr ⟨createAt "/link", PyPath.ofString "/real", rfl, rfl, rfl, rfl⟩

/-- **Not every refusal is a `ValueError`**: where the directory of an older
request has become a symbolic link loop, the look-up raises. -/
theorem System.replay_raises_loop :
    let _ := Hashlib.verbatim
    let _ := Endpoint.sample
    ¬ ∀ (store₀ : Store) (S : System) (requestId : String) (row : Row) (t : ToolCall)
        (resolves : PyPath → Except Fault PyPath) (env : (op : Op) → Ans op),
      Function.Injective Hashlib.sha256 → LegacyLedger store₀ →
      System.Reach (System.init store₀) S → S.store.find? requestId = some row →
      t.check = .ok () → Answers S.store resolves env →
      ¬ ((∃ t₀, S.BegunBy store₀ row t₀ ∧ t₀.Same t) ∨ LegacyMatch requestId row t resolves) →
      ∃ e, ((t.prog requestId).eval env).2.1 = .error e ∧ e.isValueError = true := by
  intro _ _ h
  have hne : legacyRow.fingerprint
      ≠ fingerprintText "create_thread" (createAt "/loop").requestParams := by
    intro heq
    have hparams := (fingerprintText_inj (fun _ _ h => h)
      ((createAt "/real").plain_requestParamsAt "/real")
      ((createAt "/loop").plain_requestParamsAt "/loop")).mp heq
    exact absurd (congrArg CreateThread.cwd (CreateThread.params_inj hparams.2)) (by decide)
  have hloop : links (PyPath.ofString "/loop")
      = .error (.exception "RuntimeError" "Symlink loop") := rfl
  have ht : (ToolCall.createThread (createAt "/loop")).check = .ok () := rfl
  have hfp : fingerprint "r" "create_thread" (createAt "/loop").requestParams
      = .ok (fingerprintText "create_thread" (createAt "/loop").requestParams) := rfl
  have hno : ¬ ((∃ t₀, (System.init legacyStore).BegunBy legacyStore legacyRow t₀ ∧
        t₀.Same (.createThread (createAt "/loop"))) ∨
      LegacyMatch "r" legacyRow (.createThread (createAt "/loop")) links) := by
    rintro (⟨t₀, ⟨c, hc, -⟩ | ⟨-, ht₀, hfp₀⟩, hsame⟩ | ⟨a, path, ha, -, hr, -⟩)
    · cases hc
    · exact hne ((fingerprint_eq_iff (fun _ _ h => h) ht₀ ht hfp₀ hfp).mpr hsame)
    · cases ha
      rw [show (createAt "/loop").cwd = "/loop" from rfl, hloop] at hr
      cases hr
  obtain ⟨e, he, hv⟩ := h legacyStore (System.init legacyStore) "r" legacyRow
    (.createThread (createAt "/loop")) links (replayEnv legacyStore links) (fun _ _ h => h)
    legacyLedger_legacyStore .init rfl ht (answers_replayEnv legacyStore links) hno
  obtain ⟨tr, -, -, heval⟩ := eval_replay (answers_replayEnv legacyStore links)
    ht hfp
    (rfl : legacyStore.find? "r" = some legacyRow)
  rw [heval] at he
  have hout : matchOutcome "r"
      (fingerprintText "create_thread" (createAt "/loop").requestParams) legacyRow
      (.createThread (createAt "/loop")) links
      = .error (.exception "RuntimeError" "Symlink loop") := by
    unfold matchOutcome
    rw [if_neg hne]
    rfl
  rw [hout] at he
  cases he
  cases hv

end CodexRemoteBridge
