/-
  CodexRemoteBridge.Server — `server.py`: how the arguments of an MCP call
  reach the bridge, and what becomes of their strings.

  FastMCP parses some strings before it checks them.  A parameter that is
  annotated `str` keeps its text; one annotated `str | None` loses a text
  that happens to be a JSON `null`, array or object.

  Main result: `McpTool.verbatim_iff`.
-/
import CodexRemoteBridge.Fingerprints
import CodexRemoteBridge.Ownership
import CodexRemoteBridge.Lib.JsonParse

namespace CodexRemoteBridge

open Interaction

/-! ## §1. Parameters. -/

/-- The annotations of the parameters of the mutation tools. -/
inductive Annotation where
  | str
  /-- `str | None`. -/
  | optionalStr
  | literal (options : List String)
  /-- `dict[str, Any]`. -/
  | dict

/-- What a parameter of the annotation holds. -/
abbrev Annotation.Value : Annotation → Type
  | .str => String
  | .optionalStr => Option String
  | .literal _ => String
  | .dict => { d : Dict // d.keys.Nodup }

/-- The check of an annotation: the argument as a value of it. -/
def Annotation.check : (a : Annotation) → Json → Option a.Value
  | .str, .str s => some s
  | .optionalStr, .str s => some (some s)
  | .optionalStr, .null => some none
  | .literal options, .str s => if s ∈ options then some s else none
  | .dict, .obj d => if h : (Dict.keys d).Nodup then some ⟨d, h⟩ else none
  | _, _ => none

/-- What a string is replaced by: the JSON `null`, array or object it is the
text of, with its strings spelled. -/
def parsedAway (s : String) : Option Json :=
  match Json.decode s with
  | some .null => some .null
  | some (.arr items) => some (.arr items)
  | some (.obj fields) => some (.obj fields)
  | _ => none

/-- The pre-parsing of FastMCP, as the comment in `read_thread` has it. -/
class FastMCP where
  preParse : Annotation → Json → Json
  verbatim : ∀ v, preParse .str v = v
  replaced : ∀ a s v, a ≠ .str → parsedAway s = some v →
    (preParse a (.str s)).typeName = v.typeName ∧
    ∀ w, Json.loads s = some w → preParse a (.str s) = w
  kept : ∀ a s, a ≠ .str → parsedAway s = none → preParse a (.str s) = .str s

/-- The same, as a function. -/
def samplePreParse : Annotation → Json → Json
  | .str, v => v
  | _, .str s =>
      match parsedAway s with
      | none => .str s
      | some v => (Json.loads s).getD v
  | _, v => v

/-- How strings are named does not change what type a value has. -/
theorem typeName_parseValue {name other : List Nat → Option String} {n : Nat}
    {cs rest rest' : List Char} {v w : Json} (hv : Json.parseValue name n cs = some (v, rest))
    (hw : Json.parseValue other n cs = some (w, rest')) : v.typeName = w.typeName := by
  cases n with
  | zero => cases hv
  | succ n =>
      rw [Json.parseValue] at hv hw
      cases hopen : Json.opening cs with
      | string tail =>
          simp only [hopen] at hv hw
          obtain ⟨_, -, hv⟩ := Option.map_eq_some_iff.mp hv
          obtain ⟨_, -, hw⟩ := Option.map_eq_some_iff.mp hw
          cases hv
          cases hw
          rfl
      | object tail =>
          have hobject : ∀ {name : List Nat → Option String} {v : Json} {rest : List Char},
              Json.parseValue name (n + 1) cs = some (v, rest) → v.typeName = "dict" := by
            intro name v rest h
            rw [Json.parseValue, hopen] at h
            dsimp only at h
            split at h
            · cases h
              rfl
            · obtain ⟨_, -, h⟩ := Option.map_eq_some_iff.mp h
              cases h
              rfl
          rw [← Json.parseValue] at hv hw
          rw [hobject hv, hobject hw]
      | array tail =>
          have harray : ∀ {name : List Nat → Option String} {v : Json} {rest : List Char},
              Json.parseValue name (n + 1) cs = some (v, rest) → v.typeName = "list" := by
            intro name v rest h
            rw [Json.parseValue, hopen] at h
            dsimp only at h
            split at h
            · cases h
              rfl
            · obtain ⟨_, -, h⟩ := Option.map_eq_some_iff.mp h
              cases h
              rfl
          rw [← Json.parseValue] at hv hw
          rw [harray hv, harray hw]
      | atom result =>
          simp only [hopen] at hv hw
          rw [hv] at hw
          cases hw
          rfl

theorem typeName_loads {s : String} {v w : Json} (hv : Json.decode s = some v)
    (hw : Json.loads s = some w) : w.typeName = v.typeName := by
  unfold Json.decode Json.loadsAs at hv
  unfold Json.loads Json.loadsAs at hw
  split at hv
  · cases hv
  · rename_i v' rest hvalue
    split at hw
    · cases hw
    · rename_i w' rest' hvalue'
      split at hv <;> cases hv
      split at hw <;> cases hw
      exact typeName_parseValue hvalue' hvalue

theorem parsedAway_some {s : String} {v : Json} (h : parsedAway s = some v) :
    Json.decode s = some v := by
  unfold parsedAway at h
  split at h <;> cases h <;> assumption

/-- A pre-parser as FastMCP has it. -/
abbrev FastMCP.sample : FastMCP where
  preParse := samplePreParse
  verbatim := fun _ => rfl
  replaced := by
    intro a s v ha hv
    cases a with
    | str => exact absurd rfl ha
    | _ =>
        simp only [samplePreParse, hv]
        constructor
        · cases hloads : Json.loads s with
          | none => rfl
          | some w => exact typeName_loads (parsedAway_some hv) hloads
        · intro w hloads
          rw [hloads, Option.getD_some]
  kept := by
    intro a s ha hs
    cases a with
    | str => exact absurd rfl ha
    | _ => simp [samplePreParse, hs]

/-- A declared parameter; without a default it is required. -/
structure Param where
  name : String
  annotation : Annotation
  default : Option annotation.Value

/-- The refusal of an argument, before the tool is called. -/
inductive Rejected where
  | missing (name : String)
  | invalid (name : String)

/-- A required `str`. -/
abbrev Param.text (name : String) : Param := ⟨name, .str, none⟩

/-- `str | None = None`. -/
abbrev Param.nullableText (name : String) : Param := ⟨name, .optionalStr, some none⟩

/-- The value a parameter gets. -/
def Param.receive [FastMCP] (p : Param) (args : Dict) : Except Rejected p.annotation.Value :=
  match args.get? p.name with
  | none =>
      match p.default with
      | some value => .ok value
      | none => .error (.missing p.name)
  | some v =>
      match p.annotation.check (FastMCP.preParse p.annotation v) with
      | some value => .ok value
      | none => .error (.invalid p.name)

/-! ## §2. The tools. -/

/-- The sandbox modes of the annotations. -/
def sandboxModes : Annotation :=
  .literal ["read-only", "workspace-write", "danger-full-access"]

/-- The tools whose strings go to the App Server. -/
inductive McpTool where
  | createThread
  | createWorktreeThread
  | sendMessageToThread
  | setThreadTitle

namespace McpTool

variable [FastMCP]

/-- The tool called with these arguments: the request ID and the call of the
bridge. -/
def receive : McpTool → Dict → Except Rejected (String × ToolCall)
  | .createThread, args => do
      let requestId ← (Param.text "request_id").receive args
      let cwd ← (Param.text "cwd").receive args
      let prompt ← (Param.nullableText "prompt").receive args
      let title ← (Param.nullableText "title").receive args
      let sandbox ← Param.receive ⟨"sandbox", sandboxModes, some "read-only"⟩ args
      let model ← (Param.nullableText "model").receive args
      let appServerProjectId ← (Param.nullableText "app_server_project_id").receive args
      .ok (requestId, .createThread ⟨cwd, prompt, title, sandbox, model, appServerProjectId⟩)
  | .createWorktreeThread, args => do
      let requestId ← (Param.text "request_id").receive args
      let sourceRepository ← (Param.text "source_repository").receive args
      let startingRevision ← (Param.text "starting_revision").receive args
      let destination ← (Param.text "destination").receive args
      let worktreeMode ← Param.receive
        ⟨"worktree_mode", .literal ["bridge-managed-retained"], none⟩ args
      let sandbox ← Param.receive ⟨"sandbox", sandboxModes, none⟩ args
      let policy ← Param.receive ⟨"expected_sandbox_policy", .dict, none⟩ args
      let prompt ← (Param.nullableText "prompt").receive args
      let title ← (Param.nullableText "title").receive args
      let model ← (Param.nullableText "model").receive args
      let reasoningEffort ← (Param.nullableText "reasoning_effort").receive args
      let appServerProjectId ← (Param.nullableText "app_server_project_id").receive args
      .ok (requestId, .createWorktreeThread
        ⟨sourceRepository, startingRevision, destination, worktreeMode, sandbox, policy.1, prompt,
          title, model, reasoningEffort, appServerProjectId, policy.2⟩)
  | .sendMessageToThread, args => do
      let requestId ← (Param.text "request_id").receive args
      let threadId ← (Param.text "thread_id").receive args
      let message ← (Param.text "message").receive args
      .ok (requestId, .sendMessageToThread ⟨threadId, message⟩)
  | .setThreadTitle, args => do
      let requestId ← (Param.text "request_id").receive args
      let threadId ← (Param.text "thread_id").receive args
      let title ← (Param.text "title").receive args
      .ok (requestId, .setThreadTitle ⟨threadId, title⟩)

end McpTool

/-! ## §3. The strings of a call. -/

/-- A string that is passed on: the tool output a turn starts with, the name
of a thread, a model. -/
inductive Slot where
  | output
  | title
  | model

/-- A string parameter, with the maximum the bridge checks. -/
structure TextParam where
  name : String
  nullable : Bool
  maximum : Nat

/-- The parameter a text is passed in. -/
def McpTool.param : McpTool → Slot → Option TextParam
  | .createThread, .output => some ⟨"prompt", true, 100000⟩
  | .createThread, .title => some ⟨"title", true, 500⟩
  | .createThread, .model => some ⟨"model", true, 500⟩
  | .createWorktreeThread, .output => some ⟨"prompt", true, defaultMaximum⟩
  | .createWorktreeThread, .title => some ⟨"title", true, defaultMaximum⟩
  | .createWorktreeThread, .model => some ⟨"model", true, defaultMaximum⟩
  | .sendMessageToThread, .output => some ⟨"message", false, defaultMaximum⟩
  | .setThreadTitle, .title => some ⟨"title", false, 500⟩
  | _, _ => none

/-- A text the bridge accepts there: not blank, and not too long. -/
def TextParam.Legal (p : TextParam) (s : String) : Prop := nonempty s p.name p.maximum = .ok ()

/-- The text the bridge got. -/
def ToolCall.text : ToolCall → Slot → Option String
  | .createThread a, .output => a.prompt
  | .createThread a, .title => a.title
  | .createThread a, .model => a.model
  | .createWorktreeThread a, .output => a.prompt
  | .createWorktreeThread a, .title => a.title
  | .createWorktreeThread a, .model => a.model
  | .sendMessageToThread a, .output => some a.message
  | .setThreadTitle a, .title => some a.title
  | _, _ => none

/-- The text a request carries. -/
def carried (params : Dict) (method : String) : Slot → Option Json
  | .output =>
      if method = "turn/start" then
        match params.get? "toolOutput" with
        | some (.obj output) => Dict.get? output "output"
        | _ => none
      else none
  | .title => if method = "thread/name/set" then params.get? "name" else none
  | .model => if method = "thread/start" then params.get? "model" else none

/-- A request carries the texts of the call, and no other. -/
def ToolCall.Conveys (t : ToolCall) (op : Op) : Prop :=
  ∀ method params, op = .call method params → ∀ slot v, carried params method slot = some v →
    ∃ s, t.text slot = some s ∧ v = .str s

/-- The output has been dispatched. -/
def Dispatched (output : String) (h : History) : Prop :=
  ∃ params r, (⟨.call "turn/start" params, r⟩ : Event Ans) ∈ h ∧
    carried params "turn/start" .output = some (.str output)

/-! ## §4. What an action sends. -/

section Sends

variable {α β : Type} {t : ToolCall}

theorem conveys_of_ne {op : Op} (hop : ∀ method params, op ≠ .call method params) :
    t.Conveys op := fun method params he => absurd he (hop method params)

/-- A request that carries no text. -/
theorem conveys_plain {method : String} (params : Dict)
    (hmethod : method ∉ ["turn/start", "thread/name/set", "thread/start"]) :
    t.Conveys (.call method params) := by
  intro method' params' he slot v hv
  obtain ⟨rfl, rfl⟩ := Op.call.inj he
  simp only [List.mem_cons, List.not_mem_nil, or_false, not_or] at hmethod
  cases slot <;> simp [carried, hmethod] at hv

/-- Every operation carries the texts of the call. -/
abbrev ConveysSpec (t : ToolCall) : OpSpec Ans Unit := observe (fun m _ => m) fun _ => t.Conveys

/-- The coroutine sends the texts of the call, and no other. -/
abbrev Sends (t : ToolCall) (c : Act α) : Prop :=
  c.Keeps (ConveysSpec t) (fun _ _ => True) fun _ _ _ => True

theorem Sends.bind {c : Act α} {f : α → Act β} (hc : Sends t c) (hf : ∀ a, Sends t (f a)) :
    Sends t (c >>= f) := Co.Keeps.bind (observe_mono _ _) hc hf

theorem sends_pure (a : α) : Sends t (pure a) := Co.keeps_pure a

theorem sends_raise (e : PyExc) : Sends t (Act.raise e : Act α) :=
  Co.keeps_throw fun _ _ _ => trivial

theorem sends_ofExcept (r : Except PyExc α) : Sends t (Act.ofExcept r) :=
  Co.keeps_ofExcept fun _ _ _ _ => trivial

theorem sends_only {c : Act α} (h : c.Only t.Conveys) : Sends t c :=
  h.keeps (observe_mono _ _) (fun _ _ _ hop _ => ⟨hop, fun _ => trivial⟩) fun _ _ _ _ => trivial

theorem sends_perform {op : Op} (h : t.Conveys op) (view : Ans op → Except PyExc α) :
    Sends t (Act.perform op view) := sends_only (Act.only_perform h view)

theorem Looks.sends {c : Act α} (h : Looks c) : Sends t c := by
  refine sends_only (h.weaken fun op hop => conveys_of_ne ?_)
  intro method params he
  subst he
  cases hop

theorem sends_call {method : String} {params : Dict} (h : t.Conveys (.call method params)) :
    Sends t (Act.call method params) := sends_perform h _

theorem sends_whenGiven {value : Option String} {step : String → Act Unit}
    (h : ∀ x, value = some x → Sends t (step x)) : Sends t (whenGiven value step) := by
  cases value with
  | none => exact sends_pure ()
  | some x => exact h x rfl

theorem sends_updateReceipt (fields : Dict) : Sends t (updateReceipt fields) :=
  Co.keeps_modify fun _ _ _ => trivial

theorem sends_saveReceipt : Sends t saveReceipt := by
  refine Co.Keeps.get_bind fun receipt => ?_
  suffices h : Sends t (Ledger.save receipt) from fun m hm => h receipt m hm
  refine looks_now.sends.bind fun updatedAt => ?_
  refine (sends_ofExcept _).bind fun key => ?_
  exact (sends_perform (conveys_of_ne (by simp)) _).bind fun _ => sends_pure _

theorem sends_checkpoint (phase : String) (fields : Dict) : Sends t (checkpoint phase fields) :=
  (sends_updateReceipt _).bind fun _ => sends_saveReceipt.bind fun _ => sends_pure _

theorem sends_updateWorktree (fields : Dict) : Sends t (updateWorktree fields) := by
  unfold updateWorktree
  refine Co.Keeps.get_bind fun receipt m hm => ?_
  split
  · exact sends_updateReceipt _ _ m hm
  · trivial
  · trivial

theorem sends_git (cwd : PyPath) (args : List String) : Sends t (git cwd args) :=
  sends_only (only_git (conveys_of_ne (by simp)))

/-- A `turn/start` with the output of the call. -/
theorem conveys_turn {output : String} (h : t.text .output = some output) (threadId : Json)
    (name : String) : t.Conveys (.call "turn/start" (toolOutputTurn threadId name output)) := by
  intro method params he slot v hv
  obtain ⟨rfl, rfl⟩ := Op.call.inj he
  cases slot with
  | output =>
      simp [carried, toolOutputTurn] at hv
      exact ⟨output, h, hv.symm⟩
  | title => simp [carried] at hv
  | model => simp [carried] at hv

theorem conveys_name {title : String} (h : t.text .title = some title) (threadId : Json) :
    t.Conveys (.call "thread/name/set" [("threadId", threadId), ("name", .str title)]) := by
  intro method params he slot v hv
  obtain ⟨rfl, rfl⟩ := Op.call.inj he
  cases slot with
  | output => simp [carried] at hv
  | title =>
      simp [carried] at hv
      exact ⟨title, h, hv.symm⟩
  | model => simp [carried] at hv

theorem get?_append (d e : Dict) (key : String) :
    Dict.get? (d ++ e) key = (d.get? key).or (e.get? key) := by
  induction d with
  | nil => rfl
  | cons kv rest ih =>
      obtain ⟨k, v⟩ := kv
      by_cases hk : k = key
      · simp [hk]
      · simp [hk, ih]

theorem get?_optionalField (key key' : String) (value : Option String) :
    (optionalField key value).get? key' = if key = key' then value.map .str else none := by
  cases value with
  | none => simp [optionalField]
  | some s => simp [optionalField]

/-- A `thread/start` with the model of the call. -/
theorem conveys_start {params : Dict} (h : params.get? "model" = (t.text .model).map .str) :
    t.Conveys (.call "thread/start" params) := by
  intro method params' he slot v hv
  obtain ⟨rfl, rfl⟩ := Op.call.inj he
  cases slot with
  | output => simp [carried] at hv
  | title => simp [carried] at hv
  | model =>
      have hmodel : (t.text .model).map .str = some v := by simpa [carried, h] using hv
      obtain ⟨s, hs, rfl⟩ := Option.map_eq_some_iff.mp hmodel
      exact ⟨s, hs, rfl⟩

theorem CreateThread.sends_action (a : CreateThread) (cwd : String) :
    Sends (.createThread a) (a.action cwd) := by
  have hstart : (ToolCall.createThread a).Conveys (.call "thread/start" (a.launchParams cwd)) := by
    refine conveys_start ?_
    simp [launchParams, get?_append, get?_optionalField, ToolCall.text]
  unfold action
  refine (sends_whenGiven fun project _ =>
    (sends_call (conveys_plain _ (by decide))).bind fun _ => sends_pure _).bind fun _ => ?_
  refine (sends_call hstart).bind fun created => ?_
  refine (sends_ofExcept _).bind fun threadId => ?_
  refine (sends_updateReceipt _).bind fun _ => ?_
  refine sends_saveReceipt.bind fun _ => ?_
  refine (sends_ofExcept _).bind fun actual => ?_
  refine (sends_ofExcept _).bind fun expected => ?_
  refine (sends_ofExcept _).bind fun mismatch => ?_
  split
  · exact sends_raise _
  refine Sends.bind (sends_whenGiven fun title htitle => ?_) fun _ => ?_
  · refine (sends_call (conveys_name (t := .createThread a) htitle threadId)).bind fun _ => ?_
    refine (sends_updateReceipt _).bind fun _ => ?_
    exact sends_saveReceipt.bind fun _ => sends_pure _
  refine Sends.bind (sends_whenGiven fun prompt hprompt => ?_) fun _ => sends_updateReceipt _
  refine (sends_call (conveys_turn (t := .createThread a) hprompt threadId _)).bind fun turn => ?_
  exact (sends_ofExcept _).bind fun _ => sends_updateReceipt _

namespace CreateWorktreeThread

variable (a : CreateWorktreeThread)

theorem sends_prepare : Sends t a.prepare := by
  unfold prepare
  refine (sends_checkpoint _ _).bind fun _ => ?_
  refine (Worktree.looks_validate _ _ _).sends.bind fun worktree => ?_
  refine (sends_whenGiven fun project _ =>
    (sends_call (conveys_plain _ (by decide))).bind fun _ => sends_pure _).bind fun _ => ?_
  refine (sends_checkpoint _ _).bind fun _ => ?_
  refine (sends_perform (conveys_of_ne (by simp)) _).bind fun _ => ?_
  refine (sends_updateWorktree _).bind fun _ => ?_
  refine (sends_checkpoint _ _).bind fun _ => ?_
  refine ((sends_git _ _).bind fun _ => sends_pure _).bind fun _ => ?_
  refine (sends_updateWorktree _).bind fun _ => ?_
  refine (sends_checkpoint _ _).bind fun _ => ?_
  refine Sends.bind ?_ fun _ => ?_
  · exact (looks_checkoutFilterConfig _).sends.bind fun _ => (sends_git _ _).bind fun _ =>
      (sends_git _ _).bind fun _ => sends_pure _
  refine (sends_updateWorktree _).bind fun _ => ?_
  refine (sends_checkpoint _ _).bind fun _ => ?_
  refine worktree.looks_inspect.sends.bind fun actual => ?_
  refine (sends_updateWorktree _).bind fun _ => ?_
  refine (sends_checkpoint _ _).bind fun _ => ?_
  refine (worktree.looks_matches _).sends.bind fun good => ?_
  split
  · exact (sends_raise _).bind fun _ => sends_pure _
  · exact sends_pure _

theorem sends_action : Sends (.createWorktreeThread a) a.action := by
  have hstart : ∀ w, (ToolCall.createWorktreeThread a).Conveys
      (.call "thread/start" (a.launch w)) := by
    intro w
    refine conveys_start ?_
    cases heffort : a.reasoningEffort <;>
      simp [launch, get?_append, get?_optionalField, ToolCall.text, heffort]
  have hthreadId : Sends (.createWorktreeThread a) receiptThreadId :=
    Co.Keeps.get_bind fun receipt m hm => sends_ofExcept _ receipt m hm
  unfold action
  refine a.sends_prepare.bind fun worktree => ?_
  refine Sends.bind ?_ fun _ => ?_
  · unfold start
    refine (sends_checkpoint _ _).bind fun _ => ?_
    refine (sends_call (hstart worktree)).bind fun created => ?_
    refine (sends_ofExcept _).bind fun fields => ?_
    refine (sends_checkpoint _ _).bind fun _ => ?_
    refine (sends_ofExcept _).bind fun mismatch => ?_
    split
    · exact sends_raise _
    · exact sends_pure _
  refine Sends.bind (sends_whenGiven fun title htitle => ?_) fun _ => ?_
  · unfold name
    refine (sends_checkpoint _ _).bind fun _ => hthreadId.bind fun threadId => ?_
    exact (sends_call (conveys_name (t := .createWorktreeThread a) htitle threadId)).bind
      fun _ => sends_checkpoint _ _
  refine Sends.bind ?_ fun _ => ?_
  · unfold recheck
    refine worktree.looks_inspect.sends.bind fun actual => ?_
    refine (sends_checkpoint _ _).bind fun _ => ?_
    refine (worktree.looks_matches _).sends.bind fun good => ?_
    split
    · exact sends_raise _
    · exact sends_pure _
  refine Sends.bind (sends_whenGiven fun prompt hprompt => ?_) fun _ => sends_checkpoint _ _
  unfold dispatch
  refine (sends_checkpoint _ _).bind fun _ => hthreadId.bind fun threadId => ?_
  refine (sends_call (conveys_turn (t := .createWorktreeThread a) hprompt threadId _)).bind
    fun turn => ?_
  exact (sends_ofExcept _).bind fun _ => sends_checkpoint _ _

end CreateWorktreeThread

theorem SendMessage.sends_action (a : SendMessage) : Sends (.sendMessageToThread a) a.action := by
  have hdeliver : Sends (.sendMessageToThread a) a.deliver := by
    refine (sends_call (conveys_turn rfl _ _)).bind fun turn => ?_
    exact (sends_ofExcept _).bind fun _ => sends_updateReceipt _
  have hclose : Sends (.sendMessageToThread a) Act.close :=
    sends_perform (conveys_of_ne (by simp)) _
  unfold action
  refine (sends_updateReceipt _).bind fun _ => sends_saveReceipt.bind fun _ => ?_
  refine (sends_call (conveys_plain _ (by decide))).bind fun state => ?_
  refine (sends_ofExcept _).bind fun thread => ?_
  refine (sends_ofExcept _).bind fun status => ?_
  split
  · unfold deliverActive
    refine (sends_updateReceipt _).bind fun _ => sends_saveReceipt.bind fun _ => ?_
    exact hdeliver.bind fun _ => sends_saveReceipt.bind fun _ => hclose
  · unfold deliverIdle
    refine (sends_updateReceipt _).bind fun _ => sends_saveReceipt.bind fun _ => ?_
    refine (sends_call (conveys_plain _ (by decide))).bind fun resumed => ?_
    refine (sends_updateReceipt _).bind fun _ => sends_saveReceipt.bind fun _ => ?_
    refine (sends_ofExcept _).bind fun policy => ?_
    split
    · exact sends_raise _
    · exact hdeliver.bind fun _ => hclose

theorem SetThreadTitle.sends_action (a : SetThreadTitle) : Sends (.setThreadTitle a) a.action :=
  (sends_call (conveys_name rfl _)).bind fun _ => sends_updateReceipt _

end Sends

/-! ## §5. What an action has dispatched when it returns. -/

section Dispatches

variable {α β : Type} {s : Dict} {h : History} {output : String}

/-- The history of a call, with nothing asked of its operations. -/
abbrev OpHistory : OpSpec Ans History := history fun _ _ => True

theorem Dispatched.append (hd : Dispatched output h) (e : Event Ans) :
    Dispatched output (h ++ [e]) := by
  obtain ⟨params, r, hmem, hcarried⟩ := hd
  exact ⟨params, r, List.mem_append_left _ hmem, hcarried⟩

/-- What has been dispatched stays dispatched. -/
theorem freely_dispatched (c : Act α) (hd : Dispatched output h) :
    Co.Leads OpHistory c (fun _ _ h' => Dispatched output h') s h := by
  have hstable : Interaction.wp OpHistory (c s) (fun _ h' => Dispatched output h') h :=
    wp_of_stable (fun _ _ _ => trivial) (fun _ e hd => hd.append e) (c s) hd
  refine Interaction.wp_mono (observe_mono _ _) _ ?_ _ hstable
  rintro ⟨e | a, s'⟩ h' hd'
  · trivial
  · exact hd'

/-- Nothing is asked of a part of the action. -/
theorem freely_any (c : Act α) : Co.Leads OpHistory c (fun _ _ _ => True) s h := by
  have hstable : Interaction.wp OpHistory (c s) (fun _ _ => True) h :=
    wp_of_stable (P := fun _ => True) (fun _ _ _ => trivial) (fun _ _ _ => trivial) (c s) trivial
  refine Interaction.wp_mono (observe_mono _ _) _ ?_ _ hstable
  rintro ⟨e | a, s'⟩ h' _ <;> trivial

theorem freely_bind {c : Act α} {f : α → Act β} {P : α → Dict → History → Prop}
    {Q : β → Dict → History → Prop} (hc : Co.Leads OpHistory c P s h)
    (hf : ∀ a s' h', P a s' h' → Co.Leads OpHistory (f a) Q s' h') :
    Co.Leads OpHistory (c >>= f) Q s h := hc.bind (observe_mono _ _) hf

/-- Past a part nothing is asked of. -/
theorem freely_past {c : Act α} {f : α → Act β} {Q : β → Dict → History → Prop}
    (hf : ∀ a s' h', Co.Leads OpHistory (f a) Q s' h') :
    Co.Leads OpHistory (c >>= f) Q s h :=
  freely_bind (freely_any c) fun a s' h' _ => hf a s' h'

theorem freely_turn (threadId : Json) (name : String) :
    Co.Leads OpHistory (Act.call "turn/start" (toolOutputTurn threadId name output))
      (fun _ _ h' => Dispatched output h') s h := by
  show Co.wp _ _ _ _ _ _
  unfold Act.call
  rw [Act.wp_perform]
  refine ⟨trivial, fun r => ?_⟩
  cases r with
  | error e => trivial
  | ok turn =>
      exact ⟨_, _, List.mem_append_right _ (List.mem_singleton.mpr rfl),
        by simp [carried, toolOutputTurn]⟩

theorem CreateThread.dispatches_action {a : CreateThread} (ha : a.prompt = some output)
    (cwd : String) :
    Co.Leads OpHistory (a.action cwd) (fun _ _ h' => Dispatched output h') s h := by
  unfold action
  refine freely_past fun _ s h => freely_past fun created s h => freely_past fun threadId s h => ?_
  refine freely_past fun _ s h => freely_past fun _ s h => freely_past fun actual s h => ?_
  refine freely_past fun expected s h => freely_past fun mismatch s h => ?_
  split
  · trivial
  refine freely_past fun _ s h => freely_bind (P := fun _ _ h' => Dispatched output h') ?_
    fun _ _ _ hd => freely_dispatched _ hd
  rw [ha]
  exact freely_bind (freely_turn _ _) fun _ _ _ hd => freely_dispatched _ hd

theorem CreateWorktreeThread.dispatches_action {a : CreateWorktreeThread}
    (ha : a.prompt = some output) :
    Co.Leads OpHistory a.action (fun _ _ h' => Dispatched output h') s h := by
  unfold action
  refine freely_past fun worktree s h => freely_past fun _ s h => freely_past fun _ s h => ?_
  refine freely_past fun _ s h => freely_bind (P := fun _ _ h' => Dispatched output h') ?_
    fun _ _ _ hd => freely_dispatched _ hd
  rw [ha]
  refine freely_past fun _ s h => freely_past fun threadId s h => ?_
  exact freely_bind (freely_turn _ _) fun _ _ _ hd => freely_dispatched _ hd

theorem SendMessage.dispatches_action (a : SendMessage) :
    Co.Leads OpHistory a.action (fun _ _ h' => Dispatched a.message h') s h := by
  have hdeliver : ∀ s h, Co.Leads OpHistory a.deliver (fun _ _ h' => Dispatched a.message h') s h :=
    fun s h => freely_bind (freely_turn _ _) fun _ _ _ hd => freely_dispatched _ hd
  unfold action
  refine freely_past fun _ s h => freely_past fun _ s h => freely_past fun state s h => ?_
  refine freely_past fun thread s h => freely_past fun status s h => ?_
  split
  · unfold deliverActive
    refine freely_past fun _ s h => freely_past fun _ s h => ?_
    exact freely_bind (hdeliver s h) fun _ _ _ hd => freely_dispatched _ hd
  · unfold deliverIdle
    refine freely_past fun _ s h => freely_past fun _ s h => freely_past fun resumed s h => ?_
    refine freely_past fun _ s h => freely_past fun _ s h => freely_past fun policy s h => ?_
    split
    · trivial
    · exact freely_bind (hdeliver s h) fun _ _ _ hd => freely_dispatched _ hd

/-- **An action that returns has dispatched the output of its call.** -/
theorem ToolCall.dispatches_action (t : ToolCall) (ht : t.text .output = some output)
    (cwd : String) :
    Co.Leads OpHistory (t.action cwd) (fun _ _ h' => Dispatched output h') s h := by
  cases t with
  | createThread a => exact CreateThread.dispatches_action ht cwd
  | createWorktreeThread a => exact CreateWorktreeThread.dispatches_action ht
  | sendMessageToThread a =>
      obtain rfl : a.message = output := Option.some.inj ht
      exact a.dispatches_action
  | forkThread a => cases ht
  | setThreadTitle a => cases ht
  | setThreadArchived a => cases ht

/-- What is saved has the status of the receipt. -/
theorem freely_save (receipt : Dict) {P : History → Prop} (hP : ∀ h e, P h → P (h ++ [e]))
    (hh : P h) :
    Co.Leads OpHistory (Ledger.save receipt)
      (fun w _ h' => w.get? "status" = receipt.get? "status" ∧ P h') s h := by
  show Co.wp _ _ _ _ _ _
  unfold Ledger.save Act.now
  rw [Co.wp_bind, Act.wp_perform]
  refine ⟨trivial, fun time => ?_⟩
  show Co.wp _ _ _ _ _ _
  rw [Co.wp_bind, Co.wp_ofExcept]
  generalize Json.index "requestId" _ = key
  cases key with
  | error e => trivial
  | ok key =>
      dsimp only
      rw [Co.wp_bind, Act.wp_perform]
      refine ⟨trivial, fun r => ?_⟩
      cases r with
      | error f => trivial
      | ok _ =>
          refine ⟨?_, hP _ _ (hP _ _ hh)⟩
          rw [Dict.get?_update_of_notMem _ _ (by simp [Dict.keys])]

theorem freely_saveReceipt {P : History → Prop} (hP : ∀ h e, P h → P (h ++ [e])) (hh : P h) :
    Co.Leads OpHistory saveReceipt
      (fun w _ h' => w.get? "status" = s.get? "status" ∧ P h') s h := by
  show Co.wp _ _ _ _ _ _
  unfold saveReceipt
  rw [Co.wp_bind, Co.wp_get]
  exact freely_save s hP hh

/-- An exception never leaves the status of a success. -/
theorem freely_settle (e : PyExc) :
    Co.Leads OpHistory (settle e)
      (fun _ s' _ => s'.get? "status" ≠ some (.str "accepted")) s h := by
  cases e with
  | cancelledError =>
      refine freely_past fun receipt s h => freely_past fun _ s h => ?_
      trivial
  | rpcError method error =>
      show (s.update (outcome (.rpcError method error))).get? "status" ≠ _
      simp [outcome, Dict.get?_set]
  | worktreeError message =>
      show (s.update (outcome (.worktreeError message))).get? "status" ≠ _
      simp [outcome, Dict.get?_set]
  | exception cls message =>
      show (s.update (outcome (.exception cls message))).get? "status" ≠ _
      simp [outcome, Dict.get?_set]

theorem ToolCall.dispatches_attempt (t : ToolCall) (ht : t.text .output = some output)
    (requestId cwd : String) :
    Co.Leads OpHistory (attempt requestId (t.action cwd))
      (fun w _ h' => w.get? "status" = some (.str "accepted") → Dispatched output h') s h := by
  show Co.wp _ _ _ _ _ _
  rw [wp_attempt]
  refine ⟨trivial, fun _ => Co.wp_conseq (observe_mono _ _) (t.dispatches_action ht cwd) ?_ ?_⟩
  · intro _ s h hd
    exact (freely_saveReceipt (fun _ e hd => hd.append e) hd).conseq (observe_mono _ _)
      fun _ _ _ hw _ => hw.2
  · intro e s h _
    refine Co.wp_conseq (observe_mono _ _) (freely_settle e) (fun _ s h hstatus => ?_)
      fun _ _ _ _ => trivial
    refine (freely_saveReceipt (P := fun _ => True) (fun _ _ _ => trivial) trivial).conseq
      (observe_mono _ _) fun _ _ _ hw haccepted => ?_
    rw [hw.1] at haccepted
    exact absurd haccepted hstatus

/-- A run that inserted its row and reports success has dispatched the
output. -/
def EndsDispatched (output : String) (r : Except PyExc Dict) (h : History) : Prop :=
  ∀ receipt, r = .ok receipt → receipt.get? "status" = some (.str "accepted") →
    (h.foldl inserted none).isSome = true → Dispatched output h

variable [Hashlib]

theorem ToolCall.dispatches_run (t : ToolCall) (ht : t.text .output = some output)
    (requestId : String) :
    Interaction.wp OpHistory (t.prog requestId) (fun r h => EndsDispatched output r.1 h) [] := by
  have hΦ : Indifferent OpHistory (fun h => h.foldl inserted none = none) := by
    refine ⟨observe_mono _ _, fun op h hop hh => ⟨trivial, fun r => ?_⟩⟩
    show (h ++ [_]).foldl inserted none = none
    rw [List.foldl_append, hh]
    refine inserted_of_effectless ?_
    rintro key fp receipt rfl
    cases hop
  have hold : ∀ r h, h.foldl inserted none = none → EndsDispatched output r h := by
    intro r h hh receipt _ _ hfresh
    rw [hh] at hfresh
    cases hfresh
  refine hΦ.wp_tool (P := EndsDispatched output) t requestId rfl hold ?_ ?_
  · intro r h hr
    refine ⟨trivial, fun u receipt he haccepted hfresh => ?_⟩
    rw [remember, List.foldl_append] at hfresh
    exact (hr receipt he haccepted hfresh).append _
  · intro cwd fp startedAt h _ hh
    refine ⟨trivial, fun r => ?_⟩
    rcases r with f | _ | row
    · show (h ++ [_]).foldl inserted none = none
      rw [List.foldl_append, hh]
      rfl
    · refine Co.wp_conseq (observe_mono _ _) (t.dispatches_attempt ht requestId cwd) ?_ ?_
      · intro w s h hw receipt he haccepted _
        obtain rfl := Except.ok.inj he
        exact hw haccepted
      · intro e s h _ receipt he
        cases he
    · show (h ++ [_]).foldl inserted none = none
      rw [List.foldl_append, hh]
      rfl

end Dispatches

/-! ## §6. What a tool receives. -/

section Receives

variable [FastMCP]

theorem Param.receive_of_ne {p : Param} {key : String} (h : key ≠ p.name) (args : Dict) (v : Json) :
    p.receive (args.set key v) = p.receive args := by
  unfold Param.receive
  rw [Dict.get?_set_ne args v h]

theorem Param.receive_text (name s : String) (args : Dict) :
    (Param.text name).receive (args.set name (.str s)) = .ok s := by
  simp [Param.receive, Param.text, FastMCP.verbatim, Annotation.check]

/-- A nullable text is replaced by the value it is the text of. -/
theorem Param.receive_nullableText (name s : String) (args : Dict) :
    (Param.nullableText name).receive (args.set name (.str s)) =
      match parsedAway s with
      | none => .ok (some s)
      | some .null => .ok none
      | some _ => .error (.invalid name) := by
  cases hs : parsedAway s with
  | none =>
      simp [Param.receive, Param.nullableText, FastMCP.kept _ _ _ hs, Annotation.check]
  | some v =>
      have htype := (FastMCP.replaced .optionalStr s v (by simp) hs).1
      simp only [Param.receive, Param.nullableText, Dict.get?_set_self]
      generalize FastMCP.preParse .optionalStr (.str s) = value at htype
      unfold parsedAway at hs
      split at hs <;> cases hs <;> cases value <;>
        simp [Json.typeName] at htype <;> rfl

/-- The call with another text in a slot that holds one. -/
def ToolCall.withText : ToolCall → Slot → Option String → ToolCall
  | .createThread a, .output, value => .createThread { a with prompt := value }
  | .createThread a, .title, value => .createThread { a with title := value }
  | .createThread a, .model, value => .createThread { a with model := value }
  | .createWorktreeThread a, .output, value => .createWorktreeThread { a with prompt := value }
  | .createWorktreeThread a, .title, value => .createWorktreeThread { a with title := value }
  | .createWorktreeThread a, .model, value => .createWorktreeThread { a with model := value }
  | .sendMessageToThread a, .output, some s => .sendMessageToThread { a with message := s }
  | .setThreadTitle a, .title, some s => .setThreadTitle { a with title := s }
  | t, _, _ => t

namespace McpTool

variable {tool : McpTool} {slot : Slot} {param : TextParam} {args : Dict}
variable {q requestId : String} {t : ToolCall}

/-- Another string for a nullable text changes that text, or refuses the call. -/
theorem receive_nullable (hparam : tool.param slot = some param) (hnull : param.nullable = true)
    (h : tool.receive (args.set param.name (.str q)) = .ok (requestId, t)) (s : String) :
    tool.receive (args.set param.name (.str s))
      = (Param.nullableText param.name).receive (args.set param.name (.str s))
          >>= fun value => .ok (requestId, t.withText slot value) := by
  cases tool with
  | createThread =>
      cases slot <;> cases hparam <;>
        simp only [receive, bind_eq_ok, Param.receive_of_ne, ne_eq, String.reduceEq,
          not_false_eq_true] at h ⊢
      all_goals
        obtain ⟨_, h₁, _, h₂, _, h₃, _, h₄, _, h₅, _, h₆, _, h₇, he⟩ := h
        cases he
        simp only [h₁, h₂, h₃, h₄, h₅, h₆, h₇]
        rfl
  | createWorktreeThread =>
      cases slot <;> cases hparam <;>
        simp only [receive, bind_eq_ok, Param.receive_of_ne, ne_eq, String.reduceEq,
          not_false_eq_true] at h ⊢
      all_goals
        obtain ⟨_, h₁, _, h₂, _, h₃, _, h₄, _, h₅, _, h₆, _, h₇, _, h₈, _, h₉, _, h₁₀, _, h₁₁,
          _, h₁₂, he⟩ := h
        cases he
        simp only [h₁, h₂, h₃, h₄, h₅, h₆, h₇, h₈, h₉, h₁₀, h₁₁, h₁₂]
        rfl
  | sendMessageToThread =>
      cases slot <;> cases hparam
      cases hnull
  | setThreadTitle =>
      cases slot <;> cases hparam
      cases hnull

/-- Another string for a plain text changes that text. -/
theorem receive_plain (hparam : tool.param slot = some param) (hplain : param.nullable = false)
    (h : tool.receive (args.set param.name (.str q)) = .ok (requestId, t)) (s : String) :
    tool.receive (args.set param.name (.str s)) = .ok (requestId, t.withText slot (some s)) := by
  cases tool with
  | createThread => cases slot <;> cases hparam <;> cases hplain
  | createWorktreeThread => cases slot <;> cases hparam <;> cases hplain
  | sendMessageToThread =>
      cases slot <;> cases hparam
      simp only [receive, bind_eq_ok, Param.receive_of_ne, ne_eq, String.reduceEq,
        not_false_eq_true] at h ⊢
      obtain ⟨_, h₁, _, h₂, _, -, he⟩ := h
      cases he
      exact ⟨_, h₁, _, h₂, _, Param.receive_text _ s args, rfl⟩
  | setThreadTitle =>
      cases slot <;> cases hparam
      simp only [receive, bind_eq_ok, Param.receive_of_ne, ne_eq, String.reduceEq,
        not_false_eq_true] at h ⊢
      obtain ⟨_, h₁, _, h₂, _, -, he⟩ := h
      cases he
      exact ⟨_, h₁, _, h₂, _, Param.receive_text _ s args, rfl⟩

/-- The tool a call of the bridge belongs to. -/
def Calls : McpTool → ToolCall → Prop
  | .createThread, .createThread _ => True
  | .createWorktreeThread, .createWorktreeThread _ => True
  | .sendMessageToThread, .sendMessageToThread _ => True
  | .setThreadTitle, .setThreadTitle _ => True
  | _, _ => False

theorem calls_of_receive (h : tool.receive args = .ok (requestId, t)) : tool.Calls t := by
  cases tool <;> simp only [receive, bind_eq_ok] at h
  · obtain ⟨_, -, _, -, _, -, _, -, _, -, _, -, _, -, he⟩ := h
    cases he
    trivial
  · obtain ⟨_, -, _, -, _, -, _, -, _, -, _, -, _, -, _, -, _, -, _, -, _, -, _, -, he⟩ := h
    cases he
    trivial
  · obtain ⟨_, -, _, -, _, -, he⟩ := h
    cases he
    trivial
  · obtain ⟨_, -, _, -, _, -, he⟩ := h
    cases he
    trivial

omit [FastMCP] in
theorem sends_of_calls (h : tool.Calls t) (cwd : String) : Sends t (t.action cwd) := by
  cases tool <;> cases t <;> cases h
  · exact CreateThread.sends_action _ cwd
  · exact CreateWorktreeThread.sends_action _
  · exact SendMessage.sends_action _
  · exact SetThreadTitle.sends_action _

omit [FastMCP] in
theorem text_withText (h : tool.Calls t) (hparam : tool.param slot = some param)
    (value : Option String) (hvalue : param.nullable = true ∨ value.isSome = true) :
    (t.withText slot value).text slot = value := by
  cases tool <;> cases t <;> cases h <;> cases slot <;> cases hparam <;> try rfl
  all_goals
    obtain ⟨s, rfl⟩ := Option.isSome_iff_exists.mp (hvalue.resolve_left (by simp))
    rfl

omit [FastMCP] in
/-- The checks of the bridge look at nothing in a legal text. -/
theorem check_withText (h : tool.Calls t) (hparam : tool.param slot = some param)
    (ht : t.text slot = some q) (hq : param.Legal q) {s : String} (hs : param.Legal s) :
    (t.withText slot (some s)).check = t.check := by
  cases tool <;> cases t <;> cases h <;> cases slot <;> cases hparam
  all_goals
    simp only [ToolCall.text, Option.some.injEq] at ht
    simp only [TextParam.Legal] at hq hs
    simp only [ToolCall.withText, ToolCall.check, CreateThread.check, CreateWorktreeThread.check,
      SendMessage.check, SetThreadTitle.check, ht, nonemptyIfGiven, hq, hs]

end McpTool

end Receives

/-! ## §7. Verbatim. -/

section Verbatim

variable [Hashlib]

theorem McpTool.conveys_run {tool : McpTool} {t : ToolCall} (h : tool.Calls t)
    (requestId : String) :
    Interaction.wp (ConveysSpec t) (t.prog requestId) (fun _ _ => True) () := by
  have hquiet : ∀ op : Op, (∀ method params, op ≠ .call method params) →
      ∀ m, ConveysSpec t op (fun _ _ => True) m := fun op hop m =>
    ⟨conveys_of_ne hop, fun _ => trivial⟩
  have hΦ : Indifferent (ConveysSpec t) (fun _ => True) := by
    refine ⟨observe_mono _ _, fun op m hop _ => hquiet op ?_ m⟩
    rintro method params rfl
    cases hop
  have hlenient : Lenient (ConveysSpec t) :=
    ⟨observe_mono _ _, hquiet _ (by simp), fun key receipt => hquiet _ (by simp)⟩
  refine hΦ.wp_tool (P := fun _ _ => True) t requestId trivial (fun _ _ _ => trivial)
    (fun _ _ _ => hquiet _ (by simp) _) ?_
  intro cwd fp startedAt m _ _
  refine ⟨conveys_of_ne (by simp), fun r => ?_⟩
  rcases r with f | _ | row
  · trivial
  · exact hlenient.attempt ⟨conveys_of_ne (by simp), fun _ =>
      McpTool.sends_of_calls h cwd _ m trivial⟩
  · trivial

variable [FastMCP]

/-- The text `s`, given in an otherwise good call of the tool, arrives: the
bridge gets it, checks the call as it would with any legal text, sends no
other text in its place, and reports no success before it has dispatched
it. -/
structure McpTool.Verbatim (tool : McpTool) (slot : Slot) (param : TextParam) (args : Dict)
    (requestId : String) (t₀ : ToolCall) (s : String) : Prop where
  received : tool.receive (args.set param.name (.str s))
    = .ok (requestId, t₀.withText slot (some s))
  text : (t₀.withText slot (some s)).text slot = some s
  check : (t₀.withText slot (some s)).check = t₀.check
  conveyed : ∀ h rest, Run ((t₀.withText slot (some s)).prog requestId) h rest →
    ∀ e ∈ h, (t₀.withText slot (some s)).Conveys e.1
  dispatched : slot = .output → ∀ h r receipt,
    Run ((t₀.withText slot (some s)).prog requestId) h (.ret (r, receipt)) →
    EndsDispatched s r h

/-- **Tool strings arrive verbatim** unless their parameter is nullable and
the string is the text of a JSON `null`, array or object.  `q` is a text with
which the call, with its other arguments as they are, is received. -/
theorem McpTool.verbatim_iff {tool : McpTool} {slot : Slot} {param : TextParam}
    (hparam : tool.param slot = some param) {args : Dict} {q requestId : String} {t₀ : ToolCall}
    (hreceived : tool.receive (args.set param.name (.str q)) = .ok (requestId, t₀))
    (htext : t₀.text slot = some q) (hq : param.Legal q) {s : String} (hs : param.Legal s) :
    tool.Verbatim slot param args requestId t₀ s ↔
      (param.nullable = true → parsedAway s = none) := by
  have hcalls := McpTool.calls_of_receive hreceived
  have hcalls' : tool.Calls (t₀.withText slot (some s)) := by
    cases tool <;> cases t₀ <;> cases hcalls <;> cases slot <;> trivial
  have htext' := McpTool.text_withText hcalls hparam (some s) (.inr rfl)
  constructor
  · intro hv hnull
    have hr := hv.received
    rw [McpTool.receive_nullable hparam hnull hreceived, Param.receive_nullableText] at hr
    split at hr
    · assumption
    · -- `null`: the bridge is called without the text.
      have hnone := McpTool.text_withText hcalls hparam none (.inl hnull)
      have hcall : t₀.withText slot none = t₀.withText slot (some s) :=
        (Prod.mk.inj (Except.ok.inj hr)).2
      rw [hcall, htext'] at hnone
      cases hnone
    · cases hr
  · intro hparsed
    refine ⟨?_, htext', McpTool.check_withText hcalls hparam htext hq hs, ?_, ?_⟩
    · cases hnull : param.nullable with
      | false => exact McpTool.receive_plain hparam hnull hreceived s
      | true =>
          rw [McpTool.receive_nullable hparam hnull hreceived, Param.receive_nullableText,
            hparsed hnull]
          rfl
    · intro h rest hrun e he
      obtain ⟨pre, post, hsplit⟩ := List.append_of_mem he
      exact wp_run_mem (McpTool.conveys_run hcalls' requestId) hrun hsplit
    · intro hslot h r receipt hrun
      subst hslot
      have hend := wp_run_ret (ToolCall.dispatches_run _ htext' requestId) hrun
      rwa [foldl_remember, List.nil_append] at hend

end Verbatim

/-- The arguments of a `create_thread` without a prompt, and the call they
make with one. -/
def bareArgs : Dict := [("request_id", .str "r"), ("cwd", .str "/w")]

def bareCall (prompt : Option String) : ToolCall :=
  .createThread ⟨"/w", prompt, none, "read-only", none, none⟩

theorem receive_bare :
    let _ := FastMCP.sample
    McpTool.createThread.receive (bareArgs.set "prompt" (.str "x"))
      = .ok ("r", bareCall (some "x")) := by
  intro _
  rfl

/-- The prompt `{}` is a legal one, and the JSON text of an object. -/
theorem McpTool.verbatim_iff_braces :
    let _ := Hashlib.verbatim
    let _ := FastMCP.sample
    McpTool.createThread.Verbatim .output ⟨"prompt", true, 100000⟩ bareArgs "r"
        (bareCall (some "x")) "\x7b\x7d" ↔
      (true = true → parsedAway "\x7b\x7d" = none) := by
  intro _ _
  have hplain : TextParam.Legal ⟨"prompt", true, 100000⟩ "x" := rfl
  have hbraces : TextParam.Legal ⟨"prompt", true, 100000⟩ "\x7b\x7d" := rfl
  exact McpTool.verbatim_iff rfl receive_bare rfl hplain hbraces

/-- The prompt `null` is dropped, and the prompt `[1]` refused. -/
theorem McpTool.null_prompt_dropped :
    let _ := Hashlib.verbatim
    let _ := FastMCP.sample
    let param : TextParam := ⟨"prompt", true, 100000⟩
    param.Legal "null" ∧ param.Legal "[1]" ∧
      McpTool.createThread.receive (bareArgs.set "prompt" (.str "null"))
        = .ok ("r", bareCall none) ∧
      McpTool.createThread.receive (bareArgs.set "prompt" (.str "[1]"))
        = .error (.invalid "prompt") ∧
      ¬ McpTool.createThread.Verbatim .output param bareArgs "r" (bareCall (some "x")) "null" := by
  intro _ _ param
  have hnull : McpTool.createThread.receive (bareArgs.set "prompt" (.str "null"))
      = .ok ("r", bareCall none) := rfl
  refine ⟨rfl, rfl, hnull, rfl, fun hv => ?_⟩
  have hreceived := hv.received
  rw [hnull] at hreceived
  cases hreceived

end CodexRemoteBridge
