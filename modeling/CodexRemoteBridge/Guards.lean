/-
  CodexRemoteBridge.Guards — what has to be observed before a request goes
  out to a thread that already exists.

  Messaging, forking and archiving look at the thread first.  Each request
  of these tools is sent after an exact list of requests and replies, and
  the list is what allows it (`ToolCall.dispatch_guarded`).
-/
import CodexRemoteBridge.Fingerprints
import CodexRemoteBridge.Ownership
import CodexRemoteBridge.Withholding

namespace CodexRemoteBridge

open Interaction

/-! ## §1. Requests and what allows them. -/

/-- A request of a tool, with its outcome. -/
abbrev Asked : Type := String × Dict × Except PyExc Json

/-- The request an event is. -/
def asked : Event Ans → Option Asked
  | ⟨.call method params, r⟩ => some (method, params, r)
  | _ => none

/-- The requests of a history, in order. -/
def requests (h : History) : List Asked := h.filterMap asked

/-- `thread/read` of a thread, answered with `state`. -/
def readReply (threadId : String) (state : Json) : Asked :=
  ("thread/read", [("threadId", .str threadId)], .ok state)

/-- The reply reports an active thread. -/
def ReportsActive (state : Json) : Prop :=
  ∃ thread, state.index "thread" = .ok thread ∧ statusType thread = .ok (.str "active")

/-- The reply reports a thread that can be forked: neither active nor
ephemeral. -/
def ReportsRetained (state : Json) : Prop :=
  ∃ thread status ephemeral, state.index "thread" = .ok thread ∧
    statusType thread = .ok status ∧ status ≠ .str "active" ∧
    thread.getNone "ephemeral" = .ok ephemeral ∧ ephemeral.truthy = false

/-- The row of a run says how the message is delivered. -/
def DeliveryMode (h : History) (mode : String) : Prop :=
  ∃ receipt, durable h = some receipt ∧ receipt.get? "deliveryMode" = some (.str mode)

/-- `thread/resume`, answered with `resumed`. -/
def SendMessage.resumeReply (a : SendMessage) (resumed : Json) : Asked :=
  ("thread/resume", [("threadId", .str a.threadId), ("excludeTurns", .bool true)], .ok resumed)

/-- What `send_message_to_thread` has observed before a request. -/
inductive SendMessage.Allows (a : SendMessage) (h : History) : String → Prop
  | read : requests h = [] → Allows a h "thread/read"
  | resume (state : Json) : requests h = [readReply a.threadId state] → ¬ ReportsActive state →
      Allows a h "thread/resume"
  | active (state : Json) : requests h = [readReply a.threadId state] → ReportsActive state →
      DeliveryMode h "active_tool_output" → Allows a h "turn/start"
  | idle (state resumed : Json) :
      requests h = [readReply a.threadId state, a.resumeReply resumed] →
      ¬ ReportsActive state → resumed.getNone "approvalPolicy" = .ok (.str "never") →
      DeliveryMode h "idle_tool_output" → Allows a h "turn/start"

/-- `thread/goal/get`, answered with an object. -/
def ForkThread.goalReply (a : ForkThread) (goal : Dict) : Asked :=
  ("thread/goal/get", [("threadId", .str a.threadId)], .ok (.obj goal))

/-- What `fork_thread` has observed before a request. -/
inductive ForkThread.Allows (a : ForkThread) (h : History) : String → Prop
  | read : requests h = [] → Allows a h "thread/read"
  | goal (state : Json) : requests h = [readReply a.threadId state] → ReportsRetained state →
      Allows a h "thread/goal/get"
  | fork (state : Json) (goal : Dict) :
      requests h = [readReply a.threadId state, a.goalReply goal] → ReportsRetained state →
      goal.get? "goal" = some .null → Allows a h "thread/fork"

/-- What `set_thread_archived` has observed before a request. -/
inductive SetThreadArchived.Allows (a : SetThreadArchived) (h : History) : String → Prop
  | read : requests h = [] → a.archived = .bool true → Allows a h "thread/read"
  | archive (state : Json) : requests h = [readReply a.threadId state] →
      ¬ ReportsActive state → a.archived = .bool true →
      a.archiveSpawnedDescendants = .bool true → Allows a h "thread/archive"
  | unarchive : requests h = [] → a.archived = .bool false → Allows a h "thread/unarchive"

/-- What a tool has observed before a request to an existing thread. -/
def ToolCall.Allows (t : ToolCall) (h : History) (method : String) : Prop :=
  match t with
  | .sendMessageToThread a => a.Allows h method
  | .forkThread a => a.Allows h method
  | .setThreadArchived a => a.Allows h method
  | _ => True

/-- The condition at every request. -/
def AllowedAt (t : ToolCall) (h : History) (op : Op) : Prop :=
  ∀ method params, op = .call method params → t.Allows h method

/-- The history of a run, with `AllowedAt` at every operation. -/
abbrev AllowedSpec (t : ToolCall) : OpSpec Ans History := history (AllowedAt t)

/-! ## §2. Steps. -/

section Steps

variable {α β : Type} {t : ToolCall} {s : Dict} {h : History} {requestId : String}
variable {asks : List Asked} {mode : Option Json}

theorem requests_append (h : History) (e : Event Ans) :
    requests (h ++ [e]) = requests h ++ (asked e).toList := by
  unfold requests
  rw [List.filterMap_append]
  cases he : asked e <;> simp [he]

theorem allowedAt_of_ne {op : Op} (hop : ∀ method params, op ≠ .call method params) :
    AllowedAt t h op := fun method params he => absurd he (hop method params)

theorem allows_bind {c : Act α} {f : α → Act β} {P : α → Dict → History → Prop}
    {Q : β → Dict → History → Prop} (hc : Co.Leads (AllowedSpec t) c P s h)
    (hf : ∀ a s' h', P a s' h' → Co.Leads (AllowedSpec t) (f a) Q s' h') :
    Co.Leads (AllowedSpec t) (c >>= f) Q s h := hc.bind (observe_mono _ _) hf

theorem lenient_allowed (t : ToolCall) : Lenient (AllowedSpec t) where
  mono := observe_mono _ _
  now := fun _ => ⟨allowedAt_of_ne (by simp), fun _ => trivial⟩
  update := fun _ _ _ => ⟨allowedAt_of_ne (by simp), fun _ => trivial⟩

/-- Where an action stands: the requests so far, and the delivery mode its
receipt names. -/
structure Asking (requestId : String) (asks : List Asked) (mode : Option Json) (s : Dict)
    (h : History) : Prop where
  requests : requests h = asks
  key : s.get? "requestId" = some (.str requestId)
  mode : s.get? "deliveryMode" = mode

/-- The fields of an update that leave it there. -/
theorem Asking.update (ha : Asking requestId asks mode s h) {fields : Dict}
    (hid : "requestId" ∉ fields.keys) (hmode : "deliveryMode" ∉ fields.keys) :
    Asking requestId asks mode (s.update fields) h where
  requests := ha.requests
  key := by rw [Dict.get?_update_of_notMem fields s hid, ha.key]
  mode := by rw [Dict.get?_update_of_notMem fields s hmode, ha.mode]

/-- A request that is allowed; its reply is on record. -/
theorem allows_call (ha : Asking requestId asks mode s h) {method : String} (params : Dict)
    (hallows : t.Allows h method) :
    Co.Leads (AllowedSpec t) (Act.call method params)
      (fun reply s' h' => s' = s ∧
        Asking requestId (asks ++ [(method, params, .ok reply)]) mode s' h') s h := by
  show Co.wp _ _ _ _ _ _
  unfold Act.call
  rw [Act.wp_perform]
  refine ⟨fun method' params' he => ?_, fun r => ?_⟩
  · rw [← (Op.call.inj he).1]
    exact hallows
  · cases r with
    | error e => trivial
    | ok reply =>
        refine ⟨rfl, ?_, ha.key, ha.mode⟩
        show requests (h ++ [_]) = _
        rw [requests_append, ha.requests]
        rfl

/-- A save; the row then names the delivery mode of the receipt. -/
theorem allows_save (ha : Asking requestId asks mode s h) :
    Co.Leads (AllowedSpec t) saveReceipt
      (fun _ s' h' => s' = s ∧ Asking requestId asks mode s' h' ∧
        ∃ receipt, durable h' = some receipt ∧ receipt.get? "deliveryMode" = mode) s h := by
  show Co.wp _ _ _ _ _ _
  unfold saveReceipt
  rw [Co.wp_bind, Co.wp_get, wp_save ha.key]
  refine ⟨allowedAt_of_ne (by simp), fun time => ⟨allowedAt_of_ne (by simp), fun r => ?_⟩⟩
  cases r with
  | error f => trivial
  | ok _ =>
      refine ⟨rfl, ⟨?_, ha.key, ha.mode⟩, stamped s time, ?_, ?_⟩
      · show requests ((h ++ [_]) ++ [_]) = asks
        rw [requests_append, requests_append, ha.requests]
        simp [asked]
      · show durable ((h ++ [_]) ++ [_]) = _
        rw [durable_append]
        rfl
      · show (s.update [("updatedAt", .float time)]).get? "deliveryMode" = mode
        rw [Dict.get?_update_of_notMem _ _ (by simp [Dict.keys]), ha.mode]

/-- After the last guarded request nothing is asked of the rest, as long as
it makes no request. -/
theorem allows_silent {c : Act α}
    (hc : c.Only fun op => ∀ method params, op ≠ .call method params) :
    ∀ s h, Co.Leads (AllowedSpec t) c (fun _ _ _ => True) s h := by
  intro s h
  have hkeeps := hc.keeps (J := fun _ _ => True) (X := fun _ _ _ => True)
    (observe_mono remember (AllowedAt t))
    (fun op _ _ hop _ => ⟨allowedAt_of_ne hop, fun _ => trivial⟩) fun _ _ _ _ => trivial
  exact hkeeps s h trivial

theorem allows_close : Co.Leads (AllowedSpec t) Act.close (fun _ _ _ => True) s h :=
  allows_silent (Act.only_perform (by simp) _) s h

/-- Saving, where nothing more is asked. -/
theorem allows_saved : Co.Leads (AllowedSpec t) saveReceipt (fun _ _ _ => True) s h :=
  (lenient_allowed t).saveReceipt s h trivial

end Steps

/-! ## §3. The three actions. -/

section Actions

variable {s : Dict} {h : History} {requestId : String}

/-- The requests an active or an idle thread has cost so far. -/
theorem reportsActive_iff {state thread status : Json}
    (hthread : state.index "thread" = .ok thread) (hstatus : statusType thread = .ok status) :
    ReportsActive state ↔ status = .str "active" := by
  constructor
  · rintro ⟨thread', hthread', hactive⟩
    rw [hthread] at hthread'
    obtain rfl := Except.ok.inj hthread'
    rw [hstatus] at hactive
    exact Except.ok.inj hactive
  · rintro rfl
    exact ⟨thread, hthread, hstatus⟩

namespace SendMessage

variable {a : SendMessage} {asks : List Asked} {mode : String}

theorem allows_deliver (ha : Asking requestId asks (some (.str mode)) s h)
    (hallows : a.Allows h "turn/start") :
    Co.Leads (AllowedSpec (.sendMessageToThread a)) a.deliver (fun _ _ _ => True) s h := by
  unfold deliver
  refine allows_bind (allows_call ha _ hallows) fun turn s h _ => ?_
  exact Co.Leads.ofExcept_bind fun id _ => trivial

theorem allows_deliverActive {state : Json}
    (ha : Asking requestId [readReply a.threadId state] none s h) (hactive : ReportsActive state) :
    Co.Leads (AllowedSpec (.sendMessageToThread a)) a.deliverActive (fun _ _ _ => True) s h := by
  unfold deliverActive
  refine allows_bind (P := fun _ s' h' => Asking requestId [readReply a.threadId state]
    (some (.str "active_tool_output")) s' h') ⟨ha.requests, ?_, ?_⟩ fun _ s h ha => ?_
  · simp [Dict.get?_set, ha.key]
  · simp
  refine allows_bind (allows_save ha) ?_
  rintro _ s h ⟨-, ha, receipt, hdurable, hmode⟩
  have hallows : a.Allows h "turn/start" :=
    .active state ha.requests hactive ⟨receipt, hdurable, hmode⟩
  refine allows_bind (allows_deliver ha hallows) fun _ s h _ => ?_
  exact allows_bind allows_saved fun _ _ _ _ => allows_close

theorem allows_deliverIdle {state : Json}
    (ha : Asking requestId [readReply a.threadId state] none s h) (hidle : ¬ ReportsActive state) :
    Co.Leads (AllowedSpec (.sendMessageToThread a)) a.deliverIdle (fun _ _ _ => True) s h := by
  unfold deliverIdle
  refine allows_bind (P := fun _ s' h' => Asking requestId [readReply a.threadId state]
    (some (.str "idle_tool_output")) s' h') ⟨ha.requests, ?_, ?_⟩ fun _ s h ha => ?_
  · simp [Dict.get?_set, ha.key]
  · simp
  refine allows_bind (allows_save ha) ?_
  rintro _ s h ⟨-, ha, -⟩
  refine allows_bind (allows_call ha _ (SendMessage.Allows.resume state ha.requests hidle)) ?_
  rintro resumed s h ⟨-, ha⟩
  refine allows_bind (P := fun _ s' h' => Asking requestId _ _ s' h')
    (ha.update (by simp [Dict.keys]) (by simp [Dict.keys])) fun _ s h ha => ?_
  refine allows_bind (allows_save ha) ?_
  rintro _ s h ⟨-, ha, receipt, hdurable, hmode⟩
  refine Co.Leads.ofExcept_bind fun policy hpolicy => ?_
  split
  · trivial
  · rename_i hnever
    obtain rfl : policy = .str "never" := (Json.pyEq_str _ _).mp (by simpa using hnever)
    have hallows : a.Allows h "turn/start" :=
      .idle state resumed ha.requests hidle hpolicy ⟨receipt, hdurable, hmode⟩
    exact allows_bind (allows_deliver ha hallows) fun _ _ _ _ => allows_close

theorem allows_action (ha : Asking requestId [] none s h) :
    Co.Leads (AllowedSpec (.sendMessageToThread a)) a.action (fun _ _ _ => True) s h := by
  unfold action
  refine allows_bind (P := fun _ s' h' => Asking requestId [] none s' h')
    (ha.update (by simp [Dict.keys]) (by simp [Dict.keys])) fun _ s h ha => ?_
  refine allows_bind (allows_save ha) ?_
  rintro _ s h ⟨-, ha, -⟩
  refine allows_bind (allows_call ha _ (SendMessage.Allows.read ha.requests)) ?_
  rintro state s h ⟨-, ha⟩
  refine Co.Leads.ofExcept_bind fun thread hthread => ?_
  refine Co.Leads.ofExcept_bind fun status hstatus => ?_
  have hreports := reportsActive_iff hthread hstatus
  split
  · rename_i hactive
    exact allows_deliverActive ha (hreports.mpr ((Json.pyEq_str _ _).mp hactive))
  · rename_i hidle
    refine allows_deliverIdle ha fun hr => hidle ?_
    rw [hreports.mp hr]
    exact (Json.pyEq_str _ _).mpr rfl

end SendMessage

namespace ForkThread

variable {a : ForkThread}

theorem reportsRetained_of_unsuitable {state thread : Json}
    (hthread : state.index "thread" = .ok thread) (hsuitable : unsuitable thread = .ok false) :
    ReportsRetained state := by
  obtain ⟨status, hstatus, hrest⟩ := bind_eq_ok.mp hsuitable
  split at hrest
  · cases hrest
  · rename_i hidle
    obtain ⟨ephemeral, hephemeral, hfalse⟩ := bind_eq_ok.mp hrest
    refine ⟨thread, status, ephemeral, hthread, hstatus, ?_, hephemeral, Except.ok.inj hfalse⟩
    rintro rfl
    exact hidle ((Json.pyEq_str _ _).mpr rfl)

/-- Past the refusals the source has no goal. -/
theorem allows_refuseGoal {state : Json}
    (ha : Asking requestId [readReply a.threadId state] none s h) (hr : ReportsRetained state) :
    Co.Leads (AllowedSpec (.forkThread a)) a.refuseGoal (fun _ s' h' => ∃ goal : Dict,
      goal.get? "goal" = some .null ∧
      Asking requestId [readReply a.threadId state, a.goalReply goal] none s' h') s h := by
  unfold refuseGoal
  refine allows_bind (P := fun reply s' h' => Asking requestId
    [readReply a.threadId state, ("thread/goal/get", [("threadId", .str a.threadId)], .ok reply)]
    none s' h') ?_ fun reply s h ha => ?_
  · unfold goalState
    show Co.wp _ _ _ _ _ _
    rw [Co.wp_tryCatch]
    refine Co.wp_conseq (observe_mono _ _)
      (allows_call ha _ (ForkThread.Allows.goal state ha.requests hr)) ?_ ?_
    · rintro reply s' h' ⟨-, ha'⟩
      exact ha'
    · intro e s' h' _
      cases e <;> trivial
  · cases reply with
    | obj goal =>
        cases hgoal : Dict.get? goal "goal" with
        | none => simp only [reportedGoal, hgoal]; trivial
        | some v =>
            cases v with
            | null =>
                simp only [reportedGoal, hgoal]
                exact ⟨goal, hgoal, ha⟩
            | _ => simp only [reportedGoal, hgoal]; trivial
    | _ => trivial

theorem allows_action (ha : Asking requestId [] none s h) :
    Co.Leads (AllowedSpec (.forkThread a)) a.action (fun _ _ _ => True) s h := by
  unfold action
  refine allows_bind (allows_call ha _ (ForkThread.Allows.read ha.requests)) ?_
  rintro state s h ⟨-, ha⟩
  refine Co.Leads.ofExcept_bind fun source hsource => ?_
  refine Co.Leads.ofExcept_bind fun refused hrefused => ?_
  split
  · trivial
  rename_i hkept
  obtain rfl : refused = false := Bool.eq_false_of_not_eq_true hkept
  have hr := reportsRetained_of_unsuitable hsource hrefused
  refine allows_bind (allows_refuseGoal ha hr) ?_
  rintro _ s h ⟨goal, hgoal, ha⟩
  refine allows_bind (allows_call ha _ (ForkThread.Allows.fork state goal ha.requests hr hgoal)) ?_
  rintro fork s h ⟨-, ha⟩
  refine Co.Leads.ofExcept_bind fun id _ => ?_
  refine allows_bind (P := fun _ _ _ => True) trivial fun _ s h _ => ?_
  exact allows_bind allows_saved fun _ _ _ _ => allows_close

end ForkThread

namespace SetThreadArchived

variable {a : SetThreadArchived}

/-- Archiving was acknowledged to reach the spawned descendants. -/
theorem acknowledged (hcheck : a.check = .ok ()) (harchived : a.archived = .bool true) :
    a.archiveSpawnedDescendants = .bool true := by
  obtain ⟨archived, spawned, -, hspawned⟩ := flags_ok hcheck
  obtain ⟨_, -, hrest⟩ := bind_eq_ok.mp hcheck
  rw [harchived, hspawned] at hrest
  cases spawned with
  | true => exact hspawned
  | false => cases hrest

theorem allows_refuseBusy (ha : Asking requestId [] none s h)
    (harchived : a.archived = .bool true) :
    Co.Leads (AllowedSpec (.setThreadArchived a)) a.refuseBusy (fun _ s' h' => ∃ state,
      ¬ ReportsActive state ∧ Asking requestId [readReply a.threadId state] none s' h') s h := by
  unfold refuseBusy
  refine allows_bind (allows_call ha _ (SetThreadArchived.Allows.read ha.requests harchived)) ?_
  rintro state s h ⟨-, ha⟩
  refine Co.Leads.ofExcept_bind fun thread hthread => ?_
  refine Co.Leads.ofExcept_bind fun status hstatus => ?_
  have hreports := reportsActive_iff hthread hstatus
  split
  · trivial
  · rename_i hidle
    refine ⟨state, fun hr => hidle ?_, ha⟩
    rw [hreports.mp hr]
    exact (Json.pyEq_str _ _).mpr rfl

theorem allows_action (hcheck : a.check = .ok ()) (ha : Asking requestId [] none s h) :
    Co.Leads (AllowedSpec (.setThreadArchived a)) a.action (fun _ _ _ => True) s h := by
  obtain ⟨archived, _, harchived, -⟩ := flags_ok hcheck
  unfold action
  rw [harchived]
  cases archived with
  | false =>
      exact allows_bind (allows_call ha _
        (SetThreadArchived.Allows.unarchive ha.requests harchived)) fun _ _ _ _ => trivial
  | true =>
      refine allows_bind (allows_refuseBusy ha harchived) ?_
      rintro _ s h ⟨state, hidle, ha⟩
      exact allows_bind (allows_call ha _ (SetThreadArchived.Allows.archive state ha.requests
        hidle harchived (acknowledged hcheck harchived))) fun _ _ _ _ => trivial

end SetThreadArchived

/-! ## §4. Whole runs. -/

theorem ToolCall.allows_action (t : ToolCall) (hcheck : t.check = .ok ()) (cwd : String)
    (ha : Asking requestId [] none s h) :
    Co.Leads (AllowedSpec t) (t.action cwd) (fun _ _ _ => True) s h := by
  have others : ∀ {c : Act Unit}, (∀ h method, t.Allows h method) →
      Co.Leads (AllowedSpec t) c (fun _ _ _ => True) s h := by
    intro c hall
    exact wp_of_stable (P := fun _ => True) (fun h op _ method params _ => hall h method)
      (fun _ _ _ => trivial) _ trivial |> Interaction.wp_mono (observe_mono _ _) _
        (fun r h _ => by obtain ⟨e | a, s'⟩ := r <;> trivial) _
  cases t with
  | sendMessageToThread a => exact SendMessage.allows_action ha
  | forkThread a => exact ForkThread.allows_action ha
  | setThreadArchived a => exact SetThreadArchived.allows_action hcheck ha
  | _ => exact others fun _ _ => trivial

variable [Hashlib]

theorem ToolCall.allowed_run (t : ToolCall) (hcheck : t.check = .ok ()) (requestId : String) :
    Interaction.wp (AllowedSpec t) (t.prog requestId) (fun _ _ => True) [] := by
  have hΦ : Indifferent (AllowedSpec t) (fun h => requests h = []) := by
    refine ⟨observe_mono _ _, fun op h hop hh => ⟨allowedAt_of_ne ?_, fun r => ?_⟩⟩
    · rintro method params rfl
      cases hop
    · show requests (h ++ [_]) = []
      rw [requests_append, hh]
      cases op with
      | call method params => cases hop
      | _ => rfl
  refine hΦ.wp_tool (P := fun _ _ => True) t requestId rfl (fun _ _ _ => trivial)
    (fun _ _ _ => ⟨allowedAt_of_ne (by simp), fun _ => trivial⟩) ?_
  intro cwd fp startedAt h _ hh
  refine ⟨allowedAt_of_ne (by simp), fun r => ?_⟩
  have hquiet : ∀ r, requests (h ++ [⟨.beginRow requestId fp
      (Ledger.freshReceipt requestId t.method startedAt), r⟩]) = [] := by
    intro r
    rw [requests_append, hh]
    rfl
  rcases r with f | _ | row
  · exact hquiet _
  · refine (lenient_allowed t).attempt ⟨allowedAt_of_ne (by simp), fun _ => ?_⟩
    refine t.allows_action hcheck cwd ⟨?_, rfl, rfl⟩
    show requests (_ ++ [_]) = []
    rw [requests_append, hquiet]
    rfl
  · exact hquiet _

/-- **Guarded dispatch.**  Whatever was answered, and whatever failed: a
message, a fork or a change of archival state is requested only after the
requests whose replies allow it, and the row of a message says how it is
being delivered. -/
theorem ToolCall.dispatch_guarded (t : ToolCall) (requestId : String) {h : History}
    {rest : Residual Dict} {method : String} {params : Dict}
    (hrun : Run (t.prog requestId) h rest) (hop : rest.head? = some (.call method params)) :
    t.Allows h method := by
  cases hcheck : t.check with
  | error e =>
      have hret : t.prog requestId = .ret (.error e, []) := by
        unfold ToolCall.prog ToolCall.run
        rw [hcheck]
        rfl
      rw [hret] at hrun
      rw [hrun.ret_inv.2] at hop
      cases hop
  | ok _ =>
      have hat := wp_run_head (t.allowed_run hcheck requestId) hrun hop
      rw [foldl_remember, List.nil_append] at hat
      exact hat method params rfl

end Actions

/-- A server with an idle thread that asks for no approvals. -/
def idleSite : (op : Op) → Ans op
  | .call method _ => .ok (.obj (
      if method = "thread/resume" then [("approvalPolicy", .str "never")]
      else [("thread", .obj [("status", .obj [("type", .str "idle")])])]))
  | op => launchSite op

/-- There a message gets as far as its dispatch. -/
theorem ToolCall.dispatch_guarded_send :
    let _ := Hashlib.verbatim
    ∃ (h : History) (rest : Residual Dict) (params : Dict),
      Run ((ToolCall.sendMessageToThread ⟨"t", "hi"⟩).prog "r") h rest ∧
      rest.head? = some (.call "turn/start" params) ∧
      (ToolCall.sendMessageToThread ⟨"t", "hi"⟩).Allows h "turn/start" := by
  intro _
  have hrun := Run.follow (fun _ => idleSite) 13
    (Run.start (p := (ToolCall.sendMessageToThread ⟨"t", "hi"⟩).prog "r"))
  have hturn : (((ToolCall.sendMessageToThread ⟨"t", "hi"⟩).prog "r").follow
      (fun _ => idleSite) 13 []).2.head?.any (Op.requests "turn/start") = true := by
    decide +kernel
  obtain ⟨op, hhead, hop⟩ := (Option.any_eq_true _ _).mp hturn
  obtain ⟨params, rfl⟩ := Op.of_requests hop
  exact ⟨_, _, params, hrun, hhead, ToolCall.dispatch_guarded _ _ hrun hhead⟩

end CodexRemoteBridge
