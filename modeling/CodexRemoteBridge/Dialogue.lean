/-
  CodexRemoteBridge.Dialogue — what each tool has to say to the App Server.

  Seen from the server a tool is a short dialogue: its requests with their
  parameters, and what it goes on with after each reply.  §1 writes the six
  dialogues down, without receipts, checkpoints, worktrees or connections.
  The rest shows that a tool says no more than its dialogue, in its order,
  and that a receipt is accepted only when the dialogue is at its end.

  Main results: `ToolCall.dialogue_run`, `System.converses`.
-/
import CodexRemoteBridge.Paging
import CodexRemoteBridge.Placement

namespace CodexRemoteBridge

open Interaction

/-! ## §1. The six dialogues. -/

/-- A request to the App Server. -/
structure Request where
  method : String
  params : Dict

/-- What a request comes to. -/
abbrev Response (_ : Request) : Type := Except PyExc Json

/-- How a dialogue ends. -/
inductive Ending where
  | complete
  | refused

/-- Requests, and what follows on each reply. -/
abbrev Dialogue : Type := Prog Request Response Ending

namespace Dialogue

/-- A request.  One that fails ends the dialogue: nothing is sent again. -/
def ask (method : String) (params : Dict) (next : Json → Dialogue) : Dialogue :=
  .op ⟨method, params⟩ fun
    | .ok reply => next reply
    | .error _ => .ret .refused

/-- Go on with what was read off a reply. -/
def given {α : Type} (value : Except PyExc α) (next : α → Dialogue) : Dialogue :=
  match value with
  | .ok a => next a
  | .error _ => .ret .refused

/-- Go on where a reply is as it should be. -/
def provided (holds : Bool) (next : Dialogue) : Dialogue :=
  if holds then next else .ret .refused

/-- The project, if one was given, is looked up first. -/
def askProject : Option String → Dialogue → Dialogue
  | none, next => next
  | some project, next => ask "project/read" [("projectId", .str project)] fun _ => next

/-- The new thread gets its title, if one was given. -/
def askTitle (threadId : Json) : Option String → Dialogue → Dialogue
  | none, next => next
  | some title, next =>
      ask "thread/name/set" [("threadId", threadId), ("name", .str title)] fun _ => next

/-- A turn that carries the output of `tool`, the last request. -/
def askTurn (threadId : Json) (tool output : String) : Dialogue :=
  ask "turn/start" (toolOutputTurn threadId tool output) fun turn =>
    given (index2 "turn" "id" turn) fun _ => .ret .complete

/-- The initial prompt, if one was given. -/
def askPrompt (threadId : Json) (tool : String) : Option String → Dialogue
  | none => .ret .complete
  | some prompt => askTurn threadId tool prompt

end Dialogue

open Dialogue

/-- The created environment is the one that was asked for. -/
def CreateThread.agrees (a : CreateThread) (cwd : String) (created : Json) :
    Except PyExc Bool := do
  let actual ← actualSandbox created
  let expected ← a.expectedSandbox
  let mismatch ← differs cwd expected created actual
  .ok !mismatch

/-- Start a thread in the resolved directory; name it and dispatch the prompt
where its environment is the one asked for. -/
def CreateThread.dialogue (a : CreateThread) (cwd : String) : Dialogue :=
  askProject a.appServerProjectId <|
    ask "thread/start" (a.launchParams cwd) fun created =>
      given (index2 "thread" "id" created) fun threadId =>
        given (a.agrees cwd created) fun agrees =>
          provided agrees <|
            askTitle threadId a.title <| askPrompt threadId "create_thread" a.prompt

/-- The worktree a launch asks for. -/
def CreateWorktreeThread.asked (a : CreateWorktreeThread) : Worktree where
  source := .ofString a.sourceRepository
  destination := .ofString a.destination
  revision := a.startingRevision
  commonDir := .ofString ""

/-- The same in a new worktree, whose directory is that of the request. -/
def CreateWorktreeThread.dialogue (a : CreateWorktreeThread) : Dialogue :=
  askProject a.appServerProjectId <|
    ask "thread/start" (a.launch a.asked) fun created =>
      given (index2 "thread" "id" created) fun threadId =>
        given (a.differs a.asked created) fun differs =>
          provided (!differs) <|
            askTitle threadId a.title <| askPrompt threadId "create_worktree_thread" a.prompt

/-- The type of the status a `thread/read` reports. -/
def readStatus (state : Json) : Except PyExc Json := do
  let thread ← state.index "thread"
  statusType thread

/-- Look at the thread; resume it unless it is active; deliver the message. -/
def SendMessage.dialogue (a : SendMessage) : Dialogue :=
  let deliver := askTurn (.str a.threadId) "send_message_to_thread" a.message
  ask "thread/read" [("threadId", .str a.threadId)] fun state =>
    given (readStatus state) fun status =>
      if status.pyEq (.str "active") then deliver
      else
        ask "thread/resume" [("threadId", .str a.threadId), ("excludeTurns", .bool true)]
          fun resumed =>
            given (resumed.getNone "approvalPolicy") fun policy =>
              provided (policy.pyEq (.str "never")) deliver

/-- The source of a fork can be forked. -/
def ForkThread.suitable (state : Json) : Except PyExc Bool := do
  let source ← state.index "thread"
  let refused ← unsuitable source
  .ok !refused

/-- Look at the thread and at its goal; fork it if it is inactive, retained
and has no goal. -/
def ForkThread.dialogue (a : ForkThread) : Dialogue :=
  ask "thread/read" [("threadId", .str a.threadId)] fun state =>
    given (ForkThread.suitable state) fun suitable =>
      provided suitable <|
        ask "thread/goal/get" [("threadId", .str a.threadId)] fun goalState =>
          provided (reportedGoal goalState matches some .null) <|
            ask "thread/fork"
              [("threadId", .str a.threadId), ("excludeTurns", .bool true),
               ("deferGoalContinuation", .bool true)] fun fork =>
                given (index2 "thread" "id" fork) fun _ => .ret .complete

/-- Set the title. -/
def SetThreadTitle.dialogue (a : SetThreadTitle) : Dialogue :=
  ask "thread/name/set" [("threadId", .str a.threadId), ("name", .str a.title)] fun _ =>
    .ret .complete

/-- Unarchive the thread, or look at it and archive it if it is not active. -/
def SetThreadArchived.dialogue (a : SetThreadArchived) : Dialogue :=
  if a.archived.truthy then
    ask "thread/read" [("threadId", .str a.threadId)] fun state =>
      given (readStatus state) fun status =>
        provided (!status.pyEq (.str "active")) <|
          ask "thread/archive" [("threadId", .str a.threadId)] fun _ => .ret .complete
  else ask "thread/unarchive" [("threadId", .str a.threadId)] fun _ => .ret .complete

/-- The dialogue of a tool, with the directory a `create_thread` resolved. -/
def ToolCall.dialogue : ToolCall → String → Dialogue
  | .createThread a, cwd => a.dialogue cwd
  | .createWorktreeThread a, _ => a.dialogue
  | .sendMessageToThread a, _ => a.dialogue
  | .forkThread a, _ => a.dialogue
  | .setThreadTitle a, _ => a.dialogue
  | .setThreadArchived a, _ => a.dialogue

/-! ## §2. Telling. -/

/-- The request an event is, with what it came to. -/
def replied : Event Ans → Option (Event Response)
  | ⟨.call method params, r⟩ => some ⟨⟨method, params⟩, r⟩
  | _ => none

/-- The requests of a history, in order, with what they came to. -/
def replies (h : History) : List (Event Response) := h.filterMap replied

/-- The row is accepted. -/
def Accepts : Event Ans → Prop
  | ⟨.update _ receipt, _⟩ => receipt.get? "status" = some (.str "accepted")
  | _ => False

/-- The condition at every operation: a request is what the dialogue has
next, before anything is accepted; and what is accepted has been said. -/
def TellsAt (t : ToolCall) (h : History) : Op → Prop
  | .call method params => ∃ cwd k, t.Resolved cwd h ∧
      Run (t.dialogue cwd) (replies h) (.op ⟨method, params⟩ k) ∧ ∀ e ∈ h, ¬ Accepts e
  | .update _ receipt => receipt.get? "status" = some (.str "accepted") →
      ∃ cwd, t.Resolved cwd h ∧ Run (t.dialogue cwd) (replies h) (.ret .complete)
  | _ => True

/-- The history of a run, with `TellsAt` at every operation. -/
abbrev TellSpec (t : ToolCall) : OpSpec Ans History := history (TellsAt t)

/-- Where an action stands in its dialogue. -/
structure Telling (t : ToolCall) (cwd : String) (rest : Dialogue) (s : Dict) (h : History) :
    Prop where
  resolved : t.Resolved cwd h
  said : Run (t.dialogue cwd) (replies h) rest
  undecided : ∀ e ∈ h, ¬ Accepts e
  status : s.get? "status" = some (.str "in_progress_or_unknown")

section Steps

variable {α β : Type} {t : ToolCall} {cwd : String} {rest : Dialogue} {s : Dict} {h : History}

theorem replies_append (h : History) (e : Event Ans) :
    replies (h ++ [e]) = replies h ++ (replied e).toList := by
  unfold replies
  rw [List.filterMap_append]
  cases he : replied e <;> simp [he]

/-- What neither asks nor accepts leaves the dialogue where it is. -/
theorem Telling.append (hs : Telling t cwd rest s h) {e : Event Ans} (hreplied : replied e = none)
    (haccepts : ¬ Accepts e) : Telling t cwd rest s (h ++ [e]) where
  resolved := hs.resolved.mono (List.subset_append_left _ _)
  said := by
    rw [replies_append, hreplied, Option.toList_none, List.append_nil]
    exact hs.said
  undecided := by
    intro e' he'
    rcases List.mem_append.mp he' with he' | he'
    · exact hs.undecided e' he'
    · rw [List.mem_singleton.mp he']
      exact haccepts
  status := hs.status

theorem tell_bind {c : Act α} {f : α → Act β} {P : α → Dict → History → Prop}
    {Q : β → Dict → History → Prop} (hc : Co.Leads (TellSpec t) c P s h)
    (hf : ∀ a s' h', P a s' h' → Co.Leads (TellSpec t) (f a) Q s' h') :
    Co.Leads (TellSpec t) (c >>= f) Q s h := hc.bind (observe_mono _ _) hf

/-- The next request of the dialogue. -/
theorem tell_ask {method : String} {params : Dict} {next : Json → Dialogue}
    (hs : Telling t cwd (ask method params next) s h) :
    Co.Leads (TellSpec t) (Act.call method params)
      (fun reply s' h' => s' = s ∧ Telling t cwd (next reply) s' h') s h := by
  show Co.wp _ _ _ _ _ _
  unfold Act.call
  rw [Act.wp_perform]
  refine ⟨⟨cwd, _, hs.resolved, hs.said, hs.undecided⟩, fun r => ?_⟩
  cases r with
  | error e => trivial
  | ok reply =>
      have hsaid : Run (t.dialogue cwd) (replies h ++ [⟨⟨method, params⟩, .ok reply⟩])
          (next reply) := .step (.ok reply) hs.said
      refine ⟨rfl, hs.resolved.mono (List.subset_append_left _ _), ?_, ?_, hs.status⟩
      · show Run _ (replies (h ++ [_])) _
        rw [replies_append]
        exact hsaid
      · intro e he
        rcases List.mem_append.mp he with he | he
        · exact hs.undecided e he
        · rw [List.mem_singleton.mp he]
          exact id

/-- What is neither a request nor a receipt is not told. -/
theorem tellsAt_aside {op : Op} (hop : op.isActing = true ∨ op.isPreparatory = true) :
    TellsAt t h op ∧ ∀ r : Ans op, replied ⟨op, r⟩ = none ∧ ¬ Accepts ⟨op, r⟩ := by
  cases op with
  | call method params => rcases hop with hop | hop <;> cases hop
  | update key receipt => rcases hop with hop | hop <;> cases hop
  | _ => exact ⟨trivial, fun _ => ⟨rfl, id⟩⟩

/-- Between its requests an action stays where it is in the dialogue, and
keeps what `R` says of its receipt. -/
theorem hosts_telling (keys : String → Prop) (R : Dict → Prop)
    (hkeys : ∀ key, keys key → key ∉ headKeys)
    (hR : ∀ fields s, (∀ key ∈ fields.keys, keys key) → R s → R (s.update fields)) :
    Hosts (TellSpec t) keys (fun _ => False) (fun s h => Telling t cwd rest s h ∧ R s)
      (fun _ _ _ => True) where
  mono := observe_mono _ _
  act := by
    rintro op s h hop ⟨hs, hr⟩
    obtain ⟨htells, hquiet⟩ := tellsAt_aside (t := t) (h := h) (.inl hop)
    exact ⟨htells, fun r => ⟨hs.append (hquiet r).1 (hquiet r).2, hr⟩⟩
  update := by
    rintro key updatedAt s h - ⟨hs, hr⟩
    have hstatus : (stamped s updatedAt).get? "status"
        = some (.str "in_progress_or_unknown") := by
      rw [stamped, Dict.get?_update_of_notMem _ _ (by simp [Dict.keys]), hs.status]
    refine ⟨fun haccepted => ?_, fun r => ⟨hs.append rfl fun haccepted => ?_, hr⟩⟩
    · rw [hstatus] at haccepted
      simp at haccepted
    · have haccepted : (stamped s updatedAt).get? "status" = some (.str "accepted") := haccepted
      rw [hstatus] at haccepted
      simp at haccepted
  fields := by
    rintro fields s h hfields ⟨hs, hr⟩
    refine ⟨⟨hs.resolved, hs.said, hs.undecided, ?_⟩, hR fields s hfields hr⟩
    rw [Dict.get?_update_of_notMem fields s fun hmem => hkeys _ (hfields _ hmem) ?_, hs.status]
    simp [headKeys]
  call := fun _ _ _ _ hmethod => hmethod.elim
  close := by
    rintro s h ⟨hs, hr⟩
    refine ⟨trivial, fun r => ?_⟩
    cases r with
    | error e => trivial
    | ok _ => exact ⟨hs.append rfl id, hr⟩
  own := fun _ _ _ _ => trivial
  goal := fun _ _ _ _ _ => trivial

/-- The same with nothing to keep. -/
theorem hosts_tell : Hosts (TellSpec t) (fun key => key ∉ headKeys) (fun _ => False)
    (fun s h => Telling t cwd rest s h ∧ True) (fun _ _ _ => True) :=
  hosts_telling _ (fun _ => True) (fun _ hkey => hkey) fun _ _ _ _ => trivial

/-- The same while the receipt names the thread. -/
theorem hosts_tellThread (threadId : Json) :
    Hosts (TellSpec t) (fun key => key ∉ headKeys ∧ key ≠ "threadId") (fun _ => False)
      (fun s h => Telling t cwd rest s h ∧ s.get? "threadId" = some threadId)
      (fun _ _ _ => True) := by
  refine hosts_telling _ _ (fun _ hkey => hkey.1) fun fields s hfields hs => ?_
  rw [Dict.get?_update_of_notMem fields s fun hmem => (hfields _ hmem).2 rfl, hs]

/-- A part of an action that asks nothing. -/
theorem tell_quiet {c : Act α} (hc : ∀ {Φ : OpSpec Ans History} {J : Dict → History → Prop},
      Hosts Φ (fun key => key ∉ headKeys) (fun _ => False) J (fun _ _ _ => True) →
      Fills Φ J (fun _ _ _ => True) c) (hs : Telling t cwd rest s h) :
    Co.Leads (TellSpec t) c (fun _ s' h' => Telling t cwd rest s' h') s h :=
  Co.Leads.conseq (observe_mono _ _) (hc hosts_tell s h ⟨hs, trivial⟩) fun _ _ _ hs => hs.1

theorem tell_update {fields : Dict} (hfields : ∀ key ∈ fields.keys, key ∉ headKeys)
    (hs : Telling t cwd rest s h) :
    Co.Leads (TellSpec t) (updateReceipt fields) (fun _ s' h' => Telling t cwd rest s' h') s h :=
  tell_quiet (fun hosts => hosts.updateReceipt hfields) hs

theorem tell_save (hs : Telling t cwd rest s h) :
    Co.Leads (TellSpec t) saveReceipt (fun _ s' h' => Telling t cwd rest s' h') s h :=
  tell_quiet (fun hosts => hosts.saveReceipt) hs

theorem tell_close (hs : Telling t cwd rest s h) :
    Co.Leads (TellSpec t) Act.close (fun _ s' h' => Telling t cwd rest s' h') s h :=
  tell_quiet (fun hosts => hosts.closes) hs

/-- A checkpoint whose fields name the thread. -/
theorem tell_learn {phase : String} {fields : Dict} {threadId : Json}
    (hs : Telling t cwd rest s h)
    (hthread : (s.update (("phase", .str phase) :: fields)).get? "threadId" = some threadId)
    (hstatus : (s.update (("phase", .str phase) :: fields)).get? "status" = s.get? "status") :
    Co.Leads (TellSpec t) (checkpoint phase fields) (fun _ s' h' => Telling t cwd rest s' h' ∧
      s'.get? "threadId" = some threadId) s h := by
  unfold checkpoint
  refine tell_bind (P := fun _ s' h' => Telling t cwd rest s' h' ∧
    s'.get? "threadId" = some threadId) ?_ fun _ s h hs => ?_
  · exact ⟨⟨hs.resolved, hs.said, hs.undecided, hstatus.trans hs.status⟩, hthread⟩
  · exact tell_bind ((hosts_tellThread threadId).saveReceipt s h hs) fun _ _ _ hs => hs

theorem Telling.given {value : Except PyExc α} {next : α → Dialogue} {a : α}
    (hs : Telling t cwd (given value next) s h) (hvalue : value = .ok a) :
    Telling t cwd (next a) s h := by
  subst hvalue
  exact hs

theorem Telling.provided {holds : Bool} {next : Dialogue}
    (hs : Telling t cwd (provided holds next) s h) (hholds : holds = true) :
    Telling t cwd next s h := by
  subst hholds
  exact hs

end Steps

/-! ## §3. The six actions. -/

section Actions

variable {t : ToolCall} {cwd : String} {rest : Dialogue} {s : Dict} {h : History}

theorem SetThreadTitle.tells_action {a : SetThreadTitle} (hs : Telling t cwd a.dialogue s h) :
    Co.Leads (TellSpec t) a.action (fun _ s' h' => Telling t cwd (.ret .complete) s' h') s h := by
  unfold action
  refine tell_bind (tell_ask hs) ?_
  rintro _ s h ⟨-, hs⟩
  exact tell_update (by simp [Dict.keys, headKeys]) hs

theorem readStatus_ok {state thread status : Json} (hthread : state.index "thread" = .ok thread)
    (hstatus : statusType thread = .ok status) : readStatus state = .ok status := by
  unfold readStatus
  rw [hthread]
  exact hstatus

theorem SetThreadArchived.tells_action {a : SetThreadArchived}
    (hs : Telling t cwd a.dialogue s h) :
    Co.Leads (TellSpec t) a.action (fun _ s' h' => Telling t cwd (.ret .complete) s' h') s h := by
  -- both branches end with the one request
  have hlast : ∀ {method : String} {s : Dict} {h : History},
      Telling t cwd (ask method [("threadId", .str a.threadId)] fun _ => .ret .complete) s h →
      Co.Leads (TellSpec t) (do
          let _ ← Act.call method [("threadId", .str a.threadId)]
          updateReceipt [("threadId", .str a.threadId), ("archived", a.archived)])
        (fun _ s' h' => Telling t cwd (.ret .complete) s' h') s h := by
    intro method s h hs
    refine tell_bind (tell_ask hs) ?_
    rintro _ s h ⟨-, hs⟩
    exact tell_update (by simp [Dict.keys, headKeys]) hs
  unfold SetThreadArchived.dialogue at hs
  unfold action
  by_cases harchived : a.archived.truthy = true
  · rw [if_pos harchived] at hs
    simp only [if_pos harchived]
    refine tell_bind (P := fun _ s' h' => Telling t cwd
      (ask "thread/archive" [("threadId", .str a.threadId)] fun _ => .ret .complete) s' h') ?_
      fun _ _ _ hs => hlast hs
    unfold refuseBusy
    refine tell_bind (tell_ask hs) ?_
    rintro state s h ⟨-, hs⟩
    refine Co.Leads.ofExcept_bind fun thread hthread => ?_
    refine Co.Leads.ofExcept_bind fun status hstatus => ?_
    have hs := hs.given (readStatus_ok hthread hstatus)
    split
    · trivial
    · rename_i hidle
      exact hs.provided (by simpa using hidle)
  · rw [if_neg harchived] at hs
    simp only [if_neg harchived]
    exact hlast hs

namespace SendMessage

variable {a : SendMessage}

theorem tells_deliver
    (hs : Telling t cwd (askTurn (.str a.threadId) "send_message_to_thread" a.message) s h) :
    Co.Leads (TellSpec t) a.deliver (fun _ s' h' => Telling t cwd (.ret .complete) s' h') s h := by
  unfold deliver
  refine tell_bind (tell_ask hs) ?_
  rintro turn s h ⟨-, hs⟩
  refine Co.Leads.ofExcept_bind fun id hid => ?_
  exact tell_update (by simp [Dict.keys, headKeys]) (hs.given hid)

theorem tells_action (hs : Telling t cwd a.dialogue s h) :
    Co.Leads (TellSpec t) a.action (fun _ s' h' => Telling t cwd (.ret .complete) s' h') s h := by
  unfold action
  refine tell_bind (tell_update (by simp [Dict.keys, headKeys]) hs) fun _ s h hs => ?_
  refine tell_bind (tell_save hs) fun _ s h hs => ?_
  refine tell_bind (tell_ask hs) ?_
  rintro state s h ⟨-, hs⟩
  refine Co.Leads.ofExcept_bind fun thread hthread => ?_
  refine Co.Leads.ofExcept_bind fun status hstatus => ?_
  have hs := hs.given (readStatus_ok hthread hstatus)
  by_cases hactive : status.pyEq (.str "active") = true
  · rw [if_pos hactive] at hs ⊢
    unfold deliverActive
    refine tell_bind (tell_update (by simp [Dict.keys, headKeys]) hs) fun _ s h hs => ?_
    refine tell_bind (tell_save hs) fun _ s h hs => ?_
    refine tell_bind (tells_deliver hs) fun _ s h hs => ?_
    exact tell_bind (tell_save hs) fun _ s h hs => tell_close hs
  · rw [if_neg hactive] at hs ⊢
    unfold deliverIdle
    refine tell_bind (tell_update (by simp [Dict.keys, headKeys]) hs) fun _ s h hs => ?_
    refine tell_bind (tell_save hs) fun _ s h hs => ?_
    refine tell_bind (tell_ask hs) ?_
    rintro resumed s h ⟨-, hs⟩
    refine tell_bind (tell_update (by simp [Dict.keys, headKeys]) hs) fun _ s h hs => ?_
    refine tell_bind (tell_save hs) fun _ s h hs => ?_
    refine Co.Leads.ofExcept_bind fun policy hpolicy => ?_
    have hs := hs.given hpolicy
    split
    · trivial
    · rename_i hnever
      have hs := hs.provided (by simpa using hnever)
      exact tell_bind (tells_deliver hs) fun _ s h hs => tell_close hs

end SendMessage

namespace ForkThread

variable {a : ForkThread}

theorem tells_refuseGoal {next : Dialogue}
    (hs : Telling t cwd (ask "thread/goal/get" [("threadId", .str a.threadId)] fun goalState =>
      provided (reportedGoal goalState matches some .null) next) s h) :
    Co.Leads (TellSpec t) a.refuseGoal (fun _ s' h' => Telling t cwd next s' h') s h := by
  unfold refuseGoal
  refine tell_bind (P := fun goalState s' h' => Telling t cwd
    (provided (reportedGoal goalState matches some .null) next) s' h') ?_ fun goalState s h hs => ?_
  · unfold goalState
    show Co.wp _ _ _ _ _ _
    rw [Co.wp_tryCatch]
    refine Co.wp_conseq (observe_mono _ _) (tell_ask hs) ?_ ?_
    · rintro reply s' h' ⟨-, hs⟩
      exact hs
    · intro e s' h' _
      cases e <;> trivial
  · split
    · trivial
    · rename_i hgoal
      exact hs.provided (by rw [hgoal])
    · trivial

theorem tells_action (hs : Telling t cwd a.dialogue s h) :
    Co.Leads (TellSpec t) a.action (fun _ s' h' => Telling t cwd (.ret .complete) s' h') s h := by
  unfold action
  refine tell_bind (tell_ask hs) ?_
  rintro state s h ⟨-, hs⟩
  refine Co.Leads.ofExcept_bind fun source hsource => ?_
  refine Co.Leads.ofExcept_bind fun refused hrefused => ?_
  have hsuitable : suitable state = .ok !refused := by
    unfold suitable
    rw [hsource]
    show (unsuitable source >>= fun refused => Except.ok !refused) = _
    rw [hrefused]
    rfl
  have hs := hs.given hsuitable
  split
  · trivial
  rename_i hfree
  have hs := hs.provided (by simpa using hfree)
  refine tell_bind (tells_refuseGoal hs) fun _ s h hs => ?_
  refine tell_bind (tell_ask hs) ?_
  rintro fork s h ⟨-, hs⟩
  refine Co.Leads.ofExcept_bind fun forkId hid => ?_
  refine tell_bind (tell_update (by simp [Dict.keys, headKeys]) (hs.given hid)) fun _ s h hs => ?_
  exact tell_bind (tell_save hs) fun _ s h hs => tell_close hs

end ForkThread

/-- Looking up the project, where one was given. -/
theorem tell_project {project : Option String} {next : Dialogue}
    (hs : Telling t cwd (askProject project next) s h) :
    Co.Leads (TellSpec t) (whenGiven project fun project => do
        let _ ← Act.call "project/read" [("projectId", .str project)]
        pure ())
      (fun _ s' h' => Telling t cwd next s' h') s h := by
  cases project with
  | none => exact hs
  | some project =>
      refine tell_bind (tell_ask hs) ?_
      rintro _ s h ⟨-, hs⟩
      exact hs

theorem CreateThread.tells_action {a : CreateThread} {directory : String}
    (hs : Telling t cwd (a.dialogue directory) s h) :
    Co.Leads (TellSpec t) (a.action directory)
      (fun _ s' h' => Telling t cwd (.ret .complete) s' h') s h := by
  unfold action
  refine tell_bind (tell_project hs) fun _ s h hs => ?_
  refine tell_bind (tell_ask hs) ?_
  rintro created s h ⟨-, hs⟩
  refine Co.Leads.ofExcept_bind fun threadId hid => ?_
  refine tell_bind (tell_update (by simp [Dict.keys, headKeys]) (hs.given hid)) fun _ s h hs => ?_
  refine tell_bind (tell_save hs) fun _ s h hs => ?_
  refine Co.Leads.ofExcept_bind fun actual hactual => ?_
  refine Co.Leads.ofExcept_bind fun expected hexpected => ?_
  refine Co.Leads.ofExcept_bind fun mismatch hdiffers => ?_
  have hagrees : a.agrees directory created = .ok !mismatch := by
    unfold agrees
    rw [hactual]
    show (a.expectedSandbox >>= fun expected =>
      differs directory expected created actual >>= fun mismatch => Except.ok !mismatch) = _
    rw [hexpected]
    show (differs directory expected created actual >>= fun mismatch => Except.ok !mismatch) = _
    rw [hdiffers]
    rfl
  have hs := hs.given hagrees
  split
  · trivial
  rename_i hsame
  have hs := hs.provided (by simpa using hsame)
  refine tell_bind (P := fun _ s' h' => Telling t cwd
    (askPrompt threadId "create_thread" a.prompt) s' h') ?_ fun _ s h hs => ?_
  · cases htitle : a.title with
    | none =>
        rw [htitle] at hs
        exact hs
    | some title =>
        rw [htitle] at hs
        refine tell_bind (tell_ask hs) ?_
        rintro _ s h ⟨-, hs⟩
        refine tell_bind (tell_update (by simp [Dict.keys, headKeys]) hs) fun _ s h hs => ?_
        exact tell_bind (tell_save hs) fun _ s h hs => hs
  refine tell_bind (P := fun _ s' h' => Telling t cwd (.ret .complete) s' h') ?_
    fun _ s h hs => tell_update (by simp [Dict.keys, headKeys]) hs
  cases hprompt : a.prompt with
  | none =>
      rw [hprompt] at hs
      exact hs
  | some prompt =>
      rw [hprompt] at hs
      refine tell_bind (tell_ask hs) ?_
      rintro turn s h ⟨-, hs⟩
      refine Co.Leads.ofExcept_bind fun turnId hid => ?_
      exact tell_update (by simp [Dict.keys, headKeys]) (hs.given hid)

namespace CreateWorktreeThread

variable {a : CreateWorktreeThread} {w : Worktree}

/-- What is requested of the server depends on where the worktree is. -/
theorem launch_asked (hw : w.destination = PyPath.ofString a.destination) :
    a.launch w = a.launch a.asked := by
  unfold launch
  rw [hw]
  rfl

theorem differs_asked (hw : w.destination = PyPath.ofString a.destination) (created : Json) :
    a.differs w created = a.differs a.asked created := by
  unfold differs
  rw [hw]
  rfl

theorem tell_canonicalPath (hs : Telling t cwd rest s h) (value name : String) :
    Co.Leads (TellSpec t) (canonicalPath value name)
      (fun path s' h' => path = PyPath.ofString value ∧ Telling t cwd rest s' h') s h := by
  unfold canonicalPath
  dsimp only
  split
  · trivial
  refine tell_bind (tell_quiet (fun hosts => hosts.looks (looks_resolve _)) hs)
    fun resolved s h hs => ?_
  split
  · trivial
  · exact ⟨rfl, hs⟩

theorem tell_validate (hs : Telling t cwd rest s h) (source revision destination : String) :
    Co.Leads (TellSpec t) (Worktree.validate source revision destination) (fun w s' h' =>
      w.destination = PyPath.ofString destination ∧ Telling t cwd rest s' h') s h := by
  unfold Worktree.validate
  refine tell_bind (tell_canonicalPath hs _ _) ?_
  rintro _ s h ⟨rfl, hs⟩
  refine tell_bind (tell_canonicalPath hs _ _) ?_
  rintro _ s h ⟨rfl, hs⟩
  refine tell_bind (tell_quiet (fun hosts => hosts.looks (looks_isDir _)) hs) fun isDir s h hs => ?_
  split
  · trivial
  split
  · trivial
  refine tell_bind (tell_quiet (fun hosts => hosts.git _ _) hs) fun root s h hs => ?_
  split
  · trivial
  refine tell_bind (tell_quiet (fun hosts => hosts.git _ _) hs) fun kind s h hs => ?_
  split
  · trivial
  refine tell_bind (tell_quiet (fun hosts => hosts.git _ _) hs) fun commonText s h hs => ?_
  refine tell_bind (tell_quiet (fun hosts => hosts.looks (Worktree.looks_unusable _)) hs)
    fun bad s h hs => ?_
  split
  · trivial
  refine tell_bind (tell_quiet (fun hosts => hosts.looks (Worktree.looks_refuseRepositories _)) hs)
    fun _ s h hs => ?_
  refine tell_bind (tell_quiet (fun hosts => hosts.git _ _) hs) fun worktrees s h hs => ?_
  refine tell_bind (tell_quiet (fun hosts => hosts.looks (Worktree.looks_insideAny _ _)) hs)
    fun inside s h hs => ?_
  split
  · trivial
  refine tell_bind (tell_quiet (fun hosts => hosts.looks (looks_resolveThread _)) hs)
    fun commonDir s h hs => ?_
  exact ⟨rfl, hs⟩

theorem tells_prepare {next : Dialogue}
    (hs : Telling t cwd (askProject a.appServerProjectId next) s h) :
    Co.Leads (TellSpec t) a.prepare (fun w s' h' =>
      w.destination = PyPath.ofString a.destination ∧ Telling t cwd next s' h') s h := by
  have hcheckpoint : ∀ {rest : Dialogue} (phase : String) {s h}, Telling t cwd rest s h →
      Co.Leads (TellSpec t) (checkpoint phase []) (fun _ s' h' => Telling t cwd rest s' h') s h :=
    fun phase s h hs => tell_quiet (fun hosts => hosts.checkpoint phase (by simp [headKeys])
      (by simp [Dict.keys])) hs
  have hupdate : ∀ {rest : Dialogue} (fields : Dict) {s h}, Telling t cwd rest s h →
      Co.Leads (TellSpec t) (updateWorktree fields) (fun _ s' h' => Telling t cwd rest s' h') s h :=
    fun fields s h hs =>
      tell_quiet (fun hosts => hosts.updateWorktree fields (by simp [headKeys])) hs
  unfold prepare
  refine tell_bind (tell_quiet (fun hosts => hosts.checkpoint _ (by simp [headKeys])
    (by simp [Dict.keys, openingFields, headKeys])) hs) fun _ s h hs => ?_
  refine tell_bind (tell_validate hs _ _ _) ?_
  rintro w s h ⟨hw, hs⟩
  refine tell_bind (tell_project hs) fun _ s h hs => ?_
  refine tell_bind (tell_quiet (fun hosts => hosts.checkpoint _ (by simp [headKeys])
    (by simp [Dict.keys, headKeys])) hs) fun _ s h hs => ?_
  refine tell_bind (tell_quiet (fun hosts => hosts.mkdir _) hs) fun _ s h hs => ?_
  refine tell_bind (hupdate _ hs) fun _ s h hs => ?_
  refine tell_bind (hcheckpoint _ hs) fun _ s h hs => ?_
  refine tell_bind (tell_quiet (fun hosts => hosts.bind (hosts.git _ _) fun _ => fills_pure _) hs)
    fun _ s h hs => ?_
  refine tell_bind (hupdate _ hs) fun _ s h hs => ?_
  refine tell_bind (hcheckpoint _ hs) fun _ s h hs => ?_
  refine tell_bind (tell_quiet (fun hosts =>
    hosts.bind (hosts.looks (looks_checkoutFilterConfig _)) fun _ =>
      hosts.bind (hosts.git _ _) fun _ => hosts.bind (hosts.git _ _) fun _ => fills_pure _) hs)
    fun _ s h hs => ?_
  refine tell_bind (hupdate _ hs) fun _ s h hs => ?_
  refine tell_bind (hcheckpoint _ hs) fun _ s h hs => ?_
  refine tell_bind (tell_quiet (fun hosts => hosts.looks (Worktree.looks_inspect _)) hs)
    fun actual s h hs => ?_
  refine tell_bind (hupdate _ hs) fun _ s h hs => ?_
  refine tell_bind (hcheckpoint _ hs) fun _ s h hs => ?_
  refine tell_bind (tell_quiet (fun hosts => hosts.looks (Worktree.looks_matches _ _)) hs)
    fun good s h hs => ?_
  split
  · trivial
  · exact ⟨hw, hs⟩

/-- Past `start` the thread is the one the server named. -/
theorem tells_start (hw : w.destination = PyPath.ofString a.destination) {next : Json → Dialogue}
    (hs : Telling t cwd (ask "thread/start" (a.launch a.asked) fun created =>
      given (index2 "thread" "id" created) fun threadId =>
        given (a.differs a.asked created) fun differs => provided (!differs) (next threadId)) s h) :
    Co.Leads (TellSpec t) (a.start w) (fun _ s' h' => ∃ threadId,
      Telling t cwd (next threadId) s' h' ∧ s'.get? "threadId" = some threadId) s h := by
  unfold CreateWorktreeThread.start
  refine tell_bind (tell_quiet (fun hosts => hosts.checkpoint _ (by simp [headKeys])
    (by simp [Dict.keys])) hs) fun _ s h hs => ?_
  rw [launch_asked hw]
  refine tell_bind (tell_ask hs) ?_
  rintro created s h ⟨-, hs⟩
  refine Co.Leads.ofExcept_bind fun fields hfields => ?_
  obtain ⟨threadId, permissions, association, hid, rfl⟩ := environmentFields_ok hfields
  refine tell_bind (P := fun _ s' h' => _ ∧ s'.get? "threadId" = some threadId)
    (tell_learn (hs.given hid) (by simp [Dict.get?_set]) (by simp [Dict.get?_set])) ?_
  rintro _ s h ⟨hs, hthread⟩
  refine Co.Leads.ofExcept_bind fun mismatch hdiffers => ?_
  rw [differs_asked hw] at hdiffers
  split
  · trivial
  · rename_i hsame
    exact ⟨threadId, (hs.given hdiffers).provided (by simpa using hsame), hthread⟩

/-- The receipt's thread is the one the dialogue goes on with. -/
theorem tell_receiptThreadId {threadId : Json} (hs : Telling t cwd rest s h)
    (hthread : s.get? "threadId" = some threadId) :
    Co.Leads (TellSpec t) receiptThreadId (fun read s' h' =>
      read = threadId ∧ Telling t cwd rest s' h' ∧ s'.get? "threadId" = some threadId) s h := by
  have hindex : Json.index "threadId" (.obj s) = .ok threadId := by
    simp [Json.index, hthread]
  show Co.wp _ _ _ _ _ _
  unfold receiptThreadId
  rw [Co.wp_bind, Co.wp_get, Co.wp_ofExcept, hindex]
  exact ⟨rfl, hs, hthread⟩

theorem tells_name {threadId : Json} {next : Dialogue}
    (hs : Telling t cwd (askTitle threadId a.title next) s h)
    (hthread : s.get? "threadId" = some threadId) :
    Co.Leads (TellSpec t) (whenGiven a.title name) (fun _ s' h' => Telling t cwd next s' h' ∧
      s'.get? "threadId" = some threadId) s h := by
  cases htitle : a.title with
  | none =>
      rw [htitle] at hs
      exact ⟨hs, hthread⟩
  | some title =>
      rw [htitle] at hs
      show Co.Leads _ (name title) _ s h
      unfold name
      refine tell_bind ((hosts_tellThread threadId).checkpoint _ (by simp [headKeys])
        (by simp [Dict.keys]) s h ⟨hs, hthread⟩) ?_
      rintro _ s h ⟨hs, hthread⟩
      refine tell_bind (tell_receiptThreadId hs hthread) ?_
      rintro _ s h ⟨rfl, hs, hthread⟩
      refine tell_bind (tell_ask hs) ?_
      rintro _ _ h ⟨rfl, hnamed⟩
      exact (hosts_tellThread _).checkpoint _ (by simp [headKeys]) (by simp [Dict.keys, headKeys])
        _ h ⟨hnamed, hthread⟩

theorem tells_recheck {threadId : Json} (hs : Telling t cwd rest s h)
    (hthread : s.get? "threadId" = some threadId) :
    Co.Leads (TellSpec t) (recheck w) (fun _ s' h' => Telling t cwd rest s' h' ∧
      s'.get? "threadId" = some threadId) s h :=
  (hosts_tellThread threadId).fills_recheck w (by simp [headKeys]) (by simp [headKeys])
    s h ⟨hs, hthread⟩

theorem tells_dispatch {threadId : Json} {prompt : String}
    (hs : Telling t cwd (askTurn threadId "create_worktree_thread" prompt) s h)
    (hthread : s.get? "threadId" = some threadId) :
    Co.Leads (TellSpec t) (dispatch prompt) (fun _ s' h' => Telling t cwd (.ret .complete) s' h')
      s h := by
  unfold dispatch
  refine tell_bind ((hosts_tellThread threadId).checkpoint _ (by simp [headKeys])
    (by simp [Dict.keys, headKeys]) s h ⟨hs, hthread⟩) ?_
  rintro _ s h ⟨hs, hthread⟩
  refine tell_bind (tell_receiptThreadId hs hthread) ?_
  rintro _ s h ⟨rfl, hs, -⟩
  refine tell_bind (tell_ask hs) ?_
  rintro turn s h ⟨-, hs⟩
  refine Co.Leads.ofExcept_bind fun turnId hid => ?_
  exact tell_quiet (fun hosts => hosts.checkpoint _ (by simp [headKeys])
    (by simp [Dict.keys, headKeys])) (hs.given hid)

theorem tells_action (hs : Telling t cwd a.dialogue s h) :
    Co.Leads (TellSpec t) a.action (fun _ s' h' => Telling t cwd (.ret .complete) s' h') s h := by
  unfold action
  refine tell_bind (tells_prepare hs) ?_
  rintro w s h ⟨hw, hs⟩
  refine tell_bind (tells_start hw hs) ?_
  rintro _ s h ⟨threadId, hs, hthread⟩
  refine tell_bind (tells_name hs hthread) ?_
  rintro _ s h ⟨hs, hthread⟩
  refine tell_bind (tells_recheck hs hthread) ?_
  rintro _ s h ⟨hs, hthread⟩
  refine tell_bind (P := fun _ s' h' => Telling t cwd (.ret .complete) s' h') ?_ fun _ s h hs =>
    tell_quiet (fun hosts => hosts.checkpoint _ (by simp [headKeys])
      (by simp [Dict.keys, headKeys])) hs
  cases hprompt : a.prompt with
  | none =>
      rw [hprompt] at hs
      exact hs
  | some prompt =>
      rw [hprompt] at hs
      exact tells_dispatch hs hthread

end CreateWorktreeThread

/-- **An action follows its dialogue** to the end. -/
theorem ToolCall.tells_action (hs : Telling t cwd (t.dialogue cwd) s h) :
    Co.Leads (TellSpec t) (t.action cwd)
      (fun _ s' h' => Telling t cwd (.ret .complete) s' h') s h := by
  cases t with
  | createThread a => exact CreateThread.tells_action hs
  | createWorktreeThread a => exact CreateWorktreeThread.tells_action hs
  | sendMessageToThread a => exact SendMessage.tells_action hs
  | forkThread a => exact ForkThread.tells_action hs
  | setThreadTitle a => exact SetThreadTitle.tells_action hs
  | setThreadArchived a => exact SetThreadArchived.tells_action hs

end Actions

/-! ## §4. Whole runs. -/

/-- Nothing has been asked, and nothing accepted. -/
def Unspoken (h : History) : Prop := replies h = [] ∧ ∀ e ∈ h, ¬ Accepts e

theorem Unspoken.append {h : History} (hu : Unspoken h) {e : Event Ans}
    (hreplied : replied e = none) (haccepts : ¬ Accepts e) : Unspoken (h ++ [e]) := by
  refine ⟨?_, fun e' he' => ?_⟩
  · rw [replies_append, hu.1, hreplied]
    rfl
  · rcases List.mem_append.mp he' with he' | he'
    · exact hu.2 e' he'
    · rw [List.mem_singleton.mp he']
      exact haccepts

section Whole

variable {t : ToolCall}

/-- What comes before the row is inserted. -/
theorem indifferent_tell {R : History → Prop} (hR : ∀ {h h'}, R h → h ⊆ h' → R h') :
    Indifferent (TellSpec t) fun h => R h ∧ Unspoken h := by
  refine ⟨observe_mono _ _, fun op h hop hh => ?_⟩
  obtain ⟨htells, hquiet⟩ := tellsAt_aside (t := t) (h := h) (.inr hop)
  exact ⟨htells, fun r => ⟨hR hh.1 (List.subset_append_left _ _),
    hh.2.append (hquiet r).1 (hquiet r).2⟩⟩

/-- The directory a launch will use is the one that was resolved. -/
theorem tell_validateFresh (t : ToolCall) {h : History} (hu : Unspoken h) :
    Co.wp (TellSpec t) t.validateFresh (fun cwd _ h' => t.Resolved cwd h' ∧ Unspoken h')
      (fun _ _ h' => True ∧ Unspoken h') [] h := by
  cases t with
  | createThread a =>
      show Co.wp _ (absoluteDirectory a.cwd) _ _ _ _
      unfold absoluteDirectory Act.isDir Act.resolve
      dsimp only
      split
      · exact ⟨trivial, hu⟩
      rw [Co.wp_bind, Act.wp_perform]
      refine ⟨trivial, fun isDir => ?_⟩
      have hu' := hu.append (e := ⟨.isDir (PyPath.ofString a.cwd), isDir⟩) rfl id
      cases isDir with
      | error f => exact ⟨trivial, hu'⟩
      | ok isDir =>
          dsimp only [lift]
          split
          · exact ⟨trivial, hu'⟩
          rw [Co.wp_bind, Act.wp_perform]
          refine ⟨trivial, fun r => ?_⟩
          have hu'' := hu'.append (e := ⟨.resolve (PyPath.ofString a.cwd), r⟩) rfl id
          cases r with
          | error f => exact ⟨trivial, hu''⟩
          | ok resolved =>
              exact ⟨⟨resolved, rfl, List.mem_append_right _ (List.mem_singleton_self _)⟩, hu''⟩
  | _ => exact ⟨trivial, hu⟩

/-- An action writes nothing that the ledger wrote when the row was inserted. -/
theorem head_action (t : ToolCall) (cwd : String) {requestId : String} {fresh : Dict}
    (hid : fresh.get? "requestId" = some (.str requestId)) (h : History) :
    Interaction.wp (history fun _ _ => True) (t.action cwd fresh)
      (fun r _ => SameHead fresh r.2) h := by
  have hosts : HostsHead (history (ρ := Ans) fun _ _ => True) fresh (fun _ => True)
      (fun _ _ => True) := by
    refine HostsHead.mk hid (observe_mono _ _) (fun _ _ _ _ => ⟨trivial, fun _ => trivial⟩)
      (fun _ _ _ _ => ⟨trivial, fun _ => trivial⟩) (fun _ _ _ _ => ⟨trivial, fun r => ?_⟩)
      (fun _ _ => ⟨trivial, fun r => ?_⟩) (fun _ _ _ => trivial) fun _ _ _ _ => trivial
    · cases r <;> trivial
    · cases r <;> trivial
  refine Interaction.wp_mono (observe_mono _ _) _ ?_ h
    (hosts.fills_action t cwd fresh h ⟨SameHead.refl fresh, trivial⟩)
  rintro ⟨r | r, s⟩ h' hs <;> exact hs.1

variable [Hashlib]

theorem ToolCall.tells_run (t : ToolCall) (requestId : String) :
    Interaction.wp (TellSpec t) (t.prog requestId) (fun _ _ => True) [] := by
  refine (indifferent_tell (t := t) (R := fun _ => True) fun _ _ => trivial).wp_tool_of
    (P := fun _ _ => True) (V := fun cwd h => t.Resolved cwd h ∧ Unspoken h) t requestId
    (fun cwd => indifferent_tell fun hr hsub => hr.mono hsub) ⟨trivial, rfl, by simp⟩
    (fun h hu => tell_validateFresh t hu.2) (fun _ _ _ => trivial)
    (fun _ _ _ => ⟨trivial, fun _ => trivial⟩) ?_
  rintro cwd fp startedAt h - ⟨hr, hu⟩
  refine ⟨trivial, fun r => ?_⟩
  have hu' : ∀ r : Except Fault (Option StoredRow), Unspoken (h ++ [⟨.beginRow requestId fp
      (Ledger.freshReceipt requestId t.method startedAt), r⟩]) := fun r => hu.append rfl id
  have hr' : ∀ e, t.Resolved cwd (h ++ [e]) := fun e => hr.mono (List.subset_append_left _ _)
  rcases r with f | _ | row
  · exact ⟨hr' _, hu' _⟩
  · have haction : ∀ h' : History, t.Resolved cwd h' → Unspoken h' →
        Co.wp (TellSpec t) (t.action cwd)
          (fun _ s m => Telling t cwd (.ret .complete) s m ∧
            SameHead (Ledger.freshReceipt requestId t.method startedAt) s)
          (fun _ s _ => SameHead (Ledger.freshReceipt requestId t.method startedAt) s)
          (Ledger.freshReceipt requestId t.method startedAt) h' := by
      intro h' hr hu
      have htells : Telling t cwd (t.dialogue cwd)
          (Ledger.freshReceipt requestId t.method startedAt) h' :=
        ⟨hr, by rw [hu.1]; exact .start, hu.2, rfl⟩
      have hboth := wp_observe_and _ (ToolCall.tells_action htells) (head_action t cwd rfl h')
      refine Interaction.wp_mono (observe_mono _ _) _ ?_ h' hboth
      rintro ⟨r | r, s⟩ m ⟨htells, hhead⟩
      · exact hhead
      · exact ⟨htells, hhead⟩
    refine wp_attempt_of (P := fun _ _ => True) (observe_mono _ _)
      ⟨trivial, fun _ => haction _ ((hr' _).mono (List.subset_append_left _ _))
        ((hu' _).append rfl id)⟩ ?_ ?_
    · rintro s m ⟨hs, hhead⟩
      refine ⟨hhead "requestId" (by simp [headKeys]), trivial, fun time => ⟨fun _ => ?_, fun r => ?_⟩⟩
      · refine ⟨cwd, hs.resolved.mono (List.subset_append_left _ _), ?_⟩
        rw [replies_append]
        simpa [replied] using hs.said
      · cases r <;> trivial
    · rintro e s m hhead
      refine ⟨hhead "requestId" (by simp [headKeys]), trivial,
        fun time => ⟨fun haccepted => ?_, fun r => ?_⟩⟩
      · have hstatus : (s.update (outcome e)).get? "status" ≠ some (.str "accepted") := by
          cases e with
          | rpcError method error => simp [outcome, Dict.update, Dict.get?_set]
          | worktreeError message => simp [outcome, Dict.update, Dict.get?_set]
          | cancelledError => simp [outcome, Dict.update]
          | exception cls message => simp [outcome, Dict.update, Dict.get?_set]
        rw [stamped, Dict.get?_update_of_notMem _ _ (by simp [Dict.keys])] at haccepted
        exact absurd haccepted hstatus
      · cases r <;> trivial
  · exact ⟨hr' _, hu' _⟩

/-- **A run is a run of its dialogue**, seen by the server: its requests and
their replies, in order; where it stands at a request the dialogue stands
there too, and once it has accepted anything the dialogue is complete. -/
theorem ToolCall.dialogue_run (t : ToolCall) (requestId : String) {h : History}
    {rest : Residual Dict} (hrun : Run (t.prog requestId) h rest) :
    ∃ cwd d, Run (t.dialogue cwd) (replies h) d ∧ (replies h = [] ∨ t.Resolved cwd h) ∧
      ((∃ e ∈ h, Accepts e) → d = .ret .complete) := by
  induction hrun with
  | start => exact ⟨"", _, .start, .inl rfl, by simp⟩
  | @step h op k r hrun ih =>
      obtain ⟨cwd, d, hd, hr, hdone⟩ := ih
      have hat := wp_run_head (t.tells_run requestId) hrun rfl
      rw [foldl_remember, List.nil_append] at hat
      -- what is neither a request nor an acceptance leaves the dialogue there
      have hsame : replied ⟨op, r⟩ = none → ¬ Accepts ⟨op, r⟩ →
          ∃ cwd d, Run (t.dialogue cwd) (replies (h ++ [⟨op, r⟩])) d ∧
            (replies (h ++ [⟨op, r⟩]) = [] ∨ t.Resolved cwd (h ++ [⟨op, r⟩])) ∧
            ((∃ e ∈ h ++ [⟨op, r⟩], Accepts e) → d = .ret .complete) := by
        intro hreplied haccepts
        rw [replies_append, hreplied, Option.toList_none, List.append_nil]
        refine ⟨cwd, d, hd, hr.imp_right fun hr => hr.mono (List.subset_append_left _ _), ?_⟩
        rintro ⟨e, he, hacc⟩
        rcases List.mem_append.mp he with he | he
        · exact hdone ⟨e, he, hacc⟩
        · rw [List.mem_singleton.mp he] at hacc
          exact absurd hacc haccepts
      cases op with
      | call method params =>
          obtain ⟨cwd, k', hr, hd, hundecided⟩ := hat
          have hstep : Run (t.dialogue cwd) (replies h ++ [⟨⟨method, params⟩, r⟩]) (k' r) :=
            Run.step (ρ := Response) r hd
          refine ⟨cwd, k' r, ?_, .inr (hr.mono (List.subset_append_left _ _)), ?_⟩
          · rw [replies_append]
            exact hstep
          · rintro ⟨e, he, hacc⟩
            rcases List.mem_append.mp he with he | he
            · exact absurd hacc (hundecided e he)
            · rw [List.mem_singleton.mp he] at hacc
              exact hacc.elim
      | update key receipt =>
          by_cases haccepted : receipt.get? "status" = some (.str "accepted")
          · obtain ⟨cwd, hr, hd⟩ := hat haccepted
            refine ⟨cwd, .ret .complete, ?_, .inr (hr.mono (List.subset_append_left _ _)),
              fun _ => rfl⟩
            rw [replies_append]
            simpa [replied] using hd
          · exact hsame rfl haccepted
      | _ => exact hsame rfl id

end Whole

end CodexRemoteBridge
