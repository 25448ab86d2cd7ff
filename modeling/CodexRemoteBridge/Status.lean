/-
  CodexRemoteBridge.Status — what the durable status of a receipt says
  about the requests behind it.

  §1 reads the requests of a call off its history: each frame with an id,
  and the message that answered it.  §2 follows `rpc.py`: a reply that is
  lost leaves `request`, `connect` and `close` as a fault of the
  environment or as a `TransportError`, never as an `RpcError`.  §3 puts
  `_mutate` around it, and §4 the other calls, crashes and restarts.

  Main result: `System.status_sound`.
-/
import CodexRemoteBridge.System

namespace CodexRemoteBridge

open Interaction

/-! ## §1. The requests of a call. -/

/-- A request that was sent, and the message that answered it. -/
structure Exchange where
  ident : Nat
  method : String
  answer : Option Dict

namespace Exchange

/-- The request was answered with a result. -/
def HasResult (x : Exchange) : Prop :=
  ∃ message result, x.answer = some message ∧ message.get? "error" = none ∧
    message.get? "result" = some result

/-- The request was answered with an error. -/
def HasError (x : Exchange) : Prop :=
  ∃ message error, x.answer = some message ∧ message.get? "error" = some (.obj error)

/-- The request was validly answered. -/
def Answered (x : Exchange) : Prop := x.HasResult ∨ x.HasError

end Exchange

/-- The request an operation sends. -/
def opened : WireOp → Option Exchange
  | .net (.send _ ⟨some ident, method, _⟩) => some ⟨ident, method, none⟩
  | _ => none

/-- The newest request gets its answer. -/
def answerNewest (ident : Nat) (message : Dict) : List Exchange → List Exchange
  | [] => []
  | x :: xs => if x.ident = ident then { x with answer := some message } :: xs else x :: xs

/-- Follow the requests of a call, newest first. -/
def exchangeStep (xs : List Exchange) (e : Event WireAns) : List Exchange :=
  match e with
  | ⟨.net (.awaitReply ident), .ok message⟩ => answerNewest ident message xs
  | ⟨op, _⟩ => (opened op).toList ++ xs

/-- The requests sent in a history, newest first. -/
def exchanges (h : List (Event WireAns)) : List Exchange := h.foldl exchangeStep []

/-- The receipt a history's own row was inserted with. -/
def ownRow (h : List (Event WireAns)) : Option Dict := h.foldl (onBase inserted) none

/-- What is stored in a history's own row. -/
def stored (h : List (Event WireAns)) : Option Dict := h.foldl (onBase durableStep) none

/-- The status that is stored. -/
def storedStatus (h : List (Event WireAns)) : Option Json :=
  (stored h).bind fun receipt => receipt.get? "status"

@[simp] theorem exchanges_append (h : List (Event WireAns)) (e : Event WireAns) :
    exchanges (h ++ [e]) = exchangeStep (exchanges h) e := by
  simp [exchanges, List.foldl_append]

@[simp] theorem ownRow_append (h : List (Event WireAns)) (e : Event WireAns) :
    ownRow (h ++ [e]) = onBase inserted (ownRow h) e := by
  simp [ownRow, List.foldl_append]

@[simp] theorem stored_append (h : List (Event WireAns)) (e : Event WireAns) :
    stored (h ++ [e]) = onBase durableStep (stored h) e := by
  simp [stored, List.foldl_append]

section Sound

variable [Hashlib] [Endpoint]

/-- The action behind a history was entered and ran to its end: none of its
checks refused, and none of its requests failed. -/
def Completed (t : ToolCall) (requestId : String) (h : List (Event WireAns)) : Prop :=
  ∃ cwd fresh receipt before run after,
    h = before ++ ⟨.base (.enter requestId), ()⟩ :: (run ++ after) ∧
    ownRow before = some fresh ∧
    Run ((t.action cwd fresh).handle wire) run (.ret (.ok (), receipt))

/-- What the stored status says when `sent` are the requests so far. -/
structure StatusSound (t : ToolCall) (requestId : String) (sent : List Exchange)
    (h : List (Event WireAns)) : Prop where
  idle : ownRow h = none → sent = []
  accepted : storedStatus h = some (.str "accepted") →
    (∀ x ∈ sent, x.HasResult) ∧ Completed t requestId h
  failed : storedStatus h = some (.str "failed") → ∀ x ∈ sent, x.Answered
  unknown : (∃ x ∈ sent, ¬ x.Answered) →
    storedStatus h = some (.str "outcome_unknown") ∨
    storedStatus h = some (.str "in_progress_or_unknown")

/-- The condition at every operation; the one that is about to be performed
counts as sent. -/
def SoundAt (t : ToolCall) (requestId : String) (h : List (Event WireAns)) (op : WireOp) : Prop :=
  StatusSound t requestId ((opened op).toList ++ exchanges h) h

end Sound

/-! ## §2. Requests, and what can raise in their place. -/

/-- While the action goes on: the row holds what the action last saved,
under its first status, and `G` holds of every request so far. -/
structure Kept (fresh : Dict) (G : Exchange → Prop) (h : List (Event WireAns)) : Prop where
  own : ownRow h = some fresh
  row : ∃ receipt, stored h = some receipt ∧ SameHead fresh receipt
  requests : ∀ x ∈ exchanges h, G x

/-- What an exception tells of the requests before it. -/
def gradeOf : PyExc → Exchange → Prop
  | .rpcError _ _ | .worktreeError _ => Exchange.Answered
  | _ => fun _ => True

/-- The operations that neither send a request nor take an answer. -/
def NetOp.isQuiet : NetOp → Bool
  | .send _ ⟨some _, _, _⟩ | .awaitReply _ => false
  | _ => true

theorem exchangeStep_of_isQuiet {op : NetOp} (hop : op.isQuiet = true) (r : NetAns op)
    (xs : List Exchange) : exchangeStep xs ⟨.net op, r⟩ = xs := by
  cases op with
  | send ws frame =>
      obtain ⟨ident | ident, method, params⟩ := frame
      · rfl
      · cases hop
  | awaitReply ident => cases hop
  | _ => rfl

namespace Kept

variable {fresh : Dict} {G G' : Exchange → Prop} {h : List (Event WireAns)}

theorem weaken (hk : Kept fresh G h) (hG : ∀ x, G x → G' x) : Kept fresh G' h :=
  ⟨hk.own, hk.row, fun x hx => hG x (hk.requests x hx)⟩

theorem quiet (hk : Kept fresh G h) (op : NetOp) (hop : op.isQuiet = true) (r : NetAns op) :
    Kept fresh G (h ++ [⟨.net op, r⟩]) := by
  refine ⟨?_, ?_, ?_⟩
  · rw [ownRow_append]
    exact hk.own
  · rw [stored_append]
    exact hk.row
  · rw [exchanges_append, exchangeStep_of_isQuiet hop]
    exact hk.requests

/-- A fault says nothing about the requests before it. -/
theorem fault (hk : Kept fresh G h) (f : Fault) : Kept fresh (gradeOf f.raised) h := by
  refine hk.weaken fun x _ => ?_
  cases f <;> trivial

variable [Endpoint]

/-- An operation of an action under its first status. -/
theorem soundAt (hk : Kept fresh G h)
    (hstatus : fresh.get? "status" = some (.str "in_progress_or_unknown"))
    (t : ToolCall) (requestId : String) (op : WireOp) : SoundAt t requestId h op := by
  have hstored : storedStatus h = some (.str "in_progress_or_unknown") := by
    obtain ⟨receipt, hrow, hhead⟩ := hk.row
    rw [storedStatus, hrow, ← hstatus]
    exact hhead "status" (by simp [headKeys])
  refine ⟨fun he => ?_, fun he => ?_, fun he => ?_, fun _ => .inr hstored⟩
  · rw [hk.own] at he
    cases he
  · rw [hstored] at he
    simp at he
  · rw [hstored] at he
    simp at he

end Kept

section Requests

variable [Endpoint] {t : ToolCall} {requestId : String} {fresh : Dict}

/-- The history of a call, with `SoundAt` at every operation. -/
abbrev SoundSpec (t : ToolCall) (requestId : String) : OpSpec WireAns (List (Event WireAns)) :=
  history (SoundAt t requestId)

theorem soundSpec_mono : (netSpec (SoundSpec t requestId)).Mono :=
  fun _ _ _ hQ _ h => ⟨h.1, fun r => hQ _ _ (h.2 r)⟩

/-- A coroutine of `AppServer` that keeps `G` of the requests, and raises
faults only. -/
abbrev Quiet (t : ToolCall) (requestId : String) (fresh : Dict) (G : Exchange → Prop)
    {α : Type} (c : Net α) : Prop :=
  c.Keeps (netSpec (SoundSpec t requestId)) (fun _ h => Kept fresh G h)
    fun e _ h => (∃ f : Fault, e = f.raised) ∧ Kept fresh G h

/-- A coroutine of `AppServer` that returns when every request so far got
its result, and otherwise raises what its requests came to. -/
abbrev Settles (t : ToolCall) (requestId : String) (fresh : Dict) {α : Type} (c : Net α) :
    Prop :=
  c.Keeps (netSpec (SoundSpec t requestId)) (fun _ h => Kept fresh Exchange.HasResult h)
    fun e _ h => Kept fresh (gradeOf e) h

variable {G : Exchange → Prop} {α : Type}

theorem Quiet.settles {c : Net α} (h : Quiet t requestId fresh Exchange.HasResult c) :
    Settles t requestId fresh c := by
  intro s m hm
  refine Co.wp_conseq soundSpec_mono (h s m hm) (fun _ _ _ hk => hk) ?_
  rintro e s' m' ⟨⟨f, rfl⟩, hk⟩
  exact hk.fault f

variable (hstatus : fresh.get? "status" = some (.str "in_progress_or_unknown"))
include hstatus

theorem quiet_ask {op : NetOp} (hop : op.isQuiet = true) :
    Quiet t requestId fresh G (Co.ask op : Net (NetAns op)) :=
  fun _ _ hk => ⟨hk.soundAt hstatus t requestId _, fun r => hk.quiet _ hop r⟩

theorem quiet_perform {op : NetOp} (hop : op.isQuiet = true)
    {view : NetAns op → Except PyExc α}
    (hview : ∀ r e, view r = .error e → ∃ f : Fault, e = f.raised) :
    Quiet t requestId fresh G (AppServer.perform op view) := by
  intro s h hk
  rw [AppServer.wp_perform]
  refine ⟨hk.soundAt hstatus t requestId _, fun r => ?_⟩
  have hk' := hk.quiet _ hop r
  dsimp only [remember]
  split
  · exact hk'
  · rename_i e hr
    exact ⟨hview r e hr, hk'⟩

omit [Endpoint] hstatus in
theorem lift_error {α : Type} (r : Except Fault α) (e : PyExc) (h : lift r = .error e) :
    ∃ f : Fault, e = f.raised := by
  cases r with
  | ok a => cases h
  | error f => exact ⟨f, (Except.error.inj h).symm⟩

/-- The end of `close`. -/
theorem quiet_closeReader : Quiet t requestId fresh G (do
    let reader ← AppServer.reader
    match reader with
    | none => pure ()
    | some reader => do
        AppServer.cancelReader reader
        AppServer.suppressCancelled (AppServer.joinReader reader)
        AppServer.clearReader) := by
  refine Co.Keeps.bind soundSpec_mono (quiet_ask hstatus rfl) fun reader => ?_
  cases reader with
  | none => exact Co.keeps_pure _
  | some reader =>
      refine Co.Keeps.bind soundSpec_mono (quiet_ask hstatus rfl) fun _ => ?_
      refine Co.Keeps.bind soundSpec_mono ?_ fun _ => quiet_ask hstatus rfl
      refine Co.Keeps.tryCatch soundSpec_mono (quiet_perform hstatus rfl lift_error) ?_
      intro e s m he
      split
      · exact he.2
      · exact he

theorem quiet_close : Quiet t requestId fresh G AppServer.close := by
  unfold AppServer.close
  refine Co.Keeps.bind soundSpec_mono (quiet_ask hstatus rfl) fun ws => ?_
  cases ws with
  | none => exact (quiet_closeReader hstatus)
  | some ws =>
      refine Co.Keeps.bind soundSpec_mono (quiet_perform hstatus rfl lift_error) fun _ => ?_
      exact Co.Keeps.bind soundSpec_mono (quiet_ask hstatus rfl) fun _ => (quiet_closeReader hstatus)

omit [Endpoint] hstatus in
/-- An exception that is no `RpcError` and no `WorktreeError` says nothing. -/
theorem Kept.lost {h : List (Event WireAns)} (hk : Kept fresh G h) {e : PyExc}
    (hrpc : ∀ method error, e ≠ .rpcError method error)
    (hworktree : ∀ message, e ≠ .worktreeError message) : Kept fresh (gradeOf e) h := by
  refine hk.weaken fun x _ => ?_
  cases e with
  | rpcError method error => exact absurd rfl (hrpc method error)
  | worktreeError message => exact absurd rfl (hworktree message)
  | cancelledError => trivial
  | exception cls message => trivial

/-- When a frame was sent and its message arrived, the request has it as its
answer. -/
theorem settles_exchange (ws : Conn) (ident : Nat) (method : String) (params : Dict)
    {h : List (Event WireAns)} (hk : Kept fresh Exchange.HasResult h) (s : Unit) :
    Co.wp (netSpec (SoundSpec t requestId)) (AppServer.exchange ws ident method params)
      (fun message _ h' =>
        Kept fresh (fun x => x.HasResult ∨ x = ⟨ident, method, some message⟩) h')
      (fun e _ h' => Kept fresh (gradeOf e) h') s h := by
  -- both awaits may fail, and a failure of the transport has one more name
  have hfailed : ∀ (f : Fault) (h' : List (Event WireAns)) (Q : Dict → Unit → _ → Prop),
      Kept fresh (fun _ => True) h' →
      Co.wp (netSpec (SoundSpec t requestId))
        (if f.raised.isOSError then Co.throw (AppServer.unavailable method)
          else Co.throw f.raised : Net Dict)
        Q (fun e _ h' => Kept fresh (gradeOf e) h') s h' := by
    intro f h' Q hk'
    split
    · exact hk'.lost nofun nofun
    · exact hk'.fault f
  unfold AppServer.exchange AppServer.send AppServer.awaitReply
  rw [Co.wp_tryCatch, Co.wp_bind, AppServer.wp_perform]
  refine ⟨hk.soundAt hstatus t requestId _, fun sent => ?_⟩
  have hsent : exchanges (h ++ [⟨.net (.send ws ⟨some ident, method, params⟩), sent⟩])
      = ⟨ident, method, none⟩ :: exchanges h := by
    rw [exchanges_append]
    rfl
  have hk₁ : Kept fresh (fun _ => True)
      (h ++ [⟨.net (.send ws ⟨some ident, method, params⟩), sent⟩]) :=
    ⟨by rw [ownRow_append]; exact hk.own, by rw [stored_append]; exact hk.row,
      fun _ _ => trivial⟩
  cases sent with
  | error f => exact hfailed f _ _ hk₁
  | ok _ =>
      dsimp only [lift]
      rw [AppServer.wp_perform]
      refine ⟨hk₁.soundAt hstatus t requestId _, fun r => ?_⟩
      cases r with
      | error f =>
          refine hfailed f _ _ ⟨?_, ?_, fun _ _ => trivial⟩
          · rw [remember, ownRow_append]
            exact hk₁.own
          · rw [remember, stored_append]
            exact hk₁.row
      | ok message =>
          refine ⟨?_, ?_, fun x hx => ?_⟩
          · rw [remember, ownRow_append]
            exact hk₁.own
          · rw [remember, stored_append]
            exact hk₁.row
          · rw [remember, exchanges_append, remember, hsent] at hx
            simp only [exchangeStep, answerNewest, if_pos] at hx
            rcases List.mem_cons.mp hx with rfl | hx
            · exact .inr rfl
            · exact .inl (hk.requests x hx)

omit [Endpoint] hstatus in
/-- What a message means, for the requests up to the one it answers. -/
theorem Kept.reply {ident : Nat} {method : String} {message : Dict} {h : List (Event WireAns)}
    (hk : Kept fresh (fun x => x.HasResult ∨ x = ⟨ident, method, some message⟩) h) :
    match AppServer.reply method message with
    | .ok _ => Kept fresh Exchange.HasResult h
    | .error e => Kept fresh (gradeOf e) h := by
  unfold AppServer.reply
  cases herror : message.get? "error" with
  | some error =>
      cases error with
      | obj error =>
          refine hk.weaken fun x hx => ?_
          rcases hx with hx | rfl
          · exact .inl hx
          · exact .inr ⟨message, error, rfl, herror⟩
      | _ => exact hk.lost nofun nofun
  | none =>
      cases hresult : message.get? "result" with
      | none => exact hk.lost nofun nofun
      | some result =>
          refine hk.weaken fun x hx => ?_
          rcases hx with hx | rfl
          · exact hx
          · exact ⟨message, result, rfl, herror, hresult⟩

/-- **A request settles**: its frame is recorded when it is sent, and a
return or an `RpcError` comes from the message that answered it. -/
theorem settles_request (method : String) (params : Dict) :
    Settles t requestId fresh (AppServer.request method params) := by
  unfold AppServer.request
  refine Co.Keeps.bind soundSpec_mono (quiet_ask hstatus rfl).settles fun ws => ?_
  cases ws with
  | none => exact Co.keeps_throw fun s m hk => hk.lost nofun nofun
  | some ws =>
      refine Co.Keeps.bind soundSpec_mono (quiet_ask hstatus rfl).settles fun ident => ?_
      intro s h hk
      rw [Co.wp_bind, Co.wp_tryFinally]
      refine Co.wp_conseq soundSpec_mono
        (settles_exchange hstatus ws ident method params hk s) ?_ ?_
      · intro message s' h' hk'
        show Co.wp _ (Co.ask (NetOp.unregister ident)) _ _ s' h'
        rw [Co.wp_ask]
        refine ⟨hk'.soundAt hstatus t requestId _, fun r => ?_⟩
        have hk'' := hk'.quiet (.unregister ident) rfl r
        show Co.wp _ (Co.ofExcept (AppServer.reply method message)) _ _ s' _
        have hreply := hk''.reply
        rw [Co.wp_ofExcept]
        cases hr : AppServer.reply method message with
        | ok result => rwa [hr] at hreply
        | error e => rwa [hr] at hreply
      · intro e s' h' hk'
        show Co.wp _ (Co.ask (NetOp.unregister ident)) _ _ s' h'
        rw [Co.wp_ask]
        exact ⟨hk'.soundAt hstatus t requestId _,
          fun r => hk'.quiet (.unregister ident) rfl r⟩

theorem settles_establish : Settles t requestId fresh AppServer.establish := by
  unfold AppServer.establish
  refine Co.Keeps.bind soundSpec_mono (quiet_perform hstatus rfl lift_error).settles
    fun present => ?_
  split
  · exact Co.keeps_throw fun s m hk => hk.lost nofun nofun
  refine Co.Keeps.bind soundSpec_mono (quiet_perform hstatus rfl lift_error).settles fun _ => ?_
  refine Co.Keeps.bind soundSpec_mono (quiet_ask hstatus rfl).settles fun _ => ?_
  refine Co.Keeps.bind soundSpec_mono (settles_request hstatus _ _) fun info => ?_
  refine Co.Keeps.bind soundSpec_mono (quiet_ask hstatus rfl).settles fun _ => ?_
  refine Co.Keeps.bind soundSpec_mono (quiet_ask hstatus rfl).settles fun ws => ?_
  cases ws with
  | none => exact Co.keeps_throw fun s m hk => hk.lost nofun nofun
  | some ws => exact (quiet_perform hstatus rfl lift_error).settles

theorem settles_connect : Settles t requestId fresh AppServer.connect := by
  unfold AppServer.connect
  refine Co.Keeps.bind soundSpec_mono (quiet_perform hstatus rfl lift_error).settles fun _ => ?_
  intro s h hk
  rw [Co.wp_tryFinally]
  have hbody : Settles t requestId fresh (do
      let alive ← AppServer.readerAlive
      if alive then pure ()
      else do
        AppServer.close
        Co.tryCatch AppServer.establish fun error => do
          AppServer.close
          Co.throw error) := by
    refine Co.Keeps.bind soundSpec_mono (quiet_ask hstatus rfl).settles fun alive => ?_
    split
    · exact Co.keeps_pure _
    refine Co.Keeps.bind soundSpec_mono (quiet_close hstatus).settles fun _ => ?_
    refine Co.Keeps.tryCatch soundSpec_mono (settles_establish hstatus) fun e s m he => ?_
    -- the close after a failed handshake keeps what is known, or raises a fault
    rw [Co.wp_bind]
    refine Co.wp_conseq soundSpec_mono (quiet_close hstatus s m he) (fun _ _ _ hk => hk) ?_
    rintro e' s' m' ⟨⟨f, rfl⟩, hk'⟩
    exact hk'.fault f
  have hunlock : ∀ {G : Exchange → Prop} {s : Unit} {h : List (Event WireAns)},
      Kept fresh G h → Kept fresh G (h ++ [⟨.net .unlock, ()⟩]) :=
    fun hk => hk.quiet .unlock rfl ()
  refine Co.wp_conseq soundSpec_mono (hbody s h hk) ?_ ?_
  · intro _ s' h' hk'
    exact ⟨hk'.soundAt hstatus t requestId _, fun r => hk'.quiet .unlock rfl r⟩
  · intro e s' h' hk'
    exact ⟨hk'.soundAt hstatus t requestId _, fun r => hk'.quiet .unlock rfl r⟩

/-- **A call settles**, the handshake it may perform included. -/
theorem settles_call (method : String) (params : Dict) :
    Settles t requestId fresh (AppServer.call method params) :=
  Co.Keeps.bind soundSpec_mono (settles_connect hstatus) fun _ =>
    settles_request hstatus method params

end Requests

/-! ## §3. The whole call. -/

section Whole

variable [Hashlib] [Endpoint] {t : ToolCall} {requestId : String} {fresh : Dict}
variable {G : Exchange → Prop} {h : List (Event WireAns)}

omit [Hashlib] [Endpoint] in
theorem Kept.act (hk : Kept fresh G h) {op : Op} (hop : op.isActing = true) (r : Ans op) :
    Kept fresh G (h ++ [⟨.base op, r⟩]) := by
  have hrecord : ∀ m, inserted m ⟨op, r⟩ = m ∧ durableStep m ⟨op, r⟩ = m := by
    intro m
    cases op with
    | beginRow key fp receipt => cases hop
    | update key receipt => cases hop
    | _ => exact ⟨rfl, rfl⟩
  refine ⟨?_, ?_, ?_⟩
  · rw [ownRow_append, hk.own]
    exact (hrecord _).1
  · rw [stored_append]
    show ∃ receipt, durableStep (stored h) ⟨op, r⟩ = some receipt ∧ SameHead fresh receipt
    rw [(hrecord _).2]
    exact hk.row
  · rw [exchanges_append]
    exact hk.requests

omit [Hashlib] [Endpoint] in
/-- The action saves receipts with the head of the fresh one. -/
theorem Kept.update (hk : Kept fresh G h) {receipt : Dict} (hhead : SameHead fresh receipt)
    (r : Except Fault Unit) :
    Kept fresh G (h ++ [⟨.base (.update (.str requestId) receipt), r⟩]) := by
  refine ⟨?_, ?_, ?_⟩
  · rw [ownRow_append, hk.own]
    rfl
  · rw [stored_append]
    cases r with
    | error f => exact hk.row
    | ok _ => exact ⟨receipt, rfl, hhead⟩
  · rw [exchanges_append]
    exact hk.requests

omit [Hashlib] in
theorem hosts_sound (hid : fresh.get? "requestId" = some (.str requestId))
    (hstatus : fresh.get? "status" = some (.str "in_progress_or_unknown")) :
    HostsHead ((SoundSpec t requestId).through wire) fresh
      (Kept fresh Exchange.HasResult) (fun e h => Kept fresh (gradeOf e) h) := by
  refine HostsHead.mk hid ((observe_mono _ _).through wire) ?_ ?_ ?_ ?_ ?_ fun _ _ _ hk => hk
  · intro op h hop hk
    show Interaction.wp (SoundSpec t requestId) (wire op) _ h
    rw [wp_wire_base _ (by rintro method params rfl; cases hop) (by rintro rfl; cases hop)]
    exact ⟨hk.soundAt hstatus t requestId _, fun r => hk.act hop r⟩
  · intro receipt h hhead hk
    exact ⟨hk.soundAt hstatus t requestId _, fun r => hk.update hhead r⟩
  · intro method params h hk
    show Interaction.wp (SoundSpec t requestId) (ofNet (AppServer.call method params)) _ h
    rw [wp_ofNet_eq]
    exact settles_call hstatus method params () h hk
  · intro h hk
    show Interaction.wp (SoundSpec t requestId) (ofNet AppServer.close) _ h
    rw [wp_ofNet_eq]
    exact (quiet_close hstatus).settles () h hk
  · intro e h hk
    refine hk.weaken fun x hx => ?_
    cases e with
    | rpcError method error => exact .inl hx
    | worktreeError message => exact .inl hx
    | cancelledError => trivial
    | exception cls message => trivial

omit [Hashlib] in
theorem Completed.append (hc : Completed t requestId h) (e : Event WireAns) :
    Completed t requestId (h ++ [e]) := by
  obtain ⟨cwd, fresh, receipt, before, run, after, rfl, hrest⟩ := hc
  exact ⟨cwd, fresh, receipt, before, run, after ++ [e], by simp, hrest⟩

omit [Hashlib] in
/-- Operations that write nothing and send nothing leave the verdict. -/
theorem StatusSound.append {sent : List Exchange} (hs : StatusSound t requestId sent h)
    {e : Event WireAns} (hown : ownRow (h ++ [e]) = ownRow h)
    (hstored : stored (h ++ [e]) = stored h) : StatusSound t requestId sent (h ++ [e]) := by
  have hstatus : storedStatus (h ++ [e]) = storedStatus h := by
    rw [storedStatus, hstored, storedStatus]
  refine ⟨?_, ?_, ?_, ?_⟩
  · rw [hown]
    exact hs.idle
  · rw [hstatus]
    exact fun he => ⟨(hs.accepted he).1, (hs.accepted he).2.append e⟩
  · rw [hstatus]
    exact hs.failed
  · rw [hstatus]
    exact hs.unknown

omit [Hashlib] in
/-- The last save of a call, with the status it ends in. -/
theorem saves_sound {G : Exchange → Prop} {receipt : Dict} (status : String)
    (hfresh : fresh.get? "status" = some (.str "in_progress_or_unknown"))
    (hk : Kept fresh G h) (hstatus : receipt.get? "status" = some (.str status))
    (haccepted : status = "accepted" →
      (∀ x, G x → x.HasResult) ∧ Completed t requestId h)
    (hfailed : status = "failed" → ∀ x, G x → x.Answered)
    (hunknown : (∀ x, G x → x.Answered) ∨ status = "outcome_unknown") :
    Saves ((SoundSpec t requestId).through wire) requestId receipt
      (fun _ h => StatusSound t requestId (exchanges h) h)
      (fun _ h => StatusSound t requestId (exchanges h) h) h := by
  have hacting : Op.isActing .now = true := rfl
  have hnow : ∀ time : String, Kept fresh G (h ++ [⟨.base .now, time⟩]) :=
    fun time => hk.act hacting time
  refine ⟨hk.soundAt hfresh t requestId _, fun time => ?_⟩
  show Interaction.wp (SoundSpec t requestId)
    (.op (.base (.update (.str requestId) (stamped receipt time))) .ret) _ _
  refine ⟨(hnow time).soundAt hfresh t requestId _, fun r => ?_⟩
  have hown : ownRow ((h ++ [⟨.base .now, time⟩])
      ++ [⟨.base (.update (.str requestId) (stamped receipt time)), r⟩]) = some fresh := by
    rw [ownRow_append, (hnow time).own]
    rfl
  have hxs : exchanges ((h ++ [⟨.base .now, time⟩])
      ++ [⟨.base (.update (.str requestId) (stamped receipt time)), r⟩]) = exchanges h := by
    rw [exchanges_append, exchanges_append]
    rfl
  cases r with
  | error f =>
      show StatusSound t requestId (exchanges (_ ++ [_])) (_ ++ [_])
      rw [hxs]
      refine StatusSound.append (StatusSound.append ?_ ?_ ?_) ?_ ?_
      · exact hk.soundAt hfresh t requestId (.base .now)
      · rw [ownRow_append]
        rfl
      · rw [stored_append]
        rfl
      · rw [ownRow_append]
        rfl
      · rw [stored_append]
        rfl
  | ok _ =>
      have hst : storedStatus ((h ++ [⟨.base .now, time⟩])
          ++ [⟨.base (.update (.str requestId) (stamped receipt time)), .ok ()⟩])
          = some (.str status) := by
        rw [storedStatus, stored_append]
        show (stamped receipt time).get? "status" = _
        rw [stamped, Dict.get?_update_of_notMem _ _ (by simp [Dict.keys]), hstatus]
      show StatusSound t requestId (exchanges (_ ++ [_])) (_ ++ [_])
      rw [hxs]
      refine ⟨fun he => ?_, fun he => ?_, fun he => ?_, fun he => ?_⟩
      · rw [hown] at he
        cases he
      · rw [hst] at he
        obtain ⟨hresult, hdone⟩ := haccepted (by simpa using he)
        exact ⟨fun x hx => hresult x (hk.requests x hx), (hdone.append _).append _⟩
      · rw [hst] at he
        exact fun x hx => hfailed (by simpa using he) x (hk.requests x hx)
      · obtain ⟨x, hx, hnot⟩ := he
        rcases hunknown with hall | rfl
        · exact absurd (hall x (hk.requests x hx)) hnot
        · exact .inl hst

/-- The ends of a call: the verdict on the history it leaves. -/
abbrev EndsSound (t : ToolCall) (requestId : String) : Ends (List (Event WireAns)) :=
  fun _ h => StatusSound t requestId (exchanges h) h

omit [Hashlib] in
/-- An action that was entered leaves a sound status. -/
theorem sound_attempt (cwd : String)
    (hid : fresh.get? "requestId" = some (.str requestId))
    (hstatus : fresh.get? "status" = some (.str "in_progress_or_unknown"))
    (hk : Kept fresh Exchange.HasResult h) :
    Co.wp ((SoundSpec t requestId).through wire) (attempt requestId (t.action cwd))
      (fun w _ h => EndsSound t requestId (.ok w) h)
      (fun e _ h => EndsSound t requestId (.error e) h) fresh h := by
  have hosts : HostsHead ((SoundSpec t requestId).through wire) fresh _ _ :=
    hosts_sound hid hstatus
  have hhead : ∀ s, SameHead fresh s → s.get? "requestId" = some (.str requestId) := by
    intro s hs
    rw [hs "requestId" (by simp [headKeys]), hid]
  -- the action, with the run it has made when it ends
  have haction : ∀ h₀, Kept fresh Exchange.HasResult h₀ → ∀ before,
      h₀ = before ++ [⟨.base (.enter requestId), ()⟩] → ownRow before = some fresh →
      Co.wp ((SoundSpec t requestId).through wire) (t.action cwd)
        (fun _ s h' => SameHead fresh s ∧ Kept fresh Exchange.HasResult h' ∧
          Completed t requestId h')
        (fun e s h' => SameHead fresh s ∧ Kept fresh (gradeOf e) h') fresh h₀ := by
    intro h₀ hk₀ before hbefore hown
    have hfill := hosts.fills_action t cwd fresh h₀ ⟨SameHead.refl fresh, hk₀⟩
    unfold Co.wp at hfill ⊢
    rw [← Interaction.wp_handle] at hfill ⊢
    refine Interaction.wp_mono (observe_mono _ _) _ ?_ h₀ (wp_history_run _ hfill)
    rintro ⟨e | a, s⟩ h' ⟨hpost, tr, htr, hrun⟩
    · exact hpost
    · refine ⟨hpost.1, hpost.2, cwd, fresh, s, before, tr, [], ?_, hown, hrun⟩
      rw [htr, hbefore]
      simp
  refine wp_attempt_of hosts.mono
    (A := fun s h' => SameHead fresh s ∧ Kept fresh Exchange.HasResult h' ∧
      Completed t requestId h')
    (B := fun e s h' => SameHead fresh s ∧ Kept fresh (gradeOf e) h') ?_ ?_ ?_
  · refine ⟨hk.soundAt hstatus t requestId _, fun _ => ?_⟩
    refine haction _ ?_ h rfl hk.own
    exact ⟨by rw [ownRow_append]; exact hk.own, by rw [stored_append]; exact hk.row,
      by rw [exchanges_append]; exact hk.requests⟩
  · rintro s h' ⟨hs, hk', hdone⟩
    refine ⟨hhead s hs, ?_⟩
    refine saves_sound "accepted" hstatus hk' ?_
      (fun _ => ⟨fun _ hx => hx, hdone⟩) (fun e => ?_) (.inl fun _ hx => .inl hx)
    · simp
    · simp at e
  · rintro e s h' ⟨hs, hk'⟩
    refine ⟨hhead s hs, ?_⟩
    cases e with
    | rpcError method error =>
        exact saves_sound "failed" hstatus hk'
          (by simp [outcome, Dict.get?_set]) (fun e => by simp at e)
          (fun _ _ hx => hx) (.inl fun _ hx => hx)
    | worktreeError message =>
        exact saves_sound "failed" hstatus hk'
          (by simp [outcome, Dict.get?_set]) (fun e => by simp at e)
          (fun _ _ hx => hx) (.inl fun _ hx => hx)
    | cancelledError =>
        exact saves_sound "outcome_unknown" hstatus hk'
          (by simp [outcome]) (fun e => by simp at e)
          (fun e => by simp at e) (.inr rfl)
    | exception cls message =>
        exact saves_sound "outcome_unknown" hstatus hk'
          (by simp [outcome, Dict.get?_set]) (fun e => by simp at e)
          (fun e => by simp at e) (.inr rfl)

/-- Nothing has been inserted and nothing has been sent. -/
structure Idle (h : List (Event WireAns)) : Prop where
  own : ownRow h = none
  row : stored h = none
  requests : exchanges h = []

omit [Hashlib] in
theorem Idle.soundAt (hi : Idle h) (op : WireOp) (hop : opened op = none) :
    SoundAt t requestId h op := by
  have hstatus : storedStatus h = none := by rw [storedStatus, hi.row]; rfl
  unfold SoundAt
  rw [hop, hi.requests]
  refine ⟨fun _ => rfl, fun he => ?_, fun he => ?_, fun ⟨x, hx, _⟩ => ?_⟩
  · rw [hstatus] at he
    cases he
  · rw [hstatus] at he
    cases he
  · cases hx

omit [Hashlib] [Endpoint] in
theorem Idle.append (hi : Idle h) {op : Op} {r : Ans op} (hown : inserted none ⟨op, r⟩ = none)
    (hrow : durableStep none ⟨op, r⟩ = none) : Idle (h ++ [⟨.base op, r⟩]) := by
  refine ⟨?_, ?_, ?_⟩
  · rw [ownRow_append, hi.own]
    exact hown
  · rw [stored_append, hi.row]
    exact hrow
  · rw [exchanges_append, hi.requests]
    rfl

omit [Hashlib] [Endpoint] in
/-- What the ledger is asked around an insertion leaves no trace. -/
theorem record_of_isPreparatory {op : Op} (hop : op.isPreparatory = true) (r : Ans op)
    (m : Option Dict) : inserted m ⟨op, r⟩ = m ∧ durableStep m ⟨op, r⟩ = m := by
  cases op with
  | beginRow key fp receipt => cases hop
  | update key receipt => cases hop
  | _ => exact ⟨rfl, rfl⟩

/-- **A call keeps its status sound**, at every operation and at its end. -/
theorem ToolCall.sound_run (t : ToolCall) (requestId : String) :
    Interaction.wp (SoundSpec t requestId) (t.wire requestId)
      (fun _ h => StatusSound t requestId (exchanges h) h) [] := by
  have hΦ : Indifferent ((SoundSpec t requestId).through CodexRemoteBridge.wire) Idle := by
    refine ⟨(observe_mono _ _).through _, ?_⟩
    intro op h hop hi
    show Interaction.wp (SoundSpec t requestId) (CodexRemoteBridge.wire op) _ h
    rw [wp_wire_base _ (by rintro method params rfl; cases hop) (by rintro rfl; cases hop)]
    refine ⟨hi.soundAt _ rfl, fun r => ?_⟩
    obtain ⟨hown, hrow⟩ := record_of_isPreparatory hop r none
    exact hi.append hown hrow
  unfold ToolCall.wire
  rw [Interaction.wp_handle]
  refine Interaction.wp_mono hΦ.mono _ (fun r h hs => hs) _
    (hΦ.wp_tool (P := EndsSound t requestId) t requestId ⟨rfl, rfl, rfl⟩ ?_ ?_ ?_)
  · intro r h hi
    exact hi.soundAt (.base .release) rfl
  · intro r h hs
    refine ⟨hs, fun _ => ?_⟩
    show StatusSound t requestId (exchanges (h ++ [_])) (h ++ [_])
    rw [exchanges_append]
    refine hs.append ?_ ?_
    · rw [ownRow_append]
      rfl
    · rw [stored_append]
      rfl
  · intro cwd fp startedAt h hfp hi
    refine ⟨hi.soundAt _ rfl, fun r => ?_⟩
    rcases r with f | _ | row
    · exact hi.append rfl rfl
    · refine sound_attempt cwd rfl rfl ⟨?_, ?_, ?_⟩
      · rw [ownRow_append]
        rfl
      · rw [stored_append]
        exact ⟨_, rfl, SameHead.refl _⟩
      · rw [exchanges_append, hi.requests]
        intro x hx
        cases hx
    · exact hi.append rfl rfl

end Whole

/-! ## §4. Every execution. -/

section Executions

variable [Hashlib] [Endpoint]

/-- The requests a call has sent, the one it is sending included. -/
def Client.sent (c : Client) : List Exchange :=
  (c.rest.head?.bind opened).toList ++ exchanges c.history

/-- What the stored status of a row says about the call that owns it. -/
structure Row.Tells (row : Row) (c : Client) : Prop where
  accepted : row.receipt.get? "status" = some (.str "accepted") →
    (∀ x ∈ c.sent, x.HasResult) ∧ Completed c.tool c.requestId c.history
  failed : row.receipt.get? "status" = some (.str "failed") → ∀ x ∈ c.sent, x.Answered
  unknown : (∃ x ∈ c.sent, ¬ x.Answered) →
    row.receipt.get? "status" = some (.str "outcome_unknown") ∨
    row.receipt.get? "status" = some (.str "in_progress_or_unknown")

theorem Client.statusSound {c : Client}
    (h : Run (c.tool.wire c.requestId) c.history c.rest) :
    StatusSound c.tool c.requestId c.sent c.history := by
  have hsound := c.tool.sound_run c.requestId
  cases hrest : c.rest.head? with
  | some op =>
      have hop := wp_run_head hsound h hrest
      rw [foldl_remember, List.nil_append] at hop
      rw [Client.sent, hrest]
      exact hop
  | none =>
      have hsent : c.sent = exchanges c.history := by
        rw [Client.sent, hrest]
        rfl
      rw [hsent]
      cases hc : c.rest with
      | op i k => simp [hc, Prog.head?] at hrest
      | ret r =>
          rw [hc] at h
          have hend := wp_run_ret hsound h
          rwa [foldl_remember, List.nil_append] at hend

/-- **The status of a receipt is sound.**  In every state of every
execution, a call that has sent anything owns its row, and the status stored
there says no more than the answers to its requests bear out. -/
theorem System.status_sound {store : Store} {S : System}
    (h : System.Reach (System.init store) S) {c : Client} (hc : c ∈ S.clients) :
    (c.fresh = none ∧ c.sent = []) ∨
    ∃ row, S.store.find? c.requestId = some row ∧ c.fresh.isSome = true ∧ row.Tells c := by
  have howned := Owned.of_reach h
  have hsound := Client.statusSound (howned.runs c hc)
  cases hfresh : c.fresh with
  | none => exact .inl ⟨rfl, hsound.idle hfresh⟩
  | some fresh =>
      have hsome : c.fresh.isSome = true := by rw [hfresh]; rfl
      obtain ⟨row, hrow, hdurable, -⟩ := (howned.holds c hc hsome).row
      have hstatus : storedStatus c.history = row.receipt.get? "status" := by
        show (c.durable).bind _ = _
        rw [hdurable]
        rfl
      refine .inr ⟨row, hrow, rfl, ?_, ?_, ?_⟩
      · rw [← hstatus]
        exact hsound.accepted
      · rw [← hstatus]
        exact hsound.failed
      · rw [← hstatus]
        exact hsound.unknown

end Executions

/-- A retitling whose request is on its way. -/
theorem System.status_sound_sending :
    let _ := Hashlib.verbatim
    let _ := Endpoint.sample
    ∃ (S : System) (c : Client), System.Reach (System.init Store.empty) S ∧ c ∈ S.clients ∧
      c.sent = [⟨1, "thread/name/set", none⟩] ∧
      ((c.fresh = none ∧ c.sent = []) ∨
        ∃ row, S.store.find? c.requestId = some row ∧ c.fresh.isSome = true ∧ row.Tells c) := by
  intro _ _
  have h := (System.Reach.init : System.Reach (System.init Store.empty) _)
    |>.step (.call 0 "r" (.setThreadTitle ⟨"t", "x"⟩))
    |>.answer 0 (.base .acquire) (.ok ()) rfl rfl rfl (.other _ (by simp) (by simp) (by simp))
        (.acquire rfl)
    |>.answer 0 (.base (.select "r")) (.ok none) rfl rfl rfl (.select "r")
        (.other _ (by simp) (by simp))
    |>.answer 0 (.base .now) "0.0" rfl rfl rfl (.other _ (by simp) (by simp) (by simp))
        (.other _ (by simp) (by simp))
    |>.answer 0 (.base (.beginRow "r" _ _)) (.ok none) rfl rfl rfl (.insert rfl)
        (.other _ (by simp) (by simp))
    |>.answer 0 (.base (.enter "r")) () rfl rfl rfl (.other _ (by simp) (by simp) (by simp))
        (.other _ (by simp) (by simp))
    |>.answer 0 (.net .lock) (.ok ()) rfl rfl rfl (.other _ (by simp) (by simp) (by simp))
        (.other _ (by simp) (by simp))
    |>.answer 0 (.net .readerAlive) true rfl rfl rfl (.other _ (by simp) (by simp) (by simp))
        (.other _ (by simp) (by simp))
    |>.answer 0 (.net .unlock) () rfl rfl rfl (.other _ (by simp) (by simp) (by simp))
        (.other _ (by simp) (by simp))
    |>.answer 0 (.net .ws) (some (0 : Conn)) rfl rfl rfl (.other _ (by simp) (by simp) (by simp))
        (.other _ (by simp) (by simp))
    |>.answer 0 (.net .register) (1 : Nat) rfl rfl rfl (.other _ (by simp) (by simp) (by simp))
        (.other _ (by simp) (by simp))
  exact ⟨_, _, h, List.mem_singleton.mpr rfl, rfl,
    System.status_sound h (List.mem_singleton.mpr rfl)⟩

end CodexRemoteBridge
