/-
  CodexRemoteBridge.Subscribers — the connection over which a thread was
  resumed or forked.

  A client that resumes or forks a thread stays subscribed to it for as
  long as its connection is open.  The tools close that connection at the
  end of their success paths, so a run that leaves early keeps it open.

  Main result: `ToolCall.subscriber_closed_iff`.
-/
import CodexRemoteBridge.Receipts
import CodexRemoteBridge.Wire
import CodexRemoteBridge.Withholding

namespace CodexRemoteBridge

open Interaction

/-! ## §1. A run and its subscription. -/

/-- The request by which a tool subscribes to a thread. -/
def ToolCall.subscribing : ToolCall → Option String
  | .sendMessageToThread _ => some "thread/resume"
  | .forkThread _ => some "thread/fork"
  | _ => none

/-- Whether a run has subscribed: the connection, the result it got over it,
and what has happened since. -/
inductive Standing where
  | outside (inFlight : Option (Conn × Nat))
  | subscribed (w : Conn) (result : Json) (after : List (Event WireAns))

/-- Follow the request `method` of a run. -/
def subscribeStep (method : String) (m : Standing) (e : Event WireAns) : Standing :=
  match m, e with
  | .subscribed w result after, e => .subscribed w result (after ++ [e])
  | .outside _, ⟨.net (.send w ⟨some ident, sent, _⟩), .ok ()⟩ =>
      .outside (if sent = method then some (w, ident) else none)
  | .outside (some (w, ident)), ⟨.net (.awaitReply ident'), .ok message⟩ =>
      if ident' = ident then
        match AppServer.reply method message with
        | .ok result => .subscribed w result []
        | .error _ => .outside none
      else .outside (some (w, ident))
  | .outside inFlight, _ => .outside inFlight

/-- Where a run stands. -/
def standing (method : String) (h : List (Event WireAns)) : Standing :=
  h.foldl (subscribeStep method) (.outside none)

/-- The run has closed the connection. -/
def Closed (w : Conn) (after : List (Event WireAns)) : Prop :=
  (⟨.net (.closeTransport w), .ok ()⟩ : Event WireAns) ∈ after

/-- The event shows that the connection is no longer the live one. -/
def disturbs (w : Conn) : Event WireAns → Bool
  | ⟨.net .readerAlive, alive⟩ => !alive
  | ⟨.net .ws, current⟩ => current ≠ some w
  | _ => false

/-- The run has found its connection lost, or replaced by another task. -/
def Gone (w : Conn) (after : List (Event WireAns)) : Prop := ∃ e ∈ after, disturbs w e = true

/-- The ledger did not take a save, or a transport did not close. -/
def faulty : Event WireAns → Bool
  | ⟨.base (.update _ _), .error _⟩ => true
  | ⟨.net (.closeTransport _), .error _⟩ => true
  | _ => false

/-- The message is a reply to `turn/start` that has a turn's id. -/
def hasTurnId (message : Dict) : Bool :=
  match AppServer.reply "turn/start" message with
  | .ok turn => (index2 "turn" "id" turn).isOk
  | .error _ => false

/-- A `turn/start` was answered with the id of a turn. -/
def TurnStarted (after : List (Event WireAns)) : Prop :=
  ∃ w ident params message,
    (⟨.net (.send w ⟨some ident, "turn/start", params⟩), .ok ()⟩ : Event WireAns) ∈ after ∧
    (⟨.net (.awaitReply ident), .ok message⟩ : Event WireAns) ∈ after ∧
    hasTurnId message = true

/-- The answers with which a tool gets to the end of its action. -/
def ToolCall.Clean : ToolCall → Json → List (Event WireAns) → Prop
  | .sendMessageToThread _, resumed, after =>
      resumed.getNone "approvalPolicy" = .ok (.str "never") ∧ TurnStarted after ∧
        ∀ e ∈ after, faulty e = false
  | .forkThread _, fork, after =>
      (∃ id, index2 "thread" "id" fork = .ok id) ∧ ∀ e ∈ after, faulty e = false
  | _, _, _ => False

/-! ## §2. Before the subscription. -/

/-- What a run may be answered as long as its connection stays the live one. -/
def undisturbed (m : Standing) (e : Event WireAns) : Prop :=
  match m with
  | .outside _ => True
  | .subscribed w _ _ => disturbs w e = false

/-- Following a run whose connection stays the live one. -/
abbrev SubSpec (method : String) : OpSpec WireAns Standing :=
  observeOn undisturbed (subscribeStep method) fun _ _ => True

/-- The same, seen by a tool call. -/
abbrev ToolSpec [Endpoint] (method : String) : OpSpec Ans Standing :=
  (SubSpec method).through wire

/-- The same, seen by a coroutine of `AppServer`. -/
abbrev NetSpec (method : String) : OpSpec NetAns Standing := netSpec (SubSpec method)

theorem subSpec_mono (method : String) : (SubSpec method).Mono := observeOn_mono _ _ _

theorem netSpec_mono (method : String) : (NetSpec method).Mono :=
  fun op _ _ hQ m h => subSpec_mono method (.net op) hQ m h

/-- Whatever the run ends with, the connection is closed exactly if the
answers were clean. -/
def Square (t : ToolCall) : Standing → Prop
  | .outside _ => True
  | .subscribed w result after => Closed w after ↔ t.Clean result after

/-- The run has not subscribed, and its receipt has the request's id. -/
def Outside (requestId : String) (s : Dict) (m : Standing) : Prop :=
  s.get? "requestId" = some (.str requestId) ∧ m = .outside none

section Before

variable {method : String}

theorem gitEffect_ne_request (args : List String) (other : String) :
    gitEffect args ≠ some (.request other) := by
  unfold gitEffect
  split
  · simp
  · simp
  · simp
  · split <;> simp

theorem eq_of_requestEffect {sent other : String}
    (h : requestEffect sent = some (.request other)) : sent = other := by
  unfold requestEffect at h
  split at h
  · cases h
  · exact Effect.request.inj (Option.some.inj h)

/-- Only the request itself gets a run off the outside. -/
theorem outside_step (op : WireOp) (hop : op.effect ≠ some (.request method))
    (hinit : method ≠ "initialize") (r : WireAns op) :
    subscribeStep method (.outside none) ⟨op, r⟩ = .outside none := by
  cases op with
  | base op => rfl
  | net op =>
      cases op with
      | send w frame =>
          obtain ⟨ident | ident, sent, params⟩ := frame
          · cases r <;> rfl
          · cases r with
            | error f => rfl
            | ok _ =>
                have hne : sent ≠ method := by
                  rintro rfl
                  exact hop (by simp [WireOp.effect, NetOp.effect, requestEffect, hinit])
                simp [subscribeStep, hne]
      | awaitReply ident => cases r <;> rfl
      | _ => rfl

variable [Endpoint]

/-- An operation without the request leaves a run outside. -/
theorem outside_keeps (hinit : method ≠ "initialize") {op : Op}
    (hop : op.effect ≠ some (.request method)) :
    ToolSpec method op (fun _ m => m = .outside none) (.outside none) := by
  refine Emits.keeps (subSpec_mono method) (emits_wire op) ?_ _ rfl
  rintro i m hi rfl
  refine ⟨trivial, fun r _ => outside_step _ (fun he => ?_) hinit r⟩
  have hmem := hi _ he
  cases hop' : op.effect with
  | none => simp [hop'] at hmem
  | some e =>
      rw [hop'] at hmem hop
      exact hop (congrArg some (List.mem_singleton.mp hmem).symm)

theorem hosts_outside (method : String) (t : ToolCall) (hinit : method ≠ "initialize")
    (requestId : String) :
    Hosts (ToolSpec method) (fun key => key ≠ "requestId") (fun other => other ≠ method)
      (Outside requestId) (fun _ _ m => Square t m) where
  mono := (subSpec_mono method).through wire
  act := by
    rintro op s m hop ⟨hs, rfl⟩
    refine (subSpec_mono method).through wire _ (fun r m hm => ⟨hs, hm⟩) _
      (outside_keeps hinit fun he => ?_)
    cases op with
    | git cwd args => exact gitEffect_ne_request args method he
    | call other params => cases hop
    | enter id => cases hop
    | _ => cases he
  update := by
    rintro key updatedAt s m - ⟨hs, rfl⟩
    exact (subSpec_mono method).through wire _ (fun r m hm => ⟨hs, hm⟩) _
      (outside_keeps hinit nofun)
  fields := by
    rintro fields s m hkeys ⟨hs, hm⟩
    exact ⟨by rw [Dict.get?_update_of_notMem fields s fun hmem => hkeys _ hmem rfl, hs], hm⟩
  call := by
    rintro other params s m hother ⟨hs, rfl⟩
    refine (subSpec_mono method).through wire _ (fun r m hm => ?_) _
      (outside_keeps hinit fun he => hother ?_)
    · cases r with
      | ok reply => exact ⟨hs, hm⟩
      | error e => rw [hm]; trivial
    · exact eq_of_requestEffect he
  close := by
    rintro s m ⟨hs, rfl⟩
    refine (subSpec_mono method).through wire _ (fun r m hm => ?_) _ (outside_keeps hinit nofun)
    cases r with
    | ok _ => exact ⟨hs, hm⟩
    | error e => rw [hm]; trivial
  own := by
    rintro e s m ⟨-, rfl⟩
    trivial
  goal := fun _ _ _ _ h => h

end Before

/-! ## §3. After the subscription. -/

/-- The event closes no connection, starts no turn and is no failure. -/
def calm : Event WireAns → Bool
  | ⟨.net (.closeTransport _), _⟩ => false
  | ⟨.net (.awaitReply _), .ok message⟩ => !hasTurnId message
  | e => !faulty e

/-- Subscribed, and nothing that matters has happened since. -/
def Calm (w : Conn) (result : Json) (m : Standing) : Prop :=
  ∃ after, m = .subscribed w result after ∧ ∀ e ∈ after, calm e = true

/-- Subscribed and ready to close: the answers were clean, and the
connection is still open. -/
def Ready (t : ToolCall) (w : Conn) (result : Json) (m : Standing) : Prop :=
  ∃ after, m = .subscribed w result after ∧ ¬ Closed w after ∧ t.Clean result after

section After

variable {t : ToolCall} {method : String} {w : Conn} {result : Json} {m : Standing}
variable {after : List (Event WireAns)}

theorem not_closed_of_calm (h : ∀ e ∈ after, calm e = true) : ¬ Closed w after := by
  intro hclosed
  cases h _ hclosed

theorem not_started_of_calm (h : ∀ e ∈ after, calm e = true) : ¬ TurnStarted after := by
  rintro ⟨_, ident, _, message, -, hanswered, hturn⟩
  have hcalm := h _ hanswered
  simp [calm, hturn] at hcalm

theorem faulty_of_calm {e : Event WireAns} (h : calm e = true) : faulty e = false := by
  obtain ⟨op, r⟩ := e
  cases op with
  | base op => simpa [calm] using h
  | net op =>
      cases op with
      | closeTransport w => cases h
      | _ => rfl

theorem Calm.append (method : String) (hm : Calm w result m) {e : Event WireAns}
    (he : calm e = true) : Calm w result (subscribeStep method m e) := by
  obtain ⟨after, rfl, hcalm⟩ := hm
  refine ⟨after ++ [e], rfl, fun x hx => ?_⟩
  rcases List.mem_append.mp hx with hx | hx
  · exact hcalm x hx
  · obtain rfl := List.mem_singleton.mp hx
    exact he

/-- A send that has not started its turn is square. -/
theorem Calm.square_send (hm : Calm w result m) (a : SendMessage) :
    Square (.sendMessageToThread a) m := by
  obtain ⟨after, rfl, hcalm⟩ := hm
  exact ⟨fun hc => absurd hc (not_closed_of_calm hcalm),
    fun hc => absurd hc.2.1 (not_started_of_calm hcalm)⟩

/-- A save keeps what is square. -/
theorem Square.base (method : String) (hm : Square t m) (op : Op) (r : Ans op)
    (hr : faulty ⟨.base op, r⟩ = false) :
    Square t (subscribeStep method m ⟨.base op, r⟩) := by
  cases m with
  | outside inFlight => trivial
  | subscribed w result after =>
      have hmem : ∀ {nop : NetOp} {x : NetAns nop},
          (⟨.net nop, x⟩ : Event WireAns) ∈ after ++ [⟨.base op, r⟩] →
          (⟨.net nop, x⟩ : Event WireAns) ∈ after := by
        intro nop x hx
        rcases List.mem_append.mp hx with hx | hx
        · exact hx
        · cases List.mem_singleton.mp hx
      have hfaulty : (∀ e ∈ after ++ [(⟨.base op, r⟩ : Event WireAns)], faulty e = false) ↔
          ∀ e ∈ after, faulty e = false := by
        constructor
        · exact fun h e he => h e (List.mem_append_left _ he)
        · intro h e he
          rcases List.mem_append.mp he with he | he
          · exact h e he
          · obtain rfl := List.mem_singleton.mp he
            exact hr
      have hclosed : Closed w (after ++ [⟨.base op, r⟩]) ↔ Closed w after :=
        ⟨hmem, fun h => List.mem_append_left _ h⟩
      have hturn : TurnStarted (after ++ [⟨.base op, r⟩]) ↔ TurnStarted after := by
        constructor
        · rintro ⟨w', ident, params, message, hsent, hanswered, hid⟩
          exact ⟨w', ident, params, message, hmem hsent, hmem hanswered, hid⟩
        · rintro ⟨w', ident, params, message, hsent, hanswered, hid⟩
          exact ⟨w', ident, params, message, List.mem_append_left _ hsent,
            List.mem_append_left _ hanswered, hid⟩
      have hclean : t.Clean result (after ++ [⟨.base op, r⟩]) ↔ t.Clean result after := by
        cases t <;> simp only [ToolCall.Clean, hturn, hfaulty]
      show Closed w (after ++ [⟨.base op, r⟩]) ↔ t.Clean result (after ++ [⟨.base op, r⟩])
      rw [hclosed, hclean]
      exact hm

theorem TurnStarted.mono {after' : List (Event WireAns)} (h : TurnStarted after)
    (hsub : after ⊆ after') : TurnStarted after' := by
  obtain ⟨w, ident, params, message, hsent, hanswered, hid⟩ := h
  exact ⟨w, ident, params, message, hsub hsent, hsub hanswered, hid⟩

theorem clean_append (hc : t.Clean result after) {e : Event WireAns} (he : faulty e = false) :
    t.Clean result (after ++ [e]) := by
  have hfaulty : (∀ x ∈ after, faulty x = false) → ∀ x ∈ after ++ [e], faulty x = false := by
    intro h x hx
    rcases List.mem_append.mp hx with hx | hx
    · exact h x hx
    · obtain rfl := List.mem_singleton.mp hx
      exact he
  cases t with
  | sendMessageToThread a =>
      exact ⟨hc.1, hc.2.1.mono (List.subset_append_left _ _), hfaulty hc.2.2⟩
  | forkThread a => exact ⟨hc.1, hfaulty hc.2⟩
  | _ => exact hc

theorem clean_faulty (hc : t.Clean result after) : ∀ e ∈ after, faulty e = false := by
  cases t with
  | sendMessageToThread a => exact hc.2.2
  | forkThread a => exact hc.2
  | _ => exact hc.elim

/-- The connection is closed, and the answers were clean. -/
def Settled (t : ToolCall) (w : Conn) (result : Json) (m : Standing) : Prop :=
  ∃ after, m = .subscribed w result after ∧ Closed w after ∧ t.Clean result after

theorem Settled.append (method : String) (hm : Settled t w result m) {e : Event WireAns}
    (he : faulty e = false) : Settled t w result (subscribeStep method m e) := by
  obtain ⟨after, rfl, hclosed, hclean⟩ := hm
  exact ⟨after ++ [e], rfl, List.mem_append_left _ hclosed, clean_append hclean he⟩

theorem Settled.square (hm : Settled t w result m) : Square t m := by
  obtain ⟨after, rfl, hclosed, hclean⟩ := hm
  exact ⟨fun _ => hclean, fun _ => hclosed⟩

/-- A coroutine of `AppServer` that keeps `P`, on both ways out. -/
abbrev KeepsNet {α : Type} (method : String) (P : Standing → Prop) (c : Net α) : Prop :=
  c.Keeps (NetSpec method) (fun _ m => P m) fun _ _ m => P m

/-- An operation none of whose events matters to `P`. -/
theorem keepsNet_ask {P : Standing → Prop} {op : NetOp}
    (hop : ∀ m (r : NetAns op), P m → undisturbed m ⟨.net op, r⟩ →
      P (subscribeStep method m ⟨.net op, r⟩)) :
    KeepsNet method P (Co.ask op : Net (NetAns op)) :=
  fun _ m hm => ⟨trivial, fun r hr => hop m r hm hr⟩

theorem keepsNet_perform {α : Type} {P : Standing → Prop} (op : NetOp)
    (hop : ∀ m (r : NetAns op), P m → undisturbed m ⟨.net op, r⟩ →
      P (subscribeStep method m ⟨.net op, r⟩)) (view : NetAns op → Except PyExc α) :
    KeepsNet method P (AppServer.perform op view) := by
  intro s m hm
  rw [AppServer.wp_perform]
  refine ⟨trivial, fun r hr => ?_⟩
  have hm' := hop m r hm hr
  dsimp only
  cases view r with
  | ok a => exact hm'
  | error e => exact hm'

theorem keepsNet_bind {α β : Type} {P : Standing → Prop} {c : Net α} {f : α → Net β}
    (hc : KeepsNet method P c) (hf : ∀ a, KeepsNet method P (f a)) :
    KeepsNet method P (c >>= f) := Co.Keeps.bind (netSpec_mono method) hc hf

/-- Once the connection is closed, the rest of `close` changes nothing. -/
theorem keeps_closeReader : KeepsNet method (Settled t w result) (do
    let reader ← AppServer.reader
    match reader with
    | none => pure ()
    | some reader => do
        AppServer.cancelReader reader
        AppServer.suppressCancelled (AppServer.joinReader reader)
        AppServer.clearReader) := by
  refine keepsNet_bind (keepsNet_ask fun m r hm _ => hm.append method rfl) fun reader => ?_
  cases reader with
  | none => exact Co.keeps_pure ()
  | some reader =>
      refine keepsNet_bind (keepsNet_ask fun m r hm _ => hm.append method rfl) fun _ => ?_
      refine keepsNet_bind ?_ fun _ => keepsNet_ask fun m r hm _ => hm.append method rfl
      refine Co.Keeps.tryCatch (netSpec_mono method)
        (keepsNet_perform (.joinReader reader) (fun m r hm _ => hm.append method rfl) lift)
        fun e s m hm => ?_
      cases e <;> exact hm

/-- A clean run that closes its connection is square, whether or not the
transport can be closed. -/
theorem wp_close_ready (hm : Ready t w result m) :
    Co.wp (NetSpec method) AppServer.close (fun _ _ m => Square t m) (fun _ _ m => Square t m)
      () m := by
  obtain ⟨after, rfl, hopen, hclean⟩ := hm
  unfold AppServer.close
  rw [Co.wp_bind]
  refine ⟨trivial, fun current hcurrent => ?_⟩
  obtain rfl : current = some w := by simpa [undisturbed, disturbs] using hcurrent
  have hread : t.Clean result (after ++ [⟨.net .ws, some w⟩]) := clean_append hclean rfl
  show Co.wp (NetSpec method) (AppServer.closeTransport w >>= fun _ =>
    AppServer.clearWs >>= fun _ => _) _ _ () (.subscribed w result (after ++ [⟨.net .ws, some w⟩]))
  rw [Co.wp_bind, AppServer.closeTransport, AppServer.wp_perform]
  refine ⟨trivial, fun r _ => ?_⟩
  cases r with
  | ok _ =>
      show Co.wp (NetSpec method) (AppServer.clearWs >>= fun _ => _) _ _ () _
      rw [Co.wp_bind]
      refine ⟨trivial, fun _ _ => ?_⟩
      have hsettled : Settled t w result (.subscribed w result (after ++ [⟨.net .ws, some w⟩]
          ++ [⟨.net (.closeTransport w), .ok ()⟩])) :=
        ⟨_, rfl, List.mem_append_right _ (List.mem_singleton_self _), clean_append hread rfl⟩
      exact Co.wp_conseq (netSpec_mono method)
        (keeps_closeReader () _ (hsettled.append method (e := ⟨.net .clearWs, ()⟩) rfl))
        (fun _ _ _ hm => hm.square) fun _ _ _ hm => hm.square
  | error f =>
      show Closed w _ ↔ t.Clean result _
      refine ⟨fun hclosed => absurd ?_ hopen, fun hc => ?_⟩
      · simpa [Closed] using hclosed
      · have hfaulty := clean_faulty hc ⟨.net (.closeTransport w), .error f⟩ (by simp)
        cases hfaulty

/-! ### Requests. -/

/-- A run that sends its request is subscribed exactly if it gets a result. -/
theorem wp_exchange_subscribing (ident : Nat) (params : Dict) :
    Co.wp (NetSpec method) (AppServer.exchange w ident method params)
      (fun message _ m => match AppServer.reply method message with
        | .ok result => m = .subscribed w result []
        | .error _ => m = .outside none)
      (fun _ _ m => ∃ o, m = .outside o) () (.outside none) := by
  unfold AppServer.exchange
  rw [Co.wp_tryCatch, Co.wp_bind, AppServer.send, AppServer.wp_perform]
  have hraise : ∀ (error : PyExc) (o : Option (Conn × Nat)),
      Co.wp (NetSpec method)
        (if error.isOSError then Co.throw (AppServer.unavailable method) else Co.throw error :
          Net Dict) (fun message _ m => match AppServer.reply method message with
            | .ok result => m = .subscribed w result []
            | .error _ => m = .outside none)
        (fun _ _ m => ∃ o, m = .outside o) () (.outside o) := by
    intro error o
    split
    · exact ⟨o, rfl⟩
    · exact ⟨o, rfl⟩
  refine ⟨trivial, fun sent _ => ?_⟩
  cases sent with
  | error f => exact hraise _ none
  | ok _ =>
      have hsent : subscribeStep method (.outside none)
          ⟨.net (.send w ⟨some ident, method, params⟩), .ok ()⟩ = .outside (some (w, ident)) := by
        simp [subscribeStep]
      rw [hsent]
      show Co.wp (NetSpec method) (AppServer.awaitReply ident) _ _ () _
      rw [AppServer.awaitReply, AppServer.wp_perform]
      refine ⟨trivial, fun r _ => ?_⟩
      cases r with
      | error f => exact hraise _ (some (w, ident))
      | ok message =>
          have hanswered : subscribeStep method (.outside (some (w, ident)))
              ⟨.net (.awaitReply ident), .ok message⟩ =
                match AppServer.reply method message with
                | .ok result => .subscribed w result []
                | .error _ => .outside none := by
            simp [subscribeStep]
          rw [hanswered]
          dsimp only [lift]
          split <;> rfl

theorem wp_request_subscribing (params : Dict) :
    Co.wp (NetSpec method) (AppServer.request method params)
      (fun result _ m => ∃ w, Calm w result m) (fun _ _ m => ∃ o, m = .outside o) ()
      (.outside none) := by
  unfold AppServer.request
  rw [Co.wp_bind]
  refine ⟨trivial, fun current _ => ?_⟩
  cases current with
  | none => exact ⟨none, rfl⟩
  | some w =>
      show Co.wp (NetSpec method) (AppServer.register >>= fun _ => _) _ _ () (.outside none)
      rw [Co.wp_bind]
      refine ⟨trivial, fun ident _ => ?_⟩
      show Co.wp (NetSpec method) (Co.tryFinally (AppServer.exchange w ident method params)
        (AppServer.unregister ident) >>= fun _ => _) _ _ () (.outside none)
      rw [Co.wp_bind, Co.wp_tryFinally]
      refine Co.wp_conseq (netSpec_mono method) (wp_exchange_subscribing ident params) ?_ ?_
      · intro message s m hm
        refine ⟨trivial, fun _ _ => ?_⟩
        show Co.wp (NetSpec method) (Co.ofExcept (AppServer.reply method message)) _ _ s _
        rw [Co.wp_ofExcept]
        cases hreply : AppServer.reply method message with
        | ok result =>
            rw [hreply] at hm
            obtain rfl := hm
            exact ⟨w, [⟨.net (.unregister ident), ()⟩], rfl, by simp [calm, faulty]⟩
        | error e =>
            rw [hreply] at hm
            obtain rfl := hm
            exact ⟨none, rfl⟩
      · rintro e s _ ⟨o, rfl⟩
        refine ⟨trivial, fun _ _ => ⟨o, ?_⟩⟩
        cases o <;> rfl

/-- Subscribed, with a turn started, and nothing has failed. -/
def Started (w : Conn) (result : Json) (m : Standing) : Prop :=
  ∃ after, m = .subscribed w result after ∧ ¬ Closed w after ∧ TurnStarted after ∧
    ∀ e ∈ after, faulty e = false

theorem wp_exchange_turn (hm : Calm w result m) (w' : Conn) (ident : Nat) (params : Dict) :
    Co.wp (NetSpec method) (AppServer.exchange w' ident "turn/start" params)
      (fun message _ m => if hasTurnId message then Started w result m else Calm w result m)
      (fun _ _ m => Calm w result m) () m := by
  unfold AppServer.exchange
  rw [Co.wp_tryCatch, Co.wp_bind, AppServer.send, AppServer.wp_perform]
  have hraise : ∀ (error : PyExc) {m}, Calm w result m → Co.wp (NetSpec method)
      (if error.isOSError then Co.throw (AppServer.unavailable "turn/start")
        else Co.throw error : Net Dict)
      (fun message _ m => if hasTurnId message then Started w result m else Calm w result m)
      (fun _ _ m => Calm w result m) () m := by
    intro error m hm
    split
    · exact hm
    · exact hm
  refine ⟨trivial, fun sent _ => ?_⟩
  have hsent := hm.append method
    (e := ⟨.net (.send w' ⟨some ident, "turn/start", params⟩), sent⟩) rfl
  cases sent with
  | error f => exact hraise _ hsent
  | ok _ =>
      show Co.wp (NetSpec method) (AppServer.awaitReply ident) _ _ () _
      rw [AppServer.awaitReply, AppServer.wp_perform]
      refine ⟨trivial, fun r _ => ?_⟩
      cases r with
      | error f => exact hraise _ (hsent.append method rfl)
      | ok message =>
          show if hasTurnId message then Started w result _ else Calm w result _
          split
          · rename_i hturn
            obtain ⟨after, rfl, hcalm⟩ := hm
            refine ⟨_, rfl, ?_, ⟨w', ident, params, message, ?_, ?_, hturn⟩, ?_⟩
            · have hopen : ¬ Closed w after := not_closed_of_calm hcalm
              simpa [Closed] using hopen
            · simp
            · simp
            · intro e he
              simp only [List.mem_append, List.mem_singleton] at he
              rcases he with (he | rfl) | rfl
              · exact faulty_of_calm (hcalm e he)
              · rfl
              · rfl
          · rename_i hturn
            exact hsent.append method (by simpa [calm] using hturn)

theorem Started.append (method : String) (hm : Started w result m) {op : NetOp} {r : NetAns op}
    (hop : ∀ w', op ≠ .closeTransport w') :
    Started w result (subscribeStep method m ⟨.net op, r⟩) := by
  obtain ⟨after, rfl, hopen, hturn, hfaulty⟩ := hm
  refine ⟨_, rfl, fun hclosed => ?_, hturn.mono (List.subset_append_left _ _), fun e he => ?_⟩
  · rcases List.mem_append.mp hclosed with hclosed | hclosed
    · exact hopen hclosed
    · have heq := List.mem_singleton.mp hclosed
      cases heq
      exact hop w rfl
  · rcases List.mem_append.mp he with he | he
    · exact hfaulty e he
    · obtain rfl := List.mem_singleton.mp he
      cases op with
      | closeTransport w' => exact absurd rfl (hop w')
      | _ => rfl

/-- The `turn/start` of a run that stays subscribed: either the reply has a
turn's id, or nothing that matters has happened. -/
theorem wp_request_turn (hm : Calm w result m) (params : Dict) :
    Co.wp (NetSpec method) (AppServer.request "turn/start" params)
      (fun turn _ m => if (index2 "turn" "id" turn).isOk then Started w result m
        else Calm w result m)
      (fun _ _ m => Calm w result m) () m := by
  unfold AppServer.request
  rw [Co.wp_bind]
  refine ⟨trivial, fun current _ => ?_⟩
  have hread := hm.append method (e := ⟨.net .ws, current⟩) rfl
  cases current with
  | none => exact hread
  | some w' =>
      show Co.wp (NetSpec method) (AppServer.register >>= fun _ => _) _ _ () _
      rw [Co.wp_bind]
      refine ⟨trivial, fun ident _ => ?_⟩
      have hregistered := hread.append method (e := ⟨.net .register, ident⟩) rfl
      show Co.wp (NetSpec method) (Co.tryFinally (AppServer.exchange w' ident "turn/start" params)
        (AppServer.unregister ident) >>= fun _ => _) _ _ () _
      rw [Co.wp_bind, Co.wp_tryFinally]
      refine Co.wp_conseq (netSpec_mono method) (wp_exchange_turn hregistered w' ident params) ?_ ?_
      · intro message s m hm
        refine ⟨trivial, fun _ _ => ?_⟩
        show Co.wp (NetSpec method) (Co.ofExcept (AppServer.reply "turn/start" message)) _ _ s _
        rw [Co.wp_ofExcept]
        unfold hasTurnId at hm
        cases hreply : AppServer.reply "turn/start" message with
        | error e =>
            rw [hreply] at hm
            exact Calm.append method hm rfl
        | ok turn =>
            rw [hreply] at hm
            dsimp only at hm ⊢
            split
            · rename_i hid
              rw [if_pos hid] at hm
              exact hm.append method nofun
            · rename_i hid
              rw [if_neg hid] at hm
              exact hm.append method rfl
      · intro e s m hm
        exact ⟨trivial, fun _ _ => hm.append method rfl⟩

/-- With a live reader, connecting does nothing. -/
theorem keeps_connect [Endpoint] : KeepsNet method (Calm w result) AppServer.connect := by
  unfold AppServer.connect
  refine keepsNet_bind (keepsNet_perform .lock (fun m r hm _ => hm.append method rfl) lift)
    fun _ => ?_
  intro s m hm
  rw [Co.wp_tryFinally, Co.wp_bind]
  refine ⟨trivial, fun alive halive => ?_⟩
  have hread := hm.append method (e := ⟨.net .readerAlive, alive⟩) rfl
  obtain ⟨after, rfl, -⟩ := hm
  obtain rfl : alive = true := by simpa [undisturbed, disturbs] using halive
  exact ⟨trivial, fun _ _ => hread.append method rfl⟩

theorem wp_call_turn [Endpoint] (hm : Calm w result m) (params : Dict) :
    Co.wp (NetSpec method) (AppServer.call "turn/start" params)
      (fun turn _ m => if (index2 "turn" "id" turn).isOk then Started w result m
        else Calm w result m)
      (fun _ _ m => Calm w result m) () m := by
  unfold AppServer.call
  rw [Co.wp_bind]
  exact Co.wp_conseq (netSpec_mono method) (keeps_connect () m hm)
    (fun _ _ m hm => wp_request_turn hm params) fun _ _ _ hm => hm

theorem wp_call_subscribing [Endpoint] (hinit : method ≠ "initialize") (params : Dict) :
    Co.wp (NetSpec method) (AppServer.call method params)
      (fun result _ m => ∃ w, Calm w result m) (fun _ _ m => ∃ o, m = .outside o) ()
      (.outside none) := by
  have hconnect : Interaction.wp (NetSpec method) (AppServer.connect ())
      (fun _ m => m = .outside none) (.outside none) := by
    refine Emits.keeps (netSpec_mono method) (AppServer.transmits_connect ()) ?_ _ rfl
    rintro op m hop rfl
    exact ⟨trivial, fun r _ => outside_step (.net op)
      (fun he => absurd (hop _ he) (List.not_mem_nil)) hinit r⟩
  unfold AppServer.call
  rw [Co.wp_bind]
  refine Interaction.wp_mono (netSpec_mono method) _ ?_ _ hconnect
  rintro ⟨e | _, s⟩ m rfl
  · exact ⟨none, rfl⟩
  · exact wp_request_subscribing params

end After

/-! ## §4. The two tools. -/

section Tools

variable [Endpoint] {method requestId : String} {w : Conn} {result : Json} {s : Dict}
variable {m : Standing}

/-- A step of a tool whose run ends up square wherever it raises. -/
abbrev Squares {α : Type} (t : ToolCall) (method : String) (c : Act α)
    (Q : α → Dict → Standing → Prop) (s : Dict) (m : Standing) : Prop :=
  Co.wp (ToolSpec method) c Q (fun _ _ m => Square t m) s m

theorem toolSpec_mono (method : String) : (ToolSpec method).Mono :=
  (subSpec_mono method).through wire

theorem squares_bind {α β : Type} {t : ToolCall} {c : Act α} {f : α → Act β}
    {P : α → Dict → Standing → Prop} {Q : β → Dict → Standing → Prop}
    (hc : Squares t method c P s m) (hf : ∀ a s m, P a s m → Squares t method (f a) Q s m) :
    Squares t method (c >>= f) Q s m := by
  show Co.wp _ _ _ _ _ _
  rw [Co.wp_bind]
  exact Co.wp_conseq (toolSpec_mono method) hc hf fun _ _ _ hX => hX

theorem squares_close {t : ToolCall} (hm : Ready t w result m) :
    Squares t method Act.close (fun _ _ m => Square t m) s m := by
  show Co.wp _ _ _ _ _ _
  unfold Act.close
  rw [Act.wp_perform]
  show Interaction.wp (SubSpec method) (ofNet AppServer.close) _ m
  rw [wp_ofNet_eq]
  exact wp_close_ready hm

/-- The request that subscribes. -/
theorem squares_subscribe {t : ToolCall} (hinit : method ≠ "initialize") (params : Dict) :
    Squares t method (Act.call method params) (fun result s' m => s' = s ∧ ∃ w, Calm w result m)
      s (.outside none) := by
  show Co.wp _ _ _ _ _ _
  unfold Act.call
  rw [Act.wp_perform]
  show Interaction.wp (SubSpec method) (ofNet (AppServer.call method params)) _ _
  rw [wp_ofNet_eq]
  refine Co.wp_conseq (netSpec_mono method) (wp_call_subscribing hinit params) ?_ ?_
  · rintro result _ m ⟨w, hm⟩
    exact ⟨rfl, w, hm⟩
  · rintro e _ _ ⟨o, rfl⟩
    trivial

/-- A save while subscribed; where it fails nothing is closed, and not all
answers were clean. -/
theorem squares_save {t : ToolCall} (hm : Calm w result m)
    (hs : s.get? "requestId" = some (.str requestId)) :
    Squares t method saveReceipt (fun _ _ m => Calm w result m) s m := by
  show Co.wp _ _ _ _ _ _
  unfold saveReceipt
  rw [Co.wp_bind, Co.wp_get, wp_save hs]
  refine ⟨trivial, fun time _ => ⟨trivial, fun r _ => ?_⟩⟩
  have hnow := hm.append method (e := ⟨.base .now, time⟩) rfl
  cases r with
  | ok _ => exact hnow.append method rfl
  | error f =>
      obtain ⟨after, hafter, hcalm⟩ := hnow
      show Square t (subscribeStep method _ _)
      rw [hafter]
      refine ⟨fun hclosed => absurd ?_ (not_closed_of_calm (w := w) hcalm), fun hc => ?_⟩
      · simpa [Closed] using hclosed
      · cases clean_faulty hc _ (List.mem_append_right _ (List.mem_singleton_self _))

theorem squares_turn {a : SendMessage} (hm : Calm w result m) (params : Dict) :
    Squares (.sendMessageToThread a) method (Act.call "turn/start" params)
      (fun turn _ m => if (index2 "turn" "id" turn).isOk then Started w result m
        else Calm w result m) s m := by
  show Co.wp _ _ _ _ _ _
  unfold Act.call
  rw [Act.wp_perform]
  show Interaction.wp (SubSpec method) (ofNet (AppServer.call "turn/start" params)) _ m
  rw [wp_ofNet_eq]
  exact Co.wp_conseq (netSpec_mono method) (wp_call_turn hm params) (fun _ _ _ hm => hm)
    fun _ _ _ hm => hm.square_send a

/-- The idle branch, from the subscription on. -/
theorem SendMessage.squares_deliver (a : SendMessage) (hm : Calm w result m)
    (hpolicy : result.getNone "approvalPolicy" = .ok (.str "never")) :
    Squares (.sendMessageToThread a) method (do a.deliver; Act.close)
      (fun _ _ m => Square (.sendMessageToThread a) m) s m := by
  refine squares_bind (P := fun _ _ m => Started w result m) ?_ fun _ s m hm => ?_
  · unfold deliver
    refine squares_bind (squares_turn hm _) fun turn s m hm => ?_
    show Co.wp _ _ _ _ _ _
    rw [Co.wp_bind, Co.wp_ofExcept]
    cases hid : index2 "turn" "id" turn with
    | ok id =>
        rw [hid] at hm
        exact hm
    | error e =>
        rw [hid] at hm
        exact Calm.square_send hm a
  · obtain ⟨after, rfl, hopen, hturn, hfaulty⟩ := hm
    exact squares_close ⟨after, rfl, hopen, hpolicy, hturn, hfaulty⟩

theorem SendMessage.squares_action (a : SendMessage) (requestId : String)
    (hs : s.get? "requestId" = some (.str requestId)) :
    Squares (.sendMessageToThread a) "thread/resume" a.action
      (fun _ _ m => Square (.sendMessageToThread a) m) s (.outside none) := by
  have hosts := hosts_outside "thread/resume" (.sendMessageToThread a) (by decide)
    requestId
  have outside : ∀ {c : Act Unit} {s m}, Fills (ToolSpec "thread/resume") (Outside requestId)
      (fun _ _ m => Square (.sendMessageToThread a) m) c → Outside requestId s m →
      Squares (.sendMessageToThread a) "thread/resume" c
        (fun _ _ m => Square (.sendMessageToThread a) m) s m := by
    intro c s m hc hJ
    refine Co.wp_conseq (toolSpec_mono _) (hc s m hJ) ?_ fun _ _ _ hX => hX
    rintro _ _ _ ⟨-, rfl⟩
    trivial
  have hdeliver : Fills (ToolSpec "thread/resume") (Outside requestId)
      (fun _ _ m => Square (.sendMessageToThread a) m) a.deliver :=
    hosts.bind (hosts.calls _ (by decide)) fun turn => hosts.bind (hosts.ofExcept _)
      fun turnId => hosts.updateReceipt (by simp [Dict.keys])
  unfold action
  refine squares_bind (hosts.updateReceipt (by simp [Dict.keys]) s _ ⟨hs, rfl⟩) fun _ s m hJ => ?_
  refine squares_bind (hosts.saveReceipt s m hJ) fun _ s m hJ => ?_
  refine squares_bind (hosts.calls _ (by decide) s m hJ) fun state s m hJ => ?_
  refine squares_bind (hosts.ofExcept _ s m hJ) fun thread s m hJ => ?_
  refine squares_bind (hosts.ofExcept _ s m hJ) fun status s m hJ => ?_
  split
  · unfold deliverActive
    refine outside ?_ hJ
    refine hosts.bind (hosts.updateReceipt (by simp [Dict.keys])) fun _ => ?_
    refine hosts.bind hosts.saveReceipt fun _ => hosts.bind hdeliver fun _ => ?_
    exact hosts.bind hosts.saveReceipt fun _ => hosts.closes
  · unfold deliverIdle
    refine squares_bind (hosts.updateReceipt (by simp [Dict.keys]) s m hJ) fun _ s m hJ => ?_
    refine squares_bind (hosts.saveReceipt s m hJ) ?_
    rintro _ s _ ⟨hs, rfl⟩
    refine squares_bind (squares_subscribe (by decide) _) ?_
    rintro resumed _ m ⟨rfl, w, hm⟩
    refine squares_bind (P := fun _ s' m => s'.get? "requestId" = some (.str requestId) ∧
      Calm w resumed m) ⟨by simp [Dict.get?_set, hs], hm⟩ ?_
    rintro _ s m ⟨hs, hm⟩
    refine squares_bind (squares_save hm hs) fun _ s m hm => ?_
    show Co.wp _ _ _ _ _ _
    rw [Co.wp_bind, Co.wp_ofExcept]
    cases hpolicy : resumed.getNone "approvalPolicy" with
    | error e => exact hm.square_send a
    | ok policy =>
        dsimp only
        split
        · exact hm.square_send a
        · rename_i hnever
          obtain rfl : policy = .str "never" := (Json.pyEq_str _ _).mp (by simpa using hnever)
          exact a.squares_deliver hm hpolicy

theorem ForkThread.squares_action (a : ForkThread) (requestId : String)
    (hs : s.get? "requestId" = some (.str requestId)) :
    Squares (.forkThread a) "thread/fork" a.action (fun _ _ m => Square (.forkThread a) m) s
      (.outside none) := by
  have hosts := hosts_outside "thread/fork" (.forkThread a) (by decide) requestId
  unfold action
  refine squares_bind (hosts.calls _ (by decide) s _ ⟨hs, rfl⟩) fun state s m hJ => ?_
  refine squares_bind (hosts.ofExcept _ s m hJ) fun source s m hJ => ?_
  refine squares_bind (hosts.ofExcept _ s m hJ) fun refused s m hJ => ?_
  split
  · exact hosts.own unsupportedSource s m hJ
  refine squares_bind (hosts.fills_refuseGoal a (by decide) s m hJ) ?_
  rintro _ s _ ⟨hs, rfl⟩
  refine squares_bind (squares_subscribe (by decide) _) ?_
  rintro fork _ m ⟨rfl, w, hm⟩
  show Co.wp _ _ _ _ _ _
  rw [Co.wp_bind, Co.wp_ofExcept]
  cases hid : index2 "thread" "id" fork with
  | error e =>
      obtain ⟨after, rfl, hcalm⟩ := hm
      refine ⟨fun hc => absurd hc (not_closed_of_calm hcalm), ?_⟩
      rintro ⟨⟨id, hid'⟩, -⟩
      rw [hid] at hid'
      cases hid'
  | ok id =>
      refine squares_bind (P := fun _ s' m => s'.get? "requestId" = some (.str requestId) ∧
        Calm w fork m) ⟨by simp [Dict.get?_set, hs], hm⟩ ?_
      rintro _ s m ⟨hs, hm⟩
      refine squares_bind (squares_save hm hs) ?_
      rintro _ s _ ⟨after, rfl, hcalm⟩
      exact squares_close ⟨after, rfl, not_closed_of_calm hcalm, ⟨id, hid⟩,
        fun e he => faulty_of_calm (hcalm e he)⟩

/-! ## §5. Whole runs. -/

/-- What a run with a receipt ends in. -/
abbrev SquareEnd (t : ToolCall) : Ends Standing :=
  fun r m => ∀ receipt, r = .ok receipt → Square t m

theorem square_save {t : ToolCall} (receipt : Dict) (hm : Square t m) :
    Co.wp (ToolSpec method) (Ledger.save receipt) (fun _ _ m => Square t m)
      (fun _ _ _ => True) s m := by
  unfold Ledger.save Act.now
  rw [Co.wp_bind, Act.wp_perform]
  refine ⟨trivial, fun time _ => ?_⟩
  have hnow := hm.base method .now time rfl
  show Co.wp (ToolSpec method) (do
    let saved := receipt.update [("updatedAt", .float time)]
    let key ← Co.ofExcept (Json.index "requestId" (.obj saved))
    Act.perform (.update key saved) lift
    pure saved) _ _ _ _
  dsimp only
  rw [Co.wp_bind, Co.wp_ofExcept]
  generalize Json.index "requestId" _ = key
  cases key with
  | error e => trivial
  | ok key =>
      dsimp only
      rw [Co.wp_bind, Act.wp_perform]
      refine ⟨trivial, fun r _ => ?_⟩
      cases r with
      | error f => trivial
      | ok _ => exact hnow.base method _ _ rfl

/-- The request whose action is square is square, if it ends with a
receipt. -/
theorem square_attempt {t : ToolCall} {action : Act Unit}
    (haction : Squares t method action (fun _ _ m => Square t m) s (.outside none)) :
    Co.wp (ToolSpec method) (attempt requestId action) (fun w _ m => SquareEnd t (.ok w) m)
      (fun e _ m => SquareEnd t (.error e) m) s (.outside none) := by
  have hsave : ∀ {s m}, Square t m → Co.wp (ToolSpec method) saveReceipt
      (fun w _ m => SquareEnd t (.ok w) m) (fun e _ m => SquareEnd t (.error e) m) s m := by
    intro s m hm
    unfold saveReceipt
    rw [Co.wp_bind, Co.wp_get]
    exact Co.wp_conseq (toolSpec_mono method) (square_save s hm) (fun _ _ _ hm _ _ => hm)
      fun _ _ _ _ => nofun
  rw [wp_attempt]
  refine ⟨trivial, fun _ _ => Co.wp_conseq (toolSpec_mono method) haction ?_ ?_⟩
  · exact fun _ s m hm => hsave hm
  · intro e s m hm
    cases e with
    | cancelledError =>
        unfold settle
        rw [Co.wp_bind, Co.wp_get, Co.wp_bind]
        exact Co.wp_conseq (toolSpec_mono method) (square_save _ hm) (fun _ _ _ _ => nofun)
          fun _ _ _ _ => nofun
    | rpcError method error => exact hsave hm
    | worktreeError message => exact hsave hm
    | exception cls message => exact hsave hm

variable [Hashlib]

theorem ToolCall.square_run (t : ToolCall) (requestId : String)
    (ht : t.subscribing = some method) :
    Interaction.wp (SubSpec method) (t.wire requestId) (fun r m => SquareEnd t r.1 m)
      (.outside none) := by
  have hbase : ∀ op : Op, op.isPreparatory = true → ∀ Q m,
      ToolSpec method op Q m ↔ SubSpec method (.base op) Q m := by
    intro op hop Q m
    have heq := wp_wire_base (SubSpec method) (by rintro _ _ rfl; cases hop)
      (by rintro rfl; cases hop) Q
    exact iff_of_eq (congrFun heq m)
  have hΦ : Indifferent (ToolSpec method) (fun m => m = .outside none) := by
    refine ⟨toolSpec_mono method, ?_⟩
    rintro op m hop rfl
    exact (hbase op hop _ _).mpr ⟨trivial, fun r _ => rfl⟩
  unfold ToolCall.wire
  rw [Interaction.wp_handle]
  refine hΦ.wp_tool (P := SquareEnd t) t requestId rfl ?_ ?_ ?_
  · rintro r m rfl receipt -
    trivial
  · intro r m hm
    exact (hbase .release rfl _ _).mpr
      ⟨trivial, fun _ _ receipt hr => (hm receipt hr).base method _ _ rfl⟩
  rintro cwd fp startedAt _ - rfl
  refine ⟨trivial, fun r _ => ?_⟩
  rcases r with f | _ | row
  · rfl
  · refine square_attempt ?_
    cases t with
    | sendMessageToThread a =>
        obtain rfl := Option.some.inj ht
        exact a.squares_action requestId (by simp [Ledger.freshReceipt])
    | forkThread a =>
        obtain rfl := Option.some.inj ht
        exact a.squares_action requestId (by simp [Ledger.freshReceipt])
    | _ => cases ht
  · rfl

omit [Endpoint] [Hashlib] in
/-- What a run has been answered since it subscribed stays on record. -/
theorem standing_over {h pre post : List (Event WireAns)} {e : Event WireAns}
    {after : List (Event WireAns)} (hh : h = pre ++ e :: post)
    (hover : standing method h = .subscribed w result after)
    {w₀ : Conn} {result₀ : Json} {after₀ : List (Event WireAns)}
    (hpre : standing method pre = .subscribed w₀ result₀ after₀) : w₀ = w ∧ e ∈ after := by
  have hkeep : ∀ (post after : List (Event WireAns)),
      post.foldl (subscribeStep method) (.subscribed w₀ result₀ after) =
        .subscribed w₀ result₀ (after ++ post) := by
    intro post
    induction post with
    | nil => simp
    | cons x post ih =>
        intro after
        rw [List.foldl_cons, subscribeStep, ih]
        simp
  unfold standing at hover hpre
  rw [hh, List.foldl_append, hpre, hkeep] at hover
  cases hover
  exact ⟨rfl, by simp⟩

/-- **Which connections are closed.**  When a mutation that resumed or
forked a thread returns its receipt, it has closed the connection it did so
over, or found it gone, exactly if every answer since was a clean one or the
connection was gone. -/
theorem ToolCall.subscriber_closed_iff (t : ToolCall) (requestId : String)
    (ht : t.subscribing = some method) {h : List (Event WireAns)} {receipt s : Dict}
    (hrun : Run (t.wire requestId) h (.ret (.ok receipt, s))) {after : List (Event WireAns)}
    (hover : standing method h = .subscribed w result after) :
    (Closed w after ∨ Gone w after) ↔ (t.Clean result after ∨ Gone w after) := by
  by_cases hgone : Gone w after
  · exact ⟨fun _ => .inr hgone, fun _ => .inr hgone⟩
  have hok : ∀ pre e post, h = pre ++ e :: post →
      undisturbed (pre.foldl (subscribeStep method) (.outside none)) e := by
    intro pre e post hh
    cases hpre : standing method pre with
    | outside o =>
        rw [show pre.foldl (subscribeStep method) (.outside none) = .outside o from hpre]
        trivial
    | subscribed w₀ result₀ after₀ =>
        obtain ⟨rfl, hmem⟩ := standing_over hh hover hpre
        rw [show pre.foldl (subscribeStep method) (.outside none) = .subscribed w₀ result₀ after₀
          from hpre]
        exact Bool.eq_false_of_not_eq_true fun hd => hgone ⟨e, hmem, hd⟩
  have hend : SquareEnd t (.ok receipt) (standing method h) :=
    wp_run_on (t.square_run requestId ht) hrun hok
  have hsquare : Square t (standing method h) := hend receipt rfl
  rw [hover] at hsquare
  exact or_congr_left hsquare

end Tools

/-! ### A send. -/

/-- The method of the last frame that was sent. -/
def lastMethod (h : List (Event WireAns)) : String :=
  (h.reverse.findSome? fun
    | ⟨.net (.send _ frame), _⟩ => some frame.method
    | _ => none).getD ""

/-- A server that is connected, has an idle thread, resumes it with the
given approval policy and starts turns. -/
def sendSite (policy : String) (h : List (Event WireAns)) : (op : WireOp) → WireAns op
  | .base op => launchSite op
  | .net op =>
      match op with
      | .lock => .ok ()
      | .unlock => ()
      | .readerAlive => true
      | .socketExists => .ok true
      | .openTransport => .ok ()
      | .startReader => ()
      | .ws => some 0
      | .register => 1
      | .send _ _ => .ok ()
      | .awaitReply _ => .ok [("result", .obj (
          if lastMethod h = "thread/resume" then [("approvalPolicy", .str policy)]
          else if lastMethod h = "turn/start" then [("turn", .obj [("id", .str "u")])]
          else [("thread", .obj [("status", .obj [("type", .str "idle")])])]))]
      | .unregister _ => ()
      | .setInfo _ => ()
      | .closeTransport _ => .ok ()
      | .clearWs => ()
      | .reader => some 0
      | .cancelReader _ => ()
      | .joinReader _ => .ok ()
      | .clearReader => ()

/-- Whether a run has ended with a receipt. -/
def returned {σ : Type} : Prog WireOp WireAns (Except PyExc Dict × σ) → Bool
  | .ret (.ok _, _) => true
  | _ => false

theorem of_returned {σ : Type} {p : Prog WireOp WireAns (Except PyExc Dict × σ)}
    (h : returned p = true) : ∃ receipt s, p = .ret (.ok receipt, s) := by
  cases p with
  | op op k => cases h
  | ret r =>
      obtain ⟨e | receipt, s⟩ := r
      · cases h
      · exact ⟨receipt, s, rfl⟩

/-- The events since the subscription, all of which pass a test. -/
def Standing.all (m : Standing) (P : Conn → Event WireAns → Bool) : Bool :=
  match m with
  | .outside _ => false
  | .subscribed w _ after => after.all (P w)

theorem Standing.of_all {m : Standing} {P : Conn → Event WireAns → Bool}
    (h : m.all P = true) : ∃ w result after, m = .subscribed w result after ∧
      ∀ e ∈ after, P w e = true := by
  cases m with
  | outside o => cases h
  | subscribed w result after => exact ⟨w, result, after, rfl, List.all_eq_true.mp h⟩

/-- A send that starts its turn closes the connection. -/
theorem ToolCall.subscriber_closed_send :
    let _ := Hashlib.verbatim
    let _ := Endpoint.sample
    ∃ h receipt s w result after,
      Run ((ToolCall.sendMessageToThread ⟨"t", "hi"⟩).wire "r") h (.ret (.ok receipt, s)) ∧
      standing "thread/resume" h = .subscribed w result after ∧
      ((Closed w after ∨ Gone w after) ↔
        ((ToolCall.sendMessageToThread ⟨"t", "hi"⟩).Clean result after ∨ Gone w after)) := by
  intro _ _
  have hrun := Run.follow (sendSite "never") 120
    (Run.start (p := (ToolCall.sendMessageToThread ⟨"t", "hi"⟩).wire "r"))
  generalize hend : ((ToolCall.sendMessageToThread ⟨"t", "hi"⟩).wire "r").follow
    (sendSite "never") 120 [] = ended at hrun
  have hdone : returned ended.2 = true := by
    rw [← hend]
    decide +kernel
  have hover : (standing "thread/resume" ended.1).all fun _ _ => true := by
    rw [← hend]
    decide +kernel
  obtain ⟨receipt, s, hret⟩ := of_returned hdone
  obtain ⟨w, result, after, hstanding, -⟩ := Standing.of_all hover
  rw [hret] at hrun
  exact ⟨ended.1, receipt, s, w, result, after, hrun, hstanding,
    ToolCall.subscriber_closed_iff _ "r" rfl hrun hstanding⟩

/-- A thread resumed with another approval policy keeps its subscriber. -/
theorem ToolCall.subscriber_lingers :
    let _ := Hashlib.verbatim
    let _ := Endpoint.sample
    ∃ h receipt s w result after,
      Run ((ToolCall.sendMessageToThread ⟨"t", "hi"⟩).wire "r") h (.ret (.ok receipt, s)) ∧
      standing "thread/resume" h = .subscribed w result after ∧ ¬ Closed w after ∧ ¬ Gone w after := by
  intro _ _
  have hrun := Run.follow (sendSite "on-request") 120
    (Run.start (p := (ToolCall.sendMessageToThread ⟨"t", "hi"⟩).wire "r"))
  generalize hend : ((ToolCall.sendMessageToThread ⟨"t", "hi"⟩).wire "r").follow
    (sendSite "on-request") 120 [] = ended at hrun
  have hdone : returned ended.2 = true := by
    rw [← hend]
    decide +kernel
  have hcalm : (standing "thread/resume" ended.1).all
      (fun w e => calm e && !disturbs w e) = true := by
    rw [← hend]
    decide +kernel
  obtain ⟨receipt, s, hret⟩ := of_returned hdone
  obtain ⟨w, result, after, hstanding, hall⟩ := Standing.of_all hcalm
  rw [hret] at hrun
  refine ⟨ended.1, receipt, s, w, result, after, hrun, hstanding,
    not_closed_of_calm fun e he => ?_, ?_⟩
  · exact (Bool.and_eq_true_iff.mp (hall e he)).1
  · rintro ⟨e, he, hd⟩
    have hall' := hall e he
    rw [hd] at hall'
    simp at hall'

end CodexRemoteBridge
