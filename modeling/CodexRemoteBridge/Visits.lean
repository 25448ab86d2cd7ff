/-
  CodexRemoteBridge.Visits — a tool call that has its requests carried out on
  the connection of the bridge.

  Between two requests a tool call does what it does by itself; what comes
  back to it is a result or an exception.  A read whose requests are answered
  returns.

  Main result: `Query.returns_code`.
-/
import CodexRemoteBridge.EventLoop
import CodexRemoteBridge.Reading

namespace CodexRemoteBridge

open Interaction

/-! ## §1. Tool calls on the connection. -/

/-- The tools that ask the server and change nothing. -/
inductive Query where
  | listThreads (a : ListThreads)
  | readThread (a : ReadThread)
  | waitThread (threadId turnId : String) (seconds : ℚ) (rounds : Nat)
  | getGoal (threadId : String)

/-- A tool call on the bridge. -/
inductive Visit where
  | query (q : Query)
  | mutation (requestId : String) (t : ToolCall)

/-- The operations of a tool call: those that are carried out on the shared
connection, all others, and the clock of a wait. -/
inductive SharedOp where
  | invoke (o : Invocation)
  | base (op : Op)
  | arm (seconds : ℚ)
  | expired
  | sleep
  /-- The rounds of the loop beyond those that are unrolled. -/
  | unrolled

/-- What an operation is answered with. -/
abbrev SharedAns : SharedOp → Type
  | .invoke _ => Except PyExc Json
  | .base op => Ans op
  | .arm _ => Unit
  | .expired => Bool
  | .sleep => Bool
  | .unrolled => Empty

/-- The code behind an operation of a tool. -/
def shared : (op : Op) → Prog SharedOp SharedAns (Ans op)
  | .call method params => .op (.invoke (.call method params)) .ret
  | .close => .op (.invoke .close) fun r => .ret (r.map fun _ => ())
  | .acquire => .op (.base .acquire) .ret
  | .release => .op (.base .release) .ret
  | .isDir path => .op (.base (.isDir path)) .ret
  | .isFile path => .op (.base (.isFile path)) .ret
  | .pathExists path => .op (.base (.pathExists path)) .ret
  | .isSymlink path => .op (.base (.isSymlink path)) .ret
  | .resolve path => .op (.base (.resolve path)) .ret
  | .resolveThread path => .op (.base (.resolveThread path)) .ret
  | .mkdir path => .op (.base (.mkdir path)) .ret
  | .now => .op (.base .now) .ret
  | .select requestId => .op (.base (.select requestId)) .ret
  | .beginRow requestId fp receipt => .op (.base (.beginRow requestId fp receipt)) .ret
  | .update requestId receipt => .op (.base (.update requestId receipt)) .ret
  | .git cwd args => .op (.base (.git cwd args)) .ret
  | .enter requestId => .op (.base (.enter requestId)) .ret

/-- The code behind an operation of a wait.  No answer is read for its time. -/
def sharedWait : (op : WaitOp) → Prog SharedOp SharedAns (WaitAns op)
  | .call method params => .op (.invoke (.call method params)) fun r => .ret (0, r)
  | .arm seconds => .op (.arm seconds) fun r => .ret (0, r)
  | .expired => .op .expired fun r => .ret (0, r)
  | .sleep => .op .sleep fun r => .ret (0, r)
  | .unrolled => .op .unrolled fun r => .ret (0, r)

/-- A coroutine of the bridge, over the shared connection. -/
def sharing {α : Type} (c : Act α) : Prog SharedOp SharedAns (Except PyExc α) :=
  ((c []).handle shared).bind fun r => .ret r.1

/-- A coroutine of a wait, over the shared connection. -/
def sharingWait {α : Type} (c : Wait α) : Prog SharedOp SharedAns (Except PyExc α) :=
  ((c none).handle sharedWait).bind fun r => .ret r.1

/-- The code of a read. -/
def Query.code : Query → Prog SharedOp SharedAns (Except PyExc Json)
  | .listThreads a => sharing a.run
  | .readThread a => sharing a.run
  | .waitThread threadId turnId seconds rounds =>
      sharingWait (CodexRemoteBridge.waitThread threadId turnId rounds seconds)
  | .getGoal threadId => sharing (CodexRemoteBridge.getGoal threadId)

/-- The code of a tool call. -/
def Visit.code [Hashlib] : Visit → Prog SharedOp SharedAns (Except PyExc Json)
  | .query q => q.code
  | .mutation requestId t => (sharing (t.run requestId)).bind fun r => .ret (r.map .obj)

/-! ## §2. Down to the frames. -/

section Frames

variable [Endpoint]

omit [Endpoint] in
/-- A task of the connection, as part of a tool call. -/
def framed {α : Type} (p : Prog NetOp NetAns α) : Prog WireOp WireAns α :=
  p.handle fun op => .op (.net op) .ret

/-- An operation down to its frames: what is carried out on the connection is
the code of its task. -/
def SharedOp.wire : (op : SharedOp) → Prog ReadOp ReadAns (SharedAns op)
  | .invoke o => ofWire ((framed o.code).bind fun r => .ret r.1)
  | .base op => .op (.wire (.base op)) .ret
  | .arm seconds => .op (.arm seconds) .ret
  | .expired => .op .expired .ret
  | .sleep => .op .sleep .ret
  | .unrolled => .op .unrolled .ret

theorem wire_shared (op : Op) :
    (shared op).handle SharedOp.wire = ofWire (CodexRemoteBridge.wire op) := by
  cases op with
  | call method params => exact Prog.bind_ret _
  | close =>
      have hclose : framed Invocation.close.code =
          (framed (AppServer.close ())).bind fun r => .ret (r.1.map fun _ => Json.null, ()) := by
        show framed ((AppServer.close ()).bind _) = _
        unfold framed
        rw [Prog.handle_bind]
        congr 1
        funext r
        obtain ⟨e | u, s⟩ := r <;> rfl
      show (ofWire ((framed Invocation.close.code).bind fun r => .ret r.1)).bind
          (fun r => .ret (r.map fun _ => ())) =
        ofWire ((framed (AppServer.close ())).bind fun r => .ret r.1)
      rw [hclose, Prog.bind_assoc]
      unfold ofWire
      rw [Prog.handle_bind, Prog.handle_bind, Prog.bind_assoc]
      congr 1
      funext r
      obtain ⟨e | u, s⟩ := r <;> rfl
  | _ => rfl

theorem wire_sharing {α : Type} (c : Act α) :
    (sharing c).handle SharedOp.wire = ofWire (ofAct c) := by
  unfold sharing ofAct
  rw [Prog.handle_bind, Prog.handle_handle]
  unfold ofWire
  rw [Prog.handle_bind, Prog.handle_handle]
  have hops : (fun op => (shared op).handle SharedOp.wire) =
      fun op => (CodexRemoteBridge.wire op).handle fun op => .op (ReadOp.wire op) .ret :=
    funext wire_shared
  rw [hops]
  rfl

theorem wire_sharingWait {α : Type} (c : Wait α) :
    (sharingWait c).handle SharedOp.wire = ofWait c := by
  unfold sharingWait ofWait
  rw [Prog.handle_bind, Prog.handle_handle]
  have hops : (fun op => (sharedWait op).handle SharedOp.wire) = waitWire := by
    funext op
    cases op <;> rfl
  rw [hops]
  rfl

/-- A tool call down to its frames. -/
def Visit.wire [Hashlib] (info : Json) : Visit → Prog ReadOp ReadAns (Except PyExc Json)
  | .query (.listThreads a) => (ReadTool.listThreads a).wire info
  | .query (.readThread a) => (ReadTool.readThread a).wire info
  | .query (.waitThread threadId turnId seconds rounds) =>
      (ReadTool.waitThread threadId turnId seconds rounds).wire info
  | .query (.getGoal threadId) => (ReadTool.getGoal threadId).wire info
  | .mutation requestId t =>
      (ofWire ((t.wire requestId).bind fun r => .ret r.1)).bind fun r => .ret (r.map .obj)

/-- **The same tool calls**: with the code of its tasks in its place, a tool
call is what it is down to the frames. -/
theorem Visit.wire_code [Hashlib] (v : Visit) (info : Json) :
    v.code.handle SharedOp.wire = v.wire info := by
  cases v with
  | query q =>
      cases q with
      | listThreads a => exact wire_sharing a.run
      | readThread a => exact wire_sharing a.run
      | waitThread threadId turnId seconds rounds => exact wire_sharingWait _
      | getGoal threadId => exact wire_sharing _
  | mutation requestId t =>
      show ((sharing (t.run requestId)).bind fun r => .ret (r.map Json.obj)).handle
        SharedOp.wire = _
      rw [Prog.handle_bind, wire_sharing]
      rfl

end Frames

/-! ## §3. A read and its answers. -/

namespace Query

/-- The arguments pass the checks of the tool. -/
def Valid : Query → Prop
  | .listThreads a =>
      (1 ≤ a.limit ∧ a.limit ≤ 100) ∧
        ∀ cwd, a.cwd = some cwd → (PyPath.ofString cwd).isAbsolute = true
  | .readThread a =>
      nonempty a.threadId "thread_id" 128 = .ok () ∧
        1 ≤ a.limit ∧ a.limit ≤ 100 ∧ 100 ≤ a.maxTextChars ∧ a.maxTextChars ≤ 20000
  | .waitThread threadId turnId seconds _ =>
      nonempty threadId "thread_id" 128 = .ok () ∧ nonempty turnId "turn_id" 128 = .ok () ∧
        0 ≤ seconds ∧ seconds ≤ 50
  | .getGoal threadId => nonempty threadId "thread_id" 128 = .ok ()

/-- The result has what the tool looks for in it. -/
def Reads (method : String) (result : Json) : Query → Prop
  | .readThread _ => method = "thread/read" → ∃ thread, result.index "thread" = .ok thread
  | .waitThread _ turnId _ _ =>
      ∃ latest terminal, turnOn turnId result = .ok latest ∧ terminalAtEnd latest = .ok terminal
  | _ => True

/-- The read has a deadline of its own. -/
def polls : Query → Bool
  | .waitThread _ _ seconds _ => seconds ≠ 0
  | _ => false

/-- What a read may expect: its directory is there, the results can be read,
and only its own deadline cancels it. -/
def expects (q : Query) : Event SharedAns → Prop
  | ⟨.base (.isDir _), r⟩ => r = .ok true
  | ⟨.base (.resolve _), r⟩ => ∃ path, r = .ok path
  | ⟨.invoke (.call method _), .ok result⟩ => q.Reads method result
  | ⟨.invoke _, .error e⟩ => e = .cancelledError → q.polls = true
  | ⟨.expired, own⟩ => own = true
  | _ => True

/-- What it gets from a connection that serves it. -/
def granted (q : Query) : Event SharedAns → Prop
  | ⟨.invoke (.call method _), .ok result⟩ => q.Reads method result
  | ⟨.invoke _, .error e⟩ => e = .cancelledError ∧ q.polls = true
  | e => q.expects e

/-- The observer of a read that gets that. -/
abbrev grants (q : Query) : OpSpec SharedAns Unit :=
  observeOn (fun _ => q.granted) (fun m _ => m) fun _ _ => True

theorem grants_mono (q : Query) : q.grants.Mono := observeOn_mono _ _ _

/-- A coroutine of the read that does not raise. -/
structure Serene (q : Query) {α : Type} (c : Act α) : Prop where
  keeps : c.Keeps (q.grants.through shared) (fun _ _ => True) fun _ _ _ => False

variable {q : Query} {α β : Type}

theorem serene_mono : (q.grants.through shared).Mono := q.grants_mono.through _

theorem serene_pure (a : α) : q.Serene (pure a : Act α) := ⟨Co.keeps_pure a⟩

theorem serene_ofExcept {r : Except PyExc α} (h : ∃ a, r = .ok a) :
    q.Serene (Act.ofExcept r) := by
  obtain ⟨a, rfl⟩ := h
  exact serene_pure a

theorem Serene.bind {c : Act α} {f : α → Act β} (hc : q.Serene c) (hf : ∀ a, q.Serene (f a)) :
    q.Serene (c >>= f) :=
  ⟨Co.Keeps.bind serene_mono hc.keeps fun a => (hf a).keeps⟩

/-- A request, with what its result can be read for. -/
theorem serene_call {method : String} {params : Dict} {f : Json → Act α} (hpolls : q.polls = false)
    (hf : ∀ result, q.Reads method result → q.Serene (f result)) :
    q.Serene (Act.call method params >>= f) := by
  constructor
  intro s m _
  rw [Co.wp_bind, Act.call, Act.wp_perform]
  refine ⟨trivial, fun r hr => ?_⟩
  cases r with
  | ok result => exact (hf result hr).keeps s m trivial
  | error e => exact absurd (hpolls.symm.trans hr.2) nofun

/-- The directory of a listing. -/
theorem serene_directory {a : ListThreads} (hvalid : (Query.listThreads a).Valid) :
    (Query.listThreads a).Serene a.directory := by
  unfold ListThreads.directory
  cases hcwd : a.cwd with
  | none => exact serene_pure none
  | some cwd =>
      refine Serene.bind ?_ fun _ => serene_pure _
      have hresolve : (Query.listThreads a).Serene (do
          let resolved ← Act.resolve (PyPath.ofString cwd)
          pure resolved.str) := by
        constructor
        intro s m _
        rw [Co.wp_bind, Act.resolve, Act.wp_perform]
        refine ⟨trivial, fun r hr => ?_⟩
        obtain ⟨path, rfl⟩ := hr
        exact trivial
      unfold absoluteDirectory
      dsimp only
      rw [if_neg (by simp [hvalid.2 cwd hcwd])]
      constructor
      intro s m _
      rw [Co.wp_bind, Act.isDir, Act.wp_perform]
      refine ⟨trivial, fun r hr => ?_⟩
      obtain rfl : r = .ok true := hr
      exact hresolve.keeps s m trivial

theorem serene_listThreads {a : ListThreads} (hvalid : (Query.listThreads a).Valid) :
    (Query.listThreads a).Serene a.run := by
  unfold ListThreads.run
  rw [if_neg (not_not.mpr hvalid.1)]
  exact (serene_directory hvalid).bind fun cwd => serene_call rfl fun _ _ => serene_pure _

theorem serene_readThread {a : ReadThread} (hvalid : (Query.readThread a).Valid) :
    (Query.readThread a).Serene a.run := by
  unfold ReadThread.run
  refine (serene_ofExcept ⟨(), hvalid.1⟩).bind fun _ => ?_
  rw [if_neg (not_not.mpr hvalid.2)]
  refine serene_call rfl fun metadata hmetadata => serene_call rfl fun page _ => ?_
  exact (serene_ofExcept (hmetadata rfl)).bind fun _ => serene_pure _

theorem serene_getGoal {threadId : String} (hvalid : (Query.getGoal threadId).Valid) :
    (Query.getGoal threadId).Serene (CodexRemoteBridge.getGoal threadId) := by
  unfold CodexRemoteBridge.getGoal
  refine (serene_ofExcept ⟨(), hvalid⟩).bind fun _ => ?_
  exact serene_call rfl fun _ _ => serene_pure _

/-- The tool returns. -/
structure Returns (q : Query) (p : Prog SharedOp SharedAns (Except PyExc Json)) : Prop where
  wp : Interaction.wp q.grants p (fun r _ => ∃ value, r = .ok value) ()

theorem Serene.returns {c : Act Json} (h : q.Serene c) : q.Returns (sharing c) := by
  constructor
  unfold sharing
  rw [Interaction.wp_bind, wp_handle]
  refine Interaction.wp_mono serene_mono (c []) ?_ () (h.keeps [] () trivial)
  rintro ⟨e | value, s⟩ m hr
  · exact hr.elim
  · exact ⟨value, rfl⟩

/-! ## §4. A wait and its answers. -/

/-- What was seen last can be reported. -/
abbrev Seen : Option Json → Unit → Prop :=
  fun latest _ => ∃ terminal, terminalAtEnd latest = .ok terminal

/-- A coroutine of a wait that keeps it so, and raises nothing but what `X`
says. -/
abbrev Watches (q : Query) (X : PyExc → Prop) {α : Type} (c : Wait α) : Prop :=
  c.Keeps (q.grants.through sharedWait) Seen fun e s m => Seen s m ∧ X e

theorem watches_mono : (q.grants.through sharedWait).Mono := q.grants_mono.through _

theorem watches_ofExcept {X : PyExc → Prop} {r : Except PyExc Unit} (h : r = .ok ()) :
    q.Watches X (Co.ofExcept r) := by
  subst h
  exact Co.keeps_pure ()

/-- What has been seen can be looked at in the loop, too. -/
theorem settledNow_ok {latest : Option Json} {terminal : Bool}
    (h : terminalAtEnd latest = .ok terminal) : ∃ done, settledNow latest = .ok done := by
  cases latest with
  | none => exact ⟨false, rfl⟩
  | some turn =>
      unfold settledNow
      dsimp only
      split
      · exact ⟨terminal, h⟩
      · exact ⟨false, rfl⟩

section Waits

variable {threadId turnId : String} {seconds : ℚ} {rounds : Nat}

/-- One look. -/
theorem watches_look :
    (Query.waitThread threadId turnId seconds rounds).Watches
      (fun e =>
        e = .cancelledError ∧ (Query.waitThread threadId turnId seconds rounds).polls = true)
      (look threadId turnId) := by
  intro s m hs
  unfold look inspect
  rw [Co.wp_bind, Co.wp_bind, Wait.call, Wait.perform, Co.wp_bind, Co.wp_ask]
  refine ⟨trivial, fun r hr => ?_⟩
  cases r with
  | error e => exact ⟨hs, hr⟩
  | ok page =>
      obtain ⟨latest, terminal, hlatest, hterminal⟩ := hr
      show Co.wp _ (Co.ofExcept (turnOn turnId page)) _ _ s m
      rw [Co.wp_ofExcept, hlatest]
      exact ⟨terminal, hterminal⟩

theorem watches_poll (n : Nat) :
    (Query.waitThread threadId turnId seconds rounds).Watches (fun e => e = .cancelledError)
      (poll threadId turnId n) := by
  induction n with
  | zero => exact fun s m _ => ⟨trivial, fun r => r.elim⟩
  | succ n ih =>
      unfold poll
      have hlook : (Query.waitThread threadId turnId seconds rounds).Watches
          (fun e => e = .cancelledError) (look threadId turnId) :=
        fun s m hs => Co.wp_conseq watches_mono (watches_look s m hs) (fun _ _ _ h => h)
          fun _ _ _ h => ⟨h.1, h.2.1⟩
      refine hlook.bind watches_mono fun _ => Co.Keeps.get_bind fun latest m hs => ?_
      obtain ⟨terminal, hterminal⟩ := hs
      obtain ⟨done, hdone⟩ := settledNow_ok hterminal
      rw [Co.wp_bind, Co.wp_ofExcept, hdone]
      cases done with
      | true => exact ⟨terminal, hterminal⟩
      | false =>
          dsimp only
          rw [if_neg (by simp), Co.wp_bind, Wait.sleep, Wait.perform, Co.wp_bind, Co.wp_ask]
          refine ⟨trivial, fun cancelled _ => ?_⟩
          cases cancelled with
          | true => exact ⟨⟨terminal, hterminal⟩, rfl⟩
          | false => exact ih latest m ⟨terminal, hterminal⟩

/-- Its own deadline ends the loop. -/
theorem watches_observeTurn :
    (Query.waitThread threadId turnId seconds rounds).Watches (fun _ => False)
      (observeTurn threadId turnId rounds seconds) := by
  unfold observeTurn
  split
  · rename_i hzero
    have hpolls : (Query.waitThread threadId turnId seconds rounds).polls = false := by
      simp [polls, hzero]
    intro s m hs
    exact Co.wp_conseq watches_mono (watches_look s m hs) (fun _ _ _ h => h)
      fun _ _ _ h => absurd (hpolls.symm.trans h.2.2) nofun
  · have htimeout : (Query.waitThread threadId turnId seconds rounds).Watches
        (fun e => e = timeoutError) (Wait.timeout seconds (poll threadId turnId rounds)) := by
      unfold Wait.timeout
      intro s m hs
      rw [Co.wp_bind, Wait.arm, Wait.perform, Co.wp_bind, Co.wp_ask]
      refine ⟨trivial, fun _ _ => ?_⟩
      show Co.wp _ (Co.tryCatch (poll threadId turnId rounds) _) _ _ s m
      rw [Co.wp_tryCatch]
      refine Co.wp_conseq watches_mono (watches_poll rounds s m hs) (fun _ _ _ h => h) ?_
      rintro e s' m' ⟨hs', rfl⟩
      dsimp only
      rw [Co.wp_bind, Wait.expired, Wait.perform, Co.wp_bind, Co.wp_ask]
      refine ⟨trivial, fun own hown => ?_⟩
      obtain rfl : own = true := hown
      exact ⟨hs', rfl⟩
    intro s m hs
    rw [Co.wp_tryCatch]
    refine Co.wp_conseq watches_mono (htimeout s m hs) (fun _ _ _ h => h) ?_
    rintro e s' m' ⟨hs', rfl⟩
    exact hs'

theorem watches_waitThread (hvalid : (Query.waitThread threadId turnId seconds rounds).Valid) :
    (Query.waitThread threadId turnId seconds rounds).Watches (fun _ => False)
      (CodexRemoteBridge.waitThread threadId turnId rounds seconds) := by
  obtain ⟨hthread, hturn, hseconds⟩ := hvalid
  unfold CodexRemoteBridge.waitThread
  refine Co.Keeps.bind watches_mono (watches_ofExcept hthread) fun _ => ?_
  refine Co.Keeps.bind watches_mono (watches_ofExcept hturn) fun _ => ?_
  rw [if_neg (not_not.mpr hseconds)]
  refine Co.Keeps.bind watches_mono watches_observeTurn fun _ => ?_
  refine Co.Keeps.get_bind fun latest m hs => ?_
  obtain ⟨terminal, hterminal⟩ := hs
  rw [Co.wp_bind, Co.wp_ofExcept, hterminal]
  exact ⟨terminal, hterminal⟩

end Waits

/-- **A read that gets its answers returns.** -/
theorem returns_code (q : Query) (hvalid : q.Valid) : q.Returns q.code := by
  cases q with
  | listThreads a => exact (serene_listThreads hvalid).returns
  | readThread a => exact (serene_readThread hvalid).returns
  | getGoal threadId => exact (serene_getGoal hvalid).returns
  | waitThread threadId turnId seconds rounds =>
      constructor
      show Interaction.wp _ (sharingWait _) _ ()
      unfold sharingWait
      rw [Interaction.wp_bind, wp_handle]
      refine Interaction.wp_mono watches_mono _ ?_ ()
        (watches_waitThread hvalid none () ⟨false, rfl⟩)
      rintro ⟨e | value, s⟩ m hr
      · exact hr.2.elim
      · exact ⟨value, rfl⟩

/-! ## §5. What a read has carried out. -/

/-- On the connection, requests only. -/
def Asks : SharedOp → Prop
  | .invoke o => ∃ method params, o = .call method params
  | _ => True

/-- The program does that. -/
structure Asking (p : Prog SharedOp SharedAns (Except PyExc Json)) : Prop where
  wp : Interaction.wp (observe (fun m _ => m) fun _ op => Asks op) p (fun _ _ => True) ()

theorem asking_sharing {c : Act Json} {G : Op → Prop} (h : c.Only G) (hG : ¬ G .close) :
    Asking (sharing c) := by
  constructor
  unfold sharing
  rw [Interaction.wp_bind, wp_handle]
  have hmono : OpSpec.Mono ((observe (fun (m : Unit) _ => m) fun _ op => Asks op).through shared) :=
    (observe_mono _ _).through _
  have hkeeps : c.Keeps ((observe (fun (m : Unit) _ => m) fun _ op => Asks op).through shared)
      (fun _ _ => True) fun _ _ _ => True := by
    refine h.keeps hmono (fun op s m hop _ => ?_) fun _ _ _ _ => trivial
    cases op with
    | close => exact absurd hop hG
    | call method params => exact ⟨⟨method, params, rfl⟩, fun _ => trivial⟩
    | _ => exact ⟨trivial, fun _ => trivial⟩
  exact Interaction.wp_mono hmono (c []) (fun _ _ _ => trivial) () (hkeeps [] () trivial)

theorem asking_sharingWait (c : Wait Json) : Asking (sharingWait c) := by
  have hprog : ∀ p : Prog WaitOp WaitAns (Except PyExc Json × Option Json),
      Interaction.wp ((observe (fun (m : Unit) _ => m) fun _ op => Asks op).through sharedWait) p
        (fun _ _ => True) () := by
    intro p
    induction p with
    | ret a => exact trivial
    | op i k ih =>
        cases i with
        | call method params => exact ⟨⟨method, params, rfl⟩, fun r => ih (0, r)⟩
        | arm seconds => exact ⟨trivial, fun r => ih (0, r)⟩
        | expired => exact ⟨trivial, fun r => ih (0, r)⟩
        | sleep => exact ⟨trivial, fun r => ih (0, r)⟩
        | unrolled => exact ⟨trivial, fun r => ih (0, r)⟩
  constructor
  unfold sharingWait
  rw [Interaction.wp_bind, wp_handle]
  exact hprog (c none)

theorem asking_code (q : Query) : Asking q.code := by
  cases q with
  | listThreads a => exact asking_sharing a.only_run nofun
  | readThread a => exact asking_sharing a.only_run nofun
  | getGoal threadId => exact asking_sharing (only_getGoal threadId) nofun
  | waitThread threadId turnId seconds rounds => exact asking_sharingWait _

/-- Whatever it stands at, or has done. -/
theorem asks_of_head {q : Query} {h : List (Event SharedAns)} {op : SharedOp}
    {p : Prog SharedOp SharedAns (Except PyExc Json)} (hrun : Run q.code h p)
    (hop : p.head? = some op) : Asks op :=
  wp_run_head q.asking_code.wp hrun hop

theorem asks_of_mem {q : Query} {h : List (Event SharedAns)} {e : Event SharedAns}
    {p : Prog SharedOp SharedAns (Except PyExc Json)} (hrun : Run q.code h p) (he : e ∈ h) :
    Asks e.1 := by
  obtain ⟨pre, post, hsplit⟩ := List.append_of_mem he
  exact wp_run_mem q.asking_code.wp hrun hsplit

end Query

end CodexRemoteBridge
