/-
  CodexRemoteBridge.Reading — the read tools of `bridge.py`, among any number
  of mutations.

  A read tool looks at a directory or into the ledger, asks the App Server for
  what it was called for, and returns the reply with its texts clipped.  To
  ask, it may have to connect: that it does under the connect lock, and only
  if it finds no live reader there.

  Main result: `Traffic.reads_only`.
-/
import CodexRemoteBridge.Finality
import CodexRemoteBridge.Inventory
import CodexRemoteBridge.Waiting

namespace CodexRemoteBridge

open Interaction

/-! ## §1. The tools. -/

/-- The arguments of `list_threads`; archived threads have a tool of their
own. -/
structure ListThreads where
  cwd : Option String
  limit : Int
  cursor : Option String
  archived : Bool

namespace ListThreads

/-- The parameters of `thread/list`; the directory has been resolved. -/
def params (a : ListThreads) (cwd : Option String) : Dict :=
  [("limit", .int a.limit), ("useStateDbOnly", .bool true)]
    ++ (if a.archived then [("archived", .bool true)] else [])
    ++ optionalField "cwd" cwd ++ optionalField "cursor" a.cursor

/-- `params["cwd"] = absolute_directory(cwd)`. -/
def directory (a : ListThreads) : Act (Option String) :=
  match a.cwd with
  | none => pure none
  | some cwd => do
      let resolved ← absoluteDirectory cwd
      pure (some resolved)

/-- `list_threads`. -/
def run (a : ListThreads) : Act Json :=
  if ¬ (1 ≤ a.limit ∧ a.limit ≤ 100) then
    Act.raise (.valueError "limit must be between 1 and 100")
  else do
    let cwd ← a.directory
    let page ← Act.call "thread/list" (a.params cwd)
    pure (clipped 4000 false page)

end ListThreads

/-- The arguments of `read_thread`. -/
structure ReadThread where
  threadId : String
  limit : Int
  cursor : Option String
  maxTextChars : Int

namespace ReadThread

/-- The parameters of `thread/turns/list`. -/
def params (a : ReadThread) : Dict :=
  [("threadId", .str a.threadId), ("limit", .int a.limit), ("itemsView", .str "full")]
    ++ optionalField "cursor" a.cursor

/-- `read_thread`. -/
def run (a : ReadThread) : Act Json := do
  Act.ofExcept (nonempty a.threadId "thread_id" 128)
  if ¬ (1 ≤ a.limit ∧ a.limit ≤ 100 ∧ 100 ≤ a.maxTextChars ∧ a.maxTextChars ≤ 20000) then
    Act.raise (.valueError "limit must be 1–100 and max_text_chars must be 100–20000")
  else do
    let metadata ← Act.call "thread/read" [("threadId", .str a.threadId)]
    let page ← Act.call "thread/turns/list" a.params
    let thread ← Act.ofExcept (metadata.index "thread")
    pure (clipped a.maxTextChars.toNat false (.obj [("thread", thread), ("turnsPage", page)]))

end ReadThread

/-- `get_goal`. -/
def getGoal (threadId : String) : Act Json := do
  Act.ofExcept (nonempty threadId "thread_id" 128)
  let goal ← Act.call "thread/goal/get" [("threadId", .str threadId)]
  pure (clipped 4000 false goal)

/-- `get_operation`. -/
def getOperation (requestId : String) : Act Json := do
  let receipt ← Ledger.get requestId
  pure (.obj receipt)

/-- What the bridge says it can do. -/
def capabilityFlags : Dict :=
  [("createThread", .bool true), ("sendMessage", .bool true),
   ("activeTurnToolOutput", .bool true), ("forkThread", .bool true),
   ("renameThread", .bool true), ("archiveThread", .bool true),
   ("listReadWait", .bool true), ("goalRead", .bool true), ("goalSet", .bool false),
   ("desktopManagedWorktrees", .bool false), ("bridgeManagedWorktrees", .bool true),
   ("desktopProjectRegistry", .bool false), ("clientSideToolsAndApprovals", .bool false)]

/-- The read tools; a wait may go through so many rounds of its loop. -/
inductive ReadTool where
  | getCapabilities
  | listThreads (a : ListThreads)
  | listBridgeThreads (limit cursor : Json)
  | readThread (a : ReadThread)
  | waitThread (threadId turnId : String) (seconds : ℚ) (rounds : Nat)
  | getGoal (threadId : String)
  | getOperation (requestId : String)

/-- The operations of a read tool: those of the other tools, the page of the
inventory, and the clock of a wait. -/
inductive ReadOp where
  | wire (op : WireOp)
  /-- `execute(…).fetchall()`: so many rows below `before`. -/
  | fetch (before : Option Nat) (count : Nat)
  | arm (seconds : ℚ)
  | expired
  | sleep
  /-- The rounds of the loop beyond those that are unrolled. -/
  | unrolled

/-- What an operation is answered with. -/
abbrev ReadAns : ReadOp → Type
  | .wire op => WireAns op
  | .fetch _ _ => Except PyExc (List (Item × Nat))
  | .arm _ => Unit
  | .expired => Bool
  | .sleep => Bool
  | .unrolled => Empty

/-- A program over the wire as part of a read. -/
def ofWire {α : Type} (p : Prog WireOp WireAns α) : Prog ReadOp ReadAns α :=
  p.handle fun op => .op (.wire op) .ret

/-- The part of a history that went over the wire. -/
def wireHistory (h : List (Event ReadAns)) : List (Event WireAns) :=
  h.flatMap fun
    | ⟨.wire op, r⟩ => [⟨op, r⟩]
    | _ => []

/-- `list_bridge_threads`. -/
def listBridgeThreads (limit cursor : Json) : Prog ReadOp ReadAns (Except PyExc Json) :=
  match checkLimit limit, parseCursor cursor with
  | .error e, _ => .ret (.error e)
  | .ok _, .error e => .ret (.error e)
  | .ok limit, .ok before => .op (.fetch before (limit + 1)) fun
      | .ok rows => .ret (.ok (makePage limit rows).toJson)
      | .error e => .ret (.error e)

section Tools

variable [Endpoint]

/-- `capabilities`; `info` is what `self.rpc.info` holds once connected. -/
def capabilities (info : Json) : Net Json := do
  AppServer.connect
  pure (.obj
    [("server", info),
     ("transport", .str "same-host Unix WebSocket"),
     ("socket", .str Endpoint.socketPath),
     ("capabilities", .obj capabilityFlags),
     ("desktopVisibility", .str ("Observed on Codex 0.153.4 with an existing project checkout; "
       ++ "verify actual Desktop listing for each launch. Backend project IDs are separate."))])

/-- A coroutine of the bridge as the program that talks to the server. -/
def ofAct {α : Type} (c : Act α) : Prog WireOp WireAns (Except PyExc α) :=
  ((c []).handle CodexRemoteBridge.wire).bind fun r => .ret r.1

/-- The operations of a wait, down to the frames.  No answer is read for its
time. -/
def waitWire : (op : WaitOp) → Prog ReadOp ReadAns (WaitAns op)
  | .call method params => (ofWire (ofNet (AppServer.call method params))).bind fun r => .ret (0, r)
  | .arm seconds => .op (.arm seconds) fun r => .ret (0, r)
  | .expired => .op .expired fun r => .ret (0, r)
  | .sleep => .op .sleep fun r => .ret (0, r)
  | .unrolled => .op .unrolled fun r => .ret (0, r)

/-- A coroutine of a wait as the program that talks to the server. -/
def ofWait {α : Type} (c : Wait α) : Prog ReadOp ReadAns (Except PyExc α) :=
  ((c none).handle waitWire).bind fun r => .ret r.1

/-- A read tool down to its frames. -/
def ReadTool.wire (info : Json) : ReadTool → Prog ReadOp ReadAns (Except PyExc Json)
  | .getCapabilities => ofWire (ofNet (capabilities info))
  | .listThreads a => ofWire (ofAct a.run)
  | .listBridgeThreads limit cursor => CodexRemoteBridge.listBridgeThreads limit cursor
  | .readThread a => ofWire (ofAct a.run)
  | .waitThread threadId turnId seconds rounds =>
      ofWait (CodexRemoteBridge.waitThread threadId turnId rounds seconds)
  | .getGoal threadId => ofWire (ofAct (CodexRemoteBridge.getGoal threadId))
  | .getOperation requestId => ofWire (ofAct (CodexRemoteBridge.getOperation requestId))

end Tools

/-! ## §2. What a read may do. -/

/-- The requests a read tool makes, in order. -/
def ReadTool.effects : ReadTool → List Effect
  | .getCapabilities => []
  | .listThreads _ => [.request "thread/list"]
  | .listBridgeThreads _ _ => []
  | .readThread _ => [.request "thread/read", .request "thread/turns/list"]
  | .waitThread _ _ seconds rounds =>
      if seconds = 0 then [.request "thread/turns/list"]
      else List.replicate rounds (.request "thread/turns/list")
  | .getGoal _ => [.request "thread/goal/get"]
  | .getOperation _ => []

/-- The parameters of a request of a read tool. -/
def ReadTool.Asks (method : String) (params : Dict) : ReadTool → Prop
  | .listThreads a => method = "thread/list" ∧ ∃ cwd, params = a.params cwd
  | .readThread a =>
      method = "thread/read" ∧ params = [("threadId", .str a.threadId)] ∨
      method = "thread/turns/list" ∧ params = a.params
  | .waitThread threadId _ _ _ => method = "thread/turns/list" ∧ params =
      [("threadId", .str threadId), ("limit", .int 100), ("itemsView", .str "summary")]
  | .getGoal threadId => method = "thread/goal/get" ∧ params = [("threadId", .str threadId)]
  | .getCapabilities | .listBridgeThreads _ _ | .getOperation _ => False

/-- The directory a read tool looks at. -/
def ReadTool.Visits (path : PyPath) : ReadTool → Prop
  | .listThreads a => ∃ cwd, a.cwd = some cwd ∧ path = PyPath.ofString cwd
  | _ => False

/-- The frames of a connection that a request may go over. -/
def Frame.IsHandshake (frame : Frame) : Prop :=
  (frame.id.isSome = true ∧ frame.method = "initialize" ∧ frame.params = AppServer.clientInfo) ∨
  (frame.id = none ∧ frame.method = "initialized" ∧ frame.params = [])

/-- How a read stands to the connect lock. -/
inductive ReadStage where
  | outside
  /-- It has entered the lock. -/
  | holding
  /-- It has found there is no live reader, and connects. -/
  | connecting
  deriving DecidableEq

/-- What a read has done so far: its stage, and the identifiers it has
registered. -/
structure ReadState where
  stage : ReadStage
  idents : List Nat

namespace ReadState

/-- At the start of a call. -/
def start : ReadState := ⟨.outside, []⟩

/-- What an answered operation makes of it. -/
def next (m : ReadState) : Event ReadAns → ReadState
  | ⟨.wire (.net .lock), .ok _⟩ => { m with stage := .holding }
  | ⟨.wire (.net .readerAlive), false⟩ => { m with stage := .connecting }
  | ⟨.wire (.net .unlock), _⟩ => { m with stage := .outside }
  | ⟨.wire (.net .register), ident⟩ => { m with idents := ident :: m.idents }
  | _ => m

end ReadState

/-- What a read tool may do to the connection: replace it, with the lock held
and no live reader found, by one of its own, and send there its handshake;
otherwise send its own requests, and wait for what it has registered. -/
def ReadTool.PermitsNet (t : ReadTool) (m : ReadState) : NetOp → Prop
  | .lock => m.stage = .outside
  | .readerAlive => m.stage = .holding
  | .unlock => m.stage ≠ .outside
  | .ws | .register => m.stage ≠ .holding
  | .send _ frame =>
      (m.stage = .connecting ∧ frame.IsHandshake ∨
        m.stage = .outside ∧ frame.id.isSome = true ∧ t.Asks frame.method frame.params) ∧
      ∀ ident, frame.id = some ident → ident ∈ m.idents
  | .awaitReply ident | .unregister ident => ident ∈ m.idents
  | .socketExists | .openTransport | .startReader | .setInfo _ | .closeTransport _ | .clearWs
  | .reader | .cancelReader _ | .joinReader _ | .clearReader => m.stage = .connecting

/-- What a read tool may do: look at its own directory, read its own row or its
own page of the ledger, use the connection, and wait. -/
def ReadTool.Permits (t : ReadTool) (m : ReadState) : ReadOp → Prop
  | .wire (.base (.isDir path)) | .wire (.base (.resolve path)) => t.Visits path
  | .wire (.base (.select requestId)) => t = .getOperation requestId
  | .wire (.base _) => False
  | .wire (.net op) => t.PermitsNet m op
  | .fetch before count => ∃ limit cursor n, t = .listBridgeThreads limit cursor ∧
      checkLimit limit = .ok n ∧ parseCursor cursor = .ok before ∧ count = n + 1
  | .arm seconds => ∃ threadId turnId rounds, t = .waitThread threadId turnId seconds rounds
  | .expired | .sleep | .unrolled =>
      ∃ threadId turnId seconds rounds, t = .waitThread threadId turnId seconds rounds

/-! ## §3. The connection. -/

/-- The observer that lets through what the tool permits. -/
abbrev permits (t : ReadTool) : OpSpec ReadAns ReadState := observe ReadState.next t.Permits

/-- An observer of a read, as it sees the operations over the wire. -/
abbrev overWire {M : Type} (Φ : OpSpec ReadAns M) : OpSpec WireAns M := fun op Q => Φ (.wire op) Q

theorem wp_ofWire {M : Type} (Φ : OpSpec ReadAns M) {α : Type} (p : Prog WireOp WireAns α)
    (Q : α → M → Prop) :
    Interaction.wp Φ (ofWire p) Q = Interaction.wp (overWire Φ) p Q := wp_handle _ _ _ _

abbrev wirePermits (t : ReadTool) : OpSpec WireAns ReadState := overWire (permits t)

theorem permits_mono (t : ReadTool) : (permits t).Mono := observe_mono _ _

theorem wirePermits_mono (t : ReadTool) : (wirePermits t).Mono :=
  fun op _ _ hQ m h => permits_mono t (.wire op) hQ m h

theorem netPermits_mono (t : ReadTool) : (netSpec (wirePermits t)).Mono :=
  fun op _ _ hQ m h => wirePermits_mono t (.net op) hQ m h

/-- The read is at this stage. -/
abbrev InStage (stage : ReadStage) : Unit → ReadState → Prop := fun _ m => m.stage = stage

/-- At this stage, with a request registered. -/
abbrev RegisteredAt (stage : ReadStage) (ident : Nat) : Unit → ReadState → Prop :=
  fun _ m => m.stage = stage ∧ ident ∈ m.idents

namespace AppServer

variable {t : ReadTool} {α : Type} {stage : ReadStage}

/-- A coroutine of the connection keeps what it starts with, whether it returns
or raises. -/
abbrev Leaves (t : ReadTool) (J : Unit → ReadState → Prop) (c : Net α) : Prop :=
  c.Keeps (netSpec (wirePermits t)) J fun _ => J

variable {J : Unit → ReadState → Prop}

theorem leaves_ask {op : NetOp} (hop : ∀ m, J () m → t.PermitsNet m op)
    (hnext : ∀ m r, J () m → J () (m.next ⟨.wire (.net op), r⟩)) :
    Leaves t J (Co.ask op : Net (NetAns op)) :=
  fun _ m hm => ⟨hop m hm, fun r => hnext m r hm⟩

theorem leaves_perform {op : NetOp} (hop : ∀ m, J () m → t.PermitsNet m op)
    (hnext : ∀ m r, J () m → J () (m.next ⟨.wire (.net op), r⟩))
    (view : NetAns op → Except PyExc α) : Leaves t J (perform op view) :=
  (leaves_ask hop hnext).bind (netPermits_mono t) fun _ => Co.keeps_ofExcept fun _ _ _ h => h

theorem Leaves.bind {β : Type} {c : Net α} {f : α → Net β} (hc : Leaves t J c)
    (hf : ∀ a, Leaves t J (f a)) : Leaves t J (c >>= f) :=
  Co.Keeps.bind (netPermits_mono t) hc hf

theorem leaves_throw (e : PyExc) : Leaves t J (Co.throw e : Net α) :=
  Co.keeps_throw fun _ _ h => h

theorem Leaves.tryCatch {c : Net α} {handler : PyExc → Net α} (hc : Leaves t J c)
    (hh : ∀ e, Leaves t J (handler e)) : Leaves t J (Co.tryCatch c handler) :=
  Co.Keeps.tryCatch (netPermits_mono t) hc fun e s m h => hh e s m h

theorem leaves_suppress {c : Net Unit} (hc : Leaves t J c) : Leaves t J (suppressCancelled c) := by
  refine hc.tryCatch fun error => ?_
  split
  · exact Co.keeps_pure ()
  · exact leaves_throw _

/-- The end of `close`. -/
theorem leaves_closeReader : Leaves t (InStage .connecting) (do
    let reader ← reader
    match reader with
    | none => pure ()
    | some reader => do
        cancelReader reader
        suppressCancelled (joinReader reader)
        clearReader) := by
  refine (leaves_ask (fun _ h => h) fun _ _ h => h).bind fun reader => ?_
  cases reader with
  | none => exact Co.keeps_pure ()
  | some reader =>
      have hjoin : Leaves t (InStage .connecting) (suppressCancelled (joinReader reader)) :=
        leaves_suppress (leaves_perform (fun _ h => h) (fun _ _ h => h) _)
      refine (leaves_ask (fun _ h => h) fun _ _ h => h).bind fun _ => ?_
      exact hjoin.bind fun _ => leaves_ask (fun _ h => h) fun _ _ h => h

/-- `close` is for a read that connects. -/
theorem leaves_close : Leaves t (InStage .connecting) close := by
  have hws : ∀ m : ReadState, m.stage = .connecting → m.stage ≠ .holding := by
    intro m h he
    rw [h] at he
    cases he
  unfold close
  refine (leaves_ask hws fun _ _ h => h).bind fun ws => ?_
  cases ws with
  | none => exact leaves_closeReader
  | some ws =>
      refine (leaves_perform (fun _ h => h) (fun _ _ h => h) _).bind fun _ => ?_
      exact (leaves_ask (fun _ h => h) fun _ _ h => h).bind fun _ => leaves_closeReader

/-- A request that may be sent at this stage. -/
theorem leaves_request (hstage : stage ≠ .holding) {method : String} {params : Dict}
    (hsend : ∀ ident m, RegisteredAt stage ident () m →
      ∀ ws, t.PermitsNet m (.send ws ⟨some ident, method, params⟩)) :
    Leaves t (InStage stage) (request method params) := by
  have hnot : ∀ m : ReadState, m.stage = stage → m.stage ≠ .holding := by
    intro m h he
    exact hstage (h.symm.trans he)
  have hexchange : ∀ ws ident, Leaves t (RegisteredAt stage ident)
      (exchange ws ident method params) := by
    intro ws ident
    refine Leaves.tryCatch ?_ fun error => ?_
    · refine (leaves_perform (fun m h => hsend ident m h ws) (fun _ _ h => h) _).bind fun _ => ?_
      exact leaves_perform (fun _ h => h.2) (fun _ _ h => h) _
    · split <;> exact leaves_throw _
  unfold request
  refine (leaves_ask hnot fun _ _ h => h).bind fun ws => ?_
  cases ws with
  | none => exact leaves_throw _
  | some ws =>
      intro s m hm
      -- from here on the identifier is registered
      have hrest : ∀ ident, Co.wp (netSpec (wirePermits t))
          (Co.tryFinally (exchange ws ident method params) (unregister ident) >>=
            fun message => Co.ofExcept (reply method message))
          (fun _ _ m' => m'.stage = stage) (fun _ _ m' => m'.stage = stage) s
          (m.next ⟨.wire (.net .register), ident⟩) := by
        intro ident
        have hregistered : RegisteredAt stage ident () (m.next ⟨.wire (.net .register), ident⟩) :=
          ⟨hm, List.mem_cons_self⟩
        rw [Co.wp_bind, Co.wp_tryFinally]
        apply Co.wp_conseq (netPermits_mono t) (hexchange ws ident s _ hregistered)
        · intro message s' m' hm'
          refine ⟨hm'.2, fun _ => ?_⟩
          exact Co.keeps_ofExcept (fun _ _ _ h => h) s' _ hm'.1
        · intro e s' m' hm'
          exact ⟨hm'.2, fun _ => hm'.1⟩
      show Co.wp _ (register >>= fun ident => _) _ _ s m
      rw [Co.wp_bind]
      exact ⟨hnot m hm, fun ident => hrest ident⟩

variable [Endpoint]

/-- The handshake of a read that connects. -/
theorem leaves_establish : Leaves t (InStage .connecting) establish := by
  have hconnecting : ∀ m : ReadState, m.stage = .connecting → m.stage ≠ .holding := by
    intro m h he
    rw [h] at he
    cases he
  have hinitialize : ∀ ident m, RegisteredAt .connecting ident () m →
      ∀ ws, t.PermitsNet m (.send ws ⟨some ident, "initialize", clientInfo⟩) := by
    intro ident m hm ws
    refine ⟨.inl ⟨hm.1, .inl ⟨rfl, rfl, rfl⟩⟩, ?_⟩
    rintro ident' he
    cases he
    exact hm.2
  unfold establish
  refine (leaves_perform (fun _ h => h) (fun _ _ h => h) _).bind fun present => ?_
  split
  · exact leaves_throw _
  refine (leaves_perform (fun _ h => h) (fun _ _ h => h) _).bind fun _ => ?_
  refine (leaves_ask (fun _ h => h) fun _ _ h => h).bind fun _ => ?_
  refine (leaves_request (by simp) hinitialize).bind fun info => ?_
  refine (leaves_ask (fun _ h => h) fun _ _ h => h).bind fun _ => ?_
  refine (leaves_ask hconnecting fun _ _ h => h).bind fun ws => ?_
  cases ws with
  | none => exact leaves_throw _
  | some ws =>
      have hinitialized : ∀ m, InStage .connecting () m →
          t.PermitsNet m (.send ws ⟨none, "initialized", []⟩) :=
        fun m hm => ⟨.inl ⟨hm, .inr ⟨rfl, rfl, rfl⟩⟩, nofun⟩
      exact leaves_perform hinitialized (fun _ _ h => h) _

/-- **Connecting** leaves the lock as it was found. -/
theorem leaves_connect : Leaves t (InStage .outside) connect := by
  intro s m hm
  -- whatever happens with the lock held, it is left
  have hunlock : ∀ (m' : ReadState), m'.stage ≠ .outside →
      Co.wp (netSpec (wirePermits t)) unlock (fun _ _ m => m.stage = .outside)
        (fun _ _ m => m.stage = .outside) s m' :=
    fun m' hm' => ⟨hm', fun _ => rfl⟩
  unfold connect
  rw [Co.wp_bind, lock, wp_perform]
  refine ⟨hm, fun locked => ?_⟩
  cases locked with
  | error f => exact hm
  | ok _ =>
      show Co.wp _ (Co.tryFinally _ unlock) _ _ s { m with stage := .holding }
      rw [Co.wp_tryFinally, Co.wp_bind]
      refine ⟨rfl, fun alive => ?_⟩
      cases alive with
      | true => exact hunlock _ (by simp [ReadState.next])
      | false =>
          have hbody : Leaves t (InStage .connecting) (do
              close
              Co.tryCatch establish fun error => do
                close
                Co.throw error : Net Unit) :=
            leaves_close.bind fun _ => leaves_establish.tryCatch fun error =>
              leaves_close.bind fun _ => leaves_throw error
          have hleft : ∀ m' : ReadState, m'.stage = .connecting → m'.stage ≠ .outside := by
            intro m' h he
            rw [h] at he
            cases he
          exact Co.wp_conseq (netPermits_mono t) (hbody s _ rfl)
            (fun _ _ m' hm' => hunlock m' (hleft m' hm'))
            fun _ _ m' hm' => hunlock m' (hleft m' hm')

/-- A request of the read, over a connection that is there or made. -/
theorem leaves_call {method : String} {params : Dict} (h : t.Asks method params) :
    Leaves t (InStage .outside) (call method params) := by
  refine leaves_connect.bind fun _ => leaves_request (by simp) fun ident m hm ws => ?_
  refine ⟨.inr ⟨hm.1, rfl, h⟩, ?_⟩
  rintro ident' he
  cases he
  exact hm.2

end AppServer

/-! ## §4. A read tool, operation by operation. -/

section Frames

variable [Endpoint] {t : ReadTool} {α : Type}

omit [Endpoint] in
/-- A coroutine of the connection within a read. -/
theorem wp_ofNet_leaves {c : Net α} (hc : AppServer.Leaves t (InStage .outside) c) {m : ReadState}
    (hm : m.stage = .outside) :
    Interaction.wp (wirePermits t) (ofNet c) (fun _ m' => m'.stage = .outside) m := by
  rw [wp_ofNet_eq]
  exact hc () m hm

/-- What a read tool does at the level of its calls. -/
def ReadTool.Performs (t : ReadTool) : Op → Prop
  | .isDir path | .resolve path => t.Visits path
  | .select requestId => t = .getOperation requestId
  | .call method params => t.Asks method params
  | _ => False

/-- Down to the frames. -/
theorem wp_wire_performs {op : Op} (h : t.Performs op) {m : ReadState}
    (hm : m.stage = .outside) :
    Interaction.wp (wirePermits t) (CodexRemoteBridge.wire op)
      (fun _ m' => m'.stage = .outside) m := by
  cases op with
  | isDir path => exact ⟨h, fun _ => hm⟩
  | resolve path => exact ⟨h, fun _ => hm⟩
  | select requestId => exact ⟨h, fun _ => hm⟩
  | call method params => exact wp_ofNet_leaves (AppServer.leaves_call h) hm
  | _ => cases h

/-- The program does what the tool permits. -/
structure ReadTool.Within (t : ReadTool) (p : Prog ReadOp ReadAns (Except PyExc Json)) :
    Prop where
  wp : Interaction.wp (permits t) p (fun _ _ => True) .start

theorem within_ofAct {c : Act Json} (h : c.Only t.Performs) : t.Within (ofWire (ofAct c)) := by
  constructor
  rw [wp_ofWire, ofAct, Interaction.wp_bind, wp_handle]
  have hkeeps : c.Keeps ((wirePermits t).through CodexRemoteBridge.wire)
      (fun _ m => m.stage = .outside) fun _ _ m => m.stage = .outside :=
    h.keeps ((wirePermits_mono t).through _) (fun _ _ _ hop hm => wp_wire_performs hop hm)
      fun _ _ _ hm => hm
  exact Interaction.wp_mono ((wirePermits_mono t).through _) (c []) (fun _ _ _ => trivial) _
    (hkeeps [] .start rfl)

omit [Endpoint] in
theorem performs_call {method : String} {params : Dict} (h : t.Asks method params) :
    (Act.call method params).Only t.Performs := Act.only_perform h _

omit [Endpoint] in
theorem ListThreads.only_directory (a : ListThreads) :
    a.directory.Only (ReadTool.listThreads a).Performs := by
  unfold directory
  cases hcwd : a.cwd with
  | none => exact Co.only_pure _
  | some cwd =>
      have hisDir : (ReadTool.listThreads a).Performs (.isDir (PyPath.ofString cwd)) :=
        ⟨cwd, hcwd, rfl⟩
      have hresolve : (ReadTool.listThreads a).Performs (.resolve (PyPath.ofString cwd)) :=
        ⟨cwd, hcwd, rfl⟩
      refine Co.Only.bind ?_ fun _ => Co.only_pure _
      unfold absoluteDirectory
      dsimp only
      split
      · exact Act.only_raise _
      · refine (Act.only_perform hisDir _).bind fun isDir => ?_
        split
        · exact Act.only_raise _
        · exact (Act.only_perform hresolve _).bind fun _ => Co.only_pure _

omit [Endpoint] in
theorem ListThreads.looks_directory (a : ListThreads) : Looks a.directory := by
  unfold directory
  split
  · exact Co.only_pure _
  · exact (looks_absoluteDirectory _).bind fun _ => Co.only_pure _

omit [Endpoint] in
theorem ListThreads.only_run (a : ListThreads) : a.run.Only (ReadTool.listThreads a).Performs := by
  unfold run
  split
  · exact Act.only_raise _
  · have hasks : ∀ cwd, (ReadTool.listThreads a).Asks "thread/list" (a.params cwd) :=
      fun cwd => ⟨rfl, cwd, rfl⟩
    refine a.only_directory.bind fun cwd => ?_
    exact (performs_call (hasks cwd)).bind fun _ => Co.only_pure _

omit [Endpoint] in
theorem ReadThread.only_run (a : ReadThread) : a.run.Only (ReadTool.readThread a).Performs := by
  unfold run
  refine (Co.only_ofExcept _).bind fun _ => ?_
  split
  · exact Act.only_raise _
  · have hmetadata : (ReadTool.readThread a).Asks "thread/read" [("threadId", .str a.threadId)] :=
      .inl ⟨rfl, rfl⟩
    have hpage : (ReadTool.readThread a).Asks "thread/turns/list" a.params := .inr ⟨rfl, rfl⟩
    refine (performs_call hmetadata).bind fun metadata => ?_
    refine (performs_call hpage).bind fun page => ?_
    exact (Co.only_ofExcept _).bind fun _ => Co.only_pure _

omit [Endpoint] in
theorem only_getGoal (threadId : String) :
    (getGoal threadId).Only (ReadTool.getGoal threadId).Performs := by
  have hasks : (ReadTool.getGoal threadId).Asks "thread/goal/get"
      [("threadId", .str threadId)] := ⟨rfl, rfl⟩
  refine (Co.only_ofExcept _).bind fun _ => ?_
  exact (performs_call hasks).bind fun _ => Co.only_pure _

omit [Endpoint] in
theorem only_getOperation (requestId : String) :
    (getOperation requestId).Only (ReadTool.getOperation requestId).Performs := by
  have hselect : (ReadTool.getOperation requestId).Performs (.select requestId) := rfl
  refine Co.Only.bind ?_ fun _ => Co.only_pure _
  refine (Act.only_perform hselect _).bind fun row => ?_
  split
  · exact Act.only_raise _
  · exact Co.only_pure _

/-- A coroutine of a wait keeps the lock free. -/
abbrev Keeping (t : ReadTool) (c : Wait α) : Prop :=
  c.Keeps ((permits t).through waitWire) (fun _ m => m.stage = .outside)
    fun _ _ m => m.stage = .outside

theorem waitMono (t : ReadTool) : ((permits t).through waitWire).Mono := (permits_mono t).through _

/-- What a wait asks for and does. -/
def ReadTool.Waits (t : ReadTool) : WaitOp → Prop
  | .call method params => t.Asks method params
  | .arm seconds => t.Permits .start (.arm seconds)
  | .expired => t.Permits .start .expired
  | .sleep => t.Permits .start .sleep
  | .unrolled => t.Permits .start .unrolled

theorem keeping_perform {op : WaitOp} (h : t.Waits op) (view : Reply op → Except PyExc α) :
    Keeping t (Wait.perform op view) := by
  refine Co.Keeps.bind (waitMono t) ?_ fun _ => Co.keeps_ofExcept fun _ _ _ hm => hm
  intro s m hm
  show Interaction.wp (permits t) (waitWire op) (fun _ m' => m'.stage = .outside) m
  cases op with
  | call method params =>
      unfold waitWire
      rw [Interaction.wp_bind, wp_ofWire]
      exact wp_ofNet_leaves (AppServer.leaves_call h) hm
  | arm seconds => exact ⟨h, fun _ => hm⟩
  | expired => exact ⟨h, fun _ => hm⟩
  | sleep => exact ⟨h, fun _ => hm⟩
  | unrolled => exact ⟨h, fun r => r.elim⟩

section Wait

variable {threadId turnId : String} {seconds : ℚ} {rounds : Nat}

theorem keeping_look : Keeping (.waitThread threadId turnId seconds rounds)
    (look threadId turnId) := by
  unfold look inspect
  refine Co.Keeps.bind (waitMono _) ?_ fun latest => Co.keeps_modify fun _ _ hm => hm
  have hasks : (ReadTool.waitThread threadId turnId seconds rounds).Waits
      (.call "thread/turns/list"
        [("threadId", .str threadId), ("limit", .int 100), ("itemsView", .str "summary")]) :=
    ⟨rfl, rfl⟩
  refine Co.Keeps.bind (waitMono _) (keeping_perform hasks _) fun page => ?_
  exact Co.keeps_ofExcept fun _ _ _ hm => hm

theorem keeping_poll (left : Nat) : Keeping (.waitThread threadId turnId seconds rounds)
    (poll threadId turnId left) := by
  have hunrolled : (ReadTool.waitThread threadId turnId seconds rounds).Waits .unrolled :=
    ⟨_, _, _, _, rfl⟩
  have hsleep : (ReadTool.waitThread threadId turnId seconds rounds).Waits .sleep :=
    ⟨_, _, _, _, rfl⟩
  induction left with
  | zero => exact keeping_perform hunrolled _
  | succ left ih =>
      unfold poll
      refine Co.Keeps.bind (waitMono _) keeping_look fun _ => ?_
      refine Co.Keeps.get_bind fun latest m hm => ?_
      revert m
      refine fun m hm => Co.Keeps.ofExcept_bind (fun _ _ _ h => h) (fun done _ => ?_) latest m hm
      by_cases hdone : done = true
      · rw [if_pos hdone]
        exact Co.keeps_pure ()
      · rw [if_neg hdone]
        exact Co.Keeps.bind (waitMono _) (keeping_perform hsleep _) fun _ => ih

theorem keeping_observeTurn : Keeping (.waitThread threadId turnId seconds rounds)
    (observeTurn threadId turnId rounds seconds) := by
  have harm : (ReadTool.waitThread threadId turnId seconds rounds).Waits (.arm seconds) :=
    ⟨_, _, _, rfl⟩
  have hexpires : (ReadTool.waitThread threadId turnId seconds rounds).Waits .expired :=
    ⟨_, _, _, _, rfl⟩
  unfold observeTurn
  split
  · exact keeping_look
  · refine Co.Keeps.tryCatch (waitMono _) ?_ fun error s m hm => ?_
    · unfold Wait.timeout
      refine Co.Keeps.bind (waitMono _) (keeping_perform harm _) fun _ => ?_
      refine Co.Keeps.tryCatch (waitMono _) (keeping_poll rounds) fun error s m hm => ?_
      split
      · have hexpired : Keeping (.waitThread threadId turnId seconds rounds) (do
            let own ← Wait.expired
            if own then Co.throw timeoutError else Co.throw .cancelledError : Wait Unit) := by
          refine Co.Keeps.bind (waitMono _) (keeping_perform hexpires _) fun own => ?_
          split <;> exact Co.keeps_throw fun _ _ hm => hm
        exact hexpired s m hm
      · exact hm
    · split
      · exact hm
      · exact hm

theorem keeping_waitThread : Keeping (.waitThread threadId turnId seconds rounds)
    (waitThread threadId turnId rounds seconds) := by
  unfold waitThread
  refine Co.Keeps.ofExcept_bind (fun _ _ _ hm => hm) fun _ _ => ?_
  refine Co.Keeps.ofExcept_bind (fun _ _ _ hm => hm) fun _ _ => ?_
  split
  · exact Co.keeps_throw fun _ _ hm => hm
  · refine Co.Keeps.bind (waitMono _) keeping_observeTurn fun _ => ?_
    refine Co.Keeps.get_bind fun latest m hm => ?_
    refine Co.Keeps.ofExcept_bind (fun _ _ _ h => h) (fun terminal _ => ?_) latest m hm
    exact Co.keeps_pure _

end Wait

omit [Endpoint] in
theorem within_listBridgeThreads (limit cursor : Json) :
    (ReadTool.listBridgeThreads limit cursor).Within (listBridgeThreads limit cursor) := by
  constructor
  unfold listBridgeThreads
  split
  · trivial
  · trivial
  · rename_i n before hlimit hcursor
    refine ⟨⟨limit, cursor, n, rfl, hlimit, hcursor, rfl⟩, fun rows => ?_⟩
    cases rows <;> trivial

/-- **Every operation of a read** is one the tool permits. -/
theorem ReadTool.within (t : ReadTool) (info : Json) : t.Within (t.wire info) := by
  cases t with
  | getCapabilities =>
      constructor
      have hleaves : AppServer.Leaves .getCapabilities (InStage .outside) (capabilities info) :=
        AppServer.leaves_connect.bind fun _ => Co.keeps_pure _
      show Interaction.wp _ (ofWire (ofNet (capabilities info))) _ _
      rw [wp_ofWire]
      exact Interaction.wp_mono (wirePermits_mono _) _ (fun _ _ _ => trivial) _
        (wp_ofNet_leaves hleaves rfl)
  | listThreads a => exact within_ofAct a.only_run
  | listBridgeThreads limit cursor => exact within_listBridgeThreads limit cursor
  | readThread a => exact within_ofAct a.only_run
  | waitThread threadId turnId seconds rounds =>
      constructor
      show Interaction.wp _ (ofWait _) _ _
      rw [ofWait, Interaction.wp_bind, wp_handle]
      exact Interaction.wp_mono (waitMono _) _ (fun _ _ _ => trivial) _
        (keeping_waitThread none .start rfl)
  | getGoal threadId => exact within_ofAct (only_getGoal threadId)
  | getOperation requestId => exact within_ofAct (only_getOperation requestId)

/-! ## §5. The requests of a read. -/

/-- The effect an operation of a read begins. -/
def ReadOp.effect : ReadOp → Option Effect
  | .wire op => op.effect
  | _ => none

/-- The effect an operation of a wait begins. -/
def WaitOp.effect : WaitOp → Option Effect
  | .call method _ => requestEffect method
  | _ => none

omit [Endpoint] in
theorem emits_ofWire {p : Prog WireOp WireAns α} {L : List Effect}
    (h : Emits WireOp.effect p L) : Emits ReadOp.effect (ofWire p) L := by
  refine Emits.handle (l := WireOp.effect) (fun op => ?_) h
  cases hop : op.effect with
  | none => exact .silent hop fun _ => .ret _ _
  | some e => exact .label hop fun _ => .ret _ _

theorem emits_ofAct {c : Act Json} {L : List Effect} (h : Begins c L) :
    Emits ReadOp.effect (ofWire (ofAct c)) L := by
  apply emits_ofWire
  rw [← List.append_nil L]
  exact (Emits.handle emits_wire (h [])).bind fun r => .ret _ _

theorem emits_waitWire (op : WaitOp) :
    Emits ReadOp.effect (waitWire op) op.effect.toList := by
  cases op with
  | call method params =>
      have hcall := emits_ofWire (emits_ofNet (AppServer.transmits_call method params))
      rw [← List.append_nil (WaitOp.effect (.call method params)).toList]
      exact hcall.bind fun r => .ret _ _
  | _ => exact .silent rfl fun r => .ret _ _

theorem emits_ofWait {c : Wait α} {L : List Effect} (h : c.Emits WaitOp.effect L) :
    Emits ReadOp.effect (ofWait c) L := by
  rw [ofWait, ← List.append_nil L]
  exact (Emits.handle emits_waitWire (h none)).bind fun r => .ret _ _

omit [Endpoint] in
theorem emits_perform (op : WaitOp) (view : Reply op → Except PyExc α) :
    (Wait.perform op view).Emits WaitOp.effect op.effect.toList := by
  rw [← List.append_nil op.effect.toList]
  exact (Co.emits_ask op).bind fun r => Co.emits_ofExcept _

omit [Endpoint] in
theorem emits_look (threadId turnId : String) :
    (look threadId turnId).Emits WaitOp.effect [.request "thread/turns/list"] := by
  unfold look inspect
  rw [← List.append_nil [Effect.request "thread/turns/list"]]
  refine Co.Emits.bind ?_ fun latest => Co.emits_modify _
  rw [← List.append_nil [Effect.request "thread/turns/list"]]
  exact (emits_perform (.call "thread/turns/list" _) _).bind fun page => Co.emits_ofExcept _

omit [Endpoint] in
/-- One request a round. -/
theorem emits_poll (threadId turnId : String) (rounds : Nat) :
    (poll threadId turnId rounds).Emits WaitOp.effect
      (List.replicate rounds (.request "thread/turns/list")) := by
  induction rounds with
  | zero => exact emits_perform .unrolled _
  | succ rounds ih =>
      refine (emits_look threadId turnId).cons_bind fun _ => ?_
      refine Co.emits_get.silent_bind fun latest => ?_
      refine (Co.emits_ofExcept _).silent_bind fun done => ?_
      by_cases hdone : done = true
      · rw [if_pos hdone]
        exact (Co.emits_pure ()).weaken
      · rw [if_neg hdone]
        exact (emits_perform .sleep _).silent_bind fun _ => ih

omit [Endpoint] in
theorem emits_timeout {seconds : ℚ} {body : Wait Unit} {L : List Effect}
    (h : body.Emits WaitOp.effect L) : (Wait.timeout seconds body).Emits WaitOp.effect L := by
  refine (emits_perform (.arm seconds) _).silent_bind fun _ => ?_
  rw [← List.append_nil L]
  refine h.tryCatch fun error => ?_
  split
  · refine (emits_perform .expired _).silent_bind fun own => ?_
    split <;> exact Co.emits_throw _
  · exact Co.emits_throw _

omit [Endpoint] in
theorem emits_waitThread (threadId turnId : String) (rounds : Nat) (seconds : ℚ) :
    (waitThread threadId turnId rounds seconds).Emits WaitOp.effect
      (ReadTool.waitThread threadId turnId seconds rounds).effects := by
  have hobserve : (observeTurn threadId turnId rounds seconds).Emits WaitOp.effect
      (ReadTool.waitThread threadId turnId seconds rounds).effects := by
    unfold observeTurn
    by_cases hseconds : seconds = 0
    · simp only [ReadTool.effects, if_pos hseconds]
      exact emits_look threadId turnId
    · simp only [ReadTool.effects, if_neg hseconds]
      rw [← List.append_nil (List.replicate _ _)]
      refine (emits_timeout (emits_poll threadId turnId rounds)).tryCatch fun error => ?_
      split
      · exact Co.emits_pure ()
      · exact Co.emits_throw _
  unfold waitThread
  refine (Co.emits_ofExcept _).silent_bind fun _ => ?_
  refine (Co.emits_ofExcept _).silent_bind fun _ => ?_
  split
  · exact (Co.emits_throw _).weaken
  · rw [← List.append_nil (ReadTool.effects _)]
    refine hobserve.bind fun _ => Co.emits_get.silent_bind fun latest => ?_
    exact (Co.emits_ofExcept _).silent_bind fun terminal => Co.emits_pure _

omit [Endpoint] in
theorem emits_listBridgeThreads (limit cursor : Json) :
    Emits ReadOp.effect (listBridgeThreads limit cursor) [] := by
  unfold listBridgeThreads
  split
  · exact .ret _ _
  · exact .ret _ _
  · refine .silent rfl fun rows => ?_
    cases rows <;> exact .ret _ _

/-- Each request of a read goes out at most once, and in order. -/
theorem ReadTool.emits_wire (t : ReadTool) (info : Json) :
    Emits ReadOp.effect (t.wire info) t.effects := by
  cases t with
  | getCapabilities =>
      have hcapabilities : Transmits (capabilities info) [] :=
        AppServer.transmits_connect.silent_bind fun _ => Co.emits_pure _
      exact emits_ofWire (emits_ofNet hcapabilities)
  | listThreads a =>
      refine emits_ofAct ?_
      unfold ListThreads.run
      split
      · exact begins_raise _ _
      · refine a.looks_directory.begins.silent_bind fun cwd => ?_
        exact (begins_call rfl _).cons_bind fun _ => begins_pure _ _
  | listBridgeThreads limit cursor => exact emits_listBridgeThreads limit cursor
  | readThread a =>
      refine emits_ofAct ?_
      unfold ReadThread.run
      refine (begins_ofExcept _).silent_bind fun _ => ?_
      split
      · exact begins_raise _ _
      · refine (begins_call rfl _).cons_bind fun metadata => ?_
        refine (begins_call rfl _).cons_bind fun page => ?_
        exact (begins_ofExcept _).silent_bind fun _ => begins_pure _ _
  | waitThread threadId turnId seconds rounds =>
      exact emits_ofWait (emits_waitThread threadId turnId rounds seconds)
  | getGoal threadId =>
      refine emits_ofAct ((begins_ofExcept _).silent_bind fun _ => ?_)
      exact (begins_call rfl _).cons_bind fun _ => begins_pure _ _
  | getOperation requestId =>
      refine emits_ofAct (Co.Emits.silent_bind ?_ fun _ => begins_pure _ _)
      refine (begins_perform (.select requestId) _).silent_bind fun row => ?_
      split
      · exact begins_raise _ _
      · exact begins_pure _ _

end Frames

/-! ## §6. Reads and mutations together. -/

section Model

variable [Hashlib] [Endpoint]

/-- A read call, as far as it has got. -/
structure ReadCall where
  bridge : Nat
  tool : ReadTool
  info : Json
  history : List (Event ReadAns)
  rest : Prog ReadOp ReadAns (Except PyExc Json)
  /-- The process has died. -/
  stopped : Bool

/-- A read that is about to start. -/
def ReadCall.start (bridge : Nat) (tool : ReadTool) (info : Json) : ReadCall where
  bridge := bridge
  tool := tool
  info := info
  history := []
  rest := tool.wire info
  stopped := false

/-- The system with the reads there have been. -/
structure Traffic where
  system : System
  readers : List ReadCall

/-- Nothing has been called yet. -/
def Traffic.init (store : Store) : Traffic := ⟨System.init store, []⟩

/-- How an operation of a read is answered: over the wire like one of a
mutation, by the same ledger and the same lock. -/
inductive Supplies (bridge : Nat) (store : Store) (locked : Nat → Bool) :
    (op : ReadOp) → ReadAns op → Store → (Nat → Bool) → Prop
  | wire {op : WireOp} {r : WireAns op} {store' : Store} {locked' : Nat → Bool} :
      Serves store op r store' → Locks bridge locked op r locked' →
      Supplies bridge store locked (.wire op) r store' locked'
  /-- Rows are fetched, and clocks asked, without a change. -/
  | other {op : ReadOp} (r : ReadAns op) :
      (∀ op', op ≠ .wire op') → Supplies bridge store locked op r store locked

/-- A step: of a mutation, of a read, or the end of a process. -/
inductive Traffic.Step (T : Traffic) : Traffic → Prop
  | call (bridge : Nat) (requestId : String) (tool : ToolCall) :
      Traffic.Step T
        { T with
          system := { T.system with
            clients := T.system.clients ++ [Client.start bridge requestId tool] } }
  | read (bridge : Nat) (tool : ReadTool) (info : Json) :
      Traffic.Step T { T with readers := T.readers ++ [ReadCall.start bridge tool info] }
  | act {i : Nat} {c : Client} {op : WireOp}
      {k : WireAns op → Prog WireOp WireAns (Except PyExc Dict × Dict)}
      {r : WireAns op} {store : Store} {locked : Nat → Bool} :
      T.system.clients[i]? = some c → c.stopped = false → c.rest = .op op k →
      Serves T.system.store op r store → Locks c.bridge T.system.locked op r locked →
      Traffic.Step T
        { T with
          system := ⟨store, T.system.clients.set i
            { c with history := c.history ++ [⟨op, r⟩], rest := k r }, locked⟩ }
  | look {i : Nat} {c : ReadCall} {op : ReadOp}
      {k : ReadAns op → Prog ReadOp ReadAns (Except PyExc Json)}
      {r : ReadAns op} {store : Store} {locked : Nat → Bool} :
      T.readers[i]? = some c → c.stopped = false → c.rest = .op op k →
      Supplies c.bridge T.system.store T.system.locked op r store locked →
      Traffic.Step T
        { system := { T.system with store := store, locked := locked }
          readers := T.readers.set i
            { c with history := c.history ++ [⟨op, r⟩], rest := k r } }
  | crash (bridge : Nat) :
      Traffic.Step T
        { system := { T.system with
            clients := T.system.clients.map fun c =>
              if c.bridge = bridge then { c with stopped := true } else c
            locked := Function.update T.system.locked bridge false }
          readers := T.readers.map fun c =>
            if c.bridge = bridge then { c with stopped := true } else c }

/-- The states an execution passes through. -/
inductive Traffic.Reach (T₀ : Traffic) : Traffic → Prop
  | init : Traffic.Reach T₀ T₀
  | step {T T' : Traffic} : Traffic.Reach T₀ T → T.Step T' → Traffic.Reach T₀ T'

/-- The reads are runs of their tools. -/
def Traffic.Runs (T : Traffic) : Prop :=
  ∀ c ∈ T.readers, Run (c.tool.wire c.info) c.history c.rest

end Model

/-- **The step lemma** of a read: what the tool permits leaves the ledger and
the locks alone. -/
theorem ReadTool.Permits.supplies {t : ReadTool} {m : ReadState} {op : ReadOp} (h : t.Permits m op)
    {r : ReadAns op} {bridge : Nat} {store store' : Store} {locked locked' : Nat → Bool}
    (hsupply : Supplies bridge store locked op r store' locked') :
    store' = store ∧ locked' = locked := by
  cases hsupply with
  | other _ _ => exact ⟨rfl, rfl⟩
  | wire hserve hlock =>
      constructor
      · cases hserve with
        | insert _ => exact absurd h id
        | update _ _ => exact absurd h id
        | _ => rfl
      · cases hlock with
        | acquire _ => exact absurd h id
        | release => exact absurd h id
        | _ => rfl

/-- A frame that goes out is one of the handshake, or of the read. -/
theorem ReadTool.Permits.frame {t : ReadTool} {m : ReadState} {ws : Conn} {frame : Frame}
    (h : t.Permits m (.wire (.net (.send ws frame)))) :
    frame.IsHandshake ∨ t.Asks frame.method frame.params := by
  rcases h.1 with ⟨-, hhandshake⟩ | ⟨-, -, hasks⟩
  · exact .inl hhandshake
  · exact .inr hasks

section Runs

variable [Hashlib] [Endpoint]

/-- What a read is about to do, and all it has done, the tool permits at that
point. -/
structure ReadCall.Permitted (c : ReadCall) : Prop where
  done : ∀ pre e post, c.history = pre ++ e :: post →
    c.tool.Permits (pre.foldl ReadState.next .start) e.1
  next : ∀ op, c.rest.head? = some op →
    c.tool.Permits (c.history.foldl ReadState.next .start) op

omit [Hashlib] in
theorem ReadCall.permitted {c : ReadCall} (h : Run (c.tool.wire c.info) c.history c.rest) :
    c.Permitted := by
  have hwithin := (c.tool.within c.info).wp
  exact ⟨fun pre e post he => wp_run_mem hwithin h he, fun op hop => wp_run_head hwithin h hop⟩

namespace Traffic

variable {T T' : Traffic}

/-- The requests a read has sent, the one it stands at included. -/
def begun (c : ReadCall) : List Effect :=
  labels ReadOp.effect c.history ++ (c.rest.head?.bind ReadOp.effect).toList

/-- **The step lemma**: reads stay runs of their tools, and the mutations make
a step of their own or none. -/
theorem step (h : T.Runs) (hstep : T.Step T') :
    T'.Runs ∧ (T'.system = T.system ∨ T.system.Step T'.system) := by
  cases hstep with
  | call bridge requestId tool => exact ⟨h, .inr (.call bridge requestId tool)⟩
  | act hi hlive hrest hserve hlock => exact ⟨h, .inr (.act hi hlive hrest hserve hlock)⟩
  | read bridge tool info =>
      refine ⟨fun c hc => ?_, .inl rfl⟩
      rcases List.mem_append.mp hc with hc | hc
      · exact h c hc
      · obtain rfl := List.mem_singleton.mp hc
        exact .start
  | @look i c op k r store locked hi hlive hrest hsupply =>
      have hrun := h c (List.mem_of_getElem? hi)
      have hpermits := (c.permitted hrun).next op (by rw [hrest]; rfl)
      refine ⟨fun d hd => ?_, .inl ?_⟩
      · obtain ⟨j, hj⟩ := List.mem_iff_getElem?.mp hd
        by_cases hij : j = i
        · subst hij
          have hlt := (List.getElem?_eq_some_iff.mp hi).1
          obtain rfl := Option.some.inj ((List.getElem?_set_self hlt).symm.trans hj)
          rw [hrest] at hrun
          exact hrun.step r
        · have hold := (List.getElem?_set_ne fun e => hij e.symm).symm.trans hj
          exact h d (List.mem_of_getElem? hold)
      · obtain ⟨hstore, hlocked⟩ := hpermits.supplies hsupply
        rw [hstore, hlocked]
  | crash bridge =>
      refine ⟨fun c hc => ?_, .inr (.crash bridge)⟩
      obtain ⟨d, hd, rfl⟩ := List.mem_map.mp hc
      by_cases hb : d.bridge = bridge
      · rw [if_pos hb]
        exact h d hd
      · rw [if_neg hb]
        exact h d hd

/-- **The run lemma.** -/
theorem of_reach {store : Store} (h : Reach (init store) T) :
    T.Runs ∧ System.Reach (System.init store) T.system := by
  induction h with
  | init => exact ⟨(fun c hc => by cases hc), .init⟩
  | step _ hstep ih =>
      obtain ⟨hruns, hreach⟩ := ih
      obtain ⟨hruns', heq | hsystem⟩ := Traffic.step hruns hstep
      · exact ⟨hruns', heq ▸ hreach⟩
      · exact ⟨hruns', hreach.step hsystem⟩

/-- What reads amount to, in an execution from the ledger file `store`. -/
structure ReadsOnly (store : Store) (T : Traffic) : Prop where
  /-- Without the reads it is an execution of the mutations alone: with the
  same ledger, the same locks, and the same answers to every mutation. -/
  mutations : System.Reach (System.init store) T.system
  /-- A read sends the requests it was called for, each at most once. -/
  requests : ∀ c ∈ T.readers, (begun c).Sublist c.tool.effects
  /-- Nothing is done but looking, reading one's own rows, waiting, and what the
  tool may do to the connection at that point. -/
  operations : ∀ c ∈ T.readers, c.Permitted

/-- **Reads only read**, however they are mixed with mutations. -/
theorem reads_only {store : Store} (h : Reach (init store) T) : T.ReadsOnly store := by
  obtain ⟨hruns, hreach⟩ := of_reach h
  exact ⟨hreach, fun c hc => (c.tool.emits_wire c.info).run (hruns c hc),
    fun c hc => c.permitted (hruns c hc)⟩

/-- Answering the operation a mutation stands at. -/
theorem Reach.answer {T₀ : Traffic} (h : Reach T₀ T) (i : Nat) (op : WireOp) (r : WireAns op)
    {c : Client} {k : WireAns op → Prog WireOp WireAns (Except PyExc Dict × Dict)}
    {store : Store} {locked : Nat → Bool} (hi : T.system.clients[i]? = some c)
    (hlive : c.stopped = false) (hrest : c.rest = .op op k)
    (hserve : Serves T.system.store op r store)
    (hlock : Locks c.bridge T.system.locked op r locked) :
    Reach T₀
      { T with
        system := ⟨store, T.system.clients.set i
          { c with history := c.history ++ [⟨op, r⟩], rest := k r }, locked⟩ } :=
  h.step (.act hi hlive hrest hserve hlock)

/-- Answering the operation a read stands at. -/
theorem Reach.tell {T₀ : Traffic} (h : Reach T₀ T) (i : Nat) (op : WireOp) (r : WireAns op)
    {c : ReadCall} {k : WireAns op → Prog ReadOp ReadAns (Except PyExc Json)}
    {store : Store} {locked : Nat → Bool} (hi : T.readers[i]? = some c)
    (hlive : c.stopped = false) (hrest : c.rest = .op (.wire op) k)
    (hserve : Serves T.system.store op r store)
    (hlock : Locks c.bridge T.system.locked op r locked) :
    Reach T₀
      { system := { T.system with store := store, locked := locked }
        readers := T.readers.set i
          { c with history := c.history ++ [⟨.wire op, r⟩], rest := k r } } :=
  h.step (.look hi hlive hrest (.wire hserve hlock))

end Traffic

end Runs

/-- A goal is asked for, over a connection that stands, while a retitling holds
the lock. -/
theorem Traffic.reads_only_goal :
    let _ := Hashlib.verbatim
    let _ := Endpoint.sample
    ∃ T : Traffic, T.system.locked 0 = true ∧
      T.readers.map Traffic.begun = [[.request "thread/goal/get"]] ∧
      T.ReadsOnly Store.empty := by
  intro _ _
  have h := (Traffic.Reach.init : Traffic.Reach (Traffic.init Store.empty) _)
    |>.step (.call 0 "r" (.setThreadTitle ⟨"t", "x"⟩))
    |>.step (.read 0 (.getGoal "t") .null)
    |>.answer 0 (.base .acquire) (.ok ()) rfl rfl rfl (.other _ (by simp) (by simp) (by simp))
        (.acquire rfl)
    |>.tell 0 (.net .lock) (.ok ()) rfl rfl rfl (.other _ (by simp) (by simp) (by simp))
        (.other _ (by simp) (by simp))
    |>.tell 0 (.net .readerAlive) true rfl rfl rfl (.other _ (by simp) (by simp) (by simp))
        (.other _ (by simp) (by simp))
    |>.tell 0 (.net .unlock) () rfl rfl rfl (.other _ (by simp) (by simp) (by simp))
        (.other _ (by simp) (by simp))
    |>.tell 0 (.net .ws) (some 0) rfl rfl rfl (.other _ (by simp) (by simp) (by simp))
        (.other _ (by simp) (by simp))
    |>.tell 0 (.net .register) 1 rfl rfl rfl (.other _ (by simp) (by simp) (by simp))
        (.other _ (by simp) (by simp))
  exact ⟨_, rfl, rfl, Traffic.reads_only h⟩

end CodexRemoteBridge
