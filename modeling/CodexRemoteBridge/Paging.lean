/-
  CodexRemoteBridge.Paging — how the cursor of a page gets to the client and
  back.

  A cursor of the App Server is opaque, and may well look like JSON.  It is
  no display text, so clipping leaves it alone; the parameter that takes it
  back is annotated `str`, so FastMCP does; an empty one stands for the first
  page.

  Main result: `PagedTool.cursor_verbatim`.
-/
import CodexRemoteBridge.Clipping
import CodexRemoteBridge.Reading
import CodexRemoteBridge.Server

namespace CodexRemoteBridge

open Interaction

/-! ## §1. Tools with pages. -/

/-- The tools whose pages come from the App Server. -/
inductive PagedTool where
  | listThreads
  | listArchivedThreads
  | readThread

/-- `cursor or None`. -/
def orNone (s : String) : Option String := if s = "" then none else some s

namespace PagedTool

/-- `cursor: str = ""`. -/
abbrev cursorParam : Param := ⟨"cursor", .str, some ""⟩

/-- The tool called with these arguments; the numbers among them have been
checked. -/
def receive [FastMCP] (limit maxTextChars : Int) : PagedTool → Dict → Except Rejected ReadTool
  | .listThreads, args => do
      let cwd ← (Param.nullableText "cwd").receive args
      let cursor ← cursorParam.receive args
      .ok (.listThreads ⟨cwd, limit, orNone cursor, false⟩)
  | .listArchivedThreads, args => do
      let cwd ← (Param.nullableText "cwd").receive args
      let cursor ← cursorParam.receive args
      .ok (.listThreads ⟨cwd, limit, orNone cursor, true⟩)
  | .readThread, args => do
      let threadId ← (Param.text "thread_id").receive args
      let cursor ← cursorParam.receive args
      .ok (.readThread ⟨threadId, limit, orNone cursor, maxTextChars⟩)

/-- The request that is answered with a page. -/
def method : PagedTool → String
  | .listThreads | .listArchivedThreads => "thread/list"
  | .readThread => "thread/turns/list"

/-- The page in what the tool returns. -/
def page : PagedTool → Json → Except PyExc Json
  | .listThreads, v | .listArchivedThreads, v => .ok v
  | .readThread, v => v.index "turnsPage"

/-- `result["nextCursor"]` of the page a tool returned. -/
def nextCursor (tool : PagedTool) (v : Json) : Except PyExc Json := do
  let page ← tool.page v
  page.index "nextCursor"

end PagedTool

/-- The cursor a tool was called with. -/
def ReadTool.cursor : ReadTool → Option String
  | .listThreads a => a.cursor
  | .readThread a => a.cursor
  | _ => none

/-! ## §2. The way out. -/

/-- The result of a request, as the history has it: the request was sent and
answered with it. -/
def Replied (method : String) (result : Json) (h : List (Event WireAns)) : Prop :=
  ∃ ws ident params message,
    (⟨.net (.send ws ⟨some ident, method, params⟩), .ok ()⟩ : Event WireAns) ∈ h ∧
    (⟨.net (.awaitReply ident), .ok message⟩ : Event WireAns) ∈ h ∧
    AppServer.reply method message = .ok result

/-- The history of a run. -/
abbrev recording : OpSpec WireAns (List (Event WireAns)) := history fun _ _ => True

/-- The same, seen by the bridge. -/
abbrev recordingCalls [Endpoint] : OpSpec Ans (List (Event WireAns)) := recording.through wire

theorem recording_any {α : Type} (p : Prog WireOp WireAns α) (h : List (Event WireAns)) :
    Interaction.wp recording p (fun _ _ => True) h :=
  wp_of_stable (fun _ _ _ => trivial) (fun _ _ _ => trivial) p trivial

theorem recordingNet_mono : (netSpec recording).Mono :=
  fun _ _ _ hQ _ h => ⟨h.1, fun r => hQ _ _ (h.2 r)⟩

theorem recordingCalls_mono [Endpoint] : recordingCalls.Mono := (observe_mono _ _).through wire

/-- Nothing is asked of a coroutine whose result is dropped. -/
theorem recording_net {α : Type} (c : Net α) (s : Unit) (h : List (Event WireAns)) :
    Co.Leads (netSpec recording) c (fun _ _ _ => True) s h := by
  have hany : ∀ (p : Prog NetOp NetAns (Except PyExc α × Unit)) (h : List (Event WireAns)),
      Interaction.wp (netSpec recording) p (fun _ _ => True) h := by
    intro p
    induction p with
    | ret a => exact fun _ => trivial
    | op op k ih => exact fun h => ⟨trivial, fun r => ih r _⟩
  refine Interaction.wp_mono recordingNet_mono _ ?_ h (hany (c s) h)
  rintro ⟨r | r, s'⟩ h' _ <;> trivial

theorem replied_exchange (ws : Conn) (ident : Nat) (method : String) (params : Dict)
    (h : List (Event WireAns)) :
    Co.Leads (netSpec recording) (AppServer.exchange ws ident method params)
      (fun message _ h =>
        (⟨.net (.send ws ⟨some ident, method, params⟩), .ok ()⟩ : Event WireAns) ∈ h ∧
        (⟨.net (.awaitReply ident), .ok message⟩ : Event WireAns) ∈ h) () h := by
  have hraise : ∀ (error : PyExc) (Q : Dict → Unit → List (Event WireAns) → Prop)
      (h : List (Event WireAns)),
      Co.wp (netSpec recording)
        (if error.isOSError then Co.throw (AppServer.unavailable method) else Co.throw error :
          Net Dict) Q (fun _ _ _ => True) () h := by
    intro error Q h
    split <;> trivial
  show Co.wp _ _ _ _ _ _
  unfold AppServer.exchange
  rw [Co.wp_tryCatch, Co.wp_bind, AppServer.send, AppServer.wp_perform]
  refine ⟨trivial, fun sent => ?_⟩
  cases sent with
  | error f => exact hraise _ _ _
  | ok _ =>
      show Co.wp (netSpec recording) (AppServer.awaitReply ident) _ _ () _
      rw [AppServer.awaitReply, AppServer.wp_perform]
      refine ⟨trivial, fun r => ?_⟩
      cases r with
      | error f => exact hraise _ _ _
      | ok message => exact ⟨by simp, by simp⟩

/-- What a request returns it was sent in reply. -/
theorem replied_request (method : String) (params : Dict) (h : List (Event WireAns)) :
    Co.Leads (netSpec recording) (AppServer.request method params)
      (fun result _ h => Replied method result h) () h := by
  show Co.wp _ _ _ _ _ _
  unfold AppServer.request
  rw [Co.wp_bind]
  refine ⟨trivial, fun current => ?_⟩
  cases current with
  | none => trivial
  | some ws =>
      show Co.wp (netSpec recording) (AppServer.register >>= fun _ => _) _ _ () _
      rw [Co.wp_bind]
      refine ⟨trivial, fun ident => ?_⟩
      show Co.wp (netSpec recording) (Co.tryFinally (AppServer.exchange ws ident method params)
        (AppServer.unregister ident) >>= fun _ => _) _ _ () _
      rw [Co.wp_bind, Co.wp_tryFinally]
      refine Co.wp_conseq recordingNet_mono (replied_exchange ws ident method params _) ?_ ?_
      · rintro message s h ⟨hsent, hanswer⟩
        refine ⟨trivial, fun _ => ?_⟩
        show Co.wp (netSpec recording) (Co.ofExcept (AppServer.reply method message)) _ _ s _
        rw [Co.wp_ofExcept]
        cases hreply : AppServer.reply method message with
        | error e => trivial
        | ok result =>
            exact ⟨ws, ident, params, message, List.mem_append_left _ hsent,
              List.mem_append_left _ hanswer, hreply⟩
      · exact fun _ _ _ _ => ⟨trivial, fun _ => trivial⟩

variable [Endpoint]

theorem replied_call (method : String) (params : Dict) (s : Dict) (h : List (Event WireAns)) :
    Co.Leads recordingCalls (Act.call method params) (fun result _ h => Replied method result h)
      s h := by
  have hnet : Co.Leads (netSpec recording) (AppServer.call method params)
      (fun result _ h => Replied method result h) () h :=
    Co.Leads.bind recordingNet_mono (recording_net AppServer.connect () h)
      fun _ _ h _ => replied_request method params h
  show Co.wp _ (Act.perform _ _) _ _ _ _
  rw [Act.wp_perform]
  show Interaction.wp recording (ofNet (AppServer.call method params)) _ h
  rw [wp_ofNet_eq]
  exact hnet

theorem recordingCalls_any {α : Type} (c : Act α) (s : Dict) (h : List (Event WireAns)) :
    Co.Leads recordingCalls c (fun _ _ _ => True) s h := by
  have hany := recording_any ((c s).handle wire) h
  rw [Interaction.wp_handle] at hany
  refine Interaction.wp_mono recordingCalls_mono _ ?_ h hany
  rintro ⟨r | r, s'⟩ h' _ <;> trivial

/-- What `list_threads` returns is a page it was sent, clipped. -/
theorem ListThreads.leads_run (a : ListThreads) (h : List (Event WireAns)) :
    Co.Leads recordingCalls a.run
      (fun v _ h => ∃ page, Replied "thread/list" page h ∧ v = clipped 4000 false page) [] h := by
  unfold run
  split
  · trivial
  · refine Co.Leads.bind recordingCalls_mono (recordingCalls_any a.directory [] h) ?_
    intro cwd s h _
    refine Co.Leads.bind recordingCalls_mono (replied_call _ _ s h) ?_
    intro page s h hreplied
    exact ⟨page, hreplied, rfl⟩

/-- What `read_thread` returns holds a page it was sent, clipped. -/
theorem ReadThread.leads_run (a : ReadThread) (h : List (Event WireAns)) :
    Co.Leads recordingCalls a.run
      (fun v _ h => ∃ thread page, Replied "thread/turns/list" page h ∧
        v = clipped a.maxTextChars.toNat false
          (.obj [("thread", thread), ("turnsPage", page)])) [] h := by
  unfold run
  refine Co.Leads.ofExcept_bind fun _ _ => ?_
  split
  · trivial
  · refine Co.Leads.bind recordingCalls_mono (recordingCalls_any _ [] h) ?_
    intro metadata s h _
    refine Co.Leads.bind recordingCalls_mono (replied_call _ _ s h) ?_
    intro page s h hreplied
    refine Co.Leads.ofExcept_bind fun thread _ => ?_
    exact ⟨thread, page, hreplied, rfl⟩

/-- The history of a read, as far as it went over the wire. -/
abbrev recordingWire : OpSpec ReadAns (List (Event WireAns)) :=
  observe (fun h e => h ++ wireHistory [e]) fun _ _ => True

omit [Endpoint] in
theorem foldl_recordingWire (tr : List (Event ReadAns)) (h : List (Event WireAns)) :
    tr.foldl (fun h e => h ++ wireHistory [e]) h = h ++ wireHistory tr := by
  induction tr generalizing h with
  | nil => exact (List.append_nil h).symm
  | cons e tr ih =>
      rw [List.foldl_cons, ih, List.append_assoc]
      congr 1
      simp [wireHistory]

/-- What holds where a coroutine returns holds at the end of its runs. -/
theorem replied_ofAct {c : Act Json} {Q : Json → List (Event WireAns) → Prop}
    (hc : Co.Leads recordingCalls c (fun v _ h => Q v h) [] []) {tr : List (Event ReadAns)}
    {v : Json} (hrun : Run (ofWire (ofAct c)) tr (.ret (.ok v))) : Q v (wireHistory tr) := by
  have hwp : Interaction.wp recordingWire (ofWire (ofAct c))
      (fun r h => ∀ v, r = .ok v → Q v h) [] := by
    rw [wp_ofWire]
    show Interaction.wp recording (ofAct c) _ _
    rw [ofAct, Interaction.wp_bind, Interaction.wp_handle]
    refine Interaction.wp_mono recordingCalls_mono (c []) ?_ [] hc
    rintro ⟨e | v, s⟩ h hq
    · exact fun _ he => by cases he
    · rintro _ he
      cases he
      exact hq
  have hend := wp_run_ret hwp hrun v rfl
  rwa [foldl_recordingWire, List.nil_append] at hend

/-! ## §3. Cursors and clipping. -/

omit [Endpoint] in
/-- Under a key that is no display field a value that is no container comes
out of clipping just as it goes in. -/
theorem clipped_eq_leaf {limit : Nat} {v x : Json} (hx : isLeaf x = true) :
    clipped limit false v = x ↔ v = x := by
  cases v with
  | arr items =>
      constructor
      · rintro rfl
        cases hx
      · rintro rfl
        cases hx
  | obj fields =>
      constructor
      · rintro rfl
        cases hx
      · rintro rfl
        cases hx
  | _ => simp [clipped]

omit [Endpoint] in
theorem index_clipped_leaf {limit : Nat} {key : String} {v x : Json} (hkey : key ∉ displayFields)
    (hx : isLeaf x = true) :
    (clipped limit false v).index key = .ok x ↔ v.index key = .ok x := by
  have hcontains : displayFields.contains key = false := by simpa using hkey
  cases v with
  | obj fields =>
      simp only [clipped, Json.index, get?_clippedFields, hcontains]
      cases Dict.get? fields key with
      | none => simp
      | some v => simpa using clipped_eq_leaf hx
  | _ => simp [clipped, Json.index]

/-! ## §4. The way back. -/

omit [Endpoint] in
/-- A cursor parameter takes any text as it is. -/
theorem PagedTool.receive_cursor [FastMCP] {args : Dict} {s cursor : String}
    (hargs : args.get? "cursor" = some (.str s)) (h : cursorParam.receive args = .ok cursor) :
    cursor = s := by
  unfold Param.receive at h
  rw [hargs] at h
  dsimp only at h
  rw [FastMCP.verbatim] at h
  exact (Except.ok.inj h).symm

omit [Endpoint] in
/-- The cursor the tool is called with is the one among the arguments. -/
theorem PagedTool.cursor_receive [FastMCP] {tool : PagedTool} {limit maxTextChars : Int}
    {args : Dict} {t : ReadTool} {s : String} (h : tool.receive limit maxTextChars args = .ok t)
    (hargs : args.get? "cursor" = some (.str s)) : t.cursor = orNone s := by
  cases tool with
  | listThreads =>
      obtain ⟨cwd, -, h⟩ := bind_eq_ok.mp h
      obtain ⟨cursor, hcursor, h⟩ := bind_eq_ok.mp h
      obtain rfl := Except.ok.inj h
      rw [← receive_cursor hargs hcursor]
      rfl
  | listArchivedThreads =>
      obtain ⟨cwd, -, h⟩ := bind_eq_ok.mp h
      obtain ⟨cursor, hcursor, h⟩ := bind_eq_ok.mp h
      obtain rfl := Except.ok.inj h
      rw [← receive_cursor hargs hcursor]
      rfl
  | readThread =>
      obtain ⟨threadId, -, h⟩ := bind_eq_ok.mp h
      obtain ⟨cursor, hcursor, h⟩ := bind_eq_ok.mp h
      obtain rfl := Except.ok.inj h
      rw [← receive_cursor hargs hcursor]
      rfl

omit [Endpoint] in
theorem ListThreads.get?_cursor (a : ListThreads) (cwd : Option String) :
    (a.params cwd).get? "cursor" = a.cursor.map .str := by
  obtain ⟨-, limit, cursor, archived⟩ := a
  cases archived <;> cases cwd <;> cases cursor <;> simp [params, optionalField]

omit [Endpoint] in
theorem ReadThread.get?_cursor (a : ReadThread) :
    a.params.get? "cursor" = a.cursor.map .str := by
  obtain ⟨threadId, limit, cursor, maxTextChars⟩ := a
  cases cursor <;> simp [params, optionalField]

omit [Endpoint] in
/-- A request for a page has the cursor the tool was called with, or none. -/
theorem PagedTool.asks_cursor [FastMCP] {tool : PagedTool} {limit maxTextChars : Int}
    {args : Dict} {t : ReadTool} (h : tool.receive limit maxTextChars args = .ok t)
    {params : Dict} (hasks : t.Asks tool.method params) :
    params.get? "cursor" = t.cursor.map .str := by
  cases tool with
  | listThreads =>
      obtain ⟨cwd, -, h⟩ := bind_eq_ok.mp h
      obtain ⟨cursor, -, h⟩ := bind_eq_ok.mp h
      obtain rfl := Except.ok.inj h
      obtain ⟨-, resolved, rfl⟩ := hasks
      exact ListThreads.get?_cursor _ resolved
  | listArchivedThreads =>
      obtain ⟨cwd, -, h⟩ := bind_eq_ok.mp h
      obtain ⟨cursor, -, h⟩ := bind_eq_ok.mp h
      obtain rfl := Except.ok.inj h
      obtain ⟨-, resolved, rfl⟩ := hasks
      exact ListThreads.get?_cursor _ resolved
  | readThread =>
      obtain ⟨threadId, -, h⟩ := bind_eq_ok.mp h
      obtain ⟨cursor, -, h⟩ := bind_eq_ok.mp h
      obtain rfl := Except.ok.inj h
      rcases hasks with ⟨hmethod, -⟩ | ⟨-, rfl⟩
      · exact absurd hmethod (by decide)
      · exact ReadThread.get?_cursor _

/-- The page a tool returns has the cursor of the page it was sent. -/
theorem PagedTool.page_sent [FastMCP] {tool : PagedTool} {limit maxTextChars : Int} {args : Dict}
    {t : ReadTool} (h : tool.receive limit maxTextChars args = .ok t) {info v : Json}
    {tr : List (Event ReadAns)} (hrun : Run (t.wire info) tr (.ret (.ok v))) :
    ∃ page, Replied tool.method page (wireHistory tr) ∧ ∀ x, isLeaf x = true →
      (tool.nextCursor v = .ok x ↔ page.index "nextCursor" = .ok x) := by
  have hlist : ∀ a : ListThreads, Run (ofWire (ofAct a.run)) tr (.ret (.ok v)) →
      ∃ page, Replied "thread/list" page (wireHistory tr) ∧ ∀ x, isLeaf x = true →
        (v.index "nextCursor" = .ok x ↔ page.index "nextCursor" = .ok x) := by
    intro a hrun
    obtain ⟨page, hreplied, rfl⟩ := replied_ofAct (a.leads_run []) hrun
    exact ⟨page, hreplied, fun x hx => index_clipped_leaf (by simp [displayFields]) hx⟩
  cases tool with
  | listThreads =>
      obtain ⟨cwd, -, h⟩ := bind_eq_ok.mp h
      obtain ⟨cursor, -, h⟩ := bind_eq_ok.mp h
      obtain rfl := Except.ok.inj h
      exact hlist _ hrun
  | listArchivedThreads =>
      obtain ⟨cwd, -, h⟩ := bind_eq_ok.mp h
      obtain ⟨cursor, -, h⟩ := bind_eq_ok.mp h
      obtain rfl := Except.ok.inj h
      exact hlist _ hrun
  | readThread =>
      obtain ⟨threadId, -, h⟩ := bind_eq_ok.mp h
      obtain ⟨cursor, -, h⟩ := bind_eq_ok.mp h
      obtain rfl := Except.ok.inj h
      obtain ⟨thread, page, hreplied, rfl⟩ := replied_ofAct (ReadThread.leads_run _ []) hrun
      exact ⟨page, hreplied, fun x hx => index_clipped_leaf (by simp [displayFields]) hx⟩

/-- A frame that a read has sent, or is about to send. -/
def SendsFrame (tr : List (Event ReadAns)) (rest : Prog ReadOp ReadAns (Except PyExc Json))
    (frame : Frame) : Prop :=
  ∃ ws, .wire (.net (.send ws frame)) ∈ tr.map Sigma.fst ∨
    rest.head? = some (.wire (.net (.send ws frame)))

/-- **Cursors pass unread**, both ways.  A page has for the client the cursor,
or the `null`, that the server gave it; and whatever text a client passes as
cursor, the request for its page carries it as it is, or no cursor at all if
it is empty. -/
theorem PagedTool.cursor_verbatim [FastMCP] (tool : PagedTool) {limit maxTextChars : Int}
    {args : Dict} {t : ReadTool} (ht : tool.receive limit maxTextChars args = .ok t) {info : Json}
    {tr : List (Event ReadAns)} {rest : Prog ReadOp ReadAns (Except PyExc Json)}
    (hrun : Run (t.wire info) tr rest) :
    (∀ v, rest = .ret (.ok v) →
      ∃ page, Replied tool.method page (wireHistory tr) ∧ ∀ x, isLeaf x = true →
        (tool.nextCursor v = .ok x ↔ page.index "nextCursor" = .ok x)) ∧
    ∀ cursor, args.get? "cursor" = some (.str cursor) → ∀ frame, SendsFrame tr rest frame →
      frame.method = tool.method → frame.params.get? "cursor" = (orNone cursor).map .str := by
  constructor
  · rintro v rfl
    exact tool.page_sent ht hrun
  · rintro cursor hcursor frame ⟨ws, hsends⟩ hmethod
    have hpermitted := ReadCall.permitted (c := ⟨0, t, info, tr, rest, false⟩) hrun
    have hframe : frame.IsHandshake ∨ t.Asks frame.method frame.params := by
      rcases hsends with hdone | hhead
      · obtain ⟨e, he, hop⟩ := List.mem_map.mp hdone
        obtain ⟨pre, post, hsplit⟩ := List.append_of_mem he
        have hpermits := hpermitted.done pre e post hsplit
        rw [hop] at hpermits
        exact hpermits.frame
      · exact (hpermitted.next _ hhead).frame
    rcases hframe with (⟨-, hframe, -⟩ | ⟨-, hframe, -⟩) | hasks
    · rw [hframe] at hmethod
      cases tool <;> simp [method] at hmethod
    · rw [hframe] at hmethod
      cases tool <;> simp [method] at hmethod
    · rw [hmethod] at hasks
      rw [asks_cursor ht hasks, cursor_receive ht hcursor]

/-- A page whose cursor looks like JSON. -/
def listPage : Json := .obj [("data", .arr []), ("nextCursor", .str "[1]")]

omit [Endpoint] in
/-- It is passed on, and comes back for the page after it. -/
theorem PagedTool.cursor_verbatim_list :
    let _ := Endpoint.sample
    let _ := FastMCP.sample
    let t : ReadTool := .listThreads ⟨none, 20, some "[1]", false⟩
    ∃ tr : List (Event ReadAns),
      listThreads.receive 20 4000 [("cursor", .str "[1]")] = .ok t ∧
      Run (t.wire .null) tr (.ret (.ok listPage)) ∧
      listThreads.nextCursor listPage = .ok (.str "[1]") ∧
      (∃ page, Replied "thread/list" page (wireHistory tr) ∧ ∀ x, isLeaf x = true →
        (listThreads.nextCursor listPage = .ok x ↔ page.index "nextCursor" = .ok x)) ∧
      ∀ frame, SendsFrame tr (.ret (.ok listPage)) frame → frame.method = "thread/list" →
        frame.params.get? "cursor" = some (.str "[1]") := by
  intro _ _ t
  have hreceive : listThreads.receive 20 4000 [("cursor", .str "[1]")] = .ok t := rfl
  have h₀ : Run (t.wire .null) [] (t.wire .null) := .start
  have h₁ := Run.step (ρ := ReadAns) (i := .wire (.net .lock)) (.ok ()) h₀
  have h₂ := Run.step (ρ := ReadAns) (i := .wire (.net .readerAlive)) true h₁
  have h₃ := Run.step (ρ := ReadAns) (i := .wire (.net .unlock)) () h₂
  have h₄ := Run.step (ρ := ReadAns) (i := .wire (.net .ws)) (some 0) h₃
  have h₅ := Run.step (ρ := ReadAns) (i := .wire (.net .register)) 1 h₄
  have h₆ := Run.step (ρ := ReadAns) (i := .wire (.net (.send 0 _))) (.ok ()) h₅
  have h₇ := Run.step (ρ := ReadAns) (i := .wire (.net (.awaitReply 1)))
    (.ok [("result", listPage)]) h₆
  have h₈ := Run.step (ρ := ReadAns) (i := .wire (.net (.unregister 1))) () h₇
  have hverbatim := listThreads.cursor_verbatim hreceive h₈
  exact ⟨_, hreceive, h₈, rfl, hverbatim.1 listPage rfl, hverbatim.2 "[1]" rfl⟩

end CodexRemoteBridge
