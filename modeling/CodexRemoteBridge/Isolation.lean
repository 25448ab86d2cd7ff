/-
  CodexRemoteBridge.Isolation — calls and closes that share one connection,
  with a server that answers.

  A tool call that has dispatched something closes the connection that all
  of them share.  Where that takes nothing from a call under way, and no
  call takes the lock meanwhile, no call finds the connection closed, lost
  or half open.
-/
import CodexRemoteBridge.Closing

namespace CodexRemoteBridge.Link

open Interaction

/-! ## §1. The surroundings. -/

/-- What the server sends over a connection: messages of its own, and
results for requests that it has been sent there. -/
def Proper (log : List Entry) (w : Conn) (raw : Except Fault Json) : Prop :=
  ∃ message : Dict, raw = .ok (.obj message) ∧
    ((message.get? "method").isSome = true ∨
      message.get? "method" = none ∧ message.get? "error" = none ∧
        (message.get? "result").isSome = true ∧
        ∃ (ident : Nat) (i : Nat) (frame : Frame), message.get? "id" = some (.int ident) ∧
          .sent i w frame ∈ log ∧ frame.id = some ident)

/-- The server answers in time, the transport does not fail by itself, and
no `close()` is cancelled; tool calls may be, at any other await. -/
def Friendly (s : Link) : Label Invocation NetAns ReaderStep → Prop
  | .act _ ⟨.socketExists, r⟩ => r = .ok true
  | .resume _ ⟨.lock, .error fault⟩ => fault = .cancelled
  | .resume _ ⟨.openTransport, .error fault⟩ => fault = .cancelled
  | .resume _ ⟨.send c _, .error fault⟩ => fault = .cancelled ∨ s.closing c = true
  | .resume _ ⟨.awaitReply _, .error fault⟩ => fault ≠ .exception "TimeoutError" ""
  | .resume _ ⟨.closeTransport _, r⟩ => r = .ok ()
  | .resume _ ⟨.joinReader c, .error fault⟩ => s.readers c = .done (some fault)
  | .ambient (.receives c raw) => ∀ w, s.readers c = .reading w → Proper s.log w raw
  | .ambient (.ends c) => ∀ w, s.readers c = .reading w → s.closing w = true
  | .ambient (.fails c _ _) => ∀ w, s.readers c = .reading w → s.closing w = true
  | _ => True

/-- A task that has come to its end. -/
def Over (t : NetTask) : Prop := ∃ a, t.rest = .ret a

/-- The future waits no more. -/
def Arrived (s : Link) (ident : Nat) : Prop := (ident, .waiting) ∉ s.pending

/-- A call from which a `close()` takes nothing: it has yet to take the
lock, its answer is there, or it has ended. -/
def Clear (s : Link) : Station → Prop
  | .entering => True
  | .awaiting (.own _ _) _ ident => Arrived s ident
  | .ended _ => True
  | _ => False

/-- The task has come to its end. -/
def stationOver : Station → Bool
  | .ended _ => true
  | _ => false

/-- No `close()` begins where it takes something from a call, and no call
takes the lock before every `close()` has ended. -/
def Apart [Endpoint] (L : NetLoop) : Label Invocation NetAns ReaderStep → Prop
  | .invoke .close =>
      Vacant L.state ∨
        ∀ t ∈ L.tasks, t.origin ≠ .close → Clear L.state (t.journal spots).station
  | .resume _ ⟨.lock, .ok _⟩ =>
      ∀ t ∈ L.tasks, t.origin = .close → stationOver (t.journal spots).station = true
  | _ => True

/-- A friendly step that keeps calls and closes apart. -/
def Calm [Endpoint] (L : NetLoop) (l : Label Invocation NetAns ReaderStep) : Prop :=
  Friendly L.state l ∧ Apart L l

/-- An operation has come back with the cancellation of the task. -/
def strikes : Event NetAns → Bool
  | ⟨.lock, .error .cancelled⟩ => true
  | ⟨.socketExists, .error .cancelled⟩ => true
  | ⟨.openTransport, .error .cancelled⟩ => true
  | ⟨.send _ _, .error .cancelled⟩ => true
  | ⟨.awaitReply _, .error .cancelled⟩ => true
  | ⟨.closeTransport _, .error .cancelled⟩ => true
  | _ => false

/-- Every call that has come to its end, and has not been cancelled, has
returned the server's answer to its own request. -/
def Served (L : NetLoop) : Prop :=
  ∀ i t method params r, L.tasks[i]? = some t → t.origin = .call method params →
    t.rest = .ret (r, ()) → (∀ e ∈ t.history, strikes e = false) →
    ∃ value own, r = .ok value ∧ Delivered L.state.log i own value ∧
      Transmitted L.state.log i (.call method params) own

/-! ## §2. Who may find what. -/

/-- A connection in working order. -/
structure Fine (s : Link) (c : Conn) : Prop where
  ws : s.ws = some c
  reader : s.reader = some c
  closing : s.closing c = false
  cancelled : s.cancelled c = false
  alive : s.readers c = .created ∨ s.readers c = .reading c

/-- Nothing is connected, or a connection in working order. -/
def Rested (s : Link) : Prop := Vacant s ∨ ∃ c, Fine s c

/-- The reader has come to its end. -/
def Finished : Reader → Prop
  | .done _ => True
  | _ => False

/-- A future that waits, or has got a result. -/
def Hopeful : Future → Prop
  | .waiting => True
  | .resolved message => message.get? "error" = none ∧ (message.get? "result").isSome = true
  | .failed _ => False

/-- What a request has got: an answer with a result, or its own
cancellation. -/
def Got : Except PyExc Dict → Prop
  | .ok message => message.get? "error" = none ∧ (message.get? "result").isSome = true
  | .error e => e = .cancelledError

/-- Nothing is raised but a cancellation. -/
def Right {α : Type} (r : Except PyExc α) : Prop := ∀ e, r = .error e → e = .cancelledError

/-- A handshake fails by its cancellation only. -/
def Excused : Errand → Prop
  | .failed e => e = .cancelledError
  | _ => True

/-- Some future has this identifier. -/
def Enrolled (s : Link) (ident : Nat) : Prop := ∃ f, (ident, f) ∈ s.pending

/-- The connection has just been opened, and has no reader yet. -/
structure Fresh (s : Link) : Prop where
  positive : 0 < s.opened
  ws : s.ws = some (s.opened - 1)
  reader : s.reader = none
  closing : s.closing (s.opened - 1) = false
  cancelled : s.cancelled (s.opened - 1) = false

/-- The reader has been cancelled, and nothing is connected. -/
structure Joining (s : Link) (r : Conn) : Prop where
  ws : s.ws = none
  cancelled : s.cancelled r = true
  only : ∀ r', s.reader = some r' → r' = r

/-- The frame is on its way. -/
def Sending (s : Link) (i : Nat) (c : Conn) (frame : Frame) : Prop :=
  s.transit i = .queued c frame ∨ s.transit i = .sent ∧ .sent i c frame ∈ s.log

/-- What holds where a task runs. -/
def Goes (s : Link) (i : Nat) : Station → Prop
  | .entering => True
  | .entered => Rested s
  | .leaving (.ok _) => ∃ c, Fine s c
  | .leaving (.error e) => Vacant s ∧ e = .cancelledError
  | .shutting .alone => True
  | .shutting .room => Vacant s
  | .shutting (.failed e) => Rested s ∧ e = .cancelledError
  | .closing why k => k < s.opened ∧ Excused why
  | .clearing why _ => Excused why
  | .reading why _ => s.ws = none ∧ Excused why
  | .cancelling why _ r => s.ws = none ∧ s.reader = some r ∧ Excused why
  | .joining why r => Joining s r ∧ Excused why
  | .forgetting why => s.ws = none ∧ (∀ c, Finished (s.readers c)) ∧ Excused why
  | .checking => Vacant s
  | .opening => Vacant s
  | .starting => Fresh s
  | .informing c _ => Fine s c
  | .greeting c => Fine s c
  | .announcing c => Fine s c
  | .requesting _ => ∃ c, Fine s c
  | .registering _ c => Fine s c
  | .sending _ c ident => Fine s c ∧ Enrolled s ident
  | .awaiting q c ident =>
      Fine s c ∧ Enrolled s ident ∧ .sent i c (q.frame ident) ∈ s.log
  | .withdrawing q c _ got => (purposeLocked q = true → Fine s c) ∧ Got got
  | .ended r => Right r

/-- What holds where a task waits. -/
def Stays (s : Link) (i : Nat) : Station → Prop
  | .entering => True
  | .closing why _ => Excused why
  | .joining why r => Joining s r ∧ Excused why
  | .opening => Vacant s
  | .announcing c => Fine s c ∧ Sending s i c .initialized
  | .sending q c ident => Fine s c ∧ Enrolled s ident ∧ Sending s i c (q.frame ident)
  | .awaiting q c ident =>
      (Fine s c ∨ Clear s (.awaiting q c ident)) ∧ Enrolled s ident ∧
        .sent i c (q.frame ident) ∈ s.log
  | .ended r => Right r
  -- nothing else is awaited
  | _ => False

/-- What holds of one task. -/
structure Fares (s : Link) (running : Bool) (i : Nat) (p : Spot) : Prop where
  locked : stationLocked p.station = true → s.holder = some i
  shut : p.origin = .close → stationAlone p.station = true ∨ stationOver p.station = true
  vacant : running = true → p.origin = .close → stationOver p.station = true → Vacant s
  goes : running = true → Goes s i p.station
  stays : running = false → Stays s i p.station

/-- What holds of the state. -/
structure Sober (s : Link) : Prop where
  current : ∀ c, s.ws = some c → c + 1 = s.opened
  latest : ∀ r, s.reader = some r → r + 1 = s.opened
  unused : ∀ c, s.opened ≤ c → s.closing c = false ∧ s.cancelled c = false
  sole : ∀ c, ¬ Finished (s.readers c) → s.reader = some c
  own : ∀ c w, s.readers c = .reading w → w = c
  ends : ∀ c fault, s.readers c = .done (some fault) → fault = .cancelled
  hopeful : ∀ ident f, (ident, f) ∈ s.pending → Hopeful f

/-- The outline of the isolation. -/
def isolation : Outline Link Spot where
  Inv s _ := Sober s
  Agree s running i p := Fares s running i p

/-- In `_request` for the call's own sake, up to the answer. -/
def Flies (s : Link) : Station → Prop
  | .requesting (.own _ _) => True
  | .registering (.own _ _) _ => True
  | .sending (.own _ _) _ _ => True
  | .awaiting (.own _ _) _ ident => ¬ Arrived s ident
  | _ => False

/-- Whatever happens to the connection, the call is none the worse. -/
def Settled (s : Link) : Station → Prop
  | .withdrawing (.own _ _) _ _ _ => True
  | st => Clear s st

/-- Inside the lock, and closing, opening or in the handshake. -/
def stationChanges : Station → Bool
  | .entered => false
  | .leaving _ => false
  | st => stationLocked st

/-- Between `self._ws = None` and the reader's `cancel()`. -/
def stationClears : Station → Bool
  | .reading _ _ => true
  | .cancelling _ _ _ => true
  | _ => false

/-- A `close` that has not found anything. -/
def stationQuiet : Station → Bool
  | .shutting .alone => true
  | .reading .alone none => true
  | _ => false

section Between

variable [Endpoint]

/-- What holds between tasks. -/
structure Between (L : NetLoop) : Prop where
  modes : ∀ i j p q, L.Peers spots i p → L.Peers spots j q → p.origin = .close →
    q.origin ≠ .close → stationOver p.station = true ∨ Settled L.state q.station ∨
      L.running = some i ∧ Vacant L.state ∧ stationQuiet p.station = true
  flying : ∀ i j p q, L.Peers spots i p → L.Peers spots j q → Flies L.state p.station →
    stationChanges q.station = false
  rested : (∀ i p, L.Peers spots i p → p.origin = .close → stationOver p.station = true) →
    L.state.holder = none → Rested L.state
  linked : (∀ i p, L.running = some i → L.Peers spots i p → stationClears p.station = false) →
    ∀ r, L.state.reader = some r → L.state.ws = some r ∨ L.state.cancelled r = true
  held : ∀ i, L.state.holder = some i → ∃ p, L.Peers spots i p ∧ stationLocked p.station = true

/-- What is known of a loop as a whole. -/
structure Known (L : NetLoop) : Prop extends Between L where
  tallies : tally.Holds spots L

end Between

/-! ## §3. What other tasks leave alone. -/

section Frame

variable {s s' : Link} {i n : Nat} {st : Station} {p : Spot}

/-- The connection and its reader are left alone. -/
structure Same (s s' : Link) : Prop where
  ws : s'.ws = s.ws
  reader : s'.reader = s.reader
  closing : s'.closing = s.closing
  cancelled : s'.cancelled = s.cancelled
  readers : s'.readers = s.readers
  opened : s'.opened = s.opened
  log : ∃ es, s'.log = s.log ++ es

theorem Same.refl (s : Link) : Same s s :=
  ⟨rfl, rfl, rfl, rfl, rfl, rfl, [], (List.append_nil _).symm⟩

theorem Same.fine {c : Conn} (h : Same s s') (hfine : Fine s c) : Fine s' c where
  ws := h.ws.trans hfine.ws
  reader := h.reader.trans hfine.reader
  closing := by
    rw [h.closing]
    exact hfine.closing
  cancelled := by
    rw [h.cancelled]
    exact hfine.cancelled
  alive := by
    rw [h.readers]
    exact hfine.alive

theorem Same.vacant (h : Same s s') (hvacant : Vacant s) : Vacant s' :=
  ⟨h.ws.trans hvacant.1, h.reader.trans hvacant.2⟩

theorem Same.rested (h : Same s s') (hrested : Rested s) : Rested s' := by
  rcases hrested with hvacant | ⟨c, hfine⟩
  · exact .inl (h.vacant hvacant)
  · exact .inr ⟨c, h.fine hfine⟩

theorem Same.joining {r : Conn} (h : Same s s') (hjoin : Joining s r) : Joining s' r where
  ws := h.ws.trans hjoin.ws
  cancelled := by
    rw [h.cancelled]
    exact hjoin.cancelled
  only := by
    rw [h.reader]
    exact hjoin.only

theorem Same.sober (h : Same s s') (hinv : Sober s)
    (hpending : ∀ ident f, (ident, f) ∈ s'.pending → Hopeful f) : Sober s' where
  current := by
    rw [h.ws, h.opened]
    exact hinv.current
  latest := by
    rw [h.reader, h.opened]
    exact hinv.latest
  unused := by
    rw [h.opened, h.closing, h.cancelled]
    exact hinv.unused
  sole := by
    rw [h.readers, h.reader]
    exact hinv.sole
  own := by
    rw [h.readers]
    exact hinv.own
  ends := by
    rw [h.readers]
    exact hinv.ends
  hopeful := hpending

/-- What is known of the connection lasts. -/
structure Lasting (s s' : Link) : Prop where
  fine : ∀ c, Fine s c → Fine s' c
  vacant : Vacant s → Vacant s'
  joining : ∀ r, Joining s r → Joining s' r
  log : ∃ es, s'.log = s.log ++ es

theorem Same.lasting (h : Same s s') : Lasting s s' :=
  ⟨fun _ => h.fine, h.vacant, fun _ => h.joining, h.log⟩

theorem Lasting.logged {e : Entry} (h : Lasting s s') (he : e ∈ s.log) : e ∈ s'.log := by
  obtain ⟨es, hes⟩ := h.log
  rw [hes]
  exact List.mem_append_left es he

theorem Lasting.sending {c : Conn} {frame : Frame} (h : Lasting s s')
    (htransit : s'.transit i = s.transit i) (hsending : Sending s i c frame) :
    Sending s' i c frame := by
  unfold Sending
  rw [htransit]
  exact hsending.imp_right fun hsent => ⟨hsent.1, h.logged hsent.2⟩

/-- What is known of an identifier lasts. -/
structure Retains (s s' : Link) (ident : Nat) : Prop where
  enrolled : Enrolled s ident → Enrolled s' ident
  arrived : Arrived s ident → Arrived s' ident

theorem Retains.of_eq {ident : Nat} (h : s'.pending = s.pending) : Retains s s' ident := by
  refine ⟨?_, ?_⟩
  · unfold Enrolled
    rw [h]
    exact id
  · unfold Arrived
    rw [h]
    exact id

/-- A task that waits keeps what it knows. -/
theorem Lasting.stays (h : Lasting s s') (htransit : s'.transit i = s.transit i)
    (hretains : ∀ ident, st.ident = some ident → Retains s s' ident)
    (hw : Stays s i st) : Stays s' i st := by
  cases st with
  | entering => exact trivial
  | closing why k => exact hw
  | joining why r => exact ⟨h.joining r hw.1, hw.2⟩
  | opening => exact h.vacant hw
  | announcing c => exact ⟨h.fine c hw.1, h.sending htransit hw.2⟩
  | sending q c ident =>
      exact ⟨h.fine c hw.1, (hretains ident rfl).enrolled hw.2.1, h.sending htransit hw.2.2⟩
  | awaiting q c ident =>
      refine ⟨hw.1.imp (h.fine c) fun hclear => ?_, (hretains ident rfl).enrolled hw.2.1,
        h.logged hw.2.2⟩
      cases q with
      | handshake => exact hclear
      | own method params => exact (hretains ident rfl).arrived hclear
  | ended r => exact hw
  | _ => exact hw

/-- A task that runs on. -/
theorem Fares.go {running : Bool} {o : Invocation} {st st' : Station}
    (h : Fares s running i ⟨o, st⟩) (hholder : s'.holder = s.holder)
    (hlocked : stationLocked st' = true → stationLocked st = true)
    (hshut : stationAlone st = true → stationAlone st' = true ∨ stationOver st' = true)
    (hover : stationOver st = false)
    (hvacant : stationAlone st = true → stationOver st' = true → Vacant s')
    (hgoes : Goes s' i st') : Fares s' true i ⟨o, st'⟩ where
  locked := fun hl => hholder.trans (h.locked (hlocked hl))
  shut := by
    intro ho
    rcases h.shut ho with halone | hended
    · exact hshut halone
    · exact absurd (hover.symm.trans hended) nofun
  vacant := by
    intro _ ho hended
    rcases h.shut ho with halone | hold
    · exact hvacant halone hended
    · exact absurd (hover.symm.trans hold) nofun
  goes := fun _ => hgoes
  stays := nofun

/-- A call that runs on. -/
theorem Fares.call {running : Bool} {o : Invocation} {st st' : Station}
    (h : Fares s running i ⟨o, st⟩) (hnot : stationAlone st = false)
    (hover : stationOver st = false) (hholder : s'.holder = s.holder)
    (hlocked : stationLocked st' = true → stationLocked st = true) (hgoes : Goes s' i st') :
    Fares s' true i ⟨o, st'⟩ :=
  h.go hholder hlocked (fun halone => absurd (hnot.symm.trans halone) nofun) hover
    (fun halone => absurd (hnot.symm.trans halone) nofun) hgoes

/-- A `close` that goes on. -/
theorem Fares.shutting {running : Bool} {o : Invocation} {st st' : Station}
    (h : Fares s running i ⟨o, st⟩) (halone : stationAlone st' = stationAlone st)
    (hlocked : stationLocked st' = stationLocked st) (hover : stationOver st = false)
    (hover' : stationOver st' = false) (hholder : s'.holder = s.holder) (hgoes : Goes s' i st') :
    Fares s' true i ⟨o, st'⟩ :=
  h.go hholder (fun hl => hlocked ▸ hl) (fun hold => .inl (halone.trans hold)) hover
    (fun _ hended => absurd (hover'.symm.trans hended) nofun) hgoes

/-- A `close` that has nothing more to do. -/
theorem Fares.closed {running : Bool} {o : Invocation} {st : Station} {why : Errand}
    (h : Fares s running i ⟨o, st⟩) (halone : stationAlone st = errandAlone why)
    (hlocked : stationLocked st = !errandAlone why) (hover : stationOver st = false)
    (hholder : s'.holder = s.holder) (hvacant : Vacant s') (hexcused : Excused why) :
    Fares s' true i ⟨o, Station.closed why (.ok ())⟩ := by
  cases why with
  | alone => exact h.go hholder nofun (fun _ => .inr rfl) hover (fun _ _ => hvacant) nofun
  | room => exact h.call halone hover hholder (fun _ => hlocked) hvacant
  | failed e => exact h.call halone hover hholder (fun _ => hlocked) ⟨hvacant, hexcused⟩

/-- A task that begins to wait, or waits on. -/
theorem Fares.wait {running : Bool} {o : Invocation} {st : Station}
    (h : Fares s running i ⟨o, st⟩) (hholder : s'.holder = s.holder) (hstays : Stays s' i st) :
    Fares s' false i ⟨o, st⟩ where
  locked := fun hl => hholder.trans (h.locked hl)
  shut := h.shut
  vacant := nofun
  goes := nofun
  stays := fun _ => hstays

end Frame

section Apart

variable [Endpoint] {L : NetLoop} {s' : Link} {i j n : Nat} {p q : Spot}

/-- The tasks whose steps may change the connection. -/
def stationDisturbs (st : Station) : Bool := stationChanges st || stationAlone st

omit [Endpoint] in
/-- A station that changes the connection is in the lock, and is no end of
a `close`. -/
theorem locked_of_changes {st : Station} (h : stationChanges st = true) :
    stationLocked st = true ∧ stationAlone st = false ∧ stationOver st = false := by
  cases st with
  | entered => cases h
  | leaving r => cases h
  | entering => cases h
  | ended r => cases h
  | checking => exact ⟨rfl, rfl, rfl⟩
  | opening => exact ⟨rfl, rfl, rfl⟩
  | starting => exact ⟨rfl, rfl, rfl⟩
  | informing c info => exact ⟨rfl, rfl, rfl⟩
  | greeting c => exact ⟨rfl, rfl, rfl⟩
  | announcing c => exact ⟨rfl, rfl, rfl⟩
  | requesting q => exact ⟨h, rfl, rfl⟩
  | registering q c => exact ⟨h, rfl, rfl⟩
  | sending q c ident => exact ⟨h, rfl, rfl⟩
  | awaiting q c ident => exact ⟨h, rfl, rfl⟩
  | withdrawing q c ident got => exact ⟨h, rfl, rfl⟩
  | _ =>
      refine ⟨h, ?_, rfl⟩
      simpa [stationChanges, stationLocked, stationAlone] using h

omit [Endpoint] in
theorem not_over_of_alone {st : Station} (h : stationAlone st = true) : stationOver st = false := by
  cases st <;> first | rfl | cases h

omit [Endpoint] in
theorem not_locked_of_alone {st : Station} (h : stationAlone st = true) :
    stationLocked st = false ∧ ∀ s, ¬ Flies s st := by
  cases st with
  | shutting why => exact ⟨by simpa [stationLocked, stationAlone] using h, fun _ => id⟩
  | closing why k => exact ⟨by simpa [stationLocked, stationAlone] using h, fun _ => id⟩
  | clearing why k => exact ⟨by simpa [stationLocked, stationAlone] using h, fun _ => id⟩
  | reading why w => exact ⟨by simpa [stationLocked, stationAlone] using h, fun _ => id⟩
  | cancelling why w r => exact ⟨by simpa [stationLocked, stationAlone] using h, fun _ => id⟩
  | joining why r => exact ⟨by simpa [stationLocked, stationAlone] using h, fun _ => id⟩
  | forgetting why => exact ⟨by simpa [stationLocked, stationAlone] using h, fun _ => id⟩
  | _ => cases h

omit [Endpoint] in
/-- A call that is settled is neither in the lock nor in flight. -/
theorem Settled.not_locked {s : Link} {st : Station} (h : Settled s st) :
    stationLocked st = false ∧ ¬ Flies s st := by
  cases st with
  | entering => exact ⟨rfl, id⟩
  | ended r => exact ⟨rfl, id⟩
  | awaiting q c ident =>
      cases q with
      | handshake => exact absurd h id
      | own method params => exact ⟨rfl, fun hflies => hflies h⟩
  | withdrawing q c ident got =>
      cases q with
      | handshake => exact absurd h id
      | own method params => exact ⟨rfl, id⟩
  | _ => exact absurd h id

/-- A call under way next to a `close` that has found something. -/
theorem Known.apart (hK : Known L) (hp : L.Peers spots i p) (hq : L.Peers spots j q)
    (halone : stationAlone p.station = true) (hother : stationAlone q.station = false)
    (hover : stationOver q.station = false)
    (hshut : q.origin = .close → stationAlone q.station = true ∨ stationOver q.station = true)
    (hbusy : L.running = some i → stationQuiet p.station = false) :
    Settled L.state q.station := by
  obtain ⟨t, ht, rfl⟩ := hp
  have htally : Tallies _ _ _ _ i (t.journal spots) := hK.tallies.agrees i t ht
  have hclose : q.origin ≠ .close := by
    intro ho
    rcases hshut ho with h | h
    · exact absurd (hother.symm.trans h) nofun
    · exact absurd (hover.symm.trans h) nofun
  rcases hK.modes i j _ q ⟨t, ht, rfl⟩ hq (htally.alone halone) hclose with h | h | ⟨hrun, -, h⟩
  · exact absurd ((not_over_of_alone halone).symm.trans h) nofun
  · exact h
  · exact absurd ((hbusy hrun).symm.trans h) nofun

/-- Next to a task that may change the connection, nobody is in the lock or
in flight; and next to a `connect`, nobody closes. -/
theorem Known.disjoint {running : Bool} (hK : Known L) (hp : L.Peers spots i p)
    (hq : L.Peers spots j q) (h : Fares L.state running i p) (h' : Fares L.state false j q)
    (hne : j ≠ i) (hd : stationDisturbs p.station = true) (hbusy : stationQuiet p.station = false)
    (hj : L.running ≠ some j) (hover : stationOver q.station = false) :
    stationLocked q.station = false ∧ ¬ Flies L.state q.station ∧
      (stationAlone q.station = true → stationAlone p.station = true) := by
  rcases Bool.or_eq_true_iff.mp hd with hchanges | halone
  · obtain ⟨hlocked, hnot, hpover⟩ := locked_of_changes hchanges
    refine ⟨?_, fun hf => ?_, fun hqalone => ?_⟩
    · rw [Bool.eq_false_iff]
      intro hl
      exact hne (Option.some.inj ((h'.locked hl).symm.trans (h.locked hlocked)))
    · exact absurd (hchanges.symm.trans (hK.flying j i q p hq hp hf)) nofun
    · have hsettled := hK.apart hq hp hqalone hnot hpover h.shut fun hrun => absurd hrun hj
      exact absurd (hsettled.not_locked.1.symm.trans hlocked) nofun
  · by_cases hqalone : stationAlone q.station = true
    · obtain ⟨hlocked, hflies⟩ := not_locked_of_alone hqalone
      exact ⟨hlocked, hflies L.state, fun _ => halone⟩
    · have hsettled := hK.apart hp hq halone (Bool.eq_false_iff.mpr hqalone) hover h'.shut
        fun _ => hbusy
      exact ⟨hsettled.not_locked.1, hsettled.not_locked.2, fun h => absurd h hqalone⟩

/-- What a step keeps that leaves the connection alone. -/
theorem isolation_beside {running : Bool} (hinv : Sober s') (hown : Fares s' running i p)
    (hsame : Same L.state s') (htransit : ∀ i', i' ≠ i → s'.transit i' = L.state.transit i')
    (hretains : ∀ i' q, i' ≠ i → L.Peers spots i' q → ∀ ident, q.station.ident = some ident →
      Retains L.state s' ident)
    (hholder : ∀ i' q, i' ≠ i → Fares L.state false i' q → stationLocked q.station = true →
      s'.holder = L.state.holder) :
    Outline.Keeps (L.Peers spots) isolation L.state s' n i running p := by
  refine ⟨hinv, hown, fun i' q hne hq h => ?_⟩
  have h : Fares L.state false i' q := h
  refine ⟨fun hl => ?_, h.shut, nofun, nofun, fun _ => ?_⟩
  · rw [hholder i' q hne h hl]
    exact h.locked hl
  · exact hsame.lasting.stays (htransit i' hne) (hretains i' q hne hq) (h.stays rfl)

/-- What a step keeps that only moves the task's own frame on. -/
theorem isolation_transit {running : Bool} {transit : Transit} (hinv : Sober L.state)
    (hown : Fares s' running i p) (hsame : Same L.state s')
    (htransit : s'.transit = Function.update L.state.transit i transit)
    (hpending : s'.pending = L.state.pending) (hholder : s'.holder = L.state.holder) :
    Outline.Keeps (L.Peers spots) isolation L.state s' n i running p := by
  have hopeful : ∀ ident f, (ident, f) ∈ s'.pending → Hopeful f := by
    rw [hpending]
    exact hinv.hopeful
  refine isolation_beside (hsame.sober hinv hopeful) hown hsame ?_ ?_ ?_
  · intro i' hne
    rw [htransit]
    exact Function.update_of_ne hne ..
  · intro _ _ _ _ _ _
    exact .of_eq hpending
  · intro _ _ _ _ _
    exact hholder

/-- What a step keeps that may change the connection. -/
theorem isolation_apart {running running' : Bool} {p' : Spot} (hK : Known L)
    (hp : L.Peers spots i p) (h : Fares L.state running i p)
    (hrun : ∀ j, j ≠ i → L.running ≠ some j)
    (hd : stationDisturbs p.station = true) (hbusy : stationQuiet p.station = false)
    (hinv : Sober s') (hown : Fares s' running' i p') (hholder : s'.holder = L.state.holder)
    (hpending : s'.pending = L.state.pending) (hlog : s'.log = L.state.log)
    (halone : stationAlone p.station = true → (s'.ws = L.state.ws ∨ s'.ws = none) ∧
      (s'.reader = L.state.reader ∨ s'.reader = none) ∧
      ∀ c, L.state.cancelled c = true → s'.cancelled c = true) :
    Outline.Keeps (L.Peers spots) isolation L.state s' n i running' p' := by
  refine ⟨hinv, hown, fun i' q hne hq h' => ?_⟩
  have h' : Fares L.state false i' q := h'
  refine ⟨fun hl => hholder.trans (h'.locked hl), h'.shut, fun hr => absurd hr Bool.false_ne_true,
    fun hr => absurd hr Bool.false_ne_true, fun _ => ?_⟩
  have hw := h'.stays rfl
  by_cases hover : stationOver q.station = true
  · obtain ⟨o, st⟩ := q
    cases st with
    | ended r => exact hw
    | _ => cases hover
  · obtain ⟨hlocked, hflies, hboth⟩ :=
      hK.disjoint hp hq h h' hne hd hbusy (hrun i' hne) (Bool.eq_false_iff.mpr hover)
    obtain ⟨o, st⟩ := q
    cases st with
    | entering => exact trivial
    | closing why k => exact hw
    | joining why r =>
        -- another `close`, next to a `close`
        have hqalone : stationAlone (.joining why r) = true := by
          simpa [stationLocked, stationAlone] using hlocked
        obtain ⟨hws, hread, hcancelled⟩ := halone (hboth hqalone)
        refine ⟨⟨none_guarded hw.1.ws hws, hcancelled r hw.1.cancelled, fun r' hr' => ?_⟩, hw.2⟩
        rcases hread with heq | hnone
        · exact hw.1.only r' (heq.symm.trans hr')
        · cases hnone.symm.trans hr'
    | opening => cases hlocked
    | announcing c => cases hlocked
    | sending q c ident =>
        cases q with
        | handshake => cases hlocked
        | own method params => exact absurd trivial hflies
    | awaiting q c ident =>
        cases q with
        | handshake => cases hlocked
        | own method params =>
            -- the answer is there
            have hretains : Retains L.state s' ident := .of_eq hpending
            refine ⟨.inr (hretains.arrived (not_not.mp hflies)), hretains.enrolled hw.2.1, ?_⟩
            rw [hlog]
            exact hw.2.2
    | _ => exact hw

end Apart

/-! ## §4. Every step keeps the isolation. -/

section Steps

variable {s s' : Link}

/-- The reader is alive where the connection is in working order, and not
where nothing is connected. -/
theorem alive_of_fine {c : Conn} (h : Fine s c) : s.alive = true := by
  unfold alive
  rw [h.reader]
  dsimp only
  rcases h.alive with hcreated | hreading
  · rw [hcreated]
  · rw [hreading]

theorem not_alive_of_vacant (h : Vacant s) : s.alive = false := by
  unfold alive
  rw [h.2]

/-- What `reply` makes of a result. -/
theorem reply_of_got (method : String) {message : Dict} (h : Got (.ok message)) :
    ∃ value, AppServer.reply method message = .ok value := by
  obtain ⟨herror, hresult⟩ := h
  obtain ⟨value, hvalue⟩ := Option.isSome_iff_exists.mp hresult
  refine ⟨value, ?_⟩
  unfold AppServer.reply
  rw [herror, hvalue]

/-- A `close` changes the connection, in the lock or outside. -/
theorem disturbs_of_closing (why : Errand) : (!errandAlone why || errandAlone why) = true := by
  cases why <;> rfl

/-- Whoever else has an identifier has another one. -/
theorem other_ident [Endpoint] {L : NetLoop} {i j ident : Nat} {p q : Spot} (hK : Known L)
    (hp : L.Peers spots i p) (hq : L.Peers spots j q) (hne : j ≠ i)
    (hi : p.station.ident = some ident) : q.station.ident ≠ some ident := by
  intro hj
  obtain ⟨t, ht, rfl⟩ := hp
  obtain ⟨u, hu, rfl⟩ := hq
  have htally : Tallies _ _ _ _ i (t.journal spots) := hK.tallies.agrees i t ht
  have hother : Tallies _ _ _ _ j (u.journal spots) := hK.tallies.agrees j u hu
  have hinv : Ordered L.state.log L.state.pending L.state.counter L.tasks.length :=
    hK.tallies.inv
  exact hne (hinv.owner j i ident (hother.registered ident hj) (htally.registered ident hi))

/-- An identifier that is in use has been counted. -/
theorem ident_le [Endpoint] {L : NetLoop} {j ident : Nat} {q : Spot} (hK : Known L)
    (hq : L.Peers spots j q) (hident : q.station.ident = some ident) :
    ident ≤ L.state.counter := by
  obtain ⟨u, hu, rfl⟩ := hq
  have htally : Tallies _ _ _ _ j (u.journal spots) := hK.tallies.agrees j u hu
  have hinv : Ordered L.state.log L.state.pending L.state.counter L.tasks.length :=
    hK.tallies.inv
  exact (hinv.below j ident (htally.registered ident hident)).2

section Act

variable [Endpoint] {L : NetLoop} {i n : Nat} {t : NetTask}

/-- What the task keeps with an operation that takes the link to `s'`. -/
abbrev KeepsActing (L : NetLoop) (i n : Nat) (p : Spot) (e : Event NetAns) (s' : Link) : Prop :=
  Outline.Keeps (L.Peers spots) isolation L.state s' n i true (spots.note p e)

variable {o : Invocation} {st : Station}

/-- The link is as before. -/
theorem isolation_still (hinv : Sober L.state) (hown : Fares L.state true i p) :
    Outline.Keeps (L.Peers spots) isolation L.state L.state n i true p :=
  isolation_beside hinv hown (.refl L.state) (fun _ _ => rfl) (fun _ _ _ _ _ _ => .of_eq rfl)
    fun _ _ _ _ _ => rfl

omit [Endpoint] in
theorem first_of_running (hrun : L.running = some i) : ∀ j, j ≠ i → L.running ≠ some j :=
  fun _ hne hj => hne (Option.some.inj (hj.symm.trans hrun))

/-- Leaving the lock lets nobody in who is out. -/
theorem isolation_unlock (hinv : Sober L.state) (h : Fares L.state true i ⟨o, st⟩)
    (hop : st.op = some .unlock) :
    KeepsActing L i n ⟨o, st⟩ ⟨.unlock, ()⟩ { L.state with holder := none } := by
  have hr := h.goes rfl
  cases st with
  | leaving r =>
      have hsame : Same L.state { L.state with holder := none } :=
        ⟨rfl, rfl, rfl, rfl, rfl, rfl, [], (List.append_nil _).symm⟩
      refine isolation_beside (hsame.sober hinv hinv.hopeful) ?_ hsame (fun _ _ => rfl)
        (fun _ _ _ _ _ _ => .of_eq rfl) fun i' q hne h' hl => ?_
      · have hout : ∀ st', stationLocked st' = false →
            Goes { L.state with holder := none } i st' →
            Fares { L.state with holder := none } true i ⟨o, st'⟩ := by
          intro st' hl hgoes
          refine ⟨fun hl' => absurd (hl.symm.trans hl') nofun, fun ho => ?_, fun _ ho => ?_,
            fun _ => hgoes, nofun⟩
          · rcases h.shut ho with halone | hover
            · cases halone
            · cases hover
          · rcases h.shut ho with halone | hover
            · cases halone
            · cases hover
        cases r with
        | error e =>
            obtain ⟨-, rfl⟩ : Vacant L.state ∧ e = .cancelledError := hr
            cases o <;> exact hout _ rfl fun e he => (Except.error.inj he).symm
        | ok u =>
            obtain ⟨c, hfine⟩ : ∃ c, Fine L.state c := hr
            cases o with
            | call method params => exact hout _ rfl ⟨c, hsame.fine hfine⟩
            | connect => exact hout _ rfl nofun
            | close => exact hout _ rfl nofun
      · exact absurd (Option.some.inj ((h'.locked hl).symm.trans (h.locked rfl))) hne
  | _ => cases hop

theorem isolation_readerAlive (hinv : Sober L.state) (h : Fares L.state true i ⟨o, st⟩)
    (hop : st.op = some .readerAlive) :
    KeepsActing L i n ⟨o, st⟩ ⟨.readerAlive, L.state.alive⟩ L.state := by
  have hr := h.goes rfl
  cases st with
  | entered =>
      refine isolation_still hinv ?_
      show Fares L.state true i ⟨o, Station.next o .entered ⟨.readerAlive, L.state.alive⟩⟩
      rcases hr with hvacant | ⟨c, hfine⟩
      · rw [not_alive_of_vacant hvacant]
        exact h.call rfl rfl rfl (fun _ => rfl) hvacant
      · rw [alive_of_fine hfine]
        exact h.call rfl rfl rfl (fun _ => rfl) ⟨c, hfine⟩
  | _ => cases hop

/-- A reader is started for a connection that had none. -/
theorem isolation_startReader (hK : Known L) (hpeer : L.Peers spots i ⟨o, st⟩)
    (hrun : L.running = some i) (hinv : Sober L.state) (h : Fares L.state true i ⟨o, st⟩)
    (hop : st.op = some .startReader) :
    KeepsActing L i n ⟨o, st⟩ ⟨.startReader, ()⟩
      { L.state with
        reader := some (L.state.opened - 1)
        readers := Function.update L.state.readers (L.state.opened - 1) .created } := by
  have hr := h.goes rfl
  cases st with
  | starting =>
      have hfresh : Fresh L.state := hr
      have hpred : L.state.opened - 1 + 1 = L.state.opened :=
        Nat.succ_pred_eq_of_pos hfresh.positive
      -- there was no other reader
      have hnone : ∀ c, Finished (L.state.readers c) := by
        intro c
        by_contra halive
        exact absurd (hfresh.reader.symm.trans (hinv.sole c halive)) nofun
      have hupdate : ∀ c raised, c ≠ L.state.opened - 1 →
          Function.update L.state.readers (L.state.opened - 1) .created c = raised →
          L.state.readers c = raised := by
        intro c raised hne heq
        rwa [Function.update_of_ne hne] at heq
      refine isolation_apart hK hpeer h (first_of_running hrun) rfl rfl ?_ ?_ rfl rfl rfl nofun
      · refine
          { current := hinv.current
            latest := fun r hread => ?_
            unused := hinv.unused
            sole := fun c halive => ?_
            own := fun c w hreading => ?_
            ends := fun c fault hdone => ?_
            hopeful := hinv.hopeful }
        · obtain rfl := Option.some.inj hread
          exact hpred
        · by_cases hc : c = L.state.opened - 1
          · rw [hc]
          · have hold := hnone c
            rw [← Function.update_of_ne hc Reader.created L.state.readers] at hold
            exact absurd hold halive
        · by_cases hc : c = L.state.opened - 1
          · subst hc
            exact absurd ((Function.update_self ..).symm.trans hreading) nofun
          · exact hinv.own c w (hupdate c _ hc hreading)
        · by_cases hc : c = L.state.opened - 1
          · subst hc
            exact absurd ((Function.update_self ..).symm.trans hdone) nofun
          · exact hinv.ends c fault (hupdate c _ hc hdone)
      · exact h.call rfl rfl rfl (fun _ => rfl) ⟨L.state.opened - 1, hfresh.ws, rfl,
          hfresh.closing, hfresh.cancelled, .inl (Function.update_self ..)⟩
  | _ => cases hop

theorem isolation_ws (hinv : Sober L.state) (h : Fares L.state true i ⟨o, st⟩)
    (hop : st.op = some .ws) :
    KeepsActing L i n ⟨o, st⟩ ⟨.ws, L.state.ws⟩ L.state := by
  have hr := h.goes rfl
  cases st with
  | shutting why =>
      refine isolation_still hinv ?_
      show Fares L.state true i ⟨o, Station.next o (.shutting why) ⟨.ws, L.state.ws⟩⟩
      have hexcused : Excused why := by
        cases why with
        | failed e => exact hr.2
        | _ => exact trivial
      cases hws : L.state.ws with
      | some k =>
          exact h.shutting rfl rfl rfl rfl rfl
            ⟨Nat.lt_of_succ_le (hinv.current k hws).le, hexcused⟩
      | none => exact h.shutting rfl rfl rfl rfl rfl ⟨hws, hexcused⟩
  | greeting c =>
      have hfine : Fine L.state c := hr
      refine isolation_still hinv ?_
      show Fares L.state true i ⟨o, Station.next o (.greeting c) ⟨.ws, L.state.ws⟩⟩
      rw [hfine.ws]
      exact h.call rfl rfl rfl (fun _ => rfl) hfine
  | requesting q =>
      obtain ⟨c, hfine⟩ : ∃ c, Fine L.state c := hr
      refine isolation_still hinv ?_
      show Fares L.state true i ⟨o, Station.next o (.requesting q) ⟨.ws, L.state.ws⟩⟩
      rw [hfine.ws]
      exact h.call rfl rfl rfl (fun hl => hl) hfine
  | _ => cases hop

/-- A new identifier is nobody else's. -/
theorem isolation_register (hK : Known L) (hinv : Sober L.state)
    (h : Fares L.state true i ⟨o, st⟩) (hop : st.op = some .register) :
    KeepsActing L i n ⟨o, st⟩ ⟨.register, L.state.counter + 1⟩
      { L.state with
        counter := L.state.counter + 1
        pending := L.state.pending ++ [(L.state.counter + 1, .waiting)]
        log := L.state.log ++ [.registered i (L.state.counter + 1)] } := by
  have hr := h.goes rfl
  cases st with
  | registering q c =>
      have hsame : Same L.state
          { L.state with
            counter := L.state.counter + 1
            pending := L.state.pending ++ [(L.state.counter + 1, .waiting)]
            log := L.state.log ++ [.registered i (L.state.counter + 1)] } :=
        ⟨rfl, rfl, rfl, rfl, rfl, rfl, _, rfl⟩
      refine isolation_beside (hsame.sober hinv fun m f hmem => ?_) ?_ hsame (fun _ _ => rfl)
        (fun _ _ _ hq m hm => ⟨fun hold => ?_, fun hold hmem => ?_⟩) fun _ _ _ _ _ => rfl
      · rcases List.mem_append.mp hmem with hold | hlast
        · exact hinv.hopeful m f hold
        · cases List.mem_singleton.mp hlast
          exact trivial
      · exact h.call rfl rfl rfl (fun hl => hl)
          ⟨hsame.fine hr, .waiting, List.mem_append_right _ List.mem_cons_self⟩
      · obtain ⟨f, hf⟩ := hold
        exact ⟨f, List.mem_append_left _ hf⟩
      · rcases List.mem_append.mp hmem with hfirst | hlast
        · exact hold hfirst
        · cases List.mem_singleton.mp hlast
          exact absurd (ident_le hK hq hm) (Nat.not_succ_le_self _)
  | _ => cases hop

/-- Nor does another lose one with it. -/
theorem isolation_unregister {ident : Nat} (hK : Known L) (hpeer : L.Peers spots i ⟨o, st⟩)
    (hinv : Sober L.state) (h : Fares L.state true i ⟨o, st⟩)
    (hop : st.op = some (.unregister ident)) :
    KeepsActing L i n ⟨o, st⟩ ⟨.unregister ident, ()⟩
      { L.state with
        pending := L.state.pending.filter fun p => p.1 ≠ ident
        log := L.state.log ++ [.unregistered ident] } := by
  have hr := h.goes rfl
  cases st with
  | withdrawing q c ident' got =>
      cases hop
      obtain ⟨hfine, hgot⟩ : (purposeLocked q = true → Fine L.state c) ∧ Got got := hr
      have hsame : Same L.state
          { L.state with
            pending := L.state.pending.filter fun p => p.1 ≠ ident
            log := L.state.log ++ [.unregistered ident] } :=
        ⟨rfl, rfl, rfl, rfl, rfl, rfl, _, rfl⟩
      refine isolation_beside
        (hsame.sober hinv fun m f hmem => hinv.hopeful m f (List.mem_filter.mp hmem).1) ?_
        hsame (fun _ _ => rfl) (fun j q' hne hq m hm => ⟨fun hold => ?_, fun hold hmem =>
          hold (List.mem_filter.mp hmem).1⟩) fun _ _ _ _ _ => rfl
      · show Fares _ true i ⟨o, Station.replied c q
          (got.bind fun message => AppServer.reply q.method message)⟩
        cases got with
        | error e =>
            obtain rfl : e = .cancelledError := hgot
            cases q with
            | handshake =>
                exact h.call rfl rfl rfl (fun _ => rfl)
                  ⟨.inr ⟨c, hsame.fine (hfine rfl)⟩, rfl⟩
            | own method params =>
                exact h.call rfl rfl rfl nofun fun e he => (Except.error.inj he).symm
        | ok message =>
            obtain ⟨value, hvalue⟩ := reply_of_got q.method hgot
            rw [show Except.bind (Except.ok message) (fun message =>
              AppServer.reply q.method message) = .ok value from hvalue]
            cases q with
            | handshake => exact h.call rfl rfl rfl (fun _ => rfl) (hsame.fine (hfine rfl))
            | own method params => exact h.call rfl rfl rfl nofun nofun
      · obtain ⟨f, hf⟩ := hold
        refine ⟨f, List.mem_filter.mpr ⟨hf, ?_⟩⟩
        have hdiff : m ≠ ident := by
          rintro rfl
          exact other_ident hK hpeer hq hne rfl hm
        simpa using hdiff
  | _ => cases hop

theorem isolation_setInfo {info : Json} (hinv : Sober L.state) (h : Fares L.state true i ⟨o, st⟩)
    (hop : st.op = some (.setInfo info)) :
    KeepsActing L i n ⟨o, st⟩ ⟨.setInfo info, ()⟩ { L.state with info := info } := by
  have hr := h.goes rfl
  cases st with
  | informing c info' =>
      have hsame : Same L.state { L.state with info := info } :=
        ⟨rfl, rfl, rfl, rfl, rfl, rfl, [], (List.append_nil _).symm⟩
      exact isolation_beside (hsame.sober hinv hinv.hopeful)
        (h.call rfl rfl rfl (fun _ => rfl) (hsame.fine hr)) hsame (fun _ _ => rfl)
        (fun _ _ _ _ _ _ => .of_eq rfl) fun _ _ _ _ _ => rfl
  | _ => cases hop

theorem isolation_clearWs (hK : Known L) (hpeer : L.Peers spots i ⟨o, st⟩)
    (hrun : L.running = some i) (hinv : Sober L.state) (h : Fares L.state true i ⟨o, st⟩)
    (hop : st.op = some .clearWs) :
    KeepsActing L i n ⟨o, st⟩ ⟨.clearWs, ()⟩ { L.state with ws := none } := by
  have hr := h.goes rfl
  cases st with
  | clearing why c =>
      refine isolation_apart hK hpeer h (first_of_running hrun) (disturbs_of_closing why) rfl ?_
        (h.shutting rfl rfl rfl rfl rfl ⟨rfl, hr⟩) rfl rfl rfl fun _ =>
          ⟨.inr rfl, .inl rfl, fun _ hc => hc⟩
      exact
        { current := nofun
          latest := hinv.latest
          unused := hinv.unused
          sole := hinv.sole
          own := hinv.own
          ends := hinv.ends
          hopeful := hinv.hopeful }
  | _ => cases hop

theorem isolation_reader (hinv : Sober L.state) (h : Fares L.state true i ⟨o, st⟩)
    (hop : st.op = some .reader) :
    KeepsActing L i n ⟨o, st⟩ ⟨.reader, L.state.reader⟩ L.state := by
  have hr := h.goes rfl
  cases st with
  | reading why w =>
      obtain ⟨hnone, hexcused⟩ : L.state.ws = none ∧ Excused why := hr
      refine isolation_still hinv ?_
      show Fares L.state true i ⟨o, Station.next o (.reading why w) ⟨.reader, L.state.reader⟩⟩
      cases hread : L.state.reader with
      | some r => exact h.shutting rfl rfl rfl rfl rfl ⟨hnone, hread, hexcused⟩
      | none => exact h.closed rfl rfl rfl rfl ⟨hnone, hread⟩ hexcused
  | _ => cases hop

theorem isolation_cancelReader {r : Conn} (hK : Known L) (hpeer : L.Peers spots i ⟨o, st⟩)
    (hrun : L.running = some i) (hinv : Sober L.state) (h : Fares L.state true i ⟨o, st⟩)
    (hop : st.op = some (.cancelReader r)) :
    KeepsActing L i n ⟨o, st⟩ ⟨.cancelReader r, ()⟩
      { L.state with cancelled := Function.update L.state.cancelled r true } := by
  have hr := h.goes rfl
  cases st with
  | cancelling why w r' =>
      cases hop
      obtain ⟨hnone, hread, hexcused⟩ :
        L.state.ws = none ∧ L.state.reader = some r ∧ Excused why := hr
      refine isolation_apart hK hpeer h (first_of_running hrun) (disturbs_of_closing why) rfl
        ?_ ?_ rfl rfl rfl
        fun _ => ⟨.inl rfl, .inl rfl, fun c hc => ?_⟩
      · refine
          { current := hinv.current
            latest := hinv.latest
            unused := fun c hc => ⟨(hinv.unused c hc).1, ?_⟩
            sole := hinv.sole
            own := hinv.own
            ends := hinv.ends
            hopeful := hinv.hopeful }
        have hlast := hinv.latest r hread
        have hne : c ≠ r := by
          rintro rfl
          exact absurd (hlast.le.trans hc) (Nat.not_succ_le_self c)
        exact (Function.update_of_ne hne ..).trans (hinv.unused c hc).2
      · exact h.shutting rfl rfl rfl rfl rfl ⟨⟨hnone, Function.update_self .., fun r' hr' =>
          Option.some.inj (hr'.symm.trans hread)⟩, hexcused⟩
      · by_cases heq : c = r
        · rw [heq]
          exact Function.update_self ..
        · exact (Function.update_of_ne heq ..).trans hc
  | _ => cases hop

theorem isolation_clearReader (hK : Known L) (hpeer : L.Peers spots i ⟨o, st⟩)
    (hrun : L.running = some i) (hinv : Sober L.state) (h : Fares L.state true i ⟨o, st⟩)
    (hop : st.op = some .clearReader) :
    KeepsActing L i n ⟨o, st⟩ ⟨.clearReader, ()⟩ { L.state with reader := none } := by
  have hr := h.goes rfl
  cases st with
  | forgetting why =>
      obtain ⟨hnone, hdone, hexcused⟩ :
        L.state.ws = none ∧ (∀ c, Finished (L.state.readers c)) ∧ Excused why := hr
      refine isolation_apart hK hpeer h (first_of_running hrun) (disturbs_of_closing why) rfl ?_
        (h.closed rfl rfl rfl rfl ⟨hnone, rfl⟩ hexcused) rfl rfl rfl fun _ =>
          ⟨.inl rfl, .inr rfl, fun _ hc => hc⟩
      exact
        { current := hinv.current
          latest := nofun
          unused := hinv.unused
          sole := fun c halive => absurd (hdone c) halive
          own := hinv.own
          ends := hinv.ends
          hopeful := hinv.hopeful }
  | _ => cases hop

theorem isolation_act {e : Event NetAns} (hK : Known L) (hO : isolation.Holds spots L)
    (hP : Friendly L.state (.act i e)) (hrun : L.running = some i) (ht : L.tasks[i]? = some t)
    (hmay : spots.May (t.journal spots) e.1) (hacts : Acts i L.state e s') :
    Outline.Keeps (L.Peers spots) isolation L.state s' n i true
      (spots.note (t.journal spots) e) := by
  have hinv : Sober L.state := hO.inv
  have h : Fares L.state true i (t.journal spots) := hO.runner hrun ht
  have hpeer : L.Peers spots i (t.journal spots) := ⟨t, ht, rfl⟩
  revert h hpeer hmay
  generalize t.journal spots = p
  obtain ⟨o, st⟩ := p
  intro hmay h hpeer
  have hop : st.op = some e.1 := hmay
  cases hacts with
  | unlock => exact isolation_unlock hinv h hop
  | readerAlive => exact isolation_readerAlive hinv h hop
  | socketExists r =>
      cases st with
      | checking =>
          obtain rfl : r = .ok true := hP
          exact isolation_still hinv (h.call rfl rfl rfl (fun _ => rfl) (h.goes rfl))
      | _ => cases hop
  | startReader => exact isolation_startReader hK hpeer hrun hinv h hop
  | ws => exact isolation_ws hinv h hop
  | register => exact isolation_register hK hinv h hop
  | unregister ident => exact isolation_unregister hK hpeer hinv h hop
  | setInfo info => exact isolation_setInfo hinv h hop
  | clearWs => exact isolation_clearWs hK hpeer hrun hinv h hop
  | reader => exact isolation_reader hinv h hop
  | cancelReader r => exact isolation_cancelReader hK hpeer hrun hinv h hop
  | clearReader => exact isolation_clearReader hK hpeer hrun hinv h hop

theorem isolation_await {op : NetOp} (hK : Known L) (hO : isolation.Holds spots L)
    (hrun : L.running = some i) (ht : L.tasks[i]? = some t)
    (hmay : spots.May (t.journal spots) op) (hbegins : Begins i L.state op s') :
    Outline.Keeps (L.Peers spots) isolation L.state s' n i false (t.journal spots) := by
  have hinv : Sober L.state := hO.inv
  have h : Fares L.state true i (t.journal spots) := hO.runner hrun ht
  have hpeer : L.Peers spots i (t.journal spots) := ⟨t, ht, rfl⟩
  revert h hpeer hmay
  generalize t.journal spots = p
  obtain ⟨o, st⟩ := p
  intro hmay h hpeer
  have hop : st.op = some op := hmay
  have hr := h.goes rfl
  have hfirst : ∀ j, j ≠ i → L.running ≠ some j := fun j hne hj =>
    hne (Option.some.inj (hj.symm.trans hrun))
  have hstill : Stays L.state i st →
      Outline.Keeps (L.Peers spots) isolation L.state L.state n i false ⟨o, st⟩ := fun hstays =>
    isolation_beside hinv (h.wait rfl hstays) (.refl L.state) (fun _ _ => rfl)
      (fun _ _ _ _ _ _ => .of_eq rfl) fun _ _ _ _ _ => rfl
  cases hbegins with
  | lock =>
      cases st with
      | entering => exact hstill trivial
      | _ => cases hop
  | openTransport =>
      cases st with
      | opening => exact hstill hr
      | _ => cases hop
  | awaitReply ident =>
      cases st with
      | awaiting q c ident' => exact hstill ⟨.inl hr.1, hr.2⟩
      | _ => cases hop
  | joinReader c =>
      cases st with
      | joining why r => exact hstill hr
      | _ => cases hop
  | closeTransport c =>
      cases st with
      | closing why k =>
          cases hop
          obtain ⟨hk, hexcused⟩ : c < L.state.opened ∧ Excused why := hr
          refine isolation_apart hK hpeer h hfirst (disturbs_of_closing why) rfl ?_
            (h.wait rfl hexcused) rfl rfl rfl fun _ => ⟨.inl rfl, .inl rfl, fun _ hc => hc⟩
          refine
            { current := hinv.current
              latest := hinv.latest
              unused := fun k hopened => ⟨?_, (hinv.unused k hopened).2⟩
              sole := hinv.sole
              own := hinv.own
              ends := hinv.ends
              hopeful := hinv.hopeful }
          have hne : k ≠ c := by
            rintro rfl
            exact absurd (hk.trans_le hopened) (Nat.lt_irrefl k)
          exact (Function.update_of_ne hne ..).trans (hinv.unused k hopened).1
      | _ => cases hop
  | send c frame =>
      have hsame : Same L.state
          { L.state with
            transit := Function.update L.state.transit i
              (if L.state.closing c then .refused else .queued c frame) } :=
        ⟨rfl, rfl, rfl, rfl, rfl, rfl, [], (List.append_nil _).symm⟩
      -- a connection in working order takes the frame
      have hqueued : Fine L.state c → Function.update L.state.transit i
          (if L.state.closing c then Transit.refused else .queued c frame) i = .queued c frame := by
        intro hfine
        rw [Function.update_self, hfine.closing]
        rfl
      refine isolation_transit hinv (h.wait rfl ?_) hsame rfl rfl rfl
      cases st with
      | announcing c' =>
          cases hop
          exact ⟨hsame.fine hr, .inl (hqueued hr)⟩
      | sending q c' ident =>
          cases hop
          exact ⟨hsame.fine hr.1, hr.2, .inl (hqueued hr.1)⟩
      | _ => cases hop

theorem isolation_stir {op : NetOp} (hO : isolation.Holds spots L) (hrun : L.running = none)
    (ht : L.tasks[i]? = some t) (hmay : spots.May (t.journal spots) op)
    (hstirs : Stirs i L.state op s') :
    Outline.Keeps (L.Peers spots) isolation L.state s' n i false (t.journal spots) := by
  have hinv : Sober L.state := hO.inv
  have h : Fares L.state false i (t.journal spots) := hO.idle hrun ht
  revert h hmay
  generalize t.journal spots = p
  obtain ⟨o, st⟩ := p
  intro hmay h
  have hop : st.op = some op := hmay
  have hw := h.stays rfl
  cases hstirs with
  | @transmit c frame hqueued =>
      have hsame : Same L.state
          { L.state with
            transit := Function.update L.state.transit i .sent
            log := L.state.log ++ [.sent i c frame] } :=
        ⟨rfl, rfl, rfl, rfl, rfl, rfl, _, rfl⟩
      refine isolation_transit hinv (h.wait rfl ?_) hsame rfl rfl rfl
      have hsent : Sending
          { L.state with
            transit := Function.update L.state.transit i .sent
            log := L.state.log ++ [.sent i c frame] } i c frame :=
        .inr ⟨Function.update_self .., List.mem_append_right _ List.mem_cons_self⟩
      cases st with
      | announcing c' =>
          cases hop
          exact ⟨hsame.fine hw.1, hsent⟩
      | sending q c' ident =>
          cases hop
          exact ⟨hsame.fine hw.1, hw.2.1, hsent⟩
      | _ => cases hop

omit [Endpoint] in
/-- Once the reader that was cancelled has ended, all have. -/
theorem finished_of_joined {r : Conn} (hinv : Sober s) (hjoin : Joining s r)
    (hdone : Finished (s.readers r)) (c : Conn) : Finished (s.readers c) := by
  by_contra halive
  obtain rfl := hjoin.only c (hinv.sole c halive)
  exact halive hdone

/-- Whoever takes the lock finds everything at rest. -/
theorem isolation_lock (hK : Known L)
    (hover : ∀ t ∈ L.tasks, t.origin = .close → stationOver (t.journal spots).station = true)
    (hfree : L.state.holder = none) (hinv : Sober L.state) (h : Fares L.state false i ⟨o, st⟩)
    (hop : st.op = some .lock) :
    KeepsActing L i n ⟨o, st⟩ ⟨.lock, .ok ()⟩ { L.state with holder := some i } := by
  have hw := h.stays rfl
  cases st with
  | entering =>
      have ho : o ≠ .close := by
        intro hclose
        rcases h.shut hclose with halone | hended
        · cases halone
        · cases hended
      have hrested : Rested L.state := by
        refine hK.rested (fun j q hq hclose => ?_) hfree
        obtain ⟨u, hu, rfl⟩ := hq
        exact hover u (List.mem_of_getElem? hu) ((origin_journal u).symm.trans hclose)
      have hsame : Same L.state { L.state with holder := some i } :=
        ⟨rfl, rfl, rfl, rfl, rfl, rfl, [], (List.append_nil _).symm⟩
      refine isolation_beside (hsame.sober hinv hinv.hopeful) ?_ hsame (fun _ _ => rfl)
        (fun _ _ _ _ _ _ => .of_eq rfl) fun i' q hne h' hl => ?_
      · exact ⟨fun _ => rfl, fun hclose => absurd hclose ho, fun _ hclose => absurd hclose ho,
          fun _ => hsame.rested hrested, nofun⟩
      · exact absurd (hfree.symm.trans (h'.locked hl)) nofun
  | _ => cases hop

/-- The new connection has had no reader. -/
theorem isolation_openTransport (hK : Known L) (hpeer : L.Peers spots i ⟨o, st⟩)
    (hrun : L.running = none) (hinv : Sober L.state) (h : Fares L.state false i ⟨o, st⟩)
    (hop : st.op = some .openTransport) :
    KeepsActing L i n ⟨o, st⟩ ⟨.openTransport, .ok ()⟩
      { L.state with ws := some L.state.opened, opened := L.state.opened + 1 } := by
  have hw := h.stays rfl
  cases st with
  | opening =>
      obtain ⟨hws, hread⟩ : Vacant L.state := hw
      have hnew := hinv.unused L.state.opened (Nat.le_refl _)
      refine isolation_apart hK hpeer h (fun j _ hj => absurd (hrun.symm.trans hj) nofun) rfl
        rfl ?_ ?_ rfl rfl rfl nofun
      · refine
          { current := fun c hc => ?_
            latest := fun r hr => absurd (hread.symm.trans hr) nofun
            unused := fun c hc => hinv.unused c (Nat.le_of_succ_le hc)
            sole := hinv.sole
            own := hinv.own
            ends := hinv.ends
            hopeful := hinv.hopeful }
        obtain rfl := Option.some.inj hc
        rfl
      · exact h.call rfl rfl rfl (fun _ => rfl)
          ⟨Nat.succ_pos _, rfl, hread, hnew.1, hnew.2⟩
  | _ => cases hop

theorem isolation_send {c : Conn} {frame : Frame} (hsent : L.state.transit i = .sent)
    (hinv : Sober L.state) (h : Fares L.state false i ⟨o, st⟩)
    (hop : st.op = some (.send c frame)) :
    KeepsActing L i n ⟨o, st⟩ ⟨.send c frame, .ok ()⟩
      { L.state with transit := Function.update L.state.transit i .idle } := by
  have hw := h.stays rfl
  have hsame : Same L.state
      { L.state with transit := Function.update L.state.transit i .idle } :=
    ⟨rfl, rfl, rfl, rfl, rfl, rfl, [], (List.append_nil _).symm⟩
  have hlogged : ∀ {c' frame'}, Sending L.state i c' frame' →
      .sent i c' frame' ∈ L.state.log := by
    rintro c' frame' (hqueued | ⟨-, hlog⟩)
    · exact absurd (hsent.symm.trans hqueued) nofun
    · exact hlog
  refine isolation_transit hinv ?_ hsame rfl rfl rfl
  cases st with
  | announcing c' =>
      exact h.call rfl rfl rfl (fun _ => rfl) ⟨c', hsame.fine hw.1⟩
  | sending q c' ident =>
      exact h.call rfl rfl rfl (fun hl => hl)
        ⟨hsame.fine hw.1, hw.2.1, hlogged hw.2.2⟩
  | _ => cases hop

/-- A send fails for a closing connection or a cancellation. -/
theorem isolation_sendFails {c : Conn} {frame : Frame} {fault : Fault}
    (hfault : fault = .cancelled ∨ L.state.closing c = true) (hinv : Sober L.state)
    (h : Fares L.state false i ⟨o, st⟩) (hop : st.op = some (.send c frame)) :
    KeepsActing L i n ⟨o, st⟩ ⟨.send c frame, .error fault⟩
      { L.state with transit := Function.update L.state.transit i .idle } := by
  have hw := h.stays rfl
  have hsame : Same L.state
      { L.state with transit := Function.update L.state.transit i .idle } :=
    ⟨rfl, rfl, rfl, rfl, rfl, rfl, [], (List.append_nil _).symm⟩
  have hcancelled : Fine L.state c → fault = .cancelled := by
    intro hfine
    rcases hfault with hcancelled | hclosing
    · exact hcancelled
    · exact absurd (hfine.closing.symm.trans hclosing) nofun
  refine isolation_transit hinv ?_ hsame rfl rfl rfl
  cases st with
  | announcing c' =>
      cases hop
      obtain rfl := hcancelled hw.1
      exact h.call rfl rfl rfl (fun _ => rfl) ⟨.inr ⟨c, hsame.fine hw.1⟩, rfl⟩
  | sending q c' ident =>
      cases hop
      obtain rfl := hcancelled hw.1
      exact h.call rfl rfl rfl (fun hl => hl) ⟨fun _ => hsame.fine hw.1, rfl⟩
  | _ => cases hop

theorem isolation_resume {e : Event NetAns} (hK : Known L) (hO : isolation.Holds spots L)
    (hP : Calm L (.resume i e)) (hrun : L.running = none) (ht : L.tasks[i]? = some t)
    (hmay : spots.May (t.journal spots) e.1) (hresumes : Resumes i L.state e s') :
    Outline.Keeps (L.Peers spots) isolation L.state s' n i true
      (spots.note (t.journal spots) e) := by
  have hinv : Sober L.state := hO.inv
  have h : Fares L.state false i (t.journal spots) := hO.idle hrun ht
  have hpeer : L.Peers spots i (t.journal spots) := ⟨t, ht, rfl⟩
  revert h hpeer hmay
  generalize t.journal spots = p
  obtain ⟨o, st⟩ := p
  intro hmay h hpeer
  have hop : st.op = some e.1 := hmay
  have hw := h.stays rfl
  -- what a reader has raised, it was cancelled for
  have hjoined : ∀ {c fault}, L.state.readers c = .done (some fault) →
      fault = .cancelled ∧ Finished (L.state.readers c) := by
    intro c fault hdone
    refine ⟨hinv.ends c fault hdone, ?_⟩
    rw [hdone]
    exact trivial
  -- the handshake needs its connection to the end
  have hhandshake : ∀ {q : Purpose} {c : Conn} {ident : Nat},
      (Fine L.state c ∨ Clear L.state (.awaiting q c ident)) → purposeLocked q = true →
      Fine L.state c := by
    intro q c ident hfine hlocked
    cases q with
    | handshake => exact hfine.resolve_right id
    | own method params => cases hlocked
  cases hresumes with
  | lock hfree => exact isolation_lock hK hP.2 hfree hinv h hop
  | lockFails fault =>
      cases st with
      | entering =>
          obtain rfl : fault = .cancelled := hP.1
          exact isolation_still hinv
            (h.call rfl rfl rfl nofun fun e he => (Except.error.inj he).symm)
      | _ => cases hop
  | openTransport => exact isolation_openTransport hK hpeer hrun hinv h hop
  | openTransportFails fault =>
      cases st with
      | opening =>
          obtain rfl : fault = .cancelled := hP.1
          exact isolation_still hinv (h.call rfl rfl rfl (fun _ => rfl) ⟨.inl hw, rfl⟩)
      | _ => cases hop
  | send c frame hsent => exact isolation_send hsent hinv h hop
  | sendFails c frame fault => exact isolation_sendFails hP.1 hinv h hop
  | awaitReply hmem =>
      cases st with
      | awaiting q c ident =>
          cases hop
          have hgot : Got (.ok _) := hinv.hopeful _ _ hmem
          exact isolation_still hinv
            (h.call rfl rfl rfl (fun hl => hl) ⟨hhandshake hw.1, hgot⟩)
      | _ => cases hop
  | awaitReplyFails hmem =>
      exact absurd (hinv.hopeful _ _ hmem) id
  | awaitReplyTimesOut ident => exact absurd rfl hP.1
  | awaitReplyCancelled ident =>
      cases st with
      | awaiting q c ident' =>
          exact isolation_still hinv (h.call rfl rfl rfl (fun hl => hl) ⟨hhandshake hw.1, rfl⟩)
      | _ => cases hop
  | closeTransport c =>
      cases st with
      | closing why k => exact isolation_still hinv (h.shutting rfl rfl rfl rfl rfl hw)
      | _ => cases hop
  | closeTransportFails c fault =>
      have herror : (Except.error fault : Except Fault Unit) = .ok () := hP.1
      cases herror
  | joinReader hdone =>
      cases st with
      | joining why r =>
          cases hop
          refine isolation_still hinv (h.shutting rfl rfl rfl rfl rfl
            ⟨hw.1.ws, finished_of_joined hinv hw.1 ?_, hw.2⟩)
          rw [hdone]
          exact trivial
      | _ => cases hop
  | @joinReaderFails c fault hdone =>
      cases st with
      | joining why r =>
          cases hop
          obtain ⟨rfl, hfinished⟩ := hjoined hdone
          exact isolation_still hinv (h.shutting rfl rfl rfl rfl rfl
            ⟨hw.1.ws, finished_of_joined hinv hw.1 hfinished, hw.2⟩)
      | _ => cases hop
  | joinReaderCancelled c =>
      have hdone : L.state.readers c = .done (some .cancelled) := hP.1
      cases st with
      | joining why r =>
          cases hop
          obtain ⟨-, hfinished⟩ := hjoined hdone
          exact isolation_still hinv (h.shutting rfl rfl rfl rfl rfl
            ⟨hw.1.ws, finished_of_joined hinv hw.1 hfinished, hw.2⟩)
      | _ => cases hop

omit [Endpoint] in
/-- What a proper message does to the table. -/
theorem receive_proper {log : List Entry} {w : Conn} {raw : Json}
    {pending : List (Nat × Future)} (h : Proper log w (.ok raw)) :
    ∃ pending', receive pending raw = .ok pending' := by
  obtain ⟨message, hraw, hmessage⟩ := h
  obtain rfl : raw = .obj message := Except.ok.inj hraw
  rcases hmessage with hmethod | ⟨hmethod, -, -, ident, -, -, hid, -, -⟩
  · exact ⟨pending, if_pos hmethod⟩
  · simp only [receive]
    rw [if_neg (by rw [hmethod]; simp), hid]
    dsimp only [Option.getD_some]
    split
    · exact ⟨_, rfl⟩
    · exact ⟨_, rfl⟩

omit [Endpoint] in
/-- Resolving a future leaves the identifiers. -/
theorem enrolled_resolve {ident m : Nat} {message : Dict} {pending : List (Nat × Future)}
    (h : ∃ f, (m, f) ∈ pending) : ∃ f, (m, f) ∈ resolve ident message pending := by
  obtain ⟨f, hf⟩ := h
  by_cases heq : m = ident
  · exact ⟨.resolved message, List.mem_map.mpr ⟨_, hf, by simp [heq]⟩⟩
  · exact ⟨f, List.mem_map.mpr ⟨_, hf, by simp [heq]⟩⟩

/-- Where no connection is in working order, nobody waits for an answer. -/
theorem no_waiting (hK : Known L) (hO : isolation.Holds spots L) (hrun : L.running = none)
    (hbroken : ∀ c, ¬ Fine L.state c) (ident : Nat) : Arrived L.state ident := by
  intro hmem
  have hinv : Ordered L.state.log L.state.pending L.state.counter L.tasks.length :=
    hK.tallies.inv
  obtain ⟨⟨j, hreg⟩, -⟩ := hinv.keys ident .waiting hmem
  obtain ⟨u, hu⟩ : ∃ u, L.tasks[j]? = some u :=
    ⟨_, List.getElem?_eq_getElem (hinv.below j ident hreg).1⟩
  have htally : Tallies _ _ _ _ j (u.journal spots) := hK.tallies.agrees j u hu
  have hident := htally.pending ident .waiting hmem hreg
  have h : Fares L.state false j (u.journal spots) := hO.idle hrun hu
  have hw := h.stays rfl
  revert hident hw
  cases (u.journal spots).station with
  | sending q c m => exact fun _ hw => hbroken c hw.1
  | awaiting q c m =>
      intro hident hw
      obtain rfl : m = ident := Option.some.inj hident
      rcases hw.1 with hfine | hclear
      · exact hbroken c hfine
      · cases q with
        | handshake => exact hclear
        | own method params => exact hclear hmem
  | withdrawing q c m got => exact fun _ hw => hw
  | _ => exact fun hident => absurd hident nofun

omit [Endpoint] in
/-- Where nobody waits, there is nobody to fail. -/
theorem failAll_of_arrived {failure : String} {pending : List (Nat × Future)}
    (h : ∀ ident, (ident, .waiting) ∉ pending) : failAll failure pending = pending := by
  unfold failAll
  conv_rhs => rw [← List.map_id' pending]
  refine List.map_congr_left fun p hmem => ?_
  obtain ⟨ident, f⟩ := p
  cases f with
  | waiting => exact absurd hmem (h ident)
  | resolved message => rfl
  | failed failure => rfl

omit [Endpoint] in
/-- What a reader's step leaves. -/
structure Leaves (s s' : Link) : Prop where
  sober : Sober s'
  lasting : Lasting s s'
  retains : ∀ ident, Retains s s' ident
  holder : s'.holder = s.holder
  transit : s'.transit = s.transit
  ws : s'.ws = s.ws
  reader : s'.reader = s.reader
  cancelled : s'.cancelled = s.cancelled

omit [Endpoint] in
/-- A reader that is alive is the current one. -/
theorem current_of_alive {c c' : Conn} (hinv : Sober s) (halive : ¬ Finished (s.readers c))
    (hfine : Fine s c') : c' = c :=
  Option.some.inj (hfine.reader.symm.trans (hinv.sole c halive))

omit [Endpoint] in
/-- The current reader starts. -/
theorem leaves_starts {c : Conn} (hinv : Sober s) (hcreated : s.readers c = .created)
    (hread : s.reader = some c) :
    Leaves s { s with readers := Function.update s.readers c (.reading c) } where
  sober :=
    { current := hinv.current
      latest := hinv.latest
      unused := hinv.unused
      sole := by
        intro c' halive
        by_cases hc : c' = c
        · rw [hc]
          exact hread
        · refine hinv.sole c' fun hdone => halive ?_
          show Finished (Function.update s.readers c (.reading c) c')
          rw [Function.update_of_ne hc]
          exact hdone
      own := by
        intro c' w hreading
        by_cases hc : c' = c
        · subst hc
          have heq := (Function.update_self ..).symm.trans hreading
          injection heq with heq
          exact heq.symm
        · exact hinv.own c' w ((Function.update_of_ne hc ..).symm.trans hreading)
      ends := by
        intro c' fault hdone
        by_cases hc : c' = c
        · subst hc
          exact absurd ((Function.update_self ..).symm.trans hdone) nofun
        · exact hinv.ends c' fault ((Function.update_of_ne hc ..).symm.trans hdone)
      hopeful := hinv.hopeful }
  lasting := by
    refine ⟨fun c' hfine => ?_, id, fun r hj => ⟨hj.ws, hj.cancelled, hj.only⟩, [],
      (List.append_nil _).symm⟩
    have halive : ¬ Finished (s.readers c) := by
      rw [hcreated]
      exact id
    obtain rfl := current_of_alive hinv halive hfine
    exact ⟨hfine.ws, hfine.reader, hfine.closing, hfine.cancelled, .inr (Function.update_self ..)⟩
  retains := fun _ => .of_eq rfl
  holder := rfl
  transit := rfl
  ws := rfl
  reader := rfl
  cancelled := rfl

omit [Endpoint] in
/-- A reader ends where no connection is in working order. -/
theorem leaves_ends {c : Conn} {raised : Option Fault} {pending : List (Nat × Future)}
    (hinv : Sober s) (hbroken : ∀ c', ¬ Fine s c')
    (hraised : ∀ fault, raised = some fault → fault = .cancelled) (hpending : pending = s.pending) :
    Leaves s
      { s with
        pending := pending
        readers := Function.update s.readers c (.done raised) } where
  sober := by
    have hself : Function.update s.readers c (.done raised) c = .done raised :=
      Function.update_self ..
    have hother : ∀ {c' reader}, c' ≠ c →
        Function.update s.readers c (.done raised) c' = reader → s.readers c' = reader :=
      fun hne h => (Function.update_of_ne hne ..).symm.trans h
    refine
      { current := hinv.current
        latest := hinv.latest
        unused := hinv.unused
        sole := fun c' halive => ?_
        own := fun c' w hreading => ?_
        ends := fun c' fault hdone => ?_
        hopeful := by rw [hpending]; exact hinv.hopeful }
    · by_cases hc : c' = c
      · subst hc
        refine absurd ?_ halive
        show Finished (Function.update s.readers c' (.done raised) c')
        rw [hself]
        exact trivial
      · refine hinv.sole c' fun hdone => halive ?_
        show Finished (Function.update s.readers c (.done raised) c')
        rw [Function.update_of_ne hc]
        exact hdone
    · by_cases hc : c' = c
      · subst hc
        exact absurd (hself.symm.trans hreading) nofun
      · exact hinv.own c' w (hother hc hreading)
    · by_cases hc : c' = c
      · subst hc
        have heq := hself.symm.trans hdone
        injection heq with heq
        exact hraised fault heq
      · exact hinv.ends c' fault (hother hc hdone)
  lasting :=
    ⟨fun c' hfine => absurd hfine (hbroken c'), id,
      fun r hj => ⟨hj.ws, hj.cancelled, hj.only⟩, [], (List.append_nil _).symm⟩
  retains := fun _ => .of_eq hpending
  holder := rfl
  transit := rfl
  ws := rfl
  reader := rfl
  cancelled := rfl

/-- **What readers do** leaves everybody what they know. -/
theorem leaves_of_ambient {b : ReaderStep} (hK : Known L) (hO : isolation.Holds spots L)
    (hP : Friendly L.state (.ambient b)) (hrun : L.running = none)
    (hambient : Ambient L.state b s') : Leaves L.state s' := by
  have hinv : Sober L.state := hO.inv
  have hlinked := hK.linked fun i p hi => absurd (hrun.symm.trans hi) nofun
  have hcreates : ∀ {c}, L.state.readers c = .created → ¬ Finished (L.state.readers c) := by
    intro c hcreated hdone
    rw [hcreated] at hdone
    exact hdone
  have hreads : ∀ {c w}, L.state.readers c = .reading w → ¬ Finished (L.state.readers c) := by
    intro c w hreading hdone
    rw [hreading] at hdone
    exact hdone
  -- nobody waits for the reader of a connection that is not in working order
  have hfails : ∀ {failure : String}, (∀ c', ¬ Fine L.state c') →
      failAll failure L.state.pending = L.state.pending := fun hbroken =>
    failAll_of_arrived (no_waiting hK hO hrun hbroken)
  have hclosed : ∀ {c w}, L.state.readers c = .reading w → L.state.closing w = true →
      ∀ c', ¬ Fine L.state c' := by
    intro c w hreading hclosing c' hfine
    obtain rfl := current_of_alive hinv (hreads hreading) hfine
    obtain rfl := hinv.own c' w hreading
    exact absurd (hfine.closing.symm.trans hclosing) nofun
  have hcancels : ∀ {c}, ¬ Finished (L.state.readers c) → L.state.cancelled c = true →
      ∀ c', ¬ Fine L.state c' := by
    intro c halive hcancelled c' hfine
    obtain rfl := current_of_alive hinv halive hfine
    exact absurd (hfine.cancelled.symm.trans hcancelled) nofun
  cases hambient with
  | @starts c w hcreated hcancelled hws =>
      have hread := hinv.sole c (hcreates hcreated)
      obtain rfl : w = c := by
        rcases hlinked c hread with hcurrent | hc
        · exact Option.some.inj (hws.symm.trans hcurrent)
        · exact absurd (hcancelled.symm.trans hc) nofun
      exact leaves_starts hinv hcreated hread
  | startsCancelled hcreated hcancelled =>
      exact leaves_ends hinv (hcancels (hcreates hcreated) hcancelled)
        (fun fault hf => (Option.some.inj hf).symm) rfl
  | @startsAlone c hcreated hcancelled hws =>
      rcases hlinked c (hinv.sole c (hcreates hcreated)) with hc | hc
      · exact absurd (hws.symm.trans hc) nofun
      · exact absurd (hcancelled.symm.trans hc) nofun
  | @receives c w raw pending hreading hreceive =>
      obtain ⟨message, hraw, hmessage⟩ := hP w hreading
      obtain rfl : raw = .obj message := Except.ok.inj hraw
      have hsame : Same L.state
          { L.state with
            pending := pending
            log := L.state.log ++ [.arrived w (.ok (.obj message))] } :=
        ⟨rfl, rfl, rfl, rfl, rfl, rfl, _, rfl⟩
      rcases receive_cases hreceive with rfl | ⟨message', ident, heq, hmethod, hid, hwaiting, rfl⟩
      · exact ⟨hsame.sober hinv hinv.hopeful, hsame.lasting, fun _ => .of_eq rfl, rfl, rfl, rfl,
          rfl, rfl⟩
      · obtain rfl := Json.obj.inj heq
        refine ⟨hsame.sober hinv fun m f hmem => ?_, hsame.lasting, fun m =>
          ⟨fun hold => enrolled_resolve hold, fun hold hmem => ?_⟩, rfl, rfl, rfl, rfl, rfl⟩
        · rcases mem_resolve hmem with hold | ⟨rfl, rfl⟩
          · exact hinv.hopeful m f hold
          · rcases hmessage with hsome | ⟨-, herror, hresult, -⟩
            · rw [hmethod] at hsome
              cases hsome
            · exact ⟨herror, hresult⟩
        · rcases mem_resolve hmem with hfirst | ⟨-, hresolved⟩
          · exact hold hfirst
          · cases hresolved
  | @receivesBadly c w raw error hreading hreceive =>
      obtain ⟨pending', hok⟩ := receive_proper (hP w hreading)
      cases hreceive.symm.trans hok
  | @receivesNoJson c w cls message hreading =>
      obtain ⟨message', hraw, -⟩ := hP w hreading
      cases hraw
  | @ends c w hreading =>
      have hbroken := hclosed hreading (hP w hreading)
      exact leaves_ends hinv hbroken nofun (hfails hbroken)
  | @fails c w cls message hreading =>
      have hbroken := hclosed hreading (hP w hreading)
      exact leaves_ends hinv hbroken nofun (hfails hbroken)
  | @interrupted c w hreading hcancelled =>
      have hbroken := hcancels (hreads hreading) hcancelled
      exact leaves_ends hinv hbroken (fun fault hf => (Option.some.inj hf).symm) (hfails hbroken)

theorem isolation_ambient {b : ReaderStep} (hK : Known L) (hO : isolation.Holds spots L)
    (hP : Friendly L.state (.ambient b)) (hrun : L.running = none)
    (hambient : Ambient L.state b s') :
    isolation.Inv s' n ∧ ∀ i p, Outline.Spares (L.Peers spots) isolation L.state s' i p := by
  have hleaves := leaves_of_ambient hK hO hP hrun hambient
  refine ⟨hleaves.sober, fun i p _ h => ?_⟩
  have h : Fares L.state false i p := h
  refine ⟨fun hl => hleaves.holder.trans (h.locked hl), h.shut, nofun, nofun, fun _ => ?_⟩
  exact hleaves.lasting.stays (by rw [hleaves.transit]) (fun ident _ => hleaves.retains ident)
    (h.stays rfl)

end Act

end Steps

end CodexRemoteBridge.Link
