/-
  CodexRemoteBridge.Closing — who owns the connections while tool calls
  connect and close at once.

  `connect` closes and opens under the lock, a tool call's own `close` does
  not take it; and `close` looks at `_ws` and `_reader` again after it has
  awaited the transport.

  Main result: `Link.ownership`.
-/
import CodexRemoteBridge.Handshake
import Mathlib.Logic.Relation

namespace CodexRemoteBridge.Link

open Interaction

/-! ## §1. Ownership. -/

/-- A task that goes on from here spares whatever was connected after the
connection that was current when it began to close. -/
def Spared (s : Link) : Station → Prop
  | .clearing _ k => ∀ c, s.ws = some c → c ≤ k
  | .cancelling _ (some k) r => r ≤ k
  | _ => True

/-- What the connections are held to. -/
structure Owned [Endpoint] (L : NetLoop) : Prop where
  /-- Every transport is the current one, or its `close()` has been
  entered. -/
  kept : ∀ c, c < L.state.opened → L.state.ws = some c ∨ L.state.closing c = true
  spared : ∀ i t, L.running = some i → L.tasks[i]? = some t →
    Spared L.state (t.journal spots).station

/-- When `close()` comes back from the transport, no other one has been
opened since, or nothing is connected. -/
def Timely (s : Link) : Label Invocation NetAns ReaderStep → Prop
  | .resume _ ⟨.closeTransport k, .ok _⟩ =>
      s.opened = k + 1 ∨ s.ws = none ∧ s.reader = none
  | _ => True

/-- The task that runs goes on, up to its next await. -/
def Onward [Endpoint] : NetLoop → NetLoop → Prop :=
  Relation.ReflTransGen fun L L' => ∃ i e, L.Step machine Invocation.code (.act i e) L'

/-! ## §2. Who may find what. -/

/-- What holds of the state. -/
structure Custody (s : Link) : Prop where
  current : ∀ c, s.ws = some c → c + 1 = s.opened
  latest : ∀ r, s.reader = some r → r + 1 = s.opened
  kept : ∀ c, c < s.opened → s.ws = some c ∨ s.closing c = true

/-- To make room for a new transport. -/
def errandRoom : Errand → Bool
  | .room => true
  | _ => false

/-- Nothing is connected. -/
def Vacant (s : Link) : Prop := s.ws = none ∧ s.reader = none

/-- What holds where a task runs. -/
def Turns (s : Link) : Station → Prop
  | .closing _ k => k < s.opened
  | .clearing _ k =>
      s.closing k = true ∧ (∀ c, s.ws = some c → c = k) ∧ ∀ r, s.reader = some r → r ≤ k
  | .reading why w =>
      (errandRoom why = true → s.ws = none) ∧
        ∀ k, w = some k → ∀ r, s.reader = some r → r ≤ k
  | .cancelling why w r => (errandRoom why = true → s.ws = none) ∧ ∀ k, w = some k → r ≤ k
  | .joining why _ => errandRoom why = true → s.ws = none
  | .forgetting why => errandRoom why = true → s.ws = none
  | .checking => Vacant s
  | .opening => Vacant s
  | .starting => 0 < s.opened
  | _ => True

/-- What holds where a task waits. -/
def Rests (s : Link) : Station → Prop
  | .closing _ k => k < s.opened ∧ s.closing k = true
  | .joining why _ => errandRoom why = true → s.ws = none
  | .opening => Vacant s
  | _ => True

/-- What holds of one task. -/
structure Minds (s : Link) (running : Bool) (i : Nat) (p : Spot) : Prop where
  locked : stationLocked p.station = true → s.holder = some i
  turns : running = true → Turns s p.station
  rests : running = false → Rests s p.station

/-- The outline of the ownership. -/
def custody : Outline Link Spot where
  Inv s _ := Custody s
  Agree s running i p := Minds s running i p

/-! ## §3. What other tasks leave alone. -/

section Frame

variable {R : Nat → Spot → Prop} {s s' : Link} {i n : Nat} {p : Spot}

/-- What nobody else does while a task holds the lock. -/
structure Yields (s s' : Link) : Prop where
  holder : s'.holder = s.holder
  ws : s'.ws = s.ws ∨ s'.ws = none
  reader : s'.reader = s.reader ∨ s'.reader = none

theorem Yields.refl (s : Link) : Yields s s := ⟨rfl, .inl rfl, .inl rfl⟩

/-- What is vacant stays so. -/
theorem Yields.vacant (hy : Yields s s') (h : Vacant s) : Vacant s' :=
  ⟨none_guarded h.1 hy.ws, hy.reader.elim (fun heq => heq.trans h.2) id⟩

/-- To make room is an errand under the lock. -/
theorem locked_of_room {why : Errand} (h : errandRoom why = true) : errandAlone why = false := by
  cases why with
  | room => rfl
  | alone => cases h
  | failed e => cases h

/-- A task that waits keeps what it knows. -/
theorem Minds.spared (h : Minds s false i p) (hopened : s.opened ≤ s'.opened)
    (hclosing : ∀ c, s.closing c = true → s'.closing c = true)
    (hyields : stationLocked p.station = true → Yields s s') : Minds s' false i p where
  locked := fun hl => (hyields hl).holder.trans (h.locked hl)
  turns := nofun
  rests := by
    intro _
    have hw := h.rests rfl
    obtain ⟨o, st⟩ := p
    cases st with
    | closing why k => exact ⟨Nat.lt_of_lt_of_le hw.1 hopened, hclosing k hw.2⟩
    | joining why r =>
        intro hroom
        have hy : Yields s s' := hyields (by simp [stationLocked, locked_of_room hroom])
        exact none_guarded (hw hroom) hy.ws
    | opening => exact (hyields rfl).vacant hw
    | _ => exact trivial

/-- Two tasks are not both inside the lock. -/
theorem Minds.alone {running : Bool} {i' : Nat} {p' : Spot} (h : Minds s running i p)
    (hl : stationLocked p.station = true) (h' : Minds s false i' p') (hne : i' ≠ i) :
    stationLocked p'.station = true → Yields s s' := by
  intro hl'
  have heq : some i' = some i := (h'.locked hl').symm.trans (h.locked hl)
  exact absurd (Option.some.inj heq) hne

/-- What a step keeps, part by part. -/
theorem custody_keeps {running : Bool} (hinv : Custody s') (hown : Minds s' running i p)
    (hopened : s.opened ≤ s'.opened)
    (hclosing : ∀ c, s.closing c = true → s'.closing c = true)
    (hyields : ∀ i' p', i' ≠ i → Minds s false i' p' → stationLocked p'.station = true →
      Yields s s') : Outline.Keeps R custody s s' n i running p :=
  ⟨hinv, hown, fun i' p' hne _ h => Minds.spared h hopened hclosing (hyields i' p' hne h)⟩

/-- A step that leaves the transports, the reader and the lock alone. -/
theorem Custody.still (h : Custody s) (hws : s'.ws = s.ws) (hreader : s'.reader = s.reader)
    (hopened : s'.opened = s.opened) (hclosing : s'.closing = s.closing) : Custody s' where
  current := by
    rw [hws, hopened]
    exact h.current
  latest := by
    rw [hreader, hopened]
    exact h.latest
  kept := by
    rw [hws, hopened, hclosing]
    exact h.kept

theorem custody_still {running : Bool} (hinv : Custody s) (hown : Minds s' running i p)
    (hws : s'.ws = s.ws) (hreader : s'.reader = s.reader) (hopened : s'.opened = s.opened)
    (hclosing : s'.closing = s.closing) (hholder : s'.holder = s.holder) :
    Outline.Keeps R custody s s' n i running p :=
  custody_keeps (hinv.still hws hreader hopened hclosing) hown hopened.symm.le
    (fun c hc => by rw [hclosing]; exact hc) fun _ _ _ _ _ => ⟨hholder, .inl hws, .inl hreader⟩

/-- A task that runs on. -/
theorem Minds.go {running : Bool} {o : Invocation} {st st' : Station}
    (h : Minds s running i ⟨o, st⟩) (hholder : s'.holder = s.holder)
    (hlocked : stationLocked st' = true → stationLocked st = true) (hturns : Turns s' st') :
    Minds s' true i ⟨o, st'⟩ where
  locked := fun hl => hholder.trans (h.locked (hlocked hl))
  turns := fun _ => hturns
  rests := nofun

/-- A task that begins to wait. -/
theorem Minds.wait {o : Invocation} {st : Station} (h : Minds s true i ⟨o, st⟩)
    (hholder : s'.holder = s.holder) (hrests : Rests s' st) : Minds s' false i ⟨o, st⟩ where
  locked := fun hl => hholder.trans (h.locked hl)
  turns := nofun
  rests := fun _ => hrests

/-- `close` comes to its end. -/
theorem Minds.close {running : Bool} {o : Invocation} {st : Station} {why : Errand}
    (h : Minds s running i ⟨o, st⟩) (hst : stationLocked st = !errandAlone why)
    (r : Except PyExc Unit) (hholder : s'.holder = s.holder)
    (hvacant : ∀ u, r = .ok u → errandRoom why = true → Vacant s') :
    Minds s' true i ⟨o, Station.closed why r⟩ := by
  cases why with
  | alone => cases r <;> exact h.go hholder nofun trivial
  | room =>
      cases r with
      | ok u => exact h.go hholder (fun _ => hst) (hvacant u rfl rfl)
      | error e => exact h.go hholder (fun _ => hst) trivial
  | failed e => cases r <;> exact h.go hholder (fun _ => hst) trivial

end Frame

/-! ## §4. Every step keeps the ownership. -/

section Steps

variable {R : Nat → Spot → Prop} {s s' : Link} {n i : Nat} {p : Spot} [Endpoint]

theorem custody_act {e : Event NetAns} (hinv : Custody s) (h : Minds s true i p)
    (hmay : p.May e.1) (hacts : Acts i s e s') :
    Outline.Keeps R custody s s' n i true (p.note e) := by
  obtain ⟨o, st⟩ := p
  have hop : st.op = some e.1 := hmay
  have hr := h.turns rfl
  cases hacts with
  | unlock =>
      cases st with
      | leaving r =>
          refine custody_keeps (hinv.still rfl rfl rfl rfl) ?_ (Nat.le_refl _) (fun _ hc => hc)
            fun i' p' hne h' hl => h.alone rfl h' hne hl
          have hout : ∀ st', stationLocked st' = false → Turns { s with holder := none } st' →
              Minds { s with holder := none } true i ⟨o, st'⟩ := by
            intro st' hl hturns
            refine ⟨fun hl' => ?_, fun _ => hturns, nofun⟩
            rw [show stationLocked st' = false from hl] at hl'
            cases hl'
          cases r with
          | error e => cases o <;> exact hout _ rfl trivial
          | ok u => cases o <;> exact hout _ rfl trivial
      | _ => cases hop
  | readerAlive =>
      cases st with
      | entered =>
          refine custody_still hinv ?_ rfl rfl rfl rfl rfl
          show Minds s true i ⟨o, Station.next o .entered ⟨.readerAlive, s.alive⟩⟩
          cases s.alive <;> exact h.go rfl (fun _ => rfl) trivial
      | _ => cases hop
  | socketExists r =>
      cases st with
      | checking =>
          refine custody_still hinv ?_ rfl rfl rfl rfl rfl
          match r with
          | .ok true => exact h.go rfl (fun _ => rfl) hr
          | .ok false => exact h.go rfl (fun _ => rfl) trivial
          | .error fault => exact h.go rfl (fun _ => rfl) trivial
      | _ => cases hop
  | startReader =>
      cases st with
      | starting =>
          have hpos : 0 < s.opened := hr
          refine custody_keeps ⟨hinv.current, fun r hread => ?_, hinv.kept⟩
            (h.go rfl (fun _ => rfl) trivial) (Nat.le_refl _) (fun _ hc => hc)
            fun i' p' hne h' hl => h.alone rfl h' hne hl
          obtain rfl := Option.some.inj hread
          show s.opened - 1 + 1 = s.opened
          omega
      | _ => cases hop
  | ws =>
      cases st with
      | shutting why =>
          refine custody_still hinv ?_ rfl rfl rfl rfl rfl
          show Minds s true i ⟨o, Station.next o (.shutting why) ⟨.ws, s.ws⟩⟩
          cases hws : s.ws with
          | some k =>
              have hcurrent := hinv.current k hws
              exact h.go rfl (fun hl => hl) (Nat.lt_of_succ_le hcurrent.le)
          | none => exact h.go rfl (fun hl => hl) ⟨fun _ => hws, nofun⟩
      | greeting c =>
          refine custody_still hinv ?_ rfl rfl rfl rfl rfl
          show Minds s true i ⟨o, Station.next o (.greeting c) ⟨.ws, s.ws⟩⟩
          cases s.ws <;> exact h.go rfl (fun _ => rfl) trivial
      | requesting q =>
          refine custody_still hinv ?_ rfl rfl rfl rfl rfl
          show Minds s true i ⟨o, Station.next o (.requesting q) ⟨.ws, s.ws⟩⟩
          cases s.ws with
          | some w => exact h.go rfl (fun hl => hl) trivial
          | none =>
              cases q with
              | handshake => exact h.go rfl (fun _ => rfl) trivial
              | own method params => exact h.go rfl nofun trivial
      | _ => cases hop
  | register =>
      cases st with
      | registering q c =>
          exact custody_still hinv (h.go rfl (fun hl => hl) trivial) rfl rfl rfl rfl rfl
      | _ => cases hop
  | unregister ident =>
      cases st with
      | withdrawing q c ident' got =>
          refine custody_still hinv ?_ rfl rfl rfl rfl rfl
          show Minds _ true i ⟨o, Station.replied c q
            (got.bind fun message => AppServer.reply q.method message)⟩
          cases q with
          | own method params => exact h.go rfl nofun trivial
          | handshake =>
              cases hgot : got.bind fun message =>
                  AppServer.reply Purpose.handshake.method message <;>
                exact h.go rfl (fun _ => rfl) trivial
      | _ => cases hop
  | setInfo info =>
      cases st with
      | informing c info' =>
          exact custody_still hinv (h.go rfl (fun _ => rfl) trivial) rfl rfl rfl rfl rfl
      | _ => cases hop
  | clearWs =>
      cases st with
      | clearing why k =>
          obtain ⟨hclosing, honly, hlate⟩ := hr
          refine custody_keeps ⟨nofun, hinv.latest, fun c hc => ?_⟩
            (h.go rfl (fun hl => hl) ⟨fun _ => rfl, fun k' hk' r hread => ?_⟩)
            (Nat.le_refl _) (fun _ hc => hc) fun _ _ _ _ _ => ⟨rfl, .inr rfl, .inl rfl⟩
          · rcases hinv.kept c hc with hws | hclosed
            · obtain rfl := honly c hws
              exact .inr hclosing
            · exact .inr hclosed
          · obtain rfl := Option.some.inj hk'
            exact hlate r hread
      | _ => cases hop
  | reader =>
      cases st with
      | reading why w =>
          obtain ⟨hnone, hlate⟩ := hr
          refine custody_still hinv ?_ rfl rfl rfl rfl rfl
          show Minds s true i ⟨o, Station.next o (.reading why w) ⟨.reader, s.reader⟩⟩
          cases hread : s.reader with
          | some r => exact h.go rfl (fun hl => hl) ⟨hnone, fun k hk => hlate k hk r hread⟩
          | none => exact h.close rfl (.ok ()) rfl fun _ _ hroom => ⟨hnone hroom, hread⟩
      | _ => cases hop
  | cancelReader r =>
      cases st with
      | cancelling why w r' =>
          exact custody_still hinv (h.go rfl (fun hl => hl) hr.1) rfl rfl rfl rfl rfl
      | _ => cases hop
  | clearReader =>
      cases st with
      | forgetting why =>
          refine custody_keeps ⟨hinv.current, nofun, hinv.kept⟩ ?_ (Nat.le_refl _) (fun _ hc => hc)
            fun _ _ _ _ _ => ⟨rfl, .inl rfl, .inr rfl⟩
          exact h.close rfl (.ok ()) rfl fun _ _ hroom => ⟨hr hroom, rfl⟩
      | _ => cases hop

omit [Endpoint] in
theorem custody_await {op : NetOp} (hinv : Custody s) (h : Minds s true i p)
    (hmay : p.May op) (hbegins : Begins i s op s') :
    Outline.Keeps R custody s s' n i false p := by
  obtain ⟨o, st⟩ := p
  have hop : st.op = some op := hmay
  have hr := h.turns rfl
  cases hbegins with
  | lock =>
      cases st with
      | entering => exact custody_still hinv (h.wait rfl trivial) rfl rfl rfl rfl rfl
      | _ => cases hop
  | openTransport =>
      cases st with
      | opening => exact custody_still hinv (h.wait rfl hr) rfl rfl rfl rfl rfl
      | _ => cases hop
  | awaitReply ident =>
      cases st with
      | awaiting q c ident' => exact custody_still hinv (h.wait rfl trivial) rfl rfl rfl rfl rfl
      | _ => cases hop
  | joinReader c =>
      cases st with
      | joining why c' => exact custody_still hinv (h.wait rfl hr) rfl rfl rfl rfl rfl
      | _ => cases hop
  | send c frame =>
      cases st with
      | announcing c' => exact custody_still hinv (h.wait rfl trivial) rfl rfl rfl rfl rfl
      | sending q c' ident =>
          exact custody_still hinv (h.wait rfl trivial) rfl rfl rfl rfl rfl
      | _ => cases hop
  | closeTransport c =>
      cases st with
      | closing why k =>
          cases hop
          have hclosing : ∀ k', s.closing k' = true →
              Function.update s.closing c true k' = true := by
            intro k' hk'
            by_cases heq : k' = c
            · rw [heq, Function.update_self]
            · rwa [Function.update_of_ne heq]
          refine custody_keeps ⟨hinv.current, hinv.latest, fun k hk => ?_⟩
            (h.wait rfl ⟨hr, Function.update_self ..⟩) (Nat.le_refl _) hclosing
            fun _ _ _ _ _ => ⟨rfl, .inl rfl, .inl rfl⟩
          exact (hinv.kept k hk).imp_right (hclosing k)
      | _ => cases hop

theorem custody_resume {e : Event NetAns} (hP : Timely s (.resume i e)) (hinv : Custody s)
    (h : Minds s false i p) (hmay : p.May e.1) (hresumes : Resumes i s e s') :
    Outline.Keeps R custody s s' n i true (p.note e) := by
  obtain ⟨o, st⟩ := p
  have hop : st.op = some e.1 := hmay
  have hw := h.rests rfl
  cases hresumes with
  | lock hfree =>
      cases st with
      | entering =>
          refine custody_keeps (hinv.still rfl rfl rfl rfl)
            ⟨fun _ => rfl, fun _ => trivial, nofun⟩ (Nat.le_refl _) (fun _ hc => hc)
            fun i' p' hne h' hl => ?_
          have hholder := h'.locked hl
          rw [hfree] at hholder
          cases hholder
      | _ => cases hop
  | lockFails fault =>
      cases st with
      | entering => exact custody_still hinv (h.go rfl nofun trivial) rfl rfl rfl rfl rfl
      | _ => cases hop
  | openTransport =>
      cases st with
      | opening =>
          obtain ⟨hws, hread⟩ : Vacant s := hw
          refine custody_keeps ⟨fun c hc => ?_, fun r hr => ?_, fun c hc => ?_⟩
            (h.go rfl (fun _ => rfl) (Nat.succ_pos _)) (Nat.le_succ _) (fun _ hc => hc)
            fun i' p' hne h' hl => h.alone rfl h' hne hl
          · obtain rfl := Option.some.inj hc
            rfl
          · exact absurd (hread.symm.trans hr) nofun
          · -- the old ones have all been closed
            rcases Nat.lt_succ_iff_lt_or_eq.mp hc with hold | rfl
            · rcases hinv.kept c hold with hcurrent | hclosed
              · exact absurd (hws.symm.trans hcurrent) nofun
              · exact .inr hclosed
            · exact .inl rfl
      | _ => cases hop
  | openTransportFails fault =>
      cases st with
      | opening =>
          exact custody_still hinv (h.go rfl (fun _ => rfl) trivial) rfl rfl rfl rfl rfl
      | _ => cases hop
  | send c frame hsent =>
      refine custody_still hinv ?_ rfl rfl rfl rfl rfl
      cases st with
      | announcing c' => exact h.go rfl (fun _ => rfl) trivial
      | sending q c' ident => exact h.go rfl (fun hl => hl) trivial
      | _ => cases hop
  | sendFails c frame fault =>
      refine custody_still hinv ?_ rfl rfl rfl rfl rfl
      cases st with
      | announcing c' => exact h.go rfl (fun _ => rfl) trivial
      | sending q c' ident => exact h.go rfl (fun hl => hl) trivial
      | _ => cases hop
  | awaitReply hmem =>
      cases st with
      | awaiting q c ident =>
          exact custody_still hinv (h.go rfl (fun hl => hl) trivial) rfl rfl rfl rfl rfl
      | _ => cases hop
  | awaitReplyFails hmem =>
      cases st with
      | awaiting q c ident =>
          exact custody_still hinv (h.go rfl (fun hl => hl) trivial) rfl rfl rfl rfl rfl
      | _ => cases hop
  | awaitReplyTimesOut ident =>
      cases st with
      | awaiting q c ident' =>
          exact custody_still hinv (h.go rfl (fun hl => hl) trivial) rfl rfl rfl rfl rfl
      | _ => cases hop
  | awaitReplyCancelled ident =>
      cases st with
      | awaiting q c ident' =>
          exact custody_still hinv (h.go rfl (fun hl => hl) trivial) rfl rfl rfl rfl rfl
      | _ => cases hop
  | closeTransport c =>
      cases st with
      | closing why k =>
          cases hop
          -- whatever is connected is what was closed
          have honly : (∀ c', s.ws = some c' → c' = c) ∧ ∀ r, s.reader = some r → r ≤ c := by
            rcases hP with hopened | ⟨hnone, hread⟩
            · refine ⟨fun c' hc' => ?_, fun r hr => ?_⟩
              · exact Nat.succ.inj ((hinv.current c' hc').trans hopened)
              · exact Nat.le_of_eq (Nat.succ.inj ((hinv.latest r hr).trans hopened))
            · rw [hnone, hread]
              exact ⟨nofun, nofun⟩
          exact custody_still hinv (h.go rfl (fun hl => hl) ⟨hw.2, honly⟩) rfl rfl rfl rfl rfl
      | _ => cases hop
  | closeTransportFails c fault =>
      cases st with
      | closing why k =>
          exact custody_still hinv (h.close rfl (.error _) rfl nofun) rfl rfl rfl rfl rfl
      | _ => cases hop
  | joinReader hdone =>
      cases st with
      | joining why r =>
          exact custody_still hinv (h.go rfl (fun hl => hl) hw) rfl rfl rfl rfl rfl
      | _ => cases hop
  | @joinReaderFails c fault hdone =>
      cases st with
      | joining why r =>
          refine custody_still hinv ?_ rfl rfl rfl rfl rfl
          cases fault with
          | cancelled => exact h.go rfl (fun hl => hl) hw
          | exception cls message => exact h.close rfl (.error _) rfl nofun
      | _ => cases hop
  | joinReaderCancelled c =>
      cases st with
      | joining why r =>
          exact custody_still hinv (h.go rfl (fun hl => hl) hw) rfl rfl rfl rfl rfl
      | _ => cases hop

omit [Endpoint] in
/-- The readers leave the connections alone. -/
theorem custody_ambient {b : ReaderStep} (hinv : Custody s) (h : Ambient s b s') :
    custody.Inv s' n ∧ ∀ i p, Outline.Spares R custody s s' i p := by
  have hstill : ∀ {s' : Link}, s'.ws = s.ws → s'.reader = s.reader → s'.opened = s.opened →
      s'.closing = s.closing → s'.holder = s.holder →
      custody.Inv s' n ∧ ∀ i p, Outline.Spares R custody s s' i p := by
    intro s' hws hread hopened hclosing hholder
    refine ⟨hinv.still hws hread hopened hclosing, fun i p _ hp => ?_⟩
    exact Minds.spared hp hopened.symm.le (fun c hc => by rw [hclosing]; exact hc)
      fun _ => ⟨hholder, .inl hws, .inl hread⟩
  cases h <;> exact hstill rfl rfl rfl rfl rfl

/-- **Every step keeps the ownership**, where a `close()` comes back in
time. -/
theorem custody_sound :
    Outline.Sound machine spots (fun L => Timely L.state) init (fun _ => True) custody where
  init := ⟨nofun, nofun, nofun⟩
  invoke := by
    intro L o _ hO _ _
    refine ⟨hO.inv, ?_⟩
    cases o <;> exact ⟨nofun, fun _ => trivial, nofun⟩
  act := fun _ hO _ hrun ht hmay hacts => custody_act hO.inv (hO.runner hrun ht) hmay hacts
  await := fun _ hO _ hrun ht hmay hbegins => custody_await hO.inv (hO.runner hrun ht) hmay hbegins
  stir := by
    intro L s' i t op _ hO _ hrun ht hmay hstirs
    have h : Minds L.state false i (t.journal spots) := hO.idle hrun ht
    cases hstirs with
    | transmit hqueued =>
        exact custody_still hO.inv ⟨h.locked, nofun, fun _ => by
          have hrests := h.rests rfl
          revert hrests
          cases (t.journal spots).station <;> exact id⟩ rfl rfl rfl rfl rfl
  resume := fun _ hO hP hrun ht hmay hresumes =>
    custody_resume hP hO.inv (hO.idle hrun ht) hmay hresumes
  finish := by
    intro L i t a _ hO hrun ht hends
    have h : Minds L.state true i (t.journal spots) := hO.runner hrun ht
    have hends : (t.journal spots).station = .ended a.1 := hends
    refine Minds.wait h rfl ?_
    show Rests L.state (t.journal spots).station
    rw [hends]
    exact trivial
  ambient := fun _ hO _ _ hambient => custody_ambient hO.inv hambient

end Steps

/-! ## §5. Connection ownership. -/

section Main

variable [Endpoint]

theorem owned_of_holds {L : NetLoop} (h : custody.Holds spots L) : Owned L := by
  have hinv : Custody L.state := h.inv
  refine ⟨hinv.kept, fun i t hrun ht => ?_⟩
  have hmind : Minds L.state true i (t.journal spots) := h.runner hrun ht
  have hturns := hmind.turns rfl
  revert hturns
  cases (t.journal spots).station with
  | clearing why k => exact fun h c hc => (h.2.1 c hc).le
  | cancelling why w r =>
      cases w with
      | some k => exact fun h => h.2 k rfl
      | none => exact fun _ => trivial
  | _ => exact fun _ => trivial

/-- The task at `clearWs` clears the current connection, and then cancels
the current reader. -/
theorem onward_of_clearing {P : NetLoop → Label Invocation NetAns ReaderStep → Prop} {L : NetLoop}
    {i : Nat} {t : NetTask} {why : Errand} {k r : Conn}
    (hreach : L.Reach machine Invocation.code P init) (hrun : L.running = some i)
    (ht : L.tasks[i]? = some t) (hst : (t.journal spots).station = .clearing why k)
    (hread : L.state.reader = some r) :
    ∃ L' t', Onward L L' ∧ L'.running = some i ∧ L'.tasks[i]? = some t' ∧
      (t'.journal spots).station = .cancelling why (some k) r := by
  have hclear : spots.May (t.journal spots) .clearWs := by
    show (t.journal spots).station.op = some .clearWs
    rw [hst]
    rfl
  obtain ⟨L₁, t₁, hstep₁, hs₁, hrun₁, ht₁, hj₁⟩ := spots_exact.acts hreach hrun ht hclear .clearWs
  have hst₁ : (t₁.journal spots).station = .reading why (some k) := by
    rw [hj₁]
    show Station.next _ (t.journal spots).station _ = _
    rw [hst]
    rfl
  have hlook : spots.May (t₁.journal spots) .reader := by
    show (t₁.journal spots).station.op = some .reader
    rw [hst₁]
    rfl
  have hreach₁ : L₁.Reach machine Invocation.code (fun _ _ => True) init :=
    .step (hreach.mono fun _ _ _ => trivial) trivial hstep₁
  obtain ⟨L₂, t₂, hstep₂, -, hrun₂, ht₂, hj₂⟩ := spots_exact.acts hreach₁ hrun₁ ht₁ hlook .reader
  refine ⟨L₂, t₂, (Relation.ReflTransGen.single ⟨i, _, hstep₁⟩).tail ⟨i, _, hstep₂⟩, hrun₂, ht₂, ?_⟩
  rw [hj₂, hs₁]
  show Station.next _ (t₁.journal spots).station ⟨.reader, L.state.reader⟩ = _
  rw [hst₁, hread]
  rfl

/-- Where a `close()` comes back too late, it takes what is connected now. -/
theorem not_owned {P : NetLoop → Label Invocation NetAns ReaderStep → Prop} {L L' : NetLoop}
    {l : Label Invocation NetAns ReaderStep} (hreach : L.Reach machine Invocation.code P init)
    (h : custody.Holds spots L) (hstep : L.Step machine Invocation.code l L')
    (hlate : ¬ Timely L.state l) : ∃ L'', Onward L' L'' ∧ ¬ Owned L'' := by
  have hreach' : L'.Reach machine Invocation.code (fun _ _ => True) init :=
    .step (hreach.mono fun _ _ _ => trivial) trivial hstep
  cases hstep with
  | @resume s s' ts i t op cont r ht hrest hresumes =>
      have hresumes : Resumes i s ⟨op, r⟩ s' := hresumes
      cases hresumes with
      | closeTransport k =>
          have hinv : Custody s := h.inv
          have hmind : Minds s false i (t.journal spots) := h.idle rfl ht
          have hop : (t.journal spots).station.op = some (.closeTransport k) :=
            Script.may (S := spots) (hreach.run ht) hrest
          obtain ⟨why, hst⟩ : ∃ why, (t.journal spots).station = .closing why k := by
            cases hstation : (t.journal spots).station with
            | closing why k' =>
                rw [hstation] at hop
                cases hop
                exact ⟨why, rfl⟩
            | _ =>
                rw [hstation] at hop
                cases hop
          have hk : k < s.opened := by
            have hrests := hmind.rests rfl
            rw [hst] at hrests
            exact hrests.1
          -- a later connection is the current one, or its reader is
          have hlater : ∀ c, c + 1 = s.opened → ¬ c ≤ k := by
            intro c hc hle
            exact hlate (.inl (Nat.le_antisymm (by rw [← hc]; exact Nat.succ_le_succ hle) hk))
          have ht' : (ts.set i (t.answer (.closeTransport k) (.ok ()) (cont (.ok ()))))[i]? =
              some (t.answer (.closeTransport k) (.ok ()) (cont (.ok ()))) :=
            List.getElem?_set_self (List.getElem?_eq_some_iff.mp ht).1
          have hst' : ((t.answer (.closeTransport k) (.ok ()) (cont (.ok ()))).journal
              spots).station = .clearing why k := by
            rw [Fiber.journal_answer]
            show Station.next _ (t.journal spots).station _ = _
            rw [hst]
            rfl
          cases hws : s.ws with
          | some c =>
              refine ⟨_, .refl, fun howned => ?_⟩
              have hspared := howned.spared i _ rfl ht'
              rw [hst'] at hspared
              exact hlater c (hinv.current c hws) (hspared c hws)
          | none =>
              cases hread : s.reader with
              | none => exact absurd (.inr ⟨hws, hread⟩) hlate
              | some r =>
                  obtain ⟨L'', t'', honward, hrun, ht'', hst''⟩ :=
                    onward_of_clearing hreach' rfl ht' hst' hread
                  refine ⟨L'', honward, fun howned => ?_⟩
                  have hspared := howned.spared i t'' hrun ht''
                  rw [hst''] at hspared
                  exact hlater r (hinv.latest r hread) hspared
      | _ => exact absurd trivial hlate
  | _ => exact absurd trivial hlate

/-- **Connection ownership**, for every order of steps in which no
`close()` comes back after another transport has been opened; where one
does, the task that runs breaks it before its next await. -/
theorem ownership {L : NetLoop}
    (h : L.Reach machine Invocation.code (fun L => Timely L.state) init) :
    Owned L ∧ ∀ l L', L.Step machine Invocation.code l L' →
      (Timely L.state l ↔ ∀ L'', Onward L' L'' → Owned L'') := by
  have hholds : ∀ {L : NetLoop},
      L.Reach machine Invocation.code (fun L => Timely L.state) init → custody.Holds spots L :=
    fun hL => custody_sound.holds (fun _ _ => trivial) hL
  refine ⟨owned_of_holds (hholds h), fun l L' hstep =>
    ⟨fun htimely L'' honward => ?_, fun hkeeps => ?_⟩⟩
  · -- nothing that happens before the next await comes too late
    have hreach : L''.Reach machine Invocation.code (fun L => Timely L.state) init := by
      induction honward with
      | refl => exact .step h htimely hstep
      | tail _ hact ih =>
          obtain ⟨i, e, hact⟩ := hact
          exact .step (l := .act i e) ih trivial hact
    exact owned_of_holds (hholds hreach)
  · by_contra hlate
    obtain ⟨L'', honward, hnot⟩ := not_owned h (hholds h) hstep hlate
    exact hnot (hkeeps L'' honward)

omit [Endpoint] in
theorem timely_of_opened {s : Link} {i : Nat} {k : Conn} (h : s.opened = k + 1) :
    Timely s (.resume i ⟨.closeTransport k, .ok ()⟩) := .inl h

omit [Endpoint] in
theorem timely_of_smooth (s : Link) (l : NetLabel) (h : Smooth l) : Timely s l := by
  unfold Timely
  split
  · exact h.elim
  · exact trivial

/-- A connection whose handshake cannot be sent is closed in time. -/
theorem shows_withdrawn :
    ∃ s ps, spots.Shows machine Timely init s (some 0) ps ∧ s.opened = 1 := by
  have h : spots.Shows machine Timely init init none [] := Script.shows_init
  have h := h.invoke .connect trivial
  have h := h.along (i := 0) rfl (walk_vacant timely_of_smooth rfl rfl rfl)
  have hwalk := walk_opening timely_of_smooth (s := { init with holder := some 0 }) (i := 0)
    (o := .connect)
  have hwalk := hwalk.await spots_exact rfl trivial (.send 0 (Purpose.handshake.frame 1))
  have hwalk := hwalk.resume spots_exact rfl trivial (.sendFails _ _ .cancelled)
  have hwalk := hwalk.act spots_exact rfl trivial (.unregister 1)
  have hwalk := hwalk.act spots_exact rfl trivial .ws
  have hwalk := hwalk.await spots_exact rfl trivial (.closeTransport 0)
  have hwalk := hwalk.resume spots_exact rfl (timely_of_opened rfl) (.closeTransport 0)
  have hwalk := hwalk.act spots_exact rfl trivial .clearWs
  exact ⟨_, _, h.along (i := 0) rfl hwalk, rfl⟩

/-- The first connection after its handshake. -/
def settled : Link :=
  { connected (.obj []) (greetingLog ++ [.sent 0 0 .initialized]) with
    holder := none
    transit := Function.update (Function.update (Function.update
      (connected (.obj []) greetingLog).transit 0 (.queued 0 .initialized)) 0 .sent) 0 .idle }

/-- The first task has connected. -/
theorem walk_settled {P : Link → NetLabel → Prop} {o : Invocation}
    (hP : ∀ s l, Smooth l → P s l)
    (hgreeted : P listening (.ambient (.receives 0 (.ok (.obj greeted))))) :
    Walk P 0 init (some 0) ⟨o, .entering⟩ settled (some 0) ⟨o, Station.connected o (.ok ())⟩ :=
  (walk_greeted hP hgreeted).trans (walk_informing hP rfl rfl (.obj []))

/-- `connect` has returned. -/
theorem shows_settled :
    spots.Shows machine (fun _ _ => True) init settled none [⟨.connect, .ended (.ok .null)⟩] := by
  have h : spots.Shows machine (fun _ _ => True) init init none [] := Script.shows_init
  have h := h.invoke .connect trivial
  have hwalk := walk_settled (P := fun _ _ => True) (o := .connect) (fun _ _ _ => trivial) trivial
  exact h.along (i := 0) rfl (hwalk.finish (fun _ => nofun) trivial)

/-- The stream has ended while the transport's `close()` is awaited. -/
def lost : Link :=
  { settled with
    closing := Function.update settled.closing 0 true
    readers := Function.update settled.readers 0 (.done none) }

theorem shows_lost :
    spots.Shows machine (fun _ _ => True) init lost none
      [⟨.connect, .ended (.ok .null)⟩, ⟨.close, .closing .alone 0⟩] := by
  have h := shows_settled.invoke .close trivial
  have hwalk := walk_start (fun _ _ => True) 1 settled (some 1) ⟨.close, .shutting .alone⟩
  have hwalk := hwalk.act spots_exact rfl trivial .ws
  have hwalk := hwalk.await spots_exact rfl trivial (.closeTransport 0)
  exact h.along (i := 1) rfl (hwalk.ambient (.ends 0) trivial (.ends rfl))

/-- The connection has been lost while its transport's `close()` is still
awaited, and the next `connect` has closed it. -/
def vacated : Link :=
  { settled with
    ws := none
    holder := some 2
    reader := none
    closing := Function.update (Function.update settled.closing 0 true) 0 true
    readers := Function.update settled.readers 0 (.done none)
    cancelled := Function.update settled.cancelled 0 true }

/-- Another task finds no reader: it closes too, and need not wait. -/
theorem shows_vacated :
    spots.Shows machine (fun _ _ => True) init vacated (some 2)
      [⟨.connect, .ended (.ok .null)⟩, ⟨.close, .closing .alone 0⟩, ⟨.connect, .checking⟩] := by
  have h := shows_lost.invoke .connect trivial
  have hwalk := walk_start (fun _ _ => True) 2 lost (some 2) ⟨.connect, .entering⟩
  have hwalk := hwalk.await spots_exact rfl trivial .lock
  have hwalk := hwalk.resume spots_exact rfl trivial (.lock rfl)
  have hwalk := hwalk.act spots_exact rfl trivial .readerAlive
  have hwalk := hwalk.act spots_exact rfl trivial .ws
  have hwalk := hwalk.await spots_exact rfl trivial (.closeTransport 0)
  have hwalk := hwalk.resume spots_exact rfl trivial (.closeTransport 0)
  have hwalk := hwalk.act spots_exact rfl trivial .clearWs
  have hwalk := hwalk.act spots_exact rfl trivial .reader
  have hwalk := hwalk.act spots_exact rfl trivial (.cancelReader 0)
  have hwalk := hwalk.await spots_exact rfl trivial (.joinReader 0)
  have hwalk := hwalk.resume spots_exact rfl trivial (.joinReader rfl)
  have hwalk := hwalk.act spots_exact rfl trivial .clearReader
  exact h.along (i := 2) rfl hwalk

/-- It has opened another one, and sends `initialize`. -/
def reopened : Link :=
  { vacated with
    ws := some 1
    reader := some 1
    counter := 2
    pending := [(2, .waiting)]
    opened := 2
    readers := Function.update vacated.readers 1 .created
    transit := Function.update vacated.transit 2 (.queued 1 (Purpose.handshake.frame 2))
    log := vacated.log ++ [.registered 2 2] }

theorem shows_reopened :
    spots.Shows machine (fun _ _ => True) init reopened none
      [⟨.connect, .ended (.ok .null)⟩, ⟨.close, .closing .alone 0⟩,
        ⟨.connect, .sending .handshake 1 2⟩] := by
  have hwalk := walk_opening (P := fun _ _ => True) (s := vacated) (i := 2) (o := .connect)
    fun _ _ _ => trivial
  have hwalk := hwalk.await spots_exact rfl trivial (.send 1 (Purpose.handshake.frame 2))
  exact shows_vacated.along (i := 2) rfl hwalk

end Main

/-- A run with a transport that has been closed in time. -/
theorem ownership_withdrawn :
    let _ := Endpoint.sample
    ∃ L : NetLoop, L.state.opened = 1 ∧ Owned L := by
  intro _
  obtain ⟨s, ps, ⟨L, hreach, rfl, -, -⟩, hopened⟩ := shows_withdrawn
  exact ⟨L, hopened, (ownership hreach).1⟩

/-- The first `close()` then drops the second connection, which nobody has
closed. -/
theorem orphaned :
    ¬ ∀ [Endpoint] {L : NetLoop}, L.Reach machine Invocation.code (fun _ _ => True) init →
      Owned L := by
  intro hclaim
  let _ := Endpoint.sample
  have hwalk := walk_start (fun _ _ => True) 1 reopened none ⟨.close, .closing .alone 0⟩
  have hwalk := hwalk.resume spots_exact rfl trivial (.closeTransport 0)
  have hwalk := hwalk.act spots_exact rfl trivial .clearWs
  obtain ⟨L, hreach, hstate, -, -⟩ := shows_reopened.along (i := 1) rfl hwalk
  have hkept := (hclaim hreach).kept 1
  rw [hstate] at hkept
  rcases hkept (by decide) with hws | hclosing
  · cases hws
  · exact absurd hclosing (by decide)

end CodexRemoteBridge.Link
