/-
  CodexRemoteBridge.Serving — every step keeps what holds between tasks,
  and so every call that ends has been served.

  Main result: `Link.served`.
-/
import CodexRemoteBridge.Isolation

namespace CodexRemoteBridge.Link

open Interaction

/-! ## §1. Where a task goes. -/

section Stations

variable [Endpoint] {o : Invocation} {st : Station} {e : Event NetAns}

/-- A task stays in the lock until it leaves it. -/
theorem locked_next (h : stationLocked st = true) (hop : st.op = some e.1) (hne : e.1 ≠ .unlock) :
    stationLocked (st.next o e) = true := by
  have hclosed : ∀ why r, errandAlone why = false →
      stationLocked (Station.closed why r) = true := by
    intro why r hwhy
    cases why with
    | alone => cases hwhy
    | room => cases r <;> rfl
    | failed error => cases r <;> rfl
  have hreplied : ∀ c q r, purposeLocked q = true →
      stationLocked (Station.replied c q r) = true := by
    intro c q r hq
    cases q with
    | handshake => cases r <;> rfl
    | own method params => cases hq
  obtain ⟨op, r⟩ := e
  cases st with
  | entering => cases h
  | ended a => cases h
  | leaving a =>
      cases hop
      exact absurd rfl hne
  | entered =>
      cases hop
      cases r <;> rfl
  | shutting why =>
      cases hop
      cases r <;> exact h
  | closing why k =>
      cases hop
      cases r with
      | ok u => exact h
      | error fault => exact hclosed why _ (by simpa [stationLocked] using h)
  | clearing why k => exact h
  | reading why w =>
      cases hop
      cases r with
      | some reader => exact h
      | none => exact hclosed why _ (by simpa [stationLocked] using h)
  | cancelling why w reader => exact h
  | joining why reader =>
      cases hop
      cases r with
      | ok u => exact h
      | error fault =>
          cases fault with
          | cancelled => exact h
          | exception cls message => exact hclosed why _ (by simpa [stationLocked] using h)
  | forgetting why => exact hclosed why _ (by simpa [stationLocked] using h)
  | checking =>
      cases hop
      cases r with
      | ok found => cases found <;> rfl
      | error fault => rfl
  | opening =>
      cases hop
      cases r <;> rfl
  | starting => rfl
  | informing c info => rfl
  | greeting c =>
      cases hop
      cases r <;> rfl
  | announcing c =>
      cases hop
      cases r <;> rfl
  | requesting q =>
      cases hop
      cases r with
      | some c => exact h
      | none => exact hreplied 0 q _ h
  | registering q c =>
      cases hop
      exact h
  | sending q c ident =>
      cases hop
      cases r <;> exact h
  | awaiting q c ident =>
      cases hop
      cases r <;> exact h
  | withdrawing q c ident got => exact hreplied c q _ h

/-- A task begins to change the connection where it has just taken the lock
only. -/
theorem changes_next (h : stationChanges (st.next o e) = true) (hop : st.op = some e.1) :
    stationChanges st = true ∨ st = .entered := by
  have hclosed : ∀ why r, stationChanges (Station.closed why r) = true →
      errandAlone why = false := by
    intro why r hwhy
    cases why with
    | alone => cases r <;> cases hwhy
    | room => rfl
    | failed error => rfl
  have hreplied : ∀ c q r, stationChanges (Station.replied c q r) = true →
      purposeLocked q = true := by
    intro c q r hq
    cases q with
    | handshake => rfl
    | own method params => cases r <;> cases hq
  have halone : ∀ {why}, errandAlone why = false → (!errandAlone why) = true := fun hwhy => by
    rw [hwhy]
    rfl
  obtain ⟨op, r⟩ := e
  cases st with
  | entering =>
      cases hop
      cases r <;> cases h
  | entered => exact .inr rfl
  | ended a => cases h
  | leaving a =>
      cases a with
      | error error => cases o <;> cases h
      | ok u => cases o <;> cases h
  | shutting why =>
      cases hop
      cases r <;> exact .inl h
  | closing why k =>
      cases hop
      cases r with
      | ok u => exact .inl h
      | error fault => exact .inl (halone (hclosed why _ h))
  | clearing why k => exact .inl h
  | reading why w =>
      cases hop
      cases r with
      | some reader => exact .inl h
      | none => exact .inl (halone (hclosed why _ h))
  | cancelling why w reader => exact .inl h
  | joining why reader =>
      cases hop
      cases r with
      | ok u => exact .inl h
      | error fault =>
          cases fault with
          | cancelled => exact .inl h
          | exception cls message => exact .inl (halone (hclosed why _ h))
  | forgetting why => exact .inl (halone (hclosed why _ h))
  | requesting q =>
      cases hop
      cases r with
      | some c => exact .inl h
      | none => exact .inl (hreplied 0 q _ h)
  | registering q c =>
      cases hop
      exact .inl h
  | sending q c ident =>
      cases hop
      cases r <;> exact .inl h
  | awaiting q c ident =>
      cases hop
      cases r <;> exact .inl h
  | withdrawing q c ident got => exact .inl (hreplied c q _ h)
  | _ => exact .inl rfl

/-- A call takes off where it leaves the lock only. -/
theorem flies_next {s s' : Link} (h : Flies s' (st.next o e)) (hop : st.op = some e.1) :
    Flies s st ∨ ∃ r, st = .leaving r := by
  have hclosed : ∀ why r, ¬ Flies s' (Station.closed why r) := by
    intro why r
    cases why <;> cases r <;> exact id
  have hreplied : ∀ c q r, ¬ Flies s' (Station.replied c q r) := by
    intro c q r
    cases q <;> cases r <;> exact id
  obtain ⟨op, r⟩ := e
  cases st with
  | leaving a => exact .inr ⟨a, rfl⟩
  | ended a => cases hop
  | entering =>
      cases hop
      cases r <;> exact absurd h id
  | entered =>
      cases hop
      cases r <;> exact absurd h id
  | shutting why =>
      cases hop
      cases r <;> exact absurd h id
  | closing why k =>
      cases hop
      cases r with
      | ok u => exact absurd h id
      | error fault => exact absurd h (hclosed why _)
  | clearing why k => exact absurd h id
  | reading why w =>
      cases hop
      cases r with
      | some reader => exact absurd h id
      | none => exact absurd h (hclosed why _)
  | cancelling why w reader => exact absurd h id
  | joining why reader =>
      cases hop
      cases r with
      | ok u => exact absurd h id
      | error fault =>
          cases fault with
          | cancelled => exact absurd h id
          | exception cls message => exact absurd h (hclosed why _)
  | forgetting why => exact absurd h (hclosed why _)
  | checking =>
      cases hop
      cases r with
      | ok found => cases found <;> exact absurd h id
      | error fault => exact absurd h id
  | opening =>
      cases hop
      cases r <;> exact absurd h id
  | starting => exact absurd h id
  | informing c info => exact absurd h id
  | greeting c =>
      cases hop
      cases r <;> exact absurd h id
  | announcing c =>
      cases hop
      cases r <;> exact absurd h id
  | requesting q =>
      cases hop
      cases r with
      | some c =>
          cases q <;> exact .inl h
      | none => exact absurd h (hreplied 0 q _)
  | registering q c =>
      cases hop
      cases q <;> exact .inl h
  | sending q c ident =>
      cases hop
      cases q with
      | handshake => cases r <;> exact absurd h id
      | own method params => exact .inl trivial
  | awaiting q c ident =>
      cases hop
      cases r <;> exact absurd h id
  | withdrawing q c ident got => exact absurd h (hreplied c q _)

end Stations

/-! ## §2. Every step keeps what holds between tasks. -/

section Steps

variable [Endpoint] {L L' : NetLoop} {l : Label Invocation NetAns ReaderStep}

/-- A future that waits no more does not wait again. -/
theorem arrived_step (hstep : L.Step machine Invocation.code l L') {ident : Nat}
    (hident : ident ≤ L.state.counter) (h : Arrived L.state ident) : Arrived L'.state ident := by
  intro hmem
  -- no future of the list waits that did not
  have hfailed : ∀ {failure : String} {pending : List (Nat × Future)},
      (ident, .waiting) ∈ failAll failure pending → (ident, .waiting) ∈ pending := by
    intro failure pending hmem
    rcases mem_failAll hmem with hold | ⟨-, hnew⟩
    · exact hold
    · cases hnew
  cases hstep with
  | invoke o => exact h hmem
  | finish _ _ => exact h hmem
  | act _ _ hacts =>
      have hacts : Acts _ _ _ _ := hacts
      cases hacts with
      | register =>
          rcases List.mem_append.mp hmem with hold | hlast
          · exact h hold
          · cases List.mem_singleton.mp hlast
            exact absurd hident (Nat.not_succ_le_self _)
      | unregister m => exact h (List.mem_filter.mp hmem).1
      | _ => exact h hmem
  | await _ _ hbegins =>
      have hbegins : Begins _ _ _ _ := hbegins
      cases hbegins <;> exact h hmem
  | stir _ _ hstirs =>
      have hstirs : Stirs _ _ _ _ := hstirs
      cases hstirs
      exact h hmem
  | resume _ _ hresumes =>
      have hresumes : Resumes _ _ _ _ := hresumes
      cases hresumes <;> exact h hmem
  | ambient hambient =>
      have hambient : Ambient _ _ _ := hambient
      cases hambient with
      | starts _ _ _ => exact h hmem
      | startsCancelled _ _ => exact h hmem
      | startsAlone _ _ _ => exact h hmem
      | receives _ hreceive =>
          rcases receive_cases hreceive with rfl | ⟨message, m, -, -, -, -, rfl⟩
          · exact h hmem
          · rcases mem_resolve hmem with hold | ⟨-, hresolved⟩
            · exact h hold
            · cases hresolved
      | receivesBadly _ _ => exact h (hfailed hmem)
      | receivesNoJson _ => exact h (hfailed hmem)
      | ends _ => exact h (hfailed hmem)
      | fails _ _ _ => exact h (hfailed hmem)
      | interrupted _ _ => exact h (hfailed hmem)

/-- A call that is settled stays so. -/
theorem settled_step (hK : Known L) (hstep : L.Step machine Invocation.code l L') {j : Nat}
    {q : Spot} (hq : L.Peers spots j q) (h : Settled L.state q.station) :
    Settled L'.state q.station := by
  obtain ⟨o, st⟩ := q
  cases st with
  | awaiting purpose c ident =>
      cases purpose with
      | handshake => exact h
      | own method params => exact arrived_step hstep (ident_le hK hq rfl) h
  | withdrawing purpose c ident got => cases purpose <;> exact h
  | _ => exact h

omit [Endpoint] in
theorem settled_of_clear {s : Link} {st : Station} (h : Clear s st) : Settled s st := by
  cases st with
  | withdrawing q c ident got => exact absurd h id
  | _ => exact h

omit [Endpoint] in
/-- A `close` that has not found anything does not await anything. -/
theorem not_quiet {i : Nat} {s s' : Link} {st : Station} {op : NetOp} (hop : st.op = some op)
    (h : Begins i s op s') : stationQuiet st = false := by
  cases h with
  | _ =>
      cases st with
      | shutting why => cases hop
      | reading why w => cases hop
      | _ => rfl

/-- What the tasks that did not move know of each other. -/
theorem modes_old (hK : Known L) (hstep : L.Step machine Invocation.code l L') {i j : Nat}
    {p q : Spot} (hp : L.Peers spots i p) (hq : L.Peers spots j q) (hclose : p.origin = .close)
    (hcall : q.origin ≠ .close) (hbusy : L.running = some i → stationQuiet p.station = false) :
    stationOver p.station = true ∨ Settled L'.state q.station := by
  rcases hK.modes i j p q hp hq hclose hcall with hover | hsettled | ⟨hrun, -, hquiet⟩
  · exact .inl hover
  · exact .inr (settled_step hK hstep hq hsettled)
  · exact absurd ((hbusy hrun).symm.trans hquiet) nofun

omit [Endpoint] in
/-- A task that moves has not ended. -/
theorem not_over_of_op {st : Station} {op : NetOp} (hop : st.op = some op) :
    stationOver st = false := by
  cases st with
  | ended r => cases hop
  | _ => rfl

/-- A `close` that has found nothing yet goes on. -/
theorem quiet_act {s s' : Link} {i : Nat} {r : Spot} {e : Event NetAns}
    (hop : r.station.op = some e.1) (hacts : Acts i s e s') (hvacant : Vacant s)
    (hquiet : stationQuiet r.station = true) :
    stationOver (r.note e).station = true ∨
      Vacant s' ∧ stationQuiet (r.note e).station = true := by
  obtain ⟨o, st⟩ := r
  cases st with
  | shutting why =>
      cases why with
      | alone =>
          cases hacts with
          | ws =>
              refine .inr ⟨hvacant, ?_⟩
              show stationQuiet (Station.next o (.shutting .alone) ⟨.ws, s.ws⟩) = true
              rw [hvacant.1]
              rfl
          | _ => cases hop
      | _ => cases hquiet
  | reading why w =>
      cases why with
      | alone =>
          cases hacts with
          | reader =>
              refine .inl ?_
              show stationOver (Station.next o (.reading .alone w) ⟨.reader, s.reader⟩) = true
              rw [hvacant.2]
              rfl
          | _ => cases hop
      | _ => cases hquiet
  | _ => cases hquiet

/-- A call that is settled goes on. -/
theorem settled_act {s s' : Link} {i : Nat} {r : Spot} {e : Event NetAns}
    (hop : r.station.op = some e.1) (hacts : Acts i s e s') (h : Settled s r.station) :
    Settled s' (r.note e).station := by
  obtain ⟨o, st⟩ := r
  cases st with
  | entering => cases hacts <;> cases hop
  | awaiting q c ident => cases hacts <;> cases hop
  | withdrawing q c ident got =>
      cases q with
      | handshake => exact absurd h id
      | own method params => exact trivial
  | ended a => cases hop
  | _ => exact absurd h id

/-- A call that is settled, and has the lock already, is resumed. -/
theorem settled_resume {s s' : Link} {i : Nat} {r : Spot} {e : Event NetAns}
    (hop : r.station.op = some e.1) (hresumes : Resumes i s e s') (h : Settled s r.station) :
    Settled s' (r.note e).station ∨ e = ⟨.lock, .ok ()⟩ := by
  obtain ⟨o, st⟩ := r
  cases st with
  | entering =>
      cases hresumes with
      | lock _ => exact .inr rfl
      | lockFails fault => exact .inl trivial
      | _ => cases hop
  | awaiting q c ident =>
      cases q with
      | handshake => exact absurd h id
      | own method params =>
          cases hresumes with
          | awaitReply _ => exact .inl trivial
          | awaitReplyFails _ => exact .inl trivial
          | awaitReplyTimesOut _ => exact .inl trivial
          | awaitReplyCancelled _ => exact .inl trivial
          | _ => cases hop
  | withdrawing q c ident got => cases hresumes <;> cases hop
  | ended a => cases hop
  | _ => exact absurd h id

theorem modes_step (hreach : L.Reach machine Invocation.code Calm init) (hK : Known L)
    (hP : Calm L l) (hstep : L.Step machine Invocation.code l L') {i j : Nat} {p q : Spot}
    (hp : L'.Peers spots i p) (hq : L'.Peers spots j q) (hclose : p.origin = .close)
    (hcall : q.origin ≠ .close) :
    stationOver p.station = true ∨ Settled L'.state q.station ∨
      L'.running = some i ∧ Vacant L'.state ∧ stationQuiet p.station = true := by
  -- two tasks that did not move
  have hold : L.Peers spots i p → L.Peers spots j q →
      (L.running = some i → stationQuiet p.station = false) →
      stationOver p.station = true ∨ Settled L'.state q.station ∨
        L'.running = some i ∧ Vacant L'.state ∧ stationQuiet p.station = true :=
    fun hp hq hbusy => (modes_old hK hstep hp hq hclose hcall hbusy).imp_right .inl
  cases hstep.noted (S := spots) hreach with
  | @invoke o hrun hstate _ hwent =>
      rcases (hwent.2 i p).mp hp with ⟨rfl, rfl⟩ | ⟨-, hp⟩
      · obtain rfl : o = .close := hclose
        rcases (hwent.2 j q).mp hq with ⟨-, rfl⟩ | ⟨-, hq⟩
        · exact absurd rfl hcall
        · rcases hP.2 with hvacant | hclear
          · exact .inr (.inr ⟨hwent.1, by rwa [hstate], rfl⟩)
          · obtain ⟨t, ht, rfl⟩ := hq
            have hthis := hclear t (List.mem_of_getElem? ht)
              fun ho => hcall ((origin_journal t).trans ho)
            exact .inr (.inl (hstate ▸ settled_of_clear hthis))
      · rcases (hwent.2 j q).mp hq with ⟨rfl, rfl⟩ | ⟨-, hq⟩
        · refine .inr (.inl ?_)
          cases o with
          | close => exact absurd rfl hcall
          | connect => exact trivial
          | call method params => exact trivial
        · exact hold hp hq fun hi => absurd (hrun.symm.trans hi) nofun
  | @act k e r hrun hr hmay hacts _ hwent =>
      rcases (hwent.2 i p).mp hp with ⟨rfl, rfl⟩ | ⟨hik, hp⟩
      · rcases (hwent.2 j q).mp hq with ⟨-, rfl⟩ | ⟨-, hq⟩
        · exact absurd hclose hcall
        · rcases hK.modes i j r q hr hq hclose hcall with hover | hsettled | ⟨-, hvacant, hquiet⟩
          · exact absurd ((not_over_of_op hmay).symm.trans hover) nofun
          · exact .inr (.inl (settled_step hK hstep hq hsettled))
          · rcases quiet_act hmay hacts hvacant hquiet with hover | hstill
            · exact .inl hover
            · exact .inr (.inr ⟨hwent.1, hstill⟩)
      · have hother : L.running ≠ some i := fun hi => hik (Option.some.inj (hi.symm.trans hrun))
        rcases (hwent.2 j q).mp hq with ⟨rfl, rfl⟩ | ⟨-, hq⟩
        · rcases hK.modes i j p r hp hr hclose hcall with hover | hsettled | ⟨hi, -⟩
          · exact .inl hover
          · exact .inr (.inl (settled_act hmay hacts hsettled))
          · exact absurd hi hother
        · exact hold hp hq fun hi => absurd hi hother
  | @await k op r hrun hr hmay hbegins _ hpaused =>
      have hp := (hpaused.2 i p).mp hp
      refine hold hp ((hpaused.2 j q).mp hq) fun hi => ?_
      obtain rfl : k = i := Option.some.inj (hrun.symm.trans hi)
      obtain rfl := hr.unique hp
      exact not_quiet hmay hbegins
  | @stir k op r hrun hr hmay hstirs _ hpaused =>
      exact hold ((hpaused.2 i p).mp hp) ((hpaused.2 j q).mp hq) fun hi =>
        absurd (hrun.symm.trans hi) nofun
  | @resume k e r hrun hr hmay hresumes _ hwent =>
      rcases (hwent.2 i p).mp hp with ⟨rfl, rfl⟩ | ⟨hik, hp⟩
      · rcases (hwent.2 j q).mp hq with ⟨-, rfl⟩ | ⟨-, hq⟩
        · exact absurd hclose hcall
        · rcases hK.modes i j r q hr hq hclose hcall with hover | hsettled | ⟨hi, -⟩
          · exact absurd ((not_over_of_op hmay).symm.trans hover) nofun
          · exact .inr (.inl (settled_step hK hstep hq hsettled))
          · exact absurd (hrun.symm.trans hi) nofun
      · rcases (hwent.2 j q).mp hq with ⟨rfl, rfl⟩ | ⟨-, hq⟩
        · rcases hK.modes i j p r hp hr hclose hcall with hover | hsettled | ⟨hi, -⟩
          · exact .inl hover
          · rcases settled_resume hmay hresumes hsettled with hstill | rfl
            · exact .inr (.inl hstill)
            · -- a call takes the lock: every `close` has ended
              obtain ⟨t, ht, rfl⟩ := hp
              exact .inl (hP.2 t (List.mem_of_getElem? ht) ((origin_journal t).symm.trans hclose))
          · exact absurd (hrun.symm.trans hi) nofun
        · exact hold hp hq fun hi => absurd (hrun.symm.trans hi) nofun
  | @finish k r a hrun hr hends hstate _ hpaused =>
      have hp := (hpaused.2 i p).mp hp
      refine hold hp ((hpaused.2 j q).mp hq) fun hi => ?_
      obtain rfl : k = i := Option.some.inj (hrun.symm.trans hi)
      obtain rfl := hr.unique hp
      have hends : r.station = .ended a.1 := hends
      rw [hends]
      rfl
  | ambient hrun hambient _ hpaused =>
      exact hold ((hpaused.2 i p).mp hp) ((hpaused.2 j q).mp hq) fun hi =>
        absurd (hrun.symm.trans hi) nofun

/-- What flies now has flown before. -/
theorem flies_back (hK : Known L) (hstep : L.Step machine Invocation.code l L') {i : Nat}
    {p : Spot} (hp : L.Peers spots i p) (h : Flies L'.state p.station) :
    Flies L.state p.station := by
  obtain ⟨o, st⟩ := p
  cases st with
  | awaiting q c ident =>
      cases q with
      | handshake => exact h
      | own method params => exact fun hold => h (arrived_step hstep (ident_le hK hp rfl) hold)
  | requesting q => cases q <;> exact h
  | registering q c => cases q <;> exact h
  | sending q c ident => cases q <;> exact h
  | _ => exact h

omit [Endpoint] in
theorem not_changes_of_flies {s : Link} {st : Station} (h : Flies s st) :
    stationChanges st = false := by
  cases st with
  | requesting q =>
      cases q with
      | handshake => exact absurd h id
      | own method params => rfl
  | registering q c =>
      cases q with
      | handshake => exact absurd h id
      | own method params => rfl
  | sending q c ident =>
      cases q with
      | handshake => exact absurd h id
      | own method params => rfl
  | awaiting q c ident =>
      cases q with
      | handshake => exact absurd h id
      | own method params => rfl
  | _ => exact absurd h id

omit [Endpoint] in
/-- Whoever waits for the answer to its own request has a connection in
working order. -/
theorem fine_of_flies {s : Link} {i : Nat} {p : Spot} (h : Fares s false i p)
    (hflies : Flies s p.station) : ∃ c, Fine s c := by
  have hw := h.stays rfl
  obtain ⟨o, st⟩ := p
  cases st with
  | sending q c ident => exact ⟨c, hw.1⟩
  | awaiting q c ident =>
      rcases hw.1 with hfine | hclear
      · exact ⟨c, hfine⟩
      · cases q with
        | handshake => exact absurd hclear id
        | own method params => exact absurd hclear hflies
  | requesting q => exact absurd hw id
  | registering q c => exact absurd hw id
  | _ => exact absurd hflies id

/-- Next to a connection in working order nobody makes room for another. -/
theorem not_changes_of_alive {s s' : Link} {i : Nat} {r : Spot} {e : Event NetAns}
    (hop : r.station.op = some e.1) (hacts : Acts i s e s') (hst : r.station = .entered)
    (hfine : ∃ c, Fine s c) : stationChanges (r.note e).station = false := by
  obtain ⟨o, st⟩ := r
  obtain rfl : st = .entered := hst
  obtain ⟨c, hfine⟩ := hfine
  cases hacts with
  | readerAlive =>
      show stationChanges (Station.next o .entered ⟨.readerAlive, s.alive⟩) = false
      rw [alive_of_fine hfine]
      rfl
  | _ => cases hop

omit [Endpoint] in
theorem not_entered_of_resumes {s s' : Link} {i : Nat} {st : Station} {e : Event NetAns}
    (hop : st.op = some e.1) (h : Resumes i s e s') : st ≠ .entered := by
  rintro rfl
  cases h <;> cases hop

/-- A task that goes on, next to one in flight. -/
theorem flying_went (hK : Known L) (hO : isolation.Holds spots L)
    (hstep : L.Step machine Invocation.code l L') {i j k : Nat} {p q r : Spot} {e : Event NetAns}
    (hr : L.Peers spots k r) (hmay : r.station.op = some e.1)
    (hlocked : stationLocked r.station = true → L.state.holder = some k)
    (hentered : r.station = .entered → (∃ c, Fine L.state c) →
      stationChanges (r.note e).station = false)
    (hother : ∀ i, i ≠ k → L.running ≠ some i) (hwent : L.Went spots L' k (r.note e))
    (hp : L'.Peers spots i p) (hq : L'.Peers spots j q) (hflies : Flies L'.state p.station) :
    stationChanges q.station = false := by
  have hfares : ∀ {i p}, i ≠ k → L.Peers spots i p → Fares L.state false i p := by
    rintro i p hne ⟨t, ht, rfl⟩
    exact hO.waiter (hother i hne) ht
  rcases (hwent.2 i p).mp hp with ⟨rfl, rfl⟩ | ⟨hik, hp⟩
  · rcases (hwent.2 j q).mp hq with ⟨-, rfl⟩ | ⟨hjk, hq⟩
    · exact not_changes_of_flies hflies
    · rcases flies_next (s := L.state) hflies hmay with hold | ⟨a, hleaving⟩
      · exact hK.flying i j r q hr hq hold
      · rw [Bool.eq_false_iff]
        intro hchanges
        have hholder := (hfares hjk hq).locked (locked_of_changes hchanges).1
        have hown := hlocked (by rw [hleaving]; rfl)
        exact hjk (Option.some.inj (hholder.symm.trans hown))
  · have hflies := flies_back hK hstep hp hflies
    rcases (hwent.2 j q).mp hq with ⟨rfl, rfl⟩ | ⟨-, hq⟩
    · rw [Bool.eq_false_iff]
      intro hchanges
      rcases changes_next hchanges hmay with hold | hthere
      · exact absurd ((hK.flying i j p r hp hr hflies).symm.trans hold) nofun
      · have hnot := hentered hthere (fine_of_flies (hfares hik hp) hflies)
        exact absurd (hnot.symm.trans hchanges) nofun
    · exact hK.flying i j p q hp hq hflies

theorem flying_step (hreach : L.Reach machine Invocation.code Calm init) (hK : Known L)
    (hO : isolation.Holds spots L) (hstep : L.Step machine Invocation.code l L') {i j : Nat}
    {p q : Spot} (hp : L'.Peers spots i p) (hq : L'.Peers spots j q)
    (hflies : Flies L'.state p.station) : stationChanges q.station = false := by
  -- two tasks that did not move
  have hold : L.Peers spots i p → L.Peers spots j q → stationChanges q.station = false :=
    fun hp hq => hK.flying i j p q hp hq (flies_back hK hstep hp hflies)
  cases hstep.noted (S := spots) hreach with
  | @invoke o hrun hstate _ hwent =>
      rcases (hwent.2 i p).mp hp with ⟨-, rfl⟩ | ⟨-, hp⟩
      · cases o <;> exact absurd hflies id
      · rcases (hwent.2 j q).mp hq with ⟨-, rfl⟩ | ⟨-, hq⟩
        · cases o <;> rfl
        · exact hold hp hq
  | @act k e r hrun hr hmay hacts _ hwent =>
      have hr' := hr
      obtain ⟨t, ht, rfl⟩ := hr'
      have hfares : Fares L.state true k (t.journal spots) := hO.runner hrun ht
      refine flying_went hK hO hstep hr hmay hfares.locked (fun hentered hfine => ?_)
        (fun i hne hi => hne (Option.some.inj (hi.symm.trans hrun))) hwent hp hq hflies
      exact not_changes_of_alive hmay hacts hentered hfine
  | @await k op r hrun hr hmay hbegins _ hpaused =>
      exact hold ((hpaused.2 i p).mp hp) ((hpaused.2 j q).mp hq)
  | @stir k op r hrun hr hmay hstirs _ hpaused =>
      exact hold ((hpaused.2 i p).mp hp) ((hpaused.2 j q).mp hq)
  | @resume k e r hrun hr hmay hresumes _ hwent =>
      have hr' := hr
      obtain ⟨t, ht, rfl⟩ := hr'
      have hfares : Fares L.state false k (t.journal spots) := hO.idle hrun ht
      refine flying_went hK hO hstep hr hmay hfares.locked (fun hentered _ => ?_)
        (fun i _ hi => absurd (hrun.symm.trans hi) nofun) hwent hp hq hflies
      exact absurd hentered (not_entered_of_resumes hmay hresumes)
  | @finish k r a hrun hr hends hstate _ hpaused =>
      exact hold ((hpaused.2 i p).mp hp) ((hpaused.2 j q).mp hq)
  | ambient hrun hambient _ hpaused =>
      exact hold ((hpaused.2 i p).mp hp) ((hpaused.2 j q).mp hq)

omit [Endpoint] in
theorem op_of_clears {st : Station} {op : NetOp} (hop : st.op = some op)
    (h : stationClears st = true) : op = .reader ∨ ∃ c, op = .cancelReader c := by
  cases st with
  | reading why w => exact .inl (Option.some.inj hop).symm
  | cancelling why w r => exact .inr ⟨r, (Option.some.inj hop).symm⟩
  | _ => cases h

/-- The reader is the current connection's, or has been cancelled. -/
def Linked (s : Link) : Prop :=
  ∀ c, s.reader = some c → s.ws = some c ∨ s.cancelled c = true

theorem linked_act {s s' : Link} {i : Nat} {r : Spot} {e : Event NetAns}
    (hop : r.station.op = some e.1) (hacts : Acts i s e s') (hgoes : Goes s i r.station)
    (hnext : stationClears (r.note e).station = false)
    (hold : stationClears r.station = false → Linked s) : Linked s' := by
  have hquiet : e.1 ≠ .reader → (∀ c, e.1 ≠ .cancelReader c) → Linked s := by
    intro hreader hcancel
    refine hold (Bool.eq_false_iff.mpr fun hclears => ?_)
    rcases op_of_clears hop hclears with h | ⟨c, h⟩
    · exact hreader h
    · exact hcancel c h
  obtain ⟨o, st⟩ := r
  cases hacts with
  | startReader =>
      cases st with
      | starting =>
          intro c hc
          exact .inl (hgoes.ws.trans hc)
      | _ => cases hop
  | clearWs =>
      cases st with
      | clearing why k => cases hnext
      | _ => cases hop
  | reader =>
      cases st with
      | reading why w =>
          intro c hc
          have hstays : stationClears (Station.next o (.reading why w) ⟨.reader, s.reader⟩) =
              false := hnext
          rw [hc] at hstays
          cases hstays
      | _ => cases hop
  | cancelReader k =>
      cases st with
      | cancelling why w k' =>
          cases hop
          intro c hc
          obtain rfl : k = c := Option.some.inj (hgoes.2.1.symm.trans hc)
          exact .inr (Function.update_self ..)
      | _ => cases hop
  | clearReader => exact nofun
  | unlock => exact hquiet nofun nofun
  | readerAlive => exact hquiet nofun nofun
  | socketExists r => exact hquiet nofun nofun
  | ws => exact hquiet nofun nofun
  | register => exact hquiet nofun nofun
  | unregister m => exact hquiet nofun nofun
  | setInfo info => exact hquiet nofun nofun

omit [Endpoint] in
theorem linked_resume {s s' : Link} {i : Nat} {r : Spot} {e : Event NetAns}
    (hop : r.station.op = some e.1) (hresumes : Resumes i s e s') (hstays : Stays s i r.station)
    (hold : Linked s) : Linked s' := by
  obtain ⟨o, st⟩ := r
  cases hresumes with
  | openTransport =>
      cases st with
      | opening =>
          intro c hc
          exact absurd (hstays.2.symm.trans hc) nofun
      | _ => cases hop
  | _ => exact hold

omit [Endpoint] in
theorem linked_begins {s s' : Link} {i : Nat} {op : NetOp} (h : Begins i s op s')
    (hold : Linked s) : Linked s' := by
  cases h <;> exact hold

omit [Endpoint] in
/-- What does not suspend is not awaited. -/
theorem not_begins {s s' : Link} {i : Nat} {op : NetOp} (h : Begins i s op s') :
    op ≠ .reader ∧ ∀ c, op ≠ .cancelReader c := by
  cases h <;> exact ⟨nofun, nofun⟩

omit [Endpoint] in
theorem linked_stirs {s s' : Link} {i : Nat} {op : NetOp} (h : Stirs i s op s')
    (hold : Linked s) : Linked s' := by
  cases h
  exact hold

theorem linked_step (hreach : L.Reach machine Invocation.code Calm init) (hK : Known L)
    (hO : isolation.Holds spots L) (hP : Calm L l)
    (hstep : L.Step machine Invocation.code l L')
    (hclears : ∀ i p, L'.running = some i → L'.Peers spots i p →
      stationClears p.station = false) : Linked L'.state := by
  have hidle : L.running = none → Linked L.state := fun hrun =>
    hK.linked fun i p hi => absurd (hrun.symm.trans hi) nofun
  -- the task that runs decides
  have hrunner : ∀ {k r}, L.running = some k → L.Peers spots k r →
      stationClears r.station = false → Linked L.state := by
    intro k r hrun hr hnot
    refine hK.linked fun i p hi hp => ?_
    obtain rfl : k = i := Option.some.inj (hrun.symm.trans hi)
    obtain rfl := hr.unique hp
    exact hnot
  cases hstep.noted (S := spots) hreach with
  | @invoke o hrun hstate _ hwent =>
      rw [hstate]
      exact hidle hrun
  | @act k e r hrun hr hmay hacts _ hwent =>
      have hnext := hclears k (r.note e) hwent.1 ((hwent.2 k _).mpr (.inl ⟨rfl, rfl⟩))
      refine linked_act hmay hacts ?_ hnext (hrunner hrun hr)
      obtain ⟨t, ht, rfl⟩ := hr
      have hfares : Fares L.state true k (t.journal spots) := hO.runner hrun ht
      exact hfares.goes rfl
  | @await k op r hrun hr hmay hbegins _ hpaused =>
      refine linked_begins hbegins (hrunner hrun hr (Bool.eq_false_iff.mpr fun hclears => ?_))
      rcases op_of_clears hmay hclears with hreader | ⟨c, hcancel⟩
      · exact (not_begins hbegins).1 hreader
      · exact (not_begins hbegins).2 c hcancel
  | @stir k op r hrun hr hmay hstirs _ hpaused => exact linked_stirs hstirs (hidle hrun)
  | @resume k e r hrun hr hmay hresumes _ hwent =>
      refine linked_resume hmay hresumes ?_ (hidle hrun)
      obtain ⟨t, ht, rfl⟩ := hr
      have hfares : Fares L.state false k (t.journal spots) := hO.idle hrun ht
      exact hfares.stays rfl
  | @finish k r a hrun hr hends hstate _ hpaused =>
      rw [hstate]
      refine hrunner hrun hr ?_
      have hends : r.station = .ended a.1 := hends
      rw [hends]
      rfl
  | ambient hrun hambient _ hpaused =>
      have hleaves := leaves_of_ambient hK hO hP.1 hrun hambient
      intro c hc
      rw [hleaves.ws, hleaves.cancelled]
      exact hidle hrun c (hleaves.reader.symm.trans hc)

omit [Endpoint] in
theorem holder_act {s s' : Link} {i : Nat} {e : Event NetAns} (h : Acts i s e s') :
    e.1 = .unlock ∧ s'.holder = none ∨ e.1 ≠ .unlock ∧ s'.holder = s.holder := by
  cases h with
  | unlock => exact .inl ⟨rfl, rfl⟩
  | _ => exact .inr ⟨nofun, rfl⟩

omit [Endpoint] in
theorem holder_begins {s s' : Link} {i : Nat} {op : NetOp} (h : Begins i s op s') :
    s'.holder = s.holder := by
  cases h <;> rfl

omit [Endpoint] in
theorem holder_stirs {s s' : Link} {i : Nat} {op : NetOp} (h : Stirs i s op s') :
    s'.holder = s.holder := by
  cases h
  rfl

omit [Endpoint] in
theorem holder_resume {s s' : Link} {i : Nat} {e : Event NetAns} (h : Resumes i s e s') :
    e = ⟨.lock, .ok ()⟩ ∧ s'.holder = some i ∨ e.1 ≠ .unlock ∧ s'.holder = s.holder := by
  cases h with
  | lock _ => exact .inl ⟨rfl, rfl⟩
  | _ => exact .inr ⟨nofun, rfl⟩

omit [Endpoint] in
theorem holder_ambient {s s' : Link} {b : ReaderStep} (h : Ambient s b s') :
    s'.holder = s.holder := by
  cases h <;> rfl

theorem entered_of_lock {r : Spot} (hop : r.station.op = some .lock) :
    stationLocked (r.note ⟨.lock, .ok ()⟩).station = true := by
  obtain ⟨o, st⟩ := r
  cases st with
  | entering => rfl
  | _ => cases hop

/-- Whoever holds the lock is inside it. -/
theorem held_went (hK : Known L) {i k : Nat} {r : Spot} {e : Event NetAns}
    (hr : L.Peers spots k r) (hmay : r.station.op = some e.1) (hne : e.1 ≠ .unlock)
    (hwent : L.Went spots L' k (r.note e)) (hholder : L.state.holder = some i) :
    ∃ p, L'.Peers spots i p ∧ stationLocked p.station = true := by
  obtain ⟨p, hp, hlocked⟩ := hK.held i hholder
  by_cases hik : i = k
  · subst hik
    obtain rfl := hr.unique hp
    exact ⟨_, (hwent.2 i _).mpr (.inl ⟨rfl, rfl⟩), locked_next hlocked hmay hne⟩
  · exact ⟨p, (hwent.2 i p).mpr (.inr ⟨hik, hp⟩), hlocked⟩

theorem held_step (hreach : L.Reach machine Invocation.code Calm init) (hK : Known L)
    (hstep : L.Step machine Invocation.code l L') {i : Nat} (hholder : L'.state.holder = some i) :
    ∃ p, L'.Peers spots i p ∧ stationLocked p.station = true := by
  have hpaused : L.Paused spots L' → L.state.holder = some i →
      ∃ p, L'.Peers spots i p ∧ stationLocked p.station = true := by
    intro hpaused hold
    obtain ⟨p, hp, hlocked⟩ := hK.held i hold
    exact ⟨p, (hpaused.2 i p).mpr hp, hlocked⟩
  cases hstep.noted (S := spots) hreach with
  | @invoke o hrun hstate _ hwent =>
      rw [hstate] at hholder
      obtain ⟨p, hp, hlocked⟩ := hK.held i hholder
      exact ⟨p, (hwent.2 i p).mpr (.inr ⟨Nat.ne_of_lt hp.lt, hp⟩), hlocked⟩
  | @act k e r hrun hr hmay hacts _ hwent =>
      rcases holder_act hacts with ⟨-, hnone⟩ | ⟨hne, hsame⟩
      · exact absurd (hnone.symm.trans hholder) nofun
      · exact held_went hK hr hmay hne hwent (hsame.symm.trans hholder)
  | @await k op r hrun hr hmay hbegins _ hpause =>
      exact hpaused hpause ((holder_begins hbegins).symm.trans hholder)
  | @stir k op r hrun hr hmay hstirs _ hpause =>
      exact hpaused hpause ((holder_stirs hstirs).symm.trans hholder)
  | @resume k e r hrun hr hmay hresumes _ hwent =>
      rcases holder_resume hresumes with ⟨rfl, hsome⟩ | ⟨hne, hsame⟩
      · obtain rfl : k = i := Option.some.inj (hsome.symm.trans hholder)
        exact ⟨_, (hwent.2 k _).mpr (.inl ⟨rfl, rfl⟩), entered_of_lock hmay⟩
      · exact held_went hK hr hmay hne hwent (hsame.symm.trans hholder)
  | @finish k r a hrun hr hends hstate _ hpause =>
      exact hpaused hpause (by rwa [hstate] at hholder)
  | ambient hrun hambient _ hpause =>
      exact hpaused hpause ((holder_ambient hambient).symm.trans hholder)

omit [Endpoint] in
/-- A call outside the lock leaves the connection alone. -/
theorem same_act {s s' : Link} {i : Nat} {st : Station} {e : Event NetAns}
    (hop : st.op = some e.1) (h : Acts i s e s') (hlocked : stationLocked st = false)
    (halone : stationAlone st = false) : Same s s' := by
  have hclosing : ∀ {why}, (!errandAlone why) = false → errandAlone why = false → False := by
    intro why h h'
    rw [h'] at h
    cases h
  cases h with
  | startReader =>
      cases st with
      | starting => cases hlocked
      | _ => cases hop
  | clearWs =>
      cases st with
      | clearing why k => exact absurd (hclosing hlocked halone) id
      | _ => cases hop
  | cancelReader c =>
      cases st with
      | cancelling why w k => exact absurd (hclosing hlocked halone) id
      | _ => cases hop
  | clearReader =>
      cases st with
      | forgetting why => exact absurd (hclosing hlocked halone) id
      | _ => cases hop
  | register => exact ⟨rfl, rfl, rfl, rfl, rfl, rfl, _, rfl⟩
  | unregister m => exact ⟨rfl, rfl, rfl, rfl, rfl, rfl, _, rfl⟩
  | _ => exact ⟨rfl, rfl, rfl, rfl, rfl, rfl, [], (List.append_nil _).symm⟩

omit [Endpoint] in
theorem same_begins {s s' : Link} {i : Nat} {st : Station} {op : NetOp} (hop : st.op = some op)
    (h : Begins i s op s') (hlocked : stationLocked st = false)
    (halone : stationAlone st = false) : Same s s' := by
  cases h with
  | closeTransport c =>
      cases st with
      | closing why k =>
          have hlocked : (!errandAlone why) = false := hlocked
          rw [show errandAlone why = false from halone] at hlocked
          cases hlocked
      | _ => cases hop
  | _ => exact ⟨rfl, rfl, rfl, rfl, rfl, rfl, [], (List.append_nil _).symm⟩

omit [Endpoint] in
theorem same_resume {s s' : Link} {i : Nat} {st : Station} {e : Event NetAns}
    (hop : st.op = some e.1) (h : Resumes i s e s') (hlocked : stationLocked st = false) :
    Same s s' := by
  cases h with
  | openTransport =>
      cases st with
      | opening => cases hlocked
      | _ => cases hop
  | _ => exact ⟨rfl, rfl, rfl, rfl, rfl, rfl, [], (List.append_nil _).symm⟩

omit [Endpoint] in
theorem same_stirs {s s' : Link} {i : Nat} {op : NetOp} (h : Stirs i s op s') : Same s s' := by
  cases h
  exact ⟨rfl, rfl, rfl, rfl, rfl, rfl, _, rfl⟩

omit [Endpoint] in
/-- What is left where the lock is. -/
theorem rested_unlock {s s' : Link} {i : Nat} {st : Station} {e : Event NetAns}
    (hop : st.op = some e.1) (h : Acts i s e s') (hunlock : e.1 = .unlock) (hgoes : Goes s i st) :
    Rested s' := by
  cases h with
  | unlock =>
      have hsame : Same s { s with holder := none } :=
        ⟨rfl, rfl, rfl, rfl, rfl, rfl, [], (List.append_nil _).symm⟩
      cases st with
      | leaving r =>
          cases r with
          | ok u => exact hsame.rested (.inr hgoes)
          | error error => exact hsame.rested (.inl hgoes.1)
      | _ => cases hop
  | _ => cases hunlock

theorem rested_step (hreach : L.Reach machine Invocation.code Calm init) (hK : Known L)
    (hO : isolation.Holds spots L) (hP : Calm L l)
    (hstep : L.Step machine Invocation.code l L') (hO' : isolation.Holds spots L')
    (hover : ∀ i p, L'.Peers spots i p → p.origin = .close → stationOver p.station = true)
    (hfree : L'.state.holder = none) : Rested L'.state := by
  -- the task that moves is outside the lock, and no `close`
  have houtside : ∀ {k running r}, L.Peers spots k r → Fares L.state running k r →
      L.state.holder = none → r.origin ≠ .close →
      stationLocked r.station = false ∧ stationAlone r.station = false := by
    intro k running r hr hfares hnone hcall
    refine ⟨Bool.eq_false_iff.mpr fun hl => ?_, Bool.eq_false_iff.mpr fun ha => ?_⟩
    · exact absurd (hnone.symm.trans (hfares.locked hl)) nofun
    · obtain ⟨t, ht, rfl⟩ := hr
      have htally : Tallies _ _ _ _ k (t.journal spots) := hK.tallies.agrees k t ht
      exact hcall (htally.alone ha)
  -- where no `close` moves, all have ended before
  have hbefore : ∀ {k r e}, L.Peers spots k r → L.Went spots L' k (Spot.note r e) →
      r.origin ≠ .close → L.state.holder = none → Rested L.state := by
    intro k r e hr hwent hcall hnone
    refine hK.rested (fun i p hp hclose => ?_) hnone
    by_cases hik : i = k
    · subst hik
      obtain rfl := hr.unique hp
      exact absurd hclose hcall
    · exact hover i p ((hwent.2 i p).mpr (.inr ⟨hik, hp⟩)) hclose
  -- a `close` that has just ended leaves nothing
  have hended : ∀ {k r e}, L.Went spots L' k (Spot.note r e) → r.origin = .close →
      Rested L'.state := by
    intro k r e hwent hclose
    have hpeer := (hwent.2 k (r.note e)).mpr (.inl ⟨rfl, rfl⟩)
    have hdone := hover k _ hpeer hclose
    obtain ⟨t, ht, htj⟩ := hpeer
    have hfares : Fares L'.state true k (t.journal spots) := hO'.runner hwent.1 ht
    rw [htj] at hfares
    exact .inl (hfares.vacant rfl hclose hdone)
  have hpaused : ∀ {k r op}, L.Paused spots L' → L.Peers spots k r → r.station.op = some op →
      L.state.holder = none → r.origin ≠ .close ∧ Rested L.state := by
    intro k r op hpause hr hmay hnone
    refine ⟨fun hclose => ?_, hK.rested (fun i p hp hclose =>
      hover i p ((hpause.2 i p).mpr hp) hclose) hnone⟩
    exact absurd ((not_over_of_op hmay).symm.trans (hover k r ((hpause.2 k r).mpr hr) hclose)) nofun
  cases hstep.noted (S := spots) hreach with
  | @invoke o hrun hstate _ hwent =>
      rw [hstate] at hfree ⊢
      refine hK.rested (fun i p hp hclose => ?_) hfree
      exact hover i p ((hwent.2 i p).mpr (.inr ⟨Nat.ne_of_lt hp.lt, hp⟩)) hclose
  | @act k e r hrun hr hmay hacts _ hwent =>
      have hfares : Fares L.state true k r := by
        obtain ⟨t, ht, rfl⟩ := hr
        exact hO.runner hrun ht
      rcases holder_act hacts with ⟨hunlock, -⟩ | ⟨-, hsame⟩
      · exact rested_unlock hmay hacts hunlock (hfares.goes rfl)
      · have hnone := hsame.symm.trans hfree
        by_cases hclose : r.origin = .close
        · exact hended hwent hclose
        · obtain ⟨hlocked, halone⟩ := houtside hr hfares hnone hclose
          exact (same_act hmay hacts hlocked halone).rested (hbefore hr hwent hclose hnone)
  | @await k op r hrun hr hmay hbegins _ hpause =>
      have hfares : Fares L.state true k r := by
        obtain ⟨t, ht, rfl⟩ := hr
        exact hO.runner hrun ht
      have hnone := (holder_begins hbegins).symm.trans hfree
      obtain ⟨hcall, hrested⟩ := hpaused hpause hr hmay hnone
      obtain ⟨hlocked, halone⟩ := houtside hr hfares hnone hcall
      exact (same_begins hmay hbegins hlocked halone).rested hrested
  | @stir k op r hrun hr hmay hstirs _ hpause =>
      have hnone := (holder_stirs hstirs).symm.trans hfree
      exact (same_stirs hstirs).rested (hpaused hpause hr hmay hnone).2
  | @resume k e r hrun hr hmay hresumes _ hwent =>
      have hfares : Fares L.state false k r := by
        obtain ⟨t, ht, rfl⟩ := hr
        exact hO.idle hrun ht
      rcases holder_resume hresumes with ⟨-, hsome⟩ | ⟨-, hsame⟩
      · exact absurd (hfree.symm.trans hsome) nofun
      · have hnone := hsame.symm.trans hfree
        by_cases hclose : r.origin = .close
        · exact hended hwent hclose
        · obtain ⟨hlocked, -⟩ := houtside hr hfares hnone hclose
          exact (same_resume hmay hresumes hlocked).rested (hbefore hr hwent hclose hnone)
  | @finish k r a hrun hr hends hstate _ hpause =>
      rw [hstate] at hfree ⊢
      exact hK.rested (fun i p hp hclose => hover i p ((hpause.2 i p).mpr hp) hclose) hfree
  | ambient hrun hambient _ hpause =>
      have hleaves := leaves_of_ambient hK hO hP.1 hrun hambient
      have hnone := hleaves.holder.symm.trans hfree
      rcases hK.rested (fun i p hp hclose => hover i p ((hpause.2 i p).mpr hp) hclose) hnone with
        hvacant | ⟨c, hfine⟩
      · exact .inl (hleaves.lasting.vacant hvacant)
      · exact .inr ⟨c, hleaves.lasting.fine c hfine⟩

/-- **Every step keeps what holds between tasks.** -/
theorem known_step (hreach : L.Reach machine Invocation.code Calm init) (hK : Known L)
    (hO : isolation.Holds spots L) (hP : Calm L l)
    (hstep : L.Step machine Invocation.code l L') (hO' : isolation.Holds spots L') : Known L' where
  modes := fun _ _ _ _ hp hq => modes_step hreach hK hP hstep hp hq
  flying := fun _ _ _ _ hp hq => flying_step hreach hK hO hstep hp hq
  rested := rested_step hreach hK hO hP hstep hO'
  linked := linked_step hreach hK hO hP hstep
  held := fun _ => held_step hreach hK hstep
  tallies := tally_sound.step (fun _ _ ht => hreach.run ht) trivial trivial hstep hK.tallies

end Steps

/-! ## §3. Every call is served. -/

section Served

variable [Endpoint]

/-- **Every step keeps the isolation.** -/
theorem isolation_sound : Outline.Sound machine spots Calm init Known isolation where
  init := by
    refine
      { current := nofun
        latest := nofun
        unused := fun _ _ => ⟨rfl, rfl⟩
        sole := fun c halive => absurd trivial halive
        own := nofun
        ends := nofun
        hopeful := nofun }
  invoke := by
    intro L o _ hO _ _
    refine ⟨hO.inv, ?_⟩
    cases o with
    | close => exact ⟨nofun, fun _ => .inl rfl, nofun, fun _ => trivial, nofun⟩
    | connect => exact ⟨nofun, nofun, nofun, fun _ => trivial, nofun⟩
    | call method params => exact ⟨nofun, nofun, nofun, fun _ => trivial, nofun⟩
  act := fun hK hO hP hrun ht hmay hacts => isolation_act hK hO hP.1 hrun ht hmay hacts
  await := fun hK hO _ hrun ht hmay hbegins => isolation_await hK hO hrun ht hmay hbegins
  stir := fun _ hO _ hrun ht hmay hstirs => isolation_stir hO hrun ht hmay hstirs
  resume := fun hK hO hP hrun ht hmay hresumes => isolation_resume hK hO hP hrun ht hmay hresumes
  finish := by
    intro L i t a _ hO hrun ht hends
    have h : Fares L.state true i (t.journal spots) := hO.runner hrun ht
    have hends : (t.journal spots).station = .ended a.1 := hends
    have hright := h.goes rfl
    rw [hends] at hright
    refine h.wait rfl ?_
    show Stays L.state i (t.journal spots).station
    rw [hends]
    exact hright
  ambient := fun hK hO hP hrun hambient => isolation_ambient hK hO hP.1 hrun hambient

theorem known_init : Known (Loop.init init) := by
  have hnobody : ∀ i p, ¬ Loop.Peers (Loop.init init : NetLoop) spots i p := by
    rintro i p ⟨t, ht, -⟩
    simp [Loop.init] at ht
  exact
    { modes := fun i _ p _ hp => absurd hp (hnobody i p)
      flying := fun i _ p _ hp => absurd hp (hnobody i p)
      rested := fun _ _ => .inl ⟨rfl, rfl⟩
      linked := fun _ r hr => by cases hr
      held := fun i hi => by cases hi
      tallies := ⟨tally_sound.init, fun _ _ ht => by simp [Loop.init] at ht⟩ }

/-- What holds of every loop that a calm execution reaches. -/
theorem known_of_calm {L : NetLoop} (h : L.Reach machine Invocation.code Calm init) :
    Known L ∧ isolation.Holds spots L :=
  isolation_sound.holds_with known_init known_step h

omit [Endpoint] in
theorem raised_cancelled {fault : Fault} (h : fault.raised = .cancelledError) :
    fault = .cancelled := by
  cases fault with
  | cancelled => rfl
  | exception cls message => cases h

omit [Endpoint] in
theorem hidden_cancelled {q : Purpose} {fault : Fault}
    (h : Station.hidden q fault = .cancelledError) : fault = .cancelled := by
  unfold Station.hidden at h
  split at h
  · cases h
  · exact raised_cancelled h

omit [Endpoint] in
theorem reply_not_cancelled {method : String} {message : Dict} :
    AppServer.reply method message ≠ .error .cancelledError := by
  unfold AppServer.reply
  split
  · exact fun h => by cases h
  · exact fun h => by cases h
  · split <;> exact fun h => by cases h

/-- Where a task begins to carry its cancellation. -/
theorem struck_next {o : Invocation} {st : Station} {e : Event NetAns} (hop : st.op = some e.1)
    (h : stationError (st.next o e) = some .cancelledError) :
    strikes e = true ∨ stationError st = some .cancelledError := by
  have hclosed : ∀ why r, stationError (Station.closed why r) = some .cancelledError →
      r = .error .cancelledError ∨ errandError why = some .cancelledError := by
    intro why r hr
    cases r with
    | ok u =>
        cases why with
        | alone => cases hr
        | room => cases hr
        | failed error => exact .inr hr
    | error error =>
        cases why <;> exact .inl (congrArg Except.error (Option.some.inj hr))
  have hreplied : ∀ c q r, stationError (Station.replied c q r) = some .cancelledError →
      r = .error .cancelledError := by
    intro c q r hr
    cases r with
    | ok value => cases q <;> cases hr
    | error error => cases q <;> exact congrArg Except.error (Option.some.inj hr)
  obtain ⟨op, r⟩ := e
  cases st with
  | entering =>
      cases hop
      cases r with
      | ok u => cases h
      | error fault =>
          obtain rfl := raised_cancelled (Option.some.inj h)
          exact .inl rfl
  | entered =>
      cases hop
      cases r <;> cases h
  | leaving a =>
      cases a with
      | error error => cases o <;> exact .inr h
      | ok u => cases o <;> cases h
  | ended a => cases hop
  | shutting why =>
      cases hop
      cases r <;> exact .inr h
  | closing why k =>
      cases hop
      cases r with
      | ok u => exact .inr h
      | error fault =>
          rcases hclosed why _ h with hr | hwhy
          · injection hr with hr
            obtain rfl := raised_cancelled hr
            exact .inl rfl
          · exact .inr hwhy
  | clearing why k => exact .inr h
  | reading why w =>
      cases hop
      cases r with
      | some reader => exact .inr h
      | none =>
          rcases hclosed why _ h with hr | hwhy
          · cases hr
          · exact .inr hwhy
  | cancelling why w reader => exact .inr h
  | joining why reader =>
      cases hop
      cases r with
      | ok u => exact .inr h
      | error fault =>
          cases fault with
          | cancelled => exact .inr h
          | exception cls message =>
              rcases hclosed why _ h with hr | hwhy
              · cases hr
              · exact .inr hwhy
  | forgetting why =>
      rcases hclosed why _ h with hr | hwhy
      · cases hr
      · exact .inr hwhy
  | checking =>
      cases hop
      cases r with
      | ok found => cases found <;> cases h
      | error fault =>
          obtain rfl := raised_cancelled (Option.some.inj h)
          exact .inl rfl
  | opening =>
      cases hop
      cases r with
      | ok u => cases h
      | error fault =>
          obtain rfl := raised_cancelled (Option.some.inj h)
          exact .inl rfl
  | starting => cases h
  | informing c info => cases h
  | greeting c =>
      cases hop
      cases r <;> cases h
  | announcing c =>
      cases hop
      cases r with
      | ok u => cases h
      | error fault =>
          obtain rfl := raised_cancelled (Option.some.inj h)
          exact .inl rfl
  | requesting q =>
      cases hop
      cases r with
      | some c => cases h
      | none => cases hreplied 0 q _ h
  | registering q c =>
      cases hop
      cases h
  | sending q c ident =>
      cases hop
      cases r with
      | ok u => cases h
      | error fault =>
          obtain rfl := hidden_cancelled (Option.some.inj h)
          exact .inl rfl
  | awaiting q c ident =>
      cases hop
      cases r with
      | ok message => cases h
      | error fault =>
          obtain rfl := hidden_cancelled (Option.some.inj h)
          exact .inl rfl
  | withdrawing q c ident got =>
      have hgot := hreplied c q _ h
      cases got with
      | error error => exact .inr (congrArg some (Except.error.inj hgot))
      | ok message => exact absurd hgot reply_not_cancelled

/-- **A task that ends with its cancellation has been cancelled.** -/
theorem struck_of_cancelled {o : Invocation} {h : List (Event NetAns)}
    {rest : Prog NetOp NetAns (Except PyExc Json × Unit)} (hrun : Run o.code h rest)
    (herror : stationError (h.foldl Spot.note (Spot.start o)).station = some .cancelledError) :
    ∃ e ∈ h, strikes e = true := by
  induction hrun with
  | start => cases o <;> cases herror
  | @step h op k r hrun ih =>
      have hop : (h.foldl Spot.note (Spot.start o)).station.op = some op :=
        Script.may (S := spots) (t := ⟨o, h, .op op k⟩) hrun rfl
      rw [List.foldl_append] at herror
      rcases struck_next hop herror with hstrikes | hbefore
      · exact ⟨_, List.mem_append_right _ List.mem_cons_self, hstrikes⟩
      · obtain ⟨e, hmem, hstrikes⟩ := ih hbefore
        exact ⟨e, List.mem_append_left _ hmem, hstrikes⟩

/-- A call that has ended has been answered, or cancelled. -/
theorem outcome {L : NetLoop} (h : L.Reach machine Invocation.code Calm init) {i : Nat} {t : NetTask}
    {method : String} {params : Dict} {r : Except PyExc Json} (ht : L.tasks[i]? = some t)
    (ho : t.origin = .call method params) (hrest : t.rest = .ret (r, ())) :
    (∃ value own, r = .ok value ∧ Delivered L.state.log i own value ∧
      Transmitted L.state.log i (.call method params) own) ∨ r = .error .cancelledError := by
  obtain ⟨hK, hO⟩ := known_of_calm h
  have hended : (t.journal spots).station = .ended r := Script.ends (S := spots) (h.run ht) hrest
  have hright : Right r := by
    have hfares : Fares L.state (L.running = some i) i (t.journal spots) := hO.agrees i t ht
    by_cases hrun : L.running = some i
    · rw [decide_eq_true hrun] at hfares
      have hgoes := hfares.goes rfl
      rwa [hended] at hgoes
    · rw [decide_eq_false hrun] at hfares
      have hstays := hfares.stays rfl
      rwa [hended] at hstays
  have htally : Tallies _ _ _ _ i (t.journal spots) := hK.tallies.agrees i t ht
  obtain ⟨own, haccount⟩ := htally.account
  have horigin : (t.journal spots).origin = .call method params := (origin_journal t).trans ho
  cases r with
  | ok value =>
      exact .inl ⟨value, own, rfl, haccount.delivered method params value horigin hended,
        horigin ▸ haccount.transmitted⟩
  | error e => exact .inr (congrArg Except.error (hright e rfl))

/-- Every call that has ended, and has not been cancelled, has been
answered. -/
theorem served {L : NetLoop} (h : L.Reach machine Invocation.code Calm init) : Served L := by
  intro i t method params r ht ho hrest hnot
  rcases outcome h ht ho hrest with hserved | rfl
  · exact hserved
  · have hended : (t.journal spots).station = .ended (.error .cancelledError) :=
      Script.ends (S := spots) (h.run ht) hrest
    obtain ⟨event, hmem, hstrikes⟩ := struck_of_cancelled (h.run ht) (by
      show stationError (t.journal spots).station = _
      rw [hended]
      rfl)
    exact absurd ((hnot event hmem).symm.trans hstrikes) nofun

end Served

end CodexRemoteBridge.Link
