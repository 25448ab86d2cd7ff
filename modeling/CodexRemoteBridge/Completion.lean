/-
  CodexRemoteBridge.Completion — every call comes to its end.

  A task has only so many operations before it, a frame goes out once, a
  reader ends once and a future is resolved once: so the calls at hand
  cannot go on for ever.  And where one of them has not ended, somebody can
  move: the task itself, whoever holds the lock it waits for, its reader,
  or the server that owes it an answer.

  Main result: `Link.isolated`.
-/
import CodexRemoteBridge.Serving
import CodexRemoteBridge.Lib.JsonEq

namespace CodexRemoteBridge.Link

open Interaction

/-! ## §1. What is left to do. -/

/-- Why a transport is being closed decides what comes after. -/
def errandRank : Errand → Nat
  | .alone => 0
  | .failed _ => 13
  | .room => 31

def purposeRank : Purpose → Nat
  | .own _ _ => 8
  | .handshake => 24

/-- A bound on the operations that a task has before it. -/
def stationRank : Station → Nat
  | .entering => 40
  | .entered => 39
  | .leaving _ => 13
  | .shutting why => errandRank why + 7
  | .closing why _ => errandRank why + 6
  | .clearing why _ => errandRank why + 5
  | .reading why _ => errandRank why + 4
  | .cancelling why _ _ => errandRank why + 3
  | .joining why _ => errandRank why + 2
  | .forgetting why => errandRank why + 1
  | .checking => 31
  | .opening => 30
  | .starting => 29
  | .informing _ _ => 23
  | .greeting _ => 22
  | .announcing _ => 21
  | .requesting q => purposeRank q + 4
  | .registering q _ => purposeRank q + 3
  | .sending q _ _ => purposeRank q + 2
  | .awaiting q _ _ => purposeRank q + 1
  | .withdrawing q _ _ _ => purposeRank q
  | .ended _ => 0

def readerRank : Reader → Nat
  | .created => 2
  | .reading _ => 1
  | .done _ => 0

def transitRank : Transit → Nat
  | .queued _ _ => 1
  | _ => 0

/-- The current reader. -/
def currentRank (s : Link) : Nat :=
  match s.reader with
  | some c => readerRank (s.readers c)
  | none => 0

def isWaiting (p : Nat × Future) : Bool :=
  match p.2 with
  | .waiting => true
  | _ => false

/-- What the reader and the server have before them. -/
def linkRank (s : Link) : Nat := currentRank s + s.pending.countP isWaiting

/-- What a task has before it. -/
def spotRank (s : Link) (i : Nat) (p : Spot) : Nat :=
  8 * stationRank p.station + transitRank (s.transit i)

theorem spotRank_eq (s : Link) (i : Nat) (p : Spot) :
    spotRank s i p = 8 * stationRank p.station + transitRank (s.transit i) := rfl

section Stations

variable [Endpoint] {o : Invocation} {st : Station} {e : Event NetAns}

omit [Endpoint] in
theorem closed_rank (why : Errand) (r : Except PyExc Unit) :
    stationRank (Station.closed why r) ≤ errandRank why := by
  cases why <;> cases r <;> simp [Station.closed, stationRank, errandRank]

omit [Endpoint] in
theorem replied_rank (c : Conn) (q : Purpose) (r : Except PyExc Json) :
    stationRank (Station.replied c q r) < purposeRank q := by
  cases q <;> cases r <;> simp [Station.replied, stationRank, errandRank, purposeRank]

/-- **Every answer takes a task further.** -/
theorem rank_next (hop : st.op = some e.1) : stationRank (st.next o e) < stationRank st := by
  have hclosed : ∀ why r n, errandRank why < n → stationRank (Station.closed why r) < n :=
    fun why r n h => (closed_rank why r).trans_lt h
  have hreplied : ∀ c q r n, purposeRank q ≤ n → stationRank (Station.replied c q r) < n :=
    fun c q r n h => (replied_rank c q r).trans_le h
  obtain ⟨op, r⟩ := e
  cases st with
  | entering =>
      cases hop
      cases r <;> simp [Station.next, stationRank]
  | entered =>
      cases hop
      cases r <;> simp [Station.next, stationRank, errandRank]
  | leaving a =>
      cases a <;> cases o <;> simp [Station.next, Station.connected, stationRank, purposeRank]
  | ended a => cases hop
  | shutting why =>
      cases hop
      cases r <;> exact Nat.add_lt_add_left (by decide) _
  | closing why k =>
      cases hop
      cases r with
      | ok u => exact Nat.add_lt_add_left (by decide) _
      | error fault => exact hclosed why _ _ (Nat.lt_add_of_pos_right (by decide))
  | clearing why k => exact Nat.add_lt_add_left (by decide) _
  | reading why w =>
      cases hop
      cases r with
      | some reader => exact Nat.add_lt_add_left (by decide) _
      | none => exact hclosed why _ _ (Nat.lt_add_of_pos_right (by decide))
  | cancelling why w reader => exact Nat.add_lt_add_left (by decide) _
  | joining why reader =>
      cases hop
      cases r with
      | ok u => exact Nat.add_lt_add_left (by decide) _
      | error fault =>
          cases fault with
          | cancelled => exact Nat.add_lt_add_left (by decide) _
          | exception cls message =>
              exact hclosed why _ _ (Nat.lt_add_of_pos_right (by decide))
  | forgetting why => exact hclosed why _ _ (Nat.lt_add_of_pos_right (by decide))
  | checking =>
      cases hop
      cases r with
      | ok found => cases found <;> simp [Station.next, stationRank, errandRank]
      | error fault => simp [Station.next, stationRank, errandRank]
  | opening =>
      cases hop
      cases r <;> simp [Station.next, stationRank, errandRank]
  | starting => simp [Station.next, stationRank, purposeRank]
  | informing c info => simp [Station.next, stationRank]
  | greeting c =>
      cases hop
      cases r <;> simp [Station.next, stationRank, errandRank]
  | announcing c =>
      cases hop
      cases r <;> simp [Station.next, stationRank, errandRank]
  | requesting q =>
      cases hop
      cases r with
      | some c => exact Nat.add_lt_add_left (by decide) _
      | none => exact hreplied 0 q _ _ (Nat.le_add_right ..)
  | registering q c =>
      cases hop
      exact Nat.add_lt_add_left (by decide) _
  | sending q c ident =>
      cases hop
      cases r with
      | ok u => exact Nat.add_lt_add_left (by decide) _
      | error fault => exact Nat.lt_add_of_pos_right (by decide)
  | awaiting q c ident =>
      cases hop
      cases r <;> exact Nat.lt_add_of_pos_right (by decide)
  | withdrawing q c ident got => exact hreplied c q _ _ (Nat.le_refl _)

end Stations

section Links

variable {s s' : Link} {i : Nat}

theorem linkRank_act {e : Event NetAns} (h : Acts i s e s') :
    linkRank s' ≤ linkRank s + 2 ∧ s'.transit = s.transit := by
  cases h with
  | startReader =>
      refine ⟨?_, rfl⟩
      have hcurrent : currentRank
          { s with
            reader := some (s.opened - 1)
            readers := Function.update s.readers (s.opened - 1) .created } = 2 := by
        show readerRank (Function.update s.readers (s.opened - 1) .created (s.opened - 1)) = 2
        rw [Function.update_self]
        rfl
      show currentRank _ + _ ≤ currentRank s + s.pending.countP isWaiting + 2
      rw [hcurrent]
      show 2 + s.pending.countP isWaiting ≤ _
      omega
  | register =>
      refine ⟨?_, rfl⟩
      show currentRank s + (s.pending ++ [(s.counter + 1, Future.waiting)]).countP isWaiting ≤
        currentRank s + s.pending.countP isWaiting + 2
      rw [List.countP_append]
      have hone : [(s.counter + 1, Future.waiting)].countP isWaiting = 1 := rfl
      omega
  | unregister m =>
      refine ⟨?_, rfl⟩
      have hless : (s.pending.filter fun p => p.1 ≠ m).countP isWaiting ≤
          s.pending.countP isWaiting := List.filter_sublist.countP_le
      show currentRank s + (s.pending.filter fun p => p.1 ≠ m).countP isWaiting ≤ _
      unfold linkRank
      omega
  | clearReader =>
      refine ⟨?_, rfl⟩
      show 0 + s.pending.countP isWaiting ≤ currentRank s + s.pending.countP isWaiting + 2
      omega
  | _ => exact ⟨Nat.le_add_right .., rfl⟩

theorem linkRank_begins {op : NetOp} (h : Begins i s op s') :
    linkRank s' = linkRank s ∧ transitRank (s'.transit i) ≤ transitRank (s.transit i) + 1 ∧
      ∀ i', i' ≠ i → s'.transit i' = s.transit i' := by
  cases h with
  | send c frame =>
      refine ⟨rfl, ?_, fun i' hne => Function.update_of_ne hne ..⟩
      show transitRank (Function.update s.transit i _ i) ≤ _
      rw [Function.update_self]
      split
      · exact Nat.zero_le _
      · exact Nat.le_add_left ..
  | _ => exact ⟨rfl, Nat.le_succ _, fun _ _ => rfl⟩

theorem linkRank_stirs {op : NetOp} (h : Stirs i s op s') :
    linkRank s' = linkRank s ∧ transitRank (s'.transit i) < transitRank (s.transit i) ∧
      ∀ i', i' ≠ i → s'.transit i' = s.transit i' := by
  cases h with
  | transmit hqueued =>
      refine ⟨rfl, ?_, fun i' hne => Function.update_of_ne hne ..⟩
      show transitRank (Function.update s.transit i .sent i) < _
      rw [Function.update_self, hqueued]
      exact Nat.one_pos

theorem linkRank_resumes {e : Event NetAns} (h : Resumes i s e s') :
    linkRank s' = linkRank s ∧ transitRank (s'.transit i) ≤ transitRank (s.transit i) ∧
      ∀ i', i' ≠ i → s'.transit i' = s.transit i' := by
  have hidle : transitRank (Function.update s.transit i .idle i) ≤ transitRank (s.transit i) := by
    rw [Function.update_self]
    exact Nat.zero_le _
  cases h with
  | send c frame _ => exact ⟨rfl, hidle, fun i' hne => Function.update_of_ne hne ..⟩
  | sendFails c frame fault => exact ⟨rfl, hidle, fun i' hne => Function.update_of_ne hne ..⟩
  | _ => exact ⟨rfl, Nat.le_refl _, fun _ _ => rfl⟩

/-- A message that somebody waits for, or another step. -/
def Heeded (s s' : Link) : Label Invocation NetAns ReaderStep → Prop
  | .invoke _ => False
  | .ambient (.receives _ _) => s'.pending ≠ s.pending
  | _ => True

/-- A reader that is alive is the current one. -/
theorem currentRank_of_alive {c : Conn} (hinv : Sober s) (halive : ¬ Finished (s.readers c)) :
    currentRank s = readerRank (s.readers c) := by
  unfold currentRank
  rw [hinv.sole c halive]

theorem currentRank_update {c : Conn} {reader : Reader} (hread : s.reader = some c)
    (hread' : s'.reader = s.reader) (hreaders : s'.readers = Function.update s.readers c reader) :
    currentRank s' = readerRank reader := by
  unfold currentRank
  rw [hread', hread, hreaders]
  dsimp only
  rw [Function.update_self]

theorem countP_failAll (failure : String) (pending : List (Nat × Future)) :
    (failAll failure pending).countP isWaiting ≤ pending.countP isWaiting := by
  unfold failAll
  rw [List.countP_map]
  refine List.countP_mono_left fun p _ hp => ?_
  obtain ⟨ident, f⟩ := p
  cases f with
  | waiting => rfl
  | resolved message => cases hp
  | failed failure => cases hp

/-- A future that waits is resolved once. -/
theorem countP_resolve {ident : Nat} {message : Dict} {pending : List (Nat × Future)}
    (h : (ident, .waiting) ∈ pending) :
    (resolve ident message pending).countP isWaiting < pending.countP isWaiting := by
  have hless : ∀ l : List (Nat × Future),
      (resolve ident message l).countP isWaiting ≤ l.countP isWaiting := by
    intro l
    unfold resolve
    rw [List.countP_map]
    refine List.countP_mono_left fun p _ hp => ?_
    obtain ⟨m, f⟩ := p
    by_cases hm : m = ident
    · have hnot : isWaiting (if m = ident then (ident, .resolved message) else (m, f)) = true := hp
      rw [if_pos hm] at hnot
      cases hnot
    · have hsame : isWaiting (if m = ident then (ident, .resolved message) else (m, f)) = true := hp
      rwa [if_neg hm] at hsame
  obtain ⟨before, after, rfl⟩ := List.append_of_mem h
  have hsplit : resolve ident message (before ++ (ident, .waiting) :: after) =
      resolve ident message before ++ (ident, .resolved message) :: resolve ident message after := by
    simp [resolve]
  rw [hsplit, List.countP_append, List.countP_append,
    List.countP_cons_of_neg
      (show ¬ isWaiting (ident, .resolved message) = true from fun h => by cases h),
    List.countP_cons_of_pos (show isWaiting (ident, .waiting) = true from rfl)]
  have hbefore := hless before
  have hafter := hless after
  omega

theorem linkRank_ambient {b : ReaderStep} (hinv : Sober s) (h : Ambient s b s')
    (hheeded : Heeded s s' (.ambient b)) : linkRank s' < linkRank s ∧ s'.transit = s.transit := by
  have hcreates : ∀ {c}, s.readers c = .created → ¬ Finished (s.readers c) := by
    intro c hcreated hdone
    rw [hcreated] at hdone
    exact hdone
  have hreads : ∀ {c w}, s.readers c = .reading w → ¬ Finished (s.readers c) := by
    intro c w hreading hdone
    rw [hreading] at hdone
    exact hdone
  -- a reader takes a step
  have hsteps : ∀ {c reader}, ¬ Finished (s.readers c) → s'.reader = s.reader →
      s'.readers = Function.update s.readers c reader →
      readerRank reader < readerRank (s.readers c) →
      s'.pending.countP isWaiting ≤ s.pending.countP isWaiting → linkRank s' < linkRank s := by
    intro c reader halive hread hreaders hlower hpending
    unfold linkRank
    rw [currentRank_of_alive hinv halive,
      currentRank_update (hinv.sole c halive) hread hreaders]
    omega
  cases h with
  | starts hcreated _ _ =>
      exact ⟨hsteps (hcreates hcreated) rfl rfl (by rw [hcreated]; exact Nat.lt_succ_self 1)
        (Nat.le_refl _), rfl⟩
  | startsCancelled hcreated _ =>
      exact ⟨hsteps (hcreates hcreated) rfl rfl (by rw [hcreated]; decide) (Nat.le_refl _), rfl⟩
  | startsAlone hcreated _ _ =>
      exact ⟨hsteps (hcreates hcreated) rfl rfl (by rw [hcreated]; decide) (Nat.le_refl _), rfl⟩
  | receives hreading hreceive =>
      refine ⟨Nat.add_lt_add_left ?_ _, rfl⟩
      rcases receive_cases hreceive with rfl | ⟨message, ident, -, -, -, hwaiting, rfl⟩
      · exact absurd rfl hheeded
      · exact countP_resolve hwaiting
  | receivesBadly hreading _ =>
      exact ⟨hsteps (hreads hreading) rfl rfl (by rw [hreading]; exact Nat.one_pos)
        (countP_failAll ..), rfl⟩
  | receivesNoJson hreading =>
      exact ⟨hsteps (hreads hreading) rfl rfl (by rw [hreading]; exact Nat.one_pos)
        (countP_failAll ..), rfl⟩
  | ends hreading =>
      exact ⟨hsteps (hreads hreading) rfl rfl (by rw [hreading]; exact Nat.one_pos)
        (countP_failAll ..), rfl⟩
  | fails _ _ hreading =>
      exact ⟨hsteps (hreads hreading) rfl rfl (by rw [hreading]; exact Nat.one_pos)
        (countP_failAll ..), rfl⟩
  | interrupted hreading _ =>
      exact ⟨hsteps (hreads hreading) rfl rfl (by rw [hreading]; exact Nat.one_pos)
        (countP_failAll ..), rfl⟩

end Links

/-! ## §2. The calls at hand come to an end. -/

section Moves

variable [Endpoint] {L L' : NetLoop}

/-- The calls at hand go on. -/
def Moves (L L' : NetLoop) : Prop :=
  ∃ l, Calm L l ∧ Heeded L.state L'.state l ∧ L.Step machine Invocation.code l L'

/-- What is left to do. -/
def rank (L : NetLoop) : Nat :=
  L.weight spots (spotRank L.state) + linkRank L.state + if L.running.isSome then 2 else 0

theorem rank_running {k : Nat} (h : L.running = some k) :
    rank L = L.weight spots (spotRank L.state) + linkRank L.state + 2 := by
  unfold rank
  rw [h]
  rfl

theorem rank_idle (h : L.running = none) :
    rank L = L.weight spots (spotRank L.state) + linkRank L.state := by
  unfold rank
  rw [h]
  rfl

/-- **Every move leaves less to do.** -/
theorem rank_lt (hreach : L.Reach machine Invocation.code Calm init) (hmove : Moves L L') :
    rank L' < rank L := by
  obtain ⟨l, hcalm, hheeded, hstep⟩ := hmove
  have hO := (known_of_calm hreach).2
  -- other tasks have as much before them as they had
  have hothers : ∀ {k}, (∀ i, i ≠ k → L'.state.transit i = L.state.transit i) →
      ∀ i p, i ≠ k → spotRank L'.state i p = spotRank L.state i p := by
    intro k htransit i p hne
    unfold spotRank
    rw [htransit i hne]
  cases hstep.noted (S := spots) hreach with
  | invoke _ _ _ _ => exact absurd hheeded id
  | @act k e r hrun hr hmay hacts hlength hwent =>
      obtain ⟨hlink, htransit⟩ := linkRank_act hacts
      have hweight : L'.weight spots (spotRank L'.state) + spotRank L.state k r =
          L.weight spots (spotRank L.state) + spotRank L'.state k (r.note e) :=
        hwent.weight hlength hr (hothers fun i _ => by rw [htransit])
      have hnext : stationRank (r.note e).station < stationRank r.station := rank_next hmay
      have hshare := spotRank_eq L.state k r
      have hshare' := spotRank_eq L'.state k (r.note e)
      rw [htransit] at hshare'
      rw [rank_running hrun, rank_running hwent.1]
      omega
  | @await k op r hrun hr hmay hbegins hlength hpaused =>
      obtain ⟨hlink, htransit, hrest⟩ := linkRank_begins hbegins
      have hweight : L'.weight spots (spotRank L'.state) + spotRank L.state k r =
          L.weight spots (spotRank L.state) + spotRank L'.state k r :=
        hpaused.weight hlength hr (hothers hrest)
      rw [rank_running hrun, rank_idle hpaused.1]
      have hshare := spotRank_eq L.state k r
      have hshare' := spotRank_eq L'.state k r
      omega
  | @stir k op r hrun hr hmay hstirs hlength hpaused =>
      obtain ⟨hlink, htransit, hrest⟩ := linkRank_stirs hstirs
      have hweight : L'.weight spots (spotRank L'.state) + spotRank L.state k r =
          L.weight spots (spotRank L.state) + spotRank L'.state k r :=
        hpaused.weight hlength hr (hothers hrest)
      rw [rank_idle hrun, rank_idle hpaused.1]
      have hshare := spotRank_eq L.state k r
      have hshare' := spotRank_eq L'.state k r
      omega
  | @resume k e r hrun hr hmay hresumes hlength hwent =>
      obtain ⟨hlink, htransit, hrest⟩ := linkRank_resumes hresumes
      have hweight : L'.weight spots (spotRank L'.state) + spotRank L.state k r =
          L.weight spots (spotRank L.state) + spotRank L'.state k (r.note e) :=
        hwent.weight hlength hr (hothers hrest)
      have hnext : stationRank (r.note e).station < stationRank r.station := rank_next hmay
      rw [rank_idle hrun, rank_running hwent.1]
      have hshare := spotRank_eq L.state k r
      have hshare' := spotRank_eq L'.state k (r.note e)
      omega
  | @finish k r a hrun hr hends hstate hlength hpaused =>
      have hweight : L'.weight spots (spotRank L'.state) = L.weight spots (spotRank L.state) :=
        hpaused.weight_eq hlength fun i p => by rw [hstate]
      rw [rank_running hrun, rank_idle hpaused.1, hweight, hstate]
      omega
  | ambient hrun hambient hlength hpaused =>
      obtain ⟨hlink, htransit⟩ := linkRank_ambient hO.inv hambient hheeded
      have hweight : L'.weight spots (spotRank L'.state) = L.weight spots (spotRank L.state) :=
        hpaused.weight_eq hlength fun i p => by
          unfold spotRank
          rw [htransit]
      rw [rank_idle hrun, rank_idle hpaused.1, hweight]
      omega

theorem reach_of_moves (hreach : L.Reach machine Invocation.code Calm init) (hmove : Moves L L') :
    L'.Reach machine Invocation.code Calm init := by
  obtain ⟨l, hcalm, -, hstep⟩ := hmove
  exact .step hreach hcalm hstep

/-- No sequence of moves goes on for ever. -/
theorem moves_acc (hreach : L.Reach machine Invocation.code Calm init) :
    Acc (fun L' L => Moves L L') L :=
  hreach.acc reach_of_moves rank_lt

omit [Endpoint] in
/-- Whatever a task stands at, it does it or begins to await it. -/
theorem acts_or_begins (i : Nat) (s : Link) (op : NetOp) :
    (∃ r s', Acts i s ⟨op, r⟩ s' ∧ Friendly s (.act i ⟨op, r⟩)) ∨ ∃ s', Begins i s op s' := by
  cases op with
  | lock => exact .inr ⟨_, .lock⟩
  | openTransport => exact .inr ⟨_, .openTransport⟩
  | send c frame => exact .inr ⟨_, .send c frame⟩
  | awaitReply ident => exact .inr ⟨_, .awaitReply ident⟩
  | closeTransport c => exact .inr ⟨_, .closeTransport c⟩
  | joinReader c => exact .inr ⟨_, .joinReader c⟩
  | unlock => exact .inl ⟨_, _, .unlock, trivial⟩
  | readerAlive => exact .inl ⟨_, _, .readerAlive, trivial⟩
  | socketExists => exact .inl ⟨_, _, .socketExists (.ok true), rfl⟩
  | startReader => exact .inl ⟨_, _, .startReader, trivial⟩
  | ws => exact .inl ⟨_, _, .ws, trivial⟩
  | register => exact .inl ⟨_, _, .register, trivial⟩
  | unregister ident => exact .inl ⟨_, _, .unregister ident, trivial⟩
  | setInfo info => exact .inl ⟨_, _, .setInfo info, trivial⟩
  | clearWs => exact .inl ⟨_, _, .clearWs, trivial⟩
  | reader => exact .inl ⟨_, _, .reader, trivial⟩
  | cancelReader c => exact .inl ⟨_, _, .cancelReader c, trivial⟩
  | clearReader => exact .inl ⟨_, _, .clearReader, trivial⟩

/-- The task that runs can go on. -/
theorem runner_moves (hreach : L.Reach machine Invocation.code Calm init) {i : Nat}
    (hrun : L.running = some i) : ∃ L', Moves L L' := by
  obtain ⟨t, ht⟩ := hreach.runner hrun
  obtain ⟨s, running, ts⟩ := L
  obtain rfl : running = some i := hrun
  cases hrest : t.rest with
  | ret a => exact ⟨_, .finish i, ⟨trivial, trivial⟩, trivial, .finish ht hrest⟩
  | op op k =>
      rcases acts_or_begins i s op with ⟨r, s', hacts, hfriendly⟩ | ⟨s', hbegins⟩
      · exact ⟨_, .act i ⟨op, r⟩, ⟨hfriendly, trivial⟩, trivial, .act ht hrest hacts⟩
      · exact ⟨_, .await i op, ⟨trivial, trivial⟩, trivial, .await ht hrest hbegins⟩

/-- What a reader can do, somebody can. -/
theorem moves_of_ambient (hrun : L.running = none) {b : ReaderStep} {s' : Link}
    (h : Ambient L.state b s') (hfriendly : Friendly L.state (.ambient b))
    (hheeded : Heeded L.state s' (.ambient b)) : ∃ L', Moves L L' := by
  obtain ⟨s, running, ts⟩ := L
  obtain rfl : running = none := hrun
  exact ⟨_, .ambient b, ⟨hfriendly, trivial⟩, hheeded, .ambient h⟩

/-- A task that can be resumed. -/
theorem moves_of_resume (hreach : L.Reach machine Invocation.code Calm init)
    (hrun : L.running = none) {i : Nat} {t : NetTask} {op : NetOp} {r : NetAns op} {s' : Link}
    (ht : L.tasks[i]? = some t) (hop : (t.journal spots).station.op = some op)
    (h : Resumes i L.state ⟨op, r⟩ s') (hcalm : Calm L (.resume i ⟨op, r⟩)) :
    ∃ L', Moves L L' := by
  obtain ⟨L', hstep⟩ := spots_exact.resumes hreach hrun ht hop h
  exact ⟨L', _, hcalm, trivial, hstep⟩

/-- A frame on its way arrives, or has arrived. -/
theorem moves_of_sending (hreach : L.Reach machine Invocation.code Calm init)
    (hrun : L.running = none) {i : Nat} {t : NetTask} {c : Conn} {frame : Frame}
    (ht : L.tasks[i]? = some t) (hop : (t.journal spots).station.op = some (.send c frame))
    (h : Sending L.state i c frame) : ∃ L', Moves L L' := by
  rcases h with hqueued | ⟨hsent, -⟩
  · obtain ⟨L', hstep⟩ := spots_exact.stirs hreach hrun ht hop (.transmit hqueued)
    exact ⟨L', .stir i (.send c frame), ⟨trivial, trivial⟩, trivial, hstep⟩
  · exact moves_of_resume hreach hrun ht hop (.send c frame hsent) ⟨trivial, trivial⟩

/-- A reader that has been cancelled ends. -/
theorem moves_of_joining (hreach : L.Reach machine Invocation.code Calm init)
    (hrun : L.running = none) {i : Nat} {t : NetTask} {c : Conn}
    (ht : L.tasks[i]? = some t) (hop : (t.journal spots).station.op = some (.joinReader c))
    (hcancelled : L.state.cancelled c = true) : ∃ L', Moves L L' := by
  cases hreader : L.state.readers c with
  | created =>
      exact moves_of_ambient hrun (.startsCancelled hreader hcancelled) trivial trivial
  | reading w => exact moves_of_ambient hrun (.interrupted hreader hcancelled) trivial trivial
  | done raised =>
      cases raised with
      | none => exact moves_of_resume hreach hrun ht hop (.joinReader hreader) ⟨trivial, trivial⟩
      | some fault =>
          exact moves_of_resume hreach hrun ht hop (.joinReaderFails hreader) ⟨hreader, trivial⟩

omit [Endpoint] in
/-- What is enrolled is found. -/
theorem lookup_enrolled {s : Link} {ident : Nat} (h : Enrolled s ident) :
    ∃ f, lookup (.int ident) s.pending = some (ident, f) ∧ (ident, f) ∈ s.pending := by
  obtain ⟨f, hf⟩ := h
  have hself : (Json.int ident).pyEq (.int ident) = true := (Json.pyEq_self rfl).mpr nofun
  have hsome : (lookup (.int ident) s.pending).isSome = true :=
    List.find?_isSome.mpr ⟨(ident, f), hf, hself⟩
  obtain ⟨⟨m, f'⟩, hfound⟩ := Option.isSome_iff_exists.mp hsome
  have heq : (Json.int ident).pyEq (.int m) = true := by
    have hfirst := List.find?_some hfound
    exact hfirst
  have hm : (ident : Int) = m := pyEq_int heq
  obtain rfl : ident = m := Int.ofNat.inj hm
  exact ⟨f', hfound, List.mem_of_find?_eq_some hfound⟩

/-- An answer. -/
def answer (ident : Nat) (value : Json) : Dict := [("id", .int ident), ("result", value)]

omit [Endpoint] in
theorem receive_answer {ident : Nat} {pending : List (Nat × Future)} (value : Json)
    (h : lookup (.int ident) pending = some (ident, .waiting)) :
    receive pending (.obj (answer ident value)) =
      .ok (resolve ident (answer ident value) pending) := by
  have hid : (Dict.get? (answer ident value) "id").getD .null = .int ident := rfl
  simp only [receive]
  have hmethod : ¬ (Dict.get? (answer ident value) "method").isSome = true := fun h => by cases h
  rw [if_neg hmethod, hid]
  dsimp only
  rw [h]

/-- The server owes an answer. -/
theorem moves_of_awaiting (hreach : L.Reach machine Invocation.code Calm init)
    (hrun : L.running = none) {i : Nat} {t : NetTask} {q : Purpose} {c : Conn} {ident : Nat}
    (hinv : Sober L.state) (ht : L.tasks[i]? = some t)
    (hst : (t.journal spots).station = .awaiting q c ident)
    (h : Stays L.state i (.awaiting q c ident)) : ∃ L', Moves L L' := by
  obtain ⟨hfine, henrolled, hsent⟩ := h
  obtain ⟨f, hlookup, hmem⟩ := lookup_enrolled henrolled
  cases f with
  | failed failure => exact absurd (hinv.hopeful ident _ hmem) id
  | resolved message =>
      exact moves_of_resume hreach hrun ht (congrArg Station.op hst) (.awaitReply hmem)
        ⟨trivial, trivial⟩
  | waiting =>
      have hfine : Fine L.state c := by
        rcases hfine with hfine | hclear
        · exact hfine
        · cases q with
          | handshake => exact absurd hclear id
          | own method params => exact absurd hmem hclear
      rcases hfine.alive with hcreated | hreading
      · exact moves_of_ambient hrun (.starts hcreated hfine.cancelled hfine.ws) trivial trivial
      · refine moves_of_ambient hrun (.receives hreading (receive_answer .null hlookup)) ?_ ?_
        · intro w hw
          obtain rfl : c = w := Reader.reading.inj (hreading.symm.trans hw)
          exact ⟨answer ident .null, rfl,
            .inr ⟨rfl, rfl, rfl, ident, i, q.frame ident, rfl, hsent, rfl⟩⟩
        · intro hsame
          have hless : (resolve ident (answer ident .null) L.state.pending).countP isWaiting <
              L.state.pending.countP isWaiting := countP_resolve hmem
          have hsame : resolve ident (answer ident .null) L.state.pending = L.state.pending := hsame
          rw [hsame] at hless
          exact Nat.lt_irrefl _ hless

/-- Whoever waits, and not for the lock, can go on, or is helped. -/
theorem waiter_moves (hreach : L.Reach machine Invocation.code Calm init)
    (hrun : L.running = none) {i : Nat} {t : NetTask} (ht : L.tasks[i]? = some t)
    (hover : stationOver (t.journal spots).station = false)
    (hentering : (t.journal spots).station ≠ .entering) : ∃ L', Moves L L' := by
  have hO := (known_of_calm hreach).2
  have hfares : Fares L.state false i (t.journal spots) := hO.idle hrun ht
  have hstays := hfares.stays rfl
  cases hst : (t.journal spots).station with
  | entering => exact absurd hst hentering
  | ended r =>
      rw [hst] at hover
      cases hover
  | closing why k =>
      exact moves_of_resume hreach hrun ht (congrArg Station.op hst) (.closeTransport k)
        ⟨rfl, trivial⟩
  | joining why r =>
      rw [hst] at hstays
      exact moves_of_joining hreach hrun ht (congrArg Station.op hst) hstays.1.cancelled
  | opening =>
      exact moves_of_resume hreach hrun ht (congrArg Station.op hst) .openTransport
        ⟨trivial, trivial⟩
  | announcing c =>
      rw [hst] at hstays
      exact moves_of_sending hreach hrun ht (congrArg Station.op hst) hstays.2
  | sending q c ident =>
      rw [hst] at hstays
      exact moves_of_sending hreach hrun ht (congrArg Station.op hst) hstays.2.2
  | awaiting q c ident =>
      rw [hst] at hstays
      exact moves_of_awaiting hreach hrun hO.inv ht hst hstays
  | _ =>
      rw [hst] at hstays
      exact absurd hstays id

/-- **Where a call has not ended, somebody moves.** -/
theorem progress (hreach : L.Reach machine Invocation.code Calm init)
    (hstuck : ∀ L', ¬ Moves L L') : ∀ t ∈ L.tasks, Over t := by
  obtain ⟨hK, hO⟩ := known_of_calm hreach
  have hrun : L.running = none := by
    cases hrun : L.running with
    | none => rfl
    | some i =>
        obtain ⟨L', hmove⟩ := runner_moves hreach hrun
        exact absurd hmove (hstuck L')
  -- who has not ended is waiting for the lock
  have hwaiting : ∀ {i : Nat} {t : NetTask}, L.tasks[i]? = some t →
      stationOver (t.journal spots).station = true ∨ (t.journal spots).station = .entering := by
    intro i t ht
    by_contra hnot
    obtain ⟨hover, hentering⟩ := not_or.mp hnot
    obtain ⟨L', hmove⟩ := waiter_moves hreach hrun ht (Bool.eq_false_iff.mpr hover) hentering
    exact hstuck L' hmove
  intro t hmem
  obtain ⟨i, ht⟩ := List.getElem?_of_mem hmem
  rcases hwaiting ht with hover | hentering
  · cases hst : (t.journal spots).station with
    | ended r => exact ⟨_, rest_of_ended (hreach.run ht) hst⟩
    | _ =>
        rw [hst] at hover
        cases hover
  · -- nobody holds the lock, and every `close` has ended
    exfalso
    cases hholder : L.state.holder with
    | some j =>
        obtain ⟨p, ⟨u, hu, rfl⟩, hlocked⟩ := hK.held j hholder
        rcases hwaiting hu with hover | hthere
        · cases hst : (u.journal spots).station with
          | ended r =>
              rw [hst] at hlocked
              cases hlocked
          | _ =>
              rw [hst] at hover
              cases hover
        · rw [hthere] at hlocked
          cases hlocked
    | none =>
        have hclosed : ∀ u ∈ L.tasks, u.origin = .close →
            stationOver (u.journal spots).station = true := by
          intro u hu hclose
          obtain ⟨j, hj⟩ := List.getElem?_of_mem hu
          rcases hwaiting hj with hover | hthere
          · exact hover
          · have hfares : Fares L.state false j (u.journal spots) := hO.idle hrun hj
            rcases hfares.shut ((origin_journal u).trans hclose) with halone | hover
            · rw [hthere] at halone
              cases halone
            · exact hover
        obtain ⟨L', hmove⟩ := moves_of_resume hreach hrun ht (congrArg Station.op hentering)
          (.lock hholder) ⟨trivial, hclosed⟩
        exact hstuck L' hmove

/-- **Isolation**: as long as `close()` takes nothing from a call and no
call takes the lock before `close()` has ended, every call that ends has
got the server's answer to its own request, the calls at hand do not go on
for ever, and where nobody can move, all of them have ended. -/
theorem isolated (h : L.Reach machine Invocation.code Calm init) :
    Served L ∧ Acc (fun L' L => Moves L L') L ∧
      ((∀ L', ¬ Moves L L') → ∀ t ∈ L.tasks, Over t) :=
  ⟨served h, moves_acc h, progress h⟩

/-- A friendly step with which no `close()` begins. -/
def Unclosed (s : Link) (l : Label Invocation NetAns ReaderStep) : Prop :=
  Friendly s l ∧ l ≠ .invoke .close

/-- Where nobody has closed, that is calm. -/
theorem calm_of_open {l : Label Invocation NetAns ReaderStep}
    (hopen : ∀ i p, L.Peers spots i p → p.origin ≠ .close) (hl : Unclosed L.state l) :
    Calm L l := by
  refine ⟨hl.1, ?_⟩
  unfold Apart
  split
  · exact absurd rfl hl.2
  · intro t ht hclose
    obtain ⟨i, hi⟩ := List.getElem?_of_mem ht
    exact absurd ((origin_journal t).trans hclose) (hopen i _ ⟨t, hi, rfl⟩)
  · exact trivial

/-- Where nobody closes, everybody is calm. -/
theorem calm_of_unclosed (h : L.Reach machine Invocation.code (fun L => Unclosed L.state) init) :
    L.Reach machine Invocation.code Calm init ∧ ∀ i p, L.Peers spots i p → p.origin ≠ .close := by
  induction h with
  | init => exact ⟨.init, fun i p ⟨t, ht, _⟩ => by simp [Loop.init] at ht⟩
  | @step L L' l hprev hl hstep ih =>
      obtain ⟨hreach, hopen⟩ := ih
      refine ⟨.step hreach (calm_of_open hopen hl) hstep, fun i p hp => ?_⟩
      cases hstep.noted (S := spots) hreach with
      | @invoke o _ _ _ hwent =>
          rcases (hwent.2 i p).mp hp with ⟨-, rfl⟩ | ⟨-, hold⟩
          · rintro rfl
            exact hl.2 rfl
          · exact hopen i p hold
      | @act k e r _ hr _ _ _ hwent =>
          rcases (hwent.2 i p).mp hp with ⟨-, rfl⟩ | ⟨-, hold⟩
          · exact hopen k r hr
          · exact hopen i p hold
      | @resume k e r _ hr _ _ _ hwent =>
          rcases (hwent.2 i p).mp hp with ⟨-, rfl⟩ | ⟨-, hold⟩
          · exact hopen k r hr
          · exact hopen i p hold
      | await _ _ _ _ _ hpaused => exact hopen i p ((hpaused.2 i p).mp hp)
      | stir _ _ _ _ _ hpaused => exact hopen i p ((hpaused.2 i p).mp hp)
      | finish _ _ _ _ _ hpaused => exact hopen i p ((hpaused.2 i p).mp hp)
      | ambient _ _ _ hpaused => exact hopen i p ((hpaused.2 i p).mp hp)

omit [Endpoint] in
theorem unclosed_of_smooth (s : Link) (l : NetLabel) (h : Smooth l) : Unclosed s l := by
  refine ⟨?_, fun hl => by rw [hl] at h; exact h⟩
  unfold Friendly
  split
  · exact h
  · cases h
  · cases h
  · cases h
  · cases h
    rename_i h
    cases h
  · exact h.elim
  · cases h
  · exact h.elim
  · exact h.elim
  · exact h.elim
  · exact trivial

omit [Endpoint] in
/-- The answer to `initialize` is a proper one. -/
theorem unclosed_greeted : Unclosed listening (.ambient (.receives 0 (.ok (.obj greeted)))) := by
  refine ⟨fun w hw => ?_, nofun⟩
  cases hw
  exact ⟨greeted, rfl, .inr ⟨rfl, rfl, rfl, 1, 0, Purpose.handshake.frame 1, rfl,
    List.mem_cons_of_mem _ List.mem_cons_self, rfl⟩⟩

/-- It is connected, and nobody uses it. -/
structure Idle (s : Link) (c : Conn) : Prop where
  ws : s.ws = some c
  reader : s.reader = some c
  reading : s.readers c = .reading c
  closing : s.closing c = false
  free : s.holder = none
  pending : s.pending = []

omit [Endpoint] in
theorem idle_settled : Idle settled 0 := ⟨rfl, rfl, rfl, rfl, rfl, rfl⟩

/-- Its only request is in flight. -/
def asking (s : Link) (i : Nat) (c : Conn) (method : String) (params : Dict) : Link :=
  (s.registered i).transmitted i c ((Purpose.own method params).frame (s.counter + 1))

section Idle

variable {s : Link} {c : Conn} {i : Nat} {method : String} {params : Dict}

omit [Endpoint] in
theorem Idle.alive (h : Idle s c) : s.alive = true := by
  unfold Link.alive
  rw [h.reader]
  dsimp only
  rw [h.reading]

/-- A call sends its request. -/
theorem Idle.walk_asking (h : Idle s c) :
    Walk Unclosed i s (some i) ⟨.call method params, .entering⟩ (s.asking i c method params) none
      ⟨.call method params, .awaiting (.own method params) c (s.counter + 1)⟩ :=
  (walk_alive unclosed_of_smooth h.free h.alive).trans
    (walk_requesting unclosed_of_smooth h.ws h.closing)

/-- The server answers it. -/
theorem Idle.walk_answered (h : Idle s c) (value : Json) :
    ∃ s', Idle s' c ∧
      Walk Unclosed i (s.asking i c method params) none
        ⟨.call method params, .awaiting (.own method params) c (s.counter + 1)⟩ s' none
        ⟨.call method params, .ended (.ok value)⟩ := by
  have hpending : (s.asking i c method params).pending = [(s.counter + 1, .waiting)] := by
    show s.pending ++ [(s.counter + 1, .waiting)] = _
    rw [h.pending]
    rfl
  have hlookup : lookup (.int (s.counter + 1 : Nat)) (s.asking i c method params).pending =
      some (s.counter + 1, .waiting) := by
    rw [hpending]
    exact List.find?_cons_of_pos ((Json.pyEq_self rfl).mpr nofun)
  have hproper : Unclosed (s.asking i c method params)
      (.ambient (.receives c (.ok (.obj (answer (s.counter + 1) value))))) := by
    refine ⟨fun w hw => ?_, nofun⟩
    obtain rfl : c = w := Reader.reading.inj (h.reading.symm.trans hw)
    exact ⟨answer (s.counter + 1) value, rfl, .inr ⟨rfl, rfl, rfl, s.counter + 1, i, _, rfl,
      List.mem_append_right _ List.mem_cons_self, rfl⟩⟩
  have hwalk := walk_start Unclosed i (s.asking i c method params) none
    ⟨.call method params, .awaiting (.own method params) c (s.counter + 1)⟩
  have hwalk := hwalk.ambient (.receives c _) hproper
    (.receives h.reading (receive_answer value hlookup))
  have hmem : (s.counter + 1, .resolved (answer (s.counter + 1) value)) ∈
      resolve (s.counter + 1) (answer (s.counter + 1) value)
        (s.asking i c method params).pending := by
    rw [hpending]
    simp [resolve]
  have hwalk := hwalk.resume spots_exact rfl (unclosed_of_smooth _ _ ⟨_, rfl⟩) (.awaitReply hmem)
  have hwalk := hwalk.act spots_exact rfl ⟨trivial, nofun⟩ (.unregister (s.counter + 1))
  have hwalk := hwalk.finish (fun _ => nofun) ⟨trivial, nofun⟩
  refine ⟨_, ?_, hwalk⟩
  refine ⟨h.ws, h.reader, h.reading, h.closing, h.free, ?_⟩
  show (resolve _ _ (s.asking i c method params).pending).filter (fun p => p.1 ≠ s.counter + 1) = []
  rw [hpending]
  simp [resolve]

end Idle

/-- A call has been answered. -/
theorem shows_answered : ∃ s,
    spots.Shows machine Unclosed init s none [⟨.call "thread/list" [], .ended (.ok .null)⟩] := by
  have h : spots.Shows machine Unclosed init init none [] := Script.shows_init
  have h := h.invoke (.call "thread/list" []) ⟨trivial, nofun⟩
  have h := h.along (i := 0) rfl (walk_settled unclosed_of_smooth unclosed_greeted)
  have h := h.along (i := 0) rfl (walk_requesting unclosed_of_smooth rfl rfl)
  obtain ⟨s, -, hwalk⟩ := idle_settled.walk_answered .null
  exact ⟨s, h.along (i := 0) rfl hwalk⟩

end Moves

/-- A call that has been served. -/
theorem isolated_answered :
    let _ := Endpoint.sample
    ∃ L : NetLoop, L.tasks.map (·.journal spots) = [⟨.call "thread/list" [], .ended (.ok .null)⟩] ∧
      Served L := by
  intro _
  obtain ⟨s, L, hreach, -, -, hjs⟩ := shows_answered
  exact ⟨L, hjs, (isolated (calm_of_unclosed hreach).1).1⟩

end CodexRemoteBridge.Link
