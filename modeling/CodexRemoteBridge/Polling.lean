/-
  CodexRemoteBridge.Polling — how long `wait_thread` keeps asking.

  The loop of a wait has no bound of its own: what ends it is its deadline,
  which cancels what the task awaits when it strikes, and only that.  So the
  number of its requests rests on the clock, on the half second between two
  of them, and on that one cancellation coming through.

  Main result: `waitThread_polls`.
-/
import Mathlib.Algebra.Order.Ring.Rat
import Mathlib.Data.List.Chain
import Mathlib.Tactic.Linarith
import CodexRemoteBridge.Waiting

namespace CodexRemoteBridge

open Interaction

/-! ## §1. The clock of a wait. -/

/-- The times at which the requests of a wait were answered. -/
def requestTime : Event WaitAns → Option ℚ
  | ⟨.call _ _, (time, _)⟩ => some time
  | _ => none

def requestTimes (h : WaitHistory) : List ℚ := h.filterMap requestTime

/-- When a sleep that was left alone ended. -/
def sleptUntil : Event WaitAns → Option ℚ
  | ⟨.sleep, (time, false)⟩ => some time
  | _ => none

/-- The deadline that is armed. -/
def deadlineOf : Event WaitAns → Option ℚ
  | ⟨.arm seconds, (time, _)⟩ => some (time + seconds)
  | _ => none

/-- What is awaited has been cancelled: a sleep raises, and a request may do
with it what the code it runs through does. -/
def Interrupted : Event WaitAns → Prop
  | ⟨.sleep, (_, cancelled)⟩ => cancelled = true
  | ⟨.call _ _, _⟩ => True
  | _ => False

/-- A request that was cancelled has raised the cancellation. -/
def Raises : Event WaitAns → Prop
  | ⟨.call _ _, (_, reply)⟩ => reply = .error .cancelledError
  | _ => True

/-- What the event loop promises of `asyncio.sleep` and `asyncio.timeout`: a
sleep that is left alone lasts `nap`, and a deadline cancels the task once, by
`lag` after it struck.  The place of the await it cancels is `hit`. -/
structure Timed (nap lag : ℚ) (hit : Option Nat) (h : WaitHistory) : Prop where
  /-- The clock does not go back. -/
  forward : h.IsChain fun e e' => e.2.1 ≤ e'.2.1
  slept : h.IsChain fun e e' => ∀ time ∈ sleptUntil e', e.2.1 + nap ≤ time
  struck : ∀ i j e e', i < j → h[i]? = some e → h[j]? = some e' →
    ∀ deadline ∈ deadlineOf e, deadline + lag < e'.2.1 → ∃ n ≤ j, hit = some n
  cancels : ∀ n e, hit = some n → h[n]? = some e → Interrupted e

/-- The one cancellation reaches the wait: no request it is thrown into
swallows it, as `close` does where it awaits the reader it has cancelled. -/
def Delivered (hit : Option Nat) (h : WaitHistory) : Prop :=
  ∀ n e, hit = some n → h[n]? = some e → Raises e

/-- Any two requests are `nap` apart, and the deadline leaves room for so many
after the first. -/
structure Spaced (seconds nap lag : ℚ) (h : WaitHistory) : Prop where
  apart : (requestTimes h).Pairwise fun time time' => time + nap ≤ time'
  few : ∀ more, (requestTimes h).length = more + 1 → (more : ℚ) * nap ≤ seconds + lag

/-- What a wait may do next. -/
def Polls (threadId : String) : WaitOp → Prop
  | .call method params =>
      method = "thread/turns/list" ∧ Dict.get? params "threadId" = some (.str threadId)
  | .unrolled => False
  | _ => True

/-- A wait asks for the turns of its thread, at its pace, until its deadline. -/
structure Polite (threadId : String) (seconds nap lag : ℚ) (h : WaitHistory)
    (next : Option WaitOp) : Prop where
  asked : ∀ e ∈ h, Polls threadId e.1
  /-- The rounds that are unrolled are all there are. -/
  asks : ∀ op ∈ next, Polls threadId op
  spaced : Spaced seconds nap lag h

section Pace

variable {threadId turnId : String} {seconds nap lag armed : ℚ} {hit : Option Nat}
  {h : WaitHistory}

theorem getElem?_before {more : WaitHistory} {n : Nat} {e : Event WaitAns}
    (he : h[n]? = some e) : (h ++ more)[n]? = some e := by
  rw [List.getElem?_append_left (List.getElem?_eq_some_iff.mp he).1, he]

theorem Timed.of_append {more : WaitHistory} (ht : Timed nap lag hit (h ++ more)) :
    Timed nap lag hit h where
  forward := ht.forward.left_of_append
  slept := ht.slept.left_of_append
  struck := fun i j e e' hij he he' =>
    ht.struck i j e e' hij (getElem?_before he) (getElem?_before he')
  cancels := fun n e hn he => ht.cancels n e hn (getElem?_before he)

theorem Delivered.of_append {more : WaitHistory} (hd : Delivered hit (h ++ more)) :
    Delivered hit h := fun n e hn he => hd n e hn (getElem?_before he)

/-- The next event is no earlier than the last one. -/
theorem Timed.le_next {last next : Event WaitAns} (ht : Timed nap lag hit (h ++ [next]))
    (hlast : h.getLast? = some last) : last.2.1 ≤ next.2.1 :=
  (List.isChain_append.mp ht.forward).2.2 last hlast next rfl

theorem Timed.le_slept {last : Event WaitAns} {time : ℚ}
    (ht : Timed nap lag hit (h ++ [⟨.sleep, (time, false)⟩]))
    (hlast : h.getLast? = some last) : last.2.1 + nap ≤ time :=
  (List.isChain_append.mp ht.slept).2.2 last hlast _ rfl time rfl

/-- The cancellation is still to come. -/
def Awake (hit : Option Nat) (h : WaitHistory) : Prop := ∀ n, hit = some n → h.length ≤ n

/-- It stays so, unless it comes next. -/
theorem Awake.append (ha : Awake hit h) {e : Event WaitAns} (he : hit ≠ some h.length) :
    Awake hit (h ++ [e]) := by
  intro n hn
  have hle := ha n hn
  have hne : n ≠ h.length := fun heq => he (heq ▸ hn)
  rw [List.length_append, List.length_singleton]
  omega

theorem Timed.not_hit {e : Event WaitAns} (ht : Timed nap lag hit (h ++ [e]))
    (he : ¬ Interrupted e) : hit ≠ some h.length :=
  fun hn => he (ht.cancels _ _ hn List.getElem?_concat_length)

/-- A sleep that ended by itself ended before the deadline had struck. -/
theorem Timed.le_deadline {time : ℚ} (ht : Timed nap lag hit (h ++ [⟨.sleep, (time, false)⟩]))
    (ha : Awake hit h) {e : Event WaitAns} (he : e ∈ h) {deadline : ℚ}
    (hdeadline : deadlineOf e = some deadline) : time ≤ deadline + lag := by
  by_contra hlate
  obtain ⟨i, hi⟩ := List.mem_iff_getElem?.mp he
  obtain ⟨n, hn, hhit⟩ := ht.struck i h.length e _ (List.getElem?_eq_some_iff.mp hi).1
    (getElem?_before hi) List.getElem?_concat_length deadline hdeadline (not_le.mp hlate)
  have hlength : n = h.length := le_antisymm hn (ha n hhit)
  refine ht.not_hit ?_ (hlength ▸ hhit)
  exact Bool.false_ne_true

theorem requestTimes_append (h : WaitHistory) (e : Event WaitAns) :
    requestTimes (h ++ [e]) = requestTimes h ++ (requestTime e).toList := by
  unfold requestTimes
  rw [List.filterMap_append]
  cases he : requestTime e <;> simp [he]

/-- An event that is no request changes nothing about them. -/
theorem Spaced.append (hs : Spaced seconds nap lag h) {e : Event WaitAns}
    (he : requestTime e = none) : Spaced seconds nap lag (h ++ [e]) := by
  have htimes : requestTimes (h ++ [e]) = requestTimes h := by
    rw [requestTimes_append, he]
    exact List.append_nil _
  exact ⟨by rw [htimes]; exact hs.apart, by rw [htimes]; exact hs.few⟩

theorem spaced_nil : Spaced seconds nap lag [] :=
  ⟨List.Pairwise.nil, fun _ hmore => absurd hmore (Nat.zero_ne_add_one _)⟩

theorem spaced_of_times {times : List ℚ} (htimes : requestTimes h = times)
    (hapart : times.Pairwise fun time time' => time + nap ≤ time')
    (hfew : ∀ more, times.length = more + 1 → (more : ℚ) * nap ≤ seconds + lag) :
    Spaced seconds nap lag h := by
  subst htimes
  exact ⟨hapart, hfew⟩

/-! ## §2. One round. -/

/-- Where a round of the loop begins, after `rounds` of them: `nap` has passed
since each of the requests, and the deadline has not struck. -/
structure RoundStart (seconds nap lag armed : ℚ) (hit : Option Nat) (rounds : Nat)
    (h : WaitHistory) : Prop where
  awake : Awake hit h
  begun : ∃ mid, h = ⟨.arm seconds, (armed, ())⟩ :: mid
  length : (requestTimes h).length = rounds
  apart : (requestTimes h).Pairwise fun time time' => time + nap ≤ time'
  last : ∃ e, h.getLast? = some e ∧ armed + (rounds : ℚ) * nap ≤ e.2.1 ∧
    ∀ time ∈ requestTimes h, time + nap ≤ e.2.1
  within : rounds * nap ≤ seconds + lag

/-- Where its request has been answered. -/
structure Looked (seconds nap lag armed : ℚ) (rounds : Nat) (h : WaitHistory) : Prop where
  begun : ∃ mid, h = ⟨.arm seconds, (armed, ())⟩ :: mid
  length : (requestTimes h).length = rounds + 1
  apart : (requestTimes h).Pairwise fun time time' => time + nap ≤ time'
  last : ∃ e, h.getLast? = some e ∧ armed + (rounds : ℚ) * nap ≤ e.2.1 ∧
    ∀ time ∈ requestTimes h, time ≤ e.2.1
  within : rounds * nap ≤ seconds + lag

theorem RoundStart.spaced {rounds : Nat} (hnap : 0 < nap)
    (hr : RoundStart seconds nap lag armed hit rounds h) : Spaced seconds nap lag h := by
  refine ⟨hr.apart, fun more hmore => ?_⟩
  obtain rfl : rounds = more + 1 := hr.length.symm.trans hmore
  have hwithin := hr.within
  push_cast at hwithin
  linarith

theorem Looked.spaced {rounds : Nat} (hl : Looked seconds nap lag armed rounds h) :
    Spaced seconds nap lag h := by
  refine ⟨hl.apart, fun more hmore => ?_⟩
  obtain rfl : rounds = more := Nat.succ.inj (hl.length.symm.trans hmore)
  exact hl.within

/-- The request of a round. -/
theorem RoundStart.looked {rounds : Nat} (hnap : 0 < nap)
    (hr : RoundStart seconds nap lag armed hit rounds h) {e : Event WaitAns}
    (he : requestTime e = some e.2.1)
    (ht : Timed nap lag hit (h ++ [e])) :
    Looked seconds nap lag armed rounds (h ++ [e]) := by
  have htimes : requestTimes (h ++ [e]) = requestTimes h ++ [e.2.1] := by
    rw [requestTimes_append, he]
    rfl
  obtain ⟨last, hlast, hrounds, hbefore⟩ := hr.last
  have hle := ht.le_next hlast
  obtain ⟨mid, hmid⟩ := hr.begun
  exact {
    begun := ⟨mid ++ [e], by rw [hmid]; rfl⟩
    length := by rw [htimes, List.length_append, hr.length]; rfl
    apart := by
      rw [htimes, List.pairwise_append]
      refine ⟨hr.apart, List.pairwise_singleton _ _, ?_⟩
      intro time htime time' htime'
      obtain rfl := List.mem_singleton.mp htime'
      exact (hbefore time htime).trans hle
    last := by
      refine ⟨e, List.getLast?_concat, hrounds.trans hle, ?_⟩
      intro time htime
      rw [htimes] at htime
      rcases List.mem_append.mp htime with hold | hnew
      · linarith [hbefore time hold]
      · exact (List.mem_singleton.mp hnew).le
    within := hr.within }

/-- The sleep that follows it, if the deadline has not struck. -/
theorem Looked.roundStart {rounds : Nat} (hl : Looked seconds nap lag armed rounds h)
    (ha : Awake hit h) {time : ℚ} (ht : Timed nap lag hit (h ++ [⟨.sleep, (time, false)⟩])) :
    RoundStart seconds nap lag armed hit (rounds + 1) (h ++ [⟨.sleep, (time, false)⟩]) := by
  have htimes : requestTimes (h ++ [⟨.sleep, (time, false)⟩]) = requestTimes h := by
    rw [requestTimes_append]
    exact List.append_nil _
  obtain ⟨last, hlast, hrounds, hbefore⟩ := hl.last
  obtain ⟨mid, hmid⟩ := hl.begun
  have hslept := ht.le_slept hlast
  have hstruck : time ≤ armed + seconds + lag :=
    ht.le_deadline ha (by rw [hmid]; exact List.mem_cons_self) rfl
  have hpassed : armed + (rounds + 1 : Nat) * nap ≤ time := by
    push_cast
    linarith
  exact {
    awake := ha.append (ht.not_hit Bool.false_ne_true)
    begun := ⟨mid ++ [⟨.sleep, (time, false)⟩], by rw [hmid]; rfl⟩
    length := by rw [htimes, hl.length]
    apart := by rw [htimes]; exact hl.apart
    last := by
      refine ⟨_, List.getLast?_concat, hpassed, ?_⟩
      intro asked hasked
      rw [htimes] at hasked
      show asked + nap ≤ time
      linarith [hbefore asked hasked]
    within := by linarith }

/-! ## §3. The loop. -/

/-- The runs that keep their time, with the point condition of a polite wait. -/
abbrev TimedSpec (threadId : String) (seconds nap lag : ℚ) (hit : Option Nat) :
    OpSpec WaitAns WaitHistory :=
  observeOn (fun h e => Timed nap lag hit (h ++ [e]) ∧ Delivered hit (h ++ [e])) remember
    fun h op => Polls threadId op ∧ Spaced seconds nap lag h

/-- A look is one request; if it returns, it was not the one cancelled. -/
theorem wp_look_timed {latest : Option Json} {After : WaitHistory → Prop}
    (hs : Spaced seconds nap lag h) (ha : Awake hit h)
    (hafter : ∀ e : Event WaitAns, requestTime e = some e.2.1 →
      Timed nap lag hit (h ++ [e]) → After (h ++ [e])) :
    Co.wp (TimedSpec threadId seconds nap lag hit) (look threadId turnId)
      (fun _ _ h' => After h' ∧ Awake hit h') (fun _ _ h' => After h') latest h := by
  unfold look inspect Wait.call
  rw [Co.wp_bind, Co.wp_bind, Wait.wp_perform]
  refine ⟨⟨⟨rfl, rfl⟩, hs⟩, ?_⟩
  rintro ⟨time, reply⟩ ⟨ht, hd⟩
  have hafter := hafter _ rfl ht
  cases reply with
  | error e => exact hafter
  | ok page =>
      dsimp only
      rw [Co.wp_ofExcept]
      have hnot : hit ≠ some h.length := by
        intro hn
        have hraises : (Except.ok page : Except PyExc Json) = .error .cancelledError :=
          hd _ _ hn List.getElem?_concat_length
        cases hraises
      cases turnOn turnId page with
      | error e => exact hafter
      | ok found => exact ⟨hafter, ha.append hnot⟩

/-- The loop ends before its rounds do. -/
theorem wp_poll_timed (hnap : 0 < nap) (left : Nat) :
    ∀ {rounds : Nat} {latest : Option Json} {h : WaitHistory},
      RoundStart seconds nap lag armed hit rounds h → seconds + lag < (rounds + left : Nat) * nap →
      Co.wp (TimedSpec threadId seconds nap lag hit) (poll threadId turnId left)
        (fun _ _ h' => Spaced seconds nap lag h') (fun _ _ h' => Spaced seconds nap lag h')
        latest h := by
  induction left with
  | zero =>
      intro rounds latest h hr hleft
      -- the deadline has struck before the last of them begins
      exact absurd hr.within (not_le.mpr hleft)
  | succ left ih =>
      intro rounds latest h hr hleft
      unfold poll
      rw [Co.wp_bind]
      refine Co.wp_conseq (observeOn_mono _ _ _)
        (wp_look_timed (hr.spaced hnap) hr.awake fun e he ht => hr.looked hnap he ht) ?_ ?_
      · rintro _ latest h ⟨hl, ha⟩
        rw [Co.wp_bind, Co.wp_get, Co.wp_bind, Co.wp_ofExcept]
        cases settledNow latest with
        | error e => exact hl.spaced
        | ok done =>
            cases done with
            | true => exact hl.spaced
            | false =>
                show Co.wp _ (Wait.sleep >>= fun _ => poll threadId turnId left) _ _ _ _
                unfold Wait.sleep
                rw [Co.wp_bind, Wait.wp_perform]
                refine ⟨⟨trivial, hl.spaced⟩, ?_⟩
                rintro ⟨time, cancelled⟩ ⟨ht, -⟩
                cases cancelled with
                | true => exact hl.spaced.append rfl
                | false =>
                    refine ih (hl.roundStart ha ht) ?_
                    rwa [show rounds + 1 + left = rounds + (left + 1) by omega]
      · exact fun _ _ _ hl => hl.spaced

/-- The wait, from the start. -/
theorem wp_observeTurn_timed (hnap : 0 < nap) (hlag : 0 ≤ lag) (hseconds : 0 ≤ seconds)
    {rounds : Nat} (hrounds : seconds + lag < rounds * nap) :
    Co.wp (TimedSpec threadId seconds nap lag hit) (observeTurn threadId turnId rounds seconds)
      (fun _ _ h' => Spaced seconds nap lag h') (fun _ _ h' => Spaced seconds nap lag h')
      none [] := by
  unfold observeTurn
  by_cases hzero : seconds = 0
  · rw [if_pos hzero]
    have hawake : Awake hit [] := fun _ _ => Nat.zero_le _
    refine Co.wp_conseq (observeOn_mono _ _ _) (wp_look_timed spaced_nil hawake fun e he _ => ?_)
      (fun _ _ _ hs => hs.1) fun _ _ _ hs => hs
    have htimes : requestTimes ([] ++ [e]) = [e.2.1] := by
      rw [requestTimes_append, he]
      rfl
    refine spaced_of_times htimes (List.pairwise_singleton _ _) fun more hmore => ?_
    obtain rfl : 0 = more := Nat.succ.inj hmore
    push_cast
    linarith
  · rw [if_neg hzero, Co.wp_tryCatch]
    unfold Wait.timeout Wait.arm
    rw [Co.wp_bind, Wait.wp_perform]
    refine ⟨⟨trivial, spaced_nil⟩, ?_⟩
    rintro ⟨armed, ⟨⟩⟩ ⟨ht, -⟩
    have hstart : RoundStart seconds nap lag armed hit 0 [⟨.arm seconds, (armed, ())⟩] := {
      awake := Awake.append (fun _ _ => Nat.zero_le _) (ht.not_hit id)
      begun := ⟨[], rfl⟩
      length := rfl
      apart := List.Pairwise.nil
      last := by
        refine ⟨_, rfl, ?_, fun time htime => absurd htime List.not_mem_nil⟩
        show armed + ((0 : Nat) : ℚ) * nap ≤ armed
        push_cast
        linarith
      within := by
        push_cast
        linarith }
    show Co.wp _ (Co.tryCatch _ _) _ _ _ _
    rw [Co.wp_tryCatch]
    refine Co.wp_conseq (observeOn_mono _ _ _)
      (wp_poll_timed hnap rounds hstart (by rwa [Nat.zero_add])) (fun _ _ _ hs => hs) ?_
    intro e latest h hs
    cases e with
    | cancelledError =>
        show Co.wp _ (Wait.expired >>= _) _ _ _ _
        unfold Wait.expired
        rw [Co.wp_bind, Wait.wp_perform]
        refine ⟨⟨trivial, hs⟩, ?_⟩
        rintro ⟨struck, own⟩ -
        cases own with
        | false => exact hs.append rfl
        | true => exact hs.append rfl
    | exception cls message =>
        show Co.wp _ (if _ then _ else _) _ _ _ _
        by_cases htime : (PyExc.exception cls message).isTimeoutError = true
        · rw [if_pos htime]
          exact hs
        · rw [if_neg htime]
          exact hs
    | rpcError method error => exact hs
    | worktreeError message => exact hs

theorem wp_waitThread_timed (hnap : 0 < nap) (hlag : 0 ≤ lag) {rounds : Nat}
    (hrounds : seconds + lag < rounds * nap) :
    Co.wp (TimedSpec threadId seconds nap lag hit) (waitThread threadId turnId rounds seconds)
      (fun _ _ h' => Spaced seconds nap lag h') (fun _ _ h' => Spaced seconds nap lag h')
      none [] := by
  unfold waitThread
  rw [Co.wp_bind, Co.wp_ofExcept]
  cases nonempty threadId "thread_id" 128 with
  | error e => exact spaced_nil
  | ok _ =>
      dsimp only
      rw [Co.wp_bind, Co.wp_ofExcept]
      cases nonempty turnId "turn_id" 128 with
      | error e => exact spaced_nil
      | ok _ =>
          dsimp only
          by_cases hrange : 0 ≤ seconds ∧ seconds ≤ 50
          · rw [if_neg (not_not.mpr hrange), Co.wp_bind]
            refine Co.wp_conseq (observeOn_mono _ _ _)
              (wp_observeTurn_timed hnap hlag hrange.1 hrounds) ?_ (fun _ _ _ hs => hs)
            intro _ latest h hs
            rw [Co.wp_bind, Co.wp_get, Co.wp_bind, Co.wp_ofExcept]
            cases terminalAtEnd latest with
            | error e => exact hs
            | ok terminal => exact hs
          · rw [if_pos hrange]
            exact spaced_nil

/-- **Polling.**  However its requests are answered, a wait only asks for the
turns of its thread, `nap` passes between any two requests, and it has ended
before its deadline leaves room for another: all this if no request swallows
the one cancellation that the deadline has for it. -/
theorem waitThread_polls {rounds : Nat}
    {rest : Prog WaitOp WaitAns (Except PyExc Json × Option Json)} (hnap : 0 < nap) (hlag : 0 ≤ lag)
    (hrounds : seconds + lag < rounds * nap)
    (hrun : Run (waitThread threadId turnId rounds seconds none) h rest)
    (ht : Timed nap lag hit h) (hd : Delivered hit h) :
    Polite threadId seconds nap lag h rest.head? := by
  have hwp : Co.wp (TimedSpec threadId seconds nap lag hit)
      (waitThread threadId turnId rounds seconds)
      (fun _ _ h' => Spaced seconds nap lag h') (fun _ _ h' => Spaced seconds nap lag h')
      none [] := wp_waitThread_timed hnap hlag hrounds
  have hpoint : ∀ {pre : WaitHistory} {left}, Run (waitThread threadId turnId rounds seconds none)
      pre left → Timed nap lag hit pre → Delivered hit pre →
      (∀ op ∈ left.head?, Polls threadId op) ∧ Spaced seconds nap lag pre := by
    intro pre left hleft htimed hdelivered
    have hon : ∀ before e after, pre = before ++ e :: after →
        Timed nap lag hit (before ++ [e]) ∧ Delivered hit (before ++ [e]) := by
      rintro before e after rfl
      rw [← List.singleton_append, ← List.append_assoc] at htimed hdelivered
      exact ⟨htimed.of_append, hdelivered.of_append⟩
    have hend := wp_run_on hwp hleft fun before e after heq => by
      rw [foldl_remember, List.nil_append]
      exact hon before e after heq
    rw [foldl_remember, List.nil_append] at hend
    cases left with
    | ret ended =>
        refine ⟨fun op hop => (by cases hop), ?_⟩
        obtain ⟨result | result, latest⟩ := ended
        · exact hend
        · exact hend
    | op op k =>
        refine ⟨fun op' hop => ?_, hend.1.2⟩
        obtain rfl := Option.some.inj hop
        exact hend.1.1
  obtain ⟨hasks, hspaced⟩ := hpoint hrun ht hd
  refine ⟨fun e he => ?_, hasks, hspaced⟩
  obtain ⟨pre, post, rfl⟩ := List.append_of_mem he
  obtain ⟨k, hk, -⟩ := hrun.split rfl
  exact (hpoint hk ht.of_append hd.of_append).1 e.1 rfl

end Pace

/-- A wait of one second that sees the turn in progress twice. -/
def askedTwice : WaitHistory :=
  [⟨.arm 1, (0, ())⟩, ⟨listTurns, (0, .ok (.obj [("data", .arr [inProgress])]))⟩,
   ⟨.sleep, (1 / 2, false)⟩, ⟨listTurns, (1 / 2, .ok (.obj [("data", .arr [inProgress])]))⟩,
   ⟨.sleep, (1, true)⟩, ⟨.expired, (1, true)⟩]

theorem timed_askedTwice : Timed (1 / 2) 0 (some 4) askedTwice where
  forward := by
    simp only [askedTwice, List.isChain_cons_cons, List.isChain_singleton, and_true]
    decide +kernel
  slept := by
    simp only [askedTwice, listTurns, sleptUntil, List.isChain_cons_cons, List.isChain_singleton,
      and_true]
    decide +kernel
  struck := by
    intro i j e e' _ he he' deadline hdeadline hlate
    have harmed : ∀ e ∈ askedTwice, ∀ deadline ∈ deadlineOf e, deadline = 1 := by
      simp [askedTwice, listTurns, deadlineOf]
    have htimes : ∀ e ∈ askedTwice, e.2.1 ≤ 1 := by
      simp only [askedTwice, listTurns, List.forall_mem_cons]
      decide +kernel
    have htime := htimes e' (List.mem_of_getElem? he')
    rw [harmed e (List.mem_of_getElem? he) deadline hdeadline] at hlate
    linarith
  cancels := by
    intro n e hn he
    obtain rfl := Option.some.inj hn
    obtain rfl := Option.some.inj he
    rfl

theorem delivered_askedTwice : Delivered (some 4) askedTwice := by
  intro n e hn he
  obtain rfl := Option.some.inj hn
  obtain rfl := Option.some.inj he
  trivial

theorem waitThread_polls_askedTwice :
    Polite "t" 1 (1 / 2) 0 askedTwice none := by
  have hrun : Run (waitThread "t" "u" 3 1 none) askedTwice
      (.ret (.ok (reportOf "t" "u" (some inProgress) false), some inProgress)) := by
    have harm := Run.step (ρ := WaitAns) (i := .arm 1) (0, ())
      (Run.start (p := waitThread "t" "u" 3 1 none))
    have hpage := Run.step (ρ := WaitAns) (i := listTurns)
      (0, .ok (.obj [("data", .arr [inProgress])])) harm
    have hslept := Run.step (ρ := WaitAns) (i := .sleep) (1 / 2, false) hpage
    have hpage' := Run.step (ρ := WaitAns) (i := listTurns)
      (1 / 2, .ok (.obj [("data", .arr [inProgress])])) hslept
    have hsleep := Run.step (ρ := WaitAns) (i := .sleep) (1, true) hpage'
    exact Run.step (ρ := WaitAns) (i := .expired) (1, true) hsleep
  exact waitThread_polls (by decide +kernel) (le_refl 0) (by decide +kernel) hrun timed_askedTwice
    delivered_askedTwice

end CodexRemoteBridge
