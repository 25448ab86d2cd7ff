/-
  CodexRemoteBridge.Handshake — what goes over a connection before the
  handshake is complete.

  Callers pass `connect` whenever a reader is alive, and the reader is
  started before the handshake; but the lock is held until the handshake
  has succeeded, or the transport's `close()` has been entered.

  Main result: `Link.handshake_first`.
-/
import CodexRemoteBridge.Correlation

namespace CodexRemoteBridge.Link

open Interaction

/-! ## §1. The handshake on the wire. -/

/-- `initialize` has been transmitted on `c`, and answered there with a
result. -/
def Promised (log : List Entry) (c : Conn) : Prop :=
  ∃ (before after : List Entry) (i ident : Nat) (message : Dict),
    log = before ++ .arrived c (.ok (.obj message)) :: after ∧
    .sent i c (Purpose.handshake.frame ident) ∈ before ∧
    Dict.get? message "method" = none ∧
    ((Dict.get? message "id").getD .null).pyEq (.int ident) = true ∧
    Dict.get? message "error" = none ∧ (Dict.get? message "result").isSome = true

/-- After that, `initialized` has been transmitted on `c`. -/
def Ready (log : List Entry) (c : Conn) : Prop :=
  ∃ before after i, log = before ++ .sent i c .initialized :: after ∧ Promised before c

/-- A frame that has no place in the handshake. -/
def Duly (frame : Frame) : Prop := frame.method ≠ "initialize" ∧ frame.method ≠ "initialized"

/-- Transmitting `initialize` on `c`. -/
def Entry.greets (c : Conn) : Entry → Bool
  | .sent _ c' frame => c' = c && frame.method = "initialize"
  | _ => false

/-- No `initialize` has been transmitted on `c`. -/
def Ungreeted (log : List Entry) (c : Conn) : Prop := log.filter (Entry.greets c) = []

/-- A response comes over the connection over which the request went. -/
def Replies (log : List Entry) (c : Conn) (raw : Except Fault Json) : Prop :=
  ∀ message ident, raw = .ok (.obj message) → Dict.get? message "method" = none →
    ((Dict.get? message "id").getD .null).pyEq (.int (ident : Nat)) = true →
    ∃ i frame, .sent i c frame ∈ log ∧ frame.id = some ident

/-- The calls are for other methods than the handshake's, and the peer
answers requests that it was sent. -/
def Orderly (s : Link) : Label Invocation NetAns ReaderStep → Prop
  | .invoke (.call method _) => method ≠ "initialize"
  | .ambient (.receives c raw) => ∀ w, s.readers c = .reading w → Replies s.log w raw
  | _ => True

section Log

variable {log es : List Entry} {c : Conn}

theorem Promised.append (h : Promised log c) (es : List Entry) : Promised (log ++ es) c := by
  obtain ⟨before, after, i, ident, message, rfl, hrest⟩ := h
  exact ⟨before, after ++ es, i, ident, message, by simp, hrest⟩

theorem Ready.append (h : Ready log c) (es : List Entry) : Ready (log ++ es) c := by
  obtain ⟨before, after, i, rfl, hrest⟩ := h
  exact ⟨before, after ++ es, i, by simp, hrest⟩

theorem Ungreeted.append (h : Ungreeted log c) (hes : Ungreeted es c) :
    Ungreeted (log ++ es) c := by
  unfold Ungreeted
  rw [List.filter_append, show log.filter (Entry.greets c) = [] from h,
    show es.filter (Entry.greets c) = [] from hes]
  rfl

/-- What is no transmission greets nobody. -/
theorem ungreeted_of_silent (hes : ∀ i c frame, .sent i c frame ∉ es) : Ungreeted es c := by
  refine List.filter_eq_nil_iff.mpr fun e he => ?_
  cases e with
  | sent i c' frame => exact absurd he (hes i c' frame)
  | _ => simp [Entry.greets]

/-- Two entries with one label, in a log where no label comes twice. -/
theorem eq_of_nodup_filterMap {γ : Type} {g : Entry → Option γ} {a b : Entry} {x : γ} :
    ∀ {log : List Entry}, (log.filterMap g).Nodup → a ∈ log → b ∈ log → g a = some x →
      g b = some x → a = b := by
  intro log
  induction log with
  | nil => intro _ ha
           cases ha
  | cons e log ih =>
      intro hnodup ha hb hga hgb
      have hmem : ∀ e' ∈ log, g e' = some x → x ∈ log.filterMap g := fun e' he' hg =>
        List.mem_filterMap.mpr ⟨e', he', hg⟩
      have hhead : ∀ e', e' ∈ log → g e' = some x → g e ≠ some x := by
        intro e' he' hg' hg
        rw [List.filterMap_cons_some hg] at hnodup
        exact (List.nodup_cons.mp hnodup).1 (hmem e' he' hg')
      have htail : (log.filterMap g).Nodup := by
        cases hg : g e with
        | none =>
            rw [List.filterMap_cons_none hg] at hnodup
            exact hnodup
        | some y =>
            rw [List.filterMap_cons_some hg] at hnodup
            exact (List.nodup_cons.mp hnodup).2
      rcases List.mem_cons.mp ha with rfl | ha'
      · rcases List.mem_cons.mp hb with rfl | hb'
        · rfl
        · exact absurd hga (hhead b hb' hgb)
      · rcases List.mem_cons.mp hb with rfl | hb'
        · exact absurd hgb (hhead a ha' hga)
        · exact ih htail ha' hb' hga hgb

/-- An identifier is transmitted by one task on one connection. -/
theorem sent_unique {i i' : Nat} {c' : Conn} {frame frame' : Frame} {ident : Nat}
    (h : (sentIds log).Nodup) (hs : .sent i c frame ∈ log) (hs' : .sent i' c' frame' ∈ log)
    (hid : frame.id = some ident) (hid' : frame'.id = some ident) :
    i = i' ∧ c = c' ∧ frame = frame' := by
  have heq : Entry.sent i c frame = .sent i' c' frame' := eq_of_nodup_filterMap h hs hs' hid hid'
  cases heq
  exact ⟨rfl, rfl, rfl⟩

/-- Where the last entry is not the one in question. -/
theorem split_of_append {before after : List Entry} {e e' : Entry}
    (h : log ++ [e'] = before ++ e :: after) :
    (∃ after', log = before ++ e :: after') ∨ log = before ∧ e' = e := by
  rcases List.eq_nil_or_concat after with rfl | ⟨after', last, rfl⟩
  · obtain ⟨hlog, he⟩ := List.append_inj' h rfl
    exact .inr ⟨hlog, List.singleton_inj.mp he⟩
  · rw [List.concat_eq_append, ← List.cons_append, ← List.append_assoc] at h
    exact .inl ⟨after', (List.append_inj' h rfl).1⟩

end Log

/-! ## §2. Who may find what. -/

/-- The current transport is ready, or is being closed. -/
def Safe (ws : Option Conn) (closing : Conn → Bool) (log : List Entry) : Prop :=
  ∀ c, ws = some c → Ready log c ∨ closing c = true

/-- There is no other current transport. -/
def OnlyWs (ws : Option Conn) (c : Conn) : Prop := ∀ c', ws = some c' → c' = c

theorem onlyWs_none (c : Conn) : OnlyWs none c := nofun

theorem safe_none (closing : Conn → Bool) (log : List Entry) : Safe none closing log := nofun

/-- The answer to `initialize` on `c`. -/
def Heard (log : List Entry) (c : Conn) (ident : Nat) (message : Dict) : Prop :=
  ∃ before after i frame, log = before ++ .arrived c (.ok (.obj message)) :: after ∧
    .sent i c frame ∈ before ∧ frame.id = some ident ∧
    Dict.get? message "method" = none ∧
    ((Dict.get? message "id").getD .null).pyEq (.int ident) = true

theorem Heard.append {log : List Entry} {c : Conn} {ident : Nat} {message : Dict}
    (h : Heard log c ident message) (es : List Entry) : Heard (log ++ es) c ident message := by
  obtain ⟨before, after, i, frame, rfl, hrest⟩ := h
  exact ⟨before, after ++ es, i, frame, by simp, hrest⟩

/-- A request of the handshake. -/
def purposeLocked : Purpose → Bool
  | .handshake => true
  | .own _ _ => false

/-- The stations inside `async with self._connect_lock`. -/
def stationLocked : Station → Bool
  | .entering => false
  | .entered => true
  | .leaving _ => true
  | .shutting why => !errandAlone why
  | .closing why _ => !errandAlone why
  | .clearing why _ => !errandAlone why
  | .reading why _ => !errandAlone why
  | .cancelling why _ _ => !errandAlone why
  | .joining why _ => !errandAlone why
  | .forgetting why => !errandAlone why
  | .checking => true
  | .opening => true
  | .starting => true
  | .informing _ _ => true
  | .greeting _ => true
  | .announcing _ => true
  | .requesting q => purposeLocked q
  | .registering q _ => purposeLocked q
  | .sending q _ _ => purposeLocked q
  | .awaiting q _ _ => purposeLocked q
  | .withdrawing q _ _ _ => purposeLocked q
  | .ended _ => false

/-- The connection a task is about to use. -/
def stationConn : Station → Option Conn
  | .registering _ c => some c
  | .sending _ c _ => some c
  | .announcing c => some c
  | _ => none

/-- What holds where a task runs. -/
def Runs (s : Link) (i : Nat) : Station → Prop
  | .entered => Safe s.ws s.closing s.log
  | .leaving _ => Safe s.ws s.closing s.log
  | .shutting .room => Safe s.ws s.closing s.log
  | .closing why k => errandAlone why = false → OnlyWs s.ws k
  | .reading why _ => errandAlone why = false → s.ws = none
  | .cancelling why _ _ => errandAlone why = false → s.ws = none
  | .joining why _ => errandAlone why = false → s.ws = none
  | .forgetting why => errandAlone why = false → s.ws = none
  | .checking => s.ws = none
  | .opening => s.ws = none
  | .starting => ∃ c, s.ws = some c ∧ Ungreeted s.log c
  | .informing c _ => OnlyWs s.ws c ∧ Promised s.log c
  | .greeting c => OnlyWs s.ws c ∧ Promised s.log c
  | .announcing c => OnlyWs s.ws c ∧ Promised s.log c
  | .requesting .handshake => ∃ c, s.ws = some c ∧ Ungreeted s.log c
  | .registering .handshake c => s.ws = some c ∧ Ungreeted s.log c
  | .sending .handshake c _ => s.ws = some c ∧ Ungreeted s.log c
  | .awaiting .handshake c ident =>
      OnlyWs s.ws c ∧ .sent i c (Purpose.handshake.frame ident) ∈ s.log
  | .withdrawing .handshake c ident got =>
      OnlyWs s.ws c ∧ ∀ message, got = .ok message →
        ∃ before after i, s.log = before ++ .arrived c (.ok (.obj message)) :: after ∧
          .sent i c (Purpose.handshake.frame ident) ∈ before ∧
          Dict.get? message "method" = none ∧
          ((Dict.get? message "id").getD .null).pyEq (.int ident) = true
  | .requesting (.own _ _) => Safe s.ws s.closing s.log
  | .registering (.own _ _) c => Ready s.log c ∨ s.closing c = true
  | .sending (.own _ _) c _ => Ready s.log c ∨ s.closing c = true
  | _ => True

/-- What holds where a task waits. -/
def Waits (s : Link) (i : Nat) : Station → Prop
  | .closing why k => errandAlone why = false → OnlyWs s.ws k ∧ s.closing k = true
  | .joining why _ => errandAlone why = false → s.ws = none
  | .opening => s.ws = none
  | .announcing c =>
      OnlyWs s.ws c ∧ Promised s.log c ∧ (s.transit i = .sent → Ready s.log c)
  | .sending .handshake c ident =>
      OnlyWs s.ws c ∧ (∀ frame, s.transit i = .queued c frame → Ungreeted s.log c) ∧
        (s.transit i = .sent → .sent i c (Purpose.handshake.frame ident) ∈ s.log)
  | .sending (.own _ _) c _ => ∀ frame, s.transit i = .queued c frame → Ready s.log c
  | .awaiting .handshake c ident =>
      OnlyWs s.ws c ∧ .sent i c (Purpose.handshake.frame ident) ∈ s.log
  | _ => True

/-- What holds of one task. -/
structure Stands (s : Link) (running : Bool) (i : Nat) (p : Spot) : Prop where
  proper : ∀ method params, p.origin = .call method params → method ≠ "initialize"
  locked : stationLocked p.station = true → s.holder = some i
  conn : ∀ c, stationConn p.station = some c → c < s.opened
  runs : running = true → Runs s i p.station
  waits : running = false → Waits s i p.station

/-- What holds of the state. -/
structure Prepared (s : Link) : Prop where
  fresh : ∀ i c frame, .sent i c frame ∈ s.log → c < s.opened
  current : ∀ c, s.ws = some c → c < s.opened
  ordered : ∀ before i c frame after, s.log = before ++ .sent i c frame :: after → Duly frame →
    Ready before c
  once : ∀ c, (s.log.filter (Entry.greets c)).length ≤ 1
  safe : s.holder = none → Safe s.ws s.closing s.log
  answers : ∀ ident message, (ident, .resolved message) ∈ s.pending →
    ∃ c, Heard s.log c ident message

/-- The outline of the handshake. -/
def greeting : Outline Link Spot where
  Inv s _ := Prepared s
  Agree s running i p := Stands s running i p

/-! ## §3. What other tasks leave alone. -/

section Frame

variable {R : Nat → Spot → Prop} {s s' : Link} {i n : Nat} {p : Spot}

/-- The log, the transports and one task's transit move on. -/
structure Drift (s s' : Link) (i : Nat) : Prop where
  log : ∃ es, s'.log = s.log ++ es
  transit : s'.transit i = s.transit i
  closing : ∀ c, s.closing c = true → s'.closing c = true
  opened : s.opened ≤ s'.opened

/-- What nobody else does while a task holds the lock. -/
structure Guarded (s s' : Link) : Prop where
  holder : s'.holder = s.holder
  ws : s'.ws = s.ws ∨ s'.ws = none
  ungreeted : ∀ c, Ungreeted s.log c → Ungreeted s'.log c

theorem OnlyWs.guarded {c : Conn} (h : OnlyWs s.ws c) (hws : s'.ws = s.ws ∨ s'.ws = none) :
    OnlyWs s'.ws c := by
  rcases hws with heq | hnone
  · rw [heq]
    exact h
  · rw [hnone]
    exact onlyWs_none c

theorem none_guarded (h : s.ws = none) (hws : s'.ws = s.ws ∨ s'.ws = none) : s'.ws = none :=
  hws.elim (fun heq => heq.trans h) id

/-- A task that waits keeps what it knows. -/
theorem Stands.spared (h : Stands s false i p) (hd : Drift s s' i)
    (hguard : stationLocked p.station = true → Guarded s s') : Stands s' false i p where
  proper := h.proper
  locked := fun hl => (hguard hl).holder.trans (h.locked hl)
  conn := fun c hc => Nat.lt_of_lt_of_le (h.conn c hc) hd.opened
  runs := nofun
  waits := by
    intro _
    have hw := h.waits rfl
    obtain ⟨es, hes⟩ := hd.log
    obtain ⟨o, st⟩ := p
    cases st with
    | closing why k =>
        intro halone
        have hg : Guarded s s' := hguard (by simp [stationLocked, halone])
        obtain ⟨honly, hclosing⟩ := hw halone
        exact ⟨honly.guarded hg.ws, hd.closing k hclosing⟩
    | joining why r =>
        intro halone
        have hg : Guarded s s' := hguard (by simp [stationLocked, halone])
        exact none_guarded (hw halone) hg.ws
    | opening => exact none_guarded hw (hguard rfl).ws
    | announcing c =>
        obtain ⟨honly, hpromised, hsent⟩ := hw
        refine ⟨honly.guarded (hguard rfl).ws, ?_, fun htr => ?_⟩
        · rw [hes]
          exact hpromised.append es
        · rw [hes]
          exact (hsent (hd.transit.symm.trans htr)).append es
    | sending q c ident =>
        cases q with
        | handshake =>
            obtain ⟨honly, hqueued, hsent⟩ := hw
            have hg : Guarded s s' := hguard rfl
            refine ⟨honly.guarded hg.ws, fun frame htr => ?_, fun htr => ?_⟩
            · exact hg.ungreeted c (hqueued frame (hd.transit.symm.trans htr))
            · rw [hes]
              exact List.mem_append_left es (hsent (hd.transit.symm.trans htr))
        | own method params =>
            intro frame htr
            rw [hes]
            exact (hw frame (hd.transit.symm.trans htr)).append es
    | awaiting q c ident =>
        cases q with
        | handshake =>
            obtain ⟨honly, hsent⟩ := hw
            refine ⟨honly.guarded (hguard rfl).ws, ?_⟩
            rw [hes]
            exact List.mem_append_left es hsent
        | own method params => exact trivial
    | _ => exact trivial

/-- Two tasks are not both inside the lock. -/
theorem Stands.alone {running : Bool} {i' : Nat} {p' : Spot} (h : Stands s running i p)
    (hl : stationLocked p.station = true) (h' : Stands s false i' p') (hne : i' ≠ i) :
    stationLocked p'.station = true → Guarded s s' := by
  intro hl'
  have heq : some i' = some i := (h'.locked hl').symm.trans (h.locked hl)
  exact absurd (Option.some.inj heq) hne

/-- A step that leaves the log, the transports and the lock alone. -/
theorem Prepared.still (h : Prepared s) (hws : s'.ws = s.ws) (hholder : s'.holder = s.holder)
    (hlog : s'.log = s.log) (hclosing : ∀ c, s.closing c = true → s'.closing c = true)
    (hopened : s'.opened = s.opened) (hpending : s'.pending = s.pending) : Prepared s' where
  fresh := by
    rw [hlog, hopened]
    exact h.fresh
  current := by
    rw [hws, hopened]
    exact h.current
  ordered := by
    rw [hlog]
    exact h.ordered
  once := by
    rw [hlog]
    exact h.once
  safe := by
    rw [hws, hholder, hlog]
    exact fun hfree c hc => (h.safe hfree c hc).imp_right (hclosing c)
  answers := by
    rw [hlog, hpending]
    exact h.answers

/-- A step that writes to the log without a transmission. -/
theorem Prepared.write {e : Entry} (h : Prepared s) (hws : s'.ws = s.ws)
    (hholder : s'.holder = s.holder) (hlog : s'.log = s.log ++ [e])
    (hclosing : s'.closing = s.closing) (hopened : s'.opened = s.opened)
    (he : ∀ i c frame, e ≠ .sent i c frame)
    (hpending : ∀ ident message, (ident, .resolved message) ∈ s'.pending →
      (ident, .resolved message) ∈ s.pending ∨ ∃ c, Heard (s.log ++ [e]) c ident message) :
    Prepared s' where
  fresh := by
    rw [hlog, hopened]
    intro i c frame hmem
    rcases List.mem_append.mp hmem with hold | hlast
    · exact h.fresh i c frame hold
    · exact absurd (List.mem_singleton.mp hlast).symm (he i c frame)
  current := by
    rw [hws, hopened]
    exact h.current
  ordered := by
    intro before i c frame after hsplit hduly
    rw [hlog] at hsplit
    rcases split_of_append hsplit with ⟨after', hold⟩ | ⟨-, hlast⟩
    · exact h.ordered before i c frame after' hold hduly
    · exact absurd hlast (he i c frame)
  once := by
    intro c
    rw [hlog, List.filter_append]
    have hnone : [e].filter (Entry.greets c) = [] :=
      ungreeted_of_silent fun i c' frame hmem =>
        he i c' frame (List.mem_singleton.mp hmem).symm
    rw [hnone, List.append_nil]
    exact h.once c
  safe := by
    rw [hws, hholder, hlog, hclosing]
    exact fun hfree c hc => (h.safe hfree c hc).imp_left fun hready => hready.append _
  answers := by
    intro ident message hmem
    rw [hlog]
    rcases hpending ident message hmem with hold | hnew
    · obtain ⟨c, hheard⟩ := h.answers ident message hold
      exact ⟨c, hheard.append _⟩
    · exact hnew

theorem ungreeted_write {e : Entry} {c : Conn} (he : ∀ i c frame, e ≠ .sent i c frame)
    (h : Ungreeted s.log c) : Ungreeted (s.log ++ [e]) c :=
  h.append (ungreeted_of_silent fun i c' frame hmem =>
    he i c' frame (List.mem_singleton.mp hmem).symm)

/-- What a step keeps, part by part. -/
theorem greeting_keeps {running : Bool} (hinv : Prepared s') (hown : Stands s' running i p)
    (hd : ∀ i', i' ≠ i → Drift s s' i')
    (hguard : ∀ i' p', i' ≠ i → Stands s false i' p' → stationLocked p'.station = true →
      Guarded s s') : Outline.Keeps R greeting s s' n i running p :=
  ⟨hinv, hown, fun i' p' hne _ h => Stands.spared h (hd i' hne) (hguard i' p' hne h)⟩

theorem Drift.refl (s : Link) (i : Nat) : Drift s s i :=
  ⟨⟨[], (List.append_nil _).symm⟩, rfl, fun _ h => h, Nat.le_refl _⟩

theorem Guarded.refl (s : Link) : Guarded s s := ⟨rfl, .inl rfl, fun _ h => h⟩

/-- A step after which the state is as before. -/
theorem greeting_still {running : Bool} (hinv : Prepared s) (hown : Stands s running i p) :
    Outline.Keeps R greeting s s n i running p :=
  greeting_keeps hinv hown (fun i' _ => .refl s i') fun _ _ _ _ _ => .refl s

/-- A step that changes nothing of what is followed here. -/
theorem greeting_aside {running : Bool} (hinv : Prepared s) (hown : Stands s' running i p)
    (hws : s'.ws = s.ws ∨ s'.ws = none) (hholder : s'.holder = s.holder) (hlog : s'.log = s.log)
    (hclosing : ∀ c, s.closing c = true → s'.closing c = true) (hopened : s'.opened = s.opened)
    (hpending : s'.pending = s.pending) (htransit : ∀ i', i' ≠ i → s'.transit i' = s.transit i') :
    Outline.Keeps R greeting s s' n i running p := by
  refine greeting_keeps ?_ hown (fun i' hne => ?_) fun i' p' hne h hl => ?_
  · rcases hws with heq | hnone
    · exact hinv.still heq hholder hlog hclosing hopened hpending
    · exact
        { fresh := by
            rw [hlog, hopened]
            exact hinv.fresh
          current := by
            rw [hnone]
            exact nofun
          ordered := by
            rw [hlog]
            exact hinv.ordered
          once := by
            rw [hlog]
            exact hinv.once
          safe := by
            rw [hnone]
            exact fun _ => safe_none _ _
          answers := by
            rw [hlog, hpending]
            exact hinv.answers }
  · exact ⟨⟨[], by rw [hlog, List.append_nil]⟩, htransit i' hne, hclosing, hopened.symm.le⟩
  · exact ⟨hholder, hws, fun c hc => by rw [hlog]; exact hc⟩

/-- A task that runs on. -/
theorem Stands.go {running : Bool} {o : Invocation} {st st' : Station}
    (h : Stands s running i ⟨o, st⟩) (hholder : s'.holder = s.holder)
    (hlocked : stationLocked st' = true → stationLocked st = true)
    (hconn : ∀ c, stationConn st' = some c → c < s'.opened) (hruns : Runs s' i st') :
    Stands s' true i ⟨o, st'⟩ where
  proper := h.proper
  locked := fun hl => hholder.trans (h.locked (hlocked hl))
  conn := hconn
  runs := fun _ => hruns
  waits := nofun

/-- A task that begins to wait. -/
theorem Stands.wait {o : Invocation} {st : Station} (h : Stands s true i ⟨o, st⟩)
    (hholder : s'.holder = s.holder) (hopened : s'.opened = s.opened) (hwaits : Waits s' i st) :
    Stands s' false i ⟨o, st⟩ where
  proper := h.proper
  locked := fun hl => hholder.trans (h.locked hl)
  conn := by
    rw [hopened]
    exact h.conn
  runs := nofun
  waits := fun _ => hwaits

/-- `close` comes to its end. -/
theorem Stands.close {running : Bool} {o : Invocation} {st : Station} {why : Errand}
    (h : Stands s running i ⟨o, st⟩) (hst : stationLocked st = !errandAlone why)
    (r : Except PyExc Unit) (hholder : s'.holder = s.holder)
    (hsafe : errandAlone why = false → Safe s'.ws s'.closing s'.log)
    (hnone : ∀ u, r = .ok u → errandAlone why = false → s'.ws = none) :
    Stands s' true i ⟨o, Station.closed why r⟩ := by
  cases why with
  | alone =>
      cases r <;> exact h.go hholder nofun nofun trivial
  | room =>
      cases r with
      | ok u => exact h.go hholder (fun _ => hst) nofun (hnone u rfl rfl)
      | error e => exact h.go hholder (fun _ => hst) nofun (hsafe rfl)
  | failed e =>
      cases r with
      | ok u => exact h.go hholder (fun _ => hst) nofun (hsafe rfl)
      | error e' => exact h.go hholder (fun _ => hst) nofun (hsafe rfl)

end Frame

/-! ## §4. Every step keeps the handshake in order. -/

section Steps

variable {R : Nat → Spot → Prop} {s s' : Link} {n i : Nat} {o : Invocation}

/-- What `reply` makes of an answer to `initialize`. -/
theorem promised_of_reply {log : List Entry} {c : Conn} {ident : Nat} {message : Dict}
    {value : Json} (hreply : AppServer.reply Purpose.handshake.method message = .ok value)
    (h : ∃ before after i, log = before ++ .arrived c (.ok (.obj message)) :: after ∧
      .sent i c (Purpose.handshake.frame ident) ∈ before ∧
      Dict.get? message "method" = none ∧
      ((Dict.get? message "id").getD .null).pyEq (.int ident) = true) : Promised log c := by
  obtain ⟨before, after, i, hlog, hsent, hmethod, hid⟩ := h
  obtain ⟨herror, hresult⟩ := reply_ok hreply
  exact ⟨before, after, i, ident, message, hlog, hsent, hmethod, hid, herror, by rw [hresult]; rfl⟩

/-- A frame of one task goes out. -/
theorem greeting_transmit {st : Station} {c : Conn} {frame : Frame} (hinv : Prepared s)
    (h : Stands s false i ⟨o, st⟩) (hpurpose : ∀ method params,
      stationPurpose st = some (.own method params) → o = .call method params)
    (hop : st.op = some (.send c frame)) (hqueued : s.transit i = .queued c frame) :
    Outline.Keeps R greeting s
      { s with
        transit := Function.update s.transit i .sent
        log := s.log ++ [.sent i c frame] }
      n i false ⟨o, st⟩ := by
  have hw := h.waits rfl
  have hself : Function.update s.transit i Transit.sent i = .sent := Function.update_self ..
  have hopened : c < s.opened := by
    cases st with
    | announcing ws =>
        cases hop
        exact h.conn _ rfl
    | sending q ws ident =>
        cases hop
        exact h.conn _ rfl
    | _ => cases hop
  -- what is due comes after the handshake, and `initialize` comes first
  have hduly : Duly frame → Ready s.log c := by
    intro hduly
    cases st with
    | announcing ws =>
        cases hop
        exact absurd rfl hduly.2
    | sending q ws ident =>
        cases hop
        cases q with
        | handshake => exact absurd rfl hduly.1
        | own method params => exact hw _ hqueued
    | _ => cases hop
  have hgreets : frame.method = "initialize" → stationLocked st = true ∧ Ungreeted s.log c := by
    intro hmethod
    cases st with
    | announcing ws =>
        cases hop
        exact absurd hmethod (by decide)
    | sending q ws ident =>
        cases hop
        cases q with
        | handshake => exact ⟨rfl, hw.2.1 _ hqueued⟩
        | own method params =>
            exact absurd hmethod (h.proper method params (hpurpose method params rfl))
    | _ => cases hop
  refine greeting_keeps ?_ ?_ (fun i' hne => ?_) fun i' p' hne h' hl => ?_
  · refine
      { fresh := ?_
        current := hinv.current
        ordered := ?_
        once := ?_
        safe := fun hfree c' hc' => (hinv.safe hfree c' hc').imp_left fun hr => hr.append _
        answers := ?_ }
    · intro i' c' frame' hmem
      rcases List.mem_append.mp hmem with hold | hlast
      · exact hinv.fresh i' c' frame' hold
      · cases List.mem_singleton.mp hlast
        exact hopened
    · intro before i' c' frame' after hsplit hduly'
      rcases split_of_append hsplit with ⟨after', hold⟩ | ⟨hbefore, hlast⟩
      · exact hinv.ordered before i' c' frame' after' hold hduly'
      · cases hlast
        rw [← hbefore]
        exact hduly hduly'
    · intro c'
      show ((s.log ++ [Entry.sent i c frame]).filter (Entry.greets c')).length ≤ 1
      rw [List.filter_append]
      by_cases hnew : Entry.greets c' (Entry.sent i c frame) = true
      · obtain ⟨rfl, hmethod⟩ : c = c' ∧ frame.method = "initialize" := by
          simpa [Entry.greets] using hnew
        rw [show s.log.filter (Entry.greets c) = [] from (hgreets hmethod).2]
        exact List.length_filter_le _ _
      · have hnone : [Entry.sent i c frame].filter (Entry.greets c') = [] :=
          List.filter_eq_nil_iff.mpr fun e he => by
            rw [List.mem_singleton.mp he]
            exact hnew
        rw [hnone, List.append_nil]
        exact hinv.once c'
    · intro ident message hmem
      obtain ⟨c', hheard⟩ := hinv.answers ident message hmem
      exact ⟨c', hheard.append _⟩
  · refine ⟨h.proper, h.locked, h.conn, nofun, fun _ => ?_⟩
    cases st with
    | announcing ws =>
        cases hop
        obtain ⟨honly, hpromised, -⟩ := hw
        exact ⟨honly, hpromised.append _, fun _ => ⟨s.log, [], i, rfl, hpromised⟩⟩
    | sending q ws ident =>
        cases hop
        cases q with
        | handshake =>
            refine ⟨hw.1, fun frame htr => ?_, fun _ => ?_⟩
            · cases hself.symm.trans htr
            · exact List.mem_append_right _ List.mem_cons_self
        | own method params =>
            intro frame htr
            cases hself.symm.trans htr
    | _ => cases hop
  · exact ⟨⟨_, rfl⟩, Function.update_of_ne hne _ _, fun _ hc => hc, Nat.le_refl _⟩
  · by_cases hmethod : frame.method = "initialize"
    · exact h.alone (hgreets hmethod).1 h' hne hl
    · refine ⟨rfl, .inl rfl, fun c' hc' => ?_⟩
      refine hc'.append (List.filter_eq_nil_iff.mpr fun e he => ?_)
      rw [List.mem_singleton.mp he]
      simp [Entry.greets, hmethod]

/-- A step that writes to the log without a transmission. -/
theorem greeting_write {running : Bool} {p : Spot} {e : Entry} (hinv : Prepared s)
    (hown : Stands s' running i p) (hws : s'.ws = s.ws) (hholder : s'.holder = s.holder)
    (hlog : s'.log = s.log ++ [e]) (hclosing : s'.closing = s.closing)
    (hopened : s'.opened = s.opened) (htransit : s'.transit = s.transit)
    (he : ∀ i c frame, e ≠ .sent i c frame)
    (hpending : ∀ ident message, (ident, .resolved message) ∈ s'.pending →
      (ident, .resolved message) ∈ s.pending) :
    Outline.Keeps R greeting s s' n i running p := by
  refine greeting_keeps
    (hinv.write hws hholder hlog hclosing hopened he fun m message hmem =>
      .inl (hpending m message hmem)) hown (fun i' _ => ?_) fun _ _ _ _ _ => ?_
  · exact ⟨⟨[e], hlog⟩, by rw [htransit], fun c hc => by rw [hclosing]; exact hc,
      hopened.symm.le⟩
  · exact ⟨hholder, .inl hws, fun c hc => by rw [hlog]; exact ungreeted_write he hc⟩

/-- A message with an integer for its identifier. -/
theorem pyEq_int {a : Int} {b : Nat} (h : (Json.int a).pyEq (.int b) = true) : a = b := by
  have hvalue : ((a : ℚ) == ((b : ℤ) : ℚ)) = true := by
    simpa only [Json.pyEq, Json.numberEq, Json.number?] using h
  exact Rat.intCast_injective (eq_of_beq hvalue)

/-- The answer to the first request. -/
def greeted : Dict := [("id", .int 1), ("result", .obj [])]

/-- The answer to the first request may come when that has gone out. -/
theorem replies_greeted {log : List Entry} (h : .sent 0 0 (Purpose.handshake.frame 1) ∈ log) :
    Replies log 0 (.ok (.obj greeted)) := by
  intro message ident hraw _ hid
  cases hraw
  have heq : (1 : Int) = ident := pyEq_int hid
  obtain rfl : ident = 1 := by omega
  exact ⟨0, _, h, rfl⟩

section Act

variable [Endpoint] {p : Spot} {o : Invocation} {st : Station}

/-- Whoever leaves the lock after connecting leaves a safe connection. -/
theorem greeting_unlock (hinv : Prepared s) (h : Stands s true i ⟨o, st⟩)
    (hop : st.op = some .unlock) :
    Outline.Keeps R greeting s
      { s with holder := none }
      n i true (Spot.note ⟨o, st⟩ ⟨.unlock, ()⟩) := by
  have hr := h.runs rfl
  cases st with
  | leaving r =>
      have hsafe : Safe s.ws s.closing s.log := hr
      refine greeting_keeps ?_ ?_ (fun i' _ => ⟨⟨[], (List.append_nil _).symm⟩, rfl,
        fun _ hc => hc, Nat.le_refl _⟩) fun i' p' hne h' hl => h.alone rfl h' hne hl
      · exact
          { fresh := hinv.fresh
            current := hinv.current
            ordered := hinv.ordered
            once := hinv.once
            safe := fun _ => hsafe
            answers := hinv.answers }
      · have hout : ∀ st', stationLocked st' = false → stationConn st' = none →
            Runs { s with holder := none } i st' →
            Stands { s with holder := none } true i ⟨o, st'⟩ := by
          intro st' hl hc hruns
          refine ⟨h.proper, fun hl' => ?_, fun c hc' => ?_, fun _ => hruns, nofun⟩
          · rw [show stationLocked st' = false from hl] at hl'
            cases hl'
          · rw [show stationConn st' = none from hc] at hc'
            cases hc'
        cases r with
        | error e => cases o <;> exact hout _ rfl rfl trivial
        | ok u =>
            cases o with
            | call method params => exact hout _ rfl rfl hsafe
            | connect => exact hout _ rfl rfl trivial
            | close => exact hout _ rfl rfl trivial
  | _ => cases hop

theorem greeting_ws (hinv : Prepared s) (h : Stands s true i ⟨o, st⟩) (hop : st.op = some .ws) :
    Outline.Keeps R greeting s s n i true (Spot.note ⟨o, st⟩ ⟨.ws, s.ws⟩) := by
  have hr := h.runs rfl
  cases st with
  | shutting why =>
      refine greeting_still hinv ?_
      show Stands s true i ⟨o, Station.next o (.shutting why) ⟨.ws, s.ws⟩⟩
      cases hws : s.ws with
      | some k =>
          refine h.go rfl (fun hl => hl) nofun fun _ c hc => ?_
          rw [hws] at hc
          exact (Option.some.inj hc).symm
      | none => exact h.go rfl (fun hl => hl) nofun fun _ => hws
  | greeting c =>
      refine greeting_still hinv ?_
      show Stands s true i ⟨o, Station.next o (.greeting c) ⟨.ws, s.ws⟩⟩
      obtain ⟨honly, hpromised⟩ := hr
      cases hws : s.ws with
      | some w =>
          obtain rfl : w = c := honly w hws
          refine h.go rfl (fun _ => rfl) (fun c' hc' => ?_) ⟨honly, hpromised⟩
          obtain rfl : w = c' := Option.some.inj hc'
          exact hinv.current _ hws
      | none => exact h.go rfl (fun _ => rfl) nofun trivial
  | requesting q =>
      refine greeting_still hinv ?_
      show Stands s true i ⟨o, Station.next o (.requesting q) ⟨.ws, s.ws⟩⟩
      cases hws : s.ws with
      | some w =>
          refine h.go rfl (fun hl => hl) (fun c' hc' => ?_) ?_
          · obtain rfl : w = c' := Option.some.inj hc'
            exact hinv.current _ hws
          · cases q with
            | handshake =>
                obtain ⟨c, hc, hungreeted⟩ := hr
                obtain rfl := Option.some.inj (hws.symm.trans hc)
                exact ⟨hws, hungreeted⟩
            | own method params => exact hr w hws
      | none =>
          cases q with
          | handshake => exact h.go rfl (fun _ => rfl) nofun trivial
          | own method params => exact h.go rfl nofun nofun trivial
  | _ => cases hop

theorem greeting_register (hinv : Prepared s) (h : Stands s true i ⟨o, st⟩)
    (hop : st.op = some .register) :
    Outline.Keeps R greeting s
      { s with
        counter := s.counter + 1
        pending := s.pending ++ [(s.counter + 1, .waiting)]
        log := s.log ++ [.registered i (s.counter + 1)] }
      n i true (Spot.note ⟨o, st⟩ ⟨.register, s.counter + 1⟩) := by
  have hr := h.runs rfl
  cases st with
  | registering q c =>
      refine greeting_write hinv ?_ rfl rfl rfl rfl rfl rfl nofun fun m message hmem => ?_
      · refine h.go rfl (fun hl => hl) (fun c' hc' => h.conn c' hc') ?_
        cases q with
        | handshake => exact ⟨hr.1, ungreeted_write nofun hr.2⟩
        | own method params => exact hr.imp_left fun hready => hready.append _
      · rcases List.mem_append.mp hmem with hold | hlast
        · exact hold
        · cases List.mem_singleton.mp hlast
  | _ => cases hop

/-- A handshake that is answered keeps its promise. -/
theorem greeting_unregister {ident : Nat} (hinv : Prepared s) (h : Stands s true i ⟨o, st⟩)
    (hop : st.op = some (.unregister ident)) :
    Outline.Keeps R greeting s
      { s with
        pending := s.pending.filter fun p => p.1 ≠ ident
        log := s.log ++ [.unregistered ident] }
      n i true (Spot.note ⟨o, st⟩ ⟨.unregister ident, ()⟩) := by
  have hr := h.runs rfl
  cases st with
  | withdrawing q c ident' got =>
      refine greeting_write hinv ?_ rfl rfl rfl rfl rfl rfl nofun fun m message hmem =>
        (List.mem_filter.mp hmem).1
      show Stands _ true i ⟨o, Station.replied c q
        (got.bind fun message => AppServer.reply q.method message)⟩
      cases q with
      | own method params =>
          cases hgot : got.bind fun message =>
              AppServer.reply (Purpose.own method params).method message <;>
            exact h.go rfl nofun nofun trivial
      | handshake =>
          cases hgot : got.bind fun message =>
              AppServer.reply Purpose.handshake.method message with
          | error e => exact h.go rfl (fun _ => rfl) nofun trivial
          | ok value =>
              refine h.go rfl (fun _ => rfl) nofun ⟨hr.1, ?_⟩
              cases got with
              | error e => cases hgot
              | ok message =>
                  exact (promised_of_reply hgot (hr.2 message rfl)).append _
  | _ => cases hop

theorem greeting_reader (hinv : Prepared s) (h : Stands s true i ⟨o, st⟩)
    (hop : st.op = some .reader) :
    Outline.Keeps R greeting s s n i true (Spot.note ⟨o, st⟩ ⟨.reader, s.reader⟩) := by
  have hr := h.runs rfl
  cases st with
  | reading why c =>
      refine greeting_still hinv ?_
      show Stands s true i ⟨o, Station.next o (.reading why c) ⟨.reader, s.reader⟩⟩
      cases s.reader with
      | some r => exact h.go rfl (fun hl => hl) nofun hr
      | none =>
          refine h.close rfl (.ok ()) rfl (fun halone => ?_) fun _ _ halone => hr halone
          rw [hr halone]
          exact safe_none _ _
  | _ => cases hop

theorem greeting_clearReader (hinv : Prepared s) (h : Stands s true i ⟨o, st⟩)
    (hop : st.op = some .clearReader) :
    Outline.Keeps R greeting s
      { s with reader := none }
      n i true (Spot.note ⟨o, st⟩ ⟨.clearReader, ()⟩) := by
  have hr := h.runs rfl
  cases st with
  | forgetting why =>
      refine greeting_aside hinv ?_ (.inl rfl) rfl rfl (fun _ hc => hc) rfl rfl fun _ _ => rfl
      refine h.close rfl (.ok ()) rfl (fun halone => ?_) fun _ _ halone => hr halone
      rw [show s.ws = none from hr halone]
      exact safe_none _ _
  | _ => cases hop

theorem greeting_act {e : Event NetAns} (hinv : Prepared s) (h : Stands s true i p)
    (hmay : p.May e.1) (hacts : Acts i s e s') :
    Outline.Keeps R greeting s s' n i true (p.note e) := by
  obtain ⟨o, st⟩ := p
  have hop : st.op = some e.1 := hmay
  have hr := h.runs rfl
  cases hacts with
  | unlock => exact greeting_unlock hinv h hop
  | readerAlive =>
      cases st with
      | entered =>
          refine greeting_still hinv ?_
          show Stands s true i ⟨o, Station.next o .entered ⟨.readerAlive, s.alive⟩⟩
          cases s.alive <;> exact h.go rfl (fun _ => rfl) nofun hr
      | _ => cases hop
  | socketExists r =>
      cases st with
      | checking =>
          refine greeting_still hinv ?_
          match r with
          | .ok true => exact h.go rfl (fun _ => rfl) nofun hr
          | .ok false => exact h.go rfl (fun _ => rfl) nofun trivial
          | .error fault => exact h.go rfl (fun _ => rfl) nofun trivial
      | _ => cases hop
  | startReader =>
      cases st with
      | starting =>
          exact greeting_aside hinv (h.go rfl (fun _ => rfl) nofun hr) (.inl rfl) rfl rfl
            (fun _ hc => hc) rfl rfl fun _ _ => rfl
      | _ => cases hop
  | ws => exact greeting_ws hinv h hop
  | register => exact greeting_register hinv h hop
  | unregister ident => exact greeting_unregister hinv h hop
  | setInfo info =>
      cases st with
      | informing c info' =>
          exact greeting_aside hinv (h.go rfl (fun _ => rfl) nofun hr) (.inl rfl) rfl rfl
            (fun _ hc => hc) rfl rfl fun _ _ => rfl
      | _ => cases hop
  | clearWs =>
      cases st with
      | clearing why c =>
          exact greeting_aside hinv (h.go rfl (fun hl => hl) nofun fun _ => rfl) (.inr rfl) rfl
            rfl (fun _ hc => hc) rfl rfl fun _ _ => rfl
      | _ => cases hop
  | reader => exact greeting_reader hinv h hop
  | cancelReader r =>
      cases st with
      | cancelling why c r' =>
          exact greeting_aside hinv (h.go rfl (fun hl => hl) nofun hr) (.inl rfl) rfl rfl
            (fun _ hc => hc) rfl rfl fun _ _ => rfl
      | _ => cases hop
  | clearReader => exact greeting_clearReader hinv h hop

omit [Endpoint] in
theorem greeting_await {op : NetOp} (hinv : Prepared s) (h : Stands s true i p)
    (hmay : p.May op) (hbegins : Begins i s op s') :
    Outline.Keeps R greeting s s' n i false p := by
  obtain ⟨o, st⟩ := p
  have hop : st.op = some op := hmay
  have hr := h.runs rfl
  cases hbegins with
  | lock =>
      cases st with
      | entering => exact greeting_still hinv (h.wait rfl rfl trivial)
      | _ => cases hop
  | openTransport =>
      cases st with
      | opening => exact greeting_still hinv (h.wait rfl rfl hr)
      | _ => cases hop
  | awaitReply ident =>
      cases st with
      | awaiting q c ident' =>
          refine greeting_still hinv (h.wait rfl rfl ?_)
          cases q with
          | handshake => exact hr
          | own method params => exact trivial
      | _ => cases hop
  | joinReader c =>
      cases st with
      | joining why c' => exact greeting_still hinv (h.wait rfl rfl hr)
      | _ => cases hop
  | closeTransport c =>
      cases st with
      | closing why k =>
          cases hop
          have hclosing : ∀ k', s.closing k' = true →
              Function.update s.closing c true k' = true := by
            intro k' hk'
            by_cases heq : k' = c
            · rw [heq, Function.update_self]
            · rwa [Function.update_of_ne heq]
          exact greeting_aside hinv
            (h.wait rfl rfl fun halone => ⟨hr halone, Function.update_self ..⟩) (.inl rfl) rfl rfl
            hclosing rfl rfl fun _ _ => rfl
      | _ => cases hop
  | send c frame =>
      have hself : ∀ x, Function.update s.transit i x i = x := fun x => Function.update_self ..
      -- a transport that is being closed takes nothing
      have hqueued : ∀ frame', Function.update s.transit i
          (if s.closing c then Transit.refused else .queued c frame) i = .queued c frame' →
          s.closing c = false := by
        intro frame' htr
        rw [hself] at htr
        cases hclosing : s.closing c with
        | false => rfl
        | true =>
            rw [hclosing, if_pos rfl] at htr
            cases htr
      have hsent : Function.update s.transit i
          (if s.closing c then Transit.refused else .queued c frame) i ≠ .sent := by
        rw [hself]
        split <;> nofun
      refine greeting_aside hinv (h.wait rfl rfl ?_) (.inl rfl) rfl rfl (fun _ hc => hc) rfl rfl
        fun i' hne => Function.update_of_ne hne ..
      cases st with
      | announcing c' =>
          cases hop
          exact ⟨hr.1, hr.2, fun htr => absurd htr hsent⟩
      | sending q c' ident =>
          cases hop
          cases q with
          | handshake =>
              refine ⟨fun c'' hc'' => ?_, fun _ _ => hr.2, fun htr => absurd htr hsent⟩
              exact (Option.some.inj (hr.1.symm.trans hc'')).symm
          | own method params =>
              intro frame' htr
              rcases hr with hready | hclosing
              · exact hready
              · rw [hqueued frame' htr] at hclosing
                cases hclosing
      | _ => cases hop

/-- Whoever takes the lock finds a safe connection. -/
theorem greeting_lock (hfree : s.holder = none) (hinv : Prepared s) (h : Stands s false i ⟨o, st⟩)
    (hop : st.op = some .lock) :
    Outline.Keeps R greeting s
      { s with holder := some i }
      n i true (Spot.note ⟨o, st⟩ ⟨.lock, .ok ()⟩) := by
  have hw := h.waits rfl
  cases st with
  | entering =>
      have hsafe : Safe s.ws s.closing s.log := hinv.safe hfree
      refine greeting_keeps ?_ ?_ (fun i' _ => ⟨⟨[], (List.append_nil _).symm⟩, rfl,
        fun _ hc => hc, Nat.le_refl _⟩) fun i' p' hne h' hl => ?_
      · exact
          { fresh := hinv.fresh
            current := hinv.current
            ordered := hinv.ordered
            once := hinv.once
            safe := nofun
            answers := hinv.answers }
      · exact ⟨h.proper, fun _ => rfl, nofun, fun _ => hsafe, nofun⟩
      · have hholder := h'.locked hl
        rw [hfree] at hholder
        cases hholder
  | _ => cases hop

/-- Nothing has been sent on the new connection. -/
theorem greeting_openTransport (hinv : Prepared s) (h : Stands s false i ⟨o, st⟩)
    (hop : st.op = some .openTransport) :
    Outline.Keeps R greeting s
      { s with ws := some s.opened, opened := s.opened + 1 }
      n i true (Spot.note ⟨o, st⟩ ⟨.openTransport, .ok ()⟩) := by
  have hw := h.waits rfl
  cases st with
  | opening =>
      refine greeting_keeps ?_ ?_ (fun i' _ => ⟨⟨[], (List.append_nil _).symm⟩, rfl,
        fun _ hc => hc, Nat.le_succ _⟩) fun i' p' hne h' hl => h.alone rfl h' hne hl
      · refine
          { fresh := fun i' c frame hmem => Nat.lt_succ_of_lt (hinv.fresh i' c frame hmem)
            current := fun c hc => ?_
            ordered := hinv.ordered
            once := hinv.once
            safe := fun hfree => ?_
            answers := hinv.answers }
        · obtain rfl := Option.some.inj hc
          exact Nat.lt_succ_self _
        · have hholder : s.holder = some i := h.locked rfl
          rw [show s.holder = none from hfree] at hholder
          cases hholder
      · refine h.go rfl (fun _ => rfl) nofun ⟨s.opened, rfl, ?_⟩
        refine List.filter_eq_nil_iff.mpr fun e he => ?_
        cases e with
        | sent i' c frame =>
            have hlt := hinv.fresh i' c frame he
            have hne : c ≠ s.opened := Nat.ne_of_lt hlt
            simp [Entry.greets, hne]
        | _ => simp [Entry.greets]
  | _ => cases hop

theorem greeting_send {c : Conn} {frame : Frame} (hsent : s.transit i = .sent) (hinv : Prepared s)
    (h : Stands s false i ⟨o, st⟩) (hop : st.op = some (.send c frame)) :
    Outline.Keeps R greeting s
      { s with transit := Function.update s.transit i .idle }
      n i true (Spot.note ⟨o, st⟩ ⟨.send c frame, .ok ()⟩) := by
  have hw := h.waits rfl
  refine greeting_aside hinv ?_ (.inl rfl) rfl rfl (fun _ hc => hc) rfl rfl
    fun i' hne => Function.update_of_ne hne ..
  cases st with
  | announcing c' =>
      refine h.go rfl (fun _ => rfl) nofun fun c'' hc'' => .inl ?_
      obtain rfl := hw.1 c'' hc''
      exact hw.2.2 hsent
  | sending q c' ident =>
      refine h.go rfl (fun hl => hl) nofun ?_
      cases q with
      | handshake => exact ⟨hw.1, hw.2.2 hsent⟩
      | own method params => exact trivial
  | _ => cases hop

theorem greeting_sendFails {c : Conn} {frame : Frame} {fault : Fault} (hinv : Prepared s)
    (h : Stands s false i ⟨o, st⟩) (hop : st.op = some (.send c frame)) :
    Outline.Keeps R greeting s
      { s with transit := Function.update s.transit i .idle }
      n i true (Spot.note ⟨o, st⟩ ⟨.send c frame, .error fault⟩) := by
  have hw := h.waits rfl
  refine greeting_aside hinv ?_ (.inl rfl) rfl rfl (fun _ hc => hc) rfl rfl
    fun i' hne => Function.update_of_ne hne ..
  cases st with
  | announcing c' => exact h.go rfl (fun _ => rfl) nofun trivial
  | sending q c' ident =>
      refine h.go rfl (fun hl => hl) nofun ?_
      cases q with
      | handshake => exact ⟨hw.1, nofun⟩
      | own method params => exact trivial
  | _ => cases hop

/-- The answer to a handshake came on its own connection. -/
theorem greeting_awaitReply {ident : Nat} {message : Dict}
    (horder : Ordered s.log s.pending s.counter n) (hmem : (ident, .resolved message) ∈ s.pending)
    (hinv : Prepared s) (h : Stands s false i ⟨o, st⟩) (hop : st.op = some (.awaitReply ident)) :
    Outline.Keeps R greeting s s n i true (Spot.note ⟨o, st⟩ ⟨.awaitReply ident, .ok message⟩) := by
  have hw := h.waits rfl
  cases st with
  | awaiting q c ident =>
      cases hop
      refine greeting_still hinv (h.go rfl (fun hl => hl) nofun ?_)
      cases q with
      | own method params => exact trivial
      | handshake =>
          refine ⟨hw.1, fun message hmessage => ?_⟩
          obtain rfl := Except.ok.inj hmessage
          obtain ⟨c', before, after, i', frame, hlog, hsent, hid, hmethod, hident⟩ :=
            hinv.answers _ _ hmem
          -- the identifier has gone out once, so the answer came where it went
          have hsent' : .sent i' c' frame ∈ s.log := by
            rw [hlog]
            exact List.mem_append_left _ hsent
          obtain ⟨rfl, rfl, rfl⟩ := sent_unique horder.sentOnce hw.2 hsent' rfl hid
          exact ⟨before, after, i, hlog, hsent, hmethod, hident⟩
  | _ => cases hop

theorem greeting_resume {e : Event NetAns} (horder : Ordered s.log s.pending s.counter n)
    (hinv : Prepared s) (h : Stands s false i p) (hmay : p.May e.1)
    (hresumes : Resumes i s e s') :
    Outline.Keeps R greeting s s' n i true (p.note e) := by
  obtain ⟨o, st⟩ := p
  have hop : st.op = some e.1 := hmay
  have hw := h.waits rfl
  cases hresumes with
  | lock hfree => exact greeting_lock hfree hinv h hop
  | lockFails fault =>
      cases st with
      | entering => exact greeting_still hinv (h.go rfl nofun nofun trivial)
      | _ => cases hop
  | openTransport => exact greeting_openTransport hinv h hop
  | openTransportFails fault =>
      cases st with
      | opening => exact greeting_still hinv (h.go rfl (fun _ => rfl) nofun trivial)
      | _ => cases hop
  | send c frame hsent => exact greeting_send hsent hinv h hop
  | sendFails c frame fault => exact greeting_sendFails hinv h hop
  | awaitReply hmem => exact greeting_awaitReply horder hmem hinv h hop
  | awaitReplyFails hmem =>
      cases st with
      | awaiting q c ident =>
          refine greeting_still hinv (h.go rfl (fun hl => hl) nofun ?_)
          cases q with
          | handshake => exact ⟨hw.1, nofun⟩
          | own method params => exact trivial
      | _ => cases hop
  | awaitReplyTimesOut ident =>
      cases st with
      | awaiting q c ident' =>
          refine greeting_still hinv (h.go rfl (fun hl => hl) nofun ?_)
          cases q with
          | handshake => exact ⟨hw.1, nofun⟩
          | own method params => exact trivial
      | _ => cases hop
  | awaitReplyCancelled ident =>
      cases st with
      | awaiting q c ident' =>
          refine greeting_still hinv (h.go rfl (fun hl => hl) nofun ?_)
          cases q with
          | handshake => exact ⟨hw.1, nofun⟩
          | own method params => exact trivial
      | _ => cases hop
  | closeTransport c =>
      cases st with
      | closing why k => exact greeting_still hinv (h.go rfl (fun hl => hl) nofun trivial)
      | _ => cases hop
  | closeTransportFails c fault =>
      cases st with
      | closing why k =>
          refine greeting_still hinv (h.close rfl (.error _) rfl (fun halone c' hc' => ?_) nofun)
          obtain ⟨honly, hclosing⟩ := hw halone
          obtain rfl := honly c' hc'
          exact .inr hclosing
      | _ => cases hop
  | joinReader hdone =>
      cases st with
      | joining why r => exact greeting_still hinv (h.go rfl (fun hl => hl) nofun hw)
      | _ => cases hop
  | @joinReaderFails c fault hdone =>
      cases st with
      | joining why r =>
          refine greeting_still hinv ?_
          cases fault with
          | cancelled => exact h.go rfl (fun hl => hl) nofun hw
          | exception cls message =>
              refine h.close rfl (.error _) rfl (fun halone => ?_) nofun
              rw [show s.ws = none from hw halone]
              exact safe_none _ _
      | _ => cases hop
  | joinReaderCancelled c =>
      cases st with
      | joining why r => exact greeting_still hinv (h.go rfl (fun hl => hl) nofun hw)
      | _ => cases hop

omit [Endpoint] in
theorem greeting_ambient {b : ReaderStep} (hP : Orderly s (.ambient b)) (hinv : Prepared s)
    (h : Ambient s b s') :
    greeting.Inv s' n ∧ ∀ i p, Outline.Spares R greeting s s' i p := by
  -- the lock, the transports and the transits are left alone
  have hspares : ∀ {s' : Link} (es : List Entry), s'.ws = s.ws → s'.holder = s.holder →
      s'.log = s.log ++ es → s'.closing = s.closing → s'.opened = s.opened →
      s'.transit = s.transit → (∀ i c frame, .sent i c frame ∉ es) →
      ∀ i p, Outline.Spares R greeting s s' i p := by
    intro s' es hws hholder hlog hclosing hopened htransit hes i p _ hp
    refine Stands.spared hp ?_ fun _ => ?_
    · exact ⟨⟨es, hlog⟩, by rw [htransit], fun c hc => by rw [hclosing]; exact hc,
        hopened.symm.le⟩
    · exact ⟨hholder, .inl hws, fun c hc => by
        rw [hlog]
        exact hc.append (ungreeted_of_silent hes)⟩
  have hone : ∀ c raw i c' frame, Entry.sent i c' frame ∉ [Entry.arrived c raw] := by
    intro c raw i c' frame hmem
    cases List.mem_singleton.mp hmem
  have hfailed : ∀ {failure : String} {ident : Nat} {message : Dict},
      (ident, .resolved message) ∈ failAll failure s.pending →
      (ident, .resolved message) ∈ s.pending := by
    intro failure ident message hmem
    rcases mem_failAll hmem with hold | ⟨-, hf⟩
    · exact hold
    · cases hf
  -- the reader is over
  have hover : ∀ {s' : Link} (failure : String), s'.ws = s.ws → s'.holder = s.holder →
      s'.log = s.log → s'.closing = s.closing → s'.opened = s.opened →
      s'.transit = s.transit → s'.pending = failAll failure s.pending →
      greeting.Inv s' n ∧ ∀ i p, Outline.Spares R greeting s s' i p := by
    intro s' failure hws hholder hlog hclosing hopened htransit hpending
    refine ⟨?_, hspares [] hws hholder (by rw [hlog, List.append_nil]) hclosing hopened htransit
      fun _ _ _ => List.not_mem_nil⟩
    refine
      { fresh := by rw [hlog, hopened]; exact hinv.fresh
        current := by rw [hws, hopened]; exact hinv.current
        ordered := by rw [hlog]; exact hinv.ordered
        once := by rw [hlog]; exact hinv.once
        safe := by rw [hws, hholder, hlog, hclosing]; exact hinv.safe
        answers := fun m message hmem => ?_ }
    rw [hpending] at hmem
    rw [hlog]
    exact hinv.answers m message (hfailed hmem)
  cases h with
  | starts _ _ _ =>
      exact ⟨hinv.still rfl rfl rfl (fun _ hc => hc) rfl rfl,
        hspares [] rfl rfl (List.append_nil _).symm rfl rfl rfl fun _ _ _ => List.not_mem_nil⟩
  | startsCancelled _ _ =>
      exact ⟨hinv.still rfl rfl rfl (fun _ hc => hc) rfl rfl,
        hspares [] rfl rfl (List.append_nil _).symm rfl rfl rfl fun _ _ _ => List.not_mem_nil⟩
  | startsAlone _ _ _ =>
      exact ⟨hinv.still rfl rfl rfl (fun _ hc => hc) rfl rfl,
        hspares [] rfl rfl (List.append_nil _).symm rfl rfl rfl fun _ _ _ => List.not_mem_nil⟩
  | receivesBadly _ _ =>
      exact ⟨hinv.write rfl rfl rfl rfl rfl nofun fun m message hmem => .inl (hfailed hmem),
        hspares _ rfl rfl rfl rfl rfl rfl (hone _ _)⟩
  | receivesNoJson _ =>
      exact ⟨hinv.write rfl rfl rfl rfl rfl nofun fun m message hmem => .inl (hfailed hmem),
        hspares _ rfl rfl rfl rfl rfl rfl (hone _ _)⟩
  | ends _ => exact hover _ rfl rfl rfl rfl rfl rfl rfl
  | fails cls message _ => exact hover _ rfl rfl rfl rfl rfl rfl rfl
  | interrupted _ _ => exact hover _ rfl rfl rfl rfl rfl rfl rfl
  | receives hreading hreceive =>
      refine ⟨hinv.write rfl rfl rfl rfl rfl nofun fun m message hmem => ?_,
        hspares _ rfl rfl rfl rfl rfl rfl (hone _ _)⟩
      rcases receive_cases hreceive with rfl | ⟨message', ident, rfl, hmethod, hid, hwaiting, rfl⟩
      · exact .inl hmem
      · rcases mem_resolve hmem with hold | ⟨rfl, hf⟩
        · exact .inl hold
        · obtain rfl := Future.resolved.inj hf
          obtain ⟨i, frame, hsent, hfid⟩ := hP _ hreading message _ rfl hmethod hid
          exact .inr ⟨_, _, [], i, frame, rfl, hsent, hfid, hmethod, hid⟩

omit [Endpoint] in
theorem prepared_init : Prepared init where
  fresh := by simp [init]
  current := by simp [init]
  ordered := by simp [init]
  once := by simp [init]
  safe := by simp [init, Safe]
  answers := by simp [init]

/-- **Every step keeps the handshake in order.** -/
theorem greeting_sound :
    Outline.Sound machine spots (fun L => Orderly L.state) init (tally.Holds spots) greeting where
  init := prepared_init
  invoke := by
    intro L o _ hO hP _
    refine ⟨hO.inv, ?_⟩
    cases o with
    | close => exact ⟨nofun, nofun, nofun, fun _ => trivial, nofun⟩
    | connect => exact ⟨nofun, nofun, nofun, fun _ => trivial, nofun⟩
    | call method params =>
        refine ⟨fun method' params' ho => ?_, nofun, nofun, fun _ => trivial, nofun⟩
        cases ho
        exact hP
  act := fun _ hO _ hrun ht hmay hacts => greeting_act hO.inv (hO.runner hrun ht) hmay hacts
  await := fun _ hO _ hrun ht hmay hbegins =>
    greeting_await hO.inv (hO.runner hrun ht) hmay hbegins
  stir := by
    intro L s' i t op hK hO _ hrun ht hmay hstirs
    have htally : Tallies _ _ _ false i (t.journal spots) := hK.idle hrun ht
    cases hstirs with
    | transmit hqueued =>
        exact greeting_transmit hO.inv (hO.idle hrun ht) htally.purpose hmay hqueued
  resume := fun hK hO _ hrun ht hmay hresumes =>
    greeting_resume hK.inv hO.inv (hO.idle hrun ht) hmay hresumes
  finish := by
    intro L i t a _ hO hrun ht hends
    have h : Stands L.state true i (t.journal spots) := hO.runner hrun ht
    have hends : (t.journal spots).station = .ended a.1 := hends
    refine Stands.wait h rfl rfl ?_
    show Waits L.state i (t.journal spots).station
    rw [hends]
    exact trivial
  ambient := fun _ hO hP _ hambient => greeting_ambient hP hO.inv hambient

/-! ## §5. Handshake ordering. -/

/-- **Handshake ordering**: whatever is neither `initialize` nor
`initialized` goes out after the server has answered `initialize` on that
connection with a result and `initialized` has gone out on it; and
`initialize` goes out once on a connection. -/
theorem handshake_first {L : NetLoop}
    (h : L.Reach machine Invocation.code (fun L => Orderly L.state) init) :
    (∀ before i c frame after, L.state.log = before ++ .sent i c frame :: after → Duly frame →
      Ready before c) ∧
    ∀ c, (L.state.log.filter (Entry.greets c)).length ≤ 1 := by
  have hbase : ∀ L : NetLoop,
      L.Reach machine Invocation.code (fun L => Orderly L.state) init → tally.Holds spots L :=
    fun L hL => tally_sound.holds (fun _ _ => trivial) (hL.mono fun _ _ _ => trivial)
  have hinv : Prepared L.state := (greeting_sound.holds hbase h).inv
  exact ⟨hinv.ordered, hinv.once⟩

/-- The state after a handshake on the first connection. -/
def connected (info : Json) (log : List Entry) : Link where
  ws := some 0
  reader := some 0
  counter := 1
  pending := []
  holder := some 0
  info := info
  opened := 1
  closing := fun _ => false
  readers := Function.update (Function.update (fun _ => .done none) 0 .created) 0 (.reading 0)
  cancelled := fun _ => false
  transit := Function.update (Function.update (Function.update (fun _ => .idle) 0
    (.queued 0 (Purpose.handshake.frame 1))) 0 .sent) 0 .idle
  log := log

/-- What the handshake leaves in the log. -/
def greetingLog : List Entry :=
  [.registered 0 1, .sent 0 0 (Purpose.handshake.frame 1), .arrived 0 (.ok (.obj greeted)),
    .unregistered 1]

/-- The reader of the first connection has begun. -/
def listening : Link :=
  { knocked with readers := Function.update knocked.readers 0 (.reading 0) }

/-- `initialize` is answered. -/
theorem walk_greeted {P : Link → NetLabel → Prop} {o : Invocation}
    (hP : ∀ s l, Smooth l → P s l)
    (hgreeted : P listening (.ambient (.receives 0 (.ok (.obj greeted))))) :
    Walk P 0 init (some 0) ⟨o, .entering⟩ (connected (.obj []) greetingLog) (some 0)
      ⟨o, .informing 0 (.obj [])⟩ := by
  have h : Walk P 0 init (some 0) ⟨o, .entering⟩ _ _ _ := walk_knocking hP
  have h := h.ambient (.starts 0) (hP _ _ trivial) (.starts rfl rfl rfl)
  have h := h.ambient (.receives 0 (.ok (.obj greeted))) hgreeted (.receives rfl rfl)
  have h := h.resume spots_exact rfl (hP _ _ ⟨greeted, rfl⟩) (.awaitReply List.mem_cons_self)
  exact h.act spots_exact rfl (hP _ _ trivial) (.unregister 1)

omit [Endpoint] in
theorem orderly_of_smooth (s : Link) (l : NetLabel) (h : Smooth l) : Orderly s l := by
  unfold Orderly
  split
  · exact h.elim
  · exact h.elim
  · exact trivial

/-- A call whose request goes out. -/
theorem shows_called :
    ∃ s running ps, spots.Shows machine Orderly init s running ps ∧
      s.log = greetingLog ++ [.sent 0 0 .initialized, .registered 0 2,
        .sent 0 0 ⟨some 2, "thread/list", []⟩] := by
  have h : spots.Shows machine Orderly init init none [] := Script.shows_init
  have h := h.invoke (.call "thread/list" []) (show "thread/list" ≠ "initialize" by decide)
  have hgreeted : Orderly listening (.ambient (.receives 0 (.ok (.obj greeted)))) := by
    intro w hw
    cases hw
    exact replies_greeted (List.mem_cons_of_mem _ List.mem_cons_self)
  have h := h.along (i := 0) rfl (walk_greeted orderly_of_smooth hgreeted)
  have h := h.along (i := 0) rfl (walk_informing orderly_of_smooth rfl rfl (.obj []))
  have h := h.along (i := 0) rfl (walk_requesting orderly_of_smooth rfl rfl)
  exact ⟨_, _, _, h, rfl⟩

end Act

end Steps

/-- A request after the handshake. -/
theorem handshake_first_call : Ready
    (greetingLog ++ [.sent 0 0 .initialized, .registered 0 2]) 0 := by
  let _ := Endpoint.sample
  obtain ⟨s, running, ps, ⟨L, hreach, rfl, -, -⟩, hlog⟩ := shows_called
  refine (handshake_first hreach).1 _ 0 0 ⟨some 2, "thread/list", []⟩ [] ?_ ⟨by decide, by decide⟩
  rw [hlog]
  rfl

end CodexRemoteBridge.Link
