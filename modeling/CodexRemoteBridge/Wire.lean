/-
  CodexRemoteBridge.Wire — a tool call down to the frames it sends.

  Every `rpc.call` and `rpc.close` of a tool is replaced by the coroutine
  of `AppServer` behind it; the other operations stay as they are.  What a
  tool begins at the level of calls bounds what it transmits
  (`ToolCall.emits_wire`), reconnects included.
-/
import CodexRemoteBridge.Dispatch
import CodexRemoteBridge.AppServer

namespace CodexRemoteBridge

open Interaction

/-- An operation of a tool call, with its requests taken apart. -/
inductive WireOp where
  | base (op : Op)
  | net (op : NetOp)

/-- What an operation is answered with. -/
abbrev WireAns : WireOp → Type
  | .base op => Ans op
  | .net op => NetAns op

/-- A coroutine of `AppServer` as part of a tool call. -/
def ofNet {α : Type} (c : Net α) : Prog WireOp WireAns (Except PyExc α) :=
  ((c ()).handle fun op => .op (.net op) .ret).bind fun r => .ret r.1

variable [Endpoint]

/-- The code behind an operation of a tool call. -/
def wire : (op : Op) → Prog WireOp WireAns (Ans op)
  | .call method params => ofNet (AppServer.call method params)
  | .close => ofNet AppServer.close
  | .acquire => .op (.base .acquire) .ret
  | .release => .op (.base .release) .ret
  | .isDir path => .op (.base (.isDir path)) .ret
  | .isFile path => .op (.base (.isFile path)) .ret
  | .pathExists path => .op (.base (.pathExists path)) .ret
  | .isSymlink path => .op (.base (.isSymlink path)) .ret
  | .resolve path => .op (.base (.resolve path)) .ret
  | .resolveThread path => .op (.base (.resolveThread path)) .ret
  | .mkdir path => .op (.base (.mkdir path)) .ret
  | .now => .op (.base .now) .ret
  | .select requestId => .op (.base (.select requestId)) .ret
  | .beginRow requestId fp receipt => .op (.base (.beginRow requestId fp receipt)) .ret
  | .update requestId receipt => .op (.base (.update requestId receipt)) .ret
  | .git cwd args => .op (.base (.git cwd args)) .ret
  | .enter requestId => .op (.base (.enter requestId)) .ret

/-- A tool call as the program that talks to the server. -/
def ToolCall.wire [Hashlib] (t : ToolCall) (requestId : String) :
    Prog WireOp WireAns (Except PyExc Dict × Dict) :=
  (t.prog requestId).handle CodexRemoteBridge.wire

/-- A specification of the operations, seen by a coroutine of `AppServer`. -/
def netSpec {M : Type} (Φ : OpSpec WireAns M) : OpSpec NetAns M := fun op Q => Φ (.net op) Q

omit [Endpoint] in
theorem wp_ofNet_eq {M α : Type} (Φ : OpSpec WireAns M) (c : Net α)
    (Q : Except PyExc α → M → Prop) :
    Interaction.wp Φ (ofNet c) Q
      = Co.wp (netSpec Φ) c (fun a _ m => Q (.ok a) m) (fun e _ m => Q (.error e) m) () := by
  unfold ofNet
  rw [Interaction.wp_bind, Interaction.wp_handle]
  show Interaction.wp (netSpec Φ) (c ()) _ = Interaction.wp (netSpec Φ) (c ()) _
  congr 1
  funext r
  obtain ⟨e | a, s⟩ := r <;> rfl

/-- An operation that is no request is performed as it is. -/
theorem wp_wire_base {M : Type} (Φ : OpSpec WireAns M) {op : Op}
    (hcall : ∀ method params, op ≠ .call method params) (hclose : op ≠ .close)
    (Q : Ans op → M → Prop) : Interaction.wp Φ (wire op) Q = Φ (.base op) Q := by
  cases op with
  | call method params => exact absurd rfl (hcall method params)
  | close => exact absurd rfl hclose
  | _ => rfl

namespace AppServer

omit [Endpoint]

variable {M α : Type} {Φ : OpSpec NetAns M} {X : PyExc → Unit → M → Prop}

theorem wp_perform (op : NetOp) (view : NetAns op → Except PyExc α) (Q : α → Unit → M → Prop)
    (s : Unit) :
    Co.wp Φ (perform op view) Q X s
      = Φ op fun r m =>
          match view r with
          | .ok a => Q a s m
          | .error e => X e s m := by
  unfold perform
  rw [Co.wp_bind, Co.wp_ask]
  congr 1
  funext r m
  rw [Co.wp_ofExcept]
  cases view r <;> rfl

end AppServer

/-! ## §1. What `AppServer` transmits. -/

/-- The effect of a frame. -/
def NetOp.effect : NetOp → Option Effect
  | .send _ frame => if frame.id.isSome then requestEffect frame.method else none
  | _ => none

/-- The effect an operation begins. -/
def WireOp.effect : WireOp → Option Effect
  | .base op => op.effect
  | .net op => op.effect

/-- The coroutine transmits requests of `L`, in that order, each at most
once. -/
abbrev Transmits {α : Type} (c : Net α) (L : List Effect) : Prop := c.Emits NetOp.effect L

namespace AppServer

omit [Endpoint]

theorem transmits_perform {α : Type} (op : NetOp) (view : NetAns op → Except PyExc α) :
    Transmits (perform op view) op.effect.toList := by
  have h := (Co.emits_ask (l := NetOp.effect) (ε := PyExc) (S := Unit) op).bind
    fun r => Co.emits_ofExcept (ρ := NetAns) (S := Unit) (view r)
  rwa [List.append_nil] at h

theorem transmits_ask {op : NetOp} (h : op.effect = none) :
    Transmits (Co.ask op : Net (NetAns op)) [] := by
  have ha : Transmits (Co.ask op : Net (NetAns op)) op.effect.toList := Co.emits_ask op
  rwa [h] at ha

theorem transmits_exchange (ws : Conn) (ident : Nat) (method : String) (params : Dict) :
    Transmits (exchange ws ident method params) (requestEffect method).toList := by
  unfold exchange
  rw [← List.append_nil (requestEffect method).toList]
  refine Co.Emits.tryCatch ?_ fun error => ?_
  · rw [← List.append_nil (requestEffect method).toList]
    exact (transmits_perform (.send ws ⟨some ident, method, params⟩) _).bind
      fun _ => transmits_perform (.awaitReply ident) _
  · split <;> exact Co.emits_throw _

/-- A request transmits its own frame, at most once. -/
theorem transmits_request (method : String) (params : Dict) :
    Transmits (request method params) (requestEffect method).toList := by
  unfold request
  refine (transmits_ask rfl).silent_bind fun ws => ?_
  cases ws with
  | none => exact (Co.emits_throw _).weaken
  | some ws =>
      refine (transmits_ask rfl).silent_bind fun ident => ?_
      rw [← List.append_nil (requestEffect method).toList]
      refine Co.Emits.bind ?_ fun message => Co.emits_ofExcept _
      rw [← List.append_nil (requestEffect method).toList]
      exact Co.Emits.tryFinally (transmits_exchange ws ident method params) (transmits_ask rfl)

theorem transmits_suppress {c : Net Unit} (h : Transmits c []) :
    Transmits (suppressCancelled c) [] := by
  refine Co.Emits.tryCatch h fun error => ?_
  split
  · exact Co.emits_pure _
  · exact Co.emits_throw _

/-- The end of `close`. -/
theorem transmits_closeReader : Transmits (do
    let reader ← reader
    match reader with
    | none => pure ()
    | some reader => do
        cancelReader reader
        suppressCancelled (joinReader reader)
        clearReader) [] := by
  refine (transmits_ask rfl).silent_bind fun reader => ?_
  cases reader with
  | none => exact Co.emits_pure _
  | some reader =>
      refine (transmits_ask rfl).silent_bind fun _ => ?_
      refine (transmits_suppress (transmits_perform (.joinReader reader) _)).silent_bind
        fun _ => ?_
      exact transmits_ask rfl

theorem transmits_close : Transmits close [] := by
  unfold close
  refine (transmits_ask rfl).silent_bind fun ws => ?_
  cases ws with
  | none => exact transmits_closeReader
  | some ws =>
      refine (transmits_perform (.closeTransport ws) _).silent_bind fun _ => ?_
      exact (transmits_ask rfl).silent_bind fun _ => transmits_closeReader

variable [Endpoint]

theorem transmits_establish : Transmits establish [] := by
  unfold establish
  refine (transmits_perform .socketExists _).silent_bind fun present => ?_
  split
  · exact Co.emits_throw _
  refine (transmits_perform .openTransport _).silent_bind fun _ => ?_
  refine (transmits_ask rfl).silent_bind fun _ => ?_
  refine (transmits_request "initialize" clientInfo).silent_bind fun info => ?_
  refine (transmits_ask rfl).silent_bind fun _ => ?_
  refine (transmits_ask rfl).silent_bind fun ws => ?_
  cases ws with
  | none => exact Co.emits_throw _
  | some ws => exact transmits_perform (.send ws ⟨none, "initialized", []⟩) _

/-- Connecting transmits no request but the handshake. -/
theorem transmits_connect : Transmits connect [] := by
  unfold connect
  refine (transmits_perform .lock _).silent_bind fun _ => ?_
  refine Co.Emits.tryFinally (L := []) (transmits_ask rfl |>.silent_bind fun alive => ?_)
    (transmits_ask rfl)
  split
  · exact Co.emits_pure _
  refine transmits_close.silent_bind fun _ => ?_
  refine Co.Emits.tryCatch (L := []) transmits_establish fun error => ?_
  exact transmits_close.silent_bind fun _ => Co.emits_throw _

/-- **Never resent**: a call transmits its own frame at most once, and no
other request but the handshake. -/
theorem transmits_call (method : String) (params : Dict) :
    Transmits (call method params) (requestEffect method).toList :=
  transmits_connect.silent_bind fun _ => transmits_request method params

end AppServer

/-! ## §2. What a tool transmits. -/

omit [Endpoint] in
theorem emits_ofNet {α : Type} {c : Net α} {L : List Effect} (h : Transmits c L) :
    Emits WireOp.effect (ofNet c) L := by
  rw [← List.append_nil L]
  refine Emits.bind ?_ fun r => .ret _ _
  refine Emits.handle (l := NetOp.effect) (fun op => ?_) (h ())
  cases hop : op.effect with
  | none => exact .silent hop fun _ => .ret _ _
  | some e => exact .label hop fun _ => .ret _ _

/-- An operation transmits no more than the effect it stands for. -/
theorem emits_wire (op : Op) : Emits WireOp.effect (wire op) op.effect.toList := by
  have hbase : ∀ op : Op, Emits WireOp.effect
      (.op (.base op) .ret : Prog WireOp WireAns (Ans op)) op.effect.toList := by
    intro op
    cases hop : op.effect with
    | none => exact .silent hop fun _ => .ret _ _
    | some e => exact .label hop fun _ => .ret _ _
  cases op with
  | call method params => exact emits_ofNet (AppServer.transmits_call method params)
  | close => exact emits_ofNet AppServer.transmits_close
  | _ => exact hbase _

variable [Hashlib]

/-- The frames and commands of a tool: each at most once, in a fixed order. -/
theorem ToolCall.emits_wire (t : ToolCall) (requestId : String) :
    Emits WireOp.effect (t.wire requestId) t.effects :=
  Emits.handle CodexRemoteBridge.emits_wire (t.begins_run requestId [])

end CodexRemoteBridge
