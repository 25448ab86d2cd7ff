/-
  CodexRemoteBridge.Lib.Channel — byte streams that may break, and the
  carriers between two of them.

  A channel hands out what has been put into it, in order.  Once broken it
  has lost the end of what it held and takes nothing more.  A carrier takes
  from one channel, holds what it has taken, and puts that into another; it
  may lose what it holds, and then carries nothing more.  Both say so in a
  field, so neither can be built out of order.
-/
import Mathlib.Data.List.Basic

namespace Conduit

variable {α : Type}

/-! ## §1. Channels. -/

/-- A first-in first-out channel of `α`. -/
structure Channel (α : Type) where
  /-- Everything that was ever put into it. -/
  put : List α
  /-- Everything that has come out. -/
  taken : List α
  /-- What is on the way. -/
  held : List α
  /-- The writer has closed its end. -/
  shut : Bool
  /-- It takes nothing more. -/
  broken : Bool
  fits : taken ++ held <+: put
  whole : broken = false → taken ++ held = put

namespace Channel

/-- A channel nobody has used. -/
def empty : Channel α where
  put := []
  taken := []
  held := []
  shut := false
  broken := false
  fits := List.prefix_rfl
  whole _ := rfl

/-- `xs` is written at one end. -/
def write (c : Channel α) (xs : List α) : Channel α where
  put := c.put ++ xs
  taken := c.taken
  held := if c.broken then c.held else c.held ++ xs
  shut := c.shut
  broken := c.broken
  fits := by
    cases hb : c.broken with
    | true =>
        show c.taken ++ c.held <+: c.put ++ xs
        exact c.fits.trans (List.prefix_append _ _)
    | false =>
        have hall : c.taken ++ (c.held ++ xs) = c.put ++ xs := by
          rw [← List.append_assoc, c.whole hb]
        exact ⟨[], by rw [List.append_nil]; exact hall⟩
  whole hb := by
    rw [hb]
    show c.taken ++ (c.held ++ xs) = c.put ++ xs
    rw [← List.append_assoc, c.whole hb]

/-- The first `n` elements come out at the other end. -/
def read (c : Channel α) (n : Nat) : Channel α where
  put := c.put
  taken := c.taken ++ c.held.take n
  held := c.held.drop n
  shut := c.shut
  broken := c.broken
  fits := by
    rw [List.append_assoc, List.take_append_drop]
    exact c.fits
  whole hb := by
    rw [List.append_assoc, List.take_append_drop]
    exact c.whole hb

/-- The writer closes its end. -/
def close (c : Channel α) : Channel α := { c with shut := true }

/-- All but the first `n` elements on the way are lost. -/
def lose (c : Channel α) (n : Nat) : Channel α where
  put := c.put
  taken := c.taken
  held := c.held.take n
  shut := c.shut
  broken := true
  fits := (List.prefix_append_right_inj c.taken |>.mpr (List.take_prefix n c.held)).trans c.fits
  whole hb := by cases hb

variable (c : Channel α)

@[simp] theorem put_write (xs : List α) : (c.write xs).put = c.put ++ xs := rfl
@[simp] theorem taken_read (n : Nat) : (c.read n).taken = c.taken ++ c.held.take n := rfl
@[simp] theorem held_read (n : Nat) : (c.read n).held = c.held.drop n := rfl
@[simp] theorem held_lose (n : Nat) : (c.lose n).held = c.held.take n := rfl

/-- What has come out is the beginning of what was put in. -/
theorem taken_prefix : c.taken <+: c.put := (List.prefix_append _ _).trans c.fits

/-- An emptied channel that has not broken has handed everything out. -/
theorem drained (hbroken : c.broken = false) (hheld : c.held = []) : c.taken = c.put := by
  have hwhole := c.whole hbroken
  rwa [hheld, List.append_nil] at hwhole

end Channel

/-! ## §2. Carriers. -/

/-- What carries from `source` to `sink`: what it has in hand, and what it
has lost. -/
structure Carrier (source sink : Channel α) where
  hand : List α
  dropped : List α
  exact : sink.put ++ hand ++ dropped = source.taken

namespace Carrier

variable {source sink : Channel α}

theorem put_prefix (c : Carrier source sink) : sink.put <+: source.taken := by
  rw [← c.exact, List.append_assoc]
  exact List.prefix_append _ _

/-- **Across a carrier the streams keep their order**: what comes out of the
second channel is the beginning of what was put into the first. -/
theorem in_order (c : Carrier source sink) : sink.taken <+: source.put :=
  (sink.taken_prefix.trans c.put_prefix).trans source.taken_prefix

/-- A carrier with empty hands that has dropped nothing has passed on all it
has taken. -/
theorem passed (c : Carrier source sink) (hhand : c.hand = []) (hdropped : c.dropped = []) :
    sink.put = source.taken := by
  have hexact := c.exact
  rwa [hhand, hdropped, List.append_nil, List.append_nil] at hexact

/-- What has been taken is accounted for. -/
theorem length_taken (c : Carrier source sink) :
    source.taken.length = sink.put.length + (c.hand.length + c.dropped.length) := by
  rw [← c.exact, List.length_append, List.length_append, Nat.add_assoc]

/-- Nothing has been taken yet. -/
def idle : Carrier (Channel.empty : Channel α) Channel.empty where
  hand := []
  dropped := []
  exact := rfl

/-- What happens at the far ends does not concern the carrier. -/
def along (c : Carrier source sink) {source' sink' : Channel α}
    (hsource : source'.taken = source.taken) (hsink : sink'.put = sink.put) :
    Carrier source' sink' where
  hand := c.hand
  dropped := c.dropped
  exact := by
    rw [hsource, hsink]
    exact c.exact

/-- It takes the next `n`, with nothing in hand and nothing lost. -/
def pick (c : Carrier source sink) (n : Nat) (hhand : c.hand = []) (hdropped : c.dropped = []) :
    Carrier (source.read n) sink where
  hand := source.held.take n
  dropped := []
  exact := by
    rw [List.append_nil, c.passed hhand hdropped]
    rfl

/-- It takes the next `n`, and loses them with what it had. -/
def spill (c : Carrier source sink) (n : Nat) : Carrier (source.read n) sink where
  hand := []
  dropped := c.hand ++ c.dropped ++ source.held.take n
  exact := by
    rw [List.append_nil, Channel.taken_read, ← c.exact]
    simp only [List.append_assoc]

/-- It puts the first `n` it has in hand. -/
def place (c : Carrier source sink) (n : Nat) : Carrier source (sink.write (c.hand.take n)) where
  hand := c.hand.drop n
  dropped := c.dropped
  exact := by
    rw [Channel.put_write, List.append_assoc sink.put, List.take_append_drop]
    exact c.exact

end Carrier

end Conduit
