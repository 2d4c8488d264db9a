import Mathlib.Data.List.Infix

namespace PrefixTransfer
variable {Item : Type*} {source received : List Item}

-- What is under way: items, and where in the source the sender says they stand.
structure Piece (Item : Type*) where
  offset : Nat
  items : List Item
  deriving DecidableEq, Repr

def cut (source : List Item) (offset length : Nat) : Piece Item := ⟨offset,(source.drop offset).take length⟩

def Truthful (source : List Item) (piece : Piece Item) : Prop := piece.items <+: source.drop piece.offset

theorem cut_truthful : Truthful source (cut source offset length) := List.take_prefix _ _

theorem cut_length (fits : offset + length ≤ source.length) : (cut source offset length).items.length = length := by
  simp only [cut,List.length_take,List.length_drop]
  omega

-- However much a receiver takes of a piece that goes on where it stands, it has a front part of the source.
theorem taken_front (truthful : Truthful source piece) (here : piece.offset = received.length) (front : received <+: source) :
    received ++ piece.items.take taken <+: source := by
  obtain ⟨rest,rfl⟩ := front
  have remaining : piece.items <+: rest := by simpa [Truthful,here] using truthful
  exact List.prefix_append_right_inj received |>.mpr ((List.take_prefix _ _).trans remaining)

theorem whole (front : received <+: source) (all : source.length ≤ received.length) : received = source :=
  front.eq_of_length_le all

end PrefixTransfer
