import Mathlib.Order.Lattice
import Mathlib.Data.List.Basic

namespace FramedRegions

inductive Side where
  | left
  | right
  | top
  | bottom
  deriving DecidableEq, Repr

-- A rectangle by its edges, the vertical axis pointing down.
abbrev Edges (K : Type*) := Side → K

variable {K : Type*} [LinearOrder K] {outer view inner edges : Edges K} {named : List Side} {x y : K}

def Beyond (edges : Edges K) (side : Side) (x y : K) : Prop :=
  match side with
  | .left => x < edges .left
  | .right => edges .right < x
  | .top => y < edges .top
  | .bottom => edges .bottom < y

def Covers (edges : Edges K) (x y : K) : Prop := ∀ side, ¬Beyond edges side x y

theorem covers_iff : Covers edges x y ↔ edges .left ≤ x ∧ x ≤ edges .right ∧ edges .top ≤ y ∧ y ≤ edges .bottom := by
  constructor
  · intro covers
    exact ⟨not_lt.mp (covers .left),not_lt.mp (covers .right),not_lt.mp (covers .top),not_lt.mp (covers .bottom)⟩
  · intro ⟨left,right,top,bottom⟩ side
    cases side with
    | left => exact not_lt.mpr left
    | right => exact not_lt.mpr right
    | top => exact not_lt.mpr top
    | bottom => exact not_lt.mpr bottom

instance (edges : Edges K) (x y : K) : Decidable (Covers edges x y) := decidable_of_iff' _ covers_iff

-- The even-odd rule over a path of rectangles.
def EvenOdd (path : List (Edges K)) (x y : K) : Prop := path.countP (Covers · x y) % 2 = 1

theorem evenOdd_nested (within : Covers inner x y → Covers outer x y) :
    EvenOdd [outer,inner] x y ↔ Covers outer x y ∧ ¬Covers inner x y := by
  unfold EvenOdd
  by_cases inside : Covers inner x y
  · simp [inside,within inside]
  · by_cases reached : Covers outer x y
    · simp [inside,reached]
    · simp [inside,reached]

-- The inner rectangle is flush with the view on the named sides and reaches the outer one on the others.
def Framed (named : List Side) (outer view inner : Edges K) : Prop :=
  ∀ side, inner side = if side ∈ named then view side else outer side

def Encloses (outer view : Edges K) : Prop := ∀ side x y, Beyond outer side x y → Beyond view side x y

theorem beyond_congr (same : inner side = edges side) : Beyond inner side x y ↔ Beyond edges side x y := by
  cases side <;> simp only [Beyond,same]

theorem framed_within (framed : Framed named outer view inner) (encloses : Encloses outer view)
    (covers : Covers inner x y) : Covers outer x y := by
  intro side beyond
  apply covers side
  by_cases here : side ∈ named
  · have flush : inner side = view side := by simpa [here] using framed side
    exact (beyond_congr flush).mpr (encloses side x y beyond)
  · have reaches : inner side = outer side := by simpa [here] using framed side
    exact (beyond_congr reaches).mpr beyond

theorem framed_outside (framed : Framed named outer view inner) (covers : Covers outer x y) :
    ¬Covers inner x y ↔ ∃ side ∈ named, Beyond view side x y := by
  constructor
  · intro outside
    obtain ⟨side,beyond⟩ := Classical.not_forall_not.mp outside
    by_cases here : side ∈ named
    · have flush : inner side = view side := by simpa [here] using framed side
      exact ⟨side,here,(beyond_congr flush).mp beyond⟩
    · have reaches : inner side = outer side := by simpa [here] using framed side
      exact absurd ((beyond_congr reaches).mp beyond) (covers side)
  · intro ⟨side,here,beyond⟩ inside
    have flush : inner side = view side := by simpa [here] using framed side
    exact inside side ((beyond_congr flush).mpr beyond)

end FramedRegions
