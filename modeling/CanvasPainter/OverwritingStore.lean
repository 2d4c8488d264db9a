import Mathlib.Logic.Function.Basic
import Mathlib.Data.List.Basic
import Mathlib.Data.List.Induction

namespace OverwritingStore
variable {Item Key Name Value : Type*} {items : List Item} {item last : Item}
  {label : Item → Key} {other : Item → Name}

def LastUnder (label : Item → Key) (items : List Item) (last : Item) : Prop :=
  ∃ earlier later, items = earlier ++ last :: later ∧ ∀ item ∈ later, label item ≠ label last

theorem lastUnder_nil : ¬ LastUnder label [] last := by
  rintro ⟨earlier,later,split,_⟩
  simp at split

theorem lastUnder_concat : LastUnder label (items ++ [item]) last ↔
    last = item ∨ label last ≠ label item ∧ LastUnder label items last := by
  constructor
  · rintro ⟨earlier,later,split,unlabelled⟩
    rcases List.eq_nil_or_concat' later with rfl | ⟨front,final,rfl⟩
    · obtain ⟨_,equal⟩ := List.append_inj' split rfl
      exact .inl (List.head_eq_of_cons_eq equal).symm
    · rw [← List.cons_append,← List.append_assoc] at split
      obtain ⟨rfl,equal⟩ := List.append_inj' split rfl
      rw [List.head_eq_of_cons_eq equal]
      refine .inr ⟨(unlabelled final (by simp)).symm,earlier,front,rfl,?_⟩
      exact fun item member => unlabelled item (by simp [member])
  · rintro (rfl | ⟨different,earlier,later,rfl,unlabelled⟩)
    · exact ⟨items,[],rfl,by simp⟩
    · refine ⟨earlier,later ++ [item],by simp,?_⟩
      intro next member
      rcases List.mem_append.mp member with old | new
      · exact unlabelled next old
      · rw [List.mem_singleton.mp new]; exact different.symm

theorem LastUnder.mem (final : LastUnder label items last) : last ∈ items := by
  obtain ⟨earlier,later,rfl,_⟩ := final
  simp

theorem LastUnder.relabel (agree : ∀ one ∈ items, ∀ two ∈ items, other one = other two → label one = label two)
    (final : LastUnder label items last) : LastUnder other items last := by
  obtain ⟨earlier,later,rfl,unlabelled⟩ := final
  refine ⟨earlier,later,rfl,fun item member same => unlabelled item member ?_⟩
  exact agree item (by simp [member]) last (by simp) same

theorem exists_last (member : item ∈ items) : ∃ last, LastUnder label items last ∧ label last = label item := by
  induction items using List.reverseRecOn with
  | nil => cases member
  | append_singleton earlier final ih =>
      simp only [lastUnder_concat]
      by_cases same : label final = label item
      · exact ⟨final,.inl rfl,same⟩
      · have old : item ∈ earlier := by
          rcases List.mem_append.mp member with old | new
          · exact old
          · exact absurd (congrArg label (List.mem_singleton.mp new)).symm same
        obtain ⟨last,present,equal⟩ := ih old
        exact ⟨last,.inr ⟨by rw [equal]; exact Ne.symm same,present⟩,equal⟩

variable [DecidableEq Key] {store : Key → Option Value} {key : Key} {value kept : Value}
  {write : Item → Key × Value} {writes : List (Key × Value)}

-- A write creates the entry or replaces the one that was there.
def put (store : Key → Option Value) (key : Key) (value : Value) : Key → Option Value :=
  Function.update store key (some value)

def putAll (store : Key → Option Value) (writes : List (Key × Value)) : Key → Option Value :=
  writes.foldl (fun earlier write => put earlier write.1 write.2) store

theorem putAll_concat (write : Key × Value) :
    putAll store (writes ++ [write]) = put (putAll store writes) write.1 write.2 := by simp [putAll]

@[simp] theorem put_same : put store key value key = some value := by simp [put]
theorem put_other (different : place ≠ key) : put store key value place = store place := by simp [put,different]

-- From an empty store a key holds exactly what was last written under it.
theorem putAll_last_iff : putAll (fun _ => none) (items.map write) key = some value ↔
    ∃ last, LastUnder (fun item => (write item).1) items last ∧ write last = (key,value) := by
  induction items using List.reverseRecOn with
  | nil => simp [putAll,lastUnder_nil]
  | append_singleton earlier item ih =>
      rw [List.map_append,List.map_singleton,putAll_concat]
      simp only [lastUnder_concat]
      by_cases same : key = (write item).1
      · subst same
        rw [put_same]
        constructor
        · intro found
          exact ⟨item,.inl rfl,Prod.ext rfl (Option.some.inj found)⟩
        · rintro ⟨last,rfl | ⟨different,_⟩,found⟩
          · rw [found]
          · exact absurd (congrArg Prod.fst found) different
      · rw [put_other same,ih]
        constructor
        · rintro ⟨last,final,found⟩
          exact ⟨last,.inr ⟨by rw [found]; exact same,final⟩,found⟩
        · rintro ⟨last,rfl | ⟨_,final⟩,found⟩
          · exact absurd (congrArg Prod.fst found).symm same
          · exact ⟨last,final,found⟩

theorem all_kept_iff :
    (∀ item ∈ items, putAll (fun _ => none) (items.map write) (write item).1 = some (write item).2) ↔
      ∀ one ∈ items, ∀ two ∈ items, (write one).1 = (write two).1 → (write one).2 = (write two).2 := by
  constructor
  · intro all one first two second same
    have found := all one first
    rw [same,all two second] at found
    exact (Option.some.inj found).symm
  · intro agree item member
    obtain ⟨last,final,(same : (write last).1 = (write item).1)⟩ := exists_last member
    rw [← same]
    refine putAll_last_iff.mpr ⟨last,final,Prod.ext rfl ?_⟩
    exact agree last final.mem item member same

def Held (store : Key → Option Value) (value : Value) : Prop := ∃ key, store key = some value

theorem held_put : Held (put store key value) value := ⟨key,put_same⟩

-- A put loses nothing but a different value under its own key.
theorem Held.put (held : Held store kept) (safe : ∀ old, store key = some old → old = value) :
    Held (put store key value) kept := by
  obtain ⟨place,found⟩ := held
  by_cases same : place = key
  · subst same
    exact ⟨place,by rw [put_same,safe kept found]⟩
  · exact ⟨place,by rw [put_other same,found]⟩

end OverwritingStore
