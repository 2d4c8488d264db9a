import Mathlib.Data.List.Basic

namespace SeparatedComponents
variable {Item : Type*} {separator : Item} {items last folder left right : List Item}

-- A piece begun, kept even when empty, and the nonempty ones after it.
def joinAfter (separator : Item) (piece : List Item) (pieces : List (List Item)) : List Item :=
  [separator].intercalate (piece :: pieces.filter fun component => !component.isEmpty)

theorem intercalate_append {front back : List (List Item)} (nonempty : front ≠ []) (more : back ≠ []) :
    [separator].intercalate (front ++ back) = [separator].intercalate front ++ separator :: [separator].intercalate back := by
  induction front with
  | nil => exact absurd rfl nonempty
  | cons first rest ih =>
      by_cases single : rest = []
      · subst rest
        rw [List.singleton_append,List.intercalate_cons_of_ne_nil more]
        simp
      · rw [List.cons_append,List.intercalate_cons_of_ne_nil (by simp [single]),ih single,
          List.intercalate_cons_of_ne_nil single]
        simp

theorem intercalate_last (pieces : List (List Item)) (nonempty : pieces ≠ []) :
    [separator].intercalate (pieces ++ [piece]) = [separator].intercalate pieces ++ separator :: piece := by
  rw [intercalate_append nonempty (by simp),List.intercalate_singleton]

theorem mem_intercalate {pieces : List (List Item)} (inside : item ∈ [separator].intercalate pieces) :
    item = separator ∨ ∃ piece ∈ pieces, item ∈ piece := by
  induction pieces with
  | nil => cases inside
  | cons first rest ih =>
      by_cases single : rest = []
      · subst rest
        exact .inr ⟨first,List.mem_cons_self,by simpa using inside⟩
      · rw [List.intercalate_cons_of_ne_nil single,List.append_assoc] at inside
        rcases List.mem_append.mp inside with front | later
        · exact .inr ⟨first,List.mem_cons_self,front⟩
        · rcases List.mem_cons.mp later with same | later
          · exact .inl same
          · exact (ih later).imp_right fun ⟨piece,member,inner⟩ => ⟨piece,List.mem_cons_of_mem _ member,inner⟩

theorem plain_intercalate {tail : List (List Item)} (nonempty : tail ≠ []) (plain : ∀ piece ∈ tail, separator ∉ piece) :
    separator ∉ [separator].intercalate tail ↔ ∃ single, tail = [single] := by
  obtain ⟨first,others,rfl⟩ := List.exists_cons_of_ne_nil nonempty
  by_cases single : others = []
  · subst others
    simp [plain first List.mem_cons_self]
  · rw [List.intercalate_cons_of_ne_nil single]
    simp [single]

@[simp] theorem joinAfter_cons : joinAfter separator (item :: piece) pieces = item :: joinAfter separator piece pieces :=
  List.intercalate_cons_cons_left

variable [DecidableEq Item]

def components (separator : Item) (items : List Item) : List (List Item) :=
  (items.splitOn separator).filter fun component => !component.isEmpty

def rejoin (separator : Item) (items : List Item) : List Item := [separator].intercalate (components separator items)

-- Keeps one separator of each run and none in front; `after` is whether one or the start came just before.
def squeeze (separator : Item) (after : Bool) : List Item → List Item
  | [] => []
  | item :: rest =>
    if item = separator then
      if after then squeeze separator true rest else item :: squeeze separator true rest
    else item :: squeeze separator false rest

theorem squeeze_separator : squeeze separator true (separator :: items) = squeeze separator true items := by
  simp [squeeze]

theorem squeeze_plain (plain : separator ∉ folder) :
    squeeze separator false (folder ++ separator :: items) = folder ++ separator :: squeeze separator true items := by
  induction folder with
  | nil => simp [squeeze]
  | cons item rest ih =>
      have other : item ≠ separator := (List.ne_of_not_mem_cons plain).symm
      simp [squeeze,other,ih (List.not_mem_of_not_mem_cons plain)]

theorem squeeze_folder (nonempty : folder ≠ []) (plain : separator ∉ folder) :
    squeeze separator true (folder ++ separator :: items) = folder ++ separator :: squeeze separator true items := by
  obtain ⟨item,rest,rfl⟩ := List.exists_cons_of_ne_nil nonempty
  have other : item ≠ separator := (List.ne_of_not_mem_cons plain).symm
  simp [squeeze,other,squeeze_plain (List.not_mem_of_not_mem_cons plain)]

theorem squeeze_inside : separator ∈ squeeze separator false items ↔ separator ∈ items := by
  induction items with
  | nil => simp [squeeze]
  | cons item rest ih =>
      by_cases same : item = separator
      · simp [squeeze,same]
      · simp [squeeze,same,Ne.symm same,ih]

-- Only leading separators leave no trace.
theorem squeeze_leading : separator ∉ squeeze separator true items ↔ separator ∉ items.dropWhile (· = separator) := by
  induction items with
  | nil => simp [squeeze]
  | cons item rest ih =>
      by_cases same : item = separator
      · simp [squeeze,same,ih]
      · simp [squeeze,same,Ne.symm same,squeeze_inside]

-- The first piece goes on with what stands before its next separator, the others follow.
theorem splitOn_cons (separator item : Item) (rest : List Item) : ∃ piece pieces, rest.splitOn separator = piece :: pieces ∧
    (item :: rest).splitOn separator = if item = separator then [] :: piece :: pieces else (item :: piece) :: pieces := by
  obtain ⟨piece,pieces,split⟩ := List.exists_cons_of_ne_nil (List.splitOn_ne_nil separator rest)
  refine ⟨piece,pieces,split,?_⟩
  rw [List.splitOn_cons_eq_if_modifyHead,split]
  simp

theorem rejoin_separator : rejoin separator (separator :: items) = rejoin separator items := by
  obtain ⟨piece,pieces,tail,split⟩ := splitOn_cons separator separator items
  rw [rejoin,components,split,rejoin,components,tail]
  simp

theorem rejoin_nonempty (nonempty : rejoin separator items ≠ []) : components separator items ≠ [] := by
  intro nothing
  rw [rejoin,nothing] at nonempty
  exact nonempty List.intercalate_nil

-- Both ways of going on with a list, outside a piece and after a piece begun.
theorem rejoin_squeeze (nonempty : last ≠ []) (plain : separator ∉ last) :
    rejoin separator (items ++ last) = squeeze separator true items ++ last ∧
    ∀ piece pieces, (items ++ last).splitOn separator = piece :: pieces →
      joinAfter separator piece pieces = squeeze separator false items ++ last := by
  induction items with
  | nil =>
      have whole : last.splitOn separator = [last] := List.splitOn_eq_singleton plain
      refine ⟨by simp [rejoin,components,whole,nonempty,squeeze],?_⟩
      intro piece pieces split
      rw [List.nil_append,whole] at split
      cases split
      simp [joinAfter,squeeze]
  | cons item rest ih =>
      obtain ⟨outside,inside⟩ := ih
      obtain ⟨piece,pieces,tail,split⟩ := splitOn_cons separator item (rest ++ last)
      rw [List.cons_append]
      by_cases same : item = separator
      · subst same
        rw [if_pos rfl] at split
        refine ⟨?_,fun first others whole => ?_⟩
        · rw [rejoin_separator,outside,squeeze_separator]
        · rw [split] at whole
          cases whole
          have parted : components item (rest ++ last) ≠ [] := rejoin_nonempty (by simp [outside,nonempty])
          have pieced : components item (rest ++ last) = (piece :: pieces).filter fun component => !component.isEmpty := by
            rw [components,tail]
          rw [joinAfter,← pieced,List.intercalate_cons_of_ne_nil parted]
          change [] ++ [item] ++ rejoin item (rest ++ last) = _
          simp [outside,squeeze]
      · rw [if_neg same] at split
        have grown := inside piece pieces tail
        refine ⟨?_,fun first others whole => ?_⟩
        · have begun : rejoin separator (item :: (rest ++ last)) = joinAfter separator (item :: piece) pieces := by
            simp [rejoin,components,split,joinAfter]
          rw [begun,joinAfter_cons,grown]
          simp [squeeze,same]
        · rw [split] at whole
          cases whole
          rw [joinAfter_cons,grown]
          simp [squeeze,same]

theorem rejoin_append (nonempty : last ≠ []) (plain : separator ∉ last) :
    rejoin separator (items ++ last) = squeeze separator true items ++ last :=
  (rejoin_squeeze nonempty plain).1

theorem components_plain (inside : piece ∈ components separator items) : piece ≠ [] ∧ separator ∉ piece := by
  obtain ⟨split,filled⟩ := List.mem_filter.mp inside
  refine ⟨by simpa using filled,?_⟩
  have every : ∀ items : List Item, ∀ piece ∈ items.splitOn separator, separator ∉ piece := by
    intro items
    induction items with
    | nil => simp
    | cons item rest ih =>
        obtain ⟨first,others,tail,whole⟩ := splitOn_cons separator item rest
        rw [tail] at ih
        rw [whole]
        split
        · intro piece member
          rcases List.mem_cons.mp member with rfl | later
          · simp
          · exact ih piece later
        · rename_i other
          intro piece member
          rcases List.mem_cons.mp member with rfl | later
          · simp [Ne.symm other,ih first List.mem_cons_self]
          · exact ih piece (List.mem_cons_of_mem _ later)
  exact every items piece split

theorem components_append : components separator (items ++ separator :: last) =
    components separator items ++ components separator last := by
  rw [components,List.splitOn_append_cons_self,List.filter_append]
  rfl

theorem components_intercalate {pieces : List (List Item)} (plain : ∀ piece ∈ pieces, piece ≠ [] ∧ separator ∉ piece) :
    components separator ([separator].intercalate pieces) = pieces := by
  by_cases empty : pieces = []
  · subst pieces
    simp [components,List.intercalate]
  · rw [components,List.splitOn_intercalate separator (fun piece member => (plain piece member).2) empty]
    apply List.filter_eq_self.mpr
    intro piece member
    simpa using (plain piece member).1

theorem components_single (nonempty : last ≠ []) (plain : separator ∉ last) : components separator last = [last] := by
  rw [components,List.splitOn_eq_singleton plain]
  simp [nonempty]

theorem components_rejoin : components separator (rejoin separator items) = components separator items :=
  components_intercalate fun _ => components_plain

theorem rejoin_rejoin : rejoin separator (rejoin separator items) = rejoin separator items := by
  rw [rejoin,components_rejoin]
  rfl

theorem rejoin_sublist (items : List Item) : (rejoin separator items).Sublist items ∧
    ∀ piece pieces, items.splitOn separator = piece :: pieces → (joinAfter separator piece pieces).Sublist items := by
  induction items with
  | nil =>
      refine ⟨by simp [rejoin,components],fun piece pieces split => ?_⟩
      cases split
      simp [joinAfter]
  | cons item rest ih =>
      obtain ⟨outside,inside⟩ := ih
      obtain ⟨piece,pieces,tail,split⟩ := splitOn_cons separator item rest
      by_cases same : item = separator
      · subst same
        rw [if_pos rfl] at split
        refine ⟨?_,fun first others whole => ?_⟩
        · rw [rejoin_separator]
          exact outside.cons item
        · rw [split] at whole
          cases whole
          have pieced : (piece :: pieces).filter (fun component => !component.isEmpty) = components item rest := by
            rw [components,tail]
          rw [joinAfter,pieced]
          by_cases nothing : components item rest = []
          · simp [nothing]
          · rw [List.intercalate_cons_of_ne_nil nothing]
            exact outside.cons_cons item
      · rw [if_neg same] at split
        have grown := (inside piece pieces tail).cons_cons item
        have begun : rejoin separator (item :: rest) = joinAfter separator (item :: piece) pieces := by
          simp [rejoin,components,split,joinAfter]
        refine ⟨?_,fun first others whole => ?_⟩
        · rw [begun,joinAfter_cons]
          exact grown
        · rw [split] at whole
          cases whole
          rw [joinAfter_cons]
          exact grown

theorem takeWhile_before (plain : separator ∉ left) :
    (left ++ separator :: items).takeWhile (fun item => item ≠ separator) = left := by
  have every : ∀ item ∈ left, decide (item ≠ separator) = true := by
    intro item inside
    simp only [ne_eq,decide_eq_true_eq]
    rintro rfl
    exact plain inside
  rw [List.takeWhile_append_of_pos every]
  simp

-- What stands before the first separator is read off a list.
theorem front_unique (one : separator ∉ left) (two : separator ∉ right)
    (same : left ++ separator :: items = right ++ separator :: last) : left = right ∧ items = last := by
  have split := congrArg (List.splitOn separator) same
  rw [List.splitOn_append_cons_self_of_not_mem one,List.splitOn_append_cons_self_of_not_mem two] at split
  have fronts := (List.cons.inj split).1
  subst fronts
  exact ⟨rfl,(List.cons.inj (List.append_cancel_left same)).2⟩

theorem back_unique (one : separator ∉ items) (two : separator ∉ last)
    (same : left ++ separator :: items = right ++ separator :: last) : left = right ∧ items = last := by
  have turned := congrArg List.reverse same
  simp only [List.reverse_append,List.reverse_cons,List.append_assoc,List.singleton_append] at turned
  obtain ⟨backs,fronts⟩ := front_unique (by simpa using one) (by simpa using two) turned
  exact ⟨List.reverse_inj.mp fronts,List.reverse_inj.mp backs⟩

end SeparatedComponents
