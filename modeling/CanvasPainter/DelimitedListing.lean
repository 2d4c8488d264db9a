import Mathlib.Data.List.Dedup
import Mathlib.Data.List.Basic
import CanvasPainter.SeparatedComponents

namespace DelimitedListing
open SeparatedComponents
variable {Item : Type*} [DecidableEq Item] {separator : Item} {names : List (List Item)}
  {folder name rest front : List Item}

-- A flat store of names, listed up to a separator: the names that begin with `front` and have none after it.
def entries (separator : Item) (front : List Item) (names : List (List Item)) : List (List Item) :=
  names.filter fun name => front.isPrefixOf name && !(name.drop front.length).contains separator

-- The other names that begin so are told of by what leads to their next separator.
def folderOf (separator : Item) (front name : List Item) : Option (List Item) :=
  if front.isPrefixOf name ∧ (name.drop front.length).contains separator then
    some (front ++ (name.drop front.length).takeWhile (fun item => item ≠ separator) ++ [separator])
  else none

def folders (separator : Item) (front : List Item) (names : List (List Item)) : List (List Item) :=
  (names.filterMap (folderOf separator front)).dedup

def insideOf (separator : Item) (folder : List Item) : List Item := if folder = [] then [] else folder ++ [separator]

-- Nothing but its components, one separator between two of them.
def Tidy (separator : Item) (items : List Item) : Prop := rejoin separator items = items

instance (separator : Item) (items : List Item) : Decidable (Tidy separator items) :=
  inferInstanceAs (Decidable (rejoin separator items = items))

theorem mem_entries : name ∈ entries separator front names ↔
    name ∈ names ∧ ∃ rest, name = front ++ rest ∧ separator ∉ rest := by
  simp only [entries,List.mem_filter,Bool.and_eq_true,List.isPrefixOf_iff_prefix,Bool.not_eq_true']
  refine and_congr_right fun _ => ⟨?_,?_⟩
  · rintro ⟨⟨rest,rfl⟩,plain⟩
    refine ⟨rest,rfl,?_⟩
    simpa using plain
  · rintro ⟨rest,rfl,plain⟩
    exact ⟨List.prefix_append _ _,by simpa using plain⟩

theorem folderOf_some : folderOf separator front name = some folder ↔
    ∃ piece rest, name = front ++ (piece ++ separator :: rest) ∧ separator ∉ piece ∧ folder = front ++ piece ++ [separator] := by
  constructor
  · intro found
    obtain ⟨⟨begins,inside⟩,same⟩ := Option.ite_none_right_eq_some.mp found
    obtain ⟨rest,rfl⟩ := List.isPrefixOf_iff_prefix.mp begins
    rw [List.drop_left] at inside same
    obtain ⟨piece,last,rfl,plain⟩ := List.eq_append_cons_of_mem (List.contains_iff_mem.mp inside)
    refine ⟨piece,last,rfl,plain,?_⟩
    rw [← Option.some.inj same,takeWhile_before plain]
  · rintro ⟨piece,rest,rfl,plain,rfl⟩
    rw [folderOf,if_pos,List.drop_left,takeWhile_before plain]
    simp

theorem mem_folders : folder ∈ folders separator front names ↔ ∃ name ∈ names, folderOf separator front name = some folder := by
  simp [folders]

theorem tidy_intercalate {pieces : List (List Item)} (plain : ∀ piece ∈ pieces, piece ≠ [] ∧ separator ∉ piece) :
    Tidy separator ([separator].intercalate pieces) := by
  rw [Tidy,rejoin,components_intercalate plain]

theorem Tidy.components_nil (tidy : Tidy separator name) (nonempty : name ≠ []) : components separator name ≠ [] := by
  intro nothing
  rw [← tidy,rejoin,nothing] at nonempty
  exact nonempty List.intercalate_nil

theorem Tidy.unique (one : Tidy separator name) (two : Tidy separator folder)
    (same : components separator name = components separator folder) : name = folder := by
  rw [← one,← two,rejoin,rejoin,same]

-- What begins with the inside of a folder has the folder's components and more.
theorem insideOf_components (home : Tidy separator folder) (tidy : Tidy separator name) (nonempty : name ≠ []) :
    name = insideOf separator folder ++ rest ↔
      ∃ tail, tail ≠ [] ∧ components separator name = components separator folder ++ tail ∧
        rest = [separator].intercalate tail := by
  by_cases top : folder = []
  · subst folder
    have nothing : components separator ([] : List Item) = [] := by simp [components]
    simp only [insideOf,if_true,List.nil_append,nothing]
    constructor
    · rintro rfl
      exact ⟨_,tidy.components_nil nonempty,rfl,tidy.symm⟩
    · rintro ⟨tail,_,split,rfl⟩
      rw [← split]
      exact tidy.symm
  · have parts := home.components_nil top
    have split : ∀ tail, tail ≠ [] → [separator].intercalate (components separator folder ++ tail) =
        folder ++ separator :: [separator].intercalate tail := by
      intro tail nonempty
      rw [intercalate_append parts nonempty]
      exact congrArg (· ++ _) home
    simp only [insideOf,if_neg top,List.append_assoc,List.singleton_append]
    constructor
    · rintro rfl
      have whole : components separator (folder ++ separator :: rest) =
          components separator folder ++ components separator rest := components_append
      have more : components separator rest ≠ [] := by
        intro nothing
        have short : folder ++ separator :: rest = folder := by
          apply tidy.unique home
          rw [whole,nothing,List.append_nil]
        simp at short
      refine ⟨_,more,whole,?_⟩
      have back : [separator].intercalate (components separator (folder ++ separator :: rest)) = _ := tidy
      rw [whole,split _ more] at back
      exact (List.cons.inj (List.append_cancel_left back)).2.symm
    · rintro ⟨tail,nonempty,whole,rfl⟩
      have back : [separator].intercalate (components separator name) = name := tidy
      rw [whole,split tail nonempty] at back
      exact back.symm

-- Entries are the names one component below the folder.
theorem entries_components (home : Tidy separator folder) (tidy : ∀ name ∈ names, name ≠ [] ∧ Tidy separator name) :
    name ∈ entries separator (insideOf separator folder) names ↔
      name ∈ names ∧ ∃ single, components separator name = components separator folder ++ [single] := by
  rw [mem_entries]
  refine and_congr_right fun member => ?_
  obtain ⟨filled,whole⟩ := tidy name member
  simp only [insideOf_components home whole filled]
  constructor
  · rintro ⟨rest,⟨tail,nonempty,split,rfl⟩,absent⟩
    have plain : ∀ piece ∈ tail, separator ∉ piece :=
      fun piece inside => (components_plain (split ▸ List.mem_append_right _ inside)).2
    obtain ⟨single,rfl⟩ := (plain_intercalate nonempty plain).mp absent
    exact ⟨single,split⟩
  · rintro ⟨single,split⟩
    refine ⟨single,⟨[single],by simp,split,by simp⟩,?_⟩
    exact (components_plain (split ▸ List.mem_append_right _ List.mem_cons_self)).2

-- Folders are what stands one component below the folder and above a name.
theorem folders_components (home : Tidy separator folder) (tidy : ∀ name ∈ names, name ≠ [] ∧ Tidy separator name) :
    front ∈ folders separator (insideOf separator folder) names ↔
      ∃ name ∈ names, ∃ single tail, tail ≠ [] ∧ components separator name = components separator folder ++ single :: tail ∧
        front = [separator].intercalate (components separator folder ++ [single]) ++ [separator] := by
  have inner : ∀ single, [separator].intercalate (components separator folder ++ [single]) =
      insideOf separator folder ++ single := by
    intro single
    by_cases top : folder = []
    · subst folder
      simp [components,insideOf]
    · rw [intercalate_last _ (home.components_nil top),insideOf,if_neg top,List.append_assoc]
      exact congrArg (· ++ _) home
  rw [mem_folders]
  refine exists_congr fun name => and_congr_right fun member => ?_
  obtain ⟨filled,whole⟩ := tidy name member
  rw [folderOf_some]
  simp only [inner]
  constructor
  · rintro ⟨piece,rest,begins,plain,rfl⟩
    obtain ⟨tail,nonempty,split,same⟩ := (insideOf_components home whole filled).mp begins
    obtain ⟨single,more,rfl⟩ := List.exists_cons_of_ne_nil nonempty
    have absent : separator ∉ single := (components_plain (split ▸ List.mem_append_right _ List.mem_cons_self)).2
    have several : more ≠ [] := by
      rintro rfl
      rw [List.intercalate_singleton] at same
      exact absent (same ▸ by simp)
    rw [List.intercalate_cons_of_ne_nil several,List.append_assoc] at same
    obtain ⟨rfl,_⟩ := front_unique plain absent same
    exact ⟨piece,more,several,split,rfl⟩
  · rintro ⟨single,tail,nonempty,split,rfl⟩
    have absent : separator ∉ single := (components_plain (split ▸ List.mem_append_right _ List.mem_cons_self)).2
    refine ⟨single,[separator].intercalate tail,?_,absent,rfl⟩
    refine (insideOf_components home whole filled).mpr ⟨single :: tail,by simp,split,?_⟩
    rw [List.intercalate_cons_of_ne_nil nonempty]
    simp

end DelimitedListing
