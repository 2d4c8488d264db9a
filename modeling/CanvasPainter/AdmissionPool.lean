import Mathlib

namespace AdmissionPool
variable {Item : Type*}

-- How many may run at once (none is no bound), whom the bound leaves out, and who goes first.
structure Rules (Item : Type*) where
  limit : Option Nat
  exempt : Item → Bool
  rank : Item → Int

structure Pool (Item : Type*) where
  running : List Item
  waiting : List Item

section Counting
variable (rules : Rules Item) {left right running : List Item} {item : Item}

def Rules.busy (items : List Item) : Nat := items.countP (fun item => !rules.exempt item)

def Rules.Room (running : List Item) : Prop := ∀ limit, rules.limit = some limit → rules.busy running < limit

theorem busy_append : rules.busy (left ++ right) = rules.busy left + rules.busy right := List.countP_append

theorem add_within (room : rules.Room running) :
    ∀ limit, rules.limit = some limit → rules.busy (running ++ [item]) ≤ limit := by
  intro limit bound
  have vacant := room limit bound
  have one : rules.busy [item] ≤ 1 := List.countP_le_length
  rw [busy_append]
  omega

theorem add_single (single : running.Nodup) (absent : item ∉ running) : (running ++ [item]).Nodup := by
  apply List.nodup_append.mpr
  refine ⟨single,by simp,?_⟩
  intro inside present last same
  rw [List.mem_singleton.mp same]
  rintro rfl
  exact absent present

structure Bounded (pool : Pool Item) : Prop where
  single : pool.running.Nodup
  apart : ∀ item ∈ pool.waiting, item ∉ pool.running
  counted : ∀ item ∈ pool.waiting, rules.exempt item = false
  within : ∀ limit, rules.limit = some limit → rules.busy pool.running ≤ limit

-- Someone waits only while every place is taken.
structure Sound (pool : Pool Item) : Prop extends Bounded rules pool where
  conserving : pool.waiting ≠ [] → ¬rules.Room pool.running

variable {rules} {pool : Pool Item}

theorem empty_sound : Sound rules ⟨[],[]⟩ := by
  refine ⟨⟨List.nodup_nil,?_,?_,?_⟩,?_⟩ <;> simp [Rules.busy]

theorem admitted_waits_not (sound : Sound rules pool) (admitted : rules.exempt item = true ∨ rules.Room pool.running) :
    item ∉ pool.waiting := by
  intro waiting
  rcases admitted with exempt | room
  · simp [sound.counted item waiting] at exempt
  · exact sound.conserving (List.ne_nil_of_mem waiting) room

theorem admitted_within (sound : Sound rules pool) (admitted : rules.exempt item = true ∨ rules.Room pool.running) :
    ∀ limit, rules.limit = some limit → rules.busy (pool.running ++ [item]) ≤ limit := by
  rcases admitted with exempt | room
  · intro limit bound
    have before := sound.within limit bound
    simpa [Rules.busy,exempt] using before
  · exact add_within rules room

theorem admitted_full (sound : Sound rules pool) : pool.waiting ≠ [] → ¬rules.Room (pool.running ++ [item]) := by
  intro waiting room
  apply sound.conserving waiting
  intro limit bound
  have less := room limit bound
  rw [busy_append] at less
  omega

end Counting

variable [DecidableEq Item]

section Removal
variable (rules : Rules Item) {items left right running : List Item} {item other : Item}

def without (items : List Item) (item : Item) : List Item := items.filter (fun other => other ≠ item)

@[simp] theorem mem_without : other ∈ without items item ↔ other ∈ items ∧ other ≠ item := by
  simp [without]

theorem without_sublist : (without items item).Sublist items := List.filter_sublist

theorem without_absent (absent : item ∉ items) : without items item = items := by
  apply List.filter_eq_self.mpr
  intro other present
  simp only [decide_eq_true_eq]
  rintro rfl
  exact absent present

theorem without_append : without (left ++ right) item = without left item ++ without right item :=
  List.filter_append ..

theorem without_middle (before : item ∉ left) (after : item ∉ right) :
    without (left ++ item :: right) item = left ++ right := by
  have here : without (item :: right) item = without right item := by simp [without]
  rw [without_append,here,without_absent before,without_absent after]

theorem busy_without (single : items.Nodup) (present : item ∈ items) (counts : rules.exempt item = false) :
    rules.busy (without items item) + 1 = rules.busy items := by
  obtain ⟨earlier,later,rfl⟩ := List.append_of_mem present
  obtain ⟨_,last,apart⟩ := List.nodup_append.mp single
  have before : item ∉ earlier := fun inside => apart item inside item (by simp) rfl
  rw [without_middle before (List.nodup_cons.mp last).1]
  simp [Rules.busy,counts]
  omega

theorem busy_without_le : rules.busy (without items item) ≤ rules.busy items := without_sublist.countP_le

end Removal

section Steps
variable (rules : Rules Item)

-- Vacant places go to the first of the least ranked, one after the other.
inductive Fill : Pool Item → List Item → Pool Item → Prop where
  | settled : pool.waiting = [] ∨ ¬rules.Room pool.running → Fill pool [] pool
  | next {item : Item} : rules.Room pool.running → item ∈ pool.waiting.argmin rules.rank →
      Fill ⟨pool.running ++ [item],without pool.waiting item⟩ started last → Fill pool (item :: started) last

inductive Action (Item : Type*) where
  | arrive (item : Item)
  | leave (item : Item)
  | clear

inductive Step : Pool Item → Action Item → List Item → Pool Item → Prop where
  | present : item ∈ pool.running → Step pool (.arrive item) [] pool
  | admitted : item ∉ pool.running → rules.exempt item = true ∨ rules.Room pool.running →
      Step pool (.arrive item) [] ⟨pool.running ++ [item],pool.waiting⟩
  | held : item ∉ pool.running → rules.exempt item = false → ¬rules.Room pool.running →
      Step pool (.arrive item) [] ⟨pool.running,pool.waiting ++ [item]⟩
  | leave : Fill rules ⟨without pool.running item,without pool.waiting item⟩ started next →
      Step pool (.leave item) started next
  | clear : Step pool .clear [] ⟨[],[]⟩

-- A place is freed where one that counts leaves; an item is overtaken by a less ranked arrival.
def freed (pool : Pool Item) : Action Item → Nat
  | .leave item => if item ∈ pool.running ∧ rules.exempt item = false then 1 else 0
  | _ => 0

omit [DecidableEq Item] in
def overtaking (item : Item) : Action Item → Nat
  | .arrive other => if rules.rank other < rules.rank item then 1 else 0
  | _ => 0

-- A run throughout which an item waits, with the places freed and the arrivals that overtake it.
inductive Waits (item : Item) : Pool Item → Nat → Nat → Pool Item → Prop where
  | rest : item ∈ pool.waiting → Waits item pool 0 0 pool
  | step : item ∈ pool.waiting → Step rules pool action started next → Waits item next places arrivals last →
      Waits item pool (freed rules pool action + places) (overtaking rules item action + arrivals) last

end Steps

section Safety
variable {rules : Rules Item} {pool next last : Pool Item} {item : Item} {started : List Item}

theorem bounded_next (bounded : Bounded rules pool) (room : rules.Room pool.running) (present : item ∈ pool.waiting) :
    Bounded rules ⟨pool.running ++ [item],without pool.waiting item⟩ := by
  refine ⟨add_single bounded.single (bounded.apart item present),?_,?_,add_within rules room⟩
  · intro other inside
    obtain ⟨inside,different⟩ := mem_without.mp inside
    have absent := bounded.apart other inside
    simp [absent,different]
  · intro other inside
    exact bounded.counted other (mem_without.mp inside).1

theorem bounded_leave (bounded : Bounded rules pool) :
    Bounded rules ⟨without pool.running item,without pool.waiting item⟩ := by
  refine ⟨without_sublist.nodup bounded.single,?_,?_,?_⟩
  · intro other inside running
    exact bounded.apart other (mem_without.mp inside).1 (mem_without.mp running).1
  · intro other inside
    exact bounded.counted other (mem_without.mp inside).1
  · intro limit bound
    exact Nat.le_trans (busy_without_le rules) (bounded.within limit bound)

theorem fill_sound (fill : Fill rules pool started last) (bounded : Bounded rules pool) : Sound rules last := by
  induction fill with
  | settled ended => exact ⟨bounded,ended.resolve_left⟩
  | next room least _ ih => exact ih (bounded_next bounded room (List.argmin_mem least))

theorem step_sound (sound : Sound rules pool) (step : Step rules pool action started next) : Sound rules next := by
  cases step with
  | present _ => exact sound
  | admitted absent admitted =>
      refine ⟨⟨add_single sound.single absent,?_,sound.counted,admitted_within sound admitted⟩,admitted_full sound⟩
      intro other waiting running
      rcases List.mem_append.mp running with before | added
      · exact sound.apart other waiting before
      · exact admitted_waits_not sound admitted (List.mem_singleton.mp added ▸ waiting)
  | held absent counts full =>
      refine ⟨⟨sound.single,?_,?_,sound.within⟩,fun _ => full⟩
      · intro other waiting
        rcases List.mem_append.mp waiting with before | added
        · exact sound.apart other before
        · exact List.mem_singleton.mp added ▸ absent
      · intro other waiting
        rcases List.mem_append.mp waiting with before | added
        · exact sound.counted other before
        · exact List.mem_singleton.mp added ▸ counts
  | leave fill => exact fill_sound fill (bounded_leave sound.toBounded)
  | clear => exact empty_sound
end Safety

section Turns
variable {rules : Rules Item} {pool next last : Pool Item} {items left right started : List Item} {item other : Item}
  {action : Action Item}

-- How many go before an item: the less ranked, and those of its rank that came earlier.
def ahead (rules : Rules Item) (item : Item) : List Item → Nat
  | [] => 0
  | other :: rest =>
      if other = item then rest.countP (fun later => rules.rank later < rules.rank item)
      else (if rules.rank other ≤ rules.rank item then 1 else 0) + ahead rules item rest

theorem ahead_append (present : item ∈ left) :
    ahead rules item (left ++ right) = ahead rules item left + right.countP (fun later => rules.rank later < rules.rank item) := by
  induction left with
  | nil => cases present
  | cons first rest ih =>
      by_cases same : first = item
      · simp [ahead,same]
      · have inside : item ∈ rest := (List.mem_cons.mp present).resolve_left (Ne.symm same)
        simp [ahead,same,ih inside,Nat.add_assoc]

theorem ahead_skip (absent : item ∉ left) :
    ahead rules item (left ++ right) = left.countP (fun earlier => rules.rank earlier ≤ rules.rank item) + ahead rules item right := by
  induction left with
  | nil => simp
  | cons first rest ih =>
      obtain ⟨different,outside⟩ := not_or.mp (List.mem_cons.not.mp absent)
      simp only [List.cons_append,ahead,if_neg (Ne.symm different),ih outside,List.countP_cons]
      simp only [decide_eq_true_eq]
      omega

theorem ahead_without (different : other ≠ item) : ahead rules item (without items other) ≤ ahead rules item items := by
  induction items with
  | nil => simp [without]
  | cons first rest ih =>
      by_cases gone : first = other
      · subst first
        have step : without (other :: rest) other = without rest other := by simp [without]
        rw [step]
        simp only [ahead,if_neg different]
        omega
      · have step : without (first :: rest) other = first :: without rest other := by simp [without,gone]
        rw [step]
        simp only [ahead]
        split
        · exact without_sublist.countP_le
        · omega

theorem argmin_split (least : item ∈ items.argmin rules.rank) : ∃ earlier later, items = earlier ++ item :: later ∧
    item ∉ earlier ∧ (∀ other ∈ earlier, rules.rank item < rules.rank other) ∧
    ∀ other ∈ later, rules.rank item ≤ rules.rank other := by
  obtain ⟨present,lowest,soonest⟩ := List.mem_argmin_iff.mp least
  obtain ⟨earlier,later,rfl,absent⟩ := List.eq_append_cons_of_mem present
  refine ⟨earlier,later,rfl,absent,?_,?_⟩
  · intro other before
    apply lt_of_not_ge
    intro tied
    have order := soonest other (List.mem_append_left _ before) tied
    rw [List.idxOf_append_of_notMem absent,List.idxOf_append_of_mem before] at order
    have inside := List.idxOf_lt_length_of_mem before
    omega
  · intro other after
    exact lowest other (List.mem_append_right _ (List.mem_cons_of_mem _ after))

theorem ahead_first (least : item ∈ items.argmin rules.rank) (different : item ≠ other) (present : other ∈ items) :
    ahead rules other (without items item) + 1 ≤ ahead rules other items := by
  obtain ⟨earlier,later,rfl,absent,strict,weak⟩ := argmin_split least
  have rest : without (earlier ++ item :: later) item = earlier ++ without later item := by
    rw [without_append,without_absent absent]
    simp [without]
  rw [rest]
  by_cases before : other ∈ earlier
  · have lower := strict other before
    have fewer : (without later item).countP (fun last => rules.rank last < rules.rank other) ≤
        later.countP (fun last => rules.rank last < rules.rank other) := without_sublist.countP_le
    rw [ahead_append before,ahead_append before]
    simp [lower]
    omega
  · have after : other ∈ later := by
      rcases List.mem_append.mp present with inside | inside
      · exact absurd inside before
      · exact (List.mem_cons.mp inside).resolve_left (Ne.symm different)
    have fewer : ahead rules other (without later item) ≤ ahead rules other later := ahead_without different
    rw [ahead_skip before,ahead_skip before]
    simp [ahead,different,weak other after]
    omega

theorem fill_waiting (fill : Fill rules pool started last) : ∀ item ∈ last.waiting, item ∈ pool.waiting := by
  induction fill with
  | settled _ => exact fun _ inside => inside
  | next _ _ _ ih => exact fun item inside => (mem_without.mp (ih item inside)).1

theorem fill_ahead (fill : Fill rules pool started last) (still : item ∈ last.waiting) :
    ahead rules item last.waiting + started.length ≤ ahead rules item pool.waiting := by
  induction fill with
  | settled _ => simp
  | next _ least later ih =>
      obtain ⟨inside,different⟩ := mem_without.mp (fill_waiting later item still)
      have rest := ih still
      have one := ahead_first least (Ne.symm different) inside
      simp only [List.length_cons] at rest ⊢
      omega

theorem fill_starts (fill : Fill rules pool started last) (room : rules.Room pool.running) (waits : pool.waiting ≠ []) :
    1 ≤ started.length := by
  cases fill with
  | settled ended => exact absurd room (ended.resolve_left waits)
  | next _ _ _ => simp

theorem vacated (sound : Sound rules pool) (running : item ∈ pool.running)
    (counts : rules.exempt item = false) : rules.Room (without pool.running item) := by
  intro limit bound
  have most := sound.within limit bound
  have one := busy_without rules sound.single running counts
  omega

theorem step_ahead (sound : Sound rules pool) (step : Step rules pool action started next)
    (waits : item ∈ pool.waiting) (still : item ∈ next.waiting) :
    ahead rules item next.waiting + freed rules pool action ≤ ahead rules item pool.waiting + overtaking rules item action := by
  cases step with
  | present _ => simp [freed]
  | admitted _ _ => simp [freed]
  | held _ _ _ =>
      rw [ahead_append waits]
      simp [freed,overtaking,List.countP_cons]
  | leave fill =>
      rename_i other
      obtain ⟨_,different⟩ := mem_without.mp (fill_waiting fill item still)
      have served := fill_ahead fill still
      have fewer : ahead rules item (without pool.waiting other) ≤ ahead rules item pool.waiting := ahead_without (Ne.symm different)
      simp only [freed,overtaking]
      split
      · rename_i leaving
        have room := vacated sound leaving.1 leaving.2
        have one := fill_starts fill room (List.ne_nil_of_mem (fill_waiting fill item still))
        simp only at served
        omega
      · simp only at served
        omega
  | clear => cases still

theorem fill_parts (fill : Fill rules pool started last) (waits : item ∈ pool.waiting) :
    item ∈ started ∨ item ∈ last.waiting := by
  induction fill with
  | settled _ => exact .inr waits
  | @next started last pool first _ _ _ ih =>
      by_cases here : item = first
      · exact .inl (here ▸ List.mem_cons_self)
      · exact (ih (mem_without.mpr ⟨waits,here⟩)).imp_left (List.mem_cons_of_mem _)

theorem step_waits (step : Step rules pool action started next) (waits : item ∈ pool.waiting)
    (leaves : action ≠ .leave item) (cleared : action ≠ .clear) : item ∈ started ∨ item ∈ next.waiting := by
  cases step with
  | present _ => exact .inr waits
  | admitted _ _ => exact .inr waits
  | held _ _ _ => exact .inr (List.mem_append_left _ waits)
  | leave fill =>
      apply fill_parts fill
      exact mem_without.mpr ⟨waits,fun same => leaves (same ▸ rfl)⟩
  | clear => exact absurd rfl cleared

theorem waits_now (waits : Waits rules item pool places arrivals last) : item ∈ pool.waiting := by
  cases waits <;> assumption

theorem waits_ahead (waits : Waits rules item pool places arrivals last) (sound : Sound rules pool) :
    ahead rules item last.waiting + places ≤ ahead rules item pool.waiting + arrivals := by
  induction waits with
  | rest _ => simp
  | step present step later ih =>
      have one := step_ahead sound step present (waits_now later)
      have rest := ih (step_sound sound step)
      omega

-- Service order: by rank, and first come first served within a rank.
def queue (rules : Rules Item) (items : List Item) : List Item :=
  items.insertionSort (fun item other => rules.rank item ≤ rules.rank other)

theorem queue_first (single : items.Nodup) (least : item ∈ items.argmin rules.rank) :
    queue rules items = item :: queue rules (without items item) := by
  obtain ⟨earlier,later,rfl,absent,strict,weak⟩ := argmin_split least
  have last : item ∉ later := (List.nodup_cons.mp (List.nodup_append.mp single).2.1).1
  rw [without_middle absent last]
  clear single least absent
  induction earlier with
  | nil => exact List.insertionSort_cons_of_forall_rel _ weak
  | cons first rest ih =>
      have after : ¬rules.rank first ≤ rules.rank item := not_le.mpr (strict first (by simp))
      have inner := ih (fun other inside => strict other (List.mem_cons_of_mem _ inside))
      unfold queue at inner ⊢
      rw [List.cons_append,List.insertionSort_cons,inner,List.orderedInsert_cons,if_neg after]
      rfl

theorem fill_in_order (fill : Fill rules pool started last) (single : pool.waiting.Nodup) :
    queue rules pool.waiting = started ++ queue rules last.waiting := by
  induction fill with
  | settled _ => rfl
  | next _ least _ ih =>
      rw [queue_first single least,ih (without_sublist.nodup single)]
      rfl

theorem fill_shares (fill : Fill rules pool started last) (single : pool.waiting.Nodup) :
    pool.waiting.Perm (started ++ last.waiting) := by
  have order := fill_in_order fill single
  unfold queue at order
  have whole := (List.perm_insertionSort (fun item other => rules.rank item ≤ rules.rank other) pool.waiting).symm
  rw [order] at whole
  exact whole.trans ((List.perm_insertionSort _ last.waiting).append_left started)

theorem fill_running (fill : Fill rules pool started last) : last.running = pool.running ++ started := by
  induction fill with
  | settled _ => simp
  | next _ _ _ ih => rw [ih,List.append_assoc]; rfl

end Turns

end AdmissionPool
