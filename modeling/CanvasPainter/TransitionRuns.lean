import Mathlib.Data.List.Infix

namespace TransitionRuns
variable {State Event Abstract : Type*}

-- `advance` is any partial step function: `none` is an event the state refuses.
inductive Runs (advance : State → Event → Option State) : State → List Event → State → Prop where
  | nil : Runs advance s [] s
  | step : Runs advance origin earlier middle → advance middle event = some after →
      Runs advance origin (earlier ++ [event]) after

def run (advance : State → Event → Option State) : State → List Event → Option State
  | s,[] => some s
  | s,event :: rest => (advance s event).bind (run advance · rest)

variable {advance : State → Event → Option State}

theorem Runs.append (left : Runs advance origin earlier middle) (right : Runs advance middle later after) :
    Runs advance origin (earlier ++ later) after := by
  induction right with
  | nil => simpa using left
  | step prior accepted ih => simpa only [List.append_assoc] using Runs.step ih accepted

theorem Runs.cons (accepted : advance before event = some middle) (rest : Runs advance middle later after) :
    Runs advance before (event :: later) after := by
  have start : Runs advance before [] before := .nil
  have first : Runs advance before [event] middle := by simpa using start.step accepted
  simpa using first.append rest

theorem run_append : run advance s (earlier ++ later) = (run advance s earlier).bind (run advance · later) := by
  induction earlier generalizing s with
  | nil => simp [run]
  | cons event rest ih =>
      cases accepted : advance s event with
      | none => simp [run,accepted]
      | some next => simp [run,accepted,ih]

theorem run_exact : run advance s events = some t ↔ Runs advance s events t := by
  constructor
  · intro checked
    induction events generalizing s with
    | nil => cases Option.some.inj checked; exact .nil
    | cons event rest ih =>
        obtain ⟨next,accepted,tail⟩ := Option.bind_eq_some_iff.mp checked
        exact .cons accepted (ih tail)
  · intro path
    induction path with
    | nil => rfl
    | step prior accepted ih => rw [run_append,ih]; simp [run,accepted]

theorem Runs.front (path : Runs advance origin (earlier ++ later) after) : ∃ middle, Runs advance origin earlier middle := by
  have checked := run_exact.mpr path
  rw [run_append] at checked
  obtain ⟨middle,front,_⟩ := Option.bind_eq_some_iff.mp checked
  exact ⟨middle,run_exact.mp front⟩

theorem Runs.last (path : Runs advance origin (earlier ++ [event]) after) (prior : Runs advance origin earlier s) :
    advance s event = some after := by
  have checked := run_exact.mpr path
  rw [run_append,run_exact.mpr prior] at checked
  simpa [run] using checked

theorem Runs.unique (one : Runs advance origin events s) (two : Runs advance origin events t) : s = t := by
  have first := run_exact.mpr one
  rw [run_exact.mpr two] at first
  exact (Option.some.inj first).symm

theorem Runs.invariant {inv : State → Prop} (initial : inv origin)
    (preserved : ∀ s event t, inv s → advance s event = some t → inv t)
    (path : Runs advance origin events after) : inv after := by
  induction path with
  | nil => exact initial
  | step prior accepted ih => exact preserved _ _ _ ih accepted

-- What every state of a run satisfies, and what every step of it found in the state before.
def Throughout (advance : State → Event → Option State) (origin : State) (events : List Event)
    (good : State → Prop) : Prop :=
  ∀ earlier s, earlier <+: events → Runs advance origin earlier s → good s

def EachStep (advance : State → Event → Option State) (origin : State) (events : List Event)
    (ok : State → Event → Prop) : Prop :=
  ∀ earlier event s, earlier ++ [event] <+: events → Runs advance origin earlier s → ok s event

theorem Throughout.final {good : State → Prop} (all : Throughout advance origin events good)
    (path : Runs advance origin events after) : good after :=
  all events after (List.prefix_refl _) path

theorem Throughout.front {good : State → Prop} (all : Throughout advance origin (earlier ++ later) good) :
    Throughout advance origin earlier good :=
  fun _ s front path => all _ s (front.trans (List.prefix_append _ _)) path

theorem EachStep.front {ok : State → Event → Prop} (all : EachStep advance origin (earlier ++ later) ok) :
    EachStep advance origin earlier ok :=
  fun _ _ s front path => all _ _ s (front.trans (List.prefix_append _ _)) path

theorem EachStep.final {ok : State → Event → Prop} (all : EachStep advance origin (earlier ++ [event]) ok)
    (path : Runs advance origin earlier s) : ok s event :=
  all earlier event s (List.prefix_refl _) path

theorem EachStep.append {ok : State → Event → Prop} (all : EachStep advance origin earlier ok)
    (last : ∀ s, Runs advance origin earlier s → ok s event) :
    EachStep advance origin (earlier ++ [event]) ok := by
  intro front next s shorter path
  rcases List.prefix_concat_iff.mp shorter with whole | old
  · obtain ⟨rfl,same⟩ := List.append_inj' whole rfl
    cases List.head_eq_of_cons_eq same
    exact last s path
  · exact all front next s old path

theorem EachStep.extend {ok : State → Event → Prop} (all : EachStep advance origin earlier ok) (later : List Event)
    (free : ∀ event ∈ later, ∀ s, ok s event) : EachStep advance origin (earlier ++ later) ok := by
  induction later using List.reverseRecOn with
  | nil => rwa [List.append_nil]
  | append_singleton later event ih =>
      obtain ⟨before,last⟩ := List.forall_mem_append.mp free
      rw [← List.append_assoc]
      exact (ih before).append fun s _ => List.forall_mem_singleton.mp last s

theorem Throughout.append {good : State → Prop} (all : Throughout advance origin earlier good)
    (last : ∀ s, Runs advance origin (earlier ++ [event]) s → good s) :
    Throughout advance origin (earlier ++ [event]) good := by
  intro front s shorter path
  rcases List.prefix_concat_iff.mp shorter with rfl | old
  · exact last s path
  · exact all front s old path

-- The same said from the front, which is how a concrete run is checked.
theorem EachStep.nil {ok : State → Event → Prop} : EachStep advance origin [] ok := by
  intro earlier event s shorter _
  simp at shorter

theorem EachStep.cons {ok : State → Event → Prop} : EachStep advance before (event :: later) ok ↔
    ok before event ∧ ∀ middle, advance before event = some middle → EachStep advance middle later ok := by
  constructor
  · intro all
    refine ⟨all [] event before (by simp) .nil,?_⟩
    intro middle accepted earlier next s shorter path
    exact all (event :: earlier) next s (by simpa using shorter) (.cons accepted path)
  · rintro ⟨first,rest⟩ earlier next s shorter path
    cases earlier with
    | nil =>
        obtain ⟨rfl,_⟩ := List.cons_prefix_cons.mp shorter
        rwa [← Runs.nil.unique path]
    | cons head tail =>
        obtain ⟨rfl,inner⟩ := List.cons_prefix_cons.mp shorter
        obtain ⟨middle,accepted,onward⟩ := Option.bind_eq_some_iff.mp (run_exact.mpr path)
        exact rest middle accepted tail next s inner (run_exact.mp onward)

instance EachStep.decidable (advance : State → Event → Option State) (ok : State → Event → Prop)
    [∀ s event, Decidable (ok s event)] : ∀ origin events, Decidable (EachStep advance origin events ok)
  | _,[] => isTrue .nil
  | before,event :: later =>
    match accepted : advance before event with
    | none => decidable_of_iff (ok before event) (by simp [EachStep.cons,accepted])
    | some middle =>
      have := EachStep.decidable advance ok middle later
      decidable_of_iff (ok before event ∧ EachStep advance middle later ok) (by simp [EachStep.cons,accepted])

theorem Runs.guarded {inv : State → Prop} {ok : State → Event → Prop} (initial : inv origin)
    (preserved : ∀ s event t, inv s → ok s event → advance s event = some t → inv t)
    (path : Runs advance origin events after) (each : EachStep advance origin events ok) : inv after := by
  induction path with
  | nil => exact initial
  | step prior accepted ih =>
      exact preserved _ _ _ (ih each.front) (each.final prior) accepted

-- The first step that misses an exact condition already leaves a bad state behind.
theorem Runs.throughout_iff {inv good : State → Prop} {ok : State → Event → Prop}
    (initial : inv origin) (first : good origin)
    (preserved : ∀ s event t, inv s → advance s event = some t → inv t)
    (exact : ∀ s event t, inv s → good s → advance s event = some t → (good t ↔ ok s event))
    (path : Runs advance origin events after) :
    Throughout advance origin events good ↔ EachStep advance origin events ok := by
  induction path with
  | nil =>
      refine ⟨fun _ earlier event s front _ => ?_,fun _ earlier s front path => ?_⟩
      · simp at front
      · obtain rfl := List.prefix_nil.mp front
        rwa [← Runs.nil.unique path]
  | step prior accepted ih =>
      have valid := Runs.invariant initial preserved prior
      constructor
      · intro all
        apply (ih.mp all.front).append
        intro s path
        rw [← prior.unique path]
        exact (exact _ _ _ valid (all.front.final prior) accepted).mp (all.final (.step prior accepted))
      · intro all
        have sofar := ih.mpr all.front
        apply sofar.append
        intro s path
        rw [← (Runs.step prior accepted).unique path]
        exact (exact _ _ _ valid (sofar.final prior) accepted).mpr (all.final prior)

-- What one bad step spoils for good holds at the end just when no step was bad.
theorem Runs.lasting_iff {inv good : State → Prop} {ok : State → Event → Prop} (initial : inv origin) (first : good origin)
    (preserved : ∀ s event t, inv s → advance s event = some t → inv t)
    (exact : ∀ s event t, inv s → advance s event = some t → (good t ↔ good s ∧ ok s event))
    (path : Runs advance origin events after) : good after ↔ EachStep advance origin events ok := by
  induction path with
  | nil => exact iff_of_true first .nil
  | step prior accepted ih =>
      rw [exact _ _ _ (Runs.invariant initial preserved prior) accepted,ih]
      constructor
      · intro ⟨each,last⟩
        apply each.append
        intro s path
        rwa [← prior.unique path]
      · intro each
        exact ⟨each.front,each.final prior⟩

-- What a run shows on its way: `observe` sees each event with the state it met.
def observed {Observation : Type*} (advance : State → Event → Option State)
    (observe : State → Event → List Observation) : State → List Event → List Observation
  | _,[] => []
  | s,event :: rest => observe s event ++ (advance s event).elim [] (observed advance observe · rest)

theorem Runs.observed_append {observe : State → Event → List Observation} (path : Runs advance origin earlier middle) :
    observed advance observe origin (earlier ++ later) =
      observed advance observe origin earlier ++ observed advance observe middle later := by
  have checked := run_exact.mpr path
  clear path
  induction earlier generalizing origin with
  | nil => cases Option.some.inj checked; rfl
  | cons event rest ih =>
      obtain ⟨next,accepted,tail⟩ := Option.bind_eq_some_iff.mp checked
      simp only [List.cons_append,observed,accepted,Option.elim,ih tail,List.append_assoc]

theorem Runs.observed_step {observe : State → Event → List Observation} (prior : Runs advance origin earlier s)
    (accepted : advance s event = some t) : observed advance observe origin (earlier ++ [event]) =
      observed advance observe origin earlier ++ observe s event := by
  rw [prior.observed_append]
  simp [observed,accepted]

-- Logs and queues grow at their end.
theorem snoc_all {items : List Item} {good : Item → Prop} (all : ∀ item ∈ items, good item) (last : good newest) :
    ∀ item ∈ items ++ [newest], good item :=
  List.forall_mem_append.mpr ⟨all,List.forall_mem_singleton.mpr last⟩

-- Forward simulation by a machine over the same events.
theorem Runs.simulates {abstractly : Abstract → Event → Option Abstract} {shadow : Abstract}
    (related : State → Abstract → Prop) (initial : related origin shadow)
    (match_step : ∀ s a event t, related s a → advance s event = some t →
      ∃ b, abstractly a event = some b ∧ related t b)
    (path : Runs advance origin events after) :
    ∃ b, Runs abstractly shadow events b ∧ related after b := by
  induction path with
  | nil => exact ⟨shadow,.nil,initial⟩
  | step prior accepted ih =>
      obtain ⟨a,shadowed,relation⟩ := ih
      obtain ⟨b,next,relation⟩ := match_step _ _ _ _ relation accepted
      exact ⟨b,.step shadowed next,relation⟩

-- Refinement: a step of one machine is any number of steps of another that show the same.
theorem Runs.refines {Command Shown : Type*} {abstractly : Abstract → Command → Option Abstract}
    {ok : State → Event → Prop} (view : State → Abstract) (shown : Event → Option Shown) (displayed : Command → Option Shown)
    (match_step : ∀ earlier s event t, Runs advance origin earlier s → ok s event → advance s event = some t →
      ∃ commands, Runs abstractly (view s) commands (view t) ∧ commands.filterMap displayed = (shown event).toList)
    (path : Runs advance origin events after) (each : EachStep advance origin events ok) :
    ∃ commands, Runs abstractly (view origin) commands (view after) ∧
      commands.filterMap displayed = events.filterMap shown := by
  induction path with
  | nil => exact ⟨[],.nil,rfl⟩
  | step prior accepted ih =>
      rename_i earlier s event t
      obtain ⟨before,shadowed,same⟩ := ih each.front
      obtain ⟨commands,next,more⟩ := match_step earlier s event t prior (each.final prior) accepted
      refine ⟨before ++ commands,shadowed.append next,?_⟩
      rw [List.filterMap_append,List.filterMap_append,same,more]
      cases seen : shown event <;> simp [seen]

end TransitionRuns
