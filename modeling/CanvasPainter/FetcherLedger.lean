import CanvasPainter.FetcherTurns

namespace CanvasPainter.FetcherService
open AdmissionPool
variable {Fetcher : Type} {s next : Service Fetcher} {fetcher other : Fetcher} {host place : String} {event : Event Fetcher}

-- A fetcher begins only when the service does not hold it: after its stop, or for the first time.
def Ready (s : Service Fetcher) : Event Fetcher → Prop
  | .beginFetch fetcher _ => s.serviceHost fetcher = none
  | _ => True

def Held (s : Service Fetcher) (host : String) (fetcher : Fetcher) : Prop :=
  fetcher ∈ s.runningFetchersByHost host ∨ fetcher ∈ s.delayedFetchersByHost host

structure Placed (s : Service Fetcher) : Prop where
  place : ∀ host fetcher, Held s host fetcher → s.serviceHost fetcher = some host
  single : ∀ host, (s.delayedFetchersByHost host).Nodup

theorem initial_placed : Placed (initial : Service Fetcher) := by
  constructor <;> simp [Held,initial]

theorem idle_absent (placed : Placed s) (idle : s.serviceHost fetcher = none) : fetcher ∉ s.delayedFetchersByHost host := by
  intro inside
  have known := placed.place host fetcher (.inr inside)
  simp [idle] at known

theorem held_pool (same : next.pool host = s.pool host) : Held next host other ↔ Held s host other := by
  obtain ⟨running,delayed⟩ := Pool.mk.inj same
  unfold Held
  rw [running,delayed]

variable [DecidableEq Fetcher] (settings : Settings Fetcher)

def Orderly : Service Fetcher → List (Event Fetcher) → Prop
  | _,[] => True
  | s,event :: rest => Ready s event ∧ Orderly (apply settings s event) rest

def delayedTimes (fetcher : Fetcher) (s : Service Fetcher) : Nat :=
  match s.serviceHost fetcher with
  | none => 0
  | some host => (s.delayedFetchersByHost host).count fetcher

def requested (fetcher : Fetcher) (_ : Service Fetcher) : Event Fetcher → Nat
  | .beginFetch other _ => if other = fetcher then 1 else 0
  | _ => 0

-- Told to fetch at once, or started by the service later on.
def begun (fetcher : Fetcher) (s : Service Fetcher) (event : Event Fetcher) : Nat :=
  (match event with
    | .beginFetch other requestURL =>
        if other = fetcher ∧ (beginFetchMayDelay settings true s other requestURL).1 = true then 1 else 0
    | _ => 0) + (fetchersToStart settings s event).count fetcher

def withdrawn (fetcher : Fetcher) (s : Service Fetcher) : Event Fetcher → Nat
  | .didStop other => if other = fetcher then delayedTimes fetcher s else 0
  | .stopAll => delayedTimes fetcher s
  | .beginFetch _ _ => 0

theorem begin_cases (s : Service Fetcher) (fetcher : Fetcher) (requestURL : URL) :
    beginFetchMayDelay settings true s fetcher requestURL = (true,s) ∨
    (∃ host, beginFetchMayDelay settings true s fetcher requestURL =
      (true,setServiceHost (addRunningFetcher s fetcher host) fetcher (some host))) ∨
    ∃ host, beginFetchMayDelay settings true s fetcher requestURL =
      (false,setServiceHost (addDelayedFetcher s fetcher host) fetcher (some host)) := by
  by_cases bypass : settings.servicePriority fetcher = NSIntegerMin
  · exact .inl (by simp [beginFetchMayDelay,bypass])
  · simp only [beginFetchMayDelay,bypass,if_false,if_true,fetcherShouldBeginFetching]
    split
    · exact .inl rfl
    · split
      · exact .inl rfl
      · split
        · exact .inr (.inl ⟨_,rfl⟩)
        · exact .inr (.inr ⟨_,rfl⟩)

variable {settings}

theorem held_addRunning : Held (setServiceHost (addRunningFetcher s fetcher host) fetcher (some host)) place other ↔
    Held s place other ∨ place = host ∧ other = fetcher := by
  by_cases here : place = host
  · subst place
    simp [Held,setServiceHost,addRunningFetcher]
    tauto
  · simp [Held,setServiceHost,addRunningFetcher,here]

theorem held_addDelayed : Held (setServiceHost (addDelayedFetcher s fetcher host) fetcher (some host)) place other ↔
    Held s place other ∨ place = host ∧ other = fetcher := by
  by_cases here : place = host
  · subst place
    simp [Held,setServiceHost,addDelayedFetcher]
    tauto
  · simp [Held,setServiceHost,addDelayedFetcher,here]

theorem place_added (placed : Placed s) (idle : s.serviceHost fetcher = none)
    (held : Held s place other ∨ place = host ∧ other = fetcher) :
    Function.update s.serviceHost fetcher (some host) other = some place := by
  rcases held with before | ⟨rfl,rfl⟩
  · have known := placed.place place other before
    have different : other ≠ fetcher := by
      rintro rfl
      simp [idle] at known
    simpa [different] using known
  · simp

theorem begin_placed (placed : Placed s) (idle : s.serviceHost fetcher = none) (requestURL : URL) :
    Placed (apply settings s (.beginFetch fetcher requestURL)) := by
  simp only [apply]
  rcases begin_cases settings s fetcher requestURL with same | ⟨host,now⟩ | ⟨host,later⟩
  · rw [same]
    exact placed
  · rw [now]
    refine ⟨?_,placed.single⟩
    intro place other held
    exact place_added (s := s) placed idle ((held_addRunning (s := s)).mp held)
  · rw [later]
    refine ⟨?_,?_⟩
    · intro place other held
      exact place_added (s := s) placed idle ((held_addDelayed (s := s)).mp held)
    · intro place
      by_cases here : place = host
      · subst place
        simpa [setServiceHost,addDelayedFetcher] using add_single (placed.single host) (idle_absent placed idle)
      · simpa [setServiceHost,addDelayedFetcher,here] using placed.single place

theorem stop_host : (apply settings s (.didStop fetcher)).serviceHost = Function.update s.serviceHost fetcher none := by
  simp only [apply,fetcherDidStop]
  cases place : s.serviceHost fetcher with
  | none => exact (Function.update_eq_self_iff.mpr place.symm).symm
  | some host => rfl

theorem stop_shares (placed : Placed s) (sound : Sound (rules settings) (s.pool host))
    (here : s.serviceHost fetcher = some host) :
    (without (s.delayedFetchersByHost host) fetcher).Perm
      (fetchersToStart settings s (.didStop fetcher) ++ (apply settings s (.didStop fetcher)).delayedFetchersByHost host) :=
  fill_shares (stop_fill settings here sound) (without_sublist.nodup (placed.single host))

theorem stop_held (placed : Placed s) (sound : Sound (rules settings) (s.pool host))
    (here : s.serviceHost fetcher = some host) (held : Held (apply settings s (.didStop fetcher)) host other) :
    Held s host other ∧ other ≠ fetcher := by
  have shares := stop_shares placed sound here
  have runs : (apply settings s (.didStop fetcher)).runningFetchersByHost host =
      without (s.runningFetchersByHost host) fetcher ++ fetchersToStart settings s (.didStop fetcher) :=
    fill_running (stop_fill settings here sound)
  have known : other ∈ without (s.runningFetchersByHost host) fetcher ∨ other ∈ without (s.delayedFetchersByHost host) fetcher := by
    rcases held with running | delayed
    · rw [runs] at running
      rcases List.mem_append.mp running with kept | started
      · exact .inl kept
      · exact .inr (shares.mem_iff.mpr (List.mem_append_left _ started))
    · exact .inr (shares.mem_iff.mpr (List.mem_append_right _ delayed))
  rcases known with inside | inside
  · exact ⟨.inl (mem_without.mp inside).1,(mem_without.mp inside).2⟩
  · exact ⟨.inr (mem_without.mp inside).1,(mem_without.mp inside).2⟩

theorem stop_placed (placed : Placed s) (sound : ∀ host, Sound (rules settings) (s.pool host)) :
    Placed (apply settings s (.didStop fetcher)) := by
  have kept : ∀ host, s.serviceHost fetcher ≠ some host →
      (apply settings s (.didStop fetcher)).pool host = s.pool host := fun _ => stop_elsewhere settings
  constructor
  · intro host other held
    have before : Held s host other ∧ other ≠ fetcher := by
      by_cases here : s.serviceHost fetcher = some host
      · exact stop_held placed (sound host) here held
      · have before := (held_pool (kept host here)).mp held
        refine ⟨before,fun same => here ?_⟩
        rw [← same]
        exact placed.place host other before
    rw [stop_host]
    simpa [before.2] using placed.place host other before.1
  · intro host
    by_cases here : s.serviceHost fetcher = some host
    · have shares := stop_shares placed (sound host) here
      have whole := shares.nodup (without_sublist.nodup (placed.single host))
      exact (List.nodup_append.mp whole).2.1
    · have same : (apply settings s (.didStop fetcher)).delayedFetchersByHost host = s.delayedFetchersByHost host :=
        congrArg Pool.waiting (kept host here)
      rw [same]
      exact placed.single host

theorem apply_placed (placed : Placed s) (sound : ∀ host, Sound (rules settings) (s.pool host))
    (ready : Ready s event) :
    Placed (apply settings s event) := by
  cases event with
  | beginFetch fetcher requestURL => exact begin_placed placed ready requestURL
  | didStop fetcher => exact stop_placed placed sound
  | stopAll => exact ⟨by simp [Held,apply,stopAllFetchers],by simp [apply,stopAllFetchers]⟩

theorem delayed_idle (idle : s.serviceHost fetcher = none) : delayedTimes fetcher s = 0 := by
  simp [delayedTimes,idle]

theorem delayed_at (here : s.serviceHost fetcher = some host) :
    delayedTimes fetcher s = (s.delayedFetchersByHost host).count fetcher := by
  simp [delayedTimes,here]

theorem delayed_running (absent : fetcher ∉ s.delayedFetchersByHost host) (one : Fetcher) (idle : s.serviceHost fetcher = none) :
    delayedTimes one (setServiceHost (addRunningFetcher s fetcher host) fetcher (some host)) = delayedTimes one s := by
  by_cases own : one = fetcher
  · subst one
    rw [delayed_idle idle]
    simp [delayedTimes,setServiceHost,addRunningFetcher,List.count_eq_zero.mpr absent]
  · simp [delayedTimes,setServiceHost,addRunningFetcher,own]

theorem delayed_added (absent : fetcher ∉ s.delayedFetchersByHost host) (one : Fetcher) (idle : s.serviceHost fetcher = none) :
    delayedTimes one (setServiceHost (addDelayedFetcher s fetcher host) fetcher (some host)) =
      delayedTimes one s + if fetcher = one then 1 else 0 := by
  by_cases own : one = fetcher
  · subst one
    rw [delayed_idle idle]
    simp [delayedTimes,setServiceHost,addDelayedFetcher,List.count_eq_zero.mpr absent]
  · cases place : s.serviceHost one with
    | none => simp [delayedTimes,setServiceHost,addDelayedFetcher,own,place,Ne.symm own]
    | some other =>
        by_cases here : other = host
        · subst other
          simp [delayedTimes,setServiceHost,addDelayedFetcher,own,place,Ne.symm own,List.count_append]
        · simp [delayedTimes,setServiceHost,addDelayedFetcher,own,place,Ne.symm own,here]

theorem begin_ledger (placed : Placed s) (idle : s.serviceHost fetcher = none) (requestURL : URL) (one : Fetcher) :
    delayedTimes one s + requested one s (.beginFetch fetcher requestURL) =
      begun settings one s (.beginFetch fetcher requestURL) + withdrawn one s (.beginFetch fetcher requestURL) +
        delayedTimes one (apply settings s (.beginFetch fetcher requestURL)) := by
  simp only [requested,begun,withdrawn,apply,fetchersToStart,List.count_nil]
  rcases begin_cases settings s fetcher requestURL with same | ⟨host,now⟩ | ⟨host,later⟩
  · simp only [same,and_true]
    omega
  · rw [now]
    simp only [delayed_running (idle_absent placed idle) one idle,and_true]
    omega
  · rw [later]
    simp only [delayed_added (idle_absent placed idle) one idle,Bool.false_eq_true,and_false,if_false]
    omega

theorem stop_ledger (placed : Placed s) (sound : ∀ host, Sound (rules settings) (s.pool host)) (one : Fetcher) :
    delayedTimes one s = begun settings one s (.didStop fetcher) + withdrawn one s (.didStop fetcher) +
      delayedTimes one (apply settings s (.didStop fetcher)) := by
  cases place : s.serviceHost fetcher with
  | none =>
      have nothing : fetchersToStart settings s (.didStop fetcher) = [] := by simp [fetchersToStart,fetcherDidStop,place]
      have same : apply settings s (.didStop fetcher) = s := by simp [apply,fetcherDidStop,place]
      rw [same]
      simp only [begun,withdrawn,nothing,List.count_nil]
      split
      · rename_i own
        subst own
        simp [delayed_idle place]
      · simp
  | some host =>
      have shares := (stop_shares placed (sound host) place).count_eq one
      rw [List.count_append] at shares
      have after : (apply settings s (.didStop fetcher)).serviceHost one = Function.update s.serviceHost fetcher none one := by
        rw [stop_host]
      simp only [begun,withdrawn,Nat.zero_add]
      by_cases own : fetcher = one
      · subst one
        have gone : (without (s.delayedFetchersByHost host) fetcher).count fetcher = 0 := by simp [List.count_eq_zero]
        rw [Function.update_self] at after
        rw [delayed_idle after,if_pos rfl]
        omega
      · rw [Function.update_of_ne (Ne.symm own)] at after
        rw [if_neg own]
        have kept : (without (s.delayedFetchersByHost host) fetcher).count one = (s.delayedFetchersByHost host).count one :=
          List.count_filter (by simpa using Ne.symm own)
        by_cases here : s.serviceHost one = some host
        · rw [delayed_at here,delayed_at (after.trans here)]
          omega
        · have absent : (s.delayedFetchersByHost host).count one = 0 :=
            List.count_eq_zero.mpr fun inside => here (placed.place host one (.inr inside))
          have same : delayedTimes one (apply settings s (.didStop fetcher)) = delayedTimes one s := by
            cases other : s.serviceHost one with
            | none => rw [delayed_idle other,delayed_idle (after.trans other)]
            | some own =>
                have different : s.serviceHost fetcher ≠ some own := fun same => here (by rw [other,← same,place])
                rw [delayed_at other,delayed_at (after.trans other)]
                exact congrArg (List.count one) (congrArg Pool.waiting (stop_elsewhere settings different))
          omega

theorem apply_ledger (placed : Placed s) (sound : ∀ host, Sound (rules settings) (s.pool host))
    (ready : Ready s event) (one : Fetcher) :
    delayedTimes one s + requested one s event =
      begun settings one s event + withdrawn one s event + delayedTimes one (apply settings s event) := by
  cases event with
  | beginFetch fetcher requestURL => exact begin_ledger placed ready requestURL one
  | didStop fetcher => exact stop_ledger placed sound one
  | stopAll =>
      have cleared : delayedTimes one (stopAllFetchers s) = 0 := by
        unfold delayedTimes stopAllFetchers
        split <;> simp
      simp [requested,begun,withdrawn,fetchersToStart,apply,cleared]

theorem run_placed (events : List (Event Fetcher)) (placed : Placed s) (sound : ∀ host, Sound (rules settings) (s.pool host))
    (orderly : Orderly settings s events) : Placed (run settings s events) := by
  induction events generalizing s with
  | nil => exact placed
  | cons event rest ih =>
      exact ih (apply_placed placed sound orderly.1) (fun host => apply_sound settings (sound host) event) orderly.2

theorem run_ledger (events : List (Event Fetcher)) (placed : Placed s) (sound : ∀ host, Sound (rules settings) (s.pool host))
    (orderly : Orderly settings s events) (one : Fetcher) :
    delayedTimes one s + total settings (requested one) s events =
      total settings (begun settings one) s events + total settings (withdrawn one) s events +
        delayedTimes one (run settings s events) := by
  induction events generalizing s with
  | nil => simp [total]
  | cons event rest ih =>
      have here := apply_ledger placed sound orderly.1 one
      have later := ih (apply_placed placed sound orderly.1) (fun host => apply_sound settings (sound host) event) orderly.2
      simp only [total,run_cons]
      omega

theorem delayed_once (placed : Placed s) : delayedTimes fetcher s ≤ 1 := by
  unfold delayedTimes
  split
  · omega
  · exact List.nodup_iff_count_le_one.mp (placed.single _) fetcher

-- Every request is begun once, at once or from the delayed ones, unless it is still delayed or was withdrawn.
theorem begun_once (events : List (Event Fetcher)) (orderly : Orderly settings initial events) (fetcher : Fetcher) :
    total settings (requested fetcher) initial events =
      total settings (begun settings fetcher) initial events + total settings (withdrawn fetcher) initial events +
        delayedTimes fetcher (run settings initial events) ∧
    delayedTimes fetcher (run settings initial events) ≤ 1 ∧
    ∀ host, Held (run settings initial events) host fetcher → (run settings initial events).serviceHost fetcher = some host := by
  have sound : ∀ host, Sound (rules settings) ((initial : Service Fetcher).pool host) := fun _ => initial_sound settings
  have placed := run_placed events initial_placed sound orderly
  have ledger := run_ledger events initial_placed sound orderly fetcher
  rw [delayed_idle rfl,Nat.zero_add] at ledger
  exact ⟨ledger,delayed_once placed,fun host => placed.place host fetcher⟩

def twoTurns : List (Event Nat) := [.beginFetch 0 ⟨"host",false⟩,.beginFetch 1 ⟨"host",false⟩,.didStop 0]

theorem begun_once_turns : total busyHost (requested 1) initial twoTurns =
    total busyHost (begun busyHost 1) initial twoTurns + total busyHost (withdrawn 1) initial twoTurns +
      delayedTimes 1 (run busyHost initial twoTurns) := by
  have orderly : Orderly busyHost initial twoTurns := by
    refine ⟨?_,?_,trivial,trivial⟩ <;> rfl
  exact (begun_once twoTurns orderly 1).1

-- The scan for the next fetcher serves the delayed ones as a stable sort by priority would.
theorem served_in_order (events : List (Event Fetcher)) (orderly : Orderly settings initial events)
    (here : (run settings initial events).serviceHost fetcher = some host) :
    let s := run settings initial events
    let next := apply settings s (.didStop fetcher)
    let starting := fetchersToStart settings s (.didStop fetcher)
    next.runningFetchersByHost host = without (s.runningFetchersByHost host) fetcher ++ starting ∧
    queue (rules settings) (without (s.delayedFetchersByHost host) fetcher) =
      starting ++ queue (rules settings) (next.delayedFetchersByHost host) := by
  intro s next starting
  have sound : ∀ host, Sound (rules settings) ((initial : Service Fetcher).pool host) := fun _ => initial_sound settings
  have placed := run_placed events initial_placed sound orderly
  have fill := stop_fill settings here (run_sound settings (sound host) events)
  exact ⟨fill_running fill,fill_in_order fill (without_sublist.nodup (placed.single host))⟩

theorem served_in_order_urgent :
    let s := run busyHost initial [.beginFetch 0 ⟨"host",false⟩,.beginFetch 1 ⟨"host",false⟩,.beginFetch 3 ⟨"host",false⟩]
    queue (rules busyHost) [1,3] = fetchersToStart busyHost s (.didStop 0) ++
      queue (rules busyHost) ((apply busyHost s (.didStop 0)).delayedFetchersByHost "host") := by
  intro s
  have orderly : Orderly busyHost initial [.beginFetch 0 ⟨"host",false⟩,.beginFetch 1 ⟨"host",false⟩,.beginFetch 3 ⟨"host",false⟩] := by
    refine ⟨?_,?_,?_,trivial⟩ <;> rfl
  have waiting : without (s.delayedFetchersByHost "host") 0 = [1,3] := by decide
  have here : s.serviceHost 0 = some "host" := by decide
  rw [← waiting]
  exact (served_in_order _ orderly here).2

end CanvasPainter.FetcherService
