import CanvasPainter.FetcherService

namespace CanvasPainter.FetcherService
open AdmissionPool

section Waiting
variable {Fetcher : Type} (settings : Settings Fetcher) {s : Service Fetcher} {fetcher : Fetcher} {host : String}

theorem initial_sound : Sound (rules settings) ((initial : Service Fetcher).pool host) := empty_sound

theorem action_clears (alone : event ≠ .stopAll) : action settings s host event ≠ some .clear := by
  cases event with
  | beginFetch other requestURL => simp only [action]; split <;> simp
  | didStop other => simp only [action]; split <;> simp
  | stopAll => exact absurd rfl alone

theorem action_leaves (alone : event ≠ .didStop fetcher) : action settings s host event ≠ some (.leave fetcher) := by
  cases event with
  | beginFetch other requestURL => simp only [action]; split <;> simp
  | didStop other =>
      simp only [action]
      split
      · rintro same
        apply alone
        cases same
        rfl
      · simp
  | stopAll => simp [action]

variable [DecidableEq Fetcher]

-- Two methods, two readings of a bound of 0. Under a bound that was 0 from the start no fetcher waits, and so the
-- second reading never applies.
theorem throttled (events : List (Event Fetcher)) (host : String) :
    let s := run settings initial events
    (s.runningFetchersByHost host).Nodup ∧
    (∀ fetcher ∈ s.delayedFetchersByHost host,
      fetcher ∉ s.runningFetchersByHost host ∧ settings.usingBackgroundSession fetcher = false) ∧
    (settings.maxRunningFetchersPerHost ≠ 0 →
      numberOfNonBackgroundSessionFetchers settings (s.runningFetchersByHost host) ≤ settings.maxRunningFetchersPerHost) ∧
    (s.delayedFetchersByHost host ≠ [] → settings.maxRunningFetchersPerHost ≠ 0 ∧
      numberOfNonBackgroundSessionFetchers settings (s.runningFetchersByHost host) = settings.maxRunningFetchersPerHost) := by
  intro s
  have sound : Sound (rules settings) (s.pool host) := run_sound settings (initial_sound settings) events
  have most : settings.maxRunningFetchersPerHost ≠ 0 →
      numberOfNonBackgroundSessionFetchers settings (s.runningFetchersByHost host) ≤ settings.maxRunningFetchersPerHost := by
    intro bounded
    exact sound.within _ (if_neg bounded)
  refine ⟨sound.single,?_,most,?_⟩
  · intro fetcher waits
    exact ⟨sound.apart fetcher waits,sound.counted fetcher waits⟩
  · intro waits
    have bounded := delayed_bounded sound waits
    have full := (room_number bounded).not.mp (sound.conserving waits)
    exact ⟨bounded,Nat.le_antisymm (most bounded) (Nat.le_of_not_lt full)⟩

-- A quantity of single events, summed along a run.
def total (quantity : Service Fetcher → Event Fetcher → Nat) (s : Service Fetcher) : List (Event Fetcher) → Nat
  | [] => 0
  | event :: rest => quantity s event + total quantity (apply settings s event) rest

-- The places freed at a host, and the requests there that go before a fetcher.
def placesFreed (host : String) : Service Fetcher → List (Event Fetcher) → Nat :=
  total settings fun s event => ((action settings s host event).map (freed (rules settings) (s.pool host))).getD 0

def overtakers (host : String) (fetcher : Fetcher) : Service Fetcher → List (Event Fetcher) → Nat :=
  total settings fun s event => ((action settings s host event).map (overtaking (rules settings) fetcher)).getD 0

def allStarted (s : Service Fetcher) : List (Event Fetcher) → List Fetcher
  | [] => []
  | event :: rest => fetchersToStart settings s event ++ allStarted (apply settings s event) rest

-- No event of a run takes up a fetcher or lets go of it.
def LeftAlone (fetcher : Fetcher) (events : List (Event Fetcher)) : Prop :=
  (∀ requestURL, .beginFetch fetcher requestURL ∉ events) ∧ .didStop fetcher ∉ events ∧ .stopAll ∉ events

theorem delayed_waits (sound : Sound (rules settings) (s.pool host)) (waits : fetcher ∈ s.delayedFetchersByHost host)
    (stop : event ≠ .didStop fetcher) (stopAll : event ≠ .stopAll) :
    fetcher ∈ fetchersToStart settings s event ∨ fetcher ∈ (apply settings s event).delayedFetchersByHost host := by
  rcases simulates settings sound event with ⟨act,acts,step⟩ | ⟨_,same⟩
  · apply step_waits step waits
    · rintro rfl
      exact action_leaves settings stop acts
    · rintro rfl
      exact action_clears settings stopAll acts
  · right
    have unchanged : (apply settings s event).delayedFetchersByHost host = s.delayedFetchersByHost host :=
      congrArg Pool.waiting same
    rw [unchanged]
    exact waits

theorem run_waits (events : List (Event Fetcher)) (sound : Sound (rules settings) (s.pool host))
    (waits : fetcher ∈ s.delayedFetchersByHost host) (alone : LeftAlone fetcher events) :
    fetcher ∈ allStarted settings s events ∨ Waits (rules settings) fetcher (s.pool host)
      (placesFreed settings host s events) (overtakers settings host fetcher s events) ((run settings s events).pool host) := by
  induction events generalizing s with
  | nil => exact .inr (.rest waits)
  | cons event rest ih =>
      obtain ⟨begins,stops,stopsAll⟩ := alone
      simp only [List.mem_cons,not_or] at begins stops stopsAll
      rcases delayed_waits settings sound waits (Ne.symm stops.1) (Ne.symm stopsAll.1) with started | still
      · exact .inl (List.mem_append_left _ started)
      · have later := ih (apply_sound settings sound event) still ⟨fun requestURL => (begins requestURL).2,stops.2,stopsAll.2⟩
        rcases later with started | waiting
        · exact .inl (List.mem_append_right _ started)
        · right
          rcases simulates settings sound event with ⟨act,acts,step⟩ | ⟨idle,same⟩
          · have longer : Waits (rules settings) fetcher (s.pool host) _ _ _ := .step waits step waiting
            simpa [placesFreed,overtakers,total,acts] using longer
          · simpa [placesFreed,overtakers,total,idle,same] using waiting

-- Who is delayed starts before more places are freed than there are fetchers to go first.
theorem waits_bounded (before events : List (Event Fetcher))
    (waits : fetcher ∈ (run settings initial before).delayedFetchersByHost host) (alone : LeftAlone fetcher events)
    (enough : ahead (rules settings) fetcher ((run settings initial before).delayedFetchersByHost host) +
      overtakers settings host fetcher (run settings initial before) events <
        placesFreed settings host (run settings initial before) events) :
    fetcher ∈ allStarted settings (run settings initial before) events := by
  have sound : Sound (rules settings) ((run settings initial before).pool host) :=
    run_sound settings (initial_sound settings) before
  rcases run_waits settings events sound waits alone with started | waiting
  · exact started
  · have most := waits_ahead waiting sound
    have first : ((run settings initial before).pool host).waiting = (run settings initial before).delayedFetchersByHost host := rfl
    rw [first] at most
    omega

def busyHost : Settings Nat := ⟨1,fun _ => false,fun fetcher => if fetcher = 3 then -1 else 0⟩

def threeRequests : List (Event Nat) :=
  [.beginFetch 0 ⟨"host",false⟩,.beginFetch 1 ⟨"host",false⟩,.beginFetch 2 ⟨"host",false⟩]

theorem waits_bounded_third : 2 ∈ allStarted busyHost (run busyHost initial threeRequests)
    [.beginFetch 3 ⟨"host",false⟩,.didStop 0,.didStop 3,.didStop 1] := by
  have waits : 2 ∈ (run busyHost initial threeRequests).delayedFetchersByHost "host" := by decide
  apply waits_bounded busyHost threeRequests _ waits
  · refine ⟨?_,?_,?_⟩ <;> simp
  · decide

end Waiting

end CanvasPainter.FetcherService
