import CanvasPainter.AdmissionPool

namespace CanvasPainter.FetcherService
open AdmissionPool

structure URL where
  host : String
  isFileURL : Bool
  deriving DecidableEq, Repr

-- The service's bound, which is taken to stay as it was set, and what the service asks of its fetchers.
structure Settings (Fetcher : Type) where
  maxRunningFetchersPerHost : Nat
  usingBackgroundSession : Fetcher → Bool
  servicePriority : Fetcher → Int

-- No array for a host and an empty one are the same here.
structure Service (Fetcher : Type) where
  delayedFetchersByHost : String → List Fetcher
  runningFetchersByHost : String → List Fetcher
  serviceHost : Fetcher → Option String

variable {Fetcher : Type}

def initial : Service Fetcher := ⟨fun _ => [],fun _ => [],fun _ => none⟩

def NSIntegerMin : Int := -9223372036854775808

def requestHost (requestURL : URL) : String :=
  if requestURL.host = "" ∧ requestURL.isFileURL then "localhost" else requestURL.host

section Source
variable [DecidableEq Fetcher] (settings : Settings Fetcher)

def addRunningFetcher (s : Service Fetcher) (fetcher : Fetcher) (host : String) : Service Fetcher :=
  {s with runningFetchersByHost := Function.update s.runningFetchersByHost host (s.runningFetchersByHost host ++ [fetcher])}

def addDelayedFetcher (s : Service Fetcher) (fetcher : Fetcher) (host : String) : Service Fetcher :=
  {s with delayedFetchersByHost := Function.update s.delayedFetchersByHost host (s.delayedFetchersByHost host ++ [fetcher])}

def setServiceHost (s : Service Fetcher) (fetcher : Fetcher) (host : Option String) : Service Fetcher :=
  {s with serviceHost := Function.update s.serviceHost fetcher host}

def numberOfNonBackgroundSessionFetchers (fetchers : List Fetcher) : Nat :=
  fetchers.countP (fun fetcher => !settings.usingBackgroundSession fetcher)

def shouldRunNow (fetcher : Fetcher) (runningForHost : List Fetcher) : Bool :=
  settings.usingBackgroundSession fetcher || settings.maxRunningFetchersPerHost == 0 ||
    settings.maxRunningFetchersPerHost > numberOfNonBackgroundSessionFetchers settings runningForHost

def fetcherShouldBeginFetching (s : Service Fetcher) (fetcher : Fetcher) (requestURL : URL) : Bool × Service Fetcher :=
  let host := requestHost requestURL
  if host = "" then (true,s)
  else if fetcher ∈ s.runningFetchersByHost host then (true,s)
  else if shouldRunNow settings fetcher (s.runningFetchersByHost host) then
    (true,setServiceHost (addRunningFetcher s fetcher host) fetcher (some host))
  else (false,setServiceHost (addDelayedFetcher s fetcher host) fetcher (some host))

def beginFetchMayDelay (mayDelay : Bool) (s : Service Fetcher) (fetcher : Fetcher) (requestURL : URL) :
    Bool × Service Fetcher :=
  let mayDelay := if settings.servicePriority fetcher = NSIntegerMin then false else mayDelay
  if mayDelay then fetcherShouldBeginFetching settings s fetcher requestURL else (true,s)

def nextFetcher (delayedForHost : List Fetcher) : Option Fetcher :=
  delayedForHost.foldl (fun nextFetcher delayedFetcher => match nextFetcher with
    | none => some delayedFetcher
    | some next =>
        if settings.servicePriority delayedFetcher < settings.servicePriority next then some delayedFetcher else some next)
    none

-- Every pass takes one fetcher out of the delayed ones, so their number bounds the passes.
def startDelayed : Nat → List Fetcher → List Fetcher → List Fetcher × List Fetcher × List Fetcher
  | 0,runningForHost,delayedForHost => (runningForHost,delayedForHost,[])
  | passes+1,runningForHost,delayedForHost =>
      if delayedForHost.length > 0 ∧
          numberOfNonBackgroundSessionFetchers settings runningForHost < settings.maxRunningFetchersPerHost then
        match nextFetcher settings delayedForHost with
        | none => (runningForHost,delayedForHost,[])
        | some next =>
            let (running,delayed,fetchersToStart) :=
              startDelayed passes (runningForHost ++ [next]) (delayedForHost.filter (fun fetcher => fetcher ≠ next))
            (running,delayed,next :: fetchersToStart)
      else (runningForHost,delayedForHost,[])

def fetcherDidStop (s : Service Fetcher) (fetcher : Fetcher) : Service Fetcher × List Fetcher :=
  match s.serviceHost fetcher with
  | none => (s,[])
  | some host =>
      let runningForHost := (s.runningFetchersByHost host).filter (fun other => other ≠ fetcher)
      let delayedForHost := (s.delayedFetchersByHost host).filter (fun other => other ≠ fetcher)
      let (running,delayed,fetchersToStart) := startDelayed settings delayedForHost.length runningForHost delayedForHost
      let s := {s with
        runningFetchersByHost := Function.update s.runningFetchersByHost host running
        delayedFetchersByHost := Function.update s.delayedFetchersByHost host delayed}
      (setServiceHost s fetcher none,fetchersToStart)

-- The fetchers taken out are stopped one by one afterwards, each by a fetcherDidStop of its own.
def stopAllFetchers (s : Service Fetcher) : Service Fetcher :=
  {s with delayedFetchersByHost := fun _ => [],runningFetchersByHost := fun _ => []}

inductive Event (Fetcher : Type) where
  | beginFetch (fetcher : Fetcher) (requestURL : URL)
  | didStop (fetcher : Fetcher)
  | stopAll

def apply (s : Service Fetcher) : Event Fetcher → Service Fetcher
  | .beginFetch fetcher requestURL => (beginFetchMayDelay settings true s fetcher requestURL).2
  | .didStop fetcher => (fetcherDidStop settings s fetcher).1
  | .stopAll => stopAllFetchers s

def fetchersToStart (s : Service Fetcher) : Event Fetcher → List Fetcher
  | .didStop fetcher => (fetcherDidStop settings s fetcher).2
  | _ => []

def run (s : Service Fetcher) (events : List (Event Fetcher)) : Service Fetcher := events.foldl (apply settings) s

@[simp] theorem run_nil : run settings s [] = s := rfl

@[simp] theorem run_cons : run settings s (event :: rest) = run settings (apply settings s event) rest := rfl

end Source

section Hosts
variable {settings : Settings Fetcher} {running delayed : List Fetcher} {fetcher : Fetcher}

-- One host's arrays are a pool, the service's priorities its ranks.
def rules (settings : Settings Fetcher) : Rules Fetcher :=
  ⟨if settings.maxRunningFetchersPerHost = 0 then none else some settings.maxRunningFetchersPerHost,
    settings.usingBackgroundSession,settings.servicePriority⟩

def Service.pool (s : Service Fetcher) (host : String) : Pool Fetcher :=
  ⟨s.runningFetchersByHost host,s.delayedFetchersByHost host⟩

-- What an event is to one host.
def action (settings : Settings Fetcher) (s : Service Fetcher) (host : String) : Event Fetcher → Option (Action Fetcher)
  | .beginFetch fetcher requestURL =>
      if settings.servicePriority fetcher ≠ NSIntegerMin ∧ requestHost requestURL ≠ "" ∧ requestHost requestURL = host then
        some (.arrive fetcher) else none
  | .didStop fetcher => if s.serviceHost fetcher = some host then some (.leave fetcher) else none
  | .stopAll => some .clear

theorem nextFetcher_argmin : nextFetcher settings delayed = delayed.argmin settings.servicePriority := by
  unfold nextFetcher List.argmin
  congr
  funext next fetcher
  cases next <;> rfl

theorem room_number (bounded : settings.maxRunningFetchersPerHost ≠ 0) : (rules settings).Room running ↔
    numberOfNonBackgroundSessionFetchers settings running < settings.maxRunningFetchersPerHost := by
  simp [Rules.Room,rules,bounded,Rules.busy,numberOfNonBackgroundSessionFetchers]

theorem room_unbounded (unbounded : settings.maxRunningFetchersPerHost = 0) : (rules settings).Room running := by
  simp [Rules.Room,rules,unbounded]

theorem runs_now : shouldRunNow settings fetcher running = true ↔
    (rules settings).exempt fetcher = true ∨ (rules settings).Room running := by
  by_cases unbounded : settings.maxRunningFetchersPerHost = 0
  · simp [shouldRunNow,unbounded,room_unbounded unbounded]
  · rw [room_number unbounded]
    simp [shouldRunNow,unbounded,rules]

theorem delayed_bounded (sound : Sound (rules settings) pool) (waits : pool.waiting ≠ []) :
    settings.maxRunningFetchersPerHost ≠ 0 :=
  fun unbounded => sound.conserving waits (room_unbounded unbounded)

variable [DecidableEq Fetcher]

-- With no bound nothing is ever delayed, so the loop's other reading of 0 is never taken.
theorem startDelayed_fill (passes : Nat) (running delayed : List Fetcher) (enough : delayed.length ≤ passes)
    (bounded : delayed ≠ [] → settings.maxRunningFetchersPerHost ≠ 0) :
    Fill (rules settings) ⟨running,delayed⟩ (startDelayed settings passes running delayed).2.2
      ⟨(startDelayed settings passes running delayed).1,(startDelayed settings passes running delayed).2.1⟩ := by
  induction passes generalizing running delayed with
  | zero => exact .settled (.inl (List.length_eq_zero_iff.mp (Nat.le_zero.mp enough)))
  | succ passes ih =>
      by_cases nobody : delayed = []
      · subst delayed
        have ended : Fill (rules settings) ⟨running,[]⟩ [] ⟨running,[]⟩ := .settled (.inl rfl)
        simpa [startDelayed] using ended
      · have room : (rules settings).Room running ↔
            numberOfNonBackgroundSessionFetchers settings running < settings.maxRunningFetchersPerHost :=
          room_number (bounded nobody)
        by_cases vacant : numberOfNonBackgroundSessionFetchers settings running < settings.maxRunningFetchersPerHost
        · cases chosen : nextFetcher settings delayed with
          | none =>
              rw [nextFetcher_argmin,List.argmin_eq_none] at chosen
              exact absurd chosen nobody
          | some next =>
              have least : next ∈ delayed.argmin settings.servicePriority := nextFetcher_argmin ▸ chosen
              have shorter : (without delayed next).length < delayed.length :=
                List.length_filter_lt_length_iff_exists.mpr ⟨next,List.argmin_mem least,by simp⟩
              have rest := ih (running ++ [next]) (without delayed next) (by omega) (fun _ => bounded nobody)
              have pass : Fill (rules settings) ⟨running,delayed⟩ _ _ := .next (room.mpr vacant) least rest
              simpa [startDelayed,List.length_pos_iff.mpr nobody,vacant,chosen,without] using pass
        · have ended : Fill (rules settings) ⟨running,delayed⟩ [] ⟨running,delayed⟩ := .settled (.inr (room.not.mpr vacant))
          simpa [startDelayed,vacant] using ended

end Hosts

section Projection
variable [DecidableEq Fetcher] (settings : Settings Fetcher) {s : Service Fetcher} {fetcher : Fetcher} {host : String}

theorem begin_elsewhere (elsewhere : action settings s host (.beginFetch fetcher requestURL) = none) :
    (apply settings s (.beginFetch fetcher requestURL)).pool host = s.pool host := by
  simp only [action,ite_eq_right_iff,reduceCtorEq,imp_false] at elsewhere
  simp only [apply,beginFetchMayDelay]
  by_cases bypass : settings.servicePriority fetcher = NSIntegerMin
  · simp [bypass]
  · by_cases hostless : requestHost requestURL = ""
    · simp [bypass,fetcherShouldBeginFetching,hostless]
    · have other : host ≠ requestHost requestURL := fun same => elsewhere ⟨bypass,hostless,same.symm⟩
      simp only [bypass,if_false,if_true,fetcherShouldBeginFetching,hostless]
      split
      · rfl
      · split <;> simp [Service.pool,setServiceHost,addRunningFetcher,addDelayedFetcher,other]

theorem begin_here (bypass : settings.servicePriority fetcher ≠ NSIntegerMin) (hosted : requestHost requestURL ≠ "") :
    Step (rules settings) (s.pool (requestHost requestURL)) (.arrive fetcher) []
      ((apply settings s (.beginFetch fetcher requestURL)).pool (requestHost requestURL)) := by
  simp only [apply,beginFetchMayDelay,bypass,if_false,if_true,fetcherShouldBeginFetching,hosted]
  by_cases present : fetcher ∈ s.runningFetchersByHost (requestHost requestURL)
  · simp only [present,if_true]
    exact .present present
  · simp only [present,if_false]
    by_cases now : shouldRunNow settings fetcher (s.runningFetchersByHost (requestHost requestURL)) = true
    · have admitted : Step (rules settings) (s.pool (requestHost requestURL)) _ _ _ := .admitted present (runs_now.mp now)
      simpa [now,Service.pool,setServiceHost,addRunningFetcher] using admitted
    · have refused := not_or.mp (runs_now.not.mp now)
      have held : Step (rules settings) (s.pool (requestHost requestURL)) _ _ _ :=
        .held present (Bool.eq_false_of_not_eq_true refused.1) refused.2
      simpa [now,Service.pool,setServiceHost,addDelayedFetcher] using held

theorem stop_elsewhere (elsewhere : s.serviceHost fetcher ≠ some host) :
    (apply settings s (.didStop fetcher)).pool host = s.pool host := by
  simp only [apply,fetcherDidStop]
  cases place : s.serviceHost fetcher with
  | none => rfl
  | some own =>
      have other : host ≠ own := fun same => elsewhere (same ▸ place)
      simp [Service.pool,setServiceHost,other]

theorem stop_fill (place : s.serviceHost fetcher = some host) (sound : Sound (rules settings) (s.pool host)) :
    Fill (rules settings) ⟨without (s.runningFetchersByHost host) fetcher,without (s.delayedFetchersByHost host) fetcher⟩
      (fetchersToStart settings s (.didStop fetcher)) ((apply settings s (.didStop fetcher)).pool host) := by
  have bounded : without (s.delayedFetchersByHost host) fetcher ≠ [] → settings.maxRunningFetchersPerHost ≠ 0 := by
    intro nonempty
    apply delayed_bounded sound
    intro nobody
    exact nonempty (by simpa [without,Service.pool] using congrArg (without · fetcher) nobody)
  have fill := startDelayed_fill _ (without (s.runningFetchersByHost host) fetcher) _ (Nat.le_refl _) bounded
  simpa [apply,fetchersToStart,fetcherDidStop,place,Service.pool,setServiceHost,without] using fill

theorem stop_here (place : s.serviceHost fetcher = some host) (sound : Sound (rules settings) (s.pool host)) :
    Step (rules settings) (s.pool host) (.leave fetcher) (fetchersToStart settings s (.didStop fetcher))
      ((apply settings s (.didStop fetcher)).pool host) := .leave (stop_fill settings place sound)

-- Each event is to every host one step of its pool, or none.
theorem simulates (sound : Sound (rules settings) (s.pool host)) (event : Event Fetcher) :
    (∃ act, action settings s host event = some act ∧
      Step (rules settings) (s.pool host) act (fetchersToStart settings s event) ((apply settings s event).pool host)) ∨
    (action settings s host event = none ∧ (apply settings s event).pool host = s.pool host) := by
  cases event with
  | beginFetch fetcher requestURL =>
      by_cases here : settings.servicePriority fetcher ≠ NSIntegerMin ∧ requestHost requestURL ≠ "" ∧ requestHost requestURL = host
      · obtain ⟨bypass,hosted,rfl⟩ := here
        exact .inl ⟨_,if_pos ⟨bypass,hosted,rfl⟩,begin_here settings bypass hosted⟩
      · have elsewhere : action settings s host (.beginFetch fetcher requestURL) = none := if_neg here
        exact .inr ⟨elsewhere,begin_elsewhere settings elsewhere⟩
  | didStop fetcher =>
      by_cases place : s.serviceHost fetcher = some host
      · exact .inl ⟨_,if_pos place,stop_here settings place sound⟩
      · exact .inr ⟨if_neg place,stop_elsewhere settings place⟩
  | stopAll => exact .inl ⟨_,rfl,.clear⟩

theorem apply_sound (sound : Sound (rules settings) (s.pool host)) (event : Event Fetcher) :
    Sound (rules settings) ((apply settings s event).pool host) := by
  rcases simulates settings sound event with ⟨_,_,step⟩ | ⟨_,same⟩
  · exact step_sound sound step
  · exact same ▸ sound

theorem run_sound (sound : Sound (rules settings) (s.pool host)) (events : List (Event Fetcher)) :
    Sound (rules settings) ((run settings s events).pool host) := by
  induction events generalizing s with
  | nil => exact sound
  | cons event rest ih => exact ih (apply_sound settings sound event)

end Projection

end CanvasPainter.FetcherService
