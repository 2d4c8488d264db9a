import CanvasPainter.TransitionRuns
import Mathlib.Data.List.Nodup

namespace CanvasPainter

inductive FIRStorageTaskState where
  | unknown
  | queueing
  | resuming
  | running
  | progress
  | pausing
  | completing
  | failing
  | paused
  | cancelled
  | success
  | failed
  deriving DecidableEq, Repr

inductive FIRStorageTaskStatus where
  | unknown
  | resume
  | progress
  | pause
  | success
  | failure
  deriving DecidableEq, Repr

-- A handler dictionary by its keys, which are UUID strings numbered as they are made.
abbrev Handlers (Handler : Type) := List (Nat × Handler)

structure HandlerDictionaries (Handler : Type) where
  resumeHandlers : Handlers Handler
  pauseHandlers : Handlers Handler
  progressHandlers : Handlers Handler
  successHandlers : Handlers Handler
  failureHandlers : Handlers Handler

structure FIRStorageObservableTask (Handler : Type) where
  state : FIRStorageTaskState
  dictionaries : HandlerDictionaries Handler
  handleToStatusMap : List (Nat × FIRStorageTaskStatus)
  handles : Nat

namespace HandlerDictionaries
variable {Handler : Type}

def empty : HandlerDictionaries Handler := ⟨[],[],[],[],[]⟩

variable (dictionaries : HandlerDictionaries Handler)

def forStatus : FIRStorageTaskStatus → Handlers Handler
  | .pause => dictionaries.pauseHandlers
  | .resume => dictionaries.resumeHandlers
  | .progress => dictionaries.progressHandlers
  | .success => dictionaries.successHandlers
  | .failure => dictionaries.failureHandlers
  | .unknown => []

-- The dictionary for the unknown status is a new one each time, and a change to it is lost.
def changed (status : FIRStorageTaskStatus) (change : Handlers Handler → Handlers Handler) : HandlerDictionaries Handler :=
  match status with
  | .pause => {dictionaries with pauseHandlers := change dictionaries.pauseHandlers}
  | .resume => {dictionaries with resumeHandlers := change dictionaries.resumeHandlers}
  | .progress => {dictionaries with progressHandlers := change dictionaries.progressHandlers}
  | .success => {dictionaries with successHandlers := change dictionaries.successHandlers}
  | .failure => {dictionaries with failureHandlers := change dictionaries.failureHandlers}
  | .unknown => dictionaries

variable {dictionaries} {status other : FIRStorageTaskStatus} {change : Handlers Handler → Handlers Handler}

theorem forStatus_empty : (empty : HandlerDictionaries Handler).forStatus status = [] := by cases status <;> rfl

theorem changed_same (known : status ≠ .unknown) :
    (dictionaries.changed status change).forStatus status = change (dictionaries.forStatus status) := by
  cases status with
  | unknown => exact absurd rfl known
  | _ => rfl

theorem changed_other (different : other ≠ status) :
    (dictionaries.changed status change).forStatus other = dictionaries.forStatus other := by
  cases status <;> cases other <;> first | rfl | exact absurd rfl different

end HandlerDictionaries

namespace FIRStorageObservableTask
variable {Handler : Type}

def init : FIRStorageObservableTask Handler := ⟨.unknown,.empty,[],0⟩

variable (task : FIRStorageObservableTask Handler)

def handlerDictionaryForStatus (status : FIRStorageTaskStatus) : Handlers Handler := task.dictionaries.forStatus status

-- The states in which observeStatus fires at once.
def firesAtOnce : FIRStorageTaskStatus → FIRStorageTaskState → Bool
  | .pause,.pausing | .pause,.paused => true
  | .resume,.resuming | .resume,.running => true
  | .progress,.running | .progress,.progress => true
  | .success,.success => true
  | .failure,.failing | .failure,.failed => true
  | _,_ => false

def fireHandlersForStatus (status : FIRStorageTaskStatus) : Handlers Handler := task.handlerDictionaryForStatus status

-- What is fired comes with the task; an unknown status raises.
def observeStatus (status : FIRStorageTaskStatus) (handler : Handler) :
    Option (FIRStorageObservableTask Handler × Handlers Handler) :=
  if status = .unknown then none
  else
    let added := {task with
      dictionaries := task.dictionaries.changed status (· ++ [(task.handles,handler)])
      handles := task.handles + 1}
    let fired := if firesAtOnce status task.state then added.fireHandlersForStatus status else []
    some ({added with handleToStatusMap := added.handleToStatusMap ++ [(task.handles,status)]},fired)

def statusOfHandle (handle : Nat) : FIRStorageTaskStatus :=
  ((task.handleToStatusMap.find? (·.1 = handle)).map (·.2)).getD .unknown

def removeObserverWithHandle (handle : Nat) : FIRStorageObservableTask Handler :=
  {task with
    dictionaries := task.dictionaries.changed (task.statusOfHandle handle) (·.filter (·.1 ≠ handle))
    handleToStatusMap := task.handleToStatusMap.filter (·.1 ≠ handle)}

def removeAllObserversForStatus (status : FIRStorageTaskStatus) : FIRStorageObservableTask Handler :=
  let keys := (task.handlerDictionaryForStatus status).map (·.1)
  {task with
    dictionaries := task.dictionaries.changed status fun _ => []
    handleToStatusMap := task.handleToStatusMap.filter (·.1 ∉ keys)}

def removeAllObservers : FIRStorageObservableTask Handler :=
  {task with dictionaries := .empty, handleToStatusMap := []}

end FIRStorageObservableTask

-- What a task is for to those who watch it: one table of observers.
namespace Observing
open TransitionRuns FIRStorageObservableTask HandlerDictionaries

structure Observer (Handler : Type) where
  handle : Nat
  status : FIRStorageTaskStatus
  handler : Handler

inductive Operation (Handler : Type) where
  | observeStatus (status : FIRStorageTaskStatus) (handler : Handler)
  | removeObserverWithHandle (handle : Nat)
  | removeAllObserversForStatus (status : FIRStorageTaskStatus)
  | removeAllObservers
  | fireHandlersForStatus (status : FIRStorageTaskStatus)
  | setState (state : FIRStorageTaskState)

-- `fired` is history: the dictionaries that were enumerated, one after another.
structure Watched (Handler : Type) where
  task : FIRStorageObservableTask Handler
  fired : List (Handlers Handler)

structure Table (Handler : Type) where
  state : FIRStorageTaskState
  observers : List (Observer Handler)
  handles : Nat
  heard : List (List (Observer Handler))

variable {Handler : Type}

def start : Watched Handler := ⟨.init,[]⟩
def noObservers : Table Handler := ⟨.unknown,[],0,[]⟩

def advance (watched : Watched Handler) : Operation Handler → Option (Watched Handler)
  | .observeStatus status handler =>
    (watched.task.observeStatus status handler).map fun (task,fired) => ⟨task,watched.fired ++ [fired]⟩
  | .removeObserverWithHandle handle => some {watched with task := watched.task.removeObserverWithHandle handle}
  | .removeAllObserversForStatus status => some {watched with task := watched.task.removeAllObserversForStatus status}
  | .removeAllObservers => some {watched with task := watched.task.removeAllObservers}
  | .fireHandlersForStatus status => some {watched with fired := watched.fired ++ [watched.task.fireHandlersForStatus status]}
  | .setState state => some {watched with task := {watched.task with state := state}}

def Table.under (table : Table Handler) (status : FIRStorageTaskStatus) : List (Observer Handler) :=
  table.observers.filter (·.status = status)

def Table.advance (table : Table Handler) : Operation Handler → Option (Table Handler)
  | .observeStatus status handler =>
    if status = .unknown then none
    else
      let added : Table Handler := {table with
        observers := table.observers ++ [⟨table.handles,status,handler⟩]
        handles := table.handles + 1}
      some {added with heard := table.heard ++ [if firesAtOnce status table.state then added.under status else []]}
  | .removeObserverWithHandle handle => some {table with observers := table.observers.filter (·.handle ≠ handle)}
  | .removeAllObserversForStatus status => some {table with observers := table.observers.filter (·.status ≠ status)}
  | .removeAllObservers => some {table with observers := []}
  | .fireHandlersForStatus status => some {table with heard := table.heard ++ [table.under status]}
  | .setState state => some {table with state := state}

def Observer.entry (observer : Observer Handler) : Nat × Handler := (observer.handle,observer.handler)

structure Represents (watched : Watched Handler) (table : Table Handler) : Prop where
  state : watched.task.state = table.state
  handles : watched.task.handles = table.handles
  dictionaries : ∀ status, watched.task.handlerDictionaryForStatus status = (table.under status).map Observer.entry
  map : watched.task.handleToStatusMap = table.observers.map fun observer => (observer.handle,observer.status)
  known : ∀ observer ∈ table.observers, observer.status ≠ .unknown ∧ observer.handle < table.handles
  distinct : (table.observers.map (·.handle)).Nodup
  fired : watched.fired = table.heard.map (·.map Observer.entry)

variable {watched next : Watched Handler} {table : Table Handler} {status : FIRStorageTaskStatus}

theorem start_represents : Represents (start : Watched Handler) noObservers := by
  exact ⟨rfl,rfl,fun _ => forStatus_empty,rfl,by simp [noObservers],List.nodup_nil,rfl⟩

theorem observeStatus_represents (shown : Represents watched table)
    (accepted : watched.task.observeStatus status handler = some (task,fired)) : ∃ after,
      table.advance (.observeStatus status handler) = some after ∧ Represents ⟨task,watched.fired ++ [fired]⟩ after := by
  obtain ⟨unknown,same⟩ := Option.ite_none_left_eq_some.mp accepted
  obtain ⟨rfl,rfl⟩ := Prod.mk.inj (Option.some.inj same)
  obtain ⟨state,handles,dictionaries,map,known,distinct,fired⟩ := shown
  clear accepted same
  let observer : Observer Handler := ⟨table.handles,status,handler⟩
  have grown : ∀ other, (watched.task.dictionaries.changed status (· ++ [(watched.task.handles,handler)])).forStatus other =
      ((table.observers ++ [observer]).filter (·.status = other)).map Observer.entry := by
    intro other
    have old : _ = List.map _ (List.filter _ _) := dictionaries other
    by_cases here : other = status
    · rw [here,changed_same unknown,← here,List.filter_append,List.map_append,← old,handles]
      simp [observer,here,Observer.entry,handlerDictionaryForStatus]
    · have new : ¬observer.status = other := fun same => here same.symm
      rw [changed_other here,List.filter_append,List.map_append,← old]
      simp [new,handlerDictionaryForStatus]
  refine ⟨_,if_neg unknown,⟨state,?_,grown,?_,?_,?_,?_⟩⟩
  · simp [handles]
  · simp [map,handles]
  · apply snoc_all
    · intro observer member
      exact ⟨(known observer member).1,Nat.lt_succ_of_lt (known observer member).2⟩
    · exact ⟨unknown,Nat.lt_succ_self _⟩
  · rw [List.map_append,List.nodup_append]
    refine ⟨distinct,by simp,?_⟩
    rintro _ member _ last rfl
    obtain ⟨observer,old,same⟩ := List.mem_map.mp member
    have below := (known observer old).2
    simp only [List.map_cons,List.map_nil,List.mem_singleton] at last
    omega
  · have together : (if firesAtOnce status watched.task.state then
        (watched.task.dictionaries.changed status (· ++ [(watched.task.handles,handler)])).forStatus status else []) =
        (if firesAtOnce status table.state then (table.observers ++ [observer]).filter (·.status = status) else []).map
          Observer.entry := by
      rw [state]
      split
      · exact grown status
      · rfl
    rw [List.map_append,← fired]
    exact congrArg (fun last => watched.fired ++ [last]) together

theorem Represents.same_handle (shown : Represents watched table) (one : observer ∈ table.observers)
    (two : other ∈ table.observers) (same : observer.handle = other.handle) : observer = other :=
  List.inj_on_of_nodup_map shown.distinct one two same

-- A handle has one status.
theorem Represents.statusOfHandle (shown : Represents watched table) (member : observer ∈ table.observers) :
    watched.task.statusOfHandle observer.handle = observer.status := by
  unfold FIRStorageObservableTask.statusOfHandle
  rw [shown.map,List.find?_map]
  cases found : table.observers.find? _ with
  | none => exact absurd (List.find?_eq_none.mp found observer member) (by simp)
  | some other =>
      have handle : other.handle = observer.handle := by simpa using List.find?_some found
      rw [shown.same_handle (List.mem_of_find?_eq_some found) member handle]
      rfl

theorem Represents.keeps {task : FIRStorageObservableTask Handler} {keep : Observer Handler → Bool}
    (shown : Represents watched table) (state : task.state = watched.task.state) (handles : task.handles = watched.task.handles)
    (dictionaries : ∀ status, task.handlerDictionaryForStatus status = ((table.under status).filter keep).map Observer.entry)
    (map : task.handleToStatusMap = (table.observers.filter keep).map fun observer => (observer.handle,observer.status)) :
    Represents {watched with task := task} {table with observers := table.observers.filter keep} := by
  refine ⟨state.trans shown.state,handles.trans shown.handles,?_,map,?_,?_,shown.fired⟩
  · intro status
    rw [dictionaries,Table.under,Table.under,List.filter_filter,List.filter_filter]
    simp only [Bool.and_comm]
  · exact fun observer member => shown.known observer (List.mem_of_mem_filter member)
  · exact shown.distinct.sublist (List.filter_sublist.map _)

theorem removeObserverWithHandle_represents (shown : Represents watched table) (handle : Nat) :
    Represents {watched with task := watched.task.removeObserverWithHandle handle}
      {table with observers := table.observers.filter (·.handle ≠ handle)} := by
  refine shown.keeps rfl rfl ?_ ?_
  · intro status
    have entries : ((table.under status).filter (·.handle ≠ handle)).map Observer.entry =
        (watched.task.handlerDictionaryForStatus status).filter (·.1 ≠ handle) := by
      rw [shown.dictionaries,List.filter_map]
      rfl
    rw [entries]
    by_cases here : status = watched.task.statusOfHandle handle
    · by_cases unknown : status = .unknown
      · subst unknown; rfl
      · simp only [handlerDictionaryForStatus,removeObserverWithHandle,← here]
        exact changed_same unknown
    · -- Nothing under another status has the handle.
      have kept : (watched.task.handlerDictionaryForStatus status).filter (·.1 ≠ handle) =
          watched.task.handlerDictionaryForStatus status := by
        rw [List.filter_eq_self,shown.dictionaries]
        intro entry listed
        obtain ⟨observer,under,rfl⟩ := List.mem_map.mp listed
        obtain ⟨member,own⟩ := List.mem_filter.mp under
        have told := shown.statusOfHandle member
        simp only [ne_eq,decide_eq_true_eq] at own ⊢
        intro same
        apply here
        rw [← own,← told]
        exact congrArg _ same
      rw [kept]
      exact changed_other here
  · simp only [removeObserverWithHandle,shown.map,List.filter_map]
    rfl

theorem removeAllObserversForStatus_represents (shown : Represents watched table) (status : FIRStorageTaskStatus) :
    Represents {watched with task := watched.task.removeAllObserversForStatus status}
      {table with observers := table.observers.filter (·.status ≠ status)} := by
  refine shown.keeps rfl rfl ?_ ?_
  · intro other
    by_cases here : other = status
    · subst here
      have nothing : (table.under other).filter (·.status ≠ other) = [] := by
        rw [Table.under,List.filter_filter]
        simp
      rw [nothing]
      by_cases unknown : other = .unknown
      · subst unknown; rfl
      · exact changed_same unknown
    · have all : (table.under other).filter (·.status ≠ status) = table.under other := by
        apply List.filter_eq_self.mpr
        intro observer under
        have own := (List.mem_filter.mp under).2
        simp only [decide_eq_true_eq] at own
        simpa [own] using here
      rw [all,← shown.dictionaries]
      exact changed_other here
  · -- The keys under the status are the handles of its observers.
    simp only [removeAllObserversForStatus,shown.map,List.filter_map]
    congr 1
    apply List.filter_congr
    intro observer member
    rw [Function.comp,decide_eq_decide]
    have listed : observer.handle ∈ (watched.task.handlerDictionaryForStatus status).map (·.1) ↔ observer.status = status := by
      rw [shown.dictionaries,List.map_map]
      constructor
      · intro named
        obtain ⟨other,under,same⟩ := List.mem_map.mp named
        obtain ⟨also,own⟩ := List.mem_filter.mp under
        rw [← shown.same_handle also member same]
        simpa using own
      · intro own
        exact List.mem_map.mpr ⟨observer,List.mem_filter.mpr ⟨member,by simp [own]⟩,rfl⟩
    exact not_congr listed

theorem step_represents (shown : Represents watched table) (accepted : advance watched operation = some next) : ∃ after,
    table.advance operation = some after ∧ Represents next after := by
  cases operation with
  | observeStatus status handler =>
      obtain ⟨⟨task,fired⟩,observed,rfl⟩ := Option.map_eq_some_iff.mp accepted
      exact observeStatus_represents shown observed
  | removeObserverWithHandle handle =>
      cases Option.some.inj accepted
      exact ⟨_,rfl,removeObserverWithHandle_represents shown handle⟩
  | removeAllObserversForStatus status =>
      cases Option.some.inj accepted
      exact ⟨_,rfl,removeAllObserversForStatus_represents shown status⟩
  | removeAllObservers =>
      cases Option.some.inj accepted
      exact ⟨_,rfl,⟨shown.state,shown.handles,fun _ => forStatus_empty,rfl,by simp,List.nodup_nil,shown.fired⟩⟩
  | fireHandlersForStatus status =>
      cases Option.some.inj accepted
      refine ⟨_,rfl,⟨shown.state,shown.handles,shown.dictionaries,shown.map,shown.known,shown.distinct,?_⟩⟩
      rw [List.map_append,← shown.fired]
      exact congrArg (fun last => watched.fired ++ [last]) (shown.dictionaries status)
  | setState state =>
      cases Option.some.inj accepted
      exact ⟨_,rfl,⟨rfl,shown.handles,shown.dictionaries,shown.map,shown.known,shown.distinct,shown.fired⟩⟩

-- The five dictionaries and the reverse map are never more nor less than one table of observers.
theorem observers_table (path : Runs advance (start : Watched Handler) operations watched) : ∃ table,
    Runs Table.advance noObservers operations table ∧ Represents watched table :=
  path.simulates Represents start_represents fun _ _ _ _ shown accepted => step_represents shown accepted

-- A second observer of a running task's progress has the first one called again.
theorem observers_table_progress :
    let operations : List (Operation String) := [.setState .running,.observeStatus .progress "first",
      .observeStatus .progress "second",.fireHandlersForStatus .progress,.removeObserverWithHandle 0,
      .fireHandlersForStatus .progress,.removeAllObserversForStatus .progress,.fireHandlersForStatus .progress]
    ∃ watched table, Runs advance start operations watched ∧
      watched.fired = [[(0,"first")],[(0,"first"),(1,"second")],[(0,"first"),(1,"second")],[(1,"second")],[]] ∧
      Runs Table.advance noObservers operations table ∧ Represents watched table := by
  intro operations
  have path : Runs advance start operations _ := run_exact.mp rfl
  obtain ⟨table,abstract,shown⟩ := observers_table path
  exact ⟨_,table,path,rfl,abstract,shown⟩

end Observing
end CanvasPainter
