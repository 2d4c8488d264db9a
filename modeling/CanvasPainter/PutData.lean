import CanvasPainter.ObservableTask
import CanvasPainter.StorageErrors
import CanvasPainter.UploadSession

namespace CanvasPainter

-- What a snapshot of a task in this state reports.
def FIRStorageTaskState.snapshotStatus : FIRStorageTaskState → FIRStorageTaskStatus
  | .queueing | .running | .resuming => .resume
  | .progress => .progress
  | .paused | .pausing => .pause
  | .success | .completing => .success
  | .cancelled | .failing | .failed => .failure
  | .unknown => .unknown

structure FIRStorageTaskSnapshot (Metadata : Type) where
  status : FIRStorageTaskStatus
  metadata : Option Metadata
  error : Option FIRStorageError
  deriving DecidableEq, Repr

-- FIRStorageReference.putData with a completion, its upload task and the two queues they run on.
namespace PutData
open TransitionRuns FIRStorageObservableTask FIRStorageErrors GTMSessionUploadFetcher

-- The two observers of putData itself and those the caller adds.
inductive Handler where
  | success
  | failure
  | client (name : Nat)
  deriving DecidableEq, Repr

inductive TaskBlock where
  | enqueue
  | cancel
  | pause
  | resume
  deriving DecidableEq, Repr

-- What the completion is called with: the metadata or the error.
abbrev Outcome (Metadata : Type) := Option Metadata × Option FIRStorageError

inductive CallbackBlock (Metadata : Type) where
  | fetched (data : Option NSData) (error : Option NSError)
  | handler (handler : Handler) (snapshot : FIRStorageTaskSnapshot Metadata)
  | completion (outcome : Outcome Metadata)

def CallbackBlock.retains {Metadata : Type} : CallbackBlock Metadata → Bool
  | .fetched _ _ => false
  | .handler _ _ | .completion _ => true

-- `parse` reads the metadata out of the JSON of a response; `enumerate` is the order a dictionary is enumerated in,
-- which may be any.
structure Put (Metadata : Type) where
  uploadData : NSData
  uploadMetadata : Metadata
  bucket : String
  object : Option String
  parse : NSData → Option Metadata
  enumerate : Handlers Handler → Handlers Handler
  orders : ∀ handlers, (enumerate handlers).Perm handlers

-- The upload fetcher and its service are one session from the enqueued block on. `held` is whether the caller still
-- has the task; `called` and `heard` are what the completion and the caller's observers were called with.
structure Upload (Server Metadata : Type) where
  session : Option (UploadSession.Session Server)
  userStoppedFetching : Bool
  task : FIRStorageObservableTask Handler
  fetcherCompletion : Bool
  metadata : Option Metadata
  error : Option FIRStorageError
  dispatchQueue : List TaskBlock
  callbackQueue : List (CallbackBlock Metadata)
  completed : Bool
  called : List (Outcome Metadata)
  heard : List (Nat × FIRStorageTaskSnapshot Metadata)
  held : Bool

inductive Event (Choice : Type) where
  | fetch (event : UploadSession.Event Choice)
  | dispatched
  | calledBack
  | progressed
  | cancel
  | pause
  | resume
  | observeStatus (status : FIRStorageTaskStatus) (name : Nat)
  | removeObserverWithHandle (handle : Nat)
  | removeAllObserversForStatus (status : FIRStorageTaskStatus)
  | removeAllObservers
  | released
  | deallocated
  deriving DecidableEq, Repr

variable {Server Choice Metadata : Type} (service : UploadService Server Choice) (put : Put Metadata)

namespace Upload
variable (upload : Upload Server Metadata)

def snapshot : FIRStorageTaskSnapshot Metadata :=
  ⟨upload.task.state.snapshotStatus,upload.metadata,upload.error⟩

-- The retain cycle of the fetcher's completion keeps the task until it has run, and so do snapshots on their way.
def alive : Bool := upload.held || upload.fetcherCompletion || upload.callbackQueue.any (·.retains)

def withState (state : FIRStorageTaskState) : Upload Server Metadata := {upload with task := {upload.task with state := state}}

def dispatch (fired : Handlers Handler) : Upload Server Metadata :=
  {upload with callbackQueue := upload.callbackQueue ++
    (put.enumerate fired).map fun entry => .handler entry.2 upload.snapshot}

def fire (status : FIRStorageTaskStatus) : Upload Server Metadata := upload.dispatch put (upload.task.fireHandlersForStatus status)

def fetcher (change : GTMSessionUploadFetcher → GTMSessionUploadFetcher) : Upload Server Metadata :=
  {upload with session := upload.session.map (·.client change)}

def enqueue : Upload Server Metadata :=
  {upload.withState .running with
    session := some (UploadSession.start service put.uploadData kGTMSessionUploadFetcherStandardChunkSize)
    fetcherCompletion := true}

def cancel : Upload Server Metadata :=
  {(upload.withState .cancelled).fetcher (·.stopFetching) with
    userStoppedFetching := true
    metadata := some put.uploadMetadata
    error := some (errorWithCode .cancelled noInfo)}.fire put .failure

def pause : Upload Server Metadata :=
  {(upload.withState .paused).fetcher (·.pauseFetching) with metadata := some put.uploadMetadata}.fire put .pause

def resume : Upload Server Metadata :=
  ({(upload.withState .resuming).fetcher (·.resumeFetching) with
    metadata := some put.uploadMetadata}.fire put .resume).withState .running

def run : TaskBlock → Upload Server Metadata
  | .enqueue => upload.enqueue service put
  | .cancel => upload.cancel put
  | .pause => upload.pause put
  | .resume => upload.resume put

-- The send progress block of the upload fetcher.
def progressed : Upload Server Metadata :=
  ({upload.withState .progress with metadata := some put.uploadMetadata}.fire put .progress).withState .running

def finishTaskWithStatus (status : FIRStorageTaskStatus) : Upload Server Metadata :=
  let fired := upload.fire put status
  {fired with task := fired.task.removeAllObservers, fetcherCompletion := false}

def fetched (data : Option NSData) (error : Option NSError) : Upload Server Metadata :=
  let upload := upload.fire put .progress
  match error with
  | some error =>
    {upload.withState .failed with
      error := some (errorWithServerError error put.bucket put.object)
      metadata := some put.uploadMetadata}.finishTaskWithStatus put .failure
  | none =>
    let upload := upload.withState .success
    match data.bind put.parse with
    | some metadata => {upload with metadata := some metadata}.finishTaskWithStatus put .success
    | none => {upload with error := some (errorWithInvalidRequest data)}.finishTaskWithStatus put .success

-- The observers of putData dispatch once more before they complete.
def callHandler (snapshot : FIRStorageTaskSnapshot Metadata) : Handler → Upload Server Metadata
  | .success => {upload with callbackQueue := upload.callbackQueue ++ [.completion (snapshot.metadata,none)]}
  | .failure => {upload with callbackQueue := upload.callbackQueue ++ [.completion (none,snapshot.error)]}
  | .client name => {upload with heard := upload.heard ++ [(name,snapshot)]}

def complete (outcome : Outcome Metadata) : Upload Server Metadata :=
  if upload.completed then upload else {upload with completed := true, called := upload.called ++ [outcome]}

def callBack : CallbackBlock Metadata → Upload Server Metadata
  | .fetched data error =>
    if upload.userStoppedFetching || !upload.fetcherCompletion then upload else upload.fetched put data error
  | .handler handler snapshot => upload.callHandler snapshot handler
  | .completion outcome => upload.complete outcome

end Upload

-- putData's two observers, before the task is enqueued.
def observedTask : FIRStorageObservableTask Handler :=
  ((init.observeStatus .success Handler.success).bind fun (task,_) =>
    (task.observeStatus .failure Handler.failure).map (·.1)).getD init

def start : Upload Server Metadata := ⟨none,false,observedTask,false,none,none,[.enqueue],[],false,[],[],true⟩

-- The blocks of each queue run one after another, and those of the two queues in any order. Only the enqueued
-- block refers to the task strongly; without an object it raises for its query, and the process ends.
def advance (upload : Upload Server Metadata) : Event Choice → Option (Upload Server Metadata)
  | .fetch event =>
    match upload.session with
    | none => none
    | some session =>
      if event.prompts then none
      else (UploadSession.advance service session event).map fun next =>
        {upload with
          session := some next
          callbackQueue := upload.callbackQueue ++
            (next.fetcher.completions.drop session.fetcher.completions.length).map fun (data,error) => .fetched data error}
  | .dispatched =>
    match upload.dispatchQueue with
    | [] => none
    | block :: rest =>
      let upload := {upload with dispatchQueue := rest}
      if block = .enqueue ∧ put.object = none then none
      else some (if block = .enqueue ∨ upload.alive then upload.run service put block else upload)
  | .calledBack =>
    match upload.callbackQueue with
    | [] => none
    | block :: rest => some ({upload with callbackQueue := rest}.callBack put block)
  | .progressed => if upload.fetcherCompletion then some (upload.progressed put) else none
  | .cancel => if upload.held then some {upload with dispatchQueue := upload.dispatchQueue ++ [.cancel]} else none
  | .pause => if upload.held then some {upload with dispatchQueue := upload.dispatchQueue ++ [.pause]} else none
  | .resume => if upload.held then some {upload with dispatchQueue := upload.dispatchQueue ++ [.resume]} else none
  | .observeStatus status name =>
    if upload.held then (upload.task.observeStatus status (.client name)).map fun (task,fired) =>
      {upload.dispatch put fired with task := task}
    else none
  | .removeObserverWithHandle handle =>
    if upload.held then some {upload with task := upload.task.removeObserverWithHandle handle} else none
  | .removeAllObserversForStatus status =>
    if upload.held then some {upload with task := upload.task.removeAllObserversForStatus status} else none
  | .removeAllObservers => if upload.held then some {upload with task := upload.task.removeAllObservers} else none
  | .released => if upload.held then some {upload with held := false} else none
  | .deallocated =>
    if upload.alive ∨ .enqueue ∈ upload.dispatchQueue then none else some (upload.fetcher (·.stopFetching))

end PutData
end CanvasPainter
