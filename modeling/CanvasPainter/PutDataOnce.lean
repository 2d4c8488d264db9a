import CanvasPainter.PutData

namespace CanvasPainter.PutData
open TransitionRuns FIRStorageObservableTask FIRStorageErrors HandlerDictionaries
variable {Server Choice Metadata : Type} {service : UploadService Server Choice} {put : Put Metadata}
  {upload next : Upload Server Metadata} {spared : Prop}

-- What a handler makes of a snapshot for the completion.
def answer (snapshot : FIRStorageTaskSnapshot Metadata) : Handler → Option (Outcome Metadata)
  | .success => some (snapshot.metadata,none)
  | .failure => some (none,snapshot.error)
  | .client _ => none

def answers (handlers : Handlers Handler) (snapshot : FIRStorageTaskSnapshot Metadata) : List (Outcome Metadata) :=
  handlers.filterMap fun entry => answer snapshot entry.2

def CallbackBlock.completing : CallbackBlock Metadata → Option (Outcome Metadata)
  | .completion outcome => some outcome
  | _ => none

def CallbackBlock.calling : CallbackBlock Metadata → Option (Outcome Metadata)
  | .handler observer snapshot => answer snapshot observer
  | _ => none

namespace Upload

-- Every outcome that has come up, in the order the completion would see them.
def outcomes (upload : Upload Server Metadata) : List (Outcome Metadata) :=
  upload.called ++ (upload.callbackQueue.filterMap (·.completing) ++ upload.callbackQueue.filterMap (·.calling))

def ended (upload : Upload Server Metadata) : Bool := upload.session.isSome && !upload.fetcherCompletion

end Upload

def ownAnswer (snapshot : FIRStorageTaskSnapshot Metadata) : FIRStorageTaskStatus → List (Outcome Metadata)
  | .success => [(snapshot.metadata,none)]
  | .failure => [(none,snapshot.error)]
  | _ => []

-- `spared` is whether the caller has left putData's observers alone; what it removes of them does not answer.
def Told (spared : Prop) (expected told : List (Outcome Metadata)) : Prop := told = expected ∨ ¬spared ∧ told = []

-- putData's observers stay registered until the fetch is over, and nothing fires them again before.
def Registered (spared : Prop) (upload : Upload Server Metadata) : Prop := ∀ status (snapshot : FIRStorageTaskSnapshot Metadata),
  Told spared (if upload.ended then [] else ownAnswer snapshot status)
    (answers (upload.task.handlerDictionaryForStatus status) snapshot)

-- Whoever answers the completion is one of the observers registered first.
def Keyed (upload : Upload Server Metadata) : Prop := ∀ status, ∀ entry ∈ upload.task.handlerDictionaryForStatus status,
  observedTask.handles ≤ entry.1 → ∃ name, entry.2 = .client name

structure Wired (spared : Prop) (upload : Upload Server Metadata) : Prop where
  own : Registered spared upload
  keyed : Keyed upload
  quiet : upload.ended = false → firesAtOnce .success upload.task.state = false ∧ firesAtOnce .failure upload.task.state = false

theorem dispatch_outcomes (fired : Handlers Handler) : (upload.dispatch put fired).outcomes =
    upload.outcomes ++ answers (put.enumerate fired) upload.snapshot := by
  have completing : ((put.enumerate fired).map fun entry => CallbackBlock.handler entry.2 upload.snapshot).filterMap
      (·.completing) = [] := by
    rw [List.filterMap_map]
    exact List.filterMap_eq_nil_iff.mpr fun _ _ => rfl
  have calling : ((put.enumerate fired).map fun entry => CallbackBlock.handler entry.2 upload.snapshot).filterMap
      (·.calling) = answers (put.enumerate fired) upload.snapshot := by
    rw [List.filterMap_map]
    rfl
  simp only [Upload.outcomes,Upload.dispatch,List.filterMap_append,completing,calling,List.append_nil,List.append_assoc]

-- At most one of the handlers fired answers, so their order is no matter.
theorem answers_enumerate {snapshot : FIRStorageTaskSnapshot Metadata} {fired : Handlers Handler} {one : List (Outcome Metadata)}
    (single : answers fired snapshot = one) (most : one.length ≤ 1) : answers (put.enumerate fired) snapshot = one := by
  have same : (answers (put.enumerate fired) snapshot).Perm one := by
    rw [← single]
    exact (put.orders fired).filterMap _
  cases one with
  | nil => exact same.eq_nil
  | cons outcome rest =>
      obtain rfl : rest = [] := List.length_eq_zero_iff.mp (Nat.le_zero.mp (Nat.le_of_succ_le_succ most))
      exact List.perm_singleton.mp same

theorem ownAnswer_length {snapshot : FIRStorageTaskSnapshot Metadata} : (ownAnswer snapshot status).length ≤ 1 := by
  cases status <;> simp [ownAnswer]

theorem Told.single {snapshot : FIRStorageTaskSnapshot Metadata} {told : List (Outcome Metadata)}
    (answered : Told spared (if upload.ended then [] else ownAnswer snapshot status) told) : told.length ≤ 1 := by
  rcases answered with rfl | ⟨_,rfl⟩
  · split
    · exact Nat.zero_le _
    · exact ownAnswer_length
  · exact Nat.zero_le _

theorem fire_outcomes (put : Put Metadata) (own : Registered spared upload) (status : FIRStorageTaskStatus) : ∃ told,
    Told spared (if upload.ended then [] else ownAnswer upload.snapshot status) told ∧
      (upload.fire put status).outcomes = upload.outcomes ++ told := by
  have answered := own status upload.snapshot
  refine ⟨_,answered,?_⟩
  exact (dispatch_outcomes _).trans (congrArg _ (answers_enumerate rfl answered.single))

-- What is decided by a step: by the cancelling of a task that is still there or by the end of its fetch.
def fetchedOutcome (put : Put Metadata) (upload : Upload Server Metadata) (data : Option NSData) : Option NSError → Outcome Metadata
  | some error => (none,some (errorWithServerError error put.bucket put.object))
  | none => ((data.bind put.parse).or upload.metadata,none)

def decides (put : Put Metadata) (upload : Upload Server Metadata) : Event Choice → List (Outcome Metadata)
  | .dispatched =>
    match upload.dispatchQueue with
    | .cancel :: _ => if upload.alive then [(none,some (errorWithCode .cancelled noInfo))] else []
    | _ => []
  | .calledBack =>
    match upload.callbackQueue with
    | .fetched data error :: _ =>
      if upload.userStoppedFetching || !upload.fetcherCompletion then [] else [fetchedOutcome put upload data error]
    | _ => []
  | _ => []

-- The enqueued block comes first and once.
def Queued (upload : Upload Server Metadata) : Prop :=
  upload.session = none ∧ (∃ rest, upload.dispatchQueue = .enqueue :: rest ∧ .enqueue ∉ rest) ∨
    upload.session.isSome = true ∧ .enqueue ∉ upload.dispatchQueue

-- Until the fetch is over the caller removes observers by the handles it was given, or those of other statuses.
def Spares (upload : Upload Server Metadata) : Event Choice → Prop
  | .removeObserverWithHandle handle => upload.ended = true ∨ observedTask.handles ≤ handle
  | .removeAllObserversForStatus status => upload.ended = true ∨ status ≠ .success ∧ status ≠ .failure
  | .removeAllObservers => upload.ended = true
  | _ => True

structure Settling (spared : Prop) (upload : Upload Server Metadata) (decided : List (Outcome Metadata)) : Prop where
  wired : Wired spared upload
  queued : Queued upload
  begun : upload.fetcherCompletion = true → upload.session.isSome = true
  ended : upload.ended = true → decided ≠ []
  first : spared → upload.outcomes.head? = decided.head?
  all : ∀ outcome ∈ upload.outcomes, outcome ∈ decided
  once : upload.called = [] ∧ upload.completed = false ∨ ∃ outcome, upload.called = [outcome] ∧ upload.completed = true

theorem start_settling : Settling spared (start : Upload Server Metadata) [] := by
  refine ⟨⟨?_,?_,fun _ => ⟨rfl,rfl⟩⟩,.inl ⟨rfl,[],rfl,by simp⟩,by simp [start],by simp [start,Upload.ended],fun _ => rfl,
    by simp [start,Upload.outcomes],.inl ⟨rfl,rfl⟩⟩
  · intro status snapshot
    cases status <;> exact .inl rfl
  · intro status entry member later
    have known : ∀ entry ∈ observedTask.dictionaries.forStatus status, entry.1 < observedTask.handles := by
      cases status <;> decide
    exact absurd later (Nat.not_le.mpr (known entry member))

variable {decided : List (Outcome Metadata)}

theorem Wired.keeps (wired : Wired spared upload) (dictionaries : next.task.dictionaries = upload.task.dictionaries)
    (ended : next.ended = upload.ended)
    (quiet : next.ended = false → firesAtOnce .success next.task.state = false ∧ firesAtOnce .failure next.task.state = false) :
    Wired spared next := by
  refine ⟨fun status snapshot => ?_,fun status => ?_,quiet⟩
  · rw [ended,handlerDictionaryForStatus,dictionaries]
    exact wired.own status snapshot
  · rw [handlerDictionaryForStatus,dictionaries]
    exact wired.keyed status

-- Steps that bring up no outcome.
theorem Settling.keeps (settling : Settling spared upload decided) (wired : Wired spared next) (queued : Queued next)
    (session : next.session.isSome = upload.session.isSome)
    (fetcherCompletion : next.fetcherCompletion = upload.fetcherCompletion) (outcomes : next.outcomes = upload.outcomes)
    (called : next.called = upload.called) (completed : next.completed = upload.completed) : Settling spared next decided := by
  refine ⟨wired,queued,?_,?_,?_,?_,?_⟩
  · rw [session,fetcherCompletion]
    exact settling.begun
  · rw [Upload.ended,session,fetcherCompletion]
    exact settling.ended
  · rw [outcomes]
    exact settling.first
  · rw [outcomes]
    exact settling.all
  · rw [called,completed]
    exact settling.once

theorem head?_append_same {one two : List (Outcome Metadata)} (same : one.head? = two.head?) (more : List (Outcome Metadata)) :
    (one ++ more).head? = (two ++ more).head? := by
  rw [List.head?_append,List.head?_append,same]

theorem head?_append_first {some : List (Outcome Metadata)} (nonempty : some ≠ []) (more : List (Outcome Metadata)) :
    (some ++ more).head? = some.head? := by
  obtain ⟨outcome,rest,rfl⟩ := List.exists_cons_of_ne_nil nonempty
  rfl

-- A block that fires the handlers of another status than putData's own.
theorem Settling.fires (put : Put Metadata) (settling : Settling spared upload decided) (wired : Wired spared next) (queued : Queued next)
    (session : next.session.isSome = upload.session.isSome)
    (fetcherCompletion : next.fetcherCompletion = upload.fetcherCompletion)
    (queue : next.callbackQueue = upload.callbackQueue) (called : next.called = upload.called)
    (completed : next.completed = upload.completed) (status : FIRStorageTaskStatus)
    (other : ownAnswer next.snapshot status = []) : Settling spared (next.fire put status) decided := by
  have silent : (next.fire put status).outcomes = upload.outcomes := by
    obtain ⟨told,answered,outcomes⟩ := fire_outcomes put wired.own status
    rw [other,ite_self] at answered
    obtain rfl : told = [] := answered.elim id And.right
    rw [outcomes,List.append_nil,Upload.outcomes,called,queue]
    rfl
  have fired : Wired spared (next.fire put status) := ⟨wired.own,wired.keyed,wired.quiet⟩
  exact settling.keeps fired queued session fetcherCompletion silent called completed

theorem Settling.withState (settling : Settling spared upload decided) {state : FIRStorageTaskState}
    (quiet : firesAtOnce .success state = false ∧ firesAtOnce .failure state = false) :
    Settling spared (upload.withState state) decided :=
  settling.keeps (settling.wired.keeps rfl rfl fun _ => quiet) settling.queued rfl rfl rfl rfl rfl

theorem Queued.taken (queued : Queued upload) (front : upload.dispatchQueue = block :: rest) (later : block ≠ .enqueue) :
    upload.session.isSome = true ∧ .enqueue ∉ rest := by
  rcases queued with ⟨_,others,same,_⟩ | ⟨begun,absent⟩
  · rw [front] at same
    exact absurd (List.cons.inj same).1 later
  · rw [front] at absent
    exact ⟨begun,fun member => absent (List.mem_cons_of_mem _ member)⟩

theorem enqueue_settling (settling : Settling spared upload decided) (front : upload.dispatchQueue = .enqueue :: rest) :
    Settling spared ({upload with dispatchQueue := rest}.enqueue service put) decided := by
  obtain ⟨wired,queued,begun,ended,first,all,once⟩ := settling
  rcases queued with ⟨fresh,others,same,absent⟩ | ⟨_,absent⟩
  · rw [front] at same
    obtain ⟨_,rfl⟩ := List.cons.inj same
    have open' : upload.ended = false := by simp [Upload.ended,fresh]
    refine ⟨?_,.inr ⟨rfl,absent⟩,fun _ => rfl,by simp [Upload.ended,Upload.enqueue],first,all,once⟩
    exact wired.keeps rfl open'.symm fun _ => ⟨rfl,rfl⟩
  · rw [front] at absent
    exact absurd List.mem_cons_self absent

-- A step that brings up an outcome, unless the fetch was over before.
theorem Settling.tells {outcome : Outcome Metadata} {told : List (Outcome Metadata)} (settling : Settling spared upload decided) (wired : Wired spared next)
    (queued : Queued next) (begun : next.session.isSome = true)
    (answered : Told spared (if upload.ended then [] else [outcome]) told)
    (outcomes : next.outcomes = upload.outcomes ++ told)
    (called : next.called = upload.called) (completed : next.completed = upload.completed) :
    Settling spared next (decided ++ [outcome]) := by
  refine ⟨wired,queued,fun _ => begun,fun _ => by simp,fun left => ?_,?_,?_⟩
  · obtain rfl := answered.resolve_right fun removed => removed.1 left
    rw [outcomes]
    cases ended : upload.ended with
    | false => exact head?_append_same (settling.first left) _
    | true =>
        rw [if_pos rfl,List.append_nil,settling.first left]
        exact (head?_append_first (settling.ended ended) _).symm
  · rw [outcomes]
    intro heard member
    rcases List.mem_append.mp member with old | new
    · exact List.mem_append_left _ (settling.all heard old)
    · rcases answered with rfl | ⟨_,rfl⟩
      · split at new
        · cases new
        · exact List.mem_append_right _ new
      · cases new
  · rw [called,completed]
    exact settling.once

theorem cancel_settling (settling : Settling spared upload decided) (front : upload.dispatchQueue = .cancel :: rest) :
    Settling spared ({upload with dispatchQueue := rest}.cancel put)
      (decided ++ [(none,some (errorWithCode .cancelled noInfo))]) := by
  obtain ⟨begun,absent⟩ := settling.queued.taken front (by simp)
  let stopped : Upload Server Metadata := {({upload with dispatchQueue := rest}.withState .cancelled).fetcher (·.stopFetching) with
    userStoppedFetching := true
    metadata := some put.uploadMetadata
    error := some (errorWithCode .cancelled noInfo)}
  have session : stopped.session.isSome = upload.session.isSome := Option.isSome_map
  have ended : stopped.ended = upload.ended := by rw [Upload.ended,session]; rfl
  have wired : Wired spared stopped := settling.wired.keeps rfl ended fun _ => ⟨rfl,rfl⟩
  obtain ⟨told,answered,outcomes⟩ := fire_outcomes put wired.own .failure
  rw [ended] at answered
  exact settling.tells ⟨wired.own,wired.keyed,wired.quiet⟩ (.inr ⟨session.trans begun,absent⟩) (session.trans begun) answered
    outcomes rfl rfl

theorem pause_settling (settling : Settling spared upload decided) (front : upload.dispatchQueue = .pause :: rest) :
    Settling spared ({upload with dispatchQueue := rest}.pause put) decided := by
  obtain ⟨begun,absent⟩ := settling.queued.taken front (by simp)
  let paused : Upload Server Metadata := {({upload with dispatchQueue := rest}.withState .paused).fetcher (·.pauseFetching) with
    metadata := some put.uploadMetadata}
  have session : paused.session.isSome = upload.session.isSome := Option.isSome_map
  have ended : paused.ended = upload.ended := by rw [Upload.ended,session]; rfl
  have wired : Wired spared paused := settling.wired.keeps rfl ended fun _ => ⟨rfl,rfl⟩
  exact settling.fires put wired (.inr ⟨session.trans begun,absent⟩) session rfl rfl rfl rfl .pause rfl

theorem resume_settling (settling : Settling spared upload decided) (front : upload.dispatchQueue = .resume :: rest) :
    Settling spared ({upload with dispatchQueue := rest}.resume put) decided := by
  obtain ⟨begun,absent⟩ := settling.queued.taken front (by simp)
  let resuming : Upload Server Metadata := {({upload with dispatchQueue := rest}.withState .resuming).fetcher (·.resumeFetching) with
    metadata := some put.uploadMetadata}
  have session : resuming.session.isSome = upload.session.isSome := Option.isSome_map
  have ended : resuming.ended = upload.ended := by rw [Upload.ended,session]; rfl
  have wired : Wired spared resuming := settling.wired.keeps rfl ended fun _ => ⟨rfl,rfl⟩
  have fired := settling.fires put wired (.inr ⟨session.trans begun,absent⟩) session rfl rfl rfl rfl .resume rfl
  exact fired.withState ⟨rfl,rfl⟩

theorem progressed_settling (settling : Settling spared upload decided) : Settling spared (upload.progressed put) decided := by
  let progressing : Upload Server Metadata := {upload.withState .progress with metadata := some put.uploadMetadata}
  have wired : Wired spared progressing := settling.wired.keeps rfl rfl fun _ => ⟨rfl,rfl⟩
  have fired := settling.fires put wired settling.queued rfl rfl rfl rfl rfl .progress rfl
  exact fired.withState ⟨rfl,rfl⟩

-- The end of the fetch: its outcome is told and putData's observers are gone.
theorem finish_settling (settling : Settling spared upload decided) (own : Registered spared next) (queued : Queued next)
    (begun : next.session.isSome = true) (open' : upload.ended = false) (ended : next.ended = false)
    (queue : next.callbackQueue = upload.callbackQueue)
    (called : next.called = upload.called) (completed : next.completed = upload.completed)
    (answered : ownAnswer next.snapshot status = [outcome]) :
    Settling spared (next.finishTaskWithStatus put status) (decided ++ [outcome]) := by
  obtain ⟨told,answers,fired⟩ := fire_outcomes put own status
  rw [ended,answered,← open'] at answers
  have outcomes : (next.finishTaskWithStatus put status).outcomes = upload.outcomes ++ told := by
    rw [← show next.outcomes = upload.outcomes by rw [Upload.outcomes,called,queue]; rfl]
    exact fired
  have finished : (next.finishTaskWithStatus put status).ended = true := by
    simp [Upload.ended,Upload.finishTaskWithStatus,Upload.fire,Upload.dispatch,begun]
  have emptied : ∀ status, (next.finishTaskWithStatus put status).task.dictionaries = .empty := fun _ => rfl
  refine settling.tells ⟨?_,?_,?_⟩ queued begun answers outcomes called completed
  · intro status snapshot
    rw [if_pos finished,handlerDictionaryForStatus,emptied,forStatus_empty]
    exact .inl rfl
  · intro status entry member
    rw [handlerDictionaryForStatus,emptied,forStatus_empty] at member
    cases member
  · rw [finished]
    intro open'
    cases open'

theorem fetched_settling (settling : Settling spared upload decided) (fetching : upload.fetcherCompletion = true) :
    Settling spared (upload.fetched put data error) (decided ++ [fetchedOutcome put upload data error]) := by
  have open' : upload.ended = false := by simp [Upload.ended,fetching]
  have begun := settling.begun fetching
  have fired := settling.fires put settling.wired settling.queued rfl rfl rfl rfl rfl .progress rfl
  unfold Upload.fetched fetchedOutcome
  cases error with
  | some error => exact finish_settling fired fired.wired.own fired.queued begun open' open' rfl rfl rfl rfl
  | none =>
      cases data.bind put.parse with
      | some metadata => exact finish_settling fired fired.wired.own fired.queued begun open' open' rfl rfl rfl rfl
      | none => exact finish_settling fired fired.wired.own fired.queued begun open' open' rfl rfl rfl rfl

-- One block less on the callback queue and the same outcomes.
theorem Settling.taken (settling : Settling spared upload decided) (front : upload.callbackQueue = block :: rest)
    (uncompleted : block.completing = none) (silent : block.calling = none) :
    Settling spared {upload with callbackQueue := rest} decided := by
  refine settling.keeps ⟨settling.wired.own,settling.wired.keyed,settling.wired.quiet⟩ settling.queued rfl rfl ?_ rfl rfl
  simp [Upload.outcomes,front,uncompleted,silent]

theorem handler_settling (settling : Settling spared upload decided) (front : upload.callbackQueue = .handler handler snapshot :: rest) :
    Settling spared ({upload with callbackQueue := rest}.callHandler snapshot handler) decided := by
  have wired : Wired spared ({upload with callbackQueue := rest}.callHandler snapshot handler) := by
    cases handler <;> exact ⟨settling.wired.own,settling.wired.keyed,settling.wired.quiet⟩
  cases handler with
  | success =>
      refine settling.keeps wired settling.queued rfl rfl ?_ rfl rfl
      simp [Upload.outcomes,Upload.callHandler,front,CallbackBlock.completing,CallbackBlock.calling,answer]
  | failure =>
      refine settling.keeps wired settling.queued rfl rfl ?_ rfl rfl
      simp [Upload.outcomes,Upload.callHandler,front,CallbackBlock.completing,CallbackBlock.calling,answer]
  | client name =>
      refine settling.keeps wired settling.queued rfl rfl ?_ rfl rfl
      simp [Upload.outcomes,Upload.callHandler,front,CallbackBlock.completing,CallbackBlock.calling,answer]

-- Only the first outcome gets through.
theorem completion_settling (settling : Settling spared upload decided) (front : upload.callbackQueue = .completion outcome :: rest) :
    Settling spared ({upload with callbackQueue := rest}.complete outcome) decided := by
  obtain ⟨wired,queued,begun,ended,first,all,once⟩ := settling
  have fewer : ∀ told ∈ upload.called ++ (rest.filterMap (·.completing) ++ rest.filterMap (·.calling)), told ∈ decided := by
    intro told member
    apply all
    simp only [Upload.outcomes,front,List.filterMap_cons,CallbackBlock.completing,CallbackBlock.calling,List.mem_append,
      List.mem_cons] at member ⊢
    tauto
  rcases once with ⟨uncalled,fresh⟩ | ⟨told,called,completed⟩
  · have here : {upload with callbackQueue := rest}.complete outcome =
        {upload with callbackQueue := rest, completed := true, called := [outcome]} := by
      simp [Upload.complete,fresh,uncalled]
    rw [here]
    refine ⟨⟨wired.own,wired.keyed,wired.quiet⟩,queued,begun,ended,?_,?_,.inr ⟨outcome,rfl,rfl⟩⟩
    · intro left
      rw [← first left]
      simp [Upload.outcomes,front,uncalled,CallbackBlock.completing]
    · intro told member
      rcases List.mem_cons.mp member with rfl | later
      · exact all told (by simp [Upload.outcomes,front,CallbackBlock.completing])
      · exact fewer told (List.mem_append_right _ later)
  · have here : {upload with callbackQueue := rest}.complete outcome = {upload with callbackQueue := rest} := if_pos completed
    rw [here]
    refine ⟨⟨wired.own,wired.keyed,wired.quiet⟩,queued,begun,ended,?_,fewer,.inr ⟨told,called,completed⟩⟩
    intro left
    rw [← first left]
    simp [Upload.outcomes,called]

theorem undecided {event : Event Choice} (settling : Settling spared next decided) (nothing : decides put upload event = []) :
    Settling spared next (decided ++ decides put upload event) := by
  rwa [nothing,List.append_nil]

theorem callBack_settling (settling : Settling spared upload decided) (front : upload.callbackQueue = block :: rest) :
    Settling spared ({upload with callbackQueue := rest}.callBack put block) (decided ++ decides put upload (.calledBack : Event Choice)) := by
  cases block with
  | fetched data error =>
      have taken := settling.taken front rfl rfl
      simp only [decides,front,Upload.callBack]
      split
      · rwa [List.append_nil]
      · rename_i running
        simp only [Bool.not_eq_true,Bool.or_eq_false_iff,Bool.not_eq_false'] at running
        exact fetched_settling taken running.2
  | handler handler snapshot =>
      exact undecided (handler_settling settling front) (by simp [decides,front])
  | completion outcome =>
      exact undecided (completion_settling settling front) (by simp [decides,front])

theorem Queued.added (queued : Queued upload) (later : block ≠ .enqueue) :
    Queued {upload with dispatchQueue := upload.dispatchQueue ++ [block]} := by
  rcases queued with ⟨fresh,rest,front,absent⟩ | ⟨begun,absent⟩
  · exact .inl ⟨fresh,rest ++ [block],by simp [front],by simp [absent,later.symm]⟩
  · exact .inr ⟨begun,by simp [absent,later.symm]⟩

theorem asked_settling (settling : Settling spared upload decided) (later : block ≠ .enqueue) :
    Settling spared {upload with dispatchQueue := upload.dispatchQueue ++ [block]} decided :=
  settling.keeps ⟨settling.wired.own,settling.wired.keyed,settling.wired.quiet⟩ (settling.queued.added later) rfl rfl rfl rfl rfl

theorem observeStatus_settling (settling : Settling spared upload decided)
    (accepted : upload.task.observeStatus status (.client name) = some (task,fired)) :
    Settling spared {upload.dispatch put fired with task := task} decided := by
  obtain ⟨unknown,same⟩ := Option.ite_none_left_eq_some.mp accepted
  obtain ⟨rfl,rfl⟩ := Prod.mk.inj (Option.some.inj same)
  clear accepted same
  have client : ∀ snapshot : FIRStorageTaskSnapshot Metadata, answers [(upload.task.handles,.client name)] snapshot = [] :=
    fun _ => rfl
  have own : ∀ other (snapshot : FIRStorageTaskSnapshot Metadata),
      Told spared (if upload.ended then [] else ownAnswer snapshot other) (answers ((upload.task.dictionaries.changed status
        (· ++ [(upload.task.handles,.client name)])).forStatus other) snapshot) := by
    intro other snapshot
    have before := settling.wired.own other snapshot
    by_cases here : other = status
    · have same : answers ((upload.task.dictionaries.changed status (· ++ [(upload.task.handles,.client name)])).forStatus status)
          snapshot = answers (upload.task.handlerDictionaryForStatus status) snapshot := by
        rw [changed_same unknown,answers,List.filterMap_append]
        exact (congrArg _ (client snapshot)).trans (List.append_nil _)
      rw [here] at before ⊢
      rwa [same]
    · rw [changed_other here]
      exact before
  have keyed : ∀ other, ∀ entry ∈ (upload.task.dictionaries.changed status
      (· ++ [(upload.task.handles,.client name)])).forStatus other, observedTask.handles ≤ entry.1 →
        ∃ name, entry.2 = .client name := by
    intro other entry member later
    by_cases here : other = status
    · rw [here,changed_same unknown] at member
      rcases List.mem_append.mp member with old | new
      · exact settling.wired.keyed status entry old later
      · cases List.mem_singleton.mp new
        exact ⟨name,rfl⟩
    · rw [changed_other here] at member
      exact settling.wired.keyed other entry member later
  let fired : Handlers Handler := if firesAtOnce status upload.task.state then
    (upload.task.dictionaries.changed status (· ++ [(upload.task.handles,.client name)])).forStatus status else []
  have silent : answers fired upload.snapshot = [] := by
    unfold fired
    split
    · rename_i atOnce
      have answered := own status upload.snapshot
      cases ended : upload.ended with
      | true =>
          rw [ended] at answered
          exact answered.elim id And.right
      | false =>
          -- In the states of an open task neither of putData's statuses fires at once.
          obtain ⟨success,failure⟩ := settling.wired.quiet ended
          cases status with
          | success => exact absurd atOnce (by simp [success])
          | failure => exact absurd atOnce (by simp [failure])
          | _ =>
              rw [ended] at answered
              exact answered.elim id And.right
    · rfl
  refine settling.keeps ⟨own,keyed,settling.wired.quiet⟩ settling.queued rfl rfl ?_ rfl rfl
  have same : (upload.dispatch put fired).outcomes = _ := dispatch_outcomes fired
  rw [answers_enumerate silent (Nat.zero_le _),List.append_nil] at same
  exact same

-- What is left of a dictionary without an observer of the caller's answers as before.
theorem answers_kept {snapshot : FIRStorageTaskSnapshot Metadata} {handlers : Handlers Handler}
    (clients : ∀ entry ∈ handlers, entry.1 = handle → ∃ name, entry.2 = .client name) :
    answers (handlers.filter (·.1 ≠ handle)) snapshot = answers handlers snapshot := by
  induction handlers with
  | nil => rfl
  | cons entry rest ih =>
      obtain ⟨first,others⟩ := List.forall_mem_cons.mp clients
      have same := ih others
      by_cases here : entry.1 = handle
      · obtain ⟨name,client⟩ := first here
        have silent : answer snapshot entry.2 = none := by rw [client]; rfl
        rw [List.filter_cons_of_neg (by simpa using here),same]
        simp only [answers,List.filterMap_cons,silent]
      · rw [List.filter_cons_of_pos (by simpa using here)]
        simp only [answers,List.filterMap_cons] at same ⊢
        rw [same]

theorem removal_settling {task : FIRStorageObservableTask Handler} (settling : Settling spared upload decided)
    (own : Registered spared {upload with task := task}) (keyed : Keyed {upload with task := task})
    (state : task.state = upload.task.state) : Settling spared {upload with task := task} decided := by
  refine settling.keeps ⟨own,keyed,fun open' => ?_⟩ settling.queued rfl rfl rfl rfl rfl
  rw [state]
  exact settling.wired.quiet open'

-- Without an observer or two a dictionary answers as before, or no more.
theorem Told.fewer {snapshot : FIRStorageTaskSnapshot Metadata} {handlers : Handlers Handler}
    (answered : Told spared (if upload.ended then [] else ownAnswer snapshot status) (answers handlers snapshot))
    (spares : spared → upload.ended = true ∨ ∀ entry ∈ handlers, entry.1 = handle → ∃ name, entry.2 = .client name) :
    Told spared (if upload.ended then [] else ownAnswer snapshot status) (answers (handlers.filter (·.1 ≠ handle)) snapshot) := by
  have fewer : (answers (handlers.filter (·.1 ≠ handle)) snapshot).Sublist (answers handlers snapshot) :=
    List.filter_sublist.filterMap _
  have kept : answers (handlers.filter (·.1 ≠ handle)) snapshot = answers handlers snapshot ∨
      answers (handlers.filter (·.1 ≠ handle)) snapshot = [] := by
    cases told : answers handlers snapshot with
    | nil => exact .inr (List.sublist_nil.mp (told ▸ fewer))
    | cons outcome rest =>
        obtain rfl : rest = [] := List.length_eq_zero_iff.mp (by simpa [told] using answered.single)
        rcases List.sublist_singleton.mp (told ▸ fewer) with gone | same
        · exact .inr gone
        · exact .inl same
  by_cases left : spared
  · rcases spares left with ended | clients
    · have silent := answered.resolve_right fun removed => removed.1 left
      rw [if_pos ended] at silent
      rw [if_pos ended]
      exact .inl (List.sublist_nil.mp (silent ▸ fewer))
    · rwa [answers_kept clients]
  · rcases kept with same | gone
    · rwa [same]
    · exact .inr ⟨left,gone⟩

theorem removeObserverWithHandle_settling (settling : Settling spared upload decided)
    (spares : spared → upload.ended = true ∨ observedTask.handles ≤ handle) :
    Settling spared {upload with task := upload.task.removeObserverWithHandle handle} decided := by
  refine removal_settling settling (fun status snapshot => ?_) (fun status entry member => ?_) rfl
  · have before := settling.wired.own status snapshot
    rw [handlerDictionaryForStatus,removeObserverWithHandle]
    by_cases here : status = upload.task.statusOfHandle handle
    · by_cases unknown : status = .unknown
      · subst unknown
        exact before
      · rw [← here,changed_same unknown]
        exact before.fewer fun left => (spares left).imp_right fun later entry member same =>
          settling.wired.keyed status entry member (same ▸ later)
    · rw [changed_other here]
      exact before
  · apply settling.wired.keyed status entry
    rw [handlerDictionaryForStatus,removeObserverWithHandle] at member
    by_cases here : status = upload.task.statusOfHandle handle
    · by_cases unknown : status = .unknown
      · subst unknown
        cases member
      · rw [← here,changed_same unknown] at member
        exact List.mem_of_mem_filter member
    · rwa [changed_other here] at member

theorem removeAllObserversForStatus_settling (settling : Settling spared upload decided)
    (spares : spared → upload.ended = true ∨ status ≠ .success ∧ status ≠ .failure) :
    Settling spared {upload with task := upload.task.removeAllObserversForStatus status} decided := by
  refine removal_settling settling (fun other snapshot => ?_) (fun other entry member => ?_) rfl
  · have before := settling.wired.own other snapshot
    rw [handlerDictionaryForStatus,removeAllObserversForStatus]
    by_cases here : other = status
    · by_cases unknown : other = .unknown
      · subst here unknown
        exact before
      · subst here
        rw [changed_same unknown]
        by_cases left : spared
        · refine .inl ?_
          rcases spares left with ended | ⟨success,failure⟩
          · exact (if_pos ended).symm
          · cases other with
            | success => exact absurd rfl success
            | failure => exact absurd rfl failure
            | _ => exact (ite_self _).symm
        · exact .inr ⟨left,rfl⟩
    · rw [changed_other here]
      exact before
  · rw [handlerDictionaryForStatus,removeAllObserversForStatus] at member
    by_cases here : other = status
    · by_cases unknown : other = .unknown
      · subst unknown
        cases member
      · rw [here,changed_same (here ▸ unknown)] at member
        cases member
    · rw [changed_other here] at member
      exact settling.wired.keyed other entry member

theorem removeAllObservers_settling (settling : Settling spared upload decided) (spares : spared → upload.ended = true) :
    Settling spared {upload with task := upload.task.removeAllObservers} decided := by
  refine removal_settling settling (fun status snapshot => ?_) (fun status entry member => ?_) rfl
  · rw [handlerDictionaryForStatus,removeAllObservers,forStatus_empty]
    by_cases left : spared
    · exact .inl (if_pos (spares left)).symm
    · exact .inr ⟨left,rfl⟩
  · rw [handlerDictionaryForStatus,removeAllObservers,forStatus_empty] at member
    cases member

-- The fetcher is stopped with its task.
theorem deallocated_settling (settling : Settling spared upload decided) :
    Settling spared (upload.fetcher (·.stopFetching)) decided := by
  have session : (upload.fetcher (·.stopFetching)).session.isSome = upload.session.isSome := Option.isSome_map
  have ended : (upload.fetcher (·.stopFetching)).ended = upload.ended := by rw [Upload.ended,session]; rfl
  have wired : Wired spared (upload.fetcher (·.stopFetching)) :=
    settling.wired.keeps rfl ended fun open' => settling.wired.quiet (ended.symm.trans open')
  refine settling.keeps wired ?_ session rfl rfl rfl rfl
  rcases settling.queued with ⟨fresh,front⟩ | ⟨begun,absent⟩
  · exact .inl ⟨by rw [Upload.fetcher,fresh]; rfl,front⟩
  · exact .inr ⟨session.trans begun,absent⟩

theorem dead_undecided (front : upload.dispatchQueue = block :: rest) (dead : ¬upload.alive = true) :
    decides put upload (.dispatched : Event Choice) = [] := by
  simp only [decides,front]
  split
  · exact if_neg dead
  · rfl

theorem dispatched_settling (settling : Settling spared upload decided) (front : upload.dispatchQueue = block :: rest)
    (there : block = .enqueue ∨ upload.alive = true) :
    Settling spared ({upload with dispatchQueue := rest}.run service put block) (decided ++ decides put upload (.dispatched : Event Choice)) := by
  cases block with
  | enqueue => exact undecided (enqueue_settling settling front) (by simp [decides,front])
  | cancel =>
      have alive := there.resolve_left (by simp)
      simp only [decides,front,if_pos alive]
      exact cancel_settling settling front
  | pause => exact undecided (pause_settling settling front) (by simp [decides,front])
  | resume => exact undecided (resume_settling settling front) (by simp [decides,front])

theorem fetch_settling (settling : Settling spared upload decided) (begun : upload.session.isSome = true)
    (after : UploadSession.Session Server) (results : List (Option NSData × Option NSError)) :
    Settling spared {upload with
      session := some after
      callbackQueue := upload.callbackQueue ++ results.map fun (data,error) => .fetched data error} decided := by
  have queued : .enqueue ∉ upload.dispatchQueue := by
    rcases settling.queued with ⟨fresh,_⟩ | ⟨_,absent⟩
    · rw [fresh] at begun; cases begun
    · exact absent
  have ended : Upload.ended {upload with session := some after} = upload.ended := by
    simp [Upload.ended,begun]
  have wired : Wired spared {upload with session := some after} := settling.wired.keeps rfl ended fun open' =>
    settling.wired.quiet (ended.symm.trans open')
  have completing : (results.map fun (data,error) => (CallbackBlock.fetched data error : CallbackBlock Metadata)).filterMap
      (·.completing) = [] := by
    rw [List.filterMap_map]
    exact List.filterMap_eq_nil_iff.mpr fun _ _ => rfl
  have calling : (results.map fun (data,error) => (CallbackBlock.fetched data error : CallbackBlock Metadata)).filterMap
      (·.calling) = [] := by
    rw [List.filterMap_map]
    exact List.filterMap_eq_nil_iff.mpr fun _ _ => rfl
  refine settling.keeps ⟨wired.own,wired.keyed,wired.quiet⟩ (.inr ⟨rfl,queued⟩) begun.symm rfl ?_ rfl rfl
  simp only [Upload.outcomes,List.filterMap_append,completing,calling,List.append_nil]

theorem settling_preserved (settling : Settling spared upload decided) (spares : spared → Spares upload event)
    (accepted : advance service put upload event = some next) :
    Settling spared next (decided ++ decides put upload event) := by
  cases event with
  | fetch event =>
      simp only [advance] at accepted
      split at accepted
      · cases accepted
      · rename_i session found
        obtain ⟨_,same⟩ := Option.ite_none_left_eq_some.mp accepted
        obtain ⟨after,_,rfl⟩ := Option.map_eq_some_iff.mp same
        exact undecided (fetch_settling settling (by simp [found]) after _) rfl
  | dispatched =>
      simp only [advance] at accepted
      split at accepted
      · cases accepted
      · rename_i block rest front
        obtain ⟨_,same⟩ := Option.ite_none_left_eq_some.mp accepted
        cases Option.some.inj same
        split
        · rename_i there
          exact dispatched_settling settling front there
        · rename_i gone
          obtain ⟨later,dead⟩ := not_or.mp gone
          obtain ⟨begun,absent⟩ := settling.queued.taken front later
          exact undecided (settling.keeps ⟨settling.wired.own,settling.wired.keyed,settling.wired.quiet⟩ (.inr ⟨begun,absent⟩)
            rfl rfl rfl rfl rfl) (dead_undecided front dead)
  | calledBack =>
      simp only [advance] at accepted
      split at accepted
      · cases accepted
      · rename_i block rest front
        cases Option.some.inj accepted
        exact callBack_settling settling front
  | progressed =>
      obtain ⟨_,same⟩ := Option.ite_none_right_eq_some.mp accepted
      cases Option.some.inj same
      exact undecided (progressed_settling settling) rfl
  | cancel =>
      obtain ⟨_,same⟩ := Option.ite_none_right_eq_some.mp accepted
      cases Option.some.inj same
      exact undecided (asked_settling settling (by simp)) rfl
  | pause =>
      obtain ⟨_,same⟩ := Option.ite_none_right_eq_some.mp accepted
      cases Option.some.inj same
      exact undecided (asked_settling settling (by simp)) rfl
  | resume =>
      obtain ⟨_,same⟩ := Option.ite_none_right_eq_some.mp accepted
      cases Option.some.inj same
      exact undecided (asked_settling settling (by simp)) rfl
  | observeStatus status name =>
      obtain ⟨_,same⟩ := Option.ite_none_right_eq_some.mp accepted
      obtain ⟨⟨task,fired⟩,observed,rfl⟩ := Option.map_eq_some_iff.mp same
      exact undecided (observeStatus_settling settling observed) rfl
  | removeObserverWithHandle handle =>
      obtain ⟨_,same⟩ := Option.ite_none_right_eq_some.mp accepted
      cases Option.some.inj same
      exact undecided (removeObserverWithHandle_settling settling spares) rfl
  | removeAllObserversForStatus status =>
      obtain ⟨_,same⟩ := Option.ite_none_right_eq_some.mp accepted
      cases Option.some.inj same
      exact undecided (removeAllObserversForStatus_settling settling spares) rfl
  | removeAllObservers =>
      obtain ⟨_,same⟩ := Option.ite_none_right_eq_some.mp accepted
      cases Option.some.inj same
      exact undecided (removeAllObservers_settling settling spares) rfl
  | released =>
      obtain ⟨_,same⟩ := Option.ite_none_right_eq_some.mp accepted
      cases Option.some.inj same
      exact undecided (settling.keeps ⟨settling.wired.own,settling.wired.keyed,settling.wired.quiet⟩ settling.queued
        rfl rfl rfl rfl rfl) rfl
  | deallocated =>
      obtain ⟨_,same⟩ := Option.ite_none_left_eq_some.mp accepted
      cases Option.some.inj same
      exact undecided (deallocated_settling settling) rfl

theorem runs_settling (path : Runs (advance service put) start events upload)
    (spares : spared → EachStep (advance service put) start events Spares) :
    Settling spared upload (observed (advance service put) (decides put) start events) := by
  induction path with
  | nil => exact start_settling
  | step prior accepted ih =>
      rw [prior.observed_step accepted]
      exact settling_preserved (ih fun left => (spares left).front) (fun left => (spares left).final prior) accepted

-- What holds whatever observers the caller removes.
theorem runs_ordered (path : Runs (advance service put) start events upload) :
    Settling False upload (observed (advance service put) (decides put) start events) :=
  runs_settling path False.elim

-- What the completion was called with stays.
theorem callBack_called (upload : Upload Server Metadata) (block : CallbackBlock Metadata) :
    upload.called <+: (upload.callBack put block).called := by
  cases block with
  | fetched data error =>
      simp only [Upload.callBack]
      split
      · exact List.prefix_refl _
      · unfold Upload.fetched
        cases error with
        | some error => exact List.prefix_refl _
        | none => cases data.bind put.parse <;> exact List.prefix_refl _
  | handler observer snapshot => cases observer <;> exact List.prefix_refl _
  | completion outcome =>
      simp only [Upload.callBack,Upload.complete]
      split
      · exact List.prefix_refl _
      · exact List.prefix_append _ _

theorem called_grows (accepted : advance service put upload event = some next) : upload.called <+: next.called := by
  cases event with
  | fetch event =>
      simp only [advance] at accepted
      split at accepted
      · cases accepted
      · obtain ⟨_,same⟩ := Option.ite_none_left_eq_some.mp accepted
        obtain ⟨after,_,rfl⟩ := Option.map_eq_some_iff.mp same
        exact List.prefix_refl _
  | dispatched =>
      simp only [advance] at accepted
      split at accepted
      · cases accepted
      · rename_i block rest _
        obtain ⟨_,same⟩ := Option.ite_none_left_eq_some.mp accepted
        cases Option.some.inj same
        split
        · cases block <;> exact List.prefix_refl _
        · exact List.prefix_refl _
  | calledBack =>
      simp only [advance] at accepted
      split at accepted
      · cases accepted
      · rename_i block rest _
        cases Option.some.inj accepted
        exact callBack_called {upload with callbackQueue := rest} block
  | progressed | cancel | pause | resume | removeObserverWithHandle _ | removeAllObserversForStatus _
  | removeAllObservers | released =>
      obtain ⟨_,same⟩ := Option.ite_none_right_eq_some.mp accepted
      cases Option.some.inj same
      exact List.prefix_refl _
  | deallocated =>
      obtain ⟨_,same⟩ := Option.ite_none_left_eq_some.mp accepted
      cases Option.some.inj same
      exact List.prefix_refl _
  | observeStatus status name =>
      obtain ⟨_,same⟩ := Option.ite_none_right_eq_some.mp accepted
      obtain ⟨⟨task,fired⟩,_,rfl⟩ := Option.map_eq_some_iff.mp same
      exact List.prefix_refl _

theorem fetch_called (accepted : advance service put upload (.fetch event) = some next) : next.called = upload.called := by
  simp only [advance] at accepted
  split at accepted
  · cases accepted
  · obtain ⟨_,same⟩ := Option.ite_none_left_eq_some.mp accepted
    obtain ⟨after,_,moved⟩ := Option.map_eq_some_iff.mp same
    rw [← moved]

theorem runs_once (path : Runs (advance service put) start events upload) :
    upload.called = [] ∨ ∃ outcome, upload.called = [outcome] := by
  rcases (runs_ordered path).once with ⟨uncalled,_⟩ | ⟨outcome,called,_⟩
  · exact .inl uncalled
  · exact .inr ⟨outcome,called⟩

-- The first thing decided is what the completion is called with, once: at the latest when the callback queue is empty.
theorem putData_once (path : Runs (advance service put) start events upload)
    (spares : EachStep (advance service put) start events Spares) :
    upload.called <+: (observed (advance service put) (decides put) start events).take 1 ∧
    (upload.callbackQueue = [] →
      upload.called = (observed (advance service put) (decides put) start events).take 1) := by
  obtain ⟨_,_,_,_,first,_,once⟩ := runs_settling path fun _ : True => spares
  rw [List.take_one,← first trivial]
  rcases once with ⟨uncalled,_⟩ | ⟨outcome,called,_⟩
  · rw [uncalled]
    refine ⟨List.nil_prefix,fun drained => ?_⟩
    simp [Upload.outcomes,uncalled,drained]
  · have told : upload.outcomes.head? = some outcome := by simp [Upload.outcomes,called]
    rw [called,told]
    exact ⟨List.prefix_refl _,fun _ => rfl⟩

instance (upload : Upload Server Metadata) : ∀ event : Event Choice, Decidable (Spares upload event)
  | .removeObserverWithHandle _ => inferInstanceAs (Decidable (_ ∨ _))
  | .removeAllObserversForStatus _ => inferInstanceAs (Decidable (_ ∨ _))
  | .removeAllObservers => inferInstanceAs (Decidable (_ = _))
  | .fetch _ | .dispatched | .calledBack | .progressed | .cancel | .pause | .resume | .observeStatus _ _ | .released
  | .deallocated => isTrue trivial

def samplePut : Put String := ⟨[1,2,3,4],"sent","bucket",some "FeedImages/Sunset.png",
  fun data => if data = [123,125] then some "stored" else none,id,fun handlers => .refl handlers⟩

-- The fetch fails, but the task was cancelled before its result ran.
theorem putData_once_cancelled :
    let events : List (Event (Option Nat)) := [.dispatched,.observeStatus .success 0,.removeObserverWithHandle 2,.cancel,
      .fetch (.initialFinished ⟨none,some ⟨.other "NSURLErrorDomain",-1009,.none⟩,⟨none,none,0,none⟩⟩),
      .dispatched,.calledBack,.calledBack,.calledBack]
    ∃ upload, Runs (advance (StoredUpload.service 2) samplePut) start events upload ∧
      upload.called = [(none,some (errorWithCode .cancelled noInfo))] := by
  intro events
  have path : Runs (advance (StoredUpload.service 2) samplePut) start events _ := run_exact.mp rfl
  have spares : EachStep (advance (StoredUpload.service 2) samplePut) start events Spares := by decide
  exact ⟨_,path,(putData_once path spares).2 rfl⟩

end CanvasPainter.PutData
