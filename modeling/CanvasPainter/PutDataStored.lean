import CanvasPainter.PutDataOnce
import CanvasPainter.UploadProgress

namespace CanvasPainter.PutData
open TransitionRuns FIRStorageObservableTask FIRStorageErrors GTMSessionUploadFetcher
variable {Server Choice Metadata : Type} {service : UploadService Server Choice} {put : Put Metadata}
  {upload next : Upload Server Metadata}

-- What a step of the task does to the fetcher and its service, and where results on their way came from.
structure SessionStep (service : UploadService Server Choice) (put : Put Metadata) (upload next : Upload Server Metadata) : Prop where
  session : next.session = upload.session ∨
    (∃ session event after, upload.session = some session ∧ next.session = some after ∧
      UploadSession.advance service session event = some after) ∨
    upload.session = none ∧
      next.session = some (UploadSession.start service put.uploadData kGTMSessionUploadFetcherStandardChunkSize)
  fetched : ∀ data error, .fetched data error ∈ next.callbackQueue → .fetched data error ∈ upload.callbackQueue ∨
    ∃ session, next.session = some session ∧ (data,error) ∈ session.fetcher.completions

theorem handlers_fetched {queue : List (CallbackBlock Metadata)} {entries : Handlers Handler}
    {snapshot : FIRStorageTaskSnapshot Metadata}
    (member : .fetched data error ∈ queue ++ entries.map fun entry => .handler entry.2 snapshot) : .fetched data error ∈ queue := by
  rcases List.mem_append.mp member with old | new
  · exact old
  · obtain ⟨_,_,other⟩ := List.mem_map.mp new
    cases other

theorem client_session (event : UploadSession.Event Choice) {change : GTMSessionUploadFetcher → GTMSessionUploadFetcher}
    (step : ∀ session, UploadSession.advance service session event = some (session.client change))
    (changed : next.session = upload.session.map (·.client change)) : next.session = upload.session ∨
    (∃ session event after, upload.session = some session ∧ next.session = some after ∧
      UploadSession.advance service session event = some after) := by
  cases found : upload.session with
  | none =>
      rw [found] at changed
      exact .inl changed
  | some session =>
      rw [found] at changed
      exact .inr ⟨session,event,session.client change,rfl,changed,step session⟩

theorem run_session (queued : Queued upload) (front : upload.dispatchQueue = block :: rest) :
    SessionStep service put upload ({upload with dispatchQueue := rest}.run service put block) := by
  cases block with
  | enqueue =>
      refine ⟨.inr (.inr ⟨?_,rfl⟩),fun _ _ member => .inl member⟩
      rcases queued with ⟨fresh,_⟩ | ⟨_,absent⟩
      · exact fresh
      · rw [front] at absent
        exact absurd List.mem_cons_self absent
  | cancel =>
      refine ⟨?_,fun _ _ member => .inl (handlers_fetched member)⟩
      exact (client_session .stopFetching (fun _ => rfl) rfl).imp_right .inl
  | pause =>
      refine ⟨?_,fun _ _ member => .inl (handlers_fetched member)⟩
      exact (client_session .pauseFetching (fun _ => rfl) rfl).imp_right .inl
  | resume =>
      refine ⟨?_,fun _ _ member => .inl (handlers_fetched member)⟩
      exact (client_session .resumeFetching (fun _ => rfl) rfl).imp_right .inl

theorem callBack_session (front : upload.callbackQueue = block :: rest) :
    SessionStep service put upload ({upload with callbackQueue := rest}.callBack put block) := by
  have later : ∀ data error, .fetched data error ∈ rest → .fetched data error ∈ upload.callbackQueue := by
    intro data error member
    rw [front]
    exact List.mem_cons_of_mem _ member
  cases block with
  | fetched result failure =>
      simp only [Upload.callBack]
      split
      · exact ⟨.inl rfl,fun data error member => .inl (later data error member)⟩
      · unfold Upload.fetched
        cases failure with
        | some failure =>
            exact ⟨.inl rfl,fun data error member => .inl (later data error (handlers_fetched (handlers_fetched member)))⟩
        | none =>
            cases result.bind put.parse with
            | some metadata =>
                exact ⟨.inl rfl,fun data error member => .inl (later data error (handlers_fetched (handlers_fetched member)))⟩
            | none =>
                exact ⟨.inl rfl,fun data error member => .inl (later data error (handlers_fetched (handlers_fetched member)))⟩
  | handler handler snapshot =>
      cases handler with
      | success =>
          refine ⟨.inl rfl,fun data error member => .inl (later data error ?_)⟩
          simpa [Upload.callBack,Upload.callHandler] using member
      | failure =>
          refine ⟨.inl rfl,fun data error member => .inl (later data error ?_)⟩
          simpa [Upload.callBack,Upload.callHandler] using member
      | client name => exact ⟨.inl rfl,fun data error member => .inl (later data error member)⟩
  | completion outcome =>
      simp only [Upload.callBack,Upload.complete]
      split <;> exact ⟨.inl rfl,fun data error member => .inl (later data error member)⟩

theorem advance_session (queued : Queued upload) (accepted : advance service put upload event = some next) :
    SessionStep service put upload next := by
  cases event with
  | fetch event =>
      simp only [advance] at accepted
      split at accepted
      · cases accepted
      · rename_i session found
        obtain ⟨_,same⟩ := Option.ite_none_left_eq_some.mp accepted
        obtain ⟨after,step,rfl⟩ := Option.map_eq_some_iff.mp same
        refine ⟨.inr (.inl ⟨session,event,after,found,rfl,step⟩),fun data error member => ?_⟩
        rcases List.mem_append.mp member with old | new
        · exact .inl old
        · obtain ⟨⟨_,_⟩,told,same⟩ := List.mem_map.mp new
          cases same
          exact .inr ⟨after,rfl,List.mem_of_mem_drop told⟩
  | dispatched =>
      simp only [advance] at accepted
      split at accepted
      · cases accepted
      · rename_i block rest front
        obtain ⟨_,same⟩ := Option.ite_none_left_eq_some.mp accepted
        cases Option.some.inj same
        split
        · exact run_session queued front
        · exact ⟨.inl rfl,fun _ _ member => .inl member⟩
  | calledBack =>
      simp only [advance] at accepted
      split at accepted
      · cases accepted
      · rename_i block rest front
        cases Option.some.inj accepted
        exact callBack_session front
  | progressed =>
      obtain ⟨_,same⟩ := Option.ite_none_right_eq_some.mp accepted
      cases Option.some.inj same
      exact ⟨.inl rfl,fun _ _ member => .inl (handlers_fetched member)⟩
  | cancel | pause | resume | removeObserverWithHandle _ | removeAllObserversForStatus _ | removeAllObservers | released =>
      obtain ⟨_,same⟩ := Option.ite_none_right_eq_some.mp accepted
      cases Option.some.inj same
      exact ⟨.inl rfl,fun _ _ member => .inl member⟩
  | deallocated =>
      obtain ⟨_,same⟩ := Option.ite_none_left_eq_some.mp accepted
      cases Option.some.inj same
      refine ⟨?_,fun _ _ member => .inl member⟩
      exact (client_session .stopFetching (fun _ => rfl) rfl).imp_right .inl
  | observeStatus status name =>
      obtain ⟨_,same⟩ := Option.ite_none_right_eq_some.mp accepted
      obtain ⟨⟨task,fired⟩,_,rfl⟩ := Option.map_eq_some_iff.mp same
      exact ⟨.inl rfl,fun _ _ member => .inl (handlers_fetched member)⟩

-- The fetch of a task is one of the sessions above, and what it reports is what that session has told.
structure Faithful (service : UploadService Server Choice) (put : Put Metadata) (upload : Upload Server Metadata) : Prop where
  queued : Queued upload
  safe : ∀ session, upload.session = some session → UploadSession.Safe service put.uploadData session
  fetched : ∀ data error, .fetched data error ∈ upload.callbackQueue →
    ∃ session, upload.session = some session ∧ (data,error) ∈ session.fetcher.completions

def Stored (service : UploadService Server Choice) (upload : Upload Server Metadata) : Prop :=
  ∃ session, upload.session = some session ∧ UploadSession.Final service session

theorem start_faithful : Faithful service put (start : Upload Server Metadata) :=
  ⟨(start_settling : Settling False _ []).queued,by simp [start],by simp [start]⟩

theorem faithful_preserved (resumable : service.Resumable) (faithful : Faithful service put upload) (queued : Queued next)
    (step : SessionStep service put upload next) : Faithful service put next ∧ (Stored service upload → Stored service next) := by
  obtain ⟨_,safe,fetched⟩ := faithful
  obtain ⟨same | ⟨session,event,after,before,now,moved⟩ | ⟨fresh,begun⟩,origin⟩ := step
  · refine ⟨⟨queued,by rwa [same],fun data error member => ?_⟩,by simp only [Stored,same,imp_self]⟩
    rw [same]
    rcases origin data error member with old | new
    · exact fetched data error old
    · rwa [same] at new
  · have ready := safe session before
    refine ⟨⟨queued,?_,fun data error member => ?_⟩,?_⟩
    · intro other there
      rw [now] at there
      cases Option.some.inj there
      exact UploadSession.safe_preserved resumable ready moved
    · rcases origin data error member with old | new
      · obtain ⟨other,there,told⟩ := fetched data error old
        rw [before] at there
        cases Option.some.inj there
        exact ⟨after,now,(UploadSession.completions_grow ready moved).subset told⟩
      · exact new
    · rintro ⟨other,there,final⟩
      rw [before] at there
      cases Option.some.inj there
      exact ⟨after,now,UploadSession.final_lasts resumable ready moved final⟩
  · refine ⟨⟨queued,?_,fun data error member => ?_⟩,?_⟩
    · intro other there
      rw [begun] at there
      cases Option.some.inj there
      exact UploadSession.initial_safe resumable _ _
    · rcases origin data error member with old | new
      · obtain ⟨other,there,_⟩ := fetched data error old
        rw [fresh] at there; cases there
      · exact new
    · rintro ⟨other,there,_⟩
      rw [fresh] at there; cases there

theorem runs_faithful (resumable : service.Resumable) (path : Runs (advance service put) start events upload) : Faithful service put upload := by
  induction path with
  | nil => exact start_faithful
  | step prior accepted ih =>
      have queued := (runs_ordered (.step prior accepted)).queued
      exact (faithful_preserved resumable ih queued (advance_session ih.queued accepted)).1

-- What is decided without an error was stored by then.
theorem decides_stored (faithful : Faithful service put upload) (decided : outcome ∈ decides put upload event)
    (quiet : outcome.2 = none) : Stored service upload := by
  unfold decides at decided
  split at decided
  · split at decided
    · split at decided
      · cases List.mem_singleton.mp decided
        cases quiet
      · cases decided
    · cases decided
  · split at decided
    · rename_i data error rest front
      split at decided
      · cases decided
      · cases List.mem_singleton.mp decided
        cases error with
        | some error => cases quiet
        | none =>
            obtain ⟨session,there,told⟩ := faithful.fetched data none (by simp [front])
            exact ⟨session,there,(faithful.safe session there).fetcher.told _ told rfl⟩
    · cases decided
  · cases decided

theorem runs_stored (resumable : service.Resumable) (path : Runs (advance service put) start events upload)
    (member : outcome ∈ observed (advance service put) (decides put) start events) (quiet : outcome.2 = none) :
    Stored service upload := by
  induction path with
  | nil => cases member
  | step prior accepted ih =>
      have faithful := runs_faithful resumable prior
      have queued := (runs_ordered (.step prior accepted)).queued
      have lasts := (faithful_preserved resumable faithful queued (advance_session faithful.queued accepted)).2
      rw [prior.observed_step accepted] at member
      rcases List.mem_append.mp member with old | new
      · exact lasts (ih old)
      · exact lasts (decides_stored faithful new quiet)

-- The completion hears of no error only when the service has the whole upload.
theorem putData_stored (resumable : service.Resumable) (path : Runs (advance service put) start events upload)
    (told : (metadata,none) ∈ upload.called) : ∃ session, upload.session = some session ∧
      service.status session.server = .kStatusFinal ∧ service.received session.server = put.uploadData := by
  have settling := runs_ordered path
  have decided := settling.all _ (List.mem_append_left _ told)
  obtain ⟨session,there,final⟩ := runs_stored resumable path decided rfl
  exact ⟨session,there,final,((runs_faithful resumable path).safe session there).final final⟩

theorem putData_stored_broken : ∃ upload session, Runs (advance (StoredUpload.service 2) samplePut) start
      (.dispatched :: (UploadSession.brokenOff ++ UploadSession.askedAgain).map .fetch ++ [.calledBack,.calledBack,.calledBack])
      upload ∧ upload.called = [(some "stored",none)] ∧ upload.session = some session ∧
    session.server.status = .kStatusFinal ∧ session.server.received = [1,2,3,4] := by
  have ran : (run (advance (StoredUpload.service 2) samplePut) start (.dispatched ::
      (UploadSession.brokenOff ++ UploadSession.askedAgain).map .fetch ++ [.calledBack,.calledBack,.calledBack])).map
        (·.called) = some [(some "stored",none)] := by decide +kernel
  obtain ⟨upload,accepted,called⟩ := Option.map_eq_some_iff.mp ran
  have told : (some "stored",none) ∈ upload.called := by rw [called]; exact List.mem_cons_self
  obtain ⟨session,there,final,received⟩ := putData_stored (StoredUpload.service_resumable 2) (run_exact.mp accepted) told
  exact ⟨upload,session,run_exact.mp accepted,called,there,final,received⟩

-- A bound on the blocks still to run on the callback queue.
def CallbackBlock.weight (handlers : Nat) : CallbackBlock Metadata → Nat
  | .fetched _ _ => 1 + 2 * handlers
  | .handler _ _ => 2
  | .completion _ => 1

def Upload.handlers (upload : Upload Server Metadata) : Nat :=
  upload.task.dictionaries.progressHandlers.length + upload.task.dictionaries.successHandlers.length +
    upload.task.dictionaries.failureHandlers.length

def queueWeight (handlers : Nat) : List (CallbackBlock Metadata) → Nat
  | [] => 0
  | block :: rest => block.weight handlers + queueWeight handlers rest

def Upload.weight (upload : Upload Server Metadata) : Nat := queueWeight upload.handlers upload.callbackQueue

theorem queueWeight_append {one two : List (CallbackBlock Metadata)} :
    queueWeight handlers (one ++ two) = queueWeight handlers one + queueWeight handlers two := by
  induction one with
  | nil => exact (Nat.zero_add _).symm
  | cons block rest ih => rw [List.cons_append,queueWeight,ih,queueWeight,Nat.add_assoc]

theorem weight_mono (queue : List (CallbackBlock Metadata)) (fewer : less ≤ more) :
    queueWeight less queue ≤ queueWeight more queue := by
  induction queue with
  | nil => exact Nat.le_refl _
  | cons block rest ih =>
      have first : block.weight less ≤ block.weight more := by
        cases block with
        | fetched data error => exact Nat.add_le_add_left (Nat.mul_le_mul_left 2 fewer) 1
        | handler handler snapshot => exact Nat.le_refl _
        | completion outcome => exact Nat.le_refl _
      exact Nat.add_le_add first ih

theorem handlers_weight {entries : Handlers Handler} {snapshot : FIRStorageTaskSnapshot Metadata} (put : Put Metadata) :
    queueWeight count ((put.enumerate entries).map fun entry => .handler entry.2 snapshot) = 2 * entries.length := by
  rw [← (put.orders entries).length_eq]
  induction put.enumerate entries with
  | nil => rfl
  | cons entry rest ih =>
      rw [List.map_cons,queueWeight,ih,List.length_cons,CallbackBlock.weight]
      omega

-- Handlers fired once more leave no handlers, so what is left of the queue weighs less.
theorem fetched_weight : (upload.fetched put data error).weight ≤ upload.weight + 2 * upload.handlers := by
  let fires (status : FIRStorageTaskStatus) : Nat := (upload.task.handlerDictionaryForStatus status).length
  have weighs : ∀ (first second : FIRStorageTaskSnapshot Metadata) (status : FIRStorageTaskStatus),
      queueWeight 0 ((upload.callbackQueue ++ (put.enumerate (upload.task.handlerDictionaryForStatus .progress)).map fun entry =>
          .handler entry.2 first) ++
        (put.enumerate (upload.task.handlerDictionaryForStatus status)).map fun entry => .handler entry.2 second) ≤
        upload.weight + 2 * (fires .progress + fires status) := by
    intro first second status
    rw [queueWeight_append,queueWeight_append,handlers_weight,handlers_weight]
    have less := weight_mono upload.callbackQueue (Nat.zero_le upload.handlers)
    simp only [Upload.weight,fires]
    omega
  unfold Upload.fetched
  cases error with
  | some error =>
      refine (weighs _ _ .failure).trans ?_
      simp only [Upload.handlers,fires,handlerDictionaryForStatus,HandlerDictionaries.forStatus]
      omega
  | none =>
      have success : upload.weight + 2 * (fires .progress + fires .success) ≤ upload.weight + 2 * upload.handlers := by
        simp only [Upload.handlers,fires,handlerDictionaryForStatus,HandlerDictionaries.forStatus]
        omega
      cases data.bind put.parse with
      | some metadata => exact (weighs _ _ .success).trans success
      | none => exact (weighs _ _ .success).trans success

theorem callBack_weight (front : upload.callbackQueue = block :: rest) :
    ({upload with callbackQueue := rest}.callBack put block).weight < upload.weight := by
  have whole : upload.weight = block.weight upload.handlers + Upload.weight {upload with callbackQueue := rest} := by
    rw [Upload.weight,front]
    rfl
  rw [whole]
  cases block with
  | fetched data error =>
      simp only [Upload.callBack,CallbackBlock.weight]
      split
      · omega
      · have less : (Upload.fetched put {upload with callbackQueue := rest} data error).weight ≤ _ + 2 * upload.handlers :=
          fetched_weight
        omega
  | handler handler snapshot =>
      have one : ∀ outcome : Outcome Metadata,
          Upload.weight {upload with callbackQueue := rest ++ [.completion outcome]} =
            Upload.weight {upload with callbackQueue := rest} + 1 := by
        intro outcome
        exact queueWeight_append
      cases handler with
      | success => exact (one _).trans_lt (by simp only [CallbackBlock.weight]; omega)
      | failure => exact (one _).trans_lt (by simp only [CallbackBlock.weight]; omega)
      | client name => exact Nat.lt_add_of_pos_left Nat.two_pos
  | completion outcome =>
      have same : (Upload.complete {upload with callbackQueue := rest} outcome).weight =
          Upload.weight {upload with callbackQueue := rest} := by
        unfold Upload.complete
        split <;> rfl
      exact same.trans_lt (Nat.lt_add_of_pos_left Nat.one_pos)

theorem drains (upload : Upload Server Metadata) : ∃ count next,
    Runs (advance service put) upload (List.replicate count .calledBack) next ∧ next.callbackQueue = [] := by
  induction size : upload.weight using Nat.strong_induction_on generalizing upload with
  | h size ih =>
      cases front : upload.callbackQueue with
      | nil => exact ⟨0,upload,.nil,front⟩
      | cons block rest =>
          have less : ({upload with callbackQueue := rest}.callBack put block).weight < _ := callBack_weight front
          obtain ⟨count,next,path,drained⟩ := ih _ (size ▸ less) _ rfl
          have accepted : advance service put upload .calledBack =
              some ({upload with callbackQueue := rest}.callBack put block) := by simp only [advance,front]
          exact ⟨count + 1,next,.cons accepted path,drained⟩

end CanvasPainter.PutData
