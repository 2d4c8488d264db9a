import CanvasPainter.PutDataStored

namespace CanvasPainter.PutData
open TransitionRuns FIRStorageObservableTask FIRStorageErrors GTMSessionUploadFetcher
variable {Server Choice Metadata : Type} {service : UploadService Server Choice} {put : Put Metadata}
  {upload next : Upload Server Metadata} {decided : List (Outcome Metadata)}

-- While the upload fetcher still has its handler, nothing has been decided.
structure Waiting (upload : Upload Server Metadata) (decided : List (Outcome Metadata)) : Prop where
  fresh : upload.session = none → decided = [] ∧ upload.userStoppedFetching = false
  held : ∀ session, upload.session = some session → session.fetcher.delegateCompletionHandler = true →
    decided = [] ∧ upload.userStoppedFetching = false ∧ upload.fetcherCompletion = true

theorem start_waiting : Waiting (start : Upload Server Metadata) [] := ⟨fun _ => ⟨rfl,rfl⟩,by simp [start]⟩

-- A step that leaves the fetcher, or only pauses or resumes it.
theorem Waiting.same (waiting : Waiting upload decided) (session : next.session.isSome = upload.session.isSome)
    (handler : ∀ after, next.session = some after → after.fetcher.delegateCompletionHandler = true →
      ∃ before, upload.session = some before ∧ before.fetcher.delegateCompletionHandler = true)
    (stopped : next.userStoppedFetching = upload.userStoppedFetching)
    (fetching : next.fetcherCompletion = upload.fetcherCompletion) : Waiting next decided := by
  refine ⟨fun fresh => ?_,fun after there held => ?_⟩
  · rw [stopped]
    apply waiting.fresh
    rw [fresh] at session
    exact Option.isSome_eq_false_iff.mp session.symm |> Option.isNone_iff_eq_none.mp
  · rw [stopped,fetching]
    obtain ⟨before,found,kept⟩ := handler after there held
    exact waiting.held before found kept

theorem Waiting.leaves (waiting : Waiting upload decided) (session : next.session = upload.session)
    (stopped : next.userStoppedFetching = upload.userStoppedFetching)
    (fetching : next.fetcherCompletion = upload.fetcherCompletion) : Waiting next decided :=
  waiting.same (by rw [session]) (fun after there held => ⟨after,session ▸ there,held⟩) stopped fetching

-- Pausing, resuming and stopping.
theorem Waiting.client (waiting : Waiting upload decided) (faithful : Faithful service put upload)
    (event : UploadSession.Event Choice) {change : GTMSessionUploadFetcher → GTMSessionUploadFetcher}
    (step : ∀ session, UploadSession.advance service session event = some (session.client change))
    (changed : next.session = upload.session.map (·.client change))
    (stopped : next.userStoppedFetching = upload.userStoppedFetching)
    (fetching : next.fetcherCompletion = upload.fetcherCompletion) : Waiting next decided := by
  refine waiting.same (by rw [changed,Option.isSome_map]) (fun after there held => ?_) stopped fetching
  rw [changed] at there
  obtain ⟨before,found,rfl⟩ := Option.map_eq_some_iff.mp there
  exact ⟨before,found,UploadSession.held_before (faithful.safe before found) (step before) held⟩

theorem run_waiting (faithful : Faithful service put upload) (waiting : Waiting upload decided)
    (front : upload.dispatchQueue = block :: rest) : Waiting ({upload with dispatchQueue := rest}.run service put block)
      (decided ++ if block = .cancel then [(none,some (errorWithCode .cancelled noInfo))] else []) := by
  cases block with
  | enqueue =>
      rw [if_neg (by simp),List.append_nil]
      rcases faithful.queued with ⟨fresh,_⟩ | ⟨_,absent⟩
      · obtain ⟨undecided,running⟩ := waiting.fresh fresh
        exact ⟨by simp [Upload.run,Upload.enqueue],fun _ _ _ => ⟨undecided,running,rfl⟩⟩
      · rw [front] at absent
        exact absurd List.mem_cons_self absent
  | cancel =>
      obtain ⟨begun,_⟩ := faithful.queued.taken front (by simp)
      obtain ⟨session,found⟩ := Option.isSome_iff_exists.mp begun
      have stopped : ({upload with dispatchQueue := rest}.run service put .cancel).session = some (session.client (·.stopFetching)) :=
        congrArg (Option.map _) found
      refine ⟨fun fresh => ?_,fun after there held => ?_⟩
      · rw [stopped] at fresh; cases fresh
      · rw [stopped] at there
        cases Option.some.inj there
        cases held
  | pause =>
      rw [if_neg (by simp),List.append_nil]
      exact waiting.client faithful .pauseFetching (fun _ => rfl) rfl rfl rfl
  | resume =>
      rw [if_neg (by simp),List.append_nil]
      exact waiting.client faithful .resumeFetching (fun _ => rfl) rfl rfl rfl

-- A result on its way means that the handler is gone.
theorem callBack_waiting (faithful : Faithful service put upload) (waiting : Waiting upload decided)
    (front : upload.callbackQueue = block :: rest) : Waiting ({upload with callbackQueue := rest}.callBack put block)
      (decided ++ decides put upload (.calledBack : Event Choice)) := by
  cases block with
  | fetched data error =>
      obtain ⟨session,found,told⟩ := faithful.fetched data error (by simp [front])
      have gone : session.fetcher.delegateCompletionHandler ≠ true := by
        intro held
        rw [(faithful.safe session found).fetcher.untold held] at told
        cases told
      have kept : ({upload with callbackQueue := rest}.callBack put (.fetched data error)).session = some session := by
        simp only [Upload.callBack]
        split
        · exact found
        · unfold Upload.fetched
          cases error with
          | some error => exact found
          | none => cases data.bind put.parse <;> exact found
      refine ⟨fun fresh => ?_,fun after there held => ?_⟩
      · rw [kept] at fresh; cases fresh
      · rw [kept] at there
        cases Option.some.inj there
        exact absurd held gone
  | handler handler snapshot =>
      rw [show decides put upload (.calledBack : Event Choice) = [] by simp [decides,front],List.append_nil]
      cases handler <;> exact waiting.leaves rfl rfl rfl
  | completion outcome =>
      rw [show decides put upload (.calledBack : Event Choice) = [] by simp [decides,front],List.append_nil]
      simp only [Upload.callBack,Upload.complete]
      split <;> exact waiting.leaves rfl rfl rfl

theorem waiting_preserved (faithful : Faithful service put upload) (waiting : Waiting upload decided)
    (accepted : advance service put upload event = some next) :
    Waiting next (decided ++ decides put upload event) := by
  have leaves : next.session = upload.session → next.userStoppedFetching = upload.userStoppedFetching →
      next.fetcherCompletion = upload.fetcherCompletion → decides put upload event = [] →
      Waiting next (decided ++ decides put upload event) := by
    intro session stopped fetching nothing
    rw [nothing,List.append_nil]
    exact waiting.leaves session stopped fetching
  cases event with
  | fetch event =>
      simp only [advance] at accepted
      split at accepted
      · cases accepted
      · rename_i session found
        obtain ⟨_,same⟩ := Option.ite_none_left_eq_some.mp accepted
        obtain ⟨after,step,rfl⟩ := Option.map_eq_some_iff.mp same
        rw [show decides put upload (.fetch event) = [] from rfl,List.append_nil]
        refine waiting.same (by simp [found]) (fun other there held => ?_) rfl rfl
        cases Option.some.inj there
        exact ⟨session,found,UploadSession.held_before (faithful.safe session found) step held⟩
  | dispatched =>
      simp only [advance] at accepted
      split at accepted
      · cases accepted
      · rename_i block rest front
        obtain ⟨_,same⟩ := Option.ite_none_left_eq_some.mp accepted
        cases Option.some.inj same
        split
        · rename_i there
          have ran := run_waiting faithful waiting front
          cases block with
          | cancel =>
              have alive : upload.alive = true := there.resolve_left (by simp)
              rwa [show decides put upload (.dispatched : Event Choice) = _ by simp only [decides,front,if_pos alive]; rfl]
          | _ => simpa [decides,front] using ran
        · rename_i gone
          rw [dead_undecided front (not_or.mp gone).2,List.append_nil]
          exact waiting.leaves rfl rfl rfl
  | calledBack =>
      simp only [advance] at accepted
      split at accepted
      · cases accepted
      · rename_i block rest front
        cases Option.some.inj accepted
        exact callBack_waiting faithful waiting front
  | progressed =>
      obtain ⟨_,accepted⟩ := Option.ite_none_right_eq_some.mp accepted
      cases Option.some.inj accepted
      exact leaves rfl rfl rfl rfl
  | cancel | pause | resume | removeObserverWithHandle _ | removeAllObserversForStatus _ | removeAllObservers | released =>
      obtain ⟨_,accepted⟩ := Option.ite_none_right_eq_some.mp accepted
      cases Option.some.inj accepted
      exact leaves rfl rfl rfl rfl
  | deallocated =>
      obtain ⟨_,accepted⟩ := Option.ite_none_left_eq_some.mp accepted
      cases Option.some.inj accepted
      rw [show decides put upload (.deallocated : Event Choice) = [] from rfl,List.append_nil]
      exact waiting.client faithful .stopFetching (fun _ => rfl) rfl rfl rfl
  | observeStatus status name =>
      obtain ⟨_,accepted⟩ := Option.ite_none_right_eq_some.mp accepted
      obtain ⟨⟨task,fired⟩,_,rfl⟩ := Option.map_eq_some_iff.mp accepted
      exact leaves rfl rfl rfl rfl

theorem runs_waiting (resumable : service.Resumable) (path : Runs (advance service put) start events upload) :
    Waiting upload (observed (advance service put) (decides put) start events) := by
  induction path with
  | nil => exact start_waiting
  | step prior accepted ih =>
      rw [prior.observed_step accepted]
      exact waiting_preserved (runs_faithful resumable prior) ih accepted

-- Unprompted steps of the fetcher and its service are steps of the task, and bring what they report to its queue.
theorem fetches (resumable : service.Resumable) (path : Runs (UploadSession.advance service) session events after)
    (safe : UploadSession.Safe service data session) (unprompted : UploadSession.Unprompted events)
    (there : upload.session = some session) : ∃ results,
      after.fetcher.completions = session.fetcher.completions ++ results ∧
      Runs (advance service put) upload (events.map .fetch) {upload with
        session := some after
        callbackQueue := upload.callbackQueue ++ results.map fun (data,error) => .fetched data error} := by
  induction path with
  | nil => exact ⟨[],by simp,by simpa [← there] using Runs.nil⟩
  | step prior accepted ih =>
      rename_i earlier middle event after
      obtain ⟨before,last⟩ := List.forall_mem_append.mp unprompted
      obtain ⟨results,told,ran⟩ := ih before
      have ready := prior.invariant safe fun _ _ _ safe accepted => UploadSession.safe_preserved resumable safe accepted
      obtain ⟨more,grown⟩ := UploadSession.completions_grow ready accepted
      refine ⟨results ++ more,by rw [← grown,told,List.append_assoc],?_⟩
      rw [List.map_append]
      refine ran.step ?_
      have quiet := List.forall_mem_singleton.mp last
      have added : after.fetcher.completions.drop middle.fetcher.completions.length = more := by
        rw [← grown,List.drop_left]
      simp only [advance,quiet,Bool.false_eq_true,if_false,accepted,Option.map_some,added,List.map_append,List.append_assoc]

-- The success of the fetch is on its way or was the first thing decided.
def Succeeding (body : Option NSData) (upload : Upload Server Metadata) (decided : List (Outcome Metadata)) : Prop :=
  (∃ session, upload.session = some session ∧ session.fetcher.completions = [(body,none)]) ∧
    (.fetched body none ∈ upload.callbackQueue ∧ decided = [] ∧ upload.userStoppedFetching = false ∧
      upload.fetcherCompletion = true ∨ ∃ metadata, decided.head? = some (metadata,none))

theorem callBack_keeps_session (put : Put Metadata) (upload : Upload Server Metadata) (block : CallbackBlock Metadata) :
    (upload.callBack put block).session = upload.session := by
  cases block with
  | fetched data error =>
      simp only [Upload.callBack]
      split
      · rfl
      · unfold Upload.fetched
        cases error with
        | some error => rfl
        | none => cases data.bind put.parse <;> rfl
  | handler handler snapshot => cases handler <;> rfl
  | completion outcome =>
      simp only [Upload.callBack,Upload.complete]
      split <;> rfl

theorem callBack_succeeding (faithful : Faithful service put upload) (succeeding : Succeeding body upload decided)
    (front : upload.callbackQueue = block :: rest) : Succeeding body ({upload with callbackQueue := rest}.callBack put block)
      (decided ++ decides put upload (.calledBack : Event Choice)) := by
  obtain ⟨⟨session,found,told⟩,pending | ⟨metadata,first⟩⟩ := succeeding
  · refine ⟨⟨session,(callBack_keeps_session _ _ _).trans found,told⟩,?_⟩
    obtain ⟨member,undecided,running,fetching⟩ := pending
    rw [front] at member
    cases block with
    | fetched data error =>
        obtain ⟨other,same,reported⟩ := faithful.fetched data error (by simp [front])
        rw [found] at same
        cases Option.some.inj same
        rw [told,List.mem_singleton] at reported
        cases reported
        refine .inr ⟨(body.bind put.parse).or upload.metadata,?_⟩
        simp only [undecided,decides,front,running,fetching]
        rfl
    | handler handler snapshot =>
        have later : .fetched body none ∈ rest := by simpa using member
        rw [show decides put upload (.calledBack : Event Choice) = [] by simp [decides,front],List.append_nil]
        left
        cases handler with
        | success => exact ⟨List.mem_append_left _ later,undecided,running,fetching⟩
        | failure => exact ⟨List.mem_append_left _ later,undecided,running,fetching⟩
        | client name => exact ⟨later,undecided,running,fetching⟩
    | completion outcome =>
        have later : .fetched body none ∈ rest := by simpa using member
        rw [show decides put upload (.calledBack : Event Choice) = [] by simp [decides,front],List.append_nil]
        left
        simp only [Upload.callBack,Upload.complete]
        split <;> exact ⟨later,undecided,running,fetching⟩
  · refine ⟨⟨session,(callBack_keeps_session _ _ _).trans found,told⟩,.inr ⟨metadata,?_⟩⟩
    rw [List.head?_append,first]
    rfl

theorem drained_succeeding (resumable : service.Resumable) (path : Runs (advance service put) start events upload)
    (succeeding : Succeeding body upload (observed (advance service put) (decides put) start events))
    (drain : Runs (advance service put) upload later next) (only : ∀ event ∈ later, event = .calledBack) :
    Succeeding body next (observed (advance service put) (decides put) start (events ++ later)) := by
  induction drain with
  | nil => rwa [List.append_nil]
  | step prior accepted ih =>
      obtain ⟨before,last⟩ := List.forall_mem_append.mp only
      cases List.forall_mem_singleton.mp last
      have sofar := path.append prior
      rw [← List.append_assoc,sofar.observed_step accepted]
      simp only [advance] at accepted
      split at accepted
      · cases accepted
      · rename_i block rest front
        cases Option.some.inj accepted
        exact callBack_succeeding (runs_faithful resumable sofar) (ih before) front

theorem fetches_undecided (events : List (UploadSession.Event Choice)) (upload : Upload Server Metadata) :
    observed (advance service put) (decides put) upload (events.map .fetch) = [] := by
  induction events generalizing upload with
  | nil => rfl
  | cons event rest ih =>
      rw [List.map_cons,observed]
      cases advance service put upload (.fetch event) with
      | none => rfl
      | some next => exact ih next

theorem dispatches (held : upload.held = true) (front : upload.dispatchQueue = block :: rest) (later : block ≠ .enqueue) :
    advance service put upload .dispatched = some ({upload with dispatchQueue := rest}.run service put block) := by
  have alive : Upload.alive {upload with dispatchQueue := rest} = true := by simp [Upload.alive,held]
  simp only [advance,front,later,false_and,if_false,alive,or_true,if_true]

-- However far the fetch of a task came: as long as it is not over, pausing and resuming the task can still bring
-- it to the one success that the completion hears of.
theorem putData_resumable (resumable : service.Resumable) (responsive : service.Responsive)
    (path : Runs (advance service put) start events upload) (spares : EachStep (advance service put) start events Spares)
    (found : upload.session = some session) (unfinished : UploadSession.Unfinished service put.uploadData session)
    (held : upload.held = true) (idle : upload.dispatchQueue = []) (body : Option NSData) : ∃ later next metadata,
      Runs (advance service put) upload (.pause :: .resume :: .dispatched :: .dispatched :: later) next ∧
      next.called = [(metadata,none)] ∧ Stored service next := by
  have safe := (runs_faithful resumable path).safe session found
  obtain ⟨online,done,resumed,unprompted,finished⟩ := UploadSession.safe_resumable resumable responsive safe unfinished body
  -- The two blocks of the task pause and resume its fetcher.
  let paused := {upload with dispatchQueue := [.resume]}.pause put
  let ready := {paused with dispatchQueue := []}.resume put
  let mid := (session.client (·.pauseFetching)).client (·.resumeFetching)
  have asking : Runs (advance service put) upload [.pause,.resume,.dispatched,.dispatched] ready := by
    have pausing : advance service put upload .pause = some {upload with dispatchQueue := [.pause]} := by
      simp only [advance,held,idle,if_true,List.nil_append]
    have resuming : advance service put {upload with dispatchQueue := [.pause]} .resume =
        some {upload with dispatchQueue := [.pause,.resume]} := if_pos held
    have first : advance service put {upload with dispatchQueue := [.pause,.resume]} .dispatched = some paused :=
      dispatches (show Upload.held {upload with dispatchQueue := [.pause,.resume]} = true from held) rfl (by simp)
    have second : advance service put paused .dispatched = some ready :=
      dispatches (show paused.held = true from held) rfl (by simp)
    exact .cons pausing (.cons resuming (.cons first (.cons second .nil)))
  have there : ready.session = some mid := by
    have mapped : ready.session = (upload.session.map (·.client (·.pauseFetching))).map (·.client (·.resumeFetching)) := rfl
    rw [mapped,found]
    rfl
  have asked := path.append asking
  obtain ⟨undecided,running,fetching⟩ := (runs_waiting resumable asked).held mid there unfinished.held
  have onward : Runs (UploadSession.advance service) mid online done := by
    have checked := run_exact.mpr resumed
    change run (UploadSession.advance service) mid online = some done at checked
    exact run_exact.mp checked
  obtain ⟨results,told,ran⟩ := fetches resumable onward ((runs_faithful resumable asked).safe mid there) unprompted there
  have untold : mid.fetcher.completions = [] := safe.fetcher.untold unfinished.held
  rw [untold,List.nil_append,finished.told] at told
  subst told
  have waits := asked.append ran
  have succeeding : Succeeding body {ready with
      session := some done
      callbackQueue := ready.callbackQueue ++ [.fetched body none]} (observed (advance service put) (decides put) start
        (events ++ [.pause,.resume,.dispatched,.dispatched] ++ online.map .fetch)) := by
    rw [asked.observed_append,undecided,fetches_undecided]
    exact ⟨⟨done,rfl,finished.told⟩,.inl ⟨by simp,rfl,running,fetching⟩⟩
  obtain ⟨count,next,drain,drained⟩ := drains _
  have whole := waits.append drain
  have decided := drained_succeeding resumable waits succeeding drain (by simp [List.mem_replicate])
  obtain ⟨_,⟨member,_⟩ | ⟨metadata,first⟩⟩ := decided
  · rw [drained] at member
    cases member
  · have asks := spares.extend [.pause,.resume,.dispatched,.dispatched] (by simp [Spares])
    have uploads := asks.extend (online.map .fetch) (by simp [Spares])
    have spared := uploads.extend (List.replicate count .calledBack) (by simp [List.mem_replicate,Spares])
    have called := (putData_once whole spared).2 drained
    rw [List.take_one,first] at called
    obtain ⟨stored,there,final,_⟩ := putData_stored resumable whole (by rw [called]; exact List.mem_cons_self)
    refine ⟨online.map .fetch ++ List.replicate count .calledBack,next,metadata,?_,called,stored,there,final⟩
    simpa using asking.append (ran.append drain)

theorem putData_resumable_broken : let advancing := advance (StoredUpload.service 2) samplePut
    ∃ upload later next metadata, Runs advancing start (.dispatched :: UploadSession.brokenOff.map .fetch) upload ∧
      Runs advancing upload (.pause :: .resume :: .dispatched :: .dispatched :: later) next ∧
      next.called = [(metadata,none)] ∧ Stored (StoredUpload.service 2) next := by
  intro advancing
  have ran : (run advancing start (.dispatched :: UploadSession.brokenOff.map .fetch)).any (fun upload =>
      upload.held = true ∧ upload.dispatchQueue = [] ∧ upload.session.any (fun session =>
        UploadSession.Unfinished (StoredUpload.service 2) [1,2,3,4] session)) := by decide +kernel
  have spares : EachStep advancing start (.dispatched :: UploadSession.brokenOff.map .fetch) Spares := by decide +kernel
  obtain ⟨upload,accepted,facts⟩ := Option.any_eq_true _ _ |>.mp ran
  obtain ⟨held,idle,open'⟩ := of_decide_eq_true facts
  obtain ⟨session,found,unfinished⟩ := Option.any_eq_true _ _ |>.mp open'
  obtain ⟨later,next,metadata,resumed,called,stored⟩ := putData_resumable (StoredUpload.service_resumable 2)
    (StoredUpload.service_responsive 2) (run_exact.mp accepted) spares found (of_decide_eq_true unfinished) held idle
    (some [123,125])
  exact ⟨upload,later,next,metadata,run_exact.mp accepted,resumed,called,stored⟩

end CanvasPainter.PutData
