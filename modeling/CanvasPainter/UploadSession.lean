import CanvasPainter.TransitionRuns
import CanvasPainter.UploadMoves
import CanvasPainter.UploadService

namespace CanvasPainter.UploadSession
open TransitionRuns PrefixTransfer GTMSessionUploadFetcher
variable {Server Choice : Type}

-- `replies` are the answers the service has given, by the number of the request.
structure Session (Server : Type) where
  fetcher : GTMSessionUploadFetcher
  server : Server
  replies : List (Nat × UploadHeaders)

-- `served` reaches any request ever sent, late and again too. A fetch may end with an error at any time, and
-- without one only by a reply.
inductive Event (Choice : Type) where
  | initialFinished (result : FetchResult)
  | main
  | served (number : Nat) (choice : Choice)
  | retried (number : Nat) (shouldRetry : Bool)
  | finished (number : Nat) (result : FetchResult)
  | pauseFetching
  | resumeFetching
  | stopFetching
  deriving DecidableEq, Repr

-- What is asked of the fetcher.
def Event.prompts : Event Choice → Bool
  | .pauseFetching | .resumeFetching | .stopFetching => true
  | _ => false

def start (service : UploadService Server Choice) (uploadData : NSData) (chunkSize : Int) : Session Server :=
  ⟨.beginFetch uploadData chunkSize,service.opened,[]⟩

namespace Session
variable (session : Session Server)

def client (change : GTMSessionUploadFetcher → GTMSessionUploadFetcher) : Session Server :=
  {session with fetcher := change session.fetcher}

-- A request without a location goes nowhere.
def sent (number : Nat) : Option ChunkRequest := session.fetcher.begun[number]?.filter (·.url.isSome)

def serve (service : UploadService Server Choice) (number : Nat) (choice : Choice) (request : ChunkRequest) : Session Server :=
  let (server,answer) := service.serve choice request session.server
  {session with server := server, replies := session.replies ++ answer.toList.map (number,·)}

end Session

-- The answer to the request for a location names the service's granularity too.
def advance (service : UploadService Server Choice) (session : Session Server) : Event Choice → Option (Session Server)
  | .initialFinished result =>
    if session.fetcher.initialFetch ∧
        (result.error = none → result.responseHeaders.chunkGranularity = service.granularity) then
      some (session.client ({·.initialFetchFinished result with initialFetch := false}))
    else none
  | .main =>
    match session.fetcher.subdata with
    | [] => none
    | response :: rest => some (session.client ({· with subdata := rest}.chunkSubdataGenerated response))
  | .served number choice => (session.sent number).map (session.serve service number choice)
  | .retried number shouldRetry =>
    match session.fetcher.begun[number]? with
    | some request =>
      if number ∈ session.fetcher.fetching then
        some (session.client (·.retryBlock (!request.uploadCommand.isChunk) shouldRetry))
      else none
    | none => none
  | .finished number result =>
    match session.fetcher.begun[number]? with
    | some request =>
      if number ∈ session.fetcher.fetching ∧
          (result.error = none → (number,result.responseHeaders) ∈ session.replies) then
        some (session.client fun fetcher =>
          {fetcher with fetching := fetcher.fetching.erase number}.fetcherFinished request result)
      else none
    | none => none
  | .pauseFetching => some (session.client (·.pauseFetching))
  | .resumeFetching => some (session.client (·.resumeFetching))
  | .stopFetching => some (session.client (·.stopFetching))

variable {service : UploadService Server Choice} {chunkSize : Int} {data : NSData} {fetcher : GTMSessionUploadFetcher}
  {session next : Session Server}

-- The service takes chunks still, as far as it is for the fetcher to send them.
def Taking (service : UploadService Server Choice) (session : Session Server) : Prop :=
  service.status session.server ≠ .kStatusFinal ∧ Aligned service.granularity (service.received session.server).length

def Final (service : UploadService Server Choice) (session : Session Server) : Prop :=
  service.status session.server = .kStatusFinal

-- A reply says what the service had then, and a chunk that finalizes is answered as final only.
structure FairReply (service : UploadService Server Choice) (session : Session Server) (reply : Nat × UploadHeaders) :
    Prop where
  asked : ∃ request ∈ session.fetcher.begun[reply.1]?, request.url.isSome = true ∧
    (request.uploadCommand.finalizes = true → reply.2.uploadStatus = some "final") ∧
    (request.uploadCommand = .query → reply.2.chunkGranularity = service.granularity ∧ (Taking service session →
      0 ≤ reply.2.sizeReceived.getD 0 ∧ Aligned service.granularity (reply.2.sizeReceived.getD 0)))
  final : reply.2.uploadStatus = some "final" → Final service session

structure Safe (service : UploadService Server Choice) (data : NSData) (session : Session Server) : Prop where
  fetcher : Good service.granularity data (Taking service session) (Final service session) session.fetcher
  front : service.received session.server <+: data
  final : Final service session → service.received session.server = data
  replies : ∀ reply ∈ session.replies, FairReply service session reply

theorem initial_safe (resumable : service.Resumable) (data : NSData) (chunkSize : Int) :
    Safe service data (start service data chunkSize) := by
  refine ⟨initial_good data chunkSize _ _,?_,fun final => absurd final resumable.unfinished,by simp [start]⟩
  rw [start,resumable.empty]
  exact List.nil_prefix

theorem FairReply.begun (fair : FairReply service session reply) (begun : session.fetcher.begun <+: next.fetcher.begun)
    (fewer : Taking service next → Taking service session) (lasts : Final service session → Final service next) :
    FairReply service next reply := by
  obtain ⟨⟨request,found,url,finalized,query⟩,final⟩ := fair
  refine ⟨⟨request,?_,url,finalized,fun asks => ⟨(query asks).1,fun still => (query asks).2 (fewer still)⟩⟩,
    fun ended => lasts (final ended)⟩
  obtain ⟨more,grown⟩ := begun
  have bound := (List.getElem?_eq_some_iff.mp found).1
  rw [← grown]
  exact (List.getElem?_append_left bound).trans found

theorem Safe.client (safe : Safe service data session)
    (moves : Moves service.granularity (Taking service session) (Final service session) session.fetcher fetcher) :
    Safe service data {session with fetcher := fetcher} :=
  ⟨moves.good safe.fetcher,safe.front,safe.final,
    fun reply member => (safe.replies reply member).begun moves.begun id id⟩

-- What a request of an honest fetcher does at the service: what is stored stays a front part, and is all of the
-- upload when it becomes final. A service that takes no chunks does not begin to.
structure Served (service : UploadService Server Choice) (data : NSData) (before after : Server) : Prop where
  front : service.received after <+: data
  final : service.status after = .kStatusFinal → service.received after = data
  taking : service.status after ≠ .kStatusFinal ∧ Aligned service.granularity (service.received after).length →
    service.status before ≠ .kStatusFinal ∧ Aligned service.granularity (service.received before).length

-- A chunk can only go on at a service that takes chunks, since the offset it names is aligned.
theorem continues_honest (honest : Honest service.granularity data (Taking service session) request)
    (continues : service.Continues request session.server) : Taking service session ∧
      HonestChunk service.granularity data request (service.received session.server).length := by
  obtain ⟨chunk,unfinished,here⟩ := continues
  rw [Honest,if_pos chunk] at honest
  obtain ⟨offset,named,aligned,carries⟩ := honest
  rw [here] at named
  have place : (service.received session.server).length = offset := Int.natCast_inj.mp (Option.some.inj named)
  rw [← place] at aligned carries
  exact ⟨⟨unfinished,aligned⟩,carries ⟨unfinished,aligned⟩⟩

theorem honest_served (resumable : service.Resumable) (safe : Safe service data session)
    (honest : Honest service.granularity data (Taking service session) request) (choice : Choice) :
    Served service data session.server (service.serve choice request session.server).1 := by
  have same : service.received (service.serve choice request session.server).1 = service.received session.server →
      Served service data session.server (service.serve choice request session.server).1 := by
    intro same
    refine ⟨same ▸ safe.front,fun final => ?_,fun still => ?_⟩
    · rcases resumable.finishes choice request session.server final with before | ⟨continues,finalizes,all⟩
      · exact same.trans (safe.final before)
      · have carries := (continues_honest honest continues).2
        have ends := carries.final finalizes
        rw [same] at all
        have nothing : request.bodyData = [] := List.append_right_eq_self.mp all.symm
        rw [nothing,List.length_nil,Nat.add_zero] at ends
        rw [same]
        exact safe.front.eq_of_length ends
    · rw [same] at still
      exact ⟨fun final => still.1 (resumable.lasts choice request session.server final),still.2⟩
  rcases resumable.appends choice request session.server with kept | ⟨continues,taken,added⟩
  · exact same kept
  · obtain ⟨takes,carries⟩ := continues_honest honest continues
    have front : service.received (service.serve choice request session.server).1 <+: data := by
      rw [added]
      exact taken_front carries.truthful rfl safe.front
    refine ⟨front,fun final => ?_,fun _ => takes⟩
    rcases resumable.finishes choice request session.server final with before | ⟨_,finalizes,all⟩
    · exact absurd before takes.1
    · refine whole front (Nat.le_of_eq ?_)
      rw [all,List.length_append]
      exact (carries.final finalizes).symm

theorem served_safe (resumable : service.Resumable) (safe : Safe service data session) (choice : Choice)
    (found : session.sent number = some request) : Safe service data (session.serve service number choice request) := by
  obtain ⟨found,url⟩ := Option.filter_eq_some_iff.mp found
  have honest := safe.fetcher.begun request (List.mem_of_getElem? found)
  obtain ⟨front,final,taking⟩ := honest_served resumable safe honest choice
  have lasts : Final service session → Final service (session.serve service number choice request) :=
    resumable.lasts choice request session.server
  refine ⟨safe.fetcher.mono taking lasts,front,final,?_⟩
  intro reply member
  rcases List.mem_append.mp member with old | new
  · exact (safe.replies reply old).begun (List.prefix_refl _) taking lasts
  · obtain ⟨headers,answered,rfl⟩ := List.mem_map.mp new
    have answer := resumable.answers choice request session.server headers (Option.mem_toList.mp answered)
    refine ⟨⟨request,found,url,answer.finalized,fun query => ⟨answer.granular query,fun still => ?_⟩⟩,answer.final⟩
    cases told : headers.sizeReceived with
    | none => exact ⟨Int.le_refl _,.zero⟩
    | some size =>
        obtain rfl := answer.size query size told
        exact ⟨Int.natCast_nonneg _,still.2⟩

theorem headers_final : uploadStatusFromResponseHeaders headers = .kStatusFinal ↔ headers.uploadStatus = some "final" := by
  unfold uploadStatusFromResponseHeaders
  split
  · rename_i active
    simp [active]
  · split
    · rename_i final
      simp [final]
    · split <;> simp_all

theorem fetcherFinished_moves (safe : Safe service data session) (found : session.fetcher.begun[number]? = some request)
    (replied : result.error = none → (number,result.responseHeaders) ∈ session.replies) (fetching : List Nat) :
    Moves service.granularity (Taking service session) (Final service session) session.fetcher
      ({session.fetcher with fetching := fetching}.fetcherFinished request result) := by
  have removed : Moves service.granularity (Taking service session) (Final service session) session.fetcher
      {session.fetcher with fetching := fetching} := Moves.none.keeps (keeps_flags session.fetcher _ _ _ _ _)
  have good := removed.good safe.fetcher
  have honest := safe.fetcher.begun request (List.mem_of_getElem? found)
  -- The reply is one to this request.
  have told : result.error = none → request.url.isSome = true ∧
      (request.uploadCommand.finalizes = true → result.responseHeaders.uploadStatus = some "final") ∧
      (request.uploadCommand = .query → result.responseHeaders.chunkGranularity = service.granularity ∧
        (Taking service session → 0 ≤ result.responseHeaders.sizeReceived.getD 0 ∧
          Aligned service.granularity (result.responseHeaders.sizeReceived.getD 0))) := by
    intro quiet
    obtain ⟨other,same,answered⟩ := (safe.replies _ (replied quiet)).asked
    obtain rfl : request = other := Option.some.inj (found.symm.trans same)
    exact answered
  have fair : result.error = none → ∀ length : Int, (Taking service session →
      result.responseHeaders.uploadStatus ≠ some "final" → 0 ≤ length ∧ Aligned service.granularity length) →
      FairResult service.granularity (Taking service session) (Final service session)
        {session.fetcher with fetching := fetching} result.responseHeaders length := by
    intro quiet length sized
    refine ⟨fun ended => (safe.replies _ (replied quiet)).final (headers_final.mp ended),?_,fun still going => ?_⟩
    · exact safe.fetcher.located (.inr (.inl ⟨request,List.mem_of_getElem? found,(told quiet).1⟩))
    · exact sized still (headers_final.not.mp going)
  unfold fetcherFinished
  split
  · rename_i query
    have plain : request.contentLength = none := by simpa [Honest,query,UploadCommand.isChunk] using honest
    refine removed.trans (queryFetcherFinished_moves good plain (fun quiet => ((told quiet).2.2 query).1) fun quiet => ?_)
    exact fair quiet _ fun still _ => ((told quiet).2.2 query).2 still
  · exact removed
  · rename_i notQuery notCancel
    have chunk : request.uploadCommand.isChunk = true := by
      cases command : request.uploadCommand with
      | query => exact absurd command notQuery
      | cancel => exact absurd command notCancel
      | _ => rfl
    rw [Honest,if_pos chunk] at honest
    obtain ⟨offset,_,_,carries⟩ := honest
    refine removed.trans (chunkFetcherFinished_moves good fun quiet => fair quiet _ fun still going => ?_)
    rw [(carries still).counted]
    refine ⟨Int.natCast_nonneg _,(carries still).part ?_⟩
    -- A chunk that finalizes the upload is answered as final.
    exact Bool.eq_false_iff.mpr fun finalizes => going ((told quiet).2.1 finalizes)

-- A step is the client's or the service's.
theorem advance_moves (safe : Safe service data session) (accepted : advance service session event = some next) :
    (∃ fetcher, next = {session with fetcher := fetcher} ∧
      Moves service.granularity (Taking service session) (Final service session) session.fetcher fetcher) ∨
    ∃ number choice request, event = .served number choice ∧ session.sent number = some request ∧
      next = session.serve service number choice request := by
  cases event with
  | initialFinished result =>
      obtain ⟨allowed,same⟩ := Option.ite_none_right_eq_some.mp accepted
      cases Option.some.inj same
      exact .inl ⟨_,rfl,(initialFetchFinished_moves allowed.2).keeps (keeps_flags _ _ _ _ _ _)⟩
  | main =>
      simp only [advance] at accepted
      split at accepted
      · cases accepted
      · rename_i response rest front
        cases Option.some.inj accepted
        exact .inl ⟨_,rfl,chunkSubdataGenerated_moves safe.fetcher front⟩
  | served number choice =>
      obtain ⟨request,found,rfl⟩ := Option.map_eq_some_iff.mp accepted
      exact .inr ⟨number,choice,request,rfl,found,rfl⟩
  | retried number shouldRetry =>
      simp only [advance] at accepted
      split at accepted
      · obtain ⟨_,same⟩ := Option.ite_none_right_eq_some.mp accepted
        cases Option.some.inj same
        exact .inl ⟨_,rfl,Moves.none.keeps (retryBlock_keeps _ _ _)⟩
      · cases accepted
  | finished number result =>
      simp only [advance] at accepted
      split at accepted
      · rename_i request found
        obtain ⟨⟨_,replied⟩,same⟩ := Option.ite_none_right_eq_some.mp accepted
        cases Option.some.inj same
        exact .inl ⟨_,rfl,fetcherFinished_moves safe found replied _⟩
      · cases accepted
  | pauseFetching =>
      cases Option.some.inj accepted
      have paused : Moves service.granularity (Taking service session) (Final service session) session.fetcher
          {session.fetcher with isPaused := true} := Moves.none.keeps (keeps_flags session.fetcher _ _ _ _ _)
      exact .inl ⟨_,rfl,paused.destroys⟩
  | resumeFetching =>
      cases Option.some.inj accepted
      refine .inl ⟨_,rfl,?_⟩
      change Moves _ _ _ session.fetcher session.fetcher.resumeFetching
      unfold resumeFetching
      split
      · have resumed : Moves service.granularity (Taking service session) (Final service session) session.fetcher
            {session.fetcher with isPaused := false} := Moves.none.keeps (keeps_flags session.fetcher _ _ _ _ _)
        exact (Moves.asks safe.fetcher resumed).1
      · exact .none
  | stopFetching =>
      cases Option.some.inj accepted
      refine .inl ⟨_,rfl,?_⟩
      change Moves _ _ _ session.fetcher session.fetcher.stopFetching
      have destroyed : Moves service.granularity (Taking service session) (Final service session) session.fetcher
          session.fetcher.destroyChunkFetcher := Moves.none.destroys
      simp only [stopFetching]
      split
      · have cancelled := (Moves.asks safe.fetcher destroyed).2
        exact cancelled.keeps ⟨rfl,rfl,fun _ member => member,fun _ => id,(by simp),.inl rfl,rfl,(by simp)⟩
      · exact destroyed.keeps ⟨rfl,rfl,fun _ member => member,fun _ => id,.inl,.inl rfl,rfl,(by simp)⟩

theorem safe_preserved (resumable : service.Resumable) (safe : Safe service data session)
    (accepted : advance service session event = some next) : Safe service data next := by
  rcases advance_moves safe accepted with ⟨fetcher,rfl,moves⟩ | ⟨number,choice,request,_,found,rfl⟩
  · exact safe.client moves
  · exact served_safe resumable safe choice found

theorem runs_safe (resumable : service.Resumable)
    (path : Runs (advance service) (start service data chunkSize) events session) : Safe service data session :=
  path.invariant (initial_safe resumable data chunkSize) fun _ _ _ safe accepted => safe_preserved resumable safe accepted

theorem completions_grow (safe : Safe service data session) (accepted : advance service session event = some next) :
    session.fetcher.completions <+: next.fetcher.completions := by
  rcases advance_moves safe accepted with ⟨fetcher,rfl,moves⟩ | ⟨_,_,_,_,_,rfl⟩
  · exact moves.completions
  · exact List.prefix_refl _

theorem held_before (safe : Safe service data session) (accepted : advance service session event = some next)
    (held : next.fetcher.delegateCompletionHandler = true) : session.fetcher.delegateCompletionHandler = true := by
  rcases advance_moves safe accepted with ⟨fetcher,rfl,moves⟩ | ⟨_,_,_,_,_,rfl⟩
  · exact moves.handler held
  · exact held

theorem final_lasts (resumable : service.Resumable) (safe : Safe service data session)
    (accepted : advance service session event = some next) (final : Final service session) : Final service next := by
  rcases advance_moves safe accepted with ⟨fetcher,rfl,_⟩ | ⟨_,choice,request,_,_,rfl⟩
  · exact final
  · exact resumable.lasts choice request session.server final

-- Whatever is lost, broken off, served late or twice, paused and resumed: no byte is missing, doubled or elsewhere,
-- and nobody is told of a success before the whole upload is stored.
theorem upload_exact (resumable : service.Resumable)
    (path : Runs (advance service) (start service data chunkSize) events session) :
    service.received session.server <+: data ∧
    (service.status session.server = .kStatusFinal → service.received session.server = data) ∧
    session.fetcher.completions.length ≤ 1 ∧
    ∀ body, (body,none) ∈ session.fetcher.completions →
      service.status session.server = .kStatusFinal ∧ service.received session.server = data := by
  have safe := runs_safe resumable path
  refine ⟨safe.front,safe.final,?_,fun body told => ?_⟩
  · have once := safe.fetcher.once
    omega
  · have stored := safe.fetcher.told _ told rfl
    exact ⟨stored,safe.final stored⟩

-- Broken off after two bytes, asked again and finished.
def brokenOff : List (Event (Option Nat)) :=
  [.initialFinished ⟨none,none,⟨some "active",some ⟨"u",some "u"⟩,2,none⟩⟩,.main,.served 0 (some 2)]

def askedAgain : List (Event (Option Nat)) :=
  [.retried 0 true,.finished 0 ⟨none,some ⟨.other "NSURLErrorDomain",-1005,.none⟩,⟨none,none,0,none⟩⟩,
    .served 1 none,.finished 1 ⟨some [],none,⟨some "active",none,2,some 2⟩⟩,.main,
    .served 2 none,.finished 2 ⟨some [123,125],none,⟨some "final",none,2,some 4⟩⟩]

theorem upload_exact_broken : ∃ session, Runs (advance (StoredUpload.service 2))
      (start (StoredUpload.service 2) [1,2,3,4] 8) (brokenOff ++ askedAgain) session ∧
    session.fetcher.completions = [(some [123,125],none)] ∧ session.server = ⟨[1,2,3,4],.kStatusFinal⟩ := by
  have ran : (run (advance (StoredUpload.service 2)) (start (StoredUpload.service 2) [1,2,3,4] 8)
      (brokenOff ++ askedAgain)).map (·.fetcher.completions) = some [(some [123,125],none)] := by decide +kernel
  obtain ⟨session,accepted,told⟩ := Option.map_eq_some_iff.mp ran
  obtain ⟨_,_,_,stored⟩ := upload_exact (StoredUpload.service_resumable 2) (run_exact.mp accepted)
  obtain ⟨final,received⟩ := stored (some [123,125]) (by simp [told])
  refine ⟨session,run_exact.mp accepted,told,?_⟩
  obtain ⟨fetcher,⟨holds,standing⟩,replies⟩ := session
  exact congrArg₂ StoredUpload.mk received final

end CanvasPainter.UploadSession
