import CanvasPainter.UploadSession

namespace CanvasPainter.UploadSession
open TransitionRuns PrefixTransfer GTMSessionUploadFetcher
variable {Server Choice : Type} {service : UploadService Server Choice} {granularity chunkSize : Int} {data : NSData}
  {fetcher : GTMSessionUploadFetcher} {session next : Session Server} {taking stored : Prop}

theorem generateChunkSubdata_fits {offset size : Int} (nonneg : 0 ≤ offset) (length : 0 ≤ size)
    (fits : offset + size ≤ fetcher.uploadData.length) :
    fetcher.generateChunkSubdata offset size = .ok (cut fetcher.uploadData offset.toNat size.toNat).items := by
  unfold generateChunkSubdata
  split
  · rename_i whole
    obtain ⟨rfl,rfl⟩ := whole
    simp [cut]
  · rw [if_neg (by omega),if_neg (by omega)]
    rfl

-- A chunk is never empty before the end, and never goes past it.
theorem thisChunkSize_bounds {offset : Int} (positive : 0 < fetcher.chunkSize) (aligned : Aligned fetcher.uploadGranularity offset)
    (within : offset ≤ fetcher.uploadData.length) : 0 ≤ fetcher.thisChunkSize offset ∧
      offset + fetcher.thisChunkSize offset ≤ fetcher.uploadData.length ∧
      (fetcher.isFinalChunk offset = true → offset + fetcher.thisChunkSize offset = fetcher.uploadData.length) ∧
      (fetcher.isFinalChunk offset = false → 0 < fetcher.thisChunkSize offset) := by
  have header := headerOffset_aligned aligned
  have more := boundedChunkSize_pos positive
  unfold thisChunkSize
  by_cases last : fetcher.isFinalChunk offset = true
  · rw [if_pos last,header]
    simp only [fullUploadLength,last,reduceCtorEq,false_implies,true_implies,and_true]
    omega
  · have middle := last
    rw [if_neg last]
    simp only [isFinalChunk,header,fullUploadLength,Bool.or_eq_true,decide_eq_true_eq,not_or] at middle
    refine ⟨by omega,by omega,fun final => absurd final last,fun _ => more⟩

theorem Good.untold (good : Good granularity data taking stored fetcher) (held : fetcher.delegateCompletionHandler = true) :
    fetcher.completions = [] := by
  have once := good.once
  rw [if_pos held] at once
  exact List.length_eq_zero_iff.mp (by omega)

-- The next chunk is cut where the service stands, and somebody waits for the end.
structure Ready (service : UploadService Server Choice) (data : NSData) (session : Session Server) : Prop where
  safe : Safe service data session
  located : session.fetcher.uploadLocationURL.isSome = true
  held : session.fetcher.delegateCompletionHandler = true
  active : service.status session.server = .kStatusActive
  aligned : Aligned service.granularity (service.received session.server).length
  positive : 0 < session.fetcher.chunkSize
  granular : session.fetcher.uploadGranularity = service.granularity
  queued : ∃ before : GTMSessionUploadFetcher, before.subdata = [] ∧
    session.fetcher = before.uploadNextChunk (service.received session.server).length

structure Done (service : UploadService Server Choice) (data : NSData) (body : Option NSData) (session : Session Server) :
    Prop where
  final : service.status session.server = .kStatusFinal
  received : service.received session.server = data
  told : session.fetcher.completions = [(body,none)]

theorem chunkCommand_upload : fetcher.chunkCommand offset = .upload ↔ fetcher.isFinalChunk offset = false := by
  unfold chunkCommand
  split
  · rename_i last
    split <;> simp [last]
  · rename_i middle
    simpa using middle

-- The reply to the chunk that was begun last.
theorem chunk_answered (fetcher : GTMSessionUploadFetcher) (headers : UploadHeaders) (counted : request.contentLength = some size)
    (command : request.uploadCommand.isChunk = true) (body : Option NSData) :
    (headers.uploadStatus = some "final" → fetcher.fetcherFinished request ⟨body,none,headers⟩ =
      (fetcher.invokeFinalCallback body none true).destroyChunkFetcher) ∧
    (headers.uploadStatus = some "active" → fetcher.fetcherFinished request ⟨body,none,headers⟩ =
      {fetcher with currentOffset := fetcher.currentOffset + size}.destroyChunkFetcher.uploadNextChunk
        (fetcher.currentOffset + size)) := by
  have chunk : fetcher.fetcherFinished request ⟨body,none,headers⟩ = fetcher.chunkFetcherFinished request ⟨body,none,headers⟩ := by
    unfold fetcherFinished
    cases kind : request.uploadCommand with
    | query => simp [kind,UploadCommand.isChunk] at command
    | cancel => simp [kind,UploadCommand.isChunk] at command
    | _ => rfl
  rw [chunk]
  constructor
  · intro final
    simp [chunkFetcherFinished,counted,headers_final.mpr final]
  · intro active
    have status : uploadStatusFromResponseHeaders headers = .kStatusActive := if_pos active
    simp [chunkFetcherFinished,counted,status]

-- Nothing is asked of the fetcher on the way.
def Unprompted (events : List (Event Choice)) : Prop := ∀ event ∈ events, event.prompts = false

theorem Unprompted.append {earlier later : List (Event Choice)} (left : Unprompted earlier) (right : Unprompted later) :
    Unprompted (earlier ++ later) := List.forall_mem_append.mpr ⟨left,right⟩

-- A request that was sent is served, and its answer comes back.
theorem answered (session : Session Server) (sent : session.sent number = some request) (waiting : number ∈ session.fetcher.fetching)
    (serves : service.serve choice request session.server = (server,some headers)) (body : Option NSData) :
    Runs (advance service) session [.served number choice,.finished number ⟨body,none,headers⟩]
      ⟨{session.fetcher with fetching := session.fetcher.fetching.erase number}.fetcherFinished request ⟨body,none,headers⟩,
        server,session.replies ++ [(number,headers)]⟩ := by
  obtain ⟨found,_⟩ := Option.filter_eq_some_iff.mp sent
  have served : session.serve service number choice request =
      ⟨session.fetcher,server,session.replies ++ [(number,headers)]⟩ := by
    simp only [Session.serve,serves]
    rfl
  have serving : advance service session (.served number choice) =
      some ⟨session.fetcher,server,session.replies ++ [(number,headers)]⟩ := by
    rw [advance,sent,← served]
    rfl
  have finishing : advance service ⟨session.fetcher,server,session.replies ++ [(number,headers)]⟩
      (.finished number ⟨body,none,headers⟩) = some ⟨{session.fetcher with
        fetching := session.fetcher.fetching.erase number}.fetcherFinished request ⟨body,none,headers⟩,
          server,session.replies ++ [(number,headers)]⟩ := by
    have replied : (number,headers) ∈ session.replies ++ [(number,headers)] := List.mem_append_right _ List.mem_cons_self
    simp only [advance,found,waiting,replied,true_and,implies_true,if_true]
    rfl
  exact .cons serving (.cons finishing .nil)

-- Cut, begun, served and answered: the upload is done, or ready for the next chunk further on.
theorem one_chunk (resumable : service.Resumable) (responsive : service.Responsive) (ready : Ready service data session)
    (body : Option NSData) : ∃ events next, Runs (advance service) session events next ∧ Unprompted events ∧
      (Done service data body next ∨ Ready service data next ∧
        (service.received session.server).length < (service.received next.server).length) := by
  obtain ⟨safe,located,held,active,aligned,positive,granular,before,empty,same⟩ := ready
  obtain ⟨fetcher,server,replies⟩ := session
  obtain rfl : fetcher = before.uploadNextChunk (service.received server).length := same
  change service.status server = .kStatusActive at active
  change Aligned service.granularity (service.received server).length at aligned
  change before.delegateCompletionHandler = true at held
  change before.uploadGranularity = service.granularity at granular
  have source : before.uploadData = data := safe.fetcher.source
  have stands : Aligned before.uploadGranularity (service.received server).length := by rwa [granular]
  have within : ((service.received server).length : Int) ≤ before.uploadData.length := by
    have shorter := safe.front.length_le
    rw [source]
    exact Int.ofNat_le.mpr shorter
  obtain ⟨nonneg,fits,last,middle⟩ := thisChunkSize_bounds (show 0 < before.chunkSize from positive) stands within
  have generated := generateChunkSubdata_fits (Int.natCast_nonneg _) nonneg fits
  let chunkData := (cut before.uploadData ((service.received server).length : Int).toNat
    (before.thisChunkSize (service.received server).length).toNat).items
  let request : ChunkRequest := {before.updateChunkFetcher (service.received server).length with bodyData := chunkData}
  let fetched := ({before with subdata := []} : GTMSessionUploadFetcher).beginChunkFetcher request
    (service.received server).length
  have cutting : advance service ⟨before.uploadNextChunk (service.received server).length,server,replies⟩ .main =
      some ⟨fetched,server,replies⟩ := by
    simp only [advance,uploadNextChunk,empty,List.nil_append,chunkSubdataGenerated,generated,Session.client]
    rfl
  have begun := safe_preserved resumable safe cutting
  have chunk : request.uploadCommand.isChunk = true := chunkCommand_chunk
  have found : fetched.begun[before.begun.length]? = some request := List.getElem?_concat_length
  have sent : Session.sent ⟨fetched,server,replies⟩ before.begun.length = some request := by
    simp only [Session.sent,found]
    exact Option.filter_eq_some_iff.mpr ⟨rfl,located⟩
  have continues : service.Continues request server := by
    refine ⟨chunk,by simp [active],?_⟩
    simp [request,updateChunkFetcher,headerOffset_aligned stands]
  have honest := begun.fetcher.begun request (List.mem_of_getElem? found)
  have carries := (continues_honest honest continues).2
  obtain ⟨choice,after,headers,serves,received,going⟩ := responsive.chunk request server active continues
  have waiting : before.begun.length ∈ fetched.fetching := List.mem_append_right _ List.mem_cons_self
  have path := answered ⟨fetched,server,replies⟩ sent waiting serves body
  have kept := path.invariant begun fun _ _ _ safe accepted => safe_preserved resumable safe accepted
  have answer := resumable.answers choice request server headers (by rw [serves])
  rw [serves] at answer
  refine ⟨_,_,.cons cutting path,by simp [Unprompted,Event.prompts],?_⟩
  let rest : GTMSessionUploadFetcher := {fetched with fetching := fetched.fetching.erase before.begun.length}
  obtain ⟨closing,further⟩ : _ ∧ _ := chunk_answered rest headers carries.counted chunk body
  cases lastChunk : before.isFinalChunk (service.received server).length with
  | true =>
      have finalizes : request.uploadCommand.finalizes = true := chunkCommand_finalizes.trans lastChunk
      have final := answer.finalized finalizes
      have untold : before.completions = [] := safe.fetcher.untold held
      refine .inl ⟨answer.final final,kept.final (answer.final final),?_⟩
      change (rest.fetcherFinished request ⟨body,none,headers⟩).completions = _
      rw [closing final]
      change (if before.delegateCompletionHandler then before.completions ++ [(body,none)] else before.completions) = _
      rw [if_pos held,untold,List.nil_append]
  | false =>
      have part : request.uploadCommand = .upload := chunkCommand_upload.mpr lastChunk
      obtain ⟨still,open'⟩ := going part
      have grown : (service.received after).length = (service.received server).length + request.bodyData.length := by
        rw [received,List.length_append]
      have size : (request.bodyData.length : Int) = before.thisChunkSize (service.received server).length :=
        (Option.some.inj carries.counted).symm
      have more := middle lastChunk
      have place : ((service.received server).length : Int) + request.bodyData.length = (service.received after).length := by
        rw [grown,Int.natCast_add]
      have next : rest.fetcherFinished request ⟨body,none,headers⟩ =
          {rest with currentOffset := (service.received after).length}.destroyChunkFetcher.uploadNextChunk
            (service.received after).length := by
        rw [further open',← place]
        rfl
      have onward : Aligned service.granularity (service.received after).length := by
        rw [← place]
        exact aligned.add (carries.part (chunkCommand_finalizes.trans lastChunk))
      change Safe service data ⟨rest.fetcherFinished request ⟨body,none,headers⟩,after,_⟩ at kept
      change _ ∨ Ready service data ⟨rest.fetcherFinished request ⟨body,none,headers⟩,after,_⟩ ∧ _
      rw [next] at kept ⊢
      refine .inr ⟨⟨kept,located,held,still,onward,positive,granular,_,rfl,rfl⟩,?_⟩
      change (service.received server).length < (service.received after).length
      omega

theorem ready_finishes (resumable : service.Resumable) (responsive : service.Responsive) (ready : Ready service data session)
    (body : Option NSData) :
    ∃ events next, Runs (advance service) session events next ∧ Unprompted events ∧ Done service data body next := by
  -- On the bytes the service still lacks.
  induction lacking : data.length - (service.received session.server).length using Nat.strong_induction_on
    generalizing session with
  | h lack ih =>
      obtain ⟨events,next,path,unprompted,done | ⟨again,grown⟩⟩ := one_chunk resumable responsive ready body
      · exact ⟨events,next,path,unprompted,done⟩
      · have within := again.safe.front.length_le
        obtain ⟨later,after,rest,still,done⟩ := ih _ (by omega) again rfl
        exact ⟨_,after,path.append rest,unprompted.append still,done⟩

theorem query_answered (headers : UploadHeaders) (query : request.uploadCommand = .query) (status : headers.uploadStatus = some "active")
    (size : headers.sizeReceived = some offset) (lacking : offset < fetcher.fullUploadLength) :
    fetcher.fetcherFinished request ⟨none,none,headers⟩ =
      (fetcher.retrieveUploadChunkGranularity headers).uploadNextChunk offset := by
  have active : uploadStatusFromResponseHeaders headers = .kStatusActive := if_pos status
  have more : ¬offset ≥ fetcher.fullUploadLength := by omega
  simp [fetcherFinished,query,queryFetcherFinished,active,size,more]

-- A session whose upload is located and not yet stored, as a lost connection leaves it, with whole granules stored.
structure Unfinished (service : UploadService Server Choice) (data : NSData) (session : Session Server) : Prop where
  located : session.fetcher.uploadLocationURL.isSome = true
  held : session.fetcher.delegateCompletionHandler = true
  positive : 0 < session.fetcher.chunkSize
  drained : session.fetcher.subdata = []
  active : service.status session.server = .kStatusActive
  aligned : Aligned service.granularity (service.received session.server).length
  lacking : (service.received session.server).length < data.length

instance : Decidable (Unfinished service data session) :=
  decidable_of_iff (session.fetcher.uploadLocationURL.isSome = true ∧ session.fetcher.delegateCompletionHandler = true ∧
      0 < session.fetcher.chunkSize ∧ session.fetcher.subdata.isEmpty = true ∧
      service.status session.server = .kStatusActive ∧
      Aligned service.granularity (service.received session.server).length ∧
      (service.received session.server).length < data.length)
    ⟨fun ⟨located,held,positive,drained,active,aligned,lacking⟩ =>
        ⟨located,held,positive,List.isEmpty_iff.mp drained,active,aligned,lacking⟩,
      fun ⟨located,held,positive,drained,active,aligned,lacking⟩ =>
        ⟨located,held,positive,List.isEmpty_iff.mpr drained,active,aligned,lacking⟩⟩

-- Paused, resumed, asked and answered: the next chunk is cut where the service stands.
theorem resumes (resumable : service.Resumable) (responsive : service.Responsive) (safe : Safe service data session)
    (unfinished : Unfinished service data session) :
    ∃ events next, Runs (advance service) session (.pauseFetching :: .resumeFetching :: events) next ∧
      Unprompted events ∧ Ready service data next := by
  obtain ⟨located,held,positive,drained,active,aligned,lacking⟩ := unfinished
  obtain ⟨fetcher,server,replies⟩ := session
  change service.status server = .kStatusActive at active
  let query : ChunkRequest := ⟨fetcher.uploadLocationURL,.query,none,none,[]⟩
  let paused := fetcher.pauseFetching
  let asking := ({paused with isPaused := false} : GTMSessionUploadFetcher).sendQueryForUploadOffset
  have pausing : advance service ⟨fetcher,server,replies⟩ .pauseFetching = some ⟨paused,server,replies⟩ := rfl
  have resuming : advance service ⟨paused,server,replies⟩ .resumeFetching = some ⟨asking,server,replies⟩ := rfl
  have asked := safe_preserved resumable (safe_preserved resumable safe pausing) resuming
  have found : asking.begun[fetcher.begun.length]? = some query := List.getElem?_concat_length
  have sent : Session.sent ⟨asking,server,replies⟩ fetcher.begun.length = some query := by
    simp only [Session.sent,found]
    exact Option.filter_eq_some_iff.mpr ⟨rfl,located⟩
  obtain ⟨choice,after,headers,serves,still,received,going,size⟩ := responsive.query query server rfl active
  have waiting : fetcher.begun.length ∈ asking.fetching := List.mem_append_right _ List.mem_cons_self
  have path := answered ⟨asking,server,replies⟩ sent waiting serves none
  have kept := path.invariant asked fun _ _ _ safe accepted => safe_preserved resumable safe accepted
  have answer := resumable.answers choice query server headers (by rw [serves])
  refine ⟨_,_,.cons pausing (.cons resuming path),by simp [Unprompted,Event.prompts],?_⟩
  let rest : GTMSessionUploadFetcher := {asking with fetching := asking.fetching.erase fetcher.begun.length}
  have more : ((service.received server).length : Int) < rest.fullUploadLength := by
    have source : rest.uploadData = data := safe.fetcher.source
    rw [fullUploadLength,source]
    exact Int.ofNat_lt.mpr lacking
  have next : rest.fetcherFinished query ⟨none,none,headers⟩ =
      (rest.retrieveUploadChunkGranularity headers).uploadNextChunk (service.received after).length := by
    rw [query_answered headers rfl going size more,received]
  change Safe service data ⟨rest.fetcherFinished query ⟨none,none,headers⟩,after,_⟩ at kept
  change Ready service data ⟨rest.fetcherFinished query ⟨none,none,headers⟩,after,_⟩
  rw [next] at kept ⊢
  refine ⟨kept,located,held,still,?_,positive,answer.granular rfl,rest.retrieveUploadChunkGranularity headers,drained,rfl⟩
  rwa [received]

theorem safe_resumable (resumable : service.Resumable) (responsive : service.Responsive) (safe : Safe service data session)
    (unfinished : Unfinished service data session) (body : Option NSData) :
    ∃ later next, Runs (advance service) session (.pauseFetching :: .resumeFetching :: later) next ∧
      Unprompted later ∧ Done service data body next := by
  obtain ⟨asked,ready,resumed,unprompted,waits⟩ := resumes resumable responsive safe unfinished
  obtain ⟨later,next,rest,still,done⟩ := ready_finishes resumable responsive waits body
  exact ⟨asked ++ later,next,resumed.append rest,unprompted.append still,done⟩

-- Whatever has happened to an upload that is not stored yet, pausing and resuming it can still bring it to its end.
theorem upload_resumable (resumable : service.Resumable) (responsive : service.Responsive)
    (path : Runs (advance service) (start service data chunkSize) events session)
    (unfinished : Unfinished service data session) (body : Option NSData) : ∃ later next,
      Runs (advance service) session (.pauseFetching :: .resumeFetching :: later) next ∧ Unprompted later ∧
        Done service data body next := safe_resumable resumable responsive (runs_safe resumable path) unfinished body

theorem upload_resumable_broken : let service := StoredUpload.service 2
    ∃ session later next, Runs (advance service) (start service [1,2,3,4] 8) brokenOff session ∧
      session.server.received = [1,2] ∧ Runs (advance service) session (.pauseFetching :: .resumeFetching :: later) next ∧
      Done service [1,2,3,4] (some [123,125]) next := by
  intro service
  have ran : (run (advance service) (start service [1,2,3,4] 8) brokenOff).any
      (fun session => session.server.received = [1,2] ∧ Unfinished service [1,2,3,4] session) := by decide +kernel
  obtain ⟨session,accepted,facts⟩ := Option.any_eq_true _ _ |>.mp ran
  obtain ⟨received,unfinished⟩ := of_decide_eq_true facts
  obtain ⟨later,next,resumed,_,done⟩ := upload_resumable (StoredUpload.service_resumable 2)
    (StoredUpload.service_responsive 2) (run_exact.mp accepted) unfinished (some [123,125])
  exact ⟨session,later,next,run_exact.mp accepted,received,resumed,done⟩

end CanvasPainter.UploadSession
