import CanvasPainter.PrefixTransfer
import CanvasPainter.TransitionRuns
import CanvasPainter.UploadFetcher

namespace CanvasPainter.UploadSession
open TransitionRuns PrefixTransfer GTMSessionUploadFetcher
variable {granularity chunkSize : Int} {data : NSData} {fetcher : GTMSessionUploadFetcher}
  {taking stored more less : Prop}

-- What a chunk carries is what the upload has at the offset it names.
structure HonestChunk (granularity : Int) (data : NSData) (request : ChunkRequest) (offset : Nat) : Prop where
  truthful : Truthful data ⟨offset,request.bodyData⟩
  counted : request.contentLength = some (request.bodyData.length : Int)
  within : offset + request.bodyData.length ≤ data.length
  part : request.uploadCommand.finalizes = false → Aligned granularity request.bodyData.length
  final : request.uploadCommand.finalizes = true → offset + request.bodyData.length = data.length

-- `taking` is whether the service takes chunks still: what it has is a whole number of granules, and not the end.
-- The offset a chunk names is such a number in any case, what it carries is from there only as long as that lasts.
def Honest (granularity : Int) (data : NSData) (taking : Prop) (request : ChunkRequest) : Prop :=
  if request.uploadCommand.isChunk then ∃ offset : Nat, request.uploadOffset = some (offset : Int) ∧
    Aligned granularity offset ∧ (taking → HonestChunk granularity data request offset)
  else request.contentLength = none

def HonestSubdata (granularity : Int) (data : NSData) (taking : Prop) (response : SubdataResponse) : Prop :=
  (taking → 0 ≤ response.offset ∧ Aligned granularity response.offset) ∧ ∀ chunkData, response.chunkData = .ok chunkData →
    Honest granularity data taking {response.request with bodyData := chunkData}

theorem Honest.mono (honest : Honest granularity data more request) (fewer : less → more) :
    Honest granularity data less request := by
  unfold Honest at honest ⊢
  split
  · rename_i chunk
    rw [if_pos chunk] at honest
    obtain ⟨offset,named,aligned,carries⟩ := honest
    exact ⟨offset,named,aligned,fun still => carries (fewer still)⟩
  · rename_i plain
    rwa [if_neg plain] at honest

theorem chunkCommand_chunk : (fetcher.chunkCommand offset).isChunk = true := by
  unfold chunkCommand
  split
  · split <;> rfl
  · rfl

theorem chunkCommand_finalizes : (fetcher.chunkCommand offset).finalizes = fetcher.isFinalChunk offset := by
  unfold chunkCommand
  split
  · rename_i last
    split <;> exact last.symm
  · rename_i middle
    exact (Bool.eq_false_iff.mpr middle).symm

theorem chunk_honest (aligned : taking → Aligned fetcher.uploadGranularity offset)
    (generated : fetcher.generateChunkSubdata offset (fetcher.thisChunkSize offset) = .ok chunkData) :
    Honest fetcher.uploadGranularity fetcher.uploadData taking
      {fetcher.updateChunkFetcher offset with bodyData := chunkData} := by
  obtain ⟨nonneg,length,fits,rfl⟩ := generateChunkSubdata_ok generated
  obtain ⟨least,whole⟩ := headerOffset_bounds fetcher nonneg
  have size : (cut fetcher.uploadData offset.toNat (fetcher.thisChunkSize offset).toNat).items.length =
      (fetcher.thisChunkSize offset).toNat := cut_length (by omega)
  have counted : ((cut fetcher.uploadData offset.toNat (fetcher.thisChunkSize offset).toNat).items.length : Int) =
      fetcher.thisChunkSize offset := by rw [size,Int.toNat_of_nonneg length]
  refine (if_pos chunkCommand_chunk).mpr ⟨(fetcher.headerOffset offset).toNat,?_,?_,fun still => ?_⟩
  · simp [updateChunkFetcher,Int.toNat_of_nonneg least]
  · rwa [Int.toNat_of_nonneg least]
  · have header := headerOffset_aligned (aligned still)
    rw [header]
    refine ⟨cut_truthful,congrArg some counted.symm,?_,?_,?_⟩
    · simp only [size]
      omega
    · intro part
      simp only [updateChunkFetcher,chunkCommand_finalizes] at part
      rw [counted,thisChunkSize,if_neg (by simp [part])]
      exact boundedChunkSize_aligned
    · intro last
      simp only [updateChunkFetcher,chunkCommand_finalizes] at last
      have rest : fetcher.thisChunkSize offset = fetcher.uploadData.length - offset := by
        rw [thisChunkSize,if_pos last,header,fullUploadLength]
      simp only [size]
      omega

-- Some URL to write to is known, or was when a request or a subdata response was made.
def Located (fetcher : GTMSessionUploadFetcher) : Prop :=
  fetcher.uploadLocationURL.isSome = true ∨ (∃ request ∈ fetcher.begun, request.url.isSome = true) ∨
    ∃ response ∈ fetcher.subdata, response.request.url.isSome = true

-- `stored` is whether the service has the whole upload.
structure Good (granularity : Int) (data : NSData) (taking stored : Prop) (fetcher : GTMSessionUploadFetcher) : Prop where
  source : fetcher.uploadData = data
  begun : ∀ request ∈ fetcher.begun, Honest granularity data taking request
  subdata : ∀ response ∈ fetcher.subdata, HonestSubdata granularity data taking response
  offset : taking → 0 ≤ fetcher.currentOffset ∧ Aligned granularity fetcher.currentOffset
  located : Located fetcher → fetcher.uploadGranularity = granularity
  told : ∀ entry ∈ fetcher.completions, entry.2 = none → stored
  once : fetcher.completions.length + (if fetcher.delegateCompletionHandler then 1 else 0) ≤ 1

theorem initial_good (data : NSData) (chunkSize : Int) (taking stored : Prop) :
    Good granularity data taking stored (beginFetch data chunkSize) := by
  refine ⟨rfl,by simp [beginFetch],by simp [beginFetch],fun _ => ⟨Int.le_refl _,.zero⟩,?_,by simp [beginFetch],by simp [beginFetch]⟩
  intro located
  simp [Located,beginFetch] at located

theorem Good.mono (good : Good granularity data more stored fetcher) (fewer : taking → more)
    (later : stored → less) : Good granularity data taking less fetcher := by
  refine ⟨good.source,fun request member => (good.begun request member).mono fewer,fun response member => ?_,
    fun still => good.offset (fewer still),good.located,fun entry member quiet => later (good.told entry member quiet),good.once⟩
  obtain ⟨place,carries⟩ := good.subdata response member
  exact ⟨fun still => place (fewer still),fun chunkData generated => (carries chunkData generated).mono fewer⟩

-- Changes that begin no fetch, cut no chunk and tell nobody.
structure Keeps (granularity : Int) (taking : Prop) (before after : GTMSessionUploadFetcher) : Prop where
  source : after.uploadData = before.uploadData
  begun : after.begun = before.begun
  subdata : after.subdata ⊆ before.subdata
  offset : taking → 0 ≤ before.currentOffset ∧ Aligned granularity before.currentOffset →
    0 ≤ after.currentOffset ∧ Aligned granularity after.currentOffset
  location : after.uploadLocationURL.isSome = true → before.uploadLocationURL.isSome = true ∨ after.uploadGranularity = granularity
  granular : after.uploadGranularity = before.uploadGranularity ∨ after.uploadGranularity = granularity
  completions : after.completions = before.completions
  handler : after.delegateCompletionHandler = true → before.delegateCompletionHandler = true

-- Everything the upload fetcher can do when it is called.
inductive Moves (granularity : Int) (taking stored : Prop) (before : GTMSessionUploadFetcher) : GTMSessionUploadFetcher → Prop where
  | none : Moves granularity taking stored before before
  | keeps : Moves granularity taking stored before middle → Keeps granularity taking middle after →
      Moves granularity taking stored before after
  | begins : Moves granularity taking stored before middle → Honest granularity middle.uploadData taking request →
      (request.url.isSome = true → middle.uploadGranularity = granularity) →
      Moves granularity taking stored before (middle.begin request)
  | cuts : Moves granularity taking stored before middle → middle.uploadGranularity = granularity →
      (taking → 0 ≤ offset ∧ Aligned granularity offset) → Moves granularity taking stored before (middle.uploadNextChunk offset)
  | tells : Moves granularity taking stored before middle → (error = none → stored) →
      Moves granularity taking stored before (middle.invokeFinalCallback body error shouldInvalidateLocation)

variable {before middle after : GTMSessionUploadFetcher}

theorem Good.keeps (good : Good granularity data taking stored before) (keeps : Keeps granularity taking before after) :
    Good granularity data taking stored after := by
  obtain ⟨source,begun,subdata,offset,located,told,once⟩ := good
  refine ⟨keeps.source.trans source,by rwa [keeps.begun],?_,fun still => keeps.offset still (offset still),?_,
    by rwa [keeps.completions],?_⟩
  · exact fun response member => subdata response (keeps.subdata member)
  · intro here
    have known : Located before ∨ after.uploadGranularity = granularity := by
      rcases here with location | ⟨request,member,url⟩ | ⟨response,member,url⟩
      · exact (keeps.location location).imp_left .inl
      · rw [keeps.begun] at member
        exact .inl (.inr (.inl ⟨request,member,url⟩))
      · exact .inl (.inr (.inr ⟨response,keeps.subdata member,url⟩))
    rcases known with earlier | now
    · exact keeps.granular.elim (fun same => same.trans (located earlier)) id
    · exact now
  · rw [keeps.completions]
    by_cases held : after.delegateCompletionHandler = true
    · rw [if_pos held]
      rwa [if_pos (keeps.handler held)] at once
    · rw [if_neg held]
      omega

theorem Good.begins (good : Good granularity data taking stored fetcher) (honest : Honest granularity fetcher.uploadData taking request)
    (reaches : request.url.isSome = true → fetcher.uploadGranularity = granularity) :
    Good granularity data taking stored (fetcher.begin request) := by
  obtain ⟨source,begun,subdata,offset,located,told,once⟩ := good
  rw [source] at honest
  refine ⟨source,snoc_all begun honest,subdata,offset,?_,told,once⟩
  intro here
  rcases here with location | ⟨other,member,url⟩ | waiting
  · exact located (.inl location)
  · rcases List.mem_append.mp member with old | new
    · exact located (.inr (.inl ⟨other,old,url⟩))
    · cases List.mem_singleton.mp new
      exact reaches url
  · exact located (.inr (.inr waiting))

theorem Good.cuts (good : Good granularity data taking stored fetcher) (granular : fetcher.uploadGranularity = granularity)
    (aligned : taking → 0 ≤ place ∧ Aligned granularity place) :
    Good granularity data taking stored (fetcher.uploadNextChunk place) := by
  obtain ⟨source,begun,subdata,current,_,told,once⟩ := good
  refine ⟨source,begun,snoc_all subdata ⟨aligned,?_⟩,current,fun _ => granular,told,once⟩
  subst granular source
  exact fun chunkData generated => chunk_honest (fun still => (aligned still).2) generated

theorem Good.tells (good : Good granularity data taking stored fetcher) (quiet : error = none → stored) :
    Good granularity data taking stored (fetcher.invokeFinalCallback body error shouldInvalidateLocation) := by
  obtain ⟨source,begun,subdata,offset,located,told,once⟩ := good
  refine ⟨source,begun,subdata,offset,?_,?_,?_⟩
  · rintro (location | rest)
    · refine located (.inl ?_)
      cases shouldInvalidateLocation with
      | false => exact location
      | true => cases location
    · exact located (.inr rest)
  · simp only [invokeFinalCallback]
    split
    · exact snoc_all told quiet
    · exact told
  · simp only [invokeFinalCallback]
    split
    · rename_i held
      rw [if_pos held] at once
      simp only [List.length_append,List.length_singleton]
      simpa using once
    · rename_i gone
      rw [if_neg gone] at once
      simpa using once

theorem Moves.good (moves : Moves granularity taking stored before after) (good : Good granularity data taking stored before) :
    Good granularity data taking stored after := by
  induction moves with
  | none => exact good
  | keeps _ keeps ih => exact ih.keeps keeps
  | begins _ honest reaches ih => exact ih.begins honest reaches
  | cuts _ granular aligned ih => exact ih.cuts granular aligned
  | tells _ quiet ih => exact ih.tells quiet

theorem Moves.begun (moves : Moves granularity taking stored before after) : before.begun <+: after.begun := by
  induction moves with
  | none => exact List.prefix_refl _
  | keeps _ keeps ih => rwa [keeps.begun]
  | begins _ _ _ ih => exact ih.trans (List.prefix_append _ _)
  | cuts _ _ _ ih => exact ih
  | tells _ _ ih => exact ih

theorem Moves.completions (moves : Moves granularity taking stored before after) : before.completions <+: after.completions := by
  induction moves with
  | none => exact List.prefix_refl _
  | keeps _ keeps ih => rwa [keeps.completions]
  | begins _ _ _ ih => exact ih
  | cuts _ _ _ ih => exact ih
  | tells _ _ ih =>
      simp only [invokeFinalCallback]
      split
      · exact ih.trans (List.prefix_append _ _)
      · exact ih

-- The handler that was let go does not come back.
theorem Moves.handler (moves : Moves granularity taking stored before after) (held : after.delegateCompletionHandler = true) :
    before.delegateCompletionHandler = true := by
  induction moves with
  | none => exact held
  | keeps _ keeps ih => exact ih (keeps.handler held)
  | begins _ _ _ ih => exact ih held
  | cuts _ _ _ ih => exact ih held
  | tells _ _ _ => cases held

theorem Moves.trans (first : Moves granularity taking stored before middle) (second : Moves granularity taking stored middle after) :
    Moves granularity taking stored before after := by
  induction second with
  | none => exact first
  | keeps _ keeps ih => exact ih.keeps keeps
  | begins _ honest reaches ih => exact ih.begins honest reaches
  | cuts _ granular aligned ih => exact ih.cuts granular aligned
  | tells _ quiet ih => exact ih.tells quiet

theorem keeps_flags (fetcher : GTMSessionUploadFetcher) (isPaused shouldInitiateOffsetQuery initialFetch : Bool)
    (chunkFetcher : Option Nat) (fetching : List Nat) : Keeps granularity taking fetcher {fetcher with
      isPaused := isPaused
      shouldInitiateOffsetQuery := shouldInitiateOffsetQuery
      initialFetch := initialFetch
      chunkFetcher := chunkFetcher
      fetching := fetching} :=
  ⟨rfl,rfl,fun _ member => member,fun _ => id,.inl,.inl rfl,rfl,id⟩

theorem Moves.destroys (moves : Moves granularity taking stored before middle) :
    Moves granularity taking stored before middle.destroyChunkFetcher := moves.keeps (keeps_flags middle _ _ _ _ _)

theorem Moves.asks (good : Good granularity data taking stored before) (moves : Moves granularity taking stored before middle) :
    Moves granularity taking stored before middle.sendQueryForUploadOffset ∧
      Moves granularity taking stored before middle.sendCancelUpload := by
  have reaches : middle.uploadLocationURL.isSome = true → middle.uploadGranularity = granularity :=
    fun location => (moves.good good).located (.inl location)
  exact ⟨moves.begins rfl reaches,moves.begins rfl reaches⟩

theorem chunkSubdataGenerated_moves (good : Good granularity data taking stored fetcher) (front : fetcher.subdata = response :: rest) :
    Moves granularity taking stored fetcher ({fetcher with subdata := rest}.chunkSubdataGenerated response) := by
  have taken : Keeps granularity taking fetcher {fetcher with subdata := rest} := by
    refine ⟨rfl,rfl,?_,fun _ => id,.inl,.inl rfl,rfl,id⟩
    rw [front]
    exact List.subset_cons_self response rest
  have first : Moves granularity taking stored fetcher {fetcher with subdata := rest} := Moves.none.keeps taken
  have member : response ∈ fetcher.subdata := by simp [front]
  obtain ⟨place,honest⟩ := good.subdata response member
  unfold chunkSubdataGenerated
  split
  · rename_i chunkData generated
    have truthful := honest chunkData generated
    rw [← good.source] at truthful
    have reaches : response.request.url.isSome = true → fetcher.uploadGranularity = granularity :=
      fun url => good.located (.inr (.inr ⟨response,member,url⟩))
    exact (first.begins truthful reaches).keeps
      ⟨rfl,rfl,fun _ member => member,fun still _ => place still,.inl,.inl rfl,rfl,id⟩
  · exact first.tells (by simp)

theorem initialFetchFinished_moves
    (granular : result.error = none → result.responseHeaders.chunkGranularity = granularity) :
    Moves granularity taking stored fetcher (fetcher.initialFetchFinished result) := by
  unfold initialFetchFinished
  split
  · rename_i quiet
    have same := granular quiet
    have retrieved : Moves granularity taking stored fetcher (fetcher.retrieveUploadChunkGranularity result.responseHeaders) :=
      Moves.none.keeps ⟨rfl,rfl,fun _ member => member,fun _ => id,.inl,.inr same,rfl,id⟩
    simp only [beginChunkFetches]
    split
    · exact retrieved.tells (by simp)
    · have located : Moves granularity taking stored fetcher {fetcher.retrieveUploadChunkGranularity result.responseHeaders with
          uploadLocationURL := result.responseHeaders.uploadURL.bind (·.url)} :=
        retrieved.keeps ⟨rfl,rfl,fun _ member => member,fun _ => id,fun _ => .inr same,.inl rfl,rfl,id⟩
      split
      · exact located
      · exact located.cuts same fun _ => ⟨Int.le_refl _,.zero⟩
  · exact Moves.none.tells (by simp)

theorem retryBlock_keeps (fetcher : GTMSessionUploadFetcher) (isQueryFetch shouldRetry : Bool) :
    Keeps granularity taking fetcher (fetcher.retryBlock isQueryFetch shouldRetry) := by
  unfold retryBlock
  split
  · exact ⟨rfl,rfl,fun _ member => member,fun _ _ => ⟨Int.le_refl _,.zero⟩,.inl,.inl rfl,rfl,id⟩
  · exact keeps_flags fetcher _ _ _ _ _

-- What a result without an error says can be relied on.
structure FairResult (granularity : Int) (taking stored : Prop) (fetcher : GTMSessionUploadFetcher) (headers : UploadHeaders)
    (length : Int) : Prop where
  final : uploadStatusFromResponseHeaders headers = .kStatusFinal → stored
  granular : fetcher.uploadGranularity = granularity
  length : taking → uploadStatusFromResponseHeaders headers ≠ .kStatusFinal →
    0 ≤ length ∧ Aligned granularity length

theorem chunkFetcherFinished_moves (good : Good granularity data taking stored fetcher)
    (fair : result.error = none → FairResult granularity taking stored fetcher result.responseHeaders (request.contentLength.getD 0)) :
    Moves granularity taking stored fetcher (fetcher.chunkFetcherFinished request result) := by
  simp only [chunkFetcherFinished]
  split
  · rename_i failed
    split
    · have again : Moves granularity taking stored fetcher {fetcher with shouldInitiateOffsetQuery := false} :=
        Moves.none.keeps (keeps_flags fetcher _ _ _ _ _)
      exact (Moves.asks good again.destroys).1
    · rename_i given
      refine (Moves.none.tells fun quiet => ?_).destroys
      have lost := failed.resolve_left (by simp [quiet])
      exact absurd (.inr (.inl lost)) given
  · rename_i finished
    have quiet : result.error = none := by
      simp only [not_or] at finished
      simpa using finished.1
    obtain ⟨final,granular,length⟩ := fair quiet
    split
    · rename_i stopped
      split
      · exact (Moves.none.tells (by simp)).destroys
      · rename_i going
        exact (Moves.none.tells fun _ => final (stopped.resolve_right going)).destroys
    · rename_i going
      have next : taking → 0 ≤ fetcher.currentOffset + request.contentLength.getD 0 ∧
          Aligned granularity (fetcher.currentOffset + request.contentLength.getD 0) := by
        intro still
        obtain ⟨nonneg,aligned⟩ := length still (not_or.mp going).1
        exact ⟨Int.add_nonneg (good.offset still).1 nonneg,(good.offset still).2.add aligned⟩
      have moved : Moves granularity taking stored fetcher
          {fetcher with currentOffset := fetcher.currentOffset + request.contentLength.getD 0} :=
        Moves.none.keeps ⟨rfl,rfl,fun _ member => member,fun still _ => next still,.inl,.inl rfl,rfl,id⟩
      exact moved.destroys.cuts granular next

theorem queryFetcherFinished_moves (good : Good granularity data taking stored fetcher) (query : request.contentLength = none)
    (retrieves : result.error = none → result.responseHeaders.chunkGranularity = granularity)
    (fair : result.error = none →
      FairResult granularity taking stored fetcher result.responseHeaders (result.responseHeaders.sizeReceived.getD 0)) :
    Moves granularity taking stored fetcher (fetcher.queryFetcherFinished request result) := by
  simp only [queryFetcherFinished]
  split
  · rename_i failed
    exact chunkFetcherFinished_moves good fun quiet => absurd failed (by simp [quiet])
  · rename_i finished
    have quiet : result.error = none := by simpa using finished
    obtain ⟨final,granular,length⟩ := fair quiet
    split
    · exact chunkFetcherFinished_moves good fun quiet => by cases quiet
    · rename_i answered
      split
      · refine chunkFetcherFinished_moves good fun _ => ⟨final,granular,fun _ _ => ?_⟩
        rw [query]
        exact ⟨Int.le_refl _,.zero⟩
      · rename_i less
        have same := retrieves quiet
        have retrieved : Moves granularity taking stored fetcher (fetcher.retrieveUploadChunkGranularity result.responseHeaders) :=
          Moves.none.keeps ⟨rfl,rfl,fun _ member => member,fun _ => id,.inl,.inr same,rfl,id⟩
        exact retrieved.cuts same fun still => length still fun here => less (.inl here)

end CanvasPainter.UploadSession
