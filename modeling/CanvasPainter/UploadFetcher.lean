import CanvasPainter.PrefixTransfer

namespace CanvasPainter

abbrev NSData := List UInt8

inductive NSErrorDomain where
  | fetcher
  | status
  | other (name : String)
  deriving DecidableEq, Repr

-- `exception` is Foundation's own description of a range that does not fit.
inductive UserInfo where
  | none
  | statusData (data : NSData)
  | description (text : String)
  | exception
  deriving DecidableEq, Repr

structure NSError where
  domain : NSErrorDomain
  code : Int
  userInfo : UserInfo
  deriving DecidableEq, Repr

inductive GTMSessionUploadFetcherStatus where
  | kStatusUnknown
  | kStatusActive
  | kStatusFinal
  | kStatusCancelled
  deriving DecidableEq, Repr

-- What a header says and the URL it is, if it is one: URLWithString gives nil for other text.
structure URLText where
  string : String
  url : Option String
  deriving DecidableEq, Repr

-- The upload headers of a response; a missing granularity reads as 0.
structure UploadHeaders where
  uploadStatus : Option String
  uploadURL : Option URLText
  chunkGranularity : Int
  sizeReceived : Option Int
  deriving DecidableEq, Repr

inductive UploadCommand where
  | query
  | cancel
  | upload
  | uploadFinalize
  | finalize
  deriving DecidableEq, Repr

def UploadCommand.isChunk : UploadCommand → Bool
  | .query | .cancel => false
  | .upload | .uploadFinalize | .finalize => true

def UploadCommand.finalizes : UploadCommand → Bool
  | .uploadFinalize | .finalize => true
  | .query | .cancel | .upload => false

-- Content-Length and the offset are set for chunks only.
structure ChunkRequest where
  url : Option String
  uploadCommand : UploadCommand
  uploadOffset : Option Int
  contentLength : Option Int
  bodyData : NSData
  deriving DecidableEq, Repr

-- A subdata response on its way to the main queue.
structure SubdataResponse where
  request : ChunkRequest
  offset : Int
  chunkData : Except NSError NSData

structure FetchResult where
  data : Option NSData
  error : Option NSError
  responseHeaders : UploadHeaders
  deriving DecidableEq, Repr

-- Chunk, query and cancel fetchers are numbered as they begin: `begun` are their requests, `fetching` those that
-- were neither stopped nor finished. `completions` is what the delegate's handler was called with.
structure GTMSessionUploadFetcher where
  uploadData : NSData
  chunkSize : Int
  uploadGranularity : Int
  uploadLocationURL : Option String
  currentOffset : Int
  isPaused : Bool
  shouldInitiateOffsetQuery : Bool
  delegateCompletionHandler : Bool
  initialFetch : Bool
  chunkFetcher : Option Nat
  begun : List ChunkRequest
  fetching : List Nat
  subdata : List SubdataResponse
  completions : List (Option NSData × Option NSError)

namespace GTMSessionUploadFetcher
open PrefixTransfer

def kGTMSessionUploadFetcherStandardChunkSize : Int := 0x7FFFFFFFFFFFFFFF
def kGTMSessionUploadFetcherMaximumDemandBufferSize : Int := 10 * 1024 * 1024

def uploadStatusFromResponseHeaders (headers : UploadHeaders) : GTMSessionUploadFetcherStatus :=
  if headers.uploadStatus = some "active" then .kStatusActive
  else if headers.uploadStatus = some "final" then .kStatusFinal
  else if headers.uploadStatus = some "cancelled" then .kStatusCancelled
  else .kStatusUnknown

-- uploadFetcherWithRequest, setUploadData and beginFetchWithCompletionHandler.
def beginFetch (uploadData : NSData) (chunkSize : Int) : GTMSessionUploadFetcher :=
  ⟨uploadData,chunkSize,0,none,0,false,false,true,true,none,[],[],[],[]⟩

variable (fetcher : GTMSessionUploadFetcher)

def fullUploadLength : Int := fetcher.uploadData.length

def uploadChunkUnavailableError (description : UserInfo) : NSError := ⟨.fetcher,-2,description⟩

def prematureFailureError (data : Option NSData) : NSError :=
  ⟨.status,501,match data with
    | some (byte :: rest) => .statusData (byte :: rest)
    | _ => .none⟩

-- A range with a negative part raises in subdataWithRange, which the method catches.
def generateChunkSubdata (offset length : Int) : Except NSError NSData :=
  if offset = 0 ∧ length = fetcher.uploadData.length then .ok fetcher.uploadData
  else if offset + length > fetcher.uploadData.length then
    .error (uploadChunkUnavailableError (.description ("Range invalid for upload data.  offset: " ++ toString offset ++
      "\tlength: " ++ toString length ++ "\tdataLength: " ++ toString fetcher.uploadData.length)))
  else if offset < 0 ∨ length < 0 then .error (uploadChunkUnavailableError .exception)
  else .ok ((fetcher.uploadData.drop offset.toNat).take length.toNat)

-- updateChunkFetcher's chunk size, bounded for the buffer and then cut to the granularity.
def demandSize : Int :=
  if fetcher.chunkSize > kGTMSessionUploadFetcherMaximumDemandBufferSize then kGTMSessionUploadFetcherMaximumDemandBufferSize
  else fetcher.chunkSize

def boundedChunkSize : Int :=
  if fetcher.uploadGranularity > 0 then
    if fetcher.demandSize < fetcher.uploadGranularity then fetcher.uploadGranularity
    else fetcher.demandSize - fetcher.demandSize.tmod fetcher.uploadGranularity
  else fetcher.demandSize

-- The offset of the headers; the caller goes on with its own.
def headerOffset (offset : Int) : Int :=
  if fetcher.uploadGranularity > 0 then offset - offset.tmod fetcher.uploadGranularity else offset

def isFinalChunk (offset : Int) : Bool :=
  let remaining := fetcher.fullUploadLength - fetcher.headerOffset offset
  let isChunkTooBig := fetcher.boundedChunkSize ≥ remaining
  let isChunkAlmostBigEnough := remaining - 2500 < fetcher.boundedChunkSize
  isChunkTooBig || isChunkAlmostBigEnough

def thisChunkSize (offset : Int) : Int :=
  if fetcher.isFinalChunk offset then fetcher.fullUploadLength - fetcher.headerOffset offset else fetcher.boundedChunkSize

def chunkCommand (offset : Int) : UploadCommand :=
  if fetcher.isFinalChunk offset then if fetcher.thisChunkSize offset > 0 then .uploadFinalize else .finalize
  else .upload

def updateChunkFetcher (offset : Int) : ChunkRequest :=
  ⟨fetcher.uploadLocationURL,fetcher.chunkCommand offset,some (fetcher.headerOffset offset),
    some (fetcher.thisChunkSize offset),[]⟩

def uploadNextChunk (offset : Int) : GTMSessionUploadFetcher :=
  {fetcher with subdata := fetcher.subdata ++ [⟨fetcher.updateChunkFetcher offset,offset,
    fetcher.generateChunkSubdata offset (fetcher.thisChunkSize offset)⟩]}

def begin (request : ChunkRequest) : GTMSessionUploadFetcher :=
  {fetcher with begun := fetcher.begun ++ [request], fetching := fetcher.fetching ++ [fetcher.begun.length]}

def invokeFinalCallback (data : Option NSData) (error : Option NSError) (shouldInvalidateLocation : Bool) :
    GTMSessionUploadFetcher :=
  {fetcher with
    uploadLocationURL := if shouldInvalidateLocation then none else fetcher.uploadLocationURL
    completions := if fetcher.delegateCompletionHandler then fetcher.completions ++ [(data,error)] else fetcher.completions
    delegateCompletionHandler := false}

def beginChunkFetcher (request : ChunkRequest) (offset : Int) : GTMSessionUploadFetcher :=
  {fetcher.begin request with currentOffset := offset, chunkFetcher := some fetcher.begun.length}

def destroyChunkFetcher : GTMSessionUploadFetcher :=
  {fetcher with fetching := fetcher.fetching.filter (some · ≠ fetcher.chunkFetcher), chunkFetcher := none}

def sendQueryForUploadOffset : GTMSessionUploadFetcher := fetcher.begin ⟨fetcher.uploadLocationURL,.query,none,none,[]⟩

def sendCancelUpload : GTMSessionUploadFetcher := fetcher.begin ⟨fetcher.uploadLocationURL,.cancel,none,none,[]⟩

-- The block a subdata response dispatches to the main queue.
def chunkSubdataGenerated (response : SubdataResponse) : GTMSessionUploadFetcher :=
  match response.chunkData with
  | .ok chunkData => fetcher.beginChunkFetcher {response.request with bodyData := chunkData} response.offset
  | .error chunkError => fetcher.invokeFinalCallback none (some chunkError) true

def retrieveUploadChunkGranularity (headers : UploadHeaders) : GTMSessionUploadFetcher :=
  {fetcher with uploadGranularity := headers.chunkGranularity}

-- The fetch of the upload location has finished.
def beginChunkFetches (result : FetchResult) : GTMSessionUploadFetcher :=
  let fetcher := fetcher.retrieveUploadChunkGranularity result.responseHeaders
  let uploadStatus := uploadStatusFromResponseHeaders result.responseHeaders
  let isPrematureStop := uploadStatus = .kStatusFinal ∨ uploadStatus = .kStatusCancelled
  let uploadLocationURLStr := (result.responseHeaders.uploadURL.map (·.string)).getD ""
  if isPrematureStop ∨ uploadLocationURLStr.length = 0 then
    fetcher.invokeFinalCallback none (some (prematureFailureError result.data)) true
  else
    let fetcher := {fetcher with uploadLocationURL := result.responseHeaders.uploadURL.bind (·.url)}
    if fetcher.isPaused then fetcher else fetcher.uploadNextChunk 0

def initialFetchFinished (result : FetchResult) : GTMSessionUploadFetcher :=
  match result.error with
  | none => fetcher.beginChunkFetches result
  | some error => fetcher.invokeFinalCallback none (some error) true

-- The chunk fetcher's retry block: the fetcher itself is never tried again.
def retryBlock (isQueryFetch shouldRetry : Bool) : GTMSessionUploadFetcher :=
  if shouldRetry then {fetcher with shouldInitiateOffsetQuery := !isQueryFetch, currentOffset := 0} else fetcher

-- Status 4xx is a bad offset, but for 404.
def isBadOffset (request : ChunkRequest) (uploadStatus : GTMSessionUploadFetcherStatus) (error : Option NSError) : Bool :=
  match error with
  | some error => error.domain = .status ∧ 400 ≤ error.code ∧ error.code ≤ 499 ∧ error.code ≠ 404 ∧
      uploadStatus = .kStatusActive ∧ request.contentLength.getD 0 > 0
  | none => false

def chunkFetcherFinished (request : ChunkRequest) (result : FetchResult) : GTMSessionUploadFetcher :=
  let uploadStatus := uploadStatusFromResponseHeaders result.responseHeaders
  let isUploadStatusStopped := uploadStatus = .kStatusFinal ∨ uploadStatus = .kStatusCancelled
  let isQueryFetch := request.uploadCommand = .query
  let needsQuery := request.contentLength = none ∧ ¬isUploadStatusStopped
  if result.error.isSome ∨ needsQuery ∧ ¬isQueryFetch then
    if fetcher.shouldInitiateOffsetQuery ∨ needsQuery ∧ ¬isQueryFetch ∨ isBadOffset request uploadStatus result.error then
      {fetcher with shouldInitiateOffsetQuery := false}.destroyChunkFetcher.sendQueryForUploadOffset
    else (fetcher.invokeFinalCallback result.data result.error false).destroyChunkFetcher
  else if isUploadStatusStopped then
    if uploadStatus = .kStatusCancelled then
      (fetcher.invokeFinalCallback none (some (prematureFailureError result.data)) true).destroyChunkFetcher
    else (fetcher.invokeFinalCallback result.data none true).destroyChunkFetcher
  else
    let newOffset := fetcher.currentOffset + request.contentLength.getD 0
    {fetcher with currentOffset := newOffset}.destroyChunkFetcher.uploadNextChunk newOffset

def queryFetcherFinished (request : ChunkRequest) (result : FetchResult) : GTMSessionUploadFetcher :=
  let uploadStatus := uploadStatusFromResponseHeaders result.responseHeaders
  let sizeReceived := result.responseHeaders.sizeReceived
  if result.error.isSome then fetcher.chunkFetcherFinished request result
  else if uploadStatus = .kStatusCancelled ∨ uploadStatus = .kStatusActive ∧ sizeReceived = none then
    fetcher.chunkFetcherFinished request {result with error := some (prematureFailureError result.data)}
  else
    let offset := sizeReceived.getD 0
    if uploadStatus = .kStatusFinal ∨ offset ≥ fetcher.fullUploadLength then fetcher.chunkFetcherFinished request result
    else (fetcher.retrieveUploadChunkGranularity result.responseHeaders).uploadNextChunk offset

-- A cancel fetcher has no handler to call here.
def fetcherFinished (request : ChunkRequest) (result : FetchResult) : GTMSessionUploadFetcher :=
  match request.uploadCommand with
  | .query => fetcher.queryFetcherFinished request result
  | .cancel => fetcher
  | _ => fetcher.chunkFetcherFinished request result

def pauseFetching : GTMSessionUploadFetcher := {fetcher with isPaused := true}.destroyChunkFetcher

def resumeFetching : GTMSessionUploadFetcher :=
  if fetcher.isPaused then {fetcher with isPaused := false}.sendQueryForUploadOffset else fetcher

def stopFetching : GTMSessionUploadFetcher :=
  let fetcher := fetcher.destroyChunkFetcher
  let fetcher := if fetcher.uploadLocationURL.isSome then {fetcher.sendCancelUpload with uploadLocationURL := none} else fetcher
  {fetcher with initialFetch := false, delegateCompletionHandler := false}

variable {fetcher} {granularity : Int}

theorem generateChunkSubdata_ok (generated : fetcher.generateChunkSubdata offset length = .ok chunkData) :
    0 ≤ offset ∧ 0 ≤ length ∧ offset + length ≤ fetcher.uploadData.length ∧
      chunkData = (cut fetcher.uploadData offset.toNat length.toNat).items := by
  unfold generateChunkSubdata at generated
  split at generated
  · rename_i whole
    obtain ⟨rfl,rfl⟩ := whole
    cases generated
    exact ⟨Int.le_refl _,Int.natCast_nonneg _,by simp,by simp [cut]⟩
  · split at generated
    · cases generated
    · split at generated
      · cases generated
      · cases generated
        exact ⟨by omega,by omega,by omega,rfl⟩

-- Granularity binds every offset and length but the end of the upload.
def Aligned (granularity : Int) (length : Int) : Prop := 0 < granularity → granularity ∣ length

instance : Decidable (Aligned granularity length) := inferInstanceAs (Decidable (_ → _))

theorem Aligned.zero : Aligned granularity 0 := fun _ => Int.dvd_zero _

theorem Aligned.add (one : Aligned granularity length) (two : Aligned granularity more) :
    Aligned granularity (length + more) := fun positive => Int.dvd_add (one positive) (two positive)

theorem boundedChunkSize_aligned : Aligned fetcher.uploadGranularity fetcher.boundedChunkSize := by
  intro positive
  simp only [boundedChunkSize,gt_iff_lt,if_pos positive]
  split
  · exact Int.dvd_refl _
  · exact Int.dvd_self_sub_of_tmod_eq rfl

theorem demandSize_pos (positive : 0 < fetcher.chunkSize) : 0 < fetcher.demandSize := by
  unfold demandSize
  split
  · decide
  · exact positive

theorem boundedChunkSize_pos (positive : 0 < fetcher.chunkSize) : 0 < fetcher.boundedChunkSize := by
  have demand := demandSize_pos positive
  unfold boundedChunkSize
  split
  · rename_i granular
    split
    · exact granular
    · -- What is cut off is less than one granule.
      have less := Int.tmod_lt_of_pos fetcher.demandSize granular
      omega
  · exact demand

theorem headerOffset_aligned (aligned : Aligned fetcher.uploadGranularity offset) : fetcher.headerOffset offset = offset := by
  unfold headerOffset
  split
  · rename_i positive
    rw [Int.tmod_eq_zero_of_dvd (aligned positive),Int.sub_zero]
  · rfl

-- Whatever it is given, a chunk names an offset that the granularity allows.
theorem headerOffset_bounds (fetcher : GTMSessionUploadFetcher) (nonneg : 0 ≤ offset) :
    0 ≤ fetcher.headerOffset offset ∧ Aligned fetcher.uploadGranularity (fetcher.headerOffset offset) := by
  unfold headerOffset
  split
  · rename_i positive
    refine ⟨?_,fun _ => Int.dvd_self_sub_tmod⟩
    have least := Int.mul_nonneg (Int.le_of_lt positive) (Int.tdiv_nonneg nonneg (Int.le_of_lt positive))
    have whole := Int.mul_tdiv_add_tmod offset fetcher.uploadGranularity
    omega
  · rename_i none
    exact ⟨nonneg,fun positive => absurd positive none⟩

end GTMSessionUploadFetcher
end CanvasPainter
