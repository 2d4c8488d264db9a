import CanvasPainter.PrefixTransfer
import CanvasPainter.UploadFetcher

namespace CanvasPainter
open PrefixTransfer GTMSessionUploadFetcher

-- The service's side of one upload, which is no part of the repository: what it has stored, how the upload stands,
-- and what a request that reaches it does, with or without an answer. A `Choice` is what the service and the
-- network are free to do; an answer is one that no HTTP error comes with.
structure UploadService (Server Choice : Type) where
  granularity : Int
  opened : Server
  received : Server → NSData
  status : Server → GTMSessionUploadFetcherStatus
  serve : Choice → ChunkRequest → Server → Server × Option UploadHeaders

namespace UploadService
variable {Server Choice : Type} (service : UploadService Server Choice)

-- A chunk that begins where the upload stands.
def Continues (request : ChunkRequest) (server : Server) : Prop :=
  request.uploadCommand.isChunk = true ∧ service.status server ≠ .kStatusFinal ∧
    request.uploadOffset = some ((service.received server).length : Int)

-- An answer tells how the upload stands; the one to a query also how much of it is stored.
structure TrueAnswer (request : ChunkRequest) (after : Server) (headers : UploadHeaders) : Prop where
  final : headers.uploadStatus = some "final" → service.status after = .kStatusFinal
  finalized : request.uploadCommand.finalizes = true → headers.uploadStatus = some "final"
  granular : request.uploadCommand = .query → headers.chunkGranularity = service.granularity
  size : request.uploadCommand = .query → ∀ size, headers.sizeReceived = some size → size = (service.received after).length

-- The resumable protocol: bytes are taken from the front of a chunk that goes on, and the upload is final once a
-- finalizing chunk is stored whole, from then on.
structure Resumable : Prop where
  empty : service.received service.opened = []
  unfinished : service.status service.opened ≠ .kStatusFinal
  appends : ∀ choice request server, service.received (service.serve choice request server).1 = service.received server ∨
    service.Continues request server ∧ ∃ taken,
      service.received (service.serve choice request server).1 = service.received server ++ request.bodyData.take taken
  finishes : ∀ choice request server, service.status (service.serve choice request server).1 = .kStatusFinal →
    service.status server = .kStatusFinal ∨ service.Continues request server ∧ request.uploadCommand.finalizes = true ∧
      service.received (service.serve choice request server).1 = service.received server ++ request.bodyData
  lasts : ∀ choice request server, service.status server = .kStatusFinal →
    service.status (service.serve choice request server).1 = .kStatusFinal
  answers : ∀ choice request server headers, (service.serve choice request server).2 = some headers →
    service.TrueAnswer request (service.serve choice request server).1 headers

-- What an active upload can always come to, where nothing is lost: a query is answered, and a chunk that goes on is
-- stored whole and answered.
structure Responsive : Prop where
  query : ∀ request server, request.uploadCommand = .query → service.status server = .kStatusActive →
    ∃ choice after headers, service.serve choice request server = (after,some headers) ∧
      service.status after = .kStatusActive ∧ service.received after = service.received server ∧
      headers.uploadStatus = some "active" ∧ headers.sizeReceived = some ((service.received server).length : Int)
  chunk : ∀ request server, service.status server = .kStatusActive → service.Continues request server →
    ∃ choice after headers, service.serve choice request server = (after,some headers) ∧
      service.received after = service.received server ++ request.bodyData ∧
      (request.uploadCommand = .upload → service.status after = .kStatusActive ∧ headers.uploadStatus = some "active")

end UploadService

-- A service to run the uploads with: `some taken` breaks a chunk off after so many bytes, `none` serves it whole.
structure StoredUpload where
  received : NSData
  status : GTMSessionUploadFetcherStatus
  deriving DecidableEq, Repr

namespace StoredUpload
variable (server : StoredUpload)

def statusHeader : GTMSessionUploadFetcherStatus → Option String
  | .kStatusUnknown => none
  | .kStatusActive => some "active"
  | .kStatusFinal => some "final"
  | .kStatusCancelled => some "cancelled"

def answered (granularity : Int) : StoredUpload × Option UploadHeaders :=
  (server,some ⟨statusHeader server.status,none,granularity,some server.received.length⟩)

def goesOn (request : ChunkRequest) : Bool :=
  request.uploadCommand.isChunk && server.status = .kStatusActive && request.uploadOffset = some (server.received.length : Int)

def stored (request : ChunkRequest) : StoredUpload :=
  ⟨server.received ++ request.bodyData,if request.uploadCommand.finalizes then .kStatusFinal else server.status⟩

def serve (granularity : Int) (choice : Option Nat) (request : ChunkRequest) (server : StoredUpload) :
    StoredUpload × Option UploadHeaders :=
  match choice with
  | some taken =>
    (if server.goesOn request then {server with received := server.received ++ request.bodyData.take taken} else server,none)
  | none =>
    if request.uploadCommand.isChunk then
      if server.goesOn request then (server.stored request).answered granularity else (server,none)
    else if request.uploadCommand = .cancel ∧ server.status = .kStatusActive then
      {server with status := .kStatusCancelled}.answered granularity
    else server.answered granularity

def service (granularity : Int) : UploadService StoredUpload (Option Nat) :=
  ⟨granularity,⟨[],.kStatusActive⟩,StoredUpload.received,StoredUpload.status,serve granularity⟩

variable {server : StoredUpload} {request : ChunkRequest} {granularity : Int} {choice : Option Nat} {headers : UploadHeaders}

theorem statusHeader_final {standing : GTMSessionUploadFetcherStatus} :
    statusHeader standing = some "final" ↔ standing = .kStatusFinal := by
  cases standing <;> simp [statusHeader]

theorem goesOn_active (goes : server.goesOn request = true) : server.status = .kStatusActive := by
  simp only [goesOn,Bool.and_eq_true,decide_eq_true_eq] at goes
  exact goes.1.2

theorem goesOn_continues (goes : server.goesOn request = true) : (service granularity).Continues request server := by
  have active := goesOn_active goes
  simp only [goesOn,Bool.and_eq_true,decide_eq_true_eq] at goes
  exact ⟨goes.1.1,by simp [service,active],goes.2⟩

theorem finalizes_chunk {command : UploadCommand} (finalizes : command.finalizes = true) : command.isChunk = true := by
  cases command <;> first | rfl | cases finalizes

-- Everything a request can do there.
theorem serve_cases (granularity : Int) (choice : Option Nat) (request : ChunkRequest) (server : StoredUpload) :
    (∃ taken, server.goesOn request = true ∧ serve granularity choice request server =
      ({server with received := server.received ++ request.bodyData.take taken},none)) ∨
    serve granularity choice request server = (server,none) ∨
    server.goesOn request = true ∧ serve granularity choice request server = (server.stored request).answered granularity ∨
    request.uploadCommand.isChunk = false ∧ ∃ status, (status = .kStatusFinal ↔ server.status = .kStatusFinal) ∧
      serve granularity choice request server = answered ⟨server.received,status⟩ granularity := by
  unfold serve
  split
  · rename_i taken
    split
    · rename_i goes
      exact .inl ⟨taken,goes,rfl⟩
    · exact .inr (.inl rfl)
  · split
    · split
      · rename_i goes
        exact .inr (.inr (.inl ⟨goes,rfl⟩))
      · exact .inr (.inl rfl)
    · rename_i other
      have plain : request.uploadCommand.isChunk = false := by simpa using other
      split
      · rename_i cancel
        exact .inr (.inr (.inr ⟨plain,.kStatusCancelled,by simp [cancel.2],rfl⟩))
      · exact .inr (.inr (.inr ⟨plain,server.status,Iff.rfl,rfl⟩))

theorem stored_final (goes : server.goesOn request = true) (final : (server.stored request).status = .kStatusFinal) :
    request.uploadCommand.finalizes = true := by
  by_contra part
  have active := goesOn_active goes
  simp [stored,part,active] at final

theorem service_resumable (granularity : Int) : (service granularity).Resumable := by
  refine ⟨rfl,by simp [service],?_,?_,?_,?_⟩
  · intro choice request server
    rcases serve_cases granularity choice request server with
      ⟨taken,goes,same⟩ | same | ⟨goes,same⟩ | ⟨_,status,_,same⟩
    · exact .inr ⟨goesOn_continues goes,taken,congrArg (·.1.received) same⟩
    · exact .inl (congrArg (·.1.received) same)
    · refine .inr ⟨goesOn_continues goes,request.bodyData.length,?_⟩
      rw [List.take_length]
      exact congrArg (·.1.received) same
    · exact .inl (congrArg (·.1.received) same)
  · intro choice request server final
    rcases serve_cases granularity choice request server with
      ⟨taken,goes,same⟩ | same | ⟨goes,same⟩ | ⟨_,status,kept,same⟩
    · exact .inl ((congrArg (·.1.status) same).symm.trans final)
    · exact .inl ((congrArg (·.1.status) same).symm.trans final)
    · have finalizes := stored_final goes ((congrArg (·.1.status) same).symm.trans final)
      exact .inr ⟨goesOn_continues goes,finalizes,congrArg (·.1.received) same⟩
    · exact .inl (kept.mp ((congrArg (·.1.status) same).symm.trans final))
  · intro choice request server final
    rcases serve_cases granularity choice request server with
      ⟨taken,goes,same⟩ | same | ⟨goes,same⟩ | ⟨_,status,kept,same⟩
    · exact (congrArg (·.1.status) same).trans final
    · exact (congrArg (·.1.status) same).trans final
    · exact absurd final (by simp [service,goesOn_active goes])
    · exact (congrArg (·.1.status) same).trans (kept.mpr final)
  · intro choice request server headers answer
    change (serve granularity choice request server).2 = some headers at answer
    change (service granularity).TrueAnswer request (serve granularity choice request server).1 headers
    rcases serve_cases granularity choice request server with
      ⟨taken,goes,same⟩ | same | ⟨goes,same⟩ | ⟨plain,status,_,same⟩
    · rw [same] at answer; cases answer
    · rw [same] at answer; cases answer
    · rw [same] at answer ⊢
      cases Option.some.inj answer
      refine ⟨statusHeader_final.mp,fun finalizes => ?_,fun _ => rfl,fun _ size told => (Option.some.inj told).symm⟩
      exact statusHeader_final.mpr (if_pos finalizes)
    · rw [same] at answer ⊢
      cases Option.some.inj answer
      refine ⟨statusHeader_final.mp,fun finalizes => ?_,fun _ => rfl,fun _ size told => (Option.some.inj told).symm⟩
      rw [finalizes_chunk finalizes] at plain
      cases plain

theorem service_responsive (granularity : Int) : (service granularity).Responsive := by
  refine ⟨fun request server query active => ?_,fun request server active continues => ?_⟩
  · have answer : serve granularity none request server = server.answered granularity := by
      simp [serve,query,UploadCommand.isChunk]
    exact ⟨none,server,_,answer,active,rfl,congrArg statusHeader active,rfl⟩
  · obtain ⟨chunk,_,offset⟩ := continues
    change server.status = .kStatusActive at active
    change request.uploadOffset = some (server.received.length : Int) at offset
    have answer : serve granularity none request server = (server.stored request).answered granularity := by
      simp [serve,chunk,goesOn,active,offset]
    refine ⟨none,server.stored request,_,answer,rfl,fun upload => ?_⟩
    have going : (server.stored request).status = .kStatusActive := by
      simp [stored,upload,UploadCommand.finalizes,active]
    exact ⟨going,congrArg statusHeader going⟩

end StoredUpload
end CanvasPainter
