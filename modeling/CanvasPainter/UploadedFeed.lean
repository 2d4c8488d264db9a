import CanvasPainter.SharedFeed
import CanvasPainter.ShareTransfers

-- One app's feeds beside everybody's uploads, these down to their fetchers and the service.
namespace CanvasPainter.UploadedFeed
open TransitionRuns SharedFeed
variable {UIImage Server Choice Metadata : Type}

structure State (UIImage Server Metadata : Type) where
  uploads : Transfers.State UIImage Server Metadata
  app : Feed.App Path Address UIImage NSData
  issued : List (Path × StorageURLs.Text)

inductive Event (UIImage Choice : Type) where
  | uploads (event : Transfers.Event UIImage Choice)
  | fed (event : Feed.Event Path Address NSData)
  | tokens (path : Path) (downloadTokens : StorageURLs.Text)

def start : State UIImage Server Metadata := ⟨Transfers.start,Feed.start,[]⟩

def advance (pngData : UIImage → Option NSData) (storage : Transfers.Storage Server Choice Metadata) (decode : NSData → Option UIImage)
    (state : State UIImage Server Metadata) : Event UIImage Choice → Option (State UIImage Server Metadata)
  | .uploads event => (Transfers.advance pngData storage state.uploads event).map ({state with uploads := ·})
  | .fed event => (Feed.advance decode state.app event).map ({state with app := ·})
  | .tokens path downloadTokens => some {state with issued := state.issued ++ [(path,downloadTokens)]}

-- What the feed and the service are to each other, whatever the uploads do.
def State.shared (service : UploadService Server Choice) (state : State UIImage Server Metadata) :
    SharedFeed.State UIImage NSData :=
  ⟨state.uploads.world service,state.app,state.issued⟩

def Truthful (service : UploadService Server Choice) (bucket : StorageURLs.Text) (queryAllowed : Char → Bool)
    (decode : NSData → Option UIImage) (state : State UIImage Server Metadata) : Event UIImage Choice → Prop
  | .fed event => SharedFeed.Truthful bucket queryAllowed decode (state.shared service) (.fed event)
  | _ => True

variable {pngData : UIImage → Option NSData} {storage : Transfers.Storage Server Choice Metadata} {decode : NSData → Option UIImage}
  {queryAllowed : Char → Bool} {bucket : StorageURLs.Text} {state after : State UIImage Server Metadata}
  {uploads next : Transfers.State UIImage Server Metadata}

theorem committed_grows (accepted : Transfers.advance pngData storage uploads event = some next) :
    ∀ share ∈ uploads.committed, share ∈ next.committed := by
  cases event with
  | shareConfirmed user reachability textField snapshot =>
      simp only [Transfers.advance] at accepted
      split at accepted
      · cases Option.some.inj accepted
        exact fun _ member => member
      · rename_i title image _
        cases Option.some.inj accepted
        cases CanvasDrawVC.FBUploadManager pngData reachability title image <;> exact fun _ member => member
  | transfer index event =>
      obtain ⟨transfer,upload,_,_,_,rfl⟩ := Transfers.advance_transfer accepted
      simp only [Transfers.State.move,Transfers.State.report,Transfers.State.commit]
      split
      · exact fun _ => List.mem_append_left _
      · exact fun _ member => member
  | terminated user =>
      cases Option.some.inj accepted
      exact fun _ member => member

structure Consistent (pngData : UIImage → Option NSData) (storage : Transfers.Storage Server Choice Metadata) (bucket : StorageURLs.Text)
    (queryAllowed : Char → Bool) (decode : NSData → Option UIImage) (state : State UIImage Server Metadata) : Prop where
  tracked : Transfers.Tracked pngData storage state.uploads
  faithful : Faithful pngData bucket queryAllowed decode (state.shared storage.service)

theorem consistent_preserved (resumable : storage.service.Resumable) (setting : Setting queryAllowed bucket)
    (consistent : Consistent pngData storage bucket queryAllowed decode state)
    (truthful : Truthful storage.service bucket queryAllowed decode state event)
    (accepted : advance pngData storage decode state event = some after) :
    Consistent pngData storage bucket queryAllowed decode after := by
  obtain ⟨tracked,faithful⟩ := consistent
  cases event with
  | uploads event =>
      obtain ⟨uploads,moved,rfl⟩ := Option.map_eq_some_iff.mp accepted
      have later := Transfers.tracked_preserved resumable tracked moved
      refine ⟨later,later.consistent,faithful.valid,?_⟩
      exact faithful.traced.grow (tale_grows (committed_grows moved) fun _ member => member)
  | fed event =>
      obtain ⟨app,moved,rfl⟩ := Option.map_eq_some_iff.mp accepted
      have step : SharedFeed.advance pngData decode (state.shared storage.service) (.fed event) = some {state.shared storage.service with app := app} := by
        rw [SharedFeed.advance,State.shared,moved]
        rfl
      exact ⟨tracked,faithful_preserved setting faithful truthful step⟩
  | tokens path downloadTokens =>
      cases Option.some.inj accepted
      have step : SharedFeed.advance pngData decode (state.shared storage.service) (.tokens path downloadTokens) = some _ := rfl
      have silent : SharedFeed.Truthful bucket queryAllowed decode (state.shared storage.service) (.tokens path downloadTokens) := trivial
      exact ⟨tracked,faithful_preserved setting faithful silent step⟩

-- From the chunks of an upload to the picture in a feed: what is shown is what somebody shared under that name.
theorem feed_shows_uploads (resumable : storage.service.Resumable) (setting : Setting queryAllowed bucket)
    (path : Runs (advance pngData storage decode) start events state)
    (truthful : EachStep (advance pngData storage decode) start events (Truthful storage.service bucket queryAllowed decode)) :
    (∀ entry ∈ state.app.succeeded, ∃ share ∈ state.uploads.committed, inBucket bucket share.reference = entry.2.1 ∧
      (pngData share.image).bind decode = some entry.2.2) ∧
    ∀ feedVC, ∀ shown ∈ (state.app.controllers feedVC).downloadedImages, ∃ share ∈ state.uploads.committed,
      shown.isSome = true ∧ (pngData share.image).bind decode = shown := by
  have initial : Consistent pngData storage bucket queryAllowed decode start :=
    ⟨Transfers.start_tracked,initial_faithful⟩
  have consistent := path.guarded initial
    (fun _ _ _ consistent ok accepted => consistent_preserved resumable setting consistent ok accepted) truthful
  exact consistent.faithful.shows

instance [DecidableEq UIImage] (state : State UIImage Server Metadata) :
    ∀ event, Decidable (Truthful storage.service bucket queryAllowed decode state event)
  | .fed event => inferInstanceAs (Decidable (SharedFeed.Truthful bucket queryAllowed decode (state.shared storage.service) (.fed event)))
  | .uploads _ | .tokens _ _ => isTrue trivial

def decodeOne (data : NSData) : Option Nat := if data.length = 4 then some 7 else none

-- Uploaded in two pieces, then seen.
def uploadedOne : List (Event Nat (Option Nat)) :=
  (Transfers.sharedOne (.dispatched :: (UploadSession.brokenOff ++ UploadSession.askedAgain).map .fetch ++
    [.calledBack,.calledBack,.calledBack])).map .uploads ++
  [.tokens drawing token,.fed .willConnect,.fed (.viewWillAppear 0),.fed (.page 0 [drawing] false),.fed .main,
    .fed (.resolved 0 (some drawingAddress) none),.fed (.downloaded 0 (some [1,2,3,4]) none),.fed .main]

theorem feed_shows_uploads_one : ∃ state,
    Runs (advance Transfers.onePng Transfers.storageOne decodeOne) start uploadedOne state ∧
      (state.app.controllers 0).downloadedImages = [some 7] ∧
      ∃ share ∈ state.uploads.committed, (Transfers.onePng share.image).bind decodeOne = some 7 := by
  have ran : (run (advance Transfers.onePng Transfers.storageOne decodeOne) start uploadedOne).map
      (fun state => (state.app.controllers 0).downloadedImages) = some [some 7] := by decide +kernel
  obtain ⟨state,accepted,shown⟩ := Option.map_eq_some_iff.mp ran
  have truthful : EachStep (advance Transfers.onePng Transfers.storageOne decodeOne) start uploadedOne
      (Truthful Transfers.storageOne.service canvas StorageURLs.gcsAllowed decodeOne) := by decide +kernel
  have all := (feed_shows_uploads (StoredUpload.service_resumable 2) canvas_setting (run_exact.mp accepted) truthful).2 0 (some 7) (by simp [shown])
  obtain ⟨share,member,_,picture⟩ := all
  exact ⟨state,run_exact.mp accepted,shown,share,member,picture⟩

end CanvasPainter.UploadedFeed
