import Mathlib.Data.List.Dedup
import Mathlib.Data.List.Perm.Subperm
import CanvasPainter.DownloadURLs
import CanvasPainter.FeedOnce
import CanvasPainter.FeedTraces
import CanvasPainter.ShareHistory
import CanvasPainter.SharedTitles

-- Everybody who shares, one app that shows, and the bucket between them.
namespace CanvasPainter.SharedFeed
open TransitionRuns SeparatedComponents
variable {UIImage Data : Type} {pngData : UIImage → Option Data} {decode : Data → Option UIImage}
  {queryAllowed : Char → Bool} {bucket : StorageURLs.Text}

abbrev Path := StorageURLs.FIRStoragePath
abbrev Address := StorageURLs.Text

-- `issued` is every download token the service has given an object, with the object.
structure State (UIImage Data : Type) where
  world : Sharing.World UIImage Data
  app : Feed.App Path Address UIImage Data
  issued : List (Path × StorageURLs.Text)

inductive Event (UIImage Data : Type) where
  | shared (event : Sharing.Event UIImage)
  | fed (event : Feed.Event Path Address Data)
  | tokens (path : Path) (downloadTokens : StorageURLs.Text)

def start : State UIImage Data := ⟨Sharing.start,Feed.start,[]⟩

def advance (pngData : UIImage → Option Data) (decode : Data → Option UIImage) (state : State UIImage Data) :
    Event UIImage Data → Option (State UIImage Data)
  | .shared event => (Sharing.advance pngData state.world event).map fun world => {state with world := world}
  | .fed event => (Feed.advance decode state.app event).map fun app => {state with app := app}
  | .tokens path downloadTokens => some {state with issued := state.issued ++ [(path,downloadTokens)]}

def inBucket (bucket : StorageURLs.Text) (reference : FIRStoragePath) : Path := ⟨bucket,reference.object⟩

-- The app's references, which leave the one bucket out, are made as all the others are.
theorem inBucket_init (object : Option (List Char)) :
    inBucket bucket (FIRStoragePath.initWithObject object) = StorageURLs.initWithBucket bucket object := rfl

theorem inBucket_child (reference : FIRStoragePath) (string : List Char) :
    inBucket bucket (reference.child string) = (inBucket bucket reference).child string := by
  unfold FIRStoragePath.child StorageURLs.FIRStoragePath.child
  split
  · exact inBucket_init _
  · obtain ⟨object⟩ := reference
    cases object <;> exact inBucket_init _

section Service
variable (bucket : StorageURLs.Text) (queryAllowed : Char → Bool) (decode : Data → Option UIImage)
  (state : State UIImage Data)

def Shared (path : Path) : Prop := ∃ share ∈ state.world.committed, inBucket bucket share.reference = path

def Pictured (path : Path) (image : UIImage) : Prop :=
  ∃ share ∈ state.world.committed, inBucket bucket share.reference = path ∧ decode share.data = some image

-- The address of an object under one of its tokens.
def Issued (address : Address) (path : Path) : Prop :=
  ∃ entry ∈ state.issued, entry.1 = path ∧
    StorageURLs.downloadURLFromMetadataDictionary queryAllowed ⟨some entry.2,path.bucket,path.object.getD []⟩ = some address

-- What is served was stored under the object that the address names; a refusal is no image.
def Served (address : Address) (data : Data) : Prop :=
  decode data = none ∨ ∃ share ∈ state.world.committed,
    StorageURLs.pathFromHTTPURL address = some (inBucket bucket share.reference) ∧ share.data = data

def IssuedFor (address : Address) : Option (Feed.Request Path Address) → Prop
  | some (.downloadURL _ path) => Issued queryAllowed state address path
  | _ => True

def ServedFor (data : Data) : Option (Feed.Request Path Address) → Prop
  | some (.dataTask _ _ address) => Served bucket decode state address data
  | _ => True

-- The service lists objects that were put, gives them addresses with tokens of theirs, and serves what was put.
def Truthful : Event UIImage Data → Prop
  | .fed (.page _ items _) => ∀ path ∈ items, Shared bucket state path
  | .fed (.resolved index (some address) none) => IssuedFor queryAllowed state address state.app.requests[index]?
  | .fed (.downloaded index (some data) none) => ServedFor bucket decode state data state.app.requests[index]?
  | _ => True

def tale : Feed.Tale Path Address UIImage where
  listed := Shared bucket state
  names address path := StorageURLs.pathFromHTTPURL address = some path
  offers address path := StorageURLs.pathFromHTTPURL address = some path ∧ Issued queryAllowed state address path
  shows := Pictured bucket decode state
  named _ _ offered := offered.1

end Service

variable {state : State UIImage Data}

-- What a title's object is called, as its reference keeps it.
def sharedName (title : String) : StorageURLs.Text := feedImages ++ '/' :: (keptTitle title ++ pngExtension)

theorem inBucket_title (title : String) :
    inBucket bucket (FIRStoragePath.root.child (feedImagesName title)) = ⟨bucket,some (sharedName title)⟩ :=
  congrArg (StorageURLs.FIRStoragePath.mk bucket) title_object

theorem sharedName_canonical (title : String) : StorageURLs.Canonical ⟨bucket,some (sharedName title)⟩ := by
  rw [← inBucket_title,inBucket_child]
  exact StorageURLs.child_canonical

theorem sharedName_rejoin (title : String) : rejoin '/' (sharedName title) = sharedName title :=
  have canonical : StorageURLs.Canonical ⟨[],some (sharedName title)⟩ := sharedName_canonical title
  (Option.some.inj canonical).symm

theorem encoded_object {share : Sharing.UploadTask UIImage Data} (encoded : Sharing.Encoded pngData share) :
    share.reference.object = some (sharedName share.title) :=
  encoded.1 ▸ title_object

theorem encoded_name {share : Sharing.UploadTask UIImage Data} (encoded : Sharing.Encoded pngData share) :
    inBucket bucket share.reference = ⟨bucket,some (sharedName share.title)⟩ :=
  encoded.1 ▸ inBucket_title share.title

theorem shared_object (consistent : Sharing.Consistent pngData state.world) (shared : Shared bucket state path) :
    ∃ title, path = ⟨bucket,some (sharedName title)⟩ := by
  obtain ⟨share,member,rfl⟩ := shared
  exact ⟨share.title,encoded_name (consistent.committed share member)⟩

structure Setting (queryAllowed : Char → Bool) (bucket : StorageURLs.Text) : Prop where
  escaping : StorageURLs.QueryEscaping queryAllowed
  named : bucket ≠ []
  plain : ∀ c ∈ bucket, c ∈ StorageURLs.kGCSObjectAllowedCharacterSet

-- Through its address an object is found again.
theorem issued_reads (setting : Setting queryAllowed bucket) (consistent : Sharing.Consistent pngData state.world)
    (shared : Shared bucket state path) (issued : Issued queryAllowed state address path) :
    StorageURLs.pathFromHTTPURL address = some path := by
  obtain ⟨title,rfl⟩ := shared_object consistent shared
  obtain ⟨entry,_,_,url⟩ := issued
  have plain : StorageURLs.PlainBucket ⟨some entry.2,bucket,sharedName title⟩ := ⟨setting.named,setting.plain⟩
  have named : sharedName title ≠ [] := by simp [sharedName,feedImages]
  rw [StorageURLs.downloadURL_reads setting.escaping plain named url]
  exact congrArg some (StorageURLs.initWithBucket_same (sharedName_canonical title))

theorem truthful_told (setting : Setting queryAllowed bucket) (consistent : Sharing.Consistent pngData state.world)
    (truthful : Truthful bucket queryAllowed decode state (.fed event)) :
    Feed.Told (tale bucket queryAllowed decode state) decode state.app event := by
  cases event with
  | page index items pageToken => exact truthful
  | resolved index downloadURL error =>
      cases downloadURL with
      | none => trivial
      | some address =>
          cases error with
          | some description => trivial
          | none =>
              simp only [Truthful] at truthful
              simp only [Feed.Told]
              cases found : state.app.requests[index]? with
              | none => trivial
              | some request =>
                  cases request with
                  | listAll _ _ => trivial
                  | dataTask _ _ _ => trivial
                  | downloadURL feedVC path =>
                      intro shared
                      rw [found] at truthful
                      exact ⟨issued_reads setting consistent shared truthful,truthful⟩
  | downloaded index data error =>
      cases data with
      | none => trivial
      | some data =>
          cases error with
          | some description => trivial
          | none =>
              simp only [Truthful] at truthful
              simp only [Feed.Told]
              cases found : state.app.requests[index]? with
              | none => trivial
              | some request =>
                  cases request with
                  | listAll _ _ => trivial
                  | downloadURL _ _ => trivial
                  | dataTask feedVC path address =>
                      rw [found] at truthful
                      intro image decoded named names
                      rcases truthful with refused | ⟨share,member,reads,rfl⟩
                      · rw [refused] at decoded
                        cases decoded
                      · have same := reads.symm.trans names
                        exact ⟨share,member,Option.some.inj same,decoded⟩
  | _ => trivial

structure Faithful (pngData : UIImage → Option Data) (bucket : StorageURLs.Text) (queryAllowed : Char → Bool)
    (decode : Data → Option UIImage) (state : State UIImage Data) : Prop where
  consistent : Sharing.Consistent pngData state.world
  valid : Feed.Valid state.app
  traced : Feed.Traced (tale bucket queryAllowed decode state) decode state.app

theorem initial_faithful : Faithful pngData bucket queryAllowed decode (start : State UIImage Data) :=
  ⟨Sharing.initial_consistent,Feed.initial_valid,Feed.initial_traced _⟩

theorem committed_grows {world after : Sharing.World UIImage Data} (step : Sharing.Step pngData world event after) :
    ∀ share ∈ world.committed, share ∈ after.committed := by
  cases step with
  | objectPut found => exact fun share member => List.mem_append_left _ member
  | _ => exact fun share member => member

theorem tale_grows {after : State UIImage Data} (committed : ∀ share ∈ state.world.committed, share ∈ after.world.committed)
    (issued : ∀ entry ∈ state.issued, entry ∈ after.issued) :
    (tale bucket queryAllowed decode state).Grows (tale bucket queryAllowed decode after) where
  names := rfl
  listed _ shared := shared.imp fun share facts => ⟨committed share facts.1,facts.2⟩
  offers _ _ offered := ⟨offered.1,offered.2.imp fun entry facts => ⟨issued entry facts.1,facts.2⟩⟩
  shows _ _ shown := shown.imp fun share facts => ⟨committed share facts.1,facts.2⟩

theorem faithful_preserved (setting : Setting queryAllowed bucket) (faithful : Faithful pngData bucket queryAllowed decode state)
    (truthful : Truthful bucket queryAllowed decode state event)
    (accepted : advance pngData decode state event = some after) : Faithful pngData bucket queryAllowed decode after := by
  obtain ⟨consistent,valid,traced⟩ := faithful
  cases event with
  | shared event =>
      obtain ⟨world,moved,rfl⟩ := Option.map_eq_some_iff.mp accepted
      have step := Sharing.advance_step moved
      exact ⟨Sharing.consistent_preserved consistent step,valid,
        traced.grow (tale_grows (committed_grows step) fun _ member => member)⟩
  | fed event =>
      obtain ⟨app,moved,rfl⟩ := Option.map_eq_some_iff.mp accepted
      have step := (Feed.advance_step moved).2
      exact ⟨consistent,Feed.valid_preserved valid step,
        Feed.traced_preserved traced (truthful_told setting consistent truthful) step⟩
  | tokens path downloadTokens =>
      cases accepted
      exact ⟨consistent,valid,traced.grow (tale_grows (fun _ member => member) fun _ => List.mem_append_left _)⟩

theorem runs_faithful (setting : Setting queryAllowed bucket) (path : Runs (advance pngData decode) start events state)
    (truthful : EachStep (advance pngData decode) start events (Truthful bucket queryAllowed decode)) :
    Faithful pngData bucket queryAllowed decode state :=
  path.guarded initial_faithful (fun _ _ _ faithful ok accepted => faithful_preserved setting faithful ok accepted) truthful

theorem Faithful.picture (faithful : Faithful pngData bucket queryAllowed decode state)
    (pictured : Pictured bucket decode state path image) : ∃ share ∈ state.world.committed,
      inBucket bucket share.reference = path ∧ (pngData share.image).bind decode = some image := by
  obtain ⟨share,member,place,decoded⟩ := pictured
  refine ⟨share,member,place,?_⟩
  rw [(faithful.consistent.committed share member).2]
  exact decoded

theorem Faithful.shows (faithful : Faithful pngData bucket queryAllowed decode state) :
    (∀ entry ∈ state.app.succeeded, ∃ share ∈ state.world.committed, inBucket bucket share.reference = entry.2.1 ∧
      (pngData share.image).bind decode = some entry.2.2) ∧
    ∀ feedVC, ∀ shown ∈ (state.app.controllers feedVC).downloadedImages, ∃ share ∈ state.world.committed,
      shown.isSome = true ∧ (pngData share.image).bind decode = shown := by
  refine ⟨fun entry member => faithful.picture (faithful.traced.succeeded entry member),fun feedVC shown inside => ?_⟩
  rw [faithful.valid.mirrors] at inside
  obtain ⟨entry,member,rfl⟩ := List.mem_map.mp inside
  obtain ⟨_,_,_,_,pictured⟩ := faithful.traced.contributions entry (List.mem_of_mem_filter member)
  obtain ⟨share,present,_,decoded⟩ := faithful.picture pictured
  exact ⟨share,present,rfl,decoded⟩

-- Every picture of a feed is one that somebody shared, and what an item of the folder was shown as had been put there.
theorem feed_shows_shares (setting : Setting queryAllowed bucket) (path : Runs (advance pngData decode) start events state)
    (truthful : EachStep (advance pngData decode) start events (Truthful bucket queryAllowed decode)) :
    (∀ entry ∈ state.app.succeeded, ∃ share ∈ state.world.committed, inBucket bucket share.reference = entry.2.1 ∧
      (pngData share.image).bind decode = some entry.2.2) ∧
    ∀ feedVC, ∀ shown ∈ (state.app.controllers feedVC).downloadedImages, ∃ share ∈ state.world.committed,
      shown.isSome = true ∧ (pngData share.image).bind decode = shown := by
  have faithful := runs_faithful setting path truthful
  exact faithful.shows

section Projection

-- What the app saw of a run.
def Event.ofFeed : Event UIImage Data → Option (Feed.Event Path Address Data)
  | .fed event => some event
  | _ => none

-- A condition on the app's own steps.
def Fed (ok : Feed.App Path Address UIImage Data → Feed.Event Path Address Data → Prop) (state : State UIImage Data) :
    Event UIImage Data → Prop
  | .fed event => ok state.app event
  | _ => True

theorem fed_run (path : Runs (advance pngData decode) start events state) :
    Runs (Feed.advance decode) Feed.start (events.filterMap Event.ofFeed) state.app := by
  induction path with
  | nil => exact .nil
  | step prior accepted ih =>
      rename_i event after
      rw [List.filterMap_append]
      cases event with
      | shared event =>
          obtain ⟨world,_,rfl⟩ := Option.map_eq_some_iff.mp accepted
          simpa [List.filterMap_cons,Event.ofFeed] using ih
      | fed event =>
          obtain ⟨app,moved,rfl⟩ := Option.map_eq_some_iff.mp accepted
          exact ih.step moved
      | tokens path downloadTokens =>
          cases accepted
          simpa [List.filterMap_cons,Event.ofFeed] using ih

theorem fed_each {ok : Feed.App Path Address UIImage Data → Feed.Event Path Address Data → Prop}
    (path : Runs (advance pngData decode) start events state)
    (each : EachStep (advance pngData decode) start events (Fed ok)) :
    EachStep (Feed.advance decode) Feed.start (events.filterMap Event.ofFeed) ok := by
  induction path with
  | nil => exact .nil
  | step prior accepted ih =>
      rename_i event after
      rw [List.filterMap_append]
      have sofar := ih each.front
      cases event with
      | fed event =>
          refine EachStep.append sofar fun app path => ?_
          rw [path.unique (fed_run prior)]
          exact each.final prior
      | _ => simpa [List.filterMap_cons,Event.ofFeed] using sofar

end Projection

section Sizes

-- An object keeps the token it was first given.
def OneToken (state : State UIImage Data) : Prop :=
  ∀ one ∈ state.issued, ∀ two ∈ state.issued, one.1 = two.1 → one.2 = two.2

theorem runs_once (path : Runs (advance pngData decode) start events state)
    (fresh : EachStep (advance pngData decode) start events (Fed Feed.Fresh)) : Feed.Once state.app :=
  (fed_run path).guarded Feed.initial_once
    (fun _ _ _ once ok accepted => Feed.once_preserved once ok (Feed.advance_step accepted).2) (fed_each path fresh)

-- Where an object is found, under the first of its tokens.
def addressOf (queryAllowed : Char → Bool) (state : State UIImage Data) (path : Path) : Option Address :=
  (state.issued.find? fun entry => entry.1 = path).bind fun entry =>
    StorageURLs.downloadURLFromMetadataDictionary queryAllowed ⟨some entry.2,path.bucket,path.object.getD []⟩

theorem issued_address (single : OneToken state) (issued : Issued queryAllowed state address path) :
    addressOf queryAllowed state path = some address := by
  obtain ⟨entry,member,same,url⟩ := issued
  cases found : state.issued.find? fun entry => entry.1 = path with
  | none =>
      have absent := List.find?_eq_none.mp found entry member
      simp [same] at absent
  | some first =>
      have own : first.1 = path := by simpa using List.find?_some found
      have token : first.2 = entry.2 := single first (List.mem_of_find?_eq_some found) entry member (own.trans same.symm)
      rw [addressOf,found,Option.bind_some,token,url]

-- A feed never has more pictures than there are objects shared.
theorem feed_size_bounded (setting : Setting queryAllowed bucket) (path : Runs (advance pngData decode) start events state)
    (truthful : EachStep (advance pngData decode) start events (Truthful bucket queryAllowed decode))
    (fresh : EachStep (advance pngData decode) start events (Fed Feed.Fresh)) (single : OneToken state) (feedVC : Nat) :
    (state.app.controllers feedVC).downloadedImages.length ≤ (state.world.committed.map (·.reference)).dedup.length := by
  have faithful := runs_faithful setting path truthful
  have once := (runs_once path fresh).contributionsOf feedVC
  have places : (state.app.contributionsOf feedVC).map Feed.Contribution.downloadURL ⊆
      (state.world.committed.map (·.reference)).dedup.map fun reference =>
        addressOf queryAllowed state (inBucket bucket reference) := by
    intro url inside
    obtain ⟨entry,member,rfl⟩ := List.mem_map.mp inside
    obtain ⟨address,place,known,offered,share,present,same,_⟩ :=
      faithful.traced.contributions entry (List.mem_of_mem_filter member)
    refine List.mem_map.mpr ⟨share.reference,List.mem_dedup.mpr (List.mem_map.mpr ⟨share,present,rfl⟩),?_⟩
    rw [known,same]
    exact issued_address single offered.2
  have fits := (once.subperm places).length_le
  rw [faithful.valid.mirrors,List.length_map]
  simpa using fits

end Sizes

section Running

instance [DecidableEq Data] (address : Address) (data : Data) (state : State UIImage Data) [DecidableEq UIImage] :
    Decidable (Served bucket decode state address data) :=
  inferInstanceAs (Decidable (decode data = none ∨ ∃ share ∈ state.world.committed,
    StorageURLs.pathFromHTTPURL address = some (inBucket bucket share.reference) ∧ share.data = data))

instance (address : Address) (state : State UIImage Data) :
    (request : Option (Feed.Request Path Address)) → Decidable (IssuedFor queryAllowed state address request)
  | some (.downloadURL _ path) => inferInstanceAs (Decidable (∃ entry ∈ state.issued, entry.1 = path ∧
      StorageURLs.downloadURLFromMetadataDictionary queryAllowed ⟨some entry.2,path.bucket,path.object.getD []⟩ =
        some address))
  | some (.listAll _ _) | some (.dataTask _ _ _) | none => isTrue trivial

instance [DecidableEq Data] [DecidableEq UIImage] (data : Data) (state : State UIImage Data) :
    (request : Option (Feed.Request Path Address)) → Decidable (ServedFor bucket decode state data request)
  | some (.dataTask _ _ address) => inferInstanceAs (Decidable (Served bucket decode state address data))
  | some (.listAll _ _) | some (.downloadURL _ _) | none => isTrue trivial

instance [DecidableEq Data] [DecidableEq UIImage] (state : State UIImage Data) :
    (event : Event UIImage Data) → Decidable (Truthful bucket queryAllowed decode state event)
  | .fed (.page _ items _) => inferInstanceAs (Decidable (∀ path ∈ items, ∃ share ∈ state.world.committed,
      inBucket bucket share.reference = path))
  | .fed (.resolved index (some address) none) =>
    inferInstanceAs (Decidable (IssuedFor queryAllowed state address state.app.requests[index]?))
  | .fed (.downloaded index (some data) none) =>
    inferInstanceAs (Decidable (ServedFor bucket decode state data state.app.requests[index]?))
  | .fed (.resolved _ none _) | .fed (.resolved _ (some _) (some _)) | .fed (.downloaded _ none _)
  | .fed (.downloaded _ (some _) (some _)) | .fed .willConnect | .fed (.released _) | .fed (.deallocated _)
  | .fed (.viewWillAppear _) | .fed (.pageFailed _) | .fed .main | .fed (.evicted _) | .fed (.laidOut _)
  | .shared _ | .tokens _ _ => isTrue trivial

def canvas : StorageURLs.Text := ['c','a','n','v','a','s']
def drawing : Path := ⟨canvas,some (feedImagesName "One")⟩
def token : StorageURLs.Text := ['t','1']
def drawingAddress : Address :=
  (StorageURLs.downloadURLFromMetadataDictionary StorageURLs.gcsAllowed ⟨some token,canvas,feedImagesName "One"⟩).getD []

theorem canvas_setting : Setting StorageURLs.gcsAllowed canvas :=
  ⟨StorageURLs.gcsEscaping,by simp [canvas],by simp [canvas,StorageURLs.kGCSObjectAllowedCharacterSet]⟩

-- One user draws and shares, another opens the feed.
def oneShared : List (Event Nat (List Nat)) :=
  [.shared (.shareConfirmed 0 Sharing.online (some (some "One")) (some 7)),.shared (.objectPut 0),.tokens drawing token,
    .fed .willConnect,.fed (.viewWillAppear 0),.fed (.page 0 [drawing] false),.fed .main,
    .fed (.resolved 0 (some drawingAddress) none),.fed (.downloaded 0 (some (Feed.pngFile 7)) none),.fed .main]

theorem oneShared_truthful : EachStep (advance Sharing.numberedPng Feed.decodePng) start oneShared
    (Truthful canvas StorageURLs.gcsAllowed Feed.decodePng) := by
  decide +kernel

theorem feed_shows_shares_one : ∃ state, Runs (advance Sharing.numberedPng Feed.decodePng) start oneShared state ∧
    ∃ share ∈ state.world.committed, (Sharing.numberedPng share.image).bind Feed.decodePng = some 7 := by
  have path : Runs (advance Sharing.numberedPng Feed.decodePng) start oneShared _ := run_exact.mp rfl
  have shown := (feed_shows_shares canvas_setting path oneShared_truthful).2 0 (some 7) (by decide)
  obtain ⟨share,member,_,picture⟩ := shown
  exact ⟨_,path,share,member,picture⟩

instance (ok : Feed.App Path Address UIImage Data → Feed.Event Path Address Data → Prop) (state : State UIImage Data)
    [∀ app event, Decidable (ok app event)] : (event : Event UIImage Data) → Decidable (Fed ok state event)
  | .fed event => inferInstanceAs (Decidable (ok state.app event))
  | .shared _ | .tokens _ _ => isTrue trivial

instance (state : State UIImage Data) : Decidable (OneToken state) :=
  inferInstanceAs (Decidable (∀ one ∈ state.issued, ∀ two ∈ state.issued, one.1 = two.1 → one.2 = two.2))

theorem feed_size_bounded_one : ∃ state, Runs (advance Sharing.numberedPng Feed.decodePng) start oneShared state ∧
    (state.app.controllers 0).downloadedImages.length = 1 ∧
    (state.app.controllers 0).downloadedImages.length ≤ (state.world.committed.map (·.reference)).dedup.length := by
  have path : Runs (advance Sharing.numberedPng Feed.decodePng) start oneShared _ := run_exact.mp rfl
  have fresh : EachStep (advance Sharing.numberedPng Feed.decodePng) start oneShared (Fed Feed.Fresh) := by
    decide +kernel
  exact ⟨_,path,rfl,feed_size_bounded canvas_setting path oneShared_truthful fresh (by decide) 0⟩

end Running

end CanvasPainter.SharedFeed
