import CanvasPainter.FeedSteps

namespace CanvasPainter.Feed
open TransitionRuns
variable {StorageReference URL UIImage Data : Type} {decode : Data → Option UIImage}
  {app after : App StorageReference URL UIImage Data}

-- What the service says: which references it lists, which URLs it offers for one, and what pictures it has of it.
-- A URL names what it is for whether it is offered or not.
structure Tale (StorageReference URL UIImage : Type) where
  listed : StorageReference → Prop
  names : URL → StorageReference → Prop
  offers : URL → StorageReference → Prop
  shows : StorageReference → UIImage → Prop
  named : ∀ url storageRef, offers url storageRef → names url storageRef

section Tales
variable (tale : Tale StorageReference URL UIImage)

-- A body served for a URL has the picture of what the URL is for, or none.
def Serves (decode : Data → Option UIImage) (url : URL) (data : Data) : Prop :=
  ∀ image, decode data = some image → ∀ storageRef, tale.names url storageRef → tale.shows storageRef image

def RequestTraced : Request StorageReference URL → Prop
  | .listAll _ accumulated => ∀ storageRef ∈ accumulated, tale.listed storageRef
  | .downloadURL _ storageRef => tale.listed storageRef
  | .dataTask _ storageRef url => tale.offers url storageRef

def BlockTraced (decode : Data → Option UIImage) : Block StorageReference URL Data → Prop
  | .listed _ _ => True
  | .finished _ storageRef url data => tale.offers url storageRef ∧ Serves tale decode url data

-- Everything the app holds can be traced back to what the service told it.
structure Traced (decode : Data → Option UIImage) (app : App StorageReference URL UIImage Data) : Prop where
  nilKey : app.imageCache none = none
  requests : ∀ request ∈ app.requests, RequestTraced tale request
  folder : ∀ feedVC, ∀ storageRef ∈ (app.controllers feedVC).folderList.getD [], tale.listed storageRef
  blocks : ∀ block ∈ app.mainQueue, BlockTraced tale decode block
  cached : ∀ url image, app.imageCache (some url) = some image →
    ∀ storageRef, tale.names url storageRef → tale.shows storageRef image
  succeeded : ∀ entry ∈ app.succeeded, tale.shows entry.2.1 entry.2.2
  contributions : ∀ entry ∈ app.contributions, ∃ url storageRef,
    entry.downloadURL = some url ∧ tale.offers url storageRef ∧ tale.shows storageRef entry.image

def ResolvesFor (url : URL) : Option (Request StorageReference URL) → Prop
  | some (.downloadURL _ storageRef) => tale.listed storageRef → tale.offers url storageRef
  | _ => True

def ServesFor (decode : Data → Option UIImage) (data : Data) : Option (Request StorageReference URL) → Prop
  | some (.dataTask _ _ url) => Serves tale decode url data
  | _ => True

-- The service keeps to its tale.
def Told (decode : Data → Option UIImage) (app : App StorageReference URL UIImage Data) :
    Event StorageReference URL Data → Prop
  | .page _ items _ => ∀ storageRef ∈ items, tale.listed storageRef
  | .resolved index (some url) none => ResolvesFor tale url app.requests[index]?
  | .downloaded index (some data) none => ServesFor tale decode data app.requests[index]?
  | _ => True

theorem initial_traced : Traced tale decode (start : App StorageReference URL UIImage Data) :=
  ⟨rfl,by simp [start],by simp [start,FeedVC.absent],by simp [start],by simp [start],by simp [start],by simp [start]⟩

end Tales

variable {tale further : Tale StorageReference URL UIImage}

theorem folder_update {controllers : Nat → FeedVC StorageReference UIImage} {changed : FeedVC StorageReference UIImage}
    (folder : ∀ other, ∀ storageRef ∈ (controllers other).folderList.getD [], tale.listed storageRef)
    (own : ∀ storageRef ∈ changed.folderList.getD [], tale.listed storageRef) (other : Nat) :
    ∀ storageRef ∈ (Function.update controllers feedVC changed other).folderList.getD [], tale.listed storageRef := by
  by_cases same : other = feedVC
  · subst same
    simpa using own
  · simpa [same] using folder other

-- What the cache serves a resolved reference is a picture of it.
theorem Traced.hit (traced : Traced tale decode app) (told : Told tale decode app (.resolved index downloadURL error))
    (found : app.requests[index]? = some (.downloadURL feedVC storageRef)) (one : downloadURL.isSome ≠ error.isSome)
    (hit : app.imageCache downloadURL = some image) :
    ∃ url, downloadURL = some url ∧ tale.offers url storageRef ∧ tale.shows storageRef image := by
  cases downloadURL with
  | none =>
      rw [traced.nilKey] at hit
      cases hit
  | some url =>
      have quiet : error = none := by simpa using one.symm
      subst quiet
      simp only [Told,ResolvesFor,found] at told
      have offered := told (traced.requests _ (List.mem_of_getElem? found))
      exact ⟨url,rfl,offered,traced.cached url image hit storageRef (tale.named _ _ offered)⟩

-- What the service has to tell only grows.
structure Tale.Grows (tale further : Tale StorageReference URL UIImage) : Prop where
  names : further.names = tale.names
  listed : ∀ storageRef, tale.listed storageRef → further.listed storageRef
  offers : ∀ url storageRef, tale.offers url storageRef → further.offers url storageRef
  shows : ∀ storageRef image, tale.shows storageRef image → further.shows storageRef image

theorem Traced.grow (traced : Traced tale decode app) (grows : tale.Grows further) : Traced further decode app := by
  have named : ∀ {url storageRef}, further.names url storageRef → tale.names url storageRef :=
    fun named => grows.names ▸ named
  refine ⟨traced.nilKey,?_,fun feedVC storageRef inside => grows.listed _ (traced.folder feedVC storageRef inside),?_,
    fun url image hit storageRef own => grows.shows _ _ (traced.cached url image hit storageRef (named own)),
    fun entry member => grows.shows _ _ (traced.succeeded entry member),?_⟩
  · intro request member
    have told := traced.requests request member
    cases request with
    | listAll feedVC accumulated => exact fun storageRef inside => grows.listed _ (told storageRef inside)
    | downloadURL feedVC storageRef => exact grows.listed _ told
    | dataTask feedVC storageRef url => exact grows.offers _ _ told
  · intro block member
    have told := traced.blocks block member
    cases block with
    | listed feedVC listing => trivial
    | finished feedVC storageRef url data =>
        refine ⟨grows.offers _ _ told.1,fun image decoded other own => ?_⟩
        exact grows.shows _ _ (told.2 image decoded other (named own))
  · intro entry member
    obtain ⟨url,storageRef,known,offered,shown⟩ := traced.contributions entry member
    exact ⟨url,storageRef,known,grows.offers _ _ offered,grows.shows _ _ shown⟩

variable [DecidableEq URL]

theorem traced_preserved (traced : Traced tale decode app) (told : Told tale decode app event)
    (step : Step decode app event after) : Traced tale decode after := by
  have ⟨nilKey,requests,folder,blocks,cached,succeeded,contributions⟩ := traced
  have without : ∀ index, ∀ request ∈ app.requests.eraseIdx index, RequestTraced tale request :=
    fun index request member => requests request (List.mem_of_mem_eraseIdx member)
  have asked : ∀ {index} {request : Request StorageReference URL}, app.requests[index]? = some request →
      RequestTraced tale request :=
    fun found => requests _ (List.mem_of_getElem? found)
  have next : ∀ {block : Block StorageReference URL Data} {rest}, app.mainQueue = block :: rest →
      BlockTraced tale decode block ∧ ∀ other ∈ rest, BlockTraced tale decode other := by
    intro block rest front
    rw [front] at blocks
    exact List.forall_mem_cons.mp blocks
  cases step with
  | willConnect =>
      exact ⟨nilKey,requests,folder_update folder (by simp [FeedVC.initial]),blocks,cached,succeeded,contributions⟩
  | disowned => exact ⟨nilKey,requests,folder_update folder (folder _),blocks,cached,succeeded,contributions⟩
  | deallocated _ => exact ⟨nilKey,requests,folder_update folder (folder _),blocks,cached,succeeded,contributions⟩
  | viewWillAppear feedVC _ =>
      have untraced : RequestTraced tale (.listAll feedVC [] : Request StorageReference URL) := by simp [RequestTraced]
      exact ⟨nilKey,snoc_all requests untraced,folder_update folder (folder _),blocks,cached,succeeded,contributions⟩
  | nextPage feedVC found =>
      refine ⟨nilKey,?_,folder,blocks,cached,succeeded,contributions⟩
      intro request member
      rcases List.mem_or_eq_of_mem_set member with old | rfl
      · exact requests request old
      · exact List.forall_mem_append.mpr ⟨asked found,told⟩
  | lastPage feedVC found =>
      exact ⟨nilKey,without _,folder_update folder (List.forall_mem_append.mpr ⟨asked found,told⟩),
        snoc_all blocks trivial,cached,succeeded,contributions⟩
  | pageFailed feedVC found =>
      exact ⟨nilKey,without _,folder_update (folder_update folder (by simp)) (asked found),
        snoc_all (snoc_all blocks trivial) trivial,cached,succeeded,contributions⟩
  | served index feedVC downloadURL found one hit empty =>
      obtain ⟨url,known,named,shown⟩ := traced.hit told found one hit
      exact ⟨nilKey,without _,folder_update folder (folder _),blocks,cached,snoc_all succeeded shown,
        snoc_all contributions ⟨url,_,known,named,shown⟩⟩
  | passedOver feedVC found one hit _ =>
      obtain ⟨_,_,_,shown⟩ := traced.hit told found one hit
      exact ⟨nilKey,without _,folder,blocks,cached,snoc_all succeeded shown,contributions⟩
  | unresolved found => exact ⟨nilKey,without _,folder,blocks,cached,succeeded,contributions⟩
  | downloadStarted index feedVC url found missed =>
      have listed : RequestTraced tale (.downloadURL feedVC _) := asked found
      simp only [Told,ResolvesFor,found] at told
      have traced : RequestTraced tale (.dataTask feedVC _ url) := told listed
      exact ⟨nilKey,snoc_all (without _) traced,folder,blocks,cached,succeeded,contributions⟩
  | downloadFinished feedVC url found =>
      simp only [Told,ServesFor,found] at told
      have offered : RequestTraced tale (.dataTask feedVC _ url) := asked found
      exact ⟨nilKey,without _,folder,snoc_all blocks ⟨offered,told⟩,cached,succeeded,contributions⟩
  | downloadFailed found => exact ⟨nilKey,without _,folder,blocks,cached,succeeded,contributions⟩
  | loaded feedVC front =>
      refine ⟨nilKey,?_,folder_update folder (folder _),(next front).2,cached,succeeded,contributions⟩
      refine List.forall_mem_append.mpr ⟨requests,fun request member => ?_⟩
      obtain ⟨refer,inside,rfl⟩ := List.mem_map.mp member
      exact folder feedVC refer inside
  | orphaned front _ => exact ⟨nilKey,requests,folder,(next front).2,cached,succeeded,contributions⟩
  | undecoded front _ => exact ⟨nilKey,requests,folder,(next front).2,cached,succeeded,contributions⟩
  | appended feedVC url front living decoded =>
      obtain ⟨⟨offered,serves⟩,waiting⟩ := next front
      have shown := serves _ decoded _ (tale.named _ _ offered)
      refine ⟨nilKey,requests,folder_update (folder_update folder (folder _)) ?_,waiting,?_,snoc_all succeeded shown,
        snoc_all contributions ⟨url,_,rfl,offered,shown⟩⟩
      · simpa [App.contribute,App.modify,App.setObject,FeedVC.reloadData,FeedVC.append] using folder feedVC
      · intro other image hit
        change Function.update app.imageCache (some url) (some _) (some other) = some image at hit
        by_cases same : other = url
        · subst same
          rw [Function.update_self] at hit
          cases hit
          exact serves _ decoded
        · rw [Function.update_of_ne (by simpa using same)] at hit
          exact cached other image hit
  | @evicted key =>
      have kept : ∀ other image, (app.setObject key none).imageCache other = some image → app.imageCache other = some image := by
        intro other image hit
        by_cases same : other = key
        · subst same
          simp [App.setObject] at hit
        · simpa [App.setObject,same] using hit
      refine ⟨?_,requests,folder,blocks,fun url image hit => cached url image (kept _ _ hit),succeeded,contributions⟩
      refine Option.eq_none_iff_forall_ne_some.mpr fun image hit => ?_
      have earlier := kept none image hit
      rw [nilKey] at earlier
      cases earlier
  | laidOut =>
      refine ⟨nilKey,requests,folder_update folder ?_,blocks,cached,succeeded,contributions⟩
      unfold FeedVC.layoutSubviews
      split <;> exact folder _

end CanvasPainter.Feed
