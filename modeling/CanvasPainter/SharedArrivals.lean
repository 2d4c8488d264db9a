import CanvasPainter.FeedDeliveries
import CanvasPainter.SharedFeed
import CanvasPainter.StorageListing

namespace CanvasPainter.SharedFeed
open TransitionRuns SeparatedComponents DelimitedListing
variable {UIImage Data : Type} {pngData : UIImage → Option Data} {decode : Data → Option UIImage}
  {queryAllowed : Char → Bool} {bucket : StorageURLs.Text} {state : State UIImage Data}

section Arrivals

theorem runs_delivered (path : Runs (advance pngData decode) start events state)
    (welcome : EachStep (advance pngData decode) start events (Fed Feed.Welcome)) : Feed.Delivered state.app :=
  (fed_run path).guarded Feed.initial_delivered
    (fun _ _ _ good ok accepted => Feed.delivered_preserved good ok (Feed.advance_step accepted).2) (fed_each path welcome)

theorem runs_arrived (path : Runs (advance pngData decode) start events state)
    (smooth : EachStep (advance pngData decode) start events (Fed Feed.Smooth))
    (own : EachStep (advance pngData decode) start events (Fed Feed.OwnItems)) (running : state.app.trapped = none)
    (quiet : Feed.Quiet state.app feedVC) :
    ((state.app.listings.filter (·.1 = feedVC)).flatMap (·.2)).Perm
      ((state.app.succeeded.filter (·.1 = feedVC)).map (·.2.1)) :=
  Feed.quiet_arrivals (Feed.runs_balanced (fed_run path) (fed_each path smooth) running)
    (Feed.runs_loading (fed_run path) (fed_each path own)).own quiet

-- Once nothing of a feed is under way, everything it was ever listed is shown, as somebody shared it.
theorem listed_shares_shown (setting : Setting queryAllowed bucket) (path : Runs (advance pngData decode) start events state)
    (truthful : EachStep (advance pngData decode) start events (Truthful bucket queryAllowed decode))
    (smooth : EachStep (advance pngData decode) start events (Fed Feed.Smooth))
    (own : EachStep (advance pngData decode) start events (Fed Feed.OwnItems))
    (welcome : EachStep (advance pngData decode) start events (Fed Feed.Welcome))
    (running : state.app.trapped = none) (quiet : Feed.Quiet state.app feedVC) :
    ∀ listing ∈ state.app.listings, listing.1 = feedVC → ∀ place ∈ listing.2,
      ∃ share ∈ state.world.committed, inBucket bucket share.reference = place ∧
        ∃ image, (pngData share.image).bind decode = some image ∧
          some image ∈ (state.app.controllers feedVC).downloadedImages := by
  intro listing member mine place listed
  have faithful := runs_faithful setting path truthful
  have all : place ∈ (state.app.listings.filter (·.1 = feedVC)).flatMap (·.2) :=
    List.mem_flatMap.mpr ⟨listing,List.mem_filter.mpr ⟨member,by simpa using mine⟩,listed⟩
  have arrived := (runs_arrived path smooth own running quiet).mem_iff.mp all
  obtain ⟨⟨owner,item,image⟩,success,rfl⟩ := List.mem_map.mp arrived
  obtain ⟨success,same⟩ := List.mem_filter.mp success
  have owned : owner = feedVC := of_decide_eq_true same
  obtain ⟨share,present,stored,picture⟩ := faithful.picture (faithful.traced.succeeded _ success)
  exact ⟨share,present,stored,image,picture,owned ▸ (runs_delivered path welcome).arrived _ _ _ success⟩

theorem listed_shares_shown_one : ∃ state, Runs (advance Sharing.numberedPng Feed.decodePng) start oneShared state ∧
    ∃ share ∈ state.world.committed, inBucket canvas share.reference = drawing ∧
      ∃ image, (Sharing.numberedPng share.image).bind Feed.decodePng = some image ∧
        some image ∈ (state.app.controllers 0).downloadedImages := by
  have path : Runs (advance Sharing.numberedPng Feed.decodePng) start oneShared _ := run_exact.mp rfl
  have smooth : EachStep (advance Sharing.numberedPng Feed.decodePng) start oneShared (Fed Feed.Smooth) := by
    decide +kernel
  have own : EachStep (advance Sharing.numberedPng Feed.decodePng) start oneShared (Fed Feed.OwnItems) := by
    decide +kernel
  have welcome : EachStep (advance Sharing.numberedPng Feed.decodePng) start oneShared (Fed Feed.Welcome) := by
    decide +kernel
  exact ⟨_,path,listed_shares_shown canvas_setting path oneShared_truthful smooth own welcome rfl (by decide)
    (0,[drawing]) List.mem_cons_self rfl drawing List.mem_cons_self⟩

end Arrivals

section Listings
open StorageURLs.Listing
variable {world : Sharing.World UIImage Data} {frs_dictionaryFromJSONData : NSData → Option ResponseDictionary}

-- The names of the objects that shares have put.
def objectNames (world : Sharing.World UIImage Data) : List StorageURLs.Text :=
  (world.committed.filterMap fun share => share.reference.object).dedup

def feedFolder (bucket : StorageURLs.Text) : Path := inBucket bucket feedReference

theorem sharedName_components (title : String) :
    components '/' (sharedName title) = feedImages :: components '/' (keptTitle title ++ pngExtension) := by
  rw [sharedName,components_append,components_single (by simp [feedImages]) (by simp [feedImages])]
  rfl

theorem feedFolder_components : components '/' (fullPath (feedFolder bucket)) = [feedImages] := by
  have folder : fullPath (feedFolder bucket) = feedImages := by simp [fullPath,feedFolder,inBucket,feedReference_object]
  rw [folder,components_single (by simp [feedImages]) (by simp [feedImages])]

-- A title's object is directly in the folder when the title has no slash behind its leading ones.
theorem directly_shared (title : String) : DirectlyUnder (feedFolder bucket) ⟨bucket,some (sharedName title)⟩ ↔
    '/' ∉ title.toList.dropWhile (· = '/') := by
  have plain : '/' ∉ keptTitle title ++ pngExtension ↔ '/' ∉ title.toList.dropWhile (· = '/') := by
    rw [← squeeze_leading]
    simp [keptTitle,pngExtension]
  rw [← plain,DirectlyUnder,feedFolder_components]
  constructor
  · intro direct
    obtain ⟨_,single,split⟩ := direct
    have parts : components '/' (sharedName title) = [feedImages] ++ [single] := Option.some.inj split
    have absent : '/' ∉ single := (components_plain (parts ▸ List.mem_append_right _ List.mem_cons_self)).2
    have whole : ['/'].intercalate (components '/' (sharedName title)) = sharedName title := sharedName_rejoin title
    rw [parts,intercalate_last _ (by simp),List.intercalate_singleton] at whole
    rw [← (List.cons.inj (List.append_cancel_left whole)).2]
    exact absent
  · intro absent
    refine ⟨rfl,keptTitle title ++ pngExtension,congrArg some ?_⟩
    rw [sharedName_components,components_single (by simp [pngExtension]) absent]
    rfl

theorem stored_shared (consistent : Sharing.Consistent pngData world) (path : Path) :
    Stored (objectNames world) path ∧ DirectlyUnder (feedFolder bucket) path ↔
      ∃ share ∈ world.committed, '/' ∉ share.title.toList.dropWhile (· = '/') ∧ inBucket bucket share.reference = path := by
  constructor
  · intro ⟨⟨object,stored,known⟩,direct⟩
    obtain ⟨share,member,name⟩ := List.mem_filterMap.mp (List.mem_dedup.mp stored)
    have same : inBucket bucket share.reference = path := by
      have own : path.bucket = bucket := direct.1
      cases path
      simp_all [inBucket]
    refine ⟨share,member,?_,same⟩
    rw [← same,encoded_name (consistent.committed share member)] at direct
    exact (directly_shared share.title).mp direct
  · intro ⟨share,member,plain,same⟩
    have object := encoded_object (consistent.committed share member)
    rw [← same,encoded_name (consistent.committed share member)]
    refine ⟨⟨_,List.mem_dedup.mpr (List.mem_filterMap.mpr ⟨share,member,object⟩),rfl⟩,?_⟩
    exact (directly_shared share.title).mpr plain

theorem objectNames_valid (consistent : Sharing.Consistent pngData world) :
    ∀ name ∈ objectNames world, name ≠ [] ∧ Tidy '/' name := by
  intro name stored
  obtain ⟨share,member,known⟩ := List.mem_filterMap.mp (List.mem_dedup.mp stored)
  have own : some name = some (sharedName share.title) :=
    known.symm.trans (encoded_object (consistent.committed share member))
  cases own
  exact ⟨by simp [sharedName,feedImages],sharedName_rejoin share.title⟩

-- However the service pages it, the feed's listing finds every object shared under a title without an inner slash,
-- once, and no other.
theorem feed_lists_shares (bucket : StorageURLs.Text) (frs_dictionaryFromJSONData : NSData → Option ResponseDictionary)
    (path : Runs (Sharing.advance pngData) Sharing.start events world) (lists : Lists serve (objectNames world)) :
    ∃ count, ∀ replies listing,
      Runs (StorageURLs.Listing.advance frs_dictionaryFromJSONData) (listAll (feedFolder bucket)) replies listing →
      EachStep (StorageURLs.Listing.advance frs_dictionaryFromJSONData) (listAll (feedFolder bucket)) replies
        (StorageURLs.Listing.Truthful frs_dictionaryFromJSONData serve) →
      (listing.task = none ↔ replies.length = count) ∧
      (listing.task = none → ∃ result, listing.completions = [(some result,none)] ∧ result.items.Nodup ∧
        ∀ place, place ∈ result.items ↔ ∃ share ∈ world.committed,
          '/' ∉ share.title.toList.dropWhile (· = '/') ∧ inBucket bucket share.reference = place) := by
  have consistent := Sharing.runs_consistent path
  have canonical : StorageURLs.Canonical (feedFolder bucket) := by
    rw [feedFolder,feedReference,inBucket_child]
    exact StorageURLs.child_canonical
  obtain ⟨count,items,folders,pages,own,lead⟩ := lists (requestFor (feedFolder bucket) none) rfl rfl rfl
  rw [requestFor_inside] at own lead
  have complete := served_complete canonical (List.nodup_dedup _) (objectNames_valid consistent) own lead
  refine ⟨count,fun replies listing run truthful => ?_⟩
  cases runs_reading pages run truthful with
  | going _ left _ _ pending _ _ later remaining =>
      have more := later.some_left
      have busy : listing.task ≠ none := by simp [pending]
      exact ⟨iff_of_false busy (by omega),fun idle => absurd idle busy⟩
  | done idle all completions =>
      refine ⟨iff_of_true idle all,fun _ => ⟨_,completions,complete.2.1.1,fun place => ?_⟩⟩
      rw [complete.2.1.2 place]
      exact stored_shared consistent place

-- The pages of a folder with one drawing, as they come over the wire:
-- {"prefixes":[],"items":[{"name":"FeedImages/One.png"}],"nextPageToken":"t"} and {"items":[]}.
def drawingPage : NSData :=
  [123,34,112,114,101,102,105,120,101,115,34,58,91,93,44,34,105,116,101,109,115,34,58,91,123,34,110,97,109,
    101,34,58,34,70,101,101,100,73,109,97,103,101,115,47,79,110,101,46,112,110,103,34,125,93,44,34,110,101,
    120,116,80,97,103,101,84,111,107,101,110,34,58,34,116,34,125]
def emptyPage : NSData :=
  [123,34,105,116,101,109,115,34,58,91,93,125]

def readDrawing (data : NSData) : Option ResponseDictionary :=
  if data = drawingPage then some ⟨some [],some [feedImagesName "One"],some ['t']⟩
  else if data = emptyPage then some ⟨none,some [],none⟩
  else none

theorem feed_lists_shares_one : ∃ world listing result,
    Runs (Sharing.advance Sharing.numberedPng) Sharing.start
      [.shareConfirmed 0 Sharing.online (some (some "One")) (some 7),.objectPut 0,.completed 0 none] world ∧
    Runs (StorageURLs.Listing.advance readDrawing) (listAll (feedFolder canvas))
      [⟨some drawingPage,none⟩,⟨some emptyPage,none⟩] listing ∧
    listing.completions = [(some result,none)] ∧
    ∀ place, place ∈ result.items ↔ ∃ share ∈ world.committed,
      '/' ∉ share.title.toList.dropWhile (· = '/') ∧ inBucket canvas share.reference = place := by
  have path : Runs (Sharing.advance Sharing.numberedPng) Sharing.start
      [.shareConfirmed 0 Sharing.online (some (some "One")) (some 7),.objectPut 0,.completed 0 none] _ := run_exact.mp rfl
  obtain ⟨_,all⟩ := feed_lists_shares canvas readDrawing path serveTwo_lists
  have run : Runs (StorageURLs.Listing.advance readDrawing) (listAll (feedFolder canvas))
      [⟨some drawingPage,none⟩,⟨some emptyPage,none⟩] _ := run_exact.mp rfl
  obtain ⟨result,completions,_,exact⟩ := (all _ _ run (by decide +kernel)).2 rfl
  exact ⟨_,_,result,path,run,completions,exact⟩

end Listings

end CanvasPainter.SharedFeed
