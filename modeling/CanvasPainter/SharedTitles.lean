import CanvasPainter.SeparatedComponents
import CanvasPainter.ShareUpload

namespace CanvasPainter
open SeparatedComponents CanvasDrawVC

-- The reader's side: FeedVC lists the reference child("FeedImages").
def feedReference : FIRStoragePath := FIRStoragePath.root.child feedImages

-- What listAll hands out as an item of the folder is directly under it.
def FeedItem (reference : FIRStoragePath) : Prop :=
  ∃ folder object, feedReference.object = some folder ∧ reference.object = some object ∧ DirectlyIn folder object

-- How much of a typed title its object's name keeps.
def keptTitle (title : String) : List Char := squeeze '/' true title.toList

theorem feedReference_object : feedReference.object = some feedImages := by decide

theorem standardized_rejoin : FIRStoragePath.standardizedPathForString string = rejoin '/' string := rfl

theorem title_object : (FIRStoragePath.root.child (feedImagesName title)).object =
    some (feedImages ++ '/' :: (keptTitle title ++ pngExtension)) := by
  have long : (feedImagesName title).length ≠ 0 := by simp [feedImagesName]
  have parts : feedImagesName title = (feedImages ++ '/' :: title.toList) ++ pngExtension := by simp [feedImagesName]
  have joined : rejoin '/' (feedImagesName title) = feedImages ++ '/' :: (keptTitle title ++ pngExtension) := by
    rw [parts,rejoin_append (by simp [pngExtension]) (by simp [pngExtension]),
      squeeze_folder (by simp [feedImages]) (by simp [feedImages]),List.append_assoc,List.cons_append,keptTitle]
  simp only [FIRStoragePath.child,long,if_false,FIRStoragePath.root,FIRStoragePath.initWithObject,Option.map,
    standardized_rejoin,joined]

theorem directlyIn_append : DirectlyIn folder (folder ++ '/' :: name) ↔ name ≠ [] ∧ '/' ∉ name := by
  constructor
  · intro ⟨other,nonempty,plain,same⟩
    have equal := (List.cons.inj (List.append_cancel_left same)).2
    rw [equal]
    exact ⟨nonempty,plain⟩
  · intro ⟨nonempty,plain⟩
    exact ⟨name,nonempty,plain,rfl⟩

theorem title_feedItem : FeedItem (FIRStoragePath.root.child (feedImagesName title)) ↔
    '/' ∉ title.toList.dropWhile (· = '/') := by
  rw [← squeeze_leading]
  constructor
  · rintro ⟨folder,object,reads,writes,direct⟩
    rw [feedReference_object] at reads
    rw [title_object] at writes
    cases reads
    cases writes
    have plain := (directlyIn_append.mp direct).2
    exact fun inside => plain (List.mem_append_left _ inside)
  · intro plain
    refine ⟨_,_,feedReference_object,title_object,directlyIn_append.mpr ⟨by simp [pngExtension],?_⟩⟩
    simpa [pngExtension,keptTitle] using plain

theorem title_same : FIRStoragePath.root.child (feedImagesName one) = FIRStoragePath.root.child (feedImagesName two) ↔
    keptTitle one = keptTitle two := by
  constructor
  · intro same
    have objects := congrArg FIRStoragePath.object same
    rw [title_object,title_object] at objects
    have names := (List.cons.inj (List.append_cancel_left (Option.some.inj objects))).2
    exact List.append_cancel_right names
  · intro same
    have objects : (FIRStoragePath.root.child (feedImagesName one)).object =
        (FIRStoragePath.root.child (feedImagesName two)).object := by
      rw [title_object,title_object,same]
    cases first : FIRStoragePath.root.child (feedImagesName one)
    cases second : FIRStoragePath.root.child (feedImagesName two)
    rw [first,second] at objects
    exact congrArg FIRStoragePath.mk objects

variable {UIImage Data : Type} {pngData : UIImage → Option Data}

theorem titles_shared_iff
    (first : FBUploadManager pngData firstReachability one firstImage = .putData firstReference firstData)
    (second : FBUploadManager pngData secondReachability two secondImage = .putData secondReference secondData) :
    (FeedItem firstReference ↔ '/' ∉ one.toList.dropWhile (· = '/')) ∧
    ((one ≠ two → firstReference ≠ secondReference) ↔ (one ≠ two → keptTitle one ≠ keptTitle two)) := by
  obtain ⟨rfl,_⟩ := FBUploadManager_putData first
  obtain ⟨rfl,_⟩ := FBUploadManager_putData second
  refine ⟨title_feedItem,?_⟩
  rw [ne_eq (FIRStoragePath.root.child _),title_same]

theorem titles_shared_iff_leading :
    FeedItem ⟨some ("FeedImages/Sunset.png".toList)⟩ ∧
    FBUploadManager some (.flags 2) "/Sunset" 1 = .putData ⟨some "FeedImages/Sunset.png".toList⟩ 1 ∧
    ("/Sunset" ≠ "Sun//set" → FIRStoragePath.mk (some "FeedImages/Sunset.png".toList) ≠
      ⟨some "FeedImages/Sun/set.png".toList⟩) := by
  have first : FBUploadManager some (.flags 2) "/Sunset" 1 = .putData ⟨some "FeedImages/Sunset.png".toList⟩ 1 := by decide
  have second : FBUploadManager some (.flags 2) "Sun//set" 2 = .putData ⟨some "FeedImages/Sun/set.png".toList⟩ 2 := by
    decide
  obtain ⟨direct,apart⟩ := titles_shared_iff first second
  exact ⟨direct.mpr (by decide),first,apart.mpr (fun _ => by decide)⟩

-- A slash inside a title hides its object from the feed, one in front of it makes it another title's.
theorem slashes_collide :
    FBUploadManager some (.flags 2) "Sketch 1/2" 1 = .putData ⟨some "FeedImages/Sketch 1/2.png".toList⟩ 1 ∧
    ¬FeedItem ⟨some "FeedImages/Sketch 1/2.png".toList⟩ ∧
    FBUploadManager some (.flags 2) "Sunset" 1 = .putData ⟨some "FeedImages/Sunset.png".toList⟩ 1 ∧
    FBUploadManager some (.flags 2) "/Sunset" 2 = .putData ⟨some "FeedImages/Sunset.png".toList⟩ 2 ∧
    "Sunset" ≠ "/Sunset" := by
  refine ⟨by decide,?_,by decide,by decide,by decide⟩
  rintro ⟨folder,object,reads,writes,direct⟩
  rw [feedReference_object] at reads
  cases reads
  cases writes
  have name : DirectlyIn feedImages (feedImages ++ '/' :: "Sketch 1/2.png".toList) := direct
  exact (directlyIn_append.mp name).2 (by decide)

end CanvasPainter
