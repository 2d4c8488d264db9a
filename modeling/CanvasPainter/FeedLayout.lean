import CanvasPainter.FeedArrival

namespace CanvasPainter

structure FeedCell (UIImage : Type) where
  img : Option UIImage
  deriving DecidableEq, Repr

-- `named` is UIImage(named:).
def FeedCell.Setup (named : String → Option UIImage) : FeedCell UIImage := ⟨named "Placeholder"⟩

-- `cell` is what was dequeued, as it is; none is an index out of range.
def FeedVC.cellForItemAt (named : String → Option UIImage) (feedVC : FeedVC StorageReference UIImage)
    (cell : FeedCell UIImage) (row : Nat) : Option (FeedCell UIImage) :=
  if feedVC.downloadedImages.length > 0 then
    feedVC.downloadedImages[row]?.map fun image => if image.isSome then {cell with img := image} else cell
  else some {cell with img := named "Placeholder"}

theorem FeedVC.cellForItemAt_shows {feedVC : FeedVC StorageReference UIImage}
    (found : feedVC.downloadedImages[row]? = some (some image)) :
    feedVC.cellForItemAt named cell row = some {cell with img := some image} := by
  have below := (List.getElem?_eq_some_iff.mp found).1
  have nonempty : feedVC.downloadedImages.length > 0 := by omega
  rw [cellForItemAt,if_pos nonempty,found]
  rfl

-- The collection view was last told no more items than there are, or exactly these where it is not due again.
def FeedVC.Counted (feedVC : FeedVC StorageReference UIImage) : Prop :=
  feedVC.collectionView.numberOfItems ≤ feedVC.downloadedImages.length

def FeedVC.Shown (feedVC : FeedVC StorageReference UIImage) : Prop :=
  feedVC.collectionView.needsReload = false → feedVC.collectionView.numberOfItems = feedVC.downloadedImages.length

theorem FeedVC.reloadData_shown (feedVC : FeedVC StorageReference UIImage) : feedVC.reloadData.Shown := by
  simp [Shown,reloadData]

theorem FeedVC.layoutSubviews_counted {feedVC : FeedVC StorageReference UIImage} (counted : feedVC.Counted) :
    feedVC.layoutSubviews.Counted := by
  unfold layoutSubviews
  split
  · exact Nat.le_refl _
  · exact counted

theorem FeedVC.layoutSubviews_shown {feedVC : FeedVC StorageReference UIImage} (shown : feedVC.Shown) :
    feedVC.layoutSubviews.Shown := by
  unfold layoutSubviews
  split
  · exact fun _ => rfl
  · exact shown

theorem FeedVC.append_counted {feedVC : FeedVC StorageReference UIImage} (counted : feedVC.Counted) :
    (feedVC.append image).Counted := by
  have grown : (feedVC.append image).downloadedImages.length = feedVC.downloadedImages.length + 1 := by simp
  unfold Counted at counted ⊢
  rw [grown]
  exact Nat.le_succ_of_le counted

namespace Feed
open TransitionRuns
variable {StorageReference URL UIImage Data : Type} {decode : Data → Option UIImage}
  {app middle after : App StorageReference URL UIImage Data}

-- The append of the cache's image is followed by no reloadData of its own.
def DueFor (app : App StorageReference URL UIImage Data) (downloadURL : Option URL) :
    Option (Request StorageReference URL) → Prop
  | some (.downloadURL feedVC _) => (app.imageCache downloadURL).isSome = true →
      (app.controllers feedVC).downloadedImages.length = 0 → (app.controllers feedVC).collectionView.needsReload = true
  | _ => True

def Due (app : App StorageReference URL UIImage Data) : Event StorageReference URL Data → Prop
  | .resolved index downloadURL _ => DueFor app downloadURL app.requests[index]?
  | _ => True

theorem update_good {good : FeedVC StorageReference UIImage → Prop}
    {controllers : Nat → FeedVC StorageReference UIImage} (all : ∀ other, good (controllers other)) (here : good changed) :
    ∀ other, good (Function.update controllers feedVC changed other) :=
  (Function.forall_update_iff controllers fun _ => good).mpr ⟨here,fun other _ => all other⟩

theorem Valid.image (valid : Valid app) (below : row < (app.controllers feedVC).downloadedImages.length) :
    ∃ image, (app.controllers feedVC).downloadedImages[row]? = some (some image) := by
  rw [valid.mirrors] at below ⊢
  rw [List.length_map] at below
  exact ⟨(app.contributionsOf feedVC)[row].image,by simp [below]⟩

def AllShown (app : App StorageReference URL UIImage Data) : Prop := ∀ feedVC, (app.controllers feedVC).Shown

theorem initial_shown : AllShown (start : App StorageReference URL UIImage Data) :=
  fun _ again => absurd again (by simp [start,FeedVC.absent])

variable [DecidableEq URL]

-- What each change of a controller keeps, every step keeps of all of them.
theorem controllers_step {good : FeedVC StorageReference UIImage → Prop}
    (fresh : good .initial)
    (marked : ∀ feedVC folderList owned alive, good feedVC →
      good ⟨folderList,feedVC.downloadedImages,feedVC.collectionView,owned,alive⟩)
    (reloaded : ∀ feedVC, good feedVC → good feedVC.reloadData)
    (laid : ∀ feedVC, good feedVC → good feedVC.layoutSubviews)
    (appended : ∀ feedVC image, good feedVC → good (feedVC.append image).reloadData)
    (served : ∀ index downloadURL error feedVC storageRef image, event = .resolved index downloadURL error →
      app.requests[index]? = some (.downloadURL feedVC storageRef) → app.imageCache downloadURL = some image →
      (app.controllers feedVC).downloadedImages = [] → good ((app.controllers feedVC).append image))
    (all : ∀ feedVC, good (app.controllers feedVC)) (step : Step decode app event after) :
    ∀ feedVC, good (after.controllers feedVC) := by
  have completed : ∀ (before : App StorageReference URL UIImage Data) feedVC items,
      (∀ other, good (before.controllers other)) → ∀ other, good ((before.listAllCompletion feedVC items).controllers other) :=
    fun before feedVC items all => update_good all (marked _ _ _ _ (all feedVC))
  cases step with
  | willConnect => exact update_good all fresh
  | disowned => exact update_good all (marked _ _ _ _ (all _))
  | deallocated _ => exact update_good all (marked _ _ _ _ (all _))
  | viewWillAppear _ _ => exact update_good all (reloaded _ (all _))
  | lastPage _ _ => exact completed _ _ _ all
  | pageFailed _ _ => exact completed _ _ _ (completed _ _ _ all)
  | served index feedVC downloadURL found one hit empty =>
      exact update_good all (served index downloadURL _ feedVC _ _ rfl found hit empty)
  | loaded _ _ => exact update_good all (reloaded _ (all _))
  | appended feedVC url front living decoded =>
      rename_i image
      have once : ∀ other, good (Function.update app.controllers feedVC
          ((app.controllers feedVC).append image).reloadData other) := update_good all (appended _ image (all feedVC))
      simpa [App.succeed,App.modify,App.setObject,App.contribute] using once
  | laidOut => exact update_good all (laid _ (all _))
  | _ => exact all

theorem counted_preserved (all : ∀ feedVC, (app.controllers feedVC).Counted) (step : Step decode app event after) :
    ∀ feedVC, (after.controllers feedVC).Counted := by
  refine controllers_step ?_ ?_ ?_ ?_ ?_ ?_ all step
  · exact Nat.le_refl _
  · exact fun _ _ _ _ counted => counted
  · exact fun _ counted => counted
  · exact fun _ counted => FeedVC.layoutSubviews_counted counted
  · exact fun _ _ counted => FeedVC.append_counted counted
  · exact fun _ _ _ feedVC _ _ _ _ _ _ => FeedVC.append_counted (all feedVC)

theorem shown_preserved (all : AllShown app) (due : Due app event) (step : Step decode app event after) :
    AllShown after := by
  refine controllers_step ?_ ?_ ?_ ?_ ?_ ?_ all step
  · exact fun again => absurd again (by simp [FeedVC.initial])
  · exact fun _ _ _ _ shown => shown
  · exact fun feedVC _ => feedVC.reloadData_shown
  · exact fun _ shown => FeedVC.layoutSubviews_shown shown
  · exact fun _ _ _ => FeedVC.reloadData_shown _
  · rintro index downloadURL error feedVC storageRef image rfl found hit empty
    simp only [Due,DueFor,found] at due
    have again := due (by simp [hit]) (by simp [empty])
    intro clean
    change (app.controllers feedVC).collectionView.needsReload = false at clean
    rw [again] at clean
    cases clean

theorem runs_counted (path : Runs (advance decode) start events app) : ∀ feedVC, (app.controllers feedVC).Counted :=
  path.invariant (fun _ => Nat.le_refl _) fun _ _ _ all accepted => counted_preserved all (advance_step accepted).2

theorem images_kept_along (valid : Valid middle) (onward : Runs (advance decode) middle later app) (feedVC : Nat) :
    (middle.controllers feedVC).downloadedImages <+: (app.controllers feedVC).downloadedImages := by
  have grown : Valid app ∧ (middle.controllers feedVC).downloadedImages <+: (app.controllers feedVC).downloadedImages := by
    apply onward.invariant ⟨valid,List.prefix_refl _⟩
    intro before event next ⟨valid,front⟩ accepted
    have step := (advance_step accepted).2
    exact ⟨valid_preserved valid step,front.trans (images_grow valid step feedVC)⟩
  exact grown.2

instance (app : App StorageReference URL UIImage Data) (downloadURL : Option URL) :
    (request : Option (Request StorageReference URL)) → Decidable (DueFor app downloadURL request)
  | some (.downloadURL feedVC _) => inferInstanceAs (Decidable ((app.imageCache downloadURL).isSome = true →
      (app.controllers feedVC).downloadedImages.length = 0 →
      (app.controllers feedVC).collectionView.needsReload = true))
  | some (.listAll _ _) => isTrue trivial
  | some (.dataTask _ _ _) => isTrue trivial
  | none => isTrue trivial

instance (app : App StorageReference URL UIImage Data) :
    (event : Event StorageReference URL Data) → Decidable (Due app event)
  | .resolved index downloadURL _ => inferInstanceAs (Decidable (DueFor app downloadURL app.requests[index]?))
  | .willConnect | .released _ | .deallocated _ | .viewWillAppear _ | .page _ _ _ | .pageFailed _ | .downloaded _ _ _
  | .main | .evicted _ | .laidOut _ => isTrue trivial

theorem layouts_catch_up
    (due : EachStep (advance decode) (start : App StorageReference URL UIImage Data) events Due) :
    Throughout (advance decode) start events fun app => ∀ feedVC, Quiet app feedVC →
      (app.controllers feedVC).collectionView.needsReload = false →
      (app.controllers feedVC).collectionView.numberOfItems = (app.controllers feedVC).downloadedImages.length := by
  intro earlier app front path feedVC _
  obtain ⟨later,rfl⟩ := front
  have shown : AllShown app := path.guarded initial_shown
    (fun _ _ _ all ok accepted => shown_preserved all ok (advance_step accepted).2) due.front
  exact shown feedVC

theorem layouts_catch_up_second_scene :
    ∃ app, Runs (advance decodePng) (start : App String Nat Nat (List Nat)) [.willConnect,.viewWillAppear 0,
        .page 0 ["a"] false,.main,.resolved 0 (some 1) none,.downloaded 0 (some (pngFile 7)) none,.main,.laidOut 0,
        .willConnect,.viewWillAppear 1,.page 0 ["a"] false,.main,.resolved 0 (some 1) none,.laidOut 1] app ∧
      Quiet app 1 ∧ (app.controllers 1).collectionView.numberOfItems = (app.controllers 1).downloadedImages.length := by
  have path : Runs (advance decodePng) (start : App String Nat Nat (List Nat)) [.willConnect,.viewWillAppear 0,
      .page 0 ["a"] false,.main,.resolved 0 (some 1) none,.downloaded 0 (some (pngFile 7)) none,.main,.laidOut 0,
      .willConnect,.viewWillAppear 1,.page 0 ["a"] false,.main,.resolved 0 (some 1) none,.laidOut 1] _ := run_exact.mp rfl
  exact ⟨_,path,by decide,(layouts_catch_up (by decide)).final path 1 (by decide) rfl⟩

-- The second scene's list lays out after its block's reload, and only then is the cached image appended.
theorem cached_image_unshown :
    ∃ app, Runs (advance decodePng) (start : App String Nat Nat (List Nat)) [.willConnect,.viewWillAppear 0,
        .page 0 ["a"] false,.main,.resolved 0 (some 1) none,.downloaded 0 (some (pngFile 7)) none,.main,.laidOut 0,
        .willConnect,.viewWillAppear 1,.page 0 ["a"] false,.main,.laidOut 1,.resolved 0 (some 1) none,.laidOut 1] app ∧
      Quiet app 1 ∧ (app.controllers 1).collectionView = ⟨0,false⟩ ∧ (app.controllers 1).downloadedImages = [some 7] ∧
      (app.controllers 1).collectionView.numberOfItems ≠ (app.controllers 1).downloadedImages.length :=
  ⟨_,run_exact.mp rfl,by decide,rfl,rfl,by decide⟩

theorem cells_show_images (asked : Runs (advance decode) (start : App StorageReference URL UIImage Data) earlier middle)
    (onward : Runs (advance decode) middle later app)
    (below : row < (middle.controllers feedVC).numberOfItemsInSection ∨
      row < (app.controllers feedVC).collectionView.numberOfItems) :
    ∃ image, (app.controllers feedVC).downloadedImages[row]? = some (some image) ∧
      ∀ named cell, (app.controllers feedVC).cellForItemAt named cell row = some {cell with img := some image} := by
  have path := asked.append onward
  have bound : row < (app.controllers feedVC).downloadedImages.length := by
    rcases below with query | layout
    · exact Nat.lt_of_lt_of_le query (images_kept_along (runs_valid asked) onward feedVC).length_le
    · exact Nat.lt_of_lt_of_le layout (runs_counted path feedVC)
  obtain ⟨image,found⟩ := (runs_valid path).image bound
  exact ⟨image,found,fun _ _ => FeedVC.cellForItemAt_shows found⟩

theorem cells_show_images_reused :
    ∃ (middle app : App String Nat Nat (List Nat)), Runs (advance decodePng) start [.willConnect,.viewWillAppear 0,
        .page 0 ["a","b"] false,.main,.resolved 0 (some 1) none,.resolved 0 (some 2) none,
        .downloaded 1 (some (pngFile 8)) none,.main,.laidOut 0] middle ∧
      Runs (advance decodePng) middle [.downloaded 0 (some (pngFile 7)) none,.main] app ∧
      (app.controllers 0).cellForItemAt (fun _ => none) ⟨some 3⟩ 0 = some ⟨some 8⟩ := by
  have whole : ∃ (middle app : App String Nat Nat (List Nat)), Runs (advance decodePng) start [.willConnect,
        .viewWillAppear 0,.page 0 ["a","b"] false,.main,.resolved 0 (some 1) none,.resolved 0 (some 2) none,
        .downloaded 1 (some (pngFile 8)) none,.main,.laidOut 0] middle ∧
      Runs (advance decodePng) middle [.downloaded 0 (some (pngFile 7)) none,.main] app ∧
      (middle.controllers 0).numberOfItemsInSection = 1 ∧ (app.controllers 0).downloadedImages = [some 8,some 7] :=
    ⟨_,_,run_exact.mp rfl,run_exact.mp rfl,rfl,rfl⟩
  obtain ⟨middle,app,asked,onward,count,images⟩ := whole
  have below : 0 < (middle.controllers 0).numberOfItemsInSection := by omega
  obtain ⟨image,found,shows⟩ := cells_show_images asked onward (.inl below)
  rw [images] at found
  cases found
  exact ⟨middle,app,asked,onward,shows _ _⟩

end Feed
end CanvasPainter
