import CanvasPainter.FeedSteps

namespace CanvasPainter.Feed
open TransitionRuns
variable {StorageReference URL UIImage Data : Type} {decode : Data → Option UIImage}
  {app after : App StorageReference URL UIImage Data} {downloads finals : List (URL × Data)}

def Block.body : Block StorageReference URL Data → Option (URL × Data)
  | .listed _ _ => none
  | .finished _ _ url data => some (url,data)

-- The body a data task brings, and the one whose last block runs.
def downloadedBody (app : App StorageReference URL UIImage Data) : Event StorageReference URL Data → List (URL × Data)
  | .downloaded index (some data) none =>
    match app.requests[index]? with
    | some (.dataTask _ _ url) => [(url,data)]
    | _ => []
  | _ => []

def finalBlock (app : App StorageReference URL UIImage Data) : Event StorageReference URL Data → List (URL × Data)
  | .main => (app.mainQueue.head?.bind Block.body).toList
  | _ => []

-- Every download's body is run once or still waits, in the order the downloads finished.
structure Sole (decode : Data → Option UIImage) (app : App StorageReference URL UIImage Data)
    (downloads finals : List (URL × Data)) : Prop where
  valid : Valid app
  images : (app.controllers 0).downloadedImages = finals.map fun final => decode final.2
  decoded : ∀ final ∈ finals, (decode final.2).isSome = true
  came : finals ++ app.mainQueue.filterMap Block.body = downloads
  cached : ∀ key image, app.imageCache key = some image →
    ∃ url data, key = some url ∧ (url,data) ∈ finals ∧ decode data = some image

theorem initial_sole : Sole decode (start : App StorageReference URL UIImage Data) [] [] :=
  ⟨initial_valid,rfl,by simp,rfl,by simp [start]⟩

theorem images_of_contributions (valid : Valid app) (later : Valid after)
    (same : after.contributions = app.contributions) (feedVC : Nat) :
    (after.controllers feedVC).downloadedImages = (app.controllers feedVC).downloadedImages := by
  rw [later.mirrors,valid.mirrors,App.contributionsOf,App.contributionsOf,same]

-- With an image cached from its own downloads the only list is not empty.
theorem Sole.cached_listed (sole : Sole decode app downloads finals) (hit : app.imageCache key = some image) :
    some image ∈ (app.controllers 0).downloadedImages := by
  obtain ⟨url,data,_,member,decoded⟩ := sole.cached key image hit
  rw [sole.images]
  exact List.mem_map.mpr ⟨(url,data),member,decoded⟩

-- So the cache's image is never appended for the only controller.
theorem Sole.never_served {index : Nat} (sole : Sole decode app downloads finals) (only : app.connected ≤ 1)
    (found : app.requests[index]? = some (.downloadURL feedVC storageRef)) (hit : app.imageCache key = some image) :
    (app.controllers feedVC).downloadedImages ≠ [] := by
  have known : feedVC < app.connected := sole.valid.numbered.requests _ (List.mem_of_getElem? found)
  obtain rfl : feedVC = 0 := by omega
  exact List.ne_nil_of_mem (sole.cached_listed hit)

theorem Sole.kept (sole : Sole decode app downloads finals) (later : Valid after)
    (contributions : after.contributions = app.contributions)
    (cache : ∀ key image, after.imageCache key = some image → app.imageCache key = some image)
    (queue : after.mainQueue.filterMap Block.body = app.mainQueue.filterMap Block.body) :
    Sole decode after (downloads ++ []) (finals ++ []) := by
  obtain ⟨valid,images,decoded,came,cached⟩ := sole
  rw [List.append_nil,List.append_nil]
  refine ⟨later,?_,decoded,by rw [queue,came],fun key image hit => cached key image (cache key image hit)⟩
  rw [images_of_contributions valid later contributions,images]

theorem completion_bodies (queue : List (Block StorageReference URL Data)) (feedVC listing : Nat) :
    (queue ++ [Block.listed feedVC listing]).filterMap Block.body = queue.filterMap Block.body := by
  simp [List.filterMap_append,Block.body]

variable [DecidableEq URL]

theorem connected_grows (step : Step decode app event after) : app.connected ≤ after.connected := by
  cases step with
  | willConnect => exact Nat.le_succ _
  | _ => exact Nat.le_refl _

theorem sole_preserved (sole : Sole decode app downloads finals) (only : after.connected ≤ 1)
    (running : after.trapped = none) (step : Step decode app event after) :
    Sole decode after (downloads ++ downloadedBody app event) (finals ++ finalBlock app event) := by
  have later := valid_preserved sole.valid step
  have alone : app.connected ≤ 1 := Nat.le_trans (connected_grows step) only
  cases step with
  | served index feedVC downloadURL found one hit empty => exact absurd empty (sole.never_served alone found hit)
  | downloadFinished feedVC url found =>
      rename_i index data storageRef
      have brought : downloadedBody app (.downloaded index (some data) none) = [(url,data)] := by
        simp only [downloadedBody,found]
      have silent : finalBlock app (.downloaded index (some data) none) = [] := rfl
      rw [brought,silent,List.append_nil]
      obtain ⟨_,images,decoded,came,cached⟩ := sole
      refine ⟨later,images,decoded,?_,cached⟩
      rw [← came,List.append_assoc]
      exact congrArg (finals ++ ·) List.filterMap_append
  | downloadFailed found failed =>
      rename_i index data error _ _ _
      have nothing : downloadedBody app (.downloaded index data error) = [] := by
        rcases failed with rfl | failed
        · rfl
        · cases error with
          | none => exact absurd rfl failed
          | some error => cases data <;> rfl
      rw [nothing]
      exact sole.kept later rfl (fun _ _ hit => hit) rfl
  | lastPage feedVC found => exact sole.kept later rfl (fun _ _ hit => hit) (completion_bodies _ _ _)
  | pageFailed feedVC found =>
      exact sole.kept later rfl (fun _ _ hit => hit) ((completion_bodies _ _ _).trans (completion_bodies _ _ _))
  | loaded feedVC front =>
      have other : finalBlock app .main = [] := by simp [finalBlock,front,Block.body]
      rw [other]
      exact sole.kept later rfl (fun _ _ hit => hit) (by rw [front]; rfl)
  | orphaned _ _ => cases running
  | undecoded _ _ => cases running
  | appended feedVC url front living decodes =>
      rename_i rest storageRef data image
      have ran : finalBlock app .main = [(url,data)] := by simp [finalBlock,front,Block.body]
      have silent : downloadedBody app .main = [] := rfl
      rw [ran,silent,List.append_nil]
      have known : (Block.finished feedVC storageRef url data).feedVC < app.connected :=
        sole.valid.numbered.blocks _ (by simp [front])
      obtain rfl : feedVC = 0 := Nat.lt_one_iff.mp (Nat.lt_of_lt_of_le known alone)
      obtain ⟨_,images,decoded,came,cached⟩ := sole
      rw [front] at came
      refine ⟨later,?_,snoc_all decoded (by simp [decodes]),?_,?_⟩
      · simp [App.succeed,App.modify,App.setObject,App.contribute,images,decodes]
      · -- The body that waited first has run.
        rw [← came,List.append_assoc]
        rfl
      · intro key shown hit
        change Function.update app.imageCache (some url) (some image) key = some shown at hit
        by_cases same : key = some url
        · subst same
          rw [Function.update_self] at hit
          cases hit
          exact ⟨url,data,rfl,by simp,decodes⟩
        · rw [Function.update_of_ne same] at hit
          obtain ⟨earlier,body,rfl,member,shows⟩ := cached key shown hit
          exact ⟨earlier,body,rfl,List.mem_append_left _ member,shows⟩
  | evicted =>
      refine sole.kept later rfl (fun key image hit => ?_) rfl
      rename_i gone
      by_cases same : key = gone
      · subst same; simp [App.setObject] at hit
      · simpa [App.setObject,same] using hit
  | _ => exact sole.kept later rfl (fun _ _ hit => hit) rfl

theorem runs_sole (path : Runs (advance decode) (start : App StorageReference URL UIImage Data) events app)
    (only : app.connected ≤ 1) (running : app.trapped = none) :
    Sole decode app (observed (advance decode) downloadedBody start events)
      (observed (advance decode) finalBlock start events) := by
  induction path with
  | nil => exact initial_sole
  | step prior accepted ih =>
      obtain ⟨before,step⟩ := advance_step accepted
      rw [prior.observed_step accepted,prior.observed_step accepted]
      exact sole_preserved (ih (Nat.le_trans (connected_grows step) only) before) only running step

theorem sole_resolution (sole : Sole decode app downloads finals) (only : app.connected ≤ 1)
    (accepted : advance decode app (.resolved index downloadURL error) = some after) (feedVC : Nat) :
    (after.controllers feedVC).downloadedImages = (app.controllers feedVC).downloadedImages := by
  cases (advance_step accepted).2 with
  | served _ feedVC _ found one hit empty => exact absurd empty (sole.never_served only found hit)
  | passedOver _ _ _ _ _ => rfl
  | unresolved _ => rfl
  | downloadStarted _ _ _ _ _ => rfl

theorem sole_feed_exact (path : Runs (advance decode) (start : App StorageReference URL UIImage Data) events app)
    (only : app.connected ≤ 1) (running : app.trapped = none) :
    let downloads := observed (advance decode) downloadedBody (start : App StorageReference URL UIImage Data) events
    let finals := observed (advance decode) finalBlock (start : App StorageReference URL UIImage Data) events
    (app.controllers 0).downloadedImages = finals.map (fun final => decode final.2) ∧
    finals ++ app.mainQueue.filterMap Block.body = downloads ∧
    (∀ final ∈ finals, (decode final.2).isSome = true) ∧
    (∀ key image, app.imageCache key = some image → some image ∈ (app.controllers 0).downloadedImages ∧
      ∃ url data, key = some url ∧ (url,data) ∈ downloads ∧ decode data = some image) ∧
    ∀ index downloadURL error after, advance decode app (.resolved index downloadURL error) = some after →
      (∀ image, app.imageCache downloadURL = some image → (app.controllers 0).downloadedImages.length ≠ 0) ∧
      ∀ feedVC, (after.controllers feedVC).downloadedImages = (app.controllers feedVC).downloadedImages := by
  intro downloads finals
  have sole : Sole decode app downloads finals := runs_sole path only running
  refine ⟨sole.images,sole.came,sole.decoded,?_,?_⟩
  · intro key image hit
    obtain ⟨url,data,same,member,decoded⟩ := sole.cached key image hit
    refine ⟨sole.cached_listed hit,url,data,same,?_,decoded⟩
    rw [← sole.came]
    exact List.mem_append_left _ member
  · intro index downloadURL error after accepted
    refine ⟨fun image hit => ?_,sole_resolution sole only accepted⟩
    exact List.length_eq_zero_iff.not.mpr (List.ne_nil_of_mem (sole.cached_listed hit))

theorem sole_feed_exact_reappeared :
    let events : List (Event String Nat (List Nat)) := [.willConnect,.viewWillAppear 0,.viewWillAppear 0,
      .page 0 ["a"] false,.page 0 ["a","b"] false,.main,.main,.resolved 0 (some 1) none,.resolved 0 none (some "gone"),
      .resolved 0 (some 1) none,.downloaded 1 (some (pngFile 7)) none,.main,.evicted (some 1),
      .downloaded 1 (some (pngFile 8)) none,.main]
    ∃ app, Runs (advance decodePng) (start : App String Nat Nat (List Nat)) events app ∧
      observed (advance decodePng) finalBlock (start : App String Nat Nat (List Nat)) events =
        [(1,pngFile 7),(1,pngFile 8)] ∧
      (app.controllers 0).downloadedImages = [some 7,some 8] ∧ app.imageCache (some 1) = some 8 := by
  intro events
  have path : Runs (advance decodePng) (start : App String Nat Nat (List Nat)) events _ := run_exact.mp rfl
  exact ⟨_,path,rfl,(sole_feed_exact path (by decide) rfl).1,rfl⟩

end CanvasPainter.Feed
