import CanvasPainter.FeedSteps

namespace CanvasPainter.Feed
open TransitionRuns
variable {StorageReference URL UIImage Data : Type} {decode : Data → Option UIImage}
  {app after : App StorageReference URL UIImage Data}

def Quiet (app : App StorageReference URL UIImage Data) (feedVC : Nat) : Prop :=
  (∀ request ∈ app.requests, request.feedVC ≠ feedVC) ∧ ∀ block ∈ app.mainQueue, block.feedVC ≠ feedVC

instance (app : App StorageReference URL UIImage Data) (feedVC : Nat) : Decidable (Quiet app feedVC) := by
  unfold Quiet; infer_instance

def Arrived (app : App StorageReference URL UIImage Data) : Prop :=
  ∀ feedVC storageRef image, (feedVC,storageRef,image) ∈ app.succeeded →
    some image ∈ (app.controllers feedVC).downloadedImages

-- The cache serves an image only to a list that is empty or has that image already.
def WelcomeFor (app : App StorageReference URL UIImage Data) (downloadURL : Option URL) :
    Option (Request StorageReference URL) → Prop
  | some (.downloadURL feedVC _) => ∀ image, app.imageCache downloadURL = some image →
      (app.controllers feedVC).downloadedImages = [] ∨ some image ∈ (app.controllers feedVC).downloadedImages
  | _ => True

def Welcome (app : App StorageReference URL UIImage Data) : Event StorageReference URL Data → Prop
  | .resolved index downloadURL _ => WelcomeFor app downloadURL app.requests[index]?
  | _ => True

structure Delivered (app : App StorageReference URL UIImage Data) : Prop where
  valid : Valid app
  arrived : Arrived app

theorem initial_delivered : Delivered (start : App StorageReference URL UIImage Data) :=
  ⟨initial_valid,by simp [Arrived,start]⟩

variable [DecidableEq URL]

theorem succeeded_step (step : Step decode app event after) : after.succeeded = app.succeeded ∨
    ∃ feedVC storageRef image, after.succeeded = app.succeeded ++ [(feedVC,storageRef,image)] ∧
      (some image ∈ (after.controllers feedVC).downloadedImages ∨ ∃ index downloadURL error,
        event = .resolved index downloadURL error ∧ app.requests[index]? = some (.downloadURL feedVC storageRef) ∧
        app.imageCache downloadURL = some image ∧ (app.controllers feedVC).downloadedImages ≠ []) := by
  cases step with
  | served index feedVC downloadURL found one hit empty =>
      refine .inr ⟨feedVC,_,_,rfl,.inl ?_⟩
      simp [App.succeed,App.contribute,App.modify]
  | passedOver feedVC found one hit some => exact .inr ⟨feedVC,_,_,rfl,.inr ⟨_,_,_,rfl,found,hit,some⟩⟩
  | appended feedVC url front living decoded =>
      refine .inr ⟨feedVC,_,_,rfl,.inl ?_⟩
      simp [App.succeed,App.contribute,App.modify,App.setObject]
  | _ => exact .inl rfl

theorem delivered_preserved (good : Delivered app) (welcome : Welcome app event) (step : Step decode app event after) :
    Delivered after := by
  obtain ⟨valid,arrived⟩ := good
  refine ⟨valid_preserved valid step,?_⟩
  have older : ∀ feedVC storageRef image, (feedVC,storageRef,image) ∈ app.succeeded →
      some image ∈ (after.controllers feedVC).downloadedImages :=
    fun feedVC storageRef image member => (images_grow valid step feedVC).subset (arrived feedVC storageRef image member)
  intro feedVC storageRef image member
  rcases succeeded_step step with same | ⟨controller,refer,newest,grown,how⟩
  · exact older feedVC storageRef image (same ▸ member)
  · rw [grown] at member
    rcases List.mem_append.mp member with old | new
    · exact older feedVC storageRef image old
    · cases List.mem_singleton.mp new
      rcases how with appended | ⟨index,downloadURL,error,rfl,found,hit,listed⟩
      · exact appended
      · simp only [Welcome,WelcomeFor,found] at welcome
        exact (images_grow valid step feedVC).subset ((welcome image hit).resolve_left listed)

theorem successes_arrive
    (welcome : EachStep (advance decode) (start : App StorageReference URL UIImage Data) events Welcome) :
    Throughout (advance decode) start events fun app => ∀ feedVC, Quiet app feedVC →
      ∀ storageRef image, (feedVC,storageRef,image) ∈ app.succeeded →
        some image ∈ (app.controllers feedVC).downloadedImages := by
  intro earlier app front path feedVC _
  obtain ⟨later,rfl⟩ := front
  have good : Delivered app := path.guarded initial_delivered
    (fun _ _ _ good ok accepted => delivered_preserved good ok (advance_step accepted).2) welcome.front
  exact good.arrived feedVC

instance [DecidableEq UIImage] (app : App StorageReference URL UIImage Data) (downloadURL : Option URL) :
    (request : Option (Request StorageReference URL)) → Decidable (WelcomeFor app downloadURL request)
  | some (.downloadURL feedVC _) => inferInstanceAs (Decidable (∀ image, app.imageCache downloadURL = some image →
      (app.controllers feedVC).downloadedImages = [] ∨ some image ∈ (app.controllers feedVC).downloadedImages))
  | some (.listAll _ _) => isTrue trivial
  | some (.dataTask _ _ _) => isTrue trivial
  | none => isTrue trivial

instance [DecidableEq UIImage] (app : App StorageReference URL UIImage Data) :
    (event : Event StorageReference URL Data) → Decidable (Welcome app event)
  | .resolved index downloadURL _ => inferInstanceAs (Decidable (WelcomeFor app downloadURL app.requests[index]?))
  | .willConnect | .released _ | .deallocated _ | .viewWillAppear _ | .page _ _ _ | .pageFailed _ | .downloaded _ _ _
  | .main | .evicted _ | .laidOut _ => isTrue trivial

theorem successes_arrive_second_scene :
    ∃ app, Runs (advance decodePng) (start : App String Nat Nat (List Nat)) [.willConnect,.viewWillAppear 0,
        .page 0 ["a"] false,.main,.resolved 0 (some 1) none,.downloaded 0 (some (pngFile 7)) none,.main,
        .willConnect,.viewWillAppear 1,.page 0 ["a","b"] false,.main,.resolved 0 (some 1) none,.resolved 0 (some 2) none,
        .downloaded 0 (some (pngFile 8)) none,.main] app ∧ Quiet app 1 ∧ (1,"a",7) ∈ app.succeeded ∧
      some 7 ∈ (app.controllers 1).downloadedImages := by
  have path : Runs (advance decodePng) (start : App String Nat Nat (List Nat)) [.willConnect,.viewWillAppear 0,
      .page 0 ["a"] false,.main,.resolved 0 (some 1) none,.downloaded 0 (some (pngFile 7)) none,.main,
      .willConnect,.viewWillAppear 1,.page 0 ["a","b"] false,.main,.resolved 0 (some 1) none,.resolved 0 (some 2) none,
      .downloaded 0 (some (pngFile 8)) none,.main] _ := run_exact.mp rfl
  refine ⟨_,path,by decide,by decide,?_⟩
  exact (successes_arrive (by decide)).final path 1 (by decide) "a" 7 (by decide)

-- Of two cached items the second scene's controller appends the first it hears of and drops the other.
theorem second_scene_loses :
    ∃ app, Runs (advance decodePng) (start : App String Nat Nat (List Nat)) [.willConnect,.viewWillAppear 0,
        .page 0 ["a","b"] false,.main,.resolved 0 (some 1) none,.resolved 0 (some 2) none,
        .downloaded 0 (some (pngFile 7)) none,.downloaded 0 (some (pngFile 8)) none,.main,.main,
        .willConnect,.viewWillAppear 1,.page 0 ["a","b"] false,.main,.resolved 0 (some 1) none,
        .resolved 0 (some 2) none] app ∧ Quiet app 1 ∧ (1,"b",8) ∈ app.succeeded ∧
      (app.controllers 1).downloadedImages = [some 7] ∧ some 8 ∉ (app.controllers 1).downloadedImages :=
  ⟨_,run_exact.mp rfl,by decide,by decide,rfl,by decide⟩

end CanvasPainter.Feed
