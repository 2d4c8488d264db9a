import CanvasPainter.FeedSteps

namespace CanvasPainter.Feed
open TransitionRuns
variable {StorageReference URL UIImage Data : Type} {decode : Data → Option UIImage}
  {app after : App StorageReference URL UIImage Data}

def UnwrapsIn (decode : Data → Option UIImage) (app : App StorageReference URL UIImage Data) :
    Option (Block StorageReference URL Data) → Prop
  | some (.finished feedVC _ _ data) => (app.controllers feedVC).alive = true ∧ (decode data).isSome = true
  | _ => True

def Unwraps (decode : Data → Option UIImage) (app : App StorageReference URL UIImage Data) :
    Event StorageReference URL Data → Prop
  | .main => UnwrapsIn decode app app.mainQueue.head?
  | _ => True

instance (app : App StorageReference URL UIImage Data) :
    (block : Option (Block StorageReference URL Data)) → Decidable (UnwrapsIn decode app block)
  | some (.finished feedVC _ _ data) =>
    inferInstanceAs (Decidable ((app.controllers feedVC).alive = true ∧ (decode data).isSome = true))
  | some (.listed _ _) => isTrue trivial
  | none => isTrue trivial

instance (app : App StorageReference URL UIImage Data) :
    (event : Event StorageReference URL Data) → Decidable (Unwraps decode app event)
  | .main => inferInstanceAs (Decidable (UnwrapsIn decode app app.mainQueue.head?))
  | .willConnect | .released _ | .deallocated _ | .viewWillAppear _ | .page _ _ _ | .pageFailed _ | .resolved _ _ _
  | .downloaded _ _ _ | .evicted _ | .laidOut _ => isTrue trivial

variable [DecidableEq URL]

theorem traps_exact (running : app.trapped = none) (step : Step decode app event after) :
    after.trapped = none ↔ Unwraps decode app event := by
  cases step with
  | orphaned front gone => simp [Unwraps,UnwrapsIn,front,gone]
  | undecoded front failed => simp [Unwraps,UnwrapsIn,front,failed]
  | appended feedVC url front living decoded =>
      apply iff_of_true running
      simp [Unwraps,UnwrapsIn,front,living,decoded]
  | loaded feedVC front =>
      apply iff_of_true running
      simp [Unwraps,UnwrapsIn,front]
  | _ => exact iff_of_true running trivial

-- The error test, late as it is, still comes before `downloadURL!`.
theorem trapped_step (running : app.trapped = none) (step : Step decode app event after) :
    after.trapped ≠ some .downloadURL := by
  cases step with
  | orphaned _ _ => simp
  | undecoded _ _ => simp
  | _ =>
      intro trapped
      have impossible : app.trapped = some .downloadURL := trapped
      rw [running] at impossible
      cases impossible

theorem never_traps_iff (path : Runs (advance decode) (start : App StorageReference URL UIImage Data) events app) :
    (Throughout (advance decode) (start : App StorageReference URL UIImage Data) events (·.trapped = none) ↔
      EachStep (advance decode) (start : App StorageReference URL UIImage Data) events (Unwraps decode)) ∧
    app.trapped ≠ some .downloadURL := by
  constructor
  · refine path.throughout_iff initial_valid rfl
      (fun _ _ _ valid accepted => valid_preserved valid (advance_step accepted).2) ?_
    intro before event next _ running accepted
    exact traps_exact running (advance_step accepted).2
  · cases path with
    | nil => simp [start]
    | step prior accepted => exact trapped_step (advance_step accepted).1 (advance_step accepted).2

theorem never_traps_iff_quiet_release :
    let events : List (Event String Nat (List Nat)) := [.willConnect,.viewWillAppear 0,.page 0 ["a","b"] false,.main,
      .resolved 0 (some 1) none,.resolved 0 (some 2) none,.downloaded 0 none (some "offline"),
      .downloaded 0 (some (pngFile 8)) none,.main,.released 0,.deallocated 0]
    ∃ app, Runs (advance decodePng) (start : App String Nat Nat (List Nat)) events app ∧
      Throughout (advance decodePng) (start : App String Nat Nat (List Nat)) events (·.trapped = none) := by
  intro events
  have path : Runs (advance decodePng) (start : App String Nat Nat (List Nat)) events _ := run_exact.mp rfl
  exact ⟨_,path,(never_traps_iff path).1.mpr (by decide)⟩

-- An error page that comes without an error, and a controller released between a download and its last block.
theorem load_traps :
    (∃ app, Runs (advance decodePng) (start : App String Nat Nat (List Nat)) [.willConnect,.viewWillAppear 0,
        .page 0 ["a"] false,.main,.resolved 0 (some 1) none,.downloaded 0 (some [52,48,52]) none,.main] app ∧
      app.trapped = some .imageToCache) ∧
    ∃ app, Runs (advance decodePng) (start : App String Nat Nat (List Nat)) [.willConnect,.viewWillAppear 0,
        .page 0 ["a"] false,.main,.resolved 0 (some 1) none,.downloaded 0 (some (pngFile 7)) none,.released 0,
        .deallocated 0,.main] app ∧ app.trapped = some .self :=
  ⟨⟨_,run_exact.mp rfl,rfl⟩,⟨_,run_exact.mp rfl,rfl⟩⟩

end CanvasPainter.Feed
