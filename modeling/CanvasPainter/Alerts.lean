import Mathlib.Logic.Function.Basic
import CanvasPainter.ShareUpload

namespace CanvasPainter

namespace UIView

def saveError (localizedDescription : String) : UIAlertController := ⟨"Save error",localizedDescription,["OK"]⟩
def saved : UIAlertController := ⟨"Saved!","Your image has been saved to your photos.",["OK"]⟩

def onImageSaved : Option String → UIAlertController
  | some localizedDescription => saveError localizedDescription
  | none => saved

end UIView

-- Root controllers are numbered in the order scenes made their windows.
structure UIWindow where
  isKeyWindow : Bool
  rootViewController : Option Nat
  deriving DecidableEq, Repr

namespace Alerts
open TransitionRuns CanvasDrawVC

-- `presented` is each root controller's presentedViewController, `saves` and `uploads` are the completions still
-- to come. The last two fields are history, which no step reads: the outcome alerts handed to present(), and the
-- numbers of those that came on screen.
structure Screen where
  windows : List UIWindow
  presented : Nat → Option UIAlertController
  saves : Nat
  uploads : Nat
  handed : List UIAlertController
  shown : List Nat

inductive Event (UIImage : Type) where
  | willConnect
  | keyWindow (index : Option Nat)
  | saveImage (takeSnapshot : Option UIImage)
  | imageSaved (error : Option String)
  | presentWithInputAndUpload (controller : Nat)
  | confirmed (controller : Nat) (reachability : Reachability) (textField : Option (Option String))
      (takeSnapshot : Option UIImage)
  | uploadCompleted (error : Option String)
  | dismissed (controller : Nat)

def start : Screen := ⟨[],fun _ => none,0,0,[],[]⟩

namespace Screen
variable {screen : Screen}

-- makeKeyAndVisible, and the root controller set in the same call.
def willConnect (screen : Screen) : Screen :=
  {screen with windows := screen.windows.map ({· with isKeyWindow := false}) ++ [⟨true,some screen.windows.length⟩]}

def makeKey (screen : Screen) (index : Option Nat) : Screen :=
  {screen with windows := screen.windows.mapIdx fun place window => {window with isKeyWindow := index == some place}}

-- UIKit's present(_:animated:): a controller that presents already does nothing.
def presentOn (screen : Screen) (controller : Nat) (alert : UIAlertController) : Screen :=
  if (screen.presented controller).isSome then screen
  else {screen with presented := Function.update screen.presented controller (some alert)}

def dismiss (screen : Screen) (controller : Nat) : Screen :=
  {screen with presented := Function.update screen.presented controller none}

def keyController (screen : Screen) : Option Nat :=
  (screen.windows.filter (·.isKeyWindow)).head?.bind (·.rootViewController)

-- UIAlertController.present()
def present (screen : Screen) (alert : UIAlertController) : Screen :=
  match screen.keyController with
  | none => {screen with handed := screen.handed ++ [alert]}
  | some controller =>
    {screen.presentOn controller alert with
      handed := screen.handed ++ [alert]
      shown := screen.shown ++ if (screen.presented controller).isSome then [] else [screen.handed.length]}

def share {Data : Type} (screen : Screen) : Outcome Data → Option Screen
  | .trapped => none
  | .presented alert => some (screen.present alert)
  | .putData _ _ => some {screen with uploads := screen.uploads+1}

-- A key window whose root controller presents nothing.
def Free (screen : Screen) : Prop :=
  (screen.keyController.any fun controller => (screen.presented controller).isNone) = true

instance (screen : Screen) : Decidable screen.Free := inferInstanceAs (Decidable (_ = true))

@[simp] theorem presentOn_handed : (screen.presentOn controller alert).handed = screen.handed := by
  unfold presentOn
  split <;> rfl
@[simp] theorem presentOn_shown : (screen.presentOn controller alert).shown = screen.shown := by
  unfold presentOn
  split <;> rfl

theorem present_handed : (screen.present alert).handed = screen.handed ++ [alert] := by
  unfold present
  split <;> rfl

theorem present_shown : (screen.present alert).shown =
    screen.shown ++ if screen.Free then [screen.handed.length] else [] := by
  unfold present Free
  split
  · rename_i keyless
    simp [keyless]
  · rename_i controller key
    cases occupied : screen.presented controller with
    | none => simp [key,occupied]
    | some alert => simp [key,occupied]

end Screen

variable {UIImage Data : Type} {pngData : UIImage → Option Data} {screen after : Screen}

-- CanvasDrawVC is the root's child, so its dialog takes the root's place. Where a handler traps the run ends.
def advance (pngData : UIImage → Option Data) (screen : Screen) : Event UIImage → Option Screen
  | .willConnect => some screen.willConnect
  | .keyWindow index => some (screen.makeKey index)
  | .saveImage takeSnapshot => some (if takeSnapshot.isSome then {screen with saves := screen.saves+1} else screen)
  | .imageSaved error =>
    if screen.saves = 0 then none
    else some ({screen with saves := screen.saves-1}.present (UIView.onImageSaved error))
  | .presentWithInputAndUpload controller =>
    if controller < screen.windows.length then some (screen.presentOn controller shareDialog) else none
  | .confirmed controller reachability textField takeSnapshot =>
    if screen.presented controller = some shareDialog then
      match shareConfirmed textField takeSnapshot with
      | none => none
      | some (title,image) => (screen.dismiss controller).share (FBUploadManager pngData reachability title image)
    else none
  | .uploadCompleted error =>
    if screen.uploads = 0 then none
    else some ({screen with uploads := screen.uploads-1}.present (uploadCompletion error))
  | .dismissed controller =>
    match screen.presented controller with
    | none => none
    | some alert => if alert = shareDialog then none else some (screen.dismiss controller)

-- An outcome is handed over while the key window's root controller presents nothing; OK has closed the dialog
-- before its handler runs.
def Unobstructed (screen : Screen) : Event UIImage → Prop
  | .imageSaved _ => screen.Free
  | .uploadCompleted _ => screen.Free
  | .confirmed controller reachability _ _ =>
    InternetConnectionManager.isConnectedToNetwork reachability = false → (screen.dismiss controller).Free
  | _ => True

instance (screen : Screen) : (event : Event UIImage) → Decidable (Unobstructed screen event)
  | .imageSaved _ => inferInstanceAs (Decidable screen.Free)
  | .uploadCompleted _ => inferInstanceAs (Decidable screen.Free)
  | .confirmed controller reachability _ _ => inferInstanceAs (Decidable
      (InternetConnectionManager.isConnectedToNetwork reachability = false → (screen.dismiss controller).Free))
  | .willConnect | .keyWindow _ | .saveImage _ | .presentWithInputAndUpload _ | .dismissed _ => isTrue trivial

-- A step hands over no outcome, or one, which is shown just when nothing obstructs it.
inductive Hands (screen : Screen) (event : Event UIImage) (after : Screen) : Prop where
  | nothing : Unobstructed screen event → after.handed = screen.handed → after.shown = screen.shown →
      Hands screen event after
  | outcome : after.handed = screen.handed ++ [alert] →
      after.shown = screen.shown ++ (if Unobstructed screen event then [screen.handed.length] else []) →
      Hands screen event after

theorem advance_hands (accepted : advance pngData screen event = some after) : Hands screen event after := by
  cases event with
  | willConnect => cases Option.some.inj accepted; exact .nothing trivial rfl rfl
  | keyWindow index => cases Option.some.inj accepted; exact .nothing trivial rfl rfl
  | saveImage takeSnapshot =>
      cases Option.some.inj accepted
      refine .nothing trivial ?_ ?_ <;> split <;> rfl
  | imageSaved error =>
      obtain ⟨_,same⟩ := Option.ite_none_left_eq_some.mp accepted
      cases Option.some.inj same
      exact .outcome Screen.present_handed Screen.present_shown
  | presentWithInputAndUpload controller =>
      obtain ⟨_,same⟩ := Option.ite_none_right_eq_some.mp accepted
      cases Option.some.inj same
      exact .nothing trivial Screen.presentOn_handed Screen.presentOn_shown
  | confirmed controller reachability textField takeSnapshot =>
      obtain ⟨_,same⟩ := Option.ite_none_right_eq_some.mp accepted
      split at same
      · cases same
      · rename_i title image _
        cases result : FBUploadManager pngData reachability title image with
        | trapped => rw [result] at same; cases same
        | presented alert =>
            obtain ⟨offline,_⟩ := FBUploadManager_presented result
            rw [result] at same
            cases Option.some.inj same
            refine .outcome Screen.present_handed ?_
            simp only [Unobstructed,offline,true_implies]
            exact Screen.present_shown
        | putData reference data =>
            rw [result] at same
            cases Option.some.inj same
            refine .nothing (fun offline => ?_) rfl rfl
            simp [FBUploadManager,offline] at result
  | uploadCompleted error =>
      obtain ⟨_,same⟩ := Option.ite_none_left_eq_some.mp accepted
      cases Option.some.inj same
      exact .outcome Screen.present_handed Screen.present_shown
  | dismissed controller =>
      simp only [advance] at accepted
      split at accepted
      · cases accepted
      · obtain ⟨_,same⟩ := Option.ite_none_left_eq_some.mp accepted
        cases Option.some.inj same
        exact .nothing trivial rfl rfl

def EveryShown (screen : Screen) : Prop := ∀ number < screen.handed.length, number ∈ screen.shown

def Known (screen : Screen) : Prop := ∀ number ∈ screen.shown, number < screen.handed.length

theorem known_preserved (known : Known screen) (hands : Hands screen event after) : Known after := by
  cases hands with
  | nothing _ handed shown =>
      unfold Known
      rwa [handed,shown]
  | outcome handed shown =>
      intro number member
      rw [shown] at member
      rw [handed,List.length_append,List.length_singleton]
      rcases List.mem_append.mp member with old | new
      · have below := known number old
        omega
      · split at new
        · cases List.mem_singleton.mp new
          omega
        · cases new

theorem everyShown_exact (known : Known screen) (hands : Hands screen event after) :
    EveryShown after ↔ EveryShown screen ∧ Unobstructed screen event := by
  cases hands with
  | nothing free handed shown =>
      unfold EveryShown
      rw [handed,shown]
      exact (and_iff_left free).symm
  | outcome handed shown =>
      have newest : screen.handed.length ∉ screen.shown := by
        intro member
        have below := known _ member
        omega
      unfold EveryShown
      rw [handed,shown,List.length_append,List.length_singleton]
      by_cases free : Unobstructed screen event
      · rw [if_pos free,and_iff_left free]
        constructor
        · intro all number below
          rcases List.mem_append.mp (all number (by omega)) with old | new
          · exact old
          · have equal := List.mem_singleton.mp new
            omega
        · intro all number below
          by_cases last : number = screen.handed.length
          · simp [last]
          · exact List.mem_append_left _ (all number (by omega))
      · rw [if_neg free,List.append_nil]
        refine iff_of_false (fun all => newest (all _ (by omega))) (fun both => free both.2)

-- What was not shown when it was handed over never is.
def Settled (screen after : Screen) : Prop :=
  screen.handed.length ≤ after.handed.length ∧ ∀ number < screen.handed.length, number ∈ after.shown → number ∈ screen.shown

theorem settled_preserved (settled : Settled screen middle) (hands : Hands middle event after) : Settled screen after := by
  obtain ⟨longer,old⟩ := settled
  cases hands with
  | nothing _ handed shown =>
      unfold Settled
      rw [handed,shown]
      exact ⟨longer,old⟩
  | outcome handed shown =>
      unfold Settled
      rw [handed,shown,List.length_append]
      refine ⟨by omega,fun number below member => ?_⟩
      rcases List.mem_append.mp member with earlier | new
      · exact old number below earlier
      · split at new
        · have equal := List.mem_singleton.mp new
          omega
        · cases new

theorem runs_settled (path : Runs (advance pngData) screen later after) : Settled screen after :=
  path.invariant ⟨Nat.le_refl _,fun _ _ member => member⟩
    fun _ _ _ settled accepted => settled_preserved settled (advance_hands accepted)

theorem initial_known : Known start := by simp [Known,start]

theorem initial_everyShown : EveryShown start := by simp [EveryShown,start]

-- Whether an alert appears is settled as it is handed over, so that some run onwards stands for them all.
theorem outcomes_shown_iff (path : Runs (advance pngData) start events screen) :
    (∀ number < screen.handed.length, ∃ later after, Runs (advance pngData) screen later after ∧ number ∈ after.shown) ↔
      EachStep (advance pngData) start events Unobstructed := by
  have each : EveryShown screen ↔ EachStep (advance pngData) start events Unobstructed :=
    path.lasting_iff initial_known initial_everyShown
      (fun _ _ _ known accepted => known_preserved known (advance_hands accepted))
      (fun _ _ _ known accepted => everyShown_exact known (advance_hands accepted))
  rw [← each]
  constructor
  · intro sometime number below
    obtain ⟨later,after,onward,member⟩ := sometime number below
    exact (runs_settled onward).2 number below member
  · intro now number below
    exact ⟨[],screen,.nil,now number below⟩

theorem outcomes_shown_iff_in_turn :
    let events : List (Event Nat) := [.willConnect,.saveImage (some 1),.imageSaved none,.dismissed 0,
      .presentWithInputAndUpload 0,.confirmed 0 .notCreated (some (some "Sunset")) (some 1),.dismissed 0,
      .presentWithInputAndUpload 0,.confirmed 0 (.flags 2) (some (some "Sunset")) (some 1),.uploadCompleted (some "quota")]
    ∃ screen, Runs (advance (some : Nat → Option Nat)) start events screen ∧
      screen.handed = [UIView.saved,uploadOffline,uploadFailed "quota"] ∧
      ∀ number < 3, ∃ later after, Runs (advance (some : Nat → Option Nat)) screen later after ∧ number ∈ after.shown := by
  intro events
  have path : Runs (advance (some : Nat → Option Nat)) start events _ := run_exact.mp rfl
  exact ⟨_,path,rfl,(outcomes_shown_iff path).mpr (by decide)⟩

-- The save ends while the dialog asks for a title.
theorem saved_never_shown :
    ∃ screen, Runs (advance (some : Nat → Option Nat)) start
        [.willConnect,.saveImage (some 1),.presentWithInputAndUpload 0,.imageSaved none] screen ∧
      screen.handed = [UIView.saved] ∧ screen.presented 0 = some shareDialog ∧
      ∀ later after, Runs (advance (some : Nat → Option Nat)) screen later after → 0 ∉ after.shown := by
  refine ⟨_,run_exact.mp rfl,rfl,rfl,fun later after onward member => ?_⟩
  have early := (runs_settled onward).2 0 (by decide) member
  revert early
  decide

end Alerts
end CanvasPainter
