import CanvasPainter.UIKitViews
import Mathlib.Data.List.Induction
import Mathlib.Tactic.NormNum

namespace CanvasPainter

namespace NeumorphicVIew

def darkShadowColor : CGColor := ⟨4/10,4/10,4/10,3/10⟩

def UpdateCustomisations (view : UIView) : UIView :=
  let cornerRadius : CGFloat := 15
  let shadowRadius : CGFloat := 7
  let view : UIView := {view with
    layer.masksToBounds := false
    layer.backgroundColor := some UIColor.offWhite.cgColor
    layer.cornerRadius := cornerRadius}
  let darkShadow : CALayer :=
    {frame := view.bounds,backgroundColor := view.backgroundColor,shadowColor := darkShadowColor
     cornerRadius := cornerRadius,shadowOffset := ⟨5,5⟩,shadowOpacity := 1,shadowRadius := shadowRadius}
  let view := {view with layer := view.layer.insertSublayer (.plain darkShadow) 0}
  let lightShadow : CALayer :=
    {frame := view.bounds,backgroundColor := view.backgroundColor,shadowColor := UIColor.white.cgColor
     cornerRadius := cornerRadius,shadowOffset := ⟨-5,-5⟩,shadowOpacity := 9/10,shadowRadius := shadowRadius}
  {view with layer := view.layer.insertSublayer (.plain lightShadow) 0}

def initWithFrame (frame : CGRect) : UIView := UpdateCustomisations (.initWithFrame frame)

end NeumorphicVIew

namespace CanvasDrawVC

-- viewDidLoad puts the canvas on the board.
def neumorphCanvasBoard : UIView :=
  let board := NeumorphicVIew.initWithFrame .zero
  {board with layer := board.layer.addSublayer .ofSubview}

-- What a layout pass and viewDidLayoutSubviews after it do to the board.
def boardDidLayout (board : UIView) (bounds : CGRect) : UIView :=
  NeumorphicVIew.UpdateCustomisations (board.layOut bounds)

def boardAfter (passes : List CGRect) : UIView := passes.foldl boardDidLayout neumorphCanvasBoard

end CanvasDrawVC

open NeumorphicVIew CanvasDrawVC

-- The frames of the shadows of one color, from the rearmost to the front.
def shadowFrames (color : CGColor) (sublayers : List Sublayer) : List CGRect :=
  sublayers.filterMap fun
    | .plain layer => if layer.shadowColor = color then some layer.frame else none
    | _ => none

-- One dark and one light shadow, both of the current bounds, both behind the canvas.
structure Decorated (board : UIView) : Prop where
  dark : shadowFrames darkShadowColor board.layer.sublayers = [board.bounds]
  light : shadowFrames UIColor.white.cgColor board.layer.sublayers = [board.bounds]
  behind : ∃ rear front, board.layer.sublayers = rear ++ .ofSubview :: front ∧
    shadowFrames darkShadowColor front = [] ∧ shadowFrames UIColor.white.cgColor front = []

theorem darkShadowColor_white : darkShadowColor ≠ UIColor.white.cgColor := by
  intro same
  have reds := congrArg CGColor.red same
  norm_num [darkShadowColor,UIColor.white] at reds

theorem updated_frames (own : color = darkShadowColor ∨ color = UIColor.white.cgColor) (view : UIView) :
    shadowFrames color (UpdateCustomisations view).layer.sublayers =
      view.bounds :: shadowFrames color view.layer.sublayers := by
  rcases own with rfl | rfl
  · simp [shadowFrames,UpdateCustomisations,BackingLayer.insertSublayer,darkShadowColor_white.symm]
  · simp [shadowFrames,UpdateCustomisations,BackingLayer.insertSublayer,darkShadowColor_white]

-- Every pass leaves its own pair before all the earlier ones.
theorem board_frames (own : color = darkShadowColor ∨ color = UIColor.white.cgColor) (passes : List CGRect) :
    shadowFrames color (boardAfter passes).layer.sublayers = passes.reverse ++ [.zero] := by
  induction passes using List.reverseRecOn with
  | nil =>
      have fresh := updated_frames own (.initWithFrame .zero)
      have canvas : shadowFrames color (boardAfter []).layer.sublayers =
          shadowFrames color (NeumorphicVIew.initWithFrame .zero).layer.sublayers ++ [] := by
        exact List.filterMap_append
      rw [canvas,List.append_nil]
      exact fresh
  | append_singleton earlier bounds ih =>
      have last : boardAfter (earlier ++ [bounds]) = UpdateCustomisations ((boardAfter earlier).layOut bounds) := by
        simp [boardAfter,boardDidLayout]
      rw [last,updated_frames own,List.reverse_append]
      exact congrArg (bounds :: ·) ih

theorem board_decorated_iff (passes : List CGRect) : Decorated (boardAfter passes) ↔ passes = [] := by
  constructor
  · intro decorated
    have frames := decorated.dark
    rw [board_frames (.inl rfl)] at frames
    have count := congrArg List.length frames
    simpa using count
  · rintro rfl
    refine ⟨board_frames (.inl rfl) [],board_frames (.inr rfl) [],?_⟩
    exact ⟨(NeumorphicVIew.initWithFrame .zero).layer.sublayers,[],rfl,rfl,rfl⟩

-- One pass, and two pairs of shadows, the older of them of no size.
theorem one_pass_accumulates : let board := boardAfter [⟨⟨0,0⟩,⟨374,280⟩⟩]
    shadowFrames darkShadowColor board.layer.sublayers = [⟨⟨0,0⟩,⟨374,280⟩⟩,.zero] ∧ ¬Decorated board := by
  have frames := board_frames (.inl rfl) [⟨⟨0,0⟩,⟨374,280⟩⟩]
  refine ⟨frames,fun decorated => ?_⟩
  have alone := decorated.dark
  rw [frames] at alone
  cases alone

end CanvasPainter
