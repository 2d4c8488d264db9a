import CanvasPainter.InnerShadow
import CanvasPainter.NeumorphicBoard
import CanvasPainter.TransitionRuns

namespace CanvasPainter

inductive Subview where
  | neumorphicVIew (view : UIView)
  | innerNueView (view : UIView)
  | titleLabel
  deriving DecidableEq, Repr

-- `title` is the text of titleLabel, which a button keeps also when the label is no subview of it.
structure UIButton where
  frame : CGRect
  title : Option String
  highlightedTitle : Option String
  subviews : List Subview
  deriving DecidableEq, Repr

namespace UIButton

def addSubview (button : UIButton) (view : Subview) : UIButton := {button with subviews := button.subviews ++ [view]}

-- Nothing happens to a view that is no subview.
def bringSubviewToFront (button : UIButton) (view : Subview) : UIButton :=
  if view ∈ button.subviews then {button with subviews := button.subviews.filter (· ≠ view) ++ [view]} else button

-- The rectangle a decoration is made with.
def extent (button : UIButton) : CGRect := .xywh 0 0 button.frame.size.width button.frame.size.height

def buttonNeuView (button : UIButton) : UIView :=
  {NeumorphicVIew.initWithFrame button.extent with isUserInteractionEnabled := false}

def innerNueView (button : UIButton) : UIView :=
  let innerNueView := {UIView.initWithFrame button.extent with layer.cornerRadius := 15}
  let innerNueView := innerNueView.addInnerShadow .bottomAndRight .white 10 0 (7/10)
  let innerNueView := innerNueView.addInnerShadow .topAndLeft .black 10 0 (2/10)
  {innerNueView with isUserInteractionEnabled := false}

-- How pressed and released end: the new decoration goes in, the title before it.
def dress (sender : UIButton) (decoration : Subview) : UIButton :=
  let sender := (sender.addSubview decoration).bringSubviewToFront .titleLabel
  {sender with highlightedTitle := sender.title}

end UIButton

def UICreator.GetButton (titleText : String) : UIButton :=
  let prgrmButton : UIButton := ⟨.zero,some titleText,none,[.titleLabel]⟩
  let prgrmButton := prgrmButton.bringSubviewToFront .titleLabel
  (prgrmButton.addSubview (.neumorphicVIew prgrmButton.buttonNeuView)).bringSubviewToFront .titleLabel

namespace CanvasDrawVC

-- What pressed does before its switch on sender.tag; none is subviews[0] of a button without subviews.
def pressed (sender : UIButton) (isHighlighted : Bool) : Option UIButton :=
  match sender.subviews with
  | [] => none
  | _ :: subviews =>
    let sender := {sender with subviews := subviews}
    some (if isHighlighted then sender.dress (.innerNueView sender.innerNueView) else sender)

def released (sender : UIButton) : Option UIButton :=
  match sender.subviews with
  | [] => none
  | _ :: subviews =>
    let sender := {sender with subviews := subviews}
    some (sender.dress (.neumorphicVIew sender.buttonNeuView))

end CanvasDrawVC

namespace ButtonSubviews
open TransitionRuns CanvasDrawVC

-- `frame` is where the layout has the button at the call.
inductive Call where
  | pressed (frame : CGRect) (isHighlighted : Bool)
  | released (frame : CGRect)
  deriving DecidableEq, Repr

def advance (sender : UIButton) : Call → Option UIButton
  | .pressed frame isHighlighted => CanvasDrawVC.pressed {sender with frame := frame} isHighlighted
  | .released frame => CanvasDrawVC.released {sender with frame := frame}

variable {sender after : UIButton} {calls earlier : List Call}

structure Sound (sender : UIButton) (calls : List Call) : Prop where
  bounded : ∃ after, Runs advance sender calls after
  titled : Throughout advance sender calls fun sender => .titleLabel ∈ sender.subviews
  restored : ∀ earlier frame after, earlier ++ [.released frame] <+: calls →
    Runs advance sender (earlier ++ [.released frame]) after →
    ∃ view, after.subviews = [.neumorphicVIew view,.titleLabel]

-- A decoration behind the title, and the title alone.
def Dressed (sender : UIButton) : Prop := ∃ decoration, decoration ≠ .titleLabel ∧ sender.subviews = [decoration,.titleLabel]

def Bare (sender : UIButton) : Prop := sender.subviews = [.titleLabel]

theorem dress_titled {button : UIButton} (alone : button.subviews = [.titleLabel]) (other : decoration ≠ .titleLabel) :
    (button.dress decoration).subviews = [decoration,.titleLabel] := by
  simp [UIButton.dress,UIButton.bringSubviewToFront,UIButton.addSubview,alone,other]

theorem dress_untitled {button : UIButton} (alone : button.subviews = []) (other : decoration ≠ .titleLabel) :
    .titleLabel ∉ (button.dress decoration).subviews := by
  simp [UIButton.dress,UIButton.bringSubviewToFront,UIButton.addSubview,alone,other.symm]

theorem GetButton_dressed (titleText : String) : Dressed (UICreator.GetButton titleText) := by
  refine ⟨.neumorphicVIew (UIButton.buttonNeuView ⟨.zero,some titleText,none,[.titleLabel]⟩),by simp,?_⟩
  simp [UICreator.GetButton,UIButton.bringSubviewToFront,UIButton.addSubview]

-- What a call leaves of a dressed button.
def Leaves (call : Call) (after : UIButton) : Prop :=
  match call with
  | .pressed _ true => Dressed after
  | .pressed _ false => Bare after
  | .released _ => ∃ view, after.subviews = [.neumorphicVIew view,.titleLabel]

theorem dressed_step (dressed : Dressed sender) (call : Call) :
    ∃ after, advance sender call = some after ∧ Leaves call after := by
  obtain ⟨decoration,other,subviews⟩ := dressed
  cases call with
  | pressed frame isHighlighted =>
      simp only [advance,pressed,subviews]
      cases isHighlighted with
      | true => exact ⟨_,rfl,.innerNueView _,by simp,dress_titled rfl (by simp)⟩
      | false => exact ⟨_,rfl,rfl⟩
  | released frame =>
      simp only [advance,released,subviews]
      exact ⟨_,rfl,_,dress_titled rfl (by simp)⟩

theorem leaves_titled (leaves : Leaves call after) : .titleLabel ∈ after.subviews := by
  unfold Leaves at leaves
  split at leaves
  · obtain ⟨decoration,_,subviews⟩ := leaves
    simp [subviews]
  · have subviews : after.subviews = [.titleLabel] := leaves
    simp [subviews]
  · obtain ⟨view,subviews⟩ := leaves
    simp [subviews]

-- The next call takes the title itself for the decoration.
theorem bare_step (bare : Bare sender) (accepted : advance sender call = some after) : .titleLabel ∉ after.subviews := by
  unfold Bare at bare
  cases call with
  | pressed frame isHighlighted =>
      simp only [advance,pressed,bare] at accepted
      cases Option.some.inj accepted
      cases isHighlighted with
      | true => exact dress_untitled rfl (by simp)
      | false => simp
  | released frame =>
      simp only [advance,released,bare] at accepted
      cases Option.some.inj accepted
      exact dress_untitled rfl (by simp)

def Highlighted (calls : List Call) : Prop := ∀ frame, .pressed frame false ∉ calls

theorem highlighted_dressed (dressed : Dressed sender) (highlighted : Highlighted calls) :
    ∃ after, Runs advance sender calls after ∧ Dressed after := by
  induction calls using List.reverseRecOn with
  | nil => exact ⟨sender,.nil,dressed⟩
  | append_singleton earlier call ih =>
      obtain ⟨before,path,dressed⟩ := ih fun frame member => highlighted frame (List.mem_append_left _ member)
      obtain ⟨after,accepted,leaves⟩ := dressed_step dressed call
      refine ⟨after,.step path accepted,?_⟩
      cases call with
      | pressed frame isHighlighted =>
          cases isHighlighted with
          | true => exact leaves
          | false => exact absurd (List.mem_append_right _ List.mem_cons_self) (highlighted frame)
      | released frame =>
          obtain ⟨view,subviews⟩ := leaves
          exact ⟨_,by simp,subviews⟩

theorem highlighted_front (highlighted : Highlighted calls) (front : earlier <+: calls) : Highlighted earlier :=
  fun frame member => highlighted frame (front.subset member)

theorem sound_of_highlighted (dressed : Dressed sender) (highlighted : Highlighted calls) (last : Call) :
    Sound sender (calls ++ [last]) := by
  have reached : ∀ earlier before, earlier <+: calls → Runs advance sender earlier before → Dressed before := by
    intro earlier before front path
    obtain ⟨same,known,dressed⟩ := highlighted_dressed dressed (highlighted_front highlighted front)
    rwa [path.unique known]
  have leaves : ∀ earlier call after, earlier ++ [call] <+: calls ++ [last] →
      Runs advance sender (earlier ++ [call]) after → Leaves call after := by
    intro earlier call after front path
    have shorter : earlier <+: calls := by
      rcases List.prefix_concat_iff.mp front with whole | inside
      · rw [(List.append_inj' whole rfl).1]
      · exact (List.prefix_append _ _).trans inside
    obtain ⟨before,known,dressed⟩ := highlighted_dressed dressed (highlighted_front highlighted shorter)
    obtain ⟨next,accepted,leaves⟩ := dressed_step dressed call
    rwa [path.unique (known.step accepted)]
  obtain ⟨before,path,ready⟩ := highlighted_dressed dressed highlighted
  obtain ⟨after,accepted,_⟩ := dressed_step ready last
  refine ⟨⟨after,path.step accepted⟩,?_,?_⟩
  · intro earlier now front path
    cases path with
    | nil =>
        obtain ⟨_,_,subviews⟩ := dressed
        simp [subviews]
    | step prior accepted => exact leaves_titled (leaves _ _ _ front (prior.step accepted))
  · intro earlier frame now front path
    exact leaves earlier (.released frame) now front path

-- A press that adds nothing leaves the title to the next call.
theorem highlighted_of_sound (dressed : Dressed sender) (sound : Sound sender calls) (front : earlier ++ [last] <+: calls) :
    Highlighted earlier := by
  induction earlier using List.reverseRecOn generalizing last with
  | nil => exact fun _ => List.not_mem_nil
  | append_singleton earlier call ih =>
      have highlighted := ih ((List.prefix_append _ _).trans front)
      intro frame member
      rcases List.mem_append.mp member with old | new
      · exact highlighted frame old
      · obtain rfl := List.mem_singleton.mp new
        obtain ⟨before,path,ready⟩ := highlighted_dressed dressed highlighted
        obtain ⟨middle,accepted,bare⟩ := dressed_step ready (.pressed frame false)
        obtain ⟨later,rfl⟩ := front
        obtain ⟨_,whole⟩ := sound.bounded
        obtain ⟨after,onward⟩ := whole.front
        apply bare_step bare (onward.last (path.step accepted))
        exact sound.titled _ after (List.prefix_append _ _) onward

theorem button_sound_iff (titleText : String) (calls : List Call) :
    Sound (UICreator.GetButton titleText) calls ↔ ∀ frame, .pressed frame false ∉ calls.dropLast := by
  have dressed := GetButton_dressed titleText
  rcases calls.eq_nil_or_concat with rfl | ⟨earlier,last,rfl⟩
  · refine iff_of_true ⟨⟨_,.nil⟩,?_,?_⟩ (fun _ => List.not_mem_nil)
    · intro earlier now front path
      obtain rfl := List.prefix_nil.mp front
      obtain ⟨_,_,subviews⟩ := dressed
      rw [← Runs.nil.unique path]
      simp [subviews]
    · intro earlier frame now front path
      simp at front
  · rw [List.concat_eq_append,List.dropLast_concat]
    constructor
    · exact fun sound => highlighted_of_sound dressed sound (List.prefix_refl _)
    · exact fun highlighted => sound_of_highlighted dressed highlighted last

-- After a press that is not highlighted a release takes the title, and a second such press leaves nothing at all.
theorem title_removed :
    (∃ sender view, Runs advance (UICreator.GetButton "Undo") [.pressed .zero false,.released .zero] sender ∧
      sender.subviews = [.neumorphicVIew view]) ∧
    run advance (UICreator.GetButton "Undo") [.pressed .zero false,.pressed .zero false,.released .zero] = none ∧
    ¬Sound (UICreator.GetButton "Undo") [.pressed .zero false,.released .zero] := by
  have path : Runs advance (UICreator.GetButton "Undo") [.pressed .zero false,.released .zero] _ := run_exact.mp rfl
  refine ⟨⟨_,_,path,rfl⟩,rfl,fun sound => ?_⟩
  have titled := sound.titled.final path
  revert titled
  decide

end ButtonSubviews
end CanvasPainter
