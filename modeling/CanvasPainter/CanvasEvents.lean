import Mathlib.Data.List.Flatten
import Mathlib.Tactic.NormNum
import CanvasPainter.CanvasModel

namespace CanvasPainter

inductive ButtonTags where
  | SaveButton
  | ClearButton
  | UndoButton
  | ShareButton
  deriving DecidableEq, Repr

def ButtonTags.rawValue : ButtonTags → Int
  | .SaveButton => 0
  | .ClearButton => 1
  | .UndoButton => 2
  | .ShareButton => 3

inductive ButtonAction where
  | saveImage
  | presentWithInputAndUpload
  deriving DecidableEq, Repr

namespace CanvasDrawVC

def colorPalette : List UIColor := [.black,.cyan,.green,.orange,.purple,.red,.yellow,.white]

-- viewDidLoad numbers the palette buttons by enumerated(), and nothing writes a tag afterwards.
structure PaletteButton where
  tag : Nat
  created : tag < colorPalette.length
  deriving DecidableEq, Repr

def strokeSliderMinimumValue : SwiftFloat := 1
def strokeSliderMaximumValue : SwiftFloat := 10

-- UISlider clamps its value to the two bounds viewDidLoad sets.
structure StrokeSlider where
  value : SwiftFloat
  least : strokeSliderMinimumValue ≤ value
  most : value ≤ strokeSliderMaximumValue
  deriving DecidableEq, Repr

def sliderValueChanged (canvas : Canvas) (sender : StrokeSlider) : Canvas :=
  {canvas with strokeWidth := sender.value}

def PaletteButton.color (sender : PaletteButton) : UIColor := colorPalette.get ⟨sender.tag,sender.created⟩

def colorSelected (canvas : Canvas) (sender : PaletteButton) : Canvas :=
  {canvas with strokeColor := sender.color}

-- The switch on sender.tag in pressed(sender:); the swap of subviews before it leaves the canvas alone.
def senderBasedHandling (canvas : Canvas) (tag : Int) : Canvas × Option ButtonAction :=
  if tag = ButtonTags.SaveButton.rawValue then
    (canvas,if canvas.lines.length > 0 then some .saveImage else none)
  else if tag = ButtonTags.ClearButton.rawValue then
    (canvas.clearCanvas.setNeedsDisplay,none)
  else if tag = ButtonTags.UndoButton.rawValue then
    let undone := if canvas.lines.length > 0 then {canvas with lines := canvas.lines.dropLast} else canvas
    (undone.setNeedsDisplay,none)
  else if tag = ButtonTags.ShareButton.rawValue then
    (canvas,if canvas.lines.length > 0 then some .presentWithInputAndUpload else none)
  else (canvas,none)

end CanvasDrawVC

open CanvasDrawVC

inductive Event where
  | touchesBegan
  | touchesMoved (location : Option CGPoint)
  | touchesEnded
  | pressed (button : ButtonTags)
  | sliderValueChanged (sender : StrokeSlider)
  | colorSelected (sender : PaletteButton)
  deriving DecidableEq, Repr

namespace Canvas

def handle (canvas : Canvas) : Event → Canvas
  | .touchesBegan => canvas.touchesBegan
  | .touchesMoved location => canvas.touchesMoved location
  | .touchesEnded => canvas.touchesEnded
  | .pressed button => (senderBasedHandling canvas button.rawValue).1
  | .sliderValueChanged sender => CanvasDrawVC.sliderValueChanged canvas sender
  | .colorSelected sender => CanvasDrawVC.colorSelected canvas sender

def handleAll (canvas : Canvas) (events : List Event) : Canvas := events.foldl handle canvas

variable {canvas : Canvas}

@[simp] theorem handleAll_nil : canvas.handleAll [] = canvas := rfl
@[simp] theorem handleAll_cons : canvas.handleAll (event :: rest) = (canvas.handle event).handleAll rest := rfl

theorem handle_undo_lines : (canvas.handle (.pressed .UndoButton)).lines = canvas.lines.dropLast := by
  cases lines : canvas.lines <;>
    simp [handle,senderBasedHandling,ButtonTags.rawValue,lines]

theorem handle_clear_lines : (canvas.handle (.pressed .ClearButton)).lines = [] := rfl

theorem handle_save : canvas.handle (.pressed .SaveButton) = canvas := rfl
theorem handle_share : canvas.handle (.pressed .ShareButton) = canvas := rfl

theorem handle_undo_selection : (canvas.handle (.pressed .UndoButton)).strokeColor = canvas.strokeColor ∧
    (canvas.handle (.pressed .UndoButton)).strokeWidth = canvas.strokeWidth := by
  cases lines : canvas.lines <;>
    simp [handle,senderBasedHandling,ButtonTags.rawValue,lines]

theorem handle_slider_lines : (canvas.handle (.sliderValueChanged sender)).lines = canvas.lines := rfl
theorem handle_color_lines : (canvas.handle (.colorSelected sender)).lines = canvas.lines := rfl

end Canvas

abbrev Style := CGFloat × CGColor

def Line.style (line : Line) : Style := (line.width,line.color)
def Canvas.style (canvas : Canvas) : Style := (.ofFloat canvas.strokeWidth,canvas.strokeColor.cgColor)

namespace Event

-- The inputs alone, said without looking at a canvas or at what its handlers do: the slider's value is the
-- width, and the tag the colour's place in the palette.
def select (style : Style) : Event → Style
  | .sliderValueChanged sender => (sender.value,style.2)
  | .colorSelected sender => (style.1,colorPalette[sender.tag]?.elim style.2 UIColor.cgColor)
  | _ => style

def location : Event → Option CGPoint
  | .touchesMoved location => location
  | _ => none

def begun (style : Style) : Event → List Style
  | .touchesBegan => [style]
  | _ => []

end Event

def delivered (events : List Event) : List CGPoint := events.filterMap Event.location

def stylesAtBegan : Style → List Event → List Style
  | _,[] => []
  | style,event :: rest => event.begun style ++ stylesAtBegan (event.select style) rest

-- What the session begins with: a thin black stroke.
def startStyle : Style := (1,UIColor.black.cgColor)

theorem initial_style : Canvas.initial.style = startStyle := rfl

theorem palette_color (sender : PaletteButton) : colorPalette[sender.tag]? = some sender.color :=
  List.getElem?_eq_getElem sender.created

theorem handle_style (canvas : Canvas) (event : Event) :
    (canvas.handle event).style = event.select canvas.style := by
  cases event with
  | touchesBegan => rfl
  | touchesMoved location => simp [Canvas.handle,Canvas.style,Event.select]
  | touchesEnded => rfl
  | pressed button =>
      cases button with
      | UndoButton => simp [Canvas.style,Event.select,Canvas.handle_undo_selection]
      | SaveButton => rfl
      | ClearButton => rfl
      | ShareButton => rfl
  | sliderValueChanged sender => rfl
  | colorSelected sender =>
      rw [Event.select,palette_color]
      rfl

-- One event pushes at most one style and stores at most one location, both at the end.
theorem handle_styles (canvas : Canvas) (event : Event) :
    ((canvas.handle event).lines.map Line.style).Sublist (canvas.lines.map Line.style ++ event.begun canvas.style) := by
  cases event with
  | touchesBegan => simp [Canvas.handle,Event.begun,Line.style,Canvas.style]
  | touchesMoved location =>
      rcases List.eq_nil_or_concat' canvas.lines with empty | ⟨front,last,lines⟩
      · simp [Canvas.handle,Canvas.touchesMoved_empty empty]
      · cases location with
        | none => simp [Canvas.handle]
        | some point => simp [Canvas.handle,Canvas.touchesMoved_concat lines,lines,Line.style,Event.begun]
  | touchesEnded => simp [Canvas.handle]
  | pressed button =>
      cases button with
      | UndoButton =>
          rw [Canvas.handle_undo_lines]
          exact ((List.dropLast_sublist _).map _).trans (List.sublist_append_left _ _)
      | ClearButton => simp [Canvas.handle_clear_lines]
      | SaveButton => simp [Canvas.handle_save]
      | ShareButton => simp [Canvas.handle_share]
  | sliderValueChanged sender => simp [Canvas.handle_slider_lines]
  | colorSelected sender => simp [Canvas.handle_color_lines]

theorem handle_points (canvas : Canvas) (event : Event) :
    ((canvas.handle event).lines.flatMap Line.points).Sublist
      (canvas.lines.flatMap Line.points ++ event.location.toList) := by
  cases event with
  | touchesBegan => simp [Canvas.handle]
  | touchesMoved location =>
      rcases List.eq_nil_or_concat' canvas.lines with empty | ⟨front,last,lines⟩
      · simp [Canvas.handle,Canvas.touchesMoved_empty empty,empty]
      · cases location with
        | none => simp [Canvas.handle]
        | some point => simp [Canvas.handle,Canvas.touchesMoved_concat lines,lines,Event.location]
  | touchesEnded => simp [Canvas.handle]
  | pressed button =>
      cases button with
      | UndoButton =>
          rw [Canvas.handle_undo_lines]
          exact ((List.dropLast_sublist _).flatMap _).trans (List.sublist_append_left _ _)
      | ClearButton => simp [Canvas.handle_clear_lines]
      | SaveButton => simp [Canvas.handle_save]
      | ShareButton => simp [Canvas.handle_share]
  | sliderValueChanged sender => simp [Canvas.handle_slider_lines]
  | colorSelected sender => simp [Canvas.handle_color_lines]

theorem handleAll_styles (canvas : Canvas) (events : List Event) :
    ((canvas.handleAll events).lines.map Line.style).Sublist
      (canvas.lines.map Line.style ++ stylesAtBegan canvas.style events) := by
  induction events generalizing canvas with
  | nil => simp [Canvas.handleAll,stylesAtBegan]
  | cons event rest ih =>
      have later := ih (canvas.handle event)
      rw [handle_style] at later
      have now := (handle_styles canvas event).append (List.Sublist.refl (stylesAtBegan (event.select canvas.style) rest))
      simpa only [stylesAtBegan,Canvas.handleAll_cons,List.append_assoc] using later.trans now

theorem handleAll_points (canvas : Canvas) (events : List Event) :
    ((canvas.handleAll events).lines.flatMap Line.points).Sublist
      (canvas.lines.flatMap Line.points ++ delivered events) := by
  induction events generalizing canvas with
  | nil => simp [Canvas.handleAll,delivered]
  | cons event rest ih =>
      have later := ih (canvas.handle event)
      have now := (handle_points canvas event).append (List.Sublist.refl (delivered rest))
      have split : delivered (event :: rest) = event.location.toList ++ delivered rest := by
        cases found : event.location <;> simp [delivered,found]
      simpa only [split,Canvas.handleAll_cons,List.append_assoc] using later.trans now

def Offered (style : Style) : Prop :=
  1 ≤ style.1 ∧ style.1 ≤ 10 ∧ ∃ color ∈ colorPalette, style.2 = color.cgColor

theorem start_offered : Offered startStyle := by
  refine ⟨?_,?_,.black,by simp [colorPalette],rfl⟩ <;>
    norm_num [startStyle]

theorem select_offered (event : Event) (offered : Offered style) : Offered (event.select style) := by
  cases event with
  | sliderValueChanged sender => exact ⟨sender.least,sender.most,offered.2.2⟩
  | colorSelected sender =>
      refine ⟨offered.1,offered.2.1,sender.color,List.get_mem _ _,?_⟩
      rw [Event.select,palette_color]
      rfl
  | touchesBegan => exact offered
  | touchesMoved location => exact offered
  | touchesEnded => exact offered
  | pressed button => exact offered

theorem begun_offered (events : List Event) (offered : Offered style) :
    ∀ taken ∈ stylesAtBegan style events, Offered taken := by
  induction events generalizing style with
  | nil => simp [stylesAtBegan]
  | cons event rest ih =>
      intro taken member
      rcases List.mem_append.mp member with now | later
      · cases event <;> simp [Event.begun] at now
        exact now ▸ offered
      · exact ih (select_offered event offered) taken later

theorem lines_drawn_from_events (events : List Event) :
    ((Canvas.initial.handleAll events).lines.map Line.style).Sublist (stylesAtBegan startStyle events) ∧
    ((Canvas.initial.handleAll events).lines.flatMap Line.points).Sublist (delivered events) ∧
    ∀ line ∈ (Canvas.initial.handleAll events).lines, 1 ≤ line.width ∧ line.width ≤ 10 ∧
      ∃ color ∈ colorPalette, line.color = color.cgColor := by
  have styles := handleAll_styles Canvas.initial events
  have points := handleAll_points Canvas.initial events
  rw [initial_style] at styles
  refine ⟨by simpa [Canvas.initial] using styles,by simpa [Canvas.initial] using points,?_⟩
  intro line member
  have taken : line.style ∈ stylesAtBegan startStyle events := by
    simpa [Canvas.initial] using styles.subset (List.mem_map_of_mem member)
  exact begun_offered events start_offered _ taken

-- A wide cyan stroke after a thin black one.
example : stylesAtBegan startStyle [.touchesBegan,.touchesEnded,.sliderValueChanged ⟨3,by decide,by decide⟩,
    .colorSelected ⟨1,by decide⟩,.touchesBegan] = [(1,⟨0,0,0,1⟩),(3,⟨0,1,1,1⟩)] := by decide

end CanvasPainter
