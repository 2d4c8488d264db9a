import Mathlib.Data.Rat.Defs
import Mathlib.Data.List.Basic

namespace CanvasPainter

-- Finite values: the slider, the palette and UIKit's touches deliver no NaN and no infinity. What the views
-- compute from them is rounded to a double where they compute it.
abbrev CGFloat := ℚ
abbrev SwiftFloat := ℚ

-- CGFloat(_:) from a Float widens the significand, so no value changes.
def CGFloat.ofFloat (value : SwiftFloat) : CGFloat := value

structure CGPoint where
  x : CGFloat
  y : CGFloat
  deriving DecidableEq, Repr

structure CGColor where
  red : CGFloat
  green : CGFloat
  blue : CGFloat
  alpha : CGFloat
  deriving DecidableEq, Repr

structure UIColor where
  cgColor : CGColor
  deriving DecidableEq, Repr

namespace UIColor

def black : UIColor := ⟨⟨0,0,0,1⟩⟩
def cyan : UIColor := ⟨⟨0,1,1,1⟩⟩
def green : UIColor := ⟨⟨0,1,0,1⟩⟩
def orange : UIColor := ⟨⟨1,1/2,0,1⟩⟩
def purple : UIColor := ⟨⟨1/2,0,1/2,1⟩⟩
def red : UIColor := ⟨⟨1,0,0,1⟩⟩
def yellow : UIColor := ⟨⟨1,1,0,1⟩⟩
def white : UIColor := ⟨⟨1,1,1,1⟩⟩

end UIColor

structure Line where
  width : CGFloat
  color : CGColor
  points : List CGPoint
  deriving DecidableEq, Repr

-- `needsDisplay` is UIKit's flag behind setNeedsDisplay.
structure Canvas where
  strokeColor : UIColor
  strokeWidth : SwiftFloat
  lines : List Line
  needsDisplay : Bool
  deriving DecidableEq, Repr

namespace Canvas

-- Canvas() with the defaults of its stored properties, not drawn yet.
def initial : Canvas := ⟨.black,1,[],true⟩

def setNeedsDisplay (canvas : Canvas) : Canvas := {canvas with needsDisplay := true}

def touchesBegan (canvas : Canvas) : Canvas :=
  {canvas with lines := canvas.lines ++ [⟨.ofFloat canvas.strokeWidth,canvas.strokeColor.cgColor,[]⟩]}

-- `location` is touches.first?.location(in: self). The last line is popped, extended and pushed back.
def touchesMoved (canvas : Canvas) (location : Option CGPoint) : Canvas :=
  match location with
  | none => canvas
  | some point =>
    match canvas.lines.getLast? with
    | none => canvas
    | some lastLine =>
      {canvas with lines := canvas.lines.dropLast ++
        [{lastLine with points := lastLine.points ++ [point]}]}.setNeedsDisplay

-- Not overridden by the source: UIView's own handler leaves the canvas alone.
def touchesEnded (canvas : Canvas) : Canvas := canvas

def clearCanvas (canvas : Canvas) : Canvas := {canvas with lines := []}

variable {canvas : Canvas} {location : Option CGPoint} {point : CGPoint} {front : List Line} {last : Line}

@[simp] theorem setNeedsDisplay_lines : canvas.setNeedsDisplay.lines = canvas.lines := rfl
@[simp] theorem setNeedsDisplay_strokeColor : canvas.setNeedsDisplay.strokeColor = canvas.strokeColor := rfl
@[simp] theorem setNeedsDisplay_strokeWidth : canvas.setNeedsDisplay.strokeWidth = canvas.strokeWidth := rfl

@[simp] theorem touchesBegan_lines : canvas.touchesBegan.lines =
    canvas.lines ++ [⟨.ofFloat canvas.strokeWidth,canvas.strokeColor.cgColor,[]⟩] := rfl
@[simp] theorem touchesBegan_strokeColor : canvas.touchesBegan.strokeColor = canvas.strokeColor := rfl
@[simp] theorem touchesBegan_strokeWidth : canvas.touchesBegan.strokeWidth = canvas.strokeWidth := rfl

@[simp] theorem touchesMoved_nowhere : canvas.touchesMoved none = canvas := rfl

theorem touchesMoved_empty (empty : canvas.lines = []) : canvas.touchesMoved location = canvas := by
  cases location <;> simp [touchesMoved,empty]

theorem touchesMoved_concat (lines : canvas.lines = front ++ [last]) :
    (canvas.touchesMoved (some point)).lines = front ++ [{last with points := last.points ++ [point]}] := by
  simp [touchesMoved,lines]

@[simp] theorem touchesMoved_strokeColor : (canvas.touchesMoved location).strokeColor = canvas.strokeColor := by
  unfold touchesMoved
  split
  · rfl
  · split <;> rfl
@[simp] theorem touchesMoved_strokeWidth : (canvas.touchesMoved location).strokeWidth = canvas.strokeWidth := by
  unfold touchesMoved
  split
  · rfl
  · split <;> rfl

@[simp] theorem touchesEnded_eq : canvas.touchesEnded = canvas := rfl
@[simp] theorem clearCanvas_lines : canvas.clearCanvas.lines = [] := rfl
@[simp] theorem clearCanvas_strokeColor : canvas.clearCanvas.strokeColor = canvas.strokeColor := rfl
@[simp] theorem clearCanvas_strokeWidth : canvas.clearCanvas.strokeWidth = canvas.strokeWidth := rfl

end Canvas
end CanvasPainter
