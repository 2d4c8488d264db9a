import CanvasPainter.BinaryRounding
import CanvasPainter.CanvasModel
import CanvasPainter.FramedRegions
import Mathlib.Algebra.Order.Ring.Rat

namespace CanvasPainter
open BinaryRounding FramedRegions

namespace CGFloat

-- A double's significand and exponents. A result past the greatest double stays a number here, and is no `Double`.
def binary64 : Format := ⟨53,-1074,971⟩

def Double (value : CGFloat) : Prop := Representable binary64 value

def plus (left right : CGFloat) : CGFloat := rounded binary64 (left + right)
def minus (left right : CGFloat) : CGFloat := rounded binary64 (left - right)
def times (left right : CGFloat) : CGFloat := rounded binary64 (left * right)

variable {left right result : CGFloat}

theorem plus_exact (double : Double result) (same : left + right = result) : plus left right = result := by
  rw [plus,same,rounded_representable double]

theorem minus_exact (double : Double result) (same : left - right = result) : minus left right = result := by
  rw [minus,same,rounded_representable double]

theorem times_exact (double : Double result) (same : left * right = result) : times left right = result := by
  rw [times,same,rounded_representable double]

end CGFloat

def UIColor.offWhite : UIColor := ⟨⟨225/255,225/255,235/255,255/255⟩⟩

structure CGSize where
  width : CGFloat
  height : CGFloat
  deriving DecidableEq, Repr

structure CGRect where
  origin : CGPoint
  size : CGSize
  deriving DecidableEq, Repr

namespace CGRect

def zero : CGRect := ⟨⟨0,0⟩,⟨0,0⟩⟩

-- minX, maxX, minY and maxY of a rectangle whose size is not negative.
def edges (rect : CGRect) : Edges CGFloat
  | .left => rect.origin.x
  | .right => .plus rect.origin.x rect.size.width
  | .top => rect.origin.y
  | .bottom => .plus rect.origin.y rect.size.height

-- none is the null rectangle, where the insets leave a negative size.
def insetBy (rect : CGRect) (dx dy : CGFloat) : Option CGRect :=
  let size : CGSize := ⟨.minus rect.size.width (.times dx 2),.minus rect.size.height (.times dy 2)⟩
  if size.width < 0 ∨ size.height < 0 then none
  else some ⟨⟨.plus rect.origin.x dx,.plus rect.origin.y dy⟩,size⟩

end CGRect

structure CALayer where
  frame : CGRect
  backgroundColor : Option CGColor
  shadowColor : CGColor
  cornerRadius : CGFloat
  shadowOffset : CGSize
  shadowOpacity : SwiftFloat
  shadowRadius : CGFloat
  deriving DecidableEq, Repr

inductive CAShapeLayerFillRule where
  | nonZero
  | evenOdd
  deriving DecidableEq, Repr

-- The path is made of rectangles only.
structure CAShapeLayer where
  frame : CGRect
  shadowColor : CGColor
  shadowOffset : CGSize
  shadowOpacity : SwiftFloat
  shadowRadius : CGFloat
  fillRule : CAShapeLayerFillRule
  path : List CGRect
  deriving DecidableEq, Repr

def CAShapeLayer.Fills (layer : CAShapeLayer) (point : CGPoint) : Prop :=
  match layer.fillRule with
  | .nonZero => ∃ rect ∈ layer.path, Covers rect.edges point.x point.y
  | .evenOdd => EvenOdd (layer.path.map CGRect.edges) point.x point.y

-- `ofSubview` is the layer of a subview, here only ever the canvas.
inductive Sublayer where
  | plain (layer : CALayer)
  | shape (layer : CAShapeLayer)
  | ofSubview
  deriving DecidableEq, Repr

-- The layer behind a view; its background color is the view's.
structure BackingLayer where
  masksToBounds : Bool
  backgroundColor : Option CGColor
  cornerRadius : CGFloat
  sublayers : List Sublayer
  deriving DecidableEq, Repr

namespace BackingLayer

def addSublayer (layer : BackingLayer) (sublayer : Sublayer) : BackingLayer :=
  {layer with sublayers := layer.sublayers ++ [sublayer]}

def insertSublayer (layer : BackingLayer) (sublayer : Sublayer) (index : Nat) : BackingLayer :=
  {layer with sublayers := layer.sublayers.insertIdx index sublayer}

end BackingLayer

structure UIView where
  frame : CGRect
  bounds : CGRect
  isUserInteractionEnabled : Bool
  layer : BackingLayer
  deriving DecidableEq, Repr

namespace UIView

def initWithFrame (frame : CGRect) : UIView := ⟨frame,⟨⟨0,0⟩,frame.size⟩,true,⟨false,none,0,[]⟩⟩

def backgroundColor (view : UIView) : Option CGColor := view.layer.backgroundColor

-- clipsToBounds is the layer's masksToBounds.
def clip (view : UIView) (clipsToBounds : Bool) : UIView := {view with layer.masksToBounds := clipsToBounds}

-- The layout engine moves a view's bounds and its frame together.
def layOut (view : UIView) (bounds : CGRect) : UIView :=
  {view with bounds := bounds, frame := ⟨view.frame.origin,bounds.size⟩}

end UIView
end CanvasPainter
