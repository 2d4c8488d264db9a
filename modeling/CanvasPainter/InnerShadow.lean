import CanvasPainter.UIKitViews
import Mathlib.Tactic.Ring
import Mathlib.Tactic.Linarith

namespace CanvasPainter
open BinaryRounding FramedRegions

inductive innerShadowSide where
  | all
  | left
  | right
  | top
  | bottom
  | topAndLeft
  | topAndRight
  | bottomAndLeft
  | bottomAndRight
  | exceptLeft
  | exceptRight
  | exceptTop
  | exceptBottom
  deriving DecidableEq, Repr

namespace innerShadowSide

-- The sides a case names; an except case names the three others.
def sides : innerShadowSide → List Side
  | .all => [.left,.right,.top,.bottom]
  | .left => [.left]
  | .right => [.right]
  | .top => [.top]
  | .bottom => [.bottom]
  | .topAndLeft => [.top,.left]
  | .topAndRight => [.top,.right]
  | .bottomAndLeft => [.bottom,.left]
  | .bottomAndRight => [.bottom,.right]
  | .exceptLeft => [.right,.top,.bottom]
  | .exceptRight => [.left,.top,.bottom]
  | .exceptTop => [.left,.right,.bottom]
  | .exceptBottom => [.left,.right,.top]

end innerShadowSide

def CGRect.xywh (x y width height : CGFloat) : CGRect := ⟨⟨x,y⟩,⟨width,height⟩⟩

namespace UIView
open CGFloat

def innerFrame (frame : CGRect) (shadowSize : CGFloat) : innerShadowSide → CGRect
  | .all => .xywh 0 0 frame.size.width frame.size.height
  | .left =>
    .xywh 0 (times (-shadowSize) 2) (plus frame.size.width (times shadowSize 2))
      (plus frame.size.height (times shadowSize 4))
  | .right =>
    .xywh (times (-shadowSize) 2) (times (-shadowSize) 2) (plus frame.size.width (times shadowSize 2))
      (plus frame.size.height (times shadowSize 4))
  | .top =>
    .xywh (times (-shadowSize) 2) 0 (plus frame.size.width (times shadowSize 4))
      (plus frame.size.height (times shadowSize 2))
  | .bottom =>
    .xywh (times (-shadowSize) 2) (times (-shadowSize) 2) (plus frame.size.width (times shadowSize 4))
      (plus frame.size.height (times shadowSize 2))
  | .topAndLeft =>
    .xywh 0 0 (plus frame.size.width (times shadowSize 2)) (plus frame.size.height (times shadowSize 2))
  | .topAndRight =>
    .xywh (times (-shadowSize) 2) 0 (plus frame.size.width (times shadowSize 2))
      (plus frame.size.height (times shadowSize 2))
  | .bottomAndLeft =>
    .xywh 0 (times (-shadowSize) 2) (plus frame.size.width (times shadowSize 2))
      (plus frame.size.height (times shadowSize 2))
  | .bottomAndRight =>
    .xywh (times (-shadowSize) 2) (times (-shadowSize) 2) (plus frame.size.width (times shadowSize 2))
      (plus frame.size.height (times shadowSize 2))
  | .exceptLeft => .xywh (times (-shadowSize) 2) 0 (plus frame.size.width (times shadowSize 2)) frame.size.height
  | .exceptRight => .xywh 0 0 (plus frame.size.width (times shadowSize 2)) frame.size.height
  | .exceptTop => .xywh 0 (times (-shadowSize) 2) frame.size.width (plus frame.size.height (times shadowSize 2))
  | .exceptBottom => .xywh 0 0 frame.size.width (plus frame.size.height (times shadowSize 2))

-- No line reads the cornerRadius it is given.
def innerShadowLayer (view : UIView) (onSide : innerShadowSide) (shadowColor : UIColor) (shadowSize : CGFloat)
    (shadowOpacity : SwiftFloat) : CAShapeLayer :=
  let insetRect := view.bounds.insetBy (times (-shadowSize) 2) (times (-shadowSize) 2)
  ⟨view.bounds,shadowColor.cgColor,⟨0,0⟩,shadowOpacity,shadowSize,.evenOdd,
    insetRect.toList ++ [innerFrame view.frame shadowSize onSide]⟩

def addInnerShadow (view : UIView) (onSide : innerShadowSide) (shadowColor : UIColor) (shadowSize : CGFloat)
    (_cornerRadius : CGFloat) (shadowOpacity : SwiftFloat) : UIView :=
  let shadowLayer := view.innerShadowLayer onSide shadowColor shadowSize shadowOpacity
  {view with layer := view.layer.addSublayer (.shape shadowLayer)}.clip true

end UIView

open CGFloat

variable {view : UIView} {outer : CGRect} {shadowSize : CGFloat} {onSide : innerShadowSide}

-- The view's edges moved outwards by `reach`.
structure Grown (outer rect : CGRect) (reach : CGFloat) : Prop where
  left : outer.edges .left = rect.edges .left - reach
  right : outer.edges .right = rect.edges .right + reach
  top : outer.edges .top = rect.edges .top - reach
  bottom : outer.edges .bottom = rect.edges .bottom + reach

-- An extent of the view, and the two sums addInnerShadow makes of it and its shadow size, all of them doubles.
structure ExactSums (extent shadowSize : CGFloat) : Prop where
  alone : Double extent
  two : Double (extent + shadowSize * 2)
  four : Double (extent + shadowSize * 4)

-- What then comes of every operation on this extent.
structure Unrounded (extent shadowSize : CGFloat) : Prop where
  two : times shadowSize 2 = shadowSize * 2
  back : times (-shadowSize) 2 = -(shadowSize * 2)
  four : times shadowSize 4 = shadowSize * 4
  twice : times (-(shadowSize * 2)) 2 = -(shadowSize * 4)
  sum : plus extent (shadowSize * 2) = extent + shadowSize * 2
  sums : plus extent (shadowSize * 4) = extent + shadowSize * 4
  inset : minus extent (-(shadowSize * 4)) = extent + shadowSize * 4
  origin : plus 0 (-(shadowSize * 2)) = -(shadowSize * 2)
  flush : plus 0 extent = extent
  far : plus 0 (extent + shadowSize * 2) = extent + shadowSize * 2
  shifted : plus (-(shadowSize * 2)) (extent + shadowSize * 2) = extent
  spread : plus (-(shadowSize * 2)) (extent + shadowSize * 4) = extent + shadowSize * 2

theorem ExactSums.unrounded (exact' : ExactSums extent shadowSize) (double : Double shadowSize) (positive : 0 < shadowSize)
    (nonneg : 0 ≤ extent) : Unrounded extent shadowSize := by
  obtain ⟨alone,two,four⟩ := exact'
  have greatest := lt_of_abs_lt four.abs_lt
  -- The products are not greater than the sums they are for.
  have doubled : Double (shadowSize * 2) := by
    have product := double.shifted (by decide) 1 (abs_lt.mpr ⟨by linarith,by linarith⟩)
    rwa [pow_one] at product
  have quadrupled : Double (shadowSize * 4) := by
    have product := double.shifted (by decide) 2 (abs_lt.mpr ⟨by linarith,by linarith⟩)
    norm_num at product
    exact product
  refine ⟨times_exact doubled rfl,times_exact doubled.neg (by ring),times_exact quadrupled rfl,
    times_exact quadrupled.neg (by ring),plus_exact two rfl,plus_exact four rfl,minus_exact four (by ring),
    plus_exact doubled.neg (by ring),plus_exact alone (by ring),plus_exact two (by ring),plus_exact alone (by ring),
    plus_exact two (by ring)⟩

-- Extents that are whole numbers of one unit are added exactly.
theorem ExactSums.of_units (units shadow exponent : Int) (few : |units| + 4 * |shadow| < 2^53)
    (least : -1074 ≤ exponent) (greatest : exponent ≤ 971) : ExactSums (units * 2^exponent) (shadow * 2^exponent) := by
  have bound : ∀ count : Int, 0 ≤ count → count ≤ 4 → |units + shadow * count| < 2^53 := by
    intro count nonneg most
    have split := abs_add_le units (shadow * count)
    rw [abs_mul,abs_of_nonneg nonneg] at split
    have part := mul_le_mul_of_nonneg_left most (abs_nonneg shadow)
    omega
  refine ⟨⟨units,exponent,?_,least,greatest,rfl⟩,⟨units + shadow * 2,exponent,?_,least,greatest,?_⟩,
    ⟨units + shadow * 4,exponent,?_,least,greatest,?_⟩⟩
  · have alone := bound 0 (by decide) (by decide)
    rwa [mul_zero,add_zero] at alone
  · exact bound 2 (by decide) (by decide)
  · push_cast; ring
  · exact bound 4 (by decide) (by decide)
  · push_cast; ring

theorem insetBy_grown {size : CGSize} (width : Unrounded size.width shadowSize) (height : Unrounded size.height shadowSize)
    (wide : 0 ≤ size.width) (high : 0 ≤ size.height) (positive : 0 < shadowSize) :
    ∃ outer, (⟨⟨0,0⟩,size⟩ : CGRect).insetBy (times (-shadowSize) 2) (times (-shadowSize) 2) = some outer ∧
      Grown outer ⟨⟨0,0⟩,size⟩ (shadowSize * 2) := by
  refine ⟨⟨⟨-(shadowSize * 2),-(shadowSize * 2)⟩,⟨size.width + shadowSize * 4,size.height + shadowSize * 4⟩⟩,?_,?_⟩
  · simp only [CGRect.insetBy,width.back,width.twice,width.inset,height.inset,width.origin]
    refine if_neg fun negative => ?_
    rcases negative with narrow | low
    · linarith
    · linarith
  · refine ⟨?_,?_,?_,?_⟩ <;>
      simp only [CGRect.edges,width.spread,height.spread,width.flush,height.flush,zero_sub]

theorem grown_encloses (grown : Grown outer rect reach) (positive : 0 < reach) : Encloses outer.edges rect.edges := by
  intro side x y beyond
  cases side with
  | left =>
      have outside : x < outer.edges .left := beyond
      have edge := grown.left
      change x < rect.edges .left
      linarith
  | right =>
      have outside : outer.edges .right < x := beyond
      have edge := grown.right
      change rect.edges .right < x
      linarith
  | top =>
      have outside : y < outer.edges .top := beyond
      have edge := grown.top
      change y < rect.edges .top
      linarith
  | bottom =>
      have outside : outer.edges .bottom < y := beyond
      have edge := grown.bottom
      change rect.edges .bottom < y
      linarith

-- Thirteen rectangles against one description, edge by edge.
theorem innerFrame_framed (origin : view.bounds = ⟨⟨0,0⟩,view.frame.size⟩)
    (width : Unrounded view.frame.size.width shadowSize) (height : Unrounded view.frame.size.height shadowSize)
    (grown : Grown outer view.bounds (shadowSize * 2)) (onSide : innerShadowSide) :
    Framed onSide.sides outer.edges view.bounds.edges (UIView.innerFrame view.frame shadowSize onSide).edges := by
  obtain ⟨left,right,top,bottom⟩ := grown
  rw [origin] at left right top bottom ⊢
  intro side
  cases side with
  | left =>
      rw [left]
      cases onSide <;> simp [UIView.innerFrame,innerShadowSide.sides,CGRect.edges,CGRect.xywh,width.back]
  | right =>
      rw [right]
      cases onSide <;> simp [UIView.innerFrame,innerShadowSide.sides,CGRect.edges,CGRect.xywh,width.two,width.back,
        width.four,width.sum,width.sums,width.flush,width.far,width.shifted,width.spread]
  | top =>
      rw [top]
      cases onSide <;> simp [UIView.innerFrame,innerShadowSide.sides,CGRect.edges,CGRect.xywh,height.back]
  | bottom =>
      rw [bottom]
      cases onSide <;> simp [UIView.innerFrame,innerShadowSide.sides,CGRect.edges,CGRect.xywh,height.two,height.back,
        height.four,height.sum,height.sums,height.flush,height.far,height.shifted,height.spread]

theorem innerShadow_region (view : UIView) (onSide : innerShadowSide) (shadowColor : UIColor) (cornerRadius : CGFloat)
    (shadowOpacity : SwiftFloat) (origin : view.bounds = ⟨⟨0,0⟩,view.frame.size⟩) (wide : 0 ≤ view.frame.size.width)
    (high : 0 ≤ view.frame.size.height) (positive : 0 < shadowSize) (double : Double shadowSize)
    (across : ExactSums view.frame.size.width shadowSize) (down : ExactSums view.frame.size.height shadowSize) :
    ∃ insetRect shadowLayer, view.bounds.insetBy (times (-shadowSize) 2) (times (-shadowSize) 2) = some insetRect ∧
      (view.addInnerShadow onSide shadowColor shadowSize cornerRadius shadowOpacity).layer.sublayers =
        view.layer.sublayers ++ [.shape shadowLayer] ∧
      (∀ point, shadowLayer.Fills point ↔ Covers insetRect.edges point.x point.y ∧
        ∃ side ∈ onSide.sides, Beyond view.bounds.edges side point.x point.y) ∧
      (∀ x y, Covers (UIView.innerFrame view.frame shadowSize onSide).edges x y → Covers insetRect.edges x y) ∧
      ∀ side, (UIView.innerFrame view.frame shadowSize onSide).edges side =
        if side ∈ onSide.sides then view.bounds.edges side else insetRect.edges side := by
  have width := across.unrounded double positive wide
  have height := down.unrounded double positive high
  obtain ⟨insetRect,inset,grown⟩ := insetBy_grown width height wide high positive
  rw [← origin] at inset grown
  have framed := innerFrame_framed origin width height grown onSide
  have encloses := grown_encloses grown (by linarith)
  have within : ∀ x y, Covers (UIView.innerFrame view.frame shadowSize onSide).edges x y → Covers insetRect.edges x y :=
    fun x y => framed_within framed encloses
  refine ⟨insetRect,view.innerShadowLayer onSide shadowColor shadowSize shadowOpacity,inset,rfl,?_,within,framed⟩
  intro point
  have path : (view.innerShadowLayer onSide shadowColor shadowSize shadowOpacity).path =
      [insetRect,UIView.innerFrame view.frame shadowSize onSide] := by
    simp only [UIView.innerShadowLayer,inset]
    rfl
  change EvenOdd ((view.innerShadowLayer onSide shadowColor shadowSize shadowOpacity).path.map CGRect.edges) _ _ ↔ _
  rw [path,List.map_cons,List.map_singleton,evenOdd_nested (within _ _)]
  constructor
  · intro ⟨covers,outside⟩
    exact ⟨covers,(framed_outside framed covers).mp outside⟩
  · intro ⟨covers,beyond⟩
    exact ⟨covers,(framed_outside framed covers).mpr beyond⟩

-- The dark half of a pressed button's shadow.
theorem innerShadow_region_pressed :
    ∃ shadowLayer, ((UIView.initWithFrame (.xywh 20 0 80 30)).addInnerShadow .topAndLeft .black 10 0
        (1/5)).layer.sublayers = [.shape shadowLayer] ∧ shadowLayer.Fills ⟨-5,10⟩ ∧ ¬shadowLayer.Fills ⟨85,10⟩ := by
  have double : Double 10 := ⟨10,0,by decide,by decide,by decide,by norm_num⟩
  have across : ExactSums 80 10 := by simpa using ExactSums.of_units 80 10 0 (by decide) (by decide) (by decide)
  have down : ExactSums 30 10 := by simpa using ExactSums.of_units 30 10 0 (by decide) (by decide) (by decide)
  obtain ⟨insetRect,shadowLayer,inset,sublayers,fills,_⟩ := innerShadow_region (UIView.initWithFrame (.xywh 20 0 80 30))
    .topAndLeft .black 0 (1/5) rfl (by decide) (by decide) (by decide) double across down
  obtain rfl : ⟨⟨-20,-20⟩,⟨120,70⟩⟩ = insetRect := Option.some.inj ((by decide +kernel : _ = _).trans inset)
  refine ⟨shadowLayer,sublayers,?_,?_⟩
  · refine (fills _).mpr ⟨by decide +kernel,.left,by decide,?_⟩
    exact (by decide +kernel : (-5 : ℚ) < 0)
  · intro filled
    obtain ⟨_,side,named,beyond⟩ := (fills _).mp filled
    rcases List.mem_pair.mp named with rfl | rfl
    · exact absurd beyond (by decide +kernel : ¬(10 : ℚ) < 0)
    · exact absurd beyond (by decide +kernel : ¬(85 : ℚ) < 0)

-- A view of 361/3 points: w + 20 has no place for the last digit of w, so the shadow comes in at the right edge.
theorem innerShadow_region_rounded :
    let width : CGFloat := 8467705549378901 / 2^46
    let view := UIView.initWithFrame (.xywh 0 0 width 30)
    Double width ∧ width = rounded binary64 (361/3) ∧
    (UIView.innerFrame view.frame 10 .bottomAndRight).edges .right ≠ view.bounds.edges .right ∧
    ∃ shadowLayer, (view.addInnerShadow .bottomAndRight .white 10 0 (7/10)).layer.sublayers = [.shape shadowLayer] ∧
      shadowLayer.Fills ⟨width,10⟩ ∧ ¬∃ side ∈ innerShadowSide.bottomAndRight.sides, Beyond view.bounds.edges side width 10 := by
  intro width view
  refine ⟨⟨8467705549378901,-46,by decide,by decide,by decide,by decide +kernel⟩,by decide +kernel,by decide +kernel,
    _,rfl,?_,?_⟩
  · change EvenOdd _ _ _
    unfold EvenOdd
    decide +kernel
  · rintro ⟨side,named,beyond⟩
    rcases List.mem_pair.mp named with rfl | rfl
    · change plus 0 30 < 10 at beyond
      exact absurd beyond (by decide +kernel)
    · change plus 0 width < width at beyond
      exact absurd beyond (by decide +kernel)

end CanvasPainter
