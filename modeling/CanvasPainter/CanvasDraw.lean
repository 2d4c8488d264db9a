import CanvasPainter.CanvasEvents

namespace CanvasPainter

inductive CGLineCap where
  | butt
  | round
  | square
  deriving DecidableEq, Repr

structure Mark where
  polyline : List CGPoint
  color : CGColor
  width : CGFloat
  cap : CGLineCap
  deriving DecidableEq, Repr

inductive CGError where
  | noCurrentPoint
  deriving DecidableEq, Repr

-- The current path is its list of subpaths, each begun by one move(to:).
structure CGContext where
  strokeColor : CGColor
  lineWidth : CGFloat
  lineCap : CGLineCap
  path : List (List CGPoint)
  page : List Mark
  deriving DecidableEq, Repr

namespace CGContext

def setStrokeColor (context : CGContext) (color : CGColor) : CGContext := {context with strokeColor := color}
def setLineWidth (context : CGContext) (width : CGFloat) : CGContext := {context with lineWidth := width}
def setLineCap (context : CGContext) (cap : CGLineCap) : CGContext := {context with lineCap := cap}

def move (context : CGContext) (point : CGPoint) : CGContext := {context with path := context.path ++ [[point]]}

def addLine (context : CGContext) (point : CGPoint) : Except CGError CGContext :=
  match context.path.getLast? with
  | none => .error .noCurrentPoint
  | some subpath => .ok {context with path := context.path.dropLast ++ [subpath ++ [point]]}

-- Every subpath is stroked with the state of this moment; one that is only a move leaves no mark.
def strokePath (context : CGContext) : CGContext :=
  let marks := (context.path.filter (fun subpath => 2 ≤ subpath.length)).map
    (⟨·,context.strokeColor,context.lineWidth,context.lineCap⟩)
  {context with page := context.page ++ marks,path := []}

end CGContext

def Canvas.drawPoint (line : Line) (context : CGContext) (indexed : CGPoint × Nat) : Except CGError CGContext :=
  let styled := ((context.setStrokeColor line.color).setLineWidth line.width).setLineCap .round
  if indexed.2 = 0 then .ok (styled.move indexed.1) else styled.addLine indexed.1

-- The stroke is issued once a line, after its points and also without any.
def Canvas.drawLine (context : CGContext) (line : Line) : Except CGError CGContext :=
  (line.points.zipIdx.foldlM (Canvas.drawPoint line) context).map CGContext.strokePath

-- `current` is UIGraphicsGetCurrentContext(); draw returns at once without one.
def Canvas.draw (canvas : Canvas) (current : Option CGContext) : Except CGError (Option CGContext) :=
  match current with
  | none => .ok none
  | some context => (canvas.lines.foldlM Canvas.drawLine context).map some

def Line.visible (line : Line) : Bool := 2 ≤ line.points.length
def Line.mark (line : Line) : Mark := ⟨line.points,line.color,line.width,.round⟩
def picture (lines : List Line) : List Mark := (lines.filter Line.visible).map Line.mark

def Canvas.paints (canvas : Canvas) (context : CGContext) : Except CGError (List Mark) :=
  (canvas.lines.foldlM Canvas.drawLine context).map (·.page.drop context.page.length)

@[simp] theorem picture_append (one two : List Line) : picture (one ++ two) = picture one ++ picture two := by
  simp [picture]

namespace Canvas

def styled (line : Line) (context : CGContext) : CGContext :=
  {context with strokeColor := line.color,lineWidth := line.width,lineCap := .round}

-- Within a line, from its second point on: one open subpath, and the stroke state is already the line's.
theorem drawPoints_open (line : Line) (context : CGContext) (points taken : List CGPoint) (k : Nat) :
    (points.zipIdx (k+1)).foldlM (drawPoint line) {styled line context with path := [taken]} =
      .ok {styled line context with path := [taken ++ points]} := by
  induction points generalizing taken k with
  | nil => simp [pure,Except.pure]
  | cons point rest ih =>
      have first : drawPoint line {styled line context with path := [taken]} (point,k+1) =
          .ok {styled line context with path := [taken ++ [point]]} := rfl
      have later := ih (taken ++ [point]) (k+1)
      rw [List.append_assoc] at later
      rw [List.zipIdx_cons,List.foldlM_cons,first]
      exact later

theorem drawPoints_line (line : Line) (context : CGContext) (point : CGPoint) (rest : List CGPoint)
    (blank : context.path = []) :
    ((point :: rest).zipIdx).foldlM (drawPoint line) context =
      .ok {styled line context with path := [point :: rest]} := by
  have first : drawPoint line context (point,0) = .ok {styled line context with path := [[point]]} := by
    simp [drawPoint,CGContext.move,CGContext.setStrokeColor,CGContext.setLineWidth,CGContext.setLineCap,styled,blank]
  rw [List.zipIdx_cons,List.foldlM_cons,first]
  exact drawPoints_open line context rest [point] 0

-- Between lines only the page matters: the state the line before left behind is set again before any stroke.
theorem drawLine_blank (context : CGContext) (line : Line) (blank : context.path = []) :
    ∃ after, drawLine context line = .ok after ∧ after.path = [] ∧ after.page = context.page ++ picture [line] := by
  unfold drawLine
  cases points : line.points with
  | nil =>
      refine ⟨context.strokePath,rfl,rfl,?_⟩
      simp [CGContext.strokePath,blank,picture,Line.visible,points]
  | cons point rest =>
      rw [drawPoints_line line context point rest blank]
      refine ⟨_,rfl,rfl,?_⟩
      by_cases enough : 1 ≤ rest.length
      · simp [CGContext.strokePath,styled,picture,Line.visible,Line.mark,points,enough]
      · simp [CGContext.strokePath,styled,picture,Line.visible,points,enough]

theorem drawLines_blank (context : CGContext) (lines : List Line) (blank : context.path = []) :
    ∃ after, lines.foldlM drawLine context = .ok after ∧ after.path = [] ∧
      after.page = context.page ++ picture lines := by
  induction lines generalizing context with
  | nil => exact ⟨context,rfl,blank,by simp [picture]⟩
  | cons line rest ih =>
      obtain ⟨middle,drawn,empty,page⟩ := drawLine_blank context line blank
      obtain ⟨after,finished,closed,total⟩ := ih middle empty
      refine ⟨after,?_,closed,?_⟩
      · rw [List.foldlM_cons,drawn]; exact finished
      · rw [total,page,List.append_assoc,← picture_append]; rfl

theorem paints_picture (canvas : Canvas) (context : CGContext) (blank : context.path = []) :
    canvas.paints context = .ok (picture canvas.lines) := by
  obtain ⟨after,drawn,_,page⟩ := drawLines_blank context canvas.lines blank
  simp [paints,drawn,Except.map,page]

end Canvas

-- The stroke state at the call is arbitrary; the path is empty, as a fresh context's is.
theorem draw_paints_polylines (context : CGContext) (blank : context.path = []) :
    (∀ canvas : Canvas, ∃ after, canvas.draw (some context) = .ok (some after) ∧ after.path = [] ∧
      after.page = context.page ++ (canvas.lines.filter (fun line => 2 ≤ line.points.length)).map
        (fun line => ⟨line.points,line.color,line.width,.round⟩)) ∧
    (∀ (canvas : Canvas) (front back : List Line) (thin : Line), thin.points.length < 2 →
      {canvas with lines := front ++ thin :: back}.paints context =
        {canvas with lines := front ++ back}.paints context) ∧
    (∀ (canvas : Canvas) (one two : List Line), {canvas with lines := one ++ two}.paints context = do
      let first ← {canvas with lines := one}.paints context
      let second ← {canvas with lines := two}.paints context
      return first ++ second) := by
  refine ⟨?_,?_,?_⟩
  · intro canvas
    obtain ⟨after,drawn,empty,page⟩ := Canvas.drawLines_blank context canvas.lines blank
    exact ⟨after,by simp [Canvas.draw,drawn,Except.map],empty,page⟩
  · intro canvas front back thin short
    have invisible : thin.visible = false := by simpa [Line.visible] using short
    simp [Canvas.paints_picture _ _ blank,picture,invisible]
  · intro canvas one two
    simp [Canvas.paints_picture _ _ blank,bind,Except.bind,pure,Except.pure]

theorem draw_paints_polylines_mixed :
    let context : CGContext := ⟨UIColor.red.cgColor,7,.square,[],[]⟩
    let lines : List Line := [⟨1,UIColor.black.cgColor,[]⟩,⟨2,UIColor.cyan.cgColor,[⟨0,0⟩]⟩,
      ⟨3,UIColor.green.cgColor,[⟨0,0⟩,⟨1,1⟩]⟩]
    context.path = [] ∧ ∃ after, {Canvas.initial with lines := lines}.draw (some context) = .ok (some after) ∧
      after.path = [] ∧ after.page = [⟨[⟨0,0⟩,⟨1,1⟩],UIColor.green.cgColor,3,.round⟩] := by
  intro context lines
  obtain ⟨after,drawn,empty,page⟩ := (draw_paints_polylines context rfl).1 {Canvas.initial with lines := lines}
  exact ⟨rfl,after,drawn,empty,by simpa [context,lines] using page⟩

end CanvasPainter
