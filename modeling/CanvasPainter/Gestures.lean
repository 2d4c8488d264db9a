import CanvasPainter.TransitionRuns
import CanvasPainter.CanvasEvents

namespace CanvasPainter.Gestures
open TransitionRuns CanvasDrawVC

structure Session where
  canvas : Canvas
  touching : Bool
  deriving DecidableEq, Repr

def start : Session := ⟨.initial,false⟩

-- One touch at a time draws (isMultipleTouchEnabled keeps its default); the other views have fingers of their own.
def admits (touching : Bool) : Event → Bool
  | .touchesBegan => !touching
  | .touchesMoved _ => touching
  | .touchesEnded => touching
  | _ => true

def touchingAfter (touching : Bool) : Event → Bool
  | .touchesBegan => true
  | .touchesEnded => false
  | _ => touching

def advance (s : Session) (event : Event) : Option Session :=
  if admits s.touching event then some ⟨s.canvas.handle event,touchingAfter s.touching event⟩ else none

theorem advance_exact : advance s event = some t ↔
    admits s.touching event = true ∧ t = ⟨s.canvas.handle event,touchingAfter s.touching event⟩ := by
  unfold advance
  split
  · rename_i allowed
    simp [allowed,eq_comm]
  · rename_i refused
    simp [refused]

-- A history read as whole gestures with the events inside them, events between gestures, and an open rest.
inductive Act where
  | gesture (body : List Event)
  | between (event : Event)
  deriving DecidableEq, Repr

structure Reading where
  acts : List Act
  current : Option (List Event)
  deriving DecidableEq, Repr

def Act.events : Act → List Event
  | .gesture body => .touchesBegan :: body ++ [.touchesEnded]
  | .between event => [event]

def Reading.events (r : Reading) : List Event :=
  r.acts.flatMap Act.events ++ r.current.elim [] (Event.touchesBegan :: ·)

def Reading.extend (r : Reading) (event : Event) : Reading :=
  match r.current,event with
  | none,.touchesBegan => {r with current := some []}
  | none,event => {r with acts := r.acts ++ [.between event]}
  | some body,.touchesEnded => ⟨r.acts ++ [.gesture body],none⟩
  | some body,event => {r with current := some (body ++ [event])}

def read (events : List Event) : Reading := events.foldl Reading.extend ⟨[],none⟩

theorem read_concat : read (events ++ [event]) = (read events).extend event := by simp [read]

theorem extend_events (r : Reading) (event : Event) : (r.extend event).events = r.events ++ [event] := by
  rcases r with ⟨acts,current⟩
  cases current with
  | none => cases event <;> simp [Reading.extend,Reading.events,Act.events]
  | some body => cases event <;> simp [Reading.extend,Reading.events,Act.events]

theorem read_events (events : List Event) : (read events).events = events := by
  induction events using List.reverseRecOn with
  | nil => rfl
  | append_singleton earlier event ih => rw [read_concat,extend_events,ih]

-- The reference: a gesture is one atomic push of its whole stroke, in the
-- style selected when it began; Undo pops a stroke and Clear drops them all.
structure Reference where
  style : Style
  strokes : List Line
  deriving DecidableEq, Repr

def restack (strokes : List Line) : Event → List Line
  | .pressed .UndoButton => strokes.dropLast
  | .pressed .ClearButton => []
  | _ => strokes

def stroke (style : Style) (body : List Event) : Line := ⟨style.1,style.2,delivered body⟩

def Act.perform (r : Reference) : Act → Reference
  | .gesture body => ⟨body.foldl Event.select r.style,r.strokes ++ [stroke r.style body]⟩
  | .between event => ⟨event.select r.style,restack r.strokes event⟩

def Reading.settled (r : Reading) : Reference := r.acts.foldl Act.perform ⟨startStyle,[]⟩

def Reading.stack (r : Reading) : List Line :=
  r.settled.strokes ++ (r.current.map (stroke r.settled.style)).toList

def Reading.selected (r : Reading) : Style := (r.current.getD []).foldl Event.select r.settled.style

def removes : Event → Bool
  | .pressed .UndoButton => true
  | .pressed .ClearButton => true
  | _ => false

theorem delivered_concat : delivered (events ++ [event]) = delivered events ++ event.location.toList := by
  cases found : event.location <;> simp [delivered,found]

variable {canvas : Canvas} {front : List Line} {last : Line}
  {gestures : List (List Event × List Event)} {undos : List (List Event)}

theorem handle_idle (idle : admits false event = true) (other : event ≠ .touchesBegan) :
    (canvas.handle event).lines = restack canvas.lines event := by
  cases event with
  | touchesBegan => exact absurd rfl other
  | touchesMoved location => simp [admits] at idle
  | touchesEnded => simp [admits] at idle
  | pressed button =>
      cases button with
      | UndoButton => exact Canvas.handle_undo_lines
      | ClearButton => exact Canvas.handle_clear_lines
      | SaveButton => rfl
      | ShareButton => rfl
  | sliderValueChanged sender => rfl
  | colorSelected sender => rfl

-- Inside a gesture that keeps its line, an event appends at most its location to the last line.
theorem handle_during (inside : admits true event = true) (keeps : removes event = false)
    (lines : canvas.lines = front ++ [last]) :
    (canvas.handle event).lines = front ++ [{last with points := last.points ++ event.location.toList}] := by
  cases event with
  | touchesBegan => simp [admits] at inside
  | touchesMoved location =>
      cases location with
      | none => simp [Canvas.handle,Event.location,lines]
      | some point => simp [Canvas.handle,Event.location,Canvas.touchesMoved_concat lines]
  | touchesEnded => simp [Canvas.handle,Event.location,lines]
  | pressed button =>
      cases button with
      | UndoButton => simp [removes] at keeps
      | ClearButton => simp [removes] at keeps
      | SaveButton => simp [Canvas.handle_save,Event.location,lines]
      | ShareButton => simp [Canvas.handle_share,Event.location,lines]
  | sliderValueChanged sender => simp [Canvas.handle_slider_lines,Event.location,lines]
  | colorSelected sender => simp [Canvas.handle_color_lines,Event.location,lines]

structure Matches (s : Session) (r : Reading) : Prop where
  touching : s.touching = r.current.isSome
  lines : s.canvas.lines = r.stack
  style : s.canvas.style = r.selected

theorem initial_matches : Matches start (read []) := ⟨rfl,rfl,rfl⟩

theorem matches_between {acts : List Act} (valid : Matches s ⟨acts,none⟩)
    (allowed : admits s.touching event = true) :
    Matches ⟨s.canvas.handle event,touchingAfter s.touching event⟩ (Reading.extend ⟨acts,none⟩ event) := by
  have idle : s.touching = false := valid.touching
  have lines : s.canvas.lines = (Reading.settled ⟨acts,none⟩).strokes := by simpa [Reading.stack] using valid.lines
  have style : s.canvas.style = (Reading.settled ⟨acts,none⟩).style := valid.style
  rw [idle] at allowed ⊢
  by_cases begins : event = .touchesBegan
  · subst begins
    refine ⟨rfl,?_,valid.style⟩
    have fresh : (⟨.ofFloat s.canvas.strokeWidth,s.canvas.strokeColor.cgColor,[]⟩ : Line) =
        stroke s.canvas.style [] := rfl
    simp [Canvas.handle,fresh,lines,style,Reading.extend,Reading.stack,Reading.settled]
  · have extended : Reading.extend ⟨acts,none⟩ event = ⟨acts ++ [.between event],none⟩ := by
      cases event <;> simp_all [Reading.extend]
    have quiet : touchingAfter false event = false := by cases event <;> simp_all [touchingAfter]
    rw [extended,quiet]
    refine ⟨rfl,?_,?_⟩
    · simp only [handle_idle allowed begins,lines]
      simp [Reading.stack,Reading.settled,Act.perform]
    · simp only [handle_style,style]
      simp [Reading.selected,Reading.settled,Act.perform]

theorem matches_during {acts : List Act} {body : List Event} (valid : Matches s ⟨acts,some body⟩)
    (allowed : admits s.touching event = true) (keeps : removes event = false) :
    Matches ⟨s.canvas.handle event,touchingAfter s.touching event⟩ (Reading.extend ⟨acts,some body⟩ event) := by
  have inside : s.touching = true := valid.touching
  have style : s.canvas.style = body.foldl Event.select (Reading.settled ⟨acts,some body⟩).style := valid.style
  have lines : s.canvas.lines = (Reading.settled ⟨acts,some body⟩).strokes ++
      [stroke (Reading.settled ⟨acts,some body⟩).style body] := by simpa [Reading.stack] using valid.lines
  rw [inside] at allowed ⊢
  have grown := handle_during allowed keeps lines
  by_cases ends : event = .touchesEnded
  · subst ends
    refine ⟨rfl,?_,?_⟩
    · simp only [Canvas.handle,Canvas.touchesEnded_eq,lines]
      simp [Reading.extend,Reading.stack,Reading.settled,Act.perform]
    · simp only [handle_style,style]
      simp [Reading.extend,Reading.selected,Reading.settled,Act.perform,Event.select]
  · have extended : Reading.extend ⟨acts,some body⟩ event = ⟨acts,some (body ++ [event])⟩ := by
      cases event <;> simp_all [Reading.extend]
    have still : touchingAfter true event = true := by cases event <;> simp_all [touchingAfter]
    rw [extended,still]
    refine ⟨rfl,?_,?_⟩
    · simp only [grown]
      simp [Reading.stack,Reading.settled,stroke,delivered_concat]
    · simp only [handle_style,style]
      simp [Reading.selected,Reading.settled]

theorem matches_preserved (valid : Matches s r) (apart : removes event = true → s.touching = false)
    (accepted : advance s event = some t) : Matches t (r.extend event) := by
  obtain ⟨allowed,rfl⟩ := advance_exact.mp accepted
  rcases r with ⟨acts,_ | body⟩
  · exact matches_between valid allowed
  · have inside : s.touching = true := valid.touching
    have keeps : removes event = false := by
      cases removing : removes event with
      | false => rfl
      | true => simp [apart removing] at inside
    exact matches_during valid allowed keeps

-- Undo and Clear only between gestures; everything else at any moment.
def Apart (s : Session) (event : Event) : Prop := removes event = true → s.touching = false

instance (s : Session) (event : Event) : Decidable (Apart s event) := by unfold Apart; infer_instance

theorem runs_match (path : Runs advance start events s) (apart : EachStep advance start events Apart) :
    Matches s (read events) := by
  induction path with
  | nil => exact initial_matches
  | step prior accepted ih =>
      rw [read_concat]
      exact matches_preserved (ih apart.front) (apart.final prior) accepted

def idle : Event → Bool
  | .pressed .SaveButton | .pressed .ShareButton | .sliderValueChanged _ | .colorSelected _ => true
  | _ => false

def during : Event → Bool
  | .touchesMoved _ => true
  | event => idle event

def complete (g : List Event × List Event) : List Event :=
  g.1 ++ .touchesBegan :: g.2 ++ [.touchesEnded]
def undoing (before : List Event) : List Event := before ++ [.pressed .UndoButton]

def Quiet (g : List Event × List Event) : Prop := (∀ e ∈ g.1, idle e = true) ∧ ∀ e ∈ g.2, during e = true

theorem idle_step (quiet : idle event = true) :
    advance s event = some ⟨s.canvas.handle event,s.touching⟩ ∧ (s.canvas.handle event).lines = s.canvas.lines := by
  cases event with
  | pressed button =>
      cases button with
      | UndoButton => simp [idle] at quiet
      | ClearButton => simp [idle] at quiet
      | SaveButton => exact ⟨rfl,by rw [Canvas.handle_save]⟩
      | ShareButton => exact ⟨rfl,by rw [Canvas.handle_share]⟩
  | sliderValueChanged sender => exact ⟨rfl,rfl⟩
  | colorSelected sender => exact ⟨rfl,rfl⟩
  | touchesBegan => simp [idle] at quiet
  | touchesMoved location => simp [idle] at quiet
  | touchesEnded => simp [idle] at quiet

theorem idle_runs (quiet : ∀ e ∈ events, idle e = true) :
    ∃ t, Runs advance s events t ∧ t.touching = s.touching ∧ t.canvas.lines = s.canvas.lines := by
  induction events generalizing s with
  | nil => exact ⟨s,.nil,rfl,rfl⟩
  | cons event rest ih =>
      obtain ⟨accepted,lines⟩ := idle_step (s := s) (quiet event List.mem_cons_self)
      obtain ⟨t,path,touching,kept⟩ := ih (s := ⟨s.canvas.handle event,s.touching⟩)
        (fun e member => quiet e (List.mem_cons_of_mem _ member))
      exact ⟨t,.cons accepted path,touching,kept.trans lines⟩

theorem during_calm (calm : during event = true) :
    admits true event = true ∧ removes event = false ∧ touchingAfter true event = true := by
  cases event with
  | touchesBegan => simp [during,idle] at calm
  | touchesMoved location => exact ⟨rfl,rfl,rfl⟩
  | touchesEnded => simp [during,idle] at calm
  | pressed button =>
      cases button with
      | UndoButton => simp [during,idle] at calm
      | ClearButton => simp [during,idle] at calm
      | SaveButton => exact ⟨rfl,rfl,rfl⟩
      | ShareButton => exact ⟨rfl,rfl,rfl⟩
  | sliderValueChanged sender => exact ⟨rfl,rfl,rfl⟩
  | colorSelected sender => exact ⟨rfl,rfl,rfl⟩

theorem during_runs (calm : ∀ e ∈ events, during e = true) (inside : s.touching = true)
    (lines : s.canvas.lines = front ++ [last]) :
    ∃ t own, Runs advance s events t ∧ t.touching = true ∧ t.canvas.lines = front ++ [own] := by
  induction events generalizing s last with
  | nil => exact ⟨s,last,.nil,inside,lines⟩
  | cons event rest ih =>
      obtain ⟨allowed,keeps,still⟩ := during_calm (calm event List.mem_cons_self)
      have accepted : advance s event = some ⟨s.canvas.handle event,true⟩ := by
        simp [advance,inside,allowed,still]
      obtain ⟨t,own,path,touching,kept⟩ := ih (s := ⟨s.canvas.handle event,true⟩)
        (fun e member => calm e (List.mem_cons_of_mem _ member)) rfl (handle_during allowed keeps lines)
      exact ⟨t,own,.cons accepted path,touching,kept⟩

theorem complete_runs (quiet : Quiet g) (free : s.touching = false) :
    ∃ t own, Runs advance s (complete g) t ∧ t.touching = false ∧ t.canvas.lines = s.canvas.lines ++ [own] := by
  obtain ⟨ready,waiting,untouched,same⟩ := idle_runs (s := s) quiet.1
  have began : advance ready .touchesBegan = some ⟨ready.canvas.touchesBegan,true⟩ := by
    simp [advance,admits,untouched,free,Canvas.handle,touchingAfter]
  obtain ⟨drawn,own,moving,inside,lines⟩ := during_runs (s := ⟨ready.canvas.touchesBegan,true⟩) quiet.2 rfl
    Canvas.touchesBegan_lines
  have ended : advance drawn .touchesEnded = some ⟨drawn.canvas,false⟩ := by
    simp [advance,admits,inside,Canvas.handle,touchingAfter]
  refine ⟨⟨drawn.canvas,false⟩,own,?_,rfl,by simpa [same] using lines⟩
  have gesture := Runs.cons began (moving.step ended)
  simpa [complete,List.append_assoc] using waiting.append gesture

theorem gestures_push (quiet : ∀ g ∈ gestures, Quiet g) (free : s.touching = false) :
    ∃ t strokes, Runs advance s (gestures.flatMap complete) t ∧ t.touching = false ∧
      strokes.length = gestures.length ∧ t.canvas.lines = s.canvas.lines ++ strokes := by
  induction gestures generalizing s with
  | nil => exact ⟨s,[],.nil,free,rfl,by simp⟩
  | cons g rest ih =>
      obtain ⟨middle,own,first,still,pushed⟩ := complete_runs (quiet g List.mem_cons_self) free
      obtain ⟨t,strokes,path,done,count,lines⟩ := ih (fun g member => quiet g (List.mem_cons_of_mem _ member)) still
      refine ⟨t,own :: strokes,first.append path,done,by simp [count],?_⟩
      rw [lines,pushed,List.append_assoc]; rfl

theorem undos_pop (quiet : ∀ before ∈ undos, ∀ e ∈ before, idle e = true)
    (count : undos.length = strokes.length) (lines : s.canvas.lines = kept ++ strokes) :
    ∃ t, Runs advance s (undos.flatMap undoing) t ∧ t.canvas.lines = kept := by
  induction undos generalizing s strokes with
  | nil =>
      obtain rfl := List.eq_nil_of_length_eq_zero count.symm
      exact ⟨s,.nil,by simpa using lines⟩
  | cons before rest ih =>
      rcases List.eq_nil_or_concat' strokes with rfl | ⟨front,last,rfl⟩
      · simp at count
      obtain ⟨ready,waiting,_,same⟩ := idle_runs (s := s) (quiet before List.mem_cons_self)
      have undo : advance ready (.pressed .UndoButton) =
          some ⟨ready.canvas.handle (.pressed .UndoButton),ready.touching⟩ := by simp [advance,admits,touchingAfter]
      have popped : (ready.canvas.handle (.pressed .UndoButton)).lines = kept ++ front := by
        rw [Canvas.handle_undo_lines,same,lines,← List.append_assoc,List.dropLast_concat]
      obtain ⟨t,path,restored⟩ := ih (s := ⟨ready.canvas.handle (.pressed .UndoButton),ready.touching⟩)
        (fun b member => quiet b (List.mem_cons_of_mem _ member)) (by simpa using count) popped
      exact ⟨t,(waiting.step undo).append path,restored⟩

theorem lines_are_reference (path : Runs advance start events s) (apart : EachStep advance start events Apart) :
    s.canvas.lines = (read events).stack ∧ (read events).events = events ∧
    (s.touching = false → ∀ (gestures : List (List Event × List Event)) (undos : List (List Event)),
      undos.length = gestures.length → (∀ g ∈ gestures, Quiet g) →
      (∀ before ∈ undos, ∀ e ∈ before, idle e = true) →
      ∃ t, Runs advance s (gestures.flatMap complete ++ undos.flatMap undoing) t ∧
        t.canvas.lines = s.canvas.lines) := by
  refine ⟨(runs_match path apart).lines,read_events events,?_⟩
  intro free gestures undos count quiet still
  obtain ⟨middle,strokes,drawing,_,pushed,lines⟩ := gestures_push quiet free
  obtain ⟨t,undone,restored⟩ := undos_pop still (count.trans pushed.symm) lines
  exact ⟨t,drawing.append undone,restored⟩

-- The width changes in the middle of the first gesture, the colour after it; the third gesture is undone.
theorem lines_are_reference_midway :
    let thick : StrokeSlider := ⟨3,by decide,by decide⟩
    let cyan : PaletteButton := ⟨1,by decide⟩
    let events : List Event := [.touchesBegan,.touchesMoved (some ⟨0,0⟩),.sliderValueChanged thick,
      .touchesMoved (some ⟨1,1⟩),.touchesEnded,.colorSelected cyan,.touchesBegan,.touchesMoved (some ⟨2,2⟩),
      .touchesEnded,.touchesBegan,.touchesEnded,.pressed .UndoButton]
    ∃ s, Runs advance start events s ∧
      s.canvas.lines = [⟨1,⟨0,0,0,1⟩,[⟨0,0⟩,⟨1,1⟩]⟩,⟨3,⟨0,1,1,1⟩,[⟨2,2⟩]⟩] ∧
      ∃ t, Runs advance s [.touchesBegan,.touchesEnded,.pressed .UndoButton] t ∧ t.canvas.lines = s.canvas.lines := by
  intro thick cyan events
  have path : Runs advance start events _ := run_exact.mp rfl
  have apart : EachStep advance start events Apart := by decide
  obtain ⟨lines,_,restores⟩ := lines_are_reference path apart
  exact ⟨_,path,lines,restores rfl [([],[])] [[]] rfl (by simp [Quiet]) (by simp)⟩

end CanvasPainter.Gestures
