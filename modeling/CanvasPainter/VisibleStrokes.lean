import CanvasPainter.CanvasDraw
import CanvasPainter.Gestures

namespace CanvasPainter.VisibleStrokes
open TransitionRuns CanvasDrawVC Gestures

-- What draw puts on a fresh page, whose stroke state draw sets before use.
def freshPage : CGContext := ⟨UIColor.black.cgColor,1,.butt,[],[]⟩

def shown (canvas : Canvas) : List Mark :=
  match canvas.paints freshPage with
  | .ok marks => marks
  | .error _ => []

@[simp] theorem shown_eq : shown canvas = picture canvas.lines := by
  simp [shown,Canvas.paints_picture canvas freshPage rfl]

theorem picture_single (line : Line) : picture [line] = if line.visible then [line.mark] else [] := by
  cases seen : line.visible <;> simp [picture,seen]

-- count > 0 is what Save and Share test, and Undo takes back what was painted last.
structure Agrees (canvas : Canvas) : Prop where
  enabled : canvas.lines.length > 0 ↔ shown canvas ≠ []
  undo : shown canvas ≠ [] → shown (canvas.handle (.pressed .UndoButton)) = (shown canvas).dropLast

variable {canvas : Canvas} {front : List Line} {last : Line}

theorem agrees_empty (empty : canvas.lines = []) : Agrees canvas :=
  ⟨by simp [empty,picture],by simp [empty,picture]⟩

theorem agrees_visible (lines : canvas.lines = front ++ [last]) (seen : last.visible = true) : Agrees canvas := by
  have whole : picture canvas.lines = picture front ++ [last.mark] := by
    rw [lines,picture_append,picture_single,seen]; rfl
  refine ⟨by simp [lines,picture_single,seen],fun _ => ?_⟩
  rw [shown_eq,shown_eq,Canvas.handle_undo_lines,whole,lines]
  simp

theorem agrees_last (agrees : Agrees canvas) (lines : canvas.lines = front ++ [last]) : last.visible = true := by
  have filled : shown canvas ≠ [] := agrees.enabled.mp (by simp [lines])
  have undone := agrees.undo filled
  rw [shown_eq,shown_eq,Canvas.handle_undo_lines,lines,List.dropLast_concat] at undone
  cases seen : last.visible with
  | true => rfl
  | false =>
      -- An invisible last line: the picture would equal its own dropLast.
      rw [shown_eq,lines] at filled
      simp only [picture_append,picture_single,seen] at undone filled
      have shorter := congrArg List.length undone
      have positive := List.length_pos_iff.mpr filled
      simp only [Bool.false_eq_true,if_false,List.append_nil,List.length_dropLast] at shorter positive
      omega

theorem agrees_all (visible : ∀ line ∈ canvas.lines, line.visible = true) : Agrees canvas := by
  rcases List.eq_nil_or_concat' canvas.lines with empty | ⟨front,last,lines⟩
  · exact agrees_empty empty
  · exact agrees_visible lines (visible last (by simp [lines]))

def Unremoved (body : List Event) : Prop := ∀ event ∈ body, removes event = false

instance (body : List Event) : Decidable (Unremoved body) := by unfold Unremoved; infer_instance

def Drawn : Act → Prop
  | .gesture body => Unremoved body → 2 ≤ (delivered body).length
  | .between _ => True

instance : (act : Act) → Decidable (Drawn act)
  | .gesture body => by unfold Drawn; infer_instance
  | .between _ => .isTrue trivial

def TwoMoves (r : Reading) : Prop := ∀ act ∈ r.acts, Drawn act

instance (r : Reading) : Decidable (TwoMoves r) := by unfold TwoMoves; infer_instance

theorem extend_acts (r : Reading) (event : Event) :
    (r.extend event).acts = r.acts ∨ (∃ idle, (r.extend event).acts = r.acts ++ [.between idle]) ∨
    ∃ body, event = .touchesEnded ∧ r.current = some body ∧ (r.extend event).acts = r.acts ++ [.gesture body] := by
  rcases r with ⟨acts,_ | body⟩
  · cases event with
    | touchesBegan => exact .inl rfl
    | _ => exact .inr (.inl ⟨_,rfl⟩)
  · cases event with
    | touchesEnded => exact .inr (.inr ⟨_,rfl,rfl,rfl⟩)
    | _ => exact .inl rfl

theorem TwoMoves.before (event : Event) (enough : TwoMoves (r.extend event)) : TwoMoves r := by
  intro act member
  apply enough act
  rcases extend_acts r event with same | ⟨_,same⟩ | ⟨_,_,_,same⟩ <;> simp [same,member]

-- `own` needs no condition: the line of a gesture that lost nothing holds exactly what it delivered so far.
structure Kept (s : Session) (r : Reading) : Prop where
  touching : s.touching = r.current.isSome
  settled : r.current = none → TwoMoves r → ∀ line ∈ s.canvas.lines, line.visible = true
  own : ∀ body, r.current = some body → Unremoved body →
    ∃ front last, s.canvas.lines = front ++ [last] ∧ last.points = delivered body ∧
      (TwoMoves r → ∀ line ∈ front, line.visible = true)
  lost : ∀ body, r.current = some body → ¬ Unremoved body → TwoMoves r →
    ∀ line ∈ s.canvas.lines, line.visible = true

theorem initial_kept : Kept start (read []) :=
  ⟨rfl,by simp [start,Canvas.initial],by simp [Gestures.read],by simp [Gestures.read]⟩

theorem visible_extended {line : Line} (seen : line.visible = true) :
    Line.visible {line with points := line.points ++ more} = true := by
  simp only [Line.visible,decide_eq_true_eq,List.length_append] at seen ⊢
  omega

theorem handle_visible (visible : ∀ line ∈ canvas.lines, line.visible = true) (other : event ≠ .touchesBegan) :
    ∀ line ∈ (canvas.handle event).lines, line.visible = true := by
  cases event with
  | touchesBegan => exact absurd rfl other
  | touchesMoved location =>
      rcases List.eq_nil_or_concat' canvas.lines with empty | ⟨front,last,lines⟩
      · simpa [Canvas.handle,Canvas.touchesMoved_empty empty] using visible
      · have moved : (canvas.handle (.touchesMoved location)).lines = _ := handle_during rfl rfl lines
        intro line member
        rw [moved] at member
        rcases List.mem_append.mp member with earlier | final
        · exact visible line (by simp [lines,earlier])
        · rw [List.mem_singleton.mp final]
          exact visible_extended (visible last (by simp [lines]))
  | touchesEnded => exact visible
  | pressed button =>
      cases button with
      | UndoButton =>
          rw [Canvas.handle_undo_lines]
          exact fun line member => visible line (List.mem_of_mem_dropLast member)
      | ClearButton => simp [Canvas.handle_clear_lines]
      | SaveButton => exact visible
      | ShareButton => exact visible
  | sliderValueChanged sender => exact visible
  | colorSelected sender => exact visible

theorem kept_between {acts : List Act} (valid : Kept s ⟨acts,none⟩) (allowed : admits s.touching event = true) :
    Kept ⟨s.canvas.handle event,touchingAfter s.touching event⟩ (Reading.extend ⟨acts,none⟩ event) := by
  have idle : s.touching = false := valid.touching
  rw [idle] at allowed ⊢
  by_cases begins : event = .touchesBegan
  · subst begins
    refine ⟨rfl,by simp [Reading.extend],?_,?_⟩
    · rintro body same _
      obtain rfl : [] = body := by simpa [Reading.extend] using same
      exact ⟨s.canvas.lines,_,rfl,rfl,fun enough => valid.settled rfl enough⟩
    · rintro body same removed
      obtain rfl : [] = body := by simpa [Reading.extend] using same
      exact absurd (by simp [Unremoved]) removed
  · have extended : Reading.extend ⟨acts,none⟩ event = ⟨acts ++ [.between event],none⟩ := by
      cases event <;> simp_all [Reading.extend]
    have quiet : touchingAfter false event = false := by cases event <;> simp_all [touchingAfter]
    refine ⟨by rw [extended,quiet]; rfl,fun _ enough => ?_,by simp [extended],by simp [extended]⟩
    exact handle_visible (valid.settled rfl (TwoMoves.before event enough)) begins

theorem kept_ended {acts : List Act} {body : List Event} (valid : Kept s ⟨acts,some body⟩) :
    Kept ⟨s.canvas.handle .touchesEnded,false⟩ ⟨acts ++ [.gesture body],none⟩ := by
  refine ⟨rfl,fun _ enough => ?_,by simp,by simp⟩
  have before : TwoMoves ⟨acts,some body⟩ := TwoMoves.before .touchesEnded enough
  by_cases unremoved : Unremoved body
  · obtain ⟨front,last,lines,points,visible⟩ := valid.own body rfl unremoved
    have long := enough (.gesture body) (by simp) unremoved
    intro line member
    have member : line ∈ front ++ [last] := lines ▸ member
    rcases List.mem_append.mp member with earlier | final
    · exact visible before line earlier
    · rw [List.mem_singleton.mp final]
      simpa [Line.visible,points] using long
  · exact valid.lost body rfl unremoved before

-- What an event inside the gesture removes is the gesture's own line, while that is still there.
theorem kept_during {acts : List Act} {body : List Event} (valid : Kept s ⟨acts,some body⟩)
    (allowed : admits true event = true) (goes : event ≠ .touchesEnded) :
    Kept ⟨s.canvas.handle event,true⟩ ⟨acts,some (body ++ [event])⟩ := by
  have later : event ≠ .touchesBegan := by rintro rfl; simp [admits] at allowed
  refine ⟨rfl,by simp,?_,?_⟩
  · intro grown same unremoved
    obtain rfl : body ++ [event] = grown := by simpa using same
    have before : Unremoved body := fun e member => unremoved e (List.mem_append_left _ member)
    obtain ⟨front,last,lines,points,visible⟩ := valid.own body rfl before
    exact ⟨front,_,handle_during allowed (unremoved event (by simp)) lines,
      by simp [points,delivered_concat],visible⟩
  · intro grown same removed enough
    obtain rfl : body ++ [event] = grown := by simpa using same
    by_cases before : Unremoved body
    · obtain ⟨front,last,lines,_,visible⟩ := valid.own body rfl before
      have removing : removes event = true := by
        cases removing : removes event with
        | true => rfl
        | false =>
            refine absurd (fun e member => ?_) removed
            rcases List.mem_append.mp member with old | new
            · exact before e old
            · rw [List.mem_singleton.mp new]; exact removing
      cases event with
      | pressed button =>
          cases button with
          | UndoButton => simpa [Canvas.handle_undo_lines,lines] using visible enough
          | ClearButton => simp [Canvas.handle_clear_lines]
          | SaveButton => simp [removes] at removing
          | ShareButton => simp [removes] at removing
      | _ => simp [removes] at removing
    · exact handle_visible (valid.lost body rfl before enough) later

theorem kept_preserved (valid : Kept s r) (accepted : advance s event = some t) : Kept t (r.extend event) := by
  obtain ⟨allowed,rfl⟩ := advance_exact.mp accepted
  rcases r with ⟨acts,_ | body⟩
  · exact kept_between valid allowed
  · have inside : s.touching = true := valid.touching
    rw [inside] at allowed ⊢
    by_cases ends : event = .touchesEnded
    · subst ends; exact kept_ended valid
    · have extended : Reading.extend ⟨acts,some body⟩ event = ⟨acts,some (body ++ [event])⟩ := by
        cases event <;> simp_all [Reading.extend]
      have still : touchingAfter true event = true := by cases event <;> simp_all [touchingAfter]
      rw [extended,still]
      exact kept_during valid allowed ends

theorem runs_kept (path : Runs advance start events s) : Kept s (read events) := by
  induction path with
  | nil => exact initial_kept
  | step prior accepted ih => rw [read_concat]; exact kept_preserved ih accepted

-- A gesture that ends on its own line with fewer than two points is seen at once.
theorem ended_enough (valid : Kept s r) (current : r.current = some body) (agrees : Agrees s.canvas)
    (unremoved : Unremoved body) : 2 ≤ (delivered body).length := by
  obtain ⟨front,last,lines,points,_⟩ := valid.own body current unremoved
  have seen := agrees_last agrees lines
  simpa [Line.visible,points] using seen

theorem agreement_iff_two_moves (path : Runs advance start events s) :
    Throughout advance start events (fun s => s.touching = false → Agrees s.canvas) ↔
      TwoMoves (Gestures.read events) := by
  induction path with
  | nil =>
      refine ⟨fun _ act member => by simp [Gestures.read] at member,fun _ earlier s front path _ => ?_⟩
      obtain rfl := List.prefix_nil.mp front
      rw [← Runs.nil.unique path]
      exact agrees_empty rfl
  | @step earlier middle event after prior accepted ih =>
      have whole := Runs.step prior accepted
      rw [read_concat]
      constructor
      · intro all act member
        have sofar := ih.mp all.front
        rcases extend_acts (Gestures.read earlier) event with same | ⟨idle,same⟩ | ⟨body,rfl,current,same⟩
        · exact sofar act (same ▸ member)
        · rcases List.mem_append.mp (same ▸ member) with old | new
          · exact sofar act old
          · rw [List.mem_singleton.mp new]; trivial
        · rcases List.mem_append.mp (same ▸ member) with old | new
          · exact sofar act old
          · obtain ⟨_,rfl⟩ := advance_exact.mp accepted
            have agrees := all.final whole rfl
            rw [List.mem_singleton.mp new]
            exact ended_enough (runs_kept prior) current agrees
      · intro enough
        apply (ih.mpr (enough.before event)).append
        intro t path free
        have kept := runs_kept path
        rw [read_concat] at kept
        have closed : ((Gestures.read earlier).extend event).current = none := by
          simpa [free] using kept.touching.symm
        exact agrees_all (kept.settled closed enough)

theorem agreement_iff_two_moves_drag :
    let events : List Event := [.touchesBegan,.touchesMoved (some ⟨0,0⟩),.touchesMoved (some ⟨1,1⟩),.touchesEnded,
      .touchesBegan,.touchesMoved (some ⟨2,2⟩),.pressed .UndoButton,.touchesEnded]
    Throughout advance start events (fun s => s.touching = false → Agrees s.canvas) := by
  intro events
  have path : Runs advance start events _ := run_exact.mp rfl
  exact (agreement_iff_two_moves path).mpr (by decide)

theorem tap_enables_saving :
    ∃ s, Runs advance start [.touchesBegan,.touchesEnded] s ∧ s.touching = false ∧
      (senderBasedHandling s.canvas ButtonTags.SaveButton.rawValue).2 = some .saveImage ∧
      shown s.canvas = [] ∧ ¬ Agrees s.canvas := by
  refine ⟨_,run_exact.mp rfl,rfl,rfl,by rw [shown_eq]; rfl,?_⟩
  intro agrees
  exact absurd (agrees_last agrees (rfl : _ = [] ++ [_])) (by decide)

end CanvasPainter.VisibleStrokes
