import CanvasPainter.Gestures

namespace CanvasPainter.Provenance
open TransitionRuns CanvasDrawVC Gestures

-- Points carry the number of the gesture that delivered them, the line that of the gesture that created it.
structure TracedLine where
  width : CGFloat
  color : CGColor
  points : List (CGPoint × Nat)
  owner : Nat
  deriving DecidableEq, Repr

def TracedLine.line (traced : TracedLine) : Line := ⟨traced.width,traced.color,traced.points.map Prod.fst⟩

-- The session is the code's own state. The rest is history: no step of the
-- session reads it. `removed` says Undo or Clear came since touchesBegan.
structure Traced where
  session : Session
  lines : List TracedLine
  gestures : Nat
  removed : Bool
  deriving DecidableEq, Repr

def startTraced : Traced := ⟨start,[],0,false⟩

def Traced.push (t : Traced) : List TracedLine :=
  t.lines ++ [⟨.ofFloat t.session.canvas.strokeWidth,t.session.canvas.strokeColor.cgColor,[],t.gestures+1⟩]

def Traced.deliver (t : Traced) (point : CGPoint) : List TracedLine :=
  match t.lines.getLast? with
  | none => []
  | some last => t.lines.dropLast ++ [{last with points := last.points ++ [(point,t.gestures)]}]

def retrace (t : Traced) (s : Session) : Event → Traced
  | .touchesBegan => ⟨s,t.push,t.gestures+1,false⟩
  | .touchesMoved (some point) => ⟨s,t.deliver point,t.gestures,t.removed⟩
  | .pressed .UndoButton => ⟨s,t.lines.dropLast,t.gestures,true⟩
  | .pressed .ClearButton => ⟨s,[],t.gestures,true⟩
  | _ => ⟨s,t.lines,t.gestures,t.removed⟩

def advanceTraced (t : Traced) (event : Event) : Option Traced :=
  (Gestures.advance t.session event).map (retrace t · event)

theorem advanceTraced_exact : advanceTraced t event = some u ↔
    ∃ s, Gestures.advance t.session event = some s ∧ u = retrace t s event := by
  simp [advanceTraced,eq_comm]

@[simp] theorem retrace_session : (retrace t s event).session = s := by
  cases event with
  | touchesMoved location => cases location <;> rfl
  | pressed button => cases button <;> rfl
  | _ => rfl

def Erased (t : Traced) : Prop := t.session.canvas.lines = t.lines.map TracedLine.line

theorem erased_preserved (erased : Erased t) (accepted : advanceTraced t event = some u) : Erased u := by
  obtain ⟨s,stepped,rfl⟩ := advanceTraced_exact.mp accepted
  obtain ⟨_,rfl⟩ := advance_exact.mp stepped
  unfold Erased at erased ⊢
  cases event with
  | touchesBegan => simp [retrace,Traced.push,Canvas.handle,erased,TracedLine.line]
  | touchesMoved location =>
      cases location with
      | none => simpa [retrace,Canvas.handle] using erased
      | some point =>
          rcases List.eq_nil_or_concat' t.lines with empty | ⟨front,last,lines⟩
          · have nothing : t.session.canvas.lines = [] := by simp [erased,empty]
            simp [retrace,Traced.deliver,empty,Canvas.handle,Canvas.touchesMoved_empty nothing,nothing]
          · have ends : t.session.canvas.lines = front.map TracedLine.line ++ [last.line] := by simp [erased,lines]
            simp [retrace,Traced.deliver,lines,Canvas.handle,Canvas.touchesMoved_concat ends,TracedLine.line]
  | touchesEnded => simpa [retrace,Canvas.handle] using erased
  | pressed button =>
      cases button with
      | UndoButton => simp [retrace,Canvas.handle_undo_lines,erased,List.map_dropLast]
      | ClearButton => simp [retrace,Canvas.handle_clear_lines]
      | SaveButton => simpa [retrace,Canvas.handle_save] using erased
      | ShareButton => simpa [retrace,Canvas.handle_share] using erased
  | sliderValueChanged sender => simpa [retrace,Canvas.handle_slider_lines] using erased
  | colorSelected sender => simpa [retrace,Canvas.handle_color_lines] using erased

-- The lines of the traced run are the code's once the numbers are forgotten.
theorem runs_traced (path : Runs Gestures.advance start events s) :
    ∃ t, Runs advanceTraced startTraced events t ∧ t.session = s ∧ s.canvas.lines = t.lines.map TracedLine.line := by
  have follow : ∀ s t event u, Traced.session t = s → Gestures.advance s event = some u →
      ∃ v, advanceTraced t event = some v ∧ v.session = u := by
    rintro _ t event u rfl accepted
    exact ⟨retrace t u event,advanceTraced_exact.mpr ⟨u,accepted,rfl⟩,retrace_session⟩
  have begun : startTraced.session = start := rfl
  obtain ⟨t,traced,same⟩ := path.simulates (fun s t => Traced.session t = s) begun follow
  have erased : Erased t := Runs.invariant (show Erased startTraced from rfl) (fun _ _ _ => erased_preserved) traced
  exact ⟨t,traced,same,same ▸ erased⟩

def OwnPoints (t : Traced) : Prop := ∀ line ∈ t.lines, ∀ point ∈ line.points, point.2 = line.owner

-- A gesture that has lost nothing owns the last line; after Undo or Clear every line left is older.
structure Owned (t : Traced) : Prop where
  erased : Erased t
  older : ∀ line ∈ t.lines, line.owner ≤ t.gestures
  own : t.session.touching = true → t.removed = false →
    ∃ front last, t.lines = front ++ [last] ∧ last.owner = t.gestures ∧ ∀ line ∈ front, line.owner < t.gestures
  lost : t.session.touching = true → t.removed = true → ∀ line ∈ t.lines, line.owner < t.gestures

theorem initial_owned : Owned startTraced :=
  ⟨rfl,by simp [startTraced],by simp [startTraced,start],by simp [startTraced,start]⟩

theorem deliver_concat {t : Traced} (lines : t.lines = front ++ [last]) :
    t.deliver point = front ++ [{last with points := last.points ++ [(point,t.gestures)]}] := by
  simp [Traced.deliver,lines]

theorem deliver_empty {t : Traced} (empty : t.lines = []) : t.deliver point = [] := by simp [Traced.deliver,empty]

theorem deliver_owner {t : Traced} (member : line ∈ t.deliver point) : ∃ old ∈ t.lines, old.owner = line.owner := by
  rcases List.eq_nil_or_concat' t.lines with empty | ⟨front,last,lines⟩
  · simp [deliver_empty empty] at member
  · rw [deliver_concat lines] at member
    rcases List.mem_append.mp member with earlier | final
    · exact ⟨line,by simp [lines,earlier],rfl⟩
    · exact ⟨last,by simp [lines],by rw [List.mem_singleton.mp final]⟩

theorem undo_older (valid : Owned t) (inside : t.session.touching = true) :
    ∀ line ∈ t.lines.dropLast, line.owner < t.gestures := by
  intro line member
  cases gone : t.removed with
  | true => exact valid.lost inside gone line (List.mem_of_mem_dropLast member)
  | false =>
      obtain ⟨front,last,lines,_,before⟩ := valid.own inside gone
      exact before line (by simpa [lines] using member)

theorem owned_still (valid : Owned t) (erased : Erased ⟨s,t.lines,t.gestures,t.removed⟩)
    (touching : s.touching = true → t.session.touching = true) : Owned ⟨s,t.lines,t.gestures,t.removed⟩ :=
  ⟨erased,valid.older,fun inside => valid.own (touching inside),fun inside => valid.lost (touching inside)⟩

theorem owned_preserved (valid : Owned t) (accepted : advanceTraced t event = some u) : Owned u := by
  have erased := erased_preserved valid.erased accepted
  obtain ⟨s,stepped,rfl⟩ := advanceTraced_exact.mp accepted
  obtain ⟨allowed,rfl⟩ := advance_exact.mp stepped
  cases event with
  | touchesBegan =>
      refine ⟨erased,?_,?_,?_⟩
      · intro line member
        rcases List.mem_append.mp member with old | new
        · exact Nat.le_succ_of_le (valid.older line old)
        · rw [List.mem_singleton.mp new]; exact Nat.le_refl _
      · exact fun _ _ => ⟨t.lines,_,rfl,rfl,fun line member => Nat.lt_succ_of_le (valid.older line member)⟩
      · intro _ gone; simp [retrace] at gone
  | touchesMoved location =>
      have inside : t.session.touching = true := allowed
      cases location with
      | none => exact owned_still valid erased (fun _ => inside)
      | some point =>
          refine ⟨erased,?_,?_,?_⟩
          · intro line member
            obtain ⟨old,present,same⟩ := deliver_owner member
            exact same ▸ valid.older old present
          · intro _ kept
            obtain ⟨front,last,lines,own,before⟩ := valid.own inside kept
            exact ⟨front,_,deliver_concat lines,own,before⟩
          · intro _ gone line member
            obtain ⟨old,present,same⟩ := deliver_owner member
            exact same ▸ valid.lost inside gone old present
  | touchesEnded => exact owned_still valid erased (by simp [touchingAfter])
  | pressed button =>
      cases button with
      | UndoButton =>
          exact ⟨erased,fun line member => valid.older line (List.mem_of_mem_dropLast member),
            fun _ kept => by simp [retrace] at kept,fun inside _ => undo_older valid inside⟩
      | ClearButton =>
          exact ⟨erased,fun line member => by simp [retrace] at member,
            fun _ kept => by simp [retrace] at kept,fun _ _ line member => by simp [retrace] at member⟩
      | SaveButton => exact owned_still valid erased id
      | ShareButton => exact owned_still valid erased id
  | sliderValueChanged sender => exact owned_still valid erased id
  | colorSelected sender => exact owned_still valid erased id

-- After Undo or Clear in the running gesture, a move finds no line left.
def Tracks (t : Traced) (event : Event) : Prop :=
  event.location.isSome = true → t.removed = true → t.session.canvas.lines = []

instance (t : Traced) (event : Event) : Decidable (Tracks t event) := by unfold Tracks; infer_instance

theorem deliver_own (own : last.owner = t.gestures) (lines : t.lines = front ++ [last]) (good : OwnPoints t) :
    ∀ line ∈ t.deliver point, ∀ stored ∈ line.points, stored.2 = line.owner := by
  intro line member stored present
  rw [deliver_concat lines] at member
  rcases List.mem_append.mp member with earlier | final
  · exact good line (by simp [lines,earlier]) stored present
  · obtain rfl := List.mem_singleton.mp final
    rcases List.mem_append.mp present with old | new
    · exact good last (by simp [lines]) stored old
    · rw [List.mem_singleton.mp new]; exact own.symm

-- A move that misses the condition puts its own number into an older line.
theorem deliver_stray (valid : Owned t) (inside : t.session.touching = true) (gone : t.removed = true)
    (nonempty : t.lines ≠ []) :
    ¬ ∀ line ∈ t.deliver point, ∀ stored ∈ line.points, stored.2 = line.owner := by
  rcases List.eq_nil_or_concat' t.lines with empty | ⟨front,last,lines⟩
  · exact absurd empty nonempty
  · intro good
    rw [deliver_concat lines] at good
    have stray := good _ (List.mem_append_right _ (List.mem_singleton.mpr rfl)) (point,t.gestures) (by simp)
    have older := valid.lost inside gone last (by simp [lines])
    simp only at stray
    omega

theorem provenance_exact (valid : Owned t) (good : OwnPoints t) (accepted : advanceTraced t event = some u) :
    OwnPoints u ↔ Tracks t event := by
  obtain ⟨s,stepped,rfl⟩ := advanceTraced_exact.mp accepted
  obtain ⟨allowed,rfl⟩ := advance_exact.mp stepped
  have still : event.location = none → Tracks t event := fun nowhere located => by simp [nowhere] at located
  cases event with
  | touchesBegan =>
      refine ⟨fun _ => still rfl,fun _ line member point present => ?_⟩
      rcases List.mem_append.mp member with old | new
      · exact good line old point present
      · obtain rfl := List.mem_singleton.mp new
        simp at present
  | touchesMoved location =>
      have inside : t.session.touching = true := allowed
      cases location with
      | none => exact ⟨fun _ => still rfl,fun _ => good⟩
      | some point =>
          have lines : t.session.canvas.lines = [] ↔ t.lines = [] := by rw [valid.erased]; simp
          constructor
          · intro next _ gone
            by_contra left
            exact deliver_stray valid inside gone (fun empty => left (lines.mpr empty)) next
          · intro tracks
            cases gone : t.removed with
            | true =>
                have empty := lines.mp (tracks rfl gone)
                intro line member
                simp [retrace,deliver_empty empty] at member
            | false =>
                obtain ⟨front,last,lines,own,_⟩ := valid.own inside gone
                exact deliver_own own lines good
  | touchesEnded => exact ⟨fun _ => still rfl,fun _ => good⟩
  | pressed button =>
      refine ⟨fun _ => still rfl,fun _ => ?_⟩
      cases button with
      | UndoButton => exact fun line member => good line (List.mem_of_mem_dropLast member)
      | ClearButton => exact fun line member => by simp [retrace] at member
      | SaveButton => exact good
      | ShareButton => exact good
  | sliderValueChanged sender => exact ⟨fun _ => still rfl,fun _ => good⟩
  | colorSelected sender => exact ⟨fun _ => still rfl,fun _ => good⟩

theorem provenance_when_tracked (path : Runs Gestures.advance start events s) :
    (∃ t, Runs advanceTraced startTraced events t ∧ t.session = s ∧ s.canvas.lines = t.lines.map TracedLine.line) ∧
    (Throughout advanceTraced startTraced events OwnPoints ↔ EachStep advanceTraced startTraced events Tracks) := by
  obtain ⟨t,traced,same⟩ := runs_traced path
  refine ⟨⟨t,traced,same⟩,?_⟩
  exact Runs.throughout_iff initial_owned (by simp [OwnPoints,startTraced])
    (fun _ _ _ => owned_preserved) (fun _ _ _ => provenance_exact) traced

theorem provenance_when_tracked_cleared :
    let events : List Event := [.touchesBegan,.touchesMoved (some ⟨0,0⟩),.touchesEnded,.touchesBegan,
      .touchesMoved (some ⟨1,1⟩),.pressed .ClearButton,.touchesMoved (some ⟨2,2⟩),.touchesEnded]
    ∃ s, Runs Gestures.advance start events s ∧ Throughout advanceTraced startTraced events OwnPoints := by
  intro events
  have path : Runs Gestures.advance start events _ := run_exact.mp rfl
  exact ⟨_,path,(provenance_when_tracked path).2.mpr (by decide)⟩

-- The second gesture's last move lands in the first gesture's line.
theorem undo_in_gesture_strays :
    ∃ t, Runs advanceTraced startTraced [.touchesBegan,.touchesMoved (some ⟨0,0⟩),.touchesEnded,.touchesBegan,
        .touchesMoved (some ⟨1,1⟩),.pressed .UndoButton,.touchesMoved (some ⟨2,2⟩)] t ∧
      t.session.canvas.lines = [⟨1,UIColor.black.cgColor,[⟨0,0⟩,⟨2,2⟩]⟩] ∧
      t.lines.map TracedLine.owner = [1] ∧ t.lines.map TracedLine.points = [[(⟨0,0⟩,1),(⟨2,2⟩,2)]] ∧
      ¬ OwnPoints t := by
  refine ⟨_,run_exact.mp rfl,rfl,rfl,rfl,?_⟩
  intro own
  exact absurd (own _ (List.mem_singleton.mpr rfl) (⟨2,2⟩,2) (by decide)) (by decide)

end CanvasPainter.Provenance
