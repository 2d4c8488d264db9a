import CanvasPainter.StorageRoundTrips

namespace CanvasPainter.StorageURLs
open SeparatedComponents
variable {bucket object : Text} {piece : Text} {pieces : List Text}

inductive Move where
  | child (string : Text)
  | parent
  | root

def FIRStoragePath.move (path : FIRStoragePath) : Move → Option FIRStoragePath
  | .child string => some (path.child string)
  | .parent => path.parent
  | .root => some path.root

def walk (path : FIRStoragePath) : List Move → Option FIRStoragePath
  | [] => some path
  | move :: rest => (path.move move).bind (walk · rest)

-- A place in a bucket: the pieces down to it, none at the root, and whether a string was ever made of them.
structure Location where
  pieces : List Text
  named : Bool
  plain : ∀ piece ∈ pieces, piece ≠ [] ∧ '/' ∉ piece
  made : named = false → pieces = []

namespace Location

def top : Location := ⟨[],false,by simp,fun _ => rfl⟩

def below (location : Location) (string : Text) : Location where
  pieces := location.pieces ++ components '/' string
  named := true
  plain := by
    intro piece inside
    rcases List.mem_append.mp inside with before | added
    · exact location.plain piece before
    · exact components_plain added
  made := by simp

def above (location : Location) : Location where
  pieces := location.pieces.dropLast
  named := true
  plain := fun piece inside => location.plain piece (List.dropLast_subset _ inside)
  made := by simp

def move (location : Location) : Move → Option Location
  | .child string => some (if string = [] then location else location.below string)
  | .parent => if location.pieces = [] then none else some location.above
  | .root => some top

def walk (location : Location) : List Move → Option Location
  | [] => some location
  | move :: rest => (location.move move).bind (walk · rest)

def path (bucket : Text) (location : Location) : FIRStoragePath :=
  ⟨bucket,if location.named then some (['/'].intercalate location.pieces) else none⟩

end Location

variable {location : Location}

@[simp] theorem path_bucket : (location.path bucket).bucket = bucket := rfl

theorem path_named (named : location.named = true) :
    (location.path bucket).object = some (['/'].intercalate location.pieces) := by
  simp [Location.path,named]

theorem join_pieces (location : Location) : components '/' (['/'].intercalate location.pieces) = location.pieces :=
  components_intercalate location.plain

theorem init_join (location : Location) (named : location.named = true) :
    initWithBucket bucket (some (['/'].intercalate location.pieces)) = location.path bucket := by
  have joined : rejoin '/' (['/'].intercalate location.pieces) = ['/'].intercalate location.pieces := by
    rw [rejoin,join_pieces]
  have kept : CanvasPainter.FIRStoragePath.standardizedPathForString (['/'].intercalate location.pieces) = _ := joined
  simp [initWithBucket,Location.path,named,kept]

theorem init_pieces (location : Location) (named : location.named = true)
    (same : components '/' object = location.pieces) : initWithBucket bucket (some object) = location.path bucket := by
  have joined : CanvasPainter.FIRStoragePath.standardizedPathForString object = ['/'].intercalate location.pieces :=
    congrArg _ same
  simp [initWithBucket,Location.path,named,joined]

theorem child_location (string : Text) :
    (location.path bucket).child string = (if string = [] then location else location.below string).path bucket := by
  by_cases empty : string = []
  · subst string
    have same : initWithBucket bucket (location.path bucket).object = location.path bucket := by
      by_cases named : location.named = true
      · rw [path_named named]
        exact init_join location named
      · simp [Location.path,named,initWithBucket]
    simpa [FIRStoragePath.child] using same
  · have long : string.length ≠ 0 := by simpa using empty
    rw [if_neg empty]
    by_cases named : location.named = true
    · have pieces : components '/' (['/'].intercalate location.pieces ++ '/' :: string) = (location.below string).pieces := by
        rw [components_append,join_pieces]
        rfl
      have below : initWithBucket bucket (some _) = _ := init_pieces (location.below string) rfl pieces
      simpa [FIRStoragePath.child,long,path_named named,CanvasPainter.FIRStoragePath.appendingPathComponent] using below
    · have top : location.pieces = [] := location.made (by simpa using named)
      have pieces : components '/' string = (location.below string).pieces := by simp [Location.below,top]
      have below : initWithBucket bucket (some _) = _ := init_pieces (location.below string) rfl pieces
      have unnamed : (location.path bucket).object = none := by simp [Location.path,named]
      simpa [FIRStoragePath.child,long,unnamed] using below

theorem deleting_last (plain : '/' ∉ piece) :
    FIRStoragePath.deletingLastPathComponent (['/'].intercalate (pieces ++ [piece])) = ['/'].intercalate pieces := by
  have every : ∀ c ∈ piece.reverse, decide (c ≠ '/') = true := by
    intro c inside
    simp only [ne_eq,decide_eq_true_eq]
    rintro rfl
    exact plain (List.mem_reverse.mp inside)
  by_cases first : pieces = []
  · subst pieces
    have gone : piece.reverse.dropWhile (fun c => c ≠ '/') = [] := List.dropWhile_eq_nil_iff.mpr every
    rw [List.nil_append,List.intercalate_singleton,FIRStoragePath.deletingLastPathComponent,gone]
    rfl
  · rw [intercalate_last pieces first,FIRStoragePath.deletingLastPathComponent,List.reverse_append,List.reverse_cons,List.append_assoc,
      List.dropWhile_append_of_pos every]
    simp

theorem parent_location : (location.path bucket).parent =
    (if location.pieces = [] then none else some location.above).map (Location.path bucket) := by
  by_cases named : location.named = true
  · by_cases top : location.pieces = []
    · simp [FIRStoragePath.parent,path_named named,top]
    · have split : location.pieces.dropLast ++ [location.pieces.getLast top] = location.pieces :=
        List.dropLast_append_getLast top
      have plain := location.plain _ (List.getLast_mem top)
      have object : ['/'].intercalate location.pieces ≠ [] := by
        intro nothing
        have back := join_pieces location
        rw [nothing] at back
        exact top back.symm
      have cut : FIRStoragePath.deletingLastPathComponent (['/'].intercalate location.pieces) =
          ['/'].intercalate location.above.pieces := by
        rw [← split,deleting_last plain.2]
        rfl
      have above : initWithBucket bucket (some _) = _ := init_join location.above rfl
      simp [FIRStoragePath.parent,path_named named,top,object,cut,above]
  · have top : location.pieces = [] := location.made (by simpa using named)
    simp [FIRStoragePath.parent,Location.path,named,top]

theorem move_location (move : Move) : (location.path bucket).move move = (location.move move).map (Location.path bucket) := by
  cases move with
  | child string => exact congrArg some (child_location string)
  | parent => exact parent_location
  | root => rfl

theorem walk_location (moves : List Move) (location : Location) :
    walk (location.path bucket) moves = (location.walk moves).map (Location.path bucket) := by
  induction moves generalizing location with
  | nil => rfl
  | cons move rest ih =>
      rw [walk,Location.walk,move_location]
      cases location.move move with
      | none => rfl
      | some next => exact ih next

theorem path_injective {one two : Location} (same : one.path bucket = two.path bucket) :
    one.pieces = two.pieces ∧ one.named = two.named := by
  have object := congrArg FIRStoragePath.object same
  cases first : one.named <;> cases second : two.named
  · exact ⟨(one.made first).trans (two.made second).symm,rfl⟩
  · simp [Location.path,first,second] at object
  · simp [Location.path,first,second] at object
  · simp only [Location.path,first,second,if_true,Option.some.injEq] at object
    have pieces := congrArg (components '/') object
    rw [join_pieces,join_pieces] at pieces
    exact ⟨pieces,rfl⟩

theorem parent_root : (location.path bucket).parent ≠ some (location.path bucket).root := by
  rw [parent_location]
  split
  · simp
  · rintro same
    have top : location.above.path bucket = Location.top.path bucket := Option.some.inj same
    cases (path_injective top).2

-- Walks of references are walks of places; only, a root come to from below is not equal to the root.
theorem walks (bucket : Text) (moves : List Move) (location other : Location) :
    walk (location.path bucket) moves = (location.walk moves).map (Location.path bucket) ∧
    (location.path bucket = other.path bucket ↔ location.pieces = other.pieces ∧ location.named = other.named) ∧
    ((location.path bucket).parent = none ↔ location.pieces = []) ∧
    (location.path bucket).parent ≠ some (location.path bucket).root := by
  refine ⟨walk_location moves location,⟨path_injective,?_⟩,?_,parent_root⟩
  · rintro ⟨pieces,named⟩
    simp [Location.path,pieces,named]
  · rw [parent_location]
    split <;> simp_all

end CanvasPainter.StorageURLs
