import CanvasPainter.ShareUpload

namespace CanvasPainter.Sharing
open TransitionRuns OverwritingStore CanvasDrawVC
variable {UIImage Data : Type} {pngData : UIImage → Option Data} {world : World UIImage Data}

def Holds (pngData : UIImage → Option Data) (world : World UIImage Data) (place : FIRStoragePath)
    (image : UIImage) : Prop :=
  ∃ data, pngData image = some data ∧ world.objects place = some data

def InFeedImages (place : FIRStoragePath) : Prop := ∃ object, place.object = some object ∧ DirectlyIn feedImages object

def Encoded (pngData : UIImage → Option Data) (task : UploadTask UIImage Data) : Prop :=
  task.reference = FIRStoragePath.root.child (feedImagesName task.title) ∧ pngData task.image = some task.data

def UploadTask.write (task : UploadTask UIImage Data) : FIRStoragePath × Data := (task.reference,task.data)

def Committed (world : World UIImage Data) (image : UIImage) : Prop := ∃ share ∈ world.committed, share.image = image

-- Nobody is told of a success that the service did not commit.
structure Consistent (pngData : UIImage → Option Data) (world : World UIImage Data) : Prop where
  tasks : ∀ task ∈ world.tasks, Encoded pngData task
  committed : ∀ task ∈ world.committed, Encoded pngData task
  objects : world.objects = putAll (fun _ => none) (world.committed.map UploadTask.write)
  stored : ∀ task ∈ world.tasks, task.stored = true → Committed world task.image
  successful : ∀ entry ∈ world.told, entry.2 = uploadSuccessful → Committed world entry.1

theorem initial_consistent : Consistent pngData start :=
  ⟨by simp [start],by simp [start],rfl,by simp [start],by simp [start]⟩

theorem Committed.put (earlier : Committed world image) : Committed (world.put index task) image := by
  obtain ⟨share,member,same⟩ := earlier
  exact ⟨share,List.mem_append_left _ member,same⟩

theorem consistent_preserved (valid : Consistent pngData world) (step : Step pngData world event after) :
    Consistent pngData after := by
  cases step with
  | terminated =>
      exact ⟨fun task member => valid.tasks task (List.mem_of_mem_filter member),valid.committed,valid.objects,
        fun task member => valid.stored task (List.mem_of_mem_filter member),valid.successful⟩
  | offline _ _ =>
      refine ⟨valid.tasks,valid.committed,valid.objects,valid.stored,snoc_all valid.successful ?_⟩
      intro success
      exact absurd success (by simp [uploadOffline,uploadSuccessful])
  | started encoded =>
      exact ⟨snoc_all valid.tasks ⟨rfl,encoded⟩,valid.committed,valid.objects,
        snoc_all valid.stored (fun done => by cases done),valid.successful⟩
  | objectPut found =>
      rename_i index task
      have encoded := valid.tasks task (List.mem_of_getElem? found)
      refine ⟨?_,snoc_all valid.committed encoded,?_,?_,
        fun entry member success => (valid.successful entry member success).put⟩
      · intro other member
        rcases List.mem_or_eq_of_mem_set member with old | rfl
        · exact valid.tasks other old
        · exact encoded
      · simp only [World.put,List.map_append,List.map_singleton,putAll_concat]
        rw [← valid.objects]; rfl
      · intro other member done
        rcases List.mem_or_eq_of_mem_set member with old | rfl
        · exact (valid.stored other old done).put
        · exact ⟨task,by simp [World.put],rfl⟩
  | completed found quiet =>
      rename_i index task error
      refine ⟨fun task member => valid.tasks task (List.mem_of_mem_eraseIdx member),valid.committed,valid.objects,
        fun task member => valid.stored task (List.mem_of_mem_eraseIdx member),snoc_all valid.successful ?_⟩
      intro success
      cases error with
      | none => exact valid.stored task (List.mem_of_getElem? found) (quiet rfl)
      | some description => exact absurd success uploadFailed_not_successful

theorem runs_consistent (path : Runs (advance pngData) start events world) : Consistent pngData world :=
  Runs.invariant initial_consistent (fun _ _ _ valid accepted => consistent_preserved valid (advance_step accepted)) path

theorem Encoded.reference_eq {one two : UploadTask UIImage Data} (first : Encoded pngData one)
    (second : Encoded pngData two) (plain : '/' ∉ one.title.toList) (level : '/' ∉ two.title.toList) :
    one.reference = two.reference ↔ one.title = two.title := by
  rw [first.1,second.1]
  constructor
  · intro same
    have names := congrArg FIRStoragePath.object same
    rw [feedImages_child plain,feedImages_child level] at names
    exact feedImagesName_injective (Option.some.inj names)
  · exact fun same => by rw [same]

theorem Encoded.inFeedImages {task : UploadTask UIImage Data} (encoded : Encoded pngData task)
    (plain : '/' ∉ task.title.toList) : InFeedImages task.reference :=
  ⟨_,by rw [encoded.1,feedImages_child plain],feedImagesName_directly plain⟩

theorem Encoded.holds {task : UploadTask UIImage Data} (encoded : Encoded pngData task) :
    Holds pngData world place task.image ↔ world.objects place = some task.data := by
  simp [Holds,encoded.2]

theorem Encoded.same_data {one two : UploadTask UIImage Data} (first : Encoded pngData one)
    (second : Encoded pngData two) : pngData one.image = pngData two.image ↔ one.data = two.data := by
  rw [first.2,second.2,Option.some.injEq]

theorem own_objects_iff (valid : Consistent pngData world)
    (plain : ∀ share ∈ world.committed, '/' ∉ share.title.toList) :
    (∀ share ∈ world.committed, InFeedImages share.reference ∧ Holds pngData world share.reference share.image) ↔
      ∀ one ∈ world.committed, ∀ two ∈ world.committed, one.title = two.title →
        pngData one.image = pngData two.image := by
  have kept : (∀ share ∈ world.committed, world.objects share.reference = some share.data) ↔
      ∀ one ∈ world.committed, ∀ two ∈ world.committed, one.reference = two.reference → one.data = two.data := by
    rw [valid.objects]
    exact all_kept_iff
  constructor
  · intro all one first two second same
    have encoded := valid.committed one first
    have also := valid.committed two second
    rw [encoded.same_data also]
    refine kept.mp (fun share member => ?_) one first two second ?_
    · exact (valid.committed share member).holds.mp (all share member).2
    · exact (encoded.reference_eq also (plain one first) (plain two second)).mpr same
  · intro agree share member
    have encoded := valid.committed share member
    refine ⟨encoded.inFeedImages (plain share member),encoded.holds.mpr (kept.mpr ?_ share member)⟩
    intro one first two second same
    have left := valid.committed one first
    have right := valid.committed two second
    exact (left.same_data right).mp (agree one first two second
      ((left.reference_eq right (plain one first) (plain two second)).mp same))

theorem some_object_iff (valid : Consistent pngData world)
    (plain : ∀ share ∈ world.committed, '/' ∉ share.title.toList) :
    (∀ share ∈ world.committed, ∃ place, InFeedImages place ∧ Holds pngData world place share.image) ↔
      ∀ share ∈ world.committed, ∃ last, LastUnder UploadTask.title world.committed last ∧
        pngData last.image = pngData share.image := by
  have places : ∀ one ∈ world.committed, ∀ two ∈ world.committed,
      one.reference = two.reference ↔ one.title = two.title :=
    fun one first two second => (valid.committed one first).reference_eq (valid.committed two second)
      (plain one first) (plain two second)
  constructor
  · intro all share member
    obtain ⟨place,_,held⟩ := all share member
    have encoded := valid.committed share member
    rw [encoded.holds,valid.objects] at held
    obtain ⟨last,final,found⟩ := putAll_last_iff.mp held
    have final : LastUnder UploadTask.reference world.committed last := final
    refine ⟨last,final.relabel fun one first two second => (places one first two second).mpr,?_⟩
    exact ((valid.committed last final.mem).same_data encoded).mpr (congrArg Prod.snd found)
  · intro all share member
    obtain ⟨last,final,same⟩ := all share member
    have encoded := valid.committed last final.mem
    refine ⟨last.reference,encoded.inFeedImages (plain last final.mem),?_⟩
    rw [(valid.committed share member).holds,valid.objects]
    have newest : LastUnder UploadTask.reference world.committed last :=
      final.relabel fun one first two second => (places one first two second).mp
    refine putAll_last_iff.mpr ⟨last,newest,?_⟩
    exact Prod.ext rfl ((encoded.same_data (valid.committed share member)).mp same)

theorem shares_kept_iff (path : Runs (advance pngData) start events world)
    (plain : ∀ share ∈ world.committed, '/' ∉ share.title.toList) :
    ((∀ share ∈ world.committed, InFeedImages share.reference ∧ Holds pngData world share.reference share.image) ↔
      ∀ one ∈ world.committed, ∀ two ∈ world.committed, one.title = two.title →
        pngData one.image = pngData two.image) ∧
    ((∀ share ∈ world.committed, ∃ place, InFeedImages place ∧ Holds pngData world place share.image) ↔
      ∀ share ∈ world.committed, ∃ last, LastUnder UploadTask.title world.committed last ∧
        pngData last.image = pngData share.image) :=
  ⟨own_objects_iff (runs_consistent path) plain,some_object_iff (runs_consistent path) plain⟩

-- Images numbered from 0 and their file: the PNG signature and the number.
def numberedPng (image : Nat) : Option (List Nat) := some [137,80,78,71,13,10,26,10,image]

def online : Reachability := .flags 2

theorem shares_kept_iff_two_titles :
    ∃ world, Runs (advance numberedPng) start [.shareConfirmed 0 online (some (some "One")) (some 0),
        .shareConfirmed 1 online (some (some "Two")) (some 1),.objectPut 1,.objectPut 0,
        .completed 0 none,.completed 0 none] world ∧ world.committed.length = 2 ∧
      ∀ share ∈ world.committed, InFeedImages share.reference ∧ Holds numberedPng world share.reference share.image := by
  refine ⟨_,run_exact.mp rfl,rfl,?_⟩
  have path : Runs (advance numberedPng) start [.shareConfirmed 0 online (some (some "One")) (some 0),
        .shareConfirmed 1 online (some (some "Two")) (some 1),.objectPut 1,.objectPut 0,
        .completed 0 none,.completed 0 none] _ := run_exact.mp rfl
  exact (shares_kept_iff path (by decide)).1.mpr (by decide)

-- Two users leave the pre-filled title as it is. Both are told of success.
theorem same_title_destroys :
    ∃ world, Runs (advance numberedPng) start [.shareConfirmed 0 online (some (some prefilledTitle)) (some 0),
        .objectPut 0,.completed 0 none,.shareConfirmed 1 online (some (some prefilledTitle)) (some 1),
        .objectPut 0,.completed 0 none] world ∧
      world.told = [(0,uploadSuccessful),(1,uploadSuccessful)] ∧
      (∀ share ∈ world.committed, '/' ∉ share.title.toList) ∧
      ¬ ∀ share ∈ world.committed, ∃ place, InFeedImages place ∧ Holds numberedPng world place share.image := by
  refine ⟨_,run_exact.mp rfl,rfl,by decide,?_⟩
  have path : Runs (advance numberedPng) start [.shareConfirmed 0 online (some (some prefilledTitle)) (some 0),
        .objectPut 0,.completed 0 none,.shareConfirmed 1 online (some (some prefilledTitle)) (some 1),
        .objectPut 0,.completed 0 none] _ := run_exact.mp rfl
  rw [some_object_iff (runs_consistent path) (by decide)]
  intro all
  obtain ⟨last,final,same⟩ := all _ (List.mem_cons_self ..)
  change LastUnder UploadTask.title ([_] ++ [_]) last at final
  rcases lastUnder_concat.mp final with rfl | ⟨different,older⟩
  · exact absurd same (by decide)
  · rw [List.mem_singleton.mp older.mem] at different
    exact different rfl

-- The bucket or a task still in flight; there is no third place in the app.
def Retained (pngData : UIImage → Option Data) (world : World UIImage Data) (image : UIImage) : Prop :=
  (∃ place, Holds pngData world place image) ∨ ∃ task ∈ world.tasks, task.image = image

def Promised (world : World UIImage Data) (image : UIImage) : Prop :=
  (image,uploadSuccessful) ∈ world.told ∨ (image,uploadOffline) ∈ world.told

def Careful (world : World UIImage Data) : Event UIImage → Prop
  | .shareConfirmed _ reachability textField snapshot => (shareConfirmed textField snapshot).isSome = true →
      InternetConnectionManager.isConnectedToNetwork reachability = true
  | .objectPut index => ∀ task, world.tasks[index]? = some task →
      ∀ old, world.objects task.reference = some old → old = task.data
  | _ => True

structure Kept (pngData : UIImage → Option Data) (world : World UIImage Data) : Prop where
  consistent : Consistent pngData world
  held : ∀ share ∈ world.committed, Held world.objects share.data
  online : ∀ entry ∈ world.told, entry.2 ≠ uploadOffline

theorem initial_kept : Kept pngData start := ⟨initial_consistent,by simp [start],by simp [start]⟩

theorem kept_preserved (valid : Kept pngData world) (careful : Careful world event)
    (step : Step pngData world event after) : Kept pngData after := by
  have consistent := consistent_preserved valid.consistent step
  cases step with
  | terminated => exact ⟨consistent,valid.held,valid.online⟩
  | offline confirmed offline =>
      have connected : InternetConnectionManager.isConnectedToNetwork _ = true :=
        careful (Option.isSome_iff_exists.mpr ⟨_,confirmed⟩)
      rw [offline] at connected
      cases connected
  | started _ => exact ⟨consistent,valid.held,valid.online⟩
  | objectPut found =>
      have kept := fun share member => (valid.held share member).put (careful _ found)
      exact ⟨consistent,snoc_all kept held_put,valid.online⟩
  | completed _ _ =>
      rename_i error _ _
      refine ⟨consistent,valid.held,snoc_all valid.online ?_⟩
      cases error with
      | none => simp [uploadCompletion,uploadOffline,uploadSuccessful]
      | some description => exact uploadFailed_not_offline

theorem Kept.retained (valid : Kept pngData world) (promised : Promised world image) : Retained pngData world image := by
  rcases promised with uploaded | later
  · obtain ⟨share,member,rfl⟩ := valid.consistent.successful _ uploaded rfl
    obtain ⟨place,found⟩ := valid.held share member
    exact .inl ⟨place,(valid.consistent.committed share member).holds.mpr found⟩
  · exact absurd rfl (valid.online _ later)

theorem promised_retained (careful : EachStep (advance pngData) start events Careful) :
    Throughout (advance pngData) start events fun world =>
      ∀ image, Promised world image → Retained pngData world image := by
  intro earlier world front path image
  obtain ⟨later,rfl⟩ := front
  have kept : Kept pngData world := path.guarded initial_kept
    (fun _ _ _ valid ok accepted => kept_preserved valid ok (advance_step accepted)) careful.front
  exact kept.retained

instance (world : World UIImage Data) [DecidableEq Data] (event : Event UIImage) : Decidable (Careful world event) :=
  match event with
  | .shareConfirmed _ _ _ _ => inferInstanceAs (Decidable (_ → _))
  | .objectPut index =>
    inferInstanceAs (Decidable (∀ task, world.tasks[index]? = some task →
      ∀ old, world.objects task.reference = some old → old = task.data))
  | .completed _ _ => isTrue trivial
  | .terminated _ => isTrue trivial

theorem promised_retained_again :
    ∃ world, Runs (advance numberedPng) start [.shareConfirmed 0 online (some (some prefilledTitle)) (some 0),
        .objectPut 0,.completed 0 none,.shareConfirmed 0 online (some (some prefilledTitle)) (some 0),.objectPut 0] world ∧
      Promised world 0 ∧ Retained numberedPng world 0 := by
  have path : Runs (advance numberedPng) start [.shareConfirmed 0 online (some (some prefilledTitle)) (some 0),
        .objectPut 0,.completed 0 none,.shareConfirmed 0 online (some (some prefilledTitle)) (some 0),.objectPut 0] _ :=
    run_exact.mp rfl
  refine ⟨_,path,.inl (List.mem_singleton.mpr rfl),?_⟩
  exact (promised_retained (by decide)).final path 0 (.inl (List.mem_singleton.mpr rfl))

theorem offline_share_forgotten :
    ∃ world, Runs (advance numberedPng) start [.shareConfirmed 0 .notCreated (some (some prefilledTitle)) (some 0)] world ∧
      world.told = [(0,uploadOffline)] ∧ Promised world 0 ∧ ¬ Retained numberedPng world 0 := by
  refine ⟨_,run_exact.mp rfl,rfl,.inr (List.mem_singleton.mpr rfl),?_⟩
  rintro (⟨place,data,_,found⟩ | ⟨task,member,_⟩)
  · cases found
  · cases member

end CanvasPainter.Sharing
