import Mathlib.Data.List.TakeWhile
import CanvasPainter.StorageURLs

namespace CanvasPainter.StorageURLs
open SeparatedComponents PercentEncoding
variable {path : FIRStoragePath} {text object bucket : Text}

-- What the initializer leaves as it is.
def Canonical (path : FIRStoragePath) : Prop := path.object = path.object.map (rejoin '/')

instance : Decidable (Canonical path) := inferInstanceAs (Decidable (path.object = path.object.map (rejoin '/')))

theorem initWithBucket_canonical : Canonical (initWithBucket bucket objectName) := by
  cases objectName with
  | none => rfl
  | some object => exact congrArg some rejoin_rejoin.symm

theorem child_canonical {string : Text} : Canonical (path.child string) := by
  unfold FIRStoragePath.child
  split
  · exact initWithBucket_canonical
  · split <;> exact initWithBucket_canonical

theorem initWithBucket_same (canonical : Canonical path) : initWithBucket path.bucket path.object = path := by
  cases path
  exact congrArg (FIRStoragePath.mk _) canonical.symm

theorem skipped_first (plain : ∀ c, text.head? = some c → whitespaceAndNewline c = false) : skipped text = text := by
  cases text with
  | nil => rfl
  | cons c rest => simp [skipped,plain c rfl]

theorem skipped_shorter (blank : text.head? = some c) (white : whitespaceAndNewline c = true) :
    (skipped text).length < text.length := by
  cases text with
  | nil => cases blank
  | cons first rest =>
      cases blank
      have shorter : (rest.dropWhile whitespaceAndNewline).length ≤ rest.length := (List.dropWhile_sublist _).length_le
      simp [skipped,white]
      omega

theorem takeWhile_front (rest : Text) (absent : stop ∉ text) : (text ++ stop :: rest).takeWhile (fun c => c ≠ stop) = text ∧
    (text ++ stop :: rest).dropWhile (fun c => c ≠ stop) = stop :: rest := by
  have every : ∀ c ∈ text, decide (c ≠ stop) = true := by
    intro c inside
    simp only [ne_eq,decide_eq_true_eq]
    rintro rfl
    exact absent inside
  rw [List.takeWhile_append_of_pos every,List.dropWhile_append_of_pos every]
  simp

theorem takeWhile_all {text : Text} (absent : stop ∉ text) : text.takeWhile (fun c => c ≠ stop) = text := by
  apply List.takeWhile_eq_self_iff.mpr
  intro c inside
  simp only [ne_eq,decide_eq_true_eq]
  rintro rfl
  exact absent inside

-- What a gs:// URI can say: the scanner stops at a newline and skips white space in front of either part.
structure Writable (path : FIRStoragePath) : Prop where
  named : path.bucket ≠ []
  whole : '/' ∉ path.bucket
  flush : ∀ c, path.bucket.head? = some c → whitespaceAndNewline c = false
  object : ∀ object, path.object = some object →
    object ≠ [] ∧ '\n' ∉ object ∧ ∀ c, object.head? = some c → whitespaceAndNewline c = false

theorem scan_scheme : scanString gsStart (gsStart ++ text) = some text := by
  have flush : skipped (gsStart ++ text) = gsStart ++ text := by
    apply skipped_first
    intro c first
    cases first
    decide
  have front : gsStart.isPrefixOf (gsStart ++ text) = true := by simp
  rw [scanString,flush,if_pos front]
  rfl

theorem pathFromString_gs : pathFromString (gsStart ++ text) = (scanUpTo '/' text).map fun scanned =>
    initWithBucket scanned.1 ((scanUpTo '\n' ((scanString ['/'] scanned.2).getD scanned.2)).map (·.1)) := by
  have gs : gsStart.isPrefixOf (gsStart ++ text) = true := by simp
  rw [pathFromString,if_pos gs,pathFromGSURI,scan_scheme]
  dsimp only
  cases scanned : scanUpTo '/' text with
  | none => rfl
  | some scanned => rfl

theorem scan_slash : scanString ['/'] ('/' :: text) = some text := by
  have flush : skipped ('/' :: text) = '/' :: text := by
    apply skipped_first
    intro c first
    cases first
    decide
  simp [scanString,flush]

theorem scan_flush (flush : ∀ c, text.head? = some c → whitespaceAndNewline c = false) :
    scanUpTo stop text = if text.takeWhile (fun c => c ≠ stop) = [] then none
      else some (text.takeWhile (fun c => c ≠ stop),text.dropWhile (fun c => c ≠ stop)) := by
  rw [scanUpTo,skipped_first flush]

theorem scan_bucket (text : Text) (named : bucket ≠ []) (whole : '/' ∉ bucket)
    (flush : ∀ c, bucket.head? = some c → whitespaceAndNewline c = false) :
    scanUpTo '/' (bucket ++ '/' :: text) = some (bucket,'/' :: text) := by
  obtain ⟨scanned,rest⟩ := takeWhile_front text whole
  have start : ∀ c, (bucket ++ '/' :: text).head? = some c → whitespaceAndNewline c = false := by
    cases bucket with
    | nil => exact absurd rfl named
    | cons first others => exact flush
  rw [scan_flush start,scanned,rest,if_neg named]

theorem scan_object (named : object ≠ []) (line : '\n' ∉ object)
    (flush : ∀ c, object.head? = some c → whitespaceAndNewline c = false) :
    (scanUpTo '\n' object).map (·.1) = some object := by
  rw [scan_flush flush,takeWhile_all line,if_neg named]
  rfl

theorem stringValue_text : path.stringValue = gsStart ++ (path.bucket ++ '/' :: path.object.getD []) :=
  List.append_assoc ..

theorem gs_read (writable : Writable path) (canonical : Canonical path) : pathFromString path.stringValue = some path := by
  have object : (scanUpTo '\n' (path.object.getD [])).map (·.1) = path.object := by
    cases known : path.object with
    | none => rfl
    | some object =>
        obtain ⟨named,line,flush⟩ := writable.object object known
        exact scan_object named line flush
  rw [stringValue_text,pathFromString_gs,scan_bucket _ writable.named writable.whole writable.flush]
  simp only [Option.map_some,scan_slash,Option.getD_some,object]
  exact congrArg some (initWithBucket_same canonical)

theorem scan_starts (scanned : scanUpTo stop text = some (front,rest)) :
    front ≠ [] ∧ stop ∉ front ∧ (∀ c, front.head? = some c → whitespaceAndNewline c = false) ∧ front.length ≤ (skipped text).length := by
  simp only [scanUpTo] at scanned
  split at scanned
  · cases scanned
  · rename_i nonempty
    cases scanned
    refine ⟨nonempty,?_,?_,(List.takeWhile_sublist _).length_le⟩
    · intro inside
      simpa using List.mem_takeWhile_imp inside
    · intro c first
      cases known : skipped text with
      | nil => simp [known] at first
      | cons head others =>
          have same : head = c := by
            simp only [known,List.takeWhile_cons] at first
            split at first
            · exact Option.some.inj first
            · cases first
          have start : (text.dropWhile whitespaceAndNewline).head? = some head := by
            rw [← List.head?_cons (a := head) (l := others),← known]
            rfl
          have white := List.head?_dropWhile_not whitespaceAndNewline text
          rw [start] at white
          simpa [same] using white

theorem written_object (same : ((scanUpTo '\n' object).map (·.1)).map (rejoin '/') = some object) :
    object ≠ [] ∧ '\n' ∉ object ∧ ∀ c, object.head? = some c → whitespaceAndNewline c = false := by
  cases scanned : scanUpTo '\n' object with
  | none => simp [scanned] at same
  | some parts =>
      obtain ⟨front,rest⟩ := parts
      obtain ⟨named,line,_,most⟩ := scan_starts scanned
      have back : rejoin '/' front = object := by simpa [scanned] using same
      have kept : (rejoin '/' front).Sublist front := (rejoin_sublist front).1
      have shorter : (skipped object).length ≤ object.length := (List.dropWhile_sublist _).length_le
      have length := kept.length_le
      rw [back] at kept length
      have whole : object = front := kept.eq_of_length (by omega)
      refine ⟨whole ▸ named,whole ▸ line,?_⟩
      intro c first
      by_contra white
      have less := skipped_shorter first (by simpa using white)
      omega

theorem gs_written (read : pathFromString path.stringValue = some path) : Writable path := by
  rw [stringValue_text,pathFromString_gs] at read
  cases scanned : scanUpTo '/' (path.bucket ++ '/' :: path.object.getD []) with
  | none => simp [scanned] at read
  | some parts =>
      obtain ⟨bucketName,afterBucket⟩ := parts
      rw [scanned] at read
      have same := Option.some.inj read
      have bucket : bucketName = path.bucket := congrArg FIRStoragePath.bucket same
      have object : ((scanUpTo '\n' ((scanString ['/'] afterBucket).getD afterBucket)).map (·.1)).map (rejoin '/') = path.object :=
        congrArg FIRStoragePath.object same
      rw [bucket] at scanned
      obtain ⟨named,whole,flush,_⟩ := scan_starts scanned
      refine ⟨named,whole,flush,fun own known => ?_⟩
      have again := scan_bucket (path.object.getD []) named whole flush
      rw [again] at scanned
      cases scanned
      simp only [scan_slash,Option.getD_some,known] at object
      exact written_object object

theorem gs_round_trip (canonical : Canonical path) : pathFromString path.stringValue = some path ↔ Writable path :=
  ⟨gs_written,fun writable => gs_read writable canonical⟩

def feedImage : FIRStoragePath := ⟨['c','a','n','v','a','s'],some ['F','e','e','d','I','m','a','g','e','s','/','a','.','p','n','g']⟩

theorem gs_round_trip_feedImage : pathFromString feedImage.stringValue = some feedImage := by
  have canonical : Canonical feedImage := by decide
  have flush : whitespaceAndNewline 'c' = false ∧ whitespaceAndNewline 'F' = false := by decide
  have writable : Writable feedImage := by
    refine ⟨by simp [feedImage],by decide,fun c first => ?_,fun object known => ?_⟩
    · cases first
      exact flush.1
    · cases known
      refine ⟨by simp,by decide,fun c first => ?_⟩
      cases first
      exact flush.2
  exact (gs_round_trip canonical).mpr writable

end CanvasPainter.StorageURLs
