import Mathlib.Data.List.Basic

namespace CanvasPainter

-- FIRStoragePath of the one default bucket: the object is nil at the root.
structure FIRStoragePath where
  object : Option (List Char)
  deriving DecidableEq, Repr

namespace FIRStoragePath

-- Leading, trailing and doubled slashes leave empty components, and those go.
def standardizedPathForString (string : List Char) : List Char :=
  ['/'].intercalate ((string.splitOn '/').filter (fun component => !component.isEmpty))

def initWithObject (object : Option (List Char)) : FIRStoragePath := ⟨object.map standardizedPathForString⟩

def root : FIRStoragePath := initWithObject none

-- stringByAppendingPathComponent; the doubled slashes it folds itself the initializer folds too.
def appendingPathComponent (object component : List Char) : List Char := object ++ '/' :: component

def child (path : FIRStoragePath) (string : List Char) : FIRStoragePath :=
  if string.length = 0 then initWithObject path.object
  else match path.object with
    | none => initWithObject (some string)
    | some object => initWithObject (some (appendingPathComponent object string))

theorem standardized_components (components : List (List Char)) (nonempty : components ≠ [])
    (plain : ∀ component ∈ components, component ≠ [] ∧ '/' ∉ component) :
    standardizedPathForString (['/'].intercalate components) = ['/'].intercalate components := by
  have split := List.splitOn_intercalate '/' (fun component member => (plain component member).2) nonempty
  have nonempty : components.filter (fun component => !component.isEmpty) = components := by
    refine List.filter_eq_self.mpr fun component member => ?_
    simpa using (plain component member).1
  rw [standardizedPathForString,split,nonempty]

end FIRStoragePath

def feedImages : List Char := ['F','e','e','d','I','m','a','g','e','s']
def pngExtension : List Char := ['.','p','n','g']

-- The interpolated path of FBUploadManager, "FeedImages/\(customUID).png".
def feedImagesName (customUID : String) : List Char := feedImages ++ '/' :: (customUID.toList ++ pngExtension)

-- Storage has no folders of its own: the path is the folder's, a slash and one component.
def DirectlyIn (folder object : List Char) : Prop :=
  ∃ name, name ≠ [] ∧ '/' ∉ name ∧ object = folder ++ '/' :: name

theorem feedImagesName_directly (plain : '/' ∉ customUID.toList) : DirectlyIn feedImages (feedImagesName customUID) :=
  ⟨customUID.toList ++ pngExtension,by simp [pngExtension],by simp [plain,pngExtension],rfl⟩

theorem feedImagesName_injective (same : feedImagesName one = feedImagesName two) : one = two := by
  have tails := List.append_cancel_left same
  exact String.toList_inj.mp (List.append_cancel_right (List.cons.inj tails).2)

theorem feedImages_child (plain : '/' ∉ customUID.toList) :
    (FIRStoragePath.root.child (feedImagesName customUID)).object = some (feedImagesName customUID) := by
  have joined : feedImagesName customUID = ['/'].intercalate [feedImages,customUID.toList ++ pngExtension] := by
    simp [feedImagesName,List.intercalate]
  have long : (feedImagesName customUID).length ≠ 0 := by simp [feedImagesName]
  have kept := FIRStoragePath.standardized_components [feedImages,customUID.toList ++ pngExtension] (by simp)
    (by simp [feedImages,pngExtension,plain])
  simp only [FIRStoragePath.child,long,if_false,FIRStoragePath.root,FIRStoragePath.initWithObject,Option.map]
  rw [joined,kept]

end CanvasPainter
