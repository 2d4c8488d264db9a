import CanvasPainter.OverwritingStore
import CanvasPainter.StoragePath
import CanvasPainter.TransitionRuns

namespace CanvasPainter

-- What SystemConfiguration answers for the default route.
inductive Reachability where
  | notCreated
  | flagsUnavailable
  | flags (rawValue : BitVec 32)
  deriving DecidableEq, Repr

namespace InternetConnectionManager

def kSCNetworkFlagsReachable : BitVec 32 := 2
def kSCNetworkFlagsConnectionRequired : BitVec 32 := 4

def isConnectedToNetwork : Reachability → Bool
  | .notCreated => false
  | .flagsUnavailable => false
  | .flags rawValue =>
    let isReachable := rawValue &&& kSCNetworkFlagsReachable != 0
    let needsConnection := rawValue &&& kSCNetworkFlagsConnectionRequired != 0
    isReachable && !needsConnection

end InternetConnectionManager

structure UIAlertController where
  title : String
  message : String
  actions : List String
  deriving DecidableEq, Repr

namespace CanvasDrawVC

def uploadFailed (localizedDescription : String) : UIAlertController :=
  ⟨"Upload Failed!","Your   canvas was failed to upload please try again. Error : " ++ localizedDescription,["OK"]⟩
def uploadSuccessful : UIAlertController :=
  ⟨"Upload Successful!","Your canvas has been succesfully uploaded and will be shared with others.",["OK"]⟩
def uploadOffline : UIAlertController :=
  ⟨"Upload Failed!","Your Canvas will be automatically uploaded when connected to internet.",["OK"]⟩

theorem uploadFailed_not_successful : uploadFailed description ≠ uploadSuccessful := by
  simp [uploadFailed,uploadSuccessful]

theorem uploadFailed_not_offline : uploadFailed description ≠ uploadOffline := by
  intro same
  have letters := congrArg (fun alert => alert.message.toList.take 6) same
  simp [uploadFailed,uploadOffline] at letters

-- `trapped` is a forced unwrap that met nil and ended the process.
inductive Outcome (Data : Type) where
  | trapped
  | presented (alert : UIAlertController)
  | putData (reference : FIRStoragePath) (data : Data)
  deriving DecidableEq, Repr

variable {UIImage Data : Type}

def FBUploadManager (pngData : UIImage → Option Data) (reachability : Reachability)
    (customUID : String) (uploadImg : UIImage) : Outcome Data :=
  if InternetConnectionManager.isConnectedToNetwork reachability then
    let data := pngData uploadImg
    let feedImagesRef := FIRStoragePath.root.child (feedImagesName customUID)
    match data with
    | none => .trapped
    | some data => .putData feedImagesRef data
  else .presented uploadOffline

def uploadCompletion : Option String → UIAlertController
  | some localizedDescription => uploadFailed localizedDescription
  | none => uploadSuccessful

def shareDialog : UIAlertController := ⟨"Nice Work!!!","Enter a name for your canvas Drawing",["OK"]⟩
def prefilledTitle : String := "Canvas Title..."

-- The dialog's OK handler; none where one of its three unwraps meets nil.
def shareConfirmed (textField : Option (Option String)) (takeSnapshot : Option UIImage) : Option (String × UIImage) :=
  match textField with
  | some (some text) => takeSnapshot.map fun snapshot => (text,snapshot)
  | _ => none

theorem FBUploadManager_presented {pngData : UIImage → Option Data}
    (result : FBUploadManager pngData reachability customUID uploadImg = .presented alert) :
    InternetConnectionManager.isConnectedToNetwork reachability = false ∧ alert = uploadOffline := by
  simp only [FBUploadManager] at result
  split at result
  · split at result <;> cases result
  · rename_i offline
    cases result
    exact ⟨by simpa using offline,rfl⟩

theorem FBUploadManager_putData {pngData : UIImage → Option Data}
    (result : FBUploadManager pngData reachability customUID uploadImg = .putData reference data) :
    reference = FIRStoragePath.root.child (feedImagesName customUID) ∧ pngData uploadImg = some data := by
  simp only [FBUploadManager] at result
  split at result
  · split at result
    · cases result
    · rename_i encoded
      cases result
      exact ⟨rfl,encoded⟩
  · cases result

end CanvasDrawVC

-- Every user's app and the one bucket they share.
namespace Sharing
open TransitionRuns CanvasDrawVC

-- `user`, `title`, `image` and `stored` are not the task's own but say whose share it is and how far.
structure UploadTask (UIImage Data : Type) where
  user : Nat
  title : String
  image : UIImage
  reference : FIRStoragePath
  data : Data
  stored : Bool
  deriving DecidableEq, Repr

-- `told` and `committed` are history, which no step reads. The app has no stored property that holds an
-- image for later.
structure World (UIImage Data : Type) where
  objects : FIRStoragePath → Option Data
  tasks : List (UploadTask UIImage Data)
  told : List (UIImage × UIAlertController)
  committed : List (UploadTask UIImage Data)

inductive Event (UIImage : Type) where
  | shareConfirmed (user : Nat) (reachability : Reachability) (textField : Option (Option String))
      (snapshot : Option UIImage)
  | objectPut (index : Nat)
  | completed (index : Nat) (error : Option String)
  | terminated (user : Nat)

variable {UIImage Data : Type} {pngData : UIImage → Option Data}

def start : World UIImage Data := ⟨fun _ => none,[],[],[]⟩

def World.terminate (world : World UIImage Data) (user : Nat) : World UIImage Data :=
  {world with tasks := world.tasks.filter (·.user ≠ user)}

def World.tell (world : World UIImage Data) (image : UIImage) (alert : UIAlertController) : World UIImage Data :=
  {world with told := world.told ++ [(image,alert)]}

def World.share (world : World UIImage Data) (user : Nat) (title : String) (image : UIImage) :
    Outcome Data → World UIImage Data
  | .trapped => world.terminate user
  | .presented alert => world.tell image alert
  | .putData reference data => {world with tasks := world.tasks ++ [⟨user,title,image,reference,data,false⟩]}

def World.put (world : World UIImage Data) (index : Nat) (task : UploadTask UIImage Data) : World UIImage Data :=
  {world with
    objects := OverwritingStore.put world.objects task.reference task.data
    tasks := world.tasks.set index {task with stored := true}
    committed := world.committed ++ [task]}

-- A completion without error comes after the put; one with an error may too, when the answer is lost.
def advance (pngData : UIImage → Option Data) (world : World UIImage Data) :
    Event UIImage → Option (World UIImage Data)
  | .shareConfirmed user reachability textField snapshot =>
    match CanvasDrawVC.shareConfirmed textField snapshot with
    | none => some (world.terminate user)
    | some (title,image) => some (world.share user title image (FBUploadManager pngData reachability title image))
  | .objectPut index =>
    match world.tasks[index]? with
    | some task => if task.stored then none else some (world.put index task)
    | none => none
  | .completed index error =>
    match world.tasks[index]? with
    | some task =>
      if error = none ∧ task.stored = false then none
      else some ({world with tasks := world.tasks.eraseIdx index}.tell task.image (uploadCompletion error))
    | none => none
  | .terminated user => some (world.terminate user)

inductive Step (pngData : UIImage → Option Data) (world : World UIImage Data) :
    Event UIImage → World UIImage Data → Prop where
  | terminated : Step pngData world event (world.terminate user)
  | offline : CanvasDrawVC.shareConfirmed textField snapshot = some (title,image) →
      InternetConnectionManager.isConnectedToNetwork reachability = false →
      Step pngData world (.shareConfirmed user reachability textField snapshot) (world.tell image uploadOffline)
  | started : pngData image = some data → Step pngData world (.shareConfirmed user reachability textField snapshot)
      {world with tasks := world.tasks ++
        [⟨user,title,image,FIRStoragePath.root.child (feedImagesName title),data,false⟩]}
  | objectPut : world.tasks[index]? = some task → Step pngData world (.objectPut index) (world.put index task)
  | completed : world.tasks[index]? = some task → (error = none → task.stored = true) →
      Step pngData world (.completed index error)
        ({world with tasks := world.tasks.eraseIdx index}.tell task.image (uploadCompletion error))

theorem advance_step (accepted : advance pngData world event = some after) : Step pngData world event after := by
  cases event with
  | shareConfirmed user reachability textField snapshot =>
      simp only [advance] at accepted
      split at accepted
      · cases Option.some.inj accepted; exact .terminated
      · rename_i title image confirmed
        cases Option.some.inj accepted
        cases result : FBUploadManager pngData reachability title image with
        | trapped => exact .terminated
        | presented alert =>
            obtain ⟨offline,rfl⟩ := FBUploadManager_presented result
            exact .offline confirmed offline
        | putData reference data =>
            obtain ⟨rfl,encoded⟩ := FBUploadManager_putData result
            exact .started encoded
  | objectPut index =>
      simp only [advance] at accepted
      split at accepted
      · rename_i task found
        split at accepted
        · cases accepted
        · cases Option.some.inj accepted; exact .objectPut found
      · cases accepted
  | completed index error =>
      simp only [advance] at accepted
      split at accepted
      · rename_i task found
        split at accepted
        · cases accepted
        · rename_i allowed
          cases Option.some.inj accepted
          exact .completed found (fun quiet => by simpa [quiet] using allowed)
      · cases accepted
  | terminated user => cases Option.some.inj accepted; exact .terminated

end Sharing
end CanvasPainter
