import Mathlib.Logic.Function.Basic
import Mathlib.Data.List.Basic
import CanvasPainter.TransitionRuns

namespace CanvasPainter

-- The count UIKit was last told and whether reloadData came since.
structure UICollectionView where
  numberOfItems : Nat
  needsReload : Bool
  deriving DecidableEq, Repr

-- `owned` is the tab bar's reference, `alive` that dealloc has not come.
structure FeedVC (StorageReference UIImage : Type) where
  folderList : Option (List StorageReference)
  downloadedImages : List (Option UIImage)
  collectionView : UICollectionView
  owned : Bool
  alive : Bool
  deriving DecidableEq, Repr

namespace FeedVC
variable {StorageReference UIImage : Type} {feedVC : FeedVC StorageReference UIImage}

def absent : FeedVC StorageReference UIImage := ⟨none,[],⟨0,true⟩,false,false⟩
def initial : FeedVC StorageReference UIImage := ⟨none,[],⟨0,true⟩,true,true⟩

def reloadData (feedVC : FeedVC StorageReference UIImage) : FeedVC StorageReference UIImage :=
  {feedVC with collectionView.needsReload := true}

def numberOfItemsInSection (feedVC : FeedVC StorageReference UIImage) : Nat := feedVC.downloadedImages.length

-- A layout pass asks for the count again only after reloadData.
def layoutSubviews (feedVC : FeedVC StorageReference UIImage) : FeedVC StorageReference UIImage :=
  if feedVC.collectionView.needsReload then {feedVC with collectionView := ⟨feedVC.numberOfItemsInSection,false⟩}
  else feedVC

def append (feedVC : FeedVC StorageReference UIImage) (image : UIImage) : FeedVC StorageReference UIImage :=
  {feedVC with downloadedImages := feedVC.downloadedImages ++ [some image]}

@[simp] theorem reloadData_downloadedImages : feedVC.reloadData.downloadedImages = feedVC.downloadedImages := rfl
@[simp] theorem append_downloadedImages :
    (feedVC.append image).downloadedImages = feedVC.downloadedImages ++ [some image] := rfl
@[simp] theorem layoutSubviews_downloadedImages : feedVC.layoutSubviews.downloadedImages = feedVC.downloadedImages := by
  unfold layoutSubviews
  split <;> rfl
@[simp] theorem layoutSubviews_owned : feedVC.layoutSubviews.owned = feedVC.owned := by
  unfold layoutSubviews
  split <;> rfl

end FeedVC

namespace Feed

-- Pending completions; each closure holds its controller strongly. A download's item is read by no step.
inductive Request (StorageReference URL : Type) where
  | listAll (feedVC : Nat) (accumulated : List StorageReference)
  | downloadURL (feedVC : Nat) (storageRef : StorageReference)
  | dataTask (feedVC : Nat) (storageRef : StorageReference) (url : URL)
  deriving DecidableEq, Repr

-- The listing's block holds its controller strongly, a download's last block does not. `listing` numbers
-- the completion that dispatched the block.
inductive Block (StorageReference URL Data : Type) where
  | listed (feedVC : Nat) (listing : Nat)
  | finished (feedVC : Nat) (storageRef : StorageReference) (url : URL) (data : Data)
  deriving DecidableEq, Repr

inductive Unwrap where
  | downloadURL
  | self
  | imageToCache
  deriving DecidableEq, Repr

-- Where an entry of downloadedImages came from: `body` is none when the cache served it.
structure Contribution (URL UIImage Data : Type) where
  feedVC : Nat
  downloadURL : Option URL
  image : UIImage
  body : Option Data
  deriving DecidableEq, Repr

-- Controllers are numbered in the order scenes made them; `trapped` is the unwrap that ended the process.
-- The last four fields are history, which no step reads.
structure App (StorageReference URL UIImage Data : Type) where
  imageCache : Option URL → Option UIImage
  connected : Nat
  controllers : Nat → FeedVC StorageReference UIImage
  requests : List (Request StorageReference URL)
  mainQueue : List (Block StorageReference URL Data)
  trapped : Option Unwrap
  listings : List (Nat × List StorageReference)
  loads : List (Nat × StorageReference)
  contributions : List (Contribution URL UIImage Data)
  succeeded : List (Nat × StorageReference × UIImage)

inductive Event (StorageReference URL Data : Type) where
  | willConnect
  | released (feedVC : Nat)
  | deallocated (feedVC : Nat)
  | viewWillAppear (feedVC : Nat)
  | page (index : Nat) (items : List StorageReference) (pageToken : Bool)
  | pageFailed (index : Nat)
  | resolved (index : Nat) (downloadURL : Option URL) (error : Option String)
  | downloaded (index : Nat) (data : Option Data) (error : Option String)
  | main
  | evicted (key : Option URL)
  | laidOut (feedVC : Nat)
  deriving DecidableEq, Repr

variable {StorageReference URL UIImage Data : Type}

def Request.feedVC : Request StorageReference URL → Nat
  | .listAll feedVC _ => feedVC
  | .downloadURL feedVC _ => feedVC
  | .dataTask feedVC _ _ => feedVC

def Block.feedVC : Block StorageReference URL Data → Nat
  | .listed feedVC _ => feedVC
  | .finished feedVC _ _ _ => feedVC

def Block.holdsSelf : Block StorageReference URL Data → Bool
  | .listed _ _ => true
  | .finished _ _ _ _ => false

def start : App StorageReference URL UIImage Data :=
  ⟨fun _ => none,0,fun _ => .absent,[],[],none,[],[],[],[]⟩

namespace App

def modify (app : App StorageReference URL UIImage Data) (feedVC : Nat)
    (change : FeedVC StorageReference UIImage → FeedVC StorageReference UIImage) :
    App StorageReference URL UIImage Data :=
  {app with controllers := Function.update app.controllers feedVC (change (app.controllers feedVC))}

-- scene(_:willConnectTo:options:)
def willConnect (app : App StorageReference URL UIImage Data) : App StorageReference URL UIImage Data :=
  {app.modify app.connected fun _ => .initial with connected := app.connected+1}

def viewWillAppear (app : App StorageReference URL UIImage Data) (feedVC : Nat) : App StorageReference URL UIImage Data :=
  {app.modify feedVC .reloadData with requests := app.requests ++ [.listAll feedVC []]}

-- viewWillAppear's completion: the block only knows which controller to read folderList from.
def listAllCompletion (app : App StorageReference URL UIImage Data) (feedVC : Nat) (items : List StorageReference) :
    App StorageReference URL UIImage Data :=
  {app.modify feedVC fun controller => {controller with folderList := some items} with
    mainQueue := app.mainQueue ++ [.listed feedVC app.listings.length]
    listings := app.listings ++ [(feedVC,items)]}

def load (app : App StorageReference URL UIImage Data) (feedVC listing : Nat) (storageRef : StorageReference) :
    App StorageReference URL UIImage Data :=
  {app with requests := app.requests ++ [.downloadURL feedVC storageRef], loads := app.loads ++ [(listing,storageRef)]}

def listed (app : App StorageReference URL UIImage Data) (feedVC listing : Nat) : App StorageReference URL UIImage Data :=
  let items := (app.controllers feedVC).folderList.getD []
  (items.foldl (fun before refer => before.load feedVC listing refer) app).modify feedVC .reloadData

theorem listed_exact {app : App StorageReference URL UIImage Data} : app.listed feedVC listing =
    {app.modify feedVC .reloadData with
      requests := app.requests ++ ((app.controllers feedVC).folderList.getD []).map (.downloadURL feedVC)
      loads := app.loads ++ ((app.controllers feedVC).folderList.getD []).map (listing,·)} := by
  have forEach : ∀ (items : List StorageReference) (before : App StorageReference URL UIImage Data),
      items.foldl (fun before refer => before.load feedVC listing refer) before =
        {before with requests := before.requests ++ items.map (.downloadURL feedVC)
                     loads := before.loads ++ items.map (listing,·)} := by
    intro items
    induction items with
    | nil => intro before; simp
    | cons refer rest ih => intro before; rw [List.foldl_cons,ih]; simp [load]
  simp only [listed,forEach,modify]

def trap (app : App StorageReference URL UIImage Data) (unwrap : Unwrap) : App StorageReference URL UIImage Data :=
  {app with trapped := some unwrap}

def contribute (app : App StorageReference URL UIImage Data) (feedVC : Nat) (downloadURL : Option URL) (image : UIImage)
    (body : Option Data) : App StorageReference URL UIImage Data :=
  {app.modify feedVC (·.append image) with contributions := app.contributions ++ [⟨feedVC,downloadURL,image,body⟩]}

def succeed (app : App StorageReference URL UIImage Data) (feedVC : Nat) (storageRef : StorageReference)
    (image : UIImage) : App StorageReference URL UIImage Data :=
  {app with succeeded := app.succeeded ++ [(feedVC,storageRef,image)]}

-- load's completion: the cache is asked first, with whatever URL there is, also none.
def resolved (app : App StorageReference URL UIImage Data) (feedVC : Nat) (storageRef : StorageReference)
    (downloadURL : Option URL) (error : Option String) : App StorageReference URL UIImage Data :=
  match app.imageCache downloadURL with
  | some imageFromCache =>
    if (app.controllers feedVC).downloadedImages.length = 0 then
      (app.contribute feedVC downloadURL imageFromCache none).succeed feedVC storageRef imageFromCache
    else app.succeed feedVC storageRef imageFromCache
  | none =>
    if error.isSome then app
    else
      match downloadURL with
      | none => app.trap .downloadURL
      | some url => {app with requests := app.requests ++ [.dataTask feedVC storageRef url]}

def downloaded (app : App StorageReference URL UIImage Data) (feedVC : Nat) (storageRef : StorageReference) (url : URL) :
    Option Data → Option String → App StorageReference URL UIImage Data
  | some data,none => {app with mainQueue := app.mainQueue ++ [.finished feedVC storageRef url data]}
  | _,_ => app

def setObject [DecidableEq URL] (app : App StorageReference URL UIImage Data) (key : Option URL)
    (image : Option UIImage) : App StorageReference URL UIImage Data :=
  {app with imageCache := Function.update app.imageCache key image}

-- The last block of a download, with self held weakly; `decode` is UIImage(data:).
def finished [DecidableEq URL] (decode : Data → Option UIImage) (app : App StorageReference URL UIImage Data)
    (feedVC : Nat) (storageRef : StorageReference) (url : URL) (data : Data) : App StorageReference URL UIImage Data :=
  let imageToCache := decode data
  if (app.controllers feedVC).alive then
    match imageToCache with
    | none => app.trap .imageToCache
    | some image =>
      (((app.contribute feedVC (some url) image (some data)).setObject (some url) imageToCache).modify feedVC
        .reloadData).succeed feedVC storageRef image
  else app.trap .self

def withoutRequest (app : App StorageReference URL UIImage Data) (index : Nat) : App StorageReference URL UIImage Data :=
  {app with requests := app.requests.eraseIdx index}

def Retained (app : App StorageReference URL UIImage Data) (feedVC : Nat) : Prop :=
  (app.controllers feedVC).owned = true ∨ (∃ request ∈ app.requests, request.feedVC = feedVC) ∨
    ∃ block ∈ app.mainQueue, block.holdsSelf = true ∧ block.feedVC = feedVC

instance (app : App StorageReference URL UIImage Data) (feedVC : Nat) : Decidable (app.Retained feedVC) := by
  unfold Retained; infer_instance

end App

-- A page that fails completes listAll twice, with no items and then with the pages before it: the handler of
-- FIRStorageReference goes on after reporting the error. A resolution has exactly one of URL and error.
def advance [DecidableEq URL] (decode : Data → Option UIImage) (app : App StorageReference URL UIImage Data)
    (event : Event StorageReference URL Data) : Option (App StorageReference URL UIImage Data) :=
  if app.trapped.isSome then none
  else
    match event with
    | .willConnect => some app.willConnect
    | .released feedVC =>
      if (app.controllers feedVC).owned then some (app.modify feedVC ({· with owned := false})) else none
    | .deallocated feedVC =>
      if (app.controllers feedVC).alive ∧ ¬app.Retained feedVC then some (app.modify feedVC ({· with alive := false}))
      else none
    | .viewWillAppear feedVC => if (app.controllers feedVC).owned then some (app.viewWillAppear feedVC) else none
    | .page index items pageToken =>
      match app.requests[index]? with
      | some (.listAll feedVC accumulated) =>
        if pageToken then some {app with requests := app.requests.set index (.listAll feedVC (accumulated ++ items))}
        else some ((app.withoutRequest index).listAllCompletion feedVC (accumulated ++ items))
      | _ => none
    | .pageFailed index =>
      match app.requests[index]? with
      | some (.listAll feedVC accumulated) =>
        some (((app.withoutRequest index).listAllCompletion feedVC []).listAllCompletion feedVC accumulated)
      | _ => none
    | .resolved index downloadURL error =>
      match app.requests[index]? with
      | some (.downloadURL feedVC storageRef) =>
        if downloadURL.isSome = error.isSome then none
        else some ((app.withoutRequest index).resolved feedVC storageRef downloadURL error)
      | _ => none
    | .downloaded index data error =>
      match app.requests[index]? with
      | some (.dataTask feedVC storageRef url) =>
        some ((app.withoutRequest index).downloaded feedVC storageRef url data error)
      | _ => none
    | .main =>
      match app.mainQueue with
      | [] => none
      | .listed feedVC listing :: rest => some ({app with mainQueue := rest}.listed feedVC listing)
      | .finished feedVC storageRef url data :: rest =>
        some ({app with mainQueue := rest}.finished decode feedVC storageRef url data)
    | .evicted key => some (app.setObject key none)
    | .laidOut feedVC =>
      if (app.controllers feedVC).alive then some (app.modify feedVC .layoutSubviews) else none

-- A UIImage(data:) to run the model with.
def pngFile (image : Nat) : List Nat := [137,80,78,71,13,10,26,10,image]

def decodePng : List Nat → Option Nat
  | [137,80,78,71,13,10,26,10,image] => some image
  | _ => none

end Feed
end CanvasPainter
