import CanvasPainter.PutDataStored
import CanvasPainter.ShareHistory

-- Everybody's shares again, each with a putData of its own down to its fetcher and the service.
namespace CanvasPainter.Transfers
open TransitionRuns CanvasDrawVC
variable {UIImage Server Choice Metadata : Type}

-- What the uploads of the app have in common: it gives no metadata, so that its own is made from the path.
structure Storage (Server Choice Metadata : Type) where
  bucket : String
  service : UploadService Server Choice
  uploadMetadata : FIRStoragePath → Metadata
  parse : NSData → Option Metadata
  enumerate : Handlers PutData.Handler → Handlers PutData.Handler
  orders : ∀ handlers, (enumerate handlers).Perm handlers

def Storage.put (storage : Storage Server Choice Metadata) (reference : FIRStoragePath) (data : NSData) : PutData.Put Metadata :=
  ⟨data,storage.uploadMetadata reference,storage.bucket,reference.object.map String.ofList,storage.parse,
    storage.enumerate,storage.orders⟩

structure Transfer (UIImage Server Metadata : Type) where
  user : Nat
  title : String
  image : UIImage
  reference : FIRStoragePath
  data : NSData
  upload : PutData.Upload Server Metadata
  running : Bool

namespace Transfer
variable (transfer : Transfer UIImage Server Metadata)

-- The object that the service makes of an upload once it is final.
def finished (service : UploadService Server Choice) : Option NSData :=
  (transfer.upload.session.filter (service.status ·.server = .kStatusFinal)).map (service.received ·.server)

-- The share as far as its app still waits for it.
def share (stored : Bool) : Sharing.UploadTask UIImage NSData :=
  ⟨transfer.user,transfer.title,transfer.image,transfer.reference,transfer.data,stored⟩

def waiting : Bool := transfer.running && transfer.upload.called.isEmpty

def task (service : UploadService Server Choice) : Option (Sharing.UploadTask UIImage NSData) :=
  if transfer.waiting then some (transfer.share (transfer.finished service).isSome) else none

end Transfer

-- `told` and `committed` are history.
structure State (UIImage Server Metadata : Type) where
  objects : FIRStoragePath → Option NSData
  transfers : List (Transfer UIImage Server Metadata)
  told : List (UIImage × UIAlertController)
  committed : List (Sharing.UploadTask UIImage NSData)

inductive Event (UIImage Choice : Type) where
  | shareConfirmed (user : Nat) (reachability : Reachability) (textField : Option (Option String))
      (snapshot : Option UIImage)
  | transfer (index : Nat) (event : PutData.Event Choice)
  | terminated (user : Nat)

-- What the service does alone with requests it was sent.
def serving : PutData.Event Choice → Bool
  | .fetch (.served _ _) => true
  | _ => false

def start : State UIImage Server Metadata := ⟨fun _ => none,[],[],[]⟩

namespace State
variable (state : State UIImage Server Metadata)

def terminate (user : Nat) : State UIImage Server Metadata :=
  {state with transfers := state.transfers.map fun transfer =>
    if transfer.user = user then {transfer with running := false} else transfer}

def share (user : Nat) (title : String) (image : UIImage) : Outcome NSData → State UIImage Server Metadata
  | .trapped => state.terminate user
  | .presented alert => {state with told := state.told ++ [(image,alert)]}
  | .putData reference data =>
    {state with transfers := state.transfers ++ [⟨user,title,image,reference,data,PutData.start,true⟩]}

def commit (service : UploadService Server Choice) (before after : Transfer UIImage Server Metadata) :
    State UIImage Server Metadata :=
  match before.finished service,after.finished service with
  | none,some received =>
    {state with
      objects := OverwritingStore.put state.objects after.reference received
      committed := state.committed ++ [after.share false]}
  | _,_ => state

-- The completion the app gave to putData, for each time it is called.
def report (before after : Transfer UIImage Server Metadata) : State UIImage Server Metadata :=
  {state with told := state.told ++ (after.upload.called.drop before.upload.called.length).map fun outcome =>
    (after.image,uploadCompletion (outcome.2.map (·.localizedDescription)))}

def move (service : UploadService Server Choice) (index : Nat) (before after : Transfer UIImage Server Metadata) :
    State UIImage Server Metadata :=
  {(state.commit service before after).report before after with transfers := state.transfers.set index after}

end State

-- An app that has ended takes no part any more; the service may still get what it sent.
def advance (pngData : UIImage → Option NSData) (storage : Storage Server Choice Metadata) (state : State UIImage Server Metadata) :
    Event UIImage Choice → Option (State UIImage Server Metadata)
  | .shareConfirmed user reachability textField snapshot =>
    match CanvasDrawVC.shareConfirmed textField snapshot with
    | none => some (state.terminate user)
    | some (title,image) => some (state.share user title image (FBUploadManager pngData reachability title image))
  | .transfer index event =>
    match state.transfers[index]? with
    | some transfer =>
      if transfer.running ∨ serving event then
        (PutData.advance storage.service (storage.put transfer.reference transfer.data) transfer.upload event).map
          fun upload => state.move storage.service index transfer {transfer with upload := upload}
      else none
    | none => none
  | .terminated user => some (state.terminate user)

variable {pngData : UIImage → Option NSData} {storage : Storage Server Choice Metadata} {state next : State UIImage Server Metadata}
  {transfer before : Transfer UIImage Server Metadata} {upload : PutData.Upload Server Metadata}

-- An upload is a run of its putData, under the name and with the data of its share.
structure Sound (pngData : UIImage → Option NSData) (storage : Storage Server Choice Metadata) (transfer : Transfer UIImage Server Metadata) :
    Prop where
  ran : ∃ events, Runs (PutData.advance storage.service (storage.put transfer.reference transfer.data)) PutData.start
    events transfer.upload
  encoded : ∀ stored, Sharing.Encoded pngData (transfer.share stored)

theorem finished_stored : (transfer.finished storage.service).isSome = true ↔ PutData.Stored storage.service transfer.upload := by
  rw [Transfer.finished,Option.isSome_map,Option.isSome_iff_exists]
  simp only [Option.filter_eq_some_iff,decide_eq_true_eq,PutData.Stored,UploadSession.Final]

theorem Sound.finished (resumable : storage.service.Resumable) (sound : Sound pngData storage transfer)
    (received : transfer.finished storage.service = some data) : data = transfer.data := by
  obtain ⟨events,path⟩ := sound.ran
  obtain ⟨session,kept,rfl⟩ := Option.map_eq_some_iff.mp received
  obtain ⟨there,final⟩ := Option.filter_eq_some_iff.mp kept
  have standing : storage.service.status session.server = .kStatusFinal := of_decide_eq_true final
  exact ((PutData.runs_faithful resumable path).safe session there).final standing

theorem Sound.confirmed (resumable : storage.service.Resumable) (sound : Sound pngData storage transfer)
    (told : outcome ∈ transfer.upload.called) (quiet : outcome.2 = none) :
    (transfer.finished storage.service).isSome = true := by
  obtain ⟨events,path⟩ := sound.ran
  have decided := (PutData.runs_ordered path).all outcome (List.mem_append_left _ told)
  exact finished_stored.mpr (PutData.runs_stored resumable path decided quiet)

-- What a step of its upload leaves of a share: nothing told or stored is taken back.
structure Moved (pngData : UIImage → Option NSData) (storage : Storage Server Choice Metadata) (before after : Transfer UIImage Server Metadata) :
    Prop where
  sound : Sound pngData storage after
  same : after = {before with upload := after.upload}
  finished : after.finished storage.service = before.finished storage.service ∨
    before.finished storage.service = none ∧ after.finished storage.service = some before.data
  called : after.upload.called = before.upload.called ∨
    before.upload.called = [] ∧ ∃ outcome, after.upload.called = [outcome] ∧
      (outcome.2 = none → (after.finished storage.service).isSome = true)

theorem Sound.moved (resumable : storage.service.Resumable) (sound : Sound pngData storage before)
    (accepted : PutData.advance storage.service (storage.put before.reference before.data) before.upload event =
      some upload) : Moved pngData storage before {before with upload := upload} := by
  obtain ⟨events,path⟩ := sound.ran
  have onward := Runs.step path accepted
  have after : Sound pngData storage {before with upload := upload} := ⟨⟨_,onward⟩,sound.encoded⟩
  refine ⟨after,rfl,?_,?_⟩
  · have faithful := PutData.runs_faithful resumable path
    have lasts := (PutData.faithful_preserved resumable faithful (PutData.runs_faithful resumable onward).queued
      (PutData.advance_session faithful.queued accepted)).2
    cases now : Transfer.finished {before with upload := upload} storage.service with
    | none =>
        cases earlier : before.finished storage.service with
        | none => exact .inl rfl
        | some data =>
            have still : (Transfer.finished {before with upload := upload} storage.service).isSome = true :=
              finished_stored.mpr (lasts (finished_stored.mp (by rw [earlier]; rfl)))
            rw [now] at still
            cases still
    | some data =>
        obtain rfl := Sound.finished resumable after now
        cases earlier : before.finished storage.service with
        | none => exact .inr ⟨rfl,rfl⟩
        | some data =>
            rw [Sound.finished resumable sound earlier]
            exact .inl rfl
  · have grows := PutData.called_grows accepted
    rcases PutData.runs_once onward with silent | ⟨outcome,told⟩
    · rw [silent] at grows
      exact .inl (silent.trans (List.prefix_nil.mp grows).symm)
    · rcases PutData.runs_once path with fresh | ⟨earlier,heard⟩
      · exact .inr ⟨fresh,outcome,told,Sound.confirmed resumable after (told ▸ List.mem_singleton_self outcome)⟩
      · rw [told,heard] at grows
        exact .inl (told.trans ((List.cons_prefix_cons.mp grows).1 ▸ heard.symm))

-- The same shares as the uploads above show them.
def State.world (service : UploadService Server Choice) (state : State UIImage Server Metadata) : Sharing.World UIImage NSData :=
  ⟨state.objects,state.transfers.filterMap (·.task service),state.told,state.committed⟩

theorem task_some : transfer.task service = some share ↔
    transfer.waiting = true ∧ transfer.share (transfer.finished service).isSome = share := by
  rw [Transfer.task,Option.ite_none_right_eq_some,Option.some.injEq]

theorem world_terminate (state : State UIImage Server Metadata) (user : Nat) :
    (state.terminate user).world service = (state.world service).terminate user := by
  have each (transfers : List (Transfer UIImage Server Metadata)) : (transfers.map fun transfer =>
      if transfer.user = user then {transfer with running := false} else transfer).filterMap (·.task service) =
        (transfers.filterMap (·.task service)).filter (·.user ≠ user) := by
    induction transfers with
    | nil => rfl
    | cons transfer rest ih =>
        rw [List.map_cons,List.filterMap_cons,List.filterMap_cons,ih]
        by_cases own : transfer.user = user
        · cases held : transfer.task service with
          | none => simp [own,Transfer.task,Transfer.waiting]
          | some share =>
              obtain ⟨_,rfl⟩ := task_some.mp held
              simp [own,Transfer.task,Transfer.waiting,Transfer.share]
        · cases held : transfer.task service with
          | none => simp [own,held]
          | some share =>
              obtain ⟨_,rfl⟩ := task_some.mp held
              simp [own,held,Transfer.share]
  exact congrArg (fun tasks => Sharing.World.mk state.objects tasks state.told state.committed) (each state.transfers)

theorem world_share (state : State UIImage Server Metadata) (outcome : Outcome NSData) :
    (state.share user title image outcome).world service = (state.world service).share user title image outcome := by
  cases outcome with
  | trapped => exact world_terminate state user
  | presented alert => rfl
  | putData reference data =>
      have fresh : (Transfer.mk user title image reference data (PutData.start : PutData.Upload Server Metadata) true).task service =
          some ⟨user,title,image,reference,data,false⟩ := rfl
      simp [State.share,State.world,Sharing.World.share,fresh]

-- What the users do is the same in both.
theorem shareConfirmed_world (accepted : advance pngData storage state (.shareConfirmed user reachability textField snapshot) =
    some next) : Sharing.advance pngData (state.world storage.service) (.shareConfirmed user reachability textField snapshot) =
      some (next.world storage.service) := by
  simp only [advance] at accepted
  simp only [Sharing.advance]
  cases confirmed : CanvasDrawVC.shareConfirmed textField snapshot with
  | none =>
      rw [confirmed] at accepted
      cases Option.some.inj accepted
      exact congrArg some (world_terminate state user).symm
  | some taken =>
      rw [confirmed] at accepted
      cases Option.some.inj accepted
      exact congrArg some (world_share state _).symm

theorem advance_transfer (accepted : advance pngData storage state (.transfer index event) = some next) :
    ∃ transfer upload, state.transfers[index]? = some transfer ∧ (transfer.running = true ∨ serving event = true) ∧
      PutData.advance storage.service (storage.put transfer.reference transfer.data) transfer.upload event = some upload ∧
      next = state.move storage.service index transfer {transfer with upload := upload} := by
  simp only [advance] at accepted
  split at accepted
  · rename_i transfer found
    obtain ⟨allowed,step⟩ := Option.ite_none_right_eq_some.mp accepted
    obtain ⟨upload,moved,rfl⟩ := Option.map_eq_some_iff.mp step
    exact ⟨transfer,upload,found,allowed,moved,rfl⟩
  · cases accepted

theorem Moved.share (moved : Moved pngData storage before transfer) : transfer.share = before.share := by
  rw [moved.same]
  rfl

theorem Moved.finish (moved : Moved pngData storage before transfer) (state : State UIImage Server Metadata) :
    transfer.finished storage.service = before.finished storage.service ∧ state.commit storage.service before transfer = state ∨
      before.finished storage.service = none ∧ transfer.finished storage.service = some before.data ∧
      state.commit storage.service before transfer = {state with
        objects := OverwritingStore.put state.objects before.reference before.data
        committed := state.committed ++ [before.share false]} := by
  rcases moved.finished with same | ⟨fresh,done⟩
  · refine .inl ⟨same,?_⟩
    rw [State.commit,same]
    cases before.finished storage.service <;> rfl
  · refine .inr ⟨fresh,done,?_⟩
    rw [State.commit,fresh,done,moved.same]
    rfl

theorem Moved.answer (moved : Moved pngData storage before transfer) (state : State UIImage Server Metadata) :
    transfer.upload.called = before.upload.called ∧ state.report before transfer = state ∨
      ∃ outcome, before.upload.called = [] ∧ transfer.upload.called = [outcome] ∧
        (outcome.2 = none → (transfer.finished storage.service).isSome = true) ∧
        state.report before transfer = {state with
          told := state.told ++ [(before.image,uploadCompletion (outcome.2.map (·.localizedDescription)))]} := by
  rcases moved.called with same | ⟨fresh,outcome,told,quiet⟩
  · refine .inl ⟨same,?_⟩
    rw [State.report,same,List.drop_length]
    simp
  · refine .inr ⟨outcome,fresh,told,quiet,?_⟩
    rw [State.report,fresh,told,moved.same]
    rfl

-- What the service holds was put by a share, and who was told of success was right, whatever comes late.
structure Tracked (pngData : UIImage → Option NSData) (storage : Storage Server Choice Metadata) (state : State UIImage Server Metadata) : Prop where
  sound : ∀ transfer ∈ state.transfers, Sound pngData storage transfer
  kept : ∀ transfer ∈ state.transfers, (transfer.finished storage.service).isSome = true → transfer.share false ∈ state.committed
  committed : ∀ share ∈ state.committed, Sharing.Encoded pngData share
  objects : state.objects = OverwritingStore.putAll (fun _ => none) (state.committed.map Sharing.UploadTask.write)
  successful : ∀ entry ∈ state.told, entry.2 = uploadSuccessful → ∃ share ∈ state.committed, share.image = entry.1

theorem start_tracked : Tracked pngData storage (start : State UIImage Server Metadata) :=
  ⟨by simp [start],by simp [start],by simp [start],rfl,by simp [start]⟩

theorem Sound.stopped (sound : Sound pngData storage transfer) (running : Bool) :
    Sound pngData storage {transfer with running := running} :=
  ⟨sound.ran,sound.encoded⟩

theorem terminate_tracked (tracked : Tracked pngData storage state) : Tracked pngData storage (state.terminate user) := by
  refine ⟨?_,?_,tracked.committed,tracked.objects,tracked.successful⟩
  · intro transfer member
    obtain ⟨old,there,rfl⟩ := List.mem_map.mp member
    split
    · exact (tracked.sound old there).stopped false
    · exact tracked.sound old there
  · intro transfer member stored
    obtain ⟨old,there,rfl⟩ := List.mem_map.mp member
    by_cases own : old.user = user
    · rw [if_pos own] at stored ⊢
      exact tracked.kept old there stored
    · rw [if_neg own] at stored ⊢
      exact tracked.kept old there stored

theorem share_tracked (tracked : Tracked pngData storage state) :
    Tracked pngData storage (state.share user title image (FBUploadManager pngData reachability title image)) := by
  cases result : FBUploadManager pngData reachability title image with
  | trapped => exact terminate_tracked tracked
  | presented alert =>
      obtain ⟨_,rfl⟩ := FBUploadManager_presented result
      refine ⟨tracked.sound,tracked.kept,tracked.committed,tracked.objects,snoc_all tracked.successful ?_⟩
      intro success
      exact absurd success (by simp [uploadOffline,uploadSuccessful])
  | putData reference data =>
      obtain ⟨rfl,encoded⟩ := FBUploadManager_putData result
      refine ⟨snoc_all tracked.sound ⟨⟨[],.nil⟩,fun _ => ⟨rfl,encoded⟩⟩,snoc_all tracked.kept ?_,tracked.committed,
        tracked.objects,tracked.successful⟩
      intro stored
      simp [Transfer.finished,PutData.start] at stored

-- The new object first, then the alert about it.
theorem commit_tracked (tracked : Tracked pngData storage state) (member : before ∈ state.transfers)
    (moved : Moved pngData storage before transfer) (index : Nat) :
    Tracked pngData storage {state.commit storage.service before transfer with transfers := state.transfers.set index transfer} := by
  have sound : ∀ other ∈ state.transfers.set index transfer, Sound pngData storage other := by
    intro other inside
    rcases List.mem_or_eq_of_mem_set inside with old | rfl
    · exact tracked.sound other old
    · exact moved.sound
  rcases moved.finish state with ⟨same,unmoved⟩ | ⟨_,_,stepped⟩
  · rw [unmoved]
    refine ⟨sound,?_,tracked.committed,tracked.objects,tracked.successful⟩
    intro other inside stored
    rcases List.mem_or_eq_of_mem_set inside with old | rfl
    · exact tracked.kept other old stored
    · rw [same] at stored
      exact moved.share ▸ tracked.kept before member stored
  · rw [stepped]
    refine ⟨sound,?_,snoc_all tracked.committed ((tracked.sound before member).encoded false),?_,?_⟩
    · intro other inside stored
      rcases List.mem_or_eq_of_mem_set inside with old | rfl
      · exact List.mem_append_left _ (tracked.kept other old stored)
      · exact moved.share ▸ List.mem_append_right _ List.mem_cons_self
    · simp only [List.map_append,List.map_singleton,OverwritingStore.putAll_concat]
      rw [← tracked.objects]
      rfl
    · intro entry told success
      obtain ⟨share,there,same⟩ := tracked.successful entry told success
      exact ⟨share,List.mem_append_left _ there,same⟩

theorem move_tracked (tracked : Tracked pngData storage state) (found : state.transfers[index]? = some before)
    (moved : Moved pngData storage before transfer) : Tracked pngData storage (state.move storage.service index before transfer) := by
  have stored := commit_tracked tracked (List.mem_of_getElem? found) moved index
  rcases moved.answer (state.commit storage.service before transfer) with ⟨_,unmoved⟩ | ⟨outcome,_,_,quiet,stepped⟩
  · rw [State.move,unmoved]
    exact stored
  · rw [State.move,stepped]
    refine ⟨stored.sound,stored.kept,stored.committed,stored.objects,snoc_all stored.successful ?_⟩
    intro success
    cases error : outcome.2 with
    | some error =>
        rw [error] at success
        exact absurd success uploadFailed_not_successful
    | none =>
        have there : transfer ∈ state.transfers.set index transfer :=
          List.mem_set (List.getElem?_eq_some_iff.mp found).1 transfer
        have image : (transfer.share false).image = before.image := by rw [moved.share]; rfl
        exact ⟨_,stored.kept transfer there (quiet error),image⟩

theorem tracked_preserved (resumable : storage.service.Resumable) (tracked : Tracked pngData storage state)
    (accepted : advance pngData storage state event = some next) : Tracked pngData storage next := by
  cases event with
  | shareConfirmed user reachability textField snapshot =>
      simp only [advance] at accepted
      split at accepted
      · cases Option.some.inj accepted
        exact terminate_tracked tracked
      · cases Option.some.inj accepted
        exact share_tracked tracked
  | transfer index event =>
      obtain ⟨transfer,upload,found,_,moved,rfl⟩ := advance_transfer accepted
      exact move_tracked tracked found (Sound.moved resumable (tracked.sound transfer (List.mem_of_getElem? found)) moved)
  | terminated user =>
      cases Option.some.inj accepted
      exact terminate_tracked tracked

theorem runs_tracked (resumable : storage.service.Resumable) (path : Runs (advance pngData storage) start events state) :
    Tracked pngData storage state :=
  path.invariant start_tracked fun _ _ _ => tracked_preserved resumable

theorem Tracked.consistent (tracked : Tracked pngData storage state) : Sharing.Consistent pngData (state.world storage.service) := by
  refine ⟨?_,tracked.committed,tracked.objects,?_,tracked.successful⟩
  · intro task member
    obtain ⟨transfer,there,held⟩ := List.mem_filterMap.mp member
    obtain ⟨_,rfl⟩ := task_some.mp held
    exact (tracked.sound transfer there).encoded _
  · intro task member stored
    obtain ⟨transfer,there,held⟩ := List.mem_filterMap.mp member
    obtain ⟨_,rfl⟩ := task_some.mp held
    exact ⟨_,tracked.kept transfer there stored,rfl⟩

-- Whatever comes late, the bucket is what the shares wrote, in the order they were stored, and success is never told wrongly.
theorem transfers_consistent (resumable : storage.service.Resumable) (path : Runs (advance pngData storage) start events state) :
    Sharing.Consistent pngData (state.world storage.service) :=
  (runs_tracked resumable path).consistent

def storageOne : Storage StoredUpload (Option Nat) String :=
  ⟨"canvas",StoredUpload.service 2,fun _ => "sent",PutData.samplePut.parse,PutData.samplePut.enumerate,PutData.samplePut.orders⟩

def onePng (image : Nat) : Option NSData := if image = 7 then some [1,2,3,4] else none

def sharedOne (events : List (PutData.Event (Option Nat))) : List (Event Nat (Option Nat)) :=
  .shareConfirmed 0 Sharing.online (some (some "One")) (some 7) :: events.map (.transfer 0)

-- The chunk arrives after its connection was given up.
def lateChunk : List (PutData.Event (Option Nat)) :=
  [.dispatched,.fetch (.initialFinished ⟨none,none,⟨some "active",some ⟨"u",some "u"⟩,2,none⟩⟩),.fetch .main,
    .fetch (.finished 0 ⟨none,some ⟨.other "NSURLErrorDomain",-1009,.none⟩,⟨none,none,0,none⟩⟩),
    .calledBack,.calledBack,.calledBack,.fetch (.served 0 none)]

theorem transfers_consistent_late : ∃ state, Runs (advance onePng storageOne) start (sharedOne lateChunk) state ∧
    state.told.map (·.2) = [uploadFailed "An unknown error occurred, please check the server response."] ∧
    state.committed.map (·.data) = [[1,2,3,4]] ∧ Sharing.Consistent onePng (state.world storageOne.service) := by
  have ran : (run (advance onePng storageOne) start (sharedOne lateChunk)).map
      (fun state => (state.told.map (·.2),state.committed.map (·.data))) =
        some ([uploadFailed "An unknown error occurred, please check the server response."],[[1,2,3,4]]) := by
    decide +kernel
  obtain ⟨state,accepted,both⟩ := Option.map_eq_some_iff.mp ran
  obtain ⟨told,committed⟩ := Prod.mk.inj both
  exact ⟨state,run_exact.mp accepted,told,committed,transfers_consistent (StoredUpload.service_resumable 2) (run_exact.mp accepted)⟩

-- In a step nothing of a share that its app no longer waits for becomes final.
def OnTime (storage : Storage Server Choice Metadata) (state : State UIImage Server Metadata) : Event UIImage Choice → Prop
  | .transfer index event => ∀ transfer ∈ state.transfers[index]?, transfer.waiting = true ∨
    ∀ upload ∈ PutData.advance storage.service (storage.put transfer.reference transfer.data) transfer.upload event,
      Transfer.finished {transfer with upload := upload} storage.service = transfer.finished storage.service
  | _ => True

-- What the users do.
def Event.shown : Event UIImage Choice → Option (Sharing.Event UIImage)
  | .shareConfirmed user reachability textField snapshot => some (.shareConfirmed user reachability textField snapshot)
  | .transfer _ _ => none
  | .terminated user => some (.terminated user)

def displayed : Sharing.Event UIImage → Option (Sharing.Event UIImage)
  | .shareConfirmed user reachability textField snapshot => some (.shareConfirmed user reachability textField snapshot)
  | .objectPut _ | .completed _ _ => none
  | .terminated user => some (.terminated user)

theorem split_at {items : List Item} (found : items[index]? = some item) :
    ∃ front back, items = front ++ item :: back ∧ front.length = index := by
  obtain ⟨bound,rfl⟩ := List.getElem?_eq_some_iff.mp found
  refine ⟨items.take index,items.drop (index + 1),?_,List.length_take_of_le (Nat.le_of_lt bound)⟩
  rw [← List.drop_eq_getElem_cons bound,List.take_append_drop]

section Shared
variable {objects : FIRStoragePath → Option NSData} {told : List (UIImage × UIAlertController)}
  {share : Sharing.UploadTask UIImage NSData} {front back committed : List (Sharing.UploadTask UIImage NSData)}

theorem objectPut_step (fresh : share.stored = false) :
    Sharing.advance pngData ⟨objects,front ++ share :: back,told,committed⟩ (.objectPut front.length) = some
      ⟨OverwritingStore.put objects share.reference share.data,front ++ {share with stored := true} :: back,told,
        committed ++ [share]⟩ := by
  simp [Sharing.advance,fresh,Sharing.World.put]

theorem completed_step (stored : error = none → share.stored = true) :
    Sharing.advance pngData ⟨objects,front ++ share :: back,told,committed⟩ (.completed front.length error) = some
      ⟨objects,front ++ back,told ++ [(share.image,uploadCompletion error)],committed⟩ := by
  have allowed : ¬ (error = none ∧ share.stored = false) := fun ⟨quiet,absent⟩ => by simp [stored quiet] at absent
  simp [Sharing.advance,if_neg allowed,Sharing.World.tell,List.eraseIdx_append_of_length_le]

end Shared

theorem commit_told (service : UploadService Server Choice) : (state.commit service before transfer).told = state.told := by
  unfold State.commit
  split <;> rfl

-- An upload its app still waits for: first its object, then its alert.
theorem waiting_refines (moved : Moved pngData storage before transfer) (waiting : before.waiting = true)
    (split : state.transfers = front ++ before :: back) :
    ∃ commands, Runs (Sharing.advance pngData) (state.world storage.service) commands
        ((state.move storage.service front.length before transfer).world storage.service) ∧
      commands.filterMap displayed = [] := by
  obtain ⟨running,silent⟩ := Bool.and_eq_true_iff.mp waiting
  let earlier := front.filterMap (·.task storage.service)
  let later := back.filterMap (·.task storage.service)
  have stands : state.world storage.service = ⟨state.objects,earlier ++ before.share (before.finished storage.service).isSome :: later,state.told,
      state.committed⟩ := by
    have held : before.task storage.service = some _ := task_some.mpr ⟨waiting,rfl⟩
    rw [State.world,split,List.filterMap_append,List.filterMap_cons,held]
  have moves : (state.move storage.service front.length before transfer).world storage.service = ⟨(state.commit storage.service before transfer).objects,
      earlier ++ ((transfer.task storage.service).toList ++ later),((state.commit storage.service before transfer).report before transfer).told,
      (state.commit storage.service before transfer).committed⟩ := by
    have set : state.transfers.set front.length transfer = front ++ transfer :: back := by simp [split]
    rw [State.world,State.move,set,List.filterMap_append,List.filterMap_cons]
    cases transfer.task storage.service <;> rfl
  -- Stored or not, the share is at the same place among those that wait.
  have put : ∃ commands, Runs (Sharing.advance pngData) (state.world storage.service) commands
      ⟨(state.commit storage.service before transfer).objects,earlier ++ before.share (transfer.finished storage.service).isSome :: later,state.told,
        (state.commit storage.service before transfer).committed⟩ ∧ commands.filterMap displayed = [] := by
    rcases moved.finish state with ⟨kept,unmoved⟩ | ⟨fresh,done,stepped⟩
    · rw [unmoved,kept,stands]
      exact ⟨[],.nil,rfl⟩
    · rw [stepped,done,stands,fresh]
      exact ⟨[.objectPut earlier.length],.cons (objectPut_step rfl) .nil,rfl⟩
  obtain ⟨first,stored,hidden⟩ := put
  have still : transfer.waiting = transfer.upload.called.isEmpty := by
    rw [moved.same,Transfer.waiting,running,Bool.true_and]
  rw [moves]
  rcases moved.answer (state.commit storage.service before transfer) with ⟨kept,unmoved⟩ | ⟨outcome,_,heard,quiet,stepped⟩
  · have held : transfer.task storage.service = some _ := task_some.mpr ⟨by rw [still,kept]; exact silent,rfl⟩
    rw [unmoved,held,moved.share,commit_told]
    exact ⟨first,stored,hidden⟩
  · have gone : transfer.task storage.service = none := if_neg (by rw [still,heard]; simp)
    simp only [stepped,gone,commit_told,Option.toList_none,List.nil_append]
    refine ⟨first ++ [.completed earlier.length _],.step stored (completed_step ?_),by simp [hidden,displayed]⟩
    exact fun error => quiet (Option.map_eq_none_iff.mp error)

-- One that is not waited for any more changes nothing that shows.
theorem unwaited_refines (moved : Moved pngData storage before transfer) (unwaited : before.waiting = false)
    (split : state.transfers = front ++ before :: back) (late : transfer.finished storage.service = before.finished storage.service)
    (quiet : transfer.upload.called = before.upload.called) :
    (state.move storage.service front.length before transfer).world storage.service = state.world storage.service := by
  have closed : before.task storage.service = none := if_neg (by simp [unwaited])
  have gone : transfer.task storage.service = none := by
    refine if_neg ?_
    rw [Transfer.waiting,quiet,moved.same]
    exact Bool.eq_false_iff.mp unwaited
  have set : state.transfers.set front.length transfer = front ++ transfer :: back := by simp [split]
  rcases moved.finish state with ⟨_,unmoved⟩ | ⟨fresh,done,_⟩
  · rcases moved.answer (state.commit storage.service before transfer) with ⟨_,same⟩ | ⟨_,silent,heard,_⟩
    · rw [State.world,State.world,State.move,same,unmoved,set,split,List.filterMap_append,List.filterMap_append]
      simp only [List.filterMap_cons,closed,gone]
    · rw [quiet,silent] at heard
      cases heard
  · rw [late,fresh] at done
    cases done

theorem unwaited_silent (moved : Moved pngData storage before transfer) (unwaited : before.waiting = false)
    (allowed : before.running = true ∨ serving event = true)
    (accepted : PutData.advance storage.service put before.upload event = some transfer.upload) :
    transfer.upload.called = before.upload.called := by
  rcases allowed with running | served
  · rcases moved.called with same | ⟨silent,_⟩
    · exact same
    · simp [Transfer.waiting,running,silent] at unwaited
  · cases event with
    | fetch event => exact PutData.fetch_called accepted
    | _ => cases served

-- Runs of these uploads in which nothing comes too late are runs of the shares before.
theorem transfers_refine (resumable : storage.service.Resumable) (path : Runs (advance pngData storage) start events state)
    (each : EachStep (advance pngData storage) start events (OnTime storage)) :
    ∃ commands, Runs (Sharing.advance pngData) Sharing.start commands (state.world storage.service) ∧
      commands.filterMap displayed = events.filterMap Event.shown := by
  refine path.refines (State.world storage.service) Event.shown displayed ?_ each
  intro earlier state event next prior timely accepted
  cases event with
  | shareConfirmed user reachability textField snapshot =>
      exact ⟨[_],.cons (shareConfirmed_world accepted) .nil,rfl⟩
  | terminated user =>
      cases Option.some.inj accepted
      exact ⟨[.terminated user],.cons (congrArg some (world_terminate state user).symm) .nil,rfl⟩
  | transfer index event =>
      obtain ⟨before,upload,found,allowed,step,rfl⟩ := advance_transfer accepted
      have moved := Sound.moved resumable ((runs_tracked resumable prior).sound before (List.mem_of_getElem? found)) step
      obtain ⟨front,back,split,rfl⟩ := split_at found
      cases waiting : before.waiting with
      | true => exact waiting_refines moved waiting split
      | false =>
          have late := (timely before found).resolve_left (by simp [waiting]) upload step
          rw [unwaited_refines moved waiting split late (unwaited_silent moved waiting allowed step)]
          exact ⟨[],.nil,rfl⟩

instance (storage : Storage Server Choice Metadata) (state : State UIImage Server Metadata) : ∀ event, Decidable (OnTime storage state event)
  | .shareConfirmed _ _ _ _ | .terminated _ => inferInstanceAs (Decidable True)
  | .transfer _ _ => inferInstanceAs (Decidable (∀ _ ∈ _, _))

theorem transfers_refine_one :
    let events := sharedOne (.dispatched :: (UploadSession.brokenOff ++ UploadSession.askedAgain).map .fetch ++
      [.calledBack,.calledBack,.calledBack])
    ∃ state commands, Runs (advance onePng storageOne) start events state ∧
      state.told = [(7,uploadSuccessful)] ∧ Runs (Sharing.advance onePng) Sharing.start commands (state.world storageOne.service) ∧
      commands.filterMap displayed = events.filterMap Event.shown := by
  intro events
  have ran : (run (advance onePng storageOne) start events).map (·.told) = some [(7,uploadSuccessful)] := by
    decide +kernel
  obtain ⟨state,accepted,told⟩ := Option.map_eq_some_iff.mp ran
  have timely : EachStep (advance onePng storageOne) start events (OnTime storageOne) := by decide +kernel
  obtain ⟨commands,shares,same⟩ := transfers_refine (StoredUpload.service_resumable 2) (run_exact.mp accepted) timely
  exact ⟨state,commands,run_exact.mp accepted,told,shares,same⟩

end CanvasPainter.Transfers
