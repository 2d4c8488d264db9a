import Mathlib.Data.List.Perm.Basic
import CanvasPainter.FeedArrival
import CanvasPainter.FeedListings
import CanvasPainter.FeedOnce

namespace CanvasPainter.Feed
open TransitionRuns
variable {StorageReference URL UIImage Data : Type} {decode : Data → Option UIImage}
  {app after : App StorageReference URL UIImage Data}

@[simp] def Request.item : Request StorageReference URL → Option (Nat × StorageReference)
  | .listAll _ _ => none
  | .downloadURL feedVC storageRef => some (feedVC,storageRef)
  | .dataTask feedVC storageRef _ => some (feedVC,storageRef)

@[simp] def Block.item : Block StorageReference URL Data → Option (Nat × StorageReference)
  | .listed _ _ => none
  | .finished feedVC storageRef _ _ => some (feedVC,storageRef)

-- The items on their way, and the ones that have arrived, each with its controller.
def App.fetching (app : App StorageReference URL UIImage Data) : List (Nat × StorageReference) :=
  app.requests.filterMap Request.item ++ app.mainQueue.filterMap Block.item

def App.fetched (app : App StorageReference URL UIImage Data) : List (Nat × StorageReference) :=
  app.succeeded.map fun entry => (entry.1,entry.2.1)

def App.ownerOf (app : App StorageReference URL UIImage Data) (listing : Nat) : Option Nat :=
  app.listings[listing]?.map (·.1)

def App.loaded (app : App StorageReference URL UIImage Data) : List (Option Nat × StorageReference) :=
  app.loads.map fun load => (app.ownerOf load.1,load.2)

-- No request of an item fails.
def Smooth (_ : App StorageReference URL UIImage Data) : Event StorageReference URL Data → Prop
  | .resolved _ downloadURL _ => downloadURL.isSome = true
  | .downloaded _ data error => data.isSome = true ∧ error = none
  | _ => True

-- What was loaded is on its way or has arrived, item by item.
structure Balanced (app : App StorageReference URL UIImage Data) : Prop where
  accounted : Accounted app
  tally : app.loaded.Perm ((app.fetching ++ app.fetched).map fun item => (some item.1,item.2))

theorem initial_balanced : Balanced (start : App StorageReference URL UIImage Data) :=
  ⟨initial_accounted,.nil⟩

theorem requests_items {requests : List (Request StorageReference URL)} (found : requests[index]? = some request) :
    (request.item.toList ++ (requests.eraseIdx index).filterMap Request.item).Perm (requests.filterMap Request.item) := by
  have moved := (requests_perm found).filterMap Request.item
  rw [List.filterMap_cons] at moved
  cases known : request.item with
  | none =>
      rw [known] at moved
      exact moved
  | some item =>
      rw [known] at moved
      exact moved

theorem paged_items {requests : List (Request StorageReference URL)}
    (found : requests[index]? = some (.listAll feedVC accumulated)) :
    ((requests.set index (.listAll feedVC items)).filterMap Request.item).Perm (requests.filterMap Request.item) := by
  have before := (requests_perm found).filterMap Request.item
  have after := (List.set_perm_cons_eraseIdx (List.getElem?_eq_some_iff.mp found).1 (.listAll feedVC items)).filterMap
    Request.item
  simp only [List.filterMap_cons,Request.item] at before after
  exact after.trans before

theorem loaded_kept (listed : Listed app) (loads : after.loads = app.loads) (listings : app.listings <+: after.listings) :
    after.loaded = app.loaded := by
  unfold App.loaded
  rw [loads]
  refine List.map_congr_left fun load member => ?_
  obtain ⟨more,same⟩ := listings
  have early := listed.early load member
  simp only [App.ownerOf,← same,List.getElem?_append_left early]

theorem balanced_kept (balanced : Balanced app) (accounted : Accounted after) (loads : after.loads = app.loads)
    (listings : app.listings <+: after.listings)
    (items : (after.fetching ++ after.fetched).Perm (app.fetching ++ app.fetched)) : Balanced after := by
  refine ⟨accounted,?_⟩
  rw [loaded_kept balanced.accounted.listed loads listings]
  exact balanced.tally.trans (items.symm.map _)

theorem succeed_fetched : (app.succeed feedVC storageRef image).fetched = app.fetched ++ [(feedVC,storageRef)] := by
  simp [App.fetched,App.succeed]

theorem arrived_items (found : app.requests[index]? = some request) (one : request.item = some item) :
    ((app.withoutRequest index).fetching ++ (app.fetched ++ [item])).Perm (app.fetching ++ app.fetched) := by
  have gone := (requests_items found).append_right (app.mainQueue.filterMap Block.item)
  rw [one] at gone
  refine List.Perm.trans ?_ (gone.append_right app.fetched)
  rw [← List.append_assoc]
  exact List.perm_append_comm

theorem asked_items (items : List StorageReference) :
    (items.map (Request.downloadURL feedVC : StorageReference → Request StorageReference URL)).filterMap Request.item =
      items.map (feedVC,·) := by
  simp [List.filterMap_map,Function.comp_def]

-- A listing's block loads for the controller the listing was completed for.
theorem blockRun_tally (balanced : Balanced app) (front : app.mainQueue = .listed feedVC listing :: rest) :
    (app.blockRun feedVC listing rest).loaded.Perm (((app.blockRun feedVC listing rest).fetching ++
      (app.blockRun feedVC listing rest).fetched).map fun item => (some item.1,item.2)) := by
  obtain ⟨own,found⟩ := balanced.accounted.listed.asked (feedVC,listing) (by simp [App.pending,front,Block.listing])
  have owner : app.ownerOf listing = some feedVC := by simp [App.ownerOf,found]
  have loaded : (app.blockRun feedVC listing rest).loaded =
      app.loaded ++ ((app.controllers feedVC).folderList.getD []).map (some feedVC,·) := by
    simp only [App.loaded,App.blockRun,List.map_append,List.map_map]
    refine congrArg (_ ++ ·) (List.map_congr_left fun storageRef _ => ?_)
    exact Prod.ext owner rfl
  have fetching : (app.blockRun feedVC listing rest).fetching.Perm
      (app.fetching ++ ((app.controllers feedVC).folderList.getD []).map (feedVC,·)) := by
    simp only [App.fetching,App.blockRun,front,List.filterMap_append,asked_items,List.filterMap_cons,Block.item,
      List.append_assoc]
    exact List.Perm.append_left _ List.perm_append_comm
  rw [loaded]
  refine (balanced.tally.append_right _).trans ?_
  have grown := (fetching.append_right app.fetched).map fun item => ((some item.1,item.2) : Option Nat × StorageReference)
  refine List.Perm.trans ?_ grown.symm
  simp only [List.map_append,List.map_map,Function.comp_def,List.append_assoc]
  exact List.Perm.append_left _ List.perm_append_comm

section Grouping
variable {Entry Target : Type}

theorem flatMap_indices (entries : List Entry) (pick : Option Entry → List Target) :
    (List.range entries.length).flatMap (fun index => pick entries[index]?) = entries.flatMap fun entry => pick (some entry) := by
  induction entries using List.reverseRecOn with
  | nil => rfl
  | append_singleton earlier last ih =>
      have front : (List.range earlier.length).flatMap (fun index => pick (earlier ++ [last])[index]?) =
          (List.range earlier.length).flatMap fun index => pick earlier[index]? := by
        refine List.flatMap_congr fun index inside => ?_
        rw [List.getElem?_append_left (List.mem_range.mp inside)]
      rw [List.length_append,List.length_singleton,List.range_succ,List.flatMap_append,front,ih]
      simp

theorem flatMap_some (entries : List Entry) (mine : Entry → Prop) [DecidablePred mine] (part : Entry → List Target) :
    (entries.flatMap fun entry => if mine entry then part entry else []) =
      (entries.filter fun entry => mine entry).flatMap part := by
  induction entries with
  | nil => rfl
  | cons entry rest ih =>
      by_cases own : mine entry
      · simp [own,ih]
      · simp [own,ih]

-- Numbered entries, number by number.
theorem grouped (entries : List (Nat × Entry)) (bound : ∀ entry ∈ entries, entry.1 < count) :
    ((List.range count).flatMap fun number => entries.filter (·.1 = number)).Perm entries := by
  induction count generalizing entries with
  | zero =>
      have nothing : entries = [] := List.eq_nil_iff_forall_not_mem.mpr fun entry inside => Nat.not_lt_zero _ (bound entry inside)
      subst nothing
      exact .refl _
  | succ count ih =>
      have below : ((List.range count).flatMap fun number => entries.filter (·.1 = number)) =
          (List.range count).flatMap fun number => (entries.filter (·.1 < count)).filter (·.1 = number) := by
        refine List.flatMap_congr fun number inside => ?_
        rw [List.filter_filter]
        refine List.filter_congr fun entry _ => ?_
        have early := List.mem_range.mp inside
        by_cases same : entry.1 = number
        · simp [same,early]
        · simp [same]
      have last : entries.filter (·.1 = count) = entries.filter fun entry => !decide (entry.1 < count) := by
        refine List.filter_congr fun entry member => ?_
        have most := bound entry member
        by_cases same : entry.1 = count
        · simp [same]
        · have less : entry.1 < count := by omega
          simp [same,less]
      rw [List.range_succ,List.flatMap_append,below,List.flatMap_singleton,last]
      refine (List.Perm.append_right _ (ih _ fun entry member => ?_)).trans (List.filter_append_perm _ _)
      simpa using (List.mem_filter.mp member).2

end Grouping

def App.loadsFor (app : App StorageReference URL UIImage Data) (feedVC : Nat) : List (Nat × StorageReference) :=
  app.loads.filter fun load => app.ownerOf load.1 = some feedVC

theorem loadsFor_listing (app : App StorageReference URL UIImage Data) (feedVC listing : Nat) :
    ((app.loadsFor feedVC).filter (·.1 = listing)).map (·.2) =
      if app.ownerOf listing = some feedVC then app.loadsOf listing else [] := by
  rw [App.loadsFor,List.filter_filter]
  split
  · rename_i owner
    rw [App.loadsOf]
    refine congrArg _ (List.filter_congr fun load _ => ?_)
    by_cases same : load.1 = listing
    · simp [same,owner]
    · simp [same]
  · rename_i other
    refine List.map_eq_nil_iff.mpr (List.filter_eq_nil_iff.mpr fun load _ => ?_)
    by_cases same : load.1 = listing
    · simp [same,other]
    · simp [same]

theorem quiet_fetching (quiet : Quiet app feedVC) : ∀ item ∈ app.fetching, item.1 ≠ feedVC := by
  intro item inside
  rcases List.mem_append.mp inside with asked | queued
  · obtain ⟨request,member,same⟩ := List.mem_filterMap.mp asked
    have owner := quiet.1 request member
    cases request with
    | listAll _ _ => cases same
    | downloadURL _ _ | dataTask _ _ _ =>
        cases same
        exact owner
  · obtain ⟨block,member,same⟩ := List.mem_filterMap.mp queued
    have owner := quiet.2 block member
    cases block with
    | listed _ _ => cases same
    | finished _ _ _ _ =>
        cases same
        exact owner

-- With nothing of a controller's waiting, its loads are the items of its listings.
theorem quiet_loads (listed : Listed app) (good : LoadedOwn app) (quiet : Quiet app feedVC) :
    ((app.loadsFor feedVC).map (·.2)).Perm ((app.listings.filter (·.1 = feedVC)).flatMap (·.2)) := by
  have bound : ∀ load ∈ app.loadsFor feedVC, load.1 < app.listings.length :=
    fun load member => listed.early load (List.mem_of_mem_filter member)
  have still : ∀ listing, (feedVC,listing) ∉ app.pending := by
    intro listing waits
    obtain ⟨block,member,same⟩ := List.mem_filterMap.mp waits
    cases block with
    | listed owner number =>
        cases same
        exact quiet.2 _ member rfl
    | finished _ _ _ _ => cases same
  have own : ∀ listing ∈ List.range app.listings.length,
      (((app.loadsFor feedVC).filter (·.1 = listing)).map (·.2)).Perm
        ((app.listings[listing]?.map fun entry => if entry.1 = feedVC then entry.2 else []).getD []) := by
    intro listing inside
    obtain ⟨⟨owner,items⟩,found⟩ : ∃ entry, app.listings[listing]? = some entry :=
      ⟨_,List.getElem?_eq_getElem (List.mem_range.mp inside)⟩
    rw [loadsFor_listing,found]
    by_cases mine : owner = feedVC
    · subst mine
      have loaded := good listing owner items found
      rw [if_neg (still listing)] at loaded
      simpa [App.ownerOf,found] using loaded
    · simp [App.ownerOf,found,mine]
  have gathered := ((grouped _ bound).map (·.2)).symm
  rw [List.map_flatMap] at gathered
  refine gathered.trans ((List.Perm.flatMap_left _ own).trans ?_)
  rw [flatMap_indices app.listings fun entry => (entry.map fun entry => if entry.1 = feedVC then entry.2 else []).getD []]
  simp only [Option.map_some,Option.getD_some,flatMap_some]
  exact .refl _

theorem quiet_arrivals (balanced : Balanced app) (good : LoadedOwn app) (quiet : Quiet app feedVC) :
    ((app.listings.filter (·.1 = feedVC)).flatMap (·.2)).Perm ((app.succeeded.filter (·.1 = feedVC)).map (·.2.1)) := by
  have loads := quiet_loads balanced.accounted.listed good quiet
  refine loads.symm.trans ?_
  have still : app.fetching.filter (fun item => decide (some item.1 = some feedVC)) = [] := by
    refine List.filter_eq_nil_iff.mpr fun item inside => ?_
    simpa using quiet_fetching quiet item inside
  have arrived := (balanced.tally.filter (·.1 = some feedVC)).map (·.2)
  rw [App.loaded,List.filter_map,List.filter_map,List.filter_append,Function.comp_def,Function.comp_def,still] at arrived
  simpa [App.loadsFor,App.fetched,List.filter_map,Function.comp_def] using arrived

variable [DecidableEq URL]

theorem downloaded_queue (found : app.requests[index]? = some (.dataTask feedVC storageRef url))
    (accepted : advance decode app (.downloaded index (some data) none) = some after) :
    app.mainQueue ++ [.finished feedVC storageRef url data] = after.mainQueue := by
  unfold advance at accepted
  obtain ⟨_,moved⟩ := Option.ite_none_left_eq_some.mp accepted
  simp only [found,Option.some.injEq] at moved
  rw [← moved]
  rfl

theorem balanced_preserved (balanced : Balanced app) (smooth : Smooth app event) (running : after.trapped = none)
    (accepted : advance decode app event = some after) : Balanced after := by
  have step := (advance_step accepted).2
  have accounted := accounted_preserved balanced.accounted step
  have same : app.listings <+: app.listings := List.prefix_refl _
  cases step with
  | viewWillAppear feedVC _ =>
      refine balanced_kept balanced accounted rfl same ?_
      simp [App.fetching,App.fetched,App.viewWillAppear,App.modify,List.filterMap_cons]
  | nextPage feedVC found =>
      exact balanced_kept balanced accounted rfl same (((paged_items found).append_right _).append_right _)
  | lastPage feedVC found =>
      refine balanced_kept balanced accounted rfl (List.prefix_append _ _) ?_
      have gone := ((requests_items found).append_right (app.mainQueue.filterMap Block.item)).append_right app.fetched
      simpa [App.fetching,App.fetched,App.listAllCompletion,App.withoutRequest,App.modify,List.filterMap_cons] using gone
  | pageFailed feedVC found =>
      refine balanced_kept balanced accounted rfl ?_ ?_
      · exact (List.prefix_append _ _).trans (List.prefix_append _ _)
      · have gone := ((requests_items found).append_right (app.mainQueue.filterMap Block.item)).append_right app.fetched
        simpa [App.fetching,App.fetched,App.listAllCompletion,App.withoutRequest,App.modify,List.filterMap_cons] using gone
  | served index feedVC downloadURL found _ _ _ =>
      refine balanced_kept balanced accounted rfl same ?_
      rw [succeed_fetched]
      exact arrived_items found rfl
  | passedOver feedVC found _ _ _ =>
      refine balanced_kept balanced accounted rfl same ?_
      rw [succeed_fetched]
      exact arrived_items found rfl
  | unresolved found => cases smooth
  | downloadStarted index feedVC url found _ =>
      refine balanced_kept balanced accounted rfl same (List.Perm.append_right _ (List.Perm.append_right _ ?_))
      rw [List.filterMap_append]
      exact List.perm_append_comm.trans (requests_items found)
  | downloadFinished feedVC url found =>
      refine balanced_kept balanced accounted rfl same (List.Perm.append_right _ ?_)
      have gone := (requests_items found).append_right (app.mainQueue.filterMap Block.item)
      refine List.Perm.trans ?_ gone
      simp only [App.fetching,App.withoutRequest,List.filterMap_append]
      rw [← List.append_assoc]
      exact List.perm_append_comm
  | downloadFailed found =>
      obtain ⟨served,quiet⟩ := smooth
      obtain ⟨data,rfl⟩ := Option.isSome_iff_exists.mp served
      subst quiet
      have queued := congrArg List.length (downloaded_queue found accepted)
      simp [App.withoutRequest] at queued
  | loaded feedVC front => exact ⟨accounted,blockRun_tally balanced front⟩
  | orphaned _ _ => cases running
  | undecoded _ _ => cases running
  | appended feedVC url front _ _ =>
      refine balanced_kept balanced accounted rfl same ?_
      rw [succeed_fetched]
      have queue : app.mainQueue.filterMap Block.item = (feedVC,_) :: _ := front ▸ List.filterMap_cons
      simp only [App.fetching,queue,List.append_assoc,List.cons_append]
      refine List.Perm.append_left _ ?_
      rw [← List.append_assoc]
      exact List.perm_append_singleton _ _
  | _ => exact balanced_kept balanced accounted rfl same (.refl _)

theorem runs_balanced (path : Runs (advance decode) (start : App StorageReference URL UIImage Data) events app)
    (smooth : EachStep (advance decode) (start : App StorageReference URL UIImage Data) events Smooth)
    (running : app.trapped = none) : Balanced app := by
  induction path with
  | nil => exact initial_balanced
  | step prior accepted ih =>
      have before := (advance_step accepted).1
      exact balanced_preserved (ih smooth.front before) (smooth.final prior) running accepted

structure Loading (app : App StorageReference URL UIImage Data) : Prop where
  accounted : Accounted app
  own : LoadedOwn app

theorem runs_loading (path : Runs (advance decode) (start : App StorageReference URL UIImage Data) events app)
    (own : EachStep (advance decode) (start : App StorageReference URL UIImage Data) events OwnItems) : Loading app := by
  have first : Loading (start : App StorageReference URL UIImage Data) := ⟨initial_accounted,initial_loadedOwn⟩
  refine path.guarded first ?_ own
  intro before event next ⟨accounted,good⟩ ok accepted
  have step := (advance_step accepted).2
  exact ⟨accounted_preserved accounted step,(loadedOwn_exact accounted.numbered accounted.listed good step).mpr ok⟩

-- With no failure, what a controller's listings listed is what arrived for it once nothing of it is under way.
theorem listings_succeed (path : Runs (advance decode) (start : App StorageReference URL UIImage Data) events app)
    (smooth : EachStep (advance decode) (start : App StorageReference URL UIImage Data) events Smooth)
    (own : EachStep (advance decode) (start : App StorageReference URL UIImage Data) events OwnItems)
    (running : app.trapped = none) (quiet : Quiet app feedVC) :
    ((app.listings.filter (·.1 = feedVC)).flatMap (·.2)).Perm ((app.succeeded.filter (·.1 = feedVC)).map (·.2.1)) :=
  quiet_arrivals (runs_balanced path smooth running) (runs_loading path own).own quiet

instance (app : App StorageReference URL UIImage Data) :
    (event : Event StorageReference URL Data) → Decidable (Smooth app event)
  | .resolved _ downloadURL _ => inferInstanceAs (Decidable (downloadURL.isSome = true))
  | .downloaded _ data error => inferInstanceAs (Decidable (data.isSome = true ∧ error = none))
  | .willConnect | .released _ | .deallocated _ | .viewWillAppear _ | .page _ _ _ | .pageFailed _ | .main | .evicted _
  | .laidOut _ => isTrue trivial

theorem listings_succeed_twice :
    let events : List (Event String Nat (List Nat)) := [.willConnect,.viewWillAppear 0,.page 0 ["a"] true,
      .page 0 ["b"] false,.main,.resolved 0 (some 1) none,.downloaded 1 (some (pngFile 7)) none,.resolved 0 (some 2) none,
      .main,.downloaded 0 (some (pngFile 8)) none,.main,.viewWillAppear 0,.page 0 ["b"] false,.main,
      .resolved 0 (some 2) none]
    ∃ app, Runs (advance decodePng) (start : App String Nat Nat (List Nat)) events app ∧
      app.succeeded = [(0,"a",7),(0,"b",8),(0,"b",8)] ∧
      ((app.listings.filter (·.1 = 0)).flatMap (·.2)).Perm ((app.succeeded.filter (·.1 = 0)).map (·.2.1)) := by
  intro events
  have path : Runs (advance decodePng) (start : App String Nat Nat (List Nat)) events _ := run_exact.mp rfl
  exact ⟨_,path,rfl,listings_succeed path (by decide) (by decide) rfl (by decide)⟩

end CanvasPainter.Feed
