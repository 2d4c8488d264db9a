import Mathlib.Data.List.Perm.Basic
import Mathlib.Data.List.Nodup
import CanvasPainter.FeedSteps

namespace CanvasPainter.Feed
open TransitionRuns
variable {StorageReference URL UIImage Data : Type} {decode : Data → Option UIImage}
  {app after : App StorageReference URL UIImage Data}

def Block.listing : Block StorageReference URL Data → Option (Nat × Nat)
  | .listed feedVC listing => some (feedVC,listing)
  | .finished _ _ _ _ => none

-- The listings whose block has not run yet.
def App.pending (app : App StorageReference URL UIImage Data) : List (Nat × Nat) := app.mainQueue.filterMap Block.listing

def App.loadsOf (app : App StorageReference URL UIImage Data) (listing : Nat) : List StorageReference :=
  (app.loads.filter (·.1 = listing)).map (·.2)

-- What the last completion of a controller handed over.
def App.delivered (app : App StorageReference URL UIImage Data) (feedVC : Nat) : Option (List StorageReference) :=
  ((app.listings.filter (·.1 = feedVC)).map (·.2)).getLast?

def LoadedOwn (app : App StorageReference URL UIImage Data) : Prop :=
  ∀ listing feedVC items, app.listings[listing]? = some (feedVC,items) →
    if (feedVC,listing) ∈ app.pending then app.loadsOf listing = [] else (app.loadsOf listing).Perm items

-- When a listing's block runs, no completion with other items has become its controller's last one.
def OwnItemsIn (app : App StorageReference URL UIImage Data) : Option (Block StorageReference URL Data) → Prop
  | some (.listed feedVC listing) => ∀ own, app.listings[listing]? = some own →
      ∀ last, app.delivered feedVC = some last → last.Perm own.2
  | _ => True

def OwnItems (app : App StorageReference URL UIImage Data) : Event StorageReference URL Data → Prop
  | .main => OwnItemsIn app app.mainQueue.head?
  | _ => True

-- folderList is what the last completion left there, whichever block is to read it.
structure Listed (app : App StorageReference URL UIImage Data) : Prop where
  owners : ∀ entry ∈ app.listings, entry.1 < app.connected
  folder : ∀ feedVC items, app.delivered feedVC = some items → (app.controllers feedVC).folderList = some items
  asked : ∀ entry ∈ app.pending, ∃ items, app.listings[entry.2]? = some (entry.1,items)
  once : app.pending.Nodup
  early : ∀ load ∈ app.loads, load.1 < app.listings.length

theorem initial_listed : Listed (start : App StorageReference URL UIImage Data) :=
  ⟨by simp [start],by simp [start,App.delivered],by simp [start,App.pending],by simp [start,App.pending],by simp [start]⟩

structure Accounted (app : App StorageReference URL UIImage Data) : Prop where
  numbered : Numbered app
  listed : Listed app

theorem initial_accounted : Accounted (start : App StorageReference URL UIImage Data) :=
  ⟨initial_numbered,initial_listed⟩

theorem initial_loadedOwn : LoadedOwn (start : App StorageReference URL UIImage Data) := by
  simp [LoadedOwn,start]

-- What every step leaves alone but for completions and their blocks.
structure Unlisted (app after : App StorageReference URL UIImage Data) : Prop where
  connected : app.connected ≤ after.connected
  folder : ∀ feedVC, feedVC < app.connected →
    (after.controllers feedVC).folderList = (app.controllers feedVC).folderList
  pending : after.pending = app.pending
  listings : after.listings = app.listings
  loads : after.loads = app.loads

-- None, one, or the two completions of a page that fails.
inductive Completions (app : App StorageReference URL UIImage Data) : App StorageReference URL UIImage Data → Prop where
  | none : Completions app app
  | more : Completions app middle → feedVC < middle.connected → Completions app (middle.listAllCompletion feedVC items)

@[simp] theorem completion_pending : (app.listAllCompletion feedVC items).pending =
    app.pending ++ [(feedVC,app.listings.length)] := by
  simp [App.pending,App.listAllCompletion,Block.listing]

theorem completion_delivered : (app.listAllCompletion feedVC items).delivered other =
    if other = feedVC then some items else app.delivered other := by
  by_cases same : other = feedVC
  · simp [App.delivered,App.listAllCompletion,same]
  · simp [App.delivered,App.listAllCompletion,same,Ne.symm same]

theorem delivered_some {listing : Nat} {items : List StorageReference} (found : app.listings[listing]? = some (feedVC,items)) :
    ∃ last, app.delivered feedVC = some last := by
  have mine : items ∈ (app.listings.filter (·.1 = feedVC)).map (·.2) :=
    List.mem_map.mpr ⟨_,List.mem_filter.mpr ⟨List.mem_of_getElem? found,by simp⟩,rfl⟩
  exact ⟨_,List.getLast?_eq_some_getLast (List.ne_nil_of_mem mine)⟩

theorem completion_listed (valid : Listed app) (known : feedVC < app.connected) :
    Listed (app.listAllCompletion feedVC items) := by
  obtain ⟨owners,folder,asked,once,early⟩ := valid
  have numbers : ∀ entry ∈ app.pending, entry.2 < app.listings.length := by
    intro entry member
    obtain ⟨own,found⟩ := asked entry member
    exact (List.getElem?_eq_some_iff.mp found).1
  refine ⟨snoc_all owners known,?_,?_,?_,?_⟩
  · intro other last delivered
    rw [completion_delivered] at delivered
    by_cases same : other = feedVC
    · subst same
      simpa [App.listAllCompletion,App.modify] using delivered
    · rw [if_neg same] at delivered
      simpa [App.listAllCompletion,App.modify,same] using folder other last delivered
  · rw [completion_pending]
    refine snoc_all (fun entry member => ?_) ⟨items,List.getElem?_concat_length⟩
    obtain ⟨own,found⟩ := asked entry member
    exact ⟨own,(List.getElem?_append_left (numbers entry member)).trans found⟩
  · rw [completion_pending,← List.concat_eq_append]
    refine List.Nodup.concat (fun member => ?_) once
    have below := numbers _ member
    omega
  · intro load member
    have below := early load member
    simp only [App.listAllCompletion,List.length_append,List.length_singleton]
    omega

theorem completion_loadedOwn (valid : Listed app) (good : LoadedOwn app) :
    LoadedOwn (app.listAllCompletion feedVC items) := by
  intro listing owner own found
  rw [completion_pending]
  change (app.listings ++ [(feedVC,items)])[listing]? = _ at found
  change if _ then app.loadsOf listing = [] else (app.loadsOf listing).Perm own
  by_cases old : listing < app.listings.length
  · rw [List.getElem?_append_left old] at found
    have other : listing ≠ app.listings.length := by omega
    simpa [other] using good listing owner own found
  · have newest : listing = app.listings.length := by
      have bound := (List.getElem?_eq_some_iff.mp found).1
      simp only [List.length_append,List.length_singleton] at bound
      omega
    subst newest
    rw [List.getElem?_concat_length] at found
    cases Option.some.inj found
    rw [if_pos (by simp)]
    -- No load carries a number not given yet.
    refine List.map_eq_nil_iff.mpr (List.filter_eq_nil_iff.mpr fun load member same => ?_)
    have below := valid.early load member
    have equal := of_decide_eq_true same
    omega

theorem Completions.listed (valid : Listed app) (several : Completions app after) : Listed after := by
  induction several with
  | none => exact valid
  | more _ known ih => exact completion_listed ih known

theorem Completions.loadedOwn (valid : Listed app) (good : LoadedOwn app) (several : Completions app after) :
    LoadedOwn after := by
  induction several with
  | none => exact good
  | more front _ ih => exact completion_loadedOwn (front.listed valid) ih

theorem Unlisted.listed (valid : Listed app) (rest : Unlisted app after) : Listed after := by
  obtain ⟨owners,folder,asked,once,early⟩ := valid
  refine ⟨?_,?_,?_,?_,?_⟩
  · rw [rest.listings]
    exact fun entry member => Nat.lt_of_lt_of_le (owners entry member) rest.connected
  · intro feedVC items delivered
    rw [App.delivered,rest.listings] at delivered
    have mine : items ∈ (app.listings.filter (·.1 = feedVC)).map (·.2) := List.mem_of_getLast? delivered
    obtain ⟨entry,member,_⟩ := List.mem_map.mp mine
    obtain ⟨member,same⟩ := List.mem_filter.mp member
    have known : feedVC < app.connected := of_decide_eq_true same ▸ owners entry member
    rw [rest.folder feedVC known]
    exact folder feedVC items delivered
  · rw [rest.pending,rest.listings]; exact asked
  · rw [rest.pending]; exact once
  · rw [rest.loads,rest.listings]; exact early

theorem Unlisted.loadedOwn (rest : Unlisted app after) : LoadedOwn after ↔ LoadedOwn app := by
  unfold LoadedOwn App.loadsOf
  rw [rest.listings,rest.pending,rest.loads]

theorem folder_kept {controllers : Nat → FeedVC StorageReference UIImage} {changed : FeedVC StorageReference UIImage}
    (same : changed.folderList = (controllers feedVC).folderList) (other : Nat) :
    (Function.update controllers feedVC changed other).folderList = (controllers other).folderList :=
  field_kept (·.folderList) same other

def App.blockRun (app : App StorageReference URL UIImage Data) (feedVC listing : Nat)
    (rest : List (Block StorageReference URL Data)) : App StorageReference URL UIImage Data :=
  {app.modify feedVC .reloadData with
    mainQueue := rest
    requests := app.requests ++ ((app.controllers feedVC).folderList.getD []).map (.downloadURL feedVC)
    loads := app.loads ++ ((app.controllers feedVC).folderList.getD []).map (listing,·)}

theorem blockRun_pending (front : app.mainQueue = .listed feedVC listing :: rest) :
    app.pending = (feedVC,listing) :: (app.blockRun feedVC listing rest).pending := by
  simp [App.pending,front,Block.listing,App.blockRun]

theorem blockRun_loadsOf (folder : (app.controllers feedVC).folderList = some items) :
    (app.blockRun feedVC listing rest).loadsOf other = app.loadsOf other ++ if other = listing then items else [] := by
  by_cases same : other = listing
  · subst same
    simp [App.loadsOf,App.blockRun,folder,List.filter_map,Function.comp_def]
  · simp [App.loadsOf,App.blockRun,folder,List.filter_map,Function.comp_def,same,Ne.symm same]

variable [DecidableEq URL]

-- A step runs a listing's block, or completes listings and touches nothing else of theirs.
theorem listings_step (numbered : Numbered app) (step : Step decode app event after) :
    (OwnItems app event ∧ ∃ middle, Completions app middle ∧ Unlisted middle after) ∨
    ∃ feedVC listing rest, event = .main ∧ app.mainQueue = .listed feedVC listing :: rest ∧
      after = app.blockRun feedVC listing rest := by
  have known : ∀ {index feedVC accumulated},
      app.requests[index]? = some (Request.listAll feedVC accumulated) → feedVC < app.connected :=
    fun found => numbered.requests _ (List.mem_of_getElem? found)
  cases step with
  | willConnect =>
      refine .inl ⟨trivial,app,.none,Nat.le_succ _,fun feedVC known => ?_,rfl,rfl,rfl⟩
      simp [App.willConnect,App.modify,Nat.ne_of_lt known]
  | disowned => exact .inl ⟨trivial,app,.none,Nat.le_refl _,fun _ _ => folder_kept (by rfl) _,rfl,rfl,rfl⟩
  | deallocated _ => exact .inl ⟨trivial,app,.none,Nat.le_refl _,fun _ _ => folder_kept (by rfl) _,rfl,rfl,rfl⟩
  | viewWillAppear _ _ => exact .inl ⟨trivial,app,.none,Nat.le_refl _,fun _ _ => folder_kept (by rfl) _,rfl,rfl,rfl⟩
  | lastPage feedVC found =>
      exact .inl ⟨trivial,_,.more .none (known found),Nat.le_refl _,fun _ _ => rfl,rfl,rfl,rfl⟩
  | pageFailed feedVC found =>
      exact .inl ⟨trivial,_,.more (.more .none (known found)) (known found),Nat.le_refl _,fun _ _ => rfl,rfl,rfl,rfl⟩
  | served _ _ _ _ _ _ _ => exact .inl ⟨trivial,app,.none,Nat.le_refl _,fun _ _ => folder_kept (by rfl) _,rfl,rfl,rfl⟩
  | downloadFinished _ _ _ =>
      exact .inl ⟨trivial,app,.none,Nat.le_refl _,fun _ _ => rfl,by simp [App.pending,Block.listing],rfl,rfl⟩
  | loaded feedVC front => exact .inr ⟨feedVC,_,_,rfl,front,rfl⟩
  | orphaned front _ =>
      refine .inl ⟨by simp [OwnItems,OwnItemsIn,front],app,.none,Nat.le_refl _,fun _ _ => rfl,?_,rfl,rfl⟩
      simp [App.pending,Block.listing,List.filterMap_cons,front]
  | undecoded front _ =>
      refine .inl ⟨by simp [OwnItems,OwnItemsIn,front],app,.none,Nat.le_refl _,fun _ _ => rfl,?_,rfl,rfl⟩
      simp [App.pending,Block.listing,List.filterMap_cons,front]
  | appended feedVC _ front _ _ =>
      refine .inl ⟨by simp [OwnItems,OwnItemsIn,front],app,.none,Nat.le_refl _,fun other _ => ?_,?_,rfl,rfl⟩
      · exact Eq.trans (folder_kept (by rfl) other) (folder_kept (by rfl) other)
      · simp [App.pending,App.succeed,App.modify,App.setObject,App.contribute,Block.listing,List.filterMap_cons,front]
  | laidOut =>
      refine .inl ⟨trivial,app,.none,Nat.le_refl _,fun _ _ => folder_kept ?_ _,rfl,rfl,rfl⟩
      unfold FeedVC.layoutSubviews
      split <;> rfl
  | _ => exact .inl ⟨trivial,app,.none,Nat.le_refl _,fun _ _ => rfl,rfl,rfl,rfl⟩

theorem listed_preserved (numbered : Numbered app) (valid : Listed app) (step : Step decode app event after) :
    Listed after := by
  rcases listings_step numbered step with ⟨_,middle,several,rest⟩ | ⟨feedVC,listing,rest,_,front,rfl⟩
  · exact rest.listed (several.listed valid)
  · obtain ⟨owners,folder,asked,once,early⟩ := valid
    have pending := blockRun_pending front
    rw [pending] at asked once
    obtain ⟨⟨own,found⟩,waiting⟩ := List.forall_mem_cons.mp asked
    refine ⟨owners,?_,waiting,(List.nodup_cons.mp once).2,?_⟩
    · intro other items delivered
      exact Eq.trans (folder_kept (by rfl) other) (folder other items delivered)
    · intro load member
      rcases List.mem_append.mp member with old | new
      · exact early load old
      · obtain ⟨refer,_,rfl⟩ := List.mem_map.mp new
        exact (List.getElem?_eq_some_iff.mp found).1

theorem accounted_preserved (valid : Accounted app) (step : Step decode app event after) : Accounted after :=
  ⟨numbered_preserved valid.numbered step,listed_preserved valid.numbered valid.listed step⟩

theorem loadedOwn_exact (numbered : Numbered app) (valid : Listed app) (good : LoadedOwn app)
    (step : Step decode app event after) : LoadedOwn after ↔ OwnItems app event := by
  rcases listings_step numbered step with ⟨own,middle,several,rest⟩ | ⟨feedVC,listing,rest,rfl,front,rfl⟩
  · exact iff_of_true (rest.loadedOwn.mpr (several.loadedOwn valid good)) own
  · have pending := blockRun_pending front
    obtain ⟨own,found⟩ := valid.asked (feedVC,listing) (by simp [pending])
    obtain ⟨last,delivered⟩ := delivered_some found
    have once := valid.once
    rw [pending] at once
    have gone := (List.nodup_cons.mp once).1
    have loads : ∀ other, (app.blockRun feedVC listing rest).loadsOf other =
        app.loadsOf other ++ if other = listing then last else [] :=
      fun _ => blockRun_loadsOf (valid.folder feedVC last delivered)
    have before : app.loadsOf listing = [] := by
      have waits := good listing feedVC own found
      rwa [if_pos (by simp [pending])] at waits
    have condition : OwnItems app .main ↔ last.Perm own := by
      simp [OwnItems,OwnItemsIn,front,found,delivered]
    rw [condition]
    constructor
    · intro all
      have mine := all listing feedVC own found
      rw [if_neg gone,loads listing,before,if_pos rfl,List.nil_append] at mine
      exact mine
    · intro same other owner items asked
      change app.listings[other]? = some (owner,items) at asked
      by_cases here : other = listing
      · subst here
        rw [found] at asked
        cases Option.some.inj asked
        rw [if_neg gone,loads other,before,if_pos rfl,List.nil_append]
        exact same
      · have earlier := good other owner items asked
        rw [loads other,if_neg here,List.append_nil]
        simpa [pending,here] using earlier

instance [DecidableEq StorageReference] (app : App StorageReference URL UIImage Data) :
    (block : Option (Block StorageReference URL Data)) → Decidable (OwnItemsIn app block)
  | some (.listed feedVC listing) => inferInstanceAs (Decidable (∀ own, app.listings[listing]? = some own →
      ∀ last, app.delivered feedVC = some last → last.Perm own.2))
  | some (.finished _ _ _ _) => isTrue trivial
  | none => isTrue trivial

instance [DecidableEq StorageReference] (app : App StorageReference URL UIImage Data) :
    (event : Event StorageReference URL Data) → Decidable (OwnItems app event)
  | .main => inferInstanceAs (Decidable (OwnItemsIn app app.mainQueue.head?))
  | .willConnect | .released _ | .deallocated _ | .viewWillAppear _ | .page _ _ _ | .pageFailed _ | .resolved _ _ _
  | .downloaded _ _ _ | .evicted _ | .laidOut _ => isTrue trivial

theorem listings_loaded_iff (path : Runs (advance decode) (start : App StorageReference URL UIImage Data) events app) :
    Throughout (advance decode) (start : App StorageReference URL UIImage Data) events LoadedOwn ↔
      EachStep (advance decode) (start : App StorageReference URL UIImage Data) events OwnItems := by
  refine path.throughout_iff initial_accounted initial_loadedOwn
    (fun _ _ _ valid accepted => accounted_preserved valid (advance_step accepted).2) ?_
  intro before event next valid good accepted
  exact loadedOwn_exact valid.numbered valid.listed good (advance_step accepted).2

theorem listings_loaded_iff_overlapping :
    let events : List (Event String Nat (List Nat)) := [.willConnect,.viewWillAppear 0,.viewWillAppear 0,
      .page 0 ["a"] true,.page 0 ["b"] false,.main,.page 0 ["b","a"] false,.main]
    ∃ app, Runs (advance decodePng) (start : App String Nat Nat (List Nat)) events app ∧
      app.loads = [(0,"a"),(0,"b"),(1,"b"),(1,"a")] ∧ LoadedOwn app := by
  intro events
  have path : Runs (advance decodePng) (start : App String Nat Nat (List Nat)) events _ := run_exact.mp rfl
  exact ⟨_,path,rfl,((listings_loaded_iff path).mpr (by decide)).final path⟩

-- The second completion of a failed page comes before the block of the first, which then loads its items.
theorem failed_page_loads_twice :
    ∃ app, Runs (advance decodePng) (start : App String Nat Nat (List Nat)) [.willConnect,.viewWillAppear 0,
        .page 0 ["a"] true,.pageFailed 0,.main,.main] app ∧ app.mainQueue = [] ∧
      app.listings = [(0,[]),(0,["a"])] ∧ app.loads = [(0,"a"),(1,"a")] ∧ ¬LoadedOwn app := by
  refine ⟨_,run_exact.mp rfl,rfl,rfl,rfl,fun good => ?_⟩
  have loaded := good 0 0 [] rfl
  revert loaded
  decide

end CanvasPainter.Feed
