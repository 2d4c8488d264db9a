import Mathlib.Data.List.Perm.Basic
import Mathlib.Data.List.Nodup
import CanvasPainter.FeedSteps

namespace CanvasPainter.Feed
open TransitionRuns
variable {StorageReference URL UIImage Data : Type} {decode : Data → Option UIImage}
  {app after : App StorageReference URL UIImage Data}

@[simp] def Request.download : Request StorageReference URL → Option (Nat × Option URL)
  | .dataTask feedVC _ url => some (feedVC,some url)
  | _ => none

@[simp] def Block.download : Block StorageReference URL Data → Option (Nat × Option URL)
  | .finished feedVC _ url _ => some (feedVC,some url)
  | .listed _ _ => none

def Contribution.source (entry : Contribution URL UIImage Data) : Nat × Option URL := (entry.feedVC,entry.downloadURL)

def App.underWay (app : App StorageReference URL UIImage Data) : List (Nat × Option URL) :=
  app.requests.filterMap Request.download ++ app.mainQueue.filterMap Block.download

def App.started (app : App StorageReference URL UIImage Data) : List (Nat × Option URL) :=
  app.contributions.map Contribution.source ++ app.underWay

structure Once (app : App StorageReference URL UIImage Data) : Prop where
  valid : Valid app
  nodup : app.started.Nodup

-- A resolution that leads to an entry finds its controller without one from that URL, made or under way.
def FreshFor (app : App StorageReference URL UIImage Data) (downloadURL : Option URL) :
    Option (Request StorageReference URL) → Prop
  | some (.downloadURL feedVC _) =>
    app.imageCache downloadURL = none ∨ (app.controllers feedVC).downloadedImages = [] →
      (feedVC,downloadURL) ∉ app.started
  | _ => True

def Fresh (app : App StorageReference URL UIImage Data) : Event StorageReference URL Data → Prop
  | .resolved index downloadURL none => FreshFor app downloadURL app.requests[index]?
  | _ => True

theorem initial_once : Once (start : App StorageReference URL UIImage Data) := ⟨initial_valid,List.nodup_nil⟩

theorem requests_perm {requests : List (Request StorageReference URL)} (found : requests[index]? = some request) :
    (request :: requests.eraseIdx index).Perm requests := by
  obtain ⟨bound,rfl⟩ := List.getElem?_eq_some_iff.mp found
  exact List.getElem_cons_eraseIdx_perm bound

theorem paged_downloads {requests : List (Request StorageReference URL)}
    (found : requests[index]? = some (.listAll feedVC accumulated)) :
    ((requests.set index (.listAll feedVC items)).filterMap Request.download).Perm
      (requests.filterMap Request.download) := by
  have before := (requests_perm found).filterMap Request.download
  have after := (List.set_perm_cons_eraseIdx (List.getElem?_eq_some_iff.mp found).1 (.listAll feedVC items)).filterMap
    Request.download
  simp only [List.filterMap_cons,Request.download] at before after
  exact after.trans before

theorem finished_downloads {requests : List (Request StorageReference URL)}
    (found : requests[index]? = some (.dataTask feedVC storageRef url)) :
    ((feedVC,some url) :: (requests.eraseIdx index).filterMap Request.download).Perm
      (requests.filterMap Request.download) := by
  simpa [List.filterMap_cons] using (requests_perm found).filterMap Request.download

theorem without_underWay (index : Nat) : (app.withoutRequest index).underWay.Sublist app.underWay :=
  ((List.eraseIdx_sublist _ _).filterMap _).append_right _

theorem nodup_less (nodup : app.started.Nodup) (contributions : after.contributions = app.contributions)
    (less : after.underWay.Sublist app.underWay) : after.started.Nodup := by
  refine nodup.sublist ?_
  unfold App.started
  rw [contributions]
  exact less.append_left _

theorem nodup_more (nodup : app.started.Nodup) (fresh : source ∉ app.started) (less : kept.Sublist app.underWay)
    (perm : after.started.Perm (source :: (app.contributions.map Contribution.source ++ kept))) : after.started.Nodup := by
  rw [perm.nodup_iff]
  have fewer : (app.contributions.map Contribution.source ++ kept).Sublist app.started := less.append_left _
  exact List.nodup_cons.mpr ⟨fun present => fresh (fewer.subset present),nodup.sublist fewer⟩

theorem Once.contributionsOf (once : Once app) (feedVC : Nat) :
    ((app.contributionsOf feedVC).map Contribution.downloadURL).Nodup := by
  have sources : (app.contributions.map Contribution.source).Nodup := once.nodup.sublist (List.sublist_append_left _ _)
  have own : ((app.contributionsOf feedVC).map Contribution.source).Nodup :=
    sources.sublist (List.filter_sublist.map _)
  have tagged : (app.contributionsOf feedVC).map Contribution.source =
      ((app.contributionsOf feedVC).map Contribution.downloadURL).map (Prod.mk feedVC) := by
    rw [List.map_map]
    refine List.map_congr_left fun entry member => ?_
    have same : entry.feedVC = feedVC := of_decide_eq_true (List.mem_filter.mp member).2
    simp [Contribution.source,same]
  rw [tagged] at own
  exact own.of_map _

variable [DecidableEq URL]

theorem once_preserved (once : Once app) (fresh : Fresh app event) (step : Step decode app event after) :
    Once after := by
  obtain ⟨valid,nodup⟩ := once
  refine ⟨valid_preserved valid step,?_⟩
  cases step with
  | willConnect => exact nodup
  | disowned => exact nodup
  | deallocated _ => exact nodup
  | viewWillAppear _ _ =>
      simpa [App.started,App.underWay,App.viewWillAppear,App.modify,List.filterMap_cons] using nodup
  | nextPage _ found =>
      exact (((paged_downloads found).append_right _).append_left _).nodup_iff.mpr nodup
  | @lastPage index _ _ _ _ found =>
      refine nodup_less nodup rfl ?_
      have less : (app.withoutRequest index).underWay.Sublist app.underWay := without_underWay index
      simpa [App.underWay,App.listAllCompletion,App.modify,List.filterMap_cons] using less
  | @pageFailed index _ _ found =>
      refine nodup_less nodup rfl ?_
      have less : (app.withoutRequest index).underWay.Sublist app.underWay := without_underWay index
      simpa [App.underWay,App.listAllCompletion,App.modify,List.filterMap_cons] using less
  | served index feedVC downloadURL found one hit empty =>
      obtain rfl := valid.resolved_well one hit
      have unseen : (feedVC,downloadURL) ∉ app.started := by
        simp only [Fresh,FreshFor,found] at fresh
        exact fresh (.inr empty)
      apply nodup_more nodup unseen (without_underWay index)
      change ((app.contributions ++ [_]).map Contribution.source ++ (app.withoutRequest index).underWay).Perm _
      rw [List.map_append,List.append_assoc]
      exact List.perm_middle
  | passedOver _ found _ hit some => exact nodup_less nodup rfl (without_underWay _)
  | unresolved found => exact nodup_less nodup rfl (without_underWay _)
  | downloadStarted index feedVC url found missed =>
      have unseen : (feedVC,some url) ∉ app.started := by
        simp only [Fresh,FreshFor,found] at fresh
        exact fresh (.inl missed)
      apply nodup_more nodup unseen (without_underWay index)
      refine List.Perm.trans (List.Perm.append_left _ ?_) List.perm_middle
      simp only [App.underWay,App.withoutRequest,List.filterMap_append,List.append_assoc]
      exact List.perm_middle
  | downloadFinished feedVC url found =>
      refine (List.Perm.append_left _ ?_).nodup_iff.mpr nodup
      have joined := (finished_downloads found).append_right (app.mainQueue.filterMap Block.download)
      refine List.Perm.trans ?_ joined
      simp only [App.underWay,App.withoutRequest,List.filterMap_append]
      rw [← List.append_assoc]
      exact List.perm_append_singleton ..
  | downloadFailed found => exact nodup_less nodup rfl (without_underWay _)
  | loaded feedVC front =>
      refine nodup_less nodup rfl ?_
      simp [App.underWay,front,List.filterMap_cons]
  | orphaned front _ =>
      refine nodup_less nodup rfl ?_
      simp [App.underWay,front]
  | undecoded front _ =>
      refine nodup_less nodup rfl ?_
      simp [App.underWay,front]
  | appended feedVC url front living decoded =>
      refine (List.Perm.nodup_iff ?_).mpr nodup
      simp [App.started,App.underWay,App.succeed,App.contribute,App.modify,App.setObject,Contribution.source,front]
      exact List.Perm.append_left _ List.perm_middle.symm
  | evicted => exact nodup
  | laidOut => exact nodup

instance (app : App StorageReference URL UIImage Data) (downloadURL : Option URL) :
    (request : Option (Request StorageReference URL)) → Decidable (FreshFor app downloadURL request)
  | some (.downloadURL feedVC _) => inferInstanceAs (Decidable (app.imageCache downloadURL = none ∨
      (app.controllers feedVC).downloadedImages = [] → ¬((feedVC,downloadURL) ∈ app.started)))
  | some (.listAll _ _) => isTrue trivial
  | some (.dataTask _ _ _) => isTrue trivial
  | none => isTrue trivial

instance (app : App StorageReference URL UIImage Data) :
    (event : Event StorageReference URL Data) → Decidable (Fresh app event)
  | .resolved index downloadURL none => inferInstanceAs (Decidable (FreshFor app downloadURL app.requests[index]?))
  | .resolved _ _ (some _) => isTrue trivial
  | .willConnect | .released _ | .deallocated _ | .viewWillAppear _ | .page _ _ _ | .pageFailed _ | .downloaded _ _ _
  | .main | .evicted _ | .laidOut _ => isTrue trivial

theorem contributed_once
    (fresh : EachStep (advance decode) (start : App StorageReference URL UIImage Data) events Fresh) :
    Throughout (advance decode) start events fun app => ∀ feedVC,
      (app.controllers feedVC).downloadedImages = (app.contributionsOf feedVC).map (some ·.image) ∧
      ((app.contributionsOf feedVC).map Contribution.downloadURL).Nodup := by
  intro earlier app front path feedVC
  obtain ⟨later,rfl⟩ := front
  have once : Once app := path.guarded initial_once
    (fun _ _ _ once ok accepted => once_preserved once ok (advance_step accepted).2) fresh.front
  exact ⟨once.valid.mirrors feedVC,once.contributionsOf feedVC⟩

theorem contributed_once_in_turn :
    ∃ app, Runs (advance decodePng) (start : App String Nat Nat (List Nat)) [.willConnect,.viewWillAppear 0,
        .page 0 ["a"] false,.main,.resolved 0 (some 1) none,.downloaded 0 (some (pngFile 7)) none,.main,
        .viewWillAppear 0,.page 0 ["a"] false,.main,.resolved 0 (some 1) none,.evicted (some 1)] app ∧
      (app.controllers 0).downloadedImages = [some 7] ∧
      ((app.contributionsOf 0).map Contribution.downloadURL).Nodup := by
  have path : Runs (advance decodePng) (start : App String Nat Nat (List Nat)) [.willConnect,.viewWillAppear 0,
      .page 0 ["a"] false,.main,.resolved 0 (some 1) none,.downloaded 0 (some (pngFile 7)) none,.main,
      .viewWillAppear 0,.page 0 ["a"] false,.main,.resolved 0 (some 1) none,.evicted (some 1)] _ := run_exact.mp rfl
  exact ⟨_,path,rfl,((contributed_once (by decide)).final path 0).2⟩

-- Both resolutions come before either download has filled the cache.
theorem overlapping_appearances_duplicate :
    ∃ app, Runs (advance decodePng) (start : App String Nat Nat (List Nat)) [.willConnect,.viewWillAppear 0,
        .viewWillAppear 0,.page 0 ["a"] false,.page 0 ["a"] false,.main,.main,.resolved 0 (some 1) none,
        .resolved 0 (some 1) none,.downloaded 0 (some (pngFile 7)) none,.downloaded 0 (some (pngFile 7)) none,.main,.main] app ∧
      (app.controllers 0).downloadedImages = [some 7,some 7] ∧
      (app.contributionsOf 0).map Contribution.downloadURL = [some 1,some 1] ∧
      ¬((app.contributionsOf 0).map Contribution.downloadURL).Nodup :=
  ⟨_,run_exact.mp rfl,rfl,rfl,by decide⟩

end CanvasPainter.Feed
