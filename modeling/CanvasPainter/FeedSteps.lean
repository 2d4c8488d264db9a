import CanvasPainter.FeedModel

namespace CanvasPainter.Feed
open TransitionRuns
variable {StorageReference URL UIImage Data : Type} {decode : Data → Option UIImage}
  {app after : App StorageReference URL UIImage Data}

def App.contributionsOf (app : App StorageReference URL UIImage Data) (feedVC : Nat) :
    List (Contribution URL UIImage Data) :=
  app.contributions.filter (·.feedVC = feedVC)

-- Nothing speaks of a controller before its scene made it.
structure Numbered (app : App StorageReference URL UIImage Data) : Prop where
  owned : ∀ feedVC, (app.controllers feedVC).owned = true → feedVC < app.connected
  requests : ∀ request ∈ app.requests, request.feedVC < app.connected
  blocks : ∀ block ∈ app.mainQueue, block.feedVC < app.connected
  contributions : ∀ entry ∈ app.contributions, entry.feedVC < app.connected
  succeeded : ∀ entry ∈ app.succeeded, entry.1 < app.connected

theorem initial_numbered : Numbered (start : App StorageReference URL UIImage Data) :=
  ⟨by simp [start,FeedVC.absent],by simp [start],by simp [start],by simp [start],by simp [start]⟩

-- downloadedImages is what was appended to it, and the missing URL of a failed resolution is never cached.
structure Valid (app : App StorageReference URL UIImage Data) : Prop where
  numbered : Numbered app
  mirrors : ∀ feedVC, (app.controllers feedVC).downloadedImages = (app.contributionsOf feedVC).map (some ·.image)
  nilKey : app.imageCache none = none

theorem initial_valid : Valid (start : App StorageReference URL UIImage Data) :=
  ⟨initial_numbered,fun _ => rfl,rfl⟩

theorem unborn_images (valid : Valid app) : (app.controllers app.connected).downloadedImages = [] := by
  have nothing : app.contributionsOf app.connected = [] := by
    refine List.filter_eq_nil_iff.mpr fun entry member same => ?_
    have known := valid.numbered.contributions entry member
    exact absurd (of_decide_eq_true same) (Nat.ne_of_lt known)
  rw [valid.mirrors,nothing]; rfl

theorem Valid.resolved_well (valid : Valid app) (one : downloadURL.isSome ≠ error.isSome)
    (hit : app.imageCache downloadURL = some image) : error = none := by
  cases downloadURL with
  | none => rw [valid.nilKey] at hit; cases hit
  | some url => simpa using one.symm

theorem owned_update {controllers : Nat → FeedVC StorageReference UIImage} {changed : FeedVC StorageReference UIImage}
    (owned : ∀ other, (controllers other).owned = true → other < bound)
    (keeps : changed.owned = true → (controllers feedVC).owned = true) :
    ∀ other, (Function.update controllers feedVC changed other).owned = true → other < bound := by
  intro other held
  by_cases same : other = feedVC
  · subst same
    rw [Function.update_self] at held
    exact owned other (keeps held)
  · rw [Function.update_of_ne same] at held
    exact owned other held

theorem images_update {controllers : Nat → FeedVC StorageReference UIImage} {changed : FeedVC StorageReference UIImage}
    (images : changed.downloadedImages = (controllers feedVC).downloadedImages ++ added) (other : Nat) :
    (Function.update controllers feedVC changed other).downloadedImages =
      (controllers other).downloadedImages ++ if other = feedVC then added else [] := by
  by_cases same : other = feedVC
  · subst same; simp [images]
  · simp [same]

-- A field the change leaves alone is unchanged in every controller.
theorem field_kept {controllers : Nat → FeedVC StorageReference UIImage} (field : FeedVC StorageReference UIImage → α)
    (same : field changed = field (controllers feedVC)) (other : Nat) :
    field (Function.update controllers feedVC changed other) = field (controllers other) := by
  by_cases here : other = feedVC
  · subst here; simp [same]
  · simp [here]

theorem images_kept {controllers : Nat → FeedVC StorageReference UIImage} {changed : FeedVC StorageReference UIImage}
    (images : changed.downloadedImages = (controllers feedVC).downloadedImages) (other : Nat) :
    (Function.update controllers feedVC changed other).downloadedImages = (controllers other).downloadedImages :=
  field_kept (·.downloadedImages) images other

variable [DecidableEq URL]

-- Everything an event can do, one case for each way through the code.
inductive Step (decode : Data → Option UIImage) (app : App StorageReference URL UIImage Data) :
    Event StorageReference URL Data → App StorageReference URL UIImage Data → Prop where
  | willConnect : Step decode app .willConnect app.willConnect
  | disowned : Step decode app (.released feedVC) (app.modify feedVC ({· with owned := false}))
  | deallocated : ¬app.Retained feedVC →
      Step decode app (.deallocated feedVC) (app.modify feedVC ({· with alive := false}))
  | viewWillAppear (feedVC : Nat) : (app.controllers feedVC).owned = true →
      Step decode app (.viewWillAppear feedVC) (app.viewWillAppear feedVC)
  | nextPage (feedVC : Nat) : app.requests[index]? = some (.listAll feedVC accumulated) →
      Step decode app (.page index items token)
      {app with requests := app.requests.set index (.listAll feedVC (accumulated ++ items))}
  | lastPage (feedVC : Nat) : app.requests[index]? = some (.listAll feedVC accumulated) →
      Step decode app (.page index items token)
      ((app.withoutRequest index).listAllCompletion feedVC (accumulated ++ items))
  | pageFailed (feedVC : Nat) : app.requests[index]? = some (.listAll feedVC accumulated) →
      Step decode app (.pageFailed index)
      (((app.withoutRequest index).listAllCompletion feedVC []).listAllCompletion feedVC accumulated)
  | served (index feedVC : Nat) (downloadURL : Option URL) :
      app.requests[index]? = some (.downloadURL feedVC storageRef) →
      downloadURL.isSome ≠ error.isSome → app.imageCache downloadURL = some image →
      (app.controllers feedVC).downloadedImages = [] → Step decode app (.resolved index downloadURL error)
        (((app.withoutRequest index).contribute feedVC downloadURL image none).succeed feedVC storageRef image)
  | passedOver (feedVC : Nat) : app.requests[index]? = some (.downloadURL feedVC storageRef) →
      downloadURL.isSome ≠ error.isSome → app.imageCache downloadURL = some image →
      (app.controllers feedVC).downloadedImages ≠ [] → Step decode app (.resolved index downloadURL error)
        ((app.withoutRequest index).succeed feedVC storageRef image)
  | unresolved : app.requests[index]? = some (.downloadURL feedVC storageRef) →
      Step decode app (.resolved index none error) (app.withoutRequest index)
  | downloadStarted (index feedVC : Nat) (url : URL) :
      app.requests[index]? = some (.downloadURL feedVC storageRef) → app.imageCache (some url) = none →
      Step decode app (.resolved index (some url) none)
        {app.withoutRequest index with requests := app.requests.eraseIdx index ++ [.dataTask feedVC storageRef url]}
  | downloadFinished (feedVC : Nat) (url : URL) : app.requests[index]? = some (.dataTask feedVC storageRef url) →
      Step decode app (.downloaded index (some data) none)
        {app.withoutRequest index with mainQueue := app.mainQueue ++ [.finished feedVC storageRef url data]}
  | downloadFailed : app.requests[index]? = some (.dataTask feedVC storageRef url) → (data = none ∨ error ≠ none) →
      Step decode app (.downloaded index data error) (app.withoutRequest index)
  | loaded (feedVC : Nat) : app.mainQueue = .listed feedVC listing :: rest → Step decode app .main
      {app.modify feedVC .reloadData with
        mainQueue := rest
        requests := app.requests ++ ((app.controllers feedVC).folderList.getD []).map (.downloadURL feedVC)
        loads := app.loads ++ ((app.controllers feedVC).folderList.getD []).map (listing,·)}
  | orphaned : app.mainQueue = .finished feedVC storageRef url data :: rest → (app.controllers feedVC).alive = false →
      Step decode app .main {app with mainQueue := rest, trapped := some .self}
  | undecoded : app.mainQueue = .finished feedVC storageRef url data :: rest → decode data = none →
      Step decode app .main {app with mainQueue := rest, trapped := some .imageToCache}
  | appended (feedVC : Nat) (url : URL) : app.mainQueue = .finished feedVC storageRef url data :: rest →
      (app.controllers feedVC).alive = true →
      decode data = some image → Step decode app .main
        (((({app with mainQueue := rest}.contribute feedVC (some url) image (some data)).setObject (some url)
          (some image)).modify feedVC .reloadData).succeed feedVC storageRef image)
  | evicted : Step decode app (.evicted key) (app.setObject key none)
  | laidOut : Step decode app (.laidOut feedVC) (app.modify feedVC .layoutSubviews)

theorem resolved_step (found : app.requests[index]? = some (.downloadURL feedVC storageRef))
    (one : downloadURL.isSome ≠ error.isSome) : Step decode app (.resolved index downloadURL error)
      ((app.withoutRequest index).resolved feedVC storageRef downloadURL error) := by
  unfold App.resolved
  split
  · rename_i image hit
    split
    · rename_i empty
      exact .served index feedVC downloadURL found one hit (List.length_eq_zero_iff.mp empty)
    · rename_i some
      exact .passedOver feedVC found one hit fun empty => some (List.length_eq_zero_iff.mpr empty)
  · rename_i missed
    cases downloadURL with
    | none =>
        have failed : error.isSome = true := by simpa [Option.isSome_iff_ne_none] using one.symm
        rw [if_pos failed]
        exact .unresolved found
    | some url =>
        have quiet : error = none := by simpa using one.symm
        subst quiet
        exact .downloadStarted index feedVC url found missed

theorem finished_step (front : app.mainQueue = .finished feedVC storageRef url data :: rest) :
    Step decode app .main ({app with mainQueue := rest}.finished decode feedVC storageRef url data) := by
  simp only [App.finished]
  split
  · rename_i living
    split
    · rename_i undecoded
      exact .undecoded front undecoded
    · rename_i image decoded
      rw [decoded]
      exact .appended feedVC url front living decoded
  · rename_i gone
    exact .orphaned front (by simpa using gone)

theorem advance_step (accepted : advance decode app event = some after) :
    app.trapped = none ∧ Step decode app event after := by
  unfold advance at accepted
  split at accepted
  · cases accepted
  · rename_i running
    refine ⟨by simpa using running,?_⟩
    cases event with
    | willConnect => cases Option.some.inj accepted; exact .willConnect
    | released feedVC =>
        obtain ⟨_,same⟩ := Option.ite_none_right_eq_some.mp accepted
        cases Option.some.inj same; exact .disowned
    | deallocated feedVC =>
        obtain ⟨allowed,same⟩ := Option.ite_none_right_eq_some.mp accepted
        cases Option.some.inj same; exact .deallocated allowed.2
    | viewWillAppear feedVC =>
        obtain ⟨allowed,same⟩ := Option.ite_none_right_eq_some.mp accepted
        cases Option.some.inj same; exact .viewWillAppear feedVC allowed
    | page index items token =>
        simp only at accepted
        split at accepted
        · rename_i feedVC accumulated found
          split at accepted
          · cases Option.some.inj accepted; exact .nextPage feedVC found
          · cases Option.some.inj accepted; exact .lastPage feedVC found
        · cases accepted
    | pageFailed index =>
        simp only at accepted
        split at accepted
        · rename_i feedVC accumulated found
          cases Option.some.inj accepted; exact .pageFailed feedVC found
        · cases accepted
    | resolved index downloadURL error =>
        simp only at accepted
        split at accepted
        · rename_i feedVC storageRef found
          obtain ⟨one,same⟩ := Option.ite_none_left_eq_some.mp accepted
          cases Option.some.inj same; exact resolved_step found one
        · cases accepted
    | downloaded index data error =>
        simp only at accepted
        split at accepted
        · rename_i feedVC storageRef url found
          cases Option.some.inj accepted
          unfold App.downloaded
          split
          · exact .downloadFinished feedVC url found
          · rename_i data error other
            refine .downloadFailed found (or_iff_not_imp_left.mpr fun given quiet => ?_)
            obtain ⟨body,rfl⟩ := Option.ne_none_iff_exists'.mp given
            exact other body rfl quiet
        · cases accepted
    | main =>
        simp only at accepted
        split at accepted
        · cases accepted
        · rename_i feedVC listing rest front
          cases Option.some.inj accepted
          rw [App.listed_exact]
          exact .loaded feedVC front
        · rename_i feedVC storageRef url data rest front
          cases Option.some.inj accepted; exact finished_step front
    | evicted key => cases Option.some.inj accepted; exact .evicted
    | laidOut feedVC =>
        obtain ⟨_,same⟩ := Option.ite_none_right_eq_some.mp accepted
        cases Option.some.inj same; exact .laidOut

theorem numbered_preserved (valid : Numbered app) (step : Step decode app event after) : Numbered after := by
  obtain ⟨owned,requests,blocks,contributions,succeeded⟩ := valid
  have without : ∀ index, ∀ request ∈ app.requests.eraseIdx index, request.feedVC < app.connected :=
    fun index request member => requests request (List.mem_of_mem_eraseIdx member)
  have asked : ∀ {index} {request : Request StorageReference URL}, app.requests[index]? = some request →
      request.feedVC < app.connected :=
    fun found => requests _ (List.mem_of_getElem? found)
  have next : ∀ {block : Block StorageReference URL Data} {rest}, app.mainQueue = block :: rest →
      block.feedVC < app.connected ∧ ∀ other ∈ rest, other.feedVC < app.connected := by
    intro block rest front
    rw [front] at blocks
    exact List.forall_mem_cons.mp blocks
  cases step with
  | willConnect =>
      refine ⟨?_,fun r m => Nat.lt_succ_of_lt (requests r m),fun b m => Nat.lt_succ_of_lt (blocks b m),
        fun e m => Nat.lt_succ_of_lt (contributions e m),fun e m => Nat.lt_succ_of_lt (succeeded e m)⟩
      intro other held
      by_cases same : other = app.connected
      · subst same; exact Nat.lt_succ_self _
      · simp only [App.willConnect,App.modify,Function.update_of_ne same] at held
        exact Nat.lt_succ_of_lt (owned other held)
  | disowned => exact ⟨owned_update owned (by simp),requests,blocks,contributions,succeeded⟩
  | deallocated _ => exact ⟨owned_update owned id,requests,blocks,contributions,succeeded⟩
  | viewWillAppear feedVC held =>
      have known : feedVC < app.connected := owned feedVC held
      exact ⟨owned_update owned id,snoc_all requests known,blocks,contributions,succeeded⟩
  | nextPage feedVC found =>
      have known : feedVC < app.connected := asked found
      refine ⟨owned,?_,blocks,contributions,succeeded⟩
      intro request member
      rcases List.mem_or_eq_of_mem_set member with old | rfl
      · exact requests request old
      · exact known
  | lastPage feedVC found =>
      have known : feedVC < app.connected := asked found
      exact ⟨owned_update owned id,without _,snoc_all blocks known,contributions,succeeded⟩
  | pageFailed feedVC found =>
      have known : feedVC < app.connected := asked found
      exact ⟨owned_update (owned_update owned id) id,without _,snoc_all (snoc_all blocks known) known,
        contributions,succeeded⟩
  | served index feedVC downloadURL found one hit empty =>
      have known : feedVC < app.connected := asked found
      exact ⟨owned_update owned id,without _,blocks,snoc_all contributions known,snoc_all succeeded known⟩
  | passedOver feedVC found one hit some =>
      have known : feedVC < app.connected := asked found
      exact ⟨owned,without _,blocks,contributions,snoc_all succeeded known⟩
  | unresolved found => exact ⟨owned,without _,blocks,contributions,succeeded⟩
  | downloadStarted index feedVC url found missed =>
      have known : feedVC < app.connected := asked found
      exact ⟨owned,snoc_all (without _) known,blocks,contributions,succeeded⟩
  | downloadFinished feedVC url found =>
      have known : feedVC < app.connected := asked found
      exact ⟨owned,without _,snoc_all blocks known,contributions,succeeded⟩
  | downloadFailed found _ => exact ⟨owned,without _,blocks,contributions,succeeded⟩
  | loaded feedVC front =>
      obtain ⟨known,waiting⟩ := next front
      refine ⟨owned_update owned id,?_,waiting,contributions,succeeded⟩
      intro request member
      rcases List.mem_append.mp member with old | new
      · exact requests request old
      · obtain ⟨refer,_,rfl⟩ := List.mem_map.mp new
        exact known
  | orphaned front _ =>
      exact ⟨owned,requests,(next front).2,contributions,succeeded⟩
  | undecoded front _ =>
      exact ⟨owned,requests,(next front).2,contributions,succeeded⟩
  | appended feedVC url front living decoded =>
      obtain ⟨(known : feedVC < app.connected),waiting⟩ := next front
      exact ⟨owned_update (owned_update owned id) id,requests,waiting,
        snoc_all contributions known,snoc_all succeeded known⟩
  | evicted => exact ⟨owned,requests,blocks,contributions,succeeded⟩
  | laidOut => exact ⟨owned_update owned (by simp),requests,blocks,contributions,succeeded⟩

-- A step leaves every list as it is or appends one recorded image to one.
theorem images_step (valid : Valid app) (step : Step decode app event after) :
    (after.contributions = app.contributions ∧
      ∀ feedVC, (after.controllers feedVC).downloadedImages = (app.controllers feedVC).downloadedImages) ∨
    ∃ entry, after.contributions = app.contributions ++ [entry] ∧
      ∀ feedVC, (after.controllers feedVC).downloadedImages =
        (app.controllers feedVC).downloadedImages ++ if feedVC = entry.feedVC then [some entry.image] else [] := by
  cases step with
  | willConnect => exact .inl ⟨rfl,images_kept (unborn_images valid).symm⟩
  | disowned => exact .inl ⟨rfl,images_kept rfl⟩
  | deallocated _ => exact .inl ⟨rfl,images_kept rfl⟩
  | viewWillAppear _ _ => exact .inl ⟨rfl,images_kept rfl⟩
  | nextPage _ _ => exact .inl ⟨rfl,fun _ => rfl⟩
  | lastPage _ _ => exact .inl ⟨rfl,images_kept rfl⟩
  | pageFailed feedVC _ =>
      refine .inl ⟨rfl,fun other => Eq.trans (images_kept ?_ other) (images_kept ?_ other)⟩ <;> rfl
  | served _ _ _ _ _ _ _ => exact .inr ⟨_,rfl,images_update rfl⟩
  | passedOver _ _ _ _ _ => exact .inl ⟨rfl,fun _ => rfl⟩
  | unresolved _ => exact .inl ⟨rfl,fun _ => rfl⟩
  | downloadStarted _ _ _ _ _ => exact .inl ⟨rfl,fun _ => rfl⟩
  | downloadFinished _ _ _ => exact .inl ⟨rfl,fun _ => rfl⟩
  | downloadFailed _ _ => exact .inl ⟨rfl,fun _ => rfl⟩
  | loaded _ _ => exact .inl ⟨rfl,images_kept rfl⟩
  | orphaned _ _ => exact .inl ⟨rfl,fun _ => rfl⟩
  | undecoded _ _ => exact .inl ⟨rfl,fun _ => rfl⟩
  | appended _ _ _ _ _ =>
      refine .inr ⟨_,rfl,fun other => Eq.trans (images_kept ?_ other) ?_⟩
      · rfl
      · exact images_update rfl other
  | evicted => exact .inl ⟨rfl,fun _ => rfl⟩
  | laidOut => exact .inl ⟨rfl,images_kept (by simp)⟩

theorem nilKey_preserved (valid : Valid app) (step : Step decode app event after) : after.imageCache none = none := by
  cases step with
  | appended _ _ _ _ _ => simpa [App.succeed,App.modify,App.setObject,App.contribute] using valid.nilKey
  | @evicted key => cases key <;> simp [App.setObject,valid.nilKey]
  | _ => exact valid.nilKey

theorem valid_preserved (valid : Valid app) (step : Step decode app event after) : Valid after := by
  refine ⟨numbered_preserved valid.numbered step,?_,nilKey_preserved valid step⟩
  intro feedVC
  rcases images_step valid step with ⟨contributions,images⟩ | ⟨entry,contributions,images⟩
  · rw [images,valid.mirrors,App.contributionsOf,App.contributionsOf,contributions]
  · rw [images,valid.mirrors,App.contributionsOf,App.contributionsOf,contributions,List.filter_append,List.map_append]
    by_cases same : feedVC = entry.feedVC
    · simp [same]
    · simp [same,Ne.symm same]

theorem runs_valid (path : Runs (advance decode) start events app) : Valid app :=
  path.invariant initial_valid fun _ _ _ valid accepted => valid_preserved valid (advance_step accepted).2

theorem images_grow (valid : Valid app) (step : Step decode app event after) (feedVC : Nat) :
    (app.controllers feedVC).downloadedImages <+: (after.controllers feedVC).downloadedImages := by
  rcases images_step valid step with ⟨_,images⟩ | ⟨entry,_,images⟩
  · rw [images]
  · rw [images]; exact List.prefix_append _ _

end CanvasPainter.Feed
