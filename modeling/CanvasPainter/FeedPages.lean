import CanvasPainter.FeedModel
import CanvasPainter.StorageListing

namespace CanvasPainter.Feed
open TransitionRuns StorageURLs.Listing
variable {URL UIImage Data : Type} [DecidableEq URL] {decode : Data → Option UIImage}
  {app : App StorageURLs.FIRStoragePath URL UIImage Data} {reference : StorageURLs.FIRStoragePath}
  {frs_dictionaryFromJSONData : NSData → Option ResponseDictionary} {listing : ListAll}

-- What the feed makes of an answer to a page's request.
def pageEvent (index : Nat) (answer : Answer) : Event StorageURLs.FIRStoragePath URL Data :=
  match answer.1 with
  | some result => .page index result.items result.pageToken.isSome
  | none => .pageFailed index

-- A completion of listAll as viewWillAppear's closure takes it.
def App.hand (feedVC : Nat) (app : App StorageURLs.FIRStoragePath URL UIImage Data) (answer : Answer) :
    App StorageURLs.FIRStoragePath URL UIImage Data :=
  app.listAllCompletion feedVC (itemsOf answer)

def App.accumulating (app : App StorageURLs.FIRStoragePath URL UIImage Data) (index feedVC : Nat)
    (items : List StorageURLs.FIRStoragePath) : App StorageURLs.FIRStoragePath URL UIImage Data :=
  {app with requests := app.requests.set index (.listAll feedVC items)}

-- The feed's app beside the listing that it waits for.
inductive Follows (index feedVC : Nat) (app : App StorageURLs.FIRStoragePath URL UIImage Data) (listing : ListAll) :
    App StorageURLs.FIRStoragePath URL UIImage Data → Prop where
  | waiting : listing.task.isSome = true → Follows index feedVC app listing (app.accumulating index feedVC listing.items)
  | handed : listing.task = none →
      Follows index feedVC app listing (listing.completions.foldl (.hand feedVC) (app.withoutRequest index))

theorem follows_step (running : app.trapped = none) (inside : index < app.requests.length)
    (silent : listing.completions = []) (one : Answered answer) :
    ∃ after, advance decode (app.accumulating index feedVC listing.items) (pageEvent index answer) = some after ∧
      Follows index feedVC app ({listing with task := none}.paginatedCompletion answer) after := by
  have going : (app.accumulating index feedVC listing.items).trapped.isSome = false := by
    simp [App.accumulating,running]
  have found : (app.accumulating index feedVC listing.items).requests[index]? = some (.listAll feedVC listing.items) := by
    simp [App.accumulating,inside]
  have without : (app.accumulating index feedVC listing.items).withoutRequest index = app.withoutRequest index := by
    simp [App.accumulating,App.withoutRequest,List.eraseIdx_set_eq]
  cases one with
  | page result =>
      cases token : result.pageToken with
      | some pageToken =>
          have next : nextToken (some result,none) = some pageToken := token
          refine ⟨app.accumulating index feedVC (listing.items ++ result.items),?_,?_⟩
          · simp only [advance,pageEvent,going,found,token]
            simp [App.accumulating]
          · simp only [ListAll.paginatedCompletion,next,Option.isSome_none]
            exact .waiting rfl
      | none =>
          have next : nextToken (some result,none) = none := token
          refine ⟨(app.withoutRequest index).listAllCompletion feedVC (listing.items ++ result.items),?_,?_⟩
          · simp [advance,pageEvent,going,found,token,without]
          · have followed : Follows index feedVC app ({listing with task := none}.paginatedCompletion (some result,none)) _ :=
              .handed (by simp [ListAll.paginatedCompletion,next,ListAll.complete])
            simpa [ListAll.paginatedCompletion,next,ListAll.complete,silent,App.hand,itemsOf] using followed
  | failed error =>
      have next : nextToken (none,some error) = none := rfl
      refine ⟨((app.withoutRequest index).listAllCompletion feedVC []).listAllCompletion feedVC listing.items,?_,?_⟩
      · simp [advance,pageEvent,going,found,without]
      · have followed : Follows index feedVC app ({listing with task := none}.paginatedCompletion (none,some error)) _ :=
          .handed (by simp [ListAll.paginatedCompletion,next,ListAll.complete])
        simpa [ListAll.paginatedCompletion,next,ListAll.complete,silent,App.hand,itemsOf] using followed

-- Whatever answers come, the feed that is told of them ends where listAll's own completions would leave it.
theorem listing_followed (running : app.trapped = none) (asked : app.requests[index]? = some (.listAll feedVC []))
    (path : Runs (StorageURLs.Listing.advance frs_dictionaryFromJSONData) (listAll reference) replies listing) :
    ∃ after, Runs (advance decode) app
        ((replies.map (answerTo frs_dictionaryFromJSONData reference)).map (pageEvent index)) after ∧
      Follows index feedVC app listing after := by
  obtain ⟨inside,here⟩ := List.getElem?_eq_some_iff.mp asked
  induction path with
  | nil =>
      have same : app.accumulating index feedVC (listAll reference).items = app := by
        simp only [App.accumulating,listAll,ListAll.enqueue]
        rw [← here,List.set_getElem_self]
      have first : Follows index feedVC app (listAll reference) (app.accumulating index feedVC (listAll reference).items) :=
        .waiting rfl
      refine ⟨_,?_,first⟩
      rw [same]
      exact .nil
  | step prior accepted ih =>
      rename_i earlier middle reply after
      obtain ⟨sofar,run,follows⟩ := ih
      have told := runs_told prior
      cases told.stands with
      | ended _ _ idle => simp [StorageURLs.Listing.advance,idle] at accepted
      | waiting task pending ours _ silent =>
          rw [told.own] at ours
          simp only [StorageURLs.Listing.advance,pending,fetcherCompletion_answer ours,Option.some.injEq] at accepted
          subst accepted
          cases follows with
          | handed idle => simp [pending] at idle
          | waiting _ =>
              have one : Answered (answerTo frs_dictionaryFromJSONData reference reply) := answer_cases reply
              obtain ⟨after,moved,followed⟩ : ∃ after, advance decode (app.accumulating index feedVC middle.items) _ =
                some after ∧ Follows index feedVC app _ after := follows_step running inside silent one
              refine ⟨after,?_,followed⟩
              rw [List.map_append,List.map_append]
              exact run.step moved

def feedOpened : App StorageURLs.FIRStoragePath Nat Nat (List Nat) := start.willConnect.viewWillAppear 0

-- A page comes and the next does not: the feed hears of no items, then of the first page's.
theorem listing_followed_interrupted :
    let replies : List Reply := [⟨some firstPage,none⟩,⟨none,some ⟨.status,404,.none⟩⟩]
    ∃ after listing, Runs (StorageURLs.Listing.advance readPage) (listAll folderF) replies listing ∧
      Runs (advance decodePng) feedOpened ((replies.map (answerTo readPage folderF)).map (pageEvent 0)) after ∧
      after = listing.completions.foldl (.hand 0) (feedOpened.withoutRequest 0) := by
  intro replies
  have path : Runs (StorageURLs.Listing.advance readPage) (listAll folderF) replies _ := run_exact.mp rfl
  have running : feedOpened.trapped = none := rfl
  have asked : feedOpened.requests[0]? = some (.listAll 0 []) := rfl
  obtain ⟨after,run,follows⟩ := listing_followed running asked path
  cases follows with
  | waiting pending => cases pending
  | handed idle => exact ⟨_,_,path,run,rfl⟩

end CanvasPainter.Feed
