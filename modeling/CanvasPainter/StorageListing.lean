import CanvasPainter.DelimitedListing
import CanvasPainter.StorageErrors
import CanvasPainter.StorageRoundTrips
import CanvasPainter.TransitionRuns

namespace CanvasPainter.StorageURLs.Listing
open TransitionRuns SeparatedComponents DelimitedListing
variable {reference path folder : FIRStoragePath} {frs_dictionaryFromJSONData : NSData → Option ResponseDictionary}

-- FIRStorageReference's path is its FIRStoragePath.
def fullPath (reference : FIRStoragePath) : Text := reference.object.getD []

structure FIRStorageListResult where
  prefixes : List FIRStoragePath
  items : List FIRStoragePath
  pageToken : Option Text
  deriving DecidableEq, Repr

-- One page as the service writes it; a list that is not there reads as an empty one.
structure ResponseDictionary where
  prefixes : Option (List Text)
  items : Option (List Text)
  nextPageToken : Option Text
  deriving DecidableEq, Repr

def ResponseDictionary.folderNames (page : ResponseDictionary) : List Text := page.prefixes.getD []
def ResponseDictionary.itemNames (page : ResponseDictionary) : List Text := page.items.getD []

def pathWithoutTrailingSlash (prefixEntry : Text) : Text :=
  if ['/'].isSuffixOf prefixEntry then prefixEntry.take (prefixEntry.length - 1) else prefixEntry

def folderAt (reference : FIRStoragePath) (prefixEntry : Text) : FIRStoragePath :=
  reference.root.child (pathWithoutTrailingSlash prefixEntry)

def itemAt (reference : FIRStoragePath) (name : Text) : FIRStoragePath := reference.root.child name

def fromDictionary (dictionary : ResponseDictionary) (reference : FIRStoragePath) : FIRStorageListResult :=
  ⟨dictionary.folderNames.map (folderAt reference),dictionary.itemNames.map (itemAt reference),dictionary.nextPageToken⟩

structure FIRStorageListTask where
  reference : FIRStoragePath
  pageSize : Option Int
  previousPageToken : Option Text
  deriving DecidableEq, Repr

-- The keys a listing's request may have.
structure QueryParams where
  prefixParam : Option Text
  delimiter : Text
  maxResults : Option Text
  pageToken : Option Text
  deriving DecidableEq, Repr

def FIRStorageListTask.queryParams (task : FIRStorageListTask) : QueryParams :=
  let path := fullPath task.reference
  ⟨if path.length ≠ 0 then some (path ++ ['/']) else none,['/'],task.pageSize.map fun size => (toString size).toList,
    task.previousPageToken⟩

abbrev Answer := Option FIRStorageListResult × Option FIRStorageError

-- What the task's fetcherCompletion hands to its callback.
def FIRStorageListTask.fetcherCompletion (frs_dictionaryFromJSONData : NSData → Option ResponseDictionary)
    (task : FIRStorageListTask) (data : Option NSData) : Option NSError → Answer
  | some error => (none,some (FIRStorageErrors.errorWithServerError error (String.ofList task.reference.bucket)
      (task.reference.object.map String.ofList)))
  | none => match data.bind frs_dictionaryFromJSONData with
    | some responseDictionary => (some (fromDictionary responseDictionary task.reference),none)
    | none => (none,some (FIRStorageErrors.errorWithInvalidRequest data))

-- One listAll; `requests` and `completions` are history, which no step reads.
structure ListAll where
  reference : FIRStoragePath
  prefixes : List FIRStoragePath
  items : List FIRStoragePath
  task : Option FIRStorageListTask
  requests : List QueryParams
  completions : List Answer
  deriving DecidableEq, Repr

def ListAll.enqueue (listing : ListAll) (previousPageToken : Option Text) : ListAll :=
  let task : FIRStorageListTask := ⟨listing.reference,none,previousPageToken⟩
  {listing with task := some task, requests := listing.requests ++ [task.queryParams]}

def ListAll.complete (listing : ListAll) (answer : Answer) : ListAll :=
  {listing with completions := listing.completions ++ [answer]}

def listAll (reference : FIRStoragePath) : ListAll := ListAll.enqueue ⟨reference,[],[],none,[],[]⟩ none

-- Of a nil result everything is nil.
def nextToken (answer : Answer) : Option Text := answer.1.bind FIRStorageListResult.pageToken
def foldersOf (answer : Answer) : List FIRStoragePath := (answer.1.map FIRStorageListResult.prefixes).getD []
def itemsOf (answer : Answer) : List FIRStoragePath := (answer.1.map FIRStorageListResult.items).getD []

-- It goes on after it has reported an error.
def ListAll.paginatedCompletion (listing : ListAll) (answer : Answer) : ListAll :=
  let reported := if answer.2.isSome then listing.complete (none,answer.2) else listing
  let grown := {reported with
    prefixes := reported.prefixes ++ foldersOf answer
    items := reported.items ++ itemsOf answer}
  match nextToken answer with
  | some pageToken => grown.enqueue (some pageToken)
  | none => grown.complete (some ⟨grown.prefixes,grown.items,none⟩,none)

-- A fetch ends with its data or an error.
structure Reply where
  data : Option NSData
  error : Option NSError
  deriving DecidableEq, Repr

def advance (frs_dictionaryFromJSONData : NSData → Option ResponseDictionary) (listing : ListAll) (reply : Reply) :
    Option ListAll :=
  match listing.task with
  | none => none
  | some task => some ({listing with task := none}.paginatedCompletion
      (task.fetcherCompletion frs_dictionaryFromJSONData reply.data reply.error))

section Answers

def answerTo (frs_dictionaryFromJSONData : NSData → Option ResponseDictionary) (reference : FIRStoragePath)
    (reply : Reply) : Answer :=
  FIRStorageListTask.fetcherCompletion frs_dictionaryFromJSONData ⟨reference,none,none⟩ reply.data reply.error

theorem fetcherCompletion_answer {task : FIRStorageListTask} (same : task.reference = reference) (reply : Reply) :
    task.fetcherCompletion frs_dictionaryFromJSONData reply.data reply.error =
      answerTo frs_dictionaryFromJSONData reference reply := by
  obtain ⟨own,pageSize,token⟩ := task
  subst same
  rfl

-- A result or an error, never both.
inductive Answered : Answer → Prop where
  | page (result : FIRStorageListResult) : Answered (some result,none)
  | failed (error : FIRStorageError) : Answered (none,some error)

theorem answer_cases (reply : Reply) : Answered (answerTo frs_dictionaryFromJSONData reference reply) := by
  obtain ⟨data,error⟩ := reply
  cases error with
  | some error => exact .failed _
  | none =>
      simp only [answerTo,FIRStorageListTask.fetcherCompletion]
      split
      · exact .page _
      · exact .failed _

-- How a listing stands after its answers: it waits for a page that a token announced, or has ended with the last answer.
inductive Stands (answers : List Answer) (listing : ListAll) : Prop where
  | waiting (task : FIRStorageListTask) : listing.task = some task → task.reference = listing.reference →
      (∀ answer ∈ answers, (nextToken answer).isSome = true) → listing.completions = [] → Stands answers listing
  | ended (earlier : List Answer) (last : Answer) : listing.task = none → answers = earlier ++ [last] →
      (∀ answer ∈ earlier, (nextToken answer).isSome = true) → nextToken last = none →
      listing.completions = (last.2.toList.map fun error => (none,some error)) ++
        [(some ⟨answers.flatMap foldersOf,answers.flatMap itemsOf,none⟩,none)] → Stands answers listing

def requestFor (reference : FIRStoragePath) (token : Option Text) : QueryParams :=
  FIRStorageListTask.queryParams ⟨reference,none,token⟩

structure Told (reference : FIRStoragePath) (answers : List Answer) (listing : ListAll) : Prop where
  own : listing.reference = reference
  prefixes : listing.prefixes = answers.flatMap foldersOf
  items : listing.items = answers.flatMap itemsOf
  requests : listing.requests = (none :: (answers.filterMap nextToken).map some).map (requestFor reference)
  stands : Stands answers listing

theorem initial_told : Told reference [] (listAll reference) :=
  ⟨rfl,rfl,rfl,rfl,.waiting _ rfl rfl (by simp) rfl⟩

theorem told_next (told : Told reference answers listing) (announced : ∀ answer ∈ answers, (nextToken answer).isSome = true)
    (silent : listing.completions = []) (one : Answered answer) :
    Told reference (answers ++ [answer]) ({listing with task := none}.paginatedCompletion answer) := by
  obtain ⟨own,prefixes,items,requests,_⟩ := told
  cases one with
  | page result =>
      cases token : result.pageToken with
      | some pageToken =>
          have next : nextToken (some result,none) = some pageToken := token
          simp only [ListAll.paginatedCompletion,next,Option.isSome_none]
          refine ⟨own,?_,?_,?_,.waiting _ rfl rfl (snoc_all announced (by simp [next])) silent⟩
          · simp [ListAll.enqueue,prefixes]
          · simp [ListAll.enqueue,items]
          · simp [ListAll.enqueue,requests,own,requestFor,next]
      | none =>
          have next : nextToken (some result,none) = none := token
          simp only [ListAll.paginatedCompletion,next,Option.isSome_none]
          refine ⟨own,?_,?_,?_,.ended answers _ rfl rfl announced next ?_⟩
          · simp [ListAll.complete,prefixes]
          · simp [ListAll.complete,items]
          · simp [ListAll.complete,requests,next]
          · simp [ListAll.complete,silent,prefixes,items]
  | failed error =>
      have next : nextToken (none,some error) = none := rfl
      simp only [ListAll.paginatedCompletion,next,Option.isSome_some,if_true]
      refine ⟨own,?_,?_,?_,.ended answers _ rfl rfl announced next ?_⟩
      · simp [ListAll.complete,prefixes]
      · simp [ListAll.complete,items]
      · simp [ListAll.complete,requests,next]
      · simp [ListAll.complete,silent,prefixes,items]

theorem told_preserved (told : Told reference answers listing)
    (accepted : advance frs_dictionaryFromJSONData listing reply = some after) :
    Told reference (answers ++ [answerTo frs_dictionaryFromJSONData reference reply]) after := by
  cases told.stands with
  | ended earlier last idle => simp [advance,idle] at accepted
  | waiting task pending ours announced silent =>
      rw [told.own] at ours
      simp only [advance,pending,fetcherCompletion_answer ours,Option.some.injEq] at accepted
      subst after
      exact told_next told announced silent (answer_cases reply)

theorem runs_told (path : Runs (advance frs_dictionaryFromJSONData) (listAll reference) replies listing) :
    Told reference (replies.map (answerTo frs_dictionaryFromJSONData reference)) listing := by
  induction path with
  | nil => exact initial_told
  | step prior accepted ih =>
      rw [List.map_append]
      exact told_preserved ih accepted

-- Every page is asked for with the token of the page before it, and only the last answer is heard of: as the whole
-- listing, or as an error and after it the listing of the pages before.
theorem listAll_exact (path : Runs (advance frs_dictionaryFromJSONData) (listAll reference) replies listing) :
    let answers := replies.map (answerTo frs_dictionaryFromJSONData reference)
    listing.requests = (none :: (answers.filterMap nextToken).map some).map (requestFor reference) ∧
    Stands answers listing :=
  ⟨(runs_told path).requests,(runs_told path).stands⟩

-- Two pages as they come over the wire: {"prefixes":["F/g/"],"items":[{"name":"F/a"}],"nextPageToken":"t"} and
-- {"items":[{"name":"F/b"}]}.
def firstPage : NSData :=
  [123,34,112,114,101,102,105,120,101,115,34,58,91,34,70,47,103,47,34,93,44,34,105,116,101,109,115,34,58,91,
    123,34,110,97,109,101,34,58,34,70,47,97,34,125,93,44,34,110,101,120,116,80,97,103,101,84,111,107,101,110,
    34,58,34,116,34,125]
def lastPage : NSData :=
  [123,34,105,116,101,109,115,34,58,91,123,34,110,97,109,101,34,58,34,70,47,98,34,125,93,125]

def readPage (data : NSData) : Option ResponseDictionary :=
  if data = firstPage then some ⟨some [['F','/','g','/']],some [['F','/','a']],some ['t']⟩
  else if data = lastPage then some ⟨none,some [['F','/','b']],none⟩
  else none

def folderF : FIRStoragePath := ⟨['c','a','n','v','a','s'],some ['F']⟩

theorem listAll_exact_interrupted :
    let replies : List Reply := [⟨some firstPage,none⟩,⟨none,some ⟨.status,404,.none⟩⟩]
    ∃ listing, Runs (advance readPage) (listAll folderF) replies listing ∧ listing.completions.length = 2 ∧
      Stands (replies.map (answerTo readPage folderF)) listing := by
  intro replies
  have path : Runs (advance readPage) (listAll folderF) replies _ := run_exact.mp rfl
  exact ⟨_,path,rfl,(listAll_exact path).2⟩

end Answers

section Serving
variable {serve : QueryParams → ResponseDictionary} {names : List Text}

-- The pages a service hands out from a request on, each asked for with the token of the one before.
inductive Pages (serve : QueryParams → ResponseDictionary) : QueryParams → Nat → List Text → List Text → Prop where
  | last (request : QueryParams) : (serve request).nextPageToken = none →
      Pages serve request 1 (serve request).itemNames (serve request).folderNames
  | more {items folders : List Text} {count : Nat} (request : QueryParams) (token : Text) :
      (serve request).nextPageToken = some token → Pages serve {request with pageToken := some token} count items folders →
      Pages serve request (count+1) ((serve request).itemNames ++ items) ((serve request).folderNames ++ folders)

-- The service lists the objects of a bucket, over however many pages and in whatever order.
def Lists (serve : QueryParams → ResponseDictionary) (names : List Text) : Prop :=
  ∀ request, request.delimiter = ['/'] → request.maxResults = none → request.pageToken = none →
    ∃ count items folders, Pages serve request count items folders ∧
      items.Perm (entries '/' (request.prefixParam.getD []) names) ∧
      folders.Perm (DelimitedListing.folders '/' (request.prefixParam.getD []) names)

-- Each reply is the page the pending task asked for.
def Truthful (frs_dictionaryFromJSONData : NSData → Option ResponseDictionary) (serve : QueryParams → ResponseDictionary)
    (listing : ListAll) (reply : Reply) : Prop :=
  reply.error = none ∧ ∀ task, listing.task = some task →
    reply.data.bind frs_dictionaryFromJSONData = some (serve task.queryParams)

inductive Reading (serve : QueryParams → ResponseDictionary) (reference : FIRStoragePath) (count : Nat)
    (items folders : List Text) (answered : Nat) (listing : ListAll) : Prop where
  | going (token : Option Text) (left : Nat) (rest restFolders : List Text) :
      listing.task = some ⟨reference,none,token⟩ → listing.reference = reference → listing.completions = [] →
      Pages serve (requestFor reference token) left rest restFolders → answered + left = count →
      listing.items ++ rest.map (itemAt reference) = items.map (itemAt reference) →
      listing.prefixes ++ restFolders.map (folderAt reference) = folders.map (folderAt reference) →
      Reading serve reference count items folders answered listing
  | done : listing.task = none → answered = count → listing.completions =
      [(some ⟨folders.map (folderAt reference),items.map (itemAt reference),none⟩,none)] →
      Reading serve reference count items folders answered listing

theorem reading_preserved {items folders : List Text} (reading : Reading serve reference count items folders answered listing)
    (truthful : Truthful frs_dictionaryFromJSONData serve listing reply)
    (accepted : advance frs_dictionaryFromJSONData listing reply = some after) :
    Reading serve reference count items folders (answered+1) after := by
  cases reading with
  | done idle _ _ => simp [advance,idle] at accepted
  | going token left rest restFolders pending own silent pages remaining gathered gatheredFolders =>
      obtain ⟨quiet,served⟩ := truthful
      have page : reply.data.bind frs_dictionaryFromJSONData = some (serve (requestFor reference token)) := served _ pending
      have answer : FIRStorageListTask.fetcherCompletion frs_dictionaryFromJSONData ⟨reference,none,token⟩ reply.data
          reply.error = (some (fromDictionary (serve (requestFor reference token)) reference),none) := by
        simp [FIRStorageListTask.fetcherCompletion,quiet,page]
      simp only [advance,pending,answer,Option.some.injEq] at accepted
      subst after
      cases pages with
      | last request final =>
          have next : nextToken (some (fromDictionary (serve (requestFor reference token)) reference),none) = none := final
          simp only [ListAll.paginatedCompletion,next,Option.isSome_none]
          refine .done rfl remaining ?_
          simp [ListAll.complete,silent,foldersOf,itemsOf,fromDictionary,← gathered,← gatheredFolders]
      | more request following announced later =>
          have next : nextToken (some (fromDictionary (serve (requestFor reference token)) reference),none) =
            some following := announced
          simp only [ListAll.paginatedCompletion,next,Option.isSome_none]
          refine .going (some following) _ _ _ (by simp [ListAll.enqueue,own]) own silent later (by omega) ?_ ?_
          · rw [← gathered]
            simp [ListAll.enqueue,itemsOf,fromDictionary]
          · rw [← gatheredFolders]
            simp [ListAll.enqueue,foldersOf,fromDictionary]

theorem runs_reading {items folders : List Text} (pages : Pages serve (requestFor reference none) count items folders)
    (path : Runs (advance frs_dictionaryFromJSONData) (listAll reference) replies listing)
    (truthful : EachStep (advance frs_dictionaryFromJSONData) (listAll reference) replies
      (Truthful frs_dictionaryFromJSONData serve)) :
    Reading serve reference count items folders replies.length listing := by
  induction path with
  | nil => exact .going none count items folders rfl rfl rfl pages (Nat.zero_add _) rfl rfl
  | step prior accepted ih =>
      rw [List.length_append,List.length_singleton]
      exact reading_preserved (ih truthful.front) (truthful.final prior) accepted

theorem Pages.some_left {items folders : List Text} (pages : Pages serve request left items folders) : 0 < left := by
  cases pages with
  | last _ _ => exact Nat.one_pos
  | more _ _ _ _ => exact Nat.succ_pos _

theorem fullPath_tidy (canonical : Canonical reference) : Tidy '/' (fullPath reference) := by
  cases known : reference.object with
  | none => simp [fullPath,known,Tidy,rejoin,components]
  | some object =>
      have own : some object = some (rejoin '/' object) := by
        rw [Canonical,known] at canonical
        exact canonical
      simpa [fullPath,known,Tidy] using (Option.some.inj own).symm

theorem itemAt_tidy (nonempty : name ≠ []) (tidy : Tidy '/' name) : itemAt reference name = ⟨reference.bucket,some name⟩ := by
  have whole : CanvasPainter.FIRStoragePath.standardizedPathForString name = name := tidy
  simp [itemAt,FIRStoragePath.child,FIRStoragePath.root,initWithBucket,nonempty,whole]

theorem folderAt_tidy (nonempty : name ≠ []) (tidy : Tidy '/' name) :
    folderAt reference (name ++ ['/']) = ⟨reference.bucket,some name⟩ := by
  have cut : pathWithoutTrailingSlash (name ++ ['/']) = name := by simp [pathWithoutTrailingSlash]
  rw [folderAt,cut]
  exact itemAt_tidy nonempty tidy

def Stored (names : List Text) (path : FIRStoragePath) : Prop := ∃ object ∈ names, path.object = some object

-- One component below a folder.
def DirectlyUnder (reference path : FIRStoragePath) : Prop :=
  path.bucket = reference.bucket ∧
    ∃ single, path.object.map (components '/') = some (components '/' (fullPath reference) ++ [single])

-- Some stored object is further down.
def Leads (names : List Text) (path : FIRStoragePath) : Prop :=
  ∃ object ∈ names, ∃ rest, rest ≠ [] ∧ components '/' object = components '/' (fullPath path) ++ rest

theorem requestFor_inside : (requestFor reference token).prefixParam.getD [] = insideOf '/' (fullPath reference) := by
  by_cases top : fullPath reference = []
  · simp [requestFor,FIRStorageListTask.queryParams,insideOf,top]
  · simp [requestFor,FIRStorageListTask.queryParams,insideOf,top]

theorem listed_items (canonical : Canonical reference) (valid : ∀ name ∈ names, name ≠ [] ∧ Tidy '/' name)
    (item : FIRStoragePath) : item ∈ (entries '/' (insideOf '/' (fullPath reference)) names).map (itemAt reference) ↔
      Stored names item ∧ DirectlyUnder reference item := by
  rw [List.mem_map]
  simp only [entries_components (fullPath_tidy canonical) valid]
  constructor
  · rintro ⟨name,⟨stored,single,split⟩,rfl⟩
    rw [itemAt_tidy (valid name stored).1 (valid name stored).2]
    exact ⟨⟨name,stored,rfl⟩,rfl,single,congrArg some split⟩
  · rintro ⟨⟨name,stored,known⟩,same,single,split⟩
    rw [known] at split
    refine ⟨name,⟨stored,single,Option.some.inj split⟩,?_⟩
    rw [itemAt_tidy (valid name stored).1 (valid name stored).2,← same,← known]

-- The text of a path one component below a folder.
def below (reference : FIRStoragePath) (single : Text) : Text := ['/'].intercalate (components '/' (fullPath reference) ++ [single])

theorem below_parts (reference : FIRStoragePath) (plain : single ≠ [] ∧ '/' ∉ single) : Tidy '/' (below reference single) ∧
    components '/' (below reference single) = components '/' (fullPath reference) ++ [single] ∧ below reference single ≠ [] := by
  have every : ∀ piece ∈ components '/' (fullPath reference) ++ [single], piece ≠ [] ∧ '/' ∉ piece :=
    snoc_all (fun _ => components_plain) plain
  have parts : components '/' (below reference single) = _ := components_intercalate every
  refine ⟨tidy_intercalate every,parts,fun nothing => ?_⟩
  rw [nothing] at parts
  simp [components] at parts

theorem folders_below (canonical : Canonical reference) (valid : ∀ name ∈ names, name ≠ [] ∧ Tidy '/' name) :
    entry ∈ DelimitedListing.folders '/' (insideOf '/' (fullPath reference)) names ↔
      ∃ object ∈ names, ∃ single tail, tail ≠ [] ∧
        components '/' object = components '/' (fullPath reference) ++ single :: tail ∧
        (single ≠ [] ∧ '/' ∉ single) ∧ entry = below reference single ++ ['/'] := by
  rw [folders_components (fullPath_tidy canonical) valid]
  refine exists_congr fun object => and_congr_right fun _ => exists_congr fun single => exists_congr fun tail =>
    and_congr_right fun _ => and_congr_right fun split => ?_
  have plain : single ≠ [] ∧ '/' ∉ single := components_plain (split ▸ List.mem_append_right _ List.mem_cons_self)
  exact (and_iff_right plain).symm

theorem listed_folders (canonical : Canonical reference) (valid : ∀ name ∈ names, name ≠ [] ∧ Tidy '/' name)
    (path : FIRStoragePath) :
    path ∈ (DelimitedListing.folders '/' (insideOf '/' (fullPath reference)) names).map (folderAt reference) ↔
      Canonical path ∧ DirectlyUnder reference path ∧ Leads names path := by
  rw [List.mem_map]
  simp only [folders_below canonical valid]
  constructor
  · rintro ⟨name,⟨object,stored,single,tail,nonempty,split,plain,rfl⟩,rfl⟩
    obtain ⟨tidy,parts,named⟩ := below_parts reference plain
    rw [folderAt_tidy named tidy]
    refine ⟨congrArg some tidy.symm,⟨rfl,single,congrArg some parts⟩,object,stored,tail,nonempty,?_⟩
    change _ = components '/' (below reference single) ++ tail
    rw [parts,split,List.append_assoc]
    rfl
  · rintro ⟨own,⟨same,single,split⟩,object,stored,rest,nonempty,leads⟩
    obtain ⟨text,known,parts⟩ := Option.map_eq_some_iff.mp split
    have plain : single ≠ [] ∧ '/' ∉ single := components_plain (parts ▸ List.mem_append_right _ List.mem_cons_self)
    obtain ⟨tidy,_,named⟩ := below_parts reference plain
    have whole : text = below reference single := by
      rw [Canonical,known] at own
      rw [below,← parts]
      exact Option.some.inj own
    have full : fullPath path = text := by simp [fullPath,known]
    refine ⟨_,⟨object,stored,single,rest,nonempty,?_,plain,rfl⟩,?_⟩
    · rw [leads,full,parts,List.append_assoc]
      rfl
    · rw [folderAt_tidy named tidy,← same,← whole,← known]

def Complete (reference : FIRStoragePath) (names : List Text) (result : FIRStorageListResult) : Prop :=
  result.pageToken = none ∧
  (result.items.Nodup ∧ ∀ item, item ∈ result.items ↔ Stored names item ∧ DirectlyUnder reference item) ∧
  result.prefixes.Nodup ∧ ∀ path, path ∈ result.prefixes ↔
    Canonical path ∧ DirectlyUnder reference path ∧ Leads names path

theorem served_complete {items folders : List Text} (canonical : Canonical reference) (distinct : names.Nodup)
    (valid : ∀ name ∈ names, name ≠ [] ∧ Tidy '/' name)
    (own : items.Perm (entries '/' (insideOf '/' (fullPath reference)) names))
    (lead : folders.Perm (DelimitedListing.folders '/' (insideOf '/' (fullPath reference)) names)) :
    Complete reference names ⟨folders.map (folderAt reference),items.map (itemAt reference),none⟩ := by
  refine ⟨rfl,⟨?_,fun item => ?_⟩,?_,fun path => ?_⟩
  · rw [(own.map _).nodup_iff]
    refine List.Nodup.map_on ?_ (distinct.filter _)
    intro one first two second same
    have left := valid one (mem_entries.mp first).1
    have right := valid two (mem_entries.mp second).1
    rw [itemAt_tidy left.1 left.2,itemAt_tidy right.1 right.2] at same
    exact Option.some.inj (congrArg FIRStoragePath.object same)
  · rw [(own.map _).mem_iff]
    exact listed_items canonical valid item
  · rw [(lead.map _).nodup_iff]
    refine List.Nodup.map_on ?_ (List.nodup_dedup _)
    intro one first two second same
    obtain ⟨_,_,_,_,_,_,plain,rfl⟩ := (folders_below canonical valid).mp first
    obtain ⟨_,_,_,_,_,_,level,rfl⟩ := (folders_below canonical valid).mp second
    obtain ⟨tidy,_,nonempty⟩ := below_parts reference plain
    obtain ⟨whole,_,more⟩ := below_parts reference level
    rw [folderAt_tidy nonempty tidy,folderAt_tidy more whole] at same
    rw [Option.some.inj (congrArg FIRStoragePath.object same)]
  · rw [(lead.map _).mem_iff]
    exact listed_folders canonical valid path

-- After as many replies as there are pages the listing has ended, with the folder's own objects as its items, each
-- once, and the folders one level down that lead to an object as its prefixes.
theorem listAll_lists (frs_dictionaryFromJSONData : NSData → Option ResponseDictionary)
    (canonical : Canonical reference) (distinct : names.Nodup)
    (valid : ∀ name ∈ names, name ≠ [] ∧ Tidy '/' name) (lists : Lists serve names) :
    ∃ count, ∀ replies listing, Runs (advance frs_dictionaryFromJSONData) (listAll reference) replies listing →
      EachStep (advance frs_dictionaryFromJSONData) (listAll reference) replies (Truthful frs_dictionaryFromJSONData serve) →
      if replies.length < count then listing.task.isSome = true ∧ listing.completions = []
      else listing.task = none ∧ ∃ result, listing.completions = [(some result,none)] ∧ Complete reference names result := by
  obtain ⟨count,items,folders,pages,own,lead⟩ := lists (requestFor reference none) rfl rfl rfl
  rw [requestFor_inside] at own lead
  refine ⟨count,fun replies listing path truthful => ?_⟩
  cases runs_reading pages path truthful with
  | going _ left _ _ pending _ silent later remaining =>
      have more := later.some_left
      rw [if_pos (by omega)]
      exact ⟨by simp [pending],silent⟩
  | done idle all completions =>
      rw [if_neg (by omega)]
      exact ⟨idle,_,completions,served_complete canonical distinct valid own lead⟩

instance (serve : QueryParams → ResponseDictionary) (listing : ListAll) (reply : Reply) :
    Decidable (Truthful frs_dictionaryFromJSONData serve listing reply) :=
  inferInstanceAs (Decidable (reply.error = none ∧ ∀ task, listing.task = some task →
    reply.data.bind frs_dictionaryFromJSONData = some (serve task.queryParams)))

def objects : List Text := [['F','/','a'],['x'],['F','/','b'],['F','/','g','/','c']]

-- One item on the first page and the others on a second.
def serveTwo (names : List Text) (request : QueryParams) : ResponseDictionary :=
  let items := entries '/' (request.prefixParam.getD []) names
  if request.pageToken = none then
    ⟨some (DelimitedListing.folders '/' (request.prefixParam.getD []) names),some (items.take 1),some ['t']⟩
  else ⟨none,some (items.drop 1),none⟩

theorem serveTwo_lists : Lists (serveTwo names) names := by
  intro request _ _ first
  have last : Pages (serveTwo names) {request with pageToken := some ['t']} 1 _ _ := .last _ rfl
  have pages := Pages.more request ['t'] (by simp [serveTwo,first]) last
  refine ⟨_,_,_,pages,?_,?_⟩
  · simp [serveTwo,first,ResponseDictionary.itemNames,-List.drop_one]
  · simp [serveTwo,first,ResponseDictionary.folderNames]

theorem listAll_lists_twoPages :
    ∃ listing result, Runs (advance readPage) (listAll folderF) [⟨some firstPage,none⟩,⟨some lastPage,none⟩] listing ∧
      listing.completions = [(some result,none)] ∧ Complete folderF objects result := by
  obtain ⟨count,all⟩ := listAll_lists readPage (by decide : Canonical folderF) (by decide : objects.Nodup)
    (by decide) serveTwo_lists
  have path : Runs (advance readPage) (listAll folderF) [⟨some firstPage,none⟩,⟨some lastPage,none⟩] _ := run_exact.mp rfl
  have both := all _ _ path (by decide)
  split at both
  · exact absurd both.1 (by decide)
  · obtain ⟨_,result,completions,complete⟩ := both
    exact ⟨_,result,path,completions,complete⟩

end Serving

end CanvasPainter.StorageURLs.Listing
