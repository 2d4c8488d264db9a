import CanvasPainter.StorageRoundTrips

namespace CanvasPainter.StorageURLs
open SeparatedComponents PercentEncoding
variable {text path rest query bucket object : Text}

def gcsAllowed (c : Char) : Bool := kGCSObjectAllowedCharacterSet.contains c

theorem escaped_encode : GCSEscapedString text = encode gcsAllowed text := rfl

-- What has a meaning between the parts of a URL.
abbrev urlSyntax : Text := ['/','?','#','&','+',';','[',']']

theorem allowed_table : kGCSObjectAllowedCharacterSet.all
    (fun c => urlCharacters.contains c && !urlSyntax.contains c && c != '%') = true := by decide

theorem escape_table : ('%' :: hexDigits).all (fun c => urlCharacters.contains c && !urlSyntax.contains c) = true := by
  decide

theorem allowed_facts (inside : c ∈ kGCSObjectAllowedCharacterSet) : c ∈ urlCharacters ∧ c ∉ urlSyntax ∧ c ≠ '%' := by
  have facts := List.all_eq_true.mp allowed_table c inside
  simpa [and_assoc] using facts

theorem escape_facts (inside : c ∈ '%' :: hexDigits) : c ∈ urlCharacters ∧ c ∉ urlSyntax := by
  have facts := List.all_eq_true.mp escape_table c inside
  simpa using facts

-- Escaped text is made of characters of URLs and says nothing to their syntax.
theorem escaped_characters (inside : c ∈ GCSEscapedString text) : c ∈ urlCharacters ∧ c ∉ urlSyntax := by
  rcases encode_characters (escaped_encode ▸ inside) with kept | percent | digit
  · have facts := allowed_facts (by simpa [gcsAllowed] using kept.1)
    exact ⟨facts.1,facts.2.1⟩
  · exact escape_facts (percent ▸ List.mem_cons_self)
  · exact escape_facts (List.mem_cons_of_mem _ digit)

theorem escaped_decode : decode (GCSEscapedString text) = some text := decode_encode (by decide)

theorem escaped_bytes : decodeBytes (GCSEscapedString text ++ query) =
    (decodeBytes query).map (text.flatMap String.utf8EncodeChar ++ ·) := decode_encode_append (by decide)

theorem address_table : (kFIRStorageScheme ++ [':','/','/'] ++ kFIRStorageHost).all
    (fun c => urlCharacters.contains c && c != '%') = true := by decide

theorem address_plain (inside : c ∈ kFIRStorageScheme ++ [':','/','/'] ++ kFIRStorageHost) : c ∈ urlCharacters ∧ c ≠ '%' := by
  have facts := List.all_eq_true.mp address_table c inside
  simpa using facts

theorem host_table : kFIRStorageHost.all (fun c => !authorityEnds.contains c) = true := by decide

theorem host_alone : (withoutUser kFIRStorageHost).takeWhile (fun c => c ≠ ':') = kFIRStorageHost := by rfl

-- Of an address under the storage host, the path is what stands before the query.
theorem url_read (rooted : path = '/' :: rest) (unmarked : ∀ c ∈ path, pathEnds.contains c = false)
    (queried : ∀ c, query.head? = some c → c = '?') (legal : ∀ c ∈ path ++ query, c ∈ urlCharacters)
    (decodes : (decodeBytes (path ++ query)).isSome = true) :
    URLWithString (absoluteString path ++ query) = some ⟨kFIRStorageHost,path⟩ := by
  have whole : absoluteString path ++ query =
      (kFIRStorageScheme ++ [':','/','/'] ++ kFIRStorageHost) ++ (path ++ query) := by simp [absoluteString]
  have all : (absoluteString path ++ query).all urlCharacters.contains = true := by
    rw [whole,List.all_append,Bool.and_eq_true]
    refine ⟨List.all_eq_true.mpr fun c inside => ?_,List.all_eq_true.mpr fun c inside => ?_⟩
    · simpa using (address_plain inside).1
    · simpa using legal c inside
  have readable : (decodeBytes (absoluteString path ++ query)).isSome = true := by
    rw [whole,decode_unescaped fun inside => (address_plain inside).2 rfl]
    simpa using decodes
  have after : (absoluteString path ++ query).drop 8 = kFIRStorageHost ++ (path ++ query) := by
    rw [whole]
    rfl
  have secure : httpsStart.isPrefixOf (absoluteString path ++ query) = true := by
    rw [whole]
    rfl
  have outside := List.all_eq_true.mp host_table
  have authority : (kFIRStorageHost ++ (path ++ query)).takeWhile (fun c => !authorityEnds.contains c) = kFIRStorageHost ∧
      (kFIRStorageHost ++ (path ++ query)).dropWhile (fun c => !authorityEnds.contains c) = path ++ query := by
    rw [List.takeWhile_append_of_pos outside,List.dropWhile_append_of_pos outside,rooted]
    simp
  have inner : ∀ c ∈ path, (!pathEnds.contains c) = true := by
    intro c inside
    rw [unmarked c inside]
    rfl
  have front : (path ++ query).takeWhile (fun c => !pathEnds.contains c) = path := by
    rw [List.takeWhile_append_of_pos inner]
    cases query with
    | nil => simp
    | cons c others =>
        have mark := queried c rfl
        subst c
        simp
  rw [URLWithString,if_pos secure,after,if_pos ⟨all,readable⟩,authority.1,authority.2,front]
  simp only [host_alone]

-- The path of an address, of the pieces between its slashes.
def addressPath (pieces : List Text) : Text := '/' :: ['/'].intercalate pieces

structure Piece (piece : Text) : Prop where
  nonempty : piece ≠ []
  plain : ∀ c ∈ piece, c ∈ urlCharacters ∧ c ∉ authorityEnds
  decodes : ∀ rest, (decodeBytes rest).isSome = true → (decodeBytes (piece ++ rest)).isSome = true

theorem plain_piece (nonempty : text ≠ []) (plain : ∀ c ∈ text, c ∈ kGCSObjectAllowedCharacterSet) : Piece text := by
  refine ⟨nonempty,fun c inside => ?_,fun rest decodes => ?_⟩
  · have facts := allowed_facts (plain c inside)
    exact ⟨facts.1,fun mark => facts.2.1 (List.mem_append_left _ mark)⟩
  · rw [decode_unescaped fun percent => (allowed_facts (plain '%' percent)).2.2 rfl]
    simpa using decodes

theorem escaped_piece (nonempty : text ≠ []) : Piece (GCSEscapedString text) := by
  refine ⟨fun nothing => nonempty (encode_empty.mp nothing),fun c inside => ?_,fun rest decodes => ?_⟩
  · obtain ⟨legal,unmarked⟩ := escaped_characters inside
    refine ⟨legal,fun mark => unmarked ?_⟩
    exact List.mem_append_left _ mark
  · rw [escaped_bytes]
    simpa using decodes

theorem addressPath_characters (pieces : ∀ piece ∈ parts, Piece piece) :
    ∀ c ∈ addressPath parts, c ∈ urlCharacters ∧ pathEnds.contains c = false := by
  have slash : '/' ∈ urlCharacters ∧ pathEnds.contains '/' = false := by decide +kernel
  intro c inside
  rcases List.mem_cons.mp inside with same | inside
  · exact same ▸ slash
  · rcases mem_intercalate inside with same | ⟨piece,member,inner⟩
    · exact same ▸ slash
    · obtain ⟨legal,unmarked⟩ := (pieces piece member).plain c inner
      refine ⟨legal,?_⟩
      simp only [List.mem_cons,not_or] at unmarked
      simp [unmarked]

theorem addressPath_decodes (pieces : ∀ piece ∈ parts, Piece piece) (tail : (decodeBytes query).isSome = true) :
    (decodeBytes (addressPath parts ++ query)).isSome = true := by
  have slash : ∀ rest : Text, (decodeBytes rest).isSome = true → (decodeBytes ('/' :: rest)).isSome = true := by
    intro rest decodes
    rw [decode_plain (by decide)]
    simpa using decodes
  have inner : (decodeBytes (['/'].intercalate parts ++ query)).isSome = true := by
    induction parts with
    | nil => exact tail
    | cons first rest ih =>
        have later := ih fun piece member => pieces piece (List.mem_cons_of_mem _ member)
        have here := (pieces first List.mem_cons_self).decodes
        by_cases single : rest = []
        · subst rest
          simpa using here query tail
        · rw [List.intercalate_cons_of_ne_nil single,List.append_assoc,List.append_assoc]
          exact here _ (slash _ later)
  exact slash _ inner

theorem addressPath_components (pieces : ∀ piece ∈ parts, Piece piece) : components '/' (addressPath parts) = parts := by
  have plain : ∀ piece ∈ parts, piece ≠ [] ∧ '/' ∉ piece := by
    intro piece inside
    refine ⟨(pieces piece inside).nonempty,fun slash => ?_⟩
    exact ((pieces piece inside).plain '/' slash).2 (by decide)
  have joined : components '/' ([] ++ addressPath parts) = components '/' [] ++ components '/' (['/'].intercalate parts) :=
    components_append
  rw [components_intercalate plain] at joined
  simpa [components] using joined

-- Read as a URL, an address gives back what its pieces say.
theorem address_read (pieces : ∀ piece ∈ parts, Piece piece) (decoded : parts.mapM decode = some texts)
    (queried : ∀ c, query.head? = some c → c = '?') (legal : ∀ c ∈ query, c ∈ urlCharacters)
    (tail : (decodeBytes query).isSome = true) : ∃ url, URLWithString (absoluteString (addressPath parts) ++ query) = some url ∧
      url.host = kFIRStorageHost ∧ url.pathComponents = ['/'] :: texts := by
  have characters := addressPath_characters pieces
  have read : URLWithString (absoluteString (addressPath parts) ++ query) = some ⟨kFIRStorageHost,addressPath parts⟩ :=
    url_read rfl (fun c inside => (characters c inside).2) queried
      (fun c inside => (List.mem_append.mp inside).elim (fun front => (characters c front).1) (legal c))
      (addressPath_decodes pieces tail)
  refine ⟨_,read,rfl,?_⟩
  simp only [NSURL.pathComponents]
  rw [addressPath_components pieces,decoded]
  rfl

def bucketPieces (bucket : Text) : List Text := [kFIRStorageVersionPath,['b'],bucket,['o']]

theorem bucketPieces_piece (piece : Piece text) : ∀ part ∈ bucketPieces text, Piece part := by
  have plain : Piece kFIRStorageVersionPath ∧ Piece ['b'] ∧ Piece ['o'] := by
    refine ⟨?_,?_,?_⟩ <;> apply plain_piece <;> simp [kFIRStorageVersionPath,kGCSObjectAllowedCharacterSet]
  simp [bucketPieces,piece,plain]

theorem bucketPieces_decode (decoded : decode text = some bucket) :
    (bucketPieces text).mapM decode = some (bucketPieces bucket) := by
  have plain : decode kFIRStorageVersionPath = some kFIRStorageVersionPath ∧ decode ['b'] = some ['b'] ∧ decode ['o'] = some ['o'] :=
    ⟨decode_same (by decide),decode_same (by decide),decode_same (by decide)⟩
  simp [bucketPieces,plain,decoded]

theorem object_read (bucketPiece : Piece text) (objectPiece : Piece rest) (bucketRead : decode text = some bucket)
    (objectRead : decode rest = some object) (named : bucket ≠ []) (nonempty : object ≠ [])
    (queried : ∀ c, query.head? = some c → c = '?') (legal : ∀ c ∈ query, c ∈ urlCharacters)
    (tail : (decodeBytes query).isSome = true) :
    pathFromHTTPURL (absoluteString (addressPath (bucketPieces text ++ [rest])) ++ query) =
      some (initWithBucket bucket (some object)) := by
  have pieces : ∀ part ∈ bucketPieces text ++ [rest], Piece part := by
    intro part inside
    rcases List.mem_append.mp inside with front | last
    · exact bucketPieces_piece bucketPiece part front
    · exact List.mem_singleton.mp last ▸ objectPiece
  have decoded : (bucketPieces text ++ [rest]).mapM decode = some (bucketPieces bucket ++ [object]) := by
    simp [List.mapM_append,bucketPieces_decode bucketRead,objectRead]
  obtain ⟨url,read,host,parts⟩ := address_read pieces decoded queried legal tail
  rw [pathFromHTTPURL,read]
  simp [host,parts,bucketPieces,named,nonempty]

theorem bucket_read (bucketPiece : Piece text) (bucketRead : decode text = some bucket) (named : bucket ≠ []) :
    pathFromHTTPURL (absoluteString (addressPath (bucketPieces text))) = some (initWithBucket bucket none) := by
  have nothing : (decodeBytes []).isSome = true := rfl
  obtain ⟨url,read,host,parts⟩ := address_read (bucketPieces_piece bucketPiece) (bucketPieces_decode bucketRead)
    (by simp) (by simp) nothing
  rw [List.append_nil] at read
  rw [pathFromHTTPURL,read]
  simp [host,parts,bucketPieces,named]

-- A request's address names the object it is about.
theorem request_round_trip (path : FIRStoragePath) (canonical : Canonical path) (named : path.bucket ≠ [])
    (blank : path.object ≠ some []) : pathFromHTTPURL (defaultRequestForPath path) = some path := by
  have bucketPiece : Piece (GCSEscapedString path.bucket) := escaped_piece named
  have plain : GCSEscapedString path.bucket ≠ [] := bucketPiece.nonempty
  cases known : path.object with
  | none =>
      have address : encodedURLForPath path = addressPath (bucketPieces (GCSEscapedString path.bucket)) := by
        simp [encodedURLForPath,known,plain,addressPath,bucketPieces,kFIRStorageVersionPath]
      rw [defaultRequestForPath,address,bucket_read bucketPiece escaped_decode named,← known,initWithBucket_same canonical]
  | some object =>
      have nonempty : object ≠ [] := fun nothing => blank (known ▸ nothing ▸ rfl)
      have address : encodedURLForPath path =
          addressPath (bucketPieces (GCSEscapedString path.bucket) ++ [GCSEscapedString object]) := by
        simp [encodedURLForPath,known,plain,addressPath,bucketPieces,kFIRStorageVersionPath]
      have read : pathFromHTTPURL (absoluteString (addressPath (bucketPieces _ ++ [GCSEscapedString object])) ++ []) = _ :=
        object_read bucketPiece (escaped_piece nonempty) escaped_decode escaped_decode named nonempty (by simp) (by simp) rfl
      rw [List.append_nil] at read
      rw [defaultRequestForPath,address,read,← known,initWithBucket_same canonical]

theorem request_round_trip_feedImage : pathFromHTTPURL (defaultRequestForPath feedImage) = some feedImage := by
  have canonical : Canonical feedImage := by decide
  apply request_round_trip feedImage canonical <;> decide

section Downloads
variable {queryAllowed : Char → Bool} {dictionary other : MetadataDictionary}

-- What NSURLComponents leaves unescaped in a query item is itself fit for a URL.
structure QueryEscaping (queryAllowed : Char → Bool) : Prop where
  percent : queryAllowed '%' = false
  legal : ∀ c, queryAllowed c = true → c ∈ urlCharacters

def PlainBucket (dictionary : MetadataDictionary) : Prop :=
  dictionary.bucket ≠ [] ∧ ∀ c ∈ dictionary.bucket, c ∈ kGCSObjectAllowedCharacterSet

def tokenQuery (queryAllowed : Char → Bool) (token : Text) : Text := mediaToken ++ encode queryAllowed token

theorem mediaToken_table : mediaToken.all urlCharacters.contains = true := by decide

theorem tokenQuery_legal (escaping : QueryEscaping queryAllowed) : ∀ c ∈ tokenQuery queryAllowed token, c ∈ urlCharacters := by
  intro c inside
  rcases List.mem_append.mp inside with front | inner
  · simpa using List.all_eq_true.mp mediaToken_table c front
  · rcases encode_characters inner with kept | percent | digit
    · exact escaping.legal c kept.1
    · exact (escape_facts (percent ▸ List.mem_cons_self)).1
    · exact (escape_facts (List.mem_cons_of_mem _ digit)).1

theorem tokenQuery_decodes (escaping : QueryEscaping queryAllowed) :
    (decodeBytes (tokenQuery queryAllowed token)).isSome = true := by
  have bytes : decodeBytes (encode queryAllowed token ++ []) = _ := decode_encode_append escaping.percent
  rw [List.append_nil] at bytes
  rw [tokenQuery,decode_unescaped (by decide),bytes]
  rfl

theorem percentEncodedPath_pieces : percentEncodedPath dictionary =
    addressPath (bucketPieces dictionary.bucket ++ [GCSEscapedString dictionary.name]) := by
  simp [percentEncodedPath,addressPath,bucketPieces,kFIRStorageVersionPath]

theorem digits_table : hexDigits.all kGCSObjectAllowedCharacterSet.contains = true := by decide

theorem path_table : (['/','v','0','/','b','/'] ++ ['/','o','/']).all (fun c => pathCharacters.contains c && c != '%') = true := by
  decide

-- The service's own names make a path that NSURLComponents takes.
theorem path_encoded (plain : PlainBucket dictionary) : percentEncoded (percentEncodedPath dictionary) = true := by
  have allowed : ∀ c ∈ kGCSObjectAllowedCharacterSet, c ∈ pathCharacters := fun c => List.mem_append_left _
  have fixed : ∀ c ∈ ['/','v','0','/','b','/'] ++ ['/','o','/'], c ∈ pathCharacters ∧ c ≠ '%' := by
    intro c inside
    simpa using List.all_eq_true.mp path_table c inside
  have front : ∀ c ∈ ['/','v','0','/','b','/'] ++ dictionary.bucket ++ ['/','o','/'], c ∈ pathCharacters ∧ c ≠ '%' := by
    intro c inside
    rcases List.mem_append.mp inside with first | last
    · rcases List.mem_append.mp first with start | own
      · exact fixed c (List.mem_append_left _ start)
      · exact ⟨allowed c (plain.2 c own),(allowed_facts (plain.2 c own)).2.2⟩
    · exact fixed c (List.mem_append_right _ last)
  have name : ∀ c ∈ GCSEscapedString dictionary.name, c ∈ pathCharacters := by
    intro c inside
    rcases encode_characters (escaped_encode ▸ inside) with kept | percent | digit
    · exact allowed c (by simpa [gcsAllowed] using kept.1)
    · exact percent ▸ (by decide)
    · exact allowed c (by simpa using List.all_eq_true.mp digits_table c digit)
  have bytes : decodeBytes (GCSEscapedString dictionary.name ++ []) = _ := escaped_bytes
  rw [List.append_nil] at bytes
  rw [percentEncoded,Bool.and_eq_true,percentEncodedPath]
  refine ⟨List.all_eq_true.mpr fun c inside => ?_,?_⟩
  · rcases List.mem_append.mp inside with first | last
    · simpa using (front c first).1
    · simpa using name c last
  · rw [decode_unescaped fun inside => (front '%' inside).2 rfl,bytes]
    rfl

theorem downloadURL_address (plain : PlainBucket dictionary) (token : dictionary.downloadTokens = some tokens)
    (issued : tokens ≠ []) : downloadURLFromMetadataDictionary queryAllowed dictionary =
      some (absoluteString (addressPath (bucketPieces dictionary.bucket ++ [GCSEscapedString dictionary.name])) ++
        tokenQuery queryAllowed ((tokens.splitOn ',').headD [])) := by
  have long : tokens.length > 0 := List.length_pos_iff.mpr issued
  rw [← percentEncodedPath_pieces]
  simp only [downloadURLFromMetadataDictionary,token,long,path_encoded plain,and_self,if_true,tokenQuery,List.append_assoc]

theorem downloadURL_reads (escaping : QueryEscaping queryAllowed) (plain : PlainBucket dictionary)
    (named : dictionary.name ≠ []) (url : downloadURLFromMetadataDictionary queryAllowed dictionary = some address) :
    pathFromHTTPURL address = some (initWithBucket dictionary.bucket (some dictionary.name)) := by
  have issued : ∃ tokens, dictionary.downloadTokens = some tokens ∧ tokens ≠ [] := by
    unfold downloadURLFromMetadataDictionary at url
    split at url
    · cases url
    · rename_i tokens token
      obtain ⟨⟨long,_⟩,_⟩ := Option.ite_none_right_eq_some.mp url
      exact ⟨tokens,token,List.length_pos_iff.mp long⟩
  obtain ⟨tokens,token,nonempty⟩ := issued
  rw [downloadURL_address plain token nonempty] at url
  cases url
  have percent : '%' ∉ dictionary.bucket := fun inside => (allowed_facts (plain.2 '%' inside)).2.2 rfl
  apply object_read (plain_piece plain.1 plain.2) (escaped_piece named) (decode_same percent) escaped_decode plain.1 named
  · intro c first
    cases first
    rfl
  · exact tokenQuery_legal escaping
  · exact tokenQuery_decodes escaping

-- A download URL leads back to the object it was made for.
theorem downloadURL_round_trip (escaping : QueryEscaping queryAllowed) (plain : PlainBucket dictionary)
    (canonical : Canonical ⟨dictionary.bucket,some dictionary.name⟩) (named : dictionary.name ≠ [])
    (token : dictionary.downloadTokens = some tokens) (issued : tokens ≠ []) :
    (downloadURLFromMetadataDictionary queryAllowed dictionary).bind pathFromHTTPURL =
      some ⟨dictionary.bucket,some dictionary.name⟩ := by
  have url : downloadURLFromMetadataDictionary queryAllowed dictionary = some _ := downloadURL_address plain token issued
  rw [url,Option.bind_some,downloadURL_reads escaping plain named url]
  exact congrArg some (initWithBucket_same canonical)

def stored : MetadataDictionary := ⟨some ['t','1',',','t','2'],['c','a','n','v','a','s'],['F','e','e','d','/','a','.','p','n','g']⟩

theorem gcsEscaping : QueryEscaping gcsAllowed :=
  ⟨by decide,fun _ kept => (allowed_facts (by simpa [gcsAllowed] using kept)).1⟩

theorem stored_plain : PlainBucket stored := ⟨by simp [stored],by simp [stored,kGCSObjectAllowedCharacterSet]⟩

theorem downloadURL_round_trip_stored : (downloadURLFromMetadataDictionary gcsAllowed stored).bind pathFromHTTPURL =
    some ⟨stored.bucket,some stored.name⟩ := by
  have canonical : Canonical ⟨stored.bucket,some stored.name⟩ := by decide
  apply downloadURL_round_trip gcsEscaping stored_plain canonical (by decide) rfl
  decide

def firstToken (dictionary : MetadataDictionary) : Text := ((dictionary.downloadTokens.getD []).splitOn ',').headD []

-- Only the last slash in front of the query is the name's, and only the first question mark begins the query.
theorem downloadURL_some (url : downloadURLFromMetadataDictionary queryAllowed dictionary = some address) :
    '?' ∉ percentEncodedPath dictionary ∧ address = absoluteString [] ++
      (percentEncodedPath dictionary ++ '?' :: (mediaToken.drop 1 ++ encode queryAllowed (firstToken dictionary))) := by
  unfold downloadURLFromMetadataDictionary at url
  cases known : dictionary.downloadTokens with
  | none => simp [known] at url
  | some tokens =>
      have token : firstToken dictionary = (tokens.splitOn ',').headD [] := by simp [firstToken,known]
      simp only [known] at url
      obtain ⟨⟨_,encoded⟩,same⟩ := Option.ite_none_right_eq_some.mp url
      have characters := List.all_eq_true.mp (Bool.and_eq_true_iff.mp encoded).1
      refine ⟨fun inside => ?_,?_⟩
      · have legal := characters '?' inside
        exact absurd legal (by decide)
      · rw [token,← Option.some.inj same]
        simp [absoluteString]

-- Two objects never share a download URL, nor do two tokens of one object.
theorem downloadURL_injective (percent : queryAllowed '%' = false)
    (url : downloadURLFromMetadataDictionary queryAllowed dictionary = some address)
    (same : downloadURLFromMetadataDictionary queryAllowed other = some address) :
    dictionary.bucket = other.bucket ∧ dictionary.name = other.name ∧ firstToken dictionary = firstToken other := by
  have unmarked : ∀ text : Text, '/' ∉ GCSEscapedString text :=
    fun text inside => (escaped_characters inside).2 (by decide)
  obtain ⟨plain,one⟩ := downloadURL_some url
  obtain ⟨flat,two⟩ := downloadURL_some same
  obtain ⟨paths,query⟩ := front_unique plain flat (List.append_cancel_left (one.symm.trans two))
  have parts : ∀ entry, percentEncodedPath entry =
      (['/','v','0','/','b','/'] ++ entry.bucket ++ ['/','o']) ++ '/' :: GCSEscapedString entry.name := by
    simp [percentEncodedPath]
  rw [parts dictionary,parts other] at paths
  obtain ⟨fronts,name⟩ := back_unique (unmarked _) (unmarked _) paths
  have bucket := List.append_cancel_left (List.append_cancel_right fronts)
  exact ⟨bucket,encode_injective (by decide) name,encode_injective percent (List.append_cancel_left query)⟩

def restored : MetadataDictionary := {stored with downloadTokens := some ['t','1',',','t','3']}

theorem downloadURL_injective_restored : stored.bucket = restored.bucket ∧ stored.name = restored.name ∧
    firstToken stored = firstToken restored := by
  have one : downloadURLFromMetadataDictionary gcsAllowed stored = some _ := downloadURL_address stored_plain rfl (by decide)
  have two : downloadURLFromMetadataDictionary gcsAllowed restored = some _ :=
    downloadURL_address stored_plain rfl (by decide)
  exact downloadURL_injective gcsEscaping.percent one two

end Downloads

section Queries

-- How a query is read: items between ampersands, each a name before its first equals sign and a value after it.
def readItem (item : Text) : Option (Text × Text) :=
  (decode (item.takeWhile (fun c => c ≠ '='))).bind fun name =>
    (decode ((item.dropWhile (fun c => c ≠ '=')).drop 1)).map fun value => (name,value)

def readQuery (query : Text) : Option (List (Text × Text)) :=
  if query = [] then some [] else (query.splitOn '&').mapM readItem

def queryItem (item : Text × Text) : Text := GCSEscapedString (item.1 ++ '=' :: item.2)

theorem queryItem_parts (item : Text × Text) : queryItem item = GCSEscapedString item.1 ++ '=' :: GCSEscapedString item.2 := by
  have equals : gcsAllowed '=' = true := by decide
  rw [queryItem,escaped_encode,encode_append,encode_kept equals]
  rfl

theorem readItem_queryItem (item : Text × Text) (plain : '=' ∉ item.1) : readItem (queryItem item) = some item := by
  have absent : '=' ∉ GCSEscapedString item.1 := encode_avoids plain (by decide) (by decide)
  obtain ⟨name,value⟩ := takeWhile_front (GCSEscapedString item.2) absent
  rw [queryItem_parts,readItem,name,value]
  simp [escaped_decode]

theorem queryItem_marks (item : Text × Text) : '&' ∉ queryItem item ∧ '+' ∉ queryItem item :=
  ⟨fun inside => (escaped_characters inside).2 (by decide),fun inside => (escaped_characters inside).2 (by decide)⟩

theorem items_read (dictionary : List (Text × Text)) (plain : ∀ item ∈ dictionary, '=' ∉ item.1) :
    (dictionary.map queryItem).mapM readItem = some dictionary := by
  induction dictionary with
  | nil => rfl
  | cons item rest ih =>
      have later := ih fun other inside => plain other (List.mem_cons_of_mem _ inside)
      simp [readItem_queryItem item (plain item List.mem_cons_self),later]

-- A query of escaped items reads back as they were, and has no plus sign that might stand for a space.
theorem query_round_trip (dictionary : List (Text × Text)) (plain : ∀ item ∈ dictionary, '=' ∉ item.1) :
    readQuery (queryStringForDictionary dictionary) = some dictionary ∧ '+' ∉ queryStringForDictionary dictionary := by
  have items : queryStringForDictionary dictionary = ['&'].intercalate (dictionary.map queryItem) := rfl
  constructor
  · by_cases empty : dictionary = []
    · subst dictionary
      rfl
    · obtain ⟨first,rest,rfl⟩ := List.exists_cons_of_ne_nil empty
      have split : (queryStringForDictionary (first :: rest)).splitOn '&' = (first :: rest).map queryItem := by
        rw [items]
        apply List.splitOn_intercalate
        · intro item inside
          obtain ⟨source,_,rfl⟩ := List.mem_map.mp inside
          exact (queryItem_marks source).1
        · simp
      have nonempty : queryStringForDictionary (first :: rest) ≠ [] := by
        intro nothing
        rw [nothing] at split
        have single : queryItem first = [] := (List.cons.inj split).1.symm
        rw [queryItem_parts] at single
        simp at single
      rw [readQuery,if_neg nonempty,split]
      exact items_read _ plain
  · rw [items]
    intro inside
    rcases mem_intercalate inside with same | ⟨item,member,inner⟩
    · exact absurd same (by decide)
    · obtain ⟨source,_,rfl⟩ := List.mem_map.mp member
      exact (queryItem_marks source).2 inner

def uploadQuery : List (Text × Text) :=
  [(['u','p','l','o','a','d','T','y','p','e'],['r','e','s','u','m','a','b','l','e']),(['n','a','m','e'],stored.name)]

theorem query_round_trip_upload :
    readQuery (queryStringForDictionary uploadQuery) = some uploadQuery ∧ '+' ∉ queryStringForDictionary uploadQuery := by
  apply query_round_trip
  decide

end Queries

end CanvasPainter.StorageURLs
