import CanvasPainter.PercentEncoding
import CanvasPainter.SeparatedComponents
import CanvasPainter.StoragePath

namespace CanvasPainter.StorageURLs
open SeparatedComponents PercentEncoding

abbrev Text := List Char

def apostrophe : Char := Char.ofNat 0x27

def kGCSObjectAllowedCharacterSet : Text :=
  ['A','B','C','D','E','F','G','H','I','J','K','L','M','N','O','P','Q','R','S','T','U','V','W','X','Y','Z',
    'a','b','c','d','e','f','g','h','i','j','k','l','m','n','o','p','q','r','s','t','u','v','w','x','y','z',
    '0','1','2','3','4','5','6','7','8','9',
    '-','.','_','~','!','$',apostrophe,'(',')','*',',','=',':','@']
def kFIRStorageScheme : Text := ['h','t','t','p','s']
def kFIRStorageHost : Text :=
  ['f','i','r','e','b','a','s','e','s','t','o','r','a','g','e',
    '.','g','o','o','g','l','e','a','p','i','s','.','c','o','m']
def kFIRStorageVersionPath : Text := ['v','0']

abbrev gsStart : Text := ['g','s',':','/','/']
abbrev httpStart : Text := ['h','t','t','p',':','/','/']
abbrev httpsStart : Text := ['h','t','t','p','s',':','/','/']

-- An absent object and an empty one are two, as nil and "" are.
structure FIRStoragePath where
  bucket : Text
  object : Option Text
  deriving DecidableEq, Repr

section Paths

def initWithBucket (bucket : Text) (object : Option Text) : FIRStoragePath :=
  ⟨bucket,object.map CanvasPainter.FIRStoragePath.standardizedPathForString⟩

namespace FIRStoragePath

def stringValue (path : FIRStoragePath) : Text := gsStart ++ path.bucket ++ '/' :: path.object.getD []

def root (path : FIRStoragePath) : FIRStoragePath := initWithBucket path.bucket none

-- The slashes that stringByAppendingPathComponent folds itself the initializer folds too.
def child (path : FIRStoragePath) (string : Text) : FIRStoragePath :=
  if string.length = 0 then initWithBucket path.bucket path.object
  else match path.object with
    | none => initWithBucket path.bucket (some string)
    | some object => initWithBucket path.bucket (some (CanvasPainter.FIRStoragePath.appendingPathComponent object string))

-- stringByDeletingLastPathComponent, of a string with no slash at its ends.
def deletingLastPathComponent (object : Text) : Text :=
  ((object.reverse.dropWhile (fun c => c ≠ '/')).drop 1).reverse

def parent (path : FIRStoragePath) : Option FIRStoragePath :=
  match path.object with
  | none => none
  | some object =>
      if object.length = 0 then none else some (initWithBucket path.bucket (some (deletingLastPathComponent object)))

end FIRStoragePath
end Paths

section Scanning

-- The characters an NSScanner skips before each of its scans.
def whitespaceAndNewline (c : Char) : Bool :=
  c.toNat ∈ [0x9,0xA,0xB,0xC,0xD,0x20,0x85,0xA0,0x1680,0x2000,0x2001,0x2002,0x2003,0x2004,0x2005,0x2006,0x2007,0x2008,
    0x2009,0x200A,0x2028,0x2029,0x202F,0x205F,0x3000]

def skipped (rest : Text) : Text := rest.dropWhile whitespaceAndNewline

def scanString (string rest : Text) : Option Text :=
  if string.isPrefixOf (skipped rest) then some ((skipped rest).drop string.length) else none

def scanUpTo (stop : Char) (rest : Text) : Option (Text × Text) :=
  let scanned := (skipped rest).takeWhile (fun c => c ≠ stop)
  if scanned = [] then none else some (scanned,(skipped rest).dropWhile (fun c => c ≠ stop))

-- None stands for the exception that is raised.
def pathFromGSURI (aURIString : Text) : Option FIRStoragePath :=
  match scanString gsStart aURIString with
  | none => none
  | some afterScheme => match scanUpTo '/' afterScheme with
    | none => none
    | some (bucketName,afterBucket) =>
        let afterSlash := (scanString ['/'] afterBucket).getD afterBucket
        some (initWithBucket bucketName ((scanUpTo '\n' afterSlash).map (·.1)))

end Scanning

section URLs

def GCSEscapedString (string : Text) : Text := encode (fun c => kGCSObjectAllowedCharacterSet.contains c) string

def queryStringForDictionary (dictionary : List (Text × Text)) : Text :=
  ['&'].intercalate (dictionary.map fun (name,value) => GCSEscapedString (name ++ '=' :: value))

-- stringByAppendingPathComponent leaves no slash behind an empty bucket.
def encodedURLForPath (path : FIRStoragePath) : Text :=
  let bucketName := GCSEscapedString path.bucket
  let urlPath := if bucketName = [] then ['/','b'] else ['/','b','/'] ++ bucketName
  let urlPath := match path.object with
    | some object => urlPath ++ ['/','o','/'] ++ GCSEscapedString object
    | none => urlPath ++ ['/','o']
  '/' :: kFIRStorageVersionPath ++ urlPath

def absoluteString (percentEncodedPath : Text) : Text :=
  kFIRStorageScheme ++ [':','/','/'] ++ kFIRStorageHost ++ percentEncodedPath

def defaultRequestForPath (path : FIRStoragePath) : Text := absoluteString (encodedURLForPath path)

abbrev authorityEnds : Text := ['/','?','#']
abbrev pathEnds : Text := ['?','#']

structure NSURL where
  host : Text
  percentEncodedPath : Text
  deriving DecidableEq, Repr

-- The characters a URL is written in, escapes included.
def urlCharacters : Text := kGCSObjectAllowedCharacterSet ++ ['/','?','#','[',']','&','+',';','%']

def withoutUser (authority : Text) : Text := (authority.reverse.takeWhile (fun c => c ≠ '@')).reverse

def URLWithString (aURLString : Text) : Option NSURL :=
  let afterScheme := if httpsStart.isPrefixOf aURLString then aURLString.drop 8 else aURLString.drop 7
  if aURLString.all urlCharacters.contains ∧ (decodeBytes aURLString).isSome then
    let authority := afterScheme.takeWhile (fun c => !authorityEnds.contains c)
    let path := (afterScheme.dropWhile (fun c => !authorityEnds.contains c)).takeWhile (fun c => !pathEnds.contains c)
    some ⟨(withoutUser authority).takeWhile (fun c => c ≠ ':'),path⟩
  else none

-- The first component of a path from the root is the slash.
def NSURL.pathComponents (url : NSURL) : List Text :=
  match (components '/' url.percentEncodedPath).mapM decode with
  | none => []
  | some decoded => if url.percentEncodedPath.head? = some '/' then ['/'] :: decoded else decoded

def pathFromHTTPURL (aURLString : Text) : Option FIRStoragePath :=
  let (bucketName,objectName) := match URLWithString aURLString with
    | none => (([] : Text),([] : Text))
    | some httpsURL =>
        if httpsURL.host = kFIRStorageHost then
          (httpsURL.pathComponents.getD 3 [],
            if httpsURL.pathComponents.length > 5 then ['/'].intercalate (httpsURL.pathComponents.drop 5) else [])
        else ([],[])
  if bucketName.length = 0 then none
  else some (initWithBucket bucketName (if objectName.length = 0 then none else some objectName))

def pathFromString (string : Text) : Option FIRStoragePath :=
  if gsStart.isPrefixOf string then pathFromGSURI string
  else if httpStart.isPrefixOf string || httpsStart.isPrefixOf string then pathFromHTTPURL string
  else none

-- What FIRStorageGetDownloadURLTask takes out of the metadata the server sends.
structure MetadataDictionary where
  downloadTokens : Option Text
  bucket : Text
  name : Text

abbrev mediaToken : Text := ['?','a','l','t','=','m','e','d','i','a','&','t','o','k','e','n','=']

def percentEncodedPath (dictionary : MetadataDictionary) : Text :=
  ['/','v','0','/','b','/'] ++ dictionary.bucket ++ ['/','o','/'] ++ GCSEscapedString dictionary.name

-- The characters of a URL's path, escapes included.
def pathCharacters : Text := kGCSObjectAllowedCharacterSet ++ ['/','&','+',';','%']

def percentEncoded (path : Text) : Bool := path.all pathCharacters.contains && (decodeBytes path).isSome

-- None stands for nil, and for the exception that NSURLComponents raises for a path that is not percent-encoded; its
-- query items it encodes itself.
def downloadURLFromMetadataDictionary (queryAllowed : Char → Bool) (dictionary : MetadataDictionary) : Option Text :=
  match dictionary.downloadTokens with
  | none => none
  | some downloadTokens =>
      if downloadTokens.length > 0 ∧ percentEncoded (percentEncodedPath dictionary) then
        some (absoluteString (percentEncodedPath dictionary) ++ mediaToken ++
          encode queryAllowed ((downloadTokens.splitOn ',').headD []))
      else none

end URLs

end CanvasPainter.StorageURLs
