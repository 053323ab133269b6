import TestImpact.Files.Access
import TestImpact.Hosting.Listing
import TestImpact.Text.Blank

/-!
# The hosting service

A client asks the hosting service for the changed files of a pull request, page by page, until a
page is not full. It is made for one repository and with a token, both of which are checked first.
-/

namespace TestImpact.Hosting

/-- Why the changed files cannot be listed. -/
inductive HostingError
  | invalidRepository (repository : String)
  | missingToken
  /-- The request got no answer. -/
  | transport (url reason : String)
  /-- The service refused the request. -/
  | status (code : Nat) (body : String)
  | invalidPayload
  | unreadable (path : String) (cause : Files.FileError)
  deriving DecidableEq, Repr

/-- The cause in words. -/
def HostingError.message : HostingError → String
  | .invalidRepository repository =>
    "invalid repository '" ++ repository ++ "': expected 'owner/name'"
  | .missingToken => "missing GitHub token"
  | .transport url reason => "request to " ++ url ++ " failed: " ++ reason
  | .status code body => "GitHub API returned " ++ toString code ++ ": " ++ body
  | .invalidPayload => "invalid files payload: expected a list of file records"
  | .unreadable path cause => "I/O error reading " ++ path ++ ": " ++ cause.message

/-- Whether a text may be the name of an owner or of a repository. -/
def isNamePart (part : List Char) : Bool :=
  !part.isEmpty && part.all fun c => c.isAlphanum || c = '-' || c = '_' || c = '.'

/-- Whether a text has the form `owner/name`. -/
def isRepository (repository : String) : Bool :=
  let owner := repository.toList.takeWhile (· ≠ '/')
  match repository.toList.dropWhile (· ≠ '/') with
  | '/' :: name => isNamePart owner && isNamePart name
  | _ => false

/-- Whether a token may be sent: it is not blank, and the only control character of ASCII in it is
the tab. -/
def isToken (token : String) : Bool :=
  let token := Text.trim token.toList
  !token.isEmpty && token.all fun c => c = '\t' || (32 ≤ c.toNat && c.toNat ≠ 127)

/-- Refuse a text that is not the name of a repository. -/
def checkRepository (repository : String) : Except HostingError Unit :=
  if isRepository repository then .ok () else .error (.invalidRepository repository)

/-- Refuse a token that may not be sent. -/
def checkToken (token : String) : Except HostingError Unit :=
  if isToken token then .ok () else .error .missingToken

/-- Where and how to ask for the changed files. -/
structure Client where
  token : String
  repository : String
  apiUrl : String := "https://api.github.com"
  perPage : Nat := 100
  deriving DecidableEq, Repr

namespace Client

/-- A client whose repository and token have been checked, in this order. -/
def check (client : Client) : Except HostingError Client := do
  checkRepository client.repository
  checkToken client.token
  return client

/-- The address of the service without slashes at its end. -/
def base (client : Client) : String :=
  String.ofList (client.apiUrl.toList.reverse.dropWhile (· = '/')).reverse

/-- The address of one page of the listing. -/
def filesUrl (client : Client) (number page : Nat) : String :=
  client.base ++ "/repos/" ++ client.repository ++ "/pulls/" ++ toString number ++
    "/files?per_page=" ++ toString client.perPage ++ "&page=" ++ toString page

end Client

/-- How many bytes of the body of a refusal are kept. -/
def maxBody : Nat := 512

/-- How many bytes some characters take. -/
def byteLength (s : List Char) : Nat := s.foldr (fun c n => c.utf8Size + n) 0

/-- Whether a character ends at byte `n` of a text, or none has begun there. -/
def isBoundary : Nat → List Char → Bool
  | 0, _ => true
  | _ + 1, [] => false
  | n + 1, c :: rest => c.utf8Size ≤ n + 1 && isBoundary (n + 1 - c.utf8Size) rest

/-- The last place at or before byte `n` where no character is split. The search goes back byte by
byte, to the start of the text at the most. -/
def lastBoundary (s : List Char) : Nat → Nat
  | 0 => 0
  | n + 1 => if isBoundary (n + 1) s then n + 1 else lastBoundary s n

/-- The characters of a text that end at byte `limit` or before. -/
def takeBytes (limit : Nat) : List Char → List Char
  | [] => []
  | c :: rest => if c.utf8Size ≤ limit then c :: takeBytes (limit - c.utf8Size) rest else []

/-- The body of a refusal as it is kept: trimmed, and cut if it is too long. -/
def cutBody (body : List Char) : List Char :=
  let body := Text.trim body
  if maxBody < byteLength body then takeBytes (lastBoundary body maxBody) body ++ ['.', '.', '.']
  else body

/-- Refuse every status but those from 200 to 299. -/
def checkStatus (code : Nat) (body : String) : Except HostingError Unit :=
  if 200 ≤ code ∧ code < 300 then .ok ()
  else .error (.status code (String.ofList (cutBody body.toList)))

/-- Read the listing in the body of an answer. -/
def readPayload (body : String) : Except HostingError (List FileChange) :=
  match FileChange.readListing? body.toList with
  | some files => .ok files
  | none => .error .invalidPayload

/-- What reports call the service as a source of changed files. -/
def sourceName : String := "github"

/-- What reports call a file with a listing as a source of changed files. -/
def listingName : String := "files-json"

/-- The listing in a file. -/
def loadListing [Monad m] [Files.FileAccess m] (path : String) :
    m (Except HostingError (List FileChange)) := do
  match ← Files.FileAccess.readText path with
  | .ok text => return readPayload text
  | .error cause => return .error (.unreadable path cause)

/-- The answer to a request: its status and its body. -/
structure Answer where
  code : Nat
  body : String

/-- The way to the hosting service. A request that gets no answer fails with a reason. -/
class Service (m : Type → Type) where
  request : (token url : String) → m (Except String Answer)

/-- One page of the listing. -/
def fetchPage [Monad m] [Service m] (client : Client) (number page : Nat) :
    m (Except HostingError (List FileChange)) := do
  let url := client.filesUrl number page
  match ← Service.request client.token url with
  | .error reason => return .error (.transport url reason)
  | .ok answer => return do
    checkStatus answer.code answer.body
    readPayload answer.body

/-- The pages of the listing from `page` on, of which `bound` are asked for at most. -/
def fetchPages [Monad m] [Service m] (client : Client) (number : Nat) :
    (page bound : Nat) → m (Except HostingError (List FileChange))
  | _, 0 => return .ok []
  | page, bound + 1 => do
    match ← fetchPage client number page with
    | .error e => return .error e
    | .ok files =>
      if files.length < max client.perPage 1 then return .ok files
      else
        match ← fetchPages client number (page + 1) bound with
        | .error e => return .error e
        | .ok more => return .ok (files ++ more)

/-- How many pages the service has at most. -/
def maxPages : Nat := 30

/-- The changed files of a pull request. -/
def listFiles [Monad m] [Service m] (client : Client) (number : Nat) :
    m (Except HostingError (List FileChange)) := fetchPages client number 1 maxPages

end TestImpact.Hosting
