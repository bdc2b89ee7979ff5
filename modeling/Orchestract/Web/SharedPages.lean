import Orchestract.Application.Sharing
import Orchestract.Web.Responses

/-!
# Public pages

The endpoints under `/share/{token}` of `app/web/routes.py`. They need no login: a link is shown to
whoever has its token, and a protected one to whoever has unlocked it.
-/

namespace Orchestract

set_option autoImplicit false

/-- A template of the public pages with its context. -/
inductive SharePage where
  | invalid
  | access (token : String) (error : Option String)
  | view (token : String) (link : ShareLink) (contract : Contract) (documents : List Document)
deriving DecidableEq, Repr

/-- The cookie `share_unlock`; its flags are constant in a deployment. -/
structure UnlockCookie where
  value : String
  maxAge : Nat
  path : String
deriving DecidableEq, Repr

inductive ShareResponse where
  | page (status : Nat) (page : SharePage)
  | unlocked (url : String) (cookie : UnlockCookie)
  | other (r : Response)
deriving DecidableEq, Repr

inductive PublicRequest where
  | landing (token : String)
  | unlock (token password : String)
  | raw (token : String) (documentId versionId : Nat) (download : Bool)
deriving DecidableEq, Repr

def PublicRequest.token : PublicRequest → String
  | landing token | unlock token _ | raw token _ _ _ => token

namespace SharedPages

/-- `hmac.compare_digest`, which refuses strings with other than ASCII characters. -/
def compareDigest (presented expected : String) : Except Failure Bool :=
  if (presented ++ expected).toList.all fun c => c.toNat < 128 then .ok (presented = expected)
  else .error (.crashed .typeError)

/-- `mac` is the HMAC-SHA256 of a message in hex, with the key of the process. -/
def shareUnlockToken (mac : String → String) (token : String) : String := mac ("share:" ++ token)

def isShareUnlocked (mac : String → String) (presented : Option String) (token : String) : Query Bool :=
  fun _ => match presented.bind Text.orNone with
    | none => .ok false
    | some value => compareDigest value (shareUnlockToken mac token)

/-- `link.has_password and not _is_share_unlocked(request, token)`. -/
def isLocked (mac : String → String) (presented : Option String) (link : ShareLink) (token : String) :
    Query Bool :=
  if link.hasPassword then (fun unlocked => !unlocked) <$> isShareUnlocked mac presented token
  else return false

/-- The active link of a token, `none` where the handlers catch `ShareLinkNotActiveError`. -/
def activeLink (env : Env) (token : String) : Query (Option ShareLink) :=
  tryCatch (some <$> SharingService.getActiveLink env token) fun
    | .raised .shareLinkNotActive => return none
    | e => throw e

def shareLanding (mac : String → String) (env : Env) (presented : Option String) (token : String) :
    Action ShareResponse := do
  match ← activeLink env token with
  | none => return .page 404 .invalid
  | some link =>
    if ← isLocked mac presented link token then return .page 200 (.access token none)
    let _ ← SharingService.markAccessed env token
    let (contract, documents) ← SharingService.resolveSharedDocuments link
    return .page 200 (.view token link contract documents)

def shareUnlock (mac : String → String) (env : Env) (token password : String) : Query ShareResponse := do
  match ← activeLink env token with
  | none => return .page 404 .invalid
  | some link =>
    if ¬ link.hasPassword ∨ ¬ link.verifyPassword env.verifyPassword password then
      return .page 422 (.access token (some "Incorrect password."))
    return .unlocked s!"/share/{token}"
      ⟨shareUnlockToken mac token, link.expiresAt - env.now, s!"/share/{token}"⟩

def shareDocumentRaw (mac : String → String) (env : Env) (presented : Option String) (token : String)
    (documentId versionId : Nat) (download : Bool) : Query ShareResponse := do
  match ← activeLink env token with
  | none => throw (.raised (.notFound "file version not found"))
  | some link =>
    if ← isLocked mac presented link token then throw (.raised (.notFound "file version not found"))
    let (version, data) ← SharingService.getSharedVersion env link documentId versionId
    return .other (Response.storedFile data version (download && link.allowDownload))

def handle (mac : String → String) (env : Env) (presented : Option String) :
    PublicRequest → Action ShareResponse
  | .landing token => shareLanding mac env presented token
  | .unlock token password => liftM (shareUnlock mac env token password)
  | .raw token documentId versionId download =>
    liftM (shareDocumentRaw mac env presented token documentId versionId download)

/-- The response to a request that carries this cookie, and the state after it. -/
def respond (mac : String → String) (env : Env) (presented : Option String) (r : PublicRequest) (w : World) :
    ShareResponse × World :=
  match handle mac env presented r w with
  | (.ok response, w') => (response, w')
  | (.error e, w') => (.other (.ofFailure e), w')

end SharedPages

end Orchestract
