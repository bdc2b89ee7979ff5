import Orchestract.Infrastructure.Locales
import Orchestract.Library.UrlEncoding
import Orchestract.Operations.Histories
import Orchestract.Web.Responses

/-!
# The routes outside the organizations

The root router of `app/web/routes.py`: signing up, in and out, the links that are mailed, the terms
and the language. A request carries the cookies of a browser, and the reply says which of them to set
or to delete.
-/

namespace Orchestract

set_option autoImplicit false

/-- The cookies that the routes read. -/
structure Cookies where
  session : Option String
  locale : Option String
  oauthState : Option String
  oauthNext : Option String
deriving DecidableEq, Repr

inductive SetCookie where
  | session (token : String) (maxAge : Nat)
  | locale (code : String) (maxAge : Nat)
  | oauthState (state : String) (maxAge : Nat)
  | oauthNext (path : String) (maxAge : Nat)
  | deleteSession
  | deleteOauthState
  | deleteOauthNext
deriving DecidableEq, Repr

/-- What the browser keeps. -/
def Cookies.set (cookies : Cookies) : SetCookie → Cookies
  | .session token _ => { cookies with session := some token }
  | .locale code _ => { cookies with locale := some code }
  | .oauthState state _ => { cookies with oauthState := some state }
  | .oauthNext path _ => { cookies with oauthNext := some path }
  | .deleteSession => { cookies with session := none }
  | .deleteOauthState => { cookies with oauthState := none }
  | .deleteOauthNext => { cookies with oauthNext := none }

inductive RootPage where
  | homepage
  | pricing
  | terms (acceptance : Option TermsAcceptance)
  | termsReview
  | login (next error : String) (unverifiedEmail : Option String)
  | signup (error : Option String) (organizationName userName email plan : String)
  | authNotice (heading message : String) (isError : Bool) (action : Option (String × String))
  | forgotPassword
  | resetPassword (token : String)
deriving DecidableEq, Repr

inductive RootBody where
  | page (page : RootPage)
  | redirect (url : String)
  | detail (message : String)
  | internalError
deriving DecidableEq, Repr

structure Email where
  recipient : String
  subject : String
  link : String
deriving DecidableEq, Repr

structure Reply where
  status : Nat
  body : RootBody
  cookies : List SetCookie
  emails : List Email
deriving DecidableEq, Repr

namespace Reply

def ok (page : RootPage) : Reply := ⟨200, .page page, [], []⟩

def unprocessable (page : RootPage) : Reply := ⟨422, .page page, [], []⟩

def redirect (url : String) : Reply := ⟨303, .redirect url, [], []⟩

def setting (r : Reply) (cookies : List SetCookie) : Reply := { r with cookies := cookies }

/-- The exception handlers of `main.py`. -/
def ofFailure : Failure → Reply
  | .raised e => ⟨e.statusCode, .detail e.message, [], []⟩
  | .notAuthenticated nextPath => redirect s!"/login?next={nextPath}"
  | .termsNotAccepted => redirect "/terms/review"
  | .crashed _ => ⟨500, .internalError, [], []⟩

def ofResult : Except Failure Reply → Reply
  | .ok r => r
  | .error e => ofFailure e

end Reply

/-- The answer of the userinfo endpoint, its missing fields and the truth of `email_verified`. -/
structure Userinfo where
  sub : Option String
  email : Option String
  emailVerified : Bool
  name : Option String
  givenName : Option String
deriving DecidableEq, Repr

/-- Why a code was not exchanged; the first two are caught. -/
inductive ExchangeFailure where
  | httpError
  | keyError
  | valueError
deriving DecidableEq, Repr

namespace GoogleOAuth

/-- The end of `exchange_code`: what the answers say of who has signed in. -/
def identity (data : Userinfo) : Except ExchangeFailure GoogleIdentity :=
  match data.sub with
  | none => .error .keyError
  | some sub =>
    let name := (data.name.bind Text.orNone).getD (data.email.getD "")
    .ok ⟨sub, Text.lower (Text.strip (data.email.getD "")), data.emailVerified, Text.strip name, data.givenName⟩

def authorizationUrl (clientId redirectUri state : String) : String :=
  "https://accounts.google.com/o/oauth2/v2/auth?" ++ String.ofList (UrlEncoding.urlencode
    [("client_id".toList, clientId.toList), ("redirect_uri".toList, redirectUri.toList),
      ("response_type".toList, "code".toList), ("scope".toList, "openid email profile".toList),
      ("access_type".toList, "online".toList), ("prompt".toList, "select_account".toList),
      ("state".toList, state.toList)])

end GoogleOAuth

/-- The settings of the sign-in with Google, and its answers. -/
structure GoogleSettings where
  clientId : String
  clientSecret : String
  redirectBase : String
  exchange : String → Except ExchangeFailure Userinfo

def GoogleSettings.enabled (g : GoogleSettings) : Bool := g.clientId ≠ "" && g.clientSecret ≠ ""

/-- What a request says of its sender. -/
structure Sender where
  cookies : Cookies
  forwardedFor : String
  host : Option String
  userAgent : Option String
deriving DecidableEq, Repr

/-- The address in `_client_metadata`. -/
def Sender.ipAddress (r : Sender) : Option String :=
  if r.forwardedFor = "" then r.host
  else some (Text.strip (String.ofList (r.forwardedFor.toList.takeWhile (· ≠ ','))))

/-- A read of the database between units of work. -/
def reading {α : Type} (r : Query α) : SystemAction α := fun s => (r s.world, s)

def committing {α : Type} (m : UnitOfWork α) : SystemAction α := Action.onSystem (liftM m)

/-- `except` for the domain errors that `caught` names: the text of the error. -/
def catchingOnly {α : Type} (caught : DomainError → Bool) (act : SystemAction α) :
    SystemAction (Except DomainError α) :=
  tryCatch (Except.ok <$> act) fun failure =>
    match failure with
    | .raised e => if caught e then pure (.error e) else throw (.raised e)
    | failure => throw failure

namespace RootRoutes

/-- `_user_from_request`. -/
def userFromRequest (env : Env) (r : Sender) : Query (Option User) :=
  match r.cookies.session.bind Text.orNone with
  | some token => UserService.getUserBySessionToken env token
  | none => pure none

def home (organization : Organization) : String := s!"/{organization.slug}/"

def homeOf (user : User) : SystemAction Reply := do
  let organization ← reading (OrganizationService.get user.organizationId)
  return .redirect (home organization)

def index (env : Env) (r : Sender) : SystemAction Reply := do
  match ← reading (userFromRequest env r) with
  | some user => homeOf user
  | none => return .ok .homepage

def termsPage (env : Env) (r : Sender) : SystemAction Reply := do
  match ← reading (userFromRequest env r) with
  | some user =>
    let acceptance ← reading (ComplianceService.latestAcceptance user.id)
    return .ok (.terms acceptance)
  | none => return .ok (.terms none)

def termsReview (env : Env) (r : Sender) : SystemAction Reply := do
  match ← reading (userFromRequest env r) with
  | none => return .redirect "/login?next=/terms/review"
  | some user =>
    let accepted ← reading (ComplianceService.hasAcceptedCurrent user.id)
    if accepted then homeOf user else return .ok .termsReview

def termsAccept (env : Env) (r : Sender) : SystemAction Reply := do
  match ← reading (userFromRequest env r) with
  | none => return .redirect "/login"
  | some user =>
    let _ ← committing (ComplianceService.recordAcceptance env user.id user.organizationId r.ipAddress r.userAgent)
    homeOf user

/-- The session of the cookie is deleted. -/
def endSession (r : Sender) : SystemAction Unit :=
  match r.cookies.session.bind Text.orNone with
  | some token => committing (UserService.deleteSession token)
  | none => pure ()

def termsDecline (r : Sender) : SystemAction Reply := do
  endSession r
  return (Reply.ok (.authNotice "Terms not accepted"
    ("You've been signed out because the Terms & Conditions weren't accepted. " ++
      "You can sign back in and accept them at any time to continue.") false
    (some ("/login", "Back to sign in")))).setting [.deleteSession]

def logout (r : Sender) : SystemAction Reply := do
  endSession r
  return (Reply.redirect "/login").setting [.deleteSession]

/-- The seconds that the browser keeps the cookie of a session. -/
def sessionMaxAge : Nat := 60 * 60 * 24 * 14

/-- A new session for the user, and its token in the cookie. -/
def signIn (env : Env) (user : User) (redirectTo : Organization → String) : SystemAction Reply := do
  let session ← committing (UserService.createSession env user.id)
  let organization ← reading (OrganizationService.get user.organizationId)
  return (Reply.redirect (redirectTo organization)).setting [.session session.token sessionMaxAge]

/-- Where a sign-in leads: to a page of the organization, or to its dashboard. -/
def destination (next : String) (organization : Organization) : String :=
  if (home organization).toList <+: next.toList then next else home organization

def isCredentialError : DomainError → Bool
  | .invalidCredentials | .emailNotVerified => true
  | _ => false

def loginSubmit (env : Env) (email password next : String) : SystemAction Reply := do
  match ← catchingOnly isCredentialError (reading (UserService.authenticate env email password)) with
  | .error e => return .unprocessable (.login next e.message (if e = .emailNotVerified then some email else none))
  | .ok user => signIn env user (destination next)

/-- `next` if it is a path of this host. -/
def sameOrigin (next : String) : String :=
  match next.toList with
  | '/' :: '/' :: _ => "/"
  | '/' :: _ => next
  | _ => "/"

def setLanguage (env : Env) (r : Sender) (lang next : String) : SystemAction Reply := do
  let resolved := if lang ∈ I18n.supportedLocales then lang else I18n.defaultLocale
  let reply := (Reply.redirect (sameOrigin next)).setting [.locale resolved (60 * 60 * 24 * 365)]
  match ← reading (userFromRequest env r) with
  | some user =>
    let _ ← committing (UserService.setLocale user.id (some resolved))
    return reply
  | none => return reply

def googleLogin (env : Env) (google : GoogleSettings) (next : String) : SystemAction Reply := do
  if google.enabled then
    let url := GoogleOAuth.authorizationUrl google.clientId (google.redirectBase ++ "/auth/google/callback")
      env.randomToken
    return (Reply.redirect url).setting [.oauthState env.randomToken 600, .oauthNext next 600]
  else return .redirect "/login?error=Google+sign-in+isn%27t+configured."

def googleLoginFailed (message : String) : Reply :=
  (Reply.redirect ("/login?error=" ++ String.ofList (UrlEncoding.quote message.toList))).setting
    [.deleteOauthState, .deleteOauthNext]

/-- `secrets.compare_digest`, which takes ASCII texts only. -/
def compareDigest (a b : String) : Query Bool := fun _ =>
  if (a.toList ++ b.toList).all fun c => c.toNat < 128 then .ok (a = b) else .error (.crashed .typeError)

/-- The state in the redirect is the one in the cookie. -/
def stateMatches (r : Sender) (state : String) : Query Bool :=
  match Text.orNone state, r.cookies.oauthState.bind Text.orNone with
  | some state, some cookieState => compareDigest state cookieState
  | _, _ => pure false

def isSocialLogin : DomainError → Bool
  | .socialLogin _ => true
  | _ => false

def googleCallback (env : Env) (google : GoogleSettings) (r : Sender) (code state error : String) :
    SystemAction Reply := do
  if error ≠ "" ∨ code = "" then return googleLoginFailed "Google sign-in was cancelled."
  else
    let matched ← reading (stateMatches r state)
    if ¬ matched then return googleLoginFailed "Your sign-in session expired. Please try again."
    else
      match google.exchange code >>= GoogleOAuth.identity with
      | .error .valueError => throw (.crashed .valueError)
      | .error _ => return googleLoginFailed "Couldn't complete Google sign-in. Please try again."
      | .ok identity =>
        match ← catchingOnly isSocialLogin (committing (SocialAuthService.loginOrRegisterGoogle env identity
          currentTermsVersion r.ipAddress r.userAgent)) with
        | .error e => return googleLoginFailed e.message
        | .ok user =>
          let reply ← signIn env user (destination (r.cookies.oauthNext.getD "/"))
          return reply.setting (reply.cookies ++ [.deleteOauthState, .deleteOauthNext])

def paidPlans : List String := ["team", "business"]

def signupSubmit (env : Env) (r : Sender) (organizationName userName email password acceptTerms plan : String) :
    SystemAction Reply := do
  if acceptTerms = "" then
    return .unprocessable (.signup (some "You must accept the Terms & Conditions to create an account.")
      organizationName userName email plan)
  else
    match ← catchingOnly (fun _ => true) (liftM (Accounts.register env organizationName userName email password
      r.ipAddress r.userAgent)) with
    | .error e => return .unprocessable (.signup (some e.message) organizationName userName email plan)
    | .ok (_, user, token) =>
      let link := s!"{env.settings.appBaseUrl}/verify-email?token={token.token}"
      let link := if plan ∈ paidPlans then link ++ s!"&plan={plan}" else link
      let reply := Reply.ok (.authNotice "Check your email"
        s!"We've sent a verification link to {user.email}. Click it to activate your account." false none)
      return { reply with emails := [⟨user.email, "Verify your email", link⟩] }

def isTokenError : DomainError → Bool
  | .invalidOrExpiredToken => true
  | _ => false

def verifyEmail (env : Env) (token plan : String) : SystemAction Reply := do
  match ← catchingOnly isTokenError (liftM (Accounts.verifyEmail env token)) with
  | .error e => return .unprocessable (.authNotice "Link invalid" e.message true (some ("/login", "Back to sign in")))
  | .ok user => signIn env user fun organization =>
    if plan ∈ paidPlans then s!"/{organization.slug}/settings/billing?plan={plan}" else home organization

def resendVerification (env : Env) (email : String) : SystemAction Reply := do
  let result ← (liftM (Accounts.resendVerification env email) : SystemAction (Option (User × UserToken)))
  let reply := Reply.ok (.authNotice "Check your email"
    s!"If {email} has an unverified account, we've sent a new verification link." false none)
  return { reply with emails := result.toList.map fun p =>
    ⟨p.1.email, "Verify your email", s!"{env.settings.appBaseUrl}/verify-email?token={p.2.token}"⟩ }

def forgotPasswordSubmit (env : Env) (email : String) : SystemAction Reply := do
  let result ← (liftM (Accounts.createPasswordResetToken env email) : SystemAction (Option (User × UserToken)))
  let reply := Reply.ok (.authNotice "Check your email"
    s!"If {email} has an account, we've sent a password reset link." false none)
  return { reply with emails := result.toList.map fun p =>
    ⟨p.1.email, "Reset your password", s!"{env.settings.appBaseUrl}/reset-password?token={p.2.token}"⟩ }

def resetPasswordSubmit (env : Env) (token newPassword : String) : SystemAction Reply := do
  match ← catchingOnly isTokenError (liftM (Accounts.resetPassword env token newPassword)) with
  | .error e => return .unprocessable (.authNotice "Link invalid" e.message true
      (some ("/forgot-password", "Request a new link")))
  | .ok user => signIn env user home

/-- The organization and the provider of `f"{organization_id}:{provider.value}"`. -/
def parseOauthState (state : String) : Query (Int × StorageProvider) := fun _ =>
  match state.toList.span (· ≠ ':') with
  | (_, []) => .error (.crashed .valueError)
  | (organizationId, _ :: value) =>
    match Text.int organizationId, StorageProvider.ofValue (String.ofList value) with
    | some organizationId, some provider => .ok (organizationId, provider)
    | _, _ => .error (.crashed .valueError)

/-- `tokens` is the answer to the exchange of the code. -/
def oauthCallback (env : Env) (tokens : StorageProvider → String → Option OAuthTokens) (code state : String) :
    SystemAction Reply := do
  let (organizationId, provider) ← reading (parseOauthState state)
  match organizationId with
  -- no organization has such an id, so that the insertion is refused
  | .negSucc _ => throw (.crashed .integrityError)
  | .ofNat organizationId =>
    let connection ← committing (StorageService.completeOauthConnection env organizationId provider
      (tokens provider code))
    let organization ← reading (OrganizationService.get connection.organizationId)
    return .redirect s!"/{organization.slug}/settings/storage"

end RootRoutes

/-- The answers of other services to these routes. -/
structure RemoteServices where
  google : GoogleSettings
  tokens : StorageProvider → String → Option OAuthTokens

inductive RootRoute where
  | index
  | pricingPage
  | termsPage
  | termsReview
  | termsAccept
  | termsDecline
  | loginPage (next error : String)
  | loginSubmit (email password next : String)
  | logout
  | setLanguage (lang next : String)
  | googleLogin (next : String)
  | googleCallback (code state error : String)
  | signupPage (plan : String)
  | signupSubmit (organizationName userName email password acceptTerms plan : String)
  | verifyEmail (token plan : String)
  | resendVerification (email : String)
  | forgotPasswordPage
  | forgotPasswordSubmit (email : String)
  | resetPasswordPage (token : String)
  | resetPasswordSubmit (token newPassword : String)
  | oauthCallback (code state : String)
deriving DecidableEq, Repr

def RootRoute.handle (env : Env) (remote : RemoteServices) (r : Sender) : RootRoute → SystemAction Reply
  | .index => RootRoutes.index env r
  | .pricingPage => return .ok .pricing
  | .termsPage => RootRoutes.termsPage env r
  | .termsReview => RootRoutes.termsReview env r
  | .termsAccept => RootRoutes.termsAccept env r
  | .termsDecline => RootRoutes.termsDecline r
  | .loginPage next error => return .ok (.login next error none)
  | .loginSubmit email password next => RootRoutes.loginSubmit env email password next
  | .logout => RootRoutes.logout r
  | .setLanguage lang next => RootRoutes.setLanguage env r lang next
  | .googleLogin next => RootRoutes.googleLogin env remote.google next
  | .googleCallback code state error => RootRoutes.googleCallback env remote.google r code state error
  | .signupPage plan => return .ok (.signup none "" "" "" plan)
  | .signupSubmit organizationName userName email password acceptTerms plan =>
    RootRoutes.signupSubmit env r organizationName userName email password acceptTerms plan
  | .verifyEmail token plan => RootRoutes.verifyEmail env token plan
  | .resendVerification email => RootRoutes.resendVerification env email
  | .forgotPasswordPage => return .ok .forgotPassword
  | .forgotPasswordSubmit email => RootRoutes.forgotPasswordSubmit env email
  | .resetPasswordPage token => return .ok (.resetPassword token)
  | .resetPasswordSubmit token newPassword => RootRoutes.resetPasswordSubmit env token newPassword
  | .oauthCallback code state => RootRoutes.oauthCallback env remote.tokens code state

/-- The reply to a request, and the system after it. -/
def answer (env : Env) (remote : RemoteServices) (r : Sender) (route : RootRoute) (s : System) : Reply × System :=
  (.ofResult (route.handle env remote r s).1, (route.handle env remote r s).2)

end Orchestract
