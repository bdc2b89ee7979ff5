import Orchestract.Application.People

/-!
# Registration and sign-in

The services of `app/application/registration_service.py` and `social_auth_service.py`, as far
as they concern the database, and what a verified link does to a user. The tokens of
verification links are those of `Application/Accounts.lean`.
-/

namespace Orchestract

set_option autoImplicit false

namespace RegistrationService

/-- The terms are accepted in the same unit of work. -/
def register (env : Env) (organizationName userName email rawPassword : String)
    (ipAddress userAgent : Option String) :
    UnitOfWork (Organization × User) := do
  let existing ← UserService.getByEmail email
  raiseIf existing.isSome (DomainError.duplicateEmail email)
  let organization ← Organization.create organizationName
  let organization ← add organization
  let role ← Role.create organization.id "Owner" none none
  let role ← add role
  let user ← User.create organization.id userName email (env.hashPassword rawPassword) role.id
  let user ← add user
  let _ ← add (TermsAcceptance.record user.id organization.id currentTermsVersion ipAddress userAgent env.now)
  return (organization, user)

end RegistrationService

structure GoogleIdentity where
  sub : String
  email : String
  emailVerified : Bool
  name : String
  givenName : Option String
deriving DecidableEq, Repr

namespace SocialAuthService

/-- `name.strip().split()[0]`. -/
def firstWord (name : String) : Query String := fun _ =>
  match (Text.strip name).toList.takeWhile (fun c => !Text.isSpace c) with
  | [] => .error (.crashed .indexError)
  | word => .ok (String.ofList word)

def deriveOrgName (identity : GoogleIdentity) : Query String := do
  let given := Text.strip (identity.givenName.getD "")
  let base ← (if given = "" ∧ identity.name ≠ "" then firstWord identity.name else pure given : Query String)
  let base := if base = "" then String.ofList (identity.email.toList.takeWhile (· ≠ '@')) else base
  let base := if base = "" then "My" else base
  return s!"{base}'s workspace"

/-- An address that has an account is linked to it; else a new account with an organization of
its own. -/
def loginOrRegisterGoogle (env : Env) (identity : GoogleIdentity) (termsVersion : String)
    (ipAddress userAgent : Option String) : UnitOfWork User := do
  raiseIf (identity.email = "")
    (DomainError.socialLogin "Google didn't provide an email address for this account.")
  raiseIf (¬ identity.emailVerified)
    (DomainError.socialLogin "Your Google email address isn't verified, so we can't sign you in.")
  match ← UserService.getByEmail identity.email with
  | some existing =>
    raiseIf (¬ existing.isActive) (DomainError.socialLogin
      "This account has been deactivated. Contact your organization's admin.")
    let linked := existing.linkGoogle identity.sub env.now
    save linked
    return linked
  | none =>
    let name ← deriveOrgName identity
    let organization ← Organization.create name
    let organization ← add organization
    let role ← Role.create organization.id "Owner" none none
    let role ← add role
    let displayName := if identity.name = "" then identity.email else identity.name
    let user ← User.createSocial organization.id displayName identity.email role.id identity.sub env.now
    let user ← add user
    let _ ← add (TermsAcceptance.record user.id organization.id termsVersion ipAddress userAgent env.now)
    return user

end SocialAuthService

namespace UserService

/-- `_SESSION_TTL`, in seconds. -/
def sessionTtl : Nat := 14 * 24 * 3600

def forceVerify (env : Env) (userId : Nat) : UnitOfWork User :=
  change "user" userId fun user => .ok { user with emailVerifiedAt := some env.now }

def createSession (env : Env) (userId : Nat) : UnitOfWork UserSession :=
  add ⟨0, userId, env.randomToken, env.now + sessionTtl⟩

end UserService

end Orchestract
