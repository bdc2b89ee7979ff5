import Orchestract.Application.Registration

/-!
# Accounts and the tokens of their links

The tokens of verification and reset links live in a table of their own. The services of
`app/application/user_service.py` that issue and redeem them, and the whole of `register`.
-/

namespace Orchestract

set_option autoImplicit false

/-- The world with the table of tokens. -/
structure System where
  world : World
  tokens : Table UserToken

abbrev SystemQuery := Read System Failure

abbrev SystemWork := Work System Failure

abbrev SystemAction := Program System Failure

/-- A unit of work that leaves the tokens alone. -/
def UnitOfWork.onSystem {α : Type} (m : UnitOfWork α) : SystemWork α := fun s =>
  match m s.world with
  | .ok (a, w) => .ok (a, { s with world := w })
  | .error e => .error e

instance : MonadLift UnitOfWork SystemWork := ⟨UnitOfWork.onSystem⟩

def Action.onSystem {α : Type} (m : Action α) : SystemAction α := fun s =>
  ((m s.world).1, { s with world := (m s.world).2 })

namespace UserTokens

def add (t : UserToken) : SystemWork UserToken := fun s =>
  if s.world.db.has ⟨.user, t.userId⟩ then
    match s.tokens.insert t with
    | some (new, tokens) => .ok (new, { s with tokens := tokens })
    | none => .error (.crashed .integrityError)
  else .error (.crashed .integrityError)

def getByToken (token : String) (purpose : UserTokenPurpose) : SystemQuery (Option UserToken) :=
  fun s =>
    match s.tokens.select (fun t => t.token = token && t.purpose = purpose) with
    | [] => .ok none
    | [t] => .ok (some t)
    | _ => .error (.crashed .multipleResultsFound)

def delete (token : String) : SystemWork Unit := fun s =>
  .ok ((), { s with tokens := s.tokens.delete (fun t => t.token = token) })

def deleteForUser (userId : Nat) (purpose : UserTokenPurpose) : SystemWork Unit := fun s =>
  .ok ((), { s with
    tokens := s.tokens.delete (fun t => t.userId = userId && t.purpose = purpose) })

end UserTokens

namespace Accounts

def register (env : Env) (organizationName userName email rawPassword : String)
    (ipAddress userAgent : Option String) :
    SystemWork (Organization × User × UserToken) := do
  let (organization, user) ←
    RegistrationService.register env organizationName userName email rawPassword ipAddress userAgent
  let token ← UserTokens.add (.issue user.id .emailVerification env.randomToken env.now)
  return (organization, user, token)

def issueToken (env : Env) (userId : Nat) (purpose : UserTokenPurpose) : SystemWork UserToken := do
  UserTokens.deleteForUser userId purpose
  UserTokens.add (.issue userId purpose env.randomToken env.now)

def createEmailVerificationToken (env : Env) (userId : Nat) : SystemWork UserToken :=
  issueToken env userId .emailVerification

def resendVerification (env : Env) (email : String) : SystemWork (Option (User × UserToken)) := do
  match ← (liftM (UserService.getByEmail email) : UnitOfWork (Option User)) with
  | none => return none
  | some user =>
    if user.isEmailVerified then return none
    let token ← issueToken env user.id .emailVerification
    return some (user, token)

def createPasswordResetToken (env : Env) (email : String) : SystemWork (Option (User × UserToken)) := do
  match ← (liftM (UserService.getByEmail email) : UnitOfWork (Option User)) with
  | none => return none
  | some user =>
    if ¬ user.isActive then return none
    let token ← issueToken env user.id .passwordReset
    return some (user, token)

/-- The user of a valid token is changed by `method`. -/
def changeHolder (userId : Nat) (method : User → User) : UnitOfWork User := do
  let found ← (find userId : Query (Option User))
  let user ← orRaise DomainError.invalidOrExpiredToken found
  save (method user)
  return method user

/-- The common part of `verify_email` and `reset_password`. -/
def redeem (env : Env) (token : String) (purpose : UserTokenPurpose) (method : User → User) :
    SystemWork User := do
  let record ← UserTokens.getByToken token purpose
  match record.filter (fun t => t.isValid env.now) with
  | none => throw (.raised .invalidOrExpiredToken)
  | some record =>
    let user ← changeHolder record.userId method
    UserTokens.delete token
    return user

def verifyEmail (env : Env) (token : String) : SystemWork User :=
  redeem env token .emailVerification fun user => user.markEmailVerified env.now

def resetPassword (env : Env) (token newPassword : String) : SystemWork User :=
  redeem env token .passwordReset fun user => user.setPassword (env.hashPassword newPassword)

end Accounts

end Orchestract
