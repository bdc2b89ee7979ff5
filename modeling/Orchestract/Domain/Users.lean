import Orchestract.Domain.Tenancy

/-!
# Users, roles and agents

The aggregates of `app/domain/users/models.py` and `app/domain/agents/models.py`, and the
permission rule of `app/domain/users/permissions.py`. A password reaches these methods hashed;
`verify` is the check of a password against a stored hash.
-/

namespace Orchestract

set_option autoImplicit false

structure Agent where
  id : Nat
  organizationId : Nat
  name : String
  slug : String
  description : Option String
  isActive : Bool
deriving DecidableEq, Repr

instance : Row Agent where
  id := Agent.id
  withId n a := { a with id := n }
  keys a := [⟨"uq_agent_org_slug", a.organizationId, a.slug⟩]
  id_withId _ _ := rfl

namespace Agent

def create (organizationId : Nat) (name : String) (description : Option String) :
    Except DomainError Agent := do
  let name := Text.strip name
  raiseIf (name = "") .emptyAgentName
  return ⟨0, organizationId, name, Text.slugify name, description, true⟩

def rename (a : Agent) (newName : String) : Except DomainError Agent := do
  let newName := Text.strip newName
  raiseIf (newName = "") .emptyAgentName
  return { a with name := newName, slug := Text.slugify newName }

def setDescription (a : Agent) (description : Option String) : Agent :=
  { a with description := description }

def deactivate (a : Agent) : Agent := { a with isActive := false }

def activate (a : Agent) : Agent := { a with isActive := true }

end Agent

structure Role where
  id : Nat
  organizationId : Nat
  name : String
  slug : String
  description : Option String
  agentId : Option Nat
deriving DecidableEq, Repr

instance : Row Role where
  id := Role.id
  withId n r := { r with id := n }
  keys r := [⟨"uq_role_org_slug", r.organizationId, r.slug⟩]
  id_withId _ _ := rfl

namespace Role

def create (organizationId : Nat) (name : String) (description : Option String)
    (agentId : Option Nat) : Except DomainError Role := do
  let name := Text.strip name
  raiseIf (name = "") .emptyRoleName
  return ⟨0, organizationId, name, Text.slugify name, description, agentId⟩

def rename (r : Role) (newName : String) : Except DomainError Role := do
  let newName := Text.strip newName
  raiseIf (newName = "") .emptyRoleName
  return { r with name := newName, slug := Text.slugify newName }

def setDescription (r : Role) (description : Option String) : Role :=
  { r with description := description }

def setAgent (r : Role) (agentId : Option Nat) : Role := { r with agentId := agentId }

end Role

/-- Whether a user of this role may act on a step whose agent has these roles linked to it. -/
def canEditStep (userRoleId : Nat) (rolesLinkedToAgent : List Role) : Bool :=
  if rolesLinkedToAgent = [] then true
  else rolesLinkedToAgent.any (fun role => role.id = userRoleId)

structure User where
  id : Nat
  organizationId : Nat
  name : String
  email : String
  passwordHash : Option String
  googleSub : Option String
  roleId : Nat
  isActive : Bool
  emailVerifiedAt : Option Nat
  locale : Option String
deriving DecidableEq, Repr

instance : Row User where
  id := User.id
  withId n u := { u with id := n }
  keys u := ⟨"uq_user_email", 0, u.email⟩ :: (u.googleSub.toList.map (⟨"users_google_sub", 0, ·⟩))
  id_withId _ _ := rfl

namespace User

def create (organizationId : Nat) (name email passwordHash : String) (roleId : Nat) :
    Except DomainError User := do
  let name := Text.strip name
  raiseIf (name = "") .emptyUserName
  let email := Text.lower (Text.strip email)
  raiseIf (email = "") .emptyUserEmail
  return ⟨0, organizationId, name, email, some passwordHash, none, roleId, true, none, none⟩

/-- An account of a social provider: no password, and an address the provider has verified. -/
def createSocial (organizationId : Nat) (name email : String) (roleId : Nat) (googleSub : String)
    (now : Nat) : Except DomainError User := do
  let name := Text.strip name
  raiseIf (name = "") .emptyUserName
  let email := Text.lower (Text.strip email)
  raiseIf (email = "") .emptyUserEmail
  return ⟨0, organizationId, name, email, none, some googleSub, roleId, true, some now, none⟩

def verifyPassword (verify : String → String → Bool) (u : User) (rawPassword : String) : Bool :=
  match u.passwordHash with
  | none => false
  | some hash => verify rawPassword hash

/-- Attach a Google identity to an existing account, and treat its address as verified. -/
def linkGoogle (u : User) (googleSub : String) (now : Nat) : User :=
  { u with
    googleSub := some googleSub
    emailVerifiedAt := if u.emailVerifiedAt = none then some now else u.emailVerifiedAt }

def markEmailVerified (u : User) (now : Nat) : User := { u with emailVerifiedAt := some now }

def isEmailVerified (u : User) : Bool := u.emailVerifiedAt.isSome

def setLocale (u : User) (locale : Option String) : User := { u with locale := locale }

def setPassword (u : User) (passwordHash : String) : User :=
  { u with passwordHash := some passwordHash }

def rename (u : User) (newName : String) : Except DomainError User := do
  let newName := Text.strip newName
  raiseIf (newName = "") .emptyUserName
  return { u with name := newName }

def setRole (u : User) (roleId : Nat) : User := { u with roleId := roleId }

def deactivate (u : User) : User := { u with isActive := false }

def activate (u : User) : User := { u with isActive := true }

end User

structure UserSession where
  id : Nat
  userId : Nat
  token : String
  expiresAt : Nat
deriving DecidableEq, Repr

instance : Row UserSession where
  id := UserSession.id
  withId n s := { s with id := n }
  keys s := [⟨"user_sessions_token", 0, s.token⟩]
  id_withId _ _ := rfl

def UserSession.isValid (s : UserSession) (now : Nat) : Bool := now < s.expiresAt

inductive UserTokenPurpose where
  | emailVerification
  | passwordReset
deriving DecidableEq, Repr

/-- `EMAIL_VERIFICATION_TTL` and `PASSWORD_RESET_TTL`, in seconds. -/
def UserTokenPurpose.ttl : UserTokenPurpose → Nat
  | .emailVerification => 24 * 3600
  | .passwordReset => 3600

structure UserToken where
  id : Nat
  userId : Nat
  purpose : UserTokenPurpose
  token : String
  expiresAt : Nat
deriving DecidableEq, Repr

instance : Row UserToken where
  id := UserToken.id
  withId n t := { t with id := n }
  keys t := [⟨"user_tokens_token", 0, t.token⟩]
  id_withId _ _ := rfl

namespace UserToken

def issue (userId : Nat) (purpose : UserTokenPurpose) (token : String) (now : Nat) : UserToken :=
  ⟨0, userId, purpose, token, now + purpose.ttl⟩

def isValid (t : UserToken) (now : Nat) : Bool := now < t.expiresAt

end UserToken

end Orchestract
