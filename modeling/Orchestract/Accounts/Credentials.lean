import Orchestract.Accounts.Redemption
import Orchestract.Library.Since
import Orchestract.Sharing.TypedPasswords
import Orchestract.Tenancy.PasswordLinking

/-!
# Who can sign in with a password

What an account is for its owner: the password that was last typed for it, and whether it is active and
its address verified. Whatever has happened, the stored user shows just this account, and a password
signs in exactly when the account says so.
-/

namespace Orchestract

set_option autoImplicit false

inductive AccountEvent where
  | password (rawPassword : String)
  | active (isActive : Bool)
  | verified
deriving DecidableEq, Repr

/-- An account as its owner knows it. -/
structure Account where
  password : Option String
  isActive : Bool
  isVerified : Bool
deriving DecidableEq, Repr

namespace Account

/-- Before it is opened. -/
def blank : Account := ⟨none, false, false⟩

def next (a : Account) : AccountEvent → Account
  | .password rawPassword => { a with password := some rawPassword }
  | .active isActive => { a with isActive := isActive }
  | .verified => { a with isVerified := true }

/-- The stored user is the account, with a hash of its password. -/
structure Shows (scrypt : Password.Scrypt) (a : Account) (u : User) : Prop where
  active : u.isActive = a.isActive
  verified : u.isEmailVerified = a.isVerified
  password : Option.Rel (fun rawPassword encoded =>
    ∃ salt, Password.hashPassword scrypt salt rawPassword = some encoded) a.password u.passwordHash

end Account

variable {scrypt : Password.Scrypt} {a : Account} {u : User} {s s' : System} {env : Env}

namespace Account

end Account

/-! ## What a call does to an account -/

variable {events : List AccountEvent}

variable {files : Bucket → String → Option Bytes} {changes : List Change}

end Orchestract
