import Orchestract.Accounts.Redemption
import Orchestract.Isolation.WriteIsolation
import Orchestract.Library.Admissions

/-!
# Concurrent redemptions of one link

A request that redeems a token reads its row, changes the user and deletes the row by its token. A
second request that has read the row before it was deleted still succeeds.
-/

namespace Orchestract

set_option autoImplicit false

/-- A link that is followed. -/
inductive Redemption where
  | verifyEmail (token : String)
  | resetPassword (token newPassword : String)

namespace Redemption

def token : Redemption → String
  | verifyEmail token | resetPassword token _ => token

def purpose : Redemption → UserTokenPurpose
  | verifyEmail _ => .emailVerification
  | resetPassword .. => .passwordReset

def method (env : Env) : Redemption → User → User
  | verifyEmail _, user => user.markEmailVerified env.now
  | resetPassword _ newPassword, user => user.setPassword (env.hashPassword newPassword)

def operation : Redemption → Operation
  | verifyEmail token => .verifyEmail token
  | resetPassword token newPassword => .resetPassword token newPassword

end Redemption

namespace Accounts

/-- The row of a token that is valid. -/
def checkToken (env : Env) (token : String) (purpose : UserTokenPurpose) : SystemQuery UserToken := do
  let record ← UserTokens.getByToken token purpose
  match record.filter (fun t => t.isValid env.now) with
  | none => throw (.raised .invalidOrExpiredToken)
  | some record => return record

/-- The change of its user, who is there as long as the token is, and the `DELETE`. -/
def useToken (token : String) (method : User → User) (record : UserToken) : SystemWork User := do
  let user ← changeHolder record.userId method
  UserTokens.delete token
  return user

variable {env : Env} {s s' l : System}

theorem redeem_eq (token : String) (purpose : UserTokenPurpose) (method : User → User) :
    redeem env token purpose method =
      (liftM (checkToken env token purpose) : SystemWork UserToken) >>= useToken token method := by
  unfold redeem checkToken
  simp only [Work.lift_bind, bind_assoc]
  refine congrArg _ (funext fun record => ?_)
  cases record.filter (fun t => t.isValid env.now) <;> rfl

/-- The commit of a request that has read `l`. -/
def writesToken {κ : Type} (request : κ → Env × Redemption) (k : κ) : System → System → Option System :=
  Work.stale (checkToken (request k).1 (request k).2.token (request k).2.purpose)
    (useToken (request k).2.token ((request k).2.method (request k).1))

/-- A request that nothing interrupts is the call of its service. -/
theorem alone_writesToken {κ : Type} (request : κ → Env × Redemption) (s : System) (k : κ) :
    UnitsOfWork.alone (writesToken request) s k = perform s ⟨(request k).1, (request k).2.operation⟩ := by
  unfold UnitsOfWork.alone writesToken
  rw [Work.stale_self, ← redeem_eq]
  cases hk : (request k).2 with
  | verifyEmail token =>
    change _ = (Operation.unitWithTokens (verifyEmail (request k).1 token) s).2
    rw [unitWithTokens_apply]
    change ((verifyEmail (request k).1 token s).toOption.map Prod.snd).getD s = _
    cases verifyEmail (request k).1 token s <;> rfl
  | resetPassword token newPassword =>
    change _ = (Operation.unitWithTokens (resetPassword (request k).1 token newPassword) s).2
    rw [unitWithTokens_apply]
    change ((resetPassword (request k).1 token newPassword s).toOption.map Prod.snd).getD s = _
    cases resetPassword (request k).1 token newPassword s <;> rfl

/-- No row has the token. -/
def Spent (token : String) (s : System) : Prop := ∀ t ∈ s.tokens.rows, t.token ≠ token

theorem checkToken_ok {token : String} {purpose : UserTokenPurpose} {record : UserToken}
    (h : checkToken env token purpose s = .ok record) : ¬ Spent token s := by
  obtain ⟨found, hfound, h⟩ := (Read.bind_ok_iff _ _ _ _).mp h
  intro hspent
  have hnone : UserTokens.getByToken token purpose s = .ok none :=
    getByToken_eq_none fun t ht heq => absurd heq (hspent t ht)
  obtain rfl := Except.ok.inj (hfound.symm.trans hnone)
  cases h

theorem useToken_ok {token : String} {method : User → User} {record : UserToken} {user : User}
    (h : useToken token method record s = .ok (user, s')) :
    s'.tokens = s.tokens.delete (fun t => t.token = token) := by
  obtain ⟨_, s₁, hchange, h⟩ := (Work.bind_ok_iff _ _ s s' _).mp h
  obtain ⟨_, s₂, hdelete, hpure⟩ := (Work.bind_ok_iff _ _ s₁ s' _).mp h
  obtain ⟨_, htokens⟩ := onSystem_ok_iff.mp hchange
  obtain ⟨_, rfl⟩ := Prod.mk.inj (Except.ok.inj hdelete)
  obtain ⟨_, rfl⟩ := (Work.pure_ok_iff _ _ _ _).mp hpure
  change s₁.tokens.delete _ = _
  rw [htokens]

theorem spends_token {κ : Type} (request : κ → Env × Redemption) (token : String) :
    UnitsOfWork.Spends (writesToken request) (fun k => (request k).2.token = token) (Spent token) := by
  constructor
  · intro k l s s' hk hwrite
    obtain ⟨record, user, hcheck, huse⟩ := Work.stale_eq_some.mp hwrite
    rw [hk] at hcheck huse
    refine ⟨checkToken_ok hcheck, fun t ht => ?_⟩
    rw [useToken_ok huse, Table.mem_delete_iff] at ht
    simpa using ht.2
  · intro k l s s' hwrite hspent t ht
    obtain ⟨record, user, _, huse⟩ := Work.stale_eq_some.mp hwrite
    rw [useToken_ok huse, Table.mem_delete_iff] at ht
    exact hspent t ht.1

/-- Requests that redeem tokens, of which at most `n` are open at a time: in any order of the reads and
commits, one token is redeemed at most `n` times. -/
theorem redeemed_le {κ : Type} [DecidableEq κ] (request : κ → Env × Redemption) (token : String) (s : System)
    {n : Nat} {events : List (UnitsOfWork.Event κ)} (hopen : Runs.Along (UnitsOfWork.step (writesToken request))
      (UnitsOfWork.Bounded (writesToken request) n) (UnitsOfWork.opened s) events) :
    ((UnitsOfWork.accepted (writesToken request) (UnitsOfWork.opened s) events).filter
      fun k => (request k).2.token = token).length ≤ n :=
  UnitsOfWork.accepted_le_of_spends (spends_token request token) _ (by simp [UnitsOfWork.Shared.units, UnitsOfWork.opened])
    events hopen

end Accounts

/-- Alice has asked for a link to set a new password. -/
def aliceForgets : System := Runs.run perform ⟨World.empty, .empty⟩
  [⟨.offline 1 "verify", .register "Acme" "Alice" "alice@acme.test" "secret" none none⟩,
    ⟨.offline 2 "reset", .createPasswordResetToken "alice@acme.test"⟩]

/-- Two requests follow the link at the same time, and both set a password. -/
theorem Accounts.redeemed_le_two :
    let request : Bool → Env × Redemption := fun k =>
      (.offline 3 "", .resetPassword "reset" (if k then "first" else "second"))
    let redeemed := (UnitsOfWork.accepted (writesToken request) (UnitsOfWork.opened aliceForgets)
      [.load false, .load true, .commit false, .commit true]).filter fun k => (request k).2.token = "reset"
    redeemed = [false, true] ∧ redeemed.length ≤ 2 := by
  intro request redeemed
  refine ⟨by decide +kernel, redeemed_le request "reset" aliceForgets (UnitsOfWork.along_bounded _ _)⟩

end Orchestract
