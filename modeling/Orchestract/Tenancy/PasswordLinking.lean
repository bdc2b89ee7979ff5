import Orchestract.Domain.Passwords
import Orchestract.Tenancy.Signup

/-!
# A password from before a link

Whoever registers somebody else's address cannot sign in until the address is verified. A link to a
Google identity verifies it: what becomes of the password that is already there.
-/

namespace Orchestract

set_option autoImplicit false

/-- The process hashes and checks passwords with this key derivation, with a salt of its own. -/
structure Env.HashesWith (scrypt : Password.Scrypt) (env : Env) : Prop where
  hash : ∀ p, ∃ salt, Password.hashPassword scrypt salt p = some (env.hashPassword p)
  verify : env.verifyPassword = Password.verifyPassword scrypt

/-- The call stores the password as that of the user. -/
structure Stores (s : System) (i : Input) (userId : Nat) (p : String) : Prop where
  password : i.operation.password = some p
  returns : (i.operation.run i.env s).1 = .ok ()
  stored : ∃ u, (perform s i).world.db.users.get userId = some u ∧
    u.passwordHash = some (i.env.hashPassword p)

def StoredAlong (s : System) (inputs : List Input) (userId : Nat) (p : String) : Prop :=
  ∃ before call after, inputs = before ++ call :: after ∧
    Stores (Runs.run perform s before) call userId p

/-- The call links a Google identity to this account. -/
def Links (s : System) (i : Input) (u : User) : Prop :=
  u ∈ s.world.db.users.rows ∧ (i.operation.run i.env s).1 = .ok () ∧
    ∃ identity termsVersion ipAddress userAgent,
      i.operation = .loginOrRegisterGoogle identity termsVersion ipAddress userAgent ∧
        u.email = Text.lower (Text.strip identity.email)

/-- In every run of these calls, a link to an account that was not verified takes the passwords that
were stored before it away. -/
def LocksOut (scrypt : Password.Scrypt) (s : System) (inputs : List Input) : Prop :=
  ∀ before link after rest, inputs = before ++ link :: (after ++ rest) →
    ∀ u, Links (Runs.run perform s before) link u → u.isEmailVerified = false →
      ∀ p, StoredAlong s before u.id p →
        ¬ StoredAlong (Runs.run perform s (before ++ [link])) after u.id p →
        ∀ (env : Env), env.HashesWith scrypt → ∀ email, Text.lower (Text.strip email) = u.email →
          ∀ a, UserService.authenticate env email p
            (Runs.run perform s (before ++ link :: after)).world ≠ .ok a

/-- The call comes with a verified identity that no other account has, for an account that is
active and not verified. -/
def LinksUnverified (s : System) (i : Input) : Prop :=
  ∃ identity termsVersion ipAddress userAgent,
    i.operation = .loginOrRegisterGoogle identity termsVersion ipAddress userAgent ∧
      identity.email ≠ "" ∧ identity.emailVerified = true ∧
      ∃ u ∈ s.world.db.users.rows, u.email = Text.lower (Text.strip identity.email) ∧
        u.isActive = true ∧ u.isEmailVerified = false ∧
        ∀ v ∈ s.world.db.users.rows, v.id ≠ u.id → v.googleSub ≠ some identity.sub

/-! ## The link -/

variable {s : System} {i : Input} {w : World}

theorem loginOrRegisterGoogle_taken_ok_iff {env : Env} {identity : GoogleIdentity}
    {termsVersion : String} {ipAddress userAgent : Option String} {u a : User} {w' : World}
    (hu : u ∈ w.db.users.rows) (he : u.email = Text.lower (Text.strip identity.email)) :
    SocialAuthService.loginOrRegisterGoogle env identity termsVersion ipAddress userAgent w =
        .ok (a, w') ↔
      identity.email ≠ "" ∧ identity.emailVerified = true ∧ u.isActive = true ∧
        save (u.linkGoogle identity.sub env.now) w = .ok ((), w') ∧
          u.linkGoogle identity.sub env.now = a := by
  simp only [SocialAuthService.loginOrRegisterGoogle, Work.bind_ok_iff, lift_work_ok_iff,
    Work.lift_ok_iff, raiseIf_ok_iff]
  constructor
  · rintro ⟨_, _, ⟨hne, rfl⟩, _, _, ⟨hv, rfl⟩, found, _, ⟨hfound, rfl⟩, h⟩
    obtain rfl := Except.ok.inj ((getByEmail_taken hu he).symm.trans hfound)
    simp only [Work.bind_ok_iff, lift_work_ok_iff, raiseIf_ok_iff, Work.pure_ok_iff] at h
    obtain ⟨_, _, ⟨ha, rfl⟩, _, _, hsave, rfl, rfl⟩ := h
    exact ⟨hne, by simpa using hv, by simpa using ha, hsave, rfl⟩
  · rintro ⟨hne, hv, ha, hsave, rfl⟩
    refine ⟨(), w, ⟨hne, rfl⟩, (), w, ⟨by simpa using hv, rfl⟩, some u, w,
      ⟨getByEmail_taken hu he, rfl⟩, ?_⟩
    simp only [Work.bind_ok_iff, lift_work_ok_iff, raiseIf_ok_iff, Work.pure_ok_iff]
    exact ⟨(), w, ⟨by simpa using ha, rfl⟩, (), w', hsave, trivial, rfl⟩

theorem unit_returns_iff {α : Type} {m : UnitOfWork α} :
    (Operation.unit m s).1 = .ok () ↔
      ∃ a w', m s.world = .ok (a, w') ∧ (Operation.unit m s).2.world = w' := by
  rw [unit_apply]
  cases m s.world with
  | ok p => exact ⟨fun _ => ⟨p.1, p.2, rfl, rfl⟩, fun _ => rfl⟩
  | error e => simp

/-- The linked account is saved when its sub is new. -/
theorem save_linkGoogle_iff (h : Referenced w) {u : User} (hu : u ∈ w.db.users.rows) (googleSub : String)
    (now : Nat) : (∃ w', save (u.linkGoogle googleSub now) w = .ok ((), w')) ↔
      ∀ v ∈ w.db.users.rows, v.id ≠ u.id → v.googleSub ≠ some googleSub := by
  have hrefs : refsExist (u.linkGoogle googleSub now) w.db = true := h.users u hu
  have hupdate : (∃ w', save (u.linkGoogle googleSub now) w = .ok ((), w')) ↔
      ∃ t, w.db.users.update (u.linkGoogle googleSub now) = some t := by
    constructor
    · rintro ⟨w', hsave⟩
      obtain ⟨_, t, ht, _⟩ := (save_ok_iff _ w w').mp hsave
      exact ⟨t, ht⟩
    · rintro ⟨t, ht⟩
      exact ⟨_, (save_ok_iff _ w _).mpr ⟨hrefs, t, ht, rfl⟩⟩
  rw [hupdate, Table.update_isSome_iff]
  exact apart_linkGoogle_iff hu

theorem linksUnverified_iff (h : Referenced s.world) :
    LinksUnverified s i ↔ ∃ u, Links s i u ∧ u.isEmailVerified = false := by
  constructor
  · rintro ⟨identity, termsVersion, ipAddress, userAgent, hcall, hne, hv, u, hu, he, ha, hun, hsub⟩
    refine ⟨u, ⟨hu, ?_, identity, termsVersion, ipAddress, userAgent, hcall, he⟩, hun⟩
    obtain ⟨w', hsave⟩ := (save_linkGoogle_iff h hu identity.sub i.env.now).mpr hsub
    have hlogin : SocialAuthService.loginOrRegisterGoogle i.env identity termsVersion ipAddress userAgent
        s.world = .ok (u.linkGoogle identity.sub i.env.now, w') :=
      (loginOrRegisterGoogle_taken_ok_iff hu he).mpr ⟨hne, hv, ha, hsave, rfl⟩
    rw [hcall]
    refine unit_returns_iff.mpr ⟨_, w', hlogin, ?_⟩
    rw [unit_apply, hlogin]
  · rintro ⟨u, ⟨hu, hreturns, identity, termsVersion, ipAddress, userAgent, hcall, he⟩, hun⟩
    rw [hcall] at hreturns
    obtain ⟨a, w', hlogin, _⟩ := unit_returns_iff.mp hreturns
    obtain ⟨hne, hv, ha, hsave, _⟩ := (loginOrRegisterGoogle_taken_ok_iff hu he).mp hlogin
    exact ⟨identity, termsVersion, ipAddress, userAgent, hcall, hne, hv, u, hu, he, ha, hun,
      (save_linkGoogle_iff h hu _ _).mp ⟨w', hsave⟩⟩

/-- The account after the link. -/
theorem get_of_links {u : User} (h : Links s i u) : ∃ u', u' ∈ (perform s i).world.db.users.rows ∧
    u'.email = u.email ∧ u'.passwordHash = u.passwordHash ∧ u'.isActive = true ∧
      u'.isEmailVerified = true := by
  obtain ⟨hu, hreturns, identity, termsVersion, ipAddress, userAgent, hcall, he⟩ := h
  unfold perform
  rw [hcall] at hreturns ⊢
  obtain ⟨a, w', hlogin, hw'⟩ := unit_returns_iff.mp hreturns
  obtain ⟨_, _, ha, hsave, _⟩ := (loginOrRegisterGoogle_taken_ok_iff hu he).mp hlogin
  obtain ⟨_, t, ht, rfl⟩ := (save_ok_iff _ _ w').mp hsave
  refine ⟨u.linkGoogle identity.sub i.env.now, ?_, rfl, rfl, ha, ?_⟩
  · change _ ∈ ((Operation.unit _ s).2).world.db.users.rows
    rw [hw']
    exact Table.mem_of_update ht hu rfl
  · unfold User.isEmailVerified User.linkGoogle
    split_ifs with hnone
    · rfl
    · exact Option.isSome_iff_ne_none.mpr hnone

/-! ## The password -/

/-- Where the password of an unverified account comes from. -/
theorem password_of_perform : ∀ u' ∈ (perform s i).world.db.users.rows, u'.isEmailVerified = false →
    (∃ u ∈ s.world.db.users.rows, u.id = u'.id ∧ u.isEmailVerified = false ∧
      u.passwordHash = u'.passwordHash) ∨
    ∃ p, i.operation.password = some p ∧ u'.passwordHash = some (i.env.hashPassword p) := by
  refine perform_invariant (I := fun w => ∀ u' ∈ w.db.users.rows, u'.isEmailVerified = false →
    (∃ u ∈ s.world.db.users.rows, u.id = u'.id ∧ u.isEmailVerified = false ∧
      u.passwordHash = u'.passwordHash) ∨
    ∃ p, i.operation.password = some p ∧ u'.passwordHash = some (i.env.hashPassword p))
    ?_ fun u' hu' hun => Or.inl ⟨u', hu', rfl, hun, rfl⟩
  intro w w' ih hstep
  have hnew : ∀ {u new : User} {t : Table User}, w.db.users.insert u = some (new, t) → NewUser i u →
      ∀ u' ∈ t.rows, u'.isEmailVerified = false →
        (∃ u ∈ s.world.db.users.rows, u.id = u'.id ∧ u.isEmailVerified = false ∧
          u.passwordHash = u'.passwordHash) ∨
        ∃ p, i.operation.password = some p ∧ u'.passwordHash = some (i.env.hashPassword p) := by
    intro u new t hinsert hu u' hu' hun
    obtain ⟨hrow, _, _⟩ := Table.insert_eq_some hinsert
    rcases (Table.mem_insert_iff hinsert).mp hu' with hold | rfl
    · exact ih u' hold hun
    · rw [hrow] at hun ⊢
      rcases hu with hp | ⟨_, hv⟩
      · exact Or.inr hp
      · exact absurd (hv.symm.trans hun) (by decide)
  cases hstep with
  | newAccount ho free hr roleOf unlinked hinsert userOf owner new => exact hnew hinsert new
  | newUser ho refs room hinsert new => exact hnew hinsert new
  | @user u u' t hu edit refs hupdate =>
    intro v hv hun
    rcases Table.mem_update hupdate hv with rfl | ⟨hv, _⟩
    · have hunverified : u.isEmailVerified = false := by
        by_contra hne
        rw [edit.verified (Bool.of_not_eq_false hne)] at hun
        cases hun
      rcases edit.passwordHash with hsame | hp
      · rw [hsame, edit.id]
        exact ih u hu hunverified
      · exact Or.inr hp
    · exact ih v hv hun
  | _ => exact ih

/-- A call with a password that does not return has changed nothing. -/
theorem perform_of_error {p : String} (hp : i.operation.password = some p)
    (h : (i.operation.run i.env s).1 ≠ .ok ()) : perform s i = s := by
  have hunit : ∀ {α : Type} (m : UnitOfWork α), (Operation.unit m s).1 ≠ .ok () →
      (Operation.unit m s).2 = s := by
    intro α m hm
    rw [unit_apply] at hm ⊢
    cases hw : m s.world with
    | ok a => exact absurd (by rw [hw]) hm
    | error e => rfl
  have hunitWithTokens : ∀ {α : Type} (m : SystemWork α), (Operation.unitWithTokens m s).1 ≠ .ok () →
      (Operation.unitWithTokens m s).2 = s := by
    intro α m hm
    rw [unitWithTokens_apply] at hm ⊢
    cases hw : m s with
    | ok a => exact absurd (by rw [hw]) hm
    | error e => rfl
  unfold perform
  cases hcall : i.operation with
  | register organizationName userName email rawPassword ipAddress userAgent =>
    rw [hcall] at h
    exact hunitWithTokens _ h
  | createUser organizationId name email rawPassword roleId =>
    rw [hcall] at h
    exact hunit _ h
  | changePassword userId currentPassword newPassword =>
    rw [hcall] at h
    exact hunit _ h
  | resetPassword token newPassword =>
    rw [hcall] at h
    exact hunitWithTokens _ h
  | _ =>
    rw [hcall] at hp
    cases hp

/-- The hash of an unverified account is that of a password which one of the calls stored. -/
theorem password_stored (hs : s.world.db.users.rows = []) (inputs : List Input) :
    ∀ u ∈ (Runs.run perform s inputs).world.db.users.rows, u.isEmailVerified = false →
      ∃ before call after p, inputs = before ++ call :: after ∧
        Stores (Runs.run perform s before) call u.id p ∧
          u.passwordHash = some (call.env.hashPassword p) := by
  induction inputs using List.reverseRecOn with
  | nil =>
    intro u hu
    rw [Runs.run_nil, hs] at hu
    cases hu
  | append_singleton inputs i ih =>
    have hold : ∀ u ∈ (Runs.run perform s inputs).world.db.users.rows, u.isEmailVerified = false →
        ∃ before call after p, inputs ++ [i] = before ++ call :: after ∧
          Stores (Runs.run perform s before) call u.id p ∧
            u.passwordHash = some (call.env.hashPassword p) := by
      intro u hu hun
      obtain ⟨before, call, after, p, rfl, hstores, hhash⟩ := ih u hu hun
      exact ⟨before, call, after ++ [i], p, by simp, hstores, hhash⟩
    intro u' hu' hun
    rw [Runs.run_append] at hu'
    change u' ∈ (perform (Runs.run perform s inputs) i).world.db.users.rows at hu'
    by_cases hreturns : (i.operation.run i.env (Runs.run perform s inputs)).1 = .ok ()
    · rcases password_of_perform u' hu' hun with ⟨u, hu, hid, hunverified, hhash⟩ | ⟨p, hp, hhash⟩
      · rw [← hid, ← hhash]
        exact hold u hu hunverified
      · exact ⟨inputs, i, [], p, rfl,
          ⟨hp, hreturns, u', Table.get_eq_some_iff.mpr ⟨hu', rfl⟩, hhash⟩, hhash⟩
    · rcases password_of_perform u' hu' hun with ⟨u, hu, hid, hunverified, hhash⟩ | ⟨p, hp, _⟩
      · rw [← hid, ← hhash]
        exact hold u hu hunverified
      · rw [perform_of_error hp hreturns] at hu'
        exact hold u' hu' hun

theorem authenticate_ok {env : Env} {email p : String} {u : User} (hu : u ∈ w.db.users.rows)
    (he : u.email = Text.lower (Text.strip email)) (hactive : u.isActive = true)
    (hverified : u.isEmailVerified = true) (hp : u.verifyPassword env.verifyPassword p = true) :
    UserService.authenticate env email p w = .ok u := by
  unfold UserService.authenticate
  rw [Read.bind_ok (getByEmail_taken hu he)]
  simp [orRaise, hactive, hverified, hp]

/-! ## Runs -/

/-- A run of calls from an empty database locks out the passwords from before its links exactly
when it has no link to an unverified account. -/
theorem locksOut_iff (scrypt : Password.Scrypt) (files : Bucket → String → Option Bytes)
    (inputs : List Input) (hscrypt : ∀ i ∈ inputs, i.env.HashesWith scrypt) :
    LocksOut scrypt ⟨⟨.empty, files⟩, .empty⟩ inputs ↔
      Runs.Along perform (fun s i => ¬ LinksUnverified s i) ⟨⟨.empty, files⟩, .empty⟩ inputs := by
  rw [Runs.along_iff]
  constructor
  · rintro hlocks before link after rfl hlinks
    obtain ⟨u, hlink, hun⟩ := (linksUnverified_iff (referenced_run files before)).mp hlinks
    obtain ⟨pre, call, post, p, rfl, hstores, hhash⟩ := password_stored rfl before u hlink.1 hun
    obtain ⟨u', hu', hemail, hhash', hactive, hverified⟩ := get_of_links hlink
    obtain ⟨identity, _, _, _, _, he⟩ := hlink.2.2
    have hcall : call.env.HashesWith scrypt := hscrypt call (by simp)
    obtain ⟨salt, hsalt⟩ := hcall.hash p
    have hverify : u'.verifyPassword call.env.verifyPassword p = true := by
      unfold User.verifyPassword
      rw [hhash', hhash, hcall.verify]
      exact Password.verify_hash hsalt
    refine hlocks (pre ++ call :: post) link [] after rfl u hlink hun p ⟨pre, call, post, rfl, hstores⟩
      ?_ call.env hcall identity.email he.symm u' ?_
    · rintro ⟨before, again, after, hnil, _⟩
      simp at hnil
    · rw [Runs.run_append]
      exact authenticate_ok hu' (hemail.trans he) hactive hverified hverify
  · rintro hnone before link after rest rfl u hlink hun
    exact absurd ((linksUnverified_iff (referenced_run files before)).mpr ⟨u, hlink, hun⟩)
      (hnone before link (after ++ rest) rfl)

/-! ## Mallory registers Alice's address -/

/-- The bytes that `scrypt` derives from the password `secret` with the salt `0, 1, .., 15`. -/
def derivedSecret : List UInt8 :=
  [149, 68, 228, 137, 121, 218, 60, 137, 109, 251, 127, 127, 91, 192, 21, 251, 50, 14, 129, 15, 131, 114,
    248, 141, 102, 217, 146, 29, 165, 162, 170, 101]

/-- `scrypt` as far as the run below asks it; other passwords have bytes of their own. -/
def scryptSecret : Password.Scrypt := fun password salt _ _ _ _ =>
  some (if password = Password.encode "secret" then derivedSecret else password ++ salt)

def saltSecret : List UInt8 := [0, 1, 2, 3, 4, 5, 6, 7, 8, 9, 10, 11, 12, 13, 14, 15]

def Env.hashing (now : Nat) (randomToken : String) : Env :=
  { Env.offline now randomToken with
    hashPassword := fun p => (Password.hashPassword scryptSecret saltSecret p).getD ""
    verifyPassword := Password.verifyPassword scryptSecret }

theorem hashesWith_hashing (now : Nat) (randomToken : String) :
    (Env.hashing now randomToken).HashesWith scryptSecret :=
  ⟨fun _ => ⟨saltSecret, rfl⟩, rfl⟩

def malloryRegisters : Input :=
  ⟨.hashing 1 "token", .register "Mallory" "Mallory" "alice@acme.test" "secret" none none⟩

def aliceLinks : Input :=
  ⟨.hashing 2 "", .loginOrRegisterGoogle ⟨"g-1", "alice@acme.test", true, "Alice", none⟩ "v1" none none⟩

def malloryRegistered : System := perform ⟨⟨.empty, fun _ _ => none⟩, .empty⟩ malloryRegisters

theorem locksOut_register :
    LocksOut scryptSecret ⟨⟨.empty, fun _ _ => none⟩, .empty⟩ [malloryRegisters] := by
  refine (locksOut_iff scryptSecret (fun _ _ => none) [malloryRegisters] ?_).mpr ⟨?_, trivial⟩
  · intro i hi
    obtain rfl := List.mem_singleton.mp hi
    exact hashesWith_hashing 1 "token"
  · rintro ⟨_, _, _, _, hcall, _⟩
    cases hcall

/-- Mallory signs in with the password from before the link. -/
theorem not_locksOut_link :
    ¬ LocksOut scryptSecret ⟨⟨.empty, fun _ _ => none⟩, .empty⟩ [malloryRegisters, aliceLinks] := by
  intro h
  obtain ⟨u, hu, hid, he, hun⟩ : ∃ u ∈ malloryRegistered.world.db.users.rows,
      u.id = 1 ∧ u.email = "alice@acme.test" ∧ u.isEmailVerified = false := by decide +kernel
  have hstored : (malloryRegistered.world.db.users.get u.id).bind User.passwordHash =
      some (malloryRegisters.env.hashPassword "secret") := by
    rw [hid]
    decide +kernel
  have hlogin : ((UserService.authenticate malloryRegisters.env "alice@acme.test" "secret"
      (perform malloryRegistered aliceLinks).world).toBool) = true := by decide +kernel
  cases ha : UserService.authenticate malloryRegisters.env "alice@acme.test" "secret"
      (perform malloryRegistered aliceLinks).world with
  | error e =>
    rw [ha] at hlogin
    cases hlogin
  | ok a =>
    refine h [malloryRegisters] aliceLinks [] [] rfl u ⟨hu, by decide +kernel, _, _, _, _, rfl, ?_⟩ hun
      "secret" ⟨[], malloryRegisters, [], rfl, rfl, by decide +kernel,
        Option.bind_eq_some_iff.mp hstored⟩ ?_ malloryRegisters.env (hashesWith_hashing 1 "token")
      "alice@acme.test" ?_ a ha
    · rw [he]
      decide
    · rintro ⟨before, again, after, hnil, _⟩
      simp at hnil
    · rw [he]
      decide

end Orchestract
