import Orchestract.Domain.Slugs
import Orchestract.Isolation.ReadIsolation
import Orchestract.Sharing.Unlocking
import Orchestract.Tenancy.PasswordLinking
import Orchestract.Web.Forms

/-!
# The password that was typed

The share form strips the password before it is stored; the page that unlocks a link checks the text
as it was typed. A password between blanks is stored without them, and its link does not open for
what was typed.
-/

namespace Orchestract

set_option autoImplicit false

/-- The share form is submitted with the text `p` in its password field, and `l` is the new link. -/
structure SharedWith (s s' : System) (env : Env) (p : String) (l : ShareLink) : Prop where
  submitted : ∃ v contractId scope documentIds allowDownload expiresInHours,
    s'.world = (Forms.createShareLink env v contractId scope documentIds allowDownload p expiresInHours
      s.world).2
  created : l ∈ s'.world.db.shareLinks.rows
  fresh : l ∉ s.world.db.shareLinks.rows

/-! ## Sharing -/

theorem orNone_bind_orNone (s : String) : (Text.orNone s).bind Text.orNone = Text.orNone s := by
  unfold Text.orNone
  split
  · rfl
  · rename_i hsome
    exact if_neg hsome

/-- The stored password is the stripped text, and the link is active when it is created. -/
theorem sharedWith_link {s s' : System} {env : Env} {p : String} {l : ShareLink} (h : SharedWith s s' env p l) :
    l.passwordHash = (Text.orNone (Text.strip p)).map env.hashPassword ∧ l.isActive env.now = true := by
  obtain ⟨⟨v, contractId, scope, documentIds, allowDownload, expiresInHours, hworld⟩, hcreated, hfresh⟩ := h
  unfold Forms.createShareLink at hworld
  rw [onContract_world] at hworld
  have hhours : 0 < if expiresInHours ∈ Forms.shareExpiryChoices then expiresInHours else 168 := by
    split
    · rename_i hchoice
      exact Nat.pos_of_ne_zero fun hzero => by simp [Forms.shareExpiryChoices, hzero] at hchoice
    · decide
  generalize (if expiresInHours ∈ Forms.shareExpiryChoices then expiresInHours else 168) = hours at *
  rcases Program.work_state (SharingService.createLink env contractId
      (if scope = "documents" then .documents else .contract) (allowDownload ≠ "") hours v.user.name
      documentIds (Text.orNone (Text.strip p))) s.world with ⟨new, hok⟩ | hsame
  · obtain ⟨c, ids, _, _, _, _, hadd⟩ := SharingService.createLink_ok hok
    obtain ⟨_, t, ht, hdb⟩ := (add_ok_iff _ _ _ _).mp hadd
    rw [hworld, hdb] at hcreated
    rcases (Table.mem_insert_iff ht).mp hcreated with hold | rfl
    · exact absurd hold hfresh
    · obtain ⟨rfl, _, _⟩ := Table.insert_eq_some ht
      refine ⟨congrArg (Option.map env.hashPassword) (orNone_bind_orNone _), ?_⟩
      have hlater : env.now < env.now + hours * 3600 := by omega
      exact decide_eq_true hlater
  · rw [hworld, hsame] at hcreated
    exact absurd hcreated hfresh

/-- The state after the share form is submitted. -/
def System.share (s : System) (env : Env) (v : Viewer) (contractId : Nat) (p : String) : System :=
  { s with world := (Forms.createShareLink env v contractId "contract" [] "" p 24 s.world).2 }

theorem sharedWith_share {s : System} {env : Env} {v : Viewer} {contractId : Nat} {p : String} {l : ShareLink}
    (hcreated : l ∈ (s.share env v contractId p).world.db.shareLinks.rows)
    (hfresh : l ∉ s.world.db.shareLinks.rows) : SharedWith s (s.share env v contractId p) env p l :=
  ⟨⟨v, contractId, "contract", [], "", 24, rfl⟩, hcreated, hfresh⟩

namespace SharedPages

/-- The text unlocks the link of the token. -/
def Unlocks (mac : String → String) (env : Env) (token password : String) (w : World) : Prop :=
  ∃ url cookie, shareUnlock mac env token password w = .ok (.unlocked url cookie)

variable {mac : String → String} {env : Env} {w : World}

/-- What unlocks is the password of an active link. -/
theorem unlocks_iff {token password : String} : Unlocks mac env token password w ↔
    ∃ l ∈ w.db.shareLinks.rows, l.token = token ∧ l.isActive env.now = true ∧ l.hasPassword = true ∧
      l.verifyPassword env.verifyPassword password = true := by
  constructor
  · intro hunlocks
    obtain ⟨url, cookie, hrun⟩ := hunlocks
    have hanswer : Answered mac env none w (.unlock token password) (.unlocked url cookie) := shareUnlock_ok hrun
    cases hanswer with
    | unlocked hl hactive hprotected hverify => exact ⟨_, hl, rfl, hactive, hprotected, hverify⟩
  · intro hlink
    obtain ⟨l, hl, htoken, hactive, hprotected, hverify⟩ := hlink
    unfold Unlocks shareUnlock
    rw [Read.bind_ok (activeLink_some_iff.mpr ⟨hl, htoken, hactive⟩)]
    dsimp only
    rw [if_neg (not_or.mpr ⟨not_not.mpr hprotected, not_not.mpr hverify⟩)]
    exact ⟨_, _, rfl⟩

end SharedPages

/-! ## Unlocking -/

open SharedPages

/-- After any changes, the link opens for the text `p` while it is active, and for no other text. -/
structure OpensAsTyped (scrypt : Password.Scrypt) (mac : String → String) (s : System) (l : ShareLink)
    (p : String) : Prop where
  bare : l.hasPassword = false ↔ Text.strip p = ""
  opens : Text.strip p ≠ "" → ∀ changes (env : Env), env.HashesWith scrypt →
    (∃ l' ∈ (Runs.run System.next s changes).world.db.shareLinks.rows,
      l'.token = l.token ∧ l'.isActive env.now = true) →
    Unlocks mac env l.token p (Runs.run System.next s changes).world
  others : Text.strip p ≠ "" → ∀ q, Text.strip q ≠ Text.strip p → ∀ changes (env : Env),
    env.HashesWith scrypt → ¬ Unlocks mac env l.token q (Runs.run System.next s changes).world

section

variable {scrypt : Password.Scrypt} {mac : String → String} {s s' : System} {env : Env} {p : String}
  {l : ShareLink}

theorem hasPassword_sharedWith (h : SharedWith s s' env p l) :
    l.hasPassword = true ↔ Text.strip p ≠ "" := by
  unfold ShareLink.hasPassword
  rw [(sharedWith_link h).1]
  unfold Text.orNone
  split <;> simp_all

/-- The link keeps its password, which is the stripped text. -/
theorem verify_sharedWith (hfree : Password.CollisionFree scrypt) (henv : env.HashesWith scrypt)
    (h : SharedWith s s' env p l) (hprotected : Text.strip p ≠ "") {later : Env}
    (hlater : later.HashesWith scrypt) {l' : ShareLink} (hcontinues : l.Continues l') (q : String) :
    l'.verifyPassword later.verifyPassword q = true ↔ q = Text.strip p := by
  obtain ⟨salt, hsalt⟩ := henv.hash (Text.strip p)
  have hstored : l'.passwordHash = some (env.hashPassword (Text.strip p)) := by
    rw [hcontinues.passwordHash, (sharedWith_link h).1, Text.orNone, if_neg hprotected]
    rfl
  unfold ShareLink.verifyPassword
  rw [hstored, hlater.verify]
  exact Password.verify_hash_iff hfree hsalt q

/-- The link with the token of `l`, after any changes. -/
theorem link_later (hl : l ∈ s.world.db.shareLinks.rows) (changes : List Change) {l' : ShareLink}
    (hl' : l' ∈ (Runs.run System.next s changes).world.db.shareLinks.rows) (htoken : l'.token = l.token) :
    l.Continues l' := by
  obtain ⟨l'', hl'', hcontinues⟩ := linksContinue_mem (linksContinue_run s changes) hl
  obtain rfl := Published.link_unique hl' hl'' (htoken.trans hcontinues.token.symm)
  exact hcontinues

/-- What was typed is the password of a link that is active. -/
theorem OpensAsTyped.verify (h : OpensAsTyped scrypt mac s l p) (hprotected : Text.strip p ≠ "")
    (henv : env.HashesWith scrypt) (hl : l ∈ s.world.db.shareLinks.rows) (hactive : l.isActive env.now = true) :
    l.verifyPassword env.verifyPassword p = true := by
  obtain ⟨l', hl', htoken, _, _, hverify⟩ :=
    unlocks_iff.mp (h.opens hprotected [] env henv ⟨l, hl, rfl, hactive⟩)
  obtain rfl := Published.link_unique hl' hl htoken
  exact hverify

/-- What was typed opens the link exactly when there was nothing to strip, or nothing else. -/
theorem opensAsTyped_iff (hfree : Password.CollisionFree scrypt) (henv : env.HashesWith scrypt)
    (h : SharedWith s s' env p l) :
    OpensAsTyped scrypt mac s' l p ↔ Text.strip p = "" ∨ Text.strip p = p := by
  constructor
  · intro hopens
    by_cases hblank : Text.strip p = ""
    · exact Or.inl hblank
    · have hactive := (sharedWith_link h).2
      have hverify := hopens.verify hblank henv h.created hactive
      have htyped := (verify_sharedWith hfree henv h hblank henv l.continues_refl p).mp hverify
      exact Or.inr htyped.symm
  · intro hcondition
    constructor
    · rw [← not_iff_not, Bool.not_eq_false]
      exact hasPassword_sharedWith h
    · rintro hprotected changes later hlater ⟨l', hl', htoken, hactive⟩
      have hcontinues := link_later h.created changes hl' htoken
      refine unlocks_iff.mpr ⟨l', hl', htoken, hactive, ?_, ?_⟩
      · unfold ShareLink.hasPassword
        rw [hcontinues.passwordHash]
        exact (hasPassword_sharedWith h).mpr hprotected
      · apply (verify_sharedWith hfree henv h hprotected hlater hcontinues p).mpr
        exact (hcondition.resolve_left hprotected).symm
    · intro hprotected q hq changes later hlater hunlocks
      obtain ⟨l', hl', htoken, _, _, hverify⟩ := unlocks_iff.mp hunlocks
      have hcontinues := link_later h.created changes hl' htoken
      have hsame := (verify_sharedWith hfree henv h hprotected hlater hcontinues q).mp hverify
      apply hq
      rw [hsame, Text.strip_strip]

end

/-! ## Alice's lease -/

/-- The bytes that `scrypt` derives from the password `secret` between blanks. -/
def derivedSpaced : List UInt8 :=
  [55, 56, 152, 206, 20, 97, 100, 202, 222, 163, 141, 138, 82, 254, 52, 119, 157, 11, 156, 182, 199, 104, 197,
    238, 14, 63, 153, 65, 144, 89, 202, 121]

/-- `scrypt` as far as the links below ask it; other passwords have keys of their own. -/
def scryptShared : Password.Scrypt := fun password salt _ _ _ _ =>
  some (if password = Password.encode "secret" then derivedSecret
    else if password = Password.encode " secret " then derivedSpaced
    else 0 :: (password ++ salt))

theorem scryptShared_collisionFree : Password.CollisionFree scryptShared := by
  have hother : ∀ key ∈ [derivedSecret, derivedSpaced], ∀ rest, key ≠ 0 :: rest := by
    intro key hkey rest heq
    have hhead : ∀ key ∈ [derivedSecret, derivedSpaced], key.head? ≠ some 0 := by decide
    exact hhead key hkey (by rw [heq]; rfl)
  intro salt n r p length a b key ha hb
  have hab := Option.some.inj (ha.trans hb.symm)
  split_ifs at hab with ha₁ hb₁ hb₂ ha₂ hb₁ hb₂ hb₁ hb₂
  · exact ha₁.trans hb₁.symm
  · exact absurd hab (by decide)
  · exact absurd hab (hother _ (by simp) _)
  · exact absurd hab (by decide)
  · exact ha₂.trans hb₂.symm
  · exact absurd hab (hother _ (by simp) _)
  · exact absurd hab.symm (hother _ (by simp) _)
  · exact absurd hab.symm (hother _ (by simp) _)
  · exact List.append_cancel_right (List.cons.inj hab).2

def Env.sharing (now : Nat) (randomToken : String) : Env :=
  { Env.offline now randomToken with
    hashPassword := fun p => (Password.hashPassword scryptShared saltSecret p).getD ""
    verifyPassword := Password.verifyPassword scryptShared }

theorem hashesWith_sharing (now : Nat) (randomToken : String) :
    (Env.sharing now randomToken).HashesWith scryptShared :=
  ⟨fun _ => ⟨saltSecret, rfl⟩, rfl⟩

def leaseReady : System := System.after (fun _ _ => none) (leaseDrafts.map .call)

/-- Alice shares her lease with this text in the password field. -/
def leaseSharedAs (p : String) : System := leaseReady.share (.sharing 2 "first") aliceSignedIn 1 p

def leaseLink (p : String) : ShareLink :=
  ⟨1, 1, "first", .contract, (Text.orNone p).map (Env.sharing 2 "first").hashPassword, false, "Alice", 2,
    2 + 24 * 3600, none, none, []⟩

theorem opensAsTyped_iff_secret : OpensAsTyped scryptShared exampleMac.mac (leaseSharedAs "secret")
    (leaseLink "secret") "secret" ↔ Text.strip "secret" = "" ∨ Text.strip "secret" = "secret" := by
  have hshared : SharedWith leaseReady (leaseSharedAs "secret") (.sharing 2 "first") "secret" (leaseLink "secret") :=
    sharedWith_share (by decide +kernel) (by decide +kernel)
  exact opensAsTyped_iff scryptShared_collisionFree (hashesWith_sharing 2 "first") hshared

/-- A password between blanks does not open its link. -/
theorem not_opensAsTyped_spaced :
    Password.CollisionFree scryptShared ∧ (Env.sharing 2 "first").HashesWith scryptShared ∧
      SharedWith leaseReady (leaseSharedAs " secret ") (.sharing 2 "first") " secret " (leaseLink "secret") ∧
      ¬ OpensAsTyped scryptShared exampleMac.mac (leaseSharedAs " secret ") (leaseLink "secret") " secret " := by
  have hshared : SharedWith leaseReady (leaseSharedAs " secret ") (.sharing 2 "first") " secret "
      (leaseLink "secret") := sharedWith_share (by decide +kernel) (by decide +kernel)
  refine ⟨scryptShared_collisionFree, hashesWith_sharing 2 "first", hshared, fun hopens => ?_⟩
  have hverify := hopens.verify (by decide +kernel) (hashesWith_sharing 2 "first") hshared.created (by decide)
  have hrefused : (leaseLink "secret").verifyPassword (Env.sharing 2 "first").verifyPassword " secret " = false := by
    decide +kernel
  rw [hrefused] at hverify
  cases hverify

end Orchestract
