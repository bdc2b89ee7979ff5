import Orchestract.Accounts.Redemption
import Orchestract.Isolation.WriteIsolation

/-!
# Tokens are used once

Of all tokens that were ever issued, the latest one for each user and purpose can be redeemed, once
and in its time. Nothing else can.
-/

namespace Orchestract

set_option autoImplicit false

open Accounts (register createEmailVerificationToken resendVerification createPasswordResetToken Valid)

/-- The token that a call issues. -/
def Input.issues (s : System) (i : Input) : Option UserToken :=
  match i.operation with
  | .register organizationName userName email rawPassword ipAddress userAgent =>
    (register i.env organizationName userName email rawPassword ipAddress userAgent s).toOption.map fun p => p.1.2.2
  | .createEmailVerificationToken userId =>
    (createEmailVerificationToken i.env userId s).toOption.map fun p => p.1
  | .resendVerification email => (resendVerification i.env email s).toOption.bind fun p => p.1.map Prod.snd
  | .createPasswordResetToken email =>
    (createPasswordResetToken i.env email s).toOption.bind fun p => p.1.map Prod.snd
  | _ => none

/-- The text of the token that a call redeems. -/
def Input.redeems (s : System) (i : Input) : Option String :=
  match i.operation with
  | .verifyEmail token => (Accounts.verifyEmail i.env token s).toOption.map fun _ => token
  | .resetPassword token newPassword =>
    (Accounts.resetPassword i.env token newPassword s).toOption.map fun _ => token
  | _ => none

def Change.issues (s : System) : Change → Option UserToken
  | .call i => i.issues s
  | _ => none

def Change.redeems (s : System) : Change → Option String
  | .call i => i.redeems s
  | _ => none

/-- The token that was issued last to this user for this purpose. -/
def latestToken (issued : List UserToken) (userId : Nat) (purpose : UserTokenPurpose) : Option UserToken :=
  (issued.filter fun t => t.userId = userId && t.purpose = purpose).getLast?

/-- The operation that redeems a token of this purpose. -/
def redemption (token newPassword : String) : UserTokenPurpose → Operation
  | .emailVerification => .verifyEmail token
  | .passwordReset => .resetPassword token newPassword

/-- The system, the tokens issued so far, and the texts of the redeemed ones. -/
structure Issuance where
  system : System
  issued : List UserToken
  redeemed : List String

namespace Issuance

def initial (files : Bucket → String → Option Bytes) : Issuance := ⟨.initial files, [], []⟩

def next (s : Issuance) (c : Change) : Issuance where
  system := s.system.next c
  issued := s.issued ++ (c.issues s.system).toList
  redeemed := s.redeemed ++ (c.redeems s.system).toList

/-- The text of a new token has not been issued before. -/
def Fresh (s : Issuance) (c : Change) : Prop :=
  ∀ t ∈ c.issues s.system, t.token ∉ s.issued.map UserToken.token

instance (s : Issuance) (c : Change) : Decidable (s.Fresh c) :=
  inferInstanceAs (Decidable (∀ t ∈ c.issues s.system, t.token ∉ s.issued.map UserToken.token))

/-- The latest token of its user and purpose, neither redeemed nor expired. -/
def Redeemable (s : Issuance) (token : String) (purpose : UserTokenPurpose) (now : Nat) : Prop :=
  ∃ t, t.token = token ∧ t.purpose = purpose ∧ latestToken s.issued t.userId t.purpose = some t ∧ token ∉ s.redeemed ∧
    now < t.expiresAt

/-- The call raises `InvalidOrExpiredTokenError`, and nothing changes. -/
def Refuses (s : Issuance) (env : Env) (operation : Operation) : Prop :=
  operation.run env s.system = (.error (.raised .invalidOrExpiredToken), s.system)

/-- What can be said of the tokens in this state. -/
structure UsedOnce (s : Issuance) : Prop where
  single : ∀ t ∈ s.system.tokens.rows, ∀ t' ∈ s.system.tokens.rows, t.Rivals t' → t = t'
  redeems : ∀ env token newPassword purpose,
    ((redemption token newPassword purpose).run env s.system).1 = .ok () ↔ s.Redeemable token purpose env.now
  refuses : ∀ env token newPassword purpose, ¬ s.Redeemable token purpose env.now →
    s.Refuses env (redemption token newPassword purpose)
  spent : ∀ t ∈ s.issued, ∀ env newPassword purpose,
    t.token ∈ s.redeemed ∨ latestToken s.issued t.userId t.purpose ≠ some t ∨ t.expiresAt ≤ env.now ∨ purpose ≠ t.purpose →
      s.Refuses env (redemption t.token newPassword purpose)

end Issuance

/-! ## One change -/

/-- What a change does to the stored tokens, with the token it issues and the one it redeems. -/
inductive TokensAfter (s s' : System) : Option UserToken → Option String → Prop
  | same : s'.tokens = s.tokens → TokensAfter s s' none none
  | issued {t : UserToken} : Supersedes s s' t → TokensAfter s s' (some t) none
  | redeemed {token : String} {purpose : UserTokenPurpose} {now : Nat} : Valid s token purpose now →
      s'.tokens = s.tokens.delete (fun t => t.token = token) → TokensAfter s s' none (some token)

theorem tokens_unit {α : Type} {m : SystemWork α} {s : System} {f : α → Option UserToken}
    (h : ∀ a s', m s = .ok (a, s') → TokensAfter s s' (f a) none) :
    TokensAfter s (Operation.unitWithTokens m s).2 ((m s).toOption.bind fun p => f p.1) none := by
  rw [unitWithTokens_apply]
  cases hm : m s with
  | ok p => exact h p.1 p.2 hm
  | error e => exact .same rfl

theorem tokens_issuesTo {s s' : System} {found : Option (User × UserToken)}
    (h : Accounts.IssuesTo s s' found) : TokensAfter s s' (found.map Prod.snd) none := by
  rcases h with ⟨rfl, rfl⟩ | ⟨_, _, rfl, hnew⟩
  · exact .same rfl
  · exact .issued hnew

theorem tokens_redeem {env : Env} {token : String} {purpose : UserTokenPurpose} {method : User → User}
    {s : System} : TokensAfter s (Operation.unitWithTokens (Accounts.redeem env token purpose method) s).2 none
      ((Accounts.redeem env token purpose method s).toOption.map fun _ => token) := by
  rw [unitWithTokens_apply]
  cases hm : Accounts.redeem env token purpose method s with
  | ok p => exact .redeemed (Accounts.valid_of_redeem hm) (Accounts.redeem_ok hm)
  | error e => exact .same rfl

theorem tokens_next {s : System} (hheld : HeldByUsers s) (c : Change) :
    TokensAfter s (s.next c) (c.issues s) (c.redeems s) := by
  cases c with
  | call i =>
    obtain ⟨env, operation⟩ := i
    cases operation with
    | register organizationName userName email rawPassword ipAddress userAgent =>
      have hissues : Change.issues s (.call ⟨env, .register organizationName userName email rawPassword
        ipAddress userAgent⟩) =
        (register env organizationName userName email rawPassword
          ipAddress userAgent s).toOption.bind fun p => some p.1.2.2 :=
          Option.map_eq_bind
      rw [hissues]
      exact tokens_unit (f := fun a : Organization × User × UserToken => some a.2.2)
        fun _ _ h => .issued (Accounts.register_ok hheld h)
    | createEmailVerificationToken userId =>
      have hissues : Change.issues s (.call ⟨env, .createEmailVerificationToken userId⟩) =
        (createEmailVerificationToken env userId s).toOption.bind fun p => some p.1 := Option.map_eq_bind
      rw [hissues]
      exact tokens_unit (f := some) fun _ _ h => .issued (Accounts.issueToken_ok h)
    | resendVerification email =>
      exact tokens_unit (f := Option.map Prod.snd) fun _ _ h => tokens_issuesTo (Accounts.resendVerification_ok h)
    | createPasswordResetToken email =>
      exact tokens_unit (f := Option.map Prod.snd) fun _ _ h => tokens_issuesTo (Accounts.createPasswordResetToken_ok h)
    | verifyEmail token => exact tokens_redeem
    | resetPassword token newPassword => exact tokens_redeem
    | _ => exact .same rfl
  | _ => exact .same rfl

/-! ## Runs -/

namespace Issuance

variable {s : Issuance}

theorem latestToken_append (issued : List UserToken) (new : UserToken) (userId : Nat)
    (purpose : UserTokenPurpose) : latestToken (issued ++ [new]) userId purpose =
      if new.userId = userId ∧ new.purpose = purpose then some new else latestToken issued userId purpose := by
  unfold latestToken
  rw [List.filter_append]
  split
  · rename_i h
    simp [h]
  · rename_i h
    simp [h]

theorem mem_of_latestToken {issued : List UserToken} {userId : Nat} {purpose : UserTokenPurpose} {t : UserToken}
    (h : latestToken issued userId purpose = some t) : t ∈ issued :=
  (List.mem_filter.mp (List.mem_of_getLast? h)).1

/-- What is stored of the history. -/
structure Tracked (s : Issuance) : Prop where
  stored : ∀ t, t ∈ s.system.tokens.rows ↔ latestToken s.issued t.userId t.purpose = some t ∧ t.token ∉ s.redeemed
  distinct : (s.issued.map UserToken.token).Nodup
  redeemed : ∀ token ∈ s.redeemed, token ∈ s.issued.map UserToken.token
  held : HeldByUsers s.system
  sound : Sound s.system.world

theorem heldByUsers_next {s : System} (h : HeldByUsers s) (c : Change)
    (hrows : ∀ t ∈ (s.next c).tokens.rows, t ∈ s.tokens.rows ∨ (s.next c).world.db.users.get t.userId ≠ none) :
    HeldByUsers (s.next c) := by
  intro t ht
  rcases hrows t ht with hold | hnew
  · obtain ⟨u, hu⟩ := Option.ne_none_iff_exists'.mp (h t hold)
    obtain ⟨u', hu', _⟩ := (next_holds s c).users t.userId u hu
    rw [hu']
    exact Option.some_ne_none u'
  · exact hnew

theorem tracked_next (h : s.Tracked) {c : Change} (hfresh : s.Fresh c) : (s.next c).Tracked := by
  have hafter := tokens_next h.held c
  have hsound : Sound (s.system.next c).world := next_keeps (fun site _ => keptBy_sound site) h.sound
  unfold next
  unfold Fresh at hfresh
  generalize c.issues s.system = issues at hafter hfresh ⊢
  generalize c.redeems s.system = redeems at hafter ⊢
  cases hafter with
  | same htokens =>
    simp only [Option.toList_none, List.append_nil]
    refine ⟨fun t => htokens ▸ h.stored t, h.distinct, h.redeemed, ?_, hsound⟩
    exact heldByUsers_next h.held c fun t ht => Or.inl (htokens ▸ ht)
  | @issued new hnew =>
    have hfresh := hfresh new rfl
    simp only [Option.toList_none, Option.toList_some, List.append_nil]
    refine ⟨fun t => ?_, ?_, fun token htoken => ?_, ?_, hsound⟩
    · rw [hnew.rows, h.stored, latestToken_append]
      by_cases hplace : new.userId = t.userId ∧ new.purpose = t.purpose
      · have hrivals : t.Rivals new := ⟨hplace.1.symm, hplace.2.symm⟩
        rw [if_pos hplace]
        constructor
        · rintro (rfl | ⟨_, hnot⟩)
          · exact ⟨rfl, fun hredeemed => hfresh (h.redeemed _ hredeemed)⟩
          · exact absurd hrivals hnot
        · exact fun hlatest => Or.inl (Option.some.inj hlatest.1).symm
      · have hrivals : ¬ t.Rivals new := fun hr => hplace ⟨hr.1.symm, hr.2.symm⟩
        have hne : t ≠ new := by
          rintro rfl
          exact hplace ⟨rfl, rfl⟩
        rw [if_neg hplace]
        simp only [hne, hrivals, not_false_eq_true, and_true, false_or]
    · rw [List.map_append]
      exact List.nodup_append.mpr ⟨h.distinct, List.nodup_singleton _, fun a ha b hb hab =>
        hfresh (List.mem_singleton.mp hb ▸ hab ▸ ha)⟩
    · rw [List.map_append]
      exact List.mem_append_left _ (h.redeemed token htoken)
    · refine heldByUsers_next h.held c fun t ht => ?_
      rcases (hnew.rows t).mp ht with rfl | ⟨hold, _⟩
      · exact Or.inr hnew.user
      · exact Or.inl hold
  | @redeemed token _ _ hvalid htokens =>
    simp only [Option.toList_none, Option.toList_some, List.append_nil]
    refine ⟨fun t => ?_, h.distinct, fun other hother => ?_, ?_, hsound⟩
    · rw [htokens, Table.mem_delete_iff, h.stored, List.mem_append, List.mem_singleton, not_or, and_assoc]
      simp
    · rcases List.mem_append.mp hother with hother | hother
      · exact h.redeemed other hother
      · obtain ⟨t, ht, htoken, _⟩ := hvalid
        obtain rfl := List.mem_singleton.mp hother
        exact List.mem_map.mpr ⟨t, mem_of_latestToken ((h.stored t).mp ht).1, htoken⟩
    · exact heldByUsers_next h.held c fun t ht => Or.inl (Table.mem_delete_iff.mp (htokens ▸ ht)).1

/-- What is stored and valid is what can be redeemed. -/
theorem redeemable_iff (h : s.Tracked) {token : String} {purpose : UserTokenPurpose} {now : Nat} :
    s.Redeemable token purpose now ↔ Valid s.system token purpose now := by
  constructor
  · rintro ⟨t, rfl, rfl, hlatest, hredeemed, hnow⟩
    exact ⟨t, (h.stored t).mpr ⟨hlatest, hredeemed⟩, rfl, rfl, hnow⟩
  · rintro ⟨t, ht, rfl, rfl, hnow⟩
    obtain ⟨hlatest, hredeemed⟩ := (h.stored t).mp ht
    exact ⟨t, rfl, rfl, hlatest, hredeemed, hnow⟩

/-- Redeeming a token of either purpose. -/
theorem redemption_run (env : Env) (token newPassword : String) (purpose : UserTokenPurpose) :
    ∃ method : User → User, (redemption token newPassword purpose).run env s.system =
        Operation.unitWithTokens (Accounts.redeem env token purpose method) s.system ∧
      ∀ u, Row.id (method u) = Row.id u ∧ Row.keys (method u) = Row.keys u ∧
        Stored.refs (method u) = Stored.refs u := by
  cases purpose with
  | emailVerification => exact ⟨fun user => user.markEmailVerified env.now, rfl, fun u => ⟨rfl, rfl, rfl⟩⟩
  | passwordReset =>
    exact ⟨fun user => user.setPassword (env.hashPassword newPassword), rfl, fun u => ⟨rfl, rfl, rfl⟩⟩

theorem succeeds_of_redeemable (h : s.Tracked) {env : Env} {token newPassword : String}
    {purpose : UserTokenPurpose} (hredeemable : s.Redeemable token purpose env.now) :
    ((redemption token newPassword purpose).run env s.system).1 = .ok () := by
  obtain ⟨method, hrun, hmethod⟩ := redemption_run (s := s) env token newPassword purpose
  obtain ⟨p, hp⟩ := Accounts.redeem_of_valid h.held h.sound hmethod ((redeemable_iff h).mp hredeemable)
  rw [hrun, unitWithTokens_apply, hp]

theorem refuses_of_not_redeemable (h : s.Tracked) {env : Env} {token newPassword : String}
    {purpose : UserTokenPurpose} (hnot : ¬ s.Redeemable token purpose env.now) :
    s.Refuses env (redemption token newPassword purpose) := by
  obtain ⟨method, hrun, _⟩ := redemption_run (s := s) env token newPassword purpose
  have hinvalid : ¬ Valid s.system token purpose env.now := fun hvalid => hnot ((redeemable_iff h).mpr hvalid)
  unfold Refuses
  rw [hrun, unitWithTokens_apply, Accounts.redeem_of_not_valid hinvalid]

theorem usedOnce_of_tracked (h : s.Tracked) : s.UsedOnce where
  single t ht t' ht' hrivals := by
    obtain ⟨hlatest, _⟩ := (h.stored t).mp ht
    obtain ⟨hlatest', _⟩ := (h.stored t').mp ht'
    rw [hrivals.1, hrivals.2, hlatest'] at hlatest
    exact (Option.some.inj hlatest).symm
  redeems env token newPassword purpose := by
    refine ⟨fun hok => ?_, succeeds_of_redeemable h⟩
    by_contra hnot
    have hrefuses : s.Refuses env (redemption token newPassword purpose) := refuses_of_not_redeemable h hnot
    rw [hrefuses] at hok
    cases hok
  refuses _ _ _ _ := refuses_of_not_redeemable h
  spent t ht env newPassword purpose hspent := by
    apply refuses_of_not_redeemable h
    rintro ⟨t', htoken, rfl, hlatest, hredeemed, hnow⟩
    -- A text is issued once, so this is the token itself.
    obtain rfl : t' = t := List.inj_on_of_nodup_map h.distinct (mem_of_latestToken hlatest) ht htoken
    rcases hspent with hspent | hspent | hspent | hspent
    · exact hredeemed hspent
    · exact hspent hlatest
    · exact absurd hnow (not_lt.mpr hspent)
    · exact hspent rfl

end Issuance

/-- Whatever has happened, as long as the texts of new tokens are new. -/
theorem usedOnce_run (files : Bucket → String → Option Bytes) (changes : List Change)
    (h : Runs.Along Issuance.next Issuance.Fresh (.initial files) changes) :
    (Runs.run Issuance.next (.initial files) changes).UsedOnce := by
  apply Issuance.usedOnce_of_tracked
  refine Runs.run_invariant_along (C := Issuance.Fresh) (fun s c hs hc => Issuance.tracked_next hs hc) ?_ h
  refine ⟨fun t => ⟨fun ht => (by cases ht), fun ht => (by cases ht.1)⟩, List.nodup_nil, fun _ ht => (by cases ht),
    fun _ ht => (by cases ht), sound_after files []⟩

/-- Alice signs up, asks for the link of her address again, follows it, forgets her password twice and
follows the last link. -/
def aliceRecovers : List Change := [
  .call ⟨.offline 1 "first", .register "Acme" "Alice" "alice@acme.test" "secret" none none⟩,
  .call ⟨.offline 2 "second", .resendVerification "alice@acme.test"⟩,
  .call ⟨.offline 3 "", .verifyEmail "first"⟩,
  .call ⟨.offline 4 "", .verifyEmail "second"⟩,
  .call ⟨.offline 5 "third", .createPasswordResetToken "alice@acme.test"⟩,
  .call ⟨.offline 6 "fourth", .createPasswordResetToken "alice@acme.test"⟩,
  .call ⟨.offline 7 "", .resetPassword "fourth" "new secret"⟩]

theorem usedOnce_aliceRecovers :
    (Runs.run Issuance.next (.initial fun _ _ => none) aliceRecovers).UsedOnce ∧
      (Runs.run Issuance.next (.initial fun _ _ => none) aliceRecovers).issued.map UserToken.token =
        ["first", "second", "third", "fourth"] ∧
      (Runs.run Issuance.next (.initial fun _ _ => none) aliceRecovers).redeemed = ["second", "fourth"] :=
  ⟨usedOnce_run (fun _ _ => none) aliceRecovers (by decide +kernel), by decide +kernel, by decide +kernel⟩

end Orchestract
