import Orchestract.Operations.Histories

/-!
# Issuing and redeeming tokens

What each service of `app/application/user_service.py` that deals with the tokens of links does to
the stored ones: a new token replaces those of its user and purpose, a redeemed one is deleted.
-/

namespace Orchestract

set_option autoImplicit false

/-- For the same user and purpose. -/
def UserToken.Rivals (t t' : UserToken) : Prop := t.userId = t'.userId ∧ t.purpose = t'.purpose

/-- The new token is stored in the place of those of its user and purpose. -/
structure Supersedes (s s' : System) (new : UserToken) : Prop where
  user : s'.world.db.users.get new.userId ≠ none
  rows : ∀ t, t ∈ s'.tokens.rows ↔ t = new ∨ t ∈ s.tokens.rows ∧ ¬ t.Rivals new

/-- Every token is that of a user. -/
def HeldByUsers (s : System) : Prop := ∀ t ∈ s.tokens.rows, s.world.db.users.get t.userId ≠ none

variable {s s' : System} {env : Env}

namespace Accounts

/-! ## Issuing -/

theorem addToken_rows {t new : UserToken} (h : UserTokens.add t s = .ok (new, s')) :
    s'.world = s.world ∧ s.world.db.users.get t.userId ≠ none ∧ new.userId = t.userId ∧
      new.purpose = t.purpose ∧ new.token = t.token ∧
      ∀ r, r ∈ s'.tokens.rows ↔ r ∈ s.tokens.rows ∨ r = new := by
  unfold UserTokens.add at h
  split at h
  · rename_i huser
    cases hinsert : s.tokens.insert t with
    | none => simp [hinsert] at h
    | some p =>
      obtain ⟨row, tokens⟩ := p
      simp only [hinsert] at h
      obtain ⟨rfl, rfl⟩ := Prod.mk.inj (Except.ok.inj h)
      obtain ⟨hnew, _, _⟩ := Table.insert_eq_some hinsert
      refine ⟨rfl, fun hnone => ?_, by rw [hnew]; rfl, by rw [hnew]; rfl, by rw [hnew]; rfl,
        fun r => Table.mem_insert_iff hinsert⟩
      have hsome : (s.world.db.users.get t.userId).isSome = true := huser
      rw [hnone] at hsome
      cases hsome
  · cases h

theorem issueToken_ok {userId : Nat} {purpose : UserTokenPurpose} {new : UserToken}
    (h : issueToken env userId purpose s = .ok (new, s')) : Supersedes s s' new := by
  obtain ⟨_, s₁, hdelete, hadd⟩ := (Work.bind_ok_iff _ _ s s' new).mp h
  obtain ⟨_, rfl⟩ := Prod.mk.inj (Except.ok.inj hdelete)
  obtain ⟨hworld, huser, hid, hpurpose, _, hrows⟩ := addToken_rows hadd
  have hid : new.userId = userId := hid
  have hpurpose : new.purpose = purpose := hpurpose
  refine ⟨?_, fun t => ?_⟩
  · rw [hworld, hid]
    exact huser
  · rw [hrows, Table.mem_delete_iff]
    unfold UserToken.Rivals
    rw [hid, hpurpose]
    simp [or_comm]

theorem register_newUser {organizationName userName email rawPassword : String}
    {ipAddress userAgent : Option String} {organization : Organization}
    {user : User} {w w' : World}
    (h : RegistrationService.register env organizationName userName email rawPassword ipAddress userAgent w =
      .ok ((organization, user), w')) : w.db.users.get user.id = none := by
  simp only [RegistrationService.register, Work.bind_ok_iff, Work.lift_ok_iff, lift_work_ok_iff,
    Work.pure_ok_iff, Prod.mk.injEq] at h
  obtain ⟨_, _, ⟨_, rfl⟩, _, _, ⟨_, rfl⟩, _, _, ⟨_, rfl⟩, _, w₁, horganization, _, _, ⟨_, rfl⟩, _, w₂, hrole,
    _, _, ⟨_, rfl⟩, new, w₃, huser, _, _, _, ⟨_, rfl⟩, _⟩ := h
  obtain ⟨_, _, _, rfl⟩ := (add_ok_iff _ _ w w₁).mp horganization
  obtain ⟨_, _, _, rfl⟩ := (add_ok_iff _ _ _ w₂).mp hrole
  obtain ⟨_, _, hinsert, _⟩ := (add_ok_iff _ new _ w₃).mp huser
  obtain ⟨hnew, _, _⟩ := Table.insert_eq_some hinsert
  rw [hnew]
  exact Table.get_next w.db.users

/-- A new user has no other token. -/
theorem register_ok {organizationName userName email rawPassword : String}
    {ipAddress userAgent : Option String} {organization : Organization}
    {user : User} {new : UserToken} (hheld : HeldByUsers s)
    (h : register env organizationName userName email rawPassword
      ipAddress userAgent s = .ok ((organization, user, new), s')) :
    Supersedes s s' new := by
  obtain ⟨⟨_, u⟩, s₁, hregister, hissue⟩ := (Work.bind_ok_iff _ _ s s' _).mp h
  obtain ⟨hregister, htokens⟩ := onSystem_ok_iff.mp hregister
  obtain ⟨token, s₂, hadd, hpure⟩ := (Work.bind_ok_iff _ _ s₁ s' _).mp hissue
  obtain ⟨heq, rfl⟩ := (Work.pure_ok_iff _ _ _ _).mp hpure
  obtain ⟨_, _, rfl⟩ : _ = organization ∧ u = user ∧ token = new := by simpa using heq
  obtain ⟨hworld, huser, hid, _, _, hrows⟩ := addToken_rows hadd
  have hid : token.userId = u.id := hid
  refine ⟨?_, fun t => ?_⟩
  · rw [hworld, hid]
    exact huser
  · rw [hrows, htokens]
    constructor
    · rintro (ht | rfl)
      · refine Or.inr ⟨ht, fun hrivals => hheld t ht ?_⟩
        rw [hrivals.1, hid]
        exact register_newUser hregister
      · exact Or.inl rfl
    · rintro (rfl | ⟨ht, _⟩)
      · exact Or.inr rfl
      · exact Or.inl ht

/-- Either nothing has happened, or a token was issued. -/
def IssuesTo (s s' : System) (found : Option (User × UserToken)) : Prop :=
  (found = none ∧ s' = s) ∨ ∃ user new, found = some (user, new) ∧ Supersedes s s' new

theorem issueUnless_ok {user : User} {purpose : UserTokenPurpose} {refused : Prop} [Decidable refused]
    {found : Option (User × UserToken)}
    (h : (if refused then pure none else do
      let token ← issueToken env user.id purpose
      return some (user, token) : SystemWork (Option (User × UserToken))) s = .ok (found, s')) :
    IssuesTo s s' found := by
  split at h
  · obtain ⟨rfl, rfl⟩ := (Work.pure_ok_iff _ _ _ _).mp h
    exact Or.inl ⟨rfl, rfl⟩
  · obtain ⟨new, s₁, hissue, hpure⟩ := (Work.bind_ok_iff _ _ s s' _).mp h
    obtain ⟨rfl, rfl⟩ := (Work.pure_ok_iff _ _ _ _).mp hpure
    exact Or.inr ⟨user, new, rfl, issueToken_ok hissue⟩

theorem readWorld_ok_iff {α : Type} {r : Query α} {a : α} :
    (liftM (liftM r : UnitOfWork α) : SystemWork α) s = .ok (a, s') ↔ r s.world = .ok a ∧ s = s' := by
  rw [onSystem_ok_iff, Work.lift_ok_iff, and_assoc]
  obtain ⟨w, tokens⟩ := s
  obtain ⟨w', tokens'⟩ := s'
  simp [eq_comm]

theorem resendVerification_ok {email : String} {found : Option (User × UserToken)}
    (h : resendVerification env email s = .ok (found, s')) : IssuesTo s s' found := by
  obtain ⟨user, _, hread, h⟩ := (Work.bind_ok_iff _ _ s s' _).mp h
  obtain ⟨_, rfl⟩ := readWorld_ok_iff.mp hread
  cases user with
  | none =>
    obtain ⟨rfl, rfl⟩ := (Work.pure_ok_iff _ _ _ _).mp h
    exact Or.inl ⟨rfl, rfl⟩
  | some user => exact issueUnless_ok h

theorem createPasswordResetToken_ok {email : String} {found : Option (User × UserToken)}
    (h : createPasswordResetToken env email s = .ok (found, s')) : IssuesTo s s' found := by
  obtain ⟨user, _, hread, h⟩ := (Work.bind_ok_iff _ _ s s' _).mp h
  obtain ⟨_, rfl⟩ := readWorld_ok_iff.mp hread
  cases user with
  | none =>
    obtain ⟨rfl, rfl⟩ := (Work.pure_ok_iff _ _ _ _).mp h
    exact Or.inl ⟨rfl, rfl⟩
  | some user => exact issueUnless_ok h

/-! ## Redeeming -/

/-- A stored token of this text and purpose that has not expired. -/
def Valid (s : System) (token : String) (purpose : UserTokenPurpose) (now : Nat) : Prop :=
  ∃ t ∈ s.tokens.rows, t.token = token ∧ t.purpose = purpose ∧ now < t.expiresAt

theorem getByToken_of_mem {t : UserToken} (ht : t ∈ s.tokens.rows) :
    UserTokens.getByToken t.token t.purpose s = .ok (some t) := by
  have hselect : s.tokens.select (fun r => r.token = t.token && r.purpose = t.purpose) = [t] := by
    refine Table.select_unique (k := ⟨"user_tokens_token", 0, t.token⟩) ht (by simp) fun r _ hr => ?_
    have htoken : r.token = t.token := by
      simp only [Bool.and_eq_true, decide_eq_true_eq] at hr
      exact hr.1
    rw [← htoken]
    exact List.mem_singleton_self _
  unfold UserTokens.getByToken
  rw [hselect]

theorem getByToken_eq_none {token : String} {purpose : UserTokenPurpose}
    (h : ∀ t ∈ s.tokens.rows, t.token = token → t.purpose ≠ purpose) :
    UserTokens.getByToken token purpose s = .ok none := by
  have hselect : s.tokens.select (fun t => t.token = token && t.purpose = purpose) = [] := by
    refine List.filter_eq_nil_iff.mpr fun t ht hmatch => ?_
    simp only [Bool.and_eq_true, decide_eq_true_eq] at hmatch
    exact h t ht hmatch.1 hmatch.2
  unfold UserTokens.getByToken
  rw [hselect]

/-- What is not valid is refused, and nothing changes. -/
theorem redeem_of_not_valid {token : String} {purpose : UserTokenPurpose} {method : User → User}
    (h : ¬ Valid s token purpose env.now) :
    redeem env token purpose method s = .error (.raised .invalidOrExpiredToken) := by
  unfold redeem
  rw [Work.bind_apply]
  by_cases hmem : ∃ t ∈ s.tokens.rows, t.token = token ∧ t.purpose = purpose
  · obtain ⟨t, ht, rfl, rfl⟩ := hmem
    have hexpired : t.isValid env.now = false :=
      decide_eq_false fun hnow => h ⟨t, ht, rfl, rfl, hnow⟩
    have hread : (liftM (UserTokens.getByToken t.token t.purpose) : SystemWork _) s = .ok (some t, s) :=
      (Work.lift_ok_iff _ s s _).mpr ⟨getByToken_of_mem ht, rfl⟩
    simp only [hread, Option.filter, hexpired]
    rfl
  · push Not at hmem
    have hread : (liftM (UserTokens.getByToken token purpose) : SystemWork _) s = .ok (none, s) :=
      (Work.lift_ok_iff _ s s _).mpr ⟨getByToken_eq_none hmem, rfl⟩
    simp only [hread, Option.filter]
    rfl

/-- The stored tokens after one of them is redeemed. -/
theorem redeem_ok {token : String} {purpose : UserTokenPurpose} {method : User → User} {user : User}
    (h : redeem env token purpose method s = .ok (user, s')) :
    s'.tokens = s.tokens.delete (fun t => t.token = token) := by
  simp only [redeem, Work.bind_ok_iff, Work.lift_ok_iff] at h
  obtain ⟨record, _, ⟨_, rfl⟩, h⟩ := h
  cases hvalid : record.filter (fun t => t.isValid env.now) with
  | none => simp [hvalid] at h
  | some t =>
    simp only [hvalid, Work.bind_ok_iff] at h
    obtain ⟨_, s₁, hchange, _, s₂, hdelete, hpure⟩ := h
    obtain ⟨_, htokens⟩ := onSystem_ok_iff.mp hchange
    obtain ⟨_, rfl⟩ := Prod.mk.inj (Except.ok.inj hdelete)
    obtain ⟨_, rfl⟩ := (Work.pure_ok_iff _ _ _ _).mp hpure
    change s₁.tokens.delete _ = _
    rw [htokens]

/-- The user of the redeemed token is changed and saved. -/
theorem redeem_saves {token : String} {purpose : UserTokenPurpose} {method : User → User} {user : User}
    (h : redeem env token purpose method s = .ok (user, s')) :
    ∃ t u, UserTokens.getByToken token purpose s = .ok (some t) ∧ s.world.db.users.get t.userId = some u ∧
      user = method u ∧ save (method u) s.world = .ok ((), s'.world) := by
  simp only [redeem, Work.bind_ok_iff, Work.lift_ok_iff] at h
  obtain ⟨record, _, ⟨hread, rfl⟩, h⟩ := h
  cases hvalid : record.filter (fun t => t.isValid env.now) with
  | none => simp [hvalid] at h
  | some t =>
    obtain ⟨rfl, _⟩ := Option.filter_eq_some_iff.mp hvalid
    simp only [hvalid, Work.bind_ok_iff] at h
    obtain ⟨_, s₁, hchange, _, s₂, hdelete, hpure⟩ := h
    obtain ⟨_, rfl⟩ := Prod.mk.inj (Except.ok.inj hdelete)
    obtain ⟨rfl, rfl⟩ := (Work.pure_ok_iff _ _ _ _).mp hpure
    obtain ⟨hchange, _⟩ := onSystem_ok_iff.mp hchange
    simp only [changeHolder, Work.bind_ok_iff, Work.lift_ok_iff, lift_work_ok_iff, orRaise_ok_iff,
      Work.pure_ok_iff] at hchange
    obtain ⟨_, _, ⟨hfind, rfl⟩, u, _, ⟨rfl, rfl⟩, _, _, hsave, rfl, hw⟩ := hchange
    exact ⟨t, u, hread, Except.ok.inj hfind, rfl, hsave.trans (by rw [hw])⟩

theorem valid_of_redeem {token : String} {purpose : UserTokenPurpose} {method : User → User} {p : User × System}
    (h : redeem env token purpose method s = .ok p) : Valid s token purpose env.now := by
  by_contra hinvalid
  rw [redeem_of_not_valid hinvalid] at h
  cases h

/-- A valid token is redeemed. -/
theorem redeem_of_valid {token : String} {purpose : UserTokenPurpose} {method : User → User}
    (hheld : HeldByUsers s) (hsound : Sound s.world)
    (hmethod : ∀ u, Row.id (method u) = Row.id u ∧ Row.keys (method u) = Row.keys u ∧
      Stored.refs (method u) = Stored.refs u) (h : Valid s token purpose env.now) :
    ∃ p, redeem env token purpose method s = .ok p := by
  obtain ⟨t, ht, rfl, rfl, hnow⟩ := h
  have hfilter : Option.filter (fun t : UserToken => t.isValid env.now) (some t) = some t := by
    simp [UserToken.isValid, hnow]
  obtain ⟨u, hu⟩ := Option.ne_none_iff_exists'.mp (hheld t ht)
  have hmem : u ∈ s.world.db.users.rows := (Table.get_eq_some_iff.mp hu).1
  obtain ⟨hid, hkeys, hrefs⟩ := hmethod u
  have hexist : refsExist (method u) s.world.db = true := by
    unfold refsExist
    rw [hrefs]
    exact hsound.refsExist hmem
  obtain ⟨w', hsave⟩ := save_same_keys hmem hid hkeys hexist
  have hchange : changeHolder t.userId method s.world = .ok (method u, w') := by
    simp only [changeHolder, Work.bind_ok_iff, Work.lift_ok_iff, lift_work_ok_iff, orRaise_ok_iff]
    exact ⟨some u, _, ⟨congrArg Except.ok hu, rfl⟩, u, _, ⟨rfl, rfl⟩, (), w', hsave,
      (Work.pure_ok_iff _ _ _ _).mpr ⟨rfl, rfl⟩⟩
  refine ⟨(method u, ⟨w', s.tokens.delete fun r => r.token = t.token⟩), ?_⟩
  simp only [redeem, Work.bind_ok_iff, Work.lift_ok_iff]
  refine ⟨some t, s, ⟨getByToken_of_mem ht, rfl⟩, ?_⟩
  simp only [hfilter, Work.bind_ok_iff]
  exact ⟨method u, ⟨w', s.tokens⟩, onSystem_ok_iff.mpr ⟨hchange, rfl⟩, (), _, rfl,
    (Work.pure_ok_iff _ _ _ _).mpr ⟨rfl, rfl⟩⟩

end Accounts

end Orchestract
