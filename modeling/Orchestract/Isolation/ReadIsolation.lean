import Orchestract.Isolation.PageVisibility
import Orchestract.Isolation.WriteIsolation

/-!
# Read isolation

Two states that agree on an organization answer a `GET` request of one of its members alike if
what the request loads by an id is the organization's in both; and in a state where it is not,
the answer is another one than without the other organizations.
-/

namespace Orchestract

set_option autoImplicit false

/-! ## Responses -/

theorem status_page {v : Viewer} {page : Query Page} {w : World} {r : Response}
    (h : (Response.ok v <$> page) w = .ok r) : r.status = 200 ∨ r.status = 303 := by
  obtain ⟨_, _, rfl⟩ := (Read.map_ok_iff _ _ _ _).mp h
  exact Or.inl rfl

theorem status_handle {env : Env} {v : Viewer} {route : GetRoute} {w : World} {r : Response}
    (h : route.handle env v w = .ok r) : r.status = 200 ∨ r.status = 303 := by
  cases route with
  | startOauthConnection provider =>
    obtain ⟨_, _, hr⟩ := (Read.bind_ok_iff _ _ _ _).mp h
    obtain rfl := Except.ok.inj hr
    exact Or.inr rfl
  | newWorkflowPage =>
    obtain rfl := Except.ok.inj h
    exact Or.inl rfl
  | importBrowserPage contractId documentId connectionId folderId =>
    obtain ⟨allowed, _, hr⟩ := (Read.bind_ok_iff _ _ _ _).mp h
    cases allowed with
    | true =>
      simp only [if_true, Read.bind_ok_iff, Read.pure_apply, Except.ok.injEq] at hr
      obtain ⟨_, _, _, _, _, _, rfl⟩ := hr
      exact Or.inl rfl
    | false =>
      obtain rfl := Except.ok.inj hr
      exact Or.inr rfl
  | documentVersionRaw contractId documentId versionId download =>
    simp only [GetRoute.handle, Pages.documentVersionRaw, Read.bind_ok_iff, Read.pure_apply,
      Except.ok.injEq] at h
    obtain ⟨_, _, _, _, _, _, _, _, _, _, rfl⟩ := h
    exact Or.inl rfl
  | _ => exact status_page h

section

variable {w w₀ : World} {r : Query Response}

/-- The read ends in a page, a redirect or a file. -/
def Answers (w : World) (r : Query Response) : Prop :=
  ∀ a, r w = .ok a → a.status = 200 ∨ a.status = 303

theorem status_raised (e : DomainError) :
    e.statusCode = 409 ∨ e.statusCode = 422 ∨ ∃ message, e = .notFound message := by
  unfold DomainError.statusCode
  split
  · exact Or.inr (Or.inr ⟨_, rfl⟩)
  · by_cases hc : e.isConflict = true
    · exact Or.inl (if_pos hc)
    · exact Or.inr (Or.inl (if_neg hc))

/-- A truthful answer is not the report that something present is missing. -/
theorem response_ne_missing {m : DomainError} (ht : Truthful w r) (hs : Answers w r)
    (hm : Present w m) : Response.ofResult (r w) ≠ Response.ofFailure (.raised m) := by
  obtain ⟨message, rfl⟩ := present_notFound hm
  intro heq
  have hstatus : (Response.ofResult (r w)).status = 404 := congrArg Response.status heq
  rcases ok_or_error (r w) with ⟨a, h⟩ | ⟨e, h⟩
  · rw [h] at hstatus
    change a.status = 404 at hstatus
    rcases hs a h with hs' | hs' <;> omega
  · rw [h] at heq hstatus
    rcases ht e h with ⟨c, rfl⟩ | ⟨e', rfl, hpresent⟩
    · cases hstatus
    · change e'.statusCode = 404 at hstatus
      rcases status_raised e' with h' | h' | ⟨message', rfl⟩
      · omega
      · omega
      · have hbody := congrArg Response.body heq
        obtain rfl : message' = message := Body.detail.inj hbody
        exact hpresent hm

theorem response_iff {C : Prop} (hd : Decided w w₀ r C) (ht : Truthful w r) (hs : Answers w r)
    (ht₀ : Truthful w₀ r) : Response.ofResult (r w) = Response.ofResult (r w₀) ↔ C := by
  constructor
  · intro heq
    by_contra hc
    rcases hd.apart hc with ⟨m, hm, hmiss⟩ | ⟨⟨a, ha⟩, hne⟩
    · rw [hmiss] at heq
      exact response_ne_missing ht hs hm heq
    · rcases ok_or_error (r w₀) with ⟨b, hb⟩ | ⟨e, he⟩
      · rw [ha, hb] at heq hne
        exact hne (congrArg Except.ok heq)
      · rw [ha, he] at heq
        have hstatus : a.status = (Response.ofFailure e).status := congrArg Response.status heq
        have ha' := hs a ha
        rcases ht₀ e he with ⟨c, rfl⟩ | ⟨e', rfl, _⟩
        · change a.status = 500 at hstatus
          omega
        · change a.status = e'.statusCode at hstatus
          rcases status_raised e' with h' | h' | ⟨message', rfl⟩
          · omega
          · omega
          · change a.status = 404 at hstatus
            omega
  · intro hc
    rw [show r w = r w₀ from hd.same hc]

end

/-! ## The gate -/

/-- The organization of the path, and the session of one of its users. -/
structure Member (A : Organization) (r : Request) (w : World) : Prop where
  organization : A ∈ w.db.organizations.rows
  slug : A.slug = r.orgSlug
  session : ∃ token, r.sessionToken.bind Text.orNone = some token ∧
    ∃ s ∈ w.db.sessions.rows, s.token = token ∧ w.db.userOwner s.userId = some A.id

section

variable (env : Env) {A : Organization} {r : Request} {w : World}

theorem select_organization (hA : A ∈ w.db.organizations.rows) (hslug : A.slug = r.orgSlug) :
    w.db.organizations.select (fun o => o.slug = r.orgSlug) = [A] := by
  refine Table.select_unique (k := ⟨"organizations_slug", 0, r.orgSlug⟩) hA (by simpa using hslug) ?_
  intro o _ ho
  have ho' : o.slug = r.orgSlug := by simpa using ho
  rw [← ho']
  exact List.mem_singleton_self _

theorem select_session {s : UserSession} (hs : s ∈ w.db.sessions.rows) :
    w.db.sessions.select (fun s' => s'.token = s.token) = [s] := by
  refine Table.select_unique (k := ⟨"user_sessions_token", 0, s.token⟩) hs (by simp) ?_
  intro s' _ hs'
  have ht : s'.token = s.token := by simpa using hs'
  rw [← ht]
  exact List.mem_singleton_self _

theorem agree_getBySlug (h : Member A r w) :
    Read.Agree w (onlyOf env A.id w) (OrganizationService.getBySlug r.orgSlug) := by
  refine Read.agree_bind (agree_oneOrNone ?_) fun _ _ _ => agree_const _
  change w.db.organizations.select _ = (w.db.organizations.restrict (fun o => Row.id o = A.id)).select _
  rw [Table.select_restrict, select_organization h.organization h.slug]
  simp [Row.id]

theorem session_eq {s s' : UserSession} (hs : s ∈ w.db.sessions.rows) (hs' : s' ∈ w.db.sessions.rows)
    (h : s'.token = s.token) : s' = s := by
  have hmem : s' ∈ w.db.sessions.select (fun s' => s'.token = s.token) :=
    Table.mem_select_iff.mpr ⟨hs', by simpa using h⟩
  rw [select_session hs] at hmem
  exact List.mem_singleton.mp hmem

theorem ownRow_user {userId : Nat} (h : w.db.userOwner userId = some A.id) :
    OwnRow A.id w User userId := by
  intro u hu
  have hu' : w.db.users.get userId = some u := hu
  unfold Database.userOwner at h
  rw [hu'] at h
  exact h

theorem agree_getUserBySessionToken {s : UserSession} (hs : s ∈ w.db.sessions.rows)
    (howner : w.db.userOwner s.userId = some A.id) :
    Read.Agree w (onlyOf env A.id w) (UserService.getUserBySessionToken env s.token) := by
  refine Read.agree_bind (agree_oneOrNone ?_) fun found hfound _ => ?_
  · change w.db.sessions.select _ =
      (w.db.sessions.restrict (fun s => w.db.userOwner s.userId = some A.id)).select _
    rw [Table.select_restrict, select_session hs]
    simp [howner]
  · cases found with
    | none => exact Read.agree_pure _ _ _
    | some s' =>
      obtain ⟨hs', htoken⟩ := oneOrNone_eq_some hfound
      obtain rfl := session_eq hs hs' (by simpa using htoken)
      refine Read.agree_ite (fun _ => ?_) fun _ => Read.agree_pure _ _ _
      refine Read.agree_bind (congrArg Except.ok ?_) fun _ _ _ => Read.agree_pure _ _ _
      exact (get_onlyOf_own env (ownRow_user howner)).symm

/-- Whom the token of the session signs in. -/
theorem member_of_session {s : UserSession} (hs : s ∈ w.db.sessions.rows)
    (howner : w.db.userOwner s.userId = some A.id) {u : User}
    (h : UserService.getUserBySessionToken env s.token w = .ok (some u)) :
    u ∈ w.db.users.rows ∧ u.organizationId = A.id := by
  obtain ⟨found, hfound, hu⟩ := (Read.bind_ok_iff _ _ _ _).mp h
  cases found with
  | none => cases hu
  | some s' =>
    obtain ⟨hs', htoken⟩ := oneOrNone_eq_some hfound
    obtain rfl := session_eq hs hs' (by simpa using htoken)
    simp only at hu
    split at hu
    · simp only [Read.bind_ok_iff, find_apply, Except.ok.injEq, Read.pure_apply,
        Option.filter_eq_some_iff] at hu
      obtain ⟨_, rfl, hget, _⟩ := hu
      exact ⟨(Table.get_eq_some_iff.mp hget).1, Option.some.inj (ownRow_user howner u hget)⟩
    · cases hu

theorem exact_dependencies (h : Member A r w) :
    Exact w (onlyOf env A.id w) (dependencies env r)
      (∀ v, dependencies env r w = .ok v → OwnRow A.id w Role v.user.roleId) := by
  refine exact_when (agree_getBySlug env h) fun organization horganization _ => ?_
  have hA : organization = A := organization_eq_of_slug (getBySlug_ok horganization).1 h.organization
    ((getBySlug_ok horganization).2.trans h.slug.symm)
  obtain ⟨_, htoken, s, hs, rfl, howner⟩ := h.session
  unfold enforceLoginAndMembership
  rw [htoken]
  refine exact_when (agree_getUserBySessionToken env hs howner) fun found hfound _ => ?_
  cases found with
  | none => exact exact_throw _ _
  | some user =>
    obtain ⟨hmem, hmember⟩ := member_of_session env hs howner hfound
    simp only
    split
    · exact exact_throw _ _
    · refine exact_when (Read.agree_bind (agree_acceptances env hmem hmember fun a ha => ?_) fun _ _ _ =>
        Read.agree_pure _ _ _) fun accepted _ _ => ?_
      · simp only [Bool.and_eq_true, decide_eq_true_eq] at ha
        exact ha.1
      · split
        · refine (exact_then (exact_role env A.id w user.roleId) fun role _ _ =>
            Read.agree_pure _ _ _).iff ⟨fun hrole v hv => ?_, fun hrole role hget => ?_⟩
          · obtain ⟨role, _, hv⟩ := (Read.bind_ok_iff _ _ _ _).mp hv
            obtain rfl := Except.ok.inj hv
            exact hrole
          · have hv := Read.bind_ok (f := fun role => (pure ⟨organization, user, role⟩ : Query Viewer))
              ((require_ok_iff "role" user.roleId w role).mpr hget)
            exact hrole _ hv role hget
        · exact exact_throw _ _

theorem respond_get {route : GetRoute} (hroute : r.route = .get route) (w : World) :
    (respond env r w).1 =
      match dependencies env r w with
      | .ok v => Response.ofResult (route.handle env v w)
      | .error e => Response.ofFailure e := by
  unfold respond
  rw [serve_apply, hroute]
  cases dependencies env r w with
  | error e => rfl
  | ok v =>
    change Response.ofResult ((liftM (route.handle env v) : Action Response) w).1 = _
    rw [Program.read_apply]

/-- The gate lets the request pass with a role of the organization, and the route reads within. -/
def ReadsWithin (env : Env) (A : Nat) (r : Request) (w : World) : Prop :=
  ∀ v, dependencies env r w = .ok v → OwnRow A w Role v.user.roleId ∧
    ∀ route, r.route = .get route → route.Within A v.user w

/-- The answer is that of the organization alone exactly when the request reads within it. -/
theorem respond_onlyOf_iff {route : GetRoute} (hroute : r.route = .get route) (h : Member A r w) :
    (respond env r w).1 = (respond env r (onlyOf env A.id w)).1 ↔ ReadsWithin env A.id r w := by
  have hgate := exact_dependencies env h
  rw [respond_get env hroute, respond_get env hroute]
  rcases ok_or_error (dependencies env r w) with ⟨v, hv⟩ | ⟨e, he⟩
  · have hadmitted := admitted_of_dependencies hv
    obtain rfl := organization_eq_of_slug hadmitted.organization h.organization
      (hadmitted.slug.trans h.slug.symm)
    have hv' : ∀ {v'}, dependencies env r w = .ok v' → v = v' := fun hv' =>
      Except.ok.inj (hv.symm.trans hv')
    have htruthful := truthful_handle w v env route
    have hanswers : Answers w (route.handle env v) := fun a ha => status_handle ha
    by_cases hrole : OwnRow v.organization.id w Role v.user.roleId
    · have hsame : dependencies env r w = dependencies env r (onlyOf env v.organization.id w) :=
        hgate.same fun v' hviewer => hv' hviewer ▸ hrole
      rw [← hsame, hv]
      refine (response_iff (decided_handle env hadmitted.user hadmitted.member hrole route) htruthful
        hanswers (truthful_handle _ v env route)).trans ⟨fun hw v' hviewer => ?_, fun hw => ?_⟩
      · obtain rfl := hv' hviewer
        refine ⟨hrole, fun route' hroute' => ?_⟩
        obtain rfl := Route.get.inj (hroute.symm.trans hroute')
        exact hw
      · exact (hw v hv).2 route hroute
    · obtain ⟨m, hm, hmiss⟩ := hgate.misses fun hall => hrole (hall v hv)
      rw [hv, hmiss]
      exact ⟨fun heq => absurd heq (response_ne_missing htruthful hanswers hm),
        fun hw => absurd (hw v hv).1 hrole⟩
  · have hnone : ∀ v, dependencies env r w ≠ .ok v := fun v hv => by rw [he] at hv; cases hv
    have hsame : dependencies env r w = dependencies env r (onlyOf env A.id w) :=
      hgate.same fun v hv => absurd hv (hnone v)
    rw [← hsame]
    rw [he]
    exact ⟨fun _ v hv => absurd hv (hnone v), fun _ => rfl⟩

theorem member_of_agreeOn {w' : World} (hagree : AgreeOn env A.id w w') (h : Member A r w) :
    Member A r w' := by
  obtain ⟨token, htoken, s, hs, hst, howner⟩ := h.session
  have horganization : w.db.organizations.get A.id = w'.db.organizations.get A.id :=
    congrArg TenantRows.organization hagree.rows
  have hA : w.db.organizations.get A.id = some A := Table.get_eq_some_iff.mpr ⟨h.organization, rfl⟩
  have hs' : s ∈ ownSessions A.id w'.db := by
    rw [← hagree.sessions]
    exact Table.mem_select_iff.mpr ⟨hs, by simpa using howner⟩
  obtain ⟨hmem, hown⟩ := Table.mem_select_iff.mp hs'
  exact ⟨(Table.get_eq_some_iff.mp (horganization.symm.trans hA)).1, h.slug, token, htoken, s, hmem, hst,
    by simpa using hown⟩

end

/-- Of two states that agree on the organization, in one of which the request of its member reads
within it, both give the same answer exactly when it reads within it in the other one too; and
every state agrees with one in which it does. -/
theorem reads_isolated (env : Env) (A : Organization) (r : Request) (route : GetRoute)
    (hroute : r.route = .get route) (w : World) (h : Member A r w) :
    (∀ w', AgreeOn env A.id w w' → ReadsWithin env A.id r w' →
      ((respond env r w).1 = (respond env r w').1 ↔ ReadsWithin env A.id r w)) ∧
    ∃ w', AgreeOn env A.id w w' ∧ ReadsWithin env A.id r w' := by
  refine ⟨fun w' hagree hwithin => ?_, onlyOf env A.id w, agreeOn_onlyOf env A.id w, ?_⟩
  · have hw' := (respond_onlyOf_iff env hroute (member_of_agreeOn env hagree h)).mpr hwithin
    rw [hw', ← onlyOf_eq_of_agreeOn hagree]
    exact respond_onlyOf_iff env hroute h
  · have hagree := agreeOn_onlyOf env A.id w
    apply (respond_onlyOf_iff env hroute (member_of_agreeOn env hagree h)).mp
    rw [← onlyOf_eq_of_agreeOn hagree]

/-! ## Two organizations -/

/-- Bob of Globex changes his name. -/
def bobRenamed : World :=
  serving twoTenants (Env.offline 1 "",
    ⟨"globex", "/globex/account", some "bob-session", .post (.updateAccount "Robert")⟩)

def acme : Organization := ⟨1, "Acme", "acme", .free, none, none, none⟩

theorem agreeOn_bobRenamed (env : Env) : AgreeOn env acme.id twoTenants bobRenamed where
  rows := by decide +kernel
  sessions := by decide +kernel
  acceptances := by decide +kernel
  files := by
    intro bucket key hown
    have hdocuments : (rowsOf acme.id twoTenants.db).documents = [] := by decide +kernel
    unfold ownFile at hown
    rw [hdocuments] at hown
    cases hown

theorem member_alice (path : String) (route : Route) : Member acme (aliceAsks path route) twoTenants where
  organization := by decide +kernel
  slug := rfl
  session := ⟨"alice-session", rfl, by decide +kernel⟩

def aliceSignedIn : Viewer :=
  ⟨acme, ⟨1, 1, "Alice", "alice@acme.test", some "secret", none, 1, true, some 0, none⟩,
    ⟨1, 1, "Owner", "owner", none, none⟩⟩

/-- Alice opens her own page. -/
theorem reads_isolated_ownUser :
    let r := aliceAsks "/acme/users/1/edit" (.get (.editUserPage 1))
    (respond (.offline 2 "") r twoTenants).1 = (respond (.offline 2 "") r bobRenamed).1 ∧
      ∃ w', AgreeOn (.offline 2 "") acme.id twoTenants w' ∧ ReadsWithin (.offline 2 "") acme.id r w' := by
  intro r
  have hgate : dependencies (.offline 2 "") r twoTenants = .ok aliceSignedIn ∧
      dependencies (.offline 2 "") r bobRenamed = .ok aliceSignedIn := by decide +kernel
  have hrows : (OwnRow acme.id twoTenants Role 1 ∧ OwnRow acme.id twoTenants User 1) ∧
      OwnRow acme.id bobRenamed Role 1 ∧ OwnRow acme.id bobRenamed User 1 := by decide +kernel
  have hin : ∀ w, dependencies (.offline 2 "") r w = .ok aliceSignedIn →
      OwnRow acme.id w Role 1 ∧ OwnRow acme.id w User 1 → ReadsWithin (.offline 2 "") acme.id r w := by
    intro w hw ⟨hrole, huser⟩ v hv
    obtain rfl := Except.ok.inj (hw.symm.trans hv)
    refine ⟨hrole, fun route hroute => ?_⟩
    obtain rfl := Route.get.inj hroute
    exact huser
  obtain ⟨hsame, hother⟩ := reads_isolated (.offline 2 "") acme r _ rfl twoTenants (member_alice _ _)
  have hbob := hsame bobRenamed (agreeOn_bobRenamed _) (hin _ hgate.2 hrows.2)
  exact ⟨hbob.mpr (hin _ hgate.1 hrows.1), hother⟩

/-- Alice opens the page of Bob of Globex, and sees his name change. -/
theorem not_reads_isolated_otherUser :
    let env := Env.offline 2 ""
    let r := aliceAsks "/acme/users/2/edit" (.get (.editUserPage 2))
    let bob : User := ⟨2, 2, "Bob", "bob@globex.test", some "secret", none, 2, true, some 0, none⟩
    AgreeOn env acme.id twoTenants bobRenamed ∧ Member acme r twoTenants ∧
      (respond env r twoTenants).1 = .ok aliceSignedIn (.userEdit bob [aliceSignedIn.role] none) ∧
      (respond env r bobRenamed).1 =
        .ok aliceSignedIn (.userEdit { bob with name := "Robert" } [aliceSignedIn.role] none) ∧
      (respond env r twoTenants).1 ≠ (respond env r bobRenamed).1 := by
  intro env r bob
  have hbefore : (respond env r twoTenants).1 =
      .ok aliceSignedIn (.userEdit bob [aliceSignedIn.role] none) := by decide +kernel
  have hafter : (respond env r bobRenamed).1 =
      .ok aliceSignedIn (.userEdit { bob with name := "Robert" } [aliceSignedIn.role] none) := by decide +kernel
  refine ⟨agreeOn_bobRenamed env, member_alice _ _, hbefore, hafter, ?_⟩
  rw [hbefore, hafter]
  decide

end Orchestract
