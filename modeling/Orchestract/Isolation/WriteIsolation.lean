import Orchestract.Application.Registration
import Orchestract.Isolation.Requests
import Orchestract.Library.Runs

/-!
# Write isolation

A request of a member of one organization leaves every row of the other organizations as it is,
provided that the ids it acts on are not ids of their rows: the gate compares the user's
organization with the path, and most handlers load their row by its bare id.
-/

namespace Orchestract

set_option autoImplicit false

/-- The organization of a row, by its table and id. -/
def Database.ownerOf (db : Database) (ref : Ref) : Option Nat :=
  match ref.kind with
  | .user => (db.users.get ref.id).bind (Owned.owner db)
  | .role => (db.roles.get ref.id).bind (Owned.owner db)
  | .agent => (db.agents.get ref.id).bind (Owned.owner db)
  | .definition => (db.definitions.get ref.id).bind (Owned.owner db)
  | .contract => (db.contracts.get ref.id).bind (Owned.owner db)
  | .document => (db.documents.get ref.id).bind (Owned.owner db)
  | .shareLink => (db.shareLinks.get ref.id).bind (Owned.owner db)
  | .connection => (db.connections.get ref.id).bind (Owned.owner db)
  | .organization => none

theorem lacks_of_get {α : Type} [Row α] [Stored α] [Owned α] {B : Nat} {w : World} {id : Nat}
    (h : ((Stored.table w.db).get id).bind (fun a : α => Owned.owner w.db a) ≠ some B) :
    Lacks α (rowsOf B w.db) id := by
  intro a ha hid
  rw [Owned.rows_rowsOf] at ha
  obtain ⟨hmem, how⟩ := Table.mem_select_iff.mp ha
  have hget : (Stored.table w.db).get id = some a := Table.get_eq_some_iff.mpr ⟨hmem, hid⟩
  apply h
  rw [hget]
  simpa using how

theorem lacks_of_ownerOf {B : Nat} {w : World} {ref : Ref} (h : w.db.ownerOf ref ≠ some B) :
    (rowsOf B w.db).Lacks ref := by
  cases ref with
  | mk kind id =>
    cases kind with
    | organization => trivial
    | user => exact lacks_of_get h
    | role => exact lacks_of_get h
    | agent => exact lacks_of_get h
    | definition => exact lacks_of_get h
    | contract => exact lacks_of_get h
    | document => exact lacks_of_get h
    | shareLink => exact lacks_of_get h
    | connection => exact lacks_of_get h

/-! ## The gate -/

/-- Whom a request is served for. -/
structure Admitted (env : Env) (r : Request) (w : World) (v : Viewer) : Prop where
  organization : v.organization ∈ w.db.organizations.rows
  slug : v.organization.slug = r.orgSlug
  user : v.user ∈ w.db.users.rows
  member : v.user.organizationId = v.organization.id
  active : v.user.isActive = true
  role : w.db.roles.get v.user.roleId = some v.role

theorem getBySlug_ok {slug : String} {w : World} {o : Organization}
    (h : OrganizationService.getBySlug slug w = .ok o) :
    o ∈ w.db.organizations.rows ∧ o.slug = slug := by
  simp only [OrganizationService.getBySlug, Read.bind_ok_iff, lift_query_ok_iff,
    orRaise_ok_iff] at h
  obtain ⟨found, hfound, rfl⟩ := h
  obtain ⟨hmem, hp⟩ := oneOrNone_eq_some hfound
  exact ⟨hmem, by simpa using hp⟩

theorem getUserBySessionToken_ok {env : Env} {token : String} {w : World} {u : User}
    (h : UserService.getUserBySessionToken env token w = .ok (some u)) :
    u ∈ w.db.users.rows ∧ u.isActive = true := by
  simp only [UserService.getUserBySessionToken, Read.bind_ok_iff] at h
  obtain ⟨found, _, h⟩ := h
  cases found with
  | none => cases h
  | some session =>
    simp only at h
    split at h
    · simp only [Read.bind_ok_iff, find_apply, Except.ok.injEq, Read.pure_apply,
        Option.filter_eq_some_iff] at h
      obtain ⟨_, rfl, hget, hactive⟩ := h
      exact ⟨(Table.get_eq_some_iff.mp hget).1, hactive⟩
    · cases h

theorem admitted_of_dependencies {env : Env} {r : Request} {w : World} {v : Viewer}
    (h : dependencies env r w = .ok v) : Admitted env r w v := by
  simp only [dependencies, enforceLoginAndMembership, Read.bind_ok_iff] at h
  obtain ⟨organization, horganization, found, hfound, h⟩ := h
  obtain ⟨hmem, hslug⟩ := getBySlug_ok horganization
  cases found with
  | none => cases h
  | some user =>
    have huser : user ∈ w.db.users.rows ∧ user.isActive = true := by
      cases htoken : r.sessionToken.bind Text.orNone with
      | none =>
        rw [htoken] at hfound
        cases hfound
      | some token =>
        rw [htoken] at hfound
        exact getUserBySessionToken_ok hfound
    simp only at h
    split at h
    · cases h
    · rename_i hne
      simp only [Read.bind_ok_iff] at h
      obtain ⟨accepted, _, h⟩ := h
      split at h
      · simp only [Read.bind_ok_iff, RoleService.get, require_ok_iff, Read.pure_apply,
          Except.ok.injEq] at h
        obtain ⟨role, hrole, rfl⟩ := h
        exact ⟨hmem, hslug, huser.1, not_not.mp hne, huser.2, hrole⟩
      · cases h

theorem organization_eq_of_slug {t : Table Organization} {a b : Organization} (ha : a ∈ t.rows)
    (hb : b ∈ t.rows) (h : a.slug = b.slug) : a = b := by
  by_contra hne
  have hid : Row.id b ≠ Row.id a := fun hid => hne (Table.eq_of_id ha hb hid.symm)
  have hkey : (⟨"organizations_slug", 0, a.slug⟩ : UniqueKey) ∈ Row.keys b := by
    rw [h]
    exact List.mem_singleton_self _
  exact t.unique a ha b hb hid hkey (List.mem_singleton_self _)

theorem serve_apply (env : Env) (r : Request) (w : World) :
    serve env r w =
      match dependencies env r w with
      | .ok v => r.route.handle env v w
      | .error e => (.error e, w) := by
  rw [serve, Program.bind_apply, Program.read_apply]
  cases dependencies env r w <;> rfl

/-! ## Runs of requests -/

/-- The state after a request. -/
def serving (w : World) (e : Env × Request) : World := (respond e.1 e.2 w).2

/-- The rows of every organization but that of the path are what they were. -/
def WritesIsolated (w : World) (e : Env × Request) : Prop :=
  ∀ A ∈ w.db.organizations.rows, A.slug = e.2.orgSlug →
    ∀ B, B ≠ A.id → rowsOf B (serving w e).db = rowsOf B w.db

/-- No id the request acts on is that of a row of another organization. -/
def ActsWithin (w : World) (e : Env × Request) : Prop :=
  ∀ v, dependencies e.1 e.2 w = .ok v → ∀ ref ∈ e.2.route.targets e.1, ∀ B,
    w.db.ownerOf ref = some B → B = v.organization.id

/-- The request is not one of a member of `B`. -/
def Outside (B : Nat) (w : World) (e : Env × Request) : Prop :=
  ∀ v, dependencies e.1 e.2 w = .ok v → v.organization.id ≠ B

theorem rowsOf_serving {w : World} {e : Env × Request} {B : Nat} (h : ActsWithin w e)
    (hB : Outside B w e) : rowsOf B (serving w e).db = rowsOf B w.db := by
  unfold serving respond
  rw [serve_apply]
  cases hviewer : dependencies e.1 e.2 w with
  | error failure => rfl
  | ok v =>
    have hv := admitted_of_dependencies hviewer
    have hne := hB v hviewer
    have hu : Lacks User (rowsOf B w.db) v.user.id :=
      lacks_of_owner_ne (w := w) rfl hv.user (some_ne (hv.member ▸ hne))
    have ht : ∀ ref ∈ e.2.route.targets e.1, (rowsOf B w.db).Lacks ref := fun ref href =>
      lacks_of_ownerOf fun how => hne (h v hviewer ref href B how).symm
    cases hroute : e.2.route with
    | get route =>
      change rowsOf B ((liftM (route.handle e.1 v) : Action Response) w).2.db = rowsOf B w.db
      rw [Program.read_apply]
    | post route =>
      rw [hroute] at ht
      exact (keeps_handle e.1 v route hne hu ht w rfl).1

theorem writesIsolated_of_actsWithin {w : World} {e : Env × Request} (h : ActsWithin w e) :
    WritesIsolated w e := by
  intro A hA hslug B hB
  apply rowsOf_serving h
  intro v hviewer hv
  have hadmitted := admitted_of_dependencies hviewer
  have hAv := organization_eq_of_slug hA hadmitted.organization (hslug.trans hadmitted.slug.symm)
  exact hB (hAv ▸ hv.symm)

/-- In a run of requests that act on no row of another organization, every request is isolated,
and an organization none of whose members asked for anything has the rows it had. -/
theorem writes_isolated (w : World) (events : List (Env × Request))
    (h : Runs.Along serving ActsWithin w events) :
    Runs.Along serving WritesIsolated w events ∧
      ∀ B, Runs.Along serving (Outside B) w events →
        rowsOf B (Runs.run serving w events).db = rowsOf B w.db := by
  refine ⟨Runs.along_mono (fun _ _ => writesIsolated_of_actsWithin) h, fun B hB => ?_⟩
  refine Runs.run_invariant_along (I := fun w' => rowsOf B w'.db = rowsOf B w.db) ?_ rfl
    (Runs.along_and h hB)
  intro w' e hw' hc
  exact (rowsOf_serving hc.1 hc.2).trans hw'

/-! ## Two organizations -/

/-- The surroundings of a request when no other service answers. -/
def Env.offline (now : Nat) (randomToken : String) : Env where
  now := now
  settings := ⟨"http://localhost", "storage", "", "", "", "", "", false, false⟩
  randomToken := randomToken
  hashPassword := id
  verifyPassword raw hash := raw = hash
  jsonLoads _ := none
  putFails _ _ := false
  authorizationUrl _ state := state
  listFiles _ _ _ := none
  downloadFile _ _ _ := none
  generateSummary _ := none
  documentPart _ contentType _ := contentType
  checkoutUrl _ _ _ _ := none
  portalUrl _ _ := none
  toolCalls _ := []

/-- A registered organization whose owner has followed the verification link. -/
def signUp (organizationName userName email sessionToken : String) : Action Unit := do
  let (_, user) ← RegistrationService.register (.offline 0 "") organizationName userName email "secret" none none
  let _ ← UserService.forceVerify (.offline 0 "") user.id
  let _ ← UserService.createSession (.offline 0 sessionToken) user.id
  return ()

def World.empty : World := ⟨.empty, fun _ _ => none⟩

/-- Acme with its owner Alice, and Globex with its owner Bob. -/
def twoTenants : World :=
  let w := (signUp "Acme" "Alice" "alice@acme.test" "alice-session" World.empty).2
  (signUp "Globex" "Bob" "bob@globex.test" "bob-session" w).2

def aliceAsks (path : String) (route : Route) : Request := ⟨"acme", path, some "alice-session", route⟩

/-- Alice creates an agent and deactivates it. -/
theorem writes_isolated_ownAgent :
    let events := [(Env.offline 1 "", aliceAsks "/acme/agents" (.post (.createAgent "Legal" "" []))),
      (Env.offline 2 "", aliceAsks "/acme/agents/1/toggle" (.post (.toggleAgent 1)))]
    Runs.Along serving WritesIsolated twoTenants events ∧
      rowsOf 2 (Runs.run serving twoTenants events).db = rowsOf 2 twoTenants.db := by
  intro events
  have hacme : ∀ w, w = twoTenants ∨ w = Runs.run serving twoTenants [events.head (by decide)] →
      ∀ o ∈ w.db.organizations.rows, o.slug = "acme" → o.id = 1 := by
    rintro w (rfl | rfl)
    · decide +kernel
    · decide +kernel
  have hagent : (Runs.run serving twoTenants [events.head (by decide)]).db.ownerOf ⟨.agent, 1⟩ = some 1 := by
    decide +kernel
  have hin : Runs.Along serving ActsWithin twoTenants events := by
    refine ⟨fun v _ ref href => ?_, fun v hv ref href B hB => ?_, trivial⟩
    · cases href
    · obtain rfl := List.mem_singleton.mp href
      have hv' := admitted_of_dependencies hv
      have hid := hacme _ (Or.inr rfl) v.organization hv'.organization hv'.slug
      exact (Option.some.inj (hB.symm.trans hagent)).trans hid.symm
  have hout : Runs.Along serving (Outside 2) twoTenants events := by
    refine ⟨fun v hv => ?_, fun v hv => ?_, trivial⟩
    · have hv' := admitted_of_dependencies hv
      have hid := hacme _ (Or.inl rfl) v.organization hv'.organization hv'.slug
      omega
    · have hv' := admitted_of_dependencies hv
      have hid := hacme _ (Or.inr rfl) v.organization hv'.organization hv'.slug
      omega
  obtain ⟨hisolated, hrows⟩ := writes_isolated twoTenants events hin
  exact ⟨hisolated, hrows 2 hout⟩

/-- Alice of Acme deactivates Bob of Globex. -/
theorem not_writesIsolated_toggleUser :
    let e := (Env.offline 1 "", aliceAsks "/acme/users/2/toggle" (.post (.toggleUser 2)))
    dependencies e.1 e.2 twoTenants = .ok ⟨⟨1, "Acme", "acme", .free, none, none, none⟩,
      ⟨1, 1, "Alice", "alice@acme.test", some "secret", none, 1, true, some 0, none⟩,
      ⟨1, 1, "Owner", "owner", none, none⟩⟩ ∧
    (rowsOf 2 twoTenants.db).users.map (fun u => u.isActive) = [true] ∧
    (rowsOf 2 (serving twoTenants e).db).users.map (fun u => u.isActive) = [false] ∧
    ¬ WritesIsolated twoTenants e := by
  intro e
  have hviewer : dependencies e.1 e.2 twoTenants = .ok ⟨⟨1, "Acme", "acme", .free, none, none, none⟩,
      ⟨1, 1, "Alice", "alice@acme.test", some "secret", none, 1, true, some 0, none⟩,
      ⟨1, 1, "Owner", "owner", none, none⟩⟩ := by decide +kernel
  have hbefore : (rowsOf 2 twoTenants.db).users.map (fun u => u.isActive) = [true] := by
    decide +kernel
  have hafter : (rowsOf 2 (serving twoTenants e).db).users.map (fun u => u.isActive) = [false] := by
    decide +kernel
  refine ⟨hviewer, hbefore, hafter, fun h => ?_⟩
  have hv := admitted_of_dependencies hviewer
  have hrows := h _ hv.organization hv.slug 2 (by decide)
  rw [hrows, hbefore] at hafter
  cases hafter

end Orchestract
