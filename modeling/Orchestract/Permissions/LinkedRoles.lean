import Orchestract.Operations.Histories
import Orchestract.Web.Forms

/-!
# The roles of an agent

`_reconcile_agent_roles` goes over a snapshot of the organization's roles and commits a change of
one role at a time. Together these changes give every role of the organization the link that the
checklist says, and no other role another one.
-/

namespace Orchestract

set_option autoImplicit false

/-- The world in which every role has the link that `link` gives it. -/
def World.linkRoles (w : World) (link : Role → Option Nat) : World :=
  { w with db := { w.db with
    roles := w.db.roles.mapRows (fun r => r.setAgent (link r)) (fun _ => rfl) (fun _ => rfl) } }

/-- The link that the checklist of an agent leaves. -/
def checkedLink (agentId : Nat) (selected : List Nat) (role : Role) : Option Nat :=
  if role.id ∈ selected then some agentId
  else if role.agentId = some agentId then none
  else role.agentId

variable {w : World} {agentId : Nat} {selected : List Nat}

/-! ## Worlds with other links -/

theorem roles_ext {t : Table Role} (hrows : w.db.roles.rows = t.rows) (hnext : w.db.roles.next = t.next) :
    w = { w with db := { w.db with roles := t } } := by
  rw [← Table.ext_rows hrows hnext]

theorem linkRoles_congr {link link' : Role → Option Nat}
    (h : ∀ r ∈ w.db.roles.rows, link r = link' r) : w.linkRoles link = w.linkRoles link' := by
  refine roles_ext (w := w.linkRoles link) ?_ rfl
  exact List.map_congr_left fun r hr => congrArg r.setAgent (h r hr)

theorem linkRoles_same (w : World) : w.linkRoles Role.agentId = w := by
  refine roles_ext (w := w.linkRoles Role.agentId) (t := w.db.roles) ?_ rfl
  exact List.map_id w.db.roles.rows

theorem linkRoles_linkRoles (w : World) (link link' : Role → Option Nat) :
    (w.linkRoles link).linkRoles link' = w.linkRoles fun r => link' (r.setAgent (link r)) := by
  refine roles_ext (w := (w.linkRoles link).linkRoles link') ?_ rfl
  exact List.map_map

theorem get_linkRoles (w : World) (link : Role → Option Nat) (id : Nat) :
    (w.linkRoles link).db.roles.get id = (w.db.roles.get id).map fun r => r.setAgent (link r) := by
  unfold World.linkRoles Table.mapRows Table.get
  simp only [List.find?_map]
  rfl

theorem mem_linkRoles_iff {link : Role → Option Nat} {r : Role} :
    r ∈ (w.linkRoles link).db.roles.rows ↔ ∃ b ∈ w.db.roles.rows, b.setAgent (link b) = r :=
  List.mem_map

/-! ## One role -/

/-- `set_agent` changes one link. -/
theorem setAgent_linkRoles {role : Role} {agentId : Option Nat} (hrole : role ∈ w.db.roles.rows)
    (hexist : refsExist (role.setAgent agentId) w.db = true) :
    RoleService.setAgent role.id agentId w =
      .ok (role.setAgent agentId,
        w.linkRoles fun r => if r.id = role.id then agentId else r.agentId) := by
  obtain ⟨w', hsave⟩ := save_same_keys (a := role.setAgent agentId) hrole rfl rfl hexist
  obtain ⟨_, t, ht, rfl⟩ := (save_ok_iff _ w w').mp hsave
  obtain ⟨hrows, hnext⟩ := Table.update_eq_some ht
  have hsame : t = (w.linkRoles fun r => if r.id = role.id then agentId else r.agentId).db.roles := by
    refine Table.ext_rows (hrows.trans ?_) hnext
    refine List.map_congr_left fun r hr => ?_
    by_cases hid : r.id = role.id
    · obtain rfl : r = role := Table.eq_of_id hr hrole hid
      have hrow : Row.id r = Row.id (r.setAgent agentId) := rfl
      simp only [if_pos hrow, if_true]
    · have hrow : Row.id r ≠ Row.id (role.setAgent agentId) := hid
      simp only [if_neg hrow, if_neg hid]
      rfl
  refine (change_ok_iff "role" role.id _ _ w _).mpr ⟨role, Table.get_eq_some_iff.mpr ⟨hrole, rfl⟩, rfl, ?_⟩
  rw [hsave, hsame]
  rfl

theorem refsExist_setAgent {row : Role} {agentId : Option Nat}
    (horg : (w.db.organizations.get row.organizationId).isSome = true)
    (hagent : ∀ id, agentId = some id → (w.db.agents.get id).isSome = true) :
    refsExist (row.setAgent agentId) w.db = true := by
  cases agentId with
  | none => simpa [refsExist, Stored.refs, Role.setAgent, Database.has] using horg
  | some id =>
    have hid := hagent id rfl
    simp only [refsExist, Stored.refs, Role.setAgent, Database.has, Option.toList_some, List.map_cons,
      List.map_nil, List.all_cons, List.all_nil, Bool.and_true, Bool.and_eq_true]
    exact ⟨horg, hid⟩

/-- One pass of the loop: the row of the role, which no earlier pass has reached or which has its
link already, gets the link of the checklist. -/
theorem reconcileRole_exact {role row : Role} (hrow : row ∈ w.db.roles.rows) (hid : row.id = role.id)
    (hlink : row.agentId = role.agentId ∨ row.agentId = checkedLink agentId selected role)
    (horg : (w.db.organizations.get row.organizationId).isSome = true)
    (hagent : (w.db.agents.get agentId).isSome = true) :
    Forms.reconcileRole agentId selected role w =
      (.ok (), w.linkRoles fun r =>
        if r.id = role.id then checkedLink agentId selected role else r.agentId) := by
  have hset : ∀ link, (∀ id, link = some id → id = agentId) →
      RoleService.setAgent role.id link w =
        .ok (row.setAgent link, w.linkRoles fun r => if r.id = role.id then link else r.agentId) := by
    intro link hknown
    rw [← hid]
    exact setAgent_linkRoles hrow (refsExist_setAgent horg fun id h => hknown id h ▸ hagent)
  have hkept : checkedLink agentId selected role = role.agentId →
      w.linkRoles (fun r => if r.id = role.id then checkedLink agentId selected role else r.agentId) = w := by
    intro hcheck
    refine Eq.trans (linkRoles_congr fun r hr => ?_) (linkRoles_same w)
    by_cases hr' : r.id = role.id
    · obtain rfl : r = row := Table.eq_of_id hr hrow (hr'.trans hid.symm)
      rcases hlink with hlink | hlink
      · rw [if_pos hr', hcheck, hlink]
      · rw [if_pos hr', hlink]
    · exact if_neg hr'
  unfold Forms.reconcileRole
  by_cases hsel : role.id ∈ selected
  · have hcheck : checkedLink agentId selected role = some agentId := if_pos hsel
    by_cases hhas : role.agentId = some agentId
    · rw [if_neg (by simp [hhas]), if_neg (by simp [hsel]), hkept (hcheck.trans hhas.symm)]
      rfl
    · rw [if_pos ⟨hsel, hhas⟩, Program.bind_apply, Program.commit_apply,
        hset (some agentId) fun id h => (Option.some.inj h).symm, hcheck]
      rfl
  · by_cases hhas : role.agentId = some agentId
    · have hcheck : checkedLink agentId selected role = none := by simp [checkedLink, hsel, hhas]
      rw [if_neg (by simp [hsel]), if_pos ⟨hsel, hhas⟩, Program.bind_apply, Program.commit_apply,
        hset none nofun, hcheck]
      rfl
    · have hcheck : checkedLink agentId selected role = role.agentId := by
        simp [checkedLink, hsel, hhas]
      rw [if_neg (by simp [hsel]), if_neg (by simp [hhas]), hkept hcheck]
      rfl

/-! ## The loop -/

/-- The link of a role after the loop. -/
def reconciledLink (organizationId agentId : Nat) (selected : List Nat) (role : Role) : Option Nat :=
  if role.organizationId = organizationId then checkedLink agentId selected role else role.agentId

theorem checkedLink_checked (agentId : Nat) (selected : List Nat) (role : Role) :
    checkedLink agentId selected (role.setAgent (checkedLink agentId selected role)) =
      checkedLink agentId selected role := by
  unfold checkedLink
  by_cases hsel : role.id ∈ selected
  · simp [Role.setAgent, hsel]
  · by_cases hhas : role.agentId = some agentId
    · simp [Role.setAgent, hsel, hhas]
    · simp [Role.setAgent, hsel, hhas]

theorem checkedLink_eq_iff (agentId : Nat) (role : Role) :
    checkedLink agentId selected role = some agentId ↔ role.id ∈ selected := by
  unfold checkedLink
  by_cases hsel : role.id ∈ selected
  · simp [hsel]
  · by_cases hhas : role.agentId = some agentId
    · simp [hsel, hhas]
    · simp [hsel, hhas]

/-- The loop as a whole: one change of all links at once. -/
theorem reconcileAgentRoles_eq {organizationId : Nat}
    (horg : ∀ r ∈ w.db.roles.rows, (w.db.organizations.get r.organizationId).isSome = true)
    (hagent : (w.db.agents.get agentId).isSome = true) :
    Forms.reconcileAgentRoles organizationId agentId selected w =
      (.ok (), w.linkRoles (reconciledLink organizationId agentId selected)) := by
  let roles := orderByText Role.name (w.db.roles.select fun r => r.organizationId = organizationId)
  have hmem : ∀ r, r ∈ roles ↔ r ∈ w.db.roles.rows ∧ r.organizationId = organizationId := by
    intro r
    rw [mem_orderByText, Table.mem_select_iff, decide_eq_true_eq]
  let past (before : List Role) (r : Role) : Option Nat :=
    if r.id ∈ before.map Role.id then checkedLink agentId selected r else r.agentId
  have hloop : Program.Succeeds (roles.forM (Forms.reconcileRole agentId selected)) w
      fun _ s => s = w.linkRoles (past roles) := by
    apply Program.succeeds_forM (J := fun before s => s = w.linkRoles (past before))
    · intro before role after s hsplit hs
      have hrole : role ∈ w.db.roles.rows := by
        refine ((hmem role).mp ?_).1
        rw [hsplit]
        exact List.mem_append_right _ List.mem_cons_self
      have hrow : role.setAgent (past before role) ∈ s.db.roles.rows := by
        rw [hs]
        exact mem_linkRoles_iff.mpr ⟨role, hrole, rfl⟩
      have hlink : past before role = role.agentId ∨
          past before role = checkedLink agentId selected role := by
        by_cases hbefore : role.id ∈ before.map Role.id
        · exact Or.inr (if_pos hbefore)
        · exact Or.inl (if_neg hbefore)
      have hstep := reconcileRole_exact hrow (rfl : _ = role.id) hlink
        (by rw [hs]; exact horg role hrole) (by rw [hs]; exact hagent)
      refine ⟨_, _, hstep, ?_⟩
      rw [hs, linkRoles_linkRoles]
      refine linkRoles_congr fun r hr => ?_
      by_cases hid : r.id = role.id
      · obtain rfl : r = role := Table.eq_of_id hr hrole hid
        simp [past, Role.setAgent]
      · simp only [past, Role.setAgent, hid, if_false, List.map_append, List.map_cons, List.map_nil,
          List.mem_append, List.mem_singleton, or_false]
    · exact (linkRoles_same w).symm
  obtain ⟨_, s, hrun, rfl⟩ := hloop
  have hall : w.linkRoles (past roles) =
      w.linkRoles (reconciledLink organizationId agentId selected) := by
    refine linkRoles_congr fun r hr => ?_
    have hin : r.id ∈ roles.map Role.id ↔ r.organizationId = organizationId := by
      constructor
      · intro h
        obtain ⟨b, hb, hid⟩ := List.mem_map.mp h
        obtain ⟨hb, hborg⟩ := (hmem b).mp hb
        rwa [← Table.eq_of_id hb hr hid]
      · intro h
        exact List.mem_map_of_mem ((hmem r).mpr ⟨hr, h⟩)
    simp only [past, hin, reconciledLink]
  rw [← hall]
  exact hrun

theorem setAgent_of_eq {role : Role} {link : Option Nat} (h : link = role.agentId) :
    role.setAgent link = role := by
  rw [h]
  rfl

theorem reconciledLink_same (organizationId agentId : Nat) (selected : List Nat) (role : Role) :
    reconciledLink organizationId agentId selected
      (role.setAgent (reconciledLink organizationId agentId selected role)) =
      reconciledLink organizationId agentId selected role := by
  unfold reconciledLink
  by_cases horg : role.organizationId = organizationId
  · simpa [horg, Role.setAgent] using checkedLink_checked agentId selected role
  · simp [horg, Role.setAgent]

/-- The roles that are linked to the agent afterwards are the checked ones, when only roles of this
organization were linked to it. -/
theorem mem_linked_iff {organizationId : Nat}
    (hown : ∀ r ∈ w.db.roles.rows, r.agentId = some agentId → r.organizationId = organizationId) {r : Role} :
    r ∈ ((w.linkRoles (reconciledLink organizationId agentId selected)).db.roles.select
        fun r => r.agentId = some agentId) ↔
      ∃ b ∈ w.db.roles.rows, b.organizationId = organizationId ∧ b.id ∈ selected ∧
        b.setAgent (reconciledLink organizationId agentId selected b) = r := by
  rw [Table.mem_select_iff, mem_linkRoles_iff, decide_eq_true_eq]
  constructor
  · intro hlinked
    obtain ⟨⟨b, hb, hr⟩, hlink⟩ := hlinked
    have hb' : reconciledLink organizationId agentId selected b = some agentId := by
      rw [← hlink, ← hr]
      rfl
    unfold reconciledLink at hb'
    split at hb'
    · rename_i horg
      exact ⟨b, hb, horg, (checkedLink_eq_iff agentId b).mp hb', hr⟩
    · rename_i horg
      exact absurd (hown b hb hb') horg
  · intro hchecked
    obtain ⟨b, hb, horg, hsel, hr⟩ := hchecked
    refine ⟨⟨b, hb, hr⟩, ?_⟩
    rw [← hr]
    exact (if_pos horg).trans ((checkedLink_eq_iff agentId b).mpr hsel)

/-- Who may act on a step of the agent, when only roles of this organization are linked to it. -/
theorem canEditStep_reconciled {organizationId : Nat}
    (hown : ∀ r ∈ w.db.roles.rows, r.agentId = some agentId → r.organizationId = organizationId)
    (user : User) :
    ∃ allowed, RoleService.canEditStep user agentId
        (w.linkRoles (reconciledLink organizationId agentId selected)) = .ok allowed ∧
      (allowed = true ↔
        (∃ role ∈ w.db.roles.rows, role.organizationId = organizationId ∧ role.id ∈ selected ∧
          user.roleId = role.id) ∨
        ∀ role ∈ w.db.roles.rows, role.organizationId = organizationId → role.id ∉ selected) := by
  let linked := (w.linkRoles (reconciledLink organizationId agentId selected)).db.roles.select
    fun r => r.agentId = some agentId
  have hmem : ∀ r, r ∈ linked ↔ ∃ b ∈ w.db.roles.rows, b.organizationId = organizationId ∧
      b.id ∈ selected ∧ b.setAgent (reconciledLink organizationId agentId selected b) = r :=
    fun r => mem_linked_iff hown
  refine ⟨canEditStep user.roleId linked, rfl, ?_⟩
  unfold canEditStep
  by_cases hempty : linked = []
  · rw [if_pos hempty]
    refine iff_of_true rfl (Or.inr fun role hrole horg hsel => ?_)
    have hin := (hmem _).mpr ⟨role, hrole, horg, hsel, rfl⟩
    rw [hempty] at hin
    cases hin
  · rw [if_neg hempty, List.any_eq_true]
    constructor
    · intro hany
      obtain ⟨r, hr, hid⟩ := hany
      obtain ⟨b, hb, horg, hsel, rfl⟩ := (hmem r).mp hr
      exact Or.inl ⟨b, hb, horg, hsel, (of_decide_eq_true hid).symm⟩
    · intro h
      rcases h with ⟨role, hrole, horg, hsel, huser⟩ | hnone
      · exact ⟨_, (hmem _).mpr ⟨role, hrole, horg, hsel, rfl⟩, decide_eq_true huser.symm⟩
      · obtain ⟨r, hr⟩ := List.exists_mem_of_ne_nil linked hempty
        obtain ⟨b, hb, horg, hsel, _⟩ := (hmem r).mp hr
        exact absurd hsel (hnone b hb horg)

/-- The roles of an organization after the checklist of an agent was applied: a role of the
organization is linked to the agent exactly when it is checked, an unchecked role keeps the link to
another agent, the roles of other organizations keep theirs, applying the checklist again changes
nothing, and the steps of the agent are open to the holders of the checked roles, or to everyone
when no role of the organization is checked. -/
theorem reconciled_exact {w : World} (h : Sound w) {agentId : Nat}
    (hagent : (w.db.agents.get agentId).isSome = true) (organizationId : Nat) (selected : List Nat) :
    ∃ w', Forms.reconcileAgentRoles organizationId agentId selected w = (.ok (), w') ∧
      w' = { w with db := { w.db with roles := w'.db.roles } } ∧
      (∀ id, w.db.roles.get id = none → w'.db.roles.get id = none) ∧
      (∀ id role, w.db.roles.get id = some role →
        ∃ role', w'.db.roles.get id = some role' ∧ role' = { role with agentId := role'.agentId } ∧
          (role.organizationId = organizationId → (role'.agentId = some agentId ↔ id ∈ selected)) ∧
          (id ∉ selected → role.agentId ≠ some agentId → role' = role) ∧
          (role.organizationId ≠ organizationId → role' = role)) ∧
      Forms.reconcileAgentRoles organizationId agentId selected w' = (.ok (), w') ∧
      ((∀ role ∈ w.db.roles.rows, role.organizationId ≠ organizationId →
          role.agentId ≠ some agentId) →
        ∀ user, ∃ allowed, RoleService.canEditStep user agentId w' = .ok allowed ∧
          (allowed = true ↔
            (∃ role ∈ w.db.roles.rows, role.organizationId = organizationId ∧ role.id ∈ selected ∧
              user.roleId = role.id) ∨
            ∀ role ∈ w.db.roles.rows, role.organizationId = organizationId → role.id ∉ selected)) := by
  have horg : ∀ r ∈ w.db.roles.rows, (w.db.organizations.get r.organizationId).isSome = true := by
    intro r hr
    have hexist : refsExist r w.db = true := h.refsExist hr
    exact List.all_eq_true.mp hexist ⟨.organization, r.organizationId⟩ List.mem_cons_self
  let w' := w.linkRoles (reconciledLink organizationId agentId selected)
  refine ⟨w', reconcileAgentRoles_eq horg hagent, rfl, ?_, ?_, ?_, ?_⟩
  · intro id hid
    rw [get_linkRoles, hid]
    rfl
  · intro id role hrole
    have hid : role.id = id := (Table.get_eq_some_iff.mp hrole).2
    refine ⟨role.setAgent (reconciledLink organizationId agentId selected role), ?_, rfl, ?_, ?_, ?_⟩
    · rw [get_linkRoles, hrole]
      rfl
    · intro hrorg
      rw [← hid, ← checkedLink_eq_iff agentId role]
      simp only [Role.setAgent, reconciledLink, if_pos hrorg]
    · intro hsel hother
      apply setAgent_of_eq
      simp [reconciledLink, checkedLink, hid, hsel, hother]
    · intro hrorg
      exact setAgent_of_eq (if_neg hrorg)
  · have horg' : ∀ r ∈ w'.db.roles.rows, (w'.db.organizations.get r.organizationId).isSome = true := by
      intro r hr
      obtain ⟨b, hb, rfl⟩ := mem_linkRoles_iff.mp hr
      exact horg b hb
    rw [reconcileAgentRoles_eq horg' hagent, linkRoles_linkRoles]
    congr 1
    exact linkRoles_congr fun r _ => reconciledLink_same organizationId agentId selected r
  · intro hother user
    refine canEditStep_reconciled (fun r hr hlink => ?_) user
    by_contra hne
    exact hother r hr hne hlink

/-- Acme, with a role for each of two agents. -/
def twoLinkedRoles : World :=
  let work : Action Unit := do
    let _ ← OrganizationService.createOrganization "Acme"
    let _ ← AgentService.createAgent 1 "Legal" none
    let _ ← AgentService.createAgent 1 "Sales" none
    let _ ← RoleService.createRole 1 "Counsel" none (some 1)
    let _ ← RoleService.createRole 1 "Seller" none (some 2)
    return ()
  (work ⟨.empty, fun _ _ => none⟩).2

/-- The seller's role is taken over, the counsel's let go; one id is listed twice, one is nobody's. -/
theorem reconciled_exact_seller :
    ∃ w' role', Forms.reconcileAgentRoles 1 1 [2, 7, 2] twoLinkedRoles = (.ok (), w') ∧
      w'.db.roles.get 1 = some role' ∧ role'.agentId ≠ some 1 := by
  have hsound : Sound twoLinkedRoles := by
    intro site
    cases site <;> decide +kernel
  have hrole : twoLinkedRoles.db.roles.get 1 = some ⟨1, 1, "Counsel", "counsel", none, some 1⟩ := by
    decide +kernel
  have hagent : (twoLinkedRoles.db.agents.get 1).isSome = true := by decide +kernel
  obtain ⟨w', hrun, _, _, hkept, _⟩ := reconciled_exact hsound hagent 1 [2, 7, 2]
  obtain ⟨role', hget, _, hlink, _⟩ := hkept 1 _ hrole
  refine ⟨w', role', hrun, hget, fun h => ?_⟩
  exact absurd ((hlink rfl).mp h) (by decide)

end Orchestract
