import Orchestract.Operations.Histories
import Orchestract.Tenancy.Signup
import Orchestract.Workflow.FreshNames

/-!
# Names and slugs

Workflows, roles and agents have slugs that are unique in their organization. Which calls that
store a name run into that constraint, or refer to a row that is not there, instead of raising one
of the application's own errors.
-/

namespace Orchestract

set_option autoImplicit false

/-- A mapped class whose slugs are unique in an organization. -/
class Slugged (α : Type) [Row α] where
  constraint : String
  organizationId : α → Nat
  slug : α → String
  keys_eq : ∀ a : α, Row.keys a = [⟨constraint, organizationId a, slug a⟩]
  organizationId_withId : ∀ n (a : α), organizationId (Row.withId n a) = organizationId a
  slug_withId : ∀ n (a : α), slug (Row.withId n a) = slug a

instance : Slugged Role :=
  ⟨"uq_role_org_slug", Role.organizationId, Role.slug, fun _ => rfl, fun _ _ => rfl, fun _ _ => rfl⟩

instance : Slugged Agent :=
  ⟨"uq_agent_org_slug", Agent.organizationId, Agent.slug, fun _ => rfl, fun _ _ => rfl, fun _ _ => rfl⟩

instance : Slugged WorkflowDefinition :=
  ⟨"uq_workflow_org_slug", WorkflowDefinition.organizationId, WorkflowDefinition.slug, fun _ => rfl,
    fun _ _ => rfl, fun _ _ => rfl⟩

section

variable (α : Type) [Row α] [Stored α] [Slugged α]

/-- A row of the organization has the slug of this name. -/
def NameTaken (w : World) (organizationId : Nat) (name : String) : Prop :=
  ∃ r ∈ (Stored.table w.db : Table α).rows, Slugged.organizationId r = organizationId ∧
    Slugged.slug r = Text.slugify name

/-- A row of the organization other than this one has the slug of this name. -/
def NameTakenByOther (w : World) (organizationId id : Nat) (name : String) : Prop :=
  ∃ r ∈ (Stored.table w.db : Table α).rows, Row.id r ≠ id ∧
    Slugged.organizationId r = organizationId ∧ Slugged.slug r = Text.slugify name

end

/-- The agents of the preset of whose name the organization has none. -/
def WorkflowPreset.missingAgents (preset : WorkflowPreset) (w : World) (organizationId : Nat) :
    List (String × String) :=
  preset.agents.filter fun agent =>
    !(w.db.agents.select fun a => a.organizationId = organizationId).any fun a => a.name = agent.1

/-- There is room for the first of the preset's missing agents, but not for all of them and the
workflow, or one of them has the slug of another agent. -/
def PresetClashes (w : World) (organizationId : Nat) (preset : WorkflowPreset) : Prop :=
  ∃ o, w.db.organizations.get organizationId = some o ∧ preset.missingAgents w organizationId ≠ [] ∧
    o.HasRoom PlanLimits.maxAgents (w.db.agents.select fun a => a.organizationId = organizationId).length ∧
    ((∃ agent ∈ preset.missingAgents w organizationId, NameTaken Agent w organizationId agent.1) ∨
      (∃ m, o.plan.limits.maxAgents = some m ∧
        m < (w.db.agents.select fun a => a.organizationId = organizationId).length +
          (preset.missingAgents w organizationId).length) ∨
      ¬ o.HasRoom PlanLimits.maxWorkflows
        (w.db.definitions.select fun d => d.organizationId = organizationId).length)

/-- The calls that store a name. -/
inductive Naming where
  | createDefinition (organizationId : Nat) (name : String) (description : Option String)
  | updateDetails (definitionId : Nat) (name : String) (description : Option String)
  | duplicateDefinition (definitionId : Nat)
  | createRole (organizationId : Nat) (name : String) (description : Option String) (agentId : Option Nat)
  | updateRole (roleId : Nat) (name : String) (description : Option String) (agentId : Option Nat)
  | renameRole (roleId : Nat) (newName : String)
  | createAgent (organizationId : Nat) (name : String) (description : Option String)
  | renameAgent (agentId : Nat) (newName : String)
  | updateAgent (agentId : Nat) (name : String) (description : Option String)
  | applyPreset (organizationId : Nat) (preset : {preset : WorkflowPreset // preset ∈ workflowPresets})

def Naming.operation : Naming → Operation
  | createDefinition organizationId name description => .createDefinition organizationId name description
  | updateDetails definitionId name description => .updateDetails definitionId name description
  | duplicateDefinition definitionId => .duplicateDefinition definitionId
  | createRole organizationId name description agentId =>
    .createRole organizationId name description agentId
  | updateRole roleId name description agentId => .updateRole roleId name description agentId
  | renameRole roleId newName => .renameRole roleId newName
  | createAgent organizationId name description => .createAgent organizationId name description
  | renameAgent agentId newName => .renameAgent agentId newName
  | updateAgent agentId name description => .updateAgent agentId name description
  | applyPreset organizationId preset => .createWorkflowFromPreset organizationId preset.1

/-- An agent that the call names and that is not there. -/
def AgentMissing (w : World) (agentId : Option Nat) : Prop :=
  ∃ id, agentId = some id ∧ w.db.agents.get id = none

/-- What the calls do not check. -/
def Naming.Clashes (w : World) : Naming → Prop
  | createDefinition organizationId name _ =>
    Text.strip name ≠ "" ∧ NameTaken WorkflowDefinition w organizationId name ∧
      ∃ o, w.db.organizations.get organizationId = some o ∧ o.HasRoom PlanLimits.maxWorkflows
        (w.db.definitions.select fun d => d.organizationId = organizationId).length
  | updateDetails .. | duplicateDefinition .. => False
  | createRole organizationId name _ agentId =>
    Text.strip name ≠ "" ∧ ¬ NameTaken Role w organizationId name ∧
      (w.db.organizations.get organizationId = none ∨ AgentMissing w agentId)
  | updateRole roleId name _ agentId =>
    ∃ r, w.db.roles.get roleId = some r ∧ Text.strip name ≠ "" ∧
      ¬ NameTakenByOther Role w r.organizationId roleId name ∧ AgentMissing w agentId
  | renameRole roleId newName =>
    ∃ r, w.db.roles.get roleId = some r ∧ Text.strip newName ≠ "" ∧
      NameTakenByOther Role w r.organizationId roleId newName
  | createAgent organizationId name _ =>
    Text.strip name ≠ "" ∧ NameTaken Agent w organizationId name ∧
      ∃ o, w.db.organizations.get organizationId = some o ∧ o.HasRoom PlanLimits.maxAgents
        (w.db.agents.select fun a => a.organizationId = organizationId).length
  | renameAgent agentId name | updateAgent agentId name _ =>
    ∃ a, w.db.agents.get agentId = some a ∧ Text.strip name ≠ "" ∧
      NameTakenByOther Agent w a.organizationId agentId name
  | applyPreset organizationId preset => PresetClashes w organizationId preset.1

/-! ## Lookups and constraints -/

section

variable {α : Type} [Row α] [Stored α] [Slugged α] {w : World} {organizationId id : Nat} {name : String}

omit [Stored α] in
theorem slugged_disjoint_iff {a r : α} : (Row.keys r).Disjoint (Row.keys a) ↔
    ¬ (Slugged.organizationId r = Slugged.organizationId a ∧ Slugged.slug r = Slugged.slug a) := by
  rw [Slugged.keys_eq, Slugged.keys_eq, List.singleton_disjoint, List.mem_singleton, UniqueKey.mk.injEq]
  simp

theorem slugged_unique {a r : α} (ha : a ∈ (Stored.table w.db : Table α).rows)
    (hr : r ∈ (Stored.table w.db : Table α).rows)
    (horg : Slugged.organizationId r = Slugged.organizationId a) (hslug : Slugged.slug r = Slugged.slug a) :
    r = a := by
  by_contra hne
  have hid : Row.id r ≠ Row.id a := fun hid => hne (Table.eq_of_id hr ha hid)
  exact slugged_disjoint_iff.mp ((Stored.table w.db : Table α).unique a ha r hr hid) ⟨horg, hslug⟩

theorem bySlug_taken {r : α} (hr : r ∈ (Stored.table w.db : Table α).rows) :
    oneOrNone (fun a : α => Slugged.organizationId a = Slugged.organizationId r &&
      Slugged.slug a = Slugged.slug r) w = .ok (some r) := by
  apply oneOrNone_of_singleton
  refine Table.select_unique (k := ⟨Slugged.constraint α, Slugged.organizationId r, Slugged.slug r⟩) hr
    (by simp) fun a _ ha => ?_
  simp only [Bool.and_eq_true, decide_eq_true_eq] at ha
  rw [Slugged.keys_eq, ha.1, ha.2]
  exact List.mem_singleton_self _

theorem bySlug_free (h : ¬ NameTaken α w organizationId name) :
    oneOrNone (fun a : α => Slugged.organizationId a = organizationId &&
      Slugged.slug a = Text.slugify name) w = .ok none := by
  apply oneOrNone_of_nil
  refine List.filter_eq_nil_iff.mpr fun r hr hp => h ⟨r, hr, ?_⟩
  simpa using hp

/-- A new row is stored unless its slug is taken or it refers to a row that is not there. -/
theorem storable_slugged_iff {a : α} (horg : Slugged.organizationId a = organizationId)
    (hslug : Slugged.slug a = Text.slugify name) :
    Storable a w ↔ refsExist a w.db = true ∧ ¬ NameTaken α w organizationId name := by
  unfold Storable NameTaken
  refine and_congr_right fun _ => ?_
  simp only [slugged_disjoint_iff, Slugged.organizationId_withId, Slugged.slug_withId, horg, hslug]
  push Not
  rfl

/-- A changed row is stored unless its slug is another's. -/
theorem apart_slugged_iff {a : α} (hid : Row.id a = id) (horg : Slugged.organizationId a = organizationId)
    (hslug : Slugged.slug a = Text.slugify name) :
    (∀ r ∈ (Stored.table w.db : Table α).rows, Apart a r) ↔ ¬ NameTakenByOther α w organizationId id name := by
  unfold NameTakenByOther Apart
  simp only [slugged_disjoint_iff, hid, horg, hslug]
  push Not
  rfl

/-! ## Units of work that store a name -/

/-- A new row in an organization that has room for it. -/
theorem handled_create_iff {create : Except DomainError α} {limit : PlanLimits → Option Nat} {plural : String}
    {existing : Query (List α)} {rows : List α} (hrows : existing w = .ok rows)
    (hcreate : (∃ a, create = .ok a) ↔ Text.strip name ≠ "")
    (hnew : ∀ a, create = .ok a → Slugged.organizationId a = organizationId ∧
      Slugged.slug a = Text.slugify name ∧ Stored.refs a = [⟨.organization, organizationId⟩]) :
    Handled (do
      let organization ← OrganizationService.get organizationId
      requireRoom organization limit plural existing
      let a ← create
      add a) w ↔
    ¬ (Text.strip name ≠ "" ∧ NameTaken α w organizationId name ∧
      ∃ o, w.db.organizations.get organizationId = some o ∧ o.HasRoom limit rows.length) := by
  unfold OrganizationService.get
  rw [handled_after_read fun _ => require_isRaised]
  simp only [require_ok_iff, handled_after_read fun _ => requireRoom_isRaised hrows,
    requireRoom_ok_iff hrows, handled_raising, handled_add_last]
  constructor
  · rintro h ⟨hname, htaken, o, ho, hroom⟩
    obtain ⟨a, ha⟩ := hcreate.mpr hname
    obtain ⟨horg, hslug, _⟩ := hnew a ha
    exact ((storable_slugged_iff horg hslug).mp (h o ho () hroom a ha)).2 htaken
  · intro h o ho _ hroom a ha
    obtain ⟨horg, hslug, hrefs⟩ := hnew a ha
    refine (storable_slugged_iff horg hslug).mpr ⟨?_, fun htaken => ?_⟩
    · have hsome : (w.db.organizations.get organizationId).isSome = true := Option.isSome_of_eq_some ho
      simpa [refsExist, hrefs, Database.has] using hsome
    · exact h ⟨hcreate.mp ⟨a, ha⟩, htaken, o, ho, hroom⟩

/-- The row is stored when there is room for it and its slug is free. -/
theorem create_ok_iff {o : Organization} (ho : w.db.organizations.get organizationId = some o)
    {create : Except DomainError α} {a : α} (hcreate : create = .ok a)
    (horg : Slugged.organizationId a = organizationId) (hslug : Slugged.slug a = Text.slugify name)
    (hrefs : Stored.refs a = [⟨.organization, organizationId⟩]) {limit : PlanLimits → Option Nat}
    {plural : String} {existing : Query (List α)} {rows : List α} (hrows : existing w = .ok rows) :
    (∃ p, (do
      let organization ← OrganizationService.get organizationId
      requireRoom organization limit plural existing
      let a ← create
      add a : UnitOfWork α) w = .ok p) ↔
    ¬ NameTaken α w organizationId name ∧ o.HasRoom limit rows.length := by
  have hstorable : Storable a w ↔ ¬ NameTaken α w organizationId name := by
    rw [storable_slugged_iff horg hslug]
    have hsome : (w.db.organizations.get organizationId).isSome = true := Option.isSome_of_eq_some ho
    exact and_iff_right (by simpa [refsExist, hrefs, Database.has] using hsome)
  rw [← hstorable, storable_iff]
  simp only [Prod.exists, OrganizationService.get, Work.bind_ok_iff, Work.lift_ok_iff, require_ok_iff,
    lift_work_ok_iff]
  constructor
  · rintro ⟨new, w', o', _, ⟨ho', rfl⟩, _, _, ⟨hroom, rfl⟩, a', _, ⟨ha', rfl⟩, hadd⟩
    obtain rfl := Option.some.inj (ho.symm.trans ho')
    obtain rfl := Except.ok.inj (hcreate.symm.trans ha')
    exact ⟨⟨new, w', hadd⟩, (requireRoom_ok_iff hrows).mp hroom⟩
  · rintro ⟨⟨new, w', hadd⟩, hroom⟩
    exact ⟨new, w', o, w, ⟨ho, rfl⟩, (), w, ⟨(requireRoom_ok_iff hrows).mpr hroom, rfl⟩, a, w, ⟨hcreate, rfl⟩, hadd⟩

/-- A row that gets another name. -/
theorem handled_rename_iff (hsound : ∀ r ∈ (Stored.table w.db : Table α).rows,
    refsExist r w.db = true) {what : String} {method : α → Except DomainError α}
    (hmethod : ∀ r, (∃ a, method r = .ok a) ↔ Text.strip name ≠ "")
    (hrenamed : ∀ r a, method r = .ok a → Row.id a = Row.id r ∧
      Slugged.organizationId a = Slugged.organizationId r ∧ Slugged.slug a = Text.slugify name ∧
      Stored.refs a = Stored.refs r) :
    Handled (change what id method) w ↔
    ¬ ∃ r, (Stored.table w.db : Table α).get id = some r ∧ Text.strip name ≠ "" ∧
      NameTakenByOther α w (Slugged.organizationId r) id name := by
  unfold change
  rw [handled_after_read fun _ => require_isRaised]
  simp only [require_ok_iff, handled_raising]
  have hsaved : ∀ r a, (Stored.table w.db : Table α).get id = some r → method r = .ok a →
      (Handled (do save a; pure a) w ↔ ¬ NameTakenByOther α w (Slugged.organizationId r) id name) := by
    intro r a hr ha
    obtain ⟨hmem, hrid⟩ := Table.get_eq_some_iff.mp hr
    obtain ⟨hid, horg, hslug, hrefs⟩ := hrenamed r a ha
    have hexist : refsExist a w.db = true := by
      rw [refsExist, hrefs]
      exact hsound r hmem
    rw [handled_save (f := fun _ => pure a) hexist fun _ => handled_pure _]
    exact apart_slugged_iff (hid.trans hrid) horg hslug
  constructor
  · rintro h ⟨r, hr, hname, htaken⟩
    obtain ⟨a, ha⟩ := (hmethod r).mpr hname
    exact (hsaved r a hr ha).mp (h r hr a ha) htaken
  · intro h r hr a ha
    refine (hsaved r a hr ha).mpr fun htaken => ?_
    exact h ⟨r, hr, (hmethod r).mp ⟨a, ha⟩, htaken⟩

/-- What the check of `update_details` and `update_role` finds. -/
theorem clash_ok (w : World) (id : Nat) (name : String) (row : α) :
    ∃ found, (if Text.strip name = "" then pure none
      else oneOrNone (fun a : α => Slugged.organizationId a = Slugged.organizationId row &&
        Slugged.slug a = Text.slugify (Text.strip name)) : Query (Option α)) w = .ok found ∧
      (Text.strip name ≠ "" → (found.any (fun r => Row.id r ≠ id) = true ↔
        NameTakenByOther α w (Slugged.organizationId row) id name)) := by
  by_cases hname : Text.strip name = ""
  · exact ⟨none, by rw [if_pos hname]; rfl, fun hne => absurd hname hne⟩
  rw [if_neg hname, Text.slugify_strip]
  by_cases htaken : NameTaken α w (Slugged.organizationId row) name
  · obtain ⟨r, hr, horg, hslug⟩ := htaken
    refine ⟨some r, ?_, fun _ => ?_⟩
    · rw [← horg, ← hslug]
      exact bySlug_taken hr
    · rw [Option.any_some, decide_eq_true_eq]
      constructor
      · exact fun hid => ⟨r, hr, hid, horg, hslug⟩
      · rintro ⟨r', hr', hid', horg', hslug'⟩
        obtain rfl := slugged_unique hr hr' (horg'.trans horg.symm) (hslug'.trans hslug.symm)
        exact hid'
  · refine ⟨none, bySlug_free htaken, fun _ => ?_⟩
    rw [Option.any_none]
    constructor
    · exact fun hfalse => absurd hfalse (by decide)
    · rintro ⟨r, hr, _, horg, hslug⟩
      exact absurd ⟨r, hr, horg, hslug⟩ htaken

/-- A row that gets another name after that check. -/
theorem handled_checked_iff (id : Nat) (name : String) (error : DomainError) (renamed : Except DomainError α)
    (finish : α → α) {row : α} (hrow : (Stored.table w.db : Table α).get id = some row)
    (hrename : ∀ a, renamed = .ok a → Text.strip name ≠ "" ∧ Row.id (finish a) = Row.id row ∧
      Slugged.organizationId (finish a) = Slugged.organizationId row ∧
      Slugged.slug (finish a) = Text.slugify name) :
    Handled (do
      let clash ← (if Text.strip name = "" then pure none
        else oneOrNone (fun a : α => Slugged.organizationId a = Slugged.organizationId row &&
          Slugged.slug a = Text.slugify (Text.strip name)) : Query (Option α))
      raiseIf (clash.any fun r => Row.id r ≠ id) error
      let a ← renamed
      save (finish a)
      return finish a) w ↔
    ∀ a, renamed = .ok a → ¬ NameTakenByOther α w (Slugged.organizationId row) id name →
      refsExist (finish a) w.db = true := by
  obtain ⟨_, hrowid⟩ := Table.get_eq_some_iff.mp hrow
  obtain ⟨found, hfound, hclash⟩ := clash_ok w id name row
  rw [handled_read hfound]
  simp only [handled_raising, raiseIf_ok_iff]
  have hsaved : ∀ a, renamed = .ok a →
      ((¬ found.any (fun r => decide (Row.id r ≠ id)) = true → Handled (do save (finish a); pure (finish a)) w) ↔
      (¬ NameTakenByOther α w (Slugged.organizationId row) id name → refsExist (finish a) w.db = true)) := by
    intro a ha
    obtain ⟨hname, hid, horg, hslug⟩ := hrename a ha
    rw [hclash hname]
    refine imp_congr_right fun hfree => ?_
    have happart := (apart_slugged_iff (hid.trans hrowid) horg hslug).mpr hfree
    by_cases hrefs : refsExist (finish a) w.db = true
    · rw [handled_save (f := fun _ => pure (finish a)) hrefs fun _ => handled_pure _]
      exact iff_of_true happart hrefs
    · refine iff_of_false (fun hh => ?_) hrefs
      have herror : save (finish a) w = .error (.crashed .integrityError) := by
        unfold save
        rw [if_neg hrefs]
      obtain ⟨d, hd⟩ := (Work.raisesOnly_bind_iff.mp hh).1 _ herror
      cases hd
  constructor
  · exact fun h a ha hfree => (hsaved a ha).mp (fun hany => h () hany a ha) hfree
  · exact fun h _ hany a ha => (hsaved a ha).mpr (h a ha) hany

end

/-! ## Copies -/

theorem definition_create_fields {organizationId : Nat} {name : String} {description : Option String}
    {d : WorkflowDefinition} (h : WorkflowDefinition.create organizationId name description = .ok d) :
    d.organizationId = organizationId ∧ d.slug = Text.slugify name ∧ d.steps = [] := by
  obtain ⟨_, hd⟩ := WorkflowDefinition.create_ok_iff.mp h
  rw [← hd]
  exact ⟨rfl, by rw [Text.slugify_strip], rfl⟩

theorem definition_rename_fields {d d' : WorkflowDefinition} {name : String} (h : d.rename name = .ok d') :
    Text.strip name ≠ "" ∧ d'.id = d.id ∧ d'.organizationId = d.organizationId ∧
      d'.slug = Text.slugify name ∧ d'.steps = d.steps := by
  obtain ⟨hname, hd⟩ := WorkflowDefinition.rename_ok_iff.mp h
  rw [← hd]
  exact ⟨hname, rfl, rfl, by rw [Text.slugify_strip], rfl⟩

theorem WorkflowDefinition.foldlM_addStep_eq {d d' : WorkflowDefinition} {steps : List WorkflowStep}
    (h : steps.foldlM (fun d step => d.addStep step) d = .ok d') : d' = { d with steps := d.steps ++ steps } := by
  refine foldlM_ok (I := fun done e => e = { d with steps := d.steps ++ done }) ?_ (by rw [List.append_nil]) h
  rintro done step e e' rfl hadd
  obtain ⟨_, _, _, rfl⟩ := WorkflowDefinition.addStep_ok_iff.mp hadd
  rw [List.append_assoc]

theorem WorkflowDefinition.foldlM_addTransition_eq {d d' : WorkflowDefinition}
    {transitions : List WorkflowTransition}
    (h : transitions.foldlM (fun d transition => d.addTransition transition) d = .ok d') :
    d' = { d with transitions := d.transitions ++ transitions } := by
  refine foldlM_ok (I := fun done e => e = { d with transitions := d.transitions ++ done }) ?_
    (by rw [List.append_nil]) h
  rintro done t e e' rfl hadd
  obtain ⟨_, _, _, _, rfl⟩ := WorkflowDefinition.addTransition_ok_iff.mp hadd
  rw [List.append_assoc]

theorem replay_fields {source copy d : WorkflowDefinition} (h : WorkflowService.replay source copy = .ok d) :
    d.organizationId = copy.organizationId ∧ d.slug = copy.slug ∧ d.steps = copy.steps ++ source.steps := by
  simp only [WorkflowService.replay, bind_ok_iff] at h
  obtain ⟨filled, hsteps, htransitions⟩ := h
  obtain rfl := WorkflowDefinition.foldlM_addStep_eq hsteps
  obtain rfl := WorkflowDefinition.foldlM_addTransition_eq htransitions
  exact ⟨rfl, rfl, rfl⟩

/-! ## The calls -/

variable {w : World}

theorem handled_duplicateDefinition (h : Sound w) (definitionId : Nat) :
    Handled (WorkflowService.duplicateDefinition definitionId) w := by
  unfold WorkflowService.duplicateDefinition WorkflowService.get
  rw [handled_after_read fun _ => require_isRaised]
  intro source hsource
  have hmem := (Table.get_eq_some_iff.mp ((require_ok_iff _ _ _ _).mp hsource)).1
  let rows := orderByText WorkflowDefinition.name
    (w.db.definitions.select fun d => d.organizationId = source.organizationId)
  have hrows : WorkflowService.listForOrganization source.organizationId w = .ok rows := rfl
  rw [handled_read hrows]
  simp only [handled_raising, handled_add_last]
  intro created hcreated copy hcopy
  obtain ⟨hcorg, hcslug, hcsteps⟩ := definition_create_fields hcreated
  obtain ⟨horg, hslug, hsteps⟩ := replay_fields hcopy
  rw [hcsteps, List.nil_append] at hsteps
  refine (storable_slugged_iff (w := w) (horg.trans hcorg) (hslug.trans hcslug)).mpr ⟨?_, ?_⟩
  · have hexist : refsExist source w.db = true := h.refsExist hmem
    have hrefs : Stored.refs copy = Stored.refs source := by
      simp only [Stored.refs, horg, hcorg, hsteps]
    rw [refsExist, hrefs]
    exact hexist
  · rintro ⟨d, hd, hdorg, hdslug⟩
    apply uniqueCopyName_free source.name (rows.map fun d => d.slug)
    rw [← hdslug]
    refine List.mem_map.mpr ⟨d, ?_, rfl⟩
    exact mem_orderByText.mpr (Table.mem_select_iff.mpr ⟨hd, decide_eq_true hdorg⟩)

theorem handled_updateDetails (h : Sound w) (definitionId : Nat) (name : String)
    (description : Option String) :
    Handled (WorkflowService.updateDetails definitionId name description) w := by
  unfold WorkflowService.updateDetails WorkflowService.get
  rw [handled_after_read fun _ => require_isRaised]
  intro row hrow
  have hget := (require_ok_iff _ _ _ _).mp hrow
  have hexist : refsExist row w.db = true := h.refsExist (Table.get_eq_some_iff.mp hget).1
  refine (handled_checked_iff definitionId name (.duplicateWorkflowName (Text.strip name)) (row.rename name)
    (fun d => d.setDescription description) hget fun a ha => ?_).mpr fun a ha _ => ?_
  · obtain ⟨hname, hid, horg, hslug, _⟩ := definition_rename_fields ha
    exact ⟨hname, hid, horg, hslug⟩
  · obtain ⟨_, _, horg, _, hsteps⟩ := definition_rename_fields ha
    have hrefs : Stored.refs (a.setDescription description) = Stored.refs row := by
      simp only [Stored.refs, WorkflowDefinition.setDescription, horg, hsteps]
    rw [refsExist, hrefs]
    exact hexist

theorem handled_createDefinition_iff (organizationId : Nat) (name : String) (description : Option String) :
    Handled (WorkflowService.createDefinition organizationId name description) w ↔
      ¬ (Naming.createDefinition organizationId name description).Clashes w := by
  let rows := orderByText WorkflowDefinition.name
    (w.db.definitions.select fun d => d.organizationId = organizationId)
  have hrows : WorkflowService.listForOrganization organizationId w = .ok rows := rfl
  have hlength : rows.length = (w.db.definitions.select fun d => d.organizationId = organizationId).length :=
    length_orderByText
  simp only [Naming.Clashes, ← hlength]
  refine handled_create_iff hrows ?_ fun d hd => ?_
  · simp [WorkflowDefinition.create_ok_iff]
  · obtain ⟨horg, hslug, hsteps⟩ := definition_create_fields hd
    exact ⟨horg, hslug, by simp only [Stored.refs, horg, hsteps, List.map_nil]⟩

theorem agent_create_fields {organizationId : Nat} {name : String} {description : Option String} {a : Agent}
    (h : Agent.create organizationId name description = .ok a) : Text.strip name ≠ "" ∧
      a.organizationId = organizationId ∧ a.name = Text.strip name ∧ a.slug = Text.slugify name := by
  simp only [Agent.create, bind_ok_iff, raiseIf_ok_iff, return_ok_iff] at h
  obtain ⟨_, hname, ha⟩ := h
  rw [← ha]
  exact ⟨hname, rfl, rfl, by rw [Text.slugify_strip]⟩

theorem handled_createAgent_iff (organizationId : Nat) (name : String) (description : Option String) :
    Handled (AgentService.createAgent organizationId name description) w ↔
      ¬ (Naming.createAgent organizationId name description).Clashes w := by
  let rows := orderByText Agent.name (w.db.agents.select fun a => a.organizationId = organizationId)
  have hrows : AgentService.listAgents organizationId w = .ok rows := rfl
  have hlength : rows.length = (w.db.agents.select fun a => a.organizationId = organizationId).length :=
    length_orderByText
  simp only [Naming.Clashes, ← hlength]
  refine handled_create_iff hrows ?_ fun a ha => ?_
  · simp [Agent.create]
  · obtain ⟨_, horg, _, hslug⟩ := agent_create_fields ha
    exact ⟨horg, hslug, by simp only [Stored.refs, horg]⟩

theorem agent_rename_fields {a a' : Agent} {name : String} (h : a.rename name = .ok a') :
    Text.strip name ≠ "" ∧ a'.id = a.id ∧ a'.organizationId = a.organizationId ∧
      a'.slug = Text.slugify name := by
  obtain ⟨hname, ha⟩ := agent_rename_ok_iff.mp h
  rw [← ha]
  exact ⟨hname, rfl, rfl, by rw [Text.slugify_strip]⟩

theorem handled_renameAgent_iff (h : Sound w) (agentId : Nat) (newName : String) :
    Handled (AgentService.renameAgent agentId newName) w ↔ ¬ (Naming.renameAgent agentId newName).Clashes w := by
  refine handled_rename_iff (fun a ha => h.refsExist ha) (fun a => ?_) fun a a' ha => ?_
  · simp [agent_rename_ok_iff]
  · obtain ⟨_, hid, horg, hslug⟩ := agent_rename_fields ha
    exact ⟨hid, horg, hslug, by simp only [Stored.refs, horg]⟩

theorem handled_updateAgent_iff (h : Sound w) (agentId : Nat) (name : String) (description : Option String) :
    Handled (AgentService.update agentId name description) w ↔
      ¬ (Naming.updateAgent agentId name description).Clashes w := by
  refine handled_rename_iff (fun a ha => h.refsExist ha) (fun a => ?_) fun a a' ha => ?_
  · simp [agent_rename_ok_iff]
  · obtain ⟨renamed, hr, rfl⟩ := (map_ok_iff _ _ _).mp ha
    obtain ⟨_, hid, horg, hslug⟩ := agent_rename_fields hr
    exact ⟨hid, horg, hslug, by simp only [Stored.refs, Agent.setDescription, horg]⟩

theorem role_rename_fields {r r' : Role} {name : String} (h : r.rename name = .ok r') :
    Text.strip name ≠ "" ∧ r'.id = r.id ∧ r'.organizationId = r.organizationId ∧
      r'.slug = Text.slugify name ∧ r'.agentId = r.agentId := by
  obtain ⟨hname, hr⟩ := role_rename_ok_iff.mp h
  rw [← hr]
  exact ⟨hname, rfl, rfl, by rw [Text.slugify_strip], rfl⟩

theorem handled_renameRole_iff (h : Sound w) (roleId : Nat) (newName : String) :
    Handled (RoleService.renameRole roleId newName) w ↔ ¬ (Naming.renameRole roleId newName).Clashes w := by
  refine handled_rename_iff (fun r hr => h.refsExist hr) (fun r => ?_) fun r r' hr => ?_
  · simp [role_rename_ok_iff]
  · obtain ⟨_, hid, horg, hslug, hagent⟩ := role_rename_fields hr
    exact ⟨hid, horg, hslug, by simp only [Stored.refs, horg, hagent]⟩

/-- The rows a role refers to. -/
theorem refsExist_role_iff {r : Role} : refsExist r w.db = true ↔
    (w.db.organizations.get r.organizationId).isSome = true ∧ ¬ AgentMissing w r.agentId := by
  unfold AgentMissing
  cases hagent : r.agentId with
  | none => simp [refsExist, Stored.refs, Database.has, hagent]
  | some id => simp [refsExist, Stored.refs, Database.has, hagent, Option.isSome_iff_ne_none]

theorem handled_createRole_iff (organizationId : Nat) (name : String) (description : Option String)
    (agentId : Option Nat) :
    Handled (RoleService.createRole organizationId name description agentId) w ↔
      ¬ (Naming.createRole organizationId name description agentId).Clashes w := by
  unfold RoleService.createRole RoleService.getBySlug
  simp only [Naming.Clashes]
  by_cases htaken : NameTaken Role w organizationId name
  · refine iff_of_true ?_ fun hc => hc.2.1 htaken
    obtain ⟨r, hr, horg, hslug⟩ := htaken
    have hfound : oneOrNone (fun r : Role => r.organizationId = organizationId && r.slug = Text.slugify name) w =
        .ok (some r) := by
      rw [← horg, ← hslug]
      exact bySlug_taken hr
    rw [handled_read hfound, handled_raising]
    exact fun u hu => absurd rfl ((raiseIf_ok_iff _ _ u).mp hu)
  · have hfree : oneOrNone (fun r : Role => r.organizationId = organizationId && r.slug = Text.slugify name) w =
        .ok none := bySlug_free htaken
    rw [handled_read hfree]
    simp only [handled_raising, handled_add_last]
    constructor
    · rintro h ⟨hname, _, hmissing⟩
      have hstorable := h () ((raiseIf_ok_iff _ _ _).mpr (by simp)) _
        (role_create_ok_iff.mpr ⟨hname, rfl⟩)
      obtain ⟨hrefs, _⟩ := hstorable
      obtain ⟨hexists, hagent⟩ := refsExist_role_iff.mp hrefs
      rcases hmissing with hnone | hmissing
      · rw [hnone] at hexists
        cases hexists
      · exact hagent hmissing
    · intro h _ _ r hr
      obtain ⟨hname, hrole⟩ := role_create_ok_iff.mp hr
      have horg : r.organizationId = organizationId := by rw [← hrole]
      have hslug : r.slug = Text.slugify name := by rw [← hrole, Text.slugify_strip]
      have hagent : r.agentId = agentId := by rw [← hrole]
      refine (storable_slugged_iff horg hslug).mpr ⟨refsExist_role_iff.mpr ⟨?_, fun hmissing => ?_⟩, htaken⟩
      · by_contra hnone
        refine h ⟨hname, htaken, Or.inl ?_⟩
        rw [← horg]
        exact Option.not_isSome_iff_eq_none.mp hnone
      · exact h ⟨hname, htaken, Or.inr (hagent ▸ hmissing)⟩

theorem handled_updateRole_iff (h : Sound w) (roleId : Nat) (name : String) (description : Option String)
    (agentId : Option Nat) :
    Handled (RoleService.updateRole roleId name description agentId) w ↔
      ¬ (Naming.updateRole roleId name description agentId).Clashes w := by
  unfold RoleService.updateRole RoleService.get
  simp only [Naming.Clashes]
  rw [handled_after_read fun _ => require_isRaised]
  simp only [require_ok_iff]
  have hchecked := fun (r : Role) (hr : w.db.roles.get roleId = some r) =>
    handled_checked_iff roleId name (.duplicateRoleName (Text.strip name)) (r.rename name)
      (fun r => (r.setDescription description).setAgent agentId) hr fun a ha => (by
        obtain ⟨hname, hid, horg, hslug, _⟩ := role_rename_fields ha
        exact ⟨hname, hid, horg, hslug⟩)
  constructor
  · rintro hh ⟨r, hr, hname, hfree, hmissing⟩
    have hrefs := (hchecked r hr).mp (hh r hr) _ (role_rename_ok_iff.mpr ⟨hname, rfl⟩) hfree
    exact (refsExist_role_iff.mp hrefs).2 hmissing
  · intro hc r hr
    refine (hchecked r hr).mpr fun a ha hfree => ?_
    obtain ⟨hname, _, horg, _⟩ := role_rename_fields ha
    have hexist : refsExist r w.db = true := h.refsExist (Table.get_eq_some_iff.mp hr).1
    refine refsExist_role_iff.mpr ⟨?_, fun hmissing => hc ⟨r, hr, hname, hfree, hmissing⟩⟩
    have hkept := (refsExist_role_iff.mp hexist).1
    rw [← horg] at hkept
    exact hkept

end Orchestract
