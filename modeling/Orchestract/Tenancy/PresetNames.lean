import Orchestract.Tenancy.Names

/-!
# Presets and names

A preset is applied in several units of work: its missing agents, the workflow, the steps and the
transitions. When all of them commit, and when the first error leaves everything as it was.
-/

namespace Orchestract

set_option autoImplicit false

/-- What the steps and transitions of a preset need to be added one after the other. -/
structure WorkflowPreset.WellFormed (preset : WorkflowPreset) : Prop where
  agentNames : ∀ agent ∈ preset.agents, Text.strip agent.1 ≠ ""
  agentSlugs : (preset.agents.map fun agent => Text.slugify agent.1).Nodup
  name : Text.strip preset.name ≠ ""
  keys : (preset.steps.map PresetStep.key).Nodup
  initial : (preset.steps.map PresetStep.isInitial).Pairwise fun a b => b = true → a = false
  stepAgents : ∀ step ∈ preset.steps, step.agent ∈ preset.agents.map Prod.fst
  ends : ∀ t ∈ preset.transitions, t.fromStepKey ∈ preset.steps.map PresetStep.key ∧
    t.toStepKey ∈ preset.steps.map PresetStep.key
  actions : (preset.transitions.map fun t => (t.fromStepKey, t.actionName)).Nodup

theorem wellFormed_of_mem {preset : WorkflowPreset} (h : preset ∈ workflowPresets) : preset.WellFormed := by
  simp only [workflowPresets, List.mem_cons, List.not_mem_nil, or_false] at h
  rcases h with rfl | rfl | rfl
  · exact ⟨by decide +kernel, by decide +kernel, by decide, by decide, by decide, by decide, by decide,
      by decide⟩
  · exact ⟨by decide +kernel, by decide +kernel, by decide, by decide, by decide, by decide, by decide,
      by decide⟩
  · exact ⟨by decide +kernel, by decide +kernel, by decide, by decide, by decide, by decide, by decide,
      by decide⟩

/-! ## The agents -/

/-- The agents of whose name none is known. -/
def missing (known : List (String × Nat)) (agents : List (String × String)) : List (String × String) :=
  agents.filter fun agent => (known.lookup agent.1).isNone

/-- All of these agents can be created. -/
def CanCreate (w : World) (organizationId : Nat) (limit : Option Nat) (agents : List (String × String)) :
    Prop :=
  (∀ agent ∈ agents, ¬ NameTaken Agent w organizationId agent.1) ∧
    (agents ≠ [] → ∀ m, limit = some m →
      (w.db.agents.select fun a => a.organizationId = organizationId).length + agents.length ≤ m)

section

variable {w : World} {organizationId : Nat} {o : Organization}

/-- An agent is created when there is room for it and its slug is free. -/
theorem createAgent_ok_iff (ho : w.db.organizations.get organizationId = some o) {name : String}
    (hname : Text.strip name ≠ "") (description : Option String) :
    (∃ p, AgentService.createAgent organizationId name description w = .ok p) ↔
      ¬ NameTaken Agent w organizationId name ∧ o.HasRoom PlanLimits.maxAgents
        (w.db.agents.select fun a => a.organizationId = organizationId).length := by
  have hrows : AgentService.listAgents organizationId w =
      .ok (orderByText Agent.name (w.db.agents.select fun a => a.organizationId = organizationId)) := rfl
  obtain ⟨a, ha⟩ : ∃ a, Agent.create organizationId name description = .ok a := by
    simpa [Agent.create] using hname
  obtain ⟨_, horg, _, hslug⟩ := agent_create_fields ha
  rw [← length_orderByText]
  exact create_ok_iff ho ha horg hslug (by simp only [Stored.refs, horg]) hrows

/-- A created agent is one more row of its organization, with the slug of its name. -/
theorem createAgent_ok {name : String} {description : Option String} {a : Agent} {w' : World}
    (h : AgentService.createAgent organizationId name description w = .ok (a, w')) :
    ∃ draft t, w.db.agents.insert draft = some (a, t) ∧ w' = { w with db := { w.db with agents := t } } ∧
      a.organizationId = organizationId ∧ a.slug = Text.slugify name := by
  simp only [AgentService.createAgent, OrganizationService.get, Work.bind_ok_iff, Work.lift_ok_iff,
    require_ok_iff, lift_work_ok_iff] at h
  obtain ⟨_, _, ⟨_, rfl⟩, _, _, ⟨_, rfl⟩, draft, _, ⟨hdraft, rfl⟩, hadd⟩ := h
  obtain ⟨_, horg, _, hslug⟩ := agent_create_fields hdraft
  obtain ⟨_, t, ht, rfl⟩ := (add_ok_iff draft a w w').mp hadd
  obtain ⟨hnew, _, _⟩ := Table.insert_eq_some ht
  refine ⟨draft, t, ht, rfl, ?_, ?_⟩
  · rw [hnew]
    exact horg
  · rw [hnew]
    exact hslug

/-- After an agent is created, the others can be created if and only if they could before. -/
theorem canCreate_created {limit : Option Nat} {name : String} {description : Option String} {a : Agent}
    {w' : World} (h : AgentService.createAgent organizationId name description w = .ok (a, w'))
    (hfree : ¬ NameTaken Agent w organizationId name)
    (hroom : ∀ m, limit = some m → (w.db.agents.select fun a => a.organizationId = organizationId).length < m)
    {agents : List (String × String)} {description' : String}
    (hslugs : ∀ agent ∈ agents, Text.slugify agent.1 ≠ Text.slugify name) :
    CanCreate w' organizationId limit agents ↔
      CanCreate w organizationId limit ((name, description') :: agents) := by
  obtain ⟨draft, t, ht, rfl, horg, hslug⟩ := createAgent_ok h
  have hlength := Table.length_select_insert (fun a => a.organizationId = organizationId) ht
  rw [if_pos (decide_eq_true horg)] at hlength
  have htaken : ∀ agent ∈ agents, NameTaken Agent { w with db := { w.db with agents := t } } organizationId
      agent.1 ↔ NameTaken Agent w organizationId agent.1 := by
    intro agent hagent
    constructor
    · rintro ⟨r, hr, hrorg, hrslug⟩
      rcases (Table.mem_insert_iff ht).mp hr with hr | rfl
      · exact ⟨r, hr, hrorg, hrslug⟩
      · exact absurd (hrslug.symm.trans hslug) (hslugs agent hagent)
    · rintro ⟨r, hr, hrorg, hrslug⟩
      exact ⟨r, (Table.mem_insert_iff ht).mpr (Or.inl hr), hrorg, hrslug⟩
  unfold CanCreate
  change (_ ∧ (_ → ∀ m, _ → (t.select fun a => a.organizationId = organizationId).length + _ ≤ m)) ↔ _
  rw [hlength]
  simp only [List.forall_mem_cons, List.length_cons]
  constructor
  · rintro ⟨hall, hcap⟩
    refine ⟨⟨hfree, fun agent hagent htak => hall agent hagent ((htaken agent hagent).mpr htak)⟩, ?_⟩
    intro _ m hm
    have hlt := hroom m hm
    by_cases hnil : agents = []
    · rw [hnil, List.length_nil]
      omega
    · have hle := hcap hnil m hm
      omega
  · rintro ⟨⟨_, hall⟩, hcap⟩
    refine ⟨fun agent hagent htak => hall agent hagent ((htaken agent hagent).mp htak), ?_⟩
    intro _ m hm
    have hle := hcap (List.cons_ne_nil _ _) m hm
    omega

/-- The known agents and those of the preset exist. -/
def PresetAgents.Exist (agents : PresetAgents) (w : World) : Prop :=
  ∀ p, p ∈ agents.known ∨ p ∈ agents.ids → (w.db.agents.get p.2).isSome = true

/-- The names of these agents of the preset are found. -/
def PresetAgents.Found (agents : PresetAgents) (names : List String) : Prop :=
  ∀ name ∈ names, (agents.ids.lookup name).isSome = true

theorem missing_known {known : List (String × Nat)} {agent : String × String} {id : Nat}
    (hlookup : known.lookup agent.1 = some id) (agents : List (String × String)) :
    missing known (agent :: agents) = missing known agents := by
  unfold missing
  rw [List.filter_cons_of_neg (by simp [hlookup])]

theorem missing_unknown {known : List (String × Nat)} {agent : String × String} (id : Nat)
    (hlookup : known.lookup agent.1 = none) {agents : List (String × String)}
    (hnames : ∀ a ∈ agents, a.1 ≠ agent.1) :
    missing known (agent :: agents) = agent :: missing (known ++ [(agent.1, id)]) agents := by
  unfold missing
  rw [List.filter_cons_of_pos (by simp [hlookup])]
  congr 1
  apply List.filter_congr
  intro a ha
  have hne : (a.1 == agent.1) = false := by simpa using hnames a ha
  rw [List.lookup_append, List.lookup_cons, hne]
  simp

theorem ensureAgent_known {found : PresetAgents} {agent : String × String} {id : Nat}
    (h : found.known.lookup agent.1 = some id) (w : World) :
    ensureAgent organizationId found agent w =
      (.ok { found with ids := found.ids ++ [(agent.1, id)] }, w) := by
  unfold ensureAgent
  rw [h]
  rfl

theorem ensureAgent_unknown {found : PresetAgents} {agent : String × String}
    (h : found.known.lookup agent.1 = none) (w : World) :
    ensureAgent organizationId found agent w =
      match AgentService.createAgent organizationId agent.1 (some agent.2) w with
      | .ok (created, w') =>
        (.ok ⟨found.known ++ [(agent.1, created.id)], found.ids ++ [(agent.1, created.id)]⟩, w')
      | .error e => (.error e, w) := by
  unfold ensureAgent
  rw [h]
  change (liftM _ >>= _ : Action PresetAgents) w = _
  rw [Program.bind_apply, Program.commit_apply]
  cases AgentService.createAgent organizationId agent.1 (some agent.2) w <;> rfl

/-- The agents are there if and only if the missing ones can be created. -/
theorem ensureAgents_iff (ho : w.db.organizations.get organizationId = some o)
    {agents : List (String × String)} (hnames : ∀ agent ∈ agents, Text.strip agent.1 ≠ "")
    (hslugs : (agents.map fun agent => Text.slugify agent.1).Nodup) (found : PresetAgents) :
    (∃ found', (agents.foldlM (ensureAgent organizationId) found w).1 = .ok found') ↔
      CanCreate w organizationId o.plan.limits.maxAgents (missing found.known agents) := by
  induction agents generalizing w found with
  | nil => exact iff_of_true ⟨found, rfl⟩ ⟨fun _ h => (by cases h), fun h => absurd rfl h⟩
  | cons agent agents ih =>
    have hrest : ∀ a ∈ agents, Text.strip a.1 ≠ "" := fun a ha => hnames a (List.mem_cons_of_mem _ ha)
    rw [List.map_cons, List.nodup_cons] at hslugs
    obtain ⟨hslug, hslugs⟩ := hslugs
    have hne : ∀ a ∈ agents, Text.slugify a.1 ≠ Text.slugify agent.1 :=
      fun a ha heq => hslug (List.mem_map.mpr ⟨a, ha, heq⟩)
    rw [List.foldlM_cons, Program.bind_apply]
    cases hlookup : found.known.lookup agent.1 with
    | some id =>
      rw [ensureAgent_known hlookup, missing_known hlookup]
      exact ih ho hrest hslugs _
    | none =>
      have hname := hnames agent List.mem_cons_self
      have hmissing : ∀ id, missing found.known (agent :: agents) =
          agent :: missing (found.known ++ [(agent.1, id)]) agents :=
        fun id => missing_unknown id hlookup fun a ha heq => hne a ha (by rw [heq])
      rw [ensureAgent_unknown hlookup]
      cases hcreate : AgentService.createAgent organizationId agent.1 (some agent.2) w with
      | error e =>
        refine iff_of_false (fun ⟨_, hfound⟩ => by cases hfound) fun hcan => ?_
        rw [hmissing 0] at hcan
        have hok := (createAgent_ok_iff ho hname (some agent.2)).mpr
          ⟨hcan.1 agent List.mem_cons_self, fun m hm => by
            have hle := hcan.2 (List.cons_ne_nil _ _) m hm
            rw [List.length_cons] at hle
            omega⟩
        obtain ⟨p, hp⟩ := hok
        rw [hcreate] at hp
        cases hp
      | ok p =>
        obtain ⟨created, w'⟩ := p
        obtain ⟨hfree, hroom⟩ := (createAgent_ok_iff ho hname (some agent.2)).mp ⟨_, hcreate⟩
        have ho' : w'.db.organizations.get organizationId = some o := by
          obtain ⟨_, _, _, rfl, _⟩ := createAgent_ok hcreate
          exact ho
        rw [hmissing created.id]
        refine (ih ho' hrest hslugs _).trans (canCreate_created hcreate hfree hroom fun a ha => ?_)
        exact hne a (List.mem_of_mem_filter ha)

/-- Every agent of the preset is found afterwards, and exists. -/
theorem ensureAgents_found (names : List String) {agents : List (String × String)}
    {found found' : PresetAgents} (hexist : found.Exist w) (hfound : found.Found names)
    (h : (agents.foldlM (ensureAgent organizationId) found w).1 = .ok found') :
    found'.Exist (agents.foldlM (ensureAgent organizationId) found w).2 ∧
      found'.Found (names ++ agents.map Prod.fst) := by
  have hmore : ∀ (found : PresetAgents) (names : List String) (name : String) (id : Nat)
      (known : List (String × Nat)), found.Found names →
      PresetAgents.Found ⟨known, found.ids ++ [(name, id)]⟩ (names ++ [name]) := by
    intro found names name id known hfound n hn
    change (List.lookup n (found.ids ++ [(name, id)])).isSome = true
    rw [List.lookup_append, Option.isSome_or]
    rcases List.mem_append.mp hn with hn | hn
    · rw [hfound n hn, Bool.true_or]
    · obtain rfl := List.mem_singleton.mp hn
      simp
  induction agents generalizing w found names with
  | nil =>
    obtain rfl := Except.ok.inj h
    exact ⟨hexist, by rw [List.map_nil, List.append_nil]; exact hfound⟩
  | cons agent agents ih =>
    rw [List.foldlM_cons, Program.bind_apply] at h ⊢
    rw [List.map_cons, ← List.singleton_append, ← List.append_assoc]
    cases hlookup : found.known.lookup agent.1 with
    | some id =>
      rw [ensureAgent_known hlookup] at h ⊢
      refine ih _ (fun p hp => ?_) (hmore found names agent.1 id found.known hfound) h
      rcases hp with hp | hp
      · exact hexist p (Or.inl hp)
      · rcases List.mem_append.mp hp with hp | hp
        · exact hexist p (Or.inr hp)
        · obtain rfl := List.mem_singleton.mp hp
          obtain ⟨key, hmem⟩ : ∃ key, (key, id) ∈ found.known := by
            rw [List.lookup_eq_some_iff] at hlookup
            obtain ⟨before, after, heq, _⟩ := hlookup
            exact ⟨_, heq ▸ List.mem_append_right _ List.mem_cons_self⟩
          exact hexist (key, id) (Or.inl hmem)
    | none =>
      rw [ensureAgent_unknown hlookup] at h ⊢
      cases hcreate : AgentService.createAgent organizationId agent.1 (some agent.2) w with
      | error e =>
        rw [hcreate] at h
        cases h
      | ok p =>
        obtain ⟨created, w'⟩ := p
        rw [hcreate] at h
        obtain ⟨draft, t, ht, rfl, _, _⟩ := createAgent_ok hcreate
        refine ih _ (fun p hp => ?_) (hmore found names agent.1 created.id _ hfound) h
        have hnew : (t.get created.id).isSome = true := Option.isSome_of_eq_some (Table.get_inserted ht)
        have hold : p ∈ found.known ∨ p ∈ found.ids → (t.get p.2).isSome = true :=
          fun hp => Table.lasts_insert ht p.2 (hexist p hp)
        rcases hp with hp | hp
        · rcases List.mem_append.mp hp with hp | hp
          · exact hold (Or.inl hp)
          · obtain rfl := List.mem_singleton.mp hp
            exact hnew
        · rcases List.mem_append.mp hp with hp | hp
          · exact hold (Or.inr hp)
          · obtain rfl := List.mem_singleton.mp hp
            exact hnew

/-! ## The first error -/

/-- There is no organization, or it has no room for another agent. -/
def NoRoom (w : World) (organizationId : Nat) : Prop :=
  ∀ o, w.db.organizations.get organizationId = some o → ¬ o.HasRoom PlanLimits.maxAgents
    (w.db.agents.select fun a => a.organizationId = organizationId).length

theorem createAgent_noRoom (h : NoRoom w organizationId) (name : String) (description : Option String) :
    ∃ e, AgentService.createAgent organizationId name description w = .error (.raised e) := by
  have hhandled := (handled_createAgent_iff organizationId name description).mpr
    fun ⟨_, _, o, ho, hroom⟩ => h o ho hroom
  rcases handled_iff.mp hhandled with ⟨⟨a, w'⟩, hok⟩ | herror
  · simp only [AgentService.createAgent, OrganizationService.get, Work.bind_ok_iff, Work.lift_ok_iff,
      require_ok_iff] at hok
    obtain ⟨o, _, ⟨ho, rfl⟩, _, _, ⟨hroom, rfl⟩, _⟩ := hok
    refine absurd (hasRoom_of_requireRoom hroom fun rows hrows => ?_) (h o ho)
    have heq : rows = orderByText Agent.name
        (w.db.agents.select fun a => a.organizationId = organizationId) := (Except.ok.inj hrows).symm
    rw [heq, length_orderByText]
  · exact herror

/-- Where there is room, only a slug that is taken keeps an agent from being created. -/
theorem createAgent_error (ho : w.db.organizations.get organizationId = some o)
    (hroom : o.HasRoom PlanLimits.maxAgents
      (w.db.agents.select fun a => a.organizationId = organizationId).length)
    {name : String} (hname : Text.strip name ≠ "") {description : Option String} {e : Failure}
    (h : AgentService.createAgent organizationId name description w = .error e) : ¬ e.IsRaised := by
  rintro ⟨d, rfl⟩
  have hhandled : Handled (AgentService.createAgent organizationId name description) w :=
    handled_iff.mpr (Or.inr ⟨d, h⟩)
  have hfree : ¬ NameTaken Agent w organizationId name := fun htaken =>
    (handled_createAgent_iff organizationId name description).mp hhandled ⟨hname, htaken, o, ho, hroom⟩
  obtain ⟨p, hp⟩ := (createAgent_ok_iff ho hname description).mpr ⟨hfree, hroom⟩
  rw [h] at hp
  cases hp

/-- Without room the first missing agent raises, and nothing has happened. -/
theorem ensureAgents_noRoom (h : NoRoom w organizationId) {agents : List (String × String)}
    {found : PresetAgents} (hmissing : missing found.known agents ≠ []) :
    ∃ e, agents.foldlM (ensureAgent organizationId) found w = (.error (.raised e), w) := by
  induction agents generalizing found with
  | nil => exact absurd rfl hmissing
  | cons agent agents ih =>
    rw [List.foldlM_cons, Program.bind_apply]
    cases hlookup : found.known.lookup agent.1 with
    | some id =>
      rw [missing_known hlookup] at hmissing
      rw [ensureAgent_known hlookup]
      exact ih hmissing
    | none =>
      obtain ⟨e, he⟩ := createAgent_noRoom h agent.1 (some agent.2)
      rw [ensureAgent_unknown hlookup, he]
      exact ⟨e, rfl⟩

theorem ensureAgents_holds (organizationId : Nat) (agents : List (String × String)) (found : PresetAgents)
    (w : World) : w.Holds (agents.foldlM (ensureAgent organizationId) found w).2 := by
  apply programWithin_holds [.agents]
  intro I hI
  exact Program.ensures_foldlM trivial
    fun found agent _ _ => programWithin_ensureAgent organizationId found agent (by decide) I hI

/-- Only agents are written. -/
theorem ensureAgents_same (organizationId : Nat) (agents : List (String × String)) (found : PresetAgents)
    (w : World) :
    (agents.foldlM (ensureAgent organizationId) found w).2.db.organizations = w.db.organizations ∧
      (agents.foldlM (ensureAgent organizationId) found w).2.db.definitions = w.db.definitions := by
  have hsame : ∀ n, n ≠ Site.agents → w.Same (agents.foldlM (ensureAgent organizationId) found w).2 n := by
    intro n hn
    have hkeeps : ∀ site ∈ [Site.agents], KeptBy site fun w' => w.Same w' n := by
      intro site hsite
      obtain rfl := List.mem_singleton.mp hsite
      exact keptBy_same hn.symm w
    exact (Program.ensures_foldlM trivial fun found agent _ _ =>
      programWithin_ensureAgent organizationId found agent (by decide) _ hkeeps) w (w.same_refl n) |>.1
  exact ⟨hsame .organizations (by decide), hsame .definitions (by decide)⟩

/-- With room the first missing agent is created, or the unit of work crashes. -/
theorem ensureAgents_room (ho : w.db.organizations.get organizationId = some o)
    (hroom : o.HasRoom PlanLimits.maxAgents
      (w.db.agents.select fun a => a.organizationId = organizationId).length)
    {agents : List (String × String)} (hnames : ∀ agent ∈ agents, Text.strip agent.1 ≠ "")
    {found : PresetAgents} (hmissing : missing found.known agents ≠ []) :
    (∃ e, ¬ e.IsRaised ∧ (agents.foldlM (ensureAgent organizationId) found w).1 = .error e) ∨
      ((agents.foldlM (ensureAgent organizationId) found w).2.db.agents.get w.db.agents.next).isSome = true := by
  induction agents generalizing found with
  | nil => exact absurd rfl hmissing
  | cons agent agents ih =>
    rw [List.foldlM_cons, Program.bind_apply]
    cases hlookup : found.known.lookup agent.1 with
    | some id =>
      rw [missing_known hlookup] at hmissing
      rw [ensureAgent_known hlookup]
      exact ih (fun a ha => hnames a (List.mem_cons_of_mem _ ha)) hmissing
    | none =>
      rw [ensureAgent_unknown hlookup]
      cases hcreate : AgentService.createAgent organizationId agent.1 (some agent.2) w with
      | error e =>
        exact Or.inl ⟨e, createAgent_error ho hroom (hnames agent List.mem_cons_self) hcreate, rfl⟩
      | ok p =>
        obtain ⟨created, w'⟩ := p
        obtain ⟨draft, t, ht, rfl, _, _⟩ := createAgent_ok hcreate
        have hget : t.get w.db.agents.next = some created := by
          rw [Table.get_insert ht, if_pos rfl]
        obtain ⟨r, hr, _⟩ := (ensureAgents_holds organizationId agents _
          { w with db := { w.db with agents := t } }).agents _ created hget
        exact Or.inr (Option.isSome_of_eq_some hr)

end

/-! ## The workflow -/

/-- What follows once the agents are there. -/
def presetWorkflow (organizationId : Nat) (preset : WorkflowPreset) (agents : PresetAgents) :
    Action WorkflowDefinition := do
  let name ← uniqueWorkflowName organizationId preset.name
  let definition ← WorkflowService.createDefinition organizationId name (some preset.description)
  preset.steps.forM (addPresetStep definition.id agents)
  preset.transitions.forM (addPresetTransition definition.id)
  return definition

section

variable {w : World} {organizationId definitionId : Nat}

theorem strip_append_ne_empty {s t : String} (h : Text.strip s ≠ "") : Text.strip (s ++ t) ≠ "" := by
  intro hempty
  refine h (Text.strip_eq_empty_iff.mpr fun c hc => Text.strip_eq_empty_iff.mp hempty c ?_)
  rw [String.toList_append]
  exact List.mem_append_left _ hc

theorem uniqueWorkflowName_ok (w : World) (organizationId : Nat) {baseName : String}
    (hbase : Text.strip baseName ≠ "") :
    ∃ name, uniqueWorkflowName organizationId baseName w = .ok name ∧ Text.strip name ≠ "" ∧
      ¬ NameTaken WorkflowDefinition w organizationId name := by
  obtain ⟨workflows, name, hlist, hname, hfinds⟩ := uniqueWorkflowName_finds w organizationId baseName
  obtain rfl := Except.ok.inj hlist
  refine ⟨name, hname, ?_, ?_⟩
  · cases hfinds with
    | bare => exact hbase
    | numbered => exact strip_append_ne_empty (strip_append_ne_empty hbase)
  · rintro ⟨d, hd, horg, hslug⟩
    apply hfinds.firstName.1
    rw [← hslug]
    refine List.mem_map.mpr ⟨d, ?_, rfl⟩
    exact mem_orderByText.mpr (Table.mem_select_iff.mpr ⟨hd, decide_eq_true horg⟩)

theorem refsExist_definition_iff {d : WorkflowDefinition} {db : Database} : refsExist d db = true ↔
    (db.organizations.get d.organizationId).isSome = true ∧
      ∀ s ∈ d.steps, (db.agents.get s.agentId).isSome = true := by
  simp [refsExist, Stored.refs, Database.has]

/-- A draft with these steps and these transitions. -/
def Drafted (definitionId : Nat) (steps : List (String × Bool)) (edges : List (String × String)) (w : World) :
    Prop :=
  ∃ d, w.db.definitions.get definitionId = some d ∧ d.status = .draft ∧ refsExist d w.db = true ∧
    d.steps.map (fun s => (s.key, s.isInitial)) = steps ∧
    d.transitions.map (fun t => (t.fromStepKey, t.actionName)) = edges

/-- A method that keeps the slug is committed. -/
theorem changeDefinition_ok (method : WorkflowDefinition → Except DomainError WorkflowDefinition)
    {d d' : WorkflowDefinition} (hd : w.db.definitions.get definitionId = some d) (hmethod : method d = .ok d') (hid : d'.id = d.id)
    (horg : d'.organizationId = d.organizationId) (hslug : d'.slug = d.slug)
    (hrefs : refsExist d' w.db = true) :
    ∃ t, change "workflow definition" definitionId method w =
        .ok (d', { w with db := { w.db with definitions := t } }) ∧ t.get definitionId = some d' := by
  obtain ⟨hmem, hrow⟩ := Table.get_eq_some_iff.mp hd
  obtain ⟨t, ht⟩ : ∃ t, w.db.definitions.update d' = some t := by
    refine Table.update_isSome_iff.mpr fun r hr hne => ?_
    have hkeys : Row.keys d' = Row.keys d := by simp only [Row.keys, horg, hslug]
    have hne' : Row.id r ≠ Row.id d := fun heq => hne (heq.trans hid.symm)
    rw [hkeys]
    exact w.db.definitions.unique d hmem r hr hne'
  refine ⟨t, (change_ok_iff _ _ _ _ _ _).mpr ⟨d, hd, hmethod, ?_⟩, ?_⟩
  · exact (save_ok_iff d' w _).mpr ⟨hrefs, t, ht, rfl⟩
  · have hrow' : Row.id d' = definitionId := hid.trans hrow
    have hget := Table.get_of_update ht (hrow' ▸ hd)
    rw [hrow'] at hget
    exact hget

theorem addPresetStep_succeeds {agents : PresetAgents} {step : PresetStep} {steps : List (String × Bool)}
    {edges : List (String × String)} (hw : Drafted definitionId steps edges w) (hagents : agents.Exist w)
    (hfound : (agents.ids.lookup step.agent).isSome = true) (hkey : step.key ∉ steps.map Prod.fst)
    (hinitial : ∀ b ∈ steps.map Prod.snd, step.isInitial = true → b = false) :
    Program.Succeeds (addPresetStep definitionId agents step) w fun _ w' =>
      Drafted definitionId (steps ++ [(step.key, step.isInitial)]) edges w' ∧ agents.Exist w' := by
  obtain ⟨d, hd, hdraft, hrefs, rfl, rfl⟩ := hw
  obtain ⟨agentId, hlookup⟩ := Option.isSome_iff_exists.mp hfound
  let new : WorkflowStep :=
    ⟨step.key, step.name, some step.description, agentId, step.isInitial, step.isTerminal⟩
  have hadd : d.addStep new = .ok { d with steps := d.steps ++ [new] } := by
    refine WorkflowDefinition.addStep_ok_iff.mpr ⟨hdraft, fun s hs heq => hkey ?_, fun hinit s hs => ?_, rfl⟩
    · rw [List.map_map]
      exact List.mem_map.mpr ⟨s, hs, heq⟩
    · refine hinitial s.isInitial ?_ hinit
      rw [List.map_map]
      exact List.mem_map.mpr ⟨s, hs, rfl⟩
  have hagent : (w.db.agents.get agentId).isSome = true := by
    obtain ⟨before, after, heq, _⟩ := List.lookup_eq_some_iff.mp hlookup
    exact hagents (step.agent, agentId) (Or.inr (heq ▸ List.mem_append_right _ List.mem_cons_self))
  obtain ⟨horg, hsteps⟩ := refsExist_definition_iff.mp hrefs
  have hrefs' : refsExist { d with steps := d.steps ++ [new] } w.db = true := by
    refine refsExist_definition_iff.mpr ⟨horg, fun s hs => ?_⟩
    rcases List.mem_append.mp hs with hs | hs
    · exact hsteps s hs
    · obtain rfl := List.mem_singleton.mp hs
      exact hagent
  obtain ⟨t, hchange, hget⟩ :=
    changeDefinition_ok (fun d => d.addStep new) hd hadd (by rfl) (by rfl) (by rfl) hrefs'
  refine ⟨(), { w with db := { w.db with definitions := t } }, ?_, ⟨_, hget, hdraft, ?_, ?_, rfl⟩, hagents⟩
  · unfold addPresetStep
    rw [hlookup]
    change (liftM (WorkflowService.addStep definitionId new) >>= fun _ => pure () : Action Unit) w = _
    rw [Program.bind_apply, Program.commit_apply, WorkflowService.addStep, hchange]
    rfl
  · obtain ⟨horg', hsteps'⟩ := refsExist_definition_iff.mp hrefs'
    exact refsExist_definition_iff.mpr ⟨horg', hsteps'⟩
  · simp [new]

theorem addPresetTransition_succeeds {transition : WorkflowTransition} {steps : List (String × Bool)}
    {edges : List (String × String)} (hw : Drafted definitionId steps edges w)
    (hfrom : transition.fromStepKey ∈ steps.map Prod.fst) (hto : transition.toStepKey ∈ steps.map Prod.fst)
    (haction : (transition.fromStepKey, transition.actionName) ∉ edges) :
    Program.Succeeds (addPresetTransition definitionId transition) w fun _ w' =>
      Drafted definitionId steps (edges ++ [(transition.fromStepKey, transition.actionName)]) w' := by
  obtain ⟨d, hd, hdraft, hrefs, rfl, rfl⟩ := hw
  have hstep : ∀ key ∈ (d.steps.map fun s => (s.key, s.isInitial)).map Prod.fst, ∃ s ∈ d.steps, s.key = key := by
    intro key hkey
    rw [List.map_map] at hkey
    obtain ⟨s, hs, heq⟩ := List.mem_map.mp hkey
    exact ⟨s, hs, heq⟩
  have hadd : d.addTransition transition = .ok { d with transitions := d.transitions ++ [transition] } := by
    refine WorkflowDefinition.addTransition_ok_iff.mpr ⟨hdraft, hstep _ hfrom, hstep _ hto, fun u hu heq hact => ?_,
      rfl⟩
    exact haction (List.mem_map.mpr ⟨u, hu, Prod.ext heq hact⟩)
  obtain ⟨t, hchange, hget⟩ :=
    changeDefinition_ok (fun d => d.addTransition transition) hd hadd (by rfl) (by rfl) (by rfl) hrefs
  refine ⟨(), { w with db := { w.db with definitions := t } }, ?_, ⟨_, hget, hdraft, ?_, rfl, ?_⟩⟩
  · change (liftM (WorkflowService.addTransition definitionId transition) >>= fun _ => pure () : Action Unit) w = _
    rw [Program.bind_apply, Program.commit_apply, WorkflowService.addTransition, hchange]
    rfl
  · obtain ⟨horg, hsteps⟩ := refsExist_definition_iff.mp hrefs
    exact refsExist_definition_iff.mpr ⟨horg, hsteps⟩
  · simp

/-- With room for it, the workflow of the preset is stored with all its steps and transitions. -/
theorem presetWorkflow_succeeds {preset : WorkflowPreset} (hpreset : preset.WellFormed) {agents : PresetAgents}
    (hexist : agents.Exist w) (hfound : agents.Found (preset.agents.map Prod.fst)) {o : Organization}
    (ho : w.db.organizations.get organizationId = some o)
    (hroom : o.HasRoom PlanLimits.maxWorkflows
      (w.db.definitions.select fun d => d.organizationId = organizationId).length) :
    ∃ d, (presetWorkflow organizationId preset agents w).1 = .ok d := by
  obtain ⟨name, hread, hname, hfree⟩ := uniqueWorkflowName_ok w organizationId hpreset.name
  have hrows : WorkflowService.listForOrganization organizationId w = .ok (orderByText WorkflowDefinition.name
      (w.db.definitions.select fun d => d.organizationId = organizationId)) := rfl
  obtain ⟨d, hd⟩ : ∃ d, WorkflowDefinition.create organizationId name (some preset.description) = .ok d := by
    simpa [WorkflowDefinition.create_ok_iff] using hname
  obtain ⟨horg, hslug, hsteps⟩ := definition_create_fields hd
  rw [← length_orderByText] at hroom
  obtain ⟨⟨new, w'⟩, hcreate⟩ := (create_ok_iff ho hd horg hslug (by simp only [Stored.refs, horg, hsteps,
    List.map_nil]) hrows).mpr ⟨hfree, hroom⟩
  have hcreate' : WorkflowService.createDefinition organizationId name (some preset.description) w =
      .ok (new, w') := hcreate
  have hdrafted : Drafted new.id [] [] w' ∧ agents.Exist w' := by
    simp only [WorkflowService.createDefinition, OrganizationService.get, Work.bind_ok_iff,
      Work.lift_ok_iff, require_ok_iff, lift_work_ok_iff] at hcreate'
    obtain ⟨_, _, ⟨_, rfl⟩, _, _, ⟨_, rfl⟩, draft, _, ⟨hdraft, rfl⟩, hadd⟩ := hcreate'
    obtain ⟨hrefs, t, ht, rfl⟩ := (add_ok_iff draft new w w').mp hadd
    obtain ⟨hnew, _, _⟩ := Table.insert_eq_some ht
    obtain ⟨_, hdraft⟩ := WorkflowDefinition.create_ok_iff.mp hdraft
    refine ⟨⟨new, Table.get_inserted ht, ?_, ?_, ?_, ?_⟩, hexist⟩
    · rw [hnew, ← hdraft]
      rfl
    · have hrefs' : refsExist new w.db = true := by
        rw [hnew]
        exact hrefs
      obtain ⟨horg', hsteps'⟩ := refsExist_definition_iff.mp hrefs'
      exact refsExist_definition_iff.mpr ⟨horg', hsteps'⟩
    · rw [hnew, ← hdraft]
      rfl
    · rw [hnew, ← hdraft]
      rfl
  have hloops : Program.Succeeds (do
      preset.steps.forM (addPresetStep new.id agents)
      preset.transitions.forM (addPresetTransition new.id)
      return new : Action WorkflowDefinition) w' fun _ _ => True := by
    apply Program.succeeds_bind (Program.succeeds_forM
      (J := fun steps w => Drafted new.id (steps.map fun s => (s.key, s.isInitial)) [] w ∧ agents.Exist w)
      (fun before step after w hsplit hw => ?_) hdrafted)
    · intro _ w hw
      refine Program.succeeds_bind (Program.succeeds_forM
        (J := fun transitions w => Drafted new.id (preset.steps.map fun s => (s.key, s.isInitial))
          (transitions.map fun t => (t.fromStepKey, t.actionName)) w)
        (fun before transition after w hsplit hw => ?_) hw.1) fun _ _ _ => Program.succeeds_pure trivial
      have hmem : transition ∈ preset.transitions := by
        rw [hsplit]
        exact List.mem_append_right _ List.mem_cons_self
      obtain ⟨hfrom, hto⟩ := hpreset.ends transition hmem
      have hkeys : (preset.steps.map fun s => (s.key, s.isInitial)).map Prod.fst =
          preset.steps.map PresetStep.key := by
        rw [List.map_map]
        rfl
      have hactions := hpreset.actions
      rw [hsplit, List.map_append, List.map_cons, List.nodup_append] at hactions
      rw [List.map_append]
      refine addPresetTransition_succeeds hw (hkeys ▸ hfrom) (hkeys ▸ hto) fun hin => ?_
      exact hactions.2.2 _ hin _ List.mem_cons_self rfl
    · obtain ⟨hw, hexist⟩ := hw
      have hmem : step ∈ preset.steps := by
        rw [hsplit]
        exact List.mem_append_right _ List.mem_cons_self
      have hkeys := hpreset.keys
      rw [hsplit, List.map_append, List.map_cons, List.nodup_append] at hkeys
      have hinitial := hpreset.initial
      rw [hsplit, List.map_append, List.map_cons, List.pairwise_append] at hinitial
      rw [List.map_append]
      refine addPresetStep_succeeds hw hexist (hfound _ (hpreset.stepAgents step hmem)) (fun hin => ?_)
        fun b hb hinit => ?_
      · rw [List.map_map] at hin
        exact hkeys.2.2 _ hin _ List.mem_cons_self rfl
      · rw [List.map_map] at hb
        exact hinitial.2.2 b hb _ List.mem_cons_self hinit
  obtain ⟨d', w'', hrun, _⟩ := hloops
  refine ⟨d', ?_⟩
  unfold presetWorkflow
  rw [Program.bind_apply, Program.read_apply, hread]
  change ((liftM (WorkflowService.createDefinition organizationId name (some preset.description)) >>= fun d => _ :
    Action WorkflowDefinition) w).1 = _
  rw [Program.bind_apply, Program.commit_apply, hcreate']
  exact congrArg Prod.fst hrun

/-- Without room for it nothing has happened. -/
theorem presetWorkflow_noRoom {preset : WorkflowPreset} (hname : Text.strip preset.name ≠ "")
    (agents : PresetAgents)
    (h : ∀ o, w.db.organizations.get organizationId = some o → ¬ o.HasRoom PlanLimits.maxWorkflows
      (w.db.definitions.select fun d => d.organizationId = organizationId).length) :
    ∃ e, presetWorkflow organizationId preset agents w = (.error (.raised e), w) := by
  obtain ⟨name, hread, _, _⟩ := uniqueWorkflowName_ok w organizationId hname
  have hhandled := (handled_createDefinition_iff organizationId name (some preset.description)).mpr
    fun ⟨_, _, o, ho, hroom⟩ => h o ho hroom
  have herror : ∃ e, WorkflowService.createDefinition organizationId name (some preset.description) w =
      .error (.raised e) := by
    rcases handled_iff.mp hhandled with ⟨⟨d, w'⟩, hok⟩ | herror
    · simp only [WorkflowService.createDefinition, OrganizationService.get, Work.bind_ok_iff,
        Work.lift_ok_iff, require_ok_iff] at hok
      obtain ⟨o, _, ⟨ho, rfl⟩, _, _, ⟨hroom, rfl⟩, _⟩ := hok
      refine absurd (hasRoom_of_requireRoom hroom fun rows hrows => ?_) (h o ho)
      have heq : rows = orderByText WorkflowDefinition.name
          (w.db.definitions.select fun d => d.organizationId = organizationId) := (Except.ok.inj hrows).symm
      rw [heq, length_orderByText]
    · exact herror
  obtain ⟨e, he⟩ := herror
  refine ⟨e, ?_⟩
  unfold presetWorkflow
  rw [Program.bind_apply, Program.read_apply, hread]
  change (liftM (WorkflowService.createDefinition organizationId name (some preset.description)) >>= fun d => _ :
    Action WorkflowDefinition) w = _
  rw [Program.bind_apply, Program.commit_apply, he]

end

/-! ## Applying a preset -/

/-- The program ends well, or raises one of the application's own errors and has changed nothing. -/
def Settles {α : Type} (m : Action α) (w : World) : Prop :=
  (∃ a, (m w).1 = .ok a) ∨ ∃ e, m w = (.error (.raised e), w)

theorem onSystem_answered_iff {α : Type} {m : Action α} {s : System} :
    ((Action.onSystem ((fun _ => ()) <$> m) s).1 = .ok () ∨
      ∃ e, Action.onSystem ((fun _ => ()) <$> m) s = (.error (.raised e), s)) ↔ Settles m s.world := by
  have happly : Action.onSystem ((fun _ => ()) <$> m) s =
      ((fun _ => ()) <$> (m s.world).1, { s with world := (m s.world).2 }) := by
    unfold Action.onSystem
    rw [map_eq_pure_bind, Program.bind_apply]
    cases (m s.world).1 <;> rfl
  unfold Settles
  rw [happly]
  generalize hrun : m s.world = run
  obtain ⟨value, w'⟩ := run
  cases value with
  | ok a => exact iff_of_true (Or.inl rfl) (Or.inl ⟨a, rfl⟩)
  | error e =>
    constructor
    · rintro (h | ⟨d, hd⟩)
      · cases h
      · obtain ⟨hvalue, hstate⟩ := Prod.mk.inj hd
        obtain rfl := Except.error.inj hvalue
        exact Or.inr ⟨d, congrArg (Prod.mk _) (congrArg System.world hstate)⟩
    · rintro (⟨a, h⟩ | ⟨d, hd⟩)
      · cases h
      · obtain ⟨hvalue, rfl⟩ := Prod.mk.inj hd
        obtain rfl := Except.error.inj hvalue
        exact Or.inr ⟨d, rfl⟩

theorem ensureAgents_none (w : World) (organizationId : Nat) {agents : List (String × String)}
    {found : PresetAgents} (hmissing : missing found.known agents = []) :
    ∃ found', agents.foldlM (ensureAgent organizationId) found w = (.ok found', w) := by
  induction agents generalizing found with
  | nil => exact ⟨found, rfl⟩
  | cons agent agents ih =>
    rw [List.foldlM_cons, Program.bind_apply]
    cases hlookup : found.known.lookup agent.1 with
    | some id =>
      rw [missing_known hlookup] at hmissing
      rw [ensureAgent_known hlookup]
      exact ih hmissing
    | none =>
      have hmem : agent ∈ missing found.known (agent :: agents) :=
        List.mem_filter.mpr ⟨List.mem_cons_self, by simp [hlookup]⟩
      rw [hmissing] at hmem
      cases hmem

/-- The agents of the organization, by name. -/
def knownAgents (w : World) (organizationId : Nat) : List (String × Nat) :=
  (orderByText Agent.name (w.db.agents.select fun a => a.organizationId = organizationId)).map
    fun agent => (agent.name, agent.id)

theorem missing_knownAgents (preset : WorkflowPreset) (w : World) (organizationId : Nat) :
    missing (knownAgents w organizationId) preset.agents = preset.missingAgents w organizationId := by
  unfold missing WorkflowPreset.missingAgents
  apply List.filter_congr
  intro agent _
  rw [← Bool.coe_iff_coe, Option.isNone_iff_eq_none, List.lookup_eq_none_iff]
  simp only [knownAgents, Bool.not_eq_true', List.any_eq_false, decide_eq_true_eq]
  constructor
  · intro h a ha hname
    have hmem : (a.name, a.id) ∈ knownAgents w organizationId :=
      List.mem_map.mpr ⟨a, mem_orderByText.mpr ha, rfl⟩
    have hne := h (a.name, a.id) hmem
    rw [hname, bne_self_eq_false] at hne
    cases hne
  · rintro h p hp
    obtain ⟨a, ha, rfl⟩ := List.mem_map.mp hp
    have hne := h a (mem_orderByText.mp ha)
    exact bne_iff_ne.mpr (Ne.symm hne)

theorem createWorkflowFromPreset_apply (organizationId : Nat) (preset : WorkflowPreset) (w : World) :
    createWorkflowFromPreset organizationId preset w =
      (preset.agents.foldlM (ensureAgent organizationId) ⟨knownAgents w organizationId, []⟩ >>=
        presetWorkflow organizationId preset : Action WorkflowDefinition) w := by
  unfold createWorkflowFromPreset
  rw [Program.bind_apply, Program.read_apply]
  rfl

/-- A preset is applied or refused as a whole, except where it clashes. -/
theorem settles_preset_iff {preset : WorkflowPreset} (hpreset : preset.WellFormed) (w : World)
    (organizationId : Nat) : Settles (createWorkflowFromPreset organizationId preset) w ↔
      ¬ PresetClashes w organizationId preset := by
  have hmissing := missing_knownAgents preset w organizationId
  unfold Settles PresetClashes
  rw [createWorkflowFromPreset_apply, Program.bind_apply, ← hmissing]
  generalize hfound : (⟨knownAgents w organizationId, []⟩ : PresetAgents) = found
  have hknown : knownAgents w organizationId = found.known := by rw [← hfound]
  rw [hknown]
  have hexist : found.Exist w := by
    rintro p (hp | hp)
    · rw [← hknown] at hp
      obtain ⟨a, ha, rfl⟩ := List.mem_map.mp hp
      have hmem := (Table.mem_select_iff.mp (mem_orderByText.mp ha)).1
      exact Option.isSome_of_eq_some (Table.get_eq_some_iff.mpr ⟨hmem, rfl⟩)
    · rw [← hfound] at hp
      cases hp
  by_cases hnone : missing found.known preset.agents = []
  · refine iff_of_true ?_ fun ⟨_, _, hsome, _⟩ => hsome hnone
    obtain ⟨found', hrun⟩ := ensureAgents_none w organizationId hnone
    rw [hrun]
    by_cases hroom : ∃ o, w.db.organizations.get organizationId = some o ∧
        o.HasRoom PlanLimits.maxWorkflows
          (w.db.definitions.select fun d => d.organizationId = organizationId).length
    · obtain ⟨o, ho, hroom⟩ := hroom
      have hok : (preset.agents.foldlM (ensureAgent organizationId) found w).1 = .ok found' := by rw [hrun]
      obtain ⟨hexist', hfound'⟩ := ensureAgents_found [] hexist (fun _ h => (by cases h)) hok
      rw [hrun] at hexist'
      exact Or.inl (presetWorkflow_succeeds hpreset hexist' hfound' ho hroom)
    · exact Or.inr (presetWorkflow_noRoom hpreset.name found' fun o ho hr => hroom ⟨o, ho, hr⟩)
  by_cases hnoRoom : NoRoom w organizationId
  · refine iff_of_true ?_ fun ⟨o, ho, _, hr, _⟩ => hnoRoom o ho hr
    obtain ⟨e, he⟩ := ensureAgents_noRoom hnoRoom hnone
    rw [he]
    exact Or.inr ⟨e, rfl⟩
  obtain ⟨o, ho, hroom⟩ : ∃ o, w.db.organizations.get organizationId = some o ∧
      o.HasRoom PlanLimits.maxAgents
        (w.db.agents.select fun a => a.organizationId = organizationId).length := by
    unfold NoRoom at hnoRoom
    push Not at hnoRoom
    exact hnoRoom
  have hcreated := ensureAgents_iff ho hpreset.agentNames hpreset.agentSlugs found
  have hchanged := ensureAgents_room ho hroom hpreset.agentNames hnone
  have hfound' : ∀ found', (preset.agents.foldlM (ensureAgent organizationId) found w).1 = .ok found' →
      found'.Exist (preset.agents.foldlM (ensureAgent organizationId) found w).2 ∧
        found'.Found ([] ++ preset.agents.map Prod.fst) :=
    fun found' => ensureAgents_found [] hexist fun _ h => (by cases h)
  have hsame := ensureAgents_same organizationId preset.agents found w
  generalize preset.agents.foldlM (ensureAgent organizationId) found w = run at *
  obtain ⟨result, w'⟩ := run
  obtain ⟨horgs, hdefs⟩ : w'.db.organizations = w.db.organizations ∧ w'.db.definitions = w.db.definitions := hsame
  have hne : (w'.db.agents.get w.db.agents.next).isSome = true → w' ≠ w := by
    rintro hthere rfl
    rw [Table.get_next] at hthere
    cases hthere
  cases result with
  | error e =>
    refine iff_of_false ?_ (not_not.mpr ⟨o, ho, hnone, hroom, ?_⟩)
    · rintro (⟨_, h⟩ | ⟨d, hd⟩)
      · cases h
      · obtain ⟨hvalue, hstate⟩ := Prod.mk.inj hd
        rcases hchanged with ⟨e', hcrash, he'⟩ | hthere
        · obtain rfl := Except.error.inj he'
          exact hcrash ⟨d, Except.error.inj hvalue⟩
        · exact hne hthere hstate
    · by_contra hall
      push Not at hall
      obtain ⟨hfree, hcap, _⟩ := hall
      obtain ⟨_, h⟩ := hcreated.mpr ⟨hfree, fun _ => hcap⟩
      cases h
  | ok found' =>
    obtain ⟨hfree, hcap⟩ := hcreated.mp ⟨found', rfl⟩
    have hthere := hchanged.resolve_left fun ⟨_, _, h⟩ => (by cases h)
    obtain ⟨hexist', hnames⟩ := hfound' found' rfl
    by_cases hroomW : o.HasRoom PlanLimits.maxWorkflows
        (w.db.definitions.select fun d => d.organizationId = organizationId).length
    · refine iff_of_true (Or.inl ?_) ?_
      · rw [← horgs] at ho
        rw [← hdefs] at hroomW
        exact presetWorkflow_succeeds hpreset hexist' hnames ho hroomW
      · rintro ⟨o', ho', _, _, ⟨agent, hagent, htaken⟩ | ⟨m, hm, hlt⟩ | hnoRoomW⟩
        · exact hfree agent hagent htaken
        · obtain rfl := Option.some.inj (ho.symm.trans ho')
          have hle := hcap hnone m hm
          omega
        · obtain rfl := Option.some.inj (ho.symm.trans ho')
          exact hnoRoomW hroomW
    · refine iff_of_false ?_ (not_not.mpr ⟨o, ho, hnone, hroom, Or.inr (Or.inr hroomW)⟩)
      obtain ⟨e, he⟩ : ∃ e, presetWorkflow organizationId preset found' w' = (.error (.raised e), w') := by
        refine presetWorkflow_noRoom hpreset.name found' fun o' ho' hr => hroomW ?_
        rw [horgs] at ho'
        obtain rfl := Option.some.inj (ho.symm.trans ho')
        rw [hdefs] at hr
        exact hr
      rintro (⟨_, h⟩ | ⟨d, hd⟩)
      · change (presetWorkflow organizationId preset found' w').1 = _ at h
        rw [he] at h
        cases h
      · change presetWorkflow organizationId preset found' w' = _ at hd
        rw [he] at hd
        exact hne hthere (Prod.mk.inj hd).2

/-! ## Every call that stores a name -/

/-- In every state that is reached, a call that stores a name ends well, or with one of the
application's own errors and nothing changed, exactly when it does not clash. -/
theorem naming_answered_iff (files : Bucket → String → Option Bytes) (changes : List Change) (env : Env)
    (call : Naming) :
    let s := System.after files changes
    Answered s ⟨env, call.operation⟩ ↔ ¬ call.Clashes s.world := by
  intro s
  have h : Sound s.world := sound_after files changes
  cases call with
  | createDefinition organizationId name description =>
    exact unit_answered_iff.trans (handled_createDefinition_iff organizationId name description)
  | updateDetails definitionId name description =>
    exact iff_of_true (unit_answered_iff.mpr (handled_updateDetails h definitionId name description)) id
  | duplicateDefinition definitionId =>
    exact iff_of_true (unit_answered_iff.mpr (handled_duplicateDefinition h definitionId)) id
  | createRole organizationId name description agentId =>
    exact unit_answered_iff.trans (handled_createRole_iff organizationId name description agentId)
  | updateRole roleId name description agentId =>
    exact unit_answered_iff.trans (handled_updateRole_iff h roleId name description agentId)
  | renameRole roleId newName =>
    exact unit_answered_iff.trans (handled_renameRole_iff h roleId newName)
  | createAgent organizationId name description =>
    exact unit_answered_iff.trans (handled_createAgent_iff organizationId name description)
  | renameAgent agentId newName =>
    exact unit_answered_iff.trans (handled_renameAgent_iff h agentId newName)
  | updateAgent agentId name description =>
    exact unit_answered_iff.trans (handled_updateAgent_iff h agentId name description)
  | applyPreset organizationId preset =>
    exact onSystem_answered_iff.trans (settles_preset_iff (wellFormed_of_mem preset.2) s.world organizationId)

/-- An organization with two agents and two roles. -/
def acmeStaffed : System :=
  System.after (fun _ _ => none) [
    .call ⟨.offline 1 "", .createOrganization "Acme"⟩, .call ⟨.offline 2 "", .createAgent 1 "Legal" none⟩,
    .call ⟨.offline 3 "", .createAgent 1 "author" none⟩, .call ⟨.offline 4 "", .createRole 1 "Editor" none none⟩,
    .call ⟨.offline 5 "", .createRole 1 "Viewer" none none⟩]

/-- A second agent with the same slug, a role renamed to another's slug, and a preset that brings an
agent with the slug of another, are refused by the database alone. -/
theorem not_naming_answered :
    ¬ Answered acmeStaffed ⟨.offline 6 "", .createAgent 1 "legal!" none⟩ ∧
    ¬ Answered acmeStaffed ⟨.offline 6 "", .renameRole 2 "Editor"⟩ ∧
    ¬ Answered acmeStaffed ⟨.offline 6 "", .createWorkflowFromPreset 1 .simpleApproval⟩ := by
  refine ⟨not_answered_of_crash (c := .integrityError) ?_, not_answered_of_crash (c := .integrityError) ?_,
    not_answered_of_crash (c := .integrityError) ?_⟩
  · decide +kernel
  · decide +kernel
  · decide +kernel

end Orchestract
