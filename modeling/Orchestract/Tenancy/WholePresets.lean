import Orchestract.Tenancy.PresetAgents
import Orchestract.Workflow.Copies

/-!
# Presets as a whole

A preset is applied in many units of work. When a refusal among them leaves the organization as it
was, and when what is built is the preset.
-/

namespace Orchestract

set_option autoImplicit false

variable {w : World} {organizationId definitionId : Nat}

/-! ## The name of the workflow -/

theorem strip_numbered (base : String) (n : Nat) : Text.strip s!"{base} {n}" ≠ "" := by
  intro hempty
  have hspace := Text.strip_eq_empty_iff.mp hempty
  have hlist : (toString n).toList = Nat.toDigits 10 n := Nat.toList_repr
  obtain ⟨c, hc⟩ := List.exists_mem_of_ne_nil (Nat.toDigits 10 n) Nat.toDigits_ne_nil
  have hdigit : c.isDigit = true := Nat.isDigit_of_mem_toDigits (by decide) (by decide) hc
  have hmem : c ∈ (s!"{base} {n}").toList := by
    rw [String.toList_append]
    exact List.mem_append_right _ (hlist ▸ hc)
  have hnot := Text.not_isSpace_of_isDigit hdigit
  rw [hspace c hmem] at hnot
  cases hnot

/-- The name under which the workflow is stored: blank only when the preset's name is blank and no
workflow has its slug. -/
theorem uniqueWorkflowName_spec (w : World) (organizationId : Nat) (baseName : String) :
    ∃ name, uniqueWorkflowName organizationId baseName w = .ok name ∧
      ¬ NameTaken WorkflowDefinition w organizationId name ∧
      (Text.strip name ≠ "" ↔
        Text.strip baseName ≠ "" ∨ NameTaken WorkflowDefinition w organizationId baseName) := by
  obtain ⟨workflows, name, hlist, hname, hfinds⟩ := uniqueWorkflowName_finds w organizationId baseName
  obtain rfl := Except.ok.inj hlist
  have hfree : ¬ NameTaken WorkflowDefinition w organizationId name :=
    fun htaken => hfinds.firstName.1 (mem_workflowSlugs_iff.mpr htaken)
  refine ⟨name, hname, hfree, ?_⟩
  cases hfinds with
  | bare => exact ⟨Or.inl, fun h => h.resolve_right hfree⟩
  | @numbered suffix htaken =>
    exact iff_of_true (strip_numbered baseName suffix) (Or.inr (mem_workflowSlugs_iff.mp htaken))

/-- The workflow of a preset can be created. -/
def CanCreateWorkflow (w : World) (organizationId : Nat) (name : String) : Prop :=
  ∃ o, w.db.organizations.get organizationId = some o ∧
    o.HasRoom PlanLimits.maxWorkflows
      (w.db.definitions.select fun d => d.organizationId = organizationId).length ∧
    (Text.strip name ≠ "" ∨ NameTaken WorkflowDefinition w organizationId name)

theorem createDefinition_iff {name : String} {description : Option String} :
    (∃ p, WorkflowService.createDefinition organizationId name description w = .ok p) ↔
      ∃ o, w.db.organizations.get organizationId = some o ∧
        o.HasRoom PlanLimits.maxWorkflows
          (w.db.definitions.select fun d => d.organizationId = organizationId).length ∧
        Text.strip name ≠ "" ∧ ¬ NameTaken WorkflowDefinition w organizationId name := by
  have hrows : WorkflowService.listForOrganization organizationId w = .ok
      (orderByText WorkflowDefinition.name
        (w.db.definitions.select fun d => d.organizationId = organizationId)) := rfl
  have hparts : ∀ d, WorkflowDefinition.create organizationId name description = .ok d →
      ∀ o, w.db.organizations.get organizationId = some o →
      ((∃ p, WorkflowService.createDefinition organizationId name description w = .ok p) ↔
        ¬ NameTaken WorkflowDefinition w organizationId name ∧
          o.HasRoom PlanLimits.maxWorkflows
            (w.db.definitions.select fun d => d.organizationId = organizationId).length) := by
    intro d hd o ho
    obtain ⟨horg, hslug, hsteps⟩ := definition_create_fields hd
    rw [← length_orderByText]
    exact create_ok_iff ho hd horg hslug
      (by simp only [Stored.refs, horg, hsteps, List.map_nil]) hrows
  constructor
  · intro hcreated
    obtain ⟨⟨created, w'⟩, h⟩ := hcreated
    have hsplit := h
    simp only [WorkflowService.createDefinition, OrganizationService.get, Work.bind_ok_iff,
      Work.lift_ok_iff, require_ok_iff, lift_work_ok_iff] at hsplit
    obtain ⟨o, _, ⟨ho, rfl⟩, _, _, _, d, _, ⟨hd, rfl⟩, _⟩ := hsplit
    obtain ⟨hfree, hroom⟩ := (hparts d hd o ho).mp ⟨_, h⟩
    exact ⟨o, ho, hroom, (WorkflowDefinition.create_ok_iff.mp hd).1, hfree⟩
  · intro hpossible
    obtain ⟨o, ho, hroom, hname, hfree⟩ := hpossible
    exact (hparts _ (WorkflowDefinition.create_ok_iff.mpr ⟨hname, rfl⟩) o ho).mpr ⟨hfree, hroom⟩

/-- A new workflow is one more row: an empty draft of its organization. -/
theorem createDefinition_ok {name : String} {description : Option String} {d : WorkflowDefinition}
    {w' : World} (h : WorkflowService.createDefinition organizationId name description w = .ok (d, w')) :
    ∃ draft t, w.db.definitions.insert draft = some (d, t) ∧
      w' = { w with db := { w.db with definitions := t } } ∧ refsExist d w'.db = true ∧
      d.organizationId = organizationId ∧ d.status = .draft ∧ d.steps = [] ∧ d.transitions = [] := by
  simp only [WorkflowService.createDefinition, OrganizationService.get, Work.bind_ok_iff,
    Work.lift_ok_iff, require_ok_iff, lift_work_ok_iff] at h
  obtain ⟨_, _, ⟨_, rfl⟩, _, _, ⟨_, rfl⟩, draft, _, ⟨hdraft, rfl⟩, hadd⟩ := h
  obtain ⟨hrefs, t, ht, rfl⟩ := (add_ok_iff draft d _ w').mp hadd
  obtain ⟨hnew, _, _⟩ := Table.insert_eq_some ht
  obtain ⟨_, hdraft⟩ := WorkflowDefinition.create_ok_iff.mp hdraft
  have hrow : d = { draft with id := d.id } := by
    rw [hnew]
    rfl
  refine ⟨draft, t, ht, rfl, ?_, ?_⟩
  · obtain ⟨horg, hsteps⟩ := refsExist_definition_iff.mp hrefs
    rw [hrow]
    exact refsExist_definition_iff.mpr ⟨horg, hsteps⟩
  · rw [hrow, ← hdraft]
    exact ⟨rfl, rfl, rfl, rfl⟩

/-! ## The steps and the transitions -/

/-- A committed change of the workflow's graph, and its refusal. -/
theorem change_error {method : WorkflowDefinition → Except DomainError WorkflowDefinition}
    {d : WorkflowDefinition} {e : DomainError} (hd : w.db.definitions.get definitionId = some d)
    (h : method d = .error e) :
    change "workflow definition" definitionId method w = .error (.raised e) := by
  unfold change
  have hrow : (liftM (require "workflow definition" definitionId : Query WorkflowDefinition) :
      UnitOfWork WorkflowDefinition) w = .ok (d, w) :=
    (Work.lift_ok_iff _ w w d).mpr ⟨(require_ok_iff _ _ w d).mpr hd, rfl⟩
  rw [Work.bind_apply, hrow]
  have hmethod : (liftM (method d) : UnitOfWork WorkflowDefinition) w = .error (.raised e) := by
    rw [h]
    rfl
  change (liftM (method d) >>= fun row => _ : UnitOfWork WorkflowDefinition) w = _
  rw [Work.bind_apply, hmethod]

/-- What a method that only adds to the graph keeps, where the agents are those of `w`. -/
def KeepsRow (w : World) (method : WorkflowDefinition → Except DomainError WorkflowDefinition) : Prop :=
  ∀ d d', method d = .ok d' → d'.id = d.id ∧ d'.organizationId = d.organizationId ∧ d'.slug = d.slug ∧
    (refsExist d w.db = true → refsExist d' w.db = true)

theorem refsExist_definitions (d : WorkflowDefinition) (t : Table WorkflowDefinition) :
    refsExist d { w.db with definitions := t } = refsExist d w.db := by
  rw [Bool.eq_iff_iff, refsExist_definition_iff, refsExist_definition_iff]

/-- A loop of committed changes goes as far as the methods themselves go. -/
theorem changes_run {β : Type} (f : β → Action Unit)
    (method : β → WorkflowDefinition → Except DomainError WorkflowDefinition) {xs : List β}
    (hf : ∀ x ∈ xs, f x =
      (liftM (change "workflow definition" definitionId (method x)) >>= fun _ => pure () : Action Unit))
    (hkeeps : ∀ x ∈ xs, KeepsRow w (method x)) {d : WorkflowDefinition}
    (hd : w.db.definitions.get definitionId = some d) (hrefs : refsExist d w.db = true) :
    (∀ d', xs.foldlM (fun d x => method x d) d = .ok d' →
      ∃ t, xs.forM f w = (.ok (), { w with db := { w.db with definitions := t } }) ∧
        t.get definitionId = some d' ∧ refsExist d' w.db = true) ∧
    ∀ e, xs.foldlM (fun d x => method x d) d = .error e → ∃ w', xs.forM f w = (.error (.raised e), w') := by
  induction xs generalizing w d with
  | nil =>
    refine ⟨fun d' h => ?_, nofun⟩
    obtain rfl := Except.ok.inj h
    exact ⟨w.db.definitions, rfl, hd, hrefs⟩
  | cons x xs ih =>
    have hrun : (x :: xs).forM f w =
        ((liftM (change "workflow definition" definitionId (method x)) >>= fun _ => pure () : Action Unit) >>=
          fun _ => xs.forM f) w := by
      rw [← hf x List.mem_cons_self]
      rfl
    rw [hrun, List.foldlM_cons]
    rcases ok_or_error (method x d) with ⟨d₁, hok⟩ | ⟨e₁, herror⟩
    · obtain ⟨hid, horg, hslug, hkept⟩ := hkeeps x List.mem_cons_self d d₁ hok
      obtain ⟨t, hchange, hget⟩ := changeDefinition_ok (method x) hd hok hid horg hslug (hkept hrefs)
      have hrest := ih (w := { w with db := { w.db with definitions := t } })
        (fun y hy => hf y (List.mem_cons_of_mem x hy))
        (fun y hy e e' he => by
          obtain ⟨h₁, h₂, h₃, h₄⟩ := hkeeps y (List.mem_cons_of_mem x hy) e e' he
          refine ⟨h₁, h₂, h₃, fun hr => ?_⟩
          rw [refsExist_definitions] at hr ⊢
          exact h₄ hr)
        hget (by rw [refsExist_definitions]; exact hkept hrefs)
      rw [hok, Program.bind_apply, Program.bind_apply, Program.commit_apply, hchange]
      obtain ⟨hgood, hbad⟩ := hrest
      refine ⟨fun d' h => ?_, hbad⟩
      obtain ⟨t', hrun', hget', hrefs'⟩ := hgood d' h
      exact ⟨t', hrun', hget', by rwa [refsExist_definitions] at hrefs'⟩
    · rw [herror, Program.bind_apply, Program.bind_apply, Program.commit_apply, change_error hd herror]
      refine ⟨nofun, fun e h => ?_⟩
      obtain rfl := Except.error.inj h
      exact ⟨w, rfl⟩

/-- The step that a step of a preset becomes. -/
def PresetStep.wired (ids : List (String × Nat)) (step : PresetStep) : WorkflowStep :=
  ⟨step.key, step.name, some step.description, (ids.lookup step.agent).getD 0, step.isInitial,
    step.isTerminal⟩

/-- The graph of a preset with these agents. -/
def WorkflowPreset.graph (preset : WorkflowPreset) (ids : List (String × Nat)) : WorkflowDefinition :=
  ⟨0, 0, "", "", none, .draft, preset.steps.map (PresetStep.wired ids), preset.transitions⟩

variable {preset : WorkflowPreset} {agents : PresetAgents}

/-- The guards do not look at the agents. -/
theorem graph_wellFormed (ids ids' : List (String × Nat)) (h : (preset.graph ids).WellFormed) :
    (preset.graph ids').WellFormed := by
  obtain ⟨hkeys, hone, hends, hactions⟩ := h
  simp only [WorkflowPreset.graph, List.map_map, List.filter_map, List.length_map, List.mem_map,
    exists_exists_and_eq_and] at hkeys hone hends
  refine ⟨?_, ?_, ?_, hactions⟩
  · simp only [WorkflowPreset.graph, List.map_map]
    exact hkeys
  · simp only [WorkflowPreset.graph, List.filter_map, List.length_map]
    exact hone
  · simp only [WorkflowPreset.graph, List.mem_map, exists_exists_and_eq_and]
    exact hends

theorem addPresetStep_eq {step : PresetStep} (h : (agents.ids.lookup step.agent).isSome = true) :
    addPresetStep definitionId agents step =
      (liftM (change "workflow definition" definitionId
        fun d : WorkflowDefinition => d.addStep (step.wired agents.ids)) >>= fun _ => pure () :
        Action Unit) := by
  obtain ⟨agentId, hlookup⟩ := Option.isSome_iff_exists.mp h
  unfold addPresetStep PresetStep.wired
  rw [hlookup]
  rfl

/-- A loop that ends well has found every agent. -/
theorem addPresetSteps_found {steps : List PresetStep} {u : Unit}
    (h : (steps.forM (addPresetStep definitionId agents) w).1 = .ok u) :
    ∀ step ∈ steps, (agents.ids.lookup step.agent).isSome = true := by
  induction steps generalizing w with
  | nil => simp
  | cons step steps ih =>
    have hrun : ((addPresetStep definitionId agents step >>=
        fun _ => steps.forM (addPresetStep definitionId agents) : Action Unit) w).1 = .ok u := h
    cases hlookup : agents.ids.lookup step.agent with
    | none =>
      unfold addPresetStep at hrun
      rw [hlookup] at hrun
      cases hrun
    | some agentId =>
      rw [Program.bind_apply] at hrun
      intro other hother
      rcases List.mem_cons.mp hother with rfl | hother
      · exact Option.isSome_of_eq_some hlookup
      · cases hstep : (addPresetStep definitionId agents step w).1 with
        | ok v =>
          rw [hstep] at hrun
          exact ih hrun other hother
        | error e =>
          rw [hstep] at hrun
          cases hrun

theorem keepsRow_addStep {step : WorkflowStep} (h : (w.db.agents.get step.agentId).isSome = true) :
    KeepsRow w fun d => d.addStep step := by
  intro d d' hadd
  obtain ⟨_, _, _, rfl⟩ := WorkflowDefinition.addStep_ok_iff.mp hadd
  refine ⟨rfl, rfl, rfl, fun hrefs => ?_⟩
  obtain ⟨horg, hsteps⟩ := refsExist_definition_iff.mp hrefs
  refine refsExist_definition_iff.mpr ⟨horg, fun s hs => ?_⟩
  rcases List.mem_append.mp hs with hs | hs
  · exact hsteps s hs
  · rw [List.mem_singleton.mp hs]
    exact h

theorem keepsRow_addTransition (t : WorkflowTransition) : KeepsRow w fun d => d.addTransition t := by
  intro d d' hadd
  obtain ⟨_, _, _, _, rfl⟩ := WorkflowDefinition.addTransition_ok_iff.mp hadd
  exact ⟨rfl, rfl, rfl, id⟩

/-- With every agent found, the loops do to the stored draft what the guarded methods do, one unit of
work a step. -/
theorem presetLoops_replay {d : WorkflowDefinition} (hd : w.db.definitions.get definitionId = some d)
    (hrefs : refsExist d w.db = true) (hexist : agents.Exist w)
    (hfound : ∀ step ∈ preset.steps, (agents.ids.lookup step.agent).isSome = true) :
    let run := (preset.steps.forM (addPresetStep definitionId agents) >>= fun _ =>
      preset.transitions.forM (addPresetTransition definitionId) : Action Unit) w
    (∀ d', WorkflowService.replay (preset.graph agents.ids) d = .ok d' →
      ∃ t, run = (.ok (), { w with db := { w.db with definitions := t } }) ∧ t.get definitionId = some d') ∧
    ∀ e, WorkflowService.replay (preset.graph agents.ids) d = .error e →
      ∃ w', run = (.error (.raised e), w') := by
  intro run
  have hagent : ∀ step ∈ preset.steps, (w.db.agents.get (step.wired agents.ids).agentId).isSome = true := by
    intro step hstep
    obtain ⟨agentId, hlookup⟩ := Option.isSome_iff_exists.mp (hfound step hstep)
    have hget := hexist (step.agent, agentId) (Or.inr (mem_of_lookup hlookup))
    simpa [PresetStep.wired, hlookup] using hget
  obtain ⟨hstepsOk, hstepsError⟩ := changes_run (addPresetStep definitionId agents)
    (fun step d => d.addStep (step.wired agents.ids))
    (fun step hstep => addPresetStep_eq (hfound step hstep))
    (fun step hstep => keepsRow_addStep (hagent step hstep)) hd hrefs
  have hfold : preset.steps.foldlM (fun d step => d.addStep (step.wired agents.ids)) d =
      (preset.graph agents.ids).steps.foldlM (fun d step => d.addStep step) d :=
    List.foldlM_map.symm
  have hrun : run = (preset.steps.forM (addPresetStep definitionId agents) >>= fun _ =>
      preset.transitions.forM (addPresetTransition definitionId) : Action Unit) w := rfl
  rw [hfold] at hstepsOk hstepsError
  rw [hrun, Program.bind_apply]
  unfold WorkflowService.replay
  rcases ok_or_error ((preset.graph agents.ids).steps.foldlM (fun d step => d.addStep step) d) with
    ⟨filled, hfilled⟩ | ⟨e, herror⟩
  · obtain ⟨t, hrunSteps, hget, hrefs'⟩ := hstepsOk filled hfilled
    obtain ⟨htransitionsOk, htransitionsError⟩ := changes_run
      (w := { w with db := { w.db with definitions := t } }) (addPresetTransition definitionId)
      (fun transition d => d.addTransition transition) (fun _ _ => rfl)
      (fun transition _ => keepsRow_addTransition transition) hget
      (by rw [refsExist_definitions]; exact hrefs')
    rw [hrunSteps, hfilled]
    refine ⟨fun d' hd' => ?_, htransitionsError⟩
    obtain ⟨t', hrun', hget', _⟩ := htransitionsOk d' hd'
    exact ⟨t', hrun', hget'⟩
  · obtain ⟨w', hrunSteps⟩ := hstepsError e herror
    rw [hrunSteps, herror]
    refine ⟨nofun, fun e' he' => ?_⟩
    obtain rfl := Except.error.inj he'
    exact ⟨w', rfl⟩

/-- Loops that end well have found every agent. -/
theorem presetLoops_found {u : Unit} (h : ((preset.steps.forM (addPresetStep definitionId agents) >>= fun _ =>
      preset.transitions.forM (addPresetTransition definitionId) : Action Unit) w).1 = .ok u) :
    ∀ step ∈ preset.steps, (agents.ids.lookup step.agent).isSome = true := by
  obtain ⟨_, hsteps, _⟩ := Program.bind_ok_iff.mp h
  exact addPresetSteps_found hsteps

/-- Both loops over an empty draft end well if and only if the agents are found and the graph passes
the guards; the graph is then that of the preset. -/
theorem presetLoops_iff {d : WorkflowDefinition} (hd : w.db.definitions.get definitionId = some d)
    (hrefs : refsExist d w.db = true) (hdraft : d.status = .draft) (hs : d.steps = [])
    (ht : d.transitions = []) (hexist : agents.Exist w) :
    let run := (preset.steps.forM (addPresetStep definitionId agents) >>= fun _ =>
      preset.transitions.forM (addPresetTransition definitionId) : Action Unit) w
    (run.1 = .ok () ↔ (∀ step ∈ preset.steps, (agents.ids.lookup step.agent).isSome = true) ∧
      (preset.graph []).WellFormed) ∧
    (run.1 = .ok () → ∃ t, run.2 = { w with db := { w.db with definitions := t } } ∧
      t.get definitionId = some { d with
        steps := preset.steps.map (PresetStep.wired agents.ids), transitions := preset.transitions }) := by
  intro run
  by_cases hfound : ∀ step ∈ preset.steps, (agents.ids.lookup step.agent).isSome = true
  · obtain ⟨hgood, hbad⟩ := presetLoops_replay hd hrefs hexist hfound
    rcases ok_or_error (WorkflowService.replay (preset.graph agents.ids) d) with ⟨d', hreplay⟩ | ⟨e, hreplay⟩
    · have hwf := WorkflowDefinition.wellFormed_of_replay hs ht hreplay
      obtain ⟨t, hrun, hget⟩ := hgood d' hreplay
      obtain rfl := Except.ok.inj (hreplay.symm.trans (hwf.replay hdraft hs ht))
      have hrun' : run = _ := hrun
      rw [hrun']
      exact ⟨iff_of_true rfl ⟨hfound, graph_wellFormed _ _ hwf⟩, fun _ => ⟨t, rfl, hget⟩⟩
    · obtain ⟨w', hrun⟩ := hbad e hreplay
      have hrun' : run = _ := hrun
      rw [hrun']
      refine ⟨iff_of_false nofun fun h => ?_, nofun⟩
      cases hreplay.symm.trans ((graph_wellFormed _ agents.ids h.2).replay hdraft hs ht)
  · have hnot : run.1 ≠ .ok () := fun hok => hfound (presetLoops_found hok)
    exact ⟨iff_of_false hnot fun h => hfound h.1, fun h => absurd h hnot⟩

/-! ## The workflow -/

theorem programWithin_presetLoops (definitionId : Nat) (preset : WorkflowPreset) (agents : PresetAgents) :
    ProgramWithin [.agents, .definitions]
      (preset.steps.forM (addPresetStep definitionId agents) >>= fun _ =>
        preset.transitions.forM (addPresetTransition definitionId)) := by
  intro I hI
  apply Program.keeps_bind (Program.keeps_forM
    fun step _ => programWithin_addPresetStep definitionId agents step I hI)
  intro _
  exact Program.keeps_forM
    fun transition _ => programWithin_addPresetTransition definitionId transition I hI

theorem programWithin_presetWorkflow (organizationId : Nat) (preset : WorkflowPreset)
    (agents : PresetAgents) :
    ProgramWithin [.agents, .definitions] (presetWorkflow organizationId preset agents) := by
  intro I hI
  apply Program.keeps_after_read
  intro name
  apply Program.keeps_bind (programWithin_unit (within_createDefinition organizationId name _ (by decide)) I hI)
  intro definition
  apply Program.keeps_bind (Program.keeps_forM
    fun step _ => programWithin_addPresetStep definition.id agents step I hI)
  intro _
  apply Program.keeps_bind (Program.keeps_forM
    fun transition _ => programWithin_addPresetTransition definition.id transition I hI)
  exact fun _ => Program.keeps_pure _

theorem presetWorkflow_refused (h : ¬ CanCreateWorkflow w organizationId preset.name) :
    ∃ e, presetWorkflow organizationId preset agents w = (.error e, w) := by
  obtain ⟨name, hread, hfree, hblank⟩ := uniqueWorkflowName_spec w organizationId preset.name
  rcases ok_or_error (WorkflowService.createDefinition organizationId name (some preset.description) w) with
    ⟨p, hok⟩ | ⟨e, herror⟩
  · obtain ⟨o, ho, hroom, hname, _⟩ := createDefinition_iff.mp ⟨p, hok⟩
    exact absurd ⟨o, ho, hroom, hblank.mp hname⟩ h
  · refine ⟨e, ?_⟩
    unfold presetWorkflow
    rw [Program.bind_apply, Program.read_apply, hread]
    change (liftM (WorkflowService.createDefinition organizationId name (some preset.description)) >>=
      fun d => _ : Action WorkflowDefinition) w = _
    rw [Program.bind_apply, Program.commit_apply, herror]

/-- Where the workflow can be created, the loops run on the draft that is stored. -/
theorem presetWorkflow_loops (agents : PresetAgents) (h : CanCreateWorkflow w organizationId preset.name) :
    ∃ name new w₁, WorkflowService.createDefinition organizationId name (some preset.description) w =
        .ok (new, w₁) ∧
      presetWorkflow organizationId preset agents w =
        ((preset.steps.forM (addPresetStep new.id agents) >>= fun _ =>
          preset.transitions.forM (addPresetTransition new.id)) >>= fun _ => pure new :
          Action WorkflowDefinition) w₁ := by
  obtain ⟨name, hread, hfree, hblank⟩ := uniqueWorkflowName_spec w organizationId preset.name
  obtain ⟨o, ho, hroom, hname⟩ := h
  have hcan : ∃ p, WorkflowService.createDefinition organizationId name (some preset.description) w =
      .ok p := createDefinition_iff.mpr ⟨o, ho, hroom, hblank.mpr hname, hfree⟩
  obtain ⟨⟨new, w₁⟩, hcreate⟩ := hcan
  refine ⟨name, new, w₁, hcreate, ?_⟩
  unfold presetWorkflow
  rw [Program.bind_apply, Program.read_apply, hread]
  change (liftM (WorkflowService.createDefinition organizationId name (some preset.description)) >>=
    fun d => _ : Action WorkflowDefinition) w = _
  rw [Program.bind_apply, Program.commit_apply, hcreate, bind_assoc]

/-- Where the workflow can be created, it stays; the loops decide how the program ends. -/
theorem presetWorkflow_created (h : CanCreateWorkflow w organizationId preset.name) (hexist : agents.Exist w) :
    let run := presetWorkflow organizationId preset agents w
    (∃ r, run.2.db.definitions.get w.db.definitions.next = some r ∧ r.organizationId = organizationId) ∧
    ((∃ d, run.1 = .ok d) ↔
      (∀ step ∈ preset.steps, (agents.ids.lookup step.agent).isSome = true) ∧ (preset.graph []).WellFormed) ∧
    ∀ d, run.1 = .ok d → w.db.definitions.get d.id = none ∧ run.2.db.agents = w.db.agents ∧
      ∃ stored, run.2.db.definitions.get d.id = some stored ∧ stored.organizationId = organizationId ∧
        stored.status = .draft ∧ stored.steps = preset.steps.map (PresetStep.wired agents.ids) ∧
        stored.transitions = preset.transitions := by
  intro run
  obtain ⟨name, new, w₁, hcreate, hrun⟩ := presetWorkflow_loops agents h
  obtain ⟨draft, t, ht, hw₁, hrefs, horg, hdraft, hs, htr⟩ := createDefinition_ok hcreate
  let loops : Action Unit := preset.steps.forM (addPresetStep new.id agents) >>= fun _ =>
    preset.transitions.forM (addPresetTransition new.id)
  have hrun : run = (loops >>= fun _ => pure new : Action WorkflowDefinition) w₁ := hrun
  have hfresh : w.db.definitions.get new.id = none := by
    obtain ⟨hrow, _, _⟩ := Table.insert_eq_some ht
    rw [hrow]
    exact Table.get_next w.db.definitions
  have hnext : w₁.db.definitions.get w.db.definitions.next = some new := by
    rw [hw₁]
    exact (Table.get_insert ht).trans (if_pos rfl)
  have hget : w₁.db.definitions.get new.id = some new := by
    rw [hw₁]
    exact Table.get_inserted ht
  have hstays : ∃ r, (loops w₁).2.db.definitions.get w.db.definitions.next = some r ∧
      r.organizationId = organizationId := by
    obtain ⟨r, hr, hholder⟩ := (programWithin_holds _ (programWithin_presetLoops new.id preset agents)
      w₁).definitions _ new hnext
    exact ⟨r, hr, Eq.trans hholder horg⟩
  have hloops : ((loops w₁).1 = .ok () ↔
      (∀ step ∈ preset.steps, (agents.ids.lookup step.agent).isSome = true) ∧ (preset.graph []).WellFormed) ∧
      ((loops w₁).1 = .ok () → ∃ t, (loops w₁).2 = { w₁ with db := { w₁.db with definitions := t } } ∧
        t.get new.id = some { new with
          steps := preset.steps.map (PresetStep.wired agents.ids), transitions := preset.transitions }) :=
    presetLoops_iff hget hrefs hdraft hs htr (by rw [hw₁]; exact hexist)
  obtain ⟨hiff, hbuilt⟩ := hloops
  rw [hrun, Program.bind_apply]
  generalize loops w₁ = result at hstays hiff hbuilt
  obtain ⟨value, w'⟩ := result
  cases value with
  | error e =>
    refine ⟨hstays, ⟨?_, ?_⟩, ?_⟩
    · intro ⟨d, hd⟩
      cases hd
    · intro h
      cases hiff.mpr h
    · intro d hd
      cases hd
  | ok u =>
    refine ⟨hstays, iff_of_true ⟨new, rfl⟩ (hiff.mp rfl), fun d hd => ?_⟩
    obtain rfl : new = d := Except.ok.inj hd
    obtain ⟨t', hw', hstored⟩ := hbuilt rfl
    refine ⟨hfresh, ?_, { new with
      steps := preset.steps.map (PresetStep.wired agents.ids), transitions := preset.transitions }, ?_,
      horg, hdraft, rfl, rfl⟩
    · change w'.db.agents = w.db.agents
      rw [show w' = _ from hw', hw₁]
    · change w'.db.definitions.get new.id = _
      rw [show w' = _ from hw']
      exact hstored

/-- A step of the workflow is a step of the preset, owned by the organization's agent of the name that
the preset gives. -/
def PresetStep.Becomes (step : PresetStep) (w : World) (organizationId : Nat) (s : WorkflowStep) : Prop :=
  s = ⟨step.key, step.name, some step.description, s.agentId, step.isInitial, step.isTerminal⟩ ∧
    ∃ a, w.db.agents.get s.agentId = some a ∧ a.organizationId = organizationId ∧ a.name = step.agent

/-- A draft with the steps and the transitions of the preset, in their order. -/
structure Materialised (w : World) (organizationId : Nat) (preset : WorkflowPreset)
    (d : WorkflowDefinition) : Prop where
  organization : d.organizationId = organizationId
  draft : d.status = .draft
  steps : List.Forall₂ (fun step s => step.Becomes w organizationId s) preset.steps d.steps
  transitions : d.transitions = preset.transitions

/-! ## The whole -/

/-- Applying the preset either leaves the agents and workflows of the organization as they were, or
builds the preset. -/
structure AllOrNothing (w : World) (organizationId : Nat) (preset : WorkflowPreset) : Prop where
  refused : ∀ e, (createWorkflowFromPreset organizationId preset w).1 = .error e →
    ((createWorkflowFromPreset organizationId preset w).2.db.agents.select
        fun a => a.organizationId = organizationId) =
      (w.db.agents.select fun a => a.organizationId = organizationId) ∧
    ((createWorkflowFromPreset organizationId preset w).2.db.definitions.select
        fun d => d.organizationId = organizationId) =
      w.db.definitions.select fun d => d.organizationId = organizationId
  applied : ∀ d, (createWorkflowFromPreset organizationId preset w).1 = .ok d →
    w.db.definitions.get d.id = none ∧
    ∃ stored, (createWorkflowFromPreset organizationId preset w).2.db.definitions.get d.id = some stored ∧
      Materialised (createWorkflowFromPreset organizationId preset w).2 organizationId preset stored

/-- The first unit of work is refused: the first new agent, or the workflow when no agent is new. -/
def FirstRefused (w : World) (organizationId : Nat) (preset : WorkflowPreset) : Prop :=
  (newAgents (agentNames w organizationId) preset.agents = [] ∧
    ¬ CanCreateWorkflow w organizationId preset.name) ∨
  ∃ name names, newAgents (agentNames w organizationId) preset.agents = name :: names ∧
    ¬ CanCreateAgents w organizationId [name]

/-- Every unit of work goes through, and the new agents that own steps get their names as they are. -/
structure Applicable (w : World) (organizationId : Nat) (preset : WorkflowPreset) : Prop where
  agents : newAgents (agentNames w organizationId) preset.agents = [] ∨
    CanCreateAgents w organizationId (newAgents (agentNames w organizationId) preset.agents)
  workflow : CanCreateWorkflow w organizationId preset.name
  owners : ∀ step ∈ preset.steps, step.agent ∈ preset.agents.map Prod.fst
  graph : (preset.graph []).WellFormed
  names : ∀ step ∈ preset.steps,
    step.agent ∈ agentNames w organizationId ∨ Text.strip step.agent = step.agent

theorem canCreateWorkflow_congr {w' : World} {name : String}
    (horgs : w'.db.organizations = w.db.organizations) (hdefs : w'.db.definitions = w.db.definitions) :
    CanCreateWorkflow w' organizationId name ↔ CanCreateWorkflow w organizationId name := by
  have htaken : NameTaken WorkflowDefinition w' organizationId name ↔
      NameTaken WorkflowDefinition w organizationId name := by
    change (∃ r ∈ w'.db.definitions.rows, _) ↔ ∃ r ∈ w.db.definitions.rows, _
    rw [hdefs]
  unfold CanCreateWorkflow
  rw [horgs, hdefs, htaken]

/-- The loop over the agents, from the agents of the organization. -/
abbrev presetAgents (organizationId : Nat) (preset : WorkflowPreset) : World → Except Failure PresetAgents × World :=
  fun w => preset.agents.foldlM (ensureAgent organizationId) ⟨knownAgents w organizationId, []⟩ w

/-- How far applying a preset gets: not past the agents, or on to the workflow with the agents found,
and with organizations and workflows as they were. -/
theorem preset_cases (w : World) (organizationId : Nat) (preset : WorkflowPreset) :
    let new := newAgents (agentNames w organizationId) preset.agents
    let run := createWorkflowFromPreset organizationId preset w
    (¬ (new = [] ∨ CanCreateAgents w organizationId new) ∧ (∃ e, run.1 = .error e) ∧
      run.2 = (presetAgents organizationId preset w).2) ∨
    ((new = [] ∨ CanCreateAgents w organizationId new) ∧ ∃ found w₁,
      presetAgents organizationId preset w = (.ok found, w₁) ∧
      run = presetWorkflow organizationId preset found w₁ ∧
      w₁.db.organizations = w.db.organizations ∧ w₁.db.definitions = w.db.definitions ∧
      found.Owned (agentNames w organizationId) organizationId w₁ ∧
      found.ids.map Prod.fst = preset.agents.map Prod.fst) := by
  intro new run
  have hrun : run = (preset.agents.foldlM (ensureAgent organizationId) ⟨knownAgents w organizationId, []⟩ >>=
      presetWorkflow organizationId preset : Action WorkflowDefinition) w :=
    createWorkflowFromPreset_apply organizationId preset w
  have hnew : new = newAgents (PresetAgents.names ⟨knownAgents w organizationId, []⟩) preset.agents :=
    newAgents_congr (fun _ => mem_agentNames_iff) preset.agents
  have hiff : (∃ found, (presetAgents organizationId preset w).1 = .ok found) ↔
      new = [] ∨ CanCreateAgents w organizationId new := by
    rw [hnew]
    exact ensureAgents_ok_iff preset.agents ⟨knownAgents w organizationId, []⟩
  have howned : ∀ found, (presetAgents organizationId preset w).1 = .ok found →
      found.Owned (agentNames w organizationId) organizationId (presetAgents organizationId preset w).2 :=
    fun _ => ensureAgents_owned (owned_knownAgents w organizationId)
  have hids : ∀ found, (presetAgents organizationId preset w).1 = .ok found →
      found.ids.map Prod.fst = preset.agents.map Prod.fst :=
    fun _ => ensureAgents_ids
  obtain ⟨horgs, hdefs⟩ := ensureAgents_same organizationId preset.agents ⟨knownAgents w organizationId, []⟩ w
  rw [Program.bind_apply] at hrun
  rw [hrun]
  unfold presetAgents at hiff howned hids ⊢
  generalize preset.agents.foldlM (ensureAgent organizationId) ⟨knownAgents w organizationId, []⟩ w = stage
    at hiff howned hids horgs hdefs ⊢
  obtain ⟨value, w₁⟩ := stage
  cases value with
  | error e =>
    refine Or.inl ⟨fun h => ?_, ⟨e, rfl⟩, rfl⟩
    obtain ⟨_, hok⟩ := hiff.mpr h
    cases hok
  | ok found =>
    exact Or.inr ⟨hiff.mp ⟨found, rfl⟩, found, w₁, rfl, rfl, horgs, hdefs,
      howned found rfl, hids found rfl⟩

theorem presetAgents_first (w : World) (organizationId : Nat) (preset : WorkflowPreset) :
    (newAgents (agentNames w organizationId) preset.agents = [] ∧
      ∃ found, presetAgents organizationId preset w = (.ok found, w)) ∨
    ∃ name names, newAgents (agentNames w organizationId) preset.agents = name :: names ∧
      ((¬ CanCreateAgents w organizationId [name] ∧ ∃ e, presetAgents organizationId preset w = (.error e, w)) ∨
      (CanCreateAgents w organizationId [name] ∧
        ∃ a, (presetAgents organizationId preset w).2.db.agents.get w.db.agents.next = some a ∧
          a.organizationId = organizationId)) := by
  rw [newAgents_congr (fun _ => mem_agentNames_iff) preset.agents]
  exact ensureAgents_first preset.agents ⟨knownAgents w organizationId, []⟩

theorem exist_of_owned {existing : List String} (h : agents.Owned existing organizationId w) :
    agents.Exist w := by
  intro p hp
  obtain ⟨a, ha, _⟩ := h.owner p hp
  exact Option.isSome_of_eq_some ha

theorem preset_bind (w : World) (organizationId : Nat) (preset : WorkflowPreset) :
    (∀ found w₁, presetAgents organizationId preset w = (.ok found, w₁) →
      createWorkflowFromPreset organizationId preset w = presetWorkflow organizationId preset found w₁) ∧
    ∀ e w₁, presetAgents organizationId preset w = (.error e, w₁) →
      createWorkflowFromPreset organizationId preset w = (.error e, w₁) := by
  rw [createWorkflowFromPreset_apply, Program.bind_apply]
  unfold presetAgents
  refine ⟨?_, ?_⟩
  · intro found w₁ h
    rw [h]
  · intro e w₁ h
    rw [h]

/-- A refusal of the first unit of work leaves everything as it was. -/
theorem preset_refused (h : FirstRefused w organizationId preset) :
    ∃ e, createWorkflowFromPreset organizationId preset w = (.error e, w) := by
  obtain ⟨hfound, herror⟩ := preset_bind w organizationId preset
  rcases presetAgents_first w organizationId preset with
    ⟨hnone, found, hrun⟩ | ⟨name, names, hnew, ⟨_, e, hrun⟩ | ⟨hcan, _⟩⟩
  · rcases h with ⟨_, hcannot⟩ | ⟨name, names, hnew, _⟩
    · rw [hfound found w hrun]
      exact presetWorkflow_refused hcannot
    · cases hnone.symm.trans hnew
  · exact ⟨e, herror e w hrun⟩
  · rcases h with ⟨hnone, _⟩ | ⟨name', names', hnew', hcannot⟩
    · cases hnone.symm.trans hnew
    · cases hnew.symm.trans hnew'
      exact absurd hcan hcannot

/-- After the first unit of work the organization has a new agent or a new workflow, and keeps it. -/
theorem preset_writes (h : ¬ FirstRefused w organizationId preset) :
    ((createWorkflowFromPreset organizationId preset w).2.db.agents.select
        fun a => a.organizationId = organizationId) ≠
      (w.db.agents.select fun a => a.organizationId = organizationId) ∨
    ((createWorkflowFromPreset organizationId preset w).2.db.definitions.select
        fun d => d.organizationId = organizationId) ≠
      w.db.definitions.select fun d => d.organizationId = organizationId := by
  rcases presetAgents_first w organizationId preset with
    ⟨hnone, found, hrun⟩ | ⟨name, names, hnew, ⟨hcannot, _⟩ | ⟨_, a, ha, horg⟩⟩
  · have hcan : CanCreateWorkflow w organizationId preset.name := by
      by_contra hcannot
      exact h (Or.inl ⟨hnone, hcannot⟩)
    rcases preset_cases w organizationId preset with ⟨hnot, _⟩ | ⟨_, found', w₁, hrun', heq, _, _, howned, _⟩
    · exact absurd (Or.inl hnone) hnot
    · obtain ⟨hsame, rfl⟩ := Prod.mk.inj (hrun.symm.trans hrun')
      obtain rfl := Except.ok.inj hsame
      obtain ⟨⟨r, hr, horg⟩, _⟩ := presetWorkflow_created hcan (exist_of_owned howned)
      rw [heq]
      exact Or.inr (Table.select_ne_of_next hr (decide_eq_true horg))
  · exact absurd (Or.inr ⟨name, names, hnew, hcannot⟩) h
  · have hkept : (presetAgents organizationId preset w).2.Holds
        (createWorkflowFromPreset organizationId preset w).2 := by
      rcases preset_cases w organizationId preset with ⟨_, _, heq⟩ | ⟨_, found, w₁, hrun, heq, _⟩
      · rw [heq]
        exact World.holds_refl _
      · rw [heq, hrun]
        exact programWithin_holds _ (programWithin_presetWorkflow organizationId preset found) w₁
    obtain ⟨r, hr, hholder⟩ := hkept.agents _ a ha
    exact Or.inl (Table.select_ne_of_next hr (decide_eq_true (Eq.trans hholder horg)))

/-- When applying a preset ends well, and what it has then built. -/
theorem preset_ok (w : World) (organizationId : Nat) (preset : WorkflowPreset) :
    let new := newAgents (agentNames w organizationId) preset.agents
    let run := createWorkflowFromPreset organizationId preset w
    ((∃ d, run.1 = .ok d) ↔ (new = [] ∨ CanCreateAgents w organizationId new) ∧
      CanCreateWorkflow w organizationId preset.name ∧
      (∀ step ∈ preset.steps, step.agent ∈ preset.agents.map Prod.fst) ∧ (preset.graph []).WellFormed) ∧
    ∀ d, run.1 = .ok d → w.db.definitions.get d.id = none ∧ ∃ found stored,
      PresetAgents.Owned found (agentNames w organizationId) organizationId run.2 ∧
      (∀ step ∈ preset.steps, (found.ids.lookup step.agent).isSome = true) ∧
      run.2.db.definitions.get d.id = some stored ∧ stored.organizationId = organizationId ∧
      stored.status = .draft ∧ stored.steps = preset.steps.map (PresetStep.wired found.ids) ∧
      stored.transitions = preset.transitions := by
  intro new run
  rcases preset_cases w organizationId preset with
    ⟨hnot, ⟨e, herror⟩, _⟩ | ⟨hagents, found, w₁, _, hrun, horgs, hdefs, howned, hids⟩
  · have hno : ∀ d, run.1 ≠ .ok d := fun d hd => by cases herror.symm.trans hd
    exact ⟨iff_of_false (fun ⟨d, hd⟩ => hno d hd) fun h => hnot h.1, fun d hd => absurd hd (hno d)⟩
  · have hcongr : CanCreateWorkflow w₁ organizationId preset.name ↔
        CanCreateWorkflow w organizationId preset.name := canCreateWorkflow_congr horgs hdefs
    have hlookup : ∀ step : PresetStep, (found.ids.lookup step.agent).isSome = true ↔
        step.agent ∈ preset.agents.map Prod.fst := by
      intro step
      rw [← hids, ← not_iff_not, ← lookup_none_iff, Option.isSome_iff_ne_none, not_not]
    by_cases hcan : CanCreateWorkflow w organizationId preset.name
    · obtain ⟨_, hiff, hbuilt⟩ := presetWorkflow_created (hcongr.mpr hcan) (exist_of_owned howned)
      rw [← hrun] at hiff hbuilt
      simp only [hlookup] at hiff
      refine ⟨hiff.trans ⟨fun h => ⟨hagents, hcan, h⟩, fun h => h.2.2⟩, fun d hd => ?_⟩
      obtain ⟨hfresh, hsame, stored, hstored⟩ := hbuilt d hd
      rw [hdefs] at hfresh
      refine ⟨hfresh, found, stored, ⟨howned.known, fun p hp => ?_⟩, fun step hstep => ?_, hstored⟩
      · rw [hsame]
        exact howned.owner p hp
      · exact (hlookup step).mpr ((hiff.mp ⟨d, hd⟩).1 step hstep)
    · have hrefused : ∃ e, presetWorkflow organizationId preset found w₁ = (.error e, w₁) :=
        presetWorkflow_refused fun h => hcan (hcongr.mp h)
      obtain ⟨e, herror⟩ := hrefused
      have hno : ∀ d, run.1 ≠ .ok d := by
        intro d hd
        have hfirst : run.1 = .error e := by rw [show run = _ from hrun, herror]
        cases hfirst.symm.trans hd
      exact ⟨iff_of_false (fun ⟨d, hd⟩ => hno d hd) fun h => hcan h.2.1, fun d hd => absurd hd (hno d)⟩

theorem ownerName_eq_iff {existing : List String} {name : String} :
    ownerName existing name = name ↔ name ∈ existing ∨ Text.strip name = name := by
  unfold ownerName
  by_cases h : name ∈ existing
  · exact iff_of_true (if_pos h) (Or.inl h)
  · rw [if_neg h, or_iff_right h]

/-- The owner of a step has the name that the preset gives, or that name without the whitespace around
it. -/
theorem becomes_wired_iff {existing : List String} (howned : agents.Owned existing organizationId w)
    {step : PresetStep} (hfound : (agents.ids.lookup step.agent).isSome = true) :
    step.Becomes w organizationId (step.wired agents.ids) ↔
      step.agent ∈ existing ∨ Text.strip step.agent = step.agent := by
  obtain ⟨agentId, hlookup⟩ := Option.isSome_iff_exists.mp hfound
  obtain ⟨a, ha, horg, hname⟩ := howned.owner (step.agent, agentId) (Or.inr (mem_of_lookup hlookup))
  have hid : (step.wired agents.ids).agentId = agentId := by
    change (agents.ids.lookup step.agent).getD 0 = agentId
    rw [hlookup]
    rfl
  rw [← ownerName_eq_iff]
  constructor
  · intro ⟨_, b, hb, _, hbname⟩
    rw [hid] at hb
    obtain rfl := Option.some.inj (ha.symm.trans hb)
    exact hname.symm.trans hbname
  · intro hsame
    exact ⟨rfl, a, hid ▸ ha, horg, hname.trans hsame⟩

/-- A preset is applied as a whole or not at all exactly when its first unit of work is refused or all
of them go through. -/
theorem allOrNothing_iff (w : World) (organizationId : Nat) (preset : WorkflowPreset) :
    AllOrNothing w organizationId preset ↔
      FirstRefused w organizationId preset ∨ Applicable w organizationId preset := by
  obtain ⟨hok, hbuilt⟩ := preset_ok w organizationId preset
  constructor
  · intro h
    by_cases hfirst : FirstRefused w organizationId preset
    · exact Or.inl hfirst
    · rcases ok_or_error (createWorkflowFromPreset organizationId preset w).1 with ⟨d, hd⟩ | ⟨e, he⟩
      · obtain ⟨hagents, hworkflow, howners, hgraph⟩ := hok.mp ⟨d, hd⟩
        refine Or.inr ⟨hagents, hworkflow, howners, hgraph, fun step hstep => ?_⟩
        obtain ⟨_, found, stored, howned, hfound, hstored, _, _, hsteps, _⟩ := hbuilt d hd
        obtain ⟨_, stored', hstored', hmaterialised⟩ := h.applied d hd
        obtain rfl := Option.some.inj (hstored.symm.trans hstored')
        have hforall := hmaterialised.steps
        rw [hsteps, List.forall₂_map_right_iff, List.forall₂_same] at hforall
        exact (becomes_wired_iff howned (hfound step hstep)).mp (hforall step hstep)
      · obtain ⟨hagents, hdefinitions⟩ := h.refused e he
        rcases preset_writes hfirst with hne | hne
        · exact absurd hagents hne
        · exact absurd hdefinitions hne
  · intro h
    rcases h with hfirst | happlies
    · obtain ⟨e, herror⟩ := preset_refused hfirst
      refine ⟨fun _ _ => ?_, fun d hd => ?_⟩
      · rw [herror]
        exact ⟨rfl, rfl⟩
      · rw [herror] at hd
        cases hd
    · obtain ⟨d', hd'⟩ := hok.mpr ⟨happlies.agents, happlies.workflow, happlies.owners, happlies.graph⟩
      refine ⟨fun e he => ?_, fun d hd => ?_⟩
      · cases hd'.symm.trans he
      obtain ⟨hfresh, found, stored, howned, hfound, hstored, horg, hdraft, hsteps, htransitions⟩ := hbuilt d hd
      refine ⟨hfresh, stored, hstored, horg, hdraft, ?_, htransitions⟩
      rw [hsteps, List.forall₂_map_right_iff, List.forall₂_same]
      intro step hstep
      exact (becomes_wired_iff howned (hfound step hstep)).mpr (happlies.names step hstep)

/-- A new organization: its plan has room for three agents. -/
def acmeFree : World :=
  (System.after (fun _ _ => none) [.call ⟨.offline 1 "", .createOrganization "Acme"⟩]).world

/-- The preset with nine agents is refused at the fourth, and leaves three. -/
theorem not_allOrNothing_acmeFree : ¬ AllOrNothing acmeFree 1 .standardContract := by
  intro h
  have hleft : ((createWorkflowFromPreset 1 .standardContract acmeFree).2.db.agents.select
      fun a => a.organizationId = 1).map (fun a => a.name) = ["Drafting", "Negotiation", "Signatory"] := by
    decide +kernel
  have hnone : acmeFree.db.agents.select (fun a => a.organizationId = 1) = [] := by decide +kernel
  have hrefused : (createWorkflowFromPreset 1 .standardContract acmeFree).1.toOption = none := by
    decide +kernel
  rcases ok_or_error (createWorkflowFromPreset 1 .standardContract acmeFree).1 with ⟨d, hd⟩ | ⟨e, he⟩
  · rw [hd] at hrefused
    cases hrefused
  · obtain ⟨hagents, _⟩ := h.refused e he
    rw [hagents, hnone] at hleft
    cases hleft

end Orchestract
