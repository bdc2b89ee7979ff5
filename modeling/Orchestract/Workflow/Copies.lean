import Orchestract.Operations.Footprints
import Orchestract.Tenancy.Names
import Orchestract.Workflow.Position

/-!
# Duplicated workflows

`duplicate_definition` replays the steps and the transitions of its source through the guarded
methods. A graph that was built with these methods passes their guards again, in the order in
which it was built.
-/

namespace Orchestract

set_option autoImplicit false

namespace WorkflowDefinition

/-- Steps with fresh, distinct keys and at most one start step among all are added one by one. -/
theorem foldlM_addStep {d : WorkflowDefinition} {steps : List WorkflowStep} (hd : d.status = .draft)
    (hkeys : ((d.steps ++ steps).map (fun step => step.key)).Nodup)
    (hinit : ((d.steps ++ steps).filter (fun step => step.isInitial)).length ≤ 1) :
    steps.foldlM (fun d step => d.addStep step) d = .ok { d with steps := d.steps ++ steps } := by
  induction steps generalizing d with
  | nil =>
    rw [List.append_nil]
    rfl
  | cons step steps ih =>
    have hsplit : d.steps ++ step :: steps = (d.steps ++ [step]) ++ steps := by simp
    have hadd : d.addStep step = .ok { d with steps := d.steps ++ [step] } := by
      refine addStep_ok_iff.mpr ⟨hd, ?_, ?_, rfl⟩
      · intro s hs heq
        rw [List.map_append, List.nodup_append] at hkeys
        exact hkeys.2.2 s.key (List.mem_map_of_mem hs) step.key (by simp) heq
      · intro hstep s hs
        by_contra hne
        have hmem : s ∈ d.steps.filter (fun step => step.isInitial) :=
          List.mem_filter.mpr ⟨hs, by simpa using hne⟩
        have hpos := List.length_pos_of_mem hmem
        rw [List.filter_append, List.length_append, List.filter_cons_of_pos hstep,
          List.length_cons] at hinit
        omega
    rw [hsplit] at hkeys hinit ⊢
    rw [List.foldlM_cons, hadd]
    exact ih hd hkeys hinit

/-- Transitions between known steps that nothing makes ambiguous are added one by one. -/
theorem foldlM_addTransition {d : WorkflowDefinition} {transitions : List WorkflowTransition}
    (hd : d.status = .draft)
    (hends : ∀ t ∈ transitions, (∃ s ∈ d.steps, s.key = t.fromStepKey) ∧
      ∃ s ∈ d.steps, s.key = t.toStepKey)
    (hactions : (d.transitions ++ transitions).Pairwise fun t u =>
      ¬ (t.fromStepKey = u.fromStepKey ∧ t.actionName = u.actionName)) :
    transitions.foldlM (fun d transition => d.addTransition transition) d =
      .ok { d with transitions := d.transitions ++ transitions } := by
  induction transitions generalizing d with
  | nil =>
    rw [List.append_nil]
    rfl
  | cons t transitions ih =>
    have hsplit : d.transitions ++ t :: transitions = (d.transitions ++ [t]) ++ transitions := by simp
    have hadd : d.addTransition t = .ok { d with transitions := d.transitions ++ [t] } := by
      obtain ⟨hfrom, hto⟩ := hends t List.mem_cons_self
      refine addTransition_ok_iff.mpr ⟨hd, hfrom, hto, ?_, rfl⟩
      intro u hu hsame heq
      rw [List.pairwise_append] at hactions
      exact hactions.2.2 u hu t List.mem_cons_self ⟨hsame, heq⟩
    rw [hsplit] at hactions ⊢
    rw [List.foldlM_cons, hadd]
    exact ih hd (fun u hu => hends u (List.mem_cons_of_mem t hu)) hactions

/-- The graph of an aggregate passes the guards again. -/
theorem WellFormed.replay {source copy : WorkflowDefinition} (h : source.WellFormed)
    (hd : copy.status = .draft) (hs : copy.steps = []) (ht : copy.transitions = []) :
    WorkflowService.replay source copy =
      .ok { copy with steps := source.steps, transitions := source.transitions } := by
  have hsteps : source.steps.foldlM (fun d step => d.addStep step) copy =
      .ok { copy with steps := source.steps } := by
    rw [foldlM_addStep hd (by simpa [hs] using h.keys_nodup) (by simpa [hs] using h.one_initial), hs,
      List.nil_append]
  have htransitions : source.transitions.foldlM (fun d transition => d.addTransition transition)
      { copy with steps := source.steps } =
      .ok { copy with steps := source.steps, transitions := source.transitions } := by
    rw [foldlM_addTransition (d := { copy with steps := source.steps }) hd h.endpoints
      (by simpa [ht] using h.actions), ht, List.nil_append]
  simp only [WorkflowService.replay, bind_ok_iff]
  exact ⟨_, hsteps, htransitions⟩

/-- Steps that were added passed the guards, and stand in their order. -/
theorem foldlM_addStep_ok {d d' : WorkflowDefinition} {steps : List WorkflowStep} (hwf : d.WellFormed)
    (h : steps.foldlM (fun d step => d.addStep step) d = .ok d') :
    d'.WellFormed ∧ d' = { d with steps := d.steps ++ steps } := by
  refine ⟨foldlM_ok (I := fun _ e => e.WellFormed) ?_ hwf h, foldlM_addStep_eq h⟩
  intro _ step e e' he hadd
  obtain ⟨_, hkey, hinit, rfl⟩ := addStep_ok_iff.mp hadd
  exact wellFormed_addStep he hkey hinit

theorem foldlM_addTransition_ok {d d' : WorkflowDefinition} {transitions : List WorkflowTransition}
    (hwf : d.WellFormed) (h : transitions.foldlM (fun d transition => d.addTransition transition) d = .ok d') :
    d'.WellFormed ∧ d' = { d with transitions := d.transitions ++ transitions } := by
  refine ⟨foldlM_ok (I := fun _ e => e.WellFormed) ?_ hwf h, foldlM_addTransition_eq h⟩
  intro _ t e e' he hadd
  obtain ⟨_, hfrom, hto, hnew, rfl⟩ := addTransition_ok_iff.mp hadd
  exact wellFormed_addTransition he hfrom hto hnew

/-- Only the graph of an aggregate passes the guards. -/
theorem wellFormed_of_replay {source copy d : WorkflowDefinition} (hs : copy.steps = [])
    (ht : copy.transitions = []) (h : WorkflowService.replay source copy = .ok d) : source.WellFormed := by
  have hempty : copy.WellFormed := ⟨by simp [hs], by simp [hs], by simp [ht], by simp [ht]⟩
  simp only [WorkflowService.replay, bind_ok_iff] at h
  obtain ⟨filled, hsteps, htransitions⟩ := h
  obtain ⟨hwf, rfl⟩ := foldlM_addStep_ok hempty hsteps
  obtain ⟨hwf', rfl⟩ := foldlM_addTransition_ok hwf htransitions
  exact hwf'.congr (by simp [hs]) (by simp [ht])

end WorkflowDefinition

theorem uniqueCopyName_strip (baseName : String) (slugs : List String) :
    Text.strip (WorkflowService.uniqueCopyName baseName slugs) ≠ "" := by
  have hmem : '(' ∈ (WorkflowService.uniqueCopyName baseName slugs).toList := by
    unfold WorkflowService.uniqueCopyName
    split
    · rw [String.toList_append]
      exact List.mem_append_right _ (by decide)
    · rw [String.toList_append, String.toList_append, String.toList_append]
      refine List.mem_append_left _ (List.mem_append_left _ (List.mem_append_right _ ?_))
      decide
  intro hblank
  have hspace := Text.strip_eq_empty_iff.mp hblank '(' hmem
  revert hspace
  decide

/-- The slugs of an organization's workflows. -/
def workflowSlugs (w : World) (organizationId : Nat) : List String :=
  (orderByText WorkflowDefinition.name
    (w.db.definitions.select fun d => d.organizationId = organizationId)).map fun d => d.slug

theorem mem_workflowSlugs_iff {w : World} {organizationId : Nat} {slug : String} :
    slug ∈ workflowSlugs w organizationId ↔
      ∃ d ∈ w.db.definitions.rows, d.organizationId = organizationId ∧ d.slug = slug := by
  simp only [workflowSlugs, List.mem_map, mem_orderByText, Table.mem_select_iff, decide_eq_true_eq,
    and_assoc]

/-- A workflow with the graph of a stored one is stored when its slug is free. -/
theorem storable_filled {w : World} (h : Sound w) {source new : WorkflowDefinition}
    (hsource : source ∈ w.db.definitions.rows) (horg : new.organizationId = source.organizationId)
    (hslug : new.slug ∉ workflowSlugs w source.organizationId) :
    Storable { new with steps := source.steps, transitions := source.transitions } w := by
  refine ⟨?_, ?_⟩
  · have hrefs : Stored.refs { new with steps := source.steps, transitions := source.transitions } =
        Stored.refs source := by
      simp only [Stored.refs, horg]
    have hexist : refsExist source w.db = true := h.refsExist hsource
    rw [refsExist, hrefs]
    exact hexist
  · intro d hd
    apply (slugged_disjoint_iff (α := WorkflowDefinition)).mpr
    intro hsame
    obtain ⟨hdorg, hdslug⟩ := hsame
    exact hslug (mem_workflowSlugs_iff.mpr ⟨d, hd, hdorg.trans horg, hdslug⟩)

/-- What is stored when a well-formed workflow is duplicated. -/
theorem duplicateDefinition_stored {w : World} (h : Sound w) {source : WorkflowDefinition}
    (hsource : w.db.definitions.get source.id = some source) (hwf : source.WellFormed) :
    ∃ new copy t,
      WorkflowDefinition.create source.organizationId
        (WorkflowService.uniqueCopyName source.name (workflowSlugs w source.organizationId))
        source.description = .ok new ∧
      new.slug ∉ workflowSlugs w source.organizationId ∧
      WorkflowService.replay source new =
        .ok { new with steps := source.steps, transitions := source.transitions } ∧
      w.db.definitions.insert { new with steps := source.steps, transitions := source.transitions } =
        some (copy, t) ∧
      WorkflowService.duplicateDefinition source.id w =
        .ok (copy, { w with db := { w.db with definitions := t } }) := by
  obtain ⟨new, hnew⟩ : ∃ new, WorkflowDefinition.create source.organizationId
      (WorkflowService.uniqueCopyName source.name (workflowSlugs w source.organizationId))
      source.description = .ok new :=
    ⟨_, WorkflowDefinition.create_ok_iff.mpr ⟨uniqueCopyName_strip source.name _, rfl⟩⟩
  obtain ⟨horg, hslug, hsteps⟩ := definition_create_fields hnew
  have hfree : new.slug ∉ workflowSlugs w source.organizationId := by
    rw [hslug]
    exact uniqueCopyName_free source.name _
  have hdraft : new.status = .draft ∧ new.transitions = [] := by
    obtain ⟨_, hd⟩ := WorkflowDefinition.create_ok_iff.mp hnew
    rw [← hd]
    exact ⟨rfl, rfl⟩
  have hreplay := hwf.replay hdraft.1 hsteps hdraft.2
  have hmem := (Table.get_eq_some_iff.mp hsource).1
  obtain ⟨copy, w', hadd⟩ := storable_iff.mp (storable_filled h hmem horg hfree)
  obtain ⟨_, t, ht, rfl⟩ := (add_ok_iff _ copy w w').mp hadd
  refine ⟨new, copy, t, hnew, hfree, hreplay, ht, ?_⟩
  simp only [WorkflowService.duplicateDefinition, WorkflowService.get, Work.bind_ok_iff,
    Work.lift_ok_iff, require_ok_iff, lift_work_ok_iff]
  exact ⟨source, w, ⟨hsource, rfl⟩, _, w, ⟨rfl, rfl⟩, new, w, ⟨hnew, rfl⟩, _, w,
    ⟨hreplay, rfl⟩, hadd⟩

/-- A stored draft without issues is activated. -/
theorem activate_stored {w : World} {d : WorkflowDefinition}
    (hget : w.db.definitions.get d.id = some d) (hexist : refsExist d w.db = true)
    (hd : d.status = .draft) (hissues : d.findValidationIssues = []) :
    ∃ w', WorkflowService.activate d.id w = .ok ({ d with status := .active }, w') := by
  have hactivate : d.activate = .ok { d with status := .active } :=
    WorkflowDefinition.activate_ok_iff.mpr ⟨hd, hissues, rfl⟩
  obtain ⟨w', hsave⟩ := save_same_keys (a := { d with status := .active })
    (Table.get_eq_some_iff.mp hget).1 rfl rfl hexist
  exact ⟨w', (change_ok_iff "workflow definition" d.id WorkflowDefinition.activate _ w w').mpr
    ⟨d, hget, hactivate, hsave⟩⟩

/-- Duplicating a workflow, whatever its status and whatever else its organization has: the replay
raises nothing, the copy is a draft with the same graph and the same issues and with a slug of its
own, a copy of a workflow that has left `DRAFT` is activated at once, and every stored workflow
stays as it is. -/
theorem duplicate_exact {w : World} (h : Sound w) {source : WorkflowDefinition}
    (hsource : w.db.definitions.get source.id = some source)
    (hbuilt : WorkflowDefinition.Built { source with id := 0 }) :
    ∃ new copy w',
      WorkflowDefinition.create source.organizationId
        (WorkflowService.uniqueCopyName source.name (workflowSlugs w source.organizationId))
        source.description = .ok new ∧
      WorkflowService.replay source new =
        .ok { new with steps := source.steps, transitions := source.transitions } ∧
      WorkflowService.duplicateDefinition source.id w = .ok (copy, w') ∧
      copy = { new with
        id := copy.id, steps := source.steps, transitions := source.transitions } ∧
      copy.status = .draft ∧ copy.organizationId = source.organizationId ∧
      copy.findValidationIssues = source.findValidationIssues ∧
      (source.status ≠ .draft → ∃ w'', WorkflowService.activate copy.id w' =
        .ok ({ copy with status := .active }, w'')) ∧
      (∀ d ∈ w.db.definitions.rows, d.organizationId = source.organizationId → d.slug ≠ copy.slug) ∧
      (∀ id d, w.db.definitions.get id = some d → w'.db.definitions.get id = some d) ∧
      (∀ d, d ∈ w'.db.definitions.rows ↔ d ∈ w.db.definitions.rows ∨ d = copy) ∧
      w' = { w with db := { w.db with definitions := w'.db.definitions } } := by
  have hsound : source.Sound := hbuilt.sound.congr rfl rfl rfl
  obtain ⟨new, copy, t, hnew, hfree, hreplay, ht, hdup⟩ :=
    duplicateDefinition_stored h hsource hsound.wellFormed
  obtain ⟨hcopy, _, _⟩ := Table.insert_eq_some ht
  obtain ⟨horg, _, _⟩ := definition_create_fields hnew
  have hdraft : new.status = .draft := by
    obtain ⟨_, hd⟩ := WorkflowDefinition.create_ok_iff.mp hnew
    rw [← hd]
  have hissues : copy.findValidationIssues = source.findValidationIssues := by
    rw [hcopy]
    exact WorkflowDefinition.findValidationIssues_congr rfl rfl
  refine ⟨new, copy, _, hnew, hreplay, hdup, ?_, ?_, ?_, hissues, ?_, ?_, ?_, ?_, rfl⟩
  · rw [hcopy]
    rfl
  · rw [hcopy]
    exact hdraft
  · rw [hcopy]
    exact horg
  · intro hleft
    have hvalid := (WorkflowDefinition.findValidationIssues_eq_nil_iff source).mpr
      (hsound.validated hleft)
    have hlater : Sound { w with db := { w.db with definitions := t } } :=
      (within_duplicateDefinition source.id Sound (fun site _ => keptBy_sound site) w h copy _ hdup).1
    have hmem := (Table.get_eq_some_iff.mp (Table.get_inserted ht)).1
    have hexist : refsExist copy { w.db with definitions := t } = true := hlater.refsExist hmem
    exact activate_stored (Table.get_inserted ht) hexist (by rw [hcopy]; exact hdraft)
      (hissues.trans hvalid)
  · intro d hd hdorg hslug
    rw [hcopy] at hslug
    exact hfree (mem_workflowSlugs_iff.mpr ⟨d, hd, hdorg, hslug⟩)
  · intro id d hd
    exact Table.get_of_insert ht hd
  · intro d
    exact Table.mem_insert_iff ht

/-- A workflow of two steps, activated. -/
def twoSteps : WorkflowDefinition := .madeBy [
  .addStep ⟨"draft", "Draft", none, 1, true, false⟩,
  .addStep ⟨"sign", "Sign", none, 1, false, true⟩,
  .addTransition ⟨"draft", "sign", "approve", none⟩,
  .activate]

/-- Acme, with one agent and this workflow. -/
def twoStepsStored : World :=
  let work : Action Unit := do
    let _ ← OrganizationService.createOrganization "Acme"
    let _ ← AgentService.createAgent 1 "Legal" none
    let _ ← (add twoSteps : UnitOfWork WorkflowDefinition)
    return ()
  (work ⟨.empty, fun _ _ => none⟩).2

theorem duplicate_exact_twoSteps :
    ∃ copy w', WorkflowService.duplicateDefinition 1 twoStepsStored = .ok (copy, w') ∧
      copy.steps = twoSteps.steps ∧ copy.transitions = twoSteps.transitions := by
  have hsound : Sound twoStepsStored := by
    intro site
    cases site <;> decide +kernel
  let source : WorkflowDefinition := { twoSteps with id := 1 }
  have hsource : twoStepsStored.db.definitions.get source.id = some source := by
    decide +kernel
  have hbuilt : ({ source with id := 0 } : WorkflowDefinition).Built := by
    have heq : ({ source with id := 0 } : WorkflowDefinition) = twoSteps := by decide +kernel
    rw [heq]
    exact WorkflowDefinition.built_madeBy _
  obtain ⟨new, copy, w', _, _, hdup, hcopy, _⟩ := duplicate_exact hsound hsource hbuilt
  refine ⟨copy, w', hdup, ?_, ?_⟩
  · rw [hcopy]
  · rw [hcopy]

end Orchestract
