import Mathlib.Data.List.Dedup
import Mathlib.Data.List.Sort
import Mathlib.Data.String.Basic
import Orchestract.Domain.Workflow
import Orchestract.Library.Worklist

/-!
# Graph validation

`find_validation_issues` with its worklist loop, `activate` and `retire`, and what an empty
list of issues means in terms of paths.
-/

namespace Orchestract.WorkflowDefinition

set_option autoImplicit false

/-- The keys one transition away from a step. -/
def successors (d : WorkflowDefinition) (key : String) : List String :=
  (d.transitionsFrom key).map (fun t => t.toStepKey)

/-- The `while frontier` loop; every pop after the first one was pushed by some transition. -/
def reachableFrom (d : WorkflowDefinition) (key : String) : List String :=
  Worklist.closure d.successors (d.transitions.length + 1) key

/-- `sorted(all_keys - reachable)`. -/
def unreachableFrom (d : WorkflowDefinition) (key : String) : List String :=
  ((d.steps.map (fun step => step.key)).dedup.filter
    (fun k => k ∉ d.reachableFrom key)).insertionSort (· ≤ ·)

def findValidationIssues (d : WorkflowDefinition) : List String :=
  if d.steps = [] then ["Add at least one step."]
  else
    let initialSteps := d.steps.filter (fun step => step.isInitial)
    let terminalSteps := d.steps.filter (fun step => step.isTerminal)
    let initialIssues :=
      if initialSteps.length = 0 then ["Mark one step as the start step."]
      else if initialSteps.length > 1 then ["Only one step can be the start step."]
      else []
    let terminalIssues :=
      if terminalSteps.length = 0 then ["Mark at least one step as an end step."] else []
    let reachabilityIssues :=
      match initialSteps with
      | [initial] =>
        let unreachable := d.unreachableFrom initial.key
        let listed := String.intercalate ", " unreachable
        if unreachable = [] then []
        else [s!"These steps can't be reached from the start yet: {listed}."]
      | _ => []
    initialIssues ++ terminalIssues ++ reachabilityIssues

def validateWorkflowGraph (d : WorkflowDefinition) : Except DomainError Unit :=
  let issues := d.findValidationIssues
  raiseIf (issues ≠ []) (.workflowValidation (String.intercalate " " issues))

def activate (d : WorkflowDefinition) : Except DomainError WorkflowDefinition := do
  d.requireDraft
  d.validateWorkflowGraph
  return { d with status := .active }

def retire (d : WorkflowDefinition) : Except DomainError WorkflowDefinition := do
  raiseIf (d.status ≠ .active) (.workflowDefinitionLocked d.id)
  return { d with status := .retired }

/-! ## What the methods do -/

@[simp] theorem requireDraft_ok_iff (d : WorkflowDefinition) (u : Unit) :
    d.requireDraft = .ok u ↔ d.status = .draft := by
  simp [requireDraft]

theorem getStep_ok_iff {d : WorkflowDefinition} {key : String} {step : WorkflowStep} :
    d.getStep key = .ok step ↔ d.steps.find? (fun s => s.key = key) = some step := by
  simp [getStep]

theorem getStep_ok {d : WorkflowDefinition} {key : String} {step : WorkflowStep}
    (h : d.getStep key = .ok step) : step ∈ d.steps ∧ step.key = key := by
  rw [getStep_ok_iff] at h
  exact ⟨List.mem_of_find?_eq_some h, by simpa using List.find?_some h⟩

theorem exists_getStep_iff {d : WorkflowDefinition} {key : String} :
    (∃ step, d.getStep key = .ok step) ↔ ∃ step ∈ d.steps, step.key = key := by
  constructor
  · rintro ⟨step, h⟩
    exact ⟨step, getStep_ok h⟩
  · rintro ⟨step, hs, hk⟩
    cases hf : d.steps.find? (fun s => s.key = key) with
    | some found => exact ⟨found, getStep_ok_iff.mpr hf⟩
    | none => exact absurd hk (by simpa using List.find?_eq_none.mp hf step hs)

theorem create_ok_iff {organizationId : Nat} {name : String} {description : Option String}
    {d : WorkflowDefinition} :
    create organizationId name description = .ok d ↔
      Text.strip name ≠ "" ∧
      ⟨0, organizationId, Text.strip name, Text.slugify (Text.strip name), description, .draft,
        [], []⟩ = d := by
  simp [create]

theorem rename_ok_iff {d d' : WorkflowDefinition} {newName : String} :
    d.rename newName = .ok d' ↔
      Text.strip newName ≠ "" ∧
      { d with name := Text.strip newName, slug := Text.slugify (Text.strip newName) } = d' := by
  simp [rename]

theorem addStep_ok_iff {d d' : WorkflowDefinition} {step : WorkflowStep} :
    d.addStep step = .ok d' ↔
      d.status = .draft ∧ (∀ s ∈ d.steps, s.key ≠ step.key) ∧
      (step.isInitial = true → ∀ s ∈ d.steps, s.isInitial = false) ∧
      { d with steps := d.steps ++ [step] } = d' := by
  simp [addStep]

theorem addTransition_ok_iff {d d' : WorkflowDefinition} {t : WorkflowTransition} :
    d.addTransition t = .ok d' ↔
      d.status = .draft ∧ (∃ s ∈ d.steps, s.key = t.fromStepKey) ∧
      (∃ s ∈ d.steps, s.key = t.toStepKey) ∧
      (∀ u ∈ d.transitions, u.fromStepKey = t.fromStepKey → u.actionName ≠ t.actionName) ∧
      { d with transitions := d.transitions ++ [t] } = d' := by
  rw [← exists_getStep_iff, ← exists_getStep_iff]
  simp [addTransition]

theorem retire_ok_iff {d d' : WorkflowDefinition} :
    d.retire = .ok d' ↔ d.status = .active ∧ { d with status := .retired } = d' := by
  simp [retire]

theorem activate_ok_iff {d d' : WorkflowDefinition} :
    d.activate = .ok d' ↔
      d.status = .draft ∧ d.findValidationIssues = [] ∧ { d with status := .active } = d' := by
  simp [activate, validateWorkflowGraph]

/-! ## What the loop finds -/

/-- A path of transitions. -/
abbrev Path (d : WorkflowDefinition) : String → String → Prop := Worklist.Path d.successors

theorem mem_successors_iff {d : WorkflowDefinition} {a b : String} :
    b ∈ d.successors a ↔ ∃ t ∈ d.transitions, t.fromStepKey = a ∧ t.toStepKey = b := by
  simp [successors, transitionsFrom, and_assoc]

theorem mem_reachableFrom_iff (d : WorkflowDefinition) (a b : String) :
    b ∈ d.reachableFrom a ↔ d.Path a b := by
  refine Worklist.mem_closure_iff (d.transitions.map (fun t => t.toStepKey)) ?_ (by simp) a b
  intro x y hy
  obtain ⟨t, ht, _, rfl⟩ := mem_successors_iff.mp hy
  exact List.mem_map.mpr ⟨t, ht, rfl⟩

theorem unreachableFrom_eq_nil_iff (d : WorkflowDefinition) (key : String) :
    d.unreachableFrom key = [] ↔ ∀ step ∈ d.steps, d.Path key step.key := by
  have hlen : d.unreachableFrom key = [] ↔
      (d.steps.map (fun step => step.key)).dedup.filter (fun k => k ∉ d.reachableFrom key) = [] := by
    rw [← List.length_eq_zero_iff, ← List.length_eq_zero_iff, unreachableFrom,
      List.length_insertionSort]
  rw [hlen, List.filter_eq_nil_iff]
  simp [mem_reachableFrom_iff]

/-- What `activate` has checked: one start step, an end step, and a path from the start step to
every step. -/
structure Validated (d : WorkflowDefinition) : Prop where
  initial : ∃ initial, d.steps.filter (fun step => step.isInitial) = [initial] ∧
    ∀ step ∈ d.steps, d.Path initial.key step.key
  terminal : ∃ step ∈ d.steps, step.isTerminal = true

/-- The issues are read off the graph alone. -/
theorem findValidationIssues_congr {d d' : WorkflowDefinition} (hs : d'.steps = d.steps)
    (ht : d'.transitions = d.transitions) : d'.findValidationIssues = d.findValidationIssues := by
  obtain ⟨_, _, _, _, _, _, steps, transitions⟩ := d
  obtain ⟨_, _, _, _, _, _, steps', transitions'⟩ := d'
  obtain rfl : steps' = steps := hs
  obtain rfl : transitions' = transitions := ht
  rfl

theorem findValidationIssues_eq_nil_iff (d : WorkflowDefinition) :
    d.findValidationIssues = [] ↔ d.Validated := by
  constructor
  · intro h
    unfold findValidationIssues at h
    split at h
    · simp at h
    · simp only [List.append_eq_nil_iff] at h
      obtain ⟨⟨hinit, hterm⟩, hreach⟩ := h
      refine ⟨?_, ?_⟩
      · rcases hs : d.steps.filter (fun step => step.isInitial) with - | ⟨initial, - | ⟨b, rest⟩⟩
        · simp [hs] at hinit
        · refine ⟨initial, hs, (unreachableFrom_eq_nil_iff d initial.key).mp ?_⟩
          by_contra hne
          simp [hs, hne] at hreach
        · simp [hs] at hinit
      · by_contra hne
        push Not at hne
        have hnil : d.steps.filter (fun step => step.isTerminal) = [] :=
          List.filter_eq_nil_iff.mpr fun s hs => by simpa using hne s hs
        simp [hnil] at hterm
  · rintro ⟨⟨initial, hinit, hreach⟩, step, hstep, hterm⟩
    have hne : d.steps ≠ [] := List.ne_nil_of_mem hstep
    have hmem : step ∈ d.steps.filter (fun s => s.isTerminal) := by simp [hstep, hterm]
    have hlen : (d.steps.filter (fun s => s.isTerminal)).length ≠ 0 := by
      intro h0
      simp [List.length_eq_zero_iff.mp h0] at hmem
    have hun : d.unreachableFrom initial.key = [] :=
      (unreachableFrom_eq_nil_iff d initial.key).mpr hreach
    simp [findValidationIssues, hne, hinit, hlen, hun]

end Orchestract.WorkflowDefinition
