import Orchestract.Workflow.Position
import Orchestract.Workflow.Progress

/-!
# Offered actions

`available_actions` lists what the page shows, `apply_transition` looks the action up again. Over a
graph that was built with the guarded methods both agree, and a rejected action leaves the instance
as it was.
-/

namespace Orchestract

set_option autoImplicit false

namespace WorkflowDefinition

variable {d : WorkflowDefinition}

/-- The actions that leave one step have different names. -/
theorem WellFormed.actions_nodup (h : d.WellFormed) (key : String) :
    ((d.transitionsFrom key).map (fun t => t.actionName)).Nodup := by
  rw [List.Nodup, List.pairwise_map]
  refine (h.actions.filter _).imp_of_mem ?_
  intro t u ht hu hne heq
  have hfrom : t.fromStepKey = key := by simpa using (List.mem_filter.mp ht).2
  have hfrom' : u.fromStepKey = key := by simpa using (List.mem_filter.mp hu).2
  exact hne ⟨hfrom.trans hfrom'.symm, heq⟩

/-- A transition leads to a step that the lookup finds. -/
theorem WellFormed.target (h : d.WellFormed) {t : WorkflowTransition} (ht : t ∈ d.transitions) :
    ∃ step, d.getStep t.toStepKey = .ok step :=
  exists_getStep_iff.mpr (h.endpoints t ht).2

theorem mem_transitionsFrom_iff {t : WorkflowTransition} {key : String} :
    t ∈ d.transitionsFrom key ↔ t ∈ d.transitions ∧ t.fromStepKey = key := by
  simp [transitionsFrom]

end WorkflowDefinition

namespace WorkflowInstance

/-- Statements over an instance: a raise ends them, and leaves what was assigned before. -/
abbrev Statements : Type → Type := ExceptT DomainError (StateM WorkflowInstance)

/-- `apply_transition` statement by statement. -/
def applyInPlace (definition : WorkflowDefinition) (call : Call) : Statements Unit := do
  let i ← get
  if i.status ≠ .active then
    throw (.workflowAlreadyCompleted i.id)
  let transition ← liftExcept (orRaise (DomainError.invalidTransition i.currentStepKey call.actionName)
    (definition.findTransition i.currentStepKey call.actionName))
  let targetStep ← liftExcept (definition.getStep transition.toStepKey)
  modify fun i => { i with
    history := i.history ++ [⟨some i.currentStepKey, targetStep.key, some call.actionName,
      call.actor, call.comment, call.now⟩] }
  modify fun i => { i with currentStepKey := targetStep.key }
  if targetStep.isTerminal then
    modify fun i => { i with status := .completed }
    modify fun i => { i with completedAt := some call.now }

variable {α β : Type} {definition : WorkflowDefinition}

/-- How the statements end, and the instance they leave. -/
def Statements.outcome (m : Statements α) (i : WorkflowInstance) :
    Except DomainError α × WorkflowInstance := m.run.run i

@[simp] theorem outcome_pure (a : α) (i : WorkflowInstance) :
    (pure a : Statements α).outcome i = (.ok a, i) := rfl

@[simp] theorem outcome_throw (e : DomainError) (i : WorkflowInstance) :
    (throw e : Statements α).outcome i = (.error e, i) := rfl

@[simp] theorem outcome_throw_bind (e : DomainError) (f : α → Statements β) (i : WorkflowInstance) :
    (throw e >>= f).outcome i = (.error e, i) := rfl

@[simp] theorem outcome_get (f : WorkflowInstance → Statements α) (i : WorkflowInstance) :
    (get >>= f).outcome i = (f i).outcome i := rfl

@[simp] theorem outcome_modify (g : WorkflowInstance → WorkflowInstance) (i : WorkflowInstance) :
    (modify g : Statements Unit).outcome i = (.ok (), g i) := rfl

@[simp] theorem outcome_modify_bind (g : WorkflowInstance → WorkflowInstance)
    (f : Unit → Statements α) (i : WorkflowInstance) :
    (modify g >>= f).outcome i = (f ()).outcome (g i) := rfl

theorem outcome_liftExcept (x : Except DomainError α) (f : α → Statements β) (i : WorkflowInstance) :
    (liftExcept x >>= f).outcome i =
      match x with
      | .ok a => (f a).outcome i
      | .error e => (.error e, i) := by
  cases x <;> rfl

theorem applyInPlace_ok {i i' : WorkflowInstance} {call : Call}
    (h : call.result definition i = .ok i') :
    (applyInPlace definition call).outcome i = (.ok (), i') := by
  obtain ⟨ha, t, ht, target, htarget, rfl⟩ := result_ok_iff.mp h
  by_cases hend : target.isTerminal = true
  · simp [applyInPlace, outcome_liftExcept, ha, ht, htarget, hend, moved, orRaise]
  · simp [applyInPlace, outcome_liftExcept, ha, ht, htarget, hend, moved, orRaise]

/-- The three ways in which `apply_transition` raises. -/
theorem result_error {i : WorkflowInstance} {call : Call} {e : DomainError}
    (h : call.result definition i = .error e) :
    (i.status ≠ .active ∧ e = .workflowAlreadyCompleted i.id) ∨
    (i.status = .active ∧ definition.findTransition i.currentStepKey call.actionName = none ∧
      e = .invalidTransition i.currentStepKey call.actionName) ∨
    (i.status = .active ∧ ∃ t, definition.findTransition i.currentStepKey call.actionName = some t ∧
      definition.getStep t.toStepKey = .error e) := by
  by_cases ha : i.status = .active
  · cases ht : definition.findTransition i.currentStepKey call.actionName with
    | none =>
      simp [Call.result, applyTransition, ha, ht, raiseIf, orRaise, bind, Except.bind] at h
      exact Or.inr (Or.inl ⟨ha, rfl, h.symm⟩)
    | some t =>
      rcases ok_or_error (definition.getStep t.toStepKey) with ⟨target, htarget⟩ | ⟨e', htarget⟩
      · have hok := result_ok_iff.mpr ⟨ha, t, ht, target, htarget, rfl⟩
        cases h.symm.trans hok
      · simp [Call.result, applyTransition, ha, ht, htarget, raiseIf, orRaise, bind, Except.bind] at h
        exact Or.inr (Or.inr ⟨ha, t, rfl, h ▸ htarget⟩)
  · simp [Call.result, applyTransition, ha, raiseIf, bind, Except.bind] at h
    exact Or.inl ⟨ha, h.symm⟩

/-- A raise comes before the first assignment. -/
theorem applyInPlace_error {i : WorkflowInstance} {call : Call} {e : DomainError}
    (h : call.result definition i = .error e) :
    (applyInPlace definition call).outcome i = (.error e, i) := by
  rcases result_error h with ⟨ha, rfl⟩ | ⟨ha, ht, rfl⟩ | ⟨ha, t, ht, htarget⟩
  · simp [applyInPlace, ha]
  · simp [applyInPlace, outcome_liftExcept, ha, ht, orRaise]
  · simp [applyInPlace, outcome_liftExcept, ha, ht, htarget, orRaise]

theorem mem_availableActions_iff {i : WorkflowInstance} {t : WorkflowTransition} :
    t ∈ i.availableActions definition ↔
      i.status = .active ∧ t ∈ definition.transitions ∧ t.fromStepKey = i.currentStepKey := by
  rw [← WorkflowDefinition.mem_transitionsFrom_iff]
  by_cases ha : i.status = .active
  · simp [availableActions, ha]
  · simp [availableActions, ha]

theorem availableActions_nodup (h : definition.WellFormed) (i : WorkflowInstance) :
    ((i.availableActions definition).map (fun t => t.actionName)).Nodup := by
  unfold availableActions
  split
  · exact List.nodup_nil
  · exact h.actions_nodup i.currentStepKey

/-- Offered under this name. -/
def Offered (definition : WorkflowDefinition) (i : WorkflowInstance) (actionName : String)
    (t : WorkflowTransition) : Prop :=
  t ∈ i.availableActions definition ∧ t.actionName = actionName

/-- A call is accepted when its action is offered, and follows the transition that is offered. -/
theorem accepted_iff_offered (h : definition.WellFormed) {i i' : WorkflowInstance} {call : Call} :
    call.result definition i = .ok i' ↔ ∃ t, Offered definition i call.actionName t ∧
      ∃ target, definition.getStep t.toStepKey = .ok target ∧ moved i target call = i' := by
  rw [result_ok_iff]
  constructor
  · intro ⟨ha, t, ht, hmoved⟩
    obtain ⟨htm, hfrom, haction⟩ := findTransition_some ht
    exact ⟨t, ⟨mem_availableActions_iff.mpr ⟨ha, htm, hfrom⟩, haction⟩, hmoved⟩
  · intro ⟨t, ⟨ht, haction⟩, hmoved⟩
    obtain ⟨ha, htm, hfrom⟩ := mem_availableActions_iff.mp ht
    refine ⟨ha, t, ?_, hmoved⟩
    rw [← hfrom, ← haction]
    exact h.findTransition htm

/-- Over a well-formed graph the target of a transition is always found. -/
theorem result_known (h : definition.WellFormed) {i : WorkflowInstance} {call : Call} (key : String) :
    call.result definition i ≠ .error (.unknownStep key) := by
  intro herror
  rcases result_error herror with ⟨_, heq⟩ | ⟨_, _, heq⟩ | ⟨_, t, ht, hstep⟩
  · cases heq
  · cases heq
  · obtain ⟨htm, _, _⟩ := findTransition_some ht
    obtain ⟨target, hfound⟩ := h.target htm
    cases hstep.symm.trans hfound

theorem Offered.unique (h : definition.WellFormed) {i : WorkflowInstance} {actionName : String}
    {t u : WorkflowTransition} (ht : Offered definition i actionName t)
    (hu : Offered definition i actionName u) : u = t :=
  List.inj_on_of_nodup_map (availableActions_nodup h i) hu.1 ht.1 (hu.2.trans ht.2.symm)

/-- On every instance of a definition that was built with its methods: the offered names are
distinct, an action is accepted exactly when it is offered, and then by one transition only, which
leads to the new current step; no step lookup fails, and an action that is not accepted changes
nothing. -/
theorem offers_exact {d : WorkflowDefinition}
    (hbuilt : WorkflowDefinition.Built { d with id := 0 }) (i : WorkflowInstance) :
    ((i.availableActions d).map (fun t => t.actionName)).Nodup ∧
    ∀ call : Call,
      let outcome := (applyInPlace d call).outcome i
      (outcome.1 = .ok () ↔ ∃ t ∈ i.availableActions d, t.actionName = call.actionName) ∧
      (outcome.1 = .ok () → ∃! t, t ∈ i.availableActions d ∧ t.actionName = call.actionName) ∧
      (∀ t ∈ i.availableActions d, t.actionName = call.actionName →
        outcome.2.currentStepKey = t.toStepKey) ∧
      (∀ key, outcome.1 ≠ .error (.unknownStep key)) ∧
      ∀ e, outcome.1 = .error e → outcome.2 = i := by
  have hwf : d.WellFormed := hbuilt.sound.wellFormed.congr rfl rfl
  refine ⟨availableActions_nodup hwf i, fun call => ?_⟩
  intro outcome
  rcases ok_or_error (call.result d i) with ⟨i', hok⟩ | ⟨e, herror⟩
  · have hout : outcome = (.ok (), i') := applyInPlace_ok hok
    obtain ⟨t, ht, target, hstep, rfl⟩ := (accepted_iff_offered hwf).mp hok
    have hkey : (moved i target call).currentStepKey = t.toStepKey :=
      (WorkflowDefinition.getStep_ok hstep).2
    rw [hout]
    refine ⟨iff_of_true rfl ⟨t, ht⟩, fun _ => ⟨t, ht, fun u hu => ht.unique hwf hu⟩, ?_, nofun, nofun⟩
    intro u hu hname
    rw [ht.unique hwf ⟨hu, hname⟩]
    exact hkey
  · have hout : outcome = (.error e, i) := applyInPlace_error herror
    have hnone : ¬ ∃ t, Offered d i call.actionName t := by
      intro ⟨t, ht⟩
      obtain ⟨target, hstep⟩ := hwf.target (mem_availableActions_iff.mp ht.1).2.1
      cases herror.symm.trans ((accepted_iff_offered hwf).mpr ⟨t, ht, target, hstep, rfl⟩)
    rw [hout]
    refine ⟨iff_of_false nofun hnone, nofun, ?_, ?_, fun _ _ => rfl⟩
    · intro t ht hname
      exact absurd ⟨t, ht, hname⟩ hnone
    · intro key heq
      exact result_known hwf key (herror.trans (congrArg _ (Except.error.inj heq)))

/-- On the start step of the stored workflow one action is offered, and it is accepted. -/
theorem offers_exact_linear :
    let d : WorkflowDefinition := { WorkflowDefinition.linear with id := 7 }
    let i : WorkflowInstance := ⟨1, 1, 7, "draft", .active, 0, none, []⟩
    ((applyInPlace d ⟨"send_for_negotiation", "alice", none, 5⟩).outcome i).1 = .ok () := by
  intro d i
  have hbuilt : WorkflowDefinition.Built { d with id := 0 } := by
    have heq : ({ d with id := 0 } : WorkflowDefinition) = .linear := by decide
    rw [heq]
    exact WorkflowDefinition.built_madeBy _
  refine ((offers_exact hbuilt i).2 ⟨"send_for_negotiation", "alice", none, 5⟩).1.mpr ?_
  decide

end WorkflowInstance

end Orchestract
