import Orchestract.Workflow.Lifecycle

/-!
# Which steps runs reach, and which runs can complete

The validator follows every transition; an instance follows none out of an end step, unless
that step is the start step, on which `start` leaves it active. Both questions are settled by
the validator's own loop, on the graph without the transitions that no run can take.
-/

namespace Orchestract

set_option autoImplicit false

namespace WorkflowDefinition

/-- Without the transitions that leave an end step other than the start step. -/
def withoutEndExits (d : WorkflowDefinition) (startKey : String) : WorkflowDefinition :=
  { d with transitions := d.transitions.filter fun t =>
      t.fromStepKey = startKey ∨ ¬ WorkflowInstance.IsTerminal d t.fromStepKey }

/-- Some transition out of the step leads on to an end step. -/
def CanFinish (d : WorkflowDefinition) (key : String) : Prop :=
  ∃ t ∈ d.transitionsFrom key, ∃ k ∈ d.reachableFrom t.toStepKey, WorkflowInstance.IsTerminal d k

instance (d : WorkflowDefinition) (key : String) : Decidable (d.CanFinish key) :=
  inferInstanceAs (Decidable (∃ t ∈ d.transitionsFrom key, ∃ k ∈ d.reachableFrom t.toStepKey,
    WorkflowInstance.IsTerminal d k))

theorem canFinish_iff {d : WorkflowDefinition} {key : String} :
    d.CanFinish key ↔
      ∃ b, b ∈ d.successors key ∧ ∃ k, d.Path b k ∧ WorkflowInstance.IsTerminal d k := by
  constructor
  · rintro ⟨t, ht, k, hk, hterm⟩
    exact ⟨t.toStepKey, List.mem_map.mpr ⟨t, ht, rfl⟩, k, (mem_reachableFrom_iff d _ _).mp hk, hterm⟩
  · rintro ⟨b, hb, k, hk, hterm⟩
    obtain ⟨t, ht, rfl⟩ := List.mem_map.mp hb
    exact ⟨t, ht, k, (mem_reachableFrom_iff d _ _).mpr hk, hterm⟩

theorem mem_successors_withoutEndExits {d : WorkflowDefinition} {startKey a b : String} :
    b ∈ (d.withoutEndExits startKey).successors a ↔
      b ∈ d.successors a ∧ (a = startKey ∨ ¬ WorkflowInstance.IsTerminal d a) := by
  simp only [mem_successors_iff, withoutEndExits, List.mem_filter, decide_eq_true_eq]
  constructor
  · rintro ⟨t, ⟨ht, hlive⟩, rfl, rfl⟩
    exact ⟨⟨t, ht, rfl, rfl⟩, hlive⟩
  · rintro ⟨⟨t, ht, rfl, rfl⟩, hlive⟩
    exact ⟨t, ⟨ht, hlive⟩, rfl, rfl⟩

/-- In a well-formed graph every transition is found by its step and action. -/
theorem WellFormed.findTransition {d : WorkflowDefinition} (h : d.WellFormed)
    {t : WorkflowTransition} (ht : t ∈ d.transitions) :
    d.findTransition t.fromStepKey t.actionName = some t := by
  cases hf : d.findTransition t.fromStepKey t.actionName with
  | none =>
    have hmem : t ∈ d.transitionsFrom t.fromStepKey := by simp [transitionsFrom, ht]
    have hnone := List.find?_eq_none.mp hf t hmem
    simp at hnone
  | some u =>
    obtain ⟨hu, hfrom, haction⟩ := WorkflowInstance.findTransition_some hf
    by_contra hne
    have hut : u ≠ t := fun heq => hne (by rw [heq])
    have : Std.Symm fun t u : WorkflowTransition =>
        ¬ (t.fromStepKey = u.fromStepKey ∧ t.actionName = u.actionName) :=
      ⟨fun x y hxy hyx => hxy ⟨hyx.1.symm, hyx.2.symm⟩⟩
    exact h.actions.forall hu ht hut ⟨hfrom, haction⟩

end WorkflowDefinition

namespace WorkflowInstance

variable {definition : WorkflowDefinition}

/-- Successful calls lead from one state of the instance to the other. -/
def Leads (definition : WorkflowDefinition) (i j : WorkflowInstance) : Prop :=
  ∃ calls, Runs.Along (attempt definition) (fun i call => accepts definition i call = true) i calls ∧
    Runs.run (attempt definition) i calls = j

def CanComplete (definition : WorkflowDefinition) (i : WorkflowInstance) : Prop :=
  ∃ j, Leads definition i j ∧ j.status = .completed

theorem Leads.refl (i : WorkflowInstance) : Leads definition i i := ⟨[], trivial, rfl⟩

theorem Leads.trans {i j k : WorkflowInstance} (hij : Leads definition i j)
    (hjk : Leads definition j k) : Leads definition i k := by
  obtain ⟨calls, hcalls, rfl⟩ := hij
  obtain ⟨more, hmore, rfl⟩ := hjk
  exact ⟨calls ++ more, Runs.along_append.mpr ⟨hcalls, hmore⟩, Runs.run_append _ _ _ _⟩

theorem Leads.single {i : WorkflowInstance} {call : Call} (h : accepts definition i call = true) :
    Leads definition i (attempt definition i call) := ⟨[call], ⟨h, trivial⟩, rfl⟩

/-- Where an accepted call leads: along a transition, to a state whose status is that of the
step. -/
structure Entered (definition : WorkflowDefinition) (a b : String) (j : WorkflowInstance) : Prop where
  edge : b ∈ definition.successors a
  current : j.currentStepKey = b
  status : j.status = .completed ↔ IsTerminal definition b

theorem entered_of_accepts {i : WorkflowInstance} {call : Call}
    (h : accepts definition i call = true) :
    i.status = .active ∧ ∃ b, Entered definition i.currentStepKey b (attempt definition i call) := by
  rcases attempt_cases definition i call with ⟨hn, _⟩ | ⟨_, ha, t, ht, target, htarget, heq⟩
  · simp [h] at hn
  · obtain ⟨htm, hfrom, _⟩ := findTransition_some ht
    have hkey := (WorkflowDefinition.getStep_ok htarget).2
    refine ⟨ha, target.key, ?_, by rw [heq]; rfl, ?_⟩
    · exact WorkflowDefinition.mem_successors_iff.mpr ⟨t, htm, hfrom, hkey.symm⟩
    · rw [heq, hkey, isTerminal_getStep_iff htarget]
      by_cases hterm : target.isTerminal = true <;> simp [moved, hterm]

/-- An active instance can take every transition that leaves its step. -/
theorem exists_entered (hw : definition.WellFormed) {i : WorkflowInstance}
    (ha : i.status = .active) {b : String} (hb : b ∈ definition.successors i.currentStepKey) :
    ∃ j, Leads definition i j ∧ Entered definition i.currentStepKey b j := by
  obtain ⟨t, ht, hfrom, rfl⟩ := WorkflowDefinition.mem_successors_iff.mp hb
  obtain ⟨target, htarget⟩ := WorkflowDefinition.exists_getStep_iff.mpr (hw.endpoints t ht).2
  let call : Call := ⟨t.actionName, "", none, 0⟩
  have hres : call.result definition i = .ok (moved i target call) :=
    result_ok_iff.mpr ⟨ha, t, hfrom ▸ hw.findTransition ht, target, htarget, rfl⟩
  have hacc : accepts definition i call = true := by simp [accepts, hres, Except.isOk, Except.toBool]
  obtain ⟨_, c, hc⟩ := entered_of_accepts hacc
  refine ⟨attempt definition i call, Leads.single hacc, ?_⟩
  have hcur : (attempt definition i call).currentStepKey = t.toStepKey := by
    simp [attempt, hres, moved, (WorkflowDefinition.getStep_ok htarget).2]
  have hcb : c = t.toStepKey := hc.current.symm.trans hcur
  exact hcb ▸ hc

section Started

variable {contractId now : Nat} {actor : String} {first : WorkflowInstance} {initial : WorkflowStep}

/-- The steps some run can be on, found by the validator's loop. -/
def Live (definition : WorkflowDefinition) (startKey key : String) : Prop :=
  key ∈ (definition.withoutEndExits startKey).reachableFrom startKey

/-- What holds in every state of a run: the step is live, and the run has completed on an end
step unless it never moved. -/
structure Placed (definition : WorkflowDefinition) (startKey : String) (i : WorkflowInstance) :
    Prop where
  live : Live definition startKey i.currentStepKey
  active : i.status = .active → i.currentStepKey = startKey ∨ ¬ IsTerminal definition i.currentStepKey

theorem live_next {startKey a b : String} (ha : Live definition startKey a)
    (hlive : a = startKey ∨ ¬ IsTerminal definition a) (hb : b ∈ definition.successors a) :
    Live definition startKey b := by
  unfold Live at ha ⊢
  rw [WorkflowDefinition.mem_reachableFrom_iff] at ha ⊢
  exact ha.tail (WorkflowDefinition.mem_successors_withoutEndExits.mpr ⟨hb, hlive⟩)

theorem placed_attempt {startKey : String} {i : WorkflowInstance} (call : Call)
    (h : Placed definition startKey i) : Placed definition startKey (attempt definition i call) := by
  by_cases hacc : accepts definition i call = true
  · obtain ⟨ha, b, hb⟩ := entered_of_accepts hacc
    refine ⟨?_, fun hactive => Or.inr ?_⟩
    · rw [hb.current]
      exact live_next h.live (h.active ha) hb.edge
    · rw [hb.current]
      exact fun hterm => by simp [hb.status.mpr hterm] at hactive
  · rcases attempt_cases definition i call with ⟨_, heq⟩ | ⟨hy, _⟩
    · rwa [heq]
    · exact absurd hy hacc

theorem placed_start (hstart : start contractId definition actor now = .ok first)
    (hinit : definition.initialStep = .ok initial) : Placed definition initial.key first := by
  obtain ⟨_, found, hfound, rfl⟩ := start_ok_iff.mp hstart
  have heq : found = initial := by simpa [WorkflowDefinition.initialStep, hfound] using hinit
  subst heq
  refine ⟨?_, fun _ => Or.inl rfl⟩
  unfold Live
  rw [WorkflowDefinition.mem_reachableFrom_iff]

theorem placed_run (hstart : start contractId definition actor now = .ok first)
    (hinit : definition.initialStep = .ok initial) (calls : List Call) :
    Placed definition initial.key (Runs.run (attempt definition) first calls) :=
  Runs.run_invariant (fun _ call h => placed_attempt call h) (placed_start hstart hinit) calls

/-- Every live step is reached, and is reached active if it is the start step or no end step. -/
theorem reached_of_live (hw : definition.WellFormed)
    (hstart : start contractId definition actor now = .ok first)
    (hinit : definition.initialStep = .ok initial) {key : String}
    (hlive : Live definition initial.key key) :
    ∃ j, Leads definition first j ∧ j.currentStepKey = key ∧
      (key = initial.key ∨ ¬ IsTerminal definition key → j.status = .active) := by
  have hfirst : first.currentStepKey = initial.key ∧ first.status = .active := by
    obtain ⟨_, found, hfound, rfl⟩ := start_ok_iff.mp hstart
    have heq : found = initial := by simpa [WorkflowDefinition.initialStep, hfound] using hinit
    exact ⟨by rw [heq], rfl⟩
  unfold Live at hlive
  rw [WorkflowDefinition.mem_reachableFrom_iff] at hlive
  induction hlive with
  | refl => exact ⟨first, Leads.refl first, hfirst.1, fun _ => hfirst.2⟩
  | @tail b c _ hbc ih =>
    obtain ⟨j, hj, hcur, hactive⟩ := ih
    obtain ⟨hedge, hb⟩ := WorkflowDefinition.mem_successors_withoutEndExits.mp hbc
    by_cases hc : c = initial.key
    · exact ⟨first, Leads.refl first, by rw [hfirst.1, hc], fun _ => hfirst.2⟩
    · rw [← hcur] at hedge
      obtain ⟨k, hk, hent⟩ := exists_entered hw (hactive hb) hedge
      refine ⟨k, hj.trans hk, hent.current, fun hor => ?_⟩
      have hnt : ¬ IsTerminal definition c := hor.resolve_left hc
      cases hs : k.status with
      | active => rfl
      | completed => exact absurd (hent.status.mp hs) hnt

/-- Static reachability against the running state machine: every run stays on steps that the
validator's loop finds, and runs reach every step exactly when the loop still finds them all
after the transitions out of end steps, the start step's apart, are dropped. -/
theorem steps_reached_iff (hb : definition.Built)
    (hstart : start contractId definition actor now = .ok first)
    (hinit : definition.initialStep = .ok initial) :
    (∀ calls, (Runs.run (attempt definition) first calls).currentStepKey ∈
        definition.reachableFrom initial.key) ∧
    ((∀ step ∈ definition.steps, ∃ j, Leads definition first j ∧ j.currentStepKey = step.key) ↔
      ∀ step ∈ definition.steps,
        step.key ∈ (definition.withoutEndExits initial.key).reachableFrom initial.key) := by
  have hplaced := placed_run hstart hinit
  refine ⟨fun calls => ?_, ?_, ?_⟩
  · have hlive := (hplaced calls).live
    unfold Live at hlive
    rw [WorkflowDefinition.mem_reachableFrom_iff] at hlive ⊢
    exact Relation.ReflTransGen.mono
      (fun a b hab => (WorkflowDefinition.mem_successors_withoutEndExits.mp hab).1) _ _ hlive
  · intro h step hstep
    obtain ⟨j, ⟨calls, _, rfl⟩, hcur⟩ := h step hstep
    rw [← hcur]
    exact (hplaced calls).live
  · intro h step hstep
    obtain ⟨j, hj, hcur, _⟩ := reached_of_live hb.sound.wellFormed hstart hinit (h step hstep)
    exact ⟨j, hj, hcur⟩

/-- An active instance with a transition towards an end step can be completed. -/
theorem canComplete_of_path (hw : definition.WellFormed) {b k : String} (hpath : definition.Path b k)
    (hterm : IsTerminal definition k) {i : WorkflowInstance} (ha : i.status = .active)
    (hb : b ∈ definition.successors i.currentStepKey) : CanComplete definition i := by
  induction hpath using Relation.ReflTransGen.head_induction_on generalizing i with
  | refl =>
    obtain ⟨j, hj, hent⟩ := exists_entered hw ha hb
    exact ⟨j, hj, hent.status.mpr hterm⟩
  | @head b c hbc _ ih =>
    obtain ⟨j, hj, hent⟩ := exists_entered hw ha hb
    cases hs : j.status with
    | completed => exact ⟨j, hj, hs⟩
    | active =>
      obtain ⟨l, hl, hdone⟩ := ih hs (hent.current.symm ▸ hbc)
      exact ⟨l, hj.trans hl, hdone⟩

/-- A run that completes an active instance follows a path to an end step. -/
theorem canFinish_of_run {i : WorkflowInstance} {calls : List Call} (ha : i.status = .active)
    (hacc : Runs.Along (attempt definition) (fun i call => accepts definition i call = true) i calls)
    (hdone : (Runs.run (attempt definition) i calls).status = .completed) :
    definition.CanFinish i.currentStepKey := by
  rw [WorkflowDefinition.canFinish_iff]
  induction calls generalizing i with
  | nil => simp [ha] at hdone
  | cons call calls ih =>
    obtain ⟨_, b, hent⟩ := entered_of_accepts hacc.1
    refine ⟨b, hent.edge, ?_⟩
    cases hs : (attempt definition i call).status with
    | completed => exact ⟨b, .refl, hent.status.mp hs⟩
    | active =>
      obtain ⟨c, hbc, k, hck, hterm⟩ := ih hs hacc.2 hdone
      rw [hent.current] at hbc
      exact ⟨k, .head hbc hck, hterm⟩

theorem availableActions_ne_nil {i : WorkflowInstance} (ha : i.status = .active)
    (hf : definition.CanFinish i.currentStepKey) : i.availableActions definition ≠ [] := by
  obtain ⟨t, ht, _⟩ := hf
  simp only [availableActions, ha, ne_eq, not_true_eq_false, ite_false]
  exact List.ne_nil_of_mem ht

/-- No contract gets stuck exactly when an end step lies ahead of the start step and of every
step a run can be on that is not an end step. -/
theorem never_stuck_iff (hb : definition.Built)
    (hstart : start contractId definition actor now = .ok first)
    (hinit : definition.initialStep = .ok initial) :
    (∀ i, Leads definition first i → i.status = .active →
        CanComplete definition i ∧ i.availableActions definition ≠ []) ↔
      ∀ key, key ∈ (definition.withoutEndExits initial.key).reachableFrom initial.key →
        (key = initial.key ∨ ¬ IsTerminal definition key) → definition.CanFinish key := by
  have hw := hb.sound.wellFormed
  constructor
  · intro h key hlive hor
    obtain ⟨i, hi, rfl, hactive⟩ := reached_of_live hw hstart hinit hlive
    obtain ⟨⟨j, ⟨calls, hacc, rfl⟩, hdone⟩, _⟩ := h i hi (hactive hor)
    exact canFinish_of_run (hactive hor) hacc hdone
  · rintro h i ⟨calls, _, rfl⟩ ha
    have hplaced := placed_run hstart hinit calls
    have hf := h _ hplaced.live (hplaced.active ha)
    obtain ⟨b, hedge, k, hpath, hterm⟩ := WorkflowDefinition.canFinish_iff.mp hf
    exact ⟨canComplete_of_path hw hpath hterm ha hedge, availableActions_ne_nil ha hf⟩

end Started

theorem steps_reached_linear :
    start 1 .linear "alice" 0 = .ok (started .linear "draft") ∧
      ∀ step ∈ WorkflowDefinition.linear.steps, ∃ j,
        Leads .linear (started .linear "draft") j ∧ j.currentStepKey = step.key := by
  have hstart : start 1 .linear "alice" 0 = .ok (started .linear "draft") := by decide
  have hinit : WorkflowDefinition.linear.initialStep =
    .ok ⟨"draft", "Draft", none, 1, true, false⟩ := by decide
  exact ⟨hstart, (steps_reached_iff (WorkflowDefinition.built_madeBy _) hstart hinit).2.mpr (by decide)⟩

/-- An end step with an exit: `audit` can only be entered from `sign`. -/
def exitFromEnd : WorkflowDefinition := .madeBy [
  .addStep ⟨"draft", "Draft", none, 1, true, false⟩,
  .addStep ⟨"sign", "Sign", none, 1, false, true⟩,
  .addStep ⟨"audit", "Audit", none, 1, false, true⟩,
  .addTransition ⟨"draft", "sign", "approve", none⟩,
  .addTransition ⟨"sign", "audit", "audit", none⟩,
  .activate]

theorem audit_not_reached :
    exitFromEnd.Built ∧ start 1 exitFromEnd "alice" 0 = .ok (started exitFromEnd "draft") ∧
      (∃ step ∈ exitFromEnd.steps, step.key = "audit") ∧
      ¬ ∃ j, Leads exitFromEnd (started exitFromEnd "draft") j ∧ j.currentStepKey = "audit" := by
  have hstart : start 1 exitFromEnd "alice" 0 = .ok (started exitFromEnd "draft") := by decide
  have hinit : exitFromEnd.initialStep = .ok ⟨"draft", "Draft", none, 1, true, false⟩ := by decide
  refine ⟨WorkflowDefinition.built_madeBy _, hstart, by decide, ?_⟩
  rintro ⟨j, ⟨calls, _, rfl⟩, hcur⟩
  have hplaced := placed_run hstart hinit calls
  have hlive := hplaced.live
  rw [hcur] at hlive
  exact absurd hlive (by unfold Live; decide)

theorem never_stuck_linear :
    start 1 .linear "alice" 0 = .ok (started .linear "draft") ∧
      ∀ i, Leads .linear (started .linear "draft") i → i.status = .active →
        CanComplete .linear i ∧ i.availableActions .linear ≠ [] := by
  have hstart : start 1 .linear "alice" 0 = .ok (started .linear "draft") := by decide
  have hinit : WorkflowDefinition.linear.initialStep =
    .ok ⟨"draft", "Draft", none, 1, true, false⟩ := by decide
  exact ⟨hstart, (never_stuck_iff (WorkflowDefinition.built_madeBy _) hstart hinit).mpr (by decide)⟩

/-- A dead end: nothing leaves `parked`, which is not an end step. -/
def deadEnd : WorkflowDefinition := .madeBy [
  .addStep ⟨"draft", "Draft", none, 1, true, false⟩,
  .addStep ⟨"parked", "Parked", none, 1, false, false⟩,
  .addStep ⟨"sign", "Sign", none, 1, false, true⟩,
  .addTransition ⟨"draft", "parked", "park", none⟩,
  .addTransition ⟨"draft", "sign", "approve", none⟩,
  .activate]

theorem stuck_deadEnd :
    let i := attempt deadEnd (started deadEnd "draft") ⟨"park", "alice", none, 1⟩
    deadEnd.Built ∧ start 1 deadEnd "alice" 0 = .ok (started deadEnd "draft") ∧
      Leads deadEnd (started deadEnd "draft") i ∧ i.status = .active ∧
      ¬ CanComplete deadEnd i ∧ i.availableActions deadEnd = [] := by
  intro i
  have ha : i.status = .active := by decide
  refine ⟨WorkflowDefinition.built_madeBy _, by decide, Leads.single (by decide), ha, ?_, by decide⟩
  rintro ⟨j, ⟨calls, hacc, rfl⟩, hdone⟩
  have hf : deadEnd.CanFinish i.currentStepKey := canFinish_of_run ha hacc hdone
  exact absurd hf (by decide)

end WorkflowInstance

end Orchestract
