import Mathlib.Data.List.Chain
import Orchestract.Domain.WorkflowInstance
import Orchestract.Library.Runs
import Orchestract.Workflow.Aggregate

/-!
# The life of an instance

A run is `start` followed by calls of `apply_transition`, accepted or rejected. The history is
the path the run took through the definition, and the status is `COMPLETED` on end steps, with
the exception of a start step that is itself an end step.
-/

namespace Orchestract.WorkflowInstance

set_option autoImplicit false

/-- The arguments of one call of `apply_transition`. -/
structure Call where
  actionName : String
  actor : String
  comment : Option String
  now : Nat
deriving DecidableEq, Repr

variable (definition : WorkflowDefinition)

def Call.result (i : WorkflowInstance) (call : Call) : Except DomainError WorkflowInstance :=
  i.applyTransition definition call.actionName call.actor call.comment call.now

/-- A rejected call leaves the instance as it was. -/
def attempt (i : WorkflowInstance) (call : Call) : WorkflowInstance :=
  match call.result definition i with
  | .ok i' => i'
  | .error _ => i

def accepts (i : WorkflowInstance) (call : Call) : Bool := (call.result definition i).isOk

/-- The number of accepted calls of a run. -/
def acceptedCount (i : WorkflowInstance) : List Call → Nat
  | [] => 0
  | call :: calls =>
    (if accepts definition i call then 1 else 0) + acceptedCount (attempt definition i call) calls

/-- What an accepted call writes. -/
def moved (i : WorkflowInstance) (target : WorkflowStep) (call : Call) : WorkflowInstance :=
  { i with
    currentStepKey := target.key
    status := if target.isTerminal then .completed else .active
    completedAt := if target.isTerminal then some call.now else i.completedAt
    history := i.history ++ [⟨some i.currentStepKey, target.key, some call.actionName, call.actor,
      call.comment, call.now⟩] }

variable {definition}

theorem result_ok_iff {i i' : WorkflowInstance} {call : Call} :
    call.result definition i = .ok i' ↔
      i.status = .active ∧ ∃ t, definition.findTransition i.currentStepKey call.actionName = some t ∧
        ∃ target, definition.getStep t.toStepKey = .ok target ∧ moved i target call = i' := by
  unfold Call.result applyTransition
  simp only [bind_ok_iff, raiseIf_ok_iff, orRaise_ok_iff, ne_eq, not_not, exists_const,
    moved]
  refine and_congr_right fun ha => exists_congr fun t => and_congr_right fun _ =>
    exists_congr fun target => and_congr_right fun _ => ?_
  by_cases ht : target.isTerminal = true <;> simp [ht, ha]

/-- A call is rejected, or it moves the instance along a transition of its definition. -/
theorem attempt_cases (definition : WorkflowDefinition) (i : WorkflowInstance) (call : Call) :
    (accepts definition i call = false ∧ attempt definition i call = i) ∨
    (accepts definition i call = true ∧ i.status = .active ∧
      ∃ t, definition.findTransition i.currentStepKey call.actionName = some t ∧
        ∃ target, definition.getStep t.toStepKey = .ok target ∧
          attempt definition i call = moved i target call) := by
  unfold accepts attempt
  rcases ok_or_error (call.result definition i) with ⟨i', h⟩ | ⟨e, h⟩
  · obtain ⟨ha, t, ht, target, htarget, hmoved⟩ := result_ok_iff.mp h
    exact Or.inr ⟨by simp [h, Except.isOk, Except.toBool], ha, t, ht, target, htarget, by simp [h, hmoved]⟩
  · exact Or.inl ⟨by simp [h, Except.isOk, Except.toBool], by simp [h]⟩

theorem start_ok_iff {contractId : Nat} {actor : String} {now : Nat} {i : WorkflowInstance} :
    start contractId definition actor now = .ok i ↔
      definition.status = .active ∧ ∃ initial,
        definition.steps.find? (fun step => step.isInitial) = some initial ∧
        ⟨0, contractId, definition.id, initial.key, .active, now, none,
          [⟨none, initial.key, none, actor, some "workflow started", now⟩]⟩ = i := by
  simp [start, WorkflowDefinition.initialStep]

theorem findTransition_some {stepKey actionName : String} {t : WorkflowTransition}
    (h : definition.findTransition stepKey actionName = some t) :
    t ∈ definition.transitions ∧ t.fromStepKey = stepKey ∧ t.actionName = actionName := by
  have hm := List.mem_of_find?_eq_some h
  have ha := List.find?_some h
  simp only [WorkflowDefinition.transitionsFrom, List.mem_filter, decide_eq_true_eq] at hm ha
  exact ⟨hm.1, hm.2, ha⟩

/-! ## The history is a path -/

/-- The entry records a transition of the definition. -/
def Records (definition : WorkflowDefinition) (e : WorkflowHistoryEntry) : Prop :=
  ∃ t ∈ definition.transitions,
    e.fromStepKey = some t.fromStepKey ∧ e.actionName = some t.actionName ∧ e.toStepKey = t.toStepKey

/-- Each entry leaves the step the one before it entered. -/
def Chained (history : List WorkflowHistoryEntry) : Prop :=
  history.IsChain fun e e' => e'.fromStepKey = some e.toStepKey

instance (history : List WorkflowHistoryEntry) : Decidable (Chained history) :=
  inferInstanceAs (Decidable (history.IsChain fun e e' => e'.fromStepKey = some e.toStepKey))

/-- The history starts at the start step, follows transitions and ends at the current step. -/
structure FaithfulPath (definition : WorkflowDefinition) (i : WorkflowInstance) : Prop where
  started : ∃ initial first, definition.initialStep = .ok initial ∧ i.history.head? = some first ∧
    first.fromStepKey = none ∧ first.toStepKey = initial.key ∧ first.actionName = none
  chained : Chained i.history
  recorded : ∀ e ∈ i.history.tail, Records definition e
  current : i.history.getLast?.map (fun e => e.toStepKey) = some i.currentStepKey

theorem FaithfulPath.ne_nil {i : WorkflowInstance} (h : FaithfulPath definition i) :
    i.history ≠ [] := by
  obtain ⟨_, first, _, hf, _⟩ := h.started
  intro hn
  simp [hn] at hf

theorem faithfulPath_start {contractId : Nat} {actor : String} {now : Nat} {i : WorkflowInstance}
    (h : start contractId definition actor now = .ok i) : FaithfulPath definition i := by
  obtain ⟨_, initial, hinit, rfl⟩ := start_ok_iff.mp h
  refine ⟨⟨initial, _, ?_, rfl, rfl, rfl, rfl⟩, List.isChain_singleton _, by simp, by simp⟩
  simp [WorkflowDefinition.initialStep, hinit]

theorem faithfulPath_attempt {i : WorkflowInstance} (call : Call) (h : FaithfulPath definition i) :
    FaithfulPath definition (attempt definition i call) := by
  rcases attempt_cases definition i call with ⟨_, heq⟩ | ⟨_, _, t, ht, target, htarget, heq⟩
  · rwa [heq]
  · rw [heq]
    obtain ⟨htm, hfrom, haction⟩ := findTransition_some ht
    have hkey := (WorkflowDefinition.getStep_ok htarget).2
    have hne := h.ne_nil
    refine ⟨?_, ?_, ?_, by simp [moved]⟩
    · obtain ⟨initial, first, hinit, hf, hrest⟩ := h.started
      exact ⟨initial, first, hinit, by simp [moved, List.head?_append, hf], hrest⟩
    · unfold Chained
      simp only [moved]
      rw [List.isChain_append]
      refine ⟨h.chained, List.isChain_singleton _, ?_⟩
      intro e he e' he'
      simp only [List.head?_cons, Option.mem_def, Option.some.injEq] at he'
      subst he'
      have hcur := h.current
      rw [Option.mem_def.mp he] at hcur
      simpa using hcur.symm
    · intro e he
      simp only [moved] at he
      rw [List.tail_append_of_ne_nil hne] at he
      rcases List.mem_append.mp he with he | he
      · exact h.recorded e he
      · rw [List.mem_singleton.mp he]
        exact ⟨t, htm, by rw [hfrom], by rw [haction], hkey⟩

/-- Later calls only append to the history. -/
theorem history_prefix (i : WorkflowInstance) (calls : List Call) :
    i.history <+: (Runs.run (attempt definition) i calls).history := by
  refine Runs.run_relates (R := fun a b : WorkflowInstance => a.history <+: b.history)
    (fun _ => List.prefix_rfl) List.IsPrefix.trans (fun a call => ?_) i calls
  rcases attempt_cases definition a call with ⟨_, heq⟩ | ⟨_, _, _, _, target, _, heq⟩
  · exact heq.symm ▸ List.prefix_rfl
  · exact heq.symm ▸ List.prefix_append _ _

theorem history_length (definition : WorkflowDefinition) (i : WorkflowInstance) (calls : List Call) :
    (Runs.run (attempt definition) i calls).history.length =
      i.history.length + acceptedCount definition i calls := by
  induction calls generalizing i with
  | nil => rfl
  | cons call calls ih =>
    rw [Runs.run_cons, ih, acceptedCount]
    rcases attempt_cases definition i call with ⟨ha, heq⟩ | ⟨ha, _, _, _, _, _, heq⟩
    · simp [ha, heq]
    · simp only [ha, heq, moved, List.length_append, List.length_singleton, ite_true]
      omega

/-- A completed instance rejects every call. -/
theorem run_of_completed {i : WorkflowInstance} (h : i.status = .completed) (calls : List Call) :
    Runs.run (attempt definition) i calls = i := by
  refine Runs.run_invariant (I := fun a => a = i) ?_ rfl calls
  rintro a call rfl
  rcases attempt_cases definition a call with ⟨_, heq⟩ | ⟨_, ha, _⟩
  · exact heq
  · simp [h] at ha

/-- The audit history of every run is a faithful path, counts the accepted calls, is only
appended to, and is final once the instance has completed. `start` has checked that the
definition was activated. -/
theorem history_faithful {contractId : Nat} {actor : String} {now : Nat} {first : WorkflowInstance}
    (hstart : start contractId definition actor now = .ok first) (calls : List Call) :
    let i := Runs.run (attempt definition) first calls
    FaithfulPath definition i ∧
      i.history.length = 1 + acceptedCount definition first calls ∧
      (∀ more, i.history <+: (Runs.run (attempt definition) i more).history) ∧
      (i.status = .completed → ∀ more,
        (Runs.run (attempt definition) i more).history = i.history) := by
  intro i
  refine ⟨?_, ?_, fun more => history_prefix i more, fun hc more => by rw [run_of_completed hc more]⟩
  · exact Runs.run_invariant (fun _ call h => faithfulPath_attempt call h) (faithfulPath_start hstart)
      calls
  · have hlen := history_length definition first calls
    obtain ⟨_, _, _, rfl⟩ := start_ok_iff.mp hstart
    exact hlen

/-- An instance as `start` makes it. -/
def started (definition : WorkflowDefinition) (key : String) : WorkflowInstance :=
  ⟨0, 1, definition.id, key, .active, 0, none, [⟨none, key, none, "alice", some "workflow started", 0⟩]⟩

theorem history_faithful_linear :
    let calls : List Call := [⟨"approve", "bob", none, 1⟩, ⟨"send_for_negotiation", "bob", none, 2⟩]
    let i := Runs.run (attempt .linear) (started .linear "draft") calls
    FaithfulPath .linear i ∧ i.history.length = 2 := by
  intro calls i
  have hstart : start 1 .linear "alice" 0 = .ok (started .linear "draft") := by decide
  obtain ⟨hpath, hlen, _⟩ := history_faithful hstart calls
  exact ⟨hpath, hlen.trans (by decide)⟩

/-! ## The status -/

/-- The status, the step and the completion time agree. -/
def StatusAgrees (definition : WorkflowDefinition) (i : WorkflowInstance) : Prop :=
  (i.status = .completed ↔ IsTerminal definition i.currentStepKey) ∧
    (i.status = .completed ↔ i.completedAt.isSome = true)

theorem isTerminal_getStep_iff {key : String} {step : WorkflowStep}
    (h : definition.getStep key = .ok step) :
    IsTerminal definition key ↔ step.isTerminal = true := by
  constructor
  · rintro ⟨found, hf, ht⟩
    rw [h] at hf
    rw [Except.ok.inj hf]
    exact ht
  · exact fun ht => ⟨step, h, ht⟩

theorem statusAgrees_moved {i : WorkflowInstance} {key : String} {target : WorkflowStep}
    (call : Call) (h : definition.getStep key = .ok target) (hi : i.completedAt = none) :
    StatusAgrees definition (moved i target call) := by
  have hkey := (WorkflowDefinition.getStep_ok h).2
  have hterm : IsTerminal definition (moved i target call).currentStepKey ↔
      target.isTerminal = true := by
    simp only [moved, hkey]
    exact isTerminal_getStep_iff h
  unfold StatusAgrees
  rw [hterm]
  by_cases ht : target.isTerminal = true <;> simp [moved, ht, hi]

theorem statusAgrees_attempt {i : WorkflowInstance} (call : Call)
    (h : StatusAgrees definition i) : StatusAgrees definition (attempt definition i call) := by
  rcases attempt_cases definition i call with ⟨_, heq⟩ | ⟨_, ha, _, _, target, htarget, heq⟩
  · rwa [heq]
  · rw [heq]
    refine statusAgrees_moved call htarget ?_
    have hn := h.2
    rw [ha] at hn
    simpa using hn

/-- The status of every run agrees with its step exactly when the start step is not an end
step. -/
theorem status_agrees_iff {contractId : Nat} {actor : String} {now : Nat} {first : WorkflowInstance}
    (hstart : start contractId definition actor now = .ok first) :
    (∀ calls, StatusAgrees definition (Runs.run (attempt definition) first calls)) ↔
      ∀ initial, definition.initialStep = .ok initial → ¬ IsTerminal definition initial.key := by
  obtain ⟨_, initial, hinit, hfirst⟩ := start_ok_iff.mp hstart
  have hinitial : definition.initialStep = .ok initial := by
    simp [WorkflowDefinition.initialStep, hinit]
  constructor
  · intro h other hother hterm
    rw [hinitial] at hother
    obtain rfl := Except.ok.inj hother
    have h0 := (h []).1
    subst hfirst
    exact absurd (h0.mpr hterm) (by simp)
  · intro h calls
    refine Runs.run_invariant (fun _ call hi => statusAgrees_attempt call hi) ?_ calls
    have hnot := h initial hinitial
    subst hfirst
    exact ⟨by simpa using hnot, by simp⟩

theorem status_agrees_linear :
    start 1 .linear "alice" 0 = .ok (started .linear "draft") ∧
      ∀ calls, StatusAgrees .linear (Runs.run (attempt .linear) (started .linear "draft") calls) := by
  have hstart : start 1 .linear "alice" 0 = .ok (started .linear "draft") := by decide
  have hdraft : WorkflowDefinition.linear.initialStep =
    .ok ⟨"draft", "Draft", none, 1, true, false⟩ := by decide
  refine ⟨hstart, (status_agrees_iff hstart).mpr fun initial hinit => ?_⟩
  rw [hdraft] at hinit
  rw [← Except.ok.inj hinit]
  decide

/-- A workflow of one step, start and end at once, is activated; its instances start `ACTIVE`. -/
def oneStep : WorkflowDefinition := .madeBy [.addStep ⟨"only", "Only", none, 1, true, true⟩, .activate]

theorem status_disagrees_oneStep :
    oneStep.Built ∧ start 1 oneStep "alice" 0 = .ok (started oneStep "only") ∧
      ¬ ∀ calls, StatusAgrees oneStep (Runs.run (attempt oneStep) (started oneStep "only") calls) := by
  refine ⟨WorkflowDefinition.built_madeBy _, by decide, fun h => ?_⟩
  exact absurd ((h []).1.mpr (by decide)) (by decide)

end Orchestract.WorkflowInstance
