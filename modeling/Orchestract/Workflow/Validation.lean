import Orchestract.Domain.Validation

/-!
# The activation validator

`find_validation_issues` over every graph, well formed or not: the loop ends, what it leaves
unreached is what lies outside the least closed set of keys, and nothing is reported exactly
when a document can start, end and get everywhere.
-/

namespace Orchestract.WorkflowDefinition

set_option autoImplicit false

variable (d : WorkflowDefinition)

/-- The least set of keys that contains a key and is closed under the transitions. -/
def leastClosed (key : String) : Set String :=
  {k | ∀ keys : Set String, key ∈ keys →
    (∀ t ∈ d.transitions, t.fromStepKey ∈ keys → t.toStepKey ∈ keys) → k ∈ keys}

theorem closed_iff (keys : Set String) :
    (∀ a ∈ keys, ∀ b ∈ d.successors a, b ∈ keys) ↔
      ∀ t ∈ d.transitions, t.fromStepKey ∈ keys → t.toStepKey ∈ keys := by
  constructor
  · intro h t ht hfrom
    exact h t.fromStepKey hfrom t.toStepKey (mem_successors_iff.mpr ⟨t, ht, rfl, rfl⟩)
  · intro h a ha b hb
    obtain ⟨t, ht, rfl, rfl⟩ := mem_successors_iff.mp hb
    exact h t ht ha

theorem mem_leastClosed_iff (key k : String) : k ∈ d.leastClosed key ↔ d.Path key k := by
  rw [Path, Worklist.path_iff_mem_closed]
  simp only [closed_iff]
  rfl

/-- The `while frontier` loop ends with `reachableFrom` as the set `reachable`. -/
theorem explores_reachableFrom (key : String) :
    Worklist.Explores d.successors [key] [key] (d.reachableFrom key) := by
  refine Worklist.explores_closure (d.transitions.map (fun t => t.toStepKey)) ?_ (by simp) key
  intro a b hb
  obtain ⟨t, ht, _, rfl⟩ := mem_successors_iff.mp hb
  exact List.mem_map.mpr ⟨t, ht, rfl⟩

theorem mem_unreachableFrom_iff (key k : String) :
    k ∈ d.unreachableFrom key ↔ (∃ step ∈ d.steps, step.key = k) ∧ k ∉ d.leastClosed key := by
  rw [unreachableFrom, List.mem_insertionSort, mem_leastClosed_iff, ← mem_reachableFrom_iff]
  simp

/-- The keys are listed in order, each one once. -/
theorem unreachableFrom_sorted (key : String) :
    (d.unreachableFrom key).Pairwise (· < ·) := by
  have hsorted : (d.unreachableFrom key).Pairwise (· ≤ ·) := List.pairwise_insertionSort _ _
  have hnodup : (d.unreachableFrom key).Nodup := by
    rw [unreachableFrom, (List.perm_insertionSort _ _).nodup_iff]
    exact (List.nodup_dedup _).filter _
  refine (hsorted.and hnodup).imp ?_
  intro a b hab
  exact lt_of_le_of_ne hab.1 hab.2

/-- The text that names the unreachable steps. -/
def unreachableIssue (keys : List String) : String :=
  let listed := String.intercalate ", " keys
  s!"These steps can't be reached from the start yet: {listed}."

/-- The issues that are listed when exactly one step is the start step. -/
theorem findValidationIssues_single {initial : WorkflowStep}
    (h : d.steps.filter (fun step => step.isInitial) = [initial]) :
    d.findValidationIssues =
      (if ∃ step ∈ d.steps, step.isTerminal = true then []
        else ["Mark at least one step as an end step."]) ++
      (if d.unreachableFrom initial.key = [] then []
        else [unreachableIssue (d.unreachableFrom initial.key)]) := by
  have hne : d.steps ≠ [] := by
    intro hnil
    simp [hnil] at h
  have hterm : (d.steps.filter (fun step => step.isTerminal)).length = 0 ↔
      ¬ ∃ step ∈ d.steps, step.isTerminal = true := by
    simp
  have hone : ([initial] : List WorkflowStep).length = 1 := rfl
  unfold findValidationIssues unreachableIssue
  simp only [if_neg hne, h, hterm, hone, one_ne_zero, if_false, gt_iff_lt, lt_irrefl, List.nil_append]
  by_cases ht : ∃ step ∈ d.steps, step.isTerminal = true
  · simp only [ht, not_true_eq_false, if_false, if_true]
  · simp only [ht, not_false_eq_true, if_false, if_true]

/-- The validator is sound and complete over every list of steps and every list of
transitions. -/
theorem validator_exact :
    (d.findValidationIssues = [] ↔
      d.steps ≠ [] ∧ (∃ step ∈ d.steps, step.isTerminal = true) ∧
      ∃ initial, d.steps.filter (fun step => step.isInitial) = [initial] ∧
        ∀ step ∈ d.steps, step.key ∈ d.leastClosed initial.key) ∧
    ∀ initial, d.steps.filter (fun step => step.isInitial) = [initial] →
      (∀ seen, Worklist.Explores d.successors [initial.key] [initial.key] seen ↔
        seen = d.reachableFrom initial.key) ∧
      (∀ k, k ∈ d.reachableFrom initial.key ↔ k ∈ d.leastClosed initial.key) ∧
      (∀ k, k ∈ d.unreachableFrom initial.key ↔
        (∃ step ∈ d.steps, step.key = k) ∧ k ∉ d.leastClosed initial.key) ∧
      (d.unreachableFrom initial.key).Pairwise (· < ·) ∧
      d.findValidationIssues =
        (if ∃ step ∈ d.steps, step.isTerminal = true then []
          else ["Mark at least one step as an end step."]) ++
        (if d.unreachableFrom initial.key = [] then []
          else [unreachableIssue (d.unreachableFrom initial.key)]) := by
  refine ⟨?_, ?_⟩
  · rw [findValidationIssues_eq_nil_iff]
    simp only [mem_leastClosed_iff]
    constructor
    · intro h
      obtain ⟨step, hstep, hterm⟩ := h.terminal
      exact ⟨List.ne_nil_of_mem hstep, ⟨step, hstep, hterm⟩, h.initial⟩
    · intro ⟨_, hterm, hinit⟩
      exact ⟨hinit, hterm⟩
  · intro initial hinit
    refine ⟨?_, ?_, ?_, ?_, ?_⟩
    · intro seen
      constructor
      · intro h
        exact h.unique (explores_reachableFrom d initial.key)
      · intro h
        rw [h]
        exact explores_reachableFrom d initial.key
    · intro k
      rw [mem_reachableFrom_iff, mem_leastClosed_iff]
    · exact mem_unreachableFrom_iff d initial.key
    · exact unreachableFrom_sorted d initial.key
    · exact findValidationIssues_single d hinit

end Orchestract.WorkflowDefinition
