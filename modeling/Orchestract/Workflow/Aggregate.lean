import Orchestract.Domain.Validation
import Orchestract.Library.Runs

/-!
# The definition aggregate over its whole life

The invariant that the class docstring of `WorkflowDefinition` states, kept by every public
method, and the lock that `activate` puts on the graph it has validated.
-/

namespace Orchestract.WorkflowDefinition

set_option autoImplicit false

/-- A call of one of the public methods. -/
inductive Call where
  | addStep (step : WorkflowStep)
  | addTransition (transition : WorkflowTransition)
  | rename (newName : String)
  | setDescription (description : Option String)
  | activate
  | retire

def Call.result (d : WorkflowDefinition) : Call → Except DomainError WorkflowDefinition
  | .addStep step => d.addStep step
  | .addTransition transition => d.addTransition transition
  | .rename newName => d.rename newName
  | .setDescription description => .ok (d.setDescription description)
  | .activate => d.activate
  | .retire => d.retire

/-- A call that raises leaves the aggregate as it was. -/
def perform (d : WorkflowDefinition) (call : Call) : WorkflowDefinition :=
  match call.result d with
  | .ok d' => d'
  | .error _ => d

/-- Built with the public methods. -/
def Built (d : WorkflowDefinition) : Prop :=
  ∃ organizationId name description new calls,
    create organizationId name description = .ok new ∧ Runs.run perform new calls = d

structure WellFormed (d : WorkflowDefinition) : Prop where
  keys_nodup : (d.steps.map (fun step => step.key)).Nodup
  one_initial : (d.steps.filter (fun step => step.isInitial)).length ≤ 1
  endpoints : ∀ t ∈ d.transitions,
    (∃ s ∈ d.steps, s.key = t.fromStepKey) ∧ (∃ s ∈ d.steps, s.key = t.toStepKey)
  actions : d.transitions.Pairwise fun t u =>
    ¬ (t.fromStepKey = u.fromStepKey ∧ t.actionName = u.actionName)

/-- The invariant of the aggregate. -/
structure Sound (d : WorkflowDefinition) : Prop where
  wellFormed : d.WellFormed
  validated : d.status ≠ .draft → d.Validated

/-- Either the call raised, or it did what the method does. -/
theorem perform_cases (d : WorkflowDefinition) (call : Call) :
    perform d call = d ∨ call.result d = .ok (perform d call) := by
  unfold perform
  split
  · exact Or.inr ‹_›
  · exact Or.inl rfl

/-- `WellFormed` and `Validated` speak about the graph only. -/
theorem WellFormed.congr {d d' : WorkflowDefinition} (h : d.WellFormed)
    (hs : d'.steps = d.steps) (ht : d'.transitions = d.transitions) : d'.WellFormed := by
  obtain ⟨h₁, h₂, h₃, h₄⟩ := h
  exact ⟨by rwa [hs], by rwa [hs], by rwa [hs, ht], by rwa [ht]⟩

theorem path_congr {d d' : WorkflowDefinition} (ht : d'.transitions = d.transitions) :
    d'.Path = d.Path := by
  have hnext : d'.successors = d.successors := by
    funext key
    simp [successors, transitionsFrom, ht]
  rw [Path, hnext]

theorem Validated.congr {d d' : WorkflowDefinition} (h : d.Validated)
    (hs : d'.steps = d.steps) (ht : d'.transitions = d.transitions) : d'.Validated := by
  obtain ⟨h₁, h₂⟩ := h
  exact ⟨by rwa [hs, path_congr ht], by rwa [hs]⟩

theorem wellFormed_addStep {d : WorkflowDefinition} {step : WorkflowStep} (h : d.WellFormed)
    (hkey : ∀ s ∈ d.steps, s.key ≠ step.key)
    (hinit : step.isInitial = true → ∀ s ∈ d.steps, s.isInitial = false) :
    WellFormed { d with steps := d.steps ++ [step] } := by
  refine ⟨?_, ?_, ?_, h.actions⟩
  · simp only [List.map_append, List.map_cons, List.map_nil, List.nodup_append,
      List.nodup_singleton, true_and]
    refine ⟨h.keys_nodup, ?_⟩
    intro a ha b hb
    obtain ⟨s, hs, rfl⟩ := List.mem_map.mp ha
    rw [List.mem_singleton.mp hb]
    exact hkey s hs
  · rw [List.filter_append, List.length_append]
    by_cases hi : step.isInitial = true
    · have hnil : d.steps.filter (fun s => s.isInitial) = [] :=
        List.filter_eq_nil_iff.mpr fun s hs => by simp [hinit hi s hs]
      simp [hnil, hi]
    · simpa [hi] using h.one_initial
  · intro t ht
    obtain ⟨⟨a, ha, hfrom⟩, ⟨b, hb, hto⟩⟩ := h.endpoints t ht
    exact ⟨⟨a, List.mem_append_left _ ha, hfrom⟩, ⟨b, List.mem_append_left _ hb, hto⟩⟩

theorem wellFormed_addTransition {d : WorkflowDefinition} {t : WorkflowTransition}
    (h : d.WellFormed) (hfrom : ∃ s ∈ d.steps, s.key = t.fromStepKey)
    (hto : ∃ s ∈ d.steps, s.key = t.toStepKey)
    (hnew : ∀ u ∈ d.transitions, u.fromStepKey = t.fromStepKey → u.actionName ≠ t.actionName) :
    WellFormed { d with transitions := d.transitions ++ [t] } := by
  refine ⟨h.keys_nodup, h.one_initial, ?_, ?_⟩
  · intro u hu
    rcases List.mem_append.mp hu with hu | hu
    · exact h.endpoints u hu
    · rw [List.mem_singleton.mp hu]
      exact ⟨hfrom, hto⟩
  · rw [List.pairwise_append]
    refine ⟨h.actions, List.pairwise_singleton _ _, ?_⟩
    intro u hu v hv
    rw [List.mem_singleton.mp hv]
    exact fun heq => hnew u hu heq.1 heq.2

/-- One call keeps the invariant. -/
theorem sound_result {d d' : WorkflowDefinition} {call : Call} (h : d.Sound)
    (hc : call.result d = .ok d') : d'.Sound := by
  cases call with
  | addStep step =>
    obtain ⟨hd, hkey, hinit, rfl⟩ := addStep_ok_iff.mp hc
    exact ⟨wellFormed_addStep h.wellFormed hkey hinit, fun hs => absurd hd hs⟩
  | addTransition t =>
    obtain ⟨hd, hfrom, hto, hnew, rfl⟩ := addTransition_ok_iff.mp hc
    exact ⟨wellFormed_addTransition h.wellFormed hfrom hto hnew, fun hs => absurd hd hs⟩
  | rename newName =>
    obtain ⟨_, rfl⟩ := rename_ok_iff.mp hc
    exact ⟨h.wellFormed.congr rfl rfl, fun hs => (h.validated hs).congr rfl rfl⟩
  | setDescription description =>
    obtain rfl := Except.ok.inj hc
    exact ⟨h.wellFormed.congr rfl rfl, fun hs => (h.validated hs).congr rfl rfl⟩
  | activate =>
    obtain ⟨_, hissues, rfl⟩ := activate_ok_iff.mp hc
    have hv : d.Validated := (findValidationIssues_eq_nil_iff d).mp hissues
    exact ⟨h.wellFormed.congr rfl rfl, fun _ => hv.congr rfl rfl⟩
  | retire =>
    obtain ⟨hs, rfl⟩ := retire_ok_iff.mp hc
    have hv : d.Validated := h.validated (by simp [hs])
    exact ⟨h.wellFormed.congr rfl rfl, fun _ => hv.congr rfl rfl⟩

theorem sound_perform {d : WorkflowDefinition} (call : Call) (h : d.Sound) :
    (perform d call).Sound := by
  rcases perform_cases d call with heq | hc
  · rwa [heq]
  · exact sound_result h hc

theorem sound_create {organizationId : Nat} {name : String} {description : Option String}
    {d : WorkflowDefinition} (h : create organizationId name description = .ok d) : d.Sound := by
  obtain ⟨_, rfl⟩ := create_ok_iff.mp h
  exact ⟨⟨by simp, by simp, by simp, by simp⟩, fun hs => absurd rfl hs⟩

theorem Built.sound {d : WorkflowDefinition} (h : d.Built) : d.Sound := by
  obtain ⟨_, _, _, new, calls, hnew, rfl⟩ := h
  exact Runs.run_invariant (fun _ call hs => sound_perform call hs) (sound_create hnew) calls

/-- The graph and the status after a call on a definition that has left `DRAFT`. -/
theorem perform_locked {d : WorkflowDefinition} (call : Call) (hd : d.status ≠ .draft) :
    (perform d call).steps = d.steps ∧ (perform d call).transitions = d.transitions ∧
      (perform d call).status ≠ .draft := by
  rcases perform_cases d call with heq | hc
  · rw [heq]
    exact ⟨rfl, rfl, hd⟩
  · generalize perform d call = d' at hc
    cases call with
    | addStep step => exact absurd (addStep_ok_iff.mp hc).1 hd
    | addTransition t => exact absurd (addTransition_ok_iff.mp hc).1 hd
    | activate => exact absurd (activate_ok_iff.mp hc).1 hd
    | rename newName =>
      obtain ⟨_, rfl⟩ := rename_ok_iff.mp hc
      exact ⟨rfl, rfl, hd⟩
    | setDescription description =>
      obtain rfl := Except.ok.inj hc
      exact ⟨rfl, rfl, hd⟩
    | retire =>
      obtain ⟨_, rfl⟩ := retire_ok_iff.mp hc
      exact ⟨rfl, rfl, by simp⟩

theorem run_locked {d : WorkflowDefinition} (calls : List Call) (hd : d.status ≠ .draft) :
    (Runs.run perform d calls).steps = d.steps ∧
      (Runs.run perform d calls).transitions = d.transitions := by
  let Locked (e : WorkflowDefinition) : Prop :=
    e.steps = d.steps ∧ e.transitions = d.transitions ∧ e.status ≠ .draft
  have keep : ∀ e call, Locked e → Locked (perform e call) := by
    rintro e call ⟨hs, ht, hst⟩
    obtain ⟨hs', ht', hst'⟩ := perform_locked call hst
    exact ⟨hs'.trans hs, ht'.trans ht, hst'⟩
  have h : Locked (Runs.run perform d calls) := Runs.run_invariant keep ⟨rfl, rfl, hd⟩ calls
  exact ⟨h.1, h.2.1⟩

/-- The moves of the status. -/
def StatusStep (d : WorkflowDefinition) (call : Call) : Prop :=
  (perform d call).status = d.status ∨
    (d.status = .draft ∧ (perform d call).status = .active) ∨
    (d.status = .active ∧ (perform d call).status = .retired)

theorem statusStep (d : WorkflowDefinition) (call : Call) : StatusStep d call := by
  unfold StatusStep
  rcases perform_cases d call with heq | hc
  · exact Or.inl (by rw [heq])
  · generalize perform d call = d' at hc
    cases call with
    | addStep step =>
      obtain ⟨_, _, _, rfl⟩ := addStep_ok_iff.mp hc
      exact Or.inl rfl
    | addTransition t =>
      obtain ⟨_, _, _, _, rfl⟩ := addTransition_ok_iff.mp hc
      exact Or.inl rfl
    | rename newName =>
      obtain ⟨_, rfl⟩ := rename_ok_iff.mp hc
      exact Or.inl rfl
    | setDescription description =>
      obtain rfl := Except.ok.inj hc
      exact Or.inl rfl
    | activate =>
      obtain ⟨hd, _, rfl⟩ := activate_ok_iff.mp hc
      exact Or.inr (Or.inl ⟨hd, rfl⟩)
    | retire =>
      obtain ⟨ha, rfl⟩ := retire_ok_iff.mp hc
      exact Or.inr (Or.inr ⟨ha, rfl⟩)

/-- The aggregate invariant over every life of a definition. -/
theorem aggregate_invariant {organizationId : Nat} {name : String} {description : Option String}
    {new : WorkflowDefinition} (hnew : create organizationId name description = .ok new)
    (calls : List Call) :
    let d := Runs.run perform new calls
    d.WellFormed ∧
      (d.status ≠ .draft → d.Validated ∧ ∀ more,
        (Runs.run perform d more).steps = d.steps ∧
        (Runs.run perform d more).transitions = d.transitions) ∧
      Runs.Along perform StatusStep new calls := by
  intro d
  have hd : d.Sound := Built.sound ⟨organizationId, name, description, new, calls, hnew, rfl⟩
  refine ⟨hd.wellFormed, fun hs => ⟨hd.validated hs, fun more => run_locked more hs⟩, ?_⟩
  exact Runs.along_of_forall statusStep new calls

/-- The definition that a list of calls makes of a new one. -/
def madeBy (calls : List Call) : WorkflowDefinition :=
  Runs.run perform ⟨0, 1, "Simple", "simple", none, .draft, [], []⟩ calls

theorem built_madeBy (calls : List Call) : (madeBy calls).Built :=
  ⟨1, "Simple", none, _, calls, by decide, rfl⟩

/-- The workflow that `build_linear_definition` of the tests builds, activated. -/
def linear : WorkflowDefinition := madeBy [
  .addStep ⟨"draft", "Draft", none, 1, true, false⟩,
  .addStep ⟨"negotiate", "Negotiate", none, 2, false, false⟩,
  .addStep ⟨"sign", "Sign", none, 3, false, true⟩,
  .addTransition ⟨"draft", "negotiate", "send_for_negotiation", none⟩,
  .addTransition ⟨"negotiate", "sign", "approve", none⟩,
  .addTransition ⟨"negotiate", "draft", "request_changes", none⟩,
  .activate]

theorem aggregate_invariant_linear :
    let new : WorkflowDefinition := ⟨0, 1, "Simple", "simple", none, .draft, [], []⟩
    let calls := [.addStep ⟨"only", "Only", none, 1, true, true⟩, .activate]
    (Runs.run perform new calls).WellFormed ∧ (Runs.run perform new calls).Validated := by
  intro new calls
  have hnew : create 1 "Simple" none = .ok new := by decide
  have h := aggregate_invariant hnew calls
  exact ⟨h.1, (h.2.1 (by decide)).1⟩

end Orchestract.WorkflowDefinition
