import Orchestract.Application.Workflows
import Orchestract.Library.UnitsOfWork
import Orchestract.Workflow.Aggregate

/-!
# Concurrent editing of a definition

Several `add_step`, `add_transition` and `activate` requests on one definition, each a unit of
work. A method runs on the definition that was loaded; the commit inserts its row, or updates the
status, over what is stored by then. Of the checks, the database repeats the unique constraints
only.
-/

namespace Orchestract.WorkflowDefinition

set_option autoImplicit false

open UnitsOfWork (Event Shared opened written alone)

universe u

inductive Edit where
  | addStep (step : WorkflowStep)
  | addTransition (transition : WorkflowTransition)
  | activate

namespace Edit

def call : Edit → Call
  | addStep step => .addStep step
  | addTransition transition => .addTransition transition
  | activate => .activate

/-- The constraints `uq_step_def_key` and `uq_transition_action` admit the new row. -/
def Unique (d : WorkflowDefinition) : Edit → Prop
  | addStep step => ∀ s ∈ d.steps, s.key ≠ step.key
  | addTransition transition => ∀ t ∈ d.transitions,
    ¬ (t.fromStepKey = transition.fromStepKey ∧ t.actionName = transition.actionName)
  | activate => True

instance (d : WorkflowDefinition) : DecidablePred (Unique d)
  | addStep step => inferInstanceAs (Decidable (∀ s ∈ d.steps, s.key ≠ step.key))
  | addTransition transition => inferInstanceAs (Decidable (∀ t ∈ d.transitions,
    ¬ (t.fromStepKey = transition.fromStepKey ∧ t.actionName = transition.actionName)))
  | activate => inferInstanceAs (Decidable True)

/-- The `INSERT` or `UPDATE` of the commit. -/
def store (d : WorkflowDefinition) : Edit → WorkflowDefinition
  | addStep step => { d with steps := d.steps ++ [step] }
  | addTransition transition => { d with transitions := d.transitions ++ [transition] }
  | activate => { d with status := .active }

/-- The service method. -/
def service (definitionId : Nat) : Edit → UnitOfWork WorkflowDefinition
  | addStep step => WorkflowService.addStep definitionId step
  | addTransition transition => WorkflowService.addTransition definitionId transition
  | activate => WorkflowService.activate definitionId

/-- The definition still is as the request needs it. -/
def Safe (d : WorkflowDefinition) : Edit → Prop
  | addStep step => d.status ≠ .active ∧ (step.isInitial = true → ∀ s ∈ d.steps, s.isInitial = false)
  | addTransition _ => d.status ≠ .active
  | activate => d.findValidationIssues = []

end Edit

section

variable {κ : Type u} (edit : κ → Edit)

/-- The unit of work of request `k`. -/
def request (k : κ) (loaded stored : WorkflowDefinition) : Option WorkflowDefinition :=
  match (edit k).call.result loaded with
  | .ok _ => if (edit k).Unique stored then some ((edit k).store stored) else none
  | .error _ => none

/-- What a request has checked on its copy also holds of what is stored when it commits. -/
def FindsAsChecked (w : Shared κ WorkflowDefinition) : Event κ → Prop
  | .load _ => True
  | .commit k => ∀ l d, w.loaded k = some l → (edit k).call.result l = .ok d →
      (edit k).Unique w.stored → (edit k).Safe w.stored

structure Kept (d : WorkflowDefinition) : Prop where
  validated : d.status = .active → d.findValidationIssues = []
  one_initial : (d.steps.filter (fun step => step.isInitial)).length ≤ 1

variable [DecidableEq κ]

/-- In every state of the run the definition is kept, and once it is active its graph stays. -/
def GraphLock (d : WorkflowDefinition) (events : List (Event κ)) : Prop :=
  ∀ before after rest, events = before ++ (after ++ rest) →
    let w := Runs.run (UnitsOfWork.step (request edit)) (opened d) before
    let w' := Runs.run (UnitsOfWork.step (request edit)) w after
    Kept w.stored ∧ (w.stored.status = .active →
      w'.stored.steps = w.stored.steps ∧ w'.stored.transitions = w.stored.transitions)

end

/-! ## One request -/

variable {κ : Type u} {edit : κ → Edit}

theorem request_eq_some_iff {k : κ} {l s s' : WorkflowDefinition} :
    request edit k l s = some s' ↔
      (∃ d, (edit k).call.result l = .ok d) ∧ (edit k).Unique s ∧ (edit k).store s = s' := by
  unfold request
  cases hr : (edit k).call.result l with
  | ok d => simp
  | error e => simp

/-- Where the method does not raise, the row is new and the commit stores the method's result. -/
theorem store_of_ok {d d' : WorkflowDefinition} {e : Edit} (h : e.call.result d = .ok d') :
    e.Unique d ∧ e.store d = d' := by
  cases e with
  | addStep step =>
    obtain ⟨_, hkey, _, rfl⟩ := addStep_ok_iff.mp h
    exact ⟨hkey, rfl⟩
  | addTransition transition =>
    obtain ⟨_, _, _, hnew, rfl⟩ := addTransition_ok_iff.mp h
    exact ⟨fun t ht heq => hnew t ht heq.1 heq.2, rfl⟩
  | activate =>
    obtain ⟨_, _, rfl⟩ := activate_ok_iff.mp h
    exact ⟨trivial, rfl⟩

/-- A request on its own is a call of the method. -/
theorem alone_request (d : WorkflowDefinition) (k : κ) :
    alone (request edit) d k = perform d (edit k).call := by
  unfold alone perform request
  cases h : (edit k).call.result d with
  | ok d' =>
    obtain ⟨hunique, hstore⟩ := store_of_ok h
    simp only [if_pos hunique, hstore, Option.getD_some]
  | error e => rfl

/-- With nothing in between, the service stores what the request alone stores. -/
theorem service_ok {definitionId : Nat} {k : κ} {d' : WorkflowDefinition} {w w' : World}
    (h : (edit k).service definitionId w = .ok (d', w')) :
    ∃ d, w.db.definitions.get definitionId = some d ∧
      w'.db.definitions.get definitionId = some (alone (request edit) d k) := by
  have hchange : change "workflow definition" definitionId (fun d => (edit k).call.result d) w =
      .ok (d', w') := by
    cases hedit : edit k with
    | addStep step =>
      rw [hedit] at h
      exact h
    | addTransition transition =>
      rw [hedit] at h
      exact h
    | activate =>
      rw [hedit] at h
      exact h
  obtain ⟨d, hget, hresult, hsave⟩ := (change_ok_iff _ _ _ d' w w').mp hchange
  obtain ⟨_, t, ht, rfl⟩ := (save_ok_iff d' w w').mp hsave
  have hid : d'.id = definitionId := by
    rw [← (Table.get_eq_some_iff.mp hget).2]
    obtain ⟨_, rfl⟩ := store_of_ok hresult
    cases edit k <;> rfl
  refine ⟨d, hget, ?_⟩
  rw [alone_request, perform, hresult]
  rw [← hid] at hget ⊢
  exact Table.get_of_update ht hget

theorem kept_store {d : WorkflowDefinition} {e : Edit} (h : Kept d) (hsafe : e.Safe d) :
    Kept (e.store d) := by
  cases e with
  | addStep step =>
    obtain ⟨hactive, hinit⟩ := hsafe
    refine ⟨fun hs => absurd hs hactive, ?_⟩
    change ((d.steps ++ [step]).filter fun s => s.isInitial).length ≤ 1
    rw [List.filter_append, List.length_append]
    by_cases hi : step.isInitial = true
    · have hnil : d.steps.filter (fun s => s.isInitial) = [] :=
        List.filter_eq_nil_iff.mpr fun s hs => by simp [hinit hi s hs]
      simp [hnil, hi]
    · simpa [hi] using h.one_initial
  | addTransition transition => exact ⟨fun hs => absurd hs hsafe, h.one_initial⟩
  | activate => exact ⟨fun _ => (findValidationIssues_congr rfl rfl).trans hsafe, h.one_initial⟩

/-- An edit that finds the definition otherwise breaks it. -/
theorem safe_of_kept_store {d : WorkflowDefinition} {e : Edit} (h : Kept (e.store d))
    (hlock : d.status = .active →
      (e.store d).steps = d.steps ∧ (e.store d).transitions = d.transitions) : e.Safe d := by
  cases e with
  | addStep step =>
    refine ⟨fun hs => ?_, fun hi s hs => ?_⟩
    · have hlen := congrArg List.length (hlock hs).1
      simp [Edit.store] at hlen
    · have hone : ((d.steps ++ [step]).filter fun s => s.isInitial).length ≤ 1 := h.one_initial
      rw [List.filter_append, List.length_append, List.filter_singleton, hi, cond_true,
        List.length_singleton] at hone
      have hnil : d.steps.filter (fun s => s.isInitial) = [] := List.length_eq_zero_iff.mp (by omega)
      simpa using List.filter_eq_nil_iff.mp hnil s hs
  | addTransition transition =>
    intro hs
    have hlen := congrArg List.length (hlock hs).2
    simp [Edit.store] at hlen
  | activate => exact (findValidationIssues_congr rfl rfl).trans (h.validated rfl)

/-! ## Interleavings -/

variable [DecidableEq κ]

/-- What an event leaves stored. -/
theorem stored_cases (edit : κ → Edit) (w : Shared κ WorkflowDefinition) (e : Event κ) :
    (UnitsOfWork.step (request edit) w e).stored = w.stored ∨
      ∃ k l d, e = .commit k ∧ w.loaded k = some l ∧ (edit k).call.result l = .ok d ∧
        (edit k).Unique w.stored ∧
        (UnitsOfWork.step (request edit) w e).stored = (edit k).store w.stored := by
  cases e with
  | load k => exact Or.inl rfl
  | commit k =>
    cases hw : written (request edit) w k with
    | none => exact Or.inl (UnitsOfWork.stored_of_refused hw)
    | some s' =>
      obtain ⟨l, hl, hrequest⟩ := Option.bind_eq_some_iff.mp hw
      obtain ⟨⟨d, hd⟩, hunique, hstore⟩ := request_eq_some_iff.mp hrequest
      exact Or.inr ⟨k, l, d, rfl, hl, hd, hunique, (UnitsOfWork.stored_of_written hw).trans hstore.symm⟩

theorem kept_step (w : Shared κ WorkflowDefinition) (e : Event κ) (h : Kept w.stored)
    (hfinds : FindsAsChecked edit w e) : Kept (UnitsOfWork.step (request edit) w e).stored := by
  rcases stored_cases edit w e with heq | ⟨k, l, d, rfl, hl, hd, hunique, heq⟩
  · rwa [heq]
  · rw [heq]
    exact kept_store h (hfinds l d hl hd hunique)

/-- An active definition stays active, with the graph it has. -/
theorem locked_step (w : Shared κ WorkflowDefinition) (e : Event κ) (h : w.stored.status = .active)
    (hfinds : FindsAsChecked edit w e) :
    let w' := UnitsOfWork.step (request edit) w e
    w'.stored.status = .active ∧ w'.stored.steps = w.stored.steps ∧
      w'.stored.transitions = w.stored.transitions := by
  intro w'
  rcases stored_cases edit w e with heq | ⟨k, l, d, rfl, hl, hd, hunique, heq⟩
  · rw [heq]
    exact ⟨h, rfl, rfl⟩
  · rw [heq]
    have hsafe := hfinds l d hl hd hunique
    cases hedit : edit k with
    | addStep step =>
      rw [hedit] at hsafe
      exact absurd h hsafe.1
    | addTransition transition =>
      rw [hedit] at hsafe
      exact absurd h hsafe
    | activate => exact ⟨rfl, rfl, rfl⟩

theorem locked_run (w : Shared κ WorkflowDefinition) (events : List (Event κ))
    (h : w.stored.status = .active)
    (hfinds : Runs.Along (UnitsOfWork.step (request edit)) (FindsAsChecked edit) w events) :
    let w' := Runs.run (UnitsOfWork.step (request edit)) w events
    w'.stored.steps = w.stored.steps ∧ w'.stored.transitions = w.stored.transitions := by
  let Locked (v : Shared κ WorkflowDefinition) : Prop := v.stored.status = .active ∧
    v.stored.steps = w.stored.steps ∧ v.stored.transitions = w.stored.transitions
  have keep : ∀ v e, Locked v → FindsAsChecked edit v e →
      Locked (UnitsOfWork.step (request edit) v e) := by
    rintro v e ⟨hactive, hs, ht⟩ hv
    obtain ⟨hactive', hs', ht'⟩ := locked_step v e hactive hv
    exact ⟨hactive', hs'.trans hs, ht'.trans ht⟩
  exact (Runs.run_invariant_along keep ⟨h, rfl, rfl⟩ hfinds).2

theorem kept_of_sound {d : WorkflowDefinition} (h : d.Sound) : Kept d :=
  ⟨fun hs => (findValidationIssues_eq_nil_iff d).mpr (h.validated (by simp [hs])),
    h.wellFormed.one_initial⟩

/-- Editing a definition that the public methods have built, whatever its id: the lock holds exactly
when every accepted request finds stored what it has checked on its copy. -/
theorem graphLock_iff {d : WorkflowDefinition} (h : d.Built) (id : Nat) (edit : κ → Edit)
    (events : List (Event κ)) :
    GraphLock edit { d with id := id } events ↔
      Runs.Along (UnitsOfWork.step (request edit)) (FindsAsChecked edit) (opened { d with id := id })
        events := by
  have hkept : Kept { d with id := id } := by
    obtain ⟨hvalidated, hone⟩ := kept_of_sound h.sound
    exact ⟨fun hs => (findValidationIssues_congr rfl rfl).trans (hvalidated hs), hone⟩
  constructor
  · intro hlock
    refine Runs.along_iff.mpr fun before e after heq => ?_
    cases e with
    | load k => trivial
    | commit k =>
      intro l d' hl hd hunique
      have hnow := hlock before [.commit k] after heq
      have hnext := hlock (before ++ [.commit k]) [] after (by rw [heq, List.nil_append]; simp)
      generalize hw : Runs.run (UnitsOfWork.step (request edit)) (opened { d with id := id }) before = w
        at hl hunique hnow
      rw [Runs.run_append, hw] at hnext
      have hstored : (UnitsOfWork.step (request edit) w (.commit k)).stored =
          (edit k).store w.stored := by
        have hrequest : request edit k l w.stored = some ((edit k).store w.stored) :=
          request_eq_some_iff.mpr ⟨⟨d', hd⟩, hunique, rfl⟩
        simp [UnitsOfWork.step, written, hl, hrequest]
      obtain ⟨_, hlocked⟩ := hnow
      obtain ⟨hkeeps, _⟩ := hnext
      rw [Runs.run_cons, Runs.run_nil, hstored] at hlocked hkeeps
      exact safe_of_kept_store hkeeps hlocked
  · rintro halong before after rest rfl w w'
    obtain ⟨hbefore, hafter⟩ := Runs.along_append.mp halong
    obtain ⟨hafter, _⟩ := Runs.along_append.mp hafter
    refine ⟨?_, fun hactive => locked_run w after hactive hafter⟩
    exact Runs.run_invariant_along (I := fun v : Shared κ WorkflowDefinition => Kept v.stored)
      kept_step hkept hbefore

/-! ## Two steps and an end step -/

/-- A workflow that can be activated. -/
def memo : WorkflowDefinition := madeBy [
  .addStep ⟨"draft", "Draft", none, 1, true, false⟩,
  .addStep ⟨"sign", "Sign", none, 1, false, true⟩,
  .addTransition ⟨"draft", "sign", "approve", none⟩]

theorem graphLock_memo :
    GraphLock (fun k : Nat => if k = 0 then .addTransition ⟨"sign", "draft", "reopen", none⟩ else .activate)
      { memo with id := 1 } [.load 0, .commit 0, .load 1, .commit 1] := by
  refine (graphLock_iff (built_madeBy _) 1 _ [.load 0, .commit 0, .load 1, .commit 1]).mpr
    ⟨trivial, fun l d _ _ _ => ?_, trivial, fun l d _ _ _ => ?_, trivial⟩
  · change (_ : WorkflowStatus) ≠ .active
    decide
  · change findValidationIssues _ = []
    decide

/-- A step is inserted that was loaded before the activation; two start steps are inserted that
were loaded before each other. -/
theorem not_graphLock_memo :
    ¬ GraphLock (fun k : Nat => if k = 0 then .activate else .addStep ⟨"park", "Park", none, 1, false, false⟩)
        { memo with id := 1 } [.load 0, .load 1, .commit 0, .commit 1] ∧
      ¬ GraphLock (fun k : Nat => .addStep ⟨if k = 0 then "a" else "b", "Start", none, 1, true, false⟩)
        { madeBy [] with id := 1 } [.load 0, .load 1, .commit 0, .commit 1] := by
  constructor
  · intro h
    have hvalid := (h [.load 0, .load 1, .commit 0, .commit 1] [] [] rfl).1.validated (by decide)
    exact absurd hvalid (by decide)
  · intro h
    have hone := (h [.load 0, .load 1, .commit 0, .commit 1] [] [] rfl).1.one_initial
    exact absurd hone (by decide)

end Orchestract.WorkflowDefinition
