import Orchestract.Isolation.WriteIsolation
import Orchestract.Operations.Histories
import Orchestract.Workflow.Position

/-!
# The stored instances

Whatever happens to the database, every stored instance is one that its stored definition leads to by
`start` and calls of `apply_transition`, and it goes on by such calls.
-/

namespace Orchestract

set_option autoImplicit false

def WorkflowDefinition.SameGraph (d d' : WorkflowDefinition) : Prop :=
  d'.steps = d.steps ∧ d'.transitions = d.transitions

/-- The instance was started on a definition with this graph, and calls have brought it here. -/
def WorkflowInstance.Lived (d : WorkflowDefinition) (i : WorkflowInstance) : Prop :=
  ∃ d₀ actor now first calls, d₀.SameGraph d ∧ d₀.id = i.workflowDefinitionId ∧
    start i.contractId d₀ actor now = .ok first ∧ i = Runs.run (attempt d) { first with id := i.id } calls

/-- Every instance has lived by its definition, which has left `DRAFT`. -/
def World.Lived (w : World) : Prop :=
  ∀ i ∈ w.db.instances.rows, ∃ d, w.db.definitions.get i.workflowDefinitionId = some d ∧ d.status ≠ .draft ∧
    i.Lived d

/-- The graphs that have left `DRAFT` stay as they are, and the instances go on by them. -/
structure World.GoesOn (w w' : World) : Prop where
  graphs : ∀ id d, w.db.definitions.get id = some d → d.status ≠ .draft →
    ∃ d', w'.db.definitions.get id = some d' ∧ d'.status ≠ .draft ∧ d.SameGraph d'
  instances : ∀ i ∈ w.db.instances.rows, ∀ d, w.db.definitions.get i.workflowDefinitionId = some d →
    d.status ≠ .draft → ∃ i' ∈ w'.db.instances.rows, i'.id = i.id ∧ ∃ calls,
      i' = Runs.run (WorkflowInstance.attempt d) i calls

variable {w w₁ w' : World} {d d' : WorkflowDefinition}

theorem WorkflowDefinition.sameGraph_refl (d : WorkflowDefinition) : d.SameGraph d := ⟨rfl, rfl⟩

theorem WorkflowDefinition.SameGraph.trans {d₁ : WorkflowDefinition} (h : d.SameGraph d₁) (h' : d₁.SameGraph d') :
    d.SameGraph d' :=
  ⟨h'.1.trans h.1, h'.2.trans h.2⟩

/-! ## Instances -/

namespace WorkflowInstance

variable {i i' : WorkflowInstance}

/-- Calls depend on the graph of the definition only. -/
theorem attempt_congr (h : d.SameGraph d') : attempt d' = attempt d := by
  funext i call
  unfold attempt Call.result applyTransition WorkflowDefinition.findTransition WorkflowDefinition.transitionsFrom
    WorkflowDefinition.getStep
  rw [h.1, h.2]

theorem attempt_of_result {call : Call} (h : call.result d i = .ok i') : attempt d i call = i' := by
  unfold attempt
  rw [h]

/-- Calls keep what an instance is an instance of. -/
theorem run_identity (d : WorkflowDefinition) (i : WorkflowInstance) (calls : List Call) :
    (Runs.run (attempt d) i calls).id = i.id ∧ (Runs.run (attempt d) i calls).contractId = i.contractId ∧
      (Runs.run (attempt d) i calls).workflowDefinitionId = i.workflowDefinitionId := by
  refine Runs.run_invariant (I := fun a : WorkflowInstance => a.id = i.id ∧ a.contractId = i.contractId ∧
    a.workflowDefinitionId = i.workflowDefinitionId) (fun a call h => ?_) ⟨rfl, rfl, rfl⟩ calls
  rcases attempt_cases d a call with ⟨_, heq⟩ | ⟨_, _, _, _, target, _, heq⟩
  · rwa [heq]
  · rwa [heq]

theorem Lived.congr (h : i.Lived d) (hgraph : d.SameGraph d') : i.Lived d' := by
  obtain ⟨d₀, actor, now, first, calls, hsame, hid, hstart, heq⟩ := h
  refine ⟨d₀, actor, now, first, calls, hsame.trans hgraph, hid, hstart, ?_⟩
  rwa [attempt_congr hgraph]

theorem Lived.run (h : i.Lived d) (more : List Call) : (Runs.run (attempt d) i more).Lived d := by
  obtain ⟨d₀, actor, now, first, calls, hsame, hid, hstart, heq⟩ := h
  obtain ⟨hid', hcontract', hdefinition'⟩ := run_identity d i more
  refine ⟨d₀, actor, now, first, calls ++ more, hsame, hid.trans hdefinition'.symm, ?_, ?_⟩
  · rw [hcontract']
    exact hstart
  · rw [hid', Runs.run_append, ← heq]

theorem FaithfulPath.congr (h : FaithfulPath d i) (hgraph : d.SameGraph d') : FaithfulPath d' i := by
  obtain ⟨initial, first, hinitial, hrest⟩ := h.started
  refine ⟨⟨initial, first, ?_, hrest⟩, h.chained, fun e he => ?_, h.current⟩
  · rw [← hinitial]
    unfold WorkflowDefinition.initialStep
    rw [hgraph.1]
  · obtain ⟨t, ht, hentry⟩ := h.recorded e he
    exact ⟨t, hgraph.2 ▸ ht, hentry⟩

/-- The history of an instance is a path through the definition that it has lived by. -/
theorem Lived.faithfulPath (h : i.Lived d) : FaithfulPath d i := by
  obtain ⟨d₀, actor, now, first, calls, hsame, _, hstart, heq⟩ := h
  have hfirst := (faithfulPath_start hstart).congr hsame
  have hstarted : FaithfulPath d { first with id := i.id } :=
    ⟨hfirst.started, hfirst.chained, hfirst.recorded, hfirst.current⟩
  rw [heq]
  exact Runs.run_invariant (fun _ call hi => faithfulPath_attempt call hi) hstarted calls

end WorkflowInstance

/-! ## Worlds -/

namespace World

theorem goesOn_of_eq (hd : w'.db.definitions = w.db.definitions) (hi : w'.db.instances = w.db.instances) :
    w.GoesOn w' := by
  refine ⟨fun id d hget hleft => ⟨d, by rwa [hd], hleft, d.sameGraph_refl⟩, fun i hmem d _ _ => ?_⟩
  exact ⟨i, by rwa [hi], rfl, [], rfl⟩

theorem GoesOn.trans (h : w.GoesOn w₁) (h' : w₁.GoesOn w') : w.GoesOn w' := by
  constructor
  · intro id d hget hleft
    obtain ⟨d₁, hget₁, hleft₁, hsame₁⟩ := h.graphs id d hget hleft
    obtain ⟨d', hget', hleft', hsame'⟩ := h'.graphs id d₁ hget₁ hleft₁
    exact ⟨d', hget', hleft', hsame₁.trans hsame'⟩
  · intro i hi d hget hleft
    obtain ⟨d₁, hget₁, hleft₁, hsame₁⟩ := h.graphs _ d hget hleft
    obtain ⟨i₁, hi₁, hid₁, calls, rfl⟩ := h.instances i hi d hget hleft
    obtain ⟨_, _, hdefinition⟩ := WorkflowInstance.run_identity d i calls
    obtain ⟨i', hi', hid', more, rfl⟩ := h'.instances _ hi₁ d₁ (hdefinition ▸ hget₁) hleft₁
    refine ⟨_, hi', hid'.trans hid₁, calls ++ more, ?_⟩
    rw [Runs.run_append, WorkflowInstance.attempt_congr hsame₁]

/-- The definitions change, and the graphs that have left `DRAFT` do not. -/
theorem goesOn_definitions {t : Table WorkflowDefinition}
    (h : ∀ id d, w.db.definitions.get id = some d → d.status ≠ .draft →
      ∃ d', t.get id = some d' ∧ d'.status ≠ .draft ∧ d.SameGraph d') :
    w.GoesOn { w with db := { w.db with definitions := t } } :=
  ⟨h, fun i hi _ _ _ => ⟨i, hi, rfl, [], rfl⟩⟩

theorem goesOn_newDefinition {new : WorkflowDefinition} {t : Table WorkflowDefinition}
    (h : w.db.definitions.insert d = some (new, t)) :
    w.GoesOn { w with db := { w.db with definitions := t } } :=
  goesOn_definitions fun _ e he hleft => ⟨e, Table.get_of_insert h he, hleft, e.sameGraph_refl⟩

theorem goesOn_definition {calls : List WorkflowDefinition.Call} {t : Table WorkflowDefinition}
    (hd : d ∈ w.db.definitions.rows)
    (ht : w.db.definitions.update (Runs.run WorkflowDefinition.perform d calls) = some t) :
    w.GoesOn { w with db := { w.db with definitions := t } } := by
  obtain ⟨hid, _⟩ := WorkflowDefinition.run_identity d calls
  refine goesOn_definitions fun id e he hleft => ?_
  rw [Table.get_update ht]
  by_cases hrow : id = Row.id (Runs.run WorkflowDefinition.perform d calls)
  · obtain ⟨hmem, heid⟩ := Table.get_eq_some_iff.mp he
    obtain rfl : e = d := Table.eq_of_id hmem hd (heid.trans (hrow.trans hid))
    rw [if_pos hrow, he]
    exact ⟨_, rfl, WorkflowDefinition.run_not_draft calls hleft, WorkflowDefinition.run_locked calls hleft⟩
  · rw [if_neg hrow]
    exact ⟨e, he, hleft, e.sameGraph_refl⟩

theorem goesOn_instance {r r' : WorkflowInstance} {call : WorkflowInstance.Call} {t : Table WorkflowInstance}
    (hr : r ∈ w.db.instances.rows) (hd : w.db.definitions.get r.workflowDefinitionId = some d)
    (hmove : call.result d r = .ok r') (ht : w.db.instances.update r' = some t) :
    w.GoesOn { w with db := { w.db with instances := t } } := by
  have hrun : r' = Runs.run (WorkflowInstance.attempt d) r [call] :=
    (WorkflowInstance.attempt_of_result hmove).symm
  have hid : r'.id = r.id := hrun ▸ (WorkflowInstance.run_identity d r [call]).1
  refine ⟨fun id e he hleft => ⟨e, he, hleft, e.sameGraph_refl⟩, fun i hi e he _ => ?_⟩
  by_cases heq : i.id = r.id
  · obtain rfl : i = r := Table.eq_of_id hi hr heq
    obtain rfl := Option.some.inj (hd.symm.trans he)
    have hget : t.get (Row.id r') = some r' :=
      Table.get_of_update ht (Table.get_eq_some_iff.mpr ⟨hr, hid.symm⟩)
    exact ⟨r', (Table.get_eq_some_iff.mp hget).1, hid, [call], hrun⟩
  · refine ⟨i, ?_, rfl, [], rfl⟩
    have hget : t.get (Row.id i) = some i := by
      rw [Table.get_update ht, if_neg fun h => heq (h.trans hid)]
      exact Table.get_eq_some_iff.mpr ⟨hi, rfl⟩
    exact (Table.get_eq_some_iff.mp hget).1

theorem goesOn_committed {i : Input} (h : Committed i w w') : w.GoesOn w' := by
  cases h with
  | newDefinition _ _ _ h | copy _ _ _ _ h => exact goesOn_newDefinition h
  | definition hd calls h => exact goesOn_definition hd h
  | newContract _ _ _ _ _ _ _ _ hi =>
    refine ⟨fun id e he hleft => ⟨e, he, hleft, e.sameGraph_refl⟩, fun i hmem e _ _ => ?_⟩
    exact ⟨i, (Table.mem_insert_iff hi).mpr (Or.inl hmem), rfl, [], rfl⟩
  | «instance» call hr hd move h => exact goesOn_instance hr hd move h
  | _ => exact goesOn_of_eq rfl rfl

/-- The instance of a new contract, or one that was stored before. -/
theorem new_or_old {i : Input} {r : WorkflowInstance} (h : Committed i w w') (hr : r ∈ w'.db.instances.rows) :
    (∃ b ∈ w.db.instances.rows, b.id = r.id) ∨
      ∃ d, w'.db.definitions.get r.workflowDefinitionId = some d ∧ d.status ≠ .draft ∧ r.Lived d := by
  cases h with
  | @newContract _ definition _ contract _ _ started new actor _ _ _ _ _ hdef _ _ _ _ hstart hi =>
    rcases (Table.mem_insert_iff hi).mp hr with hold | rfl
    · exact Or.inl ⟨r, hold, rfl⟩
    · right
      obtain ⟨hactive, initial, _, hfirst⟩ := WorkflowInstance.start_ok_iff.mp hstart
      obtain ⟨hnew, _, _⟩ := Table.insert_eq_some hi
      have hcontract : r.contractId = contract.id := by rw [hnew, ← hfirst]; rfl
      have hdefinition : r.workflowDefinitionId = definition.id := by rw [hnew, ← hfirst]; rfl
      refine ⟨definition, ?_, by simp [hactive], definition, actor, i.env.now, started, [],
        definition.sameGraph_refl, hdefinition.symm, hcontract ▸ hstart, ?_⟩
      · rw [hdefinition]
        exact Table.get_eq_some_iff.mpr ⟨hdef, rfl⟩
      · rw [hnew]
        rfl
  | «instance» call hb hd move h =>
    left
    rcases Table.mem_update h hr with rfl | ⟨hold, _⟩
    · refine ⟨_, hb, ?_⟩
      obtain ⟨_, _, _, target, _, rfl⟩ := WorkflowInstance.result_ok_iff.mp move
      rfl
    · exact ⟨r, hold, rfl⟩
  | _ => exact Or.inl ⟨r, hr, rfl⟩

theorem lived_committed {i : Input} (hw : w.Lived) (h : Committed i w w') : w'.Lived := by
  intro r hr
  rcases new_or_old h hr with ⟨b, hb, hid⟩ | hnew
  · obtain ⟨d, hget, hleft, hlived⟩ := hw b hb
    have hgoes := goesOn_committed h
    obtain ⟨r', hr', hid', calls, hrun⟩ := hgoes.instances b hb d hget hleft
    obtain rfl : r' = r := Table.eq_of_id hr' hr (hid'.trans hid)
    obtain ⟨d', hget', hleft', hsame⟩ := hgoes.graphs _ d hget hleft
    obtain ⟨_, _, hdefinition⟩ := WorkflowInstance.run_identity d b calls
    refine ⟨d', ?_, hleft', ?_⟩
    · rw [hrun, hdefinition]
      exact hget'
    · rw [hrun]
      exact (hlived.run calls).congr hsame
  · exact hnew

/-! ## Histories -/

theorem goesOn_next (s : System) (c : Change) : s.world.GoesOn (s.next c).world := by
  cases c with
  | call i =>
    exact perform_invariant (I := s.world.GoesOn) (fun _ _ h hstep => h.trans (goesOn_committed hstep))
      (goesOn_of_eq rfl rfl)
  | _ =>
    exact goesOn_of_eq (next_same (n := .definitions) (by simp [Change.footprint]))
      (next_same (n := .instances) (by simp [Change.footprint]))

theorem goesOn_run (s : System) (changes : List Change) : s.world.GoesOn (Runs.run System.next s changes).world :=
  Runs.run_relates (R := fun s s' : System => s.world.GoesOn s'.world) (fun _ => goesOn_of_eq rfl rfl)
    GoesOn.trans goesOn_next s changes

theorem lived_of_eq (hd : w'.db.definitions = w.db.definitions) (hi : w'.db.instances = w.db.instances)
    (hw : w.Lived) : w'.Lived := by
  unfold Lived
  rw [hd, hi]
  exact hw

theorem lived_next {s : System} (hs : s.world.Lived) (c : Change) : (s.next c).world.Lived := by
  cases c with
  | call i => exact perform_invariant (fun _ _ => lived_committed) hs
  | _ =>
    exact lived_of_eq (next_same (n := .definitions) (by simp [Change.footprint]))
      (next_same (n := .instances) (by simp [Change.footprint])) hs

theorem lived_after (files : Bucket → String → Option Bytes) (changes : List Change) :
    (System.after files changes).world.Lived :=
  Runs.run_invariant (I := fun s : System => s.world.Lived) (fun _ c hs => lived_next hs c) (fun _ h => by cases h)
    changes

end World

/-- A stored instance is one that its definition leads to, its history is a path through the definition,
and later changes only take it further along the definition. -/
theorem stored_instance (files : Bucket → String → Option Bytes) (changes more : List Change) {i : WorkflowInstance}
    (hi : i ∈ (System.after files changes).world.db.instances.rows) :
    let w := (System.after files (changes ++ more)).world
    ∃ i' ∈ w.db.instances.rows, i'.id = i.id ∧ ∃ d, w.db.definitions.get i'.workflowDefinitionId = some d ∧
      d.status ≠ .draft ∧ (∃ calls, i' = Runs.run (WorkflowInstance.attempt d) i calls) ∧ i'.Lived d ∧
      WorkflowInstance.FaithfulPath d i' ∧ i.history <+: i'.history := by
  intro w
  obtain ⟨d, hget, hleft, _⟩ := World.lived_after files changes i hi
  have hgoes : (System.after files changes).world.GoesOn w := by
    have hrun := World.goesOn_run (System.after files changes) more
    rwa [System.after, ← Runs.run_append] at hrun
  obtain ⟨i', hi', hid, calls, hrun⟩ := hgoes.instances i hi d hget hleft
  obtain ⟨d', hget', hleft', hlived'⟩ := World.lived_after files (changes ++ more) i' hi'
  obtain ⟨d'', hget'', _, hsame⟩ := hgoes.graphs _ d hget hleft
  have hdefinition : i'.workflowDefinitionId = i.workflowDefinitionId :=
    hrun ▸ (WorkflowInstance.run_identity d i calls).2.2
  obtain rfl : d'' = d' := Option.some.inj ((hdefinition ▸ hget'').symm.trans hget')
  have hrun' : i' = Runs.run (WorkflowInstance.attempt d'') i calls := by
    rw [WorkflowInstance.attempt_congr hsame]
    exact hrun
  exact ⟨i', hi', hid, d'', hget', hleft', ⟨calls, hrun'⟩, hlived', hlived'.faithfulPath,
    hrun' ▸ WorkflowInstance.history_prefix i calls⟩

def asCalls (operations : List Operation) : List Change :=
  operations.map fun operation => .call ⟨.offline 1 "token", operation⟩

/-- Alice of Acme starts on a lease that is to be drafted and signed. -/
def leaseStarts : List Change := asCalls [
  .register "Acme" "Alice" "alice@acme.test" "secret" none none,
  .createAgent 1 "Legal" none,
  .createDefinition 1 "Leases" none,
  .addStep 1 ⟨"draft", "Draft", none, 1, true, false⟩,
  .addStep 1 ⟨"sign", "Sign", none, 1, false, true⟩,
  .addTransition 1 ⟨"draft", "sign", "send", none⟩,
  .activate 1,
  .createContract 1 "Lease" "Lease" 1 "Alice" none]

def leaseEnds : List Change := asCalls [
  .addStep 1 ⟨"archive", "Archive", none, 1, false, true⟩,
  .transitionContract 1 "send" "Alice" none,
  .transitionContract 1 "send" "Alice" none]

/-- The lease is signed once, whatever else is tried. -/
theorem stored_instance_lease :
    ∃ i' ∈ (System.after (fun _ _ => none) (leaseStarts ++ leaseEnds)).world.db.instances.rows,
      i'.currentStepKey = "sign" ∧ i'.history.length = 2 ∧ ∃ d, WorkflowInstance.FaithfulPath d i' := by
  have hstarted : ∃ i ∈ (System.after (fun _ _ => none) leaseStarts).world.db.instances.rows, i.id = 1 := by
    decide +kernel
  obtain ⟨i, hi, hid⟩ := hstarted
  obtain ⟨i', hi', hid', d, _, _, _, _, hpath, _⟩ := stored_instance (fun _ _ => none) leaseStarts leaseEnds hi
  have hends : ∀ r ∈ (System.after (fun _ _ => none) (leaseStarts ++ leaseEnds)).world.db.instances.rows,
      r.id = 1 → r.currentStepKey = "sign" ∧ r.history.length = 2 := by
    decide +kernel
  obtain ⟨hkey, hlength⟩ := hends i' hi' (hid'.trans hid)
  exact ⟨i', hi', hkey, hlength, d, hpath⟩

end Orchestract
