import Mathlib.Data.Fintype.EquivFin
import Orchestract.Workflow.Aggregate

/-!
# Finishing a draft

Steps and transitions are only ever added. Every draft can still be brought to a graph that
`activate` accepts: add a start step when there is none, an end step, and a transition from the
start step to every step.
-/

namespace Orchestract.WorkflowDefinition

set_option autoImplicit false

/-- The calls that add to the graph; the added steps are the agent's. -/
inductive Call.Adds (agentId : Nat) : Call → Prop where
  | step {step : WorkflowStep} (owner : step.agentId = agentId) : Call.Adds agentId (.addStep step)
  | transition (t : WorkflowTransition) : Call.Adds agentId (.addTransition t)

/-- Calls that add to the graph, none of which raises, lead from one definition to the other. -/
def GrowsTo (agentId : Nat) (d d' : WorkflowDefinition) : Prop :=
  ∃ calls : List Call, (∀ call ∈ calls, call.Adds agentId) ∧
    calls.foldlM (fun d call => call.result d) d = .ok d'

variable {agentId : Nat} {d d' d'' : WorkflowDefinition}

theorem GrowsTo.refl (agentId : Nat) (d : WorkflowDefinition) : GrowsTo agentId d d :=
  ⟨[], by simp, rfl⟩

theorem GrowsTo.trans (h : GrowsTo agentId d d') (h' : GrowsTo agentId d' d'') :
    GrowsTo agentId d d'' := by
  obtain ⟨calls, hadds, hrun⟩ := h
  obtain ⟨calls', hadds', hrun'⟩ := h'
  refine ⟨calls ++ calls', ?_, ?_⟩
  · intro call hcall
    rcases List.mem_append.mp hcall with hcall | hcall
    · exact hadds call hcall
    · exact hadds' call hcall
  · rw [List.foldlM_append, bind_ok_iff]
    exact ⟨d', hrun, hrun'⟩

theorem GrowsTo.single {call : Call} (h : call.Adds agentId) (hcall : call.result d = .ok d') :
    GrowsTo agentId d d' := by
  refine ⟨[call], ?_, ?_⟩
  · intro c hc
    rw [List.mem_singleton.mp hc]
    exact h
  · rw [List.foldlM_cons, hcall]
    rfl

theorem exists_fresh (names : List String) : ∃ name, name ∉ names := by
  obtain ⟨name, hname⟩ := Infinite.exists_notMem_finset names.toFinset
  exact ⟨name, fun hmem => hname (List.mem_toFinset.mpr hmem)⟩

/-- A step with a key of its own can be added to a draft, as the start step when there is none. -/
theorem exists_addStep (agentId : Nat) (isInitial isTerminal : Bool) (hd : d.status = .draft)
    (hinit : isInitial = true → ∀ s ∈ d.steps, s.isInitial = false) :
    ∃ key, GrowsTo agentId d
      { d with steps := d.steps ++ [⟨key, key, none, agentId, isInitial, isTerminal⟩] } := by
  obtain ⟨key, hkey⟩ := exists_fresh (d.steps.map (fun step => step.key))
  have hfresh : ∀ s ∈ d.steps, s.key ≠ key := by
    intro s hs heq
    exact hkey (List.mem_map.mpr ⟨s, hs, heq⟩)
  exact ⟨key, GrowsTo.single (.step rfl) (addStep_ok_iff.mpr ⟨hd, hfresh, hinit, rfl⟩)⟩

/-- A draft of which at most one step is a start step gets exactly one. -/
theorem exists_initial (agentId : Nat) (hd : d.status = .draft)
    (hone : (d.steps.filter (fun step => step.isInitial)).length ≤ 1) :
    ∃ d' initial, GrowsTo agentId d d' ∧ d'.status = .draft ∧
      d'.steps.filter (fun step => step.isInitial) = [initial] := by
  rcases hs : d.steps.filter (fun step => step.isInitial) with - | ⟨initial, - | ⟨b, rest⟩⟩
  · have hnone : ∀ s ∈ d.steps, s.isInitial = false := by
      intro s hmem
      simpa using List.filter_eq_nil_iff.mp hs s hmem
    obtain ⟨key, hgrows⟩ := exists_addStep agentId true false hd fun _ => hnone
    refine ⟨_, ⟨key, key, none, agentId, true, false⟩, hgrows, hd, ?_⟩
    rw [List.filter_append, hs]
    rfl
  · exact ⟨d, initial, GrowsTo.refl agentId d, hd, hs⟩
  · rw [hs] at hone
    simp at hone

/-- Transitions from one step to every key of a list can be added, under fresh action names. -/
theorem exists_edges (agentId : Nat) {start : String} {keys : List String} (hd : d.status = .draft)
    (hstart : ∃ s ∈ d.steps, s.key = start) (hkeys : ∀ k ∈ keys, ∃ s ∈ d.steps, s.key = k) :
    ∃ d', GrowsTo agentId d d' ∧ d'.status = .draft ∧ d'.steps = d.steps ∧
      ∀ k, k ∈ keys ∨ k ∈ d.successors start → k ∈ d'.successors start := by
  induction keys generalizing d with
  | nil =>
    refine ⟨d, GrowsTo.refl agentId d, hd, rfl, ?_⟩
    intro k hk
    rcases hk with hk | hk
    · cases hk
    · exact hk
  | cons key keys ih =>
    obtain ⟨name, hname⟩ := exists_fresh (d.transitions.map (fun t => t.actionName))
    let t : WorkflowTransition := ⟨start, key, name, none⟩
    let wider : WorkflowDefinition := { d with transitions := d.transitions ++ [t] }
    have hnew : ∀ u ∈ d.transitions, u.fromStepKey = t.fromStepKey → u.actionName ≠ t.actionName := by
      intro u hu _ heq
      exact hname (List.mem_map.mpr ⟨u, hu, heq⟩)
    have hadd : d.addTransition t = .ok wider :=
      addTransition_ok_iff.mpr ⟨hd, hstart, hkeys key List.mem_cons_self, hnew, rfl⟩
    obtain ⟨d', hgrows, hd', hsteps, hnext⟩ :=
      ih (d := wider) hd hstart fun k hk => hkeys k (List.mem_cons_of_mem key hk)
    refine ⟨d', (GrowsTo.single (.transition t) hadd).trans hgrows, hd',
      hsteps, ?_⟩
    intro k hk
    apply hnext k
    have hwider : ∀ k, k = key ∨ k ∈ d.successors start → k ∈ wider.successors start := by
      intro k hk
      apply mem_successors_iff.mpr
      rcases hk with rfl | hk
      · exact ⟨t, List.mem_append_right _ (List.mem_singleton_self t), rfl, rfl⟩
      · obtain ⟨u, hu, hfrom, hto⟩ := mem_successors_iff.mp hk
        exact ⟨u, List.mem_append_left _ hu, hfrom, hto⟩
    rcases hk with hk | hk
    · rcases List.mem_cons.mp hk with hk | hk
      · exact Or.inr (hwider k (Or.inl hk))
      · exact Or.inl hk
    · exact Or.inr (hwider k (Or.inr hk))

/-- Whatever has been added to a draft, it can be finished and activated; the steps that are still
to be added can be any agent's. -/
theorem Built.finishable (h : d.Built) (hd : d.status = .draft) (agentId : Nat) :
    ∃ finished active, GrowsTo agentId d finished ∧ finished.activate = .ok active := by
  obtain ⟨d₁, initial, hgrows₁, hd₁, hinit⟩ :=
    exists_initial agentId hd h.sound.wellFormed.one_initial
  obtain ⟨key, hgrows₂⟩ := exists_addStep agentId false true hd₁ nofun
  let last : WorkflowStep := ⟨key, key, none, agentId, false, true⟩
  let d₂ : WorkflowDefinition := { d₁ with steps := d₁.steps ++ [last] }
  have hd₂ : d₂.status = .draft := hd₁
  have hinit₂ : d₂.steps.filter (fun step => step.isInitial) = [initial] := by
    rw [List.filter_append, hinit]
    rfl
  have hmem : initial ∈ d₂.steps := by
    have hfilter : initial ∈ d₂.steps.filter (fun step => step.isInitial) := by simp [hinit₂]
    exact List.mem_of_mem_filter hfilter
  have hkeys : ∀ k ∈ d₂.steps.map (fun step => step.key), ∃ s ∈ d₂.steps, s.key = k := by simp
  obtain ⟨d₃, hgrows₃, hd₃, hsteps, hnext⟩ := exists_edges agentId hd₂ ⟨initial, hmem, rfl⟩ hkeys
  have hvalid : d₃.Validated := by
    refine ⟨⟨initial, hsteps ▸ hinit₂, ?_⟩, ?_⟩
    · intro step hstep
      apply Relation.ReflTransGen.single
      exact hnext step.key (Or.inl (List.mem_map_of_mem (hsteps ▸ hstep)))
    · exact ⟨last, hsteps ▸ List.mem_append_right _ (List.mem_singleton_self last), rfl⟩
  refine ⟨d₃, _, (hgrows₁.trans hgrows₂).trans hgrows₃, activate_ok_iff.mpr ⟨hd₃, ?_, rfl⟩⟩
  exact (findValidationIssues_eq_nil_iff d₃).mpr hvalid

/-- A draft whose only steps are two that nothing leads to, one of them with a loop. -/
theorem finishable_stray :
    let calls := [.addStep ⟨"review", "Review", none, 1, false, false⟩,
      .addStep ⟨"sign", "Sign", none, 2, false, false⟩,
      .addTransition ⟨"sign", "sign", "again", none⟩]
    ∃ finished active, GrowsTo 1 (madeBy calls) finished ∧ finished.activate = .ok active := by
  intro calls
  exact Built.finishable (built_madeBy calls) (by decide) 1

end Orchestract.WorkflowDefinition
