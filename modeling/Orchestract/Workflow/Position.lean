import Orchestract.Operations.Reaches
import Orchestract.Web.Pages

/-!
# The position of a contract

In every state that calls of the services lead to, a contract has one instance, the instance has
a definition that has left `DRAFT`, and the definition has one step with the instance's key. The
reads that look the position up never miss it.
-/

namespace Orchestract

set_option autoImplicit false

/-- The contract's instance, its definition and its step, each the only one. -/
structure Position (w : World) (contractId : Nat) (r : WorkflowInstance) (d : WorkflowDefinition)
    (step : WorkflowStep) : Prop where
  «instance» : w.db.instances.select (fun i => i.contractId = contractId) = [r]
  definition : w.db.definitions.get r.workflowDefinitionId = some d
  left : d.status ≠ .draft
  step : d.steps.filter (fun s => s.key = r.currentStepKey) = [step]

def HasPosition (w : World) (contractId : Nat) : Prop := ∃ r d step, Position w contractId r d step

structure Positioned (w : World) : Prop where
  sound : ∀ d ∈ w.db.definitions.rows, d.Sound
  owned : ∀ r ∈ w.db.instances.rows, ∃ c, w.db.contracts.get r.contractId = some c
  position : ∀ c ∈ w.db.contracts.rows, HasPosition w c.id

/-! ## Steps of a definition -/

namespace WorkflowDefinition

theorem Sound.congr {d d' : WorkflowDefinition} (h : d.Sound) (hs : d'.steps = d.steps)
    (ht : d'.transitions = d.transitions) (hstatus : d'.status = d.status) : d'.Sound :=
  ⟨h.wellFormed.congr hs ht, fun hd => (h.validated (hstatus ▸ hd)).congr hs ht⟩

theorem sound_run {d : WorkflowDefinition} (h : d.Sound) (calls : List Call) :
    (Runs.run perform d calls).Sound :=
  Runs.run_invariant (fun _ call hd => sound_perform call hd) h calls

theorem run_not_draft {d : WorkflowDefinition} (calls : List Call) (hd : d.status ≠ .draft) :
    (Runs.run perform d calls).status ≠ .draft :=
  Runs.run_invariant (I := fun d : WorkflowDefinition => d.status ≠ .draft)
    (fun _ call h => (perform_locked call h).2.2) hd calls

/-- Keys are distinct, so a step is the only one with its key. -/
theorem Sound.filter_key {d : WorkflowDefinition} (h : d.Sound) {step : WorkflowStep}
    (hs : step ∈ d.steps) : d.steps.filter (fun s => s.key = step.key) = [step] := by
  have hnodup : d.steps.Nodup := List.Nodup.of_map _ h.wellFormed.keys_nodup
  apply Table.eq_singleton (hnodup.filter _)
  · exact List.mem_filter.mpr ⟨hs, by simp⟩
  · intro s hmem
    obtain ⟨hs', hkey⟩ := List.mem_filter.mp hmem
    exact List.inj_on_of_nodup_map h.wellFormed.keys_nodup hs' hs (by simpa using hkey)

theorem getStep_of_filter {d : WorkflowDefinition} {key : String} {step : WorkflowStep}
    (h : d.steps.filter (fun s => s.key = key) = [step]) : d.getStep key = .ok step := by
  rw [getStep_ok_iff, ← List.head?_filter, h]
  rfl

end WorkflowDefinition

/-! ## What a commit does to positions -/

variable {i : Input} {w w' : World}

theorem hasPosition_congr {contractId : Nat} (h : HasPosition w contractId)
    (hi : w'.db.instances = w.db.instances) (hd : w'.db.definitions = w.db.definitions) :
    HasPosition w' contractId := by
  obtain ⟨r, d, step, ⟨h₁, h₂, h₃, h₄⟩⟩ := h
  exact ⟨r, d, step, by rwa [hi], by rwa [hd], h₃, h₄⟩

/-- A commit that touches neither contracts, instances nor definitions. -/
theorem positioned_of_eq (h : Positioned w) (hc : w'.db.contracts = w.db.contracts)
    (hi : w'.db.instances = w.db.instances) (hd : w'.db.definitions = w.db.definitions) :
    Positioned w' := by
  obtain ⟨hsound, howned, hposition⟩ := h
  exact ⟨by rwa [hd], by rwa [hi, hc],
    fun c hmem => hasPosition_congr (hposition c (hc ▸ hmem)) hi hd⟩

/-- Definitions may be added and edited, as long as those that have left `DRAFT` keep their steps. -/
theorem positioned_definitions {t : Table WorkflowDefinition} (h : Positioned w)
    (hsound : ∀ d ∈ t.rows, d.Sound)
    (hkept : ∀ id d, w.db.definitions.get id = some d → d.status ≠ .draft →
      ∃ d', t.get id = some d' ∧ d'.status ≠ .draft ∧ d'.steps = d.steps) :
    Positioned { w with db := { w.db with definitions := t } } := by
  refine ⟨hsound, h.owned, fun c hc => ?_⟩
  obtain ⟨r, d, step, hat⟩ := h.position c hc
  obtain ⟨d', hd', hleft, hsteps⟩ := hkept _ d hat.definition hat.left
  exact ⟨r, d', step, hat.instance, hd', hleft, by rw [hsteps]; exact hat.step⟩

theorem positioned_newDefinition {d new : WorkflowDefinition} {t : Table WorkflowDefinition}
    (h : Positioned w) (hb : d.Built) (ht : w.db.definitions.insert d = some (new, t)) :
    Positioned { w with db := { w.db with definitions := t } } := by
  apply positioned_definitions h
  · intro e he
    rcases (Table.mem_insert_iff ht).mp he with he | rfl
    · exact h.sound e he
    · obtain ⟨hnew, _, _⟩ := Table.insert_eq_some ht
      rw [hnew]
      exact hb.sound.congr rfl rfl rfl
  · intro id e he hleft
    exact ⟨e, Table.get_of_insert ht he, hleft, rfl⟩

theorem positioned_definition {d : WorkflowDefinition} {calls : List WorkflowDefinition.Call}
    {t : Table WorkflowDefinition} (h : Positioned w) (hd : d ∈ w.db.definitions.rows)
    (ht : w.db.definitions.update (Runs.run WorkflowDefinition.perform d calls) = some t) :
    Positioned { w with db := { w.db with definitions := t } } := by
  obtain ⟨hid, _⟩ := WorkflowDefinition.run_identity d calls
  apply positioned_definitions h
  · intro e he
    rcases Table.mem_update ht he with rfl | ⟨he, _⟩
    · exact WorkflowDefinition.sound_run (h.sound d hd) calls
    · exact h.sound e he
  · intro id e he hleft
    rw [Table.get_update ht]
    by_cases hrow : id = Row.id (Runs.run WorkflowDefinition.perform d calls)
    · obtain ⟨hmem, heid⟩ := Table.get_eq_some_iff.mp he
      obtain rfl : e = d := Table.eq_of_id hmem hd (heid.trans (hrow.trans hid))
      rw [if_pos hrow, he]
      exact ⟨_, rfl, WorkflowDefinition.run_not_draft calls hleft,
        (WorkflowDefinition.run_locked calls hleft).1⟩
    · rw [if_neg hrow]
      exact ⟨e, he, hleft, rfl⟩

/-- A contract is stored with its instance, on the start step of an active definition. -/
theorem positioned_newContract {definition : WorkflowDefinition} {k contract : Contract}
    {started new : WorkflowInstance} {actor : String} {now : Nat} {ks : Table Contract}
    {ds : Table Document} {is : Table WorkflowInstance} (h : Positioned w)
    (hdef : definition ∈ w.db.definitions.rows) (hk : w.db.contracts.insert k = some (contract, ks))
    (hstart : WorkflowInstance.start contract.id definition actor now = .ok started)
    (hi : w.db.instances.insert started = some (new, is)) :
    Positioned { w with db := { w.db with contracts := ks, documents := ds, instances := is } } := by
  obtain ⟨hactive, initial, hinitial, rfl⟩ := WorkflowInstance.start_ok_iff.mp hstart
  obtain ⟨hnew, _, _⟩ := Table.insert_eq_some hi
  have hnewContract : new.contractId = contract.id := by rw [hnew]; rfl
  -- no instance refers to the id that the contract is given
  have hfresh : ∀ r ∈ w.db.instances.rows, r.contractId ≠ contract.id := by
    intro r hr
    obtain ⟨c, hc⟩ := h.owned r hr
    exact Table.id_ne_of_insert hk hc
  refine ⟨h.sound, fun r hr => ?_, fun c hc => ?_⟩
  · rcases (Table.mem_insert_iff hi).mp hr with hr | rfl
    · obtain ⟨c, hc⟩ := h.owned r hr
      exact ⟨c, Table.get_of_insert hk hc⟩
    · refine ⟨contract, ?_⟩
      change ks.get r.contractId = some contract
      rw [hnewContract]
      exact Table.get_inserted hk
  · rcases (Table.mem_insert_iff hk).mp hc with hc | rfl
    · obtain ⟨r, d, step, hat⟩ := h.position c hc
      have hne : c.id ≠ contract.id := Table.id_ne_of_insert hk (Table.get_eq_some_iff.mpr ⟨hc, rfl⟩)
      refine ⟨r, d, step, ?_, hat.definition, hat.left, hat.step⟩
      rw [← hat.instance]
      exact Table.select_insert hi (by simpa [hnewContract] using hne.symm)
    · refine ⟨new, definition, initial, ?_, ?_, by simp [hactive], ?_⟩
      · have hnone : w.db.instances.select (fun r => r.contractId = c.id) = [] :=
          List.filter_eq_nil_iff.mpr fun r hr => by simpa using hfresh r hr
        obtain ⟨_, hrows, _⟩ := Table.insert_eq_some hi
        change is.rows.filter _ = _
        rw [hrows, List.filter_append]
        change w.db.instances.select _ ++ _ = _
        rw [hnone]
        simp [hnewContract]
      · rw [hnew]
        exact Table.get_eq_some_iff.mpr ⟨hdef, rfl⟩
      · rw [hnew]
        exact (h.sound definition hdef).filter_key (List.mem_of_find?_eq_some hinitial)

theorem positioned_contract {k k' : Contract} {t : Table Contract} (h : Positioned w)
    (hk : k ∈ w.db.contracts.rows) (hid : k'.id = k.id) (ht : w.db.contracts.update k' = some t) :
    Positioned { w with db := { w.db with contracts := t } } := by
  refine ⟨h.sound, fun r hr => ?_, fun c hc => ?_⟩
  · obtain ⟨c, hc⟩ := h.owned r hr
    refine Option.isSome_iff_exists.mp ?_
    change (t.get r.contractId).isSome = true
    rw [Table.get_update ht]
    by_cases hrow : r.contractId = Row.id k'
    · rw [if_pos hrow, hc]
      rfl
    · rw [if_neg hrow, hc]
      rfl
  · rcases Table.mem_update ht hc with rfl | ⟨hc, _⟩
    · rw [hid]
      exact hasPosition_congr (h.position k hk) rfl rfl
    · exact hasPosition_congr (h.position c hc) rfl rfl

/-- A transition moves the one instance of its contract to another step of the definition. -/
theorem positioned_instance {r r' : WorkflowInstance} {d : WorkflowDefinition}
    {call : WorkflowInstance.Call} {t : Table WorkflowInstance} (h : Positioned w)
    (hr : r ∈ w.db.instances.rows) (hd : w.db.definitions.get r.workflowDefinitionId = some d)
    (hmove : call.result d r = .ok r') (ht : w.db.instances.update r' = some t) :
    Positioned { w with db := { w.db with instances := t } } := by
  obtain ⟨_, _, _, target, htarget, rfl⟩ := WorkflowInstance.result_ok_iff.mp hmove
  have hkept : ∀ (c : Nat), ∀ b ∈ w.db.instances.rows,
      Row.id b = Row.id (WorkflowInstance.moved r target call) →
      decide ((WorkflowInstance.moved r target call).contractId = c) = decide (b.contractId = c) := by
    intro c b hb hid
    rw [Table.eq_of_id hb hr hid]
    rfl
  refine ⟨h.sound, fun b hb => ?_, fun c hc => ?_⟩
  · rcases Table.mem_update ht hb with rfl | ⟨hb, _⟩
    · exact h.owned r hr
    · exact h.owned b hb
  · obtain ⟨b, e, step, hat⟩ := h.position c hc
    have hselect : t.select (fun i => i.contractId = c.id) =
        Table.overwrite (WorkflowInstance.moved r target call) [b] := by
      rw [← hat.instance]
      exact Table.select_overwrite ht (hkept c.id)
    by_cases hrow : Row.id b = Row.id (WorkflowInstance.moved r target call)
    · have hb : b ∈ w.db.instances.rows := by
        have hmem : b ∈ w.db.instances.select (fun i => i.contractId = c.id) := by
          rw [hat.instance]
          exact List.mem_singleton_self b
        exact (Table.mem_select_iff.mp hmem).1
      obtain rfl : b = r := Table.eq_of_id hb hr hrow
      obtain rfl : e = d := Option.some.inj (hat.definition.symm.trans hd)
      refine ⟨b.moved target call, e, target, ?_, hd, hat.left, ?_⟩
      · change t.select _ = _
        rw [hselect, Table.overwrite, List.map_singleton, if_pos hrow]
      · exact (h.sound e (Table.get_eq_some_iff.mp hd).1).filter_key
          (WorkflowDefinition.getStep_ok htarget).1
    · refine ⟨b, e, step, ?_, hat.definition, hat.left, hat.step⟩
      change t.select _ = _
      rw [hselect, Table.overwrite, List.map_singleton, if_neg hrow]

theorem positioned_committed (h : Positioned w) (hstep : Committed i w w') : Positioned w' := by
  cases hstep with
  | newOrganization h' => exact positioned_of_eq h rfl rfl rfl
  | newAccount ho free hr roleOf unlinked hu userOf owner new => exact positioned_of_eq h rfl rfl rfl
  | newUser ho refs room h' new => exact positioned_of_eq h rfl rfl rfl
  | user hu edit refs h' => exact positioned_of_eq h rfl rfl rfl
  | newRole refs h' => exact positioned_of_eq h rfl rfl rfl
  | role refs h' => exact positioned_of_eq h rfl rfl rfl
  | newAgent ho room h' => exact positioned_of_eq h rfl rfl rfl
  | agent ha id organizationId h' => exact positioned_of_eq h rfl rfl rfl
  | newDefinition ho room built h' => exact positioned_newDefinition h built h'
  | copy call hs organizationId built h' => exact positioned_newDefinition h built h'
  | definition hd calls h' => exact positioned_definition h hd h'
  | newContract ho room hdef hk hd versions currentVersionNo hstart hi =>
    exact positioned_newContract h hdef hk hstart hi
  | contract hk id organizationId h' => exact positioned_contract h hk id h'
  | newDocument versions currentVersionNo h' => exact positioned_of_eq h rfl rfl rfl
  | document hd id versions currentVersionNo h' => exact positioned_of_eq h rfl rfl rfl
  | upload call t n files => exact positioned_of_eq h rfl rfl rfl
  | «instance» call hr hd move h' => exact positioned_instance h hr hd move h'
  | shareLinks t => exact positioned_of_eq h rfl rfl rfl
  | sessions t => exact positioned_of_eq h rfl rfl rfl
  | acceptances t => exact positioned_of_eq h rfl rfl rfl
  | newConnection primary h' => exact positioned_of_eq h rfl rfl rfl
  | connection hc edit h' => exact positioned_of_eq h rfl rfl rfl

theorem positioned_empty (files : Bucket → String → Option Bytes) : Positioned ⟨.empty, files⟩ where
  sound _ h := by cases h
  owned _ h := by cases h
  position _ h := by cases h

/-! ## Reads of the position -/

variable {contractId : Nat} {r : WorkflowInstance} {d : WorkflowDefinition} {step : WorkflowStep}

theorem getInstance_of_position (h : Position w contractId r d step) :
    ContractService.getInstance contractId w = .ok r := by
  simp only [ContractService.getInstance, ContractService.getForContract, Read.bind_ok_iff,
    select_apply, Except.ok.injEq, Read.pure_apply, lift_query_ok_iff, orRaise_ok_iff]
  refine ⟨some r, ⟨_, rfl, ?_⟩, rfl⟩
  change (orderByDesc _ (w.db.instances.select _)).head? = some r
  rw [h.instance]
  rfl

theorem availableActions_of_position (h : Position w contractId r d step) :
    ContractService.availableActions contractId w = .ok (r.availableActions d) := by
  simp only [ContractService.availableActions, WorkflowService.get, Read.bind_ok_iff, require_ok_iff,
    Read.pure_apply]
  exact ⟨r, getInstance_of_position h, d, h.definition, rfl⟩

theorem currentStep_of_position (h : Position w contractId r d step) :
    currentStep contractId w = .ok step :=
  (currentStep_ok_iff contractId w step).mpr
    ⟨r, d, getInstance_of_position h, h.definition, WorkflowDefinition.getStep_of_filter h.step⟩

/-- The check of a step says yes or no. -/
theorem assertCanEdit_of_position (h : Position w contractId r d step) (user : User) :
    assertCanEditContractStep contractId user w = .ok () ∨
      assertCanEditContractStep contractId user w = .error (.raised .permissionDenied) := by
  let allowed := canEditStep user.roleId (w.db.roles.select fun role => role.agentId = some step.agentId)
  have hcheck : assertCanEditContractStep contractId user w =
      raising (raiseIf (¬ allowed) .permissionDenied) w := by
    unfold assertCanEditContractStep
    rw [Read.bind_ok (currentStep_of_position h)]
    rfl
  rw [hcheck]
  cases allowed with
  | true => exact Or.inl rfl
  | false => exact Or.inr rfl

/-- One row of the dashboard. -/
theorem contractRow_of_position {c : Contract} (h : Position w c.id r d step)
    (agentNames : List (Nat × String)) : ∃ row, Pages.contractRow agentNames c w = .ok row := by
  have hstep : Pages.stepAndAgent d r.currentStepKey agentNames =
      .ok (step.name, (agentNames.lookup step.agentId).getD s!"agent #{step.agentId}") := by
    unfold Pages.stepAndAgent
    rw [WorkflowDefinition.getStep_of_filter h.step]
    rfl
  simp only [Pages.contractRow, WorkflowService.get, Read.bind_ok_iff, require_ok_iff,
    lift_query_ok_iff, Read.pure_apply, ContractService.documentsOf, select_apply]
  exact ⟨_, r, getInstance_of_position h, d, h.definition, _, hstep, _, rfl, rfl⟩

theorem contractRows_ok (names : List (Nat × String)) {contracts : List Contract}
    (h : ∀ c ∈ contracts, HasPosition w c.id) :
    ∃ rows, contracts.mapM (Pages.contractRow names) w = .ok rows := by
  induction contracts with
  | nil => exact ⟨[], rfl⟩
  | cons c cs ih =>
    obtain ⟨r, d, step, hc⟩ := h c List.mem_cons_self
    obtain ⟨row, hrow⟩ := contractRow_of_position hc names
    obtain ⟨rows, hrows⟩ := ih fun c' hc' => h c' (List.mem_cons_of_mem _ hc')
    refine ⟨row :: rows, ?_⟩
    rw [List.mapM_cons, Read.bind_ok hrow, Read.bind_ok hrows]
    rfl

/-- The dashboard of every organization is shown. -/
theorem dashboard_of_positioned (h : Positioned w) (v : Viewer) :
    ∃ page, Pages.dashboard v w = .ok page := by
  let contracts := orderByDesc Contract.updatedAt
    (w.db.contracts.select fun c => c.organizationId = v.organization.id)
  let agents := orderByText Agent.name
    (w.db.agents.select fun a => a.organizationId = v.organization.id)
  have hcontracts : ∀ c ∈ contracts, HasPosition w c.id := by
    intro c hc
    exact h.position c (Table.mem_select_iff.mp (mem_orderByDesc.mp hc)).1
  obtain ⟨rows, hrows⟩ := contractRows_ok (agents.map fun a => (a.id, a.name)) hcontracts
  have hlist : ContractService.listForOrganization v.organization.id w = .ok contracts := rfl
  have hinfo : Pages.contractRowsWithStepInfo v.organization.id contracts w = .ok rows := hrows
  simp only [Pages.dashboard, Read.bind_ok_iff]
  exact ⟨_, contracts, hlist, rows, hinfo, rfl⟩

/-- What a page or a check finds of a contract. -/
structure Resolves (w : World) (contractId : Nat) : Prop where
  position : HasPosition w contractId
  getInstance : ∃ r, ContractService.getInstance contractId w = .ok r
  availableActions : ∃ actions, ContractService.availableActions contractId w = .ok actions
  assertCanEdit : ∀ user, assertCanEditContractStep contractId user w = .ok () ∨
    assertCanEditContractStep contractId user w = .error (.raised .permissionDenied)

/-- No contract's position is missed, by its own pages or by a dashboard. -/
structure AllResolve (w : World) : Prop where
  contracts : ∀ c ∈ w.db.contracts.rows, Resolves w c.id
  dashboard : ∀ v, ∃ page, Pages.dashboard v w = .ok page

theorem allResolve_of_positioned (h : Positioned w) : AllResolve w := by
  refine ⟨fun c hc => ?_, dashboard_of_positioned h⟩
  obtain ⟨r, d, step, hat⟩ := h.position c hc
  exact ⟨⟨r, d, step, hat⟩, ⟨r, getInstance_of_position hat⟩,
    ⟨_, availableActions_of_position hat⟩, assertCanEdit_of_position hat⟩

/-- Whatever is called, in whatever order, starting with an empty database. -/
theorem positions_resolve (files : Bucket → String → Option Bytes) (inputs : List Input) :
    AllResolve (Runs.run perform ⟨⟨.empty, files⟩, .empty⟩ inputs).world :=
  allResolve_of_positioned (run_perform_invariant (fun _ _ _ h hstep => positioned_committed h hstep)
    (positioned_empty files) inputs)

end Orchestract
