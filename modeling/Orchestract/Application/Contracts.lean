import Orchestract.Application.Workflows

/-!
# Contracts and the permission of a step

The service of `app/application/contract_service.py` and the check of
`app/application/permissions.py`.
-/

namespace Orchestract

set_option autoImplicit false

def supportedAIModels : List String := ["claude-opus-5", "claude-sonnet-5", "claude-haiku-4-5"]

def assistantToolNames : List String :=
  ["advance_workflow_step", "add_document_to_contract", "upload_document_version"]

namespace ContractService

def get (contractId : Nat) : Query Contract := require "contract" contractId

/-- `contract.documents`, ordered by id as the table is. -/
def documentsOf (contractId : Nat) : Query (List Document) :=
  select (fun d : Document => d.contractId = contractId)

def listForOrganization (organizationId : Nat) : Query (List Contract) := do
  let rows ← select (fun c : Contract => c.organizationId = organizationId)
  return orderByDesc Contract.updatedAt rows

def getForContract (contractId : Nat) : Query (Option WorkflowInstance) := do
  let rows ← select (fun i : WorkflowInstance => i.contractId = contractId)
  return (orderByDesc WorkflowInstance.startedAt rows).head?

def getInstance (contractId : Nat) : Query WorkflowInstance := do
  let found ← getForContract contractId
  orRaise (DomainError.notFound s!"no workflow instance for contract {contractId}") found

def createContract (env : Env) (organizationId : Nat) (title contractType : String)
    (workflowDefinitionId : Nat) (actor : String) (description : Option String) :
    UnitOfWork Contract := do
  let organization ← OrganizationService.get organizationId
  requireRoom organization PlanLimits.maxContracts "contracts" (listForOrganization organizationId)
  let definition ← WorkflowService.get workflowDefinitionId
  let contract ← Contract.create organizationId title contractType description env.now
  let (contract, document) ← contract.addDocument "Main Document" env.now
  let contract ← add contract
  let _ ← add { document with contractId := contract.id }
  let started ← WorkflowInstance.start contract.id definition actor env.now
  let _ ← add started
  return contract

def setSummary (env : Env) (contractId : Nat) (summary : String) : UnitOfWork Contract :=
  change "contract" contractId fun contract => .ok (contract.setSummary summary env.now)

/-- The checks before the unit of work opens. -/
def checkAIConfig (model : Option String) (allowedTools : Option (List String)) :
    Except DomainError Unit := do
  if let some m := model then
    raiseIf (m ∉ supportedAIModels) (.invalidAIConfig s!"'{m}' is not a supported model")
  if let some tools := allowedTools then
    raiseIf (tools.any (fun t => t ∉ assistantToolNames))
      (.invalidAIConfig "allowed_tools contains an unrecognized tool name")

def setAIConfig (env : Env) (contractId : Nat) (enabled : Option Bool)
    (model instructions : Option String) (allowedTools : Option (List String)) :
    UnitOfWork Contract := do
  checkAIConfig model allowedTools
  let config : AIConfig := ⟨enabled, model, instructions.bind Text.orNone, allowedTools⟩
  change "contract" contractId fun contract => .ok (contract.setAIConfig config env.now)

def addDocument (env : Env) (contractId : Nat) (name : String) : UnitOfWork Document := do
  let contract ← get contractId
  let (contract, document) ← contract.addDocument name env.now
  save contract
  add document

def availableActions (contractId : Nat) : Query (List WorkflowTransition) := do
  let i ← getInstance contractId
  let definition ← WorkflowService.get i.workflowDefinitionId
  return i.availableActions definition

def transitionContract (env : Env) (contractId : Nat) (actionName actor : String)
    (comment : Option String) : UnitOfWork WorkflowInstance := do
  let i ← getInstance contractId
  let definition ← WorkflowService.get i.workflowDefinitionId
  let i ← i.applyTransition definition actionName actor comment env.now
  save i
  return i

end ContractService

/-- The step the contract is on. -/
def currentStep (contractId : Nat) : Query WorkflowStep := do
  let i ← ContractService.getInstance contractId
  let definition ← WorkflowService.get i.workflowDefinitionId
  definition.getStep i.currentStepKey

def assertCanEditContractStep (contractId : Nat) (user : User) : Query Unit := do
  let step ← currentStep contractId
  let allowed ← RoleService.canEditStep user step.agentId
  raiseIf (¬ allowed) DomainError.permissionDenied

/-! ## What they do -/

/-- The user may act on the step the contract is on. -/
def CanEdit (w : World) (user : User) (contractId : Nat) : Prop :=
  ∃ step, currentStep contractId w = .ok step ∧
    canEditStep user.roleId (w.db.roles.select (fun r => r.agentId = some step.agentId)) = true

theorem assertCanEdit_ok_iff (contractId : Nat) (user : User) (w : World) (u : Unit) :
    assertCanEditContractStep contractId user w = .ok u ↔ CanEdit w user contractId := by
  simp only [assertCanEditContractStep, RoleService.canEditStep, RoleService.listForAgent,
    Read.bind_ok_iff, select_apply, Read.pure_apply, lift_query_ok_iff, raiseIf_ok_iff,
    Except.ok.injEq, CanEdit, not_not]
  constructor
  · rintro ⟨step, hstep, _, ⟨_, rfl, rfl⟩, hallowed⟩
    exact ⟨step, hstep, hallowed⟩
  · rintro ⟨step, hstep, hallowed⟩
    exact ⟨step, hstep, _, ⟨_, rfl, rfl⟩, hallowed⟩

/-- What runs after the check runs in the state the check looked at. -/
theorem afterCheck_world {α : Type} (contractId : Nat) (user : User) (act : Action α) (w : World) :
    (CanEdit w user contractId ∧
      ((liftM (assertCanEditContractStep contractId user) >>= fun _ => act : Action α) w).2 = (act w).2) ∨
    (¬ CanEdit w user contractId ∧
      ((liftM (assertCanEditContractStep contractId user) >>= fun _ => act : Action α) w).2 = w) := by
  rw [Program.bind_apply, Program.read_apply]
  rcases ok_or_error (assertCanEditContractStep contractId user w) with ⟨u, h⟩ | ⟨e, h⟩
  · rw [h]
    exact Or.inl ⟨(assertCanEdit_ok_iff _ _ _ u).mp h, rfl⟩
  · rw [h]
    refine Or.inr ⟨fun hc => ?_, rfl⟩
    rw [(assertCanEdit_ok_iff contractId user w ()).mpr hc] at h
    cases h

theorem currentStep_ok_iff (contractId : Nat) (w : World) (step : WorkflowStep) :
    currentStep contractId w = .ok step ↔
      ∃ i definition, ContractService.getInstance contractId w = .ok i ∧
        w.db.definitions.get i.workflowDefinitionId = some definition ∧
        definition.getStep i.currentStepKey = .ok step := by
  simp only [currentStep, WorkflowService.get, Read.bind_ok_iff, require_ok_iff, lift_query_ok_iff]
  constructor
  · rintro ⟨i, hi, definition, hdefinition, hstep⟩
    exact ⟨i, definition, hi, hdefinition, hstep⟩
  · rintro ⟨i, definition, hi, hdefinition, hstep⟩
    exact ⟨i, hi, definition, hdefinition, hstep⟩

namespace ContractService

theorem getInstance_ok {contractId : Nat} {w : World} {i : WorkflowInstance}
    (h : getInstance contractId w = .ok i) :
    i ∈ w.db.instances.rows ∧ i.contractId = contractId := by
  simp only [getInstance, getForContract, Read.bind_ok_iff, select_apply, Except.ok.injEq,
    Read.pure_apply] at h
  obtain ⟨_, ⟨_, rfl, rfl⟩, h⟩ := h
  have hhead := (orRaise_ok_iff _ _ _).mp ((lift_query_ok_iff _ _ _).mp h)
  have hmem := mem_orderByDesc.mp (List.mem_of_head? hhead)
  obtain ⟨hi, hp⟩ := Table.mem_select_iff.mp hmem
  exact ⟨hi, by simpa using hp⟩

/-- The instance of the contract after an `UPDATE` that keeps what it is found by. -/
theorem getInstance_save {contractId : Nat} {w w' : World} {i i' : WorkflowInstance}
    (hi : getInstance contractId w = .ok i) (hid : i'.id = i.id) (hc : i'.contractId = i.contractId)
    (hstarted : i'.startedAt = i.startedAt) (h : save i' w = .ok ((), w')) :
    getInstance contractId w' = .ok i' := by
  obtain ⟨hmem, _⟩ := getInstance_ok hi
  obtain ⟨_, t, ht, rfl⟩ := (save_ok_iff i' w w').mp h
  have hrow : ∀ r ∈ w.db.instances.rows, Row.id r = Row.id i' → r = i := fun r hr hrid =>
    Table.eq_of_id hr hmem (hrid.trans hid)
  have hs : t.select (fun r => r.contractId = contractId) =
      Table.overwrite i' (w.db.instances.select (fun r => r.contractId = contractId)) := by
    apply Table.select_overwrite ht
    intro r hr hrid
    rw [hrow r hr hrid, hc]
  have hkept : ∀ r ∈ w.db.instances.select (fun r => r.contractId = contractId),
      Row.id r = Row.id i' → i'.startedAt = r.startedAt := fun r hr hrid => by
    rw [hrow r (Table.mem_select_iff.mp hr).1 hrid, hstarted]
  simp only [getInstance, getForContract, Read.bind_ok_iff, select_apply, Except.ok.injEq,
    Read.pure_apply, lift_query_ok_iff, orRaise_ok_iff] at hi ⊢
  obtain ⟨_, ⟨_, rfl, rfl⟩, hhead⟩ := hi
  refine ⟨some i', ⟨_, rfl, ?_⟩, rfl⟩
  have hhead' : (orderByDesc WorkflowInstance.startedAt
    (w.db.instances.select (fun r => r.contractId = contractId))).head? = some i := hhead
  have hid' : Row.id i = Row.id i' := hid.symm
  change (orderByDesc WorkflowInstance.startedAt
    (t.select (fun r => r.contractId = contractId))).head? = some i'
  rw [hs, orderByDesc_overwrite WorkflowInstance.startedAt hkept, Table.overwrite, List.head?_map, hhead']
  simp [hid']

theorem transitionContract_ok_iff (env : Env) (contractId : Nat) (actionName actor : String)
    (comment : Option String) (w w' : World) (i' : WorkflowInstance) :
    transitionContract env contractId actionName actor comment w = .ok (i', w') ↔
      ∃ i definition, getInstance contractId w = .ok i ∧
        w.db.definitions.get i.workflowDefinitionId = some definition ∧
        i.applyTransition definition actionName actor comment env.now = .ok i' ∧
        save i' w = .ok ((), w') := by
  simp only [transitionContract, WorkflowService.get, Work.bind_ok_iff, Work.lift_ok_iff,
    require_ok_iff, lift_work_ok_iff, Work.pure_ok_iff]
  constructor
  · rintro ⟨i, _, ⟨hi, rfl⟩, definition, _, ⟨hdefinition, rfl⟩, _, _, ⟨hmove, rfl⟩, ⟨⟩, _, hsave, rfl, rfl⟩
    exact ⟨i, definition, hi, hdefinition, hmove, hsave⟩
  · rintro ⟨i, definition, hi, hdefinition, hmove, hsave⟩
    exact ⟨i, w, ⟨hi, rfl⟩, definition, w, ⟨hdefinition, rfl⟩, i', w, ⟨hmove, rfl⟩, (), w', hsave, rfl, rfl⟩

theorem addDocument_ok {env : Env} {contractId : Nat} {name : String} {w w' : World} {new : Document}
    (h : addDocument env contractId name w = .ok (new, w')) :
    ∃ c document w₁, w.db.contracts.get contractId = some c ∧ document.contractId = contractId ∧
      document.versions = [] ∧ save { c with updatedAt := env.now } w = .ok ((), w₁) ∧
      add document w₁ = .ok (new, w') := by
  simp only [addDocument, get, Work.bind_ok_iff, Work.lift_ok_iff, require_ok_iff,
    lift_work_ok_iff] at h
  obtain ⟨c, _, ⟨hc, rfl⟩, ⟨c', document⟩, _, ⟨hdocument, rfl⟩, ⟨⟩, w₁, hsave, hadd⟩ := h
  simp only [Contract.addDocument, Document.create, bind_ok_iff, return_ok_iff,
    Prod.mk.injEq] at hdocument
  obtain ⟨_, ⟨_, _, rfl⟩, rfl, rfl⟩ := hdocument
  exact ⟨c, _, w₁, hc, (Table.get_eq_some_iff.mp hc).2, rfl, hsave, hadd⟩

end ContractService

end Orchestract
