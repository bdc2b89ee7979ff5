import Orchestract.Isolation.Visibility

/-!
# What each page sees of other organizations

For every `GET` route the condition under which a member sees the same after the other
organizations were erased: the rows it loads by an id are the organization's, or there are none,
and so are the roles linked to the agent of the step that it shows.
-/

namespace Orchestract

set_option autoImplicit false

section

variable (env : Env) (A : Nat) (w : World)

/-! ## What belongs to the organization -/

theorem agree_listing {α β : Type} [Row α] [Stored α] [Owned α] [Erased α] {p : α → Bool}
    (h : ∀ a, p a = true → Owned.owner w.db a = some A) (order : List α → β) :
    Read.Agree w (onlyOf env A w) (select p >>= fun rows => pure (order rows)) :=
  Read.agree_bind (agree_select env fun a _ ha => h a ha) fun _ _ _ => Read.agree_pure _ _ _

theorem agree_listAgents : Read.Agree w (onlyOf env A w) (AgentService.listAgents A) :=
  agree_listing env A w (fun _ h => by simpa [Owned.owner] using h) _

theorem agree_listRoles : Read.Agree w (onlyOf env A w) (RoleService.listRoles A) :=
  agree_listing env A w (fun _ h => by simpa [Owned.owner] using h) _

theorem agree_listUsers : Read.Agree w (onlyOf env A w) (UserService.listUsers A) :=
  agree_listing env A w (fun _ h => by simpa [Owned.owner] using h) _

theorem agree_listDefinitions : Read.Agree w (onlyOf env A w) (WorkflowService.listForOrganization A) :=
  agree_listing env A w (fun _ h => by simpa [Owned.owner] using h) _

theorem agree_listContracts : Read.Agree w (onlyOf env A w) (ContractService.listForOrganization A) :=
  agree_listing env A w (fun _ h => by simpa [Owned.owner] using h) _

theorem agree_listConnections : Read.Agree w (onlyOf env A w) (StorageService.listConnections A) :=
  agree_listing env A w (fun _ h => by simpa [Owned.owner] using h) _

theorem agree_agentNames : Read.Agree w (onlyOf env A w) (Pages.agentNames A) :=
  Read.agree_bind (agree_listAgents env A w) fun _ _ _ => Read.agree_pure _ _ _

variable {A w}

theorem agree_documentsOf {contractId : Nat} (h : w.db.contractOwner contractId = some A) :
    Read.Agree w (onlyOf env A w) (ContractService.documentsOf contractId) := by
  apply agree_select env
  intro d _ hd
  have hd' : d.contractId = contractId := by simpa using hd
  change w.db.contractOwner d.contractId = some A
  rw [hd', h]

theorem agree_linksOf {contractId : Nat} (h : w.db.contractOwner contractId = some A) :
    Read.Agree w (onlyOf env A w) (SharingService.listForContract contractId) := by
  refine agree_listing env A w (fun l hl => ?_) _
  have hl' : l.contractId = contractId := by simpa using hl
  change w.db.contractOwner l.contractId = some A
  rw [hl', h]

/-- The instances of the contract are the organization's: the contract is, or there are none. -/
def OwnInstances (A : Nat) (w : World) (contractId : Nat) : Prop :=
  ∀ i ∈ w.db.instances.rows, i.contractId = contractId → w.db.contractOwner contractId = some A

theorem exact_getInstance (contractId : Nat) :
    Exact w (onlyOf env A w) (ContractService.getInstance contractId) (OwnInstances A w contractId) where
  same := by
    intro h
    refine Read.agree_bind (Read.agree_bind (agree_select env fun i hi hc => ?_) fun _ _ _ =>
      Read.agree_pure _ _ _) fun _ _ _ => agree_const _
    have hc' : i.contractId = contractId := by simpa using hc
    change w.db.contractOwner i.contractId = some A
    rw [hc']
    exact h i hi hc'
  misses := by
    intro h
    unfold OwnInstances at h
    push Not at h
    obtain ⟨i, hi, hc, how⟩ := h
    have hne : (orderByDesc WorkflowInstance.startedAt
        (w.db.instances.select (fun i => i.contractId = contractId))) ≠ [] := by
      have hmem : i ∈ w.db.instances.select (fun i => i.contractId = contractId) :=
        Table.mem_select_iff.mpr ⟨hi, by simpa using hc⟩
      exact List.ne_nil_of_mem (mem_orderByDesc.mpr hmem)
    have hnone : (onlyOf env A w).db.instances.select (fun i => i.contractId = contractId) = [] := by
      change (ownTable WorkflowInstance A w.db).select (fun i => i.contractId = contractId) = []
      unfold ownTable
      rw [Table.select_restrict]
      apply List.filter_eq_nil_iff.mpr
      intro j hj
      have hj' : j.contractId = contractId := by simpa using (Table.mem_select_iff.mp hj).2
      simp only [Owned.owner, decide_eq_true_eq]
      rw [hj']
      exact how
    obtain ⟨j, rest, hj⟩ := List.exists_cons_of_ne_nil hne
    refine ⟨noInstance contractId, .started contractId j ?_, ?_⟩
    · rw [getInstance_eq, hj]
      rfl
    · rw [getInstance_eq, hnone]
      rfl

theorem agree_getInstance {contractId : Nat} (h : w.db.contractOwner contractId = some A) :
    Read.Agree w (onlyOf env A w) (ContractService.getInstance contractId) :=
  (exact_getInstance env contractId).same fun _ _ _ => h

/-! ## Rows of contracts -/

/-- The definitions of the listed contracts are the organization's, up to the first contract
that does not load. -/
def RowsOwn (A : Nat) (w : World) : List Contract → Prop
  | [] => True
  | c :: cs =>
    (∀ i, ContractService.getInstance c.id w = .ok i →
      OwnRow A w WorkflowDefinition i.workflowDefinitionId) ∧
    ((∃ step, currentStep c.id w = .ok step) → RowsOwn A w cs)

theorem contractRow_ok_iff (names : List (Nat × String)) (c : Contract) :
    (∃ row, Pages.contractRow names c w = .ok row) ↔ ∃ step, currentStep c.id w = .ok step := by
  simp only [currentStep_ok_iff, Pages.contractRow, Pages.stepAndAgent, WorkflowService.get,
    ContractService.documentsOf, Read.bind_ok_iff, require_ok_iff, lift_query_ok_iff, bind_ok_iff,
    return_ok_iff, select_apply, Except.ok.injEq, Read.pure_apply]
  constructor
  · rintro ⟨_, i, hi, definition, hdefinition, _, ⟨step, hstep, _⟩, _⟩
    exact ⟨step, i, definition, hi, hdefinition, hstep⟩
  · rintro ⟨step, i, definition, hi, hdefinition, hstep⟩
    exact ⟨_, i, hi, definition, hdefinition, _, ⟨step, hstep, rfl⟩, _, rfl, rfl⟩

theorem exact_contractRow (names : List (Nat × String)) {c : Contract}
    (hc : w.db.contractOwner c.id = some A) :
    Exact w (onlyOf env A w) (Pages.contractRow names c)
      (∀ i, ContractService.getInstance c.id w = .ok i →
        OwnRow A w WorkflowDefinition i.workflowDefinitionId) := by
  refine exact_after (agree_getInstance env hc) fun i _ _ => ?_
  refine exact_then (exact_definition env A w i.workflowDefinitionId) fun definition _ _ => ?_
  refine Read.agree_bind (agree_const _) fun step _ _ => ?_
  exact Read.agree_bind (agree_documentsOf env hc) fun _ _ _ => Read.agree_pure _ _ _

theorem exact_contractRows (names : List (Nat × String)) {cs : List Contract}
    (hcs : ∀ c ∈ cs, w.db.contractOwner c.id = some A) :
    Exact w (onlyOf env A w) (cs.mapM (Pages.contractRow names)) (RowsOwn A w cs) := by
  induction cs with
  | nil => exact exact_of_agree (Read.agree_pure _ _ _)
  | cons c cs ih =>
    rw [List.mapM_cons]
    have htail := ih fun d hd => hcs d (List.mem_cons_of_mem _ hd)
    refine (exact_bind (exact_contractRow env names (hcs c List.mem_cons_self)) fun row _ _ =>
      exact_then htail fun rows _ _ => Read.agree_pure _ _ _).iff (and_congr_right fun _ => ?_)
    rw [← contractRow_ok_iff names c]
    exact ⟨fun h ⟨row, hrow⟩ => h row hrow, fun h row hrow => h ⟨row, hrow⟩⟩

theorem contractOwner_of_listed {contracts : List Contract}
    (h : ContractService.listForOrganization A w = .ok contracts) :
    ∀ c ∈ contracts, w.db.contractOwner c.id = some A := by
  intro c hc
  obtain rfl := Except.ok.inj h
  obtain ⟨hmem, how⟩ := Table.mem_select_iff.mp (mem_orderByDesc.mp hc)
  have hget : w.db.contracts.get c.id = some c := Table.get_eq_some_iff.mpr ⟨hmem, rfl⟩
  have how' : c.organizationId = A := by simpa using how
  unfold Database.contractOwner
  rw [hget, ← how']
  rfl

theorem mem_of_mem_matching {q contractType : String} {contracts : List Contract} {c : Contract}
    (h : c ∈ Pages.matching q contractType contracts) : c ∈ contracts := by
  unfold Pages.matching at h
  have hfound : ∀ d ∈ (if q = "" then contracts
      else contracts.filter (fun c => Pages.contains (Text.lower c.title) (Text.lower q))),
      d ∈ contracts := by
    intro d hd
    split at hd
    · exact hd
    · exact List.mem_of_mem_filter hd
  simp only at h
  split at h
  · exact hfound c h
  · exact hfound c (List.mem_of_mem_filter h)

theorem exact_listedRows (select : List Contract → List Contract)
    (hsub : ∀ cs c, c ∈ select cs → c ∈ cs) {α : Type} (f : List Contract → List ContractRow → α) :
    Exact w (onlyOf env A w)
      (do
        let contracts ← ContractService.listForOrganization A
        let rows ← Pages.contractRowsWithStepInfo A (select contracts)
        return f contracts rows)
      (∀ contracts, ContractService.listForOrganization A w = .ok contracts →
        RowsOwn A w (select contracts)) := by
  refine exact_after (agree_listContracts env A w) fun contracts hcontracts _ => ?_
  refine exact_then ?_ fun rows _ _ => Read.agree_pure _ _ _
  have howned : ∀ c ∈ select contracts, w.db.contractOwner c.id = some A := fun c hc =>
    contractOwner_of_listed hcontracts c (hsub contracts c hc)
  refine (exact_after (agree_agentNames env A w) fun names _ _ =>
    exact_contractRows env names howned).iff ⟨fun h => ?_, fun h _ _ => h⟩
  exact h _ rfl

/-! ## The step of a contract -/

/-- Every role linked to the agent is the organization's. -/
def OwnRoles (A : Nat) (w : World) (agentId : Nat) : Prop :=
  ∀ role ∈ w.db.roles.rows, role.agentId = some agentId → role.organizationId = A

theorem agree_listForAgent {agentId : Nat} (h : OwnRoles A w agentId) :
    Read.Agree w (onlyOf env A w) (RoleService.listForAgent agentId) := by
  apply agree_select env
  intro role hrole hagent
  exact congrArg some (h role hrole (by simpa using hagent))

/-- The roles linked to an agent, after the other organizations' were erased. -/
theorem listForAgent_onlyOf (agentId : Nat) :
    RoleService.listForAgent agentId (onlyOf env A w) =
      .ok ((w.db.roles.select (fun r => r.agentId = some agentId)).filter
        (fun r => Owned.owner w.db r = some A)) := by
  change Except.ok ((ownTable Role A w.db).select (fun r => r.agentId = some agentId)) = _
  unfold ownTable
  rw [Table.select_restrict]
  rfl

theorem length_listForAgent {agentId : Nat} (h : ¬ OwnRoles A w agentId) :
    ((w.db.roles.select (fun r => r.agentId = some agentId)).filter
      (fun r => Owned.owner w.db r = some A)).length ≠
        (w.db.roles.select (fun r => r.agentId = some agentId)).length := by
  intro hlen
  apply h
  intro role hrole hagent
  have hall := List.length_filter_eq_length_iff.mp hlen role
    (Table.mem_select_iff.mpr ⟨hrole, by simpa using hagent⟩)
  simpa [Owned.owner] using hall

theorem exact_currentStep (contractId : Nat) :
    Exact w (onlyOf env A w) (currentStep contractId)
      (OwnInstances A w contractId ∧ ∀ i, ContractService.getInstance contractId w = .ok i →
        OwnRow A w WorkflowDefinition i.workflowDefinitionId) := by
  refine exact_bind (exact_getInstance env contractId) fun i _ _ => ?_
  exact exact_then (exact_definition env A w _) fun _ _ _ => agree_const _

/-- The end of `_contract_detail_context`: the roles are read, and their names are shown. -/
theorem decided_editRoles {contractId : Nat} (hc : w.db.contractOwner contractId = some A)
    (user : User) (agentId : Nat) (make : Bool → List Role → List ShareLink → ContractDetail)
    (hmake : ∀ b roles links, (make b roles links).editRoleNames = roles.map (fun r => r.name)) :
    Decided w (onlyOf env A w)
      (do
        let canEdit ← RoleService.canEditStep user agentId
        let editRoles ← RoleService.listForAgent agentId
        let links ← SharingService.listForContract contractId
        return make canEdit editRoles links)
      (OwnRoles A w agentId) where
  same := by
    intro h
    refine Read.agree_bind ?_ fun canEdit _ _ => ?_
    · exact Read.agree_bind (agree_listForAgent env h) fun _ _ _ => Read.agree_pure _ _ _
    · exact Read.agree_bind (agree_listForAgent env h) fun roles _ _ =>
        Read.agree_bind (agree_linksOf env hc) fun links _ _ => Read.agree_pure _ _ _
  apart := by
    intro h
    refine Or.inr ⟨⟨_, rfl⟩, fun heq => length_listForAgent h ?_⟩
    have hpages : make _ _ _ = make _ _ _ := Except.ok.inj heq
    have hnames := congrArg (fun c : ContractDetail => c.editRoleNames.length) hpages
    simp only [hmake, List.length_map] at hnames
    have hroles := Except.ok.inj (listForAgent_onlyOf env (A := A) (w := w) agentId)
    rw [← hroles]
    exact hnames.symm

theorem owner_of_get_onlyOf {α : Type} [Row α] [Stored α] [Owned α] [Erased α] {what : String}
    {id : Nat} {a : α} (h : (require what id : Query α) (onlyOf env A w) = .ok a) :
    (Stored.table w.db).get id = some a ∧ Owned.owner w.db a = some A := by
  rw [require_ok_iff, get_onlyOf, Option.filter_eq_some_iff] at h
  exact ⟨h.1, by simpa using h.2⟩

theorem ownRow_of_get_onlyOf {α : Type} [Row α] [Stored α] [Owned α] [Erased α] {what : String}
    {id : Nat} {a : α} (h : (require what id : Query α) (onlyOf env A w) = .ok a) : OwnRow A w α id := by
  obtain ⟨hget, howner⟩ := owner_of_get_onlyOf env h
  intro b hb
  obtain rfl := Option.some.inj (hget.symm.trans hb)
  exact howner

theorem contractOwner_of_get {contractId : Nat} {contract : Contract}
    (h : ContractService.get contractId (onlyOf env A w) = .ok contract) :
    w.db.contractOwner contractId = some A := by
  obtain ⟨hget, how⟩ := owner_of_get_onlyOf env h
  have hget' : w.db.contracts.get contractId = some contract := hget
  unfold Database.contractOwner
  rw [hget']
  exact how

theorem decided_contractDetailOf (v : Viewer) (contract : Contract) (documents : List Document)
    (i : WorkflowInstance) (definition : WorkflowDefinition)
    (hc : w.db.contractOwner contract.id = some v.organization.id) :
    Decided w (onlyOf env v.organization.id w)
      (Pages.contractDetailOf env v contract documents i definition)
      (∀ step, definition.getStep i.currentStepKey = .ok step →
        OwnRoles v.organization.id w step.agentId) := by
  unfold Pages.contractDetailOf
  refine decided_skip (agree_agentNames env _ w) ⟨_, rfl⟩ fun names _ _ => ?_
  have hstep : ∀ step, definition.getStep i.currentStepKey = .ok step →
      ∃ names', Pages.stepAndAgent definition i.currentStepKey names = .ok names' := by
    intro step hstep
    unfold Pages.stepAndAgent
    rw [hstep]
    exact ⟨_, rfl⟩
  refine (decided_raising _ (fun _ => ∀ step, definition.getStep i.currentStepKey = .ok step →
    OwnRoles v.organization.id w step.agentId) fun stepName _ => ?_).iff
      ⟨fun h step hs => ?_, fun h _ _ => h⟩
  · refine decided_skip (agree_listConnections env _ w) ⟨_, rfl⟩ fun connections _ _ => ?_
    exact decided_raising _ (fun step : WorkflowStep => OwnRoles v.organization.id w step.agentId)
      fun step _ => decided_editRoles env hc v.user step.agentId _ fun _ _ _ => rfl
  · obtain ⟨names', hn⟩ := hstep step hs
    exact h names' hn step hs

/-- The page of a contract shows the contract, the definition its instance follows, and the roles
linked to the agent of its step. -/
def OwnDetail (A : Nat) (w : World) (contractId : Nat) : Prop :=
  OwnRow A w Contract contractId ∧ ∀ contract, ContractService.get contractId w = .ok contract →
    ∀ i, ContractService.getInstance contractId w = .ok i →
      OwnRow A w WorkflowDefinition i.workflowDefinitionId ∧
        ∀ definition, WorkflowService.get i.workflowDefinitionId w = .ok definition →
          ∀ step, definition.getStep i.currentStepKey = .ok step → OwnRoles A w step.agentId

theorem decided_contractDetailContext (v : Viewer) (contractId : Nat) :
    Decided w (onlyOf env v.organization.id w) (Pages.contractDetailContext env v contractId)
      (OwnDetail v.organization.id w contractId) := by
  unfold Pages.contractDetailContext
  refine decided_bind (exact_contract env _ w contractId) fun contract hget hget' => ?_
  have hc := contractOwner_of_get env hget'
  refine decided_skip (agree_documentsOf env hc) ⟨_, rfl⟩ fun documents _ _ => ?_
  refine decided_after (agree_getInstance env hc) fun i _ _ => ?_
  refine decided_bind (exact_definition env _ w _) fun definition _ _ => ?_
  have hid : contract.id = contractId := (Table.get_eq_some_iff.mp ((require_ok_iff _ _ _ _).mp hget)).2
  rw [← hid] at hc
  exact decided_contractDetailOf env v contract documents i definition hc

/-! ## The browser of a connected drive -/

theorem currentStep_not_denied (contractId : Nat) :
    currentStep contractId w ≠ .error (.raised .permissionDenied) := by
  intro h
  unfold currentStep at h
  rcases (Read.bind_error_iff _ _ _ _).mp h with h | ⟨i, _, h⟩
  · rw [getInstance_eq] at h
    split at h <;> cases h
  · rcases (Read.bind_error_iff _ _ _ _).mp h with h | ⟨definition, _, h⟩
    · rw [WorkflowService.get, require_eq] at h
      split at h <;> cases h
    · change raising (definition.getStep i.currentStepKey) w = _ at h
      unfold raising WorkflowDefinition.getStep at h
      generalize definition.steps.find? (fun s => s.key = i.currentStepKey) = found at h
      cases found <;> cases h

theorem permitted_eq (contractId : Nat) (user : User) :
    Pages.permitted contractId user =
      currentStep contractId >>= fun step => RoleService.canEditStep user step.agentId := by
  funext w
  unfold Pages.permitted assertCanEditContractStep
  rcases ok_or_error (currentStep contractId w) with ⟨step, h⟩ | ⟨e, h⟩
  · rw [Read.bind_ok h, Read.bind_ok h]
    obtain ⟨allowed, hallowed⟩ : ∃ b, RoleService.canEditStep user step.agentId w = .ok b := ⟨_, rfl⟩
    rw [Read.bind_ok hallowed, hallowed]
    cases allowed <;> rfl
  · have hfails : ∀ {β : Type} (f : WorkflowStep → Query β),
        (currentStep contractId >>= f) w = .error e := fun f => (Read.bind_error_iff _ _ _ _).mpr (Or.inl h)
    have hdenied : e ≠ .raised .permissionDenied := fun he => currentStep_not_denied contractId (he ▸ h)
    rw [hfails, hfails]
    split
    · cases ‹_›
    · rename_i heq
      exact absurd (Except.error.inj heq) hdenied
    · rename_i heq
      rw [Except.error.inj heq]

/-- The roles of the organization that are linked to the agent decide as all the linked roles do. -/
def OwnGuard (A : Nat) (w : World) (user : User) (agentId : Nat) : Prop :=
  RoleService.canEditStep user agentId w =
    .ok (canEditStep user.roleId ((w.db.roles.select (fun r => r.agentId = some agentId)).filter
      (fun r => r.organizationId = A)))

theorem canEditStep_onlyOf (user : User) (agentId : Nat) :
    RoleService.canEditStep user agentId (onlyOf env A w) =
      .ok (canEditStep user.roleId ((w.db.roles.select (fun r => r.agentId = some agentId)).filter
        (fun r => r.organizationId = A))) := by
  unfold RoleService.canEditStep
  rw [Read.bind_ok (listForAgent_onlyOf env agentId)]
  simp [Owned.owner]

/-- Roles of other organizations can only refuse. -/
theorem refused_of_not_ownGuard {user : User} {agentId : Nat} (hrole : OwnRow A w Role user.roleId)
    (h : ¬ OwnGuard A w user agentId) :
    RoleService.canEditStep user agentId w = .ok false ∧
      RoleService.canEditStep user agentId (onlyOf env A w) = .ok true := by
  have hlinked : RoleService.canEditStep user agentId w =
      .ok (canEditStep user.roleId (w.db.roles.select (fun r => r.agentId = some agentId))) := rfl
  unfold OwnGuard at h
  rw [hlinked] at h ⊢
  rw [canEditStep_onlyOf]
  have hrows : ∀ r ∈ w.db.roles.select (fun r => r.agentId = some agentId), r.id = user.roleId →
      r.organizationId = A := fun r hr hid =>
    Option.some.inj (hrole r (Table.get_eq_some_iff.mpr ⟨(Table.mem_select_iff.mp hr).1, hid⟩))
  generalize w.db.roles.select (fun r => r.agentId = some agentId) = linked at h hrows
  have hany : (linked.filter (fun r => r.organizationId = A)).any (fun r => r.id = user.roleId) =
      linked.any (fun r => r.id = user.roleId) := by
    rw [List.any_filter, Bool.eq_iff_iff, List.any_eq_true, List.any_eq_true]
    refine exists_congr fun r => and_congr_right fun hr => ?_
    have hown := hrows r hr
    simpa using hown
  unfold canEditStep at h ⊢
  rw [hany] at h ⊢
  by_cases hempty : linked = []
  · simp [hempty] at h
  · by_cases hown : linked.filter (fun r => r.organizationId = A) = []
    · rw [hown, List.any_nil] at hany
      simp [hempty, hown, ← hany]
    · simp [hempty, hown] at h

/-- The import browser shows the document and the connected drive to who may edit the step. -/
def OwnImport (A : Nat) (w : World) (user : User) (contractId documentId connectionId : Nat) : Prop :=
  (OwnInstances A w contractId ∧ ∀ i, ContractService.getInstance contractId w = .ok i →
    OwnRow A w WorkflowDefinition i.workflowDefinitionId) ∧
  ∀ step, currentStep contractId w = .ok step → OwnGuard A w user step.agentId ∧
    (RoleService.canEditStep user step.agentId w = .ok true → OwnRow A w Document documentId ∧
      ∀ document, DocumentService.get documentId w = .ok document →
        OwnRow A w StorageConnection connectionId)

theorem agree_tokensOf (w w₀ : World) (connection : StorageConnection) :
    Read.Agree w w₀ (StorageService.tokensOf connection) := by
  unfold StorageService.tokensOf
  cases connection.credential with
  | none => exact Read.agree_throw _ _ _
  | some secrets =>
    refine Read.agree_bind (agree_lookupKey _) fun accessToken _ _ => ?_
    exact Read.agree_ite (fun _ => Read.agree_pure _ _ _) (fun _ => Read.agree_throw _ _ _)

theorem exact_browse (connectionId : Nat) (folderId : Option String) :
    Exact w (onlyOf env A w) (StorageService.browseExternalFiles env connectionId folderId)
      (OwnRow A w StorageConnection connectionId) :=
  exact_then (exact_connection env A w connectionId) fun connection _ _ =>
    Read.agree_bind (agree_tokensOf w _ connection) fun _ _ _ => agree_answered _

/-- A guard that the roles of other organizations may decide, before a page that is no redirect. -/
theorem decided_guard {user : User} {agentId : Nat} (hrole : OwnRow A w Role user.roleId)
    {page : Query Response} {url : String} {C : Prop} (hpage : Decided w (onlyOf env A w) page C)
    (hstatus : ∀ w' r, page w' = .ok r → r ≠ .redirect url) :
    Decided w (onlyOf env A w)
      (RoleService.canEditStep user agentId >>= fun allowed =>
        if allowed = true then page else pure (.redirect url))
      (OwnGuard A w user agentId ∧ (RoleService.canEditStep user agentId w = .ok true → C)) := by
  by_cases hguard : OwnGuard A w user agentId
  · have hagree : Read.Agree w (onlyOf env A w) (RoleService.canEditStep user agentId) :=
      hguard.trans (canEditStep_onlyOf env user agentId).symm
    refine (decided_after (D := fun allowed => allowed = true → C) hagree fun allowed _ _ => ?_).iff ?_
    · cases allowed with
      | true => exact hpage.iff ⟨fun hc _ => hc, fun hc => hc rfl⟩
      | false => exact (exact_of_agree (Read.agree_pure _ _ _)).decided.iff (by simp)
    · simp [hguard]
  · obtain ⟨hw, hw₀⟩ := refused_of_not_ownGuard env hrole hguard
    refine ⟨fun h => absurd h.1 hguard, fun _ => Or.inr ?_⟩
    rw [Read.bind_ok hw, Read.bind_ok hw₀]
    exact ⟨⟨_, rfl⟩, fun heq => hstatus _ _ heq.symm rfl⟩

theorem decided_importBrowserPage (v : Viewer) (hrole : OwnRow A w Role v.user.roleId)
    (contractId documentId connectionId : Nat) (folderId : Option String) :
    Decided w (onlyOf env A w)
      (Pages.importBrowserPage env v contractId documentId connectionId folderId)
      (OwnImport A w v.user contractId documentId connectionId) := by
  unfold Pages.importBrowserPage
  rw [permitted_eq, bind_assoc]
  refine decided_bind (exact_currentStep env contractId) fun step _ _ => ?_
  refine decided_guard env hrole ?_ fun w' r hr heq => ?_
  · refine (exact_bind (exact_document env A w documentId) fun document _ _ => ?_).decided
    refine exact_then (exact_connection env A w connectionId) fun connection _ hconnection => ?_
    have hown := ownRow_of_get_onlyOf env hconnection
    exact Read.agree_bind ((exact_browse env connectionId folderId).same hown) fun _ _ _ =>
      Read.agree_pure _ _ _
  · simp only [Read.bind_ok_iff, Read.pure_apply, Except.ok.injEq] at hr
    obtain ⟨_, _, _, _, _, _, rfl⟩ := hr
    cases heq

/-! ## The bytes of a version -/

theorem agree_getObject {document : Document} {version : DocumentVersion} {connection : StorageConnection}
    {bucket : Bucket} (hdocument : document ∈ (rowsOf A w.db).documents)
    (hversion : version ∈ document.versions)
    (hconnection : connection ∈ (rowsOf A w.db).connections)
    (hid : connection.id = version.storageConnectionId)
    (hbucket : buildFileStorage env connection (connection.credential.getD .empty) w = .ok bucket) :
    Read.Agree w (onlyOf env A w) (getObject bucket version.storageKey) := by
  have hown : ownFile env A w bucket version.storageKey = true := by
    unfold ownFile
    refine List.any_eq_true.mpr ⟨document, hdocument, List.any_eq_true.mpr ⟨version, hversion, ?_⟩⟩
    refine List.any_eq_true.mpr ⟨connection, hconnection, ?_⟩
    simp [hid, hbucket, Except.toOption]
  have hfiles : w.files bucket version.storageKey = (onlyOf env A w).files bucket version.storageKey :=
    (agreeOn_onlyOf env A w).files bucket version.storageKey hown
  unfold Read.Agree getObject
  rw [hfiles]

theorem mem_rows_of_get {α : Type} [Row α] [Stored α] [Owned α] {id : Nat} {a : α}
    (hget : (Stored.table w.db).get id = some a) (ha : Owned.owner w.db a = some A) :
    a ∈ Owned.rows (rowsOf A w.db) := by
  rw [Owned.rows_rowsOf]
  exact Table.mem_select_iff.mpr ⟨(Table.get_eq_some_iff.mp hget).1, by simpa using ha⟩

theorem exact_downloadVersion {document : Document} {version : DocumentVersion}
    (hdocument : document ∈ (rowsOf A w.db).documents) (hversion : version ∈ document.versions) :
    Exact w (onlyOf env A w) (DocumentService.downloadVersion env version)
      (OwnRow A w StorageConnection version.storageConnectionId) := by
  refine exact_then (exact_connection env A w _) fun connection _ hconnection => ?_
  obtain ⟨hget, howner⟩ := owner_of_get_onlyOf env hconnection
  have hid : connection.id = version.storageConnectionId := (Table.get_eq_some_iff.mp hget).2
  refine Read.agree_bind (buildFileStorage_world env connection _ w _) fun bucket hbucket _ => ?_
  exact agree_getObject env hdocument hversion (mem_rows_of_get hget howner) hid hbucket

/-- The raw file of a version is read through the contract, the document and the connection. -/
def OwnFileVersion (A : Nat) (w : World) (contractId documentId versionId : Nat) : Prop :=
  OwnRow A w Contract contractId ∧ ∀ contract, ContractService.get contractId w = .ok contract →
    OwnRow A w Document documentId ∧ ∀ document, DocumentService.get documentId w = .ok document →
      document.contractId = contractId →
        ∀ version, document.versions.find? (fun version => version.id = versionId) = some version →
          OwnRow A w StorageConnection version.storageConnectionId

theorem exact_documentVersionRaw (v : Viewer) (contractId documentId versionId : Nat) (download : Bool) :
    Exact w (onlyOf env v.organization.id w)
      (Pages.documentVersionRaw env v contractId documentId versionId download)
      (OwnFileVersion v.organization.id w contractId documentId versionId) := by
  unfold Pages.documentVersionRaw
  refine exact_bind (exact_contract env _ w contractId) fun contract _ hcontract => ?_
  refine exact_bind (exact_document env _ w documentId) fun document _ hdocument => ?_
  have howner : contract.organizationId = v.organization.id :=
    Option.some.inj (owner_of_get_onlyOf env hcontract).2
  obtain ⟨hget, hdocowner⟩ := owner_of_get_onlyOf env hdocument
  refine (exact_raising _ (fun _ => ∀ version, orRaise (DomainError.notFound "file version not found")
    (document.versions.find? (fun version => version.id = versionId)) = .ok version →
      OwnRow v.organization.id w StorageConnection version.storageConnectionId) fun _ _ => ?_).iff ?_
  · refine exact_raising _ _ fun version hversion => ?_
    have hmem := List.mem_of_find?_eq_some ((orRaise_ok_iff _ _ _).mp hversion)
    exact exact_then (exact_downloadVersion env (mem_rows_of_get hget hdocowner) hmem) fun _ _ _ =>
      Read.agree_pure _ _ _
  · simp only [raiseIf_ok_iff, orRaise_ok_iff, not_or, not_not, howner, true_and, forall_const, ne_eq]

/-! ## The routes -/

/-- What the page loads by an id belongs to the organization. -/
def GetRoute.Within (A : Nat) (user : User) (w : World) : GetRoute → Prop
  | .dashboard => ∀ contracts, ContractService.listForOrganization A w = .ok contracts →
    RowsOwn A w contracts
  | .contractsPage q contractType => ∀ contracts,
    ContractService.listForOrganization A w = .ok contracts →
      RowsOwn A w (Pages.matching q contractType contracts)
  | .editAgentPage agentId => OwnRow A w Agent agentId
  | .editRolePage roleId => OwnRow A w Role roleId
  | .editUserPage userId => OwnRow A w User userId
  | .workflowDetail definitionId => OwnRow A w WorkflowDefinition definitionId
  | .contractDetail contractId => OwnDetail A w contractId
  | .importBrowserPage contractId documentId connectionId _ =>
    OwnImport A w user contractId documentId connectionId
  | .documentVersionRaw contractId documentId versionId _ =>
    OwnFileVersion A w contractId documentId versionId
  | _ => True

theorem decided_contractDetail (v : Viewer) (contractId : Nat) :
    Decided w (onlyOf env v.organization.id w)
      (Response.ok v <$> Pages.contractDetail env v contractId none)
      (OwnDetail v.organization.id w contractId) := by
  have hmap : (Response.ok v <$> Pages.contractDetail env v contractId none) =
      (fun context => Response.ok v (.contractDetail context none)) <$>
        Pages.contractDetailContext env v contractId := by
    simp [Pages.contractDetail]
  rw [hmap]
  refine decided_map (fun a b hab => ?_) (decided_contractDetailContext env v contractId)
  simpa [Response.ok] using hab

theorem agree_acceptances {user : User} (hmem : user ∈ w.db.users.rows)
    (hmember : user.organizationId = A) {p : TermsAcceptance → Bool}
    (hp : ∀ a, p a = true → a.userId = user.id) :
    Read.Agree w (onlyOf env A w) (select p : Query (List TermsAcceptance)) := by
  have hget : w.db.users.get user.id = some user := Table.get_eq_some_iff.mpr ⟨hmem, rfl⟩
  refine congrArg Except.ok (Table.select_restrict_of_imp fun a _ ha => ?_).symm
  have howner : w.db.userOwner a.userId = some A := by
    unfold Database.userOwner
    rw [hp a ha, hget, ← hmember]
    rfl
  simpa using howner

theorem agree_accountPage {user : User} (hmem : user ∈ w.db.users.rows)
    (hmember : user.organizationId = A) (hrole : OwnRow A w Role user.roleId) :
    Read.Agree w (onlyOf env A w) (Pages.accountPage user none) := by
  refine Read.agree_bind (Read.agree_ite (fun _ => Read.agree_pure _ _ _) fun _ =>
    agree_map _ ((exact_role env A w user.roleId).same hrole)) fun role _ _ => ?_
  refine Read.agree_bind ?_ fun _ _ _ => Read.agree_pure _ _ _
  exact Read.agree_bind (agree_acceptances env hmem hmember fun a ha => by simpa using ha) fun _ _ _ =>
    Read.agree_pure _ _ _

theorem decided_page (v : Viewer) {w₀ : World} {page : Query Page} (h : Read.Agree w w₀ page) :
    Decided w w₀ (Response.ok v <$> page) True :=
  (exact_map _ (exact_of_agree h)).decided

/-- A member sees the organization alone exactly when the route reads within it. -/
theorem decided_handle {v : Viewer} (hmem : v.user ∈ w.db.users.rows)
    (hmember : v.user.organizationId = v.organization.id)
    (hrole : OwnRow v.organization.id w Role v.user.roleId) (route : GetRoute) :
    Decided w (onlyOf env v.organization.id w) (route.handle env v)
      (route.Within v.organization.id v.user w) := by
  have hagents := agree_listAgents env v.organization.id w
  have hnames := agree_agentNames env v.organization.id w
  have hroles := agree_listRoles env v.organization.id w
  have husers := agree_listUsers env v.organization.id w
  have hdefinitions := agree_listDefinitions env v.organization.id w
  cases route with
  | dashboard =>
    exact (exact_map _ (exact_listedRows env id (fun _ _ h => h) _)).decided
  | agentsPage =>
    refine decided_page v (Read.agree_bind hagents fun _ _ _ => ?_)
    refine Read.agree_bind (Read.agree_bind hdefinitions fun _ _ _ => Read.agree_pure _ _ _) fun _ _ _ => ?_
    exact Read.agree_bind (Read.agree_bind hroles fun _ _ _ => Read.agree_pure _ _ _) fun _ _ _ =>
      Read.agree_pure _ _ _
  | newAgentPage =>
    exact decided_page v (Read.agree_bind hroles fun _ _ _ => Read.agree_bind hnames fun _ _ _ =>
      Read.agree_pure _ _ _)
  | editAgentPage agentId =>
    refine (exact_map _ (exact_then (exact_agent env _ w agentId) fun _ _ _ => ?_)).decided
    exact Read.agree_bind hroles fun _ _ _ => Read.agree_bind hnames fun _ _ _ => Read.agree_pure _ _ _
  | rolesPage =>
    exact decided_page v (Read.agree_bind hroles fun _ _ _ => Read.agree_bind hnames fun _ _ _ =>
      Read.agree_pure _ _ _)
  | newRolePage => exact decided_page v (Read.agree_bind hagents fun _ _ _ => Read.agree_pure _ _ _)
  | editRolePage roleId =>
    refine (exact_map _ (exact_then (exact_role env _ w roleId) fun _ _ _ => ?_)).decided
    exact Read.agree_bind hagents fun _ _ _ => Read.agree_pure _ _ _
  | usersPage =>
    exact decided_page v (Read.agree_bind husers fun _ _ _ => Read.agree_bind hroles fun _ _ _ =>
      Read.agree_pure _ _ _)
  | newUserPage => exact decided_page v (Read.agree_bind hroles fun _ _ _ => Read.agree_pure _ _ _)
  | editUserPage userId =>
    refine (exact_map _ (exact_then (exact_user env _ w userId) fun _ _ _ => ?_)).decided
    exact Read.agree_bind hroles fun _ _ _ => Read.agree_pure _ _ _
  | accountPage => exact decided_page v (agree_accountPage env hmem hmember hrole)
  | storageSettingsPage =>
    exact decided_page v (Read.agree_bind (agree_listConnections env _ w) fun _ _ _ =>
      Read.agree_pure _ _ _)
  | startOauthConnection provider =>
    refine (exact_of_agree (Read.agree_bind ?_ fun _ _ _ => Read.agree_pure _ _ _)).decided
    exact Read.agree_ite (fun _ => Read.agree_pure _ _ _) fun _ => Read.agree_throw _ _ _
  | billingSettingsPage plan =>
    exact decided_page v (Read.agree_bind husers fun _ _ _ =>
      Read.agree_bind (agree_listContracts env _ w) fun _ _ _ => Read.agree_pure _ _ _)
  | workflowsPage =>
    exact decided_page v (Read.agree_bind hdefinitions fun _ _ _ => Read.agree_pure _ _ _)
  | newWorkflowPage => exact (exact_of_agree (Read.agree_pure _ _ _)).decided
  | workflowDetail definitionId =>
    refine (exact_map _ (exact_then (exact_definition env _ w definitionId) fun _ _ hget => ?_)).decided
    refine Read.agree_bind hagents fun _ _ _ => ?_
    refine Read.agree_bind (Read.agree_bind ?_ fun _ _ _ => Read.agree_pure _ _ _) fun _ _ _ =>
      Read.agree_pure _ _ _
    exact (exact_definition env _ w definitionId).same (ownRow_of_get_onlyOf env hget)
  | contractsPage q contractType =>
    exact (exact_map _ (exact_listedRows env (Pages.matching q contractType)
      (fun _ _ h => mem_of_mem_matching h) _)).decided
  | newContractPage =>
    exact decided_page v (Read.agree_bind hdefinitions fun _ _ _ => Read.agree_pure _ _ _)
  | contractDetail contractId => exact decided_contractDetail env v contractId
  | importBrowserPage contractId documentId connectionId folderId =>
    exact decided_importBrowserPage env v hrole contractId documentId connectionId folderId
  | documentVersionRaw contractId documentId versionId download =>
    exact (exact_documentVersionRaw env v contractId documentId versionId download).decided

end

end Orchestract
