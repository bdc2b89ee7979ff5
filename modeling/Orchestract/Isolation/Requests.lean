import Orchestract.Isolation.Writes
import Orchestract.Web.Routes

/-!
# What the requests write

Every handler keeps the rows of an organization that is not the viewer's, when the ids it acts on
are not ids of that organization's rows.
-/

namespace Orchestract

set_option autoImplicit false

variable {B : Nat} {R : TenantRows}

/-! ## Summaries, the assistant and the presets -/

theorem keeps_summarizeDocument (env : Env) {documentId : Nat} (organization : Organization)
    (hid : Lacks Document R documentId) :
    Program.Keeps (Untouched B R) (AIService.summarizeDocument env documentId organization) := by
  exact Program.keeps_after_read fun summary => Program.keeps_work (keeps_setDocumentSummary env summary hid)

theorem keeps_summarizeContract (env : Env) {contractId : Nat} (organization : Organization)
    (hid : Lacks Contract R contractId) :
    Program.Keeps (Untouched B R) (AIService.summarizeContract env contractId organization) := by
  exact Program.keeps_after_read fun summary => Program.keeps_work (keeps_setContractSummary env summary hid)

/-- The document a tool call names. -/
def ToolCall.document : ToolCall → Option Nat
  | .uploadDocumentVersion documentId .. => some documentId
  | _ => none

theorem keeps_runTool (env : Env) {contractId : Nat} (user : User) (call : ToolCall)
    (hid : Lacks Contract R contractId)
    (hdoc : ∀ documentId, call.document = some documentId → Lacks Document R documentId) :
    Program.Keeps (Untouched B R) (AIService.runTool env contractId user call) := by
  cases call with
  | getContractState =>
    exact Program.keeps_after_read fun _ => Program.keeps_after_read fun _ =>
      Program.keeps_after_read fun _ => Program.keeps_pure _
  | advanceWorkflowStep actionName comment =>
    exact Program.keeps_after_read fun _ => Program.keeps_bind
      (Program.keeps_work (keeps_transitionContract env _ _ _ hid)) fun _ => Program.keeps_pure _
  | addDocumentToContract name =>
    exact Program.keeps_after_read fun _ => Program.keeps_bind
      (Program.keeps_work (keeps_addDocument env name hid)) fun _ => Program.keeps_pure _
  | uploadDocumentVersion documentId contentText filename notes =>
    exact Program.keeps_after_read fun _ => Program.keeps_bind
      (keeps_uploadVersion env _ (hdoc documentId rfl)) fun _ =>
        Program.keeps_pure _

theorem keeps_callTool (env : Env) {contractId : Nat} (user : User) (allowedTools : List String)
    (call : ToolCall) (hid : Lacks Contract R contractId)
    (hdoc : ∀ documentId, call.document = some documentId → Lacks Document R documentId) :
    Program.Keeps (Untouched B R) (AIService.callTool env contractId user allowedTools call) := by
  apply Program.keeps_ite
  · intro _
    exact Program.keeps_tryCatch (keeps_runTool env user call hid hdoc) fun _ => Program.keeps_pure _
  · intro _
    exact Program.keeps_pure _

theorem keeps_runAssistant (env : Env) {contractId : Nat} (instruction : String) (user : User)
    (organization : Organization) (hid : Lacks Contract R contractId)
    (hdoc : ∀ call ∈ env.toolCalls instruction, ∀ documentId, call.document = some documentId →
      Lacks Document R documentId) :
    Program.Keeps (Untouched B R)
      (AIService.runAssistant env contractId instruction user organization) := by
  refine Program.keeps_after_read fun contract => Program.keeps_bind (keeps_raising _) fun _ =>
    Program.keeps_bind (keeps_raising _) fun _ => ?_
  refine Program.keeps_bind (Program.keeps_forM fun call hcall => ?_) fun _ => Program.keeps_pure _
  exact keeps_callTool env user _ call hid (hdoc call hcall)

theorem keeps_ensureAgent {organizationId : Nat} (h : organizationId ≠ B) (agents : PresetAgents)
    (agent : String × String) :
    Program.Keeps (Untouched B R) (ensureAgent organizationId agents agent) := by
  unfold ensureAgent
  cases agents.known.lookup agent.1 with
  | some id => exact Program.keeps_pure _
  | none =>
    exact Program.keeps_bind (Program.keeps_work (keeps_createAgent _ _ h)) fun _ =>
      Program.keeps_pure _

theorem keeps_addPresetStep {definitionId : Nat} (hid : Lacks WorkflowDefinition R definitionId)
    (agents : PresetAgents) (step : PresetStep) :
    Program.Keeps (Untouched B R) (addPresetStep definitionId agents step) := by
  unfold addPresetStep
  cases agents.ids.lookup step.agent with
  | some agentId =>
    exact Program.keeps_bind (Program.keeps_work (keeps_addStep _ hid)) fun _ => Program.keeps_pure _
  | none => exact Program.keeps_throw _

theorem keeps_createWorkflowFromPreset {organizationId : Nat} (preset : WorkflowPreset)
    (h : organizationId ≠ B) :
    Program.Keeps (Untouched B R) (createWorkflowFromPreset organizationId preset) := by
  refine Program.keeps_after_read fun existing => ?_
  refine Program.keeps_bind
    (Program.ensures_foldlM trivial fun agents agent _ _ => keeps_ensureAgent h agents agent)
      fun agents => ?_
  refine Program.keeps_after_read fun name => ?_
  refine Program.ensures_bind (Program.ensures_work (ensures_createDefinition _ _ h)) fun d hd => ?_
  refine Program.keeps_bind (Program.keeps_forM fun step _ => keeps_addPresetStep hd agents step)
    fun _ => ?_
  refine Program.keeps_bind (Program.keeps_forM fun t _ => ?_) fun _ => Program.keeps_pure _
  exact Program.keeps_bind (Program.keeps_work (keeps_addTransition t hd)) fun _ => Program.keeps_pure _

theorem keeps_reconcileAgentRoles {organizationId : Nat} (agentId : Nat) (selectedRoleIds : List Nat)
    (h : organizationId ≠ B) :
    Program.Keeps (Untouched B R)
      (Forms.reconcileAgentRoles organizationId agentId selectedRoleIds) := by
  refine Program.ensures_bind (Q := fun roles : List Role => ∀ role ∈ roles, Lacks Role R role.id)
    (Program.ensures_read fun w hw roles hroles => ?_) fun roles hroles => ?_
  · obtain rfl := Except.ok.inj hroles
    intro role hrole
    obtain ⟨hmem, how⟩ := Table.mem_select_iff.mp (mem_orderByText.mp hrole)
    have how' : role.organizationId = organizationId := by simpa using how
    exact lacks_of_owner_ne hw hmem (some_ne (how' ▸ h))
  · apply Program.keeps_forM
    intro role hrole
    apply Program.keeps_ite
    · intro _
      exact Program.keeps_bind (Program.keeps_work (keeps_setAgent _ (hroles role hrole))) fun _ =>
        Program.keeps_pure _
    · intro _
      apply Program.keeps_ite
      · intro _
        exact Program.keeps_bind (Program.keeps_work (keeps_setAgent _ (hroles role hrole))) fun _ =>
          Program.keeps_pure _
      · intro _
        exact Program.keeps_pure _

/-! ## The routes -/

/-- The rows a route acts on by an id of its path or form. -/
def PostRoute.targets (env : Env) : PostRoute → List Ref
  | .updateAgent agentId .. | .toggleAgent agentId => [⟨.agent, agentId⟩]
  | .updateRole roleId .. => [⟨.role, roleId⟩]
  | .toggleUser userId | .updateUser userId .. => [⟨.user, userId⟩]
  | .setPrimaryConnection connectionId | .disconnectConnection connectionId =>
    [⟨.connection, connectionId⟩]
  | .addStep definitionId _ | .addTransition definitionId _ | .activateWorkflow definitionId
  | .duplicateWorkflow definitionId | .updateWorkflowDetails definitionId .. =>
    [⟨.definition, definitionId⟩]
  | .executeTransition contractId .. | .addDocumentToContract contractId _
  | .createShareLink contractId .. | .revokeShareLink contractId _ | .summarizeContract contractId
  | .updateAIConfig contractId .. => [⟨.contract, contractId⟩]
  | .uploadVersion _ documentId .. | .importVersion _ documentId .. | .summarizeDocument _ documentId =>
    [⟨.document, documentId⟩]
  | .runAssistant contractId instruction =>
    ⟨.contract, contractId⟩ ::
      ((env.toolCalls instruction).filterMap ToolCall.document).map (⟨.document, ·⟩)
  | _ => []

def Route.targets (env : Env) : Route → List Ref
  | .get _ => []
  | .post route => route.targets env

/-- No row of `R` is the one referred to. -/
def TenantRows.Lacks (R : TenantRows) (ref : Ref) : Prop :=
  match ref.kind with
  | .user => Orchestract.Lacks User R ref.id
  | .role => Orchestract.Lacks Role R ref.id
  | .agent => Orchestract.Lacks Agent R ref.id
  | .definition => Orchestract.Lacks WorkflowDefinition R ref.id
  | .contract => Orchestract.Lacks Contract R ref.id
  | .document => Orchestract.Lacks Document R ref.id
  | .shareLink => Orchestract.Lacks ShareLink R ref.id
  | .connection => Orchestract.Lacks StorageConnection R ref.id
  | .organization => True

theorem keeps_handle (env : Env) (v : Viewer) (route : PostRoute) (h : v.organization.id ≠ B)
    (hu : Lacks User R v.user.id) (ht : ∀ ref ∈ route.targets env, R.Lacks ref) :
    Program.Keeps (Untouched B R) (route.handle env v) := by
  cases route with
  | createAgent name description roleIds =>
    refine keeps_submit v ?_ fun _ => keeps_shown v _ _
    exact Program.keeps_bind (Program.keeps_work (keeps_createAgent _ _ h)) fun agent =>
      keeps_reconcileAgentRoles agent.id roleIds h
  | updateAgent agentId name description roleIds =>
    refine keeps_submit v ?_ fun _ => keeps_shown v _ _
    exact Program.keeps_bind
      (Program.keeps_work (keeps_updateAgent _ _ (ht ⟨.agent, agentId⟩ (List.mem_singleton_self _))))
      fun _ => keeps_reconcileAgentRoles agentId roleIds h
  | toggleAgent agentId =>
    refine Program.keeps_after_read fun agent => ?_
    exact Program.keeps_bind
      (Program.keeps_work (keeps_setAgentActive _ (ht ⟨.agent, agentId⟩ (List.mem_singleton_self _))))
      fun _ => keeps_shown v _ _
  | quickCreateAgent name description =>
    refine Program.keeps_bind (keeps_catching (Program.keeps_work (keeps_createAgent _ _ h)))
      fun outcome => ?_
    exact Program.keeps_after_read fun _ => Program.keeps_pure _
  | createRole name description agentId =>
    refine keeps_submit v ?_ fun _ => keeps_shown v _ _
    exact Program.keeps_after_read fun agentId => Program.keeps_work (keeps_createRole _ _ agentId h)
  | quickCreateRole name description roleIds =>
    refine Program.keeps_bind (keeps_catching (Program.keeps_work (keeps_createRole _ _ _ h)))
      fun outcome => ?_
    exact Program.keeps_after_read fun _ => Program.keeps_after_read fun _ => Program.keeps_pure _
  | updateRole roleId name description agentId =>
    refine keeps_submit v ?_ fun _ => keeps_shown v _ _
    exact Program.keeps_after_read fun agentId => Program.keeps_work
      (keeps_updateRole _ _ agentId (ht ⟨.role, roleId⟩ (List.mem_singleton_self _)))
  | createUser name email password roleId =>
    exact keeps_form v (keeps_createUser env _ _ _ _ h)
  | toggleUser userId =>
    refine Program.keeps_after_read fun user => ?_
    exact Program.keeps_bind
      (Program.keeps_work (keeps_setUserActive _ (ht ⟨.user, userId⟩ (List.mem_singleton_self _))))
      fun _ => keeps_shown v _ _
  | updateUser userId name roleId =>
    exact keeps_form v (keeps_updateProfile _ _ (ht ⟨.user, userId⟩ (List.mem_singleton_self _)))
  | updateAccount name =>
    refine keeps_submit v (Program.keeps_work (keeps_renameUser name hu)) fun _ => ?_
    exact Program.keeps_after_read fun user => keeps_shown v _ _
  | updatePassword currentPassword newPassword =>
    exact keeps_form v (keeps_changePassword env _ _ hu)
  | connectBucket form =>
    change Program.Keeps (Untouched B R) (Forms.connectBucket env v form)
    unfold Forms.connectBucket
    cases form.parse env v with
    | none => exact Program.keeps_after_read fun _ => Program.keeps_pure _
    | some p =>
      exact keeps_form v (keeps_connectBucket env _ _ _ _ h)
  | setPrimaryConnection connectionId =>
    exact keeps_form v (keeps_setPrimary (ht ⟨.connection, connectionId⟩ (List.mem_singleton_self _)))
  | disconnectConnection connectionId =>
    exact Program.keeps_bind (Program.keeps_work
      (keeps_disconnect (ht ⟨.connection, connectionId⟩ (List.mem_singleton_self _)))) fun _ =>
        keeps_shown v _ _
  | startCheckout plan =>
    apply Program.keeps_ite
    · exact fun _ => Program.keeps_after_read fun _ => Program.keeps_pure _
    · intro _
      apply Program.keeps_ite
      · exact fun _ => Program.keeps_throw _
      · exact fun _ => Program.keeps_after_read fun _ => Program.keeps_pure _
  | startPortal =>
    apply Program.keeps_tryCatch
    · exact Program.keeps_after_read fun _ => Program.keeps_pure _
    · intro failure
      split
      · exact Program.keeps_after_read fun _ => Program.keeps_pure _
      · exact Program.keeps_throw _
  | createWorkflowFromPreset presetKey =>
    change Program.Keeps (Untouched B R) (Forms.createWorkflowFromPreset v presetKey)
    unfold Forms.createWorkflowFromPreset
    cases presetByKey presetKey with
    | none => exact Program.keeps_pure _
    | some preset =>
      exact Program.keeps_bind (keeps_createWorkflowFromPreset preset h) fun _ => Program.keeps_pure _
  | createWorkflow name description =>
    exact keeps_submit v (Program.keeps_work (ensures_createDefinition _ _ h).keeps) fun _ =>
      keeps_shown v _ _
  | addStep definitionId step =>
    exact keeps_form v (keeps_addStep _ (ht ⟨.definition, definitionId⟩ (List.mem_singleton_self _)))
  | addTransition definitionId transition =>
    exact keeps_form v
      (keeps_addTransition _ (ht ⟨.definition, definitionId⟩ (List.mem_singleton_self _)))
  | activateWorkflow definitionId =>
    exact keeps_form v (keeps_activate (ht ⟨.definition, definitionId⟩ (List.mem_singleton_self _)))
  | duplicateWorkflow definitionId =>
    exact keeps_submit v (Program.keeps_work
      (keeps_duplicateDefinition (ht ⟨.definition, definitionId⟩ (List.mem_singleton_self _)))) fun _ =>
        Program.keeps_pure _
  | updateWorkflowDetails definitionId name description =>
    exact keeps_form v
      (keeps_updateDetails _ _ (ht ⟨.definition, definitionId⟩ (List.mem_singleton_self _)))
  | createContract title contractType workflowDefinitionId description =>
    exact keeps_form v (keeps_createContract env _ _ _ _ _ h)
  | executeTransition contractId actionName comment =>
    exact keeps_onContract v env _ _ (keeps_checked v _ (Program.keeps_work
      (keeps_transitionContract env _ _ _ (ht ⟨.contract, contractId⟩ (List.mem_singleton_self _)))))
  | addDocumentToContract contractId name =>
    exact keeps_onContract v env _ _ (keeps_checked v _ (Program.keeps_work
      (keeps_addDocument env _ (ht ⟨.contract, contractId⟩ (List.mem_singleton_self _)))))
  | uploadVersion contractId documentId file notes =>
    exact keeps_onContract v env _ _ (keeps_checked v _
      (keeps_uploadVersion env _ (ht ⟨.document, documentId⟩ (List.mem_singleton_self _))))
  | importVersion contractId documentId connectionId externalFileId notes =>
    exact keeps_onContract v env _ _ (keeps_checked v _
      (keeps_importVersion env _ _ _ _ (ht ⟨.document, documentId⟩ (List.mem_singleton_self _))))
  | createShareLink contractId scope documentIds allowDownload password expiresInHours =>
    exact keeps_onContract v env _ _ (Program.keeps_work
      (keeps_createLink env _ _ _ _ _ _ (ht ⟨.contract, contractId⟩ (List.mem_singleton_self _))))
  | revokeShareLink contractId linkId =>
    exact Program.keeps_bind (Program.keeps_work
      (keeps_revoke env _ (ht ⟨.contract, contractId⟩ (List.mem_singleton_self _)))) fun _ =>
        keeps_shown v _ _
  | summarizeContract contractId =>
    exact keeps_onContract v env _ _
      (keeps_summarizeContract env _ (ht ⟨.contract, contractId⟩ (List.mem_singleton_self _)))
  | summarizeDocument contractId documentId =>
    exact keeps_onContract v env _ _
      (keeps_summarizeDocument env _ (ht ⟨.document, documentId⟩ (List.mem_singleton_self _)))
  | runAssistant contractId instruction =>
    refine Program.keeps_after_read fun context => keeps_submit v ?_ fun _ => Program.keeps_pure _
    apply keeps_runAssistant env instruction v.user v.organization
    · exact ht ⟨.contract, contractId⟩ List.mem_cons_self
    · intro call hcall documentId hdocument
      refine ht ⟨.document, documentId⟩ (List.mem_cons_of_mem _ ?_)
      exact List.mem_map_of_mem (List.mem_filterMap.mpr ⟨call, hcall, hdocument⟩)
  | updateAIConfig contractId enabled model instructions restrictTools allowedTools =>
    exact keeps_onContract v env _ _ (keeps_checked v _ (Program.keeps_work
      (keeps_setAIConfig env _ _ _ _ (ht ⟨.contract, contractId⟩ (List.mem_singleton_self _)))))

end Orchestract
