import Orchestract.Application.Documents

/-!
# Summaries, the assistant and the billing pages' calls

The services of `app/application/ai_service.py` and, of `app/application/billing_service.py`,
the two calls that send a browser to the payment provider. A tool call that fails is reported to
the language model, which goes on.
-/

namespace Orchestract

set_option autoImplicit false

/-- `SUMMARIZABLE_MIME_TYPES`. -/
def summarizableMimeTypes : List String :=
  ["text/plain", "text/markdown", "application/pdf", "image/png", "image/jpeg", "image/webp",
    "application/vnd.openxmlformats-officedocument.wordprocessingml.document"]

/-- The name under which a tool is offered; `get_contract_state` is always there. -/
def ToolCall.restrictedName : ToolCall → Option String
  | .getContractState => none
  | .advanceWorkflowStep .. => some "advance_workflow_step"
  | .addDocumentToContract .. => some "add_document_to_contract"
  | .uploadDocumentVersion .. => some "upload_document_version"

namespace AIService

def isAvailable (env : Env) (organization : Organization) (contract : Contract) : Bool :=
  organization.plan.limits.aiEnabled && (env.settings.geminiEnabled || env.settings.aiEnabled) &&
    contract.aiConfig.enabled ≠ some false

def unavailableReason (env : Env) (organization : Organization) (contract : Contract) :
    Option String :=
  let plan := organization.plan.limits
  if ¬ plan.aiEnabled then
    some s!"AI features aren't included in the {plan.displayName} plan. Upgrade to Team or Business to enable contract summaries and the assistant."
  else if ¬ (env.settings.geminiEnabled || env.settings.aiEnabled) then
    some "AI isn't set up on this server yet. Contact your administrator to enable it."
  else if contract.aiConfig.enabled = some false then
    some "AI has been turned off for this contract in its AI settings below."
  else none

def requireEnabled (env : Env) (organization : Organization) (contract : Contract) :
    Except DomainError Unit :=
  raiseIf (¬ isAvailable env organization contract)
    (.aiUnavailable "AI features aren't available for this contract")

def requireSummaries (env : Env) (organization : Organization) (contract : Contract) :
    Except DomainError Unit := do
  requireEnabled env organization contract
  raiseIf (¬ env.settings.geminiEnabled) (.aiUnavailable
    "Summarization isn't configured -- set GOOGLE_API_KEY (Gemini Developer API) or, for Vertex AI, GOOGLE_GENAI_USE_VERTEXAI=true with GOOGLE_CLOUD_PROJECT (via ADC)")

def appendInstructions (prompt : String) (contract : Contract) : String :=
  match contract.aiConfig.instructions.bind Text.orNone with
  | none => prompt
  | some instructions =>
    s!"{prompt}\n\nAdditional instructions for this contract: {instructions}"

/-- The answer that `summarize_document` stores. -/
def documentSummary (env : Env) (documentId : Nat) (organization : Organization) : Query String := do
  let document ← DocumentService.get documentId
  let contract ← ContractService.get document.contractId
  requireSummaries env organization contract
  let version ← orRaise DomainError.noVersions document.latestVersion
  raiseIf (version.contentType ∉ summarizableMimeTypes)
    (DomainError.unsupportedContentType version.contentType)
  let content ← DocumentService.downloadVersion env version
  let part := env.documentPart content version.contentType document.name
  let prompt := appendInstructions
    s!"Summarize the attached document '{document.name}' for someone managing the contract it belongs to. Ground the summary in the document's actual contents, and keep it to at most 8 lines."
    contract
  answered (env.generateSummary [part, prompt])

def summarizeDocument (env : Env) (documentId : Nat) (organization : Organization) : Action Document := do
  let summary ← documentSummary env documentId organization
  DocumentService.setSummary env documentId summary

/-- What the model is sent about one document. -/
def documentContents (env : Env) (document : Document) : Query (List String) := do
  match document.latestVersion with
  | none => return [s!"Document '{document.name}': no versions uploaded yet."]
  | some version =>
    if version.contentType ∉ summarizableMimeTypes then
      return [s!"Document '{document.name}': [{version.contentType}, not summarizable]"]
    else
      let content ← DocumentService.downloadVersion env version
      return [s!"Document '{document.name}':",
        env.documentPart content version.contentType document.name]

/-- The answer that `summarize_contract` stores. -/
def contractSummary (env : Env) (contractId : Nat) (organization : Organization) : Query String := do
  let contract ← ContractService.get contractId
  requireSummaries env organization contract
  let i ← ContractService.getInstance contractId
  let description := (contract.description.bind Text.orNone).getD "none"
  let status := i.status.value
  let metadata := s!"Contract metadata:\nTitle: {contract.title} ({contract.contractType})\nDescription: {description}\nWorkflow status: {status}, current step: {i.currentStepKey}"
  let documents ← ContractService.documentsOf contractId
  let contents ← (documents.mapM (documentContents env) : Query (List (List String)))
  let prompt := appendInstructions
    "Using the contract metadata and the attached documents above, summarize this contract for someone managing it. Base the summary on the actual document contents, not just the metadata: cover its purpose, current status, and the notable terms found in the documents (parties, effective/expiry dates, amounts, obligations, and anything unusual). Keep it to at most 8 lines."
    contract
  answered (env.generateSummary ([metadata] ++ contents.flatten ++ [prompt]))

def summarizeContract (env : Env) (contractId : Nat) (organization : Organization) : Action Contract := do
  let summary ← contractSummary env contractId organization
  ContractService.setSummary env contractId summary

/-- The body of a tool. -/
def runTool (env : Env) (contractId : Nat) (user : User) (call : ToolCall) : Action Unit := do
  let actor := s!"AI Assistant (on behalf of {user.name})"
  match call with
  | .getContractState =>
    let _ ← ContractService.get contractId
    let _ ← ContractService.getInstance contractId
    let _ ← ContractService.availableActions contractId
    return ()
  | .advanceWorkflowStep actionName comment =>
    assertCanEditContractStep contractId user
    let _ ← ContractService.transitionContract env contractId actionName actor (Text.orNone comment)
    return ()
  | .addDocumentToContract name =>
    assertCanEditContractStep contractId user
    let _ ← ContractService.addDocument env contractId name
    return ()
  | .uploadDocumentVersion documentId contentText filename notes =>
    assertCanEditContractStep contractId user
    let _ ← DocumentService.uploadVersion env documentId
      ⟨contentText.toUTF8.data.toList, filename, "text/plain", actor, Text.orNone notes, none, none⟩
    return ()

/-- A tool that is not offered, or that fails, changes nothing more. -/
def callTool (env : Env) (contractId : Nat) (user : User) (allowedTools : List String)
    (call : ToolCall) : Action Unit :=
  if call.restrictedName.all (fun name => name ∈ allowedTools) then
    tryCatch (runTool env contractId user call) (fun _ => pure ())
  else pure ()

def runAssistant (env : Env) (contractId : Nat) (instruction : String) (user : User)
    (organization : Organization) : Action (List ToolCall) := do
  let contract ← ContractService.get contractId
  requireEnabled env organization contract
  raiseIf (¬ env.settings.aiEnabled)
    (DomainError.aiUnavailable "The AI assistant isn't configured -- set ANTHROPIC_API_KEY to enable it")
  let allowedTools := contract.aiConfig.allowedTools.getD assistantToolNames
  (env.toolCalls instruction).forM (callTool env contractId user allowedTools)
  return env.toolCalls instruction

end AIService

namespace BillingService

def billingEnabled (env : Env) : Bool := env.settings.stripeSecretKey ≠ ""

def startCheckout (env : Env) (organizationId : Nat) (priceId userEmail : String) : Query String := do
  let organization ← OrganizationService.get organizationId
  let customerId := organization.stripeCustomerId.bind Text.orNone
  let customerEmail := if customerId.isSome then none else some userEmail
  answered (env.checkoutUrl customerId customerEmail priceId (toString organizationId))

def startPortalSession (env : Env) (organizationId : Nat) (returnUrl : String) : Query String := do
  let organization ← OrganizationService.get organizationId
  let customerId ← orRaise
    (DomainError.notFound s!"organization {organizationId} has no Stripe customer yet")
    organization.stripeCustomerId
  answered (env.portalUrl customerId returnUrl)

end BillingService

end Orchestract
