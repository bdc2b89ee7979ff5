import Mathlib.Data.Nat.Notation

/-!
# Domain errors

The exception classes of `app/domain/*/exceptions.py` with the texts they carry, and the
status codes `main.py` maps their base classes to.
-/

namespace Orchestract

set_option autoImplicit false

/-- An id as it is printed in a message; `0` stands for the `None` of a row not yet stored. -/
def showId (id : Nat) : String := if id = 0 then "None" else toString id

inductive DomainError where
  | notFound (message : String)
  | planLimitExceeded (message : String)
  | emptyOrganizationName
  | emptyRoleName
  | emptyUserName
  | emptyUserEmail
  | duplicateRoleName (name : String)
  | duplicateEmail (email : String)
  | invalidCredentials
  | emailNotVerified
  | invalidOrExpiredToken
  | socialLogin (message : String)
  | permissionDenied
  | emptyAgentName
  | emptyWorkflowName
  | duplicateWorkflowName (name : String)
  | duplicateStepKey (key : String)
  | unknownStep (key : String)
  | multipleInitialSteps
  | ambiguousTransition (fromKey actionName : String)
  | workflowDefinitionLocked (definitionId : Nat)
  | workflowValidation (message : String)
  | inactiveWorkflow (definitionId : Nat)
  | invalidTransition (stepKey actionName : String)
  | workflowAlreadyCompleted (instanceId : Nat)
  | emptyContractTitle
  | invalidAIConfig (message : String)
  | emptyDocumentName
  | shareLinkNotActive
  | noSharedDocuments
  | readOnlyProviderCannotBePrimary (provider : String)
  | noPrimaryStorageConnection (organizationId : Nat)
  | duplicateProviderConnection (provider : String)
  | aiUnavailable (message : String)
  | noVersions
  | unsupportedContentType (contentType : String)
deriving DecidableEq, Repr

namespace DomainError

def message : DomainError → String
  | notFound message => message
  | planLimitExceeded message => message
  | emptyOrganizationName => "organization name must not be empty"
  | emptyRoleName => "role name must not be empty"
  | emptyUserName => "user name must not be empty"
  | emptyUserEmail => "user email must not be empty"
  | duplicateRoleName name => s!"a role named '{name}' already exists in this organization"
  | duplicateEmail email => s!"a user with email '{email}' already exists"
  | invalidCredentials => "incorrect email or password"
  | emailNotVerified => "this account's email address has not been verified yet"
  | invalidOrExpiredToken => "this link is invalid or has expired"
  | socialLogin message => message
  | permissionDenied => "you do not have permission to perform this action"
  | emptyAgentName => "agent name must not be empty"
  | emptyWorkflowName => "workflow name must not be empty"
  | duplicateWorkflowName name => s!"a workflow named '{name}' already exists"
  | duplicateStepKey key => s!"step key '{key}' already exists in this workflow"
  | unknownStep key => s!"unknown step key '{key}'"
  | multipleInitialSteps => "workflow already has an initial step"
  | ambiguousTransition fromKey actionName =>
    s!"transition '{actionName}' from step '{fromKey}' is already defined"
  | workflowDefinitionLocked definitionId =>
    s!"workflow definition {showId definitionId} is not editable in its current status"
  | workflowValidation message => message
  | inactiveWorkflow definitionId =>
    s!"workflow definition {showId definitionId} is not active and cannot be started"
  | invalidTransition stepKey actionName =>
    s!"no transition '{actionName}' is available from step '{stepKey}'"
  | workflowAlreadyCompleted instanceId =>
    s!"workflow instance {showId instanceId} has already completed"
  | emptyContractTitle => "contract title must not be empty"
  | invalidAIConfig message => message
  | emptyDocumentName => "document name must not be empty"
  | shareLinkNotActive => "This share link is no longer active."
  | noSharedDocuments => "Select at least one document to share."
  | readOnlyProviderCannotBePrimary provider =>
    s!"'{provider}' is a read-only source and cannot be the primary storage backend"
  | noPrimaryStorageConnection organizationId =>
    s!"organization {organizationId} has no primary storage connection configured yet"
  | duplicateProviderConnection provider =>
    s!"a '{provider}' connection already exists for this organization"
  | aiUnavailable message => message
  | noVersions => "this document has no uploaded versions yet"
  | unsupportedContentType contentType =>
    s!"can't summarize a '{contentType}' file -- supported types are plain text, Markdown, PDF, Word (.docx), and PNG/JPEG/WebP images"

/-- The `NotFoundError` of every service's `get`. -/
def missing (what : String) (id : Nat) : DomainError := notFound s!"{what} {id} not found"

/-- Subclasses of `ConflictError`. -/
def isConflict : DomainError → Bool
  | planLimitExceeded _ | duplicateRoleName _ | duplicateEmail _ | duplicateWorkflowName _
  | workflowDefinitionLocked _ | inactiveWorkflow _ | invalidTransition _ _
  | workflowAlreadyCompleted _ | noPrimaryStorageConnection _ | duplicateProviderConnection _ => true
  | _ => false

/-- The status code of the handlers in `main.py`. -/
def statusCode (e : DomainError) : Nat :=
  match e with
  | notFound _ => 404
  | e => if e.isConflict then 409 else 422

end DomainError

end Orchestract
