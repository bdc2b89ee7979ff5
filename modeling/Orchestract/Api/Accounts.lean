import Orchestract.Api.Routes
import Orchestract.Documents.Retrieval
import Orchestract.Library.Blindness

/-!
# Accounts behind the JSON API

Nobody signs in to the API. What keeps accounts apart from it is that no route touches them: whatever
users, roles, sessions, consents and share links there are, a run of requests gets the same responses, and
leaves them as they were.
-/

namespace Orchestract

set_option autoImplicit false

/-- The tables that say who people are, what they may do and what they have shared. -/
structure Accounts where
  users : Table User
  roles : Table Role
  sessions : Table UserSession
  acceptances : Table TermsAcceptance
  shareLinks : Table ShareLink

namespace World

def accounts (w : World) : Accounts :=
  ⟨w.db.users, w.db.roles, w.db.sessions, w.db.acceptances, w.db.shareLinks⟩

def withAccounts (a : Accounts) (w : World) : World :=
  { w with db := { w.db with
      users := a.users, roles := a.roles, sessions := a.sessions, acceptances := a.acceptances,
      shareLinks := a.shareLinks } }

theorem withAccounts_accounts (w : World) : w.withAccounts w.accounts = w := rfl

theorem accounts_withAccounts (a : Accounts) (w : World) : (w.withAccounts a).accounts = a := rfl

end World

/-- Rows that are stored apart from the accounts, and do not refer to them. -/
class Aside (α : Type) [Row α] [Stored α] : Prop where
  table : ∀ (a : Accounts) (w : World), (Stored.table (w.withAccounts a).db : Table α) = Stored.table w.db
  withTable : ∀ (a : Accounts) (w : World) (t : Table α),
    ({ w.withAccounts a with db := Stored.withTable (w.withAccounts a).db t } : World) =
      ({ w with db := Stored.withTable w.db t } : World).withAccounts a
  refs : ∀ (a : Accounts) (w : World) (r : α), refsExist r (w.withAccounts a).db = refsExist r w.db

instance : Aside Organization := ⟨fun _ _ => rfl, fun _ _ _ => rfl, fun _ _ _ => rfl⟩

instance : Aside Agent := ⟨fun _ _ => rfl, fun _ _ _ => rfl, fun _ _ _ => rfl⟩

instance : Aside WorkflowDefinition := by
  refine ⟨fun _ _ => rfl, fun _ _ _ => rfl, fun a w d => ?_⟩
  simp [refsExist, Stored.refs, Database.has, World.withAccounts, Function.comp_def]

instance : Aside Contract := ⟨fun _ _ => rfl, fun _ _ _ => rfl, fun _ _ _ => rfl⟩

instance : Aside WorkflowInstance := ⟨fun _ _ => rfl, fun _ _ _ => rfl, fun _ _ _ => rfl⟩

instance : Aside StorageConnection := ⟨fun _ _ => rfl, fun _ _ _ => rfl, fun _ _ _ => rfl⟩

instance : Aside Document := by
  refine ⟨fun _ _ => rfl, fun _ _ _ => rfl, fun a w d => ?_⟩
  simp [refsExist, Stored.refs, Database.has, World.withAccounts, Function.comp_def]

/-! ## Reads and writes of rows -/

variable {accounts : Accounts} {α β : Type}

section

variable [Row α] [Stored α] [Aside α]

theorem blind_select (p : α → Bool) : Read.Blind (World.withAccounts accounts) (select p) := by
  intro w
  rw [select_apply, select_apply, Aside.table]

theorem blind_require (what : String) (id : Nat) :
    Read.Blind (World.withAccounts accounts) (require what id : Query α) := by
  intro w
  rw [require_eq, require_eq, Aside.table]

theorem blind_oneOrNone (p : α → Bool) : Read.Blind (World.withAccounts accounts) (oneOrNone p) := by
  intro w
  apply Orchestract.agree_oneOrNone
  rw [Aside.table]

theorem blind_add (r : α) : Work.Blind (World.withAccounts accounts) (add r) := by
  intro w
  unfold add
  rw [Aside.refs, Aside.table]
  split
  · cases (Stored.table w.db : Table α).insert r with
    | none => rfl
    | some p => exact congrArg (fun w' => Except.ok (p.1, w')) (Aside.withTable accounts w p.2)
  · rfl

theorem blind_save (r : α) : Work.Blind (World.withAccounts accounts) (save r) := by
  intro w
  unfold save
  rw [Aside.refs, Aside.table]
  split
  · cases (Stored.table w.db : Table α).update r with
    | none => rfl
    | some t => exact congrArg (fun w' => Except.ok ((), w')) (Aside.withTable accounts w t)
  · rfl

end

theorem blind_raising (x : Except DomainError α) : Read.Blind (World.withAccounts accounts) (raising x) :=
  fun _ => rfl

theorem blind_domain (x : Except DomainError α) : Work.Blind (World.withAccounts accounts) (liftM x : UnitOfWork α) :=
  Work.blind_lift (r := raising x) fun _ => rfl

theorem blind_change [Row α] [Stored α] [Aside α] (what : String) (id : Nat) (method : α → Except DomainError α) :
    Work.Blind (World.withAccounts accounts) (change what id method) := by
  refine Work.blind_after (blind_require what id) fun r => ?_
  refine Work.blind_bind (blind_domain (method r)) fun r' => ?_
  exact Work.blind_bind (blind_save r') fun _ => Work.blind_pure r'

/-! ## Services -/

theorem blind_ordered [Row α] [Stored α] [Aside α] (p : α → Bool) (order : List α → β) :
    Read.Blind (World.withAccounts accounts) (do return order (← select p) : Query β) :=
  Read.blind_bind (blind_select p) fun _ => Read.blind_pure _

theorem blind_requireRoom {organization : Organization} {limit : PlanLimits → Option Nat} {plural : String}
    {existing : Query (List α)} (h : Read.Blind (World.withAccounts accounts) existing) :
    Read.Blind (World.withAccounts accounts) (requireRoom organization limit plural existing) := by
  unfold requireRoom
  dsimp only
  cases limit organization.plan.limits with
  | none => exact Read.blind_pure ()
  | some m => exact Read.blind_bind h fun _ => blind_raising _

theorem blind_getOrganization (organizationId : Nat) :
    Read.Blind (World.withAccounts accounts) (OrganizationService.get organizationId) :=
  blind_require "organization" organizationId

theorem blind_createOrganization (name : String) :
    Work.Blind (World.withAccounts accounts) (OrganizationService.createOrganization name) :=
  Work.blind_bind (blind_domain _) fun o => blind_add o

theorem blind_getBySlug (slug : String) :
    Read.Blind (World.withAccounts accounts) (OrganizationService.getBySlug slug) :=
  Read.blind_bind (blind_oneOrNone _) fun _ => blind_raising _

theorem blind_createAgent (organizationId : Nat) (name : String) (description : Option String) :
    Work.Blind (World.withAccounts accounts) (AgentService.createAgent organizationId name description) := by
  refine Work.blind_after (blind_getOrganization organizationId) fun organization => ?_
  refine Work.blind_after (blind_requireRoom (blind_ordered _ _)) fun _ => ?_
  exact Work.blind_bind (blind_domain _) fun agent => blind_add agent

theorem blind_createDefinition (organizationId : Nat) (name : String) (description : Option String) :
    Work.Blind (World.withAccounts accounts) (WorkflowService.createDefinition organizationId name description) := by
  refine Work.blind_after (blind_getOrganization organizationId) fun organization => ?_
  refine Work.blind_after (blind_requireRoom (blind_ordered _ _)) fun _ => ?_
  exact Work.blind_bind (blind_domain _) fun definition => blind_add definition

theorem blind_createContract (env : Env) (organizationId : Nat) (title contractType : String)
    (workflowDefinitionId : Nat) (actor : String) (description : Option String) :
    Work.Blind (World.withAccounts accounts) (ContractService.createContract env organizationId title contractType
      workflowDefinitionId actor description) := by
  refine Work.blind_after (blind_getOrganization organizationId) fun organization => ?_
  refine Work.blind_after (blind_requireRoom (blind_ordered _ _)) fun _ => ?_
  refine Work.blind_after (blind_require _ workflowDefinitionId) fun definition => ?_
  refine Work.blind_bind (blind_domain _) fun contract => ?_
  refine Work.blind_bind (blind_domain _) fun p => ?_
  refine Work.blind_bind (blind_add p.1) fun contract => ?_
  refine Work.blind_bind (blind_add _) fun document => ?_
  refine Work.blind_bind (blind_domain _) fun started => ?_
  exact Work.blind_bind (blind_add started) fun _ => Work.blind_pure contract

theorem blind_getInstance (contractId : Nat) :
    Read.Blind (World.withAccounts accounts) (ContractService.getInstance contractId) :=
  Read.blind_bind (blind_ordered _ _) fun _ => blind_raising _

theorem blind_availableActions (contractId : Nat) :
    Read.Blind (World.withAccounts accounts) (ContractService.availableActions contractId) := by
  refine Read.blind_bind (blind_getInstance contractId) fun i => ?_
  exact Read.blind_bind (blind_require _ i.workflowDefinitionId) fun definition => Read.blind_pure _

theorem blind_transitionContract (env : Env) (contractId : Nat) (actionName actor : String) (comment : Option String) :
    Work.Blind (World.withAccounts accounts)
      (ContractService.transitionContract env contractId actionName actor comment) := by
  refine Work.blind_after (blind_getInstance contractId) fun i => ?_
  refine Work.blind_after (blind_require _ i.workflowDefinitionId) fun definition => ?_
  refine Work.blind_bind (blind_domain _) fun moved => ?_
  exact Work.blind_bind (blind_save moved) fun _ => Work.blind_pure moved

theorem blind_addDocument (env : Env) (contractId : Nat) (name : String) :
    Work.Blind (World.withAccounts accounts) (ContractService.addDocument env contractId name) := by
  refine Work.blind_after (blind_require _ contractId) fun contract => ?_
  refine Work.blind_bind (blind_domain _) fun p => ?_
  exact Work.blind_bind (blind_save p.1) fun _ => blind_add p.2

/-! ## Storage -/

theorem blind_answered (answer : Option α) : Read.Blind (World.withAccounts accounts) (answered answer) :=
  fun _ => rfl

theorem blind_buildFileStorage (env : Env) (c : StorageConnection) (secrets : StorageSecrets) :
    Read.Blind (World.withAccounts accounts) (buildFileStorage env c secrets) :=
  fun w => buildFileStorage_congr rfl rfl rfl secrets w (w.withAccounts accounts)

theorem blind_tokensOf (c : StorageConnection) : Read.Blind (World.withAccounts accounts) (StorageService.tokensOf c) := by
  unfold StorageService.tokensOf
  cases c.credential with
  | none => exact fun _ => rfl
  | some secrets =>
    refine Read.blind_bind (r := lookupKey secrets.accessToken) (fun _ => rfl) fun accessToken => ?_
    split
    · exact Read.blind_pure _
    · exact fun _ => rfl

theorem blind_promote (c : StorageConnection) :
    Work.Blind (World.withAccounts accounts) (StorageService.promote c) := by
  refine Work.blind_after (blind_oneOrNone _) fun found => ?_
  cases found with
  | none => exact blind_domain c.markPrimary
  | some current =>
    dsimp only
    split
    · exact Work.blind_bind (blind_save _) fun _ => blind_domain c.markPrimary
    · exact blind_domain c.markPrimary

theorem blind_connectBucket (env : Env) (organizationId : Nat) (provider : StorageProvider) (displayName : String)
    (config : StorageConfig) (credentials : StorageSecrets) : Work.Blind (World.withAccounts accounts)
      (StorageService.connectBucket env organizationId provider displayName config credentials) := by
  refine Work.blind_after (blind_oneOrNone _) fun existing => ?_
  refine Work.blind_bind (blind_domain _) fun _ => ?_
  exact Work.blind_bind (blind_promote _) fun c => blind_add c

theorem blind_setPrimary (connectionId : Nat) :
    Work.Blind (World.withAccounts accounts) (StorageService.setPrimary connectionId) := by
  refine Work.blind_after (blind_require _ connectionId) fun c => ?_
  refine Work.blind_bind (blind_promote c) fun promoted => ?_
  exact Work.blind_bind (blind_save promoted) fun _ => Work.blind_pure promoted

theorem blind_completeOauthConnection (env : Env) (organizationId : Nat) (provider : StorageProvider)
    (tokens : Option OAuthTokens) : Work.Blind (World.withAccounts accounts)
      (StorageService.completeOauthConnection env organizationId provider tokens) := by
  unfold StorageService.completeOauthConnection
  refine Work.blind_after ?_ fun _ => ?_
  · split
    · exact Read.blind_pure ()
    · exact fun _ => rfl
  refine Work.blind_after (blind_answered tokens) fun tokens => ?_
  refine Work.blind_after (blind_oneOrNone _) fun existing => ?_
  cases existing with
  | none =>
    refine Work.blind_bind (blind_add _) fun c => ?_
    exact Work.blind_bind (blind_save _) fun _ => Work.blind_pure _
  | some c =>
    refine Work.blind_bind (Work.blind_pure c) fun c => ?_
    exact Work.blind_bind (blind_save _) fun _ => Work.blind_pure _

theorem blind_completeOauth (env : Env) (tokens : StorageProvider → String → Option OAuthTokens) (code state : String) :
    Work.Blind (World.withAccounts accounts) (Api.completeOauth env tokens code state) := by
  refine Work.blind_after (fun _ => rfl) fun p => ?_
  obtain ⟨organizationId, provider⟩ := p
  cases organizationId with
  | ofNat organizationId => exact blind_completeOauthConnection env organizationId provider _
  | negSucc _ => exact Work.blind_lift (r := throw (Failure.crashed .integrityError)) fun _ => rfl

/-! ## Documents -/

theorem blind_uploadTarget (documentId : Nat) :
    Read.Blind (World.withAccounts accounts) (DocumentService.uploadTarget documentId) := by
  refine Read.blind_bind (blind_require _ documentId) fun document => ?_
  refine Read.blind_bind (blind_require _ document.contractId) fun contract => ?_
  refine Read.blind_bind (blind_oneOrNone _) fun primary => ?_
  exact Read.blind_bind (blind_raising _) fun connection => Read.blind_pure _

theorem blind_putObject (env : Env) (bucket : Bucket) (key : String) (content : Bytes) :
    Program.Blind (World.withAccounts accounts) (putObject env bucket key content) := by
  intro w
  unfold putObject
  split
  · rfl
  · rfl

theorem blind_commitVersion (env : Env) (document : Document) (connectionId : Nat) (key : String)
    (u : DocumentService.Upload) :
    Work.Blind (World.withAccounts accounts) (DocumentService.commitVersion env document connectionId key u) := by
  intro w
  rw [DocumentService.commitVersion_apply, DocumentService.commitVersion_apply]
  exact Work.blind_bind (blind_save _) (fun _ _ => rfl) w

theorem blind_uploadVersion (env : Env) (documentId : Nat) (u : DocumentService.Upload) :
    Program.Blind (World.withAccounts accounts) (DocumentService.uploadVersion env documentId u) := by
  refine Program.blind_after (blind_uploadTarget documentId) fun p => ?_
  obtain ⟨document, contract, connection⟩ := p
  refine Program.blind_after (blind_buildFileStorage env connection _) fun bucket => ?_
  refine Program.blind_bind (blind_putObject env bucket _ u.content) fun _ => ?_
  exact Program.blind_commit (blind_commitVersion env document connection.id _ u)

theorem blind_importVersion (env : Env) (documentId connectionId : Nat) (externalFileId uploadedBy : String)
    (notes : Option String) : Program.Blind (World.withAccounts accounts)
      (DocumentService.importVersionFromExternal env documentId connectionId externalFileId uploadedBy notes) := by
  refine Program.blind_after (blind_require _ connectionId) fun connection => ?_
  refine Program.blind_after (r := StorageService.importExternalFile env connectionId externalFileId) ?_ fun p => ?_
  · refine Read.blind_bind (blind_require _ connectionId) fun c => ?_
    exact Read.blind_bind (blind_tokensOf c) fun tokens => blind_answered _
  · exact blind_uploadVersion env documentId _

/-! ## Requests -/

namespace Api

theorem blind_contractOut (c : Contract) : Read.Blind (World.withAccounts accounts) (contractOut c) :=
  Read.blind_bind (blind_select _) fun _ => Read.blind_pure _

theorem blind_contractOuts (contracts : List Contract) :
    Read.Blind (World.withAccounts accounts) (contracts.mapM contractOut) := by
  induction contracts with
  | nil => exact Read.blind_pure []
  | cons c contracts ih =>
    rw [List.mapM_cons]
    exact Read.blind_bind (blind_contractOut c) fun _ => Read.blind_bind ih fun _ => Read.blind_pure _

/-- A response made of what a unit of work returns. -/
theorem blind_committed {m : UnitOfWork α} (hm : Work.Blind (World.withAccounts accounts) m) (f : α → JsonResponse) :
    Program.Blind (World.withAccounts accounts) (do return f (← m) : Action JsonResponse) :=
  Program.blind_bind (Program.blind_commit hm) fun _ => Program.blind_pure _

theorem blind_answer {r : Query α} (hr : Read.Blind (World.withAccounts accounts) r) (f : α → JsonResponse) :
    Program.Blind (World.withAccounts accounts) (do return f (← r) : Action JsonResponse) :=
  Program.blind_after hr fun _ => Program.blind_pure _

/-- A route of the organization in the header. -/
theorem blind_ofHeader {organizationId : Nat} {m : Organization → Action JsonResponse}
    (hm : ∀ o, Program.Blind (World.withAccounts accounts) (m o)) : Program.Blind (World.withAccounts accounts)
      (do m (← OrganizationService.get organizationId) : Action JsonResponse) :=
  Program.blind_after (blind_getOrganization organizationId) hm

theorem blind_handle (env : Env) (tokens : StorageProvider → String → Option OAuthTokens) (r : ApiRequest) :
    Program.Blind (World.withAccounts accounts) (handle env tokens r) := by
  cases r with
  | createOrganization name => exact blind_committed (blind_createOrganization name) _
  | listOrganizations => exact blind_answer (blind_ordered _ _) _
  | getOrganization slug => exact blind_answer (blind_getBySlug slug) _
  | createAgent organizationId name description =>
    exact blind_ofHeader fun o => blind_committed (blind_createAgent o.id name description) _
  | listAgents organizationId => exact blind_ofHeader fun o => blind_answer (blind_ordered _ _) _
  | renameAgent agentId name => exact blind_committed (blind_change _ agentId _) _
  | setAgentActive agentId active => exact blind_committed (blind_change _ agentId _) _
  | createDefinition organizationId name description =>
    exact blind_ofHeader fun o => blind_committed (blind_createDefinition o.id name description) _
  | listDefinitions organizationId => exact blind_ofHeader fun o => blind_answer (blind_ordered _ _) _
  | getDefinition definitionId => exact blind_answer (blind_require _ definitionId) _
  | addStep definitionId step => exact blind_committed (blind_change _ definitionId _) _
  | addTransition definitionId transition => exact blind_committed (blind_change _ definitionId _) _
  | activateDefinition definitionId => exact blind_committed (blind_change _ definitionId _) _
  | createContract organizationId title contractType workflowDefinitionId actor description =>
    refine blind_ofHeader fun o => Program.blind_bind (Program.blind_commit ?_) fun c =>
      blind_answer (blind_contractOut c) _
    exact blind_createContract env o.id title contractType workflowDefinitionId actor description
  | listContracts organizationId =>
    refine blind_ofHeader fun o => Program.blind_after (blind_ordered _ _) fun contracts => ?_
    exact blind_answer (blind_contractOuts contracts) _
  | getContract contractId =>
    exact Program.blind_after (blind_require _ contractId) fun c => blind_answer (blind_contractOut c) _
  | getInstance contractId => exact blind_answer (blind_getInstance contractId) _
  | getAvailableActions contractId => exact blind_answer (blind_availableActions contractId) _
  | executeTransition contractId actionName actor comment =>
    exact blind_committed (blind_transitionContract env contractId actionName actor comment) _
  | addDocument contractId name => exact blind_committed (blind_addDocument env contractId name) _
  | getDocument documentId => exact blind_answer (blind_require _ documentId) _
  | uploadVersion documentId file uploadedBy notes =>
    exact Program.blind_bind (blind_uploadVersion env documentId _) fun _ => Program.blind_pure _
  | importVersion documentId connectionId externalFileId uploadedBy notes =>
    exact Program.blind_bind (blind_importVersion env documentId connectionId externalFileId uploadedBy notes)
      fun _ => Program.blind_pure _
  | connectBucket organizationId provider displayName config credentials =>
    refine blind_ofHeader fun o => blind_committed ?_ _
    exact blind_connectBucket env o.id provider displayName config credentials
  | listConnections organizationId => exact blind_ofHeader fun o => blind_answer (blind_ordered _ _) _
  | startOauth organizationId provider =>
    refine blind_ofHeader fun o => blind_answer (r := StorageService.startOauthConnection env o.id provider) ?_ _
    unfold StorageService.startOauthConnection
    split
    · exact Read.blind_pure _
    · exact fun _ => rfl
  | oauthCallback code state => exact blind_committed (blind_completeOauth env tokens code state) _
  | setPrimary connectionId => exact blind_committed (blind_setPrimary connectionId) _
  | disconnect connectionId => exact blind_committed (blind_change _ connectionId _) _
  | browseFiles connectionId folderId =>
    refine blind_answer (r := StorageService.browseExternalFiles env connectionId folderId) ?_ _
    refine Read.blind_bind (blind_require _ connectionId) fun c => ?_
    exact Read.blind_bind (blind_tokensOf c) fun tokens => blind_answered _

/-! ## Runs -/

structure ApiCall where
  env : Env
  tokens : StorageProvider → String → Option OAuthTokens
  request : ApiRequest

def ApiCall.next (w : World) (c : ApiCall) : World := (respond c.env c.tokens c.request w).2

def ApiCall.response (w : World) (c : ApiCall) : JsonResponse := (respond c.env c.tokens c.request w).1

/-- A request, or anything that others do to the accounts. -/
inductive ApiEvent where
  | call (c : ApiCall)
  | others (accounts : Accounts)

namespace ApiEvent

def next (w : World) : ApiEvent → World
  | .call c => c.next w
  | .others accounts => w.withAccounts accounts

def responses (w : World) : ApiEvent → List JsonResponse
  | .call c => [c.response w]
  | .others _ => []

def call? : ApiEvent → Option ApiCall
  | .call c => some c
  | .others _ => none

/-- The accounts after what others have done. -/
def settle (a : Accounts) : ApiEvent → Accounts
  | .call _ => a
  | .others accounts => accounts

end ApiEvent

theorem next_withAccounts (a : Accounts) (w : World) (c : ApiCall) :
    c.next (w.withAccounts a) = (c.next w).withAccounts a :=
  congrArg Prod.snd (blind_handle c.env c.tokens c.request w)

theorem response_withAccounts (a : Accounts) (w : World) (c : ApiCall) :
    c.response (w.withAccounts a) = c.response w := by
  have h := @blind_handle a c.env c.tokens c.request w
  exact congrArg (fun p => JsonResponse.ofResult p.1) h

theorem accounts_next (w : World) (c : ApiCall) : (c.next w).accounts = w.accounts :=
  Program.part_kept World.withAccounts_accounts World.accounts_withAccounts
    (fun _ => blind_handle c.env c.tokens c.request) w

/-- Requests and what others do to the accounts never meet: the responses of a run are those that the
requests would have got alone, its accounts are those that the others have left, and the rest of the
world is where the requests alone would have left it. -/
theorem api_apart (w : World) (events : List ApiEvent) :
    Runs.log ApiEvent.next ApiEvent.responses w events =
        Runs.log ApiCall.next (fun w c => [c.response w]) w (events.filterMap ApiEvent.call?) ∧
      Runs.run ApiEvent.next w events = (Runs.run ApiCall.next w (events.filterMap ApiEvent.call?)).withAccounts
        (Runs.run ApiEvent.settle w.accounts events) := by
  induction events generalizing w with
  | nil => exact ⟨rfl, rfl⟩
  | cons e events ih =>
    cases e with
    | call c =>
      obtain ⟨hlog, hrun⟩ := ih (c.next w)
      rw [accounts_next] at hrun
      exact ⟨congrArg (c.response w :: ·) hlog, hrun⟩
    | others a =>
      obtain ⟨hlog, hrun⟩ := ih (w.withAccounts a)
      have hcalls := Runs.run_blind (next_withAccounts a) w (events.filterMap ApiEvent.call?)
      have hresponses : Runs.log ApiCall.next (fun w c => [c.response w]) (w.withAccounts a)
          (events.filterMap ApiEvent.call?) = _ :=
        Runs.log_blind (next_withAccounts a) (fun w c => congrArg (fun r => [r]) (response_withAccounts a w c)) w _
      constructor
      · exact hlog.trans hresponses
      · change Runs.run ApiEvent.next (w.withAccounts a) events = _
        rw [hrun, hcalls]
        rfl

end Api

end Orchestract
