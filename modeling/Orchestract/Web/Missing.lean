import Orchestract.Library.Numerals
import Orchestract.Web.Routes

/-!
# What a page reports as missing

A page that answers with a not-found error names something that is not in the database: no `GET`
route reports a row as missing that is there.
-/

namespace Orchestract

set_option autoImplicit false

/-- The word for a kind of row in the errors. -/
def Kind.what : Kind → String
  | .organization => "organization"
  | .user => "user"
  | .role => "role"
  | .agent => "agent"
  | .definition => "workflow definition"
  | .contract => "contract"
  | .document => "document"
  | .shareLink => "share link"
  | .connection => "storage connection"

def noInstance (contractId : Nat) : DomainError :=
  .notFound s!"no workflow instance for contract {contractId}"

/-- The error reports something as missing that is there. -/
inductive Present (w : World) : DomainError → Prop where
  | row (ref : Ref) (h : w.db.has ref = true) : Present w (.missing ref.kind.what ref.id)
  | started (contractId : Nat) (i : WorkflowInstance)
      (h : ContractService.getInstance contractId w = .ok i) : Present w (noInstance contractId)

/-! ## The texts -/

theorem message_missing (what : String) (id : Nat) :
    (DomainError.missing what id).message.toList =
      what.toList ++ (' ' :: (Nat.toDigits 10 id ++ " not found".toList)) := by
  change (s!"{what} {id} not found").toList = _
  simp [toString, String.toList_append]

theorem message_noInstance (contractId : Nat) :
    (noInstance contractId).message.toList =
      "no workflow instance for contract ".toList ++ Nat.toDigits 10 contractId := by
  change (s!"no workflow instance for contract {contractId}").toList = _
  simp [toString, String.toList_append]

/-- How the text of an error begins. -/
def opening (e : DomainError) : List Char := e.message.toList.take 2

theorem opening_missing (kind : Kind) (id : Nat) :
    opening (.missing kind.what id) = kind.what.toList.take 2 := by
  unfold opening
  rw [message_missing]
  cases kind <;> rfl

theorem opening_noInstance (contractId : Nat) : opening (noInstance contractId) = ['n', 'o'] := by
  unfold opening
  rw [message_noInstance]
  rfl

theorem what_inj {kind kind' : Kind} (h : kind.what.toList.take 2 = kind'.what.toList.take 2) :
    kind = kind' := by
  cases kind <;> cases kind' <;> first | rfl | exact absurd h (by decide)

theorem missing_inj {ref ref' : Ref}
    (h : DomainError.missing ref.kind.what ref.id = .missing ref'.kind.what ref'.id) : ref = ref' := by
  have hkind : ref.kind = ref'.kind := by
    apply what_inj
    rw [← opening_missing ref.kind ref.id, ← opening_missing ref'.kind ref'.id, h]
  have hid : ref.id = ref'.id := by
    have htext := congrArg (fun e => e.message.toList) h
    simp only [message_missing, hkind] at htext
    exact Numerals.toDigits_inj (List.append_cancel_right (List.cons.inj (List.append_cancel_left htext)).2)
  cases ref
  cases ref'
  simp_all

theorem noInstance_inj {c c' : Nat} (h : noInstance c = noInstance c') : c = c' := by
  have htext := congrArg (fun e => e.message.toList) h
  simp only [message_noInstance] at htext
  exact Numerals.toDigits_inj (List.append_cancel_left htext)

theorem missing_ne_noInstance (ref : Ref) (contractId : Nat) :
    DomainError.missing ref.kind.what ref.id ≠ noInstance contractId := by
  intro h
  have hopening := congrArg opening h
  rw [opening_missing, opening_noInstance] at hopening
  cases hkind : ref.kind <;> simp only [hkind] at hopening <;> exact absurd hopening (by decide)

theorem not_present_missing {w : World} (ref : Ref) (h : w.db.has ref = false) :
    ¬ Present w (.missing ref.kind.what ref.id) := by
  intro hp
  generalize hm : DomainError.missing ref.kind.what ref.id = m at hp
  cases hp with
  | row ref' h' =>
    obtain rfl := missing_inj hm
    rw [h] at h'
    cases h'
  | started contractId i h' => exact missing_ne_noInstance ref contractId hm

theorem not_present_noInstance {w : World} {contractId : Nat}
    (h : ∀ i, ContractService.getInstance contractId w ≠ .ok i) :
    ¬ Present w (noInstance contractId) := by
  intro hp
  generalize hm : noInstance contractId = m at hp
  cases hp with
  | row ref h' => exact missing_ne_noInstance ref contractId hm.symm
  | started c i h' =>
    obtain rfl := noInstance_inj hm
    exact h i h'

theorem present_notFound {w : World} {m : DomainError} (h : Present w m) :
    ∃ message, m = .notFound message := by
  cases h with
  | row ref h => exact ⟨_, rfl⟩
  | started contractId i h => exact ⟨_, rfl⟩

/-! ## Truthful reads -/

/-- The read ends well, or crashes, or raises an error that reports nothing present as missing. -/
def Truthful {α : Type} (w : World) (r : Query α) : Prop :=
  ∀ e, r w = .error e → (∃ c, e = .crashed c) ∨ ∃ m, e = .raised m ∧ ¬ Present w m

section

variable {α β : Type} {w : World}

theorem truthful_pure (a : α) : Truthful w (pure a : Query α) := fun _ h => by cases h

theorem truthful_bind {r : Query α} {f : α → Query β} (hr : Truthful w r)
    (hf : ∀ a, r w = .ok a → Truthful w (f a)) : Truthful w (r >>= f) := by
  intro e he
  change ((r w) >>= fun a => f a w) = .error e at he
  cases h : r w with
  | ok a =>
    rw [h] at he
    exact hf a h e he
  | error e' =>
    rw [h] at he
    obtain rfl := Except.error.inj he
    exact hr e' h

theorem truthful_then {r : Query α} {f : α → Query β} (hr : Truthful w r)
    (hf : ∀ a, Truthful w (f a)) : Truthful w (r >>= f) := truthful_bind hr fun a _ => hf a

theorem truthful_map (f : α → β) {r : Query α} (hr : Truthful w r) : Truthful w (f <$> r) := by
  rw [map_eq_pure_bind]
  exact truthful_then hr fun _ => truthful_pure _

theorem truthful_ite {c : Prop} [Decidable c] {r r' : Query α} (h : Truthful w r)
    (h' : Truthful w r') : Truthful w (if c then r else r') := by
  split
  · exact h
  · exact h'

theorem truthful_mapM {f : β → Query α} {bs : List β} (h : ∀ b, Truthful w (f b)) :
    Truthful w (bs.mapM f) := by
  induction bs with
  | nil => exact truthful_pure _
  | cons b bs ih =>
    rw [List.mapM_cons]
    exact truthful_then (h b) fun _ => truthful_then ih fun _ => truthful_pure _

theorem truthful_crash (c : Crash) : Truthful w (throw (.crashed c) : Query α) := by
  intro e he
  exact Or.inl ⟨c, (Except.error.inj he).symm⟩

theorem truthful_raising {x : Except DomainError α} (h : ∀ m, x = .error m → ¬ Present w m) :
    Truthful w (liftM x : Query α) := by
  intro e he
  cases x with
  | ok a => cases he
  | error m =>
    obtain rfl := Except.error.inj he
    exact Or.inr ⟨m, rfl, h m rfl⟩

/-- Errors that are no not-found errors report nothing as missing. -/
theorem truthful_other {x : Except DomainError α}
    (h : ∀ m, x = .error m → ∀ message, m ≠ .notFound message) : Truthful w (liftM x : Query α) :=
  truthful_raising fun m hm hp => by
    obtain ⟨message, rfl⟩ := present_notFound hp
    exact h _ hm message rfl

theorem truthful_select [Row α] [Stored α] (p : α → Bool) : Truthful w (select p : Query (List α)) :=
  fun _ h => by cases h

theorem truthful_listing [Row α] [Stored α] (p : α → Bool) (order : List α → β) :
    Truthful w (select p >>= fun rows => pure (order rows) : Query β) :=
  truthful_then (truthful_select p) fun _ => truthful_pure _

theorem truthful_answered (answer : Option α) : Truthful w (answered answer) := by
  intro e he
  cases answer with
  | some a => cases he
  | none => exact Or.inl ⟨_, (Except.error.inj he).symm⟩

theorem truthful_lookupKey (value : Option α) : Truthful w (lookupKey value) := by
  intro e he
  cases value with
  | some a => cases he
  | none => exact Or.inl ⟨_, (Except.error.inj he).symm⟩

theorem truthful_require [Row α] [Stored α] (kind : Kind) (id : Nat)
    (h : ((Stored.table w.db).get id : Option α) = none → w.db.has ⟨kind, id⟩ = false) :
    Truthful w (require kind.what id : Query α) := by
  intro e he
  rw [require_eq] at he
  cases hget : ((Stored.table w.db).get id : Option α) with
  | some a =>
    rw [hget] at he
    cases he
  | none =>
    rw [hget] at he
    obtain rfl := Except.error.inj he
    exact Or.inr ⟨_, rfl, not_present_missing ⟨kind, id⟩ (h hget)⟩

end

theorem has_of_get_none {α : Type} {o : Option α} (h : o = none) : o.isSome = false := by rw [h]; rfl

theorem truthful_user (w : World) (id : Nat) : Truthful w (UserService.get id) :=
  truthful_require .user id fun h => has_of_get_none h

theorem truthful_role (w : World) (id : Nat) : Truthful w (RoleService.get id) :=
  truthful_require .role id fun h => has_of_get_none h

theorem truthful_agent (w : World) (id : Nat) : Truthful w (AgentService.get id) :=
  truthful_require .agent id fun h => has_of_get_none h

theorem truthful_definition (w : World) (id : Nat) : Truthful w (WorkflowService.get id) :=
  truthful_require .definition id fun h => has_of_get_none h

theorem truthful_contract (w : World) (id : Nat) : Truthful w (ContractService.get id) :=
  truthful_require .contract id fun h => has_of_get_none h

theorem truthful_document (w : World) (id : Nat) : Truthful w (DocumentService.get id) :=
  truthful_require .document id fun h => has_of_get_none h

theorem truthful_connection (w : World) (id : Nat) : Truthful w (StorageService.get id) :=
  truthful_require .connection id fun h => has_of_get_none h

theorem getInstance_eq (contractId : Nat) (w : World) :
    ContractService.getInstance contractId w =
      match (orderByDesc WorkflowInstance.startedAt
        (w.db.instances.select (fun i => i.contractId = contractId))).head? with
      | some i => .ok i
      | none => .error (.raised (noInstance contractId)) := by
  change raising (orRaise (noInstance contractId) (orderByDesc WorkflowInstance.startedAt
    (w.db.instances.select (fun i => i.contractId = contractId))).head?) w = _
  cases (orderByDesc WorkflowInstance.startedAt
    (w.db.instances.select (fun i => i.contractId = contractId))).head? <;> rfl

theorem truthful_getInstance (w : World) (contractId : Nat) :
    Truthful w (ContractService.getInstance contractId) := by
  intro e he
  refine Or.inr ⟨noInstance contractId, ?_, not_present_noInstance fun i hi => ?_⟩
  · rw [getInstance_eq] at he
    split at he
    · cases he
    · exact (Except.error.inj he).symm
  · rw [hi] at he
    cases he

theorem truthful_getStep (w : World) (definition : WorkflowDefinition) (key : String) :
    Truthful w (liftM (definition.getStep key) : Query WorkflowStep) := by
  apply truthful_other
  intro m hm message
  unfold WorkflowDefinition.getStep at hm
  cases hf : definition.steps.find? (fun s => s.key = key) with
  | some step =>
    rw [hf] at hm
    cases hm
  | none =>
    rw [hf] at hm
    obtain rfl := Except.error.inj hm
    exact fun h => by cases h

/-! ## The pages -/

section

variable (w : World) (v : Viewer)

theorem truthful_listAgents (organizationId : Nat) : Truthful w (AgentService.listAgents organizationId) :=
  truthful_listing _ _

theorem truthful_listRoles (organizationId : Nat) : Truthful w (RoleService.listRoles organizationId) :=
  truthful_listing _ _

theorem truthful_listUsers (organizationId : Nat) : Truthful w (UserService.listUsers organizationId) :=
  truthful_listing _ _

theorem truthful_listDefinitions (organizationId : Nat) :
    Truthful w (WorkflowService.listForOrganization organizationId) :=
  truthful_listing _ _

theorem truthful_listContracts (organizationId : Nat) :
    Truthful w (ContractService.listForOrganization organizationId) :=
  truthful_listing _ _

theorem truthful_listConnections (organizationId : Nat) :
    Truthful w (StorageService.listConnections organizationId) :=
  truthful_listing _ _

theorem truthful_agentNames (organizationId : Nat) : Truthful w (Pages.agentNames organizationId) :=
  truthful_then (truthful_listAgents w _) fun _ => truthful_pure _

theorem truthful_stepAndAgent (definition : WorkflowDefinition) (key : String)
    (names : List (Nat × String)) :
    Truthful w (liftM (Pages.stepAndAgent definition key names) : Query (String × String)) := by
  have h := truthful_map (fun step : WorkflowStep =>
    (step.name, (names.lookup step.agentId).getD s!"agent #{step.agentId}"))
    (truthful_getStep w definition key)
  intro e he
  apply h e
  rw [← he]
  change _ <$> raising _ w = raising _ w
  unfold Pages.stepAndAgent raising
  cases definition.getStep key <;> rfl

theorem truthful_contractRow (names : List (Nat × String)) (contract : Contract) :
    Truthful w (Pages.contractRow names contract) := by
  refine truthful_then (truthful_getInstance w _) fun i => ?_
  refine truthful_then (truthful_definition w _) fun definition => ?_
  refine truthful_then (truthful_stepAndAgent w _ _ _) fun step => ?_
  exact truthful_then (truthful_select _) fun _ => truthful_pure _

theorem truthful_contractRows (organizationId : Nat) (contracts : List Contract) :
    Truthful w (Pages.contractRowsWithStepInfo organizationId contracts) :=
  truthful_then (truthful_agentNames w _) fun names =>
    truthful_mapM fun contract => truthful_contractRow w names contract

theorem truthful_canEditStep (user : User) (agentId : Nat) :
    Truthful w (RoleService.canEditStep user agentId) :=
  truthful_listing _ _

theorem truthful_contractDetailContext (env : Env) (contractId : Nat) :
    Truthful w (Pages.contractDetailContext env v contractId) := by
  refine truthful_then (truthful_contract w _) fun contract =>
    truthful_then (truthful_select _) fun documents => ?_
  refine truthful_then (truthful_getInstance w _) fun i => ?_
  refine truthful_then (truthful_definition w _) fun definition => ?_
  refine truthful_then (truthful_agentNames w _) fun names => ?_
  refine truthful_then (truthful_stepAndAgent w _ _ _) fun stepName => ?_
  refine truthful_then (truthful_listConnections w _) fun connections => ?_
  refine truthful_then (truthful_getStep w _ _) fun step => ?_
  refine truthful_then (truthful_canEditStep w _ _) fun canEdit => ?_
  refine truthful_then (truthful_select _) fun roles => ?_
  refine truthful_then (truthful_listing _ _) fun links => ?_
  exact truthful_pure _

theorem truthful_permitted (contractId : Nat) (user : User) :
    Truthful w (Pages.permitted contractId user) := by
  have hcheck : Truthful w (assertCanEditContractStep contractId user) := by
    refine truthful_then (truthful_then (truthful_getInstance w _) fun i =>
      truthful_then (truthful_definition w _) fun definition => truthful_getStep w _ _) fun step => ?_
    refine truthful_then (truthful_canEditStep w _ _) fun allowed => truthful_other fun m hm message => ?_
    unfold raiseIf at hm
    split at hm
    · obtain rfl := Except.error.inj hm
      exact fun h => by cases h
    · cases hm
  intro e he
  unfold Pages.permitted at he
  split at he
  · cases he
  · cases he
  · rename_i e' hne hassert
    obtain rfl := Except.error.inj he
    exact hcheck e' hassert

theorem truthful_tokensOf (connection : StorageConnection) :
    Truthful w (StorageService.tokensOf connection) := by
  unfold StorageService.tokensOf
  cases connection.credential with
  | none => exact truthful_crash _
  | some secrets =>
    refine truthful_then (truthful_lookupKey _) fun accessToken => ?_
    exact truthful_ite (truthful_pure _) (truthful_crash _)

theorem truthful_browse (env : Env) (connectionId : Nat) (folderId : Option String) :
    Truthful w (StorageService.browseExternalFiles env connectionId folderId) :=
  truthful_then (truthful_connection w _) fun connection =>
    truthful_then (truthful_tokensOf w connection) fun _ => truthful_answered _

theorem truthful_importBrowserPage (env : Env) (contractId documentId connectionId : Nat)
    (folderId : Option String) :
    Truthful w (Pages.importBrowserPage env v contractId documentId connectionId folderId) := by
  refine truthful_then (truthful_permitted w _ _) fun allowed => truthful_ite ?_ (truthful_pure _)
  refine truthful_then (truthful_document w _) fun document => ?_
  refine truthful_then (truthful_connection w _) fun connection => ?_
  exact truthful_then (truthful_browse w env _ _) fun files => truthful_pure _

theorem truthful_buildFileStorage (env : Env) (c : StorageConnection) (secrets : StorageSecrets) :
    Truthful w (buildFileStorage env c secrets) := by
  unfold buildFileStorage
  cases c.provider with
  | «local» => exact truthful_pure _
  | s3 =>
    exact truthful_then (truthful_lookupKey _) fun _ => truthful_then (truthful_lookupKey _) fun _ =>
      truthful_then (truthful_lookupKey _) fun _ => truthful_pure _
  | minio =>
    exact truthful_then (truthful_lookupKey _) fun _ => truthful_then (truthful_lookupKey _) fun _ =>
      truthful_then (truthful_lookupKey _) fun _ => truthful_then (truthful_lookupKey _) fun _ =>
        truthful_pure _
  | gcs =>
    exact truthful_then (truthful_lookupKey _) fun _ => truthful_then (truthful_lookupKey _) fun _ =>
      truthful_pure _
  | googleDrive => exact truthful_crash _
  | onedrive => exact truthful_crash _

theorem truthful_downloadVersion (env : Env) (version : DocumentVersion) :
    Truthful w (DocumentService.downloadVersion env version) := by
  refine truthful_then (truthful_connection w _) fun connection => ?_
  refine truthful_then (truthful_buildFileStorage w env _ _) fun bucket => ?_
  intro e he
  unfold getObject at he
  split at he
  · cases he
  · exact Or.inl ⟨_, (Except.error.inj he).symm⟩

/-- "file version not found" is about no row in particular. -/
theorem not_present_fileVersion : ¬ Present w (.notFound "file version not found") := by
  intro hp
  generalize hm : DomainError.notFound "file version not found" = m at hp
  have hopening := congrArg opening hm
  cases hp with
  | row ref h =>
    rw [opening_missing] at hopening
    cases hkind : ref.kind <;> simp only [hkind] at hopening <;> exact absurd hopening (by decide)
  | started contractId i h =>
    rw [opening_noInstance] at hopening
    exact absurd hopening (by decide)

theorem truthful_documentVersionRaw (env : Env) (contractId documentId versionId : Nat)
    (download : Bool) :
    Truthful w (Pages.documentVersionRaw env v contractId documentId versionId download) := by
  refine truthful_then (truthful_contract w _) fun contract => ?_
  refine truthful_then (truthful_document w _) fun document => ?_
  refine truthful_then (truthful_raising fun m hm => ?_) fun _ => ?_
  · unfold raiseIf at hm
    split at hm
    · obtain rfl := Except.error.inj hm
      exact not_present_fileVersion w
    · cases hm
  refine truthful_then (truthful_raising fun m hm => ?_) fun version => ?_
  · unfold orRaise at hm
    split at hm
    · cases hm
    · obtain rfl := Except.error.inj hm
      exact not_present_fileVersion w
  · exact truthful_then (truthful_downloadVersion w env _) fun _ => truthful_pure _

/-- No `GET` route reports as missing what is there. -/
theorem truthful_handle (env : Env) (route : GetRoute) : Truthful w (route.handle env v) := by
  cases route with
  | dashboard =>
    exact truthful_map _ (truthful_then (truthful_listContracts w _) fun _ =>
      truthful_then (truthful_contractRows w _ _) fun _ => truthful_pure _)
  | agentsPage =>
    refine truthful_map _ (truthful_then (truthful_listAgents w _) fun _ => ?_)
    refine truthful_then (truthful_then (truthful_listDefinitions w _) fun _ => truthful_pure _) fun _ => ?_
    exact truthful_then (truthful_then (truthful_listRoles w _) fun _ => truthful_pure _) fun _ =>
      truthful_pure _
  | newAgentPage =>
    exact truthful_map _ (truthful_then (truthful_listRoles w _) fun _ =>
      truthful_then (truthful_agentNames w _) fun _ => truthful_pure _)
  | editAgentPage agentId =>
    exact truthful_map _ (truthful_then (truthful_agent w _) fun _ =>
      truthful_then (truthful_listRoles w _) fun _ =>
        truthful_then (truthful_agentNames w _) fun _ => truthful_pure _)
  | rolesPage =>
    exact truthful_map _ (truthful_then (truthful_listRoles w _) fun _ =>
      truthful_then (truthful_agentNames w _) fun _ => truthful_pure _)
  | newRolePage => exact truthful_map _ (truthful_then (truthful_listAgents w _) fun _ => truthful_pure _)
  | editRolePage roleId =>
    exact truthful_map _ (truthful_then (truthful_role w _) fun _ =>
      truthful_then (truthful_listAgents w _) fun _ => truthful_pure _)
  | usersPage =>
    exact truthful_map _ (truthful_then (truthful_listUsers w _) fun _ =>
      truthful_then (truthful_listRoles w _) fun _ => truthful_pure _)
  | newUserPage => exact truthful_map _ (truthful_then (truthful_listRoles w _) fun _ => truthful_pure _)
  | editUserPage userId =>
    exact truthful_map _ (truthful_then (truthful_user w _) fun _ =>
      truthful_then (truthful_listRoles w _) fun _ => truthful_pure _)
  | accountPage =>
    refine truthful_map _ (truthful_then (truthful_ite (truthful_pure _)
      (truthful_map _ (truthful_role w _))) fun _ => ?_)
    exact truthful_then (truthful_listing _ _) fun _ => truthful_pure _
  | storageSettingsPage =>
    exact truthful_map _ (truthful_then (truthful_listConnections w _) fun _ => truthful_pure _)
  | startOauthConnection provider =>
    refine truthful_then ?_ fun _ => truthful_pure _
    exact truthful_ite (truthful_pure _) (truthful_crash _)
  | billingSettingsPage plan =>
    exact truthful_map _ (truthful_then (truthful_listUsers w _) fun _ =>
      truthful_then (truthful_listContracts w _) fun _ => truthful_pure _)
  | workflowsPage =>
    exact truthful_map _ (truthful_then (truthful_listDefinitions w _) fun _ => truthful_pure _)
  | newWorkflowPage => exact truthful_pure _
  | workflowDetail definitionId =>
    refine truthful_map _ (truthful_then (truthful_definition w _) fun _ => ?_)
    exact truthful_then (truthful_listAgents w _) fun _ =>
      truthful_then (truthful_then (truthful_definition w _) fun _ => truthful_pure _) fun _ =>
        truthful_pure _
  | contractsPage q contractType =>
    exact truthful_map _ (truthful_then (truthful_listContracts w _) fun _ =>
      truthful_then (truthful_contractRows w _ _) fun _ => truthful_pure _)
  | newContractPage =>
    exact truthful_map _ (truthful_then (truthful_listDefinitions w _) fun _ => truthful_pure _)
  | contractDetail contractId =>
    exact truthful_map _ (truthful_then (truthful_contractDetailContext w v env contractId) fun _ =>
      truthful_pure _)
  | importBrowserPage contractId documentId connectionId folderId =>
    exact truthful_importBrowserPage w v env contractId documentId connectionId folderId
  | documentVersionRaw contractId documentId versionId download =>
    exact truthful_documentVersionRaw w v env contractId documentId versionId download

end

end Orchestract
