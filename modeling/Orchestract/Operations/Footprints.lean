import Orchestract.Documents.Uploads
import Orchestract.Operations.Footprint

/-!
# Every call is within its footprint

The other services, one lemma for each method, and from all of them the theorem that a call keeps
whatever the writes of its footprint keep.
-/

namespace Orchestract

set_option autoImplicit false

/-! ## Workflows -/

theorem within_createDefinition {sites : List Site} (organizationId : Nat) (name : String)
    (description : Option String) (hmem : Site.definitions ∈ sites) :
    Within sites (WorkflowService.createDefinition organizationId name description) := by
  apply within_bind (within_read _)
  intro _
  apply within_bind (within_read _)
  intro _
  apply within_bind (within_raising _)
  exact fun d => within_add d hmem

/-- A change by one method of the aggregate. -/
theorem within_changeDefinition {sites : List Site} (definitionId : Nat) (call : WorkflowDefinition.Call)
    {method : WorkflowDefinition → Except DomainError WorkflowDefinition} (hmem : Site.definitions ∈ sites)
    (h : ∀ d, method d = call.result d) : Within sites (change "workflow definition" definitionId method) := by
  apply within_change hmem
  intro d d' hd
  have hperform := WorkflowDefinition.perform_identity d call
  rw [WorkflowDefinition.perform_of_ok ((h d).symm.trans hd)] at hperform
  exact hperform

theorem within_updateDetails (definitionId : Nat) (name : String) (description : Option String) :
    Within [.definitions] (WorkflowService.updateDetails definitionId name description) := by
  refine within_iff.mpr fun I hI w a w' hw h => ?_
  simp only [WorkflowService.updateDetails, WorkflowService.get, Work.bind_ok_iff, Work.lift_ok_iff,
    require_ok_iff, lift_work_ok_iff, Work.pure_ok_iff] at h
  obtain ⟨d, _, ⟨hd, rfl⟩, _, _, ⟨_, rfl⟩, _, _, ⟨_, rfl⟩, renamed, _, ⟨hrename, rfl⟩, ⟨⟩, _, hsave,
    _, rfl⟩ := h
  obtain ⟨_, rfl⟩ := WorkflowDefinition.rename_ok_iff.mp hrename
  have hmem : d ∈ w.db.definitions.rows := (Table.get_eq_some_iff.mp hd).1
  exact keptBy_save (hI .definitions (by decide)) hmem (by rfl) (by rfl) hw hsave

theorem within_duplicateDefinition (definitionId : Nat) :
    Within [.definitions] (WorkflowService.duplicateDefinition definitionId) := by
  apply within_bind (within_read _)
  intro _
  apply within_bind (within_read _)
  intro _
  apply within_bind (within_raising _)
  intro _
  apply within_bind (within_raising _)
  exact fun d => within_add d (by decide)

/-! ## Contracts and documents -/

theorem within_createContract (env : Env) (organizationId : Nat) (title contractType : String)
    (workflowDefinitionId : Nat) (actor : String) (description : Option String) :
    Within [.contracts, .documents, .instances] (ContractService.createContract env organizationId title
      contractType workflowDefinitionId actor description) := by
  apply within_bind (within_read _)
  intro _
  apply within_bind (within_read _)
  intro _
  apply within_bind (within_read _)
  intro _
  apply within_bind (within_raising _)
  intro _
  apply within_bind (within_raising _)
  rintro ⟨contract, document⟩
  apply within_bind (within_add contract (by decide))
  intro contract
  apply within_bind (within_add _ (by decide))
  intro _
  apply within_bind (within_raising _)
  intro started
  apply within_bind (within_add started (by decide))
  exact fun _ => within_pure _

theorem within_changeContract (contractId : Nat) (method : Contract → Contract)
    (h : ∀ c, (method c).id = c.id ∧ (method c).organizationId = c.organizationId) :
    Within [.contracts] (change "contract" contractId fun c => .ok (method c)) := by
  apply within_change (by decide)
  intro c c' hc
  obtain rfl := Except.ok.inj hc
  exact h c

theorem within_setAIConfig (env : Env) (contractId : Nat) (enabled : Option Bool)
    (model instructions : Option String) (allowedTools : Option (List String)) :
    Within [.contracts]
      (ContractService.setAIConfig env contractId enabled model instructions allowedTools) := by
  apply within_bind (within_raising _)
  exact fun _ => within_changeContract contractId (fun c => c.setAIConfig _ env.now) fun _ => ⟨rfl, rfl⟩

theorem within_addDocument (env : Env) (contractId : Nat) (name : String) :
    Within [.contracts, .documents] (ContractService.addDocument env contractId name) := by
  refine within_iff.mpr fun I hI w a w' hw h => ?_
  obtain ⟨c, document, w₁, hc, _, _, hsave, hadd⟩ := ContractService.addDocument_ok h
  have hmem : c ∈ w.db.contracts.rows := (Table.get_eq_some_iff.mp hc).1
  have hw₁ : I w₁ := keptBy_save (hI .contracts (by decide)) hmem (by rfl) (by rfl) hw hsave
  exact within_iff.mp (within_add document (by decide)) I hI w₁ a w' hw₁ hadd

theorem within_transitionContract (env : Env) (contractId : Nat) (actionName actor : String)
    (comment : Option String) : Within [.instances]
      (ContractService.transitionContract env contractId actionName actor comment) := by
  refine within_iff.mpr fun I hI w a w' hw h => ?_
  obtain ⟨r, d, hr, _, hmove, hsave⟩ :=
    (ContractService.transitionContract_ok_iff env contractId actionName actor comment w w' a).mp h
  have hresult : (⟨actionName, actor, comment, env.now⟩ : WorkflowInstance.Call).result d r = .ok a := hmove
  obtain ⟨_, _, _, _, _, rfl⟩ := WorkflowInstance.result_ok_iff.mp hresult
  exact keptBy_save (hI .instances (by decide)) (ContractService.getInstance_ok hr).1 (by rfl) (by rfl) hw
    hsave

theorem within_setDocumentSummary (env : Env) (documentId : Nat) (summary : String) :
    Within [.documents] (DocumentService.setSummary env documentId summary) := by
  apply within_change (by decide)
  intro d d' h
  obtain rfl := Except.ok.inj h
  exact ⟨rfl, rfl⟩

theorem within_createLink (env : Env) (contractId : Nat) (scope : ShareScope) (allowDownload : Bool)
    (expiresInHours : Nat) (createdBy : String) (documentIds : List Nat) (rawPassword : Option String) :
    Within [.shareLinks] (SharingService.createLink env contractId scope allowDownload expiresInHours
      createdBy documentIds rawPassword) := by
  apply within_bind (within_read _)
  intro _
  apply within_bind (within_read _)
  intro _
  apply within_bind (within_raising _)
  exact fun link => within_add link (by decide)

theorem shareLink_revoke_fields (l : ShareLink) (now : Nat) :
    (l.revoke now).id = l.id ∧ (l.revoke now).contractId = l.contractId ∧
      (l.revoke now).token = l.token ∧ (l.revoke now).scope = l.scope ∧
      (l.revoke now).documents = l.documents := by
  unfold ShareLink.revoke
  split
  · exact ⟨rfl, rfl, rfl, rfl, rfl⟩
  · exact ⟨rfl, rfl, rfl, rfl, rfl⟩

theorem revoke_ok {env : Env} {contractId linkId : Nat} {w w' : World} {u : Unit}
    (h : SharingService.revoke env contractId linkId w = .ok (u, w')) :
    ∃ l, w.db.shareLinks.get linkId = some l ∧ l.contractId = contractId ∧
      save (l.revoke env.now) w = .ok ((), w') := by
  simp only [SharingService.revoke, Work.bind_ok_iff, Work.lift_ok_iff, lift_work_ok_iff, find_apply,
    orRaise_ok_iff, Except.ok.injEq] at h
  obtain ⟨_, _, ⟨rfl, rfl⟩, l, _, ⟨hl, rfl⟩, hsave⟩ := h
  obtain ⟨hget, hcontract⟩ := Option.filter_eq_some_iff.mp hl
  exact ⟨l, hget, by simpa using hcontract, hsave⟩

theorem within_revokeLink (env : Env) (contractId linkId : Nat) :
    Within [.shareLinks] (SharingService.revoke env contractId linkId) := by
  refine within_iff.mpr fun I hI w a w' hw h => ?_
  obtain ⟨l, hl, _, hsave⟩ := revoke_ok h
  have hmem : l ∈ w.db.shareLinks.rows := (Table.get_eq_some_iff.mp hl).1
  obtain ⟨hid, hcontract, _⟩ := shareLink_revoke_fields l env.now
  exact keptBy_save (hI .shareLinks (by decide)) hmem hid hcontract hw hsave

/-! ## Storage connections -/

theorem within_promote (c : StorageConnection) : Within [.connections] (StorageService.promote c) := by
  refine within_iff.mpr fun I hI w c' w' hw h => ?_
  obtain ⟨_, _, found, hfound, ⟨rfl, _⟩ | ⟨p, rfl, _, hsave⟩⟩ := promote_cases h
  · exact hw
  · exact keptBy_save (hI .connections (by decide)) (oneOrNone_eq_some hfound).1 (by rfl) (by rfl) hw hsave

theorem within_connectBucket (env : Env) (organizationId : Nat) (provider : StorageProvider)
    (displayName : String) (config : StorageConfig) (credentials : StorageSecrets) :
    Within [.connections] (StorageService.connectBucket env organizationId provider displayName config
      credentials) := by
  apply within_bind (within_read _)
  intro _
  apply within_bind (within_raising _)
  intro _
  apply within_bind (within_promote _)
  exact fun c => within_add c (by decide)

theorem within_setPrimary (connectionId : Nat) :
    Within [.connections] (StorageService.setPrimary connectionId) := by
  refine within_iff.mpr fun I hI w a w' hw h => ?_
  simp only [StorageService.setPrimary, StorageService.get, Work.bind_ok_iff, Work.lift_ok_iff,
    require_ok_iff, Work.pure_ok_iff] at h
  obtain ⟨c, _, ⟨hc, rfl⟩, c', w₁, hpromote, _, _, hsave, _, rfl⟩ := h
  have hw₁ := within_iff.mp (within_promote c) I hI w c' w₁ hw hpromote
  obtain ⟨_, rfl, _⟩ := promote_cases hpromote
  have hmem := promote_kept hpromote rfl (Table.get_eq_some_iff.mp hc).1
  exact keptBy_save (hI .connections (by decide)) hmem (by rfl) (by rfl) hw₁ hsave

theorem within_disconnect (connectionId : Nat) :
    Within [.connections] (StorageService.disconnect connectionId) := by
  apply within_change (by decide)
  intro c c' h
  obtain rfl := Except.ok.inj h
  exact ⟨rfl, rfl⟩

/-- The connection of a provider is authorised: one that was there, or a new one. -/
theorem completeOauth_ok {env : Env} {organizationId : Nat} {provider : StorageProvider}
    {tokens : Option OAuthTokens} {a : StorageConnection} {w w' : World}
    (h : StorageService.completeOauthConnection env organizationId provider tokens w = .ok (a, w')) :
    provider.isReadOnly = true ∧ ∃ secrets c w₁, a = (c.setCredential secrets).markConnected ∧
      c.organizationId = organizationId ∧ c.provider = provider ∧ c ∈ w₁.db.connections.rows ∧
      (w₁ = w ∨ add (StorageConnection.create organizationId provider
        (StorageService.driveTitle provider) .empty env.now) w = .ok (c, w₁)) ∧
      save a w₁ = .ok ((), w') := by
  simp only [StorageService.completeOauthConnection, Work.bind_ok_iff, Work.lift_ok_iff] at h
  obtain ⟨_, _, ⟨hdrive, rfl⟩, tokens', _, ⟨_, rfl⟩, existing, _, ⟨hexisting, rfl⟩, h⟩ := h
  have hread : provider.isReadOnly = true := by
    by_contra hn
    rw [if_neg hn] at hdrive
    cases hdrive
  refine ⟨hread, StorageService.tokensToSecrets tokens', ?_⟩
  cases existing with
  | some c =>
    simp only [Work.bind_ok_iff, Work.pure_ok_iff] at h
    obtain ⟨_, _, ⟨rfl, rfl⟩, _, _, hsave, rfl, rfl⟩ := h
    obtain ⟨hmem, hp⟩ := oneOrNone_eq_some hexisting
    simp only [Bool.and_eq_true, decide_eq_true_eq] at hp
    exact ⟨c, w, rfl, hp.1, hp.2, hmem, Or.inl rfl, hsave⟩
  | none =>
    simp only [Work.bind_ok_iff, Work.pure_ok_iff] at h
    obtain ⟨c, w₁, hc, _, _, hsave, rfl, rfl⟩ := h
    obtain ⟨_, t, ht, rfl⟩ := (add_ok_iff _ c w w₁).mp hc
    obtain ⟨hnew, _, _⟩ := Table.insert_eq_some ht
    have hmem : c ∈ t.rows := (Table.mem_insert_iff ht).mpr (Or.inr rfl)
    exact ⟨c, _, rfl, by rw [hnew]; rfl, by rw [hnew]; rfl, hmem, Or.inr hc, hsave⟩

theorem within_completeOauthConnection (env : Env) (organizationId : Nat) (provider : StorageProvider)
    (tokens : Option OAuthTokens) : Within [.connections]
      (StorageService.completeOauthConnection env organizationId provider tokens) := by
  refine within_iff.mpr fun I hI w a w' hw h => ?_
  obtain ⟨_, secrets, c, w₁, rfl, _, _, hmem, hc, hsave⟩ := completeOauth_ok h
  have hw₁ : I w₁ := by
    rcases hc with rfl | hadd
    · exact hw
    · exact within_iff.mp (within_add _ (by decide)) I hI w c w₁ hw hadd
  exact keptBy_save (hI .connections (by decide)) hmem (by rfl) (by rfl) hw₁ hsave

/-! ## Presets and uploads -/

/-- The program writes to these sites only. -/
def ProgramWithin {α : Type} (sites : List Site) (m : Action α) : Prop :=
  ∀ I : World → Prop, (∀ site ∈ sites, KeptBy site I) → Program.Keeps I m

theorem programWithin_unit {α : Type} {sites : List Site} {m : UnitOfWork α} (h : Within sites m) :
    ProgramWithin sites (liftM m : Action α) :=
  fun I hI => Program.keeps_work (h I hI)

theorem programWithin_ensureAgent {sites : List Site} (organizationId : Nat) (agents : PresetAgents)
    (agent : String × String) (hmem : Site.agents ∈ sites) :
    ProgramWithin sites (ensureAgent organizationId agents agent) := by
  intro I hI
  unfold ensureAgent
  cases agents.known.lookup agent.1 with
  | some id => exact Program.keeps_pure _
  | none =>
    apply Program.keeps_bind (programWithin_unit (within_createAgent organizationId agent.1 _ hmem) I hI)
    exact fun _ => Program.keeps_pure _

theorem programWithin_addPresetStep (definitionId : Nat) (agents : PresetAgents) (step : PresetStep) :
    ProgramWithin [.agents, .definitions] (addPresetStep definitionId agents step) := by
  intro I hI
  unfold addPresetStep
  cases agents.ids.lookup step.agent with
  | some agentId =>
    apply Program.keeps_bind (programWithin_unit (within_changeDefinition definitionId
      (.addStep ⟨step.key, step.name, some step.description, agentId, step.isInitial, step.isTerminal⟩)
      (by decide) fun _ => rfl) I hI)
    exact fun _ => Program.keeps_pure _
  | none => exact Program.keeps_throw _

theorem programWithin_addPresetTransition (definitionId : Nat) (transition : WorkflowTransition) :
    ProgramWithin [.agents, .definitions] (addPresetTransition definitionId transition) := by
  intro I hI
  apply Program.keeps_bind (programWithin_unit (within_changeDefinition definitionId
    (.addTransition transition) (by decide) fun _ => rfl) I hI)
  exact fun _ => Program.keeps_pure _

theorem programWithin_createWorkflowFromPreset (organizationId : Nat) (preset : WorkflowPreset) :
    ProgramWithin [.agents, .definitions] (createWorkflowFromPreset organizationId preset) := by
  intro I hI
  apply Program.keeps_after_read
  intro existing
  apply Program.keeps_bind (Program.ensures_foldlM trivial
    fun agents agent _ _ => programWithin_ensureAgent organizationId agents agent (by decide) I hI)
  intro agents
  apply Program.keeps_after_read
  intro name
  apply Program.keeps_bind (programWithin_unit (within_createDefinition organizationId name _ (by decide)) I hI)
  intro definition
  apply Program.keeps_bind (Program.keeps_forM
    fun step _ => programWithin_addPresetStep definition.id agents step I hI)
  intro _
  apply Program.keeps_bind (Program.keeps_forM
    fun transition _ => programWithin_addPresetTransition definition.id transition I hI)
  exact fun _ => Program.keeps_pure _

/-- The commit of a version, with the id it takes. -/
theorem keptBy_commitVersion {I : World → Prop} {env : Env} {document : Document} {connectionId : Nat}
    {key : String} {u : DocumentService.Upload} {v : DocumentVersion} {w w' : World}
    (hI : ∀ site ∈ [Site.documents, .versionIds, .files], KeptBy site I) (hw : I w)
    (hd : document ∈ w.db.documents.rows)
    (h : DocumentService.commitVersion env document connectionId key u w = .ok (v, w')) : I w' := by
  obtain ⟨w₁, n, hsave, rfl⟩ := DocumentService.commitVersion_ok h
  have hids : KeptBy .versionIds I := hI .versionIds (by decide)
  exact hids w₁ n (keptBy_save (hI .documents (by decide)) hd (by rfl) (by rfl) hw hsave)

theorem programWithin_upload (env : Env) (documentId : Nat) (u : DocumentService.Upload) (commits : Bool) :
    ProgramWithin [.documents, .versionIds, .files] (Operation.upload env documentId u commits) := by
  intro I hI w hw
  refine ⟨?_, fun _ _ => trivial⟩
  have hfiles : KeptBy .files I := hI .files (by decide)
  unfold Operation.upload
  cases commits with
  | false =>
    have heq : DocumentService.uploadRolledBack env documentId u = DocumentService.putUpload env documentId u
      fun _ _ _ => throw (.crashed .integrityError) := rfl
    simp only [Bool.false_eq_true, if_false, heq]
    rcases DocumentService.putUpload_cases env documentId u (fun _ _ _ => throw (.crashed .integrityError)) w with
      ⟨e, he⟩ | ⟨t, _, ht⟩
    · rw [he]
      exact hw
    · rw [ht]
      exact hfiles w _ hw
  | true =>
    have heq : DocumentService.uploadVersion env documentId u = DocumentService.putUpload env documentId u
      fun document connection key => liftM (DocumentService.commitVersion env document connection.id key u) := rfl
    simp only [if_true, heq]
    rcases DocumentService.putUpload_cases env documentId u (fun document connection key =>
      liftM (DocumentService.commitVersion env document connection.id key u)) w with ⟨e, he⟩ | ⟨t, _, ht⟩
    · rw [he]
      exact hw
    · rw [ht]
      have hw₁ : I { w with files := t.files u } := hfiles w _ hw
      rcases Program.work_state (DocumentService.commitVersion env t.document t.connection.id
        (DocumentService.storageKey t.contract t.document u.filename) u) { w with files := t.files u } with
        ⟨v, hv⟩ | hsame
      · exact keptBy_commitVersion hI hw₁ (Table.get_eq_some_iff.mp t.document_get).1 hv
      · rw [hsame]
        exact hw₁

/-! ## Tokens -/

/-- The unit of work writes to these sites only, besides the tokens. -/
def WithinTokens {α : Type} (sites : List Site) (m : SystemWork α) : Prop :=
  ∀ I : World → Prop, (∀ site ∈ sites, KeptBy site I) → Work.Keeps (fun s : System => I s.world) m

section

variable {α β : Type} {sites : List Site}

theorem withinTokens_bind {m : SystemWork α} {f : α → SystemWork β} (hm : WithinTokens sites m)
    (hf : ∀ a, WithinTokens sites (f a)) : WithinTokens sites (m >>= f) :=
  fun I hI => Work.ensures_bind (hm I hI) fun a _ => hf a I hI

theorem withinTokens_pure (a : α) : WithinTokens sites (pure a : SystemWork α) :=
  fun _ _ => Work.ensures_pure trivial

theorem keeps_lift {I : World → Prop} {m : UnitOfWork α} (h : Work.Keeps I m) :
    Work.Keeps (fun s : System => I s.world) (liftM m : SystemWork α) := by
  intro s hs a s' hm
  obtain ⟨hw, _⟩ := onSystem_ok_iff.mp hm
  exact h s.world hs a s'.world hw

theorem withinTokens_lift {m : UnitOfWork α} (h : Within sites m) :
    WithinTokens sites (liftM m : SystemWork α) :=
  fun I hI => keeps_lift (h I hI)

/-- What leaves the world alone. -/
theorem withinTokens_of_world {m : SystemWork α}
    (h : ∀ s a s', m s = .ok (a, s') → s'.world = s.world) : WithinTokens sites m := by
  intro I _ s hs a s' hm
  refine ⟨?_, trivial⟩
  change I s'.world
  rw [h s a s' hm]
  exact hs

end

theorem withinTokens_add {sites : List Site} (token : UserToken) :
    WithinTokens sites (UserTokens.add token) := by
  apply withinTokens_of_world
  intro s a s' h
  unfold UserTokens.add at h
  split at h
  · split at h
    · obtain ⟨_, rfl⟩ := Prod.mk.inj (Except.ok.inj h)
      rfl
    · cases h
  · cases h

theorem withinTokens_issueToken {sites : List Site} (env : Env) (userId : Nat)
    (purpose : UserTokenPurpose) : WithinTokens sites (Accounts.issueToken env userId purpose) := by
  apply withinTokens_bind
  · apply withinTokens_of_world
    intro s a s' h
    obtain ⟨_, rfl⟩ := Prod.mk.inj (Except.ok.inj h)
    rfl
  · exact fun _ => withinTokens_add _

/-- The token of a new account is all that `register` adds to the registration. -/
theorem keeps_register {I : World → Prop} {env : Env} {organizationName userName email rawPassword : String}
    {ipAddress userAgent : Option String}
    (h : Work.Keeps I (RegistrationService.register env organizationName userName email rawPassword
      ipAddress userAgent)) :
    Work.Keeps (fun s : System => I s.world)
      (Accounts.register env organizationName userName email rawPassword ipAddress userAgent) := by
  apply Work.ensures_bind (keeps_lift h)
  rintro ⟨organization, user⟩ _
  have htoken : WithinTokens [] (do
      let token ← UserTokens.add (.issue user.id .emailVerification env.randomToken env.now)
      return (organization, user, token) : SystemWork (Organization × User × UserToken)) :=
    withinTokens_bind (withinTokens_add _) fun _ => withinTokens_pure _
  exact htoken I fun _ hsite => by cases hsite

theorem withinTokens_register (env : Env) (organizationName userName email rawPassword : String)
    (ipAddress userAgent : Option String) :
    WithinTokens [.organizations, .roles, .users, .acceptances]
      (Accounts.register env organizationName userName email rawPassword ipAddress userAgent) :=
  fun I hI => keeps_register (within_register env organizationName userName email rawPassword
    ipAddress userAgent I hI)

theorem withinTokens_resendVerification (env : Env) (email : String) :
    WithinTokens [] (Accounts.resendVerification env email) := by
  apply withinTokens_bind (withinTokens_lift (within_read _))
  intro found
  cases found with
  | none => exact withinTokens_pure _
  | some user =>
    by_cases hv : user.isEmailVerified = true
    · simp only [if_pos hv]
      exact withinTokens_pure _
    · simp only [if_neg hv]
      exact withinTokens_bind (withinTokens_issueToken env user.id _) fun _ => withinTokens_pure _

theorem withinTokens_createPasswordResetToken (env : Env) (email : String) :
    WithinTokens [] (Accounts.createPasswordResetToken env email) := by
  apply withinTokens_bind (withinTokens_lift (within_read _))
  intro found
  cases found with
  | none => exact withinTokens_pure _
  | some user =>
    by_cases hv : ¬ user.isActive = true
    · simp only [if_pos hv]
      exact withinTokens_pure _
    · simp only [if_neg hv]
      exact withinTokens_bind (withinTokens_issueToken env user.id _) fun _ => withinTokens_pure _

/-- The user of a token is changed, or nothing is. -/
theorem keeps_redeem {I : World → Prop} {method : User → User}
    (h : ∀ userId, Work.Keeps I (Accounts.changeHolder userId method)) (env : Env) (token : String)
    (purpose : UserTokenPurpose) :
    Work.Keeps (fun s : System => I s.world) (Accounts.redeem env token purpose method) := by
  apply Work.ensures_after_read
  intro record
  cases record.filter fun t => t.isValid env.now with
  | none =>
    intro s _ a s' h
    exact absurd h (by simp)
  | some t =>
    apply Work.ensures_bind (keeps_lift (h t.userId))
    intro user _
    have hdelete : WithinTokens [] (do
        UserTokens.delete token
        return user : SystemWork User) := by
      refine withinTokens_bind (withinTokens_of_world fun s a s' hs => ?_) fun _ => withinTokens_pure _
      obtain ⟨_, rfl⟩ := Prod.mk.inj (Except.ok.inj hs)
      rfl
    exact hdelete I fun _ hsite => by cases hsite

theorem withinTokens_redeem (env : Env) (token : String) (purpose : UserTokenPurpose)
    {method : User → User} (h : ∀ u, (method u).id = u.id ∧ (method u).organizationId = u.organizationId) :
    WithinTokens [.users] (Accounts.redeem env token purpose method) :=
  fun I hI => keeps_redeem (fun userId => within_changeHolder userId h I hI) env token purpose

theorem withinTokens_verifyEmail (env : Env) (token : String) :
    WithinTokens [.users] (Accounts.verifyEmail env token) :=
  withinTokens_redeem env token .emailVerification fun _ => ⟨rfl, rfl⟩

theorem withinTokens_resetPassword (env : Env) (token newPassword : String) :
    WithinTokens [.users] (Accounts.resetPassword env token newPassword) :=
  withinTokens_redeem env token .passwordReset fun _ => ⟨rfl, rfl⟩

/-! ## All operations -/

theorem unit_state {α : Type} (m : UnitOfWork α) (s : System) :
    (Operation.unit m s).2.world = ((liftM m : Action α) s.world).2 := by
  unfold Operation.unit
  rw [map_eq_pure_bind]
  exact Program.bind_pure_state _ _ _

/-- Only a unit of work that commits has changed anything. -/
theorem unit_world {α : Type} {m : UnitOfWork α} {I : World → Prop} {s : System}
    (h : ∀ a w', m s.world = .ok (a, w') → I w') (hs : I s.world) : I (Operation.unit m s).2.world := by
  rw [unit_state]
  rcases Program.work_state m s.world with ⟨a, ha⟩ | hsame
  · exact h a _ ha
  · rw [hsame]
    exact hs

theorem keeps_unit {α : Type} {m : UnitOfWork α} {sites : List Site} (h : Within sites m) {I : World → Prop}
    (hI : ∀ site ∈ sites, KeptBy site I) {s : System} (hs : I s.world) :
    I (Operation.unit m s).2.world :=
  unit_world (fun a w' hm => within_iff.mp h I hI s.world a w' hs hm) hs

theorem unitWithTokens_world {α : Type} {m : SystemWork α} {I : World → Prop}
    (h : Work.Keeps (fun s : System => I s.world) m) {s : System} (hs : I s.world) :
    I (Operation.unitWithTokens m s).2.world := by
  unfold Operation.unitWithTokens
  rw [map_eq_pure_bind, Program.bind_pure_state]
  exact (Program.keeps_work h s hs).1

theorem keeps_unitWithTokens {α : Type} {m : SystemWork α} {sites : List Site} (h : WithinTokens sites m)
    {I : World → Prop} (hI : ∀ site ∈ sites, KeptBy site I) {s : System} (hs : I s.world) :
    I (Operation.unitWithTokens m s).2.world :=
  unitWithTokens_world (h I hI) hs

/-- What the writes of its footprint keep, a call keeps. -/
theorem perform_keeps {I : World → Prop} {s : System} {i : Input}
    (hI : ∀ site ∈ i.operation.footprint, KeptBy site I) (hs : I s.world) : I (perform s i).world := by
  obtain ⟨env, operation⟩ := i
  cases operation with
  | createOrganization name => exact keeps_unit (within_createOrganization name) hI hs
  | register organizationName userName email rawPassword ipAddress userAgent =>
    exact keeps_unitWithTokens (withinTokens_register env organizationName userName email rawPassword
      ipAddress userAgent) hI hs
  | loginOrRegisterGoogle identity termsVersion ipAddress userAgent =>
    exact keeps_unit (within_loginOrRegisterGoogle env identity termsVersion ipAddress userAgent) hI hs
  | createEmailVerificationToken userId =>
    exact keeps_unitWithTokens (withinTokens_issueToken env userId .emailVerification) hI hs
  | resendVerification email =>
    exact keeps_unitWithTokens (withinTokens_resendVerification env email) hI hs
  | verifyEmail token =>
    exact keeps_unitWithTokens (withinTokens_verifyEmail env token) hI hs
  | createPasswordResetToken email =>
    exact keeps_unitWithTokens (withinTokens_createPasswordResetToken env email) hI hs
  | resetPassword token newPassword =>
    exact keeps_unitWithTokens (withinTokens_resetPassword env token newPassword) hI hs
  | createUser organizationId name email rawPassword roleId =>
    exact keeps_unit (within_createUser env organizationId name email rawPassword roleId) hI hs
  | setUserActive userId active => exact keeps_unit (within_setUserActive userId active) hI hs
  | setUserRole userId roleId => exact keeps_unit (within_setUserRole userId roleId) hI hs
  | setLocale userId locale => exact keeps_unit (within_setLocale userId locale) hI hs
  | updateProfile userId name roleId => exact keeps_unit (within_updateProfile userId name roleId) hI hs
  | renameUser userId newName =>
    exact keeps_unit (within_changeUser fun _ _ h => user_rename_holder h) hI hs
  | changePassword userId currentPassword newPassword =>
    exact keeps_unit (within_changePassword env userId currentPassword newPassword) hI hs
  | forceVerify userId => exact keeps_unit (within_forceVerify env userId) hI hs
  | createSession userId => exact keeps_unit (within_createSession env userId) hI hs
  | recordAcceptance userId organizationId ipAddress userAgent =>
    exact keeps_unit (within_recordAcceptance env userId organizationId ipAddress userAgent) hI hs
  | createRole organizationId name description agentId =>
    exact keeps_unit (within_createRole organizationId name description agentId) hI hs
  | updateRole roleId name description agentId =>
    exact keeps_unit (within_updateRole roleId name description agentId) hI hs
  | renameRole roleId newName => exact keeps_unit (within_renameRole roleId newName) hI hs
  | setRoleAgent roleId agentId => exact keeps_unit (within_setRoleAgent roleId agentId) hI hs
  | createAgent organizationId name description =>
    exact keeps_unit (within_createAgent organizationId name description (List.mem_singleton_self _)) hI hs
  | updateAgent agentId name description =>
    exact keeps_unit (within_updateAgent agentId name description) hI hs
  | renameAgent agentId newName => exact keeps_unit (within_renameAgent agentId newName) hI hs
  | setAgentActive agentId active => exact keeps_unit (within_setAgentActive agentId active) hI hs
  | createDefinition organizationId name description =>
    exact keeps_unit (within_createDefinition organizationId name description (List.mem_singleton_self _)) hI hs
  | updateDetails definitionId name description =>
    exact keeps_unit (within_updateDetails definitionId name description) hI hs
  | addStep definitionId step =>
    exact keeps_unit (within_changeDefinition definitionId (.addStep step) (List.mem_singleton_self _) fun _ => rfl) hI hs
  | addTransition definitionId transition =>
    exact keeps_unit (within_changeDefinition definitionId (.addTransition transition) (List.mem_singleton_self _)
      fun _ => rfl) hI hs
  | activate definitionId =>
    exact keeps_unit (within_changeDefinition definitionId .activate (List.mem_singleton_self _) fun _ => rfl) hI hs
  | duplicateDefinition definitionId => exact keeps_unit (within_duplicateDefinition definitionId) hI hs
  | createWorkflowFromPreset organizationId preset =>
    have hkeeps : Program.Keeps I ((fun _ => ()) <$> createWorkflowFromPreset organizationId preset) := by
      rw [map_eq_pure_bind]
      exact Program.keeps_bind (programWithin_createWorkflowFromPreset organizationId preset I hI)
        fun _ => Program.keeps_pure _
    exact (hkeeps s.world hs).1
  | createContract organizationId title contractType workflowDefinitionId actor description =>
    exact keeps_unit (within_createContract env organizationId title contractType workflowDefinitionId
      actor description) hI hs
  | setContractSummary contractId summary =>
    exact keeps_unit (within_changeContract contractId (fun c => c.setSummary summary env.now)
      fun _ => ⟨rfl, rfl⟩) hI hs
  | setAIConfig contractId enabled model instructions allowedTools =>
    exact keeps_unit (within_setAIConfig env contractId enabled model instructions allowedTools) hI hs
  | addDocument contractId name => exact keeps_unit (within_addDocument env contractId name) hI hs
  | transitionContract contractId actionName actor comment =>
    exact keeps_unit (within_transitionContract env contractId actionName actor comment) hI hs
  | setDocumentSummary documentId summary =>
    exact keeps_unit (within_setDocumentSummary env documentId summary) hI hs
  | uploadVersion documentId u commits =>
    have hkeeps : Program.Keeps I ((fun _ => ()) <$> Operation.upload env documentId u commits) := by
      rw [map_eq_pure_bind]
      exact Program.keeps_bind (programWithin_upload env documentId u commits I hI) fun _ => Program.keeps_pure _
    exact (hkeeps s.world hs).1
  | importVersion documentId connectionId externalFileId uploadedBy notes commits =>
    have hkeeps : Program.Keeps I (do
        let u ← Operation.imported env connectionId externalFileId uploadedBy notes
        let _ ← Operation.upload env documentId u commits
        return () : Action Unit) := by
      apply Program.keeps_after_read
      intro u
      exact Program.keeps_bind (programWithin_upload env documentId u commits I hI) fun _ => Program.keeps_pure _
    exact (hkeeps s.world hs).1
  | createLink contractId scope allowDownload expiresInHours createdBy documentIds rawPassword =>
    exact keeps_unit (within_createLink env contractId scope allowDownload expiresInHours createdBy
      documentIds rawPassword) hI hs
  | revokeLink contractId linkId => exact keeps_unit (within_revokeLink env contractId linkId) hI hs
  | connectBucket organizationId provider displayName config credentials =>
    exact keeps_unit (within_connectBucket env organizationId provider displayName config credentials) hI hs
  | setPrimary connectionId => exact keeps_unit (within_setPrimary connectionId) hI hs
  | disconnect connectionId => exact keeps_unit (within_disconnect connectionId) hI hs
  | completeOauthConnection organizationId provider tokens =>
    exact keeps_unit (within_completeOauthConnection env organizationId provider tokens) hI hs

end Orchestract
