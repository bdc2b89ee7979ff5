import Orchestract.Operations.People

/-!
# Every call is made of commits

The other services, one lemma for each method, and from all of them the theorem that a call of
any operation gets the world where it leaves it by steps of `Committed`.
-/

namespace Orchestract

set_option autoImplicit false

variable {i : Input}

/-! ## Workflows -/

namespace WorkflowDefinition

theorem perform_of_ok {d d' : WorkflowDefinition} {call : Call} (h : call.result d = .ok d') :
    perform d call = d' := by
  unfold perform
  rw [h]

/-- A fold of one method is a run of its calls. -/
theorem run_of_foldlM {β : Type} (call : β → Call) {bs : List β} {d d' : WorkflowDefinition}
    (h : bs.foldlM (fun d b => (call b).result d) d = .ok d') :
    Runs.run perform d (bs.map call) = d' := by
  refine foldlM_ok (I := fun done e => Runs.run perform d (done.map call) = e) ?_ rfl h
  rintro done b e e' rfl hb
  rw [List.map_append, Runs.run_append]
  exact perform_of_ok hb

theorem Built.run {d : WorkflowDefinition} (h : d.Built) (calls : List Call) :
    (Runs.run perform d calls).Built := by
  obtain ⟨organizationId, name, description, new, before, hnew, rfl⟩ := h
  exact ⟨organizationId, name, description, new, before ++ calls, hnew, Runs.run_append _ _ _ _⟩

theorem built_create {organizationId : Nat} {name : String} {description : Option String}
    {d : WorkflowDefinition} (h : create organizationId name description = .ok d) : d.Built :=
  ⟨organizationId, name, description, d, [], h, rfl⟩

theorem perform_identity (d : WorkflowDefinition) (call : Call) :
    (perform d call).id = d.id ∧ (perform d call).organizationId = d.organizationId := by
  rcases perform_cases d call with heq | hc
  · rw [heq]
    exact ⟨rfl, rfl⟩
  · generalize perform d call = d' at hc
    cases call with
    | addStep step =>
      obtain ⟨_, _, _, rfl⟩ := addStep_ok_iff.mp hc
      exact ⟨rfl, rfl⟩
    | addTransition t =>
      obtain ⟨_, _, _, _, rfl⟩ := addTransition_ok_iff.mp hc
      exact ⟨rfl, rfl⟩
    | rename newName =>
      obtain ⟨_, rfl⟩ := rename_ok_iff.mp hc
      exact ⟨rfl, rfl⟩
    | setDescription description =>
      obtain rfl := Except.ok.inj hc
      exact ⟨rfl, rfl⟩
    | activate =>
      obtain ⟨_, _, rfl⟩ := activate_ok_iff.mp hc
      exact ⟨rfl, rfl⟩
    | retire =>
      obtain ⟨_, rfl⟩ := retire_ok_iff.mp hc
      exact ⟨rfl, rfl⟩

/-- No method changes whose row it is. -/
theorem run_identity (d : WorkflowDefinition) (calls : List Call) :
    (Runs.run perform d calls).id = d.id ∧
      (Runs.run perform d calls).organizationId = d.organizationId := by
  refine Runs.run_relates
    (R := fun d d' : WorkflowDefinition => d'.id = d.id ∧ d'.organizationId = d.organizationId)
    (fun _ => ⟨rfl, rfl⟩) ?_ perform_identity d calls
  rintro a b c ⟨hid, horg⟩ ⟨hid', horg'⟩
  exact ⟨hid'.trans hid, horg'.trans horg⟩

end WorkflowDefinition

theorem commits_createDefinition (organizationId : Nat) (name : String) (description : Option String) :
    Commits i (WorkflowService.createDefinition organizationId name description) := by
  intro w new w' h
  simp only [WorkflowService.createDefinition, OrganizationService.get, Work.bind_ok_iff,
    Work.lift_ok_iff, require_ok_iff, lift_work_ok_iff] at h
  obtain ⟨o, _, ⟨ho, rfl⟩, _, _, ⟨hroom, rfl⟩, d, _, ⟨hd, rfl⟩, hadd⟩ := h
  obtain ⟨_, t, ht, rfl⟩ := (add_ok_iff d new w w').mp hadd
  have horg : d.organizationId = organizationId := by
    obtain ⟨_, rfl⟩ := WorkflowDefinition.create_ok_iff.mp hd
    rfl
  refine .single (.newDefinition (o := o) (horg ▸ ho) ?_ (WorkflowDefinition.built_create hd) ht)
  apply hasRoom_of_requireRoom hroom
  intro rows hrows
  simp only [WorkflowService.listForOrganization, Read.bind_ok_iff, select_apply, Except.ok.injEq,
    Read.pure_apply] at hrows
  obtain ⟨_, rfl, rfl⟩ := hrows
  rw [length_orderByText, horg]
  rfl

theorem commits_updateDetails (definitionId : Nat) (name : String) (description : Option String) :
    Commits i (WorkflowService.updateDetails definitionId name description) := by
  intro w a w' h
  simp only [WorkflowService.updateDetails, WorkflowService.get, Work.bind_ok_iff, Work.lift_ok_iff,
    require_ok_iff, lift_work_ok_iff, Work.pure_ok_iff] at h
  obtain ⟨d, _, ⟨hd, rfl⟩, _, _, ⟨_, rfl⟩, _, _, ⟨_, rfl⟩, renamed, _, ⟨hrename, rfl⟩, ⟨⟩, _, hsave,
    _, rfl⟩ := h
  obtain ⟨_, t, ht, rfl⟩ := (save_ok_iff _ w _).mp hsave
  have hrun : Runs.run WorkflowDefinition.perform d [.rename name, .setDescription description] =
      renamed.setDescription description := by
    have hperform : WorkflowDefinition.perform d (.rename name) = renamed :=
      WorkflowDefinition.perform_of_ok hrename
    rw [Runs.run_cons, hperform]
    rfl
  exact .single (.definition (Table.get_eq_some_iff.mp hd).1 _ (hrun ▸ ht))

/-- A change by one method of the aggregate. -/
theorem commits_changeDefinition (definitionId : Nat) (call : WorkflowDefinition.Call)
    {method : WorkflowDefinition → Except DomainError WorkflowDefinition}
    (h : ∀ d, method d = call.result d) :
    Commits i (change "workflow definition" definitionId method) := by
  apply commits_change
  intro w d d' t hd hm _ ht
  have hrun : Runs.run WorkflowDefinition.perform d [call] = d' :=
    WorkflowDefinition.perform_of_ok ((h d).symm.trans hm)
  exact .definition hd [call] (hrun ▸ ht)

theorem replay_ok {source copy d : WorkflowDefinition} (h : WorkflowService.replay source copy = .ok d) :
    ∃ calls, Runs.run WorkflowDefinition.perform copy calls = d := by
  simp only [WorkflowService.replay, bind_ok_iff] at h
  obtain ⟨withSteps, hsteps, htransitions⟩ := h
  have hs := WorkflowDefinition.run_of_foldlM .addStep hsteps
  have ht := WorkflowDefinition.run_of_foldlM .addTransition htransitions
  exact ⟨_ ++ _, by rw [Runs.run_append, hs, ht]⟩

/-- A duplicated definition is one new row of the source's organization. -/
theorem duplicateDefinition_ok {definitionId : Nat} {w w' : World} {new : WorkflowDefinition}
    (h : WorkflowService.duplicateDefinition definitionId w = .ok (new, w')) :
    ∃ source d t, w.db.definitions.get definitionId = some source ∧
      d.organizationId = source.organizationId ∧ d.Built ∧
      w.db.definitions.insert d = some (new, t) ∧ w' = { w with db := { w.db with definitions := t } } := by
  simp only [WorkflowService.duplicateDefinition, WorkflowService.get, Work.bind_ok_iff,
    Work.lift_ok_iff, require_ok_iff, lift_work_ok_iff] at h
  obtain ⟨source, _, ⟨hsource, rfl⟩, _, _, ⟨_, rfl⟩, copy, _, ⟨hcopy, rfl⟩, d, _, ⟨hd, rfl⟩, hadd⟩ := h
  obtain ⟨_, t, ht, rfl⟩ := (add_ok_iff d new w w').mp hadd
  obtain ⟨calls, rfl⟩ := replay_ok hd
  have horg : copy.organizationId = source.organizationId := by
    obtain ⟨_, rfl⟩ := WorkflowDefinition.create_ok_iff.mp hcopy
    rfl
  exact ⟨source, _, t, hsource, (WorkflowDefinition.run_identity copy calls).2.trans horg,
    (WorkflowDefinition.built_create hcopy).run calls, ht, rfl⟩

theorem commits_duplicateDefinition {definitionId : Nat}
    (call : i.operation = .duplicateDefinition definitionId) :
    Commits i (WorkflowService.duplicateDefinition definitionId) := by
  intro w new w' h
  obtain ⟨source, d, t, hsource, horg, hbuilt, ht, rfl⟩ := duplicateDefinition_ok h
  obtain ⟨hs, rfl⟩ := Table.get_eq_some_iff.mp hsource
  exact .single (.copy call hs horg hbuilt ht)

/-! ## Contracts and documents -/

theorem contract_create_ok_iff {organizationId : Nat} {title contractType : String}
    {description : Option String} {now : Nat} {c : Contract} :
    Contract.create organizationId title contractType description now = .ok c ↔
      Text.strip title ≠ "" ∧ ⟨0, organizationId, Text.strip title, description, contractType, none,
        none, .empty, now, now⟩ = c := by
  simp [Contract.create]

theorem addDocument_fields {c c' : Contract} {name : String} {now : Nat} {d : Document}
    (h : c.addDocument name now = .ok (c', d)) :
    c' = { c with updatedAt := now } ∧ d.versions = [] ∧ d.currentVersionNo = 0 := by
  simp only [Contract.addDocument, Document.create, bind_ok_iff, return_ok_iff, Prod.mk.injEq] at h
  obtain ⟨_, ⟨_, _, rfl⟩, rfl, rfl⟩ := h
  exact ⟨rfl, rfl, rfl⟩

theorem commits_createContract (organizationId : Nat) (title contractType : String)
    (workflowDefinitionId : Nat) (actor : String) (description : Option String) :
    Commits i (ContractService.createContract i.env organizationId title contractType
      workflowDefinitionId actor description) := by
  intro w a w' h
  simp only [ContractService.createContract, OrganizationService.get, WorkflowService.get,
    Work.bind_ok_iff, Work.lift_ok_iff, require_ok_iff, lift_work_ok_iff, Work.pure_ok_iff] at h
  obtain ⟨o, _, ⟨ho, rfl⟩, _, _, ⟨hroom, rfl⟩, definition, _, ⟨hdef, rfl⟩, k, _, ⟨hk, rfl⟩,
    ⟨k', d⟩, _, ⟨hd, rfl⟩, contract, w₁, hks, document, w₂, hds, started, _, ⟨hstart, rfl⟩,
    new, w₃, his, _, rfl⟩ := h
  obtain ⟨_, rfl⟩ := contract_create_ok_iff.mp hk
  obtain ⟨rfl, hversions, hcurrent⟩ := addDocument_fields hd
  obtain ⟨_, ks, hks', rfl⟩ := (add_ok_iff _ contract w w₁).mp hks
  obtain ⟨_, ds, hds', rfl⟩ := (add_ok_iff _ document _ w₂).mp hds
  obtain ⟨_, is, his', rfl⟩ := (add_ok_iff _ new _ w₃).mp his
  refine .single (.newContract (o := o) ho ?_ (Table.get_eq_some_iff.mp hdef).1 hks' hds' hversions
    hcurrent hstart his')
  apply hasRoom_of_requireRoom hroom
  intro rows hrows
  simp only [ContractService.listForOrganization, Read.bind_ok_iff, select_apply, Except.ok.injEq,
    Read.pure_apply] at hrows
  obtain ⟨_, rfl, rfl⟩ := hrows
  exact List.length_insertionSort _ _

theorem commits_changeContract (contractId : Nat) (method : Contract → Contract)
    (h : ∀ c, (method c).id = c.id ∧ (method c).organizationId = c.organizationId) :
    Commits i (change "contract" contractId fun c => .ok (method c)) := by
  apply commits_change
  intro w c c' t hc hm _ ht
  obtain rfl := Except.ok.inj hm
  exact .contract hc (h c).1 (h c).2 ht

theorem commits_setContractSummary (env : Env) (contractId : Nat) (summary : String) :
    Commits i (ContractService.setSummary env contractId summary) :=
  commits_changeContract contractId (fun c => c.setSummary summary env.now) fun _ => ⟨rfl, rfl⟩

theorem commits_setAIConfig (env : Env) (contractId : Nat) (enabled : Option Bool)
    (model instructions : Option String) (allowedTools : Option (List String)) :
    Commits i (ContractService.setAIConfig env contractId enabled model instructions allowedTools) := by
  intro w a w' h
  simp only [ContractService.setAIConfig, Work.bind_ok_iff, lift_work_ok_iff] at h
  obtain ⟨_, _, ⟨_, rfl⟩, h⟩ := h
  exact commits_changeContract contractId (fun c => c.setAIConfig _ env.now) (fun _ => ⟨rfl, rfl⟩) w a w' h

theorem commits_addDocument (env : Env) (contractId : Nat) (name : String) :
    Commits i (ContractService.addDocument env contractId name) := by
  intro w new w' h
  simp only [ContractService.addDocument, ContractService.get, Work.bind_ok_iff, Work.lift_ok_iff,
    require_ok_iff, lift_work_ok_iff] at h
  obtain ⟨c, _, ⟨hc, rfl⟩, ⟨c', d⟩, _, ⟨hd, rfl⟩, ⟨⟩, w₁, hsave, hadd⟩ := h
  obtain ⟨rfl, hversions, hcurrent⟩ := addDocument_fields hd
  obtain ⟨_, ks, hks, rfl⟩ := (save_ok_iff _ w w₁).mp hsave
  obtain ⟨_, ds, hds, rfl⟩ := (add_ok_iff d new _ w').mp hadd
  have hcontract : Committed i w { w with db := { w.db with contracts := ks } } :=
    .contract (Table.get_eq_some_iff.mp hc).1 (by rfl) (by rfl) hks
  exact .tail (.single hcontract) (.newDocument hversions hcurrent hds)

theorem commits_transitionContract (env : Env) (contractId : Nat) (actionName actor : String)
    (comment : Option String) :
    Commits i (ContractService.transitionContract env contractId actionName actor comment) := by
  intro w a w' h
  obtain ⟨r, d, hr, hd, hmove, hsave⟩ :=
    (ContractService.transitionContract_ok_iff env contractId actionName actor comment w w' a).mp h
  obtain ⟨_, t, ht, rfl⟩ := (save_ok_iff a w w').mp hsave
  exact .single (.instance ⟨actionName, actor, comment, env.now⟩ (ContractService.getInstance_ok hr).1
    hd hmove ht)

theorem commits_setDocumentSummary (env : Env) (documentId : Nat) (summary : String) :
    Commits i (DocumentService.setSummary env documentId summary) := by
  apply commits_change
  intro w d d' t hd hm _ ht
  obtain rfl := Except.ok.inj hm
  exact .document hd (by rfl) (by rfl) (by rfl) ht

theorem commits_createLink (env : Env) (contractId : Nat) (scope : ShareScope) (allowDownload : Bool)
    (expiresInHours : Nat) (createdBy : String) (documentIds : List Nat) (rawPassword : Option String) :
    Commits i (SharingService.createLink env contractId scope allowDownload expiresInHours createdBy
      documentIds rawPassword) := by
  intro w new w' h
  simp only [SharingService.createLink, Work.bind_ok_iff, Work.lift_ok_iff, lift_work_ok_iff] at h
  obtain ⟨_, _, ⟨_, rfl⟩, _, _, ⟨_, rfl⟩, link, _, ⟨_, rfl⟩, hadd⟩ := h
  obtain ⟨_, t, _, rfl⟩ := (add_ok_iff link new w w').mp hadd
  exact .single (.shareLinks t)

theorem commits_revokeLink (env : Env) (contractId linkId : Nat) :
    Commits i (SharingService.revoke env contractId linkId) := by
  intro w a w' h
  simp only [SharingService.revoke, Work.bind_ok_iff, Work.lift_ok_iff, lift_work_ok_iff] at h
  obtain ⟨_, _, ⟨_, rfl⟩, link, _, ⟨_, rfl⟩, hsave⟩ := h
  obtain ⟨_, t, _, rfl⟩ := (save_ok_iff _ w w').mp hsave
  exact .single (.shareLinks t)

/-! ## Storage connections -/

theorem markPrimary_ok_iff {c c' : StorageConnection} :
    c.markPrimary = .ok c' ↔ c.isWriteCapable = true ∧ { c with isPrimary := true } = c' := by
  simp [StorageConnection.markPrimary]

theorem mem_overwrite_of_ne {α : Type} [Row α] {a r : α} {rows : List α} (hr : r ∈ rows)
    (hid : Row.id r ≠ Row.id a) : r ∈ Table.overwrite a rows :=
  List.mem_map.mpr ⟨r, hr, if_neg hid⟩

/-- The promoted connection, and the one that has lost the flag. -/
theorem promote_cases {c c' : StorageConnection} {w w' : World}
    (h : StorageService.promote c w = .ok (c', w')) :
    c.isWriteCapable = true ∧ c' = { c with isPrimary := true } ∧
      ∃ found, StorageService.getPrimaryForOrganization c.organizationId w = .ok found ∧
        ((w' = w ∧ ∀ p, found = some p → p.id = c.id) ∨
          ∃ p, found = some p ∧ p.id ≠ c.id ∧ save p.unmarkPrimary w = .ok ((), w')) := by
  simp only [StorageService.promote, Work.bind_ok_iff, Work.lift_ok_iff] at h
  obtain ⟨found, _, ⟨hfound, rfl⟩, h⟩ := h
  cases found with
  | none =>
    obtain ⟨hmark, rfl⟩ := (lift_work_ok_iff _ _ _ _).mp h
    obtain ⟨hwrite, rfl⟩ := markPrimary_ok_iff.mp hmark
    exact ⟨hwrite, rfl, none, hfound, Or.inl ⟨rfl, fun p hp => by cases hp⟩⟩
  | some p =>
    by_cases hid : p.id ≠ c.id
    · simp only [if_pos hid, Work.bind_ok_iff, lift_work_ok_iff] at h
      obtain ⟨_, _, hsave, hmark, rfl⟩ := h
      obtain ⟨hwrite, rfl⟩ := markPrimary_ok_iff.mp hmark
      exact ⟨hwrite, rfl, some p, hfound, Or.inr ⟨p, rfl, hid, hsave⟩⟩
    · simp only [if_neg hid] at h
      obtain ⟨hmark, rfl⟩ := (lift_work_ok_iff _ _ _ _).mp h
      obtain ⟨hwrite, rfl⟩ := markPrimary_ok_iff.mp hmark
      refine ⟨hwrite, rfl, some p, hfound, Or.inl ⟨rfl, fun q hq => ?_⟩⟩
      obtain rfl := Option.some.inj hq
      exact not_not.mp hid

/-- The promoted connection is still there as it was. -/
theorem promote_kept {c c' : StorageConnection} {w w' : World}
    (h : StorageService.promote c w = .ok (c', w')) {a : StorageConnection} (ha : a.id = c.id)
    (hmem : a ∈ w.db.connections.rows) : a ∈ w'.db.connections.rows := by
  obtain ⟨_, _, _, _, ⟨rfl, _⟩ | ⟨p, _, hid, hsave⟩⟩ := promote_cases h
  · exact hmem
  · obtain ⟨_, t, ht, rfl⟩ := (save_ok_iff _ w w').mp hsave
    obtain ⟨hrows, _⟩ := Table.update_eq_some ht
    have hne : Row.id a ≠ Row.id p.unmarkPrimary := fun heq => hid (heq.symm.trans ha)
    have hkept : a ∈ t.rows := hrows ▸ mem_overwrite_of_ne hmem hne
    exact hkept

/-- Taking the flag from the connection that has it, to give it to another. -/
theorem promote_ok {c c' : StorageConnection} {w w' : World}
    (h : StorageService.promote c w = .ok (c', w')) :
    Relation.ReflTransGen (Committed i) w w' ∧ c.isWriteCapable = true ∧
      c' = { c with isPrimary := true } ∧
      ∀ a ∈ w.db.connections.rows, a.id = c.id → a ∈ w'.db.connections.rows := by
  obtain ⟨hwrite, hc, found, hfound, hrest⟩ := promote_cases h
  refine ⟨?_, hwrite, hc, fun a ha hac => promote_kept h hac ha⟩
  rcases hrest with ⟨rfl, _⟩ | ⟨current, rfl, _, hsave⟩
  · exact .refl
  · obtain ⟨_, t, ht, rfl⟩ := (save_ok_iff _ w _).mp hsave
    have hedit : ConnectionEdit current current.unmarkPrimary :=
      ⟨rfl, rfl, rfl, rfl, Or.inl rfl, fun h => by cases h⟩
    exact .single (.connection (oneOrNone_eq_some hfound).1 hedit ht)

theorem commits_connectBucket (env : Env) (organizationId : Nat) (provider : StorageProvider)
    (displayName : String) (config : StorageConfig) (credentials : StorageSecrets) :
    Commits i (StorageService.connectBucket env organizationId provider displayName config
      credentials) := by
  intro w new w' h
  simp only [StorageService.connectBucket, Work.bind_ok_iff, Work.lift_ok_iff, lift_work_ok_iff] at h
  obtain ⟨_, _, ⟨_, rfl⟩, _, _, ⟨_, rfl⟩, c, w₁, hpromote, hadd⟩ := h
  obtain ⟨hsteps, hwrite, hc, _⟩ := promote_ok hpromote
  obtain ⟨_, t, ht, rfl⟩ := (add_ok_iff c new w₁ w').mp hadd
  have hcapable : c.isPrimary = true → c.isWriteCapable = true := fun _ => hc ▸ hwrite
  exact hsteps.tail (.newConnection hcapable ht)

theorem commits_setPrimary (connectionId : Nat) : Commits i (StorageService.setPrimary connectionId) := by
  intro w a w' h
  simp only [StorageService.setPrimary, StorageService.get, Work.bind_ok_iff, Work.lift_ok_iff,
    require_ok_iff, Work.pure_ok_iff] at h
  obtain ⟨c, _, ⟨hc, rfl⟩, c', w₁, hpromote, _, _, hsave, _, rfl⟩ := h
  obtain ⟨hsteps, hwrite, rfl, hkept⟩ := promote_ok hpromote
  obtain ⟨_, t, ht, rfl⟩ := (save_ok_iff _ w₁ _).mp hsave
  have hmem : c ∈ w₁.db.connections.rows := hkept c (Table.get_eq_some_iff.mp hc).1 rfl
  exact hsteps.tail (.connection hmem
    (by exact ⟨rfl, rfl, rfl, rfl, Or.inl rfl, fun _ => Or.inr hwrite⟩) ht)

theorem commits_disconnect (connectionId : Nat) : Commits i (StorageService.disconnect connectionId) := by
  apply commits_change
  intro w c c' t hc hm _ ht
  obtain rfl := Except.ok.inj hm
  exact .connection hc (by exact ⟨rfl, rfl, rfl, rfl, Or.inl rfl, fun h => by cases h⟩) ht

/-- The credential of a drive is replaced; a drive is never written to. -/
theorem connectionEdit_authorized {c : StorageConnection} (tokens : StorageSecrets)
    (hread : c.isWriteCapable = false) : ConnectionEdit c (c.setCredential tokens).markConnected :=
  ⟨rfl, rfl, rfl, rfl, Or.inr hread, fun h => Or.inl h⟩

theorem commits_completeOauthConnection (env : Env) (organizationId : Nat) (provider : StorageProvider)
    (tokens : Option OAuthTokens) :
    Commits i (StorageService.completeOauthConnection env organizationId provider tokens) := by
  intro w a w' h
  simp only [StorageService.completeOauthConnection, Work.bind_ok_iff, Work.lift_ok_iff] at h
  obtain ⟨_, _, ⟨hdrive, rfl⟩, tokens', _, ⟨_, rfl⟩, existing, _, ⟨hexisting, rfl⟩, h⟩ := h
  have hread : provider.isReadOnly = true := by
    by_contra hn
    rw [if_neg hn] at hdrive
    cases hdrive
  cases existing with
  | some c' =>
    simp only [Work.bind_ok_iff, Work.pure_ok_iff] at h
    obtain ⟨_, _, ⟨rfl, rfl⟩, _, _, hsave, _, rfl⟩ := h
    obtain ⟨_, t, ht, rfl⟩ := (save_ok_iff _ _ _).mp hsave
    obtain ⟨hmem, hp⟩ := oneOrNone_eq_some hexisting
    have hprovider : c'.provider = provider := by
      simp only [Bool.and_eq_true, decide_eq_true_eq] at hp
      exact hp.2
    have hcapable : c'.isWriteCapable = false := by
      simp [StorageConnection.isWriteCapable, hprovider, hread]
    exact .single (.connection hmem (connectionEdit_authorized _ hcapable) ht)
  | none =>
    simp only [Work.bind_ok_iff, Work.pure_ok_iff] at h
    obtain ⟨c, w₁, hc, _, _, hsave, _, rfl⟩ := h
    obtain ⟨_, t, ht, rfl⟩ := (save_ok_iff _ w₁ _).mp hsave
    obtain ⟨_, cs, hcs, rfl⟩ := (add_ok_iff _ c _ w₁).mp hc
    obtain ⟨hnew, hrows, _⟩ := Table.insert_eq_some hcs
    have hmem : c ∈ cs.rows := hrows ▸ List.mem_append_right _ (List.mem_singleton_self c)
    have hcapable : c.isWriteCapable = false := by
      rw [hnew]
      simp [Row.withId, StorageConnection.create, StorageConnection.isWriteCapable, hread]
    have hinsert : Committed i w { w with db := { w.db with connections := cs } } :=
      .newConnection (fun h => by cases h) hcs
    exact .tail (.single hinsert) (.connection hmem (connectionEdit_authorized _ hcapable) ht)

/-! ## Presets and uploads -/

theorem reaches_commits {α : Type} {m : UnitOfWork α} (h : Commits i m) :
    Program.Reaches (Committed i) (liftM m : Action α) :=
  Program.reaches_work h

theorem reaches_ensureAgent (organizationId : Nat) (agents : PresetAgents) (agent : String × String) :
    Program.Reaches (Committed i) (ensureAgent organizationId agents agent) := by
  unfold ensureAgent
  cases agents.known.lookup agent.1 with
  | some id => exact Program.reaches_pure _
  | none =>
    apply Program.reaches_bind (reaches_commits (commits_createAgent organizationId agent.1 _))
    exact fun _ => Program.reaches_pure _

theorem reaches_addPresetStep (definitionId : Nat) (agents : PresetAgents) (step : PresetStep) :
    Program.Reaches (Committed i) (addPresetStep definitionId agents step) := by
  unfold addPresetStep
  cases agents.ids.lookup step.agent with
  | some agentId =>
    apply Program.reaches_bind (reaches_commits (commits_changeDefinition definitionId
      (.addStep ⟨step.key, step.name, some step.description, agentId, step.isInitial, step.isTerminal⟩)
      fun _ => rfl))
    exact fun _ => Program.reaches_pure _
  | none => exact Program.reaches_throw _

theorem reaches_addPresetTransition (definitionId : Nat) (transition : WorkflowTransition) :
    Program.Reaches (Committed i) (addPresetTransition definitionId transition) := by
  apply Program.reaches_bind (reaches_commits (commits_changeDefinition definitionId
    (.addTransition transition) fun _ => rfl))
  exact fun _ => Program.reaches_pure _

theorem reaches_createWorkflowFromPreset (organizationId : Nat) (preset : WorkflowPreset) :
    Program.Reaches (Committed i) (createWorkflowFromPreset organizationId preset) := by
  apply Program.reaches_bind (Program.reaches_read _)
  intro existing
  apply Program.reaches_bind (Program.reaches_foldlM (reaches_ensureAgent organizationId) _ _)
  intro agents
  apply Program.reaches_bind (Program.reaches_read _)
  intro name
  apply Program.reaches_bind (reaches_commits (commits_createDefinition organizationId name _))
  intro definition
  apply Program.reaches_bind
    (Program.reaches_forM fun step _ => reaches_addPresetStep definition.id agents step)
  intro _
  apply Program.reaches_bind
    (Program.reaches_forM fun transition _ => reaches_addPresetTransition definition.id transition)
  exact fun _ => Program.reaches_pure _

/-- An upload that is rolled back changes the stored bytes alone. -/
theorem uploadRolledBack_db (env : Env) (documentId : Nat) (u : DocumentService.Upload) (w : World) :
    (DocumentService.uploadRolledBack env documentId u w).2.db = w.db := by
  unfold DocumentService.uploadRolledBack
  rcases Program.after_read (DocumentService.uploadTarget documentId) _ w with
    h | ⟨⟨document, contract, connection⟩, _, h⟩
  · rw [h]
  rw [h]
  rcases Program.after_read
    (buildFileStorage env connection (connection.credential.getD .empty)) _ w with h' | ⟨bucket, _, h'⟩
  · rw [h']
  rw [h', Program.bind_apply]
  cases (putObject env bucket (DocumentService.storageKey contract document u.filename) u.content w).1 with
  | ok u => exact putObject_db env bucket _ _ w
  | error e => exact putObject_db env bucket _ _ w

/-- An upload changes the table of documents, the next id of a version, and the stored bytes. -/
theorem upload_eq (env : Env) (documentId : Nat) (u : DocumentService.Upload) (commits : Bool)
    (w : World) : ∃ t n files, (Operation.upload env documentId u commits w).2 =
      ⟨{ w.db with documents := t, nextVersionId := n }, files⟩ := by
  have hunchanged : ∀ w' : World, w'.db = w.db → ∃ t n files,
      w' = ⟨{ w.db with documents := t, nextVersionId := n }, files⟩ := by
    rintro ⟨db, files⟩ rfl
    exact ⟨_, _, files, rfl⟩
  unfold Operation.upload
  cases commits with
  | false => exact hunchanged _ (uploadRolledBack_db env documentId u w)
  | true =>
    rcases DocumentService.uploadVersion_db env documentId u w with
      hdb | ⟨document, connectionId, key, w₁, version, _, hdb, hcommit⟩
    · exact hunchanged _ hdb
    · obtain ⟨w₂, n, hsave, hw⟩ := DocumentService.commitVersion_ok hcommit
      obtain ⟨_, t, _, rfl⟩ := (save_ok_iff _ w₁ w₂).mp hsave
      refine ⟨t, n, w₁.files, hw.trans ?_⟩
      simp only [Stored.withTable, hdb]

theorem reaches_upload {documentId : Nat} {u : DocumentService.Upload} {commits : Bool}
    (call : i.operation.isUpload = true) :
    Program.Reaches (Committed i) (Operation.upload i.env documentId u commits) := by
  intro w
  obtain ⟨t, n, files, heq⟩ := upload_eq i.env documentId u commits w
  rw [heq]
  exact .single (.upload call t n files)

/-! ## All operations -/

theorem unit_steps {α : Type} {m : UnitOfWork α} (h : Commits i m) (s : System) :
    Relation.ReflTransGen (Committed i) s.world (Operation.unit m s).2.world :=
  Program.reaches_map (fun _ => ()) (reaches_commits h) s.world

theorem unitWithTokens_steps {α : Type} {m : SystemWork α} (h : CommitsWithTokens i m) (s : System) :
    Relation.ReflTransGen (Committed i) s.world (Operation.unitWithTokens m s).2.world := by
  unfold Operation.unitWithTokens
  rw [map_eq_pure_bind, Program.bind_pure_state]
  rcases Program.work_state m s with ⟨a, ha⟩ | heq
  · exact h s a _ ha
  · rw [heq]

/-- Whatever is called, the world moves by steps of `Committed`. -/
theorem perform_steps (s : System) (i : Input) :
    Relation.ReflTransGen (Committed i) s.world (perform s i).world := by
  obtain ⟨env, operation⟩ := i
  cases operation with
  | createOrganization name => exact unit_steps (commits_createOrganization name) s
  | register organizationName userName email rawPassword ipAddress userAgent =>
    exact unitWithTokens_steps (commitsWithTokens_accountsRegister rfl) s
  | loginOrRegisterGoogle identity termsVersion ipAddress userAgent =>
    exact unit_steps (commits_loginOrRegisterGoogle env identity termsVersion ipAddress userAgent) s
  | createEmailVerificationToken userId =>
    exact unitWithTokens_steps (commitsWithTokens_issueToken env userId .emailVerification) s
  | resendVerification email =>
    exact unitWithTokens_steps (commitsWithTokens_resendVerification env email) s
  | verifyEmail token => exact unitWithTokens_steps (commitsWithTokens_verifyEmail env token) s
  | createPasswordResetToken email =>
    exact unitWithTokens_steps (commitsWithTokens_createPasswordResetToken env email) s
  | resetPassword token newPassword =>
    exact unitWithTokens_steps (commitsWithTokens_resetPassword rfl) s
  | createUser organizationId name email rawPassword roleId =>
    exact unit_steps (commits_createUser rfl) s
  | setUserActive userId active => exact unit_steps (commits_setUserActive userId active) s
  | setUserRole userId roleId => exact unit_steps (commits_setUserRole userId roleId) s
  | setLocale userId locale => exact unit_steps (commits_setLocale userId locale) s
  | updateProfile userId name roleId => exact unit_steps (commits_updateProfile userId name roleId) s
  | renameUser userId newName => exact unit_steps (commits_renameUser userId newName) s
  | changePassword userId currentPassword newPassword =>
    exact unit_steps (commits_changePassword rfl) s
  | forceVerify userId => exact unit_steps (commits_forceVerify env userId) s
  | createSession userId => exact unit_steps (commits_createSession env userId) s
  | recordAcceptance userId organizationId ipAddress userAgent =>
    exact unit_steps (commits_recordAcceptance env userId organizationId ipAddress userAgent) s
  | createRole organizationId name description agentId =>
    exact unit_steps (commits_createRole organizationId name description agentId) s
  | updateRole roleId name description agentId =>
    exact unit_steps (commits_updateRole roleId name description agentId) s
  | renameRole roleId newName => exact unit_steps (commits_changeRole roleId _) s
  | setRoleAgent roleId agentId => exact unit_steps (commits_changeRole roleId _) s
  | createAgent organizationId name description =>
    exact unit_steps (commits_createAgent organizationId name description) s
  | updateAgent agentId name description => exact unit_steps (commits_updateAgent agentId name description) s
  | renameAgent agentId newName => exact unit_steps (commits_renameAgent agentId newName) s
  | setAgentActive agentId active => exact unit_steps (commits_setAgentActive agentId active) s
  | createDefinition organizationId name description =>
    exact unit_steps (commits_createDefinition organizationId name description) s
  | updateDetails definitionId name description =>
    exact unit_steps (commits_updateDetails definitionId name description) s
  | addStep definitionId step =>
    exact unit_steps (commits_changeDefinition definitionId (.addStep step) fun _ => rfl) s
  | addTransition definitionId transition =>
    exact unit_steps (commits_changeDefinition definitionId (.addTransition transition) fun _ => rfl) s
  | activate definitionId => exact unit_steps (commits_changeDefinition definitionId .activate fun _ => rfl) s
  | duplicateDefinition definitionId => exact unit_steps (commits_duplicateDefinition rfl) s
  | createWorkflowFromPreset organizationId preset =>
    exact Program.reaches_map (fun _ => ()) (reaches_createWorkflowFromPreset organizationId preset) s.world
  | createContract organizationId title contractType workflowDefinitionId actor description =>
    exact unit_steps (i := ⟨env, _⟩)
      (commits_createContract organizationId title contractType workflowDefinitionId actor description) s
  | setContractSummary contractId summary =>
    exact unit_steps (commits_setContractSummary env contractId summary) s
  | setAIConfig contractId enabled model instructions allowedTools =>
    exact unit_steps (commits_setAIConfig env contractId enabled model instructions allowedTools) s
  | addDocument contractId name => exact unit_steps (commits_addDocument env contractId name) s
  | transitionContract contractId actionName actor comment =>
    exact unit_steps (commits_transitionContract env contractId actionName actor comment) s
  | setDocumentSummary documentId summary =>
    exact unit_steps (commits_setDocumentSummary env documentId summary) s
  | uploadVersion documentId u commits =>
    exact Program.reaches_map (fun _ => ()) (reaches_upload (i := ⟨env, _⟩) rfl) s.world
  | importVersion documentId connectionId externalFileId uploadedBy notes commits =>
    apply Program.reaches_bind (Program.reaches_read _)
    intro u
    apply Program.reaches_bind (reaches_upload (i := ⟨env, _⟩) rfl)
    exact fun _ => Program.reaches_pure _
  | createLink contractId scope allowDownload expiresInHours createdBy documentIds rawPassword =>
    exact unit_steps (commits_createLink env contractId scope allowDownload expiresInHours createdBy
      documentIds rawPassword) s
  | revokeLink contractId linkId => exact unit_steps (commits_revokeLink env contractId linkId) s
  | connectBucket organizationId provider displayName config credentials =>
    exact unit_steps (commits_connectBucket env organizationId provider displayName config credentials) s
  | setPrimary connectionId => exact unit_steps (commits_setPrimary connectionId) s
  | disconnect connectionId => exact unit_steps (commits_disconnect connectionId) s
  | completeOauthConnection organizationId provider tokens =>
    exact unit_steps (commits_completeOauthConnection env organizationId provider tokens) s

/-- What every commit of a call keeps, the call keeps. -/
theorem perform_invariant {I : World → Prop} {s : System} {i : Input}
    (keep : ∀ w w', I w → Committed i w w' → I w') (hs : I s.world) : I (perform s i).world := by
  have hsteps := perform_steps s i
  generalize (perform s i).world = w at hsteps
  induction hsteps with
  | refl => exact hs
  | tail _ hstep ih => exact keep _ _ ih hstep

/-- What every commit keeps, every run of calls keeps. -/
theorem run_perform_invariant {I : World → Prop} (keep : ∀ i w w', I w → Committed i w w' → I w')
    {s : System} (hs : I s.world) (inputs : List Input) : I (Runs.run perform s inputs).world :=
  Runs.run_invariant (I := fun s : System => I s.world)
    (fun _ i h => perform_invariant (keep i) h) hs inputs

end Orchestract
