import Orchestract.Isolation.WriteIsolation

/-!
# The permission of a step and what it guards

The routes and tools that act on a contract check the user against the step of the contract they
are given, and then call a service. `contractState` is what the check is to protect. The services
of transitions, documents and AI settings touch the contract that was checked; an upload touches
the contract of the document it names.
-/

namespace Orchestract

set_option autoImplicit false

structure ContractState where
  instances : List WorkflowInstance
  documents : List Document
  aiConfig : Option AIConfig
deriving DecidableEq

def contractState (contractId : Nat) (db : Database) : ContractState where
  instances := db.instances.select (fun i => i.contractId = contractId)
  documents := db.documents.select (fun d => d.contractId = contractId)
  aiConfig := (db.contracts.get contractId).map (fun c => c.aiConfig)

/-- The contracts that a step may have changed: the given one, and that of the given document. -/
def Touches (contractId : Nat) (documentId : Option Nat) (w w' : World) : Prop :=
  ∀ c, contractState c w'.db ≠ contractState c w.db →
    c = contractId ∨ ∃ id d, documentId = some id ∧ w.db.documents.get id = some d ∧ d.contractId = c

theorem touches_refl (contractId : Nat) (documentId : Option Nat) (w : World) :
    Touches contractId documentId w w := fun _ h => absurd rfl h

/-- A unit of work that fails has touched nothing. -/
theorem touches_work {α : Type} {m : UnitOfWork α} {contractId : Nat} {documentId : Option Nat}
    {w : World} (h : ∀ a w', m w = .ok (a, w') → Touches contractId documentId w w') :
    Touches contractId documentId w ((liftM m : Action α) w).2 := by
  rcases Program.work_state m w with ⟨a, ha⟩ | heq
  · exact h a _ ha
  · rw [heq]
    exact touches_refl _ _ w

/-! ## What the services touch -/

theorem touches_saveInstance {w w' : World} {i i' : WorkflowInstance} (hi : i ∈ w.db.instances.rows)
    (hid : i'.id = i.id) (hc : i'.contractId = i.contractId) (h : save i' w = .ok ((), w')) :
    Touches i.contractId none w w' := by
  obtain ⟨_, t, ht, rfl⟩ := (save_ok_iff i' w w').mp h
  intro c hne
  by_contra hci
  have hci' : i.contractId ≠ c := fun heq => hci (Or.inl heq.symm)
  apply hne
  have hs : t.select (fun r => r.contractId = c) = w.db.instances.select (fun r => r.contractId = c) := by
    refine select_owned_update WorkflowInstance.contractId ht (fun r hr hrid => ?_) (hc ▸ hci')
    rw [Table.eq_of_id hr hi (hrid.trans hid)]
    exact hci'
  unfold contractState
  simp only [Stored.withTable, hs]

theorem touches_saveDocument {w w' : World} {d d' : Document} {documentId : Nat}
    (hd : w.db.documents.get documentId = some d) (hid : d'.id = d.id)
    (hc : d'.contractId = d.contractId) (h : save d' w = .ok ((), w')) (contractId : Nat) :
    Touches contractId (some documentId) w w' := by
  obtain ⟨_, t, ht, rfl⟩ := (save_ok_iff d' w w').mp h
  intro c hne
  by_contra hcd
  have hcd' : d.contractId ≠ c := fun heq => hcd (Or.inr ⟨documentId, d, rfl, hd, heq⟩)
  apply hne
  have hs : t.select (fun r => r.contractId = c) = w.db.documents.select (fun r => r.contractId = c) := by
    refine select_owned_update Document.contractId ht (fun r hr hrid => ?_) (hc ▸ hcd')
    rw [Table.eq_of_id hr (Table.get_eq_some_iff.mp hd).1 (hrid.trans hid)]
    exact hcd'
  unfold contractState
  simp only [Stored.withTable, hs]

/-- Saving a contract leaves every other contract as it is, and its own documents. -/
theorem contractState_saveContract {w w' : World} {contract : Contract}
    (h : save contract w = .ok ((), w')) {c : Nat}
    (hc : c ≠ contract.id ∨ (w.db.contracts.get c).map (fun c => c.aiConfig) = some contract.aiConfig) :
    contractState c w'.db = contractState c w.db := by
  obtain ⟨_, t, ht, rfl⟩ := (save_ok_iff contract w w').mp h
  have hget : (t.get c).map (fun c => c.aiConfig) = (w.db.contracts.get c).map (fun c => c.aiConfig) := by
    rw [Table.get_update ht]
    by_cases hid : c = Row.id contract
    · rw [if_pos hid]
      have ha := hc.resolve_left (not_not.mpr hid)
      obtain ⟨r, hr, har⟩ := Option.map_eq_some_iff.mp ha
      have hr' : Table.get (Stored.table w.db) c = some r := hr
      simp [hr, hr', har]
    · rw [if_neg hid]
      rfl
  unfold contractState
  simp only [Stored.withTable, hget]

theorem touches_transitionContract {env : Env} {contractId : Nat} {actionName actor : String}
    {comment : Option String} {w w' : World} {i' : WorkflowInstance}
    (h : ContractService.transitionContract env contractId actionName actor comment w = .ok (i', w')) :
    Touches contractId none w w' := by
  obtain ⟨i, definition, hi, _, hmove, hsave⟩ :=
    (ContractService.transitionContract_ok_iff env contractId actionName actor comment w w' i').mp h
  obtain ⟨hmem, rfl⟩ := ContractService.getInstance_ok hi
  let call : WorkflowInstance.Call := ⟨actionName, actor, comment, env.now⟩
  have hresult : call.result definition i = .ok i' := hmove
  obtain ⟨_, _, _, _, _, rfl⟩ := WorkflowInstance.result_ok_iff.mp hresult
  refine touches_saveInstance hmem ?_ ?_ hsave
  · rfl
  · rfl

theorem touches_addDocument {env : Env} {contractId : Nat} {name : String} {w w' : World}
    {new : Document} (h : ContractService.addDocument env contractId name w = .ok (new, w')) :
    Touches contractId none w w' := by
  obtain ⟨contract, document, w₁, hget, hdocument, _, hsave, hadd⟩ := ContractService.addDocument_ok h
  have hw₁ : ∀ c, contractState c w₁.db = contractState c w.db := by
    intro c
    apply contractState_saveContract hsave
    by_cases hc : c = contract.id
    · have hid : contract.id = contractId := (Table.get_eq_some_iff.mp hget).2
      exact Or.inr (by rw [hc, hid, hget]; rfl)
    · exact Or.inl hc
  obtain ⟨_, t, ht, rfl⟩ := (add_ok_iff document new w₁ w').mp hadd
  obtain ⟨hnew, _, _⟩ := Table.insert_eq_some ht
  intro c hne
  by_contra hc
  have hc' : contractId ≠ c := fun heq => hc (Or.inl heq.symm)
  apply hne
  have hs : t.select (fun r => r.contractId = c) = w₁.db.documents.select (fun r => r.contractId = c) := by
    apply select_owned_insert Document.contractId ht
    rw [hnew]
    exact fun heq => hc' (hdocument.symm.trans heq)
  rw [← hw₁ c]
  unfold contractState
  simp only [Stored.withTable, hs]

theorem touches_setAIConfig {env : Env} {contractId : Nat} {enabled : Option Bool}
    {model instructions : Option String} {allowedTools : Option (List String)} {w w' : World}
    {contract : Contract}
    (h : ContractService.setAIConfig env contractId enabled model instructions allowedTools w =
      .ok (contract, w')) : Touches contractId none w w' := by
  simp only [ContractService.setAIConfig, Work.bind_ok_iff, lift_work_ok_iff] at h
  obtain ⟨_, _, ⟨_, rfl⟩, h⟩ := h
  obtain ⟨row, hrow, hmethod, hsave⟩ := (change_ok_iff _ _ _ contract w w').mp h
  obtain rfl := Except.ok.inj hmethod
  intro c hne
  by_contra hc
  apply hne
  apply contractState_saveContract hsave
  refine Or.inl fun heq => hc (Or.inl ?_)
  exact heq.trans (Table.get_eq_some_iff.mp hrow).2

theorem touches_uploadVersion (env : Env) (contractId documentId : Nat)
    (upload : DocumentService.Upload) (w : World) :
    Touches contractId (some documentId) w (DocumentService.uploadVersion env documentId upload w).2 := by
  rcases DocumentService.uploadVersion_db env documentId upload w with
    hdb | ⟨document, connectionId, key, w₁, version, hget, hdb, hcommit⟩
  · exact fun c hne => absurd (by rw [hdb]) hne
  · obtain ⟨w₂, n, hsave, heq⟩ := DocumentService.commitVersion_ok hcommit
    rw [heq]
    rw [← hdb] at hget
    have htouches : Touches contractId (some documentId) w₁ w₂ := by
      refine touches_saveDocument hget ?_ ?_ hsave contractId
      · rfl
      · rfl
    intro c hne
    rw [← hdb] at hne ⊢
    exact htouches c hne

theorem touches_importVersion (env : Env) (contractId documentId connectionId : Nat)
    (externalFileId uploadedBy : String) (notes : Option String) (w : World) :
    Touches contractId (some documentId) w (DocumentService.importVersionFromExternal env documentId
      connectionId externalFileId uploadedBy notes w).2 := by
  unfold DocumentService.importVersionFromExternal
  rcases Program.after_read (StorageService.get connectionId) _ w with h | ⟨connection, _, h⟩
  · rw [h]
    exact touches_refl _ _ w
  rw [h]
  rcases Program.after_read (StorageService.importExternalFile env connectionId externalFileId) _ w with
    h' | ⟨imported, _, h'⟩
  · rw [h']
    exact touches_refl _ _ w
  rw [h']
  exact touches_uploadVersion env contractId documentId _ w

/-! ## Guarded steps -/

/-- A web request, or a call of a tool while the assistant runs for a user. -/
inductive Step where
  | request (env : Env) (r : Request)
  | toolCall (env : Env) (contractId : Nat) (user : User) (allowedTools : List String) (call : ToolCall)

def Step.next (w : World) : Step → World
  | .request env r => serving w (env, r)
  | .toolCall env contractId user allowedTools call =>
    (AIService.callTool env contractId user allowedTools call w).2

/-- The contract whose step is checked and the document acted on, of the routes behind the
check. -/
def PostRoute.guarded : PostRoute → Option (Nat × Option Nat)
  | .executeTransition contractId .. | .addDocumentToContract contractId _
  | .updateAIConfig contractId .. => some (contractId, none)
  | .uploadVersion contractId documentId .. | .importVersion contractId documentId .. =>
    some (contractId, some documentId)
  | _ => none

/-- A user, the contract they are checked on, and the document they act on. -/
structure Guard where
  user : User
  contractId : Nat
  documentId : Option Nat
deriving DecidableEq

def Step.guard (w : World) : Step → Option Guard
  | .request env r =>
    match dependencies env r w, r.route with
    | .ok v, .post route => route.guarded.map fun g => ⟨v.user, g.1, g.2⟩
    | _, _ => none
  | .toolCall _ contractId user _ call => some ⟨user, contractId, call.document⟩

/-- Every contract that changed is on a step that admits the user, and nothing changed if the
given contract is not. -/
def Guards (w : World) (e : Step) : Prop :=
  ∀ g, e.guard w = some g →
    (∀ c, contractState c (e.next w).db ≠ contractState c w.db → CanEdit w g.user c) ∧
      (¬ CanEdit w g.user g.contractId → e.next w = w)

/-- A document that passes with the check of the given contract is one of that contract, or of
one whose step admits the user too. -/
def ActsOnOwn (w : World) (e : Step) : Prop :=
  ∀ g documentId d, e.guard w = some g → g.documentId = some documentId →
    w.db.documents.get documentId = some d → CanEdit w g.user g.contractId →
      d.contractId = g.contractId ∨ CanEdit w g.user d.contractId

/-- The service runs after the check, and touches the given contract or document only. -/
def RunsChecked (w : World) (g : Guard) (w' : World) : Prop :=
  (CanEdit w g.user g.contractId ∧ Touches g.contractId g.documentId w w') ∨
    (¬ CanEdit w g.user g.contractId ∧ w' = w)

theorem runsChecked {α : Type} {act : Action α} {w : World} (g : Guard)
    (h : Touches g.contractId g.documentId w (act w).2) :
    RunsChecked w g
      ((liftM (assertCanEditContractStep g.contractId g.user) >>= fun _ => act : Action α) w).2 := by
  rcases afterCheck_world g.contractId g.user act w with ⟨hc, heq⟩ | ⟨hc, heq⟩
  · exact Or.inl ⟨hc, heq ▸ h⟩
  · exact Or.inr ⟨hc, heq⟩

theorem runsChecked_onContract {α : Type} {act : Action α} {w : World} (env : Env) (v : Viewer)
    (contractId : Nat) (documentId : Option Nat) (message : String)
    (h : Touches contractId documentId w (act w).2) :
    RunsChecked w ⟨v.user, contractId, documentId⟩
      (Forms.onContract env v contractId (Forms.checked v contractId act) message w).2 := by
  rw [onContract_world]
  exact runsChecked ⟨v.user, contractId, documentId⟩ h

theorem runsChecked_handle {env : Env} {v : Viewer} {route : PostRoute} {w : World} {contractId : Nat}
    {documentId : Option Nat} (h : route.guarded = some (contractId, documentId)) :
    RunsChecked w ⟨v.user, contractId, documentId⟩ (route.handle env v w).2 := by
  cases route with
  | executeTransition id actionName comment =>
    obtain ⟨rfl, rfl⟩ := Prod.mk.inj (Option.some.inj h)
    exact runsChecked_onContract env v _ _ _
      (touches_work fun _ _ hok => touches_transitionContract hok)
  | addDocumentToContract id name =>
    obtain ⟨rfl, rfl⟩ := Prod.mk.inj (Option.some.inj h)
    exact runsChecked_onContract env v _ _ _ (touches_work fun _ _ hok => touches_addDocument hok)
  | updateAIConfig id enabled model instructions restrictTools allowedTools =>
    obtain ⟨rfl, rfl⟩ := Prod.mk.inj (Option.some.inj h)
    exact runsChecked_onContract env v _ _ _ (touches_work fun _ _ hok => touches_setAIConfig hok)
  | uploadVersion id document file notes =>
    obtain ⟨rfl, rfl⟩ := Prod.mk.inj (Option.some.inj h)
    exact runsChecked_onContract env v _ _ _ (touches_uploadVersion env _ _ _ w)
  | importVersion id document connectionId externalFileId notes =>
    obtain ⟨rfl, rfl⟩ := Prod.mk.inj (Option.some.inj h)
    exact runsChecked_onContract env v _ _ _ (touches_importVersion env _ _ _ _ _ _ w)
  | _ => cases h

theorem runsChecked_callTool (env : Env) (contractId : Nat) (user : User) (allowedTools : List String)
    (call : ToolCall) (w : World) :
    RunsChecked w ⟨user, contractId, call.document⟩
      (AIService.callTool env contractId user allowedTools call w).2 := by
  have hsame : RunsChecked w ⟨user, contractId, call.document⟩ w := by
    by_cases hc : CanEdit w user contractId
    · exact Or.inl ⟨hc, touches_refl _ _ w⟩
    · exact Or.inr ⟨hc, rfl⟩
  unfold AIService.callTool
  split
  · rw [Program.tryCatch_pure_state]
    cases call with
    | getContractState =>
      have hread : Program.Keeps (· = w) (AIService.runTool env contractId user .getContractState) :=
        Program.keeps_after_read fun _ => Program.keeps_after_read fun _ =>
          Program.keeps_after_read fun _ => Program.keeps_pure _
      rw [(hread w rfl).1]
      exact hsame
    | advanceWorkflowStep actionName comment =>
      apply runsChecked ⟨user, contractId, none⟩
      rw [Program.bind_pure_state]
      exact touches_work fun _ _ hok => touches_transitionContract hok
    | addDocumentToContract name =>
      apply runsChecked ⟨user, contractId, none⟩
      rw [Program.bind_pure_state]
      exact touches_work fun _ _ hok => touches_addDocument hok
    | uploadDocumentVersion documentId contentText filename notes =>
      apply runsChecked ⟨user, contractId, some documentId⟩
      rw [Program.bind_pure_state]
      exact touches_uploadVersion env _ _ _ w
  · exact hsame

theorem runsChecked_step {w : World} {e : Step} {g : Guard} (h : e.guard w = some g) :
    RunsChecked w g (e.next w) := by
  cases e with
  | toolCall env contractId user allowedTools call =>
    obtain rfl := Option.some.inj h
    exact runsChecked_callTool env contractId user allowedTools call w
  | request env r =>
    simp only [Step.guard] at h
    split at h
    · rename_i v route hviewer hroute
      obtain ⟨⟨contractId, documentId⟩, hguarded, rfl⟩ := Option.map_eq_some_iff.mp h
      have hnext : Step.next w (.request env r) = (route.handle env v w).2 := by
        simp only [Step.next, serving, respond, serve_apply, hviewer, hroute, Route.handle]
      rw [hnext]
      exact runsChecked_handle hguarded
    · cases h

theorem guards_of_actsOnOwn {w : World} {e : Step} (h : ActsOnOwn w e) : Guards w e := by
  intro g hg
  rcases runsChecked_step hg with ⟨hc, htouches⟩ | ⟨hc, hsame⟩
  · refine ⟨fun c hne => ?_, fun hno => absurd hc hno⟩
    rcases htouches c hne with rfl | ⟨documentId, d, hdocument, hd, rfl⟩
    · exact hc
    · rcases h g documentId d hg hdocument hd hc with heq | hown
      · exact heq ▸ hc
      · exact hown
  · exact ⟨fun c hne => absurd (by rw [hsame]) hne, fun _ => hsame⟩

/-- In a run in which every upload and import names a document that its own contract's step
allows the user to change, every step changes only what its check has allowed. -/
theorem steps_guarded (w : World) (steps : List Step) (h : Runs.Along Step.next ActsOnOwn w steps) :
    Runs.Along Step.next Guards w steps :=
  Runs.along_mono (fun _ _ => guards_of_actsOnOwn) h

/-! ## The assistant's request -/

theorem callTool_ok (env : Env) (contractId : Nat) (user : User) (allowedTools : List String)
    (call : ToolCall) (w : World) :
    (AIService.callTool env contractId user allowedTools call w).1 = .ok () := by
  unfold AIService.callTool
  split
  · rw [Program.tryCatch_apply]
    cases (AIService.runTool env contractId user call w).1 with
    | ok u => rfl
    | error e => rfl
  · rfl

theorem forM_callTool (env : Env) (contractId : Nat) (user : User) (allowedTools : List String)
    (calls : List ToolCall) (w : World) :
    (calls.forM (AIService.callTool env contractId user allowedTools) w).2 =
      Runs.run Step.next w (calls.map (Step.toolCall env contractId user allowedTools)) := by
  induction calls generalizing w with
  | nil => rfl
  | cons call calls ih =>
    rw [List.forM_eq_forM, List.forM_cons, Program.bind_apply, callTool_ok]
    exact ih _

/-- The request to run the assistant is a run of tool calls for its user on its contract. -/
theorem runAssistant_run (env : Env) (v : Viewer) (contractId : Nat) (instruction : String) (w : World) :
    ∃ (allowedTools : List String) (calls : List ToolCall),
      (Forms.runAssistant env v contractId instruction w).2 =
        Runs.run Step.next w (calls.map (Step.toolCall env contractId v.user allowedTools)) := by
  unfold Forms.runAssistant
  rcases Program.after_read (Pages.contractDetailContext env v contractId) _ w with h | ⟨context, _, h⟩
  · exact ⟨[], [], h⟩
  rw [h, submit_world v (fun _ _ => rfl)]
  unfold AIService.runAssistant
  rcases Program.after_read (ContractService.get contractId) _ w with h | ⟨contract, _, h⟩
  · exact ⟨[], [], h⟩
  rw [h]
  rcases Program.after_read (raising (AIService.requireEnabled env v.organization contract)) _ w with
    h | ⟨_, _, h⟩
  · exact ⟨[], [], h⟩
  rcases Program.after_read (raising (raiseIf (¬ env.settings.aiEnabled) (DomainError.aiUnavailable
    "The AI assistant isn't configured -- set ANTHROPIC_API_KEY to enable it"))) _ w with h' | ⟨_, _, h'⟩
  · exact ⟨[], [], h.trans h'⟩
  refine ⟨contract.aiConfig.allowedTools.getD assistantToolNames, env.toolCalls instruction, ?_⟩
  refine (h.trans h').trans ?_
  rw [Program.bind_pure_state]
  exact forM_callTool env contractId v.user _ _ w

/-! ## Two contracts of one organization -/

/-- Acme has a contract on a step that is open to all its users, and one on a step that is the
counsel's. -/
def twoContracts : World :=
  let work : Action Unit := do
    let drafting ← AgentService.createAgent 1 "Drafting" none
    let legal ← AgentService.createAgent 1 "Legal" none
    let _ ← RoleService.createRole 1 "Counsel" none (some legal.id)
    let notes ← WorkflowService.createDefinition 1 "Notes" none
    let _ ← WorkflowService.addStep notes.id ⟨"draft", "Draft", none, drafting.id, true, true⟩
    let _ ← WorkflowService.activate notes.id
    let deals ← WorkflowService.createDefinition 1 "Deals" none
    let _ ← WorkflowService.addStep deals.id ⟨"review", "Review", none, legal.id, true, true⟩
    let _ ← WorkflowService.activate deals.id
    let _ ← ContractService.createContract (.offline 1 "") 1 "Memo" "NDA" notes.id "Alice" none
    let _ ← ContractService.createContract (.offline 1 "") 1 "Merger" "Sale" deals.id "Alice" none
    let _ ← StorageService.connectBucket (.offline 1 "") 1 .local "Disk"
      { StorageConfig.empty with keyPrefix := some "acme" } .empty
    return ()
  (work twoTenants).2

/-- A file for a document, sent under the contract with id 1. -/
def aliceUploads (documentId : Nat) : Step :=
  .request (.offline 2 "") (aliceAsks "/acme/contracts/1" (.post
    (.uploadVersion 1 documentId ⟨[104, 105], "note.txt", "text/plain"⟩ "")))

def alice : User := ⟨1, 1, "Alice", "alice@acme.test", some "secret", none, 1, true, some 0, none⟩

theorem steps_guarded_ownDocument :
    let steps := [aliceUploads 1,
      .toolCall (.offline 3 "") 1 alice assistantToolNames (.addDocumentToContract "Annex")]
    Runs.Along Step.next Guards twoContracts steps := by
  intro steps
  apply steps_guarded
  have hguard : (aliceUploads 1).guard twoContracts = some ⟨alice, 1, some 1⟩ := by decide +kernel
  have hdocument : (twoContracts.db.documents.get 1).map (fun d => d.contractId) = some 1 := by
    decide +kernel
  refine ⟨fun g documentId d hg hid hd _ => Or.inl ?_, fun g documentId d hg hid _ _ => ?_, trivial⟩
  · obtain rfl := Option.some.inj (hguard.symm.trans hg)
    obtain rfl := Option.some.inj hid
    rw [hd] at hdocument
    exact Option.some.inj hdocument
  · obtain rfl := Option.some.inj hg
    cases hid

/-- Alice may not act on the second contract, and gives its document a version under the first. -/
theorem not_guards_foreignDocument :
    (aliceUploads 2).guard twoContracts = some ⟨alice, 1, some 2⟩ ∧
    CanEdit twoContracts alice 1 ∧ ¬ CanEdit twoContracts alice 2 ∧
    (contractState 2 twoContracts.db).documents.map (fun d => d.currentVersionNo) = [0] ∧
    (contractState 2 ((aliceUploads 2).next twoContracts).db).documents.map
      (fun d => d.currentVersionNo) = [1] ∧
    ¬ Guards twoContracts (aliceUploads 2) := by
  have hguard : (aliceUploads 2).guard twoContracts = some ⟨alice, 1, some 2⟩ := by decide +kernel
  have hcan : CanEdit twoContracts alice 1 :=
    (assertCanEdit_ok_iff 1 alice twoContracts ()).mp (by decide +kernel)
  have hcannot : ¬ CanEdit twoContracts alice 2 := fun h =>
    absurd ((assertCanEdit_ok_iff 2 alice twoContracts ()).mpr h) (by decide +kernel)
  have hbefore : (contractState 2 twoContracts.db).documents.map (fun d => d.currentVersionNo) = [0] := by
    decide +kernel
  have hafter : (contractState 2 ((aliceUploads 2).next twoContracts).db).documents.map
      (fun d => d.currentVersionNo) = [1] := by decide +kernel
  refine ⟨hguard, hcan, hcannot, hbefore, hafter, fun h => hcannot ?_⟩
  apply (h _ hguard).1 2
  intro heq
  rw [heq, hbefore] at hafter
  cases hafter

end Orchestract
