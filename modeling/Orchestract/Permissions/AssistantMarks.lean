import Orchestract.Documents.KeyOwners
import Orchestract.Documents.Uploads
import Orchestract.Library.Growth
import Orchestract.Operations.Histories
import Orchestract.Permissions.AssistantPower

/-!
# What the assistant leaves behind

The tools of the assistant act under a name of its own. What they change in the contract's workflow
comes with an entry in its history, and each entry and each version that they add has that name. The
versions are those of the document that a call names, of whatever contract.
-/

namespace Orchestract

set_option autoImplicit false

/-- The `actor` of `run_assistant`. -/
def AIService.actor (user : User) : String := s!"AI Assistant (on behalf of {user.name})"

/-- Where a tool may write. -/
def ToolCall.sites : ToolCall → List Site
  | .getContractState => []
  | .advanceWorkflowStep .. => [.instances]
  | .addDocumentToContract .. => [.contracts, .documents]
  | .uploadDocumentVersion .. => [.documents, .versionIds, .files]

/-! ## Rows -/

/-- A contract may have been touched, which shows in the time of its last change. -/
structure Contract.Touched (contractId : Nat) (c c' : Contract) : Prop where
  time : c' = { c with updatedAt := c'.updatedAt }
  others : c.id ≠ contractId → c' = c

/-- The instance of the contract has moved, each time with an entry under the name of `actor`. -/
structure WorkflowInstance.SignedBy (actor : String) (contractId : Nat) (i i' : WorkflowInstance) : Prop where
  rest : i' = { i with
    currentStepKey := i'.currentStepKey
    status := i'.status
    completedAt := i'.completedAt
    history := i'.history }
  history : ∃ added, i'.history = i.history ++ added ∧ (∀ e ∈ added, e.actor = actor) ∧
    ∀ e, added.getLast? = some e → i'.currentStepKey = e.toStepKey
  unmoved : i'.history = i.history → i' = i
  others : i.contractId ≠ contractId → i' = i

/-- A document named by one of the calls has new versions of texts under the name of `actor`. -/
structure Document.SignedBy (actor : String) (calls : List ToolCall) (d d' : Document) : Prop where
  rest : d' = { d with
    currentVersionNo := d'.currentVersionNo
    updatedAt := d'.updatedAt
    versions := d'.versions }
  versions : ∃ added, d'.versions = d.versions ++ added ∧
    ∀ v ∈ added, v.uploadedBy = actor ∧ v.contentType = "text/plain"
  others : (∀ call ∈ calls, call.document ≠ some d.id) → d' = d

/-- A document that one of the calls added to the contract. -/
structure Document.AddedBy (actor : String) (contractId : Nat) (calls : List ToolCall) (d : Document) : Prop where
  asked : ∃ name, ToolCall.addDocumentToContract name ∈ calls
  contract : d.contractId = contractId
  versions : ∀ v ∈ d.versions, v.uploadedBy = actor ∧ v.contentType = "text/plain"

variable {actor : String} {contractId : Nat} {calls : List ToolCall}

theorem Contract.touched_refl (c : Contract) : c.Touched contractId c := ⟨rfl, fun _ => rfl⟩

theorem Contract.touched_trans {c c₁ c' : Contract} (h : c.Touched contractId c₁) (h' : c₁.Touched contractId c') :
    c.Touched contractId c' := by
  have htime : c' = { c with updatedAt := c'.updatedAt } := by
    rw [h'.time, h.time]
  refine ⟨htime, fun hne => ?_⟩
  have hid : c₁.id ≠ contractId := by
    rw [h.others hne]
    exact hne
  exact (h'.others hid).trans (h.others hne)

namespace WorkflowInstance

theorem SignedBy.contract {i i' : WorkflowInstance} (h : i.SignedBy actor contractId i') :
    i'.contractId = i.contractId := by
  rw [h.rest]

theorem signedBy_refl (i : WorkflowInstance) : i.SignedBy actor contractId i :=
  ⟨rfl, ⟨[], (List.append_nil _).symm, fun _ he => (by cases he), fun _ he => (by cases he)⟩, fun _ => rfl,
    fun _ => rfl⟩

theorem signedBy_trans {i i₁ i' : WorkflowInstance} (h : i.SignedBy actor contractId i₁)
    (h' : i₁.SignedBy actor contractId i') : i.SignedBy actor contractId i' := by
  obtain ⟨added, hadded, hactor, hlast⟩ := h.history
  obtain ⟨added', hadded', hactor', hlast'⟩ := h'.history
  have hall : i'.history = i.history ++ (added ++ added') := by
    rw [hadded', hadded, List.append_assoc]
  have hunmoved : added' = [] → i' = i₁ := by
    rintro rfl
    exact h'.unmoved (hadded'.trans (List.append_nil _))
  refine ⟨?_, ⟨added ++ added', hall, ?_, fun e he => ?_⟩, fun hsame => ?_, fun hne => ?_⟩
  · rw [h'.rest, h.rest]
  · intro e he
    exact (List.mem_append.mp he).elim (hactor e) (hactor' e)
  · cases hends : added'.getLast? with
    | none =>
      rw [hunmoved (List.getLast?_eq_none_iff.mp hends)]
      exact hlast e (by simpa [List.getLast?_append, hends] using he)
    | some e' =>
      obtain rfl : e' = e := by simpa [List.getLast?_append, hends] using he
      exact hlast' e' hends
  · have hnone : added ++ added' = [] := List.append_right_eq_self.mp (hall.symm.trans hsame)
    obtain ⟨rfl, rfl⟩ := List.append_eq_nil_iff.mp hnone
    exact (hunmoved rfl).trans (h.unmoved (hadded.trans (List.append_nil _)))
  · have hne' : i₁.contractId ≠ contractId := by
      rw [h.contract]
      exact hne
    exact (h'.others hne').trans (h.others hne)

/-- One more entry. -/
theorem signedBy_moved {i : WorkflowInstance} (target : WorkflowStep) {call : Call} (hactor : call.actor = actor)
    (hi : i.contractId = contractId) : i.SignedBy actor contractId (i.moved target call) := by
  refine ⟨rfl, ⟨_, rfl, fun e he => ?_, fun e he => ?_⟩, fun hsame => ?_, fun hne => absurd hi hne⟩
  · obtain rfl := List.mem_singleton.mp he
    exact hactor
  · obtain rfl := Option.some.inj he
    rfl
  · exact absurd (List.append_right_eq_self.mp hsame) (List.cons_ne_nil _ _)

end WorkflowInstance

namespace Document

theorem signedBy_refl (d : Document) : d.SignedBy actor calls d :=
  ⟨rfl, ⟨[], (List.append_nil _).symm, fun _ hv => (by cases hv)⟩, fun _ => rfl⟩

theorem signedBy_trans {d d₁ d' : Document} (h : d.SignedBy actor calls d₁) (h' : d₁.SignedBy actor calls d') :
    d.SignedBy actor calls d' := by
  obtain ⟨added, hadded, hsigned⟩ := h.versions
  obtain ⟨added', hadded', hsigned'⟩ := h'.versions
  refine ⟨by rw [h'.rest, h.rest], ⟨added ++ added', by rw [hadded', hadded, List.append_assoc], ?_⟩, ?_⟩
  · intro v hv
    exact (List.mem_append.mp hv).elim (hsigned v) (hsigned' v)
  · intro hother
    have hsame := h.others hother
    rw [← hsame] at hother
    exact (h'.others hother).trans hsame

theorem AddedBy.signed {d d' : Document} (h : d.AddedBy actor contractId calls) (h' : d.SignedBy actor calls d') :
    d'.AddedBy actor contractId calls := by
  obtain ⟨added, hadded, hsigned⟩ := h'.versions
  have hcontract : d'.contractId = d.contractId := by rw [h'.rest]
  refine ⟨h.asked, hcontract.trans h.contract, fun v hv => ?_⟩
  rw [hadded] at hv
  exact (List.mem_append.mp hv).elim (h.versions v) (hsigned v)

end Document

/-! ## Worlds -/

/-- All that the calls have changed. Bytes are stored under keys of the documents that they name. -/
structure World.SignedBy (actor : String) (contractId : Nat) (calls : List ToolCall) (w w' : World) : Prop where
  contracts : w.db.contracts.Evolves (Contract.Touched contractId) (fun _ => False) w'.db.contracts
  instances : w.db.instances.Evolves (WorkflowInstance.SignedBy actor contractId) (fun _ => False) w'.db.instances
  documents : w.db.documents.Evolves (Document.SignedBy actor calls) (Document.AddedBy actor contractId calls)
    w'.db.documents
  versionIds : w.db.nextVersionId ≤ w'.db.nextVersionId
  files : ∀ bucket key, w'.files bucket key ≠ w.files bucket key →
    ∃ call ∈ calls, ∃ documentId, call.document = some documentId ∧ OwnKey documentId key
  rest : ∀ site, (∀ call ∈ calls, site ∉ call.sites) → w.Same w' site

variable {w w₁ w' : World} {env : Env} {user : User}

theorem World.same_trans {site : Site} (h : w.Same w₁ site) (h' : w₁.Same w' site) : w.Same w' site := by
  cases site <;> exact Eq.trans h' h

theorem signed_refl (w : World) : w.SignedBy actor contractId calls w where
  contracts := Table.evolves_refl Contract.touched_refl _
  instances := Table.evolves_refl WorkflowInstance.signedBy_refl _
  documents := Table.evolves_refl Document.signedBy_refl _
  versionIds := le_rfl
  files _ _ hne := absurd rfl hne
  rest site _ := w.same_refl site

theorem signed_trans (h : w.SignedBy actor contractId calls w₁) (h' : w₁.SignedBy actor contractId calls w') :
    w.SignedBy actor contractId calls w' where
  contracts := Table.evolves_trans Contract.touched_trans (fun h _ => h) h.contracts h'.contracts
  instances := Table.evolves_trans WorkflowInstance.signedBy_trans (fun h _ => h) h.instances h'.instances
  documents := Table.evolves_trans Document.signedBy_trans Document.AddedBy.signed h.documents h'.documents
  versionIds := h.versionIds.trans h'.versionIds
  files bucket key hne := by
    by_cases hfirst : w₁.files bucket key = w.files bucket key
    · exact h'.files bucket key (hfirst ▸ hne)
    · exact h.files bucket key hfirst
  rest site hsite := World.same_trans (h.rest site hsite) (h'.rest site hsite)

/-! ## Tools -/

/-- What a tool leaves as it is among the places where none of the calls may write. -/
theorem same_elsewhere {call : ToolCall} (hcall : call ∈ calls) (h : ∀ site ∉ call.sites, w.Same w' site) :
    ∀ site, (∀ call ∈ calls, site ∉ call.sites) → w.Same w' site :=
  fun site hsite => h site (hsite call hcall)

theorem signed_transition {actionName comment : String} {i : WorkflowInstance}
    (hcall : ToolCall.advanceWorkflowStep actionName comment ∈ calls)
    (h : ContractService.transitionContract env contractId actionName actor (Text.orNone comment) w = .ok (i, w')) :
    w.SignedBy actor contractId calls w' := by
  obtain ⟨i₀, definition, hi, _, hmove, hsave⟩ :=
    (ContractService.transitionContract_ok_iff env contractId actionName actor _ w w' i).mp h
  obtain ⟨hmem, hcontract⟩ := ContractService.getInstance_ok hi
  let call : WorkflowInstance.Call := ⟨actionName, actor, Text.orNone comment, env.now⟩
  have hresult : call.result definition i₀ = .ok i := hmove
  obtain ⟨_, _, _, target, _, rfl⟩ := WorkflowInstance.result_ok_iff.mp hresult
  obtain ⟨_, rows, hrows, rfl⟩ := (save_ok_iff _ w w').mp hsave
  exact {
    contracts := Table.evolves_refl Contract.touched_refl _
    instances := Table.evolves_update WorkflowInstance.signedBy_refl hrows hmem rfl
      (WorkflowInstance.signedBy_moved target rfl hcontract)
    documents := Table.evolves_refl Document.signedBy_refl _
    versionIds := le_rfl
    files := fun _ _ hne => absurd rfl hne
    rest := same_elsewhere hcall fun site hsite => by
      cases site <;> first | rfl | exact absurd (by simp [ToolCall.sites]) hsite }

theorem signed_addDocument {name : String} {d : Document} (hcall : ToolCall.addDocumentToContract name ∈ calls)
    (h : ContractService.addDocument env contractId name w = .ok (d, w')) :
    w.SignedBy actor contractId calls w' := by
  obtain ⟨c, document, w₁, hc, hcontract, hversions, hsave, hadd⟩ := ContractService.addDocument_ok h
  obtain ⟨hmem, hid⟩ := Table.get_eq_some_iff.mp hc
  obtain ⟨_, contracts, hcontracts, rfl⟩ := (save_ok_iff _ w w₁).mp hsave
  obtain ⟨_, documents, hdocuments, rfl⟩ := (add_ok_iff _ d _ w').mp hadd
  obtain ⟨hnew, _⟩ := Table.insert_eq_some hdocuments
  have hadded : d.AddedBy actor contractId calls := by
    rw [hnew]
    refine ⟨⟨name, hcall⟩, hcontract, fun v hv => ?_⟩
    change v ∈ document.versions at hv
    rw [hversions] at hv
    cases hv
  exact {
    contracts := Table.evolves_update Contract.touched_refl hcontracts hmem rfl ⟨rfl, fun hne => absurd hid hne⟩
    instances := Table.evolves_refl WorkflowInstance.signedBy_refl _
    documents := Table.evolves_insert Document.signedBy_refl hdocuments hadded
    versionIds := le_rfl
    files := fun _ _ hne => absurd rfl hne
    rest := same_elsewhere hcall fun site hsite => by
      cases site <;> first | rfl | exact absurd (by simp [ToolCall.sites]) hsite }

theorem signed_upload {documentId : Nat} {contentText filename notes : String} {u : DocumentService.Upload}
    (hcall : ToolCall.uploadDocumentVersion documentId contentText filename notes ∈ calls)
    (huser : u.uploadedBy = actor) (htype : u.contentType = "text/plain") :
    w.SignedBy actor contractId calls (DocumentService.uploadVersion env documentId u w).2 := by
  have hfiles : ∀ t : DocumentService.Target env documentId w, ∀ bucket key,
      t.files u bucket key ≠ w.files bucket key →
        ∃ call ∈ calls, ∃ id, call.document = some id ∧ OwnKey id key := by
    intro t bucket key hne
    refine ⟨_, hcall, documentId, rfl, ?_⟩
    have hput : bucket = t.bucket ∧ key = DocumentService.storageKey t.contract t.document u.filename := by
      by_contra hother
      exact hne (if_neg hother)
    have hid : t.document.id = documentId := (Table.get_eq_some_iff.mp t.document_get).2
    exact ⟨t.contract, t.document, u.filename, hput.2, hid⟩
  change w.SignedBy actor contractId calls (Operation.upload env documentId u true w).2
  rcases DocumentService.upload_cases env documentId u true w with
    ⟨e, he⟩ | ⟨t, _, ⟨e, he⟩ | ⟨documents, hdocuments, hok⟩⟩
  · rw [he]
    exact signed_refl w
  · rw [he]
    exact {
      contracts := Table.evolves_refl Contract.touched_refl _
      instances := Table.evolves_refl WorkflowInstance.signedBy_refl _
      documents := Table.evolves_refl Document.signedBy_refl _
      versionIds := le_rfl
      files := hfiles t
      rest := same_elsewhere hcall fun site hsite => by
        cases site <;> first | rfl | exact absurd (by simp [ToolCall.sites]) hsite }
  · rw [hok]
    obtain ⟨hmem, hid⟩ := Table.get_eq_some_iff.mp t.document_get
    have hsigned : t.document.SignedBy actor calls (t.document.addVersion (t.version u) env.now) := by
      refine ⟨rfl, ⟨_, rfl, fun v hv => ?_⟩, fun hother => absurd (congrArg some hid.symm) (hother _ hcall)⟩
      obtain rfl := List.mem_singleton.mp hv
      exact ⟨huser, htype⟩
    exact {
      contracts := Table.evolves_refl Contract.touched_refl _
      instances := Table.evolves_refl WorkflowInstance.signedBy_refl _
      documents := Table.evolves_update Document.signedBy_refl hdocuments hmem rfl hsigned
      versionIds := Nat.le_succ _
      files := hfiles t
      rest := same_elsewhere hcall fun site hsite => by
        cases site <;> first | rfl | exact absurd (by simp [ToolCall.sites]) hsite }

theorem signed_commit {α : Type} {m : UnitOfWork α}
    (h : ∀ a w', m w = .ok (a, w') → w.SignedBy actor contractId calls w') :
    w.SignedBy actor contractId calls ((liftM m : Action α) w).2 := by
  rw [Program.commit_apply]
  cases hm : m w with
  | error e => exact signed_refl w
  | ok p => exact h p.1 p.2 hm

/-- A tool that asks first whether the step is the user's. -/
theorem signed_checked {α : Type} {m : Action α} (h : w.SignedBy actor contractId calls (m w).2) :
    w.SignedBy actor contractId calls ((liftM (assertCanEditContractStep contractId user) >>= fun _ =>
      m >>= fun _ => pure () : Action Unit) w).2 := by
  rw [check_apply]
  cases assertCanEditContractStep contractId user w with
  | error e => exact signed_refl w
  | ok u =>
    change w.SignedBy actor contractId calls ((m >>= fun _ => pure () : Action Unit) w).2
    rw [Program.bind_pure_state]
    exact h

theorem signed_runTool (env : Env) (contractId : Nat) (user : User) {call : ToolCall} (hcall : call ∈ calls)
    (w : World) :
    w.SignedBy (AIService.actor user) contractId calls (AIService.runTool env contractId user call w).2 := by
  cases call with
  | getContractState =>
    rw [runTool_reads]
    exact signed_refl w
  | advanceWorkflowStep actionName comment =>
    exact signed_checked (signed_commit fun _ _ => signed_transition hcall)
  | addDocumentToContract name =>
    exact signed_checked (signed_commit fun _ _ => signed_addDocument hcall)
  | uploadDocumentVersion documentId contentText filename notes =>
    exact signed_checked (signed_upload hcall rfl rfl)

theorem signed_callTool (allowedTools : List String) {call : ToolCall} (hcall : call ∈ calls) (w : World) :
    w.SignedBy (AIService.actor user) contractId calls
      (AIService.callTool env contractId user allowedTools call w).2 := by
  rcases callTool_world env contractId user allowedTools call w with hsame | ⟨_, hrun⟩
  · rw [hsame]
    exact signed_refl w
  · rw [hrun]
    exact signed_runTool env contractId user hcall w

/-! ## Runs -/

theorem signed_toolCalls (env : Env) (allowedTools : List String) {made : List ToolCall} (hmade : made ⊆ calls)
    (w : World) : w.SignedBy (AIService.actor user) contractId calls
      (Runs.run (AssistantEvent.next contractId user allowedTools) w (made.map (AssistantEvent.toolCall env))) := by
  induction made generalizing w with
  | nil => exact signed_refl w
  | cons call made ih =>
    obtain ⟨hcall, hmade⟩ := List.cons_subset.mp hmade
    exact signed_trans (signed_callTool allowedTools hcall w) (ih hmade _)

/-- Whatever tools are called, in whatever order and with whatever arguments, and whatever requests come
between: a call changes no more than its tool may, and puts the name of the assistant to what it adds.
So does a run as a whole with the calls that the model makes. -/
theorem assistant_signs (contractId : Nat) (user : User) (w : World) :
    (∀ (allowedTools : List String) (events : List AssistantEvent),
      Runs.Along (AssistantEvent.next contractId user allowedTools)
        (fun w' e => ∀ env call, e = .toolCall env call →
          w'.SignedBy (AIService.actor user) contractId [call] (e.next contractId user allowedTools w')) w events) ∧
    ∀ (env : Env) (instruction : String) (organization : Organization),
      w.SignedBy (AIService.actor user) contractId (env.toolCalls instruction)
        (AIService.runAssistant env contractId instruction user organization w).2 := by
  constructor
  · intro allowedTools events
    refine Runs.along_of_forall (fun w' e => ?_) w events
    rintro env call rfl
    exact signed_callTool allowedTools (List.mem_singleton_self call) w'
  · intro env instruction organization
    obtain ⟨made, hmade, hcalls⟩ := runAssistant_events env contractId instruction user organization w
    rw [hcalls]
    exact signed_toolCalls env (offeredTools contractId w) hmade w

end Orchestract
