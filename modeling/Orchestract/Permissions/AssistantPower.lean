import Orchestract.Documents.Uploads
import Orchestract.Infrastructure.Handled
import Orchestract.Permissions.StepGuard

/-!
# The power of the assistant

A tool of the assistant does what a form of the contract page does, with the assistant's name as
the actor. Wherever a tool call changes anything, the user's own request would have changed the same.
-/

namespace Orchestract

set_option autoImplicit false

/-! ## Names aside -/

def WorkflowHistoryEntry.unsigned (e : WorkflowHistoryEntry) : WorkflowHistoryEntry := { e with actor := "" }

def WorkflowInstance.unsigned (i : WorkflowInstance) : WorkflowInstance :=
  { i with history := i.history.map WorkflowHistoryEntry.unsigned }

def DocumentVersion.unsigned (v : DocumentVersion) : DocumentVersion :=
  { v with uploadedBy := "", originalFilename := "", contentType := "" }

def Document.unsigned (d : Document) : Document := { d with versions := d.versions.map DocumentVersion.unsigned }

/-- The same rows, up to what `f` forgets. -/
def Table.Like {α : Type} [Row α] (f : α → α) (t t' : Table α) : Prop :=
  t.rows.map f = t'.rows.map f ∧ t.next = t'.next

/-- The same state up to the recorded names of actors, and the names and types of files. -/
structure World.Alike (w w' : World) : Prop where
  instances : Table.Like WorkflowInstance.unsigned w.db.instances w'.db.instances
  documents : Table.Like Document.unsigned w.db.documents w'.db.documents
  others : { w.db with instances := w'.db.instances, documents := w'.db.documents } = w'.db
  files : w.files = w'.files

theorem World.alike_refl (w : World) : w.Alike w := ⟨⟨rfl, rfl⟩, ⟨rfl, rfl⟩, rfl, rfl⟩

theorem World.alike_symm {w w' : World} (h : w.Alike w') : w'.Alike w := by
  refine ⟨⟨h.instances.1.symm, h.instances.2.symm⟩, ⟨h.documents.1.symm, h.documents.2.symm⟩, ?_, h.files.symm⟩
  rw [← h.others]

/-- One program ends as the other does: with the same error in the same state, or well and in states
that are alike. -/
def SameEnd {α β : Type} (p : Except Failure α × World) (q : Except Failure β × World) : Prop :=
  (∃ e w, p = (.error e, w) ∧ q = (.error e, w)) ∨
    ∃ a b, p.1 = .ok a ∧ q.1 = .ok b ∧ p.2.Alike q.2

section

variable {α β γ : Type} {w : World}

theorem sameEnd_alike {p : Except Failure α × World} {q : Except Failure β × World} (h : SameEnd p q) :
    p.2.Alike q.2 := by
  rcases h with ⟨e, w, rfl, rfl⟩ | ⟨a, b, _, _, h⟩
  · exact w.alike_refl
  · exact h

theorem sameEnd_refl (p : Except Failure α × World) : SameEnd p p := by
  obtain ⟨answer, w⟩ := p
  cases answer with
  | error e => exact Or.inl ⟨e, w, rfl, rfl⟩
  | ok a => exact Or.inr ⟨a, a, rfl, rfl, w.alike_refl⟩

theorem sameEnd_symm {p : Except Failure α × World} {q : Except Failure β × World} (h : SameEnd p q) :
    SameEnd q p := by
  rcases h with ⟨e, w, hp, hq⟩ | ⟨a, b, hp, hq, h⟩
  · exact Or.inl ⟨e, w, hq, hp⟩
  · exact Or.inr ⟨b, a, hq, hp, World.alike_symm h⟩

theorem sameEnd_error (e : Failure) (w : World) :
    SameEnd ((.error e, w) : Except Failure α × World) ((.error e, w) : Except Failure β × World) :=
  Or.inl ⟨e, w, rfl, rfl⟩

/-- After the same read. -/
theorem sameEnd_read {r : Query γ} {f : γ → Action α} {g : γ → Action β}
    (h : ∀ c, r w = .ok c → SameEnd (f c w) (g c w)) :
    SameEnd ((liftM r >>= f : Action α) w) ((liftM r >>= g : Action β) w) := by
  rw [Program.bind_apply, Program.bind_apply, Program.read_apply]
  cases hr : r w with
  | error e => exact sameEnd_error e w
  | ok c => exact h c hr

/-- What is returned in the end does not matter. -/
theorem sameEnd_discard {p : Action α} {q : Action β} {u : Unit} (h : SameEnd (p w) (q w)) :
    SameEnd ((p >>= fun _ => pure u : Action Unit) w) (q w) := by
  rw [Program.bind_apply]
  rcases h with ⟨e, w', hp, hq⟩ | ⟨a, b, hp, hq, h⟩
  · rw [hp, hq]
    exact sameEnd_error e w'
  · rw [hp]
    exact Or.inr ⟨u, b, rfl, hq, h⟩

end

/-- Two changes of one row that differ in what `f` forgets. -/
theorem save_like {α : Type} [Row α] [Stored α] {f : α → α} {a b : α} {w : World} (hid : Row.id a = Row.id b)
    (hkeys : Row.keys a = Row.keys b) (hrefs : Stored.refs a = Stored.refs b) (hf : f a = f b) :
    (∃ e, save a w = .error e ∧ save b w = .error e) ∨
      ∃ t t', (Stored.table w.db : Table α).update a = some t ∧ (Stored.table w.db : Table α).update b = some t' ∧
        Table.Like f t t' ∧ save a w = .ok ((), { w with db := Stored.withTable w.db t }) ∧
        save b w = .ok ((), { w with db := Stored.withTable w.db t' }) := by
  have hexist : refsExist a w.db = refsExist b w.db := by
    unfold refsExist
    rw [hrefs]
  have hapart : ∀ r, Apart a r ↔ Apart b r := by
    intro r
    unfold Apart
    rw [hid, hkeys]
  unfold save
  rw [hexist]
  cases refsExist b w.db with
  | false => exact Or.inl ⟨_, rfl, rfl⟩
  | true =>
    simp only [if_true]
    cases ha : (Stored.table w.db : Table α).update a with
    | none =>
      refine Or.inl ⟨.crashed .integrityError, rfl, ?_⟩
      cases hb : (Stored.table w.db : Table α).update b with
      | none => rfl
      | some t' =>
        have hall := Table.update_isSome_iff.mp ⟨t', hb⟩
        obtain ⟨t, ht⟩ := Table.update_isSome_iff.mpr fun r hr => (hapart r).mpr (hall r hr)
        rw [ha] at ht
        cases ht
    | some t =>
      have hall := Table.update_isSome_iff.mp ⟨t, ha⟩
      obtain ⟨t', hb⟩ := Table.update_isSome_iff.mpr fun r hr => (hapart r).mp (hall r hr)
      rw [hb]
      refine Or.inr ⟨t, t', rfl, rfl, ⟨?_, ?_⟩, rfl, rfl⟩
      · rw [(Table.update_eq_some ha).1, (Table.update_eq_some hb).1]
        unfold Table.overwrite
        rw [List.map_map, List.map_map]
        apply List.map_congr_left
        intro r _
        simp only [Function.comp, hid]
        split
        · exact hf
        · rfl
      · rw [(Table.update_eq_some ha).2, (Table.update_eq_some hb).2]

/-! ## The services -/

/-- The actor decides nothing about a transition. -/
theorem applyTransition_unsigned (i : WorkflowInstance) (definition : WorkflowDefinition)
    (actionName actor actor' : String) (comment : Option String) (now : Nat) :
    (∃ e, i.applyTransition definition actionName actor comment now = .error e ∧
      i.applyTransition definition actionName actor' comment now = .error e) ∨
      ∃ i₁ i₂, i.applyTransition definition actionName actor comment now = .ok i₁ ∧
        i.applyTransition definition actionName actor' comment now = .ok i₂ ∧ i₁.unsigned = i₂.unsigned := by
  unfold WorkflowInstance.applyTransition
  rcases ok_or_error (raiseIf (i.status ≠ .active) (DomainError.workflowAlreadyCompleted i.id)) with ⟨u, h⟩ | ⟨e, h⟩
  · rw [h]
    rcases ok_or_error (orRaise (DomainError.invalidTransition i.currentStepKey actionName)
      (definition.findTransition i.currentStepKey actionName)) with ⟨t, h⟩ | ⟨e, h⟩
    · rw [h]
      change (∃ e, (definition.getStep t.toStepKey >>= _) = _ ∧ (definition.getStep t.toStepKey >>= _) = _) ∨
        ∃ i₁ i₂, (definition.getStep t.toStepKey >>= _) = _ ∧ (definition.getStep t.toStepKey >>= _) = _ ∧ _
      cases definition.getStep t.toStepKey with
      | error e => exact Or.inl ⟨e, rfl, rfl⟩
      | ok target =>
        refine Or.inr ?_
        cases hterminal : target.isTerminal with
        | true => exact ⟨_, _, if_pos hterminal, if_pos hterminal, by
            simp [WorkflowInstance.unsigned, WorkflowHistoryEntry.unsigned]⟩
        | false => exact ⟨_, _, if_neg (by simp [hterminal]), if_neg (by simp [hterminal]), by
            simp [WorkflowInstance.unsigned, WorkflowHistoryEntry.unsigned]⟩
    · rw [h]
      exact Or.inl ⟨e, rfl, rfl⟩
  · rw [h]
    exact Or.inl ⟨e, rfl, rfl⟩

theorem unsigned_fields {i j : WorkflowInstance} (h : i.unsigned = j.unsigned) :
    i.id = j.id ∧ i.contractId = j.contractId ∧ i.workflowDefinitionId = j.workflowDefinitionId := by
  simp only [WorkflowInstance.unsigned, WorkflowInstance.mk.injEq] at h
  exact ⟨h.1, h.2.1, h.2.2.1⟩

section

variable (env : Env) (w : World)

theorem transition_alike (contractId : Nat) (actionName actor actor' : String) (comment : Option String) :
    SameEnd
      ((liftM (ContractService.transitionContract env contractId actionName actor comment) :
        Action WorkflowInstance) w)
      ((liftM (ContractService.transitionContract env contractId actionName actor' comment) :
        Action WorkflowInstance) w) := by
  rw [Program.commit_apply, Program.commit_apply]
  unfold ContractService.transitionContract
  rw [Work.after_read, Work.after_read]
  cases ContractService.getInstance contractId w with
  | error e => exact sameEnd_error e w
  | ok i =>
    simp only [Work.after_read]
    cases WorkflowService.get i.workflowDefinitionId w with
    | error e => exact sameEnd_error e w
    | ok definition =>
      simp only
      rcases applyTransition_unsigned i definition actionName actor actor' comment env.now with
        ⟨e, h, h'⟩ | ⟨i₁, i₂, h, h', hunsigned⟩
      · rw [h, h']
        exact sameEnd_error (.raised e) w
      · rw [h, h']
        obtain ⟨hid, hcontract, hworkflow⟩ := unsigned_fields hunsigned
        change SameEnd
          ((liftM (save i₁ >>= fun _ => pure i₁ : UnitOfWork WorkflowInstance) : Action WorkflowInstance) w)
          ((liftM (save i₂ >>= fun _ => pure i₂ : UnitOfWork WorkflowInstance) : Action WorkflowInstance) w)
        rw [Program.commit_apply, Program.commit_apply, Work.bind_apply, Work.bind_apply]
        rcases save_like (a := i₁) (b := i₂) (w := w) hid rfl (by simp [Stored.refs, hcontract, hworkflow]) hunsigned with
          ⟨e, hsave, hsave'⟩ | ⟨t, t', _, _, hlike, hsave, hsave'⟩
        · rw [hsave, hsave']
          exact sameEnd_error e w
        · rw [hsave, hsave']
          exact Or.inr ⟨i₁, i₂, rfl, rfl, ⟨hlike, ⟨rfl, rfl⟩, rfl, rfl⟩⟩

/-- An upload with the same storage key. -/
theorem upload_alike (documentId : Nat) (u u' : DocumentService.Upload)
    (hname : safeFilename u.filename = safeFilename u'.filename) (hcontent : u.content = u'.content)
    (hnotes : u.notes = u'.notes) (hprovider : u.sourceProvider = u'.sourceProvider)
    (hexternal : u.sourceExternalId = u'.sourceExternalId) :
    SameEnd (DocumentService.uploadVersion env documentId u w) (DocumentService.uploadVersion env documentId u' w) := by
  unfold DocumentService.uploadVersion
  refine sameEnd_read fun target _ => ?_
  obtain ⟨document, contract, connection⟩ := target
  have hkey : DocumentService.storageKey contract document u.filename =
      DocumentService.storageKey contract document u'.filename := by
    simp only [DocumentService.storageKey, hname]
  simp only [hkey, hcontent]
  refine sameEnd_read fun bucket _ => ?_
  rw [Program.bind_apply, Program.bind_apply]
  generalize putObject env bucket (DocumentService.storageKey contract document u'.filename) u'.content w = put
  obtain ⟨answer, w₁⟩ := put
  cases answer with
  | error e => exact sameEnd_error e w₁
  | ok _ =>
    simp only [Program.commit_apply, DocumentService.commitVersion_apply, Work.bind_apply]
    have hunsigned : ∀ key, (document.addVersion
        (DocumentService.newVersion env w₁.db.nextVersionId document connection.id key u) env.now).unsigned =
        (document.addVersion
          (DocumentService.newVersion env w₁.db.nextVersionId document connection.id key u') env.now).unsigned := by
      intro key
      simp [Document.unsigned, Document.addVersion, DocumentVersion.unsigned, DocumentService.newVersion, hcontent,
        hnotes, hprovider, hexternal]
    have hrow : ∀ key key', Row.id (document.addVersion
        (DocumentService.newVersion env w₁.db.nextVersionId document connection.id key u) env.now) =
        Row.id (document.addVersion
          (DocumentService.newVersion env w₁.db.nextVersionId document connection.id key' u') env.now) :=
      fun _ _ => rfl
    rcases save_like (f := Document.unsigned) (w := w₁) (hrow _ _) rfl
        (by simp [Stored.refs, Document.addVersion, DocumentService.newVersion]) (hunsigned _) with
      ⟨e, hsave, hsave'⟩ | ⟨t, t', _, _, hlike, hsave, hsave'⟩
    · rw [hsave, hsave']
      exact sameEnd_error e w₁
    · rw [hsave, hsave']
      exact Or.inr ⟨_, _, rfl, rfl, ⟨⟨rfl, rfl⟩, hlike, rfl, rfl⟩⟩

end

/-! ## Tools and forms -/

/-- What a tool and its form have in common: the check, and the call of the service. -/
def ToolCall.act (env : Env) (contractId : Nat) (user : User) (actor : String) (named : String → String) :
    ToolCall → Action Unit
  | .getContractState => do
    let _ ← ContractService.get contractId
    let _ ← ContractService.getInstance contractId
    let _ ← ContractService.availableActions contractId
    return ()
  | .advanceWorkflowStep actionName comment => do
    assertCanEditContractStep contractId user
    let _ ← ContractService.transitionContract env contractId actionName actor (Text.orNone comment)
    return ()
  | .addDocumentToContract name => do
    assertCanEditContractStep contractId user
    let _ ← ContractService.addDocument env contractId name
    return ()
  | .uploadDocumentVersion documentId contentText filename notes => do
    assertCanEditContractStep contractId user
    let _ ← DocumentService.uploadVersion env documentId
      ⟨contentText.toUTF8.data.toList, named filename, "text/plain", actor, Text.orNone notes, none, none⟩
    return ()

/-- The request with which a user does what the tool does. -/
def ToolCall.route (contractId : Nat) : ToolCall → Option PostRoute
  | .getContractState => none
  | .advanceWorkflowStep actionName comment => some (.executeTransition contractId actionName comment)
  | .addDocumentToContract name => some (.addDocumentToContract contractId name)
  | .uploadDocumentVersion documentId contentText filename notes =>
    some (.uploadVersion contractId documentId ⟨contentText.toUTF8.data.toList, filename, "text/plain"⟩ notes)

/-- `file.filename or "file"`. -/
def formFilename (filename : String) : String := (Text.orNone filename).getD "file"

theorem safeFilename_form (filename : String) : safeFilename (formFilename filename) = safeFilename filename := by
  unfold formFilename Text.orNone
  by_cases h : filename = ""
  · rw [if_pos h, h]
    decide
  · rw [if_neg h]
    rfl

section

variable {env : Env} {contractId : Nat} {user : User} {call : ToolCall} {w : World}

theorem check_apply {α : Type} (contractId : Nat) (user : User) (f : Unit → Action α) (w : World) :
    (liftM (assertCanEditContractStep contractId user) >>= f : Action α) w =
      match assertCanEditContractStep contractId user w with
      | .ok u => f u w
      | .error e => (.error e, w) := by
  rw [Program.bind_apply, Program.read_apply]
  cases assertCanEditContractStep contractId user w <;> rfl

theorem runTool_eq (env : Env) (contractId : Nat) (user : User) (call : ToolCall) :
    AIService.runTool env contractId user call =
      call.act env contractId user s!"AI Assistant (on behalf of {user.name})" id := by
  cases call with
  | getContractState => rfl
  | advanceWorkflowStep actionName comment => rfl
  | addDocumentToContract name => rfl
  | uploadDocumentVersion documentId contentText filename notes => rfl

/-- The names decide nothing about what a call does. -/
theorem act_alike (actor actor' : String) (named named' : String → String)
    (hnamed : ∀ filename, safeFilename (named filename) = safeFilename (named' filename)) :
    SameEnd (call.act env contractId user actor named w) (call.act env contractId user actor' named' w) := by
  cases call with
  | getContractState => exact sameEnd_refl _
  | advanceWorkflowStep actionName comment =>
    refine sameEnd_read fun _ _ => sameEnd_discard ?_
    refine sameEnd_symm (sameEnd_discard (sameEnd_symm ?_))
    exact transition_alike env w contractId actionName actor actor' _
  | addDocumentToContract name => exact sameEnd_refl _
  | uploadDocumentVersion documentId contentText filename notes =>
    refine sameEnd_read fun _ _ => sameEnd_discard ?_
    refine sameEnd_symm (sameEnd_discard (sameEnd_symm ?_))
    exact upload_alike env w documentId _ _ (hnamed filename) rfl rfl rfl rfl

theorem commit_changes {α : Type} {m : UnitOfWork α} (h : ∀ a w', m w = .ok (a, w') → w' ≠ w) (a : α)
    (hok : ((liftM m : Action α) w).1 = .ok a) : ((liftM m : Action α) w).2 ≠ w := by
  rw [Program.commit_apply] at hok ⊢
  cases hm : m w with
  | error e =>
    rw [hm] at hok
    cases hok
  | ok p => exact h p.1 p.2 hm

theorem transition_changes {actionName actor : String} {comment : Option String} {i : WorkflowInstance}
    {w' : World} (h : ContractService.transitionContract env contractId actionName actor comment w = .ok (i, w')) :
    w' ≠ w := by
  obtain ⟨before, definition, hbefore, _, hmove, hsave⟩ :=
    (ContractService.transitionContract_ok_iff env contractId actionName actor comment w w' i).mp h
  have hresult : (⟨actionName, actor, comment, env.now⟩ : WorkflowInstance.Call).result definition before =
      .ok i := hmove
  obtain ⟨_, _, _, _, _, rfl⟩ := WorkflowInstance.result_ok_iff.mp hresult
  obtain ⟨_, t, ht, rfl⟩ := (save_ok_iff _ w w').mp hsave
  have hmem := (ContractService.getInstance_ok hbefore).1
  have hstored := Table.mem_of_update ht hmem rfl
  intro hsame
  have htable : t = w.db.instances := congrArg (fun w => w.db.instances) hsame
  rw [htable] at hstored
  have heq := Table.eq_of_id hstored hmem rfl
  have hlength := congrArg (fun i => i.history.length) heq
  simp [WorkflowInstance.moved] at hlength

theorem addDocument_changes {name : String} {d : Document} {w' : World}
    (h : ContractService.addDocument env contractId name w = .ok (d, w')) : w' ≠ w := by
  obtain ⟨_, document, w₁, _, _, _, hsave, hadd⟩ := ContractService.addDocument_ok h
  obtain ⟨_, t, ht, rfl⟩ := (add_ok_iff document d w₁ w').mp hadd
  obtain ⟨_, t₁, _, rfl⟩ := (save_ok_iff _ w w₁).mp hsave
  obtain ⟨_, _, hnext⟩ := Table.insert_eq_some ht
  intro hsame
  have htable : t = w.db.documents := congrArg (fun w => w.db.documents) hsame
  rw [htable] at hnext
  exact absurd hnext (Nat.succ_ne_self _).symm

theorem upload_changes {documentId : Nat} {u : DocumentService.Upload} {v : DocumentVersion}
    (h : (DocumentService.uploadVersion env documentId u w).1 = .ok v) :
    (DocumentService.uploadVersion env documentId u w).2 ≠ w := by
  have heq : DocumentService.uploadVersion env documentId u w = Operation.upload env documentId u true w := rfl
  rw [heq] at h ⊢
  rcases DocumentService.upload_cases env documentId u true w with
    ⟨e, he⟩ | ⟨t, _, ⟨e, he⟩ | ⟨documents, _, hok⟩⟩
  · rw [he] at h
    cases h
  · rw [he] at h
    cases h
  · rw [hok]
    intro hsame
    have hids : w.db.nextVersionId + 1 = w.db.nextVersionId := congrArg (fun w => w.db.nextVersionId) hsame
    exact absurd hids (Nat.succ_ne_self _)

/-- A call of a service that succeeds changes the state. -/
theorem act_changes {actor : String} {named : String → String} (hroute : call.route contractId ≠ none)
    (h : (call.act env contractId user actor named w).1 = .ok ()) :
    (call.act env contractId user actor named w).2 ≠ w := by
  have hservice : ∀ {α : Type} (m : Action α), (∀ a, (m w).1 = .ok a → (m w).2 ≠ w) →
      ((liftM (assertCanEditContractStep contractId user) >>= fun _ => m >>= fun _ => pure () : Action Unit) w).1 =
        .ok () →
      ((liftM (assertCanEditContractStep contractId user) >>= fun _ => m >>= fun _ => pure () : Action Unit) w).2 ≠ w := by
    intro α m hm hok
    rw [check_apply] at hok ⊢
    cases hcheck : assertCanEditContractStep contractId user w with
    | error e =>
      rw [hcheck] at hok
      cases hok
    | ok u =>
      rw [hcheck] at hok
      simp only at hok ⊢
      rw [Program.bind_pure_state]
      rw [Program.bind_apply] at hok
      cases hrun : (m w).1 with
      | error e =>
        rw [hrun] at hok
        cases hok
      | ok a => exact hm a hrun
  cases call with
  | getContractState => exact absurd rfl hroute
  | advanceWorkflowStep actionName comment => exact hservice _ (commit_changes fun _ _ => transition_changes) h
  | addDocumentToContract name => exact hservice _ (commit_changes fun _ _ => addDocument_changes) h
  | uploadDocumentVersion documentId contentText filename notes => exact hservice _ (fun _ => upload_changes) h

/-- A service call is what its form submits, without the result. -/
theorem discard_checked {α : Type} (v : Viewer) (m : Action α) :
    (liftM (assertCanEditContractStep contractId v.user) >>= fun _ => m >>= fun _ => pure () : Action Unit) =
      (Forms.checked v contractId m >>= fun _ => pure ()) :=
  (bind_assoc _ _ _).symm

/-- A form of the contract page leaves what the service leaves. -/
theorem handle_world {v : Viewer} {route : PostRoute} (h : call.route contractId = some route) :
    (route.handle env v w).2 = (call.act env contractId v.user v.user.name formFilename w).2 := by
  have hdiscard : ∀ {α : Type} (m : Action α),
      ((liftM (assertCanEditContractStep contractId v.user) >>= fun _ => m >>= fun _ => pure () : Action Unit) w).2 =
        (Forms.checked v contractId m w).2 := by
    intro α m
    rw [discard_checked]
    exact Program.bind_pure_state _ _ _
  cases call with
  | getContractState => cases h
  | advanceWorkflowStep actionName comment =>
    obtain rfl := Option.some.inj h
    exact (onContract_world v env contractId _ w).trans (hdiscard _).symm
  | addDocumentToContract name =>
    obtain rfl := Option.some.inj h
    exact (onContract_world v env contractId _ w).trans (hdiscard _).symm
  | uploadDocumentVersion documentId contentText filename notes =>
    obtain rfl := Option.some.inj h
    exact (onContract_world v env contractId _ w).trans (hdiscard _).symm

/-! ## Refusals -/

/-- An error of the application leaves the state as it was. -/
def RaisesClean {α : Type} (m : Action α) (w : World) : Prop := ∀ e, (m w).1 = .error (.raised e) → (m w).2 = w

theorem raisesClean_read {α β : Type} {r : Query α} {f : α → Action β}
    (h : ∀ a, r w = .ok a → RaisesClean (f a) w) : RaisesClean (liftM r >>= f) w := by
  intro e
  rw [Program.bind_apply, Program.read_apply]
  cases hr : r w with
  | error e' => exact fun _ => rfl
  | ok a => exact h a hr e

theorem raisesClean_commit {α : Type} (m : UnitOfWork α) : RaisesClean (liftM m : Action α) w := by
  intro e
  rw [Program.commit_apply]
  cases m w with
  | error e' => exact fun _ => rfl
  | ok p => exact fun h => by cases h

theorem raisesClean_discard {α : Type} {m : Action α} {u : Unit} (h : RaisesClean m w) :
    RaisesClean (m >>= fun _ => pure u) w := by
  intro e he
  rw [Program.bind_pure_state]
  rw [Program.bind_apply] at he
  cases hm : (m w).1 with
  | error e' =>
    rw [hm] at he
    exact h e (hm.trans (congrArg _ (Except.error.inj he)))
  | ok a =>
    rw [hm] at he
    cases he

/-- After the bytes are stored, an upload fails in the database only. -/
theorem raisesClean_upload (documentId : Nat) (u : DocumentService.Upload) :
    RaisesClean (DocumentService.uploadVersion env documentId u) w := by
  unfold DocumentService.uploadVersion
  refine raisesClean_read fun target _ => ?_
  obtain ⟨document, contract, connection⟩ := target
  refine raisesClean_read fun bucket _ => ?_
  intro e he
  rw [Program.bind_apply] at he ⊢
  unfold putObject at he ⊢
  by_cases hfails : env.putFails bucket (DocumentService.storageKey contract document u.filename) = true
  · rw [if_pos hfails]
  · rw [if_neg hfails] at he
    simp only [Program.commit_apply, DocumentService.commitVersion_apply, Work.bind_apply] at he
    generalize hsave : save (document.addVersion _ env.now) _ = saved at he
    cases saved with
    | ok p => cases he
    | error failure =>
      obtain rfl := Except.error.inj he
      exact absurd ⟨e, rfl⟩ (save_error hsave)

theorem raisesClean_act (actor : String) (named : String → String) :
    RaisesClean (call.act env contractId user actor named) w := by
  cases call with
  | getContractState =>
    exact raisesClean_read fun _ _ => raisesClean_read fun _ _ => raisesClean_read fun _ _ =>
      fun _ h => by cases h
  | advanceWorkflowStep actionName comment =>
    exact raisesClean_read fun _ _ => raisesClean_discard (raisesClean_commit _)
  | addDocumentToContract name =>
    exact raisesClean_read fun _ _ => raisesClean_discard (raisesClean_commit _)
  | uploadDocumentVersion documentId contentText filename notes =>
    exact raisesClean_read fun _ _ => raisesClean_discard (raisesClean_upload _ _)

/-- A form that shows its error has had one from its service. -/
theorem submit_unprocessable {α : Type} {v : Viewer} {m : Action α} {refused : Option String → Query Page}
    {done : α → Action Response} {page : Page}
    (hdone : ∀ a w response, (done a w).1 = .ok response → response.status = 200)
    (h : (submit v m refused done w).1 = .ok (.unprocessable v page)) : ∃ e, (m w).1 = .error (.raised e) := by
  unfold submit at h
  rw [Program.bind_apply, catching_apply] at h
  cases hm : (m w).1 with
  | ok a =>
    rw [hm] at h
    exact absurd (hdone a _ _ h) (by simp [Response.unprocessable])
  | error failure =>
    cases failure with
    | raised e => exact ⟨e, rfl⟩
    | crashed c =>
      rw [hm] at h
      cases h
    | notAuthenticated nextPath =>
      rw [hm] at h
      cases h
    | termsNotAccepted =>
      rw [hm] at h
      cases h

theorem shown_status {v : Viewer} {page : Query Page} {message : String} {response : Response} {w : World}
    (h : (shown v page message w).1 = .ok response) : response.status = 200 := by
  unfold shown at h
  rw [Program.bind_apply, Program.read_apply] at h
  cases hpage : page w with
  | error e =>
    rw [hpage] at h
    cases h
  | ok p =>
    rw [hpage] at h
    obtain rfl := Except.ok.inj h
    rfl

theorem handle_unprocessable {v : Viewer} {route : PostRoute} {page : Page}
    (hroute : call.route contractId = some route)
    (h : (route.handle env v w).1 = .ok (.unprocessable v page)) :
    ∃ e, (call.act env contractId v.user v.user.name formFilename w).1 = .error (.raised e) := by
  have hdiscard : ∀ {α : Type} (m : Action α) (message : String),
      (Forms.onContract env v contractId (Forms.checked v contractId m) message w).1 = .ok (.unprocessable v page) →
      ∃ e, ((liftM (assertCanEditContractStep contractId v.user) >>= fun _ => m >>= fun _ => pure () :
        Action Unit) w).1 = .error (.raised e) := by
    intro α m message hform
    obtain ⟨e, he⟩ := submit_unprocessable (fun _ _ _ hshown => shown_status hshown) hform
    refine ⟨e, ?_⟩
    rw [discard_checked, Program.bind_apply, he]
  cases call with
  | getContractState => cases hroute
  | advanceWorkflowStep actionName comment =>
    obtain rfl := Option.some.inj hroute
    exact hdiscard _ _ h
  | addDocumentToContract name =>
    obtain rfl := Option.some.inj hroute
    exact hdiscard _ _ h
  | uploadDocumentVersion documentId contentText filename notes =>
    obtain rfl := Option.some.inj hroute
    exact hdiscard _ _ h

end

/-! ## The power of a tool call -/

/-- The user's request to the route is answered with an error on the page, or changes nothing. -/
def Refused (env : Env) (v : Viewer) (route : PostRoute) (w : World) : Prop :=
  (∃ page, (route.handle env v w).1 = .ok (.unprocessable v page)) ∨ (route.handle env v w).2 = w

/-- What a tool call changes, the user's own request would have changed the same. -/
structure NoMorePower (contractId : Nat) (user : User) (allowedTools : List String) (env : Env)
    (call : ToolCall) (w : World) : Prop where
  offered : (AIService.callTool env contractId user allowedTools call w).2 ≠ w →
    ∃ name ∈ allowedTools, call.restrictedName = some name
  handled : (AIService.callTool env contractId user allowedTools call w).2 ≠ w →
    ∃ route, call.route contractId = some route ∧ ∀ v, v.user = user →
      (AIService.callTool env contractId user allowedTools call w).2.Alike (route.handle env v w).2
  requested : (AIService.callTool env contractId user allowedTools call w).2 ≠ w →
    ∀ r v, dependencies env r w = .ok v → v.user.id = user.id → w.db.users.get user.id = some user →
      (call.route contractId).map Route.post = some r.route →
      (AIService.callTool env contractId user allowedTools call w).2.Alike (respond env r w).2
  refused : ∀ route v, call.route contractId = some route → v.user = user → Refused env v route w →
    (AIService.callTool env contractId user allowedTools call w).2 = w

section

variable {contractId : Nat} {user : User} {allowedTools : List String} {env : Env} {call : ToolCall} {w : World}

/-- A tool call is not offered and does nothing, or is offered and runs. -/
theorem callTool_world (env : Env) (contractId : Nat) (user : User) (allowedTools : List String)
    (call : ToolCall) (w : World) : (AIService.callTool env contractId user allowedTools call w).2 = w ∨
    (call.restrictedName.all (fun name => name ∈ allowedTools) = true ∧
      (AIService.callTool env contractId user allowedTools call w).2 =
        (AIService.runTool env contractId user call w).2) := by
  unfold AIService.callTool
  split
  · rename_i hoffered
    exact Or.inr ⟨hoffered, Program.tryCatch_pure_state _ _ _⟩
  · exact Or.inl rfl

theorem runTool_reads : (AIService.runTool env contractId user .getContractState w).2 = w := by
  have hread : Program.Keeps (· = w) (AIService.runTool env contractId user .getContractState) :=
    Program.keeps_after_read fun _ => Program.keeps_after_read fun _ => Program.keeps_after_read fun _ =>
      Program.keeps_pure _
  exact (hread w rfl).1

/-- The tool ends as the form's service does. -/
theorem runTool_alike (v : Viewer) (hv : v.user = user) :
    SameEnd (AIService.runTool env contractId user call w)
      (call.act env contractId v.user v.user.name formFilename w) := by
  rw [runTool_eq, hv]
  exact act_alike _ _ _ _ fun filename => (safeFilename_form filename).symm

theorem changes_of_callTool (h : (AIService.callTool env contractId user allowedTools call w).2 ≠ w) :
    ∃ name route, name ∈ allowedTools ∧ call.restrictedName = some name ∧ call.route contractId = some route ∧
      (AIService.callTool env contractId user allowedTools call w).2 =
        (AIService.runTool env contractId user call w).2 := by
  rcases callTool_world env contractId user allowedTools call w with hsame | ⟨hoffered, hrun⟩
  · exact absurd hsame h
  · cases call with
    | getContractState => exact absurd (hrun.trans runTool_reads) h
    | advanceWorkflowStep actionName comment => exact ⟨_, _, of_decide_eq_true hoffered, rfl, rfl, hrun⟩
    | addDocumentToContract name => exact ⟨_, _, of_decide_eq_true hoffered, rfl, rfl, hrun⟩
    | uploadDocumentVersion documentId contentText filename notes =>
      exact ⟨_, _, of_decide_eq_true hoffered, rfl, rfl, hrun⟩

theorem noMorePower (contractId : Nat) (user : User) (allowedTools : List String) (env : Env) (call : ToolCall)
    (w : World) : NoMorePower contractId user allowedTools env call w where
  offered h := by
    obtain ⟨name, _, hmem, hname, _⟩ := changes_of_callTool h
    exact ⟨name, hmem, hname⟩
  handled h := by
    obtain ⟨_, route, _, _, hroute, hrun⟩ := changes_of_callTool h
    refine ⟨route, hroute, fun v hv => ?_⟩
    rw [hrun, handle_world hroute]
    exact sameEnd_alike (runTool_alike v hv)
  requested h r v hv huser hget hr := by
    obtain ⟨_, route, _, _, hroute, hrun⟩ := changes_of_callTool h
    have hsame : v.user = user := by
      have hmem := (admitted_of_dependencies hv).user
      have hv' : w.db.users.get user.id = some v.user := Table.get_eq_some_iff.mpr ⟨hmem, huser⟩
      exact Option.some.inj (hv'.symm.trans hget)
    rw [hroute] at hr
    have hrespond : (respond env r w).2 = (route.handle env v w).2 := by
      simp only [respond, serve_apply, hv, ← Option.some.inj hr, Route.handle]
    rw [hrespond, hrun, handle_world hroute]
    exact sameEnd_alike (runTool_alike v hsame)
  refused route v hroute hv hrefused := by
    by_contra h
    obtain ⟨_, _, _, _, _, hrun⟩ := changes_of_callTool h
    apply h
    rw [hrun]
    have hform : (call.act env contractId v.user v.user.name formFilename w).2 = w := by
      rcases hrefused with ⟨page, hpage⟩ | hsame
      · obtain ⟨e, he⟩ := handle_unprocessable hroute hpage
        exact raisesClean_act _ _ e he
      · exact (handle_world hroute).symm.trans hsame
    rcases runTool_alike v hv with ⟨e, w', htool, hact⟩ | ⟨_, u, _, hact, _⟩
    · rw [htool]
      rw [hact] at hform
      exact hform
    · exact absurd hform (act_changes (by rw [hroute]; exact Option.some_ne_none route) hact)

end

/-! ## Runs of the assistant -/

/-- A tool call, or other requests while the assistant runs. -/
inductive AssistantEvent where
  | toolCall (env : Env) (call : ToolCall)
  | meanwhile (w : World)

namespace AssistantEvent

def next (contractId : Nat) (user : User) (allowedTools : List String) (w : World) : AssistantEvent → World
  | toolCall env call => (AIService.callTool env contractId user allowedTools call w).2
  | meanwhile w' => w'

def NoMorePower (contractId : Nat) (user : User) (allowedTools : List String) (w : World) :
    AssistantEvent → Prop
  | toolCall env call => Orchestract.NoMorePower contractId user allowedTools env call w
  | meanwhile _ => True

end AssistantEvent

/-- The tools that a run which starts now is given. -/
def offeredTools (contractId : Nat) (w : World) : List String :=
  match w.db.contracts.get contractId with
  | some contract => contract.aiConfig.allowedTools.getD assistantToolNames
  | none => []

theorem forM_toolCalls (env : Env) (contractId : Nat) (user : User) (allowedTools : List String)
    (calls : List ToolCall) (w : World) :
    (calls.forM (AIService.callTool env contractId user allowedTools) w).2 =
      Runs.run (AssistantEvent.next contractId user allowedTools) w (calls.map (AssistantEvent.toolCall env)) := by
  induction calls generalizing w with
  | nil => rfl
  | cons call calls ih =>
    rw [List.forM_eq_forM, List.forM_cons, Program.bind_apply, callTool_ok]
    exact ih _

/-- A run of the assistant is a run of the calls that the model makes, of the tools given at its start. -/
theorem runAssistant_events (env : Env) (contractId : Nat) (instruction : String) (user : User)
    (organization : Organization) (w : World) :
    ∃ calls ⊆ env.toolCalls instruction, (AIService.runAssistant env contractId instruction user organization w).2 =
      Runs.run (AssistantEvent.next contractId user (offeredTools contractId w)) w
        (calls.map (AssistantEvent.toolCall env)) := by
  unfold AIService.runAssistant
  rcases Program.after_read (ContractService.get contractId) _ w with h | ⟨contract, hcontract, h⟩
  · exact ⟨[], List.nil_subset _, h⟩
  rw [h]
  rcases Program.after_read (raising (AIService.requireEnabled env organization contract)) _ w with h | ⟨_, _, h⟩
  · exact ⟨[], List.nil_subset _, h⟩
  rcases Program.after_read (raising (raiseIf (¬ env.settings.aiEnabled) (DomainError.aiUnavailable
    "The AI assistant isn't configured -- set ANTHROPIC_API_KEY to enable it"))) _ w with h' | ⟨_, _, h'⟩
  · exact ⟨[], List.nil_subset _, h.trans h'⟩
  have hoffered : offeredTools contractId w = contract.aiConfig.allowedTools.getD assistantToolNames := by
    have hget : w.db.contracts.get contractId = some contract := (require_ok_iff _ _ _ _).mp hcontract
    unfold offeredTools
    rw [hget]
  refine ⟨env.toolCalls instruction, List.Subset.refl _, ?_⟩
  rw [hoffered]
  refine (h.trans h').trans ?_
  rw [Program.bind_pure_state]
  exact forM_toolCalls _ _ _ _ _ w

/-- Whatever the assistant does, its user could have done. -/
theorem assistant_noMorePower (contractId : Nat) (user : User) (w : World) :
    (∀ events : List AssistantEvent, Runs.Along (AssistantEvent.next contractId user (offeredTools contractId w))
      (fun w' e => e.NoMorePower contractId user (offeredTools contractId w) w') w events) ∧
    ∀ (env : Env) (instruction : String) (organization : Organization), ∃ calls : List ToolCall,
      (AIService.runAssistant env contractId instruction user organization w).2 =
        Runs.run (AssistantEvent.next contractId user (offeredTools contractId w)) w
          (calls.map (AssistantEvent.toolCall env)) := by
  refine ⟨fun events => Runs.along_of_forall (fun w' e => ?_) w events, fun env instruction organization => ?_⟩
  · cases e with
    | toolCall env call => exact noMorePower contractId user (offeredTools contractId w) env call w'
    | meanwhile _ => trivial
  · obtain ⟨calls, _, hcalls⟩ := runAssistant_events env contractId instruction user organization w
    exact ⟨calls, hcalls⟩

end Orchestract
