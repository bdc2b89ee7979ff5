import Orchestract.Audit.Record
import Orchestract.Sharing.Disclosure

/-!
# What the summaries say

The summaries that are stored with contracts and documents, over any history: each is what the
language model answered to the last request for it that got through, and only those get through that
the plan, the server and the contract allow.
-/

namespace Orchestract

set_option autoImplicit false

/-- The stored summary and the time it was made. -/
def Contract.said (c : Contract) : Option String × Option Nat := (c.summary, c.summaryGeneratedAt)

def Document.said (d : Document) : Option String × Option Nat := (d.summary, d.summaryGeneratedAt)

/-- What a summary is about. -/
inductive Subject where
  | contract (id : Nat)
  | document (id : Nat)
deriving DecidableEq, Repr

namespace Subject

/-- What is stored about it, if it is there. -/
def stored (w : World) : Subject → Option (Option String × Option Nat)
  | contract id => (w.db.contracts.get id).map Contract.said
  | document id => (w.db.documents.get id).map Document.said

/-- The contract that it belongs to. -/
def contractOf (w : World) : Subject → Option Contract
  | contract id => w.db.contracts.get id
  | document id => (w.db.documents.get id).bind fun d => w.db.contracts.get d.contractId

/-- What the language model answers. -/
def answer (env : Env) (organization : Organization) : Subject → Query String
  | contract id => AIService.contractSummary env id organization
  | document id => AIService.documentSummary env id organization

def summarize (env : Env) (organization : Organization) : Subject → Action Unit
  | contract id => do
    let _ ← AIService.summarizeContract env id organization
    return ()
  | document id => do
    let _ ← AIService.summarizeDocument env id organization
    return ()

/-- The call that stores a summary. -/
def store (text : String) : Subject → Operation
  | contract id => .setContractSummary id text
  | document id => .setDocumentSummary id text

end Subject

/-- The calls by which requests for summaries store what they have got. -/
def Change.storesSummary : Change → Bool
  | .call ⟨_, .setContractSummary ..⟩ | .call ⟨_, .setDocumentSummary ..⟩ => true
  | _ => false

/-- A request for a summary, or a change that is none. -/
inductive SummaryEvent where
  | change (c : Change)
  | summarize (env : Env) (organization : Organization) (subject : Subject)

namespace SummaryEvent

def next (s : System) : SummaryEvent → System
  | change c => s.next c
  | summarize env organization subject => { s with world := (subject.summarize env organization s.world).2 }

/-- Only the requests store summaries, and an organization asks that there is. -/
def Serves (s : System) : SummaryEvent → Prop
  | change c => c.storesSummary = false
  | summarize _ organization _ => organization ∈ s.world.db.organizations.rows

instance (s : System) : ∀ e : SummaryEvent, Decidable (e.Serves s)
  | change c => inferInstanceAs (Decidable (c.storesSummary = false))
  | summarize _ organization _ => inferInstanceAs (Decidable (organization ∈ s.world.db.organizations.rows))

end SummaryEvent

/-- Summaries are allowed: the plan includes AI, the server can summarize, and the contract has not
turned AI off. -/
def Summarizable (env : Env) (organization : Organization) (w : World) (subject : Subject) : Prop :=
  ∃ contract, subject.contractOf w = some contract ∧ organization.plan.limits.aiEnabled = true ∧
    env.settings.geminiEnabled = true ∧ contract.aiConfig.enabled ≠ some false

/-- The request is allowed, and this is what the model answers. -/
def Obtains (subject : Subject) (text : String) (time : Nat) (s : System) (e : SummaryEvent) : Prop :=
  ∃ env organization, e = .summarize env organization subject ∧ env.now = time ∧
    organization ∈ s.world.db.organizations.rows ∧ Summarizable env organization s.world subject ∧
    subject.answer env organization s.world = .ok text

/-- The model answers a request about the subject. -/
def Obtained (subject : Subject) (s : System) (e : SummaryEvent) : Prop :=
  ∃ text time, Obtains subject text time s e

variable {env : Env} {organization : Organization} {subject : Subject} {text : String} {time : Nat} {s : System}
  {w : World} {v : Option String × Option Nat}

/-! ## Requests -/

theorem requireSummaries_ok {contract : Contract} {u : Unit}
    (h : AIService.requireSummaries env organization contract = .ok u) : organization.plan.limits.aiEnabled = true ∧
      env.settings.geminiEnabled = true ∧ contract.aiConfig.enabled ≠ some false := by
  simp only [AIService.requireSummaries, AIService.requireEnabled, bind_ok_iff, raiseIf_ok_iff, not_not] at h
  obtain ⟨_, havailable, hgemini⟩ := h
  simp only [AIService.isAvailable, Bool.and_eq_true, decide_eq_true_eq] at havailable
  exact ⟨havailable.1.1, hgemini, havailable.2⟩

/-- The model is asked only where summaries are allowed. -/
theorem summarizable_of_answer (h : subject.answer env organization w = .ok text) :
    Summarizable env organization w subject := by
  cases subject with
  | contract id =>
    simp only [Subject.answer, AIService.contractSummary, ContractService.get, Read.bind_ok_iff, require_ok_iff,
      lift_query_ok_iff] at h
    obtain ⟨contract, hcontract, _, hallowed, _⟩ := h
    exact ⟨contract, hcontract, requireSummaries_ok hallowed⟩
  | document id =>
    simp only [Subject.answer, AIService.documentSummary, DocumentService.get, ContractService.get, Read.bind_ok_iff,
      require_ok_iff, lift_query_ok_iff] at h
    obtain ⟨document, hdocument, contract, hcontract, _, hallowed, _⟩ := h
    refine ⟨contract, ?_, requireSummaries_ok hallowed⟩
    have hget : w.db.documents.get id = some document := hdocument
    unfold Subject.contractOf
    dsimp only
    rw [hget]
    exact hcontract

/-- A read, and a unit of work that stores what it has found. -/
theorem world_stored {α : Type} (r : Query String) (m : String → UnitOfWork α) (s : System) :
    { s with world := ((liftM r >>= fun text => liftM (m text) : Action α) s.world).2 } =
      match r s.world with
      | .ok text => s.commit (m text)
      | .error _ => s := by
  rw [Program.bind_apply, Program.read_apply]
  cases r s.world with
  | error e => rfl
  | ok text =>
    dsimp only
    unfold System.commit
    rw [Program.commit_apply, unit_apply]
    cases m text s.world <;> rfl

/-- A request that gets an answer stores it, and any other changes nothing. -/
theorem next_summarize (s : System) : (SummaryEvent.summarize env organization subject).next s =
    match subject.answer env organization s.world with
    | .ok text => s.next (.call ⟨env, subject.store text⟩)
    | .error _ => s := by
  cases subject with
  | contract id =>
    have hstate : (SummaryEvent.summarize env organization (.contract id)).next s =
        { s with world := (AIService.summarizeContract env id organization s.world).2 } :=
      congrArg (fun w => { s with world := w }) (Program.bind_pure_state _ _ _)
    rw [hstate]
    exact world_stored (AIService.contractSummary env id organization) (ContractService.setSummary env id) s
  | document id =>
    have hstate : (SummaryEvent.summarize env organization (.document id)).next s =
        { s with world := (AIService.summarizeDocument env id organization s.world).2 } :=
      congrArg (fun w => { s with world := w }) (Program.bind_pure_state _ _ _)
    rw [hstate]
    exact world_stored (AIService.documentSummary env id organization) (DocumentService.setSummary env id) s

/-! ## Changes -/

/-- The rows keep what they say, and new ones say nothing. -/
def Table.Says {α : Type} [Row α] (said : α → Option String × Option Nat) (t t' : Table α) : Prop :=
  t.Evolves (fun r r' => said r' = said r) (fun r => said r = (none, none)) t'

section

variable {α : Type} [Row α] {said : α → Option String × Option Nat} {t t₁ t' : Table α}

theorem Table.says_refl (t : Table α) : t.Says said t :=
  Table.evolves_refl (R := fun r r' => said r' = said r) (fun _ => rfl) t

theorem Table.says_of_eq (h : t' = t) : t.Says said t' := by
  rw [h]
  exact Table.says_refl t

theorem Table.says_trans (h : t.Says said t₁) (h' : t₁.Says said t') : t.Says said t' :=
  Table.evolves_trans (fun hab hbc => hbc.trans hab) (fun ha hab => hab.trans ha) h h'

theorem Table.says_update {a r : α} (h : t.update a = some t') (hr : r ∈ t.rows) (hid : Row.id a = Row.id r)
    (hsaid : said a = said r) : t.Says said t' :=
  Table.evolves_update (fun _ => rfl) h hr hid hsaid

theorem Table.says_insert {a : α} (hwith : ∀ n, said (Row.withId n a) = said a) {new : α}
    (h : t.insert a = some (new, t')) (hsaid : said a = (none, none)) : t.Says said t' := by
  refine Table.evolves_insert (fun _ => rfl) h ?_
  obtain ⟨hnew, _, _⟩ := Table.insert_eq_some h
  rw [hnew, hwith, hsaid]

/-- A row that is written says what is written. -/
theorem Table.said_update {a r : α} (h : t.update a = some t') {id : Nat} (hget : t.get id = some r)
    (hid : Row.id a = Row.id r) (id' : Nat) :
    (t'.get id').map said = if id' = id then some (said a) else (t.get id').map said := by
  obtain ⟨_, rfl⟩ := Table.get_eq_some_iff.mp hget
  rw [Table.get_update h, hid]
  split_ifs with heq
  · rw [heq, hget]
    rfl
  · rfl

theorem Table.Says.get_iff (h : t.Says said t') {id : Nat} {v : Option String × Option Nat} (hv : v ≠ (none, none)) :
    (t'.get id).map said = some v ↔ (t.get id).map said = some v :=
  Table.Evolves.map_get_iff h fun _ hr hsaid => hv (hsaid.symm.trans hr)

end

theorem addDocument_said {c c' : Contract} {name : String} {now : Nat} {d : Document}
    (h : c.addDocument name now = .ok (c', d)) : d.said = (none, none) := by
  simp only [Contract.addDocument, Document.create, bind_ok_iff, return_ok_iff, Prod.mk.injEq] at h
  obtain ⟨_, ⟨_, _, rfl⟩, rfl, rfl⟩ := h
  rfl

/-- A new contract says nothing, nor does its document. -/
theorem says_createContract {organizationId workflowDefinitionId : Nat} {title contractType actor : String}
    {description : Option String} {contract : Contract} {w' : World}
    (h : ContractService.createContract env organizationId title contractType workflowDefinitionId actor
      description w = .ok (contract, w')) :
    w.db.contracts.Says Contract.said w'.db.contracts ∧ w.db.documents.Says Document.said w'.db.documents := by
  simp only [ContractService.createContract, OrganizationService.get, WorkflowService.get,
    Work.bind_ok_iff, Work.lift_ok_iff, lift_work_ok_iff, Work.pure_ok_iff] at h
  obtain ⟨_, _, ⟨_, rfl⟩, _, _, ⟨_, rfl⟩, _, _, ⟨_, rfl⟩, k, _, ⟨hk, rfl⟩, ⟨k', d⟩, _, ⟨hd, rfl⟩, _, w₁, hks, _, w₂,
    hds, _, _, ⟨_, rfl⟩, _, w₃, his, _, rfl⟩ := h
  have hsaid := addDocument_said hd
  obtain ⟨_, rfl⟩ := contract_create_ok_iff.mp hk
  obtain ⟨rfl, _, _⟩ := addDocument_fields hd
  obtain ⟨_, ks, hks', rfl⟩ := (add_ok_iff _ _ w w₁).mp hks
  obtain ⟨_, ds, hds', rfl⟩ := (add_ok_iff _ _ _ w₂).mp hds
  obtain ⟨_, is, _, rfl⟩ := (add_ok_iff _ _ _ w₃).mp his
  exact ⟨Table.says_insert (fun _ => rfl) hks' rfl, Table.says_insert (fun _ => rfl) hds' hsaid⟩

theorem says_addDocument {contractId : Nat} {name : String} {new : Document} {w' : World}
    (h : ContractService.addDocument env contractId name w = .ok (new, w')) :
    w.db.contracts.Says Contract.said w'.db.contracts ∧ w.db.documents.Says Document.said w'.db.documents := by
  simp only [ContractService.addDocument, ContractService.get, Work.bind_ok_iff, Work.lift_ok_iff,
    require_ok_iff, lift_work_ok_iff] at h
  obtain ⟨c, _, ⟨hc, rfl⟩, ⟨c', d⟩, _, ⟨hd, rfl⟩, ⟨⟩, w₁, hsave, hadd⟩ := h
  obtain ⟨rfl, _, _⟩ := addDocument_fields hd
  obtain ⟨_, ks, hks, rfl⟩ := (save_ok_iff _ w w₁).mp hsave
  obtain ⟨_, ds, hds, rfl⟩ := (add_ok_iff d new _ w').mp hadd
  have hmem : c ∈ w.db.contracts.rows := (Table.get_eq_some_iff.mp hc).1
  exact ⟨Table.says_update hks hmem rfl rfl, Table.says_insert (fun _ => rfl) hds (addDocument_said hd)⟩

theorem contracts_say (s : System) {c : Change} (hc : c.storesSummary = false) :
    s.world.db.contracts.Says Contract.said (s.next c).world.db.contracts := by
  by_cases hsite : Site.contracts ∈ c.footprint
  · cases c with
    | call i =>
      obtain ⟨env, operation⟩ := i
      cases operation with
      | createContract organizationId title contractType workflowDefinitionId actor description =>
        exact unit_world (fun _ _ hm => (says_createContract hm).1) (Table.says_refl _)
      | addDocument contractId name =>
        exact unit_world (fun _ _ hm => (says_addDocument hm).1) (Table.says_refl _)
      | setContractSummary id text => cases hc
      | setAIConfig contractId enabled model instructions allowedTools =>
        refine unit_world (I := fun w => s.world.db.contracts.Says Contract.said w.db.contracts) (fun _ w' hm => ?_)
          (Table.says_refl _)
        simp only [ContractService.setAIConfig, Work.bind_ok_iff, lift_work_ok_iff] at hm
        obtain ⟨_, _, ⟨_, rfl⟩, hm⟩ := hm
        obtain ⟨contract, hget, hmethod, hsave⟩ := (change_ok_iff _ _ _ _ _ _).mp hm
        obtain rfl := Except.ok.inj hmethod
        obtain ⟨_, t, ht, rfl⟩ := (save_ok_iff _ _ w').mp hsave
        exact Table.says_update ht (Table.get_eq_some_iff.mp hget).1 rfl rfl
      | _ => simp [Change.footprint, Operation.footprint] at hsite
    | _ => simp [Change.footprint] at hsite
  · exact Table.says_of_eq (next_same (n := .contracts) hsite)

theorem documents_say (s : System) {c : Change} (hc : c.storesSummary = false) :
    s.world.db.documents.Says Document.said (s.next c).world.db.documents := by
  by_cases hsite : Site.documents ∈ c.footprint
  · cases c with
    | call i =>
      by_cases hupload : i.operation.isUpload = true
      · refine perform_uploads (I := fun t _ => s.world.db.documents.Says Document.said t) ?_ hupload (Table.says_refl _)
        intro t t' _ d v now ht hd _ hupdate
        exact Table.says_trans ht (Table.says_update hupdate hd rfl rfl)
      · obtain ⟨env, operation⟩ := i
        cases operation with
        | createContract organizationId title contractType workflowDefinitionId actor description =>
          exact unit_world (fun _ _ hm => (says_createContract hm).2) (Table.says_refl _)
        | addDocument contractId name =>
          exact unit_world (fun _ _ hm => (says_addDocument hm).2) (Table.says_refl _)
        | setDocumentSummary id text => cases hc
        | uploadVersion | importVersion => exact absurd rfl hupload
        | _ => simp [Change.footprint, Operation.footprint] at hsite
    | _ => simp [Change.footprint] at hsite
  · exact Table.says_of_eq (next_same (n := .documents) hsite)

/-- A change that is no request leaves every summary as it is. -/
theorem stored_change {c : Change} (hc : (SummaryEvent.change c).Serves s) (hv : v ≠ (none, none)) :
    subject.stored (s.next c).world = some v ↔ subject.stored s.world = some v := by
  cases subject with
  | contract id => exact (contracts_say s hc).get_iff hv
  | document id => exact (documents_say s hc).get_iff hv

/-! ## Summaries -/

/-- A row that is there is changed beside its keys and references. -/
theorem commit_change {α : Type} [Row α] [Stored α] [Held α] [Sited α] {s : System} (hs : Sound s.world)
    (what : String) {id : Nat} (method : α → α) {r : α} (hget : (Stored.table s.world.db : Table α).get id = some r)
    (hid : Row.id (method r) = Row.id r) (hkeys : Row.keys (method r) = Row.keys r)
    (hrefs : Stored.refs (method r) = Stored.refs r)
    (hown : s.world.db.refsAt (Sited.site α) = (Stored.table s.world.db : Table α).rows.flatMap Stored.refs := by rfl) :
    ∃ t, (Stored.table s.world.db : Table α).update (method r) = some t ∧
      s.commit (change what id fun r => .ok (method r)) =
        { s with world := { s.world with db := Stored.withTable s.world.db t } } := by
  have hmem := (Table.get_eq_some_iff.mp hget).1
  have hexist : refsExist (method r) s.world.db = true := by
    unfold refsExist
    rw [hrefs]
    exact hs.refsExist hmem hown
  obtain ⟨w', hsave⟩ := save_same_keys hmem hid hkeys hexist
  have hchange : change what id (fun r => .ok (method r)) s.world = .ok (method r, w') :=
    (change_ok_iff _ _ _ _ _ _).mpr ⟨r, hget, rfl, hsave⟩
  obtain ⟨_, t, ht, rfl⟩ := (save_ok_iff _ _ w').mp hsave
  refine ⟨t, ht, ?_⟩
  unfold System.commit
  rw [unit_apply, hchange]

/-- An answer is about what is there. -/
theorem stored_of_answer (h : subject.answer env organization w = .ok text) : (subject.stored w).isSome = true := by
  cases subject with
  | contract id =>
    obtain ⟨contract, hcontract, _⟩ := summarizable_of_answer h
    have hget : w.db.contracts.get id = some contract := hcontract
    simp [Subject.stored, hget]
  | document id =>
    obtain ⟨contract, hcontract, _⟩ := summarizable_of_answer h
    obtain ⟨document, hget, _⟩ := Option.bind_eq_some_iff.mp hcontract
    simp [Subject.stored, hget]

/-- What is stored is said about the subject of the request, and all else is as it was. -/
theorem stored_store (hs : Sound s.world) (h : (subject.stored s.world).isSome = true) (other : Subject) :
    other.stored (s.next (.call ⟨env, subject.store text⟩)).world =
      if other = subject then some (some text, some env.now) else other.stored s.world := by
  cases subject with
  | contract id =>
    obtain ⟨c, hget⟩ := Option.isSome_iff_exists.mp (Option.isSome_map.symm.trans h)
    obtain ⟨t, ht, hcommit⟩ := commit_change hs "contract" (fun c => c.setSummary text env.now) hget rfl rfl rfl
    have hnext : s.next (.call ⟨env, .setContractSummary id text⟩) =
        { s with world := { s.world with db := { s.world.db with contracts := t } } } := hcommit
    unfold Subject.store
    rw [hnext]
    cases other with
    | contract id' =>
      simp only [Subject.contract.injEq]
      exact Table.said_update ht hget rfl id'
    | document id' => rfl
  | document id =>
    obtain ⟨d, hget⟩ := Option.isSome_iff_exists.mp (Option.isSome_map.symm.trans h)
    obtain ⟨t, ht, hcommit⟩ := commit_change hs "document" (fun d => d.setSummary text env.now) hget rfl rfl rfl
    have hnext : s.next (.call ⟨env, .setDocumentSummary id text⟩) =
        { s with world := { s.world with db := { s.world.db with documents := t } } } := hcommit
    unfold Subject.store
    rw [hnext]
    cases other with
    | contract id' => rfl
    | document id' =>
      simp only [Subject.document.injEq]
      exact Table.said_update ht hget rfl id'

theorem stored_initial (files : Bucket → String → Option Bytes) : subject.stored (System.initial files).world = none := by
  cases subject <;> rfl

theorem sound_next (hs : Sound s.world) (e : SummaryEvent) : Sound (e.next s).world := by
  cases e with
  | change c => exact next_keeps (fun site _ => keptBy_sound site) hs
  | summarize env organization subject =>
    rw [next_summarize]
    cases subject.answer env organization s.world with
    | ok text => exact next_keeps (fun site _ => keptBy_sound site) hs
    | error e => exact hs

/-- What stays as it is where nothing is obtained. -/
theorem iff_of_not_obtained {P : Prop} {e : SummaryEvent} (h : ¬ Obtained subject s e) :
    P ↔ Obtains subject text time s e ∨ P ∧ ¬ Obtained subject s e := by
  constructor
  · exact fun hP => Or.inr ⟨hP, h⟩
  · rintro (hobtains | ⟨hP, _⟩)
    · exact absurd ⟨text, time, hobtains⟩ h
    · exact hP

/-- A summary is that of the request that obtains it, until another one does. -/
theorem stored_next {e : SummaryEvent} (hs : Sound s.world) (he : e.Serves s) :
    subject.stored (e.next s).world = some (some text, some time) ↔
      Obtains subject text time s e ∨
        subject.stored s.world = some (some text, some time) ∧ ¬ Obtained subject s e := by
  cases e with
  | change c =>
    have hnot : ¬ Obtained subject s (.change c) := by
      rintro ⟨_, _, _, _, heq, _⟩
      cases heq
    exact (stored_change he (by simp)).trans (iff_of_not_obtained hnot)
  | summarize env organization asked =>
    rw [next_summarize]
    cases hanswer : asked.answer env organization s.world with
    | error e =>
      have hnot : ¬ Obtained subject s (.summarize env organization asked) := by
        rintro ⟨_, _, _, _, heq, _, _, _, hok⟩
        cases heq
        rw [hanswer] at hok
        cases hok
      exact iff_of_not_obtained hnot
    | ok answer =>
      dsimp only
      rw [stored_store hs (stored_of_answer hanswer)]
      split_ifs with heq
      · obtain rfl := heq
        have hobtains : Obtains subject answer env.now s (.summarize env organization subject) :=
          ⟨env, organization, rfl, rfl, he, summarizable_of_answer hanswer, hanswer⟩
        constructor
        · intro h
          obtain ⟨htext, htime⟩ := Prod.mk.inj (Option.some.inj h)
          obtain rfl := Option.some.inj htext
          obtain rfl := Option.some.inj htime
          exact Or.inl hobtains
        · rintro (⟨_, _, heq, htime, _, _, hok⟩ | ⟨_, hnot⟩)
          · cases heq
            obtain rfl := Except.ok.inj (hanswer.symm.trans hok)
            rw [htime]
          · exact absurd ⟨_, _, hobtains⟩ hnot
      · have hnot : ¬ Obtained subject s (.summarize env organization asked) := by
          rintro ⟨_, _, _, _, heq', _⟩
          cases heq'
          exact heq rfl
        exact iff_of_not_obtained hnot

/-- A stored summary is what the model answered to the last request for it that got an answer, at a time
when summaries were allowed. -/
theorem summary_iff {files : Bucket → String → Option Bytes} {events : List SummaryEvent}
    (h : Runs.Along SummaryEvent.next SummaryEvent.Serves (.initial files) events) :
    subject.stored (Runs.run SummaryEvent.next (.initial files) events).world = some (some text, some time) ↔
      Runs.Since SummaryEvent.next (Obtains subject text time) (Obtained subject) (.initial files) events :=
  Runs.flag_iff (P := fun s : System => subject.stored s.world = some (some text, some time))
    (I := fun s => Sound s.world) (C := SummaryEvent.Serves) (fun _ e hs _ => sound_next hs e)
    (fun _ _ hs he => stored_next hs he) (sound_after files []) (by rw [stored_initial]; nofun) h

/-- Acme goes on the team plan, and Alice asks for a summary of the lease. -/
def leaseOnTeam : List SummaryEvent := (leaseDrafts.map Change.call ++ [Change.setPlan 1 .team]).map .change

def asksForLease : SummaryEvent := .summarize (modelEnv 4 fun _ => some "A lease.") acmeTeam (.contract 1)

theorem summary_iff_lease : (Subject.contract 1).stored (Runs.run SummaryEvent.next (.initial fun _ _ => none)
    (leaseOnTeam ++ [asksForLease])).world = some (some "A lease.", some 4) := by
  have hanswer : (Subject.contract 1).answer (modelEnv 4 fun _ => some "A lease.") acmeTeam
      (Runs.run SummaryEvent.next (.initial fun _ _ => none) leaseOnTeam).world = .ok "A lease." := by decide +kernel
  refine (summary_iff (by decide +kernel)).mpr ⟨leaseOnTeam, asksForLease, [], rfl, ?_, trivial⟩
  exact ⟨_, _, rfl, rfl, by decide +kernel, summarizable_of_answer hanswer, hanswer⟩

end Orchestract
