import Orchestract.Domain.Contracts
import Orchestract.Domain.Users
import Orchestract.Domain.WorkflowInstance
import Orchestract.Library.Programs

/-!
# The database and the outside world

The tables with their unique constraints and foreign keys, the bytes in the storage backends,
and what the process is told from outside. `find`, `select`, `add` and `save` are the session's
`get`, `select`, `add` and the flush of a changed row. Foreign keys are enforced, as in PostgreSQL;
the SQLite of development does not enforce them. Values are taken to fit their columns.
-/

namespace Orchestract

set_option autoImplicit false

instance : Row WorkflowDefinition where
  id := WorkflowDefinition.id
  withId n d := { d with id := n }
  keys d := [⟨"uq_workflow_org_slug", d.organizationId, d.slug⟩]
  id_withId _ _ := rfl

instance : Row WorkflowInstance where
  id := WorkflowInstance.id
  withId n i := { i with id := n }
  keys _ := []
  id_withId _ _ := rfl

structure Database where
  organizations : Table Organization
  users : Table User
  roles : Table Role
  agents : Table Agent
  definitions : Table WorkflowDefinition
  contracts : Table Contract
  documents : Table Document
  instances : Table WorkflowInstance
  shareLinks : Table ShareLink
  connections : Table StorageConnection
  sessions : Table UserSession
  acceptances : Table TermsAcceptance
  nextVersionId : Nat

def Database.empty : Database :=
  ⟨.empty, .empty, .empty, .empty, .empty, .empty, .empty, .empty, .empty, .empty, .empty, .empty, 1⟩

/-- The tables that rows refer to. -/
inductive Kind where
  | organization
  | user
  | role
  | agent
  | definition
  | contract
  | document
  | shareLink
  | connection
deriving DecidableEq, Repr

structure Ref where
  kind : Kind
  id : Nat
deriving DecidableEq, Repr

def Database.has (db : Database) (ref : Ref) : Bool :=
  match ref.kind with
  | .organization => (db.organizations.get ref.id).isSome
  | .user => (db.users.get ref.id).isSome
  | .role => (db.roles.get ref.id).isSome
  | .agent => (db.agents.get ref.id).isSome
  | .definition => (db.definitions.get ref.id).isSome
  | .contract => (db.contracts.get ref.id).isSome
  | .document => (db.documents.get ref.id).isSome
  | .shareLink => (db.shareLinks.get ref.id).isSome
  | .connection => (db.connections.get ref.id).isSome

/-- A mapped class: its table and its foreign keys. -/
class Stored (α : Type) [Row α] where
  table : Database → Table α
  withTable : Database → Table α → Database
  refs : α → List Ref

instance : Stored Organization := ⟨Database.organizations,
  fun db t => { db with organizations := t }, fun _ => []⟩

instance : Stored User := ⟨Database.users, fun db t => { db with users := t },
  fun u => [⟨.organization, u.organizationId⟩, ⟨.role, u.roleId⟩]⟩

instance : Stored Role := ⟨Database.roles, fun db t => { db with roles := t },
  fun r => ⟨.organization, r.organizationId⟩ :: r.agentId.toList.map (⟨.agent, ·⟩)⟩

instance : Stored Agent := ⟨Database.agents, fun db t => { db with agents := t },
  fun a => [⟨.organization, a.organizationId⟩]⟩

instance : Stored WorkflowDefinition := ⟨Database.definitions, fun db t => { db with definitions := t },
  fun d => ⟨.organization, d.organizationId⟩ :: d.steps.map (⟨.agent, ·.agentId⟩)⟩

instance : Stored Contract := ⟨Database.contracts, fun db t => { db with contracts := t },
  fun c => [⟨.organization, c.organizationId⟩]⟩

instance : Stored Document := ⟨Database.documents, fun db t => { db with documents := t },
  fun d => ⟨.contract, d.contractId⟩ :: d.versions.map (⟨.connection, ·.storageConnectionId⟩)⟩

instance : Stored WorkflowInstance := ⟨Database.instances, fun db t => { db with instances := t },
  fun i => [⟨.contract, i.contractId⟩, ⟨.definition, i.workflowDefinitionId⟩]⟩

instance : Stored ShareLink := ⟨Database.shareLinks, fun db t => { db with shareLinks := t },
  fun l => ⟨.contract, l.contractId⟩ :: l.documents.map (⟨.document, ·⟩)⟩

instance : Stored StorageConnection := ⟨Database.connections, fun db t => { db with connections := t },
  fun c => [⟨.organization, c.organizationId⟩]⟩

instance : Stored UserSession := ⟨Database.sessions, fun db t => { db with sessions := t },
  fun s => [⟨.user, s.userId⟩]⟩

instance : Stored TermsAcceptance := ⟨Database.acceptances, fun db t => { db with acceptances := t },
  fun a => [⟨.user, a.userId⟩, ⟨.organization, a.organizationId⟩]⟩

abbrev Bytes := List UInt8

structure World where
  db : Database
  files : Bucket → String → Option Bytes

/-- Exceptions that no handler of the application catches. -/
inductive Crash where
  | integrityError
  | multipleResultsFound
  | keyError
  | valueError
  | indexError
  | attributeError
  | typeError
  | externalError
deriving DecidableEq, Repr

inductive Failure where
  | raised (e : DomainError)
  | crashed (c : Crash)
  | notAuthenticated (nextPath : String)
  | termsNotAccepted
deriving DecidableEq, Repr

abbrev Query := Read World Failure

abbrev UnitOfWork := Work World Failure

abbrev Action := Program World Failure

/-- A domain method called from a service. -/
def raising {α : Type} (x : Except DomainError α) : Query α := fun _ =>
  match x with
  | .ok a => .ok a
  | .error e => .error (.raised e)

instance : MonadLift (Except DomainError) (Read World Failure) := ⟨raising⟩

/-- A call the language model makes while it runs the assistant. -/
inductive ToolCall where
  | getContractState
  | advanceWorkflowStep (actionName comment : String)
  | addDocumentToContract (name : String)
  | uploadDocumentVersion (documentId : Nat) (contentText filename notes : String)
deriving DecidableEq, Repr

structure Settings where
  appBaseUrl : String
  localStorageRoot : String
  googleOauthClientId : String
  microsoftOauthClientId : String
  stripeSecretKey : String
  stripePriceTeam : String
  stripePriceBusiness : String
  geminiEnabled : Bool
  aiEnabled : Bool
deriving DecidableEq, Repr

/-- The clock, the settings, fresh random values and the answers of other services during one
request. `None` is an error of the other service. -/
structure Env where
  now : Nat
  settings : Settings
  randomToken : String
  hashPassword : String → String
  verifyPassword : String → String → Bool
  jsonLoads : String → Option String
  putFails : Bucket → String → Bool
  authorizationUrl : StorageProvider → String → String
  listFiles : StorageProvider → OAuthTokens → Option String → Option (List ExternalFile)
  downloadFile : StorageProvider → OAuthTokens → String → Option (Bytes × String × String)
  generateSummary : List String → Option String
  documentPart : Bytes → String → String → String
  checkoutUrl : Option String → Option String → String → String → Option String
  portalUrl : String → String → Option String
  toolCalls : String → List ToolCall

section

variable {α : Type} [Row α] [Stored α]

def find (id : Nat) : Query (Option α) := fun w => .ok ((Stored.table w.db).get id)

def select (p : α → Bool) : Query (List α) := fun w => .ok ((Stored.table w.db).select p)

/-- `scalar_one_or_none()`. -/
def oneOrNone (p : α → Bool) : Query (Option α) := do
  match ← select p with
  | [] => return none
  | [a] => return some a
  | _ => throw (.crashed .multipleResultsFound)

/-- The row of an id, which every service's `get` raises for when there is none. -/
def require (what : String) (id : Nat) : Query α := do
  orRaise (DomainError.missing what id) (← find id)

def refsExist (a : α) (db : Database) : Bool := (Stored.refs a).all db.has

/-- `INSERT`, with the id the table gives the row. -/
def add (a : α) : UnitOfWork α := fun w =>
  if refsExist a w.db then
    match (Stored.table w.db).insert a with
    | some (new, t) => .ok (new, { w with db := Stored.withTable w.db t })
    | none => .error (.crashed .integrityError)
  else .error (.crashed .integrityError)

/-- `UPDATE` of a row that was loaded and changed. -/
def save (a : α) : UnitOfWork Unit := fun w =>
  if refsExist a w.db then
    match (Stored.table w.db).update a with
    | some t => .ok ((), { w with db := Stored.withTable w.db t })
    | none => .error (.crashed .integrityError)
  else .error (.crashed .integrityError)

/-- Load a row by its id, apply a domain method to it and commit. -/
def change (what : String) (id : Nat) (method : α → Except DomainError α) : UnitOfWork α := do
  let row ← (require what id : Query α)
  let row ← method row
  save row
  return row

end

/-! ## What they do -/

@[simp] theorem raising_ok_iff {α : Type} (x : Except DomainError α) (w : World) (a : α) :
    raising x w = .ok a ↔ x = .ok a := by
  cases x <;> simp [raising]

@[simp] theorem lift_query_ok_iff {α : Type} (x : Except DomainError α) (w : World) (a : α) :
    (liftM x : Query α) w = .ok a ↔ x = .ok a := raising_ok_iff x w a

theorem ensures_raising {α : Type} {I : World → Prop} {Q : α → Prop} {x : Except DomainError α}
    (h : ∀ a, x = .ok a → Q a) : Work.Ensures I (liftM x : UnitOfWork α) Q :=
  Work.ensures_read fun w _ a ha => h a ((raising_ok_iff x w a).mp ha)

theorem keeps_raising {α : Type} {I : World → Prop} (x : Except DomainError α) :
    Program.Keeps I (liftM x : Action α) :=
  Program.keeps_read (raising x)

@[simp] theorem lift_work_ok_iff {α : Type} (x : Except DomainError α) (w w' : World) (a : α) :
    (liftM x : UnitOfWork α) w = .ok (a, w') ↔ x = .ok a ∧ w = w' := by
  change (liftM (raising x) : UnitOfWork α) w = .ok (a, w') ↔ _
  rw [Work.lift_ok_iff, raising_ok_iff]

section

variable {α : Type} [Row α] [Stored α]

@[simp] theorem find_apply (id : Nat) (w : World) :
    (find id : Query (Option α)) w = .ok ((Stored.table w.db).get id) := rfl

@[simp] theorem select_apply (p : α → Bool) (w : World) :
    (select p : Query (List α)) w = .ok ((Stored.table w.db).select p) := rfl

@[simp] theorem require_ok_iff (what : String) (id : Nat) (w : World) (a : α) :
    (require what id : Query α) w = .ok a ↔ (Stored.table w.db).get id = some a := by
  simp [require]

theorem require_eq (what : String) (id : Nat) (w : World) :
    (require what id : Query α) w =
      match ((Stored.table w.db).get id : Option α) with
      | some a => .ok a
      | none => .error (.raised (.missing what id)) := by
  change raising (orRaise (DomainError.missing what id) ((Stored.table w.db).get id : Option α)) w = _
  cases ((Stored.table w.db).get id : Option α) <;> rfl

theorem oneOrNone_eq_some {p : α → Bool} {w : World} {a : α}
    (h : (oneOrNone p : Query (Option α)) w = .ok (some a)) :
    a ∈ (Stored.table w.db).rows ∧ p a = true := by
  simp only [oneOrNone, Read.bind_ok_iff, select_apply, Except.ok.injEq] at h
  obtain ⟨rows, hrows, h⟩ := h
  apply Table.mem_select_iff.mp
  rw [hrows]
  rcases rows with - | ⟨b, - | ⟨c, rest⟩⟩
  · cases h
  · obtain rfl := Option.some.inj (Except.ok.inj h)
    exact List.mem_singleton_self b
  · cases h

/-- No other row matches. -/
theorem oneOrNone_only {p : α → Bool} {w : World} {a b : α}
    (h : (oneOrNone p : Query (Option α)) w = .ok (some a)) (hb : b ∈ (Stored.table w.db).rows)
    (hp : p b = true) : b = a := by
  simp only [oneOrNone, Read.bind_ok_iff, select_apply, Except.ok.injEq] at h
  obtain ⟨rows, hrows, h⟩ := h
  have hmem : b ∈ rows := hrows ▸ Table.mem_select_iff.mpr ⟨hb, hp⟩
  rcases rows with - | ⟨c, - | ⟨d, rest⟩⟩
  · cases h
  · obtain rfl := Option.some.inj (Except.ok.inj h)
    exact List.mem_singleton.mp hmem
  · cases h

theorem oneOrNone_eq_none {p : α → Bool} {w : World} {b : α}
    (h : (oneOrNone p : Query (Option α)) w = .ok none) (hb : b ∈ (Stored.table w.db).rows) : p b ≠ true := by
  intro hp
  simp only [oneOrNone, Read.bind_ok_iff, select_apply, Except.ok.injEq] at h
  obtain ⟨rows, hrows, h⟩ := h
  have hmem : b ∈ rows := hrows ▸ Table.mem_select_iff.mpr ⟨hb, hp⟩
  rcases rows with - | ⟨c, - | ⟨d, rest⟩⟩
  · cases hmem
  · cases h
  · cases h

theorem oneOrNone_of_singleton {p : α → Bool} {w : World} {a : α}
    (h : (Stored.table w.db).select p = [a]) : (oneOrNone p : Query (Option α)) w = .ok (some a) := by
  unfold oneOrNone
  rw [Read.bind_ok (select_apply p w), h]
  rfl

theorem oneOrNone_of_nil {p : α → Bool} {w : World} (h : (Stored.table w.db).select p = []) :
    (oneOrNone p : Query (Option α)) w = .ok none := by
  unfold oneOrNone
  rw [Read.bind_ok (select_apply p w), h]
  rfl

theorem agree_oneOrNone {p : α → Bool} {w w₀ : World}
    (h : (Stored.table w.db).select p = (Stored.table w₀.db).select p) :
    Read.Agree w w₀ (oneOrNone p : Query (Option α)) := by
  refine Read.agree_bind (congrArg Except.ok h) fun rows _ _ => ?_
  rcases rows with - | ⟨a, - | ⟨b, rest⟩⟩
  · exact Read.agree_pure _ _ _
  · exact Read.agree_pure _ _ _
  · exact Read.agree_throw _ _ _

/-- A committed `INSERT`. -/
theorem add_ok_iff (a new : α) (w w' : World) :
    add a w = .ok (new, w') ↔ refsExist a w.db = true ∧
      ∃ t, (Stored.table w.db).insert a = some (new, t) ∧
        w' = { w with db := Stored.withTable w.db t } := by
  unfold add
  cases hr : refsExist a w.db with
  | false => simp
  | true =>
    cases hi : (Stored.table w.db).insert a with
    | none => simp
    | some p => simp [Prod.ext_iff, eq_comm, and_comm]

/-- A committed `UPDATE`. -/
theorem save_ok_iff (a : α) (w w' : World) :
    save a w = .ok ((), w') ↔ refsExist a w.db = true ∧
      ∃ t, (Stored.table w.db).update a = some t ∧ w' = { w with db := Stored.withTable w.db t } := by
  unfold save
  cases hr : refsExist a w.db with
  | false => simp
  | true =>
    cases hi : (Stored.table w.db).update a with
    | none => simp
    | some t => simp [eq_comm]

/-- An `UPDATE` that leaves the unique keys alone is not refused. -/
theorem save_same_keys {r a : α} {w : World} (hr : r ∈ (Stored.table w.db : Table α).rows)
    (hid : Row.id a = Row.id r) (hkeys : Row.keys a = Row.keys r) (hrefs : refsExist a w.db = true) :
    ∃ w', save a w = .ok ((), w') := by
  have hupdate : ∃ t, (Stored.table w.db : Table α).update a = some t := by
    refine Table.update_isSome_iff.mpr fun b hb hne => ?_
    rw [hkeys]
    exact (Stored.table w.db).unique r hr b hb fun heq => hne (heq.trans hid.symm)
  obtain ⟨t, ht⟩ := hupdate
  exact ⟨_, (save_ok_iff a w _).mpr ⟨hrefs, t, ht, rfl⟩⟩

theorem change_ok_iff (what : String) (id : Nat) (method : α → Except DomainError α) (a : α)
    (w w' : World) :
    change what id method w = .ok (a, w') ↔
      ∃ row, (Stored.table w.db).get id = some row ∧ method row = .ok a ∧ save a w = .ok ((), w') := by
  simp only [change, Work.bind_ok_iff, Work.lift_ok_iff, require_ok_iff, lift_work_ok_iff,
    Work.pure_ok_iff]
  constructor
  · rintro ⟨row, _, ⟨hrow, rfl⟩, _, _, ⟨hmethod, rfl⟩, ⟨⟩, _, hsave, rfl, rfl⟩
    exact ⟨row, hrow, hmethod, hsave⟩
  · rintro ⟨row, hrow, hmethod, hsave⟩
    exact ⟨row, w, ⟨hrow, rfl⟩, a, w, ⟨hmethod, rfl⟩, (), w', hsave, rfl, rfl⟩

end

end Orchestract
