import Orchestract.Tenancy.Names

/-!
# The boundary between tenants

Whatever a row refers to belongs to the row's own organization, or to its own contract. What the
unit of work of one row does to the other rows of the boundary.
-/

namespace Orchestract

set_option autoImplicit false

/-- The role of a user is one of its organization. -/
def User.Closed (w : World) (u : User) : Prop :=
  ∃ r, w.db.roles.get u.roleId = some r ∧ r.organizationId = u.organizationId

/-- The agent that a role is linked to is one of its organization. -/
def Role.Closed (w : World) (r : Role) : Prop :=
  ∀ id, r.agentId = some id → ∃ a, w.db.agents.get id = some a ∧ a.organizationId = r.organizationId

/-- The agents of the steps are agents of the workflow's organization. -/
def WorkflowDefinition.Closed (w : World) (d : WorkflowDefinition) : Prop :=
  ∀ s ∈ d.steps, ∃ a, w.db.agents.get s.agentId = some a ∧ a.organizationId = d.organizationId

/-- The workflow that a contract runs through is one of the contract's organization. -/
def WorkflowInstance.Closed (w : World) (i : WorkflowInstance) : Prop :=
  ∃ c d, w.db.contracts.get i.contractId = some c ∧ w.db.definitions.get i.workflowDefinitionId = some d ∧
    d.organizationId = c.organizationId

/-- The versions are kept by connections of the contract's organization. -/
def Document.Closed (w : World) (d : Document) : Prop :=
  ∃ c, w.db.contracts.get d.contractId = some c ∧ ∀ v ∈ d.versions,
    ∃ k, w.db.connections.get v.storageConnectionId = some k ∧ k.organizationId = c.organizationId

/-- The documents of a share link are documents of its contract. -/
def ShareLink.Closed (w : World) (l : ShareLink) : Prop :=
  ∀ id ∈ l.documents, ∃ d, w.db.documents.get id = some d ∧ d.contractId = l.contractId

/-- No row refers to a row of another tenant. -/
structure TenantClosed (w : World) : Prop where
  users : ∀ u ∈ w.db.users.rows, u.Closed w
  roles : ∀ r ∈ w.db.roles.rows, r.Closed w
  definitions : ∀ d ∈ w.db.definitions.rows, d.Closed w
  instances : ∀ i ∈ w.db.instances.rows, i.Closed w
  documents : ∀ d ∈ w.db.documents.rows, d.Closed w
  shareLinks : ∀ l ∈ w.db.shareLinks.rows, l.Closed w

/-! ## Rows that stay -/

section

variable {w w' : World}

theorem user_closed_holds {u : User} (h : w.Holds w') (hu : u.Closed w) : u.Closed w' := by
  obtain ⟨r, hr, horg⟩ := hu
  obtain ⟨r', hr', hholder⟩ := h.roles _ r hr
  exact ⟨r', hr', hholder.trans horg⟩

theorem role_closed_holds {r : Role} (h : w.Holds w') (hr : r.Closed w) : r.Closed w' := by
  intro id hid
  obtain ⟨a, ha, horg⟩ := hr id hid
  obtain ⟨a', ha', hholder⟩ := h.agents _ a ha
  exact ⟨a', ha', hholder.trans horg⟩

theorem definition_closed_holds {d : WorkflowDefinition} (h : w.Holds w') (hd : d.Closed w) : d.Closed w' := by
  intro s hs
  obtain ⟨a, ha, horg⟩ := hd s hs
  obtain ⟨a', ha', hholder⟩ := h.agents _ a ha
  exact ⟨a', ha', hholder.trans horg⟩

theorem instance_closed_holds {i : WorkflowInstance} (h : w.Holds w') (hi : i.Closed w) : i.Closed w' := by
  obtain ⟨c, d, hc, hd, horg⟩ := hi
  obtain ⟨c', hc', hcholder⟩ := h.contracts _ c hc
  obtain ⟨d', hd', hdholder⟩ := h.definitions _ d hd
  exact ⟨c', d', hc', hd', hdholder.trans (horg.trans hcholder.symm)⟩

theorem document_closed_holds {d : Document} (h : w.Holds w') (hd : d.Closed w) : d.Closed w' := by
  obtain ⟨c, hc, hversions⟩ := hd
  obtain ⟨c', hc', hcholder⟩ := h.contracts _ c hc
  refine ⟨c', hc', fun v hv => ?_⟩
  obtain ⟨k, hk, horg⟩ := hversions v hv
  obtain ⟨k', hk', hkholder⟩ := h.connections _ k hk
  exact ⟨k', hk', hkholder.trans (horg.trans hcholder.symm)⟩

theorem shareLink_closed_holds {l : ShareLink} (h : w.Holds w') (hl : l.Closed w) : l.Closed w' := by
  intro id hid
  obtain ⟨d, hd, hcontract⟩ := hl id hid
  obtain ⟨d', hd', hholder⟩ := h.documents _ d hd
  exact ⟨d', hd', hholder.trans hcontract⟩

/-- The part of the boundary that is about the rows of one site. -/
def ClosedAt (w : World) : Site → Prop
  | .users => ∀ u ∈ w.db.users.rows, u.Closed w
  | .roles => ∀ r ∈ w.db.roles.rows, r.Closed w
  | .definitions => ∀ d ∈ w.db.definitions.rows, d.Closed w
  | .instances => ∀ i ∈ w.db.instances.rows, i.Closed w
  | .documents => ∀ d ∈ w.db.documents.rows, d.Closed w
  | .shareLinks => ∀ l ∈ w.db.shareLinks.rows, l.Closed w
  | _ => True

theorem tenantClosed_iff : TenantClosed w ↔ ∀ n, ClosedAt w n := by
  constructor
  · intro h n
    cases n with
    | users => exact h.users
    | roles => exact h.roles
    | definitions => exact h.definitions
    | instances => exact h.instances
    | documents => exact h.documents
    | shareLinks => exact h.shareLinks
    | _ => exact trivial
  · intro h
    exact ⟨h .users, h .roles, h .definitions, h .instances, h .documents, h .shareLinks⟩

/-- Rows that nothing has happened to stay within the boundary. -/
theorem closedAt_same {n : Site} (hsame : w.Same w' n) (hholds : w.Holds w') (h : ClosedAt w n) :
    ClosedAt w' n := by
  cases n with
  | users =>
    intro u hu
    rw [show w'.db.users = w.db.users from hsame] at hu
    exact user_closed_holds hholds (h u hu)
  | roles =>
    intro r hr
    rw [show w'.db.roles = w.db.roles from hsame] at hr
    exact role_closed_holds hholds (h r hr)
  | definitions =>
    intro d hd
    rw [show w'.db.definitions = w.db.definitions from hsame] at hd
    exact definition_closed_holds hholds (h d hd)
  | instances =>
    intro i hi
    rw [show w'.db.instances = w.db.instances from hsame] at hi
    exact instance_closed_holds hholds (h i hi)
  | documents =>
    intro d hd
    rw [show w'.db.documents = w.db.documents from hsame] at hd
    exact document_closed_holds hholds (h d hd)
  | shareLinks =>
    intro l hl
    rw [show w'.db.shareLinks = w.db.shareLinks from hsame] at hl
    exact shareLink_closed_holds hholds (h l hl)
  | _ => trivial

end

/-! ## Rows that are written -/

/-- A mapped class with what one of its rows may refer to. Most classes are no part of the boundary. -/
class Tenanted (α : Type) [Row α] [Stored α] [Held α] [Sited α] where
  Closed : World → α → Prop
  closed_withId : ∀ {w : World} {n : Nat} {a : α}, Closed w (Row.withId n a) ↔ Closed w a
  closed_withTable : ∀ {w : World} {t : Table α} {a : α},
    Closed { w with db := Stored.withTable w.db t } a ↔ Closed w a
  closed_holds : ∀ {w w' : World} {a : α}, w.Holds w' → Closed w a → Closed w' a
  closedAt : ∀ w, ClosedAt w (Sited.site α) ↔ ∀ a ∈ (Stored.table w.db : Table α).rows, Closed w a
  table_withTable : ∀ db (t : Table α), Stored.table (Stored.withTable db t) = t

instance : Tenanted User := ⟨User.Closed, Iff.rfl, Iff.rfl, user_closed_holds, fun _ => Iff.rfl, fun _ _ => rfl⟩
instance : Tenanted Role := ⟨Role.Closed, Iff.rfl, Iff.rfl, role_closed_holds, fun _ => Iff.rfl, fun _ _ => rfl⟩
instance : Tenanted WorkflowDefinition :=
  ⟨WorkflowDefinition.Closed, Iff.rfl, Iff.rfl, definition_closed_holds, fun _ => Iff.rfl, fun _ _ => rfl⟩
instance : Tenanted WorkflowInstance :=
  ⟨WorkflowInstance.Closed, Iff.rfl, Iff.rfl, instance_closed_holds, fun _ => Iff.rfl, fun _ _ => rfl⟩
instance : Tenanted Document :=
  ⟨Document.Closed, Iff.rfl, Iff.rfl, document_closed_holds, fun _ => Iff.rfl, fun _ _ => rfl⟩
instance : Tenanted ShareLink :=
  ⟨ShareLink.Closed, Iff.rfl, Iff.rfl, shareLink_closed_holds, fun _ => Iff.rfl, fun _ _ => rfl⟩
instance : Tenanted Organization :=
  ⟨fun _ _ => True, Iff.rfl, Iff.rfl, fun _ => id, fun _ => iff_of_true trivial fun _ _ => trivial, fun _ _ => rfl⟩
instance : Tenanted Agent :=
  ⟨fun _ _ => True, Iff.rfl, Iff.rfl, fun _ => id, fun _ => iff_of_true trivial fun _ _ => trivial, fun _ _ => rfl⟩
instance : Tenanted Contract :=
  ⟨fun _ _ => True, Iff.rfl, Iff.rfl, fun _ => id, fun _ => iff_of_true trivial fun _ _ => trivial, fun _ _ => rfl⟩
instance : Tenanted StorageConnection :=
  ⟨fun _ _ => True, Iff.rfl, Iff.rfl, fun _ => id, fun _ => iff_of_true trivial fun _ _ => trivial, fun _ _ => rfl⟩
instance : Tenanted UserSession :=
  ⟨fun _ _ => True, Iff.rfl, Iff.rfl, fun _ => id, fun _ => iff_of_true trivial fun _ _ => trivial, fun _ _ => rfl⟩
instance : Tenanted TermsAcceptance :=
  ⟨fun _ _ => True, Iff.rfl, Iff.rfl, fun _ => id, fun _ => iff_of_true trivial fun _ _ => trivial, fun _ _ => rfl⟩

section

variable {α : Type} [Row α] [Stored α] [Held α] [Sited α] [Tenanted α] {w w' : World}

/-- One table is written, and its new rows are within the boundary. -/
theorem tenantClosed_write (hw : TenantClosed w) (hholds : w.Holds w')
    (hsame : ∀ n, n ≠ Sited.site α → w.Same w' n)
    (hrows : ∀ a ∈ (Stored.table w'.db : Table α).rows, Tenanted.Closed w' a) : TenantClosed w' := by
  refine tenantClosed_iff.mpr fun n => ?_
  by_cases hn : n = Sited.site α
  · rw [hn]
    exact (Tenanted.closedAt w').mpr hrows
  · exact closedAt_same (hsame n hn) hholds (tenantClosed_iff.mp hw n)

theorem closed_of_tenantClosed (hw : TenantClosed w) {a : α} (ha : a ∈ (Stored.table w.db : Table α).rows) :
    Tenanted.Closed w a :=
  (Tenanted.closedAt w).mp (tenantClosed_iff.mp hw (Sited.site α)) a ha

omit [Tenanted α] in
theorem add_holds {a new : α} (h : add a w = .ok (new, w')) : w.Holds w' :=
  (Sited.keeps _ (keptBy_holds (Sited.site α) w)).add a new w w' w.holds_refl h

theorem tenant_add {a new : α} (hw : TenantClosed w) (ha : Tenanted.Closed w a)
    (h : add a w = .ok (new, w')) : TenantClosed w' := by
  have hholds := add_holds h
  refine tenantClosed_write (α := α) hw hholds (fun n hn => ?_) fun b hb => ?_
  · exact (Sited.keeps _ (keptBy_same hn.symm w)).add a new w w' (w.same_refl n) h
  · obtain ⟨_, t, ht, rfl⟩ := (add_ok_iff a new w w').mp h
    rw [Tenanted.table_withTable] at hb
    obtain ⟨hnew, _, _⟩ := Table.insert_eq_some ht
    apply Tenanted.closed_holds hholds
    rcases (Table.mem_insert_iff ht).mp hb with hb | rfl
    · exact closed_of_tenantClosed hw hb
    · rw [hnew]
      exact Tenanted.closed_withId.mpr ha

theorem tenant_save {r a : α} (hw : TenantClosed w) (hr : r ∈ (Stored.table w.db : Table α).rows)
    (hid : Row.id a = Row.id r) (hholder : Held.holder a = Held.holder r) (ha : Tenanted.Closed w a)
    (h : save a w = .ok ((), w')) : TenantClosed w' := by
  have hholds : w.Holds w' := keptBy_save (keptBy_holds (Sited.site α) w) hr hid hholder w.holds_refl h
  refine tenantClosed_write (α := α) hw hholds (fun n hn => ?_) fun b hb => ?_
  · exact keptBy_save (keptBy_same hn.symm w) hr hid hholder (w.same_refl n) h
  · obtain ⟨_, t, ht, rfl⟩ := (save_ok_iff a w w').mp h
    rw [Tenanted.table_withTable] at hb
    apply Tenanted.closed_holds hholds
    rcases Table.mem_update ht hb with rfl | ⟨hb, _⟩
    · exact ha
    · exact closed_of_tenantClosed hw hb

/-- An `INSERT` leaves the boundary closed, unless it stores a row that crosses it. -/
theorem add_tenants_iff {a : α} (hw : TenantClosed w) :
    (∀ new w', add a w = .ok (new, w') → TenantClosed w') ↔ (Storable a w → Tenanted.Closed w a) := by
  constructor
  · intro h hstorable
    obtain ⟨new, w', hadd⟩ := storable_iff.mp hstorable
    have hclosed := h new w' hadd
    obtain ⟨_, t, ht, rfl⟩ := (add_ok_iff a new w w').mp hadd
    have hnew : new ∈ (Stored.table (Stored.withTable w.db t) : Table α).rows := by
      rw [Tenanted.table_withTable]
      exact (Table.mem_insert_iff ht).mpr (Or.inr rfl)
    have hrow := Tenanted.closed_withTable.mp (closed_of_tenantClosed hclosed hnew)
    rw [(Table.insert_eq_some ht).1] at hrow
    exact Tenanted.closed_withId.mp hrow
  · exact fun h new w' hadd => tenant_add hw (h (storable_iff.mpr ⟨new, w', hadd⟩)) hadd

/-- An `UPDATE` leaves the boundary closed, unless it stores a row that crosses it. -/
theorem save_tenants_iff {r a : α} (hw : TenantClosed w) (hr : r ∈ (Stored.table w.db : Table α).rows)
    (hid : Row.id a = Row.id r) (hholder : Held.holder a = Held.holder r) :
    (∀ w', save a w = .ok ((), w') → TenantClosed w') ↔
      (refsExist a w.db = true → (∀ b ∈ (Stored.table w.db : Table α).rows, Apart a b) →
        Tenanted.Closed w a) := by
  constructor
  · intro h hrefs hapart
    obtain ⟨t, ht⟩ := Table.update_isSome_iff.mpr hapart
    have hclosed := h _ ((save_ok_iff a w _).mpr ⟨hrefs, t, ht, rfl⟩)
    have hmem : a ∈ (Stored.table (Stored.withTable w.db t) : Table α).rows := by
      rw [Tenanted.table_withTable]
      exact Table.mem_of_update ht hr hid.symm
    exact Tenanted.closed_withTable.mp (closed_of_tenantClosed hclosed hmem)
  · intro h w' hsave
    obtain ⟨hrefs, t, ht, _⟩ := (save_ok_iff a w w').mp hsave
    exact tenant_save hw hr hid hholder (h hrefs (Table.update_isSome_iff.mp ⟨t, ht⟩)) hsave

/-- A row that is loaded by its id and changed. -/
theorem change_tenants_iff {what : String} {id : Nat} {method : α → Except DomainError α}
    (hw : TenantClosed w)
    (hmethod : ∀ r a, method r = .ok a → Row.id a = Row.id r ∧ Held.holder a = Held.holder r) :
    (∀ a w', change what id method w = .ok (a, w') → TenantClosed w') ↔
      ∀ r a, (Stored.table w.db : Table α).get id = some r → method r = .ok a → refsExist a w.db = true →
        (∀ b ∈ (Stored.table w.db : Table α).rows, Apart a b) → Tenanted.Closed w a := by
  constructor
  · intro h r a hr ha
    obtain ⟨hid, hholder⟩ := hmethod r a ha
    refine (save_tenants_iff hw (Table.get_eq_some_iff.mp hr).1 hid hholder).mp fun w' hsave => ?_
    exact h a w' ((change_ok_iff what id method a w w').mpr ⟨r, hr, ha, hsave⟩)
  · intro h a w' hchange
    obtain ⟨r, hr, ha, hsave⟩ := (change_ok_iff what id method a w w').mp hchange
    obtain ⟨hid, hholder⟩ := hmethod r a ha
    exact (save_tenants_iff hw (Table.get_eq_some_iff.mp hr).1 hid hholder).mpr (h r a hr ha) w' hsave

/-- A change that keeps what the row refers to. -/
theorem tenants_change {what : String} {id : Nat} {method : α → Except DomainError α}
    (hmethod : ∀ r a, method r = .ok a → Row.id a = Row.id r ∧ Held.holder a = Held.holder r)
    (hclosed : ∀ w r a, method r = .ok a → Tenanted.Closed w r → Tenanted.Closed w a) :
    Work.Keeps TenantClosed (change what id method) := by
  intro w hw a w' h
  refine ⟨(change_tenants_iff hw hmethod).mpr (fun r a hr ha _ _ => ?_) a w' h, trivial⟩
  exact hclosed w r a ha (closed_of_tenantClosed hw (Table.get_eq_some_iff.mp hr).1)

end

/-- The sites whose rows the boundary says nothing about. -/
def looseSites : List Site :=
  [.organizations, .agents, .contracts, .connections, .sessions, .acceptances, .versionIds, .files]

theorem keepsRows_tenants {α : Type} [Row α] [Stored α] [Held α] [Sited α] [Tenanted α]
    (h : ∀ w (a : α), Tenanted.Closed w a) : KeepsRows α TenantClosed where
  add a _ w _ hw hadd := tenant_add hw (h w a) hadd
  save r a w _ hw hr hholder hsave := by
    obtain ⟨hmem, hid⟩ := Table.get_eq_some_iff.mp hr
    exact tenant_save hw hmem hid.symm hholder (h w a) hsave

theorem keptBy_tenants {site : Site} (h : site ∈ looseSites) : KeptBy site TenantClosed := by
  cases site with
  | organizations | agents | contracts | connections | acceptances =>
    exact keepsRows_tenants fun _ _ => trivial
  | sessions =>
    refine ⟨keepsRows_tenants fun _ _ => trivial, fun w p hw => ?_⟩
    have hsites : KeptBy .sessions w.Holds := keptBy_holds .sessions w
    refine tenantClosed_iff.mpr fun n => ?_
    by_cases hn : n = .sessions
    · rw [hn]
      exact trivial
    · have hsame : KeptBy .sessions fun w' => w.Same w' n := keptBy_same (Ne.symm hn) w
      exact closedAt_same (hsame.2 w p (w.same_refl n)) (hsites.2 w p w.holds_refl) (tenantClosed_iff.mp hw n)
  | versionIds | files =>
    exact fun _ _ hw => ⟨hw.users, hw.roles, hw.definitions, hw.instances, hw.documents, hw.shareLinks⟩
  | _ => exact absurd h (by decide)

end Orchestract
