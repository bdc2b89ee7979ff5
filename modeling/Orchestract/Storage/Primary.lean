import Orchestract.Storage.Connections

/-!
# One primary backend

Whatever has happened, one call at a time, an organization has at most one primary connection, and
it can be written to.
-/

namespace Orchestract

set_option autoImplicit false

/-- The organization whose connections a call changes. -/
def Operation.organizationOf (t : Table StorageConnection) : Operation → Option Nat
  | .connectBucket organizationId .. => some organizationId
  | .completeOauthConnection organizationId .. => some organizationId
  | .setPrimary connectionId => (t.get connectionId).map StorageConnection.organizationId
  | .disconnect connectionId => (t.get connectionId).map StorageConnection.organizationId
  | _ => none

def Operation.onConnections : Operation → Bool
  | .connectBucket .. | .completeOauthConnection .. | .setPrimary .. | .disconnect .. => true
  | _ => false

/-- What can be said of the connections in this state, and of the next call. -/
structure OneBackend (s : System) : Prop where
  single : ∀ c ∈ s.world.db.connections.rows, ∀ c' ∈ s.world.db.connections.rows,
    c.isPrimary = true → c'.isPrimary = true → c.organizationId = c'.organizationId → c = c'
  provider : ∀ c ∈ s.world.db.connections.rows, ∀ c' ∈ s.world.db.connections.rows,
    c.organizationId = c'.organizationId → c.provider = c'.provider → c = c'
  writable : ∀ c ∈ s.world.db.connections.rows, c.isPrimary = true → c.isWriteCapable = true
  lookup : ∀ organizationId, ∃ found,
    StorageService.getPrimaryForOrganization organizationId s.world = .ok found ∧ ∀ c, found = some c ↔
      c ∈ s.world.db.connections.rows ∧ c.organizationId = organizationId ∧ c.isPrimary = true
  failed : ∀ i e, i.operation.onConnections = true → (i.operation.run i.env s).1 = .error e → perform s i = s
  others : ∀ i organizationId, i.operation.organizationOf s.world.db.connections ≠ some organizationId →
    (perform s i).world.db.connections.select (fun c => c.organizationId = organizationId) =
      s.world.db.connections.select fun c => c.organizationId = organizationId

/-! ## The flag -/

/-- At most one connection of each organization has the flag, and it can be written to. -/
structure Flagged (t : Table StorageConnection) : Prop where
  single : ∀ c ∈ t.rows, ∀ c' ∈ t.rows, c.isPrimary = true → c'.isPrimary = true →
    c.organizationId = c'.organizationId → c = c'
  writable : ∀ c ∈ t.rows, c.isPrimary = true → c.isWriteCapable = true

variable {t t₁ t' : Table StorageConnection} {c : StorageConnection}

/-- No other primary of the organization is left. -/
theorem demoted_primary (h : Demoted t c t₁) {r : StorageConnection} (hr : r ∈ t₁.rows)
    (hprimary : r.isPrimary = true) : r ∈ t.rows ∧ (r.organizationId = c.organizationId → r.id = c.id) := by
  cases h with
  | none hnone => exact ⟨hr, hnone r hr hprimary⟩
  | one _ _ _ _ honly hupdate =>
    rcases Table.mem_update hupdate hr with rfl | ⟨hr, hne⟩
    · cases hprimary
    · refine ⟨hr, fun horganization => absurd ?_ hne⟩
      rw [honly r hr hprimary horganization]
      rfl

/-- Whoever has the flag had it before. -/
theorem flagged_of_old (h : Flagged t)
    (hold : ∀ r ∈ t'.rows, r.isPrimary = true → ∃ p ∈ t.rows, p.isPrimary = true ∧ p.id = r.id ∧
      p.organizationId = r.organizationId ∧ p.provider = r.provider) : Flagged t' := by
  constructor
  · intro r hr r' hr' hprimary hprimary' horganization
    obtain ⟨p, hp, hflag, hid, horg, _⟩ := hold r hr hprimary
    obtain ⟨p', hp', hflag', hid', horg', _⟩ := hold r' hr' hprimary'
    have hpp : p = p' := h.single p hp p' hp' hflag hflag' (horg.trans (horganization.trans horg'.symm))
    exact Table.eq_of_id hr hr' (hid.symm.trans ((congrArg _ hpp).trans hid'))
  · intro r hr hprimary
    obtain ⟨p, hp, hflag, _, _, hprovider⟩ := hold r hr hprimary
    have hwrite := h.writable p hp hflag
    unfold StorageConnection.isWriteCapable at hwrite ⊢
    rw [← hprovider]
    exact hwrite

/-- The flag is given after it was taken. -/
theorem flagged_promoted (h : Flagged t) (hdemoted : Demoted t c t₁) {new : StorageConnection}
    (hwrite : new.isWriteCapable = true) (horganization : new.organizationId = c.organizationId)
    (hrows : ∀ r ∈ t'.rows, r = new ∨ r ∈ t₁.rows ∧ r.id ≠ c.id) : Flagged t' := by
  have hold : ∀ r ∈ t'.rows, r.isPrimary = true → r.organizationId = c.organizationId → r = new := by
    intro r hr hprimary horg
    rcases hrows r hr with rfl | ⟨hr, hne⟩
    · rfl
    · exact absurd ((demoted_primary hdemoted hr hprimary).2 horg) hne
  have hkept : ∀ r ∈ t'.rows, r.isPrimary = true → r ≠ new → r ∈ t.rows := by
    intro r hr hprimary hne
    rcases hrows r hr with rfl | ⟨hr, _⟩
    · exact absurd rfl hne
    · exact (demoted_primary hdemoted hr hprimary).1
  constructor
  · intro r hr r' hr' hprimary hprimary' horg
    by_cases hc : r.organizationId = c.organizationId
    · rw [hold r hr hprimary hc, hold r' hr' hprimary' (horg ▸ hc)]
    · have hne : r ≠ new := fun heq => hc (heq ▸ horganization)
      have hne' : r' ≠ new := fun heq => hc (horg.trans (heq ▸ horganization))
      exact h.single r (hkept r hr hprimary hne) r' (hkept r' hr' hprimary' hne') hprimary hprimary' horg
  · intro r hr hprimary
    by_cases hne : r = new
    · rw [hne]
      exact hwrite
    · exact h.writable r (hkept r hr hprimary hne) hprimary

theorem demoted_numbered (h : Demoted t c t₁) (ht : t.Numbered) : t₁.Numbered := by
  cases h with
  | none => exact ht
  | @one p _ hp _ _ _ _ hupdate => exact Table.numbered_update hupdate (ht.2 p hp) ht

/-- An update that does not give the flag. -/
theorem flagged_update {c' : StorageConnection} (hupdate : t.update c' = some t') (h : Flagged t)
    (hc : c ∈ t.rows) (hid : c'.id = c.id) (horganization : c'.organizationId = c.organizationId)
    (hprovider : c'.provider = c.provider) (hprimary : c'.isPrimary = true → c.isPrimary = true) :
    Flagged t' := by
  refine flagged_of_old h fun r hr hflag => ?_
  rcases Table.mem_update hupdate hr with rfl | ⟨hr, _⟩
  · exact ⟨c, hc, hprimary hflag, hid.symm, horganization.symm, hprovider.symm⟩
  · exact ⟨r, hr, hflag, rfl, rfl, rfl⟩

/-- A new connection without the flag. -/
theorem flagged_insert {a new : StorageConnection} (hinsert : t.insert a = some (new, t')) (h : Flagged t)
    (hprimary : a.isPrimary = false) : Flagged t' := by
  obtain ⟨hnew, _, _⟩ := Table.insert_eq_some hinsert
  refine flagged_of_old h fun r hr hflag => ?_
  rcases (Table.mem_insert_iff hinsert).mp hr with hr | rfl
  · exact ⟨r, hr, hflag, rfl, rfl, rfl⟩
  · have hnot : r.isPrimary = false := by
      rw [hnew]
      exact hprimary
    rw [hnot] at hflag
    cases hflag

theorem flagged_after {i : Input} (h : Flagged t) (ht : t.Numbered) (hafter : ConnectionsAfter t i t') :
    Flagged t' ∧ t'.Numbered := by
  cases hafter with
  | same => exact ⟨h, ht⟩
  | @connected organizationId provider displayName config credentials new t₁ _ _ hreadOnly hdemoted hinsert =>
    have ht₁ := demoted_numbered hdemoted ht
    obtain ⟨hnew, _, _⟩ := Table.insert_eq_some hinsert
    have horganization : new.organizationId = organizationId := by
      rw [hnew]
      rfl
    have hwrite : new.isWriteCapable = true := by
      rw [hnew]
      change (!provider.isReadOnly) = true
      rw [hreadOnly]
      rfl
    refine ⟨flagged_promoted h hdemoted hwrite horganization fun r hr => ?_,
      Table.numbered_insert hinsert ht₁⟩
    rcases (Table.mem_insert_iff hinsert).mp hr with hr | rfl
    · exact Or.inr ⟨hr, Nat.ne_of_gt (ht₁.2 r hr)⟩
    · exact Or.inl rfl
  | @promoted c t₁ _ _ hc hwrite hdemoted hupdate =>
    have hpromoted : c.promoted.isWriteCapable = true := hwrite
    exact ⟨flagged_promoted h hdemoted hpromoted rfl fun r hr => Table.mem_update hupdate hr,
      Table.numbered_update hupdate (ht.2 c hc) (demoted_numbered hdemoted ht)⟩
  | @disconnected c _ _ hc hupdate =>
    have hnot : c.disconnect.isPrimary = true → c.isPrimary = true := fun hflag => by cases hflag
    exact ⟨flagged_update hupdate h hc rfl rfl rfl hnot, Table.numbered_update hupdate (ht.2 c hc) ht⟩
  | @authorised _ _ _ _ c _ _ _ hc _ _ hupdate =>
    exact ⟨flagged_update hupdate h hc rfl rfl rfl id, Table.numbered_update hupdate (ht.2 c hc) ht⟩
  | @authorisedNew _ _ _ _ _ c _ _ _ _ hinsert hupdate =>
    have ht₁ := Table.numbered_insert hinsert ht
    have hc := (Table.mem_insert_iff hinsert).mpr (Or.inr rfl)
    exact ⟨flagged_update hupdate (flagged_insert hinsert h rfl) hc rfl rfl rfl id,
      Table.numbered_update hupdate (ht₁.2 c hc) ht₁⟩

theorem flagged_numbered (files : Bucket → String → Option Bytes) (changes : List Change) :
    Flagged (System.after files changes).world.db.connections ∧
      (System.after files changes).world.db.connections.Numbered := by
  refine Runs.run_invariant (I := fun s : System => Flagged s.world.db.connections ∧
    s.world.db.connections.Numbered) (s := .initial files) (fun s c hs => ?_) ?_ changes
  · rcases connections_next s c with hsame | ⟨i, _, hafter⟩
    · rw [hsame]
      exact hs
    · exact flagged_after hs.1 hs.2 hafter
  · exact ⟨⟨fun c hc => (by cases hc), fun c hc => (by cases hc)⟩, Nat.one_pos, fun c hc => (by cases hc)⟩

theorem flagged_system (files : Bucket → String → Option Bytes) (changes : List Change) :
    Flagged (System.after files changes).world.db.connections :=
  (flagged_numbered files changes).1

/-! ## Other organizations -/

theorem demoted_others (h : Demoted t c t₁) {organizationId : Nat} (hne : c.organizationId ≠ organizationId) :
    t₁.select (fun r => r.organizationId = organizationId) =
      t.select fun r => r.organizationId = organizationId := by
  cases h with
  | none => rfl
  | @one p _ hp _ horganization _ _ hupdate =>
    refine Table.select_update hupdate (fun r hr hid => ?_) ?_
    · obtain rfl := Table.eq_of_id hr hp hid
      rw [decide_eq_false_iff_not, horganization]
      exact hne
    · rw [decide_eq_false_iff_not]
      change ¬ p.organizationId = _
      rw [horganization]
      exact hne

theorem demoted_mem (h : Demoted t c t₁) (hc : c ∈ t.rows) : c ∈ t₁.rows := by
  cases h with
  | none => exact hc
  | one _ _ _ hid _ hupdate =>
    obtain ⟨hrows, _⟩ := Table.update_eq_some hupdate
    exact hrows ▸ mem_overwrite_of_ne hc (Ne.symm hid)

theorem updated_others {c' : StorageConnection} (hupdate : t.update c' = some t') (hc : c ∈ t.rows)
    (hid : c'.id = c.id) (horganization : c'.organizationId = c.organizationId) {organizationId : Nat}
    (hne : c.organizationId ≠ organizationId) : t'.select (fun r => r.organizationId = organizationId) =
      t.select fun r => r.organizationId = organizationId := by
  refine Table.select_update hupdate (fun r hr hrid => ?_) ?_
  · obtain rfl := Table.eq_of_id hr hc (hrid.trans hid)
    exact decide_eq_false hne
  · rw [horganization]
    exact decide_eq_false hne

theorem others_after {i : Input} (hafter : ConnectionsAfter t i t') {organizationId : Nat}
    (hne : i.operation.organizationOf t ≠ some organizationId) :
    t'.select (fun r => r.organizationId = organizationId) =
      t.select fun r => r.organizationId = organizationId := by
  have hget : ∀ {c : StorageConnection}, c ∈ t.rows →
      (t.get c.id).map StorageConnection.organizationId = some c.organizationId := by
    intro c hc
    have hrow : t.get c.id = some c := Table.get_eq_some_iff.mpr ⟨hc, rfl⟩
    rw [hrow]
    rfl
  cases hafter with
  | same => rfl
  | @connected organization _ _ _ _ new _ _ hcall _ hdemoted hinsert =>
    rw [hcall] at hne
    have hother : organization ≠ organizationId := fun heq => hne (congrArg some heq)
    obtain ⟨hnew, _, _⟩ := Table.insert_eq_some hinsert
    rw [Table.select_insert hinsert, demoted_others hdemoted hother]
    rw [hnew]
    exact decide_eq_false hother
  | @promoted c _ _ hcall hc _ hdemoted hupdate =>
    rw [hcall] at hne
    have hother : c.organizationId ≠ organizationId := fun heq => hne ((hget hc).trans (congrArg some heq))
    rw [updated_others hupdate (demoted_mem hdemoted hc) rfl rfl hother, demoted_others hdemoted hother]
  | @disconnected c _ hcall hc hupdate =>
    rw [hcall] at hne
    exact updated_others hupdate hc rfl rfl fun heq => hne ((hget hc).trans (congrArg some heq))
  | @authorised organization _ _ _ c _ hcall _ hc horganization _ hupdate =>
    rw [hcall] at hne
    exact updated_others hupdate hc rfl rfl fun heq => hne (congrArg some (horganization.symm.trans heq))
  | @authorisedNew organization _ _ _ _ c _ _ hcall _ hinsert hupdate =>
    rw [hcall] at hne
    have hother : organization ≠ organizationId := fun heq => hne (congrArg some heq)
    obtain ⟨hnew, _, _⟩ := Table.insert_eq_some hinsert
    have hc : c.organizationId = organization := by
      rw [hnew]
      rfl
    rw [updated_others hupdate ((Table.mem_insert_iff hinsert).mpr (Or.inr rfl)) rfl rfl (hc ▸ hother),
      Table.select_insert hinsert]
    rw [hc]
    exact decide_eq_false hother

/-! ## Runs -/

theorem unit_failed {α : Type} {m : UnitOfWork α} {s : System} {e : Failure}
    (h : (Operation.unit m s).1 = .error e) : (Operation.unit m s).2 = s := by
  rw [unit_apply] at h ⊢
  cases hm : m s.world with
  | ok p => simp [hm] at h
  | error e' => rfl

theorem perform_failed {s : System} {i : Input} {e : Failure} (hop : i.operation.onConnections = true)
    (h : (i.operation.run i.env s).1 = .error e) : perform s i = s := by
  obtain ⟨env, operation⟩ := i
  cases operation with
  | connectBucket organizationId provider displayName config credentials => exact unit_failed h
  | setPrimary connectionId => exact unit_failed h
  | disconnect connectionId => exact unit_failed h
  | completeOauthConnection organizationId provider tokens => exact unit_failed h
  | _ => cases hop

/-- The query for the primary finds it, or nothing. -/
theorem lookup_of_single {w : World} {organizationId : Nat} (h : ∀ c ∈ w.db.connections.rows,
    ∀ c' ∈ w.db.connections.rows, c.organizationId = organizationId → c'.organizationId = organizationId →
      c.isPrimary = true → c'.isPrimary = true → c = c') :
    ∃ found, StorageService.getPrimaryForOrganization organizationId w = .ok found ∧ ∀ c, found = some c ↔
      c ∈ w.db.connections.rows ∧ c.organizationId = organizationId ∧ c.isPrimary = true := by
  let p : StorageConnection → Bool := fun c => c.organizationId = organizationId && c.isPrimary
  have hp : ∀ c, p c = true ↔ c.organizationId = organizationId ∧ c.isPrimary = true := by simp [p]
  by_cases hprimary : ∃ c ∈ w.db.connections.rows, c.organizationId = organizationId ∧ c.isPrimary = true
  · obtain ⟨c, hc, horganization, hflag⟩ := hprimary
    have honly : ∀ r ∈ w.db.connections.rows, r.organizationId = organizationId → r.isPrimary = true → r = c :=
      fun r hr horg hflag' => h r hr c hc horg horganization hflag' hflag
    have hselect : w.db.connections.select p = [c] := by
      refine Table.eq_singleton (List.Nodup.of_map Row.id (List.Nodup.sublist (List.filter_sublist.map Row.id)
        w.db.connections.nodup)) (Table.mem_select_iff.mpr ⟨hc, (hp c).mpr ⟨horganization, hflag⟩⟩) fun r hr => ?_
      obtain ⟨hr, hpr⟩ := Table.mem_select_iff.mp hr
      obtain ⟨horg, hflag'⟩ := (hp r).mp hpr
      exact honly r hr horg hflag'
    refine ⟨some c, oneOrNone_of_singleton hselect, fun r => ⟨?_, fun hr => ?_⟩⟩
    · rintro ⟨⟩
      exact ⟨hc, horganization, hflag⟩
    · rw [honly r hr.1 hr.2.1 hr.2.2]
  · have hselect : w.db.connections.select p = [] :=
      List.filter_eq_nil_iff.mpr fun c hc hpc => hprimary ⟨c, hc, (hp c).mp hpc⟩
    exact ⟨none, oneOrNone_of_nil hselect, fun c => ⟨fun hnone => (by cases hnone), fun hc => (hprimary ⟨c, hc⟩).elim⟩⟩

theorem lookup_of_flagged {w : World} (h : Flagged w.db.connections) (organizationId : Nat) :
    ∃ found, StorageService.getPrimaryForOrganization organizationId w = .ok found ∧ ∀ c, found = some c ↔
      c ∈ w.db.connections.rows ∧ c.organizationId = organizationId ∧ c.isPrimary = true :=
  lookup_of_single fun c hc c' hc' horg horg' hflag hflag' =>
    h.single c hc c' hc' hflag hflag' (horg.trans horg'.symm)

theorem one_per_provider (t : Table StorageConnection) : ∀ c ∈ t.rows, ∀ c' ∈ t.rows,
    c.organizationId = c'.organizationId → c.provider = c'.provider → c = c' := by
  intro c hc c' hc' horganization hprovider
  by_contra hne
  have hid : Row.id c' ≠ Row.id c := fun hid => hne (Table.eq_of_id hc hc' hid.symm)
  refine t.unique c hc c' hc' hid (List.mem_singleton_self _) ?_
  change UniqueKey.mk _ _ _ ∈ [UniqueKey.mk _ _ _]
  rw [horganization, hprovider]
  exact List.mem_singleton_self _

/-- Whatever has happened, one call at a time. -/
theorem oneBackend_after (files : Bucket → String → Option Bytes) (changes : List Change) :
    OneBackend (System.after files changes) where
  single := (flagged_system files changes).single
  provider := one_per_provider _
  writable := (flagged_system files changes).writable
  lookup := lookup_of_flagged (flagged_system files changes)
  failed _ _ := perform_failed
  others i _ := others_after (connections_perform _ i)

end Orchestract
