import Orchestract.Operations.Histories

/-!
# What happens to storage connections

The operations of `app/application/storage_service.py`, as what each leaves in the table of
connections.
-/

namespace Orchestract

set_option autoImplicit false

/-- The connections after the flag was taken from the primary of the organization of `c`, unless
that is `c` itself. -/
inductive Demoted (t : Table StorageConnection) (c : StorageConnection) : Table StorageConnection → Prop
  | none : (∀ p ∈ t.rows, p.isPrimary = true → p.organizationId = c.organizationId → p.id = c.id) →
      Demoted t c t
  | one {p : StorageConnection} {t' : Table StorageConnection} : p ∈ t.rows → p.isPrimary = true →
      p.organizationId = c.organizationId → p.id ≠ c.id →
      (∀ q ∈ t.rows, q.isPrimary = true → q.organizationId = c.organizationId → q = p) →
      t.update p.unmarkPrimary = some t' → Demoted t c t'

/-- The connection with the flag. -/
def StorageConnection.promoted (c : StorageConnection) : StorageConnection := { c with isPrimary := true }

/-- The connection that `connect_bucket` stores. -/
def bucketConnection (env : Env) (organizationId : Nat) (provider : StorageProvider) (displayName : String)
    (config : StorageConfig) (credentials : StorageSecrets) : StorageConnection :=
  ((StorageConnection.create organizationId provider displayName config env.now).setCredential
    credentials).markConnected

/-- The connections after a call. -/
inductive ConnectionsAfter (t : Table StorageConnection) (i : Input) : Table StorageConnection → Prop
  | same : ConnectionsAfter t i t
  | connected {organizationId : Nat} {provider : StorageProvider} {displayName : String}
      {config : StorageConfig} {credentials : StorageSecrets} {new : StorageConnection}
      {t₁ t' : Table StorageConnection} :
      i.operation = .connectBucket organizationId provider displayName config credentials →
      provider.isReadOnly = false →
      Demoted t (bucketConnection i.env organizationId provider displayName config credentials) t₁ →
      t₁.insert (bucketConnection i.env organizationId provider displayName config credentials).promoted =
        some (new, t') → ConnectionsAfter t i t'
  | promoted {c : StorageConnection} {t₁ t' : Table StorageConnection} : i.operation = .setPrimary c.id →
      c ∈ t.rows → c.isWriteCapable = true → Demoted t c t₁ → t₁.update c.promoted = some t' →
      ConnectionsAfter t i t'
  | disconnected {c : StorageConnection} {t' : Table StorageConnection} : i.operation = .disconnect c.id →
      c ∈ t.rows → t.update c.disconnect = some t' → ConnectionsAfter t i t'
  | authorised {organizationId : Nat} {provider : StorageProvider} {tokens : Option OAuthTokens}
      {secrets : StorageSecrets} {c : StorageConnection} {t' : Table StorageConnection} :
      i.operation = .completeOauthConnection organizationId provider tokens → provider.isReadOnly = true →
      c ∈ t.rows → c.organizationId = organizationId → c.provider = provider →
      t.update (c.setCredential secrets).markConnected = some t' → ConnectionsAfter t i t'
  | authorisedNew {organizationId : Nat} {provider : StorageProvider} {tokens : Option OAuthTokens}
      {displayName : String} {secrets : StorageSecrets} {c : StorageConnection}
      {t₁ t' : Table StorageConnection} :
      i.operation = .completeOauthConnection organizationId provider tokens → provider.isReadOnly = true →
      t.insert (.create organizationId provider displayName .empty i.env.now) = some (c, t₁) →
      t₁.update (c.setCredential secrets).markConnected = some t' → ConnectionsAfter t i t'

variable {w w' : World} {env : Env}

/-- The flag is taken before it is given. -/
theorem promote_demoted {c c' : StorageConnection} (h : StorageService.promote c w = .ok (c', w')) :
    c.isWriteCapable = true ∧ c' = c.promoted ∧
      ∃ t, Demoted w.db.connections c t ∧ w' = { w with db := { w.db with connections := t } } := by
  obtain ⟨hwrite, hc', found, hfound, hrest⟩ := promote_cases h
  have hmatch : ∀ q : StorageConnection, q.organizationId = c.organizationId → q.isPrimary = true →
      (decide (q.organizationId = c.organizationId) && q.isPrimary) = true := by
    intro q horganization hprimary
    rw [hprimary, Bool.and_true, decide_eq_true_iff]
    exact horganization
  refine ⟨hwrite, hc', ?_⟩
  rcases hrest with ⟨rfl, hsame⟩ | ⟨p, rfl, hid, hsave⟩
  · refine ⟨w'.db.connections, .none fun q hq hprimary horganization => ?_, rfl⟩
    cases found with
    | none => exact (oneOrNone_eq_none hfound hq (hmatch q horganization hprimary)).elim
    | some p =>
      obtain rfl := oneOrNone_only hfound hq (hmatch q horganization hprimary)
      exact hsame q rfl
  · obtain ⟨hmem, hp⟩ := oneOrNone_eq_some hfound
    simp only [Bool.and_eq_true, decide_eq_true_eq] at hp
    obtain ⟨_, t, ht, rfl⟩ := (save_ok_iff _ w w').mp hsave
    exact ⟨t, .one hmem hp.2 hp.1 hid
      (fun q hq hprimary horganization => oneOrNone_only hfound hq (hmatch q horganization hprimary)) ht, rfl⟩

theorem connectBucket_demoted {organizationId : Nat} {provider : StorageProvider} {displayName : String}
    {config : StorageConfig} {credentials : StorageSecrets} {a : StorageConnection}
    (h : StorageService.connectBucket env organizationId provider displayName config credentials w =
      .ok (a, w')) : provider.isReadOnly = false ∧ ∃ t, Demoted w.db.connections
        (bucketConnection env organizationId provider displayName config credentials) t ∧
      t.insert (bucketConnection env organizationId provider displayName config credentials).promoted =
        some (a, w'.db.connections) := by
  simp only [StorageService.connectBucket, Work.bind_ok_iff, Work.lift_ok_iff, lift_work_ok_iff] at h
  obtain ⟨_, _, ⟨_, rfl⟩, _, _, ⟨_, rfl⟩, c', w₁, hpromote, hadd⟩ := h
  obtain ⟨hwrite, rfl, t, hdemoted, rfl⟩ := promote_demoted hpromote
  obtain ⟨_, t', ht', rfl⟩ := (add_ok_iff _ a _ w').mp hadd
  have hwrite : (!provider.isReadOnly) = true := hwrite
  exact ⟨by simpa using hwrite, t, hdemoted, ht'⟩

theorem connectBucket_after {organizationId : Nat} {provider : StorageProvider} {displayName : String}
    {config : StorageConfig} {credentials : StorageSecrets} {a : StorageConnection}
    (h : StorageService.connectBucket env organizationId provider displayName config credentials w =
      .ok (a, w')) : ConnectionsAfter w.db.connections
        ⟨env, .connectBucket organizationId provider displayName config credentials⟩ w'.db.connections := by
  obtain ⟨hreadOnly, t, hdemoted, ht'⟩ := connectBucket_demoted h
  exact .connected rfl hreadOnly hdemoted ht'

theorem setPrimary_demoted {connectionId : Nat} {a : StorageConnection}
    (h : StorageService.setPrimary connectionId w = .ok (a, w')) :
    ∃ c ∈ w.db.connections.rows, c.id = connectionId ∧ c.isWriteCapable = true ∧
      ∃ t, Demoted w.db.connections c t ∧ t.update c.promoted = some w'.db.connections := by
  simp only [StorageService.setPrimary, StorageService.get, Work.bind_ok_iff, Work.lift_ok_iff,
    require_ok_iff, Work.pure_ok_iff] at h
  obtain ⟨c, _, ⟨hc, rfl⟩, c', w₁, hpromote, _, _, hsave, _, rfl⟩ := h
  obtain ⟨hwrite, rfl, t, hdemoted, rfl⟩ := promote_demoted hpromote
  obtain ⟨_, t', ht', rfl⟩ := (save_ok_iff _ _ _).mp hsave
  obtain ⟨hmem, hid⟩ := Table.get_eq_some_iff.mp hc
  exact ⟨c, hmem, hid, hwrite, t, hdemoted, ht'⟩

theorem setPrimary_after {connectionId : Nat} {a : StorageConnection}
    (h : StorageService.setPrimary connectionId w = .ok (a, w')) :
    ConnectionsAfter w.db.connections ⟨env, .setPrimary connectionId⟩ w'.db.connections := by
  obtain ⟨c, hmem, rfl, hwrite, t, hdemoted, ht'⟩ := setPrimary_demoted h
  exact .promoted rfl hmem hwrite hdemoted ht'

theorem disconnect_after {connectionId : Nat} {a : StorageConnection}
    (h : StorageService.disconnect connectionId w = .ok (a, w')) :
    ConnectionsAfter w.db.connections ⟨env, .disconnect connectionId⟩ w'.db.connections := by
  obtain ⟨c, hc, ha, hsave⟩ := (change_ok_iff _ _ _ _ _ _).mp h
  obtain rfl := Except.ok.inj ha
  obtain ⟨_, t, ht, rfl⟩ := (save_ok_iff _ w w').mp hsave
  obtain ⟨hmem, rfl⟩ := Table.get_eq_some_iff.mp hc
  exact .disconnected rfl hmem ht

theorem completeOauthConnection_after {organizationId : Nat} {provider : StorageProvider}
    {tokens : Option OAuthTokens} {a : StorageConnection}
    (h : StorageService.completeOauthConnection env organizationId provider tokens w = .ok (a, w')) :
    ConnectionsAfter w.db.connections ⟨env, .completeOauthConnection organizationId provider tokens⟩
      w'.db.connections := by
  obtain ⟨hread, secrets, c, w₁, rfl, horganization, hprovider, hmem, hc, hsave⟩ := completeOauth_ok h
  obtain ⟨_, t', ht', rfl⟩ := (save_ok_iff _ w₁ w').mp hsave
  rcases hc with rfl | hadd
  · exact .authorised rfl hread hmem horganization hprovider ht'
  · obtain ⟨_, t₁, ht₁, rfl⟩ := (add_ok_iff _ c w w₁).mp hadd
    exact .authorisedNew rfl hread ht₁ ht'

theorem connections_perform (s : System) (i : Input) :
    ConnectionsAfter s.world.db.connections i (perform s i).world.db.connections := by
  have hunit : ∀ {α : Type} {m : UnitOfWork α}, (∀ a w', m s.world = .ok (a, w') →
      ConnectionsAfter s.world.db.connections i w'.db.connections) →
      ConnectionsAfter s.world.db.connections i (Operation.unit m s).2.world.db.connections :=
    fun h => unit_world (I := fun w => ConnectionsAfter s.world.db.connections i w.db.connections) h .same
  by_cases hsite : Site.connections ∈ i.operation.footprint
  · obtain ⟨env, operation⟩ := i
    cases operation with
    | connectBucket organizationId provider displayName config credentials =>
      exact hunit fun _ _ h => connectBucket_after h
    | setPrimary connectionId => exact hunit fun _ _ h => setPrimary_after h
    | disconnect connectionId => exact hunit fun _ _ h => disconnect_after h
    | completeOauthConnection organizationId provider tokens =>
      exact hunit fun _ _ h => completeOauthConnection_after h
    | _ => simp [Operation.footprint] at hsite
  · have hsame : (perform s i).world.db.connections = s.world.db.connections := perform_same hsite
    rw [hsame]
    exact .same

/-- Only calls touch connections. -/
theorem connections_next (s : System) (c : Change) : (s.next c).world.db.connections = s.world.db.connections ∨
    ∃ i, c = .call i ∧ ConnectionsAfter s.world.db.connections i (s.next c).world.db.connections := by
  cases c with
  | call i => exact Or.inr ⟨i, rfl, connections_perform s i⟩
  | _ => exact Or.inl (next_same (n := .connections) (by simp [Change.footprint]))

end Orchestract
