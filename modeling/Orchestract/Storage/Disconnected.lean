import Orchestract.Documents.Uploads
import Orchestract.Isolation.WriteIsolation
import Orchestract.Storage.Primary

/-!
# Disconnected storage connections

`disconnect` takes the flag from a connection, but `set_primary` does not look at the status and
gives it back, and the files of a drive are listed and imported with whatever credentials are
stored. As long as nobody asks for this, a connection that was disconnected stays out of use until
it is authorised again.
-/

namespace Orchestract

set_option autoImplicit false

/-- What changes the system, and the listing of a drive's files. -/
inductive StorageEvent where
  | change (c : Change)
  | browse (env : Env) (connectionId : Nat) (folderId : Option String)

namespace StorageEvent

def next (s : System) : StorageEvent → System
  | .change c => s.next c
  | .browse .. => s

/-- The document whose new bytes are stored. -/
def uploads : StorageEvent → Option Nat
  | .change (.call ⟨_, .uploadVersion documentId _ _⟩) => some documentId
  | .change (.call ⟨_, .importVersion documentId _ _ _ _ _⟩) => some documentId
  | _ => none

/-- The connection whose files are listed or imported. -/
def reads : StorageEvent → Option Nat
  | .change (.call ⟨_, .importVersion _ connectionId _ _ _ _⟩) => some connectionId
  | .browse _ connectionId _ => some connectionId
  | _ => none

/-- The connection that is to be primary. -/
def promotes : StorageEvent → Option Nat
  | .change (.call ⟨_, .setPrimary connectionId⟩) => some connectionId
  | _ => none

/-- The connection the bytes of an upload go to. -/
def WritesTo (s : System) (e : StorageEvent) (connectionId : Nat) : Prop :=
  ∃ documentId document contract connection, e.uploads = some documentId ∧
    DocumentService.uploadTarget documentId s.world = .ok (document, contract, connection) ∧
    connection.id = connectionId

/-- The other service is asked with the credentials of the connection. -/
def UsesCredentials (s : System) (e : StorageEvent) (connectionId : Nat) : Prop :=
  e.reads = some connectionId ∧ ∃ c tokens, s.world.db.connections.get connectionId = some c ∧
    StorageService.tokensOf c s.world = .ok tokens

/-- A call that ends well and marks the connection as connected. -/
def Reconnects (s : System) (connectionId : Nat) (e : StorageEvent) : Prop :=
  ∃ env c tokens, s.world.db.connections.get connectionId = some c ∧
    e = .change (.call ⟨env, .completeOauthConnection c.organizationId c.provider tokens⟩) ∧
    ((Operation.completeOauthConnection c.organizationId c.provider tokens).run env s).1 = .ok ()

/-- Nobody asks to promote a disconnected backend or to read the files of a disconnected drive. -/
def Permitted (s : System) (e : StorageEvent) : Prop :=
  ∀ c ∈ s.world.db.connections.rows, c.status = .disconnected →
    (e.promotes = some c.id → c.isWriteCapable = false) ∧ (e.reads = some c.id → c.provider.isReadOnly = false)

instance (s : System) (e : StorageEvent) : Decidable (e.Permitted s) :=
  inferInstanceAs (Decidable (∀ c ∈ s.world.db.connections.rows, c.status = .disconnected →
    (e.promotes = some c.id → c.isWriteCapable = false) ∧
      (e.reads = some c.id → c.provider.isReadOnly = false)))

end StorageEvent

/-- From a disconnect of a connection until it is marked as connected, it is not primary, gets no
bytes and its credentials are not used. -/
def OutOfUse (files : Bucket → String → Option Bytes) (events : List StorageEvent) : Prop :=
  ∀ before env connectionId during rest,
    events = before ++ .change (.call ⟨env, .disconnect connectionId⟩) :: during ++ rest →
    let s := Runs.run StorageEvent.next (.initial files) before
    let s' := Runs.run StorageEvent.next (perform s ⟨env, .disconnect connectionId⟩) during
    ((Operation.disconnect connectionId).run env s).1 = .ok () →
    Runs.Along StorageEvent.next (fun s e => ¬ e.Reconnects s connectionId)
      (perform s ⟨env, .disconnect connectionId⟩) during →
    (∀ c, s'.world.db.connections.get connectionId = some c → c.isPrimary = false) ∧
      ∀ e ∈ rest.head?, ¬ e.WritesTo s' connectionId ∧ ¬ e.UsesCredentials s' connectionId

variable {t t₁ t' : Table StorageConnection} {c r : StorageConnection} {id : Nat}

/-! ## The status -/

/-- A saved row is found as it was saved, every other one as before. -/
theorem get_updated {a : StorageConnection} (hupdate : t.update a = some t') (hc : c ∈ t.rows) (hid : a.id = c.id)
    (hr : t.get id = some r) : (r = c ∧ t'.get id = some a) ∨ (r ≠ c ∧ t'.get id = some r) := by
  obtain ⟨hmem, rfl⟩ := Table.get_eq_some_iff.mp hr
  by_cases hsame : r.id = c.id
  · obtain rfl := Table.eq_of_id hmem hc hsame
    have hid : Row.id a = Row.id r := hid
    have hget := Table.get_of_update hupdate (hid.symm ▸ hr)
    exact Or.inl ⟨rfl, hid ▸ hget⟩
  · refine Or.inr ⟨fun heq => hsame (congrArg _ heq), ?_⟩
    rw [Table.get_update hupdate, if_neg fun heq : Row.id r = Row.id a => hsame (heq.trans hid)]
    exact hr

/-- The same connection with the same status, at a later time. -/
structure SameStatus (r r' : StorageConnection) : Prop where
  organizationId : r'.organizationId = r.organizationId
  provider : r'.provider = r.provider
  status : r'.status = r.status

theorem demoted_get (h : Demoted t c t₁) (hr : t.get id = some r) :
    ∃ r₁, t₁.get id = some r₁ ∧ SameStatus r r₁ := by
  cases h with
  | none => exact ⟨r, hr, rfl, rfl, rfl⟩
  | one hp _ _ _ _ hupdate =>
    rcases get_updated hupdate hp rfl hr with ⟨rfl, hget⟩ | ⟨_, hget⟩
    · exact ⟨_, hget, rfl, rfl, rfl⟩
    · exact ⟨r, hget, rfl, rfl, rfl⟩

/-- A disconnected connection stays so, unless its provider is authorised again. -/
theorem disconnected_after {i : Input} (hafter : ConnectionsAfter t i t') (hr : t.get id = some r)
    (hstatus : r.status = .disconnected) :
    (∃ tokens, i.operation = .completeOauthConnection r.organizationId r.provider tokens) ∨
      ∃ r', t'.get id = some r' ∧ r'.status = .disconnected := by
  cases hafter with
  | same => exact Or.inr ⟨r, hr, hstatus⟩
  | connected _ _ hdemoted hinsert =>
    obtain ⟨r₁, hget, hsame⟩ := demoted_get hdemoted hr
    exact Or.inr ⟨r₁, Table.get_of_insert hinsert hget, hsame.status.trans hstatus⟩
  | promoted _ hc _ hdemoted hupdate =>
    obtain ⟨r₁, hget, hsame⟩ := demoted_get hdemoted hr
    rcases get_updated hupdate (demoted_mem hdemoted hc) rfl hget with ⟨rfl, hget⟩ | ⟨_, hget⟩
    · exact Or.inr ⟨_, hget, hsame.status.trans hstatus⟩
    · exact Or.inr ⟨r₁, hget, hsame.status.trans hstatus⟩
  | disconnected _ hc hupdate =>
    rcases get_updated hupdate hc rfl hr with ⟨rfl, hget⟩ | ⟨_, hget⟩
    · exact Or.inr ⟨_, hget, rfl⟩
    · exact Or.inr ⟨r, hget, hstatus⟩
  | authorised hcall _ hc horganization hprovider hupdate =>
    rcases get_updated hupdate hc rfl hr with ⟨rfl, _⟩ | ⟨_, hget⟩
    · rw [horganization, hprovider]
      exact Or.inl ⟨_, hcall⟩
    · exact Or.inr ⟨r, hget, hstatus⟩
  | authorisedNew _ _ hinsert hupdate =>
    have hget := Table.get_of_insert hinsert hr
    rcases get_updated hupdate ((Table.mem_insert_iff hinsert).mpr (Or.inr rfl)) rfl hget with
      ⟨rfl, _⟩ | ⟨_, hget'⟩
    · exact absurd (Table.get_eq_some_iff.mp hr).2 (Table.id_ne_of_insert hinsert hr).symm
    · exact Or.inr ⟨r, hget', hstatus⟩

/-- The flag is not that of a disconnected connection. -/
def Retired (t : Table StorageConnection) : Prop :=
  ∀ c ∈ t.rows, c.status = .disconnected → c.isPrimary = false

theorem retired_demoted (h : Demoted t c t₁) (ht : Retired t) : Retired t₁ := by
  cases h with
  | none => exact ht
  | one _ _ _ _ _ hupdate =>
    intro r hr hstatus
    rcases Table.mem_update hupdate hr with rfl | ⟨hr, _⟩
    · rfl
    · exact ht r hr hstatus

theorem retired_update {a : StorageConnection} (hupdate : t.update a = some t') (ht : Retired t)
    (ha : a.status = .disconnected → a.isPrimary = false) : Retired t' := by
  intro r hr hstatus
  rcases Table.mem_update hupdate hr with rfl | ⟨hr, _⟩
  · exact ha hstatus
  · exact ht r hr hstatus

theorem retired_insert {a new : StorageConnection} (hinsert : t.insert a = some (new, t')) (ht : Retired t)
    (ha : a.status ≠ .disconnected) : Retired t' := by
  intro r hr hstatus
  obtain ⟨hnew, _, _⟩ := Table.insert_eq_some hinsert
  rcases (Table.mem_insert_iff hinsert).mp hr with hr | rfl
  · exact ht r hr hstatus
  · rw [hnew] at hstatus
    exact absurd hstatus ha

theorem retired_after {i : Input} (hafter : ConnectionsAfter t i t') (ht : Retired t)
    (hpermitted : ∀ c ∈ t.rows, c.status = .disconnected → i.operation = .setPrimary c.id →
      c.isWriteCapable = false) : Retired t' := by
  cases hafter with
  | same => exact ht
  | connected _ _ hdemoted hinsert =>
    exact retired_insert hinsert (retired_demoted hdemoted ht) (by simp [bucketConnection,
      StorageConnection.promoted, StorageConnection.markConnected])
  | promoted hcall hc hwrite hdemoted hupdate =>
    refine retired_update hupdate (retired_demoted hdemoted ht) fun hstatus => ?_
    have hnot := hpermitted _ hc hstatus hcall
    rw [hwrite] at hnot
    cases hnot
  | disconnected _ _ hupdate => exact retired_update hupdate ht fun _ => rfl
  | authorised _ _ _ _ _ hupdate => exact retired_update hupdate ht fun hstatus => by cases hstatus
  | authorisedNew _ _ hinsert hupdate =>
    exact retired_update hupdate (retired_insert hinsert ht (by simp [StorageConnection.create]))
      fun hstatus => by cases hstatus

/-! ## Runs -/

variable {s : System} {e : StorageEvent}

theorem retired_next (hs : Retired s.world.db.connections) (h : e.Permitted s) :
    Retired (StorageEvent.next s e).world.db.connections := by
  cases e with
  | browse env connectionId folderId => exact hs
  | change change =>
    change Retired (s.next change).world.db.connections
    rcases connections_next s change with hsame | ⟨i, rfl, hafter⟩
    · rw [hsame]
      exact hs
    · refine retired_after hafter hs fun c hc hstatus hcall => ?_
      obtain ⟨env, operation⟩ := i
      obtain rfl : operation = .setPrimary c.id := hcall
      exact (h c hc hstatus).1 rfl

/-- The connection is there and disconnected. -/
def Away (s : System) (connectionId : Nat) : Prop :=
  ∃ c, s.world.db.connections.get connectionId = some c ∧ c.status = .disconnected

theorem away_disconnect {env : Env} {connectionId : Nat}
    (h : ((Operation.disconnect connectionId).run env s).1 = .ok ()) :
    Away (perform s ⟨env, .disconnect connectionId⟩) connectionId := by
  unfold perform
  change (Operation.unit (StorageService.disconnect connectionId) s).1 = _ at h
  change Away (Operation.unit (StorageService.disconnect connectionId) s).2 connectionId
  rw [unit_apply] at h ⊢
  cases hm : StorageService.disconnect connectionId s.world with
  | error e => simp [hm] at h
  | ok p =>
    obtain ⟨a, w'⟩ := p
    obtain ⟨c, hc, ha, hsave⟩ := (change_ok_iff _ _ _ _ _ _).mp hm
    obtain rfl := Except.ok.inj ha
    obtain ⟨_, t', ht', rfl⟩ := (save_ok_iff _ s.world w').mp hsave
    obtain ⟨hmem, rfl⟩ := Table.get_eq_some_iff.mp hc
    rcases get_updated ht' hmem rfl hc with ⟨_, hget⟩ | ⟨hne, _⟩
    · exact ⟨c.disconnect, hget, rfl⟩
    · exact absurd rfl hne

theorem away_next {connectionId : Nat} (h : Away s connectionId) (hnot : ¬ e.Reconnects s connectionId) :
    Away (StorageEvent.next s e) connectionId := by
  obtain ⟨c, hc, hstatus⟩ := h
  cases e with
  | browse => exact ⟨c, hc, hstatus⟩
  | change change =>
    change Away (s.next change) connectionId
    rcases connections_next s change with hsame | ⟨i, rfl, hafter⟩
    · exact ⟨c, hsame.symm ▸ hc, hstatus⟩
    · rcases disconnected_after hafter hc hstatus with ⟨tokens, hcall⟩ | hstays
      · -- The provider was authorised again in vain.
        obtain ⟨env, operation⟩ := i
        obtain rfl : operation = .completeOauthConnection c.organizationId c.provider tokens := hcall
        have hfailed : ∀ u, ((Operation.completeOauthConnection c.organizationId c.provider tokens).run env s).1 ≠
            .ok u := fun u hok => hnot ⟨env, c, tokens, hc, rfl, hok⟩
        cases hrun : ((Operation.completeOauthConnection c.organizationId c.provider tokens).run env s).1 with
        | ok u => exact absurd hrun (hfailed u)
        | error failure =>
          have hsame : s.next (.call ⟨env, .completeOauthConnection c.organizationId c.provider tokens⟩) = s :=
            perform_failed (i := ⟨env, .completeOauthConnection c.organizationId c.provider tokens⟩) rfl hrun
          rw [hsame]
          exact ⟨c, hc, hstatus⟩
      · exact hstays

/-- A connection that is away and has no flag is not used. -/
theorem unused_of_away {connectionId : Nat} (hs : Retired s.world.db.connections) (haway : Away s connectionId)
    (h : e.Permitted s) : ¬ e.WritesTo s connectionId ∧ ¬ e.UsesCredentials s connectionId := by
  obtain ⟨c, hc, hstatus⟩ := haway
  obtain ⟨hmem, hid⟩ := Table.get_eq_some_iff.mp hc
  constructor
  · rintro ⟨documentId, document, contract, connection, _, htarget, hconnection⟩
    obtain ⟨_, _, hconn, hprimary, _⟩ := DocumentService.uploadTarget_ok_iff htarget
    obtain rfl := Table.eq_of_id hmem hconn (hid.trans hconnection.symm)
    rw [hs c hmem hstatus] at hprimary
    cases hprimary
  · rintro ⟨hreads, c', tokens, hc', htokens⟩
    obtain rfl := Option.some.inj (hc.symm.trans hc')
    have hid : c.id = connectionId := hid
    have hreadOnly : c.provider.isReadOnly = false := (h c hmem hstatus).2 (hid ▸ hreads)
    unfold StorageService.tokensOf at htokens
    cases hcredential : c.credential with
    | none => simp [hcredential] at htokens
    | some secrets => simp [hcredential, hreadOnly] at htokens

/-- Whatever happens, as long as nobody asks for what `Permitted` rules out. -/
theorem outOfUse_run (files : Bucket → String → Option Bytes) (events : List StorageEvent)
    (h : Runs.Along StorageEvent.next (fun s e => e.Permitted s) (.initial files) events) :
    OutOfUse files events := by
  rintro before env connectionId during rest rfl s s' hok hnot
  obtain ⟨hduring, hrest⟩ := Runs.along_append.mp h
  obtain ⟨hbefore, hdisconnect, hduring⟩ := Runs.along_append.mp hduring
  have hretired : Retired s.world.db.connections :=
    Runs.run_invariant_along (I := fun s : System => Retired s.world.db.connections)
      (fun _ _ => retired_next) (fun c hc => by cases hc) hbefore
  have hstart := retired_next hretired hdisconnect
  have haway : Away s' connectionId :=
    Runs.run_invariant_along (I := fun s => Away s connectionId) (fun _ _ => away_next) (away_disconnect hok) hnot
  have hretired' : Retired s'.world.db.connections :=
    Runs.run_invariant_along (I := fun s : System => Retired s.world.db.connections)
      (fun _ _ => retired_next) hstart hduring
  rw [Runs.run_append] at hrest
  refine ⟨fun c hc => ?_, fun e he => ?_⟩
  · obtain ⟨c', hc', hstatus⟩ := haway
    obtain rfl := Option.some.inj (hc.symm.trans hc')
    exact hretired' c (Table.get_eq_some_iff.mp hc).1 hstatus
  · cases rest with
    | nil => cases he
    | cons first rest =>
      obtain rfl := Option.some.inj he
      exact unused_of_away hretired' haway hrest.1

def storageCall (operation : Operation) : StorageEvent := .change (.call ⟨.offline 1 "", operation⟩)

/-- Acme connects a bucket and a drive, disconnects both, and authorises the drive again before it
looks at its files. -/
def driveReturns : List StorageEvent := [
  storageCall (.createOrganization "Acme"),
  storageCall (.connectBucket 1 .local "Disk" .empty .empty),
  storageCall (.completeOauthConnection 1 .googleDrive (some ⟨"access", none, none⟩)),
  storageCall (.disconnect 1),
  storageCall (.disconnect 2),
  storageCall (.completeOauthConnection 1 .googleDrive (some ⟨"access", none, none⟩)),
  .browse (.offline 2 "") 2 none]

theorem outOfUse_driveReturns : OutOfUse (fun _ _ => none) driveReturns :=
  outOfUse_run (fun _ _ => none) driveReturns (by decide +kernel)

/-- Acme makes the bucket primary that it has just disconnected. -/
def promotedAgain : List StorageEvent := [
  storageCall (.createOrganization "Acme"),
  storageCall (.connectBucket 1 .local "Disk" .empty .empty),
  storageCall (.disconnect 1),
  storageCall (.setPrimary 1)]

/-- Acme looks at the files of the drive that it has just disconnected. -/
def browsedAgain : List StorageEvent := [
  storageCall (.createOrganization "Acme"),
  storageCall (.completeOauthConnection 1 .googleDrive (some ⟨"access", none, none⟩)),
  storageCall (.disconnect 1),
  .browse (.offline 2 "") 1 none]

theorem not_outOfUse_again :
    ¬ OutOfUse (fun _ _ => none) promotedAgain ∧ ¬ OutOfUse (fun _ _ => none) browsedAgain := by
  constructor
  · intro h
    have hout := h (promotedAgain.take 2) (.offline 1 "") 1 [storageCall (.setPrimary 1)] [] rfl (by decide +kernel)
      ⟨?_, trivial⟩
    · have hflag : ((Runs.run StorageEvent.next (.initial fun _ _ => none) promotedAgain).world.db.connections.get
          1).map StorageConnection.isPrimary = some true := by decide +kernel
      obtain ⟨c, hc, hprimary⟩ := Option.map_eq_some_iff.mp hflag
      rw [hout.1 c hc] at hprimary
      cases hprimary
    · rintro ⟨_, _, _, _, heq, _⟩
      cases heq
  · intro h
    have hout := h (browsedAgain.take 2) (.offline 1 "") 1 [] [.browse (.offline 2 "") 1 none] rfl
      (by decide +kernel) trivial
    exact (hout.2 _ rfl).2 ⟨rfl, ⟨1, 1, .googleDrive, .disconnected, false, "Google Drive", .empty, 1,
      some { StorageSecrets.empty with accessToken := some "access" }⟩, ⟨"access", none, none⟩,
      by decide +kernel, rfl⟩

end Orchestract
