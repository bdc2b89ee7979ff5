import Orchestract.Library.Handovers
import Orchestract.Storage.Working
import Orchestract.Workflow.Concurrency

/-!
# Promotions

A `set_primary` or `connect_bucket` request as a unit of work among others. Its commit updates by
primary key the flags that are not what was loaded and inserts the new connection. Seen through who
has the flag, it is a handover.
-/

namespace Orchestract

set_option autoImplicit false

open UnitsOfWork (Event Shared Interleaving opened written)
open WorkflowInstance (writeColumn)

inductive Promotion where
  | setPrimary (connectionId : Nat)
  | connectBucket (provider : StorageProvider) (displayName : String) (config : StorageConfig)
      (credentials : StorageSecrets)
deriving DecidableEq, Repr

def World.withConnections (w : World) (t : Table StorageConnection) : World :=
  { w with db := { w.db with connections := t } }

namespace Promotion

/-- The flag as it is written: the only column of a stored connection that these requests change. -/
def flushFlag (loaded new : Table StorageConnection) (r : StorageConnection) : StorageConnection :=
  match loaded.get r.id, new.get r.id with
  | some a, some b => { r with isPrimary := writeColumn a.isPrimary b.isPrimary r.isPrimary }
  | _, _ => r

theorem flushFlag_same (loaded new : Table StorageConnection) (r : StorageConnection) :
    ∃ flag, flushFlag loaded new r = { r with isPrimary := flag } := by
  unfold flushFlag
  split
  · exact ⟨_, rfl⟩
  · exact ⟨r.isPrimary, rfl⟩

/-- The `UPDATE`s. -/
def updated (loaded new stored : Table StorageConnection) : Table StorageConnection :=
  stored.mapRows (flushFlag loaded new)
    (fun r => by
      obtain ⟨_, h⟩ := flushFlag_same loaded new r
      rw [h]
      rfl)
    fun r => by
      obtain ⟨_, h⟩ := flushFlag_same loaded new r
      rw [h]
      rfl

/-- What a unit of work that has loaded and changed the connections stores. -/
def flush (loaded new stored : Table StorageConnection) : Option (Table StorageConnection) :=
  (new.rows.filter fun r => (loaded.get r.id).isNone).foldlM (fun t r => (t.insert r).map Prod.snd)
    (updated loaded new stored)

section

variable (w : World) (env : Promotion → Env) (organizationId : Nat)

def run : Promotion → UnitOfWork StorageConnection
  | .setPrimary connectionId => StorageService.setPrimary connectionId
  | .connectBucket provider displayName config credentials =>
    StorageService.connectBucket (env (.connectBucket provider displayName config credentials))
      organizationId provider displayName config credentials

/-- The unit of work of a request, over the connections of `w`. -/
def commit (k : Promotion) (loaded stored : Table StorageConnection) : Option (Table StorageConnection) :=
  match k.run env organizationId (w.withConnections loaded) with
  | .ok (_, new) => flush loaded new.db.connections stored
  | .error _ => none

end

/-- The request promotes a write-capable connection of the organization, to this provider, or is
about to store one. -/
def Promotes (organizationId : Nat) (t : Table StorageConnection) (p : StorageProvider) : Promotion → Prop
  | .setPrimary connectionId => ∃ c, t.get connectionId = some c ∧ c.organizationId = organizationId ∧
      c.provider = p ∧ c.isWriteCapable = true
  | .connectBucket provider _ _ _ => provider = p ∧ p.isReadOnly = false ∧
      ∀ c ∈ t.rows, c.organizationId = organizationId → c.provider ≠ p

end Promotion

/-- The providers whose connections have the flag. -/
def primaries (organizationId : Nat) (t : Table StorageConnection) : Finset StorageProvider :=
  ((t.select fun c => c.organizationId = organizationId && c.isPrimary).map StorageConnection.provider).toFinset

theorem mem_primaries {organizationId : Nat} {t : Table StorageConnection} {p : StorageProvider} :
    p ∈ primaries organizationId t ↔
      ∃ c ∈ t.rows, c.organizationId = organizationId ∧ c.isPrimary = true ∧ c.provider = p := by
  simp [primaries, Table.mem_select_iff, and_assoc]

variable {t t₁ t' : Table StorageConnection} {c r : StorageConnection} {organizationId : Nat}
  {p : StorageProvider}

/-- With one provider there is one connection with the flag. -/
theorem onePrimary_of_card (h : (primaries organizationId t).card ≤ 1) : OnePrimary organizationId t := by
  intro c hc c' hc' horg horg' hflag hflag'
  apply one_per_provider t c hc c' hc' (horg.trans horg'.symm)
  exact Finset.card_le_one.mp h _ (mem_primaries.mpr ⟨c, hc, horg, hflag, rfl⟩) _
    (mem_primaries.mpr ⟨c', hc', horg', hflag', rfl⟩)

theorem card_of_onePrimary (h : OnePrimary organizationId t) : (primaries organizationId t).card ≤ 1 := by
  refine Finset.card_le_one.mpr fun p hp q hq => ?_
  obtain ⟨c, hc, horg, hflag, rfl⟩ := mem_primaries.mp hp
  obtain ⟨c', hc', horg', hflag', rfl⟩ := mem_primaries.mp hq
  rw [h c hc c' hc' horg horg' hflag hflag']

/-! ## A unit of work on its own -/

/-- A connection of the organization has the flag if it is the promoted one. -/
def moved (organizationId : Nat) (p : StorageProvider) (r : StorageConnection) : StorageConnection :=
  if r.organizationId = organizationId then { r with isPrimary := decide (r.provider = p) } else r

/-- No connection with the flag is left in the organization, but the promoted one. -/
theorem demoted_rows (h : Demoted t c t₁) : t₁.rows = t.rows.map fun r =>
    if r.organizationId = c.organizationId ∧ r.id ≠ c.id then r.unmarkPrimary else r := by
  have hunmarked : ∀ r : StorageConnection, r.isPrimary = false → r.unmarkPrimary = r := by
    rintro ⟨_, _, _, _, _, _, _, _, _⟩ hflag
    cases hflag
    rfl
  cases h with
  | none hnone =>
    refine (List.map_id t.rows).symm.trans (List.map_congr_left fun r hr => ?_)
    by_cases hc : r.organizationId = c.organizationId ∧ r.id ≠ c.id
    · have hflag : r.isPrimary = false := by
        by_contra hflag
        exact hc.2 (hnone r hr (by simpa using hflag) hc.1)
      rw [if_pos hc, hunmarked r hflag]
      rfl
    · rw [if_neg hc]
      rfl
  | @one p _ hp hflag horganization hid honly hupdate =>
    obtain ⟨hrows, _⟩ := Table.update_eq_some hupdate
    rw [hrows]
    refine List.map_congr_left fun r hr => ?_
    by_cases hrp : r = p
    · subst hrp
      have hsame : Row.id r = Row.id r.unmarkPrimary := rfl
      rw [if_pos hsame, if_pos ⟨horganization, hid⟩]
    · have hne : Row.id r ≠ Row.id p.unmarkPrimary := fun heq => hrp (Table.eq_of_id hr hp heq)
      rw [if_neg hne]
      by_cases hc : r.organizationId = c.organizationId ∧ r.id ≠ c.id
      · have hflag : r.isPrimary = false := by
          by_contra hflag
          exact hrp (honly r hr (by simpa using hflag) hc.1)
        rw [if_pos hc, hunmarked r hflag]
      · rw [if_neg hc]

/-- There was at most one connection with the flag. -/
theorem card_of_demoted (h : Demoted t c t₁) : (primaries c.organizationId t).card ≤ 1 := by
  apply card_of_onePrimary
  intro a ha b hb horg horg' hflag hflag'
  cases h with
  | none hnone => exact Table.eq_of_id ha hb ((hnone a ha hflag horg).trans (hnone b hb hflag' horg').symm)
  | one _ _ _ _ honly => exact (honly a ha hflag horg).trans (honly b hb hflag' horg').symm

/-- Promoting a stored connection. -/
theorem promoted_rows (h : Demoted t c t₁) (hc : c ∈ t.rows) (hupdate : t₁.update c.promoted = some t') :
    t'.rows = t.rows.map (moved c.organizationId c.provider) := by
  obtain ⟨hrows, _⟩ := Table.update_eq_some hupdate
  rw [hrows, demoted_rows h, Table.overwrite, List.map_map]
  refine List.map_congr_left fun r hr => ?_
  unfold moved
  by_cases hrc : r = c
  · subst hrc
    simp [StorageConnection.promoted, Row.id]
  · have hne : r.id ≠ c.id := fun heq => hrc (Table.eq_of_id hr hc heq)
    by_cases horg : r.organizationId = c.organizationId
    · have hprovider : r.provider ≠ c.provider := fun heq => hrc (one_per_provider t r hr c hc horg heq)
      simp [StorageConnection.promoted, StorageConnection.unmarkPrimary, Row.id, horg, hne, hprovider]
    · simp [StorageConnection.promoted, Row.id, horg, hne]

/-- Promoting a connection that is about to be stored. -/
theorem connected_rows (h : Demoted t c t₁) (ht : t.Numbered) (hid : c.id = 0)
    (hmissing : ∀ r ∈ t.rows, r.organizationId = c.organizationId → r.provider ≠ c.provider) :
    t₁.rows = t.rows.map (moved c.organizationId c.provider) := by
  rw [demoted_rows h]
  refine List.map_congr_left fun r hr => ?_
  have hne : r.id ≠ c.id := fun heq => Nat.ne_of_gt (ht.2 r hr) (heq.trans hid)
  unfold moved
  by_cases horg : r.organizationId = c.organizationId
  · simp [StorageConnection.unmarkPrimary, horg, hne, hmissing r hr horg]
  · simp [horg]

namespace Promotion

variable {w w' : World} {env : Promotion → Env} {k : Promotion} {a : StorageConnection}

/-- What is added to the connections: nothing if the promoted one is stored, and else this one. -/
inductive Created (organizationId : Nat) (p : StorageProvider) (t : Table StorageConnection) :
    List StorageConnection → Prop
  | none {c : StorageConnection} : c ∈ t.rows → c.organizationId = organizationId → c.provider = p →
      Created organizationId p t []
  | one {new : StorageConnection} : new.id = t.next → new.organizationId = organizationId →
      new.provider = p → new.isPrimary = true →
      (∀ c ∈ t.rows, c.organizationId = organizationId → c.provider ≠ p) → Created organizationId p t [new]

theorem run_rows (hk : Promotes organizationId w.db.connections p k) (ht : w.db.connections.Numbered)
    (h : k.run env organizationId w = .ok (a, w')) :
    (primaries organizationId w.db.connections).card ≤ 1 ∧ ∃ created,
      Created organizationId p w.db.connections created ∧
      w'.db.connections.rows = w.db.connections.rows.map (moved organizationId p) ++ created := by
  cases k with
  | setPrimary connectionId =>
    obtain ⟨c, hc, horganization, rfl, _⟩ := hk
    obtain ⟨c', hmem, hid, _, t, hdemoted, hupdate⟩ := setPrimary_demoted h
    obtain ⟨hmem', hid'⟩ := Table.get_eq_some_iff.mp hc
    obtain rfl := Table.eq_of_id hmem hmem' (hid.trans hid'.symm)
    subst horganization
    refine ⟨card_of_demoted hdemoted, [], .none hmem rfl rfl, ?_⟩
    rw [promoted_rows hdemoted hmem hupdate, List.append_nil]
  | connectBucket provider displayName config credentials =>
    obtain ⟨rfl, _, hmissing⟩ := hk
    obtain ⟨_, t, hdemoted, hinsert⟩ := connectBucket_demoted h
    obtain ⟨hnew, hrows, _⟩ := Table.insert_eq_some hinsert
    have hnext : t.next = w.db.connections.next := by
      cases hdemoted with
      | none => rfl
      | one _ _ _ _ _ hupdate => exact (Table.update_eq_some hupdate).2
    refine ⟨card_of_demoted hdemoted, [a], .one ?_ ?_ ?_ ?_ hmissing, ?_⟩
    · rw [hnew]
      exact hnext
    · rw [hnew]
      rfl
    · rw [hnew]
      rfl
    · rw [hnew]
      rfl
    · rw [hrows, connected_rows hdemoted ht rfl hmissing]
      rfl

/-! ## Commits -/

/-- One connection at two times. -/
structure Same (r r' : StorageConnection) : Prop where
  id : r'.id = r.id
  organizationId : r'.organizationId = r.organizationId
  provider : r'.provider = r.provider

/-- What is there stays there. -/
def Stays (t t' : Table StorageConnection) : Prop := ∀ r ∈ t.rows, ∃ r' ∈ t'.rows, Same r r'

theorem Same.trans {r₁ r₂ r₃ : StorageConnection} (h : Same r₁ r₂) (h' : Same r₂ r₃) : Same r₁ r₃ :=
  ⟨h'.id.trans h.id, h'.organizationId.trans h.organizationId, h'.provider.trans h.provider⟩

theorem stays_refl (t : Table StorageConnection) : Stays t t := fun r hr => ⟨r, hr, rfl, rfl, rfl⟩

theorem Stays.trans {t₁ t₂ t₃ : Table StorageConnection} (h : Stays t₁ t₂) (h' : Stays t₂ t₃) : Stays t₁ t₃ := by
  intro r hr
  obtain ⟨r', hr', hsame⟩ := h r hr
  obtain ⟨r'', hr'', hsame'⟩ := h' r' hr'
  exact ⟨r'', hr'', hsame.trans hsame'⟩

variable {l n s s' : Table StorageConnection} {created : List StorageConnection}

theorem same_flushFlag (l n : Table StorageConnection) (r : StorageConnection) : Same r (flushFlag l n r) := by
  obtain ⟨flag, h⟩ := flushFlag_same l n r
  rw [h]
  exact ⟨rfl, rfl, rfl⟩

theorem same_moved (organizationId : Nat) (p : StorageProvider) (r : StorageConnection) :
    Same r (moved organizationId p r) := by
  unfold moved
  split
  · exact ⟨rfl, rfl, rfl⟩
  · exact ⟨rfl, rfl, rfl⟩

/-- A connection that was loaded is written as it was changed, any other stays as it is. -/
theorem flushFlag_cases (hrows : n.rows = l.rows.map (moved organizationId p) ++ created) (hstays : Stays l s)
    (hr : r ∈ s.rows) : (∃ a ∈ l.rows, Same a r ∧ flushFlag l n r =
        { r with isPrimary := writeColumn a.isPrimary (moved organizationId p a).isPrimary r.isPrimary }) ∨
      flushFlag l n r = r ∧ ∀ a ∈ l.rows, a.organizationId = r.organizationId → a.provider ≠ r.provider := by
  cases hl : l.get r.id with
  | none =>
    refine Or.inr ⟨by simp [flushFlag, hl], fun a ha horg hprovider => ?_⟩
    obtain ⟨r', hr', hsame⟩ := hstays a ha
    obtain rfl := one_per_provider s r' hr' r hr (hsame.organizationId.trans horg) (hsame.provider.trans hprovider)
    exact Table.get_eq_none_iff.mp hl a ha hsame.id.symm
  | some a =>
    obtain ⟨ha, hid⟩ := Table.get_eq_some_iff.mp hl
    obtain ⟨r', hr', hsame⟩ := hstays a ha
    obtain rfl := Table.eq_of_id hr' hr (hsame.id.trans hid)
    have hn : n.get r'.id = some (moved organizationId p a) := by
      refine Table.get_eq_some_iff.mpr ⟨?_, (same_moved organizationId p a).id.trans hid⟩
      rw [hrows]
      exact List.mem_append_left _ (List.mem_map_of_mem ha)
    exact Or.inl ⟨a, ha, hsame, by simp [flushFlag, hl, hn]⟩

/-- Who has the flag after the writes. -/
theorem flushFlag_primary (hrows : n.rows = l.rows.map (moved organizationId p) ++ created)
    (hstays : Stays l s) (hcard : (primaries organizationId l).card ≤ 1)
    (hknown : ∀ r ∈ s.rows, r.organizationId = organizationId → r.provider = p →
      ∃ a ∈ l.rows, a.organizationId = organizationId ∧ a.provider = p)
    (hr : r ∈ s.rows) (horganization : r.organizationId = organizationId) :
    (flushFlag l n r).isPrimary = true ↔ if p ∈ primaries organizationId l then r.isPrimary = true
      else r.provider = p ∨ r.isPrimary = true ∧ r.provider ∉ primaries organizationId l := by
  rcases flushFlag_cases hrows hstays hr with ⟨a, ha, hsame, hflush⟩ | ⟨hflush, hnone⟩
  · have horg : a.organizationId = organizationId := hsame.organizationId.symm.trans horganization
    have hflag : a.isPrimary = true ↔ r.provider ∈ primaries organizationId l := by
      rw [hsame.provider]
      refine ⟨fun h => mem_primaries.mpr ⟨a, ha, horg, h, rfl⟩, fun h => ?_⟩
      obtain ⟨b, hb, horg', hprimary, hprovider⟩ := mem_primaries.mp h
      rwa [one_per_provider l b hb a ha (horg'.trans horg.symm) hprovider] at hprimary
    have hmoved : (moved organizationId p a).isPrimary = decide (r.provider = p) := by
      simp [moved, horg, hsame.provider]
    rw [hflush, hmoved]
    by_cases hp : p ∈ primaries organizationId l
    · have hiff : r.provider ∈ primaries organizationId l ↔ r.provider = p :=
        ⟨fun h => Finset.card_le_one.mp hcard _ h _ hp, fun h => h ▸ hp⟩
      have heq : decide (r.provider = p) = a.isPrimary := by
        rw [Bool.eq_iff_iff, decide_eq_true_iff, hflag, hiff]
      simp [writeColumn, heq, hp]
    · by_cases hrp : r.provider = p
      · have hnot : a.isPrimary = false := by
          rw [← Bool.not_eq_true, hflag, hrp]
          exact hp
        simp [writeColumn, hnot, hrp, hp]
      · by_cases hin : r.provider ∈ primaries organizationId l
        · simp [writeColumn, hflag.mpr hin, hrp, hp, hin]
        · have hnot : a.isPrimary = false := by
            rw [← Bool.not_eq_true, hflag]
            exact hin
          simp [writeColumn, hnot, hrp, hp, hin]
  · have hrp : r.provider ≠ p := by
      intro hrp
      obtain ⟨a, ha, horg, hprovider⟩ := hknown r hr horganization hrp
      exact hnone a ha (horg.trans horganization.symm) (hprovider.trans hrp.symm)
    have hin : r.provider ∉ primaries organizationId l := by
      intro h
      obtain ⟨a, ha, horg, _, hprovider⟩ := mem_primaries.mp h
      exact hnone a ha (horg.trans horganization.symm) hprovider
    rw [hflush]
    simp [hrp, hin]

theorem flush_eq (hrows : n.rows = l.rows.map (moved organizationId p) ++ created)
    (hcreated : Created organizationId p l created) :
    flush l n s = created.foldlM (fun t r => (t.insert r).map Prod.snd) (updated l n s) := by
  have hfilter : n.rows.filter (fun r => (l.get r.id).isNone) = created := by
    have hold : (l.rows.map (moved organizationId p)).filter (fun r => (l.get r.id).isNone) = [] := by
      refine List.filter_eq_nil_iff.mpr fun b hb hnone => ?_
      obtain ⟨a, ha, rfl⟩ := List.mem_map.mp hb
      have hget : l.get (moved organizationId p a).id = some a :=
        Table.get_eq_some_iff.mpr ⟨ha, (same_moved organizationId p a).id.symm⟩
      rw [hget] at hnone
      cases hnone
    rw [hrows, List.filter_append, hold, List.nil_append, List.filter_eq_self]
    intro b hb
    cases hcreated with
    | none => cases hb
    | one hid =>
      obtain rfl := List.mem_singleton.mp hb
      rw [hid, Table.get_next]
      rfl
  unfold flush
  rw [hfilter]

/-- The connections after a commit, old and new. -/
structure Flushed (organizationId : Nat) (p : StorageProvider) (l n s s' : Table StorageConnection)
    (created : List StorageConnection) : Prop where
  mem : ∀ r', r' ∈ s'.rows ↔ (∃ r ∈ s.rows, r' = flushFlag l n r) ∨
    ∃ new ∈ created, r' = { new with id := s.next }
  next : s'.next = s.next + created.length

theorem flushed_of_flush (hrows : n.rows = l.rows.map (moved organizationId p) ++ created)
    (hcreated : Created organizationId p l created) (h : flush l n s = some s') :
    Flushed organizationId p l n s s' created := by
  have hmem : ∀ r', r' ∈ (updated l n s).rows ↔ ∃ r ∈ s.rows, r' = flushFlag l n r := by
    intro r'
    simp [updated, Table.mapRows, eq_comm]
  rw [flush_eq hrows hcreated] at h
  cases hcreated with
  | none =>
    obtain rfl := Option.some.inj h
    exact ⟨fun r' => by simp [hmem], rfl⟩
  | @one new =>
    simp only [List.foldlM_cons, List.foldlM_nil, Option.bind_eq_bind, Option.bind_eq_some_iff,
      Option.map_eq_some_iff] at h
    obtain ⟨t, ⟨⟨new', t'⟩, hinsert, rfl⟩, ht⟩ := h
    obtain rfl := Option.some.inj ht
    obtain ⟨rfl, _, hnext⟩ := Table.insert_eq_some hinsert
    refine ⟨fun r' => ?_, hnext⟩
    rw [Table.mem_insert_iff hinsert, hmem]
    simp only [List.mem_singleton, exists_eq_left]
    exact Iff.rfl

theorem commit_cases (hk : Promotes organizationId l p k) (hl : l.Numbered)
    (h : commit w env organizationId k l s = some s') : (primaries organizationId l).card ≤ 1 ∧
      ∃ n created, n.rows = l.rows.map (moved organizationId p) ++ created ∧
        Created organizationId p l created ∧ flush l n s = some s' := by
  unfold commit at h
  cases hrun : k.run env organizationId (w.withConnections l) with
  | error e => simp [hrun] at h
  | ok result =>
    obtain ⟨a, new⟩ := result
    obtain ⟨hcard, created, hcreated, hrows⟩ := run_rows hk hl hrun
    simp only [hrun] at h
    exact ⟨hcard, new.db.connections, created, hrows, hcreated, h⟩

/-- Where the loaded connections have none of the provider, the stored ones have none either. -/
theorem promotes_known (hk : Promotes organizationId l p k) (hk' : Promotes organizationId s p k) :
    ∀ r ∈ s.rows, r.organizationId = organizationId → r.provider = p →
      ∃ a ∈ l.rows, a.organizationId = organizationId ∧ a.provider = p := by
  intro r hr horganization hprovider
  cases k with
  | setPrimary connectionId =>
    obtain ⟨c, hc, horg, hp, _⟩ := hk
    exact ⟨c, (Table.get_eq_some_iff.mp hc).1, horg, hp⟩
  | connectBucket provider displayName config credentials =>
    exact absurd hprovider (hk'.2.2 r hr horganization)

/-- What a commit does to the connections of the organization. -/
structure Promoted (organizationId : Nat) (p : StorageProvider) (s s' : Table StorageConnection) : Prop where
  stays : Stays s s'
  others : ∀ r' ∈ s'.rows, r'.organizationId = organizationId → r'.provider ≠ p → ∃ r ∈ s.rows, Same r r'
  numbered : s.Numbered → s'.Numbered

theorem commit_promoted (hk : Promotes organizationId l p k) (hl : l.Numbered)
    (h : commit w env organizationId k l s = some s') : Promoted organizationId p s s' := by
  obtain ⟨_, n, created, hrows, hcreated, hflush⟩ := commit_cases hk hl h
  have hstored := flushed_of_flush hrows hcreated hflush
  refine ⟨fun r hr => ?_, fun r' hr' horganization hprovider => ?_, fun hs => ⟨?_, fun r' hr' => ?_⟩⟩
  · exact ⟨flushFlag l n r, (hstored.mem _).mpr (Or.inl ⟨r, hr, rfl⟩), same_flushFlag l n r⟩
  · rcases (hstored.mem r').mp hr' with ⟨r, hr, rfl⟩ | ⟨new, hnew, rfl⟩
    · exact ⟨r, hr, same_flushFlag l n r⟩
    · cases hcreated with
      | none => cases hnew
      | one _ _ hp =>
        obtain rfl := List.mem_singleton.mp hnew
        exact absurd hp hprovider
  · rw [hstored.next]
    have hpos := hs.1
    omega
  · rcases (hstored.mem r').mp hr' with ⟨r, hr, rfl⟩ | ⟨new, hnew, rfl⟩
    · have hid : (flushFlag l n r).id = r.id := (same_flushFlag l n r).id
      change 0 < (flushFlag l n r).id
      rw [hid]
      exact hs.2 r hr
    · exact hs.1

/-- Stored connections that have the flag now, and the new one. -/
theorem mem_primaries_flushed {q : StorageProvider} (hcreated : Created organizationId p l created)
    (h : Flushed organizationId p l n s s' created) : q ∈ primaries organizationId s' ↔
      (∃ r ∈ s.rows, r.organizationId = organizationId ∧ (flushFlag l n r).isPrimary = true ∧ r.provider = q) ∨
        created ≠ [] ∧ q = p := by
  rw [mem_primaries]
  constructor
  · rintro ⟨r', hr', horganization, hflag, rfl⟩
    rcases (h.mem r').mp hr' with ⟨r, hr, rfl⟩ | ⟨new, hnew, rfl⟩
    · have hsame := same_flushFlag l n r
      exact Or.inl ⟨r, hr, hsame.organizationId ▸ horganization, hflag, hsame.provider.symm⟩
    · cases hcreated with
      | none => cases hnew
      | one _ _ hprovider =>
        obtain rfl := List.mem_singleton.mp hnew
        exact Or.inr ⟨List.cons_ne_nil _ _, hprovider⟩
  · rintro (⟨r, hr, horganization, hflag, rfl⟩ | ⟨hne, rfl⟩)
    · have hsame := same_flushFlag l n r
      exact ⟨_, (h.mem _).mpr (Or.inl ⟨r, hr, rfl⟩), hsame.organizationId.trans horganization, hflag,
        hsame.provider⟩
    · cases hcreated with
      | none => exact absurd rfl hne
      | one _ horganization hprovider hflag =>
        exact ⟨_, (h.mem _).mpr (Or.inr ⟨_, List.mem_singleton_self _, rfl⟩), horganization, hflag, hprovider⟩

/-- The flag is handed over. -/
theorem commit_primaries {provider : Promotion → StorageProvider}
    (hk : Promotes organizationId l (provider k) k) (hk' : Promotes organizationId s (provider k) k)
    (hl : l.Numbered) (hstays : Stays l s) (h : commit w env organizationId k l s = some s') :
    Handovers.handOver provider k (primaries organizationId l) (primaries organizationId s) =
      some (primaries organizationId s') := by
  obtain ⟨hcard, n, created, hrows, hcreated, hflush⟩ := commit_cases hk hl h
  have hflushed := flushed_of_flush hrows hcreated hflush
  have hflag := fun r hr => flushFlag_primary (r := r) hrows hstays hcard (promotes_known hk hk') hr
  simp only [Handovers.handOver, hcard, if_true, Option.some.injEq]
  ext q
  rw [mem_primaries_flushed hcreated hflushed]
  by_cases hp : provider k ∈ primaries organizationId l
  · -- The promoted connection had the flag when it was loaded: nothing is written.
    have hnil : created = [] := by
      cases hcreated with
      | none => rfl
      | one _ _ _ _ hmissing =>
        obtain ⟨c, hc, horg, _, hprovider⟩ := mem_primaries.mp hp
        exact absurd hprovider (hmissing c hc horg)
    rw [if_pos hp, mem_primaries]
    constructor
    · rintro ⟨r, hr, horg, hprimary, hq⟩
      exact Or.inl ⟨r, hr, horg, (hflag r hr horg).mpr (by rwa [if_pos hp]), hq⟩
    · rintro (⟨r, hr, horg, hprimary, hq⟩ | ⟨hne, _⟩)
      · have hold := (hflag r hr horg).mp hprimary
        rw [if_pos hp] at hold
        exact ⟨r, hr, horg, hold, hq⟩
      · exact absurd hnil hne
  · rw [if_neg hp, Finset.mem_insert, Finset.mem_sdiff]
    constructor
    · rintro (rfl | ⟨hs, hnot⟩)
      · cases hcreated with
        | none hc horg hprovider =>
          obtain ⟨r, hr, hsame⟩ := hstays _ hc
          have horg' := hsame.organizationId.trans horg
          have hprovider' := hsame.provider.trans hprovider
          refine Or.inl ⟨r, hr, horg', (hflag r hr horg').mpr ?_, hprovider'⟩
          rw [if_neg hp]
          exact Or.inl hprovider'
        | one => exact Or.inr ⟨List.cons_ne_nil _ _, rfl⟩
      · obtain ⟨r, hr, horg, hprimary, rfl⟩ := mem_primaries.mp hs
        refine Or.inl ⟨r, hr, horg, (hflag r hr horg).mpr ?_, rfl⟩
        rw [if_neg hp]
        exact Or.inr ⟨hprimary, hnot⟩
    · rintro (⟨r, hr, horg, hprimary, rfl⟩ | ⟨_, rfl⟩)
      · have hnew := (hflag r hr horg).mp hprimary
        rw [if_neg hp] at hnew
        rcases hnew with hrp | ⟨hold, hnot⟩
        · exact Or.inl hrp
        · exact Or.inr ⟨mem_primaries.mpr ⟨r, hr, horg, hold, rfl⟩, hnot⟩
      · exact Or.inl rfl

variable (env) in
/-- With at most one primary loaded, a request does what it is for. -/
theorem run_succeeds (horganization : (w.db.organizations.get organizationId).isSome = true)
    (hk : Promotes organizationId w.db.connections p k) (hcard : (primaries organizationId w.db.connections).card ≤ 1) :
    ∃ a w', k.run env organizationId w = .ok (a, w') := by
  have hone := onePrimary_of_card hcard
  cases k with
  | setPrimary connectionId =>
    obtain ⟨c, hc, rfl, _, hwrite⟩ := hk
    obtain ⟨hmem, rfl⟩ := Table.get_eq_some_iff.mp hc
    exact setPrimary_succeeds hone horganization hmem hwrite
  | connectBucket provider displayName config credentials =>
    obtain ⟨rfl, hreadOnly, hmissing⟩ := hk
    exact connectBucket_succeeds displayName config credentials hone horganization hreadOnly hmissing

/-- No stored connection stands in the way of the new one. -/
theorem flush_succeeds (hrows : n.rows = l.rows.map (moved organizationId p) ++ created)
    (hcreated : Created organizationId p l created)
    (hknown : ∀ r ∈ s.rows, r.organizationId = organizationId → r.provider = p →
      ∃ a ∈ l.rows, a.organizationId = organizationId ∧ a.provider = p) : ∃ s', flush l n s = some s' := by
  rw [flush_eq hrows hcreated]
  cases hcreated with
  | none => exact ⟨_, rfl⟩
  | @one new _ horganization hprovider _ hmissing =>
    have hinsert : ∃ q, (updated l n s).insert new = some q := by
      refine Table.insert_isSome_iff.mpr fun r' hr' key hkey hkey' => ?_
      obtain ⟨r, hr, rfl⟩ := List.mem_map.mp hr'
      have hsame := same_flushFlag l n r
      have heq := (List.mem_singleton.mp hkey).symm.trans (List.mem_singleton.mp hkey')
      obtain ⟨_, horg, hvalue⟩ := UniqueKey.mk.inj heq
      have hr_organization : r.organizationId = organizationId :=
        hsame.organizationId.symm.trans (horg.trans horganization)
      have hr_provider : r.provider = p :=
        hsame.provider.symm.trans ((StorageProvider.value_injective hvalue).trans hprovider)
      obtain ⟨a, ha, ha_organization, ha_provider⟩ := hknown r hr hr_organization hr_provider
      exact hmissing a ha ha_organization ha_provider
    obtain ⟨⟨new', t'⟩, ht'⟩ := hinsert
    exact ⟨t', by simp [ht']⟩

variable (env) in
theorem commit_succeeds (horganization : (w.db.organizations.get organizationId).isSome = true)
    (hk : Promotes organizationId l p k) (hk' : Promotes organizationId s p k) (hl : l.Numbered)
    (hcard : (primaries organizationId l).card ≤ 1) : ∃ s', commit w env organizationId k l s = some s' := by
  obtain ⟨a, w', hrun⟩ := run_succeeds env (w := w.withConnections l) horganization hk hcard
  obtain ⟨_, created, hcreated, hrows⟩ := run_rows hk hl hrun
  obtain ⟨s', hflush⟩ := flush_succeeds hrows hcreated (promotes_known hk hk')
  refine ⟨s', ?_⟩
  unfold commit
  rw [hrun]
  exact hflush

/-- A commit is a handover. -/
theorem commit_handOver {provider : Promotion → StorageProvider}
    (horganization : (w.db.organizations.get organizationId).isSome = true)
    (hk : Promotes organizationId l (provider k) k) (hk' : Promotes organizationId s (provider k) k)
    (hl : l.Numbered) (hstays : Stays l s) :
    (commit w env organizationId k l s).map (primaries organizationId) =
      Handovers.handOver provider k (primaries organizationId l) (primaries organizationId s) := by
  cases h : commit w env organizationId k l s with
  | some s' => exact (commit_primaries hk hk' hl hstays h).symm
  | none =>
    have hcard : ¬ (primaries organizationId l).card ≤ 1 := by
      intro hcard
      obtain ⟨s', hs'⟩ := commit_succeeds env horganization hk hk' hl hcard
      rw [h] at hs'
      cases hs'
    simp [Handovers.handOver, hcard]

end Promotion

end Orchestract
