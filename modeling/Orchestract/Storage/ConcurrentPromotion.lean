import Orchestract.Isolation.WriteIsolation
import Orchestract.Storage.Promotion

/-!
# Concurrent promotions

Several `set_primary` and `connect_bucket` requests for different connections of one organization.
Nothing but the code keeps two connections from having the flag.
-/

namespace Orchestract.Promotion

set_option autoImplicit false

open UnitsOfWork (Event Shared Interleaving opened)

/-- Requests for different write-capable connections of an organization. -/
structure ForDifferent (w : World) (organizationId : Nat) (requests : List Promotion)
    (provider : Promotion → StorageProvider) : Prop where
  nonempty : requests ≠ []
  organization : (w.db.organizations.get organizationId).isSome = true
  promotes : ∀ k ∈ requests, Promotes organizationId w.db.connections (provider k) k
  different : ∀ k ∈ requests, ∀ k' ∈ requests, provider k = provider k' → k = k'

/-- While the requests that are not done are under way. -/
structure Underway (organizationId : Nat) (requests : List Promotion) (provider : Promotion → StorageProvider)
    (done : List Promotion) (v : Shared Promotion (Table StorageConnection)) : Prop where
  numbered : v.stored.Numbered
  promotes : ∀ k ∈ requests, k ∉ done → Promotes organizationId v.stored (provider k) k
  loaded : ∀ k l, v.loaded k = some l → k ∈ requests → k ∉ done →
    Stays l v.stored ∧ l.Numbered ∧ Promotes organizationId l (provider k) k

variable {w : World} {env : Promotion → Env} {organizationId : Nat} {p : StorageProvider} {k : Promotion}
  {requests done : List Promotion} {provider : Promotion → StorageProvider}
  {v : Shared Promotion (Table StorageConnection)} {s s' t : Table StorageConnection}

/-- A commit for another connection leaves a request something to do. -/
theorem promotes_commit (hk : Promotes organizationId s p k) {q : StorageProvider} (hne : p ≠ q)
    (h : Promoted organizationId q s s') : Promotes organizationId s' p k := by
  cases k with
  | setPrimary connectionId =>
    obtain ⟨c, hc, horg, hprovider, hwrite⟩ := hk
    obtain ⟨hmem, hid⟩ := Table.get_eq_some_iff.mp hc
    obtain ⟨c', hc', hsame⟩ := h.stays c hmem
    refine ⟨c', Table.get_eq_some_iff.mpr ⟨hc', hsame.id.trans hid⟩, hsame.organizationId.trans horg,
      hsame.provider.trans hprovider, ?_⟩
    unfold StorageConnection.isWriteCapable at hwrite ⊢
    rw [hsame.provider]
    exact hwrite
  | connectBucket provider displayName config credentials =>
    obtain ⟨hprovider, hreadOnly, hmissing⟩ := hk
    refine ⟨hprovider, hreadOnly, fun r' hr' horg hp => ?_⟩
    obtain ⟨r, hr, hsame⟩ := h.others r' hr' horg fun hq => hne (hp.symm.trans hq)
    exact hmissing r hr (hsame.organizationId.symm.trans horg) (hsame.provider.symm.trans hp)

/-- The requests that are done once this has happened. -/
def doneAfter (done : List Promotion) : Event Promotion → List Promotion
  | .load _ => done
  | .commit k => k :: done

variable (w env) in
theorem underway_step (hdifferent : ∀ k ∈ requests, ∀ k' ∈ requests, provider k = provider k' → k = k')
    (hv : Underway organizationId requests provider done v) {e : Event Promotion} (he : e.unit ∈ requests)
    (hnew : e.unit ∉ done) : Underway organizationId requests provider (doneAfter done e)
      (UnitsOfWork.step (commit w env organizationId) v e) ∧
        Stays v.stored (UnitsOfWork.step (commit w env organizationId) v e).stored := by
  cases e with
  | load k =>
    refine ⟨⟨hv.numbered, hv.promotes, fun k' l hl hk' hopen => ?_⟩, stays_refl _⟩
    rcases UnitsOfWork.loaded_load hl with ⟨_, rfl⟩ | hl
    · exact ⟨stays_refl _, hv.numbered, hv.promotes k' hk' hopen⟩
    · exact hv.loaded k' l hl hk' hopen
  | commit k =>
    have hopen : ∀ {k'}, k' ∉ doneAfter done (.commit k) → k' ≠ k ∧ k' ∉ done :=
      fun h => ⟨fun heq => h (heq ▸ List.mem_cons_self), fun hmem => h (List.mem_cons_of_mem k hmem)⟩
    rcases UnitsOfWork.stored_commit (commit w env organizationId) v k with hsame | ⟨l, hl, hcommit⟩
    · rw [hsame]
      refine ⟨⟨hsame ▸ hv.numbered, fun k' hk' h => ?_, fun k' l hl hk' h => ?_⟩, stays_refl _⟩
      · rw [hsame]
        exact hv.promotes k' hk' (hopen h).2
      · rw [hsame]
        exact hv.loaded k' l (UnitsOfWork.loaded_commit hl).2 hk' (hopen h).2
    · obtain ⟨_, hnumbered, hk⟩ := hv.loaded k l hl he hnew
      have hpromoted := commit_promoted hk hnumbered hcommit
      refine ⟨⟨hpromoted.numbered hv.numbered, fun k' hk' h => ?_, fun k' l' hl' hk' h => ?_⟩, hpromoted.stays⟩
      · have hne : provider k' ≠ provider k := fun heq => (hopen h).1 (hdifferent k' hk' k he heq)
        exact promotes_commit (hv.promotes k' hk' (hopen h).2) hne hpromoted
      · obtain ⟨hstays, hnumbered', hk''⟩ := hv.loaded k' l' (UnitsOfWork.loaded_commit hl').2 hk' (hopen h).2
        exact ⟨hstays.trans hpromoted.stays, hnumbered', hk''⟩

/-- A commit finds as primary what its unit of work has read, or this has read that its own
connection is. -/
def FoundPrimary (organizationId : Nat) (provider : Promotion → StorageProvider)
    (v : Shared Promotion (Table StorageConnection)) : Event Promotion → Prop
  | .load _ => True
  | .commit k => ∀ l, v.loaded k = some l → provider k ∉ primaries organizationId l →
      primaries organizationId v.stored = primaries organizationId l

theorem foundPrimary_iff (v : Shared Promotion (Table StorageConnection)) (e : Event Promotion) :
    FoundPrimary organizationId provider v e ↔
      Handovers.FoundHolder provider (v.map (primaries organizationId)) e := by
  cases e with
  | load k => exact Iff.rfl
  | commit k =>
    unfold FoundPrimary Handovers.FoundHolder Shared.map
    cases v.loaded k with
    | none => simp
    | some l => simp

variable (w env) in
/-- The interleaved requests, seen through who has the flag, hand it over. -/
theorem run_handOver (horganization : (w.db.organizations.get organizationId).isSome = true)
    (hdifferent : ∀ k ∈ requests, ∀ k' ∈ requests, provider k = provider k' → k = k')
    {events : List (Event Promotion)} (hunits : ∀ e ∈ events, e.unit ∈ requests)
    (hnew : ∀ e ∈ events, e.unit ∉ done) (honce : events.Pairwise fun e e' => ∀ k, e = .commit k → e'.unit ≠ k)
    (hv : Underway organizationId requests provider done v) :
    primaries organizationId (Runs.run (UnitsOfWork.step (commit w env organizationId)) v events).stored =
        (Runs.run (UnitsOfWork.step (Handovers.handOver provider)) (v.map (primaries organizationId)) events).stored ∧
      (Runs.Along (UnitsOfWork.step (commit w env organizationId)) (FoundPrimary organizationId provider) v events ↔
        Runs.Along (UnitsOfWork.step (Handovers.handOver provider)) (Handovers.FoundHolder provider)
          (v.map (primaries organizationId)) events) ∧
      Stays v.stored (Runs.run (UnitsOfWork.step (commit w env organizationId)) v events).stored := by
  induction events generalizing v done with
  | nil => exact ⟨rfl, Iff.rfl, stays_refl _⟩
  | cons e events ih =>
    have hunit := hunits e List.mem_cons_self
    have hopen := hnew e List.mem_cons_self
    obtain ⟨honce, hrest⟩ := List.pairwise_cons.mp honce
    have hmap : (UnitsOfWork.step (commit w env organizationId) v e).map (primaries organizationId) =
        UnitsOfWork.step (Handovers.handOver provider) (v.map (primaries organizationId)) e := by
      refine UnitsOfWork.map_step fun k l he hl => ?_
      subst he
      obtain ⟨hstays, hnumbered, hk⟩ := hv.loaded k l hl hunit hopen
      exact commit_handOver horganization hk (hv.promotes k hunit hopen) hnumbered hstays
    obtain ⟨hstep, hstays⟩ := underway_step w env hdifferent hv hunit hopen
    have hnew' : ∀ e' ∈ events, e'.unit ∉ doneAfter done e := by
      intro e' he'
      have hold := hnew e' (List.mem_cons_of_mem e he')
      cases e with
      | load k => exact hold
      | commit k => exact fun hmem => (List.mem_cons.mp hmem).elim (honce e' he' k rfl) hold
    obtain ⟨hrun, halong, hstays'⟩ := ih (fun e' he' => hunits e' (List.mem_cons_of_mem e he')) hnew' hrest hstep
    rw [Runs.run_cons, Runs.run_cons, ← hmap]
    exact ⟨hrun, and_congr (foundPrimary_iff v e) (hmap ▸ halong), hstays.trans hstays'⟩

/-- One of the promoted connections is the primary one, and what needs it works. -/
structure Working (organizationId : Nat) (requests : List Promotion) (provider : Promotion → StorageProvider)
    (w : World) : Prop where
  primary : ∃ k ∈ requests, ∃ c, StorageService.getPrimaryForOrganization organizationId w = .ok (some c) ∧
    c.provider = provider k ∧ c.isWriteCapable = true ∧
      ∀ r ∈ w.db.connections.rows, r.organizationId = organizationId → (r.isPrimary = true ↔ r = c)
  setPrimary : ∀ c ∈ w.db.connections.rows, c.organizationId = organizationId → c.isWriteCapable = true →
    ∃ a w', StorageService.setPrimary c.id w = .ok (a, w')
  connectBucket : ∀ env p displayName config credentials, p.isReadOnly = false →
    (∀ c ∈ w.db.connections.rows, c.organizationId = organizationId → c.provider ≠ p) →
      ∃ a w', StorageService.connectBucket env organizationId p displayName config credentials w = .ok (a, w')
  uploadVersion : ∀ env documentId document contract c bucket u,
    w.db.documents.get documentId = some document → w.db.contracts.get document.contractId = some contract →
    contract.organizationId = organizationId →
    StorageService.getPrimaryForOrganization organizationId w = .ok (some c) →
    buildFileStorage env c (c.credential.getD .empty) w = .ok bucket →
    env.putFails bucket (DocumentService.storageKey contract document u.filename) = false →
      ∃ v, (DocumentService.uploadVersion env documentId u w).1 = .ok v

/-- References of a document to connections that are still there. -/
theorem refsExist_stays {document : Document} (hrefs : refsExist document w.db = true)
    (hstays : Stays w.db.connections t) : refsExist document (w.withConnections t).db = true := by
  unfold refsExist at hrefs ⊢
  rw [List.all_eq_true] at hrefs ⊢
  intro ref href
  have hold := hrefs ref href
  obtain ⟨kind, id⟩ := ref
  cases kind with
  | connection =>
    obtain ⟨c, hc⟩ := Option.isSome_iff_exists.mp hold
    obtain ⟨hmem, hid⟩ := Table.get_eq_some_iff.mp hc
    obtain ⟨c', hc', hsame⟩ := hstays c hmem
    exact Option.isSome_iff_exists.mpr ⟨c', Table.get_eq_some_iff.mpr ⟨hc', hsame.id.trans hid⟩⟩
  | _ => exact hold

/-- Who has the flag can be written to: the provider is that of a request. -/
theorem readOnly_of_promotes (hk : Promotes organizationId t p k) : p.isReadOnly = false := by
  cases k with
  | setPrimary connectionId =>
    obtain ⟨c, _, _, rfl, hwrite⟩ := hk
    simpa [StorageConnection.isWriteCapable] using hwrite
  | connectBucket => exact hk.2.1

theorem working_of_given (horganization : (w.db.organizations.get organizationId).isSome = true)
    (hsound : ∀ document ∈ w.db.documents.rows, refsExist document w.db = true)
    (hstays : Stays w.db.connections t)
    (hpromotes : ∀ k ∈ requests, Promotes organizationId w.db.connections (provider k) k)
    (hgiven : Handovers.Given provider requests (primaries organizationId t)) :
    Working organizationId requests provider (w.withConnections t) := by
  obtain ⟨k, hk, hprimaries⟩ := hgiven
  have hone : OnePrimary organizationId t :=
    onePrimary_of_card (by rw [hprimaries, Finset.card_singleton])
  obtain ⟨c, hc, horg, hflag, hprovider⟩ := mem_primaries.mp
    (hprimaries.symm ▸ Finset.mem_singleton_self (provider k))
  constructor
  · refine ⟨k, hk, c, ?_, hprovider, ?_, fun r hr horg' => ⟨fun hflag' => ?_, fun heq => heq ▸ hflag⟩⟩
    · obtain ⟨found, hfound, hmem⟩ := lookup_of_single (w := w.withConnections t) hone
      rw [hfound, (hmem c).mpr ⟨hc, horg, hflag⟩]
    · unfold StorageConnection.isWriteCapable
      rw [hprovider, readOnly_of_promotes (hpromotes k hk)]
      rfl
    · exact hone r hr c hc horg' horg hflag' hflag
  · rintro c hc rfl hwrite
    exact setPrimary_succeeds (w := w.withConnections t) hone horganization hc hwrite
  · intro env p displayName config credentials hreadOnly hmissing
    exact connectBucket_succeeds (w := w.withConnections t) displayName config credentials hone horganization
      hreadOnly hmissing
  · rintro env documentId document contract c bucket u hdocument hcontract rfl hprimary hbuild hput
    exact DocumentService.uploadVersion_succeeds hdocument hcontract hprimary
      (refsExist_stays (hsound document (Table.get_eq_some_iff.mp hdocument).1) hstays) hbuild hput

theorem given_of_working (h : Working organizationId requests provider (w.withConnections t)) :
    Handovers.Given provider requests (primaries organizationId t) := by
  obtain ⟨k, hk, c, hlookup, hprovider, _, hall⟩ := h.primary
  refine ⟨k, hk, Finset.eq_singleton_iff_unique_mem.mpr ⟨?_, fun p hp => ?_⟩⟩
  · obtain ⟨hc, hp⟩ := oneOrNone_eq_some hlookup
    simp only [Bool.and_eq_true, decide_eq_true_eq] at hp
    exact mem_primaries.mpr ⟨c, hc, hp.1, hp.2, hprovider⟩
  · obtain ⟨r, hr, horg, hflag, rfl⟩ := mem_primaries.mp hp
    rw [(hall r hr horg).mp hflag, hprovider]

/-- Whatever has happened before, interleaved promotions leave one primary connection and everything
working, if and only if every commit finds the primary that its unit of work has read. -/
theorem working_iff (files : Bucket → String → Option Bytes) (changes : List Change)
    (env : Promotion → Env) (organizationId : Nat) (requests : List Promotion)
    (provider : Promotion → StorageProvider) (events : List (Event Promotion))
    (h : ForDifferent (System.after files changes).world organizationId requests provider)
    (hevents : Interleaving requests events) :
    let w := (System.after files changes).world
    let step := UnitsOfWork.step (commit w env organizationId)
    Working organizationId requests provider
        (w.withConnections (Runs.run step (opened w.db.connections) events).stored) ↔
      Runs.Along step (FoundPrimary organizationId provider) (opened w.db.connections) events := by
  intro w step
  have hnumbered : w.db.connections.Numbered := (flagged_numbered files changes).2
  have hunderway : Underway organizationId requests provider [] (opened w.db.connections) :=
    ⟨hnumbered, fun k hk _ => h.promotes k hk, fun _ _ hl => by cases hl⟩
  obtain ⟨hrun, halong, hstays⟩ := run_handOver w env h.organization h.different hevents.units
    (fun _ _ hmem => by cases hmem) hevents.pairwise hunderway
  have hcard : (primaries organizationId w.db.connections).card ≤ 1 :=
    card_of_onePrimary fun c hc c' hc' horg horg' hflag hflag' =>
      (flagged_system files changes).single c hc c' hc' hflag hflag' (horg.trans horg'.symm)
  have hgiven := Handovers.given_iff h.different h.nonempty hevents hcard
  rw [halong]
  refine Iff.trans ⟨fun hworking => ?_, fun hgiven => ?_⟩ hgiven
  · have hfinal := given_of_working hworking
    rw [hrun] at hfinal
    exact hfinal
  · refine working_of_given h.organization (fun document hdocument => ?_) hstays h.promotes ?_
    · exact (sound_after files changes).refsExist hdocument
    · rw [hrun]
      exact hgiven

instance (v : Shared Promotion (Table StorageConnection)) (e : Event Promotion) :
    Decidable (FoundPrimary organizationId provider v e) :=
  match e with
  | .load _ => isTrue trivial
  | .commit k =>
    decidable_of_iff (∀ l ∈ v.loaded k, provider k ∉ primaries organizationId l →
      primaries organizationId v.stored = primaries organizationId l) Iff.rfl

/-- Acme connects two buckets, of which the second becomes the primary one. -/
def twoBuckets : List Change := [
  .call ⟨.offline 1 "", .createOrganization "Acme"⟩,
  .call ⟨.offline 1 "", .connectBucket 1 .local "Disk" .empty .empty⟩,
  .call ⟨.offline 1 "", .connectBucket 1 .minio "MinIO" .empty .empty⟩]

/-- The first is to become primary again, and a third one is connected. -/
def bothPromoted : List Promotion := [.setPrimary 1, .connectBucket .gcs "Cloud" .empty .empty]

def providerOf : Promotion → StorageProvider
  | .setPrimary _ => .local
  | .connectBucket provider _ _ _ => provider

theorem forDifferent_bothPromoted :
    ForDifferent (System.after (fun _ _ => none) twoBuckets).world 1 bothPromoted providerOf := by
  refine ⟨by decide, by decide +kernel, fun k hk => ?_, by decide⟩
  rcases List.mem_cons.mp hk with rfl | hk
  · have hget : (System.after (fun _ _ => none) twoBuckets).world.db.connections.get 1 =
        some ⟨1, 1, .local, .connected, false, "Disk", .empty, 1, some .empty⟩ := by decide +kernel
    exact ⟨_, hget, rfl, rfl, rfl⟩
  · rw [List.mem_singleton.mp hk]
    exact ⟨rfl, rfl, by decide +kernel⟩

/-- One after the other. -/
theorem working_bothPromoted :
    let w := (System.after (fun _ _ => none) twoBuckets).world
    let step := UnitsOfWork.step (commit w (fun _ => .offline 2 "") 1)
    Working 1 bothPromoted providerOf (w.withConnections (Runs.run step (opened w.db.connections)
      (bothPromoted.flatMap fun k => [.load k, .commit k])).stored) :=
  (working_iff (fun _ _ => none) twoBuckets (fun _ => .offline 2 "") 1 bothPromoted providerOf
    (bothPromoted.flatMap fun k => [.load k, .commit k]) forDifferent_bothPromoted
    ⟨by decide, by decide⟩).mpr (by decide +kernel)

/-- Both read the old primary before they commit: two connections have the flag, and asking for the
primary one crashes. -/
theorem not_working_bothPromoted :
    let w := (System.after (fun _ _ => none) twoBuckets).world
    let step := UnitsOfWork.step (commit w (fun _ => .offline 2 "") 1)
    let events := bothPromoted.map Event.load ++ bothPromoted.map Event.commit
    let final := w.withConnections (Runs.run step (opened w.db.connections) events).stored
    ForDifferent w 1 bothPromoted providerOf ∧ Interleaving bothPromoted events ∧
      ¬ Working 1 bothPromoted providerOf final ∧
      StorageService.getPrimaryForOrganization 1 final = .error (.crashed .multipleResultsFound) ∧
      ∀ connectionId ∈ [1, 2, 3], (StorageService.setPrimary connectionId final).isOk = false := by
  intro w step events final
  have hcrash : StorageService.getPrimaryForOrganization 1 final = .error (.crashed .multipleResultsFound) := by
    decide +kernel
  refine ⟨forDifferent_bothPromoted, ⟨by decide, by decide⟩, fun h => ?_, hcrash, by decide +kernel⟩
  obtain ⟨_, _, _, hlookup, _⟩ := h.primary
  rw [hcrash] at hlookup
  cases hlookup

end Orchestract.Promotion
