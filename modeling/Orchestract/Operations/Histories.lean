import Orchestract.Application.Billing
import Orchestract.Application.Sharing
import Orchestract.Operations.Footprints
import Orchestract.Tenancy.References

/-!
# Histories

Whatever changes the stored state: a call, an event of the payment provider, a plan that is set, a
session that ends, a visit of a shared page. What is outside the footprint of a change stays as it
is, rows stay with their holders, and what a row refers to exists.
-/

namespace Orchestract

set_option autoImplicit false

def Organization.setPlan (o : Organization) (plan : Plan) : Organization := { o with plan := plan }

def OrganizationService.setPlan (organizationId : Nat) (plan : Plan) : UnitOfWork Organization :=
  change "organization" organizationId fun organization => .ok (organization.setPlan plan)

/-- `delete_session`. -/
def UserService.deleteSession (token : String) : UnitOfWork Unit := fun w =>
  .ok ((), { w with db := { w.db with sessions := w.db.sessions.delete fun s => s.token = token } })

inductive Change where
  | call (i : Input)
  | delivery (settings : Settings) (event : StripeEvent)
  | setPlan (organizationId : Nat) (plan : Plan)
  | deleteSession (token : String)
  | visit (env : Env) (token : String)

/-- A unit of work of its own. -/
def System.commit {α : Type} (s : System) (m : UnitOfWork α) : System := (Operation.unit m s).2

def System.next (s : System) : Change → System
  | .call i => perform s i
  | .delivery settings event => s.commit (BillingService.handleWebhookEvent settings event)
  | .setPlan organizationId plan => s.commit (OrganizationService.setPlan organizationId plan)
  | .deleteSession token => s.commit (UserService.deleteSession token)
  | .visit env token => s.commit (SharingService.markAccessed env token)

/-- The system before anything has happened. -/
def System.initial (files : Bucket → String → Option Bytes) : System := ⟨⟨.empty, files⟩, .empty⟩

/-- The system after these changes. -/
def System.after (files : Bucket → String → Option Bytes) (changes : List Change) : System :=
  Runs.run System.next (.initial files) changes

def Change.footprint : Change → List Site
  | .call i => i.operation.footprint
  | .delivery .. | .setPlan .. => [.organizations]
  | .deleteSession .. => [.sessions]
  | .visit .. => [.shareLinks]

/-! ## The footprint of a change -/

theorem within_setPlan (organizationId : Nat) (plan : Plan) :
    Within [.organizations] (OrganizationService.setPlan organizationId plan) := by
  apply within_change (by decide)
  intro o o' h
  obtain rfl := Except.ok.inj h
  exact ⟨rfl, rfl⟩

/-- An organization found by its customer id is changed, or nothing is. -/
theorem within_ofCustomer (customer : String) (method : Organization → Organization)
    (h : ∀ o, (method o).id = o.id) : Within [.organizations] (do
      match ← OrganizationRepository.getByStripeCustomerId customer with
      | none => return ()
      | some organization => save (method organization) : UnitOfWork Unit) := by
  refine within_iff.mpr fun I hI w a w' hw hrun => ?_
  obtain ⟨found, w₁, hread, hrun⟩ := (Work.bind_ok_iff _ _ w w' a).mp hrun
  obtain ⟨hfound, rfl⟩ := (Work.lift_ok_iff _ w w₁ found).mp hread
  cases found with
  | none =>
    obtain ⟨_, rfl⟩ := (Work.pure_ok_iff _ _ _ _).mp hrun
    exact hw
  | some o => exact keptBy_save (hI .organizations (by decide)) (oneOrNone_eq_some hfound).1 (h o) rfl hw hrun

theorem within_handleWebhookEvent (settings : Settings) (event : StripeEvent) :
    Within [.organizations] (BillingService.handleWebhookEvent settings event) := by
  cases event with
  | checkoutSessionCompleted clientReferenceId customer =>
    refine within_iff.mpr fun I hI w a w' hw hrun => ?_
    obtain ⟨n, w₁, hread, hlookup⟩ := (Work.bind_ok_iff _ _ w w' a).mp hrun
    obtain ⟨_, rfl⟩ := (Work.lift_ok_iff _ w w₁ n).mp hread
    obtain ⟨found, w₂, hread, hsave⟩ := (Work.bind_ok_iff _ _ w w' a).mp hlookup
    obtain ⟨hfound, rfl⟩ := (Work.lift_ok_iff _ w w₂ found).mp hread
    cases found with
    | none =>
      obtain ⟨_, rfl⟩ := (Work.pure_ok_iff _ _ _ _).mp hsave
      exact hw
    | some o =>
      cases n with
      | ofNat id =>
        have hget : w.db.organizations.get id = some o := Except.ok.inj hfound
        have hmem : o ∈ w.db.organizations.rows := (Table.get_eq_some_iff.mp hget).1
        have hid : (o.setStripeCustomer customer).id = o.id := rfl
        exact keptBy_save (hI .organizations (by decide)) hmem hid rfl hw hsave
      | negSucc id => cases hfound
  | subscriptionCreated data =>
    exact within_ofCustomer data.customer (fun o => o.applySubscription data.id data.status
      (BillingService.resolvePlan settings data.items.head?)) fun _ => rfl
  | subscriptionUpdated data =>
    exact within_ofCustomer data.customer (fun o => o.applySubscription data.id data.status
      (BillingService.resolvePlan settings data.items.head?)) fun _ => rfl
  | subscriptionDeleted data =>
    exact within_ofCustomer data.customer Organization.clearSubscription fun _ => rfl
  | other type => exact within_pure _

theorem within_markAccessed (env : Env) (token : String) :
    Within [.shareLinks] (SharingService.markAccessed env token) := by
  refine within_iff.mpr fun I hI w a w' hw h => ?_
  rcases SharingService.markAccessed_ok h with rfl | ⟨l, hl, hsave⟩
  · exact hw
  · have hid : (l.recordAccess env.now).id = l.id := rfl
    exact keptBy_save (hI .shareLinks (by decide)) hl hid rfl hw hsave

theorem within_deleteSession (token : String) : Within [.sessions] (UserService.deleteSession token) := by
  refine within_iff.mpr fun I hI w a w' hw h => ?_
  obtain ⟨_, rfl⟩ := Prod.mk.inj (Except.ok.inj h)
  have hsessions : KeptBy .sessions I := hI .sessions (by decide)
  exact hsessions.2 w _ hw

/-- What the writes of its footprint keep, a change keeps. -/
theorem next_keeps {I : World → Prop} {s : System} {c : Change}
    (hI : ∀ site ∈ c.footprint, KeptBy site I) (hs : I s.world) : I (s.next c).world := by
  cases c with
  | call i => exact perform_keeps hI hs
  | delivery settings event => exact keeps_unit (within_handleWebhookEvent settings event) hI hs
  | setPlan organizationId plan => exact keeps_unit (within_setPlan organizationId plan) hI hs
  | deleteSession token => exact keeps_unit (within_deleteSession token) hI hs
  | visit env token => exact keeps_unit (within_markAccessed env token) hI hs

/-- What all writes keep, every history keeps. -/
theorem after_keeps {I : World → Prop} (hI : ∀ site, KeptBy site I) {files : Bucket → String → Option Bytes}
    (hempty : I ⟨.empty, files⟩) (changes : List Change) : I (System.after files changes).world :=
  Runs.run_invariant (I := fun s : System => I s.world) (fun _ _ hs => next_keeps (fun site _ => hI site) hs)
    hempty changes

/-! ## Outside of the footprint -/

/-- Nothing has happened at this site. -/
def World.Same (w w' : World) : Site → Prop
  | .organizations => w'.db.organizations = w.db.organizations
  | .users => w'.db.users = w.db.users
  | .roles => w'.db.roles = w.db.roles
  | .agents => w'.db.agents = w.db.agents
  | .definitions => w'.db.definitions = w.db.definitions
  | .contracts => w'.db.contracts = w.db.contracts
  | .documents => w'.db.documents = w.db.documents
  | .instances => w'.db.instances = w.db.instances
  | .shareLinks => w'.db.shareLinks = w.db.shareLinks
  | .connections => w'.db.connections = w.db.connections
  | .sessions => w'.db.sessions = w.db.sessions
  | .acceptances => w'.db.acceptances = w.db.acceptances
  | .versionIds => w'.db.nextVersionId = w.db.nextVersionId
  | .files => w'.files = w.files

theorem World.same_refl (w : World) (site : Site) : w.Same w site := by
  cases site <;> rfl

section

variable {α : Type} [Row α] [Stored α] [Held α]

/-- What does not depend on the table is kept by the writes to it. -/
theorem keepsRows_of_table {I : World → Prop}
    (h : ∀ w (t : Table α), I w → I { w with db := Stored.withTable w.db t }) : KeepsRows α I := by
  constructor
  · intro a new w w' hw hadd
    obtain ⟨_, t, _, rfl⟩ := (add_ok_iff a new w w').mp hadd
    exact h w t hw
  · intro r a w w' hw _ _ hsave
    obtain ⟨_, t, _, rfl⟩ := (save_ok_iff a w w').mp hsave
    exact h w t hw

end

/-- A write to one site leaves every other as it is. -/
theorem keptBy_same {site n : Site} (hne : site ≠ n) (w : World) : KeptBy site (fun w' => w.Same w' n) := by
  cases site with
  | versionIds =>
    intro w' k hw
    cases n <;> first | exact hw | exact absurd rfl hne
  | files =>
    intro w' k hw
    cases n <;> first | exact hw | exact absurd rfl hne
  | sessions =>
    refine ⟨keepsRows_of_table fun w' t hw => ?_, fun w' p hw => ?_⟩
    · cases n <;> first | exact hw | exact absurd rfl hne
    · cases n <;> first | exact hw | exact absurd rfl hne
  | _ =>
    refine keepsRows_of_table fun w' t hw => ?_
    cases n <;> first | exact hw | exact absurd rfl hne

/-- What is outside the footprint of a change stays as it is. -/
theorem next_same {s : System} {c : Change} {n : Site} (h : n ∉ c.footprint) :
    s.world.Same (s.next c).world n := by
  refine next_keeps (I := fun w => s.world.Same w n) (fun site hsite => ?_) (s.world.same_refl n)
  apply keptBy_same
  rintro rfl
  exact h hsite

theorem perform_same {s : System} {i : Input} {n : Site} (h : n ∉ i.operation.footprint) :
    s.world.Same (perform s i).world n :=
  next_same (c := .call i) h

/-! ## Holders -/

/-- The rows stay, each with its holder. -/
def Table.Holds {α : Type} [Row α] [Held α] (t t' : Table α) : Prop :=
  ∀ id r, t.get id = some r → ∃ r', t'.get id = some r' ∧ Held.holder r' = Held.holder r

namespace Table

variable {α : Type} [Row α] [Held α] {t t₁ t' : Table α}

theorem holds_refl (t : Table α) : t.Holds t := fun _ r h => ⟨r, h, rfl⟩

theorem holds_trans (h : t.Holds t₁) (h' : t₁.Holds t') : t.Holds t' := by
  intro id r hr
  obtain ⟨r₁, hr₁, hholder₁⟩ := h id r hr
  obtain ⟨r', hr', hholder'⟩ := h' id r₁ hr₁
  exact ⟨r', hr', hholder'.trans hholder₁⟩

theorem holds_insert {a new : α} (h : t.insert a = some (new, t')) : t.Holds t' :=
  fun _ r hr => ⟨r, get_of_insert h hr, rfl⟩

theorem holds_update {r a : α} (h : t.update a = some t') (hr : t.get (Row.id a) = some r)
    (hholder : Held.holder a = Held.holder r) : t.Holds t' := by
  intro id b hb
  by_cases hid : id = Row.id a
  · obtain rfl := hid
    obtain rfl := Option.some.inj (hr.symm.trans hb)
    exact ⟨a, get_of_update h hr, hholder⟩
  · exact ⟨b, by rw [get_update h, if_neg hid]; exact hb, rfl⟩

end Table

/-- The rows of these tables stay, each with its holder. -/
structure World.Holds (w w' : World) : Prop where
  organizations : w.db.organizations.Holds w'.db.organizations
  users : w.db.users.Holds w'.db.users
  roles : w.db.roles.Holds w'.db.roles
  agents : w.db.agents.Holds w'.db.agents
  definitions : w.db.definitions.Holds w'.db.definitions
  contracts : w.db.contracts.Holds w'.db.contracts
  documents : w.db.documents.Holds w'.db.documents
  shareLinks : w.db.shareLinks.Holds w'.db.shareLinks
  connections : w.db.connections.Holds w'.db.connections

theorem World.holds_refl (w : World) : w.Holds w :=
  ⟨Table.holds_refl _, Table.holds_refl _, Table.holds_refl _, Table.holds_refl _, Table.holds_refl _,
    Table.holds_refl _, Table.holds_refl _, Table.holds_refl _, Table.holds_refl _⟩

section

variable {α : Type} [Row α] [Stored α] [Held α]

/-- The writes to a table, where the rows stay with their holders. -/
theorem keepsRows_of_holds {I : World → Prop}
    (h : ∀ w (t : Table α), I w → (Stored.table w.db : Table α).Holds t →
      I { w with db := Stored.withTable w.db t }) : KeepsRows α I := by
  constructor
  · intro a new w w' hw hadd
    obtain ⟨_, t, ht, rfl⟩ := (add_ok_iff a new w w').mp hadd
    exact h w t hw (Table.holds_insert ht)
  · intro r a w w' hw hr hholder hsave
    obtain ⟨_, t, ht, rfl⟩ := (save_ok_iff a w w').mp hsave
    exact h w t hw (Table.holds_update ht hr hholder)

end

/-- Whatever is written, rows stay with their holders. -/
theorem keptBy_holds (site : Site) (w : World) : KeptBy site w.Holds := by
  cases site with
  | organizations =>
    exact keepsRows_of_holds fun _ _ hw h => { hw with organizations := Table.holds_trans hw.organizations h }
  | users => exact keepsRows_of_holds fun _ _ hw h => { hw with users := Table.holds_trans hw.users h }
  | roles => exact keepsRows_of_holds fun _ _ hw h => { hw with roles := Table.holds_trans hw.roles h }
  | agents => exact keepsRows_of_holds fun _ _ hw h => { hw with agents := Table.holds_trans hw.agents h }
  | definitions =>
    exact keepsRows_of_holds fun _ _ hw h => { hw with definitions := Table.holds_trans hw.definitions h }
  | contracts =>
    exact keepsRows_of_holds fun _ _ hw h => { hw with contracts := Table.holds_trans hw.contracts h }
  | documents =>
    exact keepsRows_of_holds fun _ _ hw h => { hw with documents := Table.holds_trans hw.documents h }
  | shareLinks =>
    exact keepsRows_of_holds fun _ _ hw h => { hw with shareLinks := Table.holds_trans hw.shareLinks h }
  | connections =>
    exact keepsRows_of_holds fun _ _ hw h => { hw with connections := Table.holds_trans hw.connections h }
  | sessions => exact ⟨keepsRows_of_table fun _ _ hw => { hw with }, fun _ _ hw => { hw with }⟩
  | instances | acceptances => exact keepsRows_of_table fun _ _ hw => { hw with }
  | versionIds | files => exact fun _ _ hw => { hw with }

theorem programWithin_holds {α : Type} (sites : List Site) {m : Action α} (h : ProgramWithin sites m)
    (w : World) : w.Holds (m w).2 :=
  (h w.Holds (fun site _ => keptBy_holds site w) w w.holds_refl).1

theorem next_holds (s : System) (c : Change) : s.world.Holds (s.next c).world :=
  next_keeps (fun site _ => keptBy_holds site s.world) s.world.holds_refl

theorem holds_run (s : System) (changes : List Change) : s.world.Holds (Runs.run System.next s changes).world :=
  Runs.run_invariant (I := fun s' : System => s.world.Holds s'.world)
    (fun _ _ hs => next_keeps (fun site _ => keptBy_holds site s.world) hs) s.world.holds_refl changes

/-! ## References -/

/-- What the rows of a table refer to. -/
def Database.refsAt (db : Database) : Site → List Ref
  | .organizations => db.organizations.rows.flatMap Stored.refs
  | .users => db.users.rows.flatMap Stored.refs
  | .roles => db.roles.rows.flatMap Stored.refs
  | .agents => db.agents.rows.flatMap Stored.refs
  | .definitions => db.definitions.rows.flatMap Stored.refs
  | .contracts => db.contracts.rows.flatMap Stored.refs
  | .documents => db.documents.rows.flatMap Stored.refs
  | .instances => db.instances.rows.flatMap Stored.refs
  | .shareLinks => db.shareLinks.rows.flatMap Stored.refs
  | .connections => db.connections.rows.flatMap Stored.refs
  | .sessions => db.sessions.rows.flatMap Stored.refs
  | .acceptances => db.acceptances.rows.flatMap Stored.refs
  | .versionIds | .files => []

/-- Whatever a row refers to exists. -/
def Sound (w : World) : Prop := ∀ site, ∀ ref ∈ w.db.refsAt site, w.db.has ref = true

/-- What exists still exists. -/
def Database.Lasts (db db' : Database) : Prop := ∀ ref, db.has ref = true → db'.has ref = true

theorem Database.lasts_of_eq {db db' : Database} (h : db'.has = db.has) : db.Lasts db' :=
  fun _ hhas => h ▸ hhas

/-- A new or changed row refers to what exists. -/
theorem keepsRows_sound {α : Type} [Row α] [Stored α] [Held α] [Sited α]
    (hrefs : ∀ n (a : α), Stored.refs (Row.withId n a) = Stored.refs a)
    (hlasts : ∀ (db : Database) (t : Table α), (Stored.table db : Table α).Lasts t →
      db.Lasts (Stored.withTable db t))
    (hother : ∀ (db : Database) (t : Table α) n, n ≠ Sited.site α →
      (Stored.withTable db t).refsAt n = db.refsAt n)
    (hown : ∀ db : Database, db.refsAt (Sited.site α) = (Stored.table db : Table α).rows.flatMap Stored.refs)
    (hset : ∀ (db : Database) (t : Table α), Stored.table (Stored.withTable db t) = t) :
    KeepsRows α Sound := by
  have hwrite : ∀ w (a : α) (t : Table α), Sound w → refsExist a w.db = true →
      (Stored.table w.db : Table α).Lasts t →
      (∀ r ∈ t.rows, r ∈ (Stored.table w.db : Table α).rows ∨ Stored.refs r = Stored.refs a) →
      Sound { w with db := Stored.withTable w.db t } := by
    intro w a t hw ha hlast hrows n ref href
    apply hlasts w.db t hlast
    by_cases hn : n = Sited.site α
    · subst hn
      rw [hown, hset] at href
      obtain ⟨r, hr, href⟩ := List.mem_flatMap.mp href
      rcases hrows r hr with hold | hnew
      · exact hw (Sited.site α) ref ((hown w.db).symm ▸ List.mem_flatMap.mpr ⟨r, hold, href⟩)
      · exact List.all_eq_true.mp ha ref (hnew ▸ href)
    · exact hw n ref (hother w.db t n hn ▸ href)
  constructor
  · intro a new w w' hw hadd
    obtain ⟨hexist, t, ht, rfl⟩ := (add_ok_iff a new w w').mp hadd
    obtain ⟨hnew, _, _⟩ := Table.insert_eq_some ht
    refine hwrite w a t hw hexist (Table.lasts_insert ht) fun r hr => ?_
    rcases (Table.mem_insert_iff ht).mp hr with hr | rfl
    · exact Or.inl hr
    · exact Or.inr (hnew ▸ hrefs _ a)
  · intro r a w w' hw _ _ hsave
    obtain ⟨hexist, t, ht, rfl⟩ := (save_ok_iff a w w').mp hsave
    refine hwrite w a t hw hexist (Table.lasts_update ht) fun b hb => ?_
    rcases Table.mem_update ht hb with rfl | ⟨hb, _⟩
    · exact Or.inr rfl
    · exact Or.inl hb

theorem keptBy_sound (site : Site) : KeptBy site Sound := by
  cases site with
  | versionIds | files =>
    intro w _ hw n ref href
    exact Database.lasts_of_eq rfl ref (hw n ref (by cases n <;> exact href))
  | sessions =>
    refine ⟨keepsRows_sound (fun _ _ => rfl) (fun db t h ref hhas => ?_) (fun db t n hn => ?_)
      (fun _ => rfl) fun _ _ => rfl, fun w p hw n ref href => ?_⟩
    · exact Database.lasts_of_eq rfl ref hhas
    · cases n <;> first | rfl | exact absurd rfl hn
    · refine Database.lasts_of_eq rfl ref (hw n ref ?_)
      cases n with
      | sessions =>
        obtain ⟨r, hr, href⟩ := List.mem_flatMap.mp href
        exact List.mem_flatMap.mpr ⟨r, List.mem_of_mem_filter hr, href⟩
      | _ => exact href
  | _ =>
    refine keepsRows_sound (fun _ _ => rfl) (fun db t h ref hhas => ?_) (fun db t n hn => ?_)
      (fun _ => rfl) fun _ _ => rfl
    · obtain ⟨kind, id⟩ := ref
      cases kind <;> first | exact hhas | exact h id hhas
    · cases n <;> first | rfl | exact absurd rfl hn

/-- Whatever has happened, references are to rows that exist. -/
theorem sound_after (files : Bucket → String → Option Bytes) (changes : List Change) :
    Sound (System.after files changes).world := by
  refine after_keeps keptBy_sound (fun site ref href => ?_) changes
  cases site <;> cases href

theorem Sound.refsExist {α : Type} [Row α] [Stored α] [Held α] [Sited α] {w : World} (h : Sound w) {a : α}
    (ha : a ∈ (Stored.table w.db : Table α).rows)
    (hown : w.db.refsAt (Sited.site α) = (Stored.table w.db : Table α).rows.flatMap Stored.refs := by rfl) :
    refsExist a w.db = true :=
  List.all_eq_true.mpr fun ref href =>
    h (Sited.site α) ref (hown.symm ▸ List.mem_flatMap.mpr ⟨a, ha, href⟩)

end Orchestract
