import Orchestract.Sharing.ParallelWrites
import Orchestract.Sharing.Unlocking
import Orchestract.Web.SharedView

/-!
# What a reviewer learns

The same is done in two worlds that differ in documents a link does not name. Its reviewer sees the
same in both, as long as the language model is told the same of the contract's documents and new
versions that the link shows get the same ids.
-/

namespace Orchestract

set_option autoImplicit false

open AIService (documentSummary contractSummary summarizeDocument summarizeContract)
open DocumentService (taken)
open SharedPages (activeLink isLocked handle)

/-- What is done in both worlds. -/
inductive Activity where
  | upload (documentId : Nat) (upload : DocumentService.Upload) (commits : Bool)
  | summarizeContract (contractId : Nat) (organization : Organization)
  | summarizeDocument (documentId : Nat) (organization : Organization)
  | visit (presented : Option String) (request : PublicRequest)

structure Moment where
  env : Env
  activity : Activity

namespace Moment

/-- The world afterwards. -/
def happen (mac : String → String) (w : World) (m : Moment) : World :=
  match m.activity with
  | .upload documentId u commits => (Operation.upload m.env documentId u commits w).2
  | .summarizeContract contractId organization => (summarizeContract m.env contractId organization w).2
  | .summarizeDocument documentId organization => (summarizeDocument m.env documentId organization w).2
  | .visit presented request => (SharedPages.respond mac m.env presented request w).2

/-- What is seen by those who come with the token. -/
def seen (mac : String → String) (token : String) (w : World) (m : Moment) : Option Seen :=
  match m.activity with
  | .visit presented request =>
    if request.token = token then some (SharedPages.respond mac m.env presented request w).1.seen else none
  | _ => none

end Moment

/-- All that is seen by those who come with the token. -/
def reviewed (mac : String → String) (token : String) : World → List Moment → List Seen
  | _, [] => []
  | w, m :: moments => (m.seen mac token w).toList ++ reviewed mac token (m.happen mac w) moments

/-- A version that the link will show gets the same id in both worlds, and where the model is asked about
the contract the same is told of its documents. -/
def SameInputs (contractId : Nat) (ids : List Nat) (p : World × World) (m : Moment) : Prop :=
  match m.activity with
  | .upload documentId u commits => documentId ∈ ids → commits = true →
    taken m.env documentId u.filename p.1 = true → p.2.db.nextVersionId = p.1.db.nextVersionId
  | .summarizeContract id organization => id = contractId →
    (p.1.db.contracts.get id).any (fun c => (AIService.requireSummaries m.env organization c).toBool) = true →
      SameLatest m.env id p.1 p.2
  | _ => True

instance (contractId : Nat) (ids : List Nat) (p : World × World) : ∀ m, Decidable (SameInputs contractId ids p m)
  | ⟨env, .upload documentId u commits⟩ => inferInstanceAs (Decidable (documentId ∈ ids → commits = true →
    taken env documentId u.filename p.1 = true → p.2.db.nextVersionId = p.1.db.nextVersionId))
  | ⟨env, .summarizeContract id organization⟩ => inferInstanceAs (Decidable (id = contractId →
    (p.1.db.contracts.get id).any (fun c => (AIService.requireSummaries env organization c).toBool) = true →
      SameLatest env id p.1 p.2))
  | ⟨_, .summarizeDocument ..⟩ => isTrue trivial
  | ⟨_, .visit ..⟩ => isTrue trivial

/-- The same moment in both worlds. -/
def happenBoth (mac : String → String) (p : World × World) (m : Moment) : World × World :=
  (m.happen mac p.1, m.happen mac p.2)

variable {mac : String → String} {contractId : Nat} {ids : List Nat} {w w' : World} {d d' : Document}

/-! ## Moments as changes -/

theorem upload_next (s : System) (env : Env) (documentId : Nat) (u : DocumentService.Upload) (commits : Bool) :
    (s.next (.call ⟨env, .uploadVersion documentId u commits⟩)).world =
      (Operation.upload env documentId u commits s.world).2 :=
  congrArg System.world (congrArg Prod.snd (onSystem_map _ s))

/-- A moment changes nothing, or what one change does. -/
theorem happen_next (mac : String → String) (s : System) (m : Moment) :
    m.happen mac s.world = s.world ∨ ∃ c, m.happen mac s.world = (s.next c).world := by
  obtain ⟨env, activity⟩ := m
  cases activity with
  | upload documentId u commits =>
    exact Or.inr ⟨.call ⟨env, .uploadVersion documentId u commits⟩, (upload_next s env documentId u commits).symm⟩
  | summarizeContract contractId organization =>
    have hstate : Moment.happen mac s.world ⟨env, .summarizeContract contractId organization⟩ =
        (summarizeContract env contractId organization s.world).2 := rfl
    rw [hstate]
    rcases Program.after_read (contractSummary env contractId organization) _ s.world with
      hsame | ⟨summary, _, hsummary⟩
    · exact Or.inl hsame
    · refine Or.inr ⟨.call ⟨env, .setContractSummary contractId summary⟩, hsummary.trans ?_⟩
      exact (unit_state (ContractService.setSummary env contractId summary) s).symm
  | summarizeDocument documentId organization =>
    have hstate : Moment.happen mac s.world ⟨env, .summarizeDocument documentId organization⟩ =
        (summarizeDocument env documentId organization s.world).2 := rfl
    rw [hstate]
    rcases Program.after_read (documentSummary env documentId organization) _ s.world with
      hsame | ⟨summary, _, hsummary⟩
    · exact Or.inl hsame
    · refine Or.inr ⟨.call ⟨env, .setDocumentSummary documentId summary⟩, hsummary.trans ?_⟩
      exact (unit_state (DocumentService.setSummary env documentId summary) s).symm
  | visit presented request =>
    rcases SharedPages.respond_world mac env presented request s with hsame | hvisit
    · exact Or.inl hsame
    · exact Or.inr ⟨_, hvisit⟩

theorem after_append (files : Bucket → String → Option Bytes) (changes : List Change) (c : Change) :
    System.after files (changes ++ [c]) = (System.after files changes).next c := by
  unfold System.after
  rw [Runs.run_append]
  rfl

/-- The world of some history. -/
def Reached (w : World) : Prop := ∃ files changes, (System.after files changes).world = w

theorem reached_happen (h : Reached w) (m : Moment) : Reached (m.happen mac w) := by
  obtain ⟨files, changes, rfl⟩ := h
  rcases happen_next mac (System.after files changes) m with hsame | ⟨c, hnext⟩
  · exact ⟨files, changes, hsame.symm⟩
  · refine ⟨files, changes ++ [c], ?_⟩
    rw [hnext, after_append]

theorem Reached.ownKeys (h : Reached w) : OwnKeys w := by
  obtain ⟨files, changes, rfl⟩ := h
  exact ownKeys_after files changes

theorem Reached.sound (h : Reached w) : Sound w := by
  obtain ⟨files, changes, rfl⟩ := h
  exact sound_after files changes

theorem linksContinue_happen (h : Reached w) (m : Moment) : w.LinksContinue (m.happen mac w) := by
  obtain ⟨files, changes, rfl⟩ := h
  rcases happen_next mac (System.after files changes) m with hsame | ⟨c, hnext⟩
  · rw [hsame]
    exact linksContinue_refl _
  · rw [hnext]
    exact linksContinue_next _ c

/-! ## Visits -/

section

variable {env : Env} {presented : Option String}

/-- The landing page up to its documents. -/
def admitted (mac : String → String) (env : Env) (presented : Option String) (token : String) :
    Action (ShareResponse ⊕ ShareLink) := do
  match ← activeLink env token with
  | none => return .inl (.page 404 .invalid)
  | some link =>
    if ← isLocked mac presented link token then return .inl (.page 200 (.access token none))
    let _ ← SharingService.markAccessed env token
    return .inr link

/-- The landing page with its documents. -/
def landed (token : String) : ShareResponse ⊕ ShareLink → Query ShareResponse
  | .inl response => return response
  | .inr link => do
    let (contract, documents) ← SharingService.resolveSharedDocuments link
    return .page 200 (.view token link contract documents)

theorem handle_landing (token : String) : handle mac env presented (.landing token) =
    (admitted mac env presented token >>= fun r => liftM (landed token r) : Action ShareResponse) := by
  have hpure : ∀ r : ShareResponse, (liftM (pure r : Query ShareResponse) : Action ShareResponse) = pure r :=
    fun _ => rfl
  change SharedPages.shareLanding mac env presented token = _
  unfold SharedPages.shareLanding admitted
  rw [bind_assoc]
  refine bind_congr fun found => ?_
  cases found with
  | none => rfl
  | some l =>
    rw [bind_assoc]
    refine bind_congr fun locked => ?_
    cases locked with
    | true => rfl
    | false =>
      simp only [Bool.false_eq_true, if_false, pure_bind, bind_assoc, landed, Program.lift_bind]
      rfl

theorem Shown.agree_activeLink (h : Shown contractId ids w w') (token : String) :
    Read.Agree w w' (activeLink env token) := by
  unfold Read.Agree
  rw [SharedPages.activeLink_apply, SharedPages.activeLink_apply,
    show SharingService.getActiveLink env token w = SharingService.getActiveLink env token w' from
      h.agree_getActiveLink env token]

theorem agree_isLocked (l : ShareLink) (token : String) : Read.Agree w w' (isLocked mac presented l token) := by
  unfold isLocked
  split
  · rfl
  · rfl

theorem Shown.parallel_admitted (h : Shown contractId ids w w') (hs : Sound w) (hs' : Sound w') (token : String) :
    Program.Parallel (Shown contractId ids) (admitted mac env presented token) w w' := by
  apply Program.parallel_after_read (h.agree_activeLink token) h
  intro found _
  cases found with
  | none => exact Program.parallel_pure _ h
  | some l =>
    apply Program.parallel_after_read (agree_isLocked l token) h
    intro locked _
    cases locked with
    | true => exact Program.parallel_pure _ h
    | false =>
      apply Program.parallel_bind (Program.parallel_work (h.parallel_markAccessed hs hs' env token) h)
      intro _ _ ht
      exact Program.parallel_pure _ ht

theorem admitted_link {token : String} {l : ShareLink} (h : (admitted mac env presented token w).1 = .ok (.inr l)) :
    l ∈ w.db.shareLinks.rows ∧ l.token = token := by
  obtain ⟨found, hfound, hrest⟩ := Program.bind_ok_iff.mp h
  rw [Program.read_apply] at hfound hrest
  cases found with
  | none => cases hrest
  | some l' =>
    obtain ⟨locked, _, hrest⟩ := Program.bind_ok_iff.mp hrest
    cases locked with
    | true => cases hrest
    | false =>
      obtain ⟨_, _, hrest⟩ := Program.bind_ok_iff.mp hrest
      obtain rfl := Sum.inr.inj (Except.ok.inj hrest)
      obtain ⟨hmem, htoken, _⟩ := SharedPages.activeLink_some_iff.mp hfound
      exact ⟨hmem, htoken⟩

/-- Whoever comes, the same is shown afterwards. -/
theorem Shown.visited (h : Shown contractId ids w w') (hs : Sound w) (hs' : Sound w') (request : PublicRequest) :
    Shown contractId ids (SharedPages.respond mac env presented request w).2
      (SharedPages.respond mac env presented request w').2 := by
  rw [SharedPages.respond_apply, SharedPages.respond_apply]
  cases request with
  | landing token =>
    have hstate : ∀ w, (handle mac env presented (.landing token) w).2 = (admitted mac env presented token w).2 := by
      intro w
      rw [handle_landing, Program.bind_apply]
      cases (admitted mac env presented token w).1 with
      | error e => rfl
      | ok r => exact congrArg Prod.snd (Program.read_apply _ _)
    simp only [hstate]
    exact (h.parallel_admitted hs hs' token).2
  | unlock token password =>
    rw [SharedPages.handle_unlock, SharedPages.handle_unlock]
    exact h
  | raw token documentId versionId download =>
    rw [SharedPages.handle_raw, SharedPages.handle_raw]
    exact h

/-- The links with the token name the chosen documents. -/
def TokenNames (contractId : Nat) (ids : List Nat) (token : String) (w : World) : Prop :=
  ∀ l ∈ w.db.shareLinks.rows, l.token = token → Names contractId ids l

theorem Shown.agree_pages (h : Shown contractId ids w w') (hr : Reached w) (hr' : Reached w') {request : PublicRequest}
    (hnames : TokenNames contractId ids request.token w) :
    (handle mac env presented request w).1 = (handle mac env presented request w').1 := by
  cases request with
  | landing token =>
    rw [handle_landing]
    refine (Program.parallel_bind (h.parallel_admitted hr.sound hr'.sound token) fun r hr ht => ?_).1
    refine Program.parallel_read ?_ ht
    cases r with
    | inl response => rfl
    | inr l =>
      obtain ⟨hmem, htoken⟩ := admitted_link hr
      exact Read.agree_bind (ht.agree_resolveSharedDocuments (hnames l hmem htoken)) fun _ _ _ => rfl
  | unlock token password =>
    rw [SharedPages.handle_unlock, SharedPages.handle_unlock]
    refine Read.agree_bind (h.agree_activeLink token) fun found _ _ => ?_
    cases found with
    | none => rfl
    | some l => exact Read.agree_ite (fun _ => rfl) fun _ => rfl
  | raw token documentId versionId download =>
    rw [SharedPages.handle_raw, SharedPages.handle_raw]
    refine Read.agree_bind (h.agree_activeLink token) fun found hfound _ => ?_
    cases found with
    | none => rfl
    | some l =>
      obtain ⟨hmem, htoken, _⟩ := SharedPages.activeLink_some_iff.mp hfound
      refine Read.agree_bind (agree_isLocked l token) fun locked _ _ => ?_
      cases locked with
      | true => rfl
      | false =>
        exact Read.agree_bind (h.agree_getSharedVersion hr.ownKeys (hnames l hmem htoken) env documentId versionId)
          fun _ _ _ => rfl

end

/-! ## Runs -/

/-- The two worlds of a run, with the link in them. -/
structure Twins (l : ShareLink) (w w' : World) : Prop where
  shown : Shown l.contractId l.documents w w'
  reached : Reached w
  reached' : Reached w'
  link : ∃ r ∈ w.db.shareLinks.rows, l.Continues r

variable {l : ShareLink}

theorem Twins.names (h : Twins l w w') (hscope : l.scope = .documents) :
    TokenNames l.contractId l.documents l.token w := by
  intro r hr htoken
  obtain ⟨r', hr', hcontinues⟩ := h.link
  have hfound : SharingService.getByToken l.token w = .ok (some r) := htoken ▸ SharingService.getByToken_of_mem hr
  have hfound' : SharingService.getByToken l.token w = .ok (some r') :=
    hcontinues.token ▸ SharingService.getByToken_of_mem hr'
  obtain rfl := Option.some.inj (Except.ok.inj (hfound.symm.trans hfound'))
  exact ⟨hcontinues.contractId, hcontinues.scope.trans hscope, hcontinues.documents⟩

/-- What happens to a document that the link does not name is not shown in either world. -/
theorem Twins.elsewhere (h : Twins l w w') {documentId : Nat} {f : World → World}
    (hf : ∀ {w : World}, (∀ d, w.db.documents.get documentId = some d → ¬ Named l.contractId l.documents d) →
      Shown l.contractId l.documents w (f w))
    (hnot : ¬ ∃ d, w.db.documents.get documentId = some d ∧ Named l.contractId l.documents d) :
    Shown l.contractId l.documents (f w) (f w') := by
  have hnot' : ∀ d, w'.db.documents.get documentId = some d → ¬ Named l.contractId l.documents d :=
    fun d hd hnamed => hnot ⟨d, h.shown.symm.get_named hd hnamed, hnamed⟩
  exact ((hf fun d hd hnamed => hnot ⟨d, hd, hnamed⟩).symm.trans h.shown).trans (hf hnot')

theorem Twins.happen (h : Twins l w w') {m : Moment}
    (hinputs : SameInputs l.contractId l.documents (w, w') m) : Twins l (m.happen mac w) (m.happen mac w') := by
  have hs := h.reached.sound
  have hs' := h.reached'.sound
  refine ⟨?_, reached_happen h.reached m, reached_happen h.reached' m, ?_⟩
  · obtain ⟨env, activity⟩ := m
    cases activity with
    | upload documentId u commits =>
      by_cases hnamed : ∃ d, w.db.documents.get documentId = some d ∧ Named l.contractId l.documents d
      · obtain ⟨d, hd, hnamed⟩ := hnamed
        have hid : d.id = documentId := (Table.get_eq_some_iff.mp hd).2
        exact h.shown.upload hs hs' hd hnamed (hinputs (hid ▸ hnamed.2))
      · exact h.elsewhere (f := fun w => (Operation.upload env documentId u commits w).2)
          (fun hnot => shown_upload hnot u commits) hnamed
    | summarizeContract id organization =>
      by_cases hid : id = l.contractId
      · subst hid
        refine h.shown.stored (h.shown.contractSummary_toOption fun c hc hallowed => ?_) fun summary hsummary => ?_
        · exact hinputs rfl (by simp [hc, hallowed])
        · obtain ⟨c, hc, _⟩ := (Read.bind_ok_iff _ _ _ _).mp hsummary
          exact h.shown.setContractSummary hs hs' ((require_ok_iff _ _ _ _).mp hc) summary
      · exact ((shown_summarizeContract hid).symm.trans h.shown).trans (shown_summarizeContract hid)
    | summarizeDocument documentId organization =>
      by_cases hnamed : ∃ d, w.db.documents.get documentId = some d ∧ Named l.contractId l.documents d
      · obtain ⟨d, hd, hnamed⟩ := hnamed
        have hsummary : Read.Agree w w' (documentSummary env documentId organization) :=
          h.shown.agree_documentSummary h.reached.ownKeys hd hnamed
        exact h.shown.stored (congrArg Except.toOption hsummary) fun summary _ =>
          h.shown.setDocumentSummary hs hs' hd hnamed summary
      · exact h.elsewhere (f := fun w => (summarizeDocument env documentId organization w).2)
          (fun hnot => shown_summarizeDocument hnot) hnamed
    | visit presented request => exact h.shown.visited hs hs' request
  · obtain ⟨r, hr, hcontinues⟩ := h.link
    obtain ⟨r', hr', hcontinues'⟩ := linksContinue_mem (linksContinue_happen h.reached m) hr
    exact ⟨r', hr', ShareLink.continues_trans hcontinues hcontinues'⟩

theorem Twins.seen (h : Twins l w w') (hscope : l.scope = .documents) (m : Moment) :
    m.seen mac l.token w = m.seen mac l.token w' := by
  obtain ⟨env, activity⟩ := m
  cases activity with
  | visit presented request =>
    change (if request.token = l.token then _ else _) = if request.token = l.token then _ else _
    by_cases htoken : request.token = l.token
    · rw [if_pos htoken, if_pos htoken, SharedPages.respond_apply, SharedPages.respond_apply,
        h.shown.agree_pages h.reached h.reached' (htoken ▸ h.names hscope)]
    · rw [if_neg htoken, if_neg htoken]
  | _ => rfl

theorem Twins.reviewed (h : Twins l w w') (hscope : l.scope = .documents) {moments : List Moment}
    (hinputs : Runs.Along (happenBoth mac) (SameInputs l.contractId l.documents) (w, w') moments) :
    reviewed mac l.token w moments = reviewed mac l.token w' moments := by
  induction moments generalizing w w' with
  | nil => rfl
  | cons m moments ih =>
    obtain ⟨hnow, hlater⟩ := hinputs
    change (m.seen mac l.token w).toList ++ _ = (m.seen mac l.token w').toList ++ _
    rw [h.seen hscope m, ih (h.happen hnow) hlater]

/-- Where what is told of the contract's documents and the ids of the versions that the link shows are the
same, the reviewer of a link to chosen documents learns nothing of the others. -/
theorem reviewed_same (mac : String → String) (files files' : Bucket → String → Option Bytes)
    (changes changes' : List Change) {l : ShareLink}
    (hl : l ∈ (System.after files changes).world.db.shareLinks.rows) (hscope : l.scope = .documents)
    (halike : Alike l.contractId l.documents (System.after files changes).world
      (System.after files' changes').world) {moments : List Moment}
    (hinputs : Runs.Along (happenBoth mac) (SameInputs l.contractId l.documents)
      ((System.after files changes).world, (System.after files' changes').world) moments) :
    reviewed mac l.token (System.after files changes).world moments =
      reviewed mac l.token (System.after files' changes').world moments :=
  Twins.reviewed ⟨halike.shown, ⟨files, changes, rfl⟩, ⟨files', changes', rfl⟩, l, hl, l.continues_refl⟩ hscope
    hinputs

/-! ## Alike worlds -/

theorem Alike.refl (w : World) : Alike contractId ids w w :=
  ⟨rfl, List.forall₂_same.mpr fun d _ => counterpart_refl d, fun _ _ _ _ _ _ => rfl⟩

/-- A document that the link does not name may be added under either name. -/
theorem alike_addDocument {env : Env} {name name' : String} {new new' : Document} {w₁ w₂ : World}
    (h : ContractService.addDocument env contractId name w = .ok (new, w₁))
    (h' : ContractService.addDocument env contractId name' w = .ok (new', w₂)) (hid : new.id ∉ ids) :
    Alike contractId ids w₁ w₂ := by
  obtain ⟨c, document, w₀, hc, hcontract, _, hsave, hadd⟩ := ContractService.addDocument_ok h
  obtain ⟨c', document', w₀', hc', hcontract', _, hsave', hadd'⟩ := ContractService.addDocument_ok h'
  obtain rfl := Option.some.inj (hc.symm.trans hc')
  obtain ⟨_, rfl⟩ := Prod.mk.inj (Except.ok.inj (hsave.symm.trans hsave'))
  obtain ⟨_, t, ht, rfl⟩ := (add_ok_iff _ _ _ _).mp hadd
  obtain ⟨_, t', ht', rfl⟩ := (add_ok_iff _ _ _ _).mp hadd'
  obtain ⟨hnew, hrows, _⟩ := Table.insert_eq_some ht
  obtain ⟨hnew', hrows', _⟩ := Table.insert_eq_some ht'
  have hsame : new'.id = new.id := by
    rw [hnew, hnew']
    rfl
  have hin : new.contractId = contractId := by
    rw [hnew]
    exact hcontract
  have hin' : new'.contractId = contractId := by
    rw [hnew']
    exact hcontract'
  refine ⟨rfl, ?_, fun _ _ _ _ _ _ => rfl⟩
  change List.Forall₂ (Counterpart contractId ids) t.rows t'.rows
  rw [hrows, hrows']
  refine List.rel_append (List.forall₂_same.mpr fun a _ => counterpart_refl a) (.cons ?_ .nil)
  exact ⟨hsame, hin'.trans hin.symm, fun hvisible => absurd ⟨hin, hid⟩ hvisible⟩

/-- A document that the link does not name may have one version more. -/
theorem alike_upload {env : Env} {documentId : Nat} (u : DocumentService.Upload) (commits : Bool)
    (hhidden : ∀ d, w.db.documents.get documentId = some d → Hidden contractId ids d) :
    Alike contractId ids w (Operation.upload env documentId u commits w).2 := by
  have hfiles : ∀ t : DocumentService.Target env documentId w, ∀ d ∈ w.db.documents.rows, ¬ Hidden contractId ids d →
      ∀ bucket key, OwnKey d.id key → t.files u bucket key = w.files bucket key := by
    intro t d hd hvisible bucket key hkey
    have hmem := (Table.get_eq_some_iff.mp t.document_get).1
    have hother : ¬ (bucket = t.bucket ∧ key = DocumentService.storageKey t.contract t.document u.filename) := by
      rintro ⟨_, rfl⟩
      have hid : d.id = t.document.id := hkey.unique (ownKey_storageKey _ _ _)
      exact hvisible (Table.eq_of_id hd hmem hid ▸ hhidden _ t.document_get)
    exact if_neg hother
  rcases DocumentService.upload_cases env documentId u commits w with
    ⟨e, he⟩ | ⟨t, _, ⟨e, he⟩ | ⟨documents, hdocuments, hok⟩⟩
  · rw [he]
    exact Alike.refl w
  · rw [he]
    exact ⟨rfl, List.forall₂_same.mpr fun d _ => counterpart_refl d, hfiles t⟩
  · rw [hok]
    have hmem := (Table.get_eq_some_iff.mp t.document_get).1
    refine ⟨rfl, ?_, hfiles t⟩
    change List.Forall₂ (Counterpart contractId ids) w.db.documents.rows documents.rows
    rw [(Table.update_eq_some hdocuments).1]
    refine List.forall₂_map_right_iff.mpr (List.forall₂_same.mpr fun a ha => ?_)
    by_cases hid : Row.id a = Row.id (t.document.addVersion (t.version u) env.now)
    · obtain rfl := Table.eq_of_id ha hmem hid
      rw [if_pos hid]
      exact ⟨rfl, rfl, fun hvisible => absurd (hhidden _ t.document_get) hvisible⟩
    · rw [if_neg hid]
      exact counterpart_refl a

/-- Acme is on the team plan, and Alice shares the main document of her lease with a reviewer. -/
def leaseShared : List Change := leaseDrafts.map .call ++ [.setPlan 1 .team,
  .call ⟨.offline 2 "first", .createLink 1 .documents true 24 "Alice" [1] none⟩]

/-- Another document of the lease, which she does not share. -/
def leaseOffer (name : String) : List Change := leaseShared ++ [.call ⟨.offline 3 "token", .addDocument 1 name⟩]

def textFile (content : Bytes) (filename : String) : DocumentService.Upload :=
  ⟨content, filename, "text/plain", "Alice", none, none, none⟩

/-- It has a version. -/
def leaseOffered : List Change := leaseOffer "Offer" ++
  [.call ⟨.offline 3 "token", .uploadVersion 2 (textFile [1] "offer.txt") true⟩]

def reviewLink : ShareLink :=
  ⟨1, 1, "first", .documents, none, true, "Alice", 2, 86402, none, none, [1]⟩

/-- A server with a language model. -/
def modelEnv (now : Nat) (generateSummary : List String → Option String) : Env :=
  { Env.offline now "token" with
    settings := { (Env.offline now "token").settings with geminiEnabled := true }
    generateSummary := generateSummary }

def acmeTeam : Organization := ⟨1, "Acme", "acme", .team, none, none, none⟩

/-- A model that repeats what it is sent. -/
def echo (texts : List String) : Option String := some (String.join texts)

/-- The lease is summarized, and the reviewer comes. -/
def leaseSummary : List Moment := [
  ⟨modelEnv 4 echo, .summarizeContract 1 acmeTeam⟩,
  ⟨modelEnv 5 echo, .visit none (.landing "first")⟩]

theorem unit_of_ok {α : Type} {m : UnitOfWork α} {s : System} {a : α} (h : m s.world = .ok (a, w)) :
    (Operation.unit m s).2.world = w := by
  rw [unit_state, Program.commit_apply, h]

theorem alike_offers (s : System) (name name' : String)
    (h : ((ContractService.addDocument (.offline 3 "token") 1 name s.world).map fun p => p.1.id) = .ok 2)
    (h' : ((ContractService.addDocument (.offline 3 "token") 1 name' s.world).map fun p => p.1.id) = .ok 2) :
    Alike 1 [1] (s.next (.call ⟨.offline 3 "token", .addDocument 1 name⟩)).world
      (s.next (.call ⟨.offline 3 "token", .addDocument 1 name'⟩)).world := by
  cases hadd : ContractService.addDocument (.offline 3 "token") 1 name s.world with
  | error e => simp [hadd, Except.map] at h
  | ok p =>
    cases hadd' : ContractService.addDocument (.offline 3 "token") 1 name' s.world with
    | error e => simp [hadd', Except.map] at h'
    | ok p' =>
      have hid : p.1.id = 2 := by simpa [hadd, Except.map] using h
      have hworld : (s.next (.call ⟨.offline 3 "token", .addDocument 1 name⟩)).world = p.2 := unit_of_ok hadd
      have hworld' : (s.next (.call ⟨.offline 3 "token", .addDocument 1 name'⟩)).world = p'.2 := unit_of_ok hadd'
      rw [hworld, hworld']
      exact alike_addDocument hadd hadd' (by simp [hid])

theorem alike_leaseOffer (name name' : String) (files : Bucket → String → Option Bytes)
    (h : ((ContractService.addDocument (.offline 3 "token") 1 name (System.after files leaseShared).world).map
      fun p => p.1.id) = .ok 2)
    (h' : ((ContractService.addDocument (.offline 3 "token") 1 name' (System.after files leaseShared).world).map
      fun p => p.1.id) = .ok 2) :
    Alike 1 [1] (System.after files (leaseOffer name)).world (System.after files (leaseOffer name')).world := by
  rw [leaseOffer, leaseOffer, after_append, after_append]
  exact alike_offers _ name name' h h'

theorem leaseOffer_added (name : String) (h : name = "Offer A" ∨ name = "Offer B") :
    ((ContractService.addDocument (.offline 3 "token") 1 name (System.after (fun _ _ => none) leaseShared).world).map
      fun p => p.1.id) = .ok 2 := by
  rcases h with rfl | rfl
  · decide +kernel
  · decide +kernel

theorem alike_leaseOffered :
    Alike 1 [1] (System.after (fun _ _ => none) (leaseOffer "Offer")).world
      (System.after (fun _ _ => none) leaseOffered).world := by
  rw [leaseOffered, after_append, upload_next]
  apply alike_upload
  intro d hd
  have hhidden : ((System.after (fun _ _ => none) (leaseOffer "Offer")).world.db.documents.get 2).all
      (fun d => Hidden 1 [1] d) = true := by decide +kernel
  rw [hd] at hhidden
  exact of_decide_eq_true hhidden

/-- The other document has a version more in one of the worlds, until the same file is the latest in both. -/
theorem reviewed_same_leaseOffered :
    (System.after (fun _ _ => none) (leaseOffer "Offer")).world.db.nextVersionId ≠
        (System.after (fun _ _ => none) leaseOffered).world.db.nextVersionId ∧
      reviewed id reviewLink.token (System.after (fun _ _ => none) (leaseOffer "Offer")).world
        (⟨modelEnv 4 echo, .upload 2 (textFile [7] "offer.txt") true⟩ :: leaseSummary) =
      reviewed id reviewLink.token (System.after (fun _ _ => none) leaseOffered).world
        (⟨modelEnv 4 echo, .upload 2 (textFile [7] "offer.txt") true⟩ :: leaseSummary) := by
  refine ⟨by decide +kernel, ?_⟩
  exact reviewed_same id (fun _ _ => none) (fun _ _ => none) (leaseOffer "Offer") leaseOffered
    (l := reviewLink) (by decide +kernel) rfl alike_leaseOffered (by decide +kernel)

/-- The next version of her own document is uploaded, and the reviewer comes. -/
def leaseUpload : List Moment := [
  ⟨.offline 4 "token", .upload 1 (textFile [7] "lease.txt") true⟩,
  ⟨.offline 5 "token", .visit none (.landing "first")⟩]

/-- The reviewer is told the name of the other document; and the id of the next version of the shared one
counts the versions of the other. -/
theorem not_reviewed_same_leaseOffer :
    (reviewLink ∈ (System.after (fun _ _ => none) (leaseOffer "Offer A")).world.db.shareLinks.rows ∧
      reviewLink.isActive 5 = true ∧
      Alike reviewLink.contractId reviewLink.documents (System.after (fun _ _ => none) (leaseOffer "Offer A")).world
        (System.after (fun _ _ => none) (leaseOffer "Offer B")).world ∧
      reviewed id reviewLink.token (System.after (fun _ _ => none) (leaseOffer "Offer A")).world leaseSummary ≠
        reviewed id reviewLink.token (System.after (fun _ _ => none) (leaseOffer "Offer B")).world leaseSummary) ∧
    reviewLink ∈ (System.after (fun _ _ => none) (leaseOffer "Offer")).world.db.shareLinks.rows ∧
      Alike reviewLink.contractId reviewLink.documents (System.after (fun _ _ => none) (leaseOffer "Offer")).world
        (System.after (fun _ _ => none) leaseOffered).world ∧
      reviewed id reviewLink.token (System.after (fun _ _ => none) (leaseOffer "Offer")).world leaseUpload ≠
        reviewed id reviewLink.token (System.after (fun _ _ => none) leaseOffered).world leaseUpload := by
  refine ⟨⟨by decide +kernel, by decide, ?_, by decide +kernel⟩, by decide +kernel, alike_leaseOffered,
    by decide +kernel⟩
  exact alike_leaseOffer "Offer A" "Offer B" _ (leaseOffer_added _ (Or.inl rfl)) (leaseOffer_added _ (Or.inr rfl))

end Orchestract
