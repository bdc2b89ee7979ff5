import Orchestract.Documents.Retrieval
import Orchestract.Sharing.Links
import Orchestract.Web.SharedPages

/-!
# Protected share links

The proof that a password was given is a value that the server derives from the token of the link
and that clients send back. Clients may send any value they have seen; they cannot derive one.
-/

namespace Orchestract

set_option autoImplicit false

open SharedPages

/-- Documents of a link are in the response. -/
def ShareResponse.serves : ShareResponse → Bool
  | .page _ (.view ..) => true
  | .other ⟨_, .file .., _⟩ => true
  | _ => false

/-- The value that the response gives out. -/
def ShareResponse.issued : ShareResponse → Option String
  | .unlocked _ cookie => some cookie.value
  | _ => none

/-- The answer to a token that is not active. -/
def PublicRequest.refusal : PublicRequest → ShareResponse
  | .landing _ | .unlock .. => .page 404 .invalid
  | .raw .. => .other (.ofFailure (.raised (.notFound "file version not found")))

namespace SharedPages

variable {mac : String → String} {env : Env} {presented : Option String} {w : World}

/-! ## The endpoints -/

theorem activeLink_apply (env : Env) (token : String) (w : World) : activeLink env token w =
    match SharingService.getActiveLink env token w with
    | .ok l => .ok (some l)
    | .error (.raised .shareLinkNotActive) => .ok none
    | .error e => .error e := by
  change tryCatch ((some <$> SharingService.getActiveLink env token) w) _ = _
  change tryCatch (some <$> SharingService.getActiveLink env token w) _ = _
  cases SharingService.getActiveLink env token w with
  | ok l => rfl
  | error e => rcases e with (_ | _) | _ | _ | _ <;> rfl

theorem activeLink_some_iff {token : String} {l : ShareLink} : activeLink env token w = .ok (some l) ↔
    l ∈ w.db.shareLinks.rows ∧ l.token = token ∧ l.isActive env.now = true := by
  rw [← SharingService.getActiveLink_ok_iff, activeLink_apply]
  split <;> simp_all

theorem activeLink_inactive {l : ShareLink} (hl : l ∈ w.db.shareLinks.rows)
    (hinactive : l.isActive env.now = false) : activeLink env l.token w = .ok none := by
  have hget : SharingService.getActiveLink env l.token w = .error (.raised .shareLinkNotActive) := by
    unfold SharingService.getActiveLink
    rw [Read.bind_ok (SharingService.getByToken_of_mem hl)]
    simp only [Option.filter, hinactive, Bool.false_eq_true, if_false]
    rfl
  rw [activeLink_apply, hget]

/-- Who is not locked out of a protected link presents its value. -/
theorem isLocked_eq_false {l : ShareLink} {token : String} (h : isLocked mac presented l token w = .ok false)
    (hpassword : l.hasPassword = true) : presented = some (shareUnlockToken mac token) := by
  unfold isLocked at h
  rw [if_pos hpassword, Read.map_ok_iff] at h
  obtain ⟨unlocked, hunlocked, hnot⟩ := h
  obtain rfl : unlocked = true := by simpa using hnot
  unfold isShareUnlocked at hunlocked
  cases hvalue : presented.bind Text.orNone with
  | none => simp [hvalue] at hunlocked
  | some value =>
    simp only [hvalue, compareDigest] at hunlocked
    split at hunlocked
    · have heq : value = shareUnlockToken mac token := of_decide_eq_true (Except.ok.inj hunlocked)
      obtain ⟨cookie, rfl, hcookie⟩ := Option.bind_eq_some_iff.mp hvalue
      unfold Text.orNone at hcookie
      split at hcookie
      · cases hcookie
      · rw [Option.some.inj hcookie, heq]
    · cases hunlocked

theorem respond_apply (mac : String → String) (env : Env) (presented : Option String) (r : PublicRequest)
    (w : World) : respond mac env presented r w =
      (match (handle mac env presented r w).1 with
        | .ok response => response
        | .error e => .other (.ofFailure e), (handle mac env presented r w).2) := by
  unfold respond
  rcases handle mac env presented r w with ⟨_ | _, w'⟩ <;> rfl

theorem serves_ofFailure (e : Failure) : (ShareResponse.other (.ofFailure e)).serves = false := by
  cases e <;> rfl

theorem handle_unlock (token password : String) : handle mac env presented (.unlock token password) w =
    (shareUnlock mac env token password w, w) := Program.read_apply _ w

theorem handle_raw (token : String) (documentId versionId : Nat) (download : Bool) :
    handle mac env presented (.raw token documentId versionId download) w =
      (shareDocumentRaw mac env presented token documentId versionId download w, w) := Program.read_apply _ w

/-- What a request can be answered: the pages of a token without an active link, and those of the
active link that has the token. -/
inductive Answered (mac : String → String) (env : Env) (presented : Option String) (w : World) :
    PublicRequest → ShareResponse → Prop
  | invalid {r : PublicRequest} : Answered mac env presented w r (.page 404 .invalid)
  | access {r : PublicRequest} (status : Nat) (error : Option String) :
    Answered mac env presented w r (.page status (.access r.token error))
  | view {l : ShareLink} (contract : Contract) (documents : List Document) :
    l ∈ w.db.shareLinks.rows → l.isActive env.now = true →
    isLocked mac presented l l.token w = .ok false →
    Answered mac env presented w (.landing l.token) (.page 200 (.view l.token l contract documents))
  | unlocked {l : ShareLink} {password : String} :
    l ∈ w.db.shareLinks.rows → l.isActive env.now = true → l.hasPassword = true →
    l.verifyPassword env.verifyPassword password = true →
    Answered mac env presented w (.unlock l.token password)
      (.unlocked s!"/share/{l.token}"
        ⟨shareUnlockToken mac l.token, l.expiresAt - env.now, s!"/share/{l.token}"⟩)
  | file {l : ShareLink} (documentId versionId : Nat) (download : Bool) (data : Bytes) (version : DocumentVersion) :
    l ∈ w.db.shareLinks.rows → l.isActive env.now = true →
    isLocked mac presented l l.token w = .ok false →
    Answered mac env presented w (.raw l.token documentId versionId download)
      (.other (Response.storedFile data version (download && l.allowDownload)))

theorem shareLanding_ok {token : String} {response : ShareResponse}
    (h : (shareLanding mac env presented token w).1 = .ok response) :
    Answered mac env presented w (.landing token) response := by
  obtain ⟨found, hfound, hrun⟩ := Program.bind_ok_iff.mp h
  rw [Program.read_apply] at hfound hrun
  cases found with
  | none =>
    obtain rfl := Except.ok.inj hrun
    exact .invalid
  | some l =>
    obtain ⟨hl, rfl, hactive⟩ := activeLink_some_iff.mp hfound
    obtain ⟨locked, hlocked, hrun⟩ := Program.bind_ok_iff.mp hrun
    rw [Program.read_apply] at hlocked hrun
    cases locked with
    | true =>
      obtain rfl := Except.ok.inj hrun
      exact .access 200 none
    | false =>
      obtain ⟨_, _, hrun⟩ := Program.bind_ok_iff.mp hrun
      obtain ⟨⟨contract, documents⟩, _, hrun⟩ := Program.bind_ok_iff.mp hrun
      obtain rfl := Except.ok.inj hrun
      exact .view contract documents hl hactive hlocked

theorem shareUnlock_ok {token password : String} {response : ShareResponse}
    (h : shareUnlock mac env token password w = .ok response) :
    Answered mac env presented w (.unlock token password) response := by
  obtain ⟨found, hfound, hrun⟩ := (Read.bind_ok_iff _ _ _ _).mp h
  cases found with
  | none =>
    obtain rfl := Except.ok.inj hrun
    exact .invalid
  | some l =>
    obtain ⟨hl, rfl, hactive⟩ := activeLink_some_iff.mp hfound
    dsimp only at hrun
    split at hrun
    · obtain rfl := Except.ok.inj hrun
      exact .access 422 (some "Incorrect password.")
    · rename_i hright
      obtain ⟨hprotected, hverify⟩ := not_or.mp hright
      obtain rfl := Except.ok.inj hrun
      exact .unlocked hl hactive (not_not.mp hprotected) (not_not.mp hverify)

theorem shareDocumentRaw_ok {token : String} {documentId versionId : Nat} {download : Bool}
    {response : ShareResponse}
    (h : shareDocumentRaw mac env presented token documentId versionId download w = .ok response) :
    Answered mac env presented w (.raw token documentId versionId download) response := by
  obtain ⟨found, hfound, hrun⟩ := (Read.bind_ok_iff _ _ _ _).mp h
  cases found with
  | none => cases hrun
  | some l =>
    obtain ⟨hl, rfl, hactive⟩ := activeLink_some_iff.mp hfound
    obtain ⟨locked, hlocked, hrun⟩ := (Read.bind_ok_iff _ _ _ _).mp hrun
    cases locked with
    | true => cases hrun
    | false =>
      obtain ⟨_, _, hrun⟩ := (Read.bind_ok_iff _ _ _ _).mp hrun
      obtain rfl := Except.ok.inj hrun
      exact .file documentId versionId download _ _ hl hactive hlocked

theorem handle_ok {r : PublicRequest} {response : ShareResponse}
    (h : (handle mac env presented r w).1 = .ok response) : Answered mac env presented w r response := by
  cases r with
  | landing token => exact shareLanding_ok h
  | unlock token password =>
    rw [handle_unlock] at h
    exact shareUnlock_ok h
  | raw token documentId versionId download =>
    rw [handle_raw] at h
    exact shareDocumentRaw_ok h

/-- Only an active link is served, and a protected one only against its value. -/
theorem respond_serves {r : PublicRequest} (h : (respond mac env presented r w).1.serves = true) :
    ∃ l ∈ w.db.shareLinks.rows, l.token = r.token ∧ l.isActive env.now = true ∧
      (l.hasPassword = true → presented = some (shareUnlockToken mac r.token)) := by
  rw [respond_apply] at h
  cases hrun : (handle mac env presented r w).1 with
  | error e => simp [hrun, serves_ofFailure] at h
  | ok response =>
    simp only [hrun] at h
    cases handle_ok hrun with
    | invalid => cases h
    | access status error => cases h
    | view contract documents hl hactive hopen => exact ⟨_, hl, rfl, hactive, isLocked_eq_false hopen⟩
    | unlocked => cases h
    | file documentId versionId download data version hl hactive hopen =>
      exact ⟨_, hl, rfl, hactive, isLocked_eq_false hopen⟩

/-- A value is given out only for the password of the link. -/
theorem respond_unlocked {r : PublicRequest} {url : String} {cookie : UnlockCookie}
    (h : (respond mac env presented r w).1 = .unlocked url cookie) :
    ∃ l ∈ w.db.shareLinks.rows, ∃ password, r = .unlock l.token password ∧
      l.verifyPassword env.verifyPassword password = true ∧ cookie.value = shareUnlockToken mac l.token := by
  rw [respond_apply] at h
  cases hrun : (handle mac env presented r w).1 with
  | error e => simp [hrun] at h
  | ok response =>
    obtain rfl : response = .unlocked url cookie := by simpa [hrun] using h
    cases handle_ok hrun with
    | unlocked hl hactive hprotected hverify => exact ⟨_, hl, _, rfl, hverify, rfl⟩

/-- A token whose link is not active is refused, and nothing changes. -/
theorem respond_inactive {l : ShareLink} {r : PublicRequest} (hl : l ∈ w.db.shareLinks.rows)
    (htoken : r.token = l.token) (hinactive : l.isActive env.now = false) :
    respond mac env presented r w = (r.refusal, w) := by
  have hnone : activeLink env r.token w = .ok none := htoken ▸ activeLink_inactive hl hinactive
  rw [respond_apply]
  cases r with
  | landing token =>
    have hrun : handle mac env presented (.landing token) w = (.ok (.page 404 .invalid), w) := by
      change (liftM (activeLink env token) >>= _ : Action ShareResponse) w = _
      rw [Program.bind_apply, Program.read_apply, show activeLink env token w = .ok none from hnone]
      rfl
    rw [hrun]
    rfl
  | unlock token password =>
    have hrun : shareUnlock mac env token password w = .ok (.page 404 .invalid) := Read.bind_ok hnone
    rw [handle_unlock, hrun]
    rfl
  | raw token documentId versionId download =>
    have hrun : shareDocumentRaw mac env presented token documentId versionId download w =
        .error (.raised (.notFound "file version not found")) := Read.bind_ok hnone
    rw [handle_raw, hrun]
    rfl

/-- Besides the time of the last access, a request changes nothing. -/
theorem respond_world (mac : String → String) (env : Env) (presented : Option String) (r : PublicRequest)
    (s : System) : (respond mac env presented r s.world).2 = s.world ∨
      (respond mac env presented r s.world).2 = (s.next (.visit env r.token)).world := by
  rw [respond_apply]
  cases r with
  | landing token =>
    change (handle mac env presented (.landing token) s.world).2 = _ ∨ _
    rcases Program.after_read (activeLink env token) _ s.world with hstop | ⟨found, _, hgo⟩
    · exact Or.inl hstop
    · change (handle mac env presented (.landing token) s.world).2 = _ at hgo
      rw [hgo]
      cases found with
      | none => exact Or.inl rfl
      | some l =>
        rcases Program.after_read (isLocked mac presented l token) _ s.world with hstop | ⟨locked, _, hgo⟩
        · exact Or.inl hstop
        · rw [hgo]
          cases locked with
          | true => exact Or.inl rfl
          | false =>
            refine Or.inr ?_
            change _ = (Operation.unit (SharingService.markAccessed env token) s).2.world
            rw [unit_state]
            change ((liftM (SharingService.markAccessed env token) >>= fun _ => _ : Action ShareResponse)
              s.world).2 = _
            rw [Program.bind_apply]
            cases ((liftM (SharingService.markAccessed env token) : Action Unit) s.world).1 with
            | error e => rfl
            | ok _ =>
              rcases Program.after_read (SharingService.resolveSharedDocuments l) _
                ((liftM (SharingService.markAccessed env token) : Action Unit) s.world).2 with
                hstop | ⟨_, _, hgo⟩
              · exact hstop
              · exact hgo
  | unlock token password =>
    rw [handle_unlock]
    exact Or.inl rfl
  | raw token documentId versionId download =>
    rw [handle_raw]
    exact Or.inl rfl

end SharedPages

/-! ## Clients -/

/-- The MAC with the key of the process, as far as clients can tell messages by it. -/
structure KeyedMac where
  mac : String → String
  injective : Function.Injective mac

/-- A request of a client, with the cookie it sends. -/
structure PublicVisit where
  env : Env
  cookie : Option String
  request : PublicRequest

def PublicVisit.respond (v : PublicVisit) (k : KeyedMac) (w : World) : ShareResponse × World :=
  SharedPages.respond k.mac v.env v.cookie v.request w

inductive PublicEvent where
  | change (c : Change)
  | visit (v : PublicVisit)

/-- The system, and what has been asked and answered so far. -/
structure Published where
  system : System
  transcript : List (PublicVisit × ShareResponse)

namespace Published

def initial (files : Bucket → String → Option Bytes) : Published := ⟨.initial files, []⟩

def next (k : KeyedMac) (s : Published) : PublicEvent → Published
  | .change c => { s with system := s.system.next c }
  | .visit v =>
    { system := { s.system with world := (v.respond k s.system.world).2 }
      transcript := s.transcript ++ [(v, (v.respond k s.system.world).1)] }

def links (s : Published) : List ShareLink := s.system.world.db.shareLinks.rows

/-- The values in the answers that clients got. -/
def seen (s : Published) : List String := s.transcript.filterMap fun p => p.2.issued

/-- Clients send values they have seen and values of their own, which are not the MAC of anything. -/
def Feasible (k : KeyedMac) (s : Published) : PublicEvent → Prop
  | .change _ => True
  | .visit v => ∀ value, v.cookie = some value → value ∈ s.seen ∨ ∀ message, k.mac message ≠ value

/-- The value was the answer to the password of this link. -/
def UnlockedBy (s : Published) (l : ShareLink) (value : String) : Prop :=
  ∃ p ∈ s.transcript, p.2.issued = some value ∧ ∃ password, p.1.request = .unlock l.token password ∧
    l.verifyPassword p.1.env.verifyPassword password = true

/-- Who is served by a protected link sends a value that was the answer to its password. -/
def OpensWithPassword (k : KeyedMac) (s : Published) : PublicEvent → Prop
  | .change _ => True
  | .visit v => (v.respond k s.system.world).1.serves = true →
    ∃ l ∈ s.links, l.token = v.request.token ∧ l.isActive v.env.now = true ∧
      (l.hasPassword = true → ∃ value, v.cookie = some value ∧ s.UnlockedBy l value)

/-- Whoever asks for this link from now on is refused. -/
def Refuses (k : KeyedMac) (s : Published) (l : ShareLink) (now : Nat) : Prop :=
  ∀ v : PublicVisit, v.request.token = l.token → now ≤ v.env.now →
    v.respond k s.system.world = (v.request.refusal, s.system.world)

end Published

/-! ## Runs -/

namespace Published

variable {k : KeyedMac} {s : Published}

theorem linksContinue_next (s : Published) (e : PublicEvent) :
    s.system.world.LinksContinue (s.next k e).system.world := by
  cases e with
  | change c => exact Orchestract.linksContinue_next s.system c
  | visit v =>
    change s.system.world.LinksContinue (v.respond k s.system.world).2
    rcases respond_world k.mac v.env v.cookie v.request s.system with hsame | hvisit
    · change (v.respond k s.system.world).2 = _ at hsame
      rw [hsame]
      exact linksContinue_refl _
    · change (v.respond k s.system.world).2 = _ at hvisit
      rw [hvisit]
      exact Orchestract.linksContinue_next s.system _

theorem linksContinue_run (s : Published) (events : List PublicEvent) :
    s.system.world.LinksContinue (Runs.run (next k) s events).system.world :=
  Runs.run_relates (R := fun s s' : Published => s.system.world.LinksContinue s'.system.world)
    (fun s => linksContinue_refl s.system.world) linksContinue_trans linksContinue_next s events

theorem link_unique {w : World} {l l' : ShareLink} (hl : l ∈ w.db.shareLinks.rows)
    (hl' : l' ∈ w.db.shareLinks.rows) (htoken : l.token = l'.token) : l = l' := by
  have hget := SharingService.getByToken_of_mem hl
  rw [htoken, SharingService.getByToken_of_mem hl'] at hget
  exact (Option.some.inj (Except.ok.inj hget)).symm

theorem shareUnlockToken_inj (k : KeyedMac) {token token' : String}
    (h : shareUnlockToken k.mac token = shareUnlockToken k.mac token') : token = token' := by
  have happend := congrArg String.toList (k.injective h)
  exact String.toList_inj.mp (by simpa [String.toList_append] using happend)

theorem verifyPassword_continues {l l' : ShareLink} (h : l.Continues l') (verify : String → String → Bool)
    (rawPassword : String) : l'.verifyPassword verify rawPassword = l.verifyPassword verify rawPassword := by
  unfold ShareLink.verifyPassword
  rw [h.passwordHash]

/-- The password of a link stays, and so does what was answered. -/
theorem unlockedBy_mono {s' : Published} {l l' : ShareLink} {value : String} (h : s.UnlockedBy l value)
    (hcontinues : l.Continues l') (htranscript : s.transcript ⊆ s'.transcript) : s'.UnlockedBy l' value := by
  obtain ⟨p, hp, hissued, password, hrequest, hverify⟩ := h
  exact ⟨p, htranscript hp, hissued, password, hcontinues.token.symm ▸ hrequest,
    (verifyPassword_continues hcontinues _ _).trans hverify⟩

/-- Every value that was given out is that of a link whose password was given. -/
def Justified (k : KeyedMac) (s : Published) : Prop :=
  ∀ value ∈ s.seen, ∃ l ∈ s.links, s.UnlockedBy l value ∧ value = shareUnlockToken k.mac l.token

theorem justified_mono {s' : Published} (h : s.Justified k) (hlinks : s.system.world.LinksContinue s'.system.world)
    (htranscript : s.transcript ⊆ s'.transcript) {value : String} (hseen : value ∈ s.seen) :
    ∃ l ∈ s'.links, s'.UnlockedBy l value ∧ value = shareUnlockToken k.mac l.token := by
  obtain ⟨l, hl, hunlocked, hvalue⟩ := h value hseen
  obtain ⟨l', hl', hcontinues⟩ := linksContinue_mem hlinks hl
  exact ⟨l', hl', unlockedBy_mono hunlocked hcontinues htranscript, hcontinues.token.symm ▸ hvalue⟩

theorem seen_visit {v : PublicVisit} {value : String} (h : value ∈ (s.next k (.visit v)).seen) :
    value ∈ s.seen ∨ (v.respond k s.system.world).1.issued = some value := by
  obtain ⟨p, hp, hissued⟩ := List.mem_filterMap.mp h
  rcases List.mem_append.mp hp with hp | hp
  · exact Or.inl (List.mem_filterMap.mpr ⟨p, hp, hissued⟩)
  · obtain rfl := List.mem_singleton.mp hp
    exact Or.inr hissued

/-- A new value is given out only for the password of a link that is there. -/
theorem justified_next (h : s.Justified k) (e : PublicEvent) : (s.next k e).Justified k := by
  have hlinks := linksContinue_next (k := k) s e
  intro value hseen
  cases e with
  | change c => exact justified_mono h hlinks (List.Subset.refl _) hseen
  | visit v =>
    rcases seen_visit hseen with hseen | hissued
    · exact justified_mono h hlinks (List.subset_append_left _ _) hseen
    · cases hanswer : (v.respond k s.system.world).1 with
      | unlocked url cookie =>
        obtain ⟨l, hl, password, hrequest, hverify, hvalue⟩ := respond_unlocked hanswer
        obtain ⟨l', hl', hcontinues⟩ := linksContinue_mem hlinks hl
        have hcookie : cookie.value = value :=
          Option.some.inj ((congrArg ShareResponse.issued hanswer).symm.trans hissued)
        refine ⟨l', hl', ⟨_, List.mem_append_right _ (List.mem_singleton_self _), hissued, password, ?_, ?_⟩, ?_⟩
        · rw [hcontinues.token]
          exact hrequest
        · exact (verifyPassword_continues hcontinues _ _).trans hverify
        · rw [hcontinues.token, ← hvalue, hcookie]
      | page status page => simp [hanswer, ShareResponse.issued] at hissued
      | other r => simp [hanswer, ShareResponse.issued] at hissued

theorem opensWithPassword_of_justified (h : s.Justified k) {e : PublicEvent} (hfeasible : s.Feasible k e) :
    s.OpensWithPassword k e := by
  cases e with
  | change c => trivial
  | visit v =>
    intro hserves
    obtain ⟨l, hl, htoken, hactive, hcookie⟩ := respond_serves hserves
    refine ⟨l, hl, htoken, hactive, fun hpassword => ⟨_, hcookie hpassword, ?_⟩⟩
    rcases hfeasible _ (hcookie hpassword) with hseen | hown
    · obtain ⟨l', hl', hunlocked, hvalue⟩ := h _ hseen
      obtain rfl := link_unique hl hl' (htoken.trans (shareUnlockToken_inj k hvalue))
      exact hunlocked
    · exact absurd rfl (hown _)

theorem refuses_of_inactive {s' : Published} (hlinks : s.system.world.LinksContinue s'.system.world)
    {l : ShareLink} (hl : l ∈ s.links) {now : Nat} (hinactive : l.isActive now = false) :
    s'.Refuses k l now ∧ ∃ l' ∈ s'.links, l.Continues l' ∧ ∀ later, now ≤ later → l'.isActive later = false := by
  obtain ⟨l', hl', hcontinues⟩ := linksContinue_mem hlinks hl
  have hlater : ∀ later, now ≤ later → l'.isActive later = false := fun later hle =>
    ShareLink.continues_inactive hcontinues hle hinactive
  exact ⟨fun v htoken hnow => respond_inactive hl' (htoken.trans hcontinues.token.symm) (hlater _ hnow),
    l', hl', hcontinues, hlater⟩

end Published

/-- Protected links open for their password only, and links that have ended stay closed. -/
structure LinksGuarded (k : KeyedMac) (files : Bucket → String → Option Bytes) (events : List PublicEvent) :
    Prop where
  password : Runs.Along (Published.next k) (Published.OpensWithPassword k) (.initial files) events
  ended : ∀ before after, events = before ++ after →
    ∀ l ∈ (Runs.run (Published.next k) (.initial files) before).links, ∀ now, l.isActive now = false →
      (Runs.run (Published.next k) (.initial files) events).Refuses k l now ∧
        ∃ l' ∈ (Runs.run (Published.next k) (.initial files) events).links, l.Continues l' ∧
          ∀ later, now ≤ later → l'.isActive later = false

/-- Whatever clients ask for, in any order and between any changes. -/
theorem linksGuarded_run (k : KeyedMac) (files : Bucket → String → Option Bytes) (events : List PublicEvent)
    (h : Runs.Along (Published.next k) (Published.Feasible k) (.initial files) events) :
    LinksGuarded k files events := by
  constructor
  · refine Runs.along_of_invariant (I := Published.Justified k) (fun s e hs _ => Published.justified_next hs e)
      (fun s e hs hfeasible => Published.opensWithPassword_of_justified hs hfeasible) ?_ h
    intro value hseen
    cases hseen
  · rintro before after rfl l hl now hinactive
    rw [Runs.run_append]
    exact Published.refuses_of_inactive (Published.linksContinue_run _ after) hl hinactive

/-- HMAC-SHA256 with the key `key` of the two messages that occur below. -/
def exampleMac : KeyedMac where
  mac message :=
    if message = "share:first" then "454f7ef8e0f75e0b5f927583ffb6ef840924d6d9d7a6bd02ac769ad4d47e01cd"
    else if message = "share:second" then "6fed08b7f38b13e3f0eef4b4c1408d957fa7d566cfcd777b25769419ee40c4e5"
    else "key " ++ message
  injective := by
    have hother : ∀ message digest : String, digest.toList.head? ≠ some 'k' → "key " ++ message ≠ digest := by
      rintro message _ hhead rfl
      exact hhead (by simp [String.toList_append])
    intro a b h
    dsimp only at h
    split_ifs at h with ha hb hb ha' hb hb hb hb
    · exact ha.trans hb.symm
    · exact absurd h (by decide)
    · exact absurd h.symm (hother b _ (by decide))
    · exact absurd h (by decide)
    · exact ha'.trans hb.symm
    · exact absurd h.symm (hother b _ (by decide))
    · exact absurd h (hother a _ (by decide))
    · exact absurd h (hother a _ (by decide))
    · exact String.toList_inj.mp (by simpa [String.toList_append] using congrArg String.toList h)

/-- Alice shares her lease with two passwords. -/
def leaseShares : List Input := leaseDrafts ++ ([
  ⟨.offline 2 "first", .createLink 1 .documents true 24 "Alice" [1] (some "secret")⟩,
  ⟨.offline 3 "second", .createLink 1 .contract false 24 "Alice" [] (some "hidden")⟩] : List Input)

/-- A client is told the first password, tries the value it gets for the second link too, and keeps
it until the first link is revoked. -/
def leaseReview : List PublicEvent :=
  let visit (cookie : Option String) (request : PublicRequest) : PublicEvent :=
    .visit ⟨.offline 5 "", cookie, request⟩
  let value := exampleMac.mac "share:first"
  [visit none (.landing "first"), visit none (.unlock "first" "hidden"), visit none (.unlock "first" "secret"),
    visit (some value) (.landing "first"), visit (some value) (.raw "first" 1 1 true),
    visit (some value) (.landing "second"), .change (.call ⟨.offline 6 "", .revokeLink 1 1⟩),
    visit (some value) (.landing "first")]

theorem linksGuarded_leaseReview :
    let events := leaseShares.map (fun i => .change (.call i)) ++ leaseReview
    LinksGuarded exampleMac (fun _ _ => none) events ∧
      (Runs.run (Published.next exampleMac) (.initial fun _ _ => none) events).transcript.map
        (fun p => p.2.serves) = [false, false, false, true, true, false, false] := by
  intro events
  refine ⟨linksGuarded_run exampleMac _ events (Runs.along_append.mpr ⟨?_, ?_⟩), by decide +kernel⟩
  · refine Runs.along_iff.mpr fun before e after heq => ?_
    have he : e ∈ leaseShares.map fun i => PublicEvent.change (.call i) := heq ▸ List.mem_append_right _ List.mem_cons_self
    obtain ⟨_, _, rfl⟩ := List.mem_map.mp he
    trivial
  · have hnone : ∀ s env request, Published.Feasible exampleMac s (.visit ⟨env, none, request⟩) :=
      fun s env request value hvalue => (by cases hvalue)
    have hseen : ∀ s env request, exampleMac.mac "share:first" ∈ s.seen →
        Published.Feasible exampleMac s (.visit ⟨env, some (exampleMac.mac "share:first"), request⟩) :=
      fun s env request hmem value hvalue => Or.inl (Option.some.inj hvalue ▸ hmem)
    exact ⟨hnone _ _ _, hnone _ _ _, hnone _ _ _, hseen _ _ _ (by decide +kernel),
      hseen _ _ _ (by decide +kernel), hseen _ _ _ (by decide +kernel), trivial,
      hseen _ _ _ (by decide +kernel), trivial⟩

end Orchestract
