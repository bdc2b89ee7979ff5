import Orchestract.Web.SignIn

/-!
# Browsers

Browsers with their cookies send requests to the root routes while everything else goes on. Whom the
gate lets in is the user that the browser last proved to be, for as long as a session lasts; and what
the login gate looks up is never more than that.
-/

namespace Orchestract

set_option autoImplicit false

/-- The system, and the cookies of every browser. -/
structure Web where
  system : System
  jar : Nat → Cookies

inductive Web.Event where
  | request (browser : Nat) (env : Env) (remote : RemoteServices) (forwardedFor : String)
      (host userAgent : Option String) (route : RootRoute)
  | background (c : Change)
  | meddle (browser : Nat) (cookies : Cookies)

namespace Web

def sender (w : Web) (browser : Nat) (forwardedFor : String) (host userAgent : Option String) : Sender :=
  ⟨w.jar browser, forwardedFor, host, userAgent⟩

def next (w : Web) : Event → Web
  | .request browser env remote forwardedFor host userAgent route =>
    let p := answer env remote (w.sender browser forwardedFor host userAgent) route w.system
    ⟨p.2, Function.update w.jar browser ((w.jar browser).receive p.1.cookies)⟩
  | .background c => ⟨w.system.next c, w.jar⟩
  | .meddle browser cookies => ⟨w.system, Function.update w.jar browser cookies⟩

abbrev sessions (w : Web) : List UserSession := w.system.world.db.sessions.rows

/-- Random tokens are new, nothing else opens or ends sessions, and whoever changes the cookies of a
browser does not know the token of a session that is not its own. -/
def Allowed (w : Web) : Event → Prop
  | .request _ env .. => env.randomToken ≠ "" ∧ ∀ browser, (w.jar browser).session ≠ some env.randomToken
  | .background c => c.Quiet w.system
  | .meddle browser cookies => ∀ session ∈ w.sessions, cookies.session = some session.token →
      (w.jar browser).session = some session.token

/-- The reply puts a session into the browser. -/
def GivesSession (reply : Reply) : Prop :=
  ∃ token, ∀ cookies : Cookies, (cookies.receive reply.cookies).session = some token

/-- In this browser somebody proves to be the user, and is given a session that lasts until then. -/
def SignsIn (browser userId expiresAt : Nat) (w : Web) : Event → Prop
  | .request b env remote forwardedFor host userAgent route => b = browser ∧
    (∃ user, user.id = userId ∧ Proves env remote (w.sender b forwardedFor host userAgent) w.system route user) ∧
    GivesSession (answer env remote (w.sender b forwardedFor host userAgent) route w.system).1 ∧
    env.now + UserService.sessionTtl = expiresAt
  | _ => False

/-- The browser signs out, somebody else signs in there, or its cookie is changed. -/
def SignsOut (browser : Nat) (w : Web) : Event → Prop
  | .request b env remote forwardedFor host userAgent route => b = browser ∧ (route.endsSession = true ∨
    GivesSession (answer env remote (w.sender b forwardedFor host userAgent) route w.system).1)
  | .background _ => False
  | .meddle b cookies => b = browser ∧ cookies.session ≠ (w.jar browser).session

/-- The cookie of the browser is the token of a session of the user. -/
def SignedIn (browser userId expiresAt : Nat) (w : Web) : Prop :=
  ∃ session ∈ w.sessions, (w.jar browser).session = some session.token ∧ session.userId = userId ∧
    session.expiresAt = expiresAt

/-- No two browsers have the token of one session. -/
structure Private (w : Web) : Prop where
  ne : ∀ session ∈ w.sessions, session.token ≠ ""
  own : ∀ session ∈ w.sessions, ∀ b b', (w.jar b).session = some session.token →
    (w.jar b').session = some session.token → b = b'

/-- Before anything has happened; the browsers may have any cookies. -/
def initial (files : Bucket → String → Option Bytes) (jar : Nat → Cookies) : Web := ⟨.initial files, jar⟩

end Web

variable {env : Env} {remote : RemoteServices} {r : Sender} {s : System} {w : Web} {changes : List Change}
  {route : RootRoute}

/-! ## Sessions -/

theorem sessions_quiet {session : UserSession} (h : Runs.Along System.next Change.Quiet s changes) :
    session ∈ (Runs.run System.next s changes).world.db.sessions.rows ↔ session ∈ s.world.db.sessions.rows := by
  induction changes generalizing s with
  | nil => rfl
  | cons c changes ih =>
    obtain ⟨⟨hopens, hends⟩, hrest⟩ := h
    rw [Runs.run_cons, ih hrest, mem_sessions_next, hopens]
    simp [hends]

theorem opens_session {userId : Nat} {session : UserSession}
    (h : (Change.call ⟨env, .createSession userId⟩).opens s = some session) : session.userId = userId ∧
      session.token = env.randomToken ∧ session.expiresAt = env.now + UserService.sessionTtl := by
  simp only [Change.opens] at h
  cases hadd : UserService.createSession env userId s.world with
  | error e =>
    rw [hadd] at h
    cases h
  | ok p =>
    obtain ⟨new, w'⟩ := p
    rw [hadd] at h
    obtain rfl := Option.some.inj h
    obtain ⟨_, t, ht, _⟩ := (add_ok_iff _ new s.world w').mp hadd
    obtain ⟨hnew, _, _⟩ := Table.insert_eq_some ht
    rw [hnew]
    exact ⟨rfl, rfl, rfl⟩

/-- A request proves one user. -/
theorem proves_unique {user user' : User} (h : Proves env remote r s route user)
    (h' : Proves env remote r s route user') : user = user' := by
  cases h with
  | password h =>
    cases h' with
    | password h' => exact Except.ok.inj (h.symm.trans h')
  | verification h =>
    cases h' with
    | verification h' => exact (Prod.mk.inj (Except.ok.inj (h.symm.trans h'))).1
  | reset h =>
    cases h' with
    | reset h' => exact (Prod.mk.inj (Except.ok.inj (h.symm.trans h'))).1
  | google matched present exchanged h =>
    cases h' with
    | google _ _ exchanged' h' =>
      obtain rfl := Except.ok.inj (exchanged.symm.trans exchanged')
      exact (Prod.mk.inj (Except.ok.inj (h.symm.trans h'))).1

namespace Web

theorem not_gives_of_kept {reply : Reply}
    (h : ∀ cookies : Cookies, (cookies.receive reply.cookies).session = cookies.session) : ¬ GivesSession reply := by
  rintro ⟨token, hgiven⟩
  have hnone := (h ⟨none, none, none, none⟩).symm.trans (hgiven ⟨none, none, none, none⟩)
  cases hnone

theorem not_gives_of_dropped {reply : Reply}
    (h : ∀ cookies : Cookies, (cookies.receive reply.cookies).session = none) : ¬ GivesSession reply := by
  rintro ⟨token, hgiven⟩
  have hnone := (h ⟨none, none, none, none⟩).symm.trans (hgiven ⟨none, none, none, none⟩)
  cases hnone

/-- The reply to the request of a browser. -/
abbrev reply (w : Web) (b : Nat) (env : Env) (remote : RemoteServices) (forwardedFor : String)
    (host userAgent : Option String) (route : RootRoute) : Reply :=
  (answer env remote (w.sender b forwardedFor host userAgent) route w.system).1

/-- What a request does to the sessions and to the cookie of its browser. -/
inductive Turn (w w' : Web) (b : Nat) (env : Env) (proved : User → Prop) (reply : Reply) (ends : Prop) : Prop where
  | nothing (sessions : ∀ session, session ∈ w'.sessions ↔ session ∈ w.sessions)
      (cookie : (w'.jar b).session = (w.jar b).session) (gives : ¬ GivesSession reply) (going : ¬ ends)
  | ended (sessions : ∀ session, session ∈ w'.sessions ↔
        session ∈ w.sessions ∧ (w.jar b).session.bind Text.orNone ≠ some session.token)
      (cookie : (w'.jar b).session = none) (gives : ¬ GivesSession reply) (ending : ends)
  | given {user : User} {new : UserSession} (proof : proved user) (userId : new.userId = user.id)
      (token : new.token = env.randomToken) (expiresAt : new.expiresAt = env.now + UserService.sessionTtl)
      (sessions : ∀ session, session ∈ w'.sessions ↔ new = session ∨ session ∈ w.sessions)
      (cookie : (w'.jar b).session = some new.token) (gives : GivesSession reply)
  | lost {new : UserSession} (token : new.token = env.randomToken)
      (sessions : ∀ session, session ∈ w'.sessions ↔ new = session ∨ session ∈ w.sessions)
      (cookie : (w'.jar b).session = (w.jar b).session) (gives : ¬ GivesSession reply) (going : ¬ ends)

section

variable {b : Nat} {forwardedFor : String} {host userAgent : Option String}

theorem endsSession_of_proves {user : User} (h : Proves env remote r s route user) : route.endsSession = false := by
  cases h <;> rfl

theorem sessions_deleted {session : UserSession} (token : Option String) :
    session ∈ (Runs.run System.next s (token.toList.map .deleteSession)).world.db.sessions.rows ↔
      session ∈ s.world.db.sessions.rows ∧ token ≠ some session.token := by
  cases token with
  | none => simp
  | some token =>
    change session ∈ (s.next (.deleteSession token)).world.db.sessions.rows ↔ _
    rw [mem_sessions_next]
    simp [Change.opens]

theorem jar_other {b' : Nat} (h : b' ≠ b) :
    (w.next (.request b env remote forwardedFor host userAgent route)).jar b' = w.jar b' := by
  simp [next, h]

theorem turn (w : Web) (b : Nat) (env : Env) (remote : RemoteServices) (forwardedFor : String)
    (host userAgent : Option String) (route : RootRoute) :
    Turn w (w.next (.request b env remote forwardedFor host userAgent route)) b env
    (Proves env remote (w.sender b forwardedFor host userAgent) w.system route)
    (w.reply b env remote forwardedFor host userAgent route) (route.endsSession = true) := by
  have heffect := answer_effect env remote (w.sender b forwardedFor host userAgent) route w.system
  have hcookie : ((w.next (.request b env remote forwardedFor host userAgent route)).jar b).session =
      ((w.jar b).receive (w.reply b env remote forwardedFor host userAgent route).cookies).session := by
    simp [next]
  have hsystem : (w.next (.request b env remote forwardedFor host userAgent route)).system =
      (answer env remote (w.sender b forwardedFor host userAgent) route w.system).2 := rfl
  unfold reply at *
  generalize answer env remote (w.sender b forwardedFor host userAgent) route w.system = p at *
  cases heffect with
  | quiet quiet going kept =>
    refine .nothing (fun session => ?_) (hcookie.trans (kept _)) (not_gives_of_kept kept) (by simp [going])
    rw [sessions, hsystem]
    exact sessions_quiet quiet
  | ended ending deleted dropped =>
    refine .ended (fun session => ?_) (hcookie.trans (dropped _)) (not_gives_of_dropped dropped) ending
    rw [sessions, hsystem, deleted]
    exact sessions_deleted _
  | signedIn proof quiet opened given =>
    obtain ⟨huser, htoken, hexpires⟩ := opens_session opened
    refine .given proof huser htoken hexpires (fun session => ?_) (hcookie.trans (given _)) ⟨_, given⟩
    rw [sessions, hsystem, Runs.run_append, Runs.run_cons, Runs.run_nil, mem_sessions_next, opened,
      sessions_quiet quiet]
    simp
  | lost proof quiet opened kept =>
    obtain ⟨_, htoken, _⟩ := opens_session opened
    refine .lost htoken (fun session => ?_) (hcookie.trans (kept _)) (not_gives_of_kept kept)
      (by simp [endsSession_of_proves proof])
    rw [sessions, hsystem, Runs.run_append, Runs.run_cons, Runs.run_nil, mem_sessions_next, opened,
      sessions_quiet quiet]
    simp

/-- What a request adds is under the new token, which its own browser alone may have. -/
theorem turn_adds (hfresh : ∀ browser, (w.jar browser).session ≠ some env.randomToken) {w' : Web}
    {proved : User → Prop} {reply : Reply} {ends : Prop} (h : Turn w w' b env proved reply ends)
    (hother : ∀ b', b' ≠ b → w'.jar b' = w.jar b') :
    (∀ session ∈ w'.sessions, session.token ≠ env.randomToken → session ∈ w.sessions) ∧
      (∀ b' token, token ≠ env.randomToken → (w'.jar b').session = some token → (w.jar b').session = some token) ∧
      ∀ b', (w'.jar b').session = some env.randomToken → b' = b := by
  have hown : ∀ b', (w'.jar b').session = some env.randomToken → b' = b := by
    intro b' hcookie
    by_contra hne
    rw [hother b' hne] at hcookie
    exact hfresh b' hcookie
  have hcookies : (∀ token, token ≠ env.randomToken → (w'.jar b).session = some token →
      (w.jar b).session = some token) → ∀ b' token, token ≠ env.randomToken →
      (w'.jar b').session = some token → (w.jar b').session = some token := by
    intro hb b' token hne hcookie
    by_cases heq : b' = b
    · subst heq
      exact hb token hne hcookie
    · rwa [hother b' heq] at hcookie
  cases h with
  | nothing sessions cookie =>
    exact ⟨fun session hmem _ => (sessions session).mp hmem, hcookies fun _ _ h => cookie ▸ h, hown⟩
  | ended sessions cookie =>
    refine ⟨fun session hmem _ => ((sessions session).mp hmem).1, hcookies fun _ _ h => ?_, hown⟩
    rw [cookie] at h
    cases h
  | given _ _ token _ sessions cookie =>
    refine ⟨fun session hmem hne => ?_, hcookies fun _ hne h => ?_, hown⟩
    · rcases (sessions session).mp hmem with rfl | hmem
      · exact absurd token hne
      · exact hmem
    · rw [cookie, token] at h
      exact absurd (Option.some.inj h).symm hne
  | lost token sessions cookie =>
    refine ⟨fun session hmem hne => ?_, hcookies fun _ _ h => cookie ▸ h, hown⟩
    rcases (sessions session).mp hmem with rfl | hmem
    · exact absurd token hne
    · exact hmem

end

/-! ## What every event keeps -/

variable {event : Event}

theorem sessions_background {c : Change} {session : UserSession} (h : c.Quiet w.system) :
    session ∈ (w.next (.background c)).sessions ↔ session ∈ w.sessions :=
  sessions_quiet (along_single h)

theorem private_next (hw : w.Private) (h : w.Allowed event) : (w.next event).Private := by
  cases event with
  | background c =>
    constructor
    · exact fun session hmem => hw.ne session ((sessions_background h).mp hmem)
    · exact fun session hmem => hw.own session ((sessions_background h).mp hmem)
  | meddle b cookies =>
    refine ⟨hw.ne, fun session hmem b₁ b₂ h₁ h₂ => ?_⟩
    have hbefore : ∀ b', ((w.next (.meddle b cookies)).jar b').session = some session.token →
        (w.jar b').session = some session.token := by
      intro b' hb'
      by_cases heq : b' = b
      · subst heq
        exact h session hmem (by simpa [next] using hb')
      · simpa [next, heq] using hb'
    exact hw.own session hmem b₁ b₂ (hbefore b₁ h₁) (hbefore b₂ h₂)
  | request b env remote forwardedFor host userAgent route =>
    obtain ⟨hne, hfresh⟩ := h
    obtain ⟨hold, hcookies, hown⟩ := turn_adds hfresh
      (turn w b env remote forwardedFor host userAgent route) fun _ => jar_other
    refine ⟨fun session hmem => ?_, fun session hmem b₁ b₂ h₁ h₂ => ?_⟩
    · by_cases heq : session.token = env.randomToken
      · rw [heq]
        exact hne
      · exact hw.ne session (hold session hmem heq)
    · by_cases heq : session.token = env.randomToken
      · rw [heq] at h₁ h₂
        rw [hown b₁ h₁, hown b₂ h₂]
      · exact hw.own session (hold session hmem heq) b₁ b₂ (hcookies _ _ heq h₁) (hcookies _ _ heq h₂)

/-- The other browsers are signed in as before. -/
theorem signedIn_other {w' : Web} {b browser userId expiresAt : Nat} {proved : User → Prop} {reply : Reply}
    {ends : Prop} (hw : w.Private) (hfresh : ∀ browser, (w.jar browser).session ≠ some env.randomToken)
    (h : Turn w w' b env proved reply ends) (hother : ∀ b', b' ≠ b → w'.jar b' = w.jar b') (hne : b ≠ browser) :
    SignedIn browser userId expiresAt w' ↔ SignedIn browser userId expiresAt w := by
  have hjar : w'.jar browser = w.jar browser := hother browser (Ne.symm hne)
  constructor
  · rintro ⟨session, hmem, hcookie, hrest⟩
    rw [hjar] at hcookie
    have htoken : session.token ≠ env.randomToken := fun heq => hfresh browser (heq ▸ hcookie)
    exact ⟨session, (turn_adds hfresh h hother).1 session hmem htoken, hcookie, hrest⟩
  · rintro ⟨session, hmem, hcookie, hrest⟩
    refine ⟨session, ?_, hjar ▸ hcookie, hrest⟩
    cases h with
    | nothing sessions => exact (sessions session).mpr hmem
    | ended sessions =>
      refine (sessions session).mpr ⟨hmem, fun hb => ?_⟩
      obtain ⟨token, hjarb, htoken⟩ := Option.bind_eq_some_iff.mp hb
      obtain ⟨rfl, _⟩ := orNone_eq_some htoken
      exact hne (hw.own session hmem b browser hjarb hcookie)
    | given _ _ _ _ sessions => exact (sessions session).mpr (Or.inr hmem)
    | lost _ sessions => exact (sessions session).mpr (Or.inr hmem)

/-- The browser of a request. -/
theorem signedIn_turn {b userId expiresAt : Nat} {remote : RemoteServices} {forwardedFor : String}
    {host userAgent : Option String} {route : RootRoute}
    (hfresh : ∀ browser, (w.jar browser).session ≠ some env.randomToken)
    (h : Turn w (w.next (.request b env remote forwardedFor host userAgent route)) b env
      (Proves env remote (w.sender b forwardedFor host userAgent) w.system route)
      (w.reply b env remote forwardedFor host userAgent route) (route.endsSession = true)) :
    SignedIn b userId expiresAt (w.next (.request b env remote forwardedFor host userAgent route)) ↔
      SignsIn b userId expiresAt w (.request b env remote forwardedFor host userAgent route) ∨
      SignedIn b userId expiresAt w ∧ ¬ SignsOut b w (.request b env remote forwardedFor host userAgent route) := by
  cases h with
  | nothing sessions cookie gives going =>
    have hsame : SignedIn b userId expiresAt (w.next (.request b env remote forwardedFor host userAgent route)) ↔
        SignedIn b userId expiresAt w := by
      unfold SignedIn
      simp only [sessions, cookie]
    rw [hsame]
    simp [SignsIn, SignsOut, gives, going]
  | ended sessions cookie gives ending =>
    constructor
    · rintro ⟨session, _, hcookie, _⟩
      rw [cookie] at hcookie
      cases hcookie
    · rintro (hin | ⟨_, hout⟩)
      · exact absurd hin.2.2.1 gives
      · exact absurd ⟨rfl, Or.inl ending⟩ hout
  | @given user new proof huser token expires sessions cookie gives =>
    constructor
    · rintro ⟨session, hmem, hcookie, hu, he⟩
      have heq : session = new := by
        rw [cookie] at hcookie
        exact session_eq ((sessions new).mpr (Or.inl rfl)) hmem (Option.some.inj hcookie).symm
      rw [heq] at hu he
      exact Or.inl ⟨rfl, ⟨user, huser.symm.trans hu, proof⟩, gives, expires.symm.trans he⟩
    · rintro (⟨_, ⟨user', hid, hproof⟩, _, hexpires⟩ | ⟨_, hout⟩)
      · obtain rfl := proves_unique proof hproof
        exact ⟨new, (sessions new).mpr (Or.inl rfl), cookie, huser.trans hid, expires.trans hexpires⟩
      · exact absurd ⟨rfl, Or.inr gives⟩ hout
  | @lost new token sessions cookie gives going =>
    have hsame : SignedIn b userId expiresAt (w.next (.request b env remote forwardedFor host userAgent route)) ↔
        SignedIn b userId expiresAt w := by
      constructor
      · rintro ⟨session, hmem, hcookie, hrest⟩
        rw [cookie] at hcookie
        rcases (sessions session).mp hmem with rfl | hmem
        · exact absurd (token ▸ hcookie) (hfresh b)
        · exact ⟨session, hmem, hcookie, hrest⟩
      · rintro ⟨session, hmem, hcookie, hrest⟩
        exact ⟨session, (sessions session).mpr (Or.inr hmem), cookie.trans hcookie, hrest⟩
    rw [hsame]
    simp [SignsIn, SignsOut, gives, going]

/-- The user of a browser is the one that has just signed in there, or it is still the same. -/
theorem signedIn_next {browser userId expiresAt : Nat} (hw : w.Private) (h : w.Allowed event) :
    SignedIn browser userId expiresAt (w.next event) ↔ SignsIn browser userId expiresAt w event ∨
      SignedIn browser userId expiresAt w ∧ ¬ SignsOut browser w event := by
  cases event with
  | background c =>
    have hsame : SignedIn browser userId expiresAt (w.next (.background c)) ↔ SignedIn browser userId expiresAt w :=
      exists_congr fun session => and_congr_left fun _ => sessions_background h
    rw [hsame]
    simp [SignsIn, SignsOut]
  | meddle b cookies =>
    by_cases heq : b = browser
    · subst heq
      constructor
      · rintro ⟨session, hmem, hcookie, hrest⟩
        have hjar : cookies.session = some session.token := by simpa [next] using hcookie
        have hbefore := h session hmem hjar
        exact Or.inr ⟨⟨session, hmem, hbefore, hrest⟩, fun hout => hout.2 (hjar.trans hbefore.symm)⟩
      · rintro (hin | ⟨⟨session, hmem, hcookie, hrest⟩, hout⟩)
        · exact hin.elim
        · have hjar : cookies.session = (w.jar b).session := by
            by_contra hne
            exact hout ⟨rfl, hne⟩
          exact ⟨session, hmem, by simpa [next, hjar] using hcookie, hrest⟩
    · have hjar : (w.next (.meddle b cookies)).jar browser = w.jar browser := by simp [next, Ne.symm heq]
      unfold SignedIn
      rw [hjar]
      simp [SignsIn, SignsOut, heq, next]
  | request b env remote forwardedFor host userAgent route =>
    have hturn := turn w b env remote forwardedFor host userAgent route
    by_cases heq : b = browser
    · subst heq
      exact signedIn_turn h.2 hturn
    · rw [signedIn_other hw h.2 hturn (fun _ => jar_other) heq]
      simp [SignsIn, SignsOut, heq]

variable {files : Bucket → String → Option Bytes} {jar : Nat → Cookies} {events : List Event}

theorem private_initial : (initial files jar).Private := ⟨nofun, nofun⟩

/-- After any run a browser is signed in as whom it has last proved to be, unless it has signed out. -/
theorem signedIn_iff {browser userId expiresAt : Nat} (h : Runs.Along next Allowed (initial files jar) events) :
    SignedIn browser userId expiresAt (Runs.run next (initial files jar) events) ↔
      Runs.Since next (SignsIn browser userId expiresAt) (SignsOut browser) (initial files jar) events :=
  Runs.flag_iff (fun _ _ => private_next) (fun _ _ => signedIn_next) private_initial nofun h

/-- The request to an organization that a browser sends. -/
def browse (w : Web) (browser : Nat) (r : Request) : Request := { r with sessionToken := (w.jar browser).session }

/-- After any run the gate of an organization lets a browser in as an active member of it that has signed
in there less than the lifetime of a session ago, has not signed out since, and has accepted the terms. -/
theorem dependencies_browse_iff {browser : Nat} {env : Env} {r : Request} {v : Viewer}
    (h : Runs.Along next Allowed (initial files jar) events) :
    dependencies env ((Runs.run next (initial files jar) events).browse browser r)
        (Runs.run next (initial files jar) events).system.world = .ok v ↔
      Admitted env r (Runs.run next (initial files jar) events).system.world v ∧
      (∃ expiresAt, env.now < expiresAt ∧
        Runs.Since next (SignsIn browser v.user.id expiresAt) (SignsOut browser) (initial files jar) events) ∧
      ∃ a ∈ (Runs.run next (initial files jar) events).system.world.db.acceptances.rows,
        a.userId = v.user.id ∧ a.version = currentTermsVersion := by
  have hprivate : (Runs.run next (initial files jar) events).Private :=
    Runs.run_invariant_along (fun _ _ => private_next) private_initial h
  generalize hw : Runs.run next (initial files jar) events = w at *
  rw [dependencies_ok_iff]
  have hadmitted : Admitted env (w.browse browser r) w.system.world v ↔ Admitted env r w.system.world v :=
    ⟨fun h => ⟨h.organization, h.slug, h.user, h.member, h.active, h.role⟩,
      fun h => ⟨h.organization, h.slug, h.user, h.member, h.active, h.role⟩⟩
  rw [hadmitted]
  refine and_congr_right fun hadmitted => and_congr_left fun _ => ?_
  constructor
  · rintro ⟨session, hmem, hcookie, _, hnow, hget⟩
    refine ⟨session.expiresAt, hnow, (signedIn_iff h).mp ?_⟩
    rw [hw]
    exact ⟨session, hmem, hcookie, (Table.get_eq_some_iff.mp hget).2.symm, rfl⟩
  · rintro ⟨expiresAt, hnow, hsince⟩
    have hsigned := (signedIn_iff h).mpr hsince
    rw [hw] at hsigned
    obtain ⟨session, hmem, hcookie, huser, rfl⟩ := hsigned
    exact ⟨session, hmem, hcookie, hprivate.ne session hmem, hnow,
      Table.get_eq_some_iff.mpr ⟨hadmitted.user, huser.symm⟩⟩

end Web

/-! ## The state of a sign-in with Google -/

/-- Only the replies are looked at. -/
abbrev Replies (m : SystemAction Reply) (Q : Reply → Prop) : Prop := Program.Ensures (fun _ => True) m Q

section

variable {α : Type} {Q : Reply → Prop}

theorem replies_bind {m : SystemAction α} {f : α → SystemAction Reply} (h : ∀ a, Replies (f a) Q) :
    Replies (m >>= f) Q :=
  Program.ensures_bind (Q := fun _ => True) (fun _ _ => ⟨trivial, fun _ _ => trivial⟩) fun a _ => h a

theorem replies_pure {reply : Reply} (h : Q reply) : Replies (pure reply) Q := Program.ensures_pure h

theorem replies_throw (e : Failure) : Replies (throw e) Q := fun _ _ => ⟨trivial, nofun⟩

def KeepsState (reply : Reply) : Prop :=
  ∀ cookies : Cookies, (cookies.receive reply.cookies).oauthState = cookies.oauthState

theorem replies_homeOf (user : User) : Replies (RootRoutes.homeOf user) KeepsState :=
  replies_bind fun _ => replies_pure fun _ => rfl

theorem replies_signIn (user : User) (redirectTo : Organization → String) :
    Replies (RootRoutes.signIn env user redirectTo) KeepsState :=
  replies_bind fun _ => replies_bind fun _ => replies_pure fun _ => rfl

/-- The other routes leave the state alone. -/
theorem replies_other (hlogin : ∀ next, route ≠ .googleLogin next)
    (hcallback : ∀ code state error, route ≠ .googleCallback code state error) :
    Replies (route.handle env remote r) KeepsState := by
  cases route with
  | googleLogin next => exact absurd rfl (hlogin next)
  | googleCallback code state error => exact absurd rfl (hcallback code state error)
  | pricingPage | loginPage next error | signupPage plan | forgotPasswordPage | resetPasswordPage token =>
    exact replies_pure fun _ => rfl
  | index =>
    refine replies_bind fun found => ?_
    cases found with
    | some user => exact replies_homeOf user
    | none => exact replies_pure fun _ => rfl
  | termsPage =>
    refine replies_bind fun found => ?_
    cases found with
    | some user => exact replies_bind fun _ => replies_pure fun _ => rfl
    | none => exact replies_pure fun _ => rfl
  | termsReview =>
    refine replies_bind fun found => ?_
    cases found with
    | none => exact replies_pure fun _ => rfl
    | some user =>
      refine replies_bind fun accepted => ?_
      cases accepted with
      | true => exact replies_homeOf user
      | false => exact replies_pure fun _ => rfl
  | termsAccept =>
    refine replies_bind fun found => ?_
    cases found with
    | none => exact replies_pure fun _ => rfl
    | some user => exact replies_bind fun _ => replies_homeOf user
  | termsDecline | logout | resendVerification email | forgotPasswordSubmit email =>
    exact replies_bind fun _ => replies_pure fun _ => rfl
  | setLanguage lang next =>
    refine replies_bind fun found => ?_
    cases found with
    | none => exact replies_pure fun _ => rfl
    | some user => exact replies_bind fun _ => replies_pure fun _ => rfl
  | loginSubmit email password next =>
    refine replies_bind fun result => ?_
    cases result with
    | error e => exact replies_pure fun _ => rfl
    | ok user => exact replies_signIn user _
  | signupSubmit organizationName userName email password acceptTerms plan =>
    change Replies (if acceptTerms = "" then _ else _) _
    split
    · exact replies_pure fun _ => rfl
    · refine replies_bind fun result => ?_
      cases result with
      | error e => exact replies_pure fun _ => rfl
      | ok a => exact replies_pure fun _ => rfl
  | verifyEmail token plan | resetPasswordSubmit token newPassword =>
    refine replies_bind fun result => ?_
    cases result with
    | error e => exact replies_pure fun _ => rfl
    | ok user => exact replies_signIn user _
  | oauthCallback code state =>
    refine replies_bind fun parsed => ?_
    obtain ⟨organizationId, provider⟩ := parsed
    cases organizationId with
    | negSucc _ => exact replies_throw _
    | ofNat organizationId => exact replies_bind fun _ => replies_bind fun _ => replies_pure fun _ => rfl

/-- A start sets the state, where Google is configured. -/
theorem replies_googleLogin {next : String} :
    Replies (RootRoute.handle env remote r (.googleLogin next)) fun reply => ∀ cookies : Cookies,
      (cookies.receive reply.cookies).oauthState = if remote.google.enabled then some env.randomToken
        else cookies.oauthState := by
  change Replies (RootRoutes.googleLogin env remote.google next) _
  unfold RootRoutes.googleLogin
  split
  · exact replies_pure fun _ => rfl
  · exact replies_pure fun _ => rfl

/-- A return of the browser uses the state up. -/
theorem replies_googleCallback {code state error : String} :
    Replies (RootRoute.handle env remote r (.googleCallback code state error)) fun reply => ∀ cookies : Cookies,
      (cookies.receive reply.cookies).oauthState = none := by
  change Replies (RootRoutes.googleCallback env remote.google r code state error) _
  unfold RootRoutes.googleCallback
  split
  · exact replies_pure fun _ => rfl
  · refine replies_bind fun matched => ?_
    split
    · exact replies_pure fun _ => rfl
    · split
      · exact replies_throw _
      · exact replies_pure fun _ => rfl
      · refine replies_bind fun result => ?_
        cases result with
        | error e => exact replies_pure fun _ => rfl
        | ok user =>
          refine replies_bind fun reply => replies_pure fun cookies => ?_
          simp [Cookies.receive, Reply.setting, Cookies.set]

end

namespace Web

variable {event : Event}

/-- The browser is given the state for a sign-in with Google. -/
def Starts (browser : Nat) (state : String) (_ : Web) : Event → Prop
  | .request b env remote _ _ _ route => b = browser ∧ env.randomToken = state ∧
    remote.google.enabled = true ∧ ∃ next, route = .googleLogin next
  | _ => False

/-- The state of the browser is used up, replaced or lost. -/
def Finishes (browser : Nat) (w : Web) : Event → Prop
  | .request b env remote forwardedFor host userAgent route => b = browser ∧
    ((remote.google.enabled = true ∧ ∃ next, route = .googleLogin next) ∨
      ((∃ code state error, route = .googleCallback code state error) ∧
        ∃ reply, (route.handle env remote (w.sender b forwardedFor host userAgent) w.system).1 = .ok reply))
  | .background _ => False
  | .meddle b cookies => b = browser ∧ cookies.oauthState ≠ (w.jar b).oauthState

/-- Nobody but the application sets a state. -/
def KeepsStates (w : Web) : Event → Prop
  | .meddle b cookies => cookies.oauthState = none ∨ cookies.oauthState = (w.jar b).oauthState
  | _ => True

theorem receive_reply {Q : Cookies → Option String} {b : Nat} {forwardedFor : String}
    {host userAgent : Option String} (h : Replies (route.handle env remote (w.sender b forwardedFor host userAgent))
      fun reply => ∀ cookies : Cookies, (cookies.receive reply.cookies).oauthState = Q cookies) :
    ((w.next (.request b env remote forwardedFor host userAgent route)).jar b).oauthState =
      match (route.handle env remote (w.sender b forwardedFor host userAgent) w.system).1 with
      | .ok _ => Q (w.jar b)
      | .error _ => (w.jar b).oauthState := by
  have hreply := (h w.system trivial).2
  have hcookie : ((w.next (.request b env remote forwardedFor host userAgent route)).jar b).oauthState =
      ((w.jar b).receive (w.reply b env remote forwardedFor host userAgent route).cookies).oauthState := by
    simp [next]
  rw [hcookie]
  unfold reply answer
  cases hresult : (route.handle env remote (w.sender b forwardedFor host userAgent) w.system).1 with
  | ok given => exact hreply given hresult _
  | error e => cases e <;> rfl

theorem googleLogin_ok (env : Env) (google : GoogleSettings) (next : String) (s : System) :
    ∃ reply, (RootRoutes.googleLogin env google next s).1 = .ok reply := by
  unfold RootRoutes.googleLogin
  split
  · exact ⟨_, rfl⟩
  · exact ⟨_, rfl⟩

/-- The browser of a request. -/
theorem oauthState_turn {b : Nat} {state forwardedFor : String} {host userAgent : Option String} :
    ((w.next (.request b env remote forwardedFor host userAgent route)).jar b).oauthState = some state ↔
      Starts b state w (.request b env remote forwardedFor host userAgent route) ∨
      (w.jar b).oauthState = some state ∧
        ¬ Finishes b w (.request b env remote forwardedFor host userAgent route) := by
  by_cases hlogin : ∃ path, route = .googleLogin path
  · obtain ⟨path, rfl⟩ := hlogin
    rw [receive_reply replies_googleLogin]
    obtain ⟨reply, hreply⟩ := googleLogin_ok env remote.google path w.system
    have hhandle : (RootRoute.handle env remote (w.sender b forwardedFor host userAgent) (.googleLogin path)
      w.system).1 = .ok reply := hreply
    rw [hhandle]
    by_cases henabled : remote.google.enabled = true
    · simp [Starts, Finishes, henabled]
    · simp [Starts, Finishes, henabled]
  · by_cases hcallback : ∃ code given error, route = .googleCallback code given error
    · obtain ⟨code, given, error, rfl⟩ := hcallback
      rw [receive_reply (Q := fun _ => none) replies_googleCallback]
      cases hresult : (RootRoute.handle env remote (w.sender b forwardedFor host userAgent)
        (.googleCallback code given error) w.system).1 with
      | ok reply => simp [Starts, Finishes, hresult]
      | error e => simp [Starts, Finishes, hresult]
    · have hother : ((w.next (.request b env remote forwardedFor host userAgent route)).jar b).oauthState =
          (w.jar b).oauthState := by
        rw [receive_reply (Q := Cookies.oauthState) (replies_other (fun path h => hlogin ⟨path, h⟩)
          fun code given error h => hcallback ⟨code, given, error, h⟩)]
        cases (route.handle env remote (w.sender b forwardedFor host userAgent) w.system).1 <;> rfl
      have hstarts : ¬ Starts b state w (.request b env remote forwardedFor host userAgent route) :=
        fun h => hlogin h.2.2.2
      have hfinishes : ¬ Finishes b w (.request b env remote forwardedFor host userAgent route) := by
        rintro ⟨_, ⟨_, h⟩ | ⟨h, _⟩⟩
        · exact hlogin h
        · exact hcallback h
      rw [hother]
      simp [hstarts, hfinishes]

theorem oauthState_next {browser : Nat} {state : String} (h : w.KeepsStates event) :
    ((w.next event).jar browser).oauthState = some state ↔ Starts browser state w event ∨
      (w.jar browser).oauthState = some state ∧ ¬ Finishes browser w event := by
  cases event with
  | background c => simp [Starts, Finishes, next]
  | meddle b cookies =>
    by_cases heq : b = browser
    · subst heq
      have hjar : ((w.next (.meddle b cookies)).jar b).oauthState = cookies.oauthState := by simp [next]
      rw [hjar]
      simp only [Starts, Finishes, true_and, false_or, not_not]
      rcases h with hnone | hsame
      · rw [hnone]
        constructor
        · nofun
        · rintro ⟨hstate, hsame⟩
          exact hsame.trans hstate
      · simp [hsame]
    · have hjar : (w.next (.meddle b cookies)).jar browser = w.jar browser := by simp [next, Ne.symm heq]
      simp [hjar, Starts, Finishes, heq]
  | request b env remote forwardedFor host userAgent route =>
    by_cases heq : b = browser
    · subst heq
      exact oauthState_turn
    · rw [jar_other (Ne.symm heq)]
      simp [Starts, Finishes, heq]

variable {files : Bucket → String → Option Bytes} {jar : Nat → Cookies} {events : List Event}

/-- A sign-in with Google ends in the browser in which it has started, with the state given there, and
no more than once. -/
theorem google_started {browser : Nat} {forwardedFor code state error : String} {host userAgent : Option String}
    {user : User} (hjar : ∀ b, (jar b).oauthState = none)
    (h : Runs.Along next KeepsStates (initial files jar) events)
    (hproves : Proves env remote ((Runs.run next (initial files jar) events).sender browser forwardedFor host userAgent)
      (Runs.run next (initial files jar) events).system (.googleCallback code state error) user) :
    Runs.Since next (Starts browser state) (Finishes browser) (initial files jar) events := by
  have hflag : ((Runs.run next (initial files jar) events).jar browser).oauthState = some state ↔ _ :=
    Runs.flag_iff (I := fun _ => True) (P := fun w : Web => (w.jar browser).oauthState = some state)
      (fun _ _ _ _ => trivial) (fun _ _ _ => oauthState_next) trivial (by simp [initial, hjar]) h
  apply hflag.mp
  cases hproves with
  | google matched => exact matched

end Web

/-! ## Alice signs in with Google -/

def noCookies : Cookies := ⟨none, none, none, none⟩

/-- Google knows Alice under every code. -/
def googleOfAlice : RemoteServices where
  google := ⟨"client", "secret", "http://localhost", fun _ => .ok ⟨some "g-1", some "alice@acme.test", true,
    some "Alice", none⟩⟩
  tokens _ _ := none

def noWeb : Web := .initial (fun _ _ => none) fun _ => noCookies

def aliceStarts : Web.Event := .request 0 (.offline 1 "state") googleOfAlice "" none none (.googleLogin "/")

def aliceReturns : Web.Event :=
  .request 0 (.offline 2 "token") googleOfAlice "" none none (.googleCallback "code" "state" "")

/-- Alice asks for her dashboard. -/
def aliceDashboard : Request := ⟨"alice-s-workspace", "/alice-s-workspace/", none, .get .dashboard⟩

theorem ok_of_toOption {ε α : Type} {x : Except ε α} {a : α} (h : x.toOption = some a) : x = .ok a := by
  cases x with
  | ok b => exact congrArg Except.ok (Option.some.inj h)
  | error e => cases h

namespace Web

theorem google_started_alice : Runs.Since next (Starts 0 "state") (Finishes 0) noWeb [aliceStarts] := by
  have hlogin : ((SocialAuthService.loginOrRegisterGoogle (.offline 2 "token")
      ⟨"g-1", "alice@acme.test", true, "Alice", none⟩ currentTermsVersion none none
      (Runs.run next noWeb [aliceStarts]).system.world).toOption.map fun p => p.1.id) = some 1 := by decide +kernel
  obtain ⟨⟨user, w'⟩, hsome, _⟩ := Option.map_eq_some_iff.mp hlogin
  have hproves : Proves (.offline 2 "token") googleOfAlice
      ((Runs.run next noWeb [aliceStarts]).sender 0 "" none none) (Runs.run next noWeb [aliceStarts]).system
      (.googleCallback "code" "state" "") user := .google rfl (by decide) rfl (ok_of_toOption hsome)
  exact google_started (fun _ => rfl) ⟨trivial, trivial⟩ hproves

theorem dependencies_browse_alice : ∃ expiresAt, 3 < expiresAt ∧
    Runs.Since next (SignsIn 0 1 expiresAt) (SignsOut 0) noWeb [aliceStarts, aliceReturns] := by
  have hallowed : Runs.Along next Allowed noWeb [aliceStarts, aliceReturns] := by
    refine ⟨⟨by decide, fun _ => nofun⟩, ⟨by decide, fun browser => ?_⟩, trivial⟩
    by_cases h : browser = 0
    · subst h
      decide +kernel
    · rw [aliceStarts, jar_other h]
      nofun
  have hserved : ((dependencies (.offline 3 "") ((Runs.run next noWeb [aliceStarts, aliceReturns]).browse 0
      aliceDashboard) (Runs.run next noWeb [aliceStarts, aliceReturns]).system.world).toOption.map
        fun v => v.user.id) = some 1 := by decide +kernel
  obtain ⟨v, hsome, huser⟩ := Option.map_eq_some_iff.mp hserved
  obtain ⟨_, hsigned, _⟩ := (dependencies_browse_iff hallowed).mp (ok_of_toOption hsome)
  rw [huser] at hsigned
  exact hsigned

end Web

end Orchestract
