import Orchestract.Accounts.Sessions
import Orchestract.Web.RootRoutes

/-!
# What a request to the root routes does

A request changes the system by a run of changes, and opens or ends a session or does neither. A
session is opened only for whom the request proves to be.
-/

namespace Orchestract

set_option autoImplicit false

/-- What the browser keeps of the cookies after a reply. -/
def Cookies.receive (cookies : Cookies) (set : List SetCookie) : Cookies := set.foldl Cookies.set cookies

/-- A change that neither opens nor ends a session. -/
def Change.Quiet (s : System) (c : Change) : Prop := c.opens s = none ∧ ∀ token, c ≠ .deleteSession token

/-- What a request presents for the user that it signs in: the password, a link that was mailed, or an
identity that Google confirms in the browser that has asked for it. -/
inductive Proves (env : Env) (remote : RemoteServices) (r : Sender) (s : System) : RootRoute → User → Prop
  | password {email password next : String} {user : User}
      (h : UserService.authenticate env email password s.world = .ok user) :
      Proves env remote r s (.loginSubmit email password next) user
  | verification {token plan : String} {user : User} {s' : System}
      (h : Accounts.verifyEmail env token s = .ok (user, s')) :
      Proves env remote r s (.verifyEmail token plan) user
  | reset {token newPassword : String} {user : User} {s' : System}
      (h : Accounts.resetPassword env token newPassword s = .ok (user, s')) :
      Proves env remote r s (.resetPasswordSubmit token newPassword) user
  | google {code state error : String} {identity : GoogleIdentity} {user : User} {w' : World}
      (matched : r.cookies.oauthState = some state) (present : state ≠ "")
      (exchanged : remote.google.exchange code >>= GoogleOAuth.identity = .ok identity)
      (h : SocialAuthService.loginOrRegisterGoogle env identity currentTermsVersion r.ipAddress r.userAgent
        s.world = .ok (user, w')) :
      Proves env remote r s (.googleCallback code state error) user

def RootRoute.endsSession : RootRoute → Bool
  | .logout | .termsDecline => true
  | _ => false

/-- The changes of a request, and what becomes of the session in the browser. -/
inductive Effect (env : Env) (remote : RemoteServices) (r : Sender) (route : RootRoute) (s : System) :
    Reply × System → Prop
  | quiet {reply : Reply} {changes : List Change} (quiet : Runs.Along System.next Change.Quiet s changes)
      (going : route.endsSession = false)
      (kept : ∀ cookies : Cookies, (cookies.receive reply.cookies).session = cookies.session) :
      Effect env remote r route s (reply, Runs.run System.next s changes)
  | ended {reply : Reply} {changes : List Change} (ending : route.endsSession = true)
      (deleted : changes = (r.cookies.session.bind Text.orNone).toList.map .deleteSession)
      (dropped : ∀ cookies : Cookies, (cookies.receive reply.cookies).session = none) :
      Effect env remote r route s (reply, Runs.run System.next s changes)
  | signedIn {reply : Reply} {changes : List Change} {user : User} {session : UserSession}
      (proof : Proves env remote r s route user) (quiet : Runs.Along System.next Change.Quiet s changes)
      (opened : (Change.call ⟨env, .createSession user.id⟩).opens (Runs.run System.next s changes) = some session)
      (given : ∀ cookies : Cookies, (cookies.receive reply.cookies).session = some session.token) :
      Effect env remote r route s (reply, Runs.run System.next s (changes ++ [.call ⟨env, .createSession user.id⟩]))
  | lost {reply : Reply} {changes : List Change} {user : User} {session : UserSession}
      (proof : Proves env remote r s route user) (quiet : Runs.Along System.next Change.Quiet s changes)
      (opened : (Change.call ⟨env, .createSession user.id⟩).opens (Runs.run System.next s changes) = some session)
      (kept : ∀ cookies : Cookies, (cookies.receive reply.cookies).session = cookies.session) :
      Effect env remote r route s (reply, Runs.run System.next s (changes ++ [.call ⟨env, .createSession user.id⟩]))

variable {α β : Type} {env : Env} {remote : RemoteServices} {r : Sender} {s : System} {w : World}

/-! ## Steps of a request -/

theorem reading_bind (read : Query α) (f : α → SystemAction β) (s : System) : (reading read >>= f) s =
    match read s.world with
    | .ok a => f a s
    | .error e => (.error e, s) := by
  rw [Program.bind_apply]
  unfold reading
  cases read s.world <;> rfl

theorem committing_apply (m : UnitOfWork α) (s : System) : committing m s =
    match m s.world with
    | .ok (a, w) => (.ok a, { s with world := w })
    | .error e => (.error e, s) := by
  unfold committing Action.onSystem
  rw [Program.commit_apply]
  cases m s.world <;> rfl

/-- The same as a unit of work of the system. -/
theorem committing_eq (m : UnitOfWork α) : committing m = liftM (liftM m : SystemWork α) := by
  funext s
  rw [committing_apply]
  change _ = Work.commit (UnitOfWork.onSystem m) s
  unfold Work.commit UnitOfWork.onSystem
  cases m s.world <;> rfl

theorem committing_bind (m : UnitOfWork α) (f : α → SystemAction β) (s : System) : (committing m >>= f) s =
    match m s.world with
    | .ok (a, w) => f a { s with world := w }
    | .error e => (.error e, s) := by
  rw [Program.bind_apply, committing_apply]
  cases m s.world <;> rfl

theorem catchingOnly_bind (caught : DomainError → Bool) (act : SystemAction α)
    (f : Except DomainError α → SystemAction β) (s : System) : (catchingOnly caught act >>= f) s =
    match act s with
    | (.ok a, s') => f (.ok a) s'
    | (.error (.raised e), s') => if caught e then f (.error e) s' else (.error (.raised e), s')
    | (.error e, s') => (.error e, s') := by
  have hmap : (Except.ok <$> act : SystemAction (Except DomainError α)) s =
      ((act s).1.map Except.ok, (act s).2) := by
    rw [map_eq_pure_bind, Program.bind_apply]
    cases (act s).1 <;> rfl
  rw [Program.bind_apply]
  unfold catchingOnly
  rw [Program.tryCatch_apply, hmap]
  rcases act s with ⟨_ | a, s'⟩
  · rename_i e
    cases e with
    | raised e =>
      by_cases hc : caught e = true
      · simp only [Except.map, if_pos hc]
        rfl
      · simp only [Except.map, if_neg hc]
        rfl
    | _ => rfl
  · rfl

/-- A unit of work of a service is a change. -/
theorem next_unit (operation : Operation) {m : UnitOfWork α} (hop : operation.run env = Operation.unit m)
    {a : α} {w' : World} (h : m s.world = .ok (a, w')) :
    s.next (.call ⟨env, operation⟩) = { s with world := w' } := by
  change (operation.run env s).2 = _
  rw [hop, unit_apply, h]

theorem next_unitWithTokens (operation : Operation) {m : SystemWork α}
    (hop : operation.run env = Operation.unitWithTokens m) {a : α} {s' : System} (h : m s = .ok (a, s')) :
    s.next (.call ⟨env, operation⟩) = s' := by
  change (operation.run env s).2 = _
  rw [hop, unitWithTokens_apply, h]

theorem quiet_call (env : Env) {operation : Operation} (h : ∀ userId, operation ≠ .createSession userId) :
    Change.Quiet s (.call ⟨env, operation⟩) := by
  refine ⟨?_, nofun⟩
  cases operation with
  | createSession userId => exact absurd rfl (h userId)
  | _ => rfl

theorem along_single {c : Change} (h : c.Quiet s) : Runs.Along System.next Change.Quiet s [c] := ⟨h, trivial⟩

/-! ## Effects -/

section

variable {route : RootRoute} {changes : List Change}

/-- The effect of a request that ends in this way. -/
abbrev Does (env : Env) (remote : RemoteServices) (r : Sender) (route : RootRoute) (s : System)
    (x : Except Failure Reply × System) : Prop :=
  Effect env remote r route s (.ofResult x.1, x.2)

/-- The cookie of the session stays as it is. -/
def KeepsSession (reply : Reply) : Prop :=
  ∀ cookies : Cookies, (cookies.receive reply.cookies).session = cookies.session

theorem keepsSession_failure (e : Failure) : KeepsSession (.ofFailure e) := by
  intro cookies
  cases e <;> rfl

theorem does_quiet {x : Except Failure Reply × System} (going : route.endsSession = false)
    (quiet : Runs.Along System.next Change.Quiet s changes) (hstate : x.2 = Runs.run System.next s changes)
    (kept : ∀ reply, x.1 = .ok reply → KeepsSession reply) : Does env remote r route s x := by
  obtain ⟨result, s'⟩ := x
  obtain rfl := hstate
  cases result with
  | ok reply => exact .quiet quiet going (kept reply rfl)
  | error e => exact .quiet quiet going (keepsSession_failure e)

/-- Nothing is changed. -/
theorem does_nothing {x : Except Failure Reply × System} (going : route.endsSession = false) (hstate : x.2 = s)
    (kept : ∀ reply, x.1 = .ok reply → KeepsSession reply) : Does env remote r route s x :=
  does_quiet going (show Runs.Along System.next Change.Quiet s [] from trivial) hstate kept

theorem does_pure {reply : Reply} (going : route.endsSession = false) (kept : KeepsSession reply) :
    Does env remote r route s ((pure reply : SystemAction Reply) s) :=
  does_nothing going rfl fun _ h => Except.ok.inj h ▸ kept

theorem does_reading {read : Query α} {f : α → SystemAction Reply} (going : route.endsSession = false)
    (hf : ∀ a, read s.world = .ok a → Does env remote r route s (f a s)) :
    Does env remote r route s ((reading read >>= f) s) := by
  rw [reading_bind]
  cases hread : read s.world with
  | ok a => exact hf a hread
  | error e => exact does_nothing going rfl nofun

/-- A unit of work of a service, and then nothing but reads. -/
theorem does_committing (operation : Operation) {m : UnitOfWork α} {f : α → SystemAction Reply}
    (going : route.endsSession = false) (hop : operation.run env = Operation.unit m)
    (hquiet : ∀ userId, operation ≠ .createSession userId) (hstate : ∀ a s', (f a s').2 = s')
    (hkept : ∀ a s' reply, (f a s').1 = .ok reply → KeepsSession reply) :
    Does env remote r route s ((committing m >>= f) s) := by
  rw [committing_bind]
  cases hm : m s.world with
  | error e => exact does_nothing going rfl nofun
  | ok p =>
    obtain ⟨a, w'⟩ := p
    refine does_quiet going (along_single (quiet_call env hquiet)) ?_ (hkept a _)
    rw [Runs.run_cons, Runs.run_nil, next_unit operation hop hm]
    exact hstate a _

theorem does_withTokens (operation : Operation) {m : SystemWork α} {f : α → SystemAction Reply}
    (going : route.endsSession = false) (hop : operation.run env = Operation.unitWithTokens m)
    (hquiet : ∀ userId, operation ≠ .createSession userId) (hstate : ∀ a s', (f a s').2 = s')
    (hkept : ∀ a s' reply, (f a s').1 = .ok reply → KeepsSession reply) :
    Does env remote r route s (((liftM m : SystemAction α) >>= f) s) := by
  rw [Program.bind_apply, Program.commit_apply]
  cases hm : m s with
  | error e => exact does_nothing going rfl nofun
  | ok p =>
    obtain ⟨a, s'⟩ := p
    refine does_quiet going (along_single (quiet_call env hquiet)) ?_ (hkept a _)
    rw [Runs.run_cons, Runs.run_nil, next_unitWithTokens operation hop hm]
    exact hstate a _

/-- A reply that depends on a read. -/
theorem returning_state (read : Query α) (reply : α → Reply) (s : System) :
    ((reading read >>= fun a => pure (reply a)) s).2 = s := by
  rw [reading_bind]
  cases read s.world <;> rfl

theorem returning_kept {read : Query α} {reply : α → Reply} (h : ∀ a, KeepsSession (reply a)) (s : System)
    (given : Reply) (hgiven : ((reading read >>= fun a => pure (reply a)) s).1 = .ok given) :
    KeepsSession given := by
  rw [reading_bind] at hgiven
  cases hread : read s.world with
  | error e =>
    rw [hread] at hgiven
    cases hgiven
  | ok a =>
    rw [hread] at hgiven
    exact Except.ok.inj hgiven ▸ h a

theorem homeOf_state (user : User) (s : System) : (RootRoutes.homeOf user s).2 = s := returning_state _ _ s

theorem homeOf_kept (user : User) (s : System) (reply : Reply) (h : (RootRoutes.homeOf user s).1 = .ok reply) :
    KeepsSession reply :=
  returning_kept (fun _ _ => rfl) s reply h

theorem does_homeOf (going : route.endsSession = false) (user : User) :
    Does env remote r route s (RootRoutes.homeOf user s) :=
  does_nothing going (homeOf_state user s) (homeOf_kept user s)

/-- The session of the cookie ends, and the cookie goes. -/
theorem does_endSession {reply : Reply} (ending : route.endsSession = true)
    (dropped : ∀ cookies : Cookies, (cookies.receive reply.cookies).session = none) :
    Does env remote r route s ((RootRoutes.endSession r >>= fun _ => pure reply) s) := by
  have hstate : RootRoutes.endSession r s = (.ok (), Runs.run System.next s
      ((r.cookies.session.bind Text.orNone).toList.map .deleteSession)) := by
    unfold RootRoutes.endSession
    cases r.cookies.session.bind Text.orNone with
    | none => rfl
    | some token => rfl
  rw [Program.bind_apply, hstate]
  exact .ended ending rfl dropped

theorem signIn_apply (user : User) (redirectTo : Organization → String) (s : System) :
    RootRoutes.signIn env user redirectTo s =
      match UserService.createSession env user.id s.world with
      | .error e => (.error e, s)
      | .ok (session, w') => ((OrganizationService.get user.organizationId w').map fun organization =>
          (Reply.redirect (redirectTo organization)).setting [.session session.token RootRoutes.sessionMaxAge],
          { s with world := w' }) := by
  unfold RootRoutes.signIn
  rw [committing_bind]
  cases UserService.createSession env user.id s.world with
  | error e => rfl
  | ok p =>
    obtain ⟨session, w'⟩ := p
    simp only [reading_bind]
    cases OrganizationService.get user.organizationId w' <;> rfl

/-- A session for whom the request proves to be, after changes that are quiet. -/
theorem does_signIn {user : User} {redirectTo : Organization → String} {finish : Reply → Reply}
    (proof : Proves env remote r s route user) (going : route.endsSession = false)
    (quiet : Runs.Along System.next Change.Quiet s changes)
    (hfinish : ∀ (cookies : Cookies) (reply : Reply),
      (cookies.receive (finish reply).cookies).session = (cookies.receive reply.cookies).session) :
    Does env remote r route s ((RootRoutes.signIn env user redirectTo >>= fun reply => pure (finish reply))
      (Runs.run System.next s changes)) := by
  rw [Program.bind_apply, signIn_apply]
  cases hcreate : UserService.createSession env user.id (Runs.run System.next s changes).world with
  | error e => exact .quiet quiet going (keepsSession_failure e)
  | ok p =>
    obtain ⟨session, w'⟩ := p
    have hnext : Runs.run System.next s (changes ++ [.call ⟨env, .createSession user.id⟩]) =
        { Runs.run System.next s changes with world := w' } := by
      rw [Runs.run_append, Runs.run_cons, Runs.run_nil]
      exact next_unit (.createSession user.id) rfl hcreate
    have hopens : (Change.call ⟨env, .createSession user.id⟩).opens (Runs.run System.next s changes) =
        some session := by
      simp only [Change.opens, hcreate]
      rfl
    simp only
    rw [← hnext]
    cases OrganizationService.get user.organizationId w' with
    | error e => exact .lost proof quiet hopens (keepsSession_failure e)
    | ok organization => exact .signedIn proof quiet hopens fun cookies => hfinish cookies _

/-- A unit of work whose domain errors are caught, and what follows it. -/
theorem does_catching {caught : DomainError → Bool} {m : SystemWork α}
    {f : Except DomainError α → SystemAction Reply} (going : route.endsSession = false)
    (hok : ∀ a s', m s = .ok (a, s') → Does env remote r route s (f (.ok a) s'))
    (hcaught : ∀ e, caught e = true → Does env remote r route s (f (.error e) s)) :
    Does env remote r route s ((catchingOnly caught (liftM m) >>= f) s) := by
  rw [catchingOnly_bind, Program.commit_apply]
  cases hm : m s with
  | ok p => exact hok p.1 p.2 hm
  | error failure =>
    cases failure with
    | raised e =>
      simp only
      split
      · rename_i hc
        exact hcaught e hc
      · exact does_nothing going rfl nofun
    | _ => exact does_nothing going rfl nofun

/-- The sign-in of a user after one change. -/
theorem does_signIn_after {user : User} {redirectTo : Organization → String} {finish : Reply → Reply}
    (operation : Operation) {s' : System} (proof : Proves env remote r s route user)
    (going : route.endsSession = false) (hquiet : ∀ userId, operation ≠ .createSession userId)
    (hnext : s.next (.call ⟨env, operation⟩) = s')
    (hfinish : ∀ (cookies : Cookies) (reply : Reply),
      (cookies.receive (finish reply).cookies).session = (cookies.receive reply.cookies).session) :
    Does env remote r route s ((RootRoutes.signIn env user redirectTo >>= fun reply => pure (finish reply)) s') := by
  rw [← hnext]
  change Does env remote r route s ((RootRoutes.signIn env user redirectTo >>= fun reply => pure (finish reply))
    (Runs.run System.next s [.call ⟨env, operation⟩]))
  exact does_signIn proof going (along_single (quiet_call env hquiet)) hfinish

end

/-! ## The routes -/

theorem orNone_eq_some {text text' : String} (h : Text.orNone text = some text') : text = text' ∧ text ≠ "" := by
  unfold Text.orNone at h
  split at h
  · cases h
  · rename_i hne
    exact ⟨Option.some.inj h, hne⟩

theorem compareDigest_true {a b : String} (h : RootRoutes.compareDigest a b w = .ok true) : a = b := by
  unfold RootRoutes.compareDigest at h
  split at h
  · exact of_decide_eq_true (Except.ok.inj h)
  · cases h

theorem stateMatches_true {state : String} (h : RootRoutes.stateMatches r state w = .ok true) :
    r.cookies.oauthState = some state ∧ state ≠ "" := by
  unfold RootRoutes.stateMatches at h
  cases hstate : Text.orNone state with
  | none =>
    rw [hstate] at h
    cases h
  | some given =>
    obtain ⟨rfl, hne⟩ := orNone_eq_some hstate
    cases hcookie : r.cookies.oauthState.bind Text.orNone with
    | none =>
      rw [hstate, hcookie] at h
      cases h
    | some kept =>
      rw [hstate, hcookie] at h
      obtain rfl := compareDigest_true h
      obtain ⟨cookie, hjar, hkept⟩ := Option.bind_eq_some_iff.mp hcookie
      obtain ⟨rfl, _⟩ := orNone_eq_some hkept
      exact ⟨hjar, hne⟩

/-- A request has one of these effects. -/
theorem answer_effect (env : Env) (remote : RemoteServices) (r : Sender) (route : RootRoute) (s : System) :
    Effect env remote r route s (answer env remote r route s) := by
  change Does env remote r route s (route.handle env remote r s)
  cases route with
  | index =>
    refine does_reading rfl fun found _ => ?_
    cases found with
    | some user => exact does_homeOf rfl user
    | none => exact does_pure rfl fun _ => rfl
  | pricingPage | loginPage next error | signupPage plan | forgotPasswordPage | resetPasswordPage token =>
    exact does_pure rfl fun _ => rfl
  | termsPage =>
    refine does_reading rfl fun found _ => ?_
    cases found with
    | some user => exact does_reading rfl fun acceptance _ => does_pure rfl fun _ => rfl
    | none => exact does_pure rfl fun _ => rfl
  | termsReview =>
    refine does_reading rfl fun found _ => ?_
    cases found with
    | none => exact does_pure rfl fun _ => rfl
    | some user =>
      refine does_reading rfl fun accepted _ => ?_
      cases accepted with
      | true => exact does_homeOf rfl user
      | false => exact does_pure rfl fun _ => rfl
  | termsAccept =>
    refine does_reading rfl fun found _ => ?_
    cases found with
    | none => exact does_pure rfl fun _ => rfl
    | some user =>
      exact does_committing (.recordAcceptance user.id user.organizationId r.ipAddress r.userAgent) rfl
        rfl nofun (fun _ => homeOf_state user) fun _ => homeOf_kept user
  | termsDecline | logout => exact does_endSession rfl fun _ => rfl
  | setLanguage lang next =>
    refine does_reading rfl fun found _ => ?_
    cases found with
    | none => exact does_pure rfl fun _ => rfl
    | some user =>
      refine does_committing (.setLocale user.id (some _)) rfl rfl nofun (fun _ _ => rfl) ?_
      intro _ _ _ h
      exact Except.ok.inj h ▸ fun _ => rfl
  | loginSubmit email password next =>
    change Does env remote r _ s ((catchingOnly RootRoutes.isCredentialError
      (reading (UserService.authenticate env email password)) >>= _) s)
    rw [catchingOnly_bind]
    unfold reading
    cases hauth : UserService.authenticate env email password s.world with
    | ok user =>
      have hsign : Does env remote r (.loginSubmit email password next) s
          ((RootRoutes.signIn env user (RootRoutes.destination next) >>= fun reply => pure (id reply))
            (Runs.run System.next s [])) := does_signIn (.password hauth) rfl trivial fun _ _ => rfl
      simpa using hsign
    | error failure =>
      cases failure with
      | raised e =>
        simp only
        split
        · exact does_pure rfl fun _ => rfl
        · exact does_nothing rfl rfl nofun
      | _ => exact does_nothing rfl rfl nofun
  | googleLogin next =>
    change Does env remote r _ s ((if remote.google.enabled = true then _ else _ : SystemAction Reply) s)
    split
    · exact does_pure rfl fun _ => rfl
    · exact does_pure rfl fun _ => rfl
  | googleCallback code state error =>
    change Does env remote r _ s ((if error ≠ "" ∨ code = "" then _ else _ : SystemAction Reply) s)
    split
    · exact does_pure rfl fun _ => rfl
    · refine does_reading rfl fun matched hmatched => ?_
      cases matched with
      | false => exact does_pure rfl fun _ => rfl
      | true =>
        obtain ⟨hcookie, hstate⟩ := stateMatches_true hmatched
        simp only [not_true_eq_false, if_false]
        cases hexchange : remote.google.exchange code >>= GoogleOAuth.identity with
        | error e =>
          cases e with
          | valueError => exact does_nothing rfl rfl nofun
          | _ => exact does_pure rfl fun _ => rfl
        | ok identity =>
          simp only [committing_eq]
          refine does_catching rfl (fun user s' hm => ?_) fun _ _ => does_pure rfl fun _ => rfl
          obtain ⟨hlogin, htokens⟩ := onSystem_ok_iff.mp hm
          refine does_signIn_after (.loginOrRegisterGoogle identity currentTermsVersion r.ipAddress
            r.userAgent) (.google hcookie hstate hexchange hlogin) rfl nofun ?_ fun _ _ => ?_
          · rw [next_unit _ rfl hlogin, ← htokens]
          · simp [Cookies.receive, Reply.setting, Cookies.set]
  | signupSubmit organizationName userName email password acceptTerms plan =>
    change Does env remote r _ s ((if acceptTerms = "" then _ else _ : SystemAction Reply) s)
    split
    · exact does_pure rfl fun _ => rfl
    · refine does_catching rfl (fun a s' hm => ?_) fun _ _ => does_pure rfl fun _ => rfl
      have hnext : s.next (.call ⟨env, .register organizationName userName email password
        r.ipAddress r.userAgent⟩) = s' :=
        next_unitWithTokens _ rfl hm
      have hquiet : Change.Quiet s (.call ⟨env, .register organizationName userName email password
        r.ipAddress r.userAgent⟩) :=
        quiet_call env nofun
      obtain ⟨organization, user, token⟩ := a
      refine does_quiet rfl (along_single hquiet) hnext.symm ?_
      intro _ h
      exact Except.ok.inj h ▸ fun _ => rfl
  | verifyEmail token plan =>
    refine does_catching rfl (fun user s' hm => ?_) fun _ _ => does_pure rfl fun _ => rfl
    have hsign : Does env remote r (.verifyEmail token plan) s ((RootRoutes.signIn env user (fun organization =>
        if plan ∈ RootRoutes.paidPlans then s!"/{organization.slug}/settings/billing?plan={plan}"
        else RootRoutes.home organization) >>= fun reply => pure (id reply)) s') :=
      does_signIn_after (.verifyEmail token) (.verification hm) rfl nofun (next_unitWithTokens _ rfl hm) fun _ _ => rfl
    simpa using hsign
  | resetPasswordSubmit token newPassword =>
    refine does_catching rfl (fun user s' hm => ?_) fun _ _ => does_pure rfl fun _ => rfl
    have hsign : Does env remote r (.resetPasswordSubmit token newPassword) s
        ((RootRoutes.signIn env user RootRoutes.home >>= fun reply => pure (id reply)) s') :=
      does_signIn_after (.resetPassword token newPassword) (.reset hm) rfl nofun (next_unitWithTokens _ rfl hm)
        fun _ _ => rfl
    simpa using hsign
  | resendVerification email =>
    refine does_withTokens (.resendVerification email) rfl rfl nofun (fun _ _ => rfl) ?_
    intro _ _ _ h
    exact Except.ok.inj h ▸ fun _ => rfl
  | forgotPasswordSubmit email =>
    refine does_withTokens (.createPasswordResetToken email) rfl rfl nofun (fun _ _ => rfl) ?_
    intro _ _ _ h
    exact Except.ok.inj h ▸ fun _ => rfl
  | oauthCallback code state =>
    refine does_reading rfl fun parsed _ => ?_
    obtain ⟨organizationId, provider⟩ := parsed
    cases organizationId with
    | negSucc _ => exact does_nothing rfl rfl nofun
    | ofNat organizationId =>
      refine does_committing (.completeOauthConnection organizationId provider
        (remote.tokens provider code)) rfl rfl nofun (fun _ => returning_state _ _) fun _ => ?_
      exact returning_kept fun _ _ => rfl

end Orchestract
