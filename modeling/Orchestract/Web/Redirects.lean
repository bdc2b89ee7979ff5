import Orchestract.Sharing.Unlocking
import Orchestract.Tenancy.Addresses
import Orchestract.Web.SignIn

/-!
# Where redirects lead

Some routes outside the organizations lead to where a request asks to be led next. A redirect of
theirs stays on the host nevertheless, unless it leads to Google.
-/

namespace Orchestract

set_option autoImplicit false

/-! ## Locations -/

/-- The bytes that Starlette keeps in the header of a redirect. -/
def keptInLocation (b : Nat) : Bool :=
  UrlEncoding.unreserved b || b ∈ ":/%#?=@[]!$&'()*+,;".toList.map Char.toNat

def locationByte (b : Nat) : List Char :=
  if keptInLocation b then [Char.ofNat b] else ['%', UrlEncoding.hexDigit (b / 16), UrlEncoding.hexDigit (b % 16)]

/-- The header `Location` of a redirect. -/
def location (url : String) : List Char := (Utf8.encode url.toList).flatMap locationByte

/-- The blanks before a location, tabs and line breaks do not count for a browser. -/
def readLocation (text : List Char) : List Char :=
  (text.dropWhile fun c => c.toNat ≤ 32).filter (· ∉ ['\t', '\n', '\r'])

/-- The location is a path on the host that sent it: it begins with one slash, for which a browser
takes a backslash too. -/
def OnHost (text : List Char) : Prop :=
  ∃ rest, readLocation text = '/' :: rest ∧ rest.head? ≠ some '/' ∧ rest.head? ≠ some '\\'

/-- The URL is a path that begins with one slash. -/
def Rooted (url : String) : Prop := ∃ rest, url.toList = '/' :: rest ∧ rest.head? ≠ some '/'

theorem locationByte_cases {b : Nat} (hb : b < 256) :
    (∀ c ∈ locationByte b, 32 < c.toNat ∧ c ≠ '\\') ∧ ∃ c rest, locationByte b = c :: rest ∧ (c = '/' → b = 47) := by
  have hkept : ∀ b < 256, keptInLocation b = true → 32 < (Char.ofNat b).toNat ∧ Char.ofNat b ≠ '\\' ∧
      (Char.ofNat b = '/' → b = 47) := by decide +kernel
  have hhex : ∀ n < 16, 32 < (UrlEncoding.hexDigit n).toNat ∧ UrlEncoding.hexDigit n ≠ '\\' := by decide
  unfold locationByte
  split_ifs with h
  · obtain ⟨hblank, hbackslash, hslash⟩ := hkept b hb h
    exact ⟨fun c hc => List.mem_singleton.mp hc ▸ ⟨hblank, hbackslash⟩, _, _, rfl, hslash⟩
  · refine ⟨fun c hc => ?_, _, _, rfl, nofun⟩
    rcases List.mem_cons.mp hc with rfl | hc
    · decide
    · rcases List.mem_cons.mp hc with rfl | hc
      · exact hhex _ (by omega)
      · rw [List.mem_singleton.mp hc]
        exact hhex _ (by omega)

theorem mem_location {url : String} {c : Char} (h : c ∈ location url) : 32 < c.toNat ∧ c ≠ '\\' := by
  obtain ⟨b, hb, hc⟩ := List.mem_flatMap.mp h
  exact (locationByte_cases (UrlEncoding.encode_lt _ b hb)).1 c hc

/-- Nothing of a location is skipped. -/
theorem readLocation_location (url : String) : readLocation (location url) = location url := by
  unfold readLocation
  have hdrop : (location url).dropWhile (fun c => c.toNat ≤ 32) = location url := by
    cases h : location url with
    | nil => rfl
    | cons c rest =>
      have hc := (mem_location (h ▸ List.mem_cons_self : c ∈ location url)).1
      rw [List.dropWhile_cons_of_neg (by simpa using hc)]
  rw [hdrop]
  refine List.filter_eq_self.mpr fun c hc => ?_
  have hblank := (mem_location hc).1
  simp only [List.mem_cons, List.not_mem_nil, or_false, decide_eq_true_eq, not_or]
  refine ⟨?_, ?_, ?_⟩ <;> rintro rfl <;> exact absurd hblank (by decide)

/-- The first character of a text that is not the slash is not written as one. -/
theorem head_location {s : List Char} (h : s.head? ≠ some '/') :
    ((Utf8.encode s).flatMap locationByte).head? ≠ some '/' := by
  cases s with
  | nil => nofun
  | cons c s =>
    obtain ⟨b, bs, hencode, hslash⟩ : ∃ b bs, Utf8.encodeChar c = b :: bs ∧ (b = 47 → c = '/') := by
      unfold Utf8.encodeChar
      dsimp only
      split_ifs
      · exact ⟨_, _, rfl, fun hb => Char.toNat_inj.mp hb⟩
      all_goals exact ⟨_, _, rfl, fun hb => by omega⟩
    have hb : b < 256 := UrlEncoding.encode_lt [c] b (by simp [Utf8.encode, hencode])
    obtain ⟨_, d, rest, hd, hd47⟩ := locationByte_cases hb
    have hwhole : (Utf8.encode (c :: s)).flatMap locationByte =
        d :: (rest ++ (bs ++ Utf8.encode s).flatMap locationByte) := by
      simp [Utf8.encode, hencode, hd]
    rw [hwhole]
    intro heq
    have hcd : d = '/' := Option.some.inj heq
    exact h (congrArg some (hslash (hd47 hcd)))

theorem onHost_location {url : String} (h : Rooted url) : OnHost (location url) := by
  obtain ⟨rest, hurl, hrest⟩ := h
  have hlocation : location url = '/' :: (Utf8.encode rest).flatMap locationByte := by
    unfold location
    rw [hurl]
    rfl
  refine ⟨_, (readLocation_location url).trans hlocation, head_location hrest, ?_⟩
  intro hhead
  have hmem : '\\' ∈ location url := by
    rw [hlocation]
    exact List.mem_cons_of_mem _ (List.mem_of_head? hhead)
  exact (mem_location hmem).2 rfl

/-! ## Paths -/

theorem rooted_cons {text : String} {c : Char} {rest : List Char} (h : text.toList = '/' :: c :: rest)
    (hc : c ≠ '/') : Rooted text :=
  ⟨_, h, fun heq => hc (Option.some.inj heq)⟩

theorem rooted_append (path text : String) {c : Char} {rest : List Char} (h : path.toList = '/' :: c :: rest)
    (hc : c ≠ '/') : Rooted (path ++ text) := by
  refine rooted_cons (?_ : _ = '/' :: c :: (rest ++ text.toList)) hc
  rw [String.toList_append, h]
  rfl

/-- A path under the slug of an organization. -/
theorem rooted_slug {o : Organization} (ho : o.Canonical) {url : String} (h : ('/' :: o.slug.toList) <+: url.toList) :
    Rooted url := by
  obtain ⟨c, hhead, hc⟩ := Text.head_slug ho
  obtain ⟨rest, hrest⟩ := h
  obtain ⟨slug, hslug⟩ := List.head?_eq_some_iff.mp hhead
  rw [hslug] at hrest
  refine rooted_cons hrest.symm ?_
  rintro rfl
  exact absurd hc (by decide)

theorem rooted_home {o : Organization} (ho : o.Canonical) : Rooted (RootRoutes.home o) :=
  rooted_slug ho ⟨['/'], by simp [RootRoutes.home, toString]⟩

theorem rooted_destination (next : String) {o : Organization} (ho : o.Canonical) :
    Rooted (RootRoutes.destination next o) := by
  unfold RootRoutes.destination
  split_ifs with h
  · refine rooted_slug ho (List.IsPrefix.trans ⟨['/'], ?_⟩ h)
    simp [RootRoutes.home, toString]
  · exact rooted_home ho

theorem rooted_sameOrigin (next : String) : Rooted (RootRoutes.sameOrigin next) := by
  unfold RootRoutes.sameOrigin
  split
  · exact ⟨[], rfl, nofun⟩
  · rename_i rest hnot hnext
    refine ⟨rest, hnext, fun hhead => ?_⟩
    obtain ⟨rest', rfl⟩ := List.head?_eq_some_iff.mp hhead
    exact hnot rest' rfl
  · exact ⟨[], rfl, nofun⟩

/-! ## Replies -/

/-- Where a reply leads, if it does. -/
def Reply.Leads (P : String → Prop) (reply : Reply) : Prop := ∀ url, reply.body = .redirect url → P url

section

variable {P : String → Prop}

theorem leads_page {reply : Reply} {page : RootPage} (h : reply.body = .page page) : reply.Leads P := by
  intro url hurl
  rw [h] at hurl
  cases hurl

theorem leads_redirect {reply : Reply} {url : String} (h : reply.body = .redirect url) (hurl : P url) :
    reply.Leads P := by
  intro url' h'
  rw [h] at h'
  cases h'
  exact hurl

end

theorem leads_failure (e : Failure) : (Reply.ofFailure e).Leads Rooted := by
  cases e with
  | notAuthenticated nextPath =>
    exact leads_redirect rfl (rooted_append (toString "/login?next=") nextPath (c := 'l') rfl (by decide))
  | termsNotAccepted => exact leads_redirect rfl (rooted_cons (c := 't') rfl (by decide))
  | _ => exact fun _ h => by cases h

/-! ## Requests -/

/-- Every organization has a canonical slug. -/
def SlugsCanonical (s : System) : Prop := ∀ o ∈ s.world.db.organizations.rows, o.Canonical

variable {α β : Type} {env : Env} {remote : RemoteServices} {r : Sender}

theorem slugsCanonical_next {s : System} (hs : SlugsCanonical s) (c : Change) : SlugsCanonical (s.next c) :=
  canonical_addressed (addressed_next s c) hs

theorem keeps_reading (read : Query α) : Program.Keeps SlugsCanonical (reading read) := fun _ hs => ⟨hs, fun _ _ => trivial⟩

/-- A unit of work that is a change. -/
theorem keeps_committing {m : UnitOfWork α} (hm : ∀ s : System, ∃ c, s.next c = (Operation.unit m s).2) :
    Program.Keeps SlugsCanonical (committing m) := by
  intro s hs
  obtain ⟨c, hc⟩ := hm s
  have hnext := slugsCanonical_next hs c
  rw [hc, unit_apply] at hnext
  rw [committing_apply]
  cases h : m s.world with
  | ok p =>
    rw [h] at hnext
    exact ⟨hnext, fun _ _ => trivial⟩
  | error e => exact ⟨hs, nofun⟩

theorem keeps_withTokens {m : SystemWork α} (hm : ∀ s : System, ∃ c, s.next c = (Operation.unitWithTokens m s).2) :
    Program.Keeps SlugsCanonical (liftM m : SystemAction α) := by
  intro s hs
  obtain ⟨c, hc⟩ := hm s
  have hnext := slugsCanonical_next hs c
  rw [hc, unitWithTokens_apply] at hnext
  rw [Program.commit_apply]
  cases h : m s with
  | ok p =>
    rw [h] at hnext
    exact ⟨hnext, fun _ _ => trivial⟩
  | error e => exact ⟨hs, nofun⟩

theorem keeps_catchingOnly (caught : DomainError → Bool) {act : SystemAction α} (h : Program.Keeps SlugsCanonical act) :
    Program.Keeps SlugsCanonical (catchingOnly caught act) := by
  refine Program.keeps_tryCatch (Program.keeps_bind h fun a => Program.keeps_pure _) fun failure => ?_
  cases failure with
  | raised e =>
    dsimp only
    split
    · exact Program.keeps_pure _
    · exact Program.keeps_throw _
  | _ => exact Program.keeps_throw _

/-! ## Routes -/

/-- A program of which every reply stays on the host. -/
abbrev Stays (m : SystemAction Reply) : Prop := Program.Ensures SlugsCanonical m (Reply.Leads Rooted)

theorem stays_page {reply : Reply} {page : RootPage} (h : reply.body = .page page) : Stays (pure reply) :=
  Program.ensures_pure (leads_page h)

theorem stays_redirect {reply : Reply} {url : String} (h : reply.body = .redirect url) (hurl : Rooted url) :
    Stays (pure reply) :=
  Program.ensures_pure (leads_redirect h hurl)

theorem stays_after {m : SystemAction α} {f : α → SystemAction Reply} (hm : Program.Keeps SlugsCanonical m)
    (hf : ∀ a, Stays (f a)) : Stays (m >>= f) :=
  Program.ensures_bind hm fun a _ => hf a

theorem stays_organization {organizationId : Nat} {f : Organization → SystemAction Reply}
    (hf : ∀ o : Organization, o.Canonical → Stays (f o)) :
    Stays (reading (OrganizationService.get organizationId) >>= f) := by
  refine Program.ensures_bind (Q := Organization.Canonical) (fun s hs => ⟨hs, fun o ho => ?_⟩) hf
  exact hs o (Table.get_eq_some_iff.mp ((require_ok_iff _ _ _ _).mp ho)).1

theorem stays_homeOf (user : User) : Stays (RootRoutes.homeOf user) :=
  stays_organization fun _ ho => stays_redirect rfl (rooted_home ho)

/-- A sign-in leads below the slug of the organization. -/
theorem stays_signIn (env : Env) (user : User) {redirectTo : Organization → String}
    (h : ∀ o : Organization, o.Canonical → Rooted (redirectTo o)) : Stays (RootRoutes.signIn env user redirectTo) := by
  refine stays_after (keeps_committing fun s => ⟨.call ⟨env, .createSession user.id⟩, rfl⟩) fun session => ?_
  exact stays_organization fun o ho => stays_redirect rfl (h o ho)

theorem stays_endSession (r : Sender) {reply : Reply} (h : Stays (pure reply)) :
    Stays (RootRoutes.endSession r >>= fun _ => pure reply) := by
  refine stays_after ?_ fun _ => h
  unfold RootRoutes.endSession
  cases r.cookies.session.bind Text.orNone with
  | none => exact Program.keeps_pure _
  | some token => exact keeps_committing fun s => ⟨.deleteSession token, rfl⟩

theorem stays_failed (message : String) : Stays (pure (RootRoutes.googleLoginFailed message)) :=
  stays_redirect rfl (rooted_append "/login?error=" _ (c := 'l') rfl (by decide))

/-- What follows the look for the user of a request. -/
theorem stays_asUser {f : Option User → SystemAction Reply} (hnone : Stays (f none))
    (hsome : ∀ user, Stays (f (some user))) : Stays (reading (RootRoutes.userFromRequest env r) >>= f) :=
  stays_after (keeps_reading _) fun found => match found with
    | none => hnone
    | some user => hsome user

theorem stays_googleCallback (google : GoogleSettings) (code state error : String) :
    Stays (RootRoutes.googleCallback env google r code state error) := by
  unfold RootRoutes.googleCallback
  split
  · exact stays_failed _
  · refine stays_after (keeps_reading _) fun matched => ?_
    split
    · exact stays_failed _
    · split
      · exact fun s hs => ⟨hs, nofun⟩
      · exact stays_failed _
      · rename_i identity _
        refine stays_after (keeps_catchingOnly _ (keeps_committing fun s =>
          ⟨.call ⟨env, .loginOrRegisterGoogle identity currentTermsVersion r.ipAddress r.userAgent⟩, rfl⟩)) ?_
        intro result
        cases result with
        | error e => exact stays_failed _
        | ok user =>
          refine Program.ensures_bind (stays_signIn env user fun o ho => rooted_destination _ ho) fun reply hreply => ?_
          exact Program.ensures_pure hreply

theorem stays_handle (env : Env) (remote : RemoteServices) (r : Sender) (route : RootRoute)
    (h : ∀ next, route = .googleLogin next → remote.google.enabled = false) : Stays (route.handle env remote r) := by
  cases route with
  | index => exact stays_asUser (stays_page rfl) stays_homeOf
  | pricingPage | loginPage next error | signupPage plan | forgotPasswordPage | resetPasswordPage token =>
    exact stays_page rfl
  | termsPage =>
    exact stays_asUser (stays_page rfl) fun user => stays_after (keeps_reading _) fun _ => stays_page rfl
  | termsReview =>
    refine stays_asUser (stays_redirect rfl (rooted_cons (c := 'l') rfl (by decide))) fun user => ?_
    refine stays_after (keeps_reading _) fun accepted => ?_
    split
    · exact stays_homeOf user
    · exact stays_page rfl
  | termsAccept =>
    refine stays_asUser (stays_redirect rfl (rooted_cons (c := 'l') rfl (by decide))) fun user => ?_
    exact stays_after (keeps_committing fun s =>
      ⟨.call ⟨env, .recordAcceptance user.id user.organizationId
        r.ipAddress r.userAgent⟩, rfl⟩) fun _ => stays_homeOf user
  | termsDecline => exact stays_endSession r (stays_page rfl)
  | logout => exact stays_endSession r (stays_redirect rfl (rooted_cons (c := 'l') rfl (by decide)))
  | setLanguage lang next =>
    refine stays_asUser (stays_redirect rfl (rooted_sameOrigin next)) fun user => ?_
    exact stays_after (keeps_committing fun s => ⟨.call ⟨env, .setLocale user.id (some _)⟩, rfl⟩) fun _ =>
      stays_redirect rfl (rooted_sameOrigin next)
  | loginSubmit email password next =>
    refine stays_after (keeps_catchingOnly _ (keeps_reading _)) fun result => ?_
    cases result with
    | error e => exact stays_page rfl
    | ok user => exact stays_signIn env user fun o ho => rooted_destination next ho
  | googleLogin next =>
    change Stays (if remote.google.enabled = true then _ else _)
    rw [if_neg (by simp [h next rfl])]
    exact stays_redirect rfl (rooted_cons (c := 'l') rfl (by decide))
  | googleCallback code state error => exact stays_googleCallback _ _ _ _
  | signupSubmit organizationName userName email password acceptTerms plan =>
    change Stays (if acceptTerms = "" then _ else _)
    split
    · exact stays_page rfl
    · refine stays_after (keeps_catchingOnly _ (keeps_withTokens fun s =>
        ⟨.call ⟨env, .register organizationName userName email password
          r.ipAddress r.userAgent⟩, rfl⟩)) fun result => ?_
      cases result with
      | error e => exact stays_page rfl
      | ok registered => exact stays_page rfl
  | verifyEmail token plan =>
    refine stays_after (keeps_catchingOnly _ (keeps_withTokens fun s => ⟨.call ⟨env, .verifyEmail token⟩, rfl⟩)) ?_
    intro result
    cases result with
    | error e => exact stays_page rfl
    | ok user =>
      refine stays_signIn env user fun o ho => ?_
      split_ifs
      · exact rooted_slug ho ⟨"/settings/billing?plan=".toList ++ plan.toList, by simp [toString]⟩
      · exact rooted_home ho
  | resendVerification email =>
    refine stays_after (keeps_withTokens fun s => ⟨.call ⟨env, .resendVerification email⟩, rfl⟩) fun result => ?_
    exact stays_page rfl
  | forgotPasswordSubmit email =>
    refine stays_after (keeps_withTokens fun s => ⟨.call ⟨env, .createPasswordResetToken email⟩, rfl⟩) fun result => ?_
    exact stays_page rfl
  | resetPasswordSubmit token newPassword =>
    refine stays_after (keeps_catchingOnly _ (keeps_withTokens fun s =>
      ⟨.call ⟨env, .resetPassword token newPassword⟩, rfl⟩)) fun result => ?_
    cases result with
    | error e => exact stays_page rfl
    | ok user => exact stays_signIn env user fun o ho => rooted_home ho
  | oauthCallback code state =>
    refine stays_after (keeps_reading _) fun asked => ?_
    obtain ⟨organizationId, provider⟩ := asked
    cases organizationId with
    | negSucc n => exact fun s hs => ⟨hs, nofun⟩
    | ofNat organizationId =>
      refine stays_after (keeps_committing fun s =>
        ⟨.call ⟨env, .completeOauthConnection organizationId provider (remote.tokens provider code)⟩, rfl⟩) fun c => ?_
      refine stays_organization fun o ho => stays_redirect rfl (rooted_slug ho ⟨"/settings/storage".toList, ?_⟩)
      simp [toString]

theorem answer_onHost (files : Bucket → String → Option Bytes) (changes : List Change) (env : Env)
    (remote : RemoteServices) (r : Sender) (route : RootRoute) {url : String}
    (h : (answer env remote r route (System.after files changes)).1.body = .redirect url) :
    OnHost (location url) ∨ (∃ next, route = .googleLogin next) ∧ url = GoogleOAuth.authorizationUrl
      remote.google.clientId (remote.google.redirectBase ++ "/auth/google/callback") env.randomToken := by
  by_cases hgoogle : ∃ next, route = .googleLogin next ∧ remote.google.enabled = true
  · obtain ⟨next, rfl, henabled⟩ := hgoogle
    refine Or.inr ⟨⟨next, rfl⟩, ?_⟩
    have hreply : answer env remote r (.googleLogin next) (System.after files changes) =
        (.ofResult ((if remote.google.enabled = true then _ else _ : SystemAction Reply)
          (System.after files changes)).1, _) := rfl
    rw [hreply, if_pos henabled] at h
    cases h
    rfl
  · left
    apply onHost_location
    have hnot : ∀ next, route = .googleLogin next → remote.google.enabled = false :=
      fun next hroute => Bool.eq_false_iff.mpr fun henabled => hgoogle ⟨next, hroute, henabled⟩
    have hstays := (stays_handle env remote r route hnot (System.after files changes) (canonical_after files changes)).2
    unfold answer at h
    cases hresult : (route.handle env remote r (System.after files changes)).1 with
    | ok reply =>
      rw [hresult] at h
      exact hstays reply hresult url h
    | error e =>
      rw [hresult] at h
      exact leads_failure e url h

/-! ## Public pages -/

/-- Where a public page leads, if it does. -/
def ShareResponse.leadsTo : ShareResponse → Option String
  | .unlocked url _ | .other ⟨_, .redirect url, _⟩ => some url
  | _ => none

theorem rooted_ofFailure {e : Failure} {url : String}
    (h : (ShareResponse.other (.ofFailure e)).leadsTo = some url) : Rooted url := by
  cases e with
  | notAuthenticated nextPath =>
    obtain rfl := Option.some.inj h
    exact rooted_append (toString "/login?next=") nextPath (c := 'l') rfl (by decide)
  | termsNotAccepted =>
    obtain rfl := Option.some.inj h
    exact rooted_cons (c := 't') rfl (by decide)
  | _ => cases h

theorem rooted_respond (mac : String → String) (presented : Option String) (request : PublicRequest) {w : World}
    {url : String} (h : (SharedPages.respond mac env presented request w).1.leadsTo = some url) : Rooted url := by
  rw [SharedPages.respond_apply] at h
  cases hrun : (SharedPages.handle mac env presented request w).1 with
  | error e =>
    simp only [hrun] at h
    exact rooted_ofFailure h
  | ok response =>
    simp only [hrun] at h
    cases SharedPages.handle_ok hrun with
    | unlocked =>
      obtain rfl := Option.some.inj h
      exact rooted_append (toString "/share/") _ (c := 's') rfl (by decide)
    | _ => cases h

/-! ## All redirects -/

/-- Whatever has happened and whatever is asked for, also by a `next` that was made up, a reply that is
a redirect leads a browser to a path of the host, or to the sign-in page of Google. -/
theorem redirects_onHost (files : Bucket → String → Option Bytes) (changes : List Change) (env : Env) :
    (∀ (remote : RemoteServices) (r : Sender) (route : RootRoute) (url : String),
      (answer env remote r route (System.after files changes)).1.body = .redirect url →
        OnHost (location url) ∨ (∃ next, route = .googleLogin next) ∧ url = GoogleOAuth.authorizationUrl
          remote.google.clientId (remote.google.redirectBase ++ "/auth/google/callback") env.randomToken) ∧
    ∀ (mac : String → String) (presented : Option String) (request : PublicRequest) (url : String),
      (SharedPages.respond mac env presented request (System.after files changes).world).1.leadsTo = some url →
        OnHost (location url) := by
  refine ⟨fun remote r route url h => answer_onHost files changes env remote r route h, ?_⟩
  intro mac presented request url h
  exact onHost_location (rooted_respond mac presented request h)

/-- A visitor without cookies, and services that know nobody. -/
def visitor : Sender := ⟨⟨none, none, none, none⟩, "", none, none⟩

def noServices : RemoteServices := ⟨⟨"", "", "", fun _ => .error .httpError⟩, fun _ _ => none⟩

/-- Alice shares her lease with a password. -/
def leaseProtected : List Change := leaseDrafts.map .call ++
  [.call ⟨.offline 2 "first", .createLink 1 .contract true 24 "Alice" [] (some "secret")⟩]

/-- A browser would take the backslash for a second slash; and a reviewer is led back to the link. -/
theorem redirects_onHost_backslash :
    location "/\\evil.test" = "/%5Cevil.test".toList ∧ OnHost (location "/\\evil.test") ∧
      OnHost (location "/share/first") := by
  refine ⟨by decide +kernel, ?_, ?_⟩
  · have hreply : (answer (.offline 1 "") noServices visitor (.setLanguage "fr" "/\\evil.test")
        (System.after (fun _ _ => none) [])).1.body = .redirect "/\\evil.test" := by decide +kernel
    rcases (redirects_onHost _ _ _).1 _ _ _ _ hreply with h | ⟨⟨next, h⟩, _⟩
    · exact h
    · cases h
  · have hunlocked : (SharedPages.respond id (.offline 3 "") none (.unlock "first" "secret")
        (System.after (fun _ _ => none) leaseProtected).world).1.leadsTo = some "/share/first" := by decide +kernel
    exact (redirects_onHost _ _ _).2 _ _ _ _ hunlocked

end Orchestract
