import Orchestract.Domain.Integers
import Orchestract.Infrastructure.DatabaseUrls
import Orchestract.Storage.Working
import Orchestract.Web.Redirects

/-!
# The way back from a drive

Connecting a drive leaves for its provider with a redirect URI and a state, and the browser comes back
to the one with the other. `app/infrastructure/storage` writes the URI with a dash where
`/oauth/{provider}/callback` reads the provider with an underscore, so that only one of the two drives
comes back to anything.
-/

namespace Orchestract

set_option autoImplicit false

open DatabaseUrls (before after)
open UrlEncoding (Parameters parseQsl urlencode)

/-! ## Leaving -/

def GoogleDriveConnector.getAuthorizationUrl (clientId redirectUri state : String) : String :=
  "https://accounts.google.com/o/oauth2/v2/auth" ++ "?" ++ String.ofList (urlencode
    [("client_id".toList, clientId.toList), ("redirect_uri".toList, redirectUri.toList),
      ("response_type".toList, "code".toList),
      ("scope".toList, "https://www.googleapis.com/auth/drive.readonly".toList),
      ("access_type".toList, "offline".toList), ("prompt".toList, "consent".toList), ("state".toList, state.toList)])

def OneDriveConnector.getAuthorizationUrl (clientId redirectUri state : String) : String :=
  "https://login.microsoftonline.com/common/oauth2/v2.0/authorize" ++ "?" ++ String.ofList (urlencode
    [("client_id".toList, clientId.toList), ("redirect_uri".toList, redirectUri.toList),
      ("response_type".toList, "code".toList), ("response_mode".toList, "query".toList),
      ("scope".toList, "offline_access Files.Read".toList), ("state".toList, state.toList)])

structure DriveSettings where
  oauthRedirectBase : String
  googleOauthClientId : String
  microsoftOauthClientId : String
deriving DecidableEq, Repr

namespace DriveSettings

/-- `build_file_connector` and `get_authorization_url`. It is not asked for the providers that have no
connector. -/
def authorizationUrl (settings : DriveSettings) : StorageProvider → String → String
  | .googleDrive, state => GoogleDriveConnector.getAuthorizationUrl settings.googleOauthClientId
      (settings.oauthRedirectBase ++ "/oauth/google-drive/callback") state
  | .onedrive, state => OneDriveConnector.getAuthorizationUrl settings.microsoftOauthClientId
      (settings.oauthRedirectBase ++ "/oauth/onedrive/callback") state
  | _, _ => ""

def into (settings : DriveSettings) (env : Env) : Env := { env with authorizationUrl := settings.authorizationUrl }

end DriveSettings

/-! ## Coming back -/

def parametersOf (url : String) : Parameters := parseQsl (after '?' url.toList)

/-- The values of a parameter, in order. -/
def valuesOf (name : String) (ps : Parameters) : List String :=
  (ps.filter fun p => p.1 = name.toList).map fun p => String.ofList p.2

/-- What OAuth asks of a provider that was shown `url`: it sends the browser to the redirect URI it was
given, with a code and with the state it was given, and may add parameters of its own. -/
structure Returns (url location code : String) : Prop where
  redirectUri : valuesOf "redirect_uri" (parametersOf url) = [String.ofList (before '?' location.toList)]
  code : valuesOf "code" (parametersOf location) = [code]
  state : valuesOf "state" (parametersOf location) = valuesOf "state" (parametersOf url)

/-- What FastAPI finds in a request for `/oauth/{provider}/callback`. -/
inductive CallbackRequest where
  | elsewhere
  | invalid
  | valid (provider : StorageProvider) (code state : String)
deriving DecidableEq, Repr

/-- The path is what follows the address of the application. Of a repeated parameter the last value counts. -/
def CallbackRequest.ofLocation (base location : String) : CallbackRequest :=
  match ((before '?' location.toList).drop base.toList.length).splitOn '/' with
  | [start, oauth, provider, callback] =>
    if start = [] ∧ oauth = "oauth".toList ∧ provider ≠ [] ∧ callback = "callback".toList then
      match StorageProvider.ofValue (String.ofList provider), (valuesOf "code" (parametersOf location)).getLast?,
        (valuesOf "state" (parametersOf location)).getLast? with
      | some provider, some code, some state => .valid provider code state
      | _, _, _ => .invalid
    else .elsewhere
  | _ => .elsewhere

/-- The reply to a location; parameters that do not validate are FastAPI's own 422. -/
inductive CallbackReply where
  | elsewhere
  | unprocessable
  | replied (reply : Reply)
deriving DecidableEq, Repr

/-- The browser follows the provider to the application. `oauth_callback` makes no use of the provider
in the path. -/
def follow (settings : DriveSettings) (env : Env) (remote : RemoteServices) (r : Sender) (location : String)
    (s : System) : CallbackReply × System :=
  match CallbackRequest.ofLocation settings.oauthRedirectBase location with
  | .elsewhere => (.elsewhere, s)
  | .invalid => (.unprocessable, s)
  | .valid _ code state =>
    let (reply, s) := answer env remote r (.oauthCallback code state) s
    (.replied reply, s)

/-- The connections of an organization to a provider. -/
def ofProvider (organizationId : Nat) (provider : StorageProvider) (c : StorageConnection) : Bool :=
  c.organizationId = organizationId && c.provider = provider

/-- What a return leaves: one connection of the organization to the drive, with the tokens, and the
rest as it was. -/
structure Connects (organizationId : Nat) (provider : StorageProvider) (tokens : OAuthTokens) (s s' : System) :
    Prop where
  connected : ∃ c, s'.world.db.connections.select (ofProvider organizationId provider) = [c] ∧
    c.status = .connected ∧ c.credential = some (StorageService.tokensToSecrets tokens)
  others : s'.world.db.connections.select (fun c => !ofProvider organizationId provider c) =
    s.world.db.connections.select fun c => !ofProvider organizationId provider c
  rest : ∃ t, s' = { s with world := { s.world with db := { s.world.db with connections := t } } }

/-! ## Addresses -/

theorem before_mark {c : Char} {xs : List Char} (h : c ∉ xs) (ys : List Char) : before c (xs ++ c :: ys) = xs := by
  unfold before
  rw [List.takeWhile_append_of_pos fun d hd => by simpa using fun heq : d = c => h (heq ▸ hd)]
  simp

theorem after_mark {c : Char} {xs : List Char} (h : c ∉ xs) (ys : List Char) : after c (xs ++ c :: ys) = ys := by
  unfold after
  rw [List.dropWhile_append_of_pos fun d hd => by simpa using fun heq : d = c => h (heq ▸ hd)]
  simp

theorem before_address {address : String} (h : '?' ∉ address.toList) (query : String) :
    before '?' (address ++ "?" ++ query).toList = address.toList := by
  have htext : (address ++ "?" ++ query).toList = address.toList ++ '?' :: query.toList := by simp
  rw [htext, before_mark h]

theorem parametersOf_address {address : String} (h : '?' ∉ address.toList) (ps : Parameters) :
    parametersOf (address ++ "?" ++ String.ofList (urlencode ps)) = ps := by
  have htext : (address ++ "?" ++ String.ofList (urlencode ps)).toList = address.toList ++ '?' :: urlencode ps := by
    simp
  unfold parametersOf
  rw [htext, after_mark h, UrlEncoding.parseQsl_urlencode]

/-- The redirect URI and the state of a drive, as its provider reads them. -/
theorem parametersOf_authorizationUrl (settings : DriveSettings) (state : String) {provider : StorageProvider}
    (h : provider.isReadOnly = true) : ∃ path,
      (provider = .googleDrive ∧ path = "/oauth/google-drive/callback" ∨
        provider = .onedrive ∧ path = "/oauth/onedrive/callback") ∧
      valuesOf "redirect_uri" (parametersOf (settings.authorizationUrl provider state)) =
        [settings.oauthRedirectBase ++ path] ∧
      valuesOf "state" (parametersOf (settings.authorizationUrl provider state)) = [state] := by
  cases provider with
  | googleDrive =>
    refine ⟨_, Or.inl ⟨rfl, rfl⟩, ?_⟩
    unfold DriveSettings.authorizationUrl GoogleDriveConnector.getAuthorizationUrl
    rw [parametersOf_address (by decide)]
    simp [valuesOf]
  | onedrive =>
    refine ⟨_, Or.inr ⟨rfl, rfl⟩, ?_⟩
    unfold DriveSettings.authorizationUrl OneDriveConnector.getAuthorizationUrl
    rw [parametersOf_address (by decide)]
    simp [valuesOf]
  | _ => cases h

/-! ## The state -/

theorem digitsValue_toDigits (n : Nat) : Text.digitsValue (Nat.toDigits 10 n) = n := by
  have hdigits : ∀ c ∈ Nat.toDigits 10 n, c.isDigit = true :=
    fun c hc => Nat.isDigit_of_mem_toDigits (by decide) (by decide) hc
  calc Text.digitsValue (Nat.toDigits 10 n) = Nat.ofDigitChars 10 (Nat.toDigits 10 n) 0 := by
        unfold Text.digitsValue Nat.ofDigitChars
        apply List.foldl_ext
        intro m c hc
        rw [Text.decimalDigit_of_isDigit (hdigits c hc)]
        rfl
    _ = n := Nat.ofDigitChars_ten_toDigits

/-- `int` reads what a number is written as, up to 4300 digits. -/
theorem int_toDigits {n : Nat} (h : (Nat.toDigits 10 n).length ≤ 4300) :
    Text.int (Nat.toDigits 10 n) = some (n : Int) := by
  have hdigits : ∀ c ∈ Nat.toDigits 10 n, (Text.decimalDigit c).isSome = true := by
    intro c hc
    rw [Text.decimalDigit_of_isDigit (Nat.isDigit_of_mem_toDigits (by decide) (by decide) hc)]
    rfl
  have hne : Nat.toDigits 10 n ≠ [] := List.ne_nil_of_length_pos Nat.length_toDigits_pos
  let numeral : Text.IntegerNumeral :=
    { before := [], sign := [], groups := [Nat.toDigits 10 n], after := [], blank := by simp, signs := by simp
      grouped := ⟨by simp, List.forall_mem_singleton.mpr ⟨hne, hdigits⟩, by simpa using h⟩ }
  have htext : numeral.text = Nat.toDigits 10 n := by
    simp [numeral, Text.IntegerNumeral.text, Text.IntegerNumeral.digits, List.intercalate]
  have hvalue : numeral.value = (n : Int) := by
    simp [numeral, Text.IntegerNumeral.value, digitsValue_toDigits]
  rw [← htext, numeral.int_text, hvalue]

/-- The organization and the provider that a drive was asked for come back. -/
theorem parseOauthState_state {organizationId : Nat} (h : (Nat.toDigits 10 organizationId).length ≤ 4300)
    (provider : StorageProvider) (w : World) : RootRoutes.parseOauthState s!"{organizationId}:{provider.value}" w =
      .ok ((organizationId : Int), provider) := by
  have htext : (s!"{organizationId}:{provider.value}").toList =
      Nat.toDigits 10 organizationId ++ ':' :: provider.value.toList := by
    simp [toString, Nat.repr]
  have hcolon : ∀ c ∈ Nat.toDigits 10 organizationId, decide (c ≠ ':') = true := by
    intro c hc
    have hdigit := Nat.isDigit_of_mem_toDigits (by decide) (by decide) hc
    rw [decide_eq_true_iff]
    rintro rfl
    exact absurd hdigit (by decide)
  have hspan : (s!"{organizationId}:{provider.value}").toList.span (· ≠ ':') =
      (Nat.toDigits 10 organizationId, ':' :: provider.value.toList) := by
    rw [htext, List.span_eq_takeWhile_dropWhile, List.takeWhile_append_of_pos hcolon,
      List.dropWhile_append_of_pos hcolon]
    simp
  have hprovider : StorageProvider.ofValue provider.value = some provider := by
    cases provider <;> rfl
  unfold RootRoutes.parseOauthState
  rw [hspan]
  simp only [int_toDigits h, String.ofList_toList, hprovider]

/-! ## The connection -/

theorem ofProvider_iff {organizationId : Nat} {provider : StorageProvider} {c : StorageConnection} :
    ofProvider organizationId provider c = true ↔ c.organizationId = organizationId ∧ c.provider = provider := by
  simp [ofProvider]

/-- A connection is its organization's only one to its provider. -/
theorem select_ofProvider {t : Table StorageConnection} {c : StorageConnection} (hc : c ∈ t.rows) :
    t.select (ofProvider c.organizationId c.provider) = [c] := by
  apply Table.select_unique hc (ofProvider_iff.mpr ⟨rfl, rfl⟩)
    (k := ⟨"uq_conn_org_provider", c.organizationId, c.provider.value⟩)
  intro r _ hr
  obtain ⟨horganization, hprovider⟩ := ofProvider_iff.mp hr
  rw [← horganization, ← hprovider]
  exact List.mem_singleton_self _

/-- The connection that a return is saved in, and the connections with it. -/
inductive Existing (env : Env) (organizationId : Nat) (provider : StorageProvider) (w : World) :
    Option StorageConnection → StorageConnection → Table StorageConnection → Prop
  | found (c : StorageConnection) : Existing env organizationId provider w (some c) c w.db.connections
  | added {c : StorageConnection} {t : Table StorageConnection} : add (StorageConnection.create organizationId
      provider (StorageService.driveTitle provider) .empty env.now) w =
        .ok (c, { w with db := { w.db with connections := t } }) → Existing env organizationId provider w none c t

variable {organizationId : Nat} {provider : StorageProvider} {w : World}

theorem exists_existing (env : Env) (horganization : (w.db.organizations.get organizationId).isSome = true) :
    ∃ existing c t, Existing env organizationId provider w existing c t ∧
      StorageService.getByOrgAndProvider organizationId provider w = .ok existing ∧
      c ∈ t.rows ∧ ofProvider organizationId provider c = true ∧
      t.select (fun c => !ofProvider organizationId provider c) =
        w.db.connections.select fun c => !ofProvider organizationId provider c := by
  by_cases h : ∃ c ∈ w.db.connections.rows, c.organizationId = organizationId ∧ c.provider = provider
  · obtain ⟨c, hc, rfl, rfl⟩ := h
    exact ⟨some c, c, _, .found c, oneOrNone_of_singleton (select_ofProvider hc), hc,
      ofProvider_iff.mpr ⟨rfl, rfl⟩, rfl⟩
  · have hmissing : w.db.connections.select (ofProvider organizationId provider) = [] :=
      List.filter_eq_nil_iff.mpr fun c hc hp => h ⟨c, hc, ofProvider_iff.mp hp⟩
    have hinsert : ∃ p, w.db.connections.insert (StorageConnection.create organizationId provider
        (StorageService.driveTitle provider) .empty env.now) = some p := by
      refine Table.insert_isSome_iff.mpr fun r hr k hk hk' => ?_
      obtain rfl := List.mem_singleton.mp hk
      obtain ⟨_, horg, hvalue⟩ := UniqueKey.mk.inj (List.mem_singleton.mp hk')
      exact h ⟨r, hr, horg, StorageProvider.value_injective hvalue⟩
    obtain ⟨⟨c, t⟩, ht⟩ := hinsert
    obtain ⟨hnew, _, _⟩ := Table.insert_eq_some ht
    have hc : ofProvider organizationId provider c = true := by
      rw [hnew]
      exact ofProvider_iff.mpr ⟨rfl, rfl⟩
    have hadd : add _ w = .ok (c, { w with db := { w.db with connections := t } }) :=
      (add_ok_iff _ _ _ _).mpr ⟨refsExist_connection_iff.mpr horganization, t, ht, rfl⟩
    exact ⟨none, c, t, .added hadd, oneOrNone_of_nil hmissing, (Table.mem_insert_iff ht).mpr (Or.inr rfl), hc,
      Table.select_insert ht (by rw [hc]; rfl)⟩

/-- A return with tokens succeeds, whether the organization had the drive or not. -/
theorem completeOauth_connects (env : Env) (tokens : OAuthTokens) (hdrive : provider.isReadOnly = true)
    (horganization : (w.db.organizations.get organizationId).isSome = true) :
    ∃ c t, StorageService.completeOauthConnection env organizationId provider (some tokens) w =
        .ok (c, { w with db := { w.db with connections := t } }) ∧ c.organizationId = organizationId ∧
      t.select (ofProvider organizationId provider) = [c] ∧ c.status = .connected ∧
      c.credential = some (StorageService.tokensToSecrets tokens) ∧
      t.select (fun c => !ofProvider organizationId provider c) =
        w.db.connections.select fun c => !ofProvider organizationId provider c := by
  obtain ⟨existing, c, t₁, hexisting, hlookup, hmem, hc, hothers⟩ :=
    @exists_existing organizationId provider w env horganization
  obtain ⟨horg, hprovider⟩ := ofProvider_iff.mp hc
  let saved := (c.setCredential (StorageService.tokensToSecrets tokens)).markConnected
  have hsaved : ofProvider organizationId provider saved = true := hc
  obtain ⟨w', hsave⟩ := save_same_keys (w := { w with db := { w.db with connections := t₁ } }) (a := saved) hmem rfl
    rfl (refsExist_connection_iff.mpr (horg.symm ▸ horganization))
  obtain ⟨_, t, ht, rfl⟩ := (save_ok_iff _ _ _).mp hsave
  refine ⟨saved, t, ?_, horg, ?_, rfl, rfl, ?_⟩
  · unfold StorageService.completeOauthConnection
    simp only [Work.bind_ok_iff, Work.lift_ok_iff, if_pos hdrive]
    refine ⟨(), w, ⟨rfl, rfl⟩, tokens, w, ⟨rfl, rfl⟩, existing, w, ⟨hlookup, rfl⟩, ?_⟩
    cases hexisting with
    | found =>
      simp only [Work.bind_ok_iff, Work.pure_ok_iff]
      exact ⟨c, w, ⟨rfl, rfl⟩, (), _, hsave, rfl, rfl⟩
    | added hadd =>
      simp only [Work.bind_ok_iff, Work.pure_ok_iff]
      exact ⟨c, _, hadd, (), _, hsave, rfl, rfl⟩
  · have honly := select_ofProvider (Table.mem_of_update ht hmem rfl)
    rw [(ofProvider_iff.mp hsaved).1, (ofProvider_iff.mp hsaved).2] at honly
    exact honly
  · refine (Table.select_update ht (fun r hr hid => ?_) (by rw [hsaved]; rfl)).trans hothers
    obtain rfl := Table.eq_of_id hr hmem hid
    rw [hc]
    rfl

/-! ## The way -/

variable {settings : DriveSettings} {env : Env} {remote : RemoteServices} {r : Sender} {s : System}
  {location code state : String}

/-- OneDrive comes back to the route, Google Drive to a provider that is none. -/
theorem ofLocation_returns {path : String}
    (hreturns : String.ofList (before '?' location.toList) = settings.oauthRedirectBase ++ path)
    (hcode : valuesOf "code" (parametersOf location) = [code])
    (hstate : valuesOf "state" (parametersOf location) = [state]) :
    (path = "/oauth/google-drive/callback" →
      CallbackRequest.ofLocation settings.oauthRedirectBase location = .invalid) ∧
    (path = "/oauth/onedrive/callback" →
      CallbackRequest.ofLocation settings.oauthRedirectBase location = .valid .onedrive code state) := by
  have hpath : (before '?' location.toList).drop settings.oauthRedirectBase.toList.length = path.toList := by
    rw [← String.toList_ofList (l := before '?' location.toList), hreturns, String.toList_append, List.drop_left]
  unfold CallbackRequest.ofLocation
  rw [hpath, hcode, hstate]
  constructor
  · rintro rfl
    rfl
  · rintro rfl
    rfl

theorem oauthCallback_connects (env : Env) (remote : RemoteServices) (code : String) {o : Organization}
    (hid : (Nat.toDigits 10 o.id).length ≤ 4300) (ho : o ∈ s.world.db.organizations.rows) :
    match remote.tokens .onedrive code with
    | none => answer env remote r (.oauthCallback code s!"{o.id}:{StorageProvider.onedrive.value}") s =
        (.ofFailure (.crashed .externalError), s)
    | some tokens => ∃ s', answer env remote r (.oauthCallback code s!"{o.id}:{StorageProvider.onedrive.value}") s =
        (.redirect s!"/{o.slug}/settings/storage", s') ∧ Connects o.id .onedrive tokens s s' := by
  have hget : s.world.db.organizations.get o.id = some o := Table.get_eq_some_iff.mpr ⟨ho, rfl⟩
  have hrun : ∀ tokens, remote.tokens .onedrive code = tokens →
      RootRoutes.oauthCallback env remote.tokens code s!"{o.id}:{StorageProvider.onedrive.value}" s =
        (do
          let connection ← committing (StorageService.completeOauthConnection env o.id .onedrive tokens)
          let organization ← reading (OrganizationService.get connection.organizationId)
          return .redirect s!"/{organization.slug}/settings/storage" : SystemAction Reply) s := by
    rintro _ rfl
    unfold RootRoutes.oauthCallback
    rw [reading_bind, parseOauthState_state hid]
  have hanswer : answer env remote r (.oauthCallback code s!"{o.id}:{StorageProvider.onedrive.value}") s =
      (.ofResult (RootRoutes.oauthCallback env remote.tokens code s!"{o.id}:{StorageProvider.onedrive.value}" s).1,
        (RootRoutes.oauthCallback env remote.tokens code s!"{o.id}:{StorageProvider.onedrive.value}" s).2) := rfl
  rw [hanswer]
  cases htokens : remote.tokens .onedrive code with
  | none =>
    rw [hrun none htokens, committing_bind]
    rfl
  | some tokens =>
    obtain ⟨c, t, hok, horg, honly, hstatus, hcredential, hothers⟩ :=
      @completeOauth_connects o.id .onedrive s.world env tokens rfl (by rw [hget]; rfl)
    have hfound : OrganizationService.get c.organizationId
        { s.world with db := { s.world.db with connections := t } } = .ok o := by
      rw [horg]
      exact (require_ok_iff _ _ _ _).mpr hget
    rw [hrun _ htokens, committing_bind, hok]
    dsimp only
    rw [reading_bind, hfound]
    exact ⟨_, rfl, ⟨c, honly, hstatus, hcredential⟩, hothers, t, rfl⟩

theorem organization_stays (files : Bucket → String → Option Bytes) (changes more : List Change) {o : Organization}
    (ho : o ∈ (System.after files changes).world.db.organizations.rows) :
    ∃ o' ∈ (System.after files (changes ++ more)).world.db.organizations.rows, o'.id = o.id := by
  have hheld := (holds_run (System.after files changes) more).organizations
  obtain ⟨o', hget, _⟩ := hheld o.id o (Table.get_eq_some_iff.mpr ⟨ho, rfl⟩)
  obtain ⟨hmem, hid⟩ := Table.get_eq_some_iff.mp hget
  rw [System.after, Runs.run_append]
  exact ⟨o', hmem, hid⟩

/-- A drive that an organization asked for comes back, whatever has happened in between. From OneDrive
the browser reaches the callback: with tokens for the code the organization has the drive connected
and its storage settings are shown, and without them nothing is changed. From Google Drive it never
does, and nothing is changed. -/
theorem drive_returns (files : Bucket → String → Option Bytes) (changes more : List Change) {o : Organization}
    (ho : o ∈ (System.after files changes).world.db.organizations.rows)
    (hid : (Nat.toDigits 10 o.id).length ≤ 4300) {url : String}
    (hstart : StorageService.startOauthConnection (settings.into env) o.id provider (System.after files changes).world =
      .ok url) (hreturns : Returns url location code) (later : Env) (remote : RemoteServices) (r : Sender) :
    let s := System.after files (changes ++ more)
    (provider = .googleDrive ∧ follow settings later remote r location s = (.unprocessable, s)) ∨
    (provider = .onedrive ∧ match remote.tokens .onedrive code with
      | none => follow settings later remote r location s = (.replied (.ofFailure (.crashed .externalError)), s)
      | some tokens => ∃ kept ∈ s.world.db.organizations.rows, kept.id = o.id ∧
          ∃ s', follow settings later remote r location s =
              (.replied (.redirect s!"/{kept.slug}/settings/storage"), s') ∧
            Connects o.id .onedrive tokens s s') := by
  intro s
  obtain ⟨o', ho', hid'⟩ := organization_stays files changes more ho
  unfold StorageService.startOauthConnection at hstart
  split at hstart
  · rename_i hdrive
    obtain rfl := Except.ok.inj hstart
    obtain ⟨path, hprovider, hredirect, hstate⟩ := parametersOf_authorizationUrl settings
      s!"{o.id}:{provider.value}" hdrive
    have hlocation : String.ofList (before '?' location.toList) = settings.oauthRedirectBase ++ path :=
      (List.cons.inj (hreturns.redirectUri.symm.trans hredirect)).1
    have hrequest := ofLocation_returns hlocation hreturns.code (hreturns.state.trans hstate)
    rcases hprovider with ⟨rfl, rfl⟩ | ⟨rfl, rfl⟩
    · left
      refine ⟨rfl, ?_⟩
      unfold follow
      rw [hrequest.1 rfl]
    · right
      refine ⟨rfl, ?_⟩
      have hconnects := oauthCallback_connects (r := r) later remote code (hid'.symm ▸ hid) ho'
      unfold follow
      rw [hrequest.2 rfl]
      rw [hid'] at hconnects
      cases htokens : remote.tokens .onedrive code with
      | none =>
        rw [htokens] at hconnects
        dsimp only at hconnects ⊢
        rw [hconnects]
      | some tokens =>
        rw [htokens] at hconnects
        obtain ⟨s', hanswer, hconnects⟩ := hconnects
        refine ⟨o', ho', hid', s', ?_, hconnects⟩
        dsimp only
        rw [hanswer]
  · cases hstart

/-! ## Acme asks for OneDrive -/

def localDrives : DriveSettings := ⟨"http://127.0.0.1:8000", "google-client", "microsoft-client"⟩

/-- Every code is exchanged for the same tokens. -/
def driveServers : RemoteServices where
  google := ⟨"", "", "", fun _ => .error .httpError⟩
  tokens _ _ := some ⟨"access", some "refresh", none⟩

def acmeOpens : List Change := [.call ⟨.offline 1 "", .createOrganization "Acme"⟩]

def acmeReturns : String := "http://127.0.0.1:8000/oauth/onedrive/callback" ++ "?" ++
  String.ofList (urlencode [("code".toList, "M.C107".toList), ("state".toList, "1:onedrive".toList)])

theorem returns_acme : Returns (localDrives.authorizationUrl .onedrive "1:onedrive") acmeReturns "M.C107" := by
  have hparameters : parametersOf acmeReturns =
      [("code".toList, "M.C107".toList), ("state".toList, "1:onedrive".toList)] := by
    unfold acmeReturns
    exact parametersOf_address (by decide) _
  have hbefore : before '?' acmeReturns.toList = "http://127.0.0.1:8000/oauth/onedrive/callback".toList := by
    unfold acmeReturns
    exact before_address (by decide) _
  obtain ⟨_, ⟨h, _⟩ | ⟨_, rfl⟩, hredirect, hstate⟩ :=
    parametersOf_authorizationUrl localDrives "1:onedrive" (rfl : StorageProvider.onedrive.isReadOnly = true)
  · cases h
  · refine ⟨?_, ?_, ?_⟩
    · rw [hredirect, hbefore]
      rfl
    · rw [hparameters]
      rfl
    · rw [hstate, hparameters]
      rfl

theorem drive_returns_acme : ∃ s',
    follow localDrives (.offline 2 "") driveServers visitor acmeReturns (System.after (fun _ _ => none) acmeOpens) =
        (.replied (.redirect "/acme/settings/storage"), s') ∧
      Connects 1 .onedrive ⟨"access", some "refresh", none⟩ (System.after (fun _ _ => none) acmeOpens) s' := by
  have hrows : (System.after (fun _ _ => none) acmeOpens).world.db.organizations.rows =
      [acme] := by decide +kernel
  have hstart : StorageService.startOauthConnection (localDrives.into (.offline 1 "")) acme.id .onedrive
      (System.after (fun _ _ => none) acmeOpens).world = .ok (localDrives.authorizationUrl .onedrive "1:onedrive") := rfl
  obtain ⟨h, _⟩ | ⟨_, o, ho, _, s', hfollow, hconnects⟩ := drive_returns (fun _ _ => none) acmeOpens [] (o := acme)
    (by rw [hrows]; exact List.mem_singleton_self _) (by decide) hstart returns_acme (.offline 2 "") driveServers visitor
  · cases h
  · rw [List.append_nil] at ho hfollow hconnects
    rw [hrows] at ho
    obtain rfl := List.mem_singleton.mp ho
    exact ⟨s', hfollow, hconnects⟩

end Orchestract
