import Fincore.Auth.Ownership
import Fincore.Identity.WebAuthn
import Fincore.Lib.Text
import Mathlib

/-
  The `/oauth/authorize` handler of `services/identity-service/cmd/identity-service/main.go`.

  The handler calls the auth service with the context of the request, so that no metadata of the
  browser is sent along. Its calls run one after the other. What the JSON gateway does with a
  request is left out.

  Key definitions include:
    * `Site`, `Request` and `State`
    * `Site.errorRedirect`
    * `Site.authorize`
    * `Site.Issues`

  Main results:
    * `base_of_redirect`
    * `codes_authorize`
    * `not_signedIn_by_login`
-/

----
-- Pages And Requests
----

namespace Fincore.Identity

open Auth AuthService
open WebAuthn (BrowserSession)

/- `authorizePageData` -/
structure PageData where
  clientID : String
  redirectURI : String
  scope : String
  state : String
  codeChallenge : String
  codeChallengeMethod : String
  csrfToken : String
  loggedIn : Bool
  error : String
  deriving DecidableEq

/- The fields of a page, from the query or the form. -/
def PageData.read (get : String → String) (csrfToken : String) (loggedIn : Bool) : PageData where
  clientID := trimSpace (get "client_id")
  redirectURI := trimSpace (get "redirect_uri")
  scope := trimSpace (get "scope")
  state := trimSpace (get "state")
  codeChallenge := trimSpace (get "code_challenge")
  codeChallengeMethod :=
    if trimSpace (get "code_challenge_method") = "" then "S256"
    else trimSpace (get "code_challenge_method")
  csrfToken := csrfToken
  loggedIn := loggedIn
  error := ""

/- The message for `OAuthAuthorize`. -/
def PageData.request (data : PageData) : AuthorizeRequest where
  responseType := "code"
  clientID := data.clientID
  redirectURI := data.redirectURI
  scope := data.scope
  state := data.state
  codeChallenge := data.codeChallenge
  codeChallengeMethod := data.codeChallengeMethod

/-
  A request. `form` is what `ParseForm` reads, if it can; `formValue` also reads the fields of a
  multipart body.
-/
structure Request where
  accept : String
  method : String
  query : String → String
  form : Option (String → String)
  formValue : String → String
  sessionCookie : Option String
  csrfCookie : Option String

/- A parameter as the branch of the method reads it. -/
def Request.param (r : Request) (name : String) : String :=
  trimSpace (if r.method = "POST" then r.form.getD r.query name else r.query name)

/- The answers, without their cookies. -/
inductive Answer where
  | redirect (location : String)
  | page (data : PageData)
  | failed (status : Nat) (body : String)
  | forwarded
  deriving DecidableEq

/- The clocks and the random texts of one request. -/
structure Env where
  now : Time
  csrf : Option String
  sessionID : Option String
  sessionNow : Time
  began : Time
  login : Auth.Env
  authorize : Auth.Env

/- The tables of the auth service and the browser sessions. -/
structure State where
  db : Db
  browser : Table BrowserSession.id

/- `browserSessionStore.get` -/
def State.session (st : State) (now : Time) (id : String) : Option BrowserSession :=
  if trimSpace id = "" then none
  else (st.browser.lookup id).filter (fun s => now < s.expiresAt)

/- `browserSessionStore.del` -/
def State.del (st : State) (id : String) : State :=
  if trimSpace id = "" then st
  else { st with browser := st.browser.filter (fun s => s.id ≠ id) }

/- `browserSessionStore.put`; a taken identifier is refused. -/
def State.put (st : State) (env : Env) (userID accessToken : String) : State :=
  match env.sessionID with
  | none => st
  | some id =>
    if trimSpace accessToken = "" ∨ (st.browser.lookup id).isSome then st
    else { st with
      browser := st.browser.insert
        ⟨id, userID, trimSpace accessToken, env.sessionNow + 1800000000000⟩ }

----
-- The Site
----

/- The members of the claims of `CreateToken`, with the value of those that are strings. -/
def jwtClaims (payload : TokenPayload) : List (String × Option String) :=
  [("roles", none), ("permissions", none)] ++
    (if payload.userID = "" then [] else [("sub", some payload.userID)]) ++
      [("exp", none), ("iat", none)]

/-
  The auth service, the user agent of the connection to it, and what the handler takes from its
  libraries: `http.Redirect` writes `location`, `base` takes the query off, and `claims` decodes the
  middle part of a token.
-/
structure Site where
  auth : Service
  userAgent : List String
  location : String → String
  base : String → String
  claims : String → Option (List (String × Option String))
  base_location : ∀ uri params, (auth.parseURL uri).isSome →
    base (location (auth.withQuery uri params)) = base (location (auth.withQuery uri []))
  minted : ∀ payload token, auth.createToken payload = .ok token →
    ∃ header middle signature, Text.split '.' token = [header, middle, signature] ∧
      claims middle = some (jwtClaims payload)

variable (site : Site)

/- A URI as a `Location`, without its query. -/
def Site.target (uri : String) : String := site.base (site.location (site.auth.withQuery uri []))

/- No header of the browser's request is passed on. -/
def Site.metadata : Metadata := ⟨[], site.userAgent, []⟩

/- The field that the handler decodes a token for. -/
def Site.tokenUser (token : String) : String :=
  match Text.split '.' token with
  | [_, middle, _] =>
    match site.claims middle with
    | none => ""
    | some members =>
      ((members.filter (fun m => Text.equalFold m.1 "user_id")).filterMap Prod.snd).getLastD ""
  | _ => ""

/- `oauth2ErrorRedirect` -/
def Site.errorRedirect (redirectURI state code desc : String) : Option String :=
  match site.auth.parseURL (trimSpace redirectURI) with
  | none => none
  | some u =>
    if trimSpace u.fragment ≠ "" then none
    else some (site.auth.withQuery (trimSpace redirectURI)
      (("error", code) :: ((if trimSpace desc = "" then [] else [("error_description", desc)]) ++
        if trimSpace state = "" then [] else [("state", state)])))

/- `oauth2ErrorFromGRPC` -/
def Site.errorFromGRPC (e : Status) : String × String :=
  let msg := trimSpace e.message
  match e.code with
  | .invalidArgument =>
    if "scope".toList <:+: (site.auth.toLower msg).toList then ("invalid_scope", msg)
    else ("invalid_request", msg)
  | .permissionDenied => ("access_denied", msg)
  | .unauthenticated => ("unauthorized_client", msg)
  | .notFound => ("unauthorized_client", msg)
  | _ => ("server_error", if msg = "" then "server error" else msg)

/- Tell the client about an error, or the browser. -/
def Site.refuse (data : PageData) (error : String × String) (otherwise : Answer) : Answer :=
  match site.errorRedirect data.redirectURI data.state error.1 error.2 with
  | some loc => .redirect (site.location loc)
  | none => otherwise

----
-- The Handler
----

/- The name of a code in the text of an error. -/
def codeName : StatusCode → String
| .invalidArgument => "InvalidArgument"
| .unauthenticated => "Unauthenticated"
| .permissionDenied => "PermissionDenied"
| .notFound => "NotFound"
| .resourceExhausted => "ResourceExhausted"
| .internal => "Internal"

/- Ask for a code, and send the browser on. -/
def Site.issue (data : PageData) (env : Env) (otherwise : Status → Answer)
    (st : State) : Answer × State :=
  match store.withTx (lift (site.auth.oauthAuthorize data.request site.metadata env.authorize))
    st.db with
  | (.ok res, db) => (.redirect (site.location res.redirectURL), { st with db := db })
  | (.error e, db) =>
    (site.refuse data (site.errorFromGRPC e) (otherwise e), { st with db := db })

/- What is wrong with a query. -/
def Site.queryError (r : Request) (data : PageData) : String :=
  if trimSpace (r.query "response_type") ≠ "code" then "unsupported response_type"
  else if data.clientID = "" ∨ data.redirectURI = "" ∨ data.codeChallenge = "" then
    "missing required parameters"
  else if site.auth.toUpper (trimSpace data.codeChallengeMethod) ≠ "S256" then
    "code_challenge_method must be S256"
  else ""

/- `http.MethodGet` -/
def Site.authorizeGet (data : PageData) (env : Env) (sess : Option BrowserSession)
    (st : State) : Answer × State :=
  match sess with
  | none => (.page data, st)
  | some s =>
    if data.error ≠ "" then (.page data, st)
    else
      match store.withTx (getOAuthConsent s.userID data.clientID) st.db with
      | (.error _, db) => (.page data, { st with db := db })
      | (.ok granted, db) =>
        if granted ≠ [] ∧ ∀ scope ∈ splitScopes data.scope, scope ∈ granted then
          site.issue data env (fun _ => .page data) { st with db := db }
        else (.page data, { st with db := db })

/- The user of the session or of a login, or what to show. -/
def Site.signIn (r : Request) (env : Env) (sessionID : String)
    (sess : Option BrowserSession) (st : State) : Except String String × State :=
  match sess with
  | some s => (.ok s.userID, st)
  | none =>
    match store.withTx (site.auth.login
      ⟨trimSpace (r.formValue "email"), trimSpace (r.formValue "password")⟩
      site.metadata env.login) st.db with
    | (.error _, db) => (.error "Invalid email or password", { st with db := db })
    | (.ok tokens, db) =>
      let userID := site.tokenUser tokens.accessToken
      if userID = "" then (.error "Login failed", { st with db := db })
      else
        (.ok userID, (State.del { st with db := db } sessionID).put env userID tokens.accessToken)

/- Store the consent, whether or not that works, and issue. -/
def Site.grant (data : PageData) (env : Env) (userID : String) (st : State) : Answer × State :=
  let stored := store.withTx (storeOAuthConsent
    ⟨userID, data.clientID, splitScopes data.scope⟩ env.began) st.db
  site.issue data env (fun e => .failed 500
    ("rpc error: code = " ++ codeName e.code ++ " desc = " ++ e.message)) { st with db := stored.2 }

/- `http.MethodPost`, once the form is parsed -/
def Site.authorizePost (r : Request) (data : PageData) (env : Env) (sessionID : String)
    (sess : Option BrowserSession) (st : State) : Answer × State :=
  let cookieToken := trimSpace (r.csrfCookie.getD "")
  if cookieToken = "" ∨ data.csrfToken = "" ∨ cookieToken ≠ data.csrfToken then
    (site.refuse data ("invalid_request", "csrf required")
      (.page { data with error := "csrf required" }), st)
  else if r.formValue "approve" ≠ "yes" then
    (site.refuse data ("access_denied", "user rejected request") (.failed 403 "access denied"), st)
  else
    match site.signIn r env sessionID sess st with
    | (.error shown, st) => (.page { data with error := shown }, st)
    | (.ok userID, st) => site.grant data env userID st

/- `wantsHTML` -/
def Site.wantsHTML (r : Request) : Bool :=
  let accept := site.auth.toLower r.accept
  decide ("text/html".toList <:+: accept.toList) || accept = "" || accept = "*/*"

/- The handler of `/oauth/authorize` -/
def Site.authorize (r : Request) (env : Env) (st : State) : Answer × State :=
  if ¬ site.wantsHTML r then (.forwarded, st)
  else
    let sessionID := trimSpace (r.sessionCookie.getD "")
    let sess := st.session env.now sessionID
    let cookie := trimSpace (r.csrfCookie.getD "")
    let data := PageData.read r.query (if cookie = "" then env.csrf.getD "" else cookie) sess.isSome
    if r.method = "GET" then
      site.authorizeGet { data with error := site.queryError r data } env sess st
    else if r.method = "POST" then
      match r.form with
      | none => (.page { data with error := "invalid form" }, st)
      | some get =>
        let data := PageData.read get (trimSpace (get "csrf_token")) sess.isSome
        site.authorizePost r data env sessionID sess st
    else (.failed 405 "", st)

----
-- Calls Without A Token
----

variable {site} {md : Metadata} {r : Request} {data : PageData} {env : Env} {st : State}

/- Without a header there is no user to issue a code for. -/
theorem fails_oauthAuthorize (srv : Server) (req : AuthorizeRequest) (env : Auth.Env)
    (hHeader : md.authorization = []) : (srv.oauthAuthorize req md env).Fails := by
  have hUser : srv.userIDFromAuthHeader md env = .error (unauth "access token required") := by
    unfold Server.userIDFromAuthHeader
    rw [hHeader]
    rfl
  rcases oauthAuthorize_eq srv req md env with ⟨e, hFail⟩ | ⟨id, hAsk⟩
  · rw [hFail]
    trivial
  rw [hAsk]
  rintro (_ | client)
  · trivial
  -- every check of the client comes before the user, and fails as well
  have hGrant : ∃ e, srv.checkGrant req md env client = .error e := by
    unfold Server.checkGrant
    rw [hUser]
    split_ifs
    · exact ⟨_, rfl⟩
    · exact ⟨_, rfl⟩
    · exact ⟨_, rfl⟩
    · exact ⟨_, rfl⟩
    · exact ⟨_, rfl⟩
  rcases hGrant with ⟨e, hGrant⟩
  show (srv.authorizeFor req md env client).Fails
  unfold Server.authorizeFor Server.newCode
  rw [hGrant]
  trivial

theorem codes_of_error {α : Type} {p : AuthService.Tx α} {db db' : Db} {e : Status}
    (hRun : store.withTx p db = (.error e, db')) : db'.codes = db.codes := by
  have hTables := Engine.serial_error_observe store Db.tables tables_tick _ p [] db
    (congrArg Prod.fst hRun)
  rw [show store.serial _ p [] db = _ from hRun] at hTables
  exact eq_of_tables Db.codes hTables (fun _ => rfl)

/- The handler is never given a code. -/
theorem issue_refused (site : Site) (data : PageData) (env : Env)
    (otherwise : Status → Answer) (st : State) : ∃ e db, site.issue data env otherwise st =
      (site.refuse data (site.errorFromGRPC e) (otherwise e), { st with db := db }) ∧
      db.codes = st.db.codes := by
  have hFails : (lift (site.auth.oauthAuthorize data.request site.metadata env.authorize)).Fails :=
    (fails_oauthAuthorize _ _ _ rfl).embed
  unfold Site.issue
  generalize lift (site.auth.oauthAuthorize data.request site.metadata env.authorize) = p at hFails
  cases hRun : store.withTx p st.db with
  | mk answer db =>
  cases answer with
  | ok res => exact absurd ⟨res, db, hRun⟩ (Engine.not_succeeds_of_fails hFails)
  | error e => exact ⟨e, db, rfl, codes_of_error hRun⟩

----
-- Where The Browser Is Sent
----

variable {loc : String}

/- Every error goes to the URI that the request names. -/
theorem base_of_refuse {error : String × String} {otherwise : Answer}
    (hRefuse : site.refuse data error otherwise = .redirect loc)
    (hOther : otherwise ≠ .redirect loc) :
    site.base loc = site.target (trimSpace data.redirectURI) := by
  unfold Site.refuse Site.errorRedirect at hRefuse
  cases hUrl : site.auth.parseURL (trimSpace data.redirectURI) with
  | none =>
    rw [hUrl] at hRefuse
    exact absurd hRefuse hOther
  | some u =>
    rw [hUrl] at hRefuse
    dsimp only at hRefuse
    by_cases hFragment : trimSpace u.fragment ≠ ""
    · rw [if_pos hFragment] at hRefuse
      exact absurd hRefuse hOther
    · rw [if_neg hFragment] at hRefuse
      cases hRefuse
      exact site.base_location _ _ (by rw [hUrl]; rfl)

variable {otherwise : Status → Answer}

theorem base_of_issue (hIssue : (site.issue data env otherwise st).1 = .redirect loc)
    (hOther : ∀ e, otherwise e ≠ .redirect loc) :
    site.base loc = site.target (trimSpace data.redirectURI) := by
  rcases issue_refused site data env otherwise st with ⟨e, db, hRefused, _⟩
  rw [hRefused] at hIssue
  exact base_of_refuse hIssue (hOther e)

variable {sess : Option BrowserSession}

theorem base_of_get (hGet : (site.authorizeGet data env sess st).1 = .redirect loc) :
    site.base loc = site.target (trimSpace data.redirectURI) := by
  unfold Site.authorizeGet at hGet
  split at hGet
  · cases hGet
  split at hGet
  · cases hGet
  split at hGet
  · cases hGet
  split at hGet
  · exact base_of_issue hGet (fun _ hPage => nomatch hPage)
  · cases hGet

variable {sessionID : String}

theorem base_of_post (hPost : (site.authorizePost r data env sessionID sess st).1 = .redirect loc) :
    site.base loc = site.target (trimSpace data.redirectURI) := by
  unfold Site.authorizePost at hPost
  dsimp only at hPost
  split at hPost
  · exact base_of_refuse hPost (fun hPage => nomatch hPage)
  split at hPost
  · exact base_of_refuse hPost (fun hFailed => nomatch hFailed)
  split at hPost
  · cases hPost
  · unfold Site.grant at hPost
    exact base_of_issue hPost (fun _ hFailed => nomatch hFailed)

/- Every redirect is to the URI that the request names. -/
theorem base_of_redirect (hRedirect : (site.authorize r env st).1 = .redirect loc) :
    site.base loc = site.target (r.param "redirect_uri") := by
  unfold Site.authorize at hRedirect
  unfold Request.param
  dsimp only at hRedirect
  split at hRedirect
  · cases hRedirect
  split at hRedirect
  · rename_i hMethod
    rw [hMethod, if_neg (by decide)]
    exact (base_of_get hRedirect).trans (congrArg site.target (trimSpace_trimSpace _))
  split at hRedirect
  · rename_i hMethod
    rw [if_pos hMethod]
    split at hRedirect
    · cases hRedirect
    · rename_i get hForm
      rw [hForm]
      exact (base_of_post hRedirect).trans (congrArg site.target (trimSpace_trimSpace _))
  · cases hRedirect

/- The location is that of a URI of the request's client. -/
def Site.Registered (site : Site) (st : State) (r : Request) (base : String) : Prop :=
  ∃ client ∈ st.db.clients.rows, client.id = r.param "client_id" ∧
    ∃ uri ∈ client.redirectURIs, base = site.target uri

theorem redirect_registered_iff (hRedirect : (site.authorize r env st).1 = .redirect loc) :
    site.Registered st r (site.base loc) ↔
      site.Registered st r (site.target (r.param "redirect_uri")) := by
  rw [base_of_redirect hRedirect]

/- The payload of the one token that `Site.plain` mints. -/
def minting : TokenPayload := ⟨"v", ["customer"], [], 1000, 900000001000⟩

/- The text up to its query. -/
def withoutQuery (s : String) : String := String.ofList (s.toList.takeWhile (fun c => c ≠ '?'))

theorem withoutQuery_append (uri query : String) :
    withoutQuery (uri ++ ("?" ++ query)) = withoutQuery uri := by
  have hStop : ("?".toList ++ query.toList).takeWhile (fun c => c ≠ '?') = [] := rfl
  unfold withoutQuery
  rw [String.toList_append, String.toList_append, List.takeWhile_append, hStop, List.append_nil]
  split
  · rename_i hLength
    rw [(List.takeWhile_prefix _).eq_of_length hLength]
  · rfl

/- Queries are written out as they are. -/
def Site.plain : Site where
  auth := { Service.plain with
    createToken := fun payload =>
      if payload = minting then .ok "h.p.s" else .error (.text "not minted")
    withQuery := fun uri params =>
      uri ++ ("?" ++ "&".intercalate (params.map (fun p => p.1 ++ "=" ++ p.2))) }
  userAgent := []
  location := id
  base := withoutQuery
  claims := fun _ => some (jwtClaims minting)
  base_location := by
    intro uri params _
    exact (withoutQuery_append uri _).trans (withoutQuery_append uri _).symm
  minted := by
    intro payload token hMinted
    dsimp only at hMinted
    split at hMinted
    · rename_i hPayload
      cases hMinted
      exact ⟨"h", "p", "s", by decide +kernel, by rw [hPayload]⟩
    · cases hMinted

/- The user of `Db.oneUser` with a role and a session. -/
def registered : State where
  db := { Db.oneUser with
    roles := (Table.empty Named.id).insert ⟨"role_customer", "customer"⟩
    userRoles := [("v", "role_customer")] }
  browser := (Table.empty BrowserSession.id).insert ⟨"s", "v", "t", 9000⟩

def fields (redirectURI : String) : String → String
| "client_id" => "app"
| "redirect_uri" => redirectURI
| "scope" => "payments"
| "code_challenge" => "c"
| "csrf_token" => "x"
| "approve" => "yes"
| "email" => "v@mail"
| "password" => "secret"
| _ => ""

def submits (redirectURI : String) (csrf session : Option String) : Request where
  accept := "text/html"
  method := "POST"
  query := fun _ => ""
  form := some (fields redirectURI)
  formValue := fields redirectURI
  sessionCookie := session
  csrfCookie := csrf

def at1000 : Env :=
  ⟨1000, none, some "s2", 1000, 1000, Env.drawing 1000 "r", Env.drawing 1000 "code"⟩

theorem own_client_told :
    (Site.plain.authorize (submits "https://app" none none) at1000 registered).1 =
      .redirect "https://app?error=invalid_request&error_description=csrf required" ∧
      Site.plain.Registered registered (submits "https://app" none none)
      (Site.plain.base "https://app?error=invalid_request&error_description=csrf required") := by
  have hRedirect : (Site.plain.authorize (submits "https://app" none none) at1000 registered).1 =
      .redirect "https://app?error=invalid_request&error_description=csrf required" := by
    decide +kernel
  refine ⟨hRedirect, (redirect_registered_iff hRedirect).mpr ?_⟩
  unfold Site.Registered
  decide +kernel

/- Without a cookie, any site can be the target. -/
theorem evil_site_told : (Site.plain.authorize (submits "https://evil" none none) at1000 registered).1 =
      .redirect "https://evil?error=invalid_request&error_description=csrf required" ∧
      ¬ Site.plain.Registered registered (submits "https://evil" none none)
      (Site.plain.base "https://evil?error=invalid_request&error_description=csrf required") := by
  unfold Site.Registered
  decide +kernel

----
-- Codes
----

theorem codes_getOAuthConsent (userID clientID : String) (db : Db) :
    (store.withTx (getOAuthConsent userID clientID) db).2.codes = db.codes :=
  eq_of_tables Db.codes (tables_reads (reads_getOAuthConsent userID clientID) db) (fun _ => rfl)

theorem codes_login (srv : Service) (req : LoginRequest) (md : Metadata) (env : Auth.Env)
    (db : Db) :
    (store.withTx (srv.login req md env) db).2.codes = db.codes := by
  have hWp := login_wp (r := fun db db' => db'.tables = db.tables) (fun _ => rfl)
    (fun _ _ _ hFirst hSecond => hSecond.trans hFirst) srv md env 0 tables_tick req db
  generalize srv.login req md env = p at hWp
  cases hRun : store.withTx p db with
  | mk answer db' =>
  cases answer with
  | error e => exact codes_of_error hRun
  | ok tokens =>
    rcases hWp.serial (congrArg Prod.fst hRun) with ⟨db₁, ws, hTicked, ⟨_, _, hLogged⟩, hLeft⟩
    have hEnd : db' = store.view db₁ ws := by
      rw [← hLeft]
      exact congrArg Prod.snd hRun.symm
    have hCodes : db₁.codes = db.codes :=
      eq_of_tables Db.codes (hTicked.observe tables_tick) (fun _ => rfl)
    rw [hEnd, hLogged.writes]
    exact hCodes

theorem codes_storeOAuthConsent (req : ConsentRequest) (began : Time) (db : Db) :
    (store.withTx (storeOAuthConsent req began) db).2.codes = db.codes := by
  by_cases hStores : db.Stores req began
  · rw [consented_of_stores hStores]
    unfold Db.consented
    dsimp only
    split
    · rfl
    · rfl
  · rw [kept_of_not_stores hStores]

theorem codes_issue : (site.issue data env otherwise st).2.db.codes = st.db.codes := by
  rcases issue_refused site data env otherwise st with ⟨e, db, hRefused, hCodes⟩
  rw [hRefused]
  exact hCodes

theorem codes_get : (site.authorizeGet data env sess st).2.db.codes = st.db.codes := by
  unfold Site.authorizeGet
  split
  · rfl
  rename_i s
  split
  · rfl
  have hConsent := codes_getOAuthConsent s.userID data.clientID st.db
  split
  · rename_i hRun
    rw [hRun] at hConsent
    exact hConsent
  rename_i hRun
  rw [hRun] at hConsent
  split
  · exact codes_issue.trans hConsent
  · exact hConsent

theorem db_del (st : State) (id : String) : (st.del id).db = st.db := by
  unfold State.del
  split
  · rfl
  · rfl

theorem db_put (st : State) (userID accessToken : String) :
    (st.put env userID accessToken).db = st.db := by
  unfold State.put
  split
  · rfl
  split
  · rfl
  · rfl

theorem codes_signIn (site : Site) (r : Request) (env : Env) (sessionID : String)
    (sess : Option BrowserSession) (st : State) :
    (site.signIn r env sessionID sess st).2.db.codes = st.db.codes := by
  unfold Site.signIn
  split
  · rfl
  have hLogin := codes_login site.auth
    ⟨trimSpace (r.formValue "email"), trimSpace (r.formValue "password")⟩ site.metadata env.login
    st.db
  split
  · rename_i hRun
    rw [hRun] at hLogin
    exact hLogin
  rename_i hRun
  rw [hRun] at hLogin
  dsimp only
  split
  · exact hLogin
  · rw [db_put, db_del]
    exact hLogin

theorem codes_post :
    (site.authorizePost r data env sessionID sess st).2.db.codes = st.db.codes := by
  unfold Site.authorizePost
  dsimp only
  split
  · rfl
  split
  · rfl
  have hSignIn := codes_signIn site r env sessionID sess st
  split
  · rename_i hRun
    rw [hRun] at hSignIn
    exact hSignIn
  · rename_i userID _ hRun
    rw [hRun] at hSignIn
    unfold Site.grant
    rw [codes_issue]
    exact (codes_storeOAuthConsent _ _ _).trans hSignIn

/- No request leaves a code behind. -/
theorem codes_authorize : (site.authorize r env st).2.db.codes = st.db.codes := by
  unfold Site.authorize
  dsimp only
  split
  · rfl
  split
  · apply codes_get
  split
  · split
    · rfl
    · apply codes_post
  · rfl

/-
  The browser is sent to the URI with a code, and the row of that code is new, is the user's and has
  the client and the challenge of the request.
-/
def Site.Issues (site : Site) (r : Request) (env : Env) (st : State) (userID : String) : Prop :=
  ∃ code rest row, (site.authorize r env st).1 = .redirect (site.location
      (site.auth.withQuery (r.param "redirect_uri") (("code", code) :: rest))) ∧
    row ∈ (site.authorize r env st).2.db.codes.rows ∧ row ∉ st.db.codes.rows ∧
      row.codeHash = site.auth.sha256 code ∧ row.userID = userID ∧
        row.clientID = r.param "client_id" ∧ row.codeChallenge = r.param "code_challenge"

theorem no_code_issued (site : Site) (r : Request) (env : Env) (st : State) (userID : String) :
    ¬ site.Issues r env st userID := by
  rintro ⟨code, rest, row, _, hRow, hNew, _⟩
  rw [codes_authorize] at hRow
  exact hNew hRow

/- Neither the password nor the session of a user helps. -/
theorem signed_in_without_code :
    (Site.plain.authorize (submits "https://app" (some "x") none) at1000 registered).1 =
        .page { PageData.read (fields "https://app") "x" false with error := "Login failed" } ∧
      (Site.plain.authorize (submits "https://app" (some "x") (some "s")) at1000 registered).1 =
        .redirect ("https://app?error=unauthorized_client&" ++
          "error_description=access token required") ∧
      ∀ session, ¬ Site.plain.Issues (submits "https://app" (some "x") session) at1000
        registered "v" := by
  refine ⟨by decide +kernel, by decide +kernel, ?_⟩
  rintro session ⟨_, _, row, _, hRow, hNew, _⟩
  rw [codes_authorize] at hRow
  exact hNew hRow

----
-- Logins
----

/- The tokens of a login are minted. -/
theorem returns_login (srv : Service) (req : LoginRequest) (md : Metadata) (env : Auth.Env) :
    (srv.login req md env).Returns (fun tokens =>
      ∃ payload, srv.createToken payload = .ok tokens.accessToken) := by
  unfold Service.login
  refine Prog.returns_bind _ (fun email => ?_)
  dsimp only
  split
  · trivial
  refine Prog.returns_bind _ (fun allowed => ?_)
  split
  · trivial
  refine Prog.returns_bind _ (fun row => ?_)
  unfold Service.loginAs
  split
  · exact fun _ => trivial
  split
  · trivial
  · exact fun _ => trivial
  refine Prog.returns_bind _ (fun _ => ?_)
  unfold Service.openSession
  refine Prog.returns_bind _ (fun ⟨roles, perms⟩ => ?_)
  dsimp only
  unfold Server.accessToken
  cases hToken : srv.createToken _ with
  | error e => trivial
  | ok access => exact Prog.returns_bind (Prog.ofExcept env.token) (fun _ _ => ⟨_, hToken⟩)

/- No claim of a minted token is the one that is looked for. -/
theorem tokenUser_minted {payload : TokenPayload} {token : String}
    (hMinted : site.auth.createToken payload = .ok token) : site.tokenUser token = "" := by
  rcases site.minted payload token hMinted with ⟨header, middle, signature, hSplit, hClaims⟩
  have hNone : (jwtClaims payload).filter (fun m => Text.equalFold m.1 "user_id") = [] := by
    have hOther : ∀ key ∈ ["roles", "permissions", "sub", "exp", "iat"],
        ¬ Text.equalFold key "user_id" := by decide +kernel
    refine List.filter_eq_nil_iff.mpr (fun m hMem => hOther m.1 ?_)
    unfold jwtClaims at hMem
    split at hMem
    · simp only [List.append_nil, List.mem_append, List.mem_cons] at hMem
      grind
    · simp only [List.mem_append, List.mem_cons] at hMem
      grind
  unfold Site.tokenUser
  rw [hSplit]
  dsimp only
  rw [hClaims]
  dsimp only
  rw [hNone]
  rfl

/- Nobody is signed in by a password. -/
theorem not_signedIn_by_login {sessionID userID : String} :
    (site.signIn r env sessionID none st).1 ≠ .ok userID := by
  intro hSigned
  unfold Site.signIn at hSigned
  dsimp only at hSigned
  split at hSigned
  · cases hSigned
  · rename_i tokens db hRun
    have hMinted := Engine.serial_returns (returns_login _ _ _ _) (congrArg Prod.fst hRun)
    rcases hMinted with ⟨payload, hMinted⟩
    rw [tokenUser_minted hMinted, if_pos rfl] at hSigned
    cases hSigned

end Fincore.Identity
