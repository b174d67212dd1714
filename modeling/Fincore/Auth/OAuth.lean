import Fincore.Auth.Sessions

/-
  The authorization code flow of `infrastructure/grpc/ server.go`: `CreateOAuthClient`,
  `DeleteOAuthClient`, `OAuthAuthorize` and `OAuthToken`, with the helpers they share.

  `CreateOAuthClient`, `DeleteOAuthClient` and `OAuthAuthorize` write with their last statement, so
  that a call of them is one transaction. `OAuthToken` looks the client up before it begins its
  transaction; reads see what is committed either way.

  Key definitions include:
    * `Server.createOAuthClient`
    * `Server.deleteOAuthClient`
    * `Server.oauthAuthorize`
    * `Server.oauthToken`
-/

----
-- Helpers
----

namespace Fincore.Auth

/- `strings.Fields` -/
def fields (s : String) : List String :=
  ((s.toList.splitOnP isSpace).filter (fun cs => decide (cs ≠ []))).map String.ofList

/- `splitScopes`; the empty list stands for `nil` -/
def splitScopes (scope : String) : List String :=
  (((fields (trimSpace scope)).map trimSpace).filter (fun p => decide (p ≠ ""))).eraseDups

/- `normalizeClientType` -/
def Server.normalizeClientType (srv : Server) (v : String) : Except Status String :=
  let v := trimSpace (srv.toLower v)
  if v = "" then .ok "public"
  else if v ≠ "public" ∧ v ≠ "confidential" then
    .error (invalidArg "invalid client type")
  else .ok v

/- `basicAuthFromMetadata` -/
def Server.basicAuthFromMetadata (srv : Server) (md : Metadata) : Option (String × String) :=
  match md.authorization with
  | [] => none
  | value :: _ =>
    match afterWord "Basic " (trimSpace value) with
    | none => none
    | some encoded =>
      match srv.decodeBase64 (trimSpace encoded) with
      | none => none
      | some dec =>
        let user := dec.toList.takeWhile (fun c => c ≠ ':')
        match dec.toList.drop user.length with
        | [] => none
        | _ :: password =>
          some (String.ofList user, String.ofList password)

/- `fetchOAuthClient` -/
def fetchOAuthClient (clientID : String) : Tx Client :=
  if trimSpace clientID = "" then
    .fail (invalidArg "client_id required")
  else do
    let row : Option Client ← sql (.selectClient (trimSpace clientID))
    match row with
    | none => .fail (notFound "unknown client")
    | some client => return client

/- An unknown client is answered with `invalid_client`. -/
def knownClient (clientID : String) : Tx Client :=
  (fetchOAuthClient clientID).mapError (fun e =>
    if e.code = .notFound then oauthInvalidClient else e)

/- The error of a column that may not be null. -/
def notNullViolation (column table : String) : GoError :=
  .text ("ERROR: null value in column " ++ column ++ " of relation " ++ table ++
    " violates not-null constraint (SQLSTATE 23502)")

----
-- Clients
----

/- `CreateOAuthClientRequest` -/
structure CreateClientRequest where
  name : String
  type : String
  redirectURIs : List String
  allowedScopes : List String

/- The loop over the redirect URIs of a new client. -/
def Server.registerRedirects (srv : Server) : List String → List String →
      Except Status (List String)
| [], redirects => .ok redirects
| r :: rs, redirects =>
  let r := trimSpace r
  if r = "" then srv.registerRedirects rs redirects
  else
    match srv.parseURL r with
    | none => .error (invalidArg "invalid redirect_uri")
    | some u =>
      if u.scheme = "" ∨ u.host = "" then
        .error (invalidArg "invalid redirect_uri")
      else if trimSpace u.fragment ≠ "" then
        .error (invalidArg "redirect_uri must not contain fragment")
      else if r ∈ redirects then
        srv.registerRedirects rs redirects
      else srv.registerRedirects rs (redirects ++ [r])

/- The scopes that a new client is allowed. -/
def registerScopes (scopes : List String) : List String :=
  (scopes.map trimSpace).filter (fun s => decide (s ≠ ""))

/- The secret of a new client, and its hash. -/
def Server.newSecret (srv : Server) (env : Env) (type : String) :
    Except Status (String × Option String) :=
  if type = "confidential" then
    match env.random with
    | .error e => .error (internal e)
    | .ok secret =>
      match srv.hashPassword env.salt secret with
      | .error e => .error (internal e)
      | .ok hash => .ok (secret, some hash)
  else .ok ("", none)

/- The checks of the name, the type and the redirect URIs. -/
def Server.checkClient (srv : Server) (req : CreateClientRequest)
    (md : Metadata) (env : Env) : Except Status (String × List String) :=
  match srv.requirePermissionFromAuthHeader md env "auth:admin" with
  | .error e => .error e
  | .ok () =>
    if trimSpace req.name = "" then
      .error (invalidArg "name required")
    else
      match srv.normalizeClientType req.type with
      | .error e => .error e
      | .ok type =>
        if req.redirectURIs = [] then
          .error (invalidArg "redirect_uris required")
        else
          match srv.registerRedirects req.redirectURIs [] with
          | .error e => .error e
          | .ok redirects =>
            if redirects = [] then
              .error (invalidArg "redirect_uris required")
            else .ok (type, redirects)

/- The row of a new client, and its secret. -/
def Server.newClient (srv : Server) (req : CreateClientRequest) (md : Metadata)
    (env : Env) : Except Status (Client × String) :=
  match srv.checkClient req md env with
  | .error e => .error e
  | .ok (type, redirects) =>
    match srv.newSecret env type with
    | .error e => .error e
    | .ok (secret, secretHash) =>
      .ok ({
        id := env.newID
        name := trimSpace req.name
        type := type
        secretHash := secretHash
        redirectURIs := redirects
        allowedScopes := registerScopes req.allowedScopes }, secret)

/- `CreateOAuthClient`, with the secret it shows once -/
def Server.createOAuthClient (srv : Server) (req : CreateClientRequest)
    (md : Metadata) (env : Env) : Tx (Client × String) :=
  match srv.newClient req md env with
  | .error e => .fail e
  | .ok (row, secret) => do
      let _ : Unit ← sql (.insertClient row)
      return (row, secret)

/- `DeleteOAuthClient` -/
def Server.deleteOAuthClient (srv : Server) (clientID : String) (md : Metadata)
    (env : Env) : Tx Unit := do
  Prog.ofExcept (srv.requirePermissionFromAuthHeader md env "auth:admin")
  if trimSpace clientID = "" then
    .fail (invalidArg "client_id required")
  else do
    let n : Nat ← sql (.deleteClient (trimSpace clientID))
    if n = 0 then .fail (notFound "unknown client")
    else return ()

----
-- Authorization
----

/- `OAuthAuthorizeRequest` -/
structure AuthorizeRequest where
  responseType : String
  clientID : String
  redirectURI : String
  scope : String
  state : String
  codeChallenge : String
  codeChallengeMethod : String

/- `OAuthAuthorizeResponse` -/
structure AuthorizeResponse where
  code : String
  state : String
  redirectURL : String
  deriving DecidableEq

/- The checks of a redirect URI that is presented. -/
def Server.checkRedirect (srv : Server) (redirectURI : String) : Except Status Unit :=
  match srv.parseURL redirectURI with
  | none => .error (invalidArg "invalid redirect_uri")
  | some u =>
    if trimSpace u.fragment ≠ "" then
      .error (invalidArg "redirect_uri must not contain fragment")
    else .ok ()

/- The checks before the client is looked up. -/
def Server.checkAuthorize (srv : Server) (req : AuthorizeRequest) : Except Status Unit :=
  if trimSpace req.responseType ≠ "code" then
    .error (invalidArg "unsupported response_type")
  else if trimSpace req.clientID = "" then
    .error (invalidArg "client_id required")
  else if trimSpace req.redirectURI = "" then
    .error (invalidArg "redirect_uri required")
  else srv.checkRedirect (trimSpace req.redirectURI)

/- Every requested scope is one of the allowed ones. -/
def Client.allowsScopes (client : Client) (scopes : List String) : Bool :=
  client.allowedScopes.isEmpty || scopes.all (fun s =>
      decide (s ∈ registerScopes client.allowedScopes))

/- The checks of the client, and the user that is asked. -/
def Server.checkGrant (srv : Server) (req : AuthorizeRequest) (md : Metadata)
    (env : Env) (client : Client) : Except Status String :=
  if trimSpace req.redirectURI ∉ client.redirectURIs then
    .error (invalidArg "invalid redirect_uri")
  else if ¬ client.allowsScopes (splitScopes req.scope) then
    .error (invalidArg "invalid scope")
  else if trimSpace req.codeChallenge = "" then
    .error (invalidArg "code_challenge required")
  else if srv.toUpper (trimSpace req.codeChallengeMethod) ≠ "S256" then
    .error (invalidArg "code_challenge_method must be S256")
  else srv.userIDFromAuthHeader md env

/- The row of a new code, or why there is none. -/
def Server.newCode (srv : Server) (req : AuthorizeRequest) (md : Metadata)
    (env : Env) (client : Client) : Except Status (Code × String) :=
  match srv.checkGrant req md env client with
  | .error e => .error e
  | .ok userID =>
    match env.token with
    | .error e => .error e
    | .ok code =>
      .ok ({
        codeHash := srv.sha256 code
        clientID := client.id
        userID := userID
        redirectURI := trimSpace req.redirectURI
        scopes := splitScopes req.scope
        codeChallenge := trimSpace req.codeChallenge
        codeChallengeMethod := "S256"
        expiresAt := timestamptz (env.now + 300000000000)
        consumedAt := none }, code)

/-
  The last part of `OAuthAuthorize`. Without scopes the `nil` slice is sent as a null, which the
  column does not take.
-/
def Server.storeCode (srv : Server) (req : AuthorizeRequest) (row : Code)
    (code : String) : Tx AuthorizeResponse :=
  if row.scopes = [] then
    .fail (internal (notNullViolation "scopes" "oauth_authorization_codes"))
  else do
    let _ : Unit ← sql (.insertCode row)
    let state := trimSpace req.state
    return {
      code := code
      state := state
      redirectURL := srv.withQuery (trimSpace req.redirectURI)
        (("code", code) ::
          if state = "" then [] else [("state", state)]) }

/- `OAuthAuthorize`, once the client is known -/
def Server.authorizeFor (srv : Server) (req : AuthorizeRequest) (md : Metadata)
    (env : Env) (client : Client) : Tx AuthorizeResponse :=
  match srv.newCode req md env client with
  | .error e => .fail e
  | .ok (row, code) => srv.storeCode req row code

/- `OAuthAuthorize` -/
def Server.oauthAuthorize (srv : Server) (req : AuthorizeRequest)
    (md : Metadata) (env : Env) : Tx AuthorizeResponse := do
  Prog.ofExcept (srv.checkAuthorize req)
  let client ← knownClient (trimSpace req.clientID)
  srv.authorizeFor req md env client

----
-- Tokens For A Code
----

/- `OAuthTokenRequest` -/
structure TokenRequest where
  grantType : String
  clientID : String
  clientSecret : String
  code : String
  redirectURI : String
  codeVerifier : String

/- `OAuthTokenResponse` -/
structure TokenResponse where
  accessToken : String
  tokenType : String
  expiresIn : Int
  refreshToken : String
  deriving DecidableEq

/- What a request for tokens presents. -/
structure TokenArgs where
  clientID : String
  clientSecret : String
  code : String
  redirectURI : String
  verifier : String

/- The client and the secret, from the body or the header. -/
def Server.credentials (srv : Server) (req : TokenRequest) (md : Metadata) : String × String :=
  if trimSpace req.clientID = "" then
    match srv.basicAuthFromMetadata md with
    | none => ("", req.clientSecret)
    | some (user, password) =>
      (trimSpace user,
        if trimSpace req.clientSecret = "" then password
        else req.clientSecret)
  else (trimSpace req.clientID, req.clientSecret)

/- The checks before the client is looked up. -/
def Server.checkToken (srv : Server) (req : TokenRequest) (md : Metadata) : Except Status Unit :=
  if trimSpace req.grantType ≠ "authorization_code" then
    .error (invalidArg "unsupported grant_type")
  else if (srv.credentials req md).1 = "" then
    .error (invalidArg "client_id required")
  else if trimSpace req.code = "" then
    .error (invalidArg "code required")
  else if trimSpace req.redirectURI = "" then
    .error (invalidArg "redirect_uri required")
  else
    match srv.checkRedirect (trimSpace req.redirectURI) with
    | .error e => .error e
    | .ok () =>
      if trimSpace req.codeVerifier = "" then
        .error (invalidArg "code_verifier required")
      else .ok ()

/- What `OAuthToken` goes on with. -/
def Server.tokenArgs (srv : Server) (req : TokenRequest) (md : Metadata) : TokenArgs where
  clientID := (srv.credentials req md).1
  clientSecret := (srv.credentials req md).2
  code := trimSpace req.code
  redirectURI := trimSpace req.redirectURI
  verifier := trimSpace req.codeVerifier

/- The secret that a confidential client presents. -/
def Server.presentedSecret (srv : Server) (md : Metadata) (client : Client)
    (clientSecret : String) : Except Status String :=
  if trimSpace clientSecret = "" then
    match srv.basicAuthFromMetadata md with
    | none => .error oauthInvalidClient
    | some (user, password) =>
      if trimSpace user ≠ "" ∧ trimSpace user ≠ client.id then
        .error oauthInvalidClient
      else if trimSpace password = "" then
        .error oauthInvalidClient
      else .ok (trimSpace password)
  else .ok (trimSpace clientSecret)

/- The authentication of a client. -/
def Server.authenticate (srv : Server) (md : Metadata) (client : Client)
    (clientSecret : String) : Except Status Unit :=
  if client.type = "confidential" then
    match client.secretHash with
    | none =>
      .error (internal (.text "confidential client missing secret"))
    | some hash =>
      match srv.presentedSecret md client clientSecret with
      | .error e => .error e
      | .ok sec =>
        match srv.verifyPassword sec hash with
        | .error e => .error (internal e)
        | .ok false => .error oauthInvalidClient
        | .ok true => .ok ()
  else .ok ()

/- The checks of the row of a code. -/
def Server.acceptsCode (srv : Server) (args : TokenArgs) (now : Time) (c : Code) : Prop :=
  c.consumedAt = none ∧ now ≤ c.expiresAt ∧ c.redirectURI = args.redirectURI ∧
    srv.toUpper (trimSpace c.codeChallengeMethod) = "S256" ∧ trimSpace c.codeChallenge ≠ "" ∧
    trimSpace c.codeChallenge = srv.sha256 args.verifier

instance (srv : Server) (args : TokenArgs) (now : Time) (c : Code) :
    Decidable (srv.acceptsCode args now c) := inferInstanceAs (Decidable (_ ∧ _ ∧ _ ∧ _ ∧ _ ∧ _))

/- Once the code is consumed: the tokens for its user. -/
def Server.issueTokens (srv : Server) (env : Env) (userID : String) : Tx TokenResponse := do
  let (roles, perms) ← getRolesAndPermissions userID
  let access ← Prog.ofExcept (srv.accessToken env userID roles perms)
  let refresh ← Prog.ofExcept env.token
  let refreshHash := srv.hashRefreshToken refresh
  let refreshExp := env.accessNow + srv.refreshTTL
  let _ : Unit ← sql (.insertSession
    (Session.opened refreshHash refreshHash userID refreshExp refreshExp none none))
  return {
    accessToken := access
    tokenType := "bearer"
    expiresIn := srv.accessTTL.tdiv 1000000000
    refreshToken := refresh }

/-
  `OAuthToken`, once the row of the code is read; the number of rows that the `update` consumed is
  not looked at.
-/
def Server.redeem (srv : Server) (args : TokenArgs) (env : Env) : Option Code → Tx TokenResponse
| none => .fail oauthInvalidGrant
| some c =>
  if srv.acceptsCode args env.now c then do
    let _ : Nat ← sql (.consumeCode (srv.sha256 args.code) env.now)
    srv.issueTokens env c.userID
  else .fail oauthInvalidGrant

/- `OAuthToken`, once the client is known -/
def Server.exchangeFor (srv : Server) (args : TokenArgs) (md : Metadata)
    (env : Env) (client : Client) : Tx TokenResponse := do
  Prog.ofExcept (srv.authenticate md client args.clientSecret)
  let row : Option Code ← sql (.selectCode (srv.sha256 args.code) client.id)
  srv.redeem args env row

/- `OAuthToken` -/
def Server.oauthToken (srv : Server) (req : TokenRequest) (md : Metadata)
    (env : Env) : Tx TokenResponse := do
  Prog.ofExcept (srv.checkToken req md)
  let client ← knownClient (srv.tokenArgs req md).clientID
  srv.exchangeFor (srv.tokenArgs req md) md env client

end Fincore.Auth
