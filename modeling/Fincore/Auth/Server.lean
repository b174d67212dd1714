import Fincore.Auth.Store

/-
  What the handlers of `infrastructure/grpc/server.go` share: the server with the libraries it
  calls, the metadata of a request, and the helpers at the top and the bottom of the file.

  Key definitions include:
    * `Server` and `Env`
    * `Metadata`
    * `Server.userIDFromAuthHeader`
    * `getRolesAndPermissions`
    * `revokeAll`
-/

----
-- Servers And Requests
----

namespace Fincore.Auth

/- `security.TokenPayload` -/
structure TokenPayload where
  userID : String
  roles : List String
  permissions : List String
  issuedAt : Time
  expiredAt : Time
  deriving DecidableEq

/- The errors of `TokenMaker.VerifyToken` -/
inductive TokenError where
  | expired
  | invalid
  | other (e : GoError)

/- The parts of a parsed URL that the handlers look at. -/
structure URL where
  scheme : String
  host : String
  fragment : String

/-
  A server, with what it takes from its libraries: tokens, hashes, URLs, letter case and base64.
  `sha256` is the hash in unpadded URL base64, as `hashB64URLSHA256` returns it.
-/
structure Server where
  accessTTL : Int
  refreshTTL : Int
  createToken : TokenPayload → Except GoError String
  verifyToken : Time → String → Except TokenError TokenPayload
  sha256 : String → String
  hashPassword : String → String → Except GoError String
  verifyPassword : String → String → Except GoError Bool
  parseURL : String → Option URL
  withQuery : String → List (String × String) → String
  toLower : String → String
  toUpper : String → String
  decodeBase64 : String → Option String

/-
  What a handler takes from its process: the clock when it checks and when it issues the access
  token, the random token, code or secret, an identifier and a salt.
-/
structure Env where
  now : Time
  accessNow : Time
  random : Except GoError String
  newID : String
  salt : String

/- The metadata of an incoming request. -/
structure Metadata where
  authorization : List String
  userAgent : List String
  forwardedFor : List String

def Metadata.none : Metadata := ⟨[], [], []⟩

/- `security.HashRefreshToken` -/
def Server.hashRefreshToken (srv : Server) (token : String) : String := srv.sha256 (trimSpace token)

/- `nullIfEmpty` -/
def nullIfEmpty (s : String) : Option String :=
  if trimSpace s = "" then none else some s

/- `clientMetaFromContext` -/
def clientMetaFromContext (md : Metadata) : String × String :=
  (match md.userAgent with
    | [] => ""
    | ua :: _ => trimSpace ua,
    match md.forwardedFor with
    | [] => ""
    | xff :: _ =>
      trimSpace (String.ofList (xff.toList.takeWhile (fun c => c ≠ ','))))

/- What follows a leading word, if the text has it. -/
def afterWord (word s : String) : Option String :=
  if word.toList.isPrefixOf s.toList then
    some (String.ofList (s.toList.drop word.toList.length))
  else none

/- The token after `Bearer`, in any letter case. -/
def Server.bearerToken (srv : Server) (md : Metadata) : String :=
  match md.authorization with
  | [] => ""
  | value :: _ =>
    let v := trimSpace value
    match afterWord "bearer " (srv.toLower v) with
    | none => ""
    | some _ =>
      trimSpace (String.ofList (v.toList.drop "bearer ".toList.length))

/- The payload of an access token, or why it is refused. -/
def Server.payload (srv : Server) (now : Time)
    (accessToken : String) : Except Status TokenPayload :=
  match srv.verifyToken now accessToken with
  | .ok payload => .ok payload
  | .error .expired => .error (unauth "invalid access token")
  | .error .invalid => .error (unauth "invalid access token")
  | .error (.other e) => .error (internal e)

/- `userIDFromAuthHeader`; only the check trims the user. -/
def Server.userIDFromAuthHeader (srv : Server) (md : Metadata) (env : Env) : Except Status String :=
  let accessToken :=
    match md.authorization with
    | [] => ""
    | value :: _ =>
      match afterWord "Bearer " (trimSpace value) with
      | none => ""
      | some token => trimSpace token
  if accessToken = "" then
    .error (unauth "access token required")
  else
    match srv.payload env.now accessToken with
    | .error e => .error e
    | .ok payload =>
      if trimSpace payload.userID = "" then
        .error (unauth "invalid access token")
      else .ok payload.userID

/- `requirePermissionFromAuthHeader` -/
def Server.requirePermissionFromAuthHeader (srv : Server) (md : Metadata)
    (env : Env) (required : String) : Except Status Unit :=
  let accessToken := srv.bearerToken md
  if accessToken = "" then
    .error (unauth "access token required")
  else
    match srv.payload env.now accessToken with
    | .error e => .error e
    | .ok payload =>
      if required ∈ payload.permissions then .ok ()
      else .error (forbidden "forbidden")

/- `newRefreshToken` and `randomB64URL` -/
def Env.token (env : Env) : Except Status String := env.random.mapError internal

theorem Env.token_ok {env : Env} {token : String}
    (hOk : env.token = .ok token) : env.random = .ok token := by
  unfold Env.token at hOk
  cases hRandom : env.random with
  | error e =>
    rw [hRandom] at hOk
    cases hOk
  | ok random =>
    rw [hRandom] at hOk
    cases hOk
    rfl

----
-- Shared Statements
----

/- `getRolesAndPermissions` -/
def getRolesAndPermissions (userID : String) : Tx (List String × List String) := do
  let roles : List String ← sql (.selectRoles userID)
  let perms : List String ← sql (.selectPermissions userID)
  if roles = [] then
    Prog.fail (internal (.text ("no roles assigned for user " ++ userID)))
  else return (roles, perms)

/- One row of a bulk `update` after the other. -/
def revokeEach (now : Time) : List String → Tx Nat
| [] => return 0
| h :: hs => do
    let n : Nat ← sql (.revokeUnrevoked h now)
    let m ← revokeEach now hs
    return n + m

/- `set revoked_at` on the unrevoked sessions of a user -/
def revokeAll (userID : String) (now : Time) : Tx Nat := do
  let hashes : List String ← sql (.scanUnrevoked userID)
  revokeEach now hashes

/- The access token for a user. -/
def Server.accessToken (srv : Server) (env : Env) (userID : String)
    (roles perms : List String) : Except Status String :=
  (srv.createToken {
    userID := userID
    roles := roles
    permissions := perms
    issuedAt := env.accessNow
    expiredAt := env.accessNow + srv.accessTTL }).mapError internal

----
-- A Server To Look At
----

/- Nothing is hidden by this server's hashes and tokens. -/
def Server.plain : Server where
  accessTTL := 900000000000
  refreshTTL := 86400000000000
  createToken := fun payload => .ok payload.userID
  verifyToken := fun now token =>
    .ok ⟨token, ["user"],
      if token = "admin" then ["auth:admin"] else [], now, now⟩
  sha256 := id
  hashPassword := fun salt pw => .ok (salt ++ pw)
  verifyPassword := fun pw hash => .ok (decide (pw = hash))
  parseURL := fun s => some ⟨"https", s, ""⟩
  withQuery := fun uri _ => uri
  toLower := id
  toUpper := id
  decodeBase64 := some

/- A call at a time, with the random text it draws. -/
def Env.drawing (now : Time) (random : String) : Env := ⟨now, now, .ok random, random, ""⟩

end Fincore.Auth
