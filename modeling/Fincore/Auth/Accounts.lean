import Fincore.Auth.Service
import Fincore.Lib.Serial

/-
  The handlers of `infrastructure/grpc/server.go` on users, roles, clients and consents, and
  `CleanupRefreshSessions` of `cleanup.go`; and every RPC of the service as one call.

  A handler that writes outside a transaction writes with its last statement, so that a call of it
  is a transaction. `RefreshToken` goes on after its commit. The two deletions of the cleanup are
  transactions of their own.

  Key definitions include:
    * `Service`
    * `Service.register` and `Service.login`
    * `storeOAuthConsent`
    * `Service.rotateOAuthClientSecret`
    * `Rpc`, `Incoming` and `Service.tx`
    * `Service.serve`
    * `deleteExpired` and `deleteRevoked`

  Main results:
    * `serve_error` and `serve_ok`
-/

----
-- Users
----

namespace Fincore.AuthService

open Auth

/- The server, and whether a text is an address of mail. -/
structure Service extends Server where
  parseAddress : String → Bool

/- `normalizeEmail` -/
def Service.normalizeEmail (srv : Service) (email : String) : Except Status String :=
  let e := trimSpace (srv.toLower email)
  if e = "" then .error (invalidArg "email required")
  else if ¬ srv.parseAddress e then
    .error (invalidArg "invalid email")
  else .ok e

/- `RegisterRequest` -/
structure RegisterRequest where
  email : String
  password : String
  fullName : String

/- The row of a new user, or why there is none. -/
def Service.newUser (srv : Service) (req : RegisterRequest) (env : Auth.Env) : Except Status User :=
  match srv.normalizeEmail req.email with
  | .error e => .error e
  | .ok email =>
    let password := trimSpace req.password
    if password = "" then
      .error (invalidArg "password required")
    else if password.utf8ByteSize < 8 then
      .error (invalidArg "password too short")
    else if trimSpace req.fullName = "" then
      .error (invalidArg "full_name required")
    else
      match srv.hashPassword env.salt password with
      | .error e => .error (internal e)
      | .ok pwHash =>
        .ok ⟨env.newID, email, req.fullName, pwHash⟩

/- `Register` -/
def Service.register (srv : Service) (req : RegisterRequest) (env : Auth.Env) : Tx String := do
  let user ← Prog.ofExcept (srv.newUser req env)
  let _ : Unit ← sql (.insertUser user)
  let _ : Unit ← sql (.insertUserRole user.id "role_customer")
  return user.id

/- `LoginRequest` -/
structure LoginRequest where
  email : String
  password : String

/- What the limiter counts the attempts of. -/
def limiterKey (email : String) (md : Metadata) : String :=
  email ++ "|" ++ (clientMetaFromContext md).2

/- The last part of `Login`: a new session. -/
def Service.openSession (srv : Service) (md : Metadata) (env : Auth.Env)
    (userID : String) : Tx Tokens := do
  let (roles, perms) ← lift (getRolesAndPermissions userID)
  let access ← Prog.ofExcept (srv.accessToken env userID roles perms)
  let refresh ← Prog.ofExcept env.token
  let refreshHash := srv.hashRefreshToken refresh
  let refreshExp := env.accessNow + srv.refreshTTL
  let _ : Unit ← sql (.core (.insertSession
    (Session.opened refreshHash refreshHash userID refreshExp refreshExp
      (nullIfEmpty (clientMetaFromContext md).1) (nullIfEmpty (clientMetaFromContext md).2))))
  return ⟨access, refresh, srv.accessTTL.tdiv 1000000000⟩

/- An attempt that failed. -/
def refuseLogin (key : String) (env : Auth.Env) : Tx Tokens := do
  let _ : Unit ← sql (.onFailure env.accessNow key)
  .fail (unauth "invalid credentials")

/- `Login`, once the limiter has let it pass -/
def Service.loginAs (srv : Service) (key password : String) (md : Metadata)
    (env : Auth.Env) : Option User → Tx Tokens
| none => refuseLogin key env
| some user =>
  match srv.verifyPassword password user.passwordHash with
  | .error e => .fail (internal e)
  | .ok false => refuseLogin key env
  | .ok true => do
      let _ : Unit ← sql (.onSuccess key)
      srv.openSession md env user.id

/- `Login` -/
def Service.login (srv : Service) (req : LoginRequest) (md : Metadata)
    (env : Auth.Env) : Tx Tokens := do
  let email ← Prog.ofExcept (srv.normalizeEmail req.email)
  let password := trimSpace req.password
  if password = "" then
    .fail (invalidArg "password required")
  else do
    let key := limiterKey email md
    let allowed : Bool ← sql (.allow env.now key)
    if ¬ allowed then
      .fail (rateLimited "too many login attempts")
    else do
      let row : Option User ← sql (.selectUser email)
      srv.loginAs key password md env row

/- `ValidateToken` -/
def Service.validateToken (srv : Service) (accessToken : String)
    (env : Auth.Env) : Tx (String × List String × List String) :=
  if trimSpace accessToken = "" then
    .fail (invalidArg "access_token required")
  else do
    let payload ← Prog.ofExcept (srv.payload env.now accessToken)
    return (payload.userID, payload.roles, payload.permissions)

----
-- Roles And Clients
----

/- What is for the admin only. -/
def Service.admin (srv : Service) (md : Metadata) (env : Auth.Env) : Except Status Unit :=
  srv.requirePermissionFromAuthHeader md env "auth:admin"

/- `GrantRoleRequest` and `RevokeRoleRequest` -/
structure RoleRequest where
  userID : String
  roleName : String

/- What `GrantRole` and `RevokeRole` have in common. -/
def Service.withRole (srv : Service) (req : RoleRequest) (md : Metadata)
    (env : Auth.Env) (change : String → String → Stmt)
    (done : ∀ u r, Resp (change u r) → Unit) : Tx Unit := do
  Prog.ofExcept (srv.admin md env)
  let userID := trimSpace req.userID
  let roleName := trimSpace req.roleName
  if userID = "" then .fail (invalidArg "user_id required")
  else if roleName = "" then
    .fail (invalidArg "role_name required")
  else do
    let row : Option String ← sql (.selectRoleID roleName)
    match row with
    | none => .fail (notFound "unknown role")
    | some roleID => do
        let answer ← sql (change userID roleID)
        return done userID roleID answer

/- `GrantRole` -/
def Service.grantRole (srv : Service) (req : RoleRequest) (md : Metadata)
    (env : Auth.Env) : Tx Unit := srv.withRole req md env .insertUserRole (fun _ _ _ => ())

/- `RevokeRole` -/
def Service.revokeRole (srv : Service) (req : RoleRequest) (md : Metadata)
    (env : Auth.Env) : Tx Unit := srv.withRole req md env .deleteUserRole (fun _ _ _ => ())

/- `ListUserRoles` -/
def Service.listUserRoles (srv : Service) (userID : String) (md : Metadata)
    (env : Auth.Env) : Tx (List String) := do
  Prog.ofExcept (srv.admin md env)
  if trimSpace userID = "" then
    .fail (invalidArg "user_id required")
  else do
    let roles : List String ← sql (.core (.selectRoles (trimSpace userID)))
    return roles

/- `GetOAuthClient` -/
def Service.getOAuthClient (srv : Service) (clientID : String) (md : Metadata)
    (env : Auth.Env) : Tx Client := do
  Prog.ofExcept (srv.admin md env)
  lift (fetchOAuthClient clientID)

/- `ListOAuthClients` -/
def Service.listOAuthClients (srv : Service) (md : Metadata)
    (env : Auth.Env) : Tx (List Client) := do
  Prog.ofExcept (srv.admin md env)
  let rows : List Client ← sql (.listClients 50)
  return rows

/- `security.GenerateSecret` -/
def generateSecret (env : Auth.Env) : Except Status String :=
  env.random.mapError (fun e =>
    internal (.wrap "failed to generate secret" (.wrap "read random" e)))

/- `RotateOAuthClientSecret` -/
def Service.rotateOAuthClientSecret (srv : Service) (clientID : String)
    (md : Metadata) (env : Auth.Env) : Tx String := do
  Prog.ofExcept (srv.admin md env)
  if trimSpace clientID = "" then
    .fail (invalidArg "client_id required")
  else do
    let newSecret ← Prog.ofExcept (generateSecret env)
    let n : Nat ← sql (.updateClient "secret" newSecret (trimSpace clientID))
    if n = 0 then .fail (notFound "unknown client")
    else return newSecret

----
-- Consents
----

/- `StoreOAuthConsentRequest` -/
structure ConsentRequest where
  userID : String
  clientID : String
  scopes : List String

/- `equalStringSets`, which counts -/
def equalStringSets (a b : List String) : Bool :=
  (a.isEmpty && b.isEmpty) ||
    (registerScopes a ++ registerScopes b).all (fun s =>
      (registerScopes a).count s = (registerScopes b).count s)

/- `GetOAuthConsent` -/
def getOAuthConsent (userID clientID : String) : Tx (List String) :=
  if trimSpace userID = "" ∨ trimSpace clientID = "" then
    .fail (invalidArg "user_id and client_id required")
  else do
    let row : Option (List String) ← sql (.selectConsent (trimSpace userID) (trimSpace clientID))
    return row.getD []

/- What a consent changes, next to the one there is. -/
def consentChanged (scopes : List String) : Option (List String) → Bool
| none => true
| some existing => !equalStringSets existing scopes

/- `StoreOAuthConsent`; `now()` is when it began -/
def storeOAuthConsent (req : ConsentRequest) (began : Time) : Tx Unit :=
  let userID := trimSpace req.userID
  let clientID := trimSpace req.clientID
  if userID = "" ∨ clientID = "" then
    .fail (invalidArg "user_id and client_id required")
  else do
    let existing : Option (List String) ← sql (.lockConsent userID clientID)
    let _ : Unit ← sql (.upsertConsent userID clientID req.scopes began)
    if consentChanged req.scopes existing then do
      let _ : Unit ← sql (.insertConsentEntry userID clientID req.scopes began)
      return ()
    else return ()

/- How many entries are listed. -/
def historyLimit (limit : Int) : Nat :=
  if limit ≤ 0 then 50
  else if limit > 200 then 200
  else limit.toNat

/- `ListOAuthConsentHistory` -/
def listOAuthConsentHistory (userID clientID : String)
    (limit : Int) : Tx (List (List String × Time)) :=
  if trimSpace userID = "" ∨ trimSpace clientID = "" then
    .fail (invalidArg "user_id and client_id required")
  else do
    let entries : List (List String × Time) ← sql
      (.listConsentEntries (trimSpace userID) (trimSpace clientID) (historyLimit limit))
    return entries

----
-- Cleanup
----

/- One row of a bulk `delete` after the other. -/
def deleteEach (stmt : String → Stmt) (count : ∀ h, Resp (stmt h) → Nat) : List String → Tx Nat
| [] => return 0
| h :: hs => do
    let n ← sql (stmt h)
    let m ← deleteEach stmt count hs
    return count h n + m

/- The first deletion of `CleanupRefreshSessions` -/
def deleteExpired (now : Time) : Tx Nat := do
  let hashes : List String ← sql (.scanExpired now)
  deleteEach (fun h => .deleteExpired h now) (fun _ n => n) hashes

/- The second one, if revoked sessions are not kept for good -/
def deleteRevoked (now revokedRetention : Time) : Tx Nat :=
  if revokedRetention > 0 then do
    let cutoff := now - revokedRetention
    let hashes : List String ← sql (.scanRevoked cutoff)
    deleteEach (fun h => .deleteRevoked h cutoff) (fun _ n => n) hashes
  else return 0

----
-- Every RPC
----

/- The requests of `AuthService`. -/
inductive Rpc where
  | register (req : RegisterRequest)
  | login (req : LoginRequest)
  | validateToken (accessToken : String)
  | refreshToken (refreshToken : String)
  | logout (refreshToken : String)
  | logoutAll (accessToken : String)
  | grantRole (req : RoleRequest)
  | revokeRole (req : RoleRequest)
  | listUserRoles (userID : String)
  | createOAuthClient (req : CreateClientRequest)
  | getOAuthClient (clientID : String)
  | listOAuthClients
  | deleteOAuthClient (clientID : String)
  | rotateOAuthClientSecret (clientID : String)
  | getOAuthConsent (userID clientID : String)
  | storeOAuthConsent (req : ConsentRequest) (began : Time)
  | listOAuthConsentHistory (userID clientID : String) (limit : Int)
  | oauthAuthorize (req : AuthorizeRequest)
  | oauthToken (req : TokenRequest)

/- A request with its metadata and what its handler draws. -/
structure Incoming where
  rpc : Rpc
  md : Metadata
  env : Auth.Env

/- Their responses; `rotated` has yet to be answered. -/
inductive Reply where
  | userID (userID : String)
  | tokens (tokens : Tokens)
  | rotated (rotation : Rotation)
  | payload (payload : String × List String × List String)
  | success
  | revoked (sessions : Nat)
  | names (names : List String)
  | client (client : Client) (secret : String)
  | clients (clients : List Client)
  | secret (secret : String)
  | entries (entries : List (List String × Time))
  | code (response : AuthorizeResponse)
  | exchanged (response : TokenResponse)
  deriving DecidableEq

/- What a handler does up to its commit. -/
def Service.tx (srv : Service) (c : Incoming) : Tx Reply :=
  match c.rpc with
  | .register req => do
      return .userID (← srv.register req c.env)
  | .login req => do
      return .tokens (← srv.login req c.md c.env)
  | .validateToken accessToken => do
      return .payload (← srv.validateToken accessToken c.env)
  | .refreshToken token => do
      return .rotated (← lift (srv.refreshToken token c.md c.env))
  | .logout token => do
      lift (srv.logout token c.env)
      return .success
  | .logoutAll accessToken => do
      return .revoked (← lift (srv.logoutAll accessToken c.md c.env))
  | .grantRole req => do
      srv.grantRole req c.md c.env
      return .success
  | .revokeRole req => do
      srv.revokeRole req c.md c.env
      return .success
  | .listUserRoles userID => do
      return .names (← srv.listUserRoles userID c.md c.env)
  | .createOAuthClient req => do
      let (client, secret) ← lift (srv.createOAuthClient req c.md c.env)
      return .client client secret
  | .getOAuthClient clientID => do
      return .client (← srv.getOAuthClient clientID c.md c.env) ""
  | .listOAuthClients => do
      return .clients (← srv.listOAuthClients c.md c.env)
  | .deleteOAuthClient clientID => do
      lift (srv.deleteOAuthClient clientID c.md c.env)
      return .success
  | .rotateOAuthClientSecret clientID => do
      return .secret (← srv.rotateOAuthClientSecret clientID c.md c.env)
  | .getOAuthConsent userID clientID => do
      return .names (← getOAuthConsent userID clientID)
  | .storeOAuthConsent req began => do
      storeOAuthConsent req began
      return .success
  | .listOAuthConsentHistory userID clientID limit => do
      return .entries (← listOAuthConsentHistory userID clientID limit)
  | .oauthAuthorize req => do
      return .code (← lift (srv.oauthAuthorize req c.md c.env))
  | .oauthToken req => do
      return .exchanged (← lift (srv.oauthToken req c.md c.env))

/- What a handler does after its commit. -/
def Service.afterCommit (srv : Service) (c : Incoming) : Reply → Tx Reply
| .rotated rotation => do
    return .tokens (← lift (srv.respond c.env rotation))
| r => return r

/- A call that runs alone. -/
def Service.serve (srv : Service) (c : Incoming) (db : Db) : Except Status Reply × Db :=
  match store.withTx (srv.tx c) db with
  | (.error e, db') => (.error e, db')
  | (.ok r, db') => store.withTx (srv.afterCommit c r) db'

variable {srv : Service} {c : Incoming}

theorem serve_error {db db' : Db} {e : Status}
    (hTx : store.withTx (srv.tx c) db = (.error e, db')) : srv.serve c db = (.error e, db') := by
  unfold Service.serve
  rw [hTx]

theorem serve_ok {db db' : Db} {r : Reply} (hTx : store.withTx (srv.tx c) db = (.ok r, db'))
    (hDone : srv.afterCommit c r = .ret r) : srv.serve c db = (.ok r, db') := by
  unfold Service.serve
  rw [hTx]
  dsimp only
  rw [hDone]
  rfl

----
-- A Service To Look At
----

/- A service whose hashes are the passwords themselves. -/
def Service.plain : Service where
  toServer := { Server.plain with hashPassword := fun _ password => .ok password }
  parseAddress := fun _ => true

def Db.empty : Db where
  users := Table.empty _
  roles := Table.empty _
  permissions := Table.empty _
  rolePermissions := []
  userRoles := []
  sessions := Table.empty _
  codes := Table.empty _
  clients := Table.empty _
  consents := Table.empty _
  history := []
  limiter := none
  issued := []

end Fincore.AuthService
