import Fincore.Auth.Limiter
import Fincore.Auth.OAuth
import Fincore.Lib.Embed
import Mathlib.Data.List.Sort

/-
  All tables of the auth service, and all statements of `infrastructure/grpc/server.go` and
  `cleanup.go`.

  `Auth.authdb` is the part with the sessions and the authorization codes; its programs are programs
  here. The users, roles, consents and the login limiter are added. The limiter changes at once,
  whether or not a transaction commits. `issued` remembers every session row that was ever inserted;
  no statement reads it.

  Key definitions include:
    * `Db` and `Db.auth`
    * `Stmt` and `Stmt.exec`
    * `Write.apply`
    * `store`
    * `core`

  Main results:
    * `Stmt.holds_wanted`
    * `auth_core`
-/

----
-- Tables
----

namespace Fincore.AuthService

open Auth

/- A row of `auth_users` -/
structure User where
  id : String
  email : String
  fullName : String
  passwordHash : String
  deriving DecidableEq

/- A row of `auth_roles` or of `auth_permissions` -/
structure Named where
  id : String
  name : String
  deriving DecidableEq

/- A row of `oauth_consents` -/
structure Consent where
  userID : String
  clientID : String
  scopes : List String
  createdAt : Time
  updatedAt : Time
  deriving DecidableEq

def Consent.key (c : Consent) : String × String := (c.userID, c.clientID)

/- A row of `oauth_consent_history`, without its number. -/
structure ConsentEntry where
  userID : String
  clientID : String
  scopes : List String
  createdAt : Time
  deriving DecidableEq

/- The tables of the migrations; the rows of a list are in the order of their insertion. -/
structure Db where
  users : Table User.id
  roles : Table Named.id
  permissions : Table Named.id
  rolePermissions : List (String × String)
  userRoles : List (String × String)
  sessions : Table Session.tokenHash
  codes : Table Code.codeHash
  clients : Table Client.id
  consents : Table Consent.key
  history : List ConsentEntry
  limiter : Option LoginLimiter
  issued : List Session

/- The names of a user's roles, in order. -/
def Db.rolesOf (db : Db) (userID : String) : List String :=
  ((db.roles.rows.filter (fun r =>
    decide ((userID, r.id) ∈ db.userRoles))).map Named.name).insertionSort (· ≤ ·)

/- The names of a user's permissions, each once, in order. -/
def Db.permissionsOf (db : Db) (userID : String) : List String :=
  (((db.permissions.rows.filter (fun p =>
    db.rolePermissions.any (fun rp =>
      rp.2 = p.id && (userID, rp.1) ∈ db.userRoles))).map
        Named.name).eraseDups).insertionSort (· ≤ ·)

/- The part that sessions and codes live in. -/
def Db.auth (db : Db) : AuthDb where
  users := db.users.rows.map User.id
  roles := db.rolesOf
  permissions := db.permissionsOf
  sessions := db.sessions
  codes := db.codes
  clients := db.clients

----
-- Statements
----

/-
  `core` are the statements on sessions, codes and clients. A bulk `delete` has two halves, as a
  bulk `update` has: it collects its rows, and then takes them one by one.
-/
inductive Stmt where
  | core (s : Auth.Stmt)
  | selectUser (email : String)
  | insertUser (row : User)
  | insertUserRole (userID roleID : String)
  | deleteUserRole (userID roleID : String)
  | selectRoleID (name : String)
  | selectConsent (userID clientID : String)
  | lockConsent (userID clientID : String)
  | upsertConsent (userID clientID : String) (scopes : List String) (now : Time)
  | insertConsentEntry (userID clientID : String) (scopes : List String) (now : Time)
  | listConsentEntries (userID clientID : String) (limit : Nat)
  | listClients (limit : Nat)
  | updateClient (column value id : String)
  | scanExpired (now : Time)
  | deleteExpired (tokenHash : String) (now : Time)
  | scanRevoked (cutoff : Time)
  | deleteRevoked (tokenHash : String) (cutoff : Time)
  | allow (now : Time) (key : String)
  | onFailure (now : Time) (key : String)
  | onSuccess (key : String)

@[reducible] def Resp : Stmt → Type
| .core s => Auth.Resp s
| .selectUser _ => Option User
| .insertUser _ => Unit
| .insertUserRole _ _ => Unit
| .deleteUserRole _ _ => Unit
| .selectRoleID _ => Option String
| .selectConsent _ _ => Option (List String)
| .lockConsent _ _ => Option (List String)
| .upsertConsent _ _ _ _ => Unit
| .insertConsentEntry _ _ _ _ => Unit
| .listConsentEntries _ _ _ => List (List String × Time)
| .listClients _ => List Client
| .updateClient _ _ _ => Nat
| .scanExpired _ => List String
| .deleteExpired _ _ => Nat
| .scanRevoked _ => List String
| .deleteRevoked _ _ => Nat
| .allow _ _ => Bool
| .onFailure _ _ => Unit
| .onSuccess _ => Unit

inductive Write where
  | core (w : Auth.Write)
  | insertUser (row : User)
  | insertUserRole (userID roleID : String)
  | deleteUserRole (userID roleID : String)
  | lockConsent (userID clientID : String)
  | insertConsent (row : Consent)
  | updateConsent (userID clientID : String) (scopes : List String) (at_ : Time)
  | insertConsentEntry (row : ConsentEntry)
  | updateClient (column value id : String)
  | deleteSession (tokenHash : String)
  deriving DecidableEq

/- Rows that a transaction can hold. -/
inductive Row where
  | core (r : Auth.Row)
  | user (id : String)
  | email (email : String)
  | userRole (userID roleID : String)
  | consent (userID clientID : String)
  deriving DecidableEq

/- `set scopes = excluded.scopes, updated_at = now()` -/
def Consent.renew (scopes : List String) (at_ : Time) (c : Consent) : Consent :=
  { c with scopes := scopes, updatedAt := at_ }

theorem Consent.key_renew (scopes : List String) (at_ : Time) (c : Consent) :
    (c.renew scopes at_).key = c.key := rfl

/- The columns of `oauth_clients` that hold a text. -/
def clientColumns : List String := ["name", "type", "secret_hash"]

/- `set column = value` -/
def setColumn (column value : String) (c : Client) : Client :=
  if column = "name" then { c with name := value }
  else if column = "type" then { c with type := value }
  else if column = "secret_hash" then
    { c with secretHash := some value }
  else c

theorem setColumn_id (column value : String) (c : Client) :
    (setColumn column value c).id = c.id := by
  unfold setColumn
  split_ifs
  · rfl
  · rfl
  · rfl
  · rfl

/-
  What comes with a write: the consents of a client go when the client goes, and a new session is
  remembered.
-/
def Db.cascade (db : Db) : Auth.Write → Db
| .deleteClient id =>
  { db with
    consents := db.consents.filter (fun c => decide (c.clientID ≠ id))
    history := db.history.filter (fun e => decide (e.clientID ≠ id)) }
| .insertSession row => { db with issued := db.issued ++ [row] }
| _ => db

/- What a write makes of the database. -/
def Write.apply (db : Db) : Write → Db
| .core w =>
  { db.cascade w with
    sessions := (w.apply db.auth).sessions
    codes := (w.apply db.auth).codes
    clients := (w.apply db.auth).clients }
| .insertUser row => { db with users := db.users.insert row }
| .insertUserRole userID roleID =>
  { db with userRoles := db.userRoles ++ [(userID, roleID)] }
| .deleteUserRole userID roleID =>
  { db with userRoles := db.userRoles.filter (fun ur => decide (ur ≠ (userID, roleID))) }
| .lockConsent _ _ => db
| .insertConsent row =>
  { db with consents := db.consents.insert row }
| .updateConsent userID clientID scopes at_ =>
  { db with
    consents := db.consents.modify (userID, clientID)
      (Consent.renew scopes at_) (Consent.key_renew scopes at_) }
| .insertConsentEntry row =>
  { db with history := db.history ++ [row] }
| .updateClient column value id =>
  { db with clients := db.clients.modify id (setColumn column value) (setColumn_id column value) }
| .deleteSession h =>
  { db with sessions := db.sessions.filter (fun s => decide (s.tokenHash ≠ h)) }

----
-- Answers
----

def uniqueViolation (constraint : String) : Status := internal (.pg (.uniqueViolation constraint))

def missing (table constraint : String) : Status := internal (foreignKeyViolation table constraint)

/- The user and the client that a row refers to. -/
def Db.refers (db : Db) (table userID clientID : String) : Except Status Unit :=
  match db.users.lookup userID, db.clients.lookup clientID with
  | none, _ => .error (missing table (table ++ "_user_id_fkey"))
  | _, none =>
    .error (missing table (table ++ "_client_id_fkey"))
  | some _, some _ => .ok ()

/- `expires_at < $1 or absolute_expires_at < $1` -/
def expired (now : Time) (s : Session) : Bool :=
  decide (s.expiresAt < timestamptz now) || decide (s.absoluteExpiresAt < timestamptz now)

/- `revoked_at is not null and revoked_at < $1` -/
def revokedBefore (cutoff : Time) (s : Session) : Bool :=
  s.revokedAt.any (fun t => decide (t < timestamptz cutoff))

/- The rows that a bulk `delete` collects. -/
def Db.collect (db : Db) (p : Session → Bool) : List String :=
  (db.sessions.rows.filter p).map Session.tokenHash

/- Delete one of them, if it is still to be deleted. -/
def Db.remove (db : Db) (p : Session → Bool) (h : String) : Nat × List Write :=
  match db.sessions.lookup h with
  | some s => if p s then (1, [.deleteSession h]) else (0, [])
  | none => (0, [])

namespace Stmt

/- The answer to a statement, and what it writes. -/
def exec : (s : Stmt) → Db → Except Status (Resp s × List Write)
| .core s, db =>
  (s.exec db.auth).map (fun answer =>
    (answer.1, answer.2.map Write.core))
| .selectUser email, db =>
  .ok (db.users.rows.find? (fun u =>
    decide (u.email = email)), [])
| .insertUser row, db =>
  if (db.users.lookup row.id).isSome then
    .error (uniqueViolation "auth_users_pkey")
  else if db.users.rows.any (fun u =>
      decide (u.email = row.email)) then
    .error (uniqueViolation "auth_users_email_key")
  else .ok ((), [.insertUser row])
| .insertUserRole userID roleID, db =>
  -- on conflict do nothing
  if (userID, roleID) ∈ db.userRoles then .ok ((), [])
  else if (db.users.lookup userID).isNone then
    .error (missing "auth_user_roles" "auth_user_roles_user_id_fkey")
  else if (db.roles.lookup roleID).isNone then
    .error (missing "auth_user_roles" "auth_user_roles_role_id_fkey")
  else .ok ((), [.insertUserRole userID roleID])
| .deleteUserRole userID roleID, db =>
  .ok ((), if (userID, roleID) ∈ db.userRoles then
    [.deleteUserRole userID roleID] else [])
| .selectRoleID name, db =>
  .ok ((db.roles.rows.find? (fun r =>
    decide (r.name = name))).map Named.id, [])
| .selectConsent userID clientID, db =>
  .ok ((db.consents.lookup (userID, clientID)).map Consent.scopes, [])
| .lockConsent userID clientID, db =>
  .ok ((db.consents.lookup (userID, clientID)).map Consent.scopes,
    match db.consents.lookup (userID, clientID) with
    | some _ => [.lockConsent userID clientID]
    | none => [])
| .upsertConsent userID clientID scopes now, db =>
  -- a list without elements is sent as a null
  if scopes = [] then
    .error (internal (notNullViolation "scopes" "oauth_consents"))
  else
    match db.consents.lookup (userID, clientID) with
    | some _ =>
      .ok ((), [.updateConsent userID clientID scopes (timestamptz now)])
    | none =>
      match db.refers "oauth_consents" userID clientID with
      | .error e => .error e
      | .ok () =>
        .ok ((), [.insertConsent ⟨userID, clientID, scopes, timestamptz now, timestamptz now⟩])
| .insertConsentEntry userID clientID scopes now, db =>
  if scopes = [] then
    .error (internal (notNullViolation "scopes" "oauth_consent_history"))
  else
    match db.refers "oauth_consent_history" userID clientID with
    | .error e => .error e
    | .ok () =>
      .ok ((), [.insertConsentEntry ⟨userID, clientID, scopes, timestamptz now⟩])
| .listConsentEntries userID clientID limit, db =>
  .ok ((((db.history.filter (fun e =>
    e.userID = userID && e.clientID = clientID)).reverse).map
      (fun e => (e.scopes, e.createdAt))).take limit, [])
| .listClients limit, db =>
  .ok (db.clients.rows.reverse.take limit, [])
| .updateClient column value id, db =>
  if column ∈ clientColumns then
    .ok (match db.clients.lookup id with
      | some _ => (1, [.updateClient column value id])
      | none => (0, []))
  else
    .error (internal (.pg (.undefinedColumn "oauth_clients" column)))
| .scanExpired now, db => .ok (db.collect (expired now), [])
| .deleteExpired h now, db => .ok (db.remove (expired now) h)
| .scanRevoked cutoff, db =>
  .ok (db.collect (revokedBefore cutoff), [])
| .deleteRevoked h cutoff, db =>
  .ok (db.remove (revokedBefore cutoff) h)
| .allow now key, db =>
  .ok (match db.limiter with
    | some l => (l.allow now key).1.1
    | none => true, [])
| .onFailure _ _, _ => .ok ((), [])
| .onSuccess _, _ => .ok ((), [])

/- The limiter is no table: it does not wait for a commit. -/
def tick : Stmt → Db → Db
| .allow now key, db =>
  { db with
    limiter := db.limiter.map (fun l =>
      (l.allow now key).2) }
| .onFailure now key, db =>
  { db with
    limiter := db.limiter.map (fun l =>
      l.onFailure now key) }
| .onSuccess key, db =>
  { db with limiter := db.limiter.map (fun l => l.onSuccess key) }
| _, db => db

/- The rows a statement waits for. -/
def wants : Stmt → List Row
| .core s => s.wants.map Row.core
| .insertUser row => [.user row.id, .email row.email]
| .insertUserRole userID roleID => [.userRole userID roleID]
| .deleteUserRole userID roleID => [.userRole userID roleID]
| .lockConsent userID clientID => [.consent userID clientID]
| .upsertConsent userID clientID _ _ =>
  [.consent userID clientID]
| .updateClient _ _ id => [.core (.client id)]
| .deleteExpired h _ => [.core (.session h)]
| .deleteRevoked h _ => [.core (.session h)]
| _ => []

end Stmt

/- The rows a write holds. -/
def Write.holds : Write → List Row
| .core w => w.holds.map Row.core
| .insertUser row => [.user row.id, .email row.email]
| .insertUserRole userID roleID => [.userRole userID roleID]
| .deleteUserRole userID roleID => [.userRole userID roleID]
| .lockConsent userID clientID => [.consent userID clientID]
| .insertConsent row => [.consent row.userID row.clientID]
| .updateConsent userID clientID _ _ =>
  [.consent userID clientID]
| .insertConsentEntry _ => []
| .updateClient _ _ id => [.core (.client id)]
| .deleteSession h => [.core (.session h)]

----
-- The Store
----

variable {db : Db} {ws : List Write}

theorem exec_core {s : Auth.Stmt} {r : Auth.Resp s} (hExec : (Stmt.core s).exec db = .ok (r, ws)) :
    ∃ ws', ws = ws'.map Write.core ∧ s.exec db.auth = .ok (r, ws') := by
  simp only [Stmt.exec] at hExec
  cases hCore : s.exec db.auth with
  | error e =>
    rw [hCore] at hExec
    cases hExec
  | ok answer =>
    rw [hCore] at hExec
    cases hExec
    exact ⟨answer.2, rfl, rfl⟩

variable {p : Session → Bool}

theorem mem_remove {h : String} {w : Write}
    (hMem : w ∈ (db.remove p h).2) : w = .deleteSession h := by
  unfold Db.remove at hMem
  split at hMem
  · split at hMem
    · exact List.mem_singleton.mp hMem
    · cases hMem
  · cases hMem

theorem exec_remove {h : String} {n : Nat} {w : Write}
    (hExec : (.ok (db.remove p h) : Except Status _) = .ok (n, ws))
    (hMem : w ∈ ws) : w = .deleteSession h := by
  have hWs : (db.remove p h).2 = ws := congrArg Prod.snd (Except.ok.inj hExec)
  rw [← hWs] at hMem
  exact mem_remove hMem

/- A statement writes rows it has waited for. -/
theorem Stmt.holds_wanted (s : Stmt) (db : Db) (r : Resp s) (ws : List Write)
    (hExec : s.exec db = .ok (r, ws)) : ∀ w ∈ ws, ∀ row ∈ w.holds, row ∈ s.wants := by
  intro w hMem row hRow
  cases s with
  | core s =>
    rcases exec_core hExec with ⟨ws', rfl, hCore⟩
    rcases List.mem_map.mp hMem with ⟨w', hMem', rfl⟩
    rcases List.mem_map.mp hRow with ⟨row', hRow', rfl⟩
    exact List.mem_map_of_mem (Auth.Stmt.holds_wanted s db.auth r ws' hCore w' hMem' row' hRow')
  | insertUser new =>
    simp only [exec] at hExec
    split_ifs at hExec
    cases hExec
    rw [List.mem_singleton.mp hMem] at hRow
    exact hRow
  | insertUserRole userID roleID =>
    simp only [exec] at hExec
    split_ifs at hExec
    · cases hExec
      cases hMem
    · cases hExec
      rw [List.mem_singleton.mp hMem] at hRow
      exact hRow
  | deleteUserRole userID roleID =>
    cases hExec
    split_ifs at hMem
    · rw [List.mem_singleton.mp hMem] at hRow
      exact hRow
    · cases hMem
  | lockConsent userID clientID =>
    cases hExec
    split at hMem
    · rw [List.mem_singleton.mp hMem] at hRow
      exact hRow
    · cases hMem
  | upsertConsent userID clientID scopes now =>
    simp only [exec] at hExec
    split_ifs at hExec
    split at hExec
    · cases hExec
      rw [List.mem_singleton.mp hMem] at hRow
      exact hRow
    · split at hExec
      · cases hExec
      · cases hExec
        rw [List.mem_singleton.mp hMem] at hRow
        exact hRow
  | insertConsentEntry userID clientID scopes now =>
    simp only [exec] at hExec
    split_ifs at hExec
    split at hExec
    · cases hExec
    · cases hExec
      rw [List.mem_singleton.mp hMem] at hRow
      cases hRow
  | updateClient column value id =>
    simp only [exec] at hExec
    split_ifs at hExec
    split at hExec
    · cases hExec
      rw [List.mem_singleton.mp hMem] at hRow
      exact hRow
    · cases hExec
      cases hMem
  | deleteExpired h now =>
    rw [exec_remove hExec hMem] at hRow
    exact hRow
  | deleteRevoked h cutoff =>
    rw [exec_remove hExec hMem] at hRow
    exact hRow
  | _ =>
    cases hExec
    cases hMem

/- The database under the transactions of the service. -/
def store : Engine Db Stmt Resp Write Row Status where
  now := fun _ => 0
  exec := fun _ s db => s.exec db
  tick := Stmt.tick
  apply := Write.apply
  wants := Stmt.wants
  holds := Write.holds
  broken := internal (.pg .connection)
  holds_wanted := fun _ s db r ws hExec =>
    Stmt.holds_wanted s db r ws hExec

/- Writes on sessions, codes and clients change no user. -/
theorem auth_core (db : Db) (w : Auth.Write) :
    ((Write.core w).apply db).auth = w.apply db.auth := by
  cases w with
  | coalesceRevoked h at_ => rfl
  | setRevoked h at_ => rfl
  | rotateSession h at_ newHash userAgent ip => rfl
  | insertSession row => rfl
  | insertClient row => rfl
  | deleteClient id => rfl
  | insertCode row => rfl
  | consumeCode h at_ => rfl

/- The store of sessions and codes inside this one. -/
def core : Engine.Embedding authdb store where
  part := Db.auth
  stmt := Stmt.core
  resp := fun _ r => r
  write := Write.core
  now := fun _ => rfl
  exec := fun _ _ _ _ _ hExec => exec_core hExec
  refuse := by
    intro began s db e hExec
    have hCore :
        (s.exec db.auth).map (fun answer =>
          (answer.1, answer.2.map Write.core)) = .error e := hExec
    show s.exec db.auth = .error e
    cases hAnswer : s.exec db.auth with
    | error e' =>
      rw [hAnswer] at hCore
      cases hCore
      rfl
    | ok answer =>
      rw [hAnswer] at hCore
      cases hCore
  apply := auth_core
  tick := fun _ _ => rfl

abbrev Tx := Prog Stmt Resp Status

def sql (s : Stmt) : Tx (Resp s) := Prog.request s

/- A program on sessions, codes and clients. -/
def lift {α : Type} (p : Auth.Tx α) : Tx α := core.lift p

end Fincore.AuthService
