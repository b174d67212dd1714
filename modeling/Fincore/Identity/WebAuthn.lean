import Fincore.Lib.Autocommit
import Fincore.Lib.Table
import Fincore.Pkg.Money

/-
  Passkeys, of `services/identity-service/cmd/identity-service/webauthn.go`.

  A handler is a few statements that nothing holds together. The library that checks attestations
  and assertions is a parameter. `popped` remembers the sessions that handlers have taken; no
  statement reads it.

  Key definitions include:
    * `WebAuthnDb` and `Stmt`
    * `Library`
    * `Library.handleFinishRegister` and
      `Library.handleFinishLogin`
    * `Registered`
    * `own`

  Main results:
    * `keeping_prog`
    * `passkeyInv_step`
    * `passkeys_stay_own`
-/

----
-- Tables
----

namespace Fincore.WebAuthn

/- `webauthn.Credential`, with what the handlers use. -/
structure Credential where
  id : String
  publicKey : String
  signCount : Nat
  deriving DecidableEq

/- `webAuthnSessionKind` -/
inductive SessionKind where
  | login
  | register
  deriving DecidableEq

/- A row of `webauthn_sessions`. -/
structure SessionRow where
  id : String
  kind : SessionKind
  userID : String
  sessionData : String
  expiresAt : Time
  deriving DecidableEq

/- A row of `webauthn_credentials`. -/
structure CredentialRow where
  id : String
  userID : String
  credentialID : String
  credential : Credential
  signCount : Nat
  deriving DecidableEq

/- A row of `browser_sessions`. -/
structure BrowserSession where
  id : String
  userID : String
  accessToken : String
  expiresAt : Time

/- The tables, and the identifiers and emails of the users. -/
structure WebAuthnDb where
  users : List (String × String)
  credentials : Table CredentialRow.credentialID
  sessions : Table SessionRow.id
  browser : Table BrowserSession.id
  popped : List SessionRow

/- The rows of one user. -/
def WebAuthnDb.rowsOf (db : WebAuthnDb) (userID : String) : List CredentialRow :=
  db.credentials.rows.filter (fun row =>
    row.userID = userID)

inductive Stmt where
  | selectUser (email : String)
  | selectCredentials (userID : String)
  | insertSession (s : SessionRow)
  | popSession (id : String) (kind : SessionKind) (now : Time)
  | cleanupSessions (now : Time)
  | upsertCredential (row : CredentialRow)
  | updateCredential (userID credentialID : String) (credential : Credential)
  | deleteCredential (id userID : String)
  | selectBrowserSession (id : String) (now : Time)
  | insertBrowserSession (s : BrowserSession)
  | insertUser (id email : String)

@[reducible] def Resp : Stmt → Type
| .selectUser _ => Option (String × String)
| .selectCredentials _ => List Credential
| .insertSession _ => Unit
| .popSession _ _ _ => Option (String × String)
| .cleanupSessions _ => Unit
| .upsertCredential _ => Unit
| .updateCredential _ _ _ => Unit
| .deleteCredential _ _ => Bool
| .selectBrowserSession _ _ => Option BrowserSession
| .insertBrowserSession _ => Unit
| .insertUser _ _ => Unit

def foreignKey : GoError := .text "violates foreign key constraint"

def uniqueKey : GoError := .text "duplicate key value violates unique constraint"

def WebAuthnDb.hasUser (db : WebAuthnDb) (userID : String) : Bool :=
  db.users.any (fun user => user.1 = userID)

/- The row that stays when `credential_id` is taken. -/
def CredentialRow.overwritten (row new : CredentialRow) : CredentialRow :=
  { row with
    credential := new.credential
    signCount := new.signCount }

theorem CredentialRow.overwritten_credentialID (row new : CredentialRow) :
    (row.overwritten new).credentialID =
    row.credentialID := rfl

/- `on conflict (credential_id) do update` -/
def upsert (row : CredentialRow) (db : WebAuthnDb) : Except GoError Unit × WebAuthnDb :=
  match db.credentials.lookup row.credentialID with
  | some _ =>
    (.ok (), { db with
      credentials := db.credentials.modify row.credentialID (fun old => old.overwritten row)
        (fun old => old.overwritten_credentialID row) })
  | none =>
    if db.hasUser row.userID = false then
      (.error foreignKey, db)
    else if db.credentials.rows.any (fun old => old.id = row.id) then
      (.error uniqueKey, db)
    else
      (.ok (), { db with credentials := db.credentials.insert row })

/- `delete … returning user_id, session_data` -/
def pop (id : String) (kind : SessionKind) (now : Time) (db : WebAuthnDb) :
    Option (String × String) × WebAuthnDb :=
  match db.sessions.lookup id with
  | some s =>
    if s.kind = kind ∧ now < s.expiresAt then
      (some (s.userID, s.sessionData), { db with
        sessions := db.sessions.filter (fun t => t.id ≠ id)
        popped := db.popped ++ [s] })
    else (none, db)
  | none => (none, db)

def exec : (s : Stmt) → WebAuthnDb → Except GoError (Resp s) × WebAuthnDb
| .selectUser email, db =>
  (.ok (db.users.find? (fun user => user.2 = email)), db)
| .selectCredentials userID, db =>
  (.ok ((db.rowsOf userID).map CredentialRow.credential), db)
| .insertSession s, db =>
  if db.hasUser s.userID = false then (.error foreignKey, db)
  else
    match db.sessions.lookup s.id with
    | some _ => (.error uniqueKey, db)
    | none =>
      (.ok (), { db with sessions := db.sessions.insert s })
| .popSession id kind now, db =>
  (.ok (pop id kind now db).1, (pop id kind now db).2)
| .cleanupSessions now, db =>
  (.ok (), { db with
    sessions := db.sessions.filter (fun s =>
      now < s.expiresAt) })
| .upsertCredential row, db => upsert row db
| .updateCredential userID credentialID credential, db =>
  (.ok (), { db with
    credentials := db.credentials.modify credentialID
      (fun old =>
        if old.userID = userID then
          { old with
            credential := credential
            signCount := credential.signCount }
        else old) (by
        intro old
        split
        · rfl
        · rfl) })
| .deleteCredential id userID, db =>
  (.ok (db.credentials.rows.any (fun row =>
      row.id = id && row.userID = userID)),
    { db with
      credentials := db.credentials.filter (fun row =>
        !(row.id = id && row.userID = userID)) })
| .selectBrowserSession id now, db =>
  (.ok ((db.browser.lookup id).filter (fun s =>
    now < s.expiresAt)), db)
| .insertBrowserSession s, db =>
  match db.browser.lookup s.id with
  | some _ => (.error uniqueKey, db)
  | none =>
    (.ok (), { db with browser := db.browser.insert s })
| .insertUser id email, db =>
  if db.users.any (fun user =>
      user.1 = id || user.2 = email) then
    (.error uniqueKey, db)
  else (.ok (), { db with users := db.users ++ [(id, email)] })

/- Every statement is a transaction of its own. -/
def tables : Autocommit WebAuthnDb Stmt Resp GoError where
  exec := exec
  broken := .text "connection lost"

----
-- Handlers
----

/- The request, with the cookies and parameters read. -/
structure Request where
  email : String
  id : String
  sessionCookie : Option String
  browserCookie : Option String
  body : String

/- The clocks, and the random texts in the order drawn. -/
structure Env where
  now : Time
  random : Nat → Except GoError String

structure Reply where
  status : Nat
  body : String
  cookie : Option String
  deriving DecidableEq

/-
  The library: it checks a registration against the session, not whether the credential's id is new,
  and a login against the keys it is given.
-/
structure Library where
  toLower : String → String
  beginLogin : String → List Credential → Except GoError String
  beginRegistration : String → List Credential → Except GoError String
  finishRegistration : String → List Credential → String → String → Except GoError Credential
  finishLogin : String → List Credential → String → String → Except GoError Credential
  finishLogin_key : ∀ userID creds sessionData body cred,
      finishLogin userID creds sessionData body = .ok cred →
        ∃ known ∈ creds, cred.publicKey = known.publicKey

abbrev Handler := Autocommit.Script Stmt Resp GoError Reply

def sql (s : Stmt) : Autocommit.Script Stmt Resp GoError (Except GoError (Resp s)) := Prog.request s

def reply (status : Nat) (body : String) : Handler := .ret ⟨status, body, none⟩

/- `putSession`, with the reply if it fails. -/
def putSession (kind : SessionKind) (userID sessionData : String) (env : Env)
    (failed : String) : Handler :=
  match env.random 0 with
  | .error _ => reply 500 failed
  | .ok id => do
      let stored ← sql (.insertSession ⟨id, kind, userID, sessionData, env.now + 300000000000⟩)
      match stored with
      | .error _ => reply 500 failed
      | .ok _ => .ret ⟨200, "options", some id⟩

/- `cookieSessionID` and `popSession` -/
def withSession (kind : SessionKind) (r : Request) (env : Env)
    (failed expired : String) (next : String → String → Handler) : Handler :=
  let sid := trimSpace (r.sessionCookie.getD "")
  if sid = "" then reply 401 expired
  else do
    match ← sql (.popSession sid kind env.now) with
    | .error _ => reply 500 failed
    | .ok none => reply 401 expired
    | .ok (some (userID, sessionData)) =>
      next userID sessionData

/- `loadCredentials` -/
def withCredentials (userID : String) (next : List Credential → Handler) : Handler := do
  match ← sql (.selectCredentials userID) with
  | .error _ => reply 500 "failed to load credentials"
  | .ok creds => next creds

/- The browser session that a handler asks for. -/
def withBrowser (r : Request) (env : Env) (refused : String) (next : String → Handler) : Handler :=
  let cookie := trimSpace (r.browserCookie.getD "")
  if cookie = "" then reply 401 refused
  else do
    match ← sql (.selectBrowserSession cookie env.now) with
    | .ok (some s) => next s.userID
    | _ => reply 401 refused

variable (lib : Library)

/- `BeginLogin` -/
def Library.handleBeginLogin (r : Request) (env : Env) : Handler :=
  if r.email = "" then reply 400 "email required"
  else
    let email := trimSpace (lib.toLower r.email)
    if email = "" then reply 404 "unknown user"
    else do
      match ← sql (.selectUser email) with
      | .ok (some user) =>
        withCredentials user.1 (fun creds =>
          if creds = [] then
            reply 404 "no passkeys registered"
          else
            match lib.beginLogin user.1 creds with
            | .error e => reply 500 e.message
            | .ok sessionData =>
              putSession .login user.1 sessionData env "failed to persist login session")
      | _ => reply 404 "unknown user"

/- The end of `FinishLogin`: a new browser session. -/
def openBrowser (userID : String) (env : Env) : Handler :=
  match env.random 0, env.random 1 with
  | .ok token, .ok id => do
      if trimSpace token = "" then
        reply 500 "failed to create session"
      else
        match ← sql (.insertBrowserSession
            ⟨id, userID, trimSpace token, env.now + 1800000000000⟩) with
        | .error _ => reply 500 "failed to create session"
        | .ok _ => .ret ⟨200, "", some id⟩
  | _, _ => reply 500 "failed to create session"

/- `FinishLogin`; the answer to its update is ignored. -/
def Library.handleFinishLogin (r : Request) (env : Env) : Handler :=
  withSession .login r env "failed to load login session"
    "login session expired" (fun userID sessionData =>
      withCredentials userID (fun creds =>
        match lib.finishLogin userID creds sessionData r.body with
        | .error _ => reply 401 "passkey verification failed"
        | .ok cred => do
            let _ ← sql (.updateCredential userID cred.id cred)
            openBrowser userID env))

/- `BeginRegister` -/
def Library.handleBeginRegister (r : Request) (env : Env) : Handler :=
  withBrowser r env "login required" (fun userID =>
    withCredentials userID (fun creds =>
      match lib.beginRegistration userID creds with
      | .error _ => reply 500 "failed to begin registration"
      | .ok sessionData =>
        putSession .register userID sessionData env "failed to persist registration session"))

/- `FinishRegister` -/
def Library.handleFinishRegister (r : Request) (env : Env) : Handler :=
  withSession .register r env "failed to load registration session" "registration session expired"
    (fun userID sessionData =>
      withCredentials userID (fun creds =>
        match lib.finishRegistration userID creds sessionData r.body with
        | .error _ => reply 400 "passkey registration failed"
        | .ok cred =>
          match env.random 0 with
          | .error _ => reply 500 "server error"
          | .ok rowID => do
              match ← sql (.upsertCredential ⟨rowID, userID, cred.id, cred, cred.signCount⟩) with
              | .error _ =>
                reply 500 "failed to store credential"
              | .ok _ => reply 200 ""))

/- `DeleteCredential` -/
def handleDeleteCredential (r : Request) (env : Env) : Handler :=
  if r.id = "" then reply 400 "id required"
  else
    withBrowser r env "unauthorized" (fun userID => do
      match ← sql (.deleteCredential r.id userID) with
      | .error _ => reply 500 "server error"
      | .ok false => reply 404 "not found"
      | .ok true => reply 204 "")

/-
  The calls on the tables: the handlers, the cleanup, and the registration of a user by the auth
  service.
-/
inductive Call where
  | beginLogin (r : Request) (env : Env)
  | finishLogin (r : Request) (env : Env)
  | beginRegister (r : Request) (env : Env)
  | finishRegister (r : Request) (env : Env)
  | deleteCredential (r : Request) (env : Env)
  | cleanupSessions (now : Time)
  | register (id email : String)

def Library.prog : Call → Handler
| .beginLogin r env => lib.handleBeginLogin r env
| .finishLogin r env => lib.handleFinishLogin r env
| .beginRegister r env => lib.handleBeginRegister r env
| .finishRegister r env => lib.handleFinishRegister r env
| .deleteCredential r env => handleDeleteCredential r env
| .cleanupSessions now => do
    let _ ← sql (.cleanupSessions now)
    reply 200 ""
| .register id email => do
    let _ ← sql (.insertUser id email)
    reply 200 ""

abbrev Config := Autocommit.Config WebAuthnDb Call Stmt Resp GoError Reply

/- Calls interleaved statement by statement. -/
def Library.step (cfg : Config) (a : Autocommit.Action Call) : Option Config :=
  tables.step lib.prog cfg a

----
-- Keys And Their Users
----

/- The key was registered in a session of the user. -/
def Registered (lib : Library) (db : WebAuthnDb) (userID publicKey : String) : Prop :=
  ∃ s ∈ db.popped, s.kind = .register ∧ s.userID = userID ∧ ∃ creds body cred,
      lib.finishRegistration userID creds s.sessionData body = .ok cred ∧ cred.publicKey = publicKey

/- Every row has a key of its user's own. -/
def OwnKeys (lib : Library) (db : WebAuthnDb) : Prop :=
  ∀ row ∈ db.credentials.rows, Registered lib db row.userID row.credential.publicKey

/- Sessions that were taken stay taken. -/
def Extends (db db' : WebAuthnDb) : Prop := ∀ s ∈ db.popped, s ∈ db'.popped

/- The row is what the request's own session registers. -/
def Completes (lib : Library) (db : WebAuthnDb) (r : Request) (row : CredentialRow) : Prop :=
  ∃ s ∈ db.popped, s.id = trimSpace (r.sessionCookie.getD "") ∧
    s.kind = .register ∧ s.userID = row.userID ∧ ∃ creds,
      lib.finishRegistration s.userID creds s.sessionData r.body = .ok row.credential

/- Which rows a call changes, and what it puts there. -/
def Sends (lib : Library) (c : Call) (db : WebAuthnDb) : Stmt → Prop
| .upsertCredential row =>
  match c with
  | .finishRegister r _ => Completes lib db r row
  | _ => False
| .updateCredential userID _ credential =>
  match c with
  | .finishLogin _ _ =>
    Registered lib db userID credential.publicKey
  | _ => False
| .deleteCredential _ _ =>
  match c with
  | .deleteCredential _ _ => True
  | _ => False
| _ => True

/- A credential that is stored has an id that no other user's row has. -/
def own (cfg : Config) : Autocommit.Action Call → Bool
| .start _ => true
| .send i _ =>
  match cfg.calls[i]? with
  | some (_, .ask (.upsertCredential row) _) =>
    cfg.db.credentials.rows.all (fun old =>
      decide (old.credentialID = row.credentialID → old.userID = row.userID))
  | _ => true

theorem Registered.mono {lib : Library} {db db' : WebAuthnDb} {userID publicKey : String}
    (hRegistered : Registered lib db userID publicKey)
    (hExtends : Extends db db') : Registered lib db' userID publicKey := by
  rcases hRegistered with ⟨s, hMem, hRest⟩
  exact ⟨s, hExtends s hMem, hRest⟩

variable {db : WebAuthnDb} {r : Request} {row : CredentialRow}

theorem Completes.registered {lib : Library} (hCompletes : Completes lib db r row) :
    Registered lib db row.userID
    row.credential.publicKey := by
  rcases hCompletes with ⟨s, hMem, _, hKind, hUser, creds, hChecked⟩
  rw [hUser] at hChecked
  exact ⟨s, hMem, hKind, hUser, creds, r.body, row.credential, hChecked, rfl⟩

theorem Extends.trans {db₁ db₂ db₃ : WebAuthnDb} (hFirst : Extends db₁ db₂)
    (hSecond : Extends db₂ db₃) : Extends db₁ db₃ := fun s hMem => hSecond s (hFirst s hMem)

theorem extends_exec (s : Stmt) (db : WebAuthnDb) : Extends db (exec s db).2 := by
  intro t hMem
  cases s with
  | popSession id kind now =>
    simp only [exec, pop]
    split
    · split
      · exact List.mem_append_left _ hMem
      · exact hMem
    · exact hMem
  | upsertCredential row =>
    simp only [exec, upsert]
    split
    · exact hMem
    · split_ifs
      · exact hMem
      · exact hMem
      · exact hMem
  | insertSession s =>
    simp only [exec]
    split_ifs
    · exact hMem
    · split
      · exact hMem
      · exact hMem
  | insertBrowserSession s =>
    simp only [exec]
    split
    · exact hMem
    · exact hMem
  | insertUser id email =>
    simp only [exec]
    split_ifs
    · exact hMem
    · exact hMem
  | _ => exact hMem

/- What is stored takes no other user's place. -/
def Exclusive (db : WebAuthnDb) (s : Stmt) : Prop :=
  ∀ row, s = .upsertCredential row → ∀ old ∈ db.credentials.rows,
      old.credentialID = row.credentialID → old.userID = row.userID

variable {s : Stmt}

/- Rows after a statement are as before, or as it says. -/
theorem mem_exec (hOwn : Exclusive db s) (hMem : row ∈ (exec s db).2.credentials.rows) :
    row ∈ db.credentials.rows ∨
    (∃ new, s = .upsertCredential new ∧ row.userID = new.userID ∧
    row.credential = new.credential) ∨ ∃ credentialID credential,
    s = .updateCredential row.userID credentialID credential ∧ row.credential = credential := by
  cases s with
  | upsertCredential new =>
    simp only [exec, upsert] at hMem
    split at hMem
    · -- the row with the id, or another one
      dsimp only at hMem
      rw [Table.mem_modify] at hMem
      rcases hMem with ⟨old, hOld, rfl⟩
      split
      · rename_i hSame
        exact Or.inr (Or.inl ⟨new, rfl, hOwn new rfl old hOld hSame, rfl⟩)
      · exact Or.inl hOld
    · split_ifs at hMem
      · exact Or.inl hMem
      · exact Or.inl hMem
      · rcases Table.mem_of_mem_insert hMem with hOld | rfl
        · exact Or.inl hOld
        · exact Or.inr (Or.inl ⟨row, rfl, rfl, rfl⟩)
  | updateCredential userID credentialID credential =>
    simp only [exec] at hMem
    rw [Table.mem_modify] at hMem
    rcases hMem with ⟨old, hOld, rfl⟩
    split
    · split
      · rename_i hUser
        rw [← hUser]
        exact Or.inr (Or.inr ⟨_, _, rfl, rfl⟩)
      · exact Or.inl hOld
    · exact Or.inl hOld
  | deleteCredential id userID =>
    exact Or.inl (Table.mem_filter.mp hMem).1
  | popSession id kind now =>
    simp only [exec, pop] at hMem
    split at hMem
    · split at hMem
      · exact Or.inl hMem
      · exact Or.inl hMem
    · exact Or.inl hMem
  | insertSession t =>
    simp only [exec] at hMem
    split_ifs at hMem
    · exact Or.inl hMem
    · split at hMem
      · exact Or.inl hMem
      · exact Or.inl hMem
  | insertBrowserSession t =>
    simp only [exec] at hMem
    split at hMem
    · exact Or.inl hMem
    · exact Or.inl hMem
  | insertUser id email =>
    simp only [exec] at hMem
    split_ifs at hMem
    · exact Or.inl hMem
    · exact Or.inl hMem
  | _ => exact Or.inl hMem

/- Statements keep the rows to their users' own keys. -/
theorem ownKeys_exec {lib : Library} {c : Call} (hKeys : OwnKeys lib db) (hSends : Sends lib c db s)
    (hOwn : Exclusive db s) : OwnKeys lib (exec s db).2 := by
  intro row hMem
  refine Registered.mono ?_ (extends_exec s db)
  rcases mem_exec hOwn hMem with hOld | ⟨new, rfl, hUser, hCredential⟩ |
      ⟨credentialID, credential, rfl, hCredential⟩
  · exact hKeys row hOld
  · rw [hUser, hCredential]
    cases c with
    | finishRegister r env => exact hSends.registered
    | _ => exact hSends.elim
  · rw [hCredential]
    cases c with
    | finishLogin r env => exact hSends
    | _ => exact hSends.elim

variable {userID : String}

/- Another user's rows are as they were. -/
theorem rowsOf_upsert (hOwn : Exclusive db (.upsertCredential row)) (hOther : row.userID ≠ userID) :
    (exec (.upsertCredential row) db).2.rowsOf userID = db.rowsOf userID := by
  simp only [exec, upsert]
  split
  · refine Table.filter_modify (fun old => old.overwritten_credentialID row) ?_
    intro old hMem hSame
    have hUser := hOwn row rfl old hMem hSame
    simp [CredentialRow.overwritten, hUser, hOther]
  · split_ifs
    · rfl
    · rfl
    · exact Table.filter_insert (by simp [hOther])

----
-- What Handlers Send
----

/- A handler between the statements of others. -/
abbrev Keeping (lib : Library) (c : Call) (p : Handler) (db : WebAuthnDb) : Prop :=
  Autocommit.Session tables Extends (OwnKeys lib) (Sends lib c) p db

variable {lib : Library} {c : Call}

theorem keeping_putSession (kind : SessionKind) (userID sessionData : String)
    (env : Env) (failed : String) (db : WebAuthnDb) : Keeping lib c
    (putSession kind userID sessionData env failed) db := by
  unfold putSession
  split
  · trivial
  · refine Autocommit.Session.ask (fun _ _ _ => trivial) (fun _ _ => trivial) ?_
    intro db' x _ _ _
    trivial

variable {kind : SessionKind}

theorem pop_some {id : String} {now : Time} {found : String × String}
    (hPop : (pop id kind now db).1 = some found) :
    ∃ s : SessionRow, s.id = id ∧ s.kind = kind ∧ (s.userID, s.sessionData) = found ∧
    s ∈ (pop id kind now db).2.popped := by
  unfold pop at hPop ⊢
  split at hPop
  · rename_i s hFound
    split_ifs at hPop with hLive
    rw [if_pos hLive]
    exact ⟨s, (Table.lookup_eq_some_iff.mp hFound).2, hLive.1, Option.some.inj hPop,
      List.mem_append_right _ (List.mem_singleton.mpr rfl)⟩
  · cases hPop

variable {env : Env}

theorem keeping_withSession {failed expired : String} {next : String → String → Handler}
    (hNext : ∀ s db', s.id = trimSpace (r.sessionCookie.getD "") → s.kind = kind → s ∈ db'.popped →
    Keeping lib c (next s.userID s.sessionData) db') (db : WebAuthnDb) :
    Keeping lib c (withSession kind r env failed expired next) db := by
  unfold withSession
  dsimp only
  split
  · trivial
  · refine Autocommit.Session.ask (fun _ _ _ => trivial) (fun _ _ => trivial) ?_
    intro db' x _ _ hAnswer
    cases x with
    | none => trivial
    | some found =>
      have hPop : (pop _ kind env.now db').1 = some found := Except.ok.inj hAnswer
      rcases pop_some hPop with ⟨s, hId, hKind, rfl, hTaken⟩
      exact hNext s _ hId hKind hTaken

theorem keeping_withCredentials {next : List Credential → Handler}
    (hNext : ∀ creds db', Extends db db' →
    (∀ cred ∈ creds, Registered lib db' userID cred.publicKey) →
    Keeping lib c (next creds) db') : Keeping lib c (withCredentials userID next) db := by
  unfold withCredentials
  refine Autocommit.Session.ask (fun _ _ _ => trivial) (fun _ _ => trivial) ?_
  intro db' creds hExtends hKeys hAnswer
  refine hNext creds _ hExtends ?_
  intro cred hMem
  rw [← Except.ok.inj hAnswer] at hMem
  rcases List.mem_map.mp hMem with ⟨row, hRow, rfl⟩
  rcases List.mem_filter.mp hRow with ⟨hOld, hUser⟩
  rw [← of_decide_eq_true hUser]
  exact hKeys row hOld

theorem keeping_withBrowser {refused : String} {next : String → Handler}
    (hNext : ∀ userID db', Keeping lib c (next userID) db') (db : WebAuthnDb) :
    Keeping lib c (withBrowser r env refused next) db := by
  unfold withBrowser
  dsimp only
  split
  · trivial
  · refine Autocommit.Session.ask (fun _ _ _ => trivial) (fun _ _ => trivial) ?_
    intro db' x _ _ _
    cases x with
    | none => trivial
    | some s => exact hNext s.userID _

theorem keeping_openBrowser (userID : String) (env : Env) (db : WebAuthnDb) :
    Keeping lib c (openBrowser userID env) db := by
  unfold openBrowser
  split
  · split
    · trivial
    · refine Autocommit.Session.ask (fun _ _ _ => trivial) (fun _ _ => trivial) ?_
      intro db' x _ _ _
      trivial
  · trivial

theorem keeping_finishLogin (r : Request) (env : Env) (db : WebAuthnDb) :
    Keeping lib (.finishLogin r env) (lib.handleFinishLogin r env) db := by
  refine keeping_withSession ?_ db
  intro s db₁ _ _ _
  refine keeping_withCredentials ?_
  intro creds db₂ _ hCreds
  split
  · trivial
  · rename_i cred hChecked
    -- the key of the login is one of those loaded
    rcases lib.finishLogin_key _ _ _ _ _ hChecked with ⟨known, hKnown, hKey⟩
    intro db₃ hExtends _
    refine ⟨?_, fun o => keeping_openBrowser _ _ _⟩
    show Registered lib db₃ s.userID cred.publicKey
    rw [hKey]
    exact (hCreds known hKnown).mono hExtends

theorem keeping_finishRegister (r : Request) (env : Env) (db : WebAuthnDb) :
    Keeping lib (.finishRegister r env) (lib.handleFinishRegister r env) db := by
  refine keeping_withSession ?_ db
  intro s db₁ hId hKind hTaken
  refine keeping_withCredentials ?_
  intro creds db₂ hExtends _
  split
  · trivial
  · rename_i cred hChecked
    split
    · trivial
    · refine Autocommit.Session.ask ?_ (fun _ _ => trivial) (fun _ _ _ _ _ => trivial)
      intro db₃ hMore _
      exact ⟨s, hMore s (hExtends s hTaken), hId, hKind, rfl, creds, hChecked⟩

theorem keeping_beginLogin (r : Request) (env : Env) (db : WebAuthnDb) :
    Keeping lib c (lib.handleBeginLogin r env) db := by
  unfold Library.handleBeginLogin
  dsimp only
  split
  · trivial
  split
  · trivial
  refine Autocommit.Session.ask (fun _ _ _ => trivial) (fun _ _ => trivial) ?_
  intro db₁ x _ _ _
  cases x with
  | none => trivial
  | some user =>
    refine keeping_withCredentials ?_
    intro creds db₂ _ _
    split
    · trivial
    · split
      · trivial
      · exact keeping_putSession _ _ _ _ _ _

theorem keeping_beginRegister (r : Request) (env : Env) (db : WebAuthnDb) :
    Keeping lib c (lib.handleBeginRegister r env) db := by
  refine keeping_withBrowser ?_ db
  intro userID db₁
  refine keeping_withCredentials ?_
  intro creds db₂ _ _
  split
  · trivial
  · exact keeping_putSession _ _ _ _ _ _

theorem keeping_deleteCredential (r : Request) (env : Env) (db : WebAuthnDb) :
    Keeping lib (.deleteCredential r env) (handleDeleteCredential r env) db := by
  unfold handleDeleteCredential
  split
  · trivial
  · refine keeping_withBrowser ?_ db
    intro userID db₁
    refine Autocommit.Session.ask (fun _ _ _ => trivial) (fun _ _ => trivial) ?_
    intro db₂ found _ _ _
    cases found with
    | false => trivial
    | true => trivial

/- Every call, from its start. -/
theorem keeping_prog (lib : Library) (c : Call) (db : WebAuthnDb) :
    Keeping lib c (lib.prog c) db := by
  cases c with
  | beginLogin r env => exact keeping_beginLogin r env db
  | finishLogin r env => exact keeping_finishLogin r env db
  | beginRegister r env =>
    exact keeping_beginRegister r env db
  | finishRegister r env =>
    exact keeping_finishRegister r env db
  | deleteCredential r env =>
    exact keeping_deleteCredential r env db
  | cleanupSessions now =>
    exact Autocommit.Session.ask (fun _ _ _ => trivial)
      (fun _ _ => trivial) (fun _ _ _ _ _ => trivial)
  | register id email =>
    exact Autocommit.Session.ask (fun _ _ _ => trivial)
      (fun _ _ => trivial) (fun _ _ _ _ _ => trivial)

----
-- Runs
----

/- The rows, and what the calls are still to send. -/
def PasskeyInv (lib : Library) (cfg : Config) : Prop :=
  cfg.Keeps tables Extends (OwnKeys lib) (Sends lib) ∧ OwnKeys lib cfg.db

variable {o : Autocommit.Outcome}

theorem exclusive_of_own {cfg : Config} {i : Nat} {c : Call} {k : Except GoError (Resp s) → Handler}
    (hAt : cfg.At i c (.ask s k)) (hOwn : own cfg (.send i o) = true) : Exclusive cfg.db s := by
  intro row hStmt old hMem hSame
  subst hStmt
  have hFound : cfg.calls[i]? = some (c, .ask (.upsertCredential row) k) := hAt
  simp only [own, hFound, List.all_eq_true] at hOwn
  exact of_decide_eq_true (hOwn old hMem) hSame

variable {cfg cfg' : Config}

theorem passkeyInv_step {lib : Library} {a : Autocommit.Action Call} (hInv : PasskeyInv lib cfg)
    (hOwn : own cfg a = true) (hStep : lib.step cfg a = some cfg') : PasskeyInv lib cfg' := by
  refine Autocommit.session_step (fun db s hMem => hMem)
    (fun _ _ _ => Extends.trans) (keeping_prog lib) hInv.2 hInv.1 ?_ hStep
  rintro i o c s k rfl hAt hSends
  have hExclusive := exclusive_of_own hAt hOwn
  rcases Autocommit.send_db (A := tables) s cfg.db o with hDb | hDb
  · rw [hDb]
    exact ⟨fun _ hMem => hMem, hInv.2⟩
  · rw [hDb]
    exact ⟨extends_exec s cfg.db, ownKeys_exec hInv.2 hSends hExclusive⟩

theorem credentials_exec {lib : Library}
    (hSends : Sends lib (.finishRegister r env) db s) : (exec s db).2.credentials = db.credentials ∨
    ∃ row, s = .upsertCredential row := by
  cases s with
  | upsertCredential row => exact Or.inr ⟨row, rfl⟩
  | updateCredential userID credentialID credential =>
    exact hSends.elim
  | deleteCredential id userID => exact hSends.elim
  | popSession id kind now =>
    left
    simp only [exec, pop]
    split
    · split
      · rfl
      · rfl
    · rfl
  | insertSession t =>
    left
    simp only [exec]
    split_ifs
    · rfl
    · split
      · rfl
      · rfl
  | insertBrowserSession t =>
    left
    simp only [exec]
    split
    · rfl
    · rfl
  | insertUser id email =>
    left
    simp only [exec]
    split_ifs
    · rfl
    · rfl
  | _ => exact Or.inl rfl

theorem rowsOf_register {lib : Library} {i : Nat} {p : Handler}
    (hInv : PasskeyInv lib cfg) (hAt : cfg.At i (.finishRegister r env) p)
    (hOwn : own cfg (.send i o) = true) (hStep : lib.step cfg (.send i o) = some cfg') :
    cfg'.db.credentials = cfg.db.credentials ∨ ∃ s ∈ cfg.db.popped,
    s.id = trimSpace (r.sessionCookie.getD "") ∧ s.kind = .register ∧
    ∀ v, v ≠ s.userID → cfg'.db.rowsOf v = cfg.db.rowsOf v := by
  rcases Autocommit.step_cases hStep with ⟨input, hStart, _⟩ | ⟨j, o', c, s, k, hSend, hAt', rfl⟩
  · cases hStart
  cases hSend
  cases hAt.symm.trans hAt'
  have hSends := (hInv.1 i _ _ hAt cfg.db (fun _ hMem => hMem) hInv.2).1
  rcases Autocommit.send_db (A := tables) s cfg.db o with hDb | hDb
  · left
    show (tables.send s cfg.db o).2.credentials = _
    rw [hDb]
  · rw [hDb]
    rcases credentials_exec hSends with hSame | ⟨row, rfl⟩
    · exact Or.inl hSame
    · right
      rcases hSends with ⟨t, hMem, hId, hKind, hUser, _⟩
      refine ⟨t, hMem, hId, hKind, ?_⟩
      intro v hOther
      rw [hUser] at hOther
      exact rowsOf_upsert (exclusive_of_own hAt hOwn) (Ne.symm hOther)

/-
  From tables with no passkey, where every passkey that is stored has an id that no other user's
  has: each row has a key of its user's own, and a step of a registration changes the rows of its
  session's user at most.
-/
theorem passkeys_stay_own (lib : Library) {start : WebAuthnDb}
    (hStart : start.credentials.rows = []) {as : List (Autocommit.Action Call)} {cfg : Config}
    (hOwn : Transition.Meets lib.step (fun cfg a => own cfg a = true) ⟨start, []⟩ as)
    (hRun : Transition.run lib.step ⟨start, []⟩ as = some cfg) :
    OwnKeys lib cfg.db ∧ ∀ i o r env p cfg',
      cfg.At i (.finishRegister r env) p → own cfg (.send i o) = true →
      lib.step cfg (.send i o) = some cfg' → OwnKeys lib cfg'.db ∧
      (cfg'.db.credentials = cfg.db.credentials ∨ ∃ s ∈ cfg.db.popped,
      s.id = trimSpace (r.sessionCookie.getD "") ∧
      s.kind = .register ∧ ∀ v, v ≠ s.userID → cfg'.db.rowsOf v = cfg.db.rowsOf v) := by
  have hBegin : PasskeyInv lib ⟨start, []⟩ := by
    refine ⟨?_, ?_⟩
    · intro i c p hAt
      cases hAt
    · intro row hMem
      rw [hStart] at hMem
      cases hMem
  have hInv : PasskeyInv lib cfg :=
    Transition.run_induction_of_meets (fun _ _ _ => passkeyInv_step) hBegin hOwn hRun
  refine ⟨hInv.2, ?_⟩
  intro i o r env p cfg' hAt hClear hStep
  exact ⟨(passkeyInv_step hInv hClear hStep).2, rowsOf_register hInv hAt hClear hStep⟩

/- A library whose keys are made for one session. -/
def Library.plain : Library where
  toLower := id
  beginLogin := fun userID _ => .ok userID
  beginRegistration := fun userID _ => .ok userID
  finishRegistration := fun _ _ sessionData body =>
    if body = sessionData ++ "-key" then .ok ⟨"c", body, 0⟩
    else .error (.text "attestation")
  finishLogin := fun _ creds _ _ =>
    match creds with
    | [] => .error (.text "assertion")
    | known :: _ => .ok known
  finishLogin_key := by
    intro userID creds sessionData body cred hChecked
    cases creds with
    | nil => cases hChecked
    | cons known rest =>
      cases hChecked
      exact ⟨cred, List.mem_cons_self, rfl⟩

/- Two users with a browser session each. -/
def twoUsers : WebAuthnDb where
  users := [("v", "v@x"), ("u", "u@x")]
  credentials := Table.empty _
  sessions := Table.empty _
  browser := ((Table.empty _).insert ⟨"bv", "v", "t", 100⟩).insert ⟨"bu", "u", "t", 100⟩
  popped := []

/- One user registers a passkey, as calls `i` and `i + 1`. -/
def registers (userID : String) (i : Nat) : List (Autocommit.Action Call) :=
  [.start (.beginRegister ⟨"", "", none, some ("b" ++ userID), ""⟩
      ⟨0, fun _ => .ok ("s" ++ userID)⟩),
    .send i .done, .send i .done, .send i .done, .start (.finishRegister
      ⟨"", "", some ("s" ++ userID), none, userID ++ "-key"⟩ ⟨0, fun _ => .ok ("r" ++ userID)⟩),
    .send (i + 1) .done, .send (i + 1) .done, .send (i + 1) .done]

theorem first_passkey_own : ∃ cfg, Transition.run Library.plain.step ⟨twoUsers, []⟩
      (registers "v" 0) = some cfg ∧ cfg.db.credentials.rows =
      [⟨"rv", "v", "c", ⟨"c", "v-key", 0⟩, 0⟩] ∧ OwnKeys Library.plain cfg.db := by
  have hSeen : (Transition.run Library.plain.step ⟨twoUsers, []⟩ (registers "v" 0)).map
          (fun cfg => cfg.db.credentials.rows) = some [⟨"rv", "v", "c", ⟨"c", "v-key", 0⟩, 0⟩] := by
    decide +kernel
  rcases Option.map_eq_some_iff.mp hSeen with ⟨cfg, hRun, hRows⟩
  exact ⟨cfg, hRun, hRows, (passkeys_stay_own Library.plain rfl (by decide +kernel) hRun).1⟩

/-
  The second user's credential has the id of the first's: the first user's row now has the second
  user's key.
-/
theorem passkey_taken_over : ∃ cfg, Transition.run Library.plain.step ⟨twoUsers, []⟩
      (registers "v" 0 ++ registers "u" 2) = some cfg ∧ cfg.db.rowsOf "v" =
      [⟨"rv", "v", "c", ⟨"c", "u-key", 0⟩, 0⟩] ∧ ¬ OwnKeys Library.plain cfg.db := by
  have hSeen :
      (Transition.run Library.plain.step ⟨twoUsers, []⟩ (registers "v" 0 ++ registers "u" 2)).map
          (fun cfg => (cfg.db.rowsOf "v", cfg.db.popped)) =
        some ([⟨"rv", "v", "c", ⟨"c", "u-key", 0⟩, 0⟩],
          [⟨"sv", .register, "v", "v", 300000000000⟩,
            ⟨"su", .register, "u", "u", 300000000000⟩]) := by
    decide +kernel
  rcases Option.map_eq_some_iff.mp hSeen with ⟨cfg, hRun, hBoth⟩
  rcases Prod.mk.inj hBoth with ⟨hRows, hPopped⟩
  refine ⟨cfg, hRun, hRows, ?_⟩
  intro hKeys
  have hMem := List.mem_of_mem_head? (congrArg List.head? hRows)
  -- a key of one of v's sessions would be v's
  rcases hKeys _ (List.mem_filter.mp hMem).1 with
    ⟨s, hTaken, _, hUser, creds, body, cred, hChecked, hKey⟩
  rw [hPopped] at hTaken
  simp only [Library.plain] at hChecked
  split_ifs at hChecked with hBody
  cases hChecked
  rw [hBody] at hKey
  rcases List.mem_cons.mp hTaken with rfl | hOther
  · exact absurd hKey (by decide)
  · rw [List.mem_singleton.mp hOther] at hUser
    exact absurd hUser (by decide)

end Fincore.WebAuthn
