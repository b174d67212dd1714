import Fincore.Lib.Journal
import Fincore.Lib.Table
import Fincore.Pkg.Money

/-
  The database of the auth service: the tables of its migrations, as far as sessions and the
  authorization code flow use them, and the SQL statements of `infrastructure/grpc/server.go`.

  A bulk `update` is taken apart as READ COMMITTED runs it: it collects the rows its condition
  selects, and then takes one row after the other, waits for it, and checks the condition again on
  what the row has become. Rows inserted in between are not seen.

  Key definitions include:
    * `Session`, `Code` and `Client`
    * `AuthDb`
    * `Stmt` and `Stmt.exec`
    * `authdb`

  Main results:
    * `Stmt.holds_wanted`
    * `exists_later_view`
    * `origin_of_mem_view`
-/

----
-- Status Errors
----

namespace Fincore.Auth

/- `codes.Code`, as far as the service answers with it -/
inductive StatusCode where
  | invalidArgument
  | unauthenticated
  | permissionDenied
  | notFound
  | resourceExhausted
  | internal
  deriving DecidableEq

/- `status.Error` -/
structure Status where
  code : StatusCode
  message : String
  deriving DecidableEq

def invalidArg (msg : String) : Status := ⟨.invalidArgument, msg⟩

def unauth (msg : String) : Status := ⟨.unauthenticated, msg⟩

def forbidden (msg : String) : Status := ⟨.permissionDenied, msg⟩

def notFound (msg : String) : Status := ⟨.notFound, msg⟩

def rateLimited (msg : String) : Status := ⟨.resourceExhausted, msg⟩

def internal (err : GoError) : Status := ⟨.internal, err.message⟩

def oauthInvalidClient : Status := unauth "invalid_client"

def oauthInvalidGrant : Status := invalidArg "invalid_grant"

/- The error of a row without the row it refers to. -/
def foreignKeyViolation (table constraint : String) : GoError :=
  .text ("ERROR: insert or update on table " ++ table ++
    " violates foreign key constraint " ++ constraint ++ " (SQLSTATE 23503)")

----
-- Tables
----

/- What a `timestamptz` keeps of an instant: microseconds. -/
def timestamptz (t : Time) : Time := t - t % 1000

theorem timestamptz_le (t : Time) : timestamptz t ≤ t := by
  refine Int.sub_le_self t ?_
  exact Int.emod_nonneg t (by decide)

theorem timestamptz_mono {t t' : Int} (hLe : t ≤ t') : timestamptz t ≤ timestamptz t' := by
  show t - t % 1000 ≤ t' - t' % 1000
  omega

theorem timestamptz_timestamptz (t : Int) : timestamptz (timestamptz t) = timestamptz t := by
  show t - t % 1000 - (t - t % 1000) % 1000 = t - t % 1000
  omega

/- A row of `auth_refresh_sessions` -/
structure Session where
  tokenHash : String
  sessionID : String
  userID : String
  expiresAt : Time
  absoluteExpiresAt : Time
  lastUsedAt : Option Time
  revokedAt : Option Time
  replacedByHash : Option String
  userAgent : Option String
  ip : Option String
  deriving DecidableEq

/- The row was neither revoked nor replaced. -/
def Session.Live (s : Session) : Prop := s.revokedAt = none ∧ s.replacedByHash = none

instance (s : Session) : Decidable s.Live := inferInstanceAs (Decidable (_ ∧ _))

/- A row of `oauth_authorization_codes` -/
structure Code where
  codeHash : String
  clientID : String
  userID : String
  redirectURI : String
  scopes : List String
  codeChallenge : String
  codeChallengeMethod : String
  expiresAt : Time
  consumedAt : Option Time
  deriving DecidableEq

/- A row of `oauth_clients` -/
structure Client where
  id : String
  name : String
  type : String
  secretHash : Option String
  redirectURIs : List String
  allowedScopes : List String
  deriving DecidableEq

/- Users, with the roles and permissions granted to them. -/
structure AuthDb where
  users : List String
  roles : String → List String
  permissions : String → List String
  sessions : Table Session.tokenHash
  codes : Table Code.codeHash
  clients : Table Client.id

----
-- Statements
----

/-
  The statements of the service. `scanUnrevoked` and `revokeUnrevoked` are the two halves of `update
  ... where user_id = $1 and revoked_at is null`.
-/
inductive Stmt where
  | selectSession (tokenHash : String)
  | coalesceRevoked (tokenHash : String) (now : Time)
  | setRevoked (tokenHash : String) (now : Time)
  | scanUnrevoked (userID : String)
  | revokeUnrevoked (tokenHash : String) (now : Time)
  | rotateSession (tokenHash : String) (now : Time) (newHash : String)
      (userAgent ip : Option String)
  | insertSession (row : Session)
  | selectClient (id : String)
  | insertClient (row : Client)
  | deleteClient (id : String)
  | selectCode (codeHash clientID : String)
  | insertCode (row : Code)
  | consumeCode (codeHash : String) (now : Time)
  | selectRoles (userID : String)
  | selectPermissions (userID : String)

/- Rows, or the number of rows that were affected. -/
@[reducible] def Resp : Stmt → Type
| .selectSession _ => Option Session
| .coalesceRevoked _ _ => Unit
| .setRevoked _ _ => Unit
| .scanUnrevoked _ => List String
| .revokeUnrevoked _ _ => Nat
| .rotateSession _ _ _ _ _ => Unit
| .insertSession _ => Unit
| .selectClient _ => Option Client
| .insertClient _ => Unit
| .deleteClient _ => Nat
| .selectCode _ _ => Option Code
| .insertCode _ => Unit
| .consumeCode _ _ => Nat
| .selectRoles _ => List String
| .selectPermissions _ => List String

/- Changes of rows, held back until the commit. -/
inductive Write where
  | coalesceRevoked (tokenHash : String) (at_ : Time)
  | setRevoked (tokenHash : String) (at_ : Time)
  | rotateSession (tokenHash : String) (at_ : Time) (newHash : String)
      (userAgent ip : Option String)
  | insertSession (row : Session)
  | insertClient (row : Client)
  | deleteClient (id : String)
  | insertCode (row : Code)
  | consumeCode (codeHash : String) (at_ : Time)
  deriving DecidableEq

/- Rows that a transaction can hold. -/
inductive Row where
  | session (tokenHash : String)
  | client (id : String)
  | code (codeHash : String)
  deriving DecidableEq

/- `set revoked_at = coalesce(revoked_at, $2)` -/
def Session.coalesceRevoked (at_ : Time) (s : Session) : Session :=
  { s with revokedAt := s.revokedAt.or (some at_) }

/- `set revoked_at = $2` -/
def Session.setRevoked (at_ : Time) (s : Session) : Session :=
  { s with revokedAt := some at_ }

/- What a rotation sets on the old row. -/
def Session.rotate (at_ : Time) (newHash : String)
    (userAgent ip : Option String) (s : Session) : Session :=
  { s with
    lastUsedAt := some at_
    revokedAt := some at_
    replacedByHash := some newHash
    userAgent := userAgent.or s.userAgent
    ip := ip.or s.ip }

/- `set consumed_at = $2` -/
def Code.consume (at_ : Time) (c : Code) : Code :=
  { c with consumedAt := some at_ }

/- What a write makes of the database. -/
def Write.apply (db : AuthDb) : Write → AuthDb
| .coalesceRevoked h at_ =>
  { db with sessions := db.sessions.modify h (Session.coalesceRevoked at_) (fun _ => rfl) }
| .setRevoked h at_ =>
  { db with sessions := db.sessions.modify h (Session.setRevoked at_) (fun _ => rfl) }
| .rotateSession h at_ newHash userAgent ip =>
  { db with
    sessions := db.sessions.modify h (Session.rotate at_ newHash userAgent ip) (fun _ => rfl) }
| .insertSession row =>
  { db with sessions := db.sessions.insert row }
| .insertClient row =>
  { db with clients := db.clients.insert row }
| .deleteClient id =>
  -- the codes of the client go with it
  { db with
    clients := db.clients.filter (fun c => decide (c.id ≠ id))
    codes := db.codes.filter (fun c => decide (c.clientID ≠ id)) }
| .insertCode row =>
  { db with codes := db.codes.insert row }
| .consumeCode h at_ =>
  { db with codes := db.codes.modify h (Code.consume at_) (fun _ => rfl) }

/- An insertion, or the duplicate key. -/
def insertion {Row Key : Type} [DecidableEq Key] {key : Row → Key}
    (t : Table key) (row : Row) (constraint : String)
    (w : Write) : Except Status (Unit × List Write) :=
  match t.lookup (key row) with
  | some _ =>
    .error (internal (.pg (.uniqueViolation constraint)))
  | none => .ok ((), [w])

/- A change of one row, if it is there. -/
def change {Row Key : Type} [DecidableEq Key] {key : Row → Key} (t : Table key)
    (k : Key) (w : Write) : List Write :=
  match t.lookup k with
  | some _ => [w]
  | none => []

namespace Stmt

/- The answer to a statement, and what it writes. -/
def exec : (s : Stmt) → AuthDb → Except Status (Resp s × List Write)
| .selectSession h, db => .ok (db.sessions.lookup h, [])
| .coalesceRevoked h now, db =>
  .ok ((), change db.sessions h (.coalesceRevoked h (timestamptz now)))
| .setRevoked h now, db =>
  .ok ((), change db.sessions h (.setRevoked h (timestamptz now)))
| .scanUnrevoked userID, db =>
  .ok ((db.sessions.rows.filter (fun s =>
    decide (s.userID = userID ∧ s.revokedAt = none))).map Session.tokenHash, [])
| .revokeUnrevoked h now, db =>
  match db.sessions.lookup h with
  | some s =>
    if s.revokedAt = none then
      .ok (1, [.setRevoked h (timestamptz now)])
    else .ok (0, [])
  | none => .ok (0, [])
| .rotateSession h now newHash userAgent ip, db =>
  .ok ((), change db.sessions h (.rotateSession h (timestamptz now) newHash userAgent ip))
| .insertSession row, db =>
  if row.userID ∈ db.users then
    insertion db.sessions row "auth_refresh_sessions_pkey" (.insertSession row)
  else
    .error (internal (foreignKeyViolation "auth_refresh_sessions"
      "auth_refresh_sessions_user_id_fkey"))
| .selectClient id, db => .ok (db.clients.lookup id, [])
| .insertClient row, db =>
  insertion db.clients row "oauth_clients_pkey" (.insertClient row)
| .deleteClient id, db =>
  match db.clients.lookup id with
  | some _ => .ok (1, [.deleteClient id])
  | none => .ok (0, [])
| .selectCode h clientID, db =>
  .ok ((db.codes.lookup h).filter (fun c => decide (c.clientID = clientID)), [])
| .insertCode row, db =>
  if row.userID ∈ db.users then
    match db.clients.lookup row.clientID with
    | some _ =>
      insertion db.codes row "oauth_authorization_codes_pkey" (.insertCode row)
    | none =>
      .error (internal (foreignKeyViolation "oauth_authorization_codes"
        "oauth_authorization_codes_client_id_fkey"))
  else
    .error (internal (foreignKeyViolation "oauth_authorization_codes"
      "oauth_authorization_codes_user_id_fkey"))
| .consumeCode h now, db =>
  match db.codes.lookup h with
  | some c =>
    if c.consumedAt = none then
      .ok (1, [.consumeCode h (timestamptz now)])
    else .ok (0, [])
  | none => .ok (0, [])
| .selectRoles userID, db => .ok (db.roles userID, [])
| .selectPermissions userID, db =>
  .ok (db.permissions userID, [])

/- The rows a statement waits for. -/
def wants : Stmt → List Row
| .coalesceRevoked h _ => [.session h]
| .setRevoked h _ => [.session h]
| .revokeUnrevoked h _ => [.session h]
| .rotateSession h _ _ _ _ => [.session h]
| .insertSession row => [.session row.tokenHash]
| .insertClient row => [.client row.id]
| .deleteClient id => [.client id]
| .insertCode row => [.code row.codeHash]
| .consumeCode h _ => [.code h]
| _ => []

end Stmt

/- The rows a write holds. -/
def Write.holds : Write → List Row
| .coalesceRevoked h _ => [.session h]
| .setRevoked h _ => [.session h]
| .rotateSession h _ _ _ _ => [.session h]
| .insertSession row => [.session row.tokenHash]
| .insertClient row => [.client row.id]
| .deleteClient id => [.client id]
| .insertCode row => [.code row.codeHash]
| .consumeCode h _ => [.code h]

----
-- What Statements Write
----

variable {db : AuthDb} {ws : List Write} {w : Write}

theorem mem_change {Row Key : Type} [DecidableEq Key] {key : Row → Key}
    {t : Table key} {k : Key} {w' : Write} (hMem : w ∈ change t k w') : w = w' := by
  unfold change at hMem
  split at hMem
  · exact List.mem_singleton.mp hMem
  · cases hMem

theorem insertion_ok {Row Key : Type} [DecidableEq Key] {key : Row → Key}
    {t : Table key} {row : Row} {constraint : String} {w' : Write} {u : Unit}
    (hOk : insertion t row constraint w' = .ok (u, ws)) :
    t.lookup (key row) = none ∧ ws = [w'] := by
  unfold insertion at hOk
  split at hOk
  · cases hOk
  · rename_i hFree
    cases hOk
    exact ⟨hFree, rfl⟩

namespace Stmt

theorem exec_insertSession {row : Session} {u : Unit}
    (hExec : (insertSession row).exec db = .ok (u, ws)) :
    row.userID ∈ db.users ∧ db.sessions.lookup row.tokenHash = none ∧
    ws = [.insertSession row] := by
  simp only [exec] at hExec
  split at hExec
  · rename_i hUser
    exact ⟨hUser, insertion_ok hExec⟩
  · cases hExec

theorem exec_insertCode {row : Code} {u : Unit}
    (hExec : (insertCode row).exec db = .ok (u, ws)) : row.userID ∈ db.users ∧
    (∃ c, db.clients.lookup row.clientID = some c) ∧
    db.codes.lookup row.codeHash = none ∧ ws = [.insertCode row] := by
  simp only [exec] at hExec
  split at hExec
  · rename_i hUser
    split at hExec
    · rename_i c hClient
      exact ⟨hUser, ⟨c, hClient⟩, insertion_ok hExec⟩
    · cases hExec
  · cases hExec

/- After the statement the row is not left unrevoked. -/
theorem exec_revokeUnrevoked {h : String} {now : Time} {n : Nat}
    (hExec : (revokeUnrevoked h now).exec db = .ok (n, ws)) :
    (∀ w ∈ ws, w = .setRevoked h (timestamptz now)) ∧
    ((∃ s ∈ db.sessions.rows, s.tokenHash = h ∧ s.revokedAt = none) →
    Write.setRevoked h (timestamptz now) ∈ ws) := by
  simp only [exec] at hExec
  split at hExec
  · rename_i s hRow
    split at hExec
    · cases hExec
      simp
    · rename_i hRevoked
      cases hExec
      refine ⟨List.forall_mem_nil _, ?_⟩
      rintro ⟨s', hMem, hHash, hNone⟩
      have hSame := Table.lookup_eq_some_iff.mpr ⟨hMem, hHash⟩
      rw [hRow] at hSame
      cases hSame
      exact absurd hNone hRevoked
  · rename_i hAbsent
    cases hExec
    refine ⟨List.forall_mem_nil _, ?_⟩
    rintro ⟨s', hMem, hHash, _⟩
    exact absurd hHash (Table.lookup_eq_none_iff.mp hAbsent s' hMem)

theorem change_eq {Row Key : Type} [DecidableEq Key] {key : Row → Key}
    {t : Table key} {row : Row} (hRow : row ∈ t.rows) (w : Write) : change t (key row) w = [w] := by
  unfold change
  rw [Table.lookup_eq_some_iff.mpr ⟨hRow, rfl⟩]

theorem insertion_error {Row Key : Type} [DecidableEq Key] {key : Row → Key}
    {t : Table key} {row : Row} {constraint : String} {e : Status}
    (hError : insertion t row constraint w = .error e) : e.code = .internal := by
  unfold insertion at hError
  split at hError
  · cases hError
    rfl
  · cases hError

/- A statement that fails fails inside the database. -/
theorem exec_error (s : Stmt) {e : Status} (hExec : s.exec db = .error e) : e.code = .internal := by
  cases s with
  | insertSession new =>
    simp only [exec] at hExec
    split at hExec
    · exact insertion_error hExec
    · cases hExec
      rfl
  | insertClient new => exact insertion_error hExec
  | insertCode new =>
    simp only [exec] at hExec
    split at hExec
    · split at hExec
      · exact insertion_error hExec
      · cases hExec
        rfl
    · cases hExec
      rfl
  | revokeUnrevoked h now =>
    simp only [exec] at hExec
    split at hExec
    · split at hExec <;> cases hExec
    · cases hExec
  | deleteClient id =>
    simp only [exec] at hExec
    split at hExec <;> cases hExec
  | consumeCode h now =>
    simp only [exec] at hExec
    split at hExec
    · split at hExec <;> cases hExec
    · cases hExec
  | _ => cases hExec

/- A statement writes rows it has waited for. -/
theorem holds_wanted (s : Stmt) (db : AuthDb) (r : Resp s) (ws : List Write)
    (hExec : s.exec db = .ok (r, ws)) : ∀ w ∈ ws, ∀ row ∈ w.holds, row ∈ s.wants := by
  intro w hMem row hRow
  cases s with
  | selectSession h => cases hExec; cases hMem
  | coalesceRevoked h now =>
    cases hExec
    rw [mem_change hMem] at hRow
    exact hRow
  | setRevoked h now =>
    cases hExec
    rw [mem_change hMem] at hRow
    exact hRow
  | scanUnrevoked userID => cases hExec; cases hMem
  | revokeUnrevoked h now =>
    rw [(exec_revokeUnrevoked hExec).1 w hMem] at hRow
    exact hRow
  | rotateSession h now newHash userAgent ip =>
    cases hExec
    rw [mem_change hMem] at hRow
    exact hRow
  | insertSession new =>
    rw [(exec_insertSession hExec).2.2] at hMem
    rw [List.mem_singleton.mp hMem] at hRow
    exact hRow
  | selectClient id => cases hExec; cases hMem
  | insertClient new =>
    rw [(insertion_ok hExec).2] at hMem
    rw [List.mem_singleton.mp hMem] at hRow
    exact hRow
  | deleteClient id =>
    simp only [exec] at hExec
    split at hExec
    · cases hExec
      rw [List.mem_singleton.mp hMem] at hRow
      exact hRow
    · cases hExec
      cases hMem
  | selectCode h clientID => cases hExec; cases hMem
  | insertCode new =>
    rw [(exec_insertCode hExec).2.2.2] at hMem
    rw [List.mem_singleton.mp hMem] at hRow
    exact hRow
  | consumeCode h now =>
    simp only [exec] at hExec
    split at hExec
    · split at hExec
      · cases hExec
        rw [List.mem_singleton.mp hMem] at hRow
        exact hRow
      · cases hExec
        cases hMem
    · cases hExec
      cases hMem
  | selectRoles userID => cases hExec; cases hMem
  | selectPermissions userID => cases hExec; cases hMem

end Stmt

/- The database under the transactions of the service. -/
def authdb : Engine AuthDb Stmt Resp Write Row Status where
  now := fun _ => 0
  exec := fun _ s db => s.exec db
  tick := fun _ db => db
  apply := Write.apply
  wants := Stmt.wants
  holds := Write.holds
  broken := internal (.pg .connection)
  holds_wanted := fun _ s db r ws hExec =>
    Stmt.holds_wanted s db r ws hExec

/- Programs over the statements of the service. -/
abbrev Tx := Prog Stmt Resp Status

/- Send one statement. -/
def sql (s : Stmt) : Tx (Resp s) := Prog.request s

----
-- Versions Of A Session
----

/- What a session row can become. -/
structure Session.Later (s s' : Session) : Prop where
  tokenHash : s'.tokenHash = s.tokenHash
  sessionID : s'.sessionID = s.sessionID
  userID : s'.userID = s.userID
  revoked : s.revokedAt ≠ none → s'.revokedAt ≠ none

theorem Session.Later.refl (s : Session) : s.Later s := ⟨rfl, rfl, rfl, id⟩

theorem Session.Later.trans {s₁ s₂ s₃ : Session} (hFirst : s₁.Later s₂)
    (hSecond : s₂.Later s₃) : s₁.Later s₃ where
  tokenHash := hSecond.tokenHash.trans hFirst.tokenHash
  sessionID := hSecond.sessionID.trans hFirst.sessionID
  userID := hSecond.userID.trans hFirst.userID
  revoked := hSecond.revoked ∘ hFirst.revoked

/- The session that a write revokes. -/
def Write.revokes : Write → Option String
| .coalesceRevoked h _ => some h
| .setRevoked h _ => some h
| .rotateSession h _ _ _ _ => some h
| _ => none

/- What a write makes of a session that is there. -/
structure Write.Turns (w : Write) (s s' : Session) : Prop where
  later : s.Later s'
  revoked : w.revokes = some s.tokenHash → s'.revokedAt ≠ none
  kept : w.revokes ≠ some s.tokenHash → s' = s

/- A change of one row that revokes it. -/
theorem Write.turns_modify {w : Write} {h : String}
    (hRevokes : w.revokes = some h) (f : Session → Session) (hLater : ∀ s : Session, s.Later (f s))
    (hRevoked : ∀ s, (f s).revokedAt ≠ none) (s : Session) :
    w.Turns s (if s.tokenHash = h then f s else s) := by
  by_cases hSame : s.tokenHash = h
  · rw [if_pos hSame]
    refine ⟨hLater s, fun _ => hRevoked s, ?_⟩
    intro hOther
    rw [hRevokes, hSame] at hOther
    exact absurd rfl hOther
  · rw [if_neg hSame]
    refine ⟨Session.Later.refl s, ?_, fun _ => rfl⟩
    intro hEq
    rw [hRevokes] at hEq
    exact absurd (Option.some.inj hEq).symm hSame

/-
  After a write, a session is a later version of one that was there, or the one that was inserted.
-/
theorem Write.apply_sessions (w : Write) (db : AuthDb) :
    (∃ f : Session → Session, (w.apply db).sessions.rows =
    db.sessions.rows.map f ∧ ∀ s, w.Turns s (f s)) ∨ ∃ row, w = .insertSession row := by
  have hKept : (w.apply db).sessions.rows = db.sessions.rows →
      w.revokes = none → ∃ f : Session → Session, (w.apply db).sessions.rows =
      db.sessions.rows.map f ∧ ∀ s, w.Turns s (f s) := by
    intro hRows hNone
    refine ⟨id, hRows.trans (List.map_id _).symm, ?_⟩
    intro s
    refine ⟨Session.Later.refl s, ?_, fun _ => rfl⟩
    intro hEq
    rw [hNone] at hEq
    cases hEq
  cases w with
  | coalesceRevoked h at_ =>
    have hRevoked : ∀ s : Session, (s.coalesceRevoked at_).revokedAt ≠ none := by
      intro s
      simp [Session.coalesceRevoked]
    exact Or.inl ⟨_, rfl, Write.turns_modify rfl (Session.coalesceRevoked at_)
      (fun s => ⟨rfl, rfl, rfl, fun _ => hRevoked s⟩) hRevoked⟩
  | setRevoked h at_ =>
    have hRevoked : ∀ s : Session, (s.setRevoked at_).revokedAt ≠ none :=
      fun _ => Option.some_ne_none _
    exact Or.inl ⟨_, rfl, Write.turns_modify rfl (Session.setRevoked at_)
      (fun s => ⟨rfl, rfl, rfl, fun _ => hRevoked s⟩) hRevoked⟩
  | rotateSession h at_ newHash userAgent ip =>
    have hRevoked : ∀ s : Session, (s.rotate at_ newHash userAgent ip).revokedAt ≠ none :=
      fun _ => Option.some_ne_none _
    exact Or.inl ⟨_, rfl, Write.turns_modify rfl (Session.rotate at_ newHash userAgent ip)
      (fun s => ⟨rfl, rfl, rfl, fun _ => hRevoked s⟩) hRevoked⟩
  | insertSession row => exact Or.inr ⟨row, rfl⟩
  | insertClient row => exact Or.inl (hKept rfl rfl)
  | deleteClient id => exact Or.inl (hKept rfl rfl)
  | insertCode row => exact Or.inl (hKept rfl rfl)
  | consumeCode h at_ => exact Or.inl (hKept rfl rfl)

/- Sessions are kept, and revoked sessions stay revoked. -/
theorem exists_later_view (ws : List Write) {db : AuthDb} {s : Session}
    (hRow : s ∈ db.sessions.rows) : ∃ s' ∈ (authdb.view db ws).sessions.rows, s.Later s' ∧
    ((∃ w ∈ ws, w.revokes = some s.tokenHash) → s'.revokedAt ≠ none) := by
  induction ws generalizing db s with
  | nil =>
    refine ⟨s, hRow, Session.Later.refl s, ?_⟩
    rintro ⟨w, hMem, _⟩
    cases hMem
  | cons w ws ih =>
    rw [Engine.view_cons]
    rcases w.apply_sessions db with ⟨f, hRows, hTurns⟩ | ⟨row, rfl⟩
    · have hNext : f s ∈ (w.apply db).sessions.rows := by
        rw [hRows]
        exact List.mem_map_of_mem hRow
      rcases ih hNext with ⟨s', hRow', hLater', hRest⟩
      have hFirst := hTurns s
      refine ⟨s', hRow', hFirst.later.trans hLater', ?_⟩
      rintro ⟨w', hMem, hRevokes⟩
      rcases List.mem_cons.mp hMem with rfl | hMem
      · exact hLater'.revoked (hFirst.revoked hRevokes)
      · refine hRest ⟨w', hMem, ?_⟩
        rw [hFirst.later.tokenHash]
        exact hRevokes
    · have hNext : s ∈ ((Write.insertSession row).apply db).sessions.rows :=
        Table.mem_insert_of_mem hRow row
      rcases ih hNext with ⟨s', hRow', hLater', hRest⟩
      refine ⟨s', hRow', hLater', ?_⟩
      rintro ⟨w', hMem, hRevokes⟩
      rcases List.mem_cons.mp hMem with rfl | hMem
      · cases hRevokes
      · exact hRest ⟨w', hMem, hRevokes⟩

/- Where a session after some writes comes from. -/
theorem origin_of_mem_view (ws : List Write) {db : AuthDb} {s' : Session}
    (hRow : s' ∈ (authdb.view db ws).sessions.rows) :
    (∃ s ∈ db.sessions.rows, s.Later s' ∧
    ((∃ w ∈ ws, w.revokes = some s.tokenHash) → s'.revokedAt ≠ none)) ∨
    ∃ s, Write.insertSession s ∈ ws ∧ s.Later s' := by
  induction ws generalizing db with
  | nil =>
    left
    refine ⟨s', hRow, Session.Later.refl s', ?_⟩
    rintro ⟨w, hMem, _⟩
    cases hMem
  | cons w ws ih =>
    rw [Engine.view_cons] at hRow
    rcases ih hRow with ⟨s₁, hRow₁, hLater₁, hRest⟩ | ⟨s₁, hMem, hLater₁⟩
    · rcases w.apply_sessions db with ⟨f, hRows, hTurns⟩ | ⟨row, rfl⟩
      · rw [show (authdb.apply db w).sessions.rows = db.sessions.rows.map f from hRows] at hRow₁
        rcases List.mem_map.mp hRow₁ with ⟨s, hOld, rfl⟩
        have hFirst := hTurns s
        left
        refine ⟨s, hOld, hFirst.later.trans hLater₁, ?_⟩
        rintro ⟨w', hMem, hRevokes⟩
        rcases List.mem_cons.mp hMem with rfl | hMem
        · exact hLater₁.revoked (hFirst.revoked hRevokes)
        · refine hRest ⟨w', hMem, ?_⟩
          rw [hFirst.later.tokenHash]
          exact hRevokes
      · rcases Table.mem_of_mem_insert hRow₁ with hOld | rfl
        · left
          refine ⟨s₁, hOld, hLater₁, ?_⟩
          rintro ⟨w', hMem, hRevokes⟩
          rcases List.mem_cons.mp hMem with rfl | hMem
          · cases hRevokes
          · exact hRest ⟨w', hMem, hRevokes⟩
        · right
          exact ⟨s₁, List.mem_cons_self, hLater₁⟩
    · right
      exact ⟨s₁, List.mem_cons_of_mem w hMem, hLater₁⟩

theorem later_of_mem_view {ws : List Write} {db : AuthDb} {s s' : Session}
    (hRow : s ∈ db.sessions.rows) (hRow' : s' ∈ (authdb.view db ws).sessions.rows)
    (hHash : s'.tokenHash = s.tokenHash) : s.Later s' := by
  rcases exists_later_view ws hRow with ⟨s₂, hRow₂, hLater, _⟩
  rw [Table.eq_of_key hRow' hRow₂ (hHash.trans hLater.tokenHash.symm)]
  exact hLater

theorem mem_view_of_kept {ws : List Write} {db : AuthDb} {s : Session} (hRow : s ∈ db.sessions.rows)
    (hKept : ∀ w ∈ ws, w.revokes ≠ some s.tokenHash) : s ∈ (authdb.view db ws).sessions.rows := by
  induction ws generalizing db with
  | nil => exact hRow
  | cons w ws ih =>
    rw [Engine.view_cons]
    refine ih ?_ (fun w' hMem =>
      hKept w' (List.mem_cons_of_mem w hMem))
    rcases w.apply_sessions db with ⟨f, hRows, hTurns⟩ | ⟨row, rfl⟩
    · have hSame := (hTurns s).kept (hKept w List.mem_cons_self)
      show s ∈ (w.apply db).sessions.rows
      rw [hRows, ← hSame]
      exact List.mem_map_of_mem hRow
    · exact Table.mem_insert_of_mem hRow row

end Fincore.Auth
