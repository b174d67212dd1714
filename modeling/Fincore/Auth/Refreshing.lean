import Fincore.Auth.Sessions
import Fincore.Lib.Faults

/-
  Calls of `RefreshToken` that fail.

  The rotation is committed before the roles are read and the access token is signed. What fails up
  to the commit leaves the token as it was; what fails afterwards, also an acknowledgement of the
  commit that gets lost, leaves the caller with a token that is already replaced.

  Key definitions include:
    * `Server.handleRefreshToken`
    * `Server.Rotates` and `Server.Answers`
    * `Server.Usable`

  Main results:
    * `refreshToken_commits` and `refreshToken_refused`
    * `handle_of_rotates` and `handle_of_not_rotates`
    * `token_usable_iff`
-/

----
-- The Handler Under Faults
----

namespace Fincore.Auth

/-
  What happens to a call from outside: to its transaction, and to one of the two reads that come
  after it.
-/
structure RefreshFaults where
  tx : Engine.Fault
  read : Option (Fin 2)

def RefreshFaults.none : RefreshFaults := ⟨.clean, .none⟩

/- The fault of the statements after the commit. -/
def RefreshFaults.reads (f : RefreshFaults) : Engine.Fault :=
  match f.read with
  | .none => .clean
  | .some i => .broke i

theorem RefreshFaults.reads_clean (f : RefreshFaults) : f.reads = .clean ↔ f.read = .none := by
  unfold RefreshFaults.reads
  cases f.read with
  | none => exact iff_of_true rfl rfl
  | some i => exact iff_of_false nofun nofun

/- `RefreshToken`, from its transaction to its answer -/
def Server.handleRefreshToken (srv : Server) (req : String) (md : Metadata)
    (env : Env) (f : RefreshFaults) (db : AuthDb) : Except Status Tokens × AuthDb :=
  match authdb.under f.tx (srv.refreshToken req md env) db with
  | (.error e, db') => (.error e, db')
  | (.ok rotation, db') =>
    authdb.under f.reads (srv.respond env rotation) db'

/- The token was drawn and its row can be inserted. -/
def Server.Rotates (srv : Server) (env : Env) (f : RefreshFaults) (db : AuthDb)
    (s : Session) : Prop :=
  f.tx.Commits ∧ ∃ token, env.random = .ok token ∧ s.userID ∈ db.users ∧
      db.sessions.lookup (srv.hashRefreshToken token) = .none

/- The answer is made and the caller gets to see it. -/
def Server.Answers (srv : Server) (env : Env) (f : RefreshFaults) (db : AuthDb)
    (s : Session) : Prop :=
  f.tx = .clean ∧ f.read = .none ∧ db.roles s.userID ≠ [] ∧ ∃ access, srv.accessToken env s.userID
      (db.roles s.userID) (db.permissions s.userID) = .ok access

/-
  The row of the token is live and a call that presents the token in time succeeds, if nothing else
  is in its way.
-/
def Server.Usable (srv : Server) (req : String) (sessions : Table Session.tokenHash) : Prop :=
  ∃ s, sessions.lookup (srv.presented req) = some s ∧ s.Live ∧
    ∀ (db : AuthDb) (md : Metadata) (env : Env), db.sessions = sessions →
      env.now ≤ s.expiresAt → env.now ≤ s.absoluteExpiresAt →
      srv.Rotates env .none db s → srv.Answers env .none db s → ∃ tokens,
          (srv.handleRefreshToken req md env .none db).1 = .ok tokens

----
-- The Transaction
----

variable {srv : Server} {req : String} {md : Metadata} {env : Env} {db : AuthDb} {s : Session}

/- The row that a token is accepted for. -/
def Server.Accepts (srv : Server) (req : String) (env : Env) (db : AuthDb) (s : Session) : Prop :=
  trimSpace req ≠ "" ∧ db.sessions.lookup (srv.presented req) = some s ∧ s.Live ∧
    env.now ≤ s.expiresAt ∧ env.now ≤ s.absoluteExpiresAt

/- What a rotation writes. -/
def Server.rotationWrites (srv : Server) (req : String) (md : Metadata)
    (env : Env) (s : Session) (token : String) : List Write :=
  [srv.rotateWrite req md env token, .insertSession (srv.successor md env s token)]

theorem refreshRow_live (hAccepts : srv.Accepts req env db s) : srv.refreshRow req md env (some s) =
    srv.rotate (srv.presented req) md env s := by
  rcases hAccepts with ⟨_, _, hLive, hExpires, hAbsolute⟩
  unfold Server.refreshRow
  dsimp only
  rw [if_neg (not_not.mpr hLive), if_neg (Int.not_lt.mpr hExpires),
    if_neg (Int.not_lt.mpr hAbsolute)]

theorem serial_refreshToken (hAccepts : srv.Accepts req env db s) :
    authdb.withTx (srv.refreshToken req md env) db = authdb.serial 0
    (srv.rotate (srv.presented req) md env s) [] db := by
  unfold Server.refreshToken
  rw [if_neg hAccepts.1, ← refreshRow_live hAccepts]
  have hRead : authdb.exec 0 (.selectSession (srv.presented req))
      (authdb.view db []) = .ok (some s, []) := by
    rw [← hAccepts.2.1]
    rfl
  exact Engine.serial_ask_exec hRead

theorem exec_rotateSession_some {h newHash : String} {now : Time}
    {userAgent ip : Option String} (hRow : db.sessions.lookup h = some s) :
    (Stmt.rotateSession h now newHash userAgent ip).exec db =
    .ok ((), [.rotateSession h (timestamptz now) newHash userAgent ip]) := by
  simp only [Stmt.exec, change, hRow]

variable {row : Session}

theorem exec_insertSession_free (hUser : row.userID ∈ db.users)
    (hFree : db.sessions.lookup row.tokenHash = .none) :
    (Stmt.insertSession row).exec db = .ok ((), [.insertSession row]) := by
  simp only [Stmt.exec, if_pos hUser, insertion, hFree]

theorem exec_insertSession_refused
    (hNot : ¬ (row.userID ∈ db.users ∧ db.sessions.lookup row.tokenHash = .none)) :
    ∃ e, (Stmt.insertSession row).exec db = .error e := by
  cases hExec : (Stmt.insertSession row).exec db with
  | error e => exact ⟨e, rfl⟩
  | ok answer =>
    rcases Stmt.exec_insertSession hExec with ⟨hUser, hFree, _⟩
    exact absurd ⟨hUser, hFree⟩ hNot

/- What the last statement of a rotation sees. -/
def Server.rotated (srv : Server) (req : String) (md : Metadata) (env : Env)
    (token : String) (db : AuthDb) : AuthDb := authdb.view db [srv.rotateWrite req md env token]

theorem Session.key_rotate (at_ : Time) (newHash : String)
    (userAgent ip : Option String) (r : Session) : (r.rotate at_ newHash userAgent ip).tokenHash =
    r.tokenHash := rfl

/- It changes the row of the token only. -/
theorem lookup_rotated (token h : String) : (srv.rotated req md env token db).sessions.lookup h =
      (db.sessions.lookup h).map (fun r =>
        if r.tokenHash = srv.presented req then
          r.rotate (timestamptz env.now) (srv.hashRefreshToken token)
            (nullIfEmpty (clientMetaFromContext md).1) (nullIfEmpty (clientMetaFromContext md).2)
        else r) := Table.lookup_modify (Session.key_rotate _ _ _ _)

/- Whether the row of the new token can be inserted. -/
theorem inserts_rotated (req : String) (md : Metadata) (env : Env) (token : String) :
    ((srv.successor md env s token).userID ∈ (srv.rotated req md env token db).users ∧
    (srv.rotated req md env token db).sessions.lookup
    (srv.successor md env s token).tokenHash = .none) ↔
    s.userID ∈ db.users ∧ db.sessions.lookup (srv.hashRefreshToken token) =
    .none := by
  rw [lookup_rotated, Option.map_eq_none_iff]
  exact Iff.rfl

/- With a new token and the user there, it commits. -/
theorem refreshToken_commits (hAccepts : srv.Accepts req env db s) {token : String}
    (hDrawn : env.random = .ok token) (hUser : s.userID ∈ db.users)
    (hFree : db.sessions.lookup (srv.hashRefreshToken token) = .none)
    (md : Metadata) : authdb.withTx (srv.refreshToken req md env) db =
    (.ok ⟨s.userID, token⟩, authdb.view db (srv.rotationWrites req md env s token)) := by
  rw [serial_refreshToken hAccepts]
  unfold Server.rotate Env.token
  rw [hDrawn]
  refine (Engine.serial_ask_exec (exec_rotateSession_some hAccepts.2.1)).trans ?_
  rcases (inserts_rotated req md env token).mpr ⟨hUser, hFree⟩ with ⟨hUser', hFree'⟩
  refine (Engine.serial_ask_exec (exec_insertSession_free hUser' hFree')).trans ?_
  rfl

/- Without that, it fails. -/
theorem refreshToken_refused (hAccepts : srv.Accepts req env db s)
    (hNot : ¬ ∃ token, env.random = .ok token ∧ s.userID ∈ db.users ∧
    db.sessions.lookup (srv.hashRefreshToken token) = .none)
    (md : Metadata) : ∃ e, authdb.withTx (srv.refreshToken req md env) db = (.error e, db) := by
  rw [serial_refreshToken hAccepts]
  unfold Server.rotate Env.token
  cases hDrawn : env.random with
  | error e => exact ⟨_, rfl⟩
  | ok token =>
    rcases exec_insertSession_refused
        (fun hBoth => hNot ⟨token, hDrawn,
          (inserts_rotated req md env token).mp hBoth⟩) with ⟨e, hError⟩
    refine ⟨e, (Engine.serial_ask_exec (exec_rotateSession_some hAccepts.2.1)).trans ?_⟩
    exact Engine.serial_ask_error hError

theorem not_live_of_rotated (hRow : db.sessions.lookup (srv.presented req) = some s) (md : Metadata)
    (env : Env) (token : String) : ∃ old,
    (authdb.view db (srv.rotationWrites req md env s token)).sessions.lookup (srv.presented req) =
    some old ∧ ¬ old.Live := by
  rcases Table.lookup_eq_some_iff.mp hRow with ⟨_, hKey⟩
  have hOld : (srv.rotated req md env token db).sessions.lookup
      (srv.presented req) = some (s.rotate (timestamptz env.now) (srv.hashRefreshToken token)
      (nullIfEmpty (clientMetaFromContext md).1) (nullIfEmpty (clientMetaFromContext md).2)) := by
    rw [lookup_rotated, hRow, Option.map_some, if_pos hKey]
  rcases Table.lookup_eq_some_iff.mp hOld with ⟨hMem, hOldKey⟩
  refine ⟨_, Table.lookup_eq_some_iff.mpr ⟨Table.mem_insert_of_mem hMem _, hOldKey⟩, ?_⟩
  rintro ⟨hNot, _⟩
  cases hNot

----
-- The Answer
----

variable (userID token : String)

/- What the answer is made of is read from the database. -/
theorem serial_respond_read : authdb.withTx (srv.respond env ⟨userID, token⟩) db = authdb.serial 0
      ((if db.roles userID = [] then
          Prog.fail (internal (.text ("no roles assigned for user " ++ userID)))
        else pure (db.roles userID, db.permissions userID)) >>= fun (roles, perms) => do
          let access ← Prog.ofExcept (srv.accessToken env userID roles perms)
          return ⟨access, token, srv.accessTTL.tdiv 1000000000⟩) [] db := by
  refine (Engine.serial_ask_exec rfl).trans ?_
  exact Engine.serial_ask_exec rfl

theorem serial_respond : authdb.withTx (srv.respond env ⟨userID, token⟩) db =
      (if db.roles userID = [] then
          .error (internal (.text ("no roles assigned for user " ++ userID)))
        else
          (srv.accessToken env userID (db.roles userID) (db.permissions userID)).map (fun access =>
              ⟨access, token, srv.accessTTL.tdiv 1000000000⟩), db) := by
  rw [serial_respond_read]
  by_cases hRoles : db.roles userID = []
  · rw [if_pos hRoles, if_pos hRoles]
    rfl
  · rw [if_neg hRoles, if_neg hRoles]
    cases hSigned : srv.accessToken env userID (db.roles userID) (db.permissions userID) with
    | error e =>
      show authdb.serial 0 (Prog.ofExcept
        (srv.accessToken env userID (db.roles userID) (db.permissions userID)) >>= _) [] db = _
      rw [hSigned]
      rfl
    | ok access =>
      show authdb.serial 0 (Prog.ofExcept
        (srv.accessToken env userID (db.roles userID) (db.permissions userID)) >>= _) [] db = _
      rw [hSigned]
      rfl

theorem respond_ok_iff :
    (∃ tokens, (authdb.withTx (srv.respond env ⟨userID, token⟩) db).1 = .ok tokens) ↔
    db.roles userID ≠ [] ∧ ∃ access, srv.accessToken env userID
    (db.roles userID) (db.permissions userID) = .ok access := by
  rw [serial_respond]
  by_cases hRoles : db.roles userID = []
  · simp [hRoles]
  · cases hSigned : srv.accessToken env userID (db.roles userID) (db.permissions userID) with
    | error e => simp [hRoles, Except.map]
    | ok access => simp [hRoles, Except.map]

theorem under_respond (f : Engine.Fault) (userID token : String) :
    (authdb.under f (srv.respond env ⟨userID, token⟩) db).2 =
    db := by
  by_cases hEnd : f.Commits ∧ ∃ tokens,
          (authdb.withTx (srv.respond env ⟨userID, token⟩) db).1 = .ok tokens
  · rcases hEnd with ⟨hCommits, tokens, hOk⟩
    have hTx : authdb.withTx (srv.respond env ⟨userID, token⟩) db = (.ok tokens, db) := by
      refine Prod.ext hOk ?_
      rw [serial_respond]
    rw [Engine.under_commits hTx hCommits]
  · exact (Engine.under_aborts id (fun _ _ => rfl) hEnd).2

----
-- Failed Calls
----

variable {f : RefreshFaults}

/-
  A call whose rotation commits: the row of the token is not live any more, whatever the call
  answers.
-/
theorem handle_of_rotates (hAccepts : srv.Accepts req env db s)
    (hRotates : srv.Rotates env f db s) (md : Metadata) :
    ((∃ tokens, (srv.handleRefreshToken req md env f db).1 =
    .ok tokens) ↔ srv.Answers env f db s) ∧ ∃ old,
    (srv.handleRefreshToken req md env f db).2.sessions.lookup (srv.presented req) =
    some old ∧ ¬ old.Live := by
  rcases hRotates with ⟨hCommits, token, hDrawn, hUser, hFree⟩
  have hTx := refreshToken_commits hAccepts hDrawn hUser hFree md
  have hOld := not_live_of_rotated hAccepts.2.1 md env token
  unfold Server.handleRefreshToken
  rw [Engine.under_commits hTx hCommits]
  by_cases hAcked : f.tx = .clean
  · rw [if_pos hAcked]
    dsimp only
    rw [Engine.under_ok_iff, respond_ok_iff, under_respond, RefreshFaults.reads_clean]
    exact ⟨(and_iff_right hAcked).symm, hOld⟩
  · rw [if_neg hAcked]
    refine ⟨iff_of_false ?_ ?_, hOld⟩
    · rintro ⟨tokens, hOk⟩
      cases hOk
    · intro hAnswers
      exact hAcked hAnswers.1

/- Any other call fails and leaves everything as it was. -/
theorem handle_of_not_rotates (hAccepts : srv.Accepts req env db s)
    (hNot : ¬ srv.Rotates env f db s) (md : Metadata) :
    ∃ e, srv.handleRefreshToken req md env f db = (.error e, db) := by
  have hEnd : ¬ (f.tx.Commits ∧ ∃ rotation, (authdb.withTx (srv.refreshToken req md env) db).1 =
      .ok rotation) := by
    rintro ⟨hCommits, rotation, hOk⟩
    rcases refreshToken_refused hAccepts (fun h => hNot ⟨hCommits, h⟩) md with ⟨e, hRefused⟩
    rw [hRefused] at hOk
    cases hOk
  rcases Engine.under_aborts id (fun _ _ => rfl) hEnd with ⟨⟨e, hError⟩, hDb⟩
  refine ⟨e, ?_⟩
  have hUnder : authdb.under f.tx (srv.refreshToken req md env) db =
      (.error e, db) := Prod.ext hError hDb
  unfold Server.handleRefreshToken
  rw [hUnder]

variable {sessions : Table Session.tokenHash}

theorem usable_of_live (hToken : trimSpace req ≠ "")
    (hRow : sessions.lookup (srv.presented req) = some s) (hLive : s.Live) :
    srv.Usable req sessions := by
  refine ⟨s, hRow, hLive, ?_⟩
  rintro db md env rfl hExpires hAbsolute hRotates hAnswers
  have hAccepts : srv.Accepts req env db s := ⟨hToken, hRow, hLive, hExpires, hAbsolute⟩
  exact (handle_of_rotates hAccepts hRotates md).1.mpr hAnswers

theorem not_usable_of_not_live
    (hRow : sessions.lookup (srv.presented req) = some s) (hNot : ¬ s.Live) :
    ¬ srv.Usable req sessions := by
  rintro ⟨s', hRow', hLive, _⟩
  rw [hRow] at hRow'
  cases hRow'
  exact hNot hLive

/-
  A failed call leaves its token usable if the rotation does not get to its commit. Once it does,
  the call must not fail any more: the commit is acknowledged, both reads get through, the user has
  roles and the access token is signed.
-/
theorem token_usable_iff (srv : Server) (db : AuthDb) (req : String)
    (md : Metadata) (env : Env) (f : RefreshFaults) (s : Session) (hToken : trimSpace req ≠ "")
    (hRow : db.sessions.lookup (srv.presented req) = some s) (hLive : s.Live)
    (hExpires : env.now ≤ s.expiresAt) (hAbsolute : env.now ≤ s.absoluteExpiresAt) :
    ((∃ e, (srv.handleRefreshToken req md env f db).1 = .error e) →
      srv.Usable req (srv.handleRefreshToken req md env f db).2.sessions) ↔
      (srv.Rotates env f db s → srv.Answers env f db s) := by
  have hAccepts : srv.Accepts req env db s := ⟨hToken, hRow, hLive, hExpires, hAbsolute⟩
  by_cases hRotates : srv.Rotates env f db s
  · rcases handle_of_rotates hAccepts hRotates md with ⟨hOk, old, hOld, hDead⟩
    rw [imp_iff_right hRotates, ← hOk]
    cases hRes : (srv.handleRefreshToken req md env f db).1 with
    | error e =>
      refine iff_of_false ?_ ?_
      · intro hUsable
        exact not_usable_of_not_live hOld hDead (hUsable ⟨e, rfl⟩)
      · rintro ⟨tokens, hOther⟩
        cases hOther
    | ok tokens =>
      refine iff_of_true ?_ ⟨tokens, rfl⟩
      rintro ⟨e, hOther⟩
      cases hOther
  · rcases handle_of_not_rotates hAccepts hRotates md with ⟨e, hRes⟩
    rw [hRes]
    refine iff_of_true ?_ (fun h => absurd h hRotates)
    intro _
    exact usable_of_live hToken hRow hLive

/- The connection breaks before the commit. -/
theorem token_usable_after_break :
    (Server.plain.handleRefreshToken "t0" .none (.drawing 1000 "t1") ⟨.broke 3, .none⟩ loggedIn).1 =
      .error (internal (.pg .connection)) ∧ Server.plain.Usable "t0"
      (Server.plain.handleRefreshToken "t0" .none
      (.drawing 1000 "t1") ⟨.broke 3, .none⟩ loggedIn).2.sessions := by
  have hError :
      (Server.plain.handleRefreshToken "t0" .none
      (.drawing 1000 "t1") ⟨.broke 3, .none⟩ loggedIn).1 = .error (internal (.pg .connection)) := by
    decide +kernel
  refine ⟨hError, (token_usable_iff Server.plain loggedIn "t0"
    .none (.drawing 1000 "t1") ⟨.broke 3, .none⟩ (laptop "t0" 86400000000000) (by decide +kernel)
    (by decide +kernel) (by decide +kernel)
    (by decide +kernel) (by decide +kernel)).mpr ?_ ⟨_, hError⟩⟩
  rintro ⟨hCommits, _⟩
  exact hCommits.elim

/- The user whose last role was revoked. -/
def withoutRoles : AuthDb :=
  { loggedIn with roles := fun _ => [] }

/- The call fails on the roles and the token is spent. -/
theorem token_burned_without_roles :
    (∃ s ∈ withoutRoles.sessions.rows, s.tokenHash = Server.plain.presented "t0" ∧ s.Live ∧
      1000 ≤ s.expiresAt ∧ 1000 ≤ s.absoluteExpiresAt) ∧
      (Server.plain.handleRefreshToken "t0" .none
      (.drawing 1000 "t1") .none withoutRoles).1 = .error (internal (.text
      "no roles assigned for user ada")) ∧ ¬ Server.plain.Usable "t0"
      (Server.plain.handleRefreshToken "t0" .none (.drawing 1000 "t1") .none
      withoutRoles).2.sessions := by
  refine ⟨by decide +kernel, by decide +kernel, ?_⟩
  have hDead :
      ((Server.plain.handleRefreshToken "t0" .none (.drawing 1000 "t1") .none
          withoutRoles).2.sessions.lookup (Server.plain.presented "t0")).all
        (fun s => decide (¬ s.Live)) = true := by
    decide +kernel
  rintro ⟨s, hRow, hLive, _⟩
  rw [hRow] at hDead
  exact of_decide_eq_true hDead hLive

end Fincore.Auth
