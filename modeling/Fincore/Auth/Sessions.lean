import Fincore.Auth.Server
import Fincore.Lib.Once

/-
  `RefreshToken`, `Logout` and `LogoutAll` of `infrastructure/grpc/server.go`, and the points at
  which a call of them can stand.

  `RefreshToken` runs in a transaction whose rollback is deferred: every branch that returns an
  error, also the one that detects the reuse of a token, undoes what it wrote. `Logout` and
  `LogoutAll` are single statements.

  Key definitions include:
    * `Server.refreshToken`
    * `Server.respond`
    * `Server.logout` and `Server.logoutAll`
    * `SessionCall` and `Server.serve`
    * `Server.Stage`
    * `Server.rotations`

  Main results:
    * `Server.stage_answer`
    * `Server.stage_view`
-/

----
-- Handlers
----

namespace Fincore.Auth

/- A session row as it is inserted. -/
def Session.opened (tokenHash sessionID userID : String) (expiresAt absoluteExpiresAt : Time)
    (userAgent ip : Option String) : Session where
  tokenHash := tokenHash
  sessionID := sessionID
  userID := userID
  expiresAt := timestamptz expiresAt
  absoluteExpiresAt := timestamptz absoluteExpiresAt
  lastUsedAt := none
  revokedAt := none
  replacedByHash := none
  userAgent := userAgent
  ip := ip

/- What is known once the transaction has committed. -/
structure Rotation where
  userID : String
  refreshToken : String
  deriving DecidableEq

/- `RefreshTokenResponse` -/
structure Tokens where
  accessToken : String
  refreshToken : String
  expiresIn : Int
  deriving DecidableEq

/- The hash of the token that a request presents. -/
def Server.presented (srv : Server) (refreshToken : String) : String :=
  srv.hashRefreshToken (trimSpace refreshToken)

/- The row that replaces a session. -/
def Server.successor (srv : Server) (md : Metadata) (env : Env) (s : Session)
    (newRefresh : String) : Session :=
  let newRefreshExp := env.now + srv.refreshTTL
  Session.opened (srv.hashRefreshToken newRefresh) s.sessionID s.userID
    (if newRefreshExp > s.absoluteExpiresAt then
      s.absoluteExpiresAt
    else newRefreshExp) s.absoluteExpiresAt (nullIfEmpty (clientMetaFromContext md).1)
    (nullIfEmpty (clientMetaFromContext md).2)

/- The last part of `RefreshToken`: a new token. -/
def Server.rotate (srv : Server) (refreshHash : String) (md : Metadata)
    (env : Env) (s : Session) : Tx Rotation := do
  let newRefresh ← Prog.ofExcept env.token
  let _ : Unit ← sql (.rotateSession refreshHash env.now
    (srv.hashRefreshToken newRefresh) (nullIfEmpty (clientMetaFromContext md).1)
    (nullIfEmpty (clientMetaFromContext md).2))
  let _ : Unit ← sql (.insertSession (srv.successor md env s newRefresh))
  return ⟨s.userID, newRefresh⟩

/- `RefreshToken`, once the row of the token is read -/
def Server.refreshRow (srv : Server) (req : String) (md : Metadata)
    (env : Env) : Option Session → Tx Rotation
| none => .fail (unauth "invalid refresh token")
| some s =>
  if ¬ s.Live then do
    let _ : Unit ← sql (.coalesceRevoked (srv.presented req) env.now)
    let _ ← revokeAll s.userID env.now
    .fail (unauth "refresh token reuse detected")
  else if env.now > s.expiresAt then do
    let _ : Unit ← sql (.setRevoked (srv.presented req) env.now)
    .fail (unauth "expired refresh token")
  else if env.now > s.absoluteExpiresAt then do
    let _ : Unit ← sql (.setRevoked (srv.presented req) env.now)
    .fail (unauth "expired refresh token")
  else srv.rotate (srv.presented req) md env s

/- The transaction of `RefreshToken` -/
def Server.refreshToken (srv : Server) (req : String) (md : Metadata) (env : Env) : Tx Rotation :=
  if trimSpace req = "" then
    .fail (invalidArg "refresh_token required")
  else do
    let row : Option Session ← sql (.selectSession (srv.presented req))
    srv.refreshRow req md env row

/-
  What `RefreshToken` does after the commit; the answer is a success only if this succeeds as well.
-/
def Server.respond (srv : Server) (env : Env) (rotation : Rotation) : Tx Tokens := do
  let (roles, perms) ← getRolesAndPermissions rotation.userID
  let access ← Prog.ofExcept (srv.accessToken env rotation.userID roles perms)
  return ⟨access, rotation.refreshToken, srv.accessTTL.tdiv 1000000000⟩

/- `Logout` -/
def Server.logout (srv : Server) (req : String) (env : Env) : Tx Unit :=
  if trimSpace req = "" then
    .fail (invalidArg "refresh_token required")
  else do
    let _ : Nat ← sql (.revokeUnrevoked (srv.presented req) env.now)
    return ()

/- The user that a call of `LogoutAll` is for. -/
def Server.logoutUser (srv : Server) (req : String) (md : Metadata)
    (env : Env) : Except Status String :=
  let accessToken :=
    if trimSpace req = "" then srv.bearerToken md
    else trimSpace req
  if accessToken = "" then
    .error (invalidArg "access_token required")
  else
    match srv.payload env.now accessToken with
    | .error e => .error e
    | .ok payload =>
      if trimSpace payload.userID = "" then
        .error (unauth "invalid access token")
      else .ok (trimSpace payload.userID)

/- `LogoutAll`, with the number of sessions it revoked -/
def Server.logoutAll (srv : Server) (req : String) (md : Metadata) (env : Env) : Tx Nat := do
  let userID ← Prog.ofExcept (srv.logoutUser req md env)
  revokeAll userID env.now

/- A call of one of the handlers. -/
inductive SessionCall where
  | refreshToken (req : String) (md : Metadata) (env : Env)
  | logout (req : String) (env : Env)
  | logoutAll (req : String) (md : Metadata) (env : Env)

inductive SessionReply where
  | rotated (rotation : Rotation)
  | loggedOut
  | loggedOutAll (revoked : Nat)
  deriving DecidableEq

def Server.serve (srv : Server) : SessionCall → Tx SessionReply
| .refreshToken req md env => do
    let rotation ← srv.refreshToken req md env
    return .rotated rotation
| .logout req env => do
    srv.logout req env
    return .loggedOut
| .logoutAll req md env => do
    let revoked ← srv.logoutAll req md env
    return .loggedOutAll revoked

/- The committed sessions and every call made so far. -/
abbrev SessionConfig := Engine.Config AuthDb SessionCall Stmt Resp Write Status SessionReply

/- Before any call. -/
def SessionConfig.start (db : AuthDb) : SessionConfig := ⟨db, [], []⟩

abbrev SessionAction := Engine.Action SessionCall

/- Calls interleaved statement by statement. -/
def Server.run (srv : Server) : SessionConfig → List SessionAction →
      Option SessionConfig := Transition.run (authdb.step srv.serve)

----
-- Stages Of A Call
----

variable {srv : Server} {db : AuthDb} {c : SessionCall} {p : Tx SessionReply} {ws : List Write}

/- The statements of a rotation. -/
def Stmt.rotates : Stmt → Bool
| .rotateSession _ _ _ _ _ => true
| .insertSession _ => true
| _ => false

/- The token has a row. -/
def AuthDb.HasToken (db : AuthDb) (h : String) : Prop := ∃ s ∈ db.sessions.rows, s.tokenHash = h

theorem AuthDb.HasToken.view {h : String} (hToken : db.HasToken h)
    (ws : List Write) : (authdb.view db ws).HasToken h := by
  rcases hToken with ⟨s, hRow, hHash⟩
  rcases exists_later_view ws hRow with ⟨s', hRow', hLater, _⟩
  exact ⟨s', hRow', hLater.tokenHash.trans hHash⟩

/- The branch ends in an error and rotates nothing. -/
def Rejecting {α : Type} (p : Tx α) : Prop := p.Fails ∧ p.Asks (fun s => s.rotates = false)

section

variable (srv : Server) (req : String) (md : Metadata)
variable (env : Env) (s : Session) (newRefresh : String)

/- What a rotation writes on the old row. -/
def Server.rotateWrite : Write :=
  .rotateSession (srv.presented req) (timestamptz env.now)
    (srv.hashRefreshToken newRefresh) (nullIfEmpty (clientMetaFromContext md).1)
    (nullIfEmpty (clientMetaFromContext md).2)

/- A rotation before its last statement. -/
def Server.inserting : Tx SessionReply :=
  .ask (.insertSession (srv.successor md env s newRefresh))
    (fun _ => .ret (.rotated ⟨s.userID, newRefresh⟩))

/- A rotation before its first statement. -/
def Server.rotating : Tx SessionReply :=
  .ask (.rotateSession (srv.presented req) env.now (srv.hashRefreshToken newRefresh)
      (nullIfEmpty (clientMetaFromContext md).1) (nullIfEmpty (clientMetaFromContext md).2))
    (fun _ => srv.inserting md env s newRefresh)

/- A rotation and what it has written so far. -/
inductive Server.RotatesAt : Tx SessionReply → List Write → Prop where
  | rotating {p : Tx SessionReply}
      (hProg : p = srv.rotating req md env s newRefresh) : RotatesAt p []
  | inserting {p : Tx SessionReply} (hProg : p = srv.inserting md env s newRefresh) :
      RotatesAt p [srv.rotateWrite req md env newRefresh]
  | done : RotatesAt (.ret (.rotated ⟨s.userID, newRefresh⟩))
        [srv.rotateWrite req md env newRefresh, .insertSession (srv.successor md env s newRefresh)]

end

/-
  Where a call can stand: before its first statement, in a branch that ends in an error, in the
  rotation of a session that was live when it was read, or in the middle of a revocation.
-/
inductive Server.Stage (srv : Server) (db : AuthDb) :
    SessionCall → Tx SessionReply → List Write → Prop where
  | fresh {c : SessionCall} {p : Tx SessionReply} (hProg : p = srv.serve c) : Stage srv db c p []
  | rejecting {req : String} {md : Metadata} {env : Env}
      {p : Tx SessionReply} {ws : List Write} (hReject : Rejecting p)
      (hFound : db.HasToken (srv.presented req) ∨ p = .fail (unauth "invalid refresh token")) :
      Stage srv db (.refreshToken req md env) p ws
  | rotates {req : String} {md : Metadata} {env : Env} {p : Tx SessionReply} {ws : List Write}
      {s s' : Session} {newRefresh : String}
      (hHash : s.tokenHash = srv.presented req) (hRow : s' ∈ db.sessions.rows)
      (hLater : s.Later s') (hAt : srv.RotatesAt req md env s newRefresh p ws) :
      Stage srv db (.refreshToken req md env) p ws
  | revokes {c : SessionCall} {p : Tx SessionReply} {ws : List Write}
      {now : Time} {hashes : List String} {reply : Nat → SessionReply}
      (hOther : ∀ req md env, c ≠ .refreshToken req md env)
      (hProg : p = revokeEach now hashes >>= fun n => .ret (reply n))
      (hWrites : ∀ w ∈ ws, ∃ h at_, w = .setRevoked h at_) : Stage srv db c p ws

/- The commits of others keep the row of a rotation. -/
theorem Server.Stage.view (hStage : srv.Stage db c p ws) (ws' : List Write) :
    srv.Stage (authdb.view db ws') c p ws := by
  cases hStage with
  | fresh hProg => exact .fresh hProg
  | rejecting hReject hFound =>
    exact .rejecting hReject (hFound.imp_left (fun hRow => hRow.view ws'))
  | rotates hHash hRow hLater hAt =>
    rcases exists_later_view ws' hRow with ⟨s', hRow', hLater', _⟩
    exact .rotates hHash hRow' (hLater.trans hLater') hAt
  | revokes hOther hProg hWrites =>
    exact .revokes hOther hProg hWrites

theorem asks_revokeEach (now : Time) (hashes : List String) :
    (revokeEach now hashes).Asks (fun s => s.rotates = false) := by
  induction hashes with
  | nil => trivial
  | cons h hashes ih =>
    refine ⟨rfl, ?_⟩
    intro n
    exact ih.bind (fun _ => trivial)

theorem asks_revokeAll (userID : String) (now : Time) :
    (revokeAll userID now).Asks (fun s => s.rotates = false) := by
  refine ⟨rfl, ?_⟩
  intro hashes
  exact asks_revokeEach now hashes

/- The branches that reject a token whose row was found. -/
theorem rejecting_reuse (h userID : String) (now : Time) : Rejecting (do
      let _ : Unit ← sql (.coalesceRevoked h now)
      let _ ← revokeAll userID now
      (.fail (unauth "refresh token reuse detected") : Tx Rotation)) := by
  have hFails :
      (revokeAll userID now >>= fun _ =>
        (.fail (unauth "refresh token reuse detected") : Tx Rotation)).Fails :=
    Prog.fails_bind _ (fun _ => trivial)
  refine ⟨fun _ => hFails, rfl, ?_⟩
  intro _
  exact (asks_revokeAll userID now).bind (fun _ => trivial)

theorem rejecting_expired (h : String) (now : Time) : Rejecting (do
      let _ : Unit ← sql (.setRevoked h now)
      (.fail (unauth "expired refresh token") : Tx Rotation)) :=
  ⟨fun _ => trivial, rfl, fun _ => trivial⟩

theorem Rejecting.reply {α β : Type} {p : Tx α} (hReject : Rejecting p)
    (reply : α → β) : Rejecting (p >>= fun a => .ret (reply a)) :=
  ⟨hReject.1.bind _, hReject.2.bind (fun _ => trivial)⟩

theorem Server.stage_refreshRow (srv : Server) (req : String) (md : Metadata)
    (env : Env) {row : Option Session} (hRow : db.sessions.lookup (srv.presented req) = row) :
    (Rejecting (srv.refreshRow req md env row >>= fun rotation => .ret
    (SessionReply.rotated rotation)) ∧
    (db.HasToken (srv.presented req) ∨ row = none)) ∨ ∃ s newRefresh,
    s ∈ db.sessions.rows ∧ s.tokenHash = srv.presented req ∧ s.Live ∧
    (srv.refreshRow req md env row >>= fun rotation => .ret (SessionReply.rotated rotation)) =
    srv.rotating req md env s newRefresh := by
  cases row with
  | none => exact Or.inl ⟨⟨trivial, trivial⟩, Or.inr rfl⟩
  | some s =>
    rcases Table.lookup_eq_some_iff.mp hRow with ⟨hMem, hHash⟩
    have hFound : db.HasToken (srv.presented req) ∨ some s = none := Or.inl ⟨s, hMem, hHash⟩
    rw [Server.refreshRow]
    split
    · exact Or.inl ⟨(rejecting_reuse _ _ _).reply _, hFound⟩
    · rename_i hLive
      split
      · exact Or.inl ⟨(rejecting_expired _ _).reply _, hFound⟩
      · split
        · exact Or.inl ⟨(rejecting_expired _ _).reply _, hFound⟩
        · unfold Server.rotate
          cases hToken : env.token with
          | error e =>
            exact Or.inl ⟨⟨trivial, trivial⟩, hFound⟩
          | ok newRefresh =>
            right
            exact ⟨s, newRefresh, hMem, hHash, not_not.mp hLive, rfl⟩

theorem Server.serve_refreshToken {req : String} (hToken : trimSpace req ≠ "")
    (md : Metadata) (env : Env) : srv.serve (.refreshToken req md env) =
      .ask (.selectSession (srv.presented req)) (fun row =>
      srv.refreshRow req md env row >>= fun rotation => .ret (.rotated rotation)) := by
  show (srv.refreshToken req md env >>= _) = _
  unfold Server.refreshToken
  rw [if_neg hToken]
  rfl

theorem Server.serve_refreshToken_empty {req : String}
    (hEmpty : trimSpace req = "") (md : Metadata) (env : Env) :
    srv.serve (.refreshToken req md env) = .fail (invalidArg "refresh_token required") := by
  show (srv.refreshToken req md env >>= _) = _
  unfold Server.refreshToken
  rw [if_pos hEmpty]
  rfl

theorem Server.stage_first {s : Stmt} {k : Resp s → Tx SessionReply}
    {r : Resp s} (hProg : .ask s k = srv.serve c)
    (hExec : s.exec db = .ok (r, ws)) : srv.Stage db c (k r) ws := by
  cases c with
  | refreshToken req md env =>
    by_cases hToken : trimSpace req = ""
    · rw [srv.serve_refreshToken_empty hToken] at hProg
      cases hProg
    · rw [srv.serve_refreshToken hToken] at hProg
      cases hProg
      cases hExec
      rcases srv.stage_refreshRow req md env rfl with ⟨hReject, hFound⟩ |
          ⟨s, newRefresh, hRow, hHash, _, hEq⟩
      · refine .rejecting hReject (hFound.imp_right ?_)
        intro hNone
        rw [hNone]
        rfl
      · exact .rotates hHash hRow (.refl s) (.rotating hEq)
  | logout req env =>
    by_cases hToken : trimSpace req = ""
    · simp only [Server.serve, Server.logout, if_pos hToken] at hProg
      cases hProg
    · simp only [Server.serve, Server.logout, if_neg hToken] at hProg
      cases hProg
      have hDone : (.ret .loggedOut : Tx SessionReply) =
            revokeEach env.now [] >>= fun _ => .ret .loggedOut := rfl
      refine .revokes nofun hDone ?_
      intro w hMem
      exact ⟨_, _, (Stmt.exec_revokeUnrevoked hExec).1 w hMem⟩
  | logoutAll req md env =>
    simp only [Server.serve, Server.logoutAll] at hProg
    cases hUser : srv.logoutUser req md env with
    | error e =>
      rw [hUser] at hProg
      cases hProg
    | ok userID =>
      rw [hUser] at hProg
      cases hProg
      cases hExec
      exact .revokes nofun rfl nofun

/- The next statement of a rotation. -/
theorem Server.RotatesAt.answer {req : String} {md : Metadata} {env : Env}
    {s s' : Session} {newRefresh : String} {q : Stmt}
    {k : Resp q → Tx SessionReply} {r : Resp q} {ws' : List Write}
    (hHash : s'.tokenHash = srv.presented req) (hRow : s' ∈ db.sessions.rows)
    (hAt : srv.RotatesAt req md env s newRefresh (.ask q k) ws)
    (hExec : q.exec (authdb.view db ws) = .ok (r, ws')) :
    srv.RotatesAt req md env s newRefresh (k r) (ws ++ ws') := by
  cases hAt with
  | rotating hProg =>
    cases hProg
    cases hExec
    have hChange : change db.sessions (srv.presented req) (srv.rotateWrite req md env newRefresh) =
        [srv.rotateWrite req md env newRefresh] := by
      rw [← hHash]
      exact Stmt.change_eq hRow _
    show srv.RotatesAt req md env s newRefresh _
      (change db.sessions (srv.presented req) (srv.rotateWrite req md env newRefresh))
    rw [hChange]
    exact .inserting rfl
  | inserting hProg =>
    cases hProg
    rw [(Stmt.exec_insertSession hExec).2.2]
    exact .done

/- The next row of a revocation. -/
theorem revokeEach_cons_bind {α : Type} (now : Time) (h : String)
    (hashes : List String) (reply : Nat → α) :
    (revokeEach now (h :: hashes) >>= fun n => (.ret (reply n) : Tx α)) =
      .ask (.revokeUnrevoked h now) (fun n =>
      revokeEach now hashes >>= fun m => .ret (reply (n + m))) := by
  show Prog.ask (Stmt.revokeUnrevoked h now) (fun n =>
    (revokeEach now hashes >>= fun m => Prog.ret (n + m)) >>= _) = _
  refine congrArg _ (funext ?_)
  intro n
  exact Prog.bind_assoc _ _ _

theorem Server.stage_answer {q : Stmt} {k : Resp q → Tx SessionReply}
    {r : Resp q} {ws' : List Write} (hStage : srv.Stage db c (.ask q k) ws)
    (hExec : q.exec (authdb.view db ws) = .ok (r, ws')) : srv.Stage db c (k r) (ws ++ ws') := by
  cases hStage with
  | fresh hProg => exact srv.stage_first hProg hExec
  | rejecting hReject hFound =>
    refine .rejecting ⟨hReject.1 r, hReject.2.2 r⟩ ?_
    rcases hFound with hRow | hEnd
    · exact Or.inl hRow
    · cases hEnd
  | rotates hHash hRow hLater hAt =>
    exact .rotates hHash hRow hLater (hAt.answer (hLater.tokenHash.trans hHash) hRow hExec)
  | @revokes _ _ _ now hashes reply hOther hProg hWrites =>
    cases hashes with
    | nil => cases hProg
    | cons h hashes =>
      rw [revokeEach_cons_bind] at hProg
      cases hProg
      refine .revokes hOther rfl ?_
      intro w hMem
      rcases List.mem_append.mp hMem with hOld | hNew
      · exact hWrites w hOld
      · exact ⟨_, _, (Stmt.exec_revokeUnrevoked hExec).1 w hNew⟩

/- What is known of the calls in progress. -/
def Server.stages (srv : Server) : Engine.Stages authdb srv.serve where
  stage := srv.Stage
  start := fun _ _ => .fresh rfl
  answer := fun _ _ _ _ _ _ _ _ hStage hExec =>
    srv.stage_answer hStage hExec
  tick := fun _ _ _ _ _ hStage => hStage
  commit := fun _ _ _ _ _ _ ws hStage _ => hStage.view ws

----
-- Rotations As Uses Of A Token
----

/- The session of the token is revoked. -/
def AuthDb.Revoked (db : AuthDb) (h : String) : Prop :=
  ∃ s ∈ db.sessions.rows, s.tokenHash = h ∧ s.revokedAt ≠ none

/- Only the read of the row tells a call to stop. -/
def acting : Tx SessionReply → Bool
| .ret _ => true
| .fail _ => false
| .ask s _ => s.rotates

/- The token that a call has read and goes on to rotate. -/
def Server.rotatesToken (srv : Server) : SessionCall → Tx SessionReply → Option String
| .refreshToken req _ _, p =>
  if acting p then some (srv.presented req) else none
| _, _ => none

/- The token whose row a statement reads. -/
def Stmt.readsToken : Stmt → Option String
| .selectSession h => some h
| _ => none

/- A successor is a use of the token it replaces. -/
def Server.replacesToken (srv : Server) : SessionCall → Write → Option String
| .refreshToken req _ _, .insertSession _ =>
  some (srv.presented req)
| _, _ => none

theorem Server.rotatesToken_eq_some {h : String} :
    srv.rotatesToken c p = some h ↔ ∃ req md env, c = .refreshToken req md env ∧
    srv.presented req = h ∧ acting p = true := by
  cases c with
  | refreshToken req md env =>
    show (if acting p then some (srv.presented req)
      else none) = some h ↔ _
    cases acting p with
    | false => simp
    | true => simp
  | logout req env => simp [Server.rotatesToken]
  | logoutAll req md env => simp [Server.rotatesToken]

theorem AuthDb.Revoked.view {h : String} (hRevoked : db.Revoked h)
    (ws : List Write) : (authdb.view db ws).Revoked h := by
  rcases hRevoked with ⟨s, hRow, hHash, hSet⟩
  rcases exists_later_view ws hRow with ⟨s', hRow', hLater, _⟩
  exact ⟨s', hRow', hLater.tokenHash.trans hHash, hLater.revoked hSet⟩

theorem not_revoked_of_live {s : Session} (hRow : s ∈ db.sessions.rows)
    (hLive : s.Live) : ¬ db.Revoked s.tokenHash := by
  rintro ⟨s', hRow', hHash, hSet⟩
  rw [Table.eq_of_key hRow' hRow hHash] at hSet
  exact hSet hLive.1

theorem not_acting_of_rejecting (hReject : Rejecting p) : acting p = false := by
  cases p with
  | ret a => exact hReject.1.elim
  | fail e => rfl
  | ask s k => exact hReject.2.1

theorem Server.not_acting_serve (srv : Server) (req : String) (md : Metadata)
    (env : Env) : acting (srv.serve (.refreshToken req md env)) =
    false := by
  by_cases hToken : trimSpace req = ""
  · rw [srv.serve_refreshToken_empty hToken]
    rfl
  · rw [srv.serve_refreshToken hToken]
    rfl

/- A call that goes on after a statement. -/
theorem Server.acting_answer {q : Stmt} {k : Resp q → Tx SessionReply}
    {r : Resp q} {ws' : List Write} {req : String} {md : Metadata} {env : Env}
    (hStage : srv.Stage db (.refreshToken req md env) (.ask q k) ws)
    (hExec : q.exec (authdb.view db ws) = .ok (r, ws'))
    (hActing : acting (k r) = true) : q.rotates = true ∨ q.readsToken = some (srv.presented req) ∧
    ¬ db.Revoked (srv.presented req) := by
  cases hStage with
  | fresh hProg =>
    right
    by_cases hToken : trimSpace req = ""
    · rw [srv.serve_refreshToken_empty hToken] at hProg
      cases hProg
    · rw [srv.serve_refreshToken hToken] at hProg
      cases hProg
      cases hExec
      rcases srv.stage_refreshRow req md env rfl with ⟨hReject, _⟩ |
          ⟨s, newRefresh, hRow, hHash, hLive, _⟩
      · rw [not_acting_of_rejecting hReject] at hActing
        cases hActing
      · rw [← hHash]
        exact ⟨rfl, not_revoked_of_live hRow hLive⟩
  | rejecting hReject _ =>
    rw [not_acting_of_rejecting ⟨hReject.1 r, hReject.2.2 r⟩] at hActing
    cases hActing
  | rotates hHash hRow hLater hAt =>
    left
    cases hAt with
    | rotating hProg =>
      cases hProg
      rfl
    | inserting hProg =>
      cases hProg
      rfl
  | revokes hOther hProg hWrites =>
    exact absurd rfl (hOther req md env)

/- A call that commits has done the whole rotation. -/
theorem Server.Stage.rotated {req : String} {md : Metadata} {env : Env} {reply : SessionReply}
    (hStage : srv.Stage db (.refreshToken req md env) (.ret reply) ws) :
    ∃ s s' newRefresh, s.tokenHash = srv.presented req ∧ s' ∈ db.sessions.rows ∧ s.Later s' ∧
    reply = .rotated ⟨s.userID, newRefresh⟩ ∧
    ws = [srv.rotateWrite req md env newRefresh, .insertSession
    (srv.successor md env s newRefresh)] := by
  cases hStage with
  | fresh hProg =>
    by_cases hToken : trimSpace req = ""
    · rw [srv.serve_refreshToken_empty hToken] at hProg
      cases hProg
    · rw [srv.serve_refreshToken hToken] at hProg
      cases hProg
  | rejecting hReject _ => exact hReject.1.elim
  | @rotates _ _ _ _ _ s s' newRefresh hHash hRow hLater hAt =>
    cases hAt with
    | rotating hProg => cases hProg
    | inserting hProg => cases hProg
    | done =>
      exact ⟨s, s', newRefresh, hHash, hRow, hLater, rfl, rfl⟩
  | revokes hOther hProg hWrites =>
    exact absurd rfl (hOther req md env)

theorem Server.Stage.revoked {req : String} {md : Metadata} {env : Env} {reply : SessionReply}
    (hStage : srv.Stage db (.refreshToken req md env) (.ret reply) ws) :
    (authdb.view db ws).Revoked (srv.presented req) := by
  rcases hStage.rotated with ⟨s, s', newRefresh, hHash, hRow, hLater, _, rfl⟩
  rcases exists_later_view
      [srv.rotateWrite req md env newRefresh, .insertSession (srv.successor md env s newRefresh)]
      hRow with ⟨s₂, hRow₂, hLater₂, hSet⟩
  have hHash' : s'.tokenHash = srv.presented req := hLater.tokenHash.trans hHash
  refine ⟨s₂, hRow₂, hLater₂.tokenHash.trans hHash', ?_⟩
  refine hSet ⟨_, List.mem_cons_self, ?_⟩
  rw [hHash']
  rfl

theorem Server.Stage.inserts {reply : SessionReply} {row : Session}
    (hStage : srv.Stage db c (.ret reply) ws)
    (hMem : Write.insertSession row ∈ ws) : ∃ req md env s,
    c = .refreshToken req md env ∧ s ∈ db.sessions.rows ∧
    s.tokenHash = srv.presented req ∧ row.sessionID = s.sessionID ∧ row.userID = s.userID ∧
    (∃ w ∈ ws, w.revokes = some (srv.presented req)) ∧
    ∀ row', Write.insertSession row' ∈ ws → row' = row := by
  cases hStage with
  | fresh hProg => cases hMem
  | rejecting hReject _ => exact hReject.1.elim
  | @rotates req md env _ _ s s' newRefresh hHash hRow hLater hAt =>
    cases hAt with
    | rotating hProg => cases hMem
    | inserting hProg => cases hProg
    | done =>
      have hOnly : ∀ row', Write.insertSession row' ∈
          [srv.rotateWrite req md env newRefresh, .insertSession
          (srv.successor md env s newRefresh)] →
          row' = srv.successor md env s newRefresh := by
        intro row' hMem'
        simpa [Server.rotateWrite] using hMem'
      have hRowEq := hOnly row hMem
      subst hRowEq
      exact ⟨req, md, env, s', rfl, hRow, hLater.tokenHash.trans hHash,
        hLater.sessionID.symm, hLater.userID.symm, ⟨_, List.mem_cons_self, rfl⟩, hOnly⟩
  | revokes hOther hProg hWrites =>
    rcases hWrites _ hMem with ⟨h, at_, hEq⟩
    cases hEq

theorem Server.Stage.row {req : String} {md : Metadata} {env : Env}
    (hStage : srv.Stage db (.refreshToken req md env) p ws)
    (hActing : acting p = true) : ∃ s ∈ db.sessions.rows, s.tokenHash = srv.presented req := by
  cases hStage with
  | fresh hProg =>
    rw [hProg, srv.not_acting_serve] at hActing
    cases hActing
  | rejecting hReject _ =>
    rw [not_acting_of_rejecting hReject] at hActing
    cases hActing
  | rotates hHash hRow hLater hAt =>
    exact ⟨_, hRow, hLater.tokenHash.trans hHash⟩
  | revokes hOther hProg hWrites =>
    exact absurd rfl (hOther req md env)

/- Refresh tokens are checked, and used up by rotations. -/
def Server.rotations (srv : Server) : Engine.Once authdb srv.serve String where
  toStages := srv.stages
  spent := AuthDb.Revoked
  checks := Stmt.readsToken
  holds := srv.rotatesToken
  takes := srv.replacesToken
  fresh := by
    intro c
    rw [Option.eq_none_iff_forall_ne_some]
    intro h hHolds
    rcases Server.rotatesToken_eq_some.mp hHolds with ⟨req, md, env, rfl, _, hActing⟩
    rw [srv.not_acting_serve] at hActing
    cases hActing
  check := by
    intro db c q k ws began r ws' h hStage hExec hHolds
    rcases Server.rotatesToken_eq_some.mp hHolds with ⟨req, md, env, rfl, rfl, hActing⟩
    rcases srv.acting_answer hStage hExec hActing with hRotates | hRead
    · left
      exact Server.rotatesToken_eq_some.mpr ⟨req, md, env, rfl, rfl, hRotates⟩
    · exact Or.inr hRead
  act := by
    intro db c reply ws w h hStage hMem hTakes
    cases c with
    | refreshToken req md env =>
      have hHash : srv.presented req = h := by
        cases w with
        | insertSession row => exact Option.some.inj hTakes
        | _ => cases hTakes
      subst hHash
      exact ⟨rfl, Server.Stage.revoked hStage⟩
    | logout req env => cases w <;> cases hTakes
    | logoutAll req md env => cases w <;> cases hTakes
  spent_tick := fun _ _ _ hSpent => hSpent
  spent_commit := fun _ _ _ ws _ _ hSpent => hSpent.view ws

----
-- A Session To Look At
----

/- The session of a user on a laptop. -/
def laptop (tokenHash : String) (expiresAt : Time) : Session :=
  Session.opened tokenHash "laptop" "ada" expiresAt 2592000000000000 none none

/- A user with one session, as a login leaves it. -/
def loggedIn : AuthDb where
  users := ["ada"]
  roles := fun _ => ["user"]
  permissions := fun _ => []
  sessions := (Table.empty _).insert (laptop "t0" 86400000000000)
  codes := Table.empty _
  clients := Table.empty _

/- A call that presents a token and draws the next one. -/
def refreshing (now : Time) (token next : String) : SessionCall :=
  .refreshToken token .none (.drawing now next)

end Fincore.Auth
