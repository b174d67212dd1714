import Fincore.Auth.Sessions

/-
  What the detection of a reused refresh token leaves.

  `RefreshToken` revokes all sessions of the user when it is given a token that was revoked or
  replaced, and then returns an error: the deferred rollback takes the revocations back. The
  sessions of the user are all revoked afterwards only if they were all revoked before.

  Key definitions include:
    * `AuthDb.AllRevoked`
    * `Server.Refuses`
    * `Server.Barred`

  Main results:
    * `barred_step`
    * `reuse_revokes_all_iff`
    * `reused_token_leaves_session_live`
-/

----
-- Tokens That Stay Revoked
----

namespace Fincore.Auth

variable {srv : Server} {cfg cfg' : SessionConfig}

/- Every session of the user is revoked. -/
def AuthDb.AllRevoked (db : AuthDb) (userID : String) : Prop :=
  ∀ s ∈ db.sessions.rows, s.userID = userID → s.revokedAt ≠ none

instance (db : AuthDb) (userID : String) : Decidable (db.AllRevoked userID) :=
  inferInstanceAs (Decidable (∀ s ∈ _, _ → _ ≠ _))

/-
  No `RefreshToken` call that starts from now on succeeds with a token that the user has been issued
  by now.
-/
def Server.Refuses (srv : Server) (cfg : SessionConfig) (userID : String) : Prop :=
  ∀ later cfg', srv.run cfg later = some cfg' → ∀ j req md env reply, cfg.calls.length ≤ j →
      ∀ s ∈ cfg.db.sessions.rows, s.userID = userID → srv.presented req = s.tokenHash →
          ¬ cfg'.Returned j (.refreshToken req md env) (.ok reply)

/- The tokens are revoked, and no call from the `n`-th on rotates one of them. -/
structure Server.Barred (srv : Server) (n : Nat) (tokens : String → Prop)
    (cfg : SessionConfig) : Prop where
  staged : srv.stages.Staged cfg
  revoked : ∀ h, tokens h → cfg.db.Revoked h
  idle : ∀ j h, n ≤ j → srv.rotations.holding cfg j = some h → ¬ tokens h
  refused : ∀ j req md env reply, n ≤ j → cfg.Returned j (.refreshToken req md env)
        (.ok reply) → ¬ tokens (srv.presented req)

variable {tokens : String → Prop}

theorem barred_start (hStaged : srv.stages.Staged cfg)
    (hRevoked : ∀ h, tokens h → cfg.db.Revoked h) : srv.Barred cfg.calls.length tokens cfg := by
  refine ⟨hStaged, hRevoked, ?_, ?_⟩
  · intro j h hLe hHolds
    rcases Engine.seen_eq_some.mp hHolds with ⟨c, t, hCall, _⟩
    exact absurd hCall.lt_length (Nat.not_lt.mpr hLe)
  · intro j req md env reply hLe hReturned
    have hLt := (List.getElem?_eq_some_iff.mp hReturned).1
    exact absurd hLt (Nat.not_lt.mpr hLe)

/- What `tick` leaves alone: every quiet step. -/
theorem db_of_quiet (hQuiet : cfg.Quiet authdb cfg') : cfg'.db = cfg.db := by
  rcases hQuiet.db with hSame | ⟨s, hSame⟩
  · exact hSame
  · exact hSame

theorem barred_step {n : Nat} {a : SessionAction}
    (hInv : srv.Barred n tokens cfg) (hStep : authdb.step srv.serve cfg a = some cfg') :
    srv.Barred n tokens cfg' := by
  have hStaged := srv.stages.staged_step hInv.staged hStep
  rcases Engine.step_quiet_or_commit hStep with
    hQuiet | ⟨i, c, t, b, r, hCall, hProg, _, hReply, rfl⟩
  · refine ⟨hStaged, ?_, ?_, ?_⟩
    · rw [db_of_quiet hQuiet]
      exact hInv.revoked
    · intro j h hLe hHolds hToken
      rcases srv.rotations.holding_step hInv.staged hStep hHolds with hOld | ⟨_, _, hUnspent⟩
      · exact hInv.idle j h hLe hOld hToken
      · exact hUnspent (hInv.revoked h hToken)
    · intro j req md env reply hLe hReturned
      exact hInv.refused j req md env reply hLe (hQuiet.answered _ _ _ hReturned)
  · refine ⟨hStaged, ?_, ?_, ?_⟩
    · intro h hToken
      exact (hInv.revoked h hToken).view t.writes
    · intro j h hLe hHolds
      exact hInv.idle j h hLe (Engine.seen_commit hHolds).2
    · intro j req md env reply hLe hReturned
      rcases Engine.returned_commit hReturned with ⟨rfl, rfl, _⟩ | hOld
      · refine hInv.idle j _ hLe ?_
        refine (Engine.seen_running hCall).trans ?_
        rw [hProg]
        rfl
      · exact hInv.refused j req md env reply hLe hOld

theorem refuses_of_allRevoked {userID : String}
    (hStaged : srv.stages.Staged cfg) (hAll : cfg.db.AllRevoked userID) :
    srv.Refuses cfg userID := by
  intro later cfg' hRun j req md env reply hLe s hRow hUser hHash hReturned
  have hInv : srv.Barred cfg.calls.length (fun h => h = s.tokenHash) cfg' := by
    refine Transition.run_induction (fun _ _ _ hInv hStep => barred_step hInv hStep)
      (barred_start hStaged ?_) hRun
    rintro h rfl
    exact ⟨s, hRow, rfl, hAll s hRow hUser⟩
  exact hInv.refused j req md env reply hLe hReturned hHash

----
-- Reused Tokens
----

/- The answer is given by the branch that detects it. -/
theorem hasToken_of_reuse {srv : Server} {db : AuthDb} {req : String}
    {md : Metadata} {env : Env} {p : Tx SessionReply} {ws : List Write}
    (hStage : srv.Stage db (.refreshToken req md env) p ws)
    (hProg : p = .fail (unauth "refresh token reuse detected")) :
    db.HasToken (srv.presented req) := by
  cases hStage with
  | fresh hServe =>
    by_cases hToken : trimSpace req = ""
    · rw [srv.serve_refreshToken_empty hToken, hProg] at hServe
      exact absurd (Prog.fail.inj hServe) (by decide)
    · rw [srv.serve_refreshToken hToken, hProg] at hServe
      cases hServe
  | rejecting hReject hFound =>
    rcases hFound with hRow | hEnd
    · exact hRow
    · rw [hProg] at hEnd
      exact absurd (Prog.fail.inj hEnd) (by decide)
  | rotates hHash hRow hLater hAt =>
    exact ⟨_, hRow, hLater.tokenHash.trans hHash⟩
  | revokes hOther _ _ =>
    exact absurd rfl (hOther req md env)

/-
  In any interleaving, at the step in which a call of `RefreshToken` answers that its token was
  reused: every session of the token's user is revoked afterwards, and later calls with the user's
  tokens are refused, exactly if every session of the user was revoked before the answer.
-/
theorem reuse_revokes_all_iff (srv : Server) (db : AuthDb)
    (schedule : List SessionAction) (a : SessionAction) (i : Nat) (req : String)
    (md : Metadata) (env : Env) {t : Engine.Txn Stmt Resp Write Status SessionReply}
    {cfg cfg' : SessionConfig} (hRun : srv.run (SessionConfig.start db) schedule = some cfg)
    (hStep : authdb.step srv.serve cfg a = some cfg')
    (hOpen : cfg.Running i (.refreshToken req md env) t)
    (hAnswer : cfg'.Returned i (.refreshToken req md env)
      (.error (unauth "refresh token reuse detected"))) :
    ∃ s ∈ cfg.db.sessions.rows, s.tokenHash = srv.presented req ∧
      ((cfg'.db.AllRevoked s.userID ∧ srv.Refuses cfg' s.userID) ↔ cfg.db.AllRevoked s.userID) := by
  have hStaged : srv.stages.Staged cfg :=
    Transition.run_induction
      (fun _ _ _ hInv hStep =>
        srv.stages.staged_step hInv hStep) (srv.stages.staged_start db) hRun
  have hOwn : ∀ began q db, authdb.exec began q db ≠
      .error (unauth "refresh token reuse detected") := by
    intro began q db hError
    exact absurd (Stmt.exec_error q hError) (by decide)
  rcases Engine.step_failed hStep hOpen hAnswer (by decide) hOwn with ⟨hProg, hDb⟩
  rcases hasToken_of_reuse (hStaged i _ t hOpen) hProg with ⟨s, hRow, hHash⟩
  refine ⟨s, hRow, hHash, ?_⟩
  constructor
  · intro hBoth
    rw [← hDb]
    exact hBoth.1
  · intro hAll
    rw [← hDb] at hAll
    exact ⟨hAll, refuses_of_allRevoked (srv.stages.staged_step hStaged hStep) hAll⟩

/- A token is rotated, its successor is logged out, and then the first token is presented again. -/
def reuseLoggedOut : List SessionAction :=
  [.start (refreshing 1000 "t0" "t1"), .exec 0, .exec 0, .exec 0, .finish 0,
    .start (.logout "t1" (.drawing 2000 "")), .exec 1, .finish 1,
    .start (refreshing 3000 "t0" "t2"), .exec 2, .exec 2, .exec 2]

theorem reuse_after_logout_revokes_all : ∃ cfg cfg', Server.plain.run (SessionConfig.start loggedIn)
      reuseLoggedOut = some cfg ∧ authdb.step Server.plain.serve cfg (.finish 2) = some cfg' ∧
      cfg.db.AllRevoked "ada" ∧ ∃ s ∈ cfg.db.sessions.rows, s.tokenHash = "t0" ∧
      ((cfg'.db.AllRevoked s.userID ∧ Server.plain.Refuses cfg' s.userID) ↔
      cfg.db.AllRevoked s.userID) := by
  refine ⟨_, _, rfl, rfl, by decide, ?_⟩
  exact reuse_revokes_all_iff Server.plain loggedIn
    reuseLoggedOut (.finish 2) 2 "t0" .none (.drawing 3000 "t2") rfl rfl rfl rfl

/- A token is rotated and presented again. -/
def reuseRotated : List SessionAction :=
  [.start (refreshing 1000 "t0" "t1"), .exec 0, .exec 0, .exec 0, .finish 0,
    .start (refreshing 2000 "t0" "t2"), .exec 1, .exec 1, .exec 1, .exec 1, .finish 1]

/- The successor is then used as if nothing had happened. -/
def useSuccessor : List SessionAction :=
  [.start (refreshing 3000 "t1" "t3"), .exec 2, .exec 2, .exec 2, .finish 2]

theorem reused_token_leaves_session_live : ∃ cfg cfg',
      Server.plain.run (SessionConfig.start loggedIn) reuseRotated = some cfg ∧
      cfg.Returned 1 (refreshing 2000 "t0" "t2")
      (.error (unauth "refresh token reuse detected")) ∧ ¬ cfg.db.AllRevoked "ada" ∧
      Server.plain.run cfg useSuccessor = some cfg' ∧ cfg'.Returned 2 (refreshing 3000 "t1" "t3")
      (.ok (.rotated ⟨"ada", "t3"⟩)) ∧
      (authdb.withTx
      (Server.plain.respond (.drawing 3000 "t3")
      ⟨"ada", "t3"⟩) cfg'.db).1 = .ok ⟨"ada", "t3", 900⟩ := by
  exact ⟨_, _, rfl, rfl, by decide, rfl, rfl, rfl⟩

end Fincore.Auth
