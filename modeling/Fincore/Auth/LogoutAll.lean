import Fincore.Auth.Revocation

/-
  `LogoutAll` against rotations that are on their way.

  `LogoutAll` revokes the rows it finds. A rotation that has read its row before still inserts a
  successor, which the logout has not seen: the user stays logged in with it. When no rotation of
  the user is on its way as the rows are collected, and none reads a row of the user until they are
  revoked for good, the logout is final.

  Key definitions include:
    * `Server.rotatesUser` and `Server.clearsUser`
    * `Server.LogsOutApart`
    * `Server.Closed`
    * `Server.LogoutInv`

  Main results:
    * `closed_step`
    * `logoutInv_step`
    * `logoutAll_final_of_apart`
    * `successor_survives_logoutAll`
-/

----
-- Users Of Calls
----

namespace Fincore.Auth

/- The user a token was issued to. -/
def AuthDb.owner (db : AuthDb) (h : String) : Option String :=
  (db.sessions.lookup h).map Session.userID

/- The user whose session a call is rotating. -/
def Server.rotatesUser (srv : Server) (cfg : SessionConfig)
    (j : Nat) : Option String := (srv.rotations.holding cfg j).bind cfg.db.owner

/- The user whose session a call is about to read. -/
def Server.readsUser (srv : Server) (cfg : SessionConfig) (i : Nat) : Option String :=
  (srv.rotations.checking cfg i).bind cfg.db.owner

/- A `LogoutAll` that is about to collect rows. -/
def SessionCall.scans : SessionCall → Tx SessionReply → Option String
| .logoutAll _ _ _, .ask (.scanUnrevoked userID) _ =>
  some userID
| _, _ => none

/- Before or after the rows are collected. -/
def collecting : Tx SessionReply → Bool
| .ask (.scanUnrevoked _) _ => true
| _ => false

/- A `LogoutAll` that has collected rows and is not done. -/
def Server.clears (srv : Server) : SessionCall → Tx SessionReply → Option String
| .logoutAll req md env, p =>
  if collecting p then none
  else (srv.logoutUser req md env).toOption
| _, _ => none

def scansUser (cfg : SessionConfig) (i : Nat) : Option String := cfg.seen SessionCall.scans i

def Server.clearsUser (srv : Server) (cfg : SessionConfig)
    (k : Nat) : Option String := cfg.seen srv.clears k

/-
  No rotation of the user is on its way when a `LogoutAll` for the user collects rows, and none
  reads a row of the user until that `LogoutAll` has ended.
-/
def Server.LogsOutApart (srv : Server) (userID : String)
    (cfg : SessionConfig) : SessionAction → Prop
| .exec i =>
  ∀ j, j < cfg.calls.length → ¬ (scansUser cfg i = some userID ∧
        srv.rotatesUser cfg j = some userID) ∧ ¬ (srv.readsUser cfg i = some userID ∧
        srv.clearsUser cfg j = some userID)
| _ => True

instance (srv : Server) (userID : String) (cfg : SessionConfig)
    (a : SessionAction) : Decidable (srv.LogsOutApart userID cfg a) :=
  match a with
  | .start _ => .isTrue trivial
  | .exec _ =>
    inferInstanceAs (Decidable (∀ j, j < _ → ¬ (_ ∧ _) ∧ ¬ (_ ∧ _)))
  | .finish _ => .isTrue trivial
  | .unacked _ => .isTrue trivial
  | .broke _ => .isTrue trivial

variable {srv : Server} {db : AuthDb} {userID : String} {cfg cfg' : SessionConfig}

theorem AuthDb.owner_eq_some {h : String} : db.owner h = some userID ↔
    ∃ s ∈ db.sessions.rows, s.tokenHash = h ∧ s.userID = userID := by
  unfold AuthDb.owner
  rw [Option.map_eq_some_iff]
  constructor
  · rintro ⟨s, hFound, hUser⟩
    rcases Table.lookup_eq_some_iff.mp hFound with ⟨hRow, hHash⟩
    exact ⟨s, hRow, hHash, hUser⟩
  · rintro ⟨s, hRow, hHash, hUser⟩
    exact ⟨s, Table.lookup_eq_some_iff.mpr ⟨hRow, hHash⟩, hUser⟩

theorem rotatesUser_eq_some {j : Nat} : srv.rotatesUser cfg j = some userID ↔
    ∃ h, srv.rotations.holding cfg j = some h ∧ ∃ s ∈ cfg.db.sessions.rows,
    s.tokenHash = h ∧ s.userID = userID := by
  unfold Server.rotatesUser
  simp only [Option.bind_eq_some_iff, AuthDb.owner_eq_some]

theorem Server.clears_eq_some {c : SessionCall} {p : Tx SessionReply} :
    srv.clears c p = some userID ↔ ∃ req md env, c = .logoutAll req md env ∧
    srv.logoutUser req md env = .ok userID ∧ collecting p = false := by
  cases c with
  | refreshToken req md env => simp [Server.clears]
  | logout req env => simp [Server.clears]
  | logoutAll req md env =>
    show (if collecting p then none
      else (srv.logoutUser req md env).toOption) = some userID ↔ _
    cases collecting p with
    | true => simp
    | false =>
      cases hUser : srv.logoutUser req md env with
      | error e => simp [hUser, Except.toOption]
      | ok user => simp [hUser, Except.toOption]

----
-- Users Without A Session
----

variable {a : SessionAction}

/- Nobody is rotating a session of the user. -/
def Server.NoRotation (srv : Server) (userID : String)
    (cfg : SessionConfig) : Prop := ∀ j, srv.rotatesUser cfg j ≠ some userID

/- No session of the user is left, and none is on its way. -/
structure Server.Closed (srv : Server) (userID : String) (cfg : SessionConfig) : Prop where
  allRevoked : cfg.db.AllRevoked userID
  noRotation : srv.NoRotation userID cfg

theorem rotatesUser_quiet {j : Nat} (hStaged : srv.stages.Staged cfg)
    (hStep : authdb.step srv.serve cfg a = some cfg') (hQuiet : cfg.Quiet authdb cfg')
    (hUser : srv.rotatesUser cfg' j = some userID) : srv.rotatesUser cfg j = some userID ∨
    (a = .exec j ∧ srv.readsUser cfg j = some userID ∧ ¬ cfg.db.AllRevoked userID) := by
  rcases rotatesUser_eq_some.mp hUser with ⟨h, hHolds, s, hRow, hHash, hOwner⟩
  rw [db_of_quiet hQuiet] at hRow
  rcases srv.rotations.holding_step hStaged hStep hHolds with hOld | ⟨hExec, hReads, hUnspent⟩
  · left
    exact rotatesUser_eq_some.mpr ⟨h, hOld, s, hRow, hHash, hOwner⟩
  · right
    refine ⟨hExec, ?_, ?_⟩
    · unfold Server.readsUser
      rw [hReads]
      exact AuthDb.owner_eq_some.mpr ⟨s, hRow, hHash, hOwner⟩
    · intro hAll
      exact hUnspent ⟨s, hRow, hHash, hAll s hRow hOwner⟩

section

variable {i : Nat} {c : SessionCall} {b : SessionReply}
variable {t : Engine.Txn Stmt Resp Write Status SessionReply} {r : Except Status SessionReply}

theorem noRotation_commit (hStaged : srv.stages.Staged cfg)
    (hNone : srv.NoRotation userID cfg) : srv.NoRotation userID
    (cfg.commit authdb i c t.writes r) := by
  intro j hUser
  rcases rotatesUser_eq_some.mp hUser with ⟨h, hHolds, s, hRow, hHash, hOwner⟩
  have hHeld := (Engine.seen_commit hHolds).2
  rcases Engine.seen_eq_some.mp hHeld with ⟨c', t', hCall, hKey⟩
  rcases Server.rotatesToken_eq_some.mp hKey with ⟨req, md, env, rfl, rfl, hActing⟩
  rcases (hStaged j _ t' hCall).row hActing with ⟨s₀, hRow₀, hHash₀⟩
  have hLater := later_of_mem_view hRow₀ hRow (hHash.trans hHash₀.symm)
  refine hNone j (rotatesUser_eq_some.mpr ⟨_, hHeld, s₀, hRow₀, hHash₀, ?_⟩)
  rw [← hLater.userID]
  exact hOwner

theorem origin_of_noRotation {s' : Session} (hStaged : srv.stages.Staged cfg)
    (hNone : srv.NoRotation userID cfg) (hCall : cfg.Running i c t) (hProg : t.prog = .ret b)
    (hRow : s' ∈ (authdb.view cfg.db t.writes).sessions.rows)
    (hUser : s'.userID = userID) : ∃ s ∈ cfg.db.sessions.rows, s.userID = userID ∧ s.Later s' ∧
    ((∃ w ∈ t.writes, w.revokes = some s.tokenHash) → s'.revokedAt ≠ none) := by
  rcases origin_of_mem_view t.writes hRow with ⟨s, hOld, hLater, hSet⟩ | ⟨s, hMem, hLater⟩
  · exact ⟨s, hOld, hLater.userID ▸ hUser, hLater, hSet⟩
  · have hStage := hStaged i c t hCall
    rw [hProg] at hStage
    rcases Server.Stage.inserts hStage hMem with
      ⟨req, md, env, s₀, rfl, hRow₀, hHash₀, _, hUser₀, _, _⟩
    refine absurd (rotatesUser_eq_some.mpr ⟨srv.presented req, ?_, s₀, hRow₀, hHash₀, ?_⟩) (hNone i)
    · refine (Engine.seen_running hCall).trans ?_
      rw [hProg]
      rfl
    · rw [← hUser₀, ← hLater.userID]
      exact hUser

end

/- Without a login, a closed user stays closed. -/
theorem closed_step (hStaged : srv.stages.Staged cfg) (hClosed : srv.Closed userID cfg)
    (hStep : authdb.step srv.serve cfg a = some cfg') : srv.Closed userID cfg' := by
  rcases Engine.step_quiet_or_commit hStep with hQuiet | ⟨i, c, t, b, r, hCall, hProg, _, _, rfl⟩
  · refine ⟨?_, ?_⟩
    · rw [db_of_quiet hQuiet]
      exact hClosed.allRevoked
    · intro j hUser
      rcases rotatesUser_quiet hStaged hStep hQuiet hUser with hOld | ⟨_, _, hLive⟩
      · exact hClosed.noRotation j hOld
      · exact hLive hClosed.allRevoked
  · refine ⟨?_, noRotation_commit hStaged hClosed.noRotation⟩
    intro s' hRow hUser
    rcases origin_of_noRotation hStaged hClosed.noRotation
        hCall hProg hRow hUser with ⟨s, hOld, hOwner, hLater, _⟩
    exact hLater.revoked (hClosed.allRevoked s hOld hOwner)

----
-- Logging A User Out
----

/- Every session of the user is revoked or soon will be. -/
def Covered (db : AuthDb) (userID : String) (hashes : List String) (ws : List Write) : Prop :=
  ∀ s ∈ db.sessions.rows, s.userID = userID → s.revokedAt ≠ none ∨ s.tokenHash ∈ hashes ∨
      ∃ w ∈ ws, w.revokes = some s.tokenHash

/- What is left of a revocation of these rows. -/
def Revokes (hashes : List String) (p : Tx SessionReply) : Prop :=
  ∃ (now : Time) (reply : Nat → SessionReply), p = revokeEach now hashes >>= fun n => .ret (reply n)

/- What holds along runs that keep logouts and rotations of the user apart. -/
structure Server.LogoutInv (srv : Server) (userID : String) (cfg : SessionConfig) : Prop where
  staged : srv.stages.Staged cfg
  clearing : ∀ k c t, cfg.Running k c t → srv.clears c t.prog = some userID →
        srv.NoRotation userID cfg ∧ ∃ hashes, Revokes hashes t.prog ∧
            Covered cfg.db userID hashes t.writes
  closed : ∀ k req md env reply, cfg.Returned k (.logoutAll req md env)
          (.ok reply) → srv.logoutUser req md env = .ok userID → srv.Closed userID cfg

theorem logoutInv_start (srv : Server) (userID : String) (db : AuthDb) :
    srv.LogoutInv userID (SessionConfig.start db) := by
  refine ⟨srv.stages.staged_start db, ?_, ?_⟩
  · intro k c t hCall
    cases hCall
  · intro k req md env reply hReturned
    cases hReturned

theorem covered_scan {db : AuthDb} {hashes : List String} {ws : List Write}
    (hExec : (Stmt.scanUnrevoked userID).exec db = .ok (hashes, ws)) :
    Covered db userID hashes ws := by
  cases hExec
  intro s hRow hUser
  by_cases hLive : s.revokedAt = none
  · right
    left
    refine List.mem_map.mpr ⟨s, ?_, rfl⟩
    exact List.mem_filter.mpr ⟨hRow, decide_eq_true ⟨hUser, hLive⟩⟩
  · exact Or.inl hLive

theorem Covered.next {db : AuthDb} {h : String} {hashes : List String}
    {now : Time} {ws ws' : List Write} {n : Nat} (hCovered : Covered db userID (h :: hashes) ws)
    (hExec : (Stmt.revokeUnrevoked h now).exec (authdb.view db ws) = .ok (n, ws')) :
    Covered db userID hashes (ws ++ ws') := by
  intro s hRow hUser
  rcases hCovered s hRow hUser with hRevoked | hListed | ⟨w, hMem, hRevokes⟩
  · exact Or.inl hRevoked
  · rcases List.mem_cons.mp hListed with hNext | hRest
    · subst hNext
      by_cases hLive : s.revokedAt = none
      · right
        right
        by_cases hOwn : ∀ w ∈ ws, w.revokes ≠ some s.tokenHash
        · have hNow := (Stmt.exec_revokeUnrevoked hExec).2
            ⟨s, mem_view_of_kept hRow hOwn, rfl, hLive⟩
          exact ⟨_, List.mem_append_right _ hNow, rfl⟩
        · push Not at hOwn
          rcases hOwn with ⟨w, hMem, hRevokes⟩
          exact ⟨w, List.mem_append_left _ hMem, hRevokes⟩
      · exact Or.inl hLive
    · exact Or.inr (Or.inl hRest)
  · exact Or.inr (Or.inr ⟨w, List.mem_append_left _ hMem, hRevokes⟩)

theorem noRotation_quiet (hStaged : srv.stages.Staged cfg)
    (hStep : authdb.step srv.serve cfg a = some cfg')
    (hQuiet : cfg.Quiet authdb cfg') (hNone : srv.NoRotation userID cfg)
    (hUnread : ∀ j, a = .exec j → srv.readsUser cfg j ≠ some userID) :
    srv.NoRotation userID cfg' := by
  intro j hUser
  rcases rotatesUser_quiet hStaged hStep hQuiet hUser with hOld | ⟨hExec, hReads, _⟩
  · exact hNone j hOld
  · exact hUnread j hExec hReads

theorem readsUser_ne {k : Nat} {c : SessionCall}
    {t : Engine.Txn Stmt Resp Write Status SessionReply} {q : Stmt}
    {next : Resp q → Tx SessionReply} (hCall : cfg.Running k c t)
    (hProg : t.prog = .ask q next) (hOther : q.readsToken = none) :
    srv.readsUser cfg k ≠ some userID := by
  unfold Server.readsUser
  rw [Engine.Once.checking_running hCall hProg]
  show q.readsToken.bind cfg.db.owner ≠ some userID
  rw [hOther]
  exact nofun

variable {md : Metadata} {req : String}

theorem Server.serve_logoutAll {env : Env}
    (hUser : srv.logoutUser req md env = .ok userID) : srv.serve (.logoutAll req md env) =
      .ask (.scanUnrevoked userID) (fun hashes =>
      revokeEach env.now hashes >>= fun n => .ret (.loggedOutAll n)) := by
  simp only [Server.serve, Server.logoutAll, hUser]
  rfl

/- Before the rows are collected nothing has happened. -/
theorem Server.Stage.fresh_of_collecting {db : AuthDb} {env : Env} {p : Tx SessionReply}
    {ws : List Write}
    (hStage : srv.Stage db (.logoutAll req md env) p ws) (hCollect : collecting p = true) :
    p = srv.serve (.logoutAll req md env) ∧ ws = [] := by
  cases hStage with
  | fresh hProg => exact ⟨hProg, rfl⟩
  | @revokes _ _ _ now hashes reply _ hProg _ =>
    cases hashes with
    | nil =>
      rw [hProg] at hCollect
      cases hCollect
    | cons h hashes =>
      rw [hProg, revokeEach_cons_bind] at hCollect
      cases hCollect

/- A `LogoutAll` of the user that has just been answered. -/
theorem logoutAll_answered {k : Nat} {env : Env}
    {t : Engine.Txn Stmt Resp Write Status SessionReply} {q : Stmt}
    {next : Resp q → Tx SessionReply} {x : Resp q} {ws : List Write}
    (hInv : srv.LogoutInv userID cfg) (hApart : srv.LogsOutApart userID cfg (.exec k))
    (hUser : srv.logoutUser req md env = .ok userID)
    (hCall : cfg.Running k (.logoutAll req md env) t) (hProg : t.prog = .ask q next)
    (hExec : q.exec (authdb.view cfg.db t.writes) = .ok (x, ws)) :
    q.readsToken = none ∧ srv.NoRotation userID cfg ∧ ∃ hashes, Revokes hashes (next x) ∧
    Covered cfg.db userID hashes (t.writes ++ ws) := by
  cases hCollect : collecting t.prog with
  | true =>
    rcases (hInv.staged k _ t hCall).fresh_of_collecting hCollect with ⟨hFresh, hWrites⟩
    have hScans : scansUser cfg k = some userID := by
      refine (Engine.seen_running hCall).trans ?_
      rw [hFresh, srv.serve_logoutAll hUser]
      rfl
    rw [hProg, srv.serve_logoutAll hUser] at hFresh
    cases hFresh
    rw [hWrites] at hExec ⊢
    refine ⟨rfl, ?_, x, ⟨env.now, .loggedOutAll, rfl⟩, covered_scan hExec⟩
    intro j hRotates
    rcases rotatesUser_eq_some.mp hRotates with ⟨h, hHolds, _⟩
    rcases Engine.seen_eq_some.mp hHolds with ⟨c, t', hRunning, _⟩
    exact (hApart j hRunning.lt_length).1 ⟨hScans, hRotates⟩
  | false =>
    have hClears : srv.clears (.logoutAll req md env) t.prog = some userID :=
      Server.clears_eq_some.mpr ⟨req, md, env, rfl, hUser, hCollect⟩
    rcases hInv.clearing k _ t hCall hClears with ⟨hNone, hashes, ⟨now, reply, hShape⟩, hCovered⟩
    cases hashes with
    | nil =>
      rw [hProg] at hShape
      cases hShape
    | cons h hashes =>
      rw [hProg, revokeEach_cons_bind] at hShape
      cases hShape
      exact ⟨rfl, hNone, hashes, ⟨now, _, rfl⟩, hCovered.next hExec⟩

theorem logoutInv_quiet (hInv : srv.LogoutInv userID cfg) (hApart : srv.LogsOutApart userID cfg a)
    (hStep : authdb.step srv.serve cfg a = some cfg')
    (hQuiet : cfg.Quiet authdb cfg') : srv.LogoutInv userID cfg' := by
  refine ⟨srv.stages.staged_step hInv.staged hStep, ?_, ?_⟩
  · intro k c t' hk hClears
    rw [db_of_quiet hQuiet]
    rcases Engine.running_step hStep hk with hOld | ⟨_, rfl⟩ |
        ⟨rfl, t, q, next, x, ws, hCall, hProg, hExec, rfl⟩
    · rcases hInv.clearing k c t' hOld hClears with ⟨hNone, hRest⟩
      refine ⟨noRotation_quiet hInv.staged hStep hQuiet hNone ?_, hRest⟩
      rintro j rfl hReads
      exact (hApart k hOld.lt_length).2 ⟨hReads, (Engine.seen_running hOld).trans hClears⟩
    · -- a call that starts has yet to collect its rows
      rcases Server.clears_eq_some.mp hClears with ⟨req, md, env, rfl, hUser, hCollect⟩
      rw [srv.serve_logoutAll hUser] at hCollect
      cases hCollect
    · rcases Server.clears_eq_some.mp hClears with ⟨req, md, env, rfl, hUser, _⟩
      rcases logoutAll_answered hInv hApart hUser hCall hProg hExec with ⟨hOther, hNone, hRest⟩
      refine ⟨noRotation_quiet hInv.staged hStep hQuiet hNone ?_, hRest⟩
      intro j hSame
      cases hSame
      exact readsUser_ne hCall hProg hOther
  · intro k req md env reply hReturned hUser
    exact closed_step hInv.staged
      (hInv.closed k req md env reply (hQuiet.answered _ _ _ hReturned) hUser) hStep

section

variable {i : Nat} {c : SessionCall} {b : SessionReply}
variable {t : Engine.Txn Stmt Resp Write Status SessionReply} {r : Except Status SessionReply}

theorem covered_commit {hashes : List String} {ws : List Write}
    (hStaged : srv.stages.Staged cfg) (hNone : srv.NoRotation userID cfg)
    (hCall : cfg.Running i c t) (hProg : t.prog = .ret b)
    (hCovered : Covered cfg.db userID hashes ws) :
    Covered (authdb.view cfg.db t.writes) userID hashes
    ws := by
  intro s' hRow hUser
  rcases origin_of_noRotation hStaged hNone hCall hProg hRow hUser with ⟨s, hOld, hOwner, hLater, _⟩
  rw [hLater.tokenHash]
  exact (hCovered s hOld hOwner).imp_left hLater.revoked

/- The commit of a `LogoutAll` closes the user. -/
theorem closed_commit {req : String} {md : Metadata} {env : Env} (hInv : srv.LogoutInv userID cfg)
    (hUser : srv.logoutUser req md env = .ok userID)
    (hCall : cfg.Running i (.logoutAll req md env) t) (hProg : t.prog = .ret b) : srv.Closed userID
    (cfg.commit authdb i (.logoutAll req md env) t.writes r) := by
  have hClears : srv.clears (.logoutAll req md env) t.prog = some userID := by
    rw [hProg]
    exact Server.clears_eq_some.mpr ⟨req, md, env, rfl, hUser, rfl⟩
  rcases hInv.clearing i _ t hCall hClears with ⟨hNone, hashes, ⟨now, reply, hShape⟩, hCovered⟩
  refine ⟨?_, noRotation_commit hInv.staged hNone⟩
  intro s' hRow hOwner'
  rcases origin_of_noRotation hInv.staged hNone hCall hProg
      hRow hOwner' with ⟨s, hOld, hOwner, hLater, hSet⟩
  rcases hCovered s hOld hOwner with hRevoked | hListed | hWritten
  · exact hLater.revoked hRevoked
  · -- nothing is left to revoke when the call ends
    cases hashes with
    | nil => cases hListed
    | cons h hashes =>
      rw [hProg, revokeEach_cons_bind] at hShape
      cases hShape
  · exact hSet hWritten

theorem logoutInv_commit (hInv : srv.LogoutInv userID cfg)
    (hCall : cfg.Running i c t) (hProg : t.prog = .ret b)
    (hStaged : srv.stages.Staged (cfg.commit authdb i c t.writes r))
    (hClosed : srv.Closed userID cfg → srv.Closed userID
    (cfg.commit authdb i c t.writes r)) : srv.LogoutInv userID
    (cfg.commit authdb i c t.writes r) := by
  refine ⟨hStaged, ?_, ?_⟩
  · intro k c' t' hk hClears
    have hOld := (Engine.running_commit hk).2
    rcases hInv.clearing k c' t' hOld hClears with ⟨hNone, hashes, hRevokes, hCovered⟩
    exact ⟨noRotation_commit hInv.staged hNone, hashes,
      hRevokes, covered_commit hInv.staged hNone hCall hProg hCovered⟩
  · intro k req md env reply hReturned hUser
    rcases Engine.returned_commit hReturned with ⟨rfl, rfl, _⟩ | hOld
    · exact closed_commit hInv hUser hCall hProg
    · exact hClosed (hInv.closed k req md env reply hOld hUser)

end

theorem logoutInv_step (hInv : srv.LogoutInv userID cfg) (hApart : srv.LogsOutApart userID cfg a)
    (hStep : authdb.step srv.serve cfg a = some cfg') : srv.LogoutInv userID cfg' := by
  rcases Engine.step_quiet_or_commit hStep with
    hQuiet | ⟨i, c, t, b, r, hCall, hProg, _, _, hCommit⟩
  · exact logoutInv_quiet hInv hApart hStep hQuiet
  · have hStaged := srv.stages.staged_step hInv.staged hStep
    have hClosed : srv.Closed userID cfg → srv.Closed userID cfg' :=
      fun hBefore => closed_step hInv.staged hBefore hStep
    rw [hCommit] at hStaged hClosed ⊢
    exact logoutInv_commit hInv hCall hProg hStaged hClosed

----
-- After The Logout
----

variable {n : Nat}

/- Calls from the `n`-th on succeed for other users only. -/
structure Server.LoggedOut (srv : Server) (userID : String) (n : Nat)
    (cfg : SessionConfig) : Prop where
  staged : srv.stages.Staged cfg
  closed : srv.Closed userID cfg
  others : ∀ j req md env reply, n ≤ j → cfg.Returned j (.refreshToken req md env) (.ok reply) →
        ∃ s ∈ cfg.db.sessions.rows, s.tokenHash = srv.presented req ∧ s.userID ≠ userID

theorem loggedOut_start (hStaged : srv.stages.Staged cfg) (hClosed : srv.Closed userID cfg) :
    srv.LoggedOut userID cfg.calls.length cfg := by
  refine ⟨hStaged, hClosed, ?_⟩
  intro j req md env reply hLe hReturned
  have hLt := (List.getElem?_eq_some_iff.mp hReturned).1
  exact absurd hLt (Nat.not_lt.mpr hLe)

theorem row_of_rotated {i : Nat} {env : Env}
    {t : Engine.Txn Stmt Resp Write Status SessionReply} {b : SessionReply}
    (hInv : srv.LoggedOut userID n cfg) (hCall : cfg.Running i (.refreshToken req md env) t)
    (hProg : t.prog = .ret b) : ∃ s ∈ cfg.db.sessions.rows,
    s.tokenHash = srv.presented req ∧ s.userID ≠ userID := by
  have hActing : acting t.prog = true := by
    rw [hProg]
    rfl
  rcases (hInv.staged i _ t hCall).row hActing with ⟨s, hRow, hHash⟩
  refine ⟨s, hRow, hHash, ?_⟩
  intro hUser
  refine hInv.closed.noRotation i (rotatesUser_eq_some.mpr
    ⟨srv.presented req, ?_, s, hRow, hHash, hUser⟩)
  exact (Engine.seen_running hCall).trans
    (Server.rotatesToken_eq_some.mpr ⟨req, md, env, rfl, rfl, hActing⟩)

theorem loggedOut_step (hInv : srv.LoggedOut userID n cfg)
    (hStep : authdb.step srv.serve cfg a = some cfg') : srv.LoggedOut userID n cfg' := by
  refine ⟨srv.stages.staged_step hInv.staged hStep, closed_step hInv.staged hInv.closed hStep, ?_⟩
  intro j req md env reply hLe hReturned
  rcases Engine.step_quiet_or_commit hStep with hQuiet | ⟨i, c, t, b, r, hCall, hProg, _, _, rfl⟩
  · rw [db_of_quiet hQuiet]
    exact hInv.others j req md env reply hLe (hQuiet.answered _ _ _ hReturned)
  · have hBefore : ∃ s ∈ cfg.db.sessions.rows, s.tokenHash = srv.presented req ∧
        s.userID ≠ userID := by
      rcases Engine.returned_commit hReturned with ⟨rfl, rfl, _⟩ | hOld
      · exact row_of_rotated hInv hCall hProg
      · exact hInv.others j req md env reply hLe hOld
    rcases hBefore with ⟨s, hRow, hHash, hOther⟩
    rcases exists_later_view t.writes hRow with ⟨s', hRow', hLater, _⟩
    refine ⟨s', hRow', hLater.tokenHash.trans hHash, ?_⟩
    rw [hLater.userID]
    exact hOther

/-
  In any interleaving that keeps the logouts and the rotations of a user apart, once a `LogoutAll`
  for the user has succeeded, no `RefreshToken` that starts afterwards succeeds with a token of the
  user, whichever session it is of and however late it was issued.
-/
theorem logoutAll_final_of_apart (srv : Server) (db : AuthDb) (userID : String)
    (schedule later : List SessionAction) (k : Nat) (req : String)
    (md : Metadata) (env : Env) {reply : SessionReply} {cfg cfg' : SessionConfig}
    (hApart : Transition.Meets (authdb.step srv.serve)
      (srv.LogsOutApart userID) (SessionConfig.start db) schedule)
    (hRun : srv.run (SessionConfig.start db) schedule = some cfg)
    (hUser : srv.logoutUser req md env = .ok userID)
    (hDone : cfg.Returned k (.logoutAll req md env) (.ok reply))
    (hLater : srv.run cfg later = some cfg') : ∀ j req' md' env' reply', cfg.calls.length ≤ j →
      ∀ s ∈ cfg'.db.sessions.rows, s.userID = userID → srv.presented req' = s.tokenHash →
      ¬ cfg'.Returned j (.refreshToken req' md' env') (.ok reply') := by
  intro j req' md' env' reply' hLe s hRow hOwner hHash hReturned
  have hInv : srv.LogoutInv userID cfg :=
    Transition.run_induction_of_meets
      (fun _ _ _ hInv hCond hStep =>
        logoutInv_step hInv hCond hStep) (logoutInv_start srv userID db) hApart hRun
  have hOut : srv.LoggedOut userID cfg.calls.length cfg' :=
    Transition.run_induction (fun _ _ _ hInv hStep => loggedOut_step hInv hStep)
      (loggedOut_start hInv.staged (hInv.closed k req md env reply hDone hUser)) hLater
  rcases hOut.others j req' md' env' reply' hLe hReturned with ⟨s', hRow', hHash', hOther⟩
  rw [Table.eq_of_key hRow' hRow (hHash'.trans hHash)] at hOther
  exact hOther hOwner

/- The user of the session logs out everywhere. -/
def loggingOut (now : Time) : SessionCall := .logoutAll "ada" .none (.drawing now "")

/- The rotation has committed when the logout starts. -/
def rotateThenLogout : List SessionAction :=
  [.start (refreshing 1000 "t0" "t1"), .exec 0, .exec 0, .exec 0, .finish 0,
    .start (loggingOut 2000), .exec 1, .exec 1, .finish 1]

/- The successor is presented after the logout. -/
def presentSuccessor : List SessionAction :=
  [.start (refreshing 3000 "t1" "t2"), .exec 2, .exec 2, .exec 2, .finish 2]

theorem rotateThenLogout_final : ∃ cfg cfg', Server.plain.run (SessionConfig.start loggedIn)
      rotateThenLogout = some cfg ∧ cfg.Returned 1 (loggingOut 2000) (.ok (.loggedOutAll 1)) ∧
      Server.plain.run cfg presentSuccessor = some cfg' ∧
      ∀ j req' md' env' reply', cfg.calls.length ≤ j →
      ∀ s ∈ cfg'.db.sessions.rows, s.userID = "ada" →
      Server.plain.presented req' = s.tokenHash → ¬ cfg'.Returned j
      (.refreshToken req' md' env') (.ok reply') := by
  refine ⟨_, _, rfl, rfl, rfl, ?_⟩
  exact logoutAll_final_of_apart Server.plain loggedIn "ada"
    rotateThenLogout presentSuccessor 1 "ada" .none (.drawing 2000 "") (by decide) rfl rfl rfl rfl

/-
  The rotation has read its row when the logout starts, and goes on after the logout has committed.
-/
def logoutDuringRotation : List SessionAction :=
  [.start (refreshing 1000 "t0" "t1"), .exec 0, .start (loggingOut 2000),
    .exec 1, .exec 1, .finish 1, .exec 0, .exec 0, .finish 0]

theorem successor_survives_logoutAll : ∃ cfg cfg', Server.plain.run (SessionConfig.start loggedIn)
      logoutDuringRotation = some cfg ∧ cfg.Returned 1 (loggingOut 2000)
      (.ok (.loggedOutAll 1)) ∧ Server.plain.run cfg presentSuccessor = some cfg' ∧
      cfg'.Returned 2 (refreshing 3000 "t1" "t2") (.ok (.rotated ⟨"ada", "t2"⟩)) ∧
      (authdb.withTx
      (Server.plain.respond (.drawing 3000 "t2")
      ⟨"ada", "t2"⟩) cfg'.db).1 = .ok ⟨"ada", "t2", 900⟩ := ⟨_, _, rfl, rfl, rfl, rfl, rfl⟩

end Fincore.Auth
