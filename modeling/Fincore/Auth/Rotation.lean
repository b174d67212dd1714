import Fincore.Auth.Sessions

/-
  Rotations of one session, interleaved.

  `RefreshToken` reads the row of its token without locking it, and the `update` that rotates the
  row does not look at `revoked_at` again. Two calls that both read before either commits both
  rotate. When no call reads the row of a token while another one that presented it is rotating, a
  token has one successor at most and a session one unrevoked row.

  Key definitions include:
    * `Server.Replaces`
    * `AuthDb.OneLive`
    * `Server.LinearInv`

  Main results:
    * `linearInv_step`
    * `rotation_linear_of_apart`
    * `racing_rotations_both_commit`
-/

----
-- One Unrevoked Row A Session
----

namespace Fincore.Auth

variable {srv : Server} {cfg cfg' : SessionConfig}

/- Call `i` of `RefreshToken` presented the token and has committed a successor. -/
def Server.Replaces (srv : Server) (cfg : SessionConfig) (i : Nat) (h : String) : Prop :=
  ∃ req md env row, cfg.input? i = some (.refreshToken req md env) ∧
      srv.presented req = h ∧ (some i, Write.insertSession row) ∈ cfg.journal

/- No session has two unrevoked rows. -/
def AuthDb.OneLive (db : AuthDb) : Prop :=
  ∀ s ∈ db.sessions.rows, ∀ s' ∈ db.sessions.rows, s.sessionID = s'.sessionID →
      s.revokedAt = none → s'.revokedAt = none → s = s'

instance (db : AuthDb) : Decidable db.OneLive :=
  inferInstanceAs (Decidable (∀ s ∈ _, ∀ s' ∈ _, _ → _ → _ → _))

theorem Server.Replaces.taken {i : Nat} {h : String}
    (hReplaces : srv.Replaces cfg i h) : srv.rotations.Taken cfg i h := by
  rcases hReplaces with ⟨req, md, env, row, hInput, rfl, hMem⟩
  exact ⟨_, _, hInput, hMem, rfl⟩

/-
  What holds along runs whose calls read apart: next to the token that a call rotates, its session
  has no unrevoked row, and no two calls rotate tokens of one session.
-/
structure Server.LinearInv (srv : Server) (cfg : SessionConfig) : Prop where
  once : srv.rotations.OnceInv cfg
  oneLive : cfg.db.OneLive
  others : ∀ i h, srv.rotations.holding cfg i = some h →
      ∀ s ∈ cfg.db.sessions.rows, s.tokenHash = h → ∀ s' ∈ cfg.db.sessions.rows,
          s'.sessionID = s.sessionID → s'.tokenHash ≠ h → s'.revokedAt ≠ none
  sessions : ∀ i j h h', i ≠ j → srv.rotations.holding cfg i = some h →
      srv.rotations.holding cfg j = some h' → ∀ s ∈ cfg.db.sessions.rows, s.tokenHash = h →
          ∀ s' ∈ cfg.db.sessions.rows, s'.tokenHash = h' → s.sessionID ≠ s'.sessionID

theorem linearInv_start (srv : Server) {db : AuthDb} (hOne : db.OneLive) :
    srv.LinearInv (SessionConfig.start db) := by
  have hNobody : ∀ i h, srv.rotations.holding (SessionConfig.start db) i ≠ some h := by
    intro i h hHolds
    rcases Engine.seen_eq_some.mp hHolds with ⟨c, t, hCall, _⟩
    cases hCall
  refine ⟨srv.rotations.onceInv_start db, hOne, ?_, ?_⟩
  · intro i h hHolds
    exact absurd hHolds (hNobody i h)
  · intro i j h h' _ hHolds
    exact absurd hHolds (hNobody i h)

theorem row_of_holding {i : Nat} {h : String} (hStaged : srv.stages.Staged cfg)
    (hHolds : srv.rotations.holding cfg i = some h) :
    ∃ s ∈ cfg.db.sessions.rows, s.tokenHash = h := by
  rcases Engine.seen_eq_some.mp hHolds with ⟨c, t, hCall, hKey⟩
  rcases Server.rotatesToken_eq_some.mp hKey with ⟨req, md, env, rfl, rfl, hActing⟩
  exact (hStaged i _ t hCall).row hActing

----
-- Steps
----

variable {a : SessionAction}

/- A step that commits nothing may read a row. -/
theorem linearInv_quiet (hInv : srv.LinearInv cfg)
    (hApart : srv.rotations.Apart cfg a) (hStep : authdb.step srv.serve cfg a = some cfg')
    (hQuiet : cfg.Quiet authdb cfg') : srv.LinearInv cfg' := by
  have hOnce := Engine.Once.onceInv_step hInv.once hApart hStep
  have hDb : cfg'.db = cfg.db := by
    rcases hQuiet.db with hSame | ⟨s, hSame⟩
    · exact hSame
    · exact hSame
  have hHeld :=
    fun j h (hHolds : srv.rotations.holding cfg' j = some h) =>
      srv.rotations.holding_step hInv.once.staged hStep hHolds
  refine ⟨hOnce, ?_, ?_, ?_⟩
  · rw [hDb]
    exact hInv.oneLive
  · intro i h hHolds s hRow hHash s' hRow' hSession hOther
    rw [hDb] at hRow hRow'
    rcases hHeld i h hHolds with hOld | ⟨_, _, hUnspent⟩
    · exact hInv.others i h hOld s hRow hHash s' hRow' hSession hOther
    · -- the row just read is the unrevoked one
      intro hLive'
      have hLive : s.revokedAt = none := by
        by_contra hSet
        exact hUnspent ⟨s, hRow, hHash, hSet⟩
      have hSame := hInv.oneLive s' hRow' s hRow hSession hLive' hLive
      rw [hSame] at hOther
      exact hOther hHash
  · intro i j h h' hNe hi hj s hRow hHash s' hRow' hHash' hSession
    have hKeys : h ≠ h' := by
      rintro rfl
      exact hNe (hOnce.apart i j h hi hj)
    rw [hDb] at hRow hRow'
    rcases hHeld i h hi with hOldI | ⟨hExecI, _, hUnspent⟩
    · rcases hHeld j h' hj with hOldJ | ⟨_, _, hUnspent⟩
      · exact hInv.sessions i j h h' hNe hOldI hOldJ s hRow hHash s' hRow' hHash' hSession
      · refine hUnspent ⟨s', hRow', hHash', ?_⟩
        refine hInv.others i h hOldI s hRow hHash s' hRow' hSession.symm ?_
        rw [hHash']
        exact hKeys.symm
    · rcases hHeld j h' hj with hOldJ | ⟨hExecJ, _, _⟩
      · refine hUnspent ⟨s, hRow, hHash, ?_⟩
        refine hInv.others j h' hOldJ s' hRow' hHash' s hRow hSession ?_
        rw [hHash]
        exact hKeys
      · rw [hExecI] at hExecJ
        cases hExecJ
        exact hNe rfl

/-
  At most one row is inserted, and the rows of its session are revoked, some of them by the same
  commit.
-/
structure InsertsAlone (db : AuthDb) (ws : List Write) : Prop where
  only : ∀ row row', Write.insertSession row ∈ ws → Write.insertSession row' ∈ ws → row = row'
  alone : ∀ row, Write.insertSession row ∈ ws →
      ∀ s ∈ db.sessions.rows, s.sessionID = row.sessionID → s.revokedAt ≠ none ∨
          ∃ w ∈ ws, w.revokes = some s.tokenHash

theorem InsertsAlone.oneLive {db : AuthDb} {ws : List Write} (hOne : db.OneLive)
    (hAlone : InsertsAlone db ws) : (authdb.view db ws).OneLive := by
  intro s hRow s' hRow' hSession hLive hLive'
  -- an unrevoked row beside an inserted one
  have hClash : ∀ {s₀ s₁ s₂ s₃ : Session}, Write.insertSession s₀ ∈ ws → s₀.Later s₁ →
      s₂ ∈ db.sessions.rows → s₂.Later s₃ →
      ((∃ w ∈ ws, w.revokes = some s₂.tokenHash) → s₃.revokedAt ≠ none) →
      s₁.sessionID = s₃.sessionID → s₃.revokedAt ≠ none := by
    intro s₀ s₁ s₂ s₃ hMem hLater₁ hOld hLater₃ hSet hSame
    have hSame' : s₂.sessionID = s₀.sessionID := by
      rw [← hLater₃.sessionID, ← hSame, hLater₁.sessionID]
    rcases hAlone.alone s₀ hMem s₂ hOld hSame' with hRevoked | hWritten
    · exact hLater₃.revoked hRevoked
    · exact hSet hWritten
  rcases origin_of_mem_view ws hRow with ⟨s₁, hOld₁, hLater₁, hSet₁⟩ | ⟨s₁, hMem₁, hLater₁⟩
  · rcases origin_of_mem_view ws hRow' with ⟨s₂, hOld₂, hLater₂, _⟩ | ⟨s₂, hMem₂, hLater₂⟩
    · have hBefore : ∀ {r r' : Session}, r.Later r' → r'.revokedAt = none → r.revokedAt = none := by
        intro r r' hLater hNone
        by_contra hSet
        exact hLater.revoked hSet hNone
      have hSame : s₁ = s₂ := by
        refine hOne s₁ hOld₁ s₂ hOld₂ ?_ (hBefore hLater₁ hLive) (hBefore hLater₂ hLive')
        rw [← hLater₁.sessionID, hSession, hLater₂.sessionID]
      refine Table.eq_of_key hRow hRow' ?_
      rw [hLater₁.tokenHash, hSame, hLater₂.tokenHash]
    · exact absurd hLive (hClash hMem₂ hLater₂ hOld₁ hLater₁ hSet₁ hSession.symm)
  · rcases origin_of_mem_view ws hRow' with ⟨s₂, hOld₂, hLater₂, hSet₂⟩ | ⟨s₂, hMem₂, hLater₂⟩
    · exact absurd hLive' (hClash hMem₁ hLater₁ hOld₂ hLater₂ hSet₂ hSession)
    · refine Table.eq_of_key hRow hRow' ?_
      rw [hLater₁.tokenHash, hLater₂.tokenHash, hAlone.only s₁ s₂ hMem₁ hMem₂]

section

variable {i : Nat} {c : SessionCall} {b : SessionReply}
variable {t : Engine.Txn Stmt Resp Write Status SessionReply}

theorem holding_of_inserts {row : Session} (hStaged : srv.stages.Staged cfg)
    (hCall : cfg.Running i c t) (hProg : t.prog = .ret b)
    (hMem : Write.insertSession row ∈ t.writes) : ∃ h, srv.rotations.holding cfg i = some h ∧
    (∃ s ∈ cfg.db.sessions.rows, s.tokenHash = h ∧ row.sessionID = s.sessionID) ∧
    (∃ w ∈ t.writes, w.revokes = some h) ∧
    ∀ row', Write.insertSession row' ∈ t.writes → row' = row := by
  have hStage := hStaged i c t hCall
  rw [hProg] at hStage
  rcases Server.Stage.inserts hStage hMem with
    ⟨req, md, env, s, rfl, hRow, hHash, hSession, _, hRevokes, hOnly⟩
  refine ⟨srv.presented req, ?_, ⟨s, hRow, hHash, hSession⟩, hRevokes, hOnly⟩
  refine (Engine.seen_running hCall).trans ?_
  rw [hProg]
  rfl

theorem Server.LinearInv.insertsAlone (hInv : srv.LinearInv cfg)
    (hCall : cfg.Running i c t) (hProg : t.prog = .ret b) : InsertsAlone cfg.db t.writes where
  only := by
    intro row row' hMem hMem'
    rcases holding_of_inserts hInv.once.staged hCall hProg hMem' with ⟨_, _, _, _, hOnly⟩
    exact hOnly row hMem
  alone := by
    intro row hMem s hRow hSession
    rcases holding_of_inserts hInv.once.staged hCall hProg hMem with
      ⟨h, hHolds, ⟨s₀, hRow₀, hHash₀, hSession₀⟩, hRevokes, _⟩
    by_cases hSame : s.tokenHash = h
    · right
      rw [hSame]
      exact hRevokes
    · left
      exact hInv.others i h hHolds s₀ hRow₀ hHash₀ s hRow (hSession.trans hSession₀) hSame

theorem linearInv_commit {r : Except Status SessionReply}
    (hInv : srv.LinearInv cfg) (hCall : cfg.Running i c t) (hProg : t.prog = .ret b)
    (hOnce : srv.rotations.OnceInv (cfg.commit authdb i c t.writes r)) :
    srv.LinearInv (cfg.commit authdb i c t.writes r) := by
  -- rows of tokens that are being rotated do not move
  have hRowOf : ∀ j h, srv.rotations.holding cfg j = some h →
      ∀ s ∈ (authdb.view cfg.db t.writes).sessions.rows, s.tokenHash = h →
      ∃ s₀ ∈ cfg.db.sessions.rows, s₀.tokenHash = h ∧ s.sessionID = s₀.sessionID := by
    intro j h hHolds s hRow hHash
    rcases row_of_holding hInv.once.staged hHolds with ⟨s₀, hRow₀, hHash₀⟩
    have hLater := later_of_mem_view hRow₀ hRow (hHash.trans hHash₀.symm)
    exact ⟨s₀, hRow₀, hHash₀, hLater.sessionID⟩
  refine ⟨hOnce, (hInv.insertsAlone hCall hProg).oneLive hInv.oneLive, ?_, ?_⟩
  · intro j h hHolds s hRow hHash s' hRow' hSession hOther
    rcases Engine.seen_commit hHolds with ⟨hNe, hHeld⟩
    rcases hRowOf j h hHeld s hRow hHash with ⟨s₀, hRow₀, hHash₀, hSession₀⟩
    rcases origin_of_mem_view t.writes hRow' with ⟨s₁, hOld, hLater, _⟩ | ⟨s₁, hMem, hLater⟩
    · apply hLater.revoked
      refine hInv.others j h hHeld s₀ hRow₀ hHash₀ s₁ hOld ?_ ?_
      · rw [← hLater.sessionID, hSession, hSession₀]
      · rw [← hLater.tokenHash]
        exact hOther
    · rcases holding_of_inserts hInv.once.staged hCall hProg hMem with
        ⟨h', hHolds', ⟨s₂, hRow₂, hHash₂, hSession₂⟩, _, _⟩
      refine absurd ?_ (hInv.sessions j i h h' hNe hHeld hHolds' s₀ hRow₀ hHash₀ s₂ hRow₂ hHash₂)
      rw [← hSession₀, ← hSession, hLater.sessionID, hSession₂]
  · intro j k h h' hNe hj hk s hRow hHash s' hRow' hHash'
    have hHeldJ := (Engine.seen_commit hj).2
    have hHeldK := (Engine.seen_commit hk).2
    rcases hRowOf j h hHeldJ s hRow hHash with ⟨s₀, hRow₀, hHash₀, hSession₀⟩
    rcases hRowOf k h' hHeldK s' hRow' hHash' with ⟨s₁, hRow₁, hHash₁, hSession₁⟩
    rw [hSession₀, hSession₁]
    exact hInv.sessions j k h h' hNe hHeldJ hHeldK s₀ hRow₀ hHash₀ s₁ hRow₁ hHash₁

end

theorem linearInv_step (hInv : srv.LinearInv cfg) (hApart : srv.rotations.Apart cfg a)
    (hStep : authdb.step srv.serve cfg a = some cfg') : srv.LinearInv cfg' := by
  rcases Engine.step_quiet_or_commit hStep with
    hQuiet | ⟨i, c, t, b, r, hCall, hProg, _, _, hCommit⟩
  · exact linearInv_quiet hInv hApart hStep hQuiet
  · have hOnce := Engine.Once.onceInv_step hInv.once hApart hStep
    rw [hCommit] at hOnce ⊢
    exact linearInv_commit hInv hCall hProg hOnce

----
-- Runs
----

/-
  From a table with at most one unrevoked row a session, any interleaving in which no call reads the
  row of a token while another call that presented it has read it and is still rotating: a token
  gets at most one successor, and a session keeps at most one unrevoked row.
-/
theorem rotation_linear_of_apart (srv : Server) (db : AuthDb)
    (schedule : List SessionAction) {cfg : SessionConfig} (hOne : db.OneLive)
    (hApart : Transition.Meets (authdb.step srv.serve)
      srv.rotations.Apart (SessionConfig.start db) schedule)
    (hRun : srv.run (SessionConfig.start db) schedule = some cfg) :
    (∀ h i j, srv.Replaces cfg i h → srv.Replaces cfg j h → i = j) ∧
      cfg.db.OneLive := by
  have hInv : srv.LinearInv cfg :=
    Transition.run_induction_of_meets
      (fun _ _ _ hInv hCond hStep =>
        linearInv_step hInv hCond hStep) (linearInv_start srv hOne) hApart hRun
  refine ⟨?_, hInv.oneLive⟩
  intro h i j hi hj
  exact hInv.once.once i j h hi.taken hj.taken

/- One rotation after the other. -/
def rotateTwice : List SessionAction :=
  [.start (refreshing 1000 "t0" "t1"), .exec 0, .exec 0, .exec 0, .finish 0,
    .start (refreshing 2000 "t1" "t2"), .exec 1, .exec 1, .exec 1, .finish 1]

theorem rotateTwice_linear : ∃ cfg,
      Server.plain.run (SessionConfig.start loggedIn) rotateTwice = some cfg ∧
      cfg.db.sessions.rows.map (fun s => (s.tokenHash, s.revokedAt)) =
      [("t0", some 1000), ("t1", some 2000), ("t2", none)] ∧
      (∀ h i j, Server.plain.Replaces cfg i h → Server.plain.Replaces cfg j h → i = j) ∧
      cfg.db.OneLive := by
  refine ⟨_, rfl, by decide, ?_⟩
  exact rotation_linear_of_apart Server.plain loggedIn rotateTwice (by decide) (by decide) rfl

/- Both calls read the row before either of them commits. -/
def rotateTogether : List SessionAction :=
  [.start (refreshing 1000 "t0" "t1"), .start (refreshing 1000 "t0" "t2"),
    .exec 0, .exec 1, .exec 0, .exec 0, .finish 0, .exec 1, .exec 1, .finish 1]

theorem racing_rotations_both_commit : loggedIn.OneLive ∧ ∃ cfg,
      Server.plain.run (SessionConfig.start loggedIn)
      rotateTogether = some cfg ∧ Server.plain.Replaces cfg 0 "t0" ∧
      Server.plain.Replaces cfg 1 "t0" ∧ ¬ cfg.db.OneLive := by
  refine ⟨by decide, _, rfl, ?_, ?_, by decide⟩
  · exact ⟨_, _, _, laptop "t1" 86400000001000, rfl, rfl, by decide⟩
  · exact ⟨_, _, _, laptop "t2" 86400000001000, rfl, rfl, by decide⟩

end Fincore.Auth
