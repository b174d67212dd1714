import Fincore.Auth.Accounts
import Fincore.Auth.Refreshing

/-
  `CleanupRefreshSessions` of `cleanup.go`, and what it leaves to `RefreshToken`.

  The cleanup deletes the rows that are expired and the rows that were revoked long ago. A row that
  a later refresh accepts is live and in time, so it is none of them. A token whose row is gone is
  refused, as it was before.

  Key definitions include:
    * `Auth.Opens`
    * `cleanupRefreshSessions`
    * `Db.without` and `swept`

  Main results:
    * `Auth.handle_ok_iff` and `Auth.handle_opens`
    * `cleanup_eq`
    * `cleanup_invisible`
-/

----
-- Refreshes That Succeed
----

namespace Fincore.Auth

variable {srv : Server} {req : String} {md : Metadata} {env : Env} {db : AuthDb} {s : Session}

/- Any other row is rejected. -/
theorem fails_refreshRow
    (hNot : ¬ (s.Live ∧ env.now ≤ s.expiresAt ∧ env.now ≤ s.absoluteExpiresAt)) :
    (srv.refreshRow req md env (some s)).Fails := by
  unfold Server.refreshRow
  dsimp only
  split_ifs with hLive hExpires hAbsolute
  · exact (rejecting_expired _ _).1
  · exact (rejecting_expired _ _).1
  · exact absurd ⟨hLive, Int.not_lt.mp hExpires, Int.not_lt.mp hAbsolute⟩ hNot
  · exact (rejecting_reuse _ _ _).1

theorem accepts_of_ok {rotation : Rotation}
    (hOk : (authdb.withTx (srv.refreshToken req md env) db).1 = .ok rotation) :
    ∃ s, srv.Accepts req env db s := by
  have hRun := Engine.succeeds_of_ok hOk
  unfold Server.refreshToken at hRun
  by_cases hToken : trimSpace req = ""
  · rw [if_pos hToken] at hRun
    exact absurd hRun (Engine.not_succeeds_fail _)
  · rw [if_neg hToken] at hRun
    rcases Engine.succeeds_ask_iff.mp hRun with ⟨row, new, hRead, hRest⟩
    have hRow : db.sessions.lookup (srv.presented req) = row :=
      congrArg Prod.fst (Except.ok.inj hRead)
    cases row with
    | none => exact absurd hRest (Engine.not_succeeds_fail _)
    | some s =>
      refine ⟨s, hToken, hRow, ?_⟩
      by_contra hNot
      exact Engine.not_succeeds_of_fails (fails_refreshRow hNot) hRest

/- What a call needs to succeed, nothing going wrong. -/
theorem handle_ok_iff : (∃ tokens, (srv.handleRefreshToken req md env .none db).1 = .ok tokens) ↔
    ∃ s, srv.Accepts req env db s ∧ srv.Rotates env .none db s ∧ srv.Answers env .none db s := by
  constructor
  · rintro ⟨tokens, hOk⟩
    have hTx : ∃ rotation, (authdb.under .clean (srv.refreshToken req md env) db).1 =
        .ok rotation := by
      unfold Server.handleRefreshToken at hOk
      split at hOk
      · cases hOk
      · next rotation db' hUnder => exact ⟨rotation, congrArg Prod.fst hUnder⟩
    rcases (Engine.under_ok_iff.mp hTx).2 with ⟨rotation, hRotation⟩
    rcases accepts_of_ok hRotation with ⟨s, hAccepts⟩
    by_cases hRotates : srv.Rotates env .none db s
    · have hAnswers := (handle_of_rotates hAccepts hRotates md).1.mp ⟨tokens, hOk⟩
      exact ⟨s, hAccepts, hRotates, hAnswers⟩
    · rcases handle_of_not_rotates hAccepts hRotates md with ⟨e, hError⟩
      rw [hError] at hOk
      cases hOk
  · rintro ⟨s, hAccepts, hRotates, hAnswers⟩
    exact (handle_of_rotates hAccepts hRotates md).1.mpr hAnswers

/- The one row of a table that was not in it before. -/
def Opens (before after : Table Session.tokenHash) (row : Session) : Prop :=
  row ∈ after.rows ∧ ∀ r ∈ after.rows, before.lookup r.tokenHash = none ↔ r = row

theorem opens_rotationWrites {token : String}
    (hFree : db.sessions.lookup (srv.hashRefreshToken token) = .none) :
    Opens db.sessions (authdb.view db (srv.rotationWrites req md env s token)).sessions
    (srv.successor md env s token) := by
  have hNew : (srv.rotated req md env token db).sessions.lookup
      (srv.successor md env s token).tokenHash = none := by
    rw [lookup_rotated]
    exact Option.map_eq_none_iff.mpr hFree
  refine ⟨(Table.mem_insert hNew).mpr (Or.inr rfl), ?_⟩
  intro r hRow
  rcases (Table.mem_insert hNew).mp hRow with hOld | rfl
  · -- a row that was there keeps its key
    have hKey : db.sessions.lookup r.tokenHash ≠ none := by
      intro hNone
      have hGone : (srv.rotated req md env token db).sessions.lookup r.tokenHash = none := by
        rw [lookup_rotated, hNone]
        rfl
      exact Table.lookup_eq_none_iff.mp hGone r hOld rfl
    refine iff_of_false hKey ?_
    rintro rfl
    exact hKey hFree
  · exact iff_of_true hFree rfl

variable {tokens : Tokens}

theorem respond_token {userID token : String}
    (hOk : (authdb.withTx (srv.respond env ⟨userID, token⟩) db).1 = .ok tokens) :
    tokens.refreshToken = token := by
  rw [serial_respond] at hOk
  dsimp only at hOk
  split at hOk
  · cases hOk
  · cases hSigned : srv.accessToken env userID (db.roles userID) (db.permissions userID) with
    | error e =>
      rw [hSigned] at hOk
      cases hOk
    | ok access =>
      rw [hSigned] at hOk
      cases hOk
      rfl

/- What a call that succeeds has read, drawn and written. -/
theorem handle_opens (hOk : (srv.handleRefreshToken req md env .none db).1 = .ok tokens) :
    ∃ s, srv.Accepts req env db s ∧ env.random = .ok tokens.refreshToken ∧
    Opens db.sessions (srv.handleRefreshToken req md env .none db).2.sessions
    (srv.successor md env s tokens.refreshToken) := by
  rcases handle_ok_iff.mp ⟨tokens, hOk⟩ with ⟨s, hAccepts, hRotates, _⟩
  rcases hRotates with ⟨_, token, hDrawn, hUser, hFree⟩
  have hTx := refreshToken_commits hAccepts hDrawn hUser hFree md
  have hHandle : srv.handleRefreshToken req md env .none db =
      authdb.under .clean (srv.respond env ⟨s.userID, token⟩)
      (authdb.view db (srv.rotationWrites req md env s token)) := by
    unfold Server.handleRefreshToken
    rw [Engine.under_commits (f := RefreshFaults.none.tx) hTx trivial]
    rfl
  have hAnswer : tokens.refreshToken = token := by
    rw [hHandle, Engine.under_clean] at hOk
    exact respond_token hOk
  rw [hAnswer, hHandle, under_respond]
  exact ⟨s, hAccepts, hDrawn, opens_rotationWrites hFree⟩

end Fincore.Auth

----
-- The Cleanup
----

namespace Fincore.AuthService

open Auth

/- `CleanupRefreshSessions`, with its counts and its error -/
def cleanupRefreshSessions (now revokedRetention : Time) (db : Db) :
    (Nat × Nat × Option Status) × Db :=
  match store.withTx (deleteExpired now) db with
  | (.error e, db') => ((0, 0, some e), db')
  | (.ok expiredDeleted, db') =>
    match store.withTx (deleteRevoked now revokedRetention) db' with
    | (.error e, db'') => ((expiredDeleted, 0, some e), db'')
    | (.ok revokedDeleted, db'') => ((expiredDeleted, revokedDeleted, none), db'')

/- The rows that it deletes. -/
def swept (now revokedRetention : Time) (s : Session) : Bool :=
  expired now s || (decide (revokedRetention > 0) && revokedBefore (now - revokedRetention) s)

/- The database after a bulk `delete`. -/
def Db.without (db : Db) (p : Session → Bool) : Db :=
  { db with sessions := db.sessions.filter (fun s => !p s) }

variable {db : Db} {p q : Session → Bool}

theorem without_congr (hSame : ∀ s ∈ db.sessions.rows, p s = q s) : db.without p = db.without q :=
  by
  have hRows : (db.sessions.filter (fun s => !p s)).rows =
        (db.sessions.filter (fun s => !q s)).rows := by
    refine List.filter_congr ?_
    intro s hRow
    rw [hSame s hRow]
  unfold Db.without
  rw [Table.eq_of_rows hRows]

theorem without_without : (db.without p).without q = db.without (fun s => p s || q s) := by
  have hRows : ((db.sessions.filter (fun s => !p s)).filter (fun s => !q s)).rows =
        (db.sessions.filter (fun s => !(p s || q s))).rows := by
    refine List.filter_filter.trans (List.filter_congr ?_)
    intro s _
    rw [Bool.not_or, Bool.and_comm]
  unfold Db.without
  dsimp only
  rw [Table.eq_of_rows hRows]

theorem without_none (hNone : ∀ s ∈ db.sessions.rows, p s = false) : db.without p = db := by
  have hRows : (db.sessions.filter (fun s => !p s)).rows = db.sessions.rows := by
    refine List.filter_eq_self.mpr ?_
    intro s hRow
    rw [hNone s hRow]
    rfl
  unfold Db.without
  rw [Table.eq_of_rows hRows]

/- One row of a bulk `delete`, by its key. -/
theorem view_remove (db : Db) (p : Session → Bool) (h : String) :
    store.view db (db.remove p h).2 = db.without (fun s => p s && decide (s.tokenHash = h)) := by
  cases hRow : db.sessions.lookup h with
  | none =>
    have hNone := Table.lookup_eq_none_iff.mp hRow
    unfold Db.remove
    rw [hRow, without_none]
    · rfl
    · intro s hMem
      rw [decide_eq_false (hNone s hMem), Bool.and_false]
  | some s =>
    rcases Table.lookup_eq_some_iff.mp hRow with ⟨hMem, hKey⟩
    have hOnly : ∀ r ∈ db.sessions.rows, r.tokenHash = h → r = s :=
      fun r hMem' hKey' => Table.eq_of_key hMem' hMem (hKey'.trans hKey.symm)
    unfold Db.remove
    rw [hRow]
    dsimp only
    by_cases hDelete : p s = true
    · rw [if_pos hDelete]
      show { db with sessions := db.sessions.filter (fun r => decide (r.tokenHash ≠ h)) } = _
      simp only [ne_eq, decide_not]
      refine without_congr (p := fun r => decide (r.tokenHash = h)) ?_
      intro r hMem'
      by_cases hAt : r.tokenHash = h
      · rw [hOnly r hMem' hAt, hDelete]
        simp [hKey]
      · simp [hAt]
    · rw [if_neg hDelete, without_none]
      · rfl
      · intro r hMem'
        by_cases hAt : r.tokenHash = h
        · rw [hOnly r hMem' hAt]
          simp [hDelete]
        · simp [hAt]

/-
  The rows of a bulk `delete`, one after the other; nothing that it writes is seen before its
  commit.
-/
theorem serial_deleteEach (stmt : String → Stmt) (count : ∀ h, Resp (stmt h) → Nat)
    (hExec : ∀ h db, ∃ r, (stmt h).exec db = .ok (r, (db.remove p h).2))
    (hTick : ∀ h db, (stmt h).tick db = db) (hashes : List String) {α : Type} (k : Nat → Tx α)
    (began : Nat) (ws : List Write) (db : Db) : ∃ n ws',
    store.serial began (deleteEach stmt count hashes >>= k) ws db =
    store.serial began (k n) ws' db ∧ store.view db ws' =
    (store.view db ws).without (fun s => p s && decide (s.tokenHash ∈ hashes)) := by
  induction hashes generalizing k ws with
  | nil =>
    refine ⟨0, ws, rfl, (without_none ?_).symm⟩
    intro s _
    simp
  | cons h hashes ih =>
    rcases hExec h (store.view db ws) with ⟨r, hAnswer⟩
    rcases ih (fun m => k (count h r + m)) (ws ++ ((store.view db ws).remove p h).2) with
      ⟨n, ws', hRest, hView⟩
    refine ⟨count h r + n, ws', ?_, ?_⟩
    · rw [← hRest]
      refine (Engine.serial_ask_exec (E := store) hAnswer).trans ?_
      rw [show store.tick (stmt h) db = db from hTick h db]
      exact congrArg (fun p => store.serial began p _ db)
        (Prog.bind_assoc (deleteEach stmt count hashes) (fun m => .ret (count h r + m)) k)
    · rw [hView, Engine.view_append, view_remove, without_without]
      refine without_congr ?_
      intro s _
      simp only [List.mem_cons, Bool.decide_or, Bool.and_or_distrib_left]

/- Every row that was collected is deleted. -/
theorem without_collect (db : Db) (p : Session → Bool) :
    db.without (fun s => p s && decide (s.tokenHash ∈ db.collect p)) = db.without p := by
  refine without_congr ?_
  intro s hRow
  cases hDelete : p s with
  | false => rfl
  | true =>
    have hMem : s.tokenHash ∈ db.collect p :=
      List.mem_map_of_mem (List.mem_filter.mpr ⟨hRow, hDelete⟩)
    rw [decide_eq_true hMem]
    rfl

theorem withTx_deleteExpired (now : Time) (db : Db) :
    ∃ n, store.withTx (deleteExpired now) db = (.ok n, db.without (expired now)) := by
  rcases serial_deleteEach (p := expired now) (fun h => .deleteExpired h now)
      (fun _ n => n) (fun _ _ => ⟨_, rfl⟩) (fun _ _ => rfl)
      (db.collect (expired now)) .ret 0 [] db with ⟨n, ws', hRun, hView⟩
  rw [Prog.bind_ret] at hRun
  rw [Engine.view_nil] at hView
  refine ⟨n, hRun.trans ?_⟩
  rw [← without_collect, ← hView]
  rfl

theorem withTx_deleteRevoked (now revokedRetention : Time) (db : Db) :
    ∃ n, store.withTx (deleteRevoked now revokedRetention) db =
    (.ok n, db.without (fun s => decide (revokedRetention > 0) &&
    revokedBefore (now - revokedRetention) s)) := by
  unfold deleteRevoked
  by_cases hKept : revokedRetention > 0
  · rw [if_pos hKept]
    rcases serial_deleteEach (p := revokedBefore (now - revokedRetention))
        (fun h => .deleteRevoked h (now - revokedRetention)) (fun _ n => n)
        (fun _ _ => ⟨_, rfl⟩) (fun _ _ => rfl) (db.collect (revokedBefore (now - revokedRetention))) .ret 0 [] db with
      ⟨n, ws', hRun, hView⟩
    rw [Prog.bind_ret] at hRun
    rw [Engine.view_nil] at hView
    refine ⟨n, hRun.trans ?_⟩
    simp only [decide_eq_true hKept, Bool.true_and]
    rw [← without_collect, ← hView]
    rfl
  · rw [if_neg hKept]
    refine ⟨0, ?_⟩
    rw [without_none]
    · rfl
    · intro s _
      rw [decide_eq_false hKept, Bool.false_and]

/- It succeeds and deletes those rows. -/
theorem cleanup_eq (now revokedRetention : Time) (db : Db) : ∃ n m,
    cleanupRefreshSessions now revokedRetention db =
    ((n, m, none), db.without (swept now revokedRetention)) := by
  rcases withTx_deleteExpired now db with ⟨n, hExpired⟩
  rcases withTx_deleteRevoked now revokedRetention (db.without (expired now)) with ⟨m, hRevoked⟩
  refine ⟨n, m, ?_⟩
  unfold cleanupRefreshSessions
  rw [hExpired]
  dsimp only
  rw [hRevoked, without_without]
  rfl

----
-- Refreshes After A Cleanup
----

variable {srv : Server} {req : String} {md : Metadata}
variable {env : Auth.Env} {s : Session} {now revokedRetention : Time}

theorem not_swept (hTime : now ≤ env.now) (hLive : s.Live) (hExpires : env.now ≤ s.expiresAt)
    (hAbsolute : env.now ≤ s.absoluteExpiresAt) : swept now revokedRetention s = false := by
  have hNow : timestamptz now ≤ env.now := Int.le_trans (timestamptz_le now) hTime
  unfold swept expired revokedBefore
  rw [hLive.1, decide_eq_false (Int.not_lt.mpr (Int.le_trans hNow hExpires)),
    decide_eq_false (Int.not_lt.mpr (Int.le_trans hNow hAbsolute))]
  exact Bool.and_false _

/- The same row is accepted before and after a cleanup. -/
theorem accepts_without_iff (hTime : now ≤ env.now) :
    srv.Accepts req env (db.without (swept now revokedRetention)).auth s ↔
    srv.Accepts req env db.auth s := by
  constructor
  · rintro ⟨hToken, hRow, hRest⟩
    exact ⟨hToken, (Table.lookup_filter.mp hRow).1, hRest⟩
  · rintro ⟨hToken, hRow, hLive, hExpires, hAbsolute⟩
    refine ⟨hToken, Table.lookup_filter.mpr ⟨hRow, ?_⟩, hLive, hExpires, hAbsolute⟩
    rw [not_swept hTime hLive hExpires hAbsolute]
    rfl

/- The token that a call draws is new to the table. -/
def DrawsFresh (srv : Server) (env : Auth.Env) (db : Db) : Prop :=
  ∀ token, env.random = .ok token → db.sessions.lookup (srv.hashRefreshToken token) = none

theorem drawsFresh_without {p : Session → Bool} (hFresh : DrawsFresh srv env db) :
    DrawsFresh srv env (db.without p) := by
  intro token hDrawn
  refine Table.lookup_eq_none_iff.mpr ?_
  intro r hRow
  exact Table.lookup_eq_none_iff.mp (hFresh token hDrawn) r (Table.mem_filter.mp hRow).1

theorem rotates_iff (hFresh : DrawsFresh srv env db) : srv.Rotates env .none db.auth s ↔
    (∃ token, env.random = .ok token) ∧ s.userID ∈ db.auth.users := by
  constructor
  · rintro ⟨_, token, hDrawn, hUser, _⟩
    exact ⟨⟨token, hDrawn⟩, hUser⟩
  · rintro ⟨⟨token, hDrawn⟩, hUser⟩
    exact ⟨trivial, token, hDrawn, hUser, hFresh token hDrawn⟩

/- The same call with another draw. -/
def redrawn (env : Auth.Env) (random : Except GoError String) : Auth.Env :=
  { env with random := random }

theorem successor_redrawn {srv : Server} {md : Metadata} (env : Auth.Env)
    (random : Except GoError String) (s : Session) (token token' : String) :
    srv.successor md (redrawn env random) s token' =
      { srv.successor md env s token with tokenHash := srv.hashRefreshToken token' } := rfl

/-
  A refresh succeeds after a cleanup if and only if it succeeds without one, and it opens the same
  row, apart from the token that it draws.
-/
theorem cleanup_invisible (srv : Server) (db : Db) (now revokedRetention : Time) (req : String)
    (md : Metadata) (env : Auth.Env) (random : Except GoError String) (hTime : now ≤ env.now)
    (hDraws : (∃ token, env.random = .ok token) ↔ ∃ token, random = .ok token)
    (hFresh : DrawsFresh srv env db) (hFresh' : DrawsFresh srv (redrawn env random) db) :
    ((∃ tokens, (srv.handleRefreshToken req md (redrawn env random) .none
        (cleanupRefreshSessions now revokedRetention db).2.auth).1 = .ok tokens) ↔
      ∃ tokens, (srv.handleRefreshToken req md env .none db.auth).1 = .ok tokens) ∧
    ∀ tokens tokens', (srv.handleRefreshToken req md env .none db.auth).1 = .ok tokens →
      (srv.handleRefreshToken req md (redrawn env random) .none
        (cleanupRefreshSessions now revokedRetention db).2.auth).1 = .ok tokens' → ∃ row : Session,
        Opens db.sessions (srv.handleRefreshToken req md env .none db.auth).2.sessions
          { row with tokenHash := srv.hashRefreshToken tokens.refreshToken } ∧
        Opens (cleanupRefreshSessions now revokedRetention db).2.sessions
          (srv.handleRefreshToken req md (redrawn env random) .none
            (cleanupRefreshSessions now revokedRetention db).2.auth).2.sessions
          { row with tokenHash := srv.hashRefreshToken tokens'.refreshToken } := by
  rcases cleanup_eq now revokedRetention db with ⟨n, m, hCleanup⟩
  rw [hCleanup]
  dsimp only
  constructor
  · rw [handle_ok_iff, handle_ok_iff]
    refine exists_congr fun s => and_congr (accepts_without_iff hTime) ?_
    rw [rotates_iff hFresh, rotates_iff (drawsFresh_without hFresh'), hDraws]
    exact Iff.rfl
  · intro tokens tokens' hOk hOk'
    rcases handle_opens hOk with ⟨s, hAccepts, _, hOpens⟩
    rcases handle_opens hOk' with ⟨s', hAccepts', _, hOpens'⟩
    have hSame : s' = s :=
      Option.some.inj (((accepts_without_iff hTime).mp hAccepts').2.1.symm.trans hAccepts.2.1)
    rw [hSame, successor_redrawn env random s tokens.refreshToken] at hOpens'
    exact ⟨srv.successor md env s tokens.refreshToken, hOpens, hOpens'⟩

/- A user with a role, a session in use and one that has expired. -/
def Db.twoSessions : Db :=
  { Db.empty with
    users := (Table.empty User.id).insert ⟨"ada", "ada@mail", "Ada", "secret"⟩
    roles := (Table.empty Named.id).insert ⟨"role_customer", "customer"⟩
    userRoles := [("ada", "role_customer")]
    sessions := ((Table.empty Session.tokenHash).insert (laptop "t0" 86400000000000)).insert
      (laptop "old" 1000) }

/- The cleanup deletes the other row, and the refresh succeeds. -/
theorem refreshed_after_cleanup :
    (cleanupRefreshSessions 5000 60 Db.twoSessions).2.sessions.rows.map Session.tokenHash = ["t0"] ∧
      ∃ tokens, (Server.plain.handleRefreshToken "t0" .none
      (redrawn (.drawing 5000 "t1") (.ok "t2")) .none
      (cleanupRefreshSessions 5000 60 Db.twoSessions).2.auth).1 = .ok tokens := by
  have hFresh : ∀ next, (next = "t1" ∨ next = "t2") →
      DrawsFresh Server.plain (.drawing 5000 next) Db.twoSessions := by
    rintro next hNext token hDrawn
    cases hDrawn
    rcases hNext with rfl | rfl
    · decide +kernel
    · decide +kernel
  refine ⟨by decide +kernel, (cleanup_invisible Server.plain Db.twoSessions 5000 60 "t0" .none
    (.drawing 5000 "t1") (.ok "t2") (by decide) (iff_of_true ⟨_, rfl⟩ ⟨_, rfl⟩)
    (hFresh "t1" (Or.inl rfl)) (hFresh "t2" (Or.inr rfl))).1.mpr
      ⟨⟨"ada", "t1", 900⟩, by decide +kernel⟩⟩

end Fincore.AuthService
