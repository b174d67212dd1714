import Fincore.Auth.Specs

/-
  How long a refresh session can be kept alive.

  Calls on sessions are interleaved statement by statement. A login or an exchange opens a session
  and fixes the end of it; a rotation hands the end on to the successor, which expires no later.
  `issued` tells every row apart that was ever inserted, also when the cleanup has deleted it.

  Key definitions include:
    * `SessionOp` and `Service.operate`
    * `Session.Within` and `Session.Sound`
    * `Grants`
    * `Service.Chain`

  Main results:
    * `operate_wp`
    * `lifetimeInv_step`
    * `sessions_end_in_time`
-/

----
-- Rows Of One Session
----

namespace Fincore.Auth

/- Two rows of one session. -/
structure Session.Within (s s' : Session) : Prop where
  sessionID : s.sessionID = s'.sessionID
  userID : s.userID = s'.userID
  absolute : s.absoluteExpiresAt = s'.absoluteExpiresAt

/- The row expires in time, and is revoked if replaced. -/
structure Session.Sound (s : Session) : Prop where
  expires : s.expiresAt ≤ s.absoluteExpiresAt
  replaced : s.replacedByHash ≠ none → s.revokedAt ≠ none

/- What a row can become. -/
structure Session.From (s' s : Session) : Prop where
  tokenHash : s'.tokenHash = s.tokenHash
  within : s'.Within s
  sound : s.Sound → s'.Sound

theorem Session.Within.refl (s : Session) : s.Within s := ⟨rfl, rfl, rfl⟩

variable {s s' s'' : Session}

theorem Session.Within.trans (hFirst : s.Within s') (hSecond : s'.Within s'') : s.Within s'' :=
  ⟨hFirst.sessionID.trans hSecond.sessionID, hFirst.userID.trans hSecond.userID,
    hFirst.absolute.trans hSecond.absolute⟩

theorem Session.From.refl (s : Session) : s.From s := ⟨rfl, .refl s, id⟩

theorem Session.From.trans (hFirst : s''.From s') (hSecond : s'.From s) : s''.From s :=
  ⟨hFirst.tokenHash.trans hSecond.tokenHash,
    hFirst.within.trans hSecond.within, hFirst.sound ∘ hSecond.sound⟩

end Fincore.Auth

----
-- Calls On Sessions
----

namespace Fincore.AuthService

open Auth

/- The handlers that write sessions, and the cleanup. -/
inductive SessionOp where
  | login (req : LoginRequest) (md : Metadata) (env : Auth.Env)
  | oauthToken (req : TokenRequest) (md : Metadata) (env : Auth.Env)
  | refreshToken (req : String) (md : Metadata) (env : Auth.Env)
  | logout (req : String) (env : Auth.Env)
  | logoutAll (req : String) (md : Metadata) (env : Auth.Env)
  | deleteExpired (now : Time)
  | deleteRevoked (now revokedRetention : Time)

/- Up to the commit, with the refresh token it returns. -/
def Service.operate (srv : Service) : SessionOp → Tx (Option String)
| .login req md env => do
    let tokens ← srv.login req md env
    return some tokens.refreshToken
| .oauthToken req md env => do
    let res ← lift (srv.oauthToken req md env)
    return some res.refreshToken
| .refreshToken req md env => do
    let rotation ← lift (srv.refreshToken req md env)
    return some rotation.refreshToken
| .logout req env => do
    lift (srv.logout req env)
    return none
| .logoutAll req md env => do
    let _ ← lift (srv.logoutAll req md env)
    return none
| .deleteExpired now => do
    let _ ← AuthService.deleteExpired now
    return none
| .deleteRevoked now revokedRetention => do
    let _ ← AuthService.deleteRevoked now revokedRetention
    return none

namespace SessionOp

/- A login or an exchange. -/
def opens? : SessionOp → Option Auth.Env
| .login _ _ env => some env
| .oauthToken _ _ env => some env
| _ => none

/- The refresh token that the call draws. -/
def drawn? : SessionOp → Option String
| .login _ _ env => env.random.toOption
| .oauthToken _ _ env => env.random.toOption
| .refreshToken _ _ env => env.random.toOption
| _ => none

end SessionOp

abbrev OpConfig := Engine.Config Db SessionOp Stmt Resp Write Status (Option String)

def OpConfig.start (db : Db) : OpConfig := ⟨db, [], []⟩

/- A token that is committed was not issued before. -/
def Service.drawsFresh (srv : Service) (cfg : OpConfig) (i : Nat) : Bool :=
  ((cfg.input? i).bind SessionOp.drawn?).all (fun token =>
    cfg.db.issued.all (fun s =>
      decide (s.tokenHash ≠ srv.hashRefreshToken token)))

def Service.fresh (srv : Service) (cfg : OpConfig) : Engine.Action SessionOp → Bool
| .finish i => srv.drawsFresh cfg i
| .unacked i => srv.drawsFresh cfg i
| _ => true

/- The session was opened by a call of the run, whose time and `refreshTTL` give its end. -/
def Service.OpenedBy (srv : Service) (cfg : OpConfig) (s : Session) : Prop :=
  ∃ i c env token, cfg.input? i = some c ∧ c.opens? = some env ∧
    c.drawn? = some token ∧ s.sessionID = srv.hashRefreshToken token ∧
    s.absoluteExpiresAt = timestamptz (env.accessNow + srv.refreshTTL)

/-
  The tokens that come from the login or exchange of `env`: its own, and what calls have returned
  that presented one.
-/
inductive Service.Chain (srv : Service) (cfg : OpConfig) (env : Auth.Env) : String → Prop where
  | opened {i : Nat} {c : SessionOp} {token : String} (hCall : cfg.Returned i c (.ok (some token)))
      (hOpens : c.opens? = some env) : Chain srv cfg env token
  | refreshed {i : Nat} {req : String} {md : Metadata} {env' : Auth.Env}
      {token token' : String} (hChain : Chain srv cfg env token)
      (hCall : cfg.Returned i (.refreshToken req md env') (.ok (some token')))
      (hPresents : srv.presented req = srv.hashRefreshToken token) : Chain srv cfg env token'

end Fincore.AuthService

----
-- Writes
----

namespace Fincore.AuthService

open Auth

/- Writes that insert no session. -/
def Write.tame : Write → Bool
| .core (.insertSession _) => false
| _ => true

/- All rows come from rows that were there. -/
def Db.Reworks (db db' : Db) : Prop :=
  db'.issued = db.issued ∧ ∀ s' ∈ db'.sessions.rows, ∃ s ∈ db.sessions.rows, s'.From s

theorem reworks_of_same {db db' : Db} (hIssued : db'.issued = db.issued)
    (hSessions : db'.sessions = db.sessions) : db.Reworks db' := by
  refine ⟨hIssued, ?_⟩
  intro s hRow
  rw [hSessions] at hRow
  exact ⟨s, hRow, .refl s⟩

/- A change of one row that revokes it. -/
theorem reworks_modify {db db' : Db} {h : String} {f : Session → Session}
    (hKey : ∀ s, (f s).tokenHash = s.tokenHash) (hIssued : db'.issued = db.issued)
    (hSessions : db'.sessions = db.sessions.modify h f hKey) (hWithin : ∀ s, (f s).Within s)
    (hExpires : ∀ s, (f s).expiresAt = s.expiresAt)
    (hRevoked : ∀ s, (f s).revokedAt ≠ none) : db.Reworks db' := by
  refine ⟨hIssued, ?_⟩
  intro s' hRow
  rw [hSessions] at hRow
  rcases Table.mem_modify.mp hRow with ⟨s, hOld, rfl⟩
  refine ⟨s, hOld, ?_⟩
  split
  · refine ⟨hKey s, hWithin s, ?_⟩
    intro hSound
    refine ⟨?_, fun _ => hRevoked s⟩
    rw [hExpires, (hWithin s).absolute]
    exact hSound.expires
  · exact .refl s

theorem tame_apply {w : Write} (hTame : w.tame = true) (db : Db) : db.Reworks (w.apply db) := by
  cases w with
  | deleteSession h =>
    refine ⟨rfl, ?_⟩
    intro s hRow
    exact ⟨s, (Table.mem_filter.mp hRow).1, .refl s⟩
  | core w =>
    cases w with
    | insertSession row => cases hTame
    | coalesceRevoked h at_ =>
      refine reworks_modify (f := Session.coalesceRevoked at_) (fun _ => rfl) rfl rfl
        (fun _ => ⟨rfl, rfl, rfl⟩) (fun _ => rfl) ?_
      intro s
      simp [Session.coalesceRevoked]
    | setRevoked h at_ =>
      exact reworks_modify (f := Session.setRevoked at_) (fun _ => rfl) rfl rfl
        (fun _ => ⟨rfl, rfl, rfl⟩) (fun _ => rfl) (fun _ => Option.some_ne_none _)
    | rotateSession h at_ newHash userAgent ip =>
      exact reworks_modify (f := Session.rotate at_ newHash userAgent ip) (fun _ => rfl) rfl rfl
        (fun _ => ⟨rfl, rfl, rfl⟩) (fun _ => rfl) (fun _ => Option.some_ne_none _)
    | _ => exact reworks_of_same rfl rfl
  | _ => exact reworks_of_same rfl rfl

variable {ws : List Write}

theorem tame_view (hTame : ∀ w ∈ ws, w.tame = true) (db : Db) : db.Reworks (store.view db ws) := by
  induction ws generalizing db with
  | nil => exact reworks_of_same rfl rfl
  | cons w ws ih =>
    rw [Engine.view_cons]
    have hFirst := tame_apply (hTame w List.mem_cons_self) db
    have hRest := ih (fun w hMem => hTame w (List.mem_cons_of_mem _ hMem)) (w.apply db)
    refine ⟨hRest.1.trans hFirst.1, ?_⟩
    intro s'' hRow
    rcases hRest.2 s'' hRow with ⟨s', hRow', hLater⟩
    rcases hFirst.2 s' hRow' with ⟨s, hOld, hFrom⟩
    exact ⟨s, hOld, hLater.trans hFrom⟩

----
-- What A Call Commits
----

variable {srv : Service} {c : SessionOp} {token : String} {row : Session}
variable {db db' : Db} {issued issued' : List Session}

/-
  The row that comes with a token: the first of a session, or the successor of one that was issued
  and in time.
-/
inductive Grants (srv : Service) (issued : List Session) : SessionOp → String → Session → Prop where
  | opened {c : SessionOp} {env : Auth.Env} {token userID : String}
      {userAgent ip : Option String} (hOpens : c.opens? = some env) :
      Grants srv issued c token (srv.root env userID token userAgent ip)
  | rotated {req : String} {md : Metadata} {env : Auth.Env} {token : String}
      {s s₀ : Session} (hIssued : s₀ ∈ issued)
      (hHash : s₀.tokenHash = srv.presented req) (hWithin : s.Within s₀)
      (hNow : env.now ≤ s₀.absoluteExpiresAt) : Grants srv issued (.refreshToken req md env) token
        (srv.successor md env s token)

theorem Grants.tokenHash (hGrants : Grants srv issued c token row) :
    row.tokenHash = srv.hashRefreshToken token := by
  cases hGrants with
  | opened hOpens => rfl
  | rotated hIssued hHash hWithin hNow => rfl

theorem Grants.sound (hGrants : Grants srv issued c token row) :
    row.Sound := by
  cases hGrants with
  | opened hOpens => exact ⟨le_refl _, fun hSome => absurd rfl hSome⟩
  | rotated hIssued hHash hWithin hNow =>
    refine ⟨timestamptz_mono ?_, fun hSome => absurd rfl hSome⟩
    split
    · exact le_refl _
    · rename_i hLe
      exact not_lt.mp hLe

theorem Grants.mono (hGrants : Grants srv issued c token row)
    (hMore : ∀ s ∈ issued, s ∈ issued') : Grants srv issued' c token row := by
  cases hGrants with
  | opened hOpens => exact .opened hOpens
  | rotated hIssued hHash hWithin hNow =>
    exact .rotated (hMore _ hIssued) hHash hWithin hNow

/- Every row is one that was issued. -/
def Db.Traced (db : Db) : Prop :=
  ∀ s ∈ db.sessions.rows, ∃ s₀ ∈ db.issued, s.tokenHash = s₀.tokenHash ∧ s.Within s₀

/- What the calls do to the database under each other. -/
structure Db.Issues (db db' : Db) : Prop where
  issued : ∀ s ∈ db.issued, s ∈ db'.issued
  traced : db.Traced → db'.Traced

theorem Db.Issues.refl (db : Db) : db.Issues db := ⟨fun _ => id, id⟩

theorem Db.Issues.trans (db₁ db₂ db₃ : Db) (hFirst : db₁.Issues db₂)
    (hSecond : db₂.Issues db₃) : db₁.Issues db₃ :=
  ⟨fun s hMem => hSecond.issued s (hFirst.issued s hMem), hSecond.traced ∘ hFirst.traced⟩

/- What a call commits: no session, or the one it grants. -/
inductive Posts (srv : Service) (c : SessionOp) (db : Db) : List Write → Option String → Prop where
  | tame {ws : List Write} (hTame : ∀ w ∈ ws, w.tame = true) : Posts srv c db ws none
  | grants {first : List Write} {token : String} {row : Session} (hDrawn : c.drawn? = some token)
      (hGrants : Grants srv db.issued c token row) (hFirst : ∀ w ∈ first, w.tame = true) :
      Posts srv c db (first ++ [.core (.insertSession row)]) (some token)

/- And what it leaves. -/
inductive Leaves (srv : Service) (c : SessionOp) (db db' : Db) : Option String → Prop where
  | tame (hReworks : db.Reworks db') : Leaves srv c db db' none
  | grants {token : String} {row : Session} (hDrawn : c.drawn? = some token)
      (hGrants : Grants srv db.issued c token row) (hIssued : db'.issued = db.issued ++ [row])
      (hRows : ∀ s' ∈ db'.sessions.rows, (∃ s ∈ db.sessions.rows, s'.From s) ∨ s' = row) :
      Leaves srv c db db' (some token)

variable {a : Option String}

theorem Posts.leaves (hPosts : Posts srv c db ws a) : Leaves srv c db (store.view db ws) a := by
  cases hPosts with
  | tame hTame => exact .tame (tame_view hTame db)
  | grants hDrawn hGrants hFirst =>
    rename_i first token row
    have hReworks := tame_view hFirst db
    rw [Engine.view_append]
    refine .grants hDrawn hGrants ?_ ?_
    · rw [← hReworks.1]
      rfl
    · intro s' hRow
      rcases Table.mem_of_mem_insert hRow with hOld | rfl
      · exact Or.inl (hReworks.2 s' hOld)
      · exact Or.inr rfl

theorem Leaves.issues (hLeaves : Leaves srv c db db' a) : db.Issues db' := by
  have hOld : (∀ s ∈ db.issued, s ∈ db'.issued) → db.Traced →
      ∀ s' s : Session, s ∈ db.sessions.rows → s'.From s → ∃ s₀ ∈ db'.issued,
      s'.tokenHash = s₀.tokenHash ∧ s'.Within s₀ := by
    intro hMore hTraced s' s hRow hFrom
    rcases hTraced s hRow with ⟨s₀, hMem, hHash, hWithin⟩
    exact ⟨s₀, hMore s₀ hMem, hFrom.tokenHash.trans hHash, hFrom.within.trans hWithin⟩
  cases hLeaves with
  | tame hReworks =>
    have hMore : ∀ s ∈ db.issued, s ∈ db'.issued := by
      rw [hReworks.1]
      exact fun _ => id
    refine ⟨hMore, ?_⟩
    intro hTraced s' hRow
    rcases hReworks.2 s' hRow with ⟨s, hMem, hFrom⟩
    exact hOld hMore hTraced s' s hMem hFrom
  | grants hDrawn hGrants hIssued hRows =>
    rename_i token row
    have hMore : ∀ s ∈ db.issued, s ∈ db'.issued := by
      intro s hMem
      rw [hIssued]
      exact List.mem_append_left _ hMem
    refine ⟨hMore, ?_⟩
    intro hTraced s' hRow
    rcases hRows s' hRow with ⟨s, hMem, hFrom⟩ | rfl
    · exact hOld hMore hTraced s' s hMem hFrom
    · refine ⟨s', ?_, rfl, .refl s'⟩
      rw [hIssued]
      exact List.mem_append_right _ (List.mem_singleton_self s')

theorem issues_tick (s : Stmt) (db : Db) : db.Issues (store.tick s db) := by
  have hSame : (store.tick s db).issued = db.issued ∧ (store.tick s db).sessions = db.sessions := by
    cases s with
    | _ => exact ⟨rfl, rfl⟩
  refine ⟨?_, ?_⟩
  · rw [hSame.1]
    exact fun _ => id
  · unfold Db.Traced
    rw [hSame.1, hSame.2]
    exact id

/- A call that only revokes or deletes. -/
theorem tame_wp {α : Type} {p : Tx α} {began : Nat}
    (hWp : store.Wp (.of Db.Issues .refl .trans)
      (fun _ ws _ => ∀ w ∈ ws, w.tame = true) began p [] db) :
    store.Wp (.of Db.Issues .refl .trans) (Posts srv c) began (p >>= fun _ => .ret none) [] db :=
  Engine.Wp.map (fun _ => none) (hWp.mono (fun _ _ _ hTame => .tame hTame))

theorem asks_deleteEach {stmt : String → Stmt} {count : ∀ h, Resp (stmt h) → Nat} {P : Stmt → Prop}
    (hStmt : ∀ h, P (stmt h)) (hs : List String) : (deleteEach stmt count hs).Asks P := by
  induction hs with
  | nil => trivial
  | cons h hs ih => exact ⟨hStmt h, fun _ => ih.bind (fun _ => trivial)⟩

/- Statements whose writes are tame. -/
def Stmt.Tame (s : Stmt) : Prop := ∀ db r ws, s.exec db = .ok (r, ws) → ∀ w ∈ ws, w.tame = true

theorem tame_scan {s : Stmt} (hScan : ∀ db r ws, s.exec db = .ok (r, ws) → ws = []) : s.Tame := by
  intro db r ws hExec w hMem
  rw [hScan db r ws hExec] at hMem
  cases hMem

theorem asks_deleteExpired (now : Time) : (deleteExpired now).Asks Stmt.Tame := by
  refine ⟨tame_scan ?_, ?_⟩
  · intro db r ws hExec
    cases hExec
    rfl
  · intro hs
    refine asks_deleteEach ?_ hs
    intro h db r ws hExec w hMem
    rw [exec_remove hExec hMem]
    rfl

theorem asks_deleteRevoked (now revokedRetention : Time) :
    (deleteRevoked now revokedRetention).Asks Stmt.Tame := by
  unfold deleteRevoked
  split
  · refine ⟨tame_scan ?_, ?_⟩
    · intro db r ws hExec
      cases hExec
      rfl
    · intro hs
      refine asks_deleteEach ?_ hs
      intro h db r ws hExec w hMem
      rw [exec_remove hExec hMem]
      rfl
  · trivial

theorem drawn_of_random {env : Auth.Env} (hDrawn : env.random = .ok token) :
    env.random.toOption = some token := by
  rw [hDrawn]
  rfl

theorem logout_tame (srv : Service) (req : String) (env : Auth.Env) (began : Nat) (db : Db) :
    store.Wp (.of Db.Issues .refl .trans) (fun _ ws _ => ∀ w ∈ ws, w.tame = true) began
      (lift (srv.logout req env)) [] db := by
  unfold Server.logout
  split
  · trivial
  · intro db₁ _ n ws hExec db₂ _ w hMem
    rw [exec_revokeUnrevoked env.now hExec w hMem]
    rfl

theorem logoutAll_tame (srv : Service) (req : String) (md : Metadata) (env : Auth.Env)
    (began : Nat) (db : Db) :
    store.Wp (.of Db.Issues .refl .trans) (fun _ ws _ => ∀ w ∈ ws, w.tame = true) began
      (lift (srv.logoutAll req md env)) [] db := by
  unfold Server.logoutAll
  cases srv.logoutUser req md env with
  | error e => trivial
  | ok userID =>
    refine (revokeAll_wp .refl .trans began env.now userID db).mono ?_
    rintro db' ws n ⟨before, _, _, hWrites⟩ w hMem
    rcases hWrites w hMem with ⟨s, _, _, _, rfl⟩
    rfl

-- the preconditions are used as they are: unfolding them runs the handlers
seal Engine.Wp

theorem login_posts (srv : Service) (req : LoginRequest) (md : Metadata) (env : Auth.Env)
    (began : Nat) (db : Db) : store.Wp (.of Db.Issues .refl .trans)
      (fun db ws tokens => Posts srv (.login req md env) db ws (some tokens.refreshToken)) began
      (srv.login req md env) [] db := by
  refine (login_wp .refl .trans srv md env began issues_tick req db).mono ?_
  rintro db' ws tokens ⟨before, user, hLogged⟩
  rw [hLogged.writes, ← List.nil_append [Write.core _]]
  exact .grants (drawn_of_random hLogged.drawn) (.opened rfl) nofun

theorem exchange_posts (srv : Service) (req : TokenRequest) (md : Metadata) (env : Auth.Env)
    (began : Nat) (db : Db) : store.Wp (.of Db.Issues .refl .trans)
      (fun db ws res => Posts srv (.oauthToken req md env) db ws (some res.refreshToken)) began
      (lift (srv.oauthToken req md env)) [] db := by
  refine (oauthToken_wp .refl .trans srv md env began req db).mono ?_
  rintro db' ws res ⟨before, code, hExchanged⟩
  rcases hExchanged.writes with ⟨first, rfl, hFirst⟩
  refine .grants (drawn_of_random hExchanged.drawn) (.opened rfl) ?_
  intro w hMem
  rw [hFirst w hMem]
  rfl

theorem refresh_posts (srv : Service) (req : String) (md : Metadata) (env : Auth.Env)
    (began : Nat) (hTraced : db.Traced) : store.Wp (.of Db.Issues .refl .trans)
      (fun db ws rotation =>
      Posts srv (.refreshToken req md env) db ws (some rotation.refreshToken)) began
      (lift (srv.refreshToken req md env)) [] db := by
  refine (refreshToken_wp .refl .trans srv md env began req db).mono ?_
  rintro db' ws rotation ⟨before, s, hRefreshed⟩
  rcases hRefreshed.writes with ⟨first, rfl, hFirst⟩
  rcases hRefreshed.reached.traced hTraced s hRefreshed.row with ⟨s₀, hMem, hHash, hWithin⟩
  have hNow := hRefreshed.absolute
  rw [hWithin.absolute] at hNow
  refine .grants (drawn_of_random hRefreshed.drawn)
    (.rotated (hRefreshed.left.issued s₀ hMem) (hHash.symm.trans hRefreshed.hash) hWithin hNow) ?_
  intro w hMem
  rw [hFirst w hMem]
  rfl

/- Whatever the others do in between. -/
theorem operate_wp (srv : Service) (c : SessionOp) (began : Nat) (hTraced : db.Traced) :
    store.Wp (.of Db.Issues .refl .trans) (Posts srv c) began (srv.operate c) [] db := by
  cases c with
  | login req md env => exact (login_posts srv req md env began db).map _
  | oauthToken req md env => exact (exchange_posts srv req md env began db).map _
  | refreshToken req md env => exact (refresh_posts srv req md env began hTraced).map _
  | logout req env => exact tame_wp (logout_tame srv req env began db)
  | logoutAll req md env => exact tame_wp (logoutAll_tame srv req md env began db)
  | deleteExpired now =>
    exact tame_wp (.of_asks (fun s _ db r ws hTame => hTame db r ws)
      (asks_deleteExpired now) (fun _ hMem => nomatch hMem) db)
  | deleteRevoked now revokedRetention =>
    exact tame_wp (.of_asks (fun s _ db r ws hTame => hTame db r ws)
      (asks_deleteRevoked now revokedRetention) (fun _ hMem => nomatch hMem) db)

end Fincore.AuthService

----
-- Runs
----

namespace Fincore.AuthService

open Auth

variable {srv : Service} {cfg cfg' : OpConfig}

/-
  Every row was issued, every row that was issued has the end of its session's first row, and
  whoever was given a token was granted a row for it.
-/
structure LifetimeInv (srv : Service) (cfg : OpConfig) : Prop where
  traced : cfg.db.Traced
  sound : ∀ s ∈ cfg.db.sessions.rows, s.Sound
  roots : ∀ s ∈ cfg.db.issued, ∃ root ∈ cfg.db.issued,
    root.tokenHash = s.sessionID ∧ s.Within root ∧ srv.OpenedBy cfg root
  distinct : ∀ s ∈ cfg.db.issued, ∀ s' ∈ cfg.db.issued, s.tokenHash = s'.tokenHash → s = s'
  granted : ∀ i c token, cfg.Returned i c (.ok (some token)) →
    ∃ row ∈ cfg.db.issued, Grants srv cfg.db.issued c token row
  guarded : store.Guarded (fun _ => .of Db.Issues .refl .trans) (Posts srv) cfg

theorem Service.OpenedBy.mono {s : Session} (hOpened : srv.OpenedBy cfg s)
    (hInput : ∀ i c, cfg.input? i = some c → cfg'.input? i = some c) : srv.OpenedBy cfg' s := by
  rcases hOpened with ⟨i, c, env, token, hCall, hRest⟩
  exact ⟨i, c, env, token, hInput i c hCall, hRest⟩

theorem Service.OpenedBy.within {s s' : Session} (hOpened : srv.OpenedBy cfg s)
    (hWithin : s'.Within s) : srv.OpenedBy cfg s' := by
  rcases hOpened with ⟨i, c, env, token, hCall, hOpens, hDrawn, hID, hEnd⟩
  exact ⟨i, c, env, token, hCall, hOpens, hDrawn, hWithin.sessionID.trans hID,
    hWithin.absolute.trans hEnd⟩

/- An end that is stored is a `timestamptz` already. -/
theorem Service.OpenedBy.timestamptz_end {s : Session} (hOpened : srv.OpenedBy cfg s) :
    timestamptz s.absoluteExpiresAt = s.absoluteExpiresAt := by
  rcases hOpened with ⟨i, c, env, token, _, _, _, _, hEnd⟩
  rw [hEnd]
  exact timestamptz_timestamptz _

theorem root_of_grants {i : Nat} {c : SessionOp} {token : String} {row : Session}
    (hInv : LifetimeInv srv cfg) (hInput : cfg.input? i = some c) (hDrawn : c.drawn? = some token)
    (hGrants : Grants srv cfg.db.issued c token row) :
    ∃ root, (root ∈ cfg.db.issued ∨ root = row) ∧ root.tokenHash = row.sessionID ∧
      row.Within root ∧ srv.OpenedBy cfg root := by
  cases hGrants with
  | opened hOpens =>
    exact ⟨_, Or.inr rfl, rfl, .refl _, i, c, _, token, hInput, hOpens, hDrawn, rfl, rfl⟩
  | rotated hIssued hHash hWithin hNow =>
    rename_i s s₀
    rcases hInv.roots s₀ hIssued with ⟨root, hMem, hRoot, hSame, hOpened⟩
    have hAll := hWithin.trans hSame
    have hEnd := (hOpened.within hAll).timestamptz_end
    exact ⟨root, Or.inl hMem, hRoot.trans hWithin.sessionID.symm,
      ⟨hAll.sessionID, hAll.userID, hEnd.trans hAll.absolute⟩, hOpened⟩

theorem lifetimeInv_quiet (hInv : LifetimeInv srv cfg) (hQuiet : cfg.Quiet store cfg')
    (hGuarded : store.Guarded (fun _ => .of Db.Issues .refl .trans) (Posts srv) cfg') :
    LifetimeInv srv cfg' := by
  have hIssued : cfg'.db.issued = cfg.db.issued := hQuiet.observe (fun s db => by cases s <;> rfl)
  have hSessions : cfg'.db.sessions = cfg.db.sessions :=
    hQuiet.observe (fun s db => by cases s <;> rfl)
  refine ⟨?_, ?_, ?_, ?_, ?_, hGuarded⟩
  · unfold Db.Traced
    rw [hIssued, hSessions]
    exact hInv.traced
  · rw [hSessions]
    exact hInv.sound
  · rw [hIssued]
    intro s hMem
    rcases hInv.roots s hMem with ⟨root, hRoot, hHash, hWithin, hOpened⟩
    exact ⟨root, hRoot, hHash, hWithin, hOpened.mono hQuiet.input⟩
  · rw [hIssued]
    exact hInv.distinct
  · intro i c token hReturned
    rw [hIssued]
    exact hInv.granted i c token (hQuiet.answered i c _ hReturned)

variable {a : Option String}

theorem Leaves.sound {c : SessionOp} {db db' : Db}
    (hLeaves : Leaves srv c db db' a) (hSound : ∀ s ∈ db.sessions.rows, s.Sound) :
    ∀ s ∈ db'.sessions.rows, s.Sound := by
  intro s' hRow
  cases hLeaves with
  | tame hReworks =>
    rcases hReworks.2 s' hRow with ⟨s, hMem, hFrom⟩
    exact hFrom.sound (hSound s hMem)
  | grants hDrawn hGrants hIssued hRows =>
    rcases hRows s' hRow with ⟨s, hMem, hFrom⟩ | rfl
    · exact hFrom.sound (hSound s hMem)
    · exact hGrants.sound

/- A commit, if its token is new. -/
theorem lifetimeInv_commit {i : Nat} {c : SessionOp}
    {t : Engine.Txn Stmt Resp Write Status (Option String)}
    {r : Except Status (Option String)} (hInv : LifetimeInv srv cfg)
    (hCall : cfg.Running i c t) (hProg : t.prog = .ret a)
    (hAnswer : r = .ok a ∨ r = .error store.broken) (hFresh : srv.drawsFresh cfg i = true)
    (hGuarded : store.Guarded (fun _ => .of Db.Issues .refl .trans) (Posts srv)
      (cfg.commit store i c t.writes r)) : LifetimeInv srv (cfg.commit store i c t.writes r) := by
  have hLeaves : Leaves srv c cfg.db (cfg.commit store i c t.writes r).db a :=
    (hInv.guarded.post hCall hProg).leaves
  have hIssues := hLeaves.issues
  have hInput : ∀ j c', cfg.input? j = some c' →
      (cfg.commit store i c t.writes r).input? j = some c' := by
    intro j c' hOld
    rw [Engine.input?_commit hCall]
    exact hOld
  have hOwn := hCall.input?_eq
  have hOld : ∀ j c' token, cfg.Returned j c' (.ok (some token)) →
      ∃ row ∈ (cfg.commit store i c t.writes r).db.issued,
      Grants srv (cfg.commit store i c t.writes r).db.issued c' token row := by
    intro j c' token hReturned
    rcases hInv.granted j c' token hReturned with ⟨row, hMem, hGrants⟩
    exact ⟨row, hIssues.issued row hMem, hGrants.mono hIssues.issued⟩
  have hKept : ∀ s ∈ cfg.db.issued, ∃ root ∈ (cfg.commit store i c t.writes r).db.issued,
      root.tokenHash = s.sessionID ∧ s.Within root ∧
      srv.OpenedBy (cfg.commit store i c t.writes r) root := by
    intro s hMem
    rcases hInv.roots s hMem with ⟨root, hRoot, hHash, hWithin, hOpened⟩
    exact ⟨root, hIssues.issued root hRoot, hHash, hWithin, hOpened.mono hInput⟩
  refine ⟨hIssues.traced hInv.traced, hLeaves.sound hInv.sound, ?_, ?_, ?_, hGuarded⟩
  · intro s hMem
    cases hLeaves with
    | tame hReworks =>
      rw [hReworks.1] at hMem
      exact hKept s hMem
    | grants hDrawn hGrants hIssued hRows =>
      rw [hIssued] at hMem
      rcases List.mem_append.mp hMem with hMem | hNew
      · exact hKept s hMem
      · rw [List.mem_singleton.mp hNew]
        rcases root_of_grants hInv hOwn hDrawn hGrants with ⟨root, hRoot, hHash, hWithin, hOpened⟩
        refine ⟨root, ?_, hHash, hWithin, hOpened.mono hInput⟩
        rw [hIssued]
        rcases hRoot with hRoot | rfl
        · exact List.mem_append_left _ hRoot
        · exact List.mem_append_right _ (List.mem_singleton_self _)
  · cases hLeaves with
    | tame hReworks =>
      rw [hReworks.1]
      exact hInv.distinct
    | grants hDrawn hGrants hIssued hRows =>
      rename_i token row
      have hNew : ∀ s ∈ cfg.db.issued, s.tokenHash ≠ row.tokenHash := by
        intro s hMem
        rw [hGrants.tokenHash]
        simp only [Service.drawsFresh, hOwn, Option.bind_some, hDrawn, Option.all_some,
          List.all_eq_true, decide_eq_true_eq] at hFresh
        exact hFresh s hMem
      rw [hIssued]
      intro s hMem s' hMem' hSame
      rcases List.mem_append.mp hMem with hMem | hLast
      · rcases List.mem_append.mp hMem' with hMem' | hLast'
        · exact hInv.distinct s hMem s' hMem' hSame
        · rw [List.mem_singleton.mp hLast'] at hSame
          exact absurd hSame (hNew s hMem)
      · rw [List.mem_singleton.mp hLast] at hSame ⊢
        rcases List.mem_append.mp hMem' with hMem' | hLast'
        · exact absurd hSame.symm (hNew s' hMem')
        · exact (List.mem_singleton.mp hLast').symm
  · intro j c' token hReturned
    rcases Engine.returned_commit hReturned with ⟨rfl, rfl, hSame⟩ | hBefore
    · rcases hAnswer with rfl | rfl
      · cases hSame
        cases hLeaves with
        | grants hDrawn hGrants hIssued hRows =>
          rename_i row
          refine ⟨row, ?_, hGrants.mono hIssues.issued⟩
          rw [hIssued]
          exact List.mem_append_right _ (List.mem_singleton_self row)
      · cases hSame
    · exact hOld j c' token hBefore

theorem lifetimeInv_step {a : Engine.Action SessionOp} (hInv : LifetimeInv srv cfg)
    (hFresh : srv.fresh cfg a = true) (hStep : store.step srv.operate cfg a = some cfg') :
    LifetimeInv srv cfg' := by
  have hGuarded : store.Guarded (fun _ => .of Db.Issues .refl .trans) (Posts srv) cfg' := by
    refine Engine.guarded_step (fun c => operate_wp srv c _ hInv.traced)
      (fun _ _ s db => issues_tick s db) ?_ hInv.guarded hStep
    intro i c t b j c' t' _ _ hCall hProg _
    exact (hInv.guarded.post hCall hProg).leaves.issues
  rcases Engine.step_quiet_or_commit hStep with hQuiet |
      ⟨i, c, t, b, r, hCall, hProg, hAction, hAnswer, rfl⟩
  · exact lifetimeInv_quiet hInv hQuiet hGuarded
  · have hNew : srv.drawsFresh cfg i = true := by
      rcases hAction with rfl | rfl
      · exact hFresh
      · exact hFresh
    exact lifetimeInv_commit hInv hCall hProg hAnswer hNew hGuarded

/- A token of a chain has a row with the end of its login. -/
theorem Service.Chain.row {env : Auth.Env} {token : String} (hInv : LifetimeInv srv cfg)
    (hChain : srv.Chain cfg env token) : ∃ s ∈ cfg.db.issued,
      s.tokenHash = srv.hashRefreshToken token ∧
      s.absoluteExpiresAt = timestamptz (env.accessNow + srv.refreshTTL) := by
  induction hChain with
  | opened hCall hOpens =>
    rcases hInv.granted _ _ _ hCall with ⟨row, hMem, hGrants⟩
    refine ⟨row, hMem, hGrants.tokenHash, ?_⟩
    cases hGrants with
    | opened hEnv =>
      cases hOpens.symm.trans hEnv
      rfl
    | rotated => cases hOpens
  | refreshed hChain hCall hPresents ih =>
    rcases ih with ⟨s, hRow, hHash, hEnd⟩
    rcases hInv.granted _ _ _ hCall with ⟨row, hMem, hGrants⟩
    refine ⟨row, hMem, hGrants.tokenHash, ?_⟩
    cases hGrants with
    | opened hEnv => cases hEnv
    | rotated hIssued hOld hWithin hNow =>
      obtain rfl := hInv.distinct _ hIssued s hRow (hOld.trans (hPresents.trans hHash.symm))
      show timestamptz _ = _
      rw [hWithin.absolute, hEnd, timestamptz_timestamptz]

/-
  Rows expire no later than their sessions, which end where the login or the exchange put it; rows
  of one session are of one user; replaced rows are revoked; and no chain of refreshes gets past the
  end.
-/
theorem sessions_end_in_time (srv : Service) (db : Db) (hSessions : db.sessions.rows = [])
    (hIssued : db.issued = []) (schedule : List (Engine.Action SessionOp)) (cfg : OpConfig)
    (hRun : Transition.run (store.step srv.operate) (OpConfig.start db) schedule = some cfg)
    (hFresh : Transition.Meets (store.step srv.operate) (fun cfg a => srv.fresh cfg a = true)
      (OpConfig.start db) schedule) :
    (∀ s ∈ cfg.db.sessions.rows, s.expiresAt ≤ s.absoluteExpiresAt ∧
      (s.replacedByHash ≠ none → s.revokedAt ≠ none) ∧ srv.OpenedBy cfg s) ∧
      (∀ s ∈ cfg.db.sessions.rows, ∀ s' ∈ cfg.db.sessions.rows, s.sessionID = s'.sessionID →
      s.userID = s'.userID ∧ s.absoluteExpiresAt = s'.absoluteExpiresAt) ∧
      ∀ env token, srv.Chain cfg env token → ∀ i req md env' token',
      cfg.Returned i (.refreshToken req md env') (.ok (some token')) →
      srv.presented req = srv.hashRefreshToken token →
      env'.now ≤ env.accessNow + srv.refreshTTL := by
  have hStart : LifetimeInv srv (OpConfig.start db) := by
    refine ⟨?_, ?_, ?_, ?_, nofun, nofun⟩
    · intro s hMem
      rw [show (OpConfig.start db).db.sessions.rows = [] from hSessions] at hMem
      cases hMem
    · rw [show (OpConfig.start db).db.sessions.rows = [] from hSessions]
      exact nofun
    · rw [show (OpConfig.start db).db.issued = [] from hIssued]
      exact nofun
    · rw [show (OpConfig.start db).db.issued = [] from hIssued]
      exact nofun
  have hInv : LifetimeInv srv cfg :=
    Transition.run_induction_of_meets (fun _ _ _ hInv hNew hStep =>
      lifetimeInv_step hInv hNew hStep) hStart hFresh hRun
  have hRoot : ∀ s ∈ cfg.db.sessions.rows, ∃ root ∈ cfg.db.issued,
      root.tokenHash = s.sessionID ∧ s.Within root ∧ srv.OpenedBy cfg root := by
    intro s hRow
    rcases hInv.traced s hRow with ⟨s₀, hMem, _, hWithin⟩
    rcases hInv.roots s₀ hMem with ⟨root, hRoot, hHash, hSame, hOpened⟩
    exact ⟨root, hRoot, hHash.trans hWithin.sessionID.symm, hWithin.trans hSame, hOpened⟩
  refine ⟨?_, ?_, ?_⟩
  · intro s hRow
    rcases hRoot s hRow with ⟨root, _, _, hWithin, hOpened⟩
    have hSound := hInv.sound s hRow
    exact ⟨hSound.expires, hSound.replaced, hOpened.within hWithin⟩
  · intro s hRow s' hRow' hSame
    rcases hRoot s hRow with ⟨root, hMem, hHash, hWithin, _⟩
    rcases hRoot s' hRow' with ⟨root', hMem', hHash', hWithin', _⟩
    obtain rfl := hInv.distinct root hMem root' hMem' (hHash.trans (hSame.trans hHash'.symm))
    exact ⟨hWithin.userID.trans hWithin'.userID.symm, hWithin.absolute.trans hWithin'.absolute.symm⟩
  · intro env token hChain i req md env' token' hCall hPresents
    rcases hChain.row hInv with ⟨s, hRow, hHash, hEnd⟩
    rcases hInv.granted _ _ _ hCall with ⟨row, _, hGrants⟩
    cases hGrants with
    | opened hEnv => cases hEnv
    | rotated hMem hOld hWithin hNow =>
      obtain rfl := hInv.distinct _ hMem s hRow (hOld.trans (hPresents.trans hHash.symm))
      rw [hEnd] at hNow
      exact hNow.trans (timestamptz_le _)

/- A user that can log in. -/
def Db.loginUser : Db :=
  { Db.empty with
    users := (Table.empty User.id).insert ⟨"u", "u@mail", "U", "secret"⟩
    roles := (Table.empty Named.id).insert ⟨"r", "user"⟩
    userRoles := [("u", "r")] }

/- A login at 0, and a refresh half a day later. -/
def loginAndRefresh : List (Engine.Action SessionOp) :=
  [.start (.login ⟨"u@mail", "secret"⟩ Metadata.none (Env.drawing 0 "t0")),
    .exec 0, .exec 0, .exec 0, .exec 0, .exec 0, .exec 0, .finish 0,
    .start (.refreshToken "t0" Metadata.none (Env.drawing 43200000000000 "t1")),
    .exec 1, .exec 1, .exec 1, .finish 1]

theorem refreshed_session_ends_in_time : ∃ cfg,
    Transition.run (store.step Service.plain.operate) (OpConfig.start Db.loginUser)
      loginAndRefresh = some cfg ∧
      cfg.db.sessions.rows.map Session.expiresAt = [86400000000000, 86400000000000] ∧
      ∀ s ∈ cfg.db.sessions.rows, s.expiresAt ≤ s.absoluteExpiresAt := by
  have hRows : (Transition.run (store.step Service.plain.operate) (OpConfig.start Db.loginUser)
      loginAndRefresh).map (fun cfg => cfg.db.sessions.rows.map Session.expiresAt) =
        some [86400000000000, 86400000000000] := by
    decide +kernel
  rcases Option.map_eq_some_iff.mp hRows with ⟨cfg, hRun, hEnds⟩
  refine ⟨cfg, hRun, hEnds, ?_⟩
  intro s hRow
  exact ((sessions_end_in_time Service.plain Db.loginUser rfl rfl loginAndRefresh cfg hRun
    (by decide +kernel)).1 s hRow).1

end Fincore.AuthService
