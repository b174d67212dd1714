import Fincore.Auth.Accounts
import Fincore.Auth.Codes

/-
  What the calls on sessions commit, whatever the others do in between.

  A postcondition names the database in which the call has read the row it acts on; the rely leads
  from the start to it, and from it to the commit.

  Key definitions include:
    * `Service.root`
    * `Refreshed`, `Exchanged` and `LoggedIn`

  Main results:
    * `refreshToken_wp`
    * `oauthToken_wp`
    * `login_wp`
    * `revokeAll_wp`
-/

----
-- Postconditions
----

namespace Fincore.AuthService

open Auth

/- The session that a login or an exchange opens. -/
def Service.root (srv : Service) (env : Auth.Env) (userID refresh : String)
    (userAgent ip : Option String) : Session :=
  Session.opened (srv.hashRefreshToken refresh)
    (srv.hashRefreshToken refresh) userID (env.accessNow + srv.refreshTTL)
    (env.accessNow + srv.refreshTTL) userAgent ip

section

variable (r : Db → Db → Prop) (srv : Service) (md : Metadata) (env : Auth.Env)

/- A token was rotated whose row was read in `before`. -/
structure Refreshed (req : String) (start db : Db) (ws : List Write)
    (rotation : Rotation) (before : Db) (s : Session) : Prop where
  reached : r start before
  left : r before db
  row : s ∈ before.sessions.rows
  hash : s.tokenHash = srv.presented req
  live : s.Live
  expires : env.now ≤ s.expiresAt
  absolute : env.now ≤ s.absoluteExpiresAt
  drawn : env.random = .ok rotation.refreshToken
  user : rotation.userID = s.userID
  writes : ∃ first, ws = first ++ [.core (.insertSession
        (srv.successor md env s rotation.refreshToken))] ∧
      ∀ w ∈ first, w = .core (srv.rotateWrite req md env rotation.refreshToken)

/- A code was exchanged whose row was read in `before`. -/
structure Exchanged (req : TokenRequest) (start db : Db) (ws : List Write)
    (res : TokenResponse) (before : Db) (c : Code) : Prop where
  reached : r start before
  left : r before db
  row : c ∈ before.codes.rows
  hash : c.codeHash = srv.sha256 (trimSpace req.code)
  drawn : env.random = .ok res.refreshToken
  writes : ∃ first, ws = first ++ [.core (.insertSession
        (srv.root env c.userID res.refreshToken none none))] ∧
      ∀ w ∈ first, w = .core (.consumeCode c.codeHash (timestamptz env.now))

/- A user has logged in whose row was read in `before`. -/
structure LoggedIn (req : LoginRequest) (start : Db) (ws : List Write)
    (tokens : Tokens) (before : Db) (user : User) : Prop where
  reached : r start before
  row : user ∈ before.users.rows
  email : srv.normalizeEmail req.email = .ok user.email
  password : srv.verifyPassword (trimSpace req.password) user.passwordHash = .ok true
  drawn : env.random = .ok tokens.refreshToken
  writes : ws = [.core (.insertSession
      (srv.root env user.id tokens.refreshToken (nullIfEmpty (clientMetaFromContext md).1)
        (nullIfEmpty (clientMetaFromContext md).2)))]

end

----
-- Steps That The Calls Share
----

variable {α : Type} {r : Db → Db → Prop} {hRefl : ∀ db, r db db}
variable {hTrans : ∀ db₁ db₂ db₃, r db₁ db₂ → r db₂ db₃ → r db₁ db₃}
variable {Q : Db → List Write → α → Prop} {began : Nat} {db : Db} {ws : List Write}

theorem lift_bind {β : Type} (p : Auth.Tx α) (f : α → Auth.Tx β) :
    lift (p >>= f) = lift p >>= fun a => lift (f a) := Prog.embed_bind p f

theorem lift_ofExcept (x : Except Status α) : lift (Prog.ofExcept x) = Prog.ofExcept x := by
  cases x with
  | error e => rfl
  | ok a => rfl

theorem roles_wp {userID : String} {f : List String × List String → Tx α}
    (hNext : ∀ x db', r db db' → store.Wp (.of r hRefl hTrans) Q began (f x) ws db') :
    store.Wp (.of r hRefl hTrans) Q began (lift (getRolesAndPermissions userID) >>= f) ws db := by
  intro db₁ hRely₁ roles ws₁ hExec₁
  cases hExec₁
  intro db₂ hRely₂ perms ws₂ hExec₂
  cases hExec₂
  rw [List.map_nil, List.append_nil, List.append_nil]
  show store.Wp _ Q began
    (lift (if (store.view db₁ ws).auth.roles userID = [] then
      Prog.fail _ else Prog.ret (_, _)) >>= f) ws db₂
  split
  · trivial
  · exact hNext _ db₂ (hTrans _ _ _ hRely₁ hRely₂)

----
-- Rotations
----

variable {r : Db → Db → Prop} (hRefl : ∀ db, r db db)
variable (hTrans : ∀ db₁ db₂ db₃, r db₁ db₂ → r db₂ db₃ → r db₁ db₃)
variable (srv : Service) (md : Metadata) (env : Auth.Env) (began : Nat)

theorem exec_rotateSession {db : Db} {ws : List Write} {u : Unit}
    {h newHash : String} {now : Time} {userAgent ip : Option String}
    (hExec : (Stmt.core (.rotateSession h now newHash userAgent ip)).exec db = .ok (u, ws)) :
    ∀ w ∈ ws, w = .core (.rotateSession h (timestamptz now) newHash userAgent ip) := by
  intro w hMem
  rcases exec_core hExec with ⟨ws', rfl, hCore⟩
  cases hCore
  rcases List.mem_map.mp hMem with ⟨w', hMem', rfl⟩
  rw [mem_change hMem']

theorem exec_insertSession {db : Db} {ws : List Write} {u : Unit} {row : Session}
    (hExec : (Stmt.core (.insertSession row)).exec db = .ok (u, ws)) :
    db.sessions.lookup row.tokenHash = none ∧ ws = [.core (.insertSession row)] := by
  rcases exec_core hExec with ⟨ws', rfl, hCore⟩
  rcases Auth.Stmt.exec_insertSession hCore with ⟨_, hFree, rfl⟩
  exact ⟨hFree, rfl⟩

/- A row that is rotated was live and in time when read. -/
theorem refreshRow_wp {req : String} {start before : Db}
    (hReached : r start before) {s : Session} (hRow : s ∈ before.sessions.rows)
    (hHash : s.tokenHash = srv.presented req) : store.Wp (.of r hRefl hTrans)
      (fun db ws a =>
      ∃ before s, Refreshed r srv md env req start db ws a before s)
      began (lift (srv.refreshRow req md env (some s))) []
      before := by
  unfold Server.refreshRow
  dsimp only
  split
  · exact Engine.Wp.of_fails (rejecting_reuse _ _ _).1.embed _ _
  rename_i hLive
  split
  · exact Engine.Wp.of_fails (rejecting_expired _ _).1.embed _ _
  split
  · exact Engine.Wp.of_fails (rejecting_expired _ _).1.embed _ _
  rename_i hExpires hAbsolute
  unfold Server.rotate
  rw [lift_bind, lift_ofExcept]
  cases hToken : env.token with
  | error e => trivial
  | ok newRefresh =>
    rw [Prog.ofExcept_ok, Prog.ret_bind]
    -- the old row
    intro db₁ hRely₁ _ ws₁ hExec₁
    have hRotated := exec_rotateSession hExec₁
    -- the new row
    intro db₂ hRely₂ _ ws₂ hExec₂
    rcases exec_insertSession hExec₂ with ⟨_, rfl⟩
    intro db₃ hRely₃
    refine ⟨before, s, ?_⟩
    exact {
      reached := hReached
      left := hTrans _ _ _ hRely₁ (hTrans _ _ _ hRely₂ hRely₃)
      row := hRow
      hash := hHash
      live := not_not.mp hLive
      expires := not_lt.mp hExpires
      absolute := not_lt.mp hAbsolute
      drawn := Auth.Env.token_ok hToken
      user := rfl
      writes := ⟨ws₁, rfl, hRotated⟩ }

theorem refreshToken_wp (req : String) (db : Db) : store.Wp (.of r hRefl hTrans)
      (fun db' ws a =>
      ∃ before s, Refreshed r srv md env req db db' ws a before s)
      began (lift (srv.refreshToken req md env)) [] db := by
  unfold Server.refreshToken
  split
  · trivial
  intro before hReached row ws₁ hExec₁
  cases hExec₁
  show store.Wp _ _ began (lift (srv.refreshRow req md env
    (before.sessions.lookup (srv.presented req)))) [] before
  cases hFound : before.sessions.lookup (srv.presented req) with
  | none => trivial
  | some s =>
    rcases Table.lookup_eq_some_iff.mp hFound with ⟨hRow, hHash⟩
    exact refreshRow_wp hRefl hTrans srv md env began hReached hRow hHash

----
-- New Sessions
----

variable {h : String}

theorem mem_consumeCode {db : AuthDb} {ws : List Auth.Write} {w : Auth.Write} {now : Time} {n : Nat}
    (hExec : (Auth.Stmt.consumeCode h now).exec db = .ok (n, ws))
    (hMem : w ∈ ws) : w = .consumeCode h (timestamptz now) := by
  simp only [Auth.Stmt.exec] at hExec
  split at hExec
  · split at hExec
    · cases hExec
      exact List.mem_singleton.mp hMem
    · cases hExec
      cases hMem
  · cases hExec
    cases hMem

variable {userID : String}

theorem issueTokens_wp {Q : Db → List Write → TokenResponse → Prop} {ws : List Write} {db : Db}
    (hDone : ∀ db' res, r db db' → env.random = .ok res.refreshToken →
    Q db' (ws ++ [.core (.insertSession (srv.root env userID res.refreshToken none none))]) res) :
    store.Wp (.of r hRefl hTrans) Q began (lift (srv.issueTokens env userID)) ws db := by
  unfold Server.issueTokens
  rw [lift_bind]
  refine roles_wp ?_
  rintro ⟨roles, perms⟩ db₁ hRely₁
  dsimp only
  rw [lift_bind, lift_ofExcept]
  cases srv.accessToken env userID roles perms with
  | error e => trivial
  | ok access =>
    rw [Prog.ofExcept_ok, Prog.ret_bind, lift_bind, lift_ofExcept]
    cases hToken : env.token with
    | error e => trivial
    | ok refresh =>
      rw [Prog.ofExcept_ok, Prog.ret_bind]
      intro db₂ hRely₂ _ ws₂ hExec₂
      rcases exec_insertSession hExec₂ with ⟨_, rfl⟩
      intro db₃ hRely₃
      have hRely : r db db₃ := hTrans _ _ _ hRely₁ (hTrans _ _ _ hRely₂ hRely₃)
      exact hDone db₃ ⟨access, "bearer", srv.accessTTL.tdiv 1000000000, refresh⟩
        hRely (Auth.Env.token_ok hToken)

theorem oauthToken_wp (req : TokenRequest) (db : Db) : store.Wp (.of r hRefl hTrans)
      (fun db' ws res =>
      ∃ before c, Exchanged r srv env req db db' ws res before c)
      began (lift (srv.oauthToken req md env)) [] db := by
  show store.Wp _ _ began (lift (srv.exchange ⟨req, md, env⟩)) [] db
  rcases srv.exchange_eq ⟨req, md, env⟩ with ⟨e, hFail⟩ | ⟨id, hAsk⟩
  · rw [hFail]
    trivial
  rw [hAsk]
  -- the client
  intro db₁ hRely₁ row ws₁ hExec₁
  cases hExec₁
  show store.Wp _ _ began (lift (withClient (srv.exchangeFor (srv.tokenArgs req md) md env)
    (db₁.clients.lookup id))) [] db₁
  have hClient := srv.withClient_eq ⟨req, md, env⟩ (db₁.clients.lookup id)
  dsimp only at hClient
  rcases hClient with ⟨e, hFail⟩ | ⟨clientID, hRead⟩
  · rw [hFail]
    trivial
  rw [hRead]
  -- the code
  intro before hRely₂ row ws₂ hExec₂
  rcases exec_core (s := .selectCode
      (srv.presentedCode ⟨req, md, env⟩) clientID) hExec₂ with ⟨ws₂, rfl, hCore⟩
  rcases Server.redeem_eq (c := ⟨req, md, env⟩) hCore with
    ⟨rfl, ⟨e, hFail⟩ | ⟨c, hRow, hHash, _, _, hNext⟩⟩
  · show store.Wp _ _ began (lift (srv.redeem (srv.tokenArgs req md) env row)) _ _
    rw [hFail]
    trivial
  show store.Wp _ _ began (lift (srv.redeem (srv.tokenArgs req md) env row)) _ _
  rw [hNext]
  -- it is consumed
  intro db₃ hRely₃ n ws₃ hExec₃
  rcases exec_core (s := .consumeCode (srv.presentedCode ⟨req, md, env⟩) env.now) hExec₃ with
    ⟨ws₃, rfl, hConsumed⟩
  refine issueTokens_wp hRefl hTrans srv env began ?_
  intro db₄ res hRely₄ hDrawn
  refine ⟨before, c, ?_⟩
  exact {
    reached := hTrans _ _ _ hRely₁ hRely₂
    left := hTrans _ _ _ hRely₃ hRely₄
    row := hRow
    hash := hHash
    drawn := hDrawn
    writes := by
      refine ⟨ws₃.map Write.core, rfl, ?_⟩
      intro w hMem
      rcases List.mem_map.mp hMem with ⟨w', hMem', rfl⟩
      rw [hHash, mem_consumeCode hConsumed hMem'] }

/- The session of a login, after what it has read. -/
theorem openSession_wp {Q : Db → List Write → Tokens → Prop} {db : Db}
    (hDone : ∀ db' tokens, r db db' → env.random = .ok tokens.refreshToken →
    Q db' [.core (.insertSession
    (srv.root env userID tokens.refreshToken (nullIfEmpty (clientMetaFromContext md).1)
    (nullIfEmpty (clientMetaFromContext md).2)))] tokens) :
    store.Wp (.of r hRefl hTrans) Q began (srv.openSession md env userID) [] db := by
  unfold Service.openSession
  refine roles_wp ?_
  rintro ⟨roles, perms⟩ db₁ hRely₁
  dsimp only
  cases srv.accessToken env userID roles perms with
  | error e => trivial
  | ok access =>
    rw [Prog.ofExcept_ok, Prog.ret_bind]
    cases hToken : env.token with
    | error e => trivial
    | ok refresh =>
      rw [Prog.ofExcept_ok, Prog.ret_bind]
      intro db₂ hRely₂ _ ws₂ hExec₂
      rcases exec_insertSession hExec₂ with ⟨_, rfl⟩
      intro db₃ hRely₃
      have hRely : r db db₃ := hTrans _ _ _ hRely₁ (hTrans _ _ _ hRely₂ hRely₃)
      exact hDone db₃ ⟨access, refresh, srv.accessTTL.tdiv 1000000000⟩
        hRely (Auth.Env.token_ok hToken)

theorem fails_refuseLogin (key : String) (env : Auth.Env) :
    (refuseLogin key env).Fails := fun _ => trivial

theorem login_wp (hTick : ∀ s db, r db (store.tick s db)) (req : LoginRequest)
    (db : Db) : store.Wp (.of r hRefl hTrans)
      (fun _ ws tokens =>
      ∃ before user, LoggedIn r srv md env req db ws tokens before user)
      began (srv.login req md env) [] db := by
  unfold Service.login
  cases hEmail : srv.normalizeEmail req.email with
  | error e => trivial
  | ok email =>
    rw [Prog.ofExcept_ok, Prog.ret_bind]
    dsimp only
    split
    · trivial
    -- the limiter
    intro db₁ hRely₁ (allowed : Bool) ws₁ hExec₁
    obtain rfl : ws₁ = [] := by
      cases hExec₁
      rfl
    show store.Wp _ _ began (if ¬ allowed then _ else _) [] _
    split
    · trivial
    -- the user
    intro before hRely₂ row ws₂ hExec₂
    cases hExec₂
    have hReached : r db before := hTrans _ _ _ hRely₁ (hTrans _ _ _ (hTick _ _) hRely₂)
    show store.Wp _ _ began (srv.loginAs _ _ md env (before.users.rows.find? _)) [] _
    cases hFound : before.users.rows.find? (fun u =>
        decide (u.email = email)) with
    | none =>
      exact Engine.Wp.of_fails (fails_refuseLogin _ _) _ _
    | some user =>
      unfold Service.loginAs
      dsimp only
      split
      · trivial
      · exact Engine.Wp.of_fails (fails_refuseLogin _ _) _ _
      · rename_i hPassword
        -- the limiter forgets the key
        intro db₃ hRely₃ _ ws₃ hExec₃
        cases hExec₃
        refine openSession_wp hRefl hTrans srv md env began ?_
        intro db₄ tokens _ hDrawn
        refine ⟨before, user, ?_⟩
        exact {
          reached := hReached
          row := List.mem_of_find?_eq_some hFound
          email := by
            rw [hEmail]
            have hSame := List.find?_some hFound
            rw [of_decide_eq_true hSame]
          password := hPassword
          drawn := hDrawn
          writes := rfl }

----
-- Revocations
----

variable (now : Time)

theorem exec_revokeUnrevoked {db : Db} {ws : List Write} {n : Nat}
    (hExec : (Stmt.core (.revokeUnrevoked h now)).exec db = .ok (n, ws)) :
    ∀ w ∈ ws, w = .core (.setRevoked h (timestamptz now)) := by
  intro w hMem
  rcases exec_core hExec with ⟨ws', rfl, hCore⟩
  rcases List.mem_map.mp hMem with ⟨w', hMem', rfl⟩
  rw [(Auth.Stmt.exec_revokeUnrevoked hCore).1 w' hMem']

/- One row after the other: what is written is theirs. -/
theorem revokeEach_wp (hashes : List String) {Q : Db → List Write → Nat → Prop}
    {ws : List Write} {db : Db}
    (hDone : ∀ db' new n, r db db' →
    (∀ w ∈ new, ∃ h ∈ hashes, w = .core (.setRevoked h (timestamptz now))) →
    Q db' (ws ++ new) n) : store.Wp (.of r hRefl hTrans) Q began
    (lift (revokeEach now hashes)) ws db := by
  induction hashes generalizing Q ws db with
  | nil =>
    intro db' hRely
    have hNone := hDone db' [] 0 hRely (fun w hMem => absurd hMem List.not_mem_nil)
    rw [List.append_nil] at hNone
    exact hNone
  | cons h hashes ih =>
    intro db₁ hRely₁ (n : Nat) ws₁ hExec₁
    have hRevoked := exec_revokeUnrevoked now hExec₁
    show store.Wp _ Q began
      (lift (revokeEach now hashes >>= fun m =>
        Prog.ret (n + m))) (ws ++ ws₁) db₁
    rw [lift_bind]
    refine Engine.Wp.map (fun m => n + m) (ih ?_)
    intro db₂ new m hRely₂ hNew
    rw [List.append_assoc]
    refine hDone db₂ (ws₁ ++ new) (n + m) (hTrans _ _ _ hRely₁ hRely₂) ?_
    intro w hMem
    rcases List.mem_append.mp hMem with hMem | hMem
    · exact ⟨h, List.mem_cons_self, hRevoked w hMem⟩
    · rcases hNew w hMem with ⟨h', hOther, hWrite⟩
      exact ⟨h', List.mem_cons_of_mem h hOther, hWrite⟩

/- What is revoked is what the user had when it began. -/
theorem revokeAll_wp (userID : String) (db : Db) : store.Wp (.of r hRefl hTrans)
      (fun db' ws _ =>
      ∃ before, r db before ∧ r before db' ∧ ∀ w ∈ ws, ∃ s ∈ before.sessions.rows,
      s.userID = userID ∧ s.revokedAt = none ∧
      w = .core (.setRevoked s.tokenHash (timestamptz now)))
      began (lift (revokeAll userID now)) [] db := by
  intro before hReached hashes ws₁ hExec₁
  cases hExec₁
  refine revokeEach_wp hRefl hTrans began now _ ?_
  intro db' new n hLeft hNew
  refine ⟨before, hReached, hLeft, ?_⟩
  intro w hMem
  rcases hNew w hMem with ⟨h, hHash, hWrite⟩
  rcases List.mem_map.mp hHash with ⟨s, hRow, rfl⟩
  rcases List.mem_filter.mp hRow with ⟨hMem', hUser⟩
  rcases of_decide_eq_true hUser with ⟨hUser, hLive⟩
  exact ⟨s, hMem', hUser, hLive, hWrite⟩

end Fincore.AuthService
