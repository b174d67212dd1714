import Fincore.Auth.Consents
import Fincore.Auth.Exchange
import Fincore.Auth.Specs

/-
  Whose rows a call changes.

  A call that is not the admin's leaves the clients and the roles of existing users alone, and
  changes rows of a user only if it presents something of this user's: the password, an access
  token, a refresh token or a code. Two calls do not keep to it: `StoreOAuthConsent` takes the user
  from the request, and `LogoutAll` trims the user of the token.

  Key definitions include:
    * `Db.about`
    * `Framed`
    * `Service.Presents`
    * `Service.Intrudes`

  Main results:
    * `Kept.view`
    * `framed_of_not_intrudes`
    * `not_framed_of_intrudes`
    * `rows_framed_iff`
-/

----
-- Rows And Credentials
----

namespace Fincore.AuthService

open Auth

/- The rows of a user. -/
def Db.about (db : Db) (v : String) : List Session × List Code × List Consent × List ConsentEntry :=
  (db.sessions.rows.filter (fun s => decide (s.userID = v)),
    db.codes.rows.filter (fun c => decide (c.userID = v)),
    db.consents.rows.filter (fun c => decide (c.userID = v)),
    db.history.filter (fun e => decide (e.userID = v)))

/- Nothing changes but rows of users that `P` is true of. -/
structure Framed (P : String → Prop) (db db' : Db) : Prop where
  clients : db'.clients = db.clients
  roles : ∀ user ∈ db.users.rows, db'.userRoles.filter
          (fun ur => decide (ur.1 = user.id)) = db.userRoles.filter
          (fun ur => decide (ur.1 = user.id))
  rows : ∀ v, ¬ P v → db'.about v = db.about v

/- The access token that a request has in its body. -/
def Rpc.accessToken? : Rpc → Option String
| .logoutAll token => some token
| .validateToken token => some token
| _ => none

/- An access token of the request verifies as the user's. -/
def Service.PresentsToken (srv : Service) (c : Incoming) (v : String) : Prop :=
  srv.VerifiedAs c.md c.env.now v ∨ ∃ token payload,
      (token = srv.bearerToken c.md ∨ c.rpc.accessToken?.map trimSpace = some token) ∧
      srv.verifyToken c.env.now token = .ok payload ∧ payload.userID = v

/- The request presents a credential of the user. -/
def Service.Presents (srv : Service) (c : Incoming) (db : Db) (v : String) : Prop :=
  srv.PresentsToken c v ∨
    match c.rpc with
    | .login req =>
      ∃ user ∈ db.users.rows, user.id = v ∧ srv.normalizeEmail req.email = .ok user.email ∧
        srv.verifyPassword (trimSpace req.password) user.passwordHash = .ok true
    | .refreshToken token =>
      ∃ s ∈ db.sessions.rows, s.tokenHash = srv.presented token ∧ s.userID = v
    | .logout token =>
      ∃ s ∈ db.sessions.rows, s.tokenHash = srv.presented token ∧ s.userID = v
    | .oauthToken req =>
      ∃ code ∈ db.codes.rows, code.codeHash = srv.sha256 (trimSpace req.code) ∧ code.userID = v
    | _ => False

/-
  A consent is stored for a user who has not presented anything, or sessions are revoked of such a
  user.
-/
def Service.Intrudes (srv : Service) (c : Incoming) (db : Db) : Prop :=
  match c.rpc with
  | .storeOAuthConsent req began =>
    ¬ srv.Presents c db (trimSpace req.userID) ∧ db.Stores req began
  | .logoutAll token =>
    ∃ userID, srv.logoutUser token c.md c.env = .ok userID ∧
      ¬ srv.Presents c db userID ∧ ∃ s ∈ db.sessions.rows, s.userID = userID ∧ s.revokedAt = none
  | _ => False

----
-- Frames
----

variable {P : String → Prop} {db db' db'' : Db}

/- The tables, without the limiter. -/
def Db.tables (db : Db) : Db :=
  { db with limiter := none, issued := [] }

theorem tables_tick (s : Stmt) (db : Db) : (store.tick s db).tables = db.tables := by
  cases s with
  | _ => rfl

theorem eq_of_tables {β : Type} (f : Db → β) (hTables : db'.tables = db.tables)
    (hSame : ∀ db : Db, f db.tables = f db) : f db' = f db := by
  rw [← hSame db', hTables, hSame]

/- A frame, and from which row every row comes. -/
structure Kept (P : String → Prop) (db db' : Db) : Prop extends Framed P db db' where
  sessions : ∀ s' ∈ db'.sessions.rows, P s'.userID ∨ ∃ s ∈ db.sessions.rows,
        s.tokenHash = s'.tokenHash ∧ s.userID = s'.userID
  codes : ∀ c' ∈ db'.codes.rows, P c'.userID ∨ ∃ c ∈ db.codes.rows,
        c.codeHash = c'.codeHash ∧ c.userID = c'.userID

theorem Kept.of_tables (hTables : db'.tables = db.tables) : Kept P db db' := by
  rcases db with ⟨⟩
  rcases db' with ⟨⟩
  cases hTables
  exact {
    clients := rfl
    roles := fun _ _ => rfl
    rows := fun _ _ => rfl
    sessions := fun s hRow => Or.inr ⟨s, hRow, rfl, rfl⟩
    codes := fun c hRow => Or.inr ⟨c, hRow, rfl, rfl⟩ }

theorem Framed.of_tables (hFramed : Framed P db db')
    (hTables : db''.tables = db'.tables) : Framed P db db'' := by
  rcases db' with ⟨⟩
  rcases db'' with ⟨⟩
  cases hTables
  exact ⟨hFramed.clients, hFramed.roles, hFramed.rows⟩

/- A write touches rows of such users only. -/
def Spares (P : String → Prop) (db : Db) : Auth.Write → Prop
| .coalesceRevoked h _ =>
  ∀ s ∈ db.sessions.rows, s.tokenHash = h → P s.userID
| .setRevoked h _ =>
  ∀ s ∈ db.sessions.rows, s.tokenHash = h → P s.userID
| .rotateSession h _ _ _ _ =>
  ∀ s ∈ db.sessions.rows, s.tokenHash = h → P s.userID
| .insertSession row => P row.userID
| .insertCode row => P row.userID
| .consumeCode h _ =>
  ∀ c ∈ db.codes.rows, c.codeHash = h → P c.userID
| .insertClient _ => False
| .deleteClient _ => False

theorem Kept.modifySession {h : String} {f : Session → Session}
    (hKey : ∀ s : Session, (f s).tokenHash = s.tokenHash)
    (hUser : ∀ s : Session, (f s).userID = s.userID)
    (hSpares : ∀ s ∈ db.sessions.rows, s.tokenHash = h → P s.userID)
    (hKept : Kept P db db') : Kept P db { db' with sessions := db'.sessions.modify h f hKey } := by
  have hOwned : ∀ s ∈ db'.sessions.rows, s.tokenHash = h → P s.userID := by
    intro s hRow hHash
    rcases hKept.sessions s hRow with hP | ⟨old, hOld, hSame, hOwner⟩
    · exact hP
    · rw [← hOwner]
      exact hSpares old hOld (hSame.trans hHash)
  refine { hKept with rows := ?_, sessions := ?_ }
  · intro v hOther
    rw [← hKept.rows v hOther]
    refine Prod.ext ?_ rfl
    refine Table.filter_modify hKey ?_
    intro s hRow hHash
    have hNot : s.userID ≠ v := by
      intro hSame
      rw [← hSame] at hOther
      exact hOther (hOwned s hRow hHash)
    simp [hUser, hNot]
  · intro s' hRow
    dsimp only at hRow
    rw [Table.mem_modify] at hRow
    rcases hRow with ⟨s, hOld, rfl⟩
    split
    · rw [hUser, hKey]
      exact hKept.sessions s hOld
    · exact hKept.sessions s hOld

theorem Kept.modifyCode {h : String} {f : Code → Code}
    (hKey : ∀ c : Code, (f c).codeHash = c.codeHash) (hUser : ∀ c : Code, (f c).userID = c.userID)
    (hSpares : ∀ c ∈ db.codes.rows, c.codeHash = h → P c.userID)
    (hKept : Kept P db db') : Kept P db { db' with codes := db'.codes.modify h f hKey } := by
  refine { hKept with rows := ?_, codes := ?_ }
  · intro v hOther
    rw [← hKept.rows v hOther]
    refine Prod.ext rfl (Prod.ext ?_ rfl)
    refine Table.filter_modify hKey ?_
    intro c hRow hHash
    have hNot : c.userID ≠ v := by
      rintro rfl
      rcases hKept.codes c hRow with hP | ⟨old, hOld, hSame, hOwner⟩
      · exact hOther hP
      · rw [← hOwner] at hOther
        exact hOther (hSpares old hOld (hSame.trans hHash))
    simp [hUser, hNot]
  · intro c' hRow
    dsimp only at hRow
    rw [Table.mem_modify] at hRow
    rcases hRow with ⟨c, hOld, rfl⟩
    split
    · rw [hUser, hKey]
      exact hKept.codes c hOld
    · exact hKept.codes c hOld

/- One more write on rows of such users. -/
theorem Kept.core {w : Auth.Write} (hSpares : Spares P db w)
    (hKept : Kept P db db') : Kept P db ((Write.core w).apply db') := by
  cases w with
  | coalesceRevoked h at_ =>
    exact hKept.modifySession (f := Session.coalesceRevoked at_)
      (fun _ => rfl) (fun _ => rfl) hSpares
  | setRevoked h at_ =>
    exact hKept.modifySession (f := Session.setRevoked at_) (fun _ => rfl) (fun _ => rfl) hSpares
  | rotateSession h at_ newHash userAgent ip =>
    exact hKept.modifySession (f := Session.rotate at_ newHash userAgent ip)
      (fun _ => rfl) (fun _ => rfl) hSpares
  | insertSession row =>
    refine { hKept with rows := ?_, sessions := ?_ }
    · intro v hOther
      rw [← hKept.rows v hOther]
      have hNot : row.userID ≠ v := by
        rintro rfl
        exact hOther hSpares
      exact Prod.ext (Table.filter_insert (by simp [hNot])) rfl
    · intro s hRow
      rcases Table.mem_of_mem_insert hRow with hOld | rfl
      · exact hKept.sessions s hOld
      · exact Or.inl hSpares
  | insertCode row =>
    refine { hKept with rows := ?_, codes := ?_ }
    · intro v hOther
      rw [← hKept.rows v hOther]
      have hNot : row.userID ≠ v := by
        rintro rfl
        exact hOther hSpares
      exact Prod.ext rfl (Prod.ext (Table.filter_insert (by simp [hNot])) rfl)
    · intro c hRow
      rcases Table.mem_of_mem_insert hRow with hOld | rfl
      · exact hKept.codes c hOld
      · exact Or.inl hSpares
  | consumeCode h at_ =>
    exact hKept.modifyCode (f := Code.consume at_) (fun _ => rfl) (fun _ => rfl) hSpares
  | insertClient row => exact hSpares.elim
  | deleteClient id => exact hSpares.elim

variable {ws : List Write}

theorem Kept.view (hSpares : ∀ w ∈ ws, ∃ w', w = .core w' ∧ Spares P db w')
    (hKept : Kept P db db') : Kept P db (store.view db' ws) := by
  induction ws generalizing db' with
  | nil => exact hKept
  | cons w ws ih =>
    rw [Engine.view_cons]
    refine ih (fun w' hMem =>
      hSpares w' (List.mem_cons_of_mem w hMem)) ?_
    rcases hSpares w List.mem_cons_self with ⟨w', rfl, hFirst⟩
    exact hKept.core hFirst

----
-- Calls That Run Alone
----

variable {α : Type} {srv : Service} {c : Incoming}

/- Nothing is written in between. -/
abbrev still : Engine.Rely Db Stmt Resp Write Status α :=
  .of (fun db db' => db'.tables = db.tables) (fun _ => rfl)
    (fun _ _ _ hFirst hSecond => hSecond.trans hFirst)

/- A call that fails changes nothing. -/
theorem framed_of_ok {p : Tx α}
    (hOk : ∀ a db', store.withTx p db = (.ok a, db') → Framed P db db') :
    Framed P db (store.withTx p db).2 := by
  cases hAnswer : (store.withTx p db).1 with
  | error e =>
    have hTables := Engine.serial_error_observe store Db.tables tables_tick _ p [] db hAnswer
    exact (Kept.of_tables hTables).toFramed
  | ok a => exact hOk a _ (Prod.ext hAnswer rfl)

/- A call that commits writes of such users only. -/
theorem framed_tx {p : Tx α}
    (hWp : store.Wp still (fun _ ws _ =>
      ∀ w ∈ ws, ∃ w', w = .core w' ∧ Spares P db w') 0 p [] db) :
    Framed P db (store.withTx p db).2 := by
  refine framed_of_ok ?_
  intro a db' hOk
  rcases hWp.serial (congrArg Prod.fst hOk) with ⟨db₁, ws, hTicked, hSpares, hLeft⟩
  have hTables := hTicked.observe tables_tick
  have hKept : Kept P db (store.view db₁ ws) := (Kept.of_tables hTables).view hSpares
  have hEnd : db' = store.view db₁ ws := by
    rw [← hLeft]
    exact congrArg Prod.snd hOk.symm
  rw [hEnd]
  exact hKept.toFramed

/- The statement writes nothing. -/
def Stmt.Reads (s : Stmt) : Prop := ∀ db r ws, s.exec db = .ok (r, ws) → ws = []

theorem tables_reads {p : Tx α} (hAsks : p.Asks Stmt.Reads) (db : Db) :
    (store.withTx p db).2.tables = db.tables := by
  have hNone : ∀ s began db r ws, Stmt.Reads s →
      store.exec began s db = .ok (r, ws) → ∀ w ∈ ws, False := by
    intro s began db r ws hReads hExec w hMem
    rw [hReads db r ws hExec] at hMem
    cases hMem
  rcases Engine.serial_writes hNone hAsks 0 [] (fun w hMem => absurd hMem List.not_mem_nil) db with
    ⟨db', ws, hTicked, hEmpty, hLeft⟩
  have hEnd : (store.withTx p db).2 = store.view db' ws := hLeft
  rw [hEnd, List.eq_nil_iff_forall_not_mem.mpr hEmpty]
  exact hTicked.observe tables_tick

theorem reads_roles (userID : String) : (lift (getRolesAndPermissions userID)).Asks
    Stmt.Reads := by
  refine ⟨?_, fun (roles : List String) =>
    ⟨?_, fun (perms : List String) => ?_⟩⟩
  · intro db r ws hExec
    cases hExec
    rfl
  · intro db r ws hExec
    cases hExec
    rfl
  · show Prog.Asks _ (lift (if roles = [] then
      Prog.fail _ else Prog.ret (roles, perms)))
    split
    · trivial
    · trivial

theorem tables_afterCommit (r : Reply) (db : Db) :
    (store.withTx (srv.afterCommit c r) db).2.tables =
    db.tables := by
  refine tables_reads ?_ db
  cases r with
  | rotated rotation =>
    refine Prog.Asks.bind ?_ (fun _ => trivial)
    unfold Server.respond
    rw [lift_bind]
    refine (reads_roles _).bind ?_
    rintro ⟨roles, perms⟩
    dsimp only
    rw [lift_bind, lift_ofExcept]
    exact (Prog.asks_ofExcept _ _).bind (fun _ => trivial)
  | _ => trivial

/- What a call leaves, its handler has left. -/
theorem tables_serve {β : Type} {p : Tx β} (f : β → Reply)
    (hTx : srv.tx c = p >>= fun a => .ret (f a)) (db : Db) :
    (srv.serve c db).2.tables = (store.withTx p db).2.tables := by
  have hMap : (store.withTx (srv.tx c) db).2 = (store.withTx p db).2 := by
    rw [hTx]
    exact Engine.serial_map f p [] db
  rw [← hMap]
  unfold Service.serve
  generalize store.withTx (srv.tx c) db = left
  rcases left with ⟨answer, db'⟩
  cases answer with
  | error e => rfl
  | ok r => exact tables_afterCommit r db'

----
-- Calls That Keep To Their Users
----

variable {md : Metadata} {env : Auth.Env}

section

variable {α : Type} {P : String → Prop} {c : Incoming} {p : Tx α} (f : α → Reply)
variable (hTx : srv.tx c = p >>= fun a => .ret (f a))

include hTx

/- A call that keeps to its users if its handler does. -/
theorem framed_serve (hFramed : Framed P db (store.withTx p db).2) :
    Framed P db (srv.serve c db).2 := hFramed.of_tables (tables_serve f hTx db)

/- A call whose handler writes rows of such users only. -/
theorem framed_call
    (hWp : store.Wp still (fun _ ws _ =>
      ∀ w ∈ ws, ∃ w', w = .core w' ∧ Spares P db w') 0 p [] db) :
    Framed P db (srv.serve c db).2 := framed_serve f hTx (framed_tx hWp)

/- A call that fails changes nothing. -/
theorem framed_of_fails (hFails : p.Fails) : Framed P db (srv.serve c db).2 :=
  framed_call f hTx (Engine.Wp.of_fails hFails _ _)

/- A call that only reads changes nothing. -/
theorem framed_of_reads (hAsks : p.Asks Stmt.Reads) : Framed P db (srv.serve c db).2 :=
  framed_serve f hTx (Kept.of_tables (tables_reads hAsks db)).toFramed

end

theorem framed_login (req : LoginRequest) : Framed (srv.Presents ⟨.login req, md, env⟩ db) db
    (srv.serve ⟨.login req, md, env⟩ db).2 := by
  refine framed_call Reply.tokens rfl ((login_wp _ _ srv md env 0 tables_tick req db).mono ?_)
  rintro db' ws tokens ⟨before, user, hLogged⟩ w hMem
  have hUsers := eq_of_tables Db.users hLogged.reached (fun _ => rfl)
  have hRow := hLogged.row
  rw [hUsers] at hRow
  rw [hLogged.writes] at hMem
  exact ⟨_, List.mem_singleton.mp hMem, Or.inr ⟨user, hRow, rfl, hLogged.email, hLogged.password⟩⟩

theorem framed_refreshToken (req : String) :
    Framed (srv.Presents ⟨.refreshToken req, md, env⟩ db) db
    (srv.serve ⟨.refreshToken req, md, env⟩ db).2 := by
  have hOwner : ∀ s ∈ db.sessions.rows, s.tokenHash = srv.presented req →
      srv.Presents ⟨.refreshToken req, md, env⟩ db
      s.userID := fun s hRow hHash => Or.inr ⟨s, hRow, hHash, rfl⟩
  refine framed_call Reply.rotated rfl ((refreshToken_wp _ _ srv md env 0 req db).mono ?_)
  rintro db' ws rotation ⟨before, s, hRefreshed⟩ w hMem
  have hSessions := eq_of_tables Db.sessions hRefreshed.reached (fun _ => rfl)
  have hRow := hRefreshed.row
  rw [hSessions] at hRow
  rcases hRefreshed.writes with ⟨first, rfl, hFirst⟩
  rcases List.mem_append.mp hMem with hMem | hMem
  · exact ⟨_, hFirst w hMem, hOwner⟩
  · exact ⟨_, List.mem_singleton.mp hMem, hOwner s hRow hRefreshed.hash⟩

theorem framed_oauthToken (req : TokenRequest) :
    Framed (srv.Presents ⟨.oauthToken req, md, env⟩ db) db
    (srv.serve ⟨.oauthToken req, md, env⟩ db).2 := by
  refine framed_call Reply.exchanged rfl ((oauthToken_wp _ _ srv md env 0 req db).mono ?_)
  rintro db' ws res ⟨before, c, hExchanged⟩ w hMem
  have hCodes := eq_of_tables Db.codes hExchanged.reached (fun _ => rfl)
  have hRow := hExchanged.row
  rw [hCodes] at hRow
  have hOwner : ∀ c' ∈ db.codes.rows, c'.codeHash = c.codeHash →
      srv.Presents ⟨.oauthToken req, md, env⟩ db
      c'.userID :=
    fun c' hRow hHash =>
      Or.inr ⟨c', hRow, hHash.trans hExchanged.hash, rfl⟩
  rcases hExchanged.writes with ⟨first, rfl, hFirst⟩
  rcases List.mem_append.mp hMem with hMem | hMem
  · exact ⟨_, hFirst w hMem, hOwner⟩
  · exact ⟨_, List.mem_singleton.mp hMem, hOwner c hRow rfl⟩

theorem framed_logout (req : String) : Framed (srv.Presents ⟨.logout req, md, env⟩ db) db
    (srv.serve ⟨.logout req, md, env⟩ db).2 := by
  have hOwner : ∀ s ∈ db.sessions.rows, s.tokenHash = srv.presented req →
      srv.Presents ⟨.logout req, md, env⟩ db
      s.userID := fun s hRow hHash => Or.inr ⟨s, hRow, hHash, rfl⟩
  refine framed_call (fun _ => Reply.success) rfl ?_
  unfold Server.logout
  split
  · trivial
  · intro db' _ n ws hExec db'' _ w hMem
    exact ⟨_, exec_revokeUnrevoked env.now hExec w hMem, hOwner⟩

theorem framed_logoutAll (token : String) (hNot : ¬ srv.Intrudes ⟨.logoutAll token, md, env⟩ db) :
    Framed (srv.Presents ⟨.logoutAll token, md, env⟩ db) db
    (srv.serve ⟨.logoutAll token, md, env⟩ db).2 := by
  refine framed_call Reply.revoked rfl ?_
  unfold Server.logoutAll
  rw [lift_bind, lift_ofExcept]
  cases hUser : srv.logoutUser token md env with
  | error e => trivial
  | ok userID =>
    rw [Prog.ofExcept_ok, Prog.ret_bind]
    refine (revokeAll_wp _ _ 0 env.now userID db).mono ?_
    rintro db' ws n ⟨before, hReached, _, hWrites⟩ w hMem
    have hSessions := eq_of_tables Db.sessions hReached (fun _ => rfl)
    rcases hWrites w hMem with ⟨s, hRow, hOwn, hLive, rfl⟩
    rw [hSessions] at hRow
    refine ⟨_, rfl, ?_⟩
    intro s' hRow' hHash
    rw [Table.eq_of_key hRow' hRow hHash, hOwn]
    exact not_not.mp (fun hOther =>
      hNot ⟨userID, hUser, hOther, s, hRow, hOwn, hLive⟩)

theorem oauthAuthorize_eq (srv : Server) (req : AuthorizeRequest) (md : Metadata) (env : Auth.Env) :
    (∃ e, srv.oauthAuthorize req md env = .fail e) ∨
    ∃ id, srv.oauthAuthorize req md env = .ask (.selectClient id) (withClient
    (srv.authorizeFor req md env)) := by
  unfold Server.oauthAuthorize
  rw [knownClient_bind]
  cases srv.checkAuthorize req with
  | error e => exact Or.inl ⟨e, rfl⟩
  | ok u =>
    rw [Prog.ofExcept_ok, Prog.ret_bind]
    split
    · exact Or.inl ⟨invalidArg "client_id required", rfl⟩
    · exact Or.inr ⟨_, rfl⟩

theorem authorizeFor_eq (srv : Server) (req : AuthorizeRequest) (md : Metadata)
    (env : Auth.Env) (client : Client) :
    (∃ e, srv.authorizeFor req md env client = .fail e) ∨ ∃ row res,
    srv.VerifiedAs md env.now row.userID ∧ srv.authorizeFor req md env client =
    .ask (.insertCode row) (fun _ => .ret res) := by
  unfold Server.authorizeFor
  cases hNew : srv.newCode req md env client with
  | error e => exact Or.inl ⟨e, rfl⟩
  | ok new =>
    rcases new with ⟨row, code⟩
    dsimp only
    unfold Server.storeCode
    split
    · exact Or.inl ⟨_, rfl⟩
    · exact Or.inr ⟨row, _, (Server.newCode_ok hNew).1.user, rfl⟩

/- A new code is for the user of the token. -/
theorem framed_oauthAuthorize (req : AuthorizeRequest) :
    Framed (srv.Presents ⟨.oauthAuthorize req, md, env⟩ db) db
    (srv.serve ⟨.oauthAuthorize req, md, env⟩ db).2 := by
  refine framed_call Reply.code rfl ?_
  rcases oauthAuthorize_eq srv.toServer req md env with ⟨e, hFail⟩ | ⟨id, hAsk⟩
  · rw [hFail]
    trivial
  rw [hAsk]
  intro db₁ _ found ws₁ hExec₁
  cases hExec₁
  show store.Wp _ _ 0 (lift (withClient (srv.authorizeFor req md env)
    (db₁.clients.lookup id))) [] db₁
  cases db₁.clients.lookup id with
  | none => trivial
  | some client =>
    rw [withClient]
    rcases authorizeFor_eq srv.toServer req md env client with
      ⟨e, hFail⟩ | ⟨row, res, hUser, hInsert⟩
    · rw [hFail]
      trivial
    rw [hInsert]
    intro db₂ _ _ ws₂ hExec₂ db₃ _ w hMem
    rcases exec_core (s := .insertCode row) hExec₂ with ⟨ws', rfl, hCore⟩
    rw [(Auth.Stmt.exec_insertCode hCore).2.2.2] at hMem
    exact ⟨_, List.mem_singleton.mp hMem, Or.inl (Or.inl hUser)⟩

theorem exec_insertUser {row : User} (hExec : (Stmt.insertUser row).exec db = .ok ((), ws)) :
    db.users.lookup row.id = none ∧ ws = [.insertUser row] := by
  simp only [Stmt.exec] at hExec
  split_ifs at hExec with hKnown
  cases hExec
  exact ⟨Option.not_isSome_iff_eq_none.mp hKnown, rfl⟩

theorem exec_insertUserRole {userID roleID : String}
    (hExec : (Stmt.insertUserRole userID roleID).exec db = .ok ((), ws)) :
    ws = [] ∨ ws = [.insertUserRole userID roleID] := by
  simp only [Stmt.exec] at hExec
  split_ifs at hExec
  · cases hExec
    exact Or.inl rfl
  · cases hExec
    exact Or.inr rfl

/- Registering a user gives a role to no other user. -/
theorem framed_register {P : String → Prop} (req : RegisterRequest) :
    Framed P db (srv.serve ⟨.register req, md, env⟩ db).2 := by
  refine framed_serve Reply.userID rfl (framed_of_ok ?_)
  intro a db' hOk
  unfold Service.register at hOk
  rcases Engine.serial_ofExcept_ok hOk with ⟨user, _, hOk⟩
  rcases Engine.serial_ask_ok hOk with ⟨_, ws₁, hExec₁, hOk⟩
  rcases exec_insertUser hExec₁ with ⟨hNew, rfl⟩
  rcases Engine.serial_ask_ok hOk with ⟨_, ws₂, hExec₂, hOk⟩
  have hRole := exec_insertUserRole hExec₂
  cases hOk
  rcases hRole with rfl | rfl
  · exact ⟨rfl, fun _ _ => rfl, fun _ _ => rfl⟩
  · refine ⟨rfl, ?_, fun _ _ => rfl⟩
    intro known hKnown
    have hOther : user.id ≠ known.id := by
      intro hSame
      exact Table.lookup_eq_none_iff.mp hNew known hKnown hSame.symm
    show (db.userRoles ++ [(user.id, "role_customer")]).filter
      (fun ur => decide (ur.1 = known.id)) = _
    simp [List.filter_append, hOther]

variable {e : Status}

/- What starts with a check that fails changes nothing. -/
theorem framed_denied {α β : Type} {P : String → Prop} {c : Incoming}
    {x : Except Status β} {k : β → Tx α} (hDenied : x = .error e) (f : α → Reply)
    (hTx : srv.tx c = (Prog.ofExcept x >>= k) >>= fun a =>
      .ret (f a)) : Framed P db (srv.serve c db).2 := by
  refine framed_of_fails f hTx ?_
  rw [hDenied]
  trivial

theorem framed_createOAuthClient {P : String → Prop}
    (hDenied : srv.admin md env = .error e) (req : CreateClientRequest) :
    Framed P db (srv.serve ⟨.createOAuthClient req, md, env⟩ db).2 := by
  refine framed_of_fails (fun answer : Client × String =>
      Reply.client answer.1 answer.2) rfl ?_
  have hCheck : srv.checkClient req md env = .error e := by
    unfold Server.checkClient
    rw [show srv.requirePermissionFromAuthHeader md env "auth:admin" = .error e from hDenied]
  unfold Server.createOAuthClient Server.newClient
  rw [hCheck]
  trivial

theorem framed_deleteOAuthClient {P : String → Prop}
    (hDenied : srv.admin md env = .error e) (clientID : String) : Framed P db
    (srv.serve ⟨.deleteOAuthClient clientID, md, env⟩ db).2 := by
  refine framed_of_fails (fun _ => Reply.success) rfl ?_
  unfold Server.deleteOAuthClient
  rw [lift_bind, lift_ofExcept, show srv.requirePermissionFromAuthHeader md env
      "auth:admin" = .error e from hDenied]
  trivial

variable (userID clientID : String)

theorem reads_getOAuthConsent : (getOAuthConsent userID clientID).Asks Stmt.Reads := by
  unfold getOAuthConsent
  split
  · trivial
  · refine ⟨?_, fun _ => trivial⟩
    intro db r ws hExec
    cases hExec
    rfl

theorem framed_getOAuthConsent {P : String → Prop} : Framed P db
    (srv.serve ⟨.getOAuthConsent userID clientID, md, env⟩ db).2 :=
  framed_of_reads Reply.names rfl (reads_getOAuthConsent userID clientID)

theorem framed_listOAuthConsentHistory {P : String → Prop} (limit : Int) : Framed P db
    (srv.serve ⟨.listOAuthConsentHistory userID clientID limit, md, env⟩ db).2 := by
  refine framed_of_reads Reply.entries rfl ?_
  unfold listOAuthConsentHistory
  split
  · trivial
  · refine ⟨?_, fun _ => trivial⟩
    intro db r ws hExec
    cases hExec
    rfl

theorem framed_validateToken {P : String → Prop} (accessToken : String) :
    Framed P db (srv.serve ⟨.validateToken accessToken, md, env⟩ db).2 := by
  refine framed_of_reads Reply.payload rfl ?_
  unfold Service.validateToken
  split
  · trivial
  · exact (Prog.asks_ofExcept _ _).bind (fun _ => trivial)

variable {req : ConsentRequest} {began : Time}

theorem about_consented {v : String}
    (hOther : trimSpace req.userID ≠ v) : (db.consented req began).about v = db.about v := by
  have hEntry : (db.history ++ [req.entry began]).filter (fun e => decide (e.userID = v)) =
        db.history.filter (fun e => decide (e.userID = v)) := by
    simp [List.filter_append, ConsentRequest.entry, hOther]
  unfold Db.consented
  dsimp only
  split
  · refine Prod.ext rfl (Prod.ext rfl (Prod.ext ?_ ?_))
    · refine Table.filter_modify (Consent.key_renew req.scopes (timestamptz began)) ?_
      intro c _ hKey
      have hUser : c.userID ≠ v := by
        rw [show c.userID = _ from congrArg Prod.fst hKey]
        exact hOther
      simp [Consent.renew, hUser]
    · dsimp only [Db.about]
      split
      · rfl
      · exact hEntry
  · refine Prod.ext rfl (Prod.ext rfl (Prod.ext ?_ hEntry))
    exact Table.filter_insert (by simp [hOther])

/- Nothing but consents changes. -/
theorem framed_consented {P : String → Prop} (hOwn : P (trimSpace req.userID)) : Framed P db
    (db.consented req began) := by
  refine ⟨?_, ?_, ?_⟩
  · unfold Db.consented
    dsimp only
    split
    · rfl
    · rfl
  · intro user _
    unfold Db.consented
    dsimp only
    split
    · rfl
    · rfl
  · intro v hOther
    refine about_consented ?_
    rintro rfl
    exact hOther hOwn

theorem framed_storeOAuthConsent
    (hNot : ¬ srv.Intrudes ⟨.storeOAuthConsent req began, md, env⟩ db) : Framed
    (srv.Presents ⟨.storeOAuthConsent req began, md, env⟩ db) db
    (srv.serve ⟨.storeOAuthConsent req began, md, env⟩ db).2 := by
  refine framed_serve (fun _ => Reply.success) rfl ?_
  by_cases hStores : db.Stores req began
  · rw [consented_of_stores hStores]
    have hOwn : srv.Presents ⟨.storeOAuthConsent req began, md, env⟩ db (trimSpace req.userID) :=
      not_not.mp (fun hOther => hNot ⟨hOther, hStores⟩)
    exact framed_consented hOwn
  · rw [kept_of_not_stores hStores]
    exact (Kept.of_tables rfl).toFramed

/- Every call that does not intrude keeps to its users. -/
theorem framed_of_not_intrudes {c : Incoming}
    (hDenied : srv.admin c.md c.env ≠ .ok ()) (hNot : ¬ srv.Intrudes c db) :
    Framed (srv.Presents c db) db (srv.serve c db).2 := by
  rcases c with ⟨rpc, md, env⟩
  cases hAdmin : srv.admin md env with
  | ok u => exact absurd hAdmin hDenied
  | error e =>
  cases rpc with
  | register req => exact framed_register req
  | login req => exact framed_login req
  | validateToken token => exact framed_validateToken token
  | refreshToken token => exact framed_refreshToken token
  | logout token => exact framed_logout token
  | logoutAll token => exact framed_logoutAll token hNot
  | grantRole req =>
    exact framed_denied hAdmin (fun _ => .success) rfl
  | revokeRole req =>
    exact framed_denied hAdmin (fun _ => .success) rfl
  | listUserRoles userID =>
    exact framed_denied hAdmin Reply.names rfl
  | createOAuthClient req =>
    exact framed_createOAuthClient hAdmin req
  | getOAuthClient clientID =>
    exact framed_denied hAdmin (fun client => Reply.client client "") rfl
  | listOAuthClients =>
    exact framed_denied hAdmin Reply.clients rfl
  | deleteOAuthClient clientID =>
    exact framed_deleteOAuthClient hAdmin clientID
  | rotateOAuthClientSecret clientID =>
    exact framed_denied hAdmin Reply.secret rfl
  | getOAuthConsent userID clientID =>
    exact framed_getOAuthConsent userID clientID
  | storeOAuthConsent req began =>
    exact framed_storeOAuthConsent hNot
  | listOAuthConsentHistory userID clientID limit =>
    exact framed_listOAuthConsentHistory userID clientID limit
  | oauthAuthorize req => exact framed_oauthAuthorize req
  | oauthToken req => exact framed_oauthToken req

----
-- Calls That Do Not
----

theorem about_consented_ne (hStores : db.Stores req began) :
    (db.consented req began).about (trimSpace req.userID) ≠ db.about (trimSpace req.userID) := by
  have hEntry : (db.history ++ [req.entry began]).filter
          (fun e =>
            decide (e.userID = trimSpace req.userID)) ≠ db.history.filter (fun e =>
          decide (e.userID = trimSpace req.userID)) := by
    simp [List.filter_append, ConsentRequest.entry]
  rcases hStores with ⟨_, _, _, hRow⟩
  intro hSame
  unfold Db.consented at hSame
  dsimp only at hSame
  cases hOld : db.consents.lookup (trimSpace req.userID, trimSpace req.clientID) with
  | none =>
    rw [hOld] at hSame
    exact hEntry (congrArg (fun rows => rows.2.2.2) hSame)
  | some old =>
    rw [hOld] at hSame hRow
    dsimp only at hSame hRow
    split at hRow
    · rename_i hEqual
      -- the row is there, as it is after the renewal
      rcases Table.lookup_eq_some_iff.mp hOld with ⟨hMem, hKey⟩
      have hRenewed : old.renew req.scopes (timestamptz began) ∈
            (db.consents.modify (trimSpace req.userID, trimSpace req.clientID)
              (Consent.renew req.scopes (timestamptz began))
              (Consent.key_renew req.scopes (timestamptz began))).rows.filter
              (fun c => decide (c.userID = trimSpace req.userID)) := by
        refine List.mem_filter.mpr ⟨?_, ?_⟩
        · refine Table.mem_modify.mpr ⟨old, hMem, ?_⟩
          rw [if_pos hKey]
        · exact decide_eq_true (congrArg Prod.fst hKey)
      have hRows := congrArg (fun rows => rows.2.2.1) hSame
      dsimp only [Db.about] at hRows
      rw [hRows] at hRenewed
      have hUnchanged : old.renew req.scopes (timestamptz began) = old :=
        Table.eq_of_key (List.mem_filter.mp hRenewed).1 hMem rfl
      rcases hRow with hScopes | hTime
      · exact hScopes (congrArg Consent.scopes hUnchanged).symm
      · exact hTime (congrArg Consent.updatedAt hUnchanged).symm
    · rename_i hOther
      rw [if_neg hOther] at hSame
      exact hEntry (congrArg (fun rows => rows.2.2.2) hSame)

theorem exec_revokeUnrevoked_ok (h : String) (now : Time) (db : AuthDb) :
    ∃ n ws, (Auth.Stmt.revokeUnrevoked h now).exec db = .ok (n, ws) := by
  simp only [Auth.Stmt.exec]
  split
  · split
    · exact ⟨_, _, rfl⟩
    · exact ⟨_, _, rfl⟩
  · exact ⟨_, _, rfl⟩

theorem serial_revokeEach (began : Nat) (now : Time) (hashes : List String)
    (ws : List Auth.Write) (db : AuthDb) : ∃ new,
    (authdb.serial began (revokeEach now hashes) ws db).2 =
    authdb.view db (ws ++ new) ∧ ∀ s ∈ (authdb.view db ws).sessions.rows,
    s.tokenHash ∈ hashes → s.revokedAt = none → ∃ w ∈ new, w.revokes = some s.tokenHash := by
  induction hashes generalizing ws with
  | nil =>
    refine ⟨[], ?_, ?_⟩
    · rw [List.append_nil]
      rfl
    · intro s _ hMem
      cases hMem
  | cons h hashes ih =>
    rcases exec_revokeUnrevoked_ok h now (authdb.view db ws) with ⟨n, first, hExec⟩
    rcases Auth.Stmt.exec_revokeUnrevoked hExec with ⟨hFirst, hDone⟩
    rcases ih (ws ++ first) with ⟨new, hLeft, hRest⟩
    have hStep : authdb.serial began (revokeEach now (h :: hashes)) ws db =
          authdb.serial began (revokeEach now hashes >>=
            fun m => .ret (n + m)) (ws ++ first) db := Engine.serial_ask_exec hExec
    refine ⟨first ++ new, ?_, ?_⟩
    · rw [← List.append_assoc, ← hLeft, hStep]
      exact Engine.serial_map _ _ _ _
    · intro s hRow hMem hLive
      by_cases hHere : s.tokenHash = h
      · refine ⟨_, List.mem_append_left new (hDone ⟨s, hRow, hHere, hLive⟩), ?_⟩
        rw [hHere]
        rfl
      · have hKept : s ∈ (authdb.view db (ws ++ first)).sessions.rows := by
          rw [Engine.view_append]
          refine mem_view_of_kept hRow ?_
          intro w hFirstMem
          rw [hFirst w hFirstMem]
          intro hSame
          exact hHere (Option.some.inj hSame).symm
        rcases hRest s hKept ((List.mem_cons.mp hMem).resolve_left hHere)
            hLive with ⟨w, hNew, hRevokes⟩
        exact ⟨w, List.mem_append_right first hNew, hRevokes⟩

/- An unrevoked session of the user does not stay so. -/
theorem revoked_revokeAll {userID : String} {s : Session} (now : Time)
    (hRow : s ∈ db.sessions.rows) (hUser : s.userID = userID) (hLive : s.revokedAt = none) :
    s ∉ (store.withTx (lift (revokeAll userID now)) db).2.sessions.rows := by
  have hScanned : s.tokenHash ∈ (db.sessions.rows.filter (fun s =>
      decide (s.userID = userID ∧ s.revokedAt = none))).map
      Session.tokenHash :=
    List.mem_map_of_mem (List.mem_filter.mpr ⟨hRow, decide_eq_true ⟨hUser, hLive⟩⟩)
  have hPart := (core.withTx_embed (revokeAll userID now) db).2
  have hTx : authdb.withTx (revokeAll userID now) db.auth =
      authdb.serial 0 (revokeEach now _) [] db.auth := Engine.serial_ask_exec rfl
  rcases serial_revokeEach 0 now _ [] db.auth with ⟨new, hLeft, hRevoked⟩
  intro hStays
  have hStays' : s ∈ (authdb.view db.auth new).sessions.rows := by
    rw [← List.nil_append new, ← hLeft, ← hTx]
    exact congrArg AuthDb.sessions hPart ▸ hStays
  rcases exists_later_view new (show s ∈ db.auth.sessions.rows from hRow) with
    ⟨s', hRow', hLater, hDone⟩
  refine hDone (hRevoked s hRow hScanned hLive) ?_
  rw [← Table.eq_of_key hStays' hRow' hLater.tokenHash.symm]
  exact hLive

theorem about_revokeAll_ne {userID : String} {s : Session} (now : Time)
    (hRow : s ∈ db.sessions.rows) (hUser : s.userID = userID) (hLive : s.revokedAt = none) :
    (store.withTx (lift (revokeAll userID now)) db).2.about userID ≠ db.about userID := by
  intro hSame
  have hMem : s ∈ (db.about userID).1 := List.mem_filter.mpr ⟨hRow, decide_eq_true hUser⟩
  rw [← hSame] at hMem
  exact revoked_revokeAll now hRow hUser hLive (List.mem_filter.mp hMem).1

/- An intrusion shows in the rows of another user. -/
theorem not_framed_of_intrudes {c : Incoming} (hIntrudes : srv.Intrudes c db) :
    ¬ Framed (srv.Presents c db) db (srv.serve c db).2 := by
  rcases c with ⟨rpc, md, env⟩
  intro hFramed
  cases rpc with
  | storeOAuthConsent req began =>
    rcases hIntrudes with ⟨hOther, hStores⟩
    refine about_consented_ne hStores ?_
    rw [← hFramed.rows _ hOther, ← consented_of_stores hStores]
    exact (eq_of_tables (fun db => db.about _)
      (tables_serve (fun _ => Reply.success) rfl db) (fun _ => rfl)).symm
  | logoutAll token =>
    rcases hIntrudes with ⟨userID, hUser, hOther, s, hRow, hOwn, hLive⟩
    have hTx : srv.tx ⟨.logoutAll token, md, env⟩ = lift (revokeAll userID env.now) >>= fun n =>
        .ret (.revoked n) := by
      show (lift (srv.logoutAll token md env) >>= fun n =>
        Prog.ret (Reply.revoked n)) = _
      unfold Server.logoutAll
      rw [lift_bind, lift_ofExcept, hUser]
      rfl
    refine about_revokeAll_ne env.now hRow hOwn hLive ?_
    rw [← hFramed.rows _ hOther]
    exact (eq_of_tables (fun db => db.about _) (tables_serve _ hTx db) (fun _ => rfl)).symm
  | _ => exact hIntrudes.elim

/-
  Without the permission `auth:admin`, a call changes rows of such users only that it presents a
  credential of, exactly if it does not store a consent for another user or revoke sessions of
  another user.
-/
theorem rows_framed_iff {c : Incoming} (hDenied : srv.admin c.md c.env ≠ .ok ()) :
    Framed (srv.Presents c db) db (srv.serve c db).2 ↔ ¬ srv.Intrudes c db := by
  constructor
  · intro hFramed hIntrudes
    exact not_framed_of_intrudes hIntrudes hFramed
  · exact framed_of_not_intrudes hDenied

/- A user with a session, and a client. -/
def Db.oneUser : Db :=
  { Db.empty with
    users := (Table.empty User.id).insert ⟨"v", "v@mail", "V", "secret"⟩
    clients := (Table.empty Client.id).insert ⟨"app", "App", "public", none, ["https://app"], []⟩
    sessions := (Table.empty Session.tokenHash).insert
      (Session.opened "t" "t" "v" 9000 9000 none none) }

/- The user ends the session. -/
def logsOut : Incoming := ⟨.logout "t", Metadata.none, Env.drawing 1000 "r"⟩

theorem own_session_framed : Framed (Service.plain.Presents logsOut Db.oneUser)
      Db.oneUser (Service.plain.serve logsOut Db.oneUser).2 ∧
      (Service.plain.serve logsOut
      Db.oneUser).2.sessions.rows.map Session.revokedAt = [some 1000] :=
  ⟨(rows_framed_iff (by decide +kernel)).mpr id, by decide +kernel⟩

/- Somebody without any credential stores a consent for `v`. -/
def storesForV : Incoming :=
  ⟨.storeOAuthConsent ⟨"v", "app", ["payments"]⟩ 1000, Metadata.none, Env.drawing 1000 "r"⟩

theorem consent_stored_for_other : Service.plain.admin storesForV.md storesForV.env =
      .error (unauth "access token required") ∧
      ¬ Service.plain.Presents storesForV Db.oneUser "v" ∧ (Db.oneUser.about "v").2.2.1 = [] ∧
      ((Service.plain.serve storesForV Db.oneUser).2.about "v").2.2.1 =
      [⟨"v", "app", ["payments"], 1000, 1000⟩] ∧
      ¬ Framed (Service.plain.Presents storesForV Db.oneUser) Db.oneUser
      (Service.plain.serve storesForV Db.oneUser).2 := by
  have hNot : ¬ Service.plain.Presents storesForV Db.oneUser "v" := by
    rintro ((⟨value, _, _, hHeader, _⟩ |
      ⟨token, payload, hToken | hToken, hVerified, hUser⟩) | hNone)
    · cases hHeader
    · -- there is no header, and the empty token is not of `v`
      have hEmpty : token = "" := hToken.trans (by decide +kernel)
      cases hVerified
      rw [hEmpty] at hUser
      exact absurd hUser (by decide +kernel)
    · cases hToken
    · exact hNone
  have hBefore : (Db.oneUser.about "v").2.2.1 = [] := by
    decide +kernel
  have hAfter : ((Service.plain.serve storesForV Db.oneUser).2.about "v").2.2.1 =
      [⟨"v", "app", ["payments"], 1000, 1000⟩] := by
    decide +kernel
  refine ⟨by decide +kernel, hNot, hBefore, hAfter, ?_⟩
  intro hFramed
  rw [hFramed.rows "v" hNot, hBefore] at hAfter
  cases hAfter

end Fincore.AuthService
