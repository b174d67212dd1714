import Fincore.Auth.Accounts

/-
  The secrets of confidential clients.

  `CreateOAuthClient` shows a secret once and stores its hash in `secret_hash`.
  `RotateOAuthClientSecret` writes the new secret itself, into a column `secret` that no migration
  makes, so that the database refuses every rotation.

  Key definitions include:
    * `Service.shown`
    * `Service.Current`
    * `Service.Rotates`
    * `Service.Correct`
    * `Service.Spares`

  Main results:
    * `serve_rotate`
    * `serve_create`
    * `kept_create`
    * `secrets_current_iff`
-/

----
-- Secrets That Were Shown
----

namespace Fincore.AuthService

open Auth

variable (srv : Service)

/- The client and the secret that an answer shows. -/
def shown (c : Incoming) : Except Status Reply → List (String × String)
| .ok (.client client secret) =>
  if secret = "" then [] else [(client.id, secret)]
| .ok (.secret secret) =>
  match c.rpc with
  | .rotateOAuthClientSecret clientID =>
    [(trimSpace clientID, secret)]
  | _ => []
| _ => []

/- The secrets of a client, from the first to the latest. -/
def secretsOf (seen : List (String × String)) (clientID : String) : List String :=
  (seen.filter (fun e => decide (e.1 = clientID))).map Prod.snd

/- A confidential client is let in by its latest secret only. -/
def Service.Current (db : Db) (seen : List (String × String)) : Prop :=
  ∀ client ∈ db.clients.rows, client.type = "confidential" → ∀ earlier latest,
      secretsOf seen client.id = earlier ++ [latest] →
        (∀ md, srv.authenticate md client latest = .ok ()) ∧ ∀ secret ∈ earlier, secret ≠ latest →
            ∀ md, srv.authenticate md client secret ≠ .ok ()

/- The call is a rotation for a client that exists. -/
def Rotates (c : Incoming) (db : Db) : Prop :=
  match c.rpc with
  | .rotateOAuthClientSecret clientID =>
    ∃ client ∈ db.clients.rows, client.id = clientID ∨ client.id = trimSpace clientID
  | _ => False

/-
  At every time the latest secrets are the ones that count, and every rotation for a client that
  exists succeeds.
-/
def Service.Correct : Db → List (String × String) → List Incoming → Prop
| db, seen, [] => srv.Current db seen
| db, seen, c :: cs =>
  srv.Current db seen ∧ (Rotates c db → ∃ r, (srv.serve c db).1 = .ok r) ∧
    Service.Correct (srv.serve c db).2 (seen ++ shown c (srv.serve c db).1) cs

/- No rotation is for a client that exists by then. -/
def Service.Spares : Db → List Incoming → Prop
| _, [] => True
| db, c :: cs =>
  ¬ Rotates c db ∧ Service.Spares (srv.serve c db).2 cs

/- A call of the admin that creates a client or rotates. -/
def Service.Manages (c : Incoming) : Prop :=
  srv.admin c.md c.env = .ok () ∧
    ((∃ req, c.rpc = .createOAuthClient req) ∨
      ∃ clientID, c.rpc = .rotateOAuthClientSecret clientID)

/- What is drawn has no blanks at its ends, and is not empty. -/
def Drawn (env : Auth.Env) : Prop :=
  ∀ secret, env.random = .ok secret → trimSpace secret = secret ∧ secret ≠ ""

----
-- The Two Calls
----

variable (db : Db) (md : Metadata) (env : Auth.Env)

/- No rotation succeeds, and none has an effect. -/
theorem serve_rotate (clientID : String) :
    ∃ e, srv.serve ⟨.rotateOAuthClientSecret clientID, md, env⟩ db = (.error e, db) := by
  have hTx : ∃ e, store.withTx (srv.tx ⟨.rotateOAuthClientSecret clientID, md, env⟩)
      db = (.error e, db) := by
    simp only [Service.tx, Service.rotateOAuthClientSecret]
    cases srv.admin md env with
    | error e => exact ⟨e, rfl⟩
    | ok u =>
      rw [Prog.ofExcept_ok, Prog.ret_bind]
      split
      · exact ⟨_, rfl⟩
      · cases generateSecret env with
        | error e => exact ⟨e, rfl⟩
        | ok secret => exact ⟨_, rfl⟩
  rcases hTx with ⟨e, hTx⟩
  exact ⟨e, serve_error hTx⟩

/- A client is not created, or it has the row it was given. -/
theorem serve_create (req : CreateClientRequest) :
    (∃ e, srv.serve ⟨.createOAuthClient req, md, env⟩ db = (.error e, db)) ∨
    ∃ row secret, srv.newClient req md env = .ok (row, secret) ∧ db.clients.lookup row.id = none ∧
    srv.serve ⟨.createOAuthClient req, md, env⟩ db =
    (.ok (.client row secret), (Write.core (.insertClient row)).apply db) := by
  cases hNew : srv.newClient req md env with
  | error e =>
    left
    refine ⟨e, serve_error ?_⟩
    simp only [Service.tx, Server.createOAuthClient, hNew]
    rfl
  | ok new =>
    rcases new with ⟨row, secret⟩
    cases hRow : db.clients.lookup row.id with
    | some old =>
      left
      refine ⟨uniqueViolation "oauth_clients_pkey", serve_error ?_⟩
      have hExec : (Stmt.core (.insertClient row)).exec db =
          .error (uniqueViolation "oauth_clients_pkey") := by
        simp only [Stmt.exec, Auth.Stmt.exec, insertion, Db.auth, hRow]
        rfl
      simp only [Service.tx, Server.createOAuthClient, hNew]
      show store.serial 0 (.ask _ _) [] db = _
      rw [Engine.serial_ask_error hExec]
      rfl
    | none =>
      right
      refine ⟨row, secret, rfl, hRow, serve_ok ?_ rfl⟩
      have hExec : (Stmt.core (.insertClient row)).exec db =
          .ok ((), [.core (.insertClient row)]) := by
        simp only [Stmt.exec, Auth.Stmt.exec, insertion, Db.auth, hRow]
        rfl
      simp only [Service.tx, Server.createOAuthClient, hNew]
      show store.serial 0 (.ask _ _) [] db = _
      rw [Engine.serial_ask_exec hExec]
      rfl

----
-- Hashes That Are Kept
----

variable {srv : Service} {db : Db} {seen : List (String × String)}

/- A client has the hash of the one secret it was shown. -/
structure Service.Kept (srv : Service) (db : Db) (seen : List (String × String)) : Prop where
  once : (seen.map Prod.fst).Nodup
  hashed : ∀ e ∈ seen, trimSpace e.2 = e.2 ∧ e.2 ≠ "" ∧
      ∃ client ∈ db.clients.rows, client.id = e.1 ∧ ∃ hash, client.secretHash = some hash ∧
          srv.verifyPassword e.2 hash = .ok true

theorem secretsOf_eq (hOnce : (seen.map Prod.fst).Nodup)
    {clientID latest : String} {earlier : List String}
    (hSecrets : secretsOf seen clientID = earlier ++ [latest]) :
    earlier = [] ∧ (clientID, latest) ∈ seen := by
  unfold secretsOf at hSecrets
  have hKeys : ∀ e ∈ seen.filter (fun e => decide (e.1 = clientID)), e.1 = clientID :=
    fun e hMem =>
      of_decide_eq_true (List.mem_filter.mp hMem).2
  have hNodup : ((seen.filter (fun e => decide (e.1 = clientID))).map Prod.fst).Nodup :=
    hOnce.sublist (List.filter_sublist.map _)
  have hOld : ∀ e ∈ seen.filter (fun e => decide (e.1 = clientID)),
      e ∈ seen := fun e hMem => (List.mem_filter.mp hMem).1
  generalize seen.filter (fun e => decide (e.1 = clientID)) = found at hSecrets hKeys hNodup hOld
  match found, hSecrets, hKeys, hNodup, hOld with
  | [], hSecrets, _, _, _ => simp at hSecrets
  | [e], hSecrets, hKeys, _, hOld =>
    have hKey := hKeys e List.mem_cons_self
    have hMem := hOld e List.mem_cons_self
    cases earlier with
    | nil =>
      rw [← hKey, ← List.singleton_inj.mp hSecrets]
      exact ⟨rfl, hMem⟩
    | cons first rest => simp at hSecrets
  | e :: e' :: rest, _, hKeys, hNodup, _ =>
    have hSame : e.1 = e'.1 := (hKeys e (by simp)).trans (hKeys e' (by simp)).symm
    simp [hSame] at hNodup

theorem Service.Kept.current (hKept : srv.Kept db seen) : srv.Current db seen := by
  intro client hClient hType earlier latest hSecrets
  rcases secretsOf_eq hKept.once hSecrets with ⟨rfl, hMem⟩
  refine ⟨?_, fun _ hNone => absurd hNone List.not_mem_nil⟩
  intro md
  rcases hKept.hashed _ hMem with ⟨hTrim, hText, row, hRow, hId, hash, hHash, hVerify⟩
  have hSame : client = row := Table.eq_of_key hClient hRow hId.symm
  subst hSame
  have hSecret : srv.presentedSecret md client latest = .ok latest := by
    unfold Server.presentedSecret
    rw [if_neg (by rw [hTrim]; exact hText), hTrim]
  unfold Server.authenticate
  simp only [if_pos hType, hHash, hSecret, hVerify]

variable {req : CreateClientRequest} {secret : String} {row : Client}

theorem newClient_secret {md : Metadata} {env : Auth.Env}
    (hNew : srv.newClient req md env = .ok (row, secret))
    (hShown : secret ≠ "") : env.random = .ok secret ∧ ∃ hash, row.secretHash = some hash ∧
    srv.hashPassword env.salt secret = .ok hash := by
  unfold Server.newClient at hNew
  split at hNew
  · cases hNew
  split at hNew
  · cases hNew
  rename_i secret' secretHash hSecret
  cases hNew
  unfold Server.newSecret at hSecret
  split at hSecret
  · split at hSecret
    · cases hSecret
    · rename_i drawn hRandom
      split at hSecret
      · cases hSecret
      · rename_i hash hHash
        cases hSecret
        exact ⟨hRandom, hash, rfl, hHash⟩
  · cases hSecret
    exact absurd rfl hShown

/- A secret that is shown is stored as its hash. -/
theorem kept_create
    (hPasswords : ∀ salt secret hash, srv.hashPassword salt secret = .ok hash →
          srv.verifyPassword secret hash = .ok true)
    {md : Metadata} {env : Auth.Env} (hDrawn : Drawn env)
    (hNew : srv.newClient req md env = .ok (row, secret))
    (hFree : db.clients.lookup row.id = none) (hKept : srv.Kept db seen) :
    srv.Kept ((Write.core (.insertClient row)).apply db)
      (seen ++ if secret = "" then [] else [(row.id, secret)]) := by
  have hInsert : ∀ client, client ∈ db.clients.rows ∨ client = row →
      client ∈ ((Write.core (.insertClient row)).apply db).clients.rows := by
    intro client hClient
    exact (Table.mem_insert hFree).mpr hClient
  have hOld : ∀ e ∈ seen, trimSpace e.2 = e.2 ∧ e.2 ≠ "" ∧
      ∃ client ∈ ((Write.core (.insertClient row)).apply db).clients.rows, client.id = e.1 ∧
      ∃ hash, client.secretHash = some hash ∧ srv.verifyPassword e.2 hash = .ok true := by
    intro e hMem
    rcases hKept.hashed e hMem with ⟨hTrim, hText, client, hClient, hRest⟩
    exact ⟨hTrim, hText, client, hInsert client (Or.inl hClient), hRest⟩
  split
  · rw [List.append_nil]
    exact ⟨hKept.once, hOld⟩
  · rename_i hShown
    rcases newClient_secret hNew hShown with ⟨hRandom, hash, hRow, hHash⟩
    refine ⟨?_, ?_⟩
    · rw [List.map_append]
      refine hKept.once.append (List.nodup_singleton _) ?_
      rw [List.map_singleton, List.disjoint_singleton]
      intro hTaken
      rcases List.mem_map.mp hTaken with ⟨e, hMem, hId⟩
      rcases hKept.hashed e hMem with ⟨_, _, client, hClient, hClientId, _⟩
      exact Table.lookup_eq_none_iff.mp hFree client hClient (hClientId.trans hId)
    · intro e hMem
      rcases List.mem_append.mp hMem with hMem | hMem
      · exact hOld e hMem
      · rw [List.mem_singleton.mp hMem]
        rcases hDrawn secret hRandom with ⟨hTrim, hText⟩
        exact ⟨hTrim, hText, row, hInsert row (Or.inr rfl), rfl, hash, hRow, hPasswords _ _ _ hHash⟩

----
-- Sequences Of Calls
----

variable {c : Incoming}

theorem kept_serve
    (hPasswords : ∀ salt secret hash, srv.hashPassword salt secret = .ok hash →
    srv.verifyPassword secret hash = .ok true)
    (hManages : srv.Manages c) (hDrawn : Drawn c.env) {db : Db}
    {seen : List (String × String)} (hKept : srv.Kept db seen) :
    srv.Kept (srv.serve c db).2 (seen ++ shown c (srv.serve c db).1) := by
  rcases c with ⟨rpc, md, env⟩
  rcases hManages.2 with ⟨req, rfl⟩ | ⟨clientID, rfl⟩
  · rcases serve_create srv db md env req with ⟨e, hServe⟩ | ⟨row, secret, hNew, hFree, hServe⟩
    · rw [hServe]
      simpa only [shown, List.append_nil] using hKept
    · rw [hServe]
      exact kept_create hPasswords hDrawn hNew hFree hKept
  · rcases serve_rotate srv db md env clientID with ⟨e, hServe⟩
    rw [hServe]
    simpa only [shown, List.append_nil] using hKept

theorem not_ok_of_rotates {db : Db} (hRotates : Rotates c db) :
    ¬ ∃ r, (srv.serve c db).1 = .ok r := by
  rintro ⟨r, hOk⟩
  rcases c with ⟨rpc, md, env⟩
  cases rpc with
  | rotateOAuthClientSecret clientID =>
    rcases serve_rotate srv db md env clientID with ⟨e, hServe⟩
    rw [hServe] at hOk
    cases hOk
  | _ => exact hRotates.elim

/-
  Where a password passes the check of its own hash: a sequence of creations and rotations goes as
  it should exactly if it rotates for no client that exists.
-/
theorem secrets_current_iff (srv : Service)
    (hPasswords : ∀ salt secret hash, srv.hashPassword salt secret = .ok hash →
      srv.verifyPassword secret hash = .ok true) (db : Db)
    (calls : List Incoming) (hManages : ∀ c ∈ calls, srv.Manages c)
    (hDrawn : ∀ c ∈ calls, Drawn c.env) : srv.Correct db [] calls ↔ srv.Spares db calls := by
  have hStart : srv.Kept db [] := ⟨List.nodup_nil, fun _ hMem => absurd hMem List.not_mem_nil⟩
  generalize ([] : List (String × String)) = seen at hStart ⊢
  induction calls generalizing db seen with
  | nil => exact ⟨fun _ => trivial, fun _ => hStart.current⟩
  | cons c cs ih =>
    have hNext := kept_serve hPasswords (hManages c List.mem_cons_self)
      (hDrawn c List.mem_cons_self) hStart
    have hRest := ih (srv.serve c db).2 (fun c' hMem =>
        hManages c' (List.mem_cons_of_mem c hMem))
      (fun c' hMem =>
        hDrawn c' (List.mem_cons_of_mem c hMem)) _ hNext
    refine ⟨?_, ?_⟩
    · rintro ⟨_, hSucceeds, hMore⟩
      exact ⟨fun hRotates =>
        not_ok_of_rotates hRotates (hSucceeds hRotates),
        hRest.mp hMore⟩
    · rintro ⟨hSpared, hMore⟩
      exact ⟨hStart.current, fun hRotates => absurd hRotates hSpared, hRest.mpr hMore⟩

def adminHeader : Metadata := ⟨["bearer admin"], [], []⟩

/- The admin creates a confidential client. -/
def createsApp : Incoming :=
  ⟨.createOAuthClient ⟨"app", "confidential", ["https://app"], []⟩, adminHeader, Env.drawing 0 "s1"⟩

/- The admin rotates its secret. -/
def rotatesApp : Incoming := ⟨.rotateOAuthClientSecret "s1", adminHeader, Env.drawing 1 "s2"⟩

theorem drawn_drawing (now : Time) {random : String}
    (hTrim : trimSpace random = random ∧ random ≠ "") : Drawn (Env.drawing now random) := by
  intro secret hRandom
  cases hRandom
  exact hTrim

theorem created_secret_current : Service.plain.Correct Db.empty [] [createsApp] := by
  refine (secrets_current_iff Service.plain ?_ Db.empty [createsApp] ?_ ?_).mpr ⟨id, trivial⟩
  · intro salt secret hash hHash
    cases hHash
    exact congrArg Except.ok (decide_eq_true rfl)
  · intro c hMem
    rw [List.mem_singleton.mp hMem]
    exact ⟨by decide +kernel, Or.inl ⟨_, rfl⟩⟩
  · intro c hMem
    rw [List.mem_singleton.mp hMem]
    exact drawn_drawing 0 (by decide +kernel)

/- The rotation for the client that was just created fails: there is no column `secret`. -/
theorem rotation_refused :
    ((Service.plain.serve createsApp Db.empty).2.clients.rows.map Client.id = ["s1"] ∧
      (Service.plain.serve rotatesApp
      (Service.plain.serve createsApp Db.empty).2).1 = .error (internal
      (.pg (.undefinedColumn "oauth_clients" "secret")))) ∧
      ¬ Service.plain.Correct Db.empty [] [createsApp, rotatesApp] := by
  have hRun : (Service.plain.serve createsApp Db.empty).2.clients.rows.map Client.id = ["s1"] ∧
      (Service.plain.serve rotatesApp
      (Service.plain.serve createsApp Db.empty).2).1 = .error (internal
      (.pg (.undefinedColumn "oauth_clients" "secret"))) := ⟨by decide +kernel, rfl⟩
  refine ⟨hRun, ?_⟩
  rintro ⟨_, _, _, hSucceeds, _⟩
  have hMem := List.mem_of_mem_head? (congrArg List.head? hRun.1)
  rcases List.mem_map.mp hMem with ⟨client, hClient, hId⟩
  rcases hSucceeds ⟨client, hClient, Or.inl hId⟩ with ⟨r, hOk⟩
  rw [hRun.2] at hOk
  cases hOk

end Fincore.AuthService
