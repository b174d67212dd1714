import Fincore.Auth.Codes
import Fincore.Lib.Serial
import Mathlib.Data.Set.Function

/-
  The authorization code flow, one call after the other.

  Tokens are only given for a code that an earlier call of `OAuthAuthorize` returned, to the client
  and for the user of that call, with the redirect URI and the challenge it was made with, in time,
  and once.

  Key definitions include:
    * `OAuthCall` and `Server.after`
    * `Server.granted` and `Server.redeemed`
    * `Authorization` and `Server.Authorizes`

  Main results:
    * `oauthAuthorize_ok`
    * `oauthToken_ok`
    * `flowInv_perform`
    * `exchange_sound`
-/

----
-- Sequences Of Calls
----

namespace Fincore.Auth

/- A call of the flow. -/
inductive OAuthCall where
  | createClient (req : CreateClientRequest) (md : Metadata) (env : Env)
  | deleteClient (clientID : String) (md : Metadata) (env : Env)
  | authorize (req : AuthorizeRequest) (md : Metadata) (env : Env)
  | token (req : TokenRequest) (md : Metadata) (env : Env)

/- The time of a call. -/
def OAuthCall.now : OAuthCall → Time
| .createClient _ _ env => env.now
| .deleteClient _ _ env => env.now
| .authorize _ _ env => env.now
| .token _ _ env => env.now

/- The code that a call draws, or presents. -/
def OAuthCall.code? : OAuthCall → Option String
| .authorize _ _ env => env.random.toOption
| .token req _ _ => some (trimSpace req.code)
| _ => none

/- What a call leaves in the database. -/
def Server.perform (srv : Server) (db : AuthDb) : OAuthCall → AuthDb
| .createClient req md env =>
  (authdb.withTx (srv.createOAuthClient req md env) db).2
| .deleteClient clientID md env =>
  (authdb.withTx (srv.deleteOAuthClient clientID md env) db).2
| .authorize req md env =>
  (authdb.withTx (srv.oauthAuthorize req md env) db).2
| .token req md env =>
  (authdb.withTx (srv.oauthToken req md env) db).2

/- The code that a call returns. -/
def Server.grants (srv : Server) (db : AuthDb) : OAuthCall → List String
| .authorize req md env =>
  match (authdb.withTx (srv.oauthAuthorize req md env) db).1 with
  | .ok res => [res.code]
  | .error _ => []
| _ => []

/- The code that a call gets tokens for. -/
def Server.redeems (srv : Server) (db : AuthDb) : OAuthCall → List String
| .token req md env =>
  match (authdb.withTx (srv.oauthToken req md env) db).1 with
  | .ok _ => [trimSpace req.code]
  | .error _ => []
| _ => []

/- The database after a sequence of calls. -/
def Server.after (srv : Server) (db : AuthDb)
    (calls : List OAuthCall) : AuthDb := calls.foldl srv.perform db

/- The codes that the calls of a sequence returned. -/
def Server.granted (srv : Server) : AuthDb → List OAuthCall → List String
| _, [] => []
| db, call :: calls =>
  srv.grants db call ++ srv.granted (srv.perform db call) calls

/- The codes that the calls of a sequence got tokens for. -/
def Server.redeemed (srv : Server) : AuthDb → List OAuthCall → List String
| _, [] => []
| db, call :: calls =>
  srv.redeems db call ++ srv.redeemed (srv.perform db call) calls

variable (srv : Server) (db : AuthDb)

theorem Server.after_append (calls calls' : List OAuthCall) :
    srv.after db (calls ++ calls') = srv.after (srv.after db calls) calls' := List.foldl_append ..

theorem Server.granted_append (calls calls' : List OAuthCall) :
    srv.granted db (calls ++ calls') = srv.granted db calls ++
    srv.granted (srv.after db calls) calls' := by
  induction calls generalizing db with
  | nil => rfl
  | cons call calls ih =>
    rw [List.cons_append, granted, granted, ih, List.append_assoc]
    rfl

theorem Server.redeemed_append (calls calls' : List OAuthCall) :
    srv.redeemed db (calls ++ calls') = srv.redeemed db calls ++
    srv.redeemed (srv.after db calls) calls' := by
  induction calls generalizing db with
  | nil => rfl
  | cons call calls ih =>
    rw [List.cons_append, redeemed, redeemed, ih, List.append_assoc]
    rfl

----
-- Calls That Succeed
----

variable {srv : Server} {db db' : AuthDb} {md : Metadata} {env : Env}

theorem createOAuthClient_ok {req : CreateClientRequest} {res : Client × String}
    (hOk : authdb.withTx (srv.createOAuthClient req md env) db =
    (.ok res, db')) : ∃ row, row.allowedScopes = registerScopes req.allowedScopes ∧
    db' = (Write.insertClient row).apply db := by
  unfold Server.createOAuthClient at hOk
  cases hNew : srv.newClient req md env with
  | error e =>
    rw [hNew] at hOk
    cases hOk
  | ok new =>
    rcases new with ⟨row, secret⟩
    rw [hNew] at hOk
    rcases Engine.serial_ask_ok hOk with ⟨u, ws, hExec, hRest⟩
    rw [(insertion_ok hExec).2] at hRest
    cases hRest
    refine ⟨row, ?_, rfl⟩
    unfold Server.newClient at hNew
    split at hNew
    · cases hNew
    · split at hNew
      · cases hNew
      · cases hNew
        rfl

variable {clientID : String}

theorem deleteOAuthClient_ok {u : Unit}
    (hOk : authdb.withTx (srv.deleteOAuthClient clientID md env) db =
    (.ok u, db')) : ∃ id, db' = (Write.deleteClient id).apply db := by
  unfold Server.deleteOAuthClient at hOk
  cases hAllowed : srv.requirePermissionFromAuthHeader md env "auth:admin" with
  | error e =>
    rw [hAllowed] at hOk
    cases hOk
  | ok u =>
    rw [hAllowed, Prog.ofExcept_ok, Prog.ret_bind] at hOk
    split at hOk
    · cases hOk
    · rcases Engine.serial_ask_ok hOk with ⟨n, ws, hExec, hRest⟩
      cases hRow : db.clients.lookup (trimSpace clientID) with
      | none =>
        simp only [authdb, Engine.view_nil, Stmt.exec, hRow] at hExec
        cases hExec
        cases hRest
      | some row =>
        simp only [authdb, Engine.view_nil, Stmt.exec, hRow] at hExec
        cases hExec
        cases hRest
        exact ⟨_, rfl⟩

/- The bearer token of a request was verified as a user's. -/
def Server.VerifiedAs (srv : Server) (md : Metadata) (now : Time) (userID : String) : Prop :=
  ∃ value token payload, md.authorization.head? = some value ∧
      afterWord "Bearer " (trimSpace value) = some token ∧
      srv.verifyToken now (trimSpace token) = .ok payload ∧ payload.userID = userID

theorem Server.payload_ok {now : Time} {token : String} {payload : TokenPayload}
    (hOk : srv.payload now token = .ok payload) : srv.verifyToken now token = .ok payload := by
  unfold Server.payload at hOk
  split at hOk
  · rename_i hVerified
    cases hOk
    exact hVerified
  · cases hOk
  · cases hOk
  · cases hOk

variable {userID : String}

theorem Server.userIDFromAuthHeader_ok
    (hOk : srv.userIDFromAuthHeader md env = .ok userID) : srv.VerifiedAs md env.now userID := by
  unfold Server.userIDFromAuthHeader at hOk
  cases hHeader : md.authorization with
  | nil =>
    rw [hHeader] at hOk
    cases hOk
  | cons value values =>
    rw [hHeader] at hOk
    cases hWord : afterWord "Bearer " (trimSpace value) with
    | none =>
      simp only [hWord] at hOk
      cases hOk
    | some token =>
      simp only [hWord] at hOk
      split at hOk
      · cases hOk
      · split at hOk
        · cases hOk
        · rename_i payload hPayload
          split at hOk
          · cases hOk
          · cases hOk
            exact ⟨value, token, payload, congrArg List.head? hHeader, hWord,
              Server.payload_ok hPayload, rfl⟩

/- What a new code was checked for, and what it is for. -/
structure Server.Granting (srv : Server) (req : AuthorizeRequest)
    (md : Metadata) (env : Env) (client : Client) (code : String) (row : Code) : Prop where
  drawn : env.random = .ok code
  hash : row.codeHash = srv.sha256 code
  user : srv.VerifiedAs md env.now row.userID
  holder : row.clientID = client.id
  redirect : row.redirectURI = trimSpace req.redirectURI
  listed : row.redirectURI ∈ client.redirectURIs
  scopes : client.allowedScopes ≠ [] → ∀ s ∈ row.scopes, s ∈ registerScopes client.allowedScopes
  challenge : row.codeChallenge = trimSpace req.codeChallenge
  expires : row.expiresAt = timestamptz (env.now + 300000000000)

variable {req : AuthorizeRequest} {client : Client}

variable {code : String}

theorem Server.Granting.consume {row : Code} (hGrant : srv.Granting req md env client code row)
    (at_ : Time) :
    srv.Granting req md env client code (row.consume at_) :=
  ⟨hGrant.drawn, hGrant.hash, hGrant.user, hGrant.holder,
    hGrant.redirect, hGrant.listed, hGrant.scopes, hGrant.challenge, hGrant.expires⟩

theorem Client.mem_of_allowsScopes {scopes : List String}
    (hAllows : client.allowsScopes scopes = true) (hSome : client.allowedScopes ≠ []) :
    ∀ s ∈ scopes, s ∈ registerScopes client.allowedScopes := by
  intro s hMem
  unfold Client.allowsScopes at hAllows
  rw [Bool.or_eq_true, List.isEmpty_iff, List.all_eq_true] at hAllows
  rcases hAllows with hNone | hAll
  · exact absurd hNone hSome
  · exact of_decide_eq_true (hAll s hMem)

theorem Server.checkGrant_ok (hOk : srv.checkGrant req md env client = .ok userID) :
    trimSpace req.redirectURI ∈ client.redirectURIs ∧
    client.allowsScopes (splitScopes req.scope) = true ∧ srv.VerifiedAs md env.now userID := by
  unfold Server.checkGrant at hOk
  split at hOk
  · cases hOk
  · rename_i hListed
    split at hOk
    · cases hOk
    · rename_i hScopes
      split at hOk
      · cases hOk
      · split at hOk
        · cases hOk
        · exact ⟨not_not.mp hListed, not_not.mp hScopes, Server.userIDFromAuthHeader_ok hOk⟩

theorem Server.newCode_ok {row : Code} (hOk : srv.newCode req md env client = .ok (row, code)) :
    srv.Granting req md env client code row ∧ row.consumedAt = none := by
  unfold Server.newCode at hOk
  split at hOk
  · cases hOk
  · rename_i userID hGrant
    split at hOk
    · cases hOk
    · rename_i token hToken
      cases hOk
      rcases Server.checkGrant_ok hGrant with ⟨hListed, hScopes, hUser⟩
      refine ⟨?_, rfl⟩
      exact {
        drawn := Env.token_ok hToken
        hash := rfl
        user := hUser
        holder := rfl
        redirect := rfl
        listed := hListed
        scopes := by
          dsimp only
          exact Client.mem_of_allowsScopes hScopes
        challenge := rfl
        expires := rfl }

variable {α : Type}

/- The client that a call which succeeds has looked up. -/
theorem knownClient_ok {f : Client → Tx α} {a : α}
    (hOk : authdb.withTx (knownClient clientID >>= f) db = (.ok a, db')) :
    ∃ client ∈ db.clients.rows, client.id = trimSpace clientID ∧
    authdb.withTx (f client) db = (.ok a, db') := by
  rw [knownClient_bind] at hOk
  split at hOk
  · cases hOk
  · rcases Engine.serial_ask_ok hOk with ⟨row, ws, hExec, hRest⟩
    cases hExec
    cases hRow : db.clients.lookup (trimSpace clientID) with
    | none =>
      rw [Engine.view_nil, hRow] at hRest
      cases hRest
    | some client =>
      rw [Engine.view_nil, hRow] at hRest
      rcases Table.lookup_eq_some_iff.mp hRow with ⟨hMem, hId⟩
      exact ⟨client, hMem, hId, hRest⟩

theorem oauthAuthorize_ok {res : AuthorizeResponse}
    (hOk : authdb.withTx (srv.oauthAuthorize req md env) db = (.ok res, db')) :
    ∃ client ∈ db.clients.rows, ∃ row, client.id = trimSpace req.clientID ∧
    srv.Granting req md env client res.code row ∧ row.consumedAt = none ∧
    db' = (Write.insertCode row).apply db := by
  unfold Server.oauthAuthorize at hOk
  cases hCheck : srv.checkAuthorize req with
  | error e =>
    rw [hCheck] at hOk
    cases hOk
  | ok u =>
    rw [hCheck, Prog.ofExcept_ok, Prog.ret_bind] at hOk
    rcases knownClient_ok hOk with ⟨client, hMem, hId, hFor⟩
    rw [trimSpace_trimSpace] at hId
    unfold Server.authorizeFor at hFor
    split at hFor
    · cases hFor
    · rename_i row code hNew
      rcases Server.newCode_ok hNew with ⟨hGrant, hUnused⟩
      unfold Server.storeCode at hFor
      split at hFor
      · cases hFor
      · rcases Engine.serial_ask_ok hFor with ⟨v, ws, hExec, hRest⟩
        rw [(Stmt.exec_insertCode hExec).2.2.2] at hRest
        cases hRest
        exact ⟨client, hMem, row, hId, hGrant, hUnused, rfl⟩

/- The tokens of a response are a user's. -/
def Server.IssuedFor (srv : Server) (env : Env) (db : AuthDb)
    (res : TokenResponse) (userID : String) : Prop :=
  (∃ roles perms, srv.accessToken env userID roles perms =
      .ok res.accessToken) ∧ ∃ s ∈ db.sessions.rows,
      s.tokenHash = srv.hashRefreshToken res.refreshToken ∧ s.userID = userID

variable {ws : List Write}

theorem getRolesAndPermissions_ok {began : Nat} {f : List String × List String → Tx α} {a : α}
    (hOk : authdb.serial began (getRolesAndPermissions userID >>= f) ws db =
    (.ok a, db')) : ∃ roles perms,
    authdb.serial began (f (roles, perms)) ws db = (.ok a, db') := by
  rcases Engine.serial_ask_ok hOk with ⟨roles, ws₁, hRoles, hOk⟩
  cases hRoles
  rcases Engine.serial_ask_ok hOk with ⟨perms, ws₂, hPerms, hOk⟩
  cases hPerms
  rw [List.append_nil, List.append_nil] at hOk
  refine ⟨(authdb.view db ws).roles userID, (authdb.view db ws).permissions userID, ?_⟩
  by_cases hNone : (authdb.view db ws).roles userID = []
  · rw [hNone] at hOk
    cases hOk
  · simp only [if_neg hNone] at hOk
    exact hOk

variable {res : TokenResponse}

theorem Server.issueTokens_ok {began : Nat}
    (hOk : authdb.serial began (srv.issueTokens env userID) ws db =
    (.ok res, db')) : ∃ row, db' = (Write.insertSession row).apply
    (authdb.view db ws) ∧ srv.IssuedFor env db' res userID := by
  unfold Server.issueTokens at hOk
  rcases getRolesAndPermissions_ok hOk with ⟨roles, perms, hOk⟩
  rcases Engine.serial_ofExcept_ok hOk with ⟨access, hAccess, hOk⟩
  rcases Engine.serial_ofExcept_ok hOk with ⟨refresh, _, hOk⟩
  rcases Engine.serial_ask_ok hOk with ⟨u, ws', hExec, hRest⟩
  rcases Stmt.exec_insertSession hExec with ⟨_, hFree, rfl⟩
  cases hRest
  rw [Engine.view_append]
  exact ⟨_, rfl, ⟨roles, perms, hAccess⟩, _, (Table.mem_insert hFree).mpr (Or.inr rfl), rfl, rfl⟩

/- What a call for tokens has found, and what it leaves. -/
structure Server.Redemption (srv : Server) (db : AuthDb) (args : TokenArgs)
    (md : Metadata) (env : Env) (client : Client) (c : Code)
    (res : TokenResponse) (db' : AuthDb) : Prop where
  known : client ∈ db.clients.rows
  named : client.id = args.clientID
  authenticated : srv.authenticate md client args.clientSecret = .ok ()
  stored : c ∈ db.codes.rows
  hash : c.codeHash = srv.sha256 args.code
  holder : c.clientID = client.id
  accepted : srv.acceptsCode args env.now c
  clients : db'.clients = db.clients
  codes : db'.codes = db.codes.modify c.codeHash (Code.consume (timestamptz env.now)) (fun _ => rfl)
  issued : srv.IssuedFor env db' res c.userID

/- The name of the client is trimmed when it is read. -/
theorem Server.trimSpace_credentials (srv : Server) (req : TokenRequest)
    (md : Metadata) : trimSpace (srv.credentials req md).1 = (srv.credentials req md).1 := by
  unfold Server.credentials
  split
  · split
    · rfl
    · exact trimSpace_trimSpace _
  · exact trimSpace_trimSpace _

theorem oauthToken_ok {req : TokenRequest}
    (hOk : authdb.withTx (srv.oauthToken req md env) db = (.ok res, db')) :
    ∃ client c, srv.Redemption db (srv.tokenArgs req md) md env client c res db' := by
  unfold Server.oauthToken at hOk
  rcases Engine.serial_ofExcept_ok hOk with ⟨_, _, hOk⟩
  rcases knownClient_ok hOk with ⟨client, hMem, hId, hOk⟩
  unfold Server.exchangeFor at hOk
  rcases Engine.serial_ofExcept_ok hOk with ⟨_, hAuthenticated, hOk⟩
  rcases Engine.serial_ask_ok hOk with ⟨row, ws, hRead, hOk⟩
  replace hOk : authdb.serial 0 (srv.redeem (srv.tokenArgs req md) env
        row) ws db = (.ok res, db') := hOk
  rcases Server.redeem_eq (c := ⟨req, md, env⟩) hRead with
    ⟨rfl, ⟨e, hNext⟩ | ⟨c, hRow, hHash, hHolder, hAccepts, hNext⟩⟩
  · dsimp only at hNext
    rw [hNext] at hOk
    cases hOk
  · dsimp only at hNext
    rw [hNext] at hOk
    rcases Engine.serial_ask_ok hOk with ⟨n, ws, hExec, hOk⟩
    have hFound : db.codes.lookup (srv.presentedCode ⟨req, md, env⟩) = some c :=
      Table.lookup_eq_some_iff.mpr ⟨hRow, hHash⟩
    simp only [authdb, Engine.view_nil, Stmt.exec, hFound, if_pos hAccepts.1] at hExec
    cases hExec
    rcases Server.issueTokens_ok hOk with ⟨s, hLeft, hIssued⟩
    have hName := hId.trans (srv.trimSpace_credentials req md)
    refine ⟨client, c, ?_⟩
    exact {
      known := hMem
      named := hName
      authenticated := hAuthenticated
      stored := hRow
      hash := hHash
      holder := hHolder
      accepted := hAccepts
      clients := by
        rw [hLeft]
        rfl
      codes := by
        rw [hLeft, hHash]
        rfl
      issued := hIssued }

----
-- Codes And The Calls That Returned Them
----

variable {c : Code} {calls : List OAuthCall}

/- A call of `OAuthAuthorize` in a sequence of calls. -/
structure Authorization where
  before : List OAuthCall
  req : AuthorizeRequest
  md : Metadata
  env : Env
  between : List OAuthCall
  client : Client
  code : String

def Authorization.call (a : Authorization) : OAuthCall := .authorize a.req a.md a.env

/-
  The row is the code that this call returned, its client is still registered, and unless it is
  consumed no call has redeemed it.
-/
structure Server.Authorizes (srv : Server) (db : AuthDb)
    (calls : List OAuthCall) (a : Authorization) (c : Code) : Prop where
  made : calls = a.before ++ a.call :: a.between
  returned : ∃ res, (authdb.withTx (srv.oauthAuthorize a.req a.md a.env)
        (srv.after db a.before)).1 = .ok res ∧ res.code = a.code
  registered : a.client ∈ (srv.after db a.before).clients.rows
  named : a.client.id = trimSpace a.req.clientID
  grant : srv.Granting a.req a.md a.env a.client a.code c
  kept : a.client ∈ (srv.after db calls).clients.rows
  unused : c.consumedAt = none → a.code ∉ srv.redeemed
        (srv.after db (a.before ++ [a.call])) a.between

/- Every row of the flow comes from a call of it. -/
structure Server.FlowInv (srv : Server) (db : AuthDb) (calls : List OAuthCall) : Prop where
  scopes : ∀ client ∈ (srv.after db calls).clients.rows,
      registerScopes client.allowedScopes = client.allowedScopes
  codes : ∀ c ∈ (srv.after db calls).codes.rows, ∃ a, srv.Authorizes db calls a c

theorem Server.after_concat (srv : Server) (db : AuthDb)
    (calls : List OAuthCall) (call : OAuthCall) :
    srv.after db (calls ++ [call]) = srv.perform (srv.after db calls) call :=
  srv.after_append db calls [call]

variable {a : Authorization}

variable {call : OAuthCall}

theorem Server.Authorizes.concat {c' : Code} (hAuth : srv.Authorizes db calls a c)
    (hGrant : srv.Granting a.req a.md a.env a.client a.code c')
    (hKept : a.client ∈ (srv.perform (srv.after db calls) call).clients.rows)
    (hUnused : c'.consumedAt = none → c.consumedAt = none ∧
      a.code ∉ srv.redeems (srv.after db calls) call) : srv.Authorizes db (calls ++ [call])
      { a with between := a.between ++ [call] } c' := by
  refine ⟨?_, hAuth.returned, hAuth.registered, hAuth.named, hGrant, ?_, ?_⟩
  · rw [hAuth.made, List.append_assoc, List.cons_append]
    rfl
  · rw [srv.after_concat]
    exact hKept
  · intro hNone
    rcases hUnused hNone with ⟨hBefore, hNow⟩
    have hHere : srv.after (srv.after db (a.before ++ [a.call]))
        a.between = srv.after db calls := by
      rw [← srv.after_append, hAuth.made, List.append_assoc]
      rfl
    show a.code ∉ srv.redeemed (srv.after db (a.before ++ [a.call])) (a.between ++ [call])
    rw [srv.redeemed_append, hHere, redeemed, redeemed, List.append_nil, List.mem_append, not_or]
    exact ⟨hAuth.unused hBefore, hNow⟩

/- A transaction changes nothing, or it ends well. -/
theorem withTx_cases (p : Tx α) (db : AuthDb) :
    (∃ e, authdb.withTx p db = (.error e, db)) ∨ ∃ a db', authdb.withTx p db = (.ok a, db') := by
  cases hAnswer : (authdb.withTx p db).1 with
  | error e =>
    have hSame : (authdb.withTx p db).2 = db :=
      Engine.serial_error_observe authdb id (fun _ _ => rfl) _ p [] db hAnswer
    exact Or.inl ⟨e, Prod.ext hAnswer hSame⟩
  | ok a => exact Or.inr ⟨a, _, Prod.ext hAnswer rfl⟩

/- A call that changes nothing and gets no tokens. -/
theorem flowInv_unchanged (hInv : srv.FlowInv db calls)
    (hSame : srv.perform (srv.after db calls) call = srv.after db calls)
    (hNone : srv.redeems (srv.after db calls) call = []) : srv.FlowInv db (calls ++ [call]) := by
  constructor
  · rw [srv.after_concat, hSame]
    exact hInv.scopes
  · rw [srv.after_concat, hSame]
    intro c hRow
    rcases hInv.codes c hRow with ⟨a, hAuth⟩
    refine ⟨_, hAuth.concat hAuth.grant ?_ ?_⟩
    · rw [hSame]
      exact hAuth.kept
    · intro hUnused
      rw [hNone]
      exact ⟨hUnused, List.not_mem_nil⟩

theorem registerScopes_registerScopes (scopes : List String) :
    registerScopes (registerScopes scopes) = registerScopes scopes := by
  have hTrimmed : (registerScopes scopes).map trimSpace = registerScopes scopes := by
    refine (List.map_congr_left ?_).trans (List.map_id _)
    intro s hMem
    rcases List.mem_map.mp (List.mem_of_mem_filter hMem) with ⟨s', _, rfl⟩
    exact trimSpace_trimSpace s'
  rw [registerScopes, hTrimmed, registerScopes, List.filter_filter]
  simp only [Bool.and_self]

theorem flowInv_createClient (hInv : srv.FlowInv db calls)
    (req : CreateClientRequest) (md : Metadata) (env : Env) :
    srv.FlowInv db (calls ++ [.createClient req md env]) := by
  rcases withTx_cases (srv.createOAuthClient req md env)
      (srv.after db calls) with ⟨e, hRun⟩ | ⟨res, db', hRun⟩
  · exact flowInv_unchanged hInv (congrArg Prod.snd hRun) rfl
  · rcases createOAuthClient_ok hRun with ⟨row, hScopes, rfl⟩
    have hLeft : srv.perform (srv.after db calls) (.createClient req md env) =
        (Write.insertClient row).apply (srv.after db calls) := congrArg Prod.snd hRun
    constructor
    · rw [srv.after_concat, hLeft]
      intro client hMem
      rcases Table.mem_of_mem_insert hMem with hOld | rfl
      · exact hInv.scopes client hOld
      · rw [hScopes]
        exact registerScopes_registerScopes _
    · rw [srv.after_concat, hLeft]
      intro c hRow
      rcases hInv.codes c hRow with ⟨a, hAuth⟩
      refine ⟨_, hAuth.concat hAuth.grant ?_ ?_⟩
      · rw [hLeft]
        exact Table.mem_insert_of_mem hAuth.kept row
      · exact fun hUnused => ⟨hUnused, List.not_mem_nil⟩

theorem flowInv_deleteClient (hInv : srv.FlowInv db calls) (clientID : String)
    (md : Metadata) (env : Env) : srv.FlowInv db (calls ++ [.deleteClient clientID md env]) := by
  rcases withTx_cases (srv.deleteOAuthClient clientID md env)
      (srv.after db calls) with ⟨e, hRun⟩ | ⟨res, db', hRun⟩
  · exact flowInv_unchanged hInv (congrArg Prod.snd hRun) rfl
  · rcases deleteOAuthClient_ok hRun with ⟨id, rfl⟩
    have hLeft : srv.perform (srv.after db calls)
        (.deleteClient clientID md env) = (Write.deleteClient id).apply
        (srv.after db calls) := congrArg Prod.snd hRun
    constructor
    · rw [srv.after_concat, hLeft]
      intro client hMem
      exact hInv.scopes client (Table.mem_filter.mp hMem).1
    · rw [srv.after_concat, hLeft]
      intro c hRow
      rcases Table.mem_filter.mp hRow with ⟨hOld, hOther⟩
      rcases hInv.codes c hOld with ⟨a, hAuth⟩
      refine ⟨_, hAuth.concat hAuth.grant ?_ ?_⟩
      · -- the client of a code that is left is left
        rw [hLeft]
        refine Table.mem_filter.mpr ⟨hAuth.kept, ?_⟩
        rw [← hAuth.grant.holder]
        exact hOther
      · exact fun hUnused => ⟨hUnused, List.not_mem_nil⟩

theorem flowInv_authorize (hInv : srv.FlowInv db calls) (req : AuthorizeRequest)
    (md : Metadata) (env : Env) : srv.FlowInv db (calls ++ [.authorize req md env]) := by
  rcases withTx_cases (srv.oauthAuthorize req md env)
      (srv.after db calls) with ⟨e, hRun⟩ | ⟨res, db', hRun⟩
  · exact flowInv_unchanged hInv (congrArg Prod.snd hRun) rfl
  · rcases oauthAuthorize_ok hRun with ⟨client, hMem, row, hName, hGrant, _, rfl⟩
    have hLeft : srv.perform (srv.after db calls) (.authorize req md env) =
        (Write.insertCode row).apply (srv.after db calls) := congrArg Prod.snd hRun
    constructor
    · rw [srv.after_concat, hLeft]
      exact hInv.scopes
    · rw [srv.after_concat, hLeft]
      intro c hRow
      rcases Table.mem_of_mem_insert hRow with hOld | rfl
      · rcases hInv.codes c hOld with ⟨a, hAuth⟩
        refine ⟨_, hAuth.concat hAuth.grant ?_ ?_⟩
        · rw [hLeft]
          exact hAuth.kept
        · exact fun hUnused => ⟨hUnused, List.not_mem_nil⟩
      · refine ⟨⟨calls, req, md, env, [], client, res.code⟩,
          rfl, ⟨res, congrArg Prod.fst hRun, rfl⟩, hMem,
          hName, hGrant, ?_, fun _ => List.not_mem_nil⟩
        rw [srv.after_concat, hLeft]
        exact hMem

theorem flowInv_token (hInv : srv.FlowInv db calls) (req : TokenRequest)
    (md : Metadata) (env : Env) : srv.FlowInv db (calls ++ [.token req md env]) := by
  rcases withTx_cases (srv.oauthToken req md env)
      (srv.after db calls) with ⟨e, hRun⟩ | ⟨res, db', hRun⟩
  · refine flowInv_unchanged hInv (congrArg Prod.snd hRun) ?_
    rw [Server.redeems, hRun]
  · rcases oauthToken_ok hRun with ⟨client, used, hRedeem⟩
    have hLeft : srv.perform (srv.after db calls) (.token req md env) = db' :=
      congrArg Prod.snd hRun
    constructor
    · rw [srv.after_concat, hLeft, hRedeem.clients]
      exact hInv.scopes
    · rw [srv.after_concat, hLeft, hRedeem.codes]
      intro c hRow
      rcases Table.mem_modify.mp hRow with ⟨old, hOld, rfl⟩
      rcases hInv.codes old hOld with ⟨a, hAuth⟩
      have hKept : a.client ∈ (srv.perform (srv.after db calls)
          (.token req md env)).clients.rows := by
        rw [hLeft, hRedeem.clients]
        exact hAuth.kept
      split
      · refine ⟨_, hAuth.concat (hAuth.grant.consume _) hKept ?_⟩
        intro hUnused
        cases hUnused
      · rename_i hOther
        refine ⟨_, hAuth.concat hAuth.grant hKept ?_⟩
        intro hUnused
        refine ⟨hUnused, ?_⟩
        rw [Server.redeems, hRun, List.mem_singleton]
        intro hCode
        refine hOther ?_
        rw [hAuth.grant.hash, hRedeem.hash, hCode]
        rfl

/- What one more call keeps. -/
theorem flowInv_perform (hInv : srv.FlowInv db calls) (call : OAuthCall) :
    srv.FlowInv db (calls ++ [call]) := by
  cases call with
  | createClient req md env =>
    exact flowInv_createClient hInv req md env
  | deleteClient clientID md env =>
    exact flowInv_deleteClient hInv clientID md env
  | authorize req md env =>
    exact flowInv_authorize hInv req md env
  | token req md env => exact flowInv_token hInv req md env

/- From empty tables on, every row comes from a call. -/
theorem flowInv_after (hClients : db.clients.rows = [])
    (hCodes : db.codes.rows = []) (calls : List OAuthCall) : srv.FlowInv db calls := by
  induction calls using List.reverseRecOn with
  | nil =>
    constructor
    · show ∀ client ∈ db.clients.rows, _
      rw [hClients]
      exact List.forall_mem_nil _
    · show ∀ c ∈ db.codes.rows, _
      rw [hCodes]
      exact List.forall_mem_nil _
  | append_singleton calls call ih =>
    exact flowInv_perform ih call

----
-- Sound Exchanges
----

/- The calls are made at nondecreasing times. -/
def InOrder (calls : List OAuthCall) : Prop :=
  calls.Pairwise (fun call call' => call.now ≤ call'.now)

instance (calls : List OAuthCall) : Decidable (InOrder calls) :=
  inferInstanceAs (Decidable (List.Pairwise _ _))

/- The codes that the calls of a sequence draw or present. -/
def codesOf (calls : List OAuthCall) : Set String :=
  { x | ∃ call ∈ calls, call.code? = some x }

theorem codesOf_mono {calls calls' : List OAuthCall} (hSub : calls ⊆ calls') :
    codesOf calls ⊆ codesOf calls' := by
  rintro x ⟨call, hMem, hCode⟩
  exact ⟨call, hSub hMem, hCode⟩

theorem Server.Authorizes.drawn {calls : List OAuthCall}
    {c : Code} (hAuth : srv.Authorizes db calls a c) : a.code ∈ codesOf calls := by
  refine ⟨a.call, ?_, ?_⟩
  · rw [hAuth.made]
    exact List.mem_append_right _ List.mem_cons_self
  · show a.env.random.toOption = some a.code
    rw [hAuth.grant.drawn]
    rfl

theorem Server.Authorizes.mem_granted {calls : List OAuthCall} {c : Code}
    (hAuth : srv.Authorizes db calls a c) :
    a.code ∈ srv.granted db calls := by
  rcases hAuth.returned with ⟨res, hAnswer, hCode⟩
  have hGrants : srv.grants (srv.after db a.before) a.call = [a.code] := by
    rw [Authorization.call, Server.grants, hAnswer, ← hCode]
  rw [hAuth.made, srv.granted_append, granted, hGrants]
  exact List.mem_append_right _ List.mem_cons_self

theorem exists_authorizes_of_token {calls : List OAuthCall} {req : TokenRequest}
    {md : Metadata} {env : Env} {db' : AuthDb} (hInv : srv.FlowInv db calls)
    (hFree : Set.InjOn srv.sha256 (codesOf (calls ++ [.token req md env])))
    (hRun : authdb.withTx (srv.oauthToken req md env) (srv.after db calls) = (.ok res, db')) :
    ∃ a c, srv.Authorizes db calls a c ∧ a.code = trimSpace req.code ∧
    srv.Redemption (srv.after db calls) (srv.tokenArgs req md) md env a.client c res db' := by
  rcases oauthToken_ok hRun with ⟨client, c, hRedeem⟩
  rcases hInv.codes c hRedeem.stored with ⟨a, hAuth⟩
  -- the client was not registered anew in between
  have hClient : client = a.client :=
    Table.eq_of_key hRedeem.known hAuth.kept (hRedeem.holder.symm.trans hAuth.grant.holder)
  subst hClient
  refine ⟨a, c, hAuth, ?_, hRedeem⟩
  refine hFree ?_ ?_ ?_
  · exact codesOf_mono (List.subset_append_left _ _) hAuth.drawn
  · exact ⟨.token req md env, List.mem_append_right _ List.mem_cons_self, rfl⟩
  · exact hAuth.grant.hash.symm.trans hRedeem.hash

/- Only codes that were returned before are redeemed. -/
theorem mem_granted_of_redeemed (hClients : db.clients.rows = [])
    (hCodes : db.codes.rows = []) {calls : List OAuthCall}
    (hFree : Set.InjOn srv.sha256 (codesOf calls)) {x : String}
    (hMem : x ∈ srv.redeemed db calls) : x ∈ srv.granted db calls := by
  induction calls using List.reverseRecOn with
  | nil => cases hMem
  | append_singleton calls call ih =>
    rw [srv.redeemed_append, Server.redeemed,
      Server.redeemed, List.append_nil, List.mem_append] at hMem
    rw [srv.granted_append]
    refine List.mem_append_left _ ?_
    rcases hMem with hOld | hNew
    · exact ih (hFree.mono (codesOf_mono (List.subset_append_left _ _))) hOld
    · cases call with
      | token req md env =>
        rcases withTx_cases (srv.oauthToken req md env)
            (srv.after db calls) with ⟨e, hRun⟩ | ⟨res, db', hRun⟩
        · rw [Server.redeems, hRun] at hNew
          cases hNew
        · rw [Server.redeems, hRun, List.mem_singleton] at hNew
          subst hNew
          rcases exists_authorizes_of_token (flowInv_after hClients hCodes calls)
              hFree hRun with ⟨a, c, hAuth, hCode, _⟩
          rw [← hCode]
          exact hAuth.mem_granted
      | _ => cases hNew

theorem Server.Authorizes.not_mem_redeemed (hClients : db.clients.rows = [])
    (hCodes : db.codes.rows = []) {calls : List OAuthCall}
    {c : Code} (hAuth : srv.Authorizes db calls a c) (hUnused : c.consumedAt = none)
    (hFree : Set.InjOn srv.sha256 (codesOf calls)) (hNew : a.code ∉ srv.granted db a.before) :
    a.code ∉ srv.redeemed db calls := by
  have hSub : codesOf a.before ⊆ codesOf calls := by
    refine codesOf_mono ?_
    rw [hAuth.made]
    exact List.subset_append_left _ _
  have hCalls : calls = (a.before ++ [a.call]) ++ a.between := by
    rw [hAuth.made, List.append_assoc]
    rfl
  rw [hCalls, srv.redeemed_append, srv.redeemed_append]
  intro hMem
  rcases List.mem_append.mp hMem with hEarly | hLate
  · rcases List.mem_append.mp hEarly with hBefore | hCall
    · exact hNew (mem_granted_of_redeemed hClients hCodes (hFree.mono hSub) hBefore)
    · cases hCall
  · exact hAuth.unused hUnused hLate

/-
  What stands behind a call that got tokens: the call of `OAuthAuthorize`, and the row `c` it
  stored.
-/
structure Server.Exchanged (srv : Server) (db : AuthDb) (calls : List OAuthCall)
    (req : TokenRequest) (md : Metadata) (env : Env) (res : TokenResponse)
    (a : Authorization) (c : Code) : Prop where
  -- an earlier call returned this code
  earlier : calls = a.before ++ a.call :: a.between
  returned : ∃ r, (authdb.withTx (srv.oauthAuthorize a.req a.md a.env)
        (srv.after db a.before)).1 = .ok r ∧ r.code = trimSpace req.code
  -- the tokens are for the user that made it
  verified : srv.VerifiedAs a.md a.env.now c.userID
  issued : srv.IssuedFor env (srv.perform (srv.after db calls) (.token req md env)) res c.userID
  -- both calls name the client, registered all the time
  registered : a.client ∈ (srv.after db a.before).clients.rows ∧
      a.client ∈ (srv.after db calls).clients.rows
  client : trimSpace a.req.clientID = a.client.id ∧ (srv.tokenArgs req md).clientID = a.client.id
  -- both calls name the redirect URI, which is the client's
  redirect : trimSpace a.req.redirectURI = trimSpace req.redirectURI
  listed : trimSpace req.redirectURI ∈ a.client.redirectURIs
  -- the stored scopes are allowed
  stored : c ∈ (srv.after db calls).codes.rows
  scopes : a.client.allowedScopes ≠ [] → ∀ s ∈ c.scopes, s ∈ a.client.allowedScopes
  challenge : srv.sha256 (trimSpace req.codeVerifier) = trimSpace a.req.codeChallenge
  inTime : a.env.now ≤ env.now ∧ env.now ≤ a.env.now + 300000000000
  -- no call has redeemed the code since, nor any before
  -- unless the same code had been drawn before
  unused : trimSpace req.code ∉ srv.redeemed (srv.after db (a.before ++ [a.call])) a.between
  first : trimSpace req.code ∉ srv.granted db a.before → trimSpace req.code ∉ srv.redeemed db calls
  secret : a.client.type = "confidential" → ∃ hash sec, a.client.secretHash = some hash ∧
        srv.presentedSecret md a.client (srv.tokenArgs req md).clientSecret = .ok sec ∧
        srv.verifyPassword sec hash = .ok true

theorem Server.authenticate_ok {md : Metadata} {clientSecret : String}
    (hOk : srv.authenticate md client clientSecret = .ok ())
    (hType : client.type = "confidential") : ∃ hash sec, client.secretHash = some hash ∧
    srv.presentedSecret md client clientSecret = .ok sec ∧
    srv.verifyPassword sec hash = .ok true := by
  unfold Server.authenticate at hOk
  rw [if_pos hType] at hOk
  split at hOk
  · cases hOk
  · rename_i hash hHash
    split at hOk
    · cases hOk
    · rename_i sec hSecret
      split at hOk
      · cases hOk
      · cases hOk
      · rename_i hVerified
        exact ⟨hash, sec, hHash, hSecret, hVerified⟩

/-
  From empty tables on, at nondecreasing times and without collisions between codes: a call that
  gets tokens presents a code that an earlier call returned, and all that holds of the two.
-/
theorem exchange_sound (srv : Server) (db : AuthDb)
    (hClients : db.clients.rows = []) (hCodes : db.codes.rows = [])
    (calls : List OAuthCall) (req : TokenRequest) (md : Metadata) (env : Env)
    (hTimes : InOrder (calls ++ [.token req md env]))
    (hFree : Set.InjOn srv.sha256 (codesOf (calls ++ [.token req md env]))) {res : TokenResponse}
    (hAnswer : (authdb.withTx (srv.oauthToken req md env) (srv.after db calls)).1 = .ok res) :
    ∃ a c, srv.Exchanged db calls req md env res a c := by
  have hInv : srv.FlowInv db calls := flowInv_after hClients hCodes calls
  have hRun : authdb.withTx (srv.oauthToken req md env) (srv.after db calls) =
      (.ok res, srv.perform (srv.after db calls) (.token req md env)) :=
    Prod.ext hAnswer (by rw [Server.perform])
  rcases exists_authorizes_of_token hInv hFree hRun with ⟨a, c, hAuth, hCode, hRedeem⟩
  rcases hRedeem.accepted with ⟨hUnused, hInTime, hRedirect, _, _, hChallenge⟩
  have hOrder : a.env.now ≤ env.now := by
    rw [hAuth.made, List.append_assoc, InOrder, List.pairwise_append] at hTimes
    exact (List.pairwise_cons.mp hTimes.2.1).1 (.token req md env)
      (List.mem_append_right _ List.mem_cons_self)
  refine ⟨a, c, ?_⟩
  exact {
    earlier := hAuth.made
    returned := by
      rw [← hCode]
      exact hAuth.returned
    verified := hAuth.grant.user
    issued := hRedeem.issued
    registered := ⟨hAuth.registered, hAuth.kept⟩
    client := ⟨hAuth.named.symm, hRedeem.named.symm⟩
    redirect := hAuth.grant.redirect.symm.trans hRedirect
    listed := by
      have hListed := hAuth.grant.listed
      rw [hRedirect] at hListed
      exact hListed
    stored := hRedeem.stored
    scopes := by
      intro hSome s hMem
      have hAllowed := hAuth.grant.scopes hSome s hMem
      rw [hInv.scopes a.client hAuth.kept] at hAllowed
      exact hAllowed
    challenge := by
      rw [hAuth.grant.challenge, trimSpace_trimSpace] at hChallenge
      exact hChallenge.symm
    inTime := by
      refine ⟨hOrder, hInTime.trans ?_⟩
      rw [hAuth.grant.expires]
      exact timestamptz_le _
    unused := by
      rw [← hCode]
      exact hAuth.unused hUnused
    first := by
      intro hNew
      rw [← hCode] at hNew ⊢
      exact hAuth.not_mem_redeemed hClients hCodes hUnused
        (hFree.mono (codesOf_mono (List.subset_append_left _ _))) hNew
    secret := Server.authenticate_ok hRedeem.authenticated }

/- An administrator registers a confidential client. -/
def registersApp : OAuthCall :=
  .createClient ⟨"App", "confidential", ["https://app/cb"], ["openid"]⟩
    ⟨["bearer admin"], [], []⟩ (.drawing 1000 "app")

/- A user authorizes it. -/
def authorizesApp : OAuthCall :=
  .authorize ⟨"code", "app", "https://app/cb", "openid", "", "proof", "S256"⟩
    ⟨["Bearer ada"], [], []⟩ (.drawing 2000 "code")

/- It exchanges the code, with its secret. -/
def presentsCode : TokenRequest :=
  ⟨"authorization_code", "app", "app", " code ", "https://app/cb", "proof"⟩

theorem app_exchange_sound :
    (authdb.withTx (Server.plain.oauthToken presentsCode .none (.drawing 3000 "r1"))
      (Server.plain.after loggedIn [registersApp, authorizesApp])).1 =
      .ok ⟨"ada", "bearer", 900, "r1"⟩ ∧ ∃ a c, Server.plain.Exchanged loggedIn
      [registersApp, authorizesApp] presentsCode .none (.drawing 3000 "r1")
      ⟨"ada", "bearer", 900, "r1"⟩ a c := by
  refine ⟨rfl, ?_⟩
  exact exchange_sound Server.plain loggedIn rfl rfl
    [registersApp, authorizesApp] presentsCode .none
    (.drawing 3000 "r1") (by decide) (fun _ _ _ _ h => h) rfl

end Fincore.Auth
