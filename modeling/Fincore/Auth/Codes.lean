import Fincore.Auth.OAuth

/-
  Authorization codes, redeemed by interleaved calls.

  `OAuthToken` reads the row of its code without locking it, and does not look at how many rows its
  `update` consumed. Two calls that both read before either commits both return tokens. When no call
  reads the row of a code while another one that presented it is redeeming it, a code is redeemed at
  most once.

  Key definitions include:
    * `TokenCall` and `Server.exchange`
    * `AuthDb.Consumed`
    * `Server.TokenStage`
    * `Server.redemptions`
    * `Server.Redeems`

  Main results:
    * `Server.tokenStage_answer`
    * `code_redeemed_once_of_apart`
    * `racing_exchanges_both_redeem`
-/

----
-- Codes After A Commit
----

namespace Fincore.Auth

variable {db : AuthDb} {h : String} {ws : List Write}

/- The code has a row. -/
def AuthDb.HasCode (db : AuthDb) (h : String) : Prop := ∃ c ∈ db.codes.rows, c.codeHash = h

/- The code has been consumed. -/
def AuthDb.Consumed (db : AuthDb) (h : String) : Prop :=
  ∃ c ∈ db.codes.rows, c.codeHash = h ∧ c.consumedAt ≠ none

/- What `OAuthToken` writes. -/
def Write.redeems : Write → Bool
| .consumeCode _ _ => true
| .insertSession _ => true
| _ => false

theorem mem_codes_consume {c : Code} {h : String} {at_ : Time}
    (hRow : c ∈ db.codes.rows) : (if c.codeHash = h then c.consume at_ else c) ∈
      ((Write.consumeCode h at_).apply db).codes.rows := by
  show _ ∈ (db.codes.modify h (Code.consume at_) (fun _ => rfl)).rows
  exact Table.mem_modify.mpr ⟨c, hRow, rfl⟩

theorem AuthDb.HasCode.apply {w : Write} (hCode : db.HasCode h)
    (hRedeems : w.redeems = true) : (w.apply db).HasCode h := by
  rcases hCode with ⟨c, hRow, hHash⟩
  cases w with
  | consumeCode h' at_ =>
    refine ⟨_, mem_codes_consume hRow, ?_⟩
    split
    · exact hHash
    · exact hHash
  | insertSession row => exact ⟨c, hRow, hHash⟩
  | _ => cases hRedeems

theorem AuthDb.Consumed.apply {w : Write} (hCode : db.Consumed h)
    (hRedeems : w.redeems = true) : (w.apply db).Consumed h := by
  rcases hCode with ⟨c, hRow, hHash, hSet⟩
  cases w with
  | consumeCode h' at_ =>
    refine ⟨_, mem_codes_consume hRow, ?_⟩
    split
    · exact ⟨hHash, Option.some_ne_none _⟩
    · exact ⟨hHash, hSet⟩
  | insertSession row => exact ⟨c, hRow, hHash, hSet⟩
  | _ => cases hRedeems

theorem consumed_apply {at_ : Time} (hCode : db.HasCode h) :
    ((Write.consumeCode h at_).apply db).Consumed h := by
  rcases hCode with ⟨c, hRow, rfl⟩
  refine ⟨_, mem_codes_consume hRow, ?_⟩
  rw [if_pos rfl]
  exact ⟨rfl, Option.some_ne_none _⟩

theorem AuthDb.HasCode.view (hCode : db.HasCode h) (hRedeems : ∀ w ∈ ws, w.redeems = true) :
    (authdb.view db ws).HasCode h := by
  induction ws generalizing db with
  | nil => exact hCode
  | cons w ws ih =>
    exact ih (hCode.apply (hRedeems w List.mem_cons_self))
      (fun w' hMem =>
        hRedeems w' (List.mem_cons_of_mem w hMem))

theorem AuthDb.Consumed.view (hCode : db.Consumed h) (hRedeems : ∀ w ∈ ws, w.redeems = true) :
    (authdb.view db ws).Consumed h := by
  induction ws generalizing db with
  | nil => exact hCode
  | cons w ws ih =>
    exact ih (hCode.apply (hRedeems w List.mem_cons_self))
      (fun w' hMem =>
        hRedeems w' (List.mem_cons_of_mem w hMem))

theorem consumed_view {at_ : Time} (hCode : db.HasCode h) (hMem : Write.consumeCode h at_ ∈ ws)
    (hRedeems : ∀ w ∈ ws, w.redeems = true) : (authdb.view db ws).Consumed h := by
  induction ws generalizing db with
  | nil => cases hMem
  | cons w ws ih =>
    have hRest : ∀ w' ∈ ws, w'.redeems = true :=
      fun w' hMem' =>
        hRedeems w' (List.mem_cons_of_mem w hMem')
    rw [Engine.view_cons]
    rcases List.mem_cons.mp hMem with rfl | hMem
    · exact (consumed_apply hCode).view hRest
    · exact ih (hCode.apply (hRedeems w List.mem_cons_self)) hMem hRest

----
-- Stages Of A Call
----

/- A call of `OAuthToken` -/
structure TokenCall where
  req : TokenRequest
  md : Metadata
  env : Env

def Server.exchange (srv : Server) (c : TokenCall) : Tx TokenResponse :=
  srv.oauthToken c.req c.md c.env

/- The hash of the code that a call presents. -/
def Server.presentedCode (srv : Server) (c : TokenCall) : String :=
  srv.sha256 (trimSpace c.req.code)

/- The statements after the code is consumed. -/
def Stmt.issues : Stmt → Bool
| .selectRoles _ => true
| .selectPermissions _ => true
| .insertSession _ => true
| _ => false

def Stmt.IsInsertSession (s : Stmt) : Prop := ∃ row, s = .insertSession row

variable {srv : Server} {db : AuthDb} {c : TokenCall} {p : Tx TokenResponse} {ws : List Write}

/- With the row of a client that was looked up. -/
def withClient {α : Type} (f : Client → Tx α) : Option Client → Tx α
| none => .fail oauthInvalidClient
| some client => f client

theorem knownClient_bind {α : Type} (clientID : String) (f : Client → Tx α) :
    (knownClient clientID >>= f) =
      if trimSpace clientID = "" then
        .fail (invalidArg "client_id required")
      else
        .ask (.selectClient (trimSpace clientID)) (withClient f) := by
  unfold knownClient fetchOAuthClient
  split
  · rfl
  · refine congrArg (Prog.ask _) (funext ?_)
    intro row
    cases row with
    | none => rfl
    | some client => rfl

theorem Server.exchange_eq (srv : Server) (c : TokenCall) :
    (∃ e, srv.exchange c = .fail e) ∨ ∃ id, srv.exchange c = .ask (.selectClient id) (withClient
    (srv.exchangeFor (srv.tokenArgs c.req c.md) c.md c.env)) := by
  unfold Server.exchange Server.oauthToken
  rw [knownClient_bind]
  cases srv.checkToken c.req c.md with
  | error e => exact Or.inl ⟨e, rfl⟩
  | ok u =>
    rw [Prog.ofExcept_ok, Prog.ret_bind]
    split
    · exact Or.inl ⟨invalidArg "client_id required", rfl⟩
    · exact Or.inr ⟨_, rfl⟩

/- What reads the row of the code, for a client. -/
def Server.readingCode (srv : Server) (c : TokenCall) (clientID : String) : Tx TokenResponse :=
  .ask (.selectCode (srv.presentedCode c) clientID) (srv.redeem (srv.tokenArgs c.req c.md) c.env)

/-
  Where a call can stand: before its first statement, ended in an error, about to read the row of
  its code, about to consume a code it has read as unconsumed, or issuing tokens for a consumed
  code.
-/
inductive Server.TokenStage (srv : Server) (db : AuthDb) (c : TokenCall) :
    Tx TokenResponse → List Write → Prop where
  | fresh {p : Tx TokenResponse} (hProg : p = srv.exchange c) : TokenStage srv db c p []
  | failed {e : Status} {ws : List Write} : TokenStage srv db c (.fail e) ws
  | reading {p : Tx TokenResponse} {clientID : String}
      (hProg : p = srv.readingCode c clientID) : TokenStage srv db c p []
  | consuming {p : Tx TokenResponse} {userID : String} (hCode : db.HasCode (srv.presentedCode c))
      (hProg : p = .ask (.consumeCode (srv.presentedCode c) c.env.now)
          (fun _ => srv.issueTokens c.env userID)) : TokenStage srv db c p []
  | issuing {p : Tx TokenResponse} {ws : List Write} (hCode : db.HasCode (srv.presentedCode c))
      (hConsumed : db.Consumed (srv.presentedCode c) ∨ ∃ at_,
            Write.consumeCode (srv.presentedCode c) at_ ∈ ws) (hWrites : ∀ w ∈ ws, w.redeems = true)
      (hAsks : p.Asks (fun s => s.issues = true))
      (hSession : p.Must Stmt.IsInsertSession ∨
          ∃ row, Write.insertSession row ∈ ws) : TokenStage srv db c p ws

/- What a call that has ended well has written. -/
theorem Server.TokenStage.issued {res : TokenResponse}
    (hStage : srv.TokenStage db c (.ret res) ws) :
    (∀ w ∈ ws, w.redeems = true) ∧ (∃ row, Write.insertSession row ∈ ws) ∧
    (authdb.view db ws).Consumed (srv.presentedCode c) := by
  cases hStage with
  | fresh hProg =>
    rcases srv.exchange_eq c with ⟨e, hEq⟩ | ⟨id, hEq⟩
    · rw [hEq] at hProg
      cases hProg
    · rw [hEq] at hProg
      cases hProg
  | reading hProg => cases hProg
  | consuming hCode hProg => cases hProg
  | issuing hCode hConsumed hWrites hAsks hSession =>
    refine ⟨hWrites, ?_, ?_⟩
    · rcases hSession with hMust | hInserted
      · exact hMust.elim
      · exact hInserted
    · rcases hConsumed with hBefore | ⟨at_, hMem⟩
      · exact hBefore.view hWrites
      · exact consumed_view hCode hMem hWrites

theorem Server.TokenStage.view {ws' : List Write} (hStage : srv.TokenStage db c p ws)
    (hRedeems : ∀ w ∈ ws', w.redeems = true) : srv.TokenStage (authdb.view db ws') c p ws := by
  cases hStage with
  | fresh hProg => exact .fresh hProg
  | failed => exact .failed
  | reading hProg => exact .reading hProg
  | consuming hCode hProg =>
    exact .consuming (hCode.view hRedeems) hProg
  | issuing hCode hConsumed hWrites hAsks hSession =>
    exact .issuing (hCode.view hRedeems)
      (hConsumed.imp_left (fun hBefore => hBefore.view hRedeems)) hWrites hAsks hSession

theorem asks_getRolesAndPermissions (userID : String) :
    (getRolesAndPermissions userID).Asks (fun s => s.issues = true) := by
  refine ⟨rfl, fun roles => ⟨rfl, fun perms => ?_⟩⟩
  show Prog.Asks _ (if roles = [] then
    Prog.fail _ else Prog.ret (roles, perms))
  split
  · trivial
  · trivial

theorem Server.issueTokens_asks (srv : Server) (env : Env) (userID : String) :
    (srv.issueTokens env userID).Asks (fun s => s.issues = true) ∧ (srv.issueTokens env userID).Must
    Stmt.IsInsertSession := by
  constructor
  · refine (asks_getRolesAndPermissions userID).bind ?_
    intro granted
    refine (Prog.asks_ofExcept _ _).bind ?_
    intro access
    refine (Prog.asks_ofExcept _ _).bind ?_
    intro refresh
    exact ⟨rfl, fun _ => trivial⟩
  · refine Prog.must_bind _ ?_
    intro granted
    refine Prog.must_bind _ ?_
    intro access
    refine Prog.must_bind _ ?_
    intro refresh
    exact Or.inl ⟨_, rfl⟩

/- The statement leaves no code unconsumed. -/
theorem exec_consumeCode {h : String} {now : Time} {n : Nat} (hCode : db.HasCode h)
    (hExec : (Stmt.consumeCode h now).exec db = .ok (n, ws)) : (∀ w ∈ ws, w.redeems = true) ∧
    (db.Consumed h ∨ ∃ at_, Write.consumeCode h at_ ∈ ws) := by
  rcases hCode with ⟨row, hRow, hHash⟩
  simp only [Stmt.exec, Table.lookup_eq_some_iff.mpr ⟨hRow, hHash⟩] at hExec
  split at hExec
  · cases hExec
    refine ⟨?_, Or.inr ⟨_, List.mem_singleton_self _⟩⟩
    intro w hMem
    rw [List.mem_singleton.mp hMem]
    rfl
  · rename_i hSet
    cases hExec
    exact ⟨List.forall_mem_nil _, Or.inl ⟨row, hRow, hHash, hSet⟩⟩

theorem exec_issues {s : Stmt} {r : Resp s} (hIssues : s.issues = true)
    (hExec : s.exec db = .ok (r, ws)) : (∀ w ∈ ws, w.redeems = true) ∧
    (s.IsInsertSession → ∃ row, Write.insertSession row ∈ ws) := by
  cases s with
  | selectRoles userID =>
    cases hExec
    refine ⟨List.forall_mem_nil _, ?_⟩
    rintro ⟨row, hEq⟩
    cases hEq
  | selectPermissions userID =>
    cases hExec
    refine ⟨List.forall_mem_nil _, ?_⟩
    rintro ⟨row, hEq⟩
    cases hEq
  | insertSession row =>
    rw [(Stmt.exec_insertSession hExec).2.2]
    refine ⟨?_, fun _ => ⟨row, List.mem_singleton_self _⟩⟩
    intro w hMem
    rw [List.mem_singleton.mp hMem]
    rfl
  | _ => cases hIssues

theorem Server.withClient_eq (srv : Server) (c : TokenCall) (row : Option Client) :
    (∃ e, withClient (srv.exchangeFor (srv.tokenArgs c.req c.md) c.md c.env) row = .fail e) ∨
    ∃ clientID, withClient (srv.exchangeFor (srv.tokenArgs c.req c.md) c.md c.env) row =
    srv.readingCode c clientID := by
  cases row with
  | none => exact Or.inl ⟨_, rfl⟩
  | some client =>
    rw [withClient]
    unfold Server.exchangeFor
    cases srv.authenticate c.md client (srv.tokenArgs c.req c.md).clientSecret with
    | error e => exact Or.inl ⟨e, rfl⟩
    | ok u => exact Or.inr ⟨client.id, rfl⟩

theorem Server.redeem_eq {clientID : String} {row : Option Code}
    (hExec : (Stmt.selectCode (srv.presentedCode c) clientID).exec db = .ok (row, ws)) : ws = [] ∧
    ((∃ e, srv.redeem (srv.tokenArgs c.req c.md) c.env row = .fail e) ∨
    ∃ code ∈ db.codes.rows, code.codeHash = srv.presentedCode c ∧ code.clientID = clientID ∧
    srv.acceptsCode (srv.tokenArgs c.req c.md) c.env.now code ∧
    srv.redeem (srv.tokenArgs c.req c.md) c.env row =
    .ask (.consumeCode (srv.presentedCode c) c.env.now)
    (fun _ => srv.issueTokens c.env code.userID)) := by
  cases hFound : (db.codes.lookup (srv.presentedCode c)).filter
        (fun code => decide (code.clientID = clientID)) with
  | none =>
    simp only [Stmt.exec, hFound] at hExec
    cases hExec
    exact ⟨rfl, Or.inl ⟨_, rfl⟩⟩
  | some code =>
    simp only [Stmt.exec, hFound] at hExec
    cases hExec
    rw [Option.filter_eq_some_iff] at hFound
    rcases Table.lookup_eq_some_iff.mp hFound.1 with ⟨hMem, hHash⟩
    refine ⟨rfl, ?_⟩
    rw [Server.redeem]
    split
    · rename_i hAccepts
      exact Or.inr ⟨code, hMem, hHash, of_decide_eq_true hFound.2, hAccepts, rfl⟩
    · exact Or.inl ⟨_, rfl⟩

theorem Server.tokenStage_answer {q : Stmt} {k : Resp q → Tx TokenResponse}
    {r : Resp q} {ws' : List Write} (hStage : srv.TokenStage db c (.ask q k) ws)
    (hExec : q.exec (authdb.view db ws) = .ok (r, ws')) :
    srv.TokenStage db c (k r) (ws ++ ws') := by
  cases hStage with
  | fresh hProg =>
    rcases srv.exchange_eq c with ⟨e, hEq⟩ | ⟨id, hEq⟩
    · rw [hEq] at hProg
      cases hProg
    · rw [hEq] at hProg
      cases hProg
      cases hExec
      rcases srv.withClient_eq c (db.clients.lookup id) with ⟨e, hNext⟩ | ⟨clientID, hNext⟩
      · exact hNext ▸ .failed
      · exact .reading hNext
  | reading hProg =>
    cases hProg
    rcases Server.redeem_eq hExec with ⟨rfl, ⟨e, hNext⟩ | ⟨code, hRow, hHash, _, _, hNext⟩⟩
    · exact hNext ▸ .failed
    · exact .consuming ⟨code, hRow, hHash⟩ hNext
  | @consuming _ userID hCode hProg =>
    cases hProg
    rcases exec_consumeCode hCode hExec with ⟨hWrites, hConsumed⟩
    rcases srv.issueTokens_asks c.env userID with ⟨hAsks, hMust⟩
    exact .issuing hCode hConsumed hWrites hAsks (Or.inl hMust)
  | issuing hCode hConsumed hWrites hAsks hSession =>
    rcases exec_issues hAsks.1 hExec with ⟨hNew, hInsert⟩
    refine .issuing hCode ?_ ?_ (hAsks.2 r) ?_
    · refine hConsumed.imp_right ?_
      rintro ⟨at_, hMem⟩
      exact ⟨at_, List.mem_append_left _ hMem⟩
    · intro w hMem
      rcases List.mem_append.mp hMem with hOld | hLast
      · exact hWrites w hOld
      · exact hNew w hLast
    · rcases hSession with hMust | ⟨row, hMem⟩
      · rcases hMust with hHere | hLater
        · rcases hInsert hHere with ⟨row, hMem⟩
          exact Or.inr ⟨row, List.mem_append_right _ hMem⟩
        · exact Or.inl (hLater r)
      · exact Or.inr ⟨row, List.mem_append_left _ hMem⟩

----
-- Exchanges As Uses Of A Code
----

/- The code that a statement reads. -/
def Stmt.readsCode : Stmt → Option String
| .selectCode h _ => some h
| _ => none

/- Past the read of the code, and not ended in an error. -/
def redeeming : Tx TokenResponse → Bool
| .ret _ => true
| .fail _ => false
| .ask (.consumeCode _ _) _ => true
| .ask s _ => s.issues

/- The code that a call has read and goes on to redeem. -/
def Server.redeemsCode (srv : Server) (c : TokenCall) (p : Tx TokenResponse) : Option String :=
  if redeeming p then some (srv.presentedCode c) else none

/- A session is a use of the code it was opened for. -/
def Server.opensSession (srv : Server) (c : TokenCall) : Write → Option String
| .insertSession _ => some (srv.presentedCode c)
| _ => none

/- What is known of the calls in progress. -/
def Server.tokenStages (srv : Server) : Engine.Stages authdb srv.exchange where
  stage := srv.TokenStage
  start := fun _ _ => .fresh rfl
  answer := fun _ _ _ _ _ _ _ _ hStage hExec =>
    srv.tokenStage_answer hStage hExec
  tick := fun _ _ _ _ _ hStage => hStage
  commit := fun _ _ _ _ _ _ _ hStage hDone =>
    hStage.view hDone.issued.1

theorem redeeming_of_issues {q : Stmt} (k : Resp q → Tx TokenResponse)
    (hIssues : q.issues = true) : redeeming (.ask q k) = true := by
  cases q with
  | selectRoles userID => rfl
  | selectPermissions userID => rfl
  | insertSession row => rfl
  | _ => cases hIssues

/- A call that goes on after a statement. -/
theorem Server.redeeming_answer {q : Stmt} {k : Resp q → Tx TokenResponse}
    {r : Resp q} {ws' : List Write} (hStage : srv.TokenStage db c (.ask q k) ws)
    (hExec : q.exec (authdb.view db ws) = .ok (r, ws'))
    (hRedeeming : redeeming (k r) = true) : redeeming (.ask q k) = true ∨
    q.readsCode = some (srv.presentedCode c) ∧ ¬ db.Consumed (srv.presentedCode c) := by
  cases hStage with
  | fresh hProg =>
    rcases srv.exchange_eq c with ⟨e, hEq⟩ | ⟨id, hEq⟩
    · rw [hEq] at hProg
      cases hProg
    · rw [hEq] at hProg
      cases hProg
      rcases srv.withClient_eq c r with ⟨e, hNext⟩ | ⟨clientID, hNext⟩
      · rw [hNext] at hRedeeming
        cases hRedeeming
      · rw [hNext] at hRedeeming
        cases hRedeeming
  | reading hProg =>
    cases hProg
    right
    refine ⟨rfl, ?_⟩
    rcases Server.redeem_eq hExec with ⟨_, ⟨e, hNext⟩ | ⟨code, hRow, hHash, _, hAccepts, _⟩⟩
    · rw [hNext] at hRedeeming
      cases hRedeeming
    · rintro ⟨code', hRow', hHash', hSet⟩
      rw [Table.eq_of_key hRow' hRow (hHash'.trans hHash.symm)] at hSet
      exact hSet hAccepts.1
  | consuming hCode hProg =>
    cases hProg
    exact Or.inl rfl
  | issuing hCode hConsumed hWrites hAsks hSession =>
    exact Or.inl (redeeming_of_issues k hAsks.1)

theorem Server.not_redeeming_exchange (srv : Server) (c : TokenCall) :
    redeeming (srv.exchange c) = false := by
  rcases srv.exchange_eq c with ⟨e, hEq⟩ | ⟨id, hEq⟩
  · rw [hEq]
    rfl
  · rw [hEq]
    rfl

/- Codes are checked, and used up by sessions. -/
def Server.redemptions (srv : Server) : Engine.Once authdb srv.exchange String where
  toStages := srv.tokenStages
  spent := AuthDb.Consumed
  checks := Stmt.readsCode
  holds := srv.redeemsCode
  takes := srv.opensSession
  fresh := by
    intro c
    unfold Server.redeemsCode
    rw [srv.not_redeeming_exchange]
    rfl
  check := by
    intro db c q k ws began r ws' h hStage hExec hHolds
    unfold Server.redeemsCode at hHolds ⊢
    split at hHolds
    · rename_i hRedeeming
      cases hHolds
      rcases srv.redeeming_answer hStage hExec hRedeeming with hBefore | hRead
      · exact Or.inl (if_pos hBefore)
      · exact Or.inr hRead
    · cases hHolds
  act := by
    intro db c res ws w h hStage hMem hTakes
    have hCode : srv.presentedCode c = h := by
      cases w with
      | insertSession row => exact Option.some.inj hTakes
      | _ => cases hTakes
    subst hCode
    exact ⟨rfl, (Server.TokenStage.issued hStage).2.2⟩
  spent_tick := fun _ _ _ hSpent => hSpent
  spent_commit := fun _ _ _ _ _ hStage hSpent =>
    hSpent.view (Server.TokenStage.issued hStage).1

----
-- Runs
----

/- The committed database and every call made so far. -/
abbrev TokenConfig := Engine.Config AuthDb TokenCall Stmt Resp Write Status TokenResponse

abbrev TokenAction := Engine.Action TokenCall

/- Before any call. -/
def TokenConfig.start (db : AuthDb) : TokenConfig := ⟨db, [], []⟩

/- Calls interleaved statement by statement. -/
def Server.runTokens (srv : Server) : TokenConfig → List TokenAction → Option TokenConfig :=
  Transition.run (authdb.step srv.exchange)

/- Call `i` presented the code and has committed a refresh session for it. -/
def Server.Redeems (srv : Server) (cfg : TokenConfig) (i : Nat) (h : String) : Prop :=
  ∃ c row, cfg.input? i = some c ∧ srv.presentedCode c = h ∧
    (some i, Write.insertSession row) ∈ cfg.journal

/- Who returns tokens has committed a session. -/
def Server.Delivers (srv : Server) (cfg : TokenConfig) : Prop :=
  ∀ i c res, cfg.Returned i c (.ok res) → srv.Redeems cfg i (srv.presentedCode c)

theorem Server.Redeems.taken {cfg : TokenConfig} {i : Nat} {h : String}
    (hRedeems : srv.Redeems cfg i h) : srv.redemptions.Taken cfg i h := by
  rcases hRedeems with ⟨c, row, hInput, rfl, hMem⟩
  exact ⟨c, _, hInput, hMem, rfl⟩

theorem delivers_step {cfg cfg' : TokenConfig} {a : TokenAction}
    (hStaged : srv.tokenStages.Staged cfg) (hDelivers : srv.Delivers cfg)
    (hStep : authdb.step srv.exchange cfg a = some cfg') : srv.Delivers cfg' := by
  intro i c res hReturned
  rcases Engine.step_quiet_or_commit hStep with hQuiet | ⟨j, c', t, b, r, hCall, hProg, _, _, rfl⟩
  · rcases hDelivers i c res (hQuiet.answered i c res hReturned) with ⟨c', row, hInput, hHash, hMem⟩
    refine ⟨c', row, hQuiet.input i c' hInput, hHash, ?_⟩
    rw [hQuiet.journal]
    exact hMem
  · rcases Engine.returned_commit hReturned with ⟨rfl, rfl, _⟩ | hOld
    · have hStage := hStaged i c t hCall
      rw [hProg] at hStage
      rcases (Server.TokenStage.issued hStage).2.1 with ⟨row, hMem⟩
      refine ⟨c, row, ?_, rfl, ?_⟩
      · rw [Engine.input?_commit hCall]
        exact hCall.input?_eq
      · exact List.mem_append_right _ (List.mem_map.mpr ⟨_, hMem, rfl⟩)
    · rcases hDelivers i c res hOld with ⟨c₀, row, hInput, hHash, hMem⟩
      refine ⟨c₀, row, ?_, hHash, List.mem_append_left _ hMem⟩
      rw [Engine.input?_commit hCall]
      exact hInput

/- What holds along runs whose calls read apart. -/
structure Server.CodeInv (srv : Server) (cfg : TokenConfig) : Prop where
  once : srv.redemptions.OnceInv cfg
  delivers : srv.Delivers cfg

theorem codeInv_start (srv : Server) (db : AuthDb) : srv.CodeInv (TokenConfig.start db) := by
  refine ⟨srv.redemptions.onceInv_start db, ?_⟩
  intro i c res hReturned
  cases hReturned

theorem codeInv_step {cfg cfg' : TokenConfig} {a : TokenAction}
    (hInv : srv.CodeInv cfg) (hApart : srv.redemptions.Apart cfg a)
    (hStep : authdb.step srv.exchange cfg a = some cfg') : srv.CodeInv cfg' :=
  ⟨Engine.Once.onceInv_step hInv.once hApart hStep,
    delivers_step hInv.once.staged hInv.delivers hStep⟩

/-
  In any interleaving of `OAuthToken` calls in which no call reads the row of a code while another
  call that presented it has read it and is still redeeming it, at most one call commits a session
  for a code, and a call that returns tokens has committed one.
-/
theorem code_redeemed_once_of_apart (srv : Server) (db : AuthDb)
    (schedule : List TokenAction) {cfg : TokenConfig}
    (hApart : Transition.Meets (authdb.step srv.exchange)
      srv.redemptions.Apart (TokenConfig.start db) schedule)
    (hRun : srv.runTokens (TokenConfig.start db) schedule = some cfg) :
    (∀ h i j, srv.Redeems cfg i h → srv.Redeems cfg j h → i = j) ∧ srv.Delivers cfg := by
  have hInv : srv.CodeInv cfg :=
    Transition.run_induction_of_meets
      (fun _ _ _ hInv hCond hStep =>
        codeInv_step hInv hCond hStep) (codeInv_start srv db) hApart hRun
  refine ⟨?_, hInv.delivers⟩
  intro h i j hi hj
  exact hInv.once.once i j h hi.taken hj.taken

/- A user has authorized a public client. -/
def authorized : AuthDb :=
  { loggedIn with
    clients := (Table.empty _).insert ⟨"app", "App", "public", none, ["https://app/cb"], []⟩
    codes := (Table.empty _).insert
      ⟨"code", "app", "ada", "https://app/cb", ["openid"], "verifier", "S256", 300000000000, none⟩ }

/- The client exchanges the code. -/
def exchanging (now : Time) (refresh : String) : TokenCall where
  req := ⟨"authorization_code", "app", "", "code", "https://app/cb", "verifier"⟩
  md := .none
  env := .drawing now refresh

/- The second call starts when the first has ended. -/
def exchangeTwice : List TokenAction :=
  .start (exchanging 1000 "r1") :: List.replicate 6 (.exec 0) ++
    [.finish 0, .start (exchanging 2000 "r2"), .exec 1, .exec 1, .finish 1]

theorem exchangeTwice_redeems_once : ∃ cfg, Server.plain.runTokens (TokenConfig.start authorized)
      exchangeTwice = some cfg ∧ cfg.Returned 0 (exchanging 1000 "r1")
      (.ok ⟨"ada", "bearer", 900, "r1"⟩) ∧
      cfg.Returned 1 (exchanging 2000 "r2") (.error oauthInvalidGrant) ∧
      (∀ h i j, Server.plain.Redeems cfg i h → Server.plain.Redeems cfg j h → i = j) ∧
      Server.plain.Delivers cfg := by
  refine ⟨_, rfl, rfl, rfl, ?_⟩
  exact code_redeemed_once_of_apart Server.plain authorized exchangeTwice (by decide) rfl

/- Both calls read the code before either consumes it. -/
def exchangeTogether : List TokenAction :=
  [.start (exchanging 1000 "r1"), .start (exchanging 1000 "r2"),
    .exec 0, .exec 0, .exec 1, .exec 1] ++ List.replicate 4 (.exec 0) ++ [.finish 0] ++
    List.replicate 4 (.exec 1) ++ [.finish 1]

theorem racing_exchanges_both_redeem : ∃ cfg, Server.plain.runTokens (TokenConfig.start authorized)
      exchangeTogether = some cfg ∧ cfg.Returned 0 (exchanging 1000 "r1")
      (.ok ⟨"ada", "bearer", 900, "r1"⟩) ∧ cfg.Returned 1 (exchanging 1000 "r2")
      (.ok ⟨"ada", "bearer", 900, "r2"⟩) ∧
      cfg.db.sessions.rows.map Session.tokenHash = ["t0", "r1", "r2"] :=
  ⟨_, rfl, rfl, rfl, by decide⟩

end Fincore.Auth
