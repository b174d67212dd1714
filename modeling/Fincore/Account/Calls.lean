import Fincore.Account.Movements
import Fincore.Lib.Keyed
import Fincore.Pkg.Streams

/-
  The transactions of the account service, any number of them interleaved statement by statement.

  As with the payment service, what a transaction commits is explained by the databases it has read,
  which a preorder `r` relates to the one it commits on.

  Key definitions include:
    * `AccountTx` and `AccountTx.prog`
    * `AccountCalls` and `accountStep`
    * `AccountTx.Post`

  Main results:
    * `openAccount_eq`
    * `AccountTx.prog_wp`
-/

----
-- Calls
----

namespace Fincore.Account

/-
  The function `WithTx` is called with by the three command handlers. A deposit or withdrawal has an
  entry of the ledger by then.
-/
inductive AccountTx where
  | openAccount (customerID idempotencyKey : String) (env : Env)
  | recordMovement (kind : Movement) (cmd : MoneyCommand) (entryID : String) (env : Env)

inductive AccountAnswer where
  | opened (accountID : String)
  | recorded

def AccountTx.prog : AccountTx → Tx AccountAnswer
| .openAccount customerID idempotencyKey env => do
    let accountID ← Account.openAccount customerID idempotencyKey env
    return .opened accountID
| .recordMovement kind cmd entryID env => do
    Account.recordMovement kind cmd entryID env
    return .recorded

/- The account database and the transactions on it. -/
abbrev AccountCalls := Engine.Config Database AccountTx Stmt Resp Write GoError AccountAnswer

/- No transaction has been opened yet. -/
def AccountCalls.start (db : Database) : AccountCalls := ⟨db, [], []⟩

def accountStep (cfg : AccountCalls) (a : Engine.Action AccountTx) : Option AccountCalls :=
  postgres.step AccountTx.prog cfg a

----
-- Opening An Account
----

/- The event a new account is raised with. -/
def opened (customerID : String) (env : Env) : DomainEvent :=
  .accountOpened (env.newID 0) customerID env.now

def opening (customerID : String) (env : Env) : Outbox.Creation where
  topic := accountEventsTopicV1
  aggregateID := env.newID 0
  aggregateType := "account"
  env := env
  typ := (opened customerID env).eventType
  data := (opened customerID env).document
  occurredAtUTC := env.now

def openedProjection (customerID : String) (env : Env) : AccountProjection where
  accountID := env.newID 0
  customerID := customerID
  status := statusActive
  version := 1

/- An account is opened by three statements, or refused. -/
theorem openAccount_eq (customerID key : String) (env : Env) :
    (∃ e, openAccount customerID key env = .fail e) ∨
    (key ≠ "" ∧ openAccount customerID key env = (opening customerID env).creating
    (.upsertAccount (openedProjection customerID env)) (env.newID 0)) := by
  unfold openAccount
  split
  · exact Or.inl ⟨_, rfl⟩
  rename_i hCustomer
  split
  · exact Or.inl ⟨_, rfl⟩
  rename_i hKey
  have hNew : newAccount customerID env =
      .ok (zero.raise (opened customerID env)) := if_neg hCustomer
  rw [hNew]
  have hMarshal := (opened customerID env).marshal_eq
  by_cases hTime : Json.TimeInRange env.now
  · rw [if_pos (show Json.TimeInRange (opened customerID env).occurredAtUTC from hTime)] at hMarshal
    right
    refine ⟨hKey, ?_⟩
    have hStored : eventRecords [opened customerID env] =
        .ok [(opening customerID env).record] := by
      unfold eventRecords
      rw [hMarshal]
      rfl
    show (Prog.ofExcept (eventRecords [opened customerID env]) >>= _) = _
    rw [hStored]
    exact (opening customerID env).stage_eq hTime _
  · rw [if_neg (show ¬ Json.TimeInRange
      (opened customerID env).occurredAtUTC from hTime)] at hMarshal
    left
    have hStored : ∃ e, eventRecords [opened customerID env] = .error e := by
      unfold eventRecords
      rw [hMarshal]
      exact ⟨_, rfl⟩
    rcases hStored with ⟨e, hStored⟩
    refine ⟨e, ?_⟩
    show (Prog.ofExcept (eventRecords [opened customerID env]) >>= _) = _
    rw [hStored]
    rfl

----
-- What A Transaction Commits
----

/-
  A movement that commits on `db`: it read the snapshot of its account in `first` and the events
  after it in `second`, and `db` is what has become of them.
-/
structure Moved (r : Database → Database → Prop) (rec : Record) (db : Database)
    (ws : List Write) : Prop where
  active : rec.ag.status = statusActive
  writes : ∃ sequence began, ws = rec.writes sequence began
  explained : ∃ first second start, r first second ∧ r second db ∧
        base (first.latestSnapshot rec.cmd.accountID) = .ok start ∧ replayed start
          ((second.stream rec.cmd.accountID
            (fromVersion (first.latestSnapshot rec.cmd.accountID))).take 10000) = .ok rec.ag

/- What each of the transactions commits on `db`. -/
def AccountTx.Post (r : Database → Database → Prop) : AccountTx →
      Database → List Write → AccountAnswer → Prop
| .openAccount customerID idempotencyKey env, _, ws, a =>
  idempotencyKey ≠ "" ∧ a = .opened (env.newID 0) ∧ ∃ sequence began, ws =
        (opening customerID env).writes (.account (openedProjection customerID env)) sequence began
| .recordMovement kind cmd entryID env, db, ws, a =>
  a = .recorded ∧ ∃ ag, Moved r ⟨kind, cmd, entryID, env, ag⟩ db ws

namespace Record

variable (rec : Record) (sequence began : Nat)

theorem events_writes : (rec.writes sequence began).filterMap Write.event? =
    [⟨sequence, rec.event⟩] := by
  unfold writes snapshots
  split <;> rfl

theorem snapshots_writes : (rec.writes sequence began).filterMap Write.snapshot? =
    rec.snapshots := by
  unfold writes snapshots
  split <;> rfl

theorem messages_writes : (rec.writes sequence began).filterMap Write.message? =
    [⟨rec.message, began, none⟩] := by
  unfold writes snapshots
  split <;> rfl

end Record

/- Instants that cannot be written are refused. -/
theorem recordMovement_unwritten (kind : Movement) (cmd : MoneyCommand)
    (entryID : String) {env : Env} (hTime : ¬ Json.TimeInRange env.now) :
    recordMovement kind cmd entryID env = loadAccount cmd.accountID >>= fun ag =>
        .fail
          (if ag.status ≠ statusActive then
            errAccountNotActive
          else .text Json.rangeError) := by
  have hMarshal : (kind.event cmd entryID env.now).marshal = .error Json.rangeError := by
    rw [DomainEvent.marshal_eq, event_occurredAt]
    exact if_neg hTime
  unfold recordMovement
  refine congrArg (loadAccount cmd.accountID >>= ·) (funext ?_)
  intro ag
  dsimp only
  rw [hMarshal]
  by_cases hActive : ag.status ≠ statusActive
  · rw [if_pos hActive, if_pos hActive]
  · rw [if_neg hActive, if_neg hActive]
    rfl

section

variable {r : Database → Database → Prop} (hRefl : ∀ db, r db db)
variable (hTrans : ∀ db₁ db₂ db₃, r db₁ db₂ → r db₂ db₃ → r db₁ db₃)
variable (hTick : ∀ s db, r db (postgres.tick s db))

include hTick

theorem Record.recording_wp (rec : Record)
    {Q : Database → List Write → Unit → Prop} (began : Nat) (db : Database)
    (hPost : ∀ db' sequence, r db db' → Q db' (rec.writes sequence began) ()) :
    postgres.Wp (.of r hRefl hTrans) Q began rec.recording [] db := by
  intro db₁ hRely₁ _ ws₁ hExec₁
  rcases Stmt.exec_insertEvent hExec₁ with ⟨_, _, rfl⟩
  have hFirst : r db (postgres.tick (.insertEvent rec.event (some "append account event")) db₁) :=
    hTrans _ _ _ hRely₁ (hTick _ db₁)
  -- the two last statements, whatever came before them
  have hRest : ∀ (ws : List Write) (db₂ : Database), r db db₂ →
        (∀ db', r db db' → Q db'
            (ws ++ [.account rec.projection] ++ [.message ⟨rec.message, began, none⟩]) ()) →
        postgres.Wp (.of r hRefl hTrans) Q began
          (.ask (.upsertAccount rec.projection) (fun _ =>
            .ask (.insertMessage rec.message none) .ret)) ws db₂ := by
    intro ws db₂ hSoFar hThen db₃ hRely₃ _ ws₃ hExec₃
    rw [Stmt.exec_upsertAccount hExec₃]
    intro db₄ hRely₄ _ ws₄ hExec₄
    rcases Stmt.exec_insertMessage hExec₄ with ⟨_, rfl⟩
    intro db₅ hRely₅
    refine hThen db₅ ?_
    exact hTrans _ _ _ hSoFar (hTrans _ _ _ hRely₃
      (hTrans _ _ _ (hTick _ db₃) (hTrans _ _ _ hRely₄ (hTrans _ _ _ (hTick _ db₄) hRely₅))))
  show postgres.Wp _ _ began (if rec.version % 50 = 0 then _ else _) _ _
  by_cases hFifty : rec.version % 50 = 0
  · have hSnapshots : rec.snapshots = [rec.snapshot] := if_pos hFifty
    rw [if_pos hFifty]
    intro db₂ hRely₂ _ ws₂ hExec₂
    rcases Stmt.exec_insertSnapshot hExec₂ with ⟨_, rfl⟩
    refine hRest _ _ ?_ ?_
    · exact hTrans _ _ _ hFirst (hTrans _ _ _ hRely₂ (hTick _ db₂))
    · intro db' hAfter
      have hGoal := hPost db' (db₁.sequence + 1) hAfter
      unfold Record.writes at hGoal
      rw [hSnapshots] at hGoal
      exact hGoal
  · have hSnapshots : rec.snapshots = [] := if_neg hFifty
    rw [if_neg hFifty]
    refine hRest _ _ hFirst ?_
    intro db' hAfter
    have hGoal := hPost db' (db₁.sequence + 1) hAfter
    unfold Record.writes at hGoal
    rw [hSnapshots] at hGoal
    exact hGoal

theorem recordMovement_wp (kind : Movement) (cmd : MoneyCommand)
    (entryID : String) (env : Env) (began : Nat) (db : Database) : postgres.Wp (.of r hRefl hTrans)
      (fun db ws _ =>
      (AccountTx.recordMovement kind cmd entryID env).Post r db ws .recorded)
      began (recordMovement kind cmd entryID env) [] db := by
  -- what is left once the account is loaded
  have hProg : ∃ rest : Account → Tx Unit, recordMovement kind cmd entryID env =
      loadAccount cmd.accountID >>= rest ∧ ∀ ag, (∃ e, rest ag = .fail e) ∨
      (ag.status = statusActive ∧ rest ag = (Record.mk kind cmd entryID env ag).recording) := by
    by_cases hTime : Json.TimeInRange env.now
    · refine ⟨_, recordMovement_eq kind cmd entryID hTime, ?_⟩
      intro ag
      by_cases hActive : ag.status = statusActive
      · exact Or.inr ⟨hActive, if_neg (not_not_intro hActive)⟩
      · exact Or.inl ⟨_, if_pos hActive⟩
    · refine ⟨_, recordMovement_unwritten kind cmd entryID hTime, ?_⟩
      intro ag
      exact Or.inl ⟨_, rfl⟩
  rcases hProg with ⟨rest, hProg, hRest⟩
  rw [hProg, loadAccount_eq, Prog.ask_bind]
  -- read the snapshot
  intro first _ latest ws₁ hExec₁
  have hAnswer₁ := Stmt.answer_of_exec hExec₁
  cases hAnswer₁
  show postgres.Wp _ _ began
    ((Prog.ofExcept (base (first.latestSnapshot cmd.accountID)) >>= _) >>= rest) [] _
  cases hBase : base (first.latestSnapshot cmd.accountID) with
  | error e => trivial
  | ok start =>
    rw [Prog.ofExcept_ok, Prog.ret_bind, Prog.ask_bind]
    -- read the events after it
    intro second hRely₂ rows ws₂ hExec₂
    have hAnswer₂ := Stmt.answer_of_exec hExec₂
    cases hAnswer₂
    show postgres.Wp _ _ began
      (Prog.ofExcept (replayed start
        ((second.stream cmd.accountID (fromVersion (first.latestSnapshot cmd.accountID))).take
              10000)) >>= rest) [] _
    cases hRows : replayed start
          ((second.stream cmd.accountID (fromVersion (first.latestSnapshot cmd.accountID))).take
                10000) with
    | error e => trivial
    | ok ag =>
      rw [Prog.ofExcept_ok, Prog.ret_bind]
      rcases hRest ag with ⟨e, hFail⟩ | ⟨hActive, hRec⟩
      · rw [hFail]
        trivial
      · rw [hRec]
        refine Record.recording_wp hRefl hTrans hTick _ began _ ?_
        intro db' sequence hAfter
        refine ⟨rfl, ag, hActive, ⟨sequence, began, rfl⟩,
          first, second, start, ?_, ?_, hBase, hRows⟩
        · exact hTrans _ _ _ (hTick _ first) hRely₂
        · exact hTrans _ _ _ (hTick _ second) hAfter

/- Every transaction commits what it says. -/
theorem AccountTx.prog_wp (c : AccountTx) (began : Nat) (db : Database) :
    postgres.Wp (.of r hRefl hTrans) (c.Post r) began c.prog [] db := by
  cases c with
  | openAccount customerID key env =>
    refine Engine.Wp.map _ ?_
    rcases openAccount_eq customerID key env with ⟨e, hFail⟩ | ⟨hKey, hCreating⟩
    · rw [hFail]
      trivial
    · rw [hCreating]
      refine (opening customerID env).creating_wp
        (.account (openedProjection customerID env)) _ began db ?_ ?_
      · intro db r ws hExec
        exact Stmt.exec_upsertAccount hExec
      · intro db sequence
        exact ⟨hKey, rfl, sequence, began, rfl⟩
  | recordMovement kind cmd entryID env =>
    exact Engine.Wp.map _ (recordMovement_wp hRefl hTrans hTick _ _ _ _ _ _)

end

/- What a transaction commits, whatever the others do. -/
def AccountTx.Commits (c : AccountTx) (ws : List Write)
    (a : AccountAnswer) : Prop := ∃ db, c.Post (fun _ _ => True) db ws a

theorem AccountTx.commits_wp (c : AccountTx) (began : Nat) (db : Database) :
    postgres.Wp Engine.Rely.top (fun _ ws a => c.Commits ws a) began c.prog [] db := by
  have hWp := c.prog_wp (r := fun _ _ => True)
    (fun _ => trivial) (fun _ _ _ _ _ => trivial) (fun _ _ => trivial) began db
  exact hWp.mono (fun db ws a hPost => ⟨db, hPost⟩)

end Fincore.Account
