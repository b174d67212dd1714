import Fincore.Account.Calls
import Fincore.Pkg.Scripts
import Fincore.Transfer.Posted

/-
  What a failed deposit or withdrawal leaves in the ledger.

  The handlers post to the ledger before they look at the account, and nothing takes an entry back.
  A call that fails leaves the ledger as it was unless a new entry has been posted for it; this
  module says exactly when an entry is posted and when the account records it.

  Key definitions include:
    * `Ledger.PostEntry.Postable`
    * `Account.Recordable`
    * `Delivery` and `deliver`

  Main results:
    * `Ledger.succeeds_handle_iff`
    * `Account.succeeds_recordMovement_iff`
    * `Account.failed_movement_moves_nothing_iff`
-/

----
-- When An Entry Is Posted
----

namespace Fincore.Ledger

namespace PostEntry

/- The statements that post an entry. -/
def inserts (cmd : PostEntry) (env : Env) : List Stmt :=
  [.insertEvent (cmd.event env) none, .upsertBalance cmd.accountID cmd.delta 1,
    .insertKey cmd.idempotencyKey (env.newID 0), .insertMessage (cmd.message env) none]

/-
  The command is valid, its key is new, the account has the funds, and nothing in the database is in
  the way.
-/
structure Postable (cmd : PostEntry) (env : Env) (db : Database) : Prop where
  valid : cmd.Valid
  time : Json.TimeInRange (cmd.occurredAt env)
  funds : ¬ (cmd.type = entryTypeWithdrawal ∧
      Int64.ofInt (db.balance cmd.accountID 1) + cmd.delta < 0)
  reads : (Stmt.selectKey cmd.idempotencyKey).Works db ∧
      (Stmt.selectBalance cmd.accountID 1).Works db
  works : ∀ s ∈ cmd.inserts env, s.Works db

theorem Postable.absent {cmd : PostEntry} {env : Env} {db : Database}
    (hPostable : cmd.Postable env db) : db.idempotency cmd.idempotencyKey = none :=
  (hPostable.works (.insertKey cmd.idempotencyKey (env.newID 0)) (by simp [inserts])).accepts

theorem posting_eq_script (cmd : PostEntry) (env : Env) :
    cmd.posting env = script (cmd.inserts env) (env.newID 0) := rfl

end PostEntry

/- The statements that write, after those that read. -/
theorem succeeds_posting_iff (cmd : PostEntry) (env : Env) (began : Nat)
    {db db' : Database} (hCore : db'.core = db.core) :
    postgres.Succeeds began (cmd.posting env) [] db' ↔ ∀ s ∈ cmd.inserts env, s.Works db := by
  rw [cmd.posting_eq_script env, succeeds_script_iff (by
      simp [PostEntry.inserts, Stmt.table])]
  apply forall₂_congr
  intro s _
  exact Stmt.works_of_core hCore

variable {db : Database} {env : Env}

/- Without its key, a command succeeds if it can be posted. -/
theorem succeeds_handle_iff {cmd : PostEntry}
    (hAbsent : db.idempotency cmd.idempotencyKey = none) (began : Nat) :
    postgres.Succeeds began (cmd.handle env) [] db ↔ cmd.Postable env db := by
  have hKeyCore : (postgres.tick (.selectKey cmd.idempotencyKey) db).core = db.core := rfl
  -- after the key and the balance have been read
  have hCore :
      (postgres.tick (.selectBalance cmd.accountID 1)
      (postgres.tick (.selectKey cmd.idempotencyKey) db)).core = db.core := rfl
  have hPosting := succeeds_posting_iff cmd env began hCore
  constructor
  · intro hSucceeds
    have hValid : cmd.Valid := by
      by_contra hNot
      rcases PostEntry.handle_of_not_valid hNot env with ⟨e, hFail⟩
      rw [hFail] at hSucceeds
      exact Engine.not_succeeds_fail e hSucceeds
    rw [PostEntry.handle_of_valid hValid env] at hSucceeds
    rcases Engine.succeeds_ask_iff.mp hSucceeds with ⟨found, new, hKey, hRest⟩
    have hKeyWorks := (Stmt.works_iff began).mpr ⟨found, new, hKey⟩
    rcases Stmt.exec_selectKey hKey with ⟨rfl, rfl⟩
    rw [Engine.view_nil, hAbsent] at hRest
    rcases Engine.succeeds_ask_iff.mp hRest with ⟨row, new, hBalance, hRest⟩
    have hBalanceWorks :=
      (Stmt.works_of_core hKeyCore).mp ((Stmt.works_iff began).mpr ⟨row, new, hBalance⟩)
    rcases Stmt.exec_selectBalance hBalance with ⟨hRow, rfl⟩
    have hRow : row.getD 0 = Int64.ofInt (db.balance cmd.accountID 1) := hRow
    rw [hRow] at hRest
    by_cases hShort : cmd.type = entryTypeWithdrawal ∧
          Int64.ofInt (db.balance cmd.accountID 1) + cmd.delta < 0
    · rw [if_pos hShort] at hRest
      exact absurd hRest (Engine.not_succeeds_fail _)
    rw [if_neg hShort] at hRest
    by_cases hTime : Json.TimeInRange (cmd.occurredAt env)
    · rw [if_pos hTime] at hRest
      exact ⟨hValid, hTime, hShort, ⟨hKeyWorks, hBalanceWorks⟩, hPosting.mp hRest⟩
    · rw [if_neg hTime] at hRest
      exact absurd hRest (Engine.not_succeeds_fail _)
  · intro hPostable
    rw [PostEntry.handle_of_valid hPostable.valid env]
    rcases (Stmt.works_iff began).mp hPostable.reads.1 with ⟨found, new, hKey⟩
    refine Engine.succeeds_ask_iff.mpr ⟨found, new, hKey, ?_⟩
    rcases Stmt.exec_selectKey hKey with ⟨rfl, rfl⟩
    rw [hAbsent]
    have hReads : (Stmt.selectBalance cmd.accountID 1).Works
        (postgres.tick (.selectKey cmd.idempotencyKey) db) :=
      (Stmt.works_of_core hKeyCore).mpr hPostable.reads.2
    rcases (Stmt.works_iff began).mp hReads with ⟨row, new, hBalance⟩
    refine Engine.succeeds_ask_iff.mpr ⟨row, new, hBalance, ?_⟩
    rcases Stmt.exec_selectBalance hBalance with ⟨hRow, rfl⟩
    have hRow : row.getD 0 = Int64.ofInt (db.balance cmd.accountID 1) := hRow
    rw [hRow, if_neg hPostable.funds, if_pos hPostable.time]
    exact hPosting.mpr hPostable.works

theorem handle_of_postable {cmd : PostEntry} (hPostable : cmd.Postable env db) :
    (postgres.withTx (cmd.handle env) db).1 = .ok (env.newID 0) ∧
    (postgres.withTx (cmd.handle env) db).2.events.length = db.events.length + 1 := by
  rcases (succeeds_handle_iff hPostable.absent _).mpr hPostable with ⟨entryID, db', hRun⟩
  have hOk : (postgres.withTx (cmd.handle env) db).1 = .ok entryID := congrArg Prod.fst hRun
  rcases (cmd.handle_wp env _ db).serial hOk with ⟨db₁, ws, hTicked, hPost, hView⟩
  have hKeys : db₁.idempotency = db.idempotency := hTicked.observe tick_idempotency
  have hEvents : db₁.events = db.events := hTicked.observe tick_events
  rcases hPost with ⟨_, hFound⟩ | hPosts
  · rw [hKeys, hPostable.absent] at hFound
    cases hFound
  · rcases hPosts.writes with ⟨sequence, began, rfl⟩
    refine ⟨?_, ?_⟩
    · rw [hOk, hPosts.answer]
    · show (postgres.serial _ _ [] db).2.events.length = _
      rw [hView, PostEntry.view_writes_events, List.length_append, hEvents]
      rfl

/- And nothing else changes the ledger. -/
theorem handle_of_not_postable {cmd : PostEntry} (hNot : ¬ cmd.Postable env db) :
    (postgres.withTx (cmd.handle env) db).2.events = db.events ∧ ∀ a v,
    (postgres.withTx (cmd.handle env) db).2.balance a v = db.balance a v := by
  cases hRun : (postgres.withTx (cmd.handle env) db).1 with
  | error e =>
    refine ⟨?_, ?_⟩
    · exact Engine.serial_error_observe postgres Database.events tick_events _ _ [] db hRun
    · intro a v
      exact Engine.serial_error_observe postgres (fun db => db.balance a v)
        (fun s db => tick_balance s db a v) _ _ [] db hRun
  | ok entryID =>
    rcases (cmd.handle_wp env _ db).serial hRun with ⟨db₁, ws, hTicked, hPost, hView⟩
    rcases hPost with ⟨rfl, _⟩ | hPosts
    · show (postgres.serial _ _ [] db).2.events = _ ∧ ∀ a v,
          (postgres.serial _ _ [] db).2.balance a v = _
      rw [hView]
      refine ⟨hTicked.observe tick_events, ?_⟩
      intro a v
      exact hTicked.observe (f := fun db => db.balance a v) (fun s db => tick_balance s db a v)
    · exfalso
      have hKeys : db₁.idempotency = db.idempotency := hTicked.observe tick_idempotency
      have hAbsent := hPosts.absent
      rw [hKeys] at hAbsent
      apply hNot
      exact (succeeds_handle_iff hAbsent _).mp (Engine.succeeds_of_ok hRun)

end Fincore.Ledger

----
-- When A Movement Is Recorded
----

namespace Fincore.Account

/- The statements that record a movement. -/
def Record.inserts (rec : Record) : List Stmt :=
  .insertEvent rec.event (some "append account event") ::
    ((if rec.version % 50 = 0 then
        [.insertSnapshot rec.snapshot]
      else []) ++ [.upsertAccount rec.projection, .insertMessage rec.message none])

theorem Record.recording_eq_script (rec : Record) : rec.recording = script rec.inserts () := by
  unfold Record.recording Record.inserts
  by_cases hFifty : rec.version % 50 = 0
  · rw [if_pos hFifty]
    simp only [if_pos hFifty]
    rfl
  · rw [if_neg hFifty]
    simp only [if_neg hFifty]
    rfl

/- The two statements that `LoadAccount` reads with. -/
def Readable (db : Database) (accountID : String) : Prop :=
  (Stmt.selectLatestSnapshot accountID).Works db ∧
    (Stmt.selectEvents accountID (fromVersion (db.latestSnapshot accountID)) 10000).Works db

/- The account loads as active, and nothing in the database is in the way of the record. -/
structure Recordable (kind : Movement) (cmd : MoneyCommand) (entryID : String)
    (env : Env) (db : Database) : Prop where
  time : Json.TimeInRange env.now
  reads : Readable db cmd.accountID
  works : ∃ ag, loaded db cmd.accountID = .ok ag ∧ ag.status = statusActive ∧
      ∀ s ∈ (Record.mk kind cmd entryID env ag).inserts, s.Works db

/- What is left of a transaction goes on with the account. -/
theorem succeeds_load_iff {α : Type} (k : Account → Tx α) (began : Nat)
    (db : Database) (accountID : String) :
    postgres.Succeeds began (loadAccount accountID >>= k) [] db ↔
      Readable db accountID ∧ ∃ ag, loaded db accountID = .ok ag ∧ postgres.Succeeds began (k ag) []
      { db with clock := db.clock + 1 + 1 } := by
  have hCore : (postgres.tick (.selectLatestSnapshot accountID) db).core = db.core := rfl
  rw [loadAccount_eq, Prog.ask_bind]
  constructor
  · intro hSucceeds
    rcases Engine.succeeds_ask_iff.mp hSucceeds with ⟨latest, new, hLatest, hRest⟩
    have hFirst := (Stmt.works_iff began).mpr ⟨latest, new, hLatest⟩
    have hAnswer := Stmt.answer_of_exec hLatest
    cases hAnswer
    have hRest : postgres.Succeeds began
        ((Prog.ofExcept (base (db.latestSnapshot accountID)) >>= _) >>= k) [] _ := hRest
    unfold loaded tail
    cases hBase : base (db.latestSnapshot accountID) with
    | error e =>
      rw [hBase] at hRest
      exact absurd hRest (Engine.not_succeeds_fail e)
    | ok start =>
      rw [hBase] at hRest
      rcases Engine.succeeds_ask_iff.mp hRest with ⟨rows, new, hRows, hRest⟩
      have hSecond := (Stmt.works_of_core hCore).mp ((Stmt.works_iff began).mpr ⟨rows, new, hRows⟩)
      have hAnswer := Stmt.answer_of_exec hRows
      cases hAnswer
      rcases Engine.succeeds_ofExcept_iff.mp hRest with ⟨ag, hLoaded, hRest⟩
      exact ⟨⟨hFirst, hSecond⟩, ag, hLoaded, hRest⟩
  · rintro ⟨⟨hFirst, hSecond⟩, ag, hLoaded, hRest⟩
    unfold loaded tail at hLoaded
    rcases (Stmt.works_iff began).mp hFirst with ⟨latest, new, hLatest⟩
    refine Engine.succeeds_ask_iff.mpr ⟨latest, new, hLatest, ?_⟩
    have hAnswer := Stmt.answer_of_exec hLatest
    cases hAnswer
    show postgres.Succeeds began
      ((Prog.ofExcept (base (db.latestSnapshot accountID)) >>= _) >>= k) [] _
    cases hBase : base (db.latestSnapshot accountID) with
    | error e =>
      rw [hBase] at hLoaded
      cases hLoaded
    | ok start =>
      rw [hBase] at hLoaded
      rcases (Stmt.works_iff began).mp
          ((Stmt.works_of_core hCore).mpr hSecond) with ⟨rows, new, hRows⟩
      refine Engine.succeeds_ask_iff.mpr ⟨rows, new, hRows, ?_⟩
      have hAnswer := Stmt.answer_of_exec hRows
      cases hAnswer
      exact Engine.succeeds_ofExcept_iff.mpr ⟨ag, hLoaded, hRest⟩

theorem succeeds_recordMovement_iff (kind : Movement) (cmd : MoneyCommand)
    (entryID : String) (env : Env) (began : Nat) (db : Database) :
    postgres.Succeeds began (recordMovement kind cmd entryID env) [] db ↔
    Recordable kind cmd entryID env db := by
  have hRecording : ∀ ag, postgres.Succeeds began (Record.mk kind cmd entryID env ag).recording []
            { db with clock := db.clock + 1 + 1 } ↔
          ∀ s ∈ (Record.mk kind cmd entryID env ag).inserts, s.Works db := by
    intro ag
    rw [Record.recording_eq_script, succeeds_script_iff]
    · apply forall₂_congr
      intro s _
      exact Stmt.works_of_core rfl
    · unfold Record.inserts
      split <;> simp [Stmt.table]
  by_cases hTime : Json.TimeInRange env.now
  · rw [recordMovement_eq kind cmd entryID hTime, succeeds_load_iff]
    constructor
    · rintro ⟨hReads, ag, hLoaded, hRest⟩
      by_cases hActive : ag.status = statusActive
      · rw [if_neg (not_not_intro hActive)] at hRest
        exact ⟨hTime, hReads, ag, hLoaded, hActive, (hRecording ag).mp hRest⟩
      · rw [if_pos hActive] at hRest
        exact absurd hRest (Engine.not_succeeds_fail _)
    · rintro ⟨_, hReads, ag, hLoaded, hActive, hWorks⟩
      refine ⟨hReads, ag, hLoaded, ?_⟩
      rw [if_neg (not_not_intro hActive)]
      exact (hRecording ag).mpr hWorks
  · rw [recordMovement_unwritten kind cmd entryID hTime, succeeds_load_iff]
    constructor
    · rintro ⟨_, ag, _, hRest⟩
      exact absurd hRest (Engine.not_succeeds_fail _)
    · intro hRecordable
      exact absurd hRecordable.time hTime

end Fincore.Account

----
-- The Two Transactions Of A Call
----

namespace Fincore

/- What befalls a transaction and its answer: it may also run without the caller being told. -/
inductive Delivery where
  | told (fate : Fate)
  | lost (env : Env) (e : GoError)

/- A transaction that fails for its caller. -/
def ServiceTx.failed (e : GoError) : (r : ServiceTx) → ServiceTx.Resp r
| .postEntry _ => .error e
| .recordMovement _ _ _ => .error e
| .authorizePayment _ _ => .error e
| .settlePayment _ _ => .error e
| .failPayment _ _ _ => .error e

def Delivery.serve (d : Delivery) (r : ServiceTx) (w : World) : ServiceTx.Resp r × World :=
  match d with
  | .told fate => r.exec fate w
  | .lost env e => (r.failed e, (r.exec (.run env) w).2)

/- The process that runs the transaction, if one does. -/
def Delivery.env? : Delivery → Option Env
| .told (.run env) => some env
| .told (.down _) => none
| .lost env _ => some env

/- One for the ledger's transaction, one for the other. -/
def deliver (posting recording : Delivery) : (r : ServiceTx) → World → ServiceTx.Resp r × World
| .postEntry req, w => posting.serve (.postEntry req) w
| r, w => recording.serve r w

namespace Account

/- The ledger posts a new entry for the call. -/
def Posts (kind : Movement) (cmd : MoneyCommand) (posting : Delivery) (ledger : Database) : Prop :=
  cmd.Valid ∧ trimSpace cmd.accountID ≠ "" ∧ ∃ env, posting.env? = some env ∧
      (ledgerCommand kind cmd).Postable env ledger

/- Both answers arrive, and the account records the entry. -/
def Completes (kind : Movement) (cmd : MoneyCommand)
    (posting recording : Delivery) (account : Database) : Prop :=
  ∃ env env', posting = .told (.run env) ∧ recording = .told (.run env') ∧
      Recordable kind cmd (env.newID 0) env' account

variable {kind : Movement} {cmd : MoneyCommand} {posting : Delivery} {w : World}

theorem postEntry_of_account (kind : Movement) (hAccount : trimSpace cmd.accountID ≠ "")
    (env : Env) : (ledgerRequest kind cmd).postEntry env =
      match Money.new cmd.amount.amountKobo cmd.amount.currency with
      | .error e => .fail e
      | .ok _ =>
        match kind.wire with
        | .unspecified => .fail (.text "unsupported entry type")
        | .deposit => ((ledgerRequest kind cmd).command Ledger.entryTypeDeposit).handle env
        | .withdrawal =>
          ((ledgerRequest kind cmd).command Ledger.entryTypeWithdrawal).handle env := if_neg hAccount

theorem ledgerRequest_postEntry (kind : Movement) (hValid : cmd.Valid)
    (hAccount : trimSpace cmd.accountID ≠ "") (env : Env) : (ledgerRequest kind cmd).postEntry env =
    (ledgerCommand kind cmd).handle env := by
  have hCurrency : cmd.amount.currency ≠ "" := by
    rw [hValid.amount.currency]
    decide
  have hMoney : Money.new cmd.amount.amountKobo cmd.amount.currency =
      .ok ⟨cmd.amount.amountKobo, cmd.amount.currency⟩ := if_neg hCurrency
  rw [postEntry_of_account kind hAccount, hMoney]
  cases kind with
  | deposit => rfl
  | withdrawal => rfl

theorem serve_posts (hPosts : Posts kind cmd posting w.ledger) :
    (posting.serve (.postEntry (ledgerRequest kind cmd))
    w).2.ledger.events.length = w.ledger.events.length + 1 ∧ ∀ env, posting = .told (.run env) →
    (posting.serve (.postEntry (ledgerRequest kind cmd)) w).1 = .ok (env.newID 0) := by
  rcases hPosts with ⟨hValid, hAccount, env, hEnv, hPostable⟩
  rcases Ledger.handle_of_postable hPostable with ⟨hAnswer, hLength⟩
  have hProg := ledgerRequest_postEntry kind hValid hAccount env
  cases posting with
  | told fate =>
    cases fate with
    | down e => cases hEnv
    | run env' =>
      cases hEnv
      simp only [Delivery.serve, ServiceTx.exec, hProg]
      refine ⟨hLength, ?_⟩
      intro env' hSame
      cases hSame
      exact hAnswer
  | lost env' e =>
    cases hEnv
    simp only [Delivery.serve, ServiceTx.exec, hProg]
    exact ⟨hLength, nofun⟩

/- The entries and the account's balance are as before. -/
def Unmoved (accountID : String) (db db' : Database) : Prop :=
  db'.events = db.events ∧ db'.balance accountID 1 = db.balance accountID 1

theorem serve_of_not_posts (hValid : cmd.Valid)
    (hNot : ¬ Posts kind cmd posting w.ledger) : Unmoved cmd.accountID w.ledger
    (posting.serve (.postEntry (ledgerRequest kind cmd)) w).2.ledger := by
  have hRun : ∀ env, posting.env? = some env → Unmoved cmd.accountID w.ledger
      (postgres.withTx ((ledgerRequest kind cmd).postEntry env) w.ledger).2 := by
    intro env hEnv
    by_cases hAccount : trimSpace cmd.accountID = ""
    · have hFail : (ledgerRequest kind cmd).postEntry env =
          .fail (.text "account_id required") := if_pos hAccount
      rw [hFail]
      exact ⟨rfl, rfl⟩
    · rw [ledgerRequest_postEntry kind hValid hAccount env]
      have hNotPostable : ¬ (ledgerCommand kind cmd).Postable env
          w.ledger := by
        intro hPostable
        exact hNot ⟨hValid, hAccount, env, hEnv, hPostable⟩
      rcases Ledger.handle_of_not_postable hNotPostable with ⟨hEvents, hBalance⟩
      exact ⟨hEvents, hBalance cmd.accountID 1⟩
  cases posting with
  | told fate =>
    cases fate with
    | down e => exact ⟨rfl, rfl⟩
    | run env => exact hRun env rfl
  | lost env e => exact hRun env rfl

/- The account's transaction is not on the ledger. -/
theorem serve_record_ledger (recording : Delivery) (kind : Movement)
    (cmd : MoneyCommand) (entryID : String) (w : World) :
    (recording.serve (.recordMovement kind cmd entryID) w).2.ledger = w.ledger := by
  cases recording with
  | told fate =>
    cases fate with
    | down e => rfl
    | run env => rfl
  | lost env e => rfl

/- It succeeds if it runs, is answered and is recordable. -/
theorem serve_record_ok_iff (recording : Delivery) (kind : Movement)
    (cmd : MoneyCommand) (entryID : String) (w : World) :
    (recording.serve (.recordMovement kind cmd entryID) w).1 = .ok () ↔
    ∃ env, recording = .told (.run env) ∧ Recordable kind cmd entryID env w.account := by
  cases recording with
  | told fate =>
    cases fate with
    | down e =>
      constructor
      · intro hOk
        cases hOk
      · rintro ⟨env, hEq, _⟩
        cases hEq
    | run env =>
      have hIff :=
        succeeds_recordMovement_iff kind cmd entryID env (postgres.now w.account) w.account
      constructor
      · intro hOk
        exact ⟨env, rfl, hIff.mp (Engine.succeeds_of_ok hOk)⟩
      · rintro ⟨env', hEq, hRecordable⟩
        cases hEq
        rcases hIff.mpr hRecordable with ⟨u, db, hRun⟩
        exact congrArg Prod.fst hRun
  | lost env e =>
    constructor
    · intro hOk
      cases hOk
    · rintro ⟨env', hEq, _⟩
      cases hEq

theorem serve_post_account (posting : Delivery) (req : Ledger.PostEntryRequest)
    (w : World) : (posting.serve (.postEntry req) w).2.account =
    w.account := by
  cases posting with
  | told fate =>
    cases fate with
    | down e => rfl
    | run env => rfl
  | lost env e => rfl

theorem movement_ledger (kind : Movement) (hValid : cmd.Valid)
    (posting recording : Delivery) (w : World) :
    ((moveMoney kind cmd).runWith (deliver posting recording) w).2.ledger =
    (posting.serve (.postEntry (ledgerRequest kind cmd)) w).2.ledger := by
  rw [moveMoney_run hValid]
  simp only [deliver]
  rcases posting.serve (.postEntry (ledgerRequest kind cmd)) w with ⟨r, w₁⟩
  cases r with
  | error e => rfl
  | ok entryID =>
    dsimp only
    have hSame := serve_record_ledger recording kind cmd entryID w₁
    revert hSame
    rcases recording.serve (.recordMovement kind cmd entryID) w₁ with ⟨r, w₂⟩
    intro hSame
    cases r with
    | error e => exact hSame
    | ok u => exact hSame

theorem movement_ok_iff (hPosts : Posts kind cmd posting w.ledger) (recording : Delivery) :
    (∃ entryID, ((moveMoney kind cmd).runWith (deliver posting recording) w).1 = .ok entryID) ↔
    Completes kind cmd posting recording w.account := by
  have hAnswer := (serve_posts hPosts).2
  have hAccount := serve_post_account posting (ledgerRequest kind cmd) w
  rw [moveMoney_run hPosts.1]
  simp only [deliver]
  cases posting with
  | lost env e =>
    constructor
    · rintro ⟨entryID, hOk⟩
      cases hOk
    · rintro ⟨env', _, hEq, _⟩
      cases hEq
  | told fate =>
    cases fate with
    | down e =>
      rcases hPosts with ⟨_, _, env, hEnv, _⟩
      cases hEnv
    | run env =>
      have hOk := hAnswer env rfl
      revert hOk hAccount
      rcases (Delivery.told (.run env)).serve (.postEntry (ledgerRequest kind cmd)) w with ⟨r, w₁⟩
      intro hAccount hOk
      cases hOk
      dsimp only at hAccount ⊢
      have hRecord := serve_record_ok_iff recording kind cmd (env.newID 0) w₁
      rw [hAccount] at hRecord
      have hCompletes : Completes kind cmd (.told (.run env)) recording
          w.account ↔ ∃ env', recording = .told (.run env') ∧ Recordable kind cmd (env.newID 0) env'
          w.account := by
        constructor
        · rintro ⟨_, env', hEq, hRest⟩
          cases hEq
          exact ⟨env', hRest⟩
        · rintro ⟨env', hRest⟩
          exact ⟨env, env', rfl, hRest⟩
      rw [hCompletes, ← hRecord]
      rcases recording.serve (.recordMovement kind cmd (env.newID 0)) w₁ with ⟨r, w₂⟩
      cases r with
      | error e => simp
      | ok u => simp

/-
  A failed movement has moved nothing, exactly if a movement whose entry is posted anew is also
  completed: the answers of both transactions arrive, and the account, active when the call came in,
  records the entry.
-/
theorem failed_movement_moves_nothing_iff (kind : Movement) (cmd : MoneyCommand)
    (posting recording : Delivery) (w : World) :
    (∀ e w', (moveMoney kind cmd).runWith (deliver posting recording) w =
      (.error e, w') → Unmoved cmd.accountID w.ledger w'.ledger) ↔
      (Posts kind cmd posting w.ledger → Completes kind cmd posting recording w.account) := by
  by_cases hValid : cmd.Valid
  · have hLedger := movement_ledger kind hValid posting recording w
    by_cases hPosts : Posts kind cmd posting w.ledger
    · have hOk := movement_ok_iff hPosts recording
      have hLength := (serve_posts hPosts).1
      rw [← hLedger] at hLength
      constructor
      · intro hKeeps _
        by_contra hNot
        rw [← hOk] at hNot
        rcases hRun : (moveMoney kind cmd).runWith (deliver posting recording) w with ⟨r, w'⟩
        rw [hRun] at hNot hLength
        cases r with
        | ok entryID => exact hNot ⟨entryID, rfl⟩
        | error e =>
          have hEvents := (hKeeps e w' hRun).1
          rw [hEvents] at hLength
          omega
      · intro hCompletes e w' hRun
        rcases hOk.mpr (hCompletes hPosts) with ⟨entryID, hSucceeds⟩
        rw [hRun] at hSucceeds
        cases hSucceeds
    · constructor
      · intro _ hDoes
        exact absurd hDoes hPosts
      · intro _ e w' hRun
        have hSame := serve_of_not_posts hValid hPosts
        rw [← hLedger, hRun] at hSame
        exact hSame
  · rcases moveMoney_of_not_valid hValid kind with ⟨e, hFail⟩
    rw [hFail]
    constructor
    · intro _ hPosts
      exact absurd hPosts.1 hValid
    · intro _ e' w' hRun
      cases hRun
      exact ⟨rfl, rfl⟩

/- A deposit to an account that was never opened. -/
def depositUnknown : MoneyCommand := ⟨"nobody", ⟨100, NGN⟩, "k", ""⟩

def emptyWorld : World where
  ledger := Database.empty ledgerSchema
  account := Database.empty accountMigrations
  payment := Database.empty paymentMigrations
  served := 0

/- It fails, and the ledger has credited the account. -/
theorem failed_deposit_credits : ∃ w', (moveMoney .deposit depositUnknown).runWith
      (deliver (.told (.run (.tagged "L"))) (.told (.run (.tagged "M")))) emptyWorld =
      (.error errAccountNotActive, w') ∧ w'.ledger.events.length = 1 ∧
      w'.ledger.balance "nobody" 1 = 100 := ⟨_, rfl, rfl, rfl⟩

end Account

end Fincore
