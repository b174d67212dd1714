import Fincore.Ledger.Domain

/-
  `PostEntryHandler.Handle` of `services/ledger-service/application/commands`, with the balance and
  idempotency repositories it calls.

  Key definitions include:
    * `PostEntry`
    * `PostEntry.handle`
    * `PostEntry.Valid`
    * `PostEntry.writes`
    * `PostEntry.Post`

  Main results:
    * `PostEntry.handle_of_valid`
    * `PostEntry.handle_wp`
-/

----
-- Repositories
----

namespace Fincore.Ledger

/- `BalanceRepo.GetBalanceKobo`: zero without a row. -/
def getBalanceKobo (accountID : String) (version : Nat) : Tx Int64 := do
  let row : Option Int64 ← sql (.selectBalance accountID version)
  return row.getD 0

/- `BalanceRepo.ApplyDelta` -/
def applyDelta (accountID : String) (deltaKobo : Int64) (version : Nat) : Tx Unit :=
  sql (.upsertBalance accountID deltaKobo version)

/- `IdempotencyRepo.GetByKey` -/
def getByKey (key : String) : Tx (Option String) := sql (.selectKey key)

/- `IdempotencyRepo.Save` -/
def saveKey (key entryID : String) : Tx Unit := sql (.insertKey key entryID)

----
-- The Handler
----

/- `commands.PostEntry` -/
structure PostEntry where
  idempotencyKey : String
  accountID : String
  type : EntryType
  amount : Money
  narration : String
  occurredAtUTC : Time

def ledgerEventsTopicV1 : String := "banking.ledger.v1"

/- `errors.New` and `fmt.Errorf` around an encoding error -/
def marshalError (context : String) (msg : String) : GoError := .wrap context (.text msg)

/- The stored form of the entry's events, from version 1. -/
def storedEvents (entry : Entry) (env : Env) : Nat → List EntryPosted → Except GoError (List Event)
| _, [] => .ok []
| i, e :: es => do
    let data ← e.marshal.mapError (marshalError "marshal event")
    let rest ← storedEvents entry env (i + 1) es
    return {
      id := env.newID (1 + i)
      aggregateID := entry.id
      aggregateType := "ledger_entry"
      version := i + 1
      type := EntryPosted.eventType
      occurredAt := e.occurredAt
      data := data } :: rest

/- `saveSnapshot` -/
def saveSnapshot (entry : Entry) (env : Env) : Tx Unit := do
  let occurredAt ← Prog.ofExcept ((Json.ofTime entry.occurredAtUTC).mapError .text)
  EventStore.saveSnapshot {
    aggregateID := entry.id
    aggregateType := "ledger_entry"
    version := entry.version
    createdAt := env.now
    data := .obj
      [("EntryID", .str entry.id), ("AccountID", .str entry.accountID),
        ("EntryType", .str entry.entryType), ("AmountKobo", .num entry.amount.amountKobo.toInt),
        ("Currency", .str entry.amount.currency),
        ("Narration", .str entry.narration), ("OccurredAtUTC", occurredAt),
        ("Version", .num entry.version)] }

/- The outbox payload; a map is written in key order. -/
def outboxPayload (entry : Entry) (accountID : String) (delta : Int64) : Except GoError Json := do
  let occurredAt ← (Json.ofTime entry.occurredAtUTC).mapError .text
  return .obj
    [("account_id", .str accountID), ("aggregate_id", .str entry.id),
      ("aggregate_type", .str "ledger_entry"), ("delta_kobo", .num delta.toInt),
      ("event_type", .str "ledger.entry_posted.v1"), ("occurred_at_utc", occurredAt)]

namespace PostEntry

/- The amount signed by the entry type. -/
def delta (cmd : PostEntry) : Int64 :=
  if cmd.type = entryTypeWithdrawal then
    -cmd.amount.amountKobo
  else cmd.amount.amountKobo

/- `Handle` from the call of `NewEntry` on. -/
def record (cmd : PostEntry) (env : Env) : Tx String := do
  let entry ← Prog.ofExcept
    (newEntry cmd.accountID cmd.type cmd.amount cmd.narration cmd.occurredAtUTC env)
  let toAppend ← Prog.ofExcept (storedEvents entry env 0 entry.changes)
  EventStore.append none toAppend
  if entry.version % 50 = 0 then
    saveSnapshot entry env
  applyDelta cmd.accountID cmd.delta 1
  saveKey cmd.idempotencyKey entry.id
  let payload ← Prog.ofExcept (outboxPayload entry cmd.accountID cmd.delta)
  Outbox.enqueue none {
    id := env.newID (1 + toAppend.length)
    topic := ledgerEventsTopicV1
    key := cmd.accountID
    value := payload
    headers := [("schema", "json.v1")] }
  return entry.id

/- The function `Handle` hands to `WithTx`. -/
def inTx (cmd : PostEntry) (env : Env) : Tx String := do
  match ← getByKey cmd.idempotencyKey with
  | some entryID => return entryID
  | none =>
    let currentBal ← getBalanceKobo cmd.accountID 1
    if cmd.type = entryTypeWithdrawal ∧ currentBal + cmd.delta < 0 then
      Prog.fail errInsufficientFunds
    else cmd.record env

/- `PostEntryHandler.Handle` -/
def handle (cmd : PostEntry) (env : Env) : Tx String :=
  if cmd.idempotencyKey = "" then
    .fail (.text "idempotency key required")
  else if cmd.accountID = "" then
    .fail (.text "account id required")
  else if cmd.type ≠ entryTypeDeposit ∧ cmd.type ≠ entryTypeWithdrawal then
    .fail (.text "entry type required")
  else
    match validateAmount cmd.amount with
    | .error e => .fail e
    | .ok () => cmd.inTx env

----
-- Valid Commands
----

/- Commands that pass the checks in front of `WithTx`. -/
structure Valid (cmd : PostEntry) : Prop where
  key : cmd.idempotencyKey ≠ ""
  account : cmd.accountID ≠ ""
  type : cmd.type = entryTypeDeposit ∨ cmd.type = entryTypeWithdrawal
  amount : cmd.amount.PositiveNGN

/- The entry's instant; the clock stands in for zero. -/
def occurredAt (cmd : PostEntry) (env : Env) : Time :=
  if cmd.occurredAtUTC = zeroTime then env.now
  else cmd.occurredAtUTC

/- The event a command raises. -/
def posted (cmd : PostEntry) (env : Env) : EntryPosted where
  entryID := env.newID 0
  accountID := cmd.accountID
  entryType := cmd.type
  amountKobo := cmd.amount.amountKobo
  currency := cmd.amount.currency
  narration := cmd.narration
  occurredAt := cmd.occurredAt env

theorem Valid.delta_of_withdrawal {cmd : PostEntry} (hValid : cmd.Valid)
    (hType : cmd.type = entryTypeWithdrawal) : cmd.delta.toInt = -cmd.amount.amountKobo.toInt := by
  unfold delta
  rw [if_pos hType]
  exact toInt_neg_of_pos hValid.amount.positive

theorem Valid.delta_of_deposit {cmd : PostEntry} (hValid : cmd.Valid)
    (hType : cmd.type ≠ entryTypeWithdrawal) : 0 < cmd.delta.toInt := by
  unfold delta
  rw [if_neg hType]
  exact hValid.amount.positive

def event (cmd : PostEntry) (env : Env) : Event where
  id := env.newID 1
  aggregateID := env.newID 0
  aggregateType := "ledger_entry"
  version := 1
  type := EntryPosted.eventType
  occurredAt := cmd.occurredAt env
  data := (cmd.posted env).document

def message (cmd : PostEntry) (env : Env) : Message where
  id := env.newID 2
  topic := ledgerEventsTopicV1
  key := cmd.accountID
  value := .obj
    [("account_id", .str cmd.accountID), ("aggregate_id", .str (env.newID 0)),
      ("aggregate_type", .str "ledger_entry"), ("delta_kobo", .num cmd.delta.toInt),
      ("event_type", .str "ledger.entry_posted.v1"),
      ("occurred_at_utc", .time (cmd.occurredAt env))]
  headers := [("schema", "json.v1")]

/- The four statements that write, and the answer. -/
def posting (cmd : PostEntry) (env : Env) : Tx String :=
  .ask (.insertEvent (cmd.event env) none) (fun _ =>
    .ask (.upsertBalance cmd.accountID cmd.delta 1) (fun _ =>
      .ask (.insertKey cmd.idempotencyKey (env.newID 0))
        (fun _ =>
          .ask (.insertMessage (cmd.message env) none) (fun _ => .ret (env.newID 0)))))

/- A command with nothing but what the ledger keeps. -/
def of (key account : String) (type : EntryType) (kobo : Int64) : PostEntry where
  idempotencyKey := key
  accountID := account
  type := type
  amount := ⟨kobo, NGN⟩
  narration := ""
  occurredAtUTC := zeroTime

/- Refused commands send no statement. -/
theorem handle_of_not_valid {cmd : PostEntry} (hNot : ¬ cmd.Valid) (env : Env) :
    ∃ e, cmd.handle env = .fail e := by
  unfold handle
  by_cases hKey : cmd.idempotencyKey = ""
  · exact ⟨_, if_pos hKey⟩
  by_cases hAccount : cmd.accountID = ""
  · rw [if_neg hKey, if_pos hAccount]
    exact ⟨_, rfl⟩
  by_cases hType : cmd.type ≠ entryTypeDeposit ∧ cmd.type ≠ entryTypeWithdrawal
  · rw [if_neg hKey, if_neg hAccount, if_pos hType]
    exact ⟨_, rfl⟩
  rw [if_neg hKey, if_neg hAccount, if_neg hType]
  cases hAmount : validateAmount cmd.amount with
  | error e => exact ⟨e, rfl⟩
  | ok u =>
    exfalso
    apply hNot
    refine ⟨hKey, hAccount, ?_, validateAmount_eq_ok.mp hAmount⟩
    by_cases hDeposit : cmd.type = entryTypeDeposit
    · exact Or.inl hDeposit
    · right
      by_contra hWithdrawal
      exact hType ⟨hDeposit, hWithdrawal⟩

/- An entry takes four statements; one event, no snapshot. -/
theorem record_of_valid {cmd : PostEntry} (hValid : cmd.Valid) (env : Env) : cmd.record env =
      if Json.TimeInRange (cmd.occurredAt env) then
        cmd.posting env
      else
        .fail (marshalError "marshal event" Json.rangeError) := by
  have hEntry : newEntry cmd.accountID cmd.type cmd.amount cmd.narration cmd.occurredAtUTC env =
      .ok (Entry.zero.raise (cmd.posted env)) := by
    unfold newEntry
    rw [if_neg hValid.account, validateAmount_eq_ok.mpr hValid.amount]
    rfl
  unfold record
  rw [hEntry]
  by_cases hTime : Json.TimeInRange (cmd.occurredAt env)
  · have hEvents : storedEvents (Entry.zero.raise (cmd.posted env)) env 0
        (Entry.zero.raise (cmd.posted env)).changes = .ok [cmd.event env] := by
      have hMarshal : (cmd.posted env).marshal = .ok (cmd.posted env).document := by
        rw [EntryPosted.marshal_eq]
        exact if_pos hTime
      simp [storedEvents, Entry.raise, Entry.apply, Entry.zero, hMarshal]
      rfl
    have hPayload : outboxPayload (Entry.zero.raise (cmd.posted env))
        cmd.accountID cmd.delta = .ok (cmd.message env).value := by
      have hOfTime : Json.ofTime (cmd.occurredAt env) =
          .ok (.time (cmd.occurredAt env)) := if_pos hTime
      simp [outboxPayload, Entry.raise, Entry.apply, posted, hOfTime]
      rfl
    rw [if_pos hTime]
    simp only [Prog.ofExcept_ok, Prog.ret_bind, hEvents, hPayload]
    rfl
  · have hMarshal : (cmd.posted env).marshal = .error Json.rangeError := by
      rw [EntryPosted.marshal_eq]
      exact if_neg hTime
    rw [if_neg hTime]
    simp [storedEvents, Entry.raise, Entry.apply, Entry.zero, hMarshal]
    rfl

/- The statements of an accepted command, in order. -/
theorem handle_of_valid {cmd : PostEntry} (hValid : cmd.Valid) (env : Env) :
    cmd.handle env = .ask (.selectKey cmd.idempotencyKey) (fun found =>
        match found with
        | some entryID => .ret entryID
        | none =>
          .ask (.selectBalance cmd.accountID 1) (fun row =>
            if cmd.type = entryTypeWithdrawal ∧ row.getD 0 + cmd.delta < 0 then
              .fail errInsufficientFunds
            else if Json.TimeInRange (cmd.occurredAt env) then
              cmd.posting env
            else
              .fail (marshalError "marshal event" Json.rangeError))) := by
  have hType : ¬ (cmd.type ≠ entryTypeDeposit ∧ cmd.type ≠ entryTypeWithdrawal) := by
    rintro ⟨hDeposit, hWithdrawal⟩
    rcases hValid.type with h | h
    · exact hDeposit h
    · exact hWithdrawal h
  have hAmount : validateAmount cmd.amount = .ok () := validateAmount_eq_ok.mpr hValid.amount
  unfold handle
  rw [if_neg hValid.key, if_neg hValid.account, if_neg hType, hAmount, ← record_of_valid hValid env]
  refine congrArg (Prog.ask _) (funext ?_)
  intro found
  cases found with
  | some entryID => rfl
  | none => rfl

end PostEntry

----
-- What A Call Commits
----

/-
  What a call may rely on while others commit: recorded keys stay recorded, and the rows it has
  written are its own.
-/
def rely : Engine.Rely Database Stmt Resp Write GoError String where
  rel := fun t db db' =>
    (∀ k entryID, db.idempotency k = some entryID → db'.idempotency k = some entryID) ∧
      ∀ w ∈ t.writes, ∀ row ∈ w.holds, row.Same db db'
  refl := by
    intro t db
    exact ⟨fun _ _ h => h, fun _ _ row _ => Row.Same.refl db row⟩
  trans := by
    intro t db₁ db₂ db₃ hFirst hSecond
    refine ⟨?_, ?_⟩
    · intro k entryID hKey
      exact hSecond.1 k entryID (hFirst.1 k entryID hKey)
    · intro w hMem row hRow
      exact (hFirst.2 w hMem row hRow).trans (hSecond.2 w hMem row hRow)

theorem rely_tick (t : Engine.Txn Stmt Resp Write GoError String) (s : Stmt)
    (db : Database) : rely.rel t db (postgres.tick s db) := by
  refine ⟨?_, ?_⟩
  · intro k entryID hKey
    simpa using hKey
  · intro w _ row _
    exact Row.same_tick db s row

section

variable {t : Engine.Txn Stmt Resp Write GoError String} {db db' : Database}

theorem rely_balance {a : String} {v : Nat} {d : Int}
    (hRely : rely.rel t db db') (hMem : Write.balance a v d ∈ t.writes) :
    db'.balance a v = db.balance a v :=
  (hRely.2 _ hMem (.balance a v) (List.mem_singleton.mpr rfl)).balance_eq

theorem rely_key {k i : String} (hRely : rely.rel t db db')
    (hMem : Write.key k i ∈ t.writes) : db'.idempotency k = db.idempotency k :=
  hRely.2 _ hMem (.key k) (List.mem_singleton.mpr rfl)

end

namespace PostEntry

/- The rows of one entry, all of them or none committed. -/
def writes (cmd : PostEntry) (env : Env) (sequence began : Nat) : List Write :=
  [.event ⟨sequence, cmd.event env⟩, .balance cmd.accountID 1 cmd.delta.toInt,
    .key cmd.idempotencyKey (env.newID 0), .message ⟨cmd.message env, began, none⟩]

/- A call that posts its entry, as it stands at the commit. -/
structure Posts (cmd : PostEntry) (env : Env) (db : Database) (ws : List Write)
    (entryID : String) : Prop where
  valid : cmd.Valid
  time : Json.TimeInRange (cmd.occurredAt env)
  absent : db.idempotency cmd.idempotencyKey = none
  inRange : inBigint (db.balance cmd.accountID 1 + cmd.delta.toInt) = true
  answer : entryID = env.newID 0
  writes : ∃ sequence began, ws = cmd.writes env sequence began

/-
  A call that commits either found its key recorded, writes nothing and returns the recorded entry,
  or posts its own.
-/
def Post (cmd : PostEntry) (env : Env) (db : Database) (ws : List Write)
    (entryID : String) : Prop :=
  (ws = [] ∧ db.idempotency cmd.idempotencyKey = some entryID) ∨ cmd.Posts env db ws entryID

section

variable (cmd : PostEntry) (env : Env) (sequence began : Nat) (db : Database)

@[simp] theorem view_writes_idempotency (k : String) :
    (postgres.view db (cmd.writes env sequence began)).idempotency k =
      if k = cmd.idempotencyKey then some (env.newID 0)
      else db.idempotency k := rfl

@[simp] theorem view_writes_events : (postgres.view db (cmd.writes env sequence began)).events =
    db.events ++ [⟨sequence, cmd.event env⟩] := rfl

@[simp] theorem view_writes_balance (a : String) (v : Nat) :
    (postgres.view db (cmd.writes env sequence began)).balance a v = db.balance a v +
        if a = cmd.accountID ∧ v = 1 then cmd.delta.toInt
        else 0 := by
  exact balance_apply (postgres.apply db (.event _)) cmd.accountID 1 cmd.delta.toInt a v

end

theorem posting_wp {cmd : PostEntry} {env : Env} (hValid : cmd.Valid)
    (hTime : Json.TimeInRange (cmd.occurredAt env)) (began : Nat)
    (db : Database) : postgres.Wp rely (cmd.Post env) began (cmd.posting env) [] db := by
  -- insert the event
  intro db₁ _ _ ws₁ hExec₁
  rcases Stmt.exec_insertEvent hExec₁ with ⟨_, _, rfl⟩
  -- apply the delta, which takes the balance row
  intro db₂ _ _ ws₂ hExec₂
  rcases Stmt.exec_upsertBalance hExec₂ with ⟨hRange, rfl⟩
  -- save the key, which takes the key row
  intro db₃ hRely₃ _ ws₃ hExec₃
  rcases Stmt.exec_insertKey hExec₃ with ⟨hAbsent, rfl⟩
  -- enqueue the message
  intro db₄ hRely₄ _ ws₄ hExec₄
  rcases Stmt.exec_insertMessage hExec₄ with ⟨_, rfl⟩
  -- commit
  intro db₅ hRely₅
  have hRow₃ : db₃.balance cmd.accountID 1 = _ :=
    rely_balance (d := cmd.delta.toInt) hRely₃ (by simp)
  have hRow₄ : db₄.balance cmd.accountID 1 = _ :=
    rely_balance (d := cmd.delta.toInt) hRely₄ (by simp)
  have hRow₅ : db₅.balance cmd.accountID 1 = _ :=
    rely_balance (d := cmd.delta.toInt) hRely₅ (by simp)
  have hKey₄ : db₄.idempotency cmd.idempotencyKey = _ :=
    rely_key (i := env.newID 0) hRely₄ (by simp)
  have hKey₅ : db₅.idempotency cmd.idempotencyKey = _ :=
    rely_key (i := env.newID 0) hRely₅ (by simp)
  have hBalance : db₅.balance cmd.accountID 1 = db₂.balance cmd.accountID 1 := by
    rw [hRow₅, tick_balance, hRow₄, tick_balance, hRow₃, tick_balance]
  right
  refine ⟨hValid, hTime, ?_, ?_, rfl, db₁.sequence + 1, began, rfl⟩
  · rw [hKey₅, tick_idempotency, hKey₄, tick_idempotency]
    exact hAbsent
  · rw [hBalance]
    exact hRange

/- Every call meets its postcondition, from any database. -/
theorem handle_wp (cmd : PostEntry) (env : Env) (began : Nat) (db : Database) :
    postgres.Wp rely (cmd.Post env) began (cmd.handle env) [] db := by
  by_cases hValid : cmd.Valid
  · rw [handle_of_valid hValid env]
    -- look the key up
    intro db₁ _ found ws₁ hExec₁
    rcases Stmt.exec_selectKey hExec₁ with ⟨rfl, rfl⟩
    cases hFound : db₁.idempotency cmd.idempotencyKey with
    | some entryID =>
      simp only [postgres, Engine.view_nil, hFound]
      intro db₂ hRely₂
      left
      refine ⟨rfl, hRely₂.1 _ _ ?_⟩
      rw [← hFound]
      rfl
    | none =>
      simp only [Engine.view_nil, hFound]
      -- read the balance
      intro db₂ _ row ws₂ hExec₂
      rcases Stmt.exec_selectBalance hExec₂ with ⟨_, rfl⟩
      dsimp only
      by_cases hFunds : cmd.type = entryTypeWithdrawal ∧ row.getD 0 + cmd.delta < 0
      · rw [if_pos hFunds]
        trivial
      · rw [if_neg hFunds]
        by_cases hTime : Json.TimeInRange (cmd.occurredAt env)
        · rw [if_pos hTime]
          exact posting_wp hValid hTime began _
        · rw [if_neg hTime]
          trivial
  · rcases handle_of_not_valid hValid env with ⟨e, hFail⟩
    rw [hFail]
    trivial

----
-- When A Call Succeeds
----

variable {cmd : PostEntry} {env : Env} {db : Database} {began : Nat}

theorem exec_key (began : Nat) (hSchema : db.schema = ledgerSchema)
    (key : String) : postgres.exec began (.selectKey key) db =
    .ok (db.idempotency key, []) := Stmt.exec_of_answer hSchema rfl rfl

/- The balance, as the handler reads it. -/
theorem exec_balance (cmd : PostEntry) (began : Nat)
    (hSchema : db.schema = ledgerSchema) : ∃ row : Option Int64,
    postgres.exec began (.selectBalance cmd.accountID 1) db = .ok (row, []) ∧
    row.getD 0 = Int64.ofInt (db.balance cmd.accountID 1) := by
  have hExec : postgres.exec began (.selectBalance cmd.accountID 1) db =
      .ok ((db.balances cmd.accountID 1).map Int64.ofInt, []) := Stmt.exec_of_answer hSchema rfl rfl
  exact ⟨_, hExec, (Stmt.exec_selectBalance hExec).1⟩

theorem commits_found (hValid : cmd.Valid) (hSchema : db.schema = ledgerSchema) {entryID : String}
    (hFound : db.idempotency cmd.idempotencyKey = some entryID) :
    postgres.Commits began (cmd.handle env) [] db entryID [] := by
  rw [handle_of_valid hValid env]
  have hKey := exec_key began hSchema cmd.idempotencyKey
  rw [hFound] at hKey
  refine Engine.Commits.ask hKey ?_
  exact .ret entryID [] _

section

variable (hValid : cmd.Valid) (hSchema : db.schema = ledgerSchema)
variable (hAbsent : db.idempotency cmd.idempotencyKey = none)
  (hRange : inBigint (db.balance cmd.accountID 1) = true)
  (hSum : inBigint (db.balance cmd.accountID 1 + cmd.delta.toInt) = true)

include hValid hSchema hAbsent hRange hSum

theorem aborts_short (hType : cmd.type = entryTypeWithdrawal)
    (hShort : db.balance cmd.accountID 1 + cmd.delta.toInt < 0) :
    postgres.Aborts began (cmd.handle env) [] db := by
  rw [handle_of_valid hValid env]
  have hKey := exec_key began hSchema cmd.idempotencyKey
  rw [hAbsent] at hKey
  refine Engine.Aborts.ask hKey ?_
  have hTick : (postgres.tick (.selectKey cmd.idempotencyKey) db).schema = ledgerSchema := hSchema
  rcases exec_balance cmd began hTick with ⟨row, hExec, hRow⟩
  refine Engine.Aborts.ask hExec ?_
  have hCheck : row.getD 0 + cmd.delta < 0 := by
    rw [hRow]
    exact (ofInt_add_neg_iff hRange hSum).mpr hShort
  rw [if_pos ⟨hType, hCheck⟩]
  exact .fail _ _ _

theorem commits_posting (hTime : Json.TimeInRange (cmd.occurredAt env))
    (hFunds : cmd.type = entryTypeWithdrawal → 0 ≤ db.balance cmd.accountID 1 + cmd.delta.toInt)
    (hEvent : db.Unused (env.newID 1))
    (hStream : ∀ row ∈ db.events, row.event.aggregateID ≠ env.newID 0)
    (hMessage : db.Unused (env.newID 2)) :
    postgres.Commits began (cmd.handle env) [] db (env.newID 0)
    (cmd.writes env (db.sequence + 1) began) := by
  rw [handle_of_valid hValid env]
  have hKey := exec_key began hSchema cmd.idempotencyKey
  rw [hAbsent] at hKey
  refine Engine.Commits.ask hKey ?_
  have hTick : (postgres.tick (.selectKey cmd.idempotencyKey) db).schema = ledgerSchema := hSchema
  rcases exec_balance cmd began hTick with ⟨row, hExec, hRow⟩
  refine Engine.Commits.ask hExec ?_
  have hCheck : ¬ (cmd.type = entryTypeWithdrawal ∧ row.getD 0 + cmd.delta < 0) := by
    rintro ⟨hType, hNegative⟩
    rw [hRow] at hNegative
    have hShort := (ofInt_add_neg_iff hRange hSum).mp hNegative
    have hCovered := hFunds hType
    omega
  rw [if_neg hCheck, if_pos hTime]
  unfold posting
  refine Engine.Commits.ask
    (Stmt.exec_of_answer hSchema rfl (Stmt.answer_insertEvent none hEvent.event ?_)) ?_
  · intro row hMem hSame
    exact absurd hSame (hStream row hMem)
  refine Engine.Commits.ask (Stmt.exec_of_answer hSchema rfl (Stmt.answer_upsertBalance hSum)) ?_
  refine Engine.Commits.ask (Stmt.exec_of_answer hSchema rfl (Stmt.answer_insertKey _ hAbsent)) ?_
  refine Engine.Commits.ask
    (Stmt.exec_of_answer hSchema rfl (Stmt.answer_insertMessage none hMessage.message)) ?_
  exact .ret _ _ _

end

end PostEntry

----
-- The gRPC Server
----

/- `ledgerv1.EntryType` -/
inductive WireEntryType where
  | unspecified
  | deposit
  | withdrawal
  deriving DecidableEq

/- `ledgerv1.PostEntryRequest` with its messages present -/
structure PostEntryRequest where
  idempotencyKey : String
  entryType : WireEntryType
  accountID : String
  currency : String
  amountKobo : Int64
  narration : String
  deriving DecidableEq

/- The command a request stands for. -/
def PostEntryRequest.command (req : PostEntryRequest) (typ : EntryType) : PostEntry where
  idempotencyKey := req.idempotencyKey
  accountID := req.accountID
  type := typ
  amount := ⟨req.amountKobo, req.currency⟩
  narration := req.narration
  occurredAtUTC := zeroTime

/- `Server.PostEntry` -/
def PostEntryRequest.postEntry (req : PostEntryRequest) (env : Env) : Tx String :=
  if trimSpace req.accountID = "" then
    .fail (.text "account_id required")
  else
    match Money.new req.amountKobo req.currency with
    | .error e => .fail e
    | .ok _ =>
      match req.entryType with
      | .unspecified =>
        .fail (.text "unsupported entry type")
      | .deposit =>
        (req.command entryTypeDeposit).handle env
      | .withdrawal =>
        (req.command entryTypeWithdrawal).handle env

end Fincore.Ledger
