import Fincore.Transfer.Services

/-
  What the calls of a transfer do to the ledger.

  A call that names an entry either finds its key recorded and moves nothing, or moves the amount
  and records the key; which of the two is decided by the key alone.

  Key definitions include:
    * `SameLedger`
    * `Move` and `Move.Done`
    * `ServiceCall.move?`

  Main results:
    * `serveCall_tried`
    * `serveCall_ledger`
-/

----
-- Moves
----

namespace Fincore

/- The balances and the keys are as they were. -/
structure SameLedger (db db' : Database) : Prop where
  balance : ∀ a, db'.balance a 1 = db.balance a 1
  keys : ∀ k, db'.idempotency k = db.idempotency k

theorem SameLedger.refl (db : Database) : SameLedger db db := ⟨fun _ => rfl, fun _ => rfl⟩

/- One if the key is not recorded yet, and zero if it is. -/
def fresh (db : Database) (k : String) : Int :=
  if db.idempotency k = none then 1 else 0

/- An amount for an account under an idempotency key. -/
structure Move where
  account : String
  kobo : Int
  key : String
  deriving DecidableEq

/- The move was made, unless its key was recorded before. -/
structure Move.Done (m : Move) (db db' : Database) : Prop where
  balance : ∀ a, db'.balance a 1 = db.balance a 1 +
        if a = m.account then fresh db m.key * m.kobo else 0
  recorded : fresh db' m.key = 0
  others : ∀ k, k ≠ m.key → fresh db' k = fresh db k

/- The move a ledger command asks for. -/
def Ledger.PostEntry.move (cmd : Ledger.PostEntry) : Move :=
  ⟨cmd.accountID, cmd.delta.toInt, cmd.idempotencyKey⟩

theorem SameLedger.fresh_eq {db db' : Database} (hSame : SameLedger db db')
    (k : String) : fresh db' k = fresh db k := by
  unfold fresh
  rw [hSame.keys]

theorem Move.Done.of_same {m : Move} {db₁ db₂ db₃ : Database}
    (hSame : SameLedger db₁ db₂) (hDone : m.Done db₂ db₃) : m.Done db₁ db₃ := by
  refine ⟨?_, hDone.recorded, ?_⟩
  · intro a
    rw [hDone.balance, hSame.balance, hSame.fresh_eq]
  · intro k hOther
    rw [hDone.others k hOther, hSame.fresh_eq]

/- Ticks are not seen by the balances or the keys. -/
theorem sameLedger_of_ticked {db db' : Database}
    (hTicked : postgres.Ticked db db') : SameLedger db db' := by
  refine ⟨?_, ?_⟩
  · intro a
    exact hTicked.observe (f := fun db => db.balance a 1) (fun s db => tick_balance s db a 1)
  · intro k
    have hKeys : db'.idempotency = db.idempotency := hTicked.observe tick_idempotency
    rw [hKeys]

/- A transaction that fails leaves the ledger as it was. -/
theorem sameLedger_of_error {α : Type} {p : Tx α} {db db' : Database}
    {e : GoError} (hRun : postgres.withTx p db = (.error e, db')) : SameLedger db db' := by
  have hError : (postgres.withTx p db).1 = .error e := by
    rw [hRun]
  have hDb : (postgres.withTx p db).2 = db' := by
    rw [hRun]
  refine ⟨?_, ?_⟩
  · intro a
    rw [← hDb]
    exact Engine.serial_error_observe postgres (fun db => db.balance a 1)
      (fun s db => tick_balance s db a 1) _ p [] db hError
  · intro k
    rw [← hDb]
    exact congrFun
      (Engine.serial_error_observe postgres
        Database.idempotency tick_idempotency _ p [] db hError) k

end Fincore

----
-- Entries
----

namespace Fincore.Ledger

/- A commit makes the command's move. -/
theorem PostEntry.Post.done {cmd : PostEntry} {env : Env} {db : Database}
    {ws : List Write} {entryID : String} (hPost : cmd.Post env db ws entryID) :
    cmd.move.Done db (postgres.view db ws) := by
  rcases hPost with ⟨rfl, hFound⟩ | hPosts
  · have hUsed : fresh db cmd.idempotencyKey = 0 := by
      simp [fresh, hFound]
    refine ⟨?_, hUsed, ?_⟩
    · intro a
      simp [PostEntry.move, hUsed]
    · intro k _
      rfl
  · rcases hPosts.writes with ⟨sequence, began, rfl⟩
    have hFresh : fresh db cmd.idempotencyKey = 1 := by
      simp [fresh, hPosts.absent]
    refine ⟨?_, ?_, ?_⟩
    · intro a
      rw [PostEntry.view_writes_balance]
      simp [PostEntry.move, hFresh]
    · simp [fresh, PostEntry.move]
    · intro k hOther
      unfold fresh
      rw [PostEntry.view_writes_idempotency]
      rw [if_neg (show k ≠ cmd.idempotencyKey from hOther)]

/- A call of `Handle` that succeeds makes its move. -/
theorem handle_done {cmd : PostEntry} {env : Env} {db db' : Database} {entryID : String}
    (hRun : postgres.withTx (cmd.handle env) db = (.ok entryID, db')) :
    cmd.Valid ∧ cmd.move.Done db db' := by
  have hOk : (postgres.withTx (cmd.handle env) db).1 = .ok entryID := by
    rw [hRun]
  refine ⟨?_, ?_⟩
  · by_contra hNot
    rcases PostEntry.handle_of_not_valid hNot env with ⟨e, hFail⟩
    rw [hFail] at hOk
    cases hOk
  · rcases (cmd.handle_wp env _ db).serial hOk with ⟨db₁, ws, hTicked, hPost, hView⟩
    have hDb : db' = postgres.view db₁ ws := by
      rw [← hView]
      show db' = (postgres.withTx (cmd.handle env) db).2
      rw [hRun]
    rw [hDb]
    exact Move.Done.of_same (sameLedger_of_ticked hTicked) hPost.done

/- The move a request asks for. -/
def PostEntryRequest.move (req : PostEntryRequest) : Move where
  account := req.accountID
  kobo :=
    match req.entryType with
    | .withdrawal => -req.amountKobo.toInt
    | _ => req.amountKobo.toInt
  key := req.idempotencyKey

theorem postEntry_done {req : PostEntryRequest} {env : Env} {db db' : Database} {entryID : String}
    (hRun : postgres.withTx (req.postEntry env) db = (.ok entryID, db')) :
    0 < req.amountKobo.toInt ∧ req.move.Done db db' := by
  unfold PostEntryRequest.postEntry at hRun
  split at hRun
  · cases hRun
  · split at hRun
    · cases hRun
    · split at hRun
      · cases hRun
      · rename_i hType
        rcases handle_done hRun with ⟨hValid, hDone⟩
        have hMove : req.move = (req.command entryTypeDeposit).move := by
          unfold PostEntryRequest.move
          rw [hType]
          rfl
        rw [hMove]
        exact ⟨hValid.amount.positive, hDone⟩
      · rename_i hType
        rcases handle_done hRun with ⟨hValid, hDone⟩
        have hMove : req.move = (req.command entryTypeWithdrawal).move := by
          unfold PostEntryRequest.move PostEntry.move
          rw [hType, hValid.delta_of_withdrawal rfl]
          rfl
        rw [hMove]
        exact ⟨hValid.amount.positive, hDone⟩

end Fincore.Ledger

----
-- Calls
----

namespace Fincore

/-
  A call with a move: the move was made, whatever the call answered, or the call failed and the
  ledger is as it was.
-/
inductive Move.Tried {α : Type} (m : Move) (db : Database) :
    Except GoError α × Database → Prop where
  | done {r : Except GoError α} {db' : Database} (hAmount : m.kobo ≠ 0)
      (hDone : m.Done db db') : Tried m db (r, db')
  | refused {db' : Database} (e : GoError) (hSame : SameLedger db db') : Tried m db (.error e, db')

theorem serveTx_postEntry (fates : Nat → Fate) (req : Ledger.PostEntryRequest)
    (w : World) : req.move.Tried w.ledger
    ((serveTx fates (.postEntry req) w).1, (serveTx fates (.postEntry req) w).2.ledger) := by
  unfold serveTx ServiceTx.exec
  cases hFate : fates w.served with
  | down e => exact .refused e (SameLedger.refl _)
  | run env =>
    cases hRun : postgres.withTx (req.postEntry env) w.ledger with
    | mk r db =>
      cases r with
      | error e =>
        simp only [hRun]
        exact .refused e (sameLedger_of_error hRun)
      | ok entryID =>
        rcases Ledger.postEntry_done hRun with ⟨hPositive, hDone⟩
        simp only [hRun]
        refine .done ?_ hDone
        unfold Ledger.PostEntryRequest.move
        dsimp only
        split
        · omega
        · omega

theorem serveTx_ledger (fates : Nat → Fate) {r : ServiceTx}
    (hOther : ∀ req, r ≠ .postEntry req) (w : World) : (serveTx fates r w).2.ledger = w.ledger := by
  unfold serveTx
  cases r with
  | postEntry req => exact absurd rfl (hOther req)
  | recordMovement kind cmd entryID =>
    unfold ServiceTx.exec
    cases fates w.served <;> rfl
  | authorizePayment paymentID key =>
    unfold ServiceTx.exec
    cases fates w.served <;> rfl
  | settlePayment paymentID key =>
    unfold ServiceTx.exec
    cases fates w.served <;> rfl
  | failPayment paymentID key reason =>
    unfold ServiceTx.exec
    cases fates w.served <;> rfl

/- Changing the answer does not undo the move. -/
theorem Move.Tried.map {α β : Type} {m : Move} {db db' : Database}
    {r : Except GoError α} (hTried : m.Tried db (r, db')) (f : α → β) :
    m.Tried db (r.map f, db') := by
  cases hTried with
  | done hAmount hDone => exact .done hAmount hDone
  | refused e hSame => exact .refused e hSame

theorem Move.Tried.mapError {α : Type} {m : Move} {db db' : Database}
    {r : Except GoError α} (hTried : m.Tried db (r, db'))
    (f : GoError → GoError) : m.Tried db (r.mapError f, db') := by
  cases hTried with
  | done hAmount hDone => exact .done hAmount hDone
  | refused e hSame => exact .refused (f e) hSame

theorem moveMoney_tried (fates : Nat → Fate) (kind : Account.Movement)
    (cmd : Account.MoneyCommand) (w : World) : (Account.ledgerRequest kind cmd).move.Tried w.ledger
    (((Account.moveMoney kind cmd).runWith (serveTx fates) w).1,
    ((Account.moveMoney kind cmd).runWith (serveTx fates) w).2.ledger) := by
  by_cases hValid : cmd.Valid
  · rw [Account.moveMoney_run hValid]
    have hTx := serveTx_postEntry fates (Account.ledgerRequest kind cmd) w
    revert hTx
    rcases serveTx fates (.postEntry (Account.ledgerRequest kind cmd)) w with ⟨r, w₁⟩
    intro hTx
    cases r with
    | error e =>
      cases hTx with
      | done hAmount hDone => exact .done hAmount hDone
      | refused _ hSame => exact .refused _ hSame
    | ok entryID =>
      have hLedger := serveTx_ledger fates (r := .recordMovement kind cmd entryID)
        (fun req hEq => by cases hEq) w₁
      revert hLedger
      dsimp only
      rcases serveTx fates (.recordMovement kind cmd entryID) w₁ with ⟨r, w₂⟩
      intro hLedger
      dsimp only at hLedger
      cases hTx with
      | done hAmount hDone =>
        cases r with
        | error e =>
          dsimp only
          rw [hLedger]
          exact .done hAmount hDone
        | ok u =>
          dsimp only
          rw [hLedger]
          exact .done hAmount hDone
  · rcases Account.moveMoney_of_not_valid hValid kind with ⟨e, hFail⟩
    rw [hFail]
    exact .refused e (SameLedger.refl _)

/- The move a call makes, if it makes one. -/
def ServiceCall.move? : ServiceCall → Option Move
| .deposit accountID amount key _ =>
  some ⟨accountID, amount.amountKobo.toInt, key⟩
| .withdraw accountID amount key _ =>
  some ⟨accountID, -amount.amountKobo.toInt, key⟩
| .postEntry accountID amount entryType key _ =>
  some ⟨accountID,
    if entryType = "withdrawal" then
      -amount.amountKobo.toInt
    else amount.amountKobo.toInt, key⟩
| _ => none

theorem movement_tried (fates : Nat → Fate) (kind : Account.Movement)
    (context accountID : String) (amount : Money) (key narration : String) (w : World) :
    (Account.ledgerRequest kind ⟨accountID, amount, key, narration⟩).move.Tried w.ledger
    (((ServiceCall.movement kind context accountID amount
    key narration).runWith (serveTx fates) w).1,
    ((ServiceCall.movement kind context accountID amount
    key narration).runWith (serveTx fates) w).2.ledger) := by
  unfold ServiceCall.movement
  rw [Prog.runWith_mapError]
  unfold Account.serveMovement Money.new
  by_cases hCurrency : amount.currency = ""
  · rw [if_pos hCurrency]
    exact .refused _ (SameLedger.refl _)
  · rw [if_neg hCurrency]
    exact (moveMoney_tried fates kind ⟨accountID, amount, key, narration⟩ w).mapError _

theorem entry_tried (fates : Nat → Fate) (req : Ledger.PostEntryRequest)
    (f : GoError → GoError) (w : World) : req.move.Tried w.ledger
      (((transact (.postEntry req) >>= fun resp =>
      Prog.ofExcept (resp.mapError f) : Service String).runWith (serveTx fates) w).1,
      ((transact (.postEntry req) >>= fun resp =>
      Prog.ofExcept (resp.mapError f) : Service String).runWith
      (serveTx fates) w).2.ledger) := by
  have hTx := serveTx_postEntry fates req w
  show req.move.Tried w.ledger
    ((Prog.runWith (serveTx fates) (Prog.ofExcept ((serveTx fates (.postEntry req) w).1.mapError f))
        (serveTx fates (.postEntry req) w).2).1,
      (Prog.runWith (serveTx fates)
        (Prog.ofExcept ((serveTx fates (.postEntry req) w).1.mapError f))
        (serveTx fates (.postEntry req) w).2).2.ledger)
  revert hTx
  rcases serveTx fates (.postEntry req) w with ⟨r, w'⟩
  intro hTx
  cases r with
  | error e => exact hTx.mapError f
  | ok entryID => exact hTx

/- The switch of the ledger client keeps the sign. -/
theorem wireEntryType_move {entryType : String} {et : Ledger.WireEntryType}
    (hWire : ServiceCall.wireEntryType entryType = some et)
    {key accountID currency narration : String} {amountKobo : Int64} : Ledger.PostEntryRequest.move
        ⟨key, et, accountID, currency, amountKobo, narration⟩ =
      ⟨accountID,
        if entryType = "withdrawal" then -amountKobo.toInt
        else amountKobo.toInt, key⟩ := by
  unfold ServiceCall.wireEntryType at hWire
  by_cases hDeposit : entryType = "deposit"
  · rw [if_pos hDeposit] at hWire
    cases hWire
    subst hDeposit
    rfl
  by_cases hWithdrawal : entryType = "withdrawal"
  · rw [if_neg hDeposit, if_pos hWithdrawal] at hWire
    cases hWire
    subst hWithdrawal
    rfl
  · rw [if_neg hDeposit, if_neg hWithdrawal] at hWire
    cases hWire

theorem ledgerEntry_tried (fates : Nat → Fate) {m : Move} {accountID : String}
    {amount : Money} {entryType key narration : String}
    (hMove :
    (ServiceCall.postEntry accountID amount entryType key
    narration).move? = some m) (w : World) : m.Tried w.ledger
    (((ServiceCall.ledgerEntry accountID amount entryType
    key narration).runWith (serveTx fates) w).1,
    ((ServiceCall.ledgerEntry accountID amount entryType
    key narration).runWith (serveTx fates) w).2.ledger) := by
  simp only [ServiceCall.move?, Option.some.injEq] at hMove
  subst hMove
  unfold ServiceCall.ledgerEntry
  cases hWire : ServiceCall.wireEntryType entryType with
  | none => exact .refused _ (SameLedger.refl _)
  | some et =>
    have hTried := entry_tried fates
      ⟨key, et, accountID, amount.currency, amount.amountKobo, narration⟩
      (fun e => .wrap "ledger post entry" (.rpc e)) w
    rw [wireEntryType_move hWire] at hTried
    exact hTried

/- What a call with a move does to the ledger. -/
theorem serveCall_tried (fates : Nat → Fate) {c : ServiceCall} {m : Move}
    (hMove : c.move? = some m) (w : World) : m.Tried w.ledger
    ((serveCall fates c w).1, (serveCall fates c w).2.ledger) := by
  unfold serveCall
  cases c with
  | deposit accountID amount key narration =>
    simp only [ServiceCall.move?, Option.some.injEq] at hMove
    subst hMove
    simp only [ServiceCall.prog, Prog.runWith_discard]
    exact (movement_tried fates .deposit "account deposit" accountID amount key narration w).map _
  | withdraw accountID amount key narration =>
    simp only [ServiceCall.move?, Option.some.injEq] at hMove
    subst hMove
    simp only [ServiceCall.prog, Prog.runWith_discard]
    exact (movement_tried fates .withdrawal
      "account withdraw" accountID amount key narration w).map _
  | postEntry accountID amount entryType key narration =>
    simp only [ServiceCall.prog, Prog.runWith_discard]
    exact (ledgerEntry_tried fates hMove w).map _
  | authorize paymentID key => cases hMove
  | settle paymentID key => cases hMove
  | fail paymentID key reason => cases hMove

/- A transaction off the ledger whose result is dropped. -/
theorem transact_ledger {α : Type} (fates : Nat → Fate) {r : ServiceTx}
    (hOther : ∀ req, r ≠ .postEntry req) (f : ServiceTx.Resp r → Except GoError α) (w : World) :
    ((transact r >>= fun res => do
        let _ ← Prog.ofExcept (f res)
        return () : Service Unit).runWith (serveTx fates) w).2.ledger = w.ledger := by
  have hLedger := serveTx_ledger fates hOther w
  show (Prog.runWith (serveTx fates) (Prog.ofExcept (f (serveTx fates r w).1) >>= fun _ => pure ())
    (serveTx fates r w).2).2.ledger = w.ledger
  rw [Prog.runWith_discard]
  cases f (serveTx fates r w).1 with
  | error e => exact hLedger
  | ok a => exact hLedger

/- The other calls leave the ledger alone. -/
theorem serveCall_ledger (fates : Nat → Fate) {c : ServiceCall}
    (hMove : c.move? = none) (w : World) : (serveCall fates c w).2.ledger = w.ledger := by
  unfold serveCall
  cases c with
  | deposit accountID amount key narration => cases hMove
  | withdraw accountID amount key narration => cases hMove
  | postEntry accountID amount entryType key narration =>
    cases hMove
  | authorize paymentID key =>
    exact transact_ledger fates (r := .authorizePayment paymentID key)
      (fun req hEq => by cases hEq) id w
  | settle paymentID key =>
    exact transact_ledger fates (r := .settlePayment paymentID key)
      (fun req hEq => by cases hEq) id w
  | fail paymentID key reason =>
    exact transact_ledger fates (r := .failPayment paymentID key reason)
      (fun req hEq => by cases hEq) id w

end Fincore
