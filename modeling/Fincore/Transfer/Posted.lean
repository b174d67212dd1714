import Fincore.Ledger.Recorded
import Fincore.Transfer.Services

/-
  What a success of the ledger, or of a deposit or a withdrawal of the account service, says about
  the log.

  A key stands for the command that was first to commit under it. Whoever succeeds under the key is
  answered with that command's entry, whatever they asked for.

  Key definitions include:
    * `Ledger.SameMovement`
    * `Ledger.PostedUnder`
    * `Account.ledgerCommand`
    * `Account.AnsweredBy`

  Main results:
    * `Account.ledger_ok_of_moveMoney_ok`
    * `success_posted_under_key`
-/

----
-- Entries And Commands
----

namespace Fincore.Ledger

/- The commands ask for the same movement. -/
structure SameMovement (cmd cmd' : PostEntry) : Prop where
  account : cmd.accountID = cmd'.accountID
  type : cmd.type = cmd'.type
  amount : cmd.amount = cmd'.amount

/- The entry is of the movement the command asks for. -/
structure EntryPosted.Makes (e : EntryPosted) (cmd : PostEntry) : Prop where
  account : e.accountID = cmd.accountID
  type : e.entryType = cmd.type
  amount : e.amountKobo = cmd.amount.amountKobo
  currency : e.currency = cmd.amount.currency

/-
  The entry is stored and was posted for a command of the run under the same key; it is the
  command's own if the commands of the run under its key ask for one movement.
-/
structure PostedUnder (cfg : Calls) (cmd : PostEntry) (entryID : String) : Prop where
  first : ∃ j first env e, cfg.input? j = some (first, env) ∧
        first.idempotencyKey = cmd.idempotencyKey ∧
        HasEntry cfg.db e ∧ e.entryID = entryID ∧ e.Makes first
  own :
    (∀ j other env, cfg.input? j = some (other, env) →
          other.idempotencyKey = cmd.idempotencyKey → SameMovement other cmd) →
      ∃ e, HasEntry cfg.db e ∧ e.entryID = entryID ∧ e.Makes cmd

theorem posted_makes (cmd : PostEntry) (env : Env) :
    (cmd.posted env).Makes cmd := ⟨rfl, rfl, rfl, rfl⟩

theorem EntryPosted.Makes.of_same {e : EntryPosted} {cmd cmd' : PostEntry}
    (hMakes : e.Makes cmd) (hSame : SameMovement cmd cmd') : e.Makes cmd' := by
  refine ⟨?_, ?_, ?_, ?_⟩
  · rw [hMakes.account, hSame.account]
  · rw [hMakes.type, hSame.type]
  · rw [hMakes.amount, hSame.amount]
  · rw [hMakes.currency, hSame.amount]

theorem postedUnder_of_returned {cfg : Calls} (hInv : Recorded cfg) {i : Nat}
    {call : PostEntry × Env} {entryID : String} (hReturned : cfg.Returned i call (.ok entryID)) :
    PostedUnder cfg call.1 entryID := by
  rcases recorded_answer hInv hReturned with ⟨j, first, env, hInput, hKey, hEntry, hID⟩
  have hMakes := posted_makes first env
  refine ⟨?_, ?_⟩
  · exact ⟨j, first, env, first.posted env, hInput, hKey, hEntry, hID, hMakes⟩
  · intro hAgree
    have hSame := hAgree j first env hInput hKey
    exact ⟨first.posted env, hEntry, hID, hMakes.of_same hSame⟩

end Fincore.Ledger

----
-- Deposits And Withdrawals
----

namespace Fincore

namespace Account

/- The command the ledger makes of a forwarded movement. -/
def ledgerCommand (kind : Movement) (cmd : MoneyCommand) : Ledger.PostEntry :=
  (ledgerRequest kind cmd).command
    (match kind with
    | .deposit => Ledger.entryTypeDeposit
    | .withdrawal => Ledger.entryTypeWithdrawal)

/-
  Whatever the handler's own database does, its calls of the ledger that succeed are calls of the
  ledger's run.
-/
def AnsweredBy {W : Type} (cfg : Ledger.Calls)
    (server : (r : ServiceTx) → W → ServiceTx.Resp r × W) :
    Prop :=
  ∀ kind cmd w entryID, (server (.postEntry (ledgerRequest kind cmd)) w).1 =
        .ok entryID → ∃ i env, cfg.Returned i (ledgerCommand kind cmd, env) (.ok entryID)

/- A handler succeeds with the answer of the ledger only. -/
theorem ledger_ok_of_moveMoney_ok {W : Type}
    {server : (r : ServiceTx) → W → ServiceTx.Resp r × W} {kind : Movement}
    {cmd : MoneyCommand} {w w' : W} {entryID : String}
    (hRun : (moveMoney kind cmd).runWith server w = (.ok entryID, w')) :
    (server (.postEntry (ledgerRequest kind cmd)) w).1 = .ok entryID := by
  by_cases hValid : cmd.Valid
  · rw [moveMoney_run hValid] at hRun
    rcases hLedger : server (.postEntry (ledgerRequest kind cmd)) w with ⟨r, w₁⟩
    rw [hLedger] at hRun
    cases r with
    | error e => cases hRun
    | ok answer =>
      dsimp only at hRun
      rcases hRecord : server (.recordMovement kind cmd answer) w₁ with ⟨r, w₂⟩
      rw [hRecord] at hRun
      cases r with
      | error e => cases hRun
      | ok u =>
        cases hRun
        rfl
  · rcases moveMoney_of_not_valid hValid kind with ⟨e, hFail⟩
    rw [hFail] at hRun
    cases hRun

end Account

/-
  Every success of the ledger, and every success that the account service reports on its word, names
  a stored entry of the key's command.
-/
theorem success_posted_under_key (schema : Schema)
    (schedule : List Ledger.ServiceAction) (s : Ledger.Service)
    (hRun : Transition.run Ledger.serviceStep
      (Ledger.Service.start (Database.empty schema)) schedule = some s) :
    (∀ i cmd env entryID, s.calls.Returned i (cmd, env) (.ok entryID) →
      Ledger.PostedUnder s.calls cmd entryID) ∧ ∀ (W : Type)
      (server : (r : ServiceTx) → W → ServiceTx.Resp r × W),
      Account.AnsweredBy s.calls server → ∀ kind cmd w w' entryID,
      (Account.moveMoney kind cmd).runWith server w = (.ok entryID, w') →
      Ledger.PostedUnder s.calls (Account.ledgerCommand kind cmd)
      entryID := by
  have hRecorded := Ledger.recorded_run hRun
  refine ⟨?_, ?_⟩
  · intro i cmd env entryID hReturned
    exact Ledger.postedUnder_of_returned hRecorded hReturned
  · intro W server hAnswered kind cmd w w' entryID hMoved
    rcases hAnswered kind cmd w entryID
        (Account.ledger_ok_of_moveMoney_ok hMoved) with ⟨i, env, hReturned⟩
    exact Ledger.postedUnder_of_returned hRecorded hReturned

/- A deposit, and a second one under its key. -/
def firstDeposit : Ledger.PostEntry := .of "k" "acc" Ledger.entryTypeDeposit 100

def secondDeposit : Ledger.PostEntry := .of "k" "other" Ledger.entryTypeDeposit 500

def reusedKey : List Ledger.ServiceAction :=
  Ledger.wholeCall 0 firstDeposit (.tagged "a") ++
    [.call (.start (secondDeposit, .tagged "b")), .call (.exec 1), .call (.finish 1)]

/- The second deposit as the account service gets it. -/
def depositOther : Account.MoneyCommand := ⟨"other", ⟨500, NGN⟩, "k", ""⟩

/- The ledger's side of `reusedKey`, and a good database. -/
def answering : (r : ServiceTx) → Unit → ServiceTx.Resp r × Unit
| .postEntry req, _ =>
  if req = Account.ledgerRequest .deposit depositOther then
    (.ok "a-0", ())
  else (.error (.pg .connection), ())
| .recordMovement _ _ _, _ => (.ok (), ())
| .authorizePayment _ _, _ => (.error (.pg .connection), ())
| .settlePayment _ _, _ => (.error (.pg .connection), ())
| .failPayment _ _ _, _ => (.error (.pg .connection), ())

theorem answering_answeredBy {cfg : Ledger.Calls}
    (hReturned : cfg.Returned 1 (secondDeposit, .tagged "b") (.ok "a-0")) :
    Account.AnsweredBy cfg answering := by
  intro kind cmd w entryID hOk
  by_cases hReq : Account.ledgerRequest kind cmd = Account.ledgerRequest .deposit depositOther
  · simp only [answering, if_pos hReq] at hOk
    cases hOk
    cases kind with
    | deposit =>
      refine ⟨1, .tagged "b", ?_⟩
      unfold Account.ledgerCommand
      rw [hReq]
      exact hReturned
    | withdrawal =>
      have hType := congrArg Ledger.PostEntryRequest.entryType hReq
      cases hType
  · simp only [answering, if_neg hReq] at hOk
    cases hOk

theorem reused_key_posted_under_key : ∃ s, Transition.run Ledger.serviceStep
      (Ledger.Service.start (Database.empty ledgerSchema))
      reusedKey = some s ∧ s.calls.Returned 1 (secondDeposit, .tagged "b")
      (.ok "a-0") ∧ Ledger.PostedUnder s.calls secondDeposit "a-0" ∧
      Account.AnsweredBy s.calls answering ∧ (Account.moveMoney .deposit depositOther).runWith
      answering () = (.ok "a-0", ()) ∧ Ledger.PostedUnder s.calls
      (Account.ledgerCommand .deposit depositOther) "a-0" := by
  refine ⟨_, rfl, rfl, ?_, answering_answeredBy rfl, rfl, ?_⟩
  · exact (success_posted_under_key ledgerSchema reusedKey
      _ rfl).1 1 secondDeposit (.tagged "b") "a-0" rfl
  · exact (success_posted_under_key ledgerSchema reusedKey
      _ rfl).2 Unit answering (answering_answeredBy rfl) .deposit depositOther () () "a-0" rfl

/- The second deposit succeeds and is nowhere in the log. -/
theorem reused_key_posts_nothing : ∃ s, Transition.run Ledger.serviceStep
      (Ledger.Service.start (Database.empty ledgerSchema))
      reusedKey = some s ∧ s.calls.Returned 1 (secondDeposit, .tagged "b")
      (.ok "a-0") ∧ ¬ ∃ e, Ledger.HasEntry s.calls.db e ∧
      e.entryID = "a-0" ∧ e.Makes secondDeposit := by
  refine ⟨_, rfl, rfl, ?_⟩
  rintro ⟨e, ⟨row, hMem, _, hDecoded⟩, _, hMakes⟩
  -- the log holds the first deposit and nothing else
  have hRow := List.mem_singleton.mp hMem
  rw [hRow] at hDecoded
  have hFirst : (.ok e : Except String Ledger.EntryPosted) =
      .ok (firstDeposit.posted (.tagged "a")) :=
    hDecoded.symm.trans (Ledger.EntryPosted.unmarshal_document _)
  have hAccount := hMakes.account
  rw [Except.ok.inj hFirst] at hAccount
  exact absurd hAccount (by decide)

end Fincore
