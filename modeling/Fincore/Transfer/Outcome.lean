import Fincore.Transfer.Moves
import Mathlib.Tactic.Linarith

/-
  What a transfer leaves behind on the ledger, when it goes through and when it is undone.

  Both orchestrators post every movement twice, once through the account service and once directly,
  under two keys. So a transfer moves its amount once exactly if one key of each pair was recorded
  before, and a refund, which is posted once, undoes exactly one of the two withdrawals.

  Key definitions include:
    * `Transfer.MovedOnce`
    * `Orchestrator` and `Stage`
    * `Orchestrator.FailsAt`
    * `Transfer.Balanced`

  Main results:
    * `workflow_moves_once_iff`
    * `compensation_restores_iff`
-/

----
-- Transfers That Go Through
----

namespace Fincore

def TransferWorkflowInput.transfer (input : TransferWorkflowInput) : Transfer :=
  ⟨input.paymentID, input.fromAccountID, input.toAccountID, input.amountKobo.toInt⟩

/- The amount went from the one account to the other. -/
structure Transfer.MovedOnce (t : Transfer) (db db' : Database) : Prop where
  source : db'.balance t.fromAccountID 1 = db.balance t.fromAccountID 1 - t.kobo
  destination : db'.balance t.toAccountID 1 = db.balance t.toAccountID 1 + t.kobo
  others : ∀ a, a ≠ t.fromAccountID → a ≠ t.toAccountID → db'.balance a 1 = db.balance a 1

/- The tags of a workflow that goes through. -/
def throughTags : Transfer.Tags := ⟨["wdr-", "ldg-wdr-"], ["dep-", "ldg-dep-"], []⟩

variable {fates : Nat → Fate}

theorem moved_of_workflow_ok {input : TransferWorkflowInput} {w w' : World}
    (hRun : (transferWorkflow input).runWith (serveActivity fates)
    w = (.ok (), w')) : Moved (input.transfer.moves throughTags) w.ledger
    w'.ledger := by
  rw [transferWorkflow_eq_plan] at hRun
  have hMoves : ((workflowSteps input).map Saga.Step.call).filterMap Activity.move? =
      input.transfer.moves throughTags := rfl
  rw [← hMoves]
  refine moved_of_succeeds (serveActivity_movesAs fates) (Saga.succeeds_of_plan_ok hRun) ?_
  rw [hMoves]
  exact input.transfer.nodup_keys (by decide)

variable {t : Transfer}

/- The same run, read off at the two accounts. -/
theorem movedOnce_iff {db db' : Database} (hAccounts : t.fromAccountID ≠ t.toAccountID)
    (hMoved : Moved (t.moves throughTags) db db') : t.MovedOnce db db' ↔
    t.freshTags db throughTags.taken = 1 ∧ t.freshTags db throughTags.given = 1 := by
  have hKobo : t.kobo ≠ 0 := Transfer.kobo_ne_zero hMoved (by decide)
  have hSource := hMoved.balance t.fromAccountID
  rw [t.net_eq, if_pos rfl, if_neg hAccounts] at hSource
  have hDestination := hMoved.balance t.toAccountID
  rw [t.net_eq, if_neg (Ne.symm hAccounts), if_pos rfl] at hDestination
  have hNone : t.freshTags db throughTags.returned = 0 := rfl
  rw [hNone] at hSource
  constructor
  · intro hOnce
    rw [hOnce.source] at hSource
    rw [hOnce.destination] at hDestination
    refine ⟨?_, ?_⟩
    · refine mul_right_cancel₀ hKobo ?_
      linarith
    · refine mul_right_cancel₀ hKobo ?_
      linarith
  · rintro ⟨hTaken, hGiven⟩
    refine ⟨?_, ?_, ?_⟩
    · rw [hSource, hTaken]
      ring
    · rw [hDestination, hGiven]
      ring
    · intro a hFrom hTo
      rw [hMoved.balance, t.net_eq, if_neg hFrom, if_neg hTo]
      ring

/-
  A workflow that returns `nil` has moved the amount once exactly if, of the two keys of the
  withdrawal and of the two keys of the deposit, one each was recorded before.
-/
theorem workflow_moves_once_iff (fates : Nat → Fate) (input : TransferWorkflowInput) (w w' : World)
    (hAccounts : input.fromAccountID ≠ input.toAccountID)
    (hRun : (transferWorkflow input).runWith (serveActivity fates)
      w = (.ok (), w')) : input.transfer.MovedOnce w.ledger w'.ledger ↔
      fresh w.ledger ("wdr-" ++ input.paymentID) +
      fresh w.ledger ("ldg-wdr-" ++ input.paymentID) = 1 ∧
      fresh w.ledger ("dep-" ++ input.paymentID) +
      fresh w.ledger ("ldg-dep-" ++ input.paymentID) = 1 := by
  have hIff := movedOnce_iff hAccounts (moved_of_workflow_ok hRun)
  simpa [Transfer.freshTags, throughTags, TransferWorkflowInput.transfer] using hIff

/- Every transaction runs, with identifiers of its own. -/
def allRun (n : Nat) : Fate := .run (.tagged (String.ofList (List.replicate n 'x')))

/- A ledger after some entries, each in a process of its own. -/
def ledgerAfter : List Ledger.PostEntry → Database
| [] => Database.empty ledgerSchema
| cmd :: earlier =>
  (postgres.withTx (cmd.handle (.tagged cmd.idempotencyKey)) (ledgerAfter earlier)).2

/- The account service with two open accounts. -/
def twoAccounts : Database :=
  (postgres.withTx (Account.openAccount "bob" "open-b" (.tagged "B"))
    (postgres.withTx (Account.openAccount "ann" "open-a" (.tagged "A"))
      (Database.empty accountMigrations)).2).2

/- The payment service with one initiated payment. -/
def onePayment : Database :=
  (postgres.withTx
    (Payment.initiatePayment ⟨"A-0", "B-0", ⟨100, NGN⟩, "rent", "pay"⟩
      (.tagged "P")) (Database.empty paymentMigrations)).2

/- The services before a transfer, the newest entry first. -/
def before (entries : List Ledger.PostEntry) : World :=
  ⟨ledgerAfter entries, twoAccounts, onePayment, 0⟩

/- A first deposit on the account of the source. -/
def funding (kobo : Int64) : Ledger.PostEntry := .of "seed" "A-0" Ledger.entryTypeDeposit kobo

/- The workflow for the payment of `onePayment`. -/
def rent : TransferWorkflowInput := ⟨"P-0", "A-0", "B-0", NGN, 100, "rent", "pay"⟩

/- One key of each pair was recorded before the workflow. -/
def halfPosted : List Ledger.PostEntry :=
  [.of "dep-P-0" "B-0" Ledger.entryTypeDeposit 100,
    .of "wdr-P-0" "A-0" Ledger.entryTypeWithdrawal 100, funding 1000]

theorem rent_moves_once_half_posted : ∃ w', (transferWorkflow rent).runWith (serveActivity allRun)
      (before halfPosted) = (.ok (), w') ∧ rent.transfer.MovedOnce
      (before halfPosted).ledger w'.ledger := by
  refine ⟨_, rfl, ?_⟩
  refine (workflow_moves_once_iff allRun rent (before halfPosted) _ (by decide) rfl).mpr ?_
  exact ⟨rfl, rfl⟩

/- With unused keys the workflow moves the amount twice. -/
theorem rent_moves_twice : ∃ w', (transferWorkflow rent).runWith (serveActivity allRun)
      (before [funding 1000]) = (.ok (), w') ∧
      (before [funding 1000]).ledger.balance "A-0" 1 = 1000 ∧ w'.ledger.balance "A-0" 1 = 800 ∧
      (before [funding 1000]).ledger.balance "B-0" 1 = 0 ∧ w'.ledger.balance "B-0" 1 = 200 := by
  exact ⟨_, rfl, rfl, rfl, rfl, rfl⟩

----
-- Transfers That Are Undone
----

/- The workflow and its twin, each with its input. -/
inductive Orchestrator where
  | workflow (input : TransferWorkflowInput)
  | saga (ev : Payment.PaymentInitiated)

/- The steps both go through, by the call they make. -/
inductive Stage where
  | withdraw
  | ledgerPostWithdraw
  | deposit
  | ledgerPostDeposit
  | authorize
  | settle
  deriving DecidableEq

def Stage.index : Stage → Nat
| .withdraw => 0
| .ledgerPostWithdraw => 1
| .deposit => 2
| .ledgerPostDeposit => 3
| .authorize => 4
| .settle => 5

/- The keys of the withdrawals before a stage. -/
def Stage.taken : Stage → List String
| .withdraw => []
| .ledgerPostWithdraw => ["wdr-"]
| _ => ["wdr-", "ldg-wdr-"]

/- The keys of the deposits before a stage. -/
def Stage.given : Stage → List String
| .ledgerPostDeposit => ["dep-"]
| .authorize => ["dep-", "ldg-dep-"]
| .settle => ["dep-", "ldg-dep-"]
| _ => []

namespace Orchestrator

def transfer : Orchestrator → Transfer
| .workflow input => input.transfer
| .saga ev =>
  ⟨ev.paymentID, ev.fromAccountID, ev.toAccountID, ev.amount.amountKobo.toInt⟩

/- The key of the refund after a failed stage. -/
def returned : Orchestrator → Stage → List String
| _, .withdraw => []
| .workflow _, _ => ["refund-"]
| .saga _, .ledgerPostWithdraw => ["refund-ledger-wdr-"]
| .saga _, .deposit => ["refund-dep-"]
| .saga _, .ledgerPostDeposit => ["refund-ledger-dep-"]
| .saga _, .authorize => ["refund-auth-"]
| .saga _, .settle => ["refund-settle-"]

/- The tags of a run that fails at a stage. -/
def tags (o : Orchestrator) (stage : Stage) : Transfer.Tags :=
  ⟨stage.taken, stage.given, o.returned stage⟩

/- Run it, every call served once. -/
def run (fates : Nat → Fate) : Orchestrator → World → Except GoError Unit × World
| .workflow input =>
  (transferWorkflow input).runWith (serveActivity fates)
| .saga ev =>
  (TransferSaga.handle ev).runWith (serveCall fates)

/-
  The run fails at a stage: the calls before it succeed, its call fails and leaves the ledger as it
  was, and the calls that follow, refund and failed payment, succeed.
-/
def FailsAt (fates : Nat → Fate) (stage : Stage) (w : World) : Orchestrator → Prop
| .workflow input =>
  Saga.BrokenAt (fun w w' => SameLedger w.ledger w'.ledger) stage.index
    ((transferWorkflow input).exchanges (serveActivity fates) w)
| .saga ev =>
  Saga.BrokenAt (fun w w' => SameLedger w.ledger w'.ledger) stage.index
    ((TransferSaga.handle ev).exchanges (serveCall fates) w)

end Orchestrator

/- What a broken run has moved: the moves before the broken call and those of the clean-up. -/
theorem moved_of_brokenAt {Call : Type} {serve : Call → World → Except GoError Unit × World}
    {moveOf : Call → Option Move} (hServe : MovesAs serve moveOf)
    {steps : List (Saga.Step Call GoError)} {n : Nat} {w : World} {ms : List Move}
    (hBroken : Saga.BrokenAt (fun w w' => SameLedger w.ledger w'.ledger) n
    ((Saga.plan steps).exchanges serve w))
    (hMoves : ∀ s e, steps[n]? = some s → ((steps.take n).map Saga.Step.call).filterMap moveOf ++
    (s.undo e).filterMap moveOf = ms) (hKeys : (ms.map Move.key).Nodup) :
    Moved ms w.ledger ((Saga.plan steps).runWith serve w).2.ledger := by
  rcases Saga.succeeds_of_brokenAt hBroken with ⟨s, e, w₁, w₂, hAt, hFirst, hSame, hUndo⟩
  have hMs := hMoves s e hAt
  rw [← hMs] at hKeys ⊢
  have hBoth := hKeys
  rw [List.map_append] at hBoth
  have hBefore := moved_of_succeeds hServe hFirst hBoth.of_append_left
  have hAfter := moved_of_succeeds hServe hUndo hBoth.of_append_right
  have hMiddle : Moved _ w.ledger w₂.ledger :=
    hBefore.append hSame.moved (by
      rw [List.append_nil]
      exact hBoth.of_append_left)
  rw [List.append_nil] at hMiddle
  exact hMiddle.append hAfter hKeys

theorem Orchestrator.nodup_tags (o : Orchestrator) (stage : Stage) : (o.tags stage).all.Nodup := by
  cases o <;> cases stage <;>
    simp +decide [tags, Transfer.Tags.all, Stage.taken, Stage.given, returned]

theorem Orchestrator.moved_of_failsAt {o : Orchestrator}
    {stage : Stage} {w : World} (hFails : o.FailsAt fates stage w) :
    Moved (o.transfer.moves (o.tags stage)) w.ledger (o.run fates w).2.ledger := by
  have hKeys := o.transfer.nodup_keys (o.nodup_tags stage)
  cases o with
  | workflow input =>
    have hBroken : Saga.BrokenAt _ stage.index
        ((Saga.plan (workflowSteps input)).exchanges (serveActivity fates) w) := hFails
    refine moved_of_brokenAt (serveActivity_movesAs fates) hBroken ?_ hKeys
    intro s e hAt
    cases stage <;> cases hAt <;> rfl
  | saga ev =>
    have hBroken : Saga.BrokenAt _ stage.index
        ((Saga.plan (TransferSaga.steps ev)).exchanges (serveCall fates) w) := hFails
    refine moved_of_brokenAt (serveCall_movesAs fates) hBroken ?_ hKeys
    intro s e hAt
    cases stage <;> cases hAt <;> rfl

/-
  As much came back as went: the withdrawals that took an amount are as many as the refunds that
  gave it back, and no deposit was left. Between one account and itself the deposits count as
  refunds.
-/
def Transfer.Balanced (t : Transfer) (db : Database) (tags : Transfer.Tags) : Prop :=
  if t.fromAccountID = t.toAccountID then
    t.freshTags db tags.taken = t.freshTags db tags.returned + t.freshTags db tags.given
  else
    t.freshTags db tags.taken = t.freshTags db tags.returned ∧ t.freshTags db tags.given = 0

variable {tags : Transfer.Tags} {db : Database}

/- A run that moves nothing is balanced. -/
theorem Transfer.balanced_of_nil (hNil : tags.all = []) : t.Balanced db tags := by
  unfold Transfer.Tags.all at hNil
  simp only [List.append_eq_nil_iff] at hNil
  rcases hNil with ⟨⟨hTaken, hGiven⟩, hReturned⟩
  unfold Balanced
  rw [hTaken, hGiven, hReturned]
  split
  · rfl
  · exact ⟨rfl, rfl⟩

/- The sums of a run vanish exactly if it is balanced. -/
theorem Transfer.net_eq_zero_iff (hKobo : t.kobo ≠ 0) :
    (∀ a, net db a (t.moves tags) = 0) ↔ t.Balanced db tags := by
  unfold Balanced
  by_cases hSame : t.fromAccountID = t.toAccountID
  · rw [if_pos hSame]
    constructor
    · intro hAll
      have hZero := hAll t.toAccountID
      rw [t.net_eq, if_pos hSame.symm, if_pos rfl] at hZero
      have hSum := (mul_eq_zero.mp hZero).resolve_right hKobo
      omega
    · intro hTaken a
      rw [t.net_eq, hTaken, hSame]
      split <;> ring
  · rw [if_neg hSame]
    constructor
    · intro hAll
      have hFrom := hAll t.fromAccountID
      rw [t.net_eq, if_pos rfl, if_neg hSame] at hFrom
      have hTo := hAll t.toAccountID
      rw [t.net_eq, if_neg (Ne.symm hSame), if_pos rfl] at hTo
      have hBack := (mul_eq_zero.mp hFrom).resolve_right hKobo
      have hLeft := (mul_eq_zero.mp hTo).resolve_right hKobo
      omega
    · rintro ⟨hTaken, hGiven⟩ a
      rw [t.net_eq, hTaken, hGiven]
      simp

/-
  The balances after a run that fails at a stage are those before it exactly if as much came back as
  went.
-/
theorem compensation_restores_iff (o : Orchestrator) (fates : Nat → Fate)
    (stage : Stage) (w : World) (hFails : o.FailsAt fates stage w) :
    (∀ a, (o.run fates w).2.ledger.balance a 1 = w.ledger.balance a 1) ↔
      o.transfer.Balanced w.ledger (o.tags stage) := by
  have hMoved := Orchestrator.moved_of_failsAt hFails
  by_cases hNil : (o.tags stage).all = []
  · have hBalanced : o.transfer.Balanced w.ledger (o.tags stage) := Transfer.balanced_of_nil hNil
    have hMoves : o.transfer.moves (o.tags stage) = [] := by
      simpa [Transfer.moves, Transfer.Tags.all] using hNil
    refine iff_of_true ?_ hBalanced
    intro a
    rw [hMoved.balance, hMoves]
    simp [net]
  · rw [← Transfer.net_eq_zero_iff (Transfer.kobo_ne_zero hMoved hNil)]
    constructor
    · intro hAll a
      have hBalance := hMoved.balance a
      rw [hAll a] at hBalance
      omega
    · intro hAll a
      rw [hMoved.balance, hAll a]
      omega

/- The event of the payment of `onePayment`. -/
def rentInitiated : Payment.PaymentInitiated := ⟨"P-0", "A-0", "B-0", ⟨100, NGN⟩, "rent", 0⟩

/- As `allRun`, with the database down at one transaction. -/
def downAt (i n : Nat) : Fate :=
  if n = i then .down (.pg .connection) else allRun n

/- The ledger is down when the withdrawal is posted to it. -/
theorem rent_restored_after_ledger_withdraw : (Orchestrator.saga rentInitiated).FailsAt (downAt 2)
      .ledgerPostWithdraw (before [funding 1000]) ∧ ∀ a,
      ((Orchestrator.saga rentInitiated).run (downAt 2)
      (before [funding 1000])).2.ledger.balance a 1 =
      (before [funding 1000]).ledger.balance a 1 := by
  have hFails : (Orchestrator.saga rentInitiated).FailsAt (downAt 2)
      .ledgerPostWithdraw (before [funding 1000]) := by
    refine ⟨by decide, _, _, rfl, by decide, ?_, by decide⟩
    exact ⟨fun _ => rfl, fun _ => rfl⟩
  refine ⟨hFails, ?_⟩
  refine (compensation_restores_iff _ _ _ _ hFails).mpr ?_
  exact ⟨rfl, rfl⟩

/-
  The ledger is down when the destination is credited: two withdrawals were posted, and one of them
  comes back.
-/
theorem rent_not_restored_after_deposit : (Orchestrator.saga rentInitiated).FailsAt (downAt 3)
      .deposit (before [funding 1000]) ∧ (before [funding 1000]).ledger.balance "A-0" 1 = 1000 ∧
      ((Orchestrator.saga rentInitiated).run (downAt 3)
      (before [funding 1000])).2.ledger.balance "A-0" 1 = 900 := by
  refine ⟨?_, rfl, rfl⟩
  refine ⟨by decide, _, _, rfl, by decide, ?_, by decide⟩
  exact ⟨fun _ => rfl, fun _ => rfl⟩

end Fincore
