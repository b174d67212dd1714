import Fincore.Lib.Retry
import Fincore.Lib.RelyGuarantee
import Fincore.Transfer.Outcome

/-
  The workflow under at-least-once activities: an attempt may commit, in whole or in part, and be
  reported as failed.

  A refund is asked for only after a step was reported as failed. So a payment is settled and
  refunded only if an attempt that settled it was reported as failed.

  Key definitions include:
    * `Settled` and `Refunded`
    * `attemptStep`
    * `SettlementsAcked`

  Main results:
    * `settled_never_refunded`
-/

----
-- Settled Payments
----

namespace Fincore

/- The payment's stream has a `PaymentSettled` event. -/
def Settled (paymentID : String) (w : World) : Prop :=
  ∃ row ∈ w.payment.events, row.event.aggregateID = paymentID ∧
      row.event.type = Payment.eventPaymentSettled

/- An entry was posted under the payment's refund key. -/
def Refunded (paymentID : String) (w : World) : Prop :=
  w.ledger.idempotency ("refund-" ++ paymentID) ≠ none

/- Statements that store no `PaymentSettled` event. -/
def NotSettling : Stmt → Prop
| .insertEvent e _ => e.type ≠ Payment.eventPaymentSettled
| _ => True

variable {row : EventRow} {db : Database}

theorem mem_events_view {ws : List Write}
    (hMem : row ∈ (postgres.view db ws).events) : row ∈ db.events ∨ Write.event row ∈ ws := by
  induction ws generalizing db with
  | nil => exact Or.inl hMem
  | cons w ws ih =>
    rcases ih hMem with hFirst | hRest
    · cases w with
      | event new =>
        rcases List.mem_append.mp hFirst with hOld | hNew
        · exact Or.inl hOld
        · rw [List.mem_singleton.mp hNew]
          exact Or.inr List.mem_cons_self
      | _ => exact Or.inl hFirst
    · exact Or.inr (List.mem_cons_of_mem w hRest)

theorem notSettling_writes (s : Stmt) (began : Nat) (db : Database) (r : Resp s)
    (ws : List Write) (hStmt : NotSettling s) (hExec : postgres.exec began s db = .ok (r, ws)) :
    ∀ w ∈ ws, ∀ row, w = .event row → row.event.type ≠ Payment.eventPaymentSettled := by
  rintro w hMem row rfl
  have hWrites := Stmt.writes_of_exec hExec _ hMem
  cases s with
  | insertEvent e context =>
    have hEvent : row.event = e := hWrites
    rw [hEvent]
    exact hStmt
  | _ => exact hWrites.elim

/- Nor does a transaction made of them. -/
theorem old_event_of_notSettling {α : Type} {p : Tx α} (hAsks : p.Asks NotSettling)
    (hMem : row ∈ (postgres.withTx p db).2.events)
    (hType : row.event.type = Payment.eventPaymentSettled) : row ∈ db.events := by
  rcases Engine.serial_writes notSettling_writes hAsks
      (postgres.now db) [] (by simp) db with ⟨db', ws, hTicked, hWrites, hView⟩
  unfold Engine.withTx at hMem
  rw [hView] at hMem
  rcases mem_events_view hMem with hOld | hNew
  · rw [hTicked.observe tick_events] at hOld
    exact hOld
  · exact absurd hType (hWrites _ hNew row rfl)

/- The handlers that raise another event settle nothing. -/
theorem transition_notSettling {expected : Payment.DomainEvent → Bool}
    (hType : ∀ ev, expected ev = true → ev.eventType ≠ Payment.eventPaymentSettled)
    (paymentID idempotencyKey : String) (act : Payment → Env → Except GoError Payment) (env : Env) :
    (Payment.transition paymentID idempotencyKey act expected env).Asks NotSettling := by
  unfold Payment.transition
  split
  · trivial
  split
  · trivial
  refine Prog.Asks.bind ?_ ?_
  · refine ⟨trivial, ?_⟩
    intro rows
    exact Prog.asks_ofExcept _ _
  intro loaded
  refine Prog.Asks.bind (Prog.asks_ofExcept _ _) ?_
  intro p
  split
  · rename_i ev _
    split
    · trivial
    · rename_i hExpected
      refine Prog.Asks.bind (Prog.asks_ofExcept _ _) ?_
      intro b
      refine ⟨hType ev (by simpa using hExpected), ?_⟩
      intro _
      refine ⟨trivial, ?_⟩
      intro row
      cases row with
      | none => trivial
      | some cur =>
        refine ⟨trivial, ?_⟩
        intro u
        refine Prog.Asks.bind (p := .ret u) trivial ?_
        intro _
        refine Prog.Asks.bind (Prog.asks_ofExcept _ _) ?_
        intro payload
        exact ⟨trivial, fun _ => trivial⟩
  · trivial

theorem authorizePayment_notSettling (paymentID idempotencyKey : String) (env : Env) :
    (Payment.authorizePayment paymentID idempotencyKey env).Asks NotSettling := by
  refine transition_notSettling ?_ _ _ _ _
  intro ev hExpected
  cases ev with
  | paymentAuthorized id now =>
    show Payment.eventPaymentAuthorized ≠ Payment.eventPaymentSettled
    decide
  | _ => cases hExpected

theorem failPayment_notSettling (paymentID idempotencyKey reason : String) (env : Env) :
    (Payment.failPayment paymentID idempotencyKey reason env).Asks NotSettling := by
  refine transition_notSettling ?_ _ _ _ _
  intro ev hExpected
  cases ev with
  | paymentFailed id reason now =>
    show Payment.eventPaymentFailed ≠ Payment.eventPaymentSettled
    decide
  | _ => cases hExpected

----
-- Transactions
----

variable {fates : Nat → Fate} {w : World} {paymentID : String}

variable {r : ServiceTx}

/- Only the settling handler stores the event. -/
theorem settled_of_serveTx (hOther : ∀ p k, r ≠ .settlePayment p k)
    (hSettled : Settled paymentID (serveTx fates r w).2) : Settled paymentID w := by
  rcases hSettled with ⟨row, hMem, hID, hType⟩
  refine ⟨row, ?_, hID, hType⟩
  cases hFate : fates w.served with
  | down e =>
    cases r <;> simpa only [serveTx, ServiceTx.exec, hFate] using hMem
  | run env =>
    cases r with
    | postEntry req =>
      simpa only [serveTx, ServiceTx.exec, hFate] using hMem
    | recordMovement kind cmd entryID =>
      simpa only [serveTx, ServiceTx.exec, hFate] using hMem
    | authorizePayment p k =>
      simp only [serveTx, ServiceTx.exec, hFate] at hMem
      exact old_event_of_notSettling (authorizePayment_notSettling p k env) hMem hType
    | settlePayment p k => exact absurd rfl (hOther p k)
    | failPayment p k reason =>
      simp only [serveTx, ServiceTx.exec, hFate] at hMem
      exact old_event_of_notSettling (failPayment_notSettling p k reason env) hMem hType

/- And only if it succeeds. -/
theorem settled_of_settlePayment_error {p k : String} {e : GoError}
    (hError : (serveTx fates (.settlePayment p k) w).1 = .error e)
    (hSettled : Settled paymentID (serveTx fates (.settlePayment p k) w).2) :
    Settled paymentID w := by
  cases hFate : fates w.served with
  | down e' =>
    simpa only [serveTx, ServiceTx.exec, hFate, Settled] using hSettled
  | run env =>
    simp only [serveTx, ServiceTx.exec, hFate] at hError
    have hEvents :
        (postgres.withTx (Payment.settlePayment p k env) w.payment).2.events = w.payment.events :=
      Engine.serial_error_observe postgres Database.events tick_events _ _ [] w.payment hError
    simp only [serveTx, ServiceTx.exec, hFate, Settled, hEvents] at hSettled
    exact hSettled

theorem refunded_of_serveTx
    (hOther : ∀ req, r = .postEntry req → req.idempotencyKey ≠ "refund-" ++ paymentID)
    (hRefunded : Refunded paymentID (serveTx fates r w).2) : Refunded paymentID w := by
  have hFresh : fresh (serveTx fates r w).2.ledger ("refund-" ++ paymentID) =
      fresh w.ledger ("refund-" ++ paymentID) := by
    by_cases hPost : ∃ req, r = .postEntry req
    · rcases hPost with ⟨req, rfl⟩
      have hTried := serveTx_postEntry fates req w
      revert hTried
      generalize (serveTx fates (.postEntry req) w).1 = res
      generalize (serveTx fates (.postEntry req) w).2.ledger = db
      intro hTried
      cases hTried with
      | done hAmount hDone =>
        exact hDone.others _ (Ne.symm (hOther req rfl))
      | refused e hSame => exact hSame.fresh_eq _
    · have hNot : ∀ req, r ≠ .postEntry req := by
        intro req hEq
        exact hPost ⟨req, hEq⟩
      rw [serveTx_ledger fates hNot w]
  intro hNone
  refine hRefunded ?_
  unfold fresh at hFresh
  rw [if_pos hNone] at hFresh
  by_contra hSome
  rw [if_neg hSome] at hFresh
  omega

----
-- Activities
----

/- The transactions that a call is made of. -/
def ServiceCall.Allows (c : ServiceCall) : ServiceTx → Prop
| .postEntry req =>
  ∃ m, c.move? = some m ∧ req.idempotencyKey = m.key
| .settlePayment _ _ => ∃ p k, c = .settle p k
| _ => True

variable {P : ServiceTx → Prop}

theorem movement_asks (kind : Account.Movement)
    (context accountID : String) (amount : Money) (key narration : String)
    (hPost : ∀ req : Ledger.PostEntryRequest, req.idempotencyKey = key → P (.postEntry req))
    (hRecord : ∀ kind cmd entryID, P (.recordMovement kind cmd entryID)) :
    (ServiceCall.movement kind context accountID amount key narration).Asks P := by
  refine Prog.Asks.mapError ?_ _
  unfold Account.serveMovement
  refine Prog.Asks.bind (Prog.asks_ofExcept _ _) ?_
  intro amt
  unfold Account.moveMoney
  split
  · trivial
  split
  · trivial
  refine Prog.Asks.bind (Prog.asks_ofExcept _ _) ?_
  intro _
  refine Prog.Asks.bind ?_ ?_
  · refine ⟨hPost _ rfl, ?_⟩
    intro resp
    exact Prog.asks_ofExcept _ _
  intro entryID
  refine ⟨hRecord _ _ _, ?_⟩
  intro res
  exact Prog.Asks.bind (p := Prog.ofExcept res) (Prog.asks_ofExcept _ _) (fun _ => trivial)

theorem ServiceCall.prog_asks (c : ServiceCall) : c.prog.Asks c.Allows := by
  cases c with
  | deposit accountID amount key narration =>
    refine Prog.Asks.bind (movement_asks _ _ _ _ key _ ?_ ?_) (fun _ => trivial)
    · intro req hKey
      exact ⟨_, rfl, hKey⟩
    · intro kind cmd entryID
      trivial
  | withdraw accountID amount key narration =>
    refine Prog.Asks.bind (movement_asks _ _ _ _ key _ ?_ ?_) (fun _ => trivial)
    · intro req hKey
      exact ⟨_, rfl, hKey⟩
    · intro kind cmd entryID
      trivial
  | postEntry accountID amount entryType key narration =>
    refine Prog.Asks.bind ?_ (fun _ => trivial)
    unfold ServiceCall.ledgerEntry
    split
    · trivial
    · refine ⟨⟨_, rfl, rfl⟩, ?_⟩
      intro resp
      exact Prog.asks_ofExcept _ _
  | authorize p k =>
    refine ⟨trivial, ?_⟩
    intro res
    exact Prog.Asks.bind (p := Prog.ofExcept res) (Prog.asks_ofExcept _ _) (fun _ => trivial)
  | settle p k =>
    refine ⟨⟨p, k, rfl⟩, ?_⟩
    intro res
    exact Prog.Asks.bind (p := Prog.ofExcept res) (Prog.asks_ofExcept _ _) (fun _ => trivial)
  | fail p k reason =>
    refine ⟨trivial, ?_⟩
    intro res
    exact Prog.Asks.bind (p := Prog.ofExcept res) (Prog.asks_ofExcept _ _) (fun _ => trivial)

/- Transactions that settle no payment. -/
def NoSettle (r : ServiceTx) : Prop := ∀ p k, r ≠ .settlePayment p k

/- Transactions that post nothing under the refund key. -/
def NoRefund (paymentID : String) (r : ServiceTx) : Prop :=
  ∀ req, r = .postEntry req → req.idempotencyKey ≠ "refund-" ++ paymentID

variable {c : ServiceCall}

theorem ServiceCall.asks_noSettle (hCall : ∀ p k, c ≠ .settle p k) : c.prog.Asks NoSettle := by
  refine c.prog_asks.mono ?_
  rintro r hAllows p k rfl
  rcases hAllows with ⟨p', k', hEq⟩
  exact hCall p' k' hEq

theorem ServiceCall.asks_noRefund {paymentID : String}
    (hKey : ∀ m, c.move? = some m → m.key ≠ "refund-" ++ paymentID) :
    c.prog.Asks (NoRefund paymentID) := by
  refine c.prog_asks.mono ?_
  rintro r hAllows req rfl
  rcases hAllows with ⟨m, hMove, hSame⟩
  rw [hSame]
  exact hKey m hMove

theorem withAmount_asks (input : TransferWorkflowInput)
    {call : Money → ServiceCall} (hCall : ∀ amt, (call amt).prog.Asks P) :
    (Activity.withAmount input call).Asks P := by
  unfold Activity.withAmount
  exact Prog.Asks.bind (Prog.asks_ofExcept _ _) hCall

theorem Activity.asks_noSettle {a : Activity}
    (hActivity : ∀ input, a ≠ .settlePayment input) : a.prog.Asks NoSettle := by
  cases a with
  | settlePayment input => exact absurd rfl (hActivity input)
  | authorizePayment input =>
    exact ServiceCall.asks_noSettle (c := .authorize _ _) (fun _ _ hEq => by cases hEq)
  | failPayment paymentID reason =>
    exact ServiceCall.asks_noSettle (c := .fail _ _ _) (fun _ _ hEq => by cases hEq)
  | _ =>
    refine withAmount_asks _ ?_
    intro amt
    refine ServiceCall.asks_noSettle ?_
    intro p k hEq
    cases hEq

theorem Activity.asks_noRefund {a : Activity} {paymentID : String}
    (hKey : ∀ m, a.move? = some m → m.key ≠ "refund-" ++ paymentID) :
    a.prog.Asks (NoRefund paymentID) := by
  cases a with
  | settlePayment input =>
    exact ServiceCall.asks_noRefund (c := .settle _ _) (fun _ hMove => by cases hMove)
  | authorizePayment input =>
    exact ServiceCall.asks_noRefund (c := .authorize _ _) (fun _ hMove => by cases hMove)
  | failPayment paymentID reason =>
    exact ServiceCall.asks_noRefund (c := .fail _ _ _) (fun _ hMove => by cases hMove)
  | _ =>
    refine withAmount_asks _ ?_
    intro amt
    refine ServiceCall.asks_noRefund ?_
    intro m hMove
    cases hMove
    -- the amount differs at most, the key is the same
    have hOwn := hKey _ rfl
    exact hOwn

----
-- Runs
----

/- `MaximumAttempts` of the retry policy -/
def maximumAttempts : Nat := 5

/- A workflow, with the services it runs on. -/
abbrev Transferring := Retry.State Activity GoError World

/- One attempt at the activity the workflow waits for. -/
def attemptStep (fates : Nat → Fate) : Transferring → Retry.Attempt GoError → Option Transferring :=
  Retry.step maximumAttempts Activity.prog (serveTx fates)

def Transferring.start (input : TransferWorkflowInput)
    (w : World) : Transferring := ⟨w, transferWorkflow input, 0⟩

/-
  An attempt at `SettlePayment` that is lost has not begun its transaction, or would not have
  succeeded.
-/
def SettlementsAcked (fates : Nat → Fate) (s : Transferring) : Retry.Attempt GoError → Prop
| .acked => True
| .lost served _ =>
  match s.plan with
  | .ask (.settlePayment input) _ =>
    served = 0 ∨ (serveActivity fates (.settlePayment input) s.world).1 ≠ .ok ()
  | _ => True

/- None of the activities is a settlement. -/
def NoneSettles (cs : List Activity) : Prop := ∀ c ∈ cs, ∀ i, c ≠ .settlePayment i

/- A workflow's steps, from one of them to the settlement. -/
inductive Ahead (input : TransferWorkflowInput) : List (Saga.Step Activity GoError) → Prop where
  | last {s : Saga.Step Activity GoError} (hCall : s.call = .settlePayment input)
      (hUndo : ∀ e, NoneSettles (s.undo e)) : Ahead input [s]
  | cons {s : Saga.Step Activity GoError} {rest : List (Saga.Step Activity GoError)}
      (hCall : ∀ i, s.call ≠ .settlePayment i)
      (hKey : ∀ m, s.call.move? = some m → m.key ≠ "refund-" ++ input.paymentID)
      (hUndo : ∀ e, NoneSettles (s.undo e)) (hRest : Ahead input rest) : Ahead input (s :: rest)

/-
  Before the settlement the payment is neither settled nor refunded, a workflow that cleans up has
  not settled it, and a workflow that returned has not refunded it.
-/
inductive TransferInv (input : TransferWorkflowInput) : Transferring → Prop where
  | ahead {w : World} {n : Nat} {steps : List (Saga.Step Activity GoError)}
      (hSteps : Ahead input steps) (hUnsettled : ¬ Settled input.paymentID w)
      (hKept : ¬ Refunded input.paymentID w) : TransferInv input ⟨w, Saga.plan steps, n⟩
  | undoing {w : World} {n : Nat} {e : GoError} {cs : List Activity}
      (hCalls : NoneSettles cs) (hUnsettled : ¬ Settled input.paymentID w) :
      TransferInv input ⟨w, Saga.undoing e cs, n⟩
  | returned {w : World} {n : Nat} (hKept : ¬ Refunded input.paymentID w) :
      TransferInv input ⟨w, .ret (), n⟩

theorem undo_noneSettles {input : TransferWorkflowInput}
    {s : Saga.Step Activity GoError} (hStep : s ∈ workflowSteps input)
    (e : GoError) : NoneSettles (s.undo e) := by
  rintro c hMem i rfl
  simp only [workflowSteps, List.mem_cons, List.not_mem_nil, or_false] at hStep
  rcases hStep with rfl | rfl | rfl | rfl | rfl | rfl <;> simp at hMem

theorem workflowSteps_ahead (input : TransferWorkflowInput) :
    Ahead input (workflowSteps input) := by
  have hKey : ∀ (account : String) (kobo : Int) (tag : String),
      tag ≠ "refund-" → ∀ m, some (Move.mk account kobo (tag ++ input.paymentID)) = some m →
      m.key ≠ "refund-" ++ input.paymentID := by
    rintro account kobo tag hTag m hMove hEq
    cases hMove
    exact hTag ((String.append_left_inj _).mp hEq)
  have hUndo : ∀ s ∈ workflowSteps input, ∀ e, NoneSettles (s.undo e) :=
    fun _ hStep e => undo_noneSettles hStep e
  refine .cons (by simp) (hKey _ _ "wdr-" (by decide)) (hUndo _ (by simp [workflowSteps])) ?_
  refine .cons (by simp) (hKey _ _ "ldg-wdr-" (by decide)) (hUndo _ (by simp [workflowSteps])) ?_
  refine .cons (by simp) (hKey _ _ "dep-" (by decide)) (hUndo _ (by simp [workflowSteps])) ?_
  refine .cons (by simp) (hKey _ _ "ldg-dep-" (by decide)) (hUndo _ (by simp [workflowSteps])) ?_
  refine .cons (by simp) (by simp [Activity.move?]) (hUndo _ (by simp [workflowSteps])) ?_
  exact .last rfl (hUndo _ (by simp [workflowSteps]))

/- The transaction of `SettlePayment` -/
abbrev settleTx (input : TransferWorkflowInput) : ServiceTx :=
  .settlePayment input.paymentID ("settle-" ++ input.paymentID)

theorem settlePayment_run (fates : Nat → Fate) (input : TransferWorkflowInput)
    (w : World) : (Activity.settlePayment input).prog.runWith (serveTx fates) w =
    ((serveTx fates (settleTx input) w).1.map (fun _ => ()),
    (serveTx fates (settleTx input) w).2) := by
  show Prog.runWith (serveTx fates)
    (Prog.ofExcept (serveTx fates (settleTx input) w).1 >>= fun _ => pure ())
    (serveTx fates (settleTx input) w).2 = _
  rw [Prog.runWith_discard]
  cases (serveTx fates (settleTx input) w).1 with
  | ok res => rfl
  | error e => rfl

/- Once it has begun, a lost attempt has done all of it. -/
theorem settlePayment_after (fates : Nat → Fate) (input : TransferWorkflowInput)
    (w : World) (n : Nat) : (Activity.settlePayment input).prog.after
    (serveTx fates) (n + 1) w = (serveTx fates (settleTx input) w).2 := by
  show Prog.after (serveTx fates) n
    (Prog.ofExcept (serveTx fates (settleTx input) w).1 >>= fun _ => pure ())
    (serveTx fates (settleTx input) w).2 = _
  cases (serveTx fates (settleTx input) w).1 with
  | ok res => cases n <;> rfl
  | error e => cases n <;> rfl

variable {s : Transferring}

theorem settled_of_fails {fates : Nat → Fate} {input : TransferWorkflowInput}
    {a : Retry.Attempt GoError}
    {k : Except GoError Unit → Workflow Unit} {e : GoError} {w : World}
    {paymentID : String} (hPlan : s.plan = .ask (.settlePayment input) k)
    (hAcked : SettlementsAcked fates s a)
    (hFails : Retry.Fails Activity.prog (serveTx fates)
    (.settlePayment input) s.world a e w) (hSettled : Settled paymentID w) :
    Settled paymentID s.world := by
  cases hFails with
  | acked hRun =>
    rw [settlePayment_run] at hRun
    cases hServe : (serveTx fates (settleTx input) s.world).1 with
    | ok res =>
      rw [hServe] at hRun
      cases congrArg Prod.fst hRun
    | error e' =>
      refine settled_of_settlePayment_error hServe ?_
      rw [congrArg Prod.snd hRun]
      exact hSettled
  | lost served e =>
    cases served with
    | zero => exact hSettled
    | succ n =>
      rw [settlePayment_after] at hSettled
      unfold SettlementsAcked at hAcked
      rw [hPlan] at hAcked
      have hNotOk := hAcked.resolve_left (by omega)
      unfold serveActivity at hNotOk
      rw [settlePayment_run] at hNotOk
      cases hServe : (serveTx fates (settleTx input) s.world).1 with
      | ok res =>
        rw [hServe] at hNotOk
        exact absurd rfl hNotOk
      | error e' =>
        exact settled_of_settlePayment_error hServe hSettled

/- What an attempt of another activity cannot bring about. -/
theorem unsettled_serveTx (fates : Nat → Fate) {paymentID : String}
    (r : ServiceTx) (w : World) (hRequest : NoSettle r) (hUnsettled : ¬ Settled paymentID w) :
    ¬ Settled paymentID (serveTx fates r w).2 :=
  fun hSettled =>
    hUnsettled (settled_of_serveTx hRequest hSettled)

theorem kept_serveTx (fates : Nat → Fate) {paymentID : String} (r : ServiceTx)
    (w : World) (hRequest : NoRefund paymentID r) (hKept : ¬ Refunded paymentID w) :
    ¬ Refunded paymentID (serveTx fates r w).2 :=
  fun hRefunded =>
    hKept (refunded_of_serveTx hRequest hRefunded)

section

variable {fates : Nat → Fate} {input : TransferWorkflowInput} {w : World} {n : Nat}
variable {a : Retry.Attempt GoError} {s' : Transferring}

variable {t : Saga.Step Activity GoError}

theorem transferInv_early
    {rest : List (Saga.Step Activity GoError)} (hCall : ∀ i, t.call ≠ .settlePayment i)
    (hKey : ∀ m, t.call.move? = some m → m.key ≠ "refund-" ++ input.paymentID)
    (hUndo : ∀ e, NoneSettles (t.undo e)) (hRest : Ahead input rest)
    (hUnsettled : ¬ Settled input.paymentID w) (hKept : ¬ Refunded input.paymentID w)
    (hStep : attemptStep fates ⟨w, Saga.plan (t :: rest), n⟩ a = some s') :
    TransferInv input s' := by
  have hNoSettle := Activity.asks_noSettle hCall
  have hNoRefund := Activity.asks_noRefund hKey
  have hSpec := Retry.step_spec hStep
  cases hSpec with
  | succeeded hPlan hRun =>
    rw [Saga.plan_cons] at hPlan
    cases hPlan
    refine .ahead hRest ?_ ?_
    · have hAfter := hNoSettle.runWith (unsettled_serveTx fates) hUnsettled
      rw [hRun] at hAfter
      exact hAfter
    · have hAfter := hNoRefund.runWith (kept_serveTx fates) hKept
      rw [hRun] at hAfter
      exact hAfter
  | repeated hPlan hFails failed =>
    rw [Saga.plan_cons] at hPlan
    cases hPlan
    exact .ahead (.cons hCall hKey hUndo hRest)
      (hFails.keeps hNoSettle (unsettled_serveTx fates) hUnsettled)
      (hFails.keeps hNoRefund (kept_serveTx fates) hKept)
  | reported hPlan hFails =>
    rw [Saga.plan_cons] at hPlan
    cases hPlan
    exact .undoing (hUndo _) (hFails.keeps hNoSettle (unsettled_serveTx fates) hUnsettled)

theorem transferInv_settle (hCall : t.call = .settlePayment input)
    (hUndo : ∀ e, NoneSettles (t.undo e)) (hUnsettled : ¬ Settled input.paymentID w)
    (hKept : ¬ Refunded input.paymentID w) (hAcked : SettlementsAcked fates ⟨w, Saga.plan [t], n⟩ a)
    (hStep : attemptStep fates ⟨w, Saga.plan [t], n⟩ a = some s') : TransferInv input s' := by
  have hNoRefund : t.call.prog.Asks (NoRefund input.paymentID) := by
    rw [hCall]
    exact Activity.asks_noRefund (fun _ hMove => by
      cases hMove)
  have hSpec := Retry.step_spec hStep
  cases hSpec with
  | succeeded hPlan hRun =>
    rw [Saga.plan_cons] at hPlan
    cases hPlan
    refine .returned ?_
    have hAfter := hNoRefund.runWith (kept_serveTx fates) hKept
    rw [hRun] at hAfter
    exact hAfter
  | repeated hPlan hFails failed =>
    have hAsk := hPlan
    rw [Saga.plan_cons] at hPlan
    cases hPlan
    have hKeeps := hFails.keeps hNoRefund (kept_serveTx fates) hKept
    rw [hCall] at hAsk hFails
    refine .ahead (.last hCall hUndo) ?_ hKeeps
    intro hSettled
    exact hUnsettled (settled_of_fails hAsk hAcked hFails hSettled)
  | reported hPlan hFails =>
    have hAsk := hPlan
    rw [Saga.plan_cons] at hPlan
    cases hPlan
    rw [hCall] at hAsk hFails
    refine .undoing (hUndo _) ?_
    intro hSettled
    exact hUnsettled (settled_of_fails hAsk hAcked hFails hSettled)

theorem transferInv_undoing {e : GoError} {cs : List Activity}
    (hCalls : NoneSettles cs) (hUnsettled : ¬ Settled input.paymentID w)
    (hStep : attemptStep fates ⟨w, Saga.undoing e cs, n⟩ a = some s') : TransferInv input s' := by
  cases cs with
  | nil => cases hStep
  | cons c cs =>
    have hNoSettle := Activity.asks_noSettle (hCalls c List.mem_cons_self)
    have hLater : NoneSettles cs := fun d hMem => hCalls d (List.mem_cons_of_mem c hMem)
    have hSpec := Retry.step_spec hStep
    cases hSpec with
    | succeeded hPlan hRun =>
      cases hPlan
      refine .undoing hLater ?_
      have hAfter :=
        hNoSettle.runWith (unsettled_serveTx fates)
        hUnsettled
      rw [hRun] at hAfter
      exact hAfter
    | repeated hPlan hFails failed =>
      cases hPlan
      exact .undoing hCalls (hFails.keeps hNoSettle (unsettled_serveTx fates) hUnsettled)
    | reported hPlan hFails =>
      cases hPlan
      exact .undoing hLater (hFails.keeps hNoSettle (unsettled_serveTx fates) hUnsettled)

end

theorem transferInv_step {fates : Nat → Fate} {input : TransferWorkflowInput}
    {s s' : Transferring} {a : Retry.Attempt GoError}
    (hInv : TransferInv input s) (hAcked : SettlementsAcked fates s a)
    (hStep : attemptStep fates s a = some s') : TransferInv input s' := by
  cases hInv with
  | ahead hSteps hUnsettled hKept =>
    cases hSteps with
    | last hCall hUndo =>
      exact transferInv_settle hCall hUndo hUnsettled hKept hAcked hStep
    | cons hCall hKey hUndo hRest =>
      exact transferInv_early hCall hKey hUndo hRest hUnsettled hKept hStep
  | undoing hCalls hUnsettled =>
    exact transferInv_undoing hCalls hUnsettled hStep
  | returned hKept => cases hStep

theorem TransferInv.safe {input : TransferWorkflowInput}
    (hInv : TransferInv input s) : ¬ (Settled input.paymentID s.world ∧
    Refunded input.paymentID s.world) := by
  rintro ⟨hSettled, hRefunded⟩
  cases hInv with
  | ahead hSteps hUnsettled hKept => exact hKept hRefunded
  | undoing hCalls hUnsettled => exact hUnsettled hSettled
  | returned hKept => exact hKept hRefunded

/-
  A payment that is neither settled nor refunded when its workflow starts is never both, in any run
  in which no attempt that settles it is reported as failed.
-/
theorem settled_never_refunded (fates : Nat → Fate) (input : TransferWorkflowInput) (w : World)
    (hUnsettled : ¬ Settled input.paymentID w) (hKept : ¬ Refunded input.paymentID w)
    (attempts : List (Retry.Attempt GoError)) (s : Transferring)
    (hRun : Transition.run (attemptStep fates) (Transferring.start input w) attempts = some s)
    (hAcked : Transition.Meets (attemptStep fates) (SettlementsAcked fates)
      (Transferring.start input w) attempts) :
    ¬ (Settled input.paymentID s.world ∧ Refunded input.paymentID s.world) := by
  have hStart : TransferInv input (Transferring.start input w) :=
    .ahead (workflowSteps_ahead input) hUnsettled hKept
  have hInv : TransferInv input s :=
    Transition.run_induction_of_meets
      (fun _ _ _ hInv hAcked hStep =>
        transferInv_step hInv hAcked hStep) hStart hAcked hRun
  exact hInv.safe

/- A worker that does not answer in time. -/
def timeout : GoError := .text "activity StartToClose timeout"

/- The first withdrawal is lost, all else is acknowledged. -/
def lostWithdrawal : List (Retry.Attempt GoError) :=
  [.lost 2 timeout, .acked, .acked, .acked, .acked, .acked, .acked]

theorem rent_settled_not_refunded : ∃ s, Transition.run (attemptStep allRun)
      (Transferring.start rent (before [funding 1000]))
      lostWithdrawal = some s ∧ Settled "P-0" s.world ∧
      ¬ (Settled "P-0" s.world ∧ Refunded "P-0" s.world) := by
  refine ⟨_, rfl, ⟨_, .tail _ (.tail _ (.head _)), rfl, rfl⟩, ?_⟩
  refine settled_never_refunded allRun rent (before [funding 1000]) ?_ ?_ lostWithdrawal _ rfl ?_
  · rintro ⟨row, hMem, _, hType⟩
    have hRow := List.mem_singleton.mp hMem
    rw [hRow] at hType
    exact absurd hType (by decide)
  · exact fun hSome => hSome rfl
  · exact ⟨trivial, trivial, trivial, trivial, trivial, trivial, trivial, trivial⟩

/-
  The settlement commits and its acknowledgement is lost. The next four attempts are rejected, so
  the workflow refunds the payment.
-/
def lostSettlement : List (Retry.Attempt GoError) :=
  [.acked, .acked, .acked, .acked, .acked, .lost 1 timeout, .acked, .acked, .acked, .acked, .acked]

theorem lost_settlement_refunded : ∃ s, Transition.run (attemptStep allRun)
      (Transferring.start rent (before [funding 1000]))
      lostSettlement = some s ∧ Settled "P-0" s.world ∧ Refunded "P-0" s.world := by
  refine ⟨_, rfl, ⟨_, .tail _ (.tail _ (.head _)), rfl, rfl⟩, ?_⟩
  exact Option.some_ne_none _

end Fincore
