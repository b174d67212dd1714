import Fincore.Lib.Keyed
import Fincore.Payment.Transitions
import Fincore.Pkg.Streams

/-
  The transactions of the payment service, any number of them interleaved statement by statement.

  What a transaction commits is explained by the databases it has read: every later one is related
  to the earlier ones and to the one it commits on by whatever the others are known to keep, a
  preorder `r`.

  Key definitions include:
    * `PaymentTx` and `PaymentTx.prog`
    * `PaymentCalls` and `paymentStep`
    * `PaymentTx.Post`

  Main results:
    * `initiatePayment_of_accepted` and
      `initiatePayment_of_not_accepted`
    * `PaymentTx.prog_wp`
-/

----
-- Calls
----

namespace Fincore.Payment

/-
  The function `WithTx` is called with: the two transactions of `InitiatePaymentHandler.Handle`, and
  those of the other three handlers.
-/
inductive PaymentTx where
  | create (cmd : InitiatePayment) (env : Env)
  | record (paymentID workflowID runID : String)
  | authorize (paymentID idempotencyKey : String) (env : Env)
  | settle (paymentID idempotencyKey : String) (env : Env)
  | fail (paymentID idempotencyKey reason : String) (env : Env)

/- What the transactions leave in the handlers' variables. -/
inductive PaymentAnswer where
  | created (projection : PaymentProjection)
  | recorded
  | moved (res : TransitionResult)

def PaymentTx.prog : PaymentTx → Tx PaymentAnswer
| .create cmd env => do
    let projection ← initiatePayment cmd env
    return .created projection
| .record paymentID workflowID runID => do
    recordWorkflow paymentID workflowID runID
    return .recorded
| .authorize paymentID idempotencyKey env => do
    let res ← authorizePayment paymentID idempotencyKey env
    return .moved res
| .settle paymentID idempotencyKey env => do
    let res ← settlePayment paymentID idempotencyKey env
    return .moved res
| .fail paymentID idempotencyKey reason env => do
    let res ← failPayment paymentID idempotencyKey reason env
    return .moved res

/- The payment database and the transactions on it. -/
abbrev PaymentCalls := Engine.Config Database PaymentTx Stmt Resp Write GoError PaymentAnswer

/- No transaction has been opened yet. -/
def PaymentCalls.start (db : Database) : PaymentCalls := ⟨db, [], []⟩

def paymentStep (cfg : PaymentCalls) (a : Engine.Action PaymentTx) : Option PaymentCalls :=
  postgres.step PaymentTx.prog cfg a

----
-- Creating A Payment
----

namespace InitiatePayment

variable (cmd : InitiatePayment) (env : Env)

/- The event a new payment is raised with. -/
def initiated : DomainEvent :=
  .paymentInitiated {
    paymentID := env.newID 0
    fromAccountID := cmd.fromAccountID
    toAccountID := cmd.toAccountID
    amount := cmd.amount
    narration := cmd.narration
    occurredAt := env.now }

def creation : Outbox.Creation where
  topic := paymentEventsTopicV1
  aggregateID := env.newID 0
  aggregateType := "payment"
  env := env
  typ := eventPaymentInitiated
  data := (cmd.initiated env).document
  occurredAtUTC := env.now

def projection : PaymentProjection where
  paymentID := env.newID 0
  fromAccountID := cmd.fromAccountID
  toAccountID := cmd.toAccountID
  currency := cmd.amount.currency
  amountKobo := cmd.amount.amountKobo
  narration := cmd.narration
  status := Status.initiated.text
  temporalWorkflowID := ""
  temporalRunID := ""
  version := 1

end InitiatePayment

variable {p : Payment}

theorem newPayment_ok {cmd : InitiatePayment} {env : Env}
    (hNew : newPayment cmd.fromAccountID cmd.toAccountID cmd.amount
    cmd.narration env = .ok p) : p = raise
    ⟨env.newID 0, cmd.fromAccountID, cmd.toAccountID,
    cmd.amount, cmd.narration, .initiated, 0, []⟩ (cmd.initiated env) := by
  unfold newPayment at hNew
  split at hNew
  · cases hNew
  split at hNew
  · cases hNew
  split at hNew
  · cases hNew
  cases hAmount : validateAmount cmd.amount with
  | error e =>
    rw [hAmount] at hNew
    cases hNew
  | ok u =>
    rw [hAmount] at hNew
    cases hNew
    rfl

theorem newPayment_checks {cmd : InitiatePayment} {env : Env}
    (hNew : newPayment cmd.fromAccountID cmd.toAccountID cmd.amount
    cmd.narration env = .ok p) : trimSpace cmd.fromAccountID ≠ "" ∧
    trimSpace cmd.toAccountID ≠ "" := by
  unfold newPayment at hNew
  split at hNew
  · cases hNew
  rename_i hFrom
  split at hNew
  · cases hNew
  rename_i hTo
  exact ⟨hFrom, hTo⟩

/- The command passes every check of the handler. -/
def InitiatePayment.Accepted (cmd : InitiatePayment) (env : Env) : Prop :=
  trimSpace cmd.fromAccountID ≠ "" ∧ trimSpace cmd.toAccountID ≠ "" ∧
    cmd.idempotencyKey ≠ "" ∧ cmd.fromAccountID ≠ cmd.toAccountID ∧
    validateAmount cmd.amount = .ok () ∧ Json.TimeInRange env.now

theorem eventRecords_initiated (cmd : InitiatePayment) (env : Env) :
    if Json.TimeInRange env.now then
      eventRecords [cmd.initiated env] = .ok [(cmd.creation env).record]
    else
      ∃ e, eventRecords [cmd.initiated env] = .error e := by
  have hMarshal := (cmd.initiated env).marshal_eq
  by_cases hTime : Json.TimeInRange env.now
  · rw [if_pos hTime]
    rw [if_pos (show Json.TimeInRange (cmd.initiated env).occurredAtUTC from hTime)] at hMarshal
    unfold InitiatePayment.initiated at hMarshal ⊢
    unfold eventRecords
    rw [hMarshal]
    rfl
  · rw [if_neg hTime]
    rw [if_neg (show ¬ Json.TimeInRange (cmd.initiated env).occurredAtUTC from hTime)] at hMarshal
    unfold InitiatePayment.initiated at hMarshal ⊢
    unfold eventRecords
    rw [hMarshal]
    exact ⟨_, rfl⟩

theorem ne_empty_of_trimSpace {s : String} (hTrimmed : trimSpace s ≠ "") : s ≠ "" := by
  rintro rfl
  exact hTrimmed (by decide +kernel)

/- An accepted command is three statements. -/
theorem initiatePayment_of_accepted {cmd : InitiatePayment} {env : Env}
    (hAccepted : cmd.Accepted env) : initiatePayment cmd env =
    (cmd.creation env).creating (.upsertPayment (cmd.projection env)) (cmd.projection env) := by
  rcases hAccepted with ⟨hFrom, hTo, hKey, hDiffer, hAmount, hTime⟩
  have hNew : newPayment cmd.fromAccountID cmd.toAccountID cmd.amount cmd.narration env = .ok (raise
      ⟨env.newID 0, cmd.fromAccountID, cmd.toAccountID,
      cmd.amount, cmd.narration, .initiated, 0, []⟩ (cmd.initiated env)) := by
    unfold newPayment
    rw [if_neg hFrom, if_neg hTo, if_neg hDiffer, hAmount]
    rfl
  have hStored := eventRecords_initiated cmd env
  rw [if_pos hTime] at hStored
  unfold initiatePayment
  rw [if_neg (ne_empty_of_trimSpace hFrom), if_neg (ne_empty_of_trimSpace hTo), if_neg hKey,
    if_neg hDiffer, hAmount, hNew]
  show (Prog.ofExcept (eventRecords [cmd.initiated env]) >>= _) = _
  rw [hStored]
  exact (cmd.creation env).stage_eq hTime _

/- Any other command is refused before the first one. -/
theorem initiatePayment_of_not_accepted {cmd : InitiatePayment} {env : Env}
    (hNot : ¬ cmd.Accepted env) : ∃ e, initiatePayment cmd env = .fail e := by
  unfold initiatePayment
  split
  · exact ⟨_, rfl⟩
  split
  · exact ⟨_, rfl⟩
  split
  · exact ⟨_, rfl⟩
  rename_i hKey
  split
  · exact ⟨_, rfl⟩
  rename_i hDiffer
  cases hAmount : validateAmount cmd.amount with
  | error e => exact ⟨e, rfl⟩
  | ok u =>
    cases hNew : newPayment cmd.fromAccountID cmd.toAccountID cmd.amount cmd.narration env with
    | error e => exact ⟨e, rfl⟩
    | ok p =>
      have hTime : ¬ Json.TimeInRange env.now := by
        intro hTime
        rcases newPayment_checks hNew with ⟨hFrom, hTo⟩
        exact hNot ⟨hFrom, hTo, hKey, hDiffer, hAmount, hTime⟩
      have hStored := eventRecords_initiated cmd env
      rw [if_neg hTime] at hStored
      rcases hStored with ⟨e, hStored⟩
      have hPayment := newPayment_ok hNew
      subst hPayment
      refine ⟨e, ?_⟩
      show (Prog.ofExcept (eventRecords [cmd.initiated env]) >>= _) = _
      rw [hStored]
      rfl

theorem initiatePayment_eq (cmd : InitiatePayment) (env : Env) :
    (∃ e, initiatePayment cmd env = .fail e) ∨
    (Json.TimeInRange env.now ∧ cmd.idempotencyKey ≠ "" ∧
    initiatePayment cmd env = (cmd.creation env).creating
    (.upsertPayment (cmd.projection env)) (cmd.projection env)) := by
  by_cases hAccepted : cmd.Accepted env
  · have hEq := initiatePayment_of_accepted hAccepted
    rcases hAccepted with ⟨_, _, hKey, _, _, hTime⟩
    exact .inr ⟨hTime, hKey, hEq⟩
  · exact .inl (initiatePayment_of_not_accepted hAccepted)

----
-- What A Transaction Commits
----

/- The status an event leads to, whatever came before. -/
def DomainEvent.leadsTo : DomainEvent → Status
| .paymentInitiated _ => .initiated
| .paymentAuthorized _ _ => .authorized
| .paymentSettled _ _ => .settled
| .paymentFailed _ _ _ => .failed

theorem apply_status (p : Payment) (e : DomainEvent) : (p.apply e).status = e.leadsTo := by
  cases e <;> rfl

/-
  A transition that commits on `db`: it loaded the payment from `first`, read its projection in
  `second`, and `db` is what has become of them.
-/
structure Moved (r : Database → Database → Prop) (paymentID : String)
    (env : Env) (allowed : Status → Prop) (next : Status) (db : Database)
    (ws : List Write) (a : PaymentAnswer) : Prop where
  explained : ∃ (first second : Database) (p : Payment)
        (ev : DomainEvent) (cur : PaymentProjection) (sequence began : Nat),
      r first second ∧ r second db ∧ loaded first paymentID = .ok p ∧
        allowed p.status ∧ ev.leadsTo = next ∧ ev.withoutMoney = ev ∧
        second.payments paymentID = some cur ∧ ws =
          (Raise.mk paymentID p ev env).writes cur sequence began ∧
        a = .moved ⟨paymentID, p.version + 1, next⟩

/- What each of the transactions commits on `db`. -/
def PaymentTx.Post (r : Database → Database → Prop) : PaymentTx →
      Database → List Write → PaymentAnswer → Prop
| .create cmd env, _, ws, a =>
  cmd.idempotencyKey ≠ "" ∧ a = .created (cmd.projection env) ∧
      ∃ sequence began, ws = (cmd.creation env).writes
            (.payment (cmd.projection env)) sequence began
| .record paymentID workflowID runID, db, ws, a =>
  a = .recorded ∧ ∃ before cur, r before db ∧ before.payments paymentID = some cur ∧
        ws = [.payment { cur with
          temporalWorkflowID := workflowID
          temporalRunID := runID }]
| .authorize paymentID _ env, db, ws, a =>
  Moved r paymentID env (· = .initiated) .authorized db ws a
| .settle paymentID _ env, db, ws, a =>
  Moved r paymentID env (· = .authorized) .settled db ws a
| .fail paymentID _ _ env, db, ws, a =>
  Moved r paymentID env (· ≠ .settled) .failed db ws a

theorem transitionFrom_cases {act : Payment → Env → Except GoError Payment}
    {expected : DomainEvent → Bool} {allowed : Status → Prop} {next : Status}
    (hLeads : Leads act expected allowed next) (paymentID : String) (env : Env)
    (hChanges : p.changes = []) :
    (∃ e, transitionFrom paymentID act expected env p = .fail e) ∨
    ∃ ev, allowed p.status ∧ ev.leadsTo = next ∧ ev.withoutMoney = ev ∧
    transitionFrom paymentID act expected env p = (Raise.mk paymentID p ev env).raising := by
  by_cases hAllowed : allowed p.status
  · rcases hLeads.raises p env hAllowed with ⟨ev, hAct, hExpected, hInstant, hMoney, hNext⟩
    by_cases hTime : Json.TimeInRange ev.occurredAtUTC
    · right
      rw [apply_status] at hNext
      exact ⟨ev, hAllowed, hNext, hMoney, transitionFrom_eq hChanges hAct hExpected hTime⟩
    · left
      have hMarshal : ev.marshal = .error Json.rangeError := by
        rw [DomainEvent.marshal_eq]
        exact if_neg hTime
      have hRaised : (p.raise ev).changes = [ev] := by
        show (p.apply ev).changes ++ [ev] = [ev]
        rw [apply_changes, hChanges]
        rfl
      unfold transitionFrom
      rw [hAct]
      simp only [Prog.ofExcept_ok, Prog.ret_bind, hRaised, hExpected, hMarshal]
      exact ⟨_, rfl⟩
  · rcases hLeads.refuses p env hAllowed with ⟨e, hAct⟩
    left
    refine ⟨e, ?_⟩
    unfold transitionFrom
    rw [hAct]
    rfl

section

variable {r : Database → Database → Prop} (hRefl : ∀ db, r db db)
variable (hTrans : ∀ db₁ db₂ db₃, r db₁ db₂ → r db₂ db₃ → r db₁ db₃)
variable (hTick : ∀ s db, r db (postgres.tick s db))

include hTick

theorem transition_wp {act : Payment → Env → Except GoError Payment}
    {expected : DomainEvent → Bool} {allowed : Status → Prop} {next : Status}
    (hLeads : Leads act expected allowed next) (paymentID key : String)
    (env : Env) (began : Nat) (db : Database) : postgres.Wp (.of r hRefl hTrans)
      (fun db ws res =>
      Moved r paymentID env allowed next db ws (.moved res))
      began (transition paymentID key act expected env) [] db := by
  unfold transition
  split
  · trivial
  split
  · trivial
  -- load the payment
  intro first _ rows ws₁ hExec₁
  have hAnswer₁ := Stmt.answer_of_exec hExec₁
  cases hAnswer₁
  show postgres.Wp _ _ began (Prog.ofExcept (loaded first paymentID) >>= _) [] _
  cases hLoaded : loaded first paymentID with
  | error e => trivial
  | ok p =>
    have hChanges : p.changes = [] := (applyEvents_ok hLoaded).2
    rw [Prog.ofExcept_ok, Prog.ret_bind]
    rcases transitionFrom_cases hLeads paymentID env hChanges with
      ⟨e, hFail⟩ | ⟨ev, hAllowed, hNext, hMoney, hRaising⟩
    · rw [hFail]
      trivial
    · rw [hRaising]
      -- insert the event
      intro db₁ hRely₁ _ ws₂ hExec₂
      rcases Stmt.exec_insertEvent hExec₂ with ⟨_, _, rfl⟩
      -- read the projection
      intro second hRely₂ row ws₃ hExec₃
      rcases Stmt.exec_selectPayment hExec₃ with ⟨hRow, rfl⟩
      cases row with
      | none => trivial
      | some cur =>
        -- write it back
        intro db₃ hRely₃ _ ws₄ hExec₄
        rw [Stmt.exec_upsertPayment hExec₄]
        -- enqueue the message
        intro db₄ hRely₄ _ ws₅ hExec₅
        rcases Stmt.exec_insertMessage hExec₅ with ⟨_, rfl⟩
        intro db₅ hRely₅
        refine ⟨first, second, p, ev, cur, _, began, ?_,
          ?_, hLoaded, hAllowed, hNext, hMoney, hRow.symm, rfl, ?_⟩
        · exact hTrans _ _ _ (hTick _ first)
            (hTrans _ _ _ hRely₁ (hTrans _ _ _ (hTick _ db₁) hRely₂))
        · exact hTrans _ _ _ (hTick _ second)
            (hTrans _ _ _ hRely₃
              (hTrans _ _ _ (hTick _ db₃)
                (hTrans _ _ _ hRely₄ (hTrans _ _ _ (hTick _ db₄) hRely₅))))
        · have hVersion := apply_version p ev
          have hStatus := apply_status p ev
          rw [hNext] at hStatus
          show PaymentAnswer.moved ⟨paymentID, (p.apply ev).version, (p.apply ev).status⟩ = _
          rw [hVersion, hStatus]

theorem recordWorkflow_wp (paymentID workflowID runID : String) (began : Nat)
    (db : Database) : postgres.Wp (.of r hRefl hTrans)
      (fun db ws _ =>
      (PaymentTx.record paymentID workflowID runID).Post r db ws .recorded)
      began (recordWorkflow paymentID workflowID runID) [] db := by
  intro before _ row ws₁ hExec₁
  rcases Stmt.exec_selectPayment hExec₁ with ⟨hRow, rfl⟩
  cases row with
  | none => trivial
  | some cur =>
    intro db₁ hRely₁ _ ws₂ hExec₂
    rw [Stmt.exec_upsertPayment hExec₂]
    intro db₂ hRely₂
    refine ⟨rfl, before, cur, ?_, hRow.symm, rfl⟩
    exact hTrans _ _ _ (hTick _ before) (hTrans _ _ _ hRely₁ (hTrans _ _ _ (hTick _ db₁) hRely₂))

/- Every transaction commits what it says. -/
theorem PaymentTx.prog_wp (c : PaymentTx) (began : Nat) (db : Database) :
    postgres.Wp (.of r hRefl hTrans) (c.Post r) began c.prog [] db := by
  cases c with
  | create cmd env =>
    refine Engine.Wp.map _ ?_
    rcases initiatePayment_eq cmd env with ⟨e, hFail⟩ | ⟨_, hKey, hCreating⟩
    · rw [hFail]
      trivial
    · rw [hCreating]
      refine (cmd.creation env).creating_wp (.payment (cmd.projection env)) _ began db ?_ ?_
      · intro db r ws hExec
        exact Stmt.exec_upsertPayment hExec
      · intro db sequence
        exact ⟨hKey, rfl, sequence, began, rfl⟩
  | record paymentID workflowID runID =>
    exact Engine.Wp.map _ (recordWorkflow_wp hRefl hTrans hTick _ _ _ _ _)
  | authorize paymentID key env =>
    exact Engine.Wp.map _ (transition_wp hRefl hTrans hTick authorize_leads
        _ _ _ _ _)
  | settle paymentID key env =>
    exact Engine.Wp.map _ (transition_wp hRefl hTrans hTick settle_leads
        _ _ _ _ _)
  | fail paymentID key reason env =>
    exact Engine.Wp.map _ (transition_wp hRefl hTrans hTick (fail_leads reason) _ _ _ _ _)

end

/- What a transaction commits, whatever the others do. -/
def PaymentTx.Commits (c : PaymentTx) (ws : List Write)
    (a : PaymentAnswer) : Prop := ∃ db, c.Post (fun _ _ => True) db ws a

theorem PaymentTx.commits_wp (c : PaymentTx) (began : Nat) (db : Database) :
    postgres.Wp Engine.Rely.top (fun _ ws a => c.Commits ws a) began c.prog [] db := by
  have hWp := c.prog_wp (r := fun _ _ => True)
    (fun _ => trivial) (fun _ _ _ _ _ => trivial) (fun _ _ => trivial) began db
  exact hWp.mono (fun db ws a hPost => ⟨db, hPost⟩)

end Fincore.Payment
