import Fincore.Creating
import Fincore.Lib.Faults
import Fincore.Pkg.Scripts

/-
  Calls of `InitiatePaymentHandler.Handle` that fail.

  The payment is committed before its workflow is started, and the workflow is started before its
  identifiers are recorded. Nothing is undone: what fails after the first commit leaves the payment,
  and perhaps its workflow.

  Key definitions include:
    * `HandleFaults` and `Outside`
    * `serveHandle`
    * `InitiatePayment.Creates`
    * `Outside.Untouched`

  Main results:
    * `create_of_creates` and `create_of_not_creates`
    * `record_created`
    * `failure_without_effect_iff`
-/

----
-- The Handler Under Faults
----

namespace Fincore.Payment

/- How `StartTransferWorkflow` ends. An error does not say whether the workflow was started. -/
inductive StartOutcome where
  | started (runID : String)
  | refused (e : GoError)
  | unreported (e : GoError)

/- What happens to the three steps of a call from outside. -/
structure HandleFaults where
  create : Engine.Fault
  start : StartOutcome
  record : Engine.Fault

/- The payment database and the workflows that are running. -/
structure Outside where
  db : Database
  workflows : List (String × TransferWorkflowInput)

/- The identifier that a transfer workflow is started with. -/
def transferWorkflowID (paymentID : String) : String := "payment-transfer-" ++ paymentID

/- `Client.StartTransferWorkflow` -/
def startTransferWorkflow (outcome : StartOutcome) (input : TransferWorkflowInput) (w : Outside) :
    Except GoError (String × String) × Outside :=
  let workflowID := transferWorkflowID input.paymentID
  let started :=
    { w with workflows := w.workflows ++ [(workflowID, input)] }
  match outcome with
  | .started runID => (.ok (workflowID, runID), started)
  | .refused e => (.error e, w)
  | .unreported e => (.error e, started)

/- `UnitOfWork.WithTx` under a fault -/
def Outside.withTx {α : Type} (w : Outside) (f : Engine.Fault)
    (p : Tx α) : Except GoError α × Outside :=
  ((postgres.under f p w.db).1, { w with db := (postgres.under f p w.db).2 })

/- The steps of a call, each under its fault. -/
def serveHandle (env : Env) (f : HandleFaults) : (r : HandleReq) → Outside → HandleResp r × Outside
| .create cmd, w => w.withTx f.create (initiatePayment cmd env)
| .startTransferWorkflow input, w =>
  startTransferWorkflow f.start input w
| .record paymentID workflowID runID, w =>
  w.withTx f.record (recordWorkflow paymentID workflowID runID)

/- The statements of the first transaction. -/
def InitiatePayment.statements (cmd : InitiatePayment) (env : Env) : List Stmt :=
  [.insertMessage (cmd.creation env).message (some "enqueue outbox"),
    .insertEvent (cmd.creation env).event (some "append events"),
    .upsertPayment (cmd.projection env)]

/- The first transaction gets to its commit. -/
def InitiatePayment.Creates (cmd : InitiatePayment) (env : Env)
    (f : HandleFaults) (db : Database) : Prop :=
  f.create.Commits ∧ cmd.Accepted env ∧ ∀ s ∈ cmd.statements env, s.Works db

/- Nothing goes wrong from outside. -/
def HandleFaults.Quiet (f : HandleFaults) (temporal : Bool) : Prop :=
  f.create = .clean ∧ (temporal = true → (∃ runID, f.start = .started runID) ∧ f.record = .clean)

/-
  The event store, the outbox and the projection are as they were, and no workflow is running for
  the payment.
-/
def Outside.Untouched (w w' : Outside) (paymentID : String) : Prop :=
  w'.db.events = w.db.events ∧ w'.db.outbox = w.db.outbox ∧ w'.db.payments = w.db.payments ∧
    ∀ run ∈ w'.workflows, run.1 ≠ transferWorkflowID paymentID

----
-- The Two Transactions
----

variable {cmd : InitiatePayment} {env : Env} {f : HandleFaults} {w : Outside} {db : Database}

theorem succeeds_initiatePayment (hAccepted : cmd.Accepted env) (began : Nat) :
    postgres.Succeeds began (initiatePayment cmd env) [] db ↔
    ∀ s ∈ cmd.statements env, s.Works db := by
  have hTables : ((cmd.statements env).map Stmt.table).Nodup := by
    show ["outbox_messages", "event_store_events", "payments_projection"].Nodup
    decide
  rw [initiatePayment_of_accepted hAccepted]
  exact succeeds_script_iff hTables (cmd.projection env) began [] db

/- What the first transaction leaves behind. -/
structure InitiatePayment.Created (cmd : InitiatePayment) (env : Env)
    (db db' : Database) : Prop where
  schema : db'.schema = db.schema
  events : ∃ row, db'.events = db.events ++ [row]
  payment : db'.payments (env.newID 0) = some (cmd.projection env)

theorem withTx_initiatePayment (hAccepted : cmd.Accepted env)
    (hWorks : ∀ s ∈ cmd.statements env, s.Works db) :
    ∃ db', postgres.withTx (initiatePayment cmd env) db =
    (.ok (cmd.projection env), db') ∧ cmd.Created env db db' := by
  rcases (succeeds_initiatePayment hAccepted (postgres.now db)).mpr hWorks with ⟨a, db', hRun⟩
  have hWp : postgres.Wp .top
        (fun _ ws a =>
          (∃ sequence, ws = (cmd.creation env).writes
            (.payment (cmd.projection env)) sequence (postgres.now db)) ∧ a = cmd.projection env)
        (postgres.now db) (initiatePayment cmd env) [] db := by
    rw [initiatePayment_of_accepted hAccepted]
    refine (cmd.creation env).creating_wp (.payment (cmd.projection env)) _ _ db ?_ ?_
    · intro db r ws hExec
      exact Stmt.exec_upsertPayment hExec
    · intro db sequence
      exact ⟨⟨sequence, rfl⟩, rfl⟩
  rcases hWp.serial (congrArg Prod.fst hRun) with
    ⟨ticked, ws, hTicked, ⟨⟨sequence, rfl⟩, rfl⟩, hView⟩
  have hDb' : db' = postgres.view ticked
      ((cmd.creation env).writes (.payment (cmd.projection env)) sequence
      (postgres.now db)) := (congrArg Prod.snd hRun).symm.trans hView
  have hEvents : ticked.events = db.events := hTicked.observe (fun s _ => by cases s <;> rfl)
  have hSchema : ticked.schema = db.schema := hTicked.observe (fun s _ => by cases s <;> rfl)
  refine ⟨db', hRun, ?_⟩
  subst hDb'
  refine ⟨hSchema, ⟨⟨sequence, (cmd.creation env).event⟩, ?_⟩, ?_⟩
  · rw [← hEvents]
    rfl
  · exact if_pos rfl

/- The columns that are written are those that are read. -/
theorem selectPayment_works {p : PaymentProjection}
    (hWorks : (Stmt.upsertPayment p).Works db) (paymentID : String) :
    (Stmt.selectPayment paymentID).Works db := by
  refine ⟨?_, trivial⟩
  have hColumns := List.find?_eq_none.mp hWorks.columns
  refine List.find?_eq_none.mpr ?_
  intro column hMem
  refine hColumns column ?_
  have hSub : (Stmt.selectPayment paymentID).columns ⊆ (Stmt.upsertPayment p).columns := by
    show ["payment_id", "from_account_id", "to_account_id",
        "currency", "amount_kobo", "narration", "status",
        "temporal_workflow_id", "temporal_run_id", "version"] ⊆ _
    exact List.subset_append_left _ ["updated_at"]
  exact hSub hMem

/- The second transaction finds what the first has left. -/
theorem record_created {db' : Database} (hWorks : ∀ s ∈ cmd.statements env, s.Works db)
    (hCreated : cmd.Created env db db') (workflowID runID : String) :
    ∃ u, (postgres.withTx (recordWorkflow (env.newID 0) workflowID runID) db').1 = .ok u := by
  have hUpsert : ∀ p, (Stmt.upsertPayment p).Works db' := by
    intro p
    have hFirst := hWorks (.upsertPayment (cmd.projection env))
      (by simp [InitiatePayment.statements])
    refine ⟨?_, trivial⟩
    rw [hCreated.schema]
    exact hFirst.columns
  have hSelect := selectPayment_works (hUpsert (cmd.projection env)) (env.newID 0)
  have hSucceeds : postgres.Succeeds (postgres.now db')
      (recordWorkflow (env.newID 0) workflowID runID) [] db' := by
    refine Engine.succeeds_ask_iff.mpr ?_
    rcases (Stmt.works_iff (postgres.now db')).mp hSelect with ⟨row, ws, hExec⟩
    refine ⟨row, ws, hExec, ?_⟩
    rcases Stmt.exec_selectPayment hExec with ⟨hRow, rfl⟩
    rw [hCreated.payment] at hRow
    subst hRow
    refine Engine.succeeds_ask_iff.mpr ?_
    have hThen :=
      (Stmt.works_of_core (core_tick (.selectPayment (env.newID 0)) db')).mpr
        (hUpsert { cmd.projection env with
          temporalWorkflowID := workflowID
          temporalRunID := runID })
    rcases (Stmt.works_iff (postgres.now db')).mp hThen with ⟨r, ws, hExec⟩
    exact ⟨r, ws, hExec, Engine.succeeds_ret _⟩
  rcases hSucceeds with ⟨u, db'', hRun⟩
  exact ⟨u, congrArg Prod.fst hRun⟩

/- A call whose payment is not created has no effect. -/
theorem create_of_not_creates (hNot : ¬ cmd.Creates env f w.db) :
    ∃ e w', serveHandle env f (.create cmd) w = (.error e, w') ∧
    w'.db.core = w.db.core ∧ w'.workflows = w.workflows := by
  have hEnd : ¬ (f.create.Commits ∧
      ∃ p, (postgres.withTx (initiatePayment cmd env) w.db).1 = .ok p) := by
    rintro ⟨hCommits, p, hOk⟩
    have hSucceeds := Engine.succeeds_of_ok hOk
    by_cases hAccepted : cmd.Accepted env
    · exact hNot ⟨hCommits, hAccepted, (succeeds_initiatePayment hAccepted _).mp hSucceeds⟩
    · rcases initiatePayment_of_not_accepted hAccepted with ⟨e, hFail⟩
      rw [hFail] at hSucceeds
      exact Engine.not_succeeds_fail e hSucceeds
  rcases Engine.under_aborts Database.core core_tick hEnd with ⟨⟨e, hError⟩, hCore⟩
  exact ⟨e, _, Prod.ext hError rfl, hCore, rfl⟩

/- Any other has committed it, whatever it is told. -/
theorem create_of_creates (hCreates : cmd.Creates env f w.db) :
    ∃ w', serveHandle env f (.create cmd) w =
        (if f.create = .clean then .ok (cmd.projection env)
          else .error (.pg .connection), w') ∧ cmd.Created env w.db w'.db ∧
      w'.workflows = w.workflows := by
  rcases hCreates with ⟨hCommits, hAccepted, hWorks⟩
  rcases withTx_initiatePayment hAccepted hWorks with ⟨db', hTx, hCreated⟩
  have hUnder := Engine.under_commits hTx hCommits
  refine ⟨⟨db', w.workflows⟩, ?_, hCreated, rfl⟩
  show w.withTx f.create (initiatePayment cmd env) = _
  unfold Outside.withTx
  rw [hUnder]
  rfl

----
-- Failed Calls
----

variable {temporal : Bool} {w' : Outside}

/- Without its payment the call fails. -/
theorem handle_of_create_error {e : GoError}
    (hCreate : serveHandle env f (.create cmd) w = (.error e, w')) :
    (handle temporal cmd).runWith (serveHandle env f) w = (.error e, w') := by
  refine (Prog.runWith_ask _ _ _ w).trans ?_
  rw [hCreate]
  rfl

/- What a successful call answers. -/
def initiatedResult (env : Env) : InitiatePaymentResult := ⟨env.newID 0, 1, Status.initiated.text⟩

/- Without a workflow starter the payment is all there is. -/
theorem handle_without_temporal
    (hCreate : serveHandle env f (.create cmd) w = (.ok (cmd.projection env), w')) :
    (handle false cmd).runWith (serveHandle env f) w = (.ok (initiatedResult env), w') := by
  refine (Prog.runWith_ask _ _ _ w).trans ?_
  rw [hCreate]
  rfl

/- The input of the workflow of a new payment. -/
def InitiatePayment.workflowInput (cmd : InitiatePayment) (env : Env) : TransferWorkflowInput where
  paymentID := env.newID 0
  fromAccountID := cmd.fromAccountID
  toAccountID := cmd.toAccountID
  currency := cmd.amount.currency
  amountKobo := cmd.amount.amountKobo
  narration := cmd.narration
  idempotencyKey := cmd.idempotencyKey

theorem start_error_of_not_started (hNot : ¬ ∃ runID, f.start = .started runID)
    (input : TransferWorkflowInput) (w : Outside) :
    ∃ e, (startTransferWorkflow f.start input w).1 = .error e := by
  cases hStart : f.start with
  | started runID => exact absurd ⟨runID, hStart⟩ hNot
  | refused e => exact ⟨e, rfl⟩
  | unreported e => exact ⟨e, rfl⟩

theorem handle_of_start_error
    (hCreate : serveHandle env f (.create cmd) w = (.ok (cmd.projection env), w')) {e : GoError}
    (hStart : (startTransferWorkflow f.start (cmd.workflowInput env) w').1 = .error e) :
    ∃ w'', (handle true cmd).runWith (serveHandle env f) w = (.error e, w'') ∧ w''.db = w'.db := by
  refine ⟨(startTransferWorkflow f.start (cmd.workflowInput env) w').2, ?_, ?_⟩
  · refine (Prog.runWith_ask _ _ _ w).trans ?_
    rw [hCreate]
    refine (Prog.runWith_ask _ _ _ w').trans ?_
    show (Prog.ofExcept (startTransferWorkflow f.start
      (cmd.workflowInput env) w').1 >>= _).runWith _ _ = _
    rw [hStart]
    rfl
  · unfold startTransferWorkflow
    cases f.start with
    | started runID => rfl
    | refused e => rfl
    | unreported e => rfl

theorem handle_of_started
    (hCreate : serveHandle env f (.create cmd) w = (.ok (cmd.projection env), w')) {runID : String}
    (hStart : f.start = .started runID) :
    ((∃ res, ((handle true cmd).runWith (serveHandle env f) w).1 = .ok res) ↔
    ∃ u, (postgres.under f.record
    (recordWorkflow (env.newID 0) (transferWorkflowID (env.newID 0)) runID) w'.db).1 = .ok u) ∧
    ((handle true cmd).runWith (serveHandle env f) w).2.workflows = w'.workflows ++
    [(transferWorkflowID (env.newID 0), cmd.workflowInput env)] := by
  let recorded := postgres.under f.record
    (recordWorkflow (env.newID 0) (transferWorkflowID (env.newID 0)) runID) w'.db
  have hRun : (handle true cmd).runWith (serveHandle env f) w =
        (Prog.ofExcept recorded.1 >>= fun _ => pure
          (initiatedResult env)).runWith (serveHandle env f)
          ⟨recorded.2, w'.workflows ++
            [(transferWorkflowID (env.newID 0), cmd.workflowInput env)]⟩ := by
    refine (Prog.runWith_ask _ _ _ w).trans ?_
    rw [hCreate]
    refine (Prog.runWith_ask _ _ _ w').trans ?_
    have hServe : serveHandle env f (.startTransferWorkflow (cmd.workflowInput env)) w' =
        (.ok (transferWorkflowID (env.newID 0), runID),
        ⟨w'.db, w'.workflows ++ [(transferWorkflowID (env.newID 0), cmd.workflowInput env)]⟩) := by
      show startTransferWorkflow f.start _ _ = _
      rw [hStart]
      rfl
    refine (congrArg (fun x => Prog.runWith (serveHandle env f)
      (Prog.ofExcept x.1 >>= _) x.2) hServe).trans ?_
    exact Prog.runWith_ask _ _ _ _
  rw [hRun]
  cases hEnd : recorded.1 with
  | error e =>
    refine ⟨iff_of_false ?_ ?_, rfl⟩
    · rintro ⟨res, hOther⟩
      cases hOther
    · rintro ⟨u, hOther⟩
      cases hOther
  | ok u => exact ⟨iff_of_true ⟨_, rfl⟩ ⟨u, rfl⟩, rfl⟩

variable {paymentID : String}

theorem untouched_of_core (hCore : w'.db.core = w.db.core)
    (hNone : ∀ run ∈ w'.workflows, run.1 ≠ transferWorkflowID paymentID) :
    w.Untouched w' paymentID := by
  have hEvents : w'.db.core.events = w.db.core.events := by
    rw [hCore]
  have hOutbox : w'.db.core.outbox = w.db.core.outbox := by
    rw [hCore]
  have hPayments : w'.db.core.payments = w.db.core.payments := by
    rw [hCore]
  exact ⟨hEvents, hOutbox, hPayments, hNone⟩

theorem not_untouched_of_created
    (hCreated : cmd.Created env w.db w'.db) : ¬ w.Untouched w' paymentID := by
  rintro ⟨hEvents, _⟩
  rcases hCreated.events with ⟨row, hRow⟩
  have hLength := congrArg List.length (hEvents.symm.trans hRow)
  rw [List.length_append] at hLength
  simp at hLength

/- A payment that is created has an effect, so the call must not fail any more. -/
theorem handle_of_creates (hCreates : cmd.Creates env f w.db) :
    (∃ res, (handle temporal cmd).runWith (serveHandle env f) w =
    (.ok res, ((handle temporal cmd).runWith (serveHandle env f) w).2) ∧
    f.Quiet temporal) ∨ ∃ e w'',
    (handle temporal cmd).runWith (serveHandle env f) w = (.error e, w'') ∧
    ¬ w.Untouched w'' (env.newID 0) ∧ ¬ f.Quiet temporal := by
  rcases create_of_creates hCreates with ⟨w', hCreate, hCreated, _⟩
  by_cases hAcked : f.create = .clean
  · rw [if_pos hAcked] at hCreate
    cases temporal with
    | false =>
      left
      rw [handle_without_temporal hCreate]
      exact ⟨_, rfl, hAcked, nofun⟩
    | true =>
      by_cases hStarted : ∃ runID, f.start = .started runID
      · rcases hStarted with ⟨runID, hStart⟩
        rcases handle_of_started hCreate hStart with ⟨hOk, hWorkflows⟩
        rw [Engine.under_ok_iff] at hOk
        have hRecord := record_created hCreates.2.2 hCreated
          (transferWorkflowID (env.newID 0)) runID
        by_cases hQuiet : f.record = .clean
        · left
          rcases hOk.mpr ⟨hQuiet, hRecord⟩ with ⟨res, hRes⟩
          exact ⟨res, Prod.ext hRes rfl, hAcked, fun _ => ⟨⟨runID, hStart⟩, hQuiet⟩⟩
        · right
          cases hRes : ((handle true cmd).runWith (serveHandle env f) w).1 with
          | ok res =>
            exact absurd (hOk.mp ⟨res, hRes⟩).1 hQuiet
          | error e =>
            refine ⟨e, _, Prod.ext hRes rfl, ?_, ?_⟩
            · rintro ⟨_, _, _, hNone⟩
              rw [hWorkflows] at hNone
              exact hNone _ (List.mem_append_right _ List.mem_cons_self) rfl
            · intro h
              exact hQuiet (h.2 rfl).2
      · right
        rcases start_error_of_not_started hStarted (cmd.workflowInput env) w' with ⟨e, hError⟩
        rcases handle_of_start_error hCreate hError with ⟨w'', hRun, hDb⟩
        refine ⟨e, w'', hRun, ?_, ?_⟩
        · exact not_untouched_of_created (hDb ▸ hCreated)
        · intro h
          exact hStarted (h.2 rfl).1
  · right
    rw [if_neg hAcked] at hCreate
    refine ⟨_, w', handle_of_create_error hCreate, ?_, ?_⟩
    · exact not_untouched_of_created hCreated
    · intro h
      exact hAcked h.1

/-
  A failed call has had no effect if its payment was not created. Once it is, the call must not
  fail: its commit is acknowledged and, with a workflow starter, the workflow is started and
  recorded.
-/
theorem failure_without_effect_iff (temporal : Bool) (cmd : InitiatePayment)
    (env : Env) (f : HandleFaults) (w : Outside)
    (hNew : ∀ run ∈ w.workflows, run.1 ≠ transferWorkflowID (env.newID 0)) :
    ((∃ e, ((handle temporal cmd).runWith (serveHandle env f) w).1 = .error e) →
      w.Untouched ((handle temporal cmd).runWith (serveHandle env f) w).2 (env.newID 0)) ↔
      (cmd.Creates env f w.db → f.Quiet temporal) := by
  by_cases hCreates : cmd.Creates env f w.db
  · rw [imp_iff_right hCreates]
    rcases handle_of_creates hCreates with ⟨res, hRun, hQuiet⟩ | ⟨e, w'', hRun, hTouched, hLoud⟩
    · refine iff_of_true ?_ hQuiet
      rintro ⟨e, hError⟩
      rw [hRun] at hError
      cases hError
    · rw [hRun]
      refine iff_of_false ?_ hLoud
      intro hUntouched
      exact hTouched (hUntouched ⟨e, rfl⟩)
  · rcases create_of_not_creates hCreates with ⟨e, w', hCreate, hCore, hWorkflows⟩
    rw [handle_of_create_error hCreate]
    refine iff_of_true ?_ (fun h => absurd h hCreates)
    intro _
    exact untouched_of_core hCore (hWorkflows ▸ hNew)

/- The first transaction breaks at its last statement. -/
theorem broken_create_without_effect :
    (∃ e, ((handle true initiateRent).runWith
      (serveHandle (.tagged "P") ⟨.broke 2, .started "run", .clean⟩)
      ⟨Database.empty paymentMigrations, []⟩).1 = .error e) ∧
      Outside.Untouched ⟨Database.empty paymentMigrations, []⟩
      ((handle true initiateRent).runWith
      (serveHandle (.tagged "P") ⟨.broke 2, .started "run", .clean⟩)
      ⟨Database.empty paymentMigrations, []⟩).2 (Env.newID (.tagged "P") 0) := by
  have hError : ∃ e, ((handle true initiateRent).runWith
      (serveHandle (.tagged "P") ⟨.broke 2, .started "run", .clean⟩)
      ⟨Database.empty paymentMigrations, []⟩).1 = .error e := ⟨_, rfl⟩
  refine ⟨hError, (failure_without_effect_iff true initiateRent
    (.tagged "P") ⟨.broke 2, .started "run", .clean⟩
    ⟨Database.empty paymentMigrations, []⟩ nofun).mpr ?_ hError⟩
  rintro ⟨hCommits, _⟩
  exact hCommits.elim

/- The workflow is not started, and the payment stays. -/
theorem payment_left_without_workflow : ∃ w', (handle true initiateRent).runWith
      (serveHandle (.tagged "P") ⟨.clean, .refused (.text "unavailable"), .clean⟩)
      ⟨Database.empty paymentMigrations, []⟩ = (.error (.text "unavailable"), w') ∧
      w'.db.events.map (fun row => row.event.aggregateID) = ["P-0"] ∧
      w'.db.outbox.length = 1 ∧ ¬ Outside.Untouched
      ⟨Database.empty paymentMigrations, []⟩ w' "P-0" := by
  refine ⟨_, rfl, rfl, rfl, ?_⟩
  rintro ⟨hEvents, _⟩
  cases hEvents

----
-- The Two Orchestrators
----

/- The workflow of a payment asks the services what the saga asks them. -/
theorem serve_alike (fates : Nat → Fate) {ev : PaymentInitiated} (hAmount : cmd.amount.PositiveNGN)
    (hRaised : cmd.initiated env = .paymentInitiated ev) : List.Forall₂
    (fun s s' => ∀ w, serveActivity fates s.call w = serveCall fates s'.call w)
    (workflowSteps (cmd.workflowInput env)) (TransferSaga.steps ev) := by
  cases hRaised
  have hNew : Money.new cmd.amount.amountKobo cmd.amount.currency = .ok cmd.amount := by
    refine if_neg ?_
    rw [hAmount.currency]
    decide
  have hWith : ∀ call w, (Activity.withAmount (cmd.workflowInput env) call).runWith
      (serveTx fates) w = serveCall fates (call cmd.amount) w := by
    intro call w
    show (Prog.ofExcept (Money.new cmd.amount.amountKobo cmd.amount.currency) >>= _).runWith _ w = _
    rw [hNew]
    rfl
  exact .cons (hWith _) (.cons (hWith _) (.cons (hWith _) (.cons (hWith _)
    (.cons (fun _ => rfl) (.cons (fun _ => rfl) .nil)))))

/-
  For a payment that was initiated, the workflow that is started and the saga on the event that was
  raised answer alike, whichever transactions fail, and leave the same databases if they go through.
-/
theorem workflow_agrees_with_saga (fates : Nat → Fate) (cmd : InitiatePayment) (env : Env)
    (ev : PaymentInitiated) (hAmount : cmd.amount.PositiveNGN)
    (hRaised : cmd.initiated env = .paymentInitiated ev) (w : World) :
    ((transferWorkflow (cmd.workflowInput env)).runWith (serveActivity fates) w).1 =
    ((TransferSaga.handle ev).runWith (serveCall fates) w).1 ∧
    (((transferWorkflow (cmd.workflowInput env)).runWith (serveActivity fates) w).1 = .ok () →
    (transferWorkflow (cmd.workflowInput env)).runWith (serveActivity fates) w =
    (TransferSaga.handle ev).runWith (serveCall fates) w) := by
  rw [transferWorkflow_eq_plan, TransferSaga.handle_eq_plan]
  exact Saga.alike_plan (serve_alike fates hAmount hRaised) w

theorem rent_agrees_with_saga : ∃ ev, initiateRent.initiated (.tagged "P") = .paymentInitiated ev ∧
    ∀ w, ((transferWorkflow (initiateRent.workflowInput (.tagged "P"))).runWith
    (serveActivity (fun _ => .run (.tagged "x"))) w).1 =
    ((TransferSaga.handle ev).runWith (serveCall (fun _ => .run (.tagged "x"))) w).1 :=
  ⟨_, rfl, fun w => (workflow_agrees_with_saga _ initiateRent (.tagged "P") _
    ⟨rfl, by decide⟩ rfl w).1⟩

end Fincore.Payment
