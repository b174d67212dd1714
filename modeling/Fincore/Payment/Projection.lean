import Fincore.Lib.Apart
import Fincore.Payment.Lifecycle

/-
  The payments projection beside the event streams.

  Recording a workflow and moving a payment on both read the whole row and write the whole row back.
  Two that move a payment exclude each other through its stream; recording takes no part in that,
  and is excluded by nothing.

  Key definitions include:
    * `PaymentTx.clashes` and `PaymentCalls.apart`
    * `PaymentCalls.recorded`
    * `Current`
    * `Steady`
    * `ProjectionInv`

  Main results:
    * `ProjectionInv.written`
    * `projectionInv_step`
    * `projection_current_of_apart`
-/

----
-- Rows And Streams
----

namespace Fincore.Payment

/- One of them records the workflow of the other's payment. -/
def PaymentTx.clashes (c c' : PaymentTx) : Bool :=
  (c.records.isSome && c.records == c'.subject) || (c'.records.isSome && c'.records == c.subject)

/- A transaction starts only when none it clashes with is running. -/
def PaymentCalls.apart (cfg : PaymentCalls)
    (a : Engine.Action PaymentTx) : Bool := cfg.startsApart PaymentTx.clashes a

/- The workflow and run recorded for the payment. -/
def PaymentTx.recordedFor (paymentID : String) : PaymentTx → Option (String × String)
| .record id workflowID runID =>
  if id = paymentID then some (workflowID, runID) else none
| _ => none

/- The identifiers of the last one, empty without any. -/
def lastRecorded (marks : List (String × String)) : String × String := marks.getLast?.getD ("", "")

/- What has last been recorded for the payment. -/
def PaymentCalls.recorded (cfg : PaymentCalls) (paymentID : String) : String × String :=
  lastRecorded (cfg.marks (PaymentTx.recordedFor paymentID))

/-
  The row has the status and version of the replayed payment and the identifiers recorded for it.
-/
def Current (replay : Except GoError Payment) (recorded : String × String)
    (row : PaymentProjection) : Prop :=
  ∃ p, replay = .ok p ∧ row.status = p.status.text ∧ row.version = p.version ∧
      (row.temporalWorkflowID, row.temporalRunID) = recorded

theorem clashes_comm (c c' : PaymentTx) : c.clashes c' = c'.clashes c := Bool.or_comm _ _

theorem clashes_of_records {c c' : PaymentTx} {paymentID : String}
    (hRecords : c.records = some paymentID)
    (hSubject : c'.subject = some paymentID) : c.clashes c' = true := by
  unfold PaymentTx.clashes
  rw [hRecords, hSubject]
  simp

theorem recordedFor_of_ne {c : PaymentTx} {paymentID : String}
    (hNot : c.records ≠ some paymentID) : c.recordedFor paymentID = none := by
  cases c with
  | record id workflowID runID =>
    exact if_neg (fun hSame => hNot (congrArg some hSame))
  | _ => rfl

----
-- What A Transaction Relies On
----

/-
  While a recording runs the row of its payment stays as it is; while another transaction runs the
  row of its payment stays as it is with its stream.
-/
structure Steady (c : PaymentTx) (db db' : Database) : Prop where
  kept : Kept db db'
  recording : ∀ paymentID cur, c.records = some paymentID →
      db.payments paymentID = some cur → db'.payments paymentID = some cur
  moving : ∀ paymentID, c.subject = some paymentID → c.records = none →
        db'.rowsOf paymentID = db.rowsOf paymentID → db'.payments paymentID = db.payments paymentID

theorem Steady.refl (c : PaymentTx) (db : Database) : Steady c db db :=
  ⟨.refl db, fun _ _ _ hRow => hRow, fun _ _ _ _ => rfl⟩

theorem Steady.trans (c : PaymentTx) (db₁ db₂ db₃ : Database)
    (hFirst : Steady c db₁ db₂) (hSecond : Steady c db₂ db₃) : Steady c db₁ db₃ := by
  refine ⟨hFirst.kept.trans _ _ _ hSecond.kept, ?_, ?_⟩
  · intro paymentID cur hRecords hRow
    exact hSecond.recording paymentID cur hRecords (hFirst.recording paymentID cur hRecords hRow)
  · intro paymentID hSubject hMoves hRows
    -- the stream has not changed in between either
    have hLast := (hSecond.kept.grows.rowsOf paymentID).length_le
    rw [hRows] at hLast
    have hMid := hFirst.kept.grows.rowsOf_eq hLast
    rw [hSecond.moving paymentID hSubject hMoves (hRows.trans hMid),
      hFirst.moving paymentID hSubject hMoves hMid.symm]

theorem steady_tick (c : PaymentTx) (s : Stmt) (db : Database) :
    Steady c db (postgres.tick s db) := by
  refine ⟨kept_tick s db, ?_, ?_⟩
  · intro paymentID cur _ hRow
    rw [tick_payments]
    exact hRow
  · intro paymentID _ _ _
    rw [tick_payments]

/- No commit of another call disturbs what it does not clash. -/
theorem Continues.steady {db : Database} {c c' : PaymentTx} {ws : List Write}
    {cur : PaymentProjection} (hContinues : Continues db c ws cur) (hNamed : Named db)
    (hKnown : ∀ paymentID cur, db.payments paymentID = some cur →
    db.rowsOf paymentID ≠ []) (hApart : c.clashes c' = false) :
    Steady c' db (postgres.view db ws) := by
  -- a row of another payment is left alone
  have hOther : ∀ paymentID, cur.paymentID ≠ paymentID →
        (postgres.view db ws).payments paymentID = db.payments paymentID := by
    intro paymentID hNe
    rw [hContinues.upserts, if_neg (Ne.symm hNe)]
  refine ⟨hContinues.upserts.kept hNamed (grows_view db ws), ?_, ?_⟩
  · intro paymentID old hRecords hRow
    rw [hOther paymentID, hRow]
    rintro rfl
    cases hSubject : c.subject with
    | none =>
      exact hKnown _ old hRow (hContinues.fresh hSubject)
    | some id =>
      have hSame := (hContinues.subject id hSubject).1
      subst hSame
      rw [clashes_comm, clashes_of_records hRecords hSubject] at hApart
      cases hApart
  · intro paymentID hSubject _ hRows
    apply hOther
    rintro rfl
    rcases hContinues.event with ⟨row, p, ev, _, hOne, hSame, _⟩ | ⟨_, hRecords⟩
    · have hEvents := view_events db ws
      rw [hOne] at hEvents
      rw [← hSame, rowsOf_append_self hEvents] at hRows
      simp at hRows
    · rw [clashes_of_records hRecords hSubject] at hApart
      cases hApart

----
-- Rows Stay Current
----

/- Every row is current, and nothing has been recorded for a payment without events. -/
structure ProjectionInv (cfg : PaymentCalls) : Prop where
  life : LifecycleInv cfg
  sourced : cfg.Sourced
  apart : cfg.Apart PaymentTx.clashes
  steady : postgres.Guarded (fun c => .of (Steady c) (Steady.refl c) (Steady.trans c))
      (fun c => c.Post (Steady c)) cfg
  current : ∀ paymentID row, cfg.db.payments paymentID = some row →
      Current (replayed cfg.db paymentID) (PaymentCalls.recorded cfg paymentID) row
  unrecorded : ∀ paymentID, cfg.db.rowsOf paymentID = [] →
      cfg.marks (PaymentTx.recordedFor paymentID) = []

/- What is written over the row that was current. -/
structure Rewrites (db : Database) (c : PaymentTx) (ws : List Write)
    (cur : PaymentProjection) : Prop where
  continues : Continues db c ws cur
  marked : ∀ paymentID, ws.filterMap (fun _ => c.recordedFor paymentID) =
        (c.recordedFor paymentID).toList
  recording : c.records = some cur.paymentID →
      ∃ old, db.payments cur.paymentID = some old ∧ cur.status = old.status ∧
        cur.version = old.version ∧ c.recordedFor cur.paymentID =
          some (cur.temporalWorkflowID, cur.temporalRunID)
  moving : c.records = none → c.subject = some cur.paymentID →
      ∃ old, db.payments cur.paymentID = some old ∧
        cur.temporalWorkflowID = old.temporalWorkflowID ∧ cur.temporalRunID = old.temporalRunID
  creating : c.subject = none → cur.temporalWorkflowID = "" ∧ cur.temporalRunID = ""

section

variable {cfg : PaymentCalls} {i : Nat} {c : PaymentTx}
variable {t : Engine.Txn Stmt Resp Write GoError PaymentAnswer}

variable {cur : PaymentProjection}

theorem ProjectionInv.rewrites_moved (hInv : ProjectionInv cfg)
    (hCall : cfg.Running i c t) {paymentID : String}
    (hSubject : c.subject = some paymentID) (hRecords : c.records = none)
    {env : Env} {allowed : Status → Prop} {next : Status} {a : PaymentAnswer}
    (hMoved : Moved (Steady c) paymentID env allowed next cfg.db t.writes a)
    (hContinues : Continues cfg.db c t.writes cur) :
    Rewrites cfg.db c t.writes cur := by
  rcases hMoved.explained with
    ⟨first, second, p, ev, old, sequence, began, hFirst,
      hSecond, hLoaded, _, _, _, hRow, hWrites, _⟩
  have hEvent : .event ⟨sequence, (Raise.mk paymentID p ev env).event⟩ ∈
        t.writes := by
    rw [hWrites]
    exact List.mem_cons_self
  have hGrows := hFirst.kept.grows.trans hSecond.kept.grows
  have hWhole := (hInv.life.loaded_whole hCall hGrows hLoaded hEvent).1
  -- the stream is as it was when the row was read
  have hLength := (hFirst.kept.grows.rowsOf paymentID).length_le
  rw [hWhole] at hLength
  have hRows := hSecond.kept.grows.rowsOf_eq hLength
  have hStill : cfg.db.payments paymentID = some old := by
    rw [hSecond.moving paymentID hSubject hRecords hRows.symm]
    exact hRow
  have hName := hInv.life.named paymentID old hStill
  have hCur : cur = (Raise.mk paymentID p ev env).projection old := by
    have hUpserts := hContinues.upserts cur.paymentID
    rw [if_pos rfl, hWrites] at hUpserts
    have hSame := (hContinues.subject paymentID hSubject).1
    have hView :
        (postgres.view cfg.db
          ((Raise.mk paymentID p ev env).writes old sequence began)).payments cur.paymentID =
          some ((Raise.mk paymentID p ev env).projection old) := by
      rw [hSame]
      exact if_pos hName.symm
    exact Option.some.inj (hUpserts.symm.trans hView)
  have hNone : ∀ id, c.recordedFor id = none := by
    intro id
    apply recordedFor_of_ne
    rw [hRecords]
    exact nofun
  refine ⟨hContinues, ?_, ?_, ?_, ?_⟩
  · intro id
    rw [hNone id]
    simp
  · intro hOther
    rw [hRecords] at hOther
    cases hOther
  · intro _ _
    refine ⟨old, ?_, ?_, ?_⟩
    · rw [(hContinues.subject paymentID hSubject).1]
      exact hStill
    · rw [hCur]
      rfl
    · rw [hCur]
      rfl
  · intro hOther
    rw [hSubject] at hOther
    cases hOther

theorem ProjectionInv.written (hInv : ProjectionInv cfg)
    (hCall : cfg.Running i c t) {b : PaymentAnswer} (hProg : t.prog = .ret b) :
    ∃ cur, Rewrites cfg.db c t.writes cur := by
  rcases hInv.life.continues hCall hProg with ⟨cur, hContinues⟩
  refine ⟨cur, ?_⟩
  have hPost := hInv.steady.post hCall hProg
  cases c with
  | create cmd env =>
    rcases hPost with ⟨_, _, sequence, began, hWrites⟩
    have hCur : cur = cmd.projection env := by
      have hUpserts := hContinues.upserts
      rw [hWrites] at hUpserts
      have hNew := hUpserts (env.newID 0)
      have hView :
          (postgres.view cfg.db
            ((cmd.creation env).writes (.payment (cmd.projection env)) sequence
              began)).payments (env.newID 0) = some (cmd.projection env) := if_pos rfl
      rw [hView] at hNew
      split at hNew
      · exact (Option.some.inj hNew).symm
      · rename_i hNe
        -- the row written is the one of the new payment
        have hOld := hUpserts cur.paymentID
        rw [if_pos rfl] at hOld
        have hKept :
            (postgres.view cfg.db
              ((cmd.creation env).writes (.payment (cmd.projection env)) sequence
                began)).payments cur.paymentID =
              cfg.db.payments cur.paymentID := if_neg (Ne.symm hNe)
        rw [hKept] at hOld
        exact absurd (hContinues.fresh rfl) (hInv.life.known _ cur hOld)
    subst hCur
    refine ⟨hContinues, ?_, ?_, ?_, fun _ => ⟨rfl, rfl⟩⟩
    · intro id
      simp [PaymentTx.recordedFor]
    · intro hOther
      cases hOther
    · intro _ hOther
      cases hOther
  | record paymentID workflowID runID =>
    rcases hPost with ⟨_, before, old, hKept, hRow, hWrites⟩
    have hStill := hKept.recording paymentID old rfl hRow
    have hName := hInv.life.named paymentID old hStill
    have hSame := (hContinues.subject paymentID rfl).1
    have hCur : cur = { old with
          temporalWorkflowID := workflowID
          temporalRunID := runID } := by
      have hUpserts := hContinues.upserts paymentID
      rw [if_pos hSame.symm, hWrites] at hUpserts
      have hView :
          (postgres.view cfg.db
            [.payment { old with
              temporalWorkflowID := workflowID
              temporalRunID := runID }]).payments
              paymentID = some { old with
              temporalWorkflowID := workflowID
              temporalRunID := runID } := if_pos hName.symm
      exact Option.some.inj (hUpserts.symm.trans hView)
    refine ⟨hContinues, ?_, ?_, ?_, ?_⟩
    · intro id
      rw [hWrites]
      cases (PaymentTx.record paymentID workflowID runID).recordedFor id <;> rfl
    · intro _
      rw [hSame]
      refine ⟨old, hStill, ?_, ?_, ?_⟩
      · rw [hCur]
      · rw [hCur]
      · rw [hCur]
        exact if_pos rfl
    · intro hOther
      cases hOther
    · intro hOther
      cases hOther
  | authorize paymentID key env =>
    exact hInv.rewrites_moved hCall rfl rfl hPost hContinues
  | settle paymentID key env =>
    exact hInv.rewrites_moved hCall rfl rfl hPost hContinues
  | fail paymentID key reason env =>
    exact hInv.rewrites_moved hCall rfl rfl hPost hContinues

theorem ProjectionInv.current_written (hInv : ProjectionInv cfg)
    {ws : List Write} (hRewrites : Rewrites cfg.db c ws cur) : Current
    (replayed (postgres.view cfg.db ws) cur.paymentID)
    (lastRecorded
    (cfg.marks (PaymentTx.recordedFor cur.paymentID) ++
    (c.recordedFor cur.paymentID).toList)) cur := by
  have hEvents := view_events cfg.db ws
  rcases hRewrites.continues.event with
    ⟨row, p, ev, hMoves, hOne, hSame, hLawful, hStatus, hVersion⟩ | ⟨hNone, hRecords⟩
  · -- an event: its status and version, the old identifiers
    rw [hOne] at hEvents
    have hReplayed := hLawful.replayed_append hEvents
    rw [hSame] at hReplayed
    have hUnmarked : c.recordedFor cur.paymentID = none := by
      apply recordedFor_of_ne
      rw [hMoves]
      exact nofun
    refine ⟨p.apply ev, hReplayed, ?_, ?_, ?_⟩
    · rw [apply_status]
      exact hStatus
    · rw [hLawful.apply_version]
      exact hVersion
    · rw [hUnmarked, Option.toList_none, List.append_nil]
      cases hSubject : c.subject with
      | none =>
        rcases hRewrites.creating hSubject with ⟨hWorkflow, hRun⟩
        rw [hWorkflow, hRun, hInv.unrecorded _ (hRewrites.continues.fresh hSubject)]
        rfl
      | some id =>
        have hName := (hRewrites.continues.subject id hSubject).1
        subst hName
        rcases hRewrites.moving hMoves hSubject with ⟨old, hRow, hWorkflow, hRun⟩
        rcases hInv.current _ old hRow with ⟨_, _, _, _, hRecorded⟩
        rw [hWorkflow, hRun]
        exact hRecorded
  · -- no event: the old status and version, new identifiers
    rw [hNone, List.append_nil] at hEvents
    rcases hRewrites.recording hRecords with ⟨old, hRow, hStatus, hVersion, hMarked⟩
    rcases hInv.current _ old hRow with ⟨p, hReplayed, hOldStatus, hOldVersion, _⟩
    refine ⟨p, ?_, hStatus.trans hOldStatus, hVersion.trans hOldVersion, ?_⟩
    · unfold replayed Database.rowsOf at hReplayed ⊢
      rw [hEvents]
      exact hReplayed
    · rw [hMarked]
      unfold lastRecorded
      simp

theorem Rewrites.others {db : Database} {ws : List Write} (hRewrites : Rewrites db c ws cur)
    {paymentID : String} (hNe : paymentID ≠ cur.paymentID) :
    (postgres.view db ws).rowsOf paymentID = db.rowsOf paymentID ∧
    c.recordedFor paymentID = none := by
  refine ⟨?_, ?_⟩
  · have hEvents := view_events db ws
    rcases hRewrites.continues.event with ⟨row, p, ev, _, hOne, hSame, _⟩ | ⟨hNone, _⟩
    · rw [hOne] at hEvents
      apply rowsOf_append_ne hEvents
      rw [hSame]
      exact Ne.symm hNe
    · rw [hNone, List.append_nil] at hEvents
      unfold Database.rowsOf
      rw [hEvents]
  · apply recordedFor_of_ne
    intro hRecords
    exact hNe (hRewrites.continues.subject paymentID (subject_of_records hRecords)).1.symm

end

----
-- The Projection In Every Run
----

theorem projectionInv_start (schema : Schema) : ProjectionInv
    (PaymentCalls.start (Database.empty schema)) := by
  refine ⟨lifecycleInv_start schema, ?_, Engine.apart_start _ _, ?_, ?_, fun _ _ => rfl⟩
  · intro e hMem
    cases hMem
  · intro i c t hCall
    cases hCall
  · intro paymentID row hRow
    cases hRow

theorem projectionInv_step {cfg cfg' : PaymentCalls}
    {a : Engine.Action PaymentTx} (hInv : ProjectionInv cfg)
    (hStarts : PaymentCalls.apart cfg a = true)
    (hStep : paymentStep cfg a = some cfg') : ProjectionInv cfg' := by
  have hLife := lifecycleInv_step hInv.life hStep
  have hApart := Engine.apart_step clashes_comm hInv.apart hStarts hStep
  have hSteady : postgres.Guarded (fun c => .of (Steady c) (Steady.refl c) (Steady.trans c))
        (fun c => c.Post (Steady c)) cfg' := by
    apply Engine.guarded_step _ _ _ hInv.steady hStep
    · intro c
      exact c.prog_wp (Steady.refl c) (Steady.trans c) (steady_tick c) _ _
    · intro c t s db
      exact steady_tick c s db
    · intro i c t b j c' t' hNe _ hCall hProg hOther
      rcases hInv.life.continues hCall hProg with ⟨cur, hContinues⟩
      exact hContinues.steady hInv.life.named hInv.life.known
        (hInv.apart i j c c' t t' hNe hCall hOther)
  rcases Engine.step_quiet_or_commit hStep with hQuiet | ⟨i, c, t, b, r, hCall, hProg, _, _, rfl⟩
  · have hEvents : cfg'.db.events = cfg.db.events := hQuiet.observe tick_events
    have hPayments : cfg'.db.payments = cfg.db.payments := hQuiet.observe tick_payments
    have hMarks := Engine.Config.marks_quiet (β := String × String) hInv.sourced hQuiet
    refine ⟨hLife, hInv.sourced.quiet hQuiet, hApart, hSteady, ?_, ?_⟩
    · unfold PaymentCalls.recorded replayed Database.rowsOf
      rw [hPayments, hEvents]
      intro paymentID row hRow
      rw [hMarks]
      exact hInv.current paymentID row hRow
    · unfold Database.rowsOf
      rw [hEvents]
      intro paymentID hNone
      rw [hMarks]
      exact hInv.unrecorded paymentID hNone
  · rcases hInv.written hCall hProg with ⟨cur, hRewrites⟩
    have hMarks : ∀ paymentID, (cfg.commit postgres i c t.writes r).marks
              (PaymentTx.recordedFor paymentID) = cfg.marks (PaymentTx.recordedFor paymentID) ++
              (c.recordedFor paymentID).toList := by
      intro paymentID
      rw [Engine.Config.marks_commit hInv.sourced hCall, hRewrites.marked]
    refine ⟨hLife, hInv.sourced.commit hCall _, hApart, hSteady, ?_, ?_⟩
    · intro paymentID row hRow
      have hRow := (hRewrites.continues.upserts paymentID).symm.trans hRow
      unfold PaymentCalls.recorded
      rw [hMarks]
      split at hRow
      · rename_i hIs
        cases hRow
        subst hIs
        exact hInv.current_written hRewrites
      · rename_i hNe
        rcases hRewrites.others hNe with ⟨hRows, hUnmarked⟩
        have hReplayed : replayed (cfg.commit postgres i c t.writes r).db
                paymentID = replayed cfg.db paymentID := by
          show replayed (postgres.view cfg.db t.writes) _ = _
          unfold replayed
          rw [hRows]
        rw [hUnmarked, Option.toList_none, List.append_nil, hReplayed]
        exact hInv.current paymentID row hRow
    · intro paymentID hNone
      rw [hMarks]
      by_cases hIs : paymentID = cur.paymentID
      · -- the payment just written has events
        subst hIs
        refine absurd hNone (hLife.known _ cur ?_)
        exact (hRewrites.continues.upserts _).trans (if_pos rfl)
      · rcases hRewrites.others hIs with ⟨hRows, hUnmarked⟩
        rw [hUnmarked, Option.toList_none, List.append_nil]
        exact hInv.unrecorded paymentID (hRows.symm.trans hNone)

/-
  If a recording never runs together with another transaction on its payment, every row has the
  status and version that its payment's whole stream replays to, and the identifiers that were last
  recorded for it.
-/
theorem projection_current_of_apart (schema : Schema) (schedule : List (Engine.Action PaymentTx))
    (hApart : Transition.Meets paymentStep (fun cfg a => PaymentCalls.apart cfg a = true)
      (PaymentCalls.start (Database.empty schema)) schedule) (cfg : PaymentCalls)
    (hRun : Transition.run paymentStep
      (PaymentCalls.start (Database.empty schema)) schedule = some cfg)
    (paymentID : String) (row : PaymentProjection) (hRow : cfg.db.payments paymentID = some row) :
    Current (replayed cfg.db paymentID) (PaymentCalls.recorded cfg paymentID) row := by
  have hInv : ProjectionInv cfg := by
    apply Transition.run_induction_of_meets _ _ hApart hRun
    · intro s a s' hInv hStarts hStep
      exact projectionInv_step hInv hStarts hStep
    · exact projectionInv_start schema
  exact hInv.current paymentID row hRow

/- The first transaction of a payment, by itself. -/
def createRent : List (Engine.Action PaymentTx) :=
  [.start (.create ⟨"A-0", "B-0", ⟨100, NGN⟩, "rent", "pay"⟩ (.tagged "P")),
    .exec 0, .exec 0, .exec 0, .finish 0]

/- It is recorded and then authorized. -/
def recordThenAuthorize : List (Engine.Action PaymentTx) :=
  createRent ++ [.start (.record "P-0" "workflow" "run"), .exec 1, .exec 1, .finish 1] ++
    wholeTransition 2 (.authorize "P-0" "a" (.tagged "a"))

theorem recordThenAuthorize_current : ∃ cfg row, Transition.run paymentStep
      (PaymentCalls.start (Database.empty paymentMigrations))
      recordThenAuthorize = some cfg ∧ cfg.db.payments "P-0" = some row ∧
      Current (replayed cfg.db "P-0") (PaymentCalls.recorded cfg "P-0") row := by
  refine ⟨_, _, rfl, rfl, ?_⟩
  exact projection_current_of_apart paymentMigrations
    recordThenAuthorize (by decide) _ rfl "P-0" _ rfl

/-
  The workflow authorizes the payment after the recording has read the row and before it writes it
  back.
-/
def authorizeDuringRecord : List (Engine.Action PaymentTx) :=
  createRent ++ [.start (.record "P-0" "workflow" "run"), .exec 1] ++
    wholeTransition 2 (.authorize "P-0" "a" (.tagged "a")) ++ [.exec 1, .finish 1]

/- The row falls back behind the stream for good. -/
theorem authorization_lost : ∃ cfg row p, Transition.run paymentStep
      (PaymentCalls.start (Database.empty paymentMigrations))
      authorizeDuringRecord = some cfg ∧ (∀ i, cfg.running? i = none) ∧
      cfg.db.payments "P-0" = some row ∧ replayed cfg.db "P-0" = .ok p ∧
      row.status = "initiated" ∧ row.version = 1 ∧ p.status = .authorized ∧ p.version = 2 := by
  refine ⟨_, _, _, rfl, ?_, rfl, rfl, rfl, rfl, rfl, rfl⟩
  intro i
  match i with
  | 0 => rfl
  | 1 => rfl
  | 2 => rfl
  | n + 3 => rfl

end Fincore.Payment
