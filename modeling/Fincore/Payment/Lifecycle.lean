import Fincore.Payment.Calls

/-
  The lifecycle of payments, whatever transactions of the payment service are interleaved.

  `Lived` is the lifecycle as it is meant: which status may follow which. The handlers check it on a
  copy of the stream; that the copy is still the whole stream when they commit is due to the unique
  index alone.

  Key definitions include:
    * `Status.May` and `Lived`
    * `LegalTypes`
    * `replayed`
    * `LifecycleInv`

  Main results:
    * `Lived.legal`
    * `LifecycleInv.moved`
    * `lifecycleInv_step`
    * `payment_lifecycle`
-/

----
-- The Lifecycle
----

namespace Fincore.Payment

/- The status may be followed by the other. -/
def Status.May : Status → Status → Prop
| s, .authorized => s = .initiated
| s, .settled => s = .authorized
| s, .failed => s ≠ .settled
| _, _ => False

/- Event types a payment can have, and its status then. -/
inductive Lived : List String → Status → Prop where
  | initiated : Lived [eventPaymentInitiated] .initiated
  | next {types : List String} {status : Status} (ev : DomainEvent)
      (hLived : Lived types status) (hMay : status.May ev.leadsTo) :
      Lived (types ++ [ev.eventType]) ev.leadsTo

/- The three forms that the event types of a stream take. -/
def LegalTypes (types : List String) : Prop :=
  (∃ n, types = eventPaymentInitiated :: List.replicate n eventPaymentFailed) ∨
  (∃ n, types = eventPaymentInitiated :: eventPaymentAuthorized ::
      List.replicate n eventPaymentFailed) ∨
  types = [eventPaymentInitiated, eventPaymentAuthorized, eventPaymentSettled]

/- The types that lead to a status. -/
def LegalFor (types : List String) : Status → Prop
| .unset => False
| .initiated => types = [eventPaymentInitiated]
| .authorized =>
  types = [eventPaymentInitiated, eventPaymentAuthorized]
| .settled =>
  types = [eventPaymentInitiated, eventPaymentAuthorized, eventPaymentSettled]
| .failed =>
  (∃ n, types = eventPaymentInitiated :: List.replicate (n + 1) eventPaymentFailed) ∨
  ∃ n, types = eventPaymentInitiated :: eventPaymentAuthorized ::
      List.replicate (n + 1) eventPaymentFailed

variable {types : List String}

variable {status : Status}

theorem Lived.legalFor (hLived : Lived types status) : LegalFor types status := by
  induction hLived with
  | initiated => rfl
  | @next types status ev _ hMay ih =>
    cases ev with
    | paymentInitiated ev => exact hMay.elim
    | paymentAuthorized id at' =>
      have hStatus : status = .initiated := hMay
      subst hStatus
      have hTypes : types = _ := ih
      subst hTypes
      rfl
    | paymentSettled id at' =>
      have hStatus : status = .authorized := hMay
      subst hStatus
      have hTypes : types = _ := ih
      subst hTypes
      rfl
    | paymentFailed id reason at' =>
      cases status with
      | unset => exact ih.elim
      | initiated =>
        have hTypes : types = _ := ih
        subst hTypes
        exact Or.inl ⟨0, rfl⟩
      | authorized =>
        have hTypes : types = _ := ih
        subst hTypes
        exact Or.inr ⟨0, rfl⟩
      | settled => exact absurd rfl hMay
      | failed =>
        rcases ih with ⟨n, rfl⟩ | ⟨n, rfl⟩
        · refine Or.inl ⟨n + 1, ?_⟩
          rw [List.replicate_succ' (n := n + 1)]
          rfl
        · refine Or.inr ⟨n + 1, ?_⟩
          rw [List.replicate_succ' (n := n + 1)]
          rfl

theorem Lived.legal (hLived : Lived types status) : LegalTypes types := by
  have hFor := hLived.legalFor
  cases status with
  | unset => exact hFor.elim
  | initiated => exact Or.inl ⟨0, hFor⟩
  | authorized => exact Or.inr (Or.inl ⟨0, hFor⟩)
  | settled => exact Or.inr (Or.inr hFor)
  | failed =>
    rcases hFor with ⟨n, hTypes⟩ | ⟨n, hTypes⟩
    · exact Or.inl ⟨n + 1, hTypes⟩
    · exact Or.inr (Or.inl ⟨n + 1, hTypes⟩)

theorem LegalTypes.of_settled (hLegal : LegalTypes types)
    (hSettled : eventPaymentSettled ∈ types) : eventPaymentAuthorized ∈ types ∧
    eventPaymentFailed ∉ types := by
  have hNot : ∀ n, eventPaymentSettled ∉ List.replicate n eventPaymentFailed := by
    intro n hMem
    exact absurd (List.eq_of_mem_replicate hMem) (by decide)
  rcases hLegal with ⟨n, rfl⟩ | ⟨n, rfl⟩ | rfl
  · rcases List.mem_cons.mp hSettled with hEq | hMem
    · exact absurd hEq (by decide)
    · exact absurd hMem (hNot n)
  · rcases List.mem_cons.mp hSettled with hEq | hRest
    · exact absurd hEq (by decide)
    · rcases List.mem_cons.mp hRest with hEq | hMem
      · exact absurd hEq (by decide)
      · exact absurd hMem (hNot n)
  · decide

end Fincore.Payment

----
-- Streams That Were Lived
----

namespace Fincore

/- The types of an aggregate's events, in order. -/
def Database.typesOf (db : Database) (aggregateID : String) : List String :=
  (db.rowsOf aggregateID).map (fun row => row.event.type)

namespace Payment

/- The payment as its whole stream makes it. -/
def replayed (db : Database) (paymentID : String) : Except GoError Payment :=
  applyEvents zero ((db.rowsOf paymentID).map EventRow.event)

/- A stream without events, or one that was lived. -/
def Lives (db : Database) (paymentID : String) : Prop :=
  db.rowsOf paymentID = [] ∨ ∃ p, replayed db paymentID = .ok p ∧
      Lived (db.typesOf paymentID) p.status

/- The row goes on with the life of payment `p`: it is the next one, and `ev` is the event in it. -/
structure Lawful (db : Database) (row : EventRow) (p : Payment) (ev : DomainEvent) : Prop where
  version : row.event.version = (db.rowsOf row.event.aggregateID).length + 1
  replayed : replayed db row.event.aggregateID = .ok p
  decoded : unmarshalPaymentEvent row.event.type row.event.data = .ok ev
  lived : Lived (db.typesOf row.event.aggregateID ++ [row.event.type]) ev.leadsTo

theorem lives_of_events {db db' : Database} (hEvents : db'.events = db.events)
    {paymentID : String} (hLives : Lives db paymentID) : Lives db' paymentID := by
  unfold Lives replayed Database.typesOf Database.rowsOf at hLives ⊢
  rw [hEvents]
  exact hLives

section

variable {db db' : Database} {row : EventRow} {p : Payment} {ev : DomainEvent}

theorem Lawful.replayed_append (hLawful : Lawful db row p ev)
    (hEvents : db'.events = db.events ++ [row]) :
    Payment.replayed db' row.event.aggregateID = .ok (p.apply ev) := by
  unfold Payment.replayed
  rw [rowsOf_append_self hEvents, List.map_append]
  exact applyEvents_append hLawful.replayed hLawful.decoded

theorem Lawful.apply_version (hLawful : Lawful db row p ev) :
    (p.apply ev).version = row.event.version := by
  have hVersion := (applyEvents_ok hLawful.replayed).1
  rw [List.length_map] at hVersion
  rw [Payment.apply_version, hVersion, hLawful.version]
  exact congrArg (· + 1) (Nat.zero_add _)

theorem Lawful.lives (hLawful : Lawful db row p ev)
    (hEvents : db'.events = db.events ++ [row]) {paymentID : String}
    (hLives : Lives db paymentID) : Lives db' paymentID := by
  by_cases hSame : row.event.aggregateID = paymentID
  · subst hSame
    right
    refine ⟨p.apply ev, hLawful.replayed_append hEvents, ?_⟩
    unfold Database.typesOf
    rw [rowsOf_append_self hEvents, List.map_append, apply_status]
    exact hLawful.lived
  · unfold Lives Payment.replayed Database.typesOf at hLives ⊢
    rw [rowsOf_append_ne hEvents hSame]
    exact hLives

end

theorem loaded_eq {db : Database} (hNumbered : Numbered db)
    (paymentID : String) : loaded db paymentID = applyEvents zero
    (((db.rowsOf paymentID).take 10000).map EventRow.event) := by
  unfold loaded
  rw [hNumbered.stream_eq_drop, List.drop_zero]

end Payment

end Fincore

----
-- What Is Kept
----

namespace Fincore.Payment

/- A row is stored under the payment it names. -/
def Named (db : Database) : Prop :=
  ∀ paymentID cur, db.payments paymentID = some cur → cur.paymentID = paymentID

/- Events are added, rows stay and keep their payment. -/
structure Kept (db db' : Database) : Prop where
  grows : db.Grows db'
  payments : ∀ paymentID cur, db.payments paymentID = some cur →
      ∃ cur', db'.payments paymentID = some cur' ∧ cur'.paymentID = cur.paymentID

theorem Kept.refl (db : Database) : Kept db db := ⟨.refl db, fun _ cur hRow => ⟨cur, hRow, rfl⟩⟩

theorem Kept.trans (db₁ db₂ db₃ : Database) (hFirst : Kept db₁ db₂)
    (hSecond : Kept db₂ db₃) : Kept db₁ db₃ := by
  refine ⟨hFirst.grows.trans hSecond.grows, ?_⟩
  intro paymentID cur hRow
  rcases hFirst.payments paymentID cur hRow with ⟨cur', hRow', hSame⟩
  rcases hSecond.payments paymentID cur' hRow' with ⟨cur'', hRow'', hSame'⟩
  exact ⟨cur'', hRow'', hSame'.trans hSame⟩

theorem kept_tick (s : Stmt) (db : Database) : Kept db (postgres.tick s db) := by
  refine ⟨grows_tick s db, ?_⟩
  intro paymentID cur hRow
  refine ⟨cur, ?_, rfl⟩
  rw [tick_payments]
  exact hRow

/- One row is written, and no other. -/
def Upserts (db db' : Database) (cur : PaymentProjection) : Prop :=
  ∀ paymentID, db'.payments paymentID =
    if paymentID = cur.paymentID then some cur
    else db.payments paymentID

variable {cur : PaymentProjection}

theorem Upserts.named {db db' : Database}
    (hUpserts : Upserts db db' cur) (hNamed : Named db) : Named db' := by
  intro paymentID row hRow
  rw [hUpserts] at hRow
  split at hRow
  · rename_i hSame
    cases hRow
    exact hSame.symm
  · exact hNamed paymentID row hRow

theorem Upserts.kept {db db' : Database}
    (hUpserts : Upserts db db' cur) (hNamed : Named db) (hGrows : db.Grows db') : Kept db db' := by
  refine ⟨hGrows, ?_⟩
  intro paymentID row hRow
  by_cases hSame : paymentID = cur.paymentID
  · refine ⟨cur, ?_, ?_⟩
    · rw [hUpserts, if_pos hSame]
    · rw [hNamed paymentID row hRow]
      exact hSame.symm
  · refine ⟨row, ?_, rfl⟩
    rw [hUpserts, if_neg hSame]
    exact hRow

/- The payment that a command is about, if it names one. -/
def PaymentTx.subject : PaymentTx → Option String
| .create _ _ => none
| .record paymentID _ _ => some paymentID
| .authorize paymentID _ _ => some paymentID
| .settle paymentID _ _ => some paymentID
| .fail paymentID _ _ _ => some paymentID

/- The payment whose workflow it records. -/
def PaymentTx.records : PaymentTx → Option String
| .record paymentID _ _ => some paymentID
| _ => none

/-
  What holds between any two steps of the service: the transactions commit as they say, every stream
  is numbered and was lived, and every row has a stream.
-/
structure LifecycleInv (cfg : PaymentCalls) : Prop where
  indexed : Indexed cfg
  guarded : postgres.Guarded (fun _ => .of Kept Kept.refl Kept.trans) (fun c => c.Post Kept) cfg
  numbered : Numbered cfg.db
  lives : ∀ paymentID, Lives cfg.db paymentID
  named : Named cfg.db
  known : ∀ paymentID cur, cfg.db.payments paymentID = some cur → cfg.db.rowsOf paymentID ≠ []

----
-- Commits
----

/- A transition is committed on the payment of the stream. -/
structure MovedOn (db : Database) (paymentID : String) (env : Env)
    (allowed : Status → Prop) (next : Status) (ws : List Write) : Prop where
  known : db.rowsOf paymentID ≠ []
  whole : ∃ p ev cur sequence began, replayed db paymentID = .ok p ∧
        p.version = (db.rowsOf paymentID).length ∧ allowed p.status ∧ ev.leadsTo = next ∧
        ev.withoutMoney = ev ∧ cur.paymentID = paymentID ∧ ws =
          (Raise.mk paymentID p ev env).writes cur sequence began

section

variable {cfg : PaymentCalls} {i : Nat} {c : PaymentTx}
variable {t : Engine.Txn Stmt Resp Write GoError PaymentAnswer}

variable {sequence : Nat}

/-
  No event has come in between loading the payment and the commit: it would have taken the version.
-/
theorem LifecycleInv.loaded_whole (hInv : LifecycleInv cfg)
    (hCall : cfg.Running i c t) {first : Database} (hGrows : first.Grows cfg.db)
    {rs : Raise} (hLoaded : loaded first rs.paymentID = .ok rs.payment)
    (hEvent : .event ⟨sequence, rs.event⟩ ∈ t.writes) :
    first.rowsOf rs.paymentID = cfg.db.rowsOf rs.paymentID ∧
    replayed cfg.db rs.paymentID = .ok rs.payment ∧ rs.payment.version =
    (cfg.db.rowsOf rs.paymentID).length := by
  rw [loaded_eq (hGrows.numbered hInv.numbered)] at hLoaded
  -- as many events as were read are there now
  have hVersion : rs.payment.version = min 10000 (first.rowsOf rs.paymentID).length := by
    rw [(applyEvents_ok hLoaded).1, List.length_map, List.length_take]
    exact Nat.zero_add _
  have hPrefix := (hGrows.rowsOf rs.paymentID).length_le
  have hLength : (cfg.db.rowsOf rs.paymentID).length =
      rs.payment.version := by
    refine hInv.indexed.next hInv.numbered hCall hEvent rs.version_eq ?_
    show rs.payment.version ≤ (cfg.db.rowsOf rs.paymentID).length
    omega
  have hRows : first.rowsOf rs.paymentID = cfg.db.rowsOf rs.paymentID := hGrows.rowsOf_eq (by omega)
  rw [hRows, List.take_of_length_le (by omega)] at hLoaded
  exact ⟨hRows, hLoaded, hLength.symm⟩

variable {paymentID : String}

variable {env : Env} {allowed : Status → Prop} {a : PaymentAnswer} {next : Status}

theorem LifecycleInv.moved (hInv : LifecycleInv cfg) (hCall : cfg.Running i c t)
    (hMoved : Moved Kept paymentID env allowed next cfg.db t.writes a) :
    MovedOn cfg.db paymentID env allowed next t.writes := by
  rcases hMoved.explained with
    ⟨first, second, p, ev, cur, sequence, began, hFirst,
      hSecond, hLoaded, hAllowed, hNext, hMoney, hRow, hWrites, _⟩
  -- the row that was read is still there
  rcases hSecond.payments paymentID cur hRow with ⟨cur', hRow', hSame⟩
  have hKnown := hInv.known paymentID cur' hRow'
  have hName : cur.paymentID = paymentID := by
    rw [← hSame]
    exact hInv.named paymentID cur' hRow'
  have hEvent : .event ⟨sequence, (Raise.mk paymentID p ev env).event⟩ ∈
      t.writes := by
    rw [hWrites]
    exact List.mem_cons_self
  rcases hInv.loaded_whole hCall (hFirst.grows.trans hSecond.grows) hLoaded hEvent with
    ⟨_, hReplayed, hVersion⟩
  exact ⟨hKnown, p, ev, cur, sequence, began, hReplayed,
    hVersion, hAllowed, hNext, hMoney, hName, hWrites⟩

theorem LifecycleInv.created (hInv : LifecycleInv cfg)
    (hCall : cfg.Running i c t) {cmd : InitiatePayment}
    (hEvent : .event ⟨sequence, (cmd.creation env).event⟩ ∈ t.writes) :
    cfg.db.rowsOf (env.newID 0) = [] ∧ Lawful cfg.db ⟨sequence, (cmd.creation env).event⟩ zero
    (cmd.initiated env).withoutMoney := by
  have hLength : (cfg.db.rowsOf (env.newID 0)).length = 0 :=
    hInv.indexed.next hInv.numbered hCall hEvent rfl (Nat.zero_le _)
  have hNone := List.length_eq_zero_iff.mp hLength
  refine ⟨hNone, ?_, ?_, ?_, ?_⟩
  · show 1 = (cfg.db.rowsOf (env.newID 0)).length + 1
    rw [hLength]
  · show applyEvents zero ((cfg.db.rowsOf (env.newID 0)).map _) = _
    rw [hNone]
    rfl
  · exact unmarshalPaymentEvent_document (cmd.initiated env)
  · show Lived ((cfg.db.rowsOf (env.newID 0)).map _ ++ _) _
    rw [hNone]
    exact Lived.initiated

/-
  What a transaction commits: a row of its payment with an event that goes on with its life, or with
  no event.
-/
structure Continues (db : Database) (c : PaymentTx) (ws : List Write)
    (cur : PaymentProjection) : Prop where
  upserts : Upserts db (postgres.view db ws) cur
  subject : ∀ paymentID, c.subject = some paymentID →
      cur.paymentID = paymentID ∧ db.rowsOf paymentID ≠ []
  fresh : c.subject = none → db.rowsOf cur.paymentID = []
  event :
    (∃ row p ev, c.records = none ∧ ws.filterMap Write.event? = [row] ∧
      row.event.aggregateID = cur.paymentID ∧ Lawful db row p ev ∧
      cur.status = ev.leadsTo.text ∧ cur.version = row.event.version) ∨
    (ws.filterMap Write.event? = [] ∧ c.records = some cur.paymentID)

theorem LifecycleInv.continues_moved (hInv : LifecycleInv cfg) (hCall : cfg.Running i c t)
    (hSubject : c.subject = some paymentID) (hRecords : c.records = none)
    (hMoved : Moved Kept paymentID env allowed next cfg.db t.writes a)
    (hMay : ∀ status, allowed status → status.May next) :
    ∃ cur, Continues cfg.db c t.writes cur := by
  have hOn := hInv.moved hCall hMoved
  rcases hOn.whole with
    ⟨p, ev, cur, sequence, began, hReplayed, hVersion, hAllowed, hNext, hMoney, hName, hWrites⟩
  have hLived : Lived (cfg.db.typesOf paymentID) p.status := by
    rcases hInv.lives paymentID with hNone | ⟨p', hReplayed', hLived⟩
    · exact absurd hNone hOn.known
    · rw [hReplayed] at hReplayed'
      cases hReplayed'
      exact hLived
  have hMayNext : p.status.May ev.leadsTo := by
    rw [hNext]
    exact hMay p.status hAllowed
  refine ⟨(Raise.mk paymentID p ev env).projection cur, ?_, ?_, ?_, Or.inl
      ⟨⟨sequence, (Raise.mk paymentID p ev env).event⟩, p, ev, hRecords, ?_, ?_,
        ⟨?_, hReplayed, ?_, .next ev hLived hMayNext⟩, ?_, rfl⟩⟩
  · rw [hWrites]
    exact fun _ => rfl
  · intro id hID
    rw [hSubject] at hID
    cases hID
    exact ⟨hName, hOn.known⟩
  · intro hNone
    rw [hSubject] at hNone
    cases hNone
  · rw [hWrites]
    rfl
  · exact hName.symm
  · show (Raise.mk paymentID p ev env).version = (cfg.db.rowsOf paymentID).length + 1
    rw [Raise.version_eq, hVersion]
  · show unmarshalPaymentEvent ev.eventType ev.document = .ok ev
    rw [unmarshalPaymentEvent_document, hMoney]
  · show (p.apply ev).status.text = _
    rw [apply_status]

theorem LifecycleInv.continues (hInv : LifecycleInv cfg)
    (hCall : cfg.Running i c t) {b : PaymentAnswer} (hProg : t.prog = .ret b) :
    ∃ cur, Continues cfg.db c t.writes cur := by
  have hPost := hInv.guarded.post hCall hProg
  cases c with
  | create cmd env =>
    rcases hPost with ⟨_, _, sequence, began, hWrites⟩
    have hEvent : .event ⟨sequence, (cmd.creation env).event⟩ ∈
        t.writes := by
      rw [hWrites]
      exact List.mem_cons_of_mem _ List.mem_cons_self
    rcases hInv.created hCall hEvent with ⟨hNone, hLawful⟩
    refine ⟨cmd.projection env, ?_, ?_, fun _ => hNone,
      Or.inl ⟨_, _, _, rfl, ?_, rfl, hLawful, rfl, rfl⟩⟩
    · rw [hWrites]
      exact fun _ => rfl
    · intro id hID
      cases hID
    · rw [hWrites]
      rfl
  | record paymentID workflowID runID =>
    rcases hPost with ⟨_, before, cur, hKept, hRow, hWrites⟩
    rcases hKept.payments paymentID cur hRow with ⟨cur', hRow', hSame⟩
    have hName : cur.paymentID = paymentID := by
      rw [← hSame]
      exact hInv.named paymentID cur' hRow'
    refine ⟨{ cur with
      temporalWorkflowID := workflowID
      temporalRunID := runID }, ?_, ?_, ?_, Or.inr ⟨?_, ?_⟩⟩
    · rw [hWrites]
      exact fun _ => rfl
    · intro id hID
      cases hID
      exact ⟨hName, hInv.known paymentID cur' hRow'⟩
    · intro hNone
      cases hNone
    · rw [hWrites]
      rfl
    · exact congrArg some hName.symm
  | authorize paymentID key env =>
    exact hInv.continues_moved hCall rfl rfl hPost (fun _ hIs => hIs)
  | settle paymentID key env =>
    exact hInv.continues_moved hCall rfl rfl hPost (fun _ hIs => hIs)
  | fail paymentID key reason env =>
    exact hInv.continues_moved hCall rfl rfl hPost (fun _ hIs => hIs)

theorem subject_of_records {c : PaymentTx}
    (hRecords : c.records = some paymentID) : c.subject = some paymentID := by
  cases c with
  | record id workflowID runID => exact hRecords
  | _ => cases hRecords

end

----
-- The Lifecycle In Every Run
----

theorem lifecycleInv_start (schema : Schema) : LifecycleInv
    (PaymentCalls.start (Database.empty schema)) := by
  refine ⟨indexed_start _, ?_, numbered_empty schema, ?_, ?_, ?_⟩
  · intro i c t hCall
    cases hCall
  · intro paymentID
    exact Or.inl rfl
  · intro paymentID cur hRow
    cases hRow
  · intro paymentID cur hRow
    cases hRow

variable {a : Engine.Action PaymentTx}

theorem lifecycleInv_step {cfg cfg' : PaymentCalls} (hInv : LifecycleInv cfg)
    (hStep : paymentStep cfg a = some cfg') : LifecycleInv cfg' := by
  have hIndexed := indexed_step hInv.indexed hStep
  have hGuarded : postgres.Guarded (fun _ => .of Kept Kept.refl Kept.trans)
        (fun c => c.Post Kept) cfg' := by
    apply Engine.guarded_step _ _ _ hInv.guarded hStep
    · intro c
      exact c.prog_wp Kept.refl Kept.trans kept_tick _ _
    · intro c t s db
      exact kept_tick s db
    · intro i c t b j c' t' _ _ hCall hProg _
      rcases hInv.continues hCall hProg with ⟨cur, hContinues⟩
      exact hContinues.upserts.kept hInv.named (grows_view _ _)
  rcases Engine.step_quiet_or_commit hStep with hQuiet | ⟨i, c, t, b, r, hCall, hProg, _, _, rfl⟩
  · have hEvents : cfg'.db.events = cfg.db.events := hQuiet.observe tick_events
    have hPayments : cfg'.db.payments = cfg.db.payments := hQuiet.observe tick_payments
    refine ⟨hIndexed, hGuarded, numbered_of_events hEvents hInv.numbered, ?_, ?_, ?_⟩
    · intro paymentID
      exact lives_of_events hEvents (hInv.lives paymentID)
    · unfold Named
      rw [hPayments]
      exact hInv.named
    · unfold Database.rowsOf
      rw [hPayments, hEvents]
      exact hInv.known
  · rcases hInv.continues hCall hProg with ⟨cur, hContinues⟩
    have hEvents : (cfg.commit postgres i c t.writes r).db.events =
        cfg.db.events ++ t.writes.filterMap Write.event? := view_events cfg.db t.writes
    have hNamed := hContinues.upserts.named hInv.named
    -- a row is the one just written, or was there before
    have hKnown : (cfg.commit postgres i c t.writes r).db.rowsOf
        cur.paymentID ≠ [] → ∀ paymentID cur',
        (cfg.commit postgres i c t.writes r).db.payments paymentID = some cur' →
        (cfg.commit postgres i c t.writes r).db.rowsOf paymentID ≠ [] := by
      intro hWritten paymentID cur' hCur
      have hCur := (hContinues.upserts paymentID).symm.trans hCur
      split at hCur
      · rename_i hIs
        rw [hIs]
        exact hWritten
      · intro hNone
        refine hInv.known paymentID cur' hCur ?_
        rw [rowsOf_append hEvents] at hNone
        exact (List.append_eq_nil_iff.mp hNone).1
    rcases hContinues.event with ⟨row, p, ev, _, hOne, hSame, hLawful, _, _⟩ | ⟨hNone, hRecords⟩
    · rw [hOne] at hEvents
      refine ⟨hIndexed, hGuarded,
        hInv.numbered.append hEvents hLawful.version, ?_, hNamed, hKnown ?_⟩
      · intro paymentID
        exact hLawful.lives hEvents (hInv.lives paymentID)
      · rw [← hSame, rowsOf_append_self hEvents]
        simp
    · rw [hNone, List.append_nil] at hEvents
      refine ⟨hIndexed, hGuarded, numbered_of_events hEvents hInv.numbered, ?_, hNamed, hKnown ?_⟩
      · intro paymentID
        exact lives_of_events hEvents (hInv.lives paymentID)
      · unfold Database.rowsOf
        rw [hEvents]
        exact (hContinues.subject _ (subject_of_records hRecords)).2

theorem lifecycleInv_run {schema : Schema}
    {schedule : List (Engine.Action PaymentTx)} {cfg : PaymentCalls}
    (hRun : Transition.run paymentStep
    (PaymentCalls.start (Database.empty schema)) schedule = some cfg) : LifecycleInv cfg := by
  apply Transition.run_induction _ _ hRun
  · intro s a s' hInv hStep
    exact lifecycleInv_step hInv hStep
  · exact lifecycleInv_start schema

theorem LifecycleInv.unknown_unchanged {cfg cfg' : PaymentCalls} (hInv : LifecycleInv cfg)
    (hStep : paymentStep cfg a = some cfg') {i : Nat} {c : PaymentTx}
    {paymentID : String} (hCaller : a.caller? = some i)
    (hInput : cfg.input? i = some c) (hSubject : c.subject = some paymentID)
    (hUnknown : cfg.db.rowsOf paymentID = []) : cfg'.db.core = cfg.db.core := by
  rcases Engine.step_quiet_or_commit hStep with
    hQuiet | ⟨j, c', t, b, r, hCall, hProg, hAction, _, _⟩
  · exact hQuiet.observe core_tick
  · have hSame : j = i := by
      rcases hAction with rfl | rfl <;> exact Option.some.inj hCaller
    subst hSame
    rw [hCall.input?_eq] at hInput
    cases hInput
    rcases hInv.continues hCall hProg with ⟨cur, hContinues⟩
    exact absurd hUnknown (hContinues.subject paymentID hSubject).2

/-
  In every run of the service, each stream has the versions from one on and one of the three forms;
  what was settled was authorized and never failed; and the steps of a command on an unknown payment
  store nothing.
-/
theorem payment_lifecycle (schema : Schema)
    (schedule : List (Engine.Action PaymentTx)) (cfg : PaymentCalls)
    (hRun : Transition.run paymentStep
      (PaymentCalls.start (Database.empty schema)) schedule = some cfg) :
    (∀ paymentID, (cfg.db.rowsOf paymentID).map (fun row => row.event.version) =
      List.range' 1 (cfg.db.rowsOf paymentID).length ∧
      (cfg.db.rowsOf paymentID = [] ∨ LegalTypes (cfg.db.typesOf paymentID)) ∧
      (eventPaymentSettled ∈ cfg.db.typesOf paymentID →
      eventPaymentAuthorized ∈ cfg.db.typesOf paymentID ∧ eventPaymentFailed ∉
      cfg.db.typesOf paymentID)) ∧ ∀ a cfg' i c paymentID, paymentStep cfg a = some cfg' →
      a.caller? = some i → cfg.input? i = some c →
      c.subject = some paymentID → cfg.db.rowsOf paymentID = [] → cfg'.db.core = cfg.db.core := by
  have hInv := lifecycleInv_run hRun
  refine ⟨?_, ?_⟩
  · intro paymentID
    refine ⟨hInv.numbered paymentID, ?_⟩
    rcases hInv.lives paymentID with hNone | ⟨p, _, hLived⟩
    · refine ⟨Or.inl hNone, ?_⟩
      intro hSettled
      unfold Database.typesOf at hSettled
      rw [hNone] at hSettled
      cases hSettled
    · exact ⟨Or.inr hLived.legal, hLived.legal.of_settled⟩
  · intro a cfg' i c paymentID hStep hCaller hInput hSubject hUnknown
    exact hInv.unknown_unchanged hStep hCaller hInput hSubject hUnknown

/- A transition by itself, from its start to its commit. -/
def wholeTransition (i : Nat) (c : PaymentTx) : List (Engine.Action PaymentTx) :=
  [.start c, .exec i, .exec i, .exec i, .exec i, .exec i, .finish i]

/- A payment is created, authorized and settled. -/
def settledInFull : List (Engine.Action PaymentTx) :=
  [.start (.create ⟨"A-0", "B-0", ⟨100, NGN⟩, "rent", "pay"⟩ (.tagged "P")),
    .exec 0, .exec 0, .exec 0, .finish 0] ++
  wholeTransition 1 (.authorize "P-0" "a" (.tagged "a")) ++
  wholeTransition 2 (.settle "P-0" "s" (.tagged "s"))

theorem settled_in_full_lifecycle : ∃ cfg, Transition.run paymentStep
      (PaymentCalls.start (Database.empty paymentMigrations))
      settledInFull = some cfg ∧ cfg.db.rowsOf "P-0" ≠ [] ∧
      (cfg.db.rowsOf "P-0" = [] ∨ LegalTypes (cfg.db.typesOf "P-0")) := by
  refine ⟨_, rfl, by decide, ?_⟩
  have hLife := payment_lifecycle paymentMigrations settledInFull _ rfl
  exact (hLife.1 "P-0").2.1

end Fincore.Payment
