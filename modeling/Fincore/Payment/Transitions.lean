import Fincore.Payment.Handlers

/-
  What authorizing, settling and failing do to a payment's stream and to its projection.

  Key definitions include:
    * `loaded`
    * `InOrder`
    * `Raise`
    * `Leads`
    * `Standing`

  Main results:
    * `transition_standing`
    * `failPayment_standing`
-/

----
-- Loading
----

namespace Fincore.Payment

/- The payment as `LoadPayment` finds it. -/
def loaded (db : Database) (paymentID : String) : Except GoError Payment :=
  applyEvents zero (((db.stream paymentID 0).take 10000).map EventRow.event)

/- A payment whose events are numbered from one on. -/
structure InOrder (db : Database) (paymentID : String) (status : Status) (count : Nat) : Prop where
  loads : ∃ p, loaded db paymentID = .ok p ∧ p.status = status
  versions : (db.stream paymentID 0).map (fun row => row.event.version) = List.range' 1 count

theorem apply_version (p : Payment) (e : DomainEvent) : (p.apply e).version = p.version + 1 := by
  cases e <;> rfl

theorem apply_changes (p : Payment) (e : DomainEvent) : (p.apply e).changes = p.changes := by
  cases e <;> rfl

variable {es : List Event}

/- Loading counts the events and raises none. -/
theorem applyEvents_ok {p p' : Payment}
    (hEvents : applyEvents p es = .ok p') : p'.version = p.version + es.length ∧
    p'.changes = p.changes := by
  induction es generalizing p with
  | nil =>
    cases hEvents
    exact ⟨rfl, rfl⟩
  | cons e es ih =>
    unfold applyEvents at hEvents
    cases hEvent : unmarshalPaymentEvent e.type e.data with
    | error e =>
      rw [hEvent] at hEvents
      cases hEvents
    | ok ev =>
      rw [hEvent] at hEvents
      rcases ih hEvents with ⟨hVersion, hChanges⟩
      rw [apply_version] at hVersion
      rw [apply_changes] at hChanges
      refine ⟨?_, hChanges⟩
      rw [hVersion, List.length_cons]
      omega

theorem applyEvents_append {p p' : Payment}
    (hEvents : applyEvents p es = .ok p') {e : Event} {ev : DomainEvent}
    (hEvent : unmarshalPaymentEvent e.type e.data = .ok ev) :
    applyEvents p (es ++ [e]) = .ok (p'.apply ev) := by
  induction es generalizing p with
  | nil =>
    cases hEvents
    simp only [List.nil_append, applyEvents, hEvent]
    rfl
  | cons first es ih =>
    unfold applyEvents at hEvents
    rw [List.cons_append]
    unfold applyEvents
    cases hFirst : unmarshalPaymentEvent first.type first.data with
    | error e =>
      rw [hFirst] at hEvents
      cases hEvents
    | ok ev₁ =>
      rw [hFirst] at hEvents
      exact ih hEvents

section

variable {db : Database} {paymentID : String} {status : Status} {count : Nat}

theorem InOrder.length_stream (hOrder : InOrder db paymentID status count) :
    (db.stream paymentID 0).length = count := by
  have hLength := congrArg List.length hOrder.versions
  rw [List.length_map, List.length_range'] at hLength
  exact hLength

theorem InOrder.version_le (hOrder : InOrder db paymentID status count)
    {row : EventRow} (hMem : row ∈ db.events) (hSame : row.event.aggregateID = paymentID) :
    row.event.version ≤ count := by
  by_cases hZero : row.event.version = 0
  · rw [hZero]
    exact Nat.zero_le count
  · have hRow : row ∈ db.stream paymentID 0 :=
      mem_stream.mpr ⟨hMem, hSame, Nat.pos_of_ne_zero hZero⟩
    have hVersion := List.mem_map_of_mem (f := fun row => row.event.version) hRow
    rw [hOrder.versions, List.mem_range'_1] at hVersion
    omega

theorem InOrder.loaded_version (hOrder : InOrder db paymentID status count)
    {p : Payment} (hLoaded : loaded db paymentID = .ok p) :
    p.version = min 10000 count ∧ p.changes = [] := by
  rcases applyEvents_ok hLoaded with ⟨hVersion, hChanges⟩
  rw [List.length_map, List.length_take, hOrder.length_stream] at hVersion
  refine ⟨?_, hChanges⟩
  rw [hVersion]
  exact Nat.zero_add _

theorem InOrder.of_core {db' : Database} (hCore : db'.core = db.core)
    (hOrder : InOrder db paymentID status count) : InOrder db' paymentID status count := by
  have hSame : InOrder db.core paymentID status count := ⟨hOrder.loads, hOrder.versions⟩
  rw [← hCore] at hSame
  exact ⟨hSame.loads, hSame.versions⟩

end

----
-- Raising An Event
----

/- The event a handler raises on a loaded payment. -/
structure Raise where
  paymentID : String
  payment : Payment
  raised : DomainEvent
  env : Env

namespace Raise

variable (rs : Raise)

def version : Nat := (rs.payment.apply rs.raised).version

theorem version_eq : rs.version = rs.payment.version + 1 := apply_version rs.payment rs.raised

def status : Status := (rs.payment.apply rs.raised).status

def event : Event where
  id := rs.env.newID 0
  aggregateID := rs.paymentID
  aggregateType := "payment"
  version := rs.version
  type := rs.raised.eventType
  occurredAt := rs.raised.occurredAtUTC
  data := rs.raised.document

def message : Message where
  id := rs.env.newID 1
  topic := paymentEventsTopicV1
  key := rs.paymentID
  value :=
    Outbox.envelopeDocument rs.raised.eventType rs.paymentID
      "payment" rs.version rs.raised.occurredAtUTC rs.raised.document
  headers := Outbox.envelopeHeaders rs.raised.eventType rs.paymentID "payment"

def projection (cur : PaymentProjection) : PaymentProjection :=
  { cur with
    status := rs.status.text
    version := rs.version }

/- The rows of one transition. -/
def writes (cur : PaymentProjection) (sequence began : Nat) : List Write :=
  [.event ⟨sequence, rs.event⟩, .payment (rs.projection cur), .message ⟨rs.message, began, none⟩]

/- The statements after the payment was loaded. -/
def raising : Tx TransitionResult :=
  .ask (.insertEvent rs.event (some "append events"))
    (fun _ =>
      .ask (.selectPayment rs.paymentID) (fun row =>
        match row with
        | none => .fail (.text "payment not found")
        | some cur =>
          .ask (.upsertPayment (rs.projection cur))
            (fun _ =>
              .ask (.insertMessage rs.message none)
                (fun _ =>
                  .ret ⟨rs.paymentID, rs.version, rs.status⟩))))

end Raise

section

variable {paymentID key : String} {act : Payment → Env → Except GoError Payment}
variable {expected : DomainEvent → Bool} {env : Env}

theorem transition_eq (hID : paymentID ≠ "") (hKey : key ≠ "") :
    transition paymentID key act expected env = loadPayment paymentID >>=
    transitionFrom paymentID act expected env := by
  unfold transition
  rw [if_neg hID, if_neg hKey]

theorem transitionFrom_eq {p : Payment} {ev : DomainEvent}
    (hChanges : p.changes = []) (hAct : act p env = .ok (p.raise ev))
    (hExpected : expected ev = true) (hInstant : Json.TimeInRange ev.occurredAtUTC) :
    transitionFrom paymentID act expected env p = (Raise.mk paymentID p ev env).raising := by
  have hRaised : (p.raise ev).changes = [ev] := by
    show (p.apply ev).changes ++ [ev] = [ev]
    rw [apply_changes, hChanges]
    rfl
  have hMarshal : ev.marshal = .ok ev.document := by
    rw [DomainEvent.marshal_eq]
    exact if_pos hInstant
  unfold transitionFrom
  rw [hAct]
  simp only [Prog.ofExcept_ok, Prog.ret_bind, hRaised, hExpected, hMarshal,
    Outbox.envelope_of_inRange hInstant]
  refine congrArg (Prog.ask _) (funext ?_)
  intro _
  refine congrArg (Prog.ask _) (funext ?_)
  intro row
  cases row with
  | none => rfl
  | some cur => rfl

end

----
-- Loading In A Transaction
----

section

variable {α : Type} {db : Database} {paymentID : String} {began : Nat} {k : Payment → Tx α}

theorem exec_stream (hSchema : db.schema = paymentMigrations) :
    postgres.exec began (.selectEvents paymentID 0 10000) db =
    .ok ((db.stream paymentID 0).take 10000, []) := Stmt.exec_of_answer hSchema rfl rfl

theorem serial_load (hSchema : db.schema = paymentMigrations) {p : Payment}
    (hLoaded : loaded db paymentID = .ok p) :
    postgres.serial began (loadPayment paymentID >>= k) [] db =
      postgres.serial began (k p) [] { db with clock := db.clock + 1 } := by
  show postgres.serial began
    (.ask (.selectEvents paymentID 0 10000) fun rows =>
      Prog.ofExcept (applyEvents zero (rows.map EventRow.event)) >>= k) [] db = _
  simp only [Engine.serial, Engine.view_nil, exec_stream hSchema]
  show postgres.serial began (Prog.ofExcept (loaded db paymentID) >>= k) [] _ = _
  rw [hLoaded]
  rfl

end

section

variable {db : Database} {paymentID key : String} {act : Payment → Env → Except GoError Payment}
variable {expected : DomainEvent → Bool} {env : Env} {p : Payment} {began : Nat}

theorem ticked_load (db : Database) (paymentID : String) :
    postgres.Ticked db { db with clock := db.clock + 1 } :=
  .tick (.selectEvents paymentID 0 0) (.refl _)

/- The checks in front only add failures. -/
theorem aborts_of_load
    (hLoad : paymentID ≠ "" → postgres.Aborts began
    (loadPayment paymentID >>= transitionFrom paymentID act expected env)
    [] db) : postgres.Aborts began (transition paymentID key act expected env) [] db := by
  unfold transition
  by_cases hID : paymentID = ""
  · rw [if_pos hID]
    exact .fail _ _ _
  by_cases hKey : key = ""
  · rw [if_neg hID, if_pos hKey]
    exact .fail _ _ _
  rw [if_neg hID, if_neg hKey]
  exact hLoad hID

theorem aborts_refused (hSchema : db.schema = paymentMigrations)
    (hLoaded : loaded db paymentID = .ok p) {e : GoError}
    (hAct : act p env = .error e) : postgres.Aborts began
    (transition paymentID key act expected env) [] db := by
  refine aborts_of_load ?_
  intro _
  refine .of_serial (ticked_load db paymentID) (serial_load hSchema hLoaded) ?_
  unfold transitionFrom
  rw [hAct]
  exact .fail _ _ _

variable {ev : DomainEvent} (hSchema : db.schema = paymentMigrations)
variable (hLoaded : loaded db paymentID = .ok p) (hChanges : p.changes = [])
variable (hAct : act p env = .ok (p.raise ev)) (hExpected : expected ev = true)
variable (hInstant : Json.TimeInRange ev.occurredAtUTC)

include hSchema hLoaded hChanges hAct hExpected hInstant

/- The payment has no projection, or the version is taken: the event is refused or rolled back. -/
theorem aborts_unrecorded
    (hNot : paymentID = "" ∨ db.payments paymentID = none ∨ ∃ row ∈ db.events,
    row.event.aggregateID = paymentID ∧ row.event.version = p.version + 1) : postgres.Aborts began
    (transition paymentID key act expected env) [] db := by
  refine aborts_of_load ?_
  intro hID
  refine .of_serial (ticked_load db paymentID) (serial_load hSchema hLoaded) ?_
  rw [transitionFrom_eq hChanges hAct hExpected hInstant]
  unfold Raise.raising
  cases hInsert : postgres.exec began
        (.insertEvent (Raise.mk paymentID p ev env).event
          (some "append events")) { db with clock := db.clock + 1 } with
  | error e => exact .refused hInsert
  | ok answer =>
    rcases answer with ⟨r, ws⟩
    rcases Stmt.exec_insertEvent hInsert with ⟨_, hFree, rfl⟩
    have hNone : db.payments paymentID = none := by
      rcases hNot.resolve_left hID with hNone | hTaken
      · exact hNone
      · rcases hTaken with ⟨row, hMem, hSame, hVersion⟩
        refine absurd ⟨hSame, ?_⟩ (hFree row hMem)
        rw [hVersion]
        exact (apply_version p ev).symm
    have hSelect : postgres.exec began (.selectPayment paymentID) db = .ok (none, []) := by
      refine Stmt.exec_of_answer hSchema rfl ?_
      rw [← hNone]
      rfl
    refine .ask hInsert (.ask hSelect ?_)
    exact .fail _ _ _

theorem commits_raising (hID : paymentID ≠ "") (hKey : key ≠ "")
    (hFree : ∀ row ∈ db.events, row.event.aggregateID = paymentID →
    row.event.version ≠ p.version + 1) {cur : PaymentProjection}
    (hRow : db.payments paymentID = some cur) (hEvent : db.Unused (env.newID 0))
    (hMessage : db.Unused (env.newID 1)) : postgres.Commits began
    (transition paymentID key act expected env) [] db
    ⟨paymentID, p.version + 1, (p.apply ev).status⟩
    ((Raise.mk paymentID p ev env).writes cur (db.sequence + 1) began) := by
  have hSelect : postgres.exec began (.selectPayment paymentID) db = .ok (some cur, []) := by
    refine Stmt.exec_of_answer hSchema rfl ?_
    rw [← hRow]
    rfl
  rw [transition_eq hID hKey]
  refine .of_serial (ticked_load db paymentID) (serial_load hSchema hLoaded) ?_
  rw [transitionFrom_eq hChanges hAct hExpected hInstant, ← apply_version p ev]
  unfold Raise.raising
  refine Engine.Commits.ask
    (Stmt.exec_of_answer hSchema rfl (Stmt.answer_insertEvent _ hEvent.event ?_)) ?_
  · intro row hMem hSame
    have hOther := hFree row hMem hSame
    rw [← apply_version p ev] at hOther
    exact hOther
  refine Engine.Commits.ask hSelect ?_
  refine Engine.Commits.ask (Stmt.exec_of_answer hSchema rfl rfl) ?_
  refine Engine.Commits.ask
    (Stmt.exec_of_answer hSchema rfl (Stmt.answer_insertMessage none hMessage.message)) ?_
  exact .ret _ _ _

end

----
-- What A Transition Leaves
----

/- The databases before and after a transition. -/
structure Raise.Recorded (rs : Raise) (cur : PaymentProjection) (db db' : Database) : Prop where
  schema : db'.schema = db.schema
  events : ∃ sequence, db'.events = db.events ++ [⟨sequence, rs.event⟩]
  outbox : ∃ began, db'.outbox = db.outbox ++ [⟨rs.message, began, none⟩]
  payments : ∀ id, db'.payments id =
      if id = cur.paymentID then some (rs.projection cur)
      else db.payments id

theorem Raise.recorded_of_core {rs : Raise} {cur : PaymentProjection}
    {db db' : Database} {sequence began : Nat}
    (hCore : db'.core = postgres.view db.core (rs.writes cur sequence began)) :
    rs.Recorded cur db db' := by
  have hRecorded : rs.Recorded cur db.core (postgres.view db.core (rs.writes cur sequence began)) :=
    ⟨rfl, ⟨sequence, rfl⟩, ⟨began, rfl⟩, fun _ => rfl⟩
  rw [← hCore] at hRecorded
  exact ⟨hRecorded.schema, hRecorded.events, hRecorded.outbox, hRecorded.payments⟩

section

variable {rs : Raise} {cur : PaymentProjection} {db db' : Database} {status : Status} {count : Nat}

theorem Raise.Recorded.uses (hRecorded : rs.Recorded cur db db') : Database.Uses rs.env db db' := by
  intro id hOther hUnused
  rcases hRecorded.events with ⟨sequence, hEvents⟩
  rcases hRecorded.outbox with ⟨began, hOutbox⟩
  exact hUnused.append hEvents hOutbox (hOther 0) (hOther 1)

theorem Raise.Recorded.stream_concat (hRecorded : rs.Recorded cur db db')
    (hOrder : InOrder db rs.paymentID status count)
    (hVersion : rs.version = count + 1) : ∃ sequence,
    db'.stream rs.paymentID 0 = db.stream rs.paymentID 0 ++ [⟨sequence, rs.event⟩] := by
  rcases hRecorded.events with ⟨sequence, hEvents⟩
  refine ⟨sequence, stream_append hEvents ?_ ?_⟩
  · intro old hMem hSame
    have hOld := hOrder.version_le hMem hSame
    show old.event.version < rs.version
    omega
  · show 0 < rs.version
    omega

theorem Raise.Recorded.versions (hRecorded : rs.Recorded cur db db')
    (hOrder : InOrder db rs.paymentID status count)
    (hVersion : rs.version = count + 1) : (db'.stream rs.paymentID 0).map
    (fun row => row.event.version) = List.range' 1 (count + 1) := by
  rcases hRecorded.stream_concat hOrder hVersion with ⟨sequence, hStream⟩
  have hLast : rs.event.version = 1 + count := by
    show rs.version = 1 + count
    omega
  rw [hStream, List.map_append, hOrder.versions,
    List.range'_1_concat, List.map_cons, List.map_nil, hLast]

/- While the whole stream is read, the status follows. -/
theorem Raise.Recorded.inOrder (hRecorded : rs.Recorded cur db db')
    (hOrder : InOrder db rs.paymentID status count)
    (hLoaded : loaded db rs.paymentID = .ok rs.payment)
    (hMoney : rs.raised.withoutMoney = rs.raised) (hShort : count < 10000) :
    InOrder db' rs.paymentID rs.status (count + 1) := by
  have hVersion : rs.version = count + 1 := by
    rw [rs.version_eq, (hOrder.loaded_version hLoaded).1]
    omega
  refine ⟨?_, hRecorded.versions hOrder hVersion⟩
  refine ⟨rs.payment.apply rs.raised, ?_, rfl⟩
  rcases hRecorded.stream_concat hOrder hVersion with ⟨sequence, hStream⟩
  have hEvent : unmarshalPaymentEvent rs.event.type rs.event.data = .ok rs.raised := by
    rw [← hMoney]
    exact unmarshalPaymentEvent_document rs.raised
  have hLength := hOrder.length_stream
  unfold loaded at hLoaded ⊢
  rw [List.take_of_length_le (by omega)] at hLoaded
  rw [hStream, List.take_of_length_le (by
    rw [List.length_append, List.length_singleton]
    omega), List.map_append]
  exact applyEvents_append hLoaded hEvent

/- After that, it does not. -/
theorem Raise.Recorded.inOrder_unread (hRecorded : rs.Recorded cur db db')
    (hOrder : InOrder db rs.paymentID status count)
    (hLoaded : loaded db rs.paymentID = .ok rs.payment)
    (hFull : count = 10000) : InOrder db' rs.paymentID status (count + 1) := by
  have hVersion : rs.version = count + 1 := by
    rw [rs.version_eq, (hOrder.loaded_version hLoaded).1]
    omega
  refine ⟨?_, hRecorded.versions hOrder hVersion⟩
  rcases hRecorded.stream_concat hOrder hVersion with ⟨sequence, hStream⟩
  have hLength := hOrder.length_stream
  have hSame : loaded db' rs.paymentID = loaded db rs.paymentID := by
    unfold loaded
    rw [hStream, List.take_append_of_le_length (by omega)]
  rw [hSame]
  exact hOrder.loads

end

----
-- The Three Handlers
----

/-
  A method of the aggregate that is allowed in some states and raises the one event that leads to
  the next.
-/
structure Leads (act : Payment → Env → Except GoError Payment)
    (expected : DomainEvent → Bool) (allowed : Status → Prop) (next : Status) : Prop where
  refuses : ∀ p env, ¬ allowed p.status → ∃ e, act p env = .error e
  raises : ∀ p env, allowed p.status → ∃ ev, act p env = .ok (p.raise ev) ∧
        expected ev = true ∧ ev.occurredAtUTC = env.now ∧
        ev.withoutMoney = ev ∧ (p.apply ev).status = next

theorem authorize_leads : Leads authorize isAuthorized (· = .initiated)
    .authorized := by
  refine ⟨?_, ?_⟩
  · intro p env hNot
    exact ⟨_, if_pos hNot⟩
  · intro p env hAllowed
    exact ⟨.paymentAuthorized p.id env.now, if_neg (not_not_intro hAllowed), rfl, rfl, rfl, rfl⟩

theorem settle_leads : Leads settle isSettled (· = .authorized) .settled := by
  refine ⟨?_, ?_⟩
  · intro p env hNot
    exact ⟨_, if_pos hNot⟩
  · intro p env hAllowed
    exact ⟨.paymentSettled p.id env.now, if_neg (not_not_intro hAllowed), rfl, rfl, rfl, rfl⟩

theorem fail_leads (reason : String) : Leads (fun p env => p.fail (trimSpace reason) env)
    isFailed (· ≠ .settled) .failed := by
  refine ⟨?_, ?_⟩
  · intro p env hNot
    exact ⟨_, if_pos (not_not.mp hNot)⟩
  · intro p env hAllowed
    exact ⟨_, if_neg hAllowed, rfl, rfl, rfl, rfl⟩

/- Events that can still be read after as many events. -/
def Status.room : Status → Nat
| .unset => 1
| .initiated => 2
| .authorized => 1
| .settled => 0
| .failed => 0

/- A payment in a status, its projection with it. `shown` says that the projection is there. -/
structure Standing (db : Database) (paymentID : String) (shown : Bool)
    (status : Status) : Prop where
  schema : db.schema = paymentMigrations
  order : ∃ count, InOrder db paymentID status count ∧
      (0 < status.room → count + status.room ≤ 10000)
  projected : ∀ cur, db.payments paymentID = some cur →
      cur.paymentID = paymentID ∧ cur.status = status.text
  shown : (db.payments paymentID).isSome = shown

theorem Standing.projected_status {db : Database} {paymentID : String}
    {shown : Bool} {status : Status} (hStanding : Standing db paymentID shown status) :
    (db.payments paymentID).map (fun row => row.status) =
      if shown then some status.text else none := by
  have hShown := hStanding.shown
  cases hRow : db.payments paymentID with
  | none =>
    rw [hRow] at hShown
    rw [← hShown]
    rfl
  | some row =>
    rw [hRow] at hShown
    rw [← hShown]
    show some row.status = some status.text
    rw [(hStanding.projected row hRow).2]

theorem Standing.of_core {db db' : Database} (hCore : db'.core = db.core)
    {paymentID : String} {shown : Bool} {status : Status}
    (hStanding : Standing db paymentID shown status) : Standing db' paymentID shown status := by
  have hPayments : db'.payments = db.payments := by
    show db'.core.payments = db.core.payments
    rw [hCore]
  refine ⟨?_, ?_, ?_, ?_⟩
  · show db'.core.schema = paymentMigrations
    rw [hCore]
    exact hStanding.schema
  · rcases hStanding.order with ⟨count, hOrder, hRoom⟩
    exact ⟨count, hOrder.of_core hCore, hRoom⟩
  · rw [hPayments]
    exact hStanding.projected
  · rw [hPayments]
    exact hStanding.shown

section

variable {db : Database} {paymentID key : String} {shown : Bool} {status next : Status}
variable {act : Payment → Env → Except GoError Payment} {expected : DomainEvent → Bool}
variable {allowed : Status → Prop} {env : Env}

theorem transition_aborts (key : String) (hLeads : Leads act expected allowed next)
    (hStanding : Standing db paymentID shown status) (hTime : Json.TimeInRange env.now)
    (hNot : ¬ ((paymentID ≠ "" ∧ shown = true) ∧ allowed status)) :
    (∃ e, (postgres.withTx (transition paymentID key act expected env) db).1 = .error e) ∧
    (postgres.withTx (transition paymentID key act expected env) db).2.core = db.core := by
  refine Engine.Aborts.withTx core_tick ?_
  rcases hStanding.order with ⟨count, hOrder, _⟩
  rcases hOrder.loads with ⟨p, hLoaded, rfl⟩
  by_cases hAllowed : allowed p.status
  · rcases hLeads.raises p env hAllowed with ⟨ev, hAct, hExpected, hInstant, _, _⟩
    refine aborts_unrecorded hStanding.schema hLoaded
      (hOrder.loaded_version hLoaded).2 hAct hExpected (by rw [hInstant]; exact hTime) ?_
    by_cases hID : paymentID = ""
    · exact Or.inl hID
    · right
      left
      cases hRow : db.payments paymentID with
      | none => rfl
      | some cur =>
        refine absurd ⟨⟨hID, ?_⟩, hAllowed⟩ hNot
        rw [← hStanding.shown, hRow]
        rfl
  · rcases hLeads.refuses p env hAllowed with ⟨e, hAct⟩
    exact aborts_refused hStanding.schema hLoaded hAct

/- A projection of the payment stays its projection. -/
theorem Raise.Recorded.standing {rs : Raise} {cur : PaymentProjection}
    {db' : Database} {count : Nat} (hRecorded : rs.Recorded cur db db')
    (hStanding : Standing db rs.paymentID shown status) (hRow : db.payments rs.paymentID = some cur)
    (hOrder : InOrder db' rs.paymentID rs.status count)
    (hRoom : 0 < rs.status.room → count + rs.status.room ≤ 10000) :
    Standing db' rs.paymentID shown rs.status := by
  have hKeyed := (hStanding.projected cur hRow).1
  have hNew : db'.payments rs.paymentID = some (rs.projection cur) := by
    rw [hRecorded.payments, if_pos hKeyed.symm]
  refine ⟨?_, ⟨count, hOrder, hRoom⟩, ?_, ?_⟩
  · exact hRecorded.schema.trans hStanding.schema
  · intro cur' hRow'
    rw [hNew, Option.some.injEq] at hRow'
    rw [← hRow']
    exact ⟨hKeyed, rfl⟩
  · rw [← hStanding.shown, hRow, hNew]
    rfl

/- What is known of a transition that is recorded. -/
structure Raise.Of (rs : Raise) (db db' : Database) (paymentID : String)
    (next : Status) (env : Env) : Prop where
  samePayment : rs.paymentID = paymentID
  sameEnv : rs.env = env
  toNext : rs.status = next
  noMoney : rs.raised.withoutMoney = rs.raised
  fromLoaded : loaded db paymentID = .ok rs.payment
  recorded : ∃ cur, db.payments paymentID = some cur ∧ rs.Recorded cur db db'

section

variable (hLeads : Leads act expected allowed next) (hStanding : Standing db paymentID true status)
variable (hTime : Json.TimeInRange env.now) (hAllowed : allowed status) (hID : paymentID ≠ "")
variable (hKey : key ≠ "") (hEvent : db.Unused (env.newID 0)) (hMessage : db.Unused (env.newID 1))

include hLeads hStanding hTime hAllowed hID hKey hEvent
include hMessage

/- An allowed transition is recorded while it can be read. -/
theorem transition_recorded {count : Nat}
    (hOrder : InOrder db paymentID status count) (hCount : count ≤ 10000) :
    (∃ res, (postgres.withTx (transition paymentID key act expected env) db).1 =
    .ok res) ∧ ∃ rs : Raise, rs.Of db
    (postgres.withTx (transition paymentID key act expected env) db).2 paymentID next env := by
  rcases hOrder.loads with ⟨p, hLoaded, rfl⟩
  rcases hOrder.loaded_version hLoaded with ⟨hVersion, hChanges⟩
  rcases hLeads.raises p env hAllowed with ⟨ev, hAct, hExpected, hInstant, hMoney, hNext⟩
  rcases Option.isSome_iff_exists.mp hStanding.shown with ⟨cur, hRow⟩
  have hFree : ∀ row ∈ db.events, row.event.aggregateID = paymentID →
      row.event.version ≠ p.version + 1 := by
    intro row hMem hSame
    have hLe := hOrder.version_le hMem hSame
    omega
  have hCommits : postgres.Commits (postgres.now db)
      (transition paymentID key act expected env) [] db
      _ _ :=
    commits_raising hStanding.schema hLoaded hChanges hAct
      hExpected (by rw [hInstant]; exact hTime) hID hKey hFree hRow hEvent hMessage
  rcases hCommits.withTx core_tick core_apply with ⟨hOk, hCore⟩
  exact ⟨⟨_, hOk⟩, ⟨paymentID, p, ev, env⟩, rfl, rfl, hNext,
    hMoney, hLoaded, cur, hRow, Raise.recorded_of_core hCore⟩

theorem transition_commits (hRoom : next.room < status.room) :
    (∃ res, (postgres.withTx (transition paymentID key act expected env) db).1 = .ok res) ∧ Standing
    (postgres.withTx (transition paymentID key act expected env) db).2
    paymentID true next ∧ Database.Uses env db
    (postgres.withTx (transition paymentID key act expected env) db).2 := by
  rcases hStanding.order with ⟨count, hOrder, hRead⟩
  have hRead := hRead (Nat.zero_lt_of_lt hRoom)
  rcases transition_recorded hLeads hStanding hTime hAllowed
      hID hKey hEvent hMessage hOrder (by omega) with ⟨hOk, rs, hOf⟩
  rcases hOf with ⟨rfl, rfl, rfl, hMoney, hLoaded, cur, hRow, hRecorded⟩
  refine ⟨hOk, ?_, hRecorded.uses⟩
  refine hRecorded.standing hStanding hRow (hRecorded.inOrder hOrder hLoaded hMoney (by omega)) ?_
  intro _
  omega

end

section

variable (hLeads : Leads act expected allowed status)
  (hStanding : Standing db paymentID true status)
  (hTime : Json.TimeInRange env.now) (hAllowed : allowed status)
  (hID : paymentID ≠ "") (hKey : key ≠ "") (hEvent : db.Unused (env.newID 0))
  (hMessage : db.Unused (env.newID 1))

include hLeads hStanding hTime hAllowed hID hKey hEvent
include hMessage

theorem transition_again (hFinal : status.room = 0) : Standing
    (postgres.withTx (transition paymentID key act expected env) db).2
    paymentID true status ∧ Database.Uses env db
    (postgres.withTx (transition paymentID key act expected env) db).2 := by
  rcases hStanding.order with ⟨count, hOrder, _⟩
  by_cases hCount : count ≤ 10000
  · rcases transition_recorded hLeads hStanding hTime
        hAllowed hID hKey hEvent hMessage hOrder hCount with ⟨_, rs, hOf⟩
    rcases hOf with ⟨rfl, rfl, rfl, hMoney, hLoaded, cur, hRow, hRecorded⟩
    have hNoRoom : 0 < rs.status.room → count + 1 + rs.status.room ≤ 10000 := by
      omega
    refine ⟨?_, hRecorded.uses⟩
    by_cases hFull : count = 10000
    · exact hRecorded.standing hStanding hRow
        (hRecorded.inOrder_unread hOrder hLoaded hFull) hNoRoom
    · exact hRecorded.standing hStanding hRow
        (hRecorded.inOrder hOrder hLoaded hMoney (by omega)) hNoRoom
  · -- the version after the events it reads is taken
    rcases hOrder.loads with ⟨p, hLoaded, rfl⟩
    rcases hOrder.loaded_version hLoaded with ⟨hVersion, hChanges⟩
    rcases hLeads.raises p env hAllowed with ⟨ev, hAct, hExpected, hInstant, _, _⟩
    have hTaken : ∃ row ∈ db.events, row.event.aggregateID = paymentID ∧
        row.event.version = p.version + 1 := by
      have hMem : p.version + 1 ∈ List.range' 1 count := by
        rw [List.mem_range'_1]
        omega
      rw [← hOrder.versions, List.mem_map] at hMem
      rcases hMem with ⟨row, hRow, hSame⟩
      rcases mem_stream.mp hRow with ⟨hIn, hStream, _⟩
      exact ⟨row, hIn, hStream, hSame⟩
    have hCore :
        (postgres.withTx (transition paymentID key act expected env) db).2.core = db.core :=
      (Engine.Aborts.withTx core_tick
        (aborts_unrecorded hStanding.schema hLoaded hChanges
          hAct hExpected (by rw [hInstant]; exact hTime) (Or.inr (Or.inr hTaken)))).2
    exact ⟨hStanding.of_core hCore, Database.uses_of_core env hCore⟩

end

/-
  A transition out of a state that it does not come back to succeeds exactly on a payment that is
  shown in that state.
-/
theorem transition_standing (hLeads : Leads act expected allowed next)
    (hStanding : Standing db paymentID shown status)
    (hTime : Json.TimeInRange env.now) (hKey : key ≠ "")
    (hEvent : db.Unused (env.newID 0)) (hMessage : db.Unused (env.newID 1))
    (hRoom : allowed status → next.room < status.room) {known : Prop}
    [Decidable (known ∧ allowed status)] (hKnown : known ↔ paymentID ≠ "" ∧ shown = true) :
    ((∃ res, (postgres.withTx (transition paymentID key act expected env) db).1 =
          .ok res) ↔ known ∧ allowed status) ∧ Standing
        (postgres.withTx (transition paymentID key act expected env) db).2
        paymentID shown (if known ∧ allowed status then next else status) ∧ Database.Uses env db
        (postgres.withTx (transition paymentID key act expected env) db).2 := by
  by_cases hGoes : known ∧ allowed status
  · rcases hKnown.mp hGoes.1 with ⟨hID, rfl⟩
    rcases transition_commits hLeads hStanding hTime
        hGoes.2 hID hKey hEvent hMessage (hRoom hGoes.2) with ⟨hOk, hNext, hUses⟩
    rw [if_pos hGoes]
    exact ⟨iff_of_true hOk hGoes, hNext, hUses⟩
  · have hNot := hGoes
    rw [hKnown] at hNot
    rcases transition_aborts key hLeads hStanding hTime hNot with ⟨⟨e, hError⟩, hCore⟩
    rw [if_neg hGoes]
    refine ⟨iff_of_false ?_ hGoes, hStanding.of_core hCore, Database.uses_of_core env hCore⟩
    rintro ⟨res, hOk⟩
    rw [hError] at hOk
    cases hOk

end

section

variable {db : Database} {paymentID key : String} {shown : Bool} {status : Status} {env : Env}

/- A payment that is not settled ends up failed. -/
theorem failPayment_standing (hStanding : Standing db paymentID shown status)
    (reason : String) (hTime : Json.TimeInRange env.now) (hKey : key ≠ "")
    (hEvent : db.Unused (env.newID 0)) (hMessage : db.Unused (env.newID 1))
    {known : Prop} [Decidable (known ∧ status ≠ .settled)]
    (hKnown : known ↔ paymentID ≠ "" ∧ shown = true) : Standing
        (postgres.withTx (failPayment paymentID key reason env) db).2 paymentID shown
        (if known ∧ status ≠ .settled then .failed
          else status) ∧ Database.Uses env db
        (postgres.withTx (failPayment paymentID key reason env) db).2 := by
  by_cases hFailed : known ∧ status = .failed
  · rcases hFailed with ⟨hIs, rfl⟩
    rcases hKnown.mp hIs with ⟨hID, rfl⟩
    rw [if_pos ⟨hIs, by decide⟩]
    exact transition_again (fail_leads reason) hStanding
      hTime (by decide) hID hKey hEvent hMessage rfl
  · by_cases hIs : known
    · have hRoom : status ≠ .settled → Status.failed.room < status.room := by
        intro hOpen
        have hOther : status ≠ .failed := fun hSame => hFailed ⟨hIs, hSame⟩
        cases status with
        | settled => exact absurd rfl hOpen
        | failed => exact absurd rfl hOther
        | _ => decide
      exact (transition_standing (fail_leads reason)
        hStanding hTime hKey hEvent hMessage hRoom hKnown).2
    · have hNot : ¬ ((paymentID ≠ "" ∧ shown = true) ∧ status ≠ .settled) := by
        rw [← hKnown]
        exact fun hBoth => hIs hBoth.1
      have hCore : (postgres.withTx (failPayment paymentID key reason env) db).2.core = db.core :=
        (transition_aborts key (fail_leads reason) hStanding hTime hNot).2
      rw [if_neg (fun hBoth => hIs hBoth.1)]
      exact ⟨hStanding.of_core hCore, Database.uses_of_core env hCore⟩

end

end Fincore.Payment
