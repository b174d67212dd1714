import Fincore.Account.Handlers

/-
  What recording a movement does to an account's stream.

  Every recorded movement adds one event, and every fiftieth a snapshot, so that an account in order
  stays in order: it loads, it is active, and the next version is free.

  Key definitions include:
    * `loaded` and `Active`
    * `InOrder` and `Standing`

  Main results:
    * `recordMovement_standing`
-/

----
-- Loading
----

namespace Fincore.Account

/- The version after which `LoadAccount` reads. -/
def fromVersion : Option Snapshot → Nat
| none => 0
| some snap => snap.version

/- The account on which it replays what it reads. -/
def State.restore (s : State) : Account := ⟨s.accountID, s.customerID, s.status, s.version, []⟩

def base : Option Snapshot → Except GoError Account
| none => .ok zero
| some snap =>
  ((State.unmarshal snap.data).mapError .text).map State.restore

/- The account after these rows. -/
def replayed (ag : Account) (rows : List EventRow) : Except GoError Account :=
  (unmarshalEvents (rows.map EventRow.event)).map (fun des => des.foldl replay ag)

/- The rows `LoadAccount` could read. -/
def tail (db : Database) (accountID : String) : List EventRow :=
  db.stream accountID (fromVersion (db.latestSnapshot accountID))

/- The account as `LoadAccount` finds it. -/
def loaded (db : Database) (accountID : String) : Except GoError Account := do
  let ag ← base (db.latestSnapshot accountID)
  replayed ag ((tail db accountID).take 10000)

/- With or without a snapshot, the same statements. -/
theorem loadAccount_eq (accountID : String) : loadAccount accountID =
      .ask (.selectLatestSnapshot accountID) (fun latest =>
      Prog.ofExcept (base latest) >>= fun ag =>
      .ask (.selectEvents accountID (fromVersion latest) 10000)
      (fun rows => Prog.ofExcept (replayed ag rows))) := by
  refine congrArg (Prog.ask _) (funext ?_)
  intro latest
  cases latest with
  | none =>
    refine congrArg (Prog.ask _) (funext ?_)
    intro rows
    exact Prog.ofExcept_map _ _
  | some snap =>
    show (Prog.ofExcept _ >>= _) = (Prog.ofExcept (Except.map State.restore _) >>= _)
    cases (State.unmarshal snap.data).mapError GoError.text with
    | error e => rfl
    | ok state =>
      refine congrArg (Prog.ask _) (funext ?_)
      intro rows
      exact Prog.ofExcept_map _ _

/- The account loads, and it is active. -/
def Active (db : Database) (accountID : String) : Prop :=
  ∃ ag, loaded db accountID = .ok ag ∧ ag.status = statusActive

instance (db : Database) (accountID : String) : Decidable (Active db accountID) :=
  match hLoaded : loaded db accountID with
  | .ok ag =>
    decidable_of_iff (ag.status = statusActive) (by
      unfold Active
      rw [hLoaded]
      simp)
  | .error _ =>
    .isFalse (by
      unfold Active
      rw [hLoaded]
      simp)

section

variable {α : Type} {db : Database} {accountID : String} {began : Nat} {k : Account → Tx α}

theorem exec_latestSnapshot (hSchema : db.schema = accountMigrations) :
    postgres.exec began (.selectLatestSnapshot accountID) db =
    .ok (db.latestSnapshot accountID, []) := Stmt.exec_of_answer hSchema rfl rfl

theorem exec_tail (hSchema : db.schema = accountMigrations) (version : Nat) :
    postgres.exec began (.selectEvents accountID version 10000) db =
    .ok ((db.stream accountID version).take 10000, []) := Stmt.exec_of_answer hSchema rfl rfl

theorem serial_load (hSchema : db.schema = accountMigrations) {ag : Account}
    (hLoaded : loaded db accountID = .ok ag) :
    postgres.serial began (loadAccount accountID >>= k) [] db = postgres.serial began (k ag) []
      { db with clock := db.clock + 1 + 1 } := by
  rw [loadAccount_eq, Prog.ask_bind]
  simp only [Engine.serial, Engine.view_nil, exec_latestSnapshot hSchema]
  unfold loaded tail at hLoaded
  cases hBase : base (db.latestSnapshot accountID) with
  | error e =>
    rw [hBase] at hLoaded
    cases hLoaded
  | ok start =>
    rw [hBase] at hLoaded
    have hRows : replayed start
        ((db.stream accountID (fromVersion (db.latestSnapshot accountID))).take 10000) =
        .ok ag := hLoaded
    have hTick :
        (postgres.tick (.selectLatestSnapshot accountID) db).schema = accountMigrations := hSchema
    simp only [Prog.ofExcept_ok, Prog.ret_bind, Prog.ask_bind, Engine.serial, List.append_nil,
      Engine.view_nil, exec_tail hTick]
    show postgres.serial began
      (Prog.ofExcept (replayed start
        ((db.stream accountID (fromVersion (db.latestSnapshot accountID))).take
              10000)) >>= k) [] _ = _
    rw [hRows]
    rfl

theorem aborts_load (hSchema : db.schema = accountMigrations) {e : GoError}
    (hLoaded : loaded db accountID = .error e) :
    postgres.Aborts began (loadAccount accountID >>= k) [] db := by
  rw [loadAccount_eq, Prog.ask_bind]
  refine Engine.Aborts.ask (exec_latestSnapshot hSchema) ?_
  unfold loaded tail at hLoaded
  show postgres.Aborts began ((Prog.ofExcept (base (db.latestSnapshot accountID)) >>= _) >>= k) [] _
  cases hBase : base (db.latestSnapshot accountID) with
  | error e => exact .fail _ _ _
  | ok start =>
    rw [hBase] at hLoaded
    have hRows : replayed start
        ((db.stream accountID (fromVersion (db.latestSnapshot accountID))).take 10000) =
        .error e := hLoaded
    have hTick :
        (postgres.tick (.selectLatestSnapshot accountID) db).schema = accountMigrations := hSchema
    refine Engine.Aborts.ask (exec_tail hTick _) ?_
    show postgres.Aborts began
      (Prog.ofExcept (replayed start
        ((db.stream accountID (fromVersion (db.latestSnapshot accountID))).take 10000)) >>= k) [] _
    rw [hRows]
    exact .fail _ _ _

end

----
-- Recording
----

/- What is recorded, once the account is loaded. -/
structure Record where
  kind : Movement
  cmd : MoneyCommand
  entryID : String
  env : Env
  ag : Account

namespace Record

variable (rec : Record)

def version : Nat := rec.ag.version + 1

def raised : DomainEvent := rec.kind.event rec.cmd rec.entryID rec.env.now

def event : Event where
  id := rec.env.newID 0
  aggregateID := rec.cmd.accountID
  aggregateType := "account"
  version := rec.version
  type := rec.raised.eventType
  occurredAt := rec.raised.occurredAtUTC
  data := rec.raised.document

def snapshot : Snapshot where
  aggregateID := rec.cmd.accountID
  aggregateType := "account"
  version := rec.version
  createdAt := rec.env.now
  data :=
    { rec.ag.snapshot with version := rec.version }.marshal

def projection : AccountProjection where
  accountID := rec.cmd.accountID
  customerID := rec.ag.customerID
  status := rec.ag.status
  version := rec.version

def message : Message where
  id := rec.env.newID 1
  topic := accountEventsTopicV1
  key := rec.cmd.accountID
  value :=
    Outbox.envelopeDocument rec.raised.eventType rec.cmd.accountID "account" rec.version
      rec.raised.occurredAtUTC rec.raised.document
  headers := Outbox.envelopeHeaders rec.raised.eventType rec.cmd.accountID "account"

/- Every fiftieth version has a snapshot. -/
def snapshots : List Snapshot :=
  if rec.version % 50 = 0 then [rec.snapshot] else []

/- The rows of one recorded movement. -/
def writes (sequence began : Nat) : List Write :=
  .event ⟨sequence, rec.event⟩ ::
    (rec.snapshots.map .snapshot ++ [.account rec.projection, .message ⟨rec.message, began, none⟩])

/- The statements that write. -/
def recording : Tx Unit :=
  .ask (.insertEvent rec.event (some "append account event")) (fun _ =>
    let rest : Tx Unit :=
      .ask (.upsertAccount rec.projection) (fun _ =>
        .ask (.insertMessage rec.message none) .ret)
    if rec.version % 50 = 0 then
      .ask (.insertSnapshot rec.snapshot) (fun _ => rest)
    else rest)

end Record

theorem event_occurredAt (kind : Movement) (cmd : MoneyCommand) (entryID : String) (now : Time) :
    (kind.event cmd entryID now).occurredAtUTC = now := by
  cases kind with
  | deposit => rfl
  | withdrawal => rfl

theorem recordMovement_eq (kind : Movement) (cmd : MoneyCommand)
    (entryID : String) {env : Env} (hTime : Json.TimeInRange env.now) :
    recordMovement kind cmd entryID env = loadAccount cmd.accountID >>= fun ag =>
        if ag.status ≠ statusActive then
          .fail errAccountNotActive
        else
          (Record.mk kind cmd entryID env ag).recording := by
  have hInstant : Json.TimeInRange (kind.event cmd entryID env.now).occurredAtUTC := by
    rw [event_occurredAt]
    exact hTime
  have hMarshal : (kind.event cmd entryID env.now).marshal =
      .ok (kind.event cmd entryID env.now).document := by
    rw [DomainEvent.marshal_eq]
    exact if_pos hInstant
  unfold recordMovement
  refine congrArg (loadAccount cmd.accountID >>= ·) (funext ?_)
  intro ag
  dsimp only
  rw [hMarshal]
  by_cases hActive : ag.status ≠ statusActive
  · rw [if_pos hActive, if_pos hActive]
  · rw [if_neg hActive, if_neg hActive]
    simp only [Outbox.envelope_of_inRange hInstant]
    rfl

/- An active account whose next version is free and whose unread tail is short enough to be read. -/
structure InOrder (db : Database) (accountID : String) (version : Nat) : Prop where
  loads : ∃ ag, loaded db accountID = .ok ag ∧ ag.status = statusActive ∧ ag.version = version
  events : ∀ row ∈ db.events, row.event.aggregateID = accountID → row.event.version ≤ version
  snapshots : ∀ s ∈ db.snapshots, s.aggregateID = accountID → s.version ≤ version
  recent : (tail db accountID).length ≤ 9951 + version % 50

variable {version : Nat}

theorem InOrder.of_core {db db' : Database} (hCore : db'.core = db.core)
    {accountID : String} (hOrder : InOrder db accountID version) :
    InOrder db' accountID version := by
  have hSame : InOrder db.core accountID version :=
    ⟨hOrder.loads, hOrder.events, hOrder.snapshots, hOrder.recent⟩
  rw [← hCore] at hSame
  exact ⟨hSame.loads, hSame.events, hSame.snapshots, hSame.recent⟩

theorem Record.commits_recording {rec : Record} {db : Database} {began : Nat}
    (hSchema : db.schema = accountMigrations) (hOrder : InOrder db rec.cmd.accountID rec.ag.version)
    (hEvent : db.Unused (rec.env.newID 0)) (hMessage : db.Unused (rec.env.newID 1)) :
    postgres.Commits began rec.recording [] db () (rec.writes (db.sequence + 1) began) := by
  unfold recording writes snapshots
  refine Engine.Commits.ask
    (Stmt.exec_of_answer hSchema rfl (Stmt.answer_insertEvent _ hEvent.event ?_)) ?_
  · intro row hMem hSame
    have hOld := hOrder.events row hMem hSame
    show row.event.version ≠ rec.ag.version + 1
    omega
  by_cases hFifty : rec.version % 50 = 0
  · rw [if_pos hFifty, if_pos hFifty]
    refine Engine.Commits.ask (Stmt.exec_of_answer hSchema rfl (Stmt.answer_insertSnapshot ?_)) ?_
    · intro s hMem hSame
      have hOld := hOrder.snapshots s hMem hSame
      show s.version ≠ rec.ag.version + 1
      omega
    refine Engine.Commits.ask (Stmt.exec_of_answer hSchema rfl rfl) ?_
    refine Engine.Commits.ask
      (Stmt.exec_of_answer hSchema rfl (Stmt.answer_insertMessage none hMessage.message)) ?_
    exact .ret _ _ _
  · rw [if_neg hFifty, if_neg hFifty]
    refine Engine.Commits.ask (Stmt.exec_of_answer hSchema rfl rfl) ?_
    refine Engine.Commits.ask
      (Stmt.exec_of_answer hSchema rfl (Stmt.answer_insertMessage none hMessage.message)) ?_
    exact .ret _ _ _

----
-- What A Record Leaves
----

variable {ev : DomainEvent}

theorem unmarshalEvents_append {es : List Event} {des : List DomainEvent}
    (hEvents : unmarshalEvents es = .ok des) {e : Event}
    (hEvent : unmarshalAccountEvent e.type e.data = .ok ev) :
    unmarshalEvents (es ++ [e]) = .ok (des ++ [ev]) := by
  induction es generalizing des with
  | nil =>
    cases hEvents
    simp only [List.nil_append, unmarshalEvents, hEvent]
    rfl
  | cons first es ih =>
    simp only [unmarshalEvents, List.cons_append] at hEvents ⊢
    cases hFirst : unmarshalAccountEvent first.type first.data with
    | error e =>
      rw [hFirst] at hEvents
      cases hEvents
    | ok ev₁ =>
      rw [hFirst] at hEvents
      cases hRest : unmarshalEvents es with
      | error e =>
        rw [hRest] at hEvents
        cases hEvents
      | ok rest =>
        rw [hRest] at hEvents
        cases hEvents
        rw [ih hRest]
        rfl

theorem replayed_append {start ag : Account} {rows : List EventRow}
    (hRows : replayed start rows = .ok ag) (row : EventRow)
    (hEvent : unmarshalAccountEvent row.event.type row.event.data = .ok ev) :
    replayed start (rows ++ [row]) = .ok (ag.replay ev) := by
  unfold replayed at hRows ⊢
  cases hEvents : unmarshalEvents (rows.map EventRow.event) with
  | error e =>
    rw [hEvents] at hRows
    cases hRows
  | ok des =>
    rw [hEvents] at hRows
    cases hRows
    rw [List.map_append, List.map_cons, List.map_nil, unmarshalEvents_append hEvents hEvent]
    simp [Except.map]

/- The movement comes back without its amount. -/
theorem Record.unmarshal_event (rec : Record) :
    unmarshalAccountEvent rec.event.type rec.event.data =
    .ok rec.raised.withoutMoney := unmarshalAccountEvent_document rec.raised

/- Movements count, and change nothing else. -/
theorem Record.replay_raised (rec : Record) (ag : Account) : ag.replay rec.raised.withoutMoney =
      { ag with version := ag.version + 1 } := by
  unfold Record.raised
  cases rec.kind with
  | deposit => rfl
  | withdrawal => rfl

/- The databases before and after a record. -/
structure Record.Recorded (rec : Record) (db db' : Database) : Prop where
  schema : db'.schema = db.schema
  events : ∃ sequence, db'.events = db.events ++ [⟨sequence, rec.event⟩]
  snapshots : db'.snapshots = db.snapshots ++ rec.snapshots
  outbox : ∃ began, db'.outbox = db.outbox ++ [⟨rec.message, began, none⟩]

theorem Record.recorded_of_core {rec : Record} {db db' : Database} {sequence began : Nat}
    (hCore : db'.core = postgres.view db.core (rec.writes sequence began)) :
    rec.Recorded db db' := by
  have hRecorded : rec.Recorded db.core (postgres.view db.core (rec.writes sequence began)) := by
    unfold Record.writes
    by_cases hFifty : rec.version % 50 = 0
    · have hSnapshots : rec.snapshots = [rec.snapshot] := if_pos hFifty
      refine ⟨?_, ⟨sequence, ?_⟩, ?_, ⟨began, ?_⟩⟩ <;> rw [hSnapshots] <;> rfl
    · have hSnapshots : rec.snapshots = [] := if_neg hFifty
      refine ⟨?_, ⟨sequence, ?_⟩, ?_, ⟨began, ?_⟩⟩ <;> rw [hSnapshots]
      · rfl
      · rfl
      · exact (List.append_nil _).symm
      · rfl
  rw [← hCore] at hRecorded
  exact ⟨hRecorded.schema, hRecorded.events, hRecorded.snapshots, hRecorded.outbox⟩

section

variable {rec : Record} {db db' : Database}

theorem Record.Recorded.loaded_other (hRecorded : rec.Recorded db db')
    {accountID : String} (hOther : rec.cmd.accountID ≠ accountID) :
    tail db' accountID = tail db accountID ∧ loaded db' accountID = loaded db accountID := by
  rcases hRecorded.events with ⟨sequence, hEvents⟩
  have hStream : ∀ version, db'.stream accountID version =
      db.stream accountID version := stream_append_other hEvents hOther
  have hLatest : db'.latestSnapshot accountID = db.latestSnapshot accountID := by
    have hSnapshots := hRecorded.snapshots
    unfold Record.snapshots at hSnapshots
    split at hSnapshots
    · exact latestSnapshot_append_other hSnapshots hOther
    · rw [List.append_nil] at hSnapshots
      unfold Database.latestSnapshot
      rw [hSnapshots]
  have hTail : tail db' accountID = tail db accountID := by
    unfold tail
    rw [hLatest, hStream]
  refine ⟨hTail, ?_⟩
  unfold loaded
  rw [hLatest, hTail]

variable {version : Nat}

theorem Record.Recorded.inOrder_other (hRecorded : rec.Recorded db db')
    {accountID : String} (hOther : rec.cmd.accountID ≠ accountID)
    (hOrder : InOrder db accountID version) : InOrder db' accountID version := by
  rcases hRecorded.loaded_other hOther with ⟨hTail, hLoaded⟩
  refine ⟨?_, ?_, ?_, ?_⟩
  · rw [hLoaded]
    exact hOrder.loads
  · rcases hRecorded.events with ⟨sequence, hEvents⟩
    intro row hMem hSame
    rw [hEvents] at hMem
    rcases List.mem_append.mp hMem with hOld | hNew
    · exact hOrder.events row hOld hSame
    · rw [List.mem_singleton.mp hNew] at hSame
      exact absurd hSame hOther
  · have hSnapshots := hRecorded.snapshots
    intro s hMem hSame
    rw [hSnapshots] at hMem
    rcases List.mem_append.mp hMem with hOld | hNew
    · exact hOrder.snapshots s hOld hSame
    · unfold Record.snapshots at hNew
      split at hNew
      · rw [List.mem_singleton.mp hNew] at hSame
        exact absurd hSame hOther
      · cases hNew
  · rw [hTail]
    exact hOrder.recent

theorem InOrder.fromVersion_le {accountID : String} (hOrder : InOrder db accountID version) :
    fromVersion (db.latestSnapshot accountID) ≤ version := by
  cases hLatest : db.latestSnapshot accountID with
  | none => exact Nat.zero_le version
  | some snap =>
    rcases latestSnapshot_mem hLatest with ⟨hMem, hSame⟩
    exact hOrder.snapshots snap hMem hSame

theorem Record.Recorded.tail_append (hRecorded : rec.Recorded db db')
    (hOrder : InOrder db rec.cmd.accountID rec.ag.version)
    (hFifty : rec.version % 50 ≠ 0) : db'.latestSnapshot rec.cmd.accountID =
    db.latestSnapshot rec.cmd.accountID ∧ ∃ sequence,
    tail db' rec.cmd.accountID = tail db rec.cmd.accountID ++ [⟨sequence, rec.event⟩] := by
  have hSnapshots : db'.snapshots = db.snapshots := by
    rw [hRecorded.snapshots, Record.snapshots, if_neg hFifty, List.append_nil]
  have hLatest : db'.latestSnapshot rec.cmd.accountID = db.latestSnapshot rec.cmd.accountID := by
    unfold Database.latestSnapshot
    rw [hSnapshots]
  rcases hRecorded.events with ⟨sequence, hEvents⟩
  refine ⟨hLatest, sequence, ?_⟩
  unfold tail
  rw [hLatest]
  refine stream_append hEvents ?_ ?_
  · intro old hMem hSame
    exact Nat.lt_succ_of_le (hOrder.events old hMem hSame)
  · exact Nat.lt_succ_of_le hOrder.fromVersion_le

/- At a snapshot nothing is left to be read. -/
theorem Record.Recorded.tail_nil (hRecorded : rec.Recorded db db')
    (hOrder : InOrder db rec.cmd.accountID rec.ag.version)
    (hFifty : rec.version % 50 = 0) : db'.latestSnapshot rec.cmd.accountID =
    some rec.snapshot ∧ tail db' rec.cmd.accountID = [] := by
  have hLatest : db'.latestSnapshot rec.cmd.accountID = some rec.snapshot := by
    have hSnapshots := hRecorded.snapshots
    rw [Record.snapshots, if_pos hFifty] at hSnapshots
    refine latestSnapshot_append hSnapshots ?_
    intro old hMem hSame
    exact Nat.lt_succ_of_le (hOrder.snapshots old hMem hSame)
  refine ⟨hLatest, ?_⟩
  unfold tail
  rw [hLatest, List.eq_nil_iff_forall_not_mem]
  intro row hMem
  rcases mem_stream.mp hMem with ⟨hRow, hSame, hAfter⟩
  have hVersion : rec.version < row.event.version := hAfter
  rcases hRecorded.events with ⟨sequence, hEvents⟩
  rw [hEvents] at hRow
  rcases List.mem_append.mp hRow with hOld | hNew
  · have hLe := hOrder.events row hOld hSame
    unfold Record.version at hVersion
    omega
  · rw [List.mem_singleton.mp hNew] at hVersion
    exact absurd hVersion (Nat.lt_irrefl _)

theorem Record.Recorded.loaded_next (hRecorded : rec.Recorded db db')
    (hOrder : InOrder db rec.cmd.accountID rec.ag.version)
    (hLoaded : loaded db rec.cmd.accountID = .ok rec.ag) :
    ∃ ag, loaded db' rec.cmd.accountID = .ok ag ∧ ag.status = rec.ag.status ∧
    ag.version = rec.version := by
  have hRecent := hOrder.recent
  by_cases hFifty : rec.version % 50 = 0
  · rcases hRecorded.tail_nil hOrder hFifty with ⟨hLatest, hTail⟩
    refine ⟨{ rec.ag with version := rec.version, changes := [] }, ?_, rfl, rfl⟩
    unfold loaded
    rw [hLatest, hTail]
    have hBase : base (some rec.snapshot) = .ok { rec.ag with
            version := rec.version, changes := [] } := by
      show Except.map State.restore
        (Except.mapError GoError.text (State.unmarshal (State.marshal _))) = _
      rw [State.unmarshal_marshal]
      rfl
    rw [hBase]
    rfl
  · rcases hRecorded.tail_append hOrder hFifty with ⟨hLatest, sequence, hTail⟩
    have hShort : (tail db rec.cmd.accountID).length < 10000 := by
      unfold Record.version at hFifty
      omega
    refine ⟨{ rec.ag with version := rec.version }, ?_, rfl, rfl⟩
    unfold loaded at hLoaded ⊢
    rw [hLatest, hTail]
    rw [List.take_of_length_le (Nat.le_of_lt hShort)] at hLoaded
    rw [List.take_of_length_le (by
      rw [List.length_append, List.length_singleton]
      omega)]
    cases hBase : base (db.latestSnapshot rec.cmd.accountID) with
    | error e =>
      rw [hBase] at hLoaded
      cases hLoaded
    | ok start =>
      rw [hBase] at hLoaded
      have hNext := replayed_append hLoaded ⟨sequence, rec.event⟩ rec.unmarshal_event
      rw [rec.replay_raised] at hNext
      exact hNext

theorem Record.Recorded.inOrder (hRecorded : rec.Recorded db db')
    (hOrder : InOrder db rec.cmd.accountID rec.ag.version)
    (hLoaded : loaded db rec.cmd.accountID = .ok rec.ag) (hActive : rec.ag.status = statusActive) :
    InOrder db' rec.cmd.accountID rec.version := by
  refine ⟨?_, ?_, ?_, ?_⟩
  · rcases hRecorded.loaded_next hOrder hLoaded with ⟨ag, hNext, hStatus, hVersion⟩
    exact ⟨ag, hNext, hStatus.trans hActive, hVersion⟩
  · rcases hRecorded.events with ⟨sequence, hEvents⟩
    intro row hMem hSame
    rw [hEvents] at hMem
    rcases List.mem_append.mp hMem with hOld | hNew
    · exact Nat.le_succ_of_le (hOrder.events row hOld hSame)
    · rw [List.mem_singleton.mp hNew]
      exact Nat.le_refl _
  · intro s hMem hSame
    rw [hRecorded.snapshots] at hMem
    rcases List.mem_append.mp hMem with hOld | hNew
    · exact Nat.le_succ_of_le (hOrder.snapshots s hOld hSame)
    · unfold Record.snapshots at hNew
      split at hNew
      · rw [List.mem_singleton.mp hNew]
        exact Nat.le_refl _
      · cases hNew
  · have hRecent := hOrder.recent
    by_cases hFifty : rec.version % 50 = 0
    · rw [(hRecorded.tail_nil hOrder hFifty).2]
      exact Nat.zero_le _
    · rcases (hRecorded.tail_append hOrder hFifty).2 with ⟨sequence, hTail⟩
      rw [hTail, List.length_append, List.length_singleton]
      unfold Record.version at hFifty ⊢
      omega

end

----
-- The Transaction
----

variable {db : Database} {kind : Movement} {cmd : MoneyCommand} {entryID : String} {env : Env}

theorem ticked_load (db : Database) (accountID : String) : postgres.Ticked db
      { db with clock := db.clock + 1 + 1 } :=
  .tick (.selectLatestSnapshot accountID) (.tick (.selectEvents accountID 0 0) (.refl _))

theorem recordMovement_commits (kind : Movement) (entryID : String)
    (hSchema : db.schema = accountMigrations) (hTime : Json.TimeInRange env.now)
    (hOrder : InOrder db cmd.accountID version)
    (hEvent : db.Unused (env.newID 0)) (hMessage : db.Unused (env.newID 1)) :
    (postgres.withTx (recordMovement kind cmd entryID env) db).1 = .ok () ∧
    ∃ rec : Record, rec.cmd = cmd ∧ rec.env = env ∧ rec.Recorded db
    (postgres.withTx (recordMovement kind cmd entryID env) db).2 ∧
    InOrder (postgres.withTx (recordMovement kind cmd entryID env) db).2
    cmd.accountID (version + 1) := by
  rcases hOrder.loads with ⟨ag, hLoaded, hActive, rfl⟩
  have hCommits : postgres.Commits (postgres.now db) (recordMovement kind cmd entryID env) [] db ()
      ((Record.mk kind cmd entryID env ag).writes (db.sequence + 1) (postgres.now db)) := by
    rw [recordMovement_eq kind cmd entryID hTime]
    refine .of_serial (ticked_load db cmd.accountID) (serial_load hSchema hLoaded) ?_
    rw [if_neg (not_not_intro hActive)]
    have hClock : ({ db with clock := db.clock + 1 + 1 } : Database).core = db.core := rfl
    exact Record.commits_recording hSchema
      (hOrder.of_core hClock) (hEvent.of_core hClock) (hMessage.of_core hClock)
  rcases hCommits.withTx core_tick core_apply with ⟨hOk, hCore⟩
  have hRecorded := Record.recorded_of_core hCore
  exact ⟨hOk, _, rfl, rfl, hRecorded, hRecorded.inOrder hOrder hLoaded hActive⟩

/- Otherwise nothing is. -/
theorem recordMovement_aborts (kind : Movement) (entryID : String)
    (hSchema : db.schema = accountMigrations) (hTime : Json.TimeInRange env.now)
    (hNot : ¬ Active db cmd.accountID) :
    (∃ e, (postgres.withTx (recordMovement kind cmd entryID env) db).1 = .error e) ∧
    (postgres.withTx (recordMovement kind cmd entryID env) db).2.core =
    db.core := by
  refine Engine.Aborts.withTx core_tick ?_
  rw [recordMovement_eq kind cmd entryID hTime]
  cases hLoaded : loaded db cmd.accountID with
  | error e => exact aborts_load hSchema hLoaded
  | ok ag =>
    have hInactive : ag.status ≠ statusActive := by
      intro hActive
      exact hNot ⟨ag, hLoaded, hActive⟩
    refine .of_serial (ticked_load db cmd.accountID) (serial_load hSchema hLoaded) ?_
    rw [if_pos hInactive]
    exact .fail _ _ _

theorem Record.Recorded.uses {rec : Record} {db' : Database}
    (hRecorded : rec.Recorded db db') : Database.Uses rec.env db db' := by
  intro id hOther hUnused
  rcases hRecorded.events with ⟨sequence, hEvents⟩
  rcases hRecorded.outbox with ⟨began, hOutbox⟩
  exact hUnused.append hEvents hOutbox (hOther 0) (hOther 1)

/- Accounts of which it is known whether they are active. -/
structure Standing (db : Database) (held : String → Prop) (active : String → Bool) : Prop where
  schema : db.schema = accountMigrations
  inOrder : ∀ a, held a → active a = true → ∃ v, InOrder db a v
  inactive : ∀ a, held a → active a = false → ¬ Active db a

variable {held : String → Prop} {active : String → Bool}

theorem Standing.of_core {db' : Database} (hCore : db'.core = db.core)
    (hStanding : Standing db held active) : Standing db' held active := by
  refine ⟨?_, ?_, ?_⟩
  · show db'.core.schema = accountMigrations
    rw [hCore]
    exact hStanding.schema
  · intro a hHeld hActive
    rcases hStanding.inOrder a hHeld hActive with ⟨v, hOrder⟩
    exact ⟨v, hOrder.of_core hCore⟩
  · have hLoaded : ∀ a, loaded db' a = loaded db a := by
      intro a
      show loaded db'.core a = loaded db.core a
      rw [hCore]
    intro a hHeld hInactive
    unfold Active
    rw [hLoaded]
    exact hStanding.inactive a hHeld hInactive

/- A movement is recorded exactly on an active account. -/
theorem recordMovement_standing (kind : Movement) (cmd : MoneyCommand)
    (entryID : String) (hStanding : Standing db held active)
    (hHeld : held cmd.accountID) (hTime : Json.TimeInRange env.now)
    (hEvent : db.Unused (env.newID 0)) (hMessage : db.Unused (env.newID 1)) :
    ((postgres.withTx (recordMovement kind cmd entryID env)
    db).1 = .ok () ↔ active cmd.accountID = true) ∧ Standing
    (postgres.withTx (recordMovement kind cmd entryID env) db).2
    held active ∧ Database.Uses env db
    (postgres.withTx (recordMovement kind cmd entryID env) db).2 := by
  cases hActive : active cmd.accountID with
  | true =>
    rcases hStanding.inOrder _ hHeld hActive with ⟨v, hOrder⟩
    rcases recordMovement_commits kind entryID hStanding.schema hTime hOrder hEvent hMessage with
      ⟨hOk, rec, rfl, rfl, hRecorded, hNext⟩
    refine ⟨iff_of_true hOk rfl, ⟨?_, ?_, ?_⟩, hRecorded.uses⟩
    · exact hRecorded.schema.trans hStanding.schema
    · intro a hAny hTrue
      by_cases hSame : rec.cmd.accountID = a
      · subst hSame
        exact ⟨v + 1, hNext⟩
      · rcases hStanding.inOrder a hAny hTrue with ⟨u, hOther⟩
        exact ⟨u, hRecorded.inOrder_other hSame hOther⟩
    · intro a hAny hFalse
      have hOther : rec.cmd.accountID ≠ a := by
        rintro rfl
        rw [hActive] at hFalse
        cases hFalse
      unfold Active
      rw [(hRecorded.loaded_other hOther).2]
      exact hStanding.inactive a hAny hFalse
  | false =>
    rcases recordMovement_aborts kind entryID hStanding.schema hTime
        (hStanding.inactive _ hHeld hActive) with ⟨⟨e, hError⟩, hCore⟩
    refine ⟨?_, hStanding.of_core hCore, Database.uses_of_core env hCore⟩
    rw [hError]
    exact iff_of_false nofun nofun

end Fincore.Account
