import Fincore.Account.Calls

/-
  Snapshots of accounts beside the whole streams.

  A snapshot holds the account before the event it is cut for, with the version after it; movements
  change nothing but the version, so it is the account after the event. Every fiftieth version has
  one, which keeps what is read after it short.

  Key definitions include:
    * `whole`
    * `Snapshotted`
    * `SnapshotInv`

  Main results:
    * `Snapshotted.loaded_eq`
    * `Snapshotted.read`
    * `snapshotInv_step`
    * `loadAccount_eq_rehydrate`
-/

----
-- Replaying Parts Of A Stream
----

namespace Fincore.Account

theorem unmarshalEvents_append_bind (es es' : List Event) : unmarshalEvents (es ++ es') =
      (do
        let des ← unmarshalEvents es
        let des' ← unmarshalEvents es'
        return des ++ des') := by
  induction es with
  | nil =>
    simp only [List.nil_append, unmarshalEvents]
    cases unmarshalEvents es' <;> rfl
  | cons e es ih =>
    simp only [List.cons_append, unmarshalEvents]
    cases unmarshalAccountEvent e.type e.data with
    | error err => rfl
    | ok ev =>
      rw [ih]
      cases unmarshalEvents es with
      | error err => rfl
      | ok des => cases unmarshalEvents es' <;> rfl

theorem replayed_bind (ag : Account) (rows rows' : List EventRow) : replayed ag (rows ++ rows') =
      (do
        let ag' ← replayed ag rows
        replayed ag' rows') := by
  unfold replayed
  rw [List.map_append, unmarshalEvents_append_bind]
  cases unmarshalEvents (rows.map EventRow.event) with
  | error e => rfl
  | ok des =>
    cases unmarshalEvents (rows'.map EventRow.event) with
    | error e => rfl
    | ok des' =>
      exact congrArg Except.ok (List.foldl_append ..)

theorem foldl_replay (ag : Account) (des : List DomainEvent) :
    (des.foldl replay ag).version = ag.version + des.length ∧
    (des.foldl replay ag).changes = ag.changes := by
  induction des generalizing ag with
  | nil => exact ⟨rfl, rfl⟩
  | cons ev des ih =>
    rcases ih (ag.replay ev) with ⟨hVersion, hChanges⟩
    refine ⟨?_, ?_⟩
    · rw [List.foldl_cons, hVersion, List.length_cons]
      show ag.version + 1 + des.length = _
      omega
    · rw [List.foldl_cons, hChanges]
      cases ev <;> rfl

theorem length_unmarshalEvents {es : List Event} {des : List DomainEvent}
    (hEvents : unmarshalEvents es = .ok des) : des.length = es.length := by
  induction es generalizing des with
  | nil =>
    cases hEvents
    rfl
  | cons e es ih =>
    simp only [unmarshalEvents] at hEvents
    cases hFirst : unmarshalAccountEvent e.type e.data with
    | error err =>
      rw [hFirst] at hEvents
      cases hEvents
    | ok ev =>
      cases hRest : unmarshalEvents es with
      | error err =>
        rw [hFirst, hRest] at hEvents
        cases hEvents
      | ok rest =>
        rw [hFirst, hRest] at hEvents
        cases hEvents
        rw [List.length_cons, List.length_cons, ih hRest]

theorem replayed_ok {ag ag' : Account} {rows : List EventRow} (hRows : replayed ag rows = .ok ag') :
    ag'.version = ag.version + rows.length ∧ ag'.changes = ag.changes := by
  unfold replayed at hRows
  cases hEvents : unmarshalEvents (rows.map EventRow.event) with
  | error e =>
    rw [hEvents] at hRows
    cases hRows
  | ok des =>
    rw [hEvents] at hRows
    cases hRows
    have hLength := length_unmarshalEvents hEvents
    rw [List.length_map] at hLength
    rw [← hLength]
    exact foldl_replay ag des

----
-- Snapshots In A Database
----

/- `Rehydrate` on the complete stream of the account. -/
def whole (db : Database) (accountID : String) : Except GoError Account :=
  replayed zero (db.rowsOf accountID)

/-
  Streams are numbered and can be read, a snapshot is the account after as many events as its
  version says, and there is one for every fiftieth version.
-/
structure Snapshotted (db : Database) : Prop where
  numbered : Numbered db
  decodes : ∀ accountID, ∃ ag, whole db accountID = .ok ag
  faithful : ∀ s ∈ db.snapshots, s.version ≤ (db.rowsOf s.aggregateID).length ∧
        base (some s) = replayed zero ((db.rowsOf s.aggregateID).take s.version)
  cut : ∀ accountID k, 0 < k → 50 * k ≤ (db.rowsOf accountID).length →
        ∃ s ∈ db.snapshots, s.aggregateID = accountID ∧ s.version = 50 * k

theorem snapshotted_empty (schema : Schema) : Snapshotted (Database.empty schema) := by
  refine ⟨numbered_empty schema, ?_, ?_, ?_⟩
  · intro accountID
    exact ⟨zero, rfl⟩
  · intro s hMem
    cases hMem
  · intro accountID k hPos hLength
    have hNone : 50 * k ≤ 0 := hLength
    omega

section

variable {db db' : Database}

theorem Snapshotted.base_eq (hStored : Snapshotted db) (accountID : String)
    (latest : Option Snapshot)
    (hLatest : ∀ s, latest = some s → s ∈ db.snapshots ∧ s.aggregateID = accountID) :
    fromVersion latest ≤ (db.rowsOf accountID).length ∧ base latest =
    replayed zero ((db.rowsOf accountID).take (fromVersion latest)) := by
  cases latest with
  | none => exact ⟨Nat.zero_le _, rfl⟩
  | some s =>
    rcases hLatest s rfl with ⟨hMem, rfl⟩
    exact hStored.faithful s hMem

/-
  An account that was loaded while events came in is the account after as many events as its version
  says.
-/
theorem Snapshotted.read (hStored : Snapshotted db) {first second : Database}
    (hFirst : first.Grows db) (hSecond : second.Grows db) {accountID : String} {start ag : Account}
    (hBase : base (first.latestSnapshot accountID) = .ok start)
    (hRows : replayed start
    ((second.stream accountID (fromVersion (first.latestSnapshot accountID))).take
    10000) = .ok ag) : ag.version ≤ (db.rowsOf accountID).length ∧
    replayed zero ((db.rowsOf accountID).take ag.version) = .ok ag := by
  have hLatest := hStored.base_eq accountID
    (first.latestSnapshot accountID) (fun s hSome =>
      ⟨hFirst.snapshots.subset (latestSnapshot_mem hSome).1, (latestSnapshot_mem hSome).2⟩)
  generalize fromVersion (first.latestSnapshot accountID) = v at hLatest hRows
  rcases hLatest with ⟨hVersion, hStart⟩
  rw [hBase] at hStart
  -- the rows that were read are some that come after `v`
  have hPart := List.prefix_iff_eq_take.mp (hSecond.rowsOf accountID)
  have hLength := (hSecond.rowsOf accountID).length_le
  rw [(hSecond.numbered hStored.numbered).stream_eq_drop,
    hPart, List.drop_take, List.take_take] at hRows
  generalize hRead : min 10000 ((second.rowsOf accountID).length - v) = k at hRows
  have hAll : replayed zero ((db.rowsOf accountID).take (v + k)) = .ok ag := by
    rw [List.take_add, replayed_bind, ← hStart]
    exact hRows
  have hCount := (replayed_ok hAll).1
  rw [List.length_take, Nat.min_eq_left (by omega)] at hCount
  have hCount : ag.version = v + k := by
    rw [hCount]
    exact Nat.zero_add _
  refine ⟨by omega, ?_⟩
  rw [hCount]
  exact hAll

/- Loading finds the account of the complete stream. -/
theorem Snapshotted.loaded_eq (hStored : Snapshotted db) (accountID : String) :
    loaded db accountID = whole db accountID := by
  have hLatest := hStored.base_eq accountID (db.latestSnapshot accountID)
    (fun s hSome => latestSnapshot_mem hSome)
  -- the rows after the latest snapshot are less than fifty
  have hRecent : (db.rowsOf accountID).length < fromVersion (db.latestSnapshot accountID) + 50 := by
    by_cases hFew : (db.rowsOf accountID).length < 50
    · omega
    · rcases hStored.cut accountID ((db.rowsOf accountID).length / 50) (by omega) (by omega) with
        ⟨s, hMem, hSame, hVersion⟩
      rcases latestSnapshot_le hMem hSame with ⟨latest, hSome, hLe⟩
      rw [hSome]
      show _ < latest.version + 50
      omega
  have hShort :
      ((db.rowsOf accountID).drop (fromVersion (db.latestSnapshot accountID))).length ≤ 10000 := by
    rw [List.length_drop]
    omega
  unfold loaded tail whole
  rw [hLatest.2, hStored.numbered.stream_eq_drop, List.take_of_length_le hShort]
  exact (replayed_bind _ _ _).symm.trans (congrArg _ (List.take_append_drop _ _))

/-
  The row is the next of its stream, and the snapshots that come with it are of the account after
  it.
-/
structure Appends (db : Database) (row : EventRow) (snaps : List Snapshot) : Prop where
  version : row.event.version = (db.rowsOf row.event.aggregateID).length + 1
  replays : ∃ ag ev, whole db row.event.aggregateID = .ok ag ∧
      unmarshalAccountEvent row.event.type row.event.data = .ok ev ∧
      ∀ s ∈ snaps, base (some s) = .ok (ag.replay ev)
  snapshots : ∀ s ∈ snaps, s.aggregateID = row.event.aggregateID ∧ s.version = row.event.version
  fiftieth : row.event.version % 50 = 0 → snaps ≠ []

theorem Snapshotted.append (hStored : Snapshotted db) {row : EventRow}
    {snaps : List Snapshot} (hAppends : Appends db row snaps)
    (hEvents : db'.events = db.events ++ [row])
    (hSnapshots : db'.snapshots = db.snapshots ++ snaps) : Snapshotted db' := by
  have hSelf := rowsOf_append_self hEvents
  rcases hAppends.replays with ⟨ag, ev, hWhole, hDecoded, hBase⟩
  have hReplayed := replayed_append hWhole row hDecoded
  refine ⟨hStored.numbered.append hEvents hAppends.version, ?_, ?_, ?_⟩
  · intro accountID
    unfold whole
    by_cases hSame : row.event.aggregateID = accountID
    · subst hSame
      rw [hSelf]
      exact ⟨_, hReplayed⟩
    · rw [rowsOf_append_ne hEvents hSame]
      exact hStored.decodes accountID
  · intro s hMem
    rw [hSnapshots] at hMem
    rcases List.mem_append.mp hMem with hOld | hNew
    · -- an old snapshot is of events that are still there
      rcases hStored.faithful s hOld with ⟨hLe, hFaithful⟩
      by_cases hSame : row.event.aggregateID = s.aggregateID
      · rw [← hSame] at hLe hFaithful ⊢
        rw [hSelf, List.take_append_of_le_length hLe, List.length_append]
        exact ⟨Nat.le_add_right_of_le hLe, hFaithful⟩
      · rw [rowsOf_append_ne hEvents hSame]
        exact ⟨hLe, hFaithful⟩
    · rcases hAppends.snapshots s hNew with ⟨hSame, hVersion⟩
      have hAll : s.version = (db.rowsOf row.event.aggregateID ++ [row]).length := by
        rw [hVersion, hAppends.version, List.length_append, List.length_singleton]
      rw [hSame, hSelf, hAll, List.take_length]
      exact ⟨Nat.le_refl _, (hBase s hNew).trans hReplayed.symm⟩
  · intro accountID k hPos hLength
    rw [hSnapshots]
    by_cases hSame : row.event.aggregateID = accountID
    · subst hSame
      rw [hSelf, List.length_append, List.length_singleton, ← hAppends.version] at hLength
      by_cases hNow : 50 * k = row.event.version
      · -- the version just appended has its snapshot
        rcases List.exists_mem_of_ne_nil snaps (hAppends.fiftieth (by omega)) with ⟨s, hNew⟩
        rcases hAppends.snapshots s hNew with ⟨hIs, hVersion⟩
        exact ⟨s, List.mem_append_right _ hNew, hIs, hVersion.trans hNow.symm⟩
      · have hVersion := hAppends.version
        rcases hStored.cut row.event.aggregateID k hPos (by omega) with ⟨s, hMem, hIs⟩
        exact ⟨s, List.mem_append_left _ hMem, hIs⟩
    · rw [rowsOf_append_ne hEvents hSame] at hLength
      rcases hStored.cut accountID k hPos hLength with ⟨s, hMem, hIs⟩
      exact ⟨s, List.mem_append_left _ hMem, hIs⟩

theorem Snapshotted.of_same (hStored : Snapshotted db) (hEvents : db'.events = db.events)
    (hSnapshots : db'.snapshots = db.snapshots) : Snapshotted db' := by
  refine ⟨numbered_of_events hEvents hStored.numbered, ?_, ?_, ?_⟩
  · unfold whole Database.rowsOf
    rw [hEvents]
    exact hStored.decodes
  · unfold Database.rowsOf
    rw [hEvents, hSnapshots]
    exact hStored.faithful
  · unfold Database.rowsOf
    rw [hEvents, hSnapshots]
    exact hStored.cut

end

----
-- Commits
----

/- What holds between any two steps of the service. -/
structure SnapshotInv (cfg : AccountCalls) : Prop where
  indexed : Indexed cfg
  guarded : postgres.Guarded
      (fun _ => .of Database.Grows Database.Grows.refl (fun _ _ _ => Database.Grows.trans))
      (fun c => c.Post Database.Grows) cfg
  stored : Snapshotted cfg.db

section

variable {cfg : AccountCalls} {i : Nat} {c : AccountTx}
variable {t : Engine.Txn Stmt Resp Write GoError AccountAnswer}

/- A new account finds its stream empty. -/
theorem SnapshotInv.opened (hInv : SnapshotInv cfg) (hCall : cfg.Running i c t)
    {customerID : String} {env : Env} {sequence : Nat}
    (hEvent : .event ⟨sequence, (opening customerID env).event⟩ ∈ t.writes) :
    Appends cfg.db ⟨sequence, (opening customerID env).event⟩ [] := by
  have hLength : (cfg.db.rowsOf (env.newID 0)).length = 0 :=
    hInv.indexed.next hInv.stored.numbered hCall hEvent rfl (Nat.zero_le _)
  refine ⟨?_, ⟨zero, Account.opened customerID env, ?_,
    unmarshalAccountEvent_document (Account.opened customerID env), ?_⟩, ?_, ?_⟩
  · show 1 = (cfg.db.rowsOf (env.newID 0)).length + 1
    rw [hLength]
  · show replayed zero (cfg.db.rowsOf (env.newID 0)) = _
    rw [List.length_eq_zero_iff.mp hLength]
    rfl
  · intro s hMem
    cases hMem
  · intro s hMem
    cases hMem
  · intro hFifty
    cases hFifty

/- The snapshot of a movement is the account after it. -/
theorem Record.base_snapshot {rec : Record} (hChanges : rec.ag.changes = []) :
    base (some rec.snapshot) = .ok (rec.ag.replay rec.raised.withoutMoney) := by
  have hState := State.unmarshal_marshal { rec.ag.snapshot with version := rec.version }
  show ((State.unmarshal rec.snapshot.data).mapError GoError.text).map State.restore = _
  unfold Record.snapshot
  rw [hState, Record.replay_raised]
  unfold Account.snapshot Record.version
  rcases hAg : rec.ag with ⟨id, customerID, status, version, changes⟩
  rw [hAg] at hChanges
  have hNone : changes = [] := hChanges
  subst hNone
  rfl

/-
  A movement is recorded on the account of the complete stream: an event that came in since it was
  loaded would have taken the version.
-/
theorem SnapshotInv.moved (hInv : SnapshotInv cfg) (hCall : cfg.Running i c t)
    {rec : Record} (hMoved : Moved Database.Grows rec cfg.db t.writes)
    {sequence began : Nat} (hWrites : t.writes = rec.writes sequence began) :
    Appends cfg.db ⟨sequence, rec.event⟩ rec.snapshots := by
  rcases hMoved.explained with ⟨first, second, start, hFirst, hSecond, hBase, hRows⟩
  rcases hInv.stored.read (hFirst.trans hSecond) hSecond hBase hRows with ⟨hLe, hPart⟩
  have hEvent : .event ⟨sequence, rec.event⟩ ∈ t.writes := by
    rw [hWrites]
    exact List.mem_cons_self
  have hLength : (cfg.db.rowsOf rec.cmd.accountID).length =
      rec.ag.version := hInv.indexed.next hInv.stored.numbered hCall hEvent rfl hLe
  rw [List.take_of_length_le (Nat.le_of_eq hLength)] at hPart
  have hChanges : rec.ag.changes = [] := (replayed_ok hPart).2
  have hSnapshots : ∀ s ∈ rec.snapshots, s = rec.snapshot := by
    intro s hMem
    unfold Record.snapshots at hMem
    split at hMem
    · exact List.mem_singleton.mp hMem
    · cases hMem
  refine ⟨?_, ⟨rec.ag, rec.raised.withoutMoney, hPart,
    unmarshalAccountEvent_document rec.raised, ?_⟩, ?_, ?_⟩
  · show rec.ag.version + 1 = (cfg.db.rowsOf rec.cmd.accountID).length + 1
    rw [hLength]
  · intro s hMem
    rw [hSnapshots s hMem]
    exact Record.base_snapshot hChanges
  · intro s hMem
    rw [hSnapshots s hMem]
    exact ⟨rfl, rfl⟩
  · intro hFifty
    have hOne : rec.snapshots = [rec.snapshot] := if_pos hFifty
    rw [hOne]
    exact List.cons_ne_nil _ _

theorem SnapshotInv.appends (hInv : SnapshotInv cfg) (hCall : cfg.Running i c t)
    {b : AccountAnswer} (hProg : t.prog = .ret b) : ∃ row snaps,
    t.writes.filterMap Write.event? = [row] ∧ t.writes.filterMap Write.snapshot? = snaps ∧
    Appends cfg.db row snaps := by
  have hPost := hInv.guarded.post hCall hProg
  cases c with
  | openAccount customerID key env =>
    rcases hPost with ⟨_, _, sequence, began, hWrites⟩
    have hEvent : .event ⟨sequence, (opening customerID env).event⟩ ∈
        t.writes := by
      rw [hWrites]
      exact List.mem_cons_of_mem _ List.mem_cons_self
    refine ⟨_, _, ?_, ?_, hInv.opened hCall hEvent⟩
    · rw [hWrites]
      rfl
    · rw [hWrites]
      rfl
  | recordMovement kind cmd entryID env =>
    rcases hPost with ⟨_, ag, hMoved⟩
    rcases hMoved.writes with ⟨sequence, began, hWrites⟩
    refine ⟨_, _, ?_, ?_, hInv.moved hCall hMoved hWrites⟩
    · rw [hWrites]
      exact Record.events_writes _ _ _
    · rw [hWrites]
      exact Record.snapshots_writes _ _ _

end

theorem snapshotInv_start (schema : Schema) : SnapshotInv
    (AccountCalls.start (Database.empty schema)) := by
  refine ⟨indexed_start _, ?_, snapshotted_empty schema⟩
  intro i c t hCall
  cases hCall

theorem snapshotInv_step {cfg cfg' : AccountCalls} {a : Engine.Action AccountTx}
    (hInv : SnapshotInv cfg) (hStep : accountStep cfg a = some cfg') : SnapshotInv cfg' := by
  refine ⟨indexed_step hInv.indexed hStep, ?_, ?_⟩
  · apply Engine.guarded_step _ _ _ hInv.guarded hStep
    · intro c
      exact c.prog_wp _ _ grows_tick _ _
    · intro c t s db
      exact grows_tick s db
    · intro i c t b j c' t' _ _ _ _ _
      exact grows_view _ _
  · rcases Engine.step_quiet_or_commit hStep with hQuiet | ⟨i, c, t, b, r, hCall, hProg, _, _, rfl⟩
    · exact hInv.stored.of_same (hQuiet.observe tick_events) (hQuiet.observe tick_snapshots)
    · rcases hInv.appends hCall hProg with ⟨row, snaps, hOne, hSnaps, hAppends⟩
      have hEvents := view_events cfg.db t.writes
      have hSnapshots := view_snapshots cfg.db t.writes
      rw [hOne] at hEvents
      rw [hSnaps] at hSnapshots
      exact hInv.stored.append hAppends hEvents hSnapshots

theorem snapshotInv_run {schema : Schema}
    {schedule : List (Engine.Action AccountTx)} {cfg : AccountCalls}
    (hRun : Transition.run accountStep
    (AccountCalls.start (Database.empty schema)) schedule = some cfg) : SnapshotInv cfg := by
  apply Transition.run_induction _ _ hRun
  · intro s a s' hInv hStep
    exact snapshotInv_step hInv hStep
  · exact snapshotInv_start schema

----
-- Loading In Every Run
----

theorem schema_run {db : Database} {schedule : List (Engine.Action AccountTx)} {cfg : AccountCalls}
    (hRun : Transition.run accountStep (AccountCalls.start db)
    schedule = some cfg) : cfg.db.schema = db.schema := by
  have hKeeps : ∀ (s : AccountCalls) (a : Engine.Action AccountTx)
      (s' : AccountCalls), s.db.schema = db.schema →
      accountStep s a = some s' → s'.db.schema = db.schema := by
    intro s a s' hSchema hStep
    rcases Engine.step_quiet_or_commit hStep with hQuiet | ⟨i, c, t, b, r, _, _, _, _, rfl⟩
    · rw [hQuiet.observe tick_schema, hSchema]
    · exact (view_schema s.db t.writes).trans hSchema
  exact Transition.run_induction hKeeps rfl hRun

theorem withTx_loadAccount {db : Database}
    (hSchema : db.schema = accountMigrations) {accountID : String}
    {ag : Account} (hLoaded : loaded db accountID = .ok ag) :
    (postgres.withTx (loadAccount accountID) db).1 = .ok ag := by
  unfold Engine.withTx
  rw [← Prog.bind_ret (loadAccount accountID), serial_load hSchema hLoaded]
  rfl

/-
  In every run of the service, each stream has the versions from one to `n`, `LoadAccount` returns
  the account that `Rehydrate` makes of all its events, at version `n`, and no event is stored with
  the version after it.
-/
theorem loadAccount_eq_rehydrate (schedule : List (Engine.Action AccountTx)) (cfg : AccountCalls)
    (hRun : Transition.run accountStep (AccountCalls.start (Database.empty accountMigrations))
      schedule = some cfg) (accountID : String) :
    (cfg.db.rowsOf accountID).map (fun row => row.event.version) =
      List.range' 1 (cfg.db.rowsOf accountID).length ∧ ∃ des, unmarshalEvents
      ((cfg.db.rowsOf accountID).map EventRow.event) = .ok des ∧
      (postgres.withTx (loadAccount accountID) cfg.db).1 = .ok (rehydrate des) ∧
      (rehydrate des).version = (cfg.db.rowsOf accountID).length ∧
      ∀ row ∈ cfg.db.events, row.event.aggregateID = accountID →
      row.event.version ≠ (rehydrate des).version + 1 := by
  have hStored := (snapshotInv_run hRun).stored
  have hSchema : cfg.db.schema = accountMigrations := schema_run hRun
  refine ⟨hStored.numbered accountID, ?_⟩
  rcases hStored.decodes accountID with ⟨ag, hWhole⟩
  have hLoaded := hStored.loaded_eq accountID
  rw [hWhole] at hLoaded
  have hVersion : ag.version = (cfg.db.rowsOf accountID).length := by
    rw [(replayed_ok hWhole).1]
    exact Nat.zero_add _
  unfold whole replayed at hWhole
  cases hEvents : unmarshalEvents ((cfg.db.rowsOf accountID).map EventRow.event) with
  | error e =>
    rw [hEvents] at hWhole
    cases hWhole
  | ok des =>
    rw [hEvents] at hWhole
    have hSame : rehydrate des = ag := Except.ok.inj hWhole
    rw [← hSame] at hLoaded hVersion
    refine ⟨des, rfl, withTx_loadAccount hSchema hLoaded, hVersion, ?_⟩
    intro row hMem hIs
    have hLe := (hStored.numbered.version_le hMem).2
    rw [hIs] at hLe
    omega

/- An account is opened, and two deposits race on it. -/
def racingDeposits : List (Engine.Action AccountTx) :=
  [.start (.openAccount "customer" "open" (.tagged "A")),
    .exec 0, .exec 0, .exec 0, .finish 0, .start (.recordMovement .deposit
      ⟨"A-0", ⟨100, NGN⟩, "d", ""⟩ "e1" (.tagged "d")), .start (.recordMovement .deposit
      ⟨"A-0", ⟨100, NGN⟩, "e", ""⟩ "e2" (.tagged "e")),
    .exec 1, .exec 2, .exec 1, .exec 2, .exec 1, .exec 1, .exec 1, .finish 1, .exec 2]

theorem racingDeposits_load : ∃ cfg des, Transition.run accountStep
      (AccountCalls.start (Database.empty accountMigrations)) racingDeposits = some cfg ∧
      (postgres.withTx (loadAccount "A-0") cfg.db).1 = .ok (rehydrate des) ∧
      (rehydrate des).version = 2 := by
  have hLoads := loadAccount_eq_rehydrate racingDeposits _ rfl "A-0"
  rcases hLoads with ⟨_, des, _, hLoaded, hVersion, _⟩
  exact ⟨_, des, rfl, hLoaded, hVersion⟩

end Fincore.Account
