import Fincore.Lib.Numbering
import Fincore.Pkg.Stores

/-
  Event streams under concurrent transactions.

  The unique index on aggregate and version is what the services have instead of locks: of two
  transactions that append the same version only one commits. `Indexed` says what the index and its
  locks guarantee in every interleaving of any transactions; `Numbered` says that all streams are
  numbered from one on, in the order in which their events were committed.

  Key definitions include:
    * `Write.event?` and `Write.message?`
    * `Database.rowsOf` and `Numbered`
    * `Database.Grows`
    * `Indexed`
    * `sequences`

  Main results:
    * `view_events` and `view_outbox`
    * `Numbered.stream_eq_drop`
    * `indexed_step`
-/

----
-- Events And Messages Of Writes
----

namespace Fincore

def Write.event? : Write → Option EventRow
| .event row => some row
| _ => none

def Write.message? : Write → Option OutboxRow
| .message row => some row
| _ => none

def Write.snapshot? : Write → Option Snapshot
| .snapshot s => some s
| _ => none

/- The write adds rows to the outbox or leaves it alone. -/
def Write.Enqueues : Write → Prop
| .processed _ _ => False
| _ => True

variable {row : EventRow} {ws : List Write}

theorem mem_filterMap_event? : row ∈ ws.filterMap Write.event? ↔ .event row ∈ ws := by
  rw [List.mem_filterMap]
  constructor
  · rintro ⟨w, hMem, hRow⟩
    cases w with
    | event row' =>
      cases hRow
      exact hMem
    | _ => cases hRow
  · intro hMem
    exact ⟨.event row, hMem, rfl⟩

/- A transaction sees its own events after the others. -/
theorem view_events (db : Database) (ws : List Write) :
    (postgres.view db ws).events = db.events ++ ws.filterMap Write.event? := by
  induction ws generalizing db with
  | nil => simp
  | cons w ws ih =>
    rw [Engine.view_cons, ih]
    cases w with
    | event row =>
      show (db.events ++ [row]) ++ _ = db.events ++ (row :: _)
      simp
    | _ => rfl

theorem view_snapshots (db : Database) (ws : List Write) : (postgres.view db ws).snapshots =
    db.snapshots ++ ws.filterMap Write.snapshot? := by
  induction ws generalizing db with
  | nil => simp
  | cons w ws ih =>
    rw [Engine.view_cons, ih]
    cases w with
    | snapshot s =>
      show (db.snapshots ++ [s]) ++ _ = db.snapshots ++ (s :: _)
      simp
    | _ => rfl

theorem view_outbox (db : Database)
    (hWrites : ∀ w ∈ ws, w.Enqueues) : (postgres.view db ws).outbox =
    db.outbox ++ ws.filterMap Write.message? := by
  induction ws generalizing db with
  | nil => simp
  | cons w ws ih =>
    rw [Engine.view_cons, ih _ (fun v hMem =>
      hWrites v (List.mem_cons_of_mem w hMem))]
    have hHead := hWrites w List.mem_cons_self
    cases w with
    | message row =>
      show (db.outbox ++ [row]) ++ _ = db.outbox ++ (row :: _)
      simp
    | processed ids now => exact hHead.elim
    | _ => rfl

----
-- Numbered Streams
----

/- The events of an aggregate in the order they came in. -/
def Database.rowsOf (db : Database) (aggregateID : String) : List EventRow :=
  db.events.filter (fun row =>
    row.event.aggregateID = aggregateID)

/- Versions go from one on, without gaps. -/
def Numbered (db : Database) : Prop :=
  ∀ aggregateID, (db.rowsOf aggregateID).map (fun row => row.event.version) =
      List.range' 1 (db.rowsOf aggregateID).length

theorem mem_rowsOf {db : Database} {aggregateID : String} :
    row ∈ db.rowsOf aggregateID ↔ row ∈ db.events ∧ row.event.aggregateID = aggregateID := by
  simp [Database.rowsOf]

/- Of numbers in a row, those after `v` are the last ones. -/
theorem filter_lt_eq_drop {α : Type} {f : α → Nat} {l : List α} {start : Nat}
    (hNumbers : l.map f = List.range' start l.length) {v : Nat}
    (hStart : start ≤ v + 1) : l.filter (fun x => v < f x) = l.drop (v + 1 - start) := by
  induction l generalizing start with
  | nil => simp
  | cons x l ih =>
    rw [List.map_cons, List.length_cons, List.range'_succ, List.cons.injEq] at hNumbers
    rcases hNumbers with ⟨rfl, hRest⟩
    by_cases hFirst : f x = v + 1
    · rw [hFirst] at hRest
      have hAll : ∀ y ∈ x :: l, v < f y := by
        intro y hMem
        rcases List.mem_cons.mp hMem with rfl | hIn
        · omega
        · have hNumber := List.mem_map_of_mem (f := f) hIn
          rw [hRest, List.mem_range'_1] at hNumber
          omega
      rw [hFirst, Nat.sub_self, List.drop_zero, List.filter_eq_self]
      intro y hMem
      exact decide_eq_true (hAll y hMem)
    · have hLt : f x ≤ v := by omega
      have hNot : decide (v < f x) = false := by simp [hLt]
      have hDrop : v + 1 - f x = v + 1 - (f x + 1) + 1 := by
        omega
      rw [List.filter_cons, hNot, ih hRest (by omega), hDrop, List.drop_succ_cons]
      rfl

section

variable {db : Database}

/- The stream after a version is what comes after it. -/
theorem Numbered.stream_eq_drop (hNumbered : Numbered db) (aggregateID : String)
    (version : Nat) : db.stream aggregateID version = (db.rowsOf aggregateID).drop version := by
  have hFilter : db.events.filter (fun row =>
      row.event.aggregateID = aggregateID ∧ version < row.event.version) =
      (db.rowsOf aggregateID).drop version := by
    have hDrop := filter_lt_eq_drop (hNumbered aggregateID) (v := version) (by omega)
    rw [Nat.add_sub_cancel] at hDrop
    rw [← hDrop]
    unfold Database.rowsOf
    rw [List.filter_filter]
    apply List.filter_congr
    intro row _
    rw [Bool.decide_and, Bool.and_comm]
  have hSorted : ((db.rowsOf aggregateID).drop version).Pairwise
        (fun a b => a.event.version ≤ b.event.version) := by
    apply List.Pairwise.sublist (List.drop_sublist _ _)
    have hRange : ((db.rowsOf aggregateID).map (fun row => row.event.version)).Pairwise
        (· ≤ ·) := by
      rw [hNumbered aggregateID]
      exact (List.pairwise_lt_range').imp Nat.le_of_lt
    exact List.pairwise_map.mp hRange
  unfold Database.stream
  rw [hFilter]
  exact hSorted.insertionSort_eq

variable {row : EventRow}

theorem Numbered.version_le (hNumbered : Numbered db)
    (hMem : row ∈ db.events) : 1 ≤ row.event.version ∧ row.event.version ≤
    (db.rowsOf row.event.aggregateID).length := by
  have hRow : row ∈ db.rowsOf row.event.aggregateID := mem_rowsOf.mpr ⟨hMem, rfl⟩
  have hNumber := List.mem_map_of_mem (f := fun row => row.event.version) hRow
  rw [hNumbered, List.mem_range'_1] at hNumber
  omega

/- Every one of the numbers is stored. -/
theorem Numbered.exists_version (hNumbered : Numbered db) (aggregateID : String)
    {version : Nat} (hFirst : 1 ≤ version)
    (hLast : version ≤ (db.rowsOf aggregateID).length) : ∃ row ∈ db.events,
    row.event.aggregateID = aggregateID ∧ row.event.version = version := by
  have hNumber : version ∈ (db.rowsOf aggregateID).map (fun row => row.event.version) := by
    rw [hNumbered, List.mem_range'_1]
    omega
  rcases List.mem_map.mp hNumber with ⟨row, hRow, hVersion⟩
  rcases mem_rowsOf.mp hRow with ⟨hMem, hSame⟩
  exact ⟨row, hMem, hSame, hVersion⟩

theorem rowsOf_append {db' : Database} {rows : List EventRow}
    (hEvents : db'.events = db.events ++ rows) (aggregateID : String) :
    db'.rowsOf aggregateID = db.rowsOf aggregateID ++ rows.filter (fun row =>
      row.event.aggregateID = aggregateID) := by
  unfold Database.rowsOf
  rw [hEvents, List.filter_append]

/- One event more, in its own stream. -/
theorem rowsOf_append_self {db' : Database}
    (hEvents : db'.events = db.events ++ [row]) : db'.rowsOf row.event.aggregateID =
    db.rowsOf row.event.aggregateID ++ [row] := by
  rw [rowsOf_append hEvents, List.filter_singleton, decide_eq_true rfl, Bool.cond_true]

/- The other streams stay as they are. -/
theorem rowsOf_append_ne {db' : Database}
    (hEvents : db'.events = db.events ++ [row]) {aggregateID : String}
    (hNe : row.event.aggregateID ≠ aggregateID) :
    db'.rowsOf aggregateID = db.rowsOf aggregateID := by
  rw [rowsOf_append hEvents, List.filter_singleton,
    decide_eq_false hNe, Bool.cond_false, List.append_nil]

theorem numbered_of_events {db' : Database} (hEvents : db'.events = db.events)
    (hNumbered : Numbered db) : Numbered db' := by
  unfold Numbered Database.rowsOf at hNumbered ⊢
  rw [hEvents]
  exact hNumbered

/- An event with the next number keeps streams numbered. -/
theorem Numbered.append {db' : Database}
    (hNumbered : Numbered db) (hEvents : db'.events = db.events ++ [row])
    (hNext : row.event.version = (db.rowsOf row.event.aggregateID).length + 1) : Numbered db' := by
  intro aggregateID
  by_cases hSame : row.event.aggregateID = aggregateID
  · subst hSame
    rw [rowsOf_append_self hEvents, List.map_append,
      hNumbered, List.length_append, List.length_singleton,
      List.range'_1_concat, List.map_cons, List.map_nil, hNext, Nat.add_comm 1]
  · rw [rowsOf_append_ne hEvents hSame]
    exact hNumbered aggregateID

end

theorem numbered_empty (schema : Schema) : Numbered (Database.empty schema) := by
  intro aggregateID
  rfl

----
-- Growing Databases
----

/- Events and snapshots are added at the end, nothing else. -/
structure Database.Grows (db db' : Database) : Prop where
  events : db.events <+: db'.events
  snapshots : db.snapshots <+: db'.snapshots

namespace Database.Grows

variable {db db' db'' : Database}

theorem refl (db : Database) : db.Grows db := ⟨List.prefix_rfl, List.prefix_rfl⟩

theorem trans (hFirst : db.Grows db') (hSecond : db'.Grows db'') : db.Grows db'' :=
  ⟨hFirst.events.trans hSecond.events, hFirst.snapshots.trans hSecond.snapshots⟩

theorem rowsOf (hGrows : db.Grows db') (aggregateID : String) :
    db.rowsOf aggregateID <+: db'.rowsOf aggregateID := hGrows.events.filter _

/- A stream that has not become longer is the same. -/
theorem rowsOf_eq (hGrows : db.Grows db') {aggregateID : String}
    (hLength : (db'.rowsOf aggregateID).length ≤ (db.rowsOf aggregateID).length) :
    db.rowsOf aggregateID = db'.rowsOf aggregateID :=
  (hGrows.rowsOf aggregateID).eq_of_length_le hLength

/- Streams that are numbered now have always been. -/
theorem numbered (hGrows : db.Grows db') (hNumbered : Numbered db') : Numbered db := by
  intro aggregateID
  rcases hGrows.rowsOf aggregateID with ⟨later, hRows⟩
  have hAll := hNumbered aggregateID
  rw [← hRows, List.map_append, List.length_append, ← List.range'_append_1] at hAll
  exact List.append_inj_left hAll (by simp)

end Database.Grows

theorem grows_tick (s : Stmt) (db : Database) : db.Grows (postgres.tick s db) := by
  refine ⟨?_, ?_⟩
  · simp only [tick_events, List.prefix_rfl]
  · simp only [tick_snapshots, List.prefix_rfl]

theorem grows_view (db : Database) (ws : List Write) : db.Grows (postgres.view db ws) := by
  refine ⟨?_, ?_⟩
  · rw [view_events]
    exact List.prefix_append _ _
  · rw [view_snapshots]
    exact List.prefix_append _ _

----
-- The Unique Index
----

variable {ι α : Type}

/- Both rows have the same place in the same stream. -/
def Event.SamePlace (e e' : Event) : Prop := e.aggregateID = e'.aggregateID ∧ e.version = e'.version

/-
  Rows that are held are held by one call, and no event that a call has inserted takes the place of
  a committed one.
-/
structure Indexed (cfg : Engine.Config Database ι Stmt Resp Write GoError α) : Prop where
  exclusive : postgres.Exclusive cfg
  fresh : ∀ i c t, cfg.Running i c t → ∀ row, .event row ∈ t.writes →
        ∀ old ∈ cfg.db.events, ¬ old.event.SamePlace row.event

theorem indexed_start (db : Database) : Indexed
    (⟨db, [], []⟩ : Engine.Config Database ι Stmt Resp Write GoError α) := by
  refine ⟨?_, ?_⟩
  · intro i j _ c t c' t' hi
    cases hi
  · intro i c t hi
    cases hi

theorem fresh_of_exec {began : Nat} {s : Stmt} {db : Database} {r : Resp s}
    (hExec : postgres.exec began s db = .ok (r, ws)) (hMem : .event row ∈ ws) :
    ∀ old ∈ db.events, ¬ old.event.SamePlace row.event := by
  have hWrites := Stmt.writes_of_exec hExec _ hMem
  cases s with
  | insertEvent e context =>
    rcases Stmt.exec_insertEvent hExec with ⟨_, hFree, _⟩
    have hEvent : row.event = e := hWrites
    rw [hEvent]
    exact hFree
  | _ => exact hWrites.elim

theorem indexed_step {handler : ι → Tx α}
    {cfg cfg' : Engine.Config Database ι Stmt Resp Write GoError α}
    {a : Engine.Action ι} (hInv : Indexed cfg)
    (hStep : postgres.step handler cfg a = some cfg') : Indexed cfg' := by
  refine ⟨Engine.exclusive_step hInv.exclusive hStep, ?_⟩
  intro j c t hj row hRow old hOld
  rcases Engine.step_quiet_or_commit hStep with hQuiet | ⟨i, c', t', b, r, hCall, _, _, _, rfl⟩
  · rw [hQuiet.observe tick_events] at hOld
    rcases Engine.running_step hStep hj with hBefore | ⟨_, rfl⟩ |
        ⟨_, t₀, s, k, x, ws, hBefore, _, hExec, rfl⟩
    · exact hInv.fresh j c t hBefore row hRow old hOld
    · cases hRow
    · rcases List.mem_append.mp hRow with hEarlier | hNew
      · exact hInv.fresh j c t₀ hBefore row hEarlier old hOld
      · refine fresh_of_exec hExec hNew old ?_
        rw [view_events]
        exact List.mem_append_left _ hOld
  · rcases Engine.running_commit hj with ⟨hNe, hBefore⟩
    have hEvents : (cfg.commit postgres i c' t'.writes r).db.events =
        cfg.db.events ++ t'.writes.filterMap Write.event? := view_events cfg.db t'.writes
    rw [hEvents] at hOld
    rcases List.mem_append.mp hOld with hOld | hNew
    · exact hInv.fresh j c t hBefore row hRow old hOld
    · -- both calls hold the place
      rintro ⟨hAggregate, hVersion⟩
      refine hInv.exclusive i j (Ne.symm hNe) c' t' c t hCall
        hBefore (.event old) (mem_filterMap_event?.mp hNew) (.event row) hRow
        (.stream old.event.aggregateID old.event.version) ?_ ?_
      · simp [postgres, Write.holds]
      · simp [postgres, Write.holds, hAggregate, hVersion]

/-
  An event committed to numbered streams whose number is one after a number already taken has the
  next number.
-/
theorem Indexed.next {cfg : Engine.Config Database ι Stmt Resp Write GoError α}
    (hInv : Indexed cfg) (hNumbered : Numbered cfg.db) {i : Nat} {c : ι}
    {t : Engine.Txn Stmt Resp Write GoError α} (hCall : cfg.Running i c t)
    (hRow : .event row ∈ t.writes) {read : Nat}
    (hVersion : row.event.version = read + 1)
    (hRead : read ≤ (cfg.db.rowsOf row.event.aggregateID).length) :
    (cfg.db.rowsOf row.event.aggregateID).length = read := by
  by_contra hNe
  have hTaken : read + 1 ≤ (cfg.db.rowsOf row.event.aggregateID).length := by
    omega
  rcases hNumbered.exists_version row.event.aggregateID
      (Nat.le_add_left 1 read) hTaken with ⟨old, hMem, hSame, hPlace⟩
  exact hInv.fresh i c t hCall row hRow old hMem ⟨hSame, hPlace.trans hVersion.symm⟩

----
-- The Identity Column
----

theorem sequence_of_exec {began : Nat} {s : Stmt} {db : Database} {r : Resp s}
    (hExec : postgres.exec began s db = .ok (r, ws)) (hRow : .event row ∈ ws) :
    row.sequence = db.sequence + 1 ∧ ∃ context, s = .insertEvent row.event context := by
  have hWrites := Stmt.writes_of_exec hExec _ hRow
  cases s with
  | insertEvent e context =>
    have hAnswer := Stmt.answer_of_exec hExec
    simp only [Stmt.answer] at hAnswer
    split at hAnswer
    · cases hAnswer
    · split at hAnswer
      · cases hAnswer
      · cases hAnswer
        cases List.mem_singleton.mp hRow
        exact ⟨rfl, context, rfl⟩
  | _ => exact hWrites.elim

/- `sequence bigint generated always as identity` -/
def sequences : Engine.Numbering postgres EventRow where
  number := EventRow.sequence
  last := Database.sequence
  stored := Database.events
  carried := Write.event?
  last_tick := by
    intro s db
    cases s with
    | insertEvent e context => exact Nat.le_succ _
    | _ => exact Nat.le_refl _
  last_tick_eq := by
    intro s db db' hSame
    cases s with
    | insertEvent e context => exact congrArg (· + 1) hSame
    | _ => exact hSame
  last_apply := by
    intro db w
    cases w <;> rfl
  stored_tick := by
    intro s db
    exact tick_events s db
  stored_apply := by
    intro db w
    cases w with
    | event row => rfl
    | _ => exact (List.append_nil _).symm
  drawn := by
    intro began s db x ws w row hExec hMem hCarried
    cases w with
    | event row' =>
      cases hCarried
      rcases sequence_of_exec hExec hMem with ⟨hNext, context, rfl⟩
      rw [hNext]
      exact ⟨Nat.lt_succ_self _, Nat.le_refl _⟩
    | _ => cases hCarried
  single := by
    intro began s db x ws hExec
    have hWrites := Stmt.writes_of_exec hExec
    cases s with
    | insertEvent e context =>
      rcases Stmt.exec_insertEvent hExec with ⟨_, _, rfl⟩
      exact Nat.le_refl 1
    | _ =>
      have hNone : ws.filterMap Write.event? = [] := by
        apply List.filterMap_eq_nil_iff.mpr
        intro w hMem
        cases w with
        | event row => exact (hWrites _ hMem).elim
        | _ => rfl
      rw [hNone]
      exact Nat.zero_le 1

end Fincore
