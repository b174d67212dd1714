import Fincore.Account.Snapshots
import Fincore.Lib.DispatchOrder
import Fincore.Outboxes
import Fincore.Payment.Lifecycle
import Fincore.Pkg.OutboxRelay

/-
  The order in which one relay publishes.

  A tick selects by `created_at`, which is the start of the transaction that has enqueued the
  message, while versions are given out in the order of commits. The two agree on an aggregate as
  long as each transaction that commits on it started after those whose messages are still to be
  selected.

  Key definitions include:
    * `OutboxRelay.State.single`
    * `OutboxRelay.State.inOrder`
    * `OutboxRelay.OrderInv`

  Main results:
    * `OutboxRelay.orderInv_step`
    * `OutboxRelay.published_in_line`
    * `relay_keeps_order`
-/

----
-- One Relay
----

namespace Fincore

/- The `version` of the envelope. -/
def Message.version? (m : Message) : Option Int :=
  match Json.member? m.value "version" with
  | some (.num n) => some n
  | _ => none

namespace OutboxRelay

variable {ι α : Type}

/- One relay: its ticks follow each other, and none fails. -/
def State.single (s : State ι α) : Action ι → Bool
| .call _ => true
| .tick a => s.ticks.sequential a

/- The messages that call `i` has enqueued so far. -/
def State.pending (s : State ι α) (i : Nat) : List OutboxRow :=
  match s.calls.running? i with
  | some (_, t) => t.writes.filterMap Write.message?
  | none => []

/-
  Every message with the same key that no tick has selected yet was created before those of call
  `i`.
-/
def State.Latest (s : State ι α) (i : Nat) : Prop :=
  ∀ row ∈ s.pending i, ∀ old ∈ s.calls.db.outbox, old.message.key = row.message.key →
      s.ticks.available Message.id old.message.id = true → old.createdAt < row.createdAt

/- A call that commits is the latest of its aggregate. -/
def State.InOrder (s : State ι α) : Action ι → Prop
| .call (.finish i) => s.Latest i
| .call (.unacked i) => s.Latest i
| _ => True

instance (s : State ι α) (i : Nat) : Decidable (s.Latest i) :=
  inferInstanceAs (Decidable (∀ row ∈ s.pending i, ∀ old ∈ s.calls.db.outbox, _ → _ → _))

instance (s : State ι α) : (a : Action ι) → Decidable (s.InOrder a)
| .call (.start _) => .isTrue trivial
| .call (.exec _) => .isTrue trivial
| .call (.finish i) => inferInstanceAs (Decidable (s.Latest i))
| .call (.unacked i) => inferInstanceAs (Decidable (s.Latest i))
| .call (.broke _) => .isTrue trivial
| .tick _ => .isTrue trivial

/- The messages of every aggregate have been published in the order of their versions. -/
def State.PublishedInOrder (s : State ι α) : Prop :=
  ∀ aggregateID,
    (s.published.filter (fun m =>
      m.key = aggregateID)).Pairwise (fun m m' =>
        ∃ v v', m.version? = some v ∧ m'.version? = some v' ∧ v < v')

end OutboxRelay

----
-- Transactions That Only Enqueue
----

/- The statement does not change rows of the outbox. -/
def Stmt.Enqueues : Stmt → Prop
| .updateProcessed _ => False
| _ => True

theorem enqueues_of_exec {began : Nat} {s : Stmt} {db : Database} {r : Resp s}
    {ws : List Write} (hStmt : s.Enqueues) (hExec : postgres.exec began s db = .ok (r, ws)) :
    ∀ w ∈ ws, w.Enqueues := by
  intro w hMem
  have hWrites := Stmt.writes_of_exec hExec w hMem
  cases w with
  | processed ids now =>
    cases s with
    | updateProcessed ids' => exact hStmt
    | _ => exact hWrites
  | _ => trivial

variable {ι α : Type}

/- No running call changes rows of the outbox. -/
structure Enqueuing (cfg : Engine.Config Database ι Stmt Resp Write GoError α) : Prop where
  asks : ∀ i c t, cfg.Running i c t → t.prog.Asks Stmt.Enqueues
  writes : ∀ i c t, cfg.Running i c t → ∀ w ∈ t.writes, w.Enqueues

variable {cfg cfg' : Engine.Config Database ι Stmt Resp Write GoError α}

theorem enqueuing_step {handler : ι → Tx α} {a : Engine.Action ι}
    (hAsks : ∀ c, (handler c).Asks Stmt.Enqueues) (hInv : Enqueuing cfg)
    (hStep : postgres.step handler cfg a = some cfg') : Enqueuing cfg' := by
  refine ⟨?_, ?_⟩
  · intro j c t hj
    rcases Engine.running_step hStep hj with hBefore | ⟨_, rfl⟩ |
        ⟨_, t₀, s, k, x, ws, hBefore, hProg, _, rfl⟩
    · exact hInv.asks j c t hBefore
    · exact hAsks c
    · have hBoth := hInv.asks j c t₀ hBefore
      rw [hProg] at hBoth
      exact hBoth.2 x
  · intro j c t hj
    rcases Engine.running_step hStep hj with hBefore | ⟨_, rfl⟩ |
        ⟨_, t₀, s, k, x, ws, hBefore, hProg, hExec, rfl⟩
    · exact hInv.writes j c t hBefore
    · intro w hMem
      cases hMem
    · have hBoth := hInv.asks j c t₀ hBefore
      rw [hProg] at hBoth
      intro w hMem
      rcases List.mem_append.mp hMem with hOld | hNew
      · exact hInv.writes j c t₀ hBefore w hOld
      · exact enqueues_of_exec hBoth.1 hExec w hNew

/- They hold no row that is committed. -/
theorem Enqueuing.unblocked (hInv : Enqueuing cfg) (hFiled : Filed cfg)
    {row : OutboxRow} (hRow : row ∈ cfg.db.outbox) :
    postgres.blocked cfg none [.message row.message.id] =
    false := by
  apply List.any_eq_false.mpr
  intro j _ hHolds
  rw [Bool.and_eq_true, List.any_eq_true] at hHolds
  rcases hHolds.2 with ⟨held, hHeld, hIs⟩
  rw [List.mem_singleton.mp (of_decide_eq_true hIs)] at hHeld
  unfold Engine.held at hHeld
  cases hRunning : cfg.running? j with
  | none =>
    rw [hRunning] at hHeld
    cases hHeld
  | some call =>
    rw [hRunning] at hHeld
    have hCall := Engine.Config.running?_eq_some.mp hRunning
    rcases List.mem_flatMap.mp hHeld with ⟨w, hw, hHolds⟩
    have hEnqueues := hInv.writes j call.1 call.2 hCall w hw
    cases w with
    | message row' =>
      have hSame : row.message.id = row'.message.id := by
        simpa [postgres, Write.holds] using hHolds
      have hSeen := hFiled.seen j call.1 call.2 hCall
      rw [view_messages, List.map_append] at hSeen
      refine (List.nodup_append.mp hSeen).2.2 row.message.id ?_ row'.message.id ?_ hSame
      · exact List.mem_map_of_mem (List.mem_map_of_mem hRow)
      · exact List.mem_map_of_mem (List.mem_map_of_mem (mem_filterMap_message?.mpr hw))
    | processed ids now => exact hEnqueues
    | _ => simp [postgres, Write.holds] at hHolds

end Fincore

----
-- Messages In Line
----

namespace Fincore.OutboxRelay

variable {ι α : Type} {s s' : State ι α}

/- The rows with a key, in the order of their commits. -/
def keyed (db : Database) (key : String) : List OutboxRow :=
  db.outbox.filter (fun row => row.message.key = key)

/-
  Of the rows with a key, the first have been selected in this order; the others go by `created_at`.
-/
def State.InLine (s : State ι α) (key : String) : Prop :=
  ∃ done rest, keyed s.calls.db key = done ++ rest ∧
      done.map OutboxRow.message = s.ticks.taken.filter (fun m => m.key = key) ∧
      rest.Pairwise (fun row row' =>
        row.createdAt < row'.createdAt)

variable {key : String}

variable {row : OutboxRow}

theorem mem_keyed {db : Database} :
    row ∈ keyed db key ↔ row ∈ db.outbox ∧ row.message.key = key := by
  simp [keyed]

theorem RelayInv.rows_unique (hInv : RelayInv s) :
    ∀ row ∈ s.calls.db.outbox, ∀ row' ∈ s.calls.db.outbox,
    row.message.id = row'.message.id → row = row' := by
  intro row hMem row' hMem' hSame
  exact List.inj_on_of_nodup_map hInv.filed.rows hMem hMem' hSame

variable {done rest : List OutboxRow}

/- The others have not been selected. -/
theorem RelayInv.not_taken (hInv : RelayInv s) (hRows : keyed s.calls.db key = done ++ rest)
    (hDone : done.map OutboxRow.message = s.ticks.taken.filter (fun m => m.key = key))
    (hMem : row ∈ rest) : row.message.id ∉ s.ticks.taken.map Message.id := by
  intro hTaken
  rcases List.mem_map.mp hTaken with ⟨m, hm, hSame⟩
  have hRow : row ∈ keyed s.calls.db key := by
    rw [hRows]
    exact List.mem_append_right _ hMem
  rcases mem_keyed.mp hRow with ⟨hStored, hKey⟩
  have hEq : m = row.message :=
    hInv.unique m (hInv.ticks.known_of_taken hm) row.message (List.mem_map_of_mem hStored) hSame
  have hFirst : m ∈ done.map OutboxRow.message := by
    rw [hDone, List.mem_filter]
    exact ⟨hm, decide_eq_true (by rw [hEq, hKey])⟩
  rcases List.mem_map.mp hFirst with ⟨row', hRow', hm'⟩
  -- the row would be there twice
  have hKeyed : ((done ++ rest).map (fun row => row.message.id)).Nodup := by
    rw [← hRows]
    exact hInv.filed.rows.sublist (List.filter_sublist.map _)
  rw [List.map_append] at hKeyed
  refine (List.nodup_append.mp hKeyed).2.2 _
    (List.mem_map_of_mem hRow') _ (List.mem_map_of_mem hMem) ?_
  rw [hm', hEq]

/- So a tick can select them. -/
theorem RelayInv.mem_unlocked_of_rest (hInv : RelayInv s) (hEnqueuing : Enqueuing s.calls)
    (hRows : keyed s.calls.db key = done ++ rest)
    (hDone : done.map OutboxRow.message = s.ticks.taken.filter (fun m => m.key = key))
    (hMem : row ∈ rest) : row ∈ unlocked s.calls s.ticks := by
  have hRow : row ∈ keyed s.calls.db key := by
    rw [hRows]
    exact List.mem_append_right _ hMem
  have hStored := (mem_keyed.mp hRow).1
  exact mem_unlocked.mpr ⟨hStored, hInv.ticks.available_of_not_taken
      (hInv.not_taken hRows hDone hMem), hEnqueuing.unblocked hInv.filed hStored⟩

theorem RelayInv.selects_next (hInv : RelayInv s) (hEnqueuing : Enqueuing s.calls)
    (hMarked : ∀ m ∈ s.ticks.taken, (s.ticks.marked m.id).isSome = true)
    (hRows : keyed s.calls.db key = done ++ rest)
    (hDone : done.map OutboxRow.message = s.ticks.taken.filter (fun m => m.key = key))
    (hLine : rest.Pairwise (fun row row' =>
      row.createdAt < row'.createdAt)) {limit : Nat} {picked : List OutboxRow}
    (hPicked : ∀ row ∈ picked, row ∈ unlocked s.calls s.ticks)
    (hNodup : (picked.map (fun row => row.message.id)).Nodup)
    (hOrdered : Ordered limit (unlocked s.calls s.ticks) picked) :
    picked.filter (fun row => row.message.key = key) <+:
      rest := by
  apply Dispatch.prefix_of_first hLine
  · intro row hMem
    rcases List.mem_filter.mp hMem with ⟨hIn, hKey⟩
    rcases mem_unlocked.mp (hPicked row hIn) with ⟨hStored, hAvailable, _⟩
    have hRow : row ∈ keyed s.calls.db key := mem_keyed.mpr ⟨hStored, of_decide_eq_true hKey⟩
    rw [hRows] at hRow
    rcases List.mem_append.mp hRow with hFirst | hRest
    · -- what has been selected is marked
      have hTaken : row.message ∈ s.ticks.taken.filter (fun m => m.key = key) := by
        rw [← hDone]
        exact List.mem_map_of_mem hFirst
      have hSome := hMarked row.message (List.mem_filter.mp hTaken).1
      unfold Dispatch.State.available at hAvailable
      rw [Bool.and_eq_true, Option.isNone_iff_eq_none] at hAvailable
      rw [hAvailable.1] at hSome
      cases hSome
    · exact hRest
  · exact hNodup.of_map.filter _
  · exact hOrdered.1.filter _
  · intro row hMem
    have hRow : row ∈ keyed s.calls.db key := by
      rw [hRows]
      exact List.mem_append_right _ hMem
    rcases mem_keyed.mp hRow with ⟨hStored, hKey⟩
    rcases hOrdered.2.2 row
        (hInv.mem_unlocked_of_rest hEnqueuing hRows hDone hMem) with hIn | ⟨_, hAll⟩
    · rcases List.mem_map.mp hIn with ⟨row', hRow', hSame⟩
      have hStored' := (mem_unlocked.mp (hPicked row' hRow')).1
      have hEq := hInv.rows_unique row' hStored' row hStored hSame
      rw [hEq] at hRow'
      exact Or.inl (List.mem_filter.mpr ⟨hRow', decide_eq_true hKey⟩)
    · right
      intro row' hRow'
      exact hAll row' (List.mem_filter.mp hRow').1

----
-- Every Run
----

variable {handler : ι → Tx α} {size : Int}

/-
  One relay beside transactions that enqueue one message at most: what it has selected is in line,
  for every key.
-/
structure OrderInv (Q : ι → List Write → α → Prop) (s : State ι α) : Prop where
  relay : RelayInv s
  turn : Dispatch.InTurn s.ticks
  enqueuing : Enqueuing s.calls
  guarded : postgres.Guarded (fun _ => Engine.Rely.top) (fun c _ ws b => Q c ws b) s.calls
  line : ∀ key, s.InLine key

theorem orderInv_start (Q : ι → List Write → α → Prop) (schema : Schema) :
    OrderInv Q (State.start (Database.empty schema) : State ι α) := by
  refine ⟨relayInv_start schema, Dispatch.inTurn_start, ⟨?_, ?_⟩, ?_, ?_⟩
  · intro i c t hCall
    cases hCall
  · intro i c t hCall
    cases hCall
  · intro i c t hCall
    cases hCall
  · intro key
    exact ⟨[], [], rfl, rfl, .nil⟩

variable {Q : ι → List Write → α → Prop}

/- A call commits a message that is the latest. -/
theorem OrderInv.commit (hOne : ∀ c ws b, Q c ws b → (ws.filterMap Write.message?).length ≤ 1)
    (hInv : OrderInv Q s) {i : Nat} {c : ι} {t : Engine.Txn Stmt Resp Write GoError α} {b : α}
    (hCall : s.calls.Running i c t) (hProg : t.prog = .ret b) (hLatest : s.Latest i)
    {calls : Engine.Config Database ι Stmt Resp Write GoError α}
    (hDb : calls.db = postgres.view s.calls.db t.writes) (key : String) :
    State.InLine { s with calls := calls } key := by
  rcases hInv.line key with ⟨done, rest, hRows, hDone, hLine⟩
  have hOutbox : calls.db.outbox = s.calls.db.outbox ++ t.writes.filterMap Write.message? := by
    rw [hDb]
    exact view_outbox _ (hInv.enqueuing.writes i c t hCall)
  have hPending : s.pending i = t.writes.filterMap Write.message? := by
    unfold State.pending
    rw [Engine.Config.running?_eq_some.mpr hCall]
  refine ⟨done, rest ++ (t.writes.filterMap Write.message?).filter
      (fun row => row.message.key = key), ?_, hDone, ?_⟩
  · show calls.db.outbox.filter _ = _
    rw [hOutbox, List.filter_append, ← List.append_assoc, ← hRows]
    rfl
  · apply List.pairwise_append.mpr
    refine ⟨hLine, ?_, ?_⟩
    · have hAtMost := hOne c t.writes b (hInv.guarded.post hCall hProg)
      apply List.Pairwise.filter
      generalize t.writes.filterMap Write.message? = rows at hAtMost
      rcases rows with _ | ⟨row, _ | ⟨row', rows⟩⟩
      · exact .nil
      · exact List.pairwise_singleton _ _
      · simp at hAtMost
    · intro old hOld row hRow
      rcases List.mem_filter.mp hRow with ⟨hNew, hKey⟩
      have hKeyed : old ∈ keyed s.calls.db key := by
        rw [hRows]
        exact List.mem_append_right _ hOld
      rcases mem_keyed.mp hKeyed with ⟨hStored, hOldKey⟩
      rw [← hPending] at hNew
      refine hLatest row hNew old hStored ?_ ?_
      · rw [hOldKey, of_decide_eq_true hKey]
      · exact hInv.relay.ticks.available_of_not_taken (hInv.relay.not_taken hRows hDone hOld)

theorem orderInv_step
    (hWp : ∀ c began db, postgres.Wp Engine.Rely.top (fun _ ws a => Q c ws a)
    began (handler c) [] db)
    (hOne : ∀ c ws b, Q c ws b → (ws.filterMap Write.message?).length ≤ 1)
    (hAsks : ∀ c, (handler c).Asks Stmt.Enqueues) {a : Action ι}
    (hInv : OrderInv Q s) (hSingle : s.single a = true) (hInOrder : s.InOrder a)
    (hStep : step handler size s a = some s') : OrderInv Q s' := by
  have hRelay := relayInv_step hInv.relay hStep
  cases a with
  | call a =>
    rcases Option.map_eq_some_iff.mp hStep with ⟨calls, hCall, rfl⟩
    refine ⟨hRelay, hInv.turn, enqueuing_step hAsks hInv.enqueuing hCall,
      Engine.guarded_top_step hWp hInv.guarded hCall, ?_⟩
    intro key
    rcases Engine.step_quiet_or_commit hCall with
      hQuiet | ⟨i, c, t, b, r, hRuns, hProg, hAction, _, rfl⟩
    · rcases hInv.line key with ⟨done, rest, hRows, hDone, hLine⟩
      refine ⟨done, rest, ?_, hDone, hLine⟩
      unfold keyed
      rw [hQuiet.observe tick_outbox]
      exact hRows
    · have hLatest : s.Latest i := by
        rcases hAction with rfl | rfl
        · exact hInOrder
        · exact hInOrder
      exact hInv.commit hOne hRuns hProg hLatest rfl key
  | tick a =>
    rcases Option.map_eq_some_iff.mp hStep with ⟨ticks, hTick, rfl⟩
    refine ⟨hRelay, Dispatch.inTurn_step hInv.turn hSingle hTick, hInv.enqueuing, hInv.guarded, ?_⟩
    intro key
    rcases hInv.line key with ⟨done, rest, hRows, hDone, hLine⟩
    rcases Dispatch.taken_step hInv.relay.ticks hInv.turn hSingle hTick with
      hSame | ⟨ids, batch, hSelect, hTaken, hMarked⟩
    · refine ⟨done, rest, hRows, ?_, hLine⟩
      rw [hSame]
      exact hDone
    · rcases select_rows hSelect with ⟨picked, rfl, hPicked, hNodup, hOrdered⟩
      rcases hInv.relay.selects_next hInv.enqueuing hMarked
          hRows hDone hLine hPicked hNodup hOrdered with ⟨later, hRest⟩
      refine ⟨done ++ picked.filter (fun row =>
        row.message.key = key), later, ?_, ?_, ?_⟩
      · rw [List.append_assoc, hRest]
        exact hRows
      · rw [hTaken, List.filter_append, List.map_append, hDone, List.filter_map]
        rfl
      · rw [← hRest] at hLine
        exact (List.pairwise_append.mp hLine).2.1

variable {schedule : List (Action ι)}

/- What has been published with a key is how its committed messages begin. -/
theorem published_in_line
    (hWp : ∀ c began db, postgres.Wp Engine.Rely.top (fun _ ws a => Q c ws a)
    began (handler c) [] db)
    (hOne : ∀ c ws b, Q c ws b → (ws.filterMap Write.message?).length ≤ 1)
    (hAsks : ∀ c, (handler c).Asks Stmt.Enqueues) {schema : Schema}
    (hMeets : Transition.Meets (step handler size) (fun s a => s.single a = true ∧ s.InOrder a)
    (State.start (Database.empty schema)) schedule)
    (hRun : Transition.run (step handler size)
    (State.start (Database.empty schema)) schedule = some s)
    (key : String) : s.published.filter (fun m => m.key = key) <+:
    (keyed s.calls.db key).map OutboxRow.message := by
  have hInv : OrderInv Q s := by
    apply Transition.run_induction_of_meets _ (orderInv_start Q schema) hMeets hRun
    rintro s a s' hInv ⟨hSingle, hInOrder⟩ hStep
    exact orderInv_step hWp hOne hAsks hInv hSingle hInOrder hStep
  rcases hInv.line key with ⟨done, rest, hRows, hDone, _⟩
  have hFirst : s.published.filter (fun m => m.key = key) <+:
        s.ticks.taken.filter (fun m => m.key = key) := (List.prefix_append _ _).filter _
  refine hFirst.trans ?_
  rw [← hDone, hRows, List.map_append]
  exact List.prefix_append _ _

/- The transactions run as they do without the relay. -/
theorem calls_run (hRun : Transition.run (step handler size) s schedule = some s') : ∃ as,
    Transition.run (postgres.step handler) s.calls as = some s'.calls := by
  induction schedule generalizing s with
  | nil =>
    cases hRun
    exact ⟨[], rfl⟩
  | cons a schedule ih =>
    rcases Transition.run_cons_eq_some hRun with ⟨t, hFirst, hRest⟩
    rcases ih hRest with ⟨as, hLater⟩
    cases a with
    | call a =>
      rcases Option.map_eq_some_iff.mp hFirst with ⟨calls, hCall, rfl⟩
      refine ⟨a :: as, ?_⟩
      rw [Transition.run, hCall]
      exact hLater
    | tick a =>
      rcases Option.map_eq_some_iff.mp hFirst with ⟨ticks, _, rfl⟩
      exact ⟨as, hLater⟩

----
-- Versions In Line
----

theorem versions_filter {events : List EventRow} {rows : List OutboxRow}
    (hPaired : List.Forall₂ Enveloped events rows) (key : String) :
    (rows.filter (fun row => row.message.key = key)).map (fun row => row.message.version?) =
      (events.filter (fun row =>
      row.event.aggregateID = key)).map (fun row => some (row.event.version : Int)) := by
  induction hPaired with
  | nil => rfl
  | cons hHead hTail ih =>
    rename_i event row events rows
    have hVersion : row.message.version? = some (event.event.version : Int) := by
      unfold Message.version?
      rw [hHead.version]
    have hKey : decide (row.message.key = key) = decide (event.event.aggregateID = key) := by
      rw [hHead.key]
    rw [List.filter_cons, List.filter_cons, hKey]
    cases decide (event.event.aggregateID = key) with
    | false => exact ih
    | true => exact congr (congrArg List.cons hVersion) ih

theorem publishedInOrder_of_line (hPaired : s.calls.db.Paired Enveloped)
    (hNumbered : Numbered s.calls.db)
    (hLine : ∀ key, s.published.filter (fun m => m.key = key) <+:
    (keyed s.calls.db key).map OutboxRow.message) :
    s.PublishedInOrder := by
  intro key
  have hVersions : (keyed s.calls.db key).map (fun row => row.message.version?) =
        (List.range' 1 (s.calls.db.rowsOf key).length).map (fun v : Nat => some (v : Int)) := by
    rw [← hNumbered key, List.map_map]
    exact versions_filter hPaired key
  have hAll :
      ((keyed s.calls.db key).map (fun row =>
        row.message.version?)).Pairwise (fun x y =>
          ∃ v v', x = some v ∧ y = some v' ∧ v < v') := by
    rw [hVersions]
    refine List.pairwise_map.mpr ((List.pairwise_lt_range').imp ?_)
    intro v v' hLt
    exact ⟨v, v', rfl, rfl, Int.ofNat_lt.mpr hLt⟩
  have hMessages :
      ((keyed s.calls.db key).map OutboxRow.message).Pairwise (fun m m' =>
          ∃ v v', m.version? = some v ∧ m'.version? = some v' ∧ v < v') :=
    List.pairwise_map.mpr (List.pairwise_map.mp hAll)
  exact hMessages.sublist (hLine key).sublist

end Fincore.OutboxRelay

----
-- Accounts And Payments
----

namespace Fincore

theorem append_enqueues (context : Option String) (es : List Event) :
    (EventStore.append context es).Asks Stmt.Enqueues := by
  induction es with
  | nil => trivial
  | cons e es ih => exact ⟨trivial, fun _ => ih⟩

theorem creating_enqueues {α : Type} (cr : Outbox.Creation) {upsert : Stmt}
    (hUpsert : upsert.Enqueues) (a : α) : (cr.creating upsert a).Asks Stmt.Enqueues :=
  ⟨trivial, fun _ => ⟨trivial, fun _ =>
    ⟨hUpsert, fun _ => trivial⟩⟩⟩

namespace Account

theorem Record.recording_enqueues (rec : Record) : rec.recording.Asks Stmt.Enqueues := by
  refine ⟨trivial, ?_⟩
  intro _
  dsimp only
  split
  · exact ⟨trivial, fun _ => ⟨trivial, fun _ =>
      ⟨trivial, fun _ => trivial⟩⟩⟩
  · exact ⟨trivial, fun _ => ⟨trivial, fun _ => trivial⟩⟩

theorem loadAccount_enqueues (accountID : String) : (loadAccount accountID).Asks Stmt.Enqueues := by
  rw [loadAccount_eq]
  refine ⟨trivial, ?_⟩
  intro latest
  refine Prog.Asks.bind (Prog.asks_ofExcept _ _) ?_
  intro ag
  exact ⟨trivial, fun rows => Prog.asks_ofExcept _ _⟩

theorem AccountTx.enqueues (c : AccountTx) : c.prog.Asks Stmt.Enqueues := by
  cases c with
  | openAccount customerID key env =>
    refine Prog.Asks.bind ?_ (fun _ => trivial)
    rcases openAccount_eq customerID key env with ⟨e, hFail⟩ | ⟨_, hCreating⟩
    · rw [hFail]
      trivial
    · rw [hCreating]
      refine creating_enqueues _ ?_ _
      trivial
  | recordMovement kind cmd entryID env =>
    refine Prog.Asks.bind ?_ (fun _ => trivial)
    by_cases hTime : Json.TimeInRange env.now
    · rw [recordMovement_eq kind cmd entryID hTime]
      refine Prog.Asks.bind (loadAccount_enqueues _) ?_
      intro ag
      split
      · trivial
      · exact Record.recording_enqueues _
    · rw [recordMovement_unwritten kind cmd entryID hTime]
      exact Prog.Asks.bind (loadAccount_enqueues _) (fun _ => trivial)

theorem AccountTx.messages_of_commits (c : AccountTx) (ws : List Write)
    (a : AccountAnswer) (hCommits : c.Commits ws a) : (ws.filterMap Write.message?).length ≤ 1 := by
  cases c with
  | openAccount customerID key env =>
    rcases hCommits with ⟨db, _, _, sequence, began, rfl⟩
    exact Nat.le_refl 1
  | recordMovement kind cmd entryID env =>
    rcases hCommits with ⟨db, _, ag, hMoved⟩
    rcases hMoved.writes with ⟨sequence, began, rfl⟩
    rw [Record.messages_writes]
    exact Nat.le_refl 1

theorem publishedInOrder {schema : Schema} {size : Int}
    {schedule : List (OutboxRelay.Action AccountTx)} {s : OutboxRelay.State AccountTx AccountAnswer}
    (hMeets : Transition.Meets (OutboxRelay.step AccountTx.prog size)
    (fun s a => s.single a = true ∧ s.InOrder a) (.start (Database.empty schema)) schedule)
    (hRun : Transition.run (OutboxRelay.step AccountTx.prog size)
    (.start (Database.empty schema)) schedule = some s) :
    s.PublishedInOrder := by
  rcases OutboxRelay.calls_run hRun with ⟨as, hCalls⟩
  refine OutboxRelay.publishedInOrder_of_line (accounts_paired hCalls)
    (snapshotInv_run hCalls).stored.numbered ?_
  intro key
  exact OutboxRelay.published_in_line AccountTx.commits_wp
    AccountTx.messages_of_commits AccountTx.enqueues hMeets hRun key

end Account

namespace Payment

theorem transition_enqueues (paymentID key : String) (act : Payment → Env → Except GoError Payment)
    (expected : DomainEvent → Bool) (env : Env) : (transition paymentID key act expected env).Asks
    Stmt.Enqueues := by
  unfold transition
  split
  · trivial
  split
  · trivial
  refine ⟨trivial, ?_⟩
  intro rows
  refine Prog.Asks.bind (Prog.asks_ofExcept _ _) ?_
  intro p
  unfold transitionFrom
  refine Prog.Asks.bind (Prog.asks_ofExcept _ _) ?_
  intro p
  split
  · split
    · trivial
    · refine Prog.Asks.bind (Prog.asks_ofExcept _ _) ?_
      intro b
      refine Prog.Asks.bind (append_enqueues _ _) ?_
      intro _
      refine ⟨trivial, ?_⟩
      intro row
      cases row with
      | none => trivial
      | some cur =>
        refine ⟨trivial, ?_⟩
        intro u
        refine Prog.Asks.bind (p := .ret u) trivial ?_
        intro _
        refine Prog.Asks.bind (Prog.asks_ofExcept _ _) ?_
        intro payload
        exact ⟨trivial, fun _ => trivial⟩
  · trivial

theorem PaymentTx.enqueues (c : PaymentTx) : c.prog.Asks Stmt.Enqueues := by
  cases c with
  | create cmd env =>
    refine Prog.Asks.bind ?_ (fun _ => trivial)
    rcases initiatePayment_eq cmd env with ⟨e, hFail⟩ | ⟨_, _, hCreating⟩
    · rw [hFail]
      trivial
    · rw [hCreating]
      refine creating_enqueues _ ?_ _
      trivial
  | record paymentID workflowID runID =>
    refine Prog.Asks.bind ?_ (fun _ => trivial)
    refine ⟨trivial, ?_⟩
    intro row
    cases row with
    | none => trivial
    | some cur => exact ⟨trivial, fun _ => trivial⟩
  | authorize paymentID key env =>
    exact Prog.Asks.bind (transition_enqueues _ _ _ _ _) (fun _ => trivial)
  | settle paymentID key env =>
    exact Prog.Asks.bind (transition_enqueues _ _ _ _ _) (fun _ => trivial)
  | fail paymentID key reason env =>
    exact Prog.Asks.bind (transition_enqueues _ _ _ _ _) (fun _ => trivial)

theorem Moved.messages {r : Database → Database → Prop} {paymentID : String}
    {env : Env} {allowed : Status → Prop} {next : Status} {db : Database}
    {ws : List Write} {a : PaymentAnswer} (hMoved : Moved r paymentID env allowed next db ws a) :
    (ws.filterMap Write.message?).length ≤ 1 := by
  rcases hMoved.explained with ⟨_, _, p, ev, cur, sequence, began, _, _, _, _, _, _, _, rfl, _⟩
  exact Nat.le_refl 1

theorem PaymentTx.messages_of_commits (c : PaymentTx) (ws : List Write)
    (a : PaymentAnswer) (hCommits : c.Commits ws a) : (ws.filterMap Write.message?).length ≤ 1 := by
  cases c with
  | create cmd env =>
    rcases hCommits with ⟨db, _, _, sequence, began, rfl⟩
    exact Nat.le_refl 1
  | record paymentID workflowID runID =>
    rcases hCommits with ⟨db, _, before, cur, _, _, rfl⟩
    exact Nat.zero_le 1
  | authorize paymentID key env =>
    rcases hCommits with ⟨db, hMoved⟩
    exact Moved.messages hMoved
  | settle paymentID key env =>
    rcases hCommits with ⟨db, hMoved⟩
    exact Moved.messages hMoved
  | fail paymentID key reason env =>
    rcases hCommits with ⟨db, hMoved⟩
    exact Moved.messages hMoved

theorem publishedInOrder {schema : Schema} {size : Int}
    {schedule : List (OutboxRelay.Action PaymentTx)} {s : OutboxRelay.State PaymentTx PaymentAnswer}
    (hMeets : Transition.Meets (OutboxRelay.step PaymentTx.prog size)
    (fun s a => s.single a = true ∧ s.InOrder a) (.start (Database.empty schema)) schedule)
    (hRun : Transition.run (OutboxRelay.step PaymentTx.prog size)
    (.start (Database.empty schema)) schedule = some s) :
    s.PublishedInOrder := by
  rcases OutboxRelay.calls_run hRun with ⟨as, hCalls⟩
  refine OutboxRelay.publishedInOrder_of_line (payments_paired hCalls)
    (lifecycleInv_run hCalls).numbered ?_
  intro key
  exact OutboxRelay.published_in_line PaymentTx.commits_wp
    PaymentTx.messages_of_commits PaymentTx.enqueues hMeets hRun key

end Payment

----
-- Published In The Order Of Versions
----

open Account Payment

/-
  Beside any transactions of the account or of the payment service, one relay that never fails
  publishes the messages of every aggregate in the order of their versions, in all runs in which a
  transaction that commits is the latest of its aggregate.
-/
theorem relay_keeps_order (accountSchema paymentSchema : Schema) (accountSize paymentSize : Int)
    (accountRun : List (OutboxRelay.Action AccountTx))
    (paymentRun : List (OutboxRelay.Action PaymentTx))
    (accounts : OutboxRelay.State AccountTx AccountAnswer)
    (payments : OutboxRelay.State PaymentTx PaymentAnswer)
    (hAccountSteps : Transition.Meets (OutboxRelay.step AccountTx.prog accountSize)
      (fun s a => s.single a = true ∧ s.InOrder a)
      (.start (Database.empty accountSchema)) accountRun)
    (hAccounts : Transition.run (OutboxRelay.step AccountTx.prog accountSize)
      (.start (Database.empty accountSchema)) accountRun = some accounts)
    (hPaymentSteps : Transition.Meets (OutboxRelay.step PaymentTx.prog paymentSize)
      (fun s a => s.single a = true ∧ s.InOrder a)
      (.start (Database.empty paymentSchema)) paymentRun)
    (hPayments : Transition.run (OutboxRelay.step PaymentTx.prog paymentSize)
      (.start (Database.empty paymentSchema)) paymentRun = some payments) :
    accounts.PublishedInOrder ∧ payments.PublishedInOrder :=
  ⟨Account.publishedInOrder hAccountSteps hAccounts,
    Payment.publishedInOrder hPaymentSteps hPayments⟩

/- The relay's first tick, with these messages. -/
def firstTick {ι : Type} (ids : List String) : List (OutboxRelay.Action ι) :=
  [.tick .begin, .tick (.claim 0 ids)] ++ ids.flatMap (fun _ =>
      [.tick (.perform 0), .tick (.mark 0)]) ++ [.tick (.commit 0)]

theorem deposit_and_settlement_published : ∃ accounts payments,
      Transition.run (OutboxRelay.step AccountTx.prog 0) (.start (Database.empty accountMigrations))
      (openAndDeposit.map .call ++ firstTick ["A-2", "d-1"]) = some accounts ∧
      Transition.run (OutboxRelay.step PaymentTx.prog 0) (.start (Database.empty paymentMigrations))
      (settledInFull.map .call ++ firstTick ["P-2", "a-1", "s-1"]) =
      some payments ∧ accounts.published.length = 2 ∧
      payments.published.length = 3 ∧ accounts.PublishedInOrder ∧
      payments.PublishedInOrder := by
  refine ⟨_, _, rfl, rfl, rfl, rfl, ?_⟩
  exact relay_keeps_order accountMigrations paymentMigrations 0 0
    (openAndDeposit.map .call ++ firstTick ["A-2", "d-1"])
    (settledInFull.map .call ++ firstTick ["P-2", "a-1", "s-1"]) _ _ (by decide) rfl (by decide) rfl

/-
  The first deposit starts before the second one and reads the account's events after its commit.
-/
def overlappingDeposits : List (Engine.Action AccountTx) :=
  [.start (.openAccount "customer" "open" (.tagged "A")),
    .exec 0, .exec 0, .exec 0, .finish 0, .start (.recordMovement .deposit
      ⟨"A-0", ⟨100, NGN⟩, "a", ""⟩ "e1" (.tagged "a")), .exec 1, .start (.recordMovement .deposit
      ⟨"A-0", ⟨50, NGN⟩, "b", ""⟩ "e2" (.tagged "b")),
    .exec 2, .exec 2, .exec 2, .exec 2, .exec 2, .finish 2,
    .exec 1, .exec 1, .exec 1, .exec 1, .finish 1]

/- Version 3 of the account is published before version 2. -/
theorem relay_swaps_versions : ∃ s, Transition.run (OutboxRelay.step AccountTx.prog 0)
      (.start (Database.empty accountMigrations))
      (overlappingDeposits.map .call ++ firstTick ["A-2", "a-1", "b-1"]) = some s ∧
      Transition.Meets (OutboxRelay.step AccountTx.prog 0) (fun s a => s.single a = true)
      (.start (Database.empty accountMigrations))
      (overlappingDeposits.map .call ++ firstTick ["A-2", "a-1", "b-1"]) ∧
      s.published.map (fun m => (m.key, m.version?)) =
      [("A-0", some 1), ("A-0", some 3), ("A-0", some 2)] ∧ ¬ s.PublishedInOrder := by
  refine ⟨_, rfl, by decide, rfl, ?_⟩
  intro hOrder
  have hPair := List.pairwise_cons.mp (List.pairwise_cons.mp (hOrder "A-0")).2
  rcases hPair.1 _ List.mem_cons_self with ⟨v, v', hv, hv', hLt⟩
  cases hv
  cases hv'
  exact absurd hLt (by decide)

end Fincore
