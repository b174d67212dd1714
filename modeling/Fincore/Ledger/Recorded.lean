import Fincore.Ledger.Worker
import Fincore.Pkg.Streams

/-
  What stands behind a successful answer of the ledger.

  A key is recorded together with the entry of the command that was first to commit under it, and
  every later success under the key answers with that entry. Commands are not compared: the entry is
  the first command's.

  Key definitions include:
    * `HasEntry`
    * `Recorded`
    * `OneKey`

  Main results:
    * `recorded_run`
    * `recorded_answer`
    * `oneKey_step`
-/

----
-- Entries Behind Keys
----

namespace Fincore.Ledger

/- The event store contains the entry. -/
def HasEntry (db : Database) (e : EntryPosted) : Prop :=
  ∃ row ∈ db.events, row.event.type = EntryPosted.eventType ∧
      EntryPosted.unmarshal row.event.data = .ok e

/-
  Every recorded key names the stored entry of a command that carried it, and every success answers
  what its key names.
-/
structure Recorded (cfg : Calls) : Prop where
  stored : ∀ k entryID, cfg.db.idempotency k = some entryID → ∃ j first env,
        cfg.input? j = some (first, env) ∧ first.idempotencyKey = k ∧
          HasEntry cfg.db (first.posted env) ∧ env.newID 0 = entryID
  answers : ∀ i call entryID, cfg.Returned i call (.ok entryID) →
        cfg.db.idempotency call.1.idempotencyKey = some entryID

theorem recorded_start (schema : Schema) : Recorded (Calls.start (Database.empty schema)) := by
  refine ⟨?_, ?_⟩
  · intro k entryID hKey
    cases hKey
  · intro i call entryID hReturned
    cases hReturned

variable {cfg cfg' : Calls}

theorem Recorded.of_same (hInv : Recorded cfg)
    (hKeys : cfg'.db.idempotency = cfg.db.idempotency) (hEvents : cfg'.db.events = cfg.db.events)
    (hInput : ∀ i c, cfg.input? i = some c → cfg'.input? i = some c)
    (hAnswered : ∀ i c b, cfg'.Returned i c (.ok b) →
    cfg.Returned i c (.ok b)) : Recorded cfg' := by
  refine ⟨?_, ?_⟩
  · intro k entryID hKey
    rw [hKeys] at hKey
    rcases hInv.stored k entryID hKey with ⟨j, first, env, hFirst, hSame, hEntry, hID⟩
    refine ⟨j, first, env, hInput j _ hFirst, hSame, ?_, hID⟩
    unfold HasEntry
    rw [hEvents]
    exact hEntry
  · intro i call entryID hReturned
    rw [hKeys]
    exact hInv.answers i call entryID (hAnswered i call entryID hReturned)

variable {call : PostEntry × Env}

variable {t : Engine.Txn Stmt Resp Write GoError String} {entryID : String} {i : Nat}

theorem recorded_commit {cfg : Calls}
    {r : Except GoError String} (hCalls : CallInv cfg) (hInv : Recorded cfg)
    (hCall : cfg.Running i call t) (hProg : t.prog = .ret entryID)
    (hAnswer : r = .ok entryID ∨ r = .error postgres.broken) :
    Recorded (cfg.commit postgres i call t.writes r) := by
  have hPost := hCalls.post hCall hProg
  have hInput : ∀ ws j, (cfg.commit postgres i call ws r).input? j =
      cfg.input? j := fun ws j => Engine.input?_commit hCall ws j
  have hDb : (cfg.commit postgres i call t.writes r).db = postgres.view cfg.db t.writes := rfl
  refine ⟨?_, ?_⟩
  · intro k old hKey
    rw [hDb] at hKey ⊢
    rcases hPost with ⟨hNil, _⟩ | hPosts
    · rw [hNil] at hKey ⊢
      rcases hInv.stored k old hKey with ⟨j, first, env, hFirst, hRest⟩
      refine ⟨j, first, env, ?_, hRest⟩
      rw [hInput]
      exact hFirst
    · rcases hPosts.writes with ⟨sequence, began, hWrites⟩
      rw [hWrites] at hKey ⊢
      rw [PostEntry.view_writes_idempotency] at hKey
      by_cases hOwn : k = call.1.idempotencyKey
      · -- the entry this commit posts
        rw [if_pos hOwn] at hKey
        refine ⟨i, call.1, call.2, ?_, hOwn.symm, ?_, Option.some.inj hKey⟩
        · rw [hInput]
          exact hCall.input?_eq
        · refine ⟨⟨sequence, call.1.event call.2⟩, ?_, rfl, EntryPosted.unmarshal_document _⟩
          rw [PostEntry.view_writes_events]
          exact List.mem_append_right _ List.mem_cons_self
      · -- an entry posted before
        rw [if_neg hOwn] at hKey
        rcases hInv.stored k old hKey with ⟨j, first, env, hFirst, hSame, hEntry, hID⟩
        refine ⟨j, first, env, ?_, hSame, ?_, hID⟩
        · rw [hInput]
          exact hFirst
        · rcases hEntry with ⟨row, hMem, hType, hDecoded⟩
          refine ⟨row, ?_, hType, hDecoded⟩
          rw [PostEntry.view_writes_events]
          exact List.mem_append_left _ hMem
  · intro j other answer hReturned
    rcases Engine.returned_commit hReturned with ⟨_, rfl, hEq⟩ | hOld
    · rcases hAnswer with rfl | rfl
      · cases hEq
        exact hPost.records
      · cases hEq
    · exact hPost.keeps_keys (hInv.answers j other answer hOld)

theorem recorded_callsStep (hCalls : CallInv cfg)
    (hInv : Recorded cfg) (hStep : CallsStep cfg cfg') : Recorded cfg' := by
  cases hStep with
  | same => exact hInv
  | call a hOwn =>
    rcases Engine.step_quiet_or_commit hOwn with hQuiet |
        ⟨i, call, t, b, r, hCall, hProg, _, hAnswer, rfl⟩
    · exact hInv.of_same (hQuiet.observe tick_idempotency)
        (hQuiet.observe tick_events) hQuiet.input hQuiet.answered
    · exact recorded_commit hCalls hInv hCall hProg hAnswer
  | outside stmt hFree hRange =>
    refine Recorded.of_same hInv ?_ ?_ ?_ ?_
    · rcases hFree with rfl | ⟨a, d, rfl, _⟩
      · exact tick_idempotency stmt cfg.db
      · exact tick_idempotency stmt cfg.db
    · rcases hFree with rfl | ⟨a, d, rfl, _⟩
      · exact tick_events stmt cfg.db
      · exact tick_events stmt cfg.db
    · intro i call hInput
      exact hInput
    · intro i call b hReturned
      exact hReturned

/- In every run of the service, answers are recorded. -/
theorem recorded_run {schema : Schema} {schedule : List ServiceAction} {s : Service}
    (hRun : Transition.run serviceStep (Service.start (Database.empty schema)) schedule = some s) :
    Recorded s.calls := by
  have hBoth : ServiceInv s ∧ Recorded s.calls := by
    apply Transition.run_induction _ _ hRun
    · rintro s a s' ⟨hService, hInv⟩ hStep
      refine ⟨serviceInv_step hService hStep, ?_⟩
      exact recorded_callsStep hService.calls hInv (serviceStep_spec hService.batch hStep).1
    · exact ⟨serviceInv_start schema, recorded_start schema⟩
  exact hBoth.2

/-
  A success under a key answers with a stored entry, and the entry is that of a command which
  carried the key.
-/
theorem recorded_answer {cfg : Calls} (hInv : Recorded cfg)
    (hReturned : cfg.Returned i call (.ok entryID)) : ∃ j first env,
    cfg.input? j = some (first, env) ∧ first.idempotencyKey = call.1.idempotencyKey ∧
    HasEntry cfg.db (first.posted env) ∧ (first.posted env).entryID = entryID := by
  have hKey := hInv.answers i call entryID hReturned
  exact hInv.stored _ _ hKey

----
-- One Key For Each Entry
----

/- An entry that a key names has its place in the log, and no other key names it. -/
structure OneKey (cfg : Calls) : Prop where
  indexed : Indexed cfg
  placed : ∀ k entryID, cfg.db.idempotency k = some entryID →
      ∃ row ∈ cfg.db.events, row.event.aggregateID = entryID ∧ row.event.version = 1
  single : ∀ k k' entryID, cfg.db.idempotency k = some entryID →
      cfg.db.idempotency k' = some entryID → k = k'

theorem oneKey_start (schema : Schema) : OneKey (Calls.start (Database.empty schema)) := by
  refine ⟨indexed_start _, ?_, ?_⟩
  · intro k entryID hKey
    cases hKey
  · intro k k' entryID hKey
    cases hKey

/- A new entry takes a free place, so no key names it yet. -/
theorem oneKey_commit {cfg : Calls}
    (hCalls : CallInv cfg) (hInv : OneKey cfg) (hCall : cfg.Running i call t)
    (hProg : t.prog = .ret entryID) :
    (∀ k x, (postgres.view cfg.db t.writes).idempotency k = some x →
    ∃ row ∈ (postgres.view cfg.db t.writes).events,
    row.event.aggregateID = x ∧ row.event.version = 1) ∧ ∀ k k' x,
    (postgres.view cfg.db t.writes).idempotency k = some x →
    (postgres.view cfg.db t.writes).idempotency k' = some x → k = k' := by
  rcases hCalls.post hCall hProg with ⟨hNil, _⟩ | hPosts
  · rw [hNil]
    exact ⟨hInv.placed, hInv.single⟩
  rcases hPosts.writes with ⟨sequence, began, hWrites⟩
  have hFresh : ∀ k, cfg.db.idempotency k ≠ some (call.2.newID 0) := by
    intro k hKey
    rcases hInv.placed k _ hKey with ⟨old, hMem, hSame, hVersion⟩
    refine hInv.indexed.fresh i call t hCall
      ⟨sequence, call.1.event call.2⟩ ?_ old hMem ⟨hSame, hVersion⟩
    rw [hWrites]
    exact List.mem_cons_self
  rw [hWrites]
  refine ⟨?_, ?_⟩
  · intro k x hKey
    rw [PostEntry.view_writes_idempotency] at hKey
    rw [PostEntry.view_writes_events]
    split at hKey
    · cases hKey
      exact ⟨_, List.mem_append_right _ List.mem_cons_self, rfl, rfl⟩
    · rcases hInv.placed k x hKey with ⟨row, hMem, hRow⟩
      exact ⟨row, List.mem_append_left _ hMem, hRow⟩
  · intro k k' x hKey hKey'
    rw [PostEntry.view_writes_idempotency] at hKey hKey'
    split at hKey
    · rename_i hOwn
      cases hKey
      split at hKey'
      · rename_i hOwn'
        rw [hOwn, hOwn']
      · exact absurd hKey' (hFresh k')
    · split at hKey'
      · cases hKey'
        exact absurd hKey (hFresh k)
      · exact hInv.single k k' x hKey hKey'

theorem oneKey_step {a : Engine.Action (PostEntry × Env)} (hCalls : CallInv cfg) (hInv : OneKey cfg)
    (hStep : callStep cfg a = some cfg') : OneKey cfg' := by
  have hIndexed := indexed_step hInv.indexed hStep
  rcases Engine.step_quiet_or_commit hStep with hQuiet | ⟨i, call, t, b, r, hCall, hProg, _, _, rfl⟩
  · refine ⟨hIndexed, ?_, ?_⟩
    · rw [hQuiet.observe tick_idempotency, hQuiet.observe tick_events]
      exact hInv.placed
    · rw [hQuiet.observe tick_idempotency]
      exact hInv.single
  · rcases oneKey_commit hCalls hInv hCall hProg with ⟨hPlaced, hSingle⟩
    exact ⟨hIndexed, hPlaced, hSingle⟩

end Fincore.Ledger
