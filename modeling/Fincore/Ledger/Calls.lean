import Fincore.Ledger.PostEntry
import Fincore.Lib.Journal

/-
  Any number of `PostEntry` calls on one ledger database, interleaved statement by statement, with
  retries, lost acknowledgements and broken connections.

  Key definitions include:
    * `Calls`
    * `callStep`
    * `OneEntry`

  Main results:
    * `callInv_step`
    * `one_entry_per_key`
-/

----
-- Interleaved Calls
----

namespace Fincore.Ledger

/- A database and the `PostEntry` calls made on it. -/
abbrev Calls := Engine.Config Database (PostEntry × Env) Stmt Resp Write GoError String

/- Each call runs `Handle` with its own process's values. -/
def serve (call : PostEntry × Env) : Tx String := call.1.handle call.2

/- No call has been made yet. -/
def Calls.start (db : Database) : Calls := ⟨db, [], []⟩

/- One statement, commit or failure of one call. -/
def callStep (cfg : Calls) (a : Engine.Action (PostEntry × Env)) : Option Calls :=
  postgres.step serve cfg a

----
-- What Every Call Can Count On
----

/- Row locks exclude, every call still meets its `Post`. -/
structure CallInv (cfg : Calls) : Prop where
  exclusive : postgres.Exclusive cfg
  guarded : postgres.Guarded (fun _ => rely) (fun call => call.1.Post call.2) cfg
  sourced : cfg.Sourced

theorem callInv_start (db : Database) : CallInv (Calls.start db) := by
  refine ⟨?_, ?_, ?_⟩
  · intro i j _ c t c' t' hi
    cases hi
  · intro i c t hi
    cases hi
  · intro e hMem
    cases hMem

variable {entryID : String} {cfg : Calls}

variable {t : Engine.Txn Stmt Resp Write GoError String} {call : PostEntry × Env}

/- What a committing call has in its hands. -/
theorem CallInv.post (hInv : CallInv cfg) {i : Nat} (hCall : cfg.Running i call t)
    (hProg : t.prog = .ret entryID) :
    call.1.Post call.2 cfg.db t.writes entryID := hInv.guarded.post hCall hProg

variable {ws : List Write}

variable {cmd : PostEntry} {db : Database}

/- A commit changes no key that was recorded before. -/
theorem PostEntry.Post.keeps_keys {env : Env} {entryID k old : String}
    (hPost : cmd.Post env db ws entryID) (hKey : db.idempotency k = some old) :
    (postgres.view db ws).idempotency k = some old := by
  rcases hPost with ⟨rfl, _⟩ | hPosts
  · exact hKey
  · rcases hPosts.writes with ⟨sequence, began, rfl⟩
    have hOther : k ≠ cmd.idempotencyKey := by
      rintro rfl
      rw [hPosts.absent] at hKey
      cases hKey
    rw [PostEntry.view_writes_idempotency, if_neg hOther]
    exact hKey

/- After a commit the key names the call's answer. -/
theorem PostEntry.Post.records {env : Env} (hPost : cmd.Post env db ws entryID) :
    (postgres.view db ws).idempotency cmd.idempotencyKey = some entryID := by
  rcases hPost with ⟨rfl, hFound⟩ | hPosts
  · exact hFound
  · rcases hPosts.writes with ⟨sequence, began, rfl⟩
    rw [PostEntry.view_writes_idempotency, if_pos rfl, hPosts.answer]

theorem CallInv.rely_commit (hInv : CallInv cfg) {i j : Nat} {call other : PostEntry × Env}
    {t t' : Engine.Txn Stmt Resp Write GoError String}
    (hNe : i ≠ j) (hCall : cfg.Running i call t) (hProg : t.prog = .ret entryID)
    (hOther : cfg.Running j other t') : rely.rel t' cfg.db (postgres.view cfg.db t.writes) := by
  refine ⟨?_, ?_⟩
  · intro k old hKey
    exact (hInv.post hCall hProg).keeps_keys hKey
  · intro w hMem row hRow
    apply Row.same_view
    intro w' hMem' hRow'
    exact hInv.exclusive i j hNe _ _ _ _ hCall hOther w' hMem' w hMem row hRow' hRow

theorem callInv_step {cfg cfg' : Calls} {a : Engine.Action (PostEntry × Env)}
    (hInv : CallInv cfg) (hStep : callStep cfg a = some cfg') : CallInv cfg' := by
  refine ⟨Engine.exclusive_step hInv.exclusive hStep, ?_, ?_⟩
  · apply Engine.guarded_step _ _ _ hInv.guarded hStep
    · intro call
      exact call.1.handle_wp call.2 _ cfg.db
    · intro _ t s db
      exact rely_tick t s db
    · intro i call t b j other t' hNe _ hCall hProg hOther
      exact hInv.rely_commit hNe hCall hProg hOther
  · rcases Engine.step_quiet_or_commit hStep with hQuiet | ⟨i, call, t, b, r, hCall, _, _, _, rfl⟩
    · exact hInv.sourced.quiet hQuiet
    · exact hInv.sourced.commit hCall t.writes

/- Nothing, or one delta to a balance no call is holding. -/
def FreeDelta (cfg : Calls) (ws : List Write) : Prop :=
  ws = [] ∨ ∃ a d, ws = [.balance a 1 d] ∧ ∀ j call t, cfg.Running j call t →
        ∀ w ∈ t.writes, Row.balance a 1 ∉ w.holds

theorem CallInv.outside (hInv : CallInv cfg) (s : Stmt) (hFree : FreeDelta cfg ws) : CallInv
    (cfg.outside postgres s ws) := by
  refine ⟨hInv.exclusive, ?_, hInv.sourced.outside s ws⟩
  apply hInv.guarded.of_rely
  intro j call t hCall
  refine ⟨?_, ?_⟩
  · intro k entryID hKey
    rcases hFree with rfl | ⟨a, d, rfl, _⟩
    · simpa using hKey
    · have hSame : (postgres.tick s cfg.db).idempotency k = some entryID := by
        simpa using hKey
      exact hSame
  · intro w hMem row hRow
    apply (Row.same_tick cfg.db s row).trans
    apply Row.same_view
    intro w' hMem' hRow'
    rcases hFree with rfl | ⟨a, d, rfl, hRows⟩
    · cases hMem'
    · rw [List.mem_singleton.mp hMem'] at hRow'
      rw [List.mem_singleton.mp hRow'] at hRow
      exact hRows j call t hCall w hMem hRow

----
-- One Entry For Each Key
----

/- What calls carrying the key have committed. -/
def Calls.committed (cfg : Calls) (k : String) : List Write :=
  cfg.writesOf (fun call => call.1.idempotencyKey == k)

def isEvent : Write → Bool
| .event _ => true
| _ => false

def isDelta : Write → Bool
| .balance _ _ _ => true
| _ => false

def isMessage : Write → Bool
| .message _ => true
| _ => false

/-
  The calls carrying the key have committed at most one event, one delta and one message, and the
  successful ones have all returned one entry identifier.
-/
structure OneEntry (cfg : Calls) (k : String) : Prop where
  events : (cfg.committed k).countP isEvent ≤ 1
  deltas : (cfg.committed k).countP isDelta ≤ 1
  messages : (cfg.committed k).countP isMessage ≤ 1
  answers : ∀ i j call call' entryID entryID', call.1.idempotencyKey = k →
        call'.1.idempotencyKey = k → cfg.Returned i call (.ok entryID) →
            cfg.Returned j call' (.ok entryID') → entryID = entryID'

/-
  The key row decides: without it nothing was committed under the key, with it the rows of one
  command were, and every success returned the entry it names.
-/
structure KeyInv (cfg : Calls) (k : String) : Prop where
  fresh : cfg.db.idempotency k = none → cfg.committed k = []
  single : cfg.committed k = [] ∨ ∃ (cmd : PostEntry) (env : Env) (sequence began : Nat),
        cfg.committed k = cmd.writes env sequence began
  answers : ∀ i call entryID, cfg.Returned i call (.ok entryID) →
        call.1.idempotencyKey = k → cfg.db.idempotency k = some entryID

variable {k : String}

theorem KeyInv.oneEntry (hInv : KeyInv cfg k) : OneEntry cfg k := by
  refine ⟨?_, ?_, ?_, ?_⟩
  · rcases hInv.single with hNil | ⟨cmd, env, _, _, hOne⟩
    · simp [hNil]
    · rw [hOne]
      exact Nat.le_refl 1
  · rcases hInv.single with hNil | ⟨cmd, env, _, _, hOne⟩
    · simp [hNil]
    · rw [hOne]
      exact Nat.le_refl 1
  · rcases hInv.single with hNil | ⟨cmd, env, _, _, hOne⟩
    · simp [hNil]
    · rw [hOne]
      exact Nat.le_refl 1
  · intro i j call call' entryID entryID' hk hk' hi hj
    have hFirst := hInv.answers i call entryID hi hk
    have hSecond := hInv.answers j call' entryID' hj hk'
    rw [hFirst] at hSecond
    exact Option.some.inj hSecond

theorem keyInv_start (db : Database) (k : String) : KeyInv (Calls.start db) k := by
  refine ⟨?_, Or.inl rfl, ?_⟩
  · intro _
    rfl
  · intro i call entryID hReturned
    cases hReturned

theorem keyInv_quiet {cfg cfg' : Calls} (hCalls : CallInv cfg)
    (hInv : KeyInv cfg k) (hQuiet : cfg.Quiet postgres cfg') : KeyInv cfg' k := by
  have hKeys : cfg'.db.idempotency = cfg.db.idempotency := hQuiet.observe tick_idempotency
  have hCommitted : cfg'.committed k = cfg.committed k :=
    Engine.Config.writesOf_quiet hCalls.sourced hQuiet _
  refine ⟨?_, ?_, ?_⟩
  · rw [hKeys, hCommitted]
    exact hInv.fresh
  · rw [hCommitted]
    exact hInv.single
  · intro i call entryID hReturned hk
    rw [hKeys]
    exact hInv.answers i call entryID (hQuiet.answered i call entryID hReturned) hk

theorem keyInv_commit {i : Nat} {r : Except GoError String} (hCalls : CallInv cfg)
    (hInv : KeyInv cfg k) (hCall : cfg.Running i call t) (hProg : t.prog = .ret entryID)
    (hAnswer : r = .ok entryID ∨ r = .error postgres.broken) :
    KeyInv (cfg.commit postgres i call t.writes r) k := by
  have hPost := hCalls.post hCall hProg
  have hCommitted : Calls.committed (cfg.commit postgres i call t.writes r) k = cfg.committed k ++
          if call.1.idempotencyKey == k then t.writes
          else [] := Engine.Config.writesOf_commit hCalls.sourced hCall _ _
  have hKept : ∀ old, cfg.db.idempotency k = some old →
      (postgres.view cfg.db t.writes).idempotency k = some old :=
    fun _ hKey => hPost.keeps_keys hKey
  -- the answer this commit may have returned
  have hNew : call.1.idempotencyKey = k →
      (postgres.view cfg.db t.writes).idempotency k = some entryID := by
    rintro rfl
    exact hPost.records
  refine ⟨?_, ?_, ?_⟩
  · intro hAbsent
    have hNone : (postgres.view cfg.db t.writes).idempotency k =
        none := hAbsent
    have hOld : cfg.db.idempotency k = none := by
      cases hKey : cfg.db.idempotency k with
      | none => rfl
      | some old =>
        have hSome := hKept old hKey
        rw [hNone] at hSome
        cases hSome
    have hOther : call.1.idempotencyKey ≠ k := by
      intro hSame
      have hSome := hNew hSame
      rw [hNone] at hSome
      cases hSome
    rw [hCommitted, hInv.fresh hOld]
    simp [hOther]
  · rw [hCommitted]
    by_cases hSame : call.1.idempotencyKey = k
    · subst hSame
      rcases hPost with ⟨hNil, _⟩ | hPosts
      · simpa [hNil] using hInv.single
      · right
        rcases hPosts.writes with ⟨sequence, began, hWrites⟩
        refine ⟨call.1, call.2, sequence, began, ?_⟩
        rw [hInv.fresh hPosts.absent, hWrites]
        simp
    · simpa [hSame] using hInv.single
  · intro j other entryID' hReturned hk
    rcases Engine.returned_commit hReturned with ⟨_, rfl, hEq⟩ | hOld
    · rcases hAnswer with rfl | rfl
      · cases hEq
        exact hNew hk
      · cases hEq
    · exact hKept entryID' (hInv.answers j other entryID' hOld hk)

/-
  Whatever the interleaving, one key is one entry. The lookup at the start cannot promise this to
  racing calls; the key row, inserted late, does.
-/
theorem one_entry_per_key (db : Database)
    (schedule : List (Engine.Action (PostEntry × Env))) (cfg : Calls)
    (hRun : Transition.run callStep (Calls.start db) schedule = some cfg)
    (k : String) : OneEntry cfg k := by
  have hBoth : CallInv cfg ∧ KeyInv cfg k := by
    apply Transition.run_induction _ _ hRun
    · rintro s a s' ⟨hCalls, hInv⟩ hStep
      refine ⟨callInv_step hCalls hStep, ?_⟩
      rcases Engine.step_quiet_or_commit hStep with hQuiet |
          ⟨i, call, t, b, r, hCall, hProg, _, hAnswer, rfl⟩
      · exact keyInv_quiet hCalls hInv hQuiet
      · exact keyInv_commit hCalls hInv hCall hProg hAnswer
    · exact ⟨callInv_start db, keyInv_start db k⟩
  exact hBoth.2.oneEntry

/-
  Two calls carry one key and both find it unused. The first commits and its acknowledgement is
  lost, the second fails on the key row, and the retry of the first returns.
-/
def lostAcknowledgement : List (Engine.Action (PostEntry × Env)) :=
  [.start (.of "k" "acc" entryTypeDeposit 100, .tagged "1"),
    .start (.of "k" "acc" entryTypeDeposit 100, .tagged "2"), .exec 0, .exec 1, .exec 0, .exec 1,
    .exec 0, .exec 0, .exec 0, .exec 0, .unacked 0, .exec 1, .exec 1, .exec 1,
    .start (.of "k" "acc" entryTypeDeposit 100, .tagged "3"), .exec 2, .finish 2]

theorem one_entry_after_lost_acknowledgement : ∃ cfg, Transition.run callStep
      (Calls.start (Database.empty ledgerSchema))
      lostAcknowledgement = some cfg ∧ OneEntry cfg "k" := by
  refine ⟨_, rfl, ?_⟩
  exact one_entry_per_key (Database.empty ledgerSchema) lostAcknowledgement _ rfl "k"

end Fincore.Ledger
