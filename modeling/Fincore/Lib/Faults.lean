import Fincore.Lib.Serial

/-
  Transactions that run alone and may be cut off.

  The connection may break between two statements or before the commit, which rolls everything back,
  or the acknowledgement of the commit may get lost. The caller is told of an error in both cases.

  Key definitions include:
    * `Engine.Fault`
    * `Engine.serialUnder` and `Engine.under`

  Main results:
    * `Engine.under_commits`
    * `Engine.under_aborts`
    * `Engine.under_ok_iff`
-/

----
-- Faults
----

namespace Engine

/-
  What happens to a transaction from outside: nothing, its connection breaks after some statements
  (or, if it has no more, before the commit), or its commit is not acknowledged.
-/
inductive Fault where
  | clean
  | broke (n : Nat)
  | unacked
  deriving DecidableEq

/- The same fault, seen one statement later. -/
def Fault.later : Fault → Fault
| .broke (n + 1) => .broke n
| f => f

/- The transaction is let to its commit. -/
def Fault.Commits : Fault → Prop
| .broke _ => False
| _ => True

instance (f : Fault) : Decidable f.Commits := by
  unfold Fault.Commits
  split
  · infer_instance
  · infer_instance

variable {Db Stmt Write Row Err α : Type} {Resp : Stmt → Type}

/- Run a transaction alone under a fault. -/
def serialUnder (E : Engine Db Stmt Resp Write Row Err) (began : Nat) :
    Fault → Prog Stmt Resp Err α → List Write → Db → Except Err α × Db
| .clean, .ret a, ws, db => (.ok a, E.view db ws)
| .unacked, .ret _, ws, db => (.error E.broken, E.view db ws)
| .broke _, .ret _, _, db => (.error E.broken, db)
| _, .fail e, _, db => (.error e, db)
| f, .ask s k, ws, db =>
  if f = .broke 0 then (.error E.broken, db)
  else
    match E.exec began s (E.view db ws) with
    | .ok (r, ws') =>
      serialUnder E began f.later (k r) (ws ++ ws') (E.tick s db)
    | .error e => (.error e, E.tick s db)

/- Open a transaction, run it under a fault and close it. -/
def under (E : Engine Db Stmt Resp Write Row Err) (f : Fault)
    (p : Prog Stmt Resp Err α) (db : Db) : Except Err α × Db := E.serialUnder (E.now db) f p [] db

----
-- Commits And Rollbacks Under A Fault
----

variable {E : Engine Db Stmt Resp Write Row Err} {began : Nat} {f : Fault} {s : Stmt}
variable {k : Resp s → Prog Stmt Resp Err α} {ws new : List Write} {db : Db}

theorem serialUnder_ask_broke : E.serialUnder began (.broke 0) (.ask s k) ws db =
    (.error E.broken, db) := by
  simp only [serialUnder, if_true]

theorem serialUnder_ask_exec {r : Resp s} (hLeft : f ≠ .broke 0)
    (hExec : E.exec began s (E.view db ws) = .ok (r, new)) :
    E.serialUnder began f (.ask s k) ws db =
    E.serialUnder began f.later (k r) (ws ++ new) (E.tick s db) := by
  simp only [serialUnder, if_neg hLeft, hExec]

theorem serialUnder_ask_error {e : Err} (hLeft : f ≠ .broke 0)
    (hExec : E.exec began s (E.view db ws) = .error e) :
    E.serialUnder began f (.ask s k) ws db = (.error e, E.tick s db) := by
  simp only [serialUnder, if_neg hLeft, hExec]

/- Without a fault it is `serial`. -/
theorem serialUnder_clean (p : Prog Stmt Resp Err α) (ws : List Write)
    (db : Db) : E.serialUnder began .clean p ws db = E.serial began p ws db := by
  induction p generalizing ws db with
  | ret a => rfl
  | fail e => rfl
  | ask s k ih =>
    cases hExec : E.exec began s (E.view db ws) with
    | error e =>
      rw [serialUnder_ask_error (f := .clean) nofun hExec, serial_ask_error hExec]
    | ok answer =>
      rw [serialUnder_ask_exec (f := .clean) nofun hExec, serial_ask_exec hExec]
      exact ih answer.1 _ _

/- A lost acknowledgement only hides the answer. -/
theorem serialUnder_unacked (p : Prog Stmt Resp Err α) (ws : List Write)
    (db : Db) : E.serialUnder began .unacked p ws db =
    ((E.serial began p ws db).1.bind (fun _ => .error E.broken), (E.serial began p ws db).2) := by
  induction p generalizing ws db with
  | ret a => rfl
  | fail e => rfl
  | ask s k ih =>
    cases hExec : E.exec began s (E.view db ws) with
    | error e =>
      rw [serialUnder_ask_error (f := .unacked) nofun hExec, serial_ask_error hExec]
      rfl
    | ok answer =>
      rw [serialUnder_ask_exec (f := .unacked) nofun hExec, serial_ask_exec hExec]
      exact ih answer.1 _ _

/- A connection that breaks rolls everything back. -/
theorem serialUnder_broke (n : Nat) (p : Prog Stmt Resp Err α) (ws : List Write)
    (db : Db) : ∃ e db', E.Ticked db db' ∧
    E.serialUnder began (.broke n) p ws db = (.error e, db') := by
  induction p generalizing n ws db with
  | ret a => exact ⟨E.broken, db, .refl db, rfl⟩
  | fail e => exact ⟨e, db, .refl db, rfl⟩
  | ask s k ih =>
    cases n with
    | zero =>
      exact ⟨E.broken, db, .refl db, serialUnder_ask_broke⟩
    | succ n =>
      cases hExec : E.exec began s (E.view db ws) with
      | error e =>
        rw [serialUnder_ask_error (f := .broke (n + 1)) nofun hExec]
        exact ⟨e, _, .tick s (.refl _), rfl⟩
      | ok answer =>
        rw [serialUnder_ask_exec (f := .broke (n + 1)) nofun hExec]
        rcases ih answer.1 n (ws ++ answer.2) (E.tick s db) with ⟨e, db', hTicked, hRun⟩
        exact ⟨e, db', .tick s hTicked, hRun⟩

variable {p : Prog Stmt Resp Err α}

theorem under_clean : E.under .clean p db = E.withTx p db := serialUnder_clean ..

/- A transaction that is let to its commit commits. -/
theorem under_commits {a : α} {db' : Db} (hTx : E.withTx p db = (.ok a, db'))
    (hCommits : f.Commits) : E.under f p db =
      (if f = .clean then .ok a else .error E.broken, db') := by
  unfold withTx at hTx
  unfold under
  cases f with
  | clean =>
    rw [serialUnder_clean, hTx]
    rfl
  | broke n => exact hCommits.elim
  | unacked =>
    rw [serialUnder_unacked, hTx]
    rfl

/- Any other one fails, and leaves nothing that lasts. -/
theorem under_aborts {β : Type} (core : Db → β) (hTick : ∀ s db, core (E.tick s db) = core db)
    (hNot : ¬ (f.Commits ∧ ∃ a, (E.withTx p db).1 = .ok a)) : (∃ e, (E.under f p db).1 = .error e) ∧
    core (E.under f p db).2 = core db := by
  have hSerial : f.Commits → ∃ e, (E.serial (E.now db) p [] db).1 = .error e := by
    intro hCommits
    cases hTx : (E.serial (E.now db) p [] db).1 with
    | error e => exact ⟨e, rfl⟩
    | ok a => exact absurd ⟨hCommits, a, hTx⟩ hNot
  unfold under
  cases f with
  | clean =>
    rcases hSerial trivial with ⟨e, hError⟩
    rw [serialUnder_clean]
    exact ⟨⟨e, hError⟩, E.serial_error_observe core hTick _ p [] db hError⟩
  | broke n =>
    rcases E.serialUnder_broke n p [] db with ⟨e, db', hTicked, hRun⟩
    rw [hRun]
    exact ⟨⟨e, rfl⟩, hTicked.observe hTick⟩
  | unacked =>
    rcases hSerial trivial with ⟨e, hError⟩
    rw [serialUnder_unacked, hError]
    exact ⟨⟨e, rfl⟩, E.serial_error_observe core hTick _ p [] db hError⟩

/- The caller gets an answer if nothing goes wrong. -/
theorem under_ok_iff : (∃ a, (E.under f p db).1 = .ok a) ↔
    f = .clean ∧ ∃ a, (E.withTx p db).1 = .ok a := by
  by_cases hEnd : f.Commits ∧ ∃ a, (E.withTx p db).1 = .ok a
  · rcases hEnd with ⟨hCommits, a, hOk⟩
    have hTx : E.withTx p db = (.ok a, (E.withTx p db).2) := Prod.ext hOk rfl
    rw [under_commits hTx hCommits]
    by_cases hClean : f = .clean
    · rw [if_pos hClean]
      exact iff_of_true ⟨a, rfl⟩ ⟨hClean, a, hOk⟩
    · rw [if_neg hClean]
      refine iff_of_false ?_ (fun h => hClean h.1)
      rintro ⟨b, hb⟩
      cases hb
  · rcases (under_aborts (fun _ => ()) (fun _ _ => rfl) hEnd).1 with ⟨e, hError⟩
    rw [hError]
    refine iff_of_false ?_ ?_
    · rintro ⟨b, hb⟩
      cases hb
    · rintro ⟨rfl, hOk⟩
      exact hEnd ⟨trivial, hOk⟩

end Engine
