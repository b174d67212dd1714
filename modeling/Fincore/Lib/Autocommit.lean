import Fincore.Lib.Prog
import Fincore.Lib.Transition

/-
  Programs whose statements stand alone, interleaved.

  Every statement is a transaction of its own. It may fail before it has had its effect or after;
  the program is told of an error either way and goes on as it likes.

  Key definitions include:
    * `Autocommit`
    * `Autocommit.Outcome`
    * `Autocommit.step`
    * `Autocommit.Session`
    * `Autocommit.alone`

  Main results:
    * `Autocommit.send_db`
    * `Autocommit.step_cases`
    * `Autocommit.at_sent`
    * `Autocommit.session_step`
    * `Autocommit.alone_keeps`
-/

----
-- Statements And Calls
----

/- What a statement answers, and what it leaves. -/
structure Autocommit (Db Stmt : Type) (Resp : Stmt → Type) (Err : Type) where
  exec : (s : Stmt) → Db → Except Err (Resp s) × Db
  broken : Err

namespace Autocommit

/- How the sending of a statement ends. -/
inductive Outcome where
  | done
  | lost
  | unacked
  deriving DecidableEq

variable {Db Stmt Err ι α : Type} {Resp : Stmt → Type}

/- A program sees an answer or an error. -/
abbrev Script (Stmt : Type) (Resp : Stmt → Type) (Err α : Type) :=
  Prog Stmt (fun s => Except Err (Resp s)) Err α

/- The answer that reaches the program. -/
def send (A : Autocommit Db Stmt Resp Err) (s : Stmt) (db : Db) : Outcome → Except Err (Resp s) × Db
| .done => A.exec s db
| .lost => (.error A.broken, db)
| .unacked => (.error A.broken, (A.exec s db).2)

/- The database, and every call with what is left of it. -/
structure Config (Db ι Stmt : Type) (Resp : Stmt → Type) (Err α : Type) where
  db : Db
  calls : List (ι × Script Stmt Resp Err α)

inductive Action (ι : Type) where
  | start (input : ι)
  | send (i : Nat) (o : Outcome)

/- Call `i` has yet to do `p` for `input`. -/
def Config.At (cfg : Config Db ι Stmt Resp Err α) (i : Nat) (input : ι)
    (p : Script Stmt Resp Err α) : Prop := cfg.calls[i]? = some (input, p)

/- Start a call, or send the next statement of one. -/
def step (A : Autocommit Db Stmt Resp Err) (P : ι → Script Stmt Resp Err α)
    (cfg : Config Db ι Stmt Resp Err α) : Action ι → Option (Config Db ι Stmt Resp Err α)
| .start input =>
  some { cfg with calls := cfg.calls ++ [(input, P input)] }
| .send i o =>
  match cfg.calls[i]? with
  | some (input, .ask s k) =>
    some {
      db := (A.send s cfg.db o).2
      calls := cfg.calls.set i (input, k (A.send s cfg.db o).1) }
  | _ => none

----
-- What A Step Can Do
----

variable {A : Autocommit Db Stmt Resp Err}
variable {P : ι → Script Stmt Resp Err α} {cfg cfg' : Config Db ι Stmt Resp Err α} {a : Action ι}

/- A statement has its effect, or none. -/
theorem send_db (s : Stmt) (db : Db) (o : Outcome) : (A.send s db o).2 = db ∨
    (A.send s db o).2 = (A.exec s db).2 := by
  cases o with
  | done => exact Or.inr rfl
  | lost => exact Or.inl rfl
  | unacked => exact Or.inr rfl

/- A call is started, or a call sends its next statement. -/
theorem step_cases (hStep : A.step P cfg a = some cfg') :
    (∃ input, a = .start input ∧ cfg' = { cfg with calls := cfg.calls ++ [(input, P input)] }) ∨
      ∃ i o input s k, a = .send i o ∧ cfg.At i input (.ask s k) ∧ cfg' = {
          db := (A.send s cfg.db o).2
          calls := cfg.calls.set i (input, k (A.send s cfg.db o).1) } := by
  cases a with
  | start input =>
    cases hStep
    exact Or.inl ⟨input, rfl, rfl⟩
  | send i o =>
    simp only [step] at hStep
    split at hStep
    · rename_i input s k hAt
      cases hStep
      exact Or.inr ⟨i, o, input, s, k, rfl, hAt, rfl⟩
    · cases hStep

variable {p : Script Stmt Resp Err α}

variable {input input' : ι}

theorem at_started {j : Nat}
    (hAt :
    (⟨cfg.db, cfg.calls ++ [(input, P input)]⟩ : Config Db ι Stmt Resp Err α).At j input' p) :
    cfg.At j input' p ∨ input' = input ∧ p = P input := by
  unfold Config.At at hAt ⊢
  rw [List.getElem?_append] at hAt
  split at hAt
  · exact Or.inl hAt
  · rw [List.getElem?_singleton] at hAt
    split at hAt
    · cases hAt
      exact Or.inr ⟨rfl, rfl⟩
    · cases hAt

variable {db : Db}

/- The calls after one of them has sent a statement. -/
theorem at_sent {p p' : Script Stmt Resp Err α} {i j : Nat}
    (hAt : (⟨db, cfg.calls.set i (input, p)⟩ : Config Db ι Stmt Resp Err α).At j input' p') :
    j = i ∧ input' = input ∧ p' = p ∨ j ≠ i ∧ cfg.At j input' p' := by
  unfold Config.At at hAt ⊢
  rw [List.getElem?_set] at hAt
  split at hAt
  · rename_i hSame
    split at hAt
    · cases hAt
      exact Or.inl ⟨hSame.symm, rfl, rfl⟩
    · cases hAt
  · rename_i hOther
    exact Or.inr ⟨fun hEq => hOther hEq.symm, hAt⟩

----
-- Sessions
----

variable {β : Type}

/-
  Whatever `r` allows before each statement, as long as the database meets `J`: the statement meets
  `G`.
-/
def Session (A : Autocommit Db Stmt Resp Err) (r : Db → Db → Prop)
    (J : Db → Prop) (G : Db → Stmt → Prop) : Script Stmt Resp Err β → Db → Prop
| .ret _, _ => True
| .fail _, _ => True
| .ask s k, db =>
  ∀ db', r db db' → J db' → G db' s ∧ ∀ o, Session A r J G (k (A.send s db' o).1) (A.send s db' o).2

variable {A : Autocommit Db Stmt Resp Err} {r : Db → Db → Prop} {J : Db → Prop}
variable {G : Db → Stmt → Prop}

/- A statement that fails, or has its answer. -/
theorem Session.ask {s : Stmt} {k : Except Err (Resp s) → Script Stmt Resp Err β}
    (hSends : ∀ db', r db db' → J db' → G db' s)
    (hFailed : ∀ e db', Session A r J G (k (.error e)) db')
    (hDone : ∀ db' x, r db db' → J db' → (A.exec s db').1 = .ok x →
    Session A r J G (k (.ok x)) (A.exec s db').2) : Session A r J G (.ask s k) db := by
  intro db' hRely hJ
  refine ⟨hSends db' hRely hJ, ?_⟩
  intro o
  cases o with
  | done =>
    show Session A r J G (k (A.exec s db').1) (A.exec s db').2
    cases hAnswer : (A.exec s db').1 with
    | error e => exact hFailed e _
    | ok x => exact hDone db' x hRely hJ hAnswer
  | lost => exact hFailed _ _
  | unacked => exact hFailed _ _

theorem Session.stable (hTrans : ∀ db₁ db₂ db₃, r db₁ db₂ → r db₂ db₃ → r db₁ db₃)
    {p : Script Stmt Resp Err β} {db db' : Db} (hSession : Session A r J G p db)
    (hRely : r db db') : Session A r J G p db' := by
  cases p with
  | ret b => trivial
  | fail e => trivial
  | ask s k =>
    intro db'' hMore
    exact hSession db'' (hTrans _ _ _ hRely hMore)

variable {P : ι → Script Stmt Resp Err α} {cfg cfg' : Config Db ι Stmt Resp Err α} {a : Action ι}

/- What is left of every call meets the call's `G`. -/
def Config.Keeps (A : Autocommit Db Stmt Resp Err) (r : Db → Db → Prop)
    (J : Db → Prop) (G : ι → Db → Stmt → Prop) (cfg : Config Db ι Stmt Resp Err α) : Prop :=
  ∀ i input p, cfg.At i input p → Session A r J (G input) p cfg.db

/-
  Calls that are sessions keep to what they guarantee, if the statement that is sent keeps `J` and
  changes the database as `r` allows.
-/
theorem session_step {G : ι → Db → Stmt → Prop} (hRefl : ∀ db, r db db)
    (hTrans : ∀ db₁ db₂ db₃, r db₁ db₂ → r db₂ db₃ → r db₁ db₃)
    (hBegin : ∀ input db, Session A r J (G input) (P input) db) (hJ : J cfg.db)
    (hKeeps : cfg.Keeps A r J G)
    (hOwn : ∀ i o input s k, a = .send i o → cfg.At i input (.ask s k) → G input cfg.db s →
    r cfg.db (A.send s cfg.db o).2 ∧ J (A.send s cfg.db o).2)
    (hStep : A.step P cfg a = some cfg') : cfg'.Keeps A r J G ∧ J cfg'.db := by
  rcases step_cases hStep with ⟨input, rfl, rfl⟩ | ⟨i, o, input, s, k, rfl, hAt, rfl⟩
  · refine ⟨?_, hJ⟩
    intro j input' p hAt
    rcases at_started hAt with hOld | ⟨rfl, rfl⟩
    · exact hKeeps j input' p hOld
    · exact hBegin input' cfg.db
  · rcases hKeeps i input _ hAt cfg.db (hRefl _) hJ with ⟨hG, hThen⟩
    rcases hOwn i o input s k rfl hAt hG with ⟨hRely, hNext⟩
    refine ⟨?_, hNext⟩
    intro j input' p hAt'
    rcases at_sent hAt' with ⟨_, rfl, rfl⟩ | ⟨_, hOld⟩
    · exact hThen o
    · exact (hKeeps j input' p hOld).stable hTrans hRely

----
-- One Call Alone
----

/- Run a program alone, its statements ending as told. -/
def alone (A : Autocommit Db Stmt Resp Err) :
    Script Stmt Resp Err α → (Nat → Outcome) → Db → Except Err α × Db
| .ret a, _, db => (.ok a, db)
| .fail e, _, db => (.error e, db)
| .ask s k, os, db =>
  alone A (k (A.send s db (os 0)).1) (fun n => os (n + 1)) (A.send s db (os 0)).2

variable {A : Autocommit Db Stmt Resp Err} {P : ι → Script Stmt Resp Err α} {J : Db → Prop}
variable {G : Db → Stmt → Prop}

/- What the statements of a session keep, a call keeps. -/
theorem alone_keeps (hKeeps : ∀ db s o, J db → G db s → J (A.send s db o).2) (os : Nat → Outcome)
    (hSession : Session A Eq J G p db) (hJ : J db) : J (A.alone p os db).2 := by
  induction p generalizing os db with
  | ret a => exact hJ
  | fail e => exact hJ
  | ask s k ih =>
    rcases hSession db rfl hJ with ⟨hSends, hThen⟩
    exact ih _ (fun n => os (n + 1)) (hThen (os 0)) (hKeeps db s (os 0) hJ hSends)

/- Statements that are allowed anywhere. -/
theorem session_of_asks {r : Db → Db → Prop} {Q : Stmt → Prop} (hAsks : p.Asks Q)
    (hAll : ∀ db s, Q s → G db s) (db : Db) : Session A r J G p db := by
  induction p generalizing db with
  | ret a => trivial
  | fail e => trivial
  | ask s k ih =>
    intro db' _ _
    exact ⟨hAll db' s hAsks.1, fun o =>
      ih _ (hAsks.2 _) _⟩

end Autocommit
