import Fincore.Lib.Prog
import Fincore.Lib.Transition
import Mathlib.Tactic.Common

/-
  Transactions at isolation level READ COMMITTED.

  A transaction is a program over statements. A statement sees the committed database with the
  transaction's own writes on top of it; the writes of other transactions become visible when these
  commit. A write holds its rows until its transaction ends, and a statement that wants a row held
  by another transaction waits. A statement that fails rolls its transaction back.

  `Engine.serial` runs one transaction alone, `Engine.step` interleaves any number of them statement
  by statement.

  Key definitions include:
    * `Engine`
    * `Engine.view`
    * `Engine.serial`
    * `Engine.withTx`
    * `Engine.Config`
    * `Engine.step`
    * `Engine.autocommit`
    * `Engine.Config.seen`

  Main results:
    * `Engine.step_spec`
    * `Engine.step_failed`
    * `Engine.running_step`
    * `Engine.exclusive_step`
-/

----
-- Engines And Serial Transactions
----

/-
  A transactional store. `exec` answers a statement of a transaction that began at a given time and
  says which rows it writes; `tick` is what a statement changes at once and for good, committed or
  not: clocks and sequences.
-/
structure Engine (Db Stmt : Type) (Resp : Stmt → Type) (Write Row Err : Type) where
  now : Db → Nat
  exec : Nat → (s : Stmt) → Db → Except Err (Resp s × List Write)
  tick : Stmt → Db → Db
  apply : Db → Write → Db
  wants : Stmt → List Row
  holds : Write → List Row
  broken : Err
  holds_wanted : ∀ began s db r ws, exec began s db = .ok (r, ws) →
        ∀ w ∈ ws, ∀ row ∈ holds w, row ∈ wants s

namespace Engine

variable {Db Stmt Write Row Err α : Type} {Resp : Stmt → Type}

/- The database as a transaction with these writes sees it. -/
def view (E : Engine Db Stmt Resp Write Row Err) (db : Db)
    (ws : List Write) : Db := ws.foldl E.apply db

@[simp] theorem view_nil (E : Engine Db Stmt Resp Write Row Err) (db : Db) :
    E.view db [] = db := rfl

@[simp] theorem view_cons (E : Engine Db Stmt Resp Write Row Err) (db : Db)
    (w : Write) (ws : List Write) : E.view db (w :: ws) = E.view (E.apply db w) ws := rfl

theorem view_append (E : Engine Db Stmt Resp Write Row Err) (db : Db)
    (ws ws' : List Write) : E.view db (ws ++ ws') = E.view (E.view db ws) ws' :=
  List.foldl_append ..

/- A part of the database that writes go through. -/
theorem core_view {E : Engine Db Stmt Resp Write Row Err} {core : Db → Db}
    (hApply : ∀ db w, core (E.apply db w) = E.apply (core db) w) (db : Db)
    (ws : List Write) : core (E.view db ws) = E.view (core db) ws := by
  induction ws generalizing db with
  | nil => rfl
  | cons w ws ih =>
    rw [view_cons, ih, hApply, view_cons]

/- Run a transaction alone, from the writes made so far. -/
def serial (E : Engine Db Stmt Resp Write Row Err) (began : Nat) :
    Prog Stmt Resp Err α → List Write → Db → Except Err α × Db
| .ret a, ws, db => (.ok a, E.view db ws)
| .fail e, _, db => (.error e, db)
| .ask s k, ws, db =>
  match E.exec began s (E.view db ws) with
  | .ok (r, ws') =>
    serial E began (k r) (ws ++ ws') (E.tick s db)
  | .error e => (.error e, E.tick s db)

/- Open a transaction, run it alone and close it. -/
def withTx (E : Engine Db Stmt Resp Write Row Err) (p : Prog Stmt Resp Err α)
    (db : Db) : Except Err α × Db := E.serial (E.now db) p [] db

/-
  A transaction that fails leaves nothing behind that is not left behind by its statements for good.
-/
theorem serial_error_observe {β : Type} (E : Engine Db Stmt Resp Write Row Err)
    (f : Db → β) (hTick : ∀ s db, f (E.tick s db) = f db) (began : Nat)
    (p : Prog Stmt Resp Err α) (ws : List Write) (db : Db) {e : Err}
    (hError : (E.serial began p ws db).1 = .error e) : f (E.serial began p ws db).2 = f db := by
  induction p generalizing ws db with
  | ret a => simp [serial] at hError
  | fail e' => rfl
  | ask s k ih =>
    cases hExec : E.exec began s (E.view db ws) with
    | error e' =>
      simp only [serial, hExec]
      exact hTick s db
    | ok answer =>
      rcases answer with ⟨r, ws'⟩
      simp only [serial, hExec] at hError ⊢
      rw [ih r (ws ++ ws') (E.tick s db) hError, hTick]

----
-- Interleaved Transactions
----

/- A transaction in progress. -/
structure Txn (Stmt : Type) (Resp : Stmt → Type) (Write Err α : Type) where
  began : Nat
  writes : List Write
  prog : Prog Stmt Resp Err α

/- A call is running or has returned to its caller. -/
inductive CallState (Stmt : Type) (Resp : Stmt → Type) (Write Err α : Type) where
  | running (t : Txn Stmt Resp Write Err α)
  | returned (r : Except Err α)

/- One call of the handler, with the input it was given. -/
structure Call (ι Stmt : Type) (Resp : Stmt → Type) (Write Err α : Type) where
  input : ι
  state : CallState Stmt Resp Write Err α

/-
  The committed database, every call made so far, and the committed writes in commit order with the
  call they came from (`none` for a statement outside all transactions).
-/
structure Config (Db ι Stmt : Type) (Resp : Stmt → Type) (Write Err α : Type) where
  db : Db
  calls : List (Call ι Stmt Resp Write Err α)
  journal : List (Option Nat × Write)

/-
  What can happen next. `unacked` is a commit whose acknowledgement is lost on its way to the
  caller, `broke` a call cut off by a failure outside the program (a lost connection, a deadlock
  victim) before it commits.
-/
inductive Action (ι : Type) where
  | start (input : ι)
  | exec (i : Nat)
  | finish (i : Nat)
  | unacked (i : Nat)
  | broke (i : Nat)

variable {Db ι Stmt Write Row Err α : Type} {Resp : Stmt → Type}

/- The transaction of a running call. -/
def Config.running? (cfg : Config Db ι Stmt Resp Write Err α) (i : Nat) :
    Option (ι × Txn Stmt Resp Write Err α) :=
  match cfg.calls[i]? with
  | some ⟨input, .running t⟩ => some (input, t)
  | _ => none

/- Rows held by call `j`. -/
def held (E : Engine Db Stmt Resp Write Row Err)
    (cfg : Config Db ι Stmt Resp Write Err α) (j : Nat) : List Row :=
  match cfg.running? j with
  | some (_, t) => t.writes.flatMap E.holds
  | none => []

/- Some call other than `me` holds one of the rows. -/
def blocked [DecidableEq Row] (E : Engine Db Stmt Resp Write Row Err)
    (cfg : Config Db ι Stmt Resp Write Err α) (me : Option Nat) (rows : List Row) : Bool :=
  (List.range cfg.calls.length).any (fun j =>
    decide (me ≠ some j) && (E.held cfg j).any (fun row => decide (row ∈ rows)))

/- A running call goes on after a statement was answered. -/
def Config.advance (cfg : Config Db ι Stmt Resp Write Err α) (db : Db) (i : Nat)
    (input : ι) (t : Txn Stmt Resp Write Err α) : Config Db ι Stmt Resp Write Err α :=
  { cfg with
    db := db
    calls := cfg.calls.set i ⟨input, .running t⟩ }

/- A call returns without having committed anything. -/
def Config.settle (cfg : Config Db ι Stmt Resp Write Err α) (db : Db) (i : Nat)
    (input : ι) (r : Except Err α) : Config Db ι Stmt Resp Write Err α :=
  { cfg with
    db := db
    calls := cfg.calls.set i ⟨input, .returned r⟩ }

/- A call commits its writes and returns. -/
def Config.commit (E : Engine Db Stmt Resp Write Row Err)
    (cfg : Config Db ι Stmt Resp Write Err α) (i : Nat) (input : ι)
    (ws : List Write) (r : Except Err α) : Config Db ι Stmt Resp Write Err α where
  db := E.view cfg.db ws
  calls := cfg.calls.set i ⟨input, .returned r⟩
  journal := cfg.journal ++ ws.map (fun w => (some i, w))

/- One step of the interleaving. -/
def step [DecidableEq Row] (E : Engine Db Stmt Resp Write Row Err)
    (handler : ι → Prog Stmt Resp Err α) (cfg : Config Db ι Stmt Resp Write Err α) :
    Action ι → Option (Config Db ι Stmt Resp Write Err α)
| .start input =>
  some { cfg with calls := cfg.calls ++ [⟨input, .running ⟨E.now cfg.db, [], handler input⟩⟩] }
| .exec i =>
  match cfg.running? i with
  | none => none
  | some (input, t) =>
    match t.prog with
    | .ret _ => none
    | .fail _ => none
    | .ask s k =>
      if E.blocked cfg (some i) (E.wants s) then none
      else
        match E.exec t.began s (E.view cfg.db t.writes) with
        | .ok (r, ws) =>
          some (cfg.advance (E.tick s cfg.db) i input ⟨t.began, t.writes ++ ws, k r⟩)
        | .error e =>
          some (cfg.settle (E.tick s cfg.db) i input (.error e))
| .finish i =>
  match cfg.running? i with
  | none => none
  | some (input, t) =>
    match t.prog with
    | .ret a =>
      some (cfg.commit E i input t.writes (.ok a))
    | .fail e =>
      some (cfg.settle cfg.db i input (.error e))
    | .ask _ _ => none
| .unacked i =>
  match cfg.running? i with
  | none => none
  | some (input, t) =>
    match t.prog with
    | .ret _ =>
      some (cfg.commit E i input t.writes (.error E.broken))
    | .fail _ => none
    | .ask _ _ => none
| .broke i =>
  match cfg.running? i with
  | none => none
  | some (input, _) =>
    some (cfg.settle cfg.db i input (.error E.broken))

/- A statement sent outside all transactions. -/
def autocommit [DecidableEq Row] (E : Engine Db Stmt Resp Write Row Err)
    (cfg : Config Db ι Stmt Resp Write Err α) (s : Stmt) : Option
      (Except Err (Resp s) × Config Db ι Stmt Resp Write Err α) :=
  if E.blocked cfg none (E.wants s) then none
  else
    match E.exec (E.now cfg.db) s cfg.db with
    | .ok (r, ws) =>
      some (.ok r,
        { cfg with
          db := E.view (E.tick s cfg.db) ws
          journal := cfg.journal ++ ws.map (fun w => (none, w)) })
    | .error e =>
      some (.error e, { cfg with db := E.tick s cfg.db })

----
-- What A Step Can Do
----

/- Call `i` is running transaction `t` for `input`. -/
def Config.Running (cfg : Config Db ι Stmt Resp Write Err α) (i : Nat)
    (input : ι) (t : Txn Stmt Resp Write Err α) : Prop := cfg.calls[i]? = some ⟨input, .running t⟩

/- Call `i` has answered `r` to `input`. -/
def Config.Returned (cfg : Config Db ι Stmt Resp Write Err α) (i : Nat)
    (input : ι) (r : Except Err α) : Prop := cfg.calls[i]? = some ⟨input, .returned r⟩

theorem Config.running?_eq_some {cfg : Config Db ι Stmt Resp Write Err α}
    {i : Nat} {input : ι} {t : Txn Stmt Resp Write Err α} :
    cfg.running? i = some (input, t) ↔ cfg.Running i input t := by
  unfold Config.running? Config.Running
  split
  · rename_i input' t' hCall
    rw [hCall]
    simp
  · rename_i hOther
    constructor
    · intro hNone
      cases hNone
    · intro hCall
      exact absurd hCall (hOther input t)

variable [DecidableEq Row]

/- Every step of the interleaving, with the facts it leaves about the call it is a step of. -/
inductive StepSpec (E : Engine Db Stmt Resp Write Row Err) (handler : ι → Prog Stmt Resp Err α)
    (cfg : Config Db ι Stmt Resp Write Err α) : Action ι →
      Config Db ι Stmt Resp Write Err α → Prop where
  | started (input : ι) : StepSpec E handler cfg (.start input)
        { cfg with calls := cfg.calls ++ [⟨input, .running ⟨E.now cfg.db, [], handler input⟩⟩] }
  | answered {i : Nat} {input : ι} {t : Txn Stmt Resp Write Err α}
      {s : Stmt} {k : Resp s → Prog Stmt Resp Err α}
      {r : Resp s} {ws : List Write} (hCall : cfg.Running i input t) (hProg : t.prog = .ask s k)
      (hFree : E.blocked cfg (some i) (E.wants s) = false)
      (hExec : E.exec t.began s (E.view cfg.db t.writes) = .ok (r, ws)) :
      StepSpec E handler cfg (.exec i)
        (cfg.advance (E.tick s cfg.db) i input ⟨t.began, t.writes ++ ws, k r⟩)
  | refused {i : Nat} {input : ι} {t : Txn Stmt Resp Write Err α}
      {s : Stmt} {k : Resp s → Prog Stmt Resp Err α} {e : Err}
      (hCall : cfg.Running i input t) (hProg : t.prog = .ask s k)
      (hExec : E.exec t.began s (E.view cfg.db t.writes) = .error e) :
      StepSpec E handler cfg (.exec i) (cfg.settle (E.tick s cfg.db) i input (.error e))
  | committed {i : Nat} {input : ι} {t : Txn Stmt Resp Write Err α} {a : α}
      (hCall : cfg.Running i input t) (hProg : t.prog = .ret a) :
      StepSpec E handler cfg (.finish i) (cfg.commit E i input t.writes (.ok a))
  | rejected {i : Nat} {input : ι} {t : Txn Stmt Resp Write Err α} {e : Err}
      (hCall : cfg.Running i input t) (hProg : t.prog = .fail e) :
      StepSpec E handler cfg (.finish i) (cfg.settle cfg.db i input (.error e))
  | unacked {i : Nat} {input : ι} {t : Txn Stmt Resp Write Err α} {a : α}
      (hCall : cfg.Running i input t) (hProg : t.prog = .ret a) :
      StepSpec E handler cfg (.unacked i) (cfg.commit E i input t.writes (.error E.broken))
  | broke {i : Nat} {input : ι} {t : Txn Stmt Resp Write Err α}
      (hCall : cfg.Running i input t) : StepSpec E handler cfg (.broke i)
        (cfg.settle cfg.db i input (.error E.broken))

theorem step_spec {E : Engine Db Stmt Resp Write Row Err} {handler : ι → Prog Stmt Resp Err α}
    {cfg cfg' : Config Db ι Stmt Resp Write Err α} {a : Action ι}
    (hStep : E.step handler cfg a = some cfg') : StepSpec E handler cfg a cfg' := by
  cases a with
  | start input =>
    simp only [step, Option.some.injEq] at hStep
    subst hStep
    exact .started input
  | exec i =>
    simp only [step] at hStep
    split at hStep
    · cases hStep
    · rename_i input t hCall
      have hCall := Config.running?_eq_some.mp hCall
      split at hStep
      · cases hStep
      · cases hStep
      · rename_i s k hProg
        split at hStep
        · cases hStep
        · rename_i hFree
          split at hStep
          · rename_i r ws hExec
            cases hStep
            exact .answered hCall hProg (by simpa using hFree) hExec
          · rename_i e hExec
            cases hStep
            exact .refused hCall hProg hExec
  | finish i =>
    simp only [step] at hStep
    split at hStep
    · cases hStep
    · rename_i input t hCall
      have hCall := Config.running?_eq_some.mp hCall
      split at hStep
      · rename_i a hProg
        cases hStep
        exact .committed hCall hProg
      · rename_i e hProg
        cases hStep
        exact .rejected hCall hProg
      · cases hStep
  | unacked i =>
    simp only [step] at hStep
    split at hStep
    · cases hStep
    · rename_i input t hCall
      have hCall := Config.running?_eq_some.mp hCall
      split at hStep
      · rename_i a hProg
        cases hStep
        exact .unacked hCall hProg
      · cases hStep
      · cases hStep
  | broke i =>
    simp only [step] at hStep
    split at hStep
    · cases hStep
    · rename_i input t hCall
      cases hStep
      exact .broke (Config.running?_eq_some.mp hCall)

----
-- Calls After A Step
----

variable {Db ι Stmt Write Row Err α : Type} {Resp : Stmt → Type}
variable {cfg : Config Db ι Stmt Resp Write Err α}

variable {t : Txn Stmt Resp Write Err α}

theorem Config.Running.lt_length {i : Nat} {input : ι} (hCall : cfg.Running i input t) :
    i < cfg.calls.length := (List.getElem?_eq_some_iff.mp hCall).1

theorem running_started {fresh : Call ι Stmt Resp Write Err α} {j : Nat} {input : ι}
    (hCall : Config.Running { cfg with calls := cfg.calls ++ [fresh] }
        j input t) : cfg.Running j input t ∨
      (j = cfg.calls.length ∧ fresh = ⟨input, .running t⟩) := by
  unfold Config.Running at hCall ⊢
  rcases Nat.lt_trichotomy j cfg.calls.length with hOld | hNew | hBeyond
  · left
    rwa [List.getElem?_append_left hOld] at hCall
  · right
    subst hNew
    simpa using hCall
  · have hNone : (cfg.calls ++ [fresh])[j]? = none := by
      apply List.getElem?_eq_none
      simp
      omega
    rw [hNone] at hCall
    cases hCall

variable {input input' : ι} {i j : Nat}

theorem running_advance {db : Db} {t t' : Txn Stmt Resp Write Err α}
    (hCall : (cfg.advance db i input t).Running j input' t') :
    (j = i ∧ input' = input ∧ t' = t) ∨ (j ≠ i ∧ cfg.Running j input' t') := by
  unfold Config.Running Config.advance at hCall
  by_cases hSame : j = i
  · subst hSame
    left
    rw [List.getElem?_set_self'] at hCall
    cases hOld : cfg.calls[j]? with
    | none => simp [hOld] at hCall
    | some old =>
      simp [hOld] at hCall
      exact ⟨rfl, hCall.1.symm, hCall.2.symm⟩
  · right
    rw [List.getElem?_set_ne (Ne.symm hSame)] at hCall
    exact ⟨hSame, hCall⟩

variable {r : Except Err α} {t' : Txn Stmt Resp Write Err α}

theorem running_set_returned
    (hCall : (cfg.calls.set i ⟨input, .returned r⟩)[j]? =
    some ⟨input', .running t'⟩) : j ≠ i ∧ cfg.Running j input' t' := by
  by_cases hSame : j = i
  · subst hSame
    rw [List.getElem?_set_self'] at hCall
    cases hOld : cfg.calls[j]? with
    | none => simp [hOld] at hCall
    | some old => simp [hOld] at hCall
  · rw [List.getElem?_set_ne (Ne.symm hSame)] at hCall
    exact ⟨hSame, hCall⟩

theorem running_settle {db : Db} (hCall : (cfg.settle db i input r).Running j input' t') :
    j ≠ i ∧ cfg.Running j input' t' := running_set_returned hCall

variable {E : Engine Db Stmt Resp Write Row Err}

variable {ws : List Write}

theorem running_commit (hCall : (cfg.commit E i input ws r).Running j input' t') :
    j ≠ i ∧ cfg.Running j input' t' := running_set_returned hCall

theorem returned_set {c : Call ι Stmt Resp Write Err α} {input : ι}
    (hCall : (cfg.calls.set i c)[j]? = some ⟨input, .returned r⟩) :
    (j = i ∧ c = ⟨input, .returned r⟩) ∨ cfg.Returned j input r := by
  by_cases hSame : j = i
  · subst hSame
    left
    rw [List.getElem?_set_self'] at hCall
    cases hOld : cfg.calls[j]? with
    | none => simp [hOld] at hCall
    | some old =>
      simp [hOld] at hCall
      exact ⟨rfl, hCall⟩
  · right
    rwa [List.getElem?_set_ne (Ne.symm hSame)] at hCall

theorem returned_started {fresh input : ι} {j : Nat}
    (hCall : Config.Returned { cfg with
      calls := cfg.calls ++ [⟨fresh, .running t⟩] } j input r) : cfg.Returned j input r := by
  unfold Config.Returned at hCall ⊢
  rcases Nat.lt_trichotomy j cfg.calls.length with hOld | hNew | hBeyond
  · rwa [List.getElem?_append_left hOld] at hCall
  · subst hNew
    simp at hCall
  · have hNone : (cfg.calls ++ [⟨fresh, .running t⟩])[j]? =
        none := by
      apply List.getElem?_eq_none
      simp
      omega
    rw [hNone] at hCall
    cases hCall

theorem Config.Running.not_returned {i : Nat}
    (hCall : cfg.Running i input t) : ¬ cfg.Returned i input' r := by
  intro hReturned
  unfold Config.Running at hCall
  unfold Config.Returned at hReturned
  rw [hCall] at hReturned
  cases hReturned

theorem Config.Running.unique {i : Nat}
    {t t' : Txn Stmt Resp Write Err α} (hCall : cfg.Running i input t)
    (hCall' : cfg.Running i input' t') : input' = input ∧ t' = t := by
  unfold Config.Running at hCall hCall'
  rw [hCall] at hCall'
  cases hCall'
  exact ⟨rfl, rfl⟩

variable {handler : ι → Prog Stmt Resp Err α} {a : Action ι}

/-
  An error that comes neither from a statement nor from outside is the one the program ends in, and
  nothing has been committed.
-/
theorem step_failed [DecidableEq Row] {cfg' : Config Db ι Stmt Resp Write Err α} {i : Nat}
    {input : ι} {e : Err} (hStep : E.step handler cfg a = some cfg') (hOpen : cfg.Running i input t)
    (hAnswer : cfg'.Returned i input (.error e)) (hBroken : e ≠ E.broken)
    (hExec : ∀ began s db, E.exec began s db ≠ .error e) : t.prog = .fail e ∧ cfg'.db = cfg.db := by
  cases step_spec hStep with
  | started fresh =>
    exact absurd (returned_started hAnswer) hOpen.not_returned
  | answered hCall hProg hFree hOk =>
    rcases returned_set hAnswer with ⟨_, hEq⟩ | hOld
    · cases hEq
    · exact absurd hOld hOpen.not_returned
  | refused hCall hProg hError =>
    rcases returned_set hAnswer with ⟨_, hEq⟩ | hOld
    · cases hEq
      exact absurd hError (hExec _ _ _)
    · exact absurd hOld hOpen.not_returned
  | committed hCall hProg =>
    rcases returned_set hAnswer with ⟨_, hEq⟩ | hOld
    · cases hEq
    · exact absurd hOld hOpen.not_returned
  | rejected hCall hProg =>
    rcases returned_set hAnswer with ⟨rfl, hEq⟩ | hOld
    · cases hEq
      rw [← (hOpen.unique hCall).2]
      exact ⟨hProg, rfl⟩
    · exact absurd hOld hOpen.not_returned
  | unacked hCall hProg =>
    rcases returned_set hAnswer with ⟨_, hEq⟩ | hOld
    · cases hEq
      exact absurd rfl hBroken
    · exact absurd hOld hOpen.not_returned
  | broke hCall =>
    rcases returned_set hAnswer with ⟨_, hEq⟩ | hOld
    · cases hEq
      exact absurd rfl hBroken
    · exact absurd hOld hOpen.not_returned

----
-- What Is Seen Of A Running Call
----

variable {β : Type}

/- What a running call's input and program show. -/
def Config.seen (cfg : Config Db ι Stmt Resp Write Err α)
    (f : ι → Prog Stmt Resp Err α → Option β) (i : Nat) : Option β :=
  match cfg.running? i with
  | some (c, t) => f c t.prog
  | none => none

variable {cfg cfg' : Config Db ι Stmt Resp Write Err α} {f : ι → Prog Stmt Resp Err α → Option β}

variable {c : ι}

theorem seen_running {i : Nat} (hCall : cfg.Running i c t) : cfg.seen f i = f c t.prog := by
  unfold Config.seen
  rw [Config.running?_eq_some.mpr hCall]

variable {x : β}

theorem seen_eq_some {i : Nat} : cfg.seen f i = some x ↔
    ∃ c t, cfg.Running i c t ∧ f c t.prog = some x := by
  constructor
  · intro hSeen
    unfold Config.seen at hSeen
    cases hCall : cfg.running? i with
    | none =>
      rw [hCall] at hSeen
      cases hSeen
    | some call =>
      rw [hCall] at hSeen
      exact ⟨call.1, call.2, Config.running?_eq_some.mp hCall, hSeen⟩
  · rintro ⟨c, t, hCall, hShows⟩
    rw [seen_running hCall]
    exact hShows

/- A call that has committed is not running any more. -/
theorem seen_commit
    (hSeen : (cfg.commit E i c ws r).seen f j = some x) : j ≠ i ∧ cfg.seen f j = some x := by
  rcases seen_eq_some.mp hSeen with ⟨c', t', hj, hShows⟩
  rcases running_commit hj with ⟨hNe, hOld⟩
  exact ⟨hNe, seen_eq_some.mpr ⟨c', t', hOld, hShows⟩⟩

/-
  What a call that is running after a step was before it: the same, not started, or waiting for an
  answer.
-/
theorem running_step [DecidableEq Row]
    (hStep : E.step handler cfg a = some cfg') {j : Nat} (hj : cfg'.Running j c t') :
    cfg.Running j c t' ∨ (a = .start c ∧ t' = ⟨E.now cfg.db, [], handler c⟩) ∨
    (a = .exec j ∧ ∃ t s k r ws, cfg.Running j c t ∧ t.prog = .ask s k ∧
    E.exec t.began s (E.view cfg.db t.writes) = .ok (r, ws) ∧
    t' = ⟨t.began, t.writes ++ ws, k r⟩) := by
  cases step_spec hStep with
  | started input =>
    rcases running_started hj with hOld | ⟨_, hFresh⟩
    · exact Or.inl hOld
    · cases hFresh
      exact Or.inr (Or.inl ⟨rfl, rfl⟩)
  | answered hCall hProg hFree hExec =>
    rcases running_advance hj with ⟨rfl, rfl, rfl⟩ | ⟨_, hOld⟩
    · exact Or.inr (Or.inr ⟨rfl, _, _, _, _, _, hCall, hProg, hExec, rfl⟩)
    · exact Or.inl hOld
  | refused hCall hProg hExec =>
    exact Or.inl (running_settle hj).2
  | committed hCall hProg =>
    exact Or.inl (running_commit hj).2
  | rejected hCall hProg =>
    exact Or.inl (running_settle hj).2
  | unacked hCall hProg =>
    exact Or.inl (running_commit hj).2
  | broke hCall =>
    exact Or.inl (running_settle hj).2

/-
  What is seen after a step was seen before it, is seen of a call that has just started, or of one
  whose statement was answered.
-/
theorem seen_step [DecidableEq Row] (hStep : E.step handler cfg a = some cfg') {j : Nat}
    (hSeen : cfg'.seen f j = some x) : cfg.seen f j = some x ∨ (∃ c, f c (handler c) = some x) ∨
    (a = .exec j ∧ ∃ c t s k r ws, cfg.Running j c t ∧ t.prog = .ask s k ∧
    E.exec t.began s (E.view cfg.db t.writes) = .ok (r, ws) ∧ f c (k r) = some x) := by
  rcases seen_eq_some.mp hSeen with ⟨c, t', hj, hShows⟩
  rcases running_step hStep hj with hOld | ⟨_, rfl⟩ |
      ⟨hExec, t, s, k, r, ws, hCall, hProg, hAnswer, rfl⟩
  · exact Or.inl (seen_eq_some.mpr ⟨c, t', hOld, hShows⟩)
  · exact Or.inr (Or.inl ⟨c, hShows⟩)
  · exact Or.inr (Or.inr ⟨hExec, c, t, s, k, r, ws, hCall, hProg, hAnswer, hShows⟩)

----
-- Row Locks
----

/- No row is held by two running calls. -/
def Exclusive (E : Engine Db Stmt Resp Write Row Err)
    (cfg : Config Db ι Stmt Resp Write Err α) : Prop :=
  ∀ i j, i ≠ j → ∀ input t input' t', cfg.Running i input t →
        cfg.Running j input' t' → ∀ w ∈ t.writes, ∀ w' ∈ t'.writes,
            ∀ row ∈ E.holds w, row ∉ E.holds w'

variable [DecidableEq Row]

/- What a free statement wants is held by nobody else. -/
theorem not_held_of_free {cfg : Config Db ι Stmt Resp Write Err α} {me : Option Nat}
    {rows : List Row} (hFree : E.blocked cfg me rows = false) {j : Nat}
    (hOther : me ≠ some j) {input : ι}
    (hCall : cfg.Running j input t) {w : Write} (hWrite : w ∈ t.writes)
    {row : Row} (hRow : row ∈ E.holds w) : row ∉ rows := by
  intro hWanted
  have hHeld : row ∈ E.held cfg j := by
    unfold held
    rw [Config.running?_eq_some.mpr hCall]
    exact List.mem_flatMap.mpr ⟨w, hWrite, hRow⟩
  have hBlocked : E.blocked cfg me rows = true := by
    unfold blocked
    rw [List.any_eq_true]
    refine ⟨j, List.mem_range.mpr hCall.lt_length, ?_⟩
    rw [Bool.and_eq_true, List.any_eq_true]
    exact ⟨by simpa using hOther, row, hHeld, by simpa using hWanted⟩
  rw [hFree] at hBlocked
  cases hBlocked

/- Held rows stay exclusive whatever happens next. -/
theorem exclusive_step {cfg cfg' : Config Db ι Stmt Resp Write Err α}
    (hExclusive : E.Exclusive cfg) (hStep : E.step handler cfg a = some cfg') :
    E.Exclusive cfg' := by
  intro i j hNe c t c' t' hi hj w hw w' hw' row hRow hRow'
  cases step_spec hStep with
  | started input =>
    rcases running_started hi with hi | ⟨_, hFresh⟩
    · rcases running_started hj with hj | ⟨_, hFresh⟩
      · exact hExclusive i j hNe c t c' t' hi hj w hw w' hw' row hRow hRow'
      · cases hFresh
        cases hw'
    · cases hFresh
      cases hw
  | answered hCall hProg hFree hExec =>
    rcases running_advance hi with ⟨rfl, rfl, rfl⟩ | ⟨_, hOldI⟩
    · rcases running_advance hj with ⟨rfl, _, _⟩ | ⟨_, hj⟩
      · exact hNe rfl
      · rcases List.mem_append.mp hw with hOld | hNew
        · exact hExclusive i j hNe _ _ _ _ hCall hj w hOld w' hw' row hRow hRow'
        · exact not_held_of_free hFree (by simpa using hNe) hj hw' hRow'
            (E.holds_wanted _ _ _ _ _ hExec w hNew row hRow)
    · rcases running_advance hj with ⟨rfl, rfl, rfl⟩ | ⟨_, hj⟩
      · rcases List.mem_append.mp hw' with hOld | hNew
        · exact hExclusive i j hNe _ _ _ _ hOldI hCall w hw w' hOld row hRow hRow'
        · exact not_held_of_free hFree (by simpa using hNe.symm) hOldI hw hRow
            (E.holds_wanted _ _ _ _ _ hExec w' hNew row hRow')
      · exact hExclusive i j hNe _ _ _ _ hOldI hj w hw w' hw' row hRow hRow'
  | refused hCall hProg hExec =>
    exact hExclusive i j hNe _ _ _ _
      (running_settle hi).2 (running_settle hj).2 w hw w' hw' row hRow hRow'
  | committed hCall hProg =>
    exact hExclusive i j hNe _ _ _ _
      (running_commit hi).2 (running_commit hj).2 w hw w' hw' row hRow hRow'
  | rejected hCall hProg =>
    exact hExclusive i j hNe _ _ _ _
      (running_settle hi).2 (running_settle hj).2 w hw w' hw' row hRow hRow'
  | unacked hCall hProg =>
    exact hExclusive i j hNe _ _ _ _
      (running_commit hi).2 (running_commit hj).2 w hw w' hw' row hRow hRow'
  | broke hCall =>
    exact hExclusive i j hNe _ _ _ _
      (running_settle hi).2 (running_settle hj).2 w hw w' hw' row hRow hRow'

end Engine
