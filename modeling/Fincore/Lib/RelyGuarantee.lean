import Fincore.Lib.Engine

/-
  Rely-guarantee reasoning for interleaved transactions.

  A rely says how the committed database may change under a running transaction. `Engine.Wp` is the
  weakest condition under which a program, interrupted between any two of its statements by changes
  the rely allows, only commits writes and answers that meet a postcondition.

  Key definitions include:
    * `Engine.Rely` and `Engine.Rely.of`
    * `Engine.Wp`
    * `Engine.Guarded`

  Main results:
    * `Engine.serial_writes`
    * `Engine.guarded_step`
    * `Engine.Wp.serial`
-/

----
-- Relies
----

namespace Engine

/- A rely, a preorder on databases for each transaction. -/
structure Rely (Db Stmt : Type) (Resp : Stmt → Type) (Write Err α : Type) where
  rel : Txn Stmt Resp Write Err α → Db → Db → Prop
  refl : ∀ t db, rel t db db
  trans : ∀ t db₁ db₂ db₃, rel t db₁ db₂ → rel t db₂ db₃ → rel t db₁ db₃

/- The rely that allows every change. -/
def Rely.top {Db Stmt : Type} {Resp : Stmt → Type} {Write Err α : Type} :
    Rely Db Stmt Resp Write Err α where
  rel := fun _ _ _ => True
  refl := fun _ _ => trivial
  trans := fun _ _ _ _ _ _ => trivial

/- A preorder on databases that no transaction has a say in. -/
def Rely.of {Db Stmt : Type} {Resp : Stmt → Type} {Write Err α : Type}
    (r : Db → Db → Prop) (hRefl : ∀ db, r db db)
    (hTrans : ∀ db₁ db₂ db₃, r db₁ db₂ → r db₂ db₃ → r db₁ db₃) :
    Rely Db Stmt Resp Write Err α where
  rel := fun _ => r
  refl := fun _ => hRefl
  trans := fun _ => hTrans

/- Databases that differ only by statements' lasting effects. -/
inductive Ticked {Db Stmt : Type} {Resp : Stmt → Type} {Write Row Err : Type}
    (E : Engine Db Stmt Resp Write Row Err) : Db → Db → Prop where
  | refl (db : Db) : Ticked E db db
  | tick {db db' : Db} (s : Stmt) (hRest : Ticked E (E.tick s db) db') : Ticked E db db'

variable {Db Stmt Write Row Err α β : Type} {Resp : Stmt → Type}

theorem Ticked.trans {E : Engine Db Stmt Resp Write Row Err} {db₁ db₂ db₃ : Db}
    (hFirst : E.Ticked db₁ db₂) (hSecond : E.Ticked db₂ db₃) : E.Ticked db₁ db₃ := by
  induction hFirst with
  | refl db => exact hSecond
  | tick s _ ih => exact .tick s (ih hSecond)

/- What no statement changes for good survives ticks. -/
theorem Ticked.observe {E : Engine Db Stmt Resp Write Row Err} {f : Db → β}
    (hTick : ∀ s db, f (E.tick s db) = f db) {db db' : Db}
    (hTicked : E.Ticked db db') : f db' = f db := by
  induction hTicked with
  | refl db => rfl
  | tick s _ ih => rw [ih, hTick]

variable {p : Prog Stmt Resp Err α}

variable {P : Stmt → Prop}

/- Whatever a transaction run alone commits are writes of the statements it asks for. -/
theorem serial_writes {E : Engine Db Stmt Resp Write Row Err} {R : Write → Prop}
    (hExec : ∀ s began db r ws, P s → E.exec began s db = .ok (r, ws) → ∀ w ∈ ws, R w)
    (hAsks : p.Asks P) (began : Nat)
    (ws : List Write) (hWrites : ∀ w ∈ ws, R w) (db : Db) :
    ∃ db' ws', E.Ticked db db' ∧ (∀ w ∈ ws', R w) ∧
    (E.serial began p ws db).2 = E.view db' ws' := by
  induction p generalizing ws db with
  | ret a => exact ⟨db, ws, .refl db, hWrites, rfl⟩
  | fail e =>
    refine ⟨db, [], .refl db, ?_, rfl⟩
    intro w hMem
    cases hMem
  | ask s k ih =>
    cases hStmt : E.exec began s (E.view db ws) with
    | error e =>
      refine ⟨E.tick s db, [], .tick s (.refl _), ?_, ?_⟩
      · intro w hMem
        cases hMem
      · simp only [serial, hStmt]
        rfl
    | ok answer =>
      rcases answer with ⟨r, new⟩
      have hAll : ∀ w ∈ ws ++ new, R w := by
        intro w hMem
        rcases List.mem_append.mp hMem with hOld | hNew
        · exact hWrites w hOld
        · exact hExec s began _ r new hAsks.1 hStmt w hNew
      rcases ih r (hAsks.2 r) (ws ++ new) hAll (E.tick s db) with ⟨db', ws', hTicked, hRest, hView⟩
      refine ⟨db', ws', .tick s hTicked, hRest, ?_⟩
      simp only [serial, hStmt]
      exact hView

----
-- Weakest Preconditions
----

/-
  Whatever the rely allows before each statement and before the commit, a transaction that commits
  meets `Q`.
-/
def Wp (E : Engine Db Stmt Resp Write Row Err)
    (R : Rely Db Stmt Resp Write Err α) (Q : Db → List Write → α → Prop)
    (began : Nat) : Prog Stmt Resp Err α → List Write → Db → Prop
| .ret a, ws, db =>
  ∀ db', R.rel ⟨began, ws, .ret a⟩ db db' → Q db' ws a
| .fail _, _, _ => True
| .ask s k, ws, db =>
  ∀ db', R.rel ⟨began, ws, .ask s k⟩ db db' → ∀ r ws',
      E.exec began s (E.view db' ws) = .ok (r, ws') →
        Wp E R Q began (k r) (ws ++ ws') (E.tick s db')

variable {E : Engine Db Stmt Resp Write Row Err} {R : Rely Db Stmt Resp Write Err α}
variable {Q : Db → List Write → α → Prop} {began : Nat}

variable {ws : List Write}

theorem Wp.stable {db db' : Db}
    (hWp : E.Wp R Q began p ws db) (hRely : R.rel ⟨began, ws, p⟩ db db') :
    E.Wp R Q began p ws db' := by
  cases p with
  | ret a =>
    intro db'' hMore
    exact hWp db'' (R.trans _ _ _ _ hRely hMore)
  | fail e => trivial
  | ask s k =>
    intro db'' hMore
    exact hWp db'' (R.trans _ _ _ _ hRely hMore)

variable {db : Db}

theorem Wp.of_ret {a : α} (hWp : E.Wp R Q began (.ret a) ws db) : Q db ws a := hWp db (R.refl _ db)

theorem Wp.of_ask {s : Stmt} {k : Resp s → Prog Stmt Resp Err α}
    {ws ws' : List Write} {r : Resp s} (hWp : E.Wp R Q began (.ask s k) ws db)
    (hExec : E.exec began s (E.view db ws) = .ok (r, ws')) :
    E.Wp R Q began (k r) (ws ++ ws') (E.tick s db) := hWp db (R.refl _ db) r ws' hExec

theorem Wp.of_fails (hFails : p.Fails) (ws : List Write) (db : Db) : E.Wp R Q began p ws db := by
  induction p generalizing ws db with
  | ret a => exact hFails.elim
  | fail e => trivial
  | ask s k ih =>
    intro db' _ r ws' _
    exact ih r (hFails r) _ _

/- What is committed are writes of what is asked for. -/
theorem Wp.of_asks {K : Write → Prop}
    (hExec : ∀ s began db r ws, P s → E.exec began s db = .ok (r, ws) → ∀ w ∈ ws, K w)
    (hAsks : p.Asks P)
    (hWrites : ∀ w ∈ ws, K w) (db : Db) : E.Wp R (fun _ ws _ => ∀ w ∈ ws, K w) began p ws db := by
  induction p generalizing ws db with
  | ret a =>
    intro db' _
    exact hWrites
  | fail e => trivial
  | ask s k ih =>
    intro db' _ r new hAnswer
    refine ih r (hAsks.2 r) ?_ _
    intro w hMem
    rcases List.mem_append.mp hMem with hOld | hNew
    · exact hWrites w hOld
    · exact hExec s began _ r new hAsks.1 hAnswer w hNew

theorem Wp.mono {Q' : Db → List Write → α → Prop} (hWp : E.Wp R Q began p ws db)
    (hPost : ∀ db ws a, Q db ws a → Q' db ws a) : E.Wp R Q' began p ws db := by
  induction p generalizing ws db with
  | ret a =>
    intro db' hRely
    exact hPost db' ws a (hWp db' hRely)
  | fail e => trivial
  | ask s k ih =>
    intro db' hRely r ws' hExec
    exact ih r (hWp db' hRely r ws' hExec)

/- Renaming the answer renames it in the postcondition. -/
theorem Wp.map {β : Type} {r : Db → Db → Prop} {hRefl : ∀ db, r db db}
    {hTrans : ∀ db₁ db₂ db₃, r db₁ db₂ → r db₂ db₃ → r db₁ db₃}
    {Q' : Db → List Write → β → Prop} (f : α → β)
    (hWp : E.Wp (Rely.of r hRefl hTrans) (fun db ws a => Q' db ws (f a)) began p ws db) :
    E.Wp (Rely.of r hRefl hTrans) Q' began (p >>= fun a => .ret (f a)) ws db := by
  induction p generalizing ws db with
  | ret a => exact hWp
  | fail e => trivial
  | ask s k ih =>
    intro db' hRely x ws' hExec
    exact ih x (hWp db' hRely x ws' hExec)

/-
  A transaction that runs alone and commits leaves the database its writes make of the one it found.
-/
theorem Wp.serial {a : α}
    (hWp : E.Wp R Q began p ws db) (hOk : (E.serial began p ws db).1 = .ok a) :
    ∃ db' ws', E.Ticked db db' ∧ Q db' ws' a ∧ (E.serial began p ws db).2 = E.view db' ws' := by
  induction p generalizing ws db with
  | ret b =>
    simp only [Engine.serial, Except.ok.injEq] at hOk
    subst hOk
    exact ⟨db, ws, .refl db, hWp.of_ret, rfl⟩
  | fail e => simp [Engine.serial] at hOk
  | ask s k ih =>
    cases hExec : E.exec began s (E.view db ws) with
    | error e => simp [Engine.serial, hExec] at hOk
    | ok answer =>
      rcases answer with ⟨r, ws'⟩
      simp only [Engine.serial, hExec] at hOk ⊢
      rcases ih r (hWp.of_ask hExec) hOk with ⟨db'', ws'', hTicked, hQ, hDb⟩
      exact ⟨db'', ws'', .tick s hTicked, hQ, hDb⟩

----
-- Guarded Configurations
----

variable {Db ι Stmt Write Row Err α : Type} {Resp : Stmt → Type}

/- Every running call still meets its precondition. -/
def Guarded (E : Engine Db Stmt Resp Write Row Err)
    (R : ι → Rely Db Stmt Resp Write Err α) (Q : ι → Db → List Write → α → Prop)
    (cfg : Config Db ι Stmt Resp Write Err α) : Prop :=
  ∀ i input t, cfg.Running i input t → E.Wp (R input) (Q input) t.began t.prog t.writes cfg.db

variable {E : Engine Db Stmt Resp Write Row Err} {R : ι → Rely Db Stmt Resp Write Err α}
variable {Q : ι → Db → List Write → α → Prop} {cfg cfg' : Config Db ι Stmt Resp Write Err α}

/- A change of the database that every rely allows. -/
theorem Guarded.of_rely {db : Db} {journal : List (Option Nat × Write)}
    (hGuarded : E.Guarded R Q cfg)
    (hRely : ∀ i input t, cfg.Running i input t → (R input).rel t cfg.db db) :
    E.Guarded R Q { cfg with db := db, journal := journal } := by
  intro i input t hCall
  exact (hGuarded i input t hCall).stable (hRely i input t hCall)

/- What a call commits meets its postcondition. -/
theorem Guarded.post (hGuarded : E.Guarded R Q cfg) {i : Nat} {input : ι}
    {t : Txn Stmt Resp Write Err α} {a : α} (hCall : cfg.Running i input t)
    (hProg : t.prog = .ret a) : Q input cfg.db t.writes a := by
  have hWp := hGuarded i input t hCall
  rw [hProg] at hWp
  exact hWp.of_ret

variable [DecidableEq Row]

variable {handler : ι → Prog Stmt Resp Err α}

/-
  One step keeps every call guarded when the handler starts guarded, every rely allows ticks, and it
  allows whatever the other calls can commit.
-/
theorem guarded_step {a : Action ι}
    (hStart : ∀ input, E.Wp (R input) (Q input) (E.now cfg.db) (handler input) [] cfg.db)
    (hTick : ∀ input t s db, (R input).rel t db (E.tick s db))
    (hCommit : ∀ i input t b j input' t', i ≠ j → (a = .finish i ∨ a = .unacked i) →
    cfg.Running i input t → t.prog = .ret b → cfg.Running j input' t' →
    (R input').rel t' cfg.db (E.view cfg.db t.writes))
    (hGuarded : E.Guarded R Q cfg) (hStep : E.step handler cfg a = some cfg') :
    E.Guarded R Q cfg' := by
  intro j input' t' hj
  cases step_spec hStep with
  | started input =>
    rcases running_started hj with hj | ⟨_, hFresh⟩
    · exact hGuarded j input' t' hj
    · cases hFresh
      exact hStart _
  | answered hCall hProg hFree hExec =>
    rcases running_advance hj with ⟨rfl, rfl, rfl⟩ | ⟨_, hOld⟩
    · have hWp := hGuarded _ _ _ hCall
      rw [hProg] at hWp
      exact hWp.of_ask hExec
    · exact (hGuarded j input' t' hOld).stable (hTick input' t' _ cfg.db)
  | refused hCall hProg hExec =>
    exact (hGuarded j input' t' (running_settle hj).2).stable (hTick input' t' _ cfg.db)
  | committed hCall hProg =>
    rcases running_commit hj with ⟨hNe, hOld⟩
    exact (hGuarded j input' t' hOld).stable
      (hCommit _ _ _ _ j input' t' (Ne.symm hNe) (Or.inl rfl) hCall hProg hOld)
  | rejected hCall hProg =>
    exact hGuarded j input' t' (running_settle hj).2
  | unacked hCall hProg =>
    rcases running_commit hj with ⟨hNe, hOld⟩
    exact (hGuarded j input' t' hOld).stable
      (hCommit _ _ _ _ j input' t' (Ne.symm hNe) (Or.inr rfl) hCall hProg hOld)
  | broke hCall =>
    exact hGuarded j input' t' (running_settle hj).2

/- What is committed whatever the others do. -/
theorem guarded_top_step {a : Action ι} {Q : ι → List Write → α → Prop}
    (hWp : ∀ c began db, E.Wp Rely.top (fun _ ws a => Q c ws a) began (handler c) [] db)
    (hGuarded : E.Guarded (fun _ => Rely.top) (fun c _ ws a => Q c ws a) cfg)
    (hStep : E.step handler cfg a = some cfg') : E.Guarded (fun _ => Rely.top)
    (fun c _ ws a => Q c ws a) cfg' := by
  apply guarded_step _ _ _ hGuarded hStep
  · intro c
    exact hWp c _ _
  · intro c t s db
    trivial
  · intro i c t b j c' t' _ _ _ _ _
    trivial

end Engine
