import Fincore.Lib.RelyGuarantee

/-
  Transactions that run alone, up to their end.

  `Engine.Wp` says what a transaction commits if it commits. Here a transaction is followed
  statement by statement to the commit, or to the statement or check that ends it.

  Key definitions include:
    * `Engine.Commits`
    * `Engine.Aborts`
    * `Engine.Succeeds`
    * `Engine.alone`

  Main results:
    * `Engine.Commits.ask`
    * `Engine.Commits.withTx`
    * `Engine.Aborts.withTx`
    * `Engine.succeeds_ask_iff`
-/

----
-- Ends Of A Transaction
----

namespace Engine

variable {Db Stmt Write Row Err α β : Type} {Resp : Stmt → Type}

/- From the writes `ws` on, it commits `ws'` with answer `a`. -/
def Commits (E : Engine Db Stmt Resp Write Row Err) (began : Nat)
    (p : Prog Stmt Resp Err α) (ws : List Write) (db : Db) (a : α) (ws' : List Write) : Prop :=
  ∃ db', E.Ticked db db' ∧ E.serial began p ws db = (.ok a, E.view db' ws')

/- From the writes `ws` on, it fails and rolls back. -/
def Aborts (E : Engine Db Stmt Resp Write Row Err) (began : Nat)
    (p : Prog Stmt Resp Err α) (ws : List Write) (db : Db) : Prop :=
  ∃ e db', E.Ticked db db' ∧ E.serial began p ws db = (.error e, db')

variable {E : Engine Db Stmt Resp Write Row Err} {began : Nat} {s : Stmt}
variable {k : Resp s → Prog Stmt Resp Err α} {r : Resp s} {ws new ws' : List Write} {db : Db}
variable {a : α}

theorem Commits.ret (a : α) (ws : List Write) (db : Db) :
    E.Commits began (.ret a) ws db a ws := ⟨db, .refl db, rfl⟩

theorem Commits.ask (hExec : E.exec began s (E.view db ws) = .ok (r, new))
    (hRest : E.Commits began (k r) (ws ++ new) (E.tick s db) a ws') :
    E.Commits began (.ask s k) ws db a ws' := by
  rcases hRest with ⟨db', hTicked, hRun⟩
  refine ⟨db', .tick s hTicked, ?_⟩
  simp only [serial, hExec]
  exact hRun

theorem Aborts.fail (e : Err) (ws : List Write) (db : Db) :
    E.Aborts began (.fail e : Prog Stmt Resp Err α) ws db := ⟨e, db, .refl db, rfl⟩

theorem Aborts.ask (hExec : E.exec began s (E.view db ws) = .ok (r, new))
    (hRest : E.Aborts began (k r) (ws ++ new) (E.tick s db)) : E.Aborts began (.ask s k) ws db := by
  rcases hRest with ⟨e, db', hTicked, hRun⟩
  refine ⟨e, db', .tick s hTicked, ?_⟩
  simp only [serial, hExec]
  exact hRun

variable {ws₁ : List Write} {db₁ : Db}

/- A run that goes on as another one. -/
theorem Commits.of_serial {p q : Prog Stmt Resp Err α} (hTicked : E.Ticked db db₁)
    (hSame : E.serial began p ws db = E.serial began q ws₁ db₁)
    (hRest : E.Commits began q ws₁ db₁ a ws') : E.Commits began p ws db a ws' := by
  rcases hRest with ⟨db', hMore, hRun⟩
  exact ⟨db', hTicked.trans hMore, hSame.trans hRun⟩

theorem Aborts.of_serial {p q : Prog Stmt Resp Err α} (hTicked : E.Ticked db db₁)
    (hSame : E.serial began p ws db = E.serial began q ws₁ db₁)
    (hRest : E.Aborts began q ws₁ db₁) : E.Aborts began p ws db := by
  rcases hRest with ⟨e, db', hMore, hRun⟩
  exact ⟨e, db', hTicked.trans hMore, hSame.trans hRun⟩

theorem Aborts.refused {e : Err} (hExec : E.exec began s (E.view db ws) = .error e) :
    E.Aborts began (.ask s k) ws db := by
  refine ⟨e, E.tick s db, .tick s (.refl _), ?_⟩
  simp only [serial, hExec]

/- The first statement of a run, by its answer. -/
theorem serial_ask_exec (hExec : E.exec began s (E.view db ws) = .ok (r, new)) :
    E.serial began (.ask s k) ws db = E.serial began (k r) (ws ++ new) (E.tick s db) := by
  simp only [serial, hExec]

theorem serial_ask_error {e : Err} (hExec : E.exec began s (E.view db ws) = .error e) :
    E.serial began (.ask s k) ws db = (.error e, E.tick s db) := by
  simp only [serial, hExec]

/- The first statement of a run that ends well. -/
theorem serial_ask_ok {db' : Db} (hRun : E.serial began (.ask s k) ws db = (.ok a, db')) : ∃ r new,
    E.exec began s (E.view db ws) = .ok (r, new) ∧
    E.serial began (k r) (ws ++ new) (E.tick s db) = (.ok a, db') := by
  cases hExec : E.exec began s (E.view db ws) with
  | error e =>
    simp only [serial, hExec] at hRun
    cases hRun
  | ok answer =>
    simp only [serial, hExec] at hRun
    exact ⟨answer.1, answer.2, rfl, hRun⟩

variable {f : β → Prog Stmt Resp Err α} {x : Except Err β}

/- A check of a run that ends well is passed. -/
theorem serial_ofExcept_ok {db' : Db}
    (hRun : E.serial began (Prog.ofExcept x >>= f) ws db = (.ok a, db')) :
    ∃ b, x = .ok b ∧ E.serial began (f b) ws db = (.ok a, db') := by
  cases x with
  | error e => cases hRun
  | ok b => exact ⟨b, rfl, hRun⟩

/- Renaming the answer changes nothing else. -/
theorem serial_map (f : α → β) (p : Prog Stmt Resp Err α) (ws : List Write)
    (db : Db) : (E.serial began (p >>= fun a => .ret (f a)) ws db).2 =
    (E.serial began p ws db).2 := by
  induction p generalizing ws db with
  | ret a => rfl
  | fail e => rfl
  | ask s k ih =>
    cases hExec : E.exec began s (E.view db ws) with
    | error e =>
      rw [serial_ask_error hExec]
      exact congrArg Prod.snd (serial_ask_error hExec)
    | ok answer =>
      rw [serial_ask_exec hExec, ← ih]
      exact congrArg Prod.snd (serial_ask_exec hExec)

----
-- What A Transaction Leaves
----

variable {p : Prog Stmt Resp Err α}

/-
  What no statement changes for good, seen after a commit: the writes, made on the database as it
  was.
-/
theorem Commits.withTx {core : Db → Db} (hTick : ∀ s db, core (E.tick s db) = core db)
    (hApply : ∀ db w, core (E.apply db w) = E.apply (core db) w) {a : α}
    {ws : List Write} (hCommits : E.Commits (E.now db) p [] db a ws) : (E.withTx p db).1 = .ok a ∧
    core (E.withTx p db).2 = E.view (core db) ws := by
  rcases hCommits with ⟨db', hTicked, hRun⟩
  unfold Engine.withTx
  rw [hRun]
  refine ⟨rfl, ?_⟩
  rw [core_view hApply, hTicked.observe hTick]

theorem Aborts.withTx {f : Db → β} (hTick : ∀ s db, f (E.tick s db) = f db)
    (hAborts : E.Aborts (E.now db) p [] db) :
    (∃ e, (E.withTx p db).1 = .error e) ∧ f (E.withTx p db).2 = f db := by
  rcases hAborts with ⟨e, db', hTicked, hRun⟩
  unfold Engine.withTx
  rw [hRun]
  exact ⟨⟨e, rfl⟩, hTicked.observe hTick⟩

----
-- Transactions That Succeed
----

/- From the writes `ws` on, it gets to its commit. -/
def Succeeds (E : Engine Db Stmt Resp Write Row Err) (began : Nat)
    (p : Prog Stmt Resp Err α) (ws : List Write) (db : Db) : Prop :=
  ∃ a db', E.serial began p ws db = (.ok a, db')

variable {E : Engine Db Stmt Resp Write Row Err} {began : Nat} {ws : List Write} {db : Db}

theorem succeeds_ret (a : α) : E.Succeeds began (.ret a : Prog Stmt Resp Err α) ws db := ⟨a, _, rfl⟩

theorem not_succeeds_fail (e : Err) :
    ¬ E.Succeeds began (.fail e : Prog Stmt Resp Err α) ws db := by
  rintro ⟨a, db', hRun⟩
  cases hRun

theorem not_succeeds_of_fails {p : Prog Stmt Resp Err α} (hFails : p.Fails) :
    ¬ E.Succeeds began p ws db := by
  rintro ⟨a, db', hRun⟩
  induction p generalizing ws db with
  | ret b => exact hFails.elim
  | fail e => cases hRun
  | ask s k ih =>
    rcases serial_ask_ok hRun with ⟨r, new, _, hRest⟩
    exact ih r (hFails r) hRest

theorem serial_returns {P : α → Prop} {p : Prog Stmt Resp Err α} {a : α}
    (hReturns : p.Returns P) (hRun : (E.serial began p ws db).1 = .ok a) : P a := by
  induction p generalizing ws db with
  | ret b =>
    cases hRun
    exact hReturns
  | fail e => cases hRun
  | ask s k ih =>
    rcases serial_ask_ok (Prod.ext hRun rfl) with ⟨r, new, _, hRest⟩
    exact ih r (hReturns r) (congrArg Prod.fst hRest)

/- One statement succeeds, and then the rest does. -/
theorem succeeds_ask_iff {s : Stmt} {k : Resp s → Prog Stmt Resp Err α} :
    E.Succeeds began (.ask s k) ws db ↔ ∃ r new, E.exec began s (E.view db ws) = .ok (r, new) ∧
    E.Succeeds began (k r) (ws ++ new) (E.tick s db) := by
  constructor
  · rintro ⟨a, db', hRun⟩
    rcases serial_ask_ok hRun with ⟨r, new, hExec, hRest⟩
    exact ⟨r, new, hExec, a, db', hRest⟩
  · rintro ⟨r, new, hExec, a, db', hRest⟩
    refine ⟨a, db', ?_⟩
    simp only [serial, hExec]
    exact hRest

theorem succeeds_ofExcept_iff : E.Succeeds began (Prog.ofExcept x >>= f) ws db ↔
    ∃ b, x = .ok b ∧ E.Succeeds began (f b) ws db := by
  constructor
  · rintro ⟨a, db', hRun⟩
    rcases serial_ofExcept_ok hRun with ⟨b, hOk, hRest⟩
    exact ⟨b, hOk, a, db', hRest⟩
  · rintro ⟨b, rfl, hRest⟩
    exact hRest

theorem succeeds_of_ok {p : Prog Stmt Resp Err α} {a : α}
    (hOk : (E.withTx p db).1 = .ok a) : E.Succeeds (E.now db) p [] db :=
  ⟨a, (E.withTx p db).2, Prod.ext hOk rfl⟩

----
-- Statements That Commit By Themselves
----

/-
  Run a program outside all transactions while nothing else runs: each statement is committed when
  it is answered.
-/
def alone (E : Engine Db Stmt Resp Write Row Err) : Prog Stmt Resp Err α → Db → Except Err α × Db
| .ret a, db => (.ok a, db)
| .fail e, db => (.error e, db)
| .ask s k, db =>
  match E.exec (E.now db) s db with
  | .ok (r, ws) => alone E (k r) (E.view (E.tick s db) ws)
  | .error e => (.error e, E.tick s db)

variable {E : Engine Db Stmt Resp Write Row Err}

theorem alone_ask {s : Stmt} {k : Resp s → Prog Stmt Resp Err α} {db : Db}
    {r : Resp s} {ws : List Write}
    (hExec : E.exec (E.now db) s db = .ok (r, ws)) : E.alone (.ask s k) db =
    E.alone (k r) (E.view (E.tick s db) ws) := by
  simp only [alone, hExec]

theorem alone_bind {p : Prog Stmt Resp Err α} (f : α → Prog Stmt Resp Err β)
    {db db' : Db} {a : α} (hFirst : E.alone p db = (.ok a, db')) :
    E.alone (p >>= f) db = E.alone (f a) db' := by
  induction p generalizing db with
  | ret b =>
    cases hFirst
    rfl
  | fail e => cases hFirst
  | ask s k ih =>
    cases hExec : E.exec (E.now db) s db with
    | error e =>
      simp only [alone, hExec] at hFirst
      cases hFirst
    | ok answer =>
      rcases answer with ⟨r, ws⟩
      rw [alone_ask hExec] at hFirst
      show E.alone (.ask s (fun x => k x >>= f)) db = _
      rw [alone_ask hExec]
      exact ih r hFirst

end Engine
