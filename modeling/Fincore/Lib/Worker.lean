import Fincore.Lib.Journal
import Fincore.Lib.Transition

/-
  A worker beside interleaved transactions.

  The worker goes through batches one after the other, from the offset at which the last whole batch
  has left it. It has no transaction: each statement commits by itself, and the transactions commit
  in between.

  Key definitions include:
    * `Worker.State` and `Worker.step`
    * `Worker.Session`

  Main results:
    * `Worker.step_spec`
    * `Worker.session_step`
-/

----
-- Batches
----

namespace Worker

variable {Db ι Stmt Write Row Err α β : Type} {Resp : Stmt → Type}

/- A batch ends with how many it has seen, and the offset. -/
abbrev Batch (Stmt : Type) (Resp : Stmt → Type) (Err : Type) := Prog Stmt Resp Err (Nat × Nat)

/- The transactions, and what is left of the batch. -/
structure State (Db ι Stmt : Type) (Resp : Stmt → Type) (Write Err α : Type) where
  calls : Engine.Config Db ι Stmt Resp Write Err α
  lastSeq : Nat
  batch : Option (Batch Stmt Resp Err)

/-
  A step of a transaction, or of the worker: a tick starts a batch, a statement of it is answered
  (its acknowledgement may get lost), the batch ends, an outside failure ends it, or the process
  restarts.
-/
inductive Action (ι : Type) where
  | call (a : Engine.Action ι)
  | poll
  | exec
  | unacked
  | finish
  | broke
  | restart

variable [DecidableEq Row]

/- Errors are logged; the offset moves on a whole batch. -/
def step (E : Engine Db Stmt Resp Write Row Err)
    (handler : ι → Prog Stmt Resp Err α) (program : Nat → Batch Stmt Resp Err)
    (s : State Db ι Stmt Resp Write Err α) : Action ι → Option (State Db ι Stmt Resp Write Err α)
| .call a =>
  (E.step handler s.calls a).map (fun calls =>
    { s with calls := calls })
| .poll =>
  match s.batch with
  | none => some { s with batch := some (program s.lastSeq) }
  | some _ => none
| .exec =>
  match s.batch with
  | some (.ask stmt k) =>
    match E.autocommit s.calls stmt with
    | none => none
    | some (.ok r, calls) =>
      some { s with calls := calls, batch := some (k r) }
    | some (.error _, calls) =>
      some { s with calls := calls, batch := none }
  | _ => none
| .unacked =>
  match s.batch with
  | some (.ask stmt _) =>
    match E.autocommit s.calls stmt with
    | none => none
    | some (_, calls) =>
      some { s with calls := calls, batch := none }
  | _ => none
| .finish =>
  match s.batch with
  | some (.ret (processed, nextSeq)) =>
    some { s with
      lastSeq :=
        if 0 < processed then nextSeq else s.lastSeq
      batch := none }
  | some (.fail _) => some { s with batch := none }
  | _ => none
| .broke => some { s with batch := none }
| .restart => some { s with lastSeq := 0, batch := none }

----
-- What A Step Can Do
----

variable {Db ι Stmt Write Row Err α β : Type} {Resp : Stmt → Type} [DecidableEq Row]
variable {E : Engine Db Stmt Resp Write Row Err} {handler : ι → Prog Stmt Resp Err α}
variable {program : Nat → Batch Stmt Resp Err} {s s' : State Db ι Stmt Resp Write Err α}

/-
  A statement that is let through has written, or it has failed; what it answers, if it answers, it
  answers on the database that it finds.
-/
inductive Sent (E : Engine Db Stmt Resp Write Row Err)
    (calls : Engine.Config Db ι Stmt Resp Write Err α) (stmt : Stmt)
    (k : Resp stmt → Batch Stmt Resp Err) : Engine.Config Db ι Stmt Resp Write Err α →
      Option (Batch Stmt Resp Err) → Prop where
  | done {r : Resp stmt} {ws : List Write} {batch : Option (Batch Stmt Resp Err)}
      (hExec : E.exec (E.now calls.db) stmt calls.db = .ok (r, ws))
      (hRest : batch = some (k r) ∨ batch = none) :
      Sent E calls stmt k (calls.outside E stmt ws) batch
  | failed : Sent E calls stmt k (calls.outside E stmt []) none

/- Why a batch is given up, and the offset it leaves. -/
inductive Dropped (s : State Db ι Stmt Resp Write Err α) : Action ι → Nat → Prop where
  | failed {e : Err} (hBatch : s.batch = some (.fail e)) : Dropped s .finish s.lastSeq
  | broke : Dropped s .broke s.lastSeq
  | restarted : Dropped s .restart 0

/- All that a step can be. -/
inductive StepSpec (E : Engine Db Stmt Resp Write Row Err)
    (handler : ι → Prog Stmt Resp Err α) (program : Nat → Batch Stmt Resp Err)
    (s : State Db ι Stmt Resp Write Err α) :
    Action ι → State Db ι Stmt Resp Write Err α → Prop where
  | called {a : Engine.Action ι} {calls : Engine.Config Db ι Stmt Resp Write Err α}
      (hCall : E.step handler s.calls a = some calls) :
      StepSpec E handler program s (.call a) { s with calls := calls }
  | polled (hBatch : s.batch = none) : StepSpec E handler program s .poll
        { s with batch := some (program s.lastSeq) }
  | sent {a : Action ι} {stmt : Stmt} {k : Resp stmt → Batch Stmt Resp Err}
      {calls : Engine.Config Db ι Stmt Resp Write Err α} {batch : Option (Batch Stmt Resp Err)}
      (hAction : a = .exec ∨ (a = .unacked ∧ batch = none)) (hBatch : s.batch = some (.ask stmt k))
      (hFree : E.blocked s.calls none (E.wants stmt) = false)
      (hSent : Sent E s.calls stmt k calls batch)
      (hFailed : a = .exec → batch = none →
          ∃ e, E.exec (E.now s.calls.db) stmt s.calls.db = .error e) :
      StepSpec E handler program s a { s with calls := calls, batch := batch }
  | ended {processed nextSeq : Nat} (hBatch : s.batch = some (.ret (processed, nextSeq))) :
      StepSpec E handler program s .finish
        { s with
          lastSeq :=
            if 0 < processed then nextSeq else s.lastSeq
          batch := none }
  | dropped (a : Action ι) (lastSeq : Nat) (hWhy : Dropped s a lastSeq) :
      StepSpec E handler program s a ⟨s.calls, lastSeq, none⟩

variable {calls calls' : Engine.Config Db ι Stmt Resp Write Err α}

theorem sent_of_autocommit {stmt : Stmt}
    {r : Except Err (Resp stmt)} (hSent : E.autocommit calls stmt = some (r, calls'))
    {k : Resp stmt → Batch Stmt Resp Err} {batch : Option (Batch Stmt Resp Err)}
    (hRest : (∃ x, r = .ok x ∧ batch = some (k x)) ∨ batch = none) :
    E.blocked calls none (E.wants stmt) = false ∧ Sent E calls stmt k calls' batch := by
  unfold Engine.autocommit at hSent
  split at hSent
  · cases hSent
  · rename_i hFree
    refine ⟨by simpa using hFree, ?_⟩
    split at hSent
    · rename_i x ws hExec
      cases hSent
      refine .done hExec ?_
      rcases hRest with ⟨_, hEq, hBatch⟩ | hNone
      · cases hEq
        exact Or.inl hBatch
      · exact Or.inr hNone
    · cases hSent
      rcases hRest with ⟨_, hEq, _⟩ | rfl
      · cases hEq
      · have hNothing : { calls with db := E.tick stmt calls.db } = calls.outside E stmt [] := by
          simp [Engine.Config.outside]
        rw [hNothing]
        exact .failed

theorem exec_of_autocommit_error {stmt : Stmt}
    {e : Err} (hSent : E.autocommit calls stmt = some (.error e, calls')) :
    E.exec (E.now calls.db) stmt calls.db = .error e := by
  unfold Engine.autocommit at hSent
  split at hSent
  · cases hSent
  · split at hSent
    · cases hSent
    · rename_i hExec
      cases hSent
      exact hExec

theorem step_spec {a : Action ι} (hStep : step E handler program s a = some s') :
    StepSpec E handler program s a s' := by
  cases a with
  | call a =>
    rcases Option.map_eq_some_iff.mp hStep with ⟨calls, hCall, rfl⟩
    exact .called hCall
  | poll =>
    simp only [step] at hStep
    split at hStep
    · rename_i hBatch
      cases hStep
      exact .polled hBatch
    · cases hStep
  | exec =>
    simp only [step] at hStep
    split at hStep
    · rename_i stmt k hBatch
      split at hStep
      · cases hStep
      · rename_i r calls hSent
        cases hStep
        rcases sent_of_autocommit hSent (Or.inl ⟨r, rfl, rfl⟩) with ⟨hFree, hAnswered⟩
        exact .sent (Or.inl rfl) hBatch hFree hAnswered (fun _ => nofun)
      · rename_i e calls hSent
        cases hStep
        rcases sent_of_autocommit hSent (Or.inr rfl) with ⟨hFree, hFailed⟩
        exact .sent (Or.inl rfl) hBatch hFree hFailed
          (fun _ _ => ⟨e, exec_of_autocommit_error hSent⟩)
    · cases hStep
  | unacked =>
    simp only [step] at hStep
    split at hStep
    · rename_i stmt k hBatch
      split at hStep
      · cases hStep
      · rename_i r calls hSent
        cases hStep
        rcases sent_of_autocommit hSent (Or.inr rfl) with ⟨hFree, hLost⟩
        exact .sent (Or.inr ⟨rfl, rfl⟩) hBatch hFree hLost nofun
    · cases hStep
  | finish =>
    simp only [step] at hStep
    split at hStep
    · rename_i processed nextSeq hBatch
      cases hStep
      exact .ended hBatch
    · rename_i e hBatch
      cases hStep
      exact .dropped _ _ (.failed hBatch)
    · cases hStep
  | broke =>
    cases hStep
    exact .dropped _ _ .broke
  | restart =>
    cases hStep
    exact .dropped _ _ .restarted

----
-- Sessions
----

variable {Db ι Stmt Write Row Err α β : Type} {Resp : Stmt → Type}

/-
  Whatever `r` allows before each statement, as long as the database meets `J`: the statement meets
  `G`.
-/
def Session (E : Engine Db Stmt Resp Write Row Err) (r : Db → Db → Prop)
    (J : Db → Prop) (G : Db → Stmt → Prop) : Prog Stmt Resp Err β → Db → Prop
| .ret _, _ => True
| .fail _, _ => True
| .ask s k, db =>
  ∀ db', r db db' → J db' → G db' s ∧ ∀ x ws, E.exec (E.now db') s db' = .ok (x, ws) →
        Session E r J G (k x) (E.view (E.tick s db') ws)

variable {E : Engine Db Stmt Resp Write Row Err} {r : Db → Db → Prop} {J : Db → Prop}
variable {G : Db → Stmt → Prop}

variable {p : Prog Stmt Resp Err β}

theorem Session.stable (hTrans : ∀ db₁ db₂ db₃, r db₁ db₂ → r db₂ db₃ → r db₁ db₃) {db db' : Db}
    (hSession : Session E r J G p db)
    (hRely : r db db') : Session E r J G p db' := by
  cases p with
  | ret b => trivial
  | fail e => trivial
  | ask s k =>
    intro db'' hMore
    exact hSession db'' (hTrans _ _ _ hRely hMore)

/- One session after another, if `r` allows their writes. -/
theorem Session.bind {γ : Type} (hTrans : ∀ db₁ db₂ db₃, r db₁ db₂ → r db₂ db₃ → r db₁ db₃)
    (hRefl : ∀ db, r db db) (hOwn : ∀ s db ws, r db (E.view (E.tick s db) ws))
    {f : β → Prog Stmt Resp Err γ} {db : Db}
    (hFirst : Session E r J G p db) (hRest : ∀ b db', r db db' → Session E r J G (f b) db') :
    Session E r J G (p >>= f) db := by
  induction p generalizing db with
  | ret b => exact hRest b db (hRefl db)
  | fail e => trivial
  | ask s k ih =>
    intro db' hRely hJ
    rcases hFirst db' hRely hJ with ⟨hG, hThen⟩
    refine ⟨hG, ?_⟩
    intro x ws hExec
    refine ih x (hThen x ws hExec) ?_
    intro b db'' hMore
    exact hRest b db'' (hTrans _ _ _ hRely (hTrans _ _ _ (hOwn s db' ws) hMore))

variable {s s' : State Db ι Stmt Resp Write Err α}

/- What is left of the worker's batch meets `G`. -/
def State.Keeps (E : Engine Db Stmt Resp Write Row Err) (r : Db → Db → Prop)
    (J : Db → Prop) (G : Db → Stmt → Prop) (s : State Db ι Stmt Resp Write Err α) : Prop :=
  ∀ p, s.batch = some p → Session E r J G p s.calls.db

/- The statement the worker is about to send meets `G`. -/
theorem State.Keeps.sends (hRefl : ∀ db, r db db) (hKeeps : s.Keeps E r J G)
    (hJ : J s.calls.db) {stmt : Stmt} {k : Resp stmt → Batch Stmt Resp Err}
    (hBatch : s.batch = some (.ask stmt k)) : G s.calls.db stmt :=
  (hKeeps _ hBatch _ (hRefl _) hJ).1

variable [DecidableEq Row] {handler : ι → Prog Stmt Resp Err α}
variable {program : Nat → Batch Stmt Resp Err}

/-
  A worker whose batches are sessions keeps to what they guarantee, if the transactions change the
  database as `r` allows.
-/
theorem session_step (hRefl : ∀ db, r db db)
    (hTrans : ∀ db₁ db₂ db₃, r db₁ db₂ → r db₂ db₃ → r db₁ db₃)
    (hCalls : ∀ a calls, E.step handler s.calls a = some calls → r s.calls.db calls.db)
    (hBegin : ∀ lastSeq, Session E r J G (program lastSeq) s.calls.db)
    (hJ : J s.calls.db) (hKeeps : s.Keeps E r J G) {a : Action ι}
    (hStep : step E handler program s a = some s') : s'.Keeps E r J G := by
  intro p hBatch
  cases step_spec hStep with
  | called hCall =>
    exact (hKeeps p hBatch).stable hTrans (hCalls _ _ hCall)
  | polled hNone =>
    cases hBatch
    exact hBegin s.lastSeq
  | sent hAction hOld hFree hSent =>
    have hSession := hKeeps _ hOld s.calls.db (hRefl _) hJ
    cases hSent with
    | done hExec hRest =>
      have hBatch : _ = some p := hBatch
      rcases hRest with rfl | rfl
      · cases hBatch
        exact hSession.2 _ _ hExec
      · cases hBatch
    | failed => cases hBatch
  | ended hOld => cases hBatch
  | dropped _ lastSeq hWhy => cases hBatch

end Worker
