import Fincore.Lib.Journal

/-
  Keys that interleaved calls check and then use up.

  A call reads whether a key is spent, and goes on only if it is not; its commit uses the key up.
  Nothing holds the key in between, so two calls that both check before either commits both use it.
  What remains true is said here: as long as no call checks a key while another one has checked it
  and is not done, every key is used at most once.

  Key definitions include:
    * `Engine.Stages`
    * `Engine.Once`
    * `Engine.Once.Apart`
    * `Engine.Once.Taken`

  Main results:
    * `Engine.Stages.staged_step`
    * `Engine.Once.holding_step`
    * `Engine.Once.onceInv_step`
-/

----
-- Calls In Progress
----

namespace Engine

variable {Db ι Stmt Write Row Err α : Type} {Resp : Stmt → Type}

/-
  What is known of a call in progress, given the committed database, its input, what is left of its
  program and what it has written. It is kept by the call's own statements and by the commits of
  other calls.
-/
structure Stages (E : Engine Db Stmt Resp Write Row Err) (handler : ι → Prog Stmt Resp Err α) where
  stage : Db → ι → Prog Stmt Resp Err α → List Write → Prop
  start : ∀ db c, stage db c (handler c) []
  answer : ∀ db c s k ws began r ws', stage db c (.ask s k) ws →
        E.exec began s (E.view db ws) = .ok (r, ws') → stage db c (k r) (ws ++ ws')
  tick : ∀ db c p ws s, stage db c p ws → stage (E.tick s db) c p ws
  commit : ∀ db c p ws c' a ws', stage db c p ws → stage db c' (.ret a) ws' →
        stage (E.view db ws') c p ws

namespace Stages

variable {E : Engine Db Stmt Resp Write Row Err} {handler : ι → Prog Stmt Resp Err α}
variable {cfg cfg' : Config Db ι Stmt Resp Write Err α}

/- Every running call is at one of its stages. -/
def Staged (S : Stages E handler) (cfg : Config Db ι Stmt Resp Write Err α) : Prop :=
  ∀ i c t, cfg.Running i c t → S.stage cfg.db c t.prog t.writes

/- With nobody calling there is nothing to know. -/
theorem staged_start (S : Stages E handler) (db : Db) : S.Staged ⟨db, [], []⟩ := by
  intro i c t hCall
  cases hCall

variable [DecidableEq Row]

theorem staged_step (S : Stages E handler) {a : Action ι}
    (hStaged : S.Staged cfg) (hStep : E.step handler cfg a = some cfg') : S.Staged cfg' := by
  intro j c t' hj
  cases step_spec hStep with
  | started input =>
    rcases running_started hj with hOld | ⟨_, hFresh⟩
    · exact hStaged j c t' hOld
    · cases hFresh
      exact S.start cfg.db c
  | answered hCall hProg hFree hExec =>
    rcases running_advance hj with ⟨rfl, rfl, rfl⟩ | ⟨_, hOld⟩
    · have hStage := hStaged _ _ _ hCall
      rw [hProg] at hStage
      exact S.tick _ _ _ _ _ (S.answer _ _ _ _ _ _ _ _ hStage hExec)
    · exact S.tick _ _ _ _ _ (hStaged j c t' hOld)
  | refused hCall hProg hExec =>
    exact S.tick _ _ _ _ _ (hStaged j c t' (running_settle hj).2)
  | committed hCall hProg =>
    have hStage := hStaged _ _ _ hCall
    rw [hProg] at hStage
    exact S.commit _ _ _ _ _ _ _ (hStaged j c t' (running_commit hj).2) hStage
  | rejected hCall hProg =>
    exact hStaged j c t' (running_settle hj).2
  | unacked hCall hProg =>
    have hStage := hStaged _ _ _ hCall
    rw [hProg] at hStage
    exact S.commit _ _ _ _ _ _ _ (hStaged j c t' (running_commit hj).2) hStage
  | broke hCall =>
    exact hStaged j c t' (running_settle hj).2

end Stages

----
-- Checked Keys
----

variable {Key : Type}

/-
  Calls that check a key and then use it up. `checks` is the key that a statement looks at, `holds`
  the key that a call has found unspent and may still use, and `takes` the key that a write of a
  call uses up.
-/
structure Once (E : Engine Db Stmt Resp Write Row Err) (handler : ι → Prog Stmt Resp Err α)
    (Key : Type) extends Stages E handler where
  spent : Db → Key → Prop
  checks : Stmt → Option Key
  holds : ι → Prog Stmt Resp Err α → Option Key
  takes : ι → Write → Option Key
  fresh : ∀ c, holds c (handler c) = none
  check : ∀ db c s k ws began r ws' key, stage db c (.ask s k) ws →
        E.exec began s (E.view db ws) = .ok (r, ws') →
          holds c (k r) = some key → holds c (.ask s k) = some key ∨
              checks s = some key ∧ ¬ spent db key
  act : ∀ db c a ws w key, stage db c (.ret a) ws → w ∈ ws →
        takes c w = some key → holds c (.ret a) = some key ∧ spent (E.view db ws) key
  spent_tick : ∀ db s key, spent db key → spent (E.tick s db) key
  spent_commit : ∀ db c a ws key, stage db c (.ret a) ws → spent db key → spent (E.view db ws) key

namespace Once

variable {E : Engine Db Stmt Resp Write Row Err} {handler : ι → Prog Stmt Resp Err α}
variable {cfg cfg' : Config Db ι Stmt Resp Write Err α}

/- The key that a call is about to check. -/
def checking (P : Once E handler Key) (cfg : Config Db ι Stmt Resp Write Err α)
    (i : Nat) : Option Key :=
  cfg.seen (fun _ p =>
    match p with
    | .ask s _ => P.checks s
    | _ => none) i

/- The key that a call has checked and may still use. -/
def holding (P : Once E handler Key) (cfg : Config Db ι Stmt Resp Write Err α)
    (i : Nat) : Option Key := cfg.seen P.holds i

/- No call checks a key while another one has checked it and is not done. -/
def Apart (P : Once E handler Key) (cfg : Config Db ι Stmt Resp Write Err α) : Action ι → Prop
| .exec i =>
  ∀ j, j < cfg.calls.length → P.checking cfg i = none ∨ P.holding cfg j ≠ P.checking cfg i
| _ => True

instance [DecidableEq Key] (P : Once E handler Key)
    (cfg : Config Db ι Stmt Resp Write Err α) (a : Action ι) : Decidable (P.Apart cfg a) :=
  match a with
  | .start _ => .isTrue trivial
  | .exec i =>
    have : Decidable (P.checking cfg i = none) := decidable_of_iff _ Option.isNone_iff_eq_none
    inferInstanceAs (Decidable (∀ j, j < _ → _ ∨ _))
  | .finish _ => .isTrue trivial
  | .unacked _ => .isTrue trivial
  | .broke _ => .isTrue trivial

/- Call `i` has committed a use of the key. -/
def Taken (P : Once E handler Key) (cfg : Config Db ι Stmt Resp Write Err α)
    (i : Nat) (key : Key) : Prop :=
  ∃ c w, cfg.input? i = some c ∧ (some i, w) ∈ cfg.journal ∧ P.takes c w = some key

theorem checking_running {P : Once E handler Key} {i : Nat} {c : ι}
    {t : Txn Stmt Resp Write Err α} {s : Stmt}
    {k : Resp s → Prog Stmt Resp Err α} (hCall : cfg.Running i c t)
    (hProg : t.prog = .ask s k) : P.checking cfg i = P.checks s := by
  unfold checking
  rw [seen_running hCall, hProg]

variable [DecidableEq Row]

/-
  A key held after a step was held before it, or was found unspent by the statement that was
  answered.
-/
theorem holding_step (P : Once E handler Key) {a : Action ι}
    (hStaged : P.Staged cfg) (hStep : E.step handler cfg a = some cfg')
    {j : Nat} {key : Key} (hHolds : P.holding cfg' j = some key) : P.holding cfg j = some key ∨
    (a = .exec j ∧ P.checking cfg j = some key ∧ ¬ P.spent cfg.db key) := by
  rcases seen_step hStep hHolds with hOld | ⟨c, hFresh⟩ |
      ⟨hExec, c, t, s, k, r, ws, hCall, hProg, hAnswer, hKey⟩
  · exact Or.inl hOld
  · rw [P.fresh c] at hFresh
    cases hFresh
  · have hStage := hStaged j c t hCall
    rw [hProg] at hStage
    rcases P.check _ _ _ _ _ _ _ _ key hStage hAnswer hKey with hHeld | ⟨hChecks, hUnspent⟩
    · left
      unfold holding
      rw [seen_running hCall, hProg]
      exact hHeld
    · right
      rw [checking_running hCall hProg]
      exact ⟨hExec, hChecks, hUnspent⟩

----
-- At Most One Use
----

variable {Db ι Stmt Write Row Err α Key : Type} {Resp : Stmt → Type}
variable {E : Engine Db Stmt Resp Write Row Err} {handler : ι → Prog Stmt Resp Err α}
variable {cfg cfg' : Config Db ι Stmt Resp Write Err α}

/- What holds along runs whose calls check apart. -/
structure OnceInv (P : Once E handler Key) (cfg : Config Db ι Stmt Resp Write Err α) : Prop where
  staged : P.Staged cfg
  sourced : cfg.Sourced
  apart : ∀ i j key, P.holding cfg i = some key → P.holding cfg j = some key → i = j
  unused : ∀ i j key, P.holding cfg i = some key → ¬ P.Taken cfg j key
  spent : ∀ i key, P.Taken cfg i key → P.spent cfg.db key
  once : ∀ i j key, P.Taken cfg i key → P.Taken cfg j key → i = j

theorem onceInv_start (P : Once E handler Key) (db : Db) : P.OnceInv ⟨db, [], []⟩ where
  staged := P.staged_start db
  sourced := by
    intro e hMem
    cases hMem
  apart := by
    intro i j key hHolds
    rcases seen_eq_some.mp hHolds with ⟨c, t, hCall, _⟩
    cases hCall
  unused := by
    intro i j key _ hTaken
    rcases hTaken with ⟨c, w, _, hMem, _⟩
    cases hMem
  spent := by
    intro i key hTaken
    rcases hTaken with ⟨c, w, _, hMem, _⟩
    cases hMem
  once := by
    intro i j key hTaken
    rcases hTaken with ⟨c, w, _, hMem, _⟩
    cases hMem

variable {P : Once E handler Key}

variable {key : Key}

/- A quiet step commits no use. -/
theorem taken_quiet {i : Nat} (hSourced : cfg.Sourced) (hQuiet : cfg.Quiet E cfg')
    (hTaken : P.Taken cfg' i key) : P.Taken cfg i key := by
  rcases hTaken with ⟨c, w, hInput, hMem, hTakes⟩
  rw [hQuiet.journal] at hMem
  rcases hSourced _ hMem i rfl with ⟨c', hInput'⟩
  rw [hQuiet.input i c' hInput'] at hInput
  cases hInput
  exact ⟨c, w, hInput', hMem, hTakes⟩

variable {t : Txn Stmt Resp Write Err α} {r : Except Err α}

theorem taken_commit {i j : Nat} {c : ι} (hCall : cfg.Running i c t)
    (hTaken : P.Taken (cfg.commit E i c t.writes r) j key) : P.Taken cfg j key ∨
    j = i ∧ ∃ w ∈ t.writes, P.takes c w = some key := by
  rcases hTaken with ⟨c', w, hInput, hMem, hTakes⟩
  rw [input?_commit hCall] at hInput
  rcases List.mem_append.mp hMem with hOld | hNew
  · exact Or.inl ⟨c', w, hInput, hOld, hTakes⟩
  · right
    rcases List.mem_map.mp hNew with ⟨w', hWrite, hEq⟩
    cases hEq
    rw [hCall.input?_eq] at hInput
    cases hInput
    exact ⟨rfl, w, hWrite, hTakes⟩

theorem onceInv_commit {i : Nat} {c : ι} {b : α}
    (hInv : P.OnceInv cfg) (hCall : cfg.Running i c t) (hProg : t.prog = .ret b)
    (hStaged : P.Staged (cfg.commit E i c t.writes r)) :
    P.OnceInv (cfg.commit E i c t.writes r) := by
  have hStage := hInv.staged i c t hCall
  rw [hProg] at hStage
  -- a use that is committed now is one of a held key
  have hUse : ∀ w ∈ t.writes, ∀ key, P.takes c w = some key →
      P.holding cfg i = some key ∧ P.spent (E.view cfg.db t.writes) key := by
    intro w hWrite key hTakes
    have hSeen : P.holding cfg i = P.holds c t.prog := seen_running hCall
    rw [hSeen, hProg]
    exact P.act _ _ _ _ _ _ hStage hWrite hTakes
  refine ⟨hStaged, hInv.sourced.commit hCall _, ?_, ?_, ?_, ?_⟩
  · intro j j' key hj hj'
    exact hInv.apart j j' key (seen_commit hj).2 (seen_commit hj').2
  · intro j j' key hHolds hTaken
    rcases seen_commit hHolds with ⟨hNe, hHeld⟩
    rcases taken_commit hCall hTaken with hOld | ⟨_, w, hWrite, hTakes⟩
    · exact hInv.unused j j' key hHeld hOld
    · exact hNe (hInv.apart j i key hHeld (hUse w hWrite key hTakes).1)
  · intro j key hTaken
    rcases taken_commit hCall hTaken with hOld | ⟨_, w, hWrite, hTakes⟩
    · exact P.spent_commit _ _ _ _ _ hStage (hInv.spent j key hOld)
    · exact (hUse w hWrite key hTakes).2
  · intro j j' key hj hj'
    rcases taken_commit hCall hj with hOld | ⟨rfl, w, hWrite, hTakes⟩
    · rcases taken_commit hCall hj' with hOld' | ⟨rfl, w', hWrite', hTakes'⟩
      · exact hInv.once j j' key hOld hOld'
      · exact absurd hOld (hInv.unused j' j key (hUse w' hWrite' key hTakes').1)
    · rcases taken_commit hCall hj' with hOld' | ⟨rfl, _, _, _⟩
      · exact absurd hOld' (hInv.unused j j' key (hUse w hWrite key hTakes).1)
      · rfl

variable [DecidableEq Row]

variable {a : Action ι}

/- Two calls hold one key only if they checked together. -/
theorem apart_step (hInv : P.OnceInv cfg) (hApart : P.Apart cfg a)
    (hStep : E.step handler cfg a = some cfg') {i j : Nat}
    (hi : P.holding cfg' i = some key) (hj : P.holding cfg' j = some key) : i = j := by
  have hAlone : ∀ i j, a = .exec i → P.checking cfg i = some key → P.holding cfg j ≠ some key := by
    intro i j hExec hChecks hHolds
    subst hExec
    rcases seen_eq_some.mp hHolds with ⟨c, t, hCall, _⟩
    rcases hApart j hCall.lt_length with hNone | hOther
    · rw [hNone] at hChecks
      cases hChecks
    · rw [hHolds, hChecks] at hOther
      exact hOther rfl
  rcases P.holding_step hInv.staged hStep hi with hi | ⟨hExecI, hChecksI, _⟩
  · rcases P.holding_step hInv.staged hStep hj with hj | ⟨hExecJ, hChecksJ, _⟩
    · exact hInv.apart i j key hi hj
    · exact absurd hi (hAlone j i hExecJ hChecksJ)
  · rcases P.holding_step hInv.staged hStep hj with hj | ⟨hExecJ, _, _⟩
    · exact absurd hj (hAlone i j hExecI hChecksI)
    · rw [hExecI] at hExecJ
      cases hExecJ
      rfl

theorem onceInv_quiet (hInv : P.OnceInv cfg) (hApart : P.Apart cfg a)
    (hStep : E.step handler cfg a = some cfg') (hQuiet : cfg.Quiet E cfg') : P.OnceInv cfg' where
  staged := P.staged_step hInv.staged hStep
  sourced := hInv.sourced.quiet hQuiet
  apart := by
    intro i j key hi hj
    exact apart_step hInv hApart hStep hi hj
  unused := by
    intro i j key hHolds hTaken
    have hOld := taken_quiet hInv.sourced hQuiet hTaken
    rcases P.holding_step hInv.staged hStep hHolds with hHeld | ⟨_, _, hUnspent⟩
    · exact hInv.unused i j key hHeld hOld
    · exact hUnspent (hInv.spent j key hOld)
  spent := by
    intro i key hTaken
    have hSpent := hInv.spent i key (taken_quiet hInv.sourced hQuiet hTaken)
    rcases hQuiet.db with hSame | ⟨s, hTicked⟩
    · rw [hSame]
      exact hSpent
    · rw [hTicked]
      exact P.spent_tick _ _ _ hSpent
  once := by
    intro i j key hi hj
    exact hInv.once i j key (taken_quiet hInv.sourced hQuiet hi)
      (taken_quiet hInv.sourced hQuiet hj)

/- Calls that check apart use every key at most once. -/
theorem onceInv_step (hInv : P.OnceInv cfg) (hApart : P.Apart cfg a)
    (hStep : E.step handler cfg a = some cfg') : P.OnceInv cfg' := by
  rcases step_quiet_or_commit hStep with hQuiet | ⟨i, c, t, b, r, hCall, hProg, _, _, hCommit⟩
  · exact onceInv_quiet hInv hApart hStep hQuiet
  · have hStaged := P.staged_step hInv.staged hStep
    rw [hCommit] at hStaged ⊢
    exact onceInv_commit hInv hCall hProg hStaged

end Once

end Engine
