import Fincore.Lib.Journal

/-
  Interleaved calls some of which must not run together, and the inputs of those that have
  committed.

  Key definitions include:
    * `Engine.Config.startsApart` and `Engine.Config.Apart`
    * `Engine.Config.marks`

  Main results:
    * `Engine.apart_step`
    * `Engine.Config.marks_quiet`
    * `Engine.Config.marks_commit`
-/

----
-- Calls That Run Apart
----

namespace Engine

variable {Db ι Stmt Write Row Err α : Type} {Resp : Stmt → Type}

/- The call is still running and clashes with the input. -/
def Call.clashes (clash : ι → ι → Bool) (c : ι) (call : Call ι Stmt Resp Write Err α) : Bool :=
  match call.state with
  | .running _ => clash c call.input
  | .returned _ => false

/- A call starts only when none it clashes with is running. -/
def Config.startsApart (clash : ι → ι → Bool)
    (cfg : Config Db ι Stmt Resp Write Err α) : Action ι → Bool
| .start c => !cfg.calls.any (Call.clashes clash c)
| _ => true

/- No two calls that clash are running. -/
def Config.Apart (clash : ι → ι → Bool) (cfg : Config Db ι Stmt Resp Write Err α) : Prop :=
  ∀ i j c c' t t', i ≠ j → cfg.Running i c t → cfg.Running j c' t' → clash c c' = false

variable {clash : ι → ι → Bool} {E : Engine Db Stmt Resp Write Row Err}
variable {cfg cfg' : Config Db ι Stmt Resp Write Err α}

theorem apart_start (clash : ι → ι → Bool) (db : Db) : Config.Apart clash
    (⟨db, [], []⟩ : Config Db ι Stmt Resp Write Err α) := by
  intro i j c c' t t' _ hi
  cases hi

theorem Config.startsApart_iff {c : ι} :
    cfg.startsApart clash (.start c) = true ↔ ∀ j c' t, cfg.Running j c' t →
    clash c c' = false := by
  unfold Config.startsApart
  rw [Bool.not_eq_true', List.any_eq_false]
  constructor
  · intro hAll j c' t hCall
    have hNot := hAll _ (List.mem_of_getElem? hCall)
    simpa [Call.clashes] using hNot
  · intro hAll call hMem
    rcases call with ⟨c', state⟩
    rcases List.getElem?_of_mem hMem with ⟨j, hAt⟩
    cases state with
    | running t => simp [Call.clashes, hAll j c' t hAt]
    | returned r => simp [Call.clashes]

section

variable [DecidableEq Row] {handler : ι → Prog Stmt Resp Err α} {a : Action ι}

theorem running_before (hStep : E.step handler cfg a = some cfg') {j : Nat}
    {c : ι} {t : Txn Stmt Resp Write Err α} (hj : cfg'.Running j c t) :
    (∃ t₀, cfg.Running j c t₀) ∨ (a = .start c ∧ j = cfg.calls.length) := by
  cases step_spec hStep with
  | started input =>
    rcases running_started hj with hOld | ⟨hNew, hFresh⟩
    · exact Or.inl ⟨t, hOld⟩
    · cases hFresh
      exact Or.inr ⟨rfl, hNew⟩
  | answered hCall hProg hFree hExec =>
    rcases running_advance hj with ⟨rfl, rfl, rfl⟩ | ⟨_, hOld⟩
    · exact Or.inl ⟨_, hCall⟩
    · exact Or.inl ⟨t, hOld⟩
  | refused hCall hProg hExec =>
    exact Or.inl ⟨t, (running_settle hj).2⟩
  | committed hCall hProg =>
    exact Or.inl ⟨t, (running_commit hj).2⟩
  | rejected hCall hProg =>
    exact Or.inl ⟨t, (running_settle hj).2⟩
  | unacked hCall hProg =>
    exact Or.inl ⟨t, (running_commit hj).2⟩
  | broke hCall =>
    exact Or.inl ⟨t, (running_settle hj).2⟩

theorem apart_step (hSymm : ∀ c c', clash c c' = clash c' c)
    (hApart : cfg.Apart clash) (hStarts : cfg.startsApart clash a = true)
    (hStep : E.step handler cfg a = some cfg') : cfg'.Apart clash := by
  intro i j c c' t t' hNe hi hj
  rcases running_before hStep hi with ⟨t₀, hi⟩ | ⟨rfl, hNew⟩
  · rcases running_before hStep hj with ⟨t₀', hj⟩ | ⟨rfl, hNew'⟩
    · exact hApart i j c c' t₀ t₀' hNe hi hj
    · rw [hSymm]
      exact Config.startsApart_iff.mp hStarts i c t₀ hi
  · rcases running_before hStep hj with ⟨t₀', hj⟩ | ⟨_, hNew'⟩
    · exact Config.startsApart_iff.mp hStarts j c' t₀' hj
    · exact absurd (hNew.trans hNew'.symm) hNe

end

----
-- Inputs Of What Is Committed
----

variable {β : Type}

/- What `f` says of the calls behind the journal's entries. -/
def Config.marks (cfg : Config Db ι Stmt Resp Write Err α) (f : ι → Option β) : List β :=
  cfg.journal.filterMap (fun e =>
    (e.1.bind cfg.input?).bind f)

variable {E : Engine Db Stmt Resp Write Row Err} {cfg cfg' : Config Db ι Stmt Resp Write Err α}

/- The calls behind old entries are known already. -/
theorem marks_of_input (hSourced : cfg.Sourced)
    (hInput : ∀ i c, cfg.input? i = some c → cfg'.input? i = some c)
    (f : ι → Option β) : cfg.journal.filterMap (fun e =>
      (e.1.bind cfg'.input?).bind f) = cfg.marks f := by
  unfold Config.marks
  apply List.filterMap_congr
  intro e hMem
  cases hOrigin : e.1 with
  | none => rfl
  | some i =>
    rcases hSourced e hMem i hOrigin with ⟨c, hc⟩
    simp [hc, hInput i c hc]

theorem Config.marks_quiet (hSourced : cfg.Sourced) (hQuiet : cfg.Quiet E cfg')
    (f : ι → Option β) : cfg'.marks f = cfg.marks f := by
  rw [← marks_of_input hSourced hQuiet.input f, ← hQuiet.journal]
  rfl

/- A commit adds what is said of its call, for each write. -/
theorem Config.marks_commit (hSourced : cfg.Sourced) {i : Nat} {input : ι}
    {r : Except Err α} {t : Txn Stmt Resp Write Err α}
    (hCall : cfg.Running i input t) (ws : List Write) (f : ι → Option β) :
    (cfg.commit E i input ws r).marks f = cfg.marks f ++ ws.filterMap (fun _ => f input) := by
  have hInput := input?_commit (E := E) (r := r) hCall ws
  have hOld := marks_of_input hSourced (fun j c hj => (hInput j).trans hj) f
  have hNew :
      (ws.map (fun w => (some i, w))).filterMap (fun e =>
          (e.1.bind (cfg.commit E i input ws r).input?).bind f) =
        ws.filterMap (fun _ => f input) := by
    rw [List.filterMap_map]
    apply List.filterMap_congr
    intro w _
    show ((cfg.commit E i input ws r).input? i).bind f = _
    rw [hInput, hCall.input?_eq]
    rfl
  have hJournal : (cfg.commit E i input ws r).journal =
        cfg.journal ++ ws.map (fun w => (some i, w)) := rfl
  unfold Config.marks
  rw [hJournal, List.filterMap_append, hNew, hOld]
  rfl

end Engine
