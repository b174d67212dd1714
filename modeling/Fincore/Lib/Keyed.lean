import Fincore.Lib.Journal

/-
  Interleaved calls that carry a key.

  A store that does not look at the key relies on its callers: a call is made with a key only when
  every call made with it before is void, that is over without having committed. Then no two calls
  of one key ever commit.

  Key definitions include:
    * `Engine.Config.void`
    * `Engine.Config.clear` and `Engine.Config.admits`
    * `Engine.Keyed`
    * `Engine.KeyedOnce`

  Main results:
    * `Engine.keyed_step`
    * `Engine.Keyed.first`
    * `Engine.keyedOnce_step`
-/

----
-- Void Calls
----

namespace Engine

variable {Db ι κ Stmt Write Row Err α : Type} {Resp : Stmt → Type}

/- Something of call `i` has been committed. -/
def Config.journaled (cfg : Config Db ι Stmt Resp Write Err α)
    (i : Nat) : Bool := cfg.journal.any (fun e => e.1 == some i)

/- Call `i` has failed, and nothing of it was committed. -/
def Config.void (cfg : Config Db ι Stmt Resp Write Err α) (i : Nat) : Bool :=
  match cfg.calls[i]? with
  | some ⟨_, .returned (.error _)⟩ => !cfg.journaled i
  | _ => false

/- Every call made with the key so far is void. -/
def Config.clear [DecidableEq κ] (key : ι → Option κ)
    (cfg : Config Db ι Stmt Resp Write Err α) (k : κ) : Bool :=
  (List.range cfg.calls.length).all (fun i =>
    decide ((cfg.input? i).bind key ≠ some k) || cfg.void i)

/- A call is made with a key only when the key is clear. -/
def Config.admits [DecidableEq κ] (key : ι → Option κ)
    (cfg : Config Db ι Stmt Resp Write Err α) : Action ι → Bool
| .start c => (key c).all (cfg.clear key)
| _ => true

/- What call `i` has answered, once it has. -/
def Config.answer? (cfg : Config Db ι Stmt Resp Write Err α) (i : Nat) : Option (Except Err α) :=
  match cfg.calls[i]? with
  | some ⟨_, .returned r⟩ => some r
  | _ => none

variable {cfg : Config Db ι Stmt Resp Write Err α}

variable {i : Nat} {r : Except Err α} {c : ι}

theorem Config.returned_of_answer?
    (hInput : cfg.input? i = some c) (hAnswer : cfg.answer? i = some r) : cfg.Returned i c r := by
  unfold Config.input? at hInput
  unfold Config.answer? at hAnswer
  unfold Config.Returned
  split at hAnswer
  · rename_i c' r' hCall
    rw [hCall] at hInput ⊢
    cases hInput
    cases hAnswer
    rfl
  · cases hAnswer

theorem Config.journaled_iff : cfg.journaled i = true ↔ ∃ e ∈ cfg.journal, e.1 = some i := by
  simp [Config.journaled]

theorem Config.void_iff : cfg.void i = true ↔
    (∃ c e, cfg.Returned i c (.error e)) ∧ cfg.journaled i = false := by
  unfold Config.void Config.Returned
  cases cfg.calls[i]? with
  | none => simp
  | some call =>
    rcases call with ⟨c, state⟩
    cases state with
    | running t => simp
    | returned r => cases r <;> simp

theorem Config.clear_iff [DecidableEq κ] {key : ι → Option κ} {k : κ} :
    cfg.clear key k = true ↔ ∀ i c, cfg.input? i = some c → key c = some k → cfg.void i = true := by
  unfold Config.clear
  rw [List.all_eq_true]
  constructor
  · intro hAll i c hInput hKey
    have hLt : i < cfg.calls.length := by
      unfold Config.input? at hInput
      cases hCall : cfg.calls[i]? with
      | none => simp [hCall] at hInput
      | some call =>
        exact (List.getElem?_eq_some_iff.mp hCall).1
    simpa [hInput, hKey] using hAll i (List.mem_range.mpr hLt)
  · intro hAll i _
    cases hInput : cfg.input? i with
    | none => simp
    | some c =>
      by_cases hKey : key c = some k
      · simp [hAll i c hInput hKey]
      · simp [hKey]

theorem Config.Running.not_void
    {t : Txn Stmt Resp Write Err α} (hCall : cfg.Running i c t) : cfg.void i = false := by
  rw [Bool.eq_false_iff, ne_eq, Config.void_iff]
  rintro ⟨⟨c', e, hReturned⟩, _⟩
  exact hCall.not_returned hReturned

theorem Config.Returned.not_void {b : α}
    (hCall : cfg.Returned i c (.ok b)) : cfg.void i = false := by
  unfold Config.Returned at hCall
  unfold Config.void
  rw [hCall]

theorem Config.void_of_journaled (hJournaled : cfg.journaled i = true) : cfg.void i = false := by
  rw [Bool.eq_false_iff, ne_eq, Config.void_iff, hJournaled]
  simp

----
-- What A Step Leaves Of A Call
----

variable {E : Engine Db Stmt Resp Write Row Err} {cfg' : Config Db ι Stmt Resp Write Err α}

theorem Config.Returned.set {i j : Nat} {c c' : ι}
    {t : Txn Stmt Resp Write Err α} (hReturned : cfg.Returned i c r)
    (hCall : cfg.Running j c' t) (call : Call ι Stmt Resp Write Err α) :
    (cfg.calls.set j call)[i]? = some ⟨c, .returned r⟩ := by
  have hNe : j ≠ i := by
    rintro rfl
    exact hCall.not_returned hReturned
  rw [List.getElem?_set_ne hNe]
  exact hReturned

theorem journaled_commit {i j : Nat} {ws : List Write}
    (hJournaled : (cfg.commit E i c ws r).journaled j = true) : j = i ∨ cfg.journaled j = true := by
  rcases Config.journaled_iff.mp hJournaled with ⟨e, hMem, hOrigin⟩
  rcases List.mem_append.mp hMem with hOld | hNew
  · exact Or.inr (Config.journaled_iff.mpr ⟨e, hOld, hOrigin⟩)
  · rcases List.mem_map.mp hNew with ⟨w, _, rfl⟩
    cases hOrigin
    exact Or.inl rfl

theorem journaled_quiet (hQuiet : cfg.Quiet E cfg') (i : Nat) :
    cfg'.journaled i = cfg.journaled i := by
  unfold Config.journaled
  rw [hQuiet.journal]

variable [DecidableEq Row] {handler : ι → Prog Stmt Resp Err α} {a : Action ι}

/- What a call has answered stands. -/
theorem Config.Returned.step (hReturned : cfg.Returned i c r)
    (hStep : E.step handler cfg a = some cfg') : cfg'.Returned i c r := by
  cases step_spec hStep with
  | started input =>
    have hLt := (List.getElem?_eq_some_iff.mp hReturned).1
    exact (List.getElem?_append_left hLt).trans hReturned
  | answered hCall hProg hFree hExec =>
    exact hReturned.set hCall _
  | refused hCall hProg hExec =>
    exact hReturned.set hCall _
  | committed hCall hProg => exact hReturned.set hCall _
  | rejected hCall hProg => exact hReturned.set hCall _
  | unacked hCall hProg => exact hReturned.set hCall _
  | broke hCall => exact hReturned.set hCall _

theorem input?_step (hStep : E.step handler cfg a = some cfg')
    (hInput : cfg'.input? i = some c) : cfg.input? i = some c ∨
    (a = .start c ∧ i = cfg.calls.length) := by
  have hKept : ∀ {j : Nat} {input : ι} {t : Txn Stmt Resp Write Err α}
        {state : CallState Stmt Resp Write Err α}, cfg.Running j input t →
          (cfg.calls.set j ⟨input, state⟩)[i]?.map Call.input = some c → cfg.input? i = some c := by
    intro j input t state hCall hSet
    rw [← hSet]
    exact (input?_set hCall.input?_eq i).symm
  cases step_spec hStep with
  | started input =>
    unfold Config.input? at hInput ⊢
    rcases Nat.lt_trichotomy i cfg.calls.length with hOld | hNew | hBeyond
    · left
      rwa [List.getElem?_append_left hOld] at hInput
    · right
      subst hNew
      simp at hInput
      exact ⟨by rw [hInput], rfl⟩
    · rw [List.getElem?_eq_none (by simp; omega)] at hInput
      cases hInput
  | answered hCall hProg hFree hExec =>
    exact Or.inl (hKept hCall hInput)
  | refused hCall hProg hExec =>
    exact Or.inl (hKept hCall hInput)
  | committed hCall hProg => exact Or.inl (hKept hCall hInput)
  | rejected hCall hProg => exact Or.inl (hKept hCall hInput)
  | unacked hCall hProg => exact Or.inl (hKept hCall hInput)
  | broke hCall => exact Or.inl (hKept hCall hInput)

/- And keeps it. -/
theorem input?_mono (hStep : E.step handler cfg a = some cfg')
    (hInput : cfg.input? i = some c) : cfg'.input? i = some c := by
  rcases step_quiet_or_commit hStep with hQuiet | ⟨j, c', t, b, r, hCall, _, _, _, rfl⟩
  · exact hQuiet.input i c hInput
  · rw [input?_commit hCall]
    exact hInput

theorem void_step (hStep : E.step handler cfg a = some cfg')
    (hVoid : cfg.void i = true) : cfg'.void i = true := by
  rcases Config.void_iff.mp hVoid with ⟨⟨c, e, hReturned⟩, hJournaled⟩
  refine Config.void_iff.mpr ⟨⟨c, e, hReturned.step hStep⟩, ?_⟩
  rcases step_quiet_or_commit hStep with hQuiet | ⟨j, input, t, b, r, hCall, _, _, _, rfl⟩
  · rw [journaled_quiet hQuiet, hJournaled]
  · rw [Bool.eq_false_iff]
    intro hNew
    rcases journaled_commit hNew with rfl | hOld
    · exact hCall.not_returned hReturned
    · rw [hJournaled] at hOld
      cases hOld

----
-- One Call For Each Key
----

variable {Db ι κ Stmt Write Row Err α : Type} {Resp : Stmt → Type}

/- Of the calls that carry one key all but one are void. -/
structure Keyed (key : ι → Option κ) (cfg : Config Db ι Stmt Resp Write Err α) : Prop where
  sourced : cfg.Sourced
  pending : ∀ i c t, cfg.Running i c t → cfg.journaled i = false
  single : ∀ i j c c' k, cfg.input? i = some c → cfg.input? j = some c' →
        key c = some k → key c' = some k → cfg.void i = false → cfg.void j = false → i = j

variable {E : Engine Db Stmt Resp Write Row Err} {cfg cfg' : Config Db ι Stmt Resp Write Err α}
variable {key : ι → Option κ}

theorem keyed_start (key : ι → Option κ) (db : Db) : Keyed key
    (⟨db, [], []⟩ : Config Db ι Stmt Resp Write Err α) := by
  refine ⟨?_, ?_, ?_⟩
  · intro e hMem
    cases hMem
  · intro i c t hCall
    cases hCall
  · intro i j c c' k hInput
    cases hInput

variable {t : Txn Stmt Resp Write Err α}

/- Nothing was committed with the key of a running call. -/
theorem Keyed.first (hKeyed : Keyed key cfg) {i j : Nat} {c c' : ι} {k : κ} {e : Option Nat × Write}
    (hCall : cfg.Running i c t) (hKey : key c = some k) (hMem : e ∈ cfg.journal)
    (hOrigin : e.1 = some j) (hInput : cfg.input? j = some c') : key c' ≠ some k := by
  intro hKey'
  have hJournaled : cfg.journaled j = true := Config.journaled_iff.mpr ⟨e, hMem, hOrigin⟩
  have hSame :=
    hKeyed.single i j c c' k hCall.input?_eq hInput hKey hKey'
      hCall.not_void (Config.void_of_journaled hJournaled)
  subst hSame
  rw [hKeyed.pending i c t hCall] at hJournaled
  cases hJournaled

section

variable [DecidableEq κ] [DecidableEq Row] {handler : ι → Prog Stmt Resp Err α} {a : Action ι}

theorem keyed_step (hKeyed : Keyed key cfg) (hAdmits : cfg.admits key a = true)
    (hStep : E.step handler cfg a = some cfg') : Keyed key cfg' := by
  -- a call that is not void was not void before
  have hVoid : ∀ i, cfg'.void i = false → cfg.void i = false := by
    intro i hNot
    rw [Bool.eq_false_iff] at hNot ⊢
    exact fun hOld => hNot (void_step hStep hOld)
  -- a new call finds its key clear
  have hClear : ∀ c k j c', a = .start c → key c = some k →
      cfg.input? j = some c' → key c' = some k → cfg'.void j ≠ false := by
    rintro c k j c' rfl hKey hInput hKey' hNot
    have hAll : cfg.clear key k = true := by
      simpa [Config.admits, hKey] using hAdmits
    have hOld := Config.clear_iff.mp hAll j c' hInput hKey'
    rw [hVoid j hNot] at hOld
    cases hOld
  refine ⟨?_, ?_, ?_⟩
  · rcases step_quiet_or_commit hStep with hQuiet | ⟨i, c, t, b, r, hCall, _, _, _, rfl⟩
    · exact hKeyed.sourced.quiet hQuiet
    · exact hKeyed.sourced.commit hCall t.writes
  · intro i c t hCall
    rw [Bool.eq_false_iff]
    intro hJournaled
    have hOld : cfg.journaled i = true := by
      rcases step_quiet_or_commit hStep with hQuiet | ⟨j, c', t', b, r, _, _, _, _, rfl⟩
      · rwa [journaled_quiet hQuiet] at hJournaled
      · rcases journaled_commit hJournaled with rfl | hOld
        · exact absurd rfl (running_commit hCall).1
        · exact hOld
    have hNone : ∀ c' t', cfg.Running i c' t' → False := by
      intro c' t' hBefore
      rw [hKeyed.pending i c' t' hBefore] at hOld
      cases hOld
    rcases Config.journaled_iff.mp hOld with ⟨e, hMem, hOrigin⟩
    rcases hKeyed.sourced e hMem i hOrigin with ⟨c', hInput⟩
    cases step_spec hStep with
    | started input =>
      rcases running_started hCall with hBefore | ⟨rfl, _⟩
      · exact hNone c t hBefore
      · simp [Config.input?] at hInput
    | answered hBefore hProg hFree hExec =>
      rcases running_advance hCall with ⟨rfl, _, _⟩ | ⟨_, hOther⟩
      · exact hNone _ _ hBefore
      · exact hNone c t hOther
    | refused hBefore hProg hExec =>
      exact hNone c t (running_settle hCall).2
    | committed hBefore hProg =>
      exact hNone c t (running_commit hCall).2
    | rejected hBefore hProg =>
      exact hNone c t (running_settle hCall).2
    | unacked hBefore hProg =>
      exact hNone c t (running_commit hCall).2
    | broke hBefore =>
      exact hNone c t (running_settle hCall).2
  · intro i j c c' k hi hj hKey hKey' hNot hNot'
    rcases input?_step hStep hi with hi | ⟨hStart, hNew⟩
    · rcases input?_step hStep hj with hj | ⟨hStart', hNew'⟩
      · exact hKeyed.single i j c c' k hi hj hKey hKey' (hVoid i hNot) (hVoid j hNot')
      · exact absurd hNot (hClear c' k i c hStart' hKey' hi hKey)
    · rcases input?_step hStep hj with hj | ⟨_, hNew'⟩
      · exact absurd hNot' (hClear c k j c' hStart hKey hj hKey')
      · rw [hNew, hNew']

end

----
-- One Commit For Each Key
----

variable [DecidableEq κ]

/- What the calls that carry the key have committed. -/
def Config.committedFor (key : ι → Option κ)
    (cfg : Config Db ι Stmt Resp Write Err α) (k : κ) : List Write :=
  cfg.writesOf (fun c => key c == some k)

/-
  What is committed with a key was committed by one call, whose answer meets `Q` with it, and it is
  what every call of the key that succeeded has committed.
-/
structure KeyedOnce (E : Engine Db Stmt Resp Write Row Err) (key : ι → Option κ)
    (Q : ι → List Write → α → Prop) (cfg : Config Db ι Stmt Resp Write Err α) : Prop where
  keyed : Keyed key cfg
  guarded : E.Guarded (fun _ => Rely.top) (fun c _ ws a => Q c ws a) cfg
  committed : ∀ k, cfg.committedFor key k = [] ∨
      ∃ c a, key c = some k ∧ Q c (cfg.committedFor key k) a
  answered : ∀ i c b k, cfg.Returned i c (.ok b) → key c = some k → Q c (cfg.committedFor key k) b

variable {E : Engine Db Stmt Resp Write Row Err} {cfg cfg' : Config Db ι Stmt Resp Write Err α}
variable {key : ι → Option κ} {Q : ι → List Write → α → Prop}

theorem keyedOnce_start (key : ι → Option κ) (Q : ι → List Write → α → Prop)
    (db : Db) : KeyedOnce E key Q ⟨db, [], []⟩ := by
  refine ⟨keyed_start key db, ?_, ?_, ?_⟩
  · intro i c t hCall
    cases hCall
  · intro k
    exact Or.inl rfl
  · intro i c b k hReturned
    cases hReturned

theorem Keyed.committedFor_nil (hKeyed : Keyed key cfg) {i : Nat} {c : ι} {k : κ}
    (hCall : cfg.Running i c t)
    (hKey : key c = some k) : cfg.committedFor key k = [] := by
  unfold Config.committedFor Config.writesOf
  rw [List.map_eq_nil_iff, List.filter_eq_nil_iff]
  intro e hMem hCarries
  unfold Config.carries at hCarries
  cases hOrigin : e.1 with
  | none => simp [hOrigin] at hCarries
  | some j =>
    rcases hKeyed.sourced e hMem j hOrigin with ⟨c', hInput⟩
    refine hKeyed.first hCall hKey hMem hOrigin hInput ?_
    simpa [hOrigin, hInput] using hCarries

theorem keyedOnce_commit {i : Nat} {c : ι} {b : α} {r : Except Err α} (hInv : KeyedOnce E key Q cfg)
    (hCall : cfg.Running i c t) (hProg : t.prog = .ret b)
    (hAnswer : r = .ok b ∨ r = .error E.broken) :
    (∀ k, (cfg.commit E i c t.writes r).committedFor key k = [] ∨ ∃ c' a, key c' = some k ∧ Q c'
    ((cfg.commit E i c t.writes r).committedFor key k) a) ∧ ∀ j c' b' k,
    (cfg.commit E i c t.writes r).Returned j c' (.ok b') → key c' = some k →
    Q c' ((cfg.commit E i c t.writes r).committedFor key k) b' := by
  have hPost : Q c t.writes b := hInv.guarded.post hCall hProg
  -- a key's commits are the call's own, or as before
  have hOwn : ∀ k, key c = some k → (cfg.commit E i c t.writes r).committedFor key k =
      t.writes := by
    intro k hKey
    have hNil := hInv.keyed.committedFor_nil hCall hKey
    unfold Config.committedFor at hNil ⊢
    rw [Config.writesOf_commit hInv.keyed.sourced hCall, hNil]
    simp [hKey]
  have hOther : ∀ k, key c ≠ some k → (cfg.commit E i c t.writes r).committedFor key k =
      cfg.committedFor key k := by
    intro k hKey
    unfold Config.committedFor
    rw [Config.writesOf_commit hInv.keyed.sourced hCall]
    simp [hKey]
  refine ⟨?_, ?_⟩
  · intro k
    by_cases hKey : key c = some k
    · rw [hOwn k hKey]
      exact Or.inr ⟨c, b, hKey, hPost⟩
    · rw [hOther k hKey]
      exact hInv.committed k
  · intro j c' b' k hReturned hKey'
    rcases returned_commit hReturned with ⟨_, rfl, hEq⟩ | hOld
    · rw [hOwn k hKey']
      rcases hAnswer with rfl | rfl
      · cases hEq
        exact hPost
      · cases hEq
    · by_cases hKey : key c = some k
      · have hSame :=
          hInv.keyed.single i j c c' k hCall.input?_eq
            hOld.input?_eq hKey hKey' hCall.not_void hOld.not_void
        subst hSame
        exact absurd hOld hCall.not_returned
      · rw [hOther k hKey]
        exact hInv.answered j c' b' k hOld hKey'

/- One step, when every handler commits what `Q` says and calls are only made with a clear key. -/
theorem keyedOnce_step [DecidableEq Row] {handler : ι → Prog Stmt Resp Err α} {a : Action ι}
    (hWp : ∀ c began db, E.Wp Rely.top (fun _ ws a => Q c ws a) began
    (handler c) [] db) (hInv : KeyedOnce E key Q cfg) (hAdmits : cfg.admits key a = true)
    (hStep : E.step handler cfg a = some cfg') : KeyedOnce E key Q cfg' := by
  have hKeyed := keyed_step hInv.keyed hAdmits hStep
  have hGuarded := guarded_top_step hWp hInv.guarded hStep
  rcases step_quiet_or_commit hStep with hQuiet | ⟨i, c, t, b, r, hCall, hProg, _, hAnswer, rfl⟩
  · have hSame : ∀ k, cfg'.committedFor key k = cfg.committedFor key k := fun k =>
      Config.writesOf_quiet hInv.keyed.sourced hQuiet _
    refine ⟨hKeyed, hGuarded, ?_, ?_⟩
    · intro k
      rw [hSame k]
      exact hInv.committed k
    · intro i c b k hReturned hKey
      rw [hSame k]
      exact hInv.answered i c b k (hQuiet.answered i c b hReturned) hKey
  · rcases keyedOnce_commit hInv hCall hProg hAnswer with ⟨hCommitted, hAnswered⟩
    exact ⟨hKeyed, hGuarded, hCommitted, hAnswered⟩

end Engine
