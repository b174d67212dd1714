import Fincore.Lib.RelyGuarantee

/-
  What interleaved calls have committed, and whose it is.

  A step of the interleaving either commits one call or changes nothing that is committed. The
  journal keeps the committed writes with the calls they came from.

  Key definitions include:
    * `Engine.Config.input?`
    * `Engine.Config.Quiet`
    * `Engine.Config.outside`
    * `Engine.Config.writesOf`
    * `Engine.Config.Sourced`

  Main results:
    * `Engine.step_quiet_or_commit`
    * `Engine.Config.writesOf_quiet`
    * `Engine.Config.writesOf_commit`
-/

----
-- Commits And Quiet Steps
----

namespace Engine

variable {Db ι Stmt Write Row Err α : Type} {Resp : Stmt → Type}

/- The input of call `i`. -/
def Config.input? (cfg : Config Db ι Stmt Resp Write Err α)
    (i : Nat) : Option ι := cfg.calls[i]?.map Call.input

/- The call that takes the step. -/
def Action.caller? : Action ι → Option Nat
| .start _ => none
| .exec i => some i
| .finish i => some i
| .unacked i => some i
| .broke i => some i

/-
  A step that commits nothing: the database only ticks, the journal stands, and no call has returned
  a new success.
-/
structure Config.Quiet (E : Engine Db Stmt Resp Write Row Err)
    (cfg cfg' : Config Db ι Stmt Resp Write Err α) : Prop where
  db : cfg'.db = cfg.db ∨ ∃ s, cfg'.db = E.tick s cfg.db
  journal : cfg'.journal = cfg.journal
  input : ∀ i c, cfg.input? i = some c → cfg'.input? i = some c
  answered : ∀ i c b, cfg'.Returned i c (.ok b) → cfg.Returned i c (.ok b)

variable {E : Engine Db Stmt Resp Write Row Err} {cfg cfg' : Config Db ι Stmt Resp Write Err α}

/- What no statement changes for good, no quiet step does. -/
theorem Config.Quiet.observe {β : Type} {f : Db → β}
    (hTick : ∀ s db, f (E.tick s db) = f db) (hQuiet : cfg.Quiet E cfg') :
    f cfg'.db = f cfg.db := by
  rcases hQuiet.db with hSame | ⟨s, hTicked⟩
  · rw [hSame]
  · rw [hTicked, hTick]

theorem Config.Running.input?_eq {i : Nat} {input : ι}
    {t : Txn Stmt Resp Write Err α} (hCall : cfg.Running i input t) :
    cfg.input? i = some input := by
  unfold Config.Running at hCall
  simp [Config.input?, hCall]

theorem Config.Returned.input?_eq {i : Nat} {input : ι} {r : Except Err α}
    (hCall : cfg.Returned i input r) : cfg.input? i = some input := by
  unfold Config.Returned at hCall
  simp [Config.input?, hCall]

theorem input?_set {i : Nat} {input : ι} {state : CallState Stmt Resp Write Err α}
    (hInput : cfg.input? i = some input) (j : Nat) :
    (cfg.calls.set i ⟨input, state⟩)[j]?.map Call.input = cfg.input? j := by
  by_cases hSame : j = i
  · subst hSame
    rw [List.getElem?_set_self', hInput]
    unfold Config.input? at hInput
    cases hOld : cfg.calls[j]? with
    | none => simp [hOld] at hInput
    | some old => simp
  · rw [List.getElem?_set_ne (Ne.symm hSame)]
    rfl

theorem quiet_settle {i : Nat} {input : ι} {t : Txn Stmt Resp Write Err α}
    {e : Err} {db : Db} (hCall : cfg.Running i input t)
    (hDb : db = cfg.db ∨ ∃ s, db = E.tick s cfg.db) :
    cfg.Quiet E (cfg.settle db i input (.error e)) := by
  refine ⟨hDb, rfl, ?_, ?_⟩
  · intro j c hInput
    rw [← hInput]
    exact input?_set hCall.input?_eq j
  · intro j c b hReturned
    rcases returned_set hReturned with ⟨_, hNew⟩ | hOld
    · cases hNew
    · exact hOld

theorem returned_commit {i j : Nat} {input c : ι} {ws : List Write} {r r' : Except Err α}
    (hReturned : (cfg.commit E i input ws r).Returned j c r') :
    (j = i ∧ c = input ∧ r' = r) ∨ cfg.Returned j c r' := by
  rcases returned_set hReturned with ⟨hEq, hNew⟩ | hOld
  · left
    cases hNew
    exact ⟨hEq, rfl, rfl⟩
  · exact Or.inr hOld

variable [DecidableEq Row]

/- Every step is quiet or commits one call. -/
theorem step_quiet_or_commit {handler : ι → Prog Stmt Resp Err α} {a : Action ι}
    (hStep : E.step handler cfg a = some cfg') : cfg.Quiet E cfg' ∨
    ∃ i input t b r, cfg.Running i input t ∧ t.prog = .ret b ∧
    (a = .finish i ∨ a = .unacked i) ∧ (r = .ok b ∨ r = .error E.broken) ∧
    cfg' = cfg.commit E i input t.writes r := by
  cases step_spec hStep with
  | started input =>
    left
    refine ⟨Or.inl rfl, rfl, ?_, ?_⟩
    · intro i c hInput
      unfold Config.input? at hInput ⊢
      cases hOld : cfg.calls[i]? with
      | none => simp [hOld] at hInput
      | some old =>
        have hLt := (List.getElem?_eq_some_iff.mp hOld).1
        rw [List.getElem?_append_left hLt]
        exact hInput
    · intro i c b hReturned
      exact returned_started hReturned
  | answered hCall hProg hFree hExec =>
    left
    refine ⟨Or.inr ⟨_, rfl⟩, rfl, ?_, ?_⟩
    · intro j c hInput
      rw [← hInput]
      exact input?_set hCall.input?_eq j
    · intro j c b hReturned
      rcases returned_set hReturned with ⟨_, hNew⟩ | hOld
      · cases hNew
      · exact hOld
  | refused hCall hProg hExec =>
    left
    exact quiet_settle hCall (Or.inr ⟨_, rfl⟩)
  | committed hCall hProg =>
    right
    exact ⟨_, _, _, _, _, hCall, hProg, Or.inl rfl, Or.inl rfl, rfl⟩
  | rejected hCall hProg =>
    left
    exact quiet_settle hCall (Or.inl rfl)
  | unacked hCall hProg =>
    right
    exact ⟨_, _, _, _, _, hCall, hProg, Or.inr rfl, Or.inr rfl, rfl⟩
  | broke hCall =>
    left
    exact quiet_settle hCall (Or.inl rfl)

----
-- Statements Outside All Calls
----

variable {Db ι Stmt Write Row Err α : Type} {Resp : Stmt → Type}

/- A statement outside all calls has written `ws`. -/
def Config.outside (E : Engine Db Stmt Resp Write Row Err)
    (cfg : Config Db ι Stmt Resp Write Err α) (s : Stmt) (ws : List Write) :
    Config Db ι Stmt Resp Write Err α :=
  { cfg with
    db := E.view (E.tick s cfg.db) ws
    journal := cfg.journal ++ ws.map (fun w => (none, w)) }

/- It waited for its rows and wrote them, or it failed. -/
theorem autocommit_spec [DecidableEq Row] {E : Engine Db Stmt Resp Write Row Err}
    {cfg cfg' : Config Db ι Stmt Resp Write Err α} {s : Stmt}
    {r : Except Err (Resp s)} (hStep : E.autocommit cfg s = some (r, cfg')) :
    E.blocked cfg none (E.wants s) = false ∧ ∃ ws, cfg' = cfg.outside E s ws ∧
    (ws = [] ∨ ∃ x, E.exec (E.now cfg.db) s cfg.db = .ok (x, ws)) := by
  unfold autocommit at hStep
  split at hStep
  · cases hStep
  · rename_i hFree
    refine ⟨by simpa using hFree, ?_⟩
    split at hStep
    · rename_i x ws hExec
      cases hStep
      exact ⟨ws, rfl, Or.inr ⟨x, hExec⟩⟩
    · cases hStep
      refine ⟨[], ?_, Or.inl rfl⟩
      simp [Config.outside]

----
-- Writes By Origin
----

/- The journal entry comes from a call with such an input. -/
def Config.carries (cfg : Config Db ι Stmt Resp Write Err α) (p : ι → Bool)
    (e : Option Nat × Write) : Bool := (e.1.bind cfg.input?).any p

/- The committed writes of the calls with such an input. -/
def Config.writesOf (cfg : Config Db ι Stmt Resp Write Err α) (p : ι → Bool) : List Write :=
  (cfg.journal.filter (cfg.carries p)).map Prod.snd

/- Every journal entry of a call names a call there is. -/
def Config.Sourced (cfg : Config Db ι Stmt Resp Write Err α) : Prop :=
  ∀ e ∈ cfg.journal, ∀ i, e.1 = some i → ∃ c, cfg.input? i = some c

variable {E : Engine Db Stmt Resp Write Row Err} {cfg cfg' : Config Db ι Stmt Resp Write Err α}

/- An entry's origin is not affected by later steps. -/
theorem carries_of_input {p : ι → Bool} {e : Option Nat × Write} (hSourced : cfg.Sourced)
    (hInput : ∀ i c, cfg.input? i = some c → cfg'.input? i = some c)
    (hMem : e ∈ cfg.journal) : cfg'.carries p e = cfg.carries p e := by
  unfold Config.carries
  cases hOrigin : e.1 with
  | none => rfl
  | some i =>
    rcases hSourced e hMem i hOrigin with ⟨c, hc⟩
    simp [hc, hInput i c hc]

theorem Config.Sourced.quiet (hSourced : cfg.Sourced) (hQuiet : cfg.Quiet E cfg') :
    cfg'.Sourced := by
  intro e hMem i hOrigin
  rw [hQuiet.journal] at hMem
  rcases hSourced e hMem i hOrigin with ⟨c, hc⟩
  exact ⟨c, hQuiet.input i c hc⟩

theorem Config.writesOf_quiet (hSourced : cfg.Sourced) (hQuiet : cfg.Quiet E cfg') (p : ι → Bool) :
    cfg'.writesOf p = cfg.writesOf p := by
  unfold Config.writesOf
  rw [hQuiet.journal]
  congr 1
  apply List.filter_congr
  intro e hMem
  exact carries_of_input hSourced hQuiet.input hMem

section

variable {i : Nat} {input : ι} {r : Except Err α} {t : Txn Stmt Resp Write Err α}

theorem input?_commit (hCall : cfg.Running i input t) (ws : List Write)
    (j : Nat) : (cfg.commit E i input ws r).input? j = cfg.input? j := input?_set hCall.input?_eq j

theorem Config.Sourced.commit (hSourced : cfg.Sourced)
    (hCall : cfg.Running i input t) (ws : List Write) : (cfg.commit E i input ws r).Sourced := by
  intro e hMem j hOrigin
  rw [input?_commit hCall]
  rcases List.mem_append.mp hMem with hOld | hNew
  · exact hSourced e hOld j hOrigin
  · rcases List.mem_map.mp hNew with ⟨w, _, rfl⟩
    cases hOrigin
    exact ⟨input, hCall.input?_eq⟩

/- A commit adds its writes to those of its own input. -/
theorem Config.writesOf_commit (hSourced : cfg.Sourced)
    (hCall : cfg.Running i input t) (ws : List Write) (p : ι → Bool) :
    (cfg.commit E i input ws r).writesOf p = cfg.writesOf p ++ if p input then ws else [] := by
  have hOld : cfg.journal.filter ((cfg.commit E i input ws r).carries p) =
      cfg.journal.filter (cfg.carries p) := by
    apply List.filter_congr
    intro e hMem
    apply carries_of_input hSourced _ hMem
    intro j c hInput
    rw [input?_commit hCall]
    exact hInput
  have hCarries : ∀ w, (cfg.commit E i input ws r).carries p (some i, w) = p input := by
    intro w
    unfold Config.carries
    simp [input?_commit hCall, hCall.input?_eq]
  have hNew :
      ((ws.map (fun w => (some i, w))).filter
          ((cfg.commit E i input ws r).carries p)).map Prod.snd =
        if p input then ws else [] := by
    cases hp : p input with
    | true =>
      rw [List.filter_eq_self.mpr]
      · simp [Function.comp_def]
      · intro e hMem
        rcases List.mem_map.mp hMem with ⟨w, _, rfl⟩
        rw [hCarries, hp]
    | false =>
      rw [List.filter_eq_nil_iff.mpr]
      · simp
      · intro e hMem
        rcases List.mem_map.mp hMem with ⟨w, _, rfl⟩
        rw [hCarries, hp]
        simp
  have hJournal : (cfg.commit E i input ws r).journal =
        cfg.journal ++ ws.map (fun w => (some i, w)) := rfl
  unfold Config.writesOf
  rw [hJournal, List.filter_append, List.map_append, hOld, hNew]

end

theorem Config.Sourced.outside (hSourced : cfg.Sourced) (s : Stmt)
    (ws : List Write) : (cfg.outside E s ws).Sourced := by
  intro e hMem i hOrigin
  rcases List.mem_append.mp hMem with hOld | hNew
  · exact hSourced e hOld i hOrigin
  · rcases List.mem_map.mp hNew with ⟨w, _, rfl⟩
    cases hOrigin

end Engine
