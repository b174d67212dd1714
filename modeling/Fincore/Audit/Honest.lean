import Fincore.Audit.Repository

/-
  Audit logs that only `Save` has written.

  `Save` reads the hash to link to and inserts its row in two statements that nothing holds
  together, and takes a read that failed for an empty log. Two calls that read before either inserts
  name the same previous hash, and the log is not valid any more. When no call reads while another
  one stands between its read and its insert, and no read of a log with rows fails, the log stays
  valid.

  Key definitions include:
    * `SaveConfig` and `Hashing.runSaves`
    * `SaveConfig.apart`
    * `SaveInv`

  Main results:
    * `saveInv_step`
    * `honest_log_validates_of_apart`
    * `overlapping_saves_break_chain`
-/

----
-- Runs
----

namespace Fincore.Audit

variable {Payload : Type}

/- The table, and every call of `Save` made so far. -/
abbrev SaveConfig (H : Hashing Payload) :=
  Autocommit.Config (List (Row H)) (SaveCall Payload) (Stmt Payload) Resp GoError Unit

abbrev SaveAction (Payload : Type) := Autocommit.Action (SaveCall Payload)

/- An empty table, before any call. -/
def SaveConfig.start (H : Hashing Payload) : SaveConfig H := ⟨[], []⟩

/- Calls interleaved statement by statement. -/
def Hashing.runSaves (H : Hashing Payload) :
    SaveConfig H → List (SaveAction Payload) → Option (SaveConfig H) :=
  Transition.run (H.table.step H.save)

/- What is left of a call starts with its insert. -/
def inserting : Autocommit.Script (Stmt Payload) Resp GoError Unit → Bool
| .ask (.insert _ _ _ _) _ => true
| _ => false

/-
  A call reads while no other one is about to insert, and its read only fails on an empty table; the
  rows that are inserted can be counted.
-/
def SaveConfig.apart {H : Hashing Payload} (cfg : SaveConfig H) : SaveAction Payload → Bool
| .start _ => true
| .send i o =>
  match cfg.calls[i]? with
  | some (_, .ask .selectLast _) =>
    cfg.calls.all (fun call => !inserting call.2) && (decide (o = .done) || cfg.db.isEmpty)
  | some (_, .ask (.insert _ _ _ _) _) =>
    decide (cfg.db.length + 1 < 2147483648)
  | _ => true

end Fincore.Audit

----
-- Reading And Writing The Table
----

namespace Fincore.Audit

variable {Payload : Type} {H : Hashing Payload} {rows : List (Row H)} {ls : List (Link Payload)}

/- The hash that a read which succeeds returns. -/
def Hashing.readLast (H : Hashing Payload) (rows : List (Row H)) : String :=
  lastHash (H.exec .selectLast rows).1

theorem readLast_eq_tip (hReads : Reads rows ls) : H.readLast rows = HashChain.tip "" ls := by
  have hTip := tip_eq_currentHash hReads ""
  unfold Hashing.readLast
  cases hLast : rows.getLast? with
  | none =>
    rw [hLast] at hTip
    simp only [Hashing.exec, hLast]
    exact (Option.some.inj hTip).symm
  | some row =>
    rw [hLast, Option.map_some, Option.getD_some] at hTip
    simp only [Hashing.exec, hLast, ← hTip]
    rfl

/- Reading leaves the table as it is. -/
theorem exec_selectLast (rows : List (Row H)) : (H.exec .selectLast rows).2 = rows := by
  cases hLast : rows.getLast? with
  | none => simp only [Hashing.exec, hLast]
  | some row => simp only [Hashing.exec, hLast]

theorem lastHash_send {o : Autocommit.Outcome} (hRead : o = .done ∨ rows = []) :
    lastHash (H.table.send .selectLast rows o).1 = H.readLast rows := by
  rcases hRead with rfl | rfl
  · rfl
  · cases o with
    | done => rfl
    | lost => rfl
    | unacked => rfl

variable {doc : Option H.Document}

theorem Hashing.encode_ok {payload : Option Payload}
    (hEncode : H.encode payload = .ok doc) : doc.map Subtype.val = payload := by
  cases payload with
  | none =>
    cases hEncode
    rfl
  | some p =>
    rw [Hashing.encode] at hEncode
    split at hEncode
    · cases hEncode
      rfl
    · cases hEncode

/- The row of `Save` is read as what was saved. -/
theorem Row.scan_new {id : String} {e : AuditLogEntry Payload} {lastHash currentHash : String}
    (hEncode : H.encode e.payload = .ok doc) : (Row.new id e doc lastHash currentHash).scan =
      .ok ⟨e, lastHash, currentHash⟩ := by
  have hPayload := Hashing.encode_ok hEncode
  cases e with
  | mk userID action resourceType resourceID payload correlationID traceID serviceName =>
    cases hPayload
    rfl

theorem chained_insert (hReads : Reads rows ls) (hChained : HashChain.Chained H.calculateHash "" ls)
    (c : SaveCall Payload) : ∃ ls', Reads (H.exec (.insert c.id c.entry
      (H.readLast rows) (H.calculateHash c.entry (H.readLast rows))) rows).2 ls' ∧
      HashChain.Chained H.calculateHash "" ls' := by
  cases hEncode : H.encode c.entry.payload with
  | error e =>
    simp only [Hashing.exec, hEncode]
    exact ⟨ls, hReads, hChained⟩
  | ok doc =>
    simp only [Hashing.exec, hEncode]
    refine ⟨ls ++ [⟨c.entry, H.readLast rows, H.calculateHash c.entry (H.readLast rows)⟩], ?_, ?_⟩
    · exact List.rel_append hReads (.cons (Row.scan_new hEncode) .nil)
    · exact HashChain.chained_concat.mpr ⟨hChained, readLast_eq_tip hReads, rfl⟩

theorem length_insert_le (id : String) (e : AuditLogEntry Payload) (lastHash currentHash : String) :
    (H.exec (.insert id e lastHash currentHash) rows).2.length ≤ rows.length + 1 := by
  cases hEncode : H.encode e.payload with
  | error err =>
    simp only [Hashing.exec, hEncode]
    exact Nat.le_succ _
  | ok doc =>
    simp only [Hashing.exec, hEncode]
    rw [List.length_append]
    rfl

end Fincore.Audit

----
-- What Calls That Keep Apart Preserve
----

namespace Fincore.Audit

variable {Payload : Type} {H : Hashing Payload} {cfg cfg' : SaveConfig H} {a : SaveAction Payload}

/-
  Where a call can stand: before its read, about to insert a row that names the last hash, or at its
  end.
-/
inductive SaveStage (H : Hashing Payload) (rows : List (Row H)) (c : SaveCall Payload)
    (p : Autocommit.Script (Stmt Payload) Resp GoError Unit) : Prop where
  | fresh (hProg : p = H.save c)
  | linked (hProg : p = H.insertAfter c (H.readLast rows))
  | ended (r : Except GoError Unit) (hProg : p = Prog.ofExcept r)

variable {c : SaveCall Payload}

variable {p : Autocommit.Script (Stmt Payload) Resp GoError Unit}

/- A call that is not about to insert stands where it stood. -/
theorem SaveStage.rows {rows rows' : List (Row H)}
    (hStage : SaveStage H rows c p) (hOther : inserting p = false) : SaveStage H rows' c p := by
  cases hStage with
  | fresh hProg => exact .fresh hProg
  | linked hProg =>
    rw [hProg] at hOther
    cases hOther
  | ended r hProg => exact .ended r hProg

/- What holds along runs whose calls keep apart. -/
structure SaveInv (cfg : SaveConfig H) : Prop where
  chain : ∃ ls, Reads cfg.db ls ∧ HashChain.Chained H.calculateHash "" ls
  counted : cfg.db.length < 2147483648
  stage : ∀ i c p, cfg.At i c p → SaveStage H cfg.db c p
  alone : ∀ i j c c' p p', cfg.At i c p → cfg.At j c' p' →
      inserting p = true → inserting p' = true → i = j

theorem saveInv_start (H : Hashing Payload) : SaveInv (SaveConfig.start H) := by
  refine ⟨⟨[], .nil, trivial⟩, Nat.zero_lt_succ _, ?_, ?_⟩
  · intro i c p hAt
    cases hAt
  · intro i j c c' p p' hAt
    cases hAt

theorem saveInv_started (hInv : SaveInv cfg) (c : SaveCall Payload) :
    SaveInv (⟨cfg.db, cfg.calls ++ [(c, H.save c)]⟩ : SaveConfig H) := by
  refine ⟨hInv.chain, hInv.counted, ?_, ?_⟩
  · intro i c' p hAt
    rcases Autocommit.at_started hAt with hOld | ⟨rfl, rfl⟩
    · exact hInv.stage i c' p hOld
    · exact .fresh rfl
  · intro i j c₁ c₂ p₁ p₂ hAt₁ hAt₂ hIns₁ hIns₂
    rcases Autocommit.at_started hAt₁ with hOld₁ | ⟨_, rfl⟩
    · rcases Autocommit.at_started hAt₂ with hOld₂ | ⟨_, rfl⟩
      · exact hInv.alone i j c₁ c₂ p₁ p₂ hOld₁ hOld₂ hIns₁ hIns₂
      · cases hIns₂
    · cases hIns₁

theorem saveInv_read (hInv : SaveInv cfg) {i : Nat}
    (hAlone : ∀ j c' p, cfg.At j c' p → inserting p = false) {h : String}
    (hRead : h = H.readLast cfg.db) : SaveInv (⟨cfg.db,
      cfg.calls.set i (c, H.insertAfter c h)⟩ : SaveConfig H) := by
  refine ⟨hInv.chain, hInv.counted, ?_, ?_⟩
  · intro j c' p hAt
    rcases Autocommit.at_sent hAt with ⟨_, rfl, rfl⟩ | ⟨_, hOld⟩
    · exact .linked (by rw [hRead])
    · exact hInv.stage j c' p hOld
  · intro j k c₁ c₂ p₁ p₂ hAt₁ hAt₂ hIns₁ hIns₂
    rcases Autocommit.at_sent hAt₁ with ⟨rfl, _, _⟩ | ⟨_, hOld⟩
    · rcases Autocommit.at_sent hAt₂ with ⟨rfl, _, _⟩ | ⟨_, hOld⟩
      · rfl
      · rw [hAlone k c₂ p₂ hOld] at hIns₂
        cases hIns₂
    · rw [hAlone j c₁ p₁ hOld] at hIns₁
      cases hIns₁

theorem saveInv_ended (hInv : SaveInv cfg) {i : Nat}
    (hCall : cfg.At i c p) (hInserting : inserting p = true) {rows : List (Row H)}
    (hChain : ∃ ls, Reads rows ls ∧ HashChain.Chained H.calculateHash "" ls)
    (hCounted : rows.length < 2147483648) (r : Except GoError Unit) :
    SaveInv (⟨rows, cfg.calls.set i (c, Prog.ofExcept r)⟩ : SaveConfig H) := by
  -- nobody else was about to insert
  have hOther : ∀ j c' p', j ≠ i → cfg.At j c' p' → inserting p' = false := by
    intro j c' p' hNe hAt
    rw [← Bool.not_eq_true]
    intro hIns
    exact hNe (hInv.alone j i c' c p' p hAt hCall hIns hInserting)
  refine ⟨hChain, hCounted, ?_, ?_⟩
  · intro j c' p' hAt
    rcases Autocommit.at_sent hAt with ⟨_, _, rfl⟩ | ⟨hNe, hOld⟩
    · exact .ended r rfl
    · exact (hInv.stage j c' p' hOld).rows (hOther j c' p' hNe hOld)
  · intro j k c₁ c₂ p₁ p₂ hAt₁ _ hIns₁ _
    rcases Autocommit.at_sent hAt₁ with ⟨_, _, rfl⟩ | ⟨hNe, hOld⟩
    · cases r <;> cases hIns₁
    · rw [hOther j c₁ p₁ hNe hOld] at hIns₁
      cases hIns₁

/- What a step that keeps apart preserves. -/
theorem saveInv_step (hInv : SaveInv cfg) (hApart : cfg.apart a = true)
    (hStep : H.table.step H.save cfg a = some cfg') : SaveInv cfg' := by
  rcases Autocommit.step_cases hStep with ⟨c, rfl, rfl⟩ | ⟨i, o, c, s, k, rfl, hCall, rfl⟩
  · exact saveInv_started hInv c
  · have hStage := hInv.stage i c _ hCall
    have hAt : cfg.calls[i]? = some (c, .ask s k) := hCall
    cases hStage with
    | fresh hProg =>
      cases hProg
      simp only [SaveConfig.apart, hAt, Bool.and_eq_true,
        Bool.or_eq_true, List.all_eq_true] at hApart
      rcases hApart with ⟨hAlone, hRead⟩
      have hSame : (H.table.send .selectLast cfg.db o).2 =
          cfg.db := by
        rcases Autocommit.send_db (A := H.table) .selectLast cfg.db o with hEq | hEq
        · exact hEq
        · exact hEq.trans (exec_selectLast cfg.db)
      rw [hSame]
      refine saveInv_read hInv ?_ (lastHash_send ?_)
      · intro j c' p hOther
        have hNot := hAlone _ (List.mem_of_getElem? hOther)
        simpa using hNot
      · exact hRead.imp of_decide_eq_true List.isEmpty_iff.mp
    | linked hProg =>
      cases hProg
      simp only [SaveConfig.apart, hAt, decide_eq_true_eq] at hApart
      refine saveInv_ended hInv hCall rfl ?_ ?_ _
      · rcases Autocommit.send_db (A := H.table) _ cfg.db o with hEq | hEq
        · rw [hEq]
          exact hInv.chain
        · rw [hEq]
          rcases hInv.chain with ⟨ls, hReads, hChained⟩
          exact chained_insert hReads hChained c
      · rcases Autocommit.send_db (A := H.table) _ cfg.db o with hEq | hEq
        · rw [hEq]
          exact hInv.counted
        · rw [hEq]
          exact (length_insert_le _ _ _ _).trans_lt hApart
    | ended r hProg => cases r <;> cases hProg

/-
  In any interleaving of `Save` calls, with any failures of their statements, in which no call reads
  while another one stands between its read and its insert, no read of a table with rows fails, and
  no row is inserted that an `int32` does not count: the table is found valid, and every row is
  counted.
-/
theorem honest_log_validates_of_apart (H : Hashing Payload)
    (schedule : List (SaveAction Payload)) {cfg : SaveConfig H}
    (hApart : Transition.Meets (H.table.step H.save) (fun cfg a => SaveConfig.apart cfg a = true)
      (SaveConfig.start H) schedule) (hRun : H.runSaves (SaveConfig.start H) schedule = some cfg) :
    (H.validateIntegrity cfg.db).valid = true ∧
      (H.validateIntegrity cfg.db).count.toInt = cfg.db.length ∧
      (H.validateIntegrity cfg.db).err = none := by
  have hKeeps : ∀ (cfg : SaveConfig H) a cfg', SaveInv cfg →
      SaveConfig.apart cfg a = true → H.table.step H.save cfg a = some cfg' → SaveInv cfg' :=
    fun _ _ _ hInv hCond hStep =>
      saveInv_step hInv hCond hStep
  have hInv : SaveInv cfg := Transition.run_induction_of_meets hKeeps (saveInv_start H) hApart hRun
  rcases hInv.chain with ⟨ls, hReads, hChained⟩
  have hVerdict : H.validateIntegrity cfg.db = ⟨true, 0 + Int32.ofNat cfg.db.length, "", none⟩ :=
    validateFrom_of_chained hReads hChained
  rw [hVerdict, Int32.zero_add]
  exact ⟨rfl, Int32.toInt_ofNat_of_lt hInv.counted, rfl⟩

/- An entry of a service, without a payload. -/
def entryOf (userID action serviceName : String) : AuditLogEntry String where
  userID := userID
  action := action
  resourceType := "account"
  resourceID := "a1"
  payload := none
  correlationID := ""
  traceID := ""
  serviceName := serviceName

def login : SaveCall String := ⟨entryOf "ada" "login" "auth", "row1"⟩

def transfer : SaveCall String := ⟨entryOf "ada" "transfer" "payment", "row2"⟩

/- The second call reads when the first has inserted. -/
def saveInTurn : List (SaveAction String) :=
  [.start login, .start transfer, .send 0 .done, .send 0 .unacked, .send 1 .done, .send 1 .done]

theorem saveInTurn_validates : ∃ cfg,
      Hashing.plain.runSaves (SaveConfig.start _) saveInTurn = some cfg ∧
      cfg.db.length = 2 ∧ (Hashing.plain.validateIntegrity cfg.db).valid =
      true ∧ (Hashing.plain.validateIntegrity cfg.db).count.toInt =
      cfg.db.length ∧ (Hashing.plain.validateIntegrity cfg.db).err =
      none := by
  refine ⟨_, rfl, rfl, ?_⟩
  exact honest_log_validates_of_apart Hashing.plain saveInTurn (by decide) rfl

/- Both calls read before either inserts. -/
def saveTogether : List (SaveAction String) :=
  [.start login, .start transfer, .send 0 .done, .send 1 .done, .send 0 .done, .send 1 .done]

/- The read of the second call fails. -/
def saveUnlinked : List (SaveAction String) :=
  [.start login, .start transfer, .send 0 .done, .send 0 .done, .send 1 .lost, .send 1 .done]

theorem overlapping_saves_break_chain : ∃ cfg cfg',
      Hashing.plain.runSaves (SaveConfig.start _) saveTogether = some cfg ∧
      Hashing.plain.validateIntegrity cfg.db = ⟨false, 1, "row2", none⟩ ∧
      Hashing.plain.runSaves (SaveConfig.start _) saveUnlinked = some cfg' ∧
      Hashing.plain.validateIntegrity cfg'.db = ⟨false, 1, "row2", none⟩ :=
  ⟨_, _, rfl, by decide, rfl, by decide⟩

end Fincore.Audit
