import Fincore.Transfer.Effects
import Fincore.Transfer.Workflow
import Mathlib.Tactic.Ring

/-
  What a run of calls moves.

  The calls of a run are taken together: under distinct keys each of them moves its amount exactly
  if its key was not recorded when the run began, so the change of a balance is a sum that the first
  state alone determines.

  Key definitions include:
    * `net` and `Moved`
    * `MovesAs`
    * `Activity.move?`
    * `Transfer`, with `Transfer.takes`, `Transfer.gives`
      and `Transfer.returns`
    * `Transfer.freshTags`

  Main results:
    * `Moved.append`
    * `moved_of_succeeds`
    * `Transfer.net_eq`
-/

----
-- Several Moves
----

namespace Fincore

/- What moves add to an account, by the keys of `db`. -/
def net (db : Database) (a : String) : List Move → Int
| [] => 0
| m :: ms =>
  (if a = m.account then fresh db m.key * m.kobo else 0) + net db a ms

theorem net_append (db : Database) (a : String) (ms ns : List Move) :
    net db a (ms ++ ns) = net db a ms + net db a ns := by
  induction ms with
  | nil => simp [net]
  | cons m ms ih =>
    simp only [List.cons_append, net, ih]
    omega

variable {db db' : Database}

theorem net_congr {ms : List Move} (a : String)
    (hKeys : ∀ m ∈ ms, fresh db' m.key = fresh db m.key) : net db' a ms = net db a ms := by
  induction ms with
  | nil => rfl
  | cons m ms ih =>
    have hHead := hKeys m List.mem_cons_self
    have hTail := ih fun n hMem =>
      hKeys n (List.mem_cons_of_mem m hMem)
    simp only [net, hHead, hTail]

/- The moves were made, each under a key of its own. -/
structure Moved (ms : List Move) (db db' : Database) : Prop where
  balance : ∀ a, db'.balance a 1 = db.balance a 1 + net db a ms
  others : ∀ k, k ∉ ms.map Move.key → fresh db' k = fresh db k
  amounts : ∀ m ∈ ms, m.kobo ≠ 0

theorem SameLedger.moved (hSame : SameLedger db db') : Moved [] db db' := by
  refine ⟨?_, ?_, ?_⟩
  · intro a
    rw [hSame.balance]
    simp [net]
  · intro k _
    exact hSame.fresh_eq k
  · intro m hMem
    cases hMem

theorem Move.Done.moved {m : Move} (hAmount : m.kobo ≠ 0)
    (hDone : m.Done db db') : Moved [m] db db' := by
  refine ⟨?_, ?_, ?_⟩
  · intro a
    rw [hDone.balance]
    simp [net]
  · intro k hNot
    refine hDone.others k ?_
    intro hEq
    exact hNot (by simp [hEq])
  · intro n hMem
    rw [List.mem_singleton.mp hMem]
    exact hAmount

/- Moves under different keys do not see each other. -/
theorem Moved.append {ms ns : List Move} {db₁ db₂ db₃ : Database}
    (hFirst : Moved ms db₁ db₂) (hSecond : Moved ns db₂ db₃)
    (hKeys : ((ms ++ ns).map Move.key).Nodup) : Moved (ms ++ ns) db₁ db₃ := by
  rw [List.map_append] at hKeys
  have hDisjoint := List.disjoint_of_nodup_append hKeys
  have hNet : ∀ a, net db₂ a ns = net db₁ a ns := by
    intro a
    refine net_congr a ?_
    intro n hMem
    refine hFirst.others n.key ?_
    intro hKey
    exact hDisjoint hKey (List.mem_map_of_mem hMem)
  refine ⟨?_, ?_, ?_⟩
  · intro a
    rw [hSecond.balance, hFirst.balance, hNet, net_append]
    omega
  · intro k hNot
    rw [List.map_append, List.mem_append, not_or] at hNot
    rw [hSecond.others k hNot.2, hFirst.others k hNot.1]
  · intro m hMem
    rcases List.mem_append.mp hMem with hMem | hMem
    · exact hFirst.amounts m hMem
    · exact hSecond.amounts m hMem

----
-- Runs Of Calls
----

variable {Call : Type} {serve : Call → World → Except GoError Unit × World}
variable {move? : Call → Option Move}

/- The calls that `serve` serves make the moves `move?`. -/
structure MovesAs (serve : Call → World → Except GoError Unit × World)
    (move? : Call → Option Move) : Prop where
  tried : ∀ c m, move? c = some m → ∀ w, m.Tried w.ledger ((serve c w).1, (serve c w).2.ledger)
  still : ∀ c, move? c = none → ∀ w, (serve c w).2.ledger = w.ledger

variable {w w' : World}

/- A call that succeeds has made the moves it makes. -/
theorem MovesAs.moved (hServe : MovesAs serve move?) {c : Call}
    (hCall : serve c w = (.ok (), w')) : Moved (move? c).toList w.ledger w'.ledger := by
  cases hMove : move? c with
  | none =>
    have hLedger := hServe.still c hMove w
    rw [hCall] at hLedger
    rw [hLedger]
    exact (SameLedger.refl _).moved
  | some m =>
    have hTried := hServe.tried c m hMove w
    rw [hCall] at hTried
    cases hTried with
    | done hAmount hDone => exact hDone.moved hAmount

/- So have calls that all succeed, if no key comes twice. -/
theorem moved_of_succeeds (hServe : MovesAs serve move?) {cs : List Call}
    (hRun : Saga.Succeeds serve cs w w')
    (hKeys : ((cs.filterMap move?).map Move.key).Nodup) :
    Moved (cs.filterMap move?) w.ledger w'.ledger := by
  induction hRun with
  | nil w => exact (SameLedger.refl _).moved
  | @cons c cs w w₁ w₂ hCall hRest ih =>
    have hSplit : (c :: cs).filterMap move? = (move? c).toList ++ cs.filterMap move? := by
      cases hMove : move? c <;> simp [hMove]
    rw [hSplit] at hKeys ⊢
    have hTail : ((cs.filterMap move?).map Move.key).Nodup := by
      rw [List.map_append] at hKeys
      exact hKeys.of_append_right
    exact (hServe.moved hCall).append (ih hTail) hKeys

theorem serveCall_movesAs (fates : Nat → Fate) : MovesAs (serveCall fates) ServiceCall.move? :=
  ⟨fun _ _ hMove w => serveCall_tried fates hMove w,
    fun _ hMove w => serveCall_ledger fates hMove w⟩

end Fincore

----
-- Activities
----

namespace Fincore

/- The move an activity makes, if it makes one. -/
def Activity.move? : Activity → Option Move
| .withdraw input =>
  some ⟨input.fromAccountID, -input.amountKobo.toInt, "wdr-" ++ input.paymentID⟩
| .ledgerPostWithdraw input =>
  some ⟨input.fromAccountID, -input.amountKobo.toInt, "ldg-wdr-" ++ input.paymentID⟩
| .deposit input =>
  some ⟨input.toAccountID, input.amountKobo.toInt, "dep-" ++ input.paymentID⟩
| .ledgerPostDeposit input =>
  some ⟨input.toAccountID, input.amountKobo.toInt, "ldg-dep-" ++ input.paymentID⟩
| .refund input =>
  some ⟨input.fromAccountID, input.amountKobo.toInt, "refund-" ++ input.paymentID⟩
| _ => none

theorem withAmount_tried (fates : Nat → Fate) {input : TransferWorkflowInput}
    {call : Money → ServiceCall} {m : Move}
    (hMove : (call ⟨input.amountKobo, input.currency⟩).move? = some m)
    (w : World) : m.Tried w.ledger
      (((Activity.withAmount input call).runWith (serveTx fates) w).1,
      ((Activity.withAmount input call).runWith (serveTx fates) w).2.ledger) := by
  unfold Activity.withAmount Money.new
  by_cases hCurrency : input.currency = ""
  · rw [if_pos hCurrency]
    exact .refused _ (SameLedger.refl _)
  · rw [if_neg hCurrency]
    exact serveCall_tried fates hMove w

theorem serveActivity_movesAs (fates : Nat → Fate) :
    MovesAs (serveActivity fates) Activity.move? := by
  refine ⟨?_, ?_⟩
  · intro a m hMove w
    unfold serveActivity
    cases a with
    | withdraw input =>
      refine withAmount_tried fates ?_ w
      exact hMove
    | ledgerPostWithdraw input =>
      refine withAmount_tried fates ?_ w
      exact hMove
    | deposit input =>
      refine withAmount_tried fates ?_ w
      exact hMove
    | ledgerPostDeposit input =>
      refine withAmount_tried fates ?_ w
      exact hMove
    | refund input =>
      refine withAmount_tried fates ?_ w
      exact hMove
    | authorizePayment input => cases hMove
    | settlePayment input => cases hMove
    | failPayment paymentID reason => cases hMove
  · intro a hMove w
    unfold serveActivity
    cases a with
    | withdraw input => cases hMove
    | ledgerPostWithdraw input => cases hMove
    | deposit input => cases hMove
    | ledgerPostDeposit input => cases hMove
    | refund input => cases hMove
    | authorizePayment input =>
      exact serveCall_ledger fates (c := .authorize _ _) rfl w
    | settlePayment input =>
      exact serveCall_ledger fates (c := .settle _ _) rfl w
    | failPayment paymentID reason =>
      exact serveCall_ledger fates (c := .fail _ _ _) rfl w

----
-- The Moves Of A Transfer
----

/- What the ledger sees of a transfer. -/
structure Transfer where
  paymentID : String
  fromAccountID : String
  toAccountID : String
  kobo : Int

namespace Transfer

/- A withdrawal from the source. -/
def takes (t : Transfer) (tag : String) : Move := ⟨t.fromAccountID, -t.kobo, tag ++ t.paymentID⟩

/- A deposit to the destination. -/
def gives (t : Transfer) (tag : String) : Move := ⟨t.toAccountID, t.kobo, tag ++ t.paymentID⟩

/- A deposit back to the source. -/
def returns (t : Transfer) (tag : String) : Move := ⟨t.fromAccountID, t.kobo, tag ++ t.paymentID⟩

/- The tags of the keys of a run's moves, by their kind. -/
structure Tags where
  taken : List String
  given : List String
  returned : List String

def Tags.all (tags : Tags) : List String := tags.taken ++ tags.given ++ tags.returned

def moves (t : Transfer) (tags : Tags) : List Move :=
  tags.taken.map t.takes ++ tags.given.map t.gives ++ tags.returned.map t.returns

/- How many of the tags' keys are not recorded. -/
def freshTags (t : Transfer) (db : Database) : List String → Int
| [] => 0
| tag :: tags =>
  fresh db (tag ++ t.paymentID) + t.freshTags db tags

variable (t : Transfer)

theorem nodup_keys {tags : Tags} (hTags : tags.all.Nodup) :
    ((t.moves tags).map Move.key).Nodup := by
  have hKeys : (t.moves tags).map Move.key = tags.all.map (· ++ t.paymentID) := by
    simp [moves, Tags.all, takes, gives, returns, Function.comp_def]
  rw [hKeys]
  refine hTags.map ?_
  intro tag₁ tag₂ hEq
  exact (String.append_left_inj t.paymentID).mp hEq

theorem net_map (db : Database) (a accountID : String)
    (kobo : Int) (tags : List String) : net db a (tags.map fun tag =>
        ⟨accountID, kobo, tag ++ t.paymentID⟩) =
      if a = accountID then t.freshTags db tags * kobo
      else 0 := by
  induction tags with
  | nil => simp [net, freshTags]
  | cons tag tags ih =>
    simp only [List.map_cons, net, ih, freshTags]
    by_cases hAccount : a = accountID
    · simp only [if_pos hAccount]
      ring
    · simp only [if_neg hAccount]
      omega

/- The change of a balance, counted in amounts. -/
theorem net_eq (db : Database) (tags : Tags) (a : String) : net db a (t.moves tags) =
      ((if a = t.fromAccountID then
          t.freshTags db tags.returned - t.freshTags db tags.taken
        else 0) +
        if a = t.toAccountID then
          t.freshTags db tags.given
        else 0) * t.kobo := by
  unfold moves
  rw [net_append, net_append]
  have hTaken := net_map t db a t.fromAccountID (-t.kobo) tags.taken
  have hGiven := net_map t db a t.toAccountID t.kobo tags.given
  have hReturned := net_map t db a t.fromAccountID t.kobo tags.returned
  unfold takes gives returns
  rw [hTaken, hGiven, hReturned]
  split <;> split <;> ring

theorem kobo_ne_zero {t : Transfer} {tags : Tags} {db db' : Database}
    (hMoved : Moved (t.moves tags) db db') (hSome : tags.all ≠ []) : t.kobo ≠ 0 := by
  intro hZero
  have hAll : ∀ m ∈ t.moves tags, m.kobo = 0 := by
    intro m hMem
    simp only [moves, takes, gives, returns, List.mem_append, List.mem_map] at hMem
    rcases hMem with (⟨_, _, rfl⟩ | ⟨_, _, rfl⟩) | ⟨_, _, rfl⟩
    · simp [hZero]
    · exact hZero
    · exact hZero
  cases hMoves : t.moves tags with
  | nil =>
    refine hSome ?_
    simpa [moves, Tags.all] using hMoves
  | cons m ms =>
    have hMem : m ∈ t.moves tags := by simp [hMoves]
    exact hMoved.amounts m hMem (hAll m hMem)

end Transfer

end Fincore
