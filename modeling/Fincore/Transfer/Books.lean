import Fincore.Payment.Domain
import Fincore.Transfer.Moves

/-
  A transfer that is delivered again and again, seen from the books: which of its entries the ledger
  has posted, and the status of the payment.

  Every entry has a key of its own, so the books only say which entries were posted. What a delivery
  adds to them is decided by the funds of the source, by which accounts are active, and by the state
  of the payment.

  Key definitions include:
    * `Posting` and `Terms.balance`
    * `Order` and `Terms.answer`
    * `Terms.deliver`
    * `Terms.Repeatable`

  Main results:
    * `Terms.repeatable_iff`
-/

----
-- Entries
----

namespace Fincore

/- The entries of the saga, under the tags of their keys. -/
inductive Posting where
  | wdr
  | ldgWdr
  | dep
  | ldgDep
  | refundLedgerWdr
  | refundDep
  | refundLedgerDep
  | refundAuth
  | refundSettle
  deriving DecidableEq

namespace Posting

def tag : Posting → String
| .wdr => "wdr-"
| .ldgWdr => "ldg-wdr-"
| .dep => "dep-"
| .ldgDep => "ldg-dep-"
| .refundLedgerWdr => "refund-ledger-wdr-"
| .refundDep => "refund-dep-"
| .refundLedgerDep => "refund-ledger-dep-"
| .refundAuth => "refund-auth-"
| .refundSettle => "refund-settle-"

def all : List Posting :=
  [.wdr, .ldgWdr, .dep, .ldgDep, .refundLedgerWdr,
    .refundDep, .refundLedgerDep, .refundAuth, .refundSettle]

theorem mem_all (p : Posting) : p ∈ all := by
  cases p <;> decide

def isWithdrawal : Posting → Bool
| .wdr => true
| .ldgWdr => true
| _ => false

/- What the entry moves. -/
def move (t : Transfer) (p : Posting) : Move :=
  match p with
  | .wdr => t.takes p.tag
  | .ldgWdr => t.takes p.tag
  | .dep => t.gives p.tag
  | .ldgDep => t.gives p.tag
  | _ => t.returns p.tag

/- What it adds to the balance of an account. -/
def effect (t : Transfer) (a : String) (p : Posting) : Int :=
  if (p.move t).account = a then (p.move t).kobo else 0

end Posting

/- What is fixed before the first delivery. -/
structure Terms where
  transfer : Transfer
  opening : String → Int
  active : String → Bool
  known : Bool

/- What deliveries change. -/
structure Books where
  posted : List Posting
  status : Payment.Status

/- The balance of an account, once these were posted. -/
def Terms.balance (t : Terms) (posted : List Posting) (a : String) : Int :=
  t.opening a + (posted.map (Posting.effect t.transfer a)).sum

theorem Posting.effect_bounds {t : Transfer} (hKobo : 0 ≤ t.kobo) (a : String)
    (p : Posting) : -t.kobo ≤ p.effect t a ∧ p.effect t a ≤ t.kobo := by
  have hMove : (p.move t).kobo = -t.kobo ∨ (p.move t).kobo = t.kobo := by
    cases p <;> first | exact Or.inl rfl | exact Or.inr rfl
  unfold Posting.effect
  split
  · omega
  · omega

/- Nine entries at most are between any two balances. -/
theorem Terms.balance_bounds {t : Terms} (hKobo : 0 ≤ t.transfer.kobo)
    {posted : List Posting} (hOnce : posted.Nodup) (a : String) :
    t.opening a - 9 * t.transfer.kobo ≤ t.balance posted a ∧
    t.balance posted a ≤ t.opening a + 9 * t.transfer.kobo := by
  have hSum : -(posted.length * t.transfer.kobo) ≤ (posted.map (Posting.effect t.transfer a)).sum ∧
      (posted.map (Posting.effect t.transfer a)).sum ≤ posted.length * t.transfer.kobo := by
    clear hOnce
    induction posted with
    | nil => simp
    | cons p posted ih =>
      have hEffect := p.effect_bounds hKobo a
      rw [List.map_cons, List.sum_cons, List.length_cons, Nat.cast_succ, add_mul, one_mul]
      omega
  have hLength : posted.length ≤ 9 :=
    (List.subperm_of_subset hOnce (fun p _ => p.mem_all)).length_le
  have hMost : posted.length * t.transfer.kobo ≤ 9 * t.transfer.kobo :=
    Int.mul_le_mul_of_nonneg_right (by omega) hKobo
  unfold Terms.balance
  omega

----
-- Deliveries
----

/-
  What the saga asks of the other services: a movement goes through the account service, an entry to
  the ledger.
-/
inductive Order where
  | movement (p : Posting)
  | entry (p : Posting)
  | authorize
  | settle
  | fail

namespace Terms

/- The ledger's answer: an entry is posted at most once. -/
def post (t : Terms) (p : Posting) (b : Books) : Bool × Books :=
  let m := p.move t.transfer
  if trimSpace m.account = "" then (false, b)
  else if p ∈ b.posted then (true, b)
  else if p.isWithdrawal ∧ t.balance b.posted m.account + m.kobo < 0 then
    (false, b)
  else (true, { b with posted := b.posted ++ [p] })

/-
  The answer to an order. An account that is not active refuses a movement after the ledger has
  posted it.
-/
def answer (t : Terms) : Order → Books → Bool × Books
| .movement p, b =>
  ((t.post p b).1 && t.active (p.move t.transfer).account, (t.post p b).2)
| .entry p, b => t.post p b
| .authorize, b =>
  if t.known ∧ b.status = .initiated then
    (true, { b with status := .authorized })
  else (false, b)
| .settle, b =>
  if t.known ∧ b.status = .authorized then
    (true, { b with status := .settled })
  else (false, b)
| .fail, b =>
  if t.known ∧ b.status ≠ .settled then
    (true, { b with status := .failed })
  else (false, b)

end Terms

/-
  The orders of the saga, each with those that follow if it fails: the payment's own, the deposits
  before them, and the withdrawals before these.
-/
def settlement : List (Order × List Order) :=
  [(.authorize, [.movement .refundAuth, .fail]), (.settle, [.movement .refundSettle, .fail])]

def deposits : List (Order × List Order) :=
  (.movement .dep, [.movement .refundDep, .fail]) ::
    (.entry .ldgDep, [.movement .refundLedgerDep, .fail]) :: settlement

def orders : List (Order × List Order) :=
  (.movement .wdr, [.fail]) :: (.entry .ldgWdr, [.movement .refundLedgerWdr, .fail]) :: deposits

/- One delivery. -/
def Terms.deliver (t : Terms) : Books → Books := Saga.outcome t.answer orders

----
-- What A Delivery Adds
----

/- The books with an entry that is posted at most once. -/
def Books.add (b : Books) (p : Posting) : Books :=
  if p ∈ b.posted then b
  else { b with posted := b.posted ++ [p] }

@[simp] theorem Books.add_mk (posted : List Posting) (status : Payment.Status)
    (p : Posting) : (Books.mk posted status).add p =
      if p ∈ posted then ⟨posted, status⟩
      else ⟨posted ++ [p], status⟩ := rfl

theorem Books.add_status (b : Books) (p : Posting) : (b.add p).status = b.status := by
  unfold Books.add
  split
  · rfl
  · rfl

/- Both withdrawals, through the account and directly. -/
def Books.withdrawn (b : Books) : Books := (b.add .wdr).add .ldgWdr

/- Both withdrawals and both deposits. -/
def Books.deposited (b : Books) : Books := (b.withdrawn.add .dep).add .ldgDep

theorem Books.deposited_status (b : Books) : b.deposited.status = b.status := by
  unfold Books.deposited Books.withdrawn
  simp only [Books.add_status]

namespace Terms

/- The books once the payment was asked to fail. -/
def failing (t : Terms) (b : Books) : Books := (t.answer .fail b).2

/- The account can take part in a movement. -/
structure Open (t : Terms) (a : String) : Prop where
  named : trimSpace a ≠ ""
  active : t.active a = true

variable {t : Terms} {b : Books} {p : Posting}

/- The source can pay for a withdrawal, or has paid it. -/
def Covers (t : Terms) (b : Books) (p : Posting) : Prop :=
  p ∈ b.posted ∨ t.transfer.kobo ≤ t.balance b.posted t.transfer.fromAccountID

theorem post_deposit (hName : trimSpace (p.move t.transfer).account ≠ "")
    (hDeposit : p.isWithdrawal = false) : t.post p b = (true, b.add p) := by
  unfold post Books.add
  by_cases hMem : p ∈ b.posted
  · simp [hName, hMem]
  · simp [hName, hMem, hDeposit]

theorem move_of_withdrawal (t : Transfer) {p : Posting}
    (hWithdrawal : p.isWithdrawal = true) : p.move t = t.takes p.tag := by
  cases p with
  | wdr => rfl
  | ldgWdr => rfl
  | _ => cases hWithdrawal

theorem post_withdrawal (hName : trimSpace t.transfer.fromAccountID ≠ "")
    (hWithdrawal : p.isWithdrawal = true) (hCovers : t.Covers b p) :
    t.post p b = (true, b.add p) := by
  unfold post Books.add
  rw [move_of_withdrawal t.transfer hWithdrawal]
  rcases hCovers with hMem | hFunds
  · simp [Transfer.takes, hName, hMem]
  · have hEnough : ¬ t.balance b.posted t.transfer.fromAccountID + -t.transfer.kobo < 0 := by
      omega
    by_cases hMem : p ∈ b.posted
    · simp [Transfer.takes, hName, hMem]
    · simp [Transfer.takes, hName, hMem, hEnough]

theorem post_refused (hWithdrawal : p.isWithdrawal = true)
    (hNot : trimSpace t.transfer.fromAccountID = "" ∨ ¬ t.Covers b p) :
    t.post p b = (false, b) := by
  unfold post
  rw [move_of_withdrawal t.transfer hWithdrawal]
  by_cases hName : trimSpace t.transfer.fromAccountID = ""
  · simp [Transfer.takes, hName]
  · have hShort := hNot.resolve_left hName
    unfold Covers at hShort
    rw [not_or] at hShort
    have hFunds : t.balance b.posted t.transfer.fromAccountID + -t.transfer.kobo < 0 := by
      omega
    simp [Transfer.takes, hName, hShort.1, hWithdrawal, hFunds]

theorem answer_entry (t : Terms) (p : Posting) (b : Books) :
    t.answer (.entry p) b = t.post p b := by
  simp only [answer]

variable {b' : Books}

theorem answer_movement {r : Bool} (hPost : t.post p b = (r, b')) :
    t.answer (.movement p) b = (r && t.active (p.move t.transfer).account, b') := by
  simp only [answer, hPost]

theorem movement_ok (hPost : t.post p b = (true, b'))
    (hActive : t.active (p.move t.transfer).account = true) :
    t.answer (.movement p) b = (true, b') := by
  rw [answer_movement hPost, hActive]
  rfl

theorem movement_refused {r : Bool} (hPost : t.post p b = (r, b'))
    (hNot : r = false ∨ t.active (p.move t.transfer).account = false) :
    t.answer (.movement p) b = (false, b') := by
  rw [answer_movement hPost]
  rcases hNot with hRefused | hActive
  · rw [hRefused, Bool.false_and]
  · rw [hActive, Bool.and_false]

/- A refund goes back to the source. -/
theorem refund_failing (hName : trimSpace t.transfer.fromAccountID ≠ "")
    (hRefund : p.move t.transfer = t.transfer.returns p.tag)
    (hDeposit : p.isWithdrawal = false) : [Order.movement p, .fail].foldl
    (fun b c => (t.answer c b).2) b = t.failing (b.add p) := by
  have hNamed : trimSpace (p.move t.transfer).account ≠ "" := by
    rw [hRefund]
    exact hName
  have hAdded : (t.answer (.movement p) b).2 = b.add p := by
    rw [answer_movement (post_deposit hNamed hDeposit)]
  simp only [List.foldl_cons, List.foldl_nil, hAdded]
  rfl

end Terms

end Fincore

----
-- Where A Delivery Ends
----

namespace Fincore.Terms

variable {t : Terms} {b : Books}

/- The source does not pay, and nothing is posted. -/
theorem deliver_refused (hNot : trimSpace t.transfer.fromAccountID = "" ∨ ¬ t.Covers b .wdr) :
    t.deliver b = t.failing b := by
  have hWdr := movement_refused (post_refused rfl hNot) (Or.inl rfl)
  unfold deliver orders
  rw [Saga.outcome_of_failed hWdr]
  rfl

/- The ledger posts what the account then refuses. -/
theorem deliver_inactive (hName : trimSpace t.transfer.fromAccountID ≠ "")
    (hCovers : t.Covers b .wdr) (hActive : t.active t.transfer.fromAccountID = false) :
    t.deliver b = t.failing (b.add .wdr) := by
  have hWdr := movement_refused (post_withdrawal hName rfl hCovers) (Or.inr hActive)
  unfold deliver orders
  rw [Saga.outcome_of_failed hWdr]
  rfl

/- The source can pay once, and not twice. -/
theorem deliver_short (hSource : t.Open t.transfer.fromAccountID)
    (hCovers : t.Covers b .wdr) (hShort : ¬ t.Covers (b.add .wdr) .ldgWdr) :
    t.deliver b = t.failing ((b.add .wdr).add .refundLedgerWdr) := by
  have hWdr := movement_ok (post_withdrawal hSource.named rfl hCovers) hSource.active
  have hLdg := (t.answer_entry .ldgWdr _).trans (post_refused rfl (Or.inr hShort))
  unfold deliver orders
  rw [Saga.outcome_of_ok hWdr, Saga.outcome_of_failed hLdg, refund_failing hSource.named rfl rfl]

section

variable (hSource : t.Open t.transfer.fromAccountID) (hCovers : t.Covers b .wdr)
variable (hTwice : t.Covers (b.add .wdr) .ldgWdr)

include hSource hCovers hTwice

/- The source has paid twice. -/
theorem deliver_withdrawn : t.deliver b = Saga.outcome t.answer deposits b.withdrawn := by
  have hWdr := movement_ok (post_withdrawal hSource.named rfl hCovers) hSource.active
  have hLdg := (t.answer_entry .ldgWdr _).trans (post_withdrawal hSource.named rfl hTwice)
  unfold deliver orders
  rw [Saga.outcome_of_ok hWdr, Saga.outcome_of_ok hLdg]
  rfl

theorem deliver_unnamed (hDest : trimSpace t.transfer.toAccountID = "") :
    t.deliver b = t.failing (b.withdrawn.add .refundDep) := by
  have hDep : t.post .dep b.withdrawn = (false, b.withdrawn) := by
    simp [post, Posting.move, Transfer.gives, hDest]
  rw [deliver_withdrawn hSource hCovers hTwice, deposits, Saga.outcome_of_failed
      (movement_refused hDep (Or.inl rfl)), refund_failing hSource.named rfl rfl]

theorem deliver_undeposited (hDest : trimSpace t.transfer.toAccountID ≠ "")
    (hActive : t.active t.transfer.toAccountID = false) : t.deliver b =
    t.failing ((b.withdrawn.add .dep).add .refundDep) := by
  have hDep := movement_refused (t := t) (p := .dep) (b := b.withdrawn)
    (post_deposit hDest rfl) (Or.inr hActive)
  rw [deliver_withdrawn hSource hCovers hTwice, deposits,
    Saga.outcome_of_failed hDep, refund_failing hSource.named rfl rfl]

variable (hDest : t.Open t.transfer.toAccountID)

include hDest

/- The destination has been paid twice. -/
theorem deliver_deposited : t.deliver b = Saga.outcome t.answer settlement b.deposited := by
  have hDep := movement_ok (t := t) (p := .dep) (b := b.withdrawn)
    (post_deposit hDest.named rfl) hDest.active
  have hLdg := (t.answer_entry .ldgDep (b.withdrawn.add .dep)).trans (post_deposit hDest.named rfl)
  rw [deliver_withdrawn hSource hCovers hTwice, deposits,
    Saga.outcome_of_ok hDep, Saga.outcome_of_ok hLdg]
  rfl

theorem deliver_unauthorized (hNot : ¬ (t.known = true ∧ b.status = .initiated)) : t.deliver b =
    t.failing (b.deposited.add .refundAuth) := by
  have hAuth : t.answer .authorize b.deposited = (false, b.deposited) := by
    rw [← b.deposited_status] at hNot
    exact if_neg hNot
  rw [deliver_deposited hSource hCovers hTwice hDest, settlement, Saga.outcome_of_failed hAuth,
    refund_failing hSource.named rfl rfl]

theorem deliver_settled (hKnown : t.known = true) (hStatus : b.status = .initiated) : t.deliver b =
      { b.deposited with status := .settled } := by
  have hAuth : t.answer .authorize b.deposited =
        (true, { b.deposited with status := .authorized }) := by
    rw [← b.deposited_status] at hStatus
    exact if_pos ⟨hKnown, hStatus⟩
  have hSettle : t.answer .settle { b.deposited with status := .authorized } =
        (true, { b.deposited with status := .settled }) := if_pos ⟨hKnown, rfl⟩
  rw [deliver_deposited hSource hCovers hTwice hDest,
    settlement, Saga.outcome_of_ok hAuth, Saga.outcome_of_ok hSettle]
  rfl

end

----
-- The Payment Is Asked To Fail
----

variable (t : Terms)

/- The status that is left of a status. -/
def failedStatus (status : Payment.Status) : Payment.Status :=
  if t.known = true ∧ status ≠ .settled then .failed
  else status

theorem failing_eq (b : Books) : t.failing b = ⟨b.posted, t.failedStatus b.status⟩ := by
  unfold failing failedStatus
  by_cases hFails : t.known = true ∧ b.status ≠ .settled
  · simp [answer, hFails]
  · simp [answer, hFails]

theorem failedStatus_again (status : Payment.Status) :
    t.failedStatus (t.failedStatus status) = t.failedStatus status := by
  by_cases hFails : t.known = true ∧ status ≠ .settled
  · simp [failedStatus, hFails]
  · simp [failedStatus, hFails]

/- It cannot be authorized after that. -/
theorem failedStatus_not_initiated (status : Payment.Status) :
    ¬ (t.known = true ∧ t.failedStatus status = .initiated) := by
  rintro ⟨hKnown, hStatus⟩
  unfold failedStatus at hStatus
  by_cases hSettled : status = .settled
  · simp [hSettled] at hStatus
  · simp [hKnown, hSettled] at hStatus

----
-- Repeated Deliveries
----

/- The same balances and the same status. -/
structure Same (t : Terms) (b b' : Books) : Prop where
  balance : ∀ a, t.balance b.posted a = t.balance b'.posted a
  status : b.status = b'.status

theorem Same.refl (t : Terms) (b : Books) : t.Same b b := ⟨fun _ => rfl, rfl⟩

/- Any number of deliveries does what one does. -/
def Idempotent (t : Terms) (b : Books) : Prop := ∀ n, t.Same (t.deliver^[n + 1] b) (t.deliver b)

variable {t : Terms} {b : Books}

theorem idempotent_of_fixed (hAgain : t.deliver (t.deliver b) = t.deliver b) : t.Idempotent b := by
  intro n
  have hFixed : t.deliver^[n] (t.deliver b) = t.deliver b := Function.iterate_fixed hAgain n
  rw [Function.iterate_succ_apply, hFixed]
  exact Same.refl t _

theorem Idempotent.of_next (hNext : t.Same (t.deliver (t.deliver b)) (t.deliver b))
    (hRest : t.Idempotent (t.deliver b)) : t.Idempotent b := by
  intro n
  cases n with
  | zero =>
    rw [Nat.zero_add, Function.iterate_one]
    exact Same.refl t _
  | succ n =>
    have hSame := hRest n
    rw [← Function.iterate_succ_apply] at hSame
    refine ⟨?_, ?_⟩
    · intro a
      rw [hSame.balance a, hNext.balance a]
    · rw [hSame.status, hNext.status]

/- A delivery that fails, and fails at the same place again with the status it has left. -/
theorem idempotent_of_failing (posted : List Posting)
    (hFirst : t.deliver b = t.failing ⟨posted, b.status⟩)
    (hAgain : ∀ status, ¬ (t.known = true ∧ status = .initiated) →
    t.deliver ⟨posted, status⟩ = t.failing ⟨posted, status⟩) : t.Idempotent b := by
  refine idempotent_of_fixed ?_
  rw [hFirst, failing_eq, hAgain _ (t.failedStatus_not_initiated _), failing_eq]
  dsimp only
  rw [failedStatus_again]

theorem balance_append (t : Terms) (ps qs : List Posting) (a : String) :
    t.balance (ps ++ qs) a = t.balance ps a + (qs.map (Posting.effect t.transfer a)).sum := by
  unfold balance
  rw [List.map_append, List.sum_append, add_assoc]

theorem not_idempotent_of_added {first : List Posting}
    {status status' : Payment.Status} (added : List Posting)
    (hFirst : t.deliver b = ⟨first, status⟩)
    (hSecond : t.deliver ⟨first, status⟩ = ⟨first ++ added, status'⟩)
    (a : String) (hAdded : (added.map (Posting.effect t.transfer a)).sum ≠ 0) :
    ¬ t.Idempotent b := by
  intro hIdempotent
  have hNext : t.deliver^[2] b = ⟨first ++ added, status'⟩ := by
    rw [Function.iterate_succ_apply, Function.iterate_one, hFirst, hSecond]
  have hSame := (hIdempotent 1).balance a
  rw [hNext, hFirst] at hSame
  dsimp only at hSame
  rw [balance_append] at hSame
  omega

/-
  When one delivery is as good as many: it ends at the source, or with the deposit refused unseen by
  the ledger, or it pays twice and is then not settled.
-/
def Repeatable (t : Terms) (status : Payment.Status) : Prop :=
  ¬ t.Open t.transfer.fromAccountID ∨ t.opening t.transfer.fromAccountID < t.transfer.kobo ∨
    trimSpace t.transfer.toAccountID = "" ∨
    (2 * t.transfer.kobo ≤ t.opening t.transfer.fromAccountID ∧
      ¬ (t.active t.transfer.toAccountID = true ∧ t.known = true ∧ status = .initiated))

section

variable {status : Payment.Status}

theorem covers_nil_iff : t.Covers ⟨[], status⟩ .wdr ↔ t.transfer.kobo ≤
    t.opening t.transfer.fromAccountID := by
  simp [Covers, balance]

theorem covers_wdr_iff : t.Covers ⟨[.wdr], status⟩ .ldgWdr ↔
    2 * t.transfer.kobo ≤ t.opening t.transfer.fromAccountID := by
  simp only [Covers, balance, Posting.effect, Posting.move,
    Transfer.takes, List.mem_singleton, reduceCtorEq,
    false_or, List.map_cons, List.map_nil, List.sum_cons, List.sum_nil, if_pos]
  omega

/- A refund pays for the second withdrawal. -/
theorem covers_refunded (hFunds : t.transfer.kobo ≤ t.opening t.transfer.fromAccountID)
    (status : Payment.Status) : t.Covers ⟨[.wdr, .refundLedgerWdr], status⟩ .ldgWdr := by
  right
  simp only [balance, Posting.effect, Posting.move, Transfer.takes, Transfer.returns, List.map_cons,
    List.map_nil, List.sum_cons, List.sum_nil, if_pos]
  omega

/- The source does not pay. -/
theorem idempotent_of_refused
    (hNot : trimSpace t.transfer.fromAccountID = "" ∨
    t.opening t.transfer.fromAccountID < t.transfer.kobo) : t.Idempotent ⟨[], status⟩ := by
  have hRefused : ∀ status, trimSpace t.transfer.fromAccountID = "" ∨
      ¬ t.Covers ⟨[], status⟩ .wdr := by
    intro status
    rw [covers_nil_iff]
    exact hNot.imp_right not_le.mpr
  refine idempotent_of_failing [] (deliver_refused (hRefused status)) ?_
  intro status _
  exact deliver_refused (hRefused status)

/- The source pays and is not active. -/
theorem idempotent_of_inactive (hName : trimSpace t.transfer.fromAccountID ≠ "")
    (hFunds : t.transfer.kobo ≤ t.opening t.transfer.fromAccountID)
    (hActive : t.active t.transfer.fromAccountID = false) : t.Idempotent ⟨[], status⟩ := by
  refine idempotent_of_failing [.wdr]
    (deliver_inactive hName (covers_nil_iff.mpr hFunds) hActive) ?_
  intro status _
  exact deliver_inactive hName (Or.inl List.mem_cons_self) hActive

variable (hSource : t.Open t.transfer.fromAccountID)

include hSource

section

variable (hFunds : 2 * t.transfer.kobo ≤ t.opening t.transfer.fromAccountID)
  (hKobo : 0 < t.transfer.kobo)

include hFunds hKobo

/- The deposit is refused before the ledger sees it. -/
theorem idempotent_of_unnamed (hDest : trimSpace t.transfer.toAccountID = "") :
    t.Idempotent ⟨[], status⟩ := by
  have hFirst := deliver_unnamed (b := ⟨[], status⟩)
    hSource (covers_nil_iff.mpr (by omega)) (covers_wdr_iff.mpr hFunds) hDest
  have hAgain : ∀ status, t.deliver ⟨[.wdr, .ldgWdr, .refundDep], status⟩ = _ :=
    fun status => deliver_unnamed hSource (Or.inl (by simp)) (Or.inl (by simp)) hDest
  refine idempotent_of_failing [.wdr, .ldgWdr, .refundDep] ?_ ?_
  · simpa [Books.withdrawn] using hFirst
  · intro status _
    simpa [Books.withdrawn] using hAgain status

theorem idempotent_of_undeposited (hDest : trimSpace t.transfer.toAccountID ≠ "")
    (hActive : t.active t.transfer.toAccountID = false) : t.Idempotent ⟨[], status⟩ := by
  have hFirst := deliver_undeposited (b := ⟨[], status⟩) hSource (covers_nil_iff.mpr (by omega))
    (covers_wdr_iff.mpr hFunds) hDest hActive
  have hAgain : ∀ status, t.deliver ⟨[.wdr, .ldgWdr, .dep, .refundDep], status⟩ = _ :=
    fun status => deliver_undeposited hSource (Or.inl (by simp)) (Or.inl (by simp)) hDest hActive
  refine idempotent_of_failing [.wdr, .ldgWdr, .dep, .refundDep] ?_ ?_
  · simpa [Books.withdrawn] using hFirst
  · intro status _
    simpa [Books.withdrawn] using hAgain status

/- Both are paid, and the payment is not authorized. -/
theorem idempotent_of_unauthorized (hDest : t.Open t.transfer.toAccountID)
    (hNot : ¬ (t.known = true ∧ status = .initiated)) : t.Idempotent ⟨[], status⟩ := by
  have hFirst := deliver_unauthorized (b := ⟨[], status⟩) hSource (covers_nil_iff.mpr (by omega))
    (covers_wdr_iff.mpr hFunds) hDest hNot
  have hAgain : ∀ status, ¬ (t.known = true ∧ status = .initiated) → t.deliver
      ⟨[.wdr, .ldgWdr, .dep, .ldgDep, .refundAuth], status⟩ = _ :=
    fun status hStatus => deliver_unauthorized hSource
      (Or.inl (by simp)) (Or.inl (by simp)) hDest hStatus
  refine idempotent_of_failing [.wdr, .ldgWdr, .dep, .ldgDep, .refundAuth] ?_ ?_
  · simpa [Books.withdrawn, Books.deposited] using hFirst
  · intro status hStatus
    simpa [Books.withdrawn, Books.deposited] using hAgain status hStatus

/-
  Both are paid and the payment is settled. The next delivery cannot authorize it and refunds the
  source.
-/
theorem not_idempotent_of_settled (hDest : t.Open t.transfer.toAccountID)
    (hKnown : t.known = true) (hStatus : status = .initiated) : ¬ t.Idempotent ⟨[], status⟩ := by
  have hFirst : t.deliver ⟨[], status⟩ = ⟨[.wdr, .ldgWdr, .dep, .ldgDep], .settled⟩ := by
    have hRun := deliver_settled (b := ⟨[], status⟩) hSource (covers_nil_iff.mpr (by omega))
      (covers_wdr_iff.mpr hFunds) hDest hKnown hStatus
    simpa [Books.withdrawn, Books.deposited] using hRun
  have hSecond : t.deliver ⟨[.wdr, .ldgWdr, .dep, .ldgDep], .settled⟩ =
      ⟨[.wdr, .ldgWdr, .dep, .ldgDep] ++ [.refundAuth], t.failedStatus .settled⟩ := by
    have hRun := deliver_unauthorized (b := ⟨[.wdr, .ldgWdr, .dep, .ldgDep], .settled⟩)
      hSource (Or.inl (by simp)) (Or.inl (by simp)) hDest (by simp)
    rw [failing_eq] at hRun
    simpa [Books.withdrawn, Books.deposited] using hRun
  refine not_idempotent_of_added [.refundAuth] hFirst hSecond t.transfer.fromAccountID ?_
  simp only [Posting.effect, Posting.move, Transfer.returns,
    List.map_cons, List.map_nil, List.sum_cons, List.sum_nil, if_pos]
  omega

end

section

variable (hFunds : t.transfer.kobo ≤ t.opening t.transfer.fromAccountID)
  (hShort : t.opening t.transfer.fromAccountID < 2 * t.transfer.kobo)

include hFunds hShort

theorem deliver_first_short (status : Payment.Status) : t.deliver ⟨[], status⟩ =
    ⟨[.wdr, .refundLedgerWdr], t.failedStatus status⟩ := by
  have hNot : ¬ t.Covers ⟨[.wdr], status⟩ .ldgWdr := by
    rw [covers_wdr_iff]
    omega
  have hFirst := deliver_short (b := ⟨[], status⟩) hSource (covers_nil_iff.mpr hFunds) hNot
  rw [failing_eq] at hFirst
  simpa using hFirst

/- A destination that the ledger never sees. -/
theorem idempotent_of_short (hDest : trimSpace t.transfer.toAccountID = "") :
    t.Idempotent ⟨[], status⟩ := by
  have hFirst := deliver_first_short hSource hFunds hShort status
  have hSecond : ∀ status, t.deliver ⟨[.wdr, .refundLedgerWdr], status⟩ =
      t.failing ⟨[.wdr, .refundLedgerWdr, .ldgWdr, .refundDep], status⟩ := by
    intro status
    have hRun := deliver_unnamed
      (b := ⟨[.wdr, .refundLedgerWdr], status⟩) hSource (Or.inl (by simp))
      (covers_refunded hFunds status) hDest
    simpa [Books.withdrawn] using hRun
  have hThird : ∀ status, t.deliver
      ⟨[.wdr, .refundLedgerWdr, .ldgWdr, .refundDep], status⟩ = t.failing
      ⟨[.wdr, .refundLedgerWdr, .ldgWdr, .refundDep], status⟩ := by
    intro status
    have hRun := deliver_unnamed
      (b := ⟨[.wdr, .refundLedgerWdr, .ldgWdr, .refundDep], status⟩) hSource
      (Or.inl (by simp)) (Or.inl (by simp)) hDest
    simpa [Books.withdrawn] using hRun
  refine Idempotent.of_next ?_ ?_
  · rw [hFirst, hSecond, failing_eq]
    refine ⟨?_, t.failedStatus_again status⟩
    intro a
    -- what the second delivery takes it gives back
    show t.balance ([.wdr, .refundLedgerWdr] ++ [.ldgWdr, .refundDep]) a =
        t.balance [.wdr, .refundLedgerWdr] a
    rw [balance_append]
    by_cases hSame : t.transfer.fromAccountID = a
    · simp [Posting.effect, Posting.move, Transfer.takes, Transfer.returns, hSame]
    · simp [Posting.effect, Posting.move, Transfer.takes, Transfer.returns, hSame]
  · rw [hFirst]
    exact idempotent_of_failing [.wdr, .refundLedgerWdr, .ldgWdr, .refundDep]
      (hSecond _) (fun status _ => hThird status)

/- A destination that it pays at the second attempt. -/
theorem not_idempotent_of_short (hKobo : 0 < t.transfer.kobo)
    (hDest : trimSpace t.transfer.toAccountID ≠ "") : ¬ t.Idempotent ⟨[], status⟩ := by
  have hFirst := deliver_first_short hSource hFunds hShort status
  have hCovers := covers_refunded hFunds (t.failedStatus status)
  cases hActive : t.active t.transfer.toAccountID with
  | false =>
    have hRun := deliver_undeposited
      (b := ⟨[.wdr, .refundLedgerWdr], t.failedStatus status⟩) hSource
      (Or.inl (by simp)) hCovers hDest hActive
    rw [failing_eq] at hRun
    refine not_idempotent_of_added [.ldgWdr, .dep, .refundDep] hFirst
      (by simpa [Books.withdrawn] using hRun) t.transfer.toAccountID ?_
    by_cases hSame : t.transfer.fromAccountID = t.transfer.toAccountID
    · simp [Posting.effect, Posting.move, Transfer.takes, Transfer.gives, Transfer.returns, hSame]
      omega
    · simp [Posting.effect, Posting.move, Transfer.takes, Transfer.gives, Transfer.returns, hSame]
      omega
  | true =>
    have hRun := deliver_unauthorized
      (b := ⟨[.wdr, .refundLedgerWdr], t.failedStatus status⟩) hSource
      (Or.inl (by simp)) hCovers ⟨hDest, hActive⟩ (t.failedStatus_not_initiated status)
    rw [failing_eq] at hRun
    refine not_idempotent_of_added [.ldgWdr, .dep, .ldgDep, .refundAuth] hFirst
      (by simpa [Books.withdrawn, Books.deposited] using hRun) t.transfer.toAccountID ?_
    by_cases hSame : t.transfer.fromAccountID = t.transfer.toAccountID
    · simp [Posting.effect, Posting.move, Transfer.takes, Transfer.gives, Transfer.returns, hSame]
      omega
    · simp [Posting.effect, Posting.move, Transfer.takes, Transfer.gives, Transfer.returns, hSame]
      omega

end

end

/-
  From books without entries, many deliveries do what one does exactly if the transfer is
  repeatable.
-/
theorem repeatable_iff (t : Terms) (hKobo : 0 < t.transfer.kobo) (status : Payment.Status) :
    t.Idempotent ⟨[], status⟩ ↔ t.Repeatable status := by
  unfold Repeatable
  by_cases hName : trimSpace t.transfer.fromAccountID = ""
  · refine iff_of_true (idempotent_of_refused (Or.inl hName)) (Or.inl ?_)
    intro hOpen
    exact hOpen.named hName
  by_cases hFunds : t.opening t.transfer.fromAccountID < t.transfer.kobo
  · exact iff_of_true (idempotent_of_refused (Or.inr hFunds)) (Or.inr (Or.inl hFunds))
  rw [not_lt] at hFunds
  cases hActive : t.active t.transfer.fromAccountID with
  | false =>
    refine iff_of_true (idempotent_of_inactive hName hFunds hActive) (Or.inl ?_)
    intro hOpen
    rw [hOpen.active] at hActive
    cases hActive
  | true =>
    have hSource : t.Open t.transfer.fromAccountID := ⟨hName, hActive⟩
    have hNotShort : ¬ t.opening t.transfer.fromAccountID <
        t.transfer.kobo := by
      omega
    by_cases hDest : trimSpace t.transfer.toAccountID = ""
    · refine iff_of_true ?_ (Or.inr (Or.inr (Or.inl hDest)))
      by_cases hTwice : 2 * t.transfer.kobo ≤ t.opening t.transfer.fromAccountID
      · exact idempotent_of_unnamed hSource hTwice hKobo hDest
      · exact idempotent_of_short hSource hFunds (not_le.mp hTwice) hDest
    simp only [hSource, hNotShort, hDest, not_true, false_or]
    by_cases hTwice : 2 * t.transfer.kobo ≤ t.opening t.transfer.fromAccountID
    · rw [and_iff_right hTwice]
      cases hPaid : t.active t.transfer.toAccountID with
      | false =>
        refine iff_of_true ?_ (by simp)
        exact idempotent_of_undeposited hSource hTwice hKobo hDest hPaid
      | true =>
        rw [eq_self_iff_true, true_and]
        by_cases hAuth : t.known = true ∧ status = .initiated
        · refine iff_of_false ?_ (fun h => h hAuth)
          exact not_idempotent_of_settled hSource hTwice hKobo ⟨hDest, hPaid⟩ hAuth.1 hAuth.2
        · refine iff_of_true ?_ hAuth
          exact idempotent_of_unauthorized hSource hTwice hKobo ⟨hDest, hPaid⟩ hAuth
    · refine iff_of_false ?_ (fun h => hTwice h.1)
      exact not_idempotent_of_short hSource hFunds (not_le.mp hTwice) hKobo hDest

end Fincore.Terms
