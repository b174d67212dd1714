import Mathlib.Data.List.Basic

/-
  Unpadded base64 in the standard alphabet.

  Three bytes are four digits, and what is left over at the end is one digit longer than it has
  bytes. Decoding skips line breaks and does not look at the bits that no byte has.

  Key definitions include:
    * `Base64.encode` and `Base64.decode`

  Main results:
    * `Base64.decode_encode`
-/

namespace Base64

def alphabet : List Char :=
  "ABCDEFGHIJKLMNOPQRSTUVWXYZabcdefghijklmnopqrstuvwxyz0123456789+/".toList

def digit (n : Nat) : Char := alphabet.getD n 'A'

def value (c : Char) : Option Nat := alphabet.idxOf? c

def digits : List UInt8 → List Nat
| [] => []
| [a] => [a.toNat / 4, a.toNat % 4 * 16]
| [a, b] => [a.toNat / 4, a.toNat % 4 * 16 + b.toNat / 16, b.toNat % 16 * 4]
| a :: b :: c :: rest =>
  a.toNat / 4 :: (a.toNat % 4 * 16 + b.toNat / 16) :: (b.toNat % 16 * 4 + c.toNat / 64) ::
    c.toNat % 64 :: digits rest

/- A digit by itself is no byte. -/
def bytes : List Nat → Option (List UInt8)
| [] => some []
| [_] => none
| [p, q] => some [.ofNat (p * 4 + q / 16)]
| [p, q, r] => some [.ofNat (p * 4 + q / 16), .ofNat (q % 16 * 16 + r / 4)]
| p :: q :: r :: s :: rest =>
  (bytes rest).map (fun tail =>
    .ofNat (p * 4 + q / 16) :: .ofNat (q % 16 * 16 + r / 4) :: .ofNat (r % 4 * 64 + s) :: tail)

def encode (bs : List UInt8) : String := String.ofList ((digits bs).map digit)

def decode (s : String) : Option (List UInt8) :=
  ((s.toList.filter (fun c => c ≠ '\n' ∧ c ≠ '\r')).mapM value).bind bytes

theorem value_digit : ∀ n : Fin 64, value (digit n) = some n.val := by
  decide +kernel

theorem lt_of_mem_digits {bs : List UInt8} {n : Nat} (hMem : n ∈ digits bs) : n < 64 := by
  induction bs using digits.induct with
  | case1 => cases hMem
  | case2 a =>
    have hA := a.toNat_lt
    simp only [digits, List.mem_cons, List.not_mem_nil, or_false] at hMem
    omega
  | case3 a b =>
    have hA := a.toNat_lt
    have hB := b.toNat_lt
    simp only [digits, List.mem_cons, List.not_mem_nil, or_false] at hMem
    omega
  | case4 a b c rest ih =>
    have hA := a.toNat_lt
    have hB := b.toNat_lt
    have hC := c.toNat_lt
    simp only [digits, List.mem_cons] at hMem
    rcases hMem with hP | hQ | hR | hS | hRest
    · omega
    · omega
    · omega
    · omega
    · exact ih hRest

theorem ofNat_eq {n : Nat} {b : UInt8} (hSame : n = b.toNat) : UInt8.ofNat n = b := by
  rw [hSame, UInt8.ofNat_toNat]

theorem bytes_digits (bs : List UInt8) : bytes (digits bs) = some bs := by
  induction bs using digits.induct with
  | case1 => rfl
  | case2 a =>
    simp only [digits, bytes]
    rw [ofNat_eq (b := a) (by omega)]
  | case3 a b =>
    have hB := b.toNat_lt
    simp only [digits, bytes]
    rw [ofNat_eq (b := a) (by omega), ofNat_eq (b := b) (by omega)]
  | case4 a b c rest ih =>
    have hB := b.toNat_lt
    have hC := c.toNat_lt
    simp only [digits, bytes, ih, Option.map_some]
    rw [ofNat_eq (b := a) (by omega), ofNat_eq (b := b) (by omega), ofNat_eq (b := c) (by omega)]

/- What is not in the alphabet is in no text. -/
theorem not_mem_encode {c : Char} (hNot : ∀ n : Fin 64, digit n ≠ c) (bs : List UInt8) :
    c ∉ (encode bs).toList := by
  unfold encode
  rw [String.toList_ofList, List.mem_map]
  rintro ⟨n, hMem, hDigit⟩
  exact hNot ⟨n, lt_of_mem_digits hMem⟩ hDigit

theorem mapM_value {ns : List Nat} (hDigits : ∀ n ∈ ns, n < 64) :
    (ns.map digit).mapM value = some ns := by
  induction ns with
  | nil => rfl
  | cons n ns ih =>
    rw [List.map_cons, List.mapM_cons, value_digit ⟨n, hDigits n List.mem_cons_self⟩,
      ih (fun m hMem => hDigits m (List.mem_cons_of_mem _ hMem))]
    rfl

theorem decode_encode (bs : List UInt8) : decode (encode bs) = some bs := by
  have hPlain : (encode bs).toList.filter (fun c => c ≠ '\n' ∧ c ≠ '\r') = (encode bs).toList := by
    refine List.filter_eq_self.mpr ?_
    intro c hMem
    refine decide_eq_true ⟨?_, ?_⟩
    · rintro rfl
      exact not_mem_encode (by decide +kernel) bs hMem
    · rintro rfl
      exact not_mem_encode (by decide +kernel) bs hMem
  unfold decode
  rw [hPlain, encode, String.toList_ofList, mapM_value (fun n => lt_of_mem_digits)]
  exact bytes_digits bs

end Base64
