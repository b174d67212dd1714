import Mathlib.Tactic.IntervalCases

/-
  Texts, letter case and the keys of message headers.

  A header key has one canonical spelling. Two canonical keys that differ at most in letter case are
  one key, so that a comparison that ignores case singles out one spelling.

  Key definitions include:
    * `Text.lower` and `Text.equalFold`
    * `Text.hasPrefix` and `Text.dropPrefix`
    * `Text.split`
    * `Text.canonicalKey`
    * `Text.parseUint`

  Main results:
    * `Text.canonicalKey_lower`
    * `Text.eq_of_equalFold`
-/

----
-- Texts
----

namespace Text

/- ASCII letters in lower case. -/
def lower (s : String) : String := String.ofList (s.toList.map Char.toLower)

/- Equal up to the case of ASCII letters. -/
def equalFold (s t : String) : Bool := lower s = lower t

def hasPrefix (word s : String) : Bool := word.toList.isPrefixOf s.toList

def dropPrefix (word s : String) : String :=
  if hasPrefix word s then
    String.ofList (s.toList.drop word.toList.length)
  else s

theorem append_dropPrefix {word s : String}
    (hPrefix : hasPrefix word s = true) : word ++ dropPrefix word s = s := by
  unfold dropPrefix
  rw [if_pos hPrefix, ← String.toList_inj, String.toList_append, String.toList_ofList]
  exact List.prefix_iff_eq_append.mp (List.isPrefixOf_iff_prefix.mp hPrefix)

theorem eq_append_iff {word s rest : String} :
    s = word ++ rest ↔ hasPrefix word s = true ∧ dropPrefix word s = rest := by
  constructor
  · rintro rfl
    have hPrefix : hasPrefix word (word ++ rest) = true := by
      unfold hasPrefix
      rw [String.toList_append]
      exact List.isPrefixOf_iff_prefix.mpr (List.prefix_append _ _)
    refine ⟨hPrefix, ?_⟩
    have hWhole := append_dropPrefix hPrefix
    rw [← String.toList_inj, String.toList_append, String.toList_append] at hWhole
    exact String.toList_inj.mp (List.append_cancel_left hWhole)
  · rintro ⟨hPrefix, rfl⟩
    exact (append_dropPrefix hPrefix).symm

def hasSuffix (s word : String) : Bool := word.toList.isSuffixOf s.toList

variable {separator : Char}

theorem eq_of_hasSuffix {s : String} {word word' name name' : List Char}
    (hWord : word = separator :: name) (hWord' : word' = separator :: name')
    (hName : separator ∉ name) (hName' : separator ∉ name')
    (hSuffix : word <:+ s.toList) (hSuffix' : word' <:+ s.toList) : word = word' := by
  have hShorter : ∀ {w w' n n' : List Char}, w = separator :: n → w' = separator :: n' →
      separator ∉ n' → w <:+ w' → w = w' := by
    rintro w w' n n' rfl rfl hNot hSub
    rcases List.suffix_cons_iff.mp hSub with hSame | hInside
    · exact hSame
    · exact absurd (hInside.subset List.mem_cons_self) hNot
  rcases Nat.le_total word.length word'.length with hLe | hLe
  · exact hShorter hWord hWord' hName' (List.suffix_of_suffix_length_le hSuffix hSuffix' hLe)
  · exact (hShorter hWord' hWord hName (List.suffix_of_suffix_length_le hSuffix' hSuffix hLe)).symm

/- The parts between the separators, at least one. -/
def splitChars (separator : Char) : List Char → List (List Char)
| [] => [[]]
| c :: cs =>
  if c = separator then [] :: splitChars separator cs
  else
    match splitChars separator cs with
    | [] => [[c]]
    | part :: parts => (c :: part) :: parts

def split (separator : Char) (s : String) : List String :=
  (splitChars separator s.toList).map String.ofList

variable {part : List Char}

theorem splitChars_of_not_mem (hNot : separator ∉ part) : splitChars separator part = [part] := by
  induction part with
  | nil => rfl
  | cons c cs ih =>
    rw [List.mem_cons, not_or] at hNot
    rw [splitChars, if_neg (Ne.symm hNot.1), ih hNot.2]

theorem splitChars_append (hNot : separator ∉ part) (rest : List Char) :
    splitChars separator (part ++ separator :: rest) = part :: splitChars separator rest := by
  induction part with
  | nil => exact if_pos rfl
  | cons c cs ih =>
    rw [List.mem_cons, not_or] at hNot
    rw [List.cons_append, splitChars, if_neg (Ne.symm hNot.1), ih hNot.2]

/- Decimal digits of a number below `2 ^ bits`. -/
def parseUint (bits : Nat) (s : String) : Option Nat :=
  let digits := s.toList
  if digits ≠ [] ∧ digits.all Char.isDigit then
    let n := digits.foldl (fun n c => 10 * n + (c.toNat - '0'.toNat)) 0
    if n < 2 ^ bits then some n else none
  else none

----
-- Header Keys
----

/- Capitals at the start and after every hyphen. -/
def canonicalChars (capital : Bool) : List Char → List Char
| [] => []
| c :: cs =>
  (if capital then c.toUpper else c.toLower) :: canonicalChars (c = '-') cs

def canonicalKey (key : String) : String := String.ofList (canonicalChars true key.toList)

variable (c : Char)

/- A capital is one of 26. -/
theorem toLower_cases : c.toLower = c ∨ ∃ n, 65 ≤ n ∧ n ≤ 90 ∧ c = Char.ofNat n := by
  by_cases hCapital : c.val ≥ 'A'.val ∧ c.val ≤ 'Z'.val
  · exact Or.inr ⟨c.toNat, hCapital.1, hCapital.2, (Char.ofNat_toNat c).symm⟩
  · refine Or.inl ?_
    unfold Char.toLower
    rw [dif_neg hCapital]

/- And so is a small letter. -/
theorem toUpper_cases : c.toUpper = c ∨ ∃ n, 97 ≤ n ∧ n ≤ 122 ∧ c = Char.ofNat n := by
  by_cases hSmall : 'a'.val ≤ c.val ∧ c.val ≤ 'z'.val
  · exact Or.inr ⟨c.toNat, hSmall.1, hSmall.2, (Char.ofNat_toNat c).symm⟩
  · refine Or.inl ?_
    unfold Char.toUpper
    rw [dif_neg hSmall]

theorem toLower_spec : c.toLower.toUpper = c.toUpper ∧
    c.toLower.toLower = c.toLower ∧ (c.toLower = '-' ↔ c = '-') := by
  rcases toLower_cases c with hSame | ⟨n, hLow, hHigh, rfl⟩
  · rw [hSame, hSame]
    exact ⟨rfl, rfl, Iff.rfl⟩
  · interval_cases n <;> decide

theorem toLower_toUpper : c.toUpper.toLower = c.toLower := by
  rcases toUpper_cases c with hSame | ⟨n, hLow, hHigh, rfl⟩
  · rw [hSame]
  · interval_cases n <;> decide

@[simp] theorem lower_lower (s : String) : lower (lower s) = lower s := by
  unfold lower
  rw [String.toList_ofList, List.map_map]
  congr 2
  funext c
  exact (toLower_spec c).2.1

theorem lower_append (s t : String) : lower (s ++ t) = lower s ++ lower t := by
  unfold lower
  rw [String.toList_append, List.map_append, String.ofList_append]

theorem canonicalChars_toLower (capital : Bool) (cs : List Char) :
    canonicalChars capital (cs.map Char.toLower) = canonicalChars capital cs := by
  induction cs generalizing capital with
  | nil => rfl
  | cons c cs ih =>
    rcases toLower_spec c with ⟨hUpper, hLower, hHyphen⟩
    rw [List.map_cons, canonicalChars, canonicalChars,
      hUpper, hLower, decide_eq_decide.mpr hHyphen, ih]

variable (key : String)

/- The canonical key does not depend on letter case. -/
theorem canonicalKey_lower : canonicalKey (lower key) = canonicalKey key := by
  unfold canonicalKey lower
  rw [String.toList_ofList, canonicalChars_toLower]

theorem map_toLower_canonicalChars (capital : Bool) (cs : List Char) :
    (canonicalChars capital cs).map Char.toLower = cs.map Char.toLower := by
  induction cs generalizing capital with
  | nil => rfl
  | cons c cs ih =>
    rw [canonicalChars, List.map_cons, List.map_cons, ih]
    cases capital with
    | false =>
      rw [if_neg Bool.false_ne_true, (toLower_spec c).2.1]
    | true => rw [if_pos rfl, toLower_toUpper]

@[simp] theorem lower_canonicalKey : lower (canonicalKey key) = lower key := by
  unfold canonicalKey lower
  rw [String.toList_ofList, map_toLower_canonicalChars]

@[simp] theorem canonicalKey_canonicalKey : canonicalKey (canonicalKey key) = canonicalKey key := by
  rw [← canonicalKey_lower, lower_canonicalKey, canonicalKey_lower]

/- Canonical keys are compared without regard to case. -/
theorem eq_of_equalFold {key key' : String} (hKey : canonicalKey key = key)
    (hKey' : canonicalKey key' = key') (hFold : equalFold key key' = true) : key = key' := by
  have hLower : lower key = lower key' := of_decide_eq_true hFold
  rw [← hKey, ← hKey', ← canonicalKey_lower key, hLower, canonicalKey_lower]

end Text
