import Fincore.Lib.Base64
import Fincore.Lib.Text
import Fincore.Pkg.Money

/-
  `pkg/security/password_argon2id.go`: how the hash of a password is written and read.

  A hash is read with `fmt.Sscanf`, which takes any numbers that fit and does not mind what comes
  after them. The hash function panics if it is told to make no pass or to use no thread, and
  nothing in between looks for that.

  Key definitions include:
    * `scanUint` and `scanInt`
    * `parseArgon2idHash`
    * `Argon2`
    * `Argon2.hashPassword` and `Argon2.verifyPassword`
    * `NamesZero`

  Main results:
    * `parse_ok_iff` and `parse_format`
    * `hash_round_trip`
    * `verify_returns_iff`
-/

----
-- Scanning
----

namespace Fincore.Password

/- `SkipSpace` of `fmt`; a newline is an error -/
def skipSpace : List Char → Option (List Char)
| [] => some []
| c :: cs =>
  if c = '\n' then none
  else if isSpace c then skipSpace cs
  else some (c :: cs)

/- What a format has outside its verbs. -/
def literal (word : String) (input : List Char) : Option (List Char) :=
  if word.toList.isPrefixOf input then some (input.drop word.length) else none

/- `scanNumber`, with its digits read -/
def scanNumber (input : List Char) : Option (Nat × List Char) :=
  match input.takeWhile Char.isDigit with
  | [] => none
  | digits =>
    some (digits.foldl (fun n c => 10 * n + (c.toNat - '0'.toNat)) 0, input.dropWhile Char.isDigit)

/- `%d` for an unsigned integer of so many bits -/
def scanUint (bits : Nat) (input : List Char) : Option (Nat × List Char) := do
  let (n, rest) ← scanNumber (← skipSpace input)
  if n < 2 ^ bits then some (n, rest) else none

/- `%d` for an `int` -/
def scanInt (input : List Char) : Option (Int × List Char) := do
  match ← skipSpace input with
  | '-' :: digits =>
    let (n, rest) ← scanNumber digits
    if n ≤ 2 ^ 63 then some (-n, rest) else none
  | '+' :: digits =>
    let (n, rest) ← scanNumber digits
    if n < 2 ^ 63 then some (n, rest) else none
  | digits =>
    let (n, rest) ← scanNumber digits
    if n < 2 ^ 63 then some (n, rest) else none

----
-- Hashes
----

/- `argon2idParams` -/
structure Params where
  time : Nat
  memory : Nat
  threads : Nat
  deriving DecidableEq

/- `argon2idTime`, `argon2idMemory` and `argon2idThreads` -/
def current : Params := ⟨3, 64 * 1024, 2⟩

def argon2idKeyLen : Nat := 32

/- `argon2.Version` -/
def argon2Version : Nat := 19

/- `Sscanf` of `v=%d` -/
def scanVersion (s : String) : Option Int := do
  let (version, _) ← scanInt (← literal "v=" s.toList)
  return version

/- `Sscanf` of `m=%d,t=%d,p=%d` -/
def scanParams (s : String) : Option Params := do
  let (memory, rest) ← scanUint 32 (← literal "m=" s.toList)
  let (time, rest) ← scanUint 32 (← literal ",t=" rest)
  let (threads, _) ← scanUint 8 (← literal ",p=" rest)
  return ⟨time, memory, threads⟩

/- `parseArgon2idHash` -/
def parseArgon2idHash (encoded : String) : Except String (Params × List UInt8 × List UInt8) :=
  match Text.split '$' encoded with
  | [_, algorithm, version, params, salt, hash] =>
    if algorithm ≠ "argon2id" then .error "invalid hash algorithm"
    else
      match scanVersion version with
      | none => .error "invalid hash version"
      | some v =>
        if v ≠ argon2Version then .error "incompatible hash version"
        else
          match scanParams params with
          | none => .error "invalid hash params"
          | some params =>
            match Base64.decode salt with
            | none => .error "invalid salt encoding"
            | some salt =>
              match Base64.decode hash with
              | none => .error "invalid hash encoding"
              | some hash =>
                if hash = [] then .error "invalid hash length" else .ok (params, salt, hash)
  | _ => .error "invalid hash format"

/- The text that `HashPassword` formats. -/
def format (salt hash : List UInt8) : String :=
  "$argon2id$v=" ++ toString argon2Version ++ "$m=" ++ toString current.memory ++ ",t=" ++
    toString current.time ++ ",p=" ++ toString current.threads ++ "$" ++ Base64.encode salt ++
    "$" ++ Base64.encode hash

/- The function `argon2.IDKey`; its key is as long as told. -/
structure Argon2 where
  idKey : String → List UInt8 → Params → Nat → List UInt8
  length_idKey : ∀ password salt params keyLen, (idKey password salt params keyLen).length = keyLen

/- A call of it; none is a panic. -/
def Argon2.call (a : Argon2) (password : String) (salt : List UInt8) (params : Params)
    (keyLen : Nat) : Option (List UInt8) :=
  if params.time < 1 ∨ params.threads < 1 then none else some (a.idKey password salt params keyLen)

/- A function panics or returns. -/
inductive Outcome (α : Type) where
  | panics
  | returns (r : Except String α)
  deriving DecidableEq

/- `HashPassword`, with the salt that it draws -/
def Argon2.hashPassword (a : Argon2) (password : String) (draw : Except String (List UInt8)) :
    Outcome String :=
  if trimSpace password = "" then .returns (.error "password required")
  else
    match draw with
    | .error e => .returns (.error ("read salt: " ++ e))
    | .ok salt =>
      match a.call password salt current argon2idKeyLen with
      | none => .panics
      | some hash => .returns (.ok (format salt hash))

/- `VerifyPassword` -/
def Argon2.verifyPassword (a : Argon2) (password encodedHash : String) : Outcome Bool :=
  if trimSpace password = "" then .returns (.error "password required")
  else if trimSpace encodedHash = "" then .returns (.error "encoded hash required")
  else
    match parseArgon2idHash encodedHash with
    | .error e => .returns (.error e)
    | .ok (params, salt, expectedHash) =>
      match a.call password salt params expectedHash.length with
      | none => .panics
      | some actualHash => .returns (.ok (decide (actualHash = expectedHash)))

----
-- Reading What Was Written
----

variable {params : Params} {salt hash : List UInt8} {encoded : String}

/- The parts of a hash that is read. -/
theorem parse_ok_iff : parseArgon2idHash encoded = .ok (params, salt, hash) ↔
    ∃ first v p s h, Text.split '$' encoded = [first, "argon2id", v, p, s, h] ∧
    scanVersion v = some (argon2Version : Int) ∧ scanParams p = some params ∧
    Base64.decode s = some salt ∧ Base64.decode h = some hash ∧ hash ≠ [] := by
  constructor
  · intro hOk
    unfold parseArgon2idHash at hOk
    split at hOk
    · next first algorithm v p s h hParts =>
      split_ifs at hOk with hAlgorithm
      rw [not_not] at hAlgorithm
      split at hOk
      · cases hOk
      · next version hVersion =>
        split_ifs at hOk with hSame
        split at hOk
        · cases hOk
        · next hParams =>
          split at hOk
          · cases hOk
          · next hSalt =>
            split at hOk
            · cases hOk
            · next hHash =>
              split_ifs at hOk with hEmpty
              cases hOk
              rw [hAlgorithm] at hParts
              rw [not_not.mp hSame] at hVersion
              exact ⟨first, v, p, s, h, hParts, hVersion, hParams, hSalt, hHash, hEmpty⟩
    · cases hOk
  · rintro ⟨first, v, p, s, h, hParts, hVersion, hParams, hSalt, hHash, hNonempty⟩
    unfold parseArgon2idHash
    rw [hParts]
    dsimp only
    rw [if_neg (not_not.mpr rfl), hVersion]
    dsimp only
    rw [if_neg (not_not.mpr rfl), hParams]
    dsimp only
    rw [hSalt, hHash]
    dsimp only
    rw [if_neg hNonempty]

theorem split_format (salt hash : List UInt8) : Text.split '$' (format salt hash) =
    ["", "argon2id", "v=19", "m=65536,t=3,p=2", Base64.encode salt, Base64.encode hash] := by
  have hPlain : ∀ bs, '$' ∉ (Base64.encode bs).toList := Base64.not_mem_encode (by decide +kernel)
  have hHead : ("$argon2id$v=" ++ toString argon2Version ++ "$m=" ++ toString current.memory ++
      ",t=" ++ toString current.time ++ ",p=" ++ toString current.threads ++ "$").toList =
      [] ++ '$' :: ("argon2id".toList ++ '$' :: ("v=19".toList ++
      '$' :: ("m=65536,t=3,p=2".toList ++ ['$']))) := by
    decide +kernel
  unfold Text.split format
  rw [String.toList_append, String.toList_append, String.toList_append, hHead]
  simp only [List.append_assoc, List.cons_append, List.nil_append]
  rw [Text.splitChars, if_pos rfl, Text.splitChars_append (by decide +kernel),
    Text.splitChars_append (by decide +kernel), Text.splitChars_append (by decide +kernel)]
  show _ :: _ :: _ :: _ :: (Text.splitChars '$' ((Base64.encode salt).toList ++
    '$' :: (Base64.encode hash).toList)).map String.ofList = _
  rw [Text.splitChars_append (hPlain salt), Text.splitChars_of_not_mem (hPlain hash)]
  simp only [List.map_cons, List.map_nil, String.ofList_toList]

theorem parse_format (salt : List UInt8) (hNonempty : hash ≠ []) :
    parseArgon2idHash (format salt hash) = .ok (current, salt, hash) :=
  parse_ok_iff.mpr ⟨_, _, _, _, _, split_format salt hash, by decide +kernel, by decide +kernel,
    Base64.decode_encode salt, Base64.decode_encode hash, hNonempty⟩

theorem format_not_blank (salt hash : List UInt8) : trimSpace (format salt hash) ≠ "" := by
  refine trimSpace_ne_empty (c := '$') ?_ (by decide)
  unfold format
  rw [String.toList_append, String.toList_append]
  exact List.mem_append_left _ (List.mem_append_right _ (by decide))

/-
  A hash is read as it was written, and a password verifies against the hash of another one if their
  keys are the same.
-/
theorem hash_round_trip (a : Argon2) (salt key : List UInt8) (hKey : key.length = 32)
    (p q : String) (hP : trimSpace p ≠ "") (hQ : trimSpace q ≠ "") :
    parseArgon2idHash (format salt key) = .ok (current, salt, key) ∧
      a.hashPassword q (.ok salt) = .returns (.ok (format salt (a.idKey q salt current 32))) ∧
      a.verifyPassword p (format salt (a.idKey q salt current 32)) =
      .returns (.ok (decide (a.idKey p salt current 32 = a.idKey q salt current 32))) := by
  have hParse : ∀ key : List UInt8, key.length = 32 →
      parseArgon2idHash (format salt key) = .ok (current, salt, key) := by
    intro key hLength
    refine parse_format salt ?_
    rintro rfl
    cases hLength
  refine ⟨hParse key hKey, ?_, ?_⟩
  · unfold Argon2.hashPassword
    rw [if_neg hQ]
    rfl
  · unfold Argon2.verifyPassword
    rw [if_neg hP, if_neg (format_not_blank _ _), hParse _ (a.length_idKey ..)]
    dsimp only
    rw [a.length_idKey]
    rfl

----
-- Hashes That Make It Panic
----

/- A text that reads as a hash with no pass or no thread. -/
def NamesZero (encoded : String) : Prop :=
  ∃ first v p s h params, Text.split '$' encoded = [first, "argon2id", v, p, s, h] ∧
    scanVersion v = some (argon2Version : Int) ∧ scanParams p = some params ∧
    (params.time < 1 ∨ params.threads < 1) ∧ (∃ salt, Base64.decode s = some salt) ∧
    ∃ hash, Base64.decode h = some hash ∧ hash ≠ []

theorem namesZero_iff {encoded : String} : NamesZero encoded ↔ ∃ params salt hash,
    parseArgon2idHash encoded = .ok (params, salt, hash) ∧
    (params.time < 1 ∨ params.threads < 1) := by
  constructor
  · rintro ⟨first, v, p, s, h, params, hParts, hVersion, hParams, hZero, ⟨salt, hSalt⟩,
      hash, hHash, hNonempty⟩
    exact ⟨params, salt, hash, parse_ok_iff.mpr
      ⟨first, v, p, s, h, hParts, hVersion, hParams, hSalt, hHash, hNonempty⟩, hZero⟩
  · rintro ⟨params, salt, hash, hOk, hZero⟩
    rcases parse_ok_iff.mp hOk with
      ⟨first, v, p, s, h, hParts, hVersion, hParams, hSalt, hHash, hNonempty⟩
    exact ⟨first, v, p, s, h, params, hParts, hVersion, hParams, hZero, ⟨salt, hSalt⟩,
      hash, hHash, hNonempty⟩

/- A check returns unless it gets as far as such a hash. -/
theorem verify_returns_iff (a : Argon2) (password encodedHash : String) :
    (∃ r, a.verifyPassword password encodedHash = .returns r) ↔
      trimSpace password = "" ∨ trimSpace encodedHash = "" ∨ ¬ NamesZero encodedHash := by
  unfold Argon2.verifyPassword
  by_cases hPassword : trimSpace password = ""
  · rw [if_pos hPassword]
    exact iff_of_true ⟨_, rfl⟩ (Or.inl hPassword)
  by_cases hEncoded : trimSpace encodedHash = ""
  · rw [if_neg hPassword, if_pos hEncoded]
    exact iff_of_true ⟨_, rfl⟩ (Or.inr (Or.inl hEncoded))
  rw [if_neg hPassword, if_neg hEncoded, or_iff_right hPassword, or_iff_right hEncoded,
    namesZero_iff]
  cases hParse : parseArgon2idHash encodedHash with
  | error e =>
    refine iff_of_true ⟨_, rfl⟩ ?_
    rintro ⟨params, salt, hash, hOk, _⟩
    cases hOk
  | ok parsed =>
    rcases parsed with ⟨params, salt, hash⟩
    dsimp only
    unfold Argon2.call
    by_cases hZero : params.time < 1 ∨ params.threads < 1
    · rw [if_pos hZero]
      exact iff_of_false (fun ⟨_, hReturns⟩ => nomatch hReturns)
        (not_not.mpr ⟨params, salt, hash, rfl, hZero⟩)
    · rw [if_neg hZero]
      refine iff_of_true ⟨_, rfl⟩ ?_
      rintro ⟨params', salt', hash', hOk, hZero'⟩
      cases hOk
      exact hZero hZero'

/- A key that shows the password. -/
def plain : Argon2 where
  idKey := fun password _ _ keyLen => List.replicate keyLen (UInt8.ofNat password.length)
  length_idKey := fun _ _ _ _ => List.length_replicate

/- A longer password has another key. -/
theorem longer_password_refused : plain.hashPassword "secret" (.ok [1, 2]) =
      .returns (.ok (format [1, 2] (plain.idKey "secret" [1, 2] current 32))) ∧
      plain.verifyPassword "longer secret" (format [1, 2] (plain.idKey "secret" [1, 2] current 32)) =
      .returns (.ok false) := by
  rcases hash_round_trip plain [1, 2] (List.replicate 32 6) rfl "longer secret" "secret"
    (by decide +kernel) (by decide +kernel) with ⟨_, hHash, hVerify⟩
  exact ⟨hHash, hVerify.trans (by decide +kernel)⟩

/- A stored hash whose number of passes is zero. -/
theorem zero_time_panics : plain.verifyPassword "secret"
      "$argon2id$v=19$m=65536,t=0,p=2$c2FsdA$a2V5" = .panics := by
  decide +kernel

end Fincore.Password
