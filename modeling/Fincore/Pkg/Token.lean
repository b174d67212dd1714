import Fincore.Auth.Server
import Fincore.Pkg.Jwks

/-
  `pkg/security/token.go` and `ed25519_jwt.go`: access tokens that are signed by one key and read by
  whoever looks it up. Instants are cut to seconds on the way.

  Key definitions include:
    * `Library`
    * `Ed25519JWTMaker` and `verifyEd25519JWT`

  Main results:
    * `created_token_verifies`
-/

namespace Fincore.Token

/- `security.TokenPayload` with its LSN -/
structure TokenPayload extends Auth.TokenPayload where
  lsn : UInt64

/- `jwtClaims`; the dates are in seconds. -/
structure Claims where
  roles : List String
  permissions : List String
  lsn : UInt64
  subject : String
  issuedAt : Option Int
  expiresAt : Option Int
  notBefore : Option Int

/- A token taken apart, with the text that is signed. -/
structure Parsed where
  alg : String
  kid : String
  claims : Claims
  text : String
  signature : List UInt8

/- `golang-jwt` for EdDSA tokens with a `kid`, and `ed25519` -/
structure Library where
  signingString : String → Claims → String
  compact : String → List UInt8 → String
  parse : String → Option Parsed
  sign : List UInt8 → String → List UInt8
  publicKey : List UInt8 → Jwks.PublicKey
  verify : Jwks.PublicKey → String → List UInt8 → Bool
  parse_compact : ∀ kid claims signature, parse (compact (signingString kid claims) signature) =
    some ⟨"EdDSA", kid, claims, signingString kid claims, signature⟩
  verify_sign : ∀ priv text, verify (publicKey priv) text (sign priv text) = true

/- `NewEd25519JWTMaker` -/
structure Ed25519JWTMaker where
  kid : String
  priv : List UInt8
  kid_ne : kid ≠ ""
  size : priv.length = 64

variable (lib : Library) (maker : Ed25519JWTMaker)

/- `jwt.NewNumericDate` -/
def numericDate (t : Time) : Int := t / 1000000000

def TokenPayload.claims (p : TokenPayload) : Claims :=
  ⟨p.roles, p.permissions, p.lsn, p.userID, some (numericDate p.issuedAt),
    some (numericDate p.expiredAt), none⟩

/- `Ed25519JWTMaker.CreateToken` -/
def Ed25519JWTMaker.createToken (p : TokenPayload) : String :=
  let text := lib.signingString maker.kid p.claims
  lib.compact text (lib.sign maker.priv text)

/- `verifyEd25519JWT`; claims are validated after the signature. -/
def verifyEd25519JWT (lookup : String → Option Jwks.PublicKey) (now : Time) (token : String) :
    Except Auth.TokenError TokenPayload :=
  match lib.parse token with
  | none => .error .invalid
  | some ⟨alg, kid, claims, text, signature⟩ =>
    if alg ≠ "EdDSA" then .error .invalid
    else if (lookup kid).all (fun pub => !lib.verify pub text signature) then .error .invalid
    else if claims.expiresAt.any (fun exp => exp * 1000000000 ≤ now) then .error .expired
    else if claims.notBefore.any (fun nbf => now < nbf * 1000000000) then .error .invalid
    else if claims.subject = "" then .error .invalid
    else
      match claims.issuedAt, claims.expiresAt with
      | some iat, some exp =>
        .ok ⟨⟨claims.subject, claims.roles, claims.permissions, iat * 1000000000,
          exp * 1000000000⟩, claims.lsn⟩
      | _, _ => .error .invalid

/- `Ed25519JWTMaker.VerifyToken` -/
def Ed25519JWTMaker.verifyToken : Time → String → Except Auth.TokenError TokenPayload :=
  verifyEd25519JWT lib (fun kid =>
    if kid ≠ maker.kid then none else some (lib.publicKey maker.priv))

/- The payload that is read back. -/
def TokenPayload.truncated (p : TokenPayload) : TokenPayload :=
  { p with
    issuedAt := numericDate p.issuedAt * 1000000000
    expiredAt := numericDate p.expiredAt * 1000000000 }

/-
  A created token has expired from the whole second of its end on. Until then it gives back its
  payload, if that names a user.
-/
theorem created_token_verifies (p : TokenPayload) (now : Time) :
    maker.verifyToken lib now (maker.createToken lib p) =
      if p.truncated.expiredAt ≤ now then .error .expired
      else if p.userID = "" then .error .invalid
      else .ok p.truncated := by
  unfold Ed25519JWTMaker.verifyToken verifyEd25519JWT Ed25519JWTMaker.createToken
  rw [lib.parse_compact]
  simp only [ne_eq, not_true_eq_false, if_false, Option.all_some, lib.verify_sign, Bool.not_true,
    Bool.false_eq_true, TokenPayload.claims, Option.any_some, Option.any_none, decide_eq_true_eq]
  rfl

end Fincore.Token
