import Fincore.Gateway.Headers
import Mathlib.Data.Rat.Defs
import Mathlib.Algebra.Order.Ring.Rat

/-
  `services/api-gateway`: the chain of handlers that `main` composes.

  A request meets the rate limiter first, then the check of its token, then the middleware that
  deletes the identity headers, and at last the mux. Tokens of a bucket are exact rationals;
  instants are nanoseconds.

  Key definitions include:
    * `TokenBucket` and `RateLimiter`
    * `withJWTAuth`, `stripUntrustedIdentityHeaders` and
      `withChaos`
    * `Gateway.chain`
    * `Gateway.serve`
    * `Gateway.serveAll`
-/

----
-- Requests
----

namespace Fincore.Gateway

structure Request where
  method : String
  path : String
  remoteAddr : String
  header : Header

/-
  The answers that the chain itself gives, and the calls it makes: an RPC with its metadata, or a
  request to the identity service with the headers it has.
-/
inductive Response where
  | ok
  | redirect
  | badRequest
  | unauthorized (body : String)
  | tooManyRequests
  | internalServerError
  | proxied (header : Header)
  | upstream (md : Metadata)

/- What handling takes from the process: the clock, and
  whether `rand.Float32` falls below 0.02. -/
structure Env where
  now : Time
  partition : Bool

abbrev Handler := Env → Request → Response

----
-- Rate Limits
----

/- `tokenBucket` -/
structure TokenBucket where
  capacity : ℚ
  rate : ℚ
  tokens : ℚ
  last : Time

/- `newTokenBucket` -/
def newTokenBucket (reqPerSec : ℚ) (burst : Int) (now : Time) : TokenBucket :=
  let reqPerSec := if reqPerSec ≤ 0 then 20 else reqPerSec
  let burst := if burst ≤ 0 then 40 else burst
  ⟨burst, reqPerSec, burst, now⟩

/- `tokenBucket.allow` -/
def TokenBucket.allow (b : TokenBucket) (now : Time) : Bool × TokenBucket :=
  let elapsed : ℚ := ((now - b.last : Int) : ℚ) / 1000000000
  let tokens := min b.capacity (b.tokens + elapsed * b.rate)
  if tokens < 1 then
    (false, { b with tokens := tokens, last := now })
  else
    (true, { b with tokens := tokens - 1, last := now })

/- `rateLimiter` -/
structure RateLimiter where
  reqPerSec : ℚ
  burst : Int
  buckets : String → Option TokenBucket

def newRateLimiter (reqPerSec : ℚ) (burst : Int) : RateLimiter := ⟨reqPerSec, burst, fun _ => none⟩

/- `rateLimiter.bucketFor` and `allow` on what it returns -/
def RateLimiter.allow (l : RateLimiter) (key : String) (now : Time) : Bool × RateLimiter :=
  let bucket := (l.buckets key).getD (newTokenBucket l.reqPerSec l.burst now)
  let (allowed, bucket) := bucket.allow now
  (allowed, { l with
    buckets := fun k =>
      if k = key then some bucket else l.buckets k })

/- The key of `withRateLimit`. -/
def limitKey (r : Request) : String :=
  let subject := trimSpace (r.header.get "X-Fincore-Subject")
  let remote := trimSpace r.remoteAddr
  if subject ≠ "" then subject
  else if remote ≠ "" then remote
  else "anonymous"

/- The two limiters of `main`. -/
structure Limiters where
  lim : RateLimiter
  strict : RateLimiter

def Limiters.start : Limiters := ⟨newRateLimiter 20 40, newRateLimiter 5 10⟩

def strictPrefixes : List String := ["/oauth/token", "/v1/auth/login", "/v1/auth/register"]

def hasAnyPrefix (prefixes : List String) (path : String) : Bool :=
  prefixes.any (fun p =>
    p ≠ "" && Text.hasPrefix p path)

/- The limiter's part of `withRateLimitByPath`. -/
def Limiters.allow (ls : Limiters) (r : Request) (now : Time) : Bool × Limiters :=
  if hasAnyPrefix strictPrefixes r.path then
    let (allowed, strict) := ls.strict.allow (limitKey r) now
    (allowed, { ls with strict := strict })
  else
    let (allowed, lim) := ls.lim.allow (limitKey r) now
    (allowed, { ls with lim := lim })

/- `withRateLimitByPath` -/
def withRateLimitByPath (next : Handler) (ls : Limiters) (env : Env)
    (r : Request) : Response × Limiters :=
  let (allowed, ls) := ls.allow r env.now
  if allowed then (next env r, ls) else (.tooManyRequests, ls)

----
-- The Chain
----

/-
  The environment of `main`, the verifier of the tokens, and what the muxes decide: the clean form
  of a path, whether an RPC is found for a request that can be read, and how binary metadata is
  decoded.
-/
structure Config where
  publicPrefixes : List String
  enableChaos : Bool
  verifyToken : Time → String → Option TokenPayload
  cleanPath : String → String
  accepts : Request → Bool
  decodeBin : String → Option String

/- `parsePublicPrefixesEnv` -/
def parsePublicPrefixesEnv (value : String) : List String :=
  let v := trimSpace value
  let v :=
    if v = "" then
      "/.well-known,/oauth/,/v1/auth/register," ++
        "/v1/auth/login,/v1/auth/refresh,/v1/auth/logout," ++ "/v1/auth/logout_all"
    else v
  ((Text.split ',' v).map trimSpace).filter (fun p => p ≠ "")

/- `withChaos`; a delay changes nothing else. -/
def withChaos (g : Config) (next : Handler) : Handler := fun env r =>
  if g.enableChaos = false ∧ r.header.get "X-Chaos-Enable" ≠ "true" then
    next env r
  else if env.partition then .internalServerError
  else next env r

/- `stripUntrustedIdentityHeaders` -/
def stripUntrustedIdentityHeaders (next : Handler) : Handler := fun env r =>
  next env { r with
    header :=
      ((r.header.del "X-Fincore-Subject").del "X-Fincore-Roles").del "X-Fincore-Permissions" }

/- The bearer token of a request, or the empty text. -/
def bearerToken (r : Request) : String :=
  let v := trimSpace (r.header.get "Authorization")
  if Text.hasPrefix "Bearer " v then
    trimSpace (Text.dropPrefix "Bearer " v)
  else ""

/- The headers that `withJWTAuth` sets. -/
def withIdentity (payload : TokenPayload) (h : Header) : Header :=
  let h :=
    if payload.lsn ≠ 0 then
      h.set "X-Fincore-LSN" (toString payload.lsn.toNat)
    else h
  let h := h.set "X-Fincore-Subject" payload.userID
  let h :=
    if payload.roles ≠ [] then
      h.set "X-Fincore-Roles" (",".intercalate payload.roles)
    else h
  if payload.permissions ≠ [] then
    h.set "X-Fincore-Permissions" (",".intercalate payload.permissions)
  else h

/- `withJWTAuth` -/
def withJWTAuth (g : Config) (next : Handler) : Handler := fun env r =>
  if hasAnyPrefix g.publicPrefixes r.path then next env r
  else if bearerToken r = "" then
    .unauthorized "missing authorization"
  else
    match g.verifyToken env.now (bearerToken r) with
    | none => .unauthorized "invalid token"
    | some payload =>
      next env { r with header := withIdentity payload r.header }

/- The mux of the RPCs. -/
def mux (g : Config) : Handler := fun _ r =>
  if g.accepts r then
    match annotate g.decodeBin r.header.fields with
    | none => .badRequest
    | some md => .upstream md
  else .badRequest

/- The mux in front of it. -/
def proxy (g : Config) : Handler := fun env r =>
  if r.path = "/.well-known" then .redirect
  else if Text.hasPrefix "/.well-known/" r.path then
    .proxied r.header
  else mux g env r

/- The handlers behind the limiters, as `main` nests them. -/
def Config.chain (g : Config) : Handler :=
  withJWTAuth g (stripUntrustedIdentityHeaders (withChaos g (proxy g)))

/- The handler that `main` serves. -/
def Config.serve (g : Config) (ls : Limiters) (env : Env) (r : Request) : Response × Limiters :=
  if g.cleanPath r.path ≠ r.path then (.redirect, ls)
  else if r.path = "/healthz" then (.ok, ls)
  else withRateLimitByPath g.chain ls env r

/- Requests one after the other. -/
def Config.serveAll (g : Config) : Limiters → List (Env × Request) → List Response
| _, [] => []
| ls, (env, r) :: rest =>
  (g.serve ls env r).1 :: g.serveAll (g.serve ls env r).2 rest

/- The metadata of the RPC, if the answer comes from one. -/
def Response.metadata : Response → Option Metadata
| .upstream md => some md
| _ => none

theorem Response.eq_upstream {response : Response} {md : Metadata}
    (hMetadata : response.metadata = some md) : response = .upstream md := by
  cases response with
  | upstream md' => rw [Option.some.inj hMetadata]
  | _ => cases hMetadata

/- A gateway that takes the token for the user. -/
def Config.plain : Config where
  publicPrefixes := parsePublicPrefixesEnv ""
  enableChaos := false
  verifyToken := fun _ token =>
    some ⟨token, ["customer"], ["account:read"], 7⟩
  cleanPath := id
  accepts := fun _ => true
  decodeBin := some

/- A request for an account, with more fields. -/
def Request.account (fields : List (String × String)) : Request :=
  ⟨"GET", "/v1/accounts/a", "10.0.0.1:5000",
    .ofFields (("authorization", "Bearer alice") :: fields)⟩

end Fincore.Gateway
