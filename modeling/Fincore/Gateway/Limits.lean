import Fincore.Gateway.Chain

/-
  Which requests the gateway turns away.

  The limiters stand in front of everything else and pick a bucket by a header that nobody has
  checked. Two runs that pick the same buckets at the same times turn away the same requests,
  whatever else their headers say.

  Key definitions include:
    * `Response.rejected`
    * `SameLimits`

  Main results:
    * `serve_sameLimits`
    * `rejections_eq`
-/

----
-- Two Runs
----

namespace Fincore.Gateway

/- Answered with 429. -/
def Response.rejected : Response → Bool
| .tooManyRequests => true
| _ => false

/- The requests differ in nothing that a limiter reads. -/
structure SameLimits (call call' : Env × Request) : Prop where
  now : call'.1.now = call.1.now
  path : call'.2.path = call.2.path
  key : limitKey call'.2 = limitKey call.2

instance (call call' : Env × Request) : Decidable (SameLimits call call') :=
  decidable_of_iff
    (call'.1.now = call.1.now ∧ call'.2.path = call.2.path ∧ limitKey call'.2 = limitKey call.2)
    ⟨fun h => ⟨h.1, h.2.1, h.2.2⟩, fun h => ⟨h.now, h.path, h.key⟩⟩

/- Behind the limiters nothing is answered with 429. -/
theorem chain_not_rejected (g : Config) (env : Env) (r : Request) :
    (g.chain env r).rejected = false := by
  have hMux : ∀ env r, (mux g env r).rejected = false := by
    intro env r
    unfold mux
    split
    · split
      · rfl
      · rfl
    · rfl
  have hProxy : ∀ env r, (proxy g env r).rejected = false := by
    intro env r
    unfold proxy
    split_ifs
    · rfl
    · rfl
    · exact hMux env r
  have hStripped : ∀ env r, (stripUntrustedIdentityHeaders (withChaos g (proxy g)) env r).rejected =
      false := by
    intro env r
    unfold stripUntrustedIdentityHeaders withChaos
    split_ifs
    · exact hProxy _ _
    · rfl
    · exact hProxy _ _
  unfold Config.chain withJWTAuth
  split_ifs
  · exact hStripped env r
  · rfl
  · split
    · rfl
    · exact hStripped env _

variable {call call' : Env × Request}

theorem allow_sameLimits (hSame : SameLimits call call') (ls : Limiters) :
    ls.allow call'.2 call'.1.now = ls.allow call.2 call.1.now := by
  unfold Limiters.allow
  rw [hSame.path, hSame.key, hSame.now]

/- One request, and the limiters it leaves behind. -/
theorem serve_sameLimits (g : Config)
    (hSame : SameLimits call call') (ls : Limiters) : (g.serve ls call'.1 call'.2).1.rejected =
    (g.serve ls call.1 call.2).1.rejected ∧ (g.serve ls call'.1 call'.2).2 =
    (g.serve ls call.1 call.2).2 := by
  unfold Config.serve withRateLimitByPath
  rw [hSame.path, allow_sameLimits hSame]
  split_ifs
  · exact ⟨rfl, rfl⟩
  · exact ⟨rfl, rfl⟩
  · dsimp only
    split_ifs
    · exact ⟨(chain_not_rejected ..).trans (chain_not_rejected ..).symm, rfl⟩
    · exact ⟨rfl, rfl⟩

/-
  Requests that come at the same times for the same paths, with headers and remote addresses that
  name the same buckets, are turned away or not as one, in runs of any length from any limiters.
-/
theorem rejections_eq (g : Config) (ls : Limiters) (calls calls' : List (Env × Request))
    (hSame : List.Forall₂ SameLimits calls calls') : (g.serveAll ls calls').map Response.rejected =
      (g.serveAll ls calls).map Response.rejected := by
  induction hSame generalizing ls with
  | nil => rfl
  | cons hFirst hRest ih =>
    rcases serve_sameLimits g hFirst ls with ⟨hRejected, hLimiters⟩
    rw [Config.serveAll, Config.serveAll, List.map_cons, List.map_cons, hRejected, hLimiters, ih]

/- A login from one address, with more fields. -/
def Request.login (fields : List (String × String)) : Request :=
  ⟨"POST", "/v1/auth/login", "10.0.0.1:5000", .ofFields fields⟩

/- Logins at one instant. -/
def logins (fields : List (List (String × String))) : List (Env × Request) :=
  fields.map (fun fields => (⟨0, false⟩, .login fields))

/- Another role, and a subject that is blank. -/
theorem blank_subject_same_rejections :
    (Config.plain.serveAll .start
      (logins [[("X-Fincore-Roles", "admin")],
      [("X-Fincore-Subject", " ")]])).map Response.rejected =
      (Config.plain.serveAll .start (logins [[], []])).map Response.rejected :=
  rejections_eq Config.plain .start _ _ (.cons (by decide +kernel) (.cons (by decide +kernel) .nil))

/- Eleven logins, and the same with a subject for each. -/
theorem limit_evaded : (Config.plain.serveAll .start (logins (List.replicate 11 []))).map
      Response.rejected = List.replicate 10 false ++ [true] ∧
      (Config.plain.serveAll .start
      (logins ((List.range 11).map (fun n =>
      [("X-Fincore-Subject", toString n)])))).map Response.rejected =
      List.replicate 11 false := by
  constructor
  · decide +kernel
  · decide +kernel

end Fincore.Gateway
