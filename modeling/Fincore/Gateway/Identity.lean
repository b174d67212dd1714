import Fincore.Gateway.Chain

/-
  Who the services behind the gateway are told is calling.

  The middleware that checks the token puts the identity into headers, and the one behind it deletes
  them again. What is left under the names of the identity comes from fields of the client that the
  mux forwards under another name.

  Key definitions include:
    * `claimed`

  Main results:
    * `upstream_identity`
    * `upstream_identity_eq_iff`
    * `identity_received_iff`
-/

----
-- What The Chain Sends
----

namespace Fincore.Gateway

/- No field of the client's own is among the gateway's. -/
theorem forwarded_keys : ∀ key ∈ identityKeys, ∀ own ∈ "X-Fincore-LSN" :: strippedKeys,
    Text.canonicalKey ("Grpc-Metadata-" ++ key) ≠ Text.canonicalKey own := by
  decide +kernel

theorem forwarded_set {key own : String} (hKey : key ∈ identityKeys)
    (hOwn : own ∈ "X-Fincore-LSN" :: strippedKeys) (h : Header)
    (value : String) : (h.set own value).forwarded key = h.forwarded key := by
  unfold Header.forwarded
  rw [Header.values_set_of_ne (forwarded_keys key hKey own hOwn)]

theorem forwarded_del {key own : String} (hKey : key ∈ identityKeys)
    (hOwn : own ∈ "X-Fincore-LSN" :: strippedKeys) (h : Header) :
    (h.del own).forwarded key = h.forwarded key := by
  unfold Header.forwarded
  rw [Header.values_del_of_ne (forwarded_keys key hKey own hOwn)]

variable {key : String}

theorem forwarded_withIdentity (hKey : key ∈ identityKeys) (payload : TokenPayload) (h : Header) :
    (withIdentity payload h).forwarded key = h.forwarded key := by
  have hSet : ∀ (h : Header) (own value : String), own ∈ "X-Fincore-LSN" :: strippedKeys →
      (h.set own value).forwarded key = h.forwarded key :=
    fun h own value hOwn => forwarded_set hKey hOwn h value
  unfold withIdentity
  dsimp only
  split_ifs <;> simp (disch := decide) only [hSet]

variable {md : Metadata} {r : Request} {g : Config} {env : Env}

/- A request that gets through the mux. -/
theorem annotate_of_upstream (hSent : withChaos g (proxy g) env r = .upstream md) :
    annotate g.decodeBin r.header.fields = some md := by
  have hProxy : proxy g env r = .upstream md := by
    unfold withChaos at hSent
    split_ifs at hSent
    · exact hSent
    · exact hSent
  unfold proxy at hProxy
  split_ifs at hProxy
  unfold mux at hProxy
  split_ifs at hProxy
  split at hProxy
  · cases hProxy
  · rename_i md' hAnnotate
    cases hProxy
    exact hAnnotate

/- Behind the middleware that deletes the headers. -/
theorem upstream_of_stripped
    (hSent : stripUntrustedIdentityHeaders (withChaos g (proxy g))
    env r = .upstream md) (hKey : key ∈ identityKeys) :
    md.values key = r.header.forwarded key := by
  have hMux := annotate_of_upstream hSent
  have hCanonical : ∀ own ∈ strippedKeys, Text.canonicalKey own = own := by
    decide +kernel
  have hKept : ∀ field ∈
      (((r.header.del "X-Fincore-Subject").del "X-Fincore-Roles").del
      "X-Fincore-Permissions").fields, field.1 ∉ strippedKeys := by
    intro field hMem hOwn
    simp only [Header.mem_del] at hMem
    rcases hMem with ⟨⟨⟨_, hSubject⟩, hRoles⟩, hPermissions⟩
    rw [hCanonical "X-Fincore-Subject" (by decide)] at hSubject
    rw [hCanonical "X-Fincore-Roles" (by decide)] at hRoles
    rw [hCanonical "X-Fincore-Permissions" (by decide)] at hPermissions
    simp [strippedKeys, hSubject, hRoles, hPermissions] at hOwn
  rw [values_annotate hKept hMux hKey, forwarded_del hKey (by decide),
    forwarded_del hKey (by decide), forwarded_del hKey (by decide)]

/-
  The entries of the identity in the metadata of an RPC are those that the client has sent itself.
-/
theorem upstream_identity {ls : Limiters} (hSent : (g.serve ls env r).1 = .upstream md)
    (hKey : key ∈ identityKeys) : md.values key = r.header.forwarded key := by
  have hChain : g.chain env r = .upstream md := by
    unfold Config.serve withRateLimitByPath at hSent
    split_ifs at hSent
    dsimp only at hSent
    split_ifs at hSent
    exact hSent
  unfold Config.chain withJWTAuth at hChain
  split_ifs at hChain
  · exact upstream_of_stripped hChain hKey
  · split at hChain
    · cases hChain
    · rename_i payload _
      rw [upstream_of_stripped hChain hKey]
      exact forwarded_withIdentity hKey payload r.header

----
-- What The Services See
----

/-
  Of any two requests, with one token or with two, the services see the same identity exactly if the
  clients have sent the same values under the names that the matcher cuts down to those of the
  identity.
-/
theorem upstream_identity_eq_iff (g : Config) (ls ls' : Limiters)
    (env env' : Env) (r r' : Request) (md md' : Metadata)
    (hSent : (g.serve ls env r).1 = .upstream md)
    (hSent' : (g.serve ls' env' r').1 = .upstream md') :
    (∀ key ∈ identityKeys, md'.values key = md.values key) ↔ ∀ key ∈ identityKeys,
      r'.header.forwarded key = r.header.forwarded key := by
  constructor
  · intro hSame key hKey
    rw [← upstream_identity hSent hKey, ← upstream_identity hSent' hKey]
    exact hSame key hKey
  · intro hSame key hKey
    rw [upstream_identity hSent hKey, upstream_identity hSent' hKey]
    exact hSame key hKey

/- Headers under the gateway's own names get nowhere. -/
theorem spoofed_headers_dropped : ∃ md md',
      (Config.plain.serve .start ⟨0, false⟩ (.account [])).1 = .upstream md ∧
      (Config.plain.serve .start ⟨0, false⟩
      (.account [("X-Fincore-Subject", "mallory"),
      ("x-fincore-lsn", "9")])).1 = .upstream md' ∧ ∀ key ∈ identityKeys,
      md'.values key = md.values key := by
  have hSent : (Config.plain.serve .start ⟨0, false⟩ (.account [])).1 =
      .upstream [("authorization", "Bearer alice"), ("authorization", "Bearer alice")] :=
    Response.eq_upstream (by decide +kernel)
  have hSent' :
      (Config.plain.serve .start ⟨0, false⟩
      (.account [("X-Fincore-Subject", "mallory"), ("x-fincore-lsn", "9")])).1 =
      .upstream [("authorization", "Bearer alice"), ("authorization", "Bearer alice")] :=
    Response.eq_upstream (by decide +kernel)
  refine ⟨_, _, hSent, hSent', ?_⟩
  exact (upstream_identity_eq_iff _ _ _ _ _ _ _ _ _ hSent hSent').mpr (by decide +kernel)

/- One field in front of which the matcher drops its word. -/
theorem subject_forged : ∃ r r' : Request, ∃ md md', r'.path = r.path ∧ r'.method = r.method ∧
      r'.header.values "Authorization" = r.header.values "Authorization" ∧
      (Config.plain.serve .start ⟨0, false⟩ r).1 = .upstream md ∧
      (Config.plain.serve .start ⟨0, false⟩ r').1 = .upstream md' ∧
      md.values "x-fincore-subject" = [] ∧ md'.values "x-fincore-subject" = ["mallory"] := by
  refine ⟨.account [], .account [("grpc-metadata-x-fincore-subject", "mallory")],
    [("authorization", "Bearer alice"), ("authorization", "Bearer alice")],
    [("authorization", "Bearer alice"), ("authorization", "Bearer alice"),
      ("x-fincore-subject", "mallory")], rfl, rfl, ?_, ?_, ?_, ?_, ?_⟩
  · decide +kernel
  · exact Response.eq_upstream (by decide +kernel)
  · exact Response.eq_upstream (by decide +kernel)
  · decide +kernel
  · decide +kernel

/- The first value of the client's own under a key, or the empty text. -/
def claimed (r : Request) (key : String) : String := (r.header.forwarded key).headD ""

/-
  Whatever token has been verified: the services read its payload off the metadata exactly if the
  client has sent the same payload under the names that are forwarded.
-/
theorem identity_received_iff (g : Config) (ls : Limiters) (env : Env)
    (r : Request) (p : TokenPayload) (_hPrivate : hasAnyPrefix g.publicPrefixes r.path = false)
    (_hVerified : g.verifyToken env.now (bearerToken r) = some p)
    (hUser : trimSpace p.userID ≠ "") (md : Metadata)
    (hSent : (g.serve ls env r).1 = .upstream md) (allowed : String) :
    payloadFromGatewayHeaders allowed (some allowed) md = some p ↔
      trimSpace (claimed r "x-fincore-subject") = p.userID ∧
      splitCSV (claimed r "x-fincore-roles") = p.roles ∧
      splitCSV (claimed r "x-fincore-permissions") = p.permissions ∧
      parseLSN (claimed r "x-fincore-lsn") = p.lsn := by
  have hFirst : ∀ key ∈ identityKeys, firstMDValue md key = claimed r key := by
    intro key hKey
    unfold firstMDValue claimed
    rw [upstream_identity hSent hKey]
  unfold payloadFromGatewayHeaders
  rw [hFirst _ (by decide), hFirst _ (by decide), hFirst _ (by decide), hFirst _ (by decide)]
  rcases p with ⟨userID, roles, permissions, lsn⟩
  dsimp only at hUser ⊢
  constructor
  · intro hPayload
    split_ifs at hPayload
    simpa only [Option.some.injEq, TokenPayload.mk.injEq] using hPayload
  · rintro ⟨rfl, hRest⟩
    rw [trimSpace_trimSpace] at hUser
    rw [if_neg hUser, if_neg (not_not_intro rfl)]
    simpa only [Option.some.injEq, TokenPayload.mk.injEq, true_and] using hRest

/- A client that says about itself what its token says. -/
theorem identity_repeated : ∃ md,
      (Config.plain.serve .start ⟨0, false⟩
      (.account
      [("grpc-metadata-x-fincore-subject", "alice"), ("grpc-metadata-x-fincore-roles", "customer"),
      ("grpc-metadata-x-fincore-permissions", "account:read"),
      ("grpc-metadata-x-fincore-lsn", "7")])).1 = .upstream md ∧
      payloadFromGatewayHeaders "gateway" (some "gateway") md =
      some ⟨"alice", ["customer"], ["account:read"], 7⟩ := by
  refine ⟨[("authorization", "Bearer alice"), ("authorization", "Bearer alice"),
    ("x-fincore-subject", "alice"), ("x-fincore-roles", "customer"),
    ("x-fincore-permissions", "account:read"), ("x-fincore-lsn", "7")],
    Response.eq_upstream (by decide +kernel), ?_⟩
  exact (identity_received_iff Config.plain .start ⟨0, false⟩
    (.account
      [("grpc-metadata-x-fincore-subject", "alice"), ("grpc-metadata-x-fincore-roles", "customer"),
        ("grpc-metadata-x-fincore-permissions", "account:read"),
        ("grpc-metadata-x-fincore-lsn", "7")]) ⟨"alice", ["customer"], ["account:read"], 7⟩
    (by decide +kernel) (by decide +kernel) (by decide +kernel) _
    (Response.eq_upstream (by decide +kernel)) "gateway").mpr (by decide +kernel)

/- Everybody else arrives as nobody. -/
theorem identity_lost : ∃ md, hasAnyPrefix Config.plain.publicPrefixes
      (Request.account []).path = false ∧ Config.plain.verifyToken 0
      (bearerToken (.account [])) = some ⟨"alice", ["customer"], ["account:read"], 7⟩ ∧
      (Config.plain.serve .start ⟨0, false⟩ (.account [])).1 = .upstream md ∧
      payloadFromGatewayHeaders "gateway" (some "gateway") md = none := by
  refine ⟨[("authorization", "Bearer alice"), ("authorization", "Bearer alice")], ?_, ?_,
    Response.eq_upstream (by decide +kernel), ?_⟩
  · decide +kernel
  · decide +kernel
  · decide +kernel

end Fincore.Gateway
