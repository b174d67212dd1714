import Fincore.Gateway.Headers
import Fincore.Lib.Table

/-
  `UnaryAuthzInterceptor` of `pkg/security/middleware`.

  A table says which methods need an identity, and which permission. It is a map, so the loop over
  it comes by its entries in any order; as long as its keys name the last segment of a method, at
  most one of them fits. The identity is that of a bearer token, or the one that the gateway has
  written into the metadata.

  Key definitions include:
    * `Middleware` and `CallContext`
    * `Middleware.identify`
    * `unaryAuthzInterceptor`
    * `Middleware.Presents` and `Middleware.Asserts`
    * `SuffixTable`

  Main results:
    * `identify_ok_iff`
    * `requiredPerm_eq_some_iff`
    * `handler_invoked_iff`
-/

----
-- The Peer
----

namespace Fincore.Gateway

/- What the transport says of a peer; pointers can be nil. -/
inductive AuthInfo (URI : Type) where
  | tls (version : Nat) (peerCertificates : List (Option (List (Option URI))))
  | other

/- What an interceptor reads off the context of a call. -/
structure CallContext (URI : Type) where
  incoming : Option Metadata
  peer : Option (Option (AuthInfo URI))

/-
  What the middleware takes from its process and libraries. Every error of `VerifyToken` is answered
  the same.
-/
structure Middleware (URI : Type) where
  verifyToken : String → Option TokenPayload
  fromURI : URI → Option String
  fromString : String → Option String
  gatewaySpiffeIDEnv : String

variable {URI : Type}

/- `gatewaySpiffeIDFromEnv` -/
def Middleware.gatewaySpiffeIDFromEnv (m : Middleware URI) : String :=
  if trimSpace m.gatewaySpiffeIDEnv = "" then
    "spiffe://fincore.local/ns/default/sa/api-gateway"
  else trimSpace m.gatewaySpiffeIDEnv

/- The loop of `spiffeIDFromLeafCert` -/
def Middleware.spiffeIDFromURIs (m : Middleware URI) : List (Option URI) → Option String
| [] => none
| none :: uris => m.spiffeIDFromURIs uris
| some uri :: uris =>
  match m.fromURI uri with
  | some id => some id
  | none => m.spiffeIDFromURIs uris

/- `peerSpiffeIDFromContext` -/
def Middleware.peerSpiffeIDFromContext (m : Middleware URI) (ctx : CallContext URI) :
    Option String :=
  match ctx.peer with
  | some (some (.tls version peerCertificates)) =>
    if version = 0 then none
    else
      match peerCertificates with
      | some uris :: _ => m.spiffeIDFromURIs uris
      | _ => none
  | _ => none

----
-- The Interceptor
----

/- The statuses that it answers with. -/
inductive Refusal where
  | unauthenticated (message : String)
  | permissionDenied (message : String)
  deriving DecidableEq

/- The handler is invoked, with an LSN in its context or not. -/
inductive Verdict where
  | invoked (lsn : Option UInt64)
  | refused (status : Refusal)
  deriving DecidableEq

/- The loop over `suffixToRequiredPerm`, in one of its orders -/
def requiredPerm (fullMethod : String) : List (String × String) → Option String
| [] => none
| (suffix, perm) :: entries =>
  if Text.hasSuffix fullMethod suffix then some perm
  else requiredPerm fullMethod entries

/- The payload of the first authorization value. -/
def Middleware.bearer (m : Middleware URI) (value : String) : Except Refusal TokenPayload :=
  let v := trimSpace value
  if Text.hasPrefix "Bearer " v = false then
    .error (.unauthenticated "invalid authorization")
  else
    let tok := trimSpace (Text.dropPrefix "Bearer " v)
    if tok = "" then .error (.unauthenticated "invalid authorization")
    else
      match m.verifyToken tok with
      | none => .error (.unauthenticated "invalid token")
      | some payload => .ok payload

/- `payloadFromGatewayHeaders`, with the ids it compares -/
def Middleware.asserted (m : Middleware URI) (ctx : CallContext URI) (md : Metadata) :
    Option TokenPayload :=
  match m.fromString m.gatewaySpiffeIDFromEnv with
  | none => none
  | some allowed => payloadFromGatewayHeaders allowed (m.peerSpiffeIDFromContext ctx) md

/- The identity of a call, before its permissions are looked at. -/
def Middleware.identify (m : Middleware URI) (ctx : CallContext URI) :
    Except Refusal TokenPayload :=
  match ctx.incoming with
  | none => .error (.unauthenticated "missing auth metadata")
  | some md =>
    let vals :=
      if md.values "authorization" = [] then md.values "Authorization"
      else md.values "authorization"
    match vals with
    | [] =>
      match m.asserted ctx md with
      | some payload => .ok payload
      | none => .error (.unauthenticated "missing authorization")
    | value :: _ => m.bearer value

/- `UnaryAuthzInterceptor` -/
def unaryAuthzInterceptor (m : Middleware URI) (suffixToRequiredPerm : List (String × String))
    (fullMethod : String) (ctx : CallContext URI) : Verdict :=
  match requiredPerm fullMethod suffixToRequiredPerm with
  | none => .invoked none
  | some perm =>
    match m.identify ctx with
    | .error e => .refused e
    | .ok payload =>
      if perm ≠ "" ∧ perm ∉ payload.permissions then
        .refused (.permissionDenied "forbidden")
      else .invoked (if payload.lsn ≠ 0 then some payload.lsn else none)

----
-- Identities
----

variable {m : Middleware URI} {ctx : CallContext URI}
variable {md : Metadata} {payload : TokenPayload}

/- A value of the form `Bearer <token>` whose token verifies. -/
def Middleware.Presents (m : Middleware URI) (value : String) (payload : TokenPayload) : Prop :=
  ∃ rest, trimSpace value = "Bearer " ++ rest ∧ trimSpace rest ≠ "" ∧
    m.verifyToken (trimSpace rest) = some payload

/- The first URI of the leaf that is a SPIFFE id. -/
def Middleware.PeerIs (m : Middleware URI) (ctx : CallContext URI) (id : String) : Prop :=
  ∃ version uris chain, ctx.peer = some (some (.tls version (some uris :: chain))) ∧
    version ≠ 0 ∧ (uris.filterMap (fun uri => uri.bind m.fromURI)).head? = some id

/- The gateway is the peer, and names a subject. -/
def Middleware.Asserts (m : Middleware URI) (ctx : CallContext URI) (md : Metadata)
    (payload : TokenPayload) : Prop :=
  (∃ id, m.fromString m.gatewaySpiffeIDFromEnv = some id ∧ m.PeerIs ctx id) ∧
    trimSpace (firstMDValue md "x-fincore-subject") ≠ "" ∧ payload =
      { userID := trimSpace (firstMDValue md "x-fincore-subject")
        roles := splitCSV (firstMDValue md "x-fincore-roles")
        permissions := splitCSV (firstMDValue md "x-fincore-permissions")
        lsn := parseLSN (firstMDValue md "x-fincore-lsn") }

/- The identity of a call, by the first value it authorizes with. -/
def Middleware.Identifies (m : Middleware URI) (ctx : CallContext URI)
    (payload : TokenPayload) : Prop :=
  ∃ md, ctx.incoming = some md ∧
    match md.values "authorization" with
    | value :: _ => m.Presents value payload
    | [] => m.Asserts ctx md payload

theorem bearer_ok_iff {value : String} : m.bearer value = .ok payload ↔ m.Presents value payload :=
  by
  unfold Middleware.bearer
  dsimp only
  constructor
  · intro hOk
    split_ifs at hOk with hPrefix hBlank
    refine ⟨_, Text.eq_append_iff.mpr ⟨Bool.eq_true_of_not_eq_false hPrefix, rfl⟩, hBlank, ?_⟩
    split at hOk
    · cases hOk
    · next hVerified =>
      cases hOk
      exact hVerified
  · rintro ⟨rest, hForm, hToken, hVerified⟩
    rcases Text.eq_append_iff.mp hForm with ⟨hPrefix, rfl⟩
    rw [if_neg (ne_false_of_eq_true hPrefix), if_neg hToken, hVerified]

theorem spiffeIDFromURIs_eq (uris : List (Option URI)) : m.spiffeIDFromURIs uris =
    (uris.filterMap (fun uri => uri.bind m.fromURI)).head? := by
  induction uris with
  | nil => rfl
  | cons uri uris ih =>
    cases uri with
    | none => exact ih
    | some uri =>
      unfold Middleware.spiffeIDFromURIs
      rw [List.filterMap_cons, Option.bind_some]
      cases m.fromURI uri with
      | none => exact ih
      | some id => rfl

theorem peerSpiffeIDFromContext_eq_some_iff {id : String} :
    m.peerSpiffeIDFromContext ctx = some id ↔ m.PeerIs ctx id := by
  constructor
  · intro hPeer
    unfold Middleware.peerSpiffeIDFromContext at hPeer
    split at hPeer
    · next version peerCertificates hTLS =>
      split_ifs at hPeer with hVersion
      split at hPeer
      · next uris chain =>
        rw [spiffeIDFromURIs_eq] at hPeer
        exact ⟨version, uris, chain, hTLS, hVersion, hPeer⟩
      · cases hPeer
    · cases hPeer
  · rintro ⟨version, uris, chain, hTLS, hVersion, hFirst⟩
    unfold Middleware.peerSpiffeIDFromContext
    rw [hTLS]
    dsimp only
    rw [if_neg hVersion, spiffeIDFromURIs_eq, hFirst]

theorem asserted_eq_some_iff : m.asserted ctx md = some payload ↔ m.Asserts ctx md payload := by
  unfold Middleware.asserted Middleware.Asserts payloadFromGatewayHeaders
  cases m.fromString m.gatewaySpiffeIDFromEnv with
  | none =>
    refine iff_of_false nofun ?_
    rintro ⟨⟨id, hNone, _⟩, _⟩
    cases hNone
  | some allowed =>
    dsimp only
    constructor
    · intro hSome
      split_ifs at hSome with hBlank hPeer
      cases hSome
      exact ⟨⟨allowed, rfl, peerSpiffeIDFromContext_eq_some_iff.mp (not_not.mp hPeer)⟩, hBlank, rfl⟩
    · rintro ⟨⟨id, hAllowed, hPeer⟩, hSubject, rfl⟩
      cases hAllowed
      rw [if_neg hSubject, if_neg (not_not.mpr (peerSpiffeIDFromContext_eq_some_iff.mpr hPeer))]

theorem identify_ok_iff : m.identify ctx = .ok payload ↔ m.Identifies ctx payload := by
  unfold Middleware.identify Middleware.Identifies
  cases ctx.incoming with
  | none =>
    refine iff_of_false nofun ?_
    rintro ⟨md, hNone, _⟩
    cases hNone
  | some md =>
    have hKey : md.values "Authorization" = md.values "authorization" := by
      unfold Metadata.values
      rw [show Text.lower "Authorization" = Text.lower "authorization" by decide +kernel]
    simp only [hKey, ite_self, Option.some.injEq, exists_eq_left']
    cases hValues : md.values "authorization" with
    | nil =>
      dsimp only
      rw [← asserted_eq_some_iff]
      cases m.asserted ctx md with
      | none => exact iff_of_false nofun nofun
      | some payload' =>
        dsimp only
        rw [Except.ok.injEq, Option.some.injEq]
    | cons value values => exact bearer_ok_iff

----
-- Admitted Calls
----

/- A map from suffixes that name the last segment of a method. -/
structure SuffixTable extends Table (Prod.fst : String × String → String) where
  named : ∀ entry ∈ rows, ∃ name, entry.1 = "/" ++ name ∧ '/' ∉ name.toList

variable {table table' : SuffixTable} {fullMethod perm : String}

variable {entries : List (String × String)}

theorem requiredPerm_mem (hSome : requiredPerm fullMethod entries = some perm) :
    ∃ suffix, (suffix, perm) ∈ entries ∧ Text.hasSuffix fullMethod suffix = true := by
  induction entries with
  | nil => cases hSome
  | cons entry entries ih =>
    rcases entry with ⟨suffix, perm'⟩
    simp only [requiredPerm] at hSome
    split_ifs at hSome with hSuffix
    · cases hSome
      exact ⟨suffix, List.mem_cons_self, hSuffix⟩
    · rcases ih hSome with ⟨suffix', hMem, hSuffix'⟩
      exact ⟨suffix', List.mem_cons_of_mem _ hMem, hSuffix'⟩

theorem requiredPerm_eq_none_iff : requiredPerm fullMethod entries = none ↔
    ∀ entry ∈ entries, Text.hasSuffix fullMethod entry.1 = false := by
  induction entries with
  | nil => exact iff_of_true rfl (fun _ hMem => nomatch hMem)
  | cons entry entries ih =>
    rcases entry with ⟨suffix, perm⟩
    rw [List.forall_mem_cons, ← ih]
    simp only [requiredPerm]
    cases hSuffix : Text.hasSuffix fullMethod suffix with
    | true => simp
    | false => simp

theorem entry_unique {entry entry' : String × String} (hMem : entry ∈ table.rows)
    (hMem' : entry' ∈ table.rows) (hSuffix : Text.hasSuffix fullMethod entry.1 = true)
    (hSuffix' : Text.hasSuffix fullMethod entry'.1 = true) : entry = entry' := by
  rcases table.named entry hMem with ⟨name, hKey, hName⟩
  rcases table.named entry' hMem' with ⟨name', hKey', hName'⟩
  have hSlash : ∀ name : String, ("/" ++ name).toList = '/' :: name.toList :=
    fun name => String.toList_append
  refine table.eq_of_key hMem hMem' (String.toList_inj.mp ?_)
  exact Text.eq_of_hasSuffix ((congrArg String.toList hKey).trans (hSlash name))
    ((congrArg String.toList hKey').trans (hSlash name')) hName hName'
    (List.isSuffixOf_iff_suffix.mp hSuffix) (List.isSuffixOf_iff_suffix.mp hSuffix')

/- So the loop finds it, wherever it stands. -/
theorem requiredPerm_eq_some_iff : requiredPerm fullMethod table.rows = some perm ↔
    ∃ entry ∈ table.rows, Text.hasSuffix fullMethod entry.1 = true ∧ entry.2 = perm := by
  constructor
  · intro hSome
    rcases requiredPerm_mem hSome with ⟨suffix, hMem, hSuffix⟩
    exact ⟨(suffix, perm), hMem, hSuffix, rfl⟩
  · rintro ⟨entry, hMem, hSuffix, rfl⟩
    cases hFound : requiredPerm fullMethod table.rows with
    | none =>
      have hNone := requiredPerm_eq_none_iff.mp hFound entry hMem
      rw [hSuffix] at hNone
      cases hNone
    | some perm =>
      rcases requiredPerm_mem hFound with ⟨suffix, hMem', hSuffix'⟩
      rw [entry_unique hMem hMem' hSuffix hSuffix']

/- The order of the loop does not matter. -/
theorem requiredPerm_perm (hPerm : table'.rows.Perm table.rows) :
    requiredPerm fullMethod table'.rows = requiredPerm fullMethod table.rows := by
  refine Option.ext fun perm => ?_
  rw [requiredPerm_eq_some_iff, requiredPerm_eq_some_iff]
  refine exists_congr fun entry => ?_
  rw [hPerm.mem_iff]

variable {URI : Type}

/-
  The handler is invoked if no entry fits the method, or if the call has an identity with the
  permission of the entry that does. The order of the entries does not matter.
-/
theorem handler_invoked_iff (m : Middleware URI) (table : SuffixTable) (fullMethod : String)
    (ctx : CallContext URI) :
    ((∃ lsn, unaryAuthzInterceptor m table.rows fullMethod ctx = .invoked lsn) ↔
      (∀ entry ∈ table.rows, Text.hasSuffix fullMethod entry.1 = false) ∨
      ∃ entry ∈ table.rows, Text.hasSuffix fullMethod entry.1 = true ∧
      ∃ payload, m.Identifies ctx payload ∧ (entry.2 ≠ "" → entry.2 ∈ payload.permissions)) ∧
      ∀ table' : SuffixTable, table'.rows.Perm table.rows →
      unaryAuthzInterceptor m table'.rows fullMethod ctx =
      unaryAuthzInterceptor m table.rows fullMethod ctx := by
  constructor
  · unfold unaryAuthzInterceptor
    cases hPerm : requiredPerm fullMethod table.rows with
    | none => exact iff_of_true ⟨none, rfl⟩ (Or.inl (requiredPerm_eq_none_iff.mp hPerm))
    | some perm =>
      rcases requiredPerm_eq_some_iff.mp hPerm with ⟨entry, hMem, hSuffix, rfl⟩
      have hOnly : ∀ entry' ∈ table.rows, Text.hasSuffix fullMethod entry'.1 = true →
          entry' = entry := fun entry' hMem' hSuffix' => entry_unique hMem' hMem hSuffix' hSuffix
      constructor
      · rintro ⟨lsn, hInvoked⟩
        refine Or.inr ⟨entry, hMem, hSuffix, ?_⟩
        cases hIdentity : m.identify ctx with
        | error e =>
          rw [hIdentity] at hInvoked
          cases hInvoked
        | ok payload =>
          rw [hIdentity] at hInvoked
          dsimp only at hInvoked
          refine ⟨payload, identify_ok_iff.mp hIdentity, fun hNonempty => ?_⟩
          by_contra hNot
          rw [if_pos ⟨hNonempty, hNot⟩] at hInvoked
          cases hInvoked
      · rintro (hNone | ⟨entry', hMem', hSuffix', payload, hIdentity, hAllowed⟩)
        · rw [hNone entry hMem] at hSuffix
          cases hSuffix
        · rw [hOnly entry' hMem' hSuffix'] at hAllowed
          rw [identify_ok_iff.mpr hIdentity]
          dsimp only
          rw [if_neg (fun hForbidden => hForbidden.2 (hAllowed hForbidden.1))]
          exact ⟨_, rfl⟩
  · intro table' hPerm
    unfold unaryAuthzInterceptor
    rw [requiredPerm_perm hPerm]

/- The table of `ledger-service` -/
def ledgerTable : SuffixTable where
  rows := [("/PostEntry", "ledger:write"), ("/GetBalance", "ledger:read")]
  unique := by decide
  named := by
    intro entry hMem
    simp only [List.mem_cons, List.not_mem_nil, or_false] at hMem
    rcases hMem with rfl | rfl
    · exact ⟨"PostEntry", by decide +kernel, by decide +kernel⟩
    · exact ⟨"GetBalance", by decide +kernel, by decide +kernel⟩

example : requiredPerm "/ledger.v1.LedgerService/GetBalance" ledgerTable.rows =
    some "ledger:read" := by
  decide +kernel

end Fincore.Gateway
