import Fincore.Lib.Text
import Fincore.Pkg.Money

/-
  Headers of HTTP requests and the metadata made of them.

  The mux of `services/api-gateway` turns the fields of a request into gRPC metadata, field by
  field, with the matcher of `gatewayHeaderForwarder`. The interceptor of `pkg/security/middleware`
  reads an identity off metadata.

  Key definitions include:
    * `Header`
    * `gatewayHeaderForwarder`
    * `annotate`
    * `payloadFromGatewayHeaders`
    * `Header.forwarded`

  Main results:
    * `values_annotate`
-/

----
-- Headers
----

namespace Fincore.Gateway

/- `http.Header`, field by field: the keys of a request are canonical when a handler sees them. -/
structure Header where
  fields : List (String × String)
  canonical : ∀ field ∈ fields, Text.canonicalKey field.1 = field.1

namespace Header

/- `Header.Values` -/
def values (h : Header) (key : String) : List String :=
  (h.fields.filter (fun field =>
    field.1 = Text.canonicalKey key)).map Prod.snd

/- `Header.Get` -/
def get (h : Header) (key : String) : String := (h.values key).headD ""

/- `Header.Del` -/
def del (h : Header) (key : String) : Header where
  fields := h.fields.filter (fun field =>
    field.1 ≠ Text.canonicalKey key)
  canonical := by
    intro field hMem
    exact h.canonical field (List.mem_of_mem_filter hMem)

/- `Header.Set` -/
def set (h : Header) (key value : String) : Header where
  fields := (h.del key).fields ++ [(Text.canonicalKey key, value)]
  canonical := by
    intro field hMem
    rcases List.mem_append.mp hMem with hOld | hNew
    · exact (h.del key).canonical field hOld
    · rw [List.mem_singleton.mp hNew]
      exact Text.canonicalKey_canonicalKey key

theorem mem_del {h : Header} {key : String} {field : String × String} : field ∈ (h.del key).fields ↔
    field ∈ h.fields ∧ field.1 ≠ Text.canonicalKey key := by
  simp [del]

variable {key key' : String}

theorem values_del_of_ne (hNe : Text.canonicalKey key' ≠ Text.canonicalKey key) (h : Header) :
    (h.del key).values key' = h.values key' := by
  unfold values del
  rw [List.filter_filter]
  congr 1
  apply List.filter_congr
  intro field _
  by_cases hOwn : field.1 = Text.canonicalKey key'
  · simp [hOwn, hNe]
  · simp [hOwn]

theorem values_set_of_ne (hNe : Text.canonicalKey key' ≠ Text.canonicalKey key) (h : Header)
    (value : String) : (h.set key value).values key' = h.values key' := by
  rw [← values_del_of_ne hNe h]
  simp [values, set, Ne.symm hNe]

/- The fields of a request as they come over the wire. -/
def ofFields (fields : List (String × String)) : Header where
  fields := fields.map (fun field =>
    (Text.canonicalKey field.1, field.2))
  canonical := by
    intro field hMem
    rcases List.mem_map.mp hMem with ⟨sent, _, rfl⟩
    exact Text.canonicalKey_canonicalKey sent.1

end Header

----
-- Metadata
----

/- `isPermanentHTTPHeader` of grpc-gateway -/
def permanentHTTPHeaders : List String :=
  ["Accept", "Accept-Charset", "Accept-Language", "Accept-Ranges", "Authorization", "Cache-Control",
    "Content-Type", "Cookie", "Date", "Expect", "From",
    "Host", "If-Match", "If-Modified-Since", "If-None-Match",
    "If-Schedule-Tag-Match", "If-Unmodified-Since", "Max-Forwards", "Origin", "Pragma", "Referer",
    "User-Agent", "Via", "Warning"]

/- `runtime.DefaultHeaderMatcher` -/
def defaultHeaderMatcher (key : String) : Option String :=
  if key ∈ permanentHTTPHeaders then
    some ("grpcgateway-" ++ key)
  else if Text.hasPrefix "Grpc-Metadata-" key then
    some (Text.dropPrefix "Grpc-Metadata-" key)
  else none

/- `gatewayHeaderForwarder` -/
def gatewayHeaderForwarder (key : String) : Option String :=
  if Text.equalFold key "Authorization" then
    some "authorization"
  else if Text.equalFold key "X-Fincore-Subject" then
    some "x-fincore-subject"
  else if Text.equalFold key "X-Fincore-Roles" then
    some "x-fincore-roles"
  else if Text.equalFold key "X-Fincore-Permissions" then
    some "x-fincore-permissions"
  else defaultHeaderMatcher key

/- `isValidGRPCMetadataKey` -/
def validKey (key : String) : Bool :=
  key.toList.all (fun c =>
    c.isAlphanum || c = '-' || c = '_' || c = '.')

/- `isValidGRPCMetadataTextValue` -/
def validText (value : String) : Bool := value.toList.all (fun c => ' ' ≤ c && c ≤ '~')

/- `metadata.MD`, pair by pair, with lower-case keys. -/
abbrev Metadata := List (String × String)

/- `MD.Get` -/
def Metadata.values (md : Metadata) (key : String) : List String :=
  (md.filter (fun pair => pair.1 = Text.lower key)).map Prod.snd

/-
  One field of `annotateContext`; none is the answer InvalidArgument for a binary value that does
  not decode.
-/
def annotateField (decodeBin : String → Option String)
    (field : String × String) : Option Metadata :=
  if field.1 = "X-Forwarded-For" ∨ field.1 = "X-Forwarded-Host" then
    some []
  else
    let authorization : Metadata :=
      if field.1 = "Authorization" then
        [("authorization", field.2)]
      else []
    match gatewayHeaderForwarder field.1 with
    | none => some authorization
    | some key =>
      if validKey key = false then some authorization
      else if "-Bin".toList.isSuffixOf field.1.toList then
        (decodeBin field.2).map (fun value =>
          authorization ++ [(Text.lower key, value)])
      else if validText field.2 = false then
        some authorization
      else
        some (authorization ++ [(Text.lower key, field.2)])

/- The loop of `annotateContext` over the fields. -/
def annotate (decodeBin : String → Option String) : List (String × String) → Option Metadata
| [] => some []
| field :: fields => do
    let pairs ← annotateField decodeBin field
    let rest ← annotate decodeBin fields
    return pairs ++ rest

----
-- Reading The Identity
----

/- `security.TokenPayload`, without its times. -/
structure TokenPayload where
  userID : String
  roles : List String
  permissions : List String
  lsn : UInt64
  deriving DecidableEq

/- `firstMDValue`; both spellings of a key are one key. -/
def firstMDValue (md : Metadata) (key : String) : String := (md.values key).headD ""

/- `splitCSV` -/
def splitCSV (v : String) : List String :=
  if trimSpace v = "" then []
  else
    ((Text.split ',' (trimSpace v)).map trimSpace).filter (fun part => part ≠ "")

/- `strconv.ParseUint`; what does not parse stays zero. -/
def parseLSN (s : String) : UInt64 := UInt64.ofNat ((Text.parseUint 64 s).getD 0)

/- `payloadFromGatewayHeaders`, with the SPIFFE id of the peer and the one that the gateway has. -/
def payloadFromGatewayHeaders (allowed : String) (peer : Option String)
    (md : Metadata) : Option TokenPayload :=
  let subject := trimSpace (firstMDValue md "x-fincore-subject")
  if subject = "" then none
  else if peer ≠ some allowed then none
  else
    some {
      userID := subject
      roles := splitCSV (firstMDValue md "x-fincore-roles")
      permissions := splitCSV (firstMDValue md "x-fincore-permissions")
      lsn := parseLSN (firstMDValue md "x-fincore-lsn") }

----
-- What Reaches The Metadata
----

/- The entries that name an identity. -/
def identityKeys : List String :=
  ["x-fincore-subject", "x-fincore-roles", "x-fincore-permissions", "x-fincore-lsn"]

/- The headers that the gateway deletes. -/
def strippedKeys : List String := ["X-Fincore-Subject", "X-Fincore-Roles", "X-Fincore-Permissions"]

/- What a client sends in front of the matcher's word. -/
def Header.forwarded (h : Header) (key : String) : List String :=
  (h.values ("Grpc-Metadata-" ++ key)).filter validText

theorem identity_fields : ∀ key ∈ identityKeys, Text.canonicalKey ("Grpc-Metadata-" ++ key) ∉
    ["X-Forwarded-For", "X-Forwarded-Host", "Authorization"] ∧ "-Bin".toList.isSuffixOf
    (Text.canonicalKey ("Grpc-Metadata-" ++ key)).toList = false ∧
    (gatewayHeaderForwarder (Text.canonicalKey ("Grpc-Metadata-" ++ key))).map
    (fun target => (validKey target, Text.lower target)) = some (true, key) := by
  decide +kernel

theorem identityKeys_lower : ∀ key ∈ identityKeys, Text.lower key = key ∧ key ≠ "authorization" ∧
    key.toList.head? = some 'x' := by
  decide +kernel

/- Only one field ends up under a key of the identity. -/
theorem name_of_forwarder {name key target : String}
    (hName : Text.canonicalKey name = name) (hKept : name ∉ strippedKeys)
    (hKey : key ∈ identityKeys) (hForwarded : gatewayHeaderForwarder name = some target)
    (hTarget : Text.lower target = key) : name = Text.canonicalKey ("Grpc-Metadata-" ++ key) := by
  rcases identityKeys_lower key hKey with ⟨_, hNotAuth, hFirst⟩
  unfold gatewayHeaderForwarder at hForwarded
  split_ifs at hForwarded with hAuth hSubject hRoles hPerms
  · cases hForwarded
    exact absurd (hTarget.symm.trans (by decide +kernel)) hNotAuth
  -- a field that the gateway has deleted
  · have hSame := Text.eq_of_equalFold hName (by decide +kernel) hSubject
    exact absurd (hSame ▸ by decide) hKept
  · have hSame := Text.eq_of_equalFold hName (by decide +kernel) hRoles
    exact absurd (hSame ▸ by decide) hKept
  · have hSame := Text.eq_of_equalFold hName (by decide +kernel) hPerms
    exact absurd (hSame ▸ by decide) hKept
  · unfold defaultHeaderMatcher at hForwarded
    split_ifs at hForwarded with hPermanent hPrefix
    · cases hForwarded
      rw [← hTarget, Text.lower_append, String.toList_append, List.head?_append] at hFirst
      exact absurd hFirst (by
        rw [show (Text.lower "grpcgateway-").toList.head? = some 'g' by decide +kernel]
        simp)
    · have hTarget' := (Option.some.inj hForwarded) ▸ hTarget
      rw [← hTarget', ← Text.canonicalKey_lower, Text.lower_append, Text.lower_lower,
        ← Text.lower_append, Text.append_dropPrefix hPrefix, Text.canonicalKey_lower, hName]

variable {key : String}

theorem annotateField_forwarded (decodeBin : String → Option String) (hKey : key ∈ identityKeys)
    (value : String) : annotateField decodeBin
        (Text.canonicalKey ("Grpc-Metadata-" ++ key), value) =
      if validText value = false then some []
      else some [(key, value)] := by
  rcases identity_fields key hKey with ⟨hOther, hBinary, hTarget⟩
  rcases Option.map_eq_some_iff.mp hTarget with ⟨target, hForwarded, hPair⟩
  rcases Prod.mk.inj hPair with ⟨hValid, hLower⟩
  simp only [List.mem_cons, List.not_mem_nil, or_false, not_or] at hOther
  unfold annotateField
  simp only [hForwarded, hBinary, hValid, hLower, hOther,
    or_self, if_false, Bool.false_eq_true, Bool.true_eq_false, List.nil_append]

theorem Metadata.values_append (md md' : Metadata) (key : String) :
    Metadata.values (md ++ md') key = Metadata.values md key ++ Metadata.values md' key := by
  simp [Metadata.values]

variable {decodeBin : String → Option String}

variable {pairs : Metadata}

theorem mem_annotateField {field pair : String × String}
    (hPairs : annotateField decodeBin field = some pairs)
    (hMem : pair ∈ pairs) : pair.1 = "authorization" ∨ ∃ target,
    gatewayHeaderForwarder field.1 = some target ∧ pair.1 = Text.lower target := by
  unfold annotateField at hPairs
  split at hPairs
  · cases hPairs
    cases hMem
  dsimp only at hPairs
  generalize hList :
      (if field.1 = "Authorization" then
        [("authorization", field.2)]
      else [] : Metadata) = authorization at hPairs
  have hAuth : pair ∈ authorization → pair.1 = "authorization" := by
    intro hMem
    rw [← hList] at hMem
    split at hMem
    · rw [List.mem_singleton.mp hMem]
    · cases hMem
  have hBoth : ∀ {target value : String},
      gatewayHeaderForwarder field.1 = some target → pair ∈ authorization ++
      [(Text.lower target, value)] → pair.1 = "authorization" ∨ ∃ target,
      gatewayHeaderForwarder field.1 = some target ∧ pair.1 = Text.lower target := by
    intro target value hForwarded hMem
    rcases List.mem_append.mp hMem with hOld | hNew
    · exact Or.inl (hAuth hOld)
    · rw [List.mem_singleton.mp hNew]
      exact Or.inr ⟨target, hForwarded, rfl⟩
  split at hPairs
  · cases hPairs
    exact Or.inl (hAuth hMem)
  · rename_i target hForwarded
    split_ifs at hPairs
    · cases hPairs
      exact Or.inl (hAuth hMem)
    · rcases Option.map_eq_some_iff.mp hPairs with ⟨value, _, rfl⟩
      exact hBoth hForwarded hMem
    · cases hPairs
      exact Or.inl (hAuth hMem)
    · cases hPairs
      exact hBoth hForwarded hMem

theorem values_annotateField {name value key : String} (hName : Text.canonicalKey name = name)
    (hKept : name ∉ strippedKeys) (hKey : key ∈ identityKeys)
    (hPairs : annotateField decodeBin (name, value) = some pairs) : pairs.values key =
      if name = Text.canonicalKey ("Grpc-Metadata-" ++ key) ∧ validText value = true then
        [value]
      else [] := by
  rcases identityKeys_lower key hKey with ⟨hLower, hNotAuth, _⟩
  by_cases hOwn : name = Text.canonicalKey ("Grpc-Metadata-" ++ key)
  · subst hOwn
    rw [annotateField_forwarded decodeBin hKey] at hPairs
    split_ifs at hPairs with hText
    · cases hPairs
      simp [Metadata.values, hText]
    · cases hPairs
      simp [Metadata.values, hText, hLower]
  · rw [if_neg (fun hBoth => hOwn hBoth.1)]
    unfold Metadata.values
    rw [hLower, List.map_eq_nil_iff, List.filter_eq_nil_iff]
    intro pair hMem hPair
    have hPair : pair.1 = key := of_decide_eq_true hPair
    rcases mem_annotateField hPairs hMem with hAuth | ⟨target, hForwarded, hTarget⟩
    · exact hNotAuth (hPair.symm.trans hAuth)
    · exact hOwn (name_of_forwarder hName hKept hKey hForwarded (hTarget.symm.trans hPair))

/-
  Behind the middleware that deletes the identity headers, the entries of the identity are what the
  client has put into fields of its own.
-/
theorem values_annotate {h : Header}
    (hKept : ∀ field ∈ h.fields, field.1 ∉ strippedKeys) {md : Metadata}
    (hMetadata : annotate decodeBin h.fields = some md)
    (hKey : key ∈ identityKeys) : md.values key = h.forwarded key := by
  rcases h with ⟨fields, hCanonical⟩
  unfold Header.forwarded Header.values
  induction fields generalizing md with
  | nil =>
    cases hMetadata
    rfl
  | cons field fields ih =>
    simp only [annotate, Option.bind_eq_bind, Option.bind_eq_some_iff, Option.pure_def,
      Option.some.injEq] at hMetadata
    rcases hMetadata with ⟨pairs, hPairs, rest, hRest, rfl⟩
    have hFirst := values_annotateField (hCanonical field List.mem_cons_self)
      (hKept field List.mem_cons_self) hKey hPairs
    have hLater := ih (fun field hMem =>
        hCanonical field (List.mem_cons_of_mem _ hMem))
      (fun field hMem =>
        hKept field (List.mem_cons_of_mem _ hMem)) hRest
    rw [Metadata.values_append, hFirst, hLater]
    by_cases hOwn : field.1 = Text.canonicalKey ("Grpc-Metadata-" ++ key)
    · by_cases hText : validText field.2 = true
      · simp [hOwn, hText]
      · simp [hOwn, hText]
    · simp [hOwn]

end Fincore.Gateway
