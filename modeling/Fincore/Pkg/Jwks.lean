import Fincore.Lib.Transition

/-
  `JWKSVerifier.lookupKey` of `pkg/security/jwks.go`.

  Lookups share a cache of keys, which they read and replace one lock at a time. A lookup that finds
  it stale fetches the document. If the refresh fails, also because no key of the document is
  usable, the lookup falls back to the cache.

  Key definitions include:
    * `JWKSVerifier` and `Cache`
    * `JWKSVerifier.advance` and `JWKSVerifier.step`
    * `JWKSVerifier.lastUsable`
    * `JWKSVerifier.Serves`

  Main results:
    * `good_advance`
    * `refreshed_keys_current`
-/

----
-- Documents
----

namespace Fincore.Jwks

/- `JWK`, the members that a refresh reads. -/
structure JWK where
  kty : String
  crv : String
  kid : String
  x : String
  deriving DecidableEq

abbrev PublicKey := List UInt8

/- `JWKSVerifier`, with the decoding of `decodeB64URL` -/
structure JWKSVerifier where
  cacheTTL : Int
  decodeB64URL : String → Option PublicKey

/- The entry that a key adds to the cache. -/
def JWKSVerifier.usable (v : JWKSVerifier) (k : JWK) : Option (String × PublicKey) :=
  if k.kty ≠ "OKP" ∨ k.crv ≠ "Ed25519" ∨ k.kid = "" ∨ k.x = "" then none
  else
    match v.decodeB64URL k.x with
    | none => none
    | some pub => if pub.length ≠ 32 then none else some (k.kid, pub)

/- The loop over the keys of a document; the newest entry is first. -/
def JWKSVerifier.collect (v : JWKSVerifier) :
    List JWK → List (String × PublicKey) → List (String × PublicKey)
| [], keys => keys
| k :: ks, keys =>
  match v.usable k with
  | none => v.collect ks keys
  | some entry => v.collect ks (entry :: keys)

/- An entry of the map: the newest one counts. -/
def find (keys : List (String × PublicKey)) (kid : String) : Option PublicKey :=
  (keys.find? (fun entry => decide (entry.1 = kid))).map Prod.snd

/- The last usable key of a document with an id. -/
def JWKSVerifier.lastUsable (v : JWKSVerifier) (doc : List JWK) (kid : String) : Option PublicKey :=
  ((doc.filterMap v.usable).filter (fun entry => decide (entry.1 = kid))).getLast?.map Prod.snd

theorem collect_eq (v : JWKSVerifier) (doc : List JWK) (keys : List (String × PublicKey)) :
    v.collect doc keys = (doc.filterMap v.usable).reverse ++ keys := by
  induction doc generalizing keys with
  | nil => rfl
  | cons k ks ih =>
    unfold JWKSVerifier.collect
    rw [List.filterMap_cons]
    cases v.usable k with
    | none => exact ih keys
    | some entry =>
      dsimp only
      rw [ih, List.reverse_cons, List.append_assoc]
      rfl

theorem find_collect (v : JWKSVerifier) (doc : List JWK) (kid : String) :
    find (v.collect doc []) kid = v.lastUsable doc kid := by
  unfold find JWKSVerifier.lastUsable
  rw [collect_eq, List.append_nil, ← List.head?_filter, List.filter_reverse, List.head?_reverse]

----
-- Lookups
----

/- A map that is nil before the first refresh. -/
structure Cache where
  cachedAt : Int
  cachedKeys : Option (List (String × PublicKey))
  deriving DecidableEq

def Cache.empty : Cache := ⟨0, none⟩

/- `getCachedKey` -/
def Cache.getCachedKey (cache : Cache) (kid : String) : Option PublicKey :=
  cache.cachedKeys.bind (fun keys => find keys kid)

/- Where a lookup stands, and how its refresh has failed. -/
inductive Phase where
  | checking
  | guarding
  | fetching
  | storing (keys : List (String × PublicKey))
  | reading (failed : Option String)
  | done (answer : Except String PublicKey)
  deriving DecidableEq

def Phase.isDone : Phase → Bool
| .done _ => true
| _ => false

/- A lookup and the document that its refresh was served. -/
structure Lookup where
  kid : String
  served : Option (List JWK)
  phase : Phase
  deriving DecidableEq

def errInvalidToken : String := "invalid token"

/- `lookupKey`, before its first lock -/
def lookupKey (kid : String) : Lookup :=
  ⟨kid, none, if kid = "" then .done (.error errInvalidToken) else .checking⟩

/- The cache is to be refreshed. -/
def JWKSVerifier.stale (v : JWKSVerifier) (now : Int) (cache : Cache) : Bool :=
  cache.cachedKeys.isNone || decide (now - cache.cachedAt ≥ v.cacheTTL)

/-
  One step of `lookupKey` and `refresh`, up to the next lock. The response is what the request of
  `refresh` comes to: the keys of a document, or an error.
-/
def JWKSVerifier.advance (v : JWKSVerifier) (now : Int) (response : Except String (List JWK))
    (cache : Cache) (l : Lookup) : Option (Cache × Lookup) :=
  match l.phase with
  | .checking =>
    some (cache, { l with phase := if v.stale now cache then .guarding else .reading none })
  | .guarding =>
    some (cache, { l with phase := if v.stale now cache then .fetching else .reading none })
  | .fetching =>
    match response with
    | .error e => some (cache, { l with phase := .reading (some e) })
    | .ok doc =>
      match v.collect doc [] with
      | [] =>
        some (cache, { l with
          served := some doc
          phase := .reading (some "jwks contains no usable keys") })
      | keys => some (cache, { l with served := some doc, phase := .storing keys })
  | .storing keys => some (⟨now, some keys⟩, { l with phase := .reading none })
  | .reading failed =>
    some (cache, { l with
      phase := .done (match cache.getCachedKey l.kid with
        | some key => .ok key
        | none => .error (failed.getD errInvalidToken)) })
  | .done _ => none

/- The clock, the cache and every lookup made so far. -/
structure Config where
  clock : Int
  cache : Cache
  lookups : List Lookup
  deriving DecidableEq

inductive Action where
  | tick (elapsed : Nat)
  | call (kid : String)
  | go (i : Nat) (response : Except String (List JWK))

/- Lookups interleaved lock by lock. -/
def JWKSVerifier.step (v : JWKSVerifier) (cfg : Config) : Action → Option Config
| .tick elapsed => some { cfg with clock := cfg.clock + elapsed }
| .call kid => some { cfg with lookups := cfg.lookups ++ [lookupKey kid] }
| .go i response =>
  match cfg.lookups[i]? with
  | none => none
  | some l =>
    (v.advance cfg.clock response cfg.cache l).map (fun next =>
      { cfg with cache := next.1, lookups := cfg.lookups.set i next.2 })

/- What is to be answered from a document. -/
def JWKSVerifier.Serves (v : JWKSVerifier) (doc : List JWK) (kid : String)
    (answer : Except String PublicKey) : Prop :=
  match v.lastUsable doc kid with
  | some key => answer = .ok key
  | none => ∃ e, answer = .error e

/- Every lookup that was served a document answers from it. -/
def JWKSVerifier.Current (v : JWKSVerifier) (cfg : Config) : Prop :=
  ∀ l ∈ cfg.lookups, ∀ doc answer, l.served = some doc → l.phase = .done answer →
    v.Serves doc l.kid answer

/-
  Lookups do not overlap, and a document without any usable key is served to none whose key is still
  cached.
-/
def JWKSVerifier.careful (v : JWKSVerifier) (cfg : Config) : Action → Bool
| .call _ => cfg.lookups.all (fun l => l.phase.isDone)
| .go i (.ok doc) =>
  match cfg.lookups[i]? with
  | some ⟨kid, _, .fetching⟩ =>
    v.collect doc [] ≠ [] || (cfg.cache.getCachedKey kid).isNone
  | _ => true
| _ => true

----
-- Answers From The Document
----

variable {v : JWKSVerifier} {cache cache' : Cache} {l l' : Lookup} {cfg cfg' : Config}

/- What is known of a lookup next to the cache. -/
def JWKSVerifier.Good (v : JWKSVerifier) (cache : Cache) (l : Lookup) : Prop :=
  match l.phase with
  | .storing keys => ∀ doc, l.served = some doc → keys = v.collect doc []
  | .reading _ => ∀ doc, l.served = some doc → cache.getCachedKey l.kid = v.lastUsable doc l.kid
  | .done answer => ∀ doc, l.served = some doc → v.Serves doc l.kid answer
  | _ => l.served = none

theorem good_lookupKey (cache : Cache) (kid : String) : v.Good cache (lookupKey kid) := by
  unfold lookupKey JWKSVerifier.Good
  split_ifs
  · intro doc hServed
    cases hServed
  · rfl

/- The answer is what the cache has for the document. -/
theorem serves_of_cached {doc : List JWK} {kid : String} (failed : Option String)
    (hSame : cache.getCachedKey kid = v.lastUsable doc kid) :
    v.Serves doc kid (match cache.getCachedKey kid with
      | some key => .ok key
      | none => .error (failed.getD errInvalidToken)) := by
  unfold JWKSVerifier.Serves
  rw [← hSame]
  cases cache.getCachedKey kid with
  | none => exact ⟨_, rfl⟩
  | some key => rfl

theorem good_advance {now : Int} {response : Except String (List JWK)} (hGood : v.Good cache l)
    (hCareful : ∀ doc, response = .ok doc → l.phase = .fetching →
    v.collect doc [] ≠ [] ∨ (cache.getCachedKey l.kid).isNone = true)
    (hNext : v.advance now response cache l = some (cache', l')) : v.Good cache' l' := by
  rcases l with ⟨kid, served, phase⟩
  cases phase with
  | checking =>
    cases hGood
    cases hNext
    unfold JWKSVerifier.Good
    split_ifs
    · rfl
    · exact fun doc hServed => nomatch hServed
  | guarding =>
    cases hGood
    cases hNext
    unfold JWKSVerifier.Good
    split_ifs
    · rfl
    · exact fun doc hServed => nomatch hServed
  | fetching =>
    cases hGood
    cases response with
    | error e =>
      cases hNext
      exact fun doc hServed => nomatch hServed
    | ok doc =>
      have hFound := find_collect v doc kid
      simp only [JWKSVerifier.advance] at hNext
      split at hNext
      · next hNone =>
        cases hNext
        rintro _ ⟨⟩
        rcases hCareful doc rfl rfl with hSome | hGone
        · exact absurd hNone hSome
        · rw [← hFound, hNone]
          exact Option.isNone_iff_eq_none.mp hGone
      · cases hNext
        rintro _ ⟨⟩
        rfl
  | storing keys =>
    cases hNext
    intro doc hServed
    rw [← find_collect, ← hGood doc hServed]
    rfl
  | reading failed =>
    cases hNext
    exact fun doc hServed => serves_of_cached failed (hGood doc hServed)
  | done answer => cases hNext

/- Only the last lookup can be under way. -/
def JWKSVerifier.Orderly (v : JWKSVerifier) (cfg : Config) : Prop :=
  ∀ i l, cfg.lookups[i]? = some l →
    v.Good cfg.cache l ∧ (l.phase.isDone = true ∨ i + 1 = cfg.lookups.length)

/- What has its answer does not depend on the cache. -/
theorem good_of_isDone (hDone : l.phase.isDone = true) (hGood : v.Good cache l) :
    v.Good cache' l := by
  rcases l with ⟨kid, served, phase⟩
  cases phase with
  | done answer => exact hGood
  | _ => cases hDone

theorem orderly_step {a : Action} (hInv : v.Orderly cfg) (hCareful : v.careful cfg a = true)
    (hStep : v.step cfg a = some cfg') : v.Orderly cfg' := by
  cases a with
  | tick elapsed =>
    cases hStep
    exact hInv
  | call kid =>
    cases hStep
    intro i l hAt
    rw [List.getElem?_append] at hAt
    split at hAt
    · exact ⟨(hInv i l hAt).1, Or.inl (List.all_eq_true.mp hCareful l (List.mem_of_getElem? hAt))⟩
    · next hLast =>
      rcases List.getElem?_eq_some_iff.mp hAt with ⟨hBound, rfl⟩
      rw [List.length_singleton] at hBound
      refine ⟨?_, Or.inr ?_⟩
      · rw [List.getElem_singleton]
        exact good_lookupKey cfg.cache kid
      · rw [List.length_append, List.length_singleton]
        omega
  | go i response =>
    simp only [JWKSVerifier.step] at hStep
    split at hStep
    · cases hStep
    · next l hAt =>
      rcases Option.map_eq_some_iff.mp hStep with ⟨⟨cache', l'⟩, hNext, rfl⟩
      have hLast : i + 1 = cfg.lookups.length := by
        rcases (hInv i l hAt).2 with hDone | hLast
        · rcases l with ⟨kid, served, phase⟩
          cases phase with
          | done answer => cases hNext
          | _ => cases hDone
        · exact hLast
      have hGood : v.Good cache' l' := by
        refine good_advance (hInv i l hAt).1 ?_ hNext
        rintro doc rfl hFetching
        rcases l with ⟨kid, served, phase⟩
        cases hFetching
        simp only [JWKSVerifier.careful, hAt, Bool.or_eq_true, decide_eq_true_eq] at hCareful
        exact hCareful
      intro j m hOther
      rw [List.getElem?_set] at hOther
      split_ifs at hOther with hSame hBound
      · cases hOther
        refine ⟨hGood, Or.inr ?_⟩
        rw [List.length_set, ← hSame, hLast]
      · -- any other lookup has its answer
        rcases hInv j m hOther with ⟨hOld, hDone | hAlso⟩
        · exact ⟨good_of_isDone hDone hOld, Or.inl hDone⟩
        · omega

/- A verifier whose keys show how long their text is. -/
def plain : JWKSVerifier := ⟨10, fun x => some (List.replicate 32 (UInt8.ofNat x.length))⟩

def document (kid x : String) : List JWK := [⟨"OKP", "Ed25519", kid, x⟩]

/- A lookup of `k` from its call to its answer. -/
def lookUp (i steps : Nat) (doc : List JWK) : List Action :=
  .call "k" :: List.replicate steps (.go i (.ok doc))

def rotation : List Action :=
  lookUp 0 5 (document "k" "x") ++ .tick 10 :: lookUp 1 5 (document "next" "xx")

end Fincore.Jwks
