import Iec61850.Mms.Elements
import Iec61850.Mms.RoundTrip

/-!
The invokeID of a confirmed request or response: one encoder, and the decoders of the server's
dispatcher, of the Read and Write PDUs and of the client's receive loop.
-/

namespace Iec61850.Mms

open Wire Wire.Fallible

inductive PduErrorRejectReason where
  | invalidPdu
  deriving DecidableEq, Repr

inductive ConfirmedRequestRejectReason where
  | invalidArgument
  | maxServOutstandingExceeded
  | unrecognizedService
  deriving DecidableEq, Repr

inductive RejectReason where
  | pduError (reason : PduErrorRejectReason)
  | confirmedRequest (reason : ConfirmedRequestRejectReason)
  deriving DecidableEq, Repr

def encodeInvokeId (invokeId : UInt32) : List UInt8 := encodeTlv 0x02 (encodeUnsignedIntMinimal invokeId.toUInt64)

variable (active permitted : Bool) (recognized : List UInt8 → Bool) (incoming content octets data : List UInt8)
  (tag outerTag : UInt8)

def encodeConfirmed (invokeId : UInt32) (service : List UInt8) : List UInt8 :=
  encodeTlv outerTag (encodeInvokeId invokeId ++ service)

def tagConfirmedRequest : UInt8 := 0xa0

def tagConfirmedResponse : UInt8 := 0xa1

def decodeU32FromBytes : Fallible MmsError UInt32 :=
  if data.isEmpty || 4 < data.length then refuse .invalidLength else return shiftInto32 0 data

def decodeConfirmedPduInner : Fallible MmsError (UInt32 × List UInt8) := do
  if data.isEmpty then
    refuse .truncatedPdu
  else
    let first ← byteAt data 0
    if first ≠ outerTag then
      refuse (.invalidTag outerTag first)
    else
      let inner := (← readElement data).content
      if inner.isEmpty then
        refuse .truncatedPdu
      else if (← byteAt inner 0) ≠ 0x02 then
        refuse .truncatedPdu
      else
        let id ← readElement inner
        let invokeId ← decodeU32FromBytes id.content
        return (invokeId, ← sliceFrom inner id.consumed)

/-- Failures of the server's own length decoder and bounds checks become one reject reason. -/
def orReject {ε α : Type} (reason : RejectReason) : Fallible ε α → Fallible RejectReason α
  | .ok value => .ok value
  | .error (.refused _) => refuse reason
  | .error .panicked => .error .panicked
  | .error .diverged => .error .diverged

theorem orReject_eq_ok {ε α : Type} {reason : RejectReason} {result : Fallible ε α} {value : α}
    (success : orReject reason result = .ok value) : result = .ok value := by
  cases result with
  | ok read =>
    cases success
    rfl
  | error fault => cases fault <;> cases success

def decodeUint32Be : UInt32 := shiftInto32 0 (octets.take 5)

/-- The server's dispatcher has found the tag of a confirmed request. -/
def parseConfirmedRequest : Fallible RejectReason (UInt32 × List UInt8) := do
  if data.length < 2 then
    refuse (.pduError .invalidPdu)
  else
    let inner := (← orReject (.pduError .invalidPdu) (readElement data)).content
    if inner.length < 2 then
      refuse (.confirmedRequest .invalidArgument)
    else if (← byteAt inner 0) ≠ 0x02 then
      refuse (.confirmedRequest .invalidArgument)
    else
      let id ← orReject (.confirmedRequest .invalidArgument) (readElement inner)
      return (decodeUint32Be id.content, ← sliceFrom inner id.consumed)

/-- What the server does with a confirmed request: an answer or a reject, each under an invokeID if
there is one. -/
inductive ConfirmedOutcome where
  | answer (invokeId : UInt32) (serviceBody : List UInt8)
  | reject (invokeId : Option UInt32) (reason : RejectReason)
  deriving DecidableEq, Repr

def ConfirmedOutcome.invokeId : ConfirmedOutcome → Option UInt32
  | .answer invokeId _ => some invokeId
  | .reject invokeId _ => invokeId

/-- The confirmed-request branch of `parse_message`: `active` after Initiate, `permitted` below the
outstanding limit. -/
def handleConfirmedRequest : Fallible RejectReason ConfirmedOutcome :=
  if !active then
    return .reject none (.pduError .invalidPdu)
  else
    match parseConfirmedRequest incoming with
    | .ok (invokeId, serviceBody) =>
      if !permitted then
        return .reject (some invokeId) (.confirmedRequest .maxServOutstandingExceeded)
      else if recognized serviceBody then
        return .answer invokeId serviceBody
      else
        return .reject (some invokeId) (.confirmedRequest .unrecognizedService)
    | .error (.refused reason) => return .reject none reason
    | .error .panicked => .error .panicked
    | .error .diverged => .error .diverged

def leadingUnsigned32 : Option UInt32 :=
  if content.head? ≠ some tag then
    none
  else
    match readElement content with
    | .error _ => none
    | .ok element =>
      let value :=
        match element.content with
        | 0x00 :: rest => if rest.length = 4 then rest else 0x00 :: rest
        | value => value
      if value.isEmpty || 4 < value.length then none else some (shiftInto32 0 value)

theorem dropZeroBytes_bounds {first : UInt8} {rest : List UInt8} (positive : first.toNat < 128) :
    ∃ lead behind, dropZeroBytes (first :: rest) = lead :: behind ∧ lead.toNat < 128 ∧
      (behind ≠ [] → 128 * 256 ^ (behind.length - 1) ≤ ofBytes (lead :: behind)) := by
  induction rest generalizing first with
  | nil => exact ⟨first, [], rfl, positive, fun absurd => (absurd rfl).elim⟩
  | cons second others ih =>
    unfold dropZeroBytes
    by_cases carried : first == 0x00 && second &&& 0x80 == 0
    · rw [if_pos carried]
      apply ih
      simp only [Bool.and_eq_true, beq_iff_eq] at carried
      exact (and_top_eq_zero_iff second).mp carried.2
    · rw [if_neg carried]
      refine ⟨first, second :: others, rfl, positive, ?_⟩
      intro _
      rw [ofBytes_cons, ofBytes_cons]
      simp only [List.length_cons, Nat.add_sub_cancel]
      by_cases zero : first = 0
      · have set : 128 ≤ second.toNat := by
          by_contra clear
          apply carried
          simp [zero, (and_top_eq_zero_iff second).mpr (by omega)]
        have scaled := Nat.mul_le_mul_right (256 ^ others.length) set
        omega
      · have one : 1 ≤ first.toNat := by
          have nonzero : first.toNat ≠ 0 := fun same => zero (UInt8.toNat_inj.mp same)
          omega
        have scaled := Nat.mul_le_mul_right (256 ^ (others.length + 1)) one
        rw [Nat.pow_succ] at scaled ⊢
        omega

theorem invokeId_octets (invokeId : UInt32) : let octets := encodeUnsignedIntMinimal invokeId.toUInt64
    1 ≤ octets.length ∧ octets.length ≤ 5 ∧ (octets.length ≤ 4 ↔ invokeId.toNat < 2 ^ 31) ∧
      ofBytes octets = invokeId.toNat ∧ (octets.length = 5 → ∃ rest, octets = 0x00 :: rest) := by
  intro octets
  have small := invokeId.toNat_lt
  have value : ofBytes octets = invokeId.toNat := by
    rw [ofBytes_encodeUnsignedIntMinimal, UInt32.toNat_toUInt64]
  have shape : ∃ lead behind, octets = lead :: behind ∧ lead.toNat < 128 ∧
      (behind ≠ [] → 128 * 256 ^ (behind.length - 1) ≤ ofBytes (lead :: behind)) := by
    by_cases zero : invokeId.toUInt64 = 0
    · exact ⟨0x00, [], by simp [octets, encodeUnsignedIntMinimal, zero], by decide, fun none => (none rfl).elim⟩
    have first : (invokeId.toUInt64 >>> 56).toUInt8 = 0 := by
      apply UInt8.toNat_inj.mp
      rw [UInt64.toNat_toUInt8, UInt64.toNat_shiftRight, UInt32.toNat_toUInt64]
      simp only [UInt64.reduceToNat, Nat.reduceMod, Nat.shiftRight_eq_div_pow, Nat.reducePow, UInt8.reduceToNat]
      omega
    have written : octets = dropZeroBytes (bigEndian64 invokeId.toUInt64) := by
      simp [octets, encodeUnsignedIntMinimal, zero]
    rw [written]
    apply dropZeroBytes_bounds
    dsimp only
    rw [first]
    decide
  obtain ⟨lead, behind, shape, positive, lower⟩ := shape
  have upper := ofBytes_lt behind
  rw [shape, ofBytes_cons] at value
  rw [shape, List.length_cons]
  rw [ofBytes_cons] at lower
  have short : behind.length ≤ 4 := by
    by_contra long
    have nonempty : behind ≠ [] := by
      intro empty
      rw [empty] at long
      exact long (by decide)
    have grows : 256 ^ 4 ≤ 256 ^ (behind.length - 1) := Nat.pow_le_pow_right (by decide) (by omega)
    have bound := lower nonempty
    omega
  refine ⟨by omega, by omega, ?_, by rw [ofBytes_cons]; exact value, ?_⟩
  · constructor
    · intro four
      have shrinks : 256 ^ behind.length ≤ 256 ^ 3 := Nat.pow_le_pow_right (by decide) (by omega)
      have scaled := Nat.mul_le_mul (show lead.toNat ≤ 127 by omega) shrinks
      omega
    · intro below
      by_contra five
      have length : behind.length = 4 := by omega
      have bound := lower (by intro empty; rw [empty] at length; cases length)
      rw [length] at bound value
      omega
  · intro five
    have length : behind.length = 4 := by omega
    refine ⟨behind, ?_⟩
    rw [length] at value
    have zero : lead.toNat = 0 := by omega
    rw [UInt8.toNat_inj.mp (show lead.toNat = (0x00 : UInt8).toNat from zero)]

/-- The decoders of the other side all find the invokeID of a PDU around `service`. -/
structure InvokeIdAgrees (invokeId : UInt32) (service : List UInt8) : Prop where
  server : parseConfirmedRequest (encodeConfirmed tagConfirmedRequest invokeId service) = .ok (invokeId, service)
  request : decodeConfirmedPduInner (encodeConfirmed tagConfirmedRequest invokeId service) tagConfirmedRequest =
    .ok (invokeId, service)
  response : decodeConfirmedPduInner (encodeConfirmed tagConfirmedResponse invokeId service) tagConfirmedResponse =
    .ok (invokeId, service)
  client : (readElement (encodeConfirmed tagConfirmedResponse invokeId service)).toOption.bind
    (leadingUnsigned32 ·.content 0x02) = some invokeId

section Encoded

variable {invokeId : UInt32} {service : List UInt8}

theorem readElement_encodeConfirmed (outerTag : UInt8) (fits : (encodeInvokeId invokeId ++ service).length ≤ 65535) :
    readElement (encodeConfirmed outerTag invokeId service) =
      .ok { tag := outerTag, content := encodeInvokeId invokeId ++ service
            consumed := (encodeConfirmed outerTag invokeId service).length } := by
  have read := readElement_encodeTlv outerTag fits []
  rwa [List.append_nil] at read

theorem readElement_encodeInvokeId : readElement (encodeInvokeId invokeId ++ service) =
      .ok { tag := 0x02, content := encodeUnsignedIntMinimal invokeId.toUInt64
            consumed := (encodeInvokeId invokeId).length } := by
  obtain ⟨_, short, _⟩ := invokeId_octets invokeId
  exact readElement_encodeTlv 0x02 (by omega) service

theorem sliceFrom_encodeInvokeId :
    (sliceFrom (encodeInvokeId invokeId ++ service) (encodeInvokeId invokeId).length :
    Fallible MmsError _) = .ok service ∧
      (sliceFrom (encodeInvokeId invokeId ++ service) (encodeInvokeId invokeId).length : Fallible RejectReason _) =
        .ok service := by
  have inside : (encodeInvokeId invokeId).length ≤ (encodeInvokeId invokeId ++ service).length := by
    rw [List.length_append]
    omega
  rw [sliceFrom_of_le inside, sliceFrom_of_le inside, List.drop_left]
  exact ⟨rfl, rfl⟩

theorem shiftInto32_octets : shiftInto32 0 (encodeUnsignedIntMinimal invokeId.toUInt64) = invokeId := by
  obtain ⟨_, _, _, value, _⟩ := invokeId_octets invokeId
  apply UInt32.toNat_inj.mp
  rw [shiftInto32_toNat, value, show (0 : UInt32).toNat = 0 from rfl, Nat.zero_mul, Nat.zero_add]
  exact Nat.mod_eq_of_lt invokeId.toNat_lt

theorem decodeU32FromBytes_octets : decodeU32FromBytes (encodeUnsignedIntMinimal invokeId.toUInt64) =
      if invokeId.toNat < 2 ^ 31 then .ok invokeId else refuse .invalidLength := by
  obtain ⟨atLeast, _, four, _⟩ := invokeId_octets invokeId
  have nonempty : (encodeUnsignedIntMinimal invokeId.toUInt64).isEmpty = false := by
    cases octets : encodeUnsignedIntMinimal invokeId.toUInt64 with
    | nil => rw [octets] at atLeast; cases atLeast
    | cons first rest => rfl
  unfold decodeU32FromBytes
  rw [nonempty, Bool.false_or, shiftInto32_octets]
  by_cases small : invokeId.toNat < 2 ^ 31
  · have length := four.mpr small
    rw [if_pos small, if_neg (by simp; omega)]
    rfl
  · have length : ¬ (encodeUnsignedIntMinimal invokeId.toUInt64).length ≤ 4 := fun short => small (four.mp short)
    rw [if_neg small, if_pos (by simp; omega)]

theorem parseConfirmedRequest_encoded (fits : (encodeInvokeId invokeId ++ service).length ≤ 65535) :
    parseConfirmedRequest (encodeConfirmed tagConfirmedRequest invokeId service) = .ok (invokeId, service) := by
  obtain ⟨_, five, _⟩ := invokeId_octets invokeId
  have outerLength : ¬ (encodeConfirmed tagConfirmedRequest invokeId service).length < 2 := by
    simp only [encodeConfirmed, encodeTlv_length, encodeInvokeId, List.length_append]
    omega
  have innerLength : ¬ (encodeInvokeId invokeId ++ service).length < 2 := by
    simp only [encodeInvokeId, encodeTlv_length, List.length_append]
    unfold lengthSize
    split
    · omega
    · split <;> omega
  unfold parseConfirmedRequest
  rw [if_neg outerLength, readElement_encodeConfirmed tagConfirmedRequest fits]
  simp only [orReject, ok_bind]
  rw [if_neg innerLength, readElement_encodeInvokeId]
  have tag : (byteAt (encodeInvokeId invokeId ++ service) 0 : Fallible RejectReason UInt8) = .ok 0x02 := rfl
  rw [tag]
  simp only [ok_bind, ne_eq, not_true_eq_false, if_false, sliceFrom_encodeInvokeId.2]
  unfold decodeUint32Be
  rw [List.take_of_length_le five, shiftInto32_octets]
  rfl

theorem decodeConfirmedPduInner_encoded (outerTag : UInt8)
    (fits : (encodeInvokeId invokeId ++ service).length ≤ 65535) :
    decodeConfirmedPduInner (encodeConfirmed outerTag invokeId service) outerTag =
      if invokeId.toNat < 2 ^ 31 then .ok (invokeId, service) else refuse .invalidLength := by
  have outerTagged :
      (byteAt (encodeConfirmed outerTag invokeId service) 0 : Fallible MmsError UInt8) =
        .ok outerTag := rfl
  have innerTagged : (byteAt (encodeInvokeId invokeId ++ service) 0 : Fallible MmsError UInt8) = .ok 0x02 := rfl
  have outerThere : (encodeConfirmed outerTag invokeId service).isEmpty = false := rfl
  have innerThere : (encodeInvokeId invokeId ++ service).isEmpty = false := rfl
  unfold decodeConfirmedPduInner
  simp only [outerThere, outerTagged, readElement_encodeConfirmed outerTag fits, innerThere, innerTagged,
    readElement_encodeInvokeId, decodeU32FromBytes_octets, ok_bind, Bool.false_eq_true, if_false, ne_eq,
    not_true_eq_false]
  split
  · simp only [ok_bind, sliceFrom_encodeInvokeId.1]
    rfl
  · rfl

theorem leadingUnsigned32_encoded : leadingUnsigned32 (encodeInvokeId invokeId ++ service) 0x02 = some invokeId := by
  obtain ⟨atLeast, atMost, _, _, leads⟩ := invokeId_octets invokeId
  have tagged : (encodeInvokeId invokeId ++ service).head? = some 0x02 := rfl
  have collected : shiftInto32 0 (encodeUnsignedIntMinimal invokeId.toUInt64) = invokeId := shiftInto32_octets
  unfold leadingUnsigned32
  rw [if_neg (by simp [tagged]), readElement_encodeInvokeId]
  dsimp only
  by_cases five : (encodeUnsignedIntMinimal invokeId.toUInt64).length = 5
  · -- the zero octet of a number from 2^31 on is set aside
    obtain ⟨rest, octets⟩ := leads five
    rw [octets, List.length_cons] at five
    have length : rest.length = 4 := by omega
    rw [octets] at collected ⊢
    have same : shiftInto32 0 rest = invokeId := collected
    cases rest with
    | nil => cases length
    | cons first others => simp [length, same]
  · have short : (encodeUnsignedIntMinimal invokeId.toUInt64).length ≤ 4 := by omega
    cases octets : encodeUnsignedIntMinimal invokeId.toUInt64 with
    | nil => rw [octets] at atLeast; cases atLeast
    | cons first others =>
      rw [octets] at collected short
      have kept : (match first :: others with
          | 0x00 :: rest => if rest.length = 4 then rest else 0x00 :: rest
          | value => value) = first :: others := by
        split
        · next rest same =>
          cases same
          simp only [List.length_cons] at short
          rw [if_neg (by omega)]
        · rfl
      rw [kept, collected]
      rw [if_neg (by simp only [List.isEmpty_cons, Bool.false_or, decide_eq_true_eq]; omega)]

end Encoded

theorem invokeIdAgrees_iff {invokeId : UInt32} {service : List UInt8}
    (fits : (encodeInvokeId invokeId ++ service).length ≤ 65535) :
    InvokeIdAgrees invokeId service ↔ invokeId.toNat < 2 ^ 31 := by
  constructor
  · intro agrees
    have read := agrees.response
    rw [decodeConfirmedPduInner_encoded tagConfirmedResponse fits] at read
    by_contra large
    rw [if_neg large] at read
    cases read
  · intro small
    refine ⟨parseConfirmedRequest_encoded fits, ?_, ?_, ?_⟩
    · rw [decodeConfirmedPduInner_encoded tagConfirmedRequest fits, if_pos small]
    · rw [decodeConfirmedPduInner_encoded tagConfirmedResponse fits, if_pos small]
    · rw [readElement_encodeConfirmed tagConfirmedResponse fits]
      exact leadingUnsigned32_encoded

/-- The content octets of the INTEGER that opens the content of a PDU. -/
def invokeIdOctets : Option (List UInt8) := do
  let outer ← (readElement data).toOption
  let id ← (readElement outer.content).toOption
  if id.tag = 0x02 then some id.content else none

theorem parseConfirmedRequest_eq_ok {data : List UInt8} {invokeId : UInt32} {body : List UInt8}
    (parsed : parseConfirmedRequest data = .ok (invokeId, body)) :
    ∃ octets, invokeIdOctets data = some octets ∧ invokeId = decodeUint32Be octets := by
  unfold parseConfirmedRequest at parsed
  split at parsed
  · cases parsed
  obtain ⟨outer, outerRead, parsed⟩ := bind_eq_ok parsed
  have outerOk := orReject_eq_ok outerRead
  dsimp only at parsed
  split at parsed
  · cases parsed
  obtain ⟨first, firstRead, parsed⟩ := bind_eq_ok parsed
  split at parsed
  · cases parsed
  next tagged =>
  obtain ⟨id, idRead, parsed⟩ := bind_eq_ok parsed
  have idOk := orReject_eq_ok idRead
  obtain ⟨service, _, result⟩ := bind_eq_ok parsed
  cases result
  obtain ⟨lead, rest, len, hdr, content, _, _, shape⟩ := readElement_inv idOk
  have tag : id.tag = 0x02 := by
    rw [content] at firstRead
    cases firstRead
    rw [shape]
    simpa using tagged
  exact ⟨id.content, by simp [invokeIdOctets, outerOk, idOk, tag, Except.toOption], rfl⟩

theorem parseConfirmedRequest_of_octets {data octets : List UInt8} (found : invokeIdOctets data = some octets) :
    ∃ body, parseConfirmedRequest data = .ok (decodeUint32Be octets, body) := by
  unfold invokeIdOctets at found
  cases outerOk : readElement data with
  | error fault => simp [outerOk, Except.toOption] at found
  | ok outer =>
    cases idOk : readElement outer.content with
    | error fault => simp [outerOk, idOk, Except.toOption] at found
    | ok id =>
      simp only [outerOk, idOk, Except.toOption, Option.bind_eq_bind, Option.bind_some,
        Option.ite_none_right_eq_some, Option.some.injEq] at found
      obtain ⟨tag, rfl⟩ := found
      have outerBounds := readElement_bounds outerOk
      have idBounds := readElement_bounds idOk
      obtain ⟨lead, rest, len, hdr, content, _, _, shape⟩ := readElement_inv idOk
      have first : (byteAt outer.content 0 : Fallible RejectReason UInt8) = .ok 0x02 := by
        rw [content, ← tag, shape]
        rfl
      refine ⟨outer.content.drop id.consumed, ?_⟩
      unfold parseConfirmedRequest
      rw [if_neg (by omega), outerOk]
      simp only [orReject, ok_bind]
      rw [if_neg (by omega), first, idOk]
      simp only [ok_bind, ne_eq, not_true_eq_false, if_false]
      rw [sliceFrom_of_le idBounds.2]
      rfl

/-- The request is answered or rejected under the number its INTEGER denotes, if under any. -/
def AnsweredUnderWireId : Prop :=
  ∀ active permitted recognized outcome invokeId,
    handleConfirmedRequest active permitted recognized data = .ok outcome → outcome.invokeId = some invokeId →
      ∃ octets, invokeIdOctets data = some octets ∧ signedOfBytes octets = some (invokeId.toNat : Int)

/-- The INTEGER denotes a 32-bit unsigned number and has at most five octets (or is zero). -/
def Unsigned32Request : Prop :=
  ∀ octets, invokeIdOctets data = some octets →
    ∃ number, signedOfBytes octets = some number ∧ 0 ≤ number ∧ number < 2 ^ 32 ∧ (octets.length ≤ 5 ∨ number = 0)

theorem handleConfirmedRequest_invokeId {active permitted : Bool} {recognized : List UInt8 → Bool} {data : List UInt8}
    {outcome : ConfirmedOutcome} {invokeId : UInt32}
    (handled : handleConfirmedRequest active permitted recognized data = .ok outcome)
    (under : outcome.invokeId = some invokeId) : ∃ body, parseConfirmedRequest data = .ok (invokeId, body) := by
  unfold handleConfirmedRequest at handled
  split at handled
  · cases handled
    cases under
  split at handled
  · next id body parsed =>
    have same : outcome.invokeId = some id := by
      split at handled
      · cases handled
        rfl
      · split at handled <;> cases handled <;> rfl
    rw [same] at under
    cases under
    exact ⟨body, parsed⟩
  · cases handled
    cases under
  · cases handled
  · cases handled

theorem decodeUint32Be_denotes_iff : signedOfBytes octets = some ((decodeUint32Be octets).toNat : Int) ↔
      ∃ number, signedOfBytes octets = some number ∧ 0 ≤ number ∧ number < 2 ^ 32 ∧
        (octets.length ≤ 5 ∨ number = 0) := by
  have word : (decodeUint32Be octets).toNat = ofBytes (octets.take 5) % 2 ^ 32 := by
    unfold decodeUint32Be
    rw [shiftInto32_toNat]
    simp
  have split := ofBytes_append (octets.take 5) (octets.drop 5)
  rw [List.take_append_drop] at split
  constructor
  · intro denotes
    have small := (decodeUint32Be octets).toNat_lt
    refine ⟨_, denotes, by omega, by omega, ?_⟩
    by_cases short : octets.length ≤ 5
    · exact .inl short
    right
    have value := signedOfBytes_nonneg denotes (by omega)
    have wide : 256 ≤ 256 ^ (octets.drop 5).length := by
      have longer : 1 ≤ (octets.drop 5).length := by
        rw [List.length_drop]
        omega
      simpa using Nat.pow_le_pow_right (show 0 < 256 by decide) longer
    have scaled := Nat.mul_le_mul_left (ofBytes (octets.take 5)) wide
    have unwrapped : ofBytes (octets.take 5) % 2 ^ 32 = ofBytes (octets.take 5) := Nat.mod_eq_of_lt (by omega)
    omega
  · rintro ⟨number, denotes, nonnegative, bounded, short | zero⟩
    · have value := signedOfBytes_nonneg denotes nonnegative
      rw [denotes, word, List.take_of_length_le short, Nat.mod_eq_of_lt (by omega), value]
    · subst zero
      have value := signedOfBytes_nonneg denotes (Int.le_refl 0)
      have none : ofBytes (octets.take 5) = 0 := by
        have positive : 0 < 256 ^ (octets.drop 5).length := Nat.pow_pos (by decide)
        have scaled := Nat.mul_le_mul_left (ofBytes (octets.take 5)) positive
        omega
      rw [denotes, word, none]
      rfl

/-- The invokeID of a Read or Write PDU is found by every decoder of the other side exactly below
2^31, and the server answers a request under the number on the wire exactly if that is a 32-bit
unsigned number of at most five octets. -/
theorem invokeId_carried_iff (invokeId : UInt32) (service data : List UInt8) :
    ((encodeInvokeId invokeId ++ service).length ≤ 65535 →
      (InvokeIdAgrees invokeId service ↔ invokeId.toNat < 2 ^ 31)) ∧
    (AnsweredUnderWireId data ↔ Unsigned32Request data) := by
  refine ⟨fun fits => invokeIdAgrees_iff fits, ?_, ?_⟩
  · intro answered octets found
    obtain ⟨body, parsed⟩ := parseConfirmedRequest_of_octets found
    have handled : handleConfirmedRequest true true (fun _ => true) data =
        .ok (.answer (decodeUint32Be octets) body) := by
      simp [handleConfirmedRequest, parsed, pure, Except.pure]
    obtain ⟨again, same, denotes⟩ := answered _ _ _ _ _ handled rfl
    rw [found] at same
    cases same
    exact (decodeUint32Be_denotes_iff octets).mp denotes
  · intro unsigned active permitted recognized outcome invokeId handled under
    obtain ⟨body, parsed⟩ := handleConfirmedRequest_invokeId handled under
    obtain ⟨octets, found, rfl⟩ := parseConfirmedRequest_eq_ok parsed
    exact ⟨octets, found, (decodeUint32Be_denotes_iff octets).mpr (unsigned octets found)⟩

/-- A Read response with invokeID 2^31 is refused by the client's decoder, and a request whose
invokeID is 2^32 + 1 or -1 is executed under another identifier. -/
theorem invokeId_lost_above_sign_and_beyond_word :
    decodeConfirmedPduInner (encodeConfirmed tagConfirmedResponse 0x80000000 [0xa4, 0x02, 0xa1, 0x00])
        tagConfirmedResponse = refuse .invalidLength ∧
      handleConfirmedRequest true true (fun _ => true) [0xa0, 0x07, 0x02, 0x05, 0x01, 0x00, 0x00, 0x00, 0x01] =
        .ok (.answer 1 []) ∧
      (invokeIdOctets [0xa0, 0x07, 0x02, 0x05, 0x01, 0x00, 0x00, 0x00, 0x01]).bind signedOfBytes = some 4294967297 ∧
      handleConfirmedRequest true true (fun _ => true) [0xa0, 0x03, 0x02, 0x01, 0xff] = .ok (.answer 255 []) ∧
      (invokeIdOctets [0xa0, 0x03, 0x02, 0x01, 0xff]).bind signedOfBytes = some (-1) := by
  decide +kernel

theorem orReject_safe {ε α : Type} {reason : RejectReason} {result : Fallible ε α} (safe : result.Safe) :
    (orReject reason result).Safe := by
  cases result with
  | ok value => trivial
  | error fault =>
    cases fault with
    | refused error => trivial
    | panicked | diverged => exact safe.elim

theorem parseConfirmedRequest_safe : (parseConfirmedRequest data).Safe := by
  unfold parseConfirmedRequest
  split
  · trivial
  refine (orReject_safe (readElement_safe data)).bind fun element _ => ?_
  dsimp only
  split
  · trivial
  rw [byteAt_of_lt (by omega), ok_bind]
  split
  · trivial
  refine (orReject_safe (readElement_safe _)).bind fun id read => ?_
  rw [sliceFrom_of_le (readElement_bounds (orReject_eq_ok read)).2]
  trivial

theorem decodeConfirmedPduInner_safe : (decodeConfirmedPduInner data outerTag).Safe := by
  unfold decodeConfirmedPduInner
  split
  · trivial
  next filled =>
  rw [byteAt_of_lt (List.length_pos_iff.mpr (by simpa using filled)), ok_bind]
  split
  · trivial
  refine (readElement_safe data).bind fun element _ => ?_
  dsimp only
  split
  · trivial
  next filled =>
  rw [byteAt_of_lt (List.length_pos_iff.mpr (by simpa using filled)), ok_bind]
  split
  · trivial
  refine (readElement_safe _).bind fun id read => .bind ?_ fun _ _ => ?_
  · unfold decodeU32FromBytes
    split <;> trivial
  · rw [sliceFrom_of_le (readElement_bounds read).2]
    trivial

/-- Whatever octets arrive as a confirmed PDU, no decoder of its invokeID reads out of bounds, and
the server answers or rejects. -/
theorem confirmed_pdu_always_handled : (decodeConfirmedPduInner data outerTag).Safe ∧
    ∃ outcome, handleConfirmedRequest active permitted recognized incoming = .ok outcome := by
  refine ⟨decodeConfirmedPduInner_safe data outerTag, ?_⟩
  have safe := parseConfirmedRequest_safe incoming
  unfold handleConfirmedRequest
  cases active with
  | false => exact ⟨_, rfl⟩
  | true =>
    cases parsed : parseConfirmedRequest incoming with
    | ok request =>
      simp only [Bool.not_true, Bool.false_eq_true, if_false]
      split_ifs <;> exact ⟨_, rfl⟩
    | error fault =>
      rw [parsed] at safe
      cases fault with
      | refused reason => exact ⟨_, rfl⟩
      | panicked | diverged => exact safe.elim

end Iec61850.Mms
