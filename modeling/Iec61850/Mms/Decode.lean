import Iec61850.Mms.Data
import Iec61850.Wire.BigEndian
import Iec61850.Wire.Reader

/-!
The decoders of MMS data and of the elements of Read and Write responses. Indexing and slicing fault
when they leave the octets at hand, and a loop faults when it makes no progress, so that "never
panics" is a statement about the model.
-/

namespace Iec61850.Mms

open List Wire Wire.Fallible

inductive Asn1Error where
  | truncatedInput
  | lengthTooLong (firstByte : UInt8)
  deriving DecidableEq, Repr

inductive MmsError where
  | invalidTag (expected actual : UInt8)
  | invalidLength
  | truncatedPdu
  | nestingLevelExceeded (max got : UInt8)
  | invalidUtf8
  | unknownDataTag (tag : UInt8)
  | unknownDataAccessError (code : UInt8)
  | invalidUtcTimeLength (actual : Nat)
  | invalidFloatSize (actual : Nat)
  | unknownWriteOutcomeTag (tag : UInt8)
  | invalidPdu
  | identifierTooLong (actual : Nat)
  | unknownObjectNameTag (tag : UInt8)
  | unknownVasTag (tag : UInt8)
  | alternateAccessUnsupported (reason : String)
  deriving DecidableEq, Repr

def MmsError.ofAsn1 : Asn1Error → MmsError
  | .truncatedInput => .truncatedPdu
  | .lengthTooLong _ => .invalidLength

def decodeLength (data : List UInt8) : Fallible Asn1Error (Nat × Nat) := do
  if data.isEmpty then
    refuse .truncatedInput
  else
    let b0 ← byteAt data 0
    if b0 < 0x80 then
      return (b0.toNat, 1)
    else if b0 = 0x81 then
      if data.length < 2 then
        refuse .truncatedInput
      else
        return ((← byteAt data 1).toNat, 2)
    else if b0 = 0x82 then
      if data.length < 3 then
        refuse .truncatedInput
      else
        let high ← byteAt data 1
        let low ← byteAt data 2
        return (high.toNat <<< 8 ||| low.toNat, 3)
    else
      refuse (.lengthTooLong b0)

def orMmsError {α : Type} : Fallible Asn1Error α → Fallible MmsError α
  | .ok value => .ok value
  | .error (.refused error) => refuse (.ofAsn1 error)
  | .error .panicked => .error .panicked
  | .error .diverged => .error .diverged

structure Element where
  tag : UInt8
  content : List UInt8
  consumed : Nat

/-- The opening of every decoder: tag and length, and a content that does not leave the input. -/
def readElement (data : List UInt8) : Fallible MmsError Element := do
  if data.isEmpty then
    refuse .truncatedPdu
  else
    let tag ← byteAt data 0
    let (len, hdr) ← orMmsError (decodeLength (← sliceFrom data 1))
    let valStart := 1 + hdr
    if data.length < valStart + len then
      refuse .truncatedPdu
    else
      let content ← slice data valStart (valStart + len)
      return { tag, content, consumed := valStart + len }

theorem decodeLength_safe (data : List UInt8) : (decodeLength data).Safe := by
  cases data with
  | nil => trivial
  | cons first rest =>
    unfold decodeLength
    simp only [isEmpty_cons, Bool.false_eq_true, if_false, byteAt_zero_cons, ok_bind]
    split
    · trivial
    split
    · split
      · trivial
      · rw [byteAt_of_lt (by omega)]
        trivial
    split
    · split
      · trivial
      · rw [byteAt_of_lt (by omega), ok_bind, byteAt_of_lt (by omega)]
        trivial
    · trivial

variable {data : List UInt8} {len : Nat} {α : Type} {result : Fallible Asn1Error α}

theorem decodeLength_bounds {hdr : Nat} (read : decodeLength data = .ok (len, hdr)) :
    1 ≤ hdr ∧ hdr ≤ data.length ∧ len < 65536 := by
  cases data with
  | nil => cases read
  | cons first rest =>
    unfold decodeLength at read
    simp only [isEmpty_cons, Bool.false_eq_true, if_false, byteAt_zero_cons, ok_bind] at read
    split at read
    · cases read
      have small := first.toNat_lt
      simp only [length_cons]
      omega
    split at read
    · split at read
      · cases read
      · rw [byteAt_of_lt (by omega)] at read
        cases read
        have small := ((first :: rest)[1]).toNat_lt
        omega
    split at read
    · split at read
      · cases read
      · rw [byteAt_of_lt (by omega), ok_bind, byteAt_of_lt (by omega)] at read
        cases read
        have small : (first :: rest)[1].toNat <<< 8 ||| (first :: rest)[2].toNat < 2 ^ 16 := by
          apply Nat.or_lt_two_pow
          · have byte := ((first :: rest)[1]).toNat_lt
            rw [Nat.shiftLeft_eq]
            omega
          · have byte := ((first :: rest)[2]).toNat_lt
            omega
        omega
    · cases read

theorem decodeLength_encodeLength (fits : len ≤ 65535) (rest : List UInt8) :
    decodeLength (encodeLength len ++ rest) = .ok (len, lengthSize len) := by
  have byte {number : Nat} (small : number < 256) : (UInt8.ofNat number).toNat = number := by
    rw [UInt8.toNat_ofNat']
    omega
  unfold encodeLength lengthSize
  split
  · have short : UInt8.ofNat len < 0x80 := by
      rw [UInt8.lt_iff_toNat_lt, byte (by omega), show (0x80 : UInt8).toNat = 128 from rfl]
      omega
    simp [decodeLength, short, byte (show len < 256 by omega), pure, Except.pure]
  split
  · have first : ¬ ((0x81 : UInt8) < 0x80) := by decide
    simp [decodeLength, first, byteAt, byte (show len < 256 by omega), pure, Except.pure]
  have first : ¬ ((0x82 : UInt8) < 0x80) := by decide
  have low : (UInt8.ofNat len).toNat = len % 256 := by
    rw [UInt8.toNat_ofNat']
  have joined : (len / 256) <<< 8 ||| len % 256 = len := by
    rw [← Nat.shiftLeft_add_eq_or_of_lt (by omega), Nat.shiftLeft_eq]
    omega
  simp [decodeLength, first, byteAt, byte (show len / 256 < 256 by omega), low, joined, pure, Except.pure]

@[simp] theorem orMmsError_ok (value : α) : orMmsError (.ok value) = .ok value := rfl

theorem orMmsError_safe (safe : result.Safe) : (orMmsError result).Safe := by
  cases result with
  | ok value => trivial
  | error fault =>
    cases fault with
    | refused error => trivial
    | panicked | diverged => exact safe.elim

theorem orMmsError_eq_ok {value : α} (success : orMmsError result = .ok value) : result = .ok value := by
  cases result with
  | ok read =>
    rw [orMmsError_ok] at success
    cases success
    rfl
  | error fault => cases fault <;> cases success

theorem readElement_safe (data : List UInt8) : (readElement data).Safe := by
  cases data with
  | nil => trivial
  | cons first rest =>
    unfold readElement
    simp only [firstByte_cons, sliceFrom_one_cons, ok_bind]
    apply (orMmsError_safe (decodeLength_safe rest)).bind
    intro header _
    split
    · trivial
    · rw [slice_of_le (by omega) (by omega)]
      trivial

theorem readElement_bounds {element : Element} (read : readElement data = .ok element) :
    2 ≤ element.consumed ∧ element.consumed ≤ data.length := by
  cases data with
  | nil => cases read
  | cons first rest =>
    unfold readElement at read
    simp only [firstByte_cons, sliceFrom_one_cons, ok_bind] at read
    obtain ⟨⟨len, hdr⟩, header, body⟩ := bind_eq_ok read
    obtain ⟨atLeast, _, _⟩ := decodeLength_bounds (orMmsError_eq_ok header)
    dsimp only at body
    split at body
    · cases body
    rw [slice_of_le (by omega) (by omega)] at body
    cases body
    dsimp only
    omega

theorem readElement_encodeTlv (tag : UInt8) {content : List UInt8} (fits : content.length ≤ 65535) (rest : List UInt8) :
    readElement (encodeTlv tag content ++ rest) =
      .ok { tag, content, consumed := (encodeTlv tag content).length } := by
  have header := decodeLength_encodeLength fits (content ++ rest)
  have size : ((encodeLength content.length).length) = lengthSize content.length := encodeLength_length _
  unfold readElement
  simp only [encodeTlv, cons_append, append_assoc, firstByte_cons, sliceFrom_one_cons, ok_bind, header, orMmsError_ok]
  rw [if_neg (by simp only [length_cons, length_append, size]; omega)]
  rw [slice_of_le (by omega) (by simp only [length_cons, length_append, size]; omega)]
  have body : ((tag :: (encodeLength content.length ++ (content ++ rest))).take
      (1 + lengthSize content.length + content.length)).drop (1 + lengthSize content.length) = content := by
    rw [Nat.add_comm 1, Nat.add_right_comm, take_succ_cons, drop_succ_cons, ← size]
    rw [← append_assoc, ← length_append, take_left, drop_left]
  rw [body]
  simp only [ok_bind, length_cons, length_append, size]
  congr 2
  omega

def signFill : List UInt8 → UInt64
  | [] => 0
  | first :: _ => if first &&& 0x80 != 0 then 0xffffffffffffffff else 0

/-- The accumulator is an `i64`, kept here as its bit pattern. -/
def decodeSignedInt (data : List UInt8) : Fallible MmsError Int64 :=
  if data.isEmpty || 8 < data.length then
    refuse .invalidLength
  else
    return (shiftInto64 (signFill data) data).toInt64

def decodeUnsignedInt (data : List UInt8) : Fallible MmsError UInt64 :=
  if data.isEmpty || 8 < data.length then
    refuse .invalidLength
  else
    return shiftInto64 0 data

def decodeBitString : List UInt8 → Fallible MmsError (UInt8 × List UInt8)
  | [] => refuse .invalidLength
  | padding :: data =>
    if 7 < padding || (data.isEmpty && padding != 0) then
      refuse .invalidPdu
    else
      return (padding, data)

def decodeFloatingPoint (data : List UInt8) : Fallible MmsError MmsData := do
  if data.length = 5 then
    return .float32 (shiftInto32 0 (← slice data 1 5))
  else if data.length = 9 then
    return .float64 (shiftInto64 0 (← slice data 1 9))
  else
    refuse (.invalidFloatSize data.length)

def decodeUtf8 (data : List UInt8) : Fallible MmsError String :=
  match String.fromUTF8? ⟨data.toArray⟩ with
  | some text => .ok text
  | none => refuse .invalidUtf8

/-- The content of a value by its tag; `items` decodes the members of an array or a structure. -/
def decodeContent (items : List UInt8 → Fallible MmsError (List MmsData)) (tag : UInt8) (content : List UInt8) :
    Fallible MmsError MmsData := do
  match tag with
  | 0x83 =>
    if content.isEmpty then refuse .invalidLength else return .boolean ((← byteAt content 0) != 0)
  | 0xa1 => return .array (← items content)
  | 0xa2 => return .struct (← items content)
  | 0x85 => return .integer (← decodeSignedInt content)
  | 0x86 => return .unsigned (← decodeUnsignedInt content)
  | 0x87 => decodeFloatingPoint content
  | 0x89 => return .octetString content
  | 0x8a => return .visibleString (← decodeUtf8 content)
  | 0x8b => return .generalizedTime (← decodeUtf8 content)
  | 0x8c =>
    if content.length ≠ 4 ∧ content.length ≠ 6 then refuse .invalidLength else return .binaryTime content
  | 0x84 =>
    let (padding, data) ← decodeBitString content
    return .bitString padding data
  | 0x8e =>
    let (padding, data) ← decodeBitString content
    return .booleanArray padding data
  | 0x90 => return .mmsString (← decodeUtf8 content)
  | 0x91 =>
    if exact : content.length = 8 then
      return .utcTime ⟨content.toArray, exact⟩
    else
      refuse (.invalidUtcTimeLength content.length)
  | other => refuse (.unknownDataTag other)

def nextDepth (depth : UInt8) : Fallible MmsError UInt8 :=
  if depth = 255 then .error .panicked else .ok (depth + 1)

section

variable {depth : UInt8} (room : depth.toNat < 255)

include room

theorem nextDepth_of_lt : nextDepth depth = .ok (depth + 1) := by
  apply if_neg
  intro last
  rw [last] at room
  exact absurd room (by decide)

theorem depth_succ : (depth + 1).toNat = depth.toNat + 1 := by
  rw [UInt8.toNat_add, show (1 : UInt8).toNat = 1 from rfl]
  omega

end

namespace MmsData

/-- `decodeRecursive` with the levels left below the ceiling counted down. -/
def decodeLevels (maxDepth : UInt8) : Nat → UInt8 → List UInt8 → Fallible MmsError (MmsData × Nat)
  | 0, depth, _ => refuse (.nestingLevelExceeded maxDepth depth)
  | levels + 1, depth, data => do
      let element ← readElement data
      let value ← decodeContent
        (fun content => do
          let below ← nextDepth depth
          readWhole (decodeLevels maxDepth levels below) content)
        element.tag element.content
      return (value, element.consumed)

/-- A value at level `depth`, refused when `depth` is above the ceiling. -/
def decodeRecursive (data : List UInt8) (depth maxDepth : UInt8) : Fallible MmsError (MmsData × Nat) :=
  decodeLevels maxDepth (maxDepth.toNat + 1 - depth.toNat) depth data

def decodeWithMax (data : List UInt8) (maxDepth : UInt8) : Fallible MmsError (MmsData × Nat) :=
  decodeRecursive data 0 maxDepth

def maxDataNestingDepth : UInt8 := 32

def effectiveNestingCap (localCap : UInt8) (negotiated : Option UInt8) : UInt8 :=
  match negotiated with
  | some level => if level < localCap then level else localCap
  | none => localCap

def decode (data : List UInt8) : Fallible MmsError (MmsData × Nat) := decodeRecursive data 0 maxDataNestingDepth

end MmsData

inductive DataAccessError where
  | objectInvalidated
  | hardwareFault
  | temporarilyUnavailable
  | objectAccessDenied
  | objectUndefined
  | invalidAddress
  | typeUnsupported
  | typeInconsistent
  | objectAttributeInconsistent
  | objectAccessUnsupported
  | objectNonExistent
  | objectValueInvalid
  deriving DecidableEq, Repr

namespace DataAccessError

def fromCode (code : UInt8) : Fallible MmsError DataAccessError :=
  match code with
  | 0 => .ok .objectInvalidated
  | 1 => .ok .hardwareFault
  | 2 => .ok .temporarilyUnavailable
  | 3 => .ok .objectAccessDenied
  | 4 => .ok .objectUndefined
  | 5 => .ok .invalidAddress
  | 6 => .ok .typeUnsupported
  | 7 => .ok .typeInconsistent
  | 8 => .ok .objectAttributeInconsistent
  | 9 => .ok .objectAccessUnsupported
  | 10 => .ok .objectNonExistent
  | 11 => .ok .objectValueInvalid
  | other => refuse (.unknownDataAccessError other)

def code : DataAccessError → UInt8
  | .objectInvalidated => 0
  | .hardwareFault => 1
  | .temporarilyUnavailable => 2
  | .objectAccessDenied => 3
  | .objectUndefined => 4
  | .invalidAddress => 5
  | .typeUnsupported => 6
  | .typeInconsistent => 7
  | .objectAttributeInconsistent => 8
  | .objectAccessUnsupported => 9
  | .objectNonExistent => 10
  | .objectValueInvalid => 11

end DataAccessError

inductive AccessResult where
  | success (data : MmsData)
  | failure (error : DataAccessError)

def AccessResult.decode (data : List UInt8) : Fallible MmsError (AccessResult × Nat) := do
  if data.isEmpty then
    refuse .truncatedPdu
  else if (← byteAt data 0) = 0x80 then
    let (len, hdr) ← orMmsError (decodeLength (← sliceFrom data 1))
    let valStart := 1 + hdr
    if data.length < valStart + len then
      refuse .truncatedPdu
    else if len = 0 then
      refuse .invalidLength
    else
      let error ← DataAccessError.fromCode (← byteAt data valStart)
      return (.failure error, valStart + len)
  else
    let (value, consumed) ← MmsData.decode data
    return (.success value, consumed)

inductive WriteOutcome where
  | success
  | failure (error : DataAccessError)
  deriving DecidableEq, Repr

def WriteOutcome.decode (data : List UInt8) : Fallible MmsError (WriteOutcome × Nat) := do
  if data.isEmpty then
    refuse .truncatedPdu
  else
    match ← byteAt data 0 with
    | 0x81 =>
      let (len, hdr) ← orMmsError (decodeLength (← sliceFrom data 1))
      return (.success, 1 + hdr + len)
    | 0x80 =>
      let (len, hdr) ← orMmsError (decodeLength (← sliceFrom data 1))
      let valStart := 1 + hdr
      if data.length < valStart + len then
        refuse .truncatedPdu
      else if len = 0 ∨ 4 < len then
        refuse .invalidLength
      else
        let error ← DataAccessError.fromCode (← byteAt data valStart)
        return (.failure error, valStart + len)
    | other => refuse (.unknownWriteOutcomeTag other)

def decodeListOfAccessResult (data : List UInt8) : Fallible MmsError (List AccessResult) :=
  readWhole AccessResult.decode data

def decodeWriteResponseInner (data : List UInt8) : Fallible MmsError (List WriteOutcome) :=
  readWhole WriteOutcome.decode data

end Iec61850.Mms
