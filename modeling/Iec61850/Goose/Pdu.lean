import Iec61850.Goose.Frame

/-!
The IECGoosePdu: the encoder, and the decoder that walks the members of the PDU and of the values
with a cursor.
-/

namespace Iec61850.Goose

open Model Mms Wire Wire.Fallible

def gooseStringMaxLen : Nat := 129
def gooseDataMaxDepth : Nat := 8

structure GoosePdu where
  gocbRef : String
  timeAllowedToLive : UInt32
  datSet : String
  goId : String
  t : UtcTime
  stNum : UInt32
  sqNum : UInt32
  simulation : Bool
  confRev : UInt32
  ndsCom : Bool
  numDatasetEntries : UInt32
  allData : List MmsValue

/-- A number behind a zero octet, with the zero octets in front dropped while a clear sign bit
remains. -/
def encodeU32Integer (value : UInt32) : List UInt8 := dropZeroBytes (0x00 :: bigEndian32 value)

def encodeBool (value : Bool) : List UInt8 := [if value then 0x01 else 0x00]

/-- Drops a leading 0xff as long as the next octet still carries the sign. -/
def dropOnesBytes : List UInt8 → List UInt8
  | first :: second :: rest =>
    if first == 0xff && second &&& 0x80 != 0 then dropOnesBytes (second :: rest) else first :: second :: rest
  | bytes => bytes

def encodeInteger (value : Int64) : List UInt8 :=
  let be := bigEndian64 value.toUInt64
  if 0 ≤ value then dropZeroBytes be else dropOnesBytes be

def encodeUnsigned (value : UInt64) : List UInt8 := dropZeroBytes (0x00 :: bigEndian64 value)

/-- The cases of `encodeMmsValue` that cannot fail; `items` are the octets of the members. -/
def encodeForm (items : List UInt8) : MmsValue → List UInt8
  | .boolean value => encodeTlv 0x83 (encodeBool value)
  | .integer value => encodeTlv 0x85 (encodeInteger value)
  | .unsigned value => encodeTlv 0x86 (encodeUnsigned value)
  | .float32 bits => encodeTlv 0x87 (0x08 :: bigEndian32 bits)
  | .float64 bits => encodeTlv 0x87 (0x0b :: bigEndian64 bits)
  | .bitString padding data => encodeTlv 0x84 (padding :: data)
  | .octetString bytes => encodeTlv 0x89 bytes
  | .visibleString text => encodeTlv 0x8a (stringBytes text)
  | .mmsString text => encodeTlv 0x90 (stringBytes text)
  | .utcTime bytes => encodeTlv 0x91 bytes.toList
  | .binaryTime bytes => encodeTlv 0x8c bytes
  | .array _ => encodeTlv 0xa1 items
  | .struct _ => encodeTlv 0xa2 items

mutual

def encodeMmsValue (value : MmsValue) (depth : Nat) : Except GooseError (List UInt8) :=
  if gooseDataMaxDepth < depth then
    .error (.subLevel .overflow)
  else
    match value with
    | .array items | .struct items => do
      return encodeForm (← encodeMmsValues items (depth + 1)) value
    | _ => .ok (encodeForm [] value)

def encodeMmsValues (items : List MmsValue) (depth : Nat) : Except GooseError (List UInt8) :=
  match items with
  | [] => .ok []
  | item :: rest => do return (← encodeMmsValue item depth) ++ (← encodeMmsValues rest depth)

end

def GoosePdu.encodeBer (pdu : GoosePdu) : Except GooseError (List UInt8) := do
  let allData ← encodeMmsValues pdu.allData 0
  return encodeTlv 0x61 (encodeTlv 0x80 (stringBytes pdu.gocbRef)
    ++ encodeTlv 0x81 (encodeU32Integer pdu.timeAllowedToLive)
    ++ encodeTlv 0x82 (stringBytes pdu.datSet) ++ encodeTlv 0x83 (stringBytes pdu.goId)
    ++ encodeTlv 0x84 pdu.t.toBytes.toList
    ++ encodeTlv 0x85 (encodeU32Integer pdu.stNum) ++ encodeTlv 0x86 (encodeU32Integer pdu.sqNum)
    ++ encodeTlv 0x87 (encodeBool pdu.simulation) ++ encodeTlv 0x88 (encodeU32Integer pdu.confRev)
    ++ encodeTlv 0x89 (encodeBool pdu.ndsCom)
    ++ encodeTlv 0x8a (encodeU32Integer pdu.numDatasetEntries) ++ encodeTlv 0xab allData)

variable (error : GooseError) (members : GooseMembers) (items values : Fallible GooseError (List MmsValue))
  (tag : UInt8) (bytes data value : List UInt8) (pos start stop pduEnd maxLen : Nat)

def readTlvHeader : Fallible GooseError (UInt8 × Nat × Nat) := do
  if stop ≤ pos then
    refuse (.truncatedInput 1 0)
  else
    let tag ← byteAt data pos
    let (valueLen, lenBytes) ← orGooseError (decodeLength (← slice data (pos + 1) stop))
    let valueStart := pos + 1 + lenBytes
    let valueEnd := valueStart + valueLen
    if stop < valueEnd then refuse (.truncatedInput valueEnd stop) else return (tag, valueStart, valueEnd)

/-- Five octets are a number only if the first of them is the zero in front of the sign. -/
def decodeU32 : Fallible GooseError UInt32 :=
  match bytes with
  | [] => refuse .lengthMismatch
  | first :: rest =>
    if first = 0x00 ∧ rest.length = 4 then .ok (shiftInto32 0 rest)
    else if 4 < bytes.length then refuse .lengthMismatch
    else .ok (shiftInto32 0 bytes)

def decodeUtf8 : Fallible GooseError String :=
  match String.fromUTF8? ⟨value.toArray⟩ with
  | some text => .ok text
  | none => refuse error

def decodeBool : Bool := value.head?.getD 0 != 0

def decodeBitString : Fallible GooseError MmsValue := do
  if value.length < 2 then
    refuse .lengthMismatch
  else
    let padding ← byteAt value 0
    if 7 < padding then refuse (.invalidPadding padding) else return .bitString padding (← sliceFrom value 1)

def decodeInteger : Fallible GooseError MmsValue :=
  if 8 < value.length then refuse .lengthMismatch
  else if value.length = 0 then refuse .lengthMismatch
  else .ok (.integer (shiftInto64 (signFill value) value).toInt64)

/-- Nine octets are a number only if the first of them is the zero in front of the sign. -/
def decodeUnsigned : Fallible GooseError MmsValue := do
  if value.length = 0 then
    refuse .lengthMismatch
  else if value.length = 9 then
    if (← byteAt value 0) ≠ 0x00 then refuse .lengthMismatch
    else return .unsigned (shiftInto64 0 (← sliceFrom value 1))
  else if value.length ≤ 8 then
    return .unsigned (shiftInto64 0 value)
  else
    refuse .lengthMismatch

def decodeFloat : Fallible GooseError MmsValue := do
  if value.length = 5 then
    return .float32 (shiftInto32 0 (← slice value 1 5))
  else if value.length = 9 then
    return .float64 (shiftInto64 0 (← slice value 1 9))
  else
    refuse .lengthMismatch

def decodeContent : Fallible GooseError MmsValue := do
  match tag with
  | 0x83 => return .boolean (decodeBool value)
  | 0x84 => decodeBitString value
  | 0x85 => decodeInteger value
  | 0x86 => decodeUnsigned value
  | 0x87 => decodeFloat value
  | 0x89 => return .octetString value
  | 0x8a => return .visibleString (← decodeUtf8 (.unknownTag tag) value)
  | 0x90 => return .mmsString (← decodeUtf8 (.unknownTag tag) value)
  | 0x8c => if value.length ≠ 4 ∧ value.length ≠ 6 then refuse .lengthMismatch else return .binaryTime value
  | 0x91 =>
    if exact : value.length = 8 then
      return .utcTime ⟨value.toArray, exact⟩
    else
      refuse .lengthMismatch
  | 0xa1 => return .array (← items)
  | 0xa2 => return .struct (← items)
  | 0x80 => return .octetString value
  | other => refuse (.unknownTag other)

def pushItem (decode : Nat → Fallible GooseError (MmsValue × Nat)) (items : List MmsValue) (pos : Nat) :
    Fallible GooseError (List MmsValue × Nat) := do
  let (item, next) ← decode pos
  return (items ++ [item], next)

/-- An element that many levels above the deepest one allowed. -/
def decodeDataElement (data : List UInt8) : (levels pos stop : Nat) → Fallible GooseError (MmsValue × Nat)
  | 0, _, _ => refuse (.subLevel .overflow)
  | levels + 1, pos, stop => do
      let (tag, valueStart, valueEnd) ← readTlvHeader data pos stop
      let value ← slice data valueStart valueEnd
      let items := scan (pushItem fun pos => decodeDataElement data levels pos valueEnd) valueEnd
        (valueEnd - valueStart) [] valueStart
      return (← decodeContent items tag value, valueEnd)

def decodeAllData : Fallible GooseError (List MmsValue) :=
  scan (pushItem fun pos => decodeDataElement data (gooseDataMaxDepth + 1) pos stop) stop (stop - start) [] start

def parseStringField : Fallible GooseError String :=
  if maxLen < value.length then refuse (.fieldTooLong value.length) else decodeUtf8 (.unknownTag 0) value

def decodeTimestamp : Fallible GooseError UtcTime :=
  if exact : value.length = 8 then
    match UtcTime.fromBytes ⟨value.toArray, exact⟩ with
    | .ok time => .ok time
    | .error error => refuse (.invalidTimestampQuality error)
  else
    refuse .invalidTimestamp

structure GooseMembers where
  gocbRef : Option String := none
  timeAllowedToLive : Option UInt32 := none
  datSet : Option String := none
  goId : Option String := none
  t : Option UtcTime := none
  stNum : Option UInt32 := none
  sqNum : Option UInt32 := none
  simulation : Bool := false
  confRev : Option UInt32 := none
  ndsCom : Bool := false
  numDatasetEntries : Option UInt32 := none
  allData : Option (List MmsValue) := none

/-- A member by its tag; `values` are those of allData. -/
def GooseMembers.take : Fallible GooseError GooseMembers := do
  match tag with
  | 0x80 => return { members with gocbRef := some (← parseStringField value gooseStringMaxLen) }
  | 0x81 => return { members with timeAllowedToLive := some (← decodeU32 value) }
  | 0x82 => return { members with datSet := some (← parseStringField value gooseStringMaxLen) }
  | 0x83 => return { members with goId := some (← parseStringField value gooseStringMaxLen) }
  | 0x84 => return { members with t := some (← decodeTimestamp value) }
  | 0x85 =>
    let stNum ← decodeU32 value
    if stNum = 0 then refuse .invalidStateNumber else return { members with stNum := some stNum }
  | 0x86 => return { members with sqNum := some (← decodeU32 value) }
  | 0x87 => return { members with simulation := decodeBool value }
  | 0x88 => return { members with confRev := some (← decodeU32 value) }
  | 0x89 => return { members with ndsCom := decodeBool value }
  | 0x8a => return { members with numDatasetEntries := some (← decodeU32 value) }
  | 0xab => return { members with allData := some (← values) }
  -- a member this decoder does not know is skipped
  | _ => return members

def required {α : Type} (error : GooseError) : Option α → Fallible GooseError α
  | some value => .ok value
  | none => refuse error

def GooseMembers.complete : Fallible GooseError GoosePdu := do
  let gocbRef ← required (.unknownTag 0x80) members.gocbRef
  let timeAllowedToLive ← required (.unknownTag 0x81) members.timeAllowedToLive
  let datSet ← required (.unknownTag 0x82) members.datSet
  let goId ← required (.unknownTag 0x83) members.goId
  let t ← required .missingTimestamp members.t
  let stNum ← required (.unknownTag 0x85) members.stNum
  let sqNum ← required (.unknownTag 0x86) members.sqNum
  let confRev ← required (.unknownTag 0x88) members.confRev
  let numDatasetEntries ← required (.unknownTag 0x8a) members.numDatasetEntries
  let allData ← required (.unknownTag 0xab) members.allData
  if numDatasetEntries.toNat ≠ allData.length then
    refuse (.dataSetLengthMismatch numDatasetEntries.toNat allData.length)
  else
    return {
      gocbRef, timeAllowedToLive, datSet, goId, t, stNum, sqNum, confRev, numDatasetEntries, allData
      simulation := members.simulation
      ndsCom := members.ndsCom }

def readMember (members : GooseMembers) (pos : Nat) : Fallible GooseError (GooseMembers × Nat) := do
  let (tag, valueStart, valueEnd) ← readTlvHeader data pos pduEnd
  let value ← slice data valueStart valueEnd
  return (← members.take (decodeAllData data valueStart valueEnd) tag value, valueEnd)

def GoosePdu.decodeBer : Fallible GooseError GoosePdu := do
  if data.length < 2 then
    refuse .ethernetFrameTooShort
  else if (← byteAt data 0) ≠ 0x61 then
    refuse .tagDecode
  else
    let (pduLen, lenBytes) ← orGooseError (decodeLength (← sliceFrom data 1))
    let pduStart := 1 + lenBytes
    let pduEnd := pduStart + pduLen
    if data.length < pduEnd then
      refuse (.truncatedInput pduEnd data.length)
    else
      let members ← scan (readMember data pduEnd) pduEnd pduLen {} pduStart
      members.complete

end Iec61850.Goose
