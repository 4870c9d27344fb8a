import Iec61850.Client.Compat
import Iec61850.Client.Instant
import Iec61850.Mms.InformationReport

/-!
Reports at the client: the access results of a report are parsed into its fields, and the parsed
report is folded into the values a subscriber keeps.
-/

namespace Iec61850.Client.Report

open Model Mms Wire
open Client (mmsDataToMmsValue epochMsFromBinaryTime6)

structure ReportOptFlds where
  bits : UInt16
  deriving DecidableEq, Repr

namespace ReportOptFlds

def sequenceNumber : ReportOptFlds := ⟨0x001⟩
def reportTimestamp : ReportOptFlds := ⟨0x002⟩
def reasonForInclusion : ReportOptFlds := ⟨0x004⟩
def dataSetName : ReportOptFlds := ⟨0x008⟩
def dataReference : ReportOptFlds := ⟨0x010⟩
def bufferOverflow : ReportOptFlds := ⟨0x020⟩
def entryId : ReportOptFlds := ⟨0x040⟩
def confRev : ReportOptFlds := ⟨0x080⟩
def segmentation : ReportOptFlds := ⟨0x100⟩

def contains (fields flag : ReportOptFlds) : Bool := fields.bits &&& flag.bits == flag.bits

/-- A missing second octet reads as zero. -/
def fromBitString (data : List UInt8) : ReportOptFlds :=
  let low (mask : UInt16) : UInt16 := (data[0]?.getD 0).toUInt16 &&& mask
  let high (mask : UInt16) : UInt16 := (data[1]?.getD 0).toUInt16 &&& mask
  ⟨(low 0x40).shiftRight 6 ||| (low 0x20).shiftRight 4 ||| (low 0x10).shiftRight 2 ||| low 0x08
    ||| (low 0x04).shiftLeft 2 ||| (low 0x02).shiftLeft 4 ||| (low 0x01).shiftLeft 6 ||| high 0x80
    ||| (high 0x40).shiftLeft 2⟩

end ReportOptFlds

structure ReasonForInclusion where
  dataChange : Bool
  qualityChange : Bool
  dataUpdate : Bool
  integrity : Bool
  gi : Bool
  deriving DecidableEq, Repr

namespace ReasonForInclusion

def empty : ReasonForInclusion := ⟨false, false, false, false, false⟩

def fromReasonByte (byte : UInt8) : ReasonForInclusion where
  dataChange := byte &&& 0x40 != 0
  qualityChange := byte &&& 0x20 != 0
  dataUpdate := byte &&& 0x10 != 0
  integrity := byte &&& 0x08 != 0
  gi := byte &&& 0x04 != 0

end ReasonForInclusion

structure Segmentation where
  subSeqNum : UInt16
  moreSegmentsFollow : Bool
  deriving DecidableEq, Repr

structure ParsedReport where
  rptId : String
  optFlds : ReportOptFlds
  seqNum : Option UInt16
  timestampMs : Option UInt64
  dataSetName : Option String
  bufOvfl : Option Bool
  entryId : Option (List UInt8)
  confRev : Option UInt32
  segmentation : Option Segmentation
  inclusionBits : List Bool
  dataReferences : List String
  dataValues : List MmsValue
  reasons : List ReasonForInclusion

inductive ReportParseError where
  | notAnArray (got : String)
  | missingSlot (idx : Nat) (expected : String)
  | typeMismatch (field expected got : String)
  | malformedSegmentation (message : String)
  | invalidBinaryTimeLen (got : Nat)
  deriving DecidableEq, Repr

def typeName : MmsValue → String
  | .boolean _ => "Boolean"
  | .integer _ => "Integer"
  | .unsigned _ => "Unsigned"
  | .float32 _ => "Float32"
  | .float64 _ => "Float64"
  | .bitString _ _ => "BitString"
  | .octetString _ => "OctetString"
  | .visibleString _ => "VisibleString"
  | .mmsString _ => "MmsString"
  | .utcTime _ => "UtcTime"
  | .binaryTime _ => "BinaryTime"
  | .array _ => "Array"
  | .struct _ => "Structure"

/-! The element accessors narrow the type and advance the index. -/

section

variable (elements : List MmsValue) (idx : Nat)

variable (buf data : List UInt8) (field expected : String)

def take : Except ReportParseError (MmsValue × Nat) :=
  match elements[idx]? with
  | none => .error (.missingSlot idx expected)
  | some value => .ok (value, idx + 1)

/-- An element of the right type, or a complaint about the one found. -/
def takeAs {α : Type} (narrow : MmsValue → Option α) : Except ReportParseError (α × Nat) := do
  let (value, idx) ← take elements idx field
  match narrow value with
  | some narrowed => return (narrowed, idx)
  | none => .error (.typeMismatch field expected (typeName value))

def takeVisibleString : Except ReportParseError (String × Nat) :=
  takeAs elements idx field "VisibleString" fun
    | .visibleString text => some text
    | .mmsString text => some text
    | _ => none

def takeUnsigned : Except ReportParseError (UInt64 × Nat) :=
  takeAs elements idx field "Unsigned" fun
    | .unsigned value => some value
    | _ => none

def takeBoolean : Except ReportParseError (Bool × Nat) :=
  takeAs elements idx field "Boolean" fun
    | .boolean value => some value
    | _ => none

def takeOctetString : Except ReportParseError (List UInt8 × Nat) :=
  takeAs elements idx field "OctetString" fun
    | .octetString bytes => some bytes
    | _ => none

def takeOptFlds : Except ReportParseError (ReportOptFlds × Nat) :=
  takeAs elements idx "OptFlds" "BitString" fun
    | .bitString _ data => some (.fromBitString data)
    | _ => none

def inclusionBit (i : Nat) : Bool :=
  ((data[i / 8]?.getD 0) >>> UInt8.ofNat (7 - i % 8)) &&& 0x01 == 1

def takeInclusion : Except ReportParseError (List Bool × Nat) :=
  takeAs elements idx "Inclusion" "BitString" fun
    | .bitString padding data => some ((List.range (data.length * 8 - padding.toNat)).map (inclusionBit data))
    | _ => none

def takeReason : Except ReportParseError (ReasonForInclusion × Nat) :=
  takeAs elements idx "Reason" "BitString" fun
    | .bitString _ data => some (.fromReasonByte (data[0]?.getD 0))
    | _ => none

def binaryTimeBufToUtcMs : Except ReportParseError UInt64 :=
  if buf.length = 4 then .ok (UInt64.ofNat (ofBytes buf))
  else if buf.length = 6 then .ok (epochMsFromBinaryTime6 buf)
  else .error (.invalidBinaryTimeLen buf.length)

def takeBinaryTime : Except ReportParseError (List UInt8 × Nat) :=
  takeAs elements idx "Timestamp" "BinaryTime" fun
    | .binaryTime bytes => some bytes
    | _ => none

def takeBinaryTimeMs : Except ReportParseError (UInt64 × Nat) := do
  let (buf, idx) ← takeBinaryTime elements idx
  return (← binaryTimeBufToUtcMs buf, idx)

end

variable (pdu innerBytes : List UInt8) (state : ClientReport) (otherDataSet present : Bool) (parsed : ParsedReport)

def takeIf {α : Type} (taker : Nat → Except ReportParseError (α × Nat)) (idx : Nat) :
    Except ReportParseError (Option α × Nat) :=
  if present then do
    let (value, idx) ← taker idx
    return (some value, idx)
  else
    return (none, idx)

def takeMany {α : Type} (taker : Nat → Except ReportParseError (α × Nat)) :
    (count : Nat) → (idx : Nat) → Except ReportParseError (List α × Nat)
  | 0, idx => return ([], idx)
  | count + 1, idx => do
      let (value, idx) ← taker idx
      let (values, idx) ← takeMany taker count idx
      return (value :: values, idx)

def malformed {α : Type} (message : String) : Except ReportParseError (α × Nat) → Except ReportParseError (α × Nat)
  | .ok taken => .ok taken
  | .error _ => .error (.malformedSegmentation message)

def takeSegmentation (elements : List MmsValue) (idx : Nat) : Except ReportParseError (Segmentation × Nat) := do
  let (subSeqNum, idx) ← malformed "SubSeqNum missing or wrong type" (takeUnsigned elements idx "SubSeqNum")
  let (more, idx) ← malformed "MoreSegmentsFollow missing or wrong type" (takeBoolean elements idx "MoreSegmentsFollow")
  return (⟨subSeqNum.toUInt16, more⟩, idx)

def parseElements (elements : List MmsValue) : Except ReportParseError ParsedReport := do
  let (rptId, idx) ← takeVisibleString elements 0 "RptId"
  let (optFlds, idx) ← takeOptFlds elements idx
  let (seqNum, idx) ← takeIf (optFlds.contains .sequenceNumber) (takeUnsigned elements · "SeqNum") idx
  let (timestampMs, idx) ← takeIf (optFlds.contains .reportTimestamp) (takeBinaryTimeMs elements) idx
  let (dataSetName, idx) ← takeIf (optFlds.contains .dataSetName) (takeVisibleString elements · "DataSetName") idx
  let (bufOvfl, idx) ← takeIf (optFlds.contains .bufferOverflow) (takeBoolean elements · "BufOvfl") idx
  let (entryId, idx) ← takeIf (optFlds.contains .entryId) (takeOctetString elements · "EntryId") idx
  let (confRev, idx) ← takeIf (optFlds.contains .confRev) (takeUnsigned elements · "ConfRev") idx
  let (segmentation, idx) ← takeIf (optFlds.contains .segmentation) (takeSegmentation elements) idx
  let (inclusionBits, idx) ← takeInclusion elements idx
  let includedCount := (inclusionBits.filter id).length
  let (dataReferences, idx) ←
    takeIf (optFlds.contains .dataReference) (takeMany (takeVisibleString elements · "DataReference") includedCount) idx
  let (dataValues, idx) ← takeMany (take elements · "DataValue") includedCount idx
  let (reasons, _) ← takeIf (optFlds.contains .reasonForInclusion) (takeMany (takeReason elements) includedCount) idx
  return {
    rptId, optFlds, timestampMs, dataSetName, bufOvfl, entryId, segmentation, inclusionBits, dataValues
    seqNum := seqNum.map UInt64.toUInt16
    confRev := confRev.map UInt64.toUInt32
    dataReferences := dataReferences.getD []
    reasons := reasons.getD [] }

def parseReport (value : MmsValue) : Except ReportParseError ParsedReport :=
  match value with
  | .array elements => parseElements elements
  | .struct elements => parseElements elements
  | other => .error (.notAnArray (typeName other))

inductive DispatchFailure where
  | skippedNonUrcb
  | decodeFailed (fault : Fault ReportDecodeError)
  | parse (error : ReportParseError)
  deriving DecidableEq, Repr

def decodeReport : Except DispatchFailure ParsedReport :=
  match decodeInformationReport innerBytes with
  | .error fault => .error (.decodeFailed fault)
  | .ok report =>
    if report.variableAccessSpec = .variableListName (.vmdSpecific "RPT") then
      (parseReport (.array (report.listOfAccessResult.map mmsDataToMmsValue))).mapError .parse
    else
      .error .skippedNonUrcb

def unconfirmedInner : Option (List UInt8) :=
  match readElement pdu with
  | .ok element => if element.tag = 0xa3 then some element.content else none
  | .error _ => none

structure ClientReport where
  rcbReference : String
  rptId : Option String
  datasetSize : Option Nat
  seqNum : Option UInt16
  timestampMs : Option UInt64
  dataSetName : Option String
  bufOvfl : Option Bool
  entryId : Option (List UInt8)
  confRev : Option UInt32
  segmentation : Option Segmentation
  dataSetValues : List (Option MmsValue)
  included : List Bool
  reasons : List ReasonForInclusion
  dataReferences : List (Option String)
  membersDataSet : Option String
  membersConfRev : Option UInt32

def ClientReport.new (rcbReference : String) (rptId : Option String) : ClientReport where
  rcbReference := rcbReference
  rptId := rptId
  datasetSize := none
  seqNum := none
  timestampMs := none
  dataSetName := none
  bufOvfl := none
  entryId := none
  confRev := none
  segmentation := none
  dataSetValues := []
  included := []
  reasons := []
  dataReferences := []
  membersDataSet := none
  membersConfRev := none

inductive StateError where
  | dataSetSizeChanged (prev new : Nat)
  | dataSetNameTooLong (len : Nat)
  deriving DecidableEq, Repr

/-- A value missing on either side is no evidence of a change. -/
def differs {α : Type} [DecidableEq α] (kept carried : Option α) : Bool :=
  match kept, carried with
  | some kept, some carried => kept ≠ carried
  | _, _ => false

def includedMembers (inclusionBits : List Bool) : List Nat :=
  (List.range inclusionBits.length).filter fun i => inclusionBits[i]?.getD false

structure CarriedMember where
  index : Nat
  value : MmsValue
  reason : Option ReasonForInclusion
  reference : Option String

def carriedMembers : List CarriedMember :=
  ((includedMembers parsed.inclusionBits).zip parsed.dataValues).zipIdx.map fun ((index, value), k) =>
    ⟨index, value, parsed.reasons[k]?, parsed.dataReferences[k]?⟩

def ClientReport.store (member : CarriedMember) : ClientReport :=
  { state with
    dataSetValues := state.dataSetValues.set member.index (some member.value)
    reasons := member.reason.elim state.reasons fun reason => state.reasons.set member.index reason
    dataReferences := member.reference.elim state.dataReferences fun reference =>
      state.dataReferences.set member.index (some reference) }

theorem foldl_store_kept {α : Type} (kept : ClientReport → α)
    (same : ∀ state member, kept (ClientReport.store state member) = kept state)
    (members : List CarriedMember) (state : ClientReport) :
    kept (members.foldl ClientReport.store state) = kept state := by
  induction members generalizing state with
  | nil => rfl
  | cons member rest ih => rw [List.foldl_cons, ih, same]

def ClientReport.fix (datasetSize : Nat) : ClientReport :=
  { state with
    membersDataSet := if otherDataSet then none else state.membersDataSet
    membersConfRev := if otherDataSet then none else state.membersConfRev
    datasetSize := some datasetSize
    dataSetValues := List.replicate datasetSize none
    included := List.replicate datasetSize false
    reasons := List.replicate datasetSize .empty
    dataReferences := List.replicate datasetSize none }

def ClientReport.receive : ClientReport :=
  { state with
    membersDataSet := parsed.dataSetName <|> state.membersDataSet
    membersConfRev := parsed.confRev <|> state.membersConfRev
    seqNum := parsed.seqNum
    timestampMs := parsed.timestampMs
    dataSetName := parsed.dataSetName
    bufOvfl := parsed.bufOvfl
    entryId := parsed.entryId
    confRev := parsed.confRev
    segmentation := parsed.segmentation
    included := parsed.inclusionBits
    -- a reason describes only the report that carries it
    reasons := state.reasons.map fun _ => .empty }

/-- Every check comes before the state is touched. -/
def applyReport : Except StateError ClientReport :=
  let otherDataSet :=
    differs state.membersDataSet parsed.dataSetName || differs state.membersConfRev parsed.confRev
  let fixedSize := if otherDataSet then none else state.datasetSize
  let datasetSize := parsed.inclusionBits.length
  let includedCount := (parsed.inclusionBits.filter id).length
  if fixedSize.any (· ≠ datasetSize) then
    .error (.dataSetSizeChanged (fixedSize.getD 0) datasetSize)
  else if parsed.dataSetName.any (128 < stringLen ·) then
    .error (.dataSetNameTooLong (stringLen (parsed.dataSetName.getD "")))
  else if parsed.dataValues.length < includedCount then
    .error (.dataSetSizeChanged datasetSize parsed.dataValues.length)
  else
    let state := if fixedSize.isNone then state.fix otherDataSet datasetSize else state
    .ok ((carriedMembers parsed).foldl ClientReport.store (state.receive parsed))

def applyReports (state : ClientReport) : List ParsedReport → Except StateError ClientReport
  | [] => .ok state
  | parsed :: rest => do applyReports (← applyReport state parsed) rest

end Iec61850.Client.Report
