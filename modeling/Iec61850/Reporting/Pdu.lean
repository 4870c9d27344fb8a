import Iec61850.Mms.Data
import Iec61850.Reporting.Buffer
import Iec61850.Reporting.Dataset
import Mathlib.Algebra.GroupWithZero.Nat

/-!
The InformationReport encoder shared by unbuffered and buffered report control blocks. A report that
exceeds the PDU limit is split: the size of every PDU is computed before it is encoded, each segment
takes as many of the remaining members as fit, and every segment repeats the header.
-/

namespace Iec61850.Reporting

open Model Mms

abbrev Bytes := List UInt8

structure PendingReport where
  inclusionFlags : List InclusionFlag
  snapshot : List (Option MmsValue)
  timeOfEntryMs : UInt64
  isIntegrity : Bool
  isGi : Bool

variable (entry : ReportEntry) (epochMs ms value : UInt64) (included : List Nat) (datasetLen content dsLen : Nat)

def PendingReport.newEmpty (nowMs : UInt64) : PendingReport where
  inclusionFlags := List.replicate datasetLen .none
  snapshot := List.replicate datasetLen none
  timeOfEntryMs := nowMs
  isIntegrity := false
  isGi := false

inductive ReportEncodeError where
  | pduTooSmall (needed max : Nat)
  | memberTooLarge (index needed max : Nat)
  deriving DecidableEq, Repr

def varAccessSpec : Bytes := [0xa1, 0x05, 0x80, 0x03, 0x52, 0x50, 0x54]
def binaryTimeLen : Nat := 6
def maxReportPduBytes : Nat := 0xffff
def optFldsTlvLen : Nat := 5
def booleanTlvLen : Nat := 3
def entryIdTlvLen : Nat := 10
def reasonTlvLen : Nat := 4
def emptyValueTlvLen : Nat := 2

def tlvLen : Nat := 1 + lengthSize content + content

def pduLen : Nat := tlvLen (tlvLen (varAccessSpec.length + tlvLen content))

def unsignedTlvLen : Nat := (MmsData.unsigned value).estimatedEncodedSize

def inclusionTlvLen : Nat := tlvLen (1 + (dsLen + 7) / 8)

def encodeVisibleString (text : String) : Bytes := encodeTlv 0x8a (stringBytes text)

def encodeUnsigned : Bytes := (MmsData.unsigned value).encode

def msPerDay : Nat := 86400000
def epoch1984Ms : Nat := 5113 * msPerDay
def maxBinaryTime6Ms : Nat := epoch1984Ms + 0xffff * msPerDay + (msPerDay - 1)

/-- Milliseconds since midnight in four bytes and days since 1984 in two; an instant outside that
range saturates. -/
def binaryTime6FromEpochMs : Bytes :=
  let since1984 := min (max epochMs.toNat epoch1984Ms) maxBinaryTime6Ms - epoch1984Ms
  let days := since1984 / msPerDay
  let msOfDay := since1984 % msPerDay
  ([msOfDay / 2 ^ 24, msOfDay / 2 ^ 16, msOfDay / 2 ^ 8, msOfDay, days / 2 ^ 8, days]).map UInt8.ofNat

def encodeBinaryTime : Bytes := [0x8c, 0x06] ++ binaryTime6FromEpochMs ms

def encodeOctetString8 (id : EntryId) : Bytes := [0x89, 0x08] ++ id.toBytes

def encodeOptFldsUnmasked (fields : OptFlds) : Bytes :=
  let masked (mask : UInt16) : UInt16 := fields.bits &&& mask
  let byte0 := (masked 0x001).shiftLeft 6 ||| (masked 0x002).shiftLeft 4 ||| (masked 0x004).shiftLeft 2
    ||| masked 0x008 ||| (masked 0x010).shiftRight 2 ||| (masked 0x020).shiftRight 4
    ||| (masked 0x040).shiftRight 6
  let byte1 := masked 0x080 ||| (masked 0x100).shiftRight 2
  [0x84, 0x03, 6, byte0.toUInt8, byte1.toUInt8]

/-- The bytes of the inclusion bit string: bit `i`, counted from the most significant one, marks
member `i`. -/
def inclusionBitmap : Bytes :=
  included.foldl
    (fun bitmap index =>
      if index < dsLen then bitmap.modify (index / 8) (· ||| UInt8.ofNat (2 ^ (7 - index % 8))) else bitmap)
    (List.replicate ((dsLen + 7) / 8) 0)

def encodeInclusionField : Bytes :=
  encodeTlv 0x84 (UInt8.ofNat ((dsLen + 7) / 8 * 8 - dsLen) :: inclusionBitmap included dsLen)

structure ReportHeader where
  rptId : String
  optFlds : OptFlds
  sqNum : UInt64
  timeOfEntryMs : UInt64
  datSet : String
  confRev : UInt32
  bufOvfl : Bool
  entryId : EntryId

namespace ReportHeader

variable (header : ReportHeader)

variable (segmented : Bool) (subSeqNum : UInt16)

/-- The option fields a PDU announces: a segment always announces its segmentation fields. -/
def optFldsOf : OptFlds :=
  if segmented then header.optFlds.union .segmentation else header.optFlds

def encodedLen : Nat :=
  let f := header.optFlds
  tlvLen (stringLen header.rptId) + optFldsTlvLen
    + (if f.contains .seqNum then unsignedTlvLen header.sqNum else 0)
    + (if f.contains .timeStamp then tlvLen binaryTimeLen else 0)
    + (if f.contains .dataSet then tlvLen (stringLen header.datSet) else 0)
    + (if f.contains .bufferOverflow then booleanTlvLen else 0)
    + (if f.contains .entryId then entryIdTlvLen else 0)
    + (if f.contains .confRev then unsignedTlvLen header.confRev.toUInt64 else 0)

def segmentationLen : Nat :=
  if (header.optFldsOf segmented).contains .segmentation then
    unsignedTlvLen subSeqNum.toUInt64 + booleanTlvLen
  else
    0

def encode (moreFollows : Bool) : Bytes :=
  let f := header.optFldsOf segmented
  encodeVisibleString header.rptId ++ encodeOptFldsUnmasked f
    ++ (if f.contains .seqNum then encodeUnsigned header.sqNum else [])
    ++ (if f.contains .timeStamp then encodeBinaryTime header.timeOfEntryMs else [])
    ++ (if f.contains .dataSet then encodeVisibleString header.datSet else [])
    ++ (if f.contains .bufferOverflow then encodeBoolean header.bufOvfl else [])
    ++ (if f.contains .entryId then encodeOctetString8 header.entryId else [])
    ++ (if f.contains .confRev then encodeUnsigned header.confRev.toUInt64 else [])
    ++ (if f.contains .segmentation then
          encodeUnsigned subSeqNum.toUInt64 ++ encodeBoolean moreFollows
        else
          [])

end ReportHeader

structure IncludedMember where
  index : Nat
  reference : Option String
  value : Option MmsData
  reason : Option (Vector UInt8 2)

namespace IncludedMember

variable (member : IncludedMember)

def encodedLen : Nat :=
  member.reference.elim 0 (fun reference => tlvLen (stringLen reference))
    + member.value.elim emptyValueTlvLen MmsData.estimatedEncodedSize
    + (if member.reason.isSome then reasonTlvLen else 0)

def encodeReference : Bytes := member.reference.elim [] encodeVisibleString

/-- A member without a value is sent as an empty structure, so that the client can still parse the
PDU. -/
def encodeValue : Bytes := member.value.elim [0xa2, 0x00] MmsData.encode

def encodeReason : Bytes := member.reason.elim [] fun reason => [0x84, 0x02] ++ reason.toList

end IncludedMember

def encodePdu (header : ReportHeader) (segmented : Bool) (subSeqNum : UInt16) (moreFollows : Bool)
    (dsLen : Nat) (members : List IncludedMember) : Bytes :=
  let accessResult := header.encode segmented subSeqNum moreFollows
    ++ encodeInclusionField (members.map (·.index)) dsLen
    ++ members.flatMap (·.encodeReference)
    ++ members.flatMap (·.encodeValue)
    ++ members.flatMap (·.encodeReason)
  encodeTlv 0xa3 (encodeTlv 0xa0 (varAccessSpec ++ encodeTlv 0xa0 accessResult))

mutual

def mmsValueToMmsData : MmsValue → MmsData
  | .boolean value => .boolean value
  | .integer value => .integer value
  | .unsigned value => .unsigned value
  | .float32 bits => .float32 bits
  | .float64 bits => .float64 bits
  | .bitString padding data => .bitString padding data
  | .octetString bytes => .octetString bytes
  | .visibleString text => .visibleString text
  | .mmsString text => .mmsString text
  | .utcTime bytes => .utcTime bytes
  | .binaryTime bytes => .binaryTime bytes
  | .array items => .array (mmsValuesToMmsData items)
  | .struct items => .struct (mmsValuesToMmsData items)

def mmsValuesToMmsData : List MmsValue → List MmsData
  | [] => []
  | item :: rest => mmsValueToMmsData item :: mmsValuesToMmsData rest

end

/-- The members a report carries. A general interrogation or integrity report carries all of them,
any other report those whose flag has a trigger; a member without a captured value is read live. -/
def includedMembers (header : ReportHeader) (live : LiveValues) (dataset : Dataset)
    (pending : PendingReport) : List IncludedMember :=
  let flag (index : Nat) : InclusionFlag := (pending.inclusionFlags[index]?).getD .none
  let included := (List.range dataset.len).filter fun index =>
    pending.isIntegrity || pending.isGi || (flag index).hasTrigger
  included.map fun index =>
    { index
      reference :=
        if header.optFlds.contains .dataReference then (dataset.entry index).map (·.attrRef) else none
      value :=
        ((pending.snapshot[index]?.join) <|> (dataset.entry index).bind (·.readValue live)).map mmsValueToMmsData
      reason :=
        if header.optFlds.contains .reason then
          some ((flag index).toReasonBitString pending.isIntegrity pending.isGi)
        else
          none }

/-- The inner loop of the splitter: the members that still fit when `content` bytes are taken, and
the rest. -/
def takeFitting (limit : Nat) : (content : Nat) → List IncludedMember → List IncludedMember × List IncludedMember
  | _, [] => ([], [])
  | content, member :: rest =>
    if pduLen (content + member.encodedLen) ≤ limit then
      let taken := takeFitting limit (content + member.encodedLen) rest
      (member :: taken.1, taken.2)
    else
      ([], member :: rest)

/-- The outer loop of the splitter. Every pass takes a member or fails, so as many passes as there
are members always suffice. -/
def encodeSegments (header : ReportHeader) (dsLen limit unsegmented : Nat) :
    (passes : Nat) → UInt16 → List IncludedMember → Except ReportEncodeError (List Bytes)
  | _, _, [] => .ok []
  | 0, _, _ :: _ => .ok []
  | passes + 1, subSeqNum, first :: rest =>
    let segFixed := header.encodedLen + inclusionTlvLen dsLen + header.segmentationLen true subSeqNum
    let taken := takeFitting limit segFixed (first :: rest)
    let moreFollows := !taken.2.isEmpty
    if taken.1.isEmpty then
      if limit < pduLen segFixed then
        .error (.pduTooSmall (pduLen segFixed) limit)
      else
        .error (.memberTooLarge first.index (pduLen (segFixed + first.encodedLen)) limit)
    else if moreFollows && subSeqNum == 0xffff then
      .error (.pduTooSmall unsegmented limit)
    else
      (encodeSegments header dsLen limit unsegmented passes (subSeqNum + 1) taken.2).map fun later =>
        encodePdu header true subSeqNum moreFollows dsLen taken.1 :: later

/-- The PDUs of a report: one if it fits, else segments filled member by member. -/
def encodePdus (header : ReportHeader) (live : LiveValues) (dataset : Dataset)
    (pending : PendingReport) (maxPduSizeBytes : Nat) : Except ReportEncodeError (List Bytes) :=
  let limit := min maxPduSizeBytes maxReportPduBytes
  let dsLen := dataset.len
  let members := includedMembers header live dataset pending
  let fixedLen := header.encodedLen + inclusionTlvLen dsLen
  let unsegmented := pduLen (fixedLen + header.segmentationLen false 0 + (members.map (·.encodedLen)).sum)
  if unsegmented ≤ limit then
    .ok [encodePdu header false 0 false dsLen members]
  else if members.isEmpty then
    .error (.pduTooSmall unsegmented limit)
  else
    encodeSegments header dsLen limit unsegmented members.length 0 members

variable {pdus : List Bytes} {live : LiveValues} {dataset : Dataset} {pending : PendingReport} {maxPduSizeBytes : Nat}

theorem encodeSegments_ne_nil {header : ReportHeader} {dsLen limit unsegmented passes : Nat} {subSeqNum : UInt16}
    {first : IncludedMember} {rest : List IncludedMember}
    (encoded : encodeSegments header dsLen limit unsegmented (passes + 1) subSeqNum (first :: rest) = .ok pdus) :
    pdus ≠ [] := by
  rw [encodeSegments] at encoded
  generalize encodeSegments header dsLen limit unsegmented passes _ _ = later at encoded
  split_ifs at encoded
  cases later with
  | error reason => cases encoded
  | ok later =>
    cases encoded
    simp

theorem encodePdus_ne_nil {header : ReportHeader}
    (encoded : encodePdus header live dataset pending maxPduSizeBytes = .ok pdus) : pdus ≠ [] := by
  unfold encodePdus at encoded
  dsimp only at encoded
  split_ifs at encoded with fits empty
  · cases encoded
    simp
  · cases members : includedMembers header live dataset pending with
    | nil => simp [members] at empty
    | cons first rest =>
      rw [members] at encoded
      exact encodeSegments_ne_nil encoded

theorem encodePdus_of_empty {header : ReportHeader} (noFields : header.optFlds = ⟨0⟩) (noMembers : dataset.entries = [])
    (fits : pduLen (tlvLen (stringLen header.rptId) + optFldsTlvLen + inclusionTlvLen 0) ≤
      min maxPduSizeBytes maxReportPduBytes) :
    ∃ pdus, encodePdus header live dataset pending maxPduSizeBytes = .ok pdus := by
  have encodedLen : header.encodedLen = tlvLen (stringLen header.rptId) + optFldsTlvLen := by
    simp [ReportHeader.encodedLen, noFields, OptFlds.contains_of_empty, OptFlds.seqNum, OptFlds.timeStamp,
      OptFlds.dataSet, OptFlds.bufferOverflow, OptFlds.entryId, OptFlds.confRev]
  have segmentationLen : header.segmentationLen false 0 = 0 := by
    simp [ReportHeader.segmentationLen, ReportHeader.optFldsOf, noFields, OptFlds.contains_of_empty,
      OptFlds.segmentation]
  have dsLen : dataset.len = 0 := by simp [Dataset.len, noMembers]
  refine ⟨_, if_pos ?_⟩
  simpa [encodedLen, segmentationLen, dsLen, includedMembers] using fits

structure ReportEncodeParams where
  rptId : String
  optFlds : OptFlds
  sqNum : UInt8
  timeOfEntryMs : UInt64
  datSet : String
  confRev : UInt32
  dataset : Dataset
  pending : PendingReport
  maxPduSizeBytes : Nat

def encodeReportPdus (live : LiveValues) (params : ReportEncodeParams) : Except ReportEncodeError (List Bytes) :=
  encodePdus
    { rptId := params.rptId, optFlds := params.optFlds.maskUrcb, sqNum := params.sqNum.toUInt64
      timeOfEntryMs := params.timeOfEntryMs, datSet := params.datSet, confRev := params.confRev
      bufOvfl := false, entryId := .zero }
    live params.dataset params.pending params.maxPduSizeBytes

structure BrcbReportEncodeParams where
  rptId : String
  optFlds : OptFlds
  sqNum : UInt16
  timeOfEntryMs : UInt64
  datSet : String
  confRev : UInt32
  entryId : EntryId
  isOverflow : Bool
  dataset : Dataset
  pending : PendingReport
  maxPduSizeBytes : Nat

def encodeBrcbReportPdus (live : LiveValues) (params : BrcbReportEncodeParams) :
    Except ReportEncodeError (List Bytes) :=
  encodePdus
    { rptId := params.rptId, optFlds := params.optFlds, sqNum := params.sqNum.toUInt64
      timeOfEntryMs := params.timeOfEntryMs, datSet := params.datSet, confRev := params.confRev
      bufOvfl := params.isOverflow, entryId := params.entryId }
    live params.dataset params.pending params.maxPduSizeBytes

/-- The report a buffered entry is sent as: the frozen flags and values, or every member for an
entry that was enqueued without a snapshot. -/
def pendingFromBrcbEntry : PendingReport :=
  let empty := PendingReport.newEmpty dsLen entry.timeOfEntryMs
  let base := { empty with isIntegrity := entry.isIntegrity, isGi := entry.isGi }
  match entry.snapshot with
  | some snap =>
    { base with
      inclusionFlags := (List.range dsLen).map fun index =>
        if index < min snap.dataSetLen dsLen then (snap.inclusionFlags[index]?).getD .none else .none
      snapshot := (List.range dsLen).map fun index =>
        if index < min snap.dataSetLen dsLen then (snap.values[index]?).join else none }
  | none =>
    if !entry.isIntegrity && !entry.isGi then
      { base with inclusionFlags := List.replicate dsLen .valueChanged }
    else
      base

end Iec61850.Reporting
