import Iec61850.Mms.Services
import Iec61850.Reporting.Pdu
import Mathlib.Data.Nat.Bitwise

/-!
What a report says: the members it is about with their values, references and reasons, and the data
in each of its PDUs. The encoder writes exactly these data.
-/

namespace Iec61850.Reporting

open List hiding Vector
open Mms Model MmsData

section

variable (header : ReportHeader) (live : LiveValues) (dataset : Dataset) (pending : PendingReport)
  (index : Nat)

def inclusionFlag : InclusionFlag := (pending.inclusionFlags[index]?).getD .none

def reportedMembers : List Nat :=
  (range dataset.len).filter fun index =>
    pending.isIntegrity || pending.isGi || (inclusionFlag pending index).hasTrigger

def reportedValue : Option MmsValue :=
  (pending.snapshot[index]?.join) <|> (dataset.entry index).bind (·.readValue live)

/-- Behind a reserved bit: data change, quality change, data update, integrity, interrogation. -/
def reasonOctet : UInt8 :=
  let flag := inclusionFlag pending index
  (if flag.contains .valueChanged then 0x40 else 0) ||| (if flag.contains .qualityChanged then 0x20 else 0)
    ||| (if flag.contains .valueUpdate then 0x10 else 0) ||| (if pending.isIntegrity then 0x08 else 0)
    ||| (if pending.isGi then 0x04 else 0)

def reportedMember : IncludedMember where
  index := index
  reference := if header.optFlds.contains .dataReference then (dataset.entry index).map (·.attrRef) else none
  value := (reportedValue live dataset pending index).map mmsValueToMmsData
  reason :=
    if header.optFlds.contains .reason then
      some #v[2, reasonOctet pending index]
    else
      none

theorem includedMembers_eq : includedMembers header live dataset pending =
      (reportedMembers dataset pending).map (reportedMember header live dataset pending) := rfl

end

variable (included : List Nat) (reason : Vector UInt8 2) (fields : OptFlds)

theorem length_inclusionBitmap (dsLen : Nat) : (inclusionBitmap included dsLen).length = (dsLen + 7) / 8 := by
  have kept : ∀ bitmap : Bytes, (included.foldl (fun bitmap index =>
    if index < dsLen then bitmap.modify (index / 8) (· ||| UInt8.ofNat (2 ^ (7 - index % 8))) else bitmap)
      bitmap).length = bitmap.length := by
    induction included with
    | nil =>
      intro bitmap
      rfl
    | cons index rest ih =>
      intro bitmap
      rw [foldl_cons, ih]
      split
      · exact length_modify _ _ _
      · rfl
  rw [inclusionBitmap, kept, length_replicate]

/-- Bit `index` of a bit string, counted from the most significant bit of the first octet. -/
def bitAt (octets : Bytes) (index : Nat) : Bool :=
  (octets[index / 8]?).any fun octet => octet.toNat.testBit (7 - index % 8)

theorem testBit_mark (octet : UInt8) (index marked : Nat) :
    (octet ||| UInt8.ofNat (2 ^ (7 - marked % 8))).toNat.testBit (7 - index % 8) =
      (octet.toNat.testBit (7 - index % 8) || decide (index % 8 = marked % 8)) := by
  have small : 2 ^ (7 - marked % 8) < 256 := Nat.pow_lt_pow_right (by decide) (by omega : 7 - marked % 8 < 8)
  have same : (7 - marked % 8 = 7 - index % 8) = (index % 8 = marked % 8) := by
    rw [eq_iff_iff]
    omega
  rw [UInt8.toNat_or, UInt8.toNat_ofNat_of_lt' small, Nat.testBit_or, Nat.testBit_two_pow]
  simp only [same]

theorem bitAt_modify {octets : Bytes} {index marked : Nat} (inside : marked / 8 < octets.length) :
    bitAt (octets.modify (marked / 8) (· ||| UInt8.ofNat (2 ^ (7 - marked % 8)))) index =
      (bitAt octets index || decide (index = marked)) := by
  unfold bitAt
  rw [getElem?_modify]
  by_cases octet : marked / 8 = index / 8
  · have found : octets[index / 8]? = some octets[index / 8] := getElem?_eq_getElem (octet ▸ inside)
    have same : (index % 8 = marked % 8) = (index = marked) := by
      rw [eq_iff_iff]
      omega
    rw [found]
    simp only [octet, if_true, Option.map_eq_map, Option.map_some, Option.any_some, testBit_mark, same]
  · have other : index ≠ marked := by
      rintro rfl
      exact octet rfl
    simp [octet, other]

theorem bitAt_inclusionBitmap (dsLen index : Nat) :
    bitAt (inclusionBitmap included dsLen) index = decide (index ∈ included ∧ index < dsLen) := by
  have marked : ∀ bitmap : Bytes, bitmap.length = (dsLen + 7) / 8 →
      bitAt (included.foldl (fun bitmap index =>
        if index < dsLen then bitmap.modify (index / 8) (· ||| UInt8.ofNat (2 ^ (7 - index % 8))) else bitmap)
          bitmap) index = (bitAt bitmap index || decide (index ∈ included ∧ index < dsLen)) := by
    induction included with
    | nil =>
      intro bitmap _
      simp
    | cons head rest ih =>
      intro bitmap sized
      rw [foldl_cons]
      by_cases member : head < dsLen
      · have inside : head / 8 < bitmap.length := by omega
        rw [if_pos member, ih _ (by rw [length_modify, sized]), bitAt_modify inside]
        by_cases same : index = head
        · subst same
          simp [member]
        · simp [same]
      · rw [if_neg member, ih _ sized]
        by_cases same : index = head
        · subst same
          simp [member]
        · simp [same]
  have empty : bitAt (replicate ((dsLen + 7) / 8) 0) index = false := by
    unfold bitAt
    rw [getElem?_replicate]
    split <;> simp
  rw [inclusionBitmap, marked _ length_replicate, empty, Bool.false_or]

/-- The octets of the inclusion bit string: bit `index`, counted from the most significant bit of
the first octet, is set for a member of the data set that is present. -/
def inclusionOctets (dsLen : Nat) : Bytes :=
  (range ((dsLen + 7) / 8)).map fun octet => UInt8.ofNat (Nat.ofBits fun bit : Fin 8 =>
    let index := 8 * octet + (7 - bit.val)
    decide (index ∈ included ∧ index < dsLen))

theorem eq_of_bitAt {left right : Bytes} (length : left.length = right.length)
    (bits : ∀ index, bitAt left index = bitAt right index) : left = right := by
  refine ext_getElem length ?_
  intro position inLeft inRight
  apply UInt8.toNat_inj.mp
  refine Nat.eq_of_testBit_eq ?_
  intro bit
  by_cases inside : bit < 8
  · have octet : (8 * position + (7 - bit)) / 8 = position := by omega
    have place : 7 - (8 * position + (7 - bit)) % 8 = bit := by omega
    have same := bits (8 * position + (7 - bit))
    simpa only [bitAt, octet, place, getElem?_eq_getElem inLeft, getElem?_eq_getElem inRight,
      Option.any_some] using same
  · have small (octet : UInt8) : octet.toNat.testBit bit = false :=
      Nat.testBit_lt_two_pow (Nat.lt_of_lt_of_le octet.toNat_lt (Nat.pow_le_pow_right (by decide) (by omega)))
    rw [small, small]

theorem inclusionBitmap_eq (dsLen : Nat) : inclusionBitmap included dsLen = inclusionOctets included dsLen := by
  refine eq_of_bitAt (by rw [length_inclusionBitmap, inclusionOctets, length_map, length_range]) ?_
  intro index
  rw [bitAt_inclusionBitmap, bitAt, inclusionOctets, getElem?_map]
  by_cases inside : index / 8 < (dsLen + 7) / 8
  · have place : 8 * (index / 8) + (7 - (7 - index % 8)) = index := by omega
    have small : Nat.ofBits (fun bit : Fin 8 => decide (8 * (index / 8) + (7 - bit.val) ∈ included ∧
        8 * (index / 8) + (7 - bit.val) < dsLen)) < 256 := Nat.ofBits_lt_two_pow _
    rw [getElem?_range inside, Option.map_some, Option.any_some, UInt8.toNat_ofNat_of_lt' small,
      Nat.testBit_ofBits_lt _ _ (by omega)]
    simp only [place]
  · have outside : ¬ index < dsLen := by omega
    rw [getElem?_eq_none (by rw [length_range]; omega)]
    simp [outside]

def optFldsOctets : List UInt8 :=
  (encodeOptFldsUnmasked fields).drop 3

def headerElements (header : ReportHeader) (segmented : Bool) (subSeqNum : UInt16)
    (moreFollows : Bool) : List MmsData :=
  let f := header.optFldsOf segmented
  [MmsData.visibleString header.rptId, MmsData.bitString 6 (optFldsOctets f)]
    ++ (if f.contains .seqNum then [MmsData.unsigned header.sqNum] else [])
    ++ (if f.contains .timeStamp then [MmsData.binaryTime (binaryTime6FromEpochMs header.timeOfEntryMs)] else [])
    ++ (if f.contains .dataSet then [MmsData.visibleString header.datSet] else [])
    ++ (if f.contains .bufferOverflow then [MmsData.boolean header.bufOvfl] else [])
    ++ (if f.contains .entryId then [MmsData.octetString header.entryId.toBytes] else [])
    ++ (if f.contains .confRev then [MmsData.unsigned header.confRev.toUInt64] else [])
    ++ (if f.contains .segmentation then [MmsData.unsigned subSeqNum.toUInt64, MmsData.boolean moreFollows] else [])

def inclusionElement (dsLen : Nat) (members : List IncludedMember) : MmsData :=
  .bitString (UInt8.ofNat ((dsLen + 7) / 8 * 8 - dsLen)) (inclusionBitmap (members.map (·.index)) dsLen)

def reasonPadding : UInt8 := reason[0]

def reasonBits : UInt8 := reason[1]

def reasonElement : MmsData := .bitString (reasonPadding reason) [reasonBits reason]

def pduElements (header : ReportHeader) (segmented : Bool) (subSeqNum : UInt16) (moreFollows : Bool) (dsLen : Nat)
    (members : List IncludedMember) : List MmsData :=
  headerElements header segmented subSeqNum moreFollows ++ [inclusionElement dsLen members]
    ++ members.flatMap (fun member => member.reference.toList.map .visibleString)
    ++ members.map (fun member => member.value.getD (.struct []))
    ++ members.flatMap (fun member => member.reason.toList.map reasonElement)

theorem flatMap_if {present : Bool} {elements : List MmsData} :
    (if present then elements else []).flatMap encode = if present then elements.flatMap encode else [] := by
  cases present <;> rfl

theorem encode_headerElements (header : ReportHeader) (segmented : Bool) (subSeqNum : UInt16) (moreFollows : Bool) :
    (headerElements header segmented subSeqNum moreFollows).flatMap encode =
      header.encode segmented subSeqNum moreFollows := by
  have entry : encodeTlv 0x89 header.entryId.toBytes = encodeOctetString8 header.entryId := rfl
  have octets : encodeTlv 0x84 (6 :: optFldsOctets (header.optFldsOf segmented)) =
      encodeOptFldsUnmasked (header.optFldsOf segmented) := rfl
  have time : encodeTlv 0x8c (binaryTime6FromEpochMs header.timeOfEntryMs) =
      encodeBinaryTime header.timeOfEntryMs := rfl
  unfold headerElements ReportHeader.encode
  simp only [List.flatMap_append, flatMap_if, List.flatMap_cons, List.flatMap_nil, List.append_nil, encode, entry,
    octets, time, encodeVisibleString, encodeUnsigned, List.append_assoc]

theorem contains_optFldsOf {header : ReportHeader} {segmented : Bool} {flag : OptFlds}
    (other : OptFlds.segmentation.bits &&& flag.bits = 0) :
    (header.optFldsOf segmented).contains flag = header.optFlds.contains flag := by
  cases segmented with
  | false => rfl
  | true => exact OptFlds.contains_union_of_disjoint other

theorem varAccessSpec_eq : varAccessSpec = encodeTlv 0xa1 (ObjectName.vmdSpecific "RPT").encode := by
  decide +kernel

theorem toList_reason : reason.toList = [reasonPadding reason, reasonBits reason] := by
  apply List.ext_getElem
  · simp
  · intro index _ inside
    have two : index = 0 ∨ index = 1 := by
      rw [List.length_cons, List.length_singleton] at inside
      omega
    obtain rfl | rfl := two <;> simp [reasonPadding, reasonBits]

theorem encode_members (members : List IncludedMember) :
    (members.flatMap fun member => member.reference.toList.map .visibleString).flatMap encode =
        members.flatMap IncludedMember.encodeReference ∧
      (members.map fun member => member.value.getD (.struct [])).flatMap encode =
        members.flatMap IncludedMember.encodeValue ∧
      (members.flatMap fun member => member.reason.toList.map reasonElement).flatMap encode =
        members.flatMap IncludedMember.encodeReason := by
  rw [List.flatMap_assoc, List.flatMap_assoc, List.flatMap_map]
  refine ⟨?_, ?_, ?_⟩
  · congr 1
    funext member
    unfold IncludedMember.encodeReference
    cases member.reference <;> simp [encode, encodeVisibleString]
  · congr 1
    funext member
    unfold IncludedMember.encodeValue
    cases member.value <;> rfl
  · congr 1
    funext member
    unfold IncludedMember.encodeReason
    cases member.reason with
    | none => rfl
    | some reason =>
      simp [toList_reason, reasonElement, encode, encodeTlv, encodeLength]

theorem encodePdu_eq (header : ReportHeader) (segmented : Bool) (subSeqNum : UInt16) (moreFollows : Bool) (dsLen : Nat)
    (members : List IncludedMember) : encodePdu header segmented subSeqNum moreFollows dsLen members =
      encodeTlv 0xa3 (encodeTlv 0xa0 (encodeTlv 0xa1 (ObjectName.vmdSpecific "RPT").encode ++
        encodeTlv 0xa0 ((pduElements header segmented subSeqNum moreFollows dsLen members).flatMap encode))) := by
  obtain ⟨references, values, reasons⟩ := encode_members members
  have inclusion : [inclusionElement dsLen members].flatMap encode =
      encodeInclusionField (members.map (·.index)) dsLen := by
    simp [inclusionElement, encode, encodeInclusionField]
  unfold encodePdu pduElements
  rw [List.flatMap_append, List.flatMap_append, List.flatMap_append, List.flatMap_append, references, values, reasons,
    inclusion, encode_headerElements, varAccessSpec_eq]


/-- The data of a PDU: the fields the options ask for, the segmentation fields if there are several
segments or the options ask for them, which members are present, and what is told of each. -/
def reportElements (header : ReportHeader) (several : Bool) (number : Nat) (more : Bool) (dsLen : Nat)
    (members : List IncludedMember) : List MmsData :=
  let asked := header.optFlds.contains
  let announced := if several then header.optFlds.union .segmentation else header.optFlds
  [MmsData.visibleString header.rptId, MmsData.bitString 6 (optFldsOctets announced)]
    ++ (if asked .seqNum then [MmsData.unsigned header.sqNum] else [])
    ++ (if asked .timeStamp then [MmsData.binaryTime (binaryTime6FromEpochMs header.timeOfEntryMs)] else [])
    ++ (if asked .dataSet then [MmsData.visibleString header.datSet] else [])
    ++ (if asked .bufferOverflow then [MmsData.boolean header.bufOvfl] else [])
    ++ (if asked .entryId then [MmsData.octetString header.entryId.toBytes] else [])
    ++ (if asked .confRev then [MmsData.unsigned header.confRev.toUInt64] else [])
    ++ (if several || asked .segmentation then
          [MmsData.unsigned (UInt16.ofNat number).toUInt64, MmsData.boolean more]
        else
          [])
    ++ [MmsData.bitString (UInt8.ofNat ((dsLen + 7) / 8 * 8 - dsLen)) (inclusionOctets (members.map (·.index)) dsLen)]
    ++ members.flatMap (fun member => member.reference.toList.map MmsData.visibleString)
    ++ members.map (fun member => member.value.getD (.struct []))
    ++ members.flatMap (fun member => member.reason.toList.map reasonElement)

/-- An unconfirmed PDU with an information report of the variable list `RPT`. -/
def reportPdu (header : ReportHeader) (several : Bool) (number : Nat) (more : Bool) (dsLen : Nat)
    (members : List IncludedMember) : Bytes :=
  encodeTlv 0xa3 (encodeTlv 0xa0 (encodeTlv 0xa1 (ObjectName.vmdSpecific "RPT").encode ++
    encodeTlv 0xa0 ((reportElements header several number more dsLen members).flatMap MmsData.encode)))

theorem encodePdu_eq_reportPdu (header : ReportHeader) (several : Bool) (number : Nat) (more : Bool)
    (dsLen : Nat) (members : List IncludedMember) :
    encodePdu header several (UInt16.ofNat number) more dsLen members =
      reportPdu header several number more dsLen members := by
  have segmentation : (header.optFldsOf several).contains .segmentation =
      (several || header.optFlds.contains .segmentation) := by
    cases several with
    | false => rfl
    | true => exact OptFlds.contains_union_self _ _
  have announced : header.optFldsOf several =
      if several then header.optFlds.union .segmentation else header.optFlds := rfl
  have kept (flag : OptFlds) (other : OptFlds.segmentation.bits &&& flag.bits = 0) :
      (header.optFldsOf several).contains flag = header.optFlds.contains flag := contains_optFldsOf other
  rw [encodePdu_eq, reportPdu, pduElements, headerElements, inclusionElement, inclusionBitmap_eq,
    reportElements]
  simp only [segmentation, kept .seqNum rfl, kept .timeStamp rfl, kept .dataSet rfl,
    kept .bufferOverflow rfl, kept .entryId rfl, kept .confRev rfl]
  rw [announced]

end Iec61850.Reporting
