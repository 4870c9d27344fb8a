import Iec61850.Client.Report
import Iec61850.Reporting.Segmentation
import Mathlib.Tactic.IntervalCases

/-!
A PDU of the report encoder is decoded and parsed back into the fields it was built from.
-/

namespace Iec61850.Client.Report

open Model Mms Wire Reporting MmsData ReportOptFlds
open Reporting (OptFlds ReportHeader IncludedMember)
open Client (mmsDataToMmsValue carriedMs)

/-! Values that the decoder accepts, if they are short enough. -/

def Representable : MmsData → Prop := Formed fun _ => True

mutual

theorem wellFormed_of_representable {data : MmsData} (representable : Representable data)
    (short : data.encode.length ≤ 65535) : data.WellFormed := by
  cases data with
  | array items | struct items =>
    rw [encode, encodeTlv_length] at short
    exact ⟨by omega, membersWellFormed_of_representable representable.2 (by omega)⟩
  | binaryTime bytes => exact representable
  | bitString padding data | booleanArray padding data =>
    rw [encode, encodeTlv_length, List.length_cons] at short
    exact ⟨representable.1, by omega⟩
  | octetString bytes | visibleString text | generalizedTime text | mmsString text =>
    rw [encode, encodeTlv_length] at short
    exact Nat.le_trans (Nat.le_add_left _ _) short
  | _ => trivial

theorem membersWellFormed_of_representable {items : List MmsData}
    (representable : MembersFormed (fun _ => True) items)
    (short : (encodeAll items).length ≤ 65535) : MembersFormed (· ≤ 65535) items := by
  cases items with
  | nil => trivial
  | cons item rest =>
    rw [encodeAll, List.length_append] at short
    exact ⟨wellFormed_of_representable representable.1 (by omega),
      membersWellFormed_of_representable representable.2 (by omega)⟩

end

def Readable (data : MmsData) : Prop := Representable data ∧ data.nestingDepth ≤ maxDataNestingDepth.toNat

variable {data : MmsData} {present : Bool} {header : ReportHeader} {segmented : Bool} {subSeqNum : UInt16}
  {moreFollows : Bool} {members : List IncludedMember} {dsLen : Nat} {β : Type} {field : IncludedMember → Option β}

theorem Readable.decode (readable : Readable data) (short : data.encode.length ≤ 65535)
    (rest : List UInt8) : decode (data.encode ++ rest) = .ok (data, data.encode.length) := by
  have nesting := readable.2
  exact decodeLevels_encode data (wellFormed_of_representable readable.1 short) _ 0 32 (by decide) nesting rest

variable (reason octets : Vector UInt8 2) (fields flag : OptFlds)

def reasonMeant : ReasonForInclusion := .fromReasonByte (reasonBits reason)

theorem bind_ok {ε α : Type} (value : α) (next : α → Except ε β) : (Except.ok value >>= next) = next value := rfl

/-- The taker takes the values in front of any others, and they mean `result`. -/
def Takes {α : Type} (elements : List MmsValue) (taker : Nat → Except ReportParseError (α × Nat))
    (values : List MmsValue) (result : α) : Prop :=
  ∀ idx rest, elements.drop idx = values ++ rest → ∃ next, taker idx = .ok (result, next) ∧ elements.drop next = rest

section

variable {α : Type} {elements : List MmsValue} {taker : Nat → Except ReportParseError (α × Nat)}
  {values : List MmsValue} {result : α}

theorem takes_one (value : MmsValue) (field : String) : Takes elements (take elements · field) [value] value := by
  intro idx rest found
  have first : elements[idx]? = some value := by
    rw [← List.head?_drop, found]
    rfl
  have left : elements.drop (idx + 1) = rest := by
    rw [← List.drop_drop, found]
    rfl
  exact ⟨idx + 1, by simp [take, first], left⟩

theorem takes_as {value : MmsValue} (field expected : String) {narrow : MmsValue → Option α}
    (fits : narrow value = some result) : Takes elements (takeAs elements · field expected narrow) [value] result := by
  intro idx rest found
  obtain ⟨next, taken, left⟩ := takes_one value field idx rest found
  refine ⟨next, ?_, left⟩
  dsimp only at taken ⊢
  rw [takeAs, taken, bind_ok]
  simp only [fits]
  rfl

theorem Takes.optional (takes : Takes elements taker values result) (present : Bool) :
    Takes elements (takeIf present taker) (if present then values else []) (if present then some result else none) := by
  intro idx rest found
  cases present with
  | false => exact ⟨idx, rfl, found⟩
  | true =>
    obtain ⟨next, taken, left⟩ := takes idx rest found
    refine ⟨next, ?_, left⟩
    simp only [takeIf, taken, if_true]
    rfl

theorem takes_many {many : List MmsValue} {results : List α}
    (each : List.Forall₂ (fun value result => Takes elements taker [value] result) many results) :
    Takes elements (takeMany taker results.length) many results := by
  induction each with
  | nil => exact fun idx rest found => ⟨idx, rfl, found⟩
  | @cons value result many results first others ih =>
    intro idx rest found
    obtain ⟨middle, taken, left⟩ := first idx (many ++ rest) found
    obtain ⟨next, takenMany, left⟩ := ih middle rest left
    refine ⟨next, ?_, left⟩
    rw [List.length_cons, takeMany, taken, bind_ok]
    dsimp only
    rw [takenMany]
    rfl

end

theorem takes_segmentation (elements : List MmsValue) (subSeqNum : UInt16) (moreFollows : Bool) :
    Takes elements (takeSegmentation elements) [.unsigned subSeqNum.toUInt64, .boolean moreFollows]
      ⟨subSeqNum, moreFollows⟩ := by
  intro idx rest found
  have number : Takes elements (takeUnsigned elements · "SubSeqNum") [.unsigned subSeqNum.toUInt64]
      subSeqNum.toUInt64 :=
    takes_as _ _ rfl
  have more : Takes elements (takeBoolean elements · "MoreSegmentsFollow") [.boolean moreFollows] moreFollows :=
    takes_as _ _ rfl
  obtain ⟨middle, takenNumber, left⟩ := number idx (.boolean moreFollows :: rest) found
  obtain ⟨next, takenMore, left⟩ := more middle rest left
  refine ⟨next, ?_, left⟩
  dsimp only at takenNumber takenMore
  rw [takeSegmentation, takenNumber]
  simp only [malformed, bind_ok, takenMore]
  rw [UInt16.toUInt16_toUInt64]
  rfl

theorem takes_binaryTime (elements : List MmsValue) (ms : UInt64) :
    Takes elements (takeBinaryTimeMs elements) [.binaryTime (binaryTime6FromEpochMs ms)] (carriedMs ms) := by
  intro idx rest found
  have time : Takes elements (takeBinaryTime elements) [.binaryTime (binaryTime6FromEpochMs ms)]
      (binaryTime6FromEpochMs ms) := takes_as _ _ rfl
  obtain ⟨next, taken, left⟩ := time idx rest found
  refine ⟨next, ?_, left⟩
  have converted : binaryTimeBufToUtcMs (binaryTime6FromEpochMs ms) = .ok (carriedMs ms) := by
    have six : (binaryTime6FromEpochMs ms).length = 6 := by simp [binaryTime6FromEpochMs]
    rw [binaryTimeBufToUtcMs, if_neg (by omega), if_pos six, carriedMs_def]
  rw [takeBinaryTimeMs, taken, bind_ok]
  dsimp only
  rw [converted]
  rfl

/-! The option fields, the inclusion bits and the reasons. -/

theorem fromBitString_octets : fromBitString (optFldsOctets fields) = ⟨fields.bits &&& 0x1ff⟩ := by
  have left (word count : UInt16) : word.shiftLeft count = word <<< count := rfl
  have right (word count : UInt16) : word.shiftRight count = word >>> count := rfl
  rw [fromBitString, mk.injEq]
  apply UInt16.toBitVec_inj.mp
  simp only [optFldsOctets, encodeOptFldsUnmasked, List.drop_succ_cons, List.drop_zero, List.getElem?_cons_zero,
    Option.getD_some, List.getElem?_cons_succ, left, right, UInt16.toBitVec_and, UInt16.toBitVec_or,
    UInt16.toBitVec_shiftLeft, UInt16.toBitVec_shiftRight, UInt8.toBitVec_toUInt16, UInt16.toBitVec_toUInt8]
  apply BitVec.eq_of_getLsbD_eq
  intro index inside
  interval_cases index <;> simp

theorem contains_masked (known : (0x1ff : UInt16) &&& flag.bits = flag.bits) :
    contains ⟨fields.bits &&& 0x1ff⟩ ⟨flag.bits⟩ = fields.contains flag := by
  unfold contains OptFlds.contains
  rw [UInt16.and_assoc, known]

theorem inclusionBit_eq (octets : List UInt8) (index : Nat) : inclusionBit octets index = bitAt octets index := by
  have small : (UInt8.ofNat (7 - index % 8)).toNat = 7 - index % 8 := by
    rw [UInt8.toNat_ofNat']
    omega
  unfold inclusionBit bitAt
  cases octets[index / 8]? with
  | none => simp
  | some octet =>
    rw [Option.getD_some, Option.any_some, Bool.eq_iff_iff, beq_iff_eq, ← UInt8.toNat_inj, UInt8.toNat_and,
      UInt8.toNat_shiftRight, small, Nat.testBit_eq_decide_div_mod_eq, decide_eq_true_iff, Nat.shiftRight_eq_div_pow,
      Nat.mod_eq_of_lt (by omega : 7 - index % 8 < 8)]
    simp

theorem filter_mem_of_sublist {part whole : List Nat} (sub : part.Sublist whole) (once : whole.Nodup) :
    whole.filter (· ∈ part) = part := by
  induction sub with
  | slnil => rfl
  | @cons part whole first sub ih =>
    obtain ⟨fresh, once⟩ := List.nodup_cons.mp once
    rw [List.filter_cons_of_neg (by simpa using fun member => fresh (sub.subset member)), ih once]
  | @cons_cons part whole first sub ih =>
    obtain ⟨fresh, once⟩ := List.nodup_cons.mp once
    rw [List.filter_cons_of_pos (by simp)]
    congr 1
    refine Eq.trans (List.filter_congr ?_) (ih once)
    intro index member
    have other : index ≠ first := fun same => fresh (same ▸ member)
    simp [other]

def inclusionBits (dsLen : Nat) (members : List IncludedMember) : List Bool :=
  (List.range dsLen).map fun index => index ∈ members.map (·.index)

theorem takes_inclusion (elements : List MmsValue) (inside : ∀ member ∈ members, member.index < dsLen) :
    Takes elements (takeInclusion elements) [mmsDataToMmsValue (inclusionElement dsLen members)]
      (inclusionBits dsLen members) := by
  refine takes_as _ _ ?_
  have unused : (UInt8.ofNat ((dsLen + 7) / 8 * 8 - dsLen)).toNat = (dsLen + 7) / 8 * 8 - dsLen := by
    rw [UInt8.toNat_ofNat']
    omega
  have count : (dsLen + 7) / 8 * 8 - ((dsLen + 7) / 8 * 8 - dsLen) = dsLen := by omega
  simp only [mmsDataToMmsValue, inclusionElement, length_inclusionBitmap, unused, count,
    inclusionBits, Option.some.injEq]
  refine List.map_congr_left ?_
  intro index _
  rw [inclusionBit_eq, marked_of_lt inside]

theorem filter_inclusionBits (ordered : (members.map (·.index)).Sublist (List.range dsLen)) :
    ((inclusionBits dsLen members).filter id).length = members.length := by
  unfold inclusionBits
  rw [List.filter_map, List.length_map]
  have kept := filter_mem_of_sublist ordered List.nodup_range
  have sized := congrArg List.length kept
  rw [List.length_map] at sized
  exact sized

def sentReport (header : ReportHeader) (segmented : Bool) (subSeqNum : UInt16) (moreFollows : Bool) (dsLen : Nat)
    (members : List IncludedMember) : ParsedReport :=
  let f := header.optFldsOf segmented
  { rptId := header.rptId
    optFlds := ⟨f.bits &&& 0x1ff⟩
    seqNum := if f.contains .seqNum then some header.sqNum.toUInt16 else none
    timestampMs := if f.contains .timeStamp then some (carriedMs header.timeOfEntryMs) else none
    dataSetName := if f.contains .dataSet then some header.datSet else none
    bufOvfl := if f.contains .bufferOverflow then some header.bufOvfl else none
    entryId := if f.contains .entryId then some header.entryId.toBytes else none
    confRev := if f.contains .confRev then some header.confRev else none
    segmentation := if f.contains .segmentation then some ⟨subSeqNum, moreFollows⟩ else none
    inclusionBits := inclusionBits dsLen members
    dataReferences := members.filterMap (·.reference)
    dataValues := members.map fun member => mmsDataToMmsValue (member.value.getD (.struct []))
    reasons := (members.filterMap (·.reason)).map reasonMeant }

theorem filterMap_eq_nil (each : ∀ member ∈ members, (field member).isSome = false) : members.filterMap field = [] := by
  refine List.filterMap_eq_nil_iff.mpr ?_
  intro member present
  exact Option.isNone_iff_eq_none.mp (by simpa using each member present)

theorem takes_each {α : Type} {elements : List MmsValue} {taker : Nat → Except ReportParseError (α × Nat)}
    (each : ∀ member ∈ members, (field member).isSome = present) {wrap : β → MmsValue} {meant : β → α}
    (one : ∀ content, Takes elements taker [wrap content] (meant content)) :
    Takes elements (takeIf present (takeMany taker members.length)) ((members.filterMap field).map wrap)
      (if present then some ((members.filterMap field).map meant) else none) := by
  cases present with
  | false =>
    rw [filterMap_eq_nil each]
    exact fun idx rest found => ⟨idx, rfl, found⟩
  | true =>
    have sized : ((members.filterMap field).map meant).length = members.length := by
      rw [List.length_map, List.filterMap_length_eq_length]
      exact each
    rw [← sized]
    refine Takes.optional (takes_many ?_) true
    induction members.filterMap field with
    | nil => exact .nil
    | cons content rest ih => exact .cons (one content) ih

theorem getD_if_some {α : Type} {contents : List α} (absent : present = false → contents = []) :
    (if present then some contents else none).getD [] = contents := by
  cases present with
  | false => exact (absent rfl).symm
  | true => rfl

theorem map_if_some {α : Type} {content : α} (meant : α → β) :
    (if present then some content else none).map meant = if present then some (meant content) else none := by
  cases present <;> rfl

/-- The members of a report that the option fields describe, in the order of the data set. -/
structure Sendable (header : ReportHeader) (dsLen : Nat) (members : List IncludedMember) : Prop where
  ordered : (members.map (·.index)).Sublist (List.range dsLen)
  references : ∀ member ∈ members, member.reference.isSome = header.optFlds.contains .dataReference
  reasons : ∀ member ∈ members, member.reason.isSome = header.optFlds.contains .reason
  padded : ∀ member ∈ members, ∀ reason ∈ member.reason, reasonPadding reason = 2
  values : ∀ member ∈ members, ∀ data ∈ member.value, Readable data

theorem map_if {elements : List MmsData} :
    (if present then elements else []).map mmsDataToMmsValue =
      if present then elements.map mmsDataToMmsValue else [] := by
  cases present <;> rfl

theorem map_flatMap_toList (members : List IncludedMember) (field : IncludedMember → Option β) (wrap : β → MmsData) :
    (members.flatMap fun member => (field member).toList.map wrap).map mmsDataToMmsValue =
      (members.filterMap field).map fun content => mmsDataToMmsValue (wrap content) := by
  induction members with
  | nil => rfl
  | cons member rest ih =>
    rw [List.flatMap_cons, List.map_append, ih, List.filterMap_cons]
    cases field member <;> rfl

theorem parseElements_pdu (sendable : Sendable header dsLen members) :
    parseElements ((pduElements header segmented subSeqNum moreFollows dsLen members).map mmsDataToMmsValue) =
      .ok (sentReport header segmented subSeqNum moreFollows dsLen members) := by
  generalize whole : (pduElements header segmented subSeqNum moreFollows dsLen members).map mmsDataToMmsValue = elements
  let f := header.optFldsOf segmented
  have start : elements.drop 0 = [.visibleString header.rptId] ++ ([.bitString 6 (optFldsOctets f)] ++
      ((if f.contains .seqNum then [.unsigned header.sqNum] else []) ++
      ((if f.contains .timeStamp then [.binaryTime (binaryTime6FromEpochMs header.timeOfEntryMs)] else []) ++
      ((if f.contains .dataSet then [.visibleString header.datSet] else []) ++
      ((if f.contains .bufferOverflow then [.boolean header.bufOvfl] else []) ++
      ((if f.contains .entryId then [.octetString header.entryId.toBytes] else []) ++
      ((if f.contains .confRev then [.unsigned header.confRev.toUInt64] else []) ++
      ((if f.contains .segmentation then [.unsigned subSeqNum.toUInt64, .boolean moreFollows] else []) ++
      ([mmsDataToMmsValue (inclusionElement dsLen members)] ++
      ((members.filterMap (·.reference)).map .visibleString ++
      ((members.map fun member => mmsDataToMmsValue (member.value.getD (.struct []))) ++
      (((members.filterMap (·.reason)).map fun reason => mmsDataToMmsValue (reasonElement reason))
        ++ [])))))))))))) := by
    rw [List.drop_zero, ← whole, pduElements, headerElements]
    simp only [List.map_append, map_flatMap_toList, map_if, List.map_cons, List.map_nil,
      List.map_map, mmsDataToMmsValue, List.append_assoc, List.cons_append, List.nil_append, List.append_nil]
    rfl
  have inside : ∀ member ∈ members, member.index < dsLen := fun member present =>
    List.mem_range.mp (sendable.ordered.subset (List.mem_map_of_mem present))
  have string (field text : String) : Takes elements (takeVisibleString elements · field) [.visibleString text] text :=
    takes_as _ _ rfl
  have number (field : String) (value : UInt64) :
      Takes elements (takeUnsigned elements · field) [.unsigned value] value :=
    takes_as _ _ rfl
  have options : Takes elements (takeOptFlds elements) [.bitString 6 (optFldsOctets f)] ⟨f.bits &&& 0x1ff⟩ :=
    takes_as _ _ (congrArg some (fromBitString_octets f))
  have overflow : Takes elements (takeBoolean elements · "BufOvfl") [.boolean header.bufOvfl] header.bufOvfl :=
    takes_as _ _ rfl
  have entry : Takes elements (takeOctetString elements · "EntryId") [.octetString header.entryId.toBytes]
      header.entryId.toBytes := takes_as _ _ rfl
  have reason (octets : Vector UInt8 2) : Takes elements (takeReason elements)
      [mmsDataToMmsValue (reasonElement octets)] (reasonMeant octets) := takes_as _ _ rfl
  have values : Takes elements (takeMany (take elements · "DataValue") members.length)
      (members.map fun member => mmsDataToMmsValue (member.value.getD (.struct [])))
      (members.map fun member => mmsDataToMmsValue (member.value.getD (.struct []))) := by
    generalize sized : members.map (fun member => mmsDataToMmsValue (member.value.getD (.struct []))) = sent
    have length : members.length = sent.length := by rw [← sized, List.length_map]
    rw [length]
    exact takes_many (List.forall₂_same.mpr fun value _ => takes_one value "DataValue")
  obtain ⟨idx, taken1, start⟩ := string "RptId" header.rptId _ _ start
  obtain ⟨idx, taken2, start⟩ := options _ _ start
  obtain ⟨idx, taken3, start⟩ := (number "SeqNum" header.sqNum).optional (f.contains .seqNum) _ _ start
  obtain ⟨idx, taken4, start⟩ :=
    (takes_binaryTime elements header.timeOfEntryMs).optional (f.contains .timeStamp) _ _ start
  obtain ⟨idx, taken5, start⟩ := (string "DataSetName" header.datSet).optional (f.contains .dataSet) _ _ start
  obtain ⟨idx, taken6, start⟩ := overflow.optional (f.contains .bufferOverflow) _ _ start
  obtain ⟨idx, taken7, start⟩ := entry.optional (f.contains .entryId) _ _ start
  obtain ⟨idx, taken8, start⟩ := (number "ConfRev" header.confRev.toUInt64).optional (f.contains .confRev) _ _ start
  obtain ⟨idx, taken9, start⟩ :=
    (takes_segmentation elements subSeqNum moreFollows).optional (f.contains .segmentation) _ _
      start
  obtain ⟨idx, taken10, start⟩ := takes_inclusion elements inside _ _ start
  have referenced : ∀ member ∈ members, member.reference.isSome = f.contains .dataReference := by
    intro member present
    rw [sendable.references member present, contains_optFldsOf (by decide)]
  have reasoned : ∀ member ∈ members, member.reason.isSome = f.contains .reason := by
    intro member present
    rw [sendable.reasons member present, contains_optFldsOf (by decide)]
  have noReferences (absent : f.contains .dataReference = false) : members.filterMap (·.reference) = [] :=
    filterMap_eq_nil (absent ▸ referenced)
  have noReasons (absent : f.contains .reason = false) :
      (members.filterMap (·.reason)).map reasonMeant = [] := by
    rw [filterMap_eq_nil (absent ▸ reasoned), List.map_nil]
  obtain ⟨idx, taken11, start⟩ := takes_each referenced (string "DataReference") _ _ start
  obtain ⟨idx, taken12, start⟩ := values _ _ start
  obtain ⟨idx, taken13, start⟩ := takes_each reasoned reason _ _ start
  have announced (flag : OptFlds) (known : (0x1ff : UInt16) &&& flag.bits = flag.bits) :
      contains ⟨f.bits &&& 0x1ff⟩ ⟨flag.bits⟩ = f.contains flag := contains_masked f flag known
  have sequenceNumber : contains ⟨f.bits &&& 0x1ff⟩ .sequenceNumber = f.contains .seqNum := announced .seqNum rfl
  have timestamp : contains ⟨f.bits &&& 0x1ff⟩ .reportTimestamp = f.contains .timeStamp := announced .timeStamp rfl
  have dataSet : contains ⟨f.bits &&& 0x1ff⟩ .dataSetName = f.contains .dataSet := announced .dataSet rfl
  have buffer : contains ⟨f.bits &&& 0x1ff⟩ .bufferOverflow = f.contains .bufferOverflow :=
    announced .bufferOverflow rfl
  have entryId : contains ⟨f.bits &&& 0x1ff⟩ .entryId = f.contains .entryId := announced .entryId rfl
  have confRev : contains ⟨f.bits &&& 0x1ff⟩ .confRev = f.contains .confRev := announced .confRev rfl
  have segmentation : contains ⟨f.bits &&& 0x1ff⟩ .segmentation = f.contains .segmentation :=
    announced .segmentation rfl
  have dataReference : contains ⟨f.bits &&& 0x1ff⟩ .dataReference = f.contains .dataReference :=
    announced .dataReference rfl
  have reasonFlag : contains ⟨f.bits &&& 0x1ff⟩ .reasonForInclusion = f.contains .reason := announced .reason rfl
  dsimp only at taken1 taken2 taken3 taken4 taken5 taken6 taken7 taken8 taken9 taken10 taken11 taken12 taken13
  simp only [parseElements, bind_ok, taken1, taken2, taken3, taken4, taken5, taken6, taken7, taken8, taken9, taken10,
    taken11, taken12, taken13, sequenceNumber, timestamp, dataSet, buffer, entryId, confRev,
    segmentation, dataReference, reasonFlag, filter_inclusionBits sendable.ordered, map_if_some, List.map_id',
    getD_if_some noReferences, getD_if_some noReasons, UInt32.toUInt32_toUInt64]
  rfl

theorem readable_flat (representable : Representable data) (flat : data.nestingDepth = 0) : Readable data :=
  ⟨representable, by rw [flat]; exact Nat.zero_le _⟩

theorem readable_bitString {padding : UInt8} {octets : List UInt8} (small : padding ≤ 7)
    (empty : octets = [] → padding = 0) : Readable (.bitString padding octets) :=
  readable_flat ⟨⟨small, empty⟩, trivial⟩ rfl

theorem readable_headerElements : ∀ data ∈ headerElements header segmented subSeqNum moreFollows, Readable data := by
  have time : (binaryTime6FromEpochMs header.timeOfEntryMs).length = 6 := by simp [binaryTime6FromEpochMs]
  have octets : optFldsOctets (header.optFldsOf segmented) ≠ [] := by simp [optFldsOctets, encodeOptFldsUnmasked]
  intro data member
  simp only [headerElements, List.mem_append, List.mem_ite_nil_right, List.mem_cons,
    List.not_mem_nil, or_false] at member
  obtain (((((((rptId | optFlds) | ⟨_, rfl⟩) | ⟨_, rfl⟩) | ⟨_, rfl⟩) | ⟨_, rfl⟩) | ⟨_, rfl⟩) | ⟨_, rfl⟩) | ⟨_, rfl | rfl⟩ :=
    member
  · exact rptId ▸ readable_flat trivial rfl
  · exact optFlds ▸ readable_bitString (by decide) fun none => absurd none octets
  · exact readable_flat trivial rfl
  · exact readable_flat (.inr time) rfl
  all_goals exact readable_flat trivial rfl

theorem readable_inclusionElement (dsLen : Nat) (members : List IncludedMember) :
    Readable (inclusionElement dsLen members) := by
  have sized := length_inclusionBitmap (members.map (·.index)) dsLen
  refine readable_bitString ?_ ?_
  · rw [UInt8.le_iff_toNat_le, UInt8.toNat_ofNat', show (7 : UInt8).toNat = 7 from rfl]
    omega
  · intro none
    rw [none, List.length_nil] at sized
    have empty : dsLen = 0 := by omega
    rw [empty]
    rfl

theorem readable_pduElements (sendable : Sendable header dsLen members) :
    ∀ data ∈ pduElements header segmented subSeqNum moreFollows dsLen members, Readable data := by
  intro data listed
  simp only [pduElements, List.mem_append, List.mem_singleton, List.mem_flatMap, List.mem_map,
    Option.mem_toList] at listed
  obtain (((fields | rfl) | ⟨member, _, text, _, rfl⟩) | ⟨member, present, rfl⟩) | ⟨member, present, reason, given, rfl⟩ := listed
  · exact readable_headerElements data fields
  · exact readable_inclusionElement dsLen members
  · exact readable_flat trivial rfl
  · cases value : member.value with
    | none => exact readable_flat ⟨trivial, trivial⟩ rfl
    | some data => exact sendable.values member present data value
  · refine readable_bitString ?_ fun none => by cases none
    rw [sendable.padded member present reason given]
    decide

theorem decodeReport_pdu (sendable : Sendable header dsLen members)
    (short : (encodePdu header segmented subSeqNum moreFollows dsLen members).length ≤ 65535) :
    (unconfirmedInner (encodePdu header segmented subSeqNum moreFollows dsLen members)).map decodeReport =
      some (.ok (sentReport header segmented subSeqNum moreFollows dsLen members)) := by
  generalize listed : pduElements header segmented subSeqNum moreFollows dsLen members = elements
  let name := ObjectName.vmdSpecific "RPT"
  let body := encodeTlv 0xa1 name.encode ++ encodeTlv 0xa0 (elements.flatMap encode)
  have pdu : encodePdu header segmented subSeqNum moreFollows dsLen members = encodeTlv 0xa3 (encodeTlv 0xa0 body) := by
    rw [encodePdu_eq, listed]
  rw [pdu, encodeTlv_length] at short
  have opened : unconfirmedInner (encodeTlv 0xa3 (encodeTlv 0xa0 body)) = some (encodeTlv 0xa0 body) := by
    have element := readElement_encodeTlv 0xa3 (show (encodeTlv 0xa0 body).length ≤ 65535 by omega) []
    rw [List.append_nil] at element
    unfold unconfirmedInner
    rw [element]
    rfl
  have sized := encodeTlv_length 0xa0 body
  have list : (elements.flatMap encode).length ≤ body.length := by
    rw [List.length_append, encodeTlv_length 0xa0]
    omega
  have reads : ∀ data ∈ elements, ∀ rest, decode (data.encode ++ rest) = .ok (data, data.encode.length) := by
    intro data member rest
    have part : data.encode.length ≤ (elements.flatMap encode).length := by
      obtain ⟨front, back, split⟩ := List.append_of_mem member
      rw [split, List.flatMap_append, List.flatMap_cons, List.length_append, List.length_append]
      omega
    exact (readable_pduElements sendable data (listed ▸ member)).decode (by omega) rest
  have named : ObjectName.decode name.encode = .ok (name, name.encode.length) := by
    have read := @ObjectName.decode_vmdSpecific "RPT" (by decide) []
    rwa [List.append_nil] at read
  have decoded : decodeInformationReport (encodeTlv 0xa0 body) = .ok ⟨.variableListName name, elements⟩ :=
    decodeInformationReport_encode named reads (show body.length ≤ 65535 by omega)
  rw [pdu, opened, Option.map_some]
  unfold decodeReport
  rw [decoded]
  simp only [name, if_true, parseReport]
  rw [← listed, parseElements_pdu sendable]
  rfl

end Iec61850.Client.Report
