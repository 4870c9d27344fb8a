import Iec61850.Reporting.ReportData
import Iec61850.Wire.Packing

/-!
Report segmentation: the predicted size of a PDU is the size of its encoding, and the splitter packs
the included members greedily into numbered segments.
-/

namespace Iec61850.Reporting

open List Mms Model Wire.Packing

variable (front back : List IncludedMember) (included : List Nat)

theorem reportPdu_whole (header : ReportHeader) (dsLen : Nat) (members : List IncludedMember) :
    encodePdu header false 0 false dsLen members = reportPdu header false 0 false dsLen members :=
  encodePdu_eq_reportPdu header false 0 false dsLen members

@[simp] theorem length_encodeVisibleString (text : String) :
    (encodeVisibleString text).length = tlvLen (stringLen text) :=
  encodeTlv_length _ _

@[simp] theorem length_encodeUnsigned (value : UInt64) : (encodeUnsigned value).length = unsignedTlvLen value :=
  MmsData.encode_length _

@[simp] theorem length_encodeInclusionField (dsLen : Nat) :
    (encodeInclusionField included dsLen).length = inclusionTlvLen dsLen := by
  simp [encodeInclusionField, inclusionTlvLen, tlvLen, length_inclusionBitmap, Nat.add_comm 1]

theorem length_if {fields : Bool} {octets : Bytes} {size : Nat} (sized : octets.length = size) :
    (if fields then octets else []).length = if fields then size else 0 := by
  cases fields with
  | false => rfl
  | true => exact sized

theorem ReportHeader.length_encode (header : ReportHeader) (segmented : Bool) (subSeqNum : UInt16)
    (moreFollows : Bool) : (header.encode segmented subSeqNum moreFollows).length =
      header.encodedLen + header.segmentationLen segmented subSeqNum := by
  have binaryTime : (encodeBinaryTime header.timeOfEntryMs).length = tlvLen binaryTimeLen := rfl
  have entryId : (encodeOctetString8 header.entryId).length = entryIdTlvLen := rfl
  have boolean (value : Bool) : (encodeBoolean value).length = booleanTlvLen := rfl
  have optFlds : (encodeOptFldsUnmasked (header.optFldsOf segmented)).length = optFldsTlvLen := rfl
  have segmentation : (encodeUnsigned subSeqNum.toUInt64 ++ encodeBoolean moreFollows).length =
      unsignedTlvLen subSeqNum.toUInt64 + booleanTlvLen := by
    rw [length_append, length_encodeUnsigned, boolean]
  simp only [ReportHeader.encode, ReportHeader.encodedLen, ReportHeader.segmentationLen, length_append,
    length_if (length_encodeUnsigned _), length_if binaryTime, length_if (length_encodeVisibleString _),
    length_if entryId, length_if (boolean _), length_if segmentation, length_encodeVisibleString, optFlds]
  rw [contains_optFldsOf (by decide), contains_optFldsOf (by decide), contains_optFldsOf (by decide),
    contains_optFldsOf (by decide), contains_optFldsOf (by decide), contains_optFldsOf (by decide)]

namespace IncludedMember

variable (member : IncludedMember)

theorem length_encodeReference :
    member.encodeReference.length = member.reference.elim 0 fun reference => tlvLen (stringLen reference) := by
  unfold encodeReference
  cases member.reference with
  | none => rfl
  | some reference => exact length_encodeVisibleString reference

theorem length_encodeValue :
    member.encodeValue.length = member.value.elim emptyValueTlvLen MmsData.estimatedEncodedSize := by
  unfold encodeValue
  cases member.value with
  | none => rfl
  | some value => exact value.encode_length

theorem length_encodeReason : member.encodeReason.length = if member.reason.isSome then reasonTlvLen else 0 := by
  unfold encodeReason
  cases member.reason with
  | none => rfl
  | some reason => simp [reasonTlvLen]

end IncludedMember

def membersLen (members : List IncludedMember) : Nat := (members.map IncludedMember.encodedLen).sum

@[simp] theorem membersLen_append : membersLen (front ++ back) = membersLen front + membersLen back := by
  simp [membersLen]

theorem length_flatMap_members (members : List IncludedMember) :
    (members.flatMap IncludedMember.encodeReference).length + (members.flatMap IncludedMember.encodeValue).length +
      (members.flatMap IncludedMember.encodeReason).length = membersLen members := by
  induction members with
  | nil => rfl
  | cons member rest ih =>
    simp only [flatMap_cons, length_append, member.length_encodeReference, member.length_encodeValue,
      member.length_encodeReason, membersLen, map_cons, sum_cons, IncludedMember.encodedLen] at ih ⊢
    omega

def fixedLen (header : ReportHeader) (dsLen : Nat) (segmented : Bool) (subSeqNum : UInt16) : Nat :=
  header.encodedLen + inclusionTlvLen dsLen + header.segmentationLen segmented subSeqNum

theorem length_encodePdu (header : ReportHeader) (segmented : Bool) (subSeqNum : UInt16) (moreFollows : Bool)
    (dsLen : Nat) (members : List IncludedMember) :
    (encodePdu header segmented subSeqNum moreFollows dsLen members).length =
      pduLen (fixedLen header dsLen segmented subSeqNum + membersLen members) := by
  have carried := length_flatMap_members members
  have content : (header.encode segmented subSeqNum moreFollows ++
      encodeInclusionField (members.map IncludedMember.index) dsLen ++
      members.flatMap IncludedMember.encodeReference ++ members.flatMap IncludedMember.encodeValue ++
      members.flatMap IncludedMember.encodeReason).length =
      fixedLen header dsLen segmented subSeqNum + membersLen members := by
    simp only [length_append, header.length_encode, length_encodeInclusionField, fixedLen]
    omega
  simp only [encodePdu, encodeTlv_length, pduLen, tlvLen, length_append, content]

theorem tlvLen_mono {small large : Nat} (ordered : small ≤ large) : tlvLen small ≤ tlvLen large := by
  have grown := lengthSize_add_mono ordered
  unfold tlvLen
  omega

theorem pduLen_mono {small large : Nat} (ordered : small ≤ large) : pduLen small ≤ pduLen large := by
  have list := tlvLen_mono ordered
  exact tlvLen_mono (tlvLen_mono (by omega))

theorem segmentationLen_le (header : ReportHeader) :
    header.segmentationLen false 0 ≤ header.segmentationLen true 0 := by
  have announced : (header.optFldsOf true).contains .segmentation = true := OptFlds.contains_union_self _ _
  unfold ReportHeader.segmentationLen
  rw [if_pos announced]
  split
  · exact Nat.le_refl _
  · exact Nat.zero_le _

def SegmentFits (header : ReportHeader) (dsLen limit number : Nat) (members : List IncludedMember) : Prop :=
  (reportPdu header true number true dsLen members).length ≤ limit

section

variable {header : ReportHeader} {dsLen limit number : Nat}

theorem segmentFits_iff {members : List IncludedMember} : SegmentFits header dsLen limit number members ↔
      pduLen (fixedLen header dsLen true (UInt16.ofNat number) + membersLen members) ≤ limit := by
  rw [SegmentFits, ← encodePdu_eq_reportPdu, length_encodePdu]

theorem segmentFits_closed : PrefixClosed (SegmentFits header dsLen limit) := by
  intro number front back fits
  rw [segmentFits_iff, membersLen_append] at fits
  rw [segmentFits_iff]
  exact Nat.le_trans (pduLen_mono (by omega)) fits

theorem takeFitting_spec (limit content : Nat) (members : List IncludedMember) :
    (takeFitting limit content members).1 ++ (takeFitting limit content members).2 = members ∧
    ((takeFitting limit content members).1 ≠ [] →
      pduLen (content + membersLen (takeFitting limit content members).1) ≤ limit) ∧
    ∀ first later, (takeFitting limit content members).2 = first :: later →
      limit < pduLen (content + membersLen ((takeFitting limit content members).1 ++ [first])) := by
  induction members generalizing content with
  | nil =>
    refine ⟨rfl, fun absurd => (absurd rfl).elim, ?_⟩
    intro first later left
    cases left
  | cons member rest ih =>
    unfold takeFitting
    split
    · rename_i room
      obtain ⟨whole, fits, full⟩ := ih (content + member.encodedLen)
      have grouped (taken : List IncludedMember) :
          content + membersLen (member :: taken) = content + member.encodedLen + membersLen taken := by
        simp only [membersLen, map_cons, sum_cons]
        omega
      refine ⟨congrArg (member :: ·) whole, ?_, ?_⟩
      · intro _
        rw [grouped]
        by_cases none : (takeFitting limit (content + member.encodedLen) rest).1 = []
        · rw [none]
          exact room
        · exact fits none
      · intro first later left
        rw [cons_append, grouped]
        exact full first later left
    · rename_i room
      refine ⟨rfl, fun absurd => (absurd rfl).elim, ?_⟩
      intro first later left
      cases left
      simpa [membersLen] using room

def renderFrom (header : ReportHeader) (dsLen number : Nat) (segments : List (List IncludedMember)) : List Bytes :=
  (segments.zipIdx number).map fun (segment, position) =>
    encodePdu header true (UInt16.ofNat position) (position + 1 < number + segments.length) dsLen segment

theorem renderFrom_cons (segment : List IncludedMember) (segments : List (List IncludedMember)) :
    renderFrom header dsLen number (segment :: segments) =
      encodePdu header true (UInt16.ofNat number) (!segments.isEmpty) dsLen segment ::
        renderFrom header dsLen (number + 1) segments := by
  have shifted : number + (segments.length + 1) = number + 1 + segments.length := by omega
  have more : decide (number + 1 < number + 1 + segments.length) = !segments.isEmpty := by
    cases segments <;> simp
  simp only [renderFrom, zipIdx_cons, map_cons, length_cons, shifted, more]

theorem toNat_subSeqNum (small : number ≤ 65535) : (UInt16.ofNat number).toNat = number :=
  UInt16.toNat_ofNat_of_lt' (Nat.lt_succ_of_le small)

theorem subSeqNum_eq_last (small : number ≤ 65535) : (UInt16.ofNat number == 0xffff) = decide (number = 65535) := by
  have number_iff : UInt16.ofNat number = 0xffff ↔ number = 65535 := by
    rw [← UInt16.toNat_inj, toNat_subSeqNum small]
    rfl
  rw [Bool.eq_iff_iff, beq_iff_eq, decide_eq_true_eq, number_iff]

theorem encodeSegments_succ {unsegmented passes : Nat} {subSeqNum : UInt16} {first : IncludedMember}
    {rest segment remaining : List IncludedMember}
    (taken : takeFitting limit (fixedLen header dsLen true subSeqNum) (first :: rest) = (segment, remaining)) :
    encodeSegments header dsLen limit unsegmented (passes + 1) subSeqNum (first :: rest) =
      if segment.isEmpty then
        if limit < pduLen (fixedLen header dsLen true subSeqNum) then
          .error (.pduTooSmall (pduLen (fixedLen header dsLen true subSeqNum)) limit)
        else
          .error (.memberTooLarge first.index
            (pduLen (fixedLen header dsLen true subSeqNum + first.encodedLen)) limit)
      else if !remaining.isEmpty && subSeqNum == 0xffff then
        .error (.pduTooSmall unsegmented limit)
      else
        (encodeSegments header dsLen limit unsegmented passes (subSeqNum + 1) remaining).map fun later =>
          encodePdu header true subSeqNum (!remaining.isEmpty) dsLen segment :: later := by
  unfold fixedLen at taken ⊢
  rw [encodeSegments]
  simp only [taken]

/-- What the outer loop returns: the greedy packing, or where it got stuck. -/
def SplitOutcome (header : ReportHeader) (dsLen limit number : Nat) (members : List IncludedMember) :
    Except ReportEncodeError (List Bytes) → Prop
  | .ok pdus => ∃ bins last, Fills (SegmentFits header dsLen limit) number members bins last ∧
      SegmentFits header dsLen limit (number + bins.length) last ∧ number + bins.length ≤ 65535 ∧
      pdus = renderFrom header dsLen number (bins ++ [last])
  | .error _ => ∃ bins first later, Fills (SegmentFits header dsLen limit) number members bins (first :: later) ∧
      (number + bins.length ≤ 65535 ∧ ¬ SegmentFits header dsLen limit (number + bins.length) [first] ∨
        number + bins.length = 65536)

theorem SplitOutcome.cons {segment later : List IncludedMember} {next : IncludedMember}
    {result : Except ReportEncodeError (List Bytes)} (nonempty : segment ≠ [])
    (holds : SegmentFits header dsLen limit number segment)
    (full : ¬ SegmentFits header dsLen limit number (segment ++ [next]))
    (outcome : SplitOutcome header dsLen limit (number + 1) (next :: later) result) :
    SplitOutcome header dsLen limit number (segment ++ next :: later)
      (result.map fun pdus => encodePdu header true (UInt16.ofNat number) true dsLen segment :: pdus) := by
  have shifted (bins : List (List IncludedMember)) : number + (segment :: bins).length = number + 1 + bins.length := by
    rw [length_cons]
    omega
  cases result with
  | ok pdus =>
    obtain ⟨bins, last, filled, fits, small, rfl⟩ := outcome
    refine ⟨segment :: bins, last, .next nonempty holds full filled, ?_, ?_, ?_⟩
    · simp only [shifted]
      exact fits
    · simp only [shifted]
      exact small
    · have more : (!(bins ++ [last]).isEmpty) = true := by simp
      rw [cons_append, renderFrom_cons, more]
  | error reason =>
    obtain ⟨bins, first, rest, filled, stuck⟩ := outcome
    refine ⟨segment :: bins, first, rest, .next nonempty holds full filled, ?_⟩
    simp only [shifted]
    exact stuck

theorem encodeSegments_spec {unsegmented passes : Nat} {members : List IncludedMember}
    (enough : members.length ≤ passes) (nonempty : members ≠ []) (small : number ≤ 65535) :
    SplitOutcome header dsLen limit number members
      (encodeSegments header dsLen limit unsegmented passes (UInt16.ofNat number) members) := by
  induction passes generalizing number members with
  | zero => exact absurd (length_eq_zero_iff.mp (Nat.le_zero.mp enough)) nonempty
  | succ passes ih =>
    obtain ⟨first, rest, rfl⟩ := exists_cons_of_ne_nil nonempty
    obtain ⟨whole, fits, full⟩ :=
      takeFitting_spec limit (fixedLen header dsLen true (UInt16.ofNat number)) (first :: rest)
    cases taken : takeFitting limit (fixedLen header dsLen true (UInt16.ofNat number)) (first :: rest) with
    | mk segment remaining =>
    rw [taken] at whole fits full
    rw [encodeSegments_succ taken, subSeqNum_eq_last small]
    dsimp only at whole fits full
    have noRoom (next : IncludedMember) (later : List IncludedMember) (left : remaining = next :: later) :
        ¬ SegmentFits header dsLen limit number (segment ++ [next]) := by
      rw [segmentFits_iff]
      exact Nat.not_le.mpr (full next later left)
    cases segment with
    | nil =>
      have stuck : ∀ reason, SplitOutcome header dsLen limit number (first :: rest) (.error reason) :=
        fun _ => ⟨[], first, rest, .start _ _, .inl ⟨small, noRoom first rest whole⟩⟩
      rw [if_pos isEmpty_nil]
      split
      · exact stuck _
      · exact stuck _
    | cons head tail =>
      have holds : SegmentFits header dsLen limit number (head :: tail) :=
        segmentFits_iff.mpr (fits (cons_ne_nil head tail))
      rw [if_neg (by simp)]
      cases remaining with
      | nil =>
        rw [append_nil] at whole
        have done : encodeSegments header dsLen limit unsegmented passes (UInt16.ofNat number + 1) [] = .ok [] := by
          cases passes <;> rfl
        rw [if_neg (by simp), done, ← whole]
        refine ⟨[], head :: tail, .start _ _, holds, small, ?_⟩
        rw [nil_append, renderFrom_cons]
        rfl
      | cons next later =>
        have shorter : (next :: later).length ≤ passes := by
          have lengths := congrArg length whole
          simp only [length_cons, length_append] at lengths enough ⊢
          omega
        rw [← whole]
        by_cases last : number = 65535
        · rw [if_pos (by simp [last])]
          refine ⟨[head :: tail], next, later, ?_, .inr (by rw [last]; rfl)⟩
          exact .next (cons_ne_nil head tail) holds (noRoom next later rfl) (.start _ _)
        · have smaller : number + 1 ≤ 65535 := Nat.succ_le_of_lt (Nat.lt_of_le_of_ne small last)
          have outcome := ih shorter (cons_ne_nil next later) smaller
          rw [if_neg (by simp [last])]
          rw [UInt16.ofNat_add] at outcome
          exact .cons (cons_ne_nil head tail) holds (noRoom next later rfl) outcome

end

/-- Greedy splitting meets a segment that cannot hold its header and its first member, or needs more
than 65536 segments. -/
def SplittingFails (header : ReportHeader) (dsLen limit : Nat) (members : List IncludedMember) : Prop :=
  (∃ bins rest, Fills (SegmentFits header dsLen limit) 0 members bins rest ∧ bins.length ≤ 65535 ∧
    ¬ SegmentFits header dsLen limit bins.length (rest.take 1)) ∨
  ∃ bins rest, Fills (SegmentFits header dsLen limit) 0 members bins rest ∧ bins.length = 65536

/-- How a report is cut into PDUs. The segmentation fields are present if there are several
segments, or if the option fields ask for them. -/
structure ReportSegments (header : ReportHeader) (dsLen limit : Nat) (members : List IncludedMember)
    (segments : List (List IncludedMember)) (pdus : List Bytes) : Prop where
  encoded : pdus = segments.zipIdx.map fun (segment, number) =>
    reportPdu header (1 < segments.length) number (number + 1 < segments.length) dsLen segment
  numbered : segments.length ≤ 65536
  bounded : ∀ pdu ∈ pdus, pdu.length ≤ limit
  complete : segments.flatten = members
  once : (members.map IncludedMember.index).Nodup
  inside : ∀ member ∈ members, member.index < dsLen
  maximal : ∀ number segment first later, segments[number]? = some segment →
    segments[number + 1]? = some (first :: later) →
    limit < (reportPdu header true number true dsLen (segment ++ [first])).length
  occupied : 1 < segments.length → ∀ segment ∈ segments, segment ≠ []

theorem includedMembers_index (header : ReportHeader) (live : LiveValues) (dataset : Dataset)
    (pending : PendingReport) :
    ((includedMembers header live dataset pending).map IncludedMember.index).Nodup ∧
      ∀ member ∈ includedMembers header live dataset pending, member.index < dataset.len := by
  constructor
  · simp only [includedMembers, map_map, Function.comp_def, map_id']
    exact nodup_range.filter _
  · intro member included
    obtain ⟨index, listed, rfl⟩ := mem_map.mp included
    exact mem_range.mp (mem_of_mem_filter listed)

theorem marked_of_lt {dsLen : Nat} {segment : List IncludedMember} (inside : ∀ member ∈ segment, member.index < dsLen)
    (index : Nat) : bitAt (inclusionBitmap (segment.map IncludedMember.index) dsLen) index =
      decide (index ∈ segment.map IncludedMember.index) := by
  rw [bitAt_inclusionBitmap]
  refine decide_eq_decide.mpr (and_iff_left_of_imp ?_)
  intro marked
  obtain ⟨member, present, rfl⟩ := mem_map.mp marked
  exact inside member present

section

variable {header : ReportHeader} {dsLen limit : Nat} {members : List IncludedMember}

theorem fits_whole_of_segmentFits (fits : SegmentFits header dsLen limit 0 members) :
    (reportPdu header false 0 false dsLen members).length ≤ limit := by
  have shorter := segmentationLen_le header
  rw [segmentFits_iff] at fits
  rw [← reportPdu_whole, length_encodePdu]
  refine Nat.le_trans (pduLen_mono ?_) fits
  simp only [fixedLen, show UInt16.ofNat 0 = 0 from rfl]
  omega

theorem ReportSegments.whole (fits : (reportPdu header false 0 false dsLen members).length ≤ limit)
    (once : (members.map IncludedMember.index).Nodup) (inside : ∀ member ∈ members, member.index < dsLen) :
    ReportSegments header dsLen limit members [members] [reportPdu header false 0 false dsLen members] where
  encoded := rfl
  numbered := Nat.le_add_left 1 65535
  bounded := by
    intro pdu sent
    rw [mem_singleton] at sent
    exact sent ▸ fits
  complete := by simp
  once := once
  inside := inside
  maximal := by
    intro number segment first later _ next
    cases next
  occupied := fun several => absurd several (by simp)

variable {bins : List (List IncludedMember)} {last : List IncludedMember}

theorem ReportSegments.packed (large : limit < (reportPdu header false 0 false dsLen members).length)
    (nonempty : members ≠ []) (filled : Fills (SegmentFits header dsLen limit) 0 members bins last)
    (fits : SegmentFits header dsLen limit bins.length last) (small : bins.length ≤ 65535)
    (once : (members.map IncludedMember.index).Nodup) (inside : ∀ member ∈ members, member.index < dsLen) :
    ReportSegments header dsLen limit members (bins ++ [last]) (renderFrom header dsLen 0 (bins ++ [last])) := by
  have several : 1 < (bins ++ [last]).length := by
    cases bins with
    | nil =>
      cases filled
      exact absurd (fits_whole_of_segmentFits fits) (Nat.not_le.mpr large)
    | cons first rest => simp
  have segmented : decide (1 < (bins ++ [last]).length) = true := decide_eq_true several
  refine ⟨?_, by rw [length_append]; exact Nat.succ_le_succ small, ?_, filled.flatten, once, inside, ?_, ?_⟩
  · simp only [segmented, renderFrom, Nat.zero_add, encodePdu_eq_reportPdu]
  · intro pdu sent
    obtain ⟨⟨segment, number⟩, numbered, rfl⟩ := mem_map.mp sent
    have found := mem_zipIdx_iff_getElem?.mp numbered
    have sized := filled.holds (by simpa only [Nat.zero_add] using fits) found
    rw [segmentFits_iff, Nat.zero_add] at sized
    rw [length_encodePdu]
    exact sized
  · intro number segment first later found next
    have full := filled.maximal found next
    rw [Nat.zero_add] at full
    exact Nat.not_le.mp full
  · intro _ segment present
    rcases mem_append.mp present with bin | rest
    · exact filled.bins_ne_nil bin
    · rw [mem_singleton] at rest
      exact rest ▸ filled.rest_ne_nil nonempty

theorem not_splittingFails (nonempty : members ≠ [])
    (filled : Fills (SegmentFits header dsLen limit) 0 members bins last)
    (fits : SegmentFits header dsLen limit bins.length last) (small : bins.length ≤ 65535) :
    ¬ SplittingFails header dsLen limit members := by
  have ends {others : List (List IncludedMember)} {rest : List IncludedMember}
      (other : Fills (SegmentFits header dsLen limit) 0 members others rest) :
      SegmentFits header dsLen limit others.length (rest.take 1) ∧ others.length ≤ bins.length := by
    obtain ⟨first, later, rfl⟩ := exists_cons_of_ne_nil (other.rest_ne_nil nonempty)
    have compared := filled.ends segmentFits_closed (by simpa only [Nat.zero_add] using fits) other
    rw [Nat.zero_add] at compared
    exact compared
  rintro (⟨others, rest, other, _, stuck⟩ | ⟨others, rest, other, many⟩)
  · exact stuck (ends other).1
  · have fewer := (ends other).2
    omega

end

section

variable {header : ReportHeader} {live : LiveValues} {dataset : Dataset} {pending : PendingReport}
  {maxPduSizeBytes : Nat}

theorem encodePdus_eq : encodePdus header live dataset pending maxPduSizeBytes =
    let members := includedMembers header live dataset pending
    let whole := reportPdu header false 0 false dataset.len members
    let limit := min maxPduSizeBytes maxReportPduBytes
    if whole.length ≤ limit then .ok [whole]
    else if members.isEmpty then .error (.pduTooSmall whole.length limit)
    else encodeSegments header dataset.len limit whole.length members.length 0 members := by
  have size : pduLen (header.encodedLen + inclusionTlvLen dataset.len + header.segmentationLen false 0 +
      ((includedMembers header live dataset pending).map (·.encodedLen)).sum) =
      (reportPdu header false 0 false dataset.len (includedMembers header live dataset pending)).length := by
    rw [← reportPdu_whole]
    exact (length_encodePdu _ _ _ _ _ _).symm
  unfold encodePdus
  dsimp only
  rw [size, reportPdu_whole]

theorem encodePdus_segments {pdus : List Bytes}
    (encoded : encodePdus header live dataset pending maxPduSizeBytes = .ok pdus) :
    ∃ segments, ReportSegments header dataset.len (min maxPduSizeBytes maxReportPduBytes)
      (includedMembers header live dataset pending) segments pdus := by
  obtain ⟨once, inside⟩ := includedMembers_index header live dataset pending
  rw [encodePdus_eq] at encoded
  dsimp only at encoded
  generalize includedMembers header live dataset pending = members at once inside encoded ⊢
  generalize min maxPduSizeBytes maxReportPduBytes = limit at encoded ⊢
  by_cases fits : (reportPdu header false 0 false dataset.len members).length ≤ limit
  · rw [if_pos fits] at encoded
    cases encoded
    exact ⟨[members], .whole fits once inside⟩
  · rw [if_neg fits] at encoded
    cases empty : members.isEmpty with
    | true =>
      rw [empty] at encoded
      cases encoded
    | false =>
      have nonempty : members ≠ [] := by simpa using empty
      rw [empty, if_neg Bool.false_ne_true] at encoded
      have outcome : SplitOutcome header dataset.len limit 0 members (encodeSegments header dataset.len limit
          (reportPdu header false 0 false dataset.len members).length members.length 0 members) :=
        encodeSegments_spec (Nat.le_refl members.length) nonempty (Nat.zero_le 65535)
      rw [encoded] at outcome
      obtain ⟨bins, last, filled, room, small, rfl⟩ := outcome
      simp only [Nat.zero_add] at room small
      exact ⟨bins ++ [last], .packed (Nat.not_le.mp fits) nonempty filled room small once inside⟩

end

/-- The splitter fails exactly when greedy splitting does, and otherwise cuts the report into
maximal segments, whose PDUs state the members of the report with their own values, references and
reasons. -/
theorem encodePdus_splits_exactly (header : ReportHeader) (live : LiveValues) (dataset : Dataset)
    (pending : PendingReport) (maxPduSizeBytes : Nat) :
    let limit := min maxPduSizeBytes 65535
    let members := (reportedMembers dataset pending).map (reportedMember header live dataset pending)
    ((∃ error, encodePdus header live dataset pending maxPduSizeBytes = .error error) ↔
      limit < (reportPdu header false 0 false dataset.len members).length ∧
        SplittingFails header dataset.len limit members) ∧
    ∀ pdus, encodePdus header live dataset pending maxPduSizeBytes = .ok pdus →
      ∃ segments, ReportSegments header dataset.len limit members segments pdus := by
  refine ⟨?_, fun pdus encoded => encodePdus_segments encoded⟩
  rw [encodePdus_eq, ← includedMembers_eq, show (65535 : Nat) = maxReportPduBytes from rfl]
  dsimp only
  generalize includedMembers header live dataset pending = members
  generalize min maxPduSizeBytes maxReportPduBytes = limit
  by_cases fits : (reportPdu header false 0 false dataset.len members).length ≤ limit
  · rw [if_pos fits]
    refine ⟨?_, fun fails => absurd fails.1 (Nat.not_lt.mpr fits)⟩
    rintro ⟨error, failed⟩
    cases failed
  · have large := Nat.not_le.mp fits
    rw [if_neg fits]
    by_cases empty : members = []
    · subst empty
      have stuck : ¬ SegmentFits header dataset.len limit 0 [] := fun room => fits (fits_whole_of_segmentFits room)
      exact ⟨fun _ => ⟨large, .inl ⟨[], [], .start _ _, Nat.zero_le _, stuck⟩⟩, fun _ => ⟨_, rfl⟩⟩
    · rw [if_neg (by simpa using empty)]
      have outcome : SplitOutcome header dataset.len limit 0 members (encodeSegments header dataset.len limit
          (reportPdu header false 0 false dataset.len members).length members.length 0 members) :=
        encodeSegments_spec (Nat.le_refl members.length) empty (Nat.zero_le 65535)
      cases split : encodeSegments header dataset.len limit
          (reportPdu header false 0 false dataset.len members).length members.length 0 members with
      | ok pdus =>
        rw [split] at outcome
        obtain ⟨bins, last, filled, room, small, rfl⟩ := outcome
        simp only [Nat.zero_add] at room small
        refine ⟨?_, fun fails => absurd fails.2 (not_splittingFails empty filled room small)⟩
        rintro ⟨error, failed⟩
        cases failed
      | error reason =>
        rw [split] at outcome
        obtain ⟨bins, first, later, filled, stuck⟩ := outcome
        simp only [Nat.zero_add] at stuck
        refine ⟨fun _ => ⟨large, ?_⟩, fun _ => ⟨reason, rfl⟩⟩
        rcases stuck with ⟨small, blocked⟩ | many
        · exact .inl ⟨bins, first :: later, filled, small, blocked⟩
        · exact .inr ⟨bins, first :: later, filled, many⟩

end Iec61850.Reporting
