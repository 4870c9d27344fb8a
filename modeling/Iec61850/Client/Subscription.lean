import Iec61850.Client.ReportView

/-!
A report from the server's encoder to the subscriber's view: what the client reads in its PDUs, and
what it shows after each of them.
-/

namespace Iec61850.Client.Report

open List Mms Model Reporting
open Reporting (OptFlds ReportHeader IncludedMember)
open Client (mmsDataToMmsValue carriedMs)

def SentAs (header : ReportHeader) (segmented : Bool) (dsLen : Nat) (report : ParsedReport)
    (segment : List IncludedMember) :
    Prop :=
  ∃ subSeqNum moreFollows, report = sentReport header segmented subSeqNum moreFollows dsLen segment

theorem sentAs_zipIdx (header : ReportHeader) (dsLen total : Nat)
    (segments : List (List IncludedMember)) (start : Nat) :
    List.Forall₂ (SentAs header (1 < total) dsLen)
      ((segments.zipIdx start).map fun (segment, number) =>
        sentReport header (1 < total) (UInt16.ofNat number) (number + 1 < total) dsLen segment) segments := by
  induction segments generalizing start with
  | nil => exact .nil
  | cons segment rest ih => exact .cons ⟨_, _, rfl⟩ (ih (start + 1))

theorem applyReports_segments {header : ReportHeader} {segmented : Bool} {dsLen : Nat} {reports : List ParsedReport}
    {segments : List (List IncludedMember)} (sent : List.Forall₂ (SentAs header segmented dsLen) reports segments)
    (sendable : ∀ segment ∈ segments, Sendable header dsLen segment)
    (named : header.optFlds.contains .dataSet = true → stringLen header.datSet ≤ 128) {view : ClientReport}
    {seen latest : List IncludedMember} (before : Before header dsLen view seen)
    (fresh : ((seen ++ segments.flatten).map (·.index)).Nodup) (last : segments.getLast? = some latest) :
    ∃ next, applyReports view reports = .ok next ∧ View header dsLen next (seen ++ segments.flatten) latest := by
  induction sent generalizing view seen with
  | nil => cases last
  | @cons report segment reports segments first others ih =>
    obtain ⟨subSeqNum, moreFollows, rfl⟩ := first
    rw [flatten_cons, ← append_assoc] at fresh ⊢
    have apart : ((seen ++ segment).map (·.index)).Nodup := by
      rw [map_append] at fresh
      exact (nodup_append.mp fresh).1
    obtain ⟨middle, applied, shows⟩ := applyReport_segment before (sendable segment mem_cons_self) apart named
    have unfolded : applyReports view (sentReport header segmented subSeqNum moreFollows dsLen segment :: reports) =
        applyReports middle reports := by
      rw [applyReports, applied, bind_ok]
    rw [unfolded]
    cases others with
    | nil =>
      cases last
      exact ⟨middle, rfl, by rwa [flatten_nil, append_nil]⟩
    | cons second others =>
      rw [getLast?_cons_cons] at last
      exact ih (fun other listed => sendable other (mem_cons_of_mem _ listed)) (.shown shows) fresh last

/-! The members a report is about, as the server knows them. -/

section

variable (header : ReportHeader) (live : LiveValues) (dataset : Dataset) (pending : PendingReport)

variable (fields flag : OptFlds) (index : Nat)

def reportedReason : ReasonForInclusion where
  dataChange := (inclusionFlag pending index).contains .valueChanged
  qualityChange := (inclusionFlag pending index).contains .qualityChanged
  dataUpdate := (inclusionFlag pending index).contains .valueUpdate
  integrity := pending.isIntegrity
  gi := pending.isGi

def ValuesReadable : Prop :=
  ∀ index ∈ reportedMembers dataset pending, ∀ value ∈ reportedValue live dataset pending index,
    Readable (mmsValueToMmsData value)

variable {header live dataset pending}

theorem reasonMeant_reported :
    reasonMeant ((inclusionFlag pending index).toReasonBitString pending.isIntegrity pending.isGi) =
      reportedReason pending index := by
  have meant (change quality update integrity interrogation : Bool) :
      ReasonForInclusion.fromReasonByte ((if change then 0x40 else 0) ||| (if quality then 0x20 else 0) |||
        (if update then 0x10 else 0) ||| (if integrity then 0x08 else 0) ||| (if interrogation then 0x04 else 0)) =
      ⟨change, quality, update, integrity, interrogation⟩ := by
    revert change quality update integrity interrogation
    decide +kernel
  exact meant _ _ _ _ _

theorem sentValue_reportedMember : sentValue (reportedMember header live dataset pending index) =
      (reportedValue live dataset pending index).getD (.struct []) := by
  unfold sentValue reportedMember
  cases reportedValue live dataset pending index with
  | none => rfl
  | some value => exact mmsDataToMmsValue_of_value value

theorem sentReason_reportedMember : sentReason (reportedMember header live dataset pending index) =
      if header.optFlds.contains .reason then some (reportedReason pending index) else none := by
  unfold sentReason reportedMember
  cases header.optFlds.contains .reason with
  | false => rfl
  | true => exact congrArg some (reasonMeant_reported index)

theorem sendable_reportedMembers (values : ValuesReadable live dataset pending) :
    Sendable header dataset.len
      ((reportedMembers dataset pending).map (reportedMember header live dataset pending)) where
  ordered := by
    rw [map_map]
    exact (map_id (reportedMembers dataset pending)).symm ▸ filter_sublist
  references := by
    intro member present
    obtain ⟨index, listed, rfl⟩ := mem_map.mp present
    have inside : index < dataset.entries.length := mem_range.mp (mem_of_mem_filter listed)
    unfold reportedMember Dataset.entry
    cases header.optFlds.contains .dataReference with
    | false => rfl
    | true => simp [inside]
  reasons := by
    intro member present
    obtain ⟨index, listed, rfl⟩ := mem_map.mp present
    unfold reportedMember
    cases header.optFlds.contains .reason <;> rfl
  padded := by
    intro member present reason given
    obtain ⟨index, listed, rfl⟩ := mem_map.mp present
    unfold reportedMember at given
    cases flagged : header.optFlds.contains .reason with
    | false => simp [flagged] at given
    | true =>
      simp only [flagged, if_true, Option.mem_some] at given
      rw [← given]
      rfl
  values := by
    intro member present data given
    obtain ⟨index, listed, rfl⟩ := mem_map.mp present
    obtain ⟨value, held, rfl⟩ := Option.map_eq_some_iff.mp given
    exact values index listed value held

theorem Sendable.sublist {dsLen : Nat} {members part : List IncludedMember} (sendable : Sendable header dsLen members)
    (sub : part.Sublist members) : Sendable header dsLen part where
  ordered := (sub.map _).trans sendable.ordered
  references := fun member present => sendable.references member (sub.subset present)
  reasons := fun member present => sendable.reasons member (sub.subset present)
  padded := fun member present => sendable.padded member (sub.subset present)
  values := fun member present => sendable.values member (sub.subset present)

structure Carries (header : ReportHeader) (total number : Nat) (report : ParsedReport) : Prop where
  rptId : report.rptId = header.rptId
  seqNum : report.seqNum.map UInt16.toNat = if header.optFlds.contains .seqNum then some header.sqNum.toNat else none
  timestampMs : report.timestampMs.map UInt64.toNat =
    if header.optFlds.contains .timeStamp then
      some (min (max header.timeOfEntryMs.toNat epoch1984Ms) maxBinaryTime6Ms) else none
  dataSetName : report.dataSetName = if header.optFlds.contains .dataSet then some header.datSet else none
  bufOvfl : report.bufOvfl = if header.optFlds.contains .bufferOverflow then some header.bufOvfl else none
  entryId : report.entryId = if header.optFlds.contains .entryId then some header.entryId.toBytes else none
  confRev : report.confRev = if header.optFlds.contains .confRev then some header.confRev else none
  segmentation : (report.segmentation.map fun s => (s.subSeqNum.toNat, s.moreSegmentsFollow)) =
    if 1 < total ∨ header.optFlds.contains .segmentation then some (number, decide (number + 1 < total)) else none

/-- A view that shows the members in `seen` as the server reported them, with the reasons of the
`latest` ones. -/
structure Shows (header : ReportHeader) (live : LiveValues) (dataset : Dataset) (pending : PendingReport)
    (seen latest : List Nat) (view : ClientReport) : Prop where
  values : view.dataSetValues = table dataset.len fun index =>
    if index ∈ seen then some ((reportedValue live dataset pending index).getD (.struct [])) else none
  references : view.dataReferences = table dataset.len fun index =>
    if index ∈ seen ∧ header.optFlds.contains .dataReference then (dataset.entry index).map (·.attrRef) else none
  reasons : view.reasons = table dataset.len fun index =>
    if index ∈ latest ∧ header.optFlds.contains .reason then reportedReason pending index else .empty
  included : view.included = table dataset.len fun index => decide (index ∈ latest)

theorem carries_sentReport {total number dsLen : Nat} {members : List IncludedMember}
    (counter : header.sqNum.toNat < 65536) (inside : number < total) (bounded : total ≤ 65536) :
    Carries header total number
      (sentReport header (1 < total) (UInt16.ofNat number) (number + 1 < total) dsLen members) := by
  have announced (flag : OptFlds) (other : OptFlds.segmentation.bits &&& flag.bits = 0) :
      (header.optFldsOf (1 < total)).contains flag = header.optFlds.contains flag := contains_optFldsOf other
  have segmented : (header.optFldsOf (1 < total)).contains .segmentation =
      decide (1 < total ∨ header.optFlds.contains .segmentation = true) := by
    unfold ReportHeader.optFldsOf
    by_cases several : 1 < total
    · simp [several, OptFlds.contains_union_self]
    · simp [several]
  refine ⟨rfl, ?_, ?_, ?_, ?_, ?_, ?_, ?_⟩
  · simp only [sentReport, announced .seqNum (by decide), map_if_some, UInt64.toNat_toUInt16, Nat.mod_eq_of_lt counter]
  · simp only [sentReport, announced .timeStamp (by decide), map_if_some, carriedMs_toNat]
  · simp only [sentReport, announced .dataSet (by decide)]
  · simp only [sentReport, announced .bufferOverflow (by decide)]
  · simp only [sentReport, announced .entryId (by decide)]
  · simp only [sentReport, announced .confRev (by decide)]
  · simp only [sentReport, segmented, decide_eq_true_eq]
    split
    · rw [Option.map_some, toNat_subSeqNum (by omega)]
    · rfl

theorem memberAt_reported {members : List Nat} :
    memberAt (members.map (reportedMember header live dataset pending)) index =
      if index ∈ members then some (reportedMember header live dataset pending index) else none := by
  induction members with
  | nil => rfl
  | cons first rest ih =>
    by_cases same : first = index
    · subst same
      simp [memberAt, reportedMember]
    have skipped : memberAt ((first :: rest).map (reportedMember header live dataset pending)) index =
        memberAt (rest.map (reportedMember header live dataset pending)) index :=
      find?_cons_of_neg (by simp [reportedMember, same])
    have other : ¬ index = first := fun equal => same equal.symm
    rw [skipped, ih]
    simp [other]

theorem View.shows {seen latest : List Nat} {view : ClientReport}
    (shown : View header dataset.len view (seen.map (reportedMember header live dataset pending)) (latest.map
      (reportedMember header live dataset pending))) :
    Shows header live dataset pending seen latest view := by
  refine ⟨?_, ?_, ?_, ?_⟩
  · rw [shown.stored.values]
    congr 1
    funext index
    rw [memberAt_reported]
    by_cases sent : index ∈ seen
    · rw [if_pos sent, if_pos sent, Option.map_some, sentValue_reportedMember]
    · rw [if_neg sent, if_neg sent, Option.map_none]
  · rw [shown.stored.references]
    congr 1
    funext index
    rw [memberAt_reported]
    by_cases sent : index ∈ seen
    · simp [sent, reportedMember]
    · simp [sent]
  · rw [shown.stored.reasons]
    congr 1
    funext index
    rw [memberAt_reported]
    by_cases sent : index ∈ latest
    · rw [if_pos sent, Option.bind_some, sentReason_reportedMember]
      cases header.optFlds.contains .reason <;> simp [sent]
    · simp [sent]
  · rw [shown.included, inclusionBits, map_map]
    congr 1
    funext index
    simp [reportedMember]

end

/-- Every PDU of a report is read back field by field, the PDUs cover the reported members, and
after each of them a fresh view shows the members sent so far, with the reasons of the latest ones
only. -/
def Understood (header : ReportHeader) (live : LiveValues) (dataset : Dataset) (pending : PendingReport)
    (pdus : List Reporting.Bytes) (fresh : ClientReport) : Prop :=
  ∃ (segments : List (List Nat)) (reports : List ParsedReport),
    segments.flatten = reportedMembers dataset pending ∧ segments.length = pdus.length ∧
    (pdus.map fun pdu => (unconfirmedInner pdu).map decodeReport) = reports.map (fun report => some (.ok report)) ∧
    (∀ number report, reports[number]? = some report → Carries header pdus.length number report) ∧
    ∀ number latest, segments[number]? = some latest →
      ∃ view, applyReports fresh (reports.take (number + 1)) = .ok view ∧
        Shows header live dataset pending (segments.take (number + 1)).flatten latest view

/-- What the server encodes is understood by a new subscriber. The sequence number of a control
block has at most 16 bits. -/
theorem report_understood (header : ReportHeader) (live : LiveValues) (dataset : Dataset) (pending : PendingReport)
    (maxPduSizeBytes : Nat) (pdus : List Reporting.Bytes) (rcbReference : String) (rptId : Option String)
    (encoded : encodePdus header live dataset pending maxPduSizeBytes = .ok pdus) (counter : header.sqNum.toNat < 65536)
    (named : header.optFlds.contains .dataSet = true → stringLen header.datSet ≤ 128)
    (values : ValuesReadable live dataset pending) :
    Understood header live dataset pending pdus (.new rcbReference rptId) := by
  obtain ⟨segments, split⟩ := encodePdus_segments encoded
  have complete := split.complete
  rw [includedMembers_eq] at complete
  have sendable : ∀ segment ∈ segments, Sendable header dataset.len segment := by
    intro segment listed
    refine (sendable_reportedMembers values).sublist ?_
    rw [← complete]
    exact sublist_flatten_of_mem listed
  have described {members : List IncludedMember} (sub : members.Sublist segments.flatten) :
      (members.map (·.index)).map (reportedMember header live dataset pending) = members := by
    rw [map_map]
    refine (map_congr_left ?_).trans (map_id members)
    intro member held
    have sent := sub.subset held
    rw [complete] at sent
    obtain ⟨index, _, rfl⟩ := mem_map.mp sent
    rfl
  have length : segments.length = pdus.length := by rw [split.encoded, length_map, length_zipIdx]
  let reports := segments.zipIdx.map fun (segment, number) =>
    sentReport header (1 < segments.length) (UInt16.ofNat number) (number + 1 < segments.length) dataset.len segment
  refine ⟨segments.map fun segment => segment.map (·.index), reports, ?_, ?_, ?_, ?_, ?_⟩
  · rw [← map_flatten, complete, map_map]
    exact map_id _
  · rw [length_map, length]
  · have sized := split.bounded
    rw [split.encoded] at sized ⊢
    simp only [← encodePdu_eq_reportPdu] at sized ⊢
    rw [map_map, map_map]
    refine map_congr_left ?_
    rintro ⟨segment, number⟩ numbered
    have short := Nat.le_trans (sized _ (mem_map_of_mem numbered)) (Nat.min_le_right _ _)
    dsimp only [Function.comp_apply] at short ⊢
    exact decodeReport_pdu (sendable segment (fst_mem_of_mem_zipIdx numbered)) short
  · intro number report found
    rw [getElem?_map, getElem?_zipIdx] at found
    cases segment : segments[number]? with
    | none => simp [segment] at found
    | some segment' =>
      simp only [segment, Option.map_some, Option.some.injEq, Nat.zero_add] at found
      rw [← found, ← length]
      obtain ⟨inside, _⟩ := List.getElem?_eq_some_iff.mp segment
      exact carries_sentReport counter inside split.numbered
  · intro number latest found
    rw [getElem?_map] at found
    obtain ⟨segment, listed, rfl⟩ := Option.map_eq_some_iff.mp found
    have front : segments.take (number + 1) = segments.take number ++ [segment] := by
      rw [take_add_one, listed, Option.toList_some]
    have sub : (segments.take (number + 1)).flatten.Sublist segments.flatten := by
      conv_rhs => rw [← take_append_drop (number + 1) segments, flatten_append]
      exact sublist_append_left _ _
    have once := split.once
    rw [← split.complete] at once
    have sent := forall₂_take (number + 1) (sentAs_zipIdx header dataset.len segments.length segments 0)
    obtain ⟨view, applied, shown⟩ := applyReports_segments sent
      (fun other held => sendable other (mem_of_mem_take held)) named (.fresh rcbReference rptId)
      (once.sublist (sub.map _)) (by rw [front, getLast?_concat])
    refine ⟨view, applied, View.shows ?_⟩
    rw [← map_take, ← map_flatten, described sub,
      described (sublist_flatten_of_mem (mem_of_getElem? listed))]
    exact shown

def splitHeader : ReportHeader where
  rptId := "r"
  optFlds := .reason
  sqNum := 0
  timeOfEntryMs := 0
  datSet := "d"
  confRev := 1
  bufOvfl := false
  entryId := .zero

def splitDataset : Dataset where
  name := "d"
  entries := [⟨"a", .leaf ⟨"a", 0⟩⟩, ⟨"b", .leaf ⟨"b", 1⟩⟩]

def splitPending : PendingReport where
  inclusionFlags := [.valueChanged, .valueChanged]
  snapshot := [some (.boolean true), some (.boolean false)]
  isIntegrity := false
  isGi := false
  timeOfEntryMs := 0

theorem split_understood :
    ∃ pdus, encodePdus splitHeader (fun _ => none) splitDataset splitPending 38 = .ok pdus ∧ pdus.length = 2 ∧
      Understood splitHeader (fun _ => none) splitDataset splitPending pdus (.new "c" none) := by
  have two : (encodePdus splitHeader (fun _ => none) splitDataset splitPending 38).toOption.map length = some 2 := by
    decide +kernel
  cases encoded : encodePdus splitHeader (fun _ => none) splitDataset splitPending 38 with
  | error reason => simp [encoded, Except.toOption] at two
  | ok pdus =>
    simp only [encoded, Except.toOption, Option.map_some, Option.some.injEq] at two
    refine ⟨pdus, rfl, two, report_understood _ _ _ _ 38 pdus "c" none encoded (by decide) (by decide) ?_⟩
    intro index listed value held
    have inside : index = 0 ∨ index = 1 := by
      have bound : index < 2 := mem_range.mp (mem_of_mem_filter listed)
      omega
    obtain rfl | rfl := inside
    · cases held
      exact readable_flat trivial rfl
    · cases held
      exact readable_flat trivial rfl

def receiveAll (view : ClientReport) (pdus : List Reporting.Bytes) : Option ClientReport := do
  let reports ← pdus.mapM fun pdu => (unconfirmedInner pdu).bind fun inner => (decodeReport inner).toOption
  (applyReports view reports).toOption

/-- The server encodes the report, and no view comes of it. -/
def encodedInVain (header : ReportHeader) (pending : PendingReport) : Bool :=
  (encodePdus header (fun _ => none) splitDataset pending 400).toOption.any fun pdus =>
    (receiveAll (.new "c" none) pdus).isNone

/-- Once the second segment is applied, the reason of the first one's member is gone. A data set
reference of 129 octets is not applied, and a bit string with eight unused bits not decoded. -/
theorem split_reason_cleared :
    ((encodePdus splitHeader (fun _ => none) splitDataset splitPending 38).toOption.bind
      (receiveAll (.new "c" none))).map (fun view => view.reasons[0]?) = some (some .empty) ∧
      0 ∈ reportedMembers splitDataset splitPending ∧ splitHeader.optFlds.contains .reason = true ∧
      reportedReason splitPending 0 ≠ .empty ∧
      encodedInVain { splitHeader with optFlds := .dataSet, datSet := .ofList (replicate 129 'd') }
        splitPending = true ∧
      encodedInVain splitHeader
        { splitPending with snapshot := [some (.bitString 8 [0]), none] } = true := by
  decide +kernel

end Iec61850.Client.Report
