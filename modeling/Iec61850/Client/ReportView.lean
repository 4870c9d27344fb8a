import Iec61850.Client.ReportParsing

/-!
The segments of a report applied one after the other: the subscriber's view shows every member it
has been sent.
-/

namespace Iec61850.Client.Report

open List Mms Model Reporting
open Reporting (OptFlds ReportHeader IncludedMember includedMembers)
open Client (mmsDataToMmsValue)

def table {α : Type} (dsLen : Nat) (entry : Nat → α) : List α := (range dsLen).map entry

variable {α : Type} {dsLen index : Nat} {β : Type} {members : List IncludedMember} {member : IncludedMember}
  {seen : List IncludedMember} {view : ClientReport} {latest segment : List IncludedMember} {header : ReportHeader}
  {segmented : Bool} {subSeqNum : UInt16} {moreFollows : Bool}

theorem set_table (entry : Nat → α) (value : α) :
    (table dsLen entry).set index value = table dsLen (Function.update entry index value) := by
  apply ext_getElem?
  intro position
  rw [getElem?_set, table, table, getElem?_map, getElem?_map, length_map, length_range]
  by_cases inside : position < dsLen
  · rw [getElem?_range inside]
    by_cases same : index = position
    · subst same
      simp [inside]
    · simp [same, Function.update_of_ne (Ne.symm same)]
  · have past : (range dsLen)[position]? = none := by simpa using inside
    rw [past]
    split
    · rename_i same
      subst same
      simp [inside]
    · rfl

theorem map_table (entry : Nat → α) (change : α → β) :
    (table dsLen entry).map change = table dsLen fun index => change (entry index) := by
  simp [table]

theorem replicate_eq_table (dsLen : Nat) (value : α) : replicate dsLen value = table dsLen fun _ => value := by
  simp [table]

def memberAt (members : List IncludedMember) (index : Nat) : Option IncludedMember :=
  members.find? fun member => member.index = index

def sentValue (member : IncludedMember) : MmsValue := mmsDataToMmsValue (member.value.getD (.struct []))

def sentReason (member : IncludedMember) : Option ReasonForInclusion :=
  member.reason.map reasonMeant

def carried (member : IncludedMember) : CarriedMember :=
  ⟨member.index, sentValue member, sentReason member, member.reference⟩

theorem memberAt_eq_none (absent : index ∉ members.map (·.index)) : memberAt members index = none := by
  rw [memberAt, find?_eq_none]
  intro other present same
  rw [← decide_eq_true_iff.mp same] at absent
  exact absent (mem_map_of_mem present)

theorem memberAt_append_singleton (fresh : member.index ∉ members.map (·.index)) (index : Nat) :
    memberAt (members ++ [member]) index = Function.update (memberAt members) member.index (some member) index := by
  have joined : memberAt (members ++ [member]) index = (memberAt members index).or (memberAt [member] index) :=
    find?_append
  rw [joined]
  by_cases same : index = member.index
  · subst same
    rw [memberAt_eq_none fresh, Function.update_self]
    simp [memberAt]
  · have other : memberAt [member] index = none := memberAt_eq_none (by simpa using same)
    rw [other, Option.or_none, Function.update_of_ne same]

/-- The lists of a view that has been sent the members of `seen`, the latest of them by its latest
report. -/
structure Stored (view : ClientReport) (dsLen : Nat) (seen latest : List IncludedMember) : Prop where
  values : view.dataSetValues = table dsLen fun index => (memberAt seen index).map sentValue
  references : view.dataReferences = table dsLen fun index => (memberAt seen index).bind (·.reference)
  reasons : view.reasons = table dsLen fun index => ((memberAt latest index).bind sentReason).getD .empty

theorem update_comp (seen : Nat → Option IncludedMember) (index : Nat) (member : IncludedMember)
    (shown : Option IncludedMember → α) : (fun position => shown (Function.update seen index (some member) position)) =
      Function.update (fun position => shown (seen position)) index (shown (some member)) := by
  funext position
  by_cases same : position = index
  · subst same
    simp
  · simp [Function.update_of_ne same]

theorem update_same {entry : Nat → α} {value : α} (same : entry index = value) :
    Function.update entry index value = entry := by
  rw [← same, Function.update_eq_self]

theorem Stored.store (stored : Stored view dsLen seen latest) (fresh : member.index ∉ seen.map (·.index))
    (later : member.index ∉ latest.map (·.index)) :
    Stored (view.store (carried member)) dsLen (seen ++ [member]) (latest ++ [member]) := by
  have unseen : memberAt seen member.index = none := memberAt_eq_none fresh
  have unreasoned : memberAt latest member.index = none := memberAt_eq_none later
  refine ⟨?_, ?_, ?_⟩
  · simp only [memberAt_append_singleton fresh]
    rw [update_comp (memberAt seen) member.index member fun shown => shown.map sentValue, ← set_table, ← stored.values]
    rfl
  · simp only [memberAt_append_singleton fresh]
    rw [update_comp (memberAt seen) member.index member fun shown => shown.bind (·.reference)]
    unfold ClientReport.store carried
    cases reference : member.reference with
    | none =>
      rw [Option.bind_some, reference, update_same (by rw [unseen]; rfl)]
      exact stored.references
    | some text =>
      rw [Option.bind_some, reference, ← set_table, ← stored.references]
      rfl
  · simp only [memberAt_append_singleton later]
    rw [update_comp (memberAt latest) member.index member fun shown => (shown.bind sentReason).getD .empty]
    unfold ClientReport.store carried
    cases reason : sentReason member with
    | none =>
      rw [Option.bind_some, reason, update_same (by rw [unreasoned]; rfl)]
      exact stored.reasons
    | some given =>
      rw [Option.bind_some, reason, ← set_table, ← stored.reasons]
      rfl

theorem Stored.storeAll (stored : Stored view dsLen seen latest) (fresh : ((seen ++ segment).map (·.index)).Nodup)
    (later : latest ⊆ seen) :
    Stored ((segment.map carried).foldl ClientReport.store view) dsLen (seen ++ segment) (latest ++ segment) := by
  induction segment generalizing view seen latest with
  | nil => simpa using stored
  | cons member rest ih =>
    rw [append_cons] at fresh
    have apart : member.index ∉ seen.map (·.index) := by
      rw [map_append, map_append] at fresh
      have front := (nodup_append.mp (nodup_append.mp fresh).1).2.2
      exact fun known => front member.index known member.index mem_cons_self rfl
    have next := stored.store apart fun known => apart (map_subset _ later known)
    have whole := ih next fresh fun other known => by
      obtain before | last := mem_append.mp known
      · exact mem_append_left _ (later before)
      · exact mem_append_right _ last
    rwa [← append_cons, ← append_cons] at whole

theorem includedMembers_bits (ordered : (members.map (·.index)).Sublist (range dsLen)) :
    includedMembers (inclusionBits dsLen members) = members.map (·.index) := by
  unfold includedMembers
  rw [inclusionBits, length_map, length_range]
  refine Eq.trans (filter_congr ?_) (filter_mem_of_sublist ordered nodup_range)
  intro index inside
  rw [getElem?_map, getElem?_range (mem_range.mp inside)]
  rfl

theorem getElem?_filterMap {field : IncludedMember → Option β} {present : Bool}
    (each : ∀ member ∈ members, (field member).isSome = present) (k : Nat) :
    (members.filterMap field)[k]? = members[k]?.bind field := by
  cases present with
  | false =>
    rw [filterMap_eq_nil each, getElem?_nil]
    cases found : members[k]? with
    | none => rfl
    | some member =>
      have absent : (field member).isNone = true := by simpa using each member (mem_of_getElem? found)
      exact (Option.isNone_iff_eq_none.mp absent).symm
  | true =>
    induction members generalizing k with
    | nil => simp
    | cons member rest ih =>
      obtain ⟨content, given⟩ := Option.isSome_iff_exists.mp (each member mem_cons_self)
      rw [filterMap_cons_some given]
      cases k with
      | zero => simp [given]
      | succ k =>
        rw [getElem?_cons_succ, getElem?_cons_succ]
        exact ih k fun other listed => each other (mem_cons_of_mem _ listed)

theorem carriedMembers_sent (sendable : Sendable header dsLen members) :
    carriedMembers (sentReport header segmented subSeqNum moreFollows dsLen members) = members.map carried := by
  unfold carriedMembers sentReport
  dsimp only
  rw [includedMembers_bits sendable.ordered, zip_map', zipIdx_map, map_map]
  apply ext_getElem?
  intro k
  rw [getElem?_map, getElem?_zipIdx, getElem?_map]
  cases found : members[k]? with
  | none => rfl
  | some member =>
    have reference := getElem?_filterMap sendable.references k
    have reason := getElem?_filterMap sendable.reasons k
    rw [found, Option.bind_some] at reference reason
    simp only [Option.map_some, Function.comp_apply, Prod.map_apply, id_eq, Nat.zero_add,
      getElem?_map, reference, reason]
    rfl

structure View (header : ReportHeader) (dsLen : Nat) (view : ClientReport)
    (seen latest : List IncludedMember) : Prop where
  stored : Stored view dsLen seen latest
  size : view.datasetSize = some dsLen
  dataSet : view.membersDataSet = if header.optFlds.contains .dataSet then some header.datSet else none
  confRev : view.membersConfRev = if header.optFlds.contains .confRev then some header.confRev else none
  included : view.included = inclusionBits dsLen latest

inductive Before (header : ReportHeader) (dsLen : Nat) : ClientReport → List IncludedMember → Prop
  | fresh (rcbReference : String) (rptId : Option String) : Before header dsLen (.new rcbReference rptId) []
  | shown {view : ClientReport} {seen latest : List IncludedMember} (shows : View header dsLen view seen latest) :
      Before header dsLen view seen

theorem differs_self [DecidableEq α] (carried : Option α) : differs carried carried = false := by
  cases carried <;> simp [differs]

theorem orElse_self (carried : Option α) : (carried <|> carried) = carried := by
  cases carried <;> rfl

theorem orElse_none (carried : Option α) : (carried <|> none) = carried := by
  cases carried <;> rfl

theorem applyReport_ok {state : ClientReport} {parsed : ParsedReport}
    (dataSet : differs state.membersDataSet parsed.dataSetName = false)
    (confRev : differs state.membersConfRev parsed.confRev = false)
    (size : ∀ known ∈ state.datasetSize, known = parsed.inclusionBits.length)
    (short : parsed.dataSetName.any (128 < stringLen ·) = false)
    (counted : ¬ parsed.dataValues.length < (parsed.inclusionBits.filter id).length) :
    applyReport state parsed = .ok ((carriedMembers parsed).foldl ClientReport.store
      (ClientReport.receive (if state.datasetSize.isNone then
        state.fix false parsed.inclusionBits.length else state) parsed)) := by
  have sized : state.datasetSize.any (· ≠ parsed.inclusionBits.length) = false := by
    cases known : state.datasetSize with
    | none => rfl
    | some known' => simpa using size known' known
  unfold applyReport
  simp only [dataSet, confRev, Bool.or_false, Bool.false_eq_true, if_false, sized, short, counted]

theorem applyReport_segment (before : Before header dsLen view seen)
    (sendable : Sendable header dsLen segment) (fresh : ((seen ++ segment).map (·.index)).Nodup)
    (named : header.optFlds.contains .dataSet = true → stringLen header.datSet ≤ 128) :
    ∃ next, applyReport view (sentReport header segmented subSeqNum moreFollows dsLen segment) = .ok next ∧
      View header dsLen next (seen ++ segment) segment := by
  generalize parsing : sentReport header segmented subSeqNum moreFollows dsLen segment = parsed
  have size : parsed.inclusionBits.length = dsLen := by
    rw [← parsing, sentReport, inclusionBits, length_map, length_range]
  have dataSet : parsed.dataSetName = if header.optFlds.contains .dataSet then some header.datSet else none := by
    rw [← parsing, ← @contains_optFldsOf header segmented .dataSet (by decide)]
    rfl
  have confRev : parsed.confRev = if header.optFlds.contains .confRev then some header.confRev else none := by
    rw [← parsing, ← @contains_optFldsOf header segmented .confRev (by decide)]
    rfl
  have short : parsed.dataSetName.any (128 < stringLen ·) = false := by
    rw [dataSet]
    cases carried : header.optFlds.contains .dataSet with
    | false => rfl
    | true => simpa using named carried
  have counted : ¬ parsed.dataValues.length < (parsed.inclusionBits.filter id).length := by
    rw [← parsing, sentReport, filter_inclusionBits sendable.ordered, length_map]
    omega
  have members : carriedMembers parsed = segment.map carried := by
    rw [← parsing, carriedMembers_sent sendable]
  -- the lists of the view show what was seen and no reason when the members are stored
  suffices ∃ base : ClientReport,
    applyReport view parsed =
      .ok ((carriedMembers parsed).foldl ClientReport.store (base.receive parsed)) ∧
      Stored (base.receive parsed) dsLen seen [] ∧ base.datasetSize = some dsLen ∧
      (parsed.dataSetName <|> base.membersDataSet) = parsed.dataSetName ∧
      (parsed.confRev <|> base.membersConfRev) = parsed.confRev by
    obtain ⟨base, applied, stored, known, dataSetKept, confRevKept⟩ := this
    rw [members] at applied
    refine ⟨_, applied, stored.storeAll fresh (nil_subset _), ?_, ?_, ?_, ?_⟩
    · rw [foldl_store_kept (·.datasetSize) fun _ _ => rfl]
      exact known
    · rw [foldl_store_kept (·.membersDataSet) fun _ _ => rfl]
      exact dataSetKept.trans dataSet
    · rw [foldl_store_kept (·.membersConfRev) fun _ _ => rfl]
      exact confRevKept.trans confRev
    · rw [foldl_store_kept (·.included) fun _ _ => rfl, ← parsing]
      rfl
  cases before with
  | fresh rcbReference rptId =>
    refine ⟨_, applyReport_ok rfl rfl (by simp [ClientReport.new]) short counted, ⟨?_, ?_, ?_⟩, ?_, ?_, ?_⟩
    · rw [size]
      exact replicate_eq_table dsLen none
    · rw [size]
      exact replicate_eq_table dsLen none
    · rw [size]
      exact map_replicate.trans (replicate_eq_table dsLen ReasonForInclusion.empty)
    · rw [size]
      rfl
    · exact orElse_none _
    · exact orElse_none _
  | shown shows =>
    refine ⟨_, applyReport_ok ?_ ?_ ?_ short counted, ⟨?_, ?_, ?_⟩, ?_, ?_, ?_⟩
    · rw [shows.dataSet, dataSet, differs_self]
    · rw [shows.confRev, confRev, differs_self]
    · intro known found
      rw [shows.size] at found
      rw [size, Option.mem_some.mp found]
    all_goals rw [shows.size, Option.isNone_some, if_neg Bool.false_ne_true]
    · exact shows.stored.values
    · exact shows.stored.references
    · exact Eq.trans (congrArg (map _) shows.stored.reasons) (map_table _ _)
    · exact shows.size
    · rw [shows.dataSet, dataSet, orElse_self]
    · rw [shows.confRev, confRev, orElse_self]

end Iec61850.Client.Report
