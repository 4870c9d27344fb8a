import Iec61850.Client.Report
import Mathlib.Data.List.Induction
import Mathlib.Data.List.Perm.Basic

/-!
Reports folded into the view of a subscriber, statement by statement: what a refused report leaves
behind, what an accepted one changes, and segments that arrive in another order.
-/

namespace Iec61850.Client.Report

open List Mms Model ClientReport

inductive Failure where
  | state (error : StateError)
  | indexOutOfBounds
  deriving DecidableEq, Repr

/-- What was written before a failure stays written. -/
abbrev InPlace := ExceptT Failure (StateM ClientReport)

def InPlace.on (program : InPlace Unit) (view : ClientReport) : Except Failure Unit × ClientReport :=
  Id.run (program.run.run view)

def assign {α : Type} (list : List α) (index : Nat) (value : α) : Except Failure (List α) :=
  if index < list.length then .ok (list.set index value) else .error .indexOutOfBounds

def assignValue (index : Nat) (value : MmsValue) : InPlace Unit := do
  let dataSetValues ← assign (← get).dataSetValues index (some value)
  modify fun state => { state with dataSetValues }

def assignReason (index : Nat) (reason : ReasonForInclusion) : InPlace Unit := do
  let reasons ← assign (← get).reasons index reason
  modify fun state => { state with reasons }

def assignReference (index : Nat) (reference : String) : InPlace Unit := do
  let dataReferences ← assign (← get).dataReferences index (some reference)
  modify fun state => { state with dataReferences }

def storeInPlace (member : CarriedMember) : InPlace Unit := do
  assignValue member.index member.value
  member.reason.elim (pure ()) (assignReason member.index)
  member.reference.elim (pure ()) (assignReference member.index)

def ClientReport.otherDataSet (state : ClientReport) (parsed : ParsedReport) : Bool :=
  differs state.membersDataSet parsed.dataSetName || differs state.membersConfRev parsed.confRev

def checkSize (fixedSize : Option Nat) (datasetSize : Nat) : InPlace Unit :=
  match fixedSize with
  | some prev => if prev ≠ datasetSize then throw (.state (.dataSetSizeChanged prev datasetSize)) else pure ()
  | none => pure ()

def checkName (dataSetName : Option String) : InPlace Unit :=
  match dataSetName with
  | some name => if 128 < stringLen name then throw (.state (.dataSetNameTooLong (stringLen name))) else pure ()
  | none => pure ()

def checkCount (parsed : ParsedReport) : InPlace Unit :=
  if parsed.dataValues.length < (parsed.inclusionBits.filter id).length then
    throw (.state (.dataSetSizeChanged parsed.inclusionBits.length parsed.dataValues.length))
  else
    pure ()

def applyReportInPlace (parsed : ParsedReport) : InPlace Unit := do
  let state ← get
  let otherDataSet := state.otherDataSet parsed
  let fixedSize := if otherDataSet then none else state.datasetSize
  let datasetSize := parsed.inclusionBits.length
  checkSize fixedSize datasetSize
  checkName parsed.dataSetName
  checkCount parsed
  modify fun state => if fixedSize.isNone then state.fix otherDataSet datasetSize else state
  modify fun state => state.receive parsed
  forM (carriedMembers parsed) storeInPlace

namespace InPlace

variable {view : ClientReport}

theorem on_get_bind (next : ClientReport → InPlace Unit) :
    InPlace.on (do let state ← get; next state) view = (next view).on view := rfl

theorem on_modify_bind (update : ClientReport → ClientReport) (next : InPlace Unit) :
    InPlace.on (do modify update; next) view = next.on (update view) := rfl

/-- The next statement runs exactly when the first one did not fail, from the view the first one
left. -/
theorem on_bind (first next : InPlace Unit) :
    InPlace.on (do first; next) view =
      match first.on view with
      | (.ok (), after) => next.on after
      | (.error failure, after) => (.error failure, after) := by
  have unfolded : InPlace.on (do first; next) view =
      Id.run (ExceptT.bindCont (fun _ => next) (first.on view).1 (first.on view).2) := rfl
  rw [unfolded]
  obtain ⟨_ | _, after⟩ := first.on view <;> rfl

end InPlace

section

variable {view : ClientReport} {index : Nat}

theorem assign_on {α : Type} {list : List α} (inside : index < list.length) (value : α)
    (update : List α → ClientReport → ClientReport) :
    InPlace.on (do let next ← assign list index value; modify (update next)) view =
      (.ok (), update (list.set index value) view) := by
  rw [show assign list index value = .ok (list.set index value) from if_pos inside]
  rfl

theorem assignValue_on (inside : index < view.dataSetValues.length) (value : MmsValue) :
    (assignValue index value).on view =
      (.ok (), { view with dataSetValues := view.dataSetValues.set index (some value) }) :=
  assign_on inside (some value) fun dataSetValues state => { state with dataSetValues }

theorem assignReason_on (inside : index < view.reasons.length) (reason : ReasonForInclusion) :
    (assignReason index reason).on view =
      (.ok (), { view with reasons := view.reasons.set index reason }) :=
  assign_on inside reason fun reasons state => { state with reasons }

theorem assignReference_on (inside : index < view.dataReferences.length) (reference : String) :
    (assignReference index reference).on view =
      (.ok (), { view with dataReferences := view.dataReferences.set index (some reference) }) :=
  assign_on inside (some reference) fun dataReferences state => { state with dataReferences }

end

structure ClientReport.Sized (view : ClientReport) : Prop where
  values : view.dataSetValues.length = view.datasetSize.getD 0
  reasons : view.reasons.length = view.datasetSize.getD 0
  references : view.dataReferences.length = view.datasetSize.getD 0

theorem ClientReport.sized_new (rcbReference : String) (rptId : Option String) :
    (new rcbReference rptId).Sized := ⟨rfl, rfl, rfl⟩

theorem ClientReport.sized_fix (view : ClientReport) (otherDataSet : Bool) (datasetSize : Nat) :
    (view.fix otherDataSet datasetSize).Sized := by
  constructor <;> simp [fix]

namespace ClientReport.Sized

variable {view : ClientReport}

section

variable (sized : view.Sized)

include sized

theorem receive (parsed : ParsedReport) : (view.receive parsed).Sized where
  values := sized.values
  reasons := by
    rw [ClientReport.receive, length_map]
    exact sized.reasons
  references := sized.references

theorem store (member : CarriedMember) : (view.store member).Sized where
  values := by
    rw [ClientReport.store, length_set]
    exact sized.values
  reasons := by
    unfold ClientReport.store
    cases member.reason with
    | none => exact sized.reasons
    | some reason =>
      rw [Option.elim_some, length_set]
      exact sized.reasons
  references := by
    unfold ClientReport.store
    cases member.reference with
    | none => exact sized.references
    | some reference =>
      rw [Option.elim_some, length_set]
      exact sized.references

theorem storeInPlace {member : CarriedMember} (inside : member.index < view.datasetSize.getD 0) :
    (storeInPlace member).on view = (.ok (), view.store member) := by
  unfold Report.storeInPlace ClientReport.store
  rw [InPlace.on_bind, assignValue_on (sized.values ▸ inside) member.value]
  dsimp only
  cases member.reason with
  | none =>
    cases member.reference with
    | none => rfl
    | some reference => exact assignReference_on (sized.references ▸ inside) reference
  | some reason =>
    rw [Option.elim_some, Option.elim_some,
      InPlace.on_bind,
      assignReason_on (sized.reasons ▸ inside) reason]
    cases member.reference with
    | none => rfl
    | some reference => exact assignReference_on (sized.references ▸ inside) reference

theorem storeAllInPlace {members : List CarriedMember}
    (inside : ∀ member ∈ members, member.index < view.datasetSize.getD 0) :
    InPlace.on (forM members Report.storeInPlace) view = (.ok (), members.foldl ClientReport.store view) := by
  induction members generalizing view with
  | nil => rfl
  | cons member rest ih =>
    rw [forM_cons, InPlace.on_bind, sized.storeInPlace (inside member mem_cons_self), foldl_cons]
    exact ih (sized.store member) fun other listed => inside other (mem_cons_of_mem _ listed)

theorem storeAll (members : List CarriedMember) : (members.foldl ClientReport.store view).Sized := by
  induction members generalizing view with
  | nil => exact sized
  | cons member rest ih => exact ih (sized.store member)

end

end ClientReport.Sized

theorem lt_of_mem_carriedMembers {parsed : ParsedReport} {member : CarriedMember}
    (carried : member ∈ carriedMembers parsed) :
    member.index < parsed.inclusionBits.length := by
  obtain ⟨⟨⟨index, value⟩, k⟩, listed, rfl⟩ := mem_map.mp carried
  have included := (of_mem_zip (fst_mem_of_mem_zipIdx listed)).1
  exact mem_range.mp (mem_of_mem_filter included)

theorem checkSize_on (fixedSize : Option Nat) (datasetSize : Nat) (view : ClientReport) :
    (checkSize fixedSize datasetSize).on view =
      if fixedSize.any (· ≠ datasetSize) then
        (.error (.state (.dataSetSizeChanged (fixedSize.getD 0) datasetSize)), view)
      else
        (.ok (), view) := by
  cases fixedSize with
  | none => rfl
  | some prev =>
    by_cases same : prev = datasetSize
    · simp [checkSize, same]
      rfl
    · simp [checkSize, same]
      rfl

theorem checkName_on (dataSetName : Option String) (view : ClientReport) : (checkName dataSetName).on view =
      if dataSetName.any (128 < stringLen ·) then
        (.error (.state (.dataSetNameTooLong (stringLen (dataSetName.getD "")))), view)
      else
        (.ok (), view) := by
  cases dataSetName with
  | none => rfl
  | some name =>
    by_cases long : 128 < stringLen name
    · simp [checkName, long]
      rfl
    · simp [checkName, long]
      rfl

theorem checkCount_on (parsed : ParsedReport) (view : ClientReport) : (checkCount parsed).on view =
      if parsed.dataValues.length < (parsed.inclusionBits.filter id).length then
        (.error (.state (.dataSetSizeChanged parsed.inclusionBits.length parsed.dataValues.length)), view)
      else
        (.ok (), view) := by
  unfold checkCount
  split <;> rfl

def ClientReport.fixedSize (view : ClientReport) (parsed : ParsedReport) : Option Nat :=
  if view.otherDataSet parsed then none else view.datasetSize

def ClientReport.prepared (view : ClientReport) (parsed : ParsedReport) : ClientReport :=
  if (view.fixedSize parsed).isNone then view.fix (view.otherDataSet parsed) parsed.inclusionBits.length else view

structure ClientReport.Admits (view : ClientReport) (parsed : ParsedReport) : Prop where
  size : (view.fixedSize parsed).any (· ≠ parsed.inclusionBits.length) = false
  name : parsed.dataSetName.any (128 < stringLen ·) = false
  count : ¬ parsed.dataValues.length < (parsed.inclusionBits.filter id).length

def ClientReport.folded (view : ClientReport) (parsed : ParsedReport) : ClientReport :=
  (carriedMembers parsed).foldl store ((view.prepared parsed).receive parsed)

theorem applyReport_eq (view : ClientReport) (parsed : ParsedReport) : applyReport view parsed =
      if (view.fixedSize parsed).any (· ≠ parsed.inclusionBits.length) then
        .error (.dataSetSizeChanged ((view.fixedSize parsed).getD 0) parsed.inclusionBits.length)
      else if parsed.dataSetName.any (128 < stringLen ·) then
        .error (.dataSetNameTooLong (stringLen (parsed.dataSetName.getD "")))
      else if parsed.dataValues.length < (parsed.inclusionBits.filter id).length then
        .error (.dataSetSizeChanged parsed.inclusionBits.length parsed.dataValues.length)
      else
        .ok (view.folded parsed) := rfl

theorem ClientReport.Admits.size_prepared {view : ClientReport} {parsed : ParsedReport} (admits : view.Admits parsed) :
    (view.prepared parsed).datasetSize = some parsed.inclusionBits.length := by
  have size := admits.size
  unfold prepared
  cases known : view.fixedSize parsed with
  | none => rfl
  | some prev =>
    have same : view.datasetSize = some prev := by
      unfold fixedSize at known
      split at known
      · cases known
      · exact known
    rw [known] at size
    rw [Option.isNone_some, if_neg Bool.false_ne_true, same]
    simpa using size

theorem applyReportInPlace_refused {view : ClientReport} {parsed : ParsedReport} (refused : ¬ view.Admits parsed) :
    ∃ error, applyReport view parsed = .error error ∧
      (applyReportInPlace parsed).on view = (.error (.state error), view) := by
  unfold applyReportInPlace
  rw [InPlace.on_get_bind, applyReport_eq]
  dsimp only
  rw [← fixedSize]
  have size := checkSize_on (view.fixedSize parsed) parsed.inclusionBits.length view
  have name := checkName_on parsed.dataSetName view
  have count := checkCount_on parsed view
  split at size
  · next changed =>
    rw [if_pos changed]
    exact ⟨_, rfl, by rw [InPlace.on_bind, size]⟩
  · next sizeKept =>
    rw [if_neg sizeKept, InPlace.on_bind, size]
    dsimp only
    split at name
    · next long =>
      rw [if_pos long]
      exact ⟨_, rfl, by rw [InPlace.on_bind, name]⟩
    · next short =>
      rw [if_neg short, InPlace.on_bind, name]
      dsimp only
      split at count
      · next missing =>
        rw [if_pos missing]
        exact ⟨_, rfl, by rw [InPlace.on_bind, count]⟩
      · next enough =>
        exact absurd ⟨Bool.eq_false_iff.mpr sizeKept, Bool.eq_false_iff.mpr short, enough⟩ refused

namespace ClientReport.Sized

variable {view : ClientReport} {parsed : ParsedReport}

theorem prepared (sized : view.Sized) (parsed : ParsedReport) : (view.prepared parsed).Sized := by
  unfold ClientReport.prepared
  split
  · exact sized_fix view _ _
  · exact sized

theorem folded (sized : view.Sized) (parsed : ParsedReport) : (view.folded parsed).Sized :=
  ((sized.prepared parsed).receive parsed).storeAll _

theorem applyReportInPlace_admitted (sized : view.Sized) (admits : view.Admits parsed) :
    applyReport view parsed = .ok (view.folded parsed) ∧
      (applyReportInPlace parsed).on view = (.ok (), view.folded parsed) := by
  have sizeKept := Bool.eq_false_iff.mp admits.size
  have short := Bool.eq_false_iff.mp admits.name
  have size := checkSize_on (view.fixedSize parsed) parsed.inclusionBits.length view
  have name := checkName_on parsed.dataSetName view
  have count := checkCount_on parsed view
  rw [if_neg sizeKept] at size
  rw [if_neg short] at name
  rw [if_neg admits.count] at count
  refine ⟨?_, ?_⟩
  · rw [applyReport_eq, if_neg sizeKept, if_neg short, if_neg admits.count]
  · unfold applyReportInPlace
    rw [InPlace.on_get_bind]
    dsimp only
    rw [← fixedSize, InPlace.on_bind, size]
    dsimp only
    rw [InPlace.on_bind, name]
    dsimp only
    rw [InPlace.on_bind, count]
    dsimp only
    rw [InPlace.on_modify_bind, InPlace.on_modify_bind]
    refine ((sized.prepared parsed).receive parsed).storeAllInPlace ?_
    intro member carried
    change member.index < (view.prepared parsed).datasetSize.getD 0
    rw [admits.size_prepared]
    exact lt_of_mem_carriedMembers carried

end ClientReport.Sized

def ClientReport.memberValue (view : ClientReport) (index : Nat) : Option MmsValue := view.dataSetValues[index]?.join

namespace ParsedReport

variable (parsed : ParsedReport) (index : Nat)

def marks : Bool := parsed.inclusionBits[index]?.getD false

def reported : Option MmsValue :=
  if parsed.marks index then parsed.dataValues[(parsed.inclusionBits.take index).count true]? else none

end ParsedReport

variable (bits : List Bool)

theorem includedMembers_concat (bit : Bool) :
    includedMembers (bits ++ [bit]) = includedMembers bits ++ if bit then [bits.length] else [] := by
  unfold includedMembers
  rw [length_append, length_singleton, range_succ, filter_append]
  congr 1
  · apply filter_congr
    intro index inside
    rw [getElem?_append_left (mem_range.mp inside)]
  · rw [filter_singleton, getElem?_concat_length, Option.getD_some]
    cases bit <;> rfl

theorem length_includedMembers : (includedMembers bits).length = bits.count true := by
  induction bits using reverseRecOn with
  | nil => rfl
  | append_singleton bits bit ih =>
    rw [includedMembers_concat, length_append, ih, count_append]
    cases bit <;> rfl

theorem getElem?_includedMembers {bits : List Bool} {index : Nat} (marked : bits[index]? = some true) :
    (includedMembers bits)[(bits.take index).count true]? = some index := by
  induction bits using reverseRecOn with
  | nil => cases marked
  | append_singleton bits bit ih =>
    rw [includedMembers_concat]
    by_cases earlier : index < bits.length
    · rw [getElem?_append_left earlier] at marked
      rw [take_append_of_le_length (Nat.le_of_lt earlier)]
      have found := ih marked
      rw [List.getElem?_append_left (List.getElem?_eq_some_iff.mp found).1]
      exact found
    · obtain ⟨inside, last⟩ := List.getElem?_eq_some_iff.mp marked
      have here : index = bits.length := by
        rw [length_append, length_singleton] at inside
        omega
      subst here
      rw [getElem_concat_length rfl] at last
      rw [take_left, ← length_includedMembers, getElem?_append_right (Nat.le_refl _), Nat.sub_self, last]
      rfl

theorem nodup_includedMembers : (includedMembers bits).Nodup := nodup_range.filter _

theorem map_index_carriedMembers {parsed : ParsedReport}
    (enough : parsed.inclusionBits.count true ≤ parsed.dataValues.length) :
    (carriedMembers parsed).map (·.index) = includedMembers parsed.inclusionBits := by
  unfold carriedMembers
  rw [map_map]
  change map (Prod.fst ∘ Prod.fst) _ = _
  rw [← map_map, zipIdx_map_fst, map_fst_zip]
  rw [length_includedMembers]
  exact enough

theorem exists_carriedMember {parsed : ParsedReport}
    (enough : parsed.inclusionBits.count true ≤ parsed.dataValues.length) {index : Nat}
    (marked : parsed.marks index = true) :
    ∃ member ∈ carriedMembers parsed, member.index = index ∧ parsed.reported index = some member.value := by
  have bit : parsed.inclusionBits[index]? = some true := by
    unfold ParsedReport.marks at marked
    cases found : parsed.inclusionBits[index]? with
    | none => simp [found] at marked
    | some bit => simpa [found] using marked
  have place := getElem?_includedMembers bit
  unfold ParsedReport.reported
  rw [if_pos marked]
  generalize (parsed.inclusionBits.take index).count true = k at place ⊢
  have carried : k < parsed.dataValues.length := by
    have listed := (List.getElem?_eq_some_iff.mp place).1
    rw [length_includedMembers] at listed
    omega
  refine ⟨⟨index, parsed.dataValues[k], parsed.reasons[k]?, parsed.dataReferences[k]?⟩, ?_, rfl,
    getElem?_eq_getElem carried⟩
  apply mem_of_getElem? (i := k)
  have zipped : ((includedMembers parsed.inclusionBits).zip parsed.dataValues)[k]? =
      some (index, parsed.dataValues[k]) :=
    getElem?_zip_eq_some.mpr ⟨place, getElem?_eq_getElem carried⟩
  rw [carriedMembers, getElem?_map, getElem?_zipIdx, zipped]
  simp

section

variable {members : List CarriedMember} {values : List (Option MmsValue)}

def storeValues (values : List (Option MmsValue)) (members : List CarriedMember) : List (Option MmsValue) :=
  members.foldl (fun values member => values.set member.index (some member.value)) values

theorem dataSetValues_storeAll (view : ClientReport) :
    (members.foldl store view).dataSetValues = storeValues view.dataSetValues members := by
  induction members generalizing view with
  | nil => rfl
  | cons member rest ih => exact ih (view.store member)

theorem getElem?_storeValues_of_notMem {index : Nat} (absent : index ∉ members.map (·.index)) :
    (storeValues values members)[index]? = values[index]? := by
  unfold storeValues
  induction members generalizing values with
  | nil => rfl
  | cons member rest ih =>
    rw [map_cons, mem_cons, not_or] at absent
    rw [foldl_cons, ih absent.2, getElem?_set_ne (Ne.symm absent.1)]

theorem getElem?_storeValues_of_mem (distinct : (members.map (·.index)).Nodup) {member : CarriedMember}
    (stored : member ∈ members) (inside : member.index < values.length) :
    (storeValues values members)[member.index]? = some (some member.value) := by
  induction members generalizing values with
  | nil => cases stored
  | cons first rest ih =>
    rw [map_cons, nodup_cons] at distinct
    cases mem_cons.mp stored with
    | inl same =>
      subst same
      refine (getElem?_storeValues_of_notMem distinct.1).trans ?_
      rw [getElem?_set_self inside]
    | inr later =>
      exact ih distinct.2 later (by rwa [length_set])

end

theorem length_filter_id : (bits.filter id).length = bits.count true := by
  rw [count_eq_length_filter]
  congr 2
  funext bit
  cases bit <;> rfl

theorem ClientReport.Admits.enough {view : ClientReport} {parsed : ParsedReport} (admits : view.Admits parsed) :
    parsed.inclusionBits.count true ≤ parsed.dataValues.length := by
  rw [← length_filter_id]
  exact Nat.le_of_not_lt admits.count

theorem memberValue_fix (view : ClientReport) (otherDataSet : Bool) (datasetSize index : Nat) :
    (view.fix otherDataSet datasetSize).memberValue index = none := by
  change (replicate datasetSize (none : Option MmsValue))[index]?.join = none
  rw [getElem?_replicate]
  split <;> rfl

theorem memberValue_prepared {view : ClientReport} (sized : view.Sized) (parsed : ParsedReport) (index : Nat) :
    (view.prepared parsed).memberValue index =
      if view.otherDataSet parsed then none else view.memberValue index := by
  have emptied := memberValue_fix view (view.otherDataSet parsed) parsed.inclusionBits.length index
  unfold prepared fixedSize
  cases other : view.otherDataSet parsed with
  | true =>
    exact emptied
  | false =>
    cases known : view.datasetSize with
    | none =>
      have nothing : view.dataSetValues = [] := by
        have length := sized.values
        rw [known] at length
        exact length_eq_zero_iff.mp length
      have before : view.memberValue index = none := by
        rw [memberValue, nothing]
        rfl
      exact emptied.trans before.symm
    | some size => rfl

theorem memberValue_folded_of_marked {view : ClientReport} {parsed : ParsedReport} (sized : view.Sized)
    (admits : view.Admits parsed) {index : Nat} (marked : parsed.marks index = true) :
    ∃ value, parsed.reported index = some value ∧ (view.folded parsed).memberValue index = some value := by
  obtain ⟨member, carried, rfl, reported⟩ := exists_carriedMember admits.enough marked
  refine ⟨member.value, reported, ?_⟩
  have distinct : ((carriedMembers parsed).map (·.index)).Nodup := by
    rw [map_index_carriedMembers admits.enough]
    exact nodup_includedMembers _
  have inside : member.index < ((view.prepared parsed).receive parsed).dataSetValues.length := by
    rw [((sized.prepared parsed).receive parsed).values]
    change member.index < (view.prepared parsed).datasetSize.getD 0
    rw [admits.size_prepared]
    exact lt_of_mem_carriedMembers carried
  rw [memberValue, folded, dataSetValues_storeAll,
    getElem?_storeValues_of_mem distinct carried inside]
  rfl

theorem memberValue_folded_of_not_marked {view : ClientReport} {parsed : ParsedReport} (sized : view.Sized)
    (admits : view.Admits parsed) {index : Nat} (unmarked : parsed.marks index = false) :
    (view.folded parsed).memberValue index = if view.otherDataSet parsed then none else view.memberValue index := by
  have absent : index ∉ (carriedMembers parsed).map (·.index) := by
    rw [map_index_carriedMembers admits.enough]
    intro included
    have marked := (mem_filter.mp included).2
    exact Bool.false_ne_true (unmarked.symm.trans marked)
  rw [memberValue, folded, dataSetValues_storeAll, getElem?_storeValues_of_notMem absent]
  exact memberValue_prepared sized parsed index

@[ext]
structure Known where
  size : Option Nat
  dataSet : Option String
  confRev : Option UInt32
  value : Nat → Option MmsValue

def ClientReport.known (view : ClientReport) : Known where
  size := view.datasetSize
  dataSet := view.membersDataSet
  confRev := view.membersConfRev
  value := view.memberValue

namespace Known

variable (known : Known) (parsed : ParsedReport)

def otherDataSet : Bool := differs known.dataSet parsed.dataSetName || differs known.confRev parsed.confRev

def Expects : Prop :=
  (known.otherDataSet parsed = false → ∀ prev ∈ known.size, prev = parsed.inclusionBits.length) ∧
    ∀ name ∈ parsed.dataSetName, stringLen name ≤ 128

def base : Known :=
  if known.otherDataSet parsed then
    { size := some parsed.inclusionBits.length, dataSet := none, confRev := none, value := fun _ => none }
  else if known.size.isNone then
    { known with size := some parsed.inclusionBits.length, value := fun _ => none }
  else
    known

open Classical in
noncomputable def receive : Known :=
  if known.Expects parsed ∧ parsed.inclusionBits.count true ≤ parsed.dataValues.length then
    { size := (known.base parsed).size
      dataSet := parsed.dataSetName <|> (known.base parsed).dataSet
      confRev := parsed.confRev <|> (known.base parsed).confRev
      value := fun index => parsed.reported index <|> (known.base parsed).value index }
  else
    known

end Known

theorem differs_orElse {α : Type} [DecidableEq α] (carried kept : Option α) :
    differs (carried <|> kept) carried = false := by
  cases carried with
  | none => cases kept <;> rfl
  | some value => simp [differs]

section

variable {view : ClientReport} {parsed : ParsedReport}

theorem admits_iff : view.Admits parsed ↔
      view.known.Expects parsed ∧ parsed.inclusionBits.count true ≤ parsed.dataValues.length := by
  have size : (view.fixedSize parsed).any (· ≠ parsed.inclusionBits.length) = false ↔
      (view.otherDataSet parsed = false → ∀ prev ∈ view.datasetSize, prev = parsed.inclusionBits.length) := by
    unfold fixedSize
    cases view.otherDataSet parsed <;> simp [Option.any_eq_false]
  have name : parsed.dataSetName.any (128 < stringLen ·) = false ↔
      ∀ name ∈ parsed.dataSetName, stringLen name ≤ 128 := by
    simp [Option.any_eq_false]
  constructor
  · intro admits
    exact ⟨⟨size.mp admits.size, name.mp admits.name⟩, admits.enough⟩
  · rintro ⟨expects, enough⟩
    exact ⟨size.mpr expects.1, name.mpr expects.2, by rw [length_filter_id]; omega⟩

theorem known_prepared (parsed : ParsedReport) : (view.prepared parsed).known = view.known.base parsed := by
  have other : view.known.otherDataSet parsed = view.otherDataSet parsed := rfl
  unfold prepared fixedSize Known.base
  rw [other]
  cases view.otherDataSet parsed with
  | true => exact Known.ext rfl rfl rfl (funext (memberValue_fix view true _))
  | false =>
    have size : view.known.size = view.datasetSize := rfl
    rw [size]
    cases view.datasetSize with
    | none => exact Known.ext rfl rfl rfl (funext (memberValue_fix view false _))
    | some prev => rfl

theorem known_folded (sized : view.Sized) (admits : view.Admits parsed) :
    (view.folded parsed).known = view.known.receive parsed := by
  unfold Known.receive
  rw [if_pos (admits_iff.mp admits), ← known_prepared]
  ext1
  · exact foldl_store_kept (·.datasetSize) (fun _ _ => rfl) _ _
  · exact foldl_store_kept (·.membersDataSet) (fun _ _ => rfl) _ _
  · exact foldl_store_kept (·.membersConfRev) (fun _ _ => rfl) _ _
  · funext index
    change (view.folded parsed).memberValue index = (parsed.reported index <|> (view.prepared parsed).memberValue index)
    cases marked : parsed.marks index with
    | true =>
      obtain ⟨value, reported, shown⟩ := memberValue_folded_of_marked sized admits marked
      rw [shown, reported]
      rfl
    | false =>
      rw [memberValue_folded_of_not_marked sized admits marked, memberValue_prepared sized,
        ParsedReport.reported, marked]
      rfl

/-- The view after a report: the fold of what is known, whether the report is accepted or not. -/
theorem known_applied (sized : view.Sized) :
    ((applyReportInPlace parsed).on view).2.known = view.known.receive parsed := by
  by_cases admits : view.Admits parsed
  · rw [(sized.applyReportInPlace_admitted admits).2]
    exact known_folded sized admits
  · obtain ⟨error, -, refused⟩ := applyReportInPlace_refused admits
    rw [refused, Known.receive, if_neg (mt admits_iff.mpr admits)]

end

/-- Two segments of one report: what they say about the report is the same, and they do not disagree
about a member. -/
structure SameReport (one other : ParsedReport) : Prop where
  dataSet : one.dataSetName = other.dataSetName
  confRev : one.confRev = other.confRev
  size : one.inclusionBits.length = other.inclusionBits.length
  agree : ∀ index value value', one.reported index = some value → other.reported index = some value' → value = value'

namespace Known

variable {known : Known} {one other : ParsedReport}

theorem expects_iff (same : SameReport one other) : known.Expects one ↔ known.Expects other := by
  unfold Expects otherDataSet
  rw [same.dataSet, same.confRev, same.size]

theorem base_eq (same : SameReport one other) : known.base one = known.base other := by
  unfold base otherDataSet
  rw [same.dataSet, same.confRev, same.size]

theorem size_base (expects : known.Expects one) : (known.base one).size = some one.inclusionBits.length := by
  unfold base
  cases differs : known.otherDataSet one with
  | true => rfl
  | false =>
    cases size : known.size with
    | none => rfl
    | some prev =>
      rw [← expects.1 differs prev size]
      exact size

theorem base_of_same {prev : Nat} (same : known.otherDataSet one = false) (size : known.size = some prev) :
    known.base one = known := by
  unfold base
  rw [same, size]
  rfl

theorem receive_of_accepted (expects : known.Expects one)
    (enough : one.inclusionBits.count true ≤ one.dataValues.length) : known.receive one =
      { size := (known.base one).size
        dataSet := one.dataSetName <|> (known.base one).dataSet
        confRev := one.confRev <|> (known.base one).confRev
        value := fun index => one.reported index <|> (known.base one).value index } :=
  if_pos ⟨expects, enough⟩

theorem expects_received (same : SameReport one other) (expects : known.Expects one)
    (enough : one.inclusionBits.count true ≤ one.dataValues.length) :
    (known.receive one).Expects other ∧ (known.receive one).base other = known.receive one := by
  rw [receive_of_accepted expects enough]
  have settled : otherDataSet
      { size := (known.base one).size
        dataSet := one.dataSetName <|> (known.base one).dataSet
        confRev := one.confRev <|> (known.base one).confRev
        value := fun index => one.reported index <|> (known.base one).value index } other = false := by
    unfold otherDataSet
    rw [← same.dataSet, ← same.confRev, differs_orElse, differs_orElse]
    rfl
  refine ⟨⟨?_, ((expects_iff same).mp expects).2⟩, ?_⟩
  · intro _ prev known
    rw [size_base expects, Option.mem_some] at known
    rw [← known, same.size]
  · exact base_of_same settled (size_base expects)

theorem orElse_orElse {α : Type} (carried kept : Option α) : (carried <|> (carried <|> kept)) = (carried <|> kept) := by
  cases carried <;> rfl

theorem orElse_comm {α : Type} {one other : Option α} (kept : Option α)
    (agree : ∀ value value', one = some value → other = some value' → value = value') :
    (other <|> (one <|> kept)) = (one <|> (other <|> kept)) := by
  cases one with
  | none => rfl
  | some value =>
    cases other with
    | none => rfl
    | some value' => exact congrArg some (agree value value' rfl rfl).symm

theorem receive_comm (same : SameReport one other) (back : SameReport other one) (known : Known) :
    (known.receive one).receive other = (known.receive other).receive one := by
  by_cases expects : known.Expects one
  · have expects' := (expects_iff same).mp expects
    by_cases enough : one.inclusionBits.count true ≤ one.dataValues.length
    · by_cases enough' : other.inclusionBits.count true ≤ other.dataValues.length
      · obtain ⟨next, kept⟩ := expects_received same expects enough
        obtain ⟨next', kept'⟩ := expects_received back expects' enough'
        rw [receive_of_accepted next enough', receive_of_accepted next' enough, kept, kept',
          receive_of_accepted expects enough, receive_of_accepted expects' enough', base_eq same, ← same.dataSet,
          ← same.confRev, orElse_orElse, orElse_orElse]
        congr 1
        funext index
        exact orElse_comm _ (same.agree index)
      · have dropped (known : Known) : known.receive other = known := if_neg fun accepted => enough' accepted.2
        rw [dropped, dropped]
    · have dropped (known : Known) : known.receive one = known := if_neg fun accepted => enough accepted.2
      rw [dropped, dropped]
  · have refused : known.receive one = known := if_neg fun accepted => expects accepted.1
    have refused' : known.receive other = known := if_neg fun accepted => expects ((expects_iff same).mpr accepted.1)
    rw [refused, refused', refused]

end Known

def ClientReport.receiveAll (view : ClientReport) (reports : List ParsedReport) : ClientReport :=
  reports.foldl (fun view parsed => ((applyReportInPlace parsed).on view).2) view

theorem ClientReport.Sized.applied {view : ClientReport} (sized : view.Sized) (parsed : ParsedReport) :
    ((applyReportInPlace parsed).on view).2.Sized := by
  by_cases admits : view.Admits parsed
  · rw [(sized.applyReportInPlace_admitted admits).2]
    exact sized.folded parsed
  · obtain ⟨error, -, refused⟩ := applyReportInPlace_refused admits
    rw [refused]
    exact sized

theorem known_receiveAll {view : ClientReport} (sized : view.Sized) (reports : List ParsedReport) :
    (view.receiveAll reports).known = reports.foldl Known.receive view.known := by
  unfold receiveAll
  induction reports generalizing view with
  | nil => rfl
  | cons parsed rest ih =>
    rw [foldl_cons, foldl_cons, ih (sized.applied parsed), known_applied sized]

def SegmentsOfOneReport (segments : List ParsedReport) : Prop :=
  ∀ one ∈ segments, ∀ other ∈ segments, SameReport one other

theorem memberValue_receiveAll_perm {view : ClientReport} (sized : view.Sized) {segments order : List ParsedReport}
    (segmented : SegmentsOfOneReport segments) (reordered : order.Perm segments) (index : Nat) :
    (view.receiveAll order).memberValue index = (view.receiveAll segments).memberValue index := by
  have same : (view.receiveAll order).known = (view.receiveAll segments).known := by
    rw [known_receiveAll sized, known_receiveAll sized]
    refine reordered.foldl_eq' ?_ _
    intro one listed other listed' known
    have first := reordered.subset listed
    have second := reordered.subset listed'
    exact Known.receive_comm (segmented one first other second) (segmented other second one first) known
  exact congrArg (fun known : Known => known.value index) same

/-- What a report does to a view. A refused report leaves the view as it was. An accepted one sets
the members it marks to the values it reports, and leaves the others as they are, or discards them
if it is about another data set. The segments of a report may arrive in any order. -/
theorem view_folds_reports : (∀ rcbReference rptId, (new rcbReference rptId).Sized) ∧
    ∀ view : ClientReport, view.Sized →
      (∀ parsed : ParsedReport,
        (∃ error, (applyReportInPlace parsed).on view = (.error (.state error), view)) ∨
        ∃ after, (applyReportInPlace parsed).on view = (.ok (), after) ∧ after.Sized ∧
          (∀ index, parsed.marks index = true →
            ∃ value, parsed.reported index = some value ∧ after.memberValue index = some value) ∧
          ∀ index, parsed.marks index = false →
            after.memberValue index = if view.otherDataSet parsed then none else view.memberValue index) ∧
      ∀ segments order : List ParsedReport, SegmentsOfOneReport segments → order.Perm segments →
        ∀ index, (view.receiveAll order).memberValue index = (view.receiveAll segments).memberValue index := by
  refine ⟨sized_new, ?_⟩
  intro view sized
  refine ⟨?_, fun _ _ segmented reordered => memberValue_receiveAll_perm sized segmented reordered⟩
  intro parsed
  by_cases admits : view.Admits parsed
  · right
    exact ⟨view.folded parsed, (sized.applyReportInPlace_admitted admits).2, sized.folded parsed,
      fun _ => memberValue_folded_of_marked sized admits, fun _ => memberValue_folded_of_not_marked sized admits⟩
  · left
    obtain ⟨error, -, refused⟩ := applyReportInPlace_refused admits
    exact ⟨error, refused⟩

def integerReport (dataSetName : String) (inclusionBits : List Bool) (values : List Int64) : ParsedReport where
  rptId := "events"
  optFlds := .dataSetName
  seqNum := none
  timestampMs := none
  dataSetName := some dataSetName
  bufOvfl := none
  entryId := none
  confRev := none
  segmentation := none
  inclusionBits := inclusionBits
  dataReferences := []
  dataValues := values.map .integer
  reasons := []

/-- The two segments of a report about two members, the second one first. -/
theorem segments_in_either_order : let view := new "LD0/LLN0.RP.events" none
    let first := integerReport "LD0/LLN0$events" [true, false] [1]
    let second := integerReport "LD0/LLN0$events" [false, true] [2]
    SegmentsOfOneReport [first, second] ∧ (view.receiveAll [second, first]).memberValue 1 = some (.integer 2) ∧
      ∀ index, (view.receiveAll [second, first]).memberValue index =
      (view.receiveAll [first, second]).memberValue index := by
  intro view first second
  have segmented : SegmentsOfOneReport [first, second] := by
    have apart : SameReport first second := by
      refine ⟨rfl, rfl, rfl, ?_⟩
      intro index value value' reported reported'
      match index with
      | 0 => cases reported'
      | 1 | _ + 2 => cases reported
    have self (parsed : ParsedReport) : SameReport parsed parsed :=
      ⟨rfl, rfl, rfl, fun _ _ _ reported reported' => Option.some.inj (reported.symm.trans reported')⟩
    have back : SameReport second first :=
      ⟨rfl, rfl, rfl, fun index _ _ reported reported' => (apart.agree index _ _ reported' reported).symm⟩
    intro one listed other listed'
    simp only [mem_cons, not_mem_nil, or_false] at listed listed'
    rcases listed with rfl | rfl <;> rcases listed' with rfl | rfl
    · exact self first
    · exact apart
    · exact back
    · exact self second
  refine ⟨segmented, rfl, ?_⟩
  exact ((view_folds_reports.2 view (sized_new _ _)).2 [first, second] [second, first] segmented
    (List.Perm.swap first second []))

/-- A report of another data set that marks the first member only: the second one is discarded. -/
theorem other_data_set_discards_members :
    let view := (new "LD0/LLN0.RP.events" none).receiveAll [integerReport "LD0/LLN0$events" [true, true] [1, 2]]
    let parsed := integerReport "LD0/LLN0$alarms" [true, false] [3]
    ((applyReportInPlace parsed).on view).1 = .ok () ∧ parsed.marks 1 = false ∧
      view.memberValue 1 = some (.integer 2) ∧ ((applyReportInPlace parsed).on view).2.memberValue 1 = none :=
  ⟨rfl, rfl, rfl, rfl⟩

/-- Through any reports, accepted and refused ones, a view shows what follows from them alone, one
after the other. -/
theorem view_refines_knowledge (rcbReference : String) (rptId : Option String) (reports : List ParsedReport) :
    ((new rcbReference rptId).receiveAll reports).known =
      reports.foldl Known.receive ⟨none, none, none, fun _ => none⟩ :=
  known_receiveAll (sized_new rcbReference rptId) reports

end Iec61850.Client.Report
