import Iec61850.Reporting.Batch

/-!
A snapshot slot by slot: what the triggers of one batch leave in the slot of a member, and how the
slots of a window come together from the batches that filled it.
-/

namespace Iec61850.Reporting

open List Model

abbrev MemberSlot := InclusionFlag × Option MmsValue

def blankSlot : MemberSlot := (.none, none)

def TriggeredMember.fill (live : LiveValues) (entry : DatasetEntry) (batch : BatchValues) (slot : MemberSlot)
    (member : TriggeredMember) : MemberSlot :=
  if entry.isLeaf then
    (member.flag, some member.value)
  else
    let held := slot.2 <|> entry.readValue live
    let held := batch.values.foldl (fun held (attrRef, value) => entry.valueWith live held attrRef value) held
    (slot.1.union member.flag, entry.valueWith live held member.attrRef member.value)

def slotAt (flags : List InclusionFlag) (values : List (Option MmsValue)) (index : Nat) : Option MemberSlot :=
  flags[index]?.bind fun flag => values[index]?.map fun value => (flag, value)

def fillSlot (live : LiveValues) (dataset : Dataset) (batch : BatchValues)
    (members : List TriggeredMember) (index : Nat) (slot : MemberSlot) : MemberSlot :=
  match dataset.entry index with
  | none => slot
  | some entry => (members.filter fun member => member.index = index).foldl (TriggeredMember.fill live entry batch) slot

section Fill

variable {live : LiveValues} {dataset : Dataset} {batch : BatchValues} {members : List TriggeredMember}
  {flags : List InclusionFlag} {values : List (Option MmsValue)}

variable (member : TriggeredMember) (index : Nat)

theorem fillMember_lengths : (fillMember live dataset batch member flags values).1.length = flags.length ∧
      (fillMember live dataset batch member flags values).2.length = values.length := by
  unfold fillMember
  split
  · dsimp only
    split <;> simp
  · exact ⟨rfl, rfl⟩

theorem slotAt_fillMember :
    slotAt (fillMember live dataset batch member flags values).1 (fillMember live dataset batch member flags values).2
        index =
      (slotAt flags values index).map (fillSlot live dataset batch [member] index) := by
  unfold fillMember
  by_cases here : member.index = index
  · subst here
    cases named : dataset.entry member.index with
    | none =>
      have same : fillSlot live dataset batch [member] member.index = id := by
        funext slot
        simp [fillSlot, named]
      rw [same, Option.map_id_fun, id]
    | some entry =>
      cases flagged : flags[member.index]? with
      | none => simp [slotAt, flagged]
      | some flag =>
        cases held : values[member.index]? with
        | none => simp [slotAt, flagged, held]
        | some slot =>
          have flagsInside := (List.getElem?_eq_some_iff.mp flagged).1
          have valuesInside := (List.getElem?_eq_some_iff.mp held).1
          have recorded : fillSlot live dataset batch [member] member.index (flag, slot) =
              TriggeredMember.fill live entry batch (flag, slot) member := by
            simp [fillSlot, named]
          have before : slotAt flags values member.index = some (flag, slot) := by simp [slotAt, flagged, held]
          rw [before, Option.map_some, recorded]
          cases basic : entry.isLeaf with
          | true | false => simp [slotAt, TriggeredMember.fill, basic, flagsInside, valuesInside]
  · have other : fillSlot live dataset batch [member] index = id := by
      funext slot
      simp only [fillSlot, filter_cons, here, decide_false, filter_nil]
      split <;> rfl
    rw [other, Option.map_id_fun, id]
    split
    · dsimp only
      split <;> simp [slotAt, getElem?_set_ne here]
    · rfl

theorem fillSlot_cons (slot : MemberSlot) : fillSlot live dataset batch (member :: members) index slot =
      fillSlot live dataset batch members index (fillSlot live dataset batch [member] index slot) := by
  unfold fillSlot
  cases dataset.entry index with
  | none => rfl
  | some entry =>
    by_cases here : member.index = index
    · simp [here]
    · simp [here]

theorem fillMembers_lengths : (fillMembers live dataset batch members flags values).1.length = flags.length ∧
      (fillMembers live dataset batch members flags values).2.length = values.length := by
  unfold fillMembers
  induction members generalizing flags values with
  | nil => exact ⟨rfl, rfl⟩
  | cons member rest ih =>
    rw [foldl_cons, ih.1, ih.2]
    exact fillMember_lengths member

theorem slotAt_fillMembers :
    slotAt (fillMembers live dataset batch members flags values).1
      (fillMembers live dataset batch members flags values).2 index =
      (slotAt flags values index).map (fillSlot live dataset batch members index) := by
  unfold fillMembers
  induction members generalizing flags values with
  | nil =>
    have same : fillSlot live dataset batch [] index = id := by
      funext slot
      simp only [fillSlot, filter_nil, foldl_nil]
      split <;> rfl
    rw [same, Option.map_id_fun]
    rfl
  | cons member rest ih =>
    rw [foldl_cons, ih, slotAt_fillMember, Option.map_map]
    congr 1
    funext slot
    exact (fillSlot_cons member index slot).symm

end Fill

theorem InclusionFlag.hasTrigger_iff (flag : InclusionFlag) : flag.hasTrigger = true ↔ flag.bits &&& 0x07 ≠ 0 := by
  simp [InclusionFlag.hasTrigger]

theorem InclusionFlag.hasTrigger_union {flag other : InclusionFlag} (triggers : other.hasTrigger = true) :
    (flag.union other).hasTrigger = true := by
  rw [InclusionFlag.hasTrigger_iff] at triggers ⊢
  intro none
  apply triggers
  have masked : (flag.bits.toBitVec ||| other.bits.toBitVec) &&& 7#8 = 0#8 := congrArg UInt8.toBitVec none
  have part : other.bits.toBitVec &&& 7#8 = 0#8 := by
    ext index bound
    have bit := congrArg (fun bits => bits.getLsbD index) masked
    simp only [BitVec.getLsbD_and, BitVec.getLsbD_or, BitVec.getLsbD_zero, BitVec.getElem_and,
      BitVec.getElem_zero] at bit ⊢
    grind
  exact UInt8.toBitVec_inj.mp part

/-- A trigger that can be recorded: it has a reason, and its member is one of the data set. -/
def TriggeredMember.Valid (dataset : Dataset) (member : TriggeredMember) : Prop :=
  member.flag.hasTrigger = true ∧ member.index < dataset.len

theorem triggeredSlots_valid (trgOps : TriggerOptions) (dataset : Dataset) (updates : List Update) :
    ∀ member ∈ triggeredSlots trgOps dataset updates, member.Valid dataset := by
  intro member listed
  obtain ⟨update, _, triggered⟩ := mem_flatMap.mp listed
  unfold Update.triggered at triggered
  dsimp only at triggered
  split at triggered
  · next reason =>
    obtain ⟨index, belongs, rfl⟩ := mem_map.mp triggered
    refine ⟨reason, ?_⟩
    exact mem_range.mp (mem_of_mem_filter belongs)
  · cases triggered

section Slots

variable {live : LiveValues} {dataset : Dataset} {batch : BatchValues} {members : List TriggeredMember}

theorem fillSlot_untouched {index : Nat} (untouched : ∀ member ∈ members, member.index ≠ index) (slot : MemberSlot) :
    fillSlot live dataset batch members index slot = slot := by
  have none : (members.filter fun member => member.index = index) = [] := by
    apply filter_eq_nil_iff.mpr
    intro member listed
    simpa using untouched member listed
  unfold fillSlot
  rw [none]
  split <;> rfl

theorem hasTrigger_fill {entry : DatasetEntry} {slot : MemberSlot} {member : TriggeredMember}
    (reason : member.flag.hasTrigger = true) :
    (TriggeredMember.fill live entry batch slot member).1.hasTrigger = true := by
  unfold TriggeredMember.fill
  split
  · exact reason
  · exact InclusionFlag.hasTrigger_union reason

theorem hasTrigger_fillSlot (valid : ∀ member ∈ members, member.Valid dataset) {member : TriggeredMember}
    (listed : member ∈ members) (slot : MemberSlot) :
    (fillSlot live dataset batch members member.index slot).1.hasTrigger = true := by
  have named : dataset.entry member.index = some (dataset.entries.get ⟨member.index, (valid member listed).2⟩) :=
    getElem?_eq_getElem _
  unfold fillSlot
  rw [named]
  dsimp only
  have here : member ∈ members.filter fun other => other.index = member.index := by simp [listed]
  obtain ⟨front, last, split⟩ : ∃ front last, (members.filter fun other => other.index = member.index) = front ++ [last] := by
    have some := ne_nil_of_mem here
    exact ⟨_, _, (dropLast_append_getLast some).symm⟩
  have lastListed : last ∈ members := by
    have inside : last ∈ members.filter fun other => other.index = member.index := by simp [split]
    exact mem_of_mem_filter inside
  rw [split, foldl_append]
  exact hasTrigger_fill (valid last lastListed).1

end Slots

namespace EnqueuedSnapshot

def slot (snapshot : EnqueuedSnapshot) (index : Nat) : Option MemberSlot :=
  slotAt snapshot.inclusionFlags snapshot.values index

def cell (snapshot : EnqueuedSnapshot) (index : Nat) : Option MemberSlot :=
  (snapshot.slot index).filter fun slot => slot.1.hasTrigger

/-- A snapshot as batches fill it: a slot for each member, blank where nothing triggered. -/
structure Filled (snapshot : EnqueuedSnapshot) (dataSetLen : Nat) : Prop where
  flags : snapshot.inclusionFlags.length = dataSetLen
  values : snapshot.values.length = dataSetLen
  blank : ∀ index slot, snapshot.slot index = some slot → slot.1.hasTrigger = false → slot = blankSlot

theorem slot_new (dataSetLen index : Nat) :
    (new dataSetLen).slot index = if index < dataSetLen then some blankSlot else none := by
  unfold slot slotAt new
  split <;> simp [*, blankSlot]

theorem filled_new (dataSetLen : Nat) : (new dataSetLen).Filled dataSetLen := by
  refine ⟨by simp [new], by simp [new], ?_⟩
  intro index slot found _
  rw [slot_new] at found
  split at found
  · exact (Option.some.inj found).symm
  · cases found

variable {live : LiveValues} {dataset : Dataset} {batch : BatchValues} {members : List TriggeredMember}
  {snapshot : EnqueuedSnapshot}

theorem slot_fill (index : Nat) : (snapshot.fill live dataset batch members).slot index =
      (snapshot.slot index).map (fillSlot live dataset batch members index) :=
  slotAt_fillMembers index

theorem Filled.slot_of_lt {dataSetLen index : Nat} (filled : snapshot.Filled dataSetLen) (inside : index < dataSetLen) :
    ∃ slot, snapshot.slot index = some slot := by
  have flag : index < snapshot.inclusionFlags.length := filled.flags.symm ▸ inside
  have value : index < snapshot.values.length := filled.values.symm ▸ inside
  exact ⟨(snapshot.inclusionFlags[index], snapshot.values[index]), by simp [slot, slotAt, flag, value]⟩

section

variable (filled : snapshot.Filled dataset.len) (valid : ∀ member ∈ members, member.Valid dataset)

include filled valid

theorem Filled.fill : (snapshot.fill live dataset batch members).Filled dataset.len := by
  refine ⟨fillMembers_lengths.1.trans filled.flags, fillMembers_lengths.2.trans filled.values, ?_⟩
  intro index slot found quiet
  rw [slot_fill] at found
  obtain ⟨before, held, rfl⟩ := Option.map_eq_some_iff.mp found
  by_cases touched : ∃ member ∈ members, member.index = index
  · obtain ⟨member, listed, rfl⟩ := touched
    rw [hasTrigger_fillSlot valid listed] at quiet
    cases quiet
  · have untouched : ∀ member ∈ members, member.index ≠ index := fun member listed same =>
      touched ⟨member, listed, same⟩
    rw [fillSlot_untouched untouched] at quiet ⊢
    exact filled.blank index before held quiet

/-- A batch that joins a window without triggering one of its members again leaves there what it
would leave in a window of its own, next to what the window holds. -/
theorem Filled.cell_fill (fresh : retriggers members snapshot.inclusionFlags = false) (index : Nat) :
    (snapshot.fill live dataset batch members).cell index =
      (((new dataset.len).fill live dataset batch members).cell index).or (snapshot.cell index) := by
  unfold cell
  rw [slot_fill, slot_fill, slot_new]
  by_cases touched : ∃ member ∈ members, member.index = index
  · obtain ⟨member, listed, rfl⟩ := touched
    have inside := (valid member listed).2
    obtain ⟨before, held⟩ := filled.slot_of_lt inside
    have quiet : before.1.hasTrigger = false := by
      have flag : snapshot.inclusionFlags[member.index]? = some before.1 := by
        obtain ⟨flag, flagged, rest⟩ := Option.bind_eq_some_iff.mp held
        obtain ⟨value, _, rfl⟩ := Option.map_eq_some_iff.mp rest
        exact flagged
      have all := any_eq_false.mp fresh member listed
      simpa [flag] using all
    have kept : (fillSlot live dataset batch members member.index blankSlot).1.hasTrigger = true :=
      hasTrigger_fillSlot valid listed blankSlot
    rw [held, filled.blank _ before held quiet, if_pos inside, Option.map_some,
      Option.filter_some_pos (p := fun slot : MemberSlot => slot.1.hasTrigger) kept, Option.some_or]
  · have untouched : ∀ member ∈ members, member.index ≠ index := fun member listed same =>
      touched ⟨member, listed, same⟩
    have same : fillSlot live dataset batch members index = id := funext fun slot => fillSlot_untouched untouched slot
    rw [same, Option.map_id_fun, id, id]
    split
    · rfl
    · rfl

end

end EnqueuedSnapshot

end Iec61850.Reporting
