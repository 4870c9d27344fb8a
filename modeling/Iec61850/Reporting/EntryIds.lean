import Iec61850.Reporting.Brcb

/-!
The EntryIDs that one BRCB allocates over its life, from whatever clock readings.
-/

namespace Iec61850.Reporting

open BrcbState (saturatingSucc64)

namespace BrcbState

def allocateEntryIds (state : BrcbState) : List UInt64 → List EntryId × BrcbState
  | [] => ([], state)
  | nowMs :: rest =>
    let (id, state) := state.allocateEntryId nowMs
    let (ids, state) := state.allocateEntryIds rest
    (id :: ids, state)

end BrcbState

theorem toNat_saturatingSucc64 (value : UInt64) :
    (saturatingSucc64 value).toNat = min (value.toNat + 1) (2 ^ 64 - 1) := by
  have bound := value.toNat_lt
  unfold saturatingSucc64
  split
  · rename_i full
    subst full
    rfl
  · rename_i room
    have other : value.toNat ≠ 2 ^ 64 - 1 := fun full => room (UInt64.toNat_inj.mp full)
    rw [UInt64.toNat_add, show (1 : UInt64).toNat = 1 from rfl]
    omega

theorem toNat_max (left right : UInt64) : (max left right).toNat = max left.toNat right.toNat := by
  have unfolded : max left right = if left ≤ right then right else left := rfl
  rw [unfolded]
  split
  · next below => exact (Nat.max_eq_right (UInt64.le_iff_toNat_le.mp below)).symm
  · next above => exact (Nat.max_eq_left (Nat.le_of_not_le fun le => above (UInt64.le_iff_toNat_le.mpr le))).symm

theorem asU64_allocateEntryId (state : BrcbState) (nowMs : UInt64) : (state.allocateEntryId nowMs).1.asU64 =
      if state.lastEntryIdMs.toNat = 0 then nowMs.toNat
      else max nowMs.toNat (min (state.lastEntryIdMs.toNat + 1) (2 ^ 64 - 1)) := by
  have fresh : state.lastEntryIdMs = 0 ↔ state.lastEntryIdMs.toNat = 0 := by
    rw [← UInt64.toNat_inj]
    rfl
  simp only [BrcbState.allocateEntryId, EntryId.fromMs, EntryId.asU64, fresh]
  split
  · rfl
  · rw [toNat_max, toNat_saturatingSucc64]

/-- The identifiers rise strictly, and none of them is the one that stands for the head of the
buffer. -/
structure Rising (ids : List EntryId) : Prop where
  strict : (ids.map EntryId.asU64).Pairwise (· < ·)
  nonzero : EntryId.zero ∉ ids

theorem rising_cons {id : EntryId} {ids : List EntryId} :
    Rising (id :: ids) ↔ id.asU64 ≠ 0 ∧ (∀ next ∈ ids.head?, id.asU64 < next.asU64) ∧ Rising ids := by
  have zero : EntryId.zero = id ↔ id.asU64 = 0 := by
    constructor
    · rintro rfl
      rfl
    · intro none
      exact EntryId.asU64_injective none.symm
  constructor
  · rintro ⟨strict, nonzero⟩
    rw [List.map_cons, List.pairwise_cons] at strict
    rw [List.mem_cons, not_or, zero] at nonzero
    refine ⟨nonzero.1, ?_, strict.2, nonzero.2⟩
    intro next head
    exact strict.1 _ (List.mem_map_of_mem (List.mem_of_mem_head? head))
  · rintro ⟨some, above, strict, nonzero⟩
    refine ⟨?_, by rw [List.mem_cons, not_or, zero]; exact ⟨some, nonzero⟩⟩
    rw [List.map_cons, List.pairwise_cons]
    refine ⟨?_, strict⟩
    intro later listed
    cases ids with
    | nil => cases listed
    | cons next rest =>
      have first := above next rfl
      rw [List.map_cons, List.pairwise_cons] at strict
      rw [List.map_cons, List.mem_cons] at listed
      rcases listed with rfl | listed
      · exact first
      · exact Nat.lt_trans first (strict.1 later listed)

/-- Each reading leaves room in the word for the identifiers behind it. -/
def RoomBehind (readings : List UInt64) : Prop :=
  ∀ index reading, readings[index]? = some reading → reading.toNat + (readings.length - 1 - index) < 2 ^ 64

theorem roomBehind_cons {nowMs : UInt64} {rest : List UInt64} :
    RoomBehind (nowMs :: rest) ↔ nowMs.toNat + rest.length < 2 ^ 64 ∧ RoomBehind rest := by
  constructor
  · intro room
    refine ⟨room 0 nowMs rfl, ?_⟩
    intro index reading found
    have behind := room (index + 1) reading found
    rw [List.length_cons] at behind
    omega
  · rintro ⟨first, room⟩ index reading found
    rw [List.length_cons]
    cases index with
    | zero =>
      cases found
      exact first
    | succ index =>
      have behind := room index reading found
      omega

theorem lt_head_allocateEntryIds_iff {state : BrcbState} (started : state.lastEntryIdMs.toNat ≠ 0)
    (readings : List UInt64) :
    (∀ next ∈ (state.allocateEntryIds readings).1.head?, state.lastEntryIdMs.toNat < next.asU64) ↔
      (1 ≤ readings.length → state.lastEntryIdMs.toNat + 1 < 2 ^ 64) := by
  cases readings with
  | nil => simp [BrcbState.allocateEntryIds]
  | cons nowMs rest =>
    have bound := nowMs.toNat_lt
    have value := asU64_allocateEntryId state nowMs
    rw [if_neg started] at value
    have head : (state.allocateEntryIds (nowMs :: rest)).1.head? = some (state.allocateEntryId nowMs).1 := rfl
    rw [head, List.length_cons]
    constructor
    · intro above _
      have less := above _ rfl
      omega
    · intro room next found
      cases found
      have less := room (by omega)
      omega

/-- The identifiers of a BRCB rise strictly from above zero exactly if its very first clock reading
is not zero and the readings keep far enough below the end of the word. -/
theorem rising_allocateEntryIds_iff (state : BrcbState) (readings : List UInt64) :
    Rising (state.allocateEntryIds readings).1 ↔
      (state.lastEntryIdMs = 0 → readings.head? ≠ some 0) ∧
      (2 ≤ readings.length → state.lastEntryIdMs.toNat + readings.length < 2 ^ 64) ∧ RoomBehind readings := by
  induction readings generalizing state with
  | nil => exact iff_of_true ⟨.nil, by simp [BrcbState.allocateEntryIds]⟩ ⟨by simp, by simp, by simp [RoomBehind]⟩
  | cons nowMs rest ih =>
    have bound := state.lastEntryIdMs.toNat_lt
    have reading := nowMs.toNat_lt
    have value := asU64_allocateEntryId state nowMs
    have fresh : state.lastEntryIdMs = 0 ↔ state.lastEntryIdMs.toNat = 0 := by
      rw [← UInt64.toNat_inj]
      rfl
    have first : (nowMs :: rest).head? ≠ some 0 ↔ nowMs.toNat ≠ 0 := by
      rw [List.head?_cons, ne_eq, Option.some.injEq, ← UInt64.toNat_inj]
      rfl
    have ids : (state.allocateEntryIds (nowMs :: rest)).1 =
        (state.allocateEntryId nowMs).1 :: ((state.allocateEntryId nowMs).2.allocateEntryIds rest).1 := rfl
    have last : (state.allocateEntryId nowMs).2.lastEntryIdMs.toNat = (state.allocateEntryId nowMs).1.asU64 := rfl
    rw [ids, rising_cons, ih, roomBehind_cons, fresh, first, List.length_cons, ← last]
    rw [← last] at value
    constructor
    · rintro ⟨started, above, _, room, behind⟩
      have further := (lt_head_allocateEntryIds_iff started rest).mp above
      split at value
      · exact ⟨fun _ => by omega, fun _ => by omega, by omega, behind⟩
      · exact ⟨fun none => by omega, fun _ => by omega, by omega, behind⟩
    · rintro ⟨start, room, further, behind⟩
      have started : (state.allocateEntryId nowMs).2.lastEntryIdMs.toNat ≠ 0 := by
        split at value <;> omega
      refine ⟨started, (lt_head_allocateEntryIds_iff started rest).mpr ?_, ?_, ?_, behind⟩
      · intro some
        split at value <;> omega
      · intro none
        rw [none] at started
        exact absurd rfl started
      · intro some
        split at value <;> omega

def freshBrcb : Brcb where
  name := "brcb01"
  rptId := "brcb01"
  datasetName := "LLN0$ds1"
  confRev := 1
  trgOps := ⟨0⟩
  optFlds := ⟨0⟩
  bufTmMs := 0
  intgPdMs := 0
  bufferCapacity := 200
  clientReservation := none
  withResvTms := false
  withOwner := false

/-- A zero reading is the first identifier, time and again; and the last identifier of the word is
repeated. -/
theorem entry_ids_repeated : ((BrcbState.fromBrcb freshBrcb).allocateEntryIds [0, 0]).1 = [EntryId.zero, EntryId.zero] ∧
      ((BrcbState.fromBrcb freshBrcb).allocateEntryIds [0xffffffffffffffff, 5]).1 =
        [⟨0xffffffffffffffff⟩, ⟨0xffffffffffffffff⟩] := by
  decide

end Iec61850.Reporting
