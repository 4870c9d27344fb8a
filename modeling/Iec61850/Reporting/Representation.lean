import Iec61850.Reporting.Backend
import Mathlib.Data.List.Range

/-!
The in-memory buffer keeps its representation: the queue, the index from EntryID to sequence number
and the two counters stay aligned over every sequence of calls that pushes pairwise distinct
EntryIDs.
-/

namespace Iec61850.Reporting.InMemoryReportBuffer

open List ReportQueue

def pushedIds (calls : List BackendCall) : List EntryId := (pushedEntries calls).map (·.entryId)

variable {capacity : Nat} {buffer : InMemoryReportBuffer} {pushed : List EntryId}

def served (buffer : InMemoryReportBuffer) (calls : List BackendCall) : InMemoryReportBuffer :=
  calls.foldl (fun buffer call => (backend.serve buffer call).2) buffer

theorem length_le_of_nodup (distinct : pushed.Nodup) : pushed.length ≤ 2 ^ 64 := by
  have numbers : (pushed.map (·.asU64)).Nodup := distinct.map fun _ _ => EntryId.asU64_injective
  have inside : pushed.map (·.asU64) ⊆ range (2 ^ 64) := by
    intro number listed
    obtain ⟨id, _, rfl⟩ := mem_map.mp listed
    exact mem_range.mpr id.value.toNat_lt
  have shorter := (subperm_of_subset numbers inside).length_le
  rwa [length_map, length_range] at shorter

/-- The queue, the index and the counters are aligned after the pushes. The last of all EntryIDs
still gets its number, but the counter stays on it. -/
structure Represents (capacity : Nat) (pushed : List EntryId) (buffer : InMemoryReportBuffer) : Prop where
  configured : buffer.capacity = capacity
  bounded : buffer.entries.length ≤ capacity
  indexed : buffer.Indexed
  distinct : buffer.entries.Pairwise fun earlier later => earlier.entryId ≠ later.entryId
  known : ∀ entry ∈ buffer.entries, entry.entryId ∈ pushed
  counted : buffer.nextSeq ≤ pushed.length
  numbered : pushed.length < 2 ^ 64 → buffer.nextSeq = buffer.frontSeq + buffer.entries.length

theorem Represents.store {entry : ReportEntry} (represents : Represents capacity pushed buffer) (some : capacity ≠ 0)
    (distinct : (pushed ++ [entry.entryId]).Nodup) :
    Represents capacity (pushed ++ [entry.entryId]) (buffer.store entry) := by
  have fresh : entry.entryId ∉ pushed := fun old => (nodup_append.mp distinct).2.2 _ old _ mem_cons_self rfl
  have room := length_le_of_nodup distinct
  rw [length_append, length_singleton] at room
  have apart : (buffer.entries ++ [entry]).Pairwise fun earlier later => earlier.entryId ≠ later.entryId := by
    refine pairwise_append.mpr ⟨represents.distinct, pairwise_singleton _ _, ?_⟩
    intro old stored last here same
    rw [mem_singleton.mp here] at same
    exact fresh (same ▸ represents.known old stored)
  have counted := represents.counted
  obtain ⟨indexed, follows⟩ := represents.indexed.store apart (represents.numbered (by omega)) (by omega)
  have next : (buffer.store entry).nextSeq = min (buffer.nextSeq + 1) (2 ^ 64 - 1) := rfl
  have entries : (buffer.store entry).entries =
      (buffer.entries ++ [entry]).drop (buffer.entries.length + 1 - capacity) := by
    rw [drop_append_of_le_length (by omega), ← represents.configured, ← kept_eq_drop]
    rfl
  constructor
  · exact represents.configured
  · rw [entries, length_drop, length_append, length_singleton]
    omega
  · exact indexed
  · exact entries ▸ apart.sublist (drop_sublist _ _)
  · intro old stored
    rw [entries] at stored
    rcases mem_append.mp (mem_of_mem_drop stored) with earlier | last
    · exact mem_append_left _ (represents.known old earlier)
    · exact mem_append_right _ (mem_singleton.mp last ▸ mem_cons_self)
  · rw [next, length_append, length_singleton]
    omega
  · intro few
    rw [length_append, length_singleton] at few
    omega

theorem Represents.unstored (represents : Represents capacity pushed buffer) (id : EntryId) :
    Represents capacity (pushed ++ [id]) buffer := by
  refine { represents with known := ?_, counted := ?_, numbered := ?_ }
  · intro entry stored
    exact mem_append_left _ (represents.known entry stored)
  · rw [length_append]
    exact Nat.le_add_right_of_le represents.counted
  · intro few
    rw [length_append] at few
    exact represents.numbered (by omega)

theorem Represents.serve {call : BackendCall} (represents : Represents capacity pushed buffer)
    (distinct : (pushed ++ pushedIds [call]).Nodup) :
    Represents capacity (pushed ++ pushedIds [call]) (backend.serve buffer call).2 := by
  cases call with
  | push entry =>
    change Represents capacity (pushed ++ [entry.entryId]) (buffer.push entry).2
    unfold push
    split
    · exact represents.unstored entry.entryId
    next some =>
    split
    · exact { represents.unstored entry.entryId with }
    · exact represents.store (represents.configured ▸ some) distinct
  | purge =>
    rw [show pushedIds [.purge] = [] from rfl, append_nil]
    exact { represents with
      bounded := Nat.zero_le _, indexed := fun _ => rfl, distinct := .nil, known := nofun, numbered := fun _ => rfl }
  | _ =>
    rw [show pushedIds [_] = [] from rfl, append_nil]
    exact { represents with }

theorem Represents.served {calls : List BackendCall} (represents : Represents capacity pushed buffer)
    (distinct : (pushed ++ pushedIds calls).Nodup) :
    Represents capacity (pushed ++ pushedIds calls) (buffer.served calls) := by
  induction calls generalizing buffer pushed with
  | nil => rwa [show pushedIds [] = [] from rfl, append_nil]
  | cons call rest ih =>
    have parts : pushedIds (call :: rest) = pushedIds [call] ++ pushedIds rest := by
      unfold pushedIds pushedEntries
      rw [← map_append, ← filterMap_append, singleton_append]
    rw [parts, ← append_assoc] at distinct ⊢
    exact ih (represents.serve (nodup_append.mp distinct).1) distinct

theorem Represents.entryIndex_iff (represents : Represents capacity pushed buffer) {id : EntryId} {seq : Nat} :
    buffer.entryIndex id = some seq ↔ ∃ position entry, buffer.entries[position]? = some entry ∧ entry.entryId = id ∧
      seq = buffer.frontSeq + position := by
  rw [represents.indexed, Option.map_eq_some_iff]
  constructor
  · rintro ⟨position, place, rfl⟩
    obtain ⟨inside, found, _⟩ := findIdx?_eq_some_iff_getElem.mp place
    exact ⟨position, buffer.entries[position], getElem?_eq_getElem inside, of_decide_eq_true found, rfl⟩
  · rintro ⟨position, entry, here, rfl, rfl⟩
    obtain ⟨inside, rfl⟩ := List.getElem?_eq_some_iff.mp here
    refine ⟨position, findIdx?_eq_some_iff_getElem.mpr ⟨inside, decide_eq_true rfl, ?_⟩, rfl⟩
    intro before less
    simpa using pairwise_iff_getElem.mp represents.distinct before position (less.trans inside) inside less

theorem Indexed.notFound_iff (indexed : buffer.Indexed) (id : EntryId) :
    buffer.seekToAfterEntryId id = .notFound ↔ buffer.entryIndex id = none := by
  rw [indexed.seekToAfterEntryId, seekIn_eq, indexed]
  cases buffer.entries.findIdx? fun entry => entry.entryId = id with
  | none => simp
  | some position =>
    simp only [Option.map_some, reduceCtorEq, iff_false]
    split <;> simp

theorem representation_kept (capacity : Nat) (strategy : OverflowStrategy) (calls : List BackendCall)
    (distinct : (pushedIds calls).Nodup) :
    let buffer := (withStrategy capacity strategy).served calls
    buffer.entries.length ≤ capacity ∧
      (∀ id seq, buffer.entryIndex id = some seq ↔ ∃ position entry, buffer.entries[position]? = some entry ∧
        entry.entryId = id ∧ seq = buffer.frontSeq + position) ∧
      ((pushedIds calls).length < 2 ^ 64 → buffer.nextSeq = buffer.frontSeq + buffer.entries.length) ∧
      ∀ id, buffer.findEntry id = buffer.entries.find? (fun entry => entry.entryId = id) ∧
        buffer.seekToAfterEntryId id = seekIn id buffer.entries ∧
        (buffer.seekToAfterEntryId id = .notFound ↔ buffer.entryIndex id = none) := by
  intro buffer
  have initial : Represents capacity [] (withStrategy capacity strategy) :=
    ⟨rfl, Nat.zero_le _, fun _ => rfl, .nil, nofun, Nat.le_refl _, fun _ => rfl⟩
  have represents : Represents capacity (pushedIds calls) buffer := initial.served distinct
  refine ⟨represents.bounded, fun _ _ => represents.entryIndex_iff, represents.numbered, fun id => ?_⟩
  exact ⟨represents.indexed.findEntry id, represents.indexed.seekToAfterEntryId id, represents.indexed.notFound_iff id⟩

theorem representation_after_eviction :
    let calls := [.push (qualityEntry 12 0 0), .push (qualityEntry 10 0 0)]
    let buffer := (withStrategy 1 .dropOldest).served calls
    (pushedIds calls).Nodup ∧ buffer.nextSeq = buffer.frontSeq + buffer.entries.length ∧
      (buffer.seekToAfterEntryId (.fromMs 12) = .notFound ↔ buffer.entryIndex (.fromMs 12) = none) := by
  obtain ⟨_, _, numbered, answers⟩ := representation_kept 1 .dropOldest
    [.push (qualityEntry 12 0 0), .push (qualityEntry 10 0 0)] (by decide)
  exact ⟨by decide, numbered (by decide), (answers (.fromMs 12)).2.2⟩

def firstPushes (count : Nat) : List BackendCall :=
  (range count).map fun number => .push (qualityEntry (.ofNat number) 0 0)

theorem firstPushes_distinct {count : Nat} (enough : count ≤ 2 ^ 64) : (pushedIds (firstPushes count)).Nodup := by
  have ids : pushedIds (firstPushes count) = (range count).map fun number => .fromMs (.ofNat number) := by
    rw [pushedIds, pushedEntries, firstPushes, filterMap_map, map_filterMap]
    exact congrFun filterMap_eq_map _
  rw [ids]
  refine nodup_range.map_on ?_
  intro left low right high same
  have equal := congrArg EntryId.asU64 same
  rw [mem_range] at low high
  simp only [EntryId.asU64, EntryId.fromMs, UInt64.toNat_ofNat'] at equal
  omega

theorem served_firstPushes {count : Nat} (enough : count < 2 ^ 64) :
    let buffer := (withStrategy 1 .dropOldest).served (firstPushes (count + 1))
    buffer.capacity = 1 ∧ buffer.strategy = .dropOldest ∧ buffer.entries.length = 1 ∧
      buffer.frontSeq = count ∧ buffer.nextSeq = min (count + 1) (2 ^ 64 - 1) := by
  induction count with
  | zero => exact ⟨rfl, rfl, rfl, rfl, rfl⟩
  | succ count ih =>
    obtain ⟨capacity, strategy, single, front, next⟩ := ih (by omega)
    intro buffer
    have last : buffer = (((withStrategy 1 .dropOldest).served (firstPushes (count + 1))).push
        (qualityEntry (.ofNat (count + 1)) 0 0)).2 := by
      unfold buffer served firstPushes
      rw [range_succ, map_append, foldl_append]
      rfl
    rw [last]
    generalize (withStrategy 1 .dropOldest).served (firstPushes (count + 1)) =
      earlier at capacity strategy single front next
    obtain ⟨old, only⟩ := length_eq_one_iff.mp single
    simp [push, rejects, store, evicted, kept, saturatingSucc, capacity, strategy, only, front, next]
    omega

/-- After the last of all EntryIDs the counter is one short of the end of the queue. -/
theorem counter_short_after_every_id : (pushedIds (firstPushes (2 ^ 64))).Nodup ∧
    let buffer := (withStrategy 1 .dropOldest).served (firstPushes (2 ^ 64))
    buffer.nextSeq ≠ buffer.frontSeq + buffer.entries.length := by
  refine ⟨firstPushes_distinct (Nat.le_refl _), ?_⟩
  have counters := @served_firstPushes (2 ^ 64 - 1) (by omega)
  rw [Nat.sub_add_cancel (by omega)] at counters
  obtain ⟨_, _, single, front, next⟩ := counters
  dsimp only
  rw [single, front, next]
  omega

end Iec61850.Reporting.InMemoryReportBuffer
