import Iec61850.Concurrency.Machine
import Iec61850.Reporting.Snapshot
import Mathlib.Data.List.Forall2

/-!
The two backends of a report buffer behind their common interface. Both are compared with a queue
that keeps its entries in a list: the in-memory backend adds an index to it, the SQLite backend
stores every entry as a row.
-/

namespace Iec61850.Reporting

open Concurrency List InMemoryReportBuffer
open Model

structure ReportBufferBackend (σ : Type) where
  push : σ → ReportEntry → Bool × σ
  findEntry : σ → EntryId → Option ReportEntry
  seekToAfterEntryId : σ → EntryId → SeekResult
  purge : σ → Nat × σ
  isOverflow : σ → Bool
  clearOverflow : σ → σ
  markFormatted : σ → EntryId → σ
  setFormattedThrough : σ → Option EntryId → σ
  iterEntries : σ → List ReportEntry
  newestEntry : σ → Option ReportEntry
  iterFrom : σ → EntryId → List ReportEntry

def InMemoryReportBuffer.backend : ReportBufferBackend InMemoryReportBuffer where
  push := push
  findEntry := findEntry
  seekToAfterEntryId := seekToAfterEntryId
  purge := purge
  isOverflow := overflow
  clearOverflow := clearOverflow
  markFormatted := markFormatted
  setFormattedThrough := setFormattedThrough
  iterEntries := entries
  newestEntry := newestEntry
  iterFrom := iterFrom

def SqliteReportBuffer.backend : ReportBufferBackend SqliteReportBuffer where
  push := SqliteReportBuffer.push
  findEntry := SqliteReportBuffer.findEntry
  seekToAfterEntryId := SqliteReportBuffer.seekToAfterEntryId
  purge := SqliteReportBuffer.purge
  isOverflow := SqliteReportBuffer.overflow
  clearOverflow := SqliteReportBuffer.clearOverflow
  markFormatted := SqliteReportBuffer.markFormatted
  setFormattedThrough := SqliteReportBuffer.setFormattedThrough
  iterEntries := SqliteReportBuffer.iterEntries
  newestEntry := SqliteReportBuffer.newestEntry
  iterFrom := SqliteReportBuffer.iterFrom

inductive BackendCall where
  | push (entry : ReportEntry)
  | findEntry (id : EntryId)
  | seekToAfterEntryId (id : EntryId)
  | purge
  | clearOverflow
  | markFormatted (id : EntryId)
  | setFormattedThrough (id : Option EntryId)
  | iterEntries
  | newestEntry
  | iterFrom (after : EntryId)

inductive BackendAnswer where
  | done
  | pushed (lost : Bool)
  | purged (count : Nat)
  | found (entry : Option ReportEntry)
  | sought (result : SeekResult)
  | listed (entries : List ReportEntry)

def pushedEntries (calls : List BackendCall) : List ReportEntry :=
  calls.filterMap fun
    | .push entry => some entry
    | _ => none

theorem mem_pushedEntries_cons {call : BackendCall} {calls : List BackendCall} {entry : ReportEntry}
    (pushed : entry ∈ pushedEntries calls) : entry ∈ pushedEntries (call :: calls) := by
  unfold pushedEntries at pushed ⊢
  rw [filterMap_cons]
  split
  · exact pushed
  · exact mem_cons_of_mem _ pushed

def EntryIdsIncrease (calls : List BackendCall) : Prop :=
  (pushedEntries calls).Pairwise fun earlier later => earlier.entryId.asU64 < later.entryId.asU64

instance (calls : List BackendCall) : Decidable (EntryIdsIncrease calls) :=
  inferInstanceAs (Decidable ((pushedEntries calls).Pairwise _))

namespace ReportBufferBackend

variable {σ : Type} (backend : ReportBufferBackend σ)

def serve (state : σ) : BackendCall → BackendAnswer × σ
  | .push entry => (.pushed (backend.push state entry).1, (backend.push state entry).2)
  | .findEntry id => (.found (backend.findEntry state id), state)
  | .seekToAfterEntryId id => (.sought (backend.seekToAfterEntryId state id), state)
  | .purge => (.purged (backend.purge state).1, (backend.purge state).2)
  | .clearOverflow => (.done, backend.clearOverflow state)
  | .markFormatted id => (.done, backend.markFormatted state id)
  | .setFormattedThrough id => (.done, backend.setFormattedThrough state id)
  | .iterEntries => (.listed (backend.iterEntries state), state)
  | .newestEntry => (.found (backend.newestEntry state), state)
  | .iterFrom after => (.listed (backend.iterFrom state after), state)

/-- What a caller sees of one call: the answer and the overflow flag after it. -/
def observe (state : σ) (call : BackendCall) : (BackendAnswer × Bool) × σ :=
  (((backend.serve state call).1, backend.isOverflow (backend.serve state call).2), (backend.serve state call).2)

def observations (state : σ) (calls : List BackendCall) : List (BackendAnswer × Bool) :=
  Machine.answers backend.observe state calls

end ReportBufferBackend

structure ReportQueue where
  capacity : Nat
  strategy : OverflowStrategy
  entries : List ReportEntry
  overflow : Bool
  formattedThrough : Nat

namespace ReportQueue

def withStrategy (capacity : Nat) (strategy : OverflowStrategy) : ReportQueue where
  capacity
  strategy
  entries := []
  overflow := true
  formattedThrough := 0

variable (queue : ReportQueue)

/-- How many of the oldest entries have to go before one more fits. -/
def surplus : Nat := queue.entries.length + 1 - queue.capacity

def rejects : Bool := decide (queue.capacity ≤ queue.entries.length) && queue.strategy != .dropOldest

def lostUnformatted : Bool :=
  (queue.entries.take queue.surplus).any fun old => decide (queue.formattedThrough < old.entryId.asU64)

def push (entry : ReportEntry) : Bool × ReportQueue :=
  if queue.capacity = 0 then
    (false, queue)
  else if queue.rejects then
    (true, { queue with overflow := true })
  else
    (!(queue.entries.take queue.surplus).isEmpty,
      { queue with
        entries := queue.entries.drop queue.surplus ++ [entry]
        overflow := queue.overflow || queue.lostUnformatted })

def findEntry (id : EntryId) : Option ReportEntry := queue.entries.find? fun entry => entry.entryId = id

def seekIn (id : EntryId) : List ReportEntry → SeekResult
  | [] => .notFound
  | entry :: rest =>
    if entry.entryId = id then rest.head?.elim .foundLast .foundWithNext else seekIn id rest

def backend : ReportBufferBackend ReportQueue where
  push := push
  findEntry := findEntry
  seekToAfterEntryId := fun queue id => seekIn id queue.entries
  purge := fun queue => (queue.entries.length, { queue with entries := [] })
  isOverflow := overflow
  clearOverflow := fun queue => { queue with overflow := false }
  markFormatted := fun queue id => { queue with formattedThrough := max queue.formattedThrough id.asU64 }
  setFormattedThrough := fun queue id => { queue with formattedThrough := id.elim 0 EntryId.asU64 }
  iterEntries := entries
  newestEntry := fun queue => queue.entries.getLast?
  iterFrom := fun queue after => queue.entries.filter fun entry => decide (after.asU64 < entry.entryId.asU64)

/-- EntryIDs increase through the stored entries and on through those still to be pushed. -/
def Ordered (calls : List BackendCall) : Prop :=
  (queue.entries ++ pushedEntries calls).Pairwise fun earlier later => earlier.entryId.asU64 < later.entryId.asU64

variable {queue} {entry : ReportEntry} {call : BackendCall} {calls : List BackendCall}

theorem push_cases (queue : ReportQueue) (entry : ReportEntry) : (queue.push entry).2.entries = queue.entries ∨
      (queue.push entry).2.entries = queue.entries.drop queue.surplus ++ [entry] := by
  unfold push
  split
  · exact .inl rfl
  · split
    · exact .inl rfl
    · exact .inr rfl

theorem Ordered.serve (ordered : queue.Ordered (call :: calls)) : (backend.serve queue call).2.Ordered calls := by
  cases call with
  | push entry =>
    have before : (queue.entries ++ entry :: pushedEntries calls).Pairwise
      fun earlier later => earlier.entryId.asU64 < later.entryId.asU64 := ordered
    apply List.Pairwise.sublist _ before
    have after : (backend.serve queue (.push entry)).2.entries = (queue.push entry).2.entries := rfl
    rw [after]
    rcases push_cases queue entry with same | stored
    · rw [same]
      exact (List.Sublist.refl _).append (sublist_cons_self _ _)
    · rw [stored, append_assoc]
      exact (drop_sublist _ _).append (List.Sublist.refl _)
  | purge => exact List.Pairwise.sublist (sublist_append_right _ _) ordered
  | _ => exact ordered

theorem Ordered.later (ordered : queue.Ordered (.push entry :: calls)) {next : ReportEntry}
    (pushed : next ∈ pushedEntries calls) : entry.entryId.asU64 < next.entryId.asU64 :=
  (pairwise_cons.mp (pairwise_append.mp ordered).2.1).1 next pushed

theorem seekIn_eq (id : EntryId) (entries : List ReportEntry) :
    seekIn id entries = match entries.findIdx? fun entry => entry.entryId = id with
      | none => .notFound
      | some position =>
        match entries[position + 1]? with
        | some next => .foundWithNext next
        | none => .foundLast := by
  induction entries with
  | nil => rfl
  | cons entry rest ih =>
    by_cases same : entry.entryId = id
    · simp only [seekIn, findIdx?_cons, same, decide_true, if_true]
      cases rest <;> rfl
    · simp only [seekIn, findIdx?_cons, same, decide_false, ih]
      cases rest.findIdx? fun entry => entry.entryId = id <;> rfl

theorem Ordered.entries (ordered : queue.Ordered calls) :
    queue.entries.Pairwise fun earlier later => earlier.entryId.asU64 < later.entryId.asU64 :=
  (pairwise_append.mp ordered).1

end ReportQueue

namespace InMemoryReportBuffer

open ReportQueue

theorem evicted_eq_take (buffer : InMemoryReportBuffer) (entries : List ReportEntry) :
    buffer.evicted entries = entries.take (entries.length + 1 - buffer.capacity) := by
  induction entries with
  | nil => simp [evicted]
  | cons old rest ih =>
    unfold evicted
    split
    · next room =>
      rw [show (old :: rest).length + 1 - buffer.capacity = 0 by omega, take_zero]
    next full =>
    rw [length_cons] at full
    rw [ih, length_cons, show rest.length + 1 + 1 - buffer.capacity = rest.length + 1 - buffer.capacity + 1 by
      omega, take_succ_cons]

theorem kept_eq_drop (buffer : InMemoryReportBuffer) (entries : List ReportEntry) :
    buffer.kept entries = entries.drop (entries.length + 1 - buffer.capacity) := by
  have parts := buffer.evicted_append_kept entries
  rw [evicted_eq_take] at parts
  exact append_cancel_left (parts.trans (take_append_drop _ entries).symm)

theorem foldl_forget (gone : List ReportEntry) (entryIndex : EntryId → Option Nat) (id : EntryId) :
    gone.foldl forget entryIndex id = if ∃ old ∈ gone, old.entryId = id then none else entryIndex id := by
  induction gone generalizing entryIndex with
  | nil => simp
  | cons old rest ih =>
    rw [foldl_cons, ih]
    by_cases same : old.entryId = id
    · simp [forget, same]
    · simp [forget, same, Function.update_of_ne (Ne.symm same)]

theorem foldl_saturatingSucc (gone : List ReportEntry) (seq : Nat) (room : seq + gone.length ≤ 2 ^ 64 - 1) :
    gone.foldl (fun seq _ => saturatingSucc seq) seq = seq + gone.length := by
  induction gone generalizing seq with
  | nil => rfl
  | cons old rest ih =>
    rw [length_cons] at room
    have next : saturatingSucc seq = seq + 1 := Nat.min_eq_left (by omega)
    rw [foldl_cons, next, ih (seq + 1) (by omega), length_cons]
    omega

variable {buffer : InMemoryReportBuffer} {queue : ReportQueue} {call : BackendCall} {calls : List BackendCall}

/-- The index maps the EntryID of every stored entry, and no other, to the number of its place. -/
def Indexed (buffer : InMemoryReportBuffer) : Prop := ∀ id, buffer.entryIndex id =
  (buffer.entries.findIdx? fun entry => entry.entryId = id).map (buffer.frontSeq + ·)

theorem Indexed.findEntry (indexed : buffer.Indexed) (id : EntryId) :
    buffer.findEntry id = buffer.entries.find? fun entry => entry.entryId = id := by
  unfold InMemoryReportBuffer.findEntry
  rw [indexed]
  cases place : buffer.entries.findIdx? fun entry => entry.entryId = id with
  | none =>
    have absent := findIdx?_eq_none_iff.mp place
    symm
    apply find?_eq_none.mpr
    intro entry stored
    simp [absent entry stored]
  | some position =>
    obtain ⟨inside, found, earlier⟩ := findIdx?_eq_some_iff_getElem.mp place
    have here : buffer.entries.find? (fun entry => entry.entryId = id) = some buffer.entries[position] := by
      apply find?_eq_some_iff_getElem.mpr
      refine ⟨found, position, inside, rfl, ?_⟩
      intro before less
      simpa using earlier before less
    rw [here]
    simp [inside]

theorem Indexed.seekToAfterEntryId (indexed : buffer.Indexed) (id : EntryId) :
    buffer.seekToAfterEntryId id = seekIn id buffer.entries := by
  unfold InMemoryReportBuffer.seekToAfterEntryId
  rw [indexed, seekIn_eq]
  cases buffer.entries.findIdx? fun entry => entry.entryId = id with
  | none => rfl
  | some position =>
    simp only [Option.map_some, if_neg (Nat.not_lt.mpr (Nat.le_add_right _ _)), Nat.add_sub_cancel_left]
    split
    · next last => rw [getElem?_eq_none last]
    · next more => rw [getElem?_eq_getElem (Nat.not_le.mp more)]

theorem Indexed.store {entry : ReportEntry} (indexed : buffer.Indexed)
    (distinct : (buffer.entries ++ [entry]).Pairwise fun earlier later => earlier.entryId ≠ later.entryId)
    (numbers : buffer.nextSeq = buffer.frontSeq + buffer.entries.length) (room : buffer.nextSeq < 2 ^ 64) :
    (buffer.store entry).Indexed ∧
      (buffer.store entry).frontSeq + (buffer.store entry).entries.length = buffer.nextSeq + 1 := by
  have parts := buffer.evicted_append_kept buffer.entries
  have lengths := congrArg length parts
  rw [length_append] at lengths
  have front : (buffer.store entry).frontSeq = buffer.frontSeq + (buffer.evicted buffer.entries).length :=
    foldl_saturatingSucc _ _ (by omega)
  have entries : (buffer.store entry).entries = buffer.kept buffer.entries ++ [entry] := rfl
  rw [← parts, append_assoc] at distinct
  obtain ⟨_, after, apart⟩ := pairwise_append.mp distinct
  refine ⟨fun id => ?_, by rw [front, entries, length_append, length_singleton]; omega⟩
  rw [front, entries, findIdx?_append]
  by_cases same : entry.entryId = id
  · have absent : ((buffer.kept buffer.entries).findIdx? fun old => old.entryId = id) = none := by
      apply findIdx?_eq_none_iff.mpr
      intro old stored
      simpa [← same] using (pairwise_append.mp after).2.2 old stored entry mem_cons_self
    rw [absent]
    simp [InMemoryReportBuffer.store, numbers, same]
    omega
  · have behind : ([entry].findIdx? fun old => old.entryId = id) = none := by simp [same]
    rw [behind, Option.map_none, Option.or_none]
    simp only [InMemoryReportBuffer.store]
    rw [Function.update_of_ne (Ne.symm same), foldl_forget]
    split
    · next evicted =>
      obtain ⟨old, out, rfl⟩ := evicted
      have absent : ((buffer.kept buffer.entries).findIdx? fun other => other.entryId = old.entryId) = none := by
        apply findIdx?_eq_none_iff.mpr
        intro other stored
        simpa using (apart old out other (mem_append_left _ stored)).symm
      rw [absent]
      rfl
    · next stays =>
      have absent : ((buffer.evicted buffer.entries).findIdx? fun other => other.entryId = id) = none := by
        apply findIdx?_eq_none_iff.mpr
        intro other out
        simpa using fun equal => stays ⟨other, out, equal⟩
      have place := indexed id
      rw [← parts, findIdx?_append, absent, Option.none_or, Option.map_map] at place
      rw [place]
      congr 1
      funext position
      simp only [Function.comp]
      omega

/-- The buffer holds the entries of the queue and knows the position of each. The sequence numbers
have not run out as long as an entry is still to come: they are below its EntryID. -/
structure Holds (buffer : InMemoryReportBuffer) (queue : ReportQueue) (calls : List BackendCall) : Prop where
  capacity : buffer.capacity = queue.capacity
  strategy : buffer.strategy = queue.strategy
  entries : buffer.entries = queue.entries
  overflow : buffer.overflow = queue.overflow
  formattedThrough : buffer.formattedThrough = queue.formattedThrough
  indexed : ∀ id, buffer.entryIndex id =
    (queue.entries.findIdx? fun entry => entry.entryId = id).map (buffer.frontSeq + ·)
  numbered : ∀ entry ∈ pushedEntries calls,
    buffer.nextSeq = buffer.frontSeq + queue.entries.length ∧ buffer.nextSeq ≤ entry.entryId.asU64

theorem Holds.index (holds : buffer.Holds queue calls) : buffer.Indexed := by
  intro id
  rw [holds.entries]
  exact holds.indexed id

theorem Holds.store {entry : ReportEntry} (holds : buffer.Holds queue (.push entry :: calls))
    (ordered : queue.Ordered (.push entry :: calls)) : (buffer.store entry).Holds
      { queue with
        entries := queue.entries.drop queue.surplus ++ [entry]
        overflow := queue.overflow || queue.lostUnformatted } calls := by
  obtain ⟨numbers, below⟩ := holds.numbered entry mem_cons_self
  have word : entry.entryId.asU64 < 2 ^ 64 := entry.entryId.value.toNat_lt
  have gone : buffer.evicted buffer.entries = queue.entries.take queue.surplus := by
    rw [evicted_eq_take, holds.entries, holds.capacity]
    rfl
  have left : buffer.kept buffer.entries = queue.entries.drop queue.surplus := by
    rw [kept_eq_drop, holds.entries, holds.capacity]
    rfl
  have distinct : (buffer.entries ++ [entry]).Pairwise fun earlier later => earlier.entryId ≠ later.entryId := by
    rw [holds.entries]
    refine (ordered.sublist ((List.Sublist.refl _).append (singleton_sublist.mpr mem_cons_self))).imp ?_
    intro earlier later less same
    rw [same] at less
    exact Nat.lt_irrefl _ less
  obtain ⟨indexed, follows⟩ := holds.index.store distinct (holds.entries ▸ numbers) (by omega)
  have entries : (buffer.store entry).entries = queue.entries.drop queue.surplus ++ [entry] := by
    simp only [InMemoryReportBuffer.store, left]
  constructor
  · exact holds.capacity
  · exact holds.strategy
  · exact entries
  · simp only [InMemoryReportBuffer.store, InMemoryReportBuffer.lostUnformatted, gone, holds.overflow,
      holds.formattedThrough, ReportQueue.lostUnformatted]
  · exact holds.formattedThrough
  · exact entries ▸ indexed
  · intro later pushed
    have less := ordered.later pushed
    have laterWord : later.entryId.asU64 < 2 ^ 64 := later.entryId.value.toNat_lt
    have next : (buffer.store entry).nextSeq = buffer.nextSeq + 1 := Nat.min_eq_left (by omega)
    rw [entries] at follows
    exact ⟨next.trans follows.symm, by omega⟩

theorem Holds.push {entry : ReportEntry} (holds : buffer.Holds queue (.push entry :: calls))
    (ordered : queue.Ordered (.push entry :: calls)) :
    (buffer.push entry).1 = (queue.push entry).1 ∧ (buffer.push entry).2.Holds (queue.push entry).2 calls := by
  have later : ∀ next ∈ pushedEntries calls, buffer.nextSeq = buffer.frontSeq + queue.entries.length ∧
      buffer.nextSeq ≤ next.entryId.asU64 :=
    fun next pushed => holds.numbered next (mem_cons_of_mem entry pushed)
  have rejects : buffer.rejects = queue.rejects := by
    simp only [rejects, ReportQueue.rejects, holds.capacity, holds.entries, holds.strategy]
  have gone : buffer.evicted buffer.entries = queue.entries.take queue.surplus := by
    rw [evicted_eq_take, holds.entries, holds.capacity]
    rfl
  unfold InMemoryReportBuffer.push ReportQueue.push
  rw [rejects, gone]
  by_cases none : queue.capacity = 0
  · rw [if_pos none, if_pos (holds.capacity.trans none)]
    exact ⟨rfl, { holds with numbered := later }⟩
  rw [if_neg none, if_neg (holds.capacity ▸ none)]
  split
  · exact ⟨rfl, { holds with overflow := rfl, numbered := later }⟩
  · exact ⟨rfl, holds.store ordered⟩

theorem Holds.observe (holds : buffer.Holds queue (call :: calls)) (ordered : queue.Ordered (call :: calls)) :
    (backend.observe buffer call).1 = (ReportQueue.backend.observe queue call).1 ∧
      (backend.observe buffer call).2.Holds (ReportQueue.backend.observe queue call).2 calls := by
  have still : buffer.Holds queue calls :=
    { holds with numbered := fun next pushed => holds.numbered next (mem_pushedEntries_cons pushed) }
  have answered {answer partner : BackendAnswer} {after : InMemoryReportBuffer} {next : ReportQueue}
      (same : answer = partner) (holds : after.Holds next calls) :
      (answer, after.overflow) = (partner, next.overflow) ∧ after.Holds next calls :=
    ⟨by rw [same, holds.overflow], holds⟩
  cases call with
  | push entry => exact answered (congrArg _ (holds.push ordered).1) (holds.push ordered).2
  | findEntry id => exact answered (congrArg _ (holds.entries ▸ holds.index.findEntry id)) still
  | seekToAfterEntryId id => exact answered (congrArg _ (holds.entries ▸ holds.index.seekToAfterEntryId id)) still
  | purge =>
    have count : buffer.purge.1 = queue.entries.length := congrArg length holds.entries
    refine answered (congrArg _ count) ?_
    exact { still with
      entries := rfl, indexed := fun _ => rfl
      numbered := fun next pushed => ⟨rfl, (still.numbered next pushed).2⟩ }
  | clearOverflow => exact answered rfl { still with overflow := rfl }
  | markFormatted id =>
    exact answered rfl { still with formattedThrough := congrArg (max · id.asU64) holds.formattedThrough }
  | setFormattedThrough id => exact answered rfl { still with formattedThrough := rfl }
  | iterEntries => exact answered (congrArg _ holds.entries) still
  | newestEntry =>
    have newest : buffer.newestEntry = queue.entries.getLast? := congrArg getLast? holds.entries
    exact answered (congrArg _ newest) still
  | iterFrom after =>
    refine answered ?_ still
    change BackendAnswer.listed (buffer.iterFrom after) = _
    rw [iterFrom, holds.entries]
    rfl

theorem observations_eq_queue (capacity : Nat) (strategy : OverflowStrategy) {calls : List BackendCall}
    (increase : EntryIdsIncrease calls) : backend.observations (withStrategy capacity strategy) calls =
      ReportQueue.backend.observations (.withStrategy capacity strategy) calls := by
  apply Machine.answers_eq fun buffer queue calls => buffer.Holds queue calls ∧ queue.Ordered calls
  · intro buffer queue call calls related
    obtain ⟨same, holds⟩ := related.1.observe related.2
    exact ⟨same, holds, related.2.serve⟩
  · refine ⟨⟨rfl, rfl, rfl, rfl, rfl, fun _ => rfl, ?_⟩, increase⟩
    intro entry pushed
    exact ⟨rfl, Nat.zero_le _⟩

end InMemoryReportBuffer

namespace SqliteReportBuffer

open ReportQueue

structure Stores (buffer : SqliteReportBuffer) (queue : ReportQueue) : Prop where
  capacity : buffer.capacity = queue.capacity
  strategy : buffer.strategy = queue.strategy
  overflow : buffer.overflow = queue.overflow
  formattedThrough : buffer.formattedThrough = queue.formattedThrough
  rows : List.Forall₂ (fun row entry => rowToEntry row = some entry) buffer.rows queue.entries

variable {buffer : SqliteReportBuffer} {queue : ReportQueue} {call : BackendCall} {calls : List BackendCall}

variable {rows : List Row} {entries : List ReportEntry}

section

variable (read : List.Forall₂ (fun row entry => rowToEntry row = some entry) rows entries)

include read

theorem map_rowToEntry : rows.map rowToEntry = entries.map some := by
  induction read with
  | nil => rfl
  | cons head _ ih => rw [map_cons, map_cons, head, ih]

theorem map_entryId : rows.map (·.entryId) = entries.map (·.entryId) := by
  induction read with
  | nil => rfl
  | cons head _ ih => rw [map_cons, map_cons, rowToEntry_entryId head, ih]

end

section

variable (stores : buffer.Stores queue)

include stores

theorem Stores.iterEntries : buffer.iterEntries = queue.entries := by
  have read := congrArg (filterMap id) (map_rowToEntry stores.rows)
  rw [filterMap_map, filterMap_map, Function.id_comp, Function.id_comp, filterMap_some] at read
  exact read

theorem Stores.newestEntry : buffer.newestEntry = queue.entries.getLast? := by
  have last := congrArg getLast? (map_rowToEntry stores.rows)
  rw [getLast?_map, getLast?_map] at last
  unfold SqliteReportBuffer.newestEntry
  cases newest : buffer.rows.getLast? with
  | none =>
    rw [newest] at last
    exact (Option.map_eq_none_iff.mp last.symm).symm
  | some row =>
    rw [newest] at last
    obtain ⟨entry, found, read⟩ := Option.map_eq_some_iff.mp last.symm
    rw [found, read]
    rfl

theorem Stores.inEntryIdOrder (ordered : queue.Ordered calls) : InEntryIdOrder buffer.table := by
  have numbers : (queue.entries.map (·.entryId)).Pairwise fun earlier later => earlier.asU64 < later.asU64 :=
    pairwise_map.mpr ordered.entries
  rw [← map_entryId stores.rows] at numbers
  rwa [pairwise_map] at numbers

theorem Stores.iterFrom (ordered : queue.Ordered calls) (after : EntryId) :
    buffer.iterFrom after = queue.entries.filter fun entry => decide (after.asU64 < entry.entryId.asU64) := by
  rw [iterFrom_eq_filter_iterEntries (stores.inEntryIdOrder ordered), stores.iterEntries]

theorem Stores.findEntry (id : EntryId) : buffer.findEntry id = queue.findEntry id := by
  have read := stores.rows
  unfold SqliteReportBuffer.findEntry ReportQueue.findEntry
  generalize buffer.rows = rows at read ⊢
  generalize queue.entries = entries at read ⊢
  induction read with
  | nil => rfl
  | @cons row entry rows entries head _ ih =>
    have same := rowToEntry_entryId head
    by_cases found : row.entryId = id
    · rw [find?_cons_of_pos (by simpa using found), find?_cons_of_pos (by simpa [same] using found)]
      exact head
    · rw [find?_cons_of_neg (by simpa using found), find?_cons_of_neg (by simpa [same] using found)]
      exact ih

end

theorem seek_rows (read : List.Forall₂ (fun row entry => rowToEntry row = some entry) rows entries)
    (increasing : rows.Pairwise fun earlier later => earlier.seq < later.seq) (id : EntryId) :
    (match rows.find? fun row => row.entryId = id with
      | none => .notFound
      | some target =>
        match rows.find? fun row => target.seq < row.seq with
        | none => .foundLast
        | some next =>
          match rowToEntry next with
          | some entry => .foundWithNext entry
          | none => .foundLast : SeekResult) = seekIn id entries := by
  induction read with
  | nil => rfl
  | @cons row entry rows entries head tail ih =>
    obtain ⟨first, others⟩ := pairwise_cons.mp increasing
    have same := rowToEntry_entryId head
    by_cases found : row.entryId = id
    · have onward : ((row :: rows).find? fun other => row.seq < other.seq) = rows.head? := by
        rw [find?_cons_of_neg (by simp)]
        cases rows with
        | nil => rfl
        | cons next rest => exact find?_cons_of_pos (by simpa using first next mem_cons_self)
      rw [find?_cons_of_pos (by simpa using found), seekIn, if_pos (same.trans found)]
      dsimp only
      rw [onward]
      cases tail with
      | nil => rfl
      | cons nextRead _ => simp only [head?_cons, nextRead, Option.elim_some]
    · rw [find?_cons_of_neg (by simpa using found), seekIn, if_neg (same ▸ found), ← ih others]
      cases place : rows.find? fun row => row.entryId = id with
      | none => rfl
      | some target =>
        have less := first target (mem_of_find?_eq_some place)
        have onward : ((row :: rows).find? fun other => target.seq < other.seq) =
            rows.find? fun other => target.seq < other.seq :=
          find?_cons_of_neg (by simpa using Nat.le_of_lt less)
        dsimp only
        rw [onward]

theorem Stores.push {entry : ReportEntry} (stores : buffer.Stores queue)
    (restored : ∀ seq, rowToEntry (.ofEntry seq entry) = some entry) :
    (buffer.push entry).1 = (queue.push entry).1 ∧ (buffer.push entry).2.Stores (queue.push entry).2 := by
  have length : buffer.rows.length = queue.entries.length := stores.rows.length_eq
  have rejects : buffer.rejects = queue.rejects := by
    simp only [SqliteReportBuffer.rejects, ReportQueue.rejects, stores.capacity, length, stores.strategy]
  have rounds : buffer.evictions = queue.surplus := by
    simp only [evictions, surplus, length, stores.capacity]
  have gone := map_entryId (forall₂_take queue.surplus stores.rows)
  have empty : (buffer.rows.take queue.surplus).isEmpty = (queue.entries.take queue.surplus).isEmpty := by
    have lengths := congrArg List.length gone
    rw [length_map, length_map] at lengths
    rw [Bool.eq_iff_iff, isEmpty_iff_length_eq_zero, isEmpty_iff_length_eq_zero, lengths]
  have lost : ((buffer.rows.take queue.surplus).any fun old => decide (buffer.formattedThrough < old.entryId.asU64)) =
      queue.lostUnformatted := by
    have ids := congrArg (any · fun id => decide (queue.formattedThrough < id.asU64)) gone
    simp only [any_map] at ids
    rw [stores.formattedThrough]
    exact ids
  unfold SqliteReportBuffer.push ReportQueue.push
  by_cases none : queue.capacity = 0
  · rw [if_pos none, if_pos (stores.capacity.trans none)]
    exact ⟨rfl, stores⟩
  rw [if_neg none, if_neg (stores.capacity ▸ none), rejects]
  split
  · exact ⟨rfl, { stores with overflow := rfl }⟩
  simp only [rounds, empty, lost]
  refine ⟨trivial, { stores with overflow := ?_, rows := ?_ }⟩
  · rw [stores.overflow]
  · exact rel_append (forall₂_drop queue.surplus stores.rows) (.cons (restored _) .nil)

theorem Stores.observe (stores : buffer.Stores queue) (ordered : queue.Ordered (call :: calls))
    (restored : ∀ entry ∈ pushedEntries (call :: calls), ∀ seq, rowToEntry (.ofEntry seq entry) = some entry) :
    (backend.observe buffer call).1 = (ReportQueue.backend.observe queue call).1 ∧
      (backend.observe buffer call).2.Stores (ReportQueue.backend.observe queue call).2 := by
  have answered {answer partner : BackendAnswer} {after : SqliteReportBuffer} {next : ReportQueue}
      (same : answer = partner) (stores : after.Stores next) :
      (answer, after.overflow) = (partner, next.overflow) ∧ after.Stores next :=
    ⟨by rw [same, stores.overflow], stores⟩
  cases call with
  | push entry =>
    obtain ⟨lost, next⟩ := stores.push (restored entry mem_cons_self)
    exact answered (congrArg _ lost) next
  | findEntry id => exact answered (congrArg _ (stores.findEntry id)) stores
  | seekToAfterEntryId id =>
    exact answered (congrArg _ (seek_rows stores.rows buffer.table.increasing id)) stores
  | purge => exact answered (congrArg _ stores.rows.length_eq) { stores with rows := .nil }
  | clearOverflow => exact answered rfl { stores with overflow := rfl }
  | markFormatted id =>
    exact answered rfl { stores with formattedThrough := congrArg (max · id.asU64) stores.formattedThrough }
  | setFormattedThrough id => exact answered rfl { stores with formattedThrough := rfl }
  | iterEntries => exact answered (congrArg _ stores.iterEntries) stores
  | newestEntry => exact answered (congrArg _ stores.newestEntry) stores
  | iterFrom after => exact answered (congrArg _ (stores.iterFrom ordered after)) stores

theorem observations_eq_queue (capacity : Nat) (strategy : OverflowStrategy) {calls : List BackendCall}
    (increase : EntryIdsIncrease calls)
    (restored : ∀ entry ∈ pushedEntries calls, ∀ seq, rowToEntry (.ofEntry seq entry) = some entry) :
    backend.observations (opened .empty capacity strategy) calls =
      ReportQueue.backend.observations (.withStrategy capacity strategy) calls := by
  apply Machine.answers_eq fun buffer queue calls => buffer.Stores queue ∧ queue.Ordered calls ∧
    ∀ entry ∈ pushedEntries calls, ∀ seq, rowToEntry (.ofEntry seq entry) = some entry
  · intro buffer queue call calls related
    obtain ⟨stores, ordered, restored⟩ := related
    obtain ⟨same, next⟩ := stores.observe ordered restored
    exact ⟨same, next, ordered.serve, fun entry pushed => restored entry (mem_pushedEntries_cons pushed)⟩
  · exact ⟨⟨rfl, rfl, rfl, rfl, .nil⟩, increase, restored⟩

end SqliteReportBuffer

theorem restored_of_newestEntry {entry : ReportEntry}
    (same : SqliteReportBuffer.backend.observations (.opened .empty 1 .dropOldest) [.push entry, .newestEntry] =
      backend.observations (.withStrategy 1 .dropOldest) [.push entry, .newestEntry]) :
    rowToEntry (.ofEntry 1 entry) = some entry := by
  have seen : [(BackendAnswer.pushed false, true), (.found (rowToEntry (.ofEntry 1 entry)), true)] =
      [(BackendAnswer.pushed false, true), (.found (some entry), true)] := same
  simpa only [cons.injEq, Prod.mk.injEq, BackendAnswer.found.injEq, and_true, true_and] using seen

/-- Both backends answer every sequence of calls alike, with the same overflow flag after each, if
and only if all entries that may be pushed are restorable. -/
theorem backends_agree_iff_restorable (pushable : ReportEntry → Prop)
    (limits : ∀ entry, pushable entry → entry.WithinLimits) :
    (∀ (capacity : Nat) (strategy : OverflowStrategy) (calls : List BackendCall), EntryIdsIncrease calls →
        (∀ entry ∈ pushedEntries calls, pushable entry) →
        SqliteReportBuffer.backend.observations (.opened .empty capacity strategy) calls =
          backend.observations (.withStrategy capacity strategy) calls) ↔
      ∀ entry, pushable entry → entry.Restorable := by
  constructor
  · intro agree entry mayPush
    have increase : EntryIdsIncrease [.push entry, .newestEntry] := pairwise_singleton _ _
    have same := agree 1 .dropOldest [.push entry, .newestEntry] increase (by
      intro pushed member
      rw [mem_singleton.mp member]
      exact mayPush)
    exact (rowToEntry_ofEntry_iff (limits entry mayPush) 1).mp (restored_of_newestEntry same)
  · intro restorable capacity strategy calls increase pushed
    have restored (entry : ReportEntry) (member : entry ∈ pushedEntries calls) (seq : Nat) :
        rowToEntry (.ofEntry seq entry) = some entry :=
      (rowToEntry_ofEntry_iff (limits entry (pushed entry member)) seq).mpr (restorable entry (pushed entry member))
    rw [SqliteReportBuffer.observations_eq_queue capacity strategy increase restored,
      observations_eq_queue capacity strategy increase]

variable (ms : UInt64) (first second : UInt8)

def qualityEntry : ReportEntry where
  entryId := .fromMs ms
  timeOfEntryMs := ms
  isIntegrity := false
  isGi := false
  encodedPayload := []
  snapshot := some
    { inclusionFlags := [.qualityChanged], values := [some (.bitString 3 [first, second])], dataSetLen := 1 }

theorem qualityEntry_withinLimits : (qualityEntry ms first second).WithinLimits := by
  intro snapshot carried value stored
  cases carried
  have quality : value = .bitString 3 [first, second] := by simpa using stored
  subst quality
  constructor
  · exact Nat.zero_le _
  · rw [Mms.MmsData.encode_length]
    have size : 1 + Mms.lengthSize (1 + 2) + (1 + 2) ≤ 1 + 3 + 65535 := by decide
    exact size

theorem qualityEntry_restorable_iff : (qualityEntry ms first second).Restorable ↔ second.toNat % 8 = 0 := by
  constructor
  · intro restorable
    have quality := (restorable _ rfl).2.values (.bitString 3 [first, second]) mem_cons_self
    exact quality.2.2 second rfl
  · intro clear snapshot carried
    cases carried
    refine ⟨rfl, ⟨rfl, rfl, by simp, ?_⟩⟩
    intro value stored
    have quality : value = .bitString 3 [first, second] := by simpa using stored
    subst quality
    refine ⟨by decide, by simp, ?_⟩
    intro last same
    cases same
    exact clear

theorem backends_agree_on_two_qualities : SqliteReportBuffer.backend.observations (.opened .empty 1 .dropOldest)
        [.push (qualityEntry 10 0x40 0x00), .push (qualityEntry 12 0x00 0x08),
          .seekToAfterEntryId (.fromMs 10), .iterEntries] =
      backend.observations (.withStrategy 1 .dropOldest)
        [.push (qualityEntry 10 0x40 0x00), .push (qualityEntry 12 0x00 0x08), .seekToAfterEntryId (.fromMs 10),
          .iterEntries] := by
  refine (backends_agree_iff_restorable
    (fun entry => entry = qualityEntry 10 0x40 0x00 ∨ entry = qualityEntry 12 0x00 0x08) ?_).mpr ?_
    1 .dropOldest _ ?_ ?_
  · rintro entry (rfl | rfl)
    · exact qualityEntry_withinLimits _ _ _
    · exact qualityEntry_withinLimits _ _ _
  · rintro entry (rfl | rfl)
    · exact (qualityEntry_restorable_iff _ _ _).mpr rfl
    · exact (qualityEntry_restorable_iff _ _ _).mpr rfl
  · decide
  · intro entry pushed
    simpa [pushedEntries] using pushed

/-- The unused bits of a quality come back cleared from the table, and as they were from memory. -/
theorem unused_bits_cleared_in_table : (qualityEntry 10 0x40 0x07).WithinLimits ∧
      EntryIdsIncrease [.push (qualityEntry 10 0x40 0x07), .newestEntry] ∧
      SqliteReportBuffer.backend.observations (.opened .empty 1 .dropOldest)
          [.push (qualityEntry 10 0x40 0x07), .newestEntry] ≠
        backend.observations (.withStrategy 1 .dropOldest)
          [.push (qualityEntry 10 0x40 0x07), .newestEntry] := by
  have limits := qualityEntry_withinLimits 10 0x40 0x07
  refine ⟨limits, by decide, ?_⟩
  intro same
  have restorable := (rowToEntry_ofEntry_iff limits 1).mp (restored_of_newestEntry same)
  exact absurd ((qualityEntry_restorable_iff 10 0x40 0x07).mp restorable) (by decide)

end Iec61850.Reporting
