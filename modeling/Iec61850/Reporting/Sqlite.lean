import Iec61850.Mms.RoundTrip
import Iec61850.Reporting.Buffer
import Iec61850.Service.Convert
import Mathlib.Data.List.Pairwise
import Mathlib.Data.List.Sort

/-!
The report buffer kept in a SQLite table, which outlives the process: the rows of one control block
in the order of their sequence numbers, the snapshot column, and the queries of the backend. SQLite
itself is taken to answer its statements on that table as documented.
-/

namespace Iec61850.Reporting

open List Mms
open Service
open Wire

def snapshotFormat : UInt8 := 1

theorem EntryId.toBytes_lt_toBytes_iff {left right : EntryId} :
    left.toBytes < right.toBytes ↔ left.asU64 < right.asU64 := by
  have number (id : EntryId) : ofBytes id.toBytes = id.asU64 := ofBytes_bigEndian64 id.value
  rw [← number, ← number]
  exact lt_iff_ofBytes_lt rfl

def encodeSnapshotMember (flag : InclusionFlag) : Option Model.MmsValue → List UInt8
  | some value => [flag.bits, 1] ++ (Service.mmsValueToMmsData value).encode
  | none => [flag.bits, 0]

def encodeSnapshot (snapshot : EnqueuedSnapshot) : List UInt8 :=
  [snapshotFormat] ++ bigEndian32 (UInt32.ofNat (min snapshot.dataSetLen 0xffffffff))
    ++ (range snapshot.dataSetLen).flatMap fun index =>
      encodeSnapshotMember (snapshot.inclusionFlags.getD index .none) (snapshot.values.getD index none)

def decodeSnapshotMember : List UInt8 → Option ((InclusionFlag × Option Model.MmsValue) × List UInt8)
  | flag :: 0 :: rest => some ((⟨flag⟩, none), rest)
  | flag :: 1 :: rest =>
    match MmsData.decode rest with
    | .ok (data, used) => some ((⟨flag⟩, some (mmsDataToMmsValue data)), rest.drop used)
    | .error _ => none
  | _ => none

def decodeSnapshotMembers : Nat → List UInt8 → Option (List (InclusionFlag × Option Model.MmsValue) × List UInt8)
  | 0, rest => some ([], rest)
  | count + 1, data => do
      let (member, rest) ← decodeSnapshotMember data
      let (members, rest) ← decodeSnapshotMembers count rest
      return (member :: members, rest)

def decodeSnapshot (bytes : List UInt8) : Option EnqueuedSnapshot :=
  match bytes with
  | [] => none
  | format :: rest =>
    if format ≠ snapshotFormat ∨ rest.length < 4 then
      none
    else
      let dataSetLen := ofBytes (rest.take 4)
      match decodeSnapshotMembers dataSetLen (rest.drop 4) with
      | some (members, []) =>
        some { inclusionFlags := members.map (·.1), values := members.map (·.2), dataSetLen }
      -- octets are left over
      | some (_, _ :: _) => none
      | none => none

/-- A row of `report_entries`; its EntryID column holds the eight octets of `entryId`. -/
structure Row where
  seq : Nat
  entryId : EntryId
  timeOfEntryMs : Int64
  isIntegrity : Int32
  isGi : Int32
  payload : List UInt8
  snapshot : Option (List UInt8)
  deriving DecidableEq, Repr

def Row.ofEntry (seq : Nat) (entry : ReportEntry) : Row where
  seq
  entryId := entry.entryId
  timeOfEntryMs := entry.timeOfEntryMs.toInt64
  isIntegrity := if entry.isIntegrity then 1 else 0
  isGi := if entry.isGi then 1 else 0
  payload := entry.encodedPayload
  snapshot := entry.snapshot.map encodeSnapshot

/-- The entry a row is read back as; `none` when its snapshot cannot be decoded. -/
def rowToEntry (row : Row) : Option ReportEntry :=
  let entry (encodedPayload : List UInt8) (snapshot : Option EnqueuedSnapshot) : ReportEntry :=
    { entryId := row.entryId, timeOfEntryMs := row.timeOfEntryMs.toUInt64
      isIntegrity := row.isIntegrity != 0, isGi := row.isGi != 0, encodedPayload, snapshot }
  match row.snapshot with
  | some blob => (decodeSnapshot blob).map fun snapshot => entry [] (some snapshot)
  -- a row written before the snapshot column existed
  | none => some (entry row.payload none)

theorem rowToEntry_entryId {row : Row} {entry : ReportEntry} (read : rowToEntry row = some entry) :
    entry.entryId = row.entryId := by
  unfold rowToEntry at read
  cases blob : row.snapshot with
  | none =>
    rw [blob] at read
    cases read
    rfl
  | some bytes =>
    rw [blob] at read
    obtain ⟨snapshot, _, rfl⟩ := Option.map_eq_some_iff.mp read
    rfl

/-- The rows of one control block, numbered in the order of their insertion by a counter that never
goes back. -/
structure ReportEntries where
  rows : List Row
  nextSeq : Nat
  increasing : rows.Pairwise fun earlier later => earlier.seq < later.seq
  assigned : ∀ row ∈ rows, row.seq < nextSeq

namespace ReportEntries

def empty : ReportEntries where
  rows := []
  nextSeq := 1
  increasing := .nil
  assigned := by simp

variable (table : ReportEntries)

def insert (entry : ReportEntry) : ReportEntries where
  rows := table.rows ++ [.ofEntry table.nextSeq entry]
  nextSeq := table.nextSeq + 1
  increasing := by
    apply pairwise_append.mpr
    refine ⟨table.increasing, pairwise_singleton _ _, ?_⟩
    intro earlier stored later inserted
    rw [mem_singleton.mp inserted]
    exact table.assigned earlier stored
  assigned := by
    intro row stored
    rcases mem_append.mp stored with old | inserted
    · exact Nat.lt_succ_of_lt (table.assigned row old)
    · rw [mem_singleton.mp inserted]
      exact Nat.lt_succ_self _

def deleteOldest (count : Nat) : ReportEntries where
  rows := table.rows.drop count
  nextSeq := table.nextSeq
  increasing := table.increasing.sublist (drop_sublist _ _)
  assigned := fun row stored => table.assigned row (mem_of_mem_drop stored)

def deleteAll : ReportEntries where
  rows := []
  nextSeq := table.nextSeq
  increasing := .nil
  assigned := by simp

end ReportEntries

structure SqliteReportBuffer where
  table : ReportEntries
  capacity : Nat
  strategy : OverflowStrategy
  overflow : Bool
  formattedThrough : Nat

namespace SqliteReportBuffer

/-- Opening a database changes none of its rows; the mark of what has been formatted is not kept in
it. -/
def opened (table : ReportEntries) (capacity : Nat) (strategy : OverflowStrategy) : SqliteReportBuffer where
  table
  capacity
  strategy
  overflow := true
  formattedThrough := 0

variable (buffer : SqliteReportBuffer)

abbrev rows : List Row := buffer.table.rows

/-- The rounds of the eviction loop: one row each until fewer than `capacity` are left. -/
def evictions : Nat := buffer.rows.length + 1 - buffer.capacity

def rejects : Bool := decide (buffer.capacity ≤ buffer.rows.length) && buffer.strategy != .dropOldest

def push (entry : ReportEntry) : Bool × SqliteReportBuffer :=
  if buffer.capacity = 0 then
    (false, buffer)
  else if buffer.rejects then
    (true, { buffer with overflow := true })
  else
    let gone := buffer.rows.take buffer.evictions
    let lostUnformatted := gone.any fun old => decide (buffer.formattedThrough < old.entryId.asU64)
    (!gone.isEmpty,
      { buffer with
        table := (buffer.table.deleteOldest buffer.evictions).insert entry
        overflow := buffer.overflow || lostUnformatted })

def findEntry (id : EntryId) : Option ReportEntry :=
  (buffer.rows.find? fun row => row.entryId = id).bind rowToEntry

def seekToAfterEntryId (id : EntryId) : SeekResult :=
  match buffer.rows.find? fun row => row.entryId = id with
  | none => .notFound
  | some target =>
    match buffer.rows.find? fun row => target.seq < row.seq with
    | none => .foundLast
    | some next =>
      match rowToEntry next with
      | some entry => .foundWithNext entry
      -- the next row cannot be read, but the target exists
      | none => .foundLast

def purge : Nat × SqliteReportBuffer := (buffer.rows.length, { buffer with table := buffer.table.deleteAll })

def clearOverflow : SqliteReportBuffer := { buffer with overflow := false }

def markFormatted (id : EntryId) : SqliteReportBuffer :=
  { buffer with formattedThrough := max buffer.formattedThrough id.asU64 }

def setFormattedThrough (id : Option EntryId) : SqliteReportBuffer :=
  { buffer with formattedThrough := id.elim 0 EntryId.asU64 }

/-- `ORDER BY seq`. -/
def iterEntries : List ReportEntry := buffer.rows.filterMap rowToEntry

def newestEntry : Option ReportEntry := buffer.rows.getLast?.bind rowToEntry

/-- `WHERE entry_id > ? ORDER BY entry_id`: the column is compared octet by octet. -/
def iterFrom (after : EntryId) : List ReportEntry :=
  ((buffer.rows.filter fun row => after.toBytes < row.entryId.toBytes).insertionSort
    fun row other => row.entryId.toBytes ≤ other.entryId.toBytes).filterMap rowToEntry

def InEntryIdOrder (table : ReportEntries) : Prop :=
  table.rows.Pairwise fun earlier later => earlier.entryId.asU64 < later.entryId.asU64

instance (table : ReportEntries) : Decidable (InEntryIdOrder table) :=
  inferInstanceAs (Decidable (table.rows.Pairwise _))

variable {buffer}

theorem iterFrom_of_inEntryIdOrder (inOrder : InEntryIdOrder buffer.table) (after : EntryId) : buffer.iterFrom after =
      (buffer.rows.filter fun row => after.asU64 < row.entryId.asU64).filterMap rowToEntry := by
  have chosen : (buffer.rows.filter fun row => after.toBytes < row.entryId.toBytes) =
      buffer.rows.filter fun row => after.asU64 < row.entryId.asU64 := by
    apply filter_congr
    intro row _
    simp only [EntryId.toBytes_lt_toBytes_iff]
  have sorted : (buffer.rows.filter fun row => after.asU64 < row.entryId.asU64).Pairwise
      fun row other => row.entryId.toBytes ≤ other.entryId.toBytes := by
    apply (List.Pairwise.filter _ inOrder).imp
    intro earlier later less
    exact List.le_of_lt (EntryId.toBytes_lt_toBytes_iff.mpr less)
  unfold iterFrom
  rw [chosen, sorted.insertionSort_eq]

theorem iterFrom_eq_filter_iterEntries (inOrder : InEntryIdOrder buffer.table) (after : EntryId) :
    buffer.iterFrom after = buffer.iterEntries.filter fun entry => after.asU64 < entry.entryId.asU64 := by
  rw [iterFrom_of_inEntryIdOrder inOrder]
  unfold iterEntries
  induction buffer.rows with
  | nil => rfl
  | cons row rest ih =>
    cases read : rowToEntry row with
    | none =>
      rw [filterMap_cons_none read, ← ih, filter_cons]
      split
      · rw [filterMap_cons_none read]
      · rfl
    | some entry =>
      rw [filterMap_cons_some read, filter_cons, filter_cons, rowToEntry_entryId read]
      split
      · rw [filterMap_cons_some read, ih]
      · exact ih

theorem entryId_lt_iff_seq_lt {entries : ReportEntries} (inOrder : InEntryIdOrder entries) {row other : Row}
    (stored : row ∈ entries.rows) (otherStored : other ∈ entries.rows) :
    row.entryId.asU64 < other.entryId.asU64 ↔ row.seq < other.seq := by
  have both := inOrder.and entries.increasing
  apply List.Pairwise.forall_of_forall_of_flip (R := fun row other =>
    row.entryId.asU64 < other.entryId.asU64 ↔ row.seq < other.seq) _ _ _ stored otherStored
  · intro row _
    simp
  · apply both.imp
    intro earlier later less
    omega
  · apply both.imp
    intro earlier later less
    simp only [flip]
    omega

end SqliteReportBuffer

end Iec61850.Reporting
