import Iec61850.Model.Value
import Iec61850.Reporting.Flags
import Mathlib.Data.List.Basic
import Mathlib.Logic.Function.Basic

/-!
The report buffer behind a buffered report control block: a bounded queue of entries, an index from
EntryID to sequence number, and the bookkeeping that decides whether a lost entry has to be
announced as an overflow.
-/

namespace Iec61850.Reporting

open Model

inductive OverflowStrategy where
  | dropOldest
  | dropNewest
  | reject
  deriving DecidableEq, Repr, Inhabited

/-- The eight-byte EntryID. The wire form is big-endian, so the identifier and its number determine
each other. -/
structure EntryId where
  value : UInt64
  deriving DecidableEq, Repr, Inhabited

namespace EntryId

def zero : EntryId := ⟨0⟩

def fromMs (ms : UInt64) : EntryId := ⟨ms⟩

def fromBytes (bytes : List UInt8) : EntryId :=
  ⟨bytes.foldl (fun number byte => number * 256 + byte.toUInt64) 0⟩

def asU64 (id : EntryId) : Nat := id.value.toNat

def isZero (id : EntryId) : Bool := id.value == 0

def toBytes (id : EntryId) : List UInt8 :=
  ([56, 48, 40, 32, 24, 16, 8, 0] : List UInt64).map fun shift => (id.value >>> shift).toUInt8

@[simp] theorem asU64_zero : zero.asU64 = 0 := rfl

theorem asU64_injective {left right : EntryId} (same : left.asU64 = right.asU64) : left = right := by
  cases left
  cases right
  simpa [asU64, UInt64.toNat_inj] using same

theorem isZero_iff {id : EntryId} : id.isZero = true ↔ id = zero := by
  cases id
  simp [isZero, zero]

end EntryId

structure EnqueuedSnapshot where
  inclusionFlags : List InclusionFlag
  values : List (Option MmsValue)
  dataSetLen : Nat
  deriving Inhabited

def EnqueuedSnapshot.new (dsLen : Nat) : EnqueuedSnapshot :=
  { inclusionFlags := List.replicate dsLen .none, values := List.replicate dsLen none, dataSetLen := dsLen }

structure ReportEntry where
  entryId : EntryId
  timeOfEntryMs : UInt64
  isIntegrity : Bool
  isGi : Bool
  encodedPayload : List UInt8
  snapshot : Option EnqueuedSnapshot
  deriving Inhabited

inductive SeekResult where
  | foundWithNext (next : ReportEntry)
  | foundLast
  | notFound

def saturatingSucc (counter : Nat) : Nat := min (counter + 1) (2 ^ 64 - 1)

structure InMemoryReportBuffer where
  capacity : Nat
  entries : List ReportEntry
  entryIndex : EntryId → Option Nat
  nextSeq : Nat
  frontSeq : Nat
  enqueueCount : Nat
  overflow : Bool
  formattedThrough : Nat
  strategy : OverflowStrategy

namespace InMemoryReportBuffer

def withStrategy (capacity : Nat) (strategy : OverflowStrategy) : InMemoryReportBuffer where
  capacity
  entries := []
  entryIndex := fun _ => none
  nextSeq := 0
  frontSeq := 0
  enqueueCount := 0
  -- a report buffer starts with isOverflow set
  overflow := true
  formattedThrough := 0
  strategy

variable (buffer : InMemoryReportBuffer)

/-- The entries the eviction loop of `push` takes from the front until there is room for one
more. -/
def evicted : List ReportEntry → List ReportEntry
  | [] => []
  | old :: rest => if (old :: rest).length < buffer.capacity then [] else old :: evicted rest

def kept : List ReportEntry → List ReportEntry
  | [] => []
  | old :: rest => if (old :: rest).length < buffer.capacity then old :: rest else kept rest

theorem evicted_append_kept (entries : List ReportEntry) : buffer.evicted entries ++ buffer.kept entries = entries := by
  induction entries with
  | nil => rfl
  | cons old rest ih =>
    unfold evicted kept
    split
    · rfl
    · rw [List.cons_append, ih]

variable (index : EntryId → Option Nat) (old entry : ReportEntry) (after id : EntryId)

def forget : EntryId → Option Nat :=
  Function.update index old.entryId none

def lostUnformatted : Bool :=
  (buffer.evicted buffer.entries).any fun old => decide (buffer.formattedThrough < old.entryId.asU64)

/-- The store path of `push`: the buffer was not full, or the loop has made room in it. -/
def store : InMemoryReportBuffer :=
  let gone := buffer.evicted buffer.entries
  { buffer with
    entries := buffer.kept buffer.entries ++ [entry]
    entryIndex := Function.update (gone.foldl forget buffer.entryIndex) entry.entryId (some buffer.nextSeq)
    frontSeq := gone.foldl (fun seq _ => saturatingSucc seq) buffer.frontSeq
    nextSeq := saturatingSucc buffer.nextSeq
    enqueueCount := saturatingSucc buffer.enqueueCount
    overflow := buffer.overflow || buffer.lostUnformatted }

def rejects : Bool :=
  decide (buffer.capacity ≤ buffer.entries.length) && buffer.strategy != .dropOldest

def push : Bool × InMemoryReportBuffer :=
  if buffer.capacity = 0 then
    (false, buffer)
  else if buffer.rejects then
    (true, { buffer with overflow := true })
  else
    (!(buffer.evicted buffer.entries).isEmpty, buffer.store entry)

def findEntry : Option ReportEntry := do
  let seq ← buffer.entryIndex id
  if seq < buffer.frontSeq then none else buffer.entries[seq - buffer.frontSeq]?

def seekToAfterEntryId : SeekResult :=
  match buffer.entryIndex id with
  | none => .notFound
  | some seq =>
    if seq < buffer.frontSeq then
      .notFound
    else if buffer.entries.length ≤ seq - buffer.frontSeq + 1 then
      .foundLast
    else
      match buffer.entries[seq - buffer.frontSeq + 1]? with
      | some next => .foundWithNext next
      | none => .notFound

def purge : Nat × InMemoryReportBuffer :=
  (buffer.entries.length,
    { buffer with entries := [], entryIndex := fun _ => none, frontSeq := buffer.nextSeq })

def clearOverflow : InMemoryReportBuffer := { buffer with overflow := false }

def markFormatted : InMemoryReportBuffer :=
  { buffer with formattedThrough := max buffer.formattedThrough id.asU64 }

def setFormattedThrough (id : Option EntryId) : InMemoryReportBuffer :=
  { buffer with formattedThrough := id.elim 0 EntryId.asU64 }

def newestEntry : Option ReportEntry := buffer.entries.getLast?

def iterFrom : List ReportEntry :=
  buffer.entries.filter fun entry => decide (after.asU64 < entry.entryId.asU64)

end InMemoryReportBuffer

end Iec61850.Reporting
