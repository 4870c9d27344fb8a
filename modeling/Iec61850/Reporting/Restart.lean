import Iec61850.Reporting.EntryIds
import Iec61850.Reporting.Sqlite

/-!
A buffered report control block whose buffer outlives the process. The block itself is built anew at
every start, so the last EntryID it assigned is forgotten while the rows that carry the earlier ones
are still there.
-/

namespace Iec61850.Reporting

open List SqliteReportBuffer BrcbState

structure PersistentControl where
  mmsPath : String
  brcb : Brcb
  state : BrcbState
  reportBuffer : SqliteReportBuffer

inductive EntryContent where
  | payload (encoded : List UInt8)
  | snapshot (values : EnqueuedSnapshot)

def EntryContent.toEntry (content : EntryContent) (entryId : EntryId) (nowMs : UInt64) (isIntegrity isGi : Bool) :
    ReportEntry :=
  match content with
  | .payload encodedPayload =>
    { entryId, timeOfEntryMs := nowMs, isIntegrity, isGi, encodedPayload, snapshot := none }
  | .snapshot values =>
    { entryId, timeOfEntryMs := nowMs, isIntegrity, isGi, encodedPayload := [], snapshot := some values }

@[simp] theorem EntryContent.toEntry_entryId (content : EntryContent) (entryId : EntryId) (nowMs : UInt64)
    (isIntegrity isGi : Bool) : (content.toEntry entryId nowMs isIntegrity isGi).entryId = entryId := by
  cases content <;> rfl

namespace PersistentControl

def withBackend (mmsPath : String) (brcb : Brcb) (backend : SqliteReportBuffer) : PersistentControl where
  mmsPath
  brcb
  state := { fromBrcb brcb with datSet := qualifiedDatSet mmsPath brcb.datasetName }
  reportBuffer := backend

variable (control : PersistentControl)

abbrev rows : List Row := control.reportBuffer.rows

def enqueue (nowMs : UInt64) (isIntegrity isGi : Bool) (content : EntryContent) : PersistentControl :=
  let allocated := control.state.allocateEntryId nowMs
  let pushed := control.reportBuffer.push (content.toEntry allocated.1 nowMs isIntegrity isGi)
  { control with state := allocated.2.onEnqueue, reportBuffer := pushed.2 }

def runPurgeBufProcedure : PersistentControl :=
  { control with
    state := { control.state with lastSentEntryId := .zero, lastSentTimeOfEntryMs := 0 }
    reportBuffer := (control.reportBuffer.setFormattedThrough none).purge.2 }

def applyEntryIdWrite (id : EntryId) : Except ApplyEntryIdError Unit × PersistentControl :=
  let seek := if id.isZero then none else some (control.reportBuffer.seekToAfterEntryId id)
  let applied := control.state.resynchronize id seek
  (applied.1,
    { control with
      state := applied.2
      reportBuffer :=
        if applied.1.isOk then control.reportBuffer.setFormattedThrough (if id.isZero then none else some id)
        else control.reportBuffer })

def entriesAtAnchor : List ReportEntry :=
  match control.state.transmitAnchor with
  | .none => []
  | .fromHead => control.reportBuffer.iterEntries
  | .afterEntryId after => control.reportBuffer.iterFrom after
  | .waitingForNext => control.reportBuffer.iterFrom control.state.lastCommittedEntryId

/-- What happens to the block and to its rows. The engine lock is held across each of these. -/
inductive Step where
  | enqueue (nowMs : UInt64) (isIntegrity isGi : Bool) (content : EntryContent)
  /-- A purge discarded the events after their entry had got its identifier. -/
  | discard (nowMs : UInt64)
  | purge
  /-- Everything else the block does leaves the rows and the last identifier assigned alone. -/
  | other (state : BrcbState) (overflow : Bool) (formattedThrough : Nat)
  | restart (mmsPath : String) (brcb : Brcb) (capacity : Nat) (strategy : OverflowStrategy)

namespace Step

def clockReading : Step → Option UInt64
  | .enqueue nowMs _ _ _ => some nowMs
  | .discard nowMs => some nowMs
  | .purge => none
  | .other _ _ _ => none
  | .restart _ _ _ _ => none

def isEnqueue : Step → Bool
  | .enqueue _ _ _ _ => true
  | .discard _ => false
  | .purge => false
  | .other _ _ _ => false
  | .restart _ _ _ _ => false

end Step

def step : Step → PersistentControl
  | .enqueue nowMs isIntegrity isGi content => control.enqueue nowMs isIntegrity isGi content
  | .discard nowMs => { control with state := (control.state.allocateEntryId nowMs).2 }
  | .purge => control.runPurgeBufProcedure
  | .other state overflow formattedThrough =>
    { control with
      state := { state with lastEntryIdMs := control.state.lastEntryIdMs }
      reportBuffer := { control.reportBuffer with overflow, formattedThrough } }
  | .restart mmsPath brcb capacity strategy =>
    withBackend mmsPath brcb (.opened control.reportBuffer.table capacity strategy)

def run (steps : List Step) : PersistentControl := steps.foldl step control

/-- The first reading after a start is past every EntryID in the table, and the identifiers have not
run out. -/
def ClockAhead (next : Step) : Prop :=
  ∀ nowMs ∈ next.clockReading,
    if control.state.lastEntryIdMs = 0 then
      0 < nowMs.toNat ∧ ∀ row ∈ control.rows, row.entryId.asU64 < nowMs.toNat
    else
      control.state.lastEntryIdMs.toNat < 2 ^ 64 - 1

instance (next : Step) : Decidable (control.ClockAhead next) :=
  Option.decidableForallMem _

def AheadThroughout : PersistentControl → List Step → Prop
  | _, [] => True
  | control, next :: later => control.ClockAhead next ∧ AheadThroughout (control.step next) later

/-- What the EntryIDs are for: an identifier assigned is greater than all that are stored, the two
listings have one order, and a client that resynchronises on a stored EntryID finds at its anchor
what was stored after it, whatever is enqueued meanwhile. -/
structure KeepsOrder (later : List Step) : Prop where
  assigned : ∀ next ∈ later.head?, ∀ nowMs ∈ next.clockReading, ∀ row ∈ control.rows,
    row.entryId.asU64 < (control.state.allocateEntryId nowMs).1.asU64
  listed : ∀ after, control.reportBuffer.iterFrom after =
    control.reportBuffer.iterEntries.filter fun entry => after.asU64 < entry.entryId.asU64
  resumed : ∀ row ∈ control.rows, control.reportBuffer.iterFrom row.entryId =
    (control.rows.filter fun other => row.seq < other.seq).filterMap rowToEntry
  received : control.state.rptEna = false → ∀ row ∈ control.rows,
    ∃ resynced, control.applyEntryIdWrite row.entryId = (.ok (), resynced) ∧
      ∀ enqueues, enqueues <+: later → (∀ next ∈ enqueues, next.isEnqueue = true) →
        ∀ other ∈ (resynced.run enqueues).rows, row.seq < other.seq →
          ∀ entry ∈ rowToEntry other, entry ∈ (resynced.run enqueues).entriesAtAnchor

variable {control}

variable {next : Step} {nowMs : UInt64} {entry : ReportEntry} {isIntegrity isGi : Bool} {content : EntryContent}
  {row : Row} {later enqueues : List Step} {left right : PersistentControl}

theorem lastEntryIdMs_lt_allocated (ahead : control.ClockAhead next) (reading : nowMs ∈ next.clockReading) :
    control.state.lastEntryIdMs.toNat < (control.state.allocateEntryId nowMs).1.asU64 := by
  have met := ahead nowMs reading
  have value := asU64_allocateEntryId control.state nowMs
  split at met
  · next fresh =>
    have none : control.state.lastEntryIdMs.toNat = 0 := by rw [fresh]; rfl
    rw [if_pos none] at value
    omega
  · next started =>
    have some : control.state.lastEntryIdMs.toNat ≠ 0 := fun none => started (UInt64.toNat_inj.mp none)
    rw [if_neg some] at value
    omega

/-- The rows are in EntryID order, and after the first assignment none of them is past the last
identifier. -/
structure Tidy (control : PersistentControl) : Prop where
  inOrder : InEntryIdOrder control.reportBuffer.table
  bounded : control.state.lastEntryIdMs ≠ 0 →
    ∀ row ∈ control.rows, row.entryId.asU64 ≤ control.state.lastEntryIdMs.toNat

theorem Tidy.lt_allocated (tidy : control.Tidy) (ahead : control.ClockAhead next)
    (reading : nowMs ∈ next.clockReading) :
    ∀ row ∈ control.rows, row.entryId.asU64 < (control.state.allocateEntryId nowMs).1.asU64 := by
  intro row stored
  by_cases fresh : control.state.lastEntryIdMs = 0
  · have met := ahead nowMs reading
    rw [if_pos fresh] at met
    simp only [allocateEntryId, if_pos fresh]
    exact met.2 row stored
  · exact Nat.lt_of_le_of_lt (tidy.bounded fresh row stored) (lastEntryIdMs_lt_allocated ahead reading)

theorem onEnqueue_lastEntryIdMs (state : BrcbState) : state.onEnqueue.lastEntryIdMs = state.lastEntryIdMs := by
  unfold onEnqueue
  split <;> rfl

theorem push_table (buffer : SqliteReportBuffer) (entry : ReportEntry) : (buffer.push entry).2.table = buffer.table ∨
      ∃ count, (buffer.push entry).2.table = (buffer.table.deleteOldest count).insert entry := by
  unfold push
  split
  · exact .inl rfl
  · split
    · exact .inl rfl
    · exact .inr ⟨_, rfl⟩

theorem inEntryIdOrder_insert {table : ReportEntries} (inOrder : InEntryIdOrder table)
    (greatest : ∀ row ∈ table.rows, row.entryId.asU64 < entry.entryId.asU64) (count : Nat) :
    InEntryIdOrder ((table.deleteOldest count).insert entry) := by
  apply pairwise_append.mpr
  refine ⟨List.Pairwise.sublist (drop_sublist _ _) inOrder, pairwise_singleton _ _, ?_⟩
  intro earlier stored later inserted
  rw [mem_singleton.mp inserted]
  exact greatest earlier (mem_of_mem_drop stored)

theorem enqueue_lastEntryIdMs (control : PersistentControl) (nowMs : UInt64) (isIntegrity isGi : Bool)
    (content : EntryContent) : (control.enqueue nowMs isIntegrity isGi content).state.lastEntryIdMs.toNat =
      (control.state.allocateEntryId nowMs).1.asU64 := by
  simp only [PersistentControl.enqueue, onEnqueue_lastEntryIdMs]
  rfl

theorem enqueue_table (control : PersistentControl) (nowMs : UInt64) (isIntegrity isGi : Bool)
    (content : EntryContent) :
    (control.enqueue nowMs isIntegrity isGi content).reportBuffer.table = control.reportBuffer.table ∨
      ∃ count entry, entry.entryId = (control.state.allocateEntryId nowMs).1 ∧
        (control.enqueue nowMs isIntegrity isGi content).reportBuffer.table =
          (control.reportBuffer.table.deleteOldest count).insert entry := by
  rcases push_table control.reportBuffer
      (content.toEntry (control.state.allocateEntryId nowMs).1 nowMs isIntegrity isGi) with same | ⟨count, stored⟩
  · exact .inl same
  · exact .inr ⟨count, _, content.toEntry_entryId _ _ _ _, stored⟩

theorem enqueue_rows (member : row ∈ (control.enqueue nowMs isIntegrity isGi content).rows) :
    row ∈ control.rows ∨ row.entryId = (control.state.allocateEntryId nowMs).1 := by
  unfold rows SqliteReportBuffer.rows at member
  rcases enqueue_table control nowMs isIntegrity isGi content with same | ⟨count, entry, named, stored⟩
  · rw [same] at member
    exact .inl member
  rw [stored] at member
  rcases mem_append.mp member with old | inserted
  · exact .inl (mem_of_mem_drop old)
  · rw [mem_singleton.mp inserted]
    exact .inr named

theorem Tidy.enqueue (tidy : control.Tidy)
    (greatest : ∀ row ∈ control.rows, row.entryId.asU64 < (control.state.allocateEntryId nowMs).1.asU64) :
    (control.enqueue nowMs isIntegrity isGi content).Tidy := by
  constructor
  · rcases enqueue_table control nowMs isIntegrity isGi content with same | ⟨count, entry, named, stored⟩
    · rw [same]
      exact tidy.inOrder
    · rw [stored]
      apply inEntryIdOrder_insert tidy.inOrder
      rw [named]
      exact greatest
  · intro _ row member
    rw [enqueue_lastEntryIdMs]
    rcases enqueue_rows member with old | inserted
    · exact Nat.le_of_lt (greatest row old)
    · rw [inserted]

theorem Tidy.step (tidy : control.Tidy) (ahead : control.ClockAhead next) : (control.step next).Tidy := by
  cases next with
  | enqueue nowMs isIntegrity isGi content =>
    have greatest := tidy.lt_allocated ahead (show nowMs ∈ some nowMs from rfl)
    exact tidy.enqueue greatest
  | discard nowMs =>
    have greatest := tidy.lt_allocated ahead (show nowMs ∈ some nowMs from rfl)
    exact ⟨tidy.inOrder, fun _ row stored => Nat.le_of_lt (greatest row stored)⟩
  | purge =>
    refine ⟨List.Pairwise.nil, ?_⟩
    intro _ row stored
    cases stored
  | other state overflow formattedThrough => exact ⟨tidy.inOrder, tidy.bounded⟩
  | restart mmsPath brcb capacity strategy => exact ⟨tidy.inOrder, fun assigned => absurd rfl assigned⟩

theorem Tidy.run (tidy : control.Tidy) {steps : List Step} (ahead : control.AheadThroughout steps) :
    (control.run steps).Tidy := by
  induction steps generalizing control with
  | nil => exact tidy
  | cons next rest ih => exact ih (tidy.step ahead.1) ahead.2

theorem aheadThroughout_append {before : List Step} : control.AheadThroughout (before ++ later) ↔
      control.AheadThroughout before ∧ (control.run before).AheadThroughout later := by
  induction before generalizing control with
  | nil => exact ⟨fun ahead => ⟨trivial, ahead⟩, And.right⟩
  | cons next rest ih =>
    have rest := @ih (control.step next)
    simp only [cons_append, AheadThroughout, rest, and_assoc, run, foldl_cons]

/-- What a resynchronised block remembers of the row it resumes after: the anchor is at its EntryID,
and whatever is stored after it has a greater one, also when the row itself has been evicted. -/
structure ResumesAfter (row : Row) (control : PersistentControl) : Prop where
  anchor : control.state.transmitAnchor = .fromHead ∨ control.state.transmitAnchor = .afterEntryId row.entryId ∨
    control.state.transmitAnchor = .waitingForNext ∧ control.state.lastCommittedEntryId = row.entryId
  later : ∀ other ∈ control.rows, row.seq < other.seq → row.entryId.asU64 < other.entryId.asU64
  bounded : row ∈ control.rows ∨
    control.state.lastEntryIdMs ≠ 0 ∧ row.entryId.asU64 ≤ control.state.lastEntryIdMs.toNat

section

variable (resumes : ResumesAfter row control)

include resumes

theorem ResumesAfter.mem_entriesAtAnchor {other : Row}
    (inOrder : InEntryIdOrder control.reportBuffer.table) (stored : other ∈ control.rows)
    (after : row.seq < other.seq) (read : rowToEntry other = some entry) :
    entry ∈ control.entriesAtAnchor := by
  have listed : entry ∈ control.reportBuffer.iterFrom row.entryId := by
    rw [iterFrom_of_inEntryIdOrder inOrder]
    apply mem_filterMap.mpr
    refine ⟨other, mem_filter.mpr ⟨stored, ?_⟩, read⟩
    exact decide_eq_true (resumes.later other stored after)
  unfold entriesAtAnchor
  rcases resumes.anchor with head | afterRow | ⟨waiting, committed⟩
  · rw [head]
    exact mem_filterMap.mpr ⟨other, stored, read⟩
  · rw [afterRow]
    exact listed
  · rw [waiting, committed]
    exact listed

theorem ResumesAfter.lt_allocated (tidy : control.Tidy) (ahead : control.ClockAhead next)
    (reading : nowMs ∈ next.clockReading) :
    row.entryId.asU64 < (control.state.allocateEntryId nowMs).1.asU64 := by
  rcases resumes.bounded with stored | ⟨_, atMostLast⟩
  · exact tidy.lt_allocated ahead reading row stored
  · exact Nat.lt_of_le_of_lt atMostLast (lastEntryIdMs_lt_allocated ahead reading)

theorem ResumesAfter.enqueue (greater : row.entryId.asU64 < (control.state.allocateEntryId nowMs).1.asU64) :
    ResumesAfter row (control.enqueue nowMs isIntegrity isGi content) := by
  have last := enqueue_lastEntryIdMs control nowMs isIntegrity isGi content
  constructor
  · rcases resumes.anchor with head | afterRow | ⟨waiting, committed⟩
    · exact .inl (by simp [PersistentControl.enqueue, onEnqueue, allocateEntryId, head])
    · exact .inr (.inl (by simp [PersistentControl.enqueue, onEnqueue, allocateEntryId, afterRow]))
    · exact .inr (.inl (by
        simp [PersistentControl.enqueue, onEnqueue, allocateEntryId, waiting, committed]))
  · intro other member after
    rcases enqueue_rows member with old | inserted
    · exact resumes.later other old after
    · rw [inserted]
      exact greater
  · right
    constructor
    · intro zero
      rw [zero] at last
      rw [← last] at greater
      exact absurd greater (Nat.not_lt_zero _)
    · rw [last]
      exact Nat.le_of_lt greater

theorem ResumesAfter.run (tidy : control.Tidy)
    (ahead : control.AheadThroughout enqueues) (only : ∀ next ∈ enqueues, next.isEnqueue = true) :
    ResumesAfter row (control.run enqueues) := by
  induction enqueues generalizing control with
  | nil => exact resumes
  | cons next rest ih =>
    cases next with
    | enqueue nowMs isIntegrity isGi content =>
      have greater := resumes.lt_allocated tidy ahead.1 (show nowMs ∈ some nowMs from rfl)
      exact ih (resumes.enqueue greater) (tidy.step ahead.1) ahead.2 fun next member =>
        only next (mem_cons_of_mem _ member)
    | discard nowMs | purge | other state overflow formattedThrough | restart mmsPath brcb capacity strategy =>
      cases only _ mem_cons_self

end

/-- Two blocks that assign the same identifiers and keep the same rows. -/
structure SameRows (left right : PersistentControl) : Prop where
  table : left.reportBuffer.table = right.reportBuffer.table
  capacity : left.reportBuffer.capacity = right.reportBuffer.capacity
  strategy : left.reportBuffer.strategy = right.reportBuffer.strategy
  lastEntryIdMs : left.state.lastEntryIdMs = right.state.lastEntryIdMs

theorem push_congr {left right : SqliteReportBuffer} (table : left.table = right.table)
    (capacity : left.capacity = right.capacity) (strategy : left.strategy = right.strategy) (entry : ReportEntry) :
    (left.push entry).2.table = (right.push entry).2.table ∧
    (left.push entry).2.capacity = (right.push entry).2.capacity ∧
      (left.push entry).2.strategy = (right.push entry).2.strategy := by
  unfold push rejects evictions SqliteReportBuffer.rows
  rw [table, capacity, strategy]
  split
  · exact ⟨table, capacity, strategy⟩
  · split
    · exact ⟨rfl, rfl, rfl⟩
    · exact ⟨rfl, rfl, rfl⟩

theorem SameRows.enqueue (same : SameRows left right) (nowMs : UInt64)
    (isIntegrity isGi : Bool) (content : EntryContent) :
    SameRows (left.enqueue nowMs isIntegrity isGi content) (right.enqueue nowMs isIntegrity isGi content) := by
  have allocated : (left.state.allocateEntryId nowMs).1 = (right.state.allocateEntryId nowMs).1 := by
    simp only [allocateEntryId, same.lastEntryIdMs]
  have pushed := push_congr same.table same.capacity same.strategy
    (content.toEntry (right.state.allocateEntryId nowMs).1 nowMs isIntegrity isGi)
  simp only [PersistentControl.enqueue, allocated]
  refine ⟨pushed.1, pushed.2.1, pushed.2.2, ?_⟩
  simp only [onEnqueue_lastEntryIdMs, allocateEntryId, same.lastEntryIdMs]

theorem SameRows.aheadThroughout (same : SameRows left right)
    (only : ∀ next ∈ enqueues, next.isEnqueue = true) (ahead : left.AheadThroughout enqueues) :
    right.AheadThroughout enqueues := by
  induction enqueues generalizing left right with
  | nil => trivial
  | cons next rest ih =>
    have restOnly : ∀ next ∈ rest, next.isEnqueue = true := fun next member => only next (mem_cons_of_mem _ member)
    have first : right.ClockAhead next := by
      have met := ahead.1
      unfold ClockAhead rows SqliteReportBuffer.rows at met
      rw [same.table, same.lastEntryIdMs] at met
      exact met
    cases next with
    | enqueue nowMs isIntegrity isGi content =>
      exact ⟨first, ih (same.enqueue nowMs isIntegrity isGi content) restOnly ahead.2⟩
    | discard nowMs | purge | other state overflow formattedThrough | restart mmsPath brcb capacity strategy =>
      cases only _ mem_cons_self

theorem SameRows.tidy (same : SameRows left right) (tidy : left.Tidy) : right.Tidy := by
  constructor
  · rw [← same.table]
    exact tidy.inOrder
  · have bounded := tidy.bounded
    unfold rows SqliteReportBuffer.rows at bounded ⊢
    rw [same.table, same.lastEntryIdMs] at bounded
    exact bounded

theorem seekToAfterEntryId_of_stored {buffer : SqliteReportBuffer} (stored : row ∈ buffer.rows) :
    buffer.seekToAfterEntryId row.entryId ≠ .notFound := by
  have found : (buffer.rows.find? fun other => other.entryId = row.entryId).isSome := by
    rw [find?_isSome]
    exact ⟨row, stored, decide_eq_true rfl⟩
  obtain ⟨target, located⟩ := Option.isSome_iff_exists.mp found
  unfold seekToAfterEntryId
  rw [located]
  intro absent
  cases next : buffer.rows.find? fun row => target.seq < row.seq with
  | none => simp [next] at absent
  | some other =>
    simp only [next] at absent
    cases read : rowToEntry other with
    | none | some entry => simp [read] at absent

theorem applyEntryIdWrite_of_found (disabled : control.state.rptEna = false) {id : EntryId}
    (found : control.reportBuffer.seekToAfterEntryId id ≠ .notFound) :
    ∃ resynced, control.applyEntryIdWrite id = (.ok (), resynced) ∧ SameRows control resynced ∧
      (resynced.state.transmitAnchor = .fromHead ∨ resynced.state.transmitAnchor = .afterEntryId id ∨
        resynced.state.transmitAnchor = .waitingForNext ∧ resynced.state.lastCommittedEntryId = id) := by
  simp only [applyEntryIdWrite, resynchronize, disabled, Bool.false_eq_true, if_false]
  cases zero : id.isZero with
  | true => exact ⟨_, rfl, ⟨rfl, rfl, rfl, rfl⟩, .inl rfl⟩
  | false =>
    cases seek : control.reportBuffer.seekToAfterEntryId id with
    | foundWithNext next => exact ⟨_, rfl, ⟨rfl, rfl, rfl, rfl⟩, .inr (.inl rfl)⟩
    | foundLast => exact ⟨_, rfl, ⟨rfl, rfl, rfl, rfl⟩, .inr (.inr ⟨rfl, rfl⟩)⟩
    | notFound => exact absurd seek found

theorem Tidy.received (tidy : control.Tidy) (ahead : control.AheadThroughout later)
    (disabled : control.state.rptEna = false) (stored : row ∈ control.rows) :
    ∃ resynced, control.applyEntryIdWrite row.entryId = (.ok (), resynced) ∧
      ∀ enqueues, enqueues <+: later → (∀ next ∈ enqueues, next.isEnqueue = true) →
        ∀ other ∈ (resynced.run enqueues).rows, row.seq < other.seq →
          ∀ entry ∈ rowToEntry other, entry ∈ (resynced.run enqueues).entriesAtAnchor := by
  obtain ⟨resynced, accepted, same, anchor⟩ := applyEntryIdWrite_of_found disabled (seekToAfterEntryId_of_stored stored)
  refine ⟨resynced, accepted, ?_⟩
  intro enqueues isPrefix only other member after entry read
  obtain ⟨rest, rfl⟩ := isPrefix
  have keptRows : resynced.rows = control.rows := congrArg ReportEntries.rows same.table.symm
  have resyncedAhead := same.aheadThroughout only (aheadThroughout_append.mp ahead).1
  have resumes : ResumesAfter row resynced := by
    refine ⟨anchor, ?_, .inl (keptRows ▸ stored)⟩
    intro other otherStored after
    rw [keptRows] at otherStored
    exact (entryId_lt_iff_seq_lt tidy.inOrder stored otherStored).mpr after
  have resyncedTidy := same.tidy tidy
  have tidyAfter := resyncedTidy.run resyncedAhead
  exact (resumes.run resyncedTidy resyncedAhead only).mem_entriesAtAnchor tidyAfter.inOrder member after read

theorem Tidy.keepsOrder (tidy : control.Tidy) (ahead : control.AheadThroughout later) : control.KeepsOrder later where
  assigned := by
    intro next first nowMs reading
    cases later with
    | nil => cases first
    | cons head rest =>
      cases first
      exact tidy.lt_allocated ahead.1 reading
  listed := iterFrom_eq_filter_iterEntries tidy.inOrder
  resumed := by
    intro row stored
    rw [iterFrom_of_inEntryIdOrder tidy.inOrder]
    congr 1
    apply filter_congr
    intro other otherStored
    simp only [entryId_lt_iff_seq_lt tidy.inOrder stored otherStored]
  received := fun disabled _ stored => tidy.received ahead disabled stored

/-- A block over rows that are in EntryID order, whose clock is past all of them when it assigns its
first identifier after each start, keeps that order through every run. -/
theorem keepsOrder_of_clock_ahead (mmsPath : String) (brcb : Brcb) (entries : ReportEntries) (capacity : Nat)
    (strategy : OverflowStrategy) (inOrder : InEntryIdOrder entries) (steps : List Step)
    (ahead : (withBackend mmsPath brcb (.opened entries capacity strategy)).AheadThroughout steps) :
    ∀ before later, steps = before ++ later →
      ((withBackend mmsPath brcb (.opened entries capacity strategy)).run before).KeepsOrder later := by
  rintro before later rfl
  have start : (withBackend mmsPath brcb (.opened entries capacity strategy)).Tidy :=
    ⟨inOrder, fun assigned => absurd rfl assigned⟩
  obtain ⟨aheadBefore, aheadLater⟩ := aheadThroughout_append.mp ahead
  exact (start.run aheadBefore).keepsOrder aheadLater

/-- What an earlier process left: one entry, enqueued when its clock read 1000. -/
def storedSample : ReportEntries :=
  ReportEntries.empty.insert ((EntryContent.payload []).toEntry (.fromMs 1000) 1000 false false)

def restartedSample : PersistentControl :=
  withBackend "IED1LD0/LLN0$BR$brcb01" freshBrcb (.opened storedSample 200 .dropOldest)

/-- The clock is past the stored entry at the first reading, steps back, and is past both at the
next start. -/
def forwardSteps : List Step :=
  [.enqueue 1500 false false (.payload []), .enqueue 900 false true (.payload []),
    .restart "IED1LD0/LLN0$BR$brcb01" freshBrcb 2 .dropOldest, .enqueue 1502 true false (.payload [])]

theorem keepsOrder_forwardSteps : InEntryIdOrder storedSample ∧ restartedSample.AheadThroughout forwardSteps ∧
      ∀ before later, forwardSteps = before ++ later → (restartedSample.run before).KeepsOrder later := by
  have inOrder : InEntryIdOrder storedSample := by decide
  have ahead : restartedSample.AheadThroughout forwardSteps := by
    refine ⟨?_, ?_, ?_, ?_, trivial⟩ <;> decide
  exact ⟨inOrder, ahead, keepsOrder_of_clock_ahead _ _ _ _ _ inOrder _ ahead⟩

/-- The clock reads 500 after the start: the new entry is stored behind the one of 1000 with a
smaller EntryID, the listings disagree, and a client that resynchronises on 1000 is told that it may
go on and never receives it. -/
theorem entryId_below_stored_after_restart : let behind := restartedSample.run [.enqueue 500 false false (.payload [])]
    let resynced := behind.applyEntryIdWrite (.fromMs 1000)
    ¬ restartedSample.KeepsOrder [.enqueue 500 false false (.payload [])] ∧
      behind.reportBuffer.iterEntries.map (·.entryId.asU64) = [1000, 500] ∧
      (behind.reportBuffer.iterFrom .zero).map (·.entryId.asU64) = [500, 1000] ∧
      resynced.1.isOk = true ∧ resynced.2.state.transmitAnchor = .afterEntryId (.fromMs 1000) ∧
      resynced.2.entriesAtAnchor.map (·.entryId.asU64) = [] := by
  refine ⟨?_, by decide, by decide, by decide, by decide, by decide⟩
  intro keeps
  have greater := keeps.assigned _ rfl 500 rfl _ (mem_singleton_self _)
  exact absurd greater (by decide)

end PersistentControl

end Iec61850.Reporting
