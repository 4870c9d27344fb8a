import Iec61850.Concurrency.Monitor
import Iec61850.Reporting.Engine

/-!
A buffered report control block reduced to what decides which segments it sends: the buffer, the
point transmission goes on after, the connection it serves and what is left of a report under way.
Locks, anchors, reservations, channels and the bookkeeping of the engine are gone; a move is a whole
decision of the server, one segment at a time where the channel may stop it. An observer of its
events knows nothing but them.
-/

namespace Iec61850.Reporting

open Concurrency

/-- The segments of an entry's report to a connection, under a SqNum and a BufOvfl value. -/
abbrev Encoder := ConnectionId → UInt16 → Bool → ReportEntry → Except ReportEncodeError (List Bytes)

def entriesAfter (point : Option EntryId) (entries : List ReportEntry) : List ReportEntry :=
  match point with
  | none => entries
  | some id => entries.filter fun entry => decide (id.asU64 < entry.entryId.asU64)

structure Transmitter where
  encode : Encoder
  buffer : InMemoryReportBuffer
  /-- the entry transmission goes on after, none at the head of the buffer -/
  point : Option EntryId
  /-- the connection reports go to, none while reporting is disabled -/
  holder : Option ConnectionId
  partialReport : Option PartialReport
  sqNum : UInt16
  overflowOnEnable : Bool

namespace Transmitter

variable (transmitter : Transmitter)

def pending : List ReportEntry := entriesAfter transmitter.point transmitter.buffer.entries

def bufOvfl : Bool := transmitter.buffer.overflow || transmitter.overflowOnEnable

def forgotten : Transmitter :=
  { transmitter with
    partialReport := none
    buffer :=
      if transmitter.partialReport.isSome then transmitter.buffer.setFormattedThrough transmitter.point
      else transmitter.buffer }

@[simp] theorem forgotten_entries : transmitter.forgotten.buffer.entries = transmitter.buffer.entries := by
  unfold forgotten
  split <;> rfl

def formatted (id : EntryId) : Transmitter :=
  { transmitter with buffer := transmitter.buffer.clearOverflow.markFormatted id, overflowOnEnable := false }

inductive Move : Transmitter → List Event → Transmitter → Prop
  | push (transmitter : Transmitter) (entry : ReportEntry) :
      Move transmitter (pushEvents transmitter.buffer entry)
        { transmitter with buffer := (transmitter.buffer.push entry).2 }
  | claim (transmitter : Transmitter) (conn : ConnectionId) : Move transmitter [.claimed conn] transmitter
  | resynchronize (transmitter : Transmitter) (id : EntryId) (disabled : transmitter.holder = none) :
      Move transmitter [.resynchronized id]
        { transmitter with
          point := if id.isZero then none else some id
          buffer := transmitter.buffer.setFormattedThrough (if id.isZero then none else some id) }
  | enable (transmitter : Transmitter) (conn : ConnectionId) (disabled : transmitter.holder = none) :
      Move transmitter [.enabled conn] { transmitter.forgotten with holder := some conn, overflowOnEnable := true }
  | disable (transmitter : Transmitter) (conn : ConnectionId) (enabled : transmitter.holder = some conn) :
      Move transmitter [.disabled] { transmitter with holder := none }
  | forget (transmitter : Transmitter) (disabled : transmitter.holder = none) :
      Move transmitter [] transmitter.forgotten
  /-- the channel accepts the first segment of the next entry's report -/
  | start (transmitter : Transmitter) (conn : ConnectionId) (entry : ReportEntry) (later : List ReportEntry)
      (pdu : Bytes) (rest : List Bytes) (enabled : transmitter.holder = some conn)
      (clear : transmitter.partialReport = none) (next : transmitter.pending = entry :: later)
      (encoded : transmitter.encode conn transmitter.sqNum transmitter.bufOvfl entry = .ok (pdu :: rest)) :
      Move transmitter [.started entry.entryId transmitter.bufOvfl pdu]
        { transmitter.formatted entry.entryId with
          partialReport := some { connId := conn, entry := (entry.entryId, entry.timeOfEntryMs), rest } }
  | resume (transmitter : Transmitter) (report : PartialReport) (pdu : Bytes) (rest : List Bytes)
      (enabled : transmitter.holder = some report.connId) (kept : transmitter.partialReport = some report)
      (left : report.rest = pdu :: rest) :
      Move transmitter [.continued pdu] { transmitter with partialReport := some { report with rest } }
  | complete (transmitter : Transmitter) (report : PartialReport)
      (enabled : transmitter.holder = some report.connId) (kept : transmitter.partialReport = some report)
      (left : report.rest = []) :
      Move transmitter [.completed report.entry.1]
        { transmitter with
          partialReport := none, point := some report.entry.1, sqNum := transmitter.sqNum + 1 }
  /-- the connection is found lost when a segment of a report under way is pushed -/
  | lose (transmitter : Transmitter) (conn : ConnectionId) (enabled : transmitter.holder = some conn) :
      Move transmitter [.disabled] { transmitter with holder := none, partialReport := none }
  /-- the connection is found lost while a fresh report is pushed; its entry was not marked as
  formatted -/
  | startLost (transmitter : Transmitter) (conn : ConnectionId) (entry : ReportEntry) (later : List ReportEntry)
      (taken left : List Bytes) (enabled : transmitter.holder = some conn)
      (clear : transmitter.partialReport = none) (next : transmitter.pending = entry :: later)
      (encoded : transmitter.encode conn transmitter.sqNum transmitter.bufOvfl entry = .ok (taken ++ left)) :
      Move transmitter (segmentEvents entry.entryId transmitter.bufOvfl taken ++ [.disabled])
        { transmitter with holder := none }
  /-- an entry that cannot be encoded is passed over -/
  | skip (transmitter : Transmitter) (conn : ConnectionId) (entry : ReportEntry) (later : List ReportEntry)
      (error : ReportEncodeError) (enabled : transmitter.holder = some conn)
      (clear : transmitter.partialReport = none) (next : transmitter.pending = entry :: later)
      (encoded : transmitter.encode conn transmitter.sqNum transmitter.bufOvfl entry = .error error) :
      Move transmitter [] { transmitter with point := some entry.entryId }

/-- A report under way belongs to the connection served, and transmission from the head announces a
loss. -/
structure Sound : Prop where
  owned : ∀ conn report, transmitter.holder = some conn → transmitter.partialReport = some report →
    report.connId = conn
  armed : ∀ conn, transmitter.holder = some conn → transmitter.partialReport = none → transmitter.point = none →
    transmitter.overflowOnEnable = true

variable {transmitter}

theorem Sound.of_disabled (disabled : transmitter.holder = none) : transmitter.Sound :=
  ⟨by simp [disabled], by simp [disabled]⟩

variable {events : List Event} {next : Transmitter} {conn : ConnectionId} {entry : ReportEntry}
  {later : List ReportEntry}

theorem Move.sound (move : Move transmitter events next) (sound : transmitter.Sound) : next.Sound := by
  cases move with
  | push entry => exact ⟨sound.owned, sound.armed⟩
  | claim conn => exact sound
  | resynchronize id disabled => exact .of_disabled disabled
  | enable conn disabled => exact ⟨by simp [forgotten], by simp⟩
  | disable conn enabled => exact .of_disabled rfl
  | forget disabled => exact .of_disabled disabled
  | start conn entry later pdu rest enabled clear next encoded =>
    refine ⟨?_, by simp⟩
    intro holder report held kept
    simp only [formatted, Option.some.injEq] at held kept
    subst kept
    exact Option.some.inj (enabled.symm.trans held)
  | resume report pdu rest enabled kept left =>
    refine ⟨?_, by simp⟩
    intro holder remaining held remains
    simp only [Option.some.injEq] at remains
    subst remains
    exact Option.some.inj (enabled.symm.trans held)
  | complete report enabled kept left => exact ⟨by simp, by simp⟩
  | lose conn enabled | startLost conn entry later taken left enabled clear next encoded => exact .of_disabled rfl
  | skip conn entry later error enabled clear next encoded => exact ⟨sound.owned, by simp⟩

theorem sound_of_path (path : Path Move transmitter events next) (sound : transmitter.Sound) : next.Sound :=
  path.preserves Sound (fun _ _ _ sound move => move.sound sound) sound

theorem Move.entries_of_keepsEntries (move : Move transmitter events next)
    (kept : ∀ event ∈ events, event.keepsEntries = true) :
    next.buffer.entries = transmitter.buffer.entries ++ enqueuedOf events := by
  cases move with
  | push entry => exact push_entries_of_keepsEntries kept
  | enable conn disabled | forget disabled => simp [enqueuedOf]
  | startLost conn entry later taken left enabled clear next encoded =>
    have silent : enqueuedOf (segmentEvents entry.entryId transmitter.bufOvfl taken) = [] := by
      cases taken with
      | nil => rfl
      | cons pdu rest => simp [segmentEvents, enqueuedOf]
    rw [enqueuedOf_append, silent]
    simp [enqueuedOf]
  | _ => simp [enqueuedOf, formatted, InMemoryReportBuffer.setFormattedThrough,
      InMemoryReportBuffer.markFormatted, InMemoryReportBuffer.clearOverflow]

theorem Move.entries_sublist (move : Move transmitter events next)
    {trace : List Event} (stored : transmitter.buffer.entries.Sublist (enqueuedOf trace)) :
    next.buffer.entries.Sublist (enqueuedOf (trace ++ events)) := by
  rw [enqueuedOf_append]
  cases move with
  | push entry => exact push_entries_sublist stored
  | enable conn disabled | forget disabled => simpa using stored.trans (List.sublist_append_left _ _)
  | _ => exact stored.trans (List.sublist_append_left _ _)

theorem path_resume (transmitter : Transmitter) (report : PartialReport) (taken left : List Bytes)
    (enabled : transmitter.holder = some report.connId) :
    Path Move { transmitter with partialReport := some { report with rest := taken ++ left } }
      (taken.map .continued) { transmitter with partialReport := some { report with rest := left } } := by
  induction taken with
  | nil => exact .refl _
  | cons pdu taken ih =>
    have pushed := Move.resume
      { transmitter with partialReport := some { report with rest := pdu :: taken ++ left } }
      { report with rest := pdu :: taken ++ left } pdu (taken ++ left) enabled rfl rfl
    exact (Path.single pushed).trans ih

theorem path_start (taken left : List Bytes) (enabled : transmitter.holder = some conn)
    (clear : transmitter.partialReport = none) (next : transmitter.pending = entry :: later)
    (encoded : transmitter.encode conn transmitter.sqNum transmitter.bufOvfl entry = .ok (taken ++ left))
    (some : taken ≠ []) :
    Path Move transmitter (segmentEvents entry.entryId transmitter.bufOvfl taken)
      { transmitter.formatted entry.entryId with
        partialReport := .some { connId := conn, entry := (entry.entryId, entry.timeOfEntryMs), rest := left } } := by
  cases taken with
  | nil => exact absurd rfl some
  | cons pdu taken =>
    have started := Move.start transmitter conn entry later pdu (taken ++ left) enabled clear next encoded
    have resumed := path_resume (transmitter.formatted entry.entryId)
      { connId := conn, entry := (entry.entryId, entry.timeOfEntryMs), rest := [] } taken left enabled
    exact (Path.single started).trans resumed

theorem path_complete (transmitter : Transmitter) (report : PartialReport)
    (enabled : transmitter.holder = some report.connId) (kept : transmitter.partialReport = some report) :
    Path Move transmitter (report.rest.map .continued ++ [.completed report.entry.1])
      { transmitter with
        partialReport := none, point := some report.entry.1, sqNum := transmitter.sqNum + 1 } := by
  have resumed := path_resume transmitter report report.rest [] enabled
  have same : { transmitter with partialReport := some { report with rest := report.rest ++ [] } } = transmitter := by
    simp [← kept]
  rw [same] at resumed
  exact resumed.tail (.complete { transmitter with partialReport := some { report with rest := [] } }
    { report with rest := [] } enabled rfl rfl)

theorem path_send {pdus : List Bytes} (enabled : transmitter.holder = some conn)
    (clear : transmitter.partialReport = none) (next : transmitter.pending = entry :: later)
    (encoded : transmitter.encode conn transmitter.sqNum transmitter.bufOvfl entry = .ok pdus) (some : pdus ≠ []) :
    Path Move transmitter (segmentEvents entry.entryId transmitter.bufOvfl pdus ++ [.completed entry.entryId])
      { transmitter.formatted entry.entryId with
        partialReport := none, point := .some entry.entryId, sqNum := transmitter.sqNum + 1 } := by
  have started := path_start pdus [] enabled clear next (by rw [List.append_nil]; exact encoded) some
  exact started.tail (.complete _ { connId := conn, entry := (entry.entryId, entry.timeOfEntryMs), rest := [] }
    enabled rfl rfl)

end Transmitter

/-- One enabled period: the connection it serves, the point it starts after (`none` is the head of
the buffer), the number of entries completed before it, the BufOvfl values of the reports started in
it, the segments the channel accepted, and the number of entries completed in it. -/
structure Period where
  conn : ConnectionId
  start : Option EntryId
  firstSqNum : Nat
  overflows : List Bool
  segments : List Bytes
  completed : Nat

structure Observer where
  point : Option EntryId
  completed : Nat
  isOpen : Bool
  periods : List Period
  stray : List Bytes

namespace Observer

def initial : Observer where
  point := none
  completed := 0
  isOpen := false
  periods := []
  stray := []

def updatePeriod (observer : Observer) (update : Period → Period) : Observer :=
  match observer.periods with
  | current :: earlier => { observer with periods := update current :: earlier }
  | [] => observer

def segment (observer : Observer) (overflow : List Bool) (pdu : Bytes) : Observer :=
  if observer.isOpen then
    observer.updatePeriod fun period =>
      { period with overflows := period.overflows ++ overflow, segments := period.segments ++ [pdu] }
  else
    { observer with stray := observer.stray ++ [pdu] }

def observe (observer : Observer) : Event → Observer
  | .resynchronized id => { observer with point := if id.isZero then none else some id }
  | .enabled conn =>
    { observer with
      isOpen := true
      periods :=
        { conn, start := observer.point, firstSqNum := observer.completed, overflows := [], segments := []
          completed := 0 } :: observer.periods }
  | .disabled => { observer with isOpen := false }
  | .started _ bufOvfl pdu => observer.segment [bufOvfl] pdu
  | .continued pdu => observer.segment [] pdu
  | .completed id =>
    let counted := { observer with point := some id, completed := observer.completed + 1 }
    counted.updatePeriod fun period => { period with completed := period.completed + 1 }
  | .claimed _ | .enqueued _ | .evicted _ | .rejected _ | .bufferEmptied | .configChanged => observer

def watch (trace : List Event) : Observer := trace.foldl observe initial

end Observer

/-- The segments of consecutive reports: each entry takes the next sequence number and its own
BufOvfl value. -/
def streamFrom (encode : UInt16 → Bool → ReportEntry → List Bytes) :
    (sqNum : Nat) → (overflows : List Bool) → List ReportEntry → List Bytes
  | _, _, [] => []
  | sqNum, overflows, entry :: rest =>
    encode (UInt16.ofNat sqNum) (overflows.headD false) entry ++ streamFrom encode (sqNum + 1) overflows.tail rest

def segmentsOf (encode : Encoder) (conn : ConnectionId) (sqNum : UInt16) (bufOvfl : Bool) (entry : ReportEntry) :
    List Bytes :=
  (encode conn sqNum bufOvfl entry).toOption.getD []

end Iec61850.Reporting
