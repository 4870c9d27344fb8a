import Iec61850.Concurrency.Schedule
import Iec61850.Reporting.Section

/-!
Flush passes that other threads may overtake: what a pass does section by section, and what it hands
over first when it finds nothing left of an earlier report; and the client whose writes RptEna =
false, EntryID, RptEna = true overtake it.
-/

namespace Iec61850.Reporting

open Concurrency Model Proc

structure Pass where
  channel : Channel
  now : Instant
  nowMs : UInt64

def tickPasses : List Pass → BrcbM Unit
  | [] => pure ()
  | pass :: rest => do
      modifySlot fun slot => { slot with channel := pass.channel }
      withEngine (tickBrcb pass.now pass.nowMs)
      tickPasses rest

section Programs

/-- What a tick does after the buffer-time window: it copies RptEna and the holder and goes on with
the copy. -/
def tickAfterWindow (now : Instant) (nowMs : UInt64) : BrcbM Unit := do
  let (rptEna, connId, giPending, intgPdMs, trgOps) ← readState fun state =>
    (state.rptEna, state.clientConnId, state.gi, state.intgPdMs, state.trgOps)
  tickGi (rptEna && trgOps.contains .gi && giPending) nowMs
  tickIntegrity (rptEna && trgOps.contains .integrity && decide (0 < intgPdMs)) intgPdMs now nowMs
  serveBrcb rptEna connId now

def enterEngine : BrcbM Unit :=
  .whenReady (fun slot => !slot.engineLocked) fun slot => { result := (), state := { slot with engineLocked := true } }

def leaveEngine : BrcbM Unit := modifySlot fun slot => { slot with engineLocked := false }

theorem withEngine_bind {α β : Type} (body : BrcbM α) (continuation : α → BrcbM β) : withEngine body >>= continuation =
      enterEngine >>= fun _ => body >>= fun result => leaveEngine >>= fun _ => continuation result := by
  simp only [withEngine, bind_assoc, pure_bind, enterEngine, leaveEngine]

theorem tickPass_eq (pass : Pass) (rest : List Pass) :
    (withEngine (tickBrcb pass.now pass.nowMs) >>= fun _ => tickPasses rest) =
      enterEngine >>= fun _ => expireWindow pass.now >>= fun _ => tickAfterWindow pass.now pass.nowMs >>= fun _ =>
        leaveEngine >>= fun _ => tickPasses rest := by
  have split : tickBrcb pass.now pass.nowMs = expireWindow pass.now >>= fun _ => tickAfterWindow pass.now pass.nowMs :=
    rfl
  rw [withEngine_bind, split]
  simp only [bind_assoc]

end Programs

structure Steady (before : Slot) (_events : List Event) (after : Slot) : Prop where
  rptEna : after.state.rptEna = before.state.rptEna
  engineLocked : after.engineLocked = before.engineLocked

def Locked (before : Slot) (_events : List Event) (after : Slot) : Prop := after.engineLocked = before.engineLocked

/-- A pass under way for an enabled block: once it has found the connection lost, it does nothing
more. -/
abbrev Stops {α : Type} : BrcbM α → Prop := Until Steady Locked (Respects Calm)

section Stops

theorem steady_of_calm {α : Type} {program : BrcbM α} (calm : program.Respects Calm) : program.Respects Steady :=
  calm.mono _ fun _ _ _ ran => ⟨ran.rptEna, ran.engineLocked⟩

variable (conn connId : ConnectionId) (now : Instant)

theorem onConnectionDropped_stops {α : Type} (result : α) :
    Stops (onConnectionDropped conn now >>= fun _ => pure result : BrcbM α) := by
  unfold onConnectionDropped
  rw [bind_assoc]
  refine .bind (steady_of_calm (Calm.forgets (ForgetSection.forgetPartialIf _))) fun _ =>
    .atomically fun slot => .inr ⟨?_, .pure _⟩
  dsimp only
  split <;> rfl

theorem pushSegments_steady (accepted : Nat → Bytes → Event) (sent : Nat) (pdus : List Bytes) :
    (pushSegments accepted sent pdus).Respects Steady := by
  induction pdus generalizing sent with
  | nil => exact .pure _
  | cons pdu rest ih =>
    refine .bind (.atomically fun _ => ⟨rfl, rfl⟩) fun outcome => ?_
    cases outcome with
    | sent => exact ih (sent + 1)
    | wouldBlock | receiverDropped | notFound => exact .pure _

theorem entryFormatted_steady (id : EntryId) : (entryFormatted id).Respects Steady :=
  .bind (.whenReady fun _ => ⟨rfl, rfl⟩) fun _ => .atomically fun _ => ⟨rfl, rfl⟩

theorem flushEntries_stops (context : FlushContext) (implyOverflow : Bool) (sentCount : Nat)
    (entries : List ReportEntry) : Stops (flushEntries context implyOverflow sentCount entries) := by
  induction entries generalizing implyOverflow sentCount with
  | nil => exact .pure _
  | cons entry rest ih =>
    refine .bind (.atomically fun _ => ⟨rfl, rfl⟩) fun found => ?_
    obtain ⟨sqNum, live⟩ := found
    dsimp only
    cases context.encode live sqNum implyOverflow entry with
    | error reason => exact .bind (.atomically fun _ => ⟨rfl, rfl⟩) fun _ => ih _ _
    | ok pdus =>
      refine .bind (.atomically fun _ => ⟨rfl, rfl⟩) fun room => ?_
      cases room with
      | false => exact .pure _
      | true =>
        refine .bind (pushSegments_steady _ _ _) fun delivery => ?_
        cases delivery with
        | complete sent =>
          exact .bind (entryFormatted_steady _) fun _ => .bind (.atomically fun _ => ⟨rfl, rfl⟩) fun _ => ih _ _
        | blocked sent left =>
          exact .of_respects (.bind (.ite (entryFormatted_steady _) (.pure _)) fun _ =>
            .bind (.atomically fun _ => ⟨rfl, rfl⟩) fun _ => .pure _)
        | gone => exact onConnectionDropped_stops _ _ _

theorem entriesAtAnchor_steady (anchor : TransmitAnchor) (resyncedOn : EntryId) :
    (entriesAtAnchor anchor resyncedOn).Respects Steady := by
  cases anchor with
  | none => exact .pure _
  | fromHead | afterEntryId after => exact .bind (steady_of_calm (Calm.readBuffer _)) fun _ => .pure _
  | waitingForNext =>
    refine .bind (steady_of_calm (Calm.readBuffer _)) fun found => .ite (.pure _) ?_
    refine .bind (.atomically fun slot => ?_) fun _ => .pure _
    dsimp only
    split <;> exact ⟨rfl, rfl⟩

theorem flushFromAnchor_stops (sentCount : Nat) : Stops (flushFromAnchor connId now sentCount) := by
  refine .bind (steady_of_calm (Calm.readState _)) fun found => ?_
  obtain ⟨anchor, resyncedOn, overflowOnEnable⟩ := found
  refine .bind (steady_of_calm (Calm.readState _)) fun copied => ?_
  refine .bind (entriesAtAnchor_steady anchor resyncedOn) fun entries => ?_
  cases entries with
  | none => exact .pure _
  | some found => exact .bind (steady_of_calm (Calm.readSlot _)) fun _ => flushEntries_stops _ _ _ _

theorem resumePartial_steady (connId : Option ConnectionId) (enabled : Bool) :
    (resumePartial connId enabled).Respects Steady := by
  refine .bind (steady_of_calm (Calm.forgets (ForgetSection.takePartial _))) fun report => ?_
  cases report with
  | none => exact .pure _
  | some report =>
    refine .ite (.pure _) (.bind (pushSegments_steady _ 0 report.rest) fun delivery => ?_)
    cases delivery with
    | complete sent => exact .pure _
    | blocked sent rest => exact .bind (.atomically fun _ => ⟨rfl, rfl⟩) fun _ => .pure _
    | gone => exact .pure _

theorem flushBrcbPending_stops : Stops (flushBrcbPending connId now) := by
  refine .bind (resumePartial_steady _ _) fun resumed => ?_
  cases resumed with
  | idle => exact flushFromAnchor_stops _ _ _
  | done sent entry => exact .bind (.atomically fun _ => ⟨rfl, rfl⟩) fun _ => flushFromAnchor_stops _ _ _
  | blocked sent => exact .pure _
  | gone => exact onConnectionDropped_stops _ _ _

end Stops

def pointOf (id : EntryId) : Option EntryId := if id.isZero then none else some id

def Slot.context (slot : Slot) (conn : ConnectionId) (now : Instant) : FlushContext where
  connId := conn
  now
  rptId := slot.state.rptId
  optFlds := slot.state.optFlds
  datSet := slot.state.datSet
  confRev := slot.state.confRev
  dataset := slot.dataset.getD { name := slot.state.datSet, entries := [] }
  maxPduSizeBytes := (slot.peers conn).elim unregisteredMaxPduSizeBytes (·.maxPduSizeBytes)

def Slot.report (slot : Slot) (conn : ConnectionId) (isOverflow : Bool) (entry : ReportEntry) :
    Except ReportEncodeError (List Bytes) :=
  (slot.context conn 0).encode slot.live slot.state.sqNum isOverflow entry

/-- The event hands over the first segment of the first buffered entry with an EntryID greater than
`id`. -/
def Slot.FirstSegmentAfter (slot : Slot) (id : EntryId) (event : Event) : Prop :=
  ∃ entry later conn isOverflow pdu rest, event = .started entry.entryId isOverflow pdu ∧
    slot.reportBuffer.iterFrom id = entry :: later ∧ slot.report conn isOverflow entry = .ok (pdu :: rest)

/-- Every buffered entry can be encoded, and none has the all-zero EntryID. -/
structure Slot.Sendable (slot : Slot) : Prop where
  encodes : ∀ entry ∈ slot.reportBuffer.entries, ∀ conn isOverflow, ∃ pdus, slot.report conn isOverflow entry = .ok pdus
  nonzero : ∀ entry ∈ slot.reportBuffer.entries, entry.entryId.isZero = false

/-- A section of a pass that has not handed over anything yet. -/
structure Untouched (before : Slot) (events : List Event) (after : Slot) : Prop where
  point : after.state.rewindPoint = before.state.rewindPoint
  partialReport : after.partialReport = none
  engineLocked : after.engineLocked = before.engineLocked
  events : ∀ event ∈ events, event.isNeutral = true

/-- What is left of a pass, run from `slot`, hands over nothing before the first segment of the
first entry after `id`. -/
def Delivers (id : EntryId) {α : Type} : BrcbM α → Slot → Prop
  | .done _, _ => True
  | .critical _ effect emitted next, slot =>
    (∃ event, emitted slot = [event] ∧ slot.FirstSegmentAfter id event) ∨
      Untouched slot (emitted slot) (effect slot) ∧ Delivers id (next slot) (effect slot)

section Delivers

variable {id : EntryId} {slot : Slot}

theorem Delivers.bind {α β : Type} {program : BrcbM α} {continuation : α → BrcbM β} (calm : program.Respects Calm)
    (clear : slot.partialReport = none)
    (later : Delivers id (continuation (program.run slot).result) (program.run slot).state) :
    Delivers id (program >>= continuation) slot := by
  change Delivers id (program.bind continuation) slot
  induction program generalizing slot with
  | done result => exact later
  | critical ready effect emitted next ih =>
    obtain ⟨now, rest⟩ := calm slot
    have stillClear : (effect slot).partialReport = none := by
      rcases now.partialReport with same | none
      · exact same.trans clear
      · exact none
    exact .inr ⟨⟨now.point, stillClear, now.engineLocked, now.events⟩, ih slot rest stillClear later⟩

variable (conn : ConnectionId) (now : Instant)

theorem onConnectionDropped_delivers {α : Type} (result : α) (clear : slot.partialReport = none) :
    Delivers id (onConnectionDropped conn now >>= fun _ => pure result : BrcbM α) slot := by
  unfold onConnectionDropped
  rw [bind_assoc]
  refine .bind (Calm.forgets (ForgetSection.forgetPartialIf _)) clear ?_
  simp only [forgetPartialIf_run, clear, Option.any_none, Bool.false_eq_true, if_false]
  refine .inr ⟨⟨?_, ?_, rfl, ?_⟩, trivial⟩
  · dsimp only
    split
    · unfold BrcbState.connectionDropped
      cases slot.state.resvTms <;> rfl
    · rfl
  · exact clear
  · intro event member
    dsimp only at member
    split at member
    · split at member
      · rw [List.mem_singleton.mp member]
        rfl
      · cases member
    · cases member

theorem flushEntries_delivers {context : FlushContext} {conn : ConnectionId} {now : Instant} {implyOverflow : Bool}
    {sentCount : Nat} {entries : List ReportEntry} (clear : slot.partialReport = none)
    (copied : context = slot.context conn now) (next : slot.reportBuffer.iterFrom id = entries)
    (sendable : slot.Sendable) : Delivers id (flushEntries context implyOverflow sentCount entries) slot := by
  cases entries with
  | nil => exact trivial
  | cons entry later =>
    refine .bind (Calm.readSlot _) clear ?_
    rw [readSlot_run]
    have buffered : entry ∈ slot.reportBuffer.entries := by
      have member : entry ∈ slot.reportBuffer.iterFrom id := by simp [next]
      exact List.mem_of_mem_filter member
    obtain ⟨pdus, encoded⟩ := sendable.encodes entry buffered conn implyOverflow
    have sent : context.encode slot.live slot.state.sqNum implyOverflow entry = .ok pdus := by
      rw [copied]
      exact encoded
    simp only [sent]
    refine .bind (.atomically fun _ => ⟨rfl, rfl, .inl rfl, rfl, by simp⟩) clear ?_
    rw [channelHasRoom_run]
    cases room : slot.channel.next.hasRoom pdus.length reportChannelCap with
    | false => exact trivial
    | true =>
      cases pdus with
      | nil => exact absurd rfl (encodePdus_ne_nil sent)
      | cons pdu rest =>
        have taken := Channel.trySendPdu_ne_wouldBlock room (by simp) (by decide)
        simp only [Bool.not_true, Bool.false_eq_true, if_false]
        unfold pushSegments trySendPdu
        rw [bind_assoc]
        cases attempt : slot.channel.next.next.trySendPdu with
        | mk outcome channel =>
          cases outcome with
          | sent =>
            refine .inl ⟨.started entry.entryId implyOverflow pdu, ?_, ?_⟩
            · simp [attempt, segmentAccepted]
            · exact ⟨entry, later, conn, implyOverflow, pdu, rest, rfl, next, encoded⟩
          | wouldBlock => exact absurd (by rw [attempt]) taken
          | receiverDropped | notFound =>
            refine .inr ⟨⟨rfl, clear, rfl, ?_⟩, ?_⟩
            · simp [attempt]
            · simp only [attempt]
              exact onConnectionDropped_delivers _ _ _ clear

theorem iterFrom_of_zero {buffer : InMemoryReportBuffer}
    (nonzero : ∀ entry ∈ buffer.entries, entry.entryId.isZero = false) (zero : id.isZero = true) :
    buffer.iterFrom id = buffer.entries := by
  refine List.filter_eq_self.mpr fun entry member => ?_
  have different : entry.entryId.asU64 ≠ 0 := by
    intro same
    have isZero := EntryId.isZero_iff.mpr (EntryId.asU64_injective (same.trans EntryId.asU64_zero.symm))
    rw [nonzero entry member] at isZero
    cases isZero
  rw [EntryId.isZero_iff.mp zero, EntryId.asU64_zero]
  exact decide_eq_true (Nat.pos_of_ne_zero different)

theorem pointOf_eq_none (none : pointOf id = none) : id.isZero = true := by
  unfold pointOf at none
  split at none
  · assumption
  · cases none

theorem pointOf_eq_some {other : EntryId} (same : pointOf id = some other) : other = id := by
  unfold pointOf at same
  split at same
  · cases same
  · exact (Option.some.inj same).symm

theorem entriesAtAnchor_delivers {α : Type} {continuation : Option (List ReportEntry × Bool) → BrcbM α}
    (clear : slot.partialReport = none) (point : slot.state.rewindPoint = pointOf id) (sendable : slot.Sendable)
    (nothing : Delivers id (continuation none) slot)
    (found : ∀ anchor overflow, Delivers id (continuation (some (slot.reportBuffer.iterFrom id, overflow))) { slot with
      state := { slot.state with transmitAnchor := anchor } }) :
    Delivers id (entriesAtAnchor slot.state.transmitAnchor slot.state.lastCommittedEntryId >>= continuation) slot := by
  have unmoved (overflow : Bool) : Delivers id (continuation (some (slot.reportBuffer.iterFrom id, overflow))) slot :=
    found slot.state.transmitAnchor overflow
  unfold BrcbState.rewindPoint at point
  unfold entriesAtAnchor
  cases anchor : slot.state.transmitAnchor with
  | none => exact nothing
  | fromHead =>
    simp only [anchor] at point ⊢
    rw [bind_assoc]
    refine .bind (Calm.readBuffer _) clear ?_
    have head := unmoved true
    rw [iterFrom_of_zero sendable.nonzero (pointOf_eq_none point.symm)] at head
    rw [readBuffer_run]
    exact head
  | afterEntryId after =>
    simp only [anchor] at point ⊢
    rw [bind_assoc]
    refine .bind (Calm.readBuffer _) clear ?_
    rw [readBuffer_run, pointOf_eq_some point.symm]
    exact unmoved _
  | waitingForNext =>
    simp only [anchor] at point ⊢
    rw [bind_assoc]
    refine .bind (Calm.readBuffer _) clear ?_
    rw [readBuffer_run]
    have same := pointOf_eq_some point.symm
    dsimp only
    split
    · exact nothing
    rw [same, bind_assoc]
    refine .inr ⟨⟨?_, clear, rfl, by simp⟩, ?_⟩
    · simp [anchor, BrcbState.rewindPoint, same]
    · simp only [anchor, if_true]
      exact found (.afterEntryId id) _

theorem flushFromAnchor_delivers (sentCount : Nat)
    (clear : slot.partialReport = none) (point : slot.state.rewindPoint = pointOf id) (sendable : slot.Sendable) :
    Delivers id (flushFromAnchor conn now sentCount) slot := by
  unfold flushFromAnchor
  refine .bind (Calm.readState _) clear ?_
  rw [readState_run]
  refine .bind (Calm.readState _) clear ?_
  rw [readState_run]
  refine entriesAtAnchor_delivers clear point sendable trivial ?_
  intro anchor overflow
  refine .bind (Calm.readSlot _) clear ?_
  rw [readSlot_run]
  exact flushEntries_delivers clear rfl rfl ⟨sendable.encodes, sendable.nonzero⟩

theorem flushBrcbPending_delivers
    (clear : slot.partialReport = none) (point : slot.state.rewindPoint = pointOf id) (sendable : slot.Sendable) :
    Delivers id (flushBrcbPending conn now) slot := by
  unfold flushBrcbPending resumePartial
  rw [bind_assoc]
  refine .bind (Calm.forgets (ForgetSection.takePartial _)) clear ?_
  simp only [takePartial, run_atomically, clear]
  exact flushFromAnchor_delivers conn now 0 clear point sendable

end Delivers

inductive Party where
  | client
  | tick
  deriving DecidableEq, Repr

variable (slot : Slot) (bytes : List UInt8) (conn : ConnectionId) (now : Instant)

def enableWrite : BrcbM Unit := do
  let _ ← handleSetBrcbField .rptEna (.bool true) conn now
  return ()

def entryIdWrite : BrcbM Unit := do
  let _ ← handleSetBrcbField .entryId (.octetString bytes) conn now
  enableWrite conn now

def resynchronizeWrites : BrcbM Unit := do
  let _ ← handleSetBrcbField .rptEna (.bool false) conn now
  entryIdWrite bytes conn now

abbrev Resynchronizing := Config Party Slot Event

def Resynchronizing.start (passes : List Pass) : Resynchronizing where
  state := slot
  threads
    | .client => resynchronizeWrites bytes conn now
    | .tick => tickPasses passes
  history := []

inductive Progress where
  | writing
  | resynchronized (id : EntryId)
  | enabled (id : EntryId)
  | served
  deriving DecidableEq, Repr

def Progress.observe : Progress → Party × Event → Progress
  | .writing, (.client, .resynchronized id) => .resynchronized id
  | .resynchronized id, (.client, .enabled _) => .enabled id
  | .enabled id, (_, event) => if event.isSegment then .served else .enabled id
  | progress, _ => progress

def progressOf (history : List (Party × Event)) : Progress := history.foldl Progress.observe .writing

end Iec61850.Reporting
