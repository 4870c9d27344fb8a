import Iec61850.Reporting.Overflow
import Iec61850.Reporting.Simulation

/-!
What a client of a buffered report control block receives over a whole run, in terms of the server's
operations.
-/

namespace Iec61850.Reporting

open Concurrency Model Transmitter

variable {slot : Slot}

section

variable (fresh : slot.Fresh)

include fresh

theorem Slot.Fresh.holder : slot.view.holder = none := by
  simp [Slot.view, fresh.state, BrcbState.holder, BrcbState.fromBrcb]

theorem Slot.Fresh.held : slot.Held := by
  simp [Slot.Held, fresh.state, BrcbState.fromBrcb]

theorem Slot.Fresh.entries : slot.view.buffer.entries = [] := by
  obtain ⟨strategy, buffer⟩ := fresh.buffer
  simp [Slot.view, buffer, InMemoryReportBuffer.withStrategy]

theorem Slot.Fresh.tracked : Tracked slot.view.encode slot.view .initial := by
  refine .of_disabled fresh.holder rfl ?_ ?_ rfl rfl (by simp [Observer.initial])
  · simp [Slot.view, fresh.state, BrcbState.rewindPoint, BrcbState.fromBrcb, Observer.initial]
  · simp [Slot.view, fresh.state, BrcbState.fromBrcb, Observer.initial]

theorem Slot.Fresh.simulated (steps : List Step)
    (ordered : Ordered (enqueuedOf (traceOf steps slot))) (routine : Along Step.Routine steps slot) :
    Path Move slot.view (traceOf steps slot) (runSteps steps slot).view := by
  refine run_simulated [] steps fresh.held (.of_disabled fresh.holder) ?_ ordered routine
  rw [fresh.entries]
  exact List.nil_sublist _

end

/-- In every run that loses no entry, numbers entries upwards and enqueues only entries that can be
encoded: what the channel accepts within an enabled period is an initial part of the reports of the
entries after the point the period starts from, in order; nothing is accepted outside a period;
SqNum counts the entries completed. -/
theorem segments_follow_buffered_entries (slot : Slot) (fresh : slot.Fresh) (steps : List Step)
    (routine : Along Step.Routine steps slot) (lossFree : LossFree slot.view.encode (traceOf steps slot)) :
    let seen := Observer.watch (traceOf steps slot)
    let final := runSteps steps slot
    Ordered final.reportBuffer.entries ∧
      (∀ period ∈ seen.periods,
        period.segments <+: streamFrom (segmentsOf slot.view.encode period.conn) period.firstSqNum period.overflows
          (entriesAfter period.start final.reportBuffer.entries)) ∧
      seen.stray = [] ∧ final.state.sqNum = UInt16.ofNat seen.completed := by
  have path := fresh.simulated steps lossFree.ordered routine
  obtain ⟨entries, tracked⟩ := tracked_of_path fresh.entries fresh.tracked path lossFree
  have buffered : (runSteps steps slot).reportBuffer.entries = enqueuedOf (traceOf steps slot) := entries
  refine ⟨?_, tracked.follows, tracked.stray, tracked.sqNum⟩
  rw [buffered]
  exact lossFree.ordered

theorem bareBlock_encodes (conn : ConnectionId) (sqNum : UInt16) (bufOvfl : Bool) (entry : ReportEntry) :
    ∃ pdus, bareBlock.view.encode conn sqNum bufOvfl entry = .ok pdus := by
  simp only [Slot.view]
  unfold encoderOf
  refine encodePdus_of_empty rfl rfl ?_
  change pduLen (tlvLen (Mms.stringLen "") + optFldsTlvLen + inclusionTlvLen 0) ≤ min 65000 maxReportPduBytes
  decide

def resynchronizingRun : List Step :=
  [.enqueue 5 false false [], .enqueue 7 false false [], .write .rptEna (.bool true) 1 0,
    .flush { registered := true, receiverAlive := true, free := 1, upcoming := [] } 0,
    .write .rptEna (.bool false) 1 0, .write .entryId (.octetString [0, 0, 0, 0, 0, 0, 0, 5]) 1 0,
    .write .rptEna (.bool true) 1 0, .tick { registered := true, receiverAlive := true, free := 3, upcoming := [] } 0 0]

theorem resynchronizingRun_routine : Along Step.Routine resynchronizingRun bareBlock :=
  ⟨trivial, trivial, trivial, trivial, trivial, show _ = Answer.accepted by decide +kernel, trivial, trivial, trivial⟩

theorem bareBlock_lossFree {steps : List Step} (kept : ((traceOf steps bareBlock).all (·.keepsEntries)) = true)
    (ordered : ((enqueuedOf (traceOf steps bareBlock)).map (·.entryId.asU64)).Pairwise (· < ·)) :
    LossFree bareBlock.view.encode (traceOf steps bareBlock) :=
  ⟨List.all_eq_true.mp kept, List.pairwise_map.mp ordered,
    fun entry _ conn sqNum bufOvfl => bareBlock_encodes conn sqNum bufOvfl entry⟩

theorem segments_follow_in_resynchronizingRun : let seen := Observer.watch (traceOf resynchronizingRun bareBlock)
    seen.periods.map (·.completed) = [1, 1] ∧
      ∀ period ∈ seen.periods,
        period.segments <+: streamFrom (segmentsOf bareBlock.view.encode period.conn) period.firstSqNum
          period.overflows (entriesAfter period.start (runSteps resynchronizingRun bareBlock).reportBuffer.entries) :=
  ⟨by decide +kernel,
    (segments_follow_buffered_entries bareBlock bareBlock_fresh resynchronizingRun resynchronizingRun_routine
      (bareBlock_lossFree (by decide +kernel) (by decide +kernel))).2.1⟩

/-- An entry stored while the clock reads zero gets the all-zero EntryID and is sent. -/
def zeroRun : List Step :=
  [.enqueue 0 false false [], .write .rptEna (.bool true) 1 0,
    .flush { registered := true, receiverAlive := true, free := 3, upcoming := [] } 0]

/-- The entry with the all-zero EntryID does not exceed the zero a period without an earlier point
would start after, yet its report is sent. -/
theorem zero_entry_sent_from_head : bareBlock.Fresh ∧ Along Step.Routine zeroRun bareBlock ∧
      LossFree bareBlock.view.encode (traceOf zeroRun bareBlock) ∧
      ∃ period ∈ (Observer.watch (traceOf zeroRun bareBlock)).periods,
        ¬ period.segments <+: streamFrom (segmentsOf bareBlock.view.encode period.conn) period.firstSqNum
          period.overflows
          ((runSteps zeroRun bareBlock).reportBuffer.entries.filter fun entry =>
            decide ((period.start.getD .zero).asU64 < entry.entryId.asU64)) := by
  refine ⟨bareBlock_fresh, ⟨trivial, trivial, trivial, trivial⟩,
    bareBlock_lossFree (by decide +kernel) (by decide +kernel), ?_⟩
  decide +kernel

theorem Slot.Fresh.accounted (fresh : slot.Fresh) : Accounted slot.view [] := by
  obtain ⟨strategy, buffer⟩ := fresh.buffer
  have pending : slot.view.pending = [] := by
    rw [Transmitter.pending, fresh.entries]
    exact List.sublist_nil.mp (entriesAfter_sublist _ _)
  refine ⟨?_, by simp [pending], .inl ?_, by simp [fresh.holder], trivial⟩
  · rw [fresh.entries]
    exact List.nil_sublist _
  · simp [Slot.view, buffer, InMemoryReportBuffer.withStrategy]

/-- BufOvfl over every run that numbers entries upwards. Every report is encoded under the flag it
carries; the first report after an enable carries true; a later report of the same period carries
true exactly when, since the first segment of the report before it was accepted, the buffer rejected
an entry or evicted one after the newest entry formatted in this transmission. -/
theorem bufOvfl_announces_exactly_the_losses (slot : Slot) (fresh : slot.Fresh) (steps : List Step)
    (routine : Along Step.Routine steps slot) (ordered : Ordered (enqueuedOf (traceOf steps slot))) :
    (∀ id bufOvfl pdu, .started id bufOvfl pdu ∈ traceOf steps slot →
      ∃ conn sqNum entry rest, entry.entryId = id ∧
        slot.view.encode conn sqNum bufOvfl entry = .ok (pdu :: rest)) ∧
      (∀ earlier conn between id bufOvfl pdu later,
        traceOf steps slot = earlier ++ .enabled conn :: (between ++ .started id bufOvfl pdu :: later) →
        (∀ event ∈ between, event.isStarted = false) → bufOvfl = true) ∧
      ∀ earlier id flag pdu between next bufOvfl nextPdu later,
        traceOf steps slot = earlier ++ .started id flag pdu :: (between ++ .started next bufOvfl nextPdu :: later) →
        (∀ event ∈ between, event.isBoundary = false) →
        (bufOvfl = true ↔ ∃ event ∈ between, event.losesAfter id = true) := by
  have path := fresh.simulated steps ordered routine
  have accounted := accounted_of_path fresh.accounted path ordered
  refine ⟨fun id bufOvfl pdu started => started_encoded path rfl started, ?_, ?_⟩
  · intro earlier conn between id bufOvfl pdu later split first
    have accepts := accounted.accepted
    rw [split] at accepts
    exact bufOvfl_of_first accepts first
  · intro earlier id flag pdu between next bufOvfl nextPdu later split within
    have accepts := accounted.accepted
    rw [split] at accepts
    rw [bufOvfl_of_next accepts within, List.any_eq_true]

def narrowBlock : Slot :=
  { bareBlock with
    brcb := { bareBlock.brcb with bufferCapacity := 2 }
    reportBuffer := .withStrategy 2 .dropOldest }

theorem narrowBlock_fresh : narrowBlock.Fresh :=
  ⟨rfl, ⟨.dropOldest, rfl⟩, rfl, rfl, rfl, rfl, rfl, rfl⟩

/-- An entry is sent, then one already sent and one not yet sent are evicted before the next
pass. -/
def evictingRun : List Step :=
  [.enqueue 5 false false [], .enqueue 7 false false [], .write .rptEna (.bool true) 1 0,
    .flush { registered := true, receiverAlive := true, free := 1, upcoming := [] } 0,
    .enqueue 9 false false [], .enqueue 11 false false [],
    .flush { registered := true, receiverAlive := true, free := 3, upcoming := [] } 0]

def bufOvflsOf (trace : List Event) : List Bool :=
  trace.filterMap fun event =>
    match event with
    | .started _ bufOvfl _ => some bufOvfl
    | _ => none

theorem bufOvfl_in_evictingRun : bufOvflsOf (traceOf evictingRun narrowBlock) = [true, true, false] ∧
      ∀ earlier conn between id bufOvfl pdu later,
        traceOf evictingRun narrowBlock =
          earlier ++ .enabled conn :: (between ++ .started id bufOvfl pdu :: later) →
        (∀ event ∈ between, event.isStarted = false) → bufOvfl = true := by
  have ordered : Ordered (enqueuedOf (traceOf evictingRun narrowBlock)) := List.pairwise_map.mp
    (show ((enqueuedOf (traceOf evictingRun narrowBlock)).map (·.entryId.asU64)).Pairwise (· < ·) by decide +kernel)
  exact ⟨by decide +kernel, (bufOvfl_announces_exactly_the_losses narrowBlock narrowBlock_fresh evictingRun
    ⟨trivial, trivial, trivial, trivial, trivial, trivial, trivial, trivial⟩ ordered).2.1⟩

/-- Locks, anchors, reservations and channels aside, a block is a transmitter: every run makes moves
of one, with the same events, and keeps in its buffer a part of what was enqueued, in the same
order. -/
theorem block_refines_transmitter (slot : Slot) (fresh : slot.Fresh) (steps : List Step)
    (routine : Along Step.Routine steps slot) (ordered : Ordered (enqueuedOf (traceOf steps slot))) :
    Path Move slot.view (traceOf steps slot) (runSteps steps slot).view ∧
      (runSteps steps slot).reportBuffer.entries.Sublist (enqueuedOf (traceOf steps slot)) := by
  have path := fresh.simulated steps ordered routine
  exact ⟨path, (accounted_of_path fresh.accounted path ordered).stored⟩

theorem resynchronizingRun_refined :
    Path Move bareBlock.view (traceOf resynchronizingRun bareBlock) (runSteps resynchronizingRun bareBlock).view :=
  (block_refines_transmitter bareBlock bareBlock_fresh resynchronizingRun resynchronizingRun_routine
    (bareBlock_lossFree (by decide +kernel) (by decide +kernel)).ordered).1

end Iec61850.Reporting
