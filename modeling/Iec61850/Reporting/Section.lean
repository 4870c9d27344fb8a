import Iec61850.Concurrency.Sections
import Iec61850.Reporting.Run

/-!
What one critical section can do to the rights and to the configuration of a block, and which ones
leave a transmission alone. Every program is made of the sections listed here, whichever threads run
in between, so an invariant of the rights is checked against this list.
-/

namespace Iec61850.Reporting

open Concurrency Model

structure Rights where
  brcb : Brcb
  peers : ConnectionId → Option Peer
  rptEna : Bool
  resvTms : ResvTmsState
  owner : Option IpAddr
  clientConnId : Option ConnectionId
  reservationTimeout : Option Instant
  engineLocked : Bool

structure Configuration where
  rptId : String
  datSet : String
  confRev : UInt32
  optFlds : OptFlds
  bufTmMs : UInt32
  trgOps : TriggerOptions
  intgPdMs : UInt32

def Slot.rights (slot : Slot) : Rights where
  brcb := slot.brcb
  peers := slot.peers
  rptEna := slot.state.rptEna
  resvTms := slot.state.resvTms
  owner := slot.state.owner
  clientConnId := slot.state.clientConnId
  reservationTimeout := slot.state.reservationTimeout
  engineLocked := slot.engineLocked

def BrcbState.configuration (state : BrcbState) : Configuration where
  rptId := state.rptId
  datSet := state.datSet
  confRev := state.confRev
  optFlds := state.optFlds
  bufTmMs := state.bufTmMs
  trgOps := state.trgOps
  intgPdMs := state.intgPdMs

def Event.isSegment : Event → Bool
  | .started .. | .continued _ => true
  | _ => false

def Event.isInternal : Event → Bool
  | .claimed _ | .enabled _ | .disabled | .bufferEmptied | .configChanged => false
  | _ => true

/-- A section that leaves rights and configuration alone and asks for no general interrogation. -/
structure Internal (before : Slot) (events : List Event) (after : Slot) : Prop where
  rights : after.rights = before.rights
  configuration : after.state.configuration = before.state.configuration
  gi : after.state.gi = true → before.state.gi = true
  events : ∀ event ∈ events, event.isInternal = true

theorem Internal.silent {before after : Slot} (rights : after.rights = before.rights)
    (configuration : after.state.configuration = before.state.configuration)
    (gi : after.state.gi = true → before.state.gi = true) : Internal before [] after :=
  ⟨rights, configuration, gi, by simp⟩

theorem Internal.refl (slot : Slot) : Internal slot [] slot := .silent rfl rfl id

/-- A section of the engine: internal, the end of the holder's connection, or the end of a
reservation. -/
inductive EngineSection : Slot → List Event → Slot → Prop
  | internal {before events after} (internal : Internal before events after) : EngineSection before events after
  | drop (before : Slot) (conn : ConnectionId) (now : Instant) (holds : before.state.clientConnId = some conn) :
      EngineSection before (if before.state.rptEna then [.disabled] else [])
        { before with state := before.state.connectionDropped now }
  | expire (before : Slot) (now : Instant) :
      EngineSection before [] { before with state := (before.state.tickReservation now).2 }

inductive EnqueueSection : Slot → List Event → Slot → Prop
  | read (slot : Slot) : EnqueueSection slot [] slot
  | allocate (slot : Slot) (nowMs : UInt64) :
      EnqueueSection slot [] { slot with state := (slot.state.allocateEntryId nowMs).2 }
  | push (slot : Slot) (entry : ReportEntry) :
      EnqueueSection slot (pushEvents slot.reportBuffer entry)
        { slot with reportBuffer := (slot.reportBuffer.push entry).2 }
  | enqueued (slot : Slot) : EnqueueSection slot [] { slot with state := slot.state.onEnqueue }
  | window (slot : Slot) : EnqueueSection slot [] { slot with bufTmPending := none }
  | interrogated (slot : Slot) : EnqueueSection slot [] { slot with state := { slot.state with gi := false } }
  | integrity (slot : Slot) (nextIntg : Option Instant) : EnqueueSection slot [] { slot with nextIntg }

inductive ForgetSection : Slot → List Event → Slot → Prop
  | read (slot : Slot) : ForgetSection slot [] slot
  | format (slot : Slot) (id : Option EntryId) :
      ForgetSection slot [] { slot with reportBuffer := slot.reportBuffer.setFormattedThrough id }
  | forget (slot : Slot) : ForgetSection slot [] { slot with partialReport := none }

inductive ServeSection : Slot → List Event → Slot → Prop
  | forgetting {before events after} (forgetting : ForgetSection before events after) : ServeSection before events after
  | keep (slot : Slot) (report : PartialReport) : ServeSection slot [] { slot with partialReport := some report }
  | channel (slot : Slot) (channel : Channel) : ServeSection slot [] { slot with channel }
  | segment (slot : Slot) (channel : Channel) (event : Event) (segment : event.isSegment = true) :
      ServeSection slot [event] { slot with channel }
  | skip (slot : Slot) (id : EntryId) :
      ServeSection slot [] { slot with state := { slot.state with transmitAnchor := .afterEntryId id } }
  | mark (slot : Slot) (id : EntryId) :
      ServeSection slot [] { slot with reportBuffer := slot.reportBuffer.clearOverflow.markFormatted id }
  | announced (slot : Slot) : ServeSection slot [] { slot with state := { slot.state with overflowOnEnable := false } }
  | sent (slot : Slot) (id : EntryId) (timeOfEntryMs : UInt64) :
      ServeSection slot [.completed id] { slot with state := slot.state.entrySent id timeOfEntryMs }
  | drop (slot : Slot) (conn : ConnectionId) (now : Instant) (holds : slot.state.clientConnId = some conn) :
      ServeSection slot (if slot.state.rptEna then [.disabled] else [])
        { slot with state := slot.state.connectionDropped now }

inductive RptEnaEffect (state : BrcbState) (conn : ConnectionId) : List Event → BrcbState → Prop
  | none : RptEnaEffect state conn [] state
  | again (owner : Option IpAddr) (enabled : state.rptEna = true) :
      RptEnaEffect state conn [] { state with clientConnId := some conn, owner }
  | enable (owner : Option IpAddr) (disabled : state.rptEna = false) :
      RptEnaEffect state conn [.enabled conn] (state.enable conn owner)
  | disable (owner : Option IpAddr) (enabled : state.rptEna = true) :
      RptEnaEffect state conn [.disabled] { state with rptEna := false, owner }

theorem applyRptEna_effect (state : BrcbState) (value : Bool) (conn : ConnectionId) (writerIp : Option IpAddr) :
    RptEnaEffect state conn (applyRptEna state value conn writerIp).events
      (applyRptEna state value conn writerIp).state := by
  unfold applyRptEna
  dsimp only
  cases value with
  | true =>
    rw [if_pos rfl]
    split
    · exact .none
    · split
      · next enabled => exact .again _ enabled
      · next disabled => exact .enable _ (by simpa using disabled)
  | false =>
    rw [if_neg Bool.false_ne_true]
    split
    · next enabled => exact .disable _ enabled
    · exact .none

inductive FieldSection : Slot → List Event → Slot → Prop
  | internal {before events after} (internal : Internal before events after) : FieldSection before events after
  | configure {before after} (rights : after.rights = before.rights) (gi : after.state.gi = before.state.gi)
      (disabled : before.state.rptEna = false) : FieldSection before [.configChanged] after
  | empty {before after} (rights : after.rights = before.rights)
      (configuration : after.state.configuration = before.state.configuration)
      (gi : after.state.gi = before.state.gi) : FieldSection before [.bufferEmptied] after

theorem FieldSection.rights {before after : Slot} {events : List Event} (ran : FieldSection before events after) :
    after.rights = before.rights := by
  cases ran with
  | internal internal => exact internal.rights
  | configure rights _ _ | empty rights _ _ => exact rights

/-- A section of a write by `conn`, other than the one that writes ResvTms. -/
inductive WriteSection (conn : ConnectionId) (writerIp : Option IpAddr) : Slot → List Event → Slot → Prop
  | field {before events after} (field : FieldSection before events after) : WriteSection conn writerIp before events after
  | claim (before : Slot) (state : BrcbState)
      (entitled : claimBrcbLocked before.brcb before.state conn writerIp = some state) :
      WriteSection conn writerIp before [.claimed conn] { before with state }
  | rptEna (before : Slot) (claimed : BrcbState) {events state}
      (entitled : claimBrcbLocked before.brcb before.state conn writerIp = some claimed)
      (effect : RptEnaEffect claimed conn events state) :
      WriteSection conn writerIp before events { before with state }
  | interrogate (before : Slot) (gi : Bool) (enabled : gi = true → before.state.rptEna = true) :
      WriteSection conn writerIp before [] { before with state := { before.state with gi } }

inductive ReserveSection (conn : ConnectionId) (writerIp : Option IpAddr) : Slot → List Event → Slot → Prop
  | apply (before : Slot) (claimed : BrcbState) (value : Int16)
      (entitled : claimBrcbLocked before.brcb before.state conn writerIp = some claimed) :
      ReserveSection conn writerIp before []
        { before with state := (applyResvTms claimed value conn writerIp).2 }
  | refused (before : Slot) : ReserveSection conn writerIp before [] before

/-- A section as before, or one that only takes or releases the engine lock. -/
inductive Locking (step : Slot → List Event → Slot → Prop) : Slot → List Event → Slot → Prop
  | inside {before events after} (inside : step before events after) : Locking step before events after
  | engine (before : Slot) (engineLocked : Bool) : Locking step before [] { before with engineLocked }

theorem withEngine_locking {α : Type} {step : Slot → List Event → Slot → Prop} {body : BrcbM α}
    (inside : body.Respects step) : (withEngine body).Respects (Locking step) :=
  .bind (.whenReady fun slot => .engine slot true) fun _ =>
    .bind (inside.mono _ fun _ _ _ => .inside) fun _ =>
      .bind (.atomically fun slot => .engine slot false) fun _ => .pure _

namespace EnqueueSection

variable {α : Type}

theorem readSlot (read : Slot → α) : (readSlot read).Respects EnqueueSection := .atomically fun slot => .read slot

theorem enqueueAllocated (nowMs : UInt64) (entry : EntryId → ReportEntry) :
    (enqueueAllocated nowMs entry).Respects EnqueueSection :=
  .bind (.atomically fun slot => .allocate slot nowMs) fun _ => .bind (.whenReady fun slot => .push slot _) fun _ =>
    .bind (.atomically fun slot => .enqueued slot) fun _ => .pure _

theorem enqueueUnlessPurged {check : BrcbM Bool} {purged : Slot → Bool} {timeMs : UInt64} {snapshot : EnqueuedSnapshot}
    (checks : check.Respects EnqueueSection) :
    (enqueueUnlessPurged check purged timeMs snapshot).Respects EnqueueSection := by
  refine .bind checks fun _ => .ite (.pure _) ?_
  refine .bind (.atomically fun slot => .allocate slot timeMs) fun _ =>
    .bind (.whenReady fun slot => ?_) fun pushed => ?_
  · split
    · exact .read slot
    · exact .push slot _
  · cases pushed with
    | none => exact .pure _
    | some evicted => exact .bind (.atomically fun slot => .enqueued slot) fun _ => .pure _

theorem storedAfterPurge (committed : Nat) : (not <$> storedAfterPurge committed).Respects EnqueueSection := by
  exact .bind (readSlot _) fun _ => .pure _

theorem enqueueStoredEntry (oldestCommit : Nat) (timeMs : UInt64) (snapshot : EnqueuedSnapshot) :
    (enqueueStoredEntry oldestCommit timeMs snapshot).Respects EnqueueSection :=
  enqueueUnlessPurged (storedAfterPurge oldestCommit)

theorem expireWindow (now : Instant) : (expireWindow now).Respects EnqueueSection := by
  refine .bind (.atomically fun slot => ?_) fun due => ?_
  · cases slot.bufTmPending with
    | none => exact .read slot
    | some window =>
      dsimp only
      split
      · exact .window slot
      · exact .read slot
  · cases due with
    | none => exact .pure _
    | some window =>
      refine .bind (enqueueUnlessPurged ?_) fun _ => .pure _
      exact .bind (readSlot _) fun _ => .ite (.pure _) (storedAfterPurge _)

theorem enqueueFullDataset (nowMs : UInt64) (isIntegrity isGi : Bool) :
    (enqueueFullDataset nowMs isIntegrity isGi).Respects EnqueueSection := by
  refine .bind (readSlot _) fun snapshot => ?_
  cases snapshot with
  | none => exact .pure _
  | some snap => exact .bind (enqueueAllocated _ _) fun _ => .pure _

theorem tickGi (wanted : Bool) (nowMs : UInt64) : (tickGi wanted nowMs).Respects EnqueueSection :=
  .ite (.bind (enqueueFullDataset _ _ _) fun _ => .ite (.atomically fun slot => .interrogated slot) (.pure _)) (.pure _)

theorem tickIntegrity (wanted : Bool) (intgPdMs : UInt32) (now : Instant) (nowMs : UInt64) :
    (tickIntegrity wanted intgPdMs now nowMs).Respects EnqueueSection :=
  .ite (.bind (readSlot _) fun _ => .ite (.bind (enqueueFullDataset _ _ _) fun _ =>
    .ite (.atomically fun slot => .integrity slot _) (.pure _)) (.pure _)) (.pure _)

end EnqueueSection

namespace ForgetSection

variable (wanted : PartialReport → Bool)

theorem takePartial : (takePartial wanted).Respects ForgetSection := by
  refine .atomically fun slot => ?_
  cases slot.partialReport with
  | none => exact .read slot
  | some report =>
    dsimp only
    split
    · exact .forget slot
    · exact .read slot

theorem forgetPartialIf : (forgetPartialIf wanted).Respects ForgetSection :=
  .bind (takePartial wanted) fun _ => .ite
    (.bind (.atomically fun slot => .read slot) fun _ => .whenReady fun slot => .format slot _) (.pure _)

end ForgetSection

namespace ServeSection

variable {α : Type}

theorem of_forgetting {program : BrcbM α} (forgetting : program.Respects ForgetSection) :
    program.Respects ServeSection :=
  forgetting.mono _ fun _ _ _ => .forgetting

theorem readState (read : BrcbState → α) : (readState read).Respects ServeSection :=
  .atomically fun slot => .forgetting (.read slot)

theorem readSlot (read : Slot → α) : (readSlot read).Respects ServeSection :=
  .atomically fun slot => .forgetting (.read slot)

theorem readBuffer (read : InMemoryReportBuffer → α) : (readBuffer read).Respects ServeSection :=
  .whenReady fun slot => .forgetting (.read slot)

theorem pushSegments {accepted : Nat → Bytes → Event} (segments : ∀ sent pdu, (accepted sent pdu).isSegment = true)
    (sent : Nat) (pdus : List Bytes) : (pushSegments accepted sent pdus).Respects ServeSection := by
  induction pdus generalizing sent with
  | nil => exact .pure _
  | cons pdu rest ih =>
    refine .bind (.atomically fun slot => ?_) fun outcome => ?_
    · dsimp only
      split
      · exact .segment slot _ _ (segments sent pdu)
      · exact .channel slot _
    · cases outcome with
      | sent => exact ih (sent + 1)
      | wouldBlock | receiverDropped | notFound => exact .pure _

variable (anchor : TransmitAnchor) (resyncedOn id : EntryId) (connId : ConnectionId) (now : Instant)

theorem keepPartial (entry : EntryId × UInt64) (rest : List Bytes) :
    (keepPartial connId entry rest).Respects ServeSection :=
  .atomically fun slot => .keep slot _

theorem resumePartial (connId : Option ConnectionId) (enabled : Bool) :
    (resumePartial connId enabled).Respects ServeSection := by
  refine .bind (of_forgetting (ForgetSection.takePartial _)) fun report => ?_
  cases report with
  | none => exact .pure _
  | some report =>
    refine .ite (.pure _) (.bind (pushSegments (fun _ _ => rfl) 0 report.rest) fun delivery => ?_)
    cases delivery with
    | complete sent => exact .pure _
    | blocked sent rest => exact .bind (keepPartial _ _ _) fun _ => .pure _
    | gone => exact .pure _

theorem brcbEntrySent (timeOfEntryMs : UInt64) : (brcbEntrySent id timeOfEntryMs).Respects ServeSection :=
  .atomically fun slot => .sent slot id timeOfEntryMs

theorem entryFormatted : (entryFormatted id).Respects ServeSection :=
  .bind (.whenReady fun slot => .mark slot id) fun _ => .atomically fun slot => .announced slot

theorem onConnectionDropped (conn : ConnectionId) (now : Instant) :
    (onConnectionDropped conn now).Respects ServeSection := by
  refine .bind (of_forgetting (ForgetSection.forgetPartialIf _)) fun _ => .atomically fun slot => ?_
  dsimp only
  split
  · next holds => exact .drop slot conn now holds
  · exact .forgetting (.read slot)

theorem flushEntries (context : FlushContext) (implyOverflow : Bool) (sentCount : Nat) (entries : List ReportEntry) :
    (flushEntries context implyOverflow sentCount entries).Respects ServeSection := by
  induction entries generalizing implyOverflow sentCount with
  | nil => exact .pure _
  | cons entry rest ih =>
    refine .bind (readSlot _) fun found => ?_
    dsimp only
    split
    · exact .bind (.atomically fun slot => .skip slot _) fun _ => ih _ _
    next pdus encoded =>
    refine .bind (.atomically fun slot => .channel slot _) fun room => .ite (.pure _) ?_
    refine .bind (pushSegments (fun sent _ => by cases sent <;> rfl) 0 pdus) fun delivery => ?_
    cases delivery with
    | complete sent => exact .bind (entryFormatted _) fun _ => .bind (brcbEntrySent _ _) fun _ => ih _ _
    | blocked sent left =>
      exact .bind (.ite (entryFormatted _) (.pure _)) fun _ => .bind (keepPartial _ _ _) fun _ => .pure _
    | gone => exact .bind (onConnectionDropped _ _) fun _ => .pure _

theorem entriesAtAnchor : (entriesAtAnchor anchor resyncedOn).Respects ServeSection := by
  cases anchor with
  | none => exact .pure _
  | fromHead | afterEntryId after => exact .bind (readBuffer _) fun _ => .pure _
  | waitingForNext =>
    refine .bind (readBuffer _) fun found => .ite (.pure _) (.bind (.atomically fun slot => ?_) fun _ => .pure _)
    dsimp only
    split
    · exact .skip slot resyncedOn
    · exact .forgetting (.read slot)

theorem flushFromAnchor (sentCount : Nat) : (flushFromAnchor connId now sentCount).Respects ServeSection := by
  refine .bind (readState _) fun found => ?_
  obtain ⟨anchor, resyncedOn, overflowOnEnable⟩ := found
  refine .bind (readState _) fun copied => ?_
  refine .bind (entriesAtAnchor anchor resyncedOn) fun entries => ?_
  cases entries with
  | none => exact .pure _
  | some found => exact .bind (readSlot _) fun _ => flushEntries _ _ _ _

theorem flushBrcbPending : (flushBrcbPending connId now).Respects ServeSection := by
  refine .bind (resumePartial _ _) fun resumed => ?_
  cases resumed with
  | idle => exact flushFromAnchor _ _ _
  | done sent entry => exact .bind (brcbEntrySent _ _) fun _ => flushFromAnchor _ _ _
  | blocked sent => exact .pure _
  | gone => exact .bind (onConnectionDropped _ _) fun _ => .pure _

theorem serveBrcb (rptEna : Bool) (connId : Option ConnectionId) (now : Instant) :
    (serveBrcb rptEna connId now).Respects ServeSection := by
  cases rptEna with
  | false => exact of_forgetting (ForgetSection.forgetPartialIf _)
  | true =>
    cases connId with
    | none => exact .pure _
    | some connId => exact .bind (flushBrcbPending connId now) fun _ => .pure _

end ServeSection

namespace Internal

variable {α : Type}

theorem pushEvents_internal (buffer : InMemoryReportBuffer) (entry : ReportEntry) :
    ∀ event ∈ pushEvents buffer entry, event.isInternal = true := by
  intro event member
  unfold pushEvents at member
  split_ifs at member
  · simp at member
  · rw [List.mem_singleton.mp member]
    rfl
  · rcases List.mem_append.mp member with old | new
    · obtain ⟨entry, -, same⟩ := List.mem_map.mp old
      rw [← same]
      rfl
    · rw [List.mem_singleton.mp new]
      rfl

theorem enqueues {program : BrcbM α} (enqueuing : program.Respects EnqueueSection) : program.Respects Internal := by
  refine enqueuing.mono _ fun slot _ _ ran => ?_
  cases ran with
  | push entry => exact ⟨rfl, rfl, id, pushEvents_internal slot.reportBuffer entry⟩
  | enqueued =>
    unfold BrcbState.onEnqueue
    split <;> exact .silent rfl rfl id
  | interrogated => exact .silent rfl rfl nofun
  | read | allocate | window | integrity => exact .silent rfl rfl id

theorem forgets {program : BrcbM α} (forgetting : program.Respects ForgetSection) : program.Respects Internal := by
  refine forgetting.mono _ fun _ _ _ ran => ?_
  cases ran <;> exact .silent rfl rfl id

theorem readState (read : BrcbState → α) : (readState read).Respects Internal :=
  .atomically fun slot => .refl slot

theorem readSlot (read : Slot → α) : (readSlot read).Respects Internal :=
  .atomically fun slot => .refl slot

theorem readBuffer (read : InMemoryReportBuffer → α) : (readBuffer read).Respects Internal :=
  .whenReady fun slot => .refl slot

theorem modifyBuffer (update : InMemoryReportBuffer → InMemoryReportBuffer) : (modifyBuffer update).Respects Internal :=
  .whenReady fun _ => .silent rfl rfl id

theorem refreshBrcbIntegrityPeriod (now : Instant) : (refreshBrcbIntegrityPeriod now).Respects Internal :=
  .bind (forgets (ForgetSection.forgetPartialIf _)) fun _ => .bind (readState _) fun _ =>
    .atomically fun _ => .silent rfl rfl id

theorem applyEntryIdWrite (id : EntryId) : (applyEntryIdWrite id).Respects Internal := by
  refine .bind ?_ fun seek => .bind (.atomically fun slot => ?_) fun outcome => .bind ?_ fun _ => .pure _
  · split
    · exact .pure _
    · rw [map_eq_pure_bind]
      exact .bind (readBuffer _) fun _ => .pure _
  · have quiet : ∀ accepted : Bool, ∀ event ∈ (if accepted then [Event.resynchronized id] else []),
        event.isInternal = true := by
      intro accepted event member
      cases accepted with
      | false => cases member
      | true =>
        rw [List.mem_singleton.mp member]
        rfl
    have same : (slot.state.resynchronize id seek).2.gi = slot.state.gi := by
      unfold BrcbState.resynchronize
      split
      · rfl
      · split <;> rfl
    refine ⟨?_, ?_, fun set => same ▸ set, quiet _⟩ <;>
      · unfold BrcbState.resynchronize
        dsimp only
        split
        · rfl
        · split <;> rfl
  · exact .ite (modifyBuffer _) (.pure _)

theorem setBrcbEntryId (value : RcbWriteValue) : (setBrcbEntryId value).Respects Internal := by
  cases value with
  | octetString bytes =>
    refine .ite (.pure _) (.bind (applyEntryIdWrite _) fun outcome => ?_)
    match outcome with
    | .ok () => exact .pure _
    | .error .invalidEntryId => exact .pure _
    | .error .reportingEnabled => exact .pure _
  | _ => exact .pure _

end Internal

namespace EngineSection

variable {α : Type}

theorem of_internal {program : BrcbM α} (internal : program.Respects Internal) : program.Respects EngineSection :=
  internal.mono _ fun _ _ _ => .internal

theorem serves {program : BrcbM α} (serving : program.Respects ServeSection) : program.Respects EngineSection := by
  refine serving.mono _ fun slot _ _ ran => ?_
  cases ran with
  | drop conn now holds => exact .drop slot conn now holds
  | forgetting forgetting => cases forgetting <;> exact .internal (.silent rfl rfl id)
  | segment channel event segment =>
    refine .internal ⟨rfl, rfl, id, fun other member => ?_⟩
    cases List.mem_singleton.mp member
    cases event <;> first | rfl | cases segment
  | sent id =>
    refine .internal ⟨rfl, rfl, fun set => set, fun other member => ?_⟩
    cases List.mem_singleton.mp member
    rfl
  | keep | channel | skip | mark | announced => exact .internal (.silent rfl rfl fun set => set)

theorem onConnectionDropped (conn : ConnectionId) (now : Instant) :
    (onConnectionDropped conn now).Respects EngineSection :=
  serves (ServeSection.onConnectionDropped conn now)

theorem tickBrcb (now : Instant) (nowMs : UInt64) : (tickBrcb now nowMs).Respects EngineSection :=
  .bind (of_internal (Internal.enqueues (EnqueueSection.expireWindow now))) fun _ =>
    .bind (of_internal (Internal.readState _)) fun _ =>
      .bind (of_internal (Internal.enqueues (EnqueueSection.tickGi _ _))) fun _ =>
        .bind (of_internal (Internal.enqueues (EnqueueSection.tickIntegrity _ _ _ _))) fun _ =>
          serves (ServeSection.serveBrcb _ _ _)

theorem flushAllBrcbPending (now : Instant) : (flushAllBrcbPending now).Respects EngineSection := by
  refine .bind (of_internal (Internal.readState _)) fun connId => ?_
  cases connId with
  | none => exact .pure _
  | some connId => exact serves (ServeSection.flushBrcbPending connId now)

theorem tickBrcbReservations (now : Instant) : (tickBrcbReservations now).Respects EngineSection :=
  .atomically fun slot => .expire slot now

end EngineSection

namespace FieldSection

variable {α : Type}

theorem of_internal {program : BrcbM α} (internal : program.Respects Internal) : program.Respects FieldSection :=
  internal.mono _ fun _ _ _ => .internal

theorem locking_of_internal {program : BrcbM α} (internal : program.Respects Internal) :
    program.Respects (Locking FieldSection) :=
  (of_internal internal).mono _ fun _ _ _ => .inside

theorem runPurgeBufProcedure : runPurgeBufProcedure.Respects FieldSection :=
  .bind (.whenReady fun _ => .internal (.silent rfl rfl id)) fun _ =>
    .bind (.atomically fun _ => .internal (.silent rfl rfl id)) fun _ =>
      .bind (.atomically fun _ => .internal (.silent rfl rfl id)) fun _ =>
        .bind (.atomically fun _ => .internal (.silent rfl rfl id)) fun _ =>
          .bind (.atomically fun _ => .empty rfl rfl rfl) fun _ =>
            .bind (.atomically fun _ => .internal (.silent rfl rfl id)) fun _ => .pure _

theorem applyConfigField_frame {state next : BrcbState} {mmsPath : String} {field : BrcbConfigField} {changed : Bool}
    (applied : state.applyConfigField mmsPath field = some (changed, next)) :
    state.rptEna = false ∧ (changed = false → next = state) ∧
      next = { state with
        isBuffering := next.isBuffering, datSet := next.datSet, confRev := next.confRev, trgOps := next.trgOps
        intgPdMs := next.intgPdMs, bufTmMs := next.bufTmMs, rptId := next.rptId } := by
  unfold BrcbState.applyConfigField at applied
  split at applied
  · cases applied
  next disabled =>
  refine ⟨by simpa using disabled, ?_⟩
  -- one comparison with the value in place for each field
  cases field <;>
    · dsimp only at applied
      split at applied
      · cases applied
        exact ⟨fun _ => rfl, rfl⟩
      · cases applied
        exact ⟨nofun, rfl⟩

variable (field : BrcbConfigField) (value : RcbWriteValue)

theorem setConfigField : (setConfigField field).Respects FieldSection := by
  refine .bind (.atomically fun slot => ?_) fun change => ?_
  · cases applied : slot.state.applyConfigField slot.mmsPath field with
    | none => exact .internal (.refl slot)
    | some outcome =>
      obtain ⟨changed, next⟩ := outcome
      obtain ⟨disabled, unchanged, frame⟩ := applyConfigField_frame applied
      cases changed with
      | true =>
        refine .configure ?_ ?_ disabled
        · dsimp only
          rw [frame]
          rfl
        · dsimp only
          rw [frame]
      | false =>
        refine .internal ?_
        rw [unchanged rfl]
        exact .refl slot
  · match change with
    | none | some false => exact .pure _
    | some true => exact .bind runPurgeBufProcedure fun _ => .pure _

theorem handlePurgeBufWrite (value : Bool) : (handlePurgeBufWrite value).Respects FieldSection := by
  refine .bind (of_internal (Internal.readState _)) fun enabled => ?_
  exact .ite (.pure _) (.ite (.pure _) (.bind runPurgeBufProcedure fun _ => .pure _))

theorem answerConfigChange : (answerConfigChange field).Respects FieldSection := by
  refine .bind (setConfigField field) fun change => ?_
  cases change with
  | none | some outcome => exact .pure _

theorem setBrcbEntryId : (setBrcbEntryId value).Respects FieldSection :=
  of_internal (Internal.setBrcbEntryId value)

theorem setBrcbPurgeBuf : (setBrcbPurgeBuf value).Respects FieldSection := by
  cases value with
  | bool value =>
    refine .bind (handlePurgeBufWrite value) fun outcome => ?_
    cases outcome with
    | none | some purged => exact .pure _
  | _ => exact .pure _

theorem setBrcbRptId : (setBrcbRptId value).Respects FieldSection := by
  cases value with
  | visibleString text =>
    exact .ite (.pure _) (answerConfigChange _)
  | _ => exact .pure _

theorem setBrcbUnsigned32 (field : UInt32 → BrcbConfigField) (value : RcbWriteValue) :
    (setBrcbUnsigned32 field value).Respects FieldSection := by
  cases value with
  | unsigned value => exact answerConfigChange _
  | _ => exact .pure _

theorem setBrcbTrgOps : (setBrcbTrgOps value).Respects FieldSection := by
  cases value with
  | bitString bytes =>
    unfold Reporting.setBrcbTrgOps
    dsimp only
    split
    · exact answerConfigChange _
    · exact .pure _
  | _ => exact .pure _

theorem changeBrcbDatSet (name : String) : (changeBrcbDatSet name).Respects FieldSection := by
  refine .bind (of_internal (Internal.readState _)) fun found => ?_
  refine .ite (.pure _) (.ite (.pure _) (.ite (.pure _) ?_))
  refine .bind (of_internal (Internal.readSlot _)) fun resolved => ?_
  refine .ite (.pure _) (.bind (setConfigField _) fun change => ?_)
  match change with
  | none | some .noChange => exact .pure _
  | some (.requiresPurge purged) =>
    exact .bind (.atomically fun _ => .internal (.silent rfl rfl id)) fun _ => .pure _

theorem setBrcbDatSet : (setBrcbDatSet value).Respects (Locking FieldSection) := by
  cases value with
  | visibleString text =>
    refine .bind (locking_of_internal (Internal.readSlot _)) fun name => ?_
    exact .ite (.pure _) (withEngine_locking (changeBrcbDatSet name))
  | _ => exact .pure _

theorem setBrcbOptFlds : (setBrcbOptFlds value).Respects FieldSection := by
  cases value with
  | bitString bytes =>
    unfold Reporting.setBrcbOptFlds
    dsimp only
    split
    · exact .pure _
    next fields decoded =>
    refine .atomically fun slot => ?_
    dsimp only
    split_ifs with enabled same
    · exact .internal (.refl slot)
    · refine .internal (.silent rfl ?_ id)
      rw [← same]
    · exact .configure rfl rfl (by simpa using enabled)
  | _ => exact .pure _

/-- Every field but those that change the rights or ask for a general interrogation. -/
def isPlain : RcbField → Bool
  | .resvTms | .rptEna | .gi => false
  | _ => true

theorem writeBrcbField {field : RcbField} (plain : isPlain field = true) (unlocked : field ≠ .datSet)
    (value : RcbWriteValue) (conn : ConnectionId) (writerIp : Option IpAddr) (now : Instant) :
    (writeBrcbField field value conn writerIp now).Respects FieldSection := by
  cases field with
  | entryId => exact setBrcbEntryId value
  | purgeBuf => exact setBrcbPurgeBuf value
  | rptId => exact setBrcbRptId value
  | datSet => exact absurd rfl unlocked
  | optFlds => exact setBrcbOptFlds value
  | bufTm => exact setBrcbUnsigned32 _ value
  | trgOps => exact setBrcbTrgOps value
  | intgPd => exact setBrcbUnsigned32 _ value
  | rptEna | gi | resvTms => cases plain
  | owner | timeOfEntry | unknown _ | confRev | sqNum | resv => exact .pure _

theorem writeBrcbField_locking {field : RcbField} (plain : isPlain field = true) (value : RcbWriteValue)
    (conn : ConnectionId) (writerIp : Option IpAddr) (now : Instant) :
    (Reporting.writeBrcbField field value conn writerIp now).Respects (Locking FieldSection) := by
  by_cases datSet : field = .datSet
  · rw [datSet]
    exact setBrcbDatSet value
  · exact (writeBrcbField plain datSet value conn writerIp now).mono _ fun _ _ _ => .inside

end FieldSection

namespace WriteSection

variable {α : Type} {conn : ConnectionId} {writerIp : Option IpAddr}

theorem of_field {program : BrcbM α} (field : program.Respects FieldSection) :
    program.Respects (WriteSection conn writerIp) :=
  field.mono _ fun _ _ _ => .field

theorem locking_of_field {program : BrcbM α} (locking : program.Respects (Locking FieldSection)) :
    program.Respects (Locking (WriteSection conn writerIp)) := by
  refine locking.mono _ fun _ _ _ ran => ?_
  cases ran with
  | inside inside => exact .inside (.field inside)
  | engine engineLocked => exact .engine _ engineLocked

theorem setBrcbGi (value : RcbWriteValue) : (setBrcbGi value).Respects (WriteSection conn writerIp) := by
  match value with
  | .bool false => exact .pure _
  | .bool true =>
    refine .atomically fun slot => ?_
    dsimp only
    split_ifs with disabled
    · exact .interrogate slot false nofun
    · exact .field (.internal (.refl slot))
    · exact .interrogate slot true fun _ => by simpa using disabled
  | .unsigned _ | .integer _ | .visibleString _ | .bitString _ | .octetString _ => exact .pure _

theorem setBrcbRptEna (value : RcbWriteValue) :
    (setBrcbRptEna conn writerIp value).Respects (WriteSection conn writerIp) := by
  cases value with
  | bool value =>
    refine .atomically fun slot => ?_
    cases entitled : claimBrcbLocked slot.brcb slot.state conn writerIp with
    | none => exact .field (.internal (.refl slot))
    | some claimed => exact .rptEna slot claimed entitled (applyRptEna_effect claimed value conn writerIp)
  | _ => exact .pure _

theorem enableBrcb (value : RcbWriteValue) (now : Instant) :
    (writeBrcbField .rptEna value conn writerIp now).Respects (Locking (WriteSection conn writerIp)) := by
  refine .bind ((setBrcbRptEna value).mono _ fun _ _ _ => .inside) fun outcome => ?_
  match outcome with
  | .ok true =>
    exact .bind (withEngine_locking (of_field (FieldSection.of_internal (Internal.refreshBrcbIntegrityPeriod now))))
      fun _ => .pure _
  | .ok false => exact .pure _
  | .error error => exact .pure _

theorem writeBrcbField {field : RcbField} (other : field ≠ .resvTms ∧ field ≠ .rptEna ∧ field ≠ .datSet)
    (value : RcbWriteValue) (now : Instant) :
    (writeBrcbField field value conn writerIp now).Respects (WriteSection conn writerIp) := by
  obtain ⟨notResvTms, notRptEna, notDatSet⟩ := other
  cases plain : FieldSection.isPlain field with
  | true => exact of_field (FieldSection.writeBrcbField plain notDatSet value conn writerIp now)
  | false =>
    cases field with
    | gi => exact setBrcbGi value
    | resvTms => exact absurd rfl notResvTms
    | rptEna => exact absurd rfl notRptEna
    | _ => cases plain

theorem writeBrcbField_locking (conn : ConnectionId) (writerIp : Option IpAddr) {field : RcbField}
    (other : field ≠ .resvTms) (value : RcbWriteValue) (now : Instant) :
    (Reporting.writeBrcbField field value conn writerIp now).Respects (Locking (WriteSection conn writerIp)) := by
  by_cases rptEna : field = .rptEna
  · rw [rptEna]
    exact enableBrcb value now
  by_cases datSet : field = .datSet
  · rw [datSet]
    exact locking_of_field (FieldSection.setBrcbDatSet value)
  · exact (writeBrcbField ⟨other, rptEna, datSet⟩ value now).mono _ fun _ _ _ => .inside

theorem claimBrcb : (claimBrcb conn writerIp).Respects (WriteSection conn writerIp) := by
  refine .atomically fun slot => ?_
  cases entitled : claimBrcbLocked slot.brcb slot.state conn writerIp with
  | none => exact .field (.internal (.refl slot))
  | some state => exact .claim slot state entitled

end WriteSection

theorem ReserveSection.setBrcbResvTms {conn : ConnectionId} {writerIp : Option IpAddr} (value : RcbWriteValue) :
    (setBrcbResvTms conn writerIp value).Respects (ReserveSection conn writerIp) := by
  unfold Reporting.setBrcbResvTms
  split
  · exact .pure _
  next value _ =>
  refine .atomically fun slot => ?_
  cases entitled : claimBrcbLocked slot.brcb slot.state conn writerIp with
  | none => exact .refused slot
  | some claimed => exact .apply slot claimed value entitled

open Proc

def Event.isNeutral : Event → Bool
  | .started .. | .continued _ | .resynchronized _ | .enabled _ => false
  | _ => true

theorem Event.isSegment_of_neutral {event : Event} (neutral : event.isNeutral = true) : event.isSegment = false := by
  cases event <;> first | rfl | cases neutral

structure Calm (before : Slot) (events : List Event) (after : Slot) : Prop where
  rptEna : after.state.rptEna = before.state.rptEna
  point : after.state.rewindPoint = before.state.rewindPoint
  partialReport : after.partialReport = before.partialReport ∨ after.partialReport = none
  engineLocked : after.engineLocked = before.engineLocked
  events : ∀ event ∈ events, event.isNeutral = true

namespace Calm

variable {α : Type}

theorem refl (slot : Slot) : Calm slot [] slot := ⟨rfl, rfl, .inl rfl, rfl, by simp⟩

theorem readState (read : BrcbState → α) : (readState read).Respects Calm := .atomically fun slot => .refl slot

theorem readSlot (read : Slot → α) : (readSlot read).Respects Calm := .atomically fun slot => .refl slot

theorem readBuffer (read : InMemoryReportBuffer → α) : (readBuffer read).Respects Calm :=
  .whenReady fun slot => .refl slot

theorem modifyBuffer (update : InMemoryReportBuffer → InMemoryReportBuffer) : (modifyBuffer update).Respects Calm :=
  .whenReady fun _ => ⟨rfl, rfl, .inl rfl, rfl, by simp⟩

theorem pushEvents_neutral (buffer : InMemoryReportBuffer) (entry : ReportEntry) :
    ∀ event ∈ pushEvents buffer entry, event.isNeutral = true := by
  intro event member
  unfold pushEvents at member
  split_ifs at member
  · cases member
  · rw [List.mem_singleton.mp member]
    rfl
  · rcases List.mem_append.mp member with old | new
    · obtain ⟨entry, -, same⟩ := List.mem_map.mp old
      rw [← same]
      rfl
    · rw [List.mem_singleton.mp new]
      rfl

theorem enqueues {program : BrcbM α} (enqueuing : program.Respects EnqueueSection) : program.Respects Calm := by
  refine enqueuing.mono _ fun slot _ _ ran => ?_
  cases ran with
  | push entry => exact ⟨rfl, rfl, .inl rfl, rfl, pushEvents_neutral slot.reportBuffer entry⟩
  | enqueued =>
    refine ⟨?_, onEnqueue_rewindPoint slot.state, .inl rfl, rfl, by simp⟩
    unfold BrcbState.onEnqueue
    split <;> rfl
  | read | allocate | window | interrogated | integrity => exact ⟨rfl, rfl, .inl rfl, rfl, by simp⟩

theorem forgets {program : BrcbM α} (forgetting : program.Respects ForgetSection) : program.Respects Calm := by
  refine forgetting.mono _ fun _ _ _ ran => ?_
  cases ran with
  | forget => exact ⟨rfl, rfl, .inr rfl, rfl, by simp⟩
  | read | format => exact ⟨rfl, rfl, .inl rfl, rfl, by simp⟩

end Calm

end Iec61850.Reporting
