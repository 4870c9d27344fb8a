import Iec61850.Reporting.Section
import Iec61850.Reporting.Stream

/-!
Every operation on a block, run undisturbed, is a path of moves of its transmitter.
-/

namespace Iec61850.Reporting

open Concurrency Model Transmitter Slot BrcbState Proc Outcome

/-- How entries are encoded under a configuration: what a pass copies, for the connection it serves.
No proof below looks into it. -/
@[irreducible] def encoderOf (rptId : String) (optFlds : OptFlds) (datSet : String)
    (confRev : UInt32) (dataset : Option Dataset) (peers : ConnectionId → Option Peer)
    (live : LiveValues) : Encoder :=
  fun connId sqNum isOverflow entry =>
    FlushContext.encode
      { connId, now := 0, rptId, optFlds, datSet, confRev
        dataset := dataset.getD { name := datSet, entries := [] }
        maxPduSizeBytes := (peers connId).elim unregisteredMaxPduSizeBytes (·.maxPduSizeBytes) }
      live sqNum isOverflow entry

def BrcbState.holder (state : BrcbState) : Option ConnectionId :=
  match state.rptEna with
  | true => state.clientConnId
  | false => none

def Slot.view (slot : Slot) : Transmitter where
  encode :=
    encoderOf slot.state.rptId slot.state.optFlds slot.state.datSet slot.state.confRev slot.dataset slot.peers
      slot.live
  buffer := slot.reportBuffer
  point := slot.state.rewindPoint
  holder := slot.state.holder
  partialReport := slot.partialReport
  sqNum := slot.state.sqNum
  overflowOnEnable := slot.state.overflowOnEnable

/-- The outcome of an operation is reached by moves of the transmitter that emit the same events. -/
structure Simulated {α : Type} (slot : Slot) (outcome : Outcome Slot Event α) : Prop where
  path : Path Move slot.view outcome.events outcome.state.view
  held : outcome.state.Held

section Moves

variable {α : Type} {slot : Slot}

theorem Simulated.silent {outcome : Outcome Slot Event α} (same : outcome.state.view = slot.view)
    (quiet : outcome.events = []) (held : outcome.state.Held) : Simulated slot outcome := by
  refine ⟨?_, held⟩
  rw [same, quiet]
  exact .refl _

theorem onEnqueue_eq (state : BrcbState) :
    state.onEnqueue = { state with transmitAnchor := state.onEnqueue.transmitAnchor } := by
  unfold onEnqueue
  split <;> rfl

end Moves

/-- What happens in a tick before the block is served: entries are enqueued, for the same client. -/
structure Prepares (slot : Slot) (events : List Event) (next : Slot) : Prop where
  path : Path Move slot.view events next.view
  rptEna : next.state.rptEna = slot.state.rptEna
  clientConnId : next.state.clientConnId = slot.state.clientConnId

section Enqueues

variable {slot : Slot}

theorem Prepares.refl (slot : Slot) : Prepares slot [] slot := ⟨.refl _, rfl, rfl⟩

theorem Prepares.trans {middle next : Slot} {earlier later : List Event} (front : Prepares slot earlier middle)
    (back : Prepares middle later next) : Prepares slot (earlier ++ later) next :=
  ⟨front.path.trans back.path, back.rptEna.trans front.rptEna, back.clientConnId.trans front.clientConnId⟩

theorem Prepares.held {next : Slot} {events : List Event} (prepares : Prepares slot events next)
    (held : slot.Held) : next.Held := by
  unfold Held
  rw [prepares.rptEna, prepares.clientConnId]
  exact held

theorem EnqueueSection.prepares {next : Slot} {events : List Event} (ran : EnqueueSection slot events next) :
    Prepares slot events next := by
  cases ran with
  | push entry => exact ⟨.single (Move.push slot.view entry), rfl, rfl⟩
  | enqueued =>
    have point := onEnqueue_rewindPoint slot.state
    have same : view { slot with state := slot.state.onEnqueue } = slot.view := by
      rw [onEnqueue_eq] at point ⊢
      simp only [view, point]
      rfl
    refine ⟨same ▸ .refl _, ?_, ?_⟩ <;> rw [onEnqueue_eq]
  | read | allocate | window | interrogated | integrity => exact ⟨.refl _, rfl, rfl⟩

theorem prepares_of_enqueues {α : Type} {program : BrcbM α} (enqueues : program.Respects EnqueueSection) (slot : Slot) :
    Prepares slot (program.run slot).events (program.run slot).state :=
  (enqueues.mono Prepares fun _ _ _ => EnqueueSection.prepares).run Prepares.refl (fun _ _ _ _ _ => Prepares.trans) slot

theorem tickBrcb_run (slot : Slot) (now : Instant) (nowMs : UInt64) : ∃ events next, Prepares slot events next ∧
      (tickBrcb now nowMs).run slot =
        ((serveBrcb next.state.rptEna next.state.clientConnId now).run next).prepend events := by
  unfold tickBrcb
  simp only [run_bind, readState_run, prepend_nil]
  have window := prepares_of_enqueues (EnqueueSection.expireWindow now) slot
  generalize (expireWindow now).run slot = afterWindow at window ⊢
  generalize (_ && _ && afterWindow.state.state.gi) = interrogated
  have interrogation := prepares_of_enqueues (EnqueueSection.tickGi interrogated nowMs) afterWindow.state
  generalize (tickGi interrogated nowMs).run afterWindow.state = afterGi at interrogation ⊢
  generalize (_ && _ && decide (0 < afterWindow.state.state.intgPdMs)) = integral
  have integrity := prepares_of_enqueues (EnqueueSection.tickIntegrity integral
    afterWindow.state.state.intgPdMs now nowMs) afterGi.state
  refine ⟨_, _, window.trans (interrogation.trans integrity), ?_⟩
  rw [(interrogation.trans integrity).rptEna, (interrogation.trans integrity).clientConnId]
  simp [prepend]

end Enqueues

section Losses

variable {slot : Slot}

theorem forgotten_view (slot : Slot) : slot.forgotten.view = slot.view.forgotten := by
  rfl

theorem holder_eq_none {state : BrcbState} (disabled : state.rptEna = false) : state.holder = none := by
  simp [BrcbState.holder, disabled]

theorem client_of_holder {conn : ConnectionId} (serves : slot.view.holder = some conn) :
    slot.state.clientConnId = some conn := by
  simp only [view, BrcbState.holder] at serves
  split at serves
  · exact serves
  · cases serves

theorem enabled_of_holder {conn : ConnectionId} (serves : slot.view.holder = some conn) : slot.state.rptEna = true := by
  cases enabled : slot.state.rptEna with
  | true => rfl
  | false => simp [view, holder_eq_none enabled] at serves

theorem connectionDropped_view (slot : Slot) (now : Instant) :
    view { slot with state := slot.state.connectionDropped now } = { slot.view with holder := none } := by
  unfold BrcbState.connectionDropped
  cases slot.state.resvTms <;> simp [view, BrcbState.holder, BrcbState.rewindPoint]

theorem connectionDropped_held (slot : Slot) (state : BrcbState) (now : Instant) :
    Held { slot with state := state.connectionDropped now } := by
  unfold Held connectionDropped
  cases state.resvTms <;> simp

theorem connectionDropped_simulated (conn : ConnectionId) (client : slot.state.clientConnId = some conn) :
    Path Move slot.view (if slot.state.rptEna then [.disabled] else []) { slot.view with holder := none } := by
  cases enabled : slot.state.rptEna with
  | true =>
    have holder : slot.view.holder = some conn := by
      simp [view, BrcbState.holder, enabled, client]
    exact .single (.disable slot.view conn holder)
  | false =>
    have same : { slot.view with holder := none } = slot.view := by
      simp [view, holder_eq_none enabled]
    rw [same]
    exact .refl _

theorem dropped_forgotten_view (slot : Slot) (now : Instant) :
    view { slot.forgotten with state := slot.state.connectionDropped now } =
      Transmitter.forgotten { slot.view with holder := none } := by
  have dropped := connectionDropped_view slot.forgotten now
  rw [forgotten_view] at dropped
  simpa [Slot.forgotten, Transmitter.forgotten] using dropped

theorem onConnectionDropped_simulated (held : slot.Held) (sound : slot.view.Sound) (conn : ConnectionId)
    (now : Instant) : Simulated slot ((onConnectionDropped conn now).run slot) := by
  rw [onConnectionDropped_run]
  by_cases client : slot.state.clientConnId = some conn
  · rw [if_pos client]
    have dropped := connectionDropped_simulated conn client
    by_cases owned : slot.partialReport.any (·.connId == conn) = true
    · rw [if_pos owned]
      refine ⟨?_, connectionDropped_held slot.forgotten slot.state now⟩
      have forgotten := dropped.tail (.forget { slot.view with holder := none } rfl)
      rw [dropped_forgotten_view]
      rwa [List.append_nil] at forgotten
    · rw [if_neg owned]
      refine ⟨?_, connectionDropped_held slot slot.state now⟩
      rw [connectionDropped_view]
      exact dropped
  · rw [if_neg client]
    by_cases owned : slot.partialReport.any (·.connId == conn) = true
    · rw [if_pos owned]
      -- a report kept for a connection that is not the client shows that the block is disabled
      have disabled : slot.view.holder = none := by
        by_contra enabled
        obtain ⟨holder, serves⟩ := Option.ne_none_iff_exists'.mp enabled
        obtain ⟨report, kept⟩ := Option.isSome_iff_exists.mp (Option.isSome_of_any owned)
        have mine : report.connId = conn := by simpa [kept] using owned
        have same : conn = holder := mine.symm.trans (sound.owned holder report serves kept)
        exact client (same ▸ client_of_holder serves)
      refine ⟨?_, held⟩
      exact .single (.forget slot.view disabled)
    · rw [if_neg owned]
      exact .silent rfl rfl held

theorem onConnectionDropped_clear {conn : ConnectionId} (now : Instant) (serves : slot.view.holder = some conn)
    (clear : slot.partialReport = none) : (onConnectionDropped conn now).run slot =
      { result := (), state := { slot with state := slot.state.connectionDropped now }, events := [.disabled] } := by
  have unowned : ¬ slot.partialReport.any (·.connId == conn) = true := by simp [clear]
  rw [onConnectionDropped_run]
  rw [if_neg unowned, if_pos (client_of_holder serves), if_pos (enabled_of_holder serves)]

end Losses

section Flushes

variable {slot : Slot} {context : FlushContext} {entry : ReportEntry} {later : List ReportEntry}

theorem formatted_view (slot : Slot) (id : EntryId) : (slot.formatted id).view = slot.view.formatted id := by
  rfl

theorem entrySent_view (slot : Slot) (id : EntryId) (timeOfEntryMs : UInt64) :
    view { slot with state := slot.state.entrySent id timeOfEntryMs } =
      { slot.view with point := some id, sqNum := slot.view.sqNum + 1 } := by
  simp [view, BrcbState.entrySent, BrcbState.holder, BrcbState.rewindPoint]

theorem anchorAfter_view (slot : Slot) (id : EntryId) :
    view { slot with state := { slot.state with transmitAnchor := .afterEntryId id } } =
      { slot.view with point := some id } := by
  simp [view, BrcbState.holder, BrcbState.rewindPoint]

theorem channel_view (slot : Slot) (channel : Channel) : view { slot with channel } = slot.view := by
  simp [view]

/-- A pass stands before `entries`: it serves the client, nothing is left of an earlier report, and
it encodes as the block is configured. -/
structure Flushing (context : FlushContext) (slot : Slot) (entries : List ReportEntry) : Prop where
  held : slot.Held
  serves : slot.view.holder = some context.connId
  clear : slot.view.partialReport = none
  ordered : Ordered slot.view.buffer.entries
  encodes : context.encode slot.live = slot.view.encode context.connId
  pending : slot.view.pending = entries

theorem Flushing.next {next : Slot} (flushing : Flushing context slot (entry :: later)) (held : next.Held)
    (serves : next.view.holder = slot.view.holder) (clear : next.view.partialReport = none)
    (entries : next.view.buffer.entries = slot.view.buffer.entries) (live : next.live = slot.live)
    (encode : next.view.encode = slot.view.encode) (point : next.view.point = some entry.entryId) :
    Flushing context next later := by
  refine ⟨held, serves.trans flushing.serves, clear, entries ▸ flushing.ordered, ?_, ?_⟩
  · rw [live, encode, flushing.encodes]
  · rw [Transmitter.pending, entries, point]
    have split : entriesAfter slot.view.point slot.view.buffer.entries = [entry] ++ later := flushing.pending
    exact entriesAfter_resumePoint flushing.ordered split

variable {entries : List ReportEntry} {pdus : List Bytes} {connId : ConnectionId}

theorem Flushing.encoded (flushing : Flushing context slot entries) :
    slot.view.encode context.connId slot.view.sqNum slot.view.bufOvfl entry =
      context.encode slot.live slot.state.sqNum slot.view.bufOvfl entry := by
  rw [flushing.encodes]
  rfl

theorem Flushing.channel (flushing : Flushing context slot entries)
    (channel : Channel) : Flushing context { slot with channel } entries := by
  refine ⟨flushing.held, ?_, ?_, ?_, ?_, ?_⟩ <;> rw [channel_view]
  · exact flushing.serves
  · exact flushing.clear
  · exact flushing.ordered
  · exact flushing.encodes
  · exact flushing.pending

theorem Flushing.sent (flushing : Flushing context slot (entry :: later))
    (encoded : context.encode slot.live slot.state.sqNum slot.view.bufOvfl entry = .ok pdus) (some : pdus ≠ []) :
    let next := { slot.formatted entry.entryId with
      state := (slot.formatted entry.entryId).state.entrySent entry.entryId entry.timeOfEntryMs }
    Path Move slot.view (segmentEvents entry.entryId slot.view.bufOvfl pdus ++ [.completed entry.entryId]) next.view ∧
      Flushing context next later ∧ next.view.bufOvfl = false := by
  intro next
  have view : next.view = { slot.view.formatted entry.entryId with
      point := .some entry.entryId, sqNum := slot.view.sqNum + 1 } := by
    rw [entrySent_view, formatted_view]
    simp only [Transmitter.formatted]
  refine ⟨?_, flushing.next flushing.held ?_ ?_ ?_ ?_ ?_ ?_, ?_⟩
  · have path := path_send flushing.serves flushing.clear flushing.pending (flushing.encoded.trans encoded) some
    rw [view]
    simpa only [Transmitter.formatted, flushing.clear] using path
  · rw [view]
    rfl
  · rw [view]
    exact flushing.clear
  · rw [view]
    rfl
  · rfl
  · rw [view]
    rfl
  · rw [view]
  · rw [view]
    rfl

theorem encode_ne_nil {live : LiveValues} {sqNum : UInt16} {isOverflow : Bool}
    (encoded : context.encode live sqNum isOverflow entry = .ok pdus) : pdus ≠ [] :=
  encodePdus_ne_nil encoded

theorem Flushing.lost {taken left : List Bytes} (flushing : Flushing context slot (entry :: later))
    (encoded : context.encode slot.live slot.state.sqNum slot.view.bufOvfl entry = .ok (taken ++ left)) :
    Simulated slot (((onConnectionDropped context.connId context.now).run slot).prepend
      (segmentEvents entry.entryId slot.view.bufOvfl taken)) := by
  rw [onConnectionDropped_clear context.now flushing.serves flushing.clear]
  refine ⟨?_, connectionDropped_held slot slot.state context.now⟩
  simp only [prepend_events, prepend_state, connectionDropped_view]
  exact .single (.startLost slot.view context.connId entry later taken left flushing.serves flushing.clear
    flushing.pending (flushing.encoded.trans encoded))

theorem flushEntries_simulated {implyOverflow : Bool} (sentCount : Nat)
    (flushing : Flushing context slot entries) (implied : implyOverflow = slot.view.bufOvfl) :
    Simulated slot ((flushEntries context implyOverflow sentCount entries).run slot) := by
  induction entries generalizing slot implyOverflow sentCount with
  | nil => exact .silent rfl rfl flushing.held
  | cons entry later ih =>
    subst implied
    unfold flushEntries
    simp only [run_bind, readSlot_run, prepend_nil]
    cases encoded : context.encode slot.live slot.state.sqNum slot.view.bufOvfl entry with
    | error reason =>
      have skipped := Move.skip slot.view context.connId entry later reason flushing.serves flushing.clear
        flushing.pending (flushing.encoded.trans encoded)
      have ahead : Flushing context
          { slot with state := { slot.state with transmitAnchor := .afterEntryId entry.entryId } } later :=
        flushing.next flushing.held rfl flushing.clear rfl rfl rfl rfl
      have further := ih sentCount ahead rfl
      exact ⟨(Path.single skipped).trans further.path, further.held⟩
    | ok pdus =>
      have some := encode_ne_nil encoded
      simp only [run_bind, channelHasRoom_run, prepend_nil]
      cases room : slot.channel.next.hasRoom pdus.length reportChannelCap with
      | false => exact .silent (channel_view _ _) rfl flushing.held
      | true =>
        simp only [Bool.not_true, Bool.false_eq_true, if_false, run_bind]
        obtain ⟨channel, taken, delivery, pushed, ran⟩ := pushSegments_run
          (segmentAccepted entry.entryId slot.view.bufOvfl) 0 pdus { slot with channel := slot.channel.next }
        have unblocked (left : List Bytes) : delivery ≠ .blocked 0 left := by
          have started : ((pushSegments (segmentAccepted entry.entryId slot.view.bufOvfl) 0 pdus).run
              { slot with channel := slot.channel.next }).result ≠ .blocked 0 left :=
            pushSegments_ne_blocked _ left room some
          rwa [ran] at started
        rw [ran, mapIdx_segmentAccepted]
        have reached : Flushing context { slot with channel } (entry :: later) := flushing.channel channel
        have same : view { slot with channel } = slot.view := channel_view slot channel
        cases pushed with
        | complete =>
          obtain ⟨path, ahead, announced⟩ := reached.sent encoded some
          have further := ih (sentCount + 1) ahead announced.symm
          rw [same] at path
          refine ⟨?_, further.held⟩
          simpa using path.trans further.path
        | blocked _ left split =>
          have begun : taken ≠ [] := by
            intro unsent
            exact unblocked left (by simp [unsent])
          have sent : 0 < 0 + taken.length := by simpa using List.length_pos_iff.mpr begun
          simp only [run_bind, if_pos sent, entryFormatted_run, keepPartial_run, run_pure,
            prepend_nil]
          refine ⟨?_, flushing.held⟩
          rw [split] at encoded
          have path := path_start taken left reached.serves reached.clear reached.pending
            (reached.encoded.trans encoded) begun
          rw [← formatted_view, same] at path
          simpa [view] using path
        | gone _ left split =>
          rw [split] at encoded
          have lost := reached.lost encoded
          simp only [run_bind, run_pure]
          refine ⟨?_, lost.held⟩
          simpa [same] using lost.path

def Slot.contextFor (slot : Slot) (connId : ConnectionId) (now : Instant) : FlushContext where
  connId
  now
  rptId := slot.state.rptId
  optFlds := slot.state.optFlds
  datSet := slot.state.datSet
  confRev := slot.state.confRev
  dataset := slot.dataset.getD { name := slot.state.datSet, entries := [] }
  maxPduSizeBytes := (slot.peers connId).elim unregisteredMaxPduSizeBytes (·.maxPduSizeBytes)

theorem contextFor_encode (slot : Slot) (connId : ConnectionId) (now : Instant) :
    (slot.contextFor connId now).encode slot.live = slot.view.encode connId := by
  simp only [view]
  unfold encoderOf
  rfl

/-- A transmission from the anchor starts with the entries ahead and announces a loss the
transmitter does; only an anchor that has not been set gives it nothing to send. -/
theorem entriesAtAnchor_run (sound : slot.view.Sound)
    (serves : slot.view.holder = some connId) (clear : slot.partialReport = none) :
    ∃ next found, (entriesAtAnchor slot.state.transmitAnchor slot.state.lastCommittedEntryId).run slot =
        { result := found, state := next } ∧
      next.view = slot.view ∧ next.Held = slot.Held ∧
      next.dataset = slot.dataset ∧ next.peers = slot.peers ∧ next.live = slot.live ∧
      (found = none ∨ ∃ overflow, found = some (slot.view.pending, overflow) ∧
        (overflow || slot.state.overflowOnEnable) = slot.view.bufOvfl) := by
  have point : slot.view.point = slot.state.rewindPoint := rfl
  unfold entriesAtAnchor
  cases anchor : slot.state.transmitAnchor with
  | none => exact ⟨slot, none, rfl, rfl, rfl, rfl, rfl, rfl, .inl rfl⟩
  | fromHead =>
    simp only [rewindPoint, anchor] at point
    have armed : slot.state.overflowOnEnable = true := sound.armed connId serves clear point
    refine ⟨slot, some (slot.reportBuffer.entries, true), by simp, rfl, rfl, rfl, rfl, rfl, .inr ⟨true, ?_, ?_⟩⟩
    · simp only [Transmitter.pending, point, entriesAfter]
      rfl
    · simp [Transmitter.bufOvfl, view, armed]
  | afterEntryId id =>
    simp only [rewindPoint, anchor] at point
    refine ⟨slot, some (slot.reportBuffer.iterFrom id, slot.reportBuffer.overflow), by simp, rfl, rfl, rfl, rfl,
      rfl, .inr ⟨slot.reportBuffer.overflow, ?_, rfl⟩⟩
    simp only [Transmitter.pending, point, entriesAfter]
    rfl
  | waitingForNext =>
    simp only [rewindPoint, anchor] at point
    have ahead : slot.view.pending = slot.reportBuffer.iterFrom slot.state.lastCommittedEntryId := by
      simp only [Transmitter.pending, point, entriesAfter]
      rfl
    simp only [run_bind, readBuffer_run, prepend_nil]
    by_cases empty : (slot.reportBuffer.iterFrom slot.state.lastCommittedEntryId).isEmpty = true
    · rw [if_pos empty]
      exact ⟨slot, none, rfl, rfl, rfl, rfl, rfl, rfl, .inl rfl⟩
    rw [if_neg empty]
    refine ⟨{ slot with
        state := { slot.state with transmitAnchor := .afterEntryId slot.state.lastCommittedEntryId } },
      some (slot.view.pending, slot.reportBuffer.overflow), by simp [anchor, ahead], ?_, rfl, rfl, rfl, rfl,
      .inr ⟨slot.reportBuffer.overflow, rfl, rfl⟩⟩
    rw [anchorAfter_view, ← point]

theorem flushFromAnchor_simulated (now : Instant) (sentCount : Nat) (held : slot.Held)
    (sound : slot.view.Sound) (ordered : Ordered slot.view.buffer.entries)
    (serves : slot.view.holder = some connId) (clear : slot.partialReport = none) :
    Simulated slot ((flushFromAnchor connId now sentCount).run slot) := by
  obtain ⟨next, found, ran, view, same, dataset, peers, live, result⟩ := entriesAtAnchor_run sound serves clear
  unfold flushFromAnchor
  simp only [run_bind, readState_run, ran, prepend_nil]
  rcases result with none | ⟨overflow, some, announced⟩
  · rw [none]
    exact .silent view rfl (same ▸ held)
  rw [some]
  simp only [run_bind, readSlot_run, prepend_nil, dataset, peers]
  have flushing : Flushing (slot.contextFor connId now) next slot.view.pending := by
    refine ⟨same ▸ held, ?_, ?_, ?_, ?_, ?_⟩ <;> rw [view]
    · exact serves
    · exact clear
    · exact ordered
    · rw [live, contextFor_encode]
      rfl
  have flushed := flushEntries_simulated sentCount flushing (announced.trans (by rw [view]))
  exact ⟨view ▸ flushed.path, flushed.held⟩

section

variable (now : Instant) (held : slot.Held) (sound : slot.view.Sound) (ordered : Ordered slot.view.buffer.entries)

include now held sound ordered

theorem flushBrcbPending_simulated
    (serves : slot.view.holder = some connId) : Simulated slot ((flushBrcbPending connId now).run slot) := by
  unfold flushBrcbPending
  rw [run_bind]
  cases kept : slot.partialReport with
  | none =>
    rw [resumePartial_clear kept]
    exact flushFromAnchor_simulated now 0 held sound ordered serves kept
  | some report =>
    have underWay : slot.view.partialReport = some report := kept
    obtain rfl : report.connId = connId := sound.owned connId report serves kept
    obtain ⟨channel, taken, delivery, pushed, ran⟩ := resumePartial_run kept
    rw [ran]
    have resumed (taken left : List Bytes) (split : report.rest = taken ++ left) :
        Path Move slot.view (taken.map .continued)
          { slot.view with partialReport := some { report with rest := left } } := by
      have path := path_resume slot.view report taken left serves
      rwa [← split, ← underWay] at path
    have taking : view { slot with channel, partialReport := none } =
        { slot.view with partialReport := none } := by
      simp [view]
    cases pushed with
    | complete =>
      have sent := path_complete slot.view report serves underWay
      have sentSound := sound_of_path sent sound
      have further (next : Slot)
          (view : next.view = { slot.view with
            partialReport := none, point := some report.entry.1, sqNum := slot.view.sqNum + 1 })
          (held : next.Held) (clear : next.partialReport = none) :
          Simulated next ((flushFromAnchor report.connId now 1).run next) := by
        refine flushFromAnchor_simulated now 1 held ?_ ?_ ?_ clear <;> rw [view]
        · exact sentSound
        · exact ordered
        · exact serves
      have view := entrySent_view { slot with channel, partialReport := none } report.entry.1 report.entry.2
      have flushed := further _ view held rfl
      refine ⟨?_, flushed.held⟩
      simpa using sent.trans flushed.path
    | blocked _ left split =>
      refine ⟨?_, held⟩
      simpa [view] using resumed taken left split
    | gone _ left split =>
      have lost : (onConnectionDropped report.connId now).run { slot with channel, partialReport := none } = _ :=
        onConnectionDropped_clear now (by rw [taking]; exact serves) rfl
      have dropped := connectionDropped_view { slot with channel, partialReport := none } now
      simp only [run_pure, run_bind, lost]
      refine ⟨?_, connectionDropped_held { slot with channel, partialReport := none } slot.state now⟩
      simp only [prepend_events, prepend_state, dropped, List.append_nil]
      exact (resumed taken left split).tail (.lose _ report.connId serves)

theorem serveBrcb_simulated : Simulated slot ((serveBrcb slot.state.rptEna slot.state.clientConnId now).run slot) := by
  unfold serveBrcb
  cases enabled : slot.state.rptEna with
  | false =>
    simp only [Bool.not_false, if_true, forgetPartial_run]
    refine ⟨?_, held⟩
    exact .single (.forget slot.view (holder_eq_none enabled))
  | true =>
    cases client : slot.state.clientConnId with
    | none => exact .silent rfl rfl held
    | some connId =>
      have serves : slot.view.holder = some connId := by
        simp [view, BrcbState.holder, enabled, client]
      have flushed := flushBrcbPending_simulated now held sound ordered serves
      simp only [Bool.not_true, Bool.false_eq_true, if_false, run_bind, run_pure]
      refine ⟨?_, flushed.held⟩
      simpa using flushed.path

end

end Flushes

section Writes

variable {slot : Slot}

theorem claimBrcbLocked_view {brcb : Brcb} {writer : ConnectionId} {writerIp : Option IpAddr} {state : BrcbState}
    (held : slot.Held) (claimed : claimBrcbLocked brcb slot.state writer writerIp = some state) :
    view { slot with state } = slot.view ∧ Held { slot with state } ∧
      (state.rptEna = true → state.clientConnId = some writer ∨ state.clientConnId = none) := by
  unfold claimBrcbLocked at claimed
  dsimp only at claimed
  split_ifs at claimed with mine taken free owned
  · cases claimed
    exact ⟨rfl, held, fun _ => .inl mine⟩
  · cases claimed
    refine ⟨rfl, held, fun enabled => .inr ?_⟩
    simp_all
  · cases claimed
    have disabled : slot.state.rptEna = false := by
      cases enabled : slot.state.rptEna with
      | false => rfl
      | true =>
        have client := held enabled
        simp_all
    refine ⟨?_, ?_, ?_⟩
    · simp [view, BrcbState.holder, BrcbState.rewindPoint, disabled]
    · simp [Held, disabled]
    · simp [disabled]

theorem applyEntryIdWrite_simulated (id : EntryId) (accepted : ((applyEntryIdWrite id).run slot).result = .ok ()) :
    Simulated slot ((applyEntryIdWrite id).run slot) := by
  rw [applyEntryIdWrite_run] at accepted ⊢
  dsimp only at accepted ⊢
  rw [accepted]
  simp only [Except.isOk, Except.toBool, if_true]
  unfold resynchronize at accepted ⊢
  cases enabled : slot.state.rptEna with
  | true => simp [enabled] at accepted
  | false =>
    have disabled : slot.view.holder = none := holder_eq_none enabled
    have resynchronized := Path.single (Move.resynchronize slot.view id disabled)
    refine ⟨?_, ?_⟩
    · cases zero : id.isZero with
      | true => simpa [view, BrcbState.holder, BrcbState.rewindPoint, enabled, zero] using resynchronized
      | false =>
        simp only [enabled, zero, Bool.false_eq_true, if_false] at accepted ⊢
        cases seek : slot.reportBuffer.seekToAfterEntryId id with
        | foundWithNext next | foundLast =>
          simpa [view, BrcbState.holder, BrcbState.rewindPoint, enabled, zero] using resynchronized
        | notFound => simp [seek] at accepted
    · intro serving
      simp only [Bool.false_eq_true, if_false] at serving
      split at serving <;> simp at serving

theorem enable_simulated (slot : Slot) (conn : ConnectionId) (owner : Option IpAddr) (now : Instant)
    (disabled : slot.state.rptEna = false) : Simulated slot (((withEngine (refreshBrcbIntegrityPeriod now)).run
      { slot with state := slot.state.enable conn owner }).prepend [.enabled conn]) := by
  rw [withEngine_run, refreshBrcbIntegrityPeriod_run]
  refine ⟨?_, by simp [Slot.Held, Slot.forgotten, enable]⟩
  have moved := Path.single (Move.enable slot.view conn (holder_eq_none disabled))
  have point := enable_rewindPoint slot.state conn owner
  simp only [Slot.view, Slot.forgotten, prepend_state, prepend_events, List.append_nil, point]
  exact moved

theorem disable_path (held : slot.Held) (owner : Option IpAddr) (enabled : slot.state.rptEna = true) :
    Path Move slot.view [.disabled] (Slot.view { slot with state := { slot.state with rptEna := false, owner } }) := by
  obtain ⟨conn, client⟩ := Option.isSome_iff_exists.mp (held enabled)
  have serves : slot.view.holder = some conn := by
    simp [view, BrcbState.holder, enabled, client]
  have moved := Path.single (Move.disable slot.view conn serves)
  simpa [view, BrcbState.holder, BrcbState.rewindPoint] using moved

theorem writeRptEna_simulated (held : slot.Held) (value : RcbWriteValue) (conn : ConnectionId)
    (writerIp : Option IpAddr) (now : Instant) :
    Simulated slot ((writeBrcbField .rptEna value conn writerIp now).run slot) := by
  unfold writeBrcbField
  simp only [run_bind]
  cases value with
  | bool value =>
    simp only [setBrcbRptEna, run_atomically]
    cases claim : claimBrcbLocked slot.brcb slot.state conn writerIp with
    | none => exact .silent rfl rfl held
    | some claimed =>
      obtain ⟨view, stillHeld, mine⟩ := claimBrcbLocked_view held claim
      have silent {α : Type} {result : α} : Simulated slot { result, state := { slot with state := claimed } } :=
        .silent view rfl stillHeld
      unfold applyRptEna
      cases value with
      | true =>
        simp only [if_true]
        by_cases unbound : claimed.datSet.isEmpty = true
        · simp only [if_pos unbound]
          exact silent
        simp only [if_neg unbound]
        cases enabled : claimed.rptEna with
        | true =>
          -- the holder enables the block once more
          have client : claimed.clientConnId = some conn := by
            have some := stillHeld enabled
            rcases mine enabled with same | none <;> simp_all
          refine .silent ?_ rfl ?_
          · rw [← view]
            simp [Slot.view, BrcbState.holder, BrcbState.rewindPoint, enabled, client]
          · simp [Held]
        | false =>
          have moved := enable_simulated { slot with state := claimed } conn
            (if claimed.resvTms = .notReserved then writerIp else claimed.owner) now enabled
          simp only [Bool.false_eq_true, if_false, run_bind, run_pure]
          refine ⟨?_, moved.held⟩
          simpa [view] using moved.path
      | false =>
        simp only [Bool.false_eq_true, if_false]
        cases enabled : claimed.rptEna with
        | true =>
          have moved := disable_path stillHeld
            (if claimed.resvTms = .notReserved then none else claimed.owner) enabled
          rw [view] at moved
          refine ⟨?_, by simp [Held]⟩
          simpa using moved
        | false =>
          exact silent
  | _ => exact .silent rfl rfl held

theorem setBrcbEntryId_simulated (value : RcbWriteValue)
    (accepted : ((setBrcbEntryId value).run slot).result = .accepted) :
    Simulated slot ((setBrcbEntryId value).run slot) := by
  cases value with
  | octetString bytes =>
    unfold setBrcbEntryId at accepted ⊢
    by_cases short : bytes.length ≠ 8
    · simp [short] at accepted
    simp only [short, if_false, run_bind] at accepted ⊢
    cases written : ((applyEntryIdWrite (.fromBytes bytes)).run slot).result with
    | error reason => cases reason <;> simp [written] at accepted
    | ok value =>
      have resynchronized := applyEntryIdWrite_simulated (.fromBytes bytes) written
      refine ⟨?_, resynchronized.held⟩
      simpa using resynchronized.path
  | _ => simp [setBrcbEntryId] at accepted

end Writes

section Runs

theorem ordered_of_sublist {entries : List ReportEntry} {earlier later : List Event}
    (stored : entries.Sublist (enqueuedOf earlier)) (ordered : Ordered (enqueuedOf (earlier ++ later))) :
    Ordered entries := by
  rw [enqueuedOf_append] at ordered
  exact (List.pairwise_append.mp ordered).1.sublist stored

theorem sublist_of_path {first last : Transmitter} {trace events : List Event} (path : Path Move first events last)
    (stored : first.buffer.entries.Sublist (enqueuedOf trace)) :
    last.buffer.entries.Sublist (enqueuedOf (trace ++ events)) :=
  path.invariant (fun transmitter trace => transmitter.buffer.entries.Sublist (enqueuedOf trace))
    (fun _ _ _ _ stored move => move.entries_sublist stored) trace stored

variable {slot : Slot} {trace : List Event}

theorem tick_simulated (held : slot.Held) (sound : slot.view.Sound)
    (stored : slot.view.buffer.entries.Sublist (enqueuedOf trace)) (now : Instant) (nowMs : UInt64)
    (ordered : Ordered (enqueuedOf (trace ++ ((tickBrcb now nowMs).run slot).events))) :
    Simulated slot ((tickBrcb now nowMs).run slot) := by
  obtain ⟨events, next, prepares, ran⟩ := tickBrcb_run slot now nowMs
  rw [ran] at ordered ⊢
  have stillStored := sublist_of_path prepares.path stored
  rw [prepend_events, ← List.append_assoc] at ordered
  have served := serveBrcb_simulated now (prepares.held held) (sound_of_path prepares.path sound)
    (ordered_of_sublist stillStored ordered)
  exact ⟨prepares.path.trans served.path, served.held⟩

theorem withEngine_simulated {α : Type} {program : BrcbM α} (held : slot.Held)
    (simulated : ∀ locked : Slot, locked.view = slot.view → locked.Held →
      Simulated locked (program.run locked)) : Simulated slot ((withEngine program).run slot) := by
  rw [withEngine_run]
  have locked := simulated { slot with engineLocked := true } rfl held
  exact ⟨locked.path, locked.held⟩

theorem write_simulated (field : RcbField) (writable : field ≠ .confRev ∧ field ≠ .sqNum ∧ field ≠ .resv)
    (value : RcbWriteValue) (conn : ConnectionId) (now : Instant) (held : slot.Held)
    (written : ∀ state, claimBrcbLocked slot.brcb slot.state conn ((slot.peers conn).map (·.ip)) = some state →
      Simulated { slot with state } ((writeBrcbField field value conn ((slot.peers conn).map (·.ip)) now).run { slot
      with state })) :
    Simulated slot ((handleSetBrcbField field value conn now).run slot) := by
  rw [handleSetBrcbField_run field writable]
  dsimp only
  split
  · exact .silent rfl rfl held
  cases claim : claimBrcbLocked slot.brcb slot.state conn ((slot.peers conn).map (·.ip)) with
  | none => exact .silent rfl rfl held
  | some state =>
    obtain ⟨view, _, _⟩ := claimBrcbLocked_view held claim
    have field := written state claim
    have path := (Path.single (Move.claim slot.view conn)).trans (view ▸ field.path)
    exact ⟨path, field.held⟩

theorem flushAllBrcbPending_simulated (now : Instant) (held : slot.Held) (sound : slot.view.Sound)
    (ordered : Ordered slot.view.buffer.entries) : Simulated slot ((flushAllBrcbPending now).run slot) := by
  unfold flushAllBrcbPending
  simp only [run_bind, readState_run, prepend_nil]
  by_cases enabled : slot.state.rptEna = true
  · rw [if_pos enabled]
    cases client : slot.state.clientConnId with
    | none => exact .silent rfl rfl held
    | some connId =>
      refine flushBrcbPending_simulated now held sound ordered ?_
      simp [view, BrcbState.holder, enabled, client]
  · rw [if_neg enabled]
    exact .silent rfl rfl held

theorem tickBrcbReservations_simulated (held : slot.Held) (now : Instant) :
    Simulated slot ((tickBrcbReservations now).run slot) := by
  unfold tickBrcbReservations
  rw [lockState_run]
  unfold tickReservation
  split
  · exact .silent rfl rfl held
  · exact .silent rfl rfl held
  split_ifs with early enabled
  · exact .silent rfl rfl held
  · refine .silent ?_ rfl held
    simp [view, BrcbState.holder, BrcbState.rewindPoint]
  · refine .silent ?_ rfl (by simp [Held, enabled])
    simp [view, BrcbState.holder, BrcbState.rewindPoint, enabled]

theorem Prepares.simulated {α : Type} {outcome : Outcome Slot Event α}
    (prepares : Prepares slot outcome.events outcome.state) (held : slot.Held) : Simulated slot outcome :=
  ⟨prepares.path, prepares.held held⟩

theorem Simulated.andThen {α β : Type} {program : BrcbM α} {result : α → β}
    (simulated : Simulated slot (program.run slot)) :
    Simulated slot ((do let value ← program; return result value : BrcbM β).run slot) := by
  rw [run_bind]
  refine ⟨?_, simulated.held⟩
  simpa using simulated.path

theorem withChannel_simulated {α : Type} {program : BrcbM α} (channel : Channel)
    (simulated : Simulated { slot with channel, engineLocked := true }
      (program.run { slot with channel, engineLocked := true })) :
    Simulated slot ((do
      modifySlot fun slot => { slot with channel }
      let _ ← withEngine program
      return Answer.accepted : BrcbM Answer).run slot) := by
  simp only [run_bind, modifySlot_run, withEngine_run, run_pure, prepend_nil]
  refine ⟨?_, simulated.held⟩
  simp only [prepend_events, prepend_state, List.append_nil]
  exact simulated.path

theorem step_simulated (step : Step) (held : slot.Held) (sound : slot.view.Sound)
    (stored : slot.view.buffer.entries.Sublist (enqueuedOf trace))
    (ordered : Ordered (enqueuedOf (trace ++ step.events slot))) (routine : step.Routine slot) :
    Simulated slot (step.program.run slot) := by
  cases step with
  | enqueue nowMs isIntegrity isGi payload | enqueueSnapshot nowMs isIntegrity isGi snapshot =>
    exact .andThen ((prepares_of_enqueues (EnqueueSection.enqueueAllocated nowMs _) slot).simulated held)
  | enqueueStored oldestCommit timeMs snapshot =>
    exact .andThen
      ((prepares_of_enqueues (EnqueueSection.enqueueStoredEntry oldestCommit timeMs snapshot)
        slot).simulated held)
  | write field value conn now =>
    unfold Step.Routine at routine
    split at routine
    · cases ‹Step.write _ _ _ _ = _›
      refine write_simulated .rptEna (by simp) value conn now held fun state claim => ?_
      exact writeRptEna_simulated (claimBrcbLocked_view held claim).2.1 value conn _ now
    · cases ‹Step.write _ _ _ _ = _›
      refine write_simulated .entryId (by simp) value conn now held fun state claim => ?_
      rw [handleSetBrcbField_run .entryId (by simp)] at routine
      simp only [brcbHasField, claim, Bool.not_true, Bool.false_eq_true, if_false, prepend_result] at routine
      exact setBrcbEntryId_simulated value routine
    · exact routine.elim
    · next other => exact (other field value conn now rfl).elim
  | reservationTick now =>
    refine .andThen (withEngine_simulated held fun locked same stillHeld => ?_)
    exact tickBrcbReservations_simulated stillHeld now
  | connectionLost conn now =>
    refine .andThen (withEngine_simulated held fun locked same stillHeld => ?_)
    exact onConnectionDropped_simulated stillHeld (same ▸ sound) conn now
  | tick channel now nowMs =>
    refine withChannel_simulated channel
      (tick_simulated (by exact held) (by exact sound) (by exact stored) now nowMs ?_)
    simpa [Step.events, Step.program] using ordered
  | flush channel now =>
    exact withChannel_simulated channel (flushAllBrcbPending_simulated now (by exact held) (by exact sound)
      (by exact ordered_of_sublist stored ordered))

theorem run_simulated (trace : List Event) (steps : List Step) (held : slot.Held) (sound : slot.view.Sound)
    (stored : slot.view.buffer.entries.Sublist (enqueuedOf trace))
    (ordered : Ordered (enqueuedOf (trace ++ traceOf steps slot))) (routine : Along Step.Routine steps slot) :
    Path Move slot.view (traceOf steps slot) (runSteps steps slot).view := by
  induction steps generalizing slot trace with
  | nil => exact .refl _
  | cons step rest ih =>
    obtain ⟨now, later⟩ := routine
    simp only [traceOf, runSteps] at ordered ⊢
    rw [← List.append_assoc] at ordered
    have front : Ordered (enqueuedOf (trace ++ step.events slot)) := by
      rw [enqueuedOf_append] at ordered
      exact (List.pairwise_append.mp ordered).1
    have simulated := step_simulated step held sound stored front now
    exact simulated.path.trans (ih _ simulated.held (sound_of_path simulated.path sound)
      (sublist_of_path simulated.path stored) ordered later)

end Runs

end Iec61850.Reporting
