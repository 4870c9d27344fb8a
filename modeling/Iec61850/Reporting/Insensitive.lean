import Iec61850.Reporting.Run

/-!
The transmission of a block does not depend on who it is reserved for, on who holds it while it is
disabled, nor on the last EntryID written unless the anchor waits to be resolved against it.
-/

namespace Iec61850.Reporting

open Concurrency Model Proc Slot

/-- States that transmit alike. Their holder is the same while they are enabled, and throughout a
pass that serves it. -/
def BrcbState.Alike (serving : Prop) (left right : BrcbState) : Prop :=
  ∃ resvTms owner clientConnId reservationTimeout lastCommittedEntryId,
    right = { left with resvTms, owner, clientConnId, reservationTimeout, lastCommittedEntryId } ∧
      (serving ∨ left.rptEna = true → clientConnId = left.clientConnId) ∧
      (left.transmitAnchor = .waitingForNext → lastCommittedEntryId = left.lastCommittedEntryId)

def Slot.Alike (serving : Prop) (left right : Slot) : Prop :=
  ∃ state, right = { left with state } ∧ left.state.Alike serving state

variable {serving : Prop}

theorem BrcbState.Alike.refl (state : BrcbState) : state.Alike serving state :=
  ⟨_, _, _, _, _, rfl, fun _ => rfl, fun _ => rfl⟩

theorem BrcbState.Alike.symm {left right : BrcbState} (alike : left.Alike serving right) :
    right.Alike serving left := by
  obtain ⟨resvTms, owner, client, timeout, last, rfl, serves, resolves⟩ := alike
  exact ⟨_, _, _, _, _, rfl, fun holds => (serves holds).symm, fun waits => (resolves waits).symm⟩

theorem BrcbState.Alike.trans {first second third : BrcbState} (front : first.Alike serving second)
    (back : second.Alike serving third) : first.Alike serving third := by
  obtain ⟨resvTms, owner, client, timeout, last, rfl, serves, resolves⟩ := front
  obtain ⟨laterResv, laterOwner, laterClient, laterTimeout, laterLast, rfl, laterServes, laterResolves⟩ := back
  exact ⟨_, _, _, _, _, rfl, fun holds => (laterServes holds).trans (serves holds),
    fun waits => (laterResolves waits).trans (resolves waits)⟩

theorem BrcbState.Alike.rewindPoint {left right : BrcbState} (alike : left.Alike serving right) :
    right.rewindPoint = left.rewindPoint := by
  obtain ⟨resvTms, owner, client, timeout, id, rfl, -, resolves⟩ := alike
  unfold BrcbState.rewindPoint
  cases anchor : left.transmitAnchor with
  | waitingForNext => simp [resolves anchor]
  | _ => rfl

section Sections

variable {α : Type}

theorem lockState_insensitive {body : BrcbState → Outcome BrcbState Event α}
    (holds : ∀ left right, BrcbState.Alike serving left right → (body left).events = (body right).events ∧
      (body left).result = (body right).result ∧ (body left).state.Alike serving (body right).state) :
    Insensitive (Alike serving) (lockState body) := by
  refine .atomically ?_
  rintro left _ ⟨state, rfl, alike⟩
  obtain ⟨events, result, next⟩ := holds left.state state alike
  exact ⟨events, result, _, rfl, next⟩

theorem readState_insensitive {read : BrcbState → α}
    (same : ∀ left right, BrcbState.Alike serving left right → read left = read right) :
    Insensitive (Alike serving) (readState read) :=
  lockState_insensitive fun left right alike => ⟨rfl, same left right alike, alike⟩

theorem readState_bind_insensitive {β : Type} {read : BrcbState → α} {rest : α → BrcbM β}
    (same : ∀ left right, BrcbState.Alike serving left right → rest (read right) = rest (read left))
    (continues : ∀ result, Insensitive (Alike serving) (rest result)) :
    Insensitive (Alike serving) (readState read >>= rest) := by
  rintro left _ ⟨state, rfl, alike⟩
  simp only [run_bind, readState_run, Outcome.prepend_nil, same left.state state alike]
  exact continues _ _ _ ⟨state, rfl, alike⟩

theorem modifyState_insensitive {update : BrcbState → BrcbState}
    (keeps : ∀ left right, BrcbState.Alike serving left right → (update left).Alike serving (update right)) :
    Insensitive (Alike serving) (modifyState update) :=
  lockState_insensitive fun left right alike => ⟨rfl, rfl, keeps left right alike⟩

theorem lockBuffer_insensitive (body : InMemoryReportBuffer → Outcome InMemoryReportBuffer Event α) :
    Insensitive (Alike serving) (lockBuffer body) := by
  rintro left _ ⟨state, rfl, alike⟩
  exact ⟨rfl, rfl, state, rfl, alike⟩

theorem withEngine_insensitive {body : BrcbM α} (inside : Insensitive (Alike serving) body) :
    Insensitive (Alike serving) (withEngine body) := by
  refine .bind (.whenReady ?_) fun _ => .bind inside fun _ => .bind (.atomically ?_) fun _ => .pure _ <;>
    · rintro left _ ⟨state, rfl, alike⟩
      exact ⟨rfl, rfl, state, rfl, alike⟩

end Sections

variable (committed openedAt oldestCommit : Nat) (timeMs nowMs : UInt64) (snapshot : EnqueuedSnapshot)

theorem allocateEntry_insensitive : Insensitive (Alike serving) (allocateEntry nowMs) := by
  refine lockState_insensitive ?_
  rintro left _ ⟨resvTms, owner, client, timeout, id, rfl, serves, resolves⟩
  exact ⟨rfl, rfl, resvTms, owner, client, timeout, id, rfl, serves, resolves⟩

theorem onEnqueue_insensitive : Insensitive (Alike serving) (modifyState (·.onEnqueue)) := by
  refine modifyState_insensitive ?_
  rintro left _ ⟨resvTms, owner, client, timeout, id, rfl, serves, resolves⟩
  refine ⟨resvTms, owner, client, timeout, id, ?_, ?_, ?_⟩
  · unfold BrcbState.onEnqueue
    cases anchor : left.transmitAnchor with
    | waitingForNext => simp [resolves anchor]
    | _ => simp [anchor]
  · unfold BrcbState.onEnqueue
    cases left.transmitAnchor <;> exact serves
  · unfold BrcbState.onEnqueue
    cases anchor : left.transmitAnchor <;> simp [anchor]

theorem enqueueAllocated_insensitive (entry : EntryId → ReportEntry) :
    Insensitive (Alike serving) (enqueueAllocated nowMs entry) :=
  .bind (allocateEntry_insensitive nowMs) fun _ =>
    .bind (lockBuffer_insensitive _) fun _ => .bind onEnqueue_insensitive fun _ => .pure _

theorem enqueueUnlessPurged_insensitive {check : BrcbM Bool} {purged : Slot → Bool} {timeMs : UInt64}
    {snapshot : EnqueuedSnapshot} (checks : Insensitive (Alike serving) check)
    (same : ∀ slot state, purged { slot with state } = purged slot) :
    Insensitive (Alike serving) (enqueueUnlessPurged check purged timeMs snapshot) := by
  refine .bind checks fun _ => .ite (.pure _) (.bind (allocateEntry_insensitive timeMs) fun entryId => ?_)
  refine .bind (.whenReady ?_) fun pushed => ?_
  · rintro left _ ⟨state, rfl, alike⟩
    rw [same left state]
    split
    · exact ⟨rfl, rfl, state, rfl, alike⟩
    · exact ⟨rfl, rfl, state, rfl, alike⟩
  · cases pushed with
    | none => exact .pure _
    | some evicted => exact .bind onEnqueue_insensitive fun _ => .pure _

theorem readSlot_insensitive {α : Type} {read : Slot → α}
    (same : ∀ left state, left.state.Alike serving state → read { left with state } = read left) :
    Insensitive (Alike serving) (readSlot read) := by
  rintro left _ ⟨state, rfl, alike⟩
  exact ⟨rfl, (same left state alike).symm, state, rfl, alike⟩

theorem storedAfterPurge_insensitive : Insensitive (Alike serving) (not <$> storedAfterPurge committed) := by
  exact .bind (readSlot_insensitive fun _ _ _ => rfl) fun _ => .pure _

theorem enqueueStoredEntry_insensitive :
    Insensitive (Alike serving) (enqueueStoredEntry oldestCommit timeMs snapshot) :=
  enqueueUnlessPurged_insensitive (storedAfterPurge_insensitive oldestCommit) fun _ _ => rfl

theorem enqueueWindowEntry_insensitive :
    Insensitive (Alike serving) (enqueueWindowEntry openedAt oldestCommit timeMs snapshot) :=
  enqueueUnlessPurged_insensitive
    (.bind (readSlot_insensitive fun _ _ _ => rfl) fun _ => .ite (.pure _) (storedAfterPurge_insensitive oldestCommit))
    fun _ _ => rfl

section Transmission

variable (connId : ConnectionId) (now : Instant) (nowMs : UInt64)

theorem pushSegments_insensitive (accepted : Nat → Bytes → Event) (sent : Nat) (pdus : List Bytes) :
    Insensitive (Alike serving) (pushSegments accepted sent pdus) := by
  induction pdus generalizing sent with
  | nil => exact .pure _
  | cons pdu rest ih =>
    refine .bind (.atomically ?_) fun outcome => ?_
    · rintro left _ ⟨state, rfl, alike⟩
      exact ⟨rfl, rfl, state, rfl, alike⟩
    · cases outcome with
      | sent => exact ih (sent + 1)
      | wouldBlock | receiverDropped | notFound => exact .pure _

theorem takePartial_insensitive (wanted : PartialReport → Bool) :
    Insensitive (Alike serving) (takePartial wanted) := by
  refine .atomically ?_
  rintro left _ ⟨state, rfl, alike⟩
  dsimp only
  split
  · split
    · exact ⟨rfl, rfl, state, rfl, alike⟩
    · exact ⟨rfl, rfl, state, rfl, alike⟩
  · exact ⟨rfl, rfl, state, rfl, alike⟩

theorem forgetPartialIf_insensitive (wanted : PartialReport → Bool) :
    Insensitive (Alike serving) (forgetPartialIf wanted) := by
  refine .bind (takePartial_insensitive wanted) fun _ => .ite ?_ (.pure _)
  exact .bind (readState_insensitive fun _ _ alike => alike.rewindPoint.symm) fun _ => lockBuffer_insensitive _

theorem keepPartial_insensitive (entry : EntryId × UInt64) (rest : List Bytes) :
    Insensitive (Alike serving) (keepPartial connId entry rest) := by
  rintro left _ ⟨state, rfl, alike⟩
  exact ⟨rfl, rfl, state, rfl, alike⟩

theorem resumePartial_insensitive (connId : Option ConnectionId) (enabled : Bool) :
    Insensitive (Alike serving) (resumePartial connId enabled) := by
  refine .bind (takePartial_insensitive _) fun report => ?_
  cases report with
  | none => exact .pure _
  | some report =>
    refine .ite (.pure _) (.bind (pushSegments_insensitive _ 0 report.rest) fun delivery => ?_)
    cases delivery with
    | complete sent => exact .pure _
    | blocked sent rest => exact .bind (keepPartial_insensitive _ _ _) fun _ => .pure _
    | gone => exact .pure _

theorem brcbEntrySent_insensitive (id : EntryId) (timeOfEntryMs : UInt64) :
    Insensitive (Alike serving) (brcbEntrySent id timeOfEntryMs) := by
  refine lockState_insensitive ?_
  rintro left _ ⟨resvTms, owner, client, timeout, last, rfl, serves, -⟩
  exact ⟨rfl, rfl, resvTms, owner, client, timeout, last, rfl, serves, nofun⟩

theorem entryFormatted_insensitive (id : EntryId) :
    Insensitive (Alike serving) (entryFormatted id) := by
  refine .bind (lockBuffer_insensitive _) fun _ => modifyState_insensitive ?_
  rintro left _ ⟨resvTms, owner, client, timeout, last, rfl, serves, resolves⟩
  exact ⟨resvTms, owner, client, timeout, last, rfl, serves, resolves⟩

theorem connectionDropped_alike {left right : BrcbState} (alike : left.Alike serving right) (now : Instant) :
    (left.connectionDropped now).Alike serving (right.connectionDropped now) := by
  obtain ⟨resvTms, owner, client, timeout, last, rfl, -, resolves⟩ := alike
  unfold BrcbState.connectionDropped
  cases resvTms <;> cases left.resvTms <;>
    exact ⟨_, _, _, _, last, rfl, fun _ => rfl, resolves⟩

theorem onConnectionDropped_insensitive :
    Insensitive (Alike True) (onConnectionDropped connId now) := by
  refine .bind (forgetPartialIf_insensitive _) fun _ => lockState_insensitive ?_
  intro left right alike
  have client : right.clientConnId = left.clientConnId := by
    obtain ⟨resvTms, owner, client, timeout, last, rfl, serves, -⟩ := alike
    exact serves (.inl trivial)
  have rptEna : right.rptEna = left.rptEna := by
    obtain ⟨resvTms, owner, client, timeout, last, rfl, -, -⟩ := alike
    rfl
  rw [client, rptEna]
  split
  · exact ⟨rfl, rfl, connectionDropped_alike alike now⟩
  · exact ⟨rfl, rfl, alike⟩

theorem channelHasRoom_insensitive (segments : Nat) :
    Insensitive (Alike serving) (channelHasRoom segments) := by
  rintro left _ ⟨state, rfl, alike⟩
  exact ⟨rfl, rfl, state, rfl, alike⟩

theorem flushEntries_insensitive (context : FlushContext) (implyOverflow : Bool) (sentCount : Nat)
    (entries : List ReportEntry) :
    Insensitive (Alike True) (flushEntries context implyOverflow sentCount entries) := by
  induction entries generalizing implyOverflow sentCount with
  | nil => exact .pure _
  | cons entry rest ih =>
    refine .bind (readSlot_insensitive ?_) fun found => ?_
    · rintro left _ ⟨resvTms, owner, client, timeout, last, rfl, -, -⟩
      rfl
    · obtain ⟨sqNum, live⟩ := found
      dsimp only
      cases context.encode live sqNum implyOverflow entry with
      | error reason =>
        refine .bind (modifyState_insensitive ?_) fun _ => ih _ _
        rintro left _ ⟨resvTms, owner, client, timeout, last, rfl, serves, -⟩
        exact ⟨resvTms, owner, client, timeout, last, rfl, serves, nofun⟩
      | ok pdus =>
        refine .bind (channelHasRoom_insensitive _) fun room => .ite (.pure _) ?_
        refine .bind (pushSegments_insensitive _ 0 pdus) fun delivery => ?_
        cases delivery with
        | complete sent =>
          exact .bind (entryFormatted_insensitive _) fun _ =>
            .bind (brcbEntrySent_insensitive _ _) fun _ => ih _ _
        | blocked sent left =>
          exact .bind (.ite (entryFormatted_insensitive _) (.pure _)) fun _ =>
            .bind (keepPartial_insensitive _ _ _) fun _ => .pure _
        | gone => exact .bind (onConnectionDropped_insensitive _ _) fun _ => .pure _

theorem entriesAtAnchor_insensitive (anchor : TransmitAnchor) (resyncedOn : EntryId) :
    Insensitive (Alike serving) (entriesAtAnchor anchor resyncedOn) := by
  cases anchor with
  | none => exact .pure _
  | fromHead | afterEntryId after => exact .bind (lockBuffer_insensitive _) fun _ => .pure _
  | waitingForNext =>
    refine .bind (lockBuffer_insensitive _) fun found => .ite (.pure _) ?_
    refine .bind (modifyState_insensitive ?_) fun _ => .pure _
    rintro left _ ⟨resvTms, owner, client, timeout, last, rfl, serves, resolves⟩
    split
    · exact ⟨resvTms, owner, client, timeout, last, rfl, serves, nofun⟩
    · exact ⟨resvTms, owner, client, timeout, last, rfl, serves, resolves⟩

theorem entriesAtAnchor_waiting {anchor : TransmitAnchor} {resyncedOn other : EntryId}
    (same : anchor = .waitingForNext → other = resyncedOn) :
    entriesAtAnchor anchor other = entriesAtAnchor anchor resyncedOn := by
  cases anchor with
  | waitingForNext => rw [same rfl]
  | _ => rfl

theorem flushFromAnchor_insensitive (sentCount : Nat) :
    Insensitive (Alike True) (flushFromAnchor connId now sentCount) := by
  refine readState_bind_insensitive ?_ fun read => ?_
  · rintro left _ ⟨resvTms, owner, client, timeout, last, rfl, -, resolves⟩
    simp only [entriesAtAnchor_waiting resolves]
  · obtain ⟨anchor, resyncedOn, overflowOnEnable⟩ := read
    refine .bind (readState_insensitive ?_) fun copied => ?_
    · rintro left _ ⟨resvTms, owner, client, timeout, last, rfl, -, -⟩
      rfl
    · refine .bind (entriesAtAnchor_insensitive _ _) fun found => ?_
      cases found with
      | none => exact .pure _
      | some found =>
        exact .bind (readSlot_insensitive fun _ _ _ => rfl) fun _ => flushEntries_insensitive _ _ _ _

theorem flushBrcbPending_insensitive : Insensitive (Alike True) (flushBrcbPending connId now) := by
  refine .bind (resumePartial_insensitive _ _) fun resumed => ?_
  cases resumed with
  | idle => exact flushFromAnchor_insensitive _ _ _
  | done sent entry => exact .bind (brcbEntrySent_insensitive _ _) fun _ => flushFromAnchor_insensitive _ _ _
  | blocked sent => exact .pure _
  | gone => exact .bind (onConnectionDropped_insensitive _ _) fun _ => .pure _

theorem expireWindow_insensitive : Insensitive (Alike serving) (expireWindow now) := by
  refine .bind (.atomically ?_) fun due => ?_
  · rintro left _ ⟨state, rfl, alike⟩
    dsimp only
    split
    · split
      · exact ⟨rfl, rfl, state, rfl, alike⟩
      · exact ⟨rfl, rfl, state, rfl, alike⟩
    · exact ⟨rfl, rfl, state, rfl, alike⟩
  · cases due with
    | none => exact .pure _
    | some window => exact .bind (enqueueWindowEntry_insensitive _ _ _ _) fun _ => .pure _

theorem enqueueFullDataset_insensitive (isIntegrity isGi : Bool) :
    Insensitive (Alike serving) (enqueueFullDataset nowMs isIntegrity isGi) := by
  refine .bind (readSlot_insensitive fun _ _ _ => rfl) fun snapshot => ?_
  cases snapshot with
  | none => exact .pure _
  | some snap => exact .bind (enqueueAllocated_insensitive _ _) fun _ => .pure _

theorem tickGi_insensitive (wanted : Bool) (nowMs : UInt64) :
    Insensitive (Alike serving) (tickGi wanted nowMs) := by
  refine .ite (.bind (enqueueFullDataset_insensitive _ _ _) fun _ => .ite (modifyState_insensitive ?_) (.pure _))
    (.pure _)
  rintro left _ ⟨resvTms, owner, client, timeout, last, rfl, serves, resolves⟩
  exact ⟨resvTms, owner, client, timeout, last, rfl, serves, resolves⟩

theorem tickIntegrity_insensitive (wanted : Bool) (intgPdMs : UInt32) (now : Instant) (nowMs : UInt64) :
    Insensitive (Alike serving) (tickIntegrity wanted intgPdMs now nowMs) := by
  refine .ite (.bind (readSlot_insensitive fun _ _ _ => rfl) fun _ => .ite
    (.bind (enqueueFullDataset_insensitive _ _ _) fun _ => .ite (.atomically ?_) (.pure _)) (.pure _)) (.pure _)
  rintro left _ ⟨state, rfl, alike⟩
  exact ⟨rfl, rfl, state, rfl, alike⟩

theorem Slot.Alike.serve {left right : Slot} (alike : left.Alike serving right)
    (enabled : left.state.rptEna = true) : left.Alike True right := by
  obtain ⟨_, rfl, resvTms, owner, client, timeout, last, rfl, serves, resolves⟩ := alike
  exact ⟨_, rfl, resvTms, owner, client, timeout, last, rfl, fun _ => serves (.inr enabled), resolves⟩

theorem Slot.Alike.leave {left right : Slot} (alike : left.Alike True right) : left.Alike serving right := by
  obtain ⟨_, rfl, resvTms, owner, client, timeout, last, rfl, serves, resolves⟩ := alike
  exact ⟨_, rfl, resvTms, owner, client, timeout, last, rfl, fun _ => serves (.inl trivial), resolves⟩

theorem Slot.Alike.rptEna {left right : Slot} (alike : left.Alike serving right) :
    right.state.rptEna = left.state.rptEna := by
  obtain ⟨_, rfl, resvTms, owner, client, timeout, last, rfl, -, -⟩ := alike
  rfl

theorem serveBrcb_insensitive (rptEna : Bool) (connId : Option ConnectionId) (now : Instant) :
    Insensitive (Alike True) (serveBrcb rptEna connId now) := by
  cases rptEna with
  | false => exact forgetPartialIf_insensitive _
  | true =>
    cases connId with
    | none => exact .pure _
    | some connId => exact .bind (flushBrcbPending_insensitive connId now) fun _ => .pure _

theorem insensitive_of_serving {α : Type} {program : BrcbM α} (served : Insensitive (Alike True) program)
    (disabled : ∀ left right, Alike False left right → left.state.rptEna = false → right.state.rptEna = false →
      (program.run left).events = (program.run right).events ∧ (program.run left).result = (program.run right).result ∧
      Alike False (program.run left).state (program.run right).state) : Insensitive (Alike False) program := by
  intro left right alike
  cases enabled : left.state.rptEna with
  | true =>
    obtain ⟨events, result, final⟩ := served left right (alike.serve enabled)
    exact ⟨events, result, final.leave⟩
  | false => exact disabled left right alike enabled (alike.rptEna.trans enabled)

theorem tickBrcb_insensitive : Insensitive (Alike False) (tickBrcb now nowMs) := by
  refine .bind (expireWindow_insensitive now) fun _ => insensitive_of_serving ?_ ?_
  · refine readState_bind_insensitive ?_ ?_
    · rintro left _ ⟨resvTms, owner, client, timeout, last, rfl, serves, -⟩
      simp only [serves (.inl trivial)]
    · rintro ⟨rptEna, connId, giPending, intgPdMs, trgOps⟩
      exact .bind (tickGi_insensitive _ _) fun _ =>
        .bind (tickIntegrity_insensitive _ _ _ _) fun _ => serveBrcb_insensitive _ _ _
  · intro left right alike leftDisabled rightDisabled
    simp only [run_bind, readState_run, leftDisabled, rightDisabled, Bool.false_and, Outcome.prepend_nil, serveBrcb,
      tickGi, tickIntegrity, Bool.false_eq_true, if_false, run_pure, Bool.not_false, if_true]
    obtain ⟨events, -, final⟩ := forgetPartialIf_insensitive (fun _ => true) left right alike
    exact ⟨events, trivial, final⟩

theorem flushAllBrcbPending_insensitive : Insensitive (Alike False) (flushAllBrcbPending now) := by
  refine insensitive_of_serving (.bind (readState_insensitive ?_) fun connId => ?_) ?_
  · rintro left _ ⟨resvTms, owner, client, timeout, last, rfl, serves, -⟩
    simp only [serves (.inl trivial)]
  · cases connId with
    | none => exact .pure _
    | some connId => exact flushBrcbPending_insensitive connId now
  · intro left right alike leftDisabled rightDisabled
    simp only [flushAllBrcbPending, run_bind, readState_run, leftDisabled, rightDisabled, Bool.false_eq_true, if_false,
      Outcome.prepend_nil, run_pure]
    exact ⟨trivial, trivial, alike⟩

theorem tickReservation_alike (state : BrcbState) (now : Instant) :
    BrcbState.Alike False state (state.tickReservation now).2 := by
  unfold BrcbState.tickReservation
  split
  · exact .refl state
  · exact .refl state
  split_ifs with early enabled
  · exact .refl state
  · exact ⟨_, _, _, _, _, rfl, fun _ => rfl, fun _ => rfl⟩
  · exact ⟨_, _, _, _, _, rfl, fun serves => serves.elim False.elim fun serving => absurd serving enabled,
      fun _ => rfl⟩

end Transmission

def Step.isTransmission : Step → Bool
  | .write .. | .connectionLost .. => false
  | _ => true

theorem Step.insensitive {step : Step} (transmission : step.isTransmission = true) :
    Insensitive (Alike False) step.program := by
  have finds (channel : Channel) :
      Insensitive (Alike False) (modifySlot fun slot => { slot with channel } : BrcbM Unit) := by
    refine .atomically ?_
    rintro left _ ⟨state, rfl, alike⟩
    exact ⟨rfl, rfl, state, rfl, alike⟩
  cases step with
  | enqueue nowMs isIntegrity isGi payload | enqueueSnapshot nowMs isIntegrity isGi snapshot =>
    exact .bind (enqueueAllocated_insensitive _ _) fun _ => .pure _
  | enqueueStored oldestCommit timeMs snapshot => exact .bind (enqueueStoredEntry_insensitive _ _ _) fun _ => .pure _
  | write field value conn now | connectionLost conn now => cases transmission
  | reservationTick now =>
    rintro left _ ⟨state, rfl, alike⟩
    simp only [Step.program, run_bind, withEngine_run, tickBrcbReservations, lockState_run, run_pure,
      Outcome.prepend_events, Outcome.prepend_result, Outcome.prepend_state]
    exact ⟨trivial, trivial, _, rfl,
      ((tickReservation_alike left.state now).symm.trans alike).trans (tickReservation_alike state now)⟩
  | tick channel now nowMs =>
    exact .bind (finds channel) fun _ =>
      .bind (withEngine_insensitive (tickBrcb_insensitive now nowMs)) fun _ => .pure _
  | flush channel now =>
    exact .bind (finds channel) fun _ =>
      .bind (withEngine_insensitive (flushAllBrcbPending_insensitive now)) fun _ => .pure _

theorem run_alike {left right : Slot} (alike : left.Alike False right) {steps : List Step}
    (transmission : ∀ step ∈ steps, step.isTransmission = true) :
    traceOf steps left = traceOf steps right ∧ (runSteps steps left).Alike False (runSteps steps right) := by
  induction steps generalizing left right with
  | nil => exact ⟨rfl, alike⟩
  | cons step rest ih =>
    obtain ⟨now, later⟩ := List.forall_mem_cons.mp transmission
    obtain ⟨events, -, next⟩ := step.insensitive now left right alike
    obtain ⟨trace, final⟩ := ih next later
    refine ⟨?_, final⟩
    simp only [traceOf, Step.events, Step.after, events, trace]

end Iec61850.Reporting
