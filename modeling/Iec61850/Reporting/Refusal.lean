import Iec61850.Reporting.Insensitive
import Iec61850.Reporting.Reachable

/-!
What a refused write leaves behind.
-/

namespace Iec61850.Reporting

open Concurrency Model

/-- The EntryID write that names an entry the buffer does not hold. -/
structure Slot.NamesUnknownEntry (slot : Slot) (field : RcbField) (value : RcbWriteValue) (id : EntryId) : Prop where
  field : field = .entryId
  value : ∃ bytes, value = .octetString bytes ∧ bytes.length = 8 ∧ id = .fromBytes bytes
  disabled : slot.state.rptEna = false
  nonzero : id.isZero = false
  absent : slot.reportBuffer.seekToAfterEntryId id = .notFound

variable {state claimed : BrcbState} {writerIp : Option IpAddr} {field : RcbField} {value : RcbWriteValue}
  {conn : ConnectionId} {now : Instant}

theorem claimBrcbLocked_again {brcb : Brcb} {writer : ConnectionId}
    (entitled : claimBrcbLocked brcb state writer writerIp = some claimed) :
    claimBrcbLocked brcb claimed writer writerIp = some claimed := by
  rcases claimBrcbLocked_cases entitled with ⟨same, -⟩ | ⟨same, -⟩
  · rw [same] at entitled ⊢
    exact entitled
  · rw [same]
    simp [claimBrcbLocked, BrcbState.takenOver]

section Programs

variable {slot : Slot}

variable {field : BrcbConfigField} {value : RcbWriteValue} {conn : ConnectionId} {writerIp : Option IpAddr}

theorem setConfigField_refused (refused : ((setConfigField field).run slot).result = none) :
    ((setConfigField field).run slot).state = slot := by
  unfold setConfigField at refused ⊢
  simp only [Proc.run_bind, Proc.run_atomically] at refused ⊢
  cases applied : slot.state.applyConfigField slot.mmsPath field with
  | none => rfl
  | some outcome =>
    obtain ⟨changed, next⟩ := outcome
    cases changed <;> simp [applied] at refused

theorem answerConfigChange_refused (refused : ((answerConfigChange field).run slot).result ≠ .accepted) :
    ((answerConfigChange field).run slot).state = slot := by
  unfold answerConfigChange at refused ⊢
  simp only [Proc.run_bind] at refused ⊢
  cases changed : ((setConfigField field).run slot).result with
  | none => exact setConfigField_refused changed
  | some outcome => simp [changed] at refused

theorem changeBrcbDatSet_refused {name : String} (refused : ((changeBrcbDatSet name).run slot).result ≠ .accepted) :
    ((changeBrcbDatSet name).run slot).state = slot := by
  unfold changeBrcbDatSet at refused ⊢
  simp only [Proc.run_bind, readState_run, Outcome.prepend_nil] at refused ⊢
  split
  · rfl
  next disabled =>
  rw [if_neg disabled] at refused
  split
  · rfl
  next changed =>
  rw [if_neg changed] at refused
  split
  · rfl
  next permanent =>
  rw [if_neg permanent] at refused
  simp only [Proc.run_bind, readSlot_run, Outcome.prepend_nil] at refused ⊢
  split
  · rfl
  next known =>
  rw [if_neg known] at refused
  simp only [Proc.run_bind] at refused ⊢
  cases written : ((setConfigField (.datSet name)).run slot).result with
  | none => exact setConfigField_refused written
  | some outcome => cases outcome <;> simp [written] at refused

theorem setBrcbDatSet_refused (unlocked : slot.engineLocked = false)
    (refused : ((setBrcbDatSet value).run slot).result ≠ .accepted) :
    ((setBrcbDatSet value).run slot).state = slot := by
  cases value with
  | visibleString text =>
    unfold setBrcbDatSet at refused ⊢
    simp only [Proc.run_bind, readSlot_run, Outcome.prepend_nil] at refused ⊢
    split
    · rfl
    next short =>
    rw [if_neg short, withEngine_run] at refused
    rw [withEngine_run]
    have same := changeBrcbDatSet_refused refused
    rw [same, ← unlocked]
  | _ => rfl

theorem setBrcbPurgeBuf_refused (refused : ((setBrcbPurgeBuf value).run slot).result ≠ .accepted) :
    ((setBrcbPurgeBuf value).run slot).state = slot := by
  cases value with
  | bool value =>
    unfold setBrcbPurgeBuf handlePurgeBufWrite at refused ⊢
    simp only [Proc.run_bind, readState_run, Outcome.prepend_nil] at refused ⊢
    cases enabled : slot.state.rptEna with
    | true => rfl
    | false =>
      cases value <;> simp [enabled] at refused
  | _ => rfl

theorem setBrcbOptFlds_refused (refused : ((setBrcbOptFlds value).run slot).result ≠ .accepted) :
    ((setBrcbOptFlds value).run slot).state = slot := by
  cases value with
  | bitString bytes =>
    unfold setBrcbOptFlds at refused ⊢
    dsimp only at refused ⊢
    cases decoded : OptFlds.fromBerBitString bytes with
    | none => rfl
    | some fields =>
      cases enabled : slot.state.rptEna with
      | true => simp [lockState, enabled]
      | false => simp [decoded, enabled] at refused
  | _ => rfl

theorem setBrcbTrgOps_refused (refused : ((setBrcbTrgOps value).run slot).result ≠ .accepted) :
    ((setBrcbTrgOps value).run slot).state = slot := by
  cases value with
  | bitString bytes =>
    unfold setBrcbTrgOps at refused ⊢
    dsimp only at refused ⊢
    cases decoded : TriggerOptions.fromBerBitString bytes with
    | none => rfl
    | some options =>
      simp only [decoded] at refused
      exact answerConfigChange_refused refused
  | _ => rfl

theorem setBrcbRptId_refused (refused : ((setBrcbRptId value).run slot).result ≠ .accepted) :
    ((setBrcbRptId value).run slot).state = slot := by
  cases value with
  | visibleString text =>
    unfold setBrcbRptId at refused ⊢
    dsimp only at refused ⊢
    split
    · rfl
    · next short =>
      rw [if_neg short] at refused
      exact answerConfigChange_refused refused
  | _ => rfl

theorem setBrcbUnsigned32_refused {field : UInt32 → BrcbConfigField}
    (refused : ((setBrcbUnsigned32 field value).run slot).result ≠ .accepted) :
    ((setBrcbUnsigned32 field value).run slot).state = slot := by
  cases value with
  | unsigned value => exact answerConfigChange_refused refused
  | _ => rfl

theorem setBrcbResvTms_refused (entitled : claimBrcbLocked slot.brcb slot.state conn writerIp = some slot.state)
    (refused : ((setBrcbResvTms conn writerIp value).run slot).result ≠ .accepted) :
    ((setBrcbResvTms conn writerIp value).run slot).state = slot := by
  unfold setBrcbResvTms at refused ⊢
  cases wanted : resvTmsValue value with
  | error error => rfl
  | ok value =>
    simp only [wanted, Proc.run_atomically, entitled] at refused ⊢
    unfold applyResvTms at refused ⊢
    cases enabled : slot.state.rptEna with
    | true => simp
    | false =>
      simp only [enabled, Bool.false_eq_true, if_false] at refused
      cases decoded : ResvTmsState.fromWire value <;> simp [decoded] at refused

theorem enableBrcb_refused {now : Instant}
    (entitled : claimBrcbLocked slot.brcb slot.state conn writerIp = some slot.state)
    (refused : ((writeBrcbField .rptEna value conn writerIp now).run slot).result ≠ .accepted) :
    ((writeBrcbField .rptEna value conn writerIp now).run slot).state = slot := by
  unfold writeBrcbField at refused ⊢
  simp only [Proc.run_bind] at refused ⊢
  cases value with
  | bool value =>
    simp only [setBrcbRptEna, Proc.run_atomically, entitled] at refused ⊢
    unfold applyRptEna at refused ⊢
    split_ifs at refused ⊢ <;> simp at refused ⊢
  | _ => rfl

theorem setBrcbEntryId_refused (refused : ((setBrcbEntryId value).run slot).result ≠ .accepted) :
    ((setBrcbEntryId value).run slot).state = slot ∨
      ∃ id, slot.NamesUnknownEntry .entryId value id ∧
        ((setBrcbEntryId value).run slot).state =
          { slot with state := { slot.state with lastCommittedEntryId := id } } := by
  cases value with
  | octetString bytes =>
    unfold setBrcbEntryId at refused ⊢
    dsimp only at refused ⊢
    by_cases short : bytes.length ≠ 8
    · rw [if_pos short]
      exact .inl rfl
    rw [if_neg short] at refused ⊢
    simp only [Proc.run_bind, applyEntryIdWrite_run, Outcome.prepend_result] at refused ⊢
    unfold BrcbState.resynchronize at refused ⊢
    cases enabled : slot.state.rptEna with
    | true => exact .inl (by simp [Except.isOk, Except.toBool])
    | false =>
      simp only [enabled, Bool.false_eq_true, if_false] at refused ⊢
      cases zero : (EntryId.fromBytes bytes).isZero with
      | true => simp [zero] at refused
      | false =>
        simp only [zero, Bool.false_eq_true, if_false] at refused ⊢
        cases seek : slot.reportBuffer.seekToAfterEntryId (.fromBytes bytes) with
        | foundWithNext next | foundLast => simp [seek] at refused
        | notFound =>
          refine .inr ⟨.fromBytes bytes, ⟨rfl, ⟨bytes, rfl, not_not.mp short, rfl⟩, enabled, zero, seek⟩, ?_⟩
          simp [Except.isOk, Except.toBool]
  | _ => exact .inl rfl

theorem setBrcbGi_refused (refused : ((setBrcbGi value).run slot).result ≠ .accepted) :
    ∃ gi, ((setBrcbGi value).run slot).state = { slot with state := { slot.state with gi } } := by
  match value with
  | .bool false => exact ⟨slot.state.gi, rfl⟩
  | .bool true =>
    unfold setBrcbGi at refused ⊢
    rw [lockState_run] at refused ⊢
    split_ifs at refused ⊢
    · exact ⟨false, rfl⟩
    · simp at refused
    · simp at refused
  | .unsigned _ | .integer _ | .visibleString _ | .bitString _ | .octetString _ => exact ⟨slot.state.gi, rfl⟩

end Programs

/-- What a refused write of `conn` leaves behind: the block as it was, but possibly taken over by
the writer or with GI cleared by a GI write. About the EntryID written last it says nothing where
the write names an unknown entry: the source stores that id before the lookup is judged. -/
structure Slot.LeftBehind (slot : Slot) (field : RcbField) (value : RcbWriteValue) (conn : ConnectionId)
    (claimed : BrcbState) (gi : Bool) (lastCommittedEntryId : EntryId) : Prop where
  claimed : claimed = slot.state ∨
    claimed = slot.state.takenOver slot.brcb conn ((slot.peers conn).map (·.ip)) ∧
      slot.state.TakenOverBy slot.brcb ((slot.peers conn).map (·.ip))
  gi : field ≠ .gi → gi = slot.state.gi
  recorded : (∀ id, ¬ slot.NamesUnknownEntry field value id) → lastCommittedEntryId = slot.state.lastCommittedEntryId

theorem writeBrcbField_refused (slot : Slot) (unlocked : slot.engineLocked = false)
    (entitled : claimBrcbLocked slot.brcb slot.state conn writerIp = some slot.state)
    (refused : ((writeBrcbField field value conn writerIp now).run slot).result ≠ .accepted) :
    ∃ gi lastCommittedEntryId,
      ((writeBrcbField field value conn writerIp now).run slot).state =
        { slot with state := { slot.state with gi, lastCommittedEntryId } } ∧
      (field ≠ .gi → gi = slot.state.gi) ∧
      (lastCommittedEntryId = slot.state.lastCommittedEntryId ∨
        slot.NamesUnknownEntry field value lastCommittedEntryId) := by
  have unchanged (same : ((writeBrcbField field value conn writerIp now).run slot).state = slot) :
      ∃ gi lastCommittedEntryId,
        ((writeBrcbField field value conn writerIp now).run slot).state =
          { slot with state := { slot.state with gi, lastCommittedEntryId } } ∧
        (field ≠ .gi → gi = slot.state.gi) ∧
        (lastCommittedEntryId = slot.state.lastCommittedEntryId ∨
          slot.NamesUnknownEntry field value lastCommittedEntryId) :=
    ⟨slot.state.gi, slot.state.lastCommittedEntryId, same, fun _ => rfl, .inl rfl⟩
  cases field with
  | entryId =>
    rcases setBrcbEntryId_refused refused with same | ⟨id, unknown, recorded⟩
    · exact unchanged same
    · exact ⟨slot.state.gi, id, recorded, fun _ => rfl, .inr unknown⟩
  | gi =>
    obtain ⟨gi, cleared⟩ := setBrcbGi_refused refused
    exact ⟨gi, slot.state.lastCommittedEntryId, cleared, fun other => absurd rfl other, .inl rfl⟩
  | purgeBuf => exact unchanged (setBrcbPurgeBuf_refused refused)
  | rptEna => exact unchanged (enableBrcb_refused entitled refused)
  | rptId => exact unchanged (setBrcbRptId_refused refused)
  | datSet => exact unchanged (setBrcbDatSet_refused unlocked refused)
  | optFlds => exact unchanged (setBrcbOptFlds_refused refused)
  | bufTm => exact unchanged (setBrcbUnsigned32_refused refused)
  | trgOps => exact unchanged (setBrcbTrgOps_refused refused)
  | intgPd => exact unchanged (setBrcbUnsigned32_refused refused)
  | resvTms => exact unchanged (setBrcbResvTms_refused entitled refused)
  | owner | timeOfEntry | unknown name | confRev | sqNum | resv => exact unchanged rfl

theorem Slot.NamesUnknownEntry.of_claimed {slot : Slot} {id : EntryId}
    (unknown : Slot.NamesUnknownEntry { slot with state } field value id) (same : slot.state.rptEna = state.rptEna) :
    slot.NamesUnknownEntry field value id :=
  ⟨unknown.field, unknown.value, same.trans unknown.disabled, unknown.nonzero, unknown.absent⟩

theorem handleSetBrcbField_refused {slot : Slot} (unlocked : slot.engineLocked = false)
    (refused : ((handleSetBrcbField field value conn now).run slot).result ≠ .accepted) :
    ∃ claimed gi lastCommittedEntryId, slot.LeftBehind field value conn claimed gi lastCommittedEntryId ∧
      ((handleSetBrcbField field value conn now).run slot).state =
        { slot with state := { claimed with gi, lastCommittedEntryId } } := by
  have unchanged (same : ((handleSetBrcbField field value conn now).run slot).state = slot) :
      ∃ claimed gi lastCommittedEntryId, slot.LeftBehind field value conn claimed gi lastCommittedEntryId ∧
        ((handleSetBrcbField field value conn now).run slot).state =
          { slot with state := { claimed with gi, lastCommittedEntryId } } :=
    ⟨slot.state, slot.state.gi, slot.state.lastCommittedEntryId, ⟨.inl rfl, fun _ => rfl, fun _ => rfl⟩, same⟩
  by_cases writable : field ≠ .confRev ∧ field ≠ .sqNum ∧ field ≠ .resv
  · have ran := handleSetBrcbField_run field writable value conn now slot
    dsimp only at ran
    by_cases absent : (!brcbHasField slot.brcb field) = true
    · rw [if_pos absent] at ran
      exact unchanged (by rw [ran])
    rw [if_neg absent] at ran
    cases entitled : claimBrcbLocked slot.brcb slot.state conn ((slot.peers conn).map (·.ip)) with
    | none =>
      simp only [entitled] at ran
      exact unchanged (by rw [ran])
    | some claimed =>
      simp only [entitled] at ran
      rw [ran, Outcome.prepend_result] at refused
      obtain ⟨gi, last, after, sameGi, recorded⟩ := writeBrcbField_refused { slot with state := claimed }
        unlocked (claimBrcbLocked_again entitled) refused
      rw [ran, Outcome.prepend_state, after]
      rcases claimBrcbLocked_cases entitled with ⟨rfl, -⟩ | ⟨rfl, takeover⟩
      · exact ⟨_, gi, last, ⟨.inl rfl, sameGi, fun known => recorded.resolve_right (known last)⟩, rfl⟩
      · refine ⟨_, gi, last, ⟨.inr ⟨rfl, takeover⟩, sameGi, fun known => ?_⟩, rfl⟩
        exact recorded.resolve_right fun unknown => known last (unknown.of_claimed rfl)
  · have refusedAtOnce : field = .confRev ∨ field = .sqNum ∨ field = .resv := by tauto
    rcases refusedAtOnce with rfl | rfl | rfl <;> exact unchanged rfl

section Enable

variable {left right slot : Slot}

variable {claimed : BrcbState} {conn : ConnectionId} {now : Instant}

theorem claimed_alike {writer : ConnectionId} {writerIp : Option IpAddr} (held : slot.Held)
    (entitled : claimBrcbLocked slot.brcb slot.state writer writerIp = some claimed) :
    slot.state.Alike False claimed := by
  rcases claimBrcbLocked_cases entitled with ⟨rfl, -⟩ | ⟨rfl, takeover⟩
  · exact .refl _
  refine ⟨_, _, _, _, _, rfl, ?_, fun _ => rfl⟩
  rintro (impossible | enabled)
  · exact impossible.elim
  · have client := held enabled
    rw [takeover.unheld] at client
    cases client

theorem enable_run
    (entitled : claimBrcbLocked slot.brcb slot.state conn ((slot.peers conn).map (·.ip)) = some claimed) :
    let enabling := applyRptEna claimed true conn ((slot.peers conn).map (·.ip))
    (handleSetBrcbField .rptEna (.bool true) conn now).run slot =
      match enabling.result with
      | .ok true =>
        { result := .accepted
          state := ((withEngine (refreshBrcbIntegrityPeriod now)).run { slot with state := enabling.state }).state
          events := .claimed conn :: (enabling.events ++
            ((withEngine (refreshBrcbIntegrityPeriod now)).run { slot with state := enabling.state }).events) }
      | .ok false =>
        { result := .accepted, state := { slot with state := enabling.state }
          events := .claimed conn :: enabling.events }
      | .error error =>
        { result := .refused error, state := { slot with state := enabling.state }
          events := .claimed conn :: enabling.events } := by
  rw [handleSetBrcbField_run .rptEna (by simp)]
  simp only [brcbHasField, Bool.not_true, Bool.false_eq_true, if_false, entitled, writeBrcbField, Proc.run_bind,
    setBrcbRptEna, Proc.run_atomically, claimBrcbLocked_again entitled]
  cases (applyRptEna claimed true conn ((slot.peers conn).map (·.ip))).result with
  | error error => simp [Outcome.prepend]
  | ok changed =>
    cases changed with
    | false | true => simp [Outcome.prepend]

theorem applyRptEna_alike {first second : BrcbState} (alike : first.Alike False second) (conn : ConnectionId)
    (writerIp : Option IpAddr) :
    (applyRptEna first true conn writerIp).result = (applyRptEna second true conn writerIp).result ∧
      (applyRptEna first true conn writerIp).events = (applyRptEna second true conn writerIp).events ∧
      (applyRptEna first true conn writerIp).state.Alike False (applyRptEna second true conn writerIp).state := by
  obtain ⟨resvTms, owner, client, timeout, last, rfl, serves, resolves⟩ := alike
  unfold applyRptEna
  simp only [if_true]
  split
  · exact ⟨rfl, rfl, _, _, _, _, _, rfl, serves, resolves⟩
  split
  · exact ⟨rfl, rfl, _, _, _, _, _, rfl, fun _ => rfl, resolves⟩
  refine ⟨rfl, rfl, _, _, _, _, last, rfl, fun _ => rfl, ?_⟩
  intro waits
  refine resolves ?_
  simp only [BrcbState.enable] at waits
  split at waits
  · cases waits
  · exact waits

theorem refresh_insensitive (now : Instant) :
    Proc.Insensitive (Slot.Alike False) (withEngine (refreshBrcbIntegrityPeriod now)) := by
  refine withEngine_insensitive (.bind (forgetPartialIf_insensitive _) fun _ =>
    .bind (readState_insensitive ?_) fun _ => ?_)
  · rintro left _ ⟨resvTms, owner, client, timeout, last, rfl, -, -⟩
    rfl
  · refine .atomically ?_
    rintro left _ ⟨state, rfl, alike⟩
    exact ⟨rfl, rfl, state, rfl, alike⟩

theorem enable_alike (alike : left.Alike False right) (leftHeld : left.Held) (rightHeld : right.Held)
    (leftAccepted : ((handleSetBrcbField .rptEna (.bool true) conn now).run left).result = .accepted)
    (rightAccepted : ((handleSetBrcbField .rptEna (.bool true) conn now).run right).result = .accepted) :
    ((handleSetBrcbField .rptEna (.bool true) conn now).run left).events =
        ((handleSetBrcbField .rptEna (.bool true) conn now).run right).events ∧
      Slot.Alike False ((handleSetBrcbField .rptEna (.bool true) conn now).run left).state
        ((handleSetBrcbField .rptEna (.bool true) conn now).run right).state := by
  have entitled {slot : Slot}
      (accepted : ((handleSetBrcbField .rptEna (.bool true) conn now).run slot).result =
        .accepted) :
      ∃ claimed, claimBrcbLocked slot.brcb slot.state conn ((slot.peers conn).map (·.ip)) = some claimed := by
    rw [handleSetBrcbField_run .rptEna (by simp)] at accepted
    simp only [brcbHasField, Bool.not_true, Bool.false_eq_true, if_false] at accepted
    cases claim : claimBrcbLocked slot.brcb slot.state conn ((slot.peers conn).map (·.ip)) with
    | none => simp [claim] at accepted
    | some claimed => exact ⟨claimed, rfl⟩
  obtain ⟨leftClaimed, leftEntitled⟩ := entitled leftAccepted
  obtain ⟨rightClaimed, rightEntitled⟩ := entitled rightAccepted
  rw [enable_run leftEntitled, enable_run rightEntitled]
  obtain ⟨state, rfl, states⟩ := alike
  have claims : leftClaimed.Alike False rightClaimed :=
    ((claimed_alike leftHeld leftEntitled).symm.trans states).trans (claimed_alike rightHeld rightEntitled)
  obtain ⟨result, events, applied⟩ := applyRptEna_alike claims conn ((left.peers conn).map (·.ip))
  have slots : Slot.Alike False
      { left with state := (applyRptEna leftClaimed true conn ((left.peers conn).map (·.ip))).state }
      { left with state := (applyRptEna rightClaimed true conn ((left.peers conn).map (·.ip))).state } :=
    ⟨_, rfl, applied⟩
  obtain ⟨laterEvents, -, refreshed⟩ := refresh_insensitive now _ _ slots
  cases outcome : (applyRptEna leftClaimed true conn ((left.peers conn).map (·.ip))).result with
  | error error =>
    simp only [← result, outcome, ← events]
    exact ⟨trivial, slots⟩
  | ok changed =>
    cases changed with
    | false =>
      simp only [← result, outcome, ← events]
      exact ⟨trivial, slots⟩
    | true =>
      simp only [← result, outcome, ← events, laterEvents]
      exact ⟨trivial, refreshed⟩

end Enable

theorem traceOf_append (earlier later : List Step) (slot : Slot) :
    traceOf (earlier ++ later) slot = traceOf earlier slot ++ traceOf later (runSteps earlier slot) := by
  induction earlier generalizing slot with
  | nil => rfl
  | cons step rest ih =>
    simp [traceOf, runSteps, ih]

/-- What is left behind transmits as before, unless GI was cleared or a waiting anchor resolves to
another entry. -/
theorem Slot.LeftBehind.alike {slot : Slot} {gi : Bool} {last : EntryId}
    (left : slot.LeftBehind field value conn claimed gi last) (held : slot.Held)
    (other : field ≠ .gi) (known : slot.state.transmitAnchor = .waitingForNext →
      ∀ id, ¬ slot.NamesUnknownEntry field value id) :
    slot.Alike False { slot with state := { claimed with gi, lastCommittedEntryId := last } } := by
  have recorded : slot.state.transmitAnchor = .waitingForNext → last = slot.state.lastCommittedEntryId :=
    fun waits => left.recorded (known waits)
  refine ⟨_, rfl, ?_⟩
  rw [left.gi other]
  rcases left.claimed with rfl | ⟨rfl, takeover⟩
  · exact ⟨_, _, _, _, last, rfl, fun _ => rfl, recorded⟩
  refine ⟨_, _, _, _, last, rfl, ?_, recorded⟩
  rintro (impossible | enabled)
  · exact impossible.elim
  · have client := held enabled
    rw [takeover.unheld] at client
    cases client

/-- A refused write leaves everything as it was but for the takeover `LeftBehind` allows, and what
is transmitted around the next enable is the same as without the write. Left out are a GI write, and
what a waiting anchor resolves to once the write names an unknown entry. -/
theorem refused_write_leaves_transmission_alone (slot : Slot) (reachable : slot.Reachable) (field : RcbField)
    (value : RcbWriteValue) (conn : ConnectionId) (now : Instant)
    (refused : ((handleSetBrcbField field value conn now).run slot).result ≠ .accepted) :
    let after := ((handleSetBrcbField field value conn now).run slot).state
    (∃ claimed gi lastCommittedEntryId, slot.LeftBehind field value conn claimed gi lastCommittedEntryId ∧
      after = { slot with state := { claimed with gi, lastCommittedEntryId } }) ∧
    (field ≠ .gi →
      (slot.state.transmitAnchor = .waitingForNext → ∀ id, ¬ slot.NamesUnknownEntry field value id) →
      ∀ (before later : List Step) (client : ConnectionId) (enabledAt : Instant),
        (∀ step ∈ before ++ later, step.isTransmission = true) →
        ((handleSetBrcbField .rptEna (.bool true) client enabledAt).run (runSteps before slot)).result = .accepted →
        ((handleSetBrcbField .rptEna (.bool true) client enabledAt).run (runSteps before after)).result = .accepted →
        traceOf (before ++ .write .rptEna (.bool true) client enabledAt :: later) after =
          traceOf (before ++ .write .rptEna (.bool true) client enabledAt :: later) slot) := by
  intro after
  have idle := reachable.idle
  obtain ⟨claimed, gi, last, left, ran⟩ := handleSetBrcbField_refused idle.unlocked refused
  refine ⟨⟨claimed, gi, last, left, ran⟩, ?_⟩
  intro other known before later client enabledAt transmission accepted acceptedAfter
  have afterIdle : after.Idle := KeepsIdle.handleSetBrcbField field value conn now slot idle
  have alike : slot.Alike False after := by
    change slot.Alike False ((handleSetBrcbField field value conn now).run slot).state
    rw [ran]
    exact left.alike idle.held other known
  obtain ⟨front, middle⟩ := run_alike alike fun step member => transmission step (List.mem_append_left later member)
  obtain ⟨enabled, next⟩ := enable_alike middle (runSteps_idle before idle).held (runSteps_idle before afterIdle).held
    accepted acceptedAfter
  obtain ⟨back, -⟩ := run_alike next fun step member => transmission step (List.mem_append_right before member)
  simp only [traceOf_append, traceOf, Step.events, Step.after, Step.program]
  rw [front, enabled, back]

def abandonedRun : List Step := [.write .resvTms (.integer 10) 1 0, .connectionLost 1 0]

/-- A refused write takes over an abandoned reservation: it holds the block afterwards, and the
timer has stopped. -/
theorem refused_write_takes_over : let slot := runSteps abandonedRun bareBlock
    let write := (handleSetBrcbField .rptId (.bool true) 2 5).run slot
    slot.Reachable ∧ write.result = .refused .typeInconsistent ∧
      slot.state.clientConnId = none ∧ write.state.state.clientConnId = some 2 ∧
      slot.state.reservationTimeout = some 10000 ∧ write.state.state.reservationTimeout = none := by
  refine ⟨⟨bareBlock, abandonedRun, bareBlock_fresh, rfl⟩, ?_⟩
  decide +kernel

/-- A refused takeover does not change what the taker is sent. -/
theorem transmission_after_refused_takeover : let slot := runSteps abandonedRun bareBlock
    let after := ((handleSetBrcbField .rptId (.bool true) 2 5).run slot).state
    let channel : Channel := { registered := true, receiverAlive := true, free := 3, upcoming := [] }
    traceOf ([.enqueue 5 false false []] ++ .write .rptEna (.bool true) 2 9 :: [.flush channel 9]) after =
      traceOf ([.enqueue 5 false false []] ++ .write .rptEna (.bool true) 2 9 :: [.flush channel 9]) slot :=
  (refused_write_leaves_transmission_alone (runSteps abandonedRun bareBlock)
    ⟨bareBlock, abandonedRun, bareBlock_fresh, rfl⟩ .rptId (.bool true) 2 5 (by decide +kernel)).2 (by decide)
    (fun _ _ unknown => nomatch unknown.field) [.enqueue 5 false false []] [.flush _ 9] 2 9
    (by decide) (by decide +kernel) (by decide +kernel)

end Iec61850.Reporting
