import Iec61850.Reporting.Resync.Places

/-!
The three writes of a resynchronising client, section by section.
-/

namespace Iec61850.Reporting

open Concurrency Model Proc

variable {conn : ConnectionId} {writerIp : Option IpAddr}

def Event.isResynchronized : Event → Bool
  | .resynchronized _ => true
  | _ => false

def Unanchored (_before : Slot) (events : List Event) (_after : Slot) : Prop :=
  ∀ event ∈ events, event.isResynchronized = false

structure Early (before : Slot) (events : List Event) (after : Slot) : Prop where
  engineLocked : after.engineLocked = before.engineLocked
  events : ∀ event ∈ events, event.isResynchronized = false

structure Plain (before : Slot) (events : List Event) (after : Slot) : Prop where
  rptEna : after.state.rptEna = before.state.rptEna
  engineLocked : after.engineLocked = before.engineLocked
  events : ∀ event ∈ events, event.isResynchronized = false

structure Turned (id : EntryId) (before : Slot) (events : List Event) (after : Slot) : Prop where
  disabled : before.state.rptEna = false
  rptEna : after.state.rptEna = false
  point : after.state.rewindPoint = pointOf id
  engineLocked : after.engineLocked = before.engineLocked
  events : events = [.resynchronized id]

structure Enables (before : Slot) (events : List Event) (after : Slot) : Prop where
  point : after.state.rewindPoint = before.state.rewindPoint
  engineLocked : after.engineLocked = before.engineLocked
  events : ∃ holder, events = [.enabled holder]

theorem Event.isResynchronized_of_neutral {event : Event} (neutral : event.isNeutral = true) :
    event.isResynchronized = false := by
  cases event <;> first | rfl | cases neutral

theorem Calm.plain {before after : Slot} {events : List Event} (calm : Calm before events after) :
    Plain before events after :=
  ⟨calm.rptEna, calm.engineLocked, fun event member => Event.isResynchronized_of_neutral (calm.events event member)⟩

variable {α : Type} {program : BrcbM α} {continuation : Except ApplyEntryIdError Unit → BrcbM α}

theorem Calm.lookupEngine (read : Slot → α) : (lookupEngine read).Respects Calm :=
  .whenReady fun slot => .refl slot

theorem Calm.claimBrcb (conn : ConnectionId) (writerIp : Option IpAddr) : (claimBrcb conn writerIp).Respects Calm := by
  refine .atomically fun slot => ?_
  cases claim : claimBrcbLocked slot.brcb slot.state conn writerIp with
  | none => exact .refl slot
  | some claimed =>
    rcases claimBrcbLocked_cases claim with ⟨rfl, -⟩ | ⟨rfl, -⟩
    · exact ⟨rfl, rfl, .inl rfl, rfl, by simp [Event.isNeutral]⟩
    · exact ⟨rfl, rfl, .inl rfl, rfl, by simp [Event.isNeutral]⟩

theorem early_of_calm (calm : program.Respects Calm) : program.Respects Early :=
  calm.mono _ fun _ _ _ ran => ⟨ran.engineLocked, ran.plain.events⟩

theorem disableWrite_early (conn : ConnectionId) (now : Instant) :
    (handleSetBrcbField .rptEna (.bool false) conn now).Respects Early := by
  refine .bind (early_of_calm (Calm.lookupEngine _)) fun found => .ite (.pure _) ?_
  refine .bind (early_of_calm (Calm.claimBrcb _ _)) fun claimed => .ite (.pure _) ?_
  refine .atomically_bind fun slot => ?_
  dsimp only
  cases claimBrcbLocked slot.brcb slot.state conn found.2 with
  | none => exact ⟨⟨rfl, by simp⟩, .pure _⟩
  | some state =>
    unfold applyRptEna
    dsimp only
    rw [if_neg Bool.false_ne_true]
    split
    · exact ⟨⟨rfl, by simp [Event.isResynchronized]⟩, .pure _⟩
    · exact ⟨⟨rfl, by simp⟩, .pure _⟩

theorem resynchronize_cases (state : BrcbState) (id : EntryId) (seek : Option SeekResult)
    (sought : seek.isNone = id.isZero) :
    (state.resynchronize id seek).1.isOk = false ∧ (state.resynchronize id seek).2.rptEna = state.rptEna ∨
      (state.resynchronize id seek).1.isOk = true ∧ state.rptEna = false ∧
        (state.resynchronize id seek).2.rptEna = false ∧ (state.resynchronize id seek).2.rewindPoint = pointOf id := by
  unfold BrcbState.resynchronize
  split
  · exact .inl ⟨rfl, rfl⟩
  next enabled =>
  have disabled : state.rptEna = false := by simpa using enabled
  cases seek with
  | none => exact .inr ⟨rfl, disabled, disabled, by simp [BrcbState.rewindPoint, pointOf, ← sought]⟩
  | some result =>
    have nonzero : id.isZero = false := sought.symm
    cases result with
    | notFound => exact .inl ⟨rfl, rfl⟩
    | foundLast => exact .inr ⟨rfl, disabled, disabled, by simp [BrcbState.rewindPoint, pointOf, nonzero]⟩
    | foundWithNext after =>
      exact .inr ⟨rfl, disabled, disabled, by simp [BrcbState.rewindPoint, pointOf, nonzero]⟩

theorem plain_of_calm (calm : program.Respects Calm) : program.Respects Plain :=
  calm.mono _ fun _ _ _ ran => ran.plain

theorem resynchronize_turns {id : EntryId} {seek : Option SeekResult} (sought : seek.isNone = id.isZero)
    (rest : ∀ outcome, (continuation outcome).Respects Calm) : ((lockState fun state =>
      { result := (state.resynchronize id seek).1, state := (state.resynchronize id seek).2
        events := if (state.resynchronize id seek).1.isOk then [.resynchronized id] else [] }) >>=
      continuation).Until Plain (Turned id) (Respects Calm) := by
  refine .atomically fun slot => ?_
  rcases resynchronize_cases slot.state id seek sought with ⟨refused, same⟩ | ⟨accepted, disabled, still, point⟩
  · refine .inl ⟨⟨same, rfl, ?_⟩, .of_respects (plain_of_calm (rest _))⟩
    simp [refused]
  · refine .inr ⟨⟨disabled, still, point, rfl, ?_⟩, rest _⟩
    simp [accepted]

theorem applyEntryIdWrite_turns (id : EntryId) (rest : ∀ outcome, (continuation outcome).Respects Calm) :
    (applyEntryIdWrite id >>= continuation).Until Plain (Turned id) (Respects Calm) := by
  unfold applyEntryIdWrite
  simp only [bind_assoc, pure_bind]
  split
  · next zero =>
    rw [pure_bind]
    refine resynchronize_turns (by simpa using zero) fun outcome => ?_
    exact .bind (.ite (Calm.modifyBuffer _) (.pure _)) fun _ => rest outcome
  · next nonzero =>
    rw [map_eq_pure_bind, bind_assoc]
    refine .bind (plain_of_calm (Calm.readBuffer _)) fun seek => ?_
    rw [pure_bind]
    refine resynchronize_turns (by simpa using nonzero) fun outcome => ?_
    exact .bind (.ite (Calm.modifyBuffer _) (.pure _)) fun _ => rest outcome

theorem entryIdFound_turns (bytes : List UInt8) (conn : ConnectionId) (now : Instant) (found : Brcb × Option IpAddr) :
    (writeFound .entryId (.octetString bytes) conn now found).Until Plain (Turned (.fromBytes bytes))
      (Respects Calm) := by
  unfold writeFound
  rw [if_neg (by simp [brcbHasField])]
  refine .bind (plain_of_calm (Calm.claimBrcb _ _)) fun claimed => ?_
  split
  · exact .pure _
  unfold writeBrcbField setBrcbEntryId
  dsimp only
  split
  · exact .pure _
  refine applyEntryIdWrite_turns _ fun outcome => ?_
  cases outcome with
  | ok value => exact .pure _
  | error reason =>
    cases reason with
    | invalidEntryId | reportingEnabled => exact .pure _

def refreshWrite (now : Instant) : BrcbM Answer := do
  withEngine (refreshBrcbIntegrityPeriod now)
  return .accepted

theorem enableWrite_turns (conn : ConnectionId) (now : Instant) :
    (handleSetBrcbField .rptEna (.bool true) conn now).Until Calm Enables (· = refreshWrite now) := by
  refine .bind (Calm.lookupEngine _) fun found => ?_
  obtain ⟨brcb, writerIp⟩ := found
  dsimp only
  rw [if_neg (by simp [brcbHasField])]
  refine .bind (Calm.claimBrcb _ _) fun claimed => ?_
  split
  · exact .pure _
  refine .atomically fun slot => ?_
  dsimp only
  cases claim : claimBrcbLocked slot.brcb slot.state conn writerIp with
  | none => exact .inl ⟨.refl slot, .pure _⟩
  | some state =>
    have same : state.rptEna = slot.state.rptEna ∧ state.rewindPoint = slot.state.rewindPoint := by
      rcases claimBrcbLocked_cases claim with ⟨rfl, -⟩ | ⟨rfl, -⟩
      · exact ⟨rfl, rfl⟩
      · exact ⟨rfl, rfl⟩
    unfold applyRptEna
    dsimp only
    rw [if_pos rfl]
    split
    · exact .inl ⟨⟨same.1, same.2, .inl rfl, rfl, by simp⟩, .pure _⟩
    split
    · exact .inl ⟨⟨same.1, same.2, .inl rfl, rfl, by simp⟩, .pure _⟩
    · refine .inr ⟨⟨?_, rfl, conn, rfl⟩, rfl⟩
      exact (enable_rewindPoint state conn _).trans same.2

theorem refreshBrcbIntegrityPeriod_calm (now : Instant) : (refreshBrcbIntegrityPeriod now).Respects Calm :=
  .bind (Calm.forgets (ForgetSection.forgetPartialIf _)) fun _ => .bind (Calm.readState _) fun _ =>
    .atomically fun _ => ⟨rfl, rfl, .inl rfl, rfl, by simp⟩

theorem enableWrite_unanchored (conn : ConnectionId) (now : Instant) : (enableWrite conn now).Respects Unanchored := by
  have calm {α : Type} {program : BrcbM α} (respects : program.Respects Calm) : program.Respects Unanchored :=
    respects.mono _ fun _ _ _ ran => ran.plain.events
  refine .bind (.bind (calm (Calm.lookupEngine _)) fun found => .ite (.pure _) ?_) fun _ => .pure _
  refine .bind (calm (Calm.claimBrcb _ _)) fun claimed => .ite (.pure _) (.bind (.atomically fun slot => ?_) ?_)
  · dsimp only
    cases claimBrcbLocked slot.brcb slot.state conn found.2 with
    | none => exact (Calm.refl slot).plain.events
    | some state =>
      intro event member
      have effect := applyRptEna_effect state true conn found.2
      dsimp only at member
      generalize (applyRptEna state true conn found.2).events = events at effect member
      generalize (applyRptEna state true conn found.2).state = after at effect
      cases effect with
      | none | again => cases member
      | enable | disable => rw [List.mem_singleton.mp member]; rfl
  · intro outcome
    have refreshed : (withEngine (refreshBrcbIntegrityPeriod now)).Respects Unanchored := by
      refine .bind (.whenReady fun slot => ?_) fun _ => .bind (calm (refreshBrcbIntegrityPeriod_calm now)) fun _ =>
        .bind (.atomically fun slot => ?_) fun _ => .pure _
      · exact (Calm.refl slot).plain.events
      · exact (Calm.refl slot).plain.events
    cases outcome with
    | error reason => exact .pure _
    | ok enabled =>
      cases enabled with
      | true => exact .bind refreshed fun _ => .pure _
      | false => exact .pure _

end Iec61850.Reporting
