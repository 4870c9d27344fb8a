import Iec61850.Concurrency.Episode
import Iec61850.Reporting.UrcbReports

/-!
General interrogations over whole runs. An interrogation belongs to the enabled period in which it
was requested, unless a client disables the block while it is still to be carried out: the loss of
the holder's connection takes GI back, an RptEna write does not.
-/

namespace Iec61850.Reporting

open Concurrency

structure Interrogating where
  gi : Bool
  rptEna : Bool

/-- What an operation does to them. `requested` is a GI write and `cut` an accepted RptEna write of
false. -/
structure Interrogating.Moves (requested cut : Prop) (before after : Interrogating) : Prop where
  raised : after.gi = true → before.gi = true ∨ requested ∧ after.rptEna = true
  closed : before.rptEna = true → after.gi = true → after.rptEna = false → cut
  cutting : cut → before.gi = true → before.rptEna = true → after.gi = true ∧ after.rptEna = false

def Interrogating.Calms (before after : Interrogating) : Prop := after.gi = true → after = before

namespace Interrogating

variable {requested : Prop} {before after first second third : Interrogating}

theorem Calms.refl (state : Interrogating) : Calms state state := fun _ => rfl

theorem Calms.trans (front : Calms first second) (back : Calms second third) : Calms first third := by
  intro set
  have same := back set
  rw [same] at set ⊢
  exact front set

theorem Calms.moves (calms : Calms before after) : Moves requested False before after where
  raised set := .inl (calms set ▸ set)
  closed enabled set disabled := by
    rw [calms set, enabled] at disabled
    cases disabled
  cutting := nofun

theorem Moves.calmed (moves : Moves requested False first second) (calms : Calms second third) :
    Moves requested False first third where
  raised set := by
    rw [calms set]
    exact moves.raised (calms set ▸ set)
  closed enabled set disabled := by
    have same := calms set
    rw [same] at set disabled
    exact moves.closed enabled set disabled
  cutting := nofun

theorem Moves.uncut {cut : Prop} (moves : Moves requested False before after) (never : ¬ cut) :
    Moves requested cut before after where
  raised := moves.raised
  closed enabled set disabled := (moves.closed enabled set disabled).elim
  cutting cuts := absurd cuts never

end Interrogating

theorem interrogations_kept_iff {state : Nat → Interrogating} {requested cut : Nat → Prop}
    (start : (state 0).gi = false)
    (moves : ∀ now, Interrogating.Moves (requested now) (cut now) (state now) (state (now + 1))) :
    (∀ now, Episode.Kept state (·.gi = true) (·.rptEna = true) requested now) ↔
      ∀ now, cut now → (state now).gi = false := by
  have iff := @Episode.kept_iff _ state (·.gi = true) (·.rptEna = true) requested cut (by simp [start])
    (fun now => (moves now).raised)
    (fun now enabled set disabled => (moves now).closed enabled set (by simpa using disabled))
    (fun now cuts set enabled => by simpa using (moves now).cutting cuts set enabled)
  simpa using iff

variable (steps : List Step) (slot : Slot) (field : RcbField) (value : RcbWriteValue)

def RequestsGi : Prop := field = .gi ∧ value = .bool true

def Disables : Prop := field = .rptEna ∧ value = .bool false

theorem Interrogating.Moves.of_same {field : RcbField} {value : RcbWriteValue} {answer : Answer}
    {before after : Interrogating} (same : after = before) (other : field ≠ .rptEna ∨ answer ≠ .accepted) :
    Moves (RequestsGi field value) (Disables field value ∧ answer = .accepted) before after := by
  subst same
  refine ⟨.inl, fun on _ off => Bool.noConfusion (on.symm.trans off), fun cut => ?_⟩
  rcases other with other | refused
  · exact absurd cut.1.1 other
  · exact absurd cut.2 refused

namespace ReportControl

variable {control : ReportControl}

def interrogating (control : ReportControl) : Interrogating where
  gi := control.state.gi
  rptEna := control.state.rptEna

theorem setWhileDisabled_interrogating {write : Answer × ReportControl}
    (same : write.2.interrogating = control.interrogating) :
    (control.setWhileDisabled write).2.interrogating = control.interrogating := by
  unfold setWhileDisabled
  split
  · rfl
  · exact same

theorem setField_interrogating {field : RcbField} (notGi : field ≠ .gi) (notRptEna : field ≠ .rptEna)
    (value : RcbWriteValue) (conn : ConnectionId) (now : Instant) :
    (control.setField field value conn now).2.interrogating = control.interrogating := by
  cases field with
  | gi => exact absurd rfl notGi
  | rptEna => exact absurd rfl notRptEna
  | rptId =>
    refine setWhileDisabled_interrogating ?_
    unfold setRptId
    split
    · split <;> rfl
    · rfl
  | datSet =>
    refine setWhileDisabled_interrogating ?_
    unfold setDatSet
    split
    · dsimp only
      split
      · rfl
      split
      · rfl
      split <;> rfl
    · rfl
  | optFlds =>
    refine setWhileDisabled_interrogating ?_
    unfold setOptFlds
    split
    · split <;> rfl
    · rfl
  | trgOps =>
    refine setWhileDisabled_interrogating ?_
    unfold setTrgOps
    split
    · split <;> rfl
    · rfl
  | bufTm | intgPd => cases value <;> exact setWhileDisabled_interrogating rfl
  | resv | confRev | sqNum | owner | entryId | purgeBuf | timeOfEntry | resvTms | unknown _ => rfl

variable (field : RcbField) (value : RcbWriteValue)

theorem setResv_interrogating (conn : ConnectionId) :
    (control.setResv conn value).2.interrogating = control.interrogating := by
  unfold setResv
  split
  · dsimp only
    split_ifs <;> rfl
  · rfl

theorem setGi_moves :
    Interrogating.Moves (RequestsGi .gi value) False control.interrogating (control.setGi value).2.interrogating := by
  cases value with
  | bool requested =>
    cases requested with
    | false => exact (Interrogating.Calms.refl _).moves
    | true =>
      unfold setGi
      dsimp only
      split
      · exact Interrogating.Calms.moves nofun
      next enabled =>
      split
      · exact (Interrogating.Calms.refl _).moves
      · have on : control.state.rptEna = true := by simpa using enabled
        exact ⟨fun _ => .inr ⟨⟨rfl, rfl⟩, on⟩, fun on _ off => Bool.noConfusion (on.symm.trans off), nofun⟩
  | unsigned _ | integer _ | visibleString _ | bitString _ | octetString _ =>
    exact (Interrogating.Calms.refl _).moves

theorem setRptEna_moves (conn : ConnectionId) (now : Instant) :
    Interrogating.Moves False (Disables .rptEna value ∧ (control.setRptEna conn now value).1 = .accepted)
      control.interrogating (control.setRptEna conn now value).2.interrogating := by
  cases value with
  | bool requested =>
    cases requested with
    | true =>
      have notCut : ¬ Disables .rptEna (.bool true) := by simp [Disables]
      have unchanged : Interrogating.Moves False
          (Disables .rptEna (.bool true) ∧ (control.setRptEna conn now (.bool true)).1 = .accepted)
          control.interrogating control.interrogating :=
        ⟨.inl, fun on _ off => Bool.noConfusion (on.symm.trans off), fun cut => absurd cut.1 notCut⟩
      have after : (control.setRptEna conn now (.bool true)).2.interrogating = control.interrogating ∨
          (control.setRptEna conn now (.bool true)).2.interrogating =
          { control.interrogating with rptEna := true } := by
        unfold setRptEna
        dsimp only
        split
        · exact .inl rfl
        split
        · exact .inl rfl
        · refine .inr ?_
          split <;> rfl
      rcases after with same | enabled
      · rw [same]
        exact unchanged
      · rw [enabled]
        exact ⟨.inl, nofun, fun cut => absurd cut.1 notCut⟩
    | false =>
      unfold setRptEna
      dsimp only
      split
      next disabled =>
        have off : control.interrogating.rptEna = false := by simpa [interrogating] using disabled
        exact ⟨.inl, fun on => Bool.noConfusion (on.symm.trans off),
          fun _ _ on => Bool.noConfusion (on.symm.trans off)⟩
      · exact ⟨.inl, fun _ _ _ => ⟨⟨rfl, rfl⟩, rfl⟩, fun _ set _ => ⟨set, rfl⟩⟩
  | unsigned _ | integer _ | visibleString _ | bitString _ | octetString _ =>
    exact ⟨.inl, fun on _ off => Bool.noConfusion (on.symm.trans off), fun cut => RcbWriteValue.noConfusion cut.1.2⟩

theorem handleSetRcbField_moves (conn : ConnectionId) (now : Instant) : Interrogating.Moves (RequestsGi field value)
      (Disables field value ∧ (control.handleSetRcbField field value conn now).1 = .accepted) control.interrogating
      (control.handleSetRcbField field value conn now).2.interrogating := by
  have checked : ∀ field, Interrogating.Moves (RequestsGi field value)
      (Disables field value ∧
        (if !control.state.unreserved && (!control.state.resv || control.state.clientConnId != some conn) then
          control.refuse .objectAccessDenied else control.setField field value conn now).1 = .accepted)
      control.interrogating
      (if !control.state.unreserved && (!control.state.resv || control.state.clientConnId != some conn) then
        control.refuse .objectAccessDenied else control.setField field value conn now).2.interrogating := by
    intro field
    split
    · exact .of_same rfl (.inr nofun)
    by_cases isGi : field = .gi
    · subst isGi
      obtain ⟨raised, closed, _⟩ := control.setGi_moves value
      exact ⟨raised, fun on set off => (closed on set off).elim, fun cut => RcbField.noConfusion cut.1.1⟩
    by_cases isRptEna : field = .rptEna
    · subst isRptEna
      obtain ⟨raised, closed, cutting⟩ := control.setRptEna_moves value conn now
      exact ⟨fun set => (raised set).imp_right fun never => never.1.elim, closed, cutting⟩
    · exact .of_same (setField_interrogating isGi isRptEna value conn now) (.inl isRptEna)
  cases field with
  | confRev | sqNum | owner => exact .of_same rfl (.inl nofun)
  | resv => exact .of_same (setResv_interrogating value conn) (.inl nofun)
  | rptId | rptEna | datSet | optFlds | bufTm | trgOps | intgPd | gi | entryId | purgeBuf | timeOfEntry | resvTms
  | unknown _ => exact checked _

theorem onConnectionDropped_calms (conn : ConnectionId) :
    Interrogating.Calms control.interrogating (control.onConnectionDropped conn).interrogating := by
  unfold onConnectionDropped
  dsimp only
  split
  · exact nofun
  · exact .refl _

end ReportControl

theorem Served.calms {connId : ConnectionId} {before after : ReportControl} (served : Served connId before after) :
    Interrogating.Calms before.interrogating after.interrogating := by
  intro set
  have now : after.state.gi = true := set
  unfold ReportControl.interrogating
  rw [served.rptEna, served.gi now, now]

namespace RcbSession

variable {serving : RcbSession}

theorem dropConnection_calms (gone : Option ConnectionId) :
    Interrogating.Calms serving.control.interrogating (serving.dropConnection gone).control.interrogating := by
  cases gone with
  | none => exact .refl _
  | some connId => exact ReportControl.onConnectionDropped_calms connId

theorem tickIdle_calms (live : LiveValues) (now : Instant) (nowMs : UInt64) :
    Interrogating.Calms serving.control.interrogating (serving.tickIdle live now nowMs).control.interrogating := by
  unfold tickIdle
  split
  next connId _ _ =>
    have served := (decideTick_served serving connId live now nowMs).trans
      (perform_served _ connId live nowMs (serving.control.state.decideTick live now nowMs).1)
    exact served.calms.trans (dropConnection_calms _)
  · exact .refl _

theorem tickAt_calms (live : LiveValues) (now : Instant) (nowMs : UInt64) :
    Interrogating.Calms serving.control.interrogating (serving.tickAt live now nowMs).control.interrogating := by
  have resumed : (serving.resumePartial serving.control.state.clientConnId
      serving.control.state.rptEna).2.control.interrogating =
      serving.control.interrogating := by
    unfold resumePartial
    split
    · rfl
    dsimp only
    split
    · rfl
    · split <;> rfl
  unfold tickAt
  dsimp only
  generalize serving.resumePartial _ _ = outcome at resumed ⊢
  obtain ⟨result, sent⟩ := outcome
  rw [← resumed]
  cases result with
  | idle | done count => exact tickIdle_calms live now nowMs
  | blocked count => exact .refl _
  | gone => exact dropConnection_calms _

theorem closeRetriggered_calms (live : LiveValues) (members : List TriggeredMember) (nowMs : UInt64) :
    Interrogating.Calms serving.control.interrogating
      (serving.closeRetriggered live members nowMs).2.control.interrogating := by
  unfold closeRetriggered
  dsimp only
  split
  next pending connId _ _ =>
    split
    · exact (flushPending_served (serving.setState serving.control.state.clearPending) connId live pending nowMs).calms
    · exact .refl _
  · exact .refl _

theorem triggerMembers_calms (live : LiveValues) (batch : BatchValues) (members : List TriggeredMember)
    (now : Instant) (nowMs : UInt64) : Interrogating.Calms serving.control.interrogating
      (serving.triggerMembers live batch members now nowMs).control.interrogating := by
  unfold triggerMembers
  split
  · exact .refl _
  have closed := @closeRetriggered_calms serving live members nowMs
  generalize serving.closeRetriggered live members nowMs = outcome at closed ⊢
  obtain ⟨dropped, sent⟩ := outcome
  dsimp only
  split
  · exact closed.trans ((addMembers_served sent 0 live batch members now nowMs).calms.trans (dropConnection_calms _))
  · exact closed.trans (dropConnection_calms _)

end RcbSession

namespace UrcbStep

def requestsGi : UrcbStep → Prop
  | .write field value _ _ => RequestsGi field value
  | _ => False

def disables (control : ReportControl) : UrcbStep → Prop
  | .write field value conn now =>
    Disables field value ∧ (control.handleSetRcbField field value conn now).1 = .accepted
  | _ => False

theorem moves (control : ReportControl) (step : UrcbStep) :
    Interrogating.Moves step.requestsGi (step.disables control) control.interrogating
      (step.after control).interrogating := by
  cases step with
  | write field value conn now => exact control.handleSetRcbField_moves field value conn now
  | connectionLost conn => exact (ReportControl.onConnectionDropped_calms conn).moves
  | updates batch watched live channel now nowMs =>
    refine Interrogating.Calms.moves ?_
    unfold after serve RcbSession.triggerUrcbBatch
    dsimp only
    split
    · exact RcbSession.triggerMembers_calms live batch _ now nowMs
    · exact .refl _
  | update changed live channel now nowMs =>
    refine Interrogating.Calms.moves ?_
    unfold after serve RcbSession.onValueUpdated
    dsimp only
    split
    · exact RcbSession.triggerMembers_calms live .none _ now nowMs
    · exact .refl _
  | tick live channel now nowMs =>
    exact (@RcbSession.tickAt_calms ⟨control, channel, []⟩ live now nowMs).moves

end UrcbStep

def Slot.interrogating : Interrogating where
  gi := slot.state.gi
  rptEna := slot.state.rptEna

section

variable {before after : Slot} {events : List Event}

theorem Internal.calms (ran : Internal before events after) :
    Interrogating.Calms before.interrogating after.interrogating := by
  intro set
  have now : after.state.gi = true := set
  have rptEna : after.state.rptEna = before.state.rptEna := congrArg Rights.rptEna ran.rights
  unfold Slot.interrogating
  rw [rptEna, ran.gi now, now]

theorem EngineSection.calms (ran : EngineSection before events after) :
    Interrogating.Calms before.interrogating after.interrogating := by
  cases ran with
  | internal internal => exact internal.calms
  | drop conn now holds =>
    intro set
    have cleared : (before.state.connectionDropped now).gi = false := by
      unfold BrcbState.connectionDropped
      split <;> rfl
    exact Bool.noConfusion (cleared.symm.trans set)
  | expire now =>
    have same : ({ before with state := (before.state.tickReservation now).2 } : Slot).interrogating =
        before.interrogating := by
      unfold BrcbState.tickReservation
      split
      · rfl
      · rfl
      split
      · rfl
      · dsimp only
        split <;> rfl
    rw [same]
    exact .refl _

theorem FieldSection.calms (ran : FieldSection before events after) :
    Interrogating.Calms before.interrogating after.interrogating := by
  have kept (rights : after.rights = before.rights) (gi : after.state.gi = before.state.gi) :
      Interrogating.Calms before.interrogating after.interrogating := by
    have rptEna : after.state.rptEna = before.state.rptEna := congrArg Rights.rptEna rights
    unfold Slot.interrogating
    rw [rptEna, gi]
    exact .refl _
  cases ran with
  | internal internal => exact internal.calms
  | configure rights gi _ | empty rights _ gi => exact kept rights gi

theorem Locking.calms {step : Slot → List Event → Slot → Prop}
    (inside : ∀ before events after, step before events after → Interrogating.Calms before.interrogating
      after.interrogating) (ran : Locking step before events after) :
    Interrogating.Calms before.interrogating after.interrogating := by
  cases ran with
  | inside ran => exact inside _ _ _ ran
  | engine engineLocked => exact .refl _

end

theorem calms_of_respects {α : Type} {program : BrcbM α} {step : Slot → List Event → Slot → Prop}
    (respects : program.Respects step) (calm : ∀ before events after, step before events after →
      Interrogating.Calms before.interrogating after.interrogating) (slot : Slot) :
    Interrogating.Calms slot.interrogating (program.run slot).state.interrogating :=
  (respects.mono (fun before _ after => Interrogating.Calms before.interrogating after.interrogating) calm).run
    (fun slot => .refl slot.interrogating) (fun _ _ _ _ _ => Interrogating.Calms.trans) slot

section

variable {conn : ConnectionId} {writerIp : Option IpAddr} {now : Instant}

theorem claimed_interrogating {brcb : Brcb} {state claimed : BrcbState}
    (entitled : claimBrcbLocked brcb state conn writerIp = some claimed) :
    claimed.gi = state.gi ∧ claimed.rptEna = state.rptEna := by
  rcases claimBrcbLocked_cases entitled with ⟨rfl, _⟩ | ⟨rfl, _⟩ <;> exact ⟨rfl, rfl⟩

variable (slot : Slot) (field : RcbField) (value : RcbWriteValue)

theorem setBrcbGi_moves : Interrogating.Moves (RequestsGi .gi value) False slot.interrogating
      ((setBrcbGi value).run slot).state.interrogating := by
  cases value with
  | bool requested =>
    cases requested with
    | false => exact (Interrogating.Calms.refl _).moves
    | true =>
      unfold setBrcbGi
      rw [lockState_run]
      split
      · exact Interrogating.Calms.moves nofun
      next enabled =>
      split
      · exact (Interrogating.Calms.refl _).moves
      · have on : slot.state.rptEna = true := by simpa using enabled
        exact ⟨fun _ => .inr ⟨⟨rfl, rfl⟩, on⟩, fun on _ off => Bool.noConfusion (on.symm.trans off), nofun⟩
  | unsigned _ | integer _ | visibleString _ | bitString _ | octetString _ =>
    exact (Interrogating.Calms.refl _).moves

theorem setBrcbResvTms_interrogating :
    ((setBrcbResvTms conn writerIp value).run slot).state.interrogating = slot.interrogating := by
  unfold setBrcbResvTms
  split
  · rfl
  rw [Proc.run_atomically]
  split
  · rfl
  next claimed entitled =>
  obtain ⟨gi, rptEna⟩ := claimed_interrogating entitled
  have applied (value : Int16) : (applyResvTms claimed value conn writerIp).2.gi = claimed.gi ∧
      (applyResvTms claimed value conn writerIp).2.rptEna = claimed.rptEna := by
    unfold applyResvTms
    split
    · exact ⟨rfl, rfl⟩
    · split <;> exact ⟨rfl, rfl⟩
  unfold Slot.interrogating
  rw [(applied _).1, (applied _).2, gi, rptEna]

theorem applyRptEna_true_moves (state : BrcbState) (value : Bool) (enabling : value = true) :
    Interrogating.Moves False False ⟨state.gi, state.rptEna⟩
      ⟨(applyRptEna state value conn writerIp).state.gi, (applyRptEna state value conn writerIp).state.rptEna⟩ := by
  subst enabling
  have after : (applyRptEna state true conn writerIp).state.gi = state.gi ∧
      ((applyRptEna state true conn writerIp).state.rptEna = true ∨
        (applyRptEna state true conn writerIp).state.rptEna = state.rptEna) := by
    unfold applyRptEna
    dsimp only
    rw [if_pos rfl]
    split
    · exact ⟨rfl, .inr rfl⟩
    · split
      · exact ⟨rfl, .inr rfl⟩
      · exact ⟨rfl, .inl rfl⟩
  refine ⟨fun set => .inl (after.1 ▸ set), fun on _ off => ?_, nofun⟩
  rcases after.2 with enabled | same
  · exact Bool.noConfusion (enabled.symm.trans off)
  · exact Bool.noConfusion (on.symm.trans (same.symm.trans off))

theorem answerRptEna_calms (outcome : Except DataAccessError Bool) (slot : Slot) :
    Interrogating.Calms slot.interrogating
      (Proc.run (match outcome with
        | .ok true => do
            withEngine (refreshBrcbIntegrityPeriod now)
            return .accepted
        | .ok false => return .accepted
        | .error error => return .refused error : BrcbM Answer) slot).state.interrogating := by
  match outcome with
  | .ok true =>
    have refreshed := calms_of_respects (withEngine_locking (Internal.refreshBrcbIntegrityPeriod now))
      (fun _ _ _ => Locking.calms fun _ _ _ => Internal.calms) slot
    simpa using refreshed
  | .ok false => exact .refl _
  | .error error => exact .refl _

theorem writeRptEna_moves (slot : Slot) (value : RcbWriteValue) : Interrogating.Moves False
      (Disables .rptEna value ∧ ((writeBrcbField .rptEna value conn writerIp now).run slot).result = .accepted)
      slot.interrogating ((writeBrcbField .rptEna value conn writerIp now).run slot).state.interrogating := by
  cases value with
  | bool value =>
    unfold writeBrcbField setBrcbRptEna
    rw [Proc.run_bind, Proc.run_atomically]
    cases entitled : claimBrcbLocked slot.brcb slot.state conn writerIp with
    | none => exact (Interrogating.Calms.refl _).moves.uncut fun cut => Answer.noConfusion cut.2
    | some claimed =>
      obtain ⟨gi, rptEna⟩ := claimed_interrogating entitled
      have same : slot.interrogating = ⟨claimed.gi, claimed.rptEna⟩ := by
        unfold Slot.interrogating
        rw [gi, rptEna]
      rw [same]
      cases value with
      | true =>
        have moves := (@applyRptEna_true_moves conn writerIp claimed true rfl).calmed
          (@answerRptEna_calms now (applyRptEna claimed true conn writerIp).result
            { slot with state := (applyRptEna claimed true conn writerIp).state })
        exact moves.uncut fun cut => by simp [Disables] at cut
      | false =>
        cases enabled : claimed.rptEna with
        | true =>
          have disabled : applyRptEna claimed false conn writerIp =
              { result := .ok false
                state := { claimed with
                  rptEna := false, owner := if claimed.resvTms = .notReserved then none else claimed.owner }
                events := [.disabled] } := by
            simp [applyRptEna, enabled]
          dsimp only
          rw [disabled]
          exact ⟨.inl, fun _ _ _ => ⟨⟨rfl, rfl⟩, rfl⟩, fun _ set _ => ⟨set, rfl⟩⟩
        | false =>
          have unchanged : applyRptEna claimed false conn writerIp = { result := .ok false, state := claimed } := by
            simp [applyRptEna, enabled]
          dsimp only
          rw [unchanged]
          exact ⟨.inl, nofun, fun _ _ => nofun⟩
  | unsigned _ | integer _ | visibleString _ | bitString _ | octetString _ =>
    exact (Interrogating.Calms.refl _).moves.uncut fun cut => RcbWriteValue.noConfusion cut.1.2

theorem writeBrcbField_moves : Interrogating.Moves (RequestsGi field value)
      (Disables field value ∧ ((writeBrcbField field value conn writerIp now).run slot).result = .accepted)
      slot.interrogating ((writeBrcbField field value conn writerIp now).run slot).state.interrogating := by
  cases plain : FieldSection.isPlain field with
  | true =>
    have calms := calms_of_respects (FieldSection.writeBrcbField_locking plain value conn writerIp now)
      (fun _ _ _ => Locking.calms fun _ _ _ => FieldSection.calms) slot
    refine calms.moves.uncut fun cut => ?_
    rw [cut.1.1] at plain
    cases plain
  | false =>
    cases field with
    | gi => exact (setBrcbGi_moves slot value).uncut fun cut => RcbField.noConfusion cut.1.1
    | rptEna =>
      have moves := @writeRptEna_moves conn writerIp now slot value
      exact ⟨fun set => (moves.raised set).imp_right fun never => never.1.elim, moves.closed, moves.cutting⟩
    | resvTms => exact .of_same (setBrcbResvTms_interrogating slot value) (.inl nofun)
    | _ => cases plain

theorem handleSetBrcbField_moves : Interrogating.Moves (RequestsGi field value)
      (Disables field value ∧ ((handleSetBrcbField field value conn now).run slot).result = .accepted)
      slot.interrogating ((handleSetBrcbField field value conn now).run slot).state.interrogating := by
  by_cases writable : field ≠ .confRev ∧ field ≠ .sqNum ∧ field ≠ .resv
  · rw [handleSetBrcbField_run field writable]
    dsimp only
    split
    · exact .of_same rfl (.inr nofun)
    cases entitled : claimBrcbLocked slot.brcb slot.state conn ((slot.peers conn).map (·.ip)) with
    | none => exact .of_same rfl (.inr nofun)
    | some claimed =>
      obtain ⟨gi, rptEna⟩ := claimed_interrogating entitled
      have same : slot.interrogating = ({ slot with state := claimed } : Slot).interrogating := by
        unfold Slot.interrogating
        rw [gi, rptEna]
      rw [same]
      exact writeBrcbField_moves { slot with state := claimed } field value
  · have refused : field = .confRev ∨ field = .sqNum ∨ field = .resv := by tauto
    rcases refused with rfl | rfl | rfl <;> exact .of_same rfl (.inl nofun)

end

namespace Step

def requestsGi : Step → Prop
  | .write field value _ _ => RequestsGi field value
  | _ => False

def disables (slot : Slot) (step : Step) : Prop :=
  match step with
  | .write field value conn now =>
    Disables field value ∧ ((handleSetBrcbField field value conn now).run slot).result = .accepted
  | _ => False

theorem moves (slot : Slot) (step : Step) :
    Interrogating.Moves step.requestsGi (step.disables slot) slot.interrogating (step.after slot).interrogating := by
  have engine {α : Type} {body : BrcbM α} (sections : body.Respects EngineSection) (slot : Slot) :
      Interrogating.Calms slot.interrogating ((withEngine body).run slot).state.interrogating :=
    calms_of_respects (withEngine_locking sections) (fun _ _ _ => Locking.calms fun _ _ _ => EngineSection.calms) slot
  have internal {α : Type} {program : BrcbM α} (sections : program.Respects Internal) (slot : Slot) :
      Interrogating.Calms slot.interrogating (program.run slot).state.interrogating :=
    calms_of_respects sections (fun _ _ _ => Internal.calms) slot
  cases step with
  | write field value conn now => exact handleSetBrcbField_moves slot field value
  | enqueue nowMs isIntegrity isGi payload | enqueueSnapshot nowMs isIntegrity isGi snapshot =>
    exact (internal (.bind (Internal.enqueues (EnqueueSection.enqueueAllocated _ _)) fun _ => .pure _) slot).moves
  | enqueueStored oldestCommit timeMs snapshot =>
    exact (internal (.bind (Internal.enqueues (EnqueueSection.enqueueStoredEntry _ _ _)) fun _ => .pure _) slot).moves
  | connectionLost conn now =>
    have calms := engine (EngineSection.onConnectionDropped conn now) slot
    exact Interrogating.Calms.moves (by simpa [after, program] using calms)
  | reservationTick now =>
    have calms := engine (EngineSection.tickBrcbReservations now) slot
    exact Interrogating.Calms.moves (by simpa [after, program] using calms)
  | tick channel now nowMs =>
    have calms : Interrogating.Calms slot.interrogating _ :=
      engine (EngineSection.tickBrcb now nowMs) { slot with channel }
    exact Interrogating.Calms.moves (by simpa [after, program] using calms)
  | flush channel now =>
    have calms : Interrogating.Calms slot.interrogating _ :=
      engine (EngineSection.flushAllBrcbPending now) { slot with channel }
    exact Interrogating.Calms.moves (by simpa [after, program] using calms)

end Step

/-- Requests are kept to their period in every run of a block, whatever the kind: `view` is what its
state says about interrogations. -/
theorem run_kept_iff {β ι : Type} {after : β → ι → β} {view : β → Interrogating} {requests : ι → Prop}
    {disables : β → ι → Prop}
    (moves : ∀ block step, Interrogating.Moves (requests step) (disables block step) (view block) (view (after block
      step))) {block : β} (start : (view block).gi = false) (steps : List ι) :
    (∀ now, (view ((steps.take now).foldl after block)).gi = true →
        ∃ made < now, (∃ step, steps[made]? = some step ∧ requests step) ∧
          ∀ later, made < later → later ≤ now → (view ((steps.take later).foldl after block)).rptEna = true) ↔
      ∀ now step, steps[now]? = some step → disables ((steps.take now).foldl after block) step →
        (view ((steps.take now).foldl after block)).gi = false := by
  have each : ∀ now, Interrogating.Moves (∃ step, steps[now]? = some step ∧ requests step)
      (∃ step, steps[now]? = some step ∧ disables ((steps.take now).foldl after block) step)
      (view ((steps.take now).foldl after block)) (view ((steps.take (now + 1)).foldl after block)) := by
    intro now
    rw [List.take_add_one]
    cases found : steps[now]? with
    | none =>
      rw [Option.toList_none, List.append_nil]
      exact (Interrogating.Calms.refl _).moves.uncut (by simp)
    | some step =>
      simpa using moves ((steps.take now).foldl after block) step
  have iff := @interrogations_kept_iff (fun now => view ((steps.take now).foldl after block)) _ _ start each
  refine iff.trans ⟨fun quiet now step found cuts => quiet now ⟨step, found, cuts⟩, ?_⟩
  rintro quiet now ⟨step, found, cuts⟩
  exact quiet now step found cuts

theorem runSteps_eq_foldl : runSteps steps slot = steps.foldl (fun slot step => step.after slot) slot := by
  induction steps generalizing slot with
  | nil => rfl
  | cons step rest ih => exact ih (step.after slot)

/-- An interrogation belongs to the enabled period it was requested in, in every run of a block of
either kind in which no client disables the block over a pending interrogation, and in no other
run. -/
theorem interrogations_belong_to_period_iff (mmsPath : String) (rcb : Rcb) (dataset : Dataset)
    (datasetRegistry : String × String → Option Dataset) (peers : ConnectionId → Option Peer)
    (urcbSteps : List UrcbStep) (slot : Slot) (fresh : slot.Fresh) (steps : List Step) :
    let control now := runUrcb (urcbSteps.take now) (.registered mmsPath rcb dataset datasetRegistry peers)
    let block now := runSteps (steps.take now) slot
    ((∀ now, (control now).state.gi = true →
        ∃ made < now, (∃ step, urcbSteps[made]? = some step ∧ step.requestsGi) ∧
          ∀ later, made < later → later ≤ now → (control later).state.rptEna = true) ↔
      ∀ now step, urcbSteps[now]? = some step → step.disables (control now) → (control now).state.gi = false) ∧
    ((∀ now, (block now).state.gi = true →
        ∃ made < now, (∃ step, steps[made]? = some step ∧ step.requestsGi) ∧
          ∀ later, made < later → later ≤ now → (block later).state.rptEna = true) ↔
      ∀ now step, steps[now]? = some step → step.disables (block now) → (block now).state.gi = false) := by
  refine ⟨run_kept_iff UrcbStep.moves rfl urcbSteps, ?_⟩
  have start : slot.interrogating.gi = false := by
    unfold Slot.interrogating
    rw [fresh.state]
    rfl
  have iff := run_kept_iff Step.moves start steps
  simp only [← runSteps_eq_foldl] at iff
  exact iff

def interrogatedUrcb : ReportControl :=
  .registered "LD0/LLN0$RP$urcb01"
    { name := "urcb01", rptId := "", datasetName := "events", confRev := 1, trgOps := .gi, optFlds := ⟨0⟩
      bufTmMs := 0, intgPdMs := 0, clientReservation := none, withOwner := true }
    { name := "events", entries := [] } (fun _ => none) (fun _ => none)

def interrogatedBrcb : Slot :=
  { bareBlock with
    brcb := { bareBlock.brcb with trgOps := .gi }
    state := { bareBlock.state with trgOps := .gi }
    dataset := some { name := "events", entries := [] } }

theorem interrogatedBrcb_fresh : interrogatedBrcb.Fresh :=
  ⟨rfl, ⟨.dropOldest, rfl⟩, rfl, rfl, rfl, rfl, rfl, rfl⟩

/-- The client enables the block and asks for an interrogation: the next tick finds it in the same
period. -/
theorem interrogation_awaited : let steps : List Step := [.write .rptEna (.bool true) 7 0, .write .gi (.bool true) 7 0]
    interrogatedBrcb.Fresh ∧ (runSteps (steps.take 2) interrogatedBrcb).state.gi = true ∧
      ∃ made < 2, (∃ step, steps[made]? = some step ∧ step.requestsGi) ∧
        ∀ later, made < later → later ≤ 2 → (runSteps (steps.take later) interrogatedBrcb).state.rptEna = true := by
  intro steps
  have pending : (runSteps (steps.take 2) interrogatedBrcb).state.gi = true := by decide +kernel
  have quiet : ∀ now step, steps[now]? = some step → step.disables (runSteps (steps.take now) interrogatedBrcb) →
      (runSteps (steps.take now) interrogatedBrcb).state.gi = false := by
    intro now step found cuts
    match now, found with
    | 0, found | 1, found =>
      cases found
      exact absurd cuts.1 (by simp [Disables])
  have iff := interrogations_belong_to_period_iff "LD0/LLN0$RP$urcb01" interrogatedUrcb.rcb
    { name := "events", entries := [] } (fun _ => none) (fun _ => none) [] interrogatedBrcb interrogatedBrcb_fresh steps
  exact ⟨interrogatedBrcb_fresh, pending, iff.2.mpr quiet 2 pending⟩

/-- Disabled over a pending interrogation, either block keeps GI set; enabled again, it carries the
interrogation out. -/
theorem interrogation_outlives_period :
    let writes : List (RcbField × Bool) := [(.rptEna, true), (.gi, true), (.rptEna, false), (.rptEna, true)]
    let channel : Channel := { registered := true, receiverAlive := true, free := 32, upcoming := [] }
    let urcbSteps : List UrcbStep := writes.map fun write => .write write.1 (.bool write.2) 7 0
    let steps : List Step := writes.map fun write => .write write.1 (.bool write.2) 7 0
    let control := runUrcb (urcbSteps.take 3) interrogatedUrcb
    let block := runSteps (steps.take 3) interrogatedBrcb
    (control.state.gi = true ∧ control.state.rptEna = false) ∧
      (traceUrcb (urcbSteps ++ [.tick (fun _ => none) channel 1 1]) interrogatedUrcb).map (fun event =>
        match event with
        | .enabled => "enabled"
        | .disabled => "disabled"
        | .attempted params _ _ => if params.pending.isGi then "interrogation" else "report"
        | .dropped => "dropped"
        | .accepted _ => "segment") = ["enabled", "disabled", "enabled", "interrogation", "segment"] ∧
      (block.state.gi = true ∧ block.state.rptEna = false) ∧
      (runSteps (steps ++ [.tick channel 1 1]) interrogatedBrcb).reportBuffer.entries.map (·.isGi) = [true] := by
  decide +kernel

end Iec61850.Reporting
