import Iec61850.Reporting.Resync.Client

/-!
An accepted EntryID write decides where the next transmission starts, unless a tick overtakes the
client between the section that enables the block and the one that drops what is left of an earlier
report.
-/

namespace Iec61850.Reporting

open Concurrency List Model Proc Progress

section Progress

def Progress.observeAll (progress : Progress) (party : Party) (events : List Event) : Progress :=
  events.foldl (fun progress event => progress.observe (party, event)) progress

theorem progressOf_append (history : List (Party × Event)) (party : Party) (events : List Event) :
    progressOf (history ++ events.map (Prod.mk party)) = (progressOf history).observeAll party events := by
  unfold progressOf observeAll
  rw [foldl_append, foldl_map]

theorem Progress.observeAll_same {progress : Progress} {party : Party} {events : List Event}
    (same : ∀ event ∈ events, progress.observe (party, event) = progress) :
    progress.observeAll party events = progress := by
  induction events with
  | nil => rfl
  | cons event rest ih =>
    obtain ⟨first, others⟩ := forall_mem_cons.mp same
    unfold observeAll
    rw [foldl_cons, first]
    exact ih others

variable {progress : Progress} {party : Party} {events : List Event}

theorem Progress.observeAll_neutral (neutral : ∀ event ∈ events, event.isNeutral = true) :
    progress.observeAll party events = progress := by
  refine observeAll_same fun event member => ?_
  have quiet := neutral event member
  cases progress <;> cases party <;> cases event <;> first | rfl | cases quiet

theorem Progress.observeAll_tick : writing.observeAll .tick events = .writing :=
  observeAll_same fun _ _ => rfl

theorem Progress.observeAll_client (unanchored : ∀ event ∈ events, event.isResynchronized = false) :
    writing.observeAll .client events = .writing := by
  refine observeAll_same fun event member => ?_
  have other := unanchored event member
  cases event <;> first | rfl | cases other

theorem Progress.observeAll_served : served.observeAll party events = .served :=
  observeAll_same fun _ _ => rfl

end Progress

structure Promised (progress : Progress) (slot : Slot) (events : List Event) : Prop where
  silent : ∀ id, progress = .resynchronized id → ∀ event ∈ events, event.isSegment = false
  first : ∀ id, progress = .enabled id → ∀ event ∈ events, event.isSegment = true → slot.FirstSegmentAfter id event

theorem Promised.of_neutral {progress : Progress} {slot : Slot} {events : List Event}
    (neutral : ∀ event ∈ events, event.isNeutral = true) : Promised progress slot events := by
  refine ⟨fun id _ event member => Event.isSegment_of_neutral (neutral event member),
    fun id _ event member segment => ?_⟩
  rw [Event.isSegment_of_neutral (neutral event member)] at segment
  cases segment

def refreshInside (now : Instant) : BrcbM Unit :=
  refreshBrcbIntegrityPeriod now >>= fun _ => leaveEngine

theorem refreshWrite_eq (now : Instant) :
    (refreshWrite now >>= fun _ => pure () : BrcbM Unit) = enterEngine >>= fun _ => refreshInside now := by
  unfold refreshWrite refreshInside
  simp only [bind_assoc, withEngine_bind, pure_bind, bind_pure_unit]

theorem refreshInside_step {now : Instant} {ready : Slot → Bool} {effect : Slot → Slot} {emitted : Slot → List Event}
    {next : Slot → BrcbM Unit} (program : refreshInside now = .critical ready effect emitted next) (slot : Slot) :
    (effect slot).partialReport = none ∧ Calm slot (emitted slot) (effect slot) ∧
      Amid (Respects Calm) (fun _ : Unit => leaveEngine) (next slot) := by
  have calm := Calm.forgets (ForgetSection.takePartial fun _ => true) slot
  obtain ⟨rfl, rfl, rfl, rfl⟩ := Proc.critical.inj program
  refine ⟨?_, calm.1, .enter ?_⟩
  · dsimp only
    cases kept : slot.partialReport with
    | none => exact kept
    | some report => rfl
  · exact .bind (.ite (.bind (Calm.readState _) fun _ => Calm.modifyBuffer _) (.pure _)) fun _ =>
      .bind (Calm.readState _) fun _ => .atomically fun _ => ⟨rfl, rfl, .inl rfl, rfl, by simp⟩

/-- Where the two threads are and what they have left in the block, for each stage of a
resynchronisation. -/
inductive Orderly (bytes : List UInt8) (conn : ConnectionId) (now : Instant) :
    Progress → Slot → (client tick : BrcbM Unit) → Prop
  | writing {slot : Slot} {client tick : BrcbM Unit} (inside active : Bool) (place : TickPlace inside active tick)
      (locked : slot.engineLocked = inside)
      (amid : Amid (Respects Early) (fun _ : Answer => entryIdWrite bytes conn now) client) :
      Orderly bytes conn now .writing slot client tick
  | looking {slot : Slot} {client tick : BrcbM Unit} (inside active : Bool) (place : TickPlace inside active tick)
      (locked : slot.engineLocked = inside) (serves : active = true → slot.state.rptEna = true)
      (amid : Amid (Until Plain (Turned (.fromBytes bytes)) (Respects Calm)) (fun _ : Answer => enableWrite conn now)
        client) : Orderly bytes conn now .writing slot client tick
  | skipped {slot : Slot} {client tick : BrcbM Unit} (unanchored : client.Respects Unanchored) :
      Orderly bytes conn now .writing slot client tick
  | resynchronized {slot : Slot} {client tick : BrcbM Unit} (id : EntryId) (inside : Bool)
      (place : TickPlace inside false tick) (locked : slot.engineLocked = inside)
      (disabled : slot.state.rptEna = false) (point : slot.state.rewindPoint = pointOf id)
      (amid : Amid (Respects Calm) (fun _ : Answer => enableWrite conn now) client ∨
        Amid (Until Calm Enables (· = refreshWrite now)) (fun _ : Answer => pure ()) client) :
      Orderly bytes conn now (.resynchronized id) slot client tick
  | enabled {slot : Slot} {tick : BrcbM Unit} (id : EntryId) (inside : Bool) (quiet : Quiet id inside slot tick)
      (locked : slot.engineLocked = inside) (point : slot.state.rewindPoint = pointOf id) :
      Orderly bytes conn now (.enabled id) slot (refreshWrite now >>= fun _ => pure ()) tick
  | refreshing {slot : Slot} {client tick : BrcbM Unit} (id : EntryId) (place : TickPlace false false tick)
      (locked : slot.engineLocked = true) (point : slot.state.rewindPoint = pointOf id)
      (inside : client = refreshInside now ∨
        slot.partialReport = none ∧ Amid (Respects Calm) (fun _ : Unit => leaveEngine) client) :
      Orderly bytes conn now (.enabled id) slot client tick
  | refreshed {slot : Slot} {tick : BrcbM Unit} (id : EntryId) (inside : Bool) (quiet : Quiet id inside slot tick)
      (locked : slot.engineLocked = inside) (point : slot.state.rewindPoint = pointOf id)
      (clear : slot.partialReport = none) :
      Orderly bytes conn now (.enabled id) slot (pure ()) tick
  | served {slot : Slot} {client tick : BrcbM Unit} : Orderly bytes conn now .served slot client tick

variable {bytes : List UInt8} {conn : ConnectionId} {now : Instant} {progress : Progress} {slot : Slot}
  {client tick : BrcbM Unit} {ready : Slot → Bool} {effect : Slot → Slot} {emitted : Slot → List Event}
  {next : Slot → BrcbM Unit}

theorem Orderly.point {id : EntryId} (orderly : Orderly bytes conn now progress slot client tick)
    (waiting : progress = .resynchronized id ∨ progress = .enabled id) : slot.state.rewindPoint = pointOf id := by
  rcases waiting with rfl | rfl
  · cases orderly with
    | resynchronized id inside place locked disabled point amid => exact point
  · cases orderly with
    | enabled id inside quiet locked point | refreshing id place locked point inside
    | refreshed id inside quiet locked point clear => exact point

theorem Orderly.client_step (orderly : Orderly bytes conn now progress slot client tick)
    (program : client = .critical ready effect emitted next) (isReady : ready slot = true) :
    Orderly bytes conn now (progress.observeAll .client (emitted slot)) (effect slot) (next slot) tick ∧
      Promised progress slot (emitted slot) := by
  cases orderly with
  | writing inside active place locked amid =>
    refine ⟨?_, nofun, nofun⟩
    subst program
    rcases amid.next with ⟨result, finished⟩ | within
    · -- the EntryID write looks the engine up: no tick is inside a pass
      obtain ⟨rfl, rfl, rfl, rfl⟩ := Proc.critical.inj finished
      have unlocked : slot.engineLocked = false := by simpa using isReady
      have outside : active = false := by
        cases place with
        | active rest amid => rw [unlocked] at locked; cases locked
        | outside | arriving | entered | leaving => rfl
      refine .looking inside active place locked ?_ ?_
      · intro serving
        rw [outside] at serving
        cases serving
      · have turns := entryIdFound_turns bytes conn now (slot.brcb, (slot.peers conn).map (·.ip))
        exact .enter turns
    · obtain ⟨early, later⟩ := within slot
      rw [observeAll_client early.events]
      exact .writing inside active place (early.engineLocked.trans locked) later
  | looking inside active place locked serves amid =>
    refine ⟨?_, nofun, nofun⟩
    subst program
    rcases amid.next_until with ⟨result, finished⟩ | within
    · have unanchored := enableWrite_unanchored conn now
      rw [← finished] at unanchored
      obtain ⟨quiet, later⟩ := unanchored slot
      rw [observeAll_client quiet]
      exact .skipped later
    · rcases within slot with ⟨plain, later⟩ | ⟨turned, later⟩
      · rw [observeAll_client plain.events]
        refine .looking inside active place (plain.engineLocked.trans locked) ?_ later
        exact fun serving => plain.rptEna.trans (serves serving)
      · have outside : active = false := by
          cases active with
          | false => rfl
          | true =>
            have enabled := serves rfl
            rw [turned.disabled] at enabled
            cases enabled
        rw [turned.events]
        rw [outside] at place
        exact .resynchronized _ inside place (turned.engineLocked.trans locked) turned.rptEna turned.point (.inl later)
  | skipped unanchored =>
    refine ⟨?_, nofun, nofun⟩
    subst program
    obtain ⟨quiet, later⟩ := unanchored slot
    rw [observeAll_client quiet]
    exact .skipped later
  | resynchronized id inside place locked disabled point amid =>
    subst program
    have enabling : Amid (Until Calm Enables (· = refreshWrite now)) (fun _ : Answer => pure ())
          (.critical ready effect emitted next) ∨
        Calm slot (emitted slot) (effect slot) ∧
          Amid (Respects Calm) (fun _ : Answer => enableWrite conn now) (next slot) := by
      rcases amid with second | third
      · rcases second.next with ⟨result, finished⟩ | within
        · rw [finished]
          exact .inl (.enter (enableWrite_turns conn now))
        · exact .inr (within slot)
      · exact .inl third
    rcases enabling with third | ⟨calm, later⟩
    · rcases third.next_until with ⟨result, finished⟩ | within
      · cases finished
      · rcases within slot with ⟨calm, later⟩ | ⟨enables, rest, same, isRefresh⟩
        · rw [observeAll_neutral calm.events]
          exact ⟨.resynchronized id inside place (calm.engineLocked.trans locked) (calm.rptEna.trans disabled)
            (calm.point.trans point) (.inr later), .of_neutral calm.events⟩
        · obtain ⟨holder, events⟩ := enables.events
          rw [events, same, isRefresh]
          refine ⟨.enabled id inside (.idle place) (enables.engineLocked.trans locked)
            (enables.point.trans point), ?_, nofun⟩
          simp [Event.isSegment]
    · rw [observeAll_neutral calm.events]
      exact ⟨.resynchronized id inside place (calm.engineLocked.trans locked) (calm.rptEna.trans disabled)
        (calm.point.trans point) (.inl later), .of_neutral calm.events⟩
  | enabled id inside quiet locked point =>
    rw [refreshWrite_eq] at program
    obtain ⟨rfl, rfl, rfl, rfl⟩ := Proc.critical.inj program
    have unlocked : slot.engineLocked = false := by simpa using isReady
    rw [unlocked] at locked
    subst locked
    cases quiet with
    | idle place => exact ⟨.refreshing id place rfl point (.inl rfl), .of_neutral (by simp)⟩
    | serving within clear serving => cases within
  | refreshing id place locked point inside =>
    rcases inside with rfl | ⟨clear, amid⟩
    · obtain ⟨clear, calm, later⟩ := refreshInside_step program slot
      rw [observeAll_neutral calm.events]
      exact ⟨.refreshing id place (calm.engineLocked.trans locked) (calm.point.trans point) (.inr ⟨clear, later⟩),
        .of_neutral calm.events⟩
    · subst program
      rcases amid.next with ⟨result, finished⟩ | within
      · obtain ⟨rfl, rfl, rfl, rfl⟩ := Proc.critical.inj finished
        exact ⟨.refreshed id false (.idle place) rfl point clear, .of_neutral (by simp)⟩
      obtain ⟨calm, later⟩ := within slot
      rw [observeAll_neutral calm.events]
      exact ⟨.refreshing id place (calm.engineLocked.trans locked) (calm.point.trans point)
        (.inr ⟨calm.idles.waits.clear clear, later⟩), .of_neutral calm.events⟩
  | refreshed id inside quiet locked point clear => cases program
  | served => exact ⟨by rw [observeAll_served]; exact .served, nofun, nofun⟩

theorem TickPlace.step_any {inside active : Bool} (place : TickPlace inside active tick)
    (program : tick = .critical ready effect emitted next) (locked : slot.engineLocked = inside) :
    ∃ insideNow activeNow, TickPlace insideNow activeNow (next slot) ∧ (effect slot).engineLocked = insideNow ∧
      ((active = true → slot.state.rptEna = true) → activeNow = true → (effect slot).state.rptEna = true) := by
  cases active with
  | true =>
    subst program
    obtain ⟨insideNow, activeNow, place, locked, same⟩ := place.step_active locked
    exact ⟨insideNow, activeNow, place, locked, fun serves serving => (same serving).trans (serves rfl)⟩
  | false =>
    have stepped := place.step program locked
    generalize emitted slot = events, effect slot = after, next slot = rest at stepped
    cases stepped with
    | idle insideNow place locked idles => exact ⟨insideNow, false, place, locked, fun _ => nofun⟩
    | copy pass passes enabled locked =>
      exact ⟨true, true, .active passes (.enter (tickServing_stops _ _ _)), locked, fun _ _ => enabled⟩

theorem orderly_of_first {id : EntryId} {rest : BrcbM Unit} {events : List Event} {after : Slot}
    (first : ∃ event, events = [event] ∧ slot.FirstSegmentAfter id event) :
    Orderly bytes conn now ((enabled id).observeAll .tick events) after client rest ∧
      Promised (.enabled id) slot events := by
  obtain ⟨event, rfl, delivered⟩ := first
  refine ⟨?_, nofun, ?_⟩
  · obtain ⟨entry, later, holder, isOverflow, pdu, segments, rfl, -⟩ := delivered
    exact .served
  · intro other same event member segment
    cases same
    rw [mem_singleton.mp member]
    exact delivered

theorem Orderly.tick_step (orderly : Orderly bytes conn now progress slot client tick)
    (program : tick = .critical ready effect emitted next) (isReady : ready slot = true)
    (sendable : ∀ id, progress = .enabled id → slot.Sendable)
    (fresh : ∀ id, progress = .enabled id → AboutToCopy tick → slot.state.rptEna = true → slot.partialReport = none) :
    Orderly bytes conn now (progress.observeAll .tick (emitted slot)) (effect slot) client (next slot) ∧
      Promised progress slot (emitted slot) := by
  cases orderly with
  | writing inside active place locked amid =>
    refine ⟨?_, nofun, nofun⟩
    rw [observeAll_tick]
    obtain ⟨insideNow, activeNow, place, locked, -⟩ := place.step_any program locked
    exact .writing insideNow activeNow place locked amid
  | looking inside active place locked serves amid =>
    refine ⟨?_, nofun, nofun⟩
    rw [observeAll_tick]
    obtain ⟨insideNow, activeNow, place, locked, stillServes⟩ := place.step_any program locked
    exact .looking insideNow activeNow place locked (stillServes serves) amid
  | skipped unanchored =>
    refine ⟨?_, nofun, nofun⟩
    rw [observeAll_tick]
    exact .skipped unanchored
  | resynchronized id inside place locked disabled point amid =>
    have stepped := place.step program locked
    generalize emitted slot = events, effect slot = after, next slot = rest at stepped
    cases stepped with
    | idle insideNow place locked idles =>
      rw [observeAll_neutral idles.events]
      exact ⟨.resynchronized id insideNow place locked (idles.rptEna.trans disabled) (idles.point.trans point) amid,
        .of_neutral idles.events⟩
    | copy pass passes enabled locked =>
      rw [disabled] at enabled
      cases enabled
  | enabled id inside quiet locked point =>
    rcases quiet.step program locked point (sendable id rfl) (fresh id rfl) with first | waiting
    · exact orderly_of_first first
    · obtain ⟨insideNow, quiet, locked, waits⟩ := waiting
      rw [observeAll_neutral waits.events]
      exact ⟨.enabled id insideNow quiet locked (waits.point.trans point), .of_neutral waits.events⟩
  | refreshing id place locked point inside =>
    obtain ⟨place, locked, idles⟩ := place.step_waiting program isReady locked
    rw [observeAll_neutral idles.events]
    refine ⟨.refreshing id place locked (idles.point.trans point) ?_, .of_neutral idles.events⟩
    exact inside.imp_right fun ⟨clear, amid⟩ => ⟨idles.waits.clear clear, amid⟩
  | refreshed id inside quiet locked point clear =>
    rcases quiet.step program locked point (sendable id rfl) (fresh id rfl) with first | waiting
    · exact orderly_of_first first
    obtain ⟨insideNow, quiet, locked, waits⟩ := waiting
    rw [observeAll_neutral waits.events]
    exact ⟨.refreshed id insideNow quiet locked (waits.point.trans point) (waits.clear clear),
      .of_neutral waits.events⟩
  | served => exact ⟨by rw [observeAll_served]; exact .served, nofun, nofun⟩

/-- While the transmission has not begun, buffered entries can be sent, and no tick copies RptEna =
true with a rest of an earlier report still kept. -/
def NotOvertaken (config : Resynchronizing) (party : Party) : Prop :=
  ∀ id, progressOf config.history = .enabled id →
    config.state.Sendable ∧
      (party = .tick → AboutToCopy (config.threads .tick) → config.state.state.rptEna = true →
        config.state.partialReport = none)

abbrev OrderlyConfig (bytes : List UInt8) (conn : ConnectionId) (now : Instant) (config : Resynchronizing) : Prop :=
  Orderly bytes conn now (progressOf config.history) config.state (config.threads .client)
    (config.threads .tick)

theorem OrderlyConfig.step {config after : Resynchronizing} {party : Party}
    (orderly : OrderlyConfig bytes conn now config) (permitted : NotOvertaken config party)
    (advanced : config.advance party = some after) :
    OrderlyConfig bytes conn now after ∧ ∃ events : List Event,
      after.history = config.history ++ events.map (Prod.mk party) ∧
      Promised (progressOf config.history) config.state events := by
  obtain ⟨ready, effect, emitted, rest, program, isReady, state, threads, history⟩ := Config.advance_eq advanced
  have stepped : Orderly bytes conn now ((progressOf config.history).observeAll party (emitted config.state))
        (effect config.state) (after.threads .client) (after.threads .tick) ∧
      Promised (progressOf config.history) config.state (emitted config.state) := by
    cases party with
    | client =>
      simp only [threads, Function.update_self, ne_eq, reduceCtorEq, not_false_eq_true, Function.update_of_ne]
      exact Orderly.client_step orderly program isReady
    | tick =>
      simp only [threads, Function.update_self, ne_eq, reduceCtorEq, not_false_eq_true, Function.update_of_ne]
      exact Orderly.tick_step orderly program isReady (fun id enabled => (permitted id enabled).1)
        fun id enabled => (permitted id enabled).2 rfl
  refine ⟨?_, emitted config.state, history, stepped.2⟩
  unfold OrderlyConfig
  rw [history, progressOf_append, state]
  exact stepped.1

theorem start_orderly {slot : Slot} (unlocked : slot.engineLocked = false) (bytes : List UInt8)
    (conn : ConnectionId) (now : Instant) (passes : List Pass) :
    OrderlyConfig bytes conn now (Resynchronizing.start slot bytes conn now passes) :=
  .writing false false (.outside passes) unlocked (.enter (disableWrite_early conn now))

theorem orderly_of_reaches {slot : Slot} {passes : List Pass} {config : Resynchronizing}
    (unlocked : slot.engineLocked = false)
    (reached : Config.Reaches NotOvertaken (Resynchronizing.start slot bytes conn now passes) config) :
    OrderlyConfig bytes conn now config :=
  reached.invariant _ (start_orderly unlocked bytes conn now passes)
    fun _ _ _ orderly permitted advanced => (OrderlyConfig.step orderly permitted advanced).1

/-- An accepted EntryID write decides where the next transmission starts: until the first segment of
the next enabled period no pass moves the anchor, nothing is handed over before the block is
enabled, and the first segment is that of the first entry after the one written. -/
theorem entryId_write_decides_transmission_start {slot : Slot} (unlocked : slot.engineLocked = false)
    (bytes : List UInt8) (conn : ConnectionId) (now : Instant) (passes : List Pass) {config : Resynchronizing}
    (reached : Config.Reaches NotOvertaken (Resynchronizing.start slot bytes conn now passes) config) :
    (∀ id, progressOf config.history = .resynchronized id ∨ progressOf config.history = .enabled id →
        config.state.state.rewindPoint = pointOf id) ∧
      ∀ party after, NotOvertaken config party → config.advance party = some after →
        ∃ events : List Event, after.history = config.history ++ events.map (Prod.mk party) ∧
          (∀ id, progressOf config.history = .resynchronized id → ∀ event ∈ events, event.isSegment = false) ∧
          ∀ id, progressOf config.history = .enabled id → ∀ event ∈ events, event.isSegment = true →
            config.state.FirstSegmentAfter id event := by
  have orderly := orderly_of_reaches unlocked reached
  refine ⟨fun id waiting => Orderly.point orderly waiting, ?_⟩
  intro party after permitted advanced
  obtain ⟨-, events, history, promised⟩ := OrderlyConfig.step orderly permitted advanced
  exact ⟨events, history, promised.silent, promised.first⟩

theorem Slot.sendable_of_all {slot : Slot} (alike : ∀ conn, slot.peers conn = slot.peers 0)
    (all : slot.reportBuffer.entries.all (fun entry =>
      !entry.entryId.isZero && (slot.report 0 false entry).isOk && (slot.report 0 true entry).isOk) = true) :
    slot.Sendable := by
  have each := all_eq_true.mp all
  refine ⟨fun entry member conn isOverflow => ?_, fun entry member => ?_⟩
  · have holds := each entry member
    simp only [Bool.and_eq_true] at holds
    have same : slot.report conn isOverflow entry = slot.report 0 isOverflow entry := by
      unfold Slot.report Slot.context FlushContext.encode
      rw [alike conn]
    have isOk : (slot.report 0 isOverflow entry).isOk = true := by
      cases isOverflow with
      | false => exact holds.1.2
      | true => exact holds.2
    rw [same]
    cases encoded : slot.report 0 isOverflow entry with
    | ok pdus => exact ⟨pdus, rfl⟩
    | error reason => rw [encoded] at isOk; cases isOk
  · have holds := each entry member
    simp only [Bool.and_eq_true, Bool.not_eq_true'] at holds
    exact holds.1.1

def Progress.isEnabled : Progress → Bool
  | .enabled _ => true
  | _ => false

/-- A client resynchronises on the first of two entries while the engine is about to tick. -/
def resynchronizingClient : Resynchronizing :=
  Resynchronizing.start
    (runSteps [.enqueue 5 false false [], .enqueue 7 false false [], .write .rptEna (.bool true) 1 0] bareBlock)
    [0, 0, 0, 0, 0, 0, 0, 5] 1 0
    [{ channel := { registered := true, receiverAlive := true, free := 3, upcoming := [] }, now := 0, nowMs := 0 }]

def enabledAgain : Resynchronizing :=
  (resynchronizingClient.schedule (replicate 11 .client)).get (by decide +kernel)

theorem transmission_start_of_resynchronizingClient :
    progressOf enabledAgain.history = .enabled (.fromBytes [0, 0, 0, 0, 0, 0, 0, 5]) ∧
      enabledAgain.state.state.rewindPoint = pointOf (.fromBytes [0, 0, 0, 0, 0, 0, 0, 5]) ∧
      ∀ after, enabledAgain.advance .tick = some after →
        ∃ events : List Event, after.history = enabledAgain.history ++ events.map (Prod.mk .tick) ∧
          ∀ event ∈ events, event.isSegment = true →
            enabledAgain.state.FirstSegmentAfter (.fromBytes [0, 0, 0, 0, 0, 0, 0, 5]) event := by
  have ran : resynchronizingClient.schedule (replicate 11 .client) = some enabledAgain := (Option.some_get _).symm
  have progress : progressOf enabledAgain.history = .enabled (.fromBytes [0, 0, 0, 0, 0, 0, 0, 5]) := by decide +kernel
  have reached : Config.Reaches NotOvertaken resynchronizingClient enabledAgain := by
    refine Config.reaches_of_schedule ran fun earlier thread later config split before id enabled => ?_
    obtain ⟨length, sections, -⟩ := append_eq_replicate_iff.mp split.symm
    rw [length_cons] at length
    have notYet : ∀ count < 11, (resynchronizingClient.schedule (replicate count .client)).all
        (fun config => !(progressOf config.history).isEnabled) = true := by decide +kernel
    have waiting := notYet earlier.length (by omega)
    rw [← sections, before, Option.all_some, enabled] at waiting
    cases waiting
  have sendable : enabledAgain.state.Sendable := Slot.sendable_of_all (fun _ => rfl) (by decide +kernel)
  have clear : enabledAgain.state.partialReport = none := by
    have isNone : enabledAgain.state.partialReport.isNone = true := by decide +kernel
    exact Option.isNone_iff_eq_none.mp isNone
  obtain ⟨point, delivers⟩ := entryId_write_decides_transmission_start rfl _ _ _ _ reached
  refine ⟨progress, point _ (.inr progress), fun after advanced => ?_⟩
  obtain ⟨events, history, -, first⟩ :=
    delivers .tick after (fun id _ => ⟨sendable, fun _ _ _ => clear⟩) advanced
  exact ⟨events, history, first _ progress⟩

def wideBlock : Slot :=
  let brcb := { bareBlock.brcb with rptId := "LD0/LLN0$BR$brcb01_long_name" }
  { bareBlock with
    brcb
    state := { BrcbState.fromBrcb brcb with datSet := qualifiedDatSet "LD0/LLN0$BR$brcb01" "events" }
    dataset := some
      { name := "LLN0$events"
        entries := (range 33).map fun cell => { attrRef := "a", node := .leaf { attrRef := "a", cell } } }
    peers := fun _ => some { ip := .v4 ⟨#[1, 1, 1, 1], rfl⟩, maxPduSizeBytes := 64 } }

/-- All but the last segment of entry 5 have been sent; the client resynchronises on entry 7. -/
def overtakenClient : Resynchronizing :=
  Resynchronizing.start
    (runSteps
      [.enqueue 5 false false [], .enqueue 7 false false [], .write .rptEna (.bool true) 1 0,
        .flush { registered := true, receiverAlive := true, free := 32, upcoming := [] } 0] wideBlock)
    [0, 0, 0, 0, 0, 0, 0, 7] 1 0
    [{ channel := { registered := true, receiverAlive := true, free := 3, upcoming := [] }, now := 0, nowMs := 0 }]

/-- The tick has overtaken the client, which has enabled the block but not yet dropped the rest of
entry 5. -/
def overtaken : Resynchronizing :=
  (overtakenClient.schedule (replicate 11 .client ++ replicate 5 .tick)).get (by decide +kernel)

/-- The first segment after the EntryID write is the rest of an earlier entry, and with it the
anchor moves back to that entry. -/
theorem overtaking_tick_sends_rest_of_earlier_entry :
    ∃ after last pdu, Config.Reaches (fun _ _ => True) overtakenClient overtaken ∧
      progressOf overtaken.history = .enabled (.fromBytes [0, 0, 0, 0, 0, 0, 0, 7]) ∧
      overtaken.state.state.rewindPoint = some (.fromBytes [0, 0, 0, 0, 0, 0, 0, 7]) ∧
      overtaken.advance .tick = some after ∧ after.history = overtaken.history ++ [(.tick, .continued pdu)] ∧
      ¬ overtaken.state.FirstSegmentAfter (.fromBytes [0, 0, 0, 0, 0, 0, 0, 7]) (.continued pdu) ∧
      after.advance .tick = some last ∧
      last.state.state.rewindPoint = some (.fromBytes [0, 0, 0, 0, 0, 0, 0, 5]) := by
  have ran : overtakenClient.schedule (replicate 11 .client ++ replicate 5 .tick) = some overtaken :=
    (Option.some_get _).symm
  have sent : ((overtaken.advance .tick).bind fun after => (after.advance .tick).map fun last =>
    ((after.history.drop overtaken.history.length).map fun event => (event.1, event.2.isSegment, event.2.isStarted),
      last.state.state.rewindPoint)) =
    some ([(.tick, true, false)], some (.fromBytes [0, 0, 0, 0, 0, 0, 0, 5])) := by decide +kernel
  obtain ⟨after, advanced, second⟩ := Option.bind_eq_some_iff.mp sent
  obtain ⟨last, advancedAgain, seen⟩ := Option.map_eq_some_iff.mp second
  obtain ⟨ready, effect, emitted, rest, -, -, -, -, history⟩ := Config.advance_eq advanced
  rw [history, drop_left, map_map] at seen
  obtain ⟨kinds, point⟩ := Prod.mk.inj seen
  obtain ⟨event, emits, kind⟩ := map_eq_singleton_iff.mp kinds
  cases event with
  | continued pdu =>
    rw [emits] at history
    refine ⟨after, last, pdu, ?_, by decide +kernel, by decide +kernel, advanced, history, ?_, advancedAgain, point⟩
    · exact Config.reaches_of_schedule ran fun _ _ _ _ _ _ => trivial
    · rintro ⟨entry, later, conn, isOverflow, pdu, rest, other, -⟩
      cases other
  | started | claimed | resynchronized | enabled | disabled | enqueued | evicted | rejected | completed
  | bufferEmptied | configChanged => cases kind

end Iec61850.Reporting
