import Iec61850.Concurrency.Machine
import Iec61850.Goose.Subscriber

/-!
A publisher and one subscriber that hears all of its frames: which event each frame raises, that
nothing expires while the publisher keeps its schedule, and when the last frame expires.
-/

namespace Iec61850.Goose

open Concurrency List Model Wire Wire.Fallible GoosePublisher Duration GooseReceiver GooseSubscriber

theorem following_advances (number : UInt32) :
    isWrapToOne number (following number) = true ∨ number < following number := by
  have bound := number.toNat_lt
  have next : (number + 1).toNat = (number.toNat + 1) % 2 ^ 32 := UInt32.toNat_add number 1
  unfold following
  split
  · rename_i wrapped
    have largest : number = 0xffffffff := by
      apply UInt32.toNat_inj.mp
      rw [wrapped] at next
      change 0 = _ at next
      change number.toNat = 4294967295
      omega
    rw [largest]
    exact .inl rfl
  · rename_i regular
    rw [UInt32.lt_iff_toNat_lt, next]
    have notZero : (number + 1).toNat ≠ 0 := fun zero => regular (UInt32.toNat_inj.mp zero)
    omega

section

variable {last state : GooseSubscriberState}

section

variable (valid : state.stateValid = true)

include valid

theorem with_stateValid : { state with stateValid := true } = state := by
  cases state
  cases valid
  rfl

theorem judge_first : judge none state = (state, .newState 0 state (.ok ()), false) := by
  simp [judge, valid, with_stateValid]

theorem judge_in_sequence (confRev : state.confRev = last.confRev)
    (stNum : (decide (state.stNum < last.stNum) && !isWrapToOne last.stNum state.stNum) = false)
    (sqNum : (state.stNum == last.stNum && (decide (state.sqNum ≤ last.sqNum) && !isWrapToOne last.sqNum state.sqNum)) =
      false) : judge (some last) state = (state,
      if isWrapToOne last.stNum state.stNum || decide (last.stNum < state.stNum) || last.stNum == 0 then
        .newState last.stNum state (.ok ())
      else
        .retransmission state (.ok ()), false) := by
  have sameRev : (state.confRev != last.confRev) = false := by simp [confRev]
  unfold judge
  simp only [Option.map_some, Option.getD_some, Option.isSome_some, Bool.true_and, stNum,
    Bool.not_false, Bool.and_assoc, sqNum, sameRev, Bool.and_false, valid, Bool.and_true, Bool.false_or, with_stateValid valid,
    Bool.false_eq_true, if_false]

theorem judge_retransmission (started : last.stNum ≠ 0) (stNum : state.stNum = last.stNum)
    (sqNum : state.sqNum = following last.sqNum) (confRev : state.confRev = last.confRev) :
    judge (some last) state = (state, .retransmission state (.ok ()), false) := by
  have advanced : (decide (state.sqNum ≤ last.sqNum) && !isWrapToOne last.sqNum state.sqNum) = false := by
    rw [sqNum]
    cases following_advances last.sqNum with
    | inl wrapped => simp [wrapped]
    | inr larger => simp [UInt32.not_le.mpr larger]
  have sameState : isWrapToOne last.stNum last.stNum = false := by
    unfold isWrapToOne
    by_cases largest : last.stNum = 0xffffffff
    · rw [largest]
      rfl
    · simp [largest]
  rw [judge_in_sequence valid confRev (by simp [stNum]) (by simp [advanced])]
  simp [stNum, sameState, started]

theorem judge_change (stNum : state.stNum = following last.stNum)
    (confRev : state.confRev = last.confRev) :
    judge (some last) state = (state, .newState last.stNum state (.ok ()), false) := by
  have advances := following_advances last.stNum
  rw [← stNum] at advances
  cases advances with
  | inl wrapped =>
    have other : (state.stNum == last.stNum) = false := by
      simp only [isWrapToOne, Bool.and_eq_true, beq_iff_eq] at wrapped
      rw [wrapped.1, wrapped.2]
      rfl
    rw [judge_in_sequence valid confRev (by simp [wrapped]) (by simp [other])]
    simp [wrapped]
  | inr larger =>
    have other : (state.stNum == last.stNum) = false := by simpa using (UInt32.ne_of_lt larger).symm
    rw [judge_in_sequence valid confRev (by simp [UInt32.not_lt.mpr (UInt32.le_of_lt larger)]) (by simp [other])]
    simp [larger]

end

end

def GooseSubscriberState.Late (state : GooseSubscriberState) (now : Instant) : Prop :=
  state.timeAllowedToLiveMs.toNat < asMillis (now - state.receivedAt)

instance (state : GooseSubscriberState) (now : Instant) : Decidable (state.Late now) :=
  inferInstanceAs (Decidable (_ < _))

theorem lt_elapsedMs_iff (state : GooseSubscriberState) (now : Instant) :
    state.timeAllowedToLiveMs.toNat < elapsedMs state now ↔ state.Late now := by
  have bound := state.timeAllowedToLiveMs.toNat_lt
  unfold elapsedMs GooseSubscriberState.Late
  omega

def tracking (builder : GooseSubscriberBuilder) (state : GooseSubscriberState) (fired : Bool) (clock : UInt64) :
    GooseSubscriber :=
  { builder.build with lastState := some state, streams := [⟨state, fired, clock⟩], clock }

section

variable {builder : GooseSubscriberBuilder} {last state : GooseSubscriberState} {fired : Bool} {clock : UInt64}

theorem updateAndDispatch_build (listening : builder.listener = true) (valid : state.stateValid = true) :
    builder.build.updateAndDispatch state = (tracking builder state false 1, [.newState 0 state (.ok ())]) := by
  have room : ¬ builder.build.maxStreams ≤ builder.build.streams.length := by
    simp [GooseSubscriberBuilder.build]
  have untracked : builder.build.streams = [] := rfl
  unfold updateAndDispatch
  rw [untracked] at room
  rw [untracked, findIdx?_nil]
  dsimp only [Option.bind_none, Option.map_none]
  rw [judge_first valid]
  rw [if_neg room, if_pos (show builder.build.listener = true from listening)]
  rfl

theorem updateAndDispatch_tracking (listening : builder.listener = true) (gocbRef : last.gocbRef = state.gocbRef)
    (simulated : last.isSimulated = state.isSimulated) {event : GooseEvent}
    (judged : judge (some last) state = (state, event, false)) :
    (tracking builder last fired clock).updateAndDispatch state =
      (tracking builder state false (clock + 1), [event]) := by
  unfold updateAndDispatch
  have found : (tracking builder last fired clock).streams.findIdx? (fun track =>
    track.last.gocbRef == state.gocbRef && track.last.isSimulated == state.isSimulated) = some 0 := by
    simp [tracking, gocbRef, simulated]
  rw [found]
  dsimp only [Option.bind_some, tracking, getElem?_cons_zero, Option.map_some]
  rw [judged]
  have on : builder.build.listener = true := listening
  simp only [on, if_true]
  rfl

theorem checkExpiredAt_tracking (listening : builder.listener = true) (now : Instant) :
    (tracking builder state fired clock).checkExpiredAt now =
      if fired = false ∧ state.Late now then (tracking builder state true clock, [.expired state])
      else (tracking builder state fired clock, []) := by
  have on : builder.build.listener = true := listening
  unfold checkExpiredAt tracking
  have decides : expires now ⟨state, fired, clock⟩ = decide (fired = false ∧ state.Late now) := by
    unfold expires
    simp only [lt_elapsedMs_iff]
    cases fired <;> simp
  simp only [map_cons, map_nil, filter_cons, filter_nil, decides, decide_eq_true_eq]
  split <;> rfl

end

namespace GooseReceiver

def serving (sub : GooseSubscriber) : GooseReceiver := new.addSubscriber sub

theorem serving_with (sub : GooseSubscriber) {other : GooseSubscriber} (same : other.appId = sub.appId) :
    ({ serving sub with subscribers := [some other] } : GooseReceiver) = serving other := by
  unfold serving addSubscriber
  rw [same]
  cases sub.appId <;> rfl

theorem checkAllExpired_serving (sub : GooseSubscriber) (now : Instant) :
    (serving sub).checkAllExpired now = (serving (sub.checkExpiredAt now).1, (sub.checkExpiredAt now).2) := by
  have filter : (sub.checkExpiredAt now).1.appId = sub.appId := rfl
  unfold serving addSubscriber
  rw [filter]
  cases sub.appId <;> simp [checkAllExpired, new]

theorem candidates_serving {sub : GooseSubscriber} {appId : UInt16} {dstMac : MacAddress}
    (passes : sub.matchesFrame appId dstMac = true) : (serving sub).candidates appId = [0] := by
  unfold matchesFrame at passes
  rw [Bool.and_eq_true] at passes
  unfold serving addSubscriber candidates
  cases filter : sub.appId with
  | none => rfl
  | some id =>
    rw [filter] at passes
    have same : id = appId := by simpa using passes.1
    simp [new, same]

theorem handleMessageAt_serving {sub : GooseSubscriber} {buf pduBytes : List UInt8} {hdr : GooseFrameHeader}
    {pdu : GoosePdu} {now : Instant} (framed : GooseFrame.decode buf = .ok ⟨hdr, pduBytes⟩)
    (parsed : GoosePdu.decodeBer pduBytes = .ok pdu) (frame : sub.matchesFrame hdr.appId hdr.dstMac = true)
    (reference : sub.matchesGocbRef pdu.gocbRef = true)
    (simulation : sub.simulation.accepts (snapshot hdr pdu now).isSimulated = true) :
    (serving sub).handleMessageAt buf now =
      let (heard, events) := sub.updateAndDispatch (snapshot hdr pdu now)
      let (swept, expired) := heard.checkExpiredAt now
      .ok (serving swept, events ++ expired) := by
  have only := candidates_serving frame
  have found : (serving sub).subscribers = [some sub] := by
    unfold serving addSubscriber
    cases sub.appId <;> rfl
  have passes : (sub.matchesFrame hdr.appId (snapshot hdr pdu now).dstMac
      && sub.matchesGocbRef (snapshot hdr pdu now).gocbRef
      && sub.simulation.accepts (snapshot hdr pdu now).isSimulated) = true := by
    rw [simulation, Bool.and_true, Bool.and_eq_true]
    exact ⟨frame, reference⟩
  unfold handleMessageAt doHandleMessage
  rw [framed, ok_bind]
  dsimp only
  rw [only, found]
  simp only [any_cons, any_nil, getElem?_cons_zero, frame, Bool.or_false, Bool.not_true, Bool.false_eq_true,
    if_false, parsed, ok_bind, foldl_cons, foldl_nil, dispatch]
  simp only [passes, if_true]
  have kept := serving_with sub (show (sub.updateAndDispatch (snapshot hdr pdu now)).1.appId = sub.appId from rfl)
  dsimp only [pure, Except.pure, set_cons_zero, nil_append]
  rw [kept, checkAllExpired_serving]

end GooseReceiver

theorem RetransPhase.interval_le {min max limit : Duration} (shortest : min ≤ limit) (longest : max ≤ limit)
    (unit : fromMillis 1 ≤ limit) (phase : RetransPhase) :
    phase.interval (RetransIntervals.fromMinMax min max) ≤ limit := by
  have first : Max.max min (fromMillis 1) ≤ limit := Nat.max_le.mpr ⟨shortest, unit⟩
  have steady : Max.max max (Max.max min (fromMillis 1)) ≤ limit := Nat.max_le.mpr ⟨longest, first⟩
  have backoff (factor : Nat) : Min.min (saturatingMul (Max.max min (fromMillis 1)) factor)
      (Max.max max (Max.max min (fromMillis 1))) ≤ limit := Nat.le_trans (Nat.min_le_right _ _) steady
  cases phase with
  | t1 => exact first
  | t2 | t3 | t4 => exact backoff _
  | stable => exact steady

def longestTime : Duration := fromMillis (2 ^ 32 - 1)

namespace GoosePublisher

/-- The intervals come from `fromMinMax` with times up to 2^32 - 1 ms, and timeAllowedToLive is
derived from them. -/
structure Scheduled (publisher : GoosePublisher) : Prop where
  intervals : ∃ min ≤ longestTime, ∃ max ≤ longestTime, publisher.retransIntervals = RetransIntervals.fromMinMax min max
  derived : publisher.timeAllowedToLiveOverride = none

theorem Scheduled.interval_le {publisher : GoosePublisher} (scheduled : Scheduled publisher) :
    asMillis publisher.nextInterval ≤ publisher.timeAllowedToLiveMs.toNat := by
  obtain ⟨min, shortest, max, longest, intervals⟩ := scheduled.intervals
  have bounded : publisher.nextInterval ≤ longestTime := by
    unfold nextInterval
    rw [intervals]
    exact RetransPhase.interval_le shortest longest (by decide) _
  have small : asMillis publisher.nextInterval < 2 ^ 32 := by
    exact Nat.div_lt_of_lt_mul (Nat.lt_of_le_of_lt bounded (by decide))
  unfold timeAllowedToLiveMs
  rw [scheduled.derived]
  dsimp only
  split
  · rename_i fits
    rw [UInt32.toNat_ofNat_of_lt' fits]
    omega
  · change _ ≤ 4294967295
    omega

theorem Scheduled.increaseStNum {publisher : GoosePublisher} (scheduled : Scheduled publisher) (reading : UtcTime) :
    Scheduled (publisher.increaseStNum reading) := by
  unfold GoosePublisher.increaseStNum stampStateChange
  split <;> exact ⟨scheduled.intervals, scheduled.derived⟩

end GoosePublisher

/-- A publication and the sweeps before it. With a state change comes what the timestamp source
reads then; without one the frame is a retransmission, or the first frame of the first state. -/
structure Round where
  sweeps : List Instant
  change : Option UtcTime
  data : List MmsValue
  now : Instant

structure Outcome where
  round : Round
  live : UInt32
  swept : List (List GooseEvent)
  raised : List GooseEvent

structure Watch where
  publisher : GoosePublisher
  receiver : GooseReceiver
  log : List Outcome

def sweepAll (receiver : GooseReceiver) : List Instant → GooseReceiver × List (List GooseEvent)
  | [] => (receiver, [])
  | now :: rest =>
    let (swept, events) := receiver.checkAllExpired now
    let (last, later) := sweepAll swept rest
    (last, events :: later)

def Round.changed (round : Round) (publisher : GoosePublisher) : GoosePublisher :=
  match round.change with
  | some reading => publisher.increaseStNum reading
  | none => publisher

/-- The receiver gets the frame when it is sent. -/
def Watch.step (watch : Watch) (round : Round) : Option Watch := do
  let (receiver, swept) := sweepAll watch.receiver round.sweeps
  let (frame, publisher) ← ((round.changed watch.publisher).publishAt round.data round.now).toOption
  let (receiver, raised) ← (receiver.handleMessageAt frame round.now).toOption
  return ⟨publisher, receiver,
    watch.log ++ [⟨round, (round.changed watch.publisher).timeAllowedToLiveMs, swept, raised⟩]⟩

/-- The filters of the subscriber let the frames of the publisher through. -/
structure GooseSubscriberBuilder.Hears (builder : GooseSubscriberBuilder) (comm : CommParameters)
    (publisher : GoosePublisher) : Prop where
  frame : builder.build.matchesFrame comm.appId comm.dstMac = true
  reference : builder.build.matchesGocbRef publisher.gocbRef = true
  simulation : builder.build.simulation.accepts publisher.simulation = true

/-- The round is sent by the time the frame before it announced, the sweeps before it take place
before it, and what it publishes can be read back: well-formed values without an empty bit string,
and references that are not too long. -/
def Timely (watch : Watch) (round : Round) : Prop :=
  round.now ≤ watch.publisher.dueAt round.now ∧ (∀ sweep ∈ round.sweeps, sweep ≤ round.now) ∧
    wellFormedAll round.data = true ∧ (watch.publisher.pdu round.data).Readable

instance (watch : Watch) (round : Round) : Decidable (Timely watch round) :=
  inferInstanceAs (Decidable (_ ∧ _ ∧ _ ∧ _))

structure GooseSubscriberState.Reports (state : GooseSubscriberState) (publisher : GoosePublisher)
    (data : List MmsValue) (now : Instant) : Prop where
  valid : state.stateValid = true
  gocbRef : state.gocbRef = publisher.gocbRef
  simulated : state.isSimulated = publisher.simulation
  stNum : state.stNum = publisher.stNum
  sqNum : state.sqNum = publisher.sqNum
  confRev : state.confRev = publisher.confRev
  live : state.timeAllowedToLiveMs = publisher.timeAllowedToLiveMs
  arrival : state.receivedAt = now
  values : state.datasetValues = data

theorem not_late_on_arrival (state : GooseSubscriberState) : ¬ state.Late state.receivedAt := by
  unfold GooseSubscriberState.Late asMillis
  omega

section

variable {builder : GooseSubscriberBuilder} {comm : CommParameters} {publisher next : GoosePublisher}
  {data : List MmsValue} {now : Instant} {frame : List UInt8}

theorem handleMessageAt_published (listening : builder.listener = true) (prepared : publisher.Prepared comm)
    (hears : builder.Hears comm publisher) (formed : wellFormedAll data = true)
    (readable : (publisher.pdu data).Readable)
    (published : publisher.publishAt data now = .ok (frame, next)) :
    ∃ state : GooseSubscriberState, state.Reports publisher data now ∧
      ∀ {sub : GooseSubscriber} {event : GooseEvent} {clock : UInt64},
        sub.appId = builder.build.appId → sub.dstMac = builder.build.dstMac → sub.gocbRef = builder.build.gocbRef →
        sub.simulation = builder.build.simulation →
        sub.updateAndDispatch state = (tracking builder state false clock, [event]) →
        (serving sub).handleMessageAt frame now =
          .ok (serving (tracking builder state false clock), [event]) := by
  obtain ⟨pduBytes, sent, size, read⟩ := prepared.decodeBer_iff formed published
  have parsed := read.mpr readable
  obtain ⟨hdr, framed, flag, appIdSent, dstMacSent⟩ : ∃ hdr : GooseFrameHeader,
      GooseFrame.decode frame = .ok ⟨hdr, pduBytes⟩ ∧ hdr.simulation = publisher.simulation ∧
        hdr.appId = comm.appId ∧ hdr.dstMac = comm.dstMac := by
    rw [sent]
    refine ⟨_, GooseFrame.decode_encode _ ?_, rfl, rfl, rfl⟩
    simp only [gooseHeaderSize, gooseMaxFrameSize] at size ⊢
    omega
  have simulated : (snapshot hdr (publisher.pdu data) now).isSimulated = publisher.simulation := by
    change (publisher.simulation || hdr.simulation) = _
    rw [flag, Bool.or_self]
  refine ⟨snapshot hdr (publisher.pdu data) now,
    ⟨rfl, rfl, simulated, rfl, rfl, rfl, rfl, rfl, rfl⟩, ?_⟩
  intro sub event clock appId dstMac gocbRef filter updates
  have passes := hears.frame
  have reference := hears.reference
  have heard := @GooseReceiver.handleMessageAt_serving sub frame pduBytes hdr (publisher.pdu data) now
    framed parsed (by unfold matchesFrame at passes ⊢; rwa [appId, dstMac, appIdSent, dstMacSent])
    (by unfold matchesGocbRef at reference ⊢; rwa [gocbRef])
    (by rw [filter, simulated]; exact hears.simulation)
  rw [heard, updates]
  dsimp only
  rw [checkExpiredAt_tracking listening, if_neg]
  · rfl
  · rintro ⟨_, late⟩
    exact not_late_on_arrival _ late

end

theorem GoosePublisher.increaseStNum_fields (publisher : GoosePublisher) (reading : UtcTime) :
    let next := publisher.increaseStNum reading
    next.gocbRef = publisher.gocbRef ∧ next.simulation = publisher.simulation ∧ next.confRev = publisher.confRev ∧
      next.stNum = following publisher.stNum := by
  unfold increaseStNum stampStateChange
  split <;> exact ⟨rfl, rfl, rfl, rfl⟩

/-- What a state change leaves of the publisher: its references and its flags. -/
theorem Round.changed_same (round : Round) (publisher : GoosePublisher) :
    (round.changed publisher).gocbRef = publisher.gocbRef ∧
      (round.changed publisher).simulation = publisher.simulation ∧
      ∀ data, ((round.changed publisher).pdu data).Readable = (publisher.pdu data).Readable := by
  unfold Round.changed
  split
  · unfold increaseStNum stampStateChange
    split <;> exact ⟨rfl, rfl, fun _ => rfl⟩
  · exact ⟨rfl, rfl, fun _ => rfl⟩

/-- The publisher goes on where `last` stopped, and the next frame is due before `last` has lived
its time. -/
structure GoosePublisher.Continues (publisher : GoosePublisher) (last : GooseSubscriberState) : Prop where
  gocbRef : last.gocbRef = publisher.gocbRef
  simulated : last.isSimulated = publisher.simulation
  stNum : last.stNum = publisher.stNum
  sqNum : publisher.sqNum = following last.sqNum
  confRev : last.confRev = publisher.confRev
  due : ∃ interval, publisher.nextPublishAt = some (last.receivedAt + interval) ∧
    asMillis interval ≤ last.timeAllowedToLiveMs.toNat

theorem GoosePublisher.Continues.not_late {publisher : GoosePublisher} {last : GooseSubscriberState}
    (continues : publisher.Continues last) {now sweep : Instant} (due : now ≤ publisher.dueAt now)
    (before : sweep ≤ now) :
    ¬ last.Late sweep := by
  obtain ⟨interval, next, short⟩ := continues.due
  unfold dueAt at due
  rw [next, Option.getD_some] at due
  have elapsed : asMillis (sweep - last.receivedAt) ≤ asMillis interval :=
    Nat.div_le_div_right (Nat.sub_le_iff_le_add'.mpr (Nat.le_trans before due))
  unfold GooseSubscriberState.Late
  omega

theorem sweepAll_still {sub : GooseSubscriber} {sweeps : List Instant}
    (still : ∀ now ∈ sweeps, sub.checkExpiredAt now = (sub, [])) :
    sweepAll (serving sub) sweeps = (serving sub, sweeps.map fun _ => []) := by
  induction sweeps with
  | nil => rfl
  | cons now rest ih =>
    rw [sweepAll, checkAllExpired_serving, still now mem_cons_self]
    dsimp only
    rw [ih fun later listed => still later (mem_cons_of_mem _ listed)]
    rfl

/-- No sweep of the round raised anything, and its frame raised NewState or Retransmission with a
valid state. -/
def Outcome.Regular (outcome : Outcome) (first : Bool) (state : GooseSubscriberState) : Prop :=
  (∀ events ∈ outcome.swept, events = []) ∧ state.stateValid = true ∧ state.receivedAt = outcome.round.now ∧
    state.datasetValues = outcome.round.data ∧ state.timeAllowedToLiveMs = outcome.live ∧
    if first then ∃ prevStNum, outcome.raised = [.newState prevStNum state (.ok ())]
    else outcome.raised = [.retransmission state (.ok ())]

/-- The state of a run: either nothing was sent yet, or the subscriber tracks the last state
sent. -/
structure Watch.Followed (builder : GooseSubscriberBuilder) (comm : CommParameters) (watch : Watch) : Prop where
  prepared : watch.publisher.Prepared comm
  scheduled : watch.publisher.Scheduled
  hears : builder.Hears comm watch.publisher
  subscribed : watch.log = [] ∧ watch.receiver = serving builder.build ∨
    ∃ last clock outcome, watch.receiver = serving (tracking builder last false clock) ∧
      watch.publisher.Continues last ∧ watch.log.getLast? = some outcome ∧
      outcome.Regular (watch.log.length == 1 || outcome.round.change.isSome) last
  regular : ∀ (index : Nat) (outcome : Outcome), watch.log[index]? = some outcome →
    ∃ state, outcome.Regular (index == 0 || outcome.round.change.isSome) state

theorem eq_ok_of_toOption {ε α : Type} {result : Except ε α} {value : α} (taken : result.toOption = some value) :
    result = .ok value := by
  cases result with
  | error error => cases taken
  | ok found =>
    cases taken
    rfl

theorem Watch.step_eq_some {watch next : Watch} {round : Round} (stepped : watch.step round = some next) :
    ∃ frame publisher receiver raised,
      (round.changed watch.publisher).publishAt round.data round.now = .ok (frame, publisher) ∧
      (sweepAll watch.receiver round.sweeps).1.handleMessageAt frame round.now = .ok (receiver, raised) ∧
      next = ⟨publisher, receiver, watch.log ++ [⟨round, (round.changed watch.publisher).timeAllowedToLiveMs,
        (sweepAll watch.receiver round.sweeps).2, raised⟩]⟩ := by
  obtain ⟨⟨frame, publisher⟩, published, stepped⟩ := Option.bind_eq_some_iff.mp stepped
  obtain ⟨⟨receiver, raised⟩, handled, stepped⟩ := Option.bind_eq_some_iff.mp stepped
  cases stepped
  exact ⟨frame, publisher, receiver, raised, eq_ok_of_toOption published, eq_ok_of_toOption handled, rfl⟩

section

variable {builder : GooseSubscriberBuilder} {comm : CommParameters}

theorem checkExpiredAt_build (now : Instant) : builder.build.checkExpiredAt now = (builder.build, []) := by
  unfold checkExpiredAt
  split <;> rfl

theorem Round.changed_prepared {publisher : GoosePublisher} (prepared : publisher.Prepared comm) (round : Round) :
    (round.changed publisher).Prepared comm := by
  unfold Round.changed
  split
  · exact prepared.call (.increaseStNum _)
  · exact prepared

theorem Round.changed_scheduled {publisher : GoosePublisher} (scheduled : publisher.Scheduled) (round : Round) :
    (round.changed publisher).Scheduled := by
  unfold Round.changed
  split
  · exact scheduled.increaseStNum _
  · exact scheduled

theorem hear_next (listening : builder.listener = true) {publisher : GoosePublisher} {last state : GooseSubscriberState}
    (continues : publisher.Continues last) (started : publisher.stNum ≠ 0) {round : Round}
    (reports : state.Reports (round.changed publisher) round.data round.now) (clock : UInt64) :
    ∃ event, (tracking builder last false clock).updateAndDispatch state =
        (tracking builder state false (clock + 1), [event]) ∧
      if round.change.isSome then ∃ prevStNum, event = .newState prevStNum state (.ok ())
      else event = .retransmission state (.ok ()) := by
  cases change : round.change with
  | some reading =>
    have same : round.changed publisher = publisher.increaseStNum reading := by rw [Round.changed, change]
    rw [same] at reports
    obtain ⟨gocbRef, simulation, confRev, stNum⟩ := publisher.increaseStNum_fields reading
    have judged : judge (some last) state = (state, .newState last.stNum state (.ok ()), false) :=
      judge_change reports.valid (by rw [reports.stNum, stNum, continues.stNum])
        (by rw [reports.confRev, confRev, continues.confRev])
    refine ⟨_, updateAndDispatch_tracking listening (by rw [continues.gocbRef, reports.gocbRef, gocbRef])
      (by rw [continues.simulated, reports.simulated, simulation]) judged, ?_⟩
    exact ⟨last.stNum, rfl⟩
  | none =>
    have same : round.changed publisher = publisher := by rw [Round.changed, change]
    rw [same] at reports
    have judged : judge (some last) state = (state, .retransmission state (.ok ()), false) :=
      judge_retransmission reports.valid (by rw [continues.stNum]; exact started)
        (by rw [reports.stNum, continues.stNum]) (by rw [reports.sqNum, continues.sqNum])
        (by rw [reports.confRev, continues.confRev])
    exact ⟨_, updateAndDispatch_tracking listening (by rw [continues.gocbRef, reports.gocbRef])
      (by rw [continues.simulated, reports.simulated]) judged, rfl⟩

theorem Watch.Followed.step (listening : builder.listener = true) {watch next : Watch} {round : Round}
    (followed : watch.Followed builder comm) (timely : Timely watch round)
    (stepped : watch.step round = some next) : next.Followed builder comm := by
  obtain ⟨frame, publisher, receiver, raised, published, handled, rfl⟩ := step_eq_some stepped
  obtain ⟨due, before, formed, readable⟩ := timely
  have prepared := round.changed_prepared followed.prepared
  have scheduled := round.changed_scheduled followed.scheduled
  obtain ⟨sameReference, sameSimulation, sameReadable⟩ := round.changed_same watch.publisher
  have hears : builder.Hears comm (round.changed watch.publisher) :=
    ⟨followed.hears.frame, by rw [sameReference]; exact followed.hears.reference,
      by rw [sameSimulation]; exact followed.hears.simulation⟩
  obtain ⟨state, reports, heard⟩ := handleMessageAt_published listening prepared hears formed
    (by rw [sameReadable]; exact readable) published
  have quiet (sweeps : List Instant) : ∀ events ∈ sweeps.map fun _ => ([] : List GooseEvent), events = [] := by simp
  have happened : ∃ clock, receiver = serving (tracking builder state false clock) ∧
      Outcome.Regular ⟨round, (round.changed watch.publisher).timeAllowedToLiveMs,
          (sweepAll watch.receiver round.sweeps).2, raised⟩
        (watch.log.length == 0 || round.change.isSome) state := by
    obtain ⟨empty, fresh⟩ | ⟨last, clock, outcome, tracked, continues, ends, _⟩ := followed.subscribed
    · have updates := updateAndDispatch_build listening reports.valid
      rw [fresh, sweepAll_still fun now _ => checkExpiredAt_build now] at handled ⊢
      rw [heard rfl rfl rfl rfl updates] at handled
      cases handled
      rw [empty]
      exact ⟨1, rfl, quiet _, reports.valid, reports.arrival, reports.values, reports.live, 0, rfl⟩
    · obtain ⟨event, updates, kind⟩ := hear_next listening continues followed.prepared.started reports clock
      have still : ∀ sweep ∈ round.sweeps,
          (tracking builder last false clock).checkExpiredAt sweep = (tracking builder last false clock, []) := by
        intro sweep listed
        rw [checkExpiredAt_tracking listening, if_neg]
        exact fun expired => continues.not_late due (before sweep listed) expired.2
      have more : (watch.log.length == 0) = false := by
        cases log : watch.log with
        | nil =>
          rw [log] at ends
          cases ends
        | cons first rest => rfl
      have answered := @heard (tracking builder last false clock) event (clock + 1) rfl rfl rfl rfl updates
      rw [tracked, sweepAll_still still] at handled ⊢
      rw [answered] at handled
      cases handled
      rw [more, Bool.false_or]
      refine ⟨clock + 1, rfl, quiet _, reports.valid, reports.arrival, reports.values, reports.live, ?_⟩
      split
      · rename_i changed
        rw [if_pos changed] at kind
        obtain ⟨prevStNum, rfl⟩ := kind
        exact ⟨prevStNum, rfl⟩
      · rename_i unchanged
        rw [if_neg unchanged] at kind
        rw [kind]
  obtain ⟨clock, rfl, regular⟩ := happened
  obtain ⟨pduBytes, _, _, _, _, rfl⟩ := publishAt_eq_ok prepared published
  have due : ∃ interval, some (round.now + (round.changed watch.publisher).nextInterval) =
      some (state.receivedAt + interval) ∧ asMillis interval ≤ state.timeAllowedToLiveMs.toNat :=
    ⟨_, by rw [reports.arrival], by rw [reports.live]; exact scheduled.interval_le⟩
  refine ⟨⟨prepared.parameters, prepared.template, prepared.offset, prepared.started⟩,
    ⟨scheduled.intervals, scheduled.derived⟩, ⟨hears.frame, hears.reference, hears.simulation⟩,
    .inr ⟨state, clock, _, rfl, ?_, getLast?_concat, ?_⟩, ?_⟩
  · exact ⟨reports.gocbRef, reports.simulated, reports.stNum, by rw [reports.sqNum], reports.confRev, due⟩
  · have counted : (watch.log.length + 1 == 1) = (watch.log.length == 0) := by simp
    rw [length_append, length_singleton, counted]
    exact regular
  · intro index outcome found
    rw [getElem?_append] at found
    split at found
    · exact followed.regular index outcome found
    rw [getElem?_singleton] at found
    split at found
    · rename_i here
      cases found
      have last : index = watch.log.length := by omega
      rw [last]
      exact ⟨state, regular⟩
    · cases found

/-- The sweeps after the last frame: the first one that finds it late raises Expired, and no other
does. -/
def expiries (state : GooseSubscriberState) (sweeps : List Instant) : List (List GooseEvent) :=
  sweeps.mapIdx fun index now =>
    if state.Late now ∧ ∀ earlier ∈ sweeps.take index, ¬ state.Late earlier then [.expired state] else []

section

variable (listening : builder.listener = true) (state : GooseSubscriberState) (clock : UInt64) (sweeps : List Instant)

include listening state clock sweeps

theorem sweepAll_fired :
    (sweepAll (serving (tracking builder state true clock)) sweeps).2 = sweeps.map fun _ => [] := by
  rw [sweepAll_still]
  intro now _
  rw [checkExpiredAt_tracking listening, if_neg (by simp)]

theorem sweepAll_tracking :
    (sweepAll (serving (tracking builder state false clock)) sweeps).2 = expiries state sweeps := by
  induction sweeps with
  | nil => rfl
  | cons now rest ih =>
    rw [sweepAll, checkAllExpired_serving, checkExpiredAt_tracking listening, expiries, mapIdx_cons]
    by_cases late : state.Late now
    · rw [if_pos ⟨rfl, late⟩, if_pos ⟨late, by simp⟩]
      dsimp only
      rw [sweepAll_fired listening]
      have raised : ∀ index later, ¬ (state.Late later ∧
          ∀ earlier ∈ (now :: rest).take (index + 1), ¬ state.Late earlier) :=
        fun index later expired => expired.2 now mem_cons_self late
      simp only [raised, if_false]
      exact congrArg _ (ext_getElem? fun index => by rw [getElem?_map, getElem?_mapIdx])
    · rw [if_neg (fun expired => late expired.2), if_neg (fun expired => late expired.1)]
      dsimp only
      rw [ih, expiries]
      simp only [take_succ_cons, forall_mem_cons, late, not_false_eq_true, true_and]

end

theorem run_rounds {watch last : Watch} {rounds : List Round} (ran : Machine.run Watch.step watch rounds = some last) :
    last.log.map Outcome.round = watch.log.map Outcome.round ++ rounds := by
  induction rounds generalizing watch with
  | nil =>
    cases ran
    rw [append_nil]
  | cons round rest ih =>
    obtain ⟨next, stepped, ran⟩ := Option.bind_eq_some_iff.mp ran
    obtain ⟨_, _, _, _, _, _, rfl⟩ := Watch.step_eq_some stepped
    rw [ih ran]
    simp

theorem supervision_exact {gocbRef dataSetRef : String} {goId : Option String} {confRev : UInt32}
    {made : GoosePublisher} (created : new comm gocbRef goId dataSetRef confRev = .ok made) (calls : List PublisherCall)
    (scheduled : (calls.foldl call made).Scheduled) (listening : builder.listener = true)
    (hears : builder.Hears comm (calls.foldl call made)) {rounds : List Round} {last : Watch}
    (ran : Machine.run Watch.step ⟨calls.foldl call made, new.addSubscriber builder.build, []⟩ rounds = some last)
    (timely : Machine.Within Watch.step Timely ⟨calls.foldl call made, new.addSubscriber builder.build, []⟩
      rounds) (sweeps : List Instant) : last.log.map Outcome.round = rounds ∧
      (∀ (index : Nat) (outcome : Outcome), last.log[index]? = some outcome →
        ∃ state, outcome.Regular (index == 0 || outcome.round.change.isSome) state) ∧
      ∀ outcome, last.log.getLast? = some outcome →
        ∃ state, outcome.Regular (rounds.length == 1 || outcome.round.change.isSome) state ∧
          (sweepAll last.receiver sweeps).2 = expiries state sweeps := by
  have start : Watch.Followed builder comm
      ⟨calls.foldl call made, new.addSubscriber builder.build, []⟩ :=
    ⟨(prepared_new created).calls calls, scheduled, hears, .inl ⟨rfl, rfl⟩, fun _ _ found => by cases found⟩
  have followed : last.Followed builder comm := Machine.invariant_within (Watch.Followed builder comm)
    (fun followed timely stepped => followed.step listening timely stepped) ran timely start
  have logged := run_rounds ran
  refine ⟨logged, followed.regular, ?_⟩
  intro outcome ends
  obtain ⟨empty, _⟩ | ⟨state, clock, found, tracked, _, same, regular⟩ := followed.subscribed
  · rw [empty] at ends
    cases ends
  rw [ends] at same
  cases same
  have count : last.log.length = rounds.length := by simpa using congrArg length logged
  rw [count] at regular
  refine ⟨state, regular, ?_⟩
  rw [tracked]
  exact sweepAll_tracking listening state clock sweeps

end

def observer : GooseSubscriberBuilder := { isObserver := true, listener := true }

def usualIntervals : RetransIntervals := .fromMinMax (fromMillis 4) (fromMillis 1000)

def observed (made : GoosePublisher) : Watch :=
  ⟨[PublisherCall.setRetransIntervals usualIntervals].foldl call made,
    new.addSubscriber observer.build, []⟩

def threeRounds : List Round := [
  ⟨[0], none, [.boolean false], 0⟩,
  ⟨[3000000, 4000000], none, [.boolean false], 4000000⟩,
  ⟨[12000000], some UtcTime.null, [.boolean true], 12000000⟩]

theorem exists_run {rounds : List Round}
    (done : ((new untagged "gcb" none "ds" 1).toOption.bind fun made => Machine.run Watch.step (observed made)
      rounds).isSome = true) :
    ∃ made last, new untagged "gcb" none "ds" 1 = .ok made ∧
      Machine.run Watch.step (observed made) rounds = some last := by
  obtain ⟨last, ended⟩ := Option.isSome_iff_exists.mp done
  obtain ⟨made, created, ran⟩ := Option.bind_eq_some_iff.mp ended
  exact ⟨made, last, eq_ok_of_toOption created, ran⟩

theorem three_rounds_supervised : ∃ made last, new untagged "gcb" none "ds" 1 = .ok made ∧
      Machine.run Watch.step (observed made) threeRounds = some last ∧ last.log.map Outcome.round = threeRounds ∧
      (∀ (index : Nat) (outcome : Outcome), last.log[index]? = some outcome →
        ∃ state, outcome.Regular (index == 0 || outcome.round.change.isSome) state) ∧
      ∀ outcome, last.log.getLast? = some outcome →
        ∃ state, outcome.Regular (threeRounds.length == 1 || outcome.round.change.isSome) state ∧
          (sweepAll last.receiver [20000000, 21000000, 30000000]).2 =
            expiries state [20000000, 21000000, 30000000] := by
  obtain ⟨made, last, created, ran⟩ := @exists_run threeRounds (by decide +kernel)
  have timely : Machine.Within Watch.step Timely (observed made) threeRounds := by
    cases created
    decide +kernel
  refine ⟨made, last, created, ran, supervision_exact created _ ?_ rfl ⟨rfl, rfl, rfl⟩ ran timely _⟩
  cases created
  exact ⟨⟨fromMillis 4, by decide, fromMillis 1000, by decide, rfl⟩, rfl⟩

/-- A sweep 8.5 ms after a frame that may live for 8 ms raises nothing: eight whole milliseconds
have passed. -/
theorem late_sweep_silent : ((new untagged "gcb" none "ds" 1).toOption.bind fun made =>
      (Machine.run Watch.step (observed made) [⟨[], none, [], 0⟩]).map fun last =>
        (last.log.map Outcome.live, (sweepAll last.receiver [8500000]).2.map length)) = some ([8], [0]) ∧
      fromMillis 8 < 8500000 := by
  decide +kernel

end Iec61850.Goose
