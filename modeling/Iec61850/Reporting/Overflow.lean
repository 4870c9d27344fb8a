import Iec61850.Reporting.Stream

/-!
BufOvfl. A monitor keeps the account a client would keep: it knows the newest report that was
started since the block was enabled and whether an entry newer than it has been lost. The flag of
every report is what this account says.
-/

namespace Iec61850.Reporting

open Concurrency List Transmitter Event

structure Losses where
  owed : Bool
  newest : Option EntryId

/-- The event loses an entry that has not been reported when the newest report is that of
`newest`. -/
def Event.losesAfter (newest : EntryId) : Event → Bool
  | .evicted id => decide (newest.asU64 < id.asU64)
  | .rejected _ => true
  | _ => false

def Losses.step (losses : Losses) : Event → Losses
  | .enabled _ => { owed := true, newest := none }
  | .started id _ _ => { owed := false, newest := some id }
  | event => { losses with owed := losses.owed || losses.newest.any fun newest => event.losesAfter newest }

def Event.isBoundary : Event → Bool
  | .enabled _ | .started _ _ _ => true
  | _ => false

/-- A report carries the flag the account says. -/
def lossMonitor : Monitor Losses Event where
  start := { owed := false, newest := none }
  step := Losses.step
  allowed losses
    | .started _ bufOvfl _ => bufOvfl = losses.owed
    | _ => True

theorem afterFrom_within {events : List Event} (within : ∀ event ∈ events, event.isBoundary = false) (losses : Losses) :
    lossMonitor.afterFrom losses events =
      { losses with
        owed := losses.owed || losses.newest.any fun newest => events.any fun event => event.losesAfter newest } := by
  induction events generalizing losses with
  | nil =>
    obtain ⟨owed, newest⟩ := losses
    cases newest <;> simp [Monitor.afterFrom]
  | cons event events ih =>
    have head : lossMonitor.step losses event =
        { losses with owed := losses.owed || losses.newest.any fun newest => event.losesAfter newest } := by
      have inner := within event mem_cons_self
      cases event <;> first | rfl | simp [isBoundary] at inner
    have tail := ih (fun other member => within other (mem_cons_of_mem _ member)) (lossMonitor.step losses event)
    rw [Monitor.afterFrom, foldl_cons]
    change lossMonitor.afterFrom _ _ = _
    rw [tail, head]
    obtain ⟨owed, newest⟩ := losses
    cases newest <;> simp [Bool.or_assoc]

theorem acceptsFrom_within {events : List Event} (within : ∀ event ∈ events, event.isBoundary = false)
    (losses : Losses) : lossMonitor.AcceptsFrom losses events := by
  refine Monitor.acceptsFrom_of_always fun event member losses => ?_
  have inner := within event member
  cases event <;> trivial

/-- The flags of an enabled transmitter agree with the account. -/
structure Explains (transmitter : Transmitter) (losses : Losses) : Prop where
  fresh : losses.newest = none → transmitter.overflowOnEnable = true ∧ losses.owed = true
  running : ∀ newest, losses.newest = some newest →
    transmitter.overflowOnEnable = false ∧ transmitter.buffer.overflow = losses.owed ∧
      transmitter.buffer.formattedThrough = newest.asU64
  underWay : ∀ report, transmitter.partialReport = some report → losses.newest = some report.entry.1

theorem Explains.bufOvfl {transmitter : Transmitter} {losses : Losses} (explains : Explains transmitter losses) :
    transmitter.bufOvfl = losses.owed := by
  cases newest : losses.newest with
  | none =>
    obtain ⟨announced, owed⟩ := explains.fresh newest
    simp [Transmitter.bufOvfl, announced, owed]
  | some id =>
    obtain ⟨unannounced, overflow, _⟩ := explains.running id newest
    simp [Transmitter.bufOvfl, unannounced, overflow]

section Pushes

variable {buffer : InMemoryReportBuffer} {entry : ReportEntry}

theorem push_formattedThrough (buffer : InMemoryReportBuffer) (entry : ReportEntry) :
    (buffer.push entry).2.formattedThrough = buffer.formattedThrough := by
  unfold InMemoryReportBuffer.push
  split_ifs <;> rfl

theorem mem_push_entries {found : ReportEntry} (member : found ∈ (buffer.push entry).2.entries) :
    found ∈ buffer.entries ∨ found = entry ∧ enqueuedOf (pushEvents buffer entry) = [entry] := by
  unfold InMemoryReportBuffer.push at member
  unfold pushEvents
  split_ifs at member ⊢ with closed refused
  · exact .inl member
  · exact .inl member
  · rcases mem_append.mp member with kept | new
    · refine .inl ?_
      rw [← buffer.evicted_append_kept buffer.entries]
      exact mem_append_right _ kept
    · exact .inr ⟨by simpa using new, by simp [enqueuedOf]⟩

theorem pushEvents_within (event : Event) (member : event ∈ pushEvents buffer entry) : event.isBoundary = false := by
  unfold pushEvents at member
  split_ifs at member
  · simp at member
  · obtain rfl : event = .rejected entry.entryId := by simpa using member
    rfl
  · rcases mem_append.mp member with evicted | stored
    · obtain ⟨old, _, rfl⟩ := mem_map.mp evicted
      rfl
    · obtain rfl : event = .enqueued entry := by simpa using stored
      rfl

theorem push_overflow {newest : EntryId} (mark : buffer.formattedThrough = newest.asU64) :
    (buffer.push entry).2.overflow =
      (buffer.overflow || (pushEvents buffer entry).any fun event => event.losesAfter newest) := by
  unfold InMemoryReportBuffer.push pushEvents
  split_ifs
  · simp
  · simp [losesAfter]
  · simp [InMemoryReportBuffer.store, InMemoryReportBuffer.lostUnformatted, mark, losesAfter, Function.comp_def]

end Pushes

/-- The transmitter, the events so far and the account belong together. The formatted mark never
runs ahead of an entry still to be sent: it stands at the point or at an entry that has been
enqueued. -/
structure Accounted (transmitter : Transmitter) (trace : List Event) : Prop where
  stored : transmitter.buffer.entries.Sublist (enqueuedOf trace)
  ahead : ∀ entry ∈ transmitter.pending, transmitter.buffer.formattedThrough ≤ entry.entryId.asU64
  marked : transmitter.buffer.formattedThrough ≤ transmitter.point.elim 0 EntryId.asU64 ∨
    ∃ entry ∈ enqueuedOf trace, transmitter.buffer.formattedThrough = entry.entryId.asU64
  explained : transmitter.holder.isSome = true → Explains transmitter (lossMonitor.after trace)
  accepted : lossMonitor.Accepts trace

section Accounts

variable {transmitter : Transmitter} {trace events : List Event}

theorem after_within (within : ∀ event ∈ events, event.isBoundary = false) : lossMonitor.after (trace ++ events) =
      { lossMonitor.after trace with
        owed := (lossMonitor.after trace).owed || (lossMonitor.after trace).newest.any fun newest =>
          events.any fun event => event.losesAfter newest } := by
  rw [Monitor.after_append, afterFrom_within within]

theorem after_quiet (within : ∀ event ∈ events, event.isBoundary = false)
    (lossless : ∀ event ∈ events, ∀ newest, event.losesAfter newest = false) :
    lossMonitor.after (trace ++ events) = lossMonitor.after trace := by
  have noLoss (newest : EntryId) : events.any (fun event => event.losesAfter newest) = false := by
    rw [any_eq_false]
    intro event member
    simp [lossless event member newest]
  rw [after_within within]
  simp only [noLoss]
  obtain ⟨owed, newest⟩ := lossMonitor.after trace
  cases newest <;> simp

theorem accepts_within (accepted : lossMonitor.Accepts trace) (within : ∀ event ∈ events, event.isBoundary = false) :
    lossMonitor.Accepts (trace ++ events) :=
  Monitor.accepts_append.mpr ⟨accepted, acceptsFrom_within within _⟩

theorem mem_pending_iff {entry : ReportEntry} : entry ∈ transmitter.pending ↔ entry ∈ transmitter.buffer.entries ∧
      ∀ id, transmitter.point = some id → id.asU64 < entry.entryId.asU64 := by
  unfold Transmitter.pending entriesAfter
  cases transmitter.point <;> simp

theorem point_le_of_mem_pending {entry : ReportEntry} (member : entry ∈ transmitter.pending) :
    transmitter.point.elim 0 EntryId.asU64 ≤ entry.entryId.asU64 := by
  cases point : transmitter.point with
  | none => simp
  | some id => exact Nat.le_of_lt ((mem_pending_iff.mp member).2 id point)

section

variable (accounted : Accounted transmitter trace)

include accounted

theorem Accounted.marked_append (events : List Event) :
    transmitter.buffer.formattedThrough ≤ transmitter.point.elim 0 EntryId.asU64 ∨
      ∃ entry ∈ enqueuedOf (trace ++ events), transmitter.buffer.formattedThrough = entry.entryId.asU64 := by
  refine accounted.marked.imp_right ?_
  rintro ⟨entry, member, same⟩
  exact ⟨entry, by rw [enqueuedOf_append]; exact mem_append_left _ member, same⟩

theorem Accounted.push (entry : ReportEntry)
    (ordered : Ordered (enqueuedOf (trace ++ pushEvents transmitter.buffer entry))) :
    Accounted { transmitter with buffer := (transmitter.buffer.push entry).2 }
      (trace ++ pushEvents transmitter.buffer entry) := by
  have mark := push_formattedThrough transmitter.buffer entry
  refine ⟨(Move.push transmitter entry).entries_sublist accounted.stored, ?_, ?_, ?_,
    accepts_within accounted.accepted pushEvents_within⟩
  · intro found member
    have point := point_le_of_mem_pending member
    obtain ⟨buffered, after⟩ := mem_pending_iff.mp member
    simp only [mark]
    rcases mem_push_entries buffered with old | ⟨rfl, enqueued⟩
    · exact accounted.ahead found (mem_pending_iff.mpr ⟨old, after⟩)
    rcases accounted.marked with behind | ⟨earlier, among, same⟩
    · exact behind.trans point
    · rw [same]
      rw [enqueuedOf_append, enqueued] at ordered
      exact Nat.le_of_lt ((pairwise_append.mp ordered).2.2 earlier among found (by simp))
  · simp only [mark]
    exact accounted.marked_append _
  · intro enabled
    have explains := accounted.explained enabled
    rw [after_within pushEvents_within]
    refine ⟨?_, ?_, explains.underWay⟩
    · intro fresh
      obtain ⟨announced, owed⟩ := explains.fresh fresh
      exact ⟨announced, by simp [owed]⟩
    · intro newest running
      have same : (lossMonitor.after trace).newest = some newest := running
      obtain ⟨unannounced, overflow, through⟩ := explains.running newest same
      refine ⟨unannounced, ?_, mark.trans through⟩
      simp only [push_overflow through, overflow, same, Option.any_some]

theorem Accounted.quiet (next : Transmitter) (events : List Event) (within : ∀ event ∈ events, event.isBoundary = false)
    (lossless : ∀ event ∈ events, ∀ newest, event.losesAfter newest = false) (buffer : next.buffer = transmitter.buffer)
    (point : next.point = transmitter.point) (announced : next.overflowOnEnable = transmitter.overflowOnEnable)
    (holder : next.holder.isSome = true → transmitter.holder.isSome = true)
    (underWay : ∀ report, next.holder.isSome = true → next.partialReport = some report → ∃ earlier,
      transmitter.partialReport = some earlier ∧ earlier.entry = report.entry) : Accounted next (trace ++ events) := by
  have pending : next.pending = transmitter.pending := by
    rw [Transmitter.pending, Transmitter.pending, buffer, point]
  refine ⟨?_, ?_, ?_, ?_, accepts_within accounted.accepted within⟩
  · rw [buffer, enqueuedOf_append]
    exact accounted.stored.trans (sublist_append_left _ _)
  · rw [pending, buffer]
    exact accounted.ahead
  · rw [buffer, point]
    exact accounted.marked_append events
  · intro enabled
    have explains := accounted.explained (holder enabled)
    rw [after_quiet within lossless]
    refine ⟨?_, ?_, ?_⟩
    · rw [announced]
      exact explains.fresh
    · rw [announced, buffer]
      exact explains.running
    · intro report kept
      obtain ⟨earlier, was, same⟩ := underWay report enabled kept
      rw [explains.underWay earlier was, same]

theorem Accounted.rewound (next : Transmitter) (events : List Event)
    (within : ∀ event ∈ events, event.isBoundary = false) (disabled : next.holder = none)
    (buffer : next.buffer = transmitter.buffer.setFormattedThrough next.point) : Accounted next (trace ++ events) := by
  have mark : next.buffer.formattedThrough = next.point.elim 0 EntryId.asU64 := by
    rw [buffer]
    rfl
  have entries : next.buffer.entries = transmitter.buffer.entries := by
    rw [buffer]
    rfl
  refine ⟨?_, ?_, .inl mark.le, by simp [disabled], accepts_within accounted.accepted within⟩
  · rw [entries, enqueuedOf_append]
    exact accounted.stored.trans (sublist_append_left _ _)
  · intro entry member
    rw [mark]
    exact point_le_of_mem_pending member

theorem Accounted.forget (disabled : transmitter.holder = none) : Accounted transmitter.forgotten trace := by
  cases kept : transmitter.partialReport with
  | some report =>
    have rewound := accounted.rewound transmitter.forgotten [] (by simp) disabled
      (by simp [Transmitter.forgotten, kept])
    simpa using rewound
  | none =>
    have quiet := accounted.quiet transmitter.forgotten [] (by simp) (by simp)
      (by simp [Transmitter.forgotten, kept]) rfl rfl (by simp [Transmitter.forgotten, disabled])
      (by simp [Transmitter.forgotten])
    simpa using quiet

theorem Accounted.enable (disabled : transmitter.holder = none)
    (conn : ConnectionId) : Accounted { transmitter.forgotten with holder := some conn, overflowOnEnable := true }
      (trace ++ [.enabled conn]) := by
  have forgotten := accounted.forget disabled
  refine ⟨?_, forgotten.ahead, forgotten.marked_append _, ?_, ?_⟩
  · rw [enqueuedOf_append]
    exact forgotten.stored.trans (sublist_append_left _ _)
  · intro _
    rw [Monitor.after_append]
    refine ⟨fun _ => ⟨rfl, rfl⟩, ?_, by simp [Transmitter.forgotten]⟩
    intro newest running
    cases running
  · exact Monitor.accepts_append.mpr ⟨accounted.accepted, trivial, trivial⟩

theorem Accounted.accepts_started {conn : ConnectionId}
    (enabled : transmitter.holder = some conn) (id : EntryId) (taken : List Bytes) :
    lossMonitor.Accepts (trace ++ segmentEvents id transmitter.bufOvfl taken) := by
  refine Monitor.accepts_append.mpr ⟨accounted.accepted, ?_⟩
  cases taken with
  | nil => trivial
  | cons pdu rest =>
    refine ⟨(accounted.explained (by simp [enabled])).bufOvfl, acceptsFrom_within ?_ _⟩
    intro event member
    obtain ⟨later, _, rfl⟩ := mem_map.mp member
    rfl

theorem Accounted.start {conn : ConnectionId} {entry : ReportEntry} {later : List ReportEntry} {pdu : Bytes}
    {rest : List Bytes} (ordered : Ordered transmitter.buffer.entries)
    (enabled : transmitter.holder = some conn) (ahead : transmitter.pending = entry :: later) : Accounted
      { transmitter.formatted entry.entryId with
        partialReport := some { connId := conn, entry := (entry.entryId, entry.timeOfEntryMs), rest } }
      (trace ++ [.started entry.entryId transmitter.bufOvfl pdu]) := by
  have member : entry ∈ transmitter.pending := by simp [ahead]
  have mark : max transmitter.buffer.formattedThrough entry.entryId.asU64 = entry.entryId.asU64 :=
    Nat.max_eq_right (accounted.ahead entry member)
  have enqueued : entry ∈ enqueuedOf (trace ++ [.started entry.entryId transmitter.bufOvfl pdu]) := by
    rw [enqueuedOf_append]
    exact mem_append_left _ (accounted.stored.subset (mem_pending_iff.mp member).1)
  refine ⟨?_, ?_, .inr ⟨entry, enqueued, mark⟩, ?_, accounted.accepts_started enabled entry.entryId [pdu]⟩
  · rw [enqueuedOf_append]
    exact accounted.stored.trans (sublist_append_left _ _)
  · intro found among
    have sorted : Ordered transmitter.pending := ordered.sublist (entriesAfter_sublist _ _)
    rw [ahead] at sorted
    have among : found ∈ entry :: later := ahead ▸ among
    change max transmitter.buffer.formattedThrough entry.entryId.asU64 ≤ _
    rw [mark]
    rcases mem_cons.mp among with rfl | newer
    · exact le_rfl
    · exact Nat.le_of_lt ((pairwise_cons.mp sorted).1 found newer)
  · intro _
    rw [Monitor.after_append]
    refine ⟨fun fresh => ?_, ?_, ?_⟩
    · cases fresh
    · rintro newest running
      cases running
      exact ⟨rfl, rfl, mark⟩
    · rintro report kept
      cases kept
      rfl

theorem Accounted.complete {report : PartialReport}
    (enabled : transmitter.holder = some report.connId) (kept : transmitter.partialReport = some report) : Accounted
      { transmitter with
        partialReport := none, point := some report.entry.1, sqNum := transmitter.sqNum + 1 }
      (trace ++ [.completed report.entry.1]) := by
  have explains := accounted.explained (by simp [enabled])
  have newest := explains.underWay report kept
  obtain ⟨unannounced, overflow, mark⟩ := explains.running _ newest
  refine ⟨?_, ?_, .inl mark.le, ?_, accepts_within accounted.accepted (by simp [isBoundary])⟩
  · rw [enqueuedOf_append]
    exact accounted.stored.trans (sublist_append_left _ _)
  · intro entry member
    exact mark.le.trans (point_le_of_mem_pending member)
  · intro _
    rw [after_quiet (by simp [isBoundary]) (by simp [losesAfter])]
    exact ⟨explains.fresh, explains.running, by simp⟩

theorem Accounted.skip {entry : ReportEntry} {later : List ReportEntry} (ahead : transmitter.pending = entry :: later) :
    Accounted { transmitter with point := some entry.entryId } trace := by
  have behind : transmitter.buffer.formattedThrough ≤ entry.entryId.asU64 :=
    accounted.ahead entry (by simp [ahead])
  refine ⟨accounted.stored, ?_, .inl behind, ?_, accounted.accepted⟩
  · intro found member
    exact behind.trans (point_le_of_mem_pending member)
  · intro enabled
    have explains := accounted.explained enabled
    exact ⟨explains.fresh, explains.running, explains.underWay⟩

theorem Accounted.move {next : Transmitter}
    (move : Move transmitter events next) (ordered : Ordered (enqueuedOf (trace ++ events))) :
    Accounted next (trace ++ events) := by
  have sorted : Ordered transmitter.buffer.entries := by
    rw [enqueuedOf_append] at ordered
    exact (pairwise_append.mp ordered).1.sublist accounted.stored
  cases move with
  | push entry => exact accounted.push entry ordered
  | claim conn =>
    exact accounted.quiet transmitter _ (by simp [isBoundary]) (by simp [losesAfter]) rfl rfl rfl id
      (fun report _ kept => ⟨report, kept, rfl⟩)
  | resynchronize id disabled => exact accounted.rewound _ _ (by simp [isBoundary]) disabled rfl
  | enable conn disabled => exact accounted.enable disabled conn
  | disable conn enabled =>
    exact accounted.quiet _ _ (by simp [isBoundary]) (by simp [losesAfter]) rfl rfl rfl (by simp)
      (by simp)
  | forget disabled => simpa using accounted.forget disabled
  | start conn entry later pdu rest enabled clear ahead encoded => exact accounted.start sorted enabled ahead
  | resume report pdu rest enabled kept left =>
    refine accounted.quiet _ _ (by simp [isBoundary]) (by simp [losesAfter]) rfl rfl rfl (by exact id) ?_
    intro remaining _ remains
    cases remains
    exact ⟨report, kept, rfl⟩
  | complete report enabled kept left => exact accounted.complete enabled kept
  | lose conn enabled =>
    exact accounted.quiet _ _ (by simp [isBoundary]) (by simp [losesAfter]) rfl rfl rfl (by simp)
      (by simp)
  | startLost conn entry later taken left enabled clear ahead encoded =>
    have started := accounted.accepts_started enabled entry.entryId taken
    refine ⟨?_, accounted.ahead, accounted.marked_append _, by simp, ?_⟩
    · rw [enqueuedOf_append]
      exact accounted.stored.trans (sublist_append_left _ _)
    · rw [← append_assoc]
      exact accepts_within started (by simp [isBoundary])
  | skip conn entry later error enabled clear ahead encoded => simpa using accounted.skip ahead

end

theorem accounted_of_path {first last : Transmitter} (start : Accounted first [])
    (path : Path Move first trace last) (ordered : Ordered (enqueuedOf trace)) : Accounted last trace := by
  have invariant := path.invariant (fun transmitter trace => Ordered (enqueuedOf trace) → Accounted transmitter trace)
    ?_ [] (fun _ => start)
  · exact invariant ordered
  · intro transmitter trace events next accounted move ordered
    have front : Ordered (enqueuedOf trace) := by
      rw [enqueuedOf_append] at ordered
      exact (pairwise_append.mp ordered).1
    exact (accounted front).move move ordered

end Accounts

section Reports

variable {transmitter next : Transmitter} {trace events earlier between later : List Event}

theorem move_encode (move : Move transmitter events next) : next.encode = transmitter.encode := by
  cases move <;> rfl

variable {id : EntryId} {bufOvfl : Bool} {pdu : Bytes}

theorem started_encoded_of_move (move : Move transmitter events next) (started : .started id bufOvfl pdu ∈ events) :
    ∃ conn sqNum entry rest, entry.entryId = id ∧
      transmitter.encode conn sqNum bufOvfl entry = .ok (pdu :: rest) := by
  cases move with
  | push entry =>
    have within := pushEvents_within _ started
    simp [isBoundary] at within
  | start conn entry later first rest enabled clear ahead encoded =>
    simp only [mem_singleton, Event.started.injEq] at started
    obtain ⟨rfl, rfl, rfl⟩ := started
    exact ⟨conn, transmitter.sqNum, entry, rest, rfl, encoded⟩
  | startLost conn entry later taken left enabled clear ahead encoded =>
    cases taken with
    | nil => simp [segmentEvents] at started
    | cons first rest =>
      simp [segmentEvents] at started
      obtain ⟨rfl, rfl, rfl⟩ := started
      exact ⟨conn, transmitter.sqNum, entry, rest ++ left, rfl, encoded⟩
  | _ => simp at started

theorem started_encoded {encode : Encoder} {first last : Transmitter} (path : Path Move first trace last)
    (encoder : first.encode = encode) (started : .started id bufOvfl pdu ∈ trace) :
    ∃ conn sqNum entry rest, entry.entryId = id ∧ encode conn sqNum bufOvfl entry = .ok (pdu :: rest) := by
  have invariant := path.invariant
    (fun transmitter trace => transmitter.encode = encode ∧ ∀ id bufOvfl pdu, .started id bufOvfl pdu ∈ trace →
      ∃ conn sqNum entry rest, entry.entryId = id ∧ encode conn sqNum bufOvfl entry = .ok (pdu :: rest))
    ?_ [] ⟨encoder, by simp⟩
  · exact invariant.2 id bufOvfl pdu started
  · intro transmitter trace events next holds move
    refine ⟨(move_encode move).trans holds.1, ?_⟩
    intro id bufOvfl pdu member
    rcases mem_append.mp member with before | now
    · exact holds.2 id bufOvfl pdu before
    · rw [← holds.1]
      exact started_encoded_of_move move now

theorem bufOvfl_of_first {conn : ConnectionId}
    (accepts : lossMonitor.Accepts (earlier ++ .enabled conn :: (between ++ .started id bufOvfl pdu :: later)))
    (first : ∀ event ∈ between, event.isStarted = false) : bufOvfl = true := by
  have split : earlier ++ .enabled conn :: (between ++ .started id bufOvfl pdu :: later) =
      (earlier ++ .enabled conn :: between) ++ .started id bufOvfl pdu :: later := by simp
  rw [split] at accepts
  have flag : bufOvfl = (lossMonitor.after (earlier ++ .enabled conn :: between)).owed := accepts.allowed
  have keeps (events : List Event) (unstarted : ∀ event ∈ events, event.isStarted = false) :
      lossMonitor.afterFrom { owed := true, newest := none } events = { owed := true, newest := none } := by
    induction events with
    | nil => rfl
    | cons event events ih =>
      have head : lossMonitor.step { owed := true, newest := none } event = { owed := true, newest := none } := by
        cases event <;> first | rfl | simp [isStarted] at unstarted
      rw [Monitor.afterFrom, foldl_cons, head]
      exact ih fun other member => unstarted other (mem_cons_of_mem _ member)
  have enabled : lossMonitor.afterFrom (lossMonitor.after earlier) (.enabled conn :: between) =
      { owed := true, newest := none } := keeps between first
  rw [flag, Monitor.after_append, enabled]

theorem bufOvfl_of_next {next : EntryId} {flag : Bool} {nextPdu : Bytes} (accepts : lossMonitor.Accepts
      (earlier ++ .started id flag pdu :: (between ++ .started next bufOvfl nextPdu :: later)))
    (within : ∀ event ∈ between, event.isBoundary = false) :
    bufOvfl = between.any fun event => event.losesAfter id := by
  have split : earlier ++ .started id flag pdu :: (between ++ .started next bufOvfl nextPdu :: later) =
      (earlier ++ [.started id flag pdu] ++ between) ++ .started next bufOvfl nextPdu :: later := by simp
  rw [split] at accepts
  have said : bufOvfl = (lossMonitor.after (earlier ++ [.started id flag pdu] ++ between)).owed := accepts.allowed
  have started : lossMonitor.after (earlier ++ [.started id flag pdu]) = { owed := false, newest := some id } := by
    rw [Monitor.after_append]
    rfl
  rw [said, after_within within, started]
  simp

end Reports

end Iec61850.Reporting
