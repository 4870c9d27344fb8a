import Iec61850.Reporting.Transmitter

/-!
What an enabled period sends. While nothing is lost from the buffer, the segments accepted in a
period run through the reports of the entries after its starting point, in order and without a gap.
-/

namespace Iec61850.Reporting

open Concurrency List Observer

section Entries

def Ordered (entries : List ReportEntry) : Prop :=
  entries.Pairwise fun older newer => older.entryId.asU64 < newer.entryId.asU64

variable {entries sent rest : List ReportEntry} {start : Option EntryId}

theorem entriesAfter_append (point : Option EntryId) (front back : List ReportEntry) :
    entriesAfter point (front ++ back) = entriesAfter point front ++ entriesAfter point back := by
  cases point with
  | none => rfl
  | some id => exact filter_append ..

theorem entriesAfter_sublist (point : Option EntryId) (entries : List ReportEntry) :
    (entriesAfter point entries).Sublist entries := by
  cases point with
  | none => exact List.Sublist.refl _
  | some id => exact filter_sublist

/-- Where a transmission from `start` stands once `sent` is through. -/
def resumePoint (start : Option EntryId) (sent : List ReportEntry) : Option EntryId :=
  match sent.getLast? with
  | none => start
  | some last => some last.entryId

@[simp] theorem resumePoint_nil (start : Option EntryId) : resumePoint start [] = start := rfl

@[simp] theorem resumePoint_append_singleton (start : Option EntryId) (sent : List ReportEntry)
    (last : ReportEntry) : resumePoint start (sent ++ [last]) = some last.entryId := by
  simp [resumePoint]

theorem entriesAfter_of_mem {last : ReportEntry} (member : last ∈ entriesAfter start entries) :
    entriesAfter (some last.entryId) entries = entriesAfter (some last.entryId) (entriesAfter start entries) := by
  cases start with
  | none => rfl
  | some id =>
    have later : id.asU64 < last.entryId.asU64 := by
      simpa [entriesAfter] using (mem_filter.mp member).2
    simp only [entriesAfter, filter_filter]
    refine filter_congr fun entry _ => ?_
    simp only [← Bool.decide_and, decide_eq_decide]
    omega

theorem entriesAfter_resumePoint (ordered : Ordered entries) (split : entriesAfter start entries = sent ++ rest) :
    entriesAfter (resumePoint start sent) entries = rest := by
  rcases eq_nil_or_concat sent with none | ⟨front, last, some⟩
  · subst none
    simpa using split
  rw [concat_eq_append] at some
  subst some
  have member : last ∈ entriesAfter start entries := by simp [split]
  have sorted : Ordered ((front ++ [last]) ++ rest) := by
    rw [← split]
    exact ordered.sublist (entriesAfter_sublist _ _)
  obtain ⟨sentSorted, _, across⟩ := pairwise_append.mp sorted
  obtain ⟨_, _, before⟩ := pairwise_append.mp sentSorted
  rw [resumePoint_append_singleton, entriesAfter_of_mem member, split, entriesAfter_append]
  have gone : entriesAfter (some last.entryId) (front ++ [last]) = [] := by
    refine filter_eq_nil_iff.mpr fun entry among => ?_
    rcases mem_append.mp among with earlier | same
    · have := before entry earlier last (by simp)
      simp only [decide_eq_true_eq]
      omega
    · simp_all
  have whole : entriesAfter (some last.entryId) rest = rest := by
    refine filter_eq_self.mpr fun entry among => ?_
    simpa using across last (by simp) entry among
  rw [gone, whole, nil_append]

end Entries

section Streams

variable {report : UInt16 → Bool → ReportEntry → List Bytes}

variable (sqNum : Nat) (more overflows : List Bool) (front back : List ReportEntry)

theorem streamFrom_append : streamFrom report sqNum overflows (front ++ back) =
      streamFrom report sqNum overflows front ++
        streamFrom report (sqNum + front.length) (overflows.drop front.length) back := by
  induction front generalizing sqNum overflows with
  | nil => simp [streamFrom]
  | cons entry front ih =>
    simp only [cons_append, streamFrom, length_cons, ih, append_assoc, ← drop_one,
      drop_drop]
    rw [Nat.add_right_comm sqNum 1, Nat.add_comm 1, Nat.add_assoc]

theorem streamFrom_overflows {overflows : List Bool} {entries : List ReportEntry}
    (enough : overflows.length = entries.length) :
    streamFrom report sqNum (overflows ++ more) entries = streamFrom report sqNum overflows entries := by
  induction entries generalizing sqNum overflows with
  | nil => rfl
  | cons entry entries ih =>
    cases overflows with
    | nil => simp at enough
    | cons overflow overflows =>
      simp only [length_cons, Nat.add_right_cancel_iff] at enough
      simp [streamFrom, ih _ enough]

theorem streamFrom_concat {overflows : List Bool} (overflow : Bool) {sent : List ReportEntry}
    (entry : ReportEntry) (later : List ReportEntry) (enough : overflows.length = sent.length) :
    streamFrom report sqNum (overflows ++ [overflow]) (sent ++ entry :: later) =
      streamFrom report sqNum overflows sent ++ report (UInt16.ofNat (sqNum + sent.length)) overflow entry ++
        streamFrom report (sqNum + sent.length + 1) [] later := by
  rw [streamFrom_append, streamFrom_overflows sqNum _ enough, ← enough, drop_left]
  simp [streamFrom]

end Streams

section Delivery

/-- A trace that loses no entry, numbers them upwards, and holds only entries that can be
encoded. -/
structure LossFree (encode : Encoder) (trace : List Event) : Prop where
  kept : ∀ event ∈ trace, event.keepsEntries = true
  ordered : Ordered (enqueuedOf trace)
  encodable : ∀ entry ∈ enqueuedOf trace, ∀ conn sqNum bufOvfl, ∃ pdus, encode conn sqNum bufOvfl entry = .ok pdus

variable {encode : Encoder}

theorem LossFree.front {earlier later : List Event} (lossFree : LossFree encode (earlier ++ later)) :
    LossFree encode earlier := by
  obtain ⟨kept, ordered, encodable⟩ := lossFree
  rw [enqueuedOf_append] at ordered encodable
  exact ⟨fun event member => kept event (mem_append_left _ member), (pairwise_append.mp ordered).1,
    fun entry member => encodable entry (mem_append_left _ member)⟩

/-- The segments accepted in a period, up to now, are the first ones owed to it. -/
def Period.Follows (encode : Encoder) (entries : List ReportEntry) (period : Period) : Prop :=
  period.segments <+: streamFrom (segmentsOf encode period.conn) period.firstSqNum period.overflows
    (entriesAfter period.start entries)

theorem Period.Follows.append {entries : List ReportEntry} {period : Period} (follows : period.Follows encode entries)
    (more : List ReportEntry) : period.Follows encode (entries ++ more) := by
  unfold Follows at *
  rw [entriesAfter_append, streamFrom_append]
  exact follows.trans (prefix_append _ _)

/-- How far a period has come: between two reports, or within the one that is kept. -/
inductive Period.Stands (encode : Encoder) (period : Period) (sent rest : List ReportEntry) :
    Option PartialReport → Prop
  | between (counted : period.overflows.length = sent.length)
      (segments : period.segments =
        streamFrom (segmentsOf encode period.conn) period.firstSqNum period.overflows sent) :
      Stands encode period sent rest none
  | within (report : PartialReport) (entry : ReportEntry) (later : List ReportEntry) (overflows : List Bool)
      (overflow : Bool) (part : List Bytes) (next : rest = entry :: later)
      (identified : report.entry.1 = entry.entryId) (announced : period.overflows = overflows ++ [overflow])
      (counted : overflows.length = sent.length)
      (encoded : encode period.conn (UInt16.ofNat (period.firstSqNum + sent.length)) overflow entry =
        .ok (part ++ report.rest))
      (segments : period.segments =
        streamFrom (segmentsOf encode period.conn) period.firstSqNum overflows sent ++ part) :
      Stands encode period sent rest (some report)

variable {later : List ReportEntry} {kept : Option PartialReport} {entry : ReportEntry} {next : Transmitter}
  {taken left : List Bytes} {pdu : Bytes}

theorem Period.Stands.follows {entries sent rest : List ReportEntry} {period : Period}
    (stands : period.Stands encode sent rest kept)
    (split : entriesAfter period.start entries = sent ++ rest) : period.Follows encode entries := by
  unfold Follows
  rw [split]
  cases stands with
  | between counted segments =>
    rw [streamFrom_append, segments]
    exact prefix_append _ _
  | within report entry later overflows overflow part next identified announced counted encoded segments =>
    rw [next, announced, streamFrom_concat _ _ _ _ counted, segments, segmentsOf, encoded]
    simp only [Except.toOption, Option.getD_some, append_assoc]
    exact (prefix_append_right_inj _).mpr (prefix_append _ _)

/-- The period going on, the entries it is through with and those still ahead. -/
structure Running (encode : Encoder) (transmitter : Transmitter) (seen : Observer) (conn : ConnectionId)
    (period : Period) (earlier : List Period) (sent rest : List ReportEntry) : Prop where
  periods : seen.periods = period :: earlier
  closed : ∀ old ∈ earlier, old.Follows encode transmitter.buffer.entries
  conn : period.conn = conn
  split : entriesAfter period.start transmitter.buffer.entries = sent ++ rest
  point : transmitter.point = resumePoint period.start sent
  counted : seen.completed = period.firstSqNum + sent.length
  stands : period.Stands encode sent rest transmitter.partialReport

/-- The observer's view of a transmitter that has lost nothing. -/
structure Tracked (encode : Encoder) (transmitter : Transmitter) (seen : Observer) : Prop where
  encoder : transmitter.encode = encode
  point : seen.point = transmitter.point
  sqNum : transmitter.sqNum = UInt16.ofNat seen.completed
  isOpen : seen.isOpen = transmitter.holder.isSome
  stray : seen.stray = []
  closed : transmitter.holder = none → ∀ period ∈ seen.periods, period.Follows encode transmitter.buffer.entries
  running : ∀ conn, transmitter.holder = some conn →
    ∃ period earlier sent rest, Running encode transmitter seen conn period earlier sent rest

variable {transmitter : Transmitter} {seen : Observer} {conn : ConnectionId} {period : Period}
  {earlier : List Period} {sent rest : List ReportEntry}

theorem Running.follows (running : Running encode transmitter seen conn period earlier sent rest) :
    ∀ old ∈ seen.periods, old.Follows encode transmitter.buffer.entries := by
  rw [running.periods]
  intro old member
  rcases mem_cons.mp member with same | older
  · rw [same]
    exact running.stands.follows running.split
  · exact running.closed old older

theorem Running.pending (running : Running encode transmitter seen conn period earlier sent rest)
    (ordered : Ordered transmitter.buffer.entries) : transmitter.pending = rest := by
  rw [Transmitter.pending, running.point]
  exact entriesAfter_resumePoint ordered running.split

theorem Tracked.follows (tracked : Tracked encode transmitter seen) :
    ∀ period ∈ seen.periods, period.Follows encode transmitter.buffer.entries := by
  cases enabled : transmitter.holder with
  | none => exact tracked.closed enabled
  | some conn =>
    obtain ⟨period, earlier, sent, rest, running⟩ := tracked.running conn enabled
    exact running.follows

theorem Period.Stands.append (stands : period.Stands encode sent rest kept)
    (more : List ReportEntry) : period.Stands encode sent (rest ++ more) kept := by
  cases stands with
  | between counted segments => exact .between counted segments
  | within report entry later overflows overflow part next identified announced counted encoded segments =>
    exact .within report entry (later ++ more) overflows overflow part (by simp [next]) identified announced
      counted encoded segments

theorem Tracked.grow {buffer : InMemoryReportBuffer} {more : List ReportEntry}
    (tracked : Tracked encode transmitter seen) (grown : buffer.entries = transmitter.buffer.entries ++ more) :
    Tracked encode { transmitter with buffer } seen := by
  refine ⟨tracked.encoder, tracked.point, tracked.sqNum, tracked.isOpen, tracked.stray, ?_, ?_⟩
  · intro disabled period member
    simpa only [grown] using (tracked.closed disabled period member).append more
  · intro conn enabled
    obtain ⟨period, earlier, sent, rest, running⟩ := tracked.running conn enabled
    refine ⟨period, earlier, sent, rest ++ entriesAfter period.start more, running.periods, ?_, running.conn, ?_,
      running.point, running.counted, running.stands.append _⟩
    · intro old member
      simpa only [grown] using (running.closed old member).append more
    · rw [grown, entriesAfter_append, running.split, append_assoc]

theorem observe_pushEvents (buffer : InMemoryReportBuffer) (entry : ReportEntry) (seen : Observer) :
    (pushEvents buffer entry).foldl observe seen = seen := by
  unfold pushEvents
  split_ifs
  · rfl
  · rfl
  · rw [foldl_append, foldl_map]
    simp [observe]

theorem Tracked.of_disabled {after : Observer} (disabled : next.holder = none)
    (encoder : next.encode = encode) (point : after.point = next.point)
    (sqNum : next.sqNum = UInt16.ofNat after.completed) (isOpen : after.isOpen = false) (stray : after.stray = [])
    (closed : ∀ period ∈ after.periods, period.Follows encode next.buffer.entries) : Tracked encode next after :=
  ⟨encoder, point, sqNum, by simp [isOpen, disabled], stray, fun _ => closed, by simp [disabled]⟩

theorem Tracked.enable (tracked : Tracked encode transmitter seen) (disabled : transmitter.holder = none)
    (conn : ConnectionId) : Tracked encode { transmitter.forgotten with holder := some conn, overflowOnEnable := true }
      (seen.observe (.enabled conn)) := by
  refine ⟨tracked.encoder, tracked.point, tracked.sqNum, rfl, tracked.stray, by simp, ?_⟩
  intro holder enabled
  obtain rfl := Option.some.inj enabled
  refine ⟨_, seen.periods, [], transmitter.pending, rfl, ?_, rfl, ?_, tracked.point.symm, rfl, ?_⟩
  · simpa only [Transmitter.forgotten_entries] using tracked.closed disabled
  · simp only [Transmitter.forgotten_entries, nil_append, tracked.point]
    rfl
  · exact .between rfl rfl

theorem Period.Stands.inWithin {report : PartialReport} (stands : period.Stands encode sent rest (some report)) :
    ∃ entry later overflows overflow part, rest = entry :: later ∧ report.entry.1 = entry.entryId ∧
      period.overflows = overflows ++ [overflow] ∧ overflows.length = sent.length ∧
      encode period.conn (UInt16.ofNat (period.firstSqNum + sent.length)) overflow entry =
        .ok (part ++ report.rest) ∧
      period.segments = streamFrom (segmentsOf encode period.conn) period.firstSqNum overflows sent ++ part := by
  cases stands with
  | within _ entry later overflows overflow part next identified announced counted encoded segments =>
    exact ⟨entry, later, overflows, overflow, part, next, identified, announced, counted, encoded, segments⟩

theorem Period.Stands.inBetween (stands : period.Stands encode sent rest none) : period.overflows.length = sent.length ∧
      period.segments = streamFrom (segmentsOf encode period.conn) period.firstSqNum period.overflows sent := by
  cases stands with
  | between counted segments => exact ⟨counted, segments⟩

theorem Observer.observe_segments (pdus : List Bytes) (seen : Observer) (isOpen : seen.isOpen = true)
    (periods : seen.periods = period :: earlier) : (pdus.map Event.continued).foldl observe seen =
      { seen with periods := { period with segments := period.segments ++ pdus } :: earlier } := by
  induction pdus generalizing seen period with
  | nil => simp [← periods]
  | cons pdu pdus ih =>
    have accepted : seen.observe (.continued pdu) =
        { seen with periods := { period with segments := period.segments ++ [pdu] } :: earlier } := by
      simp [observe, segment, updatePeriod, isOpen, periods]
    rw [map_cons, foldl_cons, accepted, ih _ (by exact isOpen) rfl]
    simp

theorem Observer.observe_segmentEvents (id : EntryId) (overflow : Bool) (taken : List Bytes) (seen : Observer)
    (isOpen : seen.isOpen = true) (periods : seen.periods = period :: earlier) (some : taken ≠ []) :
    (segmentEvents id overflow taken).foldl observe seen =
      { seen with
        periods := { period with
          overflows := period.overflows ++ [overflow], segments := period.segments ++ taken } :: earlier } := by
  cases taken with
  | nil => exact absurd rfl some
  | cons pdu rest =>
    have accepted : seen.observe (.started id overflow pdu) =
        { seen with
          periods := { period with
            overflows := period.overflows ++ [overflow], segments := period.segments ++ [pdu] } :: earlier } := by
      simp [observe, segment, updatePeriod, isOpen, periods]
    rw [segmentEvents, foldl_cons, accepted, observe_segments rest _ (by exact isOpen) rfl]
    simp

theorem Period.Stands.begin {overflow : Bool} (stands : period.Stands encode sent rest none) (conn : ConnectionId)
    (time : UInt64) (next : rest = entry :: later)
    (encoded : encode period.conn (UInt16.ofNat (period.firstSqNum + sent.length)) overflow entry = .ok (taken ++ left))
      : ({ period with
        overflows := period.overflows ++ [overflow], segments := period.segments ++ taken } : Period).Stands encode
      sent rest (some { connId := conn, entry := (entry.entryId, time), rest := left }) := by
  obtain ⟨counted, segments⟩ := stands.inBetween
  refine .within _ entry later period.overflows overflow taken next rfl rfl counted encoded ?_
  simp only [segments]

section

variable (tracked : Tracked encode transmitter seen)

include tracked

theorem Tracked.encode_next (running : Running encode transmitter seen conn period earlier sent rest) :
    encode period.conn (UInt16.ofNat (period.firstSqNum + sent.length)) =
      transmitter.encode conn transmitter.sqNum := by
  rw [running.conn, ← running.counted, ← tracked.sqNum, tracked.encoder]

theorem Tracked.start (ordered : Ordered transmitter.buffer.entries) (enabled : transmitter.holder = some conn)
    (clear : transmitter.partialReport = none) (next : transmitter.pending = entry :: later)
    (encoded : transmitter.encode conn transmitter.sqNum transmitter.bufOvfl entry = .ok (pdu :: left)) : Tracked encode
      { transmitter.formatted entry.entryId with
        partialReport := some { connId := conn, entry := (entry.entryId, entry.timeOfEntryMs), rest := left } }
      (seen.observe (.started entry.entryId transmitter.bufOvfl pdu)) := by
  obtain ⟨period, earlier, sent, rest, running⟩ := tracked.running conn enabled
  have isOpen : seen.isOpen = true := by simp [tracked.isOpen, enabled]
  have observed := observe_segmentEvents entry.entryId transmitter.bufOvfl [pdu] seen isOpen
    running.periods (by simp)
  simp only [segmentEvents, map_nil, foldl_cons, foldl_nil] at observed
  rw [observed]
  refine ⟨tracked.encoder, tracked.point, tracked.sqNum, tracked.isOpen, tracked.stray, ?_, ?_⟩
  · intro disabled
    simp [Transmitter.formatted, enabled] at disabled
  · intro holder held
    obtain rfl : conn = holder := Option.some.inj (enabled.symm.trans held)
    have stands : period.Stands encode sent rest none := clear ▸ running.stands
    refine ⟨_, earlier, sent, rest, rfl, running.closed, running.conn, running.split, running.point,
      running.counted, stands.begin conn entry.timeOfEntryMs ((running.pending ordered).symm.trans next) ?_⟩
    rw [tracked.encode_next running]
    exact encoded

theorem Tracked.resume {report : PartialReport} (enabled : transmitter.holder = some report.connId)
    (kept : transmitter.partialReport = some report) (remaining : report.rest = pdu :: left) :
    Tracked encode { transmitter with partialReport := some { report with rest := left } }
      (seen.observe (.continued pdu)) := by
  obtain ⟨period, earlier, sent, rest, running⟩ := tracked.running _ enabled
  have isOpen : seen.isOpen = true := by simp [tracked.isOpen, enabled]
  have observed := observe_segments [pdu] seen isOpen running.periods
  simp only [map_cons, map_nil, foldl_cons, foldl_nil] at observed
  rw [observed]
  refine ⟨tracked.encoder, tracked.point, tracked.sqNum, tracked.isOpen, tracked.stray, by simp [enabled], ?_⟩
  intro holder held
  obtain rfl : report.connId = holder := Option.some.inj (enabled.symm.trans held)
  refine ⟨_, earlier, sent, rest, rfl, running.closed, running.conn, running.split, running.point,
    running.counted, ?_⟩
  obtain ⟨entry, later, overflows, overflow, part, next, identified, announced, counted, encoded, segments⟩ :=
    (kept ▸ running.stands).inWithin
  refine .within _ entry later overflows overflow (part ++ [pdu]) next identified announced counted ?_ ?_
  · simpa [remaining] using encoded
  · simp [segments]

theorem Tracked.complete {report : PartialReport} (enabled : transmitter.holder = some report.connId)
    (kept : transmitter.partialReport = some report) (finished : report.rest = []) : Tracked encode
      { transmitter with
        partialReport := none, point := some report.entry.1, sqNum := transmitter.sqNum + 1 }
      (seen.observe (.completed report.entry.1)) := by
  obtain ⟨period, earlier, sent, rest, running⟩ := tracked.running _ enabled
  have observed : seen.observe (.completed report.entry.1) =
      { seen with
        point := some report.entry.1, completed := seen.completed + 1
        periods := { period with completed := period.completed + 1 } :: earlier } := by
    simp [observe, updatePeriod, running.periods]
  rw [observed]
  refine ⟨tracked.encoder, rfl, ?_, tracked.isOpen, tracked.stray, by simp [enabled], ?_⟩
  · rw [tracked.sqNum, UInt16.ofNat_add]
    rfl
  · intro holder held
    obtain rfl : report.connId = holder := Option.some.inj (enabled.symm.trans held)
    obtain ⟨entry, later, overflows, overflow, part, next, identified, announced, counted, encoded, segments⟩ :=
      (kept ▸ running.stands).inWithin
    refine ⟨_, earlier, sent ++ [entry], later, rfl, running.closed, running.conn, ?_, ?_, ?_, ?_⟩
    · simp [running.split, next]
    · simp [identified]
    · simp [running.counted, Nat.add_assoc]
    · refine .between (by simp [announced, counted]) ?_
      simp only [announced]
      rw [streamFrom_concat _ _ _ _ counted, segments, segmentsOf, encoded]
      simp [finished, Except.toOption, streamFrom]

theorem Tracked.disable :
    Tracked encode { transmitter with holder := none, partialReport := kept } (seen.observe .disabled) :=
  .of_disabled rfl tracked.encoder tracked.point tracked.sqNum rfl tracked.stray tracked.follows

theorem Tracked.startLost (ordered : Ordered transmitter.buffer.entries) (enabled : transmitter.holder = some conn)
    (clear : transmitter.partialReport = none) (next : transmitter.pending = entry :: later)
    (encoded : transmitter.encode conn transmitter.sqNum transmitter.bufOvfl entry = .ok (taken ++ left)) :
    Tracked encode { transmitter with holder := none }
      ((segmentEvents entry.entryId transmitter.bufOvfl taken ++ [Event.disabled]).foldl observe seen) := by
  rw [foldl_append]
  by_cases unsent : taken = []
  · subst unsent
    exact tracked.disable
  obtain ⟨period, earlier, sent, rest, running⟩ := tracked.running conn enabled
  have isOpen : seen.isOpen = true := by simp [tracked.isOpen, enabled]
  rw [observe_segmentEvents _ _ _ _ isOpen running.periods unsent]
  have stands : period.Stands encode sent rest none := clear ▸ running.stands
  rw [← tracked.encode_next running] at encoded
  have begun := stands.begin conn entry.timeOfEntryMs ((running.pending ordered).symm.trans next) encoded
  refine .of_disabled rfl tracked.encoder tracked.point tracked.sqNum rfl tracked.stray ?_
  intro old member
  rcases mem_cons.mp member with same | older
  · rw [same]
    exact begun.follows running.split
  · exact running.closed old older

theorem Tracked.move {events : List Event} (move : Transmitter.Move transmitter events next)
    (lossless : ∀ event ∈ events, event.keepsEntries = true) (ordered : Ordered transmitter.buffer.entries)
    (encodable : ∀ entry ∈ transmitter.buffer.entries, ∀ conn sqNum bufOvfl, ∃ pdus, encode conn sqNum bufOvfl entry =
      .ok pdus) :
    Tracked encode next (events.foldl observe seen) := by
  cases move with
  | push entry =>
    rw [observe_pushEvents]
    exact tracked.grow (push_entries_of_keepsEntries lossless)
  | claim conn => exact tracked
  | resynchronize id disabled =>
    have closed : seen.isOpen = false := by simp [tracked.isOpen, disabled]
    exact .of_disabled disabled tracked.encoder rfl tracked.sqNum closed tracked.stray (tracked.closed disabled)
  | enable conn disabled => exact tracked.enable disabled conn
  | disable conn enabled => exact tracked.disable
  | forget disabled =>
    have closed : seen.isOpen = false := by simp [tracked.isOpen, disabled]
    refine .of_disabled disabled tracked.encoder tracked.point tracked.sqNum closed tracked.stray ?_
    rw [Transmitter.forgotten_entries]
    exact tracked.closed disabled
  | start conn entry later pdu rest enabled clear next encoded =>
    exact tracked.start ordered enabled clear next encoded
  | resume report pdu rest enabled kept left => exact tracked.resume enabled kept left
  | complete report enabled kept left => exact tracked.complete enabled kept left
  | lose conn enabled => exact tracked.disable
  | startLost conn entry later taken left enabled clear next encoded =>
    exact tracked.startLost ordered enabled clear next encoded
  | skip conn entry later error enabled clear next encoded =>
    have member : entry ∈ transmitter.buffer.entries :=
      (entriesAfter_sublist _ _).subset (by rw [← Transmitter.pending, next]; simp)
    obtain ⟨pdus, readable⟩ := encodable entry member conn transmitter.sqNum transmitter.bufOvfl
    rw [tracked.encoder, readable] at encoded
    cases encoded

end

/-- The buffer of a transmitter that has lost nothing holds every entry enqueued so far, and the
observer's periods follow the entries they owe. -/
theorem tracked_of_path {first last : Transmitter} {trace : List Event} (empty : first.buffer.entries = [])
    (tracked : Tracked encode first .initial) (path : Path Transmitter.Move first trace last)
    (lossFree : LossFree encode trace) :
    last.buffer.entries = enqueuedOf trace ∧ Tracked encode last (watch trace) := by
  have invariant := path.invariant
    (fun transmitter trace => LossFree encode trace →
      transmitter.buffer.entries = enqueuedOf trace ∧ Tracked encode transmitter (watch trace))
    ?_ [] (fun _ => ⟨empty, tracked⟩)
  · exact invariant lossFree
  · intro transmitter trace events next holds move lossFree
    obtain ⟨entries, tracked⟩ := holds lossFree.front
    have kept : ∀ event ∈ events, event.keepsEntries = true :=
      fun event member => lossFree.kept event (mem_append_right _ member)
    refine ⟨?_, ?_⟩
    · rw [move.entries_of_keepsEntries kept, entries, enqueuedOf_append]
    · rw [watch, foldl_append]
      refine tracked.move move kept ?_ ?_
      · rw [entries]
        exact lossFree.front.ordered
      · rw [entries]
        exact lossFree.front.encodable

end Delivery

end Iec61850.Reporting
