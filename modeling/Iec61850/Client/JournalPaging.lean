import Iec61850.Client.Journal
import Mathlib.Data.List.TakeWhile

/-!
Reading a journal page by page: the loop stops, and it returns the entries the query selects exactly
when every request of it can be sent and every cut of the pages lets through the entries behind it.
-/

namespace Iec61850.Client.Journal

open Concurrency List Mms Model Service Wire.Paging JournalQuery JournalSelection
open Reporting (epoch1984Ms maxBinaryTime6Ms)

def JournalQuery.selection (query : JournalQuery) : JournalSelection :=
  fromRequest (carriedRequest (buildWireRequest "" "" query))

def Peer.Fits (peer : Peer) (page : List WireJournalEntry) : Prop :=
  pageCharge page ≤ readJournalBudget peer.negotiatedMaxPduSize

/-- Each part of the name of the log has a length of one octet. -/
def Addressable (domain item : String) : Prop := stringLen domain < 128 ∧ stringLen item < 128

def Peer.Sends (peer : Peer) (domain item : String) (number : Nat) (query : JournalQuery) : Prop :=
  (encodeConfirmedReadJournalRequest (peer.invokeId number) (buildWireRequest domain item query)).length ≤
    peer.maxRequestSize

variable (ms : UInt64) (last entry : WireJournalEntry)

/-- The test a cursor at the entry `last` puts on the times of the entries behind it. -/
def resumesAt : Bool := carriedMs last.occurenceTimeMs ≤ entry.occurenceTimeMs

theorem carriedMs_mono {left right : UInt64} (ordered : left ≤ right) : carriedMs left ≤ carriedMs right := by
  rw [UInt64.le_iff_toNat_le] at ordered ⊢
  rw [carriedMs_toNat, carriedMs_toNat]
  omega

theorem epoch_le_carriedMs : epoch1984Ms ≤ (carriedMs ms).toNat := by
  have range : epoch1984Ms ≤ maxBinaryTime6Ms := by decide
  rw [carriedMs_toNat]
  omega

theorem carriedMs_carriedMs : carriedMs (carriedMs ms) = carriedMs ms := by
  apply UInt64.toNat_inj.mp
  rw [carriedMs_toNat (carriedMs ms), carriedMs_toNat ms]
  omega

theorem carriedMs_le {ms : UInt64} (late : epoch1984Ms ≤ ms.toNat) : carriedMs ms ≤ ms := by
  rw [UInt64.le_iff_toNat_le, carriedMs_toNat]
  omega

@[simp] theorem receivedEntry_entryId : (receivedEntry entry).entryId = entry.entryId := by
  cases entry
  rfl

@[simp] theorem receivedEntry_timeMs : (receivedEntry entry).timeMs = carriedMs entry.occurenceTimeMs := by
  rfl

/-! The client's own filters pass what the server sends. -/

variable {page : List ClientJournalEntry} {selection : JournalSelection} {wire : WireJournalEntry}

theorem behindCursor_eq {cursor : Option JournalCursor}
    (absent : ∀ known ∈ cursor, ∀ entry ∈ page, entry.entryId ≠ known.entryId) : behindCursor cursor page = page := by
  cases cursor with
  | none => rfl
  | some known =>
    unfold behindCursor
    dsimp only
    rw [takeWhile_eq_self_iff.mpr, reverse_reverse]
    intro entry member
    exact decide_eq_true (absent known rfl entry (mem_reverse.mp member))

theorem retainNew_eq {received : List UInt64}
    (fresh : ∀ entry ∈ page, entry.entryId ∉ received)
    (distinct : page.Pairwise fun left right => left.entryId ≠ right.entryId) :
    retainNew received page = ((page.map ClientJournalEntry.entryId).reverse ++ received, page) := by
  induction page generalizing received with
  | nil => rfl
  | cons entry rest ih =>
    obtain ⟨others, distinct⟩ := pairwise_cons.mp distinct
    have later : ∀ other ∈ rest, other.entryId ∉ entry.entryId :: received := by
      intro other member known
      obtain same | known := mem_cons.mp known
      · exact others other member same.symm
      · exact fresh other (mem_cons_of_mem _ member) known
    rw [retainNew, if_neg (fresh entry mem_cons_self), ih later distinct]
    simp

theorem dropPastEnd_eq {endMs : UInt64} (early : ∀ entry ∈ page, entry.timeMs ≤ endMs) :
    dropPastEnd endMs page = (page, false) := by
  have kept : (page.filter fun entry => entry.timeMs ≤ endMs) = page :=
    filter_eq_self.mpr fun entry member => decide_eq_true (early entry member)
  unfold dropPastEnd
  rw [kept]
  simp

theorem toWire_fields {entry : JournalEntry} (sent : selection.toWire entry = some wire) :
    wire.entryId = entry.entryId ∧ wire.occurenceTimeMs = entry.timeMs := by
  unfold toWire at sent
  dsimp only at sent
  split at sent
  · cases sent
    exact ⟨rfl, rfl⟩
  · cases sent

theorem toWire_congr {other : JournalSelection} (same : other.listOfVariables = selection.listOfVariables)
    (entry : JournalEntry) : other.toWire entry = selection.toWire entry := by
  unfold toWire
  rw [same]

theorem mem_selected {log : List JournalEntry} (member : wire ∈ selection.selected log) :
    ∃ entry, selection.Admitted entry ∧ entry.entryId = wire.entryId ∧ entry.timeMs = wire.occurenceTimeMs := by
  obtain ⟨entry, walked, sent⟩ := mem_filterMap.mp member
  obtain ⟨sameId, sameTime⟩ := toWire_fields sent
  exact ⟨entry, admits_iff.mp (of_mem_filter walked), sameId.symm, sameTime.symm⟩

theorem selected_ascending {log : List JournalEntry}
    (ascending : log.Pairwise fun left right => left.entryId < right.entryId)
    (selection : JournalSelection) :
    (selection.selected log).Pairwise fun left right => left.entryId < right.entryId := by
  refine List.Pairwise.filterMap _ ?_ (ascending.filter _)
  intro left right ordered wire sent wire' sent'
  rw [(toWire_fields sent).1, (toWire_fields sent').1]
  exact ordered

theorem selected_of_stricter {selection other : JournalSelection} {passes : WireJournalEntry → Bool}
    (same : other.listOfVariables = selection.listOfVariables)
    (stricter : ∀ entry wire, selection.toWire entry = some wire → (other.admits entry = true ↔ selection.admits entry =
      true ∧ passes wire = true)) (log : List JournalEntry) :
    other.selected log = (selection.selected log).filter passes := by
  induction log with
  | nil => rfl
  | cons entry rest ih =>
    cases sent : selection.toWire entry with
    | none =>
      have alsoNone : other.toWire entry = none := by rw [toWire_congr same, sent]
      rw [selected_cons_of_none sent, selected_cons_of_none alsoNone, ih]
    | some wire =>
      have alsoSent : other.toWire entry = some wire := by rw [toWire_congr same, sent]
      by_cases admitted : selection.admits entry = true
      · rw [selected_cons_of_some admitted sent, filter_cons]
        split
        · rename_i passed
          rw [selected_cons_of_some ((stricter entry wire sent).mpr ⟨admitted, passed⟩) alsoSent, ih]
        · rename_i refused
          rw [selected_cons_of_not_admits, ih]
          exact fun admitted => refused ((stricter entry wire sent).mp admitted).2
      · rw [selected_cons_of_not_admits admitted, selected_cons_of_not_admits, ih]
        exact fun passed => admitted ((stricter entry wire sent).mp passed).1

theorem selection_after (query : JournalQuery) :
    query.selection.after = query.after.map fun cursor => (carriedMs cursor.timeMs, cursor.entryId) := by
  unfold selection fromRequest carriedRequest buildWireRequest
  cases query.after <;> rfl

theorem selection_limit (query : JournalQuery) :
    query.selection.limit.map UInt32.toNat = query.maxEntries.map (min · 0x7fffffff) := by
  unfold selection fromRequest carriedRequest buildWireRequest maxEntries
  cases query.stop with
  | none => rfl
  | some stop =>
    cases stop with
    | time ms => rfl
    | count number =>
      simp only [Option.map_some, carriedCount, UInt32.le_iff_toNat_le]
      have most : (0x7fffffff : UInt32).toNat = 0x7fffffff := rfl
      rw [most]
      split
      · rename_i small
        rw [Nat.min_eq_left small]
      · rename_i large
        rw [Nat.min_eq_right (Nat.le_of_not_le large), most]

theorem selection_endTime (query : JournalQuery) : query.selection.endTime = query.endMs.map carriedMs := by
  unfold selection fromRequest carriedRequest buildWireRequest endMs
  cases query.stop with
  | none => rfl
  | some stop => cases stop <;> rfl

/-- The query that goes on behind the entry `last` after so many entries. -/
def JournalQuery.resume (query : JournalQuery) (last : WireJournalEntry) (received : Nat) : JournalQuery :=
  { query with
    after := some ⟨carriedMs last.occurenceTimeMs, last.entryId⟩
    stop := query.stop.map (JournalStop.less received) }

theorem continuation_page (query : JournalQuery) (front : List WireJournalEntry) (last : WireJournalEntry) :
    query.continuation ((front ++ [last]).map receivedEntry) = some (query.resume last (front ++ [last]).length) := by
  unfold continuation
  rw [map_append, map_singleton, getLast?_concat]
  simp only [Option.map_some, length_append, length_map, length_singleton, receivedEntry_timeMs,
    receivedEntry_entryId, withEntryToStartAfter, resume]

theorem endMs_resume (query : JournalQuery) (last : WireJournalEntry) (received : Nat) :
    (query.resume last received).endMs = query.endMs := by
  unfold resume endMs
  cases query.stop with
  | none => rfl
  | some stop => cases stop <;> rfl

theorem maxEntries_resume (query : JournalQuery) (last : WireJournalEntry) {received : Nat}
    (fewer : ∀ count ∈ query.maxEntries, received < count) :
    (query.resume last received).maxEntries = query.maxEntries.map (· - received) := by
  unfold resume maxEntries at *
  cases stop : query.stop with
  | none => rfl
  | some stop' =>
    cases stop' with
    | time ms => rfl
    | count number =>
      rw [stop] at fewer
      have short : received < number.toNat := fewer _ rfl
      have bound := number.toNat_lt
      simp only [Option.map_some, JournalStop.less]
      rw [UInt32.toNat_ofNat', Nat.min_eq_left (by simp only [UInt32.size]; omega), Nat.mod_eq_of_lt (by omega)]

theorem less_less (stop : JournalStop) (received more : Nat) :
    (stop.less received).less more = stop.less (received + more) := by
  cases stop with
  | time ms => rfl
  | count number =>
    have bound := number.toNat_lt
    simp only [JournalStop.less, UInt32.toNat_ofNat', UInt32.size]
    rw [Nat.mod_eq_of_lt (by omega)]
    congr 2
    omega

theorem resume_resume (query : JournalQuery) (last later : WireJournalEntry) (received more : Nat) :
    (query.resume last received).resume later more = query.resume later (received + more) := by
  simp only [resume, Option.map_map, Function.comp_def, less_less]

theorem selected_resume {log : List JournalEntry}
    (ascending : log.Pairwise fun left right => left.entryId < right.entryId) {query : JournalQuery}
    {front rest : List WireJournalEntry} {last : WireJournalEntry}
    (selected : query.selection.selected log = front ++ [last] ++ rest) (received : Nat) :
    (query.resume last received).selection.selected log = rest.filter (resumesAt last) := by
  have ordered := selected_ascending ascending query.selection
  have present : last ∈ query.selection.selected log := by simp [selected]
  obtain ⟨entry, admitted, sameId, sameTime⟩ := mem_selected present
  have admits (other : JournalEntry) (wire : WireJournalEntry) (sent : query.selection.toWire other = some wire) :
      (query.resume last received).selection.admits other = true ↔
        query.selection.admits other = true ∧ (last.entryId < wire.entryId && resumesAt last wire) = true := by
    obtain ⟨wireId, wireTime⟩ := toWire_fields sent
    rw [admits_iff, admits_iff, Bool.and_eq_true, decide_eq_true_iff, resumesAt,
      decide_eq_true_iff, wireId, wireTime]
    have resumed : (query.resume last received).selection.after =
        some (carriedMs last.occurenceTimeMs, last.entryId) := by
      rw [selection_after]
      exact congrArg some (Prod.ext (carriedMs_carriedMs _) rfl)
    have ended : (query.resume last received).selection.endTime = query.selection.endTime := by
      rw [selection_endTime, selection_endTime, endMs_resume]
    constructor
    · intro behind
      obtain ⟨later, notOlder⟩ := behind.behind _ resumed
      refine ⟨⟨behind.started, behind.reached, by rw [← ended]; exact behind.ended, ?_⟩, later, notOlder⟩
      -- the new cursor is behind the old one, whose time was carried
      intro cursor found
      obtain ⟨passed, old⟩ := admitted.behind cursor found
      rw [selection_after] at found
      obtain ⟨original, _, rfl⟩ := Option.map_eq_some_iff.mp found
      refine ⟨UInt64.lt_trans passed (by rwa [sameId]), ?_⟩
      have carried := carriedMs_mono old
      rw [carriedMs_carriedMs, sameTime] at carried
      exact UInt64.le_trans carried notOlder
    · rintro ⟨before, later, notOlder⟩
      refine ⟨before.started, before.reached, by rw [ended]; exact before.ended, ?_⟩
      intro cursor found
      rw [resumed] at found
      cases found
      exact ⟨later, notOlder⟩
  rw [selected] at ordered
  obtain ⟨before, _, across⟩ := pairwise_append.mp ordered
  rw [@selected_of_stricter query.selection (query.resume last received).selection _ rfl admits log, selected,
    filter_append]
  have dropped : ((front ++ [last]).filter fun wire => last.entryId < wire.entryId && resumesAt last wire) = [] := by
    refine filter_eq_nil_iff.mpr ?_
    intro wire member passed
    have later := decide_eq_true_iff.mp (Bool.and_eq_true_iff.mp passed).1
    obtain earlier | same := mem_append.mp member
    · exact UInt64.lt_irrefl _ (UInt64.lt_trans later ((pairwise_append.mp before).2.2 wire earlier last mem_cons_self))
    · rw [mem_singleton.mp same] at later
      exact UInt64.lt_irrefl _ later
  rw [dropped, nil_append]
  refine filter_congr ?_
  intro wire member
  rw [decide_eq_true (across last (by simp) wire member), Bool.true_and]

theorem Peer.Fits.short {peer : Peer} {page : List WireJournalEntry} (fits : peer.Fits page) :
    page.length < 0x7fffffff := by
  have sized : 3 * page.length ≤ pageCharge page := by
    clear fits
    induction page with
    | nil => exact Nat.zero_le _
    | cons entry rest ih =>
      have whole := pageCharge_append [entry] rest
      have large := encode_length_le_estimate entry
      have framed : 3 ≤ entry.encode.length := by
        have origin : originatingApplicationFixed.length = 4 := rfl
        rw [WireJournalEntry.encode, encodeTlv_length, length_append, length_append, origin]
        omega
      rw [singleton_append, pageCharge_singleton] at whole
      rw [length_cons]
      omega
  have budget : readJournalBudget peer.negotiatedMaxPduSize < 2 ^ 32 := by
    unfold readJournalBudget
    split
    · rename_i max _
      have bound := max.toNat_lt
      omega
    · decide
  unfold Peer.Fits at fits
  omega

theorem fits_closed (peer : Peer) : Wire.Packing.PrefixClosed fun _ : Nat => peer.Fits :=
  fits_prefixClosed (readJournalBudget peer.negotiatedMaxPduSize)

section

variable {peer : Peer} {logRef domain item : String} {control : LogControl} {log : List JournalEntry}
  {query next : JournalQuery} {number : Nat} {reading : Reading} {items : List WireJournalEntry}

theorem queryJournal_unsent (parsed : parseJournalRef logRef = .ok (domain, item))
    (unsent : ¬ (Addressable domain item ∧ peer.Sends domain item number next)) :
    ∃ failure, queryJournal peer logRef next number = .error failure := by
  unfold queryJournal
  rw [parsed]
  dsimp only
  split
  · exact ⟨_, rfl⟩
  rename_i sent
  have long : 128 ≤ stringLen domain ∨ 128 ≤ stringLen item := by
    by_contra short
    rw [not_or, Nat.not_le, Nat.not_le] at short
    exact unsent ⟨short, Nat.not_lt.mp sent⟩
  have truncated : receivedRequest (buildWireRequest domain item next) = .error .truncatedPdu :=
    if_pos long
  rw [truncated]
  exact ⟨_, rfl⟩

theorem queryJournal_page (parsed : parseJournalRef logRef = .ok (domain, item))
    (resolved : peer.registry.resolveJournal domain item = some control)
    (stored : control.storage = some ⟨.ok log⟩) (addressable : Addressable domain item)
    (sent : peer.Sends domain item number next) :
    ∃ page more, queryJournal peer logRef next number = .ok (page.map receivedEntry, more) ∧
      Page peer.Fits next.maxEntries (next.selection.selected log) page more := by
  let request := carriedRequest (buildWireRequest domain item next)
  have found : peer.registry.resolveJournal request.domainId request.itemId = some control := resolved
  obtain ⟨page, more, answered, paged⟩ := answerReadJournal_page found stored peer.negotiatedMaxPduSize
  refine ⟨page, more, ?_, ?_⟩
  · have received : receivedRequest (buildWireRequest domain item next) = .ok request :=
      if_neg (not_or.mpr ⟨Nat.not_le.mpr addressable.1, Nat.not_le.mpr addressable.2⟩)
    unfold queryJournal
    rw [parsed]
    dsimp only
    rw [if_neg (Nat.not_lt.mpr sent), received, answered]
    rfl
  · have limited : Page peer.Fits (next.maxEntries.map (min · 0x7fffffff)) (next.selection.selected log) page more := by
      rw [← selection_limit]
      exact paged
    cases most : next.maxEntries with
    | none =>
      rw [most] at limited
      exact limited
    | some count =>
      rw [most] at limited
      exact limited.of_short limited.holds.short

/-- Between two requests: the entries still selected are behind all that were received. -/
structure Resumes (log : List JournalEntry) (query : JournalQuery) (reading : Reading) (items : List WireJournalEntry) :
    Prop where
  selected : reading.next.selection.selected log = items
  limit : reading.next.maxEntries = query.maxEntries.map (· - reading.all.length)
  fresh : ∀ known ∈ reading.received, ∀ entry ∈ items, known < entry.entryId

theorem Resumes.begin (log : List JournalEntry) (query : JournalQuery) :
    Resumes log query (.begin query) (query.selection.selected log) := by
  refine ⟨rfl, ?_, fun known member => absurd member not_mem_nil⟩
  change query.maxEntries = query.maxEntries.map fun count => count - 0
  cases query.maxEntries <;> rfl

def Reading.known (reading : Reading) (page : List WireJournalEntry) : List UInt64 :=
  (page.map WireJournalEntry.entryId).reverse ++ reading.received

variable {page : List WireJournalEntry} {endMs : UInt64}

theorem Resumes.keepNewEntries (resumes : Resumes log query reading items)
    (ascending : log.Pairwise fun left right => left.entryId < right.entryId) (part : page.Sublist items) :
    keepNewEntries reading.next.after reading.received (page.map receivedEntry) =
      (reading.known page, page.map receivedEntry) := by
  have ordered := (selected_ascending ascending reading.next.selection).sublist (resumes.selected ▸ part)
  have absent : ∀ cursor ∈ reading.next.after, ∀ entry ∈ page.map receivedEntry, entry.entryId ≠ cursor.entryId := by
    intro cursor found entry member same
    obtain ⟨wire, sent, rfl⟩ := mem_map.mp member
    obtain ⟨stored, admitted, sameId, _⟩ := mem_selected (resumes.selected ▸ part.subset sent)
    have behind := (admitted.behind (carriedMs cursor.timeMs, cursor.entryId) (by rw [selection_after, found]; rfl)).1
    rw [sameId, ← receivedEntry_entryId, same] at behind
    exact UInt64.lt_irrefl _ behind
  unfold Journal.keepNewEntries
  rw [behindCursor_eq absent, retainNew_eq]
  · have ids : ClientJournalEntry.entryId ∘ receivedEntry = WireJournalEntry.entryId := funext receivedEntry_entryId
    rw [map_map, ids, Reading.known]
  · intro entry member known
    obtain ⟨wire, sent, rfl⟩ := mem_map.mp member
    rw [receivedEntry_entryId] at known
    exact UInt64.lt_irrefl _ (resumes.fresh _ known wire (part.subset sent))
  · refine pairwise_map.mpr (ordered.imp ?_)
    intro left right before same
    rw [receivedEntry_entryId, receivedEntry_entryId] at same
    exact UInt64.ne_of_lt before same

def KeptByEnd (query : JournalQuery) (items : List WireJournalEntry) : Prop :=
  ∀ endMs ∈ query.endMs, ∀ entry ∈ items, carriedMs entry.occurenceTimeMs ≤ endMs

theorem Resumes.turn (resumes : Resumes log query reading items)
    (ascending : log.Pairwise fun left right => left.entryId < right.entryId)
    (kept : KeptByEnd query items) {more : Bool}
    (paged : Page peer.Fits reading.next.maxEntries items page more)
    (answered : queryJournal peer logRef reading.next reading.number =
      .ok (page.map receivedEntry, more)) :
    queryJournalTurn peer logRef query reading =
      if !more || query.maxEntries.any fun max => max ≤ reading.all.length + page.length then
        .returned { reading with received := reading.known page } (.ok (reading.all ++ page.map receivedEntry))
      else
        match reading.next.continuation (page.map receivedEntry) with
        | none => .returned { reading with received := reading.known page } (.error .journalNotAdvancing)
        | some next =>
          .again ⟨reading.all ++ page.map receivedEntry, reading.known page, next, reading.number + 1⟩ := by
  have fresh := resumes.keepNewEntries ascending paged.sublist
  have ended : (query.endMs.elim (page.map receivedEntry, false) fun endMs =>
      dropPastEnd endMs (page.map receivedEntry)) = (page.map receivedEntry, false) := by
    cases stop : query.endMs with
    | none => rfl
    | some endMs =>
      refine dropPastEnd_eq ?_
      intro entry member
      obtain ⟨wire, sent, rfl⟩ := mem_map.mp member
      rw [receivedEntry_timeMs]
      exact kept endMs stop wire (paged.sublist.subset sent)
  have counted : (query.maxEntries.elim (page.map receivedEntry) fun max =>
    (page.map receivedEntry).take (max - reading.all.length)) = page.map receivedEntry := by
    cases most : query.maxEntries with
    | none => rfl
    | some max =>
      refine take_of_length_le ?_
      rw [length_map]
      exact paged.length_le _ (by rw [resumes.limit, most]; rfl)
  unfold queryJournalTurn
  rw [answered]
  dsimp only
  rw [fresh]
  dsimp only
  rw [ended]
  dsimp only
  rw [counted]
  cases reading.next.continuation (page.map receivedEntry) <;> simp only [Bool.or_false, length_map]

theorem Resumes.resume {front later : List WireJournalEntry} {last first : WireJournalEntry}
    (resumes : Resumes log query reading (front ++ [last] ++ first :: later))
    (ascending : log.Pairwise fun left right => left.entryId < right.entryId)
    (room : ∀ count ∈ reading.next.maxEntries, (front ++ [last]).length < count) : Resumes log query
      ⟨reading.all ++ (front ++ [last]).map receivedEntry, reading.known (front ++ [last]),
        reading.next.resume last (front ++ [last]).length, reading.number + 1⟩
      ((first :: later).filter (resumesAt last)) := by
  refine ⟨selected_resume ascending resumes.selected _, ?_, ?_⟩
  · have received : (reading.all ++ (front ++ [last]).map receivedEntry).length =
        reading.all.length + (front ++ [last]).length := by
      rw [length_append, length_map]
    dsimp only
    rw [maxEntries_resume _ _ room, resumes.limit, Option.map_map, received]
    congr 1
    funext count
    exact Nat.sub_sub _ _ _
  · intro known member entry behind
    replace behind := mem_of_mem_filter behind
    have ordered := selected_ascending ascending reading.next.selection
    rw [resumes.selected] at ordered
    obtain page | before := mem_append.mp member
    · obtain ⟨wire, sent, rfl⟩ := mem_map.mp (mem_reverse.mp page)
      exact (pairwise_append.mp ordered).2.2 wire sent entry behind
    · exact resumes.fresh known before entry (mem_append_right _ behind)

/-- What a reading that found `result` behind the entries it had returns. -/
def Returns (all : List ClientJournalEntry) (outcome : Except ClientError (List ClientJournalEntry)) :
    (result : Option (List WireJournalEntry)) → Prop
  | some read => outcome = .ok (all ++ read.map receivedEntry)
  | none => ∃ failure, outcome = .error failure

theorem turn_unsent (parsed : parseJournalRef logRef = .ok (domain, item))
    (unsent : ¬ (Addressable domain item ∧ peer.Sends domain item reading.number reading.next)) :
    ∃ failure, queryJournalTurn peer logRef query reading = .returned reading (.error failure) := by
  obtain ⟨failure, failed⟩ := queryJournal_unsent parsed unsent
  unfold queryJournalTurn
  rw [failed]
  exact ⟨failure, rfl⟩

theorem Resumes.reads (parsed : parseJournalRef logRef = .ok (domain, item))
    (resolved : peer.registry.resolveJournal domain item = some control)
    (stored : control.storage = some ⟨.ok log⟩) (addressable : Addressable domain item)
    (ascending : log.Pairwise fun left right => left.entryId < right.entryId)
    (resumes : Resumes log query reading items) (kept : KeptByEnd query items)
    (alone : ∀ entry ∈ items, peer.Fits [entry])
    (sent : peer.Sends domain item reading.number reading.next) :
    ∃ requests final outcome result,
      Turn.loop (queryJournalTurn peer logRef query) requests reading = .returned final outcome ∧
        Returns reading.all outcome result ∧
        Reads peer.Fits resumesAt (fun pages received last =>
            peer.Sends domain item (reading.number + pages) (reading.next.resume last received))
          reading.next.maxEntries items result := by
  induction size : items.length using Nat.strong_induction_on generalizing reading items with
  | _ length ih =>
    obtain ⟨page, more, answered, paged⟩ := queryJournal_page parsed resolved stored addressable sent
    rw [resumes.selected] at paged
    have turned := resumes.turn ascending kept paged answered
    cases paged with
    | whole holds =>
      exact ⟨1, _, _, some _, Turn.loop_returned turned, rfl, .last holds⟩
    | @cut page later first holds full room =>
      have nonempty : page ≠ [] := by
        rintro rfl
        exact full (alone first (by simp))
      obtain ⟨front, last, rfl⟩ := (eq_nil_or_concat' page).resolve_left nonempty
      have open_ : (query.maxEntries.any fun max => max ≤ reading.all.length + (front ++ [last]).length) = false := by
        rw [resumes.limit] at room
        cases most : query.maxEntries with
        | none => rfl
        | some max =>
          have short := room (max - reading.all.length) (by rw [most]; rfl)
          rw [Option.any_some, decide_eq_false_iff_not]
          omega
      rw [open_, continuation_page] at turned
      by_cases asked :
        peer.Sends domain item (reading.number + 1) (reading.next.resume last (front ++ [last]).length)
      swap
      · -- the request for the next page is too large
        obtain ⟨failure, failed⟩ := @turn_unsent peer logRef domain item query
          ⟨_, _, reading.next.resume last (front ++ [last]).length, reading.number + 1⟩ parsed
          fun both => asked both.2
        exact ⟨2, _, _, none, (Turn.loop_again turned).trans (Turn.loop_returned failed), ⟨failure, rfl⟩,
          .stuck holds full room asked⟩
      have resumed := resumes.resume ascending room
      have shorter : ((first :: later).filter (resumesAt last)).length < length := by
        have fewer := length_filter_le (resumesAt last) (first :: later)
        rw [← size, length_append, length_append, length_singleton]
        omega
      have inside : ∀ entry ∈ (first :: later).filter (resumesAt last), entry ∈ front ++ [last] ++ first :: later :=
        fun entry member => mem_append_right _ (mem_of_mem_filter member)
      obtain ⟨requests, final, outcome, result, looped, returns, rest⟩ := ih _ shorter resumed
        (fun endMs stop entry member => kept endMs stop entry (inside entry member))
        (fun entry member => alone entry (inside entry member)) asked rfl
      refine ⟨requests + 1, final, outcome, result.map (front ++ [last] ++ ·), ?_, ?_, ?_⟩
      · rw [Turn.loop_again turned, looped]
      · cases result with
        | none => exact returns
        | some read => simpa only [Returns, Option.map_some, map_append, append_assoc] using returns
      · simp only [maxEntries_resume _ _ room, resume_resume, Nat.add_assoc, Nat.add_comm 1] at rest
        exact .more holds full room asked rest

theorem maxEntries_of_endMs (stop : query.endMs = some endMs) : query.maxEntries = none := by
  unfold JournalQuery.endMs at stop
  unfold maxEntries
  split at stop
  · rename_i stopped
    rw [stopped]
  · cases stop

/-- Instants before 1984 are past an end before 1984, and the client returns none of them. -/
theorem turn_of_early_end (parsed : parseJournalRef logRef = .ok (domain, item))
    (resolved : peer.registry.resolveJournal domain item = some control)
    (stored : control.storage = some ⟨.ok log⟩) (addressable : Addressable domain item)
    (sent : peer.Sends domain item 0 query)
    (ascending : log.Pairwise fun left right => left.entryId < right.entryId)
    (alone : ∀ entry ∈ query.selection.selected log, peer.Fits [entry]) (stop : query.endMs = some endMs)
    (early : endMs.toNat < epoch1984Ms) (some_ : query.selection.selected log ≠ []) :
    ∃ final, queryJournalTurn peer logRef query (.begin query) = .returned final (.ok []) := by
  have uncounted := maxEntries_of_endMs stop
  obtain ⟨page, more, answered, paged⟩ := queryJournal_page parsed resolved stored addressable sent
  have fresh := (Resumes.begin log query).keepNewEntries ascending paged.sublist
  have nonempty : page ≠ [] := by
    rintro rfl
    generalize selected : query.selection.selected log = items at *
    rw [uncounted] at paged
    cases paged with
    | whole holds => exact some_ rfl
    | @cut _ later first holds full room => exact full (alone first (by simp))
  have dropped : dropPastEnd endMs (page.map receivedEntry) = ([], true) := by
    have none : ((page.map receivedEntry).filter fun entry => entry.timeMs ≤ endMs) = [] := by
      refine filter_eq_nil_iff.mpr ?_
      intro entry member before
      obtain ⟨wire, sent, rfl⟩ := mem_map.mp member
      rw [receivedEntry_timeMs, decide_eq_true_iff, UInt64.le_iff_toNat_le] at before
      have late := epoch_le_carriedMs wire.occurenceTimeMs
      omega
    unfold dropPastEnd
    rw [none]
    simpa [length_pos_iff] using nonempty
  refine ⟨⟨[], (Reading.begin query).known page, query, 0⟩, ?_⟩
  unfold queryJournalTurn
  rw [show (Reading.begin query).next = query from rfl, show (Reading.begin query).number = 0 from rfl,
    answered]
  dsimp only
  rw [show keepNewEntries query.after (Reading.begin query).received (page.map receivedEntry) = _ from fresh]
  dsimp only
  rw [stop, Option.elim_some, dropped, uncounted]
  simp [Reading.begin]

theorem map_receivedEntry_inj {items left right : List WireJournalEntry}
    (ordered : items.Pairwise fun first second => first.entryId < second.entryId) (leftPart : left ⊆ items)
    (rightPart : right ⊆ items) : left.map receivedEntry = right.map receivedEntry ↔ left = right := by
  have distinct : (items.map WireJournalEntry.entryId).Nodup :=
    pairwise_map.mpr (ordered.imp fun before => UInt64.ne_of_lt before)
  refine ⟨fun same => ?_, congrArg _⟩
  induction left generalizing right with
  | nil =>
    rw [map_nil, eq_comm, map_eq_nil_iff] at same
    exact same.symm
  | cons first left ih =>
    cases right with
    | nil => cases same
    | cons second right =>
      obtain ⟨head, tail⟩ := cons_eq_cons.mp same
      have sameId := congrArg ClientJournalEntry.entryId head
      rw [receivedEntry_entryId, receivedEntry_entryId] at sameId
      rw [inj_on_of_nodup_map distinct (leftPart mem_cons_self) (rightPart mem_cons_self) sameId]
      rw [ih (subset_of_cons_subset leftPart) (subset_of_cons_subset rightPart) tail]

end

theorem Returns.ok_iff {items exact : List WireJournalEntry}
    {outcome : Except ClientError (List ClientJournalEntry)} {result : Option (List WireJournalEntry)}
    (returns : Returns [] outcome result)
    (ordered : items.Pairwise fun first second => first.entryId < second.entryId)
    (part : ∀ read, result = some read → read ⊆ items) (exactPart : exact ⊆ items) :
    outcome = .ok (exact.map receivedEntry) ↔ result = some exact := by
  cases result with
  | none =>
    obtain ⟨failure, rfl⟩ := returns
    exact iff_of_false nofun nofun
  | some read =>
    rw [show outcome = .ok (read.map receivedEntry) from returns, Except.ok.injEq, Option.some_inj]
    exact map_receivedEntry_inj ordered (part read rfl) exactPart

/-- A log whose clock stepped back by a second between its two entries. -/
def steppedBackLog : List JournalEntry := [⟨1, 1700000001000, []⟩, ⟨2, 1700000000000, []⟩]

def steppedBackControl : LogControl := ⟨some "IED1LD0/LLN0$GeneralLog", some ⟨.ok steppedBackLog⟩⟩

/-- A response of a hundred octets has room for one of the entries. -/
def steppedBackPeer : Peer where
  registry := [(("IED1LD0", "LLN0$LG$lcb1"), steppedBackControl)]
  negotiatedMaxPduSize := some 100
  maxRequestSize := 100
  invokeId number := UInt32.ofNat (number + 1)

def returnedEntries : Turn Reading (Except ClientError (List ClientJournalEntry)) → Option (List ClientJournalEntry)
  | .returned _ (.ok entries) => some entries
  | _ => none

end Iec61850.Client.Journal
