import Iec61850.Goose.Subscriber
import Mathlib.Data.List.Dedup
import Mathlib.Data.List.Perm.Subperm

/-!
The Sampled Values subscriber: what it counts as missed and as repeated samples.
-/

namespace Iec61850.Sv

open List

inductive SmpMod where
  | perNominalPeriod
  | samplesPerSecond
  | secondsPerSample
  | unknown (value : UInt16)
deriving DecidableEq, Repr

structure SvSubscriberAsdu where
  svId : String
  smpCnt : UInt16
  smpRate : Option UInt16 := none
  smpMod : Option SmpMod := none
  sample : List UInt8 := []
deriving Repr

structure StreamEntry where
  svId : String
  lastSmpCnt : UInt16
  lastSeen : UInt64
deriving Repr

structure StreamTable where
  entries : List StreamEntry := []
  clock : UInt64 := 0
deriving Repr

/-- The entry of the stream takes the new counter and gives up its last one; none when the stream is
not followed. -/
def record (svId : String) (cnt : UInt16) (clock : UInt64) : List StreamEntry → Option (UInt16 × List StreamEntry)
  | [] => none
  | entry :: rest =>
    if entry.svId = svId then
      some (entry.lastSmpCnt, { entry with lastSmpCnt := cnt, lastSeen := clock } :: rest)
    else
      (record svId cnt clock rest).map fun (prev, rest) => (prev, entry :: rest)

/-- At the bound the least recent entry makes room. -/
def makeRoom (entries : List StreamEntry) (max : Nat) : List StreamEntry :=
  if entries.length ≥ max then
    let oldest := (entries.map StreamEntry.lastSeen).min?.bind fun least =>
      entries.findIdx? fun entry => entry.lastSeen == least
    match oldest with
    | some position => Goose.swapRemove entries position
    | none => entries
  else
    entries

def StreamTable.swap (table : StreamTable) (svId : String) (cnt : UInt16) (max : Nat) : Option UInt16 × StreamTable :=
  let clock := table.clock + 1
  match record svId cnt clock table.entries with
  | some (prev, entries) => (some prev, { entries, clock })
  | none => (none, { entries := makeRoom table.entries max ++ [{ svId, lastSmpCnt := cnt, lastSeen := clock }], clock })

/-- The smpRate an ASDU announces when smpMod is samples per second. -/
def announcedLimit (asdu : SvSubscriberAsdu) : Option UInt16 :=
  match asdu.smpMod, asdu.smpRate with
  | some .samplesPerSecond, some rate => if rate > 0 then some rate else none
  | _, _ => none

def smpCntGap (prev cur : UInt16) : Option UInt16 → UInt64
  | some limit =>
    if prev < limit ∧ cur < limit then
      let l := limit.toUInt32
      let expected := (prev.toUInt32 + 1) % l
      ((cur.toUInt32 + l - expected) % l).toUInt64
    else
      (cur - (prev + 1)).toUInt64
  | none => if cur < prev then cur.toUInt64 else (cur - (prev + 1)).toUInt64

structure Settings where
  expectedSampleSize : Option Nat
  smpCntLimit : Option UInt16
  maxStreams : Nat
deriving Repr

structure SvSubscriber extends Settings where
  streams : StreamTable := {}
  missedCount : UInt64 := 0
  duplicateCount : UInt64 := 0
deriving Repr

structure SvSubscriberBuilder where
  sampleSize : Option Nat := none
  smpCntLimit : Option UInt16 := none
  maxStreams : Option Nat := none

def defaultMaxStreams : Nat := 64

def SvSubscriberBuilder.build (builder : SvSubscriberBuilder) : SvSubscriber where
  expectedSampleSize := builder.sampleSize
  smpCntLimit := builder.smpCntLimit.filter (· > 0)
  maxStreams := max (builder.maxStreams.getD defaultMaxStreams) 1

variable (settings : Settings) (subscriber : SvSubscriber) (asdu : SvSubscriberAsdu)

def Settings.accepts : Bool := settings.expectedSampleSize.all (· == asdu.sample.length)

def Settings.limitFor : Option UInt16 := settings.smpCntLimit.or (announcedLimit asdu)

namespace SvSubscriber

/-- The counters of missed and of repeated samples after an ASDU that follows `prev` in its
stream. -/
def account (prev : Option UInt16) : UInt64 × UInt64 :=
  if prev = some asdu.smpCnt then
    (subscriber.missedCount, subscriber.duplicateCount + 1)
  else match prev with
    | some prev =>
      let diff := smpCntGap prev asdu.smpCnt (subscriber.limitFor asdu)
      (if diff ≠ 0 then subscriber.missedCount + diff else subscriber.missedCount, subscriber.duplicateCount)
    | none => (subscriber.missedCount, subscriber.duplicateCount)

def dispatch : SvSubscriber :=
  if subscriber.accepts asdu then
    let (prev, streams) := subscriber.streams.swap asdu.svId asdu.smpCnt subscriber.maxStreams
    let (missedCount, duplicateCount) := subscriber.account asdu prev
    { subscriber with streams, missedCount, duplicateCount }
  else
    subscriber

def counters : UInt64 × UInt64 := (subscriber.missedCount, subscriber.duplicateCount)

end SvSubscriber

structure Reception where
  asdu : SvSubscriberAsdu
  number : Nat
deriving Repr

-- a history lists its latest reception first

def SvSubscriber.receive (history : List Reception) : SvSubscriber :=
  history.foldr (fun reception subscriber => subscriber.dispatch reception.asdu) subscriber

def Settings.received (history : List Reception) : List Reception :=
  history.filter fun reception => settings.accepts reception.asdu

def svIds (history : List Reception) : List String := history.map (·.asdu.svId)

def previous (past : List Reception) (svId : String) : Option Reception :=
  past.find? fun reception => reception.asdu.svId = svId

/-- How many samples the streams of a history lost between the received ones. -/
def lost : List Reception → Nat
  | [] => 0
  | next :: past =>
    lost past + match previous past next.asdu.svId with
      | some last => next.number - last.number - 1
      | none => 0

/-- Every stream counts modulo its limit and loses fewer than limit − 1 samples in a row. -/
def Settings.Counted (limit : String → UInt16) : List Reception → Prop
  | [] => True
  | next :: past =>
    settings.limitFor next.asdu = some (limit next.asdu.svId) ∧
    next.asdu.smpCnt.toNat = next.number % (limit next.asdu.svId).toNat ∧
    (∀ last ∈ previous past next.asdu.svId, last.number < next.number ∧
      next.number - last.number - 1 < (limit next.asdu.svId).toNat - 1) ∧
    Counted limit past

def Continues (modulus : Nat) (past : List Reception) (next : Reception) : Prop :=
  ∀ last ∈ previous past next.asdu.svId,
    last.asdu.smpCnt.toNat < modulus ∧ next.asdu.smpCnt.toNat = (last.asdu.smpCnt.toNat + 1) % modulus

/-! The counter of a publisher counts as `Counted` and `Continues` ask. -/

section Publisher

variable (smpCntLimit : Option { limit : UInt16 // limit ≠ 0 }) (svId : String) (number : Nat)

def increaseSmpCnt (smpCnt : UInt16) : UInt16 :=
  match smpCntLimit with
  | none => smpCnt + 1
  | some limit => ((smpCnt.toUInt32 + 1) % limit.val.toUInt32).toUInt16

def modulus : Nat := smpCntLimit.elim 65536 fun limit => limit.val.toNat

/-- The sample of a publisher that has increased its counter `number` times. -/
def sample : Reception where
  asdu := { svId, smpCnt := (increaseSmpCnt smpCntLimit)^[number] 0 }
  number

theorem toNat_increaseSmpCnt (smpCnt : UInt16) :
    (increaseSmpCnt smpCntLimit smpCnt).toNat = (smpCnt.toNat + 1) % modulus smpCntLimit := by
  have bounded := smpCnt.toNat_lt
  cases smpCntLimit with
  | none => exact UInt16.toNat_add smpCnt 1
  | some limit =>
    have positive : 0 < limit.val.toNat :=
      Nat.pos_of_ne_zero fun zero => limit.2 (UInt16.toNat.inj zero)
    have below := Nat.mod_lt (smpCnt.toNat + 1) positive
    have small := limit.val.toNat_lt
    rw [increaseSmpCnt, UInt32.toNat_toUInt16, UInt32.toNat_mod, UInt32.toNat_add,
      UInt16.toNat_toUInt32, UInt16.toNat_toUInt32, UInt32.toNat_one,
      Nat.mod_eq_of_lt (show smpCnt.toNat + 1 < 2 ^ 32 by omega)]
    exact Nat.mod_eq_of_lt (by omega)

theorem sample_counted :
    (sample smpCntLimit svId number).asdu.smpCnt.toNat = number % modulus smpCntLimit := by
  unfold sample
  induction number with
  | zero => exact (Nat.zero_mod _).symm
  | succ number ih =>
    dsimp only at ih ⊢
    rw [Function.iterate_succ_apply', toNat_increaseSmpCnt, ih, Nat.mod_add_mod]

theorem sample_continues {past : List Reception}
    (last : previous past svId = some (sample smpCntLimit svId number))
    (wraps : 0 < modulus smpCntLimit) :
    Continues (modulus smpCntLimit) past (sample smpCntLimit svId (number + 1)) := by
  intro other found
  obtain rfl : sample smpCntLimit svId number = other := Option.some.inj (last.symm.trans found)
  rw [sample_counted, sample_counted, Nat.mod_add_mod]
  exact ⟨Nat.mod_lt _ wraps, rfl⟩

end Publisher

variable {settings} {subscriber} {asdu} {next : Reception} {past history : List Reception}

/-! The table holds the last counter of every stream while it is never full. -/

def lastOf (entries : List StreamEntry) (svId : String) : Option UInt16 :=
  (entries.find? fun entry => entry.svId = svId).map StreamEntry.lastSmpCnt

structure Holds (table : StreamTable) (history : List Reception) : Prop where
  last : ∀ svId, lastOf table.entries svId = (previous history svId).map (·.asdu.smpCnt)
  nodup : (table.entries.map StreamEntry.svId).Nodup
  seen : table.entries.map StreamEntry.svId ⊆ svIds history

theorem record_none (svId : String) (cnt : UInt16) (clock : UInt64) (entries : List StreamEntry)
    (unknown : record svId cnt clock entries = none) : svId ∉ entries.map StreamEntry.svId := by
  induction entries with
  | nil => exact not_mem_nil
  | cons entry rest ih =>
    rw [record] at unknown
    split at unknown
    · cases unknown
    · rename_i other
      rw [map_cons, mem_cons, not_or]
      exact ⟨fun same => other same.symm, ih (Option.map_eq_none_iff.mp unknown)⟩

theorem record_some (svId : String) (cnt : UInt16) (clock : UInt64) (entries : List StreamEntry)
    {prev : UInt16} {updated : List StreamEntry} (known : record svId cnt clock entries = some (prev, updated)) :
    lastOf entries svId = some prev ∧ updated.map StreamEntry.svId = entries.map StreamEntry.svId ∧
      ∀ id, lastOf updated id = if id = svId then some cnt else lastOf entries id := by
  induction entries generalizing updated with
  | nil => cases known
  | cons entry rest ih =>
    rw [record] at known
    split at known
    · rename_i own
      cases known
      refine ⟨by simp [lastOf, own], rfl, fun id => ?_⟩
      by_cases same : id = svId
      · simp [lastOf, own, same]
      · have other : entry.svId ≠ id := fun equal => same (equal ▸ own)
        simp [lastOf, same, other]
    · rename_i foreign
      obtain ⟨⟨_, updatedRest⟩, inRest, equal⟩ := Option.map_eq_some_iff.mp known
      cases equal
      obtain ⟨last, ids, lasts⟩ := ih inRest
      refine ⟨by simpa [lastOf, foreign] using last, by simp [ids], fun id => ?_⟩
      by_cases own : entry.svId = id
      · simp [lastOf, own, own ▸ foreign]
      · simpa [lastOf, own] using lasts id

theorem room_left {entries : List StreamEntry} {max : Nat} (nodup : (entries.map StreamEntry.svId).Nodup)
    (seen : entries.map StreamEntry.svId ⊆ svIds past) (unknown : next.asdu.svId ∉ entries.map StreamEntry.svId)
    (fits : (svIds (next :: past)).dedup.length ≤ max) : makeRoom entries max = entries := by
  have known : next.asdu.svId :: entries.map StreamEntry.svId ⊆ (svIds (next :: past)).dedup := by
    intro id member
    rw [mem_dedup, svIds, map_cons]
    exact cons_subset_cons _ seen member
  have bounded := ((nodup_cons.mpr ⟨unknown, nodup⟩).subperm known).length_le
  rw [length_cons, length_map] at bounded
  rw [makeRoom, if_neg (by omega)]

theorem previous_cons (svId : String) :
    previous (next :: past) svId = if svId = next.asdu.svId then some next else previous past svId := by
  by_cases own : svId = next.asdu.svId
  · simp [previous, own]
  · simp [previous, own, Ne.symm own]

theorem Holds.swap {table : StreamTable} {max : Nat} (holds : Holds table past)
    (fits : (svIds (next :: past)).dedup.length ≤ max) :
    (table.swap next.asdu.svId next.asdu.smpCnt max).1 =
        (previous past next.asdu.svId).map (·.asdu.smpCnt) ∧
      Holds (table.swap next.asdu.svId next.asdu.smpCnt max).2 (next :: past) := by
  have older : svIds past ⊆ svIds (next :: past) := subset_cons_self ..
  unfold StreamTable.swap
  dsimp only
  split
  · rename_i prev entries known
    obtain ⟨last, ids, lasts⟩ := record_some _ _ _ _ known
    refine ⟨by rw [← holds.last, last], fun svId => ?_, ids ▸ holds.nodup, ids ▸ List.Subset.trans holds.seen older⟩
    rw [lasts, previous_cons, holds.last]
    split <;> rfl
  · rename_i unknown
    have fresh := record_none _ _ _ _ unknown
    have absent : lastOf table.entries next.asdu.svId = none := by
      rw [lastOf, Option.map_eq_none_iff, find?_eq_none]
      exact fun entry member own => fresh (mem_map.mpr ⟨entry, member, of_decide_eq_true own⟩)
    rw [room_left holds.nodup holds.seen fresh fits]
    refine ⟨by rw [← holds.last, absent], fun svId => ?_, ?_, ?_⟩
    · rw [previous_cons]
      split
      · rename_i own
        rw [lastOf, Option.map_eq_none_iff] at absent
        rw [lastOf, own, find?_append, absent]
        simp
      · rename_i other
        rw [← holds.last]
        simp [lastOf, Ne.symm other]
    · rw [map_append, map_singleton]
      exact holds.nodup.append (nodup_singleton _) (disjoint_singleton.mpr fresh)
    · rw [map_append, map_singleton]
      exact append_subset.mpr ⟨List.Subset.trans holds.seen older, by simp [svIds]⟩

section Run

variable (subscriber) (history)

theorem receive_toSettings : (subscriber.receive history).toSettings = subscriber.toSettings := by
  induction history with
  | nil => rfl
  | cons next past ih =>
    rw [← ih, SvSubscriber.receive, foldr_cons, ← SvSubscriber.receive, SvSubscriber.dispatch]
    split <;> rfl

theorem receive_received : subscriber.receive (subscriber.received history) = subscriber.receive history := by
  induction history with
  | nil => rfl
  | cons next past ih =>
    rw [Settings.received] at ih ⊢
    rw [filter_cons]
    split
    · exact congrArg (·.dispatch next.asdu) ih
    · rename_i refused
      rw [ih]
      exact (if_neg (receive_toSettings subscriber past ▸ refused)).symm

/-- The ASDUs that a new subscriber takes, of no more streams than it follows. -/
structure Taken : Prop where
  fresh : subscriber.streams = {}
  accepted : ∀ reception ∈ history, subscriber.accepts reception.asdu = true
  fits : (svIds history).dedup.length ≤ subscriber.maxStreams

end Run

theorem Taken.before (taken : Taken subscriber (next :: past)) : Taken subscriber past where
  fresh := taken.fresh
  accepted reception member := taken.accepted reception (.tail _ member)
  fits := by
    have fewer : (svIds past).dedup.Subperm (svIds (next :: past)).dedup := by
      refine (nodup_dedup _).subperm fun id member => ?_
      rw [mem_dedup] at member ⊢
      exact mem_cons_of_mem _ member
    exact fewer.length_le.trans taken.fits

theorem Taken.receive_cons (taken : Taken subscriber (next :: past))
    (holds : Holds (subscriber.receive past).streams past) :
    Holds (subscriber.receive (next :: past)).streams (next :: past) ∧
      (subscriber.receive (next :: past)).counters =
        (subscriber.receive past).account next.asdu ((previous past next.asdu.svId).map (·.asdu.smpCnt)) := by
  have settings := receive_toSettings subscriber past
  have accepted : (subscriber.receive past).accepts next.asdu = true := settings ▸ taken.accepted next (.head _)
  obtain ⟨prev, follows⟩ := holds.swap (settings ▸ taken.fits)
  rw [SvSubscriber.receive, foldr_cons, ← SvSubscriber.receive, SvSubscriber.dispatch, if_pos accepted, ← prev]
  exact ⟨follows, rfl⟩

theorem Taken.holds (taken : Taken subscriber history) : Holds (subscriber.receive history).streams history := by
  induction history with
  | nil =>
    rw [SvSubscriber.receive, foldr_nil, taken.fresh]
    exact ⟨fun _ => rfl, nodup_nil, nil_subset _⟩
  | cons next past ih => exact (taken.receive_cons (ih taken.before)).1

theorem gap_of_limit {last next limit : Nat} (later : last < next) (few : next - last - 1 < limit - 1) :
    last % limit ≠ next % limit ∧ (next % limit + limit - (last % limit + 1) % limit) % limit = next - last - 1 := by
  have positive : 0 < limit := by omega
  have gap : (next % limit + limit - (last % limit + 1) % limit) % limit = next - last - 1 := by
    have expected := Nat.mod_lt (last + 1) positive
    rw [Nat.mod_add_mod, Nat.add_sub_assoc expected.le, Nat.mod_add_mod]
    have split : next + (limit - (last + 1) % limit) = last + 1 + (next - last - 1 + (limit - (last + 1) % limit)) := by
      omega
    rw [split, ← Nat.mod_add_mod, show (last + 1) % limit + (next - last - 1 + (limit - (last + 1) % limit)) =
      next - last - 1 + limit by omega, Nat.add_mod_right, Nat.mod_eq_of_lt (by omega)]
  refine ⟨fun same => ?_, gap⟩
  have below := Nat.mod_lt last positive
  rw [← same] at gap
  by_cases wraps : last % limit + 1 < limit
  · rw [Nat.mod_eq_of_lt wraps, Nat.mod_eq_of_lt (by omega)] at gap
    omega
  · rw [show last % limit + 1 = limit by omega, Nat.mod_self, Nat.sub_zero, Nat.add_mod_right, Nat.mod_mod] at gap
    omega

theorem smpCntGap_limit {prev cur limit : UInt16} (prevBelow : prev.toNat < limit.toNat)
    (curBelow : cur.toNat < limit.toNat) : smpCntGap prev cur (some limit) =
      UInt64.ofNat ((cur.toNat + limit.toNat - (prev.toNat + 1) % limit.toNat) % limit.toNat) := by
  have bounded := limit.toNat_lt
  have expected := Nat.mod_lt (prev.toNat + 1) (show 0 < limit.toNat by omega)
  have remainder := Nat.mod_lt (cur.toNat + limit.toNat - (prev.toNat + 1) % limit.toNat)
    (show 0 < limit.toNat by omega)
  rw [smpCntGap, if_pos ⟨prevBelow, curBelow⟩]
  apply UInt64.toNat.inj
  have sum : (cur.toUInt32 + limit.toUInt32).toNat = cur.toNat + limit.toNat := by
    simp only [UInt32.toNat_add, UInt16.toNat_toUInt32]
    omega
  have next : ((prev.toUInt32 + 1) % limit.toUInt32).toNat = (prev.toNat + 1) % limit.toNat := by
    simp only [UInt32.toNat_mod, UInt32.toNat_add, UInt16.toNat_toUInt32, UInt32.toNat_one]
    rw [Nat.mod_eq_of_lt (show prev.toNat + 1 < 2 ^ 32 by omega)]
  rw [UInt32.toNat_toUInt64, UInt32.toNat_mod,
    UInt32.toNat_sub_of_le _ _ (by rw [UInt32.le_iff_toNat_le]; omega), sum, next,
    UInt16.toNat_toUInt32, UInt64.toNat_ofNat',
    Nat.mod_eq_of_lt (remainder.trans (by omega))]

theorem smpCntGap_wrapping {prev cur : UInt16} (next : cur.toNat = (prev.toNat + 1) % 65536) (limit : UInt16) :
    smpCntGap prev cur (some limit) = 0 := by
  have successor : cur = prev + 1 := UInt16.toNat.inj (by rw [next, UInt16.toNat_add]; rfl)
  by_cases both : prev < limit ∧ cur < limit
  · -- both below the limit, the counter has not wrapped
    have prevBelow : prev.toNat < limit.toNat := both.1
    have curBelow : cur.toNat < limit.toNat := both.2
    have bounded := limit.toNat_lt
    rw [smpCntGap_limit prevBelow curBelow, next, Nat.mod_eq_of_lt (show prev.toNat + 1 < 65536 by omega),
      Nat.mod_eq_of_lt (show prev.toNat + 1 < limit.toNat by omega), Nat.add_sub_cancel_left, Nat.mod_self]
    rfl
  · rw [smpCntGap, if_neg both, successor, UInt16.sub_self]
    rfl

theorem smpCntGap_unlimited {prev cur : UInt16} {modulus : Nat} (two : 2 ≤ modulus)
    (bounded : modulus ≤ 65536) (below : prev.toNat < modulus) (next : cur.toNat = (prev.toNat + 1) % modulus) :
    smpCntGap prev cur none = 0 := by
  by_cases wraps : prev.toNat + 1 = modulus
  · have reset : cur = 0 := UInt16.toNat.inj (by rw [next, wraps, Nat.mod_self]; rfl)
    have restarted : cur < prev := by
      rw [reset, UInt16.lt_iff_toNat_lt]
      show 0 < prev.toNat
      omega
    rw [smpCntGap, if_pos restarted, reset]
    rfl
  · rw [Nat.mod_eq_of_lt (by omega)] at next
    have successor : cur = prev + 1 := UInt16.toNat.inj (by
      rw [next, UInt16.toNat_add, Nat.mod_eq_of_lt (by simp; omega)]
      rfl)
    have above : ¬ cur < prev := by
      rw [UInt16.lt_iff_toNat_lt]
      omega
    rw [smpCntGap, if_neg above, successor, UInt16.sub_self]
    rfl

theorem account_some {prev : UInt16} (fresh : prev ≠ asdu.smpCnt) : subscriber.account asdu (some prev) =
      (subscriber.missedCount + smpCntGap prev asdu.smpCnt (subscriber.limitFor asdu), subscriber.duplicateCount) := by
  unfold SvSubscriber.account
  rw [if_neg fun same => fresh (Option.some.inj same)]
  dsimp only
  split
  · rfl
  · rename_i none
    rw [not_not.mp none, UInt64.add_zero]

theorem counted_of_previous {limit : String → UInt16} (counted : settings.Counted limit history)
    {svId : String} {last : Reception}
    (found : previous history svId = some last) : last.asdu.smpCnt.toNat = last.number % (limit svId).toNat := by
  induction history with
  | nil => cases found
  | cons next past ih =>
    rw [previous_cons] at found
    split at found
    · rename_i own
      cases found
      exact own ▸ counted.2.1
    · exact ih counted.2.2.2 found

theorem Taken.counted {limit : String → UInt16} (taken : Taken subscriber history) (zero : subscriber.counters = (0, 0))
    (wide : ∀ svId, 2 ≤ limit svId) (counted : subscriber.Counted limit history) :
    (subscriber.receive history).counters = (UInt64.ofNat (lost history), 0) := by
  induction history with
  | nil => exact zero
  | cons next past ih =>
    obtain ⟨inForce, current, few, before⟩ := counted
    have earlier := ih taken.before before
    rw [(taken.receive_cons taken.before.holds).2, lost]
    cases found : previous past next.asdu.svId with
    | none => exact earlier
    | some last =>
      have lastCounted := counted_of_previous before found
      obtain ⟨later, gap⟩ := few last found
      obtain ⟨distinct, exact⟩ := gap_of_limit later gap
      have positive : 0 < (limit next.asdu.svId).toNat := (UInt16.le_iff_toNat_le.mp (wide _)).trans_lt' (by decide)
      have other : last.asdu.smpCnt ≠ next.asdu.smpCnt := fun same => distinct (by rw [← lastCounted, ← current, same])
      rw [Option.map_some, account_some other, receive_toSettings, inForce,
        smpCntGap_limit (lastCounted ▸ Nat.mod_lt _ positive) (current ▸ Nat.mod_lt _ positive),
        lastCounted, current, exact, UInt64.ofNat_add]
      obtain ⟨missed, duplicates⟩ := Prod.mk.inj earlier
      rw [missed, duplicates]

theorem Taken.continues {modulus : Nat} (taken : Taken subscriber (next :: past))
    (continues : Continues modulus past next)
    (unfollowed : modulus = 65536 ∨ subscriber.limitFor next.asdu = none ∧ 2 ≤ modulus ∧
      modulus ≤ 65536) :
    (subscriber.receive (next :: past)).counters = (subscriber.receive past).counters := by
  rw [(taken.receive_cons taken.before.holds).2]
  cases found : previous past next.asdu.svId with
  | none => rfl
  | some last =>
    obtain ⟨below, successor⟩ := continues last found
    have other : last.asdu.smpCnt ≠ next.asdu.smpCnt := by
      intro same
      rw [← same] at successor
      by_cases wraps : last.asdu.smpCnt.toNat + 1 = modulus
      · rw [wraps, Nat.mod_self] at successor
        omega
      · rw [Nat.mod_eq_of_lt (by omega)] at successor
        omega
    have nothing : smpCntGap last.asdu.smpCnt next.asdu.smpCnt (subscriber.limitFor next.asdu) = 0 := by
      cases inForce : subscriber.limitFor next.asdu with
      | none => exact smpCntGap_unlimited (by omega) (by omega) below successor
      | some limit =>
        rcases unfollowed with rfl | ⟨absent, _⟩
        · exact smpCntGap_wrapping successor limit
        · rw [inForce] at absent
          cases absent
    rw [Option.map_some, account_some other, receive_toSettings, nothing, UInt64.add_zero]
    rfl

/-- Loss accounting of a new subscriber over every history of at most `maxStreams` streams. -/
theorem loss_accounting_exact (builder : SvSubscriberBuilder) (history : List Reception)
    (fits : (svIds (builder.build.received history)).dedup.length ≤ builder.build.maxStreams) :
    (∀ limit : String → UInt16, (∀ svId, 2 ≤ limit svId) →
      builder.build.Counted limit (builder.build.received history) →
      (builder.build.receive history).missedCount =
          UInt64.ofNat (lost (builder.build.received history)) ∧
        (builder.build.receive history).duplicateCount = 0) ∧ ∀ next past modulus, history = next :: past →
      Continues modulus (builder.build.received past) next →
      (modulus = 65536 ∨ builder.build.limitFor next.asdu = none ∧ 2 ≤ modulus ∧ modulus ≤ 65536) →
      (builder.build.receive history).counters = (builder.build.receive past).counters := by
  have taken : Taken builder.build (builder.build.received history) :=
    ⟨rfl, fun _ member => (mem_filter.mp member).2, fits⟩
  constructor
  · intro limit wide counted
    have exact := taken.counted rfl wide counted
    rw [receive_received] at exact
    exact Prod.mk.inj exact
  · rintro next past modulus rfl continues unfollowed
    by_cases accepted : builder.build.accepts next.asdu = true
    · have split : builder.build.received (next :: past) =
          next :: builder.build.received past := filter_cons_of_pos accepted
      rw [split] at taken
      have unchanged := taken.continues continues unfollowed
      rw [← split, receive_received, receive_received] at unchanged
      exact unchanged
    · exact congrArg SvSubscriber.counters (if_neg (receive_toSettings builder.build past ▸ accepted))

def four : { limit : UInt16 // limit ≠ 0 } := ⟨4, by decide⟩

/-- Two streams interleaved, one of them losing two samples across the wrap of its counter. -/
def interleaved : List Reception :=
  [sample four "a" 5, sample four "b" 1, sample four "a" 2]

/-- The second subscriber knows no limit, and is sent the sample behind the wrap. -/
theorem loss_accounting_exact_interleaved :
    (({ smpCntLimit := some 4 } : SvSubscriberBuilder).build.receive interleaved).missedCount = 2 ∧
      (({} : SvSubscriberBuilder).build.receive [sample four "a" 4, sample four "a" 3]).counters =
        (({} : SvSubscriberBuilder).build.receive [sample four "a" 3]).counters := by
  constructor
  · refine ((loss_accounting_exact { smpCntLimit := some 4 } interleaved (by decide +kernel)).1
      (fun _ => 4) (fun _ => by decide) ?_).1
    exact ⟨rfl, sample_counted four "a" 5, by decide +kernel, rfl, sample_counted four "b" 1, nofun,
      rfl, sample_counted four "a" 2, nofun, trivial⟩
  · exact (loss_accounting_exact {} [sample four "a" 4, sample four "a" 3] (by decide +kernel)).2 _ _ 4
      rfl (sample_continues four "a" 3 rfl (by decide)) (.inr ⟨rfl, by decide, by decide⟩)

end Iec61850.Sv
