import Iec61850.Reporting.Sqlite

/-!
What the snapshot column gives back: the entries that are read from their row as they were stored.
-/

namespace Iec61850.Model.MmsValue

open Mms
open Service

mutual

/-- Bit strings leave at most seven bits unused, all of them zero, and none in no octet; binary
times have four or six octets. -/
def Restorable : MmsValue → Prop
  | .bitString padding data =>
    padding ≤ 7 ∧ (data = [] → padding = 0) ∧ ∀ last ∈ data.getLast?, last.toNat % 2 ^ padding.toNat = 0
  | .binaryTime bytes => bytes.length = 4 ∨ bytes.length = 6
  | .array items => MembersRestorable items
  | .struct items => MembersRestorable items
  | .boolean _ | .integer _ | .unsigned _ | .float32 _ | .float64 _ | .octetString _ | .visibleString _
  | .mmsString _ | .utcTime _ => True

def MembersRestorable : List MmsValue → Prop
  | [] => True
  | item :: rest => item.Restorable ∧ MembersRestorable rest

end

/-- Nested no deeper than the decoder descends, and with no more octets than a length field can
count. -/
def WithinLimits (value : MmsValue) : Prop :=
  (mmsValueToMmsData value).nestingDepth ≤ MmsData.maxDataNestingDepth.toNat ∧
    (mmsValueToMmsData value).encode.length ≤ 1 + 3 + 65535

end Iec61850.Model.MmsValue

namespace Iec61850.Service

open Model
open Mms
open Wire Wire.Fallible

@[simp] theorem length_bitStringBytes (padding : UInt8) (data : List UInt8) :
    (bitStringBytes padding data).length = data.length := by
  unfold bitStringBytes
  cases last : data.getLast? with
  | none => rw [List.getLast?_eq_none_iff.mp last]
  | some octet =>
    have positive : 0 < data.length := List.length_pos_of_ne_nil fun empty => by simp [empty] at last
    dsimp only
    split
    · simp only [List.length_append, List.length_dropLast, List.length_singleton]
      omega
    · rfl

variable {padding : UInt8} {data : List UInt8} {tag : UInt8} {content : List UInt8} {value : MmsData}

theorem and_shifted_eq_self_iff (small : padding ≤ 7) (octet : UInt8) :
    octet &&& (0xff <<< padding) = octet ↔ octet.toNat % 2 ^ padding.toNat = 0 := by
  have each : ∀ amount : Fin 8, ∀ bits : Fin 256,
      UInt8.ofNat bits.val &&& (0xff <<< UInt8.ofNat amount.val) = UInt8.ofNat bits.val ↔
        bits.val % 2 ^ amount.val = 0 := by
    decide +kernel
  have amount : padding.toNat ≤ 7 := UInt8.le_iff_toNat_le.mp small
  have bits := each ⟨padding.toNat, by omega⟩ ⟨octet.toNat, octet.toNat_lt⟩
  simpa only [UInt8.ofNat_toNat] using bits

theorem bitStringBytes_of_clear (small : padding ≤ 7)
    (clear : ∀ last ∈ data.getLast?, last.toNat % 2 ^ padding.toNat = 0) : bitStringBytes padding data = data := by
  unfold bitStringBytes
  cases last : data.getLast? with
  | none => rw [List.getLast?_eq_none_iff.mp last]
  | some octet =>
    dsimp only
    rw [(and_shifted_eq_self_iff small octet).mpr (clear octet last),
      List.dropLast_append_getLast? octet last, ite_self]

theorem clear_bitStringBytes (small : padding ≤ 7) (data : List UInt8) :
    ∀ last ∈ (bitStringBytes padding data).getLast?, last.toNat % 2 ^ padding.toNat = 0 := by
  intro last atEnd
  have below : padding < 8 := UInt8.lt_of_le_of_lt small (by decide)
  unfold bitStringBytes at atEnd
  cases before : data.getLast? with
  | none =>
    rw [before] at atEnd
    cases atEnd
  | some octet =>
    rw [before] at atEnd
    simp only [if_pos below, List.getLast?_append, List.getLast?_singleton, Option.some_or, Option.mem_def,
      Option.some.injEq] at atEnd
    rw [← atEnd]
    apply (and_shifted_eq_self_iff small _).mp
    rw [UInt8.and_assoc, UInt8.and_self]

mutual

theorem mmsDataToMmsValue_mmsValueToMmsData (value : MmsValue) (restorable : value.Restorable) :
    mmsDataToMmsValue (mmsValueToMmsData value) = value := by
  cases value with
  | bitString padding data =>
    obtain ⟨small, _, clear⟩ := restorable
    simp only [mmsValueToMmsData, mmsDataToMmsValue, bitStringBytes_of_clear small clear]
  | array items | struct items =>
    simp only [mmsValueToMmsData, mmsDataToMmsValue, mmsDatasToMmsValues_mmsValuesToMmsData items restorable]
  | _ => rfl

theorem mmsDatasToMmsValues_mmsValuesToMmsData (items : List MmsValue) (restorable : MmsValue.MembersRestorable items) :
    mmsDatasToMmsValues (mmsValuesToMmsData items) = items := by
  cases items with
  | nil => rfl
  | cons item rest =>
    simp only [mmsValuesToMmsData, mmsDatasToMmsValues, mmsDataToMmsValue_mmsValueToMmsData item restorable.1,
      mmsDatasToMmsValues_mmsValuesToMmsData rest restorable.2]

end

theorem content_le_of_encodeTlv (short : (encodeTlv tag content).length ≤ 1 + 3 + 65535) : content.length ≤ 65535 := by
  rw [encodeTlv_length] at short
  unfold lengthSize at short
  split at short
  · omega
  · split at short <;> omega

mutual

theorem wellFormed_mmsValueToMmsData (value : MmsValue) (restorable : value.Restorable)
    (short : (mmsValueToMmsData value).encode.length ≤ 1 + 3 + 65535) : (mmsValueToMmsData value).WellFormed := by
  cases value with
  | bitString padding data =>
    obtain ⟨small, empty, _⟩ := restorable
    refine ⟨⟨small, ?_⟩, content_le_of_encodeTlv short⟩
    intro none
    have length := length_bitStringBytes padding data
    rw [none] at length
    exact empty (List.eq_nil_of_length_eq_zero length.symm)
  | binaryTime bytes => exact restorable
  | array items | struct items =>
    have content := content_le_of_encodeTlv short
    exact ⟨content, membersWellFormed_mmsValuesToMmsData items restorable content⟩
  | octetString bytes | visibleString text | mmsString text => exact content_le_of_encodeTlv short
  | boolean value | integer value | unsigned value | float32 bits | float64 bits | utcTime bytes => trivial

theorem membersWellFormed_mmsValuesToMmsData (items : List MmsValue) (restorable : MmsValue.MembersRestorable items)
    (short : (MmsData.encodeAll (mmsValuesToMmsData items)).length ≤ 65535) :
    MmsData.MembersFormed (· ≤ 65535) (mmsValuesToMmsData items) := by
  cases items with
  | nil => trivial
  | cons item rest =>
    have sum : ((mmsValueToMmsData item).encode ++ MmsData.encodeAll (mmsValuesToMmsData rest)).length ≤ 65535 := short
    rw [List.length_append] at sum
    exact ⟨wellFormed_mmsValueToMmsData item restorable.1 (by omega),
      membersWellFormed_mmsValuesToMmsData rest restorable.2 (by omega)⟩

end

theorem decode_restorable {value : MmsValue} (restorable : value.Restorable) (limits : value.WithinLimits)
    (rest : List UInt8) : MmsData.decode ((mmsValueToMmsData value).encode ++ rest) =
      .ok (mmsValueToMmsData value, (mmsValueToMmsData value).encode.length) :=
  (MmsData.decode_encode_within_ceiling _ (wellFormed_mmsValueToMmsData value restorable limits.2) none limits.1 rest).1

theorem decodeBitString_eq_ok
    (read : decodeBitString content = .ok (padding, data)) : padding ≤ 7 ∧ (data = [] → padding = 0) := by
  cases content with
  | nil => cases read
  | cons first rest =>
    simp only [decodeBitString] at read
    split at read
    · cases read
    next accepted =>
    cases read
    simp only [Bool.or_eq_true, decide_eq_true_eq, Bool.and_eq_true, List.isEmpty_iff, bne_iff_ne, not_or,
      not_and, not_not] at accepted
    exact ⟨UInt8.not_lt.mp accepted.1, accepted.2⟩

theorem restorable_bitString (small : padding ≤ 7)
    (empty : data = [] → padding = 0) : (MmsValue.bitString padding (bitStringBytes padding data)).Restorable := by
  refine ⟨small, ?_, clear_bitStringBytes small data⟩
  intro none
  have length := length_bitStringBytes padding data
  rw [none] at length
  exact empty (List.eq_nil_of_length_eq_zero length.symm)

theorem membersRestorable_of_forall {values : List MmsData}
    (each : ∀ value ∈ values, (mmsDataToMmsValue value).Restorable) :
    MmsValue.MembersRestorable (mmsDatasToMmsValues values) := by
  induction values with
  | nil => trivial
  | cons value rest ih =>
    exact ⟨each value List.mem_cons_self, ih fun other later => each other (List.mem_cons_of_mem value later)⟩

theorem restorable_of_decodeContent {items : List UInt8 → Fallible MmsError (List MmsData)}
    (members : ∀ content values, items content = .ok values → ∀ value ∈ values, (mmsDataToMmsValue value).Restorable)
    (decoded : decodeContent items tag content = .ok value) : (mmsDataToMmsValue value).Restorable := by
  unfold decodeContent at decoded
  split at decoded
  · split at decoded
    · cases decoded
    · obtain ⟨octet, _, result⟩ := bind_eq_ok decoded
      cases result
      trivial
  · obtain ⟨values, read, result⟩ := bind_eq_ok decoded
    cases result
    exact membersRestorable_of_forall (members content values read)
  · obtain ⟨values, read, result⟩ := bind_eq_ok decoded
    cases result
    exact membersRestorable_of_forall (members content values read)
  · obtain ⟨number, _, result⟩ := bind_eq_ok decoded
    cases result
    trivial
  · obtain ⟨number, _, result⟩ := bind_eq_ok decoded
    cases result
    trivial
  · unfold decodeFloatingPoint at decoded
    split at decoded
    · obtain ⟨octets, _, result⟩ := bind_eq_ok decoded
      cases result
      trivial
    · split at decoded
      · obtain ⟨octets, _, result⟩ := bind_eq_ok decoded
        cases result
        trivial
      · cases decoded
  · cases decoded
    trivial
  · obtain ⟨text, _, result⟩ := bind_eq_ok decoded
    cases result
    trivial
  · obtain ⟨text, _, result⟩ := bind_eq_ok decoded
    cases result
    trivial
  · split at decoded
    · cases decoded
    · next size =>
      cases decoded
      change content.length = 4 ∨ content.length = 6
      omega
  · obtain ⟨bits, read, result⟩ := bind_eq_ok decoded
    cases result
    exact restorable_bitString (decodeBitString_eq_ok read).1 (decodeBitString_eq_ok read).2
  · obtain ⟨bits, read, result⟩ := bind_eq_ok decoded
    cases result
    exact restorable_bitString (decodeBitString_eq_ok read).1 (decodeBitString_eq_ok read).2
  · obtain ⟨text, _, result⟩ := bind_eq_ok decoded
    cases result
    trivial
  · split at decoded
    · cases decoded
      trivial
    · cases decoded
  · cases decoded

theorem restorable_of_decodeLevels {maxDepth depth : UInt8} {levels : Nat}
    {consumed : Nat} (read : MmsData.decodeLevels maxDepth levels depth data = .ok (value, consumed)) :
    (mmsDataToMmsValue value).Restorable := by
  induction levels generalizing depth data value consumed with
  | zero => cases read
  | succ levels ih =>
    unfold MmsData.decodeLevels at read
    obtain ⟨element, _, body⟩ := bind_eq_ok read
    obtain ⟨content, decoded, result⟩ := bind_eq_ok body
    cases result
    apply restorable_of_decodeContent _ decoded
    intro octets values readMembers
    obtain ⟨below, _, whole⟩ := bind_eq_ok readMembers
    exact readAll_forall (fun _ _ _ => ih) whole

end Iec61850.Service

namespace Iec61850.Reporting

open Model
open Mms
open Service
open Wire

/-- One flag and one slot for each member of a data set that the length column can count, and
restorable values. -/
structure EnqueuedSnapshot.Restorable (snapshot : EnqueuedSnapshot) : Prop where
  flags : snapshot.inclusionFlags.length = snapshot.dataSetLen
  slots : snapshot.values.length = snapshot.dataSetLen
  counted : snapshot.dataSetLen ≤ 0xffffffff
  values : ∀ value, some value ∈ snapshot.values → value.Restorable

/-- An entry with a snapshot carries no payload beside it. -/
def ReportEntry.Restorable (entry : ReportEntry) : Prop :=
  ∀ snapshot ∈ entry.snapshot, entry.encodedPayload = [] ∧ snapshot.Restorable

/-- Every value of the snapshot is within the limits of the codec. -/
def ReportEntry.WithinLimits (entry : ReportEntry) : Prop :=
  ∀ snapshot ∈ entry.snapshot, ∀ value, some value ∈ snapshot.values → value.WithinLimits

theorem decodeSnapshotMember_encoded (flag : InclusionFlag) {slot : Option MmsValue}
    (restorable : ∀ value ∈ slot, value.Restorable) (limits : ∀ value ∈ slot, value.WithinLimits) (rest : List UInt8) :
    decodeSnapshotMember (encodeSnapshotMember flag slot ++ rest) = some ((flag, slot), rest) := by
  cases slot with
  | none => rfl
  | some value =>
    have sound := restorable value rfl
    have read := decode_restorable sound (limits value rfl) rest
    have octets : encodeSnapshotMember flag (some value) ++ rest =
        flag.bits :: 1 :: ((Service.mmsValueToMmsData value).encode ++ rest) := rfl
    rw [octets]
    simp only [decodeSnapshotMember, read, List.drop_left, Service.mmsDataToMmsValue_mmsValueToMmsData value sound]

theorem decodeSnapshotMembers_encoded (members : List (InclusionFlag × Option MmsValue))
    (restorable : ∀ member ∈ members, ∀ value ∈ member.2, value.Restorable)
    (limits : ∀ member ∈ members, ∀ value ∈ member.2, value.WithinLimits) (rest : List UInt8) :
    decodeSnapshotMembers members.length
        ((members.flatMap fun member => encodeSnapshotMember member.1 member.2) ++ rest) =
      some (members, rest) := by
  induction members with
  | nil => rfl
  | cons member others ih =>
    have head := decodeSnapshotMember_encoded member.1 (restorable member List.mem_cons_self)
      (limits member List.mem_cons_self)
      ((others.flatMap fun member => encodeSnapshotMember member.1 member.2) ++ rest)
    have tail := ih (fun other later => restorable other (List.mem_cons_of_mem member later))
      (fun other later => limits other (List.mem_cons_of_mem member later))
    rw [List.flatMap_cons, List.append_assoc, List.length_cons]
    simp only [decodeSnapshotMembers, head, Option.bind_eq_bind, Option.bind_some, tail]
    rfl

variable {rest data : List UInt8} {snapshot : EnqueuedSnapshot}

theorem decodeSnapshotMember_restorable {member : InclusionFlag × Option MmsValue}
    (read : decodeSnapshotMember data = some (member, rest)) : ∀ value ∈ member.2, value.Restorable := by
  unfold decodeSnapshotMember at read
  split at read
  · cases read
    simp
  · split at read
    · next decoded =>
      cases read
      intro value same
      cases same
      exact restorable_of_decodeLevels decoded
    · cases read
  · cases read

theorem decodeSnapshotMembers_restorable {count : Nat} {members : List (InclusionFlag × Option MmsValue)}
    (read : decodeSnapshotMembers count data = some (members, rest)) :
    members.length = count ∧ ∀ member ∈ members, ∀ value ∈ member.2, value.Restorable := by
  induction count generalizing data members with
  | zero =>
    cases read
    simp
  | succ count ih =>
    obtain ⟨⟨member, left⟩, head, tail⟩ := Option.bind_eq_some_iff.mp read
    obtain ⟨⟨others, left⟩, readOthers, result⟩ := Option.bind_eq_some_iff.mp tail
    cases result
    obtain ⟨length, each⟩ := ih readOthers
    refine ⟨congrArg (· + 1) length, ?_⟩
    intro other stored
    rcases List.mem_cons.mp stored with rfl | later
    · exact decodeSnapshotMember_restorable head
    · exact each other later

def EnqueuedSnapshot.members (snapshot : EnqueuedSnapshot) : List (InclusionFlag × Option MmsValue) :=
  (List.range snapshot.dataSetLen).map fun index =>
    (snapshot.inclusionFlags.getD index .none, snapshot.values.getD index none)

theorem map_getD_range {α : Type} (list : List α) (fallback : α) :
    ((List.range list.length).map fun index => list.getD index fallback) = list := by
  apply List.ext_getElem
  · simp
  · intro index inside bound
    simp [bound]

theorem EnqueuedSnapshot.Restorable.members_fst (restorable : snapshot.Restorable) :
    snapshot.members.map (·.1) = snapshot.inclusionFlags := by
  have flags := map_getD_range snapshot.inclusionFlags .none
  rw [restorable.flags] at flags
  rw [members, List.map_map]
  exact flags

theorem EnqueuedSnapshot.Restorable.members_snd (restorable : snapshot.Restorable) :
    snapshot.members.map (·.2) = snapshot.values := by
  have slots := map_getD_range snapshot.values none
  rw [restorable.slots] at slots
  rw [members, List.map_map]
  exact slots

theorem decodeSnapshot_encodeSnapshot (restorable : snapshot.Restorable)
    (limits : ∀ value, some value ∈ snapshot.values → value.WithinLimits) :
    decodeSnapshot (encodeSnapshot snapshot) = some snapshot := by
  have slot {member : InclusionFlag × Option MmsValue} (stored : member ∈ snapshot.members) :
      member.2 ∈ snapshot.values := by
    rw [← restorable.members_snd]
    exact List.mem_map_of_mem stored
  have read := decodeSnapshotMembers_encoded snapshot.members
    (fun member stored value same => restorable.values value (same ▸ slot stored))
    (fun member stored value same => limits value (same ▸ slot stored)) []
  have length : snapshot.members.length = snapshot.dataSetLen := by simp [EnqueuedSnapshot.members]
  have counted := restorable.counted
  have number : ofBytes (bigEndian32 (UInt32.ofNat (min snapshot.dataSetLen 0xffffffff))) = snapshot.dataSetLen := by
    rw [ofBytes_bigEndian32, Nat.min_eq_left counted,
      UInt32.toNat_ofNat_of_lt' (by simpa [UInt32.size] using Nat.lt_succ_of_le counted)]
  have octets : encodeSnapshot snapshot = snapshotFormat ::
      (bigEndian32 (UInt32.ofNat (min snapshot.dataSetLen 0xffffffff)) ++
        (snapshot.members.flatMap fun member => encodeSnapshotMember member.1 member.2)) := by
    simp only [encodeSnapshot, EnqueuedSnapshot.members, List.flatMap_map]
    rfl
  rw [octets]
  simp only [decodeSnapshot]
  rw [if_neg (by simp), List.take_left' (by rfl), List.drop_left' (by rfl), number, ← length]
  rw [List.append_nil] at read
  rw [read]
  simp only [restorable.members_fst, restorable.members_snd, length]

theorem restorable_of_decodeSnapshot {bytes : List UInt8}
    (read : decodeSnapshot bytes = some snapshot) : snapshot.Restorable := by
  unfold decodeSnapshot at read
  split at read
  · cases read
  next format rest =>
  split at read
  · cases read
  next long =>
  dsimp only at read
  split at read
  · next members decoded =>
    cases read
    obtain ⟨length, each⟩ := decodeSnapshotMembers_restorable decoded
    refine ⟨by simpa using length, by simpa using length, ?_, ?_⟩
    · have bound := ofBytes_lt (rest.take 4)
      have four : (rest.take 4).length = 4 := by
        rw [List.length_take]
        omega
      rw [four] at bound
      dsimp only
      omega
    · intro value stored
      obtain ⟨member, inside, same⟩ := List.mem_map.mp stored
      exact each member inside value same
  · cases read
  · cases read

theorem rowToEntry_ofEntry_iff {entry : ReportEntry} (limits : entry.WithinLimits) (seq : Nat) :
    rowToEntry (.ofEntry seq entry) = some entry ↔ entry.Restorable := by
  obtain ⟨entryId, timeOfEntryMs, isIntegrity, isGi, encodedPayload, snapshot⟩ := entry
  have time : timeOfEntryMs.toInt64.toUInt64 = timeOfEntryMs := rfl
  have flag (value : Bool) : ((if value then 1 else 0 : Int32) != 0) = value := by cases value <;> rfl
  cases snapshot with
  | none => simp [rowToEntry, Row.ofEntry, ReportEntry.Restorable, flag]
  | some snapshot =>
    simp only [rowToEntry, Row.ofEntry, Option.map_some, time, flag]
    constructor
    · intro read stored same
      cases same
      obtain ⟨decoded, found, same⟩ := Option.map_eq_some_iff.mp read
      cases same
      exact ⟨rfl, restorable_of_decodeSnapshot found⟩
    · intro restorable
      obtain ⟨payload, sound⟩ := restorable snapshot rfl
      have empty : encodedPayload = [] := payload
      rw [decodeSnapshot_encodeSnapshot sound (limits snapshot rfl), empty]
      rfl

end Iec61850.Reporting
