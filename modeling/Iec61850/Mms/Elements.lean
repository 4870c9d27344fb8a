import Iec61850.Mms.Decode

/-!
The element decoders of Read and Write responses on arbitrary octets: none of them panics, and what
they consume and report is compared with what the octets say.
-/

namespace Iec61850.Mms

open Wire Wire.Fallible AccessResult

variable (data : List UInt8)

theorem decodeSignedInt_safe : (decodeSignedInt data).Safe := by
  unfold decodeSignedInt
  split <;> trivial

theorem decodeUnsignedInt_safe : (decodeUnsignedInt data).Safe := by
  unfold decodeUnsignedInt
  split <;> trivial

theorem decodeBitString_safe : (decodeBitString data).Safe := by
  cases data with
  | nil => trivial
  | cons padding data =>
    simp only [decodeBitString]
    split <;> trivial

theorem decodeFloatingPoint_safe : (decodeFloatingPoint data).Safe := by
  unfold decodeFloatingPoint
  split
  · rw [slice_of_le (by decide) (by omega)]
    trivial
  split
  · rw [slice_of_le (by decide) (by omega)]
    trivial
  · trivial

theorem decodeUtf8_safe : (decodeUtf8 data).Safe := by
  unfold decodeUtf8
  split <;> trivial

theorem safe_map {α β : Type} {result : Fallible MmsError α} (safe : result.Safe) (make : α → β) :
    Safe (result >>= fun value => (pure (make value) : Fallible MmsError β)) :=
  safe.bind fun _ _ => trivial

theorem decodeContent_safe {items : List UInt8 → Fallible MmsError (List MmsData)} (safe : ∀ data, (items data).Safe)
    (tag : UInt8) (content : List UInt8) : (decodeContent items tag content).Safe := by
  unfold decodeContent
  split
  · cases content with
    | nil | cons first rest => trivial
  · exact safe_map (safe content) _
  · exact safe_map (safe content) _
  · exact safe_map (decodeSignedInt_safe content) _
  · exact safe_map (decodeUnsignedInt_safe content) _
  · exact decodeFloatingPoint_safe content
  · trivial
  · exact safe_map (decodeUtf8_safe content) _
  · exact safe_map (decodeUtf8_safe content) _
  · split <;> trivial
  · exact safe_map (decodeBitString_safe content) _
  · exact safe_map (decodeBitString_safe content) _
  · exact safe_map (decodeUtf8_safe content) _
  · split <;> trivial
  · trivial

namespace MmsData

theorem decodeLevels_bounds {maxDepth depth : UInt8} {levels : Nat} {data : List UInt8} {value : MmsData}
    {consumed : Nat} (read : decodeLevels maxDepth levels depth data = .ok (value, consumed)) :
    1 ≤ consumed ∧ consumed ≤ data.length := by
  cases levels with
  | zero => cases read
  | succ levels =>
    unfold decodeLevels at read
    obtain ⟨element, atFront, body⟩ := bind_eq_ok read
    obtain ⟨content, _, result⟩ := bind_eq_ok body
    cases result
    have bounds := readElement_bounds atFront
    omega

theorem decodeLevels_safe (maxDepth depth : UInt8) (levels : Nat) (data : List UInt8)
    (room : depth.toNat + levels ≤ 255) : (decodeLevels maxDepth levels depth data).Safe := by
  induction levels generalizing depth data with
  | zero => trivial
  | succ levels ih =>
    have inside : depth.toNat < 255 := by omega
    have below := depth_succ inside
    unfold decodeLevels
    apply (readElement_safe data).bind
    intro element _
    apply Safe.bind
    · apply decodeContent_safe
      intro content
      rw [nextDepth_of_lt inside, ok_bind]
      apply readWhole_safe
      · intro data
        exact ih (depth + 1) data (by omega)
      · intro data value consumed read
        exact (decodeLevels_bounds read).1
    · intro value _
      trivial

theorem decode_safe (data : List UInt8) : (decode data).Safe :=
  decodeLevels_safe _ 0 _ data (by decide)

theorem decode_bounds {data : List UInt8} {value : MmsData} {consumed : Nat}
    (read : decode data = .ok (value, consumed)) :
    1 ≤ consumed ∧ consumed ≤ data.length :=
  decodeLevels_bounds read

end MmsData

theorem DataAccessError.fromCode_safe (code : UInt8) : (fromCode code).Safe := by
  unfold fromCode
  split <;> trivial

variable {error : DataAccessError} {first : UInt8} {rest : List UInt8} {len hdr consumed : Nat}

theorem DataAccessError.fromCode_eq_ok {code : UInt8} (known : fromCode code = .ok error) :
    error.code = code ∧ code.toNat ≤ 11 := by
  unfold fromCode at known
  split at known <;> cases known <;> exact ⟨rfl, by decide⟩

theorem DataAccessError.fromCode_of_le {code : UInt8} (small : code.toNat ≤ 11) :
    ∃ error, fromCode code = .ok error := by
  have listed : ∀ number : Fin 12, (fromCode (UInt8.ofNat number)).isOk = true := by decide
  have known := listed ⟨code.toNat, by omega⟩
  simp only [UInt8.ofNat_toNat] at known
  cases result : fromCode code with
  | ok error => exact ⟨error, rfl⟩
  | error fault =>
    rw [result] at known
    cases known

theorem readElement_of_header
    (header : decodeLength rest = .ok (len, hdr)) (fits : 1 + hdr + len ≤ (first :: rest).length) :
    readElement (first :: rest) =
      .ok { tag := first, content := (rest.drop hdr).take len, consumed := 1 + hdr + len } := by
  unfold readElement
  simp only [firstByte_cons, sliceFrom_one_cons, ok_bind, header,
    orMmsError_ok]
  rw [if_neg (by omega), slice_of_le (by omega) fits, ok_bind]
  have content : ((first :: rest).take (1 + hdr + len)).drop (1 + hdr) = (rest.drop hdr).take len := by
    rw [Nat.add_comm 1 hdr, Nat.add_right_comm, List.take_succ_cons, List.drop_succ_cons, List.drop_take]
    simp
  rw [content]
  rfl

theorem readElement_inv {data : List UInt8} {element : Element} (read : readElement data = .ok element) :
    ∃ first rest len hdr, data = first :: rest ∧ decodeLength rest = .ok (len, hdr) ∧ 1 + hdr + len ≤ data.length ∧
      element = { tag := first, content := (rest.drop hdr).take len, consumed := 1 + hdr + len } := by
  cases data with
  | nil => cases read
  | cons first rest =>
    have opening := read
    unfold readElement at opening
    simp only [firstByte_cons, sliceFrom_one_cons, ok_bind] at opening
    obtain ⟨⟨len, hdr⟩, header, body⟩ := bind_eq_ok opening
    have length := orMmsError_eq_ok header
    dsimp only at body
    split at body
    · cases body
    next short =>
    have fits : 1 + hdr + len ≤ (first :: rest).length := by omega
    rw [readElement_of_header length fits] at read
    cases read
    exact ⟨first, rest, len, hdr, rfl, length, fits, rfl⟩

theorem byteAt_content (fits : 1 + hdr + len ≤ (first :: rest).length)
    (nonempty : len ≠ 0) : ∃ code others, (rest.drop hdr).take len = code :: others ∧
      (byteAt (first :: rest) (1 + hdr) : Fallible MmsError UInt8) = .ok code := by
  simp only [List.length_cons] at fits
  have inside : hdr < rest.length := by omega
  refine ⟨rest[hdr], (rest.drop (hdr + 1)).take (len - 1), ?_, ?_⟩
  · rw [List.drop_eq_getElem_cons inside]
    cases len with
    | zero => exact absurd rfl nonempty
    | succ len => rfl
  · rw [byteAt_of_lt (by simp only [List.length_cons]; omega)]
    simp [Nat.add_comm 1 hdr]

/-- A failure is read at the front of `data`: a code in the first octet of the content. -/
def FailureAt (error : DataAccessError) (consumed : Nat) : Prop :=
  ∃ code others, readElement data = .ok { tag := 0x80, content := code :: others, consumed } ∧
    DataAccessError.fromCode code = .ok error

namespace AccessResult

theorem decode_safe (data : List UInt8) : (decode data).Safe := by
  cases data with
  | nil => trivial
  | cons first rest =>
    unfold decode
    simp only [firstByte_cons, sliceFrom_one_cons, ok_bind]
    split
    · apply (orMmsError_safe (decodeLength_safe rest)).bind
      intro header _
      split
      · trivial
      split
      · trivial
      · rw [byteAt_of_lt (by omega), ok_bind]
        exact (DataAccessError.fromCode_safe _).bind fun _ _ => trivial
    · exact (MmsData.decode_safe _).bind fun _ _ => trivial

theorem decode_of_failureAt {data : List UInt8} {error : DataAccessError} {consumed : Nat}
    (failure : FailureAt data error consumed) : decode data = .ok (.failure error, consumed) := by
  obtain ⟨code, others, read, known⟩ := failure
  obtain ⟨first, rest, len, hdr, rfl, header, fits, same⟩ := readElement_inv read
  obtain ⟨rfl, content, rfl⟩ := Element.mk.inj same
  have nonempty : len ≠ 0 := by
    intro zero
    rw [zero] at content
    cases content
  obtain ⟨octet, behind, taken, indexed⟩ := byteAt_content fits nonempty
  rw [← content] at taken
  cases taken
  unfold decode
  simp only [firstByte_cons, sliceFrom_one_cons, ok_bind, header,
    orMmsError_ok, if_true]
  rw [if_neg (by omega), if_neg nonempty, indexed, ok_bind, known]
  rfl

theorem decode_cases {data : List UInt8} {result : AccessResult} {consumed : Nat}
    (read : decode data = .ok (result, consumed)) : (∃ error, result = .failure error ∧ FailureAt data error consumed) ∨
      ∃ value, result = .success value ∧ MmsData.decode data = .ok (value, consumed) := by
  cases data with
  | nil => cases read
  | cons first rest =>
    unfold decode at read
    simp only [firstByte_cons, sliceFrom_one_cons, ok_bind] at read
    split at read
    · next tag =>
      left
      obtain ⟨⟨len, hdr⟩, header, body⟩ := bind_eq_ok read
      have length := orMmsError_eq_ok header
      dsimp only at body
      split at body
      · cases body
      split at body
      · cases body
      next short nonempty =>
      have fits : 1 + hdr + len ≤ (first :: rest).length := by omega
      obtain ⟨octet, behind, taken, indexed⟩ := byteAt_content fits nonempty
      rw [indexed, ok_bind] at body
      obtain ⟨error, known, result⟩ := bind_eq_ok body
      cases result
      refine ⟨error, rfl, octet, behind, ?_, known⟩
      rw [readElement_of_header length fits, taken, tag]
    · right
      obtain ⟨⟨value, used⟩, decoded, result⟩ := bind_eq_ok read
      cases result
      exact ⟨value, rfl, decoded⟩

end AccessResult

namespace WriteOutcome

theorem decode_safe (data : List UInt8) : (decode data).Safe := by
  cases data with
  | nil => trivial
  | cons first rest =>
    unfold decode
    simp only [firstByte_cons, sliceFrom_one_cons, ok_bind]
    split
    · exact (orMmsError_safe (decodeLength_safe rest)).bind fun _ _ => trivial
    · apply (orMmsError_safe (decodeLength_safe rest)).bind
      intro header _
      split
      · trivial
      split
      · trivial
      · rw [byteAt_of_lt (by omega), ok_bind]
        exact (DataAccessError.fromCode_safe _).bind fun _ _ => trivial
    · trivial

theorem decode_cases {data : List UInt8} {outcome : WriteOutcome} {consumed : Nat}
    (read : decode data = .ok (outcome, consumed)) :
    (∃ error, outcome = .failure error ∧ FailureAt data error consumed) ∨
      ∃ rest len hdr, outcome = .success ∧ data = 0x81 :: rest ∧ decodeLength rest = .ok (len, hdr) ∧
        consumed = 1 + hdr + len := by
  cases data with
  | nil => cases read
  | cons first rest =>
    unfold decode at read
    simp only [firstByte_cons, sliceFrom_one_cons, ok_bind] at read
    split at read
    · right
      obtain ⟨⟨len, hdr⟩, header, result⟩ := bind_eq_ok read
      cases result
      exact ⟨rest, len, hdr, rfl, rfl, orMmsError_eq_ok header, rfl⟩
    · left
      obtain ⟨⟨len, hdr⟩, header, body⟩ := bind_eq_ok read
      have length := orMmsError_eq_ok header
      dsimp only at body
      split at body
      · cases body
      split at body
      · cases body
      next short nonempty =>
      have fits : 1 + hdr + len ≤ ((0x80 : UInt8) :: rest).length := by omega
      obtain ⟨octet, behind, taken, indexed⟩ := byteAt_content fits (by omega)
      rw [indexed, ok_bind] at body
      obtain ⟨error, known, result⟩ := bind_eq_ok body
      cases result
      refine ⟨error, rfl, octet, behind, ?_, known⟩
      rw [readElement_of_header length fits, taken]
    · cases read

theorem decode_success {rest : List UInt8} {len hdr : Nat} (header : decodeLength rest = .ok (len, hdr)) :
    decode (0x81 :: rest) = .ok (.success, 1 + hdr + len) := by
  unfold decode
  simp only [firstByte_cons, sliceFrom_one_cons, ok_bind, header,
    orMmsError_ok]
  rfl

end WriteOutcome

/-- What an element decoder owes its caller on one input: it returns or refuses, what it consumes
lies inside the input, and an error it reports is the number the INTEGER at the front of the input
denotes. -/
structure DecodesExactly {α : Type} (decode : List UInt8 → Fallible MmsError (α × Nat))
    (errorOf : α → Option DataAccessError) (data : List UInt8) : Prop where
  safe : (decode data).Safe
  consumed : ∀ value consumed, decode data = .ok (value, consumed) → 1 ≤ consumed ∧ consumed ≤ data.length
  code : ∀ value consumed error, decode data = .ok (value, consumed) → errorOf value = some error →
    ∃ element, readElement data = .ok element ∧ signedOfBytes element.content = some (error.code.toNat : Int)

def AccessResult.errorOf : AccessResult → Option DataAccessError
  | .success _ => none
  | .failure error => some error

def WriteOutcome.errorOf : WriteOutcome → Option DataAccessError
  | .success => none
  | .failure error => some error

/-- The length of a success lies inside the input, and a known error code stands in one octet (or is
zero throughout). -/
structure PlainElement (data : List UInt8) : Prop where
  success : ∀ rest len hdr, data = 0x81 :: rest → decodeLength rest = .ok (len, hdr) → 1 + hdr + len ≤ data.length
  failure : ∀ code others consumed, readElement data = .ok { tag := 0x80, content := code :: others, consumed } →
    code.toNat ≤ 11 → others = [] ∨ code = 0 ∧ ∀ octet ∈ others, octet = 0

theorem MmsData.decodesExactly : DecodesExactly MmsData.decode (fun _ => none) data where
  safe := MmsData.decode_safe data
  consumed _ _ read := MmsData.decode_bounds read
  code _ _ _ _ reported := nomatch reported

theorem FailureAt.code {data : List UInt8} (failure : FailureAt data error consumed) (plain : PlainElement data) :
    ∃ element, readElement data = .ok element ∧ signedOfBytes element.content = some (error.code.toNat : Int) := by
  obtain ⟨code, others, read, known⟩ := failure
  obtain ⟨same, small⟩ := DataAccessError.fromCode_eq_ok known
  refine ⟨_, read, ?_⟩
  rw [same]
  exact (signedOfBytes_eq_first_iff (by omega)).mpr (plain.failure code others consumed read small)

theorem FailureAt.bounds {data : List UInt8}
    (failure : FailureAt data error consumed) : 1 ≤ consumed ∧ consumed ≤ data.length := by
  obtain ⟨code, others, read, _⟩ := failure
  have bounds := readElement_bounds read
  dsimp only at bounds
  omega

theorem AccessResult.decodesExactly {data : List UInt8} (plain : PlainElement data) :
    DecodesExactly decode errorOf data where
  safe := decode_safe data
  consumed _ _ read := by
    rcases decode_cases read with ⟨error, _, failure⟩ | ⟨value, _, decoded⟩
    · exact failure.bounds
    · exact MmsData.decode_bounds decoded
  code _ _ _ read reported := by
    rcases decode_cases read with ⟨error, rfl, failure⟩ | ⟨value, rfl, _⟩
    · cases reported
      exact failure.code plain
    · cases reported

theorem WriteOutcome.decodesExactly {data : List UInt8} (plain : PlainElement data) :
    DecodesExactly WriteOutcome.decode WriteOutcome.errorOf data where
  safe := WriteOutcome.decode_safe data
  consumed _ _ read := by
    rcases WriteOutcome.decode_cases read with ⟨error, _, failure⟩ | ⟨rest, len, hdr, _, same, header, rfl⟩
    · exact failure.bounds
    · exact ⟨by omega, plain.success rest len hdr same header⟩
  code _ _ _ read reported := by
    rcases WriteOutcome.decode_cases read with ⟨error, rfl, failure⟩ | ⟨rest, len, hdr, rfl, _⟩
    · cases reported
      exact failure.code plain
    · cases reported

theorem plainElement_of_exact {data : List UInt8} (results : DecodesExactly decode errorOf data)
    (outcomes : DecodesExactly WriteOutcome.decode WriteOutcome.errorOf data) : PlainElement data where
  success rest len hdr same header := by
    subst same
    exact (outcomes.consumed _ _ (WriteOutcome.decode_success header)).2
  failure code others consumed read small := by
    obtain ⟨error, known⟩ := DataAccessError.fromCode_of_le small
    have decoded := decode_of_failureAt ⟨code, others, read, known⟩
    obtain ⟨element, again, denoted⟩ := results.code _ _ error decoded rfl
    rw [read] at again
    cases again
    rw [(DataAccessError.fromCode_eq_ok known).1] at denoted
    exact (signedOfBytes_eq_first_iff (by omega)).mp denoted

/-- The three element decoders are exact on an input exactly if the element at its front is plain.
The list decoders return or refuse on every input, and stay inside one whose elements are all
plain. -/
theorem elements_decode_exactly_iff_plain (data : List UInt8) : (DecodesExactly MmsData.decode (fun _ => none) data ∧
        DecodesExactly decode errorOf data ∧
        DecodesExactly WriteOutcome.decode WriteOutcome.errorOf data ↔ PlainElement data) ∧
      ((decodeListOfAccessResult data).Safe ∧ (decodeWriteResponseInner data).Safe) ∧
      ((∀ start, PlainElement (data.drop start)) →
        (∀ position, Advances decode data position → position ≤ data.length) ∧
        ∀ position, Advances WriteOutcome.decode data position → position ≤ data.length) := by
  refine ⟨⟨?_, ?_⟩, ⟨?_, ?_⟩, ?_⟩
  · intro exact
    exact plainElement_of_exact exact.2.1 exact.2.2
  · intro plain
    exact ⟨MmsData.decodesExactly data, decodesExactly plain, WriteOutcome.decodesExactly plain⟩
  · apply readWhole_safe decode_safe
    intro data value consumed read
    rcases decode_cases read with ⟨error, _, failure⟩ | ⟨value, _, decoded⟩
    · exact failure.bounds.1
    · exact (MmsData.decode_bounds decoded).1
  · apply readWhole_safe WriteOutcome.decode_safe
    intro data value consumed read
    rcases WriteOutcome.decode_cases read with ⟨error, _, failure⟩ | ⟨rest, len, hdr, _, _, _, rfl⟩
    · exact failure.bounds.1
    · omega
  · intro plain
    constructor
    · intro position reached
      apply reached.inside
      intro start value consumed read
      exact ((decodesExactly (plain start)).consumed value consumed read).2
    · intro position reached
      apply reached.inside
      intro start value consumed read
      exact ((WriteOutcome.decodesExactly (plain start)).consumed value consumed read).2

/-- A success that declares five octets is accepted from two, and an object-non-existent INTEGER of
two octets is reported as object-invalidated. -/
theorem elements_read_past_input_and_first_octet_only : WriteOutcome.decode [0x81, 0x05] = .ok (.success, 7) ∧
      (readElement [0x80, 0x02, 0x00, 0x0a]).toOption.map (signedOfBytes ·.content) = some (some 10) ∧
      WriteOutcome.decode [0x80, 0x02, 0x00, 0x0a] = .ok (.failure .objectInvalidated, 4) ∧
      (decode [0x80, 0x02, 0x00, 0x0a]).toOption.map (errorOf ·.1) =
        some (some .objectInvalidated) := by
  decide

end Iec61850.Mms
