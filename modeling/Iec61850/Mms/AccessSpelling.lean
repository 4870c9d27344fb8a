import Iec61850.Mms.AlternateAccess

/-!
The octets of an alternate access: the grammar the decoder accepts, the octets it passes over
included, and that it reads from them what they spell.
-/

namespace Iec61850.Mms

open List Wire Wire.Fallible

/-- A definite length in one to three octets, not necessarily the fewest. -/
inductive LengthField : List UInt8 → Nat → Prop
  | short (octet : UInt8) (small : octet < 0x80) : LengthField [octet] octet.toNat
  | one (octet : UInt8) : LengthField [0x81, octet] octet.toNat
  | two (high low : UInt8) : LengthField [0x82, high, low] (high.toNat <<< 8 ||| low.toNat)

inductive Tlv (tag : UInt8) (content : List UInt8) : List UInt8 → Prop
  | mk {field : List UInt8} (length : LengthField field content.length) : Tlv tag content (tag :: (field ++ content))

variable {len : Nat} {data : List UInt8} {tag : UInt8} {content bytes bytes' number : List UInt8}
  {access' : WireAccess}

theorem decodeLength_field {field : List UInt8} (length : LengthField field len) (rest : List UInt8) :
    decodeLength (field ++ rest) = .ok (len, field.length) := by
  cases length with
  | short octet small =>
    simp [decodeLength, small, pure, Except.pure]
  | one octet =>
    have long : ¬ ((0x81 : UInt8) < 0x80) := by decide
    simp [decodeLength, long, byteAt, pure, Except.pure]
  | two high low =>
    have long : ¬ ((0x82 : UInt8) < 0x80) := by decide
    simp [decodeLength, long, byteAt, pure, Except.pure]

theorem field_of_decodeLength {hdr : Nat} (read : decodeLength data = .ok (len, hdr)) :
    ∃ field rest, data = field ++ rest ∧ LengthField field len ∧ hdr = field.length := by
  cases data with
  | nil => cases read
  | cons first rest =>
    unfold decodeLength at read
    simp only [isEmpty_cons, Bool.false_eq_true, if_false, byteAt_zero_cons, ok_bind] at read
    split at read
    · next small =>
      cases read
      exact ⟨[first], rest, rfl, .short first small, rfl⟩
    split at read
    · next one =>
      subst one
      match rest with
      | [] => cases read
      | octet :: rest =>
        cases read
        exact ⟨[0x81, octet], rest, rfl, .one octet, rfl⟩
    split at read
    · next two =>
      subst two
      match rest with
      | [] => cases read
      | [_] => cases read
      | high :: low :: rest =>
        cases read
        exact ⟨[0x82, high, low], rest, rfl, .two high low, rfl⟩
    · cases read

theorem readElement_tlv (tlv : Tlv tag content bytes) (rest : List UInt8) :
    readElement (bytes ++ rest) = .ok { tag, content, consumed := bytes.length } := by
  cases tlv with
  | @mk field length =>
    have header := decodeLength_field length (content ++ rest)
    unfold readElement
    simp only [cons_append, append_assoc, isEmpty_cons, Bool.false_eq_true, if_false, byteAt_zero_cons,
      sliceFrom_one_cons, ok_bind, header, orMmsError_ok]
    rw [if_neg (by simp only [length_cons, length_append]; omega),
      slice_of_le (by omega) (by simp only [length_cons, length_append]; omega)]
    have body : ((tag :: (field ++ (content ++ rest))).take
        (1 + field.length + content.length)).drop (1 + field.length) =
        content := by
      rw [Nat.add_comm 1, Nat.add_right_comm, take_succ_cons, drop_succ_cons, ← append_assoc,
        ← length_append, take_left, drop_left]
    rw [body]
    simp only [ok_bind, length_cons, length_append]
    congr 2
    omega

theorem readElement_whole (tlv : Tlv tag content bytes) :
    readElement bytes = .ok { tag, content, consumed := bytes.length } := by
  have read := readElement_tlv tlv []
  rwa [append_nil] at read

theorem tlv_of_readElement {element : Element} (read : readElement data = .ok element) :
    ∃ bytes rest, data = bytes ++ rest ∧ Tlv element.tag element.content bytes ∧ element.consumed = bytes.length := by
  cases data with
  | nil => cases read
  | cons tag data =>
    unfold readElement at read
    simp only [firstByte_cons, sliceFrom_one_cons, ok_bind] at read
    obtain ⟨⟨len, hdr⟩, header, body⟩ := bind_eq_ok read
    obtain ⟨field, behind, rfl, length, rfl⟩ := field_of_decodeLength (orMmsError_eq_ok header)
    dsimp only at body
    split at body
    · cases body
    next inside =>
    rw [slice_of_le (by omega) (by omega)] at body
    cases body
    simp only [length_cons, length_append] at inside
    have size : (behind.take len).length = len := by
      rw [length_take]
      omega
    have content : ((tag :: (field ++ behind)).take (1 + field.length + len)).drop (1 + field.length) =
        behind.take len := by
      rw [Nat.add_comm 1, Nat.add_right_comm, take_succ_cons, drop_succ_cons, take_append,
        drop_append]
      simp
    refine ⟨tag :: (field ++ behind.take len), behind.drop len, ?_, ?_, ?_⟩
    · rw [cons_append, append_assoc, take_append_drop]
    · dsimp only
      rw [content]
      exact .mk (size.symm ▸ length)
    · dsimp only
      simp only [length_cons, length_append, size]
      omega

theorem tlv_unique {tag' : UInt8} {content' rest rest' : List UInt8}
    (tlv : Tlv tag content bytes) (tlv' : Tlv tag' content' bytes') (same : bytes ++ rest = bytes' ++ rest') :
    tag = tag' ∧ content = content' ∧ rest = rest' := by
  have read := readElement_tlv tlv rest
  rw [same, readElement_tlv tlv' rest'] at read
  injection read with equal
  injection equal with tags contents lengths
  refine ⟨tags.symm, contents.symm, ?_⟩
  exact (append_inj same lengths.symm).2

theorem tlv_encodeTlv (tag : UInt8) (fits : content.length ≤ 65535) : Tlv tag content (encodeTlv tag content) := by
  have field : LengthField (encodeLength content.length) content.length := by
    obtain ⟨field, rest, split, length, size⟩ := field_of_decodeLength (decodeLength_encodeLength fits [])
    rw [append_nil] at split
    rw [← encodeLength_length, split, length_append] at size
    have nothing : rest = [] := length_eq_zero_iff.mp (by omega)
    rw [split, nothing, append_nil]
    exact length
  exact .mk field

def Identifier (name : String) : Prop := name ≠ "" ∧ stringLen name ≤ maxIdentifierLen

def UnsignedContent (octets : List UInt8) : Prop := octets ≠ [] ∧ octets.length ≤ 8

/-- A name of a chain, with the octets that the decoder passes over behind its member and behind its
sequence. -/
structure ChainLink where
  name : String
  inside : List UInt8
  behind : List UInt8

inductive WireAccess where
  | index (number : List UInt8)
  | component (name : String)
  | componentThen (name : String) (nested : WireAccess)
  | indexThen (number : List UInt8) (chain : List ChainLink)

inductive SpellsChain : List ChainLink → List UInt8 → Prop
  | last {link : ChainLink} {member sequence : List UInt8} (identifier : Identifier link.name)
      (spelled : Tlv 0x81 (stringBytes link.name) member) (whole : Tlv 0x30 (member ++ link.inside) sequence) :
      SpellsChain [link] (sequence ++ link.behind)
  | more {link : ChainLink} {rest : List ChainLink} {selection tail member sequence : List UInt8}
      (identifier : Identifier link.name) (selected : Tlv 0x80 (stringBytes link.name) selection)
      (nested : SpellsChain rest tail) (spelled : Tlv 0xa0 (selection ++ tail) member)
      (whole : Tlv 0x30 (member ++ link.inside) sequence) :
      SpellsChain (link :: rest) (sequence ++ link.behind)

inductive SpellsMember : WireAccess → List UInt8 → Prop
  | index {number member : List UInt8} (unsigned : UnsignedContent number) (spelled : Tlv 0x82 number member) :
      SpellsMember (.index number) member
  | component {name : String} {member : List UInt8} (identifier : Identifier name)
      (spelled : Tlv 0x81 (stringBytes name) member) : SpellsMember (.component name) member
  | componentThen {name : String} {access : WireAccess} {selection inner sequence member : List UInt8}
      (identifier : Identifier name) (selected : Tlv 0x80 (stringBytes name) selection)
      (nested : SpellsMember access inner) (whole : Tlv 0x30 inner sequence)
      (spelled : Tlv 0xa0 (selection ++ sequence) member) : SpellsMember (.componentThen name access) member
  | indexThen {number selection tail member : List UInt8} {chain : List ChainLink} (unsigned : UnsignedContent number)
      (selected : Tlv 0x81 number selection) (nested : SpellsChain chain tail)
      (spelled : Tlv 0xa0 (selection ++ tail) member) : SpellsMember (.indexThen number chain) member

def Spells (access : WireAccess) (bytes : List UInt8) : Prop :=
  ∃ member, SpellsMember access member ∧ Tlv 0x30 member bytes

def joinNames : List String → String
  | [] => ""
  | [last] => last
  | head :: rest => head ++ "$" ++ joinNames rest

def unsignedOf (number : List UInt8) : UInt64 := shiftInto64 0 number

namespace WireAccess

def read : WireAccess → AlternateAccess
  | .index number => .index (unsignedOf number).toUInt32
  | .component name => .component name none
  | .componentThen name nested => .component name (some nested.read)
  | .indexThen number chain => .indexComponent (unsignedOf number).toUInt32 (joinNames (chain.map (·.name)))

def depth : WireAccess → Nat
  | .index _ => 0
  | .component _ => 0
  | .componentThen _ nested => nested.depth + 1
  | .indexThen _ chain => chain.length

end WireAccess

theorem decodeUnsignedInt_content (unsigned : UnsignedContent number) :
    decodeUnsignedInt number = .ok (unsignedOf number) := by
  obtain ⟨nonempty, short⟩ := unsigned
  have present : number.isEmpty = false := by simpa using nonempty
  rw [decodeUnsignedInt, present, Bool.false_or, if_neg (by simpa using short)]
  rfl

theorem content_of_decodeUnsignedInt {value : UInt64} (read : decodeUnsignedInt number = .ok value) :
    UnsignedContent number ∧ value = unsignedOf number := by
  unfold decodeUnsignedInt at read
  split at read
  · cases read
  next content =>
  cases read
  simp only [Bool.or_eq_true, List.isEmpty_iff, decide_eq_true_eq, not_or, Nat.not_lt] at content
  exact ⟨content, rfl⟩

theorem bytes_of_decodeUtf8 {val : List UInt8} {text : String} (read : decodeUtf8 val = .ok text) :
    val = stringBytes text := by
  unfold decodeUtf8 String.fromUTF8? at read
  split at read
  · next found =>
    cases read
    split at found
    · cases found
      simp [stringBytes, String.fromUTF8]
    · cases found
  · cases read

namespace AlternateAccess

variable {name : String} {content bytes data : List UInt8} {total : Nat} {tag : UInt8} {tail : List UInt8} {α : Type}
  {depth maxDepth : UInt8} {levels : Nat} {member : List UInt8}

theorem decodeComponentIdentifier_name (identifier : Identifier name) :
    decodeComponentIdentifier (stringBytes name) = .ok name := by
  have present : name.isEmpty = false := by simpa using identifier.1
  rw [decodeComponentIdentifier, decodeUtf8_stringBytes, ok_bind, present, if_neg Bool.false_ne_true,
    if_neg (Nat.not_lt.mpr identifier.2)]
  rfl

theorem name_of_decodeComponentIdentifier {val : List UInt8}
    (read : decodeComponentIdentifier val = .ok name) : Identifier name ∧ val = stringBytes name := by
  obtain ⟨text, decoded, checked⟩ := bind_eq_ok read
  split at checked
  · cases checked
  next present =>
  split at checked
  · cases checked
  · next short =>
    cases checked
    exact ⟨⟨by simpa using present, Nat.not_lt.mp short⟩, bytes_of_decodeUtf8 decoded⟩

theorem altAccessSequenceBody_tlv (whole : Tlv 0x30 content bytes) (rest : List UInt8) :
    altAccessSequenceBody (bytes ++ rest) = .ok (content, bytes.length) := by
  have read := readElement_tlv whole rest
  cases whole with
  | mk length =>
    rw [altAccessSequenceBody, cons_append, isEmpty_cons, if_neg Bool.false_ne_true, byteAt_zero_cons, ok_bind,
      if_neg (by simp), ← cons_append, read]
    rfl

theorem tlv_of_altAccessSequenceBody (read : altAccessSequenceBody data = .ok (content, total)) :
    ∃ bytes rest, data = bytes ++ rest ∧ Tlv 0x30 content bytes ∧ total = bytes.length := by
  cases data with
  | nil => cases read
  | cons first data =>
    rw [altAccessSequenceBody, isEmpty_cons, if_neg Bool.false_ne_true, byteAt_zero_cons, ok_bind] at read
    split at read
    · cases read
    next sequence =>
    obtain ⟨element, element_read, result⟩ := bind_eq_ok read
    cases result
    obtain ⟨bytes, rest, split, tlv, consumed⟩ := tlv_of_readElement element_read
    have tag : element.tag = 0x30 := by
      cases tlv with
      | mk length =>
        injection split with same
        rw [← same]
        exact not_not.mp sequence
    exact ⟨bytes, rest, split, tag ▸ tlv, consumed⟩

theorem selection_tlv {selection : List UInt8} (selected : Tlv tag content selection) (tail : List UInt8) :
    (selection ++ tail).isEmpty = false ∧ (byteAt (selection ++ tail) 0 : Fallible MmsError UInt8) = .ok tag ∧
      (sliceFrom (selection ++ tail) selection.length : Fallible MmsError (List UInt8)) = .ok tail := by
  refine ⟨?_, ?_, ?_⟩
  · cases selected
    rfl
  · cases selected
    rfl
  · rw [sliceFrom_of_le (by simp), drop_left]

theorem behind_of_lt (room : depth.toNat < 255)
    (decode : UInt8 → List UInt8 → Fallible MmsError α) (tail : List UInt8) :
    behind depth decode tail = decode (depth + 1) tail := by
  have below : nextDepth depth = .ok (depth + 1) := by
    rw [nextDepth, if_neg]
    intro top
    rw [top] at room
    exact absurd room (by decide)
  rw [behind, below, ok_bind]

theorem decodeComponentChainSequence_spelled {chain : List ChainLink}
    (spelled : SpellsChain chain bytes) (enough : chain.length ≤ levels) (room : depth.toNat + levels ≤ 255) :
    decodeComponentChainSequence maxDepth levels depth bytes = .ok (joinNames (chain.map (·.name))) := by
  induction spelled generalizing depth levels with
  | @last link member sequence identifier spelled whole =>
    match levels, enough with
    | levels + 1, _ =>
      rw [decodeComponentChainSequence, altAccessSequenceBody_tlv whole, ok_bind]
      dsimp only
      rw [decodeComponentChainMember, readElement_tlv spelled, ok_bind]
      exact decodeComponentIdentifier_name identifier
  | @more link rest selection tail member sequence identifier selected nested spelled whole ih =>
    match levels, enough with
    | levels + 1, enough =>
      obtain ⟨present, first, behind⟩ := selection_tlv selected tail
      have below : (depth + 1).toNat = depth.toNat + 1 := depth_succ (by omega)
      have rest := @ih (depth + 1) levels (Nat.le_of_succ_le_succ enough) (by omega)
      rw [decodeComponentChainSequence, altAccessSequenceBody_tlv whole, ok_bind]
      dsimp only
      rw [decodeComponentChainMember, readElement_tlv spelled, ok_bind]
      rw [present, if_neg Bool.false_ne_true, first, ok_bind, if_neg (by simp), readElement_tlv selected, ok_bind]
      rw [decodeComponentIdentifier_name identifier, ok_bind, behind, ok_bind, behind_of_lt (by omega), rest, ok_bind]
      cases nested <;> rfl

theorem decodeSingleMember_of_tlv {nested : List UInt8 → Fallible MmsError AlternateAccess}
    {chain : List UInt8 → Fallible MmsError String} {access : AlternateAccess}
    (spelled : Tlv tag content member)
    (read : decodeAltAccessMember nested chain member = .ok (access, member.length)) :
    decodeSingleMember nested chain member = .ok access := by
  have present : member.isEmpty = false := by
    cases spelled
    rfl
  rw [decodeSingleMember, present, if_neg Bool.false_ne_true, read, ok_bind]
  dsimp only
  rw [if_neg (by simp)]
  rfl

theorem decodeSingleMember_spelled {access : WireAccess} (spelled : SpellsMember access member)
    (enough : access.depth ≤ levels) (room : depth.toNat + levels ≤ 254) :
    decodeSingleMember (behind depth (decodeNestedAltAccess maxDepth levels))
      (behind depth (decodeComponentChainSequence maxDepth levels)) member = .ok access.read := by
  induction spelled generalizing depth levels with
  | index unsigned spelled =>
    apply decodeSingleMember_of_tlv spelled
    rw [decodeAltAccessMember, readElement_whole spelled, ok_bind]
    dsimp only
    rw [decodeUnsignedInt_content unsigned]
    rfl
  | component identifier spelled =>
    apply decodeSingleMember_of_tlv spelled
    rw [decodeAltAccessMember, readElement_whole spelled, ok_bind]
    dsimp only
    rw [decodeComponentIdentifier_name identifier]
    rfl
  | @componentThen name access selection inner sequence member identifier selected nested whole spelled ih =>
    obtain ⟨present, first, tail⟩ := selection_tlv selected sequence
    have body := altAccessSequenceBody_tlv whole []
    rw [append_nil] at body
    apply decodeSingleMember_of_tlv spelled
    rw [decodeAltAccessMember, readElement_whole spelled, ok_bind]
    dsimp only
    rw [decodeSelectAlternateAccess, present, if_neg Bool.false_ne_true, first, ok_bind, if_neg (by simp),
      readElement_tlv selected, ok_bind]
    dsimp only
    match levels, enough with
    | levels + 1, enough =>
      have below : (depth + 1).toNat = depth.toNat + 1 := depth_succ (by omega)
      have inside := @ih (depth + 1) levels (Nat.le_of_succ_le_succ enough) (by omega)
      rw [tail, ok_bind, if_neg (by decide), decodeComponentIdentifier_name identifier, ok_bind,
        behind_of_lt (by omega), decodeNestedAltAccess, body, ok_bind]
      dsimp only
      rw [if_neg (by simp), inside]
      rfl
  | @indexThen number selection tail member chain unsigned selected nested spelled =>
    obtain ⟨present, first, behind⟩ := selection_tlv selected tail
    apply decodeSingleMember_of_tlv spelled
    rw [decodeAltAccessMember, readElement_whole spelled, ok_bind]
    dsimp only
    rw [decodeSelectAlternateAccess, present, if_neg Bool.false_ne_true, first, ok_bind, if_neg (by simp),
      readElement_tlv selected, ok_bind]
    dsimp only
    have below : (depth + 1).toNat = depth.toNat + 1 := depth_succ (by omega)
    rw [behind, ok_bind, if_pos rfl, decodeUnsignedInt_content unsigned, ok_bind, behind_of_lt (by omega),
      decodeComponentChainSequence_spelled nested enough (by omega)]
    rfl

theorem of_behind {decode : UInt8 → List UInt8 → Fallible MmsError α}
    {result : α} (read : behind depth decode tail = .ok result) : ∃ below, decode below tail = .ok result := by
  obtain ⟨below, -, next⟩ := bind_eq_ok read
  exact ⟨below, next⟩

theorem selection_of_read {selection : Element}
    (first : (byteAt content 0 : Fallible MmsError UInt8) = .ok tag) (read : readElement content = .ok selection)
    (behind : (sliceFrom content selection.consumed : Fallible MmsError (List UInt8)) = .ok tail) :
    ∃ bytes, content = bytes ++ tail ∧ Tlv tag selection.content bytes := by
  obtain ⟨bytes, rest, rfl, tlv, consumed⟩ := tlv_of_readElement read
  obtain ⟨-, opening, following⟩ := selection_tlv tlv rest
  rw [opening] at first
  rw [consumed, following] at behind
  cases first
  cases behind
  exact ⟨bytes, rfl, tlv⟩

theorem spelled_of_decodeComponentChainMember {nested : List UInt8 → Fallible MmsError String}
    (read : decodeComponentChainMember nested data = .ok name) :
    (∃ member rest, data = member ++ rest ∧ Identifier name ∧ Tlv 0x81 (stringBytes name) member) ∨
    ∃ head later selection tail member rest, data = member ++ rest ∧ Identifier head ∧
      Tlv 0x80 (stringBytes head) selection ∧ Tlv 0xa0 (selection ++ tail) member ∧ nested tail = .ok later ∧
      name = head ++ "$" ++ later := by
  obtain ⟨element, elementRead, selected⟩ := bind_eq_ok read
  obtain ⟨member, rest, rfl, spelled, -⟩ := tlv_of_readElement elementRead
  split at selected
  · next tag =>
    obtain ⟨identifier, content⟩ := name_of_decodeComponentIdentifier selected
    rw [tag, content] at spelled
    exact .inl ⟨member, rest, rfl, identifier, spelled⟩
  · next tag =>
    split at selected
    · cases selected
    obtain ⟨first, firstRead, named⟩ := bind_eq_ok selected
    split at named
    · cases named
    next component =>
    obtain ⟨selection, selectionRead, headed⟩ := bind_eq_ok named
    obtain ⟨head, headRead, tailed⟩ := bind_eq_ok headed
    obtain ⟨tail, tailRead, chained⟩ := bind_eq_ok tailed
    obtain ⟨later, laterRead, joined⟩ := bind_eq_ok chained
    cases joined
    rw [not_not.mp component] at firstRead
    obtain ⟨bytes, content, selectionSpelled⟩ := selection_of_read firstRead selectionRead tailRead
    obtain ⟨identifier, headBytes⟩ := name_of_decodeComponentIdentifier headRead
    rw [headBytes] at selectionSpelled
    rw [tag, content] at spelled
    exact .inr ⟨head, later, bytes, tail, member, rest, rfl, identifier, selectionSpelled, spelled, laterRead, rfl⟩
  · cases selected

theorem spelled_of_decodeComponentChainSequence
    (read : decodeComponentChainSequence maxDepth levels depth data = .ok name) :
    ∃ chain, SpellsChain chain data ∧ name = joinNames (chain.map (·.name)) ∧ chain.length ≤ levels := by
  induction levels generalizing depth data name with
  | zero => cases read
  | succ levels ih =>
    obtain ⟨⟨inner, total⟩, bodyRead, memberRead⟩ := bind_eq_ok read
    obtain ⟨sequence, behind, rfl, whole, -⟩ := tlv_of_altAccessSequenceBody bodyRead
    rcases spelled_of_decodeComponentChainMember memberRead with
      ⟨member, inside, rfl, identifier, spelled⟩ |
      ⟨head, later, selection, tail, member, inside, rfl, identifier, selected, spelled, laterRead, rfl⟩
    · exact ⟨[⟨name, inside, behind⟩], .last identifier spelled whole, rfl, Nat.succ_le_succ (Nat.zero_le _)⟩
    obtain ⟨below, nestedRead⟩ := of_behind laterRead
    obtain ⟨chain, nested, rfl, short⟩ := ih nestedRead
    refine ⟨⟨head, inside, behind⟩ :: chain, .more identifier selected nested spelled whole, ?_,
      Nat.succ_le_succ short⟩
    cases nested <;> rfl

/-- The member of a sequence by what its tag says, and what is decoded behind its selection. -/
inductive ReadsMember (nested : List UInt8 → Fallible MmsError AlternateAccess)
    (chain : List UInt8 → Fallible MmsError String) (member : List UInt8) : AlternateAccess → Prop
  | index {number : List UInt8} (unsigned : UnsignedContent number) (spelled : Tlv 0x82 number member) :
      ReadsMember nested chain member (.index (unsignedOf number).toUInt32)
  | component {name : String} (identifier : Identifier name) (spelled : Tlv 0x81 (stringBytes name) member) :
      ReadsMember nested chain member (.component name none)
  | componentThen {name : String} {selection tail : List UInt8} {access : AlternateAccess} (identifier : Identifier name)
      (selected : Tlv 0x80 (stringBytes name) selection) (spelled : Tlv 0xa0 (selection ++ tail) member)
      (read : nested tail = .ok access) : ReadsMember nested chain member (.component name (some access))
  | indexThen {number selection tail : List UInt8} {path : String} (unsigned : UnsignedContent number)
      (selected : Tlv 0x81 number selection) (spelled : Tlv 0xa0 (selection ++ tail) member)
      (read : chain tail = .ok path) :
      ReadsMember nested chain member (.indexComponent (unsignedOf number).toUInt32 path)

section

variable {nested : List UInt8 → Fallible MmsError AlternateAccess} {chain : List UInt8 → Fallible MmsError String}
  {access : AlternateAccess}

theorem readsMember_of_select {content member : List UInt8} (spelled : Tlv 0xa0 content member)
    (read : decodeSelectAlternateAccess nested chain content = .ok access) :
    ReadsMember nested chain member access := by
  unfold decodeSelectAlternateAccess at read
  split at read
  · cases read
  obtain ⟨tag, first, selected⟩ := bind_eq_ok read
  split at selected
  · cases selected
  next supported =>
  obtain ⟨selection, selectionRead, tailed⟩ := bind_eq_ok selected
  obtain ⟨tail, tailRead, decoded⟩ := bind_eq_ok tailed
  obtain ⟨bytes, rfl, selectionSpelled⟩ := selection_of_read first selectionRead tailRead
  split at decoded
  · next isIndex =>
    obtain ⟨number, numberRead, chained⟩ := bind_eq_ok decoded
    obtain ⟨path, pathRead, built⟩ := bind_eq_ok chained
    cases built
    obtain ⟨unsigned, rfl⟩ := content_of_decodeUnsignedInt numberRead
    rw [isIndex] at selectionSpelled
    exact .indexThen unsigned selectionSpelled spelled pathRead
  · next isComponent =>
    obtain ⟨name, nameRead, followed⟩ := bind_eq_ok decoded
    obtain ⟨later, laterRead, built⟩ := bind_eq_ok followed
    cases built
    obtain ⟨identifier, content⟩ := name_of_decodeComponentIdentifier nameRead
    have component : tag = 0x80 := by
      by_contra other
      exact supported ⟨other, isComponent⟩
    rw [component, content] at selectionSpelled
    exact .componentThen identifier selectionSpelled spelled laterRead

theorem readsMember_of_decodeSingleMember {inner : List UInt8}
    (read : decodeSingleMember nested chain inner = .ok access) :
    ReadsMember nested chain inner access := by
  unfold decodeSingleMember at read
  split at read
  · cases read
  obtain ⟨⟨found, consumed⟩, memberRead, whole⟩ := bind_eq_ok read
  dsimp only at whole
  split at whole
  · cases whole
  next all =>
  cases whole
  obtain ⟨element, elementRead, selected⟩ := bind_eq_ok memberRead
  obtain ⟨member, rest, rfl, spelled, size⟩ := tlv_of_readElement elementRead
  -- every alternative consumes the element, so that nothing follows it
  have alone (same : element.consumed = consumed) : rest = [] := by
    have length := not_not.mp all
    rw [← same, size, length_append] at length
    exact length_eq_zero_iff.mp (by omega)
  split at selected
  · next tag =>
    obtain ⟨number, numberRead, built⟩ := bind_eq_ok selected
    cases built
    obtain ⟨unsigned, rfl⟩ := content_of_decodeUnsignedInt numberRead
    rw [tag] at spelled
    rw [alone rfl, append_nil]
    exact .index unsigned spelled
  · next tag =>
    obtain ⟨name, nameRead, built⟩ := bind_eq_ok selected
    cases built
    obtain ⟨identifier, content⟩ := name_of_decodeComponentIdentifier nameRead
    rw [tag, content] at spelled
    rw [alone rfl, append_nil]
    exact .component identifier spelled
  · next tag =>
    obtain ⟨later, laterRead, built⟩ := bind_eq_ok selected
    cases built
    rw [tag] at spelled
    rw [alone rfl, append_nil]
    exact readsMember_of_select spelled laterRead
  all_goals cases selected

end

theorem spelled_of_decodeSingleMember {inner : List UInt8} {access : AlternateAccess}
    (read : decodeSingleMember (behind depth (decodeNestedAltAccess maxDepth levels))
      (behind depth (decodeComponentChainSequence maxDepth levels)) inner = .ok access) :
    ∃ wire, SpellsMember wire inner ∧ access = wire.read ∧ wire.depth ≤ levels := by
  induction levels generalizing depth inner access with
  | zero =>
    cases readsMember_of_decodeSingleMember read with
    | index unsigned spelled => exact ⟨.index _, .index unsigned spelled, rfl, Nat.le_refl 0⟩
    | component identifier spelled => exact ⟨.component _, .component identifier spelled, rfl, Nat.le_refl 0⟩
    | componentThen identifier selected spelled nestedRead => cases (of_behind nestedRead).choose_spec
    | indexThen unsigned selected spelled chainRead => cases (of_behind chainRead).choose_spec
  | succ levels ih =>
    cases readsMember_of_decodeSingleMember read with
    | index unsigned spelled => exact ⟨.index _, .index unsigned spelled, rfl, Nat.zero_le _⟩
    | component identifier spelled => exact ⟨.component _, .component identifier spelled, rfl, Nat.zero_le _⟩
    | componentThen identifier selected spelled nestedRead =>
      obtain ⟨below, sequenceRead⟩ := of_behind nestedRead
      obtain ⟨⟨body, total⟩, bodyRead, memberRead⟩ := bind_eq_ok sequenceRead
      obtain ⟨sequence, rest, rfl, whole, size⟩ := tlv_of_altAccessSequenceBody bodyRead
      dsimp only at memberRead
      split at memberRead
      · cases memberRead
      next all =>
      have nothing : rest = [] := by
        have length := not_not.mp all
        rw [size, length_append] at length
        exact length_eq_zero_iff.mp (by omega)
      rw [nothing, append_nil] at spelled
      obtain ⟨wire, nested, rfl, short⟩ := ih memberRead
      exact ⟨.componentThen _ wire, .componentThen identifier selected nested whole spelled, rfl,
        Nat.succ_le_succ short⟩
    | indexThen unsigned selected spelled chainRead =>
      obtain ⟨below, sequenceRead⟩ := of_behind chainRead
      obtain ⟨chain, nested, rfl, short⟩ := spelled_of_decodeComponentChainSequence sequenceRead
      exact ⟨.indexThen _ chain, .indexThen unsigned selected nested spelled, rfl, short⟩

theorem nestingCeiling_le (maxDepth : UInt8) : (nestingCeiling maxDepth).toNat ≤ 32 := by
  unfold nestingCeiling
  split
  · next below => exact Nat.le_of_lt (UInt8.lt_iff_toNat_lt.mp below)
  · exact Nat.le_refl 32

theorem decodeWithMax_spelled {access : WireAccess} {bytes : List UInt8}
    (spelled : Spells access bytes) {maxDepth : UInt8}
    (shallow : access.depth ≤ (nestingCeiling maxDepth).toNat) (rest : List UInt8) :
    decodeWithMax (bytes ++ rest) maxDepth = .ok (access.read, bytes.length) := by
  obtain ⟨member, inner, whole⟩ := spelled
  have ceiling := nestingCeiling_le maxDepth
  have zero : (0 : UInt8).toNat = 0 := rfl
  rw [decodeWithMax, altAccessSequenceBody_tlv whole, ok_bind]
  dsimp only
  rw [decodeSingleMember_spelled inner shallow (by omega)]
  rfl

theorem spelled_of_decodeWithMax {access : AlternateAccess} (read : decodeWithMax data maxDepth = .ok (access, total)) :
    ∃ wire bytes rest, data = bytes ++ rest ∧ total = bytes.length ∧ Spells wire bytes ∧ access = wire.read ∧
      wire.depth ≤ (nestingCeiling maxDepth).toNat := by
  obtain ⟨⟨inner, size⟩, bodyRead, selected⟩ := bind_eq_ok read
  obtain ⟨found, memberRead, result⟩ := bind_eq_ok selected
  cases result
  obtain ⟨bytes, rest, rfl, whole, rfl⟩ := tlv_of_altAccessSequenceBody bodyRead
  obtain ⟨wire, spelled, rfl, shallow⟩ := spelled_of_decodeSingleMember memberRead
  exact ⟨wire, bytes, rest, rfl, rfl, ⟨inner, spelled, whole⟩, rfl, shallow⟩

end AlternateAccess

theorem stringBytes_injective {name name' : String} (same : stringBytes name = stringBytes name') : name = name' := by
  have decoded := decodeUtf8_stringBytes name
  rw [same, decodeUtf8_stringBytes] at decoded
  injection decoded with equal
  exact equal.symm

theorem ChainLink.eq_of {link link' : ChainLink} (name : link.name = link'.name) (inside : link.inside = link'.inside)
    (behind : link.behind = link'.behind) : link = link' := by
  cases link
  cases name
  cases inside
  cases behind
  rfl

theorem spellsChain_unique {chain chain' : List ChainLink} (spelled : SpellsChain chain bytes)
    (spelled' : SpellsChain chain' bytes') (same : bytes = bytes') : chain = chain' := by
  induction spelled generalizing chain' bytes' with
  | last identifier spelled whole =>
    cases spelled' with
    | last identifier' spelled' whole' =>
      obtain ⟨-, contents, behind⟩ := tlv_unique whole whole' same
      obtain ⟨-, names, inside⟩ := tlv_unique spelled spelled' contents
      rw [ChainLink.eq_of (stringBytes_injective names) inside behind]
    | more identifier' selected' nested' spelled' whole' =>
      obtain ⟨-, contents, -⟩ := tlv_unique whole whole' same
      exact absurd (tlv_unique spelled spelled' contents).1 (by decide)
  | more identifier selected nested spelled whole ih =>
    cases spelled' with
    | last identifier' spelled' whole' =>
      obtain ⟨-, contents, -⟩ := tlv_unique whole whole' same
      exact absurd (tlv_unique spelled spelled' contents).1 (by decide)
    | more identifier' selected' nested' spelled' whole' =>
      obtain ⟨-, contents, behind⟩ := tlv_unique whole whole' same
      obtain ⟨-, selections, inside⟩ := tlv_unique spelled spelled' contents
      obtain ⟨-, names, tails⟩ := tlv_unique selected selected' selections
      rw [ChainLink.eq_of (stringBytes_injective names) inside behind, ih nested' tails]

theorem spellsMember_unique {access : WireAccess} {member member' : List UInt8}
    (spelled : SpellsMember access member) (spelled' : SpellsMember access' member') (same : member = member') :
    access = access' := by
  have equal : member ++ [] = member' ++ [] := by rw [same]
  induction spelled generalizing access' member' with
  | index unsigned spelled =>
    cases spelled' with
    | index unsigned' spelled' => rw [(tlv_unique spelled spelled' equal).2.1]
    | component identifier' spelled' => exact absurd (tlv_unique spelled spelled' equal).1 (by decide)
    | componentThen identifier' selected' nested' whole' spelled' =>
      exact absurd (tlv_unique spelled spelled' equal).1 (by decide)
    | indexThen unsigned' selected' nested' spelled' => exact absurd (tlv_unique spelled spelled' equal).1 (by decide)
  | component identifier spelled =>
    cases spelled' with
    | index unsigned' spelled' => exact absurd (tlv_unique spelled spelled' equal).1 (by decide)
    | component identifier' spelled' => rw [stringBytes_injective (tlv_unique spelled spelled' equal).2.1]
    | componentThen identifier' selected' nested' whole' spelled' =>
      exact absurd (tlv_unique spelled spelled' equal).1 (by decide)
    | indexThen unsigned' selected' nested' spelled' => exact absurd (tlv_unique spelled spelled' equal).1 (by decide)
  | componentThen identifier selected nested whole spelled ih =>
    cases spelled' with
    | index unsigned' spelled' | component identifier' spelled' =>
      exact absurd (tlv_unique spelled spelled' equal).1 (by decide)
    | componentThen identifier' selected' nested' whole' spelled' =>
      obtain ⟨-, selections, -⟩ := tlv_unique spelled spelled' equal
      obtain ⟨-, names, sequences⟩ := tlv_unique selected selected' selections
      have inner := (tlv_unique whole whole' (congrArg (· ++ []) sequences)).2.1
      rw [stringBytes_injective names, ih nested' inner (congrArg (· ++ []) inner)]
    | indexThen unsigned' selected' nested' spelled' =>
      obtain ⟨-, selections, -⟩ := tlv_unique spelled spelled' equal
      exact absurd (tlv_unique selected selected' selections).1 (by decide)
  | indexThen unsigned selected nested spelled =>
    cases spelled' with
    | index unsigned' spelled' | component identifier' spelled' =>
      exact absurd (tlv_unique spelled spelled' equal).1 (by decide)
    | componentThen identifier' selected' nested' whole' spelled' =>
      obtain ⟨-, selections, -⟩ := tlv_unique spelled spelled' equal
      exact absurd (tlv_unique selected selected' selections).1 (by decide)
    | indexThen unsigned' selected' nested' spelled' =>
      obtain ⟨-, selections, -⟩ := tlv_unique spelled spelled' equal
      obtain ⟨-, numbers, tails⟩ := tlv_unique selected selected' selections
      rw [numbers, spellsChain_unique nested nested' tails]

theorem spells_unique {access : WireAccess} (spelled : Spells access bytes)
    (spelled' : Spells access' bytes) : access = access' := by
  obtain ⟨member, inner, whole⟩ := spelled
  obtain ⟨member', inner', whole'⟩ := spelled'
  exact spellsMember_unique inner inner' (tlv_unique whole whole' (rfl : bytes ++ [] = bytes ++ [])).2.1

end Iec61850.Mms
