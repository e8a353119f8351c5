/-
  What is read of a STUN message: attributes as long as they should be are all read, the last of
  a type counts, and what follows the message does not matter.
-/
import JaySip.Java.Exec
import JaySip.Stun.Message

namespace JaySip.Stun

open Java (Str)

/-! ## Bytes -/

/-- A number in two bytes. -/
def word (n : ℕ) : List UInt8 := [byteOf n 1, byteOf n 0]

section
variable {n m : ℕ} {data bytes : List UInt8} (rest : List UInt8)

@[simp] theorem length_word : (word n).length = 2 := rfl

theorem byteOf_toNat (n i : ℕ) : (byteOf n i).toNat = n >>> (8 * i) % 256 := by
  rw [byteOf, Int.toNat_natCast, UInt8.toNat_ofNat', show 0xFF = 2 ^ 8 - 1 from rfl,
    Nat.and_two_pow_sub_one_eq_mod]
  omega

theorem byteOf_zero (b : UInt8) : byteOf b.toNat 0 = b := by
  refine UInt8.toNat_inj.1 ?_
  rw [byteOf_toNat]
  exact Nat.mod_eq_of_lt b.toNat_lt

theorem integerToOneByte_toNat (b : UInt8) : integerToOneByte b.toNat = .ok b := by
  have hb := b.toNat_lt
  rw [integerToOneByte, if_neg (by omega), byteOf_zero]

theorem integerToTwoBytes_natCast (hn : n ≤ 65536) : integerToTwoBytes n = .ok (word n) := by
  rw [integerToTwoBytes, if_neg (by omega)]
  rfl

/-- A number of 16 bits is read as it was written. -/
theorem twoBytesToInteger_word (hn : n < 65536) : twoBytesToInteger (word n ++ rest) = .ok n := by
  show Except.ok _ = _
  rw [byteOf_toNat, byteOf_toNat]
  congr 1
  rw [Nat.shiftLeft_eq, Nat.shiftRight_eq_div_pow, Nat.shiftRight_eq_div_pow]
  omega

theorem slice_append (data bytes : List UInt8) (h : data.length = n) (hb : bytes.length = m) :
    slice (data ++ bytes ++ rest) n m = .ok ⟨bytes, hb⟩ := by
  rw [slice, dif_pos (by simp only [List.length_append]; omega)]
  congr 2
  rw [List.append_assoc, List.drop_left' h, List.take_left' hb]

/-- Bytes are put behind those that are there. -/
theorem put_append (data bytes : List UInt8) (k : ℕ) (h : data.length = n) (hb : bytes.length = m) :
    put (data ++ List.replicate (m + k) 0) n bytes =
      .ok (data ++ bytes ++ List.replicate k 0) := by
  rw [put, if_pos (by simp only [List.length_append, List.length_replicate]; omega)]
  rw [List.take_left' h, hb, ← h, List.drop_append, List.drop_replicate, Nat.add_sub_cancel_left,
    Nat.add_sub_cancel_left, List.drop_eq_nil_of_le (Nat.le_add_right _ _), List.nil_append]

/-- The header of an attribute. -/
theorem header_eq (type : MessageAttributeType) {k t : ℕ}
    (ht : typeToInteger (some type) = t) (hlt : t < 65536) (hm : m < 65536) :
    header (4 + k) type m = .ok (word t ++ word m ++ List.replicate k 0) := by
  have h0 := put_append [] (word t) (2 + k) (n := 0) rfl length_word
  have h2 := put_append (word t) (word m) k (n := 2) rfl length_word
  rw [List.nil_append, List.nil_append, ← Nat.add_assoc] at h0
  simp only [header, ht, integerToTwoBytes_natCast hlt.le,
    integerToTwoBytes_natCast hm.le, Java.ok_bind, h0, h2]

end

/-! ## Types, lengths, values -/

/-- An attribute in a message. -/
structure Tlv where
  type : ℕ
  value : List UInt8
  type_lt : type < 65536
  length_lt : value.length < 65536

def Tlv.bytes (t : Tlv) : List UInt8 := word t.type ++ word t.value.length ++ t.value

/-- The kinds of addresses that the types stand for. -/
def kindOf : ℕ → Option AddressKind
  | 0x0001 => some .MappedAddress
  | 0x0002 => some .ResponseAddress
  | 0x0004 => some .SourceAddress
  | 0x0005 => some .ChangedAddress
  | 0x000b => some .ReflectedFrom
  | _ => none

/-- The characters of a text that the attribute's length covers. -/
def textOf (value : List UInt8) : Option Str :=
  if value.length % 4 = 0 ∧ value.all (fun b => b.toNat < 128) then
    some (value.map fun b => Char.ofNat b.toNat)
  else none

/-- The flags of a change request. -/
def flagsOf : List UInt8 → Option MessageAttribute
  | [_, _, _, 0] => some (.changeRequest false false)
  | [_, _, _, 2] => some (.changeRequest false true)
  | [_, _, _, 4] => some (.changeRequest true false)
  | [_, _, _, 6] => some (.changeRequest true true)
  | _ => none

/-- An attribute, if it is as long as those of its type should be.  The types from 0x8000 on may
    be skipped. -/
def Tlv.attribute (t : Tlv) : Option MessageAttribute :=
  match kindOf t.type, t.value with
  | some kind, [_, 1, p₁, p₀, a, b, c, d] =>
    some (.socketAddress kind (Fin.ofNat _ (p₁.toNat * 256 + p₀.toNat)) (some ⟨a, b, c, d⟩))
  | some _, _ => none
  | none, value =>
    if t.type = 0x0003 then flagsOf value
    else if t.type = 0x0006 then (textOf value).map fun text => .username (some text)
    else if t.type = 0x0007 then (textOf value).map fun text => .password (some text)
    else if 0x7fff < t.type then some (.dummy value.length)
    else none

section
variable (cs : Charset) {t : Tlv} {rest : List UInt8}

@[simp] theorem Tlv.length_bytes : t.bytes.length = 4 + t.value.length := by
  simp only [Tlv.bytes, List.length_append, length_word]

/-- The parser takes type, length and value apart. -/
theorem parseCommonHeader_bytes : parseCommonHeader cs (t.bytes ++ rest) =
    catchUtility (parseValue cs t.type t.value) := by
  have h0 := slice_append (word t.value.length ++ t.value ++ rest) [] (word t.type) (n := 0)
    (m := 2) rfl rfl
  have h2 := slice_append (t.value ++ rest) (word t.type) (word t.value.length) (n := 2) (m := 2)
    rfl rfl
  have h4 := slice_append rest (word t.type ++ word t.value.length) t.value (n := 4) rfl rfl
  have ht := twoBytesToInteger_word [] t.type_lt
  have hl := twoBytesToInteger_word [] t.length_lt
  rw [List.append_nil] at ht hl
  simp only [List.nil_append, List.append_assoc] at h0 h2 h4
  simp only [parseCommonHeader, Tlv.bytes, List.append_assoc, h0, h2, h4, ht, hl, Java.ok_bind]

theorem kindOf_eq_some {n : ℕ} {kind : AddressKind} (h : kindOf n = some kind) :
    typeToInteger (some kind.type) = n ∧ n < 65536 ∧
      ∀ value, parseValue cs n value = parseAddress kind value := by
  unfold kindOf at h
  split at h <;> cases h <;> exact ⟨rfl, by decide, fun _ => rfl⟩

theorem getBytes_socketAddress {n : ℕ} {kind : AddressKind} (h : kindOf n = some kind)
    (port : Fin 65537) (a : Address) :
    (MessageAttribute.socketAddress kind port (some a)).getBytes cs =
      .ok (word n ++ word 8 ++ ([0, 1] ++ word port.val ++
        [a.firstOctet, a.secondOctet, a.thirdOctet, a.fourthOctet])) := by
  obtain ⟨ht, hn, -⟩ := kindOf_eq_some cs h
  have hh : header 12 kind.type 8 = .ok (word n ++ word 8 ++ List.replicate 8 0) :=
    header_eq kind.type (k := 8) (m := 8) ht hn (by decide)
  have hport := integerToTwoBytes_natCast (n := port.val) (by omega)
  simp only [MessageAttribute.getBytes, hh, Java.ok_bind, hport, nonNull, Address.getBytes,
    integerToOneByte_toNat]
  rfl

theorem parseAddress_eq {kind : AddressKind} {x p₁ p₀ a b c d : UInt8} :
    parseAddress kind [x, 1, p₁, p₀, a, b, c, d] = .ok (.socketAddress kind
      (Fin.ofNat _ (p₁.toNat * 256 + p₀.toNat)) (some ⟨a, b, c, d⟩)) := by
  have h₁ := p₁.toNat_lt
  have h₀ := p₀.toNat_lt
  have hoct : ∀ b : UInt8, octet b.toNat "Address is malformed." = .ok b := by
    intro b
    have hb := b.toNat_lt
    rw [octet, if_neg (by omega), Int.toNat_natCast, UInt8.ofNat_toNat]
  have hshift : p₁.toNat <<< 8 = p₁.toNat * 256 := Nat.shiftLeft_eq ..
  have hport : port ((p₁.toNat * 256 + p₀.toNat : ℕ) : ℤ) =
      .ok (Fin.ofNat _ (p₁.toNat * 256 + p₀.toNat)) := by
    rw [port, dif_neg (by omega)]
    congr 1
    refine Fin.ext ?_
    show (p₁.toNat * 256 + p₀.toNat : ℤ).toNat = (p₁.toNat * 256 + p₀.toNat) % 65537
    omega
  have hp : twoBytesToInteger [p₁, p₀] = .ok (p₁.toNat * 256 + p₀.toNat) := by
    rw [twoBytesToInteger, hshift]
  have hs : slice [x, 1, p₁, p₀, a, b, c, d] 2 2 = .ok ⟨[p₁, p₀], rfl⟩ := rfl
  simp only [parseAddress, hs, hp, hport, Address.ofInts, hoct, byteAt, oneByteToInteger,
    Java.ok_bind]
  rfl

theorem getBytes_changeRequest (changeIP changePort : Bool) :
    (MessageAttribute.changeRequest changeIP changePort).getBytes cs =
      .ok (word 3 ++ word 4 ++ [0, 0, 0, if changeIP then (if changePort then 6 else 4)
        else if changePort then 2 else 0]) := by
  cases changeIP <;> cases changePort <;> rfl

theorem parseChangeRequest_eq {value : List UInt8} {a : MessageAttribute}
    (h : flagsOf value = some a) :
    parseChangeRequest value = .ok a ∧ a.getLength cs = .ok (4 + value.length) := by
  have hlength : ∀ ip port, (MessageAttribute.changeRequest ip port).getLength cs = .ok 8 := by
    intro ip port
    rw [MessageAttribute.getLength, getBytes_changeRequest cs]
    rfl
  unfold flagsOf at h
  split at h <;> cases h <;> exact ⟨rfl, hlength _ _⟩

theorem paddedLength_of_dvd {n : ℕ} (h : n % 4 = 0) : paddedLength n = 4 + n := by
  rw [paddedLength, if_neg (by simpa using h), Nat.add_comm]

/-- A text that needs no padding. -/
theorem textBytes_eq {type : MessageAttributeType} {n : ℕ} {text : Str}
    (ht : typeToInteger (some type) = n) (hn : n < 65536) (hl : text.length < 65536)
    (h4 : text.length % 4 = 0) (ha : ∀ c ∈ text, c.toNat < 128) :
    textBytes cs type (some text) =
      .ok (word n ++ word text.length ++ text.map fun c => UInt8.ofNat c.toNat) := by
  have hh := header_eq type (k := text.length) (m := text.length) ht hn hl
  have hput := put_append (word n ++ word text.length) (text.map fun c => UInt8.ofNat c.toNat) 0
    (n := 4) (m := text.length) rfl (List.length_map ..)
  rw [Nat.add_zero, List.replicate_zero, List.append_nil] at hput
  have hsub : ((4 + text.length : ℕ) : ℤ) - 4 = text.length := by omega
  simp only [textBytes, nonNull, Java.ok_bind, paddedLength_of_dvd h4, hsub, hh,
    cs.encode_ascii text ha, hput]

theorem textOf_eq_some {value : List UInt8} {text : Str} (h : textOf value = some text) :
    cs.decode value = text ∧ text.length = value.length ∧ text.length % 4 = 0 ∧
      (∀ c ∈ text, c.toNat < 128) ∧ (text.map fun c => UInt8.ofNat c.toNat) = value := by
  unfold textOf at h
  split_ifs at h with hv
  cases h
  have hv : value.length % 4 = 0 ∧ ∀ b ∈ value, b.toNat < 128 :=
    ⟨hv.1, fun b hb => of_decide_eq_true (List.all_eq_true.1 hv.2 b hb)⟩
  have hchar : ∀ n < 128, (Char.ofNat n).toNat = n := by decide
  refine ⟨cs.decode_ascii value hv.2, List.length_map .., ?_, ?_, ?_⟩
  · rw [List.length_map]
    exact hv.1
  · intro c hc
    obtain ⟨b, hb, rfl⟩ := List.mem_map.1 hc
    rw [hchar _ (hv.2 b hb)]
    exact hv.2 b hb
  · rw [List.map_map]
    refine (List.map_congr_left fun b hb => ?_).trans (List.map_id value)
    rw [Function.comp_apply, hchar _ (hv.2 b hb), UInt8.ofNat_toNat]
    rfl

theorem getLength_text {value : List UInt8} {text : Str} (h : textOf value = some text)
    (hl : value.length < 65536) (type : MessageAttributeType) {n : ℕ}
    (ht : typeToInteger (some type) = n) (hn : n < 65536) :
    cs.decode value = text ∧
      (do return (← textBytes cs type (some text)).length : Except Thrown ℕ) =
        .ok (4 + value.length) := by
  obtain ⟨hdec, hlen, h4, ha, -⟩ := textOf_eq_some cs h
  refine ⟨hdec, ?_⟩
  rw [textBytes_eq cs ht hn (by omega) h4 ha, Java.ok_bind]
  show Except.ok _ = _
  rw [List.length_append, List.length_append, List.length_map, length_word, length_word, hlen]

/-- An attribute that is as long as it should be is read, and its length is the one it would be
    written with. -/
theorem Tlv.reads {a : MessageAttribute} (h : t.attribute = some a) :
    parseValue cs t.type t.value = .ok a ∧ a.getLength cs = .ok t.bytes.length := by
  have hlen := t.length_lt
  rw [Tlv.length_bytes]
  unfold Tlv.attribute at h
  split at h
  next kind x p₁ p₀ a b c d hk hv =>
    cases h
    rw [hv, (kindOf_eq_some cs hk).2.2, parseAddress_eq, MessageAttribute.getLength,
      getBytes_socketAddress cs hk]
    exact ⟨rfl, rfl⟩
  next => cases h
  next value hk =>
    split_ifs at h with h3 h6 h7 hd
    · rw [h3]
      exact parseChangeRequest_eq cs h
    · obtain ⟨text, htext, rfl⟩ := Option.map_eq_some_iff.1 h
      obtain ⟨hdec, hl⟩ := getLength_text cs htext hlen .Username (n := 6) rfl (by decide)
      rw [h6]
      exact ⟨congrArg (fun text => Except.ok (MessageAttribute.username (some text))) hdec, hl⟩
    · obtain ⟨text, htext, rfl⟩ := Option.map_eq_some_iff.1 h
      obtain ⟨hdec, hl⟩ := getLength_text cs htext hlen .Password (n := 7) rfl (by decide)
      rw [h7]
      exact ⟨congrArg (fun text => Except.ok (MessageAttribute.password (some text))) hdec, hl⟩
    · cases h
      refine ⟨?_, ?_⟩
      · unfold parseValue
        iterate 12 rw [if_neg (by omega)]
      · have hh := header_eq .Dummy (k := t.value.length) (m := t.value.length) (t := 0)
          rfl (by decide) (by omega)
        rw [MessageAttribute.getLength, MessageAttribute.getBytes, Nat.add_comm, hh, Java.ok_bind]
        show Except.ok _ = _
        rw [List.length_append, List.length_append, List.length_replicate, length_word, length_word]

end

/-! ## Messages -/

/-- The bytes of the attributes of a message. -/
def body (tlvs : List Tlv) : List UInt8 := tlvs.flatMap Tlv.bytes

/-- A message with a type, a transaction and attributes. -/
def message (type : ℕ) (id : List UInt8) (tlvs : List Tlv) : List UInt8 :=
  word type ++ word (body tlvs).length ++ id ++ body tlvs

section
variable (cs : Charset) (mh : MessageHeader) (rest : List UInt8)

/-- A turn of the loop takes the attribute at hand. -/
theorem parseTurn_tlv (before : List UInt8) {t : Tlv} {tlvs : List Tlv} {a : MessageAttribute}
    (h : t.attribute = some a) :
    parseTurn cs (before ++ body (t :: tlvs) ++ rest)
        ⟨mh, (body (t :: tlvs)).length, before.length⟩ =
      .inl ⟨mh.addMessageAttribute a, (body tlvs).length, (before ++ t.bytes).length⟩ := by
  obtain ⟨hparse, hlen⟩ := t.reads cs h
  have hbody : body (t :: tlvs) = t.bytes ++ body tlvs := List.flatMap_cons
  have hpos : 0 < t.bytes.length := by
    rw [Tlv.length_bytes]
    omega
  have hslice := slice_append rest before (body (t :: tlvs)) rfl rfl
  have hsub : ((t.bytes.length + (body tlvs).length : ℕ) : ℤ) - t.bytes.length =
      (body tlvs).length := by omega
  rw [parseTurn, if_pos (by rw [hbody, List.length_append]; dsimp only; omega)]
  simp only [Int.toNat_natCast, hslice, Java.ok_bind]
  rw [show body (t :: tlvs) = t.bytes ++ body tlvs from hbody] at *
  simp only [parseCommonHeader_bytes, hparse, catchUtility, Java.ok_bind, hlen, hsub,
    List.length_append]
  rfl

/-- The loop takes the attributes one by one. -/
theorem parseTurns (before : List UInt8) {tlvs : List Tlv} {as : List MessageAttribute}
    (h : tlvs.map Tlv.attribute = as.map some) :
    Iteration.run (parseTurn cs (before ++ body tlvs ++ rest)) (tlvs.length + 1)
        ⟨mh, (body tlvs).length, before.length⟩ =
      some (.ok (as.foldl MessageHeader.addMessageAttribute mh)) := by
  induction tlvs generalizing mh before as with
  | nil =>
    obtain rfl : as = [] := by simpa using h.symm
    rfl
  | cons t tlvs ih =>
    cases as with
    | nil => cases h
    | cons a as =>
      obtain ⟨ht, htlvs⟩ := List.cons.inj h
      have hbody : body (t :: tlvs) = t.bytes ++ body tlvs := List.flatMap_cons
      rw [List.length_cons, Iteration.run_inl (parseTurn_tlv cs mh rest before ht),
        List.foldl_cons, hbody, ← List.append_assoc]
      exact ih (mh.addMessageAttribute a) (before ++ t.bytes) htlvs

/-- The transaction is that of the message. -/
theorem parseStart_message {type : ℕ} {id : { l : List UInt8 // l.length = 16 }}
    {tlvs : List Tlv} (hl : (body tlvs).length < 65536) :
    parseStart mh (message type id.val tlvs ++ rest) =
      .ok ⟨{ mh with id }, (body tlvs).length, 20⟩ := by
  have hlength := slice_append (id.val ++ body tlvs ++ rest) (word type) (word (body tlvs).length)
    (n := 2) (m := 2) rfl rfl
  have hid := slice_append (body tlvs ++ rest) (word type ++ word (body tlvs).length) id.val
    (n := 4) rfl id.2
  have hw := twoBytesToInteger_word [] hl
  rw [List.append_nil] at hw
  simp only [List.append_assoc] at hlength hid
  simp only [parseStart, message, List.append_assoc, hlength, hw, hid, Java.ok_bind]
  rfl

end

/-- The loop reads attributes that are as long as they should be, and stops where they end. -/
theorem parseAttributes_tlvs (cs : Charset) (mh : MessageHeader) (type : ℕ)
    (id : { l : List UInt8 // l.length = 16 }) {tlvs : List Tlv} {as : List MessageAttribute}
    (rest : List UInt8) (h : tlvs.map Tlv.attribute = as.map some)
    (hl : (body tlvs).length < 65536) :
    mh.parseAttributes cs (message type id.val tlvs ++ rest) (tlvs.length + 1) =
      some (.ok (as.foldl MessageHeader.addMessageAttribute { mh with id })) := by
  have hlen : (word type ++ word (body tlvs).length ++ id.val).length = 20 := by
    rw [List.length_append, id.2]
    rfl
  rw [MessageHeader.parseAttributes, parseStart_message mh rest hl]
  have hturns := parseTurns cs { mh with id } rest
    (word type ++ word (body tlvs).length ++ id.val) h
  rw [hlen] at hturns
  exact hturns

section
variable {mh : MessageHeader}

theorem addMessageAttribute_of_eq {a : MessageAttribute} {type : MessageAttributeType}
    (h : a.getType = type) : (mh.addMessageAttribute a).ma type = some ⟨a, h⟩ := by
  subst h
  exact Function.update_self ..

theorem addMessageAttribute_of_ne {a : MessageAttribute} {type : MessageAttributeType}
    (h : type ≠ a.getType) : (mh.addMessageAttribute a).ma type = mh.ma type :=
  Function.update_of_ne h ..

/-- Of the attributes of a type the last one counts. -/
theorem getMessageAttribute_foldl (as : List MessageAttribute) (type : MessageAttributeType) :
    (as.foldl MessageHeader.addMessageAttribute mh).getMessageAttribute type =
      (as.reverse.find? fun a => a.getType = type).or (mh.getMessageAttribute type) := by
  induction as using List.reverseRecOn with
  | nil => rfl
  | append_singleton as a ih =>
    rw [List.foldl_append, List.reverse_append, List.foldl_cons, List.foldl_nil]
    by_cases htype : a.getType = type
    · rw [MessageHeader.getMessageAttribute, addMessageAttribute_of_eq htype]
      simp [htype]
    · rw [MessageHeader.getMessageAttribute, addMessageAttribute_of_ne (Ne.symm htype),
        ← MessageHeader.getMessageAttribute, ih]
      simp [htype]

theorem foldl_type_id (as : List MessageAttribute) :
    (as.foldl MessageHeader.addMessageAttribute mh).type = mh.type ∧
      (as.foldl MessageHeader.addMessageAttribute mh).id = mh.id := by
  induction as generalizing mh with
  | nil => exact ⟨rfl, rfl⟩
  | cons a as ih => exact ih

end

/-- The number of a type of headers. -/
def typeNumber : MessageHeaderType → ℕ
  | .BindingRequest => 0x0001
  | .BindingResponse => 0x0101
  | .BindingErrorResponse => 0x0111
  | .SharedSecretRequest => 0x0002
  | .SharedSecretResponse => 0x0102
  | .SharedSecretErrorResponse => 0x0112

theorem parseHeader_word {type : MessageHeaderType} {rest : List UInt8} :
    parseHeader (word (typeNumber type) ++ rest) = .ok (.new (some type)) := by
  have hs := slice_append rest [] (word (typeNumber type)) (n := 0) (m := 2) rfl rfl
  have hw := twoBytesToInteger_word [] (n := typeNumber type)
    (by cases type <;> decide)
  rw [List.append_nil] at hw
  rw [List.nil_append] at hs
  simp only [parseHeader, hs, hw, Java.ok_bind]
  cases type <;> rfl

/-- **Messages.**  Attributes that are as long as those of their type should be are all read, in
    any order and number, unknown ones that may be skipped among them; the last one of a type
    counts, and what is left in the buffer behind the message does not matter. -/
theorem parseAttributes_message (cs : Charset) (type : MessageHeaderType)
    (id : { l : List UInt8 // l.length = 16 }) (tlvs : List Tlv) (as : List MessageAttribute)
    (rest : List UInt8) (h : tlvs.map Tlv.attribute = as.map some)
    (hl : (body tlvs).length < 65536) :
    ∃ mh₀ mh turns, parseHeader (message (typeNumber type) id.val tlvs ++ rest) = .ok mh₀ ∧
      mh₀.parseAttributes cs (message (typeNumber type) id.val tlvs ++ rest) turns =
        some (.ok mh) ∧
      mh.type = some type ∧ mh.id = id ∧
      ∀ t, mh.getMessageAttribute t = as.reverse.find? fun a => a.getType = t := by
  have hparse := parseAttributes_tlvs cs (.new (some type)) (typeNumber type) id rest h hl
  refine ⟨_, _, _, ?_, hparse, (foldl_type_id as).1, (foldl_type_id as).2, fun t => ?_⟩
  · simp only [message, List.append_assoc]
    exact parseHeader_word
  · rw [getMessageAttribute_foldl]
    exact Option.or_none

/-- An address between an attribute that is skipped and the address that counts. -/
theorem parseAttributes_message_addresses : ∃ mh₀ mh turns,
    parseHeader (message 0x0101 (List.replicate 16 7)
        [⟨1, [0, 1, 19, 196, 10, 0, 0, 1], by decide, by decide⟩,
          ⟨0x8020, [1, 2], by decide, by decide⟩,
          ⟨1, [0, 1, 19, 197, 10, 0, 0, 2], by decide, by decide⟩] ++ [1, 2, 3]) = .ok mh₀ ∧
      mh₀.parseAttributes .latin1 (message 0x0101 (List.replicate 16 7)
        [⟨1, [0, 1, 19, 196, 10, 0, 0, 1], by decide, by decide⟩,
          ⟨0x8020, [1, 2], by decide, by decide⟩,
          ⟨1, [0, 1, 19, 197, 10, 0, 0, 2], by decide, by decide⟩] ++ [1, 2, 3]) turns =
        some (.ok mh) ∧
      mh.type = some .BindingResponse ∧ mh.id = ⟨List.replicate 16 7, rfl⟩ ∧
      ∀ t, mh.getMessageAttribute t =
        [MessageAttribute.socketAddress .MappedAddress 5060 (some ⟨10, 0, 0, 1⟩), .dummy 2,
          .socketAddress .MappedAddress 5061 (some ⟨10, 0, 0, 2⟩)].reverse.find?
          fun a => a.getType = t :=
  parseAttributes_message .latin1 .BindingResponse ⟨List.replicate 16 7, rfl⟩ _ _ [1, 2, 3] rfl
    (by decide)

end JaySip.Stun
