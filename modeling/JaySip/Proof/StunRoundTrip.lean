/-
  What is sent in a STUN message: the attributes that can be sent are read again, and would be
  sent again with the same bytes.
-/
import JaySip.Proof.StunMessage

namespace JaySip.Stun

open Java (Str)

/-! ## Attributes that are sent -/

/-- A text with the zeros that fill it up. -/
def paddedText (text : Str) : Str :=
  text ++ List.replicate (paddedLength text.length - 4 - text.length) (Char.ofNat 0)

/-- An attribute as it is read again. -/
def MessageAttribute.received : MessageAttribute → MessageAttribute
  | username text => username (text.map paddedText)
  | password text => password (text.map paddedText)
  | a => a

/-- The bytes of an attribute that can be sent. -/
def MessageAttribute.size : MessageAttribute → ℕ
  | socketAddress _ _ _ => 12
  | changeRequest _ _ => 8
  | username text | password text => paddedLength (text.getD []).length
  | _ => 0

/-- The bytes of attributes that can be sent. -/
def totalSize (as : List MessageAttribute) : ℕ := as.foldr (fun a n => a.size + n) 0

/-- The attributes that are read again: addresses, but not with the port 65536 that `setPort`
    takes, change requests, and names and passwords in ASCII. -/
def MessageAttribute.Sendable : MessageAttribute → Prop
  | socketAddress _ port address => port.val < 65536 ∧ address.isSome
  | changeRequest _ _ => True
  | username text | password text => ∃ t, text = some t ∧ ∀ c ∈ t, c.toNat < 128
  | _ => False

section
variable (cs : Charset) {a : MessageAttribute}

@[simp] theorem getType_received : a.received.getType = a.getType := by
  cases a <;> rfl

theorem paddedLength_eq (n : ℕ) : paddedLength n = 4 + (paddedLength n - 4) ∧
    n ≤ paddedLength n - 4 ∧ (paddedLength n - 4) % 4 = 0 := by
  unfold paddedLength
  split_ifs <;> omega

theorem length_paddedText (text : Str) :
    (paddedText text).length = paddedLength text.length - 4 := by
  have h := paddedLength_eq text.length
  rw [paddedText, List.length_append, List.length_replicate]
  omega

theorem paddedText_ascii {text : Str} (h : ∀ c ∈ text, c.toNat < 128) :
    ∀ c ∈ paddedText text, c.toNat < 128 := by
  intro c hc
  rcases List.mem_append.1 hc with hc | hc
  · exact h c hc
  · rw [List.eq_of_mem_replicate hc]
    decide

/-- A text is written as if the zeros were its own. -/
theorem textBytes_padded {type : MessageAttributeType} {n : ℕ} {text : Str}
    (ht : typeToInteger (some type) = n) (hn : n < 65536)
    (hl : (paddedText text).length < 65536) (ha : ∀ c ∈ text, c.toNat < 128) :
    textBytes cs type (some text) = .ok (word n ++ word (paddedText text).length ++
      (paddedText text).map fun c => UInt8.ofNat c.toNat) := by
  have hpad := paddedLength_eq text.length
  have hlen := length_paddedText text
  have hh := header_eq type (k := (paddedText text).length) (m := (paddedText text).length)
    ht hn hl
  have hput := put_append (word n ++ word (paddedText text).length)
    (text.map fun c => UInt8.ofNat c.toNat) ((paddedText text).length - text.length) (n := 4)
    (m := text.length) rfl (List.length_map ..)
  rw [Nat.add_sub_cancel' (by omega)] at hput
  have hsub : ((paddedLength text.length : ℕ) : ℤ) - 4 = (paddedText text).length := by omega
  have h4 : paddedLength text.length = 4 + (paddedText text).length := by omega
  simp only [textBytes, nonNull, Java.ok_bind, hsub]
  rw [h4, hh]
  simp only [Java.ok_bind, cs.encode_ascii text ha, hput]
  have hrep : (paddedText text).length - text.length =
      paddedLength text.length - 4 - text.length := by omega
  rw [hrep, paddedText, List.map_append, List.map_replicate, List.append_assoc _ (List.map _ _)]
  rfl

theorem textOf_paddedText {text : Str} (ha : ∀ c ∈ text, c.toNat < 128) :
    textOf ((paddedText text).map fun c => UInt8.ofNat c.toNat) = some (paddedText text) := by
  have ha' := paddedText_ascii ha
  have hbyte : ∀ c : Char, c.toNat < 128 → (UInt8.ofNat c.toNat).toNat = c.toNat := by
    intro c hc
    rw [UInt8.toNat_ofNat']
    omega
  rw [textOf, if_pos, List.map_map]
  · refine congrArg some ((List.map_congr_left fun c hc => ?_).trans (List.map_id _))
    rw [Function.comp_apply, hbyte c (ha' c hc), Char.ofNat_toNat]
    rfl
  · refine ⟨?_, ?_⟩
    · rw [List.length_map, length_paddedText]
      exact (paddedLength_eq _).2.2
    · refine List.all_eq_true.2 fun b hb => decide_eq_true ?_
      obtain ⟨c, hc, rfl⟩ := List.mem_map.1 hb
      rw [hbyte c (ha' c hc)]
      exact ha' c hc

/-- An attribute that can be sent is one that is as long as it should be. -/
theorem MessageAttribute.Sendable.tlv (h : a.Sendable) (hs : a.size < 65536) :
    ∃ t : Tlv, a.getBytes cs = .ok t.bytes ∧ t.attribute = some a.received ∧
      t.bytes.length = a.size := by
  have htext : ∀ (type : MessageAttributeType) (n : ℕ) (t : Str),
      typeToInteger (some type) = n → n < 65536 → paddedLength t.length < 65536 →
      (∀ c ∈ t, c.toNat < 128) → ∃ tlv : Tlv, tlv.type = n ∧
        textBytes cs type (some t) = .ok tlv.bytes ∧ textOf tlv.value = some (paddedText t) ∧
        tlv.bytes.length = paddedLength t.length := by
    intro type n t ht hn hlt ha
    have hlen := length_paddedText t
    have hpad := paddedLength_eq t.length
    refine ⟨⟨n, (paddedText t).map fun c => UInt8.ofNat c.toNat, hn, ?_⟩, rfl, ?_,
      textOf_paddedText ha, ?_⟩
    · rw [List.length_map]
      omega
    · rw [textBytes_padded cs ht hn (by omega) ha]
      simp only [Tlv.bytes, List.length_map]
    · rw [Tlv.length_bytes, List.length_map]
      omega
  cases a with
  | socketAddress kind port address =>
    obtain ⟨hport, haddr⟩ := h
    obtain ⟨addr, rfl⟩ := Option.isSome_iff_exists.1 haddr
    obtain ⟨n, hn⟩ : ∃ n, kindOf n = some kind := by
      cases kind
      exacts [⟨1, rfl⟩, ⟨2, rfl⟩, ⟨4, rfl⟩, ⟨5, rfl⟩, ⟨11, rfl⟩]
    have hp : Fin.ofNat 65537 ((byteOf port.val 1).toNat * 256 + (byteOf port.val 0).toNat) =
        port := by
      have h₁ : port.val >>> (8 * 1) = port.val / 256 := Nat.shiftRight_eq_div_pow ..
      have h₀ : port.val >>> (8 * 0) = port.val := rfl
      refine Fin.ext ?_
      have hlow : port.val / 256 < 256 := by omega
      rw [Fin.val_ofNat, byteOf_toNat, byteOf_toNat, h₁, h₀, Nat.mod_eq_of_lt hlow,
        Nat.div_add_mod', Nat.mod_eq_of_lt port.isLt]
    refine ⟨⟨n, [0, 1, byteOf port.val 1, byteOf port.val 0, addr.firstOctet, addr.secondOctet,
      addr.thirdOctet, addr.fourthOctet], (kindOf_eq_some cs hn).2.1,
      show 8 < 65536 by decide⟩, ?_, ?_, rfl⟩
    · rw [getBytes_socketAddress cs hn]
      rfl
    · rw [Tlv.attribute, hn]
      show some (socketAddress kind (Fin.ofNat 65537 _) (some addr)) = _
      rw [hp]
      rfl
  | changeRequest changeIP changePort =>
    refine ⟨⟨3, [0, 0, 0, if changeIP then (if changePort then 6 else 4)
      else if changePort then 2 else 0], by decide, show 4 < 65536 by decide⟩,
      getBytes_changeRequest cs _ _, ?_, rfl⟩
    cases changeIP <;> cases changePort <;> rfl
  | username text =>
    obtain ⟨t, rfl, ha⟩ := h
    obtain ⟨tlv, ht, hb, htext, hl⟩ := htext .Username 6 t rfl (by decide) hs ha
    refine ⟨tlv, hb, ?_, hl⟩
    rw [Tlv.attribute, ht]
    show (textOf tlv.value).map _ = _
    rw [htext]
    rfl
  | password text =>
    obtain ⟨t, rfl, ha⟩ := h
    obtain ⟨tlv, ht, hb, htext, hl⟩ := htext .Password 7 t rfl (by decide) hs ha
    refine ⟨tlv, hb, ?_, hl⟩
    rw [Tlv.attribute, ht]
    show (textOf tlv.value).map _ = _
    rw [htext]
    rfl
  | messageIntegrity | errorCode _ _ | unknownAttribute _ | dummy _ => exact h.elim

end

/-! ## Headers that are sent -/

section
variable {cs : Charset} {mh : MessageHeader} {as : List MessageAttribute} {tlvs : List Tlv}

/-- The bytes of the attributes are those of the list. -/
def Encoded (cs : Charset) (as : List MessageAttribute) (tlvs : List Tlv) : Prop :=
  List.Forall₂ (fun a t => MessageAttribute.getBytes cs a = .ok (Tlv.bytes t)) as tlvs

theorem length_encoded (h : Encoded cs as tlvs) (n : ℕ) :
    as.foldlM (fun length attri => do return length + (← attri.getLength cs)) n =
      (.ok (n + (body tlvs).length) : Except Thrown ℕ) := by
  induction h generalizing n with
  | nil => rfl
  | @cons a t as tlvs ha _ ih =>
    have hbody : (body (t :: tlvs)).length = t.bytes.length + (body tlvs).length := by
      rw [body, List.flatMap_cons, List.length_append]
      rfl
    rw [List.foldlM_cons, hbody, ← Nat.add_assoc, ← ih]
    simp only [MessageAttribute.getLength, ha, Java.ok_bind]
    rfl

/-- The attributes are put one behind the other. -/
theorem put_encoded (h : Encoded cs as tlvs) (data : List UInt8) :
    as.foldlM (fun (p : List UInt8 × ℕ) attri => do
        let bytes ← attri.getBytes cs
        return (← put p.1 p.2 bytes, p.2 + bytes.length))
        (data ++ List.replicate (body tlvs).length 0, data.length) =
      (.ok (data ++ body tlvs, (data ++ body tlvs).length) : Except Thrown (List UInt8 × ℕ)) := by
  induction h generalizing data with
  | nil => simp [body, pure, Except.pure]
  | @cons a t as tlvs ha _ ih =>
    have hbody : body (t :: tlvs) = t.bytes ++ body tlvs := List.flatMap_cons
    have hput := put_append data t.bytes (body tlvs).length rfl rfl
    have hlen : (data ++ t.bytes).length = data.length + t.bytes.length := List.length_append
    have hsum : (t.bytes ++ body tlvs).length = t.bytes.length + (body tlvs).length :=
      List.length_append
    have hih := ih (data ++ t.bytes)
    rw [hlen] at hih
    rw [List.foldlM_cons, hbody, hsum, ← List.append_assoc, ← hih]
    simp only [ha, Java.ok_bind, hput]
    rfl

theorem getBytes_message {type : MessageHeaderType} (ht : mh.type = some type)
    (h : Encoded cs mh.attributes tlvs) (hl : (body tlvs).length < 65536) :
    mh.getBytes cs = .ok (message (typeNumber type) mh.id.val tlvs) := by
  have htype : integerToTwoBytes (headerTypeToInteger (some type)) =
      .ok (word (typeNumber type)) := by
    cases type <;> rfl
  have hlength : integerToTwoBytes (((20 + (body tlvs).length : ℕ) : ℤ) - 20) =
      .ok (word (body tlvs).length) := by
    rw [show ((20 + (body tlvs).length : ℕ) : ℤ) - 20 = (body tlvs).length by omega]
    exact integerToTwoBytes_natCast (by omega)
  have h0 := put_append [] (word (typeNumber type)) (2 + (16 + (body tlvs).length)) (n := 0) rfl
    length_word
  have h2 := put_append (word (typeNumber type)) (word (body tlvs).length)
    (16 + (body tlvs).length) (n := 2) rfl length_word
  have h4 := put_append (word (typeNumber type) ++ word (body tlvs).length) mh.id.val
    (body tlvs).length (n := 4) rfl mh.id.2
  have hput := put_encoded h
    (word (typeNumber type) ++ word (body tlvs).length ++ mh.id.val)
  have h20 : (word (typeNumber type) ++ word (body tlvs).length ++ mh.id.val).length = 20 := by
    rw [List.length_append, mh.id.2]
    rfl
  have hsum : 20 + (body tlvs).length = 2 + (2 + (16 + (body tlvs).length)) := by omega
  rw [List.nil_append, List.nil_append, ← hsum] at h0
  rw [h20] at hput
  simp only [MessageHeader.getBytes, ht, length_encoded h, htype, hlength, h0, h2, h4, hput,
    Java.ok_bind]
  rfl

end

/-! ## Round trip -/

/-- A header as it is read again. -/
def MessageHeader.received (mh : MessageHeader) : MessageHeader :=
  { mh with ma := fun type => (mh.ma type).map fun a =>
      ⟨a.val.received, by rw [getType_received, a.2]⟩ }

section
variable (cs : Charset) {mh : MessageHeader}

/-- Attributes that are put under their types, one for each key. -/
theorem foldl_received (keys : List MessageAttributeType) (hk : keys.Nodup) (base : MessageHeader) :
    ((keys.filterMap mh.getMessageAttribute).map MessageAttribute.received).foldl
        MessageHeader.addMessageAttribute base =
      { base with ma := fun type =>
          if type ∈ keys ∧ (mh.ma type).isSome then mh.received.ma type else base.ma type } := by
  induction keys generalizing base with
  | nil => simp
  | cons key keys ih =>
    obtain ⟨hnot, hk⟩ := List.nodup_cons.1 hk
    cases hma : mh.ma key with
    | none =>
      have hnone : mh.getMessageAttribute key = none := by
        rw [MessageHeader.getMessageAttribute, hma, Option.map_none]
      rw [List.filterMap_cons_none hnone, ih hk]
      congr 1
      funext type
      by_cases hkey : type = key
      · subst hkey
        simp [hma, hnot]
      · simp [hkey]
    | some a =>
      have hsome : mh.getMessageAttribute key = some a.val := by
        rw [MessageHeader.getMessageAttribute, hma, Option.map_some]
      have htype : a.val.received.getType = key := by rw [getType_received, a.2]
      rw [List.filterMap_cons_some hsome, List.map_cons, List.foldl_cons, ih hk]
      refine congrArg (fun ma => { base with ma }) ?_
      funext type
      by_cases hkey : type = key
      · subst hkey
        rw [if_neg (fun h => hnot h.1), if_pos ⟨List.mem_cons_self, by rw [hma]; rfl⟩,
          addMessageAttribute_of_eq htype]
        simp [MessageHeader.received, hma]
      · rw [addMessageAttribute_of_ne (by rwa [htype])]
        simp [hkey]

theorem paddedText_paddedText (text : Str) : paddedText (paddedText text) = paddedText text := by
  have hpad := paddedLength_eq text.length
  have hlen := length_paddedText text
  have h4 : paddedLength (paddedText text).length = 4 + (paddedText text).length :=
    paddedLength_of_dvd (by omega)
  rw [paddedText, h4, Nat.add_sub_cancel_left, Nat.sub_self, List.replicate_zero, List.append_nil]

/-- What is read of an attribute would be written with the same bytes. -/
theorem getBytes_received {a : MessageAttribute} (h : a.Sendable) (hs : a.size < 65536) :
    a.received.getBytes cs = a.getBytes cs := by
  have htext : ∀ (type : MessageAttributeType) (n : ℕ) (t : Str),
      typeToInteger (some type) = n → n < 65536 → paddedLength t.length < 65536 →
      (∀ c ∈ t, c.toNat < 128) →
      textBytes cs type (some (paddedText t)) = textBytes cs type (some t) := by
    intro type n t ht hn hlt ha
    have hpad := paddedLength_eq t.length
    have hlen := length_paddedText t
    rw [textBytes_padded cs ht hn (by omega) ha, textBytes_padded cs ht hn
      (by rw [paddedText_paddedText]; omega) (paddedText_ascii ha), paddedText_paddedText]
  cases a with
  | username text =>
    obtain ⟨t, rfl, ha⟩ := h
    exact htext .Username 6 t rfl (by decide) hs ha
  | password text =>
    obtain ⟨t, rfl, ha⟩ := h
    exact htext .Password 7 t rfl (by decide) hs ha
  | _ => rfl

/-- Attributes that can be sent are as long as they should be. -/
theorem encoded_of_sendable {as : List MessageAttribute} (hs : ∀ a ∈ as, a.Sendable)
    (hl : totalSize as < 65536) :
    ∃ tlvs, Encoded cs as tlvs ∧ Encoded cs (as.map MessageAttribute.received) tlvs ∧
      tlvs.map Tlv.attribute = (as.map MessageAttribute.received).map some ∧
      (body tlvs).length = totalSize as := by
  induction as with
  | nil => exact ⟨[], .nil, .nil, rfl, rfl⟩
  | cons a as ih =>
    rw [totalSize, List.foldr_cons, ← totalSize] at hl
    obtain ⟨tlvs, he, her, ha, hlen⟩ := ih (fun b hb => hs b (List.mem_cons_of_mem a hb)) (by omega)
    have hsa := hs a List.mem_cons_self
    obtain ⟨t, hb, hta, hsize⟩ := hsa.tlv cs (by omega)
    refine ⟨t :: tlvs, .cons hb he, .cons ?_ her, ?_, ?_⟩
    · rw [getBytes_received cs hsa (by omega), hb]
    · rw [List.map_cons, List.map_cons, List.map_cons, hta, ha]
    · rw [body, List.flatMap_cons, List.length_append, hsize, totalSize, List.foldr_cons,
        ← totalSize, ← hlen]
      rfl

theorem attributes_received :
    mh.received.attributes = mh.attributes.map MessageAttribute.received := by
  rw [MessageHeader.attributes, MessageHeader.attributes, List.map_filterMap]
  refine List.filterMap_congr fun type _ => ?_
  simp only [MessageHeader.getMessageAttribute, MessageHeader.received, Option.map_map]
  rfl

end

/-- **Round trip.**  A header whose attributes can be sent is read again from its bytes, whatever
    follows them in the buffer, and would be sent again with the same bytes. -/
theorem parse_getBytes (cs : Charset) (mh : MessageHeader) (type : MessageHeaderType)
    (ht : mh.type = some type) (hs : ∀ a ∈ mh.attributes, a.Sendable)
    (hl : totalSize mh.attributes < 65536) :
    ∃ bytes, mh.getBytes cs = .ok bytes ∧ mh.received.getBytes cs = .ok bytes ∧ ∀ rest,
      ∃ mh₀ turns, parseHeader (bytes ++ rest) = .ok mh₀ ∧
        mh₀.parseAttributes cs (bytes ++ rest) turns = some (.ok mh.received) := by
  obtain ⟨tlvs, he, her, ha, hlen⟩ := encoded_of_sendable cs hs hl
  rw [← attributes_received] at her
  refine ⟨message (typeNumber type) mh.id.val tlvs, getBytes_message ht he (by omega),
    (getBytes_message ht her (by omega) : mh.received.getBytes cs = _), fun rest => ?_⟩
  refine ⟨.new (some type), tlvs.length + 1, ?_, ?_⟩
  · simp only [message, List.append_assoc]
    exact parseHeader_word
  · have hparse := parseAttributes_tlvs cs (.new (some type)) (typeNumber type) mh.id rest ha
      (by omega)
    rw [hparse, MessageHeader.attributes, foldl_received keys (by decide)]
    have hkeys : ∀ type, type ∈ keys := by
      intro type
      cases type <;> decide
    have hma : mh.received.ma = fun type => if type ∈ keys ∧ (mh.ma type).isSome then
        mh.received.ma type else none := by
      funext type
      cases hm : mh.ma type with
      | none => simp [MessageHeader.received, hm]
      | some a => rw [if_pos ⟨hkeys type, rfl⟩]
    show some (Except.ok { type := some type, id := mh.id, ma := _ : MessageHeader }) = _
    rw [← ht]
    exact congrArg (fun ma => some (Except.ok { mh with ma })) hma.symm

/-- A request with a name of two characters. -/
theorem parse_getBytes_username : ∃ bytes,
    ((MessageHeader.new (some .BindingRequest)).addMessageAttribute
        (.username (some ['a', 'b']))).getBytes .latin1 = .ok bytes ∧
      ((MessageHeader.new (some .BindingRequest)).addMessageAttribute
        (.username (some ['a', 'b']))).received.getBytes .latin1 = .ok bytes ∧ ∀ rest,
      ∃ mh₀ turns, parseHeader (bytes ++ rest) = .ok mh₀ ∧
        mh₀.parseAttributes .latin1 (bytes ++ rest) turns =
          some (.ok ((MessageHeader.new (some .BindingRequest)).addMessageAttribute
            (.username (some ['a', 'b']))).received) := by
  refine parse_getBytes .latin1 _ .BindingRequest rfl ?_ (by decide)
  intro a ha
  obtain rfl : a = .username (some ['a', 'b']) := List.mem_singleton.1 ha
  exact ⟨_, rfl, List.forall_mem_cons.2 ⟨by decide, List.forall_mem_singleton.2 (by decide)⟩⟩

end JaySip.Stun
