/-
  What `parseAttributes` does with any bytes: it runs forever exactly if it meets
  MESSAGE-INTEGRITY, and a header that it returns never has an ERROR-CODE.
-/
import JaySip.Proof.StunRoundTrip

namespace JaySip.Stun

/-! ## Lengths -/

section
variable {cs : Charset} {result result' bytes : List UInt8} {pos n : ℕ}

theorem length_put (h : put result pos bytes = .ok result') : result'.length = result.length := by
  unfold put at h
  split_ifs at h with hle
  cases h
  simp only [List.length_append, List.length_take, List.length_drop]
  omega

theorem length_setByte {i : ℕ} {b : UInt8} (h : setByte result i b = .ok result') :
    result'.length = result.length := by
  unfold setByte at h
  split_ifs at h
  cases h
  exact List.length_set ..

theorem length_header {type : MessageAttributeType} {l : ℤ} (h : header n type l = .ok result) :
    result.length = n := by
  obtain ⟨w, -, h⟩ := Java.bind_eq_ok.1 h
  obtain ⟨r, hr, h⟩ := Java.bind_eq_ok.1 h
  obtain ⟨w', -, h⟩ := Java.bind_eq_ok.1 h
  rw [length_put h, length_put hr, List.length_replicate]

theorem length_textBytes {type : MessageAttributeType} {text : Option Java.Str}
    (h : textBytes cs type text = .ok result) : 4 ≤ result.length := by
  obtain ⟨t, -, h⟩ := Java.bind_eq_ok.1 h
  obtain ⟨r, hr, h⟩ := Java.bind_eq_ok.1 h
  have hpad := paddedLength_eq t.length
  rw [length_put h, length_header hr]
  omega

theorem length_foldlM_put {unkown : List (Option MessageAttributeType)}
    (h : unkown.foldlM (fun result attri => do
      put result 4 (← integerToTwoBytes (typeToInteger attri))) result = .ok result') :
    result'.length = result.length := by
  induction unkown generalizing result with
  | nil =>
    cases h
    rfl
  | cons attri unkown ih =>
    rw [List.foldlM_cons] at h
    obtain ⟨r, hr, h⟩ := Java.bind_eq_ok.1 h
    obtain ⟨w, -, hr⟩ := Java.bind_eq_ok.1 hr
    rw [ih h, length_put hr]

/-- But for MESSAGE-INTEGRITY, an attribute takes its header at least. -/
theorem four_le_getLength {a : MessageAttribute} (ha : a ≠ .messageIntegrity)
    (h : a.getLength cs = .ok n) : 4 ≤ n := by
  obtain ⟨bytes, hb, h⟩ := Java.bind_eq_ok.1 h
  cases h
  cases a with
  | socketAddress kind port address =>
    obtain ⟨r, hr, hb⟩ := Java.bind_eq_ok.1 hb
    simp only [Java.bind_eq_ok] at hb
    obtain ⟨_, _, r₁, hr₁, _, _, r₂, hr₂, _, _, _, _, hb⟩ := hb
    rw [length_put hb, length_put hr₂, length_setByte hr₁, length_header hr]
    decide
  | changeRequest changeIP changePort =>
    rw [getBytes_changeRequest cs] at hb
    cases hb
    exact Nat.le_add_right 4 4
  | username text => exact length_textBytes hb
  | password text => exact length_textBytes hb
  | messageIntegrity => exact absurd rfl ha
  | errorCode responseCode reason =>
    obtain ⟨reason, -, hb⟩ := Java.bind_eq_ok.1 hb
    have hpad := paddedLength_eq reason.length
    obtain ⟨r, hr, hb⟩ := Java.bind_eq_ok.1 hb
    simp only [Java.bind_eq_ok] at hb
    obtain ⟨_, _, r₁, hr₁, _, _, r₂, hr₂, hb⟩ := hb
    rw [length_put hb, length_setByte hr₂, length_setByte hr₁, length_header hr]
    omega
  | unknownAttribute unkown =>
    obtain ⟨r, hr, hb⟩ := Java.bind_eq_ok.1 hb
    obtain ⟨r', hr', hb⟩ := Java.bind_eq_ok.1 hb
    have hlen : 4 ≤ r'.length := by
      rw [length_foldlM_put hr', length_header hr]
      split_ifs <;> omega
    split_ifs at hb with hodd
    · split at hb
      · obtain ⟨w, -, hb⟩ := Java.bind_eq_ok.1 hb
        rwa [length_put hb]
      · cases hb
    · cases hb
      exact hlen
  | dummy lengthValue =>
    rw [length_header hb]
    omega

end

/-! ## What a turn does -/

section
variable {cs : Charset} {a : MessageAttribute} {data : List UInt8} {n : ℕ}

theorem catchUtility_eq_ok {α : Type} {x : Except Thrown α} {a : α} :
    catchUtility x = .ok a ↔ x = .ok a := by
  unfold catchUtility
  split <;> simp

theorem catchAttribute_eq_ok {α : Type} {message : String} {x : Except Thrown α} {a : α} :
    catchAttribute message x = .ok a ↔ x = .ok a := by
  unfold catchAttribute
  split <;> simp

theorem slice_eq_ok {pos : ℕ} {l : { l : List UInt8 // l.length = n }}
    (h : slice data pos n = .ok l) : l.val = (data.drop pos).take n := by
  unfold slice at h
  split_ifs at h
  cases h
  rfl

/-- Two bytes are those of the number that they are read as. -/
theorem word_of_twoBytes {w : List UInt8} (hw : w.length = 2) (h : twoBytesToInteger w = .ok n) :
    n < 65536 ∧ word n = w := by
  obtain ⟨b₀, b₁, rfl⟩ := List.length_eq_two.1 hw
  have h₀ := b₀.toNat_lt
  have h₁ := b₁.toNat_lt
  have hn : b₀.toNat * 256 + b₁.toNat = n := by
    rw [twoBytesToInteger, Nat.shiftLeft_eq] at h
    exact Except.ok.inj h
  have hhigh : byteOf n 1 = b₀ := by
    refine UInt8.toNat_inj.1 ?_
    rw [byteOf_toNat, Nat.shiftRight_eq_div_pow]
    omega
  have hlow : byteOf n 0 = b₁ := by
    refine UInt8.toNat_inj.1 ?_
    rw [byteOf_toNat, Nat.shiftRight_eq_div_pow]
    omega
  refine ⟨by omega, ?_⟩
  rw [word, hhigh, hlow]

/-- What is read as an attribute is one. -/
theorem tlv_of_parseCommonHeader (h : parseCommonHeader cs data = .ok a) :
    ∃ (t : Tlv) (rest : List UInt8), data = t.bytes ++ rest ∧
      parseValue cs t.type t.value = .ok a := by
  obtain ⟨w, hw, h⟩ := Java.bind_eq_ok.1 (catchUtility_eq_ok.1 h)
  obtain ⟨type, htype, h⟩ := Java.bind_eq_ok.1 h
  obtain ⟨w', hw', h⟩ := Java.bind_eq_ok.1 h
  obtain ⟨length, hlength, h⟩ := Java.bind_eq_ok.1 h
  obtain ⟨value, hvalue, h⟩ := Java.bind_eq_ok.1 h
  obtain ⟨hlt, hword⟩ := word_of_twoBytes w.2 htype
  obtain ⟨hlt', hword'⟩ := word_of_twoBytes w'.2 hlength
  obtain ⟨value, rfl⟩ := value
  refine ⟨⟨type, value, hlt, hlt'⟩, data.drop (4 + value.length), ?_, h⟩
  have hv := slice_eq_ok hvalue
  dsimp only at hv
  have hrest : value ++ data.drop (4 + value.length) = data.drop 4 := by
    have htake := List.take_append_drop value.length (data.drop 4)
    rwa [← hv, List.drop_drop] at htake
  rw [Tlv.bytes, hword, hword', slice_eq_ok hw, slice_eq_ok hw', List.append_assoc,
    List.append_assoc, hrest, List.drop_zero, show 4 = 2 + 2 from rfl, ← List.drop_drop,
    List.take_append_drop, List.take_append_drop]

end

/-! ## Results -/

/-- What holds of the result, if there is no exception. -/
def Gives {α : Type} (x : Except Thrown α) (Q : α → Prop) : Prop := ∀ a, x = .ok a → Q a

section
variable {α β : Type} {Q : α → Prop}

@[simp] theorem gives_pure {a : α} : Gives (pure a) Q ↔ Q a :=
  ⟨fun h => h a rfl, fun h b hb => by cases hb; exact h⟩

@[simp] theorem gives_ok {a : α} : Gives (.ok a) Q ↔ Q a := gives_pure

@[simp] theorem gives_throw {e : Thrown} : Gives (throw e) Q ↔ True :=
  iff_true_intro fun a ha => by cases ha

@[simp] theorem gives_error {e : Thrown} : Gives (.error e) Q ↔ True := gives_throw

@[simp] theorem gives_bind {x : Except Thrown β} {f : β → Except Thrown α} :
    Gives (x >>= f) Q ↔ Gives x fun b => Gives (f b) Q := by
  cases x <;> simp

@[simp] theorem gives_map {x : Except Thrown β} {f : β → α} :
    Gives (f <$> x) Q ↔ Gives x fun b => Q (f b) := by
  cases x <;> simp [Functor.map, Except.map]

@[simp] theorem gives_ite {c : Prop} [Decidable c] {x y : Except Thrown α} :
    Gives (if c then x else y) Q ↔ (c → Gives x Q) ∧ (¬ c → Gives y Q) := by
  split_ifs with h <;> simp [h]

@[simp] theorem gives_true {x : Except Thrown α} : Gives x (fun _ => True) ↔ True :=
  iff_true_intro fun _ _ => trivial

@[simp] theorem gives_catchUtility {x : Except Thrown α} :
    Gives (catchUtility x) Q ↔ Gives x Q := by
  simp only [Gives, catchUtility_eq_ok]

@[simp] theorem gives_catchAttribute {message : String} {x : Except Thrown α} :
    Gives (catchAttribute message x) Q ↔ Gives x Q := by
  simp only [Gives, catchAttribute_eq_ok]

end

section
variable {cs : Charset} {data : List UInt8} {n : ℕ}

/-- An attribute that is read has the type it was sent with, or may be skipped. -/
theorem parseValue_type (type : ℕ) : Gives (parseValue cs type data) fun a =>
    intToType type = some a.getType ∨ 0x7fff < type ∧ a = .dummy data.length := by
  have haddr : ∀ kind, Gives (parseAddress kind data) fun a => a.getType = kind.type := by
    intro kind
    simp [parseAddress, MessageAttribute.getType]
  have hflags : Gives (parseChangeRequest data) fun a => a.getType = .ChangeRequest := by
    simp [parseChangeRequest, MessageAttribute.getType]
  have herror : Gives (parseErrorCode data) fun a => a.getType = .ErrorCode := by
    simp [parseErrorCode, MessageAttribute.getType]
  have hunknown : Gives (parseUnknownAttribute data) fun a => a.getType = .UnknownAttribute := by
    simp [parseUnknownAttribute, MessageAttribute.getType]
  -- the tests of the switch come in the order of the types
  have hsent : ∀ {x : Except Thrown MessageAttribute} {t : MessageAttributeType},
      Gives x (fun a => a.getType = t) → intToType type = some t → Gives x fun a =>
        intToType type = some a.getType ∨ 0x7fff < type ∧ a = .dummy data.length := by
    intro x t hx ht a ha
    rw [hx a ha]
    exact Or.inl ht
  refine gives_ite.2 ⟨fun h => hsent (haddr .MappedAddress) (by rw [h]; rfl), fun _ => ?_⟩
  refine gives_ite.2 ⟨fun h => hsent (haddr .ResponseAddress) (by rw [h]; rfl), fun _ => ?_⟩
  refine gives_ite.2 ⟨fun h => hsent hflags (by rw [h]; rfl), fun _ => ?_⟩
  refine gives_ite.2 ⟨fun h => hsent (haddr .SourceAddress) (by rw [h]; rfl), fun _ => ?_⟩
  refine gives_ite.2 ⟨fun h => hsent (haddr .ChangedAddress) (by rw [h]; rfl), fun _ => ?_⟩
  refine gives_ite.2 ⟨fun h => hsent (gives_ok.2 rfl) (by rw [h]; rfl), fun _ => ?_⟩
  refine gives_ite.2 ⟨fun h => hsent (gives_ok.2 rfl) (by rw [h]; rfl), fun _ => ?_⟩
  refine gives_ite.2 ⟨fun h => hsent (gives_ok.2 rfl) (by rw [h]; rfl), fun _ => ?_⟩
  refine gives_ite.2 ⟨fun h => hsent herror (by rw [h]; rfl), fun _ => ?_⟩
  refine gives_ite.2 ⟨fun h => hsent hunknown (by rw [h]; rfl), fun _ => ?_⟩
  refine gives_ite.2 ⟨fun h => hsent (haddr .ReflectedFrom) (by rw [h]; rfl), fun _ => ?_⟩
  exact gives_ite.2 ⟨fun _ => gives_error.2 trivial, fun h => gives_ok.2 (Or.inr ⟨not_le.1 h, rfl⟩)⟩

theorem typeToInteger_of_intToType {t : MessageAttributeType} (h : intToType n = some t) :
    typeToInteger (some t) = n := by
  by_cases hn : n ≤ 11
  · have key : ∀ n ≤ 11, (intToType n).all (fun t => typeToInteger (some t) == n) := by decide
    have hk := key n hn
    rw [h] at hk
    exact beq_iff_eq.1 hk
  · have hnone : intToType n = none := by
      unfold intToType
      iterate 12 rw [if_neg (by omega)]
    rw [hnone] at h
    cases h

theorem parseValue_messageIntegrity (cs : Charset) {t : Tlv} :
    parseValue cs t.type t.value = .ok .messageIntegrity ↔ t.type = 0x0008 := by
  constructor
  · intro h
    rcases parseValue_type t.type _ h with ht | ⟨-, ha⟩
    · have h8 : (8 : ℤ) = t.type := typeToInteger_of_intToType ht
      omega
    · cases ha
  · intro h
    rw [h]
    rfl

end

/-! ## The loop -/

/-- The attribute at hand is a MESSAGE-INTEGRITY. -/
def Parsing.AtIntegrity (data : List UInt8) (s : Parsing) : Prop :=
  0 < s.length ∧ s.offset + s.length.toNat ≤ data.length ∧ ∃ (t : Tlv) (rest : List UInt8),
    t.type = 0x0008 ∧ (data.drop s.offset).take s.length.toNat = t.bytes ++ rest

section
variable {cs : Charset} {data : List UInt8} {s s' : Parsing}

theorem parseTurn_inl (h : parseTurn cs data s = .inl s') :
    0 < s.length ∧ s.offset + s.length.toNat ≤ data.length ∧
      ∃ (t : Tlv) (rest : List UInt8) (a : MessageAttribute) (n : ℕ),
        (data.drop s.offset).take s.length.toNat = t.bytes ++ rest ∧
        parseValue cs t.type t.value = .ok a ∧ a.getLength cs = .ok n ∧
        s' = ⟨s.mh.addMessageAttribute a, s.length - n, s.offset + n⟩ := by
  unfold parseTurn at h
  split_ifs at h with hpos
  split at h
  next s₁ hturn =>
    cases h
    obtain ⟨cutted, hcut, hturn⟩ := Java.bind_eq_ok.1 hturn
    obtain ⟨a, ha, hturn⟩ := Java.bind_eq_ok.1 hturn
    obtain ⟨n, hn, hturn⟩ := Java.bind_eq_ok.1 hturn
    cases hturn
    obtain ⟨t, rest, hcutted, hvalue⟩ := tlv_of_parseCommonHeader ha
    have hle : s.offset + s.length.toNat ≤ data.length := by
      by_contra hgt
      rw [slice, dif_neg hgt] at hcut
      cases hcut
    exact ⟨hpos, hle, t, rest, a, n, (slice_eq_ok hcut).symm.trans hcutted, hvalue, hn, rfl⟩
  next => cases h

theorem parseTurn_of_tlv {t : Tlv} {rest : List UInt8} {a : MessageAttribute} {n : ℕ}
    (hpos : 0 < s.length) (hle : s.offset + s.length.toNat ≤ data.length)
    (hd : (data.drop s.offset).take s.length.toNat = t.bytes ++ rest)
    (ha : parseValue cs t.type t.value = .ok a) (hn : a.getLength cs = .ok n) :
    parseTurn cs data s = .inl ⟨s.mh.addMessageAttribute a, s.length - n, s.offset + n⟩ := by
  simp only [parseTurn, if_pos hpos, slice, dif_pos hle, Java.ok_bind, hd, parseCommonHeader_bytes,
    ha, hn, catchUtility]
  rfl

/-- Only MESSAGE-INTEGRITY, which takes no bytes, keeps the loop where it is. -/
theorem parseTurn_trapping (cs : Charset) (data : List UInt8) :
    Iteration.Trapping (parseTurn cs data) (fun s => s.length.toNat)
      (Parsing.AtIntegrity data) where
  turn := by
    intro s s' h
    obtain ⟨hpos, hle, t, rest, a, n, hd, ha, hn, rfl⟩ := parseTurn_inl h
    by_cases hmi : a = .messageIntegrity
    · subst hmi
      exact Or.inl ⟨hpos, hle, t, rest, (parseValue_messageIntegrity cs).1 ha, hd⟩
    · have hn := four_le_getLength hmi hn
      right
      dsimp only
      omega
  stay := by
    rintro s ⟨hpos, hle, t, rest, ht, hd⟩
    have hturn := parseTurn_of_tlv hpos hle hd ((parseValue_messageIntegrity cs).2 ht)
      (n := 0) rfl
    refine ⟨_, hturn, ?_⟩
    show Parsing.AtIntegrity data ⟨_, s.length - 0, s.offset⟩
    rw [Int.sub_zero]
    exact ⟨hpos, hle, t, rest, ht, hd⟩

theorem length_parseStart {mh : MessageHeader} {s : Parsing} (h : parseStart mh data = .ok s) :
    s.length.toNat < 65536 := by
  obtain ⟨w, -, h⟩ := Java.bind_eq_ok.1 (catchUtility_eq_ok.1 h)
  obtain ⟨length, hlength, h⟩ := Java.bind_eq_ok.1 h
  obtain ⟨id, -, h⟩ := Java.bind_eq_ok.1 h
  cases h
  exact (word_of_twoBytes w.2 hlength).1

end

/-- **Endless parsing.**  For all bytes, `parseAttributes` is done within 65536 turns, or it meets
    a MESSAGE-INTEGRITY, and then it never is. -/
theorem parseAttributes_forever_iff (cs : Charset) (mh : MessageHeader) (data : List UInt8) :
    (mh.parseAttributes cs data 65536 = none ↔ ∃ s₀ s, parseStart mh data = .ok s₀ ∧
        Iteration.Reaches (parseTurn cs data) s₀ s ∧ s.AtIntegrity data) ∧
      (mh.parseAttributes cs data 65536 = none →
        ∀ turns, mh.parseAttributes cs data turns = none) := by
  have htrap := parseTurn_trapping cs data
  cases hstart : parseStart mh data with
  | error e =>
    simp only [MessageHeader.parseAttributes, hstart]
    simp
  | ok s₀ =>
    have hiff : Iteration.run (parseTurn cs data) 65536 s₀ = none ↔
        ∃ s, Iteration.Reaches (parseTurn cs data) s₀ s ∧ s.AtIntegrity data := by
      constructor
      · intro hnone
        by_contra hs
        obtain ⟨r, hr⟩ := htrap.run_some (fun s hr ht => hs ⟨s, hr, ht⟩) (length_parseStart hstart)
        rw [hnone] at hr
        cases hr
      · intro hs
        exact htrap.forever_iff.2 hs 65536
    simp only [MessageHeader.parseAttributes, hstart]
    refine ⟨?_, fun hnone => htrap.forever_iff.2 (hiff.1 hnone)⟩
    rw [hiff]
    constructor
    · rintro ⟨s, hs⟩
      exact ⟨s₀, s, rfl, hs⟩
    · rintro ⟨s₁, s, hs₁, hs⟩
      cases hs₁
      exact ⟨s, hs⟩

/-! ## What is returned -/

section
variable {cs : Charset} {data : List UInt8} {s s' : Parsing} {a : MessageAttribute}

theorem reasonOf_ascii (responseCode : ℤ) :
    Gives (reasonOf responseCode) fun reason => ∀ c ∈ reason, c.toNat < 128 := by
  have hascii : ∀ s ∈ ["Bad Request", "Unauthorized", "Unkown Attribute", "Stale Credentials",
      "Integrity Check Failure", "Missing Username", "Use TLS", "Server Error", "Global Failure"],
      (s.toList.all fun c => decide (c.toNat < 128)) = true := by decide
  have hok : ∀ s ∈ ["Bad Request", "Unauthorized", "Unkown Attribute", "Stale Credentials",
      "Integrity Check Failure", "Missing Username", "Use TLS", "Server Error", "Global Failure"],
      Gives (.ok s.toList) fun reason : Java.Str => ∀ c ∈ reason, c.toNat < 128 := by
    intro s hs
    refine gives_ok.2 fun c hc => ?_
    exact of_decide_eq_true (List.all_eq_true.1 (hascii s hs) c hc)
  unfold reasonOf
  iterate 9 refine gives_ite.2 ⟨fun _ => hok _ (by simp), fun _ => ?_⟩
  exact gives_error.2 trivial

/-- The reason is put behind the place that is left for it. -/
theorem getBytes_errorCode {responseCode : ℤ} {reason : Java.Str}
    (hr : ∀ c ∈ reason, c.toNat < 128) :
    Gives ((MessageAttribute.errorCode responseCode (some reason)).getBytes cs) fun _ => False := by
  intro bytes hb
  obtain ⟨_, hreason, hb⟩ := Java.bind_eq_ok.1 hb
  cases hreason
  simp only [Java.bind_eq_ok] at hb
  obtain ⟨result, hresult, _, _, r₁, hr₁, _, _, r₂, hr₂, hb⟩ := hb
  have hpad : paddedLength reason.length ≤ reason.length + 7 := by
    unfold paddedLength
    split_ifs <;> omega
  have hlen : r₂.length = paddedLength reason.length := by
    rw [length_setByte hr₂, length_setByte hr₁, length_header hresult]
  rw [cs.encode_ascii reason hr, put, if_neg (by rw [List.length_map]; omega)] at hb
  cases hb

/-- An ERROR-CODE is read with the reason that its code stands for. -/
theorem parseErrorCode_reason : Gives (parseErrorCode data) fun a => ∃ responseCode reason,
    reasonOf responseCode = .ok reason ∧ a = .errorCode responseCode (some reason) := by
  simp only [parseErrorCode, gives_catchAttribute, gives_catchUtility, gives_ite, gives_bind,
    gives_throw, gives_pure]
  exact ⟨fun _ => trivial, fun _ b _ => ⟨fun _ => trivial, fun _ b' _ => ⟨fun _ => trivial,
    fun _ reason hr => ⟨_, reason, hr, rfl⟩⟩⟩⟩

/-- The attributes that `parseAttributes` gets past. -/
def MessageAttribute.Read (cs : Charset) (a : MessageAttribute) : Prop :=
  a.getType ≠ .ErrorCode ∧ a.getType ≠ .MessageIntegrity ∧ ∃ bytes, a.getBytes cs = .ok bytes

theorem getType_ne_messageIntegrity (h : a ≠ .messageIntegrity) :
    a.getType ≠ .MessageIntegrity := by
  cases a with
  | socketAddress kind _ _ => cases kind <;> simp [MessageAttribute.getType, AddressKind.type]
  | messageIntegrity => exact absurd rfl h
  | _ => simp [MessageAttribute.getType]

/-- A turn that does not meet MESSAGE-INTEGRITY adds an attribute that can be written. -/
theorem parseTurn_read (h : parseTurn cs data s = .inl s') : s.AtIntegrity data ∨
    ∃ a, a.Read cs ∧ s'.mh = s.mh.addMessageAttribute a := by
  obtain ⟨hpos, hle, t, rest, a, n, hd, ha, hn, rfl⟩ := parseTurn_inl h
  by_cases hmi : a = .messageIntegrity
  · subst hmi
    exact Or.inl ⟨hpos, hle, t, rest, (parseValue_messageIntegrity cs).1 ha, hd⟩
  · obtain ⟨bytes, hbytes, -⟩ := Java.bind_eq_ok.1 hn
    refine Or.inr ⟨a, ⟨?_, getType_ne_messageIntegrity hmi, bytes, hbytes⟩, rfl⟩
    intro htype
    rcases parseValue_type t.type _ ha with ht | ⟨-, rfl⟩
    · have h9 : (9 : ℤ) = t.type := by
        rw [htype] at ht
        exact typeToInteger_of_intToType ht
      rw [show t.type = 9 by omega] at ha
      obtain ⟨responseCode, reason, hreason, rfl⟩ := parseErrorCode_reason a ha
      exact getBytes_errorCode (reasonOf_ascii _ _ hreason) bytes hbytes
    · cases htype

theorem parseTurn_inr {mh : MessageHeader} (h : parseTurn cs data s = .inr (.ok mh)) :
    mh = s.mh := by
  unfold parseTurn at h
  split_ifs at h
  · split at h
    · cases h
    · cases catchUtility_eq_ok.1 (Sum.inr.inj h)
  · cases h
    rfl

theorem parseStart_ma {mh : MessageHeader} (h : parseStart mh data = .ok s) : s.mh.ma = mh.ma := by
  obtain ⟨_, -, h⟩ := Java.bind_eq_ok.1 (catchUtility_eq_ok.1 h)
  obtain ⟨_, -, h⟩ := Java.bind_eq_ok.1 h
  obtain ⟨_, -, h⟩ := Java.bind_eq_ok.1 h
  cases h
  rfl

/-- Before each turn the header holds attributes that can be written, or the loop is caught. -/
def Parsing.ReadOrCaught (cs : Charset) (data : List UInt8) (s : Parsing) : Prop :=
  s.AtIntegrity data ∨ ∀ type a, s.mh.ma type = some a → a.val.Read cs

theorem parseTurn_readOrCaught (h : s.ReadOrCaught cs data) (hs : parseTurn cs data s = .inl s') :
    s'.ReadOrCaught cs data := by
  have hstay : s.AtIntegrity data → s'.AtIntegrity data := by
    intro hat
    obtain ⟨s₁, hs₁, hat'⟩ := (parseTurn_trapping cs data).stay hat
    rw [hs] at hs₁
    cases hs₁
    exact hat'
  rcases h with hat | hread
  · exact Or.inl (hstay hat)
  · rcases parseTurn_read hs with hat | ⟨a, ha, hmh⟩
    · exact Or.inl (hstay hat)
    · refine Or.inr fun type b hb => ?_
      rw [hmh] at hb
      by_cases htype : a.getType = type
      · rw [addMessageAttribute_of_eq htype] at hb
        cases hb
        exact ha
      · rw [addMessageAttribute_of_ne (Ne.symm htype)] at hb
        exact hread type b hb

end

/-- What is read is what can be written. -/
def MessageHeader.Read (cs : Charset) (mh : MessageHeader) : Prop :=
  ∀ type a, mh.ma type = some a → a.val.Read cs

section
variable {cs : Charset} {mh : MessageHeader}

theorem read_of_parseAttributes {type : Option MessageHeaderType} {data : List UInt8} {turns : ℕ}
    (h : (MessageHeader.new type).parseAttributes cs data turns = some (.ok mh)) : mh.Read cs := by
  cases hstart : parseStart (.new type) data with
  | error e =>
    simp only [MessageHeader.parseAttributes, hstart] at h
    cases h
  | ok s₀ =>
    simp only [MessageHeader.parseAttributes, hstart] at h
    refine Iteration.run_invariant (I := Parsing.ReadOrCaught cs data)
      (Q := fun r => ∀ mh, r = .ok mh → mh.Read cs)
      (fun s s' hI hs => parseTurn_readOrCaught hI hs) ?_ ?_ h mh rfl
    · rintro s r hI hs mh rfl
      rcases hI with hat | hread
      · obtain ⟨s', hs', -⟩ := (parseTurn_trapping cs data).stay hat
        rw [hs] at hs'
        cases hs'
      · rw [parseTurn_inr hs]
        exact hread
    · refine Or.inr fun type a ha => ?_
      rw [parseStart_ma hstart] at ha
      cases ha

theorem MessageHeader.Read.getMessageAttribute {type : MessageAttributeType} {a : MessageAttribute}
    (h : mh.Read cs) (ha : mh.getMessageAttribute type = some a) :
    a.getType = type ∧ a.Read cs := by
  obtain ⟨b, hb, rfl⟩ := Option.map_eq_some_iff.1 ha
  exact ⟨b.2, h type b hb⟩

theorem MessageHeader.Read.errorCode (h : mh.Read cs) :
    mh.getMessageAttribute .ErrorCode = none := by
  cases ha : mh.getMessageAttribute .ErrorCode with
  | none => rfl
  | some a =>
    obtain ⟨htype, hread⟩ := h.getMessageAttribute ha
    exact absurd htype hread.1

theorem MessageHeader.Read.messageIntegrity (h : mh.Read cs) :
    mh.getMessageAttribute .MessageIntegrity = none := by
  cases ha : mh.getMessageAttribute .MessageIntegrity with
  | none => rfl
  | some a =>
    obtain ⟨htype, hread⟩ := h.getMessageAttribute ha
    exact absurd htype hread.2.1

end

/-- **Errors.**  Whatever was received, a header that `parseAttributes` returns has neither an
    ERROR-CODE nor a MESSAGE-INTEGRITY, and each of its attributes can be written. -/
theorem parseAttributes_read (cs : Charset) (type : Option MessageHeaderType) (data : List UInt8)
    (turns : ℕ) (mh : MessageHeader)
    (h : (MessageHeader.new type).parseAttributes cs data turns = some (.ok mh)) :
    mh.getMessageAttribute .ErrorCode = none ∧ mh.getMessageAttribute .MessageIntegrity = none ∧
      ∀ a ∈ mh.attributes, ∃ bytes, a.getBytes cs = .ok bytes := by
  have hread := read_of_parseAttributes h
  refine ⟨hread.errorCode, hread.messageIntegrity, fun a ha => ?_⟩
  obtain ⟨type, -, htype⟩ := List.mem_filterMap.1 ha
  exact (hread.getMessageAttribute htype).2.2.2

/-- A response with the address of its client. -/
theorem parseAttributes_read_response :
    ((MessageHeader.new none).addMessageAttribute
        (.socketAddress .MappedAddress 5060 (some ⟨10, 0, 0, 1⟩))).getMessageAttribute
        .ErrorCode = none ∧
      ((MessageHeader.new none).addMessageAttribute
        (.socketAddress .MappedAddress 5060 (some ⟨10, 0, 0, 1⟩))).getMessageAttribute
        .MessageIntegrity = none ∧
      ∀ a ∈ ((MessageHeader.new none).addMessageAttribute
        (.socketAddress .MappedAddress 5060 (some ⟨10, 0, 0, 1⟩))).attributes,
        ∃ bytes, a.getBytes .latin1 = .ok bytes :=
  parseAttributes_read .latin1 none
    ([1, 1, 0, 12] ++ List.replicate 16 0 ++ [0, 1, 0, 8, 0, 1, 19, 196, 10, 0, 0, 1]) 2 _ rfl

end JaySip.Stun
