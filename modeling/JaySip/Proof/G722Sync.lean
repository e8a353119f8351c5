/-
  The decoder follows the encoder: fed with its bytes, both predictors of the decoder are those
  that the encoder has for the same signal.
-/
import JaySip.BitStream
import JaySip.Proof.G722

namespace JaySip.G722

open FixedPoint BitStream

/-! ## A turn -/

/-- Two coders predict alike. -/
def Coder.Same (e d : Coder) : Prop := e.low = d.low ∧ e.high = d.high

section
variable {band band' : Band}

theorem encodeLow_decodes (h : band.Ok lowBand) {xlow : ℤ} {ilow : ℕ}
    (he : encodeLow band xlow = some (ilow, band')) {wd2 : ℤ} (hwd : IsInt16 wd2) :
    ilow < 64 ∧ ∃ rlow, decodeLow band wd2 (ilow >>> 2) = some (rlow, band') := by
  obtain ⟨i, hl, hlt⟩ := quantl_ok (satSub xlow band.s) h.isInt16_det
  have hril : i >>> 2 < 16 := by
    rw [Nat.shiftRight_eq_div_pow]
    omega
  obtain ⟨q, j, w, hq, hj, hw, hq16, hwb⟩ := low_tables hril
  simp only [encodeLow, hl, hq, hj, hw, mulShift_of_range h.isInt16_det hq16,
    logscEncode_eq h.nb hwb, Option.bind_eq_bind, Option.bind_some, Option.pure_def] at he
  obtain ⟨band₁, hb, he⟩ := Option.bind_eq_some_iff.1 he
  cases he
  refine ⟨hlt, saturate15 (band.s + (band.det * wd2) >>> (15 : ℕ)), ?_⟩
  simp only [decodeLow, mulShift_of_range h.isInt16_det hwd, hq, hj, hw,
    mulShift_of_range h.isInt16_det hq16, logscDecode_eq h.nb hwb, hb, Option.bind_eq_bind,
    Option.bind_some, Option.pure_def]

theorem encodeHigh_decodes (h : band.Ok highBand) {xhigh : ℤ} {ihigh : ℕ}
    (he : encodeHigh band xhigh = some (ihigh, band')) :
    ihigh < 4 ∧ ∃ rhigh, decodeHigh band ihigh = some (rhigh, band') := by
  obtain ⟨i, hl, hlt⟩ := quanth_ok (satSub xhigh band.s) h.isInt16_det
  obtain ⟨q, j, w, hq, hj, hw, hq16, hwb⟩ := high_tables hlt
  simp only [encodeHigh, hl, hq, hj, hw, mulShift_of_range h.isInt16_det hq16,
    logscEncode_eq h.nb hwb, Option.bind_eq_bind, Option.bind_some, Option.pure_def] at he
  obtain ⟨band₁, hb, he⟩ := Option.bind_eq_some_iff.1 he
  cases he
  refine ⟨hlt, saturate15 (int16 ((band.det * q) >>> (15 : ℕ)) + band.s), ?_⟩
  simp only [decodeHigh, hq, hj, hw, mulShift_of_range h.isInt16_det hq16,
    logscDecode_eq h.nb hwb, hb, Option.bind_eq_bind, Option.bind_some, Option.pure_def]

end

/-- The code of a turn, for the codes of the bands. -/
def joinCode (bits ihigh ilow : ℕ) : ℕ := (ihigh <<< 6 ||| ilow) >>> (8 - bits)

/-- The decoder's predictors are given what the encoder's were, at all three rates. -/
theorem splitCode_joinCode {bits ihigh ilow : ℕ} (hb : bits = 6 ∨ bits = 7 ∨ bits = 8)
    (hh : ihigh < 4) (hl : ilow < 64) :
    ∃ wd2, splitCode bits (joinCode bits ihigh ilow) = some (wd2, ihigh, ilow >>> 2) ∧
      IsInt16 wd2 := by
  have key : ∀ bits ∈ [6, 7, 8], ∀ ihigh < 4, ∀ ilow < 64,
      (splitCode bits (joinCode bits ihigh ilow)).map (·.2) = some (ihigh, ilow >>> 2) := by
    decide +kernel
  obtain ⟨wd2, i, r, hs, hwd, -⟩ := splitCode_ok bits (joinCode bits ihigh ilow)
  have hk := key bits (by simpa using hb) ihigh hh ilow hl
  rw [hs] at hk
  cases hk
  exact ⟨wd2, hs, hwd⟩

theorem joinCode_lt {bits ihigh ilow : ℕ} (hb : bits ≤ 8) (hh : ihigh < 4) (hl : ilow < 64) :
    joinCode bits ihigh ilow < 2 ^ bits := by
  refine take_lt ?_
  rw [Nat.sub_add_cancel hb, Nat.or_comm]
  exact append_lt (n := 6) (m := 2) hl hh

section
variable {c : Config} {e e' d : Coder} {code : ℕ}

/-- A turn of the encoder, followed by the decoder. -/
theorem encodeBands_follows (hc : c.bits_per_sample = 6 ∨ c.bits_per_sample = 7 ∨
    c.bits_per_sample = 8) (he : e.Ok) (hd : d.Ok) (hs : e.Same d) {xlow xhigh : ℤ}
    (h : encodeBands c e xlow xhigh = some (e', code)) :
    code < 2 ^ c.bits_per_sample ∧ e'.Ok ∧
      ∃ d' amp, decodeCode c d code = some (d', amp) ∧ d'.Ok ∧ e'.Same d' := by
  have hok : e'.Ok := by
    obtain ⟨s, n, hs, hok⟩ := encodeBands_ok (c := c) he xlow xhigh
    rw [h] at hs
    cases hs
    exact hok
  have hbits : c.bits_per_sample ≤ 8 := by omega
  obtain ⟨ilow, low, hlow, hllt, hlok⟩ := encodeLow_ok he.low xlow
  obtain ⟨ihigh, high, hhigh, hhlt, hhok⟩ := encodeHigh_ok he.high xhigh
  simp only [encodeBands, hlow, hhigh, Option.bind_eq_bind, Option.bind_some, Option.pure_def] at h
  split_ifs at h with h8
  · -- without a high band its code is all ones
    cases h
    obtain ⟨wd2, hsplit, hwd⟩ := splitCode_joinCode hc (show 3 < 4 by decide) hllt
    obtain ⟨-, rlow, hdl⟩ := encodeLow_decodes he.low hlow hwd
    obtain ⟨d', amp, hdec, hdok⟩ := decodeCode_ok (c := c) hd (joinCode c.bits_per_sample 3 ilow)
    have hlt := joinCode_lt hbits (show 3 < 4 by decide) hllt
    refine ⟨hlt, hok, d', amp, hdec, hdok, ?_⟩
    simp only [decodeCode, hsplit, ← hs.1, hdl, if_pos h8, Option.bind_eq_bind, Option.bind_some,
      Option.pure_def] at hdec
    split_ifs at hdec <;> cases hdec <;> exact ⟨rfl, hs.2⟩
  · cases h
    obtain ⟨wd2, hsplit, hwd⟩ := splitCode_joinCode hc hhlt hllt
    obtain ⟨-, rlow, hdl⟩ := encodeLow_decodes he.low hlow hwd
    obtain ⟨-, rhigh, hdh⟩ := encodeHigh_decodes he.high hhigh
    obtain ⟨d', amp, hdec, hdok⟩ := decodeCode_ok (c := c) hd
      (joinCode c.bits_per_sample ihigh ilow)
    refine ⟨joinCode_lt hbits hhlt hllt, hok, d', amp, hdec, hdok, ?_⟩
    simp only [decodeCode, hsplit, ← hs.1, ← hs.2, hdl, hdh, if_neg h8, Option.bind_eq_bind,
      Option.bind_some, Option.pure_def] at hdec
    split_ifs at hdec
    · cases hdec
      exact ⟨rfl, rfl⟩
    · obtain ⟨even, -, hdec⟩ := Option.bind_eq_some_iff.1 hdec
      obtain ⟨odd, -, hdec⟩ := Option.bind_eq_some_iff.1 hdec
      cases hdec
      exact ⟨rfl, rfl⟩

end

/-! ## The codes of a signal -/

/-- The codes of `encode`, before they are packed. -/
def encodeCodes (c : Config) (s : Coder) : List ℤ → Option (Coder × List ℕ)
  | [] => some (s, [])
  | [a] =>
    if c.unfiltered then do
      let (s, code) ← encodeSample c s a
      return (s, [code])
    else none
  | a :: a' :: amp =>
    if c.unfiltered then do
      let (s, code) ← encodeSample c s a
      let (s, codes) ← encodeCodes c s (a' :: amp)
      return (s, code :: codes)
    else do
      let (s, code) ← encodePair c s a a'
      let (s, codes) ← encodeCodes c s amp
      return (s, code :: codes)

/-- How many samples a turn reads. -/
def Config.samples (c : Config) : ℕ := if c.unfiltered then 1 else 2

/-- The decoder after some codes. -/
def followCodes (c : Config) (s : Coder) (codes : List ℕ) : Option Coder :=
  codes.foldlM (fun s code => (decodeCode c s code).map (·.1)) s

/-- The bits of a code in the data. -/
def Config.width (c : Config) : ℕ := if c.packed then c.bits_per_sample else 8

/-- The bits that a side holds back between calls. -/
structure Config.Holds (c : Config) (n x : ℕ) : Prop where
  lt : n < 8
  buffer_lt : x < 2 ^ n
  unpacked : c.packed = false → n = 0

section
variable {c : Config} {s s' : Coder}

theorem followCodes_cons {code : ℕ} {codes : List ℕ} : followCodes c s (code :: codes) =
    (decodeCode c s code).bind fun r => followCodes c r.1 codes := by
  rw [followCodes, List.foldlM_cons]
  cases decodeCode c s code <;> rfl

theorem followCodes_append {codes codes' : List ℕ} : followCodes c s (codes ++ codes') =
    (followCodes c s codes).bind fun s => followCodes c s codes' :=
  List.foldlM_append

end

/-! ## The data of a signal -/

section
variable {c : Config} {s s' : State}

/-- A code is put behind the bits that are held back. -/
theorem putCode_bits (hc : c.bits_per_sample ≤ 8) (h : c.Holds s.out_bits s.out_buffer) {code : ℕ}
    (hcode : code < 2 ^ c.bits_per_sample) {data : List ℕ} (hp : putCode c s code = (s', data)) :
    c.Holds s'.out_bits s'.out_buffer ∧ (∀ b ∈ data, b < 256) ∧
      data.flatMap (bits 8) ++ bits s'.out_bits s'.out_buffer =
        bits s.out_bits s.out_buffer ++ bits c.width code := by
  have hlt := h.lt
  unfold putCode at hp
  by_cases hk : c.packed = true
  · have hw : c.width = c.bits_per_sample := if_pos hk
    have happ := bits_append (m := c.bits_per_sample) (y := code) h.buffer_lt
    have hbuf := append_lt (m := c.bits_per_sample) (y := code) h.buffer_lt hcode
    simp only [if_pos hk] at hp
    split_ifs at hp with h8
    · cases hp
      -- the lowest eight bits leave the buffer
      have hsum : s.out_bits + c.bits_per_sample = 8 + (s.out_bits + c.bits_per_sample - 8) := by
        omega
      refine ⟨⟨by dsimp only; omega, take_lt (by rwa [← hsum]), by simp [hk]⟩, ?_, ?_⟩
      · intro b hb
        rw [List.mem_singleton.1 hb]
        exact Nat.and_lt_two_pow _ (n := 8) (by decide)
      · rw [hw, ← happ, hsum, bits_add, ← hsum, List.flatMap_singleton]
        exact congrArg (· ++ _) bits_and_mask
    · cases hp
      refine ⟨⟨by dsimp only; omega, hbuf, by simp [hk]⟩, by simp, ?_⟩
      rw [hw, List.flatMap_nil, List.nil_append]
      exact happ
  · rw [if_neg hk] at hp
    cases hp
    have hw : c.width = 8 := if_neg hk
    have hcode' : code < 256 := hcode.trans_le (Nat.pow_le_pow_right (n := 2) (by decide) hc)
    have h0 := h.unpacked (by simpa using hk)
    refine ⟨h, ?_, ?_⟩
    · intro b hb
      rw [List.mem_singleton.1 hb]
      exact Nat.mod_lt _ (by decide)
    · rw [hw, h0, List.flatMap_singleton, Nat.mod_eq_of_lt hcode', bits_zero, List.append_nil,
        List.nil_append]

/-- A code is taken from the bits that are held back and the data. -/
theorem nextCode_bits (hc : 6 ≤ c.bits_per_sample ∧ c.bits_per_sample ≤ 8)
    (h : c.Holds s.in_bits s.in_buffer) {b : ℕ} {data rest : List ℕ} {code : ℕ}
    (hb : ∀ b' ∈ b :: data, b' < 256) (hn : nextCode c s b data = (s', code, rest)) :
    c.Holds s'.in_bits s'.in_buffer ∧ code < 2 ^ c.width ∧ (∀ b' ∈ rest, b' < 256) ∧
      bits c.width code ++ bits s'.in_bits s'.in_buffer ++ rest.flatMap (bits 8) =
        bits s.in_bits s.in_buffer ++ (b :: data).flatMap (bits 8) := by
  have hlt := h.lt
  have hbyte : b < 2 ^ 8 := hb b List.mem_cons_self
  have hdata : ∀ b' ∈ data, b' < 256 := fun b' h' => hb b' (List.mem_cons_of_mem b h')
  unfold nextCode at hn
  by_cases hk : c.packed = true
  · have hw : c.width = c.bits_per_sample := if_pos hk
    have hmask : ∀ x, x &&& (1 <<< c.bits_per_sample - 1) < 2 ^ c.width := by
      intro x
      rw [Nat.one_shiftLeft, hw]
      exact Nat.and_lt_two_pow x (Nat.sub_lt (Nat.two_pow_pos _) Nat.one_pos)
    -- the lowest bits of a buffer are the code
    have hsplit : ∀ {n x : ℕ}, c.bits_per_sample ≤ n →
        bits c.width (x &&& (1 <<< c.bits_per_sample - 1)) ++
          bits (n - c.bits_per_sample) (x >>> c.bits_per_sample) = bits n x := by
      intro n x hle
      rw [hw, Nat.one_shiftLeft, bits_and_mask, ← bits_add, Nat.add_sub_cancel' hle]
    simp only [if_pos hk] at hn
    split_ifs at hn with h8
    · cases hn
      have hbuf := append_lt h.buffer_lt hbyte
      refine ⟨⟨by dsimp only; omega, take_lt ?_, by simp [hk]⟩, hmask _, hdata, ?_⟩
      · dsimp only
        rwa [Nat.add_sub_cancel' (by omega)]
      · dsimp only
        rw [hsplit (by omega), bits_append h.buffer_lt, List.append_assoc, List.flatMap_cons]
    · cases hn
      refine ⟨⟨by dsimp only; omega, take_lt ?_, by simp [hk]⟩, hmask _, hb, ?_⟩
      · dsimp only
        rw [Nat.add_sub_cancel' (by omega)]
        exact h.buffer_lt
      · dsimp only
        rw [hsplit (by omega)]
  · rw [if_neg hk] at hn
    cases hn
    have hw : c.width = 8 := if_neg hk
    refine ⟨h, by rwa [hw], hdata, ?_⟩
    rw [hw, h.unpacked (by simpa using hk), bits_zero, List.append_nil, List.nil_append,
      List.flatMap_cons]

end

/-- The codes of a call of `g722_encode` and its data. -/
structure Wrote (c : Config) (s s' : State) (codes data : List ℕ) : Prop where
  ok : s'.toCoder.Ok
  holds : c.Holds s'.out_bits s'.out_buffer
  codes_lt : ∀ code ∈ codes, code < 2 ^ c.width
  data_lt : ∀ b ∈ data, b < 256
  bits_eq : data.flatMap (bits 8) ++ bits s'.out_bits s'.out_buffer =
    bits s.out_bits s.out_buffer ++ codes.flatMap (bits c.width)

/-- The data of a call of `g722_decode` and the codes it is worked on as. -/
structure Took (c : Config) (s s' : State) (codes data : List ℕ) : Prop where
  follows : followCodes c s.toCoder codes = some s'.toCoder
  holds : c.Holds s'.in_bits s'.in_buffer
  codes_lt : ∀ code ∈ codes, code < 2 ^ c.width
  bits_eq : codes.flatMap (bits c.width) ++ bits s'.in_bits s'.in_buffer =
    bits s.in_bits s.in_buffer ++ data.flatMap (bits 8)

/-- The bits of a code are one of the rates. -/
def Config.Rate (c : Config) : Prop :=
  c.bits_per_sample = 6 ∨ c.bits_per_sample = 7 ∨ c.bits_per_sample = 8

section
variable {c : Config} {s s' : State}

theorem Config.Rate.width_pos (hc : c.Rate) : 0 < c.width := by
  unfold Config.Rate at hc
  unfold Config.width
  split_ifs <;> omega

theorem Config.Rate.le_width (hc : c.Rate) : c.bits_per_sample ≤ c.width := by
  unfold Config.Rate at hc
  unfold Config.width
  split_ifs <;> omega

theorem Wrote.nil (hs : s.toCoder.Ok) (h : c.Holds s.out_bits s.out_buffer) :
    Wrote c s s [] [] where
  ok := hs
  holds := h
  codes_lt := by simp
  data_lt := by simp
  bits_eq := by simp

/-- Calls, or turns, one after the other. -/
theorem Wrote.append {s₁ : State} {codes codes' data data' : List ℕ}
    (h : Wrote c s s₁ codes data) (h' : Wrote c s₁ s' codes' data') :
    Wrote c s s' (codes ++ codes') (data ++ data') where
  ok := h'.ok
  holds := h'.holds
  codes_lt := List.forall_mem_append.2 ⟨h.codes_lt, h'.codes_lt⟩
  data_lt := List.forall_mem_append.2 ⟨h.data_lt, h'.data_lt⟩
  bits_eq := by
    rw [List.flatMap_append, List.append_assoc, h'.bits_eq, ← List.append_assoc, h.bits_eq,
      List.flatMap_append, List.append_assoc]

/-- A turn of `g722_encode`. -/
theorem putCode_wrote (hc : c.Rate) {coder : Coder} {code : ℕ} {data : List ℕ} (hok : coder.Ok)
    (hcode : code < 2 ^ c.bits_per_sample) (h : c.Holds s.out_bits s.out_buffer)
    (hp : putCode c { s with toCoder := coder } code = (s', data)) :
    s'.toCoder = coder ∧ Wrote c s s' [code] data := by
  have hc' : c.bits_per_sample ≤ 8 := by
    unfold Config.Rate at hc
    omega
  have hto := putCode_toCoder (c := c) (s := { s with toCoder := coder }) code
  obtain ⟨hh, hlt, hbits⟩ := putCode_bits (s := { s with toCoder := coder }) hc' h hcode hp
  rw [hp] at hto
  refine ⟨hto, by rwa [hto], hh, ?_, hlt, ?_⟩
  · intro n hn
    rw [List.mem_singleton.1 hn]
    exact hcode.trans_le (Nat.pow_le_pow_right (by decide) hc.le_width)
  · rw [hbits, List.flatMap_singleton]

theorem encodeBands_lt (hc : c.Rate) {e e' : Coder} {code : ℕ} (he : e.Ok) {xlow xhigh : ℤ}
    (h : encodeBands c e xlow xhigh = some (e', code)) :
    e'.Ok ∧ code < 2 ^ c.bits_per_sample := by
  obtain ⟨hlt, hok, -⟩ := encodeBands_follows hc he he ⟨rfl, rfl⟩ h
  exact ⟨hok, hlt⟩

theorem transmitFilter_bands {e e₁ : Coder} {even odd xlow xhigh : ℤ}
    (h : transmitFilter e even odd = some (e₁, xlow, xhigh)) : e₁.Same e := by
  simp only [transmitFilter, Option.bind_eq_bind, Option.bind_eq_some_iff, Option.pure_def,
    Option.some.injEq, Prod.mk.injEq] at h
  obtain ⟨-, -, -, -, -, -, -, -, rfl, -⟩ := h
  exact ⟨rfl, rfl⟩

/-- The filter leaves the predictors alone. -/
theorem encodePair_eq {e : Coder} (he : e.Ok) (even odd : ℤ) :
    ∃ e₁ xlow xhigh, e₁.Ok ∧ e₁.Same e ∧
      encodePair c e even odd = encodeBands c e₁ xlow xhigh := by
  obtain ⟨e₁, xlow, xhigh, hf, hok⟩ := transmitFilter_ok he even odd
  refine ⟨e₁, xlow, xhigh, hok, transmitFilter_bands hf, ?_⟩
  rw [encodePair, hf]
  rfl

/-- A call of `g722_encode` packs the codes of its signal. -/
theorem encode_wrote (hc : c.Rate) {amp : List ℤ} {data : List ℕ} (hs : s.toCoder.Ok)
    (h : c.Holds s.out_bits s.out_buffer) (he : encode c s amp = some (s', data)) :
    ∃ codes, encodeCodes c s.toCoder amp = some (s'.toCoder, codes) ∧
      Wrote c s s' codes data := by
  fun_induction encode c s amp generalizing s' data with
  | case1 s =>
    cases he
    exact ⟨[], rfl, Wrote.nil hs h⟩
  | case2 s a hu =>
    obtain ⟨⟨coder, code⟩, ha, he⟩ := Option.bind_eq_some_iff.1 he
    obtain ⟨hok, hlt⟩ := encodeBands_lt hc hs ha
    obtain ⟨hto, hw⟩ := putCode_wrote hc hok hlt h (Option.some.inj he)
    refine ⟨[code], ?_, hw⟩
    rw [encodeCodes, if_pos hu, ha, hto]
    rfl
  | case3 s a hu => cases he
  | case4 s a a' amp hu ih =>
    obtain ⟨⟨coder, code⟩, ha, he⟩ := Option.bind_eq_some_iff.1 he
    obtain ⟨⟨s₁, data₁⟩, hr, he⟩ := Option.bind_eq_some_iff.1 he
    obtain ⟨hok, hlt⟩ := encodeBands_lt hc hs ha
    obtain ⟨hto, hw⟩ := putCode_wrote hc hok hlt h rfl
    obtain ⟨codes, hcodes, hw'⟩ := ih _ hw.ok hw.holds hr
    cases he
    refine ⟨code :: codes, ?_, hw.append hw'⟩
    rw [hto] at hcodes
    rw [encodeCodes, if_pos hu, ha]
    simp only [hcodes, Option.bind_eq_bind, Option.bind_some, Option.pure_def]
  | case5 s a a' amp hu ih =>
    obtain ⟨⟨coder, code⟩, ha, he⟩ := Option.bind_eq_some_iff.1 he
    obtain ⟨⟨s₁, data₁⟩, hr, he⟩ := Option.bind_eq_some_iff.1 he
    obtain ⟨e₁, xlow, xhigh, he₁, -, heq⟩ := encodePair_eq (c := c) hs a a'
    obtain ⟨hok, hlt⟩ := encodeBands_lt hc he₁ (heq ▸ ha)
    obtain ⟨hto, hw⟩ := putCode_wrote hc hok hlt h rfl
    obtain ⟨codes, hcodes, hw'⟩ := ih _ hw.ok hw.holds hr
    cases he
    refine ⟨code :: codes, ?_, hw.append hw'⟩
    rw [hto] at hcodes
    rw [encodeCodes, if_neg hu, ha]
    simp only [hcodes, Option.bind_eq_bind, Option.bind_some, Option.pure_def]

/-- The loop of `g722_decode` works on the codes that it takes from its data. -/
theorem decodeLoop_took (hc : c.Rate) {fuel : ℕ} {data : List ℕ} {amp : List ℤ}
    (h : c.Holds s.in_bits s.in_buffer) (hb : ∀ b ∈ data, b < 256)
    (hd : decodeLoop c fuel s data = some (s', amp)) : ∃ codes, Took c s s' codes data := by
  have hc' : 6 ≤ c.bits_per_sample ∧ c.bits_per_sample ≤ 8 := by
    unfold Config.Rate at hc
    omega
  fun_induction decodeLoop c fuel s data generalizing s' amp with
  | case1 _ s =>
    cases hd
    exact ⟨[], rfl, h, by simp, by simp⟩
  | case2 s b data => cases hd
  | case3 fuel s b data s₁ code rest hn ih =>
    obtain ⟨⟨coder, amp₁⟩, hcode, hd⟩ := Option.bind_eq_some_iff.1 hd
    obtain ⟨⟨s₂, amps⟩, hr, hd⟩ := Option.bind_eq_some_iff.1 hd
    cases hd
    obtain ⟨hh, hlt, hb', hbits⟩ := nextCode_bits hc' h hb hn
    obtain ⟨codes, hf, hh', hlt', hbits'⟩ := ih coder hh hb' hr
    have hto : s₁.toCoder = s.toCoder := by
      have hto := nextCode_toCoder (c := c) (s := s) b data
      rwa [hn] at hto
    refine ⟨code :: codes, ?_, hh', List.forall_mem_cons.2 ⟨hlt, hlt'⟩, ?_⟩
    · rw [followCodes_cons, ← hto, hcode]
      exact hf
    · rw [List.flatMap_cons, List.append_assoc, hbits', ← List.append_assoc, hbits]

end

/-! ## Prefixes of a signal -/

section
variable {c : Config} {e e' d : Coder}

/-- The decoder follows the codes of the encoder. -/
theorem encodeCodes_follows (hc : c.Rate) {amp : List ℤ} {codes : List ℕ} (he : e.Ok) (hd : d.Ok)
    (hs : e.Same d) (h : encodeCodes c e amp = some (e', codes)) :
    ∃ d', followCodes c d codes = some d' ∧ e'.Same d' := by
  fun_induction encodeCodes c e amp generalizing e' codes d with
  | case1 e =>
    cases h
    exact ⟨d, rfl, hs⟩
  | case2 e a hu =>
    obtain ⟨⟨e₁, code⟩, ha, h⟩ := Option.bind_eq_some_iff.1 h
    obtain ⟨-, -, d', amp, hd', -, hs'⟩ := encodeBands_follows hc he hd hs ha
    cases h
    exact ⟨d', by rw [followCodes_cons, hd']; rfl, hs'⟩
  | case3 e a hu => cases h
  | case4 e a a' amp hu ih =>
    obtain ⟨⟨e₁, code⟩, ha, h⟩ := Option.bind_eq_some_iff.1 h
    obtain ⟨⟨e₂, codes₂⟩, hr, h⟩ := Option.bind_eq_some_iff.1 h
    obtain ⟨-, he₁, d₁, amp₁, hd₁, hdok, hs₁⟩ := encodeBands_follows hc he hd hs ha
    obtain ⟨d', hf, hs'⟩ := ih e₁ he₁ hdok hs₁ hr
    cases h
    exact ⟨d', by rw [followCodes_cons, hd₁]; exact hf, hs'⟩
  | case5 e a a' amp hu ih =>
    obtain ⟨⟨e₁, code⟩, ha, h⟩ := Option.bind_eq_some_iff.1 h
    obtain ⟨⟨e₂, codes₂⟩, hr, h⟩ := Option.bind_eq_some_iff.1 h
    obtain ⟨e₀, xlow, xhigh, he₀, hs₀, heq⟩ := encodePair_eq (c := c) he a a'
    obtain ⟨-, he₁, d₁, amp₁, hd₁, hdok, hs₁⟩ := encodeBands_follows hc he₀ hd
      ⟨hs₀.1.trans hs.1, hs₀.2.trans hs.2⟩ (heq ▸ ha)
    obtain ⟨d', hf, hs'⟩ := ih e₁ he₁ hdok hs₁ hr
    cases h
    exact ⟨d', by rw [followCodes_cons, hd₁]; exact hf, hs'⟩

/-- Signals, one after the other. -/
theorem encodeCodes_append {amp : List ℤ} (amp' : List ℤ) {codes : List ℕ}
    (h : encodeCodes c e amp = some (e', codes)) : encodeCodes c e (amp ++ amp') =
      (encodeCodes c e' amp').map fun r => (r.1, codes ++ r.2) := by
  fun_induction encodeCodes c e amp generalizing e' codes with
  | case1 e =>
    cases h
    simp
  | case2 e a hu =>
    obtain ⟨⟨e₁, code⟩, ha, h⟩ := Option.bind_eq_some_iff.1 h
    cases h
    cases amp' with
    | nil =>
      rw [List.append_nil]
      show encodeCodes c e [a] = some (e', [code])
      rw [encodeCodes, if_pos hu, ha]
      rfl
    | cons a' amp' =>
      rw [List.singleton_append, encodeCodes, if_pos hu, ha]
      simp only [Option.bind_eq_bind, Option.bind_some]
      cases encodeCodes c e' (a' :: amp') <;> rfl
  | case3 e a hu => cases h
  | case4 e a a' amp hu ih =>
    obtain ⟨⟨e₁, code⟩, ha, h⟩ := Option.bind_eq_some_iff.1 h
    obtain ⟨⟨e₂, codes₂⟩, hr, h⟩ := Option.bind_eq_some_iff.1 h
    cases h
    rw [List.cons_append, List.cons_append, encodeCodes, if_pos hu, ha, ← List.cons_append]
    simp only [Option.bind_eq_bind, Option.bind_some, ih e₁ hr]
    cases encodeCodes c e' amp' <;> rfl
  | case5 e a a' amp hu ih =>
    obtain ⟨⟨e₁, code⟩, ha, h⟩ := Option.bind_eq_some_iff.1 h
    obtain ⟨⟨e₂, codes₂⟩, hr, h⟩ := Option.bind_eq_some_iff.1 h
    cases h
    rw [List.cons_append, List.cons_append, encodeCodes, if_neg hu, ha]
    simp only [Option.bind_eq_bind, Option.bind_some, ih e₁ hr]
    cases encodeCodes c e' amp' <;> rfl

theorem length_of_encodeCodes {amp : List ℤ} {codes : List ℕ}
    (h : encodeCodes c e amp = some (e', codes)) : amp.length = c.samples * codes.length := by
  fun_induction encodeCodes c e amp generalizing e' codes with
  | case1 e =>
    cases h
    rfl
  | case2 e a hu =>
    obtain ⟨⟨e₁, code⟩, -, h⟩ := Option.bind_eq_some_iff.1 h
    cases h
    rw [Config.samples, if_pos hu]
    rfl
  | case3 e a hu => cases h
  | case4 e a a' amp hu ih =>
    obtain ⟨⟨e₁, code⟩, -, h⟩ := Option.bind_eq_some_iff.1 h
    obtain ⟨⟨e₂, codes₂⟩, hr, h⟩ := Option.bind_eq_some_iff.1 h
    cases h
    have hle := ih e₁ hr
    rw [Config.samples, if_pos hu] at hle ⊢
    simp only [List.length_cons] at hle ⊢
    omega
  | case5 e a a' amp hu ih =>
    obtain ⟨⟨e₁, code⟩, -, h⟩ := Option.bind_eq_some_iff.1 h
    obtain ⟨⟨e₂, codes₂⟩, hr, h⟩ := Option.bind_eq_some_iff.1 h
    cases h
    have hle := ih e₁ hr
    rw [Config.samples, if_neg hu] at hle ⊢
    simp only [List.length_cons]
    omega

/-- A prefix of the codes is that of a prefix of the signal. -/
theorem encodeCodes_prefix {amp : List ℤ} {codes rest : List ℕ}
    (h : encodeCodes c e amp = some (e', codes ++ rest)) :
    ∃ amp' e₁, amp' <+: amp ∧ encodeCodes c e amp' = some (e₁, codes) := by
  fun_induction encodeCodes c e amp generalizing codes with
  | case1 e =>
    cases codes with
    | nil => exact ⟨[], e, List.nil_prefix, rfl⟩
    | cons code codes => cases h
  | case2 e a hu =>
    cases codes with
    | nil => exact ⟨[], e, List.nil_prefix, rfl⟩
    | cons code codes =>
      obtain ⟨⟨e₁, code₁⟩, ha, h⟩ := Option.bind_eq_some_iff.1 h
      obtain ⟨rfl, hcodes⟩ := Prod.mk.inj (Option.some.inj h)
      obtain ⟨rfl, hnils⟩ := List.cons.inj hcodes
      obtain ⟨rfl, rfl⟩ := List.append_eq_nil_iff.1 hnils.symm
      refine ⟨[a], e₁, List.prefix_rfl, ?_⟩
      rw [encodeCodes, if_pos hu, ha]
      rfl
  | case3 e a hu => cases h
  | case4 e a a' amp hu ih =>
    cases codes with
    | nil => exact ⟨[], e, List.nil_prefix, rfl⟩
    | cons code codes =>
      obtain ⟨⟨e₁, code₁⟩, ha, h⟩ := Option.bind_eq_some_iff.1 h
      obtain ⟨⟨e₂, codes₂⟩, hr, h⟩ := Option.bind_eq_some_iff.1 h
      obtain ⟨rfl, hcodes⟩ := Prod.mk.inj (Option.some.inj h)
      obtain ⟨rfl, rfl⟩ := List.cons.inj hcodes
      obtain ⟨amp', e₃, hpre, he⟩ := ih e₁ hr
      refine ⟨a :: amp', e₃, (List.cons_prefix_cons).2 ⟨rfl, hpre⟩, ?_⟩
      have hcode : encodeCodes c e [a] = some (e₁, [code₁]) := by
        rw [encodeCodes, if_pos hu, ha]
        rfl
      have happ := encodeCodes_append amp' hcode
      rw [List.singleton_append, he] at happ
      exact happ
  | case5 e a a' amp hu ih =>
    cases codes with
    | nil => exact ⟨[], e, List.nil_prefix, rfl⟩
    | cons code codes =>
      obtain ⟨⟨e₁, code₁⟩, ha, h⟩ := Option.bind_eq_some_iff.1 h
      obtain ⟨⟨e₂, codes₂⟩, hr, h⟩ := Option.bind_eq_some_iff.1 h
      obtain ⟨rfl, hcodes⟩ := Prod.mk.inj (Option.some.inj h)
      obtain ⟨rfl, rfl⟩ := List.cons.inj hcodes
      obtain ⟨amp', e₃, hpre, he⟩ := ih e₁ hr
      refine ⟨a :: a' :: amp', e₃, ?_, ?_⟩
      · exact (List.cons_prefix_cons).2 ⟨rfl, (List.cons_prefix_cons).2 ⟨rfl, hpre⟩⟩
      · rw [encodeCodes, if_neg hu, ha]
        simp only [Option.bind_eq_bind, Option.bind_some, he]
        rfl

end

/-! ## Transmission -/

/-- A block of the signal is encoded, and its data are decoded. -/
def transmit (c : Config) (p : State × State) (amp : List ℤ) : Option (State × State) := do
  let (e, g722_data) ← encode c p.1 amp
  let (d, _) ← decode c p.2 g722_data
  return (e, d)

/-- The decoder has worked on the codes of `sent`, but for those whose bits are held back. -/
structure Linked (c : Config) (sent : List ℤ) (p : State × State) : Prop where
  encoder : p.1.toCoder.Ok
  decoder : p.2.toCoder.Ok
  encoder_holds : c.Holds p.1.out_bits p.1.out_buffer
  decoder_holds : c.Holds p.2.in_bits p.2.in_buffer
  codes : ∃ codes rest, encodeCodes c State.start.toCoder sent = some (p.1.toCoder, codes ++ rest) ∧
    followCodes c State.start.toCoder codes = some p.2.toCoder ∧
    (∀ code ∈ rest, code < 2 ^ c.width) ∧
    rest.flatMap (bits c.width) =
      bits p.2.in_bits p.2.in_buffer ++ bits p.1.out_bits p.1.out_buffer

section
variable {c : Config}

theorem Linked.start : Linked c [] (State.start, State.start) where
  encoder := Coder.Ok.start
  decoder := Coder.Ok.start
  encoder_holds := ⟨by decide, by decide, fun _ => rfl⟩
  decoder_holds := ⟨by decide, by decide, fun _ => rfl⟩
  codes := ⟨[], [], rfl, rfl, by simp, rfl⟩

theorem Linked.transmit (hc : c.Rate) {sent amp : List ℤ} {p : State × State}
    (h : Linked c sent p) (ha : c.unfiltered = true ∨ Even amp.length) :
    ∃ p', transmit c p amp = some p' ∧ Linked c (sent ++ amp) p' := by
  have hc' : 0 < c.bits_per_sample ∧ c.bits_per_sample ≤ 8 := by
    unfold Config.Rate at hc
    omega
  obtain ⟨codes, rest, hsent, hf, hrest, hbits⟩ := h.codes
  obtain ⟨e, data, he, -⟩ := encode_ok (c := c) h.encoder amp ha
  obtain ⟨new, hnew, hw⟩ := encode_wrote hc h.encoder h.encoder_holds he
  obtain ⟨d, out, hd, hdok⟩ := decode_ok (c := c) hc' h.decoder data
  obtain ⟨got, ht⟩ := decodeLoop_took hc h.decoder_holds hw.data_lt hd
  -- what is decoded begins what was and is sent
  have hall : got.flatMap (bits c.width) ++
      (bits d.in_bits d.in_buffer ++ bits e.out_bits e.out_buffer) =
        (rest ++ new).flatMap (bits c.width) := by
    rw [← List.append_assoc, ht.bits_eq, List.append_assoc, hw.bits_eq, ← List.append_assoc,
      ← hbits, List.flatMap_append]
  obtain ⟨left, hleft, hheld⟩ := prefix_of_bits hc.width_pos ht.codes_lt
    (List.forall_mem_append.2 ⟨hrest, hw.codes_lt⟩) hall
  refine ⟨(e, d), ?_, hw.ok, hdok, hw.holds, ht.holds, codes ++ got, left, ?_, ?_, ?_, hheld.symm⟩
  · rw [JaySip.G722.transmit, he]
    simp only [Option.bind_eq_bind, Option.bind_some, hd, Option.pure_def]
  · rw [encodeCodes_append amp hsent, hnew, List.append_assoc codes got, ← hleft,
      ← List.append_assoc]
    rfl
  · rw [followCodes_append, hf]
    exact ht.follows
  · intro code hcode
    have hmem : code ∈ rest ++ new := by
      rw [hleft]
      exact List.mem_append_right got hcode
    exact List.forall_mem_append.2 ⟨hrest, hw.codes_lt⟩ code hmem

theorem Linked.transmits (hc : c.Rate) {sent : List ℤ} (blocks : List (List ℤ))
    {p : State × State} (h : Linked c sent p)
    (hb : ∀ amp ∈ blocks, c.unfiltered = true ∨ Even amp.length) :
    ∃ p', blocks.foldlM (JaySip.G722.transmit c) p = some p' ∧
      Linked c (sent ++ blocks.flatten) p' := by
  induction blocks generalizing sent p with
  | nil => exact ⟨p, rfl, by simpa using h⟩
  | cons amp blocks ih =>
    obtain ⟨p₁, hp₁, h₁⟩ := h.transmit hc (hb amp List.mem_cons_self)
    obtain ⟨p', hp', h'⟩ := ih h₁ fun a ha => hb a (List.mem_cons_of_mem amp ha)
    refine ⟨p', ?_, ?_⟩
    · rw [List.foldlM_cons, hp₁]
      exact hp'
    · rwa [List.flatten_cons, ← List.append_assoc]

/-- The codes that are held back are few. -/
theorem length_held_le {n x m y : ℕ} {rest : List ℕ} (hc : c.Rate) (hx : c.Holds n x)
    (hy : c.Holds m y) (h : rest.flatMap (bits c.width) = bits n x ++ bits m y) :
    rest.length ≤ if c.packed then 2 else 0 := by
  have hlen := congrArg List.length h
  rw [length_flatMap_bits, List.length_append, length_bits, length_bits] at hlen
  have hn := hx.lt
  have hm := hy.lt
  have hle := hc.le_width
  unfold Config.Rate at hc
  split_ifs with hp
  · by_contra hgt
    have : 6 * 3 ≤ c.width * rest.length := Nat.mul_le_mul (by omega) (by omega)
    omega
  · have hpf : c.packed = false := by simpa using hp
    rw [hx.unpacked hpf, hy.unpacked hpf] at hlen
    rcases Nat.mul_eq_zero.1 hlen with h0 | h0
    · omega
    · exact h0.le

end

theorem rate_config (rate : ℤ) (eight_k packed : Bool) : (config rate eight_k packed).Rate := by
  simp only [config, Config.Rate]
  split_ifs <;> simp

/-- **Synchrony.**  Whatever signal is sent in whatever blocks, of even length where the filter
    takes pairs, the predictors of the decoder are those of an encoder for the signal so far,
    without the last two turns at most where codes are packed. -/
theorem predictors_follow (rate : ℤ) (eight_k packed : Bool) (blocks : List (List ℤ))
    (hb : ∀ amp ∈ blocks, (config rate eight_k packed).unfiltered = true ∨ Even amp.length) :
    ∃ e d, blocks.foldlM (transmit (config rate eight_k packed)) (State.start, State.start) =
        some (e, d) ∧
      ∃ amp e' g722_data, amp <+: blocks.flatten ∧
        encode (config rate eight_k packed) State.start amp = some (e', g722_data) ∧
        blocks.flatten.length ≤ amp.length +
          (if (config rate eight_k packed).packed then 2 * (config rate eight_k packed).samples
            else 0) ∧
        e'.low = d.low ∧ e'.high = d.high := by
  have hc := rate_config rate eight_k packed
  generalize config rate eight_k packed = c at *
  obtain ⟨⟨e, d⟩, hrun, hl⟩ := Linked.start.transmits hc blocks hb
  obtain ⟨codes, rest, hsent, hf, -, hheld⟩ := hl.codes
  obtain ⟨amp, e₁, hpre, hamp⟩ := encodeCodes_prefix hsent
  have hturns := length_of_encodeCodes hsent
  have hturns' := length_of_encodeCodes hamp
  have hp : c.unfiltered = true ∨ Even amp.length := by
    by_cases hu : c.unfiltered = true
    · exact Or.inl hu
    · rw [hturns', Config.samples, if_neg hu]
      exact Or.inr (even_two_mul _)
  obtain ⟨e', data, he, -⟩ := encode_ok (c := c) Coder.Ok.start amp hp
  obtain ⟨codes', hcodes', -⟩ := encode_wrote hc Coder.Ok.start Linked.start.encoder_holds he
  rw [hamp] at hcodes'
  obtain ⟨rfl, rfl⟩ := Prod.mk.inj (Option.some.inj hcodes')
  obtain ⟨d', hd', hsame⟩ := encodeCodes_follows hc Coder.Ok.start Coder.Ok.start ⟨rfl, rfl⟩ hamp
  obtain rfl : d' = d.toCoder := Option.some.inj (hd'.symm.trans hf)
  refine ⟨e, d, hrun, amp, e', data, hpre, he, ?_, hsame.1, hsame.2⟩
  have hheld' := length_held_le hc hl.decoder_holds hl.encoder_holds hheld
  rw [List.nil_append] at hturns
  rw [hturns, hturns', List.length_append, Nat.mul_add, Nat.add_le_add_iff_left, Nat.mul_comm]
  split_ifs at hheld' ⊢
  · exact Nat.mul_le_mul_right _ hheld'
  · rw [Nat.le_zero.1 hheld', Nat.zero_mul]

/-- Four samples, one by one, through a packed coder of 48 kbit/s at 8 kHz: at most the last two
    have not reached the decoder. -/
theorem predictors_follow_packed : ∃ e d,
    [[1000], [-1000], [30000], [2]].foldlM (transmit (config 48000 true true))
        (State.start, State.start) = some (e, d) ∧
      ∃ amp e' g722_data, amp <+: [1000, -1000, 30000, 2] ∧
        encode (config 48000 true true) State.start amp = some (e', g722_data) ∧
        4 ≤ amp.length + 2 ∧ e'.low = d.low ∧ e'.high = d.high :=
  predictors_follow 48000 true true [[1000], [-1000], [30000], [2]] (by decide)

end JaySip.G722
