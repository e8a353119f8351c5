/-
  The ranges of the G.722 predictors: no `int` overflows, no table is left, and the poles of
  both predictors stay inside the unit circle, whatever is encoded or decoded.
-/
import JaySip.Media.G722
import JaySip.SecondOrder
import Mathlib.Algebra.Order.BigOperators.Group.List
import Mathlib.Tactic.IntervalCases

namespace JaySip.G722

open FixedPoint

/-! ## Invariants -/

/-- The pole coefficients lie in the triangle of a stable second-order section. -/
structure Band.Stable (band : Band) : Prop where
  a1 : -12288 ≤ band.a1 ∧ band.a1 ≤ 12288
  a0 : -(15360 - band.a1) ≤ band.a0 ∧ band.a0 ≤ 15360 - band.a1

/-- The ranges of the fields of a band. -/
structure Band.Ok (k : BandConst) (band : Band) : Prop extends band.Stable where
  nb : 0 ≤ band.nb ∧ band.nb ≤ k.nbMax
  det : 8 ≤ band.det ∧ band.det ≤ 32064
  s : IsInt16 band.s
  sz : IsInt16 band.sz
  r : IsInt16 band.r
  b_length : band.b.length = 6
  b : ∀ x ∈ band.b, IsInt16 x
  d_length : band.d.length = 7
  d : ∀ x ∈ band.d, IsInt16 x

/-! ## Pole section -/

section
variable {a0 a1 ap0 ap1 : ℤ} (p p0 p1 r r' : ℤ)

/-- The limits of `abs` are a clamp. -/
theorem limit_eq_clamp {m n : ℤ} (hm : 0 ≤ m) :
    (if |n| > m then (if n < 0 then -m else m) else n) = clamp (-m) m n := by
  unfold clamp
  rcases abs_cases n with ⟨ha, hn⟩ | ⟨ha, hn⟩ <;> rw [ha] <;> split_ifs <;> omega

theorem uppol2_bounds (h0 : IsInt16 a0) (h1 : IsInt16 a1) :
    ∃ wd3, uppol2 a0 a1 p p0 p1 = some wd3 ∧ -12288 ≤ wd3 ∧ wd3 ≤ 12288 := by
  have h32 : int32 (a0 * 4) = some (a0 * 4) := int32_of_range (by have := h0.1; have := h0.2; omega)
  rw [uppol2, h32, mulShift_of_range h1 (by decide)]
  simp only [Option.bind_eq_bind, Option.bind_some, Option.pure_def,
    limit_eq_clamp (show (0 : ℤ) ≤ 12288 by decide)]
  exact ⟨_, rfl, clamp_bounds (by decide) _⟩

theorem uppol1_bounds (h0 : IsInt16 a0) (h1 : -12288 ≤ ap1 ∧ ap1 ≤ 12288) :
    ∃ ap0, uppol1 a0 ap1 p p0 = some ap0 ∧ -(15360 - ap1) ≤ ap0 ∧ ap0 ≤ 15360 - ap1 := by
  have hs : satSub 15360 ap1 = 15360 - ap1 := clamp_of_range (by omega)
  rw [uppol1, mulShift_of_range h0 (by decide)]
  simp only [Option.bind_eq_bind, Option.bind_some, Option.pure_def, hs,
    limit_eq_clamp (show 0 ≤ 15360 - ap1 by omega)]
  exact ⟨_, rfl, clamp_bounds (by omega) _⟩

theorem filtep_bounds (h0 : IsInt16 ap0) (h1 : IsInt16 ap1) :
    ∃ sp, filtep ap0 ap1 r r' = some sp ∧ IsInt16 sp := by
  rw [filtep, mulShift_of_range h0 (isInt16_satAdd _ _), mulShift_of_range h1 (isInt16_satAdd _ _)]
  exact ⟨_, rfl, isInt16_satAdd _ _⟩

end

/-! ## Zero section -/

/-- The coefficients and differences before a tap is worked on, with the sum of `n` taps. -/
structure TapsOk (n : ℕ) (t : List ℤ × List ℤ × ℤ) : Prop where
  b_length : t.1.length = 6
  b : ∀ x ∈ t.1, IsInt16 x
  d_length : t.2.1.length = 7
  d : ∀ x ∈ t.2.1, IsInt16 x
  sz : -(n * 32768 : ℤ) ≤ t.2.2 ∧ t.2.2 ≤ n * 32768

theorem forall_set {xs : List ℤ} {P : ℤ → Prop} {i : ℕ} {a : ℤ} (h : ∀ x ∈ xs, P x) (ha : P a) :
    ∀ x ∈ xs.set i a, P x := by
  intro x hx
  rcases List.mem_or_eq_of_mem_set hx with hx | rfl
  · exact h x hx
  · exact ha

/-- A product of two values of type `int16_t`, shifted back. -/
theorem shifted_bounds {m n : ℤ} (hm : IsInt16 m) (hn : IsInt16 n) :
    -32768 ≤ (m * n) >>> (15 : ℕ) ∧ (m * n) >>> (15 : ℕ) ≤ 32768 := by
  have h := mul_bounds (M := 32768) (N := 32768) ⟨hm.1, by have := hm.2; omega⟩
    ⟨hn.1, by have := hn.2; omega⟩
  have hs := shiftRight_bounds (n := m * n) 15
  omega

theorem zeroTap_ok (dx wd1 : ℤ) {n i : ℕ} {t : List ℤ × List ℤ × ℤ} (h : TapsOk n t) (hi : i < 6)
    (hn : n < 6) : ∃ t', zeroTap dx wd1 t i = some t' ∧ TapsOk (n + 1) t' := by
  obtain ⟨b, d, sz⟩ := t
  obtain ⟨hbl, hb, hdl, hd, hsz⟩ := h
  simp only at hbl hb hdl hd hsz
  have hd1 : d[i + 1]? = some d[i + 1] := List.getElem?_eq_getElem (by omega)
  have hdi : d[i]? = some d[i] := List.getElem?_eq_getElem (by omega)
  have hbi : b[i]? = some b[i] := List.getElem?_eq_getElem (by omega)
  have hb16 : IsInt16 b[i] := hb _ (List.getElem_mem _)
  have hwd := shifted_bounds (isInt16_satAdd (if signsDiffer d[i + 1] dx then -wd1 else wd1)
    (int16 ((b[i] * 32640) >>> (15 : ℕ)))) (isInt16_satAdd d[i] d[i])
  simp only [zeroTap, hd1, hdi, hbi, Option.bind_eq_bind, Option.bind_some, Option.pure_def,
    mulShift_of_range hb16 (show IsInt16 32640 by decide),
    mulShift_of_range (isInt16_satAdd _ _) (isInt16_satAdd _ _)]
  rw [int32_of_range (by omega), Option.bind_some]
  refine ⟨_, rfl, ?_, ?_, ?_, ?_, ?_⟩
  · rwa [List.length_set]
  · exact forall_set hb (isInt16_satAdd _ _)
  · rwa [List.length_set]
  · exact forall_set hd (hd _ (List.getElem_mem _))
  · push_cast
    constructor <;> omega

theorem zeroTaps_ok (dx wd1 : ℤ) (is : List ℕ) {n : ℕ} {t : List ℤ × List ℤ × ℤ} (h : TapsOk n t)
    (hi : ∀ i ∈ is, i < 6) (hn : n + is.length ≤ 6) :
    ∃ t', is.foldlM (zeroTap dx wd1) t = some t' ∧ TapsOk (n + is.length) t' := by
  induction is generalizing n t with
  | nil => exact ⟨t, rfl, h⟩
  | cons i is ih =>
    rw [List.length_cons] at hn
    obtain ⟨t', ht, h'⟩ := zeroTap_ok dx wd1 h (hi i List.mem_cons_self) (by omega)
    obtain ⟨t'', ht', h''⟩ := ih h' (fun j hj => hi j (List.mem_cons_of_mem i hj)) (by omega)
    refine ⟨t'', ?_, ?_⟩
    · rw [List.foldlM_cons, ht]
      exact ht'
    · rw [List.length_cons, Nat.add_comm is.length, ← Nat.add_assoc]
      exact h''

/-! ## A band -/

/-- The predictor keeps its ranges. -/
theorem block4_ok {k : BandConst} {band : Band} {dx : ℤ} (h : band.Ok k) (hdx : IsInt16 dx) :
    ∃ band', block4 band dx = some band' ∧ band'.Ok k := by
  have ha0 : IsInt16 band.a0 := by
    have h0 := h.a0
    have h1 := h.a1
    unfold IsInt16
    omega
  have ha1 : IsInt16 band.a1 := by
    have h1 := h.a1
    unfold IsInt16
    omega
  obtain ⟨ap1, hap1, hb1⟩ := uppol2_bounds (satAdd band.sz dx) band.p0 band.p1 ha0 ha1
  obtain ⟨ap0, hap0, hb0⟩ := uppol1_bounds (satAdd band.sz dx) band.p0 ha0 hb1
  obtain ⟨sp, hsp, -⟩ := filtep_bounds (satAdd band.s dx) band.r
    (show IsInt16 ap0 by unfold IsInt16; omega) (show IsInt16 ap1 by unfold IsInt16; omega)
  have htaps : TapsOk 0 (band.b, band.d.set 0 dx, 0) := by
    refine ⟨h.b_length, h.b, ?_, forall_set h.d hdx, by simp⟩
    rw [List.length_set, h.d_length]
  obtain ⟨⟨b, d, sz⟩, ht, hok⟩ := zeroTaps_ok dx (if dx = 0 then 0 else 128)
    [5, 4, 3, 2, 1, 0] htaps (by decide) (by decide)
  simp only [block4, hap1, hap0, hsp, ht, Option.bind_eq_bind, Option.bind_some, Option.pure_def]
  exact ⟨_, rfl, {
    a1 := hb1, a0 := hb0, nb := h.nb, det := h.det, s := isInt16_satAdd _ _
    sz := isInt16_saturate _, r := isInt16_satAdd _ _, b_length := hok.b_length, b := hok.b
    d_length := hok.d_length, d := hok.d }⟩

theorem scale_ok {k : BandConst} {nb : ℤ} (h : 0 ≤ nb ∧ nb ≤ k.nbMax) :
    ∃ det, scale k.shift nb = some det ∧ 8 ≤ det ∧ det ≤ 32064 := by
  have hidx : (nb >>> (6 : ℕ) % 32).toNat < ilb.length := by
    show _ < 32
    omega
  have hilb : ∀ v ∈ ilb, 2048 ≤ v ∧ v ≤ 4008 := by decide
  have hv := hilb _ (List.getElem_mem hidx)
  have hq := shiftRight_bounds (n := nb) 11
  have hmax := k.nbMax_eq
  have hshift := k.shift_range
  rw [scale, List.getElem?_eq_getElem hidx]
  simp only [Option.bind_eq_bind, Option.bind_some, Option.pure_def]
  generalize ilb[(nb >>> (6 : ℕ) % 32).toNat] = v at hv
  generalize nb >>> (11 : ℕ) = q at hq ⊢
  split_ifs with hlt
  · -- the largest step is shifted by one to the left
    have h1 : (-(k.shift - q)).toNat = 1 := by omega
    rw [h1, int32_of_range (by omega), Option.bind_some, int32_of_range (by omega),
      Option.bind_some, int16_of_range (by unfold IsInt16; omega)]
    exact ⟨_, rfl, by omega⟩
  · have hn : (k.shift - q).toNat ≤ 10 := by omega
    generalize (k.shift - q).toNat = n at hn
    have hs := shiftRight_bounds (n := v) n
    have hw : 2 ≤ v >>> n ∧ v >>> n ≤ 4008 := by interval_cases n <;> omega
    rw [int32_of_range (by omega), Option.bind_some, int16_of_range (by unfold IsInt16; omega)]
    exact ⟨_, rfl, by omega⟩

section
variable {k : BandConst} {band : Band} {nb w dx : ℤ}

/-- The logarithmic step is limited only after it was added up without a loss. -/
theorem logsc_range (h : 0 ≤ nb ∧ nb ≤ k.nbMax) (hw : -214 ≤ w ∧ w ≤ 3042) :
    mulShift nb 127 7 = some ((nb * 127) >>> (7 : ℕ)) ∧ IsInt16 ((nb * 127) >>> (7 : ℕ) + w) := by
  have hmax := k.nbMax_eq
  have hshift := k.shift_range
  have hs := shiftRight_bounds (n := nb * 127) 7
  exact ⟨mulShift_of_range (by unfold IsInt16; omega) (by decide) 7, by unfold IsInt16; omega⟩

theorem logscEncode_eq (h : 0 ≤ nb ∧ nb ≤ k.nbMax) (hw : -214 ≤ w ∧ w ≤ 3042) :
    logscEncode k nb w = some (clamp 0 k.nbMax ((nb * 127) >>> (7 : ℕ) + w)) := by
  obtain ⟨hm, h16⟩ := logsc_range h hw
  rw [logscEncode, hm, Option.bind_eq_bind, Option.bind_some, int16_of_range h16]
  rfl

theorem logscDecode_eq (h : 0 ≤ nb ∧ nb ≤ k.nbMax) (hw : -214 ≤ w ∧ w ≤ 3042) :
    logscDecode k nb w = some (clamp 0 k.nbMax ((nb * 127) >>> (7 : ℕ) + w)) := by
  obtain ⟨hm, h16⟩ := logsc_range h hw
  have hmax := k.nbMax_eq
  have hshift := k.shift_range
  have hc := clamp_bounds (show 0 ≤ k.nbMax by omega) ((nb * 127) >>> (7 : ℕ) + w)
  rw [logscDecode, hm, Option.bind_eq_bind, Option.bind_some,
    int16_of_range (by unfold IsInt16; omega)]
  rfl

theorem adapt_ok (h : band.Ok k) (hnb : 0 ≤ nb ∧ nb ≤ k.nbMax) (hdx : IsInt16 dx) :
    ∃ band', adapt k band nb dx = some band' ∧ band'.Ok k := by
  obtain ⟨det, hdet, hd⟩ := scale_ok hnb
  rw [adapt, hdet, Option.bind_eq_bind, Option.bind_some]
  exact block4_ok { h with nb := hnb, det := hd } hdx

theorem clamp_nb : 0 ≤ clamp 0 k.nbMax w ∧ clamp 0 k.nbMax w ≤ k.nbMax := by
  have hmax := k.nbMax_eq
  have hshift := k.shift_range
  exact clamp_bounds (by omega) w

end

/-! ## Tables -/

/-- Where the index lies in a table, so does the value in its range. -/
theorem lookup {α : Type} (xs : List α) {P : α → Prop} (h : ∀ x ∈ xs, P x) {i : ℕ}
    (hi : i < xs.length) : ∃ x, xs[i]? = some x ∧ P x :=
  ⟨xs[i], List.getElem?_eq_getElem hi, h _ (List.getElem_mem hi)⟩

/-- The four bits that the low predictor is given say a difference and a change of the step. -/
theorem low_tables {ril : ℕ} (h : ril < 16) :
    ∃ q i w, qm4[ril]? = some q ∧ rl42[ril]? = some i ∧ wl[i]? = some w ∧
      IsInt16 q ∧ -214 ≤ w ∧ w ≤ 3042 := by
  obtain ⟨q, hq, hq16⟩ := lookup qm4 (P := IsInt16) (by decide) h
  obtain ⟨i, hi, hlt⟩ := lookup rl42 (P := (· < 8)) (by decide) h
  obtain ⟨w, hw, hw'⟩ := lookup wl (P := fun w => -214 ≤ w ∧ w ≤ 3042) (by decide) hlt
  exact ⟨q, i, w, hq, hi, hw, hq16, hw'⟩

theorem high_tables {ihigh : ℕ} (h : ihigh < 4) :
    ∃ q i w, qm2[ihigh]? = some q ∧ rh2[ihigh]? = some i ∧ wh[i]? = some w ∧
      IsInt16 q ∧ -214 ≤ w ∧ w ≤ 3042 := by
  obtain ⟨q, hq, hq16⟩ := lookup qm2 (P := IsInt16) (by decide) h
  obtain ⟨i, hi, hlt⟩ := lookup rh2 (P := (· < 3)) (by decide) h
  obtain ⟨w, hw, hw'⟩ := lookup wh (P := fun w => -214 ≤ w ∧ w ≤ 3042) (by decide) hlt
  exact ⟨q, i, w, hq, hi, hw, hq16, hw'⟩

theorem splitCode_ok (bits code : ℕ) :
    ∃ wd2 ihigh ril, splitCode bits code = some (wd2, ihigh, ril) ∧
      IsInt16 wd2 ∧ ihigh < 4 ∧ ril < 16 := by
  have hand : ∀ n k : ℕ, n &&& (2 ^ k - 1) < 2 ^ k := fun n k =>
    Nat.and_lt_two_pow n (Nat.sub_lt (Nat.two_pow_pos k) Nat.one_pos)
  have h4 : code &&& 0x0F < 16 := hand code 4
  have h5 : code &&& 0x1F < 32 := hand code 5
  have h6 : code &&& 0x3F < 64 := hand code 6
  rw [splitCode]
  split_ifs
  · obtain ⟨q, hq, hq16⟩ := lookup qm5 (P := IsInt16) (by decide) h5
    refine ⟨q, code >>> 5 &&& 3, _, by rw [hq]; rfl, hq16, hand _ 2, ?_⟩
    rw [Nat.shiftRight_eq_div_pow]
    omega
  · obtain ⟨q, hq, hq16⟩ := lookup qm4 (P := IsInt16) (by decide) h4
    exact ⟨q, code >>> 4 &&& 3, _, by rw [hq]; rfl, hq16, hand _ 2, h4⟩
  · obtain ⟨q, hq, hq16⟩ := lookup qm6 (P := IsInt16) (by decide) h6
    refine ⟨q, code >>> 6 &&& 3, _, by rw [hq]; rfl, hq16, hand _ 2, ?_⟩
    rw [Nat.shiftRight_eq_div_pow]
    omega

/-! ## Turns of a band -/

section
variable {band : Band}

theorem Band.Ok.isInt16_det {k : BandConst} (h : band.Ok k) : IsInt16 band.det := by
  have hd := h.det
  unfold IsInt16
  omega

theorem decodeLow_ok (h : band.Ok lowBand) {wd2 : ℤ} {ril : ℕ} (hwd : IsInt16 wd2)
    (hril : ril < 16) : ∃ rlow band', decodeLow band wd2 ril = some (rlow, band') ∧
      (-16384 ≤ rlow ∧ rlow ≤ 16383) ∧ band'.Ok lowBand := by
  obtain ⟨q, i, w, hq, hi, hw, hq16, hwb⟩ := low_tables hril
  obtain ⟨band', hb, hok⟩ := adapt_ok h (clamp_nb (w := (band.nb * 127) >>> (7 : ℕ) + w))
    (isInt16_int16 ((band.det * q) >>> (15 : ℕ)))
  refine ⟨saturate15 (band.s + (band.det * wd2) >>> (15 : ℕ)), band', ?_,
    clamp_bounds (by decide) _, hok⟩
  simp only [decodeLow, mulShift_of_range h.isInt16_det hwd, hq, hi, hw,
    mulShift_of_range h.isInt16_det hq16, logscDecode_eq h.nb hwb, hb, Option.bind_eq_bind,
    Option.bind_some, Option.pure_def]

theorem decodeHigh_ok (h : band.Ok highBand) {ihigh : ℕ} (hi : ihigh < 4) :
    ∃ rhigh band', decodeHigh band ihigh = some (rhigh, band') ∧
      (-16384 ≤ rhigh ∧ rhigh ≤ 16383) ∧ band'.Ok highBand := by
  obtain ⟨q, i, w, hq, hi, hw, hq16, hwb⟩ := high_tables hi
  obtain ⟨band', hb, hok⟩ := adapt_ok h (clamp_nb (w := (band.nb * 127) >>> (7 : ℕ) + w))
    (isInt16_int16 ((band.det * q) >>> (15 : ℕ)))
  refine ⟨saturate15 (int16 ((band.det * q) >>> (15 : ℕ)) + band.s), band', ?_,
    clamp_bounds (by decide) _, hok⟩
  simp only [decodeHigh, hq, hi, hw, mulShift_of_range h.isInt16_det hq16,
    logscDecode_eq h.nb hwb, hb, Option.bind_eq_bind, Option.bind_some, Option.pure_def]

theorem quantlFrom_ok {det : ℤ} (wd : ℤ) (hd : IsInt16 det) {n i : ℕ} (hn : i + n ≤ 30) :
    ∃ j, quantlFrom det wd n i = some j ∧ i ≤ j ∧ j ≤ i + n := by
  induction n generalizing i with
  | zero => exact ⟨i, rfl, le_rfl, le_rfl⟩
  | succ n ih =>
    obtain ⟨q, hq, hq16⟩ := lookup q6 (P := IsInt16) (by decide) (show i < 32 by omega)
    simp only [quantlFrom, decisionLevel, hq, Option.bind_eq_bind, Option.bind_some,
      mulShift_of_range hq16 hd]
    split_ifs
    · exact ⟨i, rfl, le_rfl, by omega⟩
    · obtain ⟨j, hj, hle, hge⟩ := ih (i := i + 1) (by omega)
      exact ⟨j, hj, by omega, by omega⟩

theorem quantl_ok {det : ℤ} (el : ℤ) (hd : IsInt16 det) :
    ∃ ilow, quantl det el = some ilow ∧ ilow < 64 := by
  obtain ⟨i, hi, -, hle⟩ := quantlFrom_ok (if el ≥ 0 then el else -el - 1) hd
    (show 1 + 29 ≤ 30 by decide)
  simp only [quantl, hi, Option.bind_eq_bind, Option.bind_some]
  split_ifs
  · exact lookup iln (P := (· < 64)) (by decide) (show i < 32 by omega)
  · exact lookup ilp (P := (· < 64)) (by decide) (show i < 32 by omega)

theorem quanth_ok {det : ℤ} (eh : ℤ) (hd : IsInt16 det) :
    ∃ ihigh, quanth det eh = some ihigh ∧ ihigh < 4 := by
  simp only [quanth, mulShift_of_range (show IsInt16 564 by decide) hd, Option.bind_eq_bind,
    Option.bind_some]
  split_ifs <;> exact ⟨_, rfl, by decide⟩

theorem encodeLow_ok (h : band.Ok lowBand) (xlow : ℤ) :
    ∃ ilow band', encodeLow band xlow = some (ilow, band') ∧ ilow < 64 ∧ band'.Ok lowBand := by
  obtain ⟨ilow, hl, hlt⟩ := quantl_ok (satSub xlow band.s) h.isInt16_det
  have hril : ilow >>> 2 < 16 := by
    rw [Nat.shiftRight_eq_div_pow]
    omega
  obtain ⟨q, i, w, hq, hi, hw, hq16, hwb⟩ := low_tables hril
  obtain ⟨band', hb, hok⟩ := adapt_ok h (clamp_nb (w := (band.nb * 127) >>> (7 : ℕ) + w))
    (isInt16_int16 ((band.det * q) >>> (15 : ℕ)))
  refine ⟨ilow, band', ?_, hlt, hok⟩
  simp only [encodeLow, hl, hq, hi, hw, mulShift_of_range h.isInt16_det hq16,
    logscEncode_eq h.nb hwb, hb, Option.bind_eq_bind, Option.bind_some, Option.pure_def]

theorem encodeHigh_ok (h : band.Ok highBand) (xhigh : ℤ) :
    ∃ ihigh band', encodeHigh band xhigh = some (ihigh, band') ∧ ihigh < 4 ∧
      band'.Ok highBand := by
  obtain ⟨ihigh, hl, hlt⟩ := quanth_ok (satSub xhigh band.s) h.isInt16_det
  obtain ⟨q, i, w, hq, hi, hw, hq16, hwb⟩ := high_tables hlt
  obtain ⟨band', hb, hok⟩ := adapt_ok h (clamp_nb (w := (band.nb * 127) >>> (7 : ℕ) + w))
    (isInt16_int16 ((band.det * q) >>> (15 : ℕ)))
  refine ⟨ihigh, band', ?_, hlt, hok⟩
  simp only [encodeHigh, hl, hq, hi, hw, mulShift_of_range h.isInt16_det hq16,
    logscEncode_eq h.nb hwb, hb, Option.bind_eq_bind, Option.bind_some, Option.pure_def]

end

/-! ## Filters -/

/-- The sum of the magnitudes of coefficients. -/
def magnitude (ys : List ℤ) : ℤ := (ys.map (|·|)).sum

theorem magnitude_nonneg (ys : List ℤ) : 0 ≤ magnitude ys :=
  List.sum_nonneg fun _ hy => by
    obtain ⟨y, -, rfl⟩ := List.mem_map.1 hy
    exact abs_nonneg y

/-- A sum of products of samples and coefficients, on top of a sum within `B`. -/
theorem dotProd_from {xs : List ℤ} (ys : List ℤ) (hx : ∀ x ∈ xs, IsInt16 x) {z B : ℤ}
    (hz : -B ≤ z ∧ z ≤ B) (hB : B + 32768 * magnitude ys ≤ 2147483647) :
    ∃ z', (xs.zip ys).foldlM dotTurn z = some z' ∧
      -(B + 32768 * magnitude ys) ≤ z' ∧ z' ≤ B + 32768 * magnitude ys := by
  induction xs generalizing ys z B with
  | nil =>
    have hm := magnitude_nonneg ys
    exact ⟨z, rfl, by omega, by omega⟩
  | cons x xs ih =>
    cases ys with
    | nil => exact ⟨z, rfl, by simpa [magnitude] using hz⟩
    | cons y ys =>
      have hcons : magnitude (y :: ys) = |y| + magnitude ys := by
        rw [magnitude, List.map_cons, List.sum_cons, magnitude]
      have hm := magnitude_nonneg ys
      have hx16 : IsInt16 x := hx x List.mem_cons_self
      have hxy := mul_bounds (m := x) (n := y) (M := 32768) (N := |y|)
        ⟨hx16.1, by have := hx16.2; omega⟩ ⟨neg_abs_le y, le_abs_self y⟩
      rw [hcons] at hB ⊢
      obtain ⟨z', hz', hb⟩ := ih ys (z := z + x * y) (B := B + 32768 * |y|)
        (fun x hx' => hx x (List.mem_cons_of_mem _ hx')) (by omega) (by omega)
      refine ⟨z', ?_, by omega⟩
      rw [List.zip_cons_cons, List.foldlM_cons, dotTurn]
      simp only [int32_of_range (show -2147483648 ≤ x * y ∧ x * y ≤ 2147483647 by omega),
        int32_of_range (show -2147483648 ≤ z + x * y ∧ z + x * y ≤ 2147483647 by omega),
        Option.bind_eq_bind, Option.bind_some]
      exact hz'

/-- The filters cannot overflow, wherever the history begins. -/
theorem circularDotProd_ok {xs : List ℤ} (ys : List ℤ) (hx : ∀ x ∈ xs, IsInt16 x) (pos : ℕ)
    (hy : magnitude ys = 6482) : ∃ z, circularDotProd xs ys pos = some z ∧
      -212402176 ≤ z ∧ z ≤ 212402176 := by
  have hsplit : magnitude (ys.take (12 - pos)) + magnitude (ys.drop (12 - pos)) = 6482 := by
    rw [← hy, magnitude, magnitude, magnitude, ← List.sum_append, ← List.map_append,
      List.take_append_drop]
  have hm := magnitude_nonneg (ys.take (12 - pos))
  have hm' := magnitude_nonneg (ys.drop (12 - pos))
  obtain ⟨z, hz, hb⟩ := dotProd_from (ys.take (12 - pos)) (z := 0) (B := 0)
    (fun x (h : x ∈ xs.drop pos) => hx x (List.mem_of_mem_drop h)) (by decide) (by omega)
  obtain ⟨z', hz', hb'⟩ := dotProd_from (ys.drop (12 - pos)) (z := 0) (B := 0)
    (fun x (h : x ∈ xs.take pos) => hx x (List.mem_of_mem_take h)) (by decide) (by omega)
  refine ⟨z + z', ?_, by omega⟩
  simp only [circularDotProd, dotProd, hz, hz', Option.bind_eq_bind, Option.bind_some]
  exact int32_of_range (by omega)

/-! ## Turns -/

/-- The ranges of a coder's fields. -/
structure Coder.Ok (s : Coder) : Prop where
  low : s.low.Ok lowBand
  high : s.high.Ok highBand
  x : ∀ a ∈ s.x, IsInt16 a
  x_length : s.x.length = 12
  y : ∀ a ∈ s.y, IsInt16 a
  y_length : s.y.length = 12
  ptr : s.ptr < 12

theorem Coder.Ok.start : State.start.toCoder.Ok := by
  have h0 : IsInt16 0 := by decide
  have hzeros : ∀ n, ∀ x ∈ List.replicate n (0 : ℤ), IsInt16 x := by
    intro n x hx
    rw [List.eq_of_mem_replicate hx]
    exact h0
  have hband : ∀ k : BandConst, ∀ det, 8 ≤ det ∧ det ≤ 32064 → (Band.start det).Ok k := by
    intro k det hdet
    have hmax := k.nbMax_eq
    have hshift := k.shift_range
    exact {
      a1 := (by decide : (-12288 : ℤ) ≤ 0 ∧ (0 : ℤ) ≤ 12288)
      a0 := (by decide : -(15360 - 0 : ℤ) ≤ 0 ∧ (0 : ℤ) ≤ 15360 - 0)
      nb := ⟨le_rfl, by show 0 ≤ k.nbMax; omega⟩, det := hdet
      s := h0, sz := h0, r := h0, b_length := rfl, b := hzeros 6, d_length := rfl, d := hzeros 7 }
  exact {
    low := hband lowBand 32 (by decide), high := hband highBand 8 (by decide)
    x := hzeros 12, x_length := rfl, y := hzeros 12, y_length := rfl
    ptr := (by decide : 0 < 12) }

section
variable {c : Config} {s : Coder}

theorem Coder.Ok.push (h : s.Ok) {x y : ℤ} (hx : IsInt16 x) (hy : IsInt16 y) : (s.push x y).Ok :=
  { h with
    x := forall_set h.x hx
    x_length := (List.length_set ..).trans h.x_length
    y := forall_set h.y hy
    y_length := (List.length_set ..).trans h.y_length
    ptr := by
      show nextPtr s.ptr < 12
      unfold nextPtr
      split_ifs <;> omega }

theorem decodeCode_ok (h : s.Ok) (code : ℕ) :
    ∃ s' amp, decodeCode c s code = some (s', amp) ∧ s'.Ok := by
  obtain ⟨wd2, ihigh, ril, hsplit, hwd, hih, hril⟩ := splitCode_ok c.bits_per_sample code
  obtain ⟨rlow, low, hlow, hrl, hlok⟩ := decodeLow_ok h.low hwd hril
  obtain ⟨rhigh, high, hhigh, hrh, hhok⟩ := decodeHigh_ok h.high hih
  simp only [decodeCode, hsplit, hlow, hhigh, Option.bind_eq_bind, Option.bind_some]
  split_ifs
  · exact ⟨_, _, rfl, { h with low := hlok }⟩
  · exact ⟨_, _, rfl, { h with low := hlok }⟩
  · exact ⟨_, _, rfl, { h with low := hlok, high := hhok }⟩
  · have hok : ({ s with low, high } : Coder).Ok := { h with low := hlok, high := hhok }
    have hpush := hok.push (isInt16_int16 (rlow + rhigh)) (isInt16_int16 (rlow - rhigh))
    obtain ⟨even, heven, -⟩ := circularDotProd_ok qmf_coeffs_rev hpush.y (nextPtr s.ptr)
      (by decide)
    obtain ⟨odd, hodd, -⟩ := circularDotProd_ok qmf_coeffs_fwd hpush.x (nextPtr s.ptr)
      (by decide)
    refine ⟨_, [saturate (even >>> (11 : ℕ)), saturate (odd >>> (11 : ℕ))], ?_, hpush⟩
    show (do
      let even := saturate ((← circularDotProd _ qmf_coeffs_rev (nextPtr s.ptr)) >>> (11 : ℕ))
      let odd := saturate ((← circularDotProd _ qmf_coeffs_fwd (nextPtr s.ptr)) >>> (11 : ℕ))
      return (_, [even, odd])) = _
    rw [heven, hodd]
    rfl

theorem encodeBands_ok (h : s.Ok) (xlow xhigh : ℤ) :
    ∃ s' code, encodeBands c s xlow xhigh = some (s', code) ∧ s'.Ok := by
  obtain ⟨ilow, low, hlow, -, hlok⟩ := encodeLow_ok h.low xlow
  obtain ⟨ihigh, high, hhigh, -, hhok⟩ := encodeHigh_ok h.high xhigh
  simp only [encodeBands, hlow, hhigh, Option.bind_eq_bind, Option.bind_some]
  split_ifs
  · exact ⟨_, _, rfl, { h with low := hlok }⟩
  · exact ⟨_, _, rfl, { h with low := hlok, high := hhok }⟩

theorem transmitFilter_ok (h : s.Ok) (even odd : ℤ) :
    ∃ s' xlow xhigh, transmitFilter s even odd = some (s', xlow, xhigh) ∧ s'.Ok := by
  have h16 : ∀ a, IsInt16 (clamp (-16350) 16350 a) := by
    intro a
    have hc := clamp_bounds (show (-16350 : ℤ) ≤ 16350 by decide) a
    unfold IsInt16
    omega
  have hpush := h.push (h16 even) (h16 odd)
  obtain ⟨sumodd, hodd, ho⟩ := circularDotProd_ok qmf_coeffs_fwd hpush.x (nextPtr s.ptr)
    (by decide)
  obtain ⟨sumeven, heven, he⟩ := circularDotProd_ok qmf_coeffs_rev hpush.y
    (nextPtr s.ptr) (by decide)
  refine ⟨_, int16 ((sumeven + sumodd) >>> (14 : ℕ)), int16 ((sumeven - sumodd) >>> (14 : ℕ)), ?_,
    hpush⟩
  show (do
    let sumodd ← circularDotProd _ qmf_coeffs_fwd (nextPtr s.ptr)
    let sumeven ← circularDotProd _ qmf_coeffs_rev (nextPtr s.ptr)
    return (_, int16 ((← int32 (sumeven + sumodd)) >>> (14 : ℕ)),
      int16 ((← int32 (sumeven - sumodd)) >>> (14 : ℕ)))) = _
  rw [hodd, heven]
  simp only [Option.bind_eq_bind, Option.bind_some, Option.pure_def,
    int32_of_range (show -2147483648 ≤ sumeven + sumodd ∧ sumeven + sumodd ≤ 2147483647 by omega),
    int32_of_range (show -2147483648 ≤ sumeven - sumodd ∧ sumeven - sumodd ≤ 2147483647 by omega)]

theorem encodeSample_ok (h : s.Ok) (a : ℤ) :
    ∃ s' code, encodeSample c s a = some (s', code) ∧ s'.Ok := encodeBands_ok h _ _

theorem encodePair_ok (h : s.Ok) (even odd : ℤ) :
    ∃ s' code, encodePair c s even odd = some (s', code) ∧ s'.Ok := by
  obtain ⟨s₁, xlow, xhigh, hf, hok⟩ := transmitFilter_ok h even odd
  obtain ⟨s', code, hb, hok'⟩ := encodeBands_ok (c := c) hok xlow xhigh
  refine ⟨s', code, ?_, hok'⟩
  rw [encodePair, hf]
  exact hb

end

/-! ## Calls -/

section
variable {c : Config} {s : State}

@[simp] theorem nextCode_toCoder (b : ℕ) (g722_data : List ℕ) :
    (nextCode c s b g722_data).1.toCoder = s.toCoder := by
  rw [nextCode]
  split_ifs <;> rfl

@[simp] theorem putCode_toCoder (code : ℕ) : (putCode c s code).1.toCoder = s.toCoder := by
  simp only [putCode]
  split_ifs <;> rfl

/-- A turn takes a byte, or bits that are left. -/
theorem nextCode_lt (hc : 0 < c.bits_per_sample ∧ c.bits_per_sample ≤ 8) (b : ℕ)
    (g722_data : List ℕ) :
    (nextCode c s b g722_data).1.in_bits + 8 * (nextCode c s b g722_data).2.2.length <
      s.in_bits + 8 * (b :: g722_data).length := by
  rw [nextCode]
  split_ifs <;> simp only [List.length_cons] <;> omega

theorem decodeLoop_ok (hc : 0 < c.bits_per_sample ∧ c.bits_per_sample ≤ 8) {fuel : ℕ}
    (g722_data : List ℕ) (h : s.toCoder.Ok) (hf : s.in_bits + 8 * g722_data.length ≤ fuel) :
    ∃ s' amp, decodeLoop c fuel s g722_data = some (s', amp) ∧ s'.toCoder.Ok := by
  induction fuel generalizing s g722_data with
  | zero =>
    cases g722_data with
    | nil => exact ⟨s, [], rfl, h⟩
    | cons b g722_data => simp at hf
  | succ fuel ih =>
    cases g722_data with
    | nil => exact ⟨s, [], rfl, h⟩
    | cons b g722_data =>
      have hlt := nextCode_lt (s := s) hc b g722_data
      obtain ⟨coder, amp, hdec, hok⟩ := decodeCode_ok (c := c) h (nextCode c s b g722_data).2.1
      obtain ⟨s', amps, hloop, hok'⟩ := ih
        (s := { (nextCode c s b g722_data).1 with toCoder := coder })
        (nextCode c s b g722_data).2.2 hok
        (by show (nextCode c s b g722_data).1.in_bits + _ ≤ _; omega)
      refine ⟨s', amp ++ amps, ?_, hok'⟩
      simp only [decodeLoop, nextCode_toCoder, hdec, hloop, Option.bind_eq_bind, Option.bind_some,
        Option.pure_def]

/-- `g722_decode` returns on all data. -/
theorem decode_ok (hc : 0 < c.bits_per_sample ∧ c.bits_per_sample ≤ 8) (h : s.toCoder.Ok)
    (g722_data : List ℕ) : ∃ s' amp, decode c s g722_data = some (s', amp) ∧ s'.toCoder.Ok :=
  decodeLoop_ok hc g722_data h le_rfl

/-- `g722_encode` returns where the filter is given pairs of samples. -/
theorem encode_ok (h : s.toCoder.Ok) (amp : List ℤ) (ha : c.unfiltered = true ∨ Even amp.length) :
    ∃ s' g722_data, encode c s amp = some (s', g722_data) ∧ s'.toCoder.Ok := by
  fun_induction encode c s amp with
  | case1 s => exact ⟨s, [], rfl, h⟩
  | case2 s a hu =>
    obtain ⟨coder, code, he, hok⟩ := encodeSample_ok (c := c) h a
    refine ⟨(putCode c { s with toCoder := coder } code).1, _, by rw [he]; rfl, ?_⟩
    rwa [putCode_toCoder]
  | case3 s a hu => simp [hu] at ha
  | case4 s a a' amp hu ih =>
    obtain ⟨coder, code, he, hok⟩ := encodeSample_ok (c := c) h a
    obtain ⟨s', g722_data, hr, hok'⟩ := ih (putCode c { s with toCoder := coder } code).1
      (by rwa [putCode_toCoder]) (Or.inl hu)
    refine ⟨s', (putCode c { s with toCoder := coder } code).2 ++ g722_data, ?_, hok'⟩
    simp only [he, hr, Option.bind_eq_bind, Option.bind_some, Option.pure_def]
  | case5 s a a' amp hu ih =>
    obtain ⟨coder, code, he, hok⟩ := encodePair_ok (c := c) h a a'
    have heven : Even amp.length := by
      rcases ha with ha | ha
      · exact absurd ha hu
      · rw [List.length_cons, List.length_cons, Nat.even_add_one, Nat.even_add_one, not_not] at ha
        exact ha
    obtain ⟨s', g722_data, hr, hok'⟩ := ih (putCode c { s with toCoder := coder } code).1
      (by rwa [putCode_toCoder]) (Or.inr heven)
    refine ⟨s', (putCode c { s with toCoder := coder } code).2 ++ g722_data, ?_, hok'⟩
    simp only [he, hr, Option.bind_eq_bind, Option.bind_some, Option.pure_def]

/-- With the filter, an odd sample would be paired with one behind the last. -/
theorem even_of_encode {amp : List ℤ} {r : State × List ℕ} (h : encode c s amp = some r) :
    c.unfiltered = true ∨ Even amp.length := by
  fun_induction encode c s amp generalizing r with
  | case1 s => exact Or.inr Even.zero
  | case2 s a hu => exact Or.inl hu
  | case3 s a hu => cases h
  | case4 s a a' amp hu ih => exact Or.inl hu
  | case5 s a a' amp hu ih =>
    obtain ⟨⟨coder, code⟩, -, h⟩ := Option.bind_eq_some_iff.1 h
    obtain ⟨r', hr, -⟩ := Option.bind_eq_some_iff.1 h
    refine (ih _ hr).imp_right fun he => ?_
    rwa [List.length_cons, List.length_cons, Nat.even_add_one, Nat.even_add_one, not_not]

end

/-! ## Runs -/

/-- A call of the library. -/
inductive Call where
  | encode (amp : List ℤ)
  | decode (g722_data : List ℕ)

/-- The state after a call. -/
def call (c : Config) (s : State) : Call → Option State
  | .encode amp => (encode c s amp).map (·.1)
  | .decode g722_data => (decode c s g722_data).map (·.1)

/-- The caller gives the filter pairs of samples. -/
def Call.Paired (c : Config) : Call → Prop
  | .encode amp => c.unfiltered = true ∨ Even amp.length
  | .decode _ => True

/-- The pole section of the predictor, `y (n + 1) = a0 / 2¹⁴ * y n + a1 / 2¹⁴ * y (n - 1)`, has
    its poles inside the unit circle. -/
def Band.PolesInside (band : Band) : Prop :=
  ∀ z : ℂ, z ^ 2 = (band.a0 / 16384 : ℝ) * z + (band.a1 / 16384 : ℝ) → ‖z‖ < 1

theorem Band.Stable.polesInside {band : Band} (h : band.Stable) : band.PolesInside := by
  have h1 : (-12288 : ℝ) ≤ band.a1 ∧ (band.a1 : ℝ) ≤ 12288 := by exact_mod_cast h.a1
  have h0 : (-(15360 - band.a1) : ℝ) ≤ band.a0 ∧ (band.a0 : ℝ) ≤ 15360 - band.a1 := by
    exact_mod_cast h.a0
  intro z hz
  refine SecondOrder.norm_root_lt_one ?_ ?_ hz
  · rw [abs_lt]
    constructor <;> linarith
  · rw [abs_lt]
    constructor <;> linarith

section
variable {c : Config} {s : State}

theorem call_ok (hc : 0 < c.bits_per_sample ∧ c.bits_per_sample ≤ 8) (h : s.toCoder.Ok)
    {i : Call} (hi : i.Paired c) : ∃ s', call c s i = some s' ∧ s'.toCoder.Ok := by
  cases i with
  | encode amp =>
    obtain ⟨s', g722_data, he, hok⟩ := encode_ok (c := c) h amp hi
    exact ⟨s', by rw [call, he]; rfl, hok⟩
  | decode g722_data =>
    obtain ⟨s', amp, hd, hok⟩ := decode_ok hc h g722_data
    exact ⟨s', by rw [call, hd]; rfl, hok⟩

theorem paired_of_call {s' : State} {i : Call} (h : call c s i = some s') : i.Paired c := by
  cases i with
  | encode amp =>
    obtain ⟨r, hr, -⟩ := Option.map_eq_some_iff.1 h
    exact even_of_encode hr
  | decode g722_data => trivial

theorem calls_ok (hc : 0 < c.bits_per_sample ∧ c.bits_per_sample ≤ 8) (h : s.toCoder.Ok)
    {calls : List Call} (hi : ∀ i ∈ calls, i.Paired c) :
    ∃ s', calls.foldlM (call c) s = some s' ∧ s'.toCoder.Ok := by
  induction calls generalizing s with
  | nil => exact ⟨s, rfl, h⟩
  | cons i calls ih =>
    obtain ⟨s₁, h₁, hok⟩ := call_ok hc h (hi i List.mem_cons_self)
    obtain ⟨s', hs, hok'⟩ := ih hok fun j hj => hi j (List.mem_cons_of_mem i hj)
    refine ⟨s', ?_, hok'⟩
    rw [List.foldlM_cons, h₁]
    exact hs

theorem paired_of_calls {s' : State} {calls : List Call} (h : calls.foldlM (call c) s = some s') :
    ∀ i ∈ calls, i.Paired c := by
  induction calls generalizing s with
  | nil => simp
  | cons i calls ih =>
    rw [List.foldlM_cons] at h
    obtain ⟨s₁, h₁, hs⟩ := Option.bind_eq_some_iff.1 h
    exact List.forall_mem_cons.2 ⟨paired_of_call h₁, ih hs⟩

end

theorem bits_config (rate : ℤ) (eight_k packed : Bool) :
    0 < (config rate eight_k packed).bits_per_sample ∧
      (config rate eight_k packed).bits_per_sample ≤ 8 := by
  simp only [config]
  split_ifs <;> decide

/-- **Predictors.**  From the initialised state, calls return without an overflow or an access
    outside a table, and leave both predictors with their poles inside the unit circle, exactly
    if none has the filter read behind its samples. -/
theorem calls_stable_iff (rate : ℤ) (eight_k packed : Bool) (calls : List Call) :
    (∃ s, calls.foldlM (call (config rate eight_k packed)) State.start = some s ∧
        s.low.PolesInside ∧ s.high.PolesInside) ↔
      ∀ i ∈ calls, i.Paired (config rate eight_k packed) := by
  constructor
  · rintro ⟨s, hs, -⟩
    exact paired_of_calls hs
  · intro hi
    obtain ⟨s, hs, hok⟩ := calls_ok (bits_config rate eight_k packed) Coder.Ok.start hi
    exact ⟨s, hs, hok.low.toStable.polesInside, hok.high.toStable.polesInside⟩

end JaySip.G722
