/-
  What a sample loses: unless its predictor is outrun, the low band's sample of the decoder lies
  within a fixed part of the quantizer's step of the encoder's.
-/
import JaySip.Proof.G722Sync

namespace JaySip.G722

open FixedPoint

/-! ## Cells -/

/-- A decision level of QUANTL, for a step. -/
def level (det : ℤ) (i : ℕ) : ℤ := (q6.getD i 0 * det) >>> (12 : ℕ)

theorem decisionLevel_eq {det : ℤ} (hd : IsInt16 det) {i : ℕ} (hi : i < 32) :
    decisionLevel det i = some (level det i) := by
  obtain ⟨q, hq, hq16⟩ := lookup q6 (P := IsInt16) (by decide) hi
  rw [decisionLevel, hq, Option.bind_eq_bind, Option.bind_some, mulShift_of_range hq16 hd, level,
    List.getD_eq_getElem?_getD, hq]
  rfl

/-- The loop stops at the first level that is above. -/
theorem quantlFrom_cell {det : ℤ} (wd : ℤ) (hd : IsInt16 det) {n i : ℕ} (hn : i + n ≤ 30) :
    ∃ j, quantlFrom det wd n i = some j ∧ i ≤ j ∧ j ≤ i + n ∧
      (∀ k, i ≤ k → k < j → level det k ≤ wd) ∧ (j < i + n → wd < level det j) := by
  induction n generalizing i with
  | zero => exact ⟨i, rfl, le_rfl, le_rfl, fun k h h' => by omega, fun h => by omega⟩
  | succ n ih =>
    simp only [quantlFrom, decisionLevel_eq hd (show i < 32 by omega), Option.bind_eq_bind,
      Option.bind_some]
    split_ifs with hlt
    · exact ⟨i, rfl, le_rfl, by omega, fun k h h' => by omega, fun _ => hlt⟩
    · obtain ⟨j, hj, hle, hge, hbelow, habove⟩ := ih (i := i + 1) (by omega)
      refine ⟨j, hj, by omega, by omega, fun k hk hkj => ?_, fun h => habove (by omega)⟩
      rcases Nat.eq_or_lt_of_le hk with rfl | hk
      · exact not_lt.1 hlt
      · exact hbelow k hk hkj

/-- The magnitude that QUANTL works on. -/
def cellOf (el : ℤ) : ℤ := if el ≥ 0 then el else -el - 1

/-- The code of the `i`th cell. -/
def cellCode (neg : Bool) (i : ℕ) : ℕ := (if neg then iln else ilp).getD i 0

/-- Below a level, the code is that of the cell of the difference. -/
theorem quantl_cell {det el : ℤ} (hd : IsInt16 det) {top : ℕ} (ht : top ≤ 29)
    (hel : cellOf el < level det top) (hpos : 1 ≤ top) :
    ∃ i, 1 ≤ i ∧ i ≤ top ∧ quantl det el = some (cellCode (decide (el < 0)) i) ∧
      level det (i - 1) ≤ cellOf el ∧ cellOf el < level det i := by
  obtain ⟨i, hi, hle, hge, hbelow, habove⟩ := quantlFrom_cell (cellOf el) hd
    (show 1 + 29 ≤ 30 by decide)
  have hit : i ≤ top := by
    by_contra hgt
    have := hbelow top hpos (by omega)
    omega
  refine ⟨i, hle, hit, ?_, ?_, habove (by omega)⟩
  · have hlt : i < 32 := by omega
    have hwd : (if el ≥ 0 then el else -el - 1) = cellOf el := rfl
    simp only [quantl, hwd, hi, Option.bind_eq_bind, Option.bind_some]
    by_cases hneg : el < 0
    · rw [if_pos hneg, cellCode, decide_eq_true hneg, if_pos rfl, List.getD_eq_getElem?_getD,
        List.getElem?_eq_getElem (show i < iln.length from hlt)]
      rfl
    · rw [if_neg hneg, cellCode, decide_eq_false hneg, if_neg Bool.false_ne_true,
        List.getD_eq_getElem?_getD, List.getElem?_eq_getElem (show i < ilp.length from hlt)]
      rfl
  · rcases Nat.eq_or_lt_of_le hle with rfl | hlt
    · have h0 : level det 0 = 0 := by simp [level, q6]
      have hn : 0 ≤ cellOf el := by
        unfold cellOf
        split_ifs <;> omega
      show level det 0 ≤ cellOf el
      omega
    · exact hbelow (i - 1) (by omega) (by omega)

/-! ## Rates -/

/-- The last level below which the codes of a rate tell a difference. -/
def topLevel (bits : ℕ) : ℕ := if bits = 6 then 26 else if bits = 7 then 28 else 29

/-- The largest distance of a level to what its code is decoded as, in 4096ths of the step. -/
def maxError (bits : ℕ) : ℤ := if bits = 6 then 368 else if bits = 7 then 362 else 181

theorem topLevel_range (bits : ℕ) : 1 ≤ topLevel bits ∧ topLevel bits ≤ 29 := by
  unfold topLevel
  split_ifs <;> decide

/-- What a cell is decoded as is near to both of its levels. -/
theorem cell_value {bits ihigh i : ℕ} (hb : bits = 6 ∨ bits = 7 ∨ bits = 8) (hh : ihigh < 4)
    (hi : 1 ≤ i ∧ i ≤ topLevel bits) (neg : Bool) :
    ∃ v r, splitCode bits (joinCode bits ihigh (cellCode neg i)) =
        some (if neg then -v else v, r) ∧
      8 * q6.getD i 0 - 8 * maxError bits ≤ v ∧ v ≤ 8 * q6.getD (i - 1) 0 + 8 * maxError bits := by
  have key : ∀ bits ∈ [6, 7, 8], ∀ ihigh < 4, ∀ i ≤ 29, ∀ neg : Bool, 1 ≤ i → i ≤ topLevel bits →
      ((splitCode bits (joinCode bits ihigh (cellCode neg i))).any fun r =>
        decide (8 * q6.getD i 0 - 8 * maxError bits ≤ (if neg then -r.1 else r.1) ∧
          (if neg then -r.1 else r.1) ≤ 8 * q6.getD (i - 1) 0 + 8 * maxError bits)) = true := by
    decide +kernel
  have htop := (topLevel_range bits).2
  have hk := key bits (by simpa using hb) ihigh hh i (hi.2.trans htop) neg hi.1 hi.2
  obtain ⟨⟨w, r⟩, hs, hw⟩ := (Option.any_eq_true _ _).1 hk
  refine ⟨if neg then -w else w, r, ?_, of_decide_eq_true hw⟩
  rw [hs]
  cases neg <;> simp

theorem q6_range (i : ℕ) : 0 ≤ q6.getD i 0 ∧ q6.getD i 0 ≤ 2919 := by
  have hall : ∀ q ∈ q6, 0 ≤ q ∧ q ≤ 2919 := by decide
  rw [List.getD_eq_getElem?_getD]
  cases hq : q6[i]? with
  | none => decide
  | some q => exact hall q (List.mem_of_getElem? hq)

/-! ## Turns -/

/-- A difference and what its cell is decoded as. -/
theorem cell_error {det el v g q q' : ℤ} {neg : Bool} (hd : 8 ≤ det)
    (hneg : neg = decide (el < 0)) (hq : (q * det) >>> (12 : ℕ) ≤ cellOf el)
    (hq' : cellOf el < (q' * det) >>> (12 : ℕ)) (hv : 8 * q' - 8 * g ≤ v ∧ v ≤ 8 * q + 8 * g) :
    |(det * (if neg then -v else v)) >>> (15 : ℕ) - el| ≤ (g * det) >>> (12 : ℕ) + 1 := by
  have hlow : 8 * (q' * det) - 8 * (g * det) ≤ v * det := by nlinarith [hv.1]
  have hhigh : v * det ≤ 8 * (q * det) + 8 * (g * det) := by nlinarith [hv.2]
  have h1 := shiftRight_bounds (n := q * det) 12
  have h2 := shiftRight_bounds (n := q' * det) 12
  have h3 := shiftRight_bounds (n := g * det) 12
  have h4 := shiftRight_bounds (n := det * (if neg then -v else v)) 15
  rw [abs_le]
  unfold cellOf at hq hq'
  by_cases h : el < 0
  · rw [hneg, decide_eq_true h, if_pos rfl, show det * -v = -(v * det) by ring] at *
    rw [if_neg (by omega)] at hq hq'
    omega
  · rw [hneg, decide_eq_false h, if_neg Bool.false_ne_true, mul_comm det v] at *
    rw [if_pos (by omega)] at hq hq'
    omega

section
variable {band band' : Band}

theorem quantl_of_encodeLow {xlow : ℤ} {ilow : ℕ} (he : encodeLow band xlow = some (ilow, band')) :
    quantl band.det (satSub xlow band.s) = some ilow := by
  obtain ⟨i, hi, he⟩ := Option.bind_eq_some_iff.1 he
  simp only [Option.bind_eq_bind, Option.bind_eq_some_iff, Option.pure_def, Option.some.injEq,
    Prod.mk.injEq] at he
  obtain ⟨-, -, -, -, -, -, -, -, -, -, -, -, rfl, -⟩ := he
  exact hi

theorem decodeLow_value {wd2 rlow : ℤ} {r : ℕ} (hdet : IsInt16 band.det) (hwd : IsInt16 wd2)
    (hd : decodeLow band wd2 r = some (rlow, band')) :
    rlow = saturate15 (band.s + (band.det * wd2) >>> (15 : ℕ)) := by
  rw [decodeLow, mulShift_of_range hdet hwd] at hd
  simp only [Option.bind_eq_bind, Option.bind_some, Option.bind_eq_some_iff, Option.pure_def,
    Option.some.injEq, Prod.mk.injEq] at hd
  obtain ⟨-, -, -, -, -, -, -, -, -, -, -, -, h, -⟩ := hd
  exact h.symm

/-- Limiting a value brings it no further from one within the limits. -/
theorem abs_saturate15_sub_le {x y : ℤ} (hx : -16384 ≤ x ∧ x ≤ 16383) :
    |saturate15 y - x| ≤ |y - x| := by
  unfold saturate15 clamp
  rw [abs_le]
  rcases abs_cases (y - x) with ⟨ha, hn⟩ | ⟨ha, hn⟩ <;> rw [ha] <;> split_ifs <;> omega

/-- A sample of the low band, encoded and decoded by the same predictor. -/
theorem low_error {bits ihigh : ℕ} (hb : bits = 6 ∨ bits = 7 ∨ bits = 8) (hh : ihigh < 4)
    (h : band.Ok lowBand) {xlow : ℤ} (hx : -16384 ≤ xlow ∧ xlow ≤ 16383)
    (hs : |xlow - band.s| < level band.det (topLevel bits)) {ilow : ℕ}
    (he : encodeLow band xlow = some (ilow, band')) :
    ∃ wd2 rlow, splitCode bits (joinCode bits ihigh ilow) = some (wd2, ihigh, ilow >>> 2) ∧
      decodeLow band wd2 (ilow >>> 2) = some (rlow, band') ∧ (-16384 ≤ rlow ∧ rlow ≤ 16383) ∧
      |rlow - xlow| ≤ (maxError bits * band.det) >>> (12 : ℕ) + 1 := by
  have hdet := h.det
  have hq := q6_range (topLevel bits)
  have htop := topLevel_range bits
  have hlev := shiftRight_bounds (n := q6.getD (topLevel bits) 0 * band.det) 12
  have hmul : q6.getD (topLevel bits) 0 * band.det ≤ 2919 * 32064 := by nlinarith
  have hel : satSub xlow band.s = xlow - band.s := by
    refine clamp_of_range ?_
    have := abs_lt.1 hs
    unfold level at this
    omega
  have hcell : cellOf (xlow - band.s) < level band.det (topLevel bits) := by
    have := abs_lt.1 hs
    unfold cellOf
    split_ifs <;> omega
  obtain ⟨i, hi, hit, hcode, hge, hlt⟩ := quantl_cell h.isInt16_det htop.2 hcell htop.1
  obtain rfl : cellCode (decide (xlow - band.s < 0)) i = ilow := by
    have hilow := quantl_of_encodeLow he
    rw [hel, hcode] at hilow
    exact Option.some.inj hilow
  obtain ⟨v, r, hsplit, hv⟩ := cell_value hb hh ⟨hi, hit⟩ (decide (xlow - band.s < 0))
  obtain ⟨wd2, hsplit', hwd⟩ := splitCode_joinCode hb hh
    (encodeLow_decodes h he (show IsInt16 0 by decide)).1
  rw [hsplit] at hsplit'
  obtain ⟨rfl, rfl⟩ := Prod.mk.inj (Option.some.inj hsplit')
  obtain ⟨-, rlow, hd⟩ := encodeLow_decodes h he hwd
  obtain rfl := decodeLow_value h.isInt16_det hwd hd
  refine ⟨_, _, hsplit, hd, clamp_bounds (by decide) _, (abs_saturate15_sub_le hx).trans ?_⟩
  have herr := cell_error hdet.1 rfl hge hlt hv
  rwa [show ∀ e : ℤ, band.s + e - xlow = e - (xlow - band.s) from fun e => by ring]

end

/-! ## Samples -/

section
variable {c : Config}

/-- Without packing no code is held back. -/
theorem Linked.same (hc : c.Rate) (hk : c.packed = false) {sent : List ℤ} {p : State × State}
    (h : Linked c sent p) : p.1.toCoder.Same p.2.toCoder := by
  obtain ⟨codes, rest, hsent, hf, -, hheld⟩ := h.codes
  have hlen := length_held_le hc h.decoder_holds h.encoder_holds hheld
  rw [hk, if_neg Bool.false_ne_true] at hlen
  rw [List.length_eq_zero_iff.1 (Nat.le_zero.1 hlen), List.append_nil] at hsent
  obtain ⟨d, hd, hs⟩ := encodeCodes_follows hc Coder.Ok.start Coder.Ok.start ⟨rfl, rfl⟩ hsent
  obtain rfl := Option.some.inj (hd.symm.trans hf)
  exact hs

/-- A sample, in the mode without the split into bands. -/
theorem sample_close (hc : c.Rate) (hk : c.packed = false) (h8 : c.eight_k = true)
    (ht : c.itu_test_mode = false) {e d : State} (he : e.toCoder.Ok)
    (hsame : e.toCoder.Same d.toCoder) {a : ℤ} (ha : IsInt16 a)
    (hs : |a >>> (1 : ℕ) - e.low.s| < level e.low.det (topLevel c.bits_per_sample)) :
    ∃ e' d' g722_data amp, encode c e [a] = some (e', g722_data) ∧
      decode c d g722_data = some (d', [amp]) ∧
      |amp - a| ≤ 2 * ((maxError c.bits_per_sample * e.low.det) >>> (12 : ℕ)) + 3 := by
  have hhalf := shiftRight_bounds (n := a) 1
  have ha1 := ha.1
  have ha2 := ha.2
  have hu : c.unfiltered = true := by rw [Config.unfiltered, h8, Bool.or_true]
  have hbits : c.bits_per_sample ≤ 8 := by
    unfold Config.Rate at hc
    omega
  obtain ⟨ilow, low, hlow, hllt, -⟩ := encodeLow_ok he.low (a >>> (1 : ℕ))
  obtain ⟨wd2, rlow, hsplit, hdec, hr, herr⟩ := low_error hc (show 3 < 4 by decide) he.low
    ⟨by omega, by omega⟩ hs hlow
  have hcode := joinCode_lt hbits (show 3 < 4 by decide) hllt
  have hmod : joinCode c.bits_per_sample 3 ilow % 256 = joinCode c.bits_per_sample 3 ilow :=
    Nat.mod_eq_of_lt (hcode.trans_le (Nat.pow_le_pow_right (n := 2) (by decide) hbits))
  have henc : encodeBands c e.toCoder (a >>> (1 : ℕ)) 0 =
      some ({ e.toCoder with low }, joinCode c.bits_per_sample 3 ilow) := by
    simp only [encodeBands, hlow, Option.bind_eq_bind, Option.bind_some, if_pos h8,
      Option.pure_def]
    rfl
  have hdecode : decodeCode c d.toCoder (joinCode c.bits_per_sample 3 ilow) =
      some ({ d.toCoder with low }, [rlow * 2]) := by
    simp only [decodeCode, hsplit, ← hsame.1, hdec, Option.bind_eq_bind, Option.bind_some,
      if_pos h8, ht, if_neg Bool.false_ne_true, Option.pure_def,
      int16_of_range (show IsInt16 (rlow * 2) by unfold IsInt16; omega)]
  refine ⟨{ e with low }, { d with low }, [joinCode c.bits_per_sample 3 ilow], rlow * 2, ?_, ?_, ?_⟩
  · simp only [encode, if_pos hu, encodeSample, ht, if_neg Bool.false_ne_true, henc,
      Option.bind_eq_bind, Option.bind_some, putCode, hk, hmod, Option.pure_def]
  · show decodeLoop c (d.in_bits + 7 + 1) d [joinCode c.bits_per_sample 3 ilow] = _
    simp only [decodeLoop, nextCode, hk, if_neg Bool.false_ne_true, hdecode, Option.bind_eq_bind,
      Option.bind_some, Option.pure_def, List.append_nil]
  · rw [abs_le] at herr ⊢
    omega

end

/-- **Distortion.**  Without the split into bands and without packing, at every rate and after
    every signal, the decoder gives a sample back within twice a fixed part of the encoder's
    step, unless it lies at least as far from the prediction as the last level of the rate. -/
theorem decoded_close (rate : ℤ) (blocks : List (List ℤ)) (e d : State)
    (hrun : blocks.foldlM (transmit (config rate true false)) (State.start, State.start) =
      some (e, d)) (a : ℤ) (ha : IsInt16 a)
    (hs : |a >>> (1 : ℕ) - e.low.s| <
      level e.low.det (topLevel (config rate true false).bits_per_sample)) :
    ∃ e' d' g722_data amp, encode (config rate true false) e [a] = some (e', g722_data) ∧
      decode (config rate true false) d g722_data = some (d', [amp]) ∧
      |amp - a| ≤ 2 * ((maxError (config rate true false).bits_per_sample * e.low.det) >>>
        (12 : ℕ)) + 3 := by
  have hc := rate_config rate true false
  have hu : (config rate true false).unfiltered = true := rfl
  obtain ⟨p, hp, hl⟩ := Linked.start.transmits hc blocks fun _ _ => Or.inl hu
  obtain rfl := Option.some.inj (hp.symm.trans hrun)
  exact sample_close hc rfl rfl rfl hl.encoder (hl.same hc rfl) ha hs

/-- The first sample of a signal at 64 kbit/s. -/
theorem decoded_close_first : ∃ e' d' g722_data amp,
    encode (config 64000 true false) State.start [40] = some (e', g722_data) ∧
      decode (config 64000 true false) State.start g722_data = some (d', [amp]) ∧
      |amp - 40| ≤ 2 * ((maxError 8 * 32) >>> (12 : ℕ)) + 3 :=
  decoded_close 64000 [] State.start State.start rfl 40 (by decide) (by decide)

end JaySip.G722
