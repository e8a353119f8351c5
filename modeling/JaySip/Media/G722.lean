/-
  The G.722 codec, `g722.c`: two adaptive predictors, one for each band, that the encoder and
  the decoder run on the same codes.

  Arithmetic is that of `int` and `int16_t`.  An overflow of an `int`, an access outside a
  table, and a sample read behind the last one have no value (`none`).
-/
import JaySip.FixedPoint
import Mathlib.Data.Nat.Bitwise

namespace JaySip.G722

open FixedPoint

/-! ## Tables -/

def qmf_coeffs_fwd : List ℤ := [3, -11, 12, 32, -210, 951, 3876, -805, 362, -156, 53, -11]

def qmf_coeffs_rev : List ℤ := [-11, 53, -156, 362, -805, 3876, 951, -210, 32, 12, -11, 3]

def qm2 : List ℤ := [-7408, -1616, 7408, 1616]

def qm4 : List ℤ :=
  [0, -20456, -12896, -8968, -6288, -4240, -2584, -1200,
   20456, 12896, 8968, 6288, 4240, 2584, 1200, 0]

def qm5 : List ℤ :=
  [-280, -280, -23352, -17560, -14120, -11664, -9752, -8184,
   -6864, -5712, -4696, -3784, -2960, -2208, -1520, -880,
   23352, 17560, 14120, 11664, 9752, 8184, 6864, 5712,
   4696, 3784, 2960, 2208, 1520, 880, 280, -280]

def qm6 : List ℤ :=
  [-136, -136, -136, -136, -24808, -21904, -19008, -16704,
   -14984, -13512, -12280, -11192, -10232, -9360, -8576, -7856,
   -7192, -6576, -6000, -5456, -4944, -4464, -4008, -3576,
   -3168, -2776, -2400, -2032, -1688, -1360, -1040, -728,
   24808, 21904, 19008, 16704, 14984, 13512, 12280, 11192,
   10232, 9360, 8576, 7856, 7192, 6576, 6000, 5456,
   4944, 4464, 4008, 3576, 3168, 2776, 2400, 2032,
   1688, 1360, 1040, 728, 432, 136, -432, -136]

def q6 : List ℤ :=
  [0, 35, 72, 110, 150, 190, 233, 276, 323, 370, 422, 473, 530, 587, 650, 714,
   786, 858, 940, 1023, 1121, 1219, 1339, 1458, 1612, 1765, 1980, 2195, 2557, 2919, 0, 0]

def ilb : List ℤ :=
  [2048, 2093, 2139, 2186, 2233, 2282, 2332, 2383, 2435, 2489, 2543, 2599, 2656, 2714, 2774, 2834,
   2896, 2960, 3025, 3091, 3158, 3228, 3298, 3371, 3444, 3520, 3597, 3676, 3756, 3838, 3922, 4008]

def iln : List ℕ :=
  [0, 63, 62, 31, 30, 29, 28, 27, 26, 25, 24, 23, 22, 21, 20, 19,
   18, 17, 16, 15, 14, 13, 12, 11, 10, 9, 8, 7, 6, 5, 4, 0]

def ilp : List ℕ :=
  [0, 61, 60, 59, 58, 57, 56, 55, 54, 53, 52, 51, 50, 49, 48, 47,
   46, 45, 44, 43, 42, 41, 40, 39, 38, 37, 36, 35, 34, 33, 32, 0]

def ihn : List ℕ := [0, 1, 0]

def ihp : List ℕ := [0, 3, 2]

def wl : List ℤ := [-60, -30, 58, 172, 334, 538, 1198, 3042]

def rl42 : List ℕ := [0, 7, 6, 5, 4, 3, 2, 1, 7, 6, 5, 4, 3, 2, 1, 0]

def wh : List ℤ := [0, -214, 798]

def rh2 : List ℕ := [2, 1, 2, 1]

/-! ## The predictor of a band -/

/-- `g722_band_t`. -/
structure Band where
  nb : ℤ
  det : ℤ
  s : ℤ
  sz : ℤ
  r : ℤ
  p0 : ℤ
  p1 : ℤ
  a0 : ℤ
  a1 : ℤ
  b : List ℤ
  d : List ℤ
  deriving DecidableEq, Repr

/-- UPPOL2: the second pole coefficient. -/
def uppol2 (a0 a1 p p0 p1 : ℤ) : Option ℤ := do
  let wd1 := saturate (← int32 (a0 * 4))
  let wd32 := if signsDiffer p p0 then wd1 else -wd1
  let wd32 := if wd32 > 32767 then 32767 else wd32
  let wd3 := int16 ((if signsDiffer p p1 then -128 else 128) + wd32 >>> (7 : ℕ) +
    (← mulShift a1 32512 15))
  return if |wd3| > 12288 then (if wd3 < 0 then -12288 else 12288) else wd3

/-- UPPOL1: the first pole coefficient, given the new second one. -/
def uppol1 (a0 ap1 p p0 : ℤ) : Option ℤ := do
  let wd1 := if signsDiffer p p0 then -192 else 192
  let wd2 := int16 (← mulShift a0 32640 15)
  let ap0 := satAdd wd1 wd2
  let wd3 := satSub 15360 ap1
  return if |ap0| > wd3 then (if ap0 < 0 then -wd3 else wd3) else ap0

/-- FILTEP: the pole section's part of the prediction. -/
def filtep (ap0 ap1 r r' : ℤ) : Option ℤ := do
  let wd1 := int16 (← mulShift ap0 (satAdd r r) 15)
  let wd2 := int16 (← mulShift ap1 (satAdd r' r') 15)
  return satAdd wd1 wd2

/-- UPZERO, DELAYA and FILTEZ for one tap of the zero section. -/
def zeroTap (dx wd1 : ℤ) (t : List ℤ × List ℤ × ℤ) (i : ℕ) : Option (List ℤ × List ℤ × ℤ) := do
  let (b, d, sz) := t
  let wd2 := if signsDiffer (← d[i + 1]?) dx then -wd1 else wd1
  let wd3 := int16 (← mulShift (← b[i]?) 32640 15)
  let bi := satAdd wd2 wd3
  let di ← d[i]?
  let sz ← int32 (sz + (← mulShift bi (satAdd di di) 15))
  return (b.set i bi, d.set (i + 1) di, sz)

/-- `block4`. -/
def block4 (s : Band) (dx : ℤ) : Option Band := do
  -- RECONS, PARREC
  let r := satAdd s.s dx
  let p := satAdd s.sz dx
  let ap1 ← uppol2 s.a0 s.a1 p s.p0 s.p1
  let ap0 ← uppol1 s.a0 ap1 p s.p0
  let sp ← filtep ap0 ap1 r s.r
  let wd1 := if dx = 0 then 0 else 128
  let (b, d, sz) ← [5, 4, 3, 2, 1, 0].foldlM (zeroTap dx wd1) (s.b, s.d.set 0 dx, 0)
  -- PREDIC
  return { s with
    r, p0 := p, p1 := s.p0, a0 := ap0, a1 := ap1, b, d, sz := saturate sz
    s := satAdd sp (saturate sz) }

/-- SCALEL and SCALEH: the quantizer's step for a logarithmic one. -/
def scale (shift nb : ℤ) : Option ℤ := do
  let wd1 ← ilb[(nb >>> (6 : ℕ) % 32).toNat]?
  let wd2 := shift - nb >>> (11 : ℕ)
  let wd3 ← if wd2 < 0 then int32 (wd1 * 2 ^ (-wd2).toNat) else some (wd1 >>> wd2.toNat)
  return int16 (← int32 (wd3 * 4))

/-- The constants of a band: the largest logarithmic step, and the shift of its scale, which
    is 1 less than the shift of the largest step. -/
structure BandConst where
  nbMax : ℤ
  shift : ℤ
  nbMax_eq : nbMax = (shift + 1) * 2048
  shift_range : 0 ≤ shift ∧ shift ≤ 10

def lowBand : BandConst := ⟨18432, 8, rfl, by decide⟩

def highBand : BandConst := ⟨22528, 10, rfl, by decide⟩

/-- LOGSCL and LOGSCH as the encoder has them: cast, then limited. -/
def logscEncode (k : BandConst) (nb w : ℤ) : Option ℤ := do
  let wd ← mulShift nb 127 7
  return clamp 0 k.nbMax (int16 (wd + w))

/-- LOGSCL and LOGSCH as the decoder has them: limited, then cast. -/
def logscDecode (k : BandConst) (nb w : ℤ) : Option ℤ := do
  let wd ← mulShift nb 127 7
  return int16 (clamp 0 k.nbMax (wd + w))

/-- A band after a difference: logarithmic step, step, predictor. -/
def adapt (k : BandConst) (band : Band) (nb dx : ℤ) : Option Band := do
  let det ← scale k.shift nb
  block4 { band with nb, det } dx

/-! ## The state of a coder -/

/-- The fields that the initialisation sets and that stay as they are. -/
structure Config where
  itu_test_mode : Bool
  packed : Bool
  eight_k : Bool
  bits_per_sample : ℕ
  deriving DecidableEq, Repr

/-- The fields of `g722_encode_state_s` and of `g722_decode_state_s` for the signal; `low` and
    `high` are `band[0]` and `band[1]`. -/
structure Coder where
  x : List ℤ
  y : List ℤ
  ptr : ℕ
  low : Band
  high : Band
  deriving DecidableEq, Repr

/-- These fields, and those for the bits of packed codes. -/
structure State extends Coder where
  in_buffer : ℕ
  in_bits : ℕ
  out_buffer : ℕ
  out_bits : ℕ
  deriving DecidableEq, Repr

/-- A band whose fields are 0 but for the step. -/
def Band.start (det : ℤ) : Band :=
  { nb := 0, det, s := 0, sz := 0, r := 0, p0 := 0, p1 := 0, a0 := 0, a1 := 0
    b := List.replicate 6 0, d := List.replicate 7 0 }

/-- `g722_encode_init` and `g722_decode_init`: what the options say. -/
def config (rate : ℤ) (eight_k packed : Bool) : Config where
  itu_test_mode := false
  packed := packed && (rate == 48000 || rate == 56000)
  eight_k
  bits_per_sample := if rate = 48000 then 6 else if rate = 56000 then 7 else 8

/-- `g722_encode_init` and `g722_decode_init`: the rest. -/
def State.start : State where
  x := List.replicate 12 0
  y := List.replicate 12 0
  ptr := 0
  low := Band.start 32
  high := Band.start 8
  in_buffer := 0
  in_bits := 0
  out_buffer := 0
  out_bits := 0

/-! ## Quadrature mirror filter -/

/-- A turn of the loop of `vec_dot_prodi16`. -/
def dotTurn (z : ℤ) (xy : ℤ × ℤ) : Option ℤ := do int32 (z + (← int32 (xy.1 * xy.2)))

/-- `vec_dot_prodi16` of two vectors of one length. -/
def dotProd (x y : List ℤ) : Option ℤ := (x.zip y).foldlM dotTurn 0

/-- `vec_circular_dot_prodi16(x, y, 12, pos)`. -/
def circularDotProd (x y : List ℤ) (pos : ℕ) : Option ℤ := do
  let z ← dotProd (x.drop pos) (y.take (12 - pos))
  int32 (z + (← dotProd (x.take pos) (y.drop (12 - pos))))

/-- The next place in the signal history. -/
def nextPtr (ptr : ℕ) : ℕ := if ptr + 1 ≥ 12 then 0 else ptr + 1

/-- Two samples put into the history. -/
def Coder.push (s : Coder) (x y : ℤ) : Coder :=
  { s with x := s.x.set s.ptr x, y := s.y.set s.ptr y, ptr := nextPtr s.ptr }

/-! ## Decoding -/

/-- The switch over `bits_per_sample`: the value that the low band adds to its prediction, the
    high code, and the four bits that the low predictor is given. -/
def splitCode (bits code : ℕ) : Option (ℤ × ℕ × ℕ) :=
  if bits = 7 then do return (← qm5[code &&& 0x1F]?, code >>> 5 &&& 0x03, (code &&& 0x1F) >>> 1)
  else if bits = 6 then do return (← qm4[code &&& 0x0F]?, code >>> 4 &&& 0x03, code &&& 0x0F)
  else do return (← qm6[code &&& 0x3F]?, code >>> 6 &&& 0x03, (code &&& 0x3F) >>> 2)

/-- The low band of a turn of `g722_decode`: the sample, and the band after it. -/
def decodeLow (band : Band) (wd2 : ℤ) (ril : ℕ) : Option (ℤ × Band) := do
  let rlow := saturate15 (band.s + (← mulShift band.det wd2 15))
  let dlow := int16 (← mulShift band.det (← qm4[ril]?) 15)
  let nb ← logscDecode lowBand band.nb (← wl[← rl42[ril]?]?)
  return (rlow, ← adapt lowBand band nb dlow)

/-- The high band of a turn of `g722_decode`. -/
def decodeHigh (band : Band) (ihigh : ℕ) : Option (ℤ × Band) := do
  let dhigh := int16 (← mulShift band.det (← qm2[ihigh]?) 15)
  let rhigh := saturate15 (dhigh + band.s)
  let nb ← logscDecode highBand band.nb (← wh[← rh2[ihigh]?]?)
  return (rhigh, ← adapt highBand band nb dhigh)

/-- A turn of `g722_decode` behind the unpacking of the code. -/
def decodeCode (c : Config) (s : Coder) (code : ℕ) : Option (Coder × List ℤ) := do
  let (wd2, ihigh, ril) ← splitCode c.bits_per_sample code
  let (rlow, low) ← decodeLow s.low wd2 ril
  if c.eight_k then
    let s := { s with low }
    -- `rhigh` is still 0
    if c.itu_test_mode then return (s, [int16 (rlow * 2), 0])
    else return (s, [int16 (rlow * 2)])
  else
    let (rhigh, high) ← decodeHigh s.high ihigh
    let s := { s with low, high }
    if c.itu_test_mode then return (s, [int16 (rlow * 2), int16 (rhigh * 2)])
    else
      let s := s.push (int16 (rlow + rhigh)) (int16 (rlow - rhigh))
      let even := saturate ((← circularDotProd s.y qmf_coeffs_rev s.ptr) >>> (11 : ℕ))
      let odd := saturate ((← circularDotProd s.x qmf_coeffs_fwd s.ptr) >>> (11 : ℕ))
      return (s, [even, odd])

/-- The unpacking of a code; the data is not empty. -/
def nextCode (c : Config) (s : State) (b : ℕ) (g722_data : List ℕ) :
    State × ℕ × List ℕ :=
  if c.packed then
    let (s, rest) := if s.in_bits < c.bits_per_sample then
        ({ s with in_buffer := s.in_buffer ||| b <<< s.in_bits, in_bits := s.in_bits + 8 },
          g722_data)
      else (s, b :: g722_data)
    ({ s with
        in_buffer := s.in_buffer >>> c.bits_per_sample
        in_bits := s.in_bits - c.bits_per_sample },
      s.in_buffer &&& (1 <<< c.bits_per_sample - 1), rest)
  else (s, b, g722_data)

/-- The loop of `g722_decode`, with a bound on its turns. -/
def decodeLoop (c : Config) : ℕ → State → List ℕ → Option (State × List ℤ)
  | _, s, [] => some (s, [])
  | 0, _, _ :: _ => none
  | fuel + 1, s, b :: g722_data => do
    let (s, code, rest) := nextCode c s b g722_data
    let (coder, amp) ← decodeCode c s.toCoder code
    let (s, amps) ← decodeLoop c fuel { s with toCoder := coder } rest
    return (s, amp ++ amps)

/-- `g722_decode`; every turn takes a byte, or bits that are left of earlier bytes. -/
def decode (c : Config) (s : State) (g722_data : List ℕ) : Option (State × List ℤ) :=
  decodeLoop c (s.in_bits + 8 * g722_data.length) s g722_data

/-! ## Encoding -/

/-- A decision level of QUANTL. -/
def decisionLevel (det : ℤ) (i : ℕ) : Option ℤ := do mulShift (← q6[i]?) det 12

/-- The loop of QUANTL from `i` on, for `n` more turns. -/
def quantlFrom (det wd : ℤ) : ℕ → ℕ → Option ℕ
  | 0, i => some i
  | n + 1, i => do
    let wd1 ← decisionLevel det i
    if wd < wd1 then return i else quantlFrom det wd n (i + 1)

/-- QUANTL: the low code of a difference. -/
def quantl (det el : ℤ) : Option ℕ := do
  let wd := if el ≥ 0 then el else -el - 1
  let i ← quantlFrom det wd 29 1
  if el < 0 then iln[i]? else ilp[i]?

/-- QUANTH: the high code of a difference. -/
def quanth (det eh : ℤ) : Option ℕ := do
  let wd := if eh ≥ 0 then eh else -eh - 1
  let wd1 ← mulShift 564 det 12
  let mih := if wd ≥ wd1 then 2 else 1
  if eh < 0 then ihn[mih]? else ihp[mih]?

/-- The low band of a turn of `g722_encode`: the code, and the band after it. -/
def encodeLow (band : Band) (xlow : ℤ) : Option (ℕ × Band) := do
  let el := satSub xlow band.s
  let ilow ← quantl band.det el
  let ril := ilow >>> 2
  let dlow := int16 (← mulShift band.det (← qm4[ril]?) 15)
  let nb ← logscEncode lowBand band.nb (← wl[← rl42[ril]?]?)
  return (ilow, ← adapt lowBand band nb dlow)

/-- The high band of a turn of `g722_encode`. -/
def encodeHigh (band : Band) (xhigh : ℤ) : Option (ℕ × Band) := do
  let eh := satSub xhigh band.s
  let ihigh ← quanth band.det eh
  let dhigh := int16 (← mulShift band.det (← qm2[ihigh]?) 15)
  let nb ← logscEncode highBand band.nb (← wh[← rh2[ihigh]?]?)
  return (ihigh, ← adapt highBand band nb dhigh)

/-- A turn of `g722_encode` from the samples of the bands to the code. -/
def encodeBands (c : Config) (s : Coder) (xlow xhigh : ℤ) : Option (Coder × ℕ) := do
  let (ilow, low) ← encodeLow s.low xlow
  if c.eight_k then return ({ s with low }, (0xC0 ||| ilow) >>> (8 - c.bits_per_sample))
  else
    let (ihigh, high) ← encodeHigh s.high xhigh
    return ({ s with low, high }, (ihigh <<< 6 ||| ilow) >>> (8 - c.bits_per_sample))

/-- The packing of a code. -/
def putCode (c : Config) (s : State) (code : ℕ) : State × List ℕ :=
  if c.packed then
    let s := { s with
      out_buffer := s.out_buffer ||| code <<< s.out_bits
      out_bits := s.out_bits + c.bits_per_sample }
    if s.out_bits ≥ 8 then
      ({ s with out_bits := s.out_bits - 8, out_buffer := s.out_buffer >>> 8 },
        [s.out_buffer &&& 0xFF])
    else (s, [])
  else (s, [code % 256])

/-- The transmit filter: the samples of the bands for two samples of the signal. -/
def transmitFilter (s : Coder) (even odd : ℤ) : Option (Coder × ℤ × ℤ) := do
  let s := s.push (clamp (-16350) 16350 even) (clamp (-16350) 16350 odd)
  let sumodd ← circularDotProd s.x qmf_coeffs_fwd s.ptr
  let sumeven ← circularDotProd s.y qmf_coeffs_rev s.ptr
  return (s, int16 ((← int32 (sumeven + sumodd)) >>> (14 : ℕ)),
    int16 ((← int32 (sumeven - sumodd)) >>> (14 : ℕ)))

/-- A turn reads one sample where there is no filter, and two otherwise. -/
def Config.unfiltered (c : Config) : Bool := c.itu_test_mode || c.eight_k

/-- A turn of `g722_encode` where there is no filter, up to the code. -/
def encodeSample (c : Config) (s : Coder) (a : ℤ) : Option (Coder × ℕ) :=
  encodeBands c s (a >>> (1 : ℕ)) (if c.itu_test_mode then a >>> (1 : ℕ) else 0)

/-- A turn of `g722_encode` where the filter splits the signal, up to the code. -/
def encodePair (c : Config) (s : Coder) (even odd : ℤ) : Option (Coder × ℕ) := do
  let (s, xlow, xhigh) ← transmitFilter s even odd
  encodeBands c s xlow xhigh

/-- `g722_encode`. -/
def encode (c : Config) (s : State) : List ℤ → Option (State × List ℕ)
  | [] => some (s, [])
  | [a] =>
    if c.unfiltered then do
      let (coder, code) ← encodeSample c s.toCoder a
      return putCode c { s with toCoder := coder } code
    else none
  | a :: a' :: amp =>
    if c.unfiltered then do
      let (coder, code) ← encodeSample c s.toCoder a
      let (s, bytes) := putCode c { s with toCoder := coder } code
      let (s, g722_data) ← encode c s (a' :: amp)
      return (s, bytes ++ g722_data)
    else do
      let (coder, code) ← encodePair c s.toCoder a a'
      let (s, bytes) := putCode c { s with toCoder := coder } code
      let (s, g722_data) ← encode c s amp
      return (s, bytes ++ g722_data)

end JaySip.G722
