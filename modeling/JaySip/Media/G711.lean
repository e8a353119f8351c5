/-
  `G711`: the tables and the loops that turn received bytes into samples.
-/
import JaySip.Java.Array

namespace JaySip.G711

open Java

/-! ## Tables -/

/-- `_a2s`, before the cast to `short`. -/
def _a2s : List ℤ :=
  [60032, 60288, 59520, 59776, 61056, 61312, 60544, 60800, 57984, 58240, 57472, 57728, 59008,
   59264, 58496, 58752, 62784, 62912, 62528, 62656, 63296, 63424, 63040, 63168, 61760, 61888,
   61504, 61632, 62272, 62400, 62016, 62144, 43520, 44544, 41472, 42496, 47616, 48640, 45568,
   46592, 35328, 36352, 33280, 34304, 39424, 40448, 37376, 38400, 54528, 55040, 53504, 54016,
   56576, 57088, 55552, 56064, 50432, 50944, 49408, 49920, 52480, 52992, 51456, 51968, 65192,
   65208, 65160, 65176, 65256, 65272, 65224, 65240, 65064, 65080, 65032, 65048, 65128, 65144,
   65096, 65112, 65448, 65464, 65416, 65432, 65512, 65528, 65480, 65496, 65320, 65336, 65288,
   65304, 65384, 65400, 65352, 65368, 64160, 64224, 64032, 64096, 64416, 64480, 64288, 64352,
   63648, 63712, 63520, 63584, 63904, 63968, 63776, 63840, 64848, 64880, 64784, 64816, 64976,
   65008, 64912, 64944, 64592, 64624, 64528, 64560, 64720, 64752, 64656, 64688, 5504, 5248,
   6016, 5760, 4480, 4224, 4992, 4736, 7552, 7296, 8064, 7808, 6528, 6272, 7040, 6784, 2752,
   2624, 3008, 2880, 2240, 2112, 2496, 2368, 3776, 3648, 4032, 3904, 3264, 3136, 3520, 3392,
   22016, 20992, 24064, 23040, 17920, 16896, 19968, 18944, 30208, 29184, 32256, 31232, 26112,
   25088, 28160, 27136, 11008, 10496, 12032, 11520, 8960, 8448, 9984, 9472, 15104, 14592, 16128,
   15616, 13056, 12544, 14080, 13568, 344, 328, 376, 360, 280, 264, 312, 296, 472, 456, 504,
   488, 408, 392, 440, 424, 88, 72, 120, 104, 24, 8, 56, 40, 216, 200, 248, 232, 152, 136, 184,
   168, 1376, 1312, 1504, 1440, 1120, 1056, 1248, 1184, 1888, 1824, 2016, 1952, 1632, 1568,
   1760, 1696, 688, 656, 752, 720, 560, 528, 624, 592, 944, 912, 1008, 976, 816, 784, 880, 848]

/-- `a2s`: A-law to linear. -/
def a2s : List ℤ := _a2s.map (Int.bmod · 65536)

/-- `_u2a`: u-law to A-law conversions. -/
def _u2a : List ℤ :=
  [1, 1, 2, 2, 3, 3, 4, 4, 5, 5, 6, 6, 7, 7, 8, 8, 9, 10, 11, 12, 13, 14, 15, 16, 17, 18, 19,
   20, 21, 22, 23, 24, 25, 27, 29, 31, 33, 34, 35, 36, 37, 38, 39, 40, 41, 42, 43, 44, 46, 48,
   49, 50, 51, 52, 53, 54, 55, 56, 57, 58, 59, 60, 61, 62, 64, 65, 66, 67, 68, 69, 70, 71, 72,
   73, 74, 75, 76, 77, 78, 79, 81, 82, 83, 84, 85, 86, 87, 88, 89, 90, 91, 92, 93, 94, 95, 96,
   97, 98, 99, 100, 101, 102, 103, 104, 105, 106, 107, 108, 109, 110, 111, 112, 113, 114, 115,
   116, 117, 118, 119, 120, 121, 122, 123, 124, 125, 126, 127, 128]

/-! ## Decoding -/

/-- `ulaw2alaw`, on the bits of the byte. -/
def ulaw2alaw (uval : ℕ) : Except JException ℕ := do
  let uval := uval &&& 0xff
  if uval &&& 0x80 ≠ 0 then return 0xD5 ^^^ ((← arrayGet _u2a (0xFF ^^^ uval : ℕ)) - 1).toNat
  else return 0x55 ^^^ ((← arrayGet _u2a (0x7F ^^^ uval : ℕ)) - 1).toNat

/-- A turn of a decoding loop: byte `i` behind the RTP header gives sample `i`. -/
def decodeByte (sample : ℕ → Except JException ℤ) (enc : List UInt8) (i : ℕ) :
    EStateM JException (List ℤ) Unit := do
  let b ← lift (arrayGet enc (i + 12))
  let s ← lift (sample b.toNat)
  let lin ← get
  set (← lift (arraySet lin i s))

/-- `alaw2linear`; the state is the array `lin`. -/
def alaw2linear (alaw : List UInt8) (frames : ℕ) : EStateM JException (List ℤ) Unit :=
  loop frames (fun i _ => decodeByte (fun b => arrayGet a2s b) alaw i) ()

/-- `ulaw2linear`; the state is the array `lin`. -/
def ulaw2linear (ulaw : List UInt8) (frames : ℕ) : EStateM JException (List ℤ) Unit :=
  loop frames (fun i _ => decodeByte (fun b => do arrayGet a2s (← ulaw2alaw b)) ulaw i) ()

example : ulaw2alaw 0xff = .ok 0xD5 := by decide

end JaySip.G711
