/-
  `LanAudioPlay.lostandgood`: the statistics of the receive loop.

  The counters are floats in the source.  Here they are rationals, and `decay` is what
  `*= 0.99` does to one.  Floats count in the same way as long as all counters are whole
  numbers below 2^24.
-/
import Mathlib.Data.Rat.Defs
import JaySip.Machine

namespace JaySip

/-- The fields of `LanAudioPlay` that the receive loop counts with. -/
structure Reception where
  m : ℤ
  vm : ℤ
  gseq : ℤ
  currentseq : ℤ
  getseq : ℤ
  expseq : ℤ
  gap : ℤ
  good : ℚ
  late : ℚ
  lost : ℚ
  loss : ℚ
  loss2 : ℚ
  deriving DecidableEq, Repr

/-- `LanAudioRecord.m`, which nothing assigns. -/
def LanAudioRecord.m : ℤ := 0

namespace Reception

variable (decay : ℚ → ℚ) (r : Reception)

/-- `if (gap > 100) gap = 1`. -/
def cappedGap (gap : ℤ) : ℤ := if gap > 100 then 1 else gap

/-- The numbers that `lostandgood` compares; `% 256` is `& 0xff`. -/
def expect : Reception :=
  { r with
    getseq := r.gseq % 256
    currentseq := r.currentseq + 1
    expseq := (r.currentseq + 1) % 256
    vm := if r.m = LanAudioRecord.m then r.m else r.vm
    gap := (r.gseq % 256 - (r.currentseq + 1) % 256) % 256 }

/-- The branches for a gap, and for none. -/
def tally : Reception :=
  if r.gap > 0 then
    { r with
      gap := cappedGap r.gap
      loss := r.loss + cappedGap r.gap
      lost := r.lost + cappedGap r.gap
      good := r.good + (cappedGap r.gap - 1)
      loss2 := r.loss2 + 1 }
  else if r.m < r.vm then { r with loss := r.loss + 1, loss2 := r.loss2 + 1 }
  else r

/-- `lostandgood` behind a packet, up to `good++`. -/
def count : Reception := { r.expect.tally with good := r.expect.tally.good + 1 }

/-- The decay, once `good` has passed 110. -/
def decayed : Reception :=
  if r.good > 110 then
    { r with good := decay r.good, lost := decay r.lost, loss := decay r.loss
             loss2 := decay r.loss2, late := decay r.late }
  else r

/-- `lostandgood`. -/
def lostandgood : Reception :=
  let r := if r.currentseq ≠ 0 then r.count.decayed decay else r
  { r with m := 1, currentseq := r.gseq }

/-- The top of the loop of `run`, for a packet with this number. -/
def turn (gseq : ℤ) : Reception :=
  if r.currentseq = gseq then { r with gseq := gseq, m := r.m + 1 }
  else ({ r with gseq := gseq } : Reception).lostandgood decay

/-- A packet with this number makes the counters decay. -/
def Decays (gseq : ℤ) : Prop :=
  r.currentseq ≠ gseq ∧ r.currentseq ≠ 0 ∧ ({ r with gseq := gseq } : Reception).count.good > 110

instance (gseq : ℤ) : Decidable (r.Decays gseq) := inferInstanceAs (Decidable (_ ∧ _ ∧ _))

end Reception

/-- The receive loop, from where `empty` has cleared `currentseq`. -/
def reception (decay : ℚ → ℚ) : Machine Reception ℤ where
  init r := r.currentseq = 0
  step r gseq := r.turn decay gseq

end JaySip
