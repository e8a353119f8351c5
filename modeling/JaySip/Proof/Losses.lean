/-
  Loss accounting: what `lostandgood` adds to `lost` for a stream with gaps.
-/
import Mathlib.Algebra.Order.BigOperators.Group.List
import Mathlib.Data.Rat.Cast.Order
import JaySip.Media.LanAudioPlay
import JaySip.Media.Reception

namespace JaySip

namespace Reception

variable {decay : ℚ → ℚ} {r : Reception} {n : ℤ} {g : ℕ} {gaps : List ℕ}

/-! ## Streams -/

/-- The numbers of the packets received, from `n` on: each gap is the number of packets that
    are missing before the next. -/
def numbers (n : ℤ) : List ℕ → List ℤ
  | [] => [n % 65536]
  | g :: gaps => n % 65536 :: numbers (n + 1 + g) gaps

/-- No packet with number 0 is followed by a gap. -/
def ZeroUnbroken (n : ℤ) (gaps : List ℕ) : Prop :=
  ∀ x ∈ (numbers n gaps).zip gaps, x.1 = 0 → x.2 = 0

instance (n : ℤ) (gaps : List ℕ) : Decidable (ZeroUnbroken n gaps) :=
  inferInstanceAs (Decidable (∀ x ∈ (numbers n gaps).zip gaps, _))

/-- The missing packets that are counted: those behind a packet with another number. -/
def seen (n : ℤ) : List ℕ → ℕ
  | [] => 0
  | g :: gaps => (if n % 65536 = 0 then 0 else g) + seen (n + 1 + g) gaps

theorem seen_le (n : ℤ) (gaps : List ℕ) : seen n gaps ≤ gaps.sum := by
  induction gaps generalizing n with
  | nil => exact le_rfl
  | cons g gaps ih =>
    have h := ih (n + 1 + g)
    rw [seen, List.sum_cons]
    split_ifs <;> omega

/-- All are counted exactly when there is no gap behind a packet with number 0. -/
theorem seen_eq_iff (n : ℤ) (gaps : List ℕ) : seen n gaps = gaps.sum ↔ ZeroUnbroken n gaps := by
  induction gaps generalizing n with
  | nil => exact iff_of_true rfl fun x hx => by cases hx
  | cons g gaps ih =>
    have hle := seen_le (n + 1 + g) gaps
    have hz : ZeroUnbroken n (g :: gaps) ↔
        (n % 65536 = 0 → g = 0) ∧ ZeroUnbroken (n + 1 + g) gaps :=
      List.forall_mem_cons
    rw [hz, ← ih, seen, List.sum_cons]
    split_ifs with h0
    · constructor
      · intro h
        exact ⟨fun _ => by omega, by omega⟩
      · rintro ⟨hg, h⟩
        have := hg h0
        omega
    · constructor
      · exact fun h => ⟨fun h' => absurd h' h0, by omega⟩
      · rintro ⟨-, h⟩
        omega

/-! ## The loop -/

theorem count_gseq (r : Reception) : r.count.gseq = r.gseq := by
  unfold count tally
  split_ifs <;> rfl

theorem decayed_gseq (r : Reception) : (r.decayed decay).gseq = r.gseq := by
  unfold decayed
  split_ifs <;> rfl

/-- The loop is behind the packet that it has seen. -/
theorem turn_currentseq (r : Reception) (gseq : ℤ) : (r.turn decay gseq).currentseq = gseq := by
  unfold turn
  split_ifs with h
  · exact h
  · show (if r.currentseq ≠ 0 then _ else _ : Reception).gseq = gseq
    split_ifs
    · rw [decayed_gseq, count_gseq]
    · rfl

section
variable {σ : Type}

theorem turn_received (s : Player σ) (r : Reception) (datagram : Option (List UInt8)) :
    (r.turn decay (s.received datagram).rtp_packet.getSequenceNumber).currentseq =
      (s.received datagram).currentseq := by
  rw [turn_currentseq]
  unfold Player.received
  extract_lets packet gseq
  by_cases h : s.currentseq = gseq
  · rw [if_pos h]
    exact congrArg _ h.symm
  · rw [if_neg h]

/-- The number that the player looks at in a step, if it is at the top of its loop. -/
def read (st : Machine.Step (Player σ) PlayerInput) : Option ℤ :=
  match st.input with
  | .receive datagram =>
    if st.pre.pc = .receiving then
      some ((st.pre.received datagram).rtp_packet.getSequenceNumber : ℤ)
    else none
  | .player | .decoder => none

theorem playerStep_currentseq (s : Player σ) : s.playerStep.currentseq = s.currentseq := by
  have hput (s : Player σ) : s.putData.currentseq = s.currentseq := by
    unfold Player.putData
    split <;> rfl
  have hget (s : Player σ) : s.getData.currentseq = s.currentseq := by
    unfold Player.getData
    split <;> rfl
  unfold Player.playerStep
  split
  case h_3 =>
    split_ifs
    · rfl
    · exact hput s
  case h_5 => exact hget s
  all_goals rfl

/-- In every run of the player the loop is behind the packet that the player has seen. -/
theorem run_received (decode : Decode σ) {s : Player σ} {r : Reception}
    (h : r.currentseq = s.currentseq) (is : List PlayerInput) :
    ((reception decay).run r (((player decode).history s is).filterMap read)).currentseq =
      ((player decode).run s is).currentseq := by
  induction is generalizing s r with
  | nil => exact h
  | cons i is ih =>
    rw [Machine.history, Machine.run_cons]
    cases i with
    | receive datagram =>
      by_cases hpc : s.pc = .receiving
      · have hstep : (player decode).step s (.receive datagram) = s.received datagram := if_pos hpc
        have hread : read ((player decode).stepOf s (.receive datagram)) =
            some ((s.received datagram).rtp_packet.getSequenceNumber : ℤ) := if_pos hpc
        rw [List.filterMap_cons_some hread, Machine.run_cons, hstep]
        exact ih (turn_received s r datagram)
      · have hstep : (player decode).step s (.receive datagram) = s := if_neg hpc
        have hread : read ((player decode).stepOf s (.receive datagram)) = none := if_neg hpc
        rw [List.filterMap_cons_none hread, hstep]
        exact ih h
    | player =>
      rw [List.filterMap_cons_none rfl]
      exact ih (h.trans (congrArg _ (playerStep_currentseq s).symm))
    | decoder =>
      rw [List.filterMap_cons_none rfl]
      exact ih h

end

/-- A gap of at most 100 packets is added as it is. -/
theorem count_lost (hgap : r.expect.gap = g) (hg : g ≤ 100) : r.count.lost = r.lost + g := by
  show r.expect.tally.lost = _
  unfold tally
  rw [hgap]
  split_ifs with hpos
  · show r.lost + ((cappedGap (g : ℤ) : ℤ) : ℚ) = r.lost + g
    rw [cappedGap, if_neg (by omega), Int.cast_natCast]
  all_goals
    obtain rfl : g = 0 := by omega
    exact (add_zero r.lost).symm

/-- The first packet, and the next behind a packet with number 0, are not counted. -/
theorem turn_lost_zero {gseq : ℤ} (h : r.currentseq = 0) : (r.turn decay gseq).lost = r.lost := by
  unfold turn
  split_ifs with hg
  · rfl
  · rw [lostandgood]
    simp [h]

/-- Behind another number the gap is counted. -/
theorem turn_lost_gap (hc : r.currentseq = n % 65536) (h0 : n % 65536 ≠ 0) (hg : g ≤ 100)
    (hd : ¬ r.Decays ((n + 1 + g) % 65536)) :
    (r.turn decay ((n + 1 + g) % 65536)).lost = r.lost + g := by
  have hne : r.currentseq ≠ (n + 1 + g) % 65536 := by omega
  have hgap : ((n + 1 + g) % 65536 % 256 - (r.currentseq + 1) % 256) % 256 = g := by omega
  have hgood : ¬ ({ r with gseq := (n + 1 + g) % 65536 } : Reception).count.good > 110 :=
    fun hgood => hd ⟨hne, hc ▸ h0, hgood⟩
  rw [turn, if_neg hne, lostandgood]
  show (if r.currentseq ≠ 0 then _ else _ : Reception).lost = _
  rw [if_pos (hc ▸ h0), decayed, if_neg hgood]
  exact count_lost hgap hg

/-- Behind a packet the loop counts the gaps of the rest of the stream. -/
theorem run_lost {r : Reception} (hc : r.currentseq = n % 65536) (hg : ∀ g ∈ gaps, g ≤ 100)
    (hd : (reception decay).Along r (numbers n gaps).tail fun _ st => ¬ st.pre.Decays st.input) :
    ((reception decay).run r (numbers n gaps).tail).lost = r.lost + seen n gaps := by
  induction gaps generalizing n r with
  | nil => exact (add_zero r.lost).symm
  | cons g gaps ih =>
    have hnumbers : (numbers n (g :: gaps)).tail =
        (n + 1 + g) % 65536 :: (numbers (n + 1 + g) gaps).tail := by
      cases gaps <;> rfl
    rw [hnumbers, Machine.along_cons] at hd
    have hturn : (r.turn decay ((n + 1 + g) % 65536)).lost =
        r.lost + (if n % 65536 = 0 then 0 else g : ℕ) := by
      by_cases h0 : n % 65536 = 0
      · rw [if_pos h0, turn_lost_zero (hc.trans h0)]
        exact (add_zero r.lost).symm
      · rw [if_neg h0, turn_lost_gap hc h0 (hg g List.mem_cons_self) hd.1]
    have hrun := ih (turn_currentseq r _) (fun g' hg' => hg g' (List.mem_cons_of_mem g hg')) hd.2
    rw [hnumbers, Machine.run_cons, seen]
    show ((reception decay).run (r.turn decay _) _).lost = _
    rw [hrun, hturn, add_assoc, Nat.cast_add]

/-- **Loss accounting.**  While nothing decays, what the loop adds to `lost` for a stream is the
    number of the missing packets exactly when no packet with number 0 is followed by a gap. -/
theorem lost_iff (decay : ℚ → ℚ) {r : Reception} (h : (reception decay).init r) (n : ℤ)
    {gaps : List ℕ} (hg : ∀ g ∈ gaps, g ≤ 100)
    (hd : (reception decay).Along r (numbers n gaps) fun _ st => ¬ st.pre.Decays st.input) :
    ((reception decay).run r (numbers n gaps)).lost - r.lost = gaps.sum ↔ ZeroUnbroken n gaps := by
  have hnumbers : numbers n gaps = n % 65536 :: (numbers n gaps).tail := by
    cases gaps <;> rfl
  rw [hnumbers, Machine.along_cons] at hd
  have hrun := run_lost (turn_currentseq r (n % 65536)) hg hd.2
  rw [hnumbers, Machine.run_cons]
  show ((reception decay).run (r.turn decay _) _).lost - _ = _ ↔ _
  rw [hrun, turn_lost_zero h, add_sub_cancel_left, Nat.cast_inj, seen_eq_iff]

/-- The counters when the program starts. -/
def zero : Reception := ⟨0, 1, 0, 0, 0, 0, 0, 0, 0, 0, 0, 0⟩

/-- `*= 0.99`. -/
def fade (x : ℚ) : ℚ := x * 99 / 100

/-- Two packets are lost before the wrap, and counted. -/
theorem lost_wrap : ((reception fade).run zero (numbers 65532 [1, 1])).lost - zero.lost = 2 := by
  have hd : (reception fade).Along zero (numbers 65532 [1, 1]) fun _ st =>
      ¬ st.pre.Decays st.input := by
    rw [numbers, numbers, numbers, Machine.along_cons, Machine.along_cons, Machine.along_cons]
    exact ⟨by decide +kernel, by decide +kernel, by decide +kernel, (reception fade).along_nil _ _⟩
  exact (lost_iff fade (r := zero) (by rfl) 65532 (by decide) hd).2 (by decide)

/-- Behind a packet with number 0 the missing packets are not counted. -/
theorem lost_behind_zero : ¬ ∀ decay r n gaps, (reception decay).init r → (∀ g ∈ gaps, g ≤ 100) →
    ((reception decay).Along r (numbers n gaps) fun _ st => ¬ st.pre.Decays st.input) →
      ((reception decay).run r (numbers n gaps)).lost - r.lost = gaps.sum := by
  intro h
  have hd : (reception fade).Along zero (numbers 65535 [0, 4]) fun _ st =>
      ¬ st.pre.Decays st.input := by
    rw [numbers, numbers, numbers, Machine.along_cons, Machine.along_cons, Machine.along_cons]
    exact ⟨by decide +kernel, by decide +kernel, by decide +kernel, (reception fade).along_nil _ _⟩
  exact absurd (h fade zero 65535 [0, 4] rfl (by decide) hd) (by decide +kernel)

end Reception

end JaySip
