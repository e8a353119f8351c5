/-
  Payloads: what the player hands to the decoder of each packet.
-/
import JaySip.Proof.Playing

namespace JaySip

open Java

variable {σ : Type} {decode : Decode σ} {s s' : Player σ} {p : RtpPacket}

/-! ## Packets -/

theorem RtpPacket.getHeaderLength_of_lt (h : p.packet_len < 12) :
    p.getHeaderLength = p.packet_len := if_neg (Nat.not_le.2 h)

theorem RtpPacket.le_getHeaderLength (h : 12 ≤ p.packet_len) : 12 ≤ p.getHeaderLength := by
  rw [getHeaderLength, if_pos h]
  omega

theorem RtpPacket.getPayloadLength_eq : p.getPayloadLength = p.packet_len - p.getHeaderLength := by
  rcases Nat.lt_or_ge p.packet_len 12 with h | h
  · rw [getPayloadLength, if_neg (Nat.not_le.2 h), getHeaderLength_of_lt h]
    omega
  · exact if_pos h

/-- What lies behind the fixed header is the payload: the packet is broken, or its CSRC list
    fits and the bytes behind the fixed header repeat at its distance (which they do
    when the list is empty). -/
def RtpPacket.Plain (p : RtpPacket) : Prop :=
  p.packet_len < 12 ∨ p.getHeaderLength ≤ p.packet_len ∧
    ∀ i < p.packet_len - p.getHeaderLength, p.byte (12 + i) = p.byte (p.getHeaderLength + i)

/-- Packets without CSRC entries are plain. -/
theorem RtpPacket.plain_of_cscrCount (h : p.getCscrCount = 0) : p.Plain := by
  rcases Nat.lt_or_ge p.packet_len 12 with hl | hl
  · exact Or.inl hl
  · have hh : p.getHeaderLength = 12 := by
      rw [getHeaderLength, if_pos hl, h]
    refine Or.inr ⟨hh ▸ hl, ?_⟩
    intro i _
    rw [hh]

/-- Two parts of a list are equal when their elements are. -/
theorem take_drop_eq_iff {l : List UInt8} {a b n : ℕ} (ha : a + n ≤ l.length)
    (hb : b + n ≤ l.length) :
    (l.drop a).take n = (l.drop b).take n ↔ ∀ i < n, l.getD (a + i) 0 = l.getD (b + i) 0 := by
  constructor
  · intro h i hi
    have he := congrArg (fun l : List UInt8 => l.getD i 0) h
    simpa [List.getD_eq_getElem?_getD, List.getElem?_take, hi] using he
  · intro h
    refine List.ext_getElem (by simp; omega) ?_
    intro i h₁ h₂
    have hi : i < n := by
      simp only [List.length_take, List.length_drop] at h₁
      omega
    have he := h i hi
    rw [List.getD_eq_getElem?_getD, List.getD_eq_getElem?_getD,
      List.getElem?_eq_getElem (by omega), List.getElem?_eq_getElem (by omega)] at he
    simpa using he

/-! ## The handover -/

/-- The loop goes on, and a step that puts a packet leaves just its payload in the mailbox of
    the decoder. -/
structure HandsPayload (st : Machine.Step (Player σ) PlayerInput) : Prop where
  goesOn : st.post.pc ≠ .ended
  payload : st.pre.pc = .putting → st.post.pc = .polling →
    st.pre.rtp_packet.getPayload = some st.post.decoder.mailbox

/-- A packet that the step hands over is plain. -/
def HandsPlain (st : Machine.Step (Player σ) PlayerInput) : Prop :=
  st.pre.pc = .putting → st.input = .player → st.pre.rtp_packet.Plain

namespace Player

/-- `putData` refuses exactly a negative length. -/
theorem Inv.putData_iff (hs : s.Inv) : (∃ d, s.decoder.putData s.rtp_packet.packet 12
    s.rtp_packet.getPayloadLength = .ok d) ↔ s.rtp_packet.getHeaderLength ≤ s.rtp_packet.packet_len := by
  have hlen := @RtpPacket.getPayloadLength_eq s.rtp_packet
  constructor
  · rintro ⟨d, hd⟩
    have h₀ := (Decoder.putData_eq_ok hd).1
    omega
  · intro h
    have h₁ := hs.packet
    have h₂ := hs.packet_len
    have h₃ := hs.rawdata
    have hfit : s.rtp_packet.getPayloadLength ≤ 320 := by
      rcases Nat.lt_or_ge s.rtp_packet.packet_len 12 with hl | hl
      · rw [hlen, RtpPacket.getHeaderLength_of_lt hl]
        omega
      · have := RtpPacket.le_getHeaderLength hl
        omega
    obtain ⟨rawdata, hr, -⟩ := @arraycopy_of_le _ s.rtp_packet.packet s.decoder.rawdata 12 0
      s.rtp_packet.getPayloadLength (by omega) (by omega) (by omega) (by omega) (by omega)
    exact ⟨_, by rw [Decoder.putData, hr]; rfl⟩

/-- The bytes handed over are the payload exactly when the packet is plain. -/
theorem Inv.getPayload_iff (hs : s.Inv)
    (h : s.rtp_packet.getHeaderLength ≤ s.rtp_packet.packet_len) :
    s.rtp_packet.getPayload = some s.handed ↔ s.rtp_packet.Plain := by
  have hlen : s.rtp_packet.getPayloadLength.toNat =
      s.rtp_packet.packet_len - s.rtp_packet.getHeaderLength := by
    rw [RtpPacket.getPayloadLength_eq]
    omega
  rw [RtpPacket.getPayload, if_neg (by omega), Option.some.injEq, handed, hlen]
  rcases Nat.lt_or_ge s.rtp_packet.packet_len 12 with hl | hl
  · have hz : s.rtp_packet.packet_len - s.rtp_packet.getHeaderLength = 0 := by
      rw [RtpPacket.getHeaderLength_of_lt hl]
      omega
    rw [hz, List.take_zero, List.take_zero]
    exact iff_of_true rfl (Or.inl hl)
  · have h₁ := hs.packet
    have h₂ := hs.packet_len
    have h₃ := RtpPacket.le_getHeaderLength hl
    rw [eq_comm, take_drop_eq_iff (by omega) (by omega), RtpPacket.Plain]
    constructor
    · intro hb
      exact Or.inr ⟨h, hb⟩
    · rintro (hb | ⟨-, hb⟩)
      · omega
      · exact hb

theorem Inv.handsPayload_iff (hs : s.Inv) (hn : s.pc ≠ .ended) (i : PlayerInput) :
    HandsPayload ((player decode).stepOf s i) ↔ HandsPlain ((player decode).stepOf s i) := by
  have hm : s.Moves i (s.step decode i) := hs.moves i
  unfold Machine.stepOf player
  dsimp only
  generalize s.step decode i = s' at hm
  -- only the two outcomes of `putData` start where a packet is put
  have elsewhere : s'.pc ≠ .ended → (s.pc = .putting → i ≠ .player ∧ s'.pc ≠ .polling) →
      (HandsPayload ⟨s, i, s'⟩ ↔ HandsPlain ⟨s, i, s'⟩) := fun hgo hpc =>
    iff_of_true ⟨hgo, fun hp hq => absurd hq (hpc hp).2⟩ fun hp hi => absurd hi (hpc hp).1
  cases hm with
  | same i hi =>
    refine elsewhere hn fun hp => ⟨fun hi' => ?_, by simp [hp]⟩
    rcases hi hi' with h | h <;> simp [hp] at h
  | received datagram hpc =>
    refine elsewhere ?_ fun hp => by simp [hpc] at hp
    rcases s.received_pc datagram with h | h
    · exact h ▸ hn
    · simp [h]
  | tested hpc =>
    refine elsewhere ?_ fun hp => by simp [hpc] at hp
    simp only
    split_ifs <;> simp
  | handed d hpc hd =>
    have hle := hs.putData_iff.1 ⟨d, hd⟩
    have hmail : d.mailbox = s.handed := Decoder.putData_mailbox hd
    have hiff := hs.getPayload_iff hle
    rw [← hmail] at hiff
    constructor
    · intro h _ _
      exact hiff.1 (h.payload hpc rfl)
    · intro h
      exact ⟨by simp, fun _ _ => hiff.2 (h hpc rfl)⟩
  | refused e hpc he =>
    refine iff_of_false (fun h => h.goesOn rfl) ?_
    intro h
    have hle : s.rtp_packet.getHeaderLength ≤ s.rtp_packet.packet_len := by
      rcases h hpc rfl with hl | ⟨hl, -⟩
      · exact (RtpPacket.getHeaderLength_of_lt hl).le
      · exact hl
    obtain ⟨d, hd⟩ := hs.putData_iff.2 hle
    simp [hd] at he
  | polled hpc =>
    refine elsewhere ?_ fun hp => by simp [hpc] at hp
    simp only
    split_ifs <;> simp
  | took r q hpc => exact elsewhere (by simp) fun hp => by simp [hpc] at hp
  | decoder d => exact elsewhere hn fun hp => ⟨by simp, by simp [hp]⟩

end Player

/-- **Payloads.**  In exactly the runs in which every packet handed over is plain, the mailbox of
    the decoder gets the payload of each packet and no exception leaves the loop. -/
theorem handsPayload_along_iff {s₀ : Player σ} (h₀ : (player decode).init s₀)
    (is : List PlayerInput) : (player decode).Along s₀ is (fun _ => HandsPayload) ↔
      (player decode).Along s₀ is (fun _ => HandsPlain) := by
  refine (player decode).along_iff (I := fun _ s => s.Inv ∧ s.pc ≠ .ended) ?_ ?_ ?_ is
  · refine ⟨Player.inv_init h₀, ?_⟩
    obtain ⟨packet, codec, num_recv, m_ec, -, -, rfl⟩ := h₀
    simp [Player.start]
  · rintro _ s i ⟨hs, hn⟩ hc
    exact ⟨hs.step i, ((hs.handsPayload_iff hn i).2 hc).goesOn⟩
  · rintro _ s i ⟨hs, hn⟩
    exact hs.handsPayload_iff hn i

namespace Trace

/-- A u-law call before its first packet. -/
def listening : Player (Natives Unit Unit) := Player.start ⟨List.replicate 332 0, 332⟩ decoder

theorem listening_init : (player (Codec.decode silent 0)).init listening :=
  ⟨_, _, _, _, List.length_replicate, le_rfl, rfl⟩

/-- A packet with a CSRC count, sequence number 1, and what follows the fixed header. -/
def packet (count : UInt8) (bytes : List UInt8) : List UInt8 :=
  [0x80 + count, 0, 0, 1, 0, 0, 0, 0, 0, 0, 0, 0] ++ bytes

/-- The packet comes and is handed to the decoder. -/
def handover (datagram : List UInt8) : List PlayerInput := [.receive (some datagram), .player, .player]

end Trace

/-- A packet with two payload bytes and no CSRC list. -/
theorem handsPayload_along_packet : (player (Codec.decode Trace.silent 0)).Along Trace.listening
    (Trace.handover (Trace.packet 0 [7, 9])) (fun _ => HandsPayload) := by
  rw [handsPayload_along_iff Trace.listening_init, Trace.handover, Machine.along_cons,
    Machine.along_cons, Machine.along_cons]
  refine ⟨?_, ?_, ?_, Machine.along_nil _ _ _⟩
  · exact fun h => (nomatch h)
  · intro h
    exact absurd h (by decide +kernel)
  · intro _ _
    exact RtpPacket.plain_of_cscrCount (by decide +kernel)

/-- With one CSRC entry the decoder gets that and not the payload. -/
theorem csrc_handed_as_payload : ¬ ∀ s₀, (player (Codec.decode Trace.silent 0)).init s₀ → ∀ is,
    (player (Codec.decode Trace.silent 0)).Along s₀ is fun _ => HandsPayload := by
  intro h
  have hrun := h _ Trace.listening_init
    ([.receive (some (Trace.packet 1 [1, 2, 3, 4, 5, 6])), .player] ++ [.player])
  have hp := ((Machine.along_snoc _).1 hrun).2.payload (by decide +kernel) (by decide +kernel)
  revert hp
  decide +kernel

end JaySip
