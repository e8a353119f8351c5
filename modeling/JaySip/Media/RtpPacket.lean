/-
  `RtpPacket` and `RtpSocket.receive`, as far as the player reads packets and the recorder
  writes them.
-/
import JaySip.Java.Array
import Mathlib.Tactic.Ring

namespace JaySip

open Java

/-- The fields of `RtpPacket`: the buffer, and how much of it the packet takes. -/
structure RtpPacket where
  packet : List UInt8
  packet_len : ℕ
  deriving DecidableEq, Repr

namespace RtpPacket

variable (p : RtpPacket)

/-- Byte `i` of the buffer. -/
def byte (i : ℕ) : UInt8 := p.packet.getD i 0

def getCscrCount : ℕ := if 12 ≤ p.packet_len then (p.byte 0 &&& 0x0F).toNat else 0

/-- `getHeaderLength`; a broken packet is all header. -/
def getHeaderLength : ℕ := if 12 ≤ p.packet_len then 12 + 4 * p.getCscrCount else p.packet_len

def getPayloadLength : ℤ := if 12 ≤ p.packet_len then p.packet_len - p.getHeaderLength else 0

/-- `getLong`, on the bytes from `begin` to before `end_`. -/
def getLong (begin end_ : ℕ) : ℕ :=
  ((List.range' begin (end_ - begin)).map p.byte).foldl (fun n b => n * 256 + b.toNat) 0

def getSequenceNumber : ℕ := if 12 ≤ p.packet_len then p.getLong 2 4 else 0

/-- `getPayload`; the array cannot have a negative length (`none`). -/
def getPayload : Option (List UInt8) :=
  if (p.packet_len : ℤ) - p.getHeaderLength < 0 then none
  else some ((p.packet.drop p.getHeaderLength).take (p.packet_len - p.getHeaderLength))

/-- `RtpSocket.receive`: a datagram takes the front of the buffer, which cuts a longer one. -/
def receive (datagram : List UInt8) : RtpPacket where
  packet := datagram.take p.packet.length ++ p.packet.drop datagram.length
  packet_len := min datagram.length p.packet.length

theorem receive_length (datagram : List UInt8) :
    (p.receive datagram).packet.length = p.packet.length := by
  simp only [receive, List.length_append, List.length_take, List.length_drop]
  omega

theorem receive_packet_len (datagram : List UInt8) :
    (p.receive datagram).packet_len ≤ (p.receive datagram).packet.length := by
  rw [receive_length]
  exact min_le_right _ _

/-! ## Writing -/

/-- `setLong(n, data, begin, begin + count)`. -/
def setLong (n : ℤ) (data : List UInt8) (begin : ℕ) : ℕ → List UInt8
  | 0 => data
  | count + 1 =>
    setLong (n >>> (8 : ℕ)) (data.set (begin + count) (UInt8.ofInt (n.tmod 256))) begin count

/-- `setPayloadLength`. -/
def setPayloadLength (len : ℕ) : RtpPacket := { p with packet_len := p.getHeaderLength + len }

def setSequenceNumber (sn : ℤ) : RtpPacket :=
  if 12 ≤ p.packet_len then { p with packet := setLong sn p.packet 2 2 } else p

def getTimestamp : ℕ := if 12 ≤ p.packet_len then p.getLong 4 8 else 0

def setTimestamp (timestamp : ℤ) : RtpPacket :=
  if 12 ≤ p.packet_len then { p with packet := setLong timestamp p.packet 4 4 } else p

@[simp] theorem length_setLong (n : ℤ) (data : List UInt8) (begin count : ℕ) :
    (setLong n data begin count).length = data.length := by
  induction count generalizing n data with
  | zero => rfl
  | succ count ih => rw [setLong, ih, List.length_set]

/-- A byte outside the range stays. -/
theorem getD_setLong {n : ℤ} {data : List UInt8} {begin count i : ℕ}
    (h : i < begin ∨ begin + count ≤ i) :
    (setLong n data begin count).getD i 0 = data.getD i 0 := by
  induction count generalizing n data with
  | zero => rfl
  | succ count ih =>
    rw [setLong, ih (by omega), List.getD_eq_getElem?_getD, List.getD_eq_getElem?_getD,
      List.getElem?_set_ne (by omega)]

/-- The byte that `(byte) (n % 256)` is. -/
theorem toNat_ofInt_tmod (n : ℤ) : (UInt8.ofInt (n.tmod 256)).toNat = (n % 256).toNat := by
  have h : n.tmod 256 % 2 ^ 8 = n % 256 := by
    rw [Int.tmod_def]
    omega
  rw [UInt8.ofInt, h, UInt8.toNat_ofNat']
  omega

/-- The lowest byte and the bytes above it. -/
theorem emod_bytes (n : ℤ) (count : ℕ) :
    n % (256 : ℤ) ^ (count + 1) = (n >>> (8 : ℕ)) % (256 : ℤ) ^ count * 256 + n % 256 := by
  have hm : (0 : ℤ) < 256 ^ count := Int.pow_pos (by decide)
  have hq : n >>> (8 : ℕ) = n / 256 := Int.shiftRight_eq_div_pow n 8
  rw [hq]
  have hn : n = 256 * (256 ^ count * (n / 256 / 256 ^ count) + n / 256 % 256 ^ count) +
      n % 256 := by
    rw [Int.mul_ediv_add_emod, Int.mul_ediv_add_emod]
  have hr := Int.emod_lt_of_pos (n / 256) hm
  have hr₀ := Int.emod_nonneg (n / 256) hm.ne'
  generalize n / 256 / 256 ^ count = q at hn
  generalize n / 256 % 256 ^ count = r at hn hr hr₀ ⊢
  have hlow : 0 ≤ n % 256 ∧ n % 256 < 256 := by omega
  generalize n % 256 = l at hn hlow ⊢
  have hsplit : n = r * 256 + l + 256 ^ (count + 1) * q := by
    rw [hn]
    ring
  rw [hsplit, Int.add_mul_emod_self_left]
  refine Int.emod_eq_of_lt (by omega) ?_
  rw [pow_succ]
  omega

theorem getLong_succ (begin count : ℕ) :
    p.getLong begin (begin + (count + 1)) =
      p.getLong begin (begin + count) * 256 + (p.byte (begin + count)).toNat := by
  unfold getLong
  rw [Nat.add_sub_cancel_left, Nat.add_sub_cancel_left, List.range'_concat, List.map_append,
    List.foldl_append]
  simp

/-- `getLong` reads what `setLong` has written. -/
theorem getLong_setLong {n : ℤ} {data : List UInt8} {p : RtpPacket} (begin count : ℕ)
    (hp : p.packet = setLong n data begin count) (h : begin + count ≤ data.length) :
    p.getLong begin (begin + count) = (n % (256 : ℤ) ^ count).toNat := by
  induction count generalizing n data with
  | zero => simp [getLong]
  | succ count ih =>
    have hlow : (p.byte (begin + count)).toNat = (n % 256).toNat := by
      rw [byte, hp, setLong, getD_setLong (.inr le_rfl), List.getD_eq_getElem?_getD,
        List.getElem?_set_self (by omega), Option.getD_some, toNat_ofInt_tmod]
    rw [getLong_succ, hlow, emod_bytes, ih hp (by rw [List.length_set]; omega)]
    have hhigh := Int.emod_nonneg (n >>> (8 : ℕ))
      (pow_ne_zero count (show (256 : ℤ) ≠ 0 by decide))
    omega

/-- Bytes that agree are read as the same number. -/
theorem getLong_congr {p q : RtpPacket} (begin count : ℕ)
    (h : ∀ i, begin ≤ i → i < begin + count → p.byte i = q.byte i) :
    p.getLong begin (begin + count) = q.getLong begin (begin + count) := by
  unfold getLong
  rw [Nat.add_sub_cancel_left]
  refine congrArg _ (List.map_congr_left fun i hi => ?_)
  rw [List.mem_range'_1] at hi
  exact h i hi.1 hi.2

end RtpPacket

/-- A packet with room for its header, as `new RtpPacket(buffer, 0)` is one. -/
def HeadedPacket := { p : RtpPacket // 12 ≤ p.packet_len ∧ 12 ≤ p.packet.length }

namespace HeadedPacket

variable (p : HeadedPacket)

def setPayloadLength (len : ℕ) : HeadedPacket :=
  ⟨p.1.setPayloadLength len, by
    have := p.2.1
    simp only [RtpPacket.setPayloadLength, RtpPacket.getHeaderLength, if_pos this]
    omega, p.2.2⟩

def setSequenceNumber (sn : ℤ) : HeadedPacket :=
  ⟨p.1.setSequenceNumber sn, by
    rw [RtpPacket.setSequenceNumber, if_pos p.2.1]
    exact ⟨p.2.1, (RtpPacket.length_setLong ..).symm ▸ p.2.2⟩⟩

def setTimestamp (timestamp : ℤ) : HeadedPacket :=
  ⟨p.1.setTimestamp timestamp, by
    rw [RtpPacket.setTimestamp, if_pos p.2.1]
    exact ⟨p.2.1, (RtpPacket.length_setLong ..).symm ▸ p.2.2⟩⟩

theorem setSequenceNumber_packet (sn : ℤ) :
    (p.setSequenceNumber sn).1.packet = RtpPacket.setLong sn p.1.packet 2 2 := by
  show (p.1.setSequenceNumber sn).packet = _
  rw [RtpPacket.setSequenceNumber, if_pos p.2.1]

theorem setTimestamp_packet (timestamp : ℤ) :
    (p.setTimestamp timestamp).1.packet = RtpPacket.setLong timestamp p.1.packet 4 4 := by
  show (p.1.setTimestamp timestamp).packet = _
  rw [RtpPacket.setTimestamp, if_pos p.2.1]

theorem getSequenceNumber_eq : p.1.getSequenceNumber = p.1.getLong 2 (2 + 2) := if_pos p.2.1

theorem getTimestamp_eq : p.1.getTimestamp = p.1.getLong 4 (4 + 4) := if_pos p.2.1

theorem getSequenceNumber_setSequenceNumber (sn : ℤ) :
    (p.setSequenceNumber sn).1.getSequenceNumber = (sn % 2 ^ 16).toNat := by
  have hlen := p.2.2
  rw [getSequenceNumber_eq]
  exact RtpPacket.getLong_setLong 2 2 (p.setSequenceNumber_packet sn) (by omega)

theorem getTimestamp_setTimestamp (timestamp : ℤ) :
    (p.setTimestamp timestamp).1.getTimestamp = (timestamp % 2 ^ 32).toNat := by
  have hlen := p.2.2
  rw [getTimestamp_eq]
  exact RtpPacket.getLong_setLong 4 4 (p.setTimestamp_packet timestamp) (by omega)

/-- The timestamp leaves the sequence number. -/
theorem getSequenceNumber_setTimestamp (timestamp : ℤ) :
    (p.setTimestamp timestamp).1.getSequenceNumber = p.1.getSequenceNumber := by
  rw [getSequenceNumber_eq, getSequenceNumber_eq]
  refine RtpPacket.getLong_congr 2 2 fun i hi hlt => ?_
  rw [RtpPacket.byte, setTimestamp_packet]
  exact RtpPacket.getD_setLong (.inl (by omega))

end HeadedPacket

end JaySip
