/-
  `LanAudioPlay.run`: the receive loop of the player, and the player and the decoder
  thread as one machine.

  Each step is one access to what the two threads share: the test whether the decoder
  is idle, `putData`, the test for a decoded array, and `getData` with the copy.  The
  statistics of `lostandgood` are a machine of their own.
-/
import JaySip.Machine
import JaySip.Media.Decoder
import JaySip.Media.RtpPacket

namespace JaySip

open Java

/-- Where the player thread is: it receives, it is about to test whether the decoder is
    idle, to put the packet, to test for an array, or to take one; or an exception has
    left the loop. -/
inductive PlayerPc where
  | receiving | testing | putting | polling | taking | ended
  deriving DecidableEq, Repr

/-- An array that the player has copied, and the packet it was decoded from. -/
structure Played where
  samples : List ℤ
  source : ℕ
  deriving DecidableEq, Repr

/-- The player and the decoder.  `put` holds the payloads handed to the decoder, and `track`
    what was written to the audio track, both oldest first. -/
structure Player (σ : Type) where
  rtp_packet : RtpPacket
  currentseq : ℕ
  pc : PlayerPc
  decoder : Decoder σ
  put : List (List UInt8)
  track : List Played

/-- What can happen: a datagram arrives or the receive fails (`none`), or a thread takes
    its next step. -/
inductive PlayerInput where
  | receive (datagram : Option (List UInt8))
  | player
  | decoder
  deriving DecidableEq, Repr

namespace Player

variable {σ : Type} (s : Player σ)

/-- The loop when the packets that were waiting have been thrown away: the buffer holds
    the last of them. -/
def start (rtp_packet : RtpPacket) (decoder : Decoder σ) : Player σ where
  rtp_packet := rtp_packet
  currentseq := 0
  pc := .receiving
  decoder := decoder
  put := []
  track := []

/-- The top of the loop: the same packet again starts the next turn. -/
def received (datagram : Option (List UInt8)) : Player σ :=
  let packet := match datagram with
    | some d => s.rtp_packet.receive d
    | none => s.rtp_packet
  let gseq := packet.getSequenceNumber
  if s.currentseq = gseq then { s with rtp_packet := packet }
  else { s with rtp_packet := packet, currentseq := gseq, pc := .testing }

/-- The bytes that `putData(buffer, Rtphead, getPayloadLength())` copies. -/
def handed : List UInt8 :=
  (s.rtp_packet.packet.drop 12).take s.rtp_packet.getPayloadLength.toNat

/-- `decoder.putData(buffer, Rtphead, rtp_packet.getPayloadLength())`. -/
def putData : Player σ :=
  match s.decoder.putData s.rtp_packet.packet 12 s.rtp_packet.getPayloadLength with
  | .ok d => { s with decoder := d, put := s.put ++ [s.handed], pc := .polling }
  | .error _ => { s with pc := .ended }

/-- `decoder.getData().clone()`, and the write to the track. -/
def getData : Player σ :=
  match s.decoder.getData with
  | some (r, d) =>
    { s with decoder := d, track := s.track ++ [⟨d.deref r, d.source⟩], pc := .receiving }
  | none => { s with pc := .ended }

/-- The next step of the player thread; `putData` waits for the mutex. -/
def playerStep : Player σ :=
  match s.pc with
  | .receiving => s
  | .testing => { s with pc := if s.decoder.isIdle then .putting else .polling }
  | .putting => if s.decoder.holdsMutex then s else s.putData
  | .polling => { s with pc := if s.decoder.isGetData then .taking else .receiving }
  | .taking => s.getData
  | .ended => s

def step (decode : Decode σ) : PlayerInput → Player σ
  | .receive datagram => if s.pc = .receiving then s.received datagram else s
  | .player => s.playerStep
  | .decoder => { s with decoder := s.decoder.step decode }

end Player

/-- Calls that start with a fresh decoder. -/
def player {σ : Type} (decode : Decode σ) : Machine (Player σ) PlayerInput where
  init s := ∃ packet codec num_recv m_ec, packet.packet.length = 332 ∧
    packet.packet_len ≤ 332 ∧ s = Player.start packet (Decoder.create codec num_recv m_ec)
  step s i := s.step decode i

end JaySip
