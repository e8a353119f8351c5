/-
  `LanAudioRecord.run`: the ring buffer and the send loop of the recorder, and the recorder,
  the encoder and the canceller thread as one machine.

  The samples are of any type, so that the machine also runs on marks of samples.
-/
import JaySip.Java.Array
import JaySip.Media.Encoder
import JaySip.Media.RtpPacket

namespace JaySip

/-- The samples of one frame (`mFrameSize`). -/
abbrev Samples (α : Type) := Fin 160 → α

/-- What the threads compute: `calc2` on one sample, and the codec and the canceller on
    frames. -/
structure Sound (α β σ ε : Type) extends Codecs (Samples α) β σ ε where
  calc2 : α → α

/-- The body of the loop of `calc2`. -/
def calc2 (j : ℤ) : ℤ :=
  if j > 16350 then 16350 * 2 else if j < -16350 then -16350 * 2 else j * 2

/-- Where the recorder thread is: it reads from the microphone, is about to test whether the
    encoder is idle, to put a frame, to look at the mute flag, to test for an encoded frame,
    or to take and send one. -/
inductive RecorderPc where
  | reading | testing | putting | muting | polling | sending
  deriving DecidableEq, Repr

/-- A packet: its numbers, and its payload. -/
structure Packet (β : Type) where
  sequenceNumber : BitVec 32
  timestamp : BitVec 64
  payload : β
  deriving DecidableEq, Repr

/-- What `run` writes over the header in its buffer, for a payload of `len` bytes. -/
def Packet.fill {β : Type} (q : Packet β) (len : ℕ) (rtp_packet : HeadedPacket) : HeadedPacket :=
  ((rtp_packet.setPayloadLength len).setSequenceNumber q.sequenceNumber.toInt).setTimestamp
    q.timestamp.toInt

/-- The arguments of the constructor that `run` depends on. -/
structure RecorderArgs where
  codectype : ℤ
  SampleRate : ℕ
  deriving DecidableEq, Repr

namespace RecorderArgs

variable (a : RecorderArgs)

def mFrameRate : ℕ := a.SampleRate / 160

/-- The length of `Audio_in`. -/
def ringSize : ℕ := 160 * (a.mFrameRate + 1)

/-- What `time` grows by. -/
def timeStep : BitVec 64 := if a.codectype = 9 then 80 else 160

end RecorderArgs

/-- The fields of `LanAudioRecord` and the local variables of `run`. -/
structure Recorder (α : Type) where
  Audio_in : ℕ → α
  readpos : ℕ
  writepos : ℕ
  muteflag : Bool
  seqn : BitVec 32
  time : BitVec 64
  pc : RecorderPc

namespace Recorder

variable {α : Type} (r : Recorder α)

/-- `m_in_rec.read(Audio_in, writepos, mFrameSize)`, which has read `count` samples, and
    `calc2(Audio_in, writepos, mFrameSize)` on the whole frame. -/
def capture (double : α → α) (ringSize count : ℕ) (x : ℕ → α) : Recorder α where
  Audio_in i :=
    if r.writepos ≤ i ∧ i < r.writepos + 160 then
      double (if i < r.writepos + count then x (i - r.writepos) else r.Audio_in i)
    else r.Audio_in i
  readpos := r.readpos
  writepos := (r.writepos + 160) % ringSize
  muteflag := r.muteflag
  seqn := r.seqn
  time := r.time
  pc := .testing

/-- The frame at `readpos`. -/
def frame : Samples α := fun i => r.Audio_in (r.readpos + i)

end Recorder

/-- The recorder, the encoder and the canceller.  `sent` holds the packets sent, oldest first. -/
structure Sender (α β σ ε : Type) where
  recorder : Recorder α
  coder : Coder (Samples α) β σ ε
  sent : List (Packet β)

/-- What can happen: `mute` and `demute`, a read returns, the recorder takes another step (and
    the socket throws if it sends), the encoder or the canceller takes one, or the decoder
    has decoded a frame. -/
inductive SenderInput (α : Type) where
  | mute
  | demute
  | read (count : Fin 161) (x : ℕ → α)
  | recorder (throws : Bool)
  | encoder
  | canceller
  | decoded (samples : Samples α)

namespace Sender

variable {α β σ ε : Type} (a : RecorderArgs) (p : Sound α β σ ε) (s : Sender α β σ ε)

def mute : Sender α β σ ε := { s with recorder := { s.recorder with muteflag := true } }

def demute : Sender α β σ ε := { s with recorder := { s.recorder with muteflag := false } }

/-- The top of the loop; a read that gets nothing starts the next turn. -/
def read (count : Fin 161) (x : ℕ → α) : Sender α β σ ε :=
  if s.recorder.pc = .reading ∧ count ≠ 0 then
    { s with recorder := s.recorder.capture p.calc2 a.ringSize count x }
  else s

/-- `encoder.putData(...)`, and the next `readpos`. -/
def put : Sender α β σ ε :=
  { s with
    coder := s.coder.putData s.recorder.frame
    recorder := { s.recorder with
      readpos := (s.recorder.readpos + 160) % a.ringSize, pc := .muting } }

/-- `encoder.getData()`, and the packet that is sent with it.  The sequence number counts a
    packet that the socket refuses, the time does not. -/
def send (throws : Bool) : Sender α β σ ε :=
  match s.coder.encoder.getData with
  | none => s
  | some (b, e) =>
    if throws then
      { s with
        coder := { s.coder with encoder := e }
        recorder := { s.recorder with seqn := s.recorder.seqn + 1, pc := .reading } }
    else
      { coder := { s.coder with encoder := e }
        recorder := { s.recorder with
          seqn := s.recorder.seqn + 1, time := s.recorder.time + a.timeStep, pc := .reading }
        sent := s.sent ++ [⟨s.recorder.seqn, s.recorder.time, b⟩] }

/-- The next step of the recorder behind the read; `putData` waits for the mutex. -/
def recorderStep (throws : Bool) : Sender α β σ ε :=
  match s.recorder.pc with
  | .reading => s
  | .testing => { s with recorder := { s.recorder with
      pc := if s.coder.encoder.isIdle then .putting else .muting } }
  | .putting => if s.coder.encoder.holdsMutex then s else s.put a
  | .muting => { s with recorder := { s.recorder with
      pc := if s.recorder.muteflag then .reading else .polling } }
  | .polling => { s with recorder := { s.recorder with
      pc := if s.coder.encoder.isGetData then .sending else .reading } }
  | .sending => s.send a throws

def step : SenderInput α → Sender α β σ ε
  | .mute => s.mute
  | .demute => s.demute
  | .read count x => s.read a p count x
  | .recorder throws => s.recorderStep a throws
  | .encoder => { s with coder := s.coder.encoderStep p.toCodecs }
  | .canceller => { s with coder := { s.coder with m_ec := s.coder.m_ec.map (·.step p.toCodecs) } }
  | .decoded samples => { s with coder := s.coder.decoded samples }

/-- A call before its first read; `readpos`, `writepos` and `muteflag` are those of the calls
    before. -/
def start (silence : α) (readpos writepos : ℕ) (muteflag : Bool) (codec : σ)
    (num_send num_recv : ℕ) (m_ec : Option (EchoCancellation (Samples α) ε)) :
    Sender α β σ ε where
  recorder := ⟨fun _ => silence, readpos, writepos, muteflag, 0, 0, .reading⟩
  coder := Coder.start codec (fun _ => silence) num_send num_recv m_ec
  sent := []

end Sender

/-- The recorder, the encoder and the canceller thread. -/
def sender {α β σ ε : Type} (a : RecorderArgs) (p : Sound α β σ ε) :
    Machine (Sender α β σ ε) (SenderInput α) where
  init s := ∃ silence readpos writepos muteflag codec num_send num_recv m_ec,
    s = Sender.start silence readpos writepos muteflag codec num_send num_recv m_ec
  step s i := s.step a p i

end JaySip
