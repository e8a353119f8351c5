/-
  `EchoCancellation`: its queues, `putData`, and the turn of its thread.
-/
import Mathlib.Data.PNat.Basic
import JaySip.Machine

namespace JaySip

/-- A frame of samples on its way from the microphone.  `number` is its place among the frames
    handed to the encoder of this call, and `cancelled` tells a frame that went through the
    canceller: no method reads the two. -/
structure Frame (φ : Type) where
  samples : φ
  number : Option ℕ
  cancelled : Bool
  deriving DecidableEq, Repr

/-- What the codec and the echo canceller compute: the payload of a frame, the frame without
    its echo, and what the canceller learns from a frame that is played. -/
structure Codecs (φ β σ ε : Type) where
  encode : σ → φ → ℕ → σ × β
  echocapture : ε → φ → ε × φ
  echoplayback : ε → φ → ε

/-- The fields of `EchoCancellation`. -/
structure EchoCancellation (φ ε : Type) where
  speex_echo : ε
  CaptureSize : ℕ
  PlaySize : ℕ
  m_cap_q : List (Frame φ)
  m_play_q : List (Frame φ)
  m_out_q : List (Frame φ)

namespace EchoCancellation

variable {φ β σ ε : Type} (p : Codecs φ β σ ε) (ec : EchoCancellation φ ε)

/-- `new EchoCancellation()`. -/
def create (speex_echo : ε) : EchoCancellation φ ε := ⟨speex_echo, 0, 0, [], [], []⟩

def isIdle : Bool := ec.CaptureSize = 0 ∧ ec.PlaySize = 0

def setIdle : EchoCancellation φ ε := { ec with CaptureSize := 0, PlaySize := 0 }

/-- `putData(type, data, size)`; `true` is a captured frame. -/
def putData (type : Bool) (data : Frame φ) (size : ℕ) : EchoCancellation φ ε :=
  if type then { ec with m_cap_q := ec.m_cap_q ++ [data], CaptureSize := size }
  else { ec with m_play_q := ec.m_play_q ++ [data], PlaySize := size }

/-- The overload of `putData` for bytes: `data` is the frame that they make. -/
def putBytes (type : Bool) (data : Frame φ) (size : ℕ) : EchoCancellation φ ε :=
  ec.putData type data (size / 2)

/-- `m_out_q.removeFirst()`, of `getshortData` and `getbyteData`. -/
def getData : EchoCancellation φ ε := { ec with m_out_q := ec.m_out_q.tail }

/-- `m_out_q.add(echo_capture(m_cap_q.removeFirst()))`, when a frame was captured. -/
def capture : EchoCancellation φ ε :=
  if ec.CaptureSize = 0 then ec
  else
    match ec.m_cap_q with
    | [] => ec
    | f :: q =>
      let r := p.echocapture ec.speex_echo f.samples
      { ec with
        speex_echo := r.1
        m_cap_q := q
        m_out_q := ec.m_out_q ++ [⟨r.2, f.number, true⟩] }

/-- `echo_playback(m_play_q.removeFirst())`, when a frame is played. -/
def playback : EchoCancellation φ ε :=
  if ec.PlaySize = 0 then ec
  else
    match ec.m_play_q with
    | [] => ec
    | f :: q => { ec with speex_echo := p.echoplayback ec.speex_echo f.samples, m_play_q := q }

/-- A turn of `run`, which holds the mutex. -/
def step : EchoCancellation φ ε :=
  if ec.isIdle then ec else ((ec.capture p).playback p).setIdle

/-! ## The machine -/

/-- What can happen to the canceller: frames of a positive size are put, a frame is taken out,
    or its thread has its turn. -/
inductive Input (φ : Type) where
  | putData (type : Bool) (data : Frame φ) (size : ℕ+)
  | putBytes (type : Bool) (data : Frame φ) (size : ℕ+)
  | getData
  | run

/-- The canceller under its mutex. -/
def canceller : Machine (EchoCancellation φ ε) (Input φ) where
  init ec := ∃ speex_echo, ec = create speex_echo
  step
    | ec, .putData type data size => ec.putData type data size
    | ec, .putBytes type data size => ec.putBytes type data size
    | ec, .getData => ec.getData
    | ec, .run => ec.step p

end EchoCancellation

end JaySip
