/-
  `Encoder`: the mailbox, the queue of encoded frames, and the encoder and the canceller
  thread as one machine.

  A step of the encoder thread is one access to what it shares with the recorder or with
  the canceller.
-/
import JaySip.Machine
import JaySip.Media.EchoCancellation

namespace JaySip

/-- Where the encoder thread is: it waits for a frame; or it holds the mutex, before it puts
    the frame into the canceller, before it encodes (and takes a frame from the canceller
    before that, if it has put one in), before `m_in_q.add`, or before `setIdle`. -/
inductive EncoderPc (β : Type) where
  | waiting
  | cancelling
  | encoding (polls : Bool)
  | adding (tempdata : β)
  | idling
  deriving DecidableEq, Repr

/-- The fields of `Encoder`, and the counter `num_send`. -/
structure Encoder (φ β σ : Type) where
  codec : σ
  leftSize : ℕ
  rawdata : Frame φ
  output : Frame φ
  m_in_q : List β
  num_send : ℕ
  pc : EncoderPc β

namespace Encoder

variable {φ β σ : Type} (e : Encoder φ β σ)

/-- `new Encoder(codeccode)`. -/
def create (codec : σ) (silence : φ) (num_send : ℕ) : Encoder φ β σ :=
  ⟨codec, 0, ⟨silence, none, false⟩, ⟨silence, none, false⟩, [], num_send, .waiting⟩

def isIdle : Bool := e.leftSize = 0

def isGetData : Bool := ¬ e.m_in_q.length = 0

/-- The thread is inside its second `synchronized` block. -/
def holdsMutex : Bool :=
  match e.pc with
  | .waiting => false
  | _ => true

/-- `putData`. -/
def putData (data : Frame φ) (size : ℕ) : Encoder φ β σ :=
  { e with rawdata := data, leftSize := size }

/-- `getData`: the payload, and the encoder without it. -/
def getData : Option (β × Encoder φ β σ) :=
  match e.m_in_q with
  | [] => none
  | b :: q => some (b, { e with m_in_q := q })

end Encoder

/-- The encoder, the canceller if there is one, and `Decoder.num_recv`.  `put` holds the frames
    handed to `Encoder.putData`, and `encoded` those handed to `codec.encode`. -/
structure Coder (φ β σ ε : Type) where
  encoder : Encoder φ β σ
  m_ec : Option (EchoCancellation φ ε)
  num_recv : ℕ
  put : List φ
  encoded : List (Frame φ)

/-- What can happen: the recorder puts a frame, a thread takes its next step, or the decoder
    thread has decoded a frame. -/
inductive CoderInput (φ : Type) where
  | putData (samples : φ)
  | encoder
  | canceller
  | decoded (samples : φ)

namespace Coder

variable {φ β σ ε : Type} (p : Codecs φ β σ ε) (s : Coder φ β σ ε)

/-- `encoder.putData(..., mFrameSize)`. -/
def putData (samples : φ) : Coder φ β σ ε :=
  { s with
    encoder := s.encoder.putData ⟨samples, some s.put.length, false⟩ 160
    put := s.put ++ [samples] }

/-- Behind `output=rawdata.clone()`: the frame goes into the canceller when both counters have
    passed. -/
def cancel : Coder φ β σ ε :=
  match s.m_ec with
  | none => { s with encoder := { s.encoder with pc := .encoding false } }
  | some ec =>
    if s.num_recv = 0 then { s with encoder := { s.encoder with pc := .encoding false } }
    else if s.encoder.num_send < 20 then
      { s with encoder := { s.encoder with
          num_send := s.encoder.num_send + 1, pc := .encoding false } }
    else
      { s with
        encoder := { s.encoder with pc := .encoding true }
        m_ec := some (ec.putData true s.encoder.output 160) }

/-- What the encoder finds in the canceller: `output`, unless a frame is ready. -/
def poll (polls : Bool) : Frame φ × Option (EchoCancellation φ ε) :=
  match polls, s.m_ec with
  | true, some ec =>
    match ec.m_out_q with
    | [] => (s.encoder.output, s.m_ec)
    | f :: q => (f, some { ec with m_out_q := q })
  | _, _ => (s.encoder.output, s.m_ec)

/-- `codec.encode(output, 0, processedData, leftSize)`. -/
def encode (polls : Bool) : Coder φ β σ ε :=
  let f := s.poll polls
  let r := p.encode s.encoder.codec f.1.samples s.encoder.leftSize
  { s with
    encoder := { s.encoder with output := f.1, codec := r.1, pc := .adding r.2 }
    m_ec := f.2
    encoded := s.encoded ++ [f.1] }

/-- The next step of the encoder thread. -/
def encoderStep : Coder φ β σ ε :=
  match s.encoder.pc with
  | .waiting =>
    if s.encoder.isIdle then s
    else { s with encoder := { s.encoder with output := s.encoder.rawdata, pc := .cancelling } }
  | .cancelling => s.cancel
  | .encoding polls => s.encode p polls
  | .adding tempdata => { s with encoder := { s.encoder with
      m_in_q := s.encoder.m_in_q ++ [tempdata], pc := .idling } }
  | .idling => { s with encoder := { s.encoder with leftSize := 0, pc := .waiting } }

/-- The decoder thread has decoded a frame: it counts, or plays it to the canceller. -/
def decoded (samples : φ) : Coder φ β σ ε :=
  match s.m_ec with
  | none => s
  | some ec =>
    if s.num_recv < 20 then { s with num_recv := s.num_recv + 1 }
    else { s with m_ec := some (ec.putData false ⟨samples, none, false⟩ 160) }

/-- The recorder puts a frame only when it finds the encoder idle. -/
def step : CoderInput φ → Coder φ β σ ε
  | .putData samples => if s.encoder.isIdle then s.putData samples else s
  | .encoder => s.encoderStep p
  | .canceller => { s with m_ec := s.m_ec.map (·.step p) }
  | .decoded samples => s.decoded samples

/-- A call starts with a new encoder; the canceller is that of the calls before. -/
def start (codec : σ) (silence : φ) (num_send num_recv : ℕ)
    (m_ec : Option (EchoCancellation φ ε)) : Coder φ β σ ε where
  encoder := Encoder.create codec silence num_send
  m_ec := m_ec
  num_recv := num_recv
  put := []
  encoded := []

end Coder

/-- The encoder and the canceller thread.  What is left in the canceller was not handed to
    the encoder of this call. -/
def coder {φ β σ ε : Type} (p : Codecs φ β σ ε) : Machine (Coder φ β σ ε) (CoderInput φ) where
  init s := ∃ codec silence num_send num_recv m_ec,
    s = Coder.start codec silence num_send num_recv m_ec ∧
      ∀ ec, m_ec = some ec → ∀ f ∈ ec.m_out_q ++ ec.m_cap_q, f.number = none
  step s i := s.step p i

end JaySip
