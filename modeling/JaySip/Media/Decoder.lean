/-
  `Decoder`: the mailbox, the queue of decoded arrays, and the turn of the thread that
  decodes.
-/
import JaySip.Media.Codec

namespace JaySip

open Java

/-- A reference to an array of samples: the decoder has only one. -/
inductive ArrayRef where
  | processedData
  deriving DecidableEq, Repr

/-- Where the decoder thread is: it waits, it holds the mutex before `m_out_q.add` or
    before `setIdle`, or an exception has ended it. -/
inductive DecoderPc where
  | waiting | adding | idling | ended
  deriving DecidableEq, Repr

/-- The fields of `Decoder`.  `m_ec` holds what the canceller was given, if there is one.
    `packet` numbers the packets put, `source` is the number of the one decoded last into
    `processedData`: no method reads the two. -/
structure Decoder (σ : Type) where
  codec : σ
  leftSize : ℕ
  rawdata : List UInt8
  processedData : List ℤ
  m_out_q : List ArrayRef
  num_recv : ℕ
  m_ec : Option (List (List ℤ))
  pc : DecoderPc
  packet : ℕ
  source : ℕ

namespace Decoder

variable {σ : Type} (d : Decoder σ)

/-- `new Decoder(codeccode)`, with the codec it opens. -/
def create (codec : σ) (num_recv : ℕ) (m_ec : Option (List (List ℤ))) : Decoder σ where
  codec := codec
  leftSize := 0
  rawdata := List.replicate 320 0
  processedData := List.replicate 160 0
  m_out_q := []
  num_recv := num_recv
  m_ec := m_ec
  pc := .waiting
  packet := 0
  source := 0

def isIdle : Bool := d.leftSize = 0

def isGetData : Bool := ¬ d.m_out_q = []

/-- The thread is inside its second `synchronized` block. -/
def holdsMutex : Bool := d.pc = .adding ∨ d.pc = .idling

/-- `putData`. -/
def putData (data : List UInt8) (offset size : ℤ) : Except JException (Decoder σ) := do
  let rawdata ← arraycopy data offset d.rawdata 0 size
  return { d with rawdata := rawdata, leftSize := size.toNat, packet := d.packet + 1 }

/-- `getData`: the reference, and the decoder without it. -/
def getData : Option (ArrayRef × Decoder σ) :=
  match d.m_out_q with
  | [] => none
  | r :: q => some (r, { d with m_out_q := q })

/-- What the reference leads to. -/
def deref : ArrayRef → List ℤ
  | .processedData => d.processedData

/-! ## The thread -/

/-- The decoder whose array was written last by the codec, with the packet in the mailbox. -/
def decoded (s : σ × List ℤ) : Decoder σ :=
  { d with codec := s.1, processedData := s.2, source := d.packet }

/-- A method of the codec that writes into `processedData`. -/
def onCodec {α : Type} (x : EStateM JException (σ × List ℤ) α) :
    EStateM JException (Decoder σ) α := fun d =>
  match x (d.codec, d.processedData) with
  | .ok a s => .ok a (d.decoded s)
  | .error e s => .error e (d.decoded s)

/-- `codec.decode(raw_temp, processedData, leftSize)`, with the copy before it. -/
def decode (codecDecode : Decode σ) : EStateM JException (Decoder σ) ℕ := do
  let d ← get
  let raw_temp ← lift
    (arraycopy d.rawdata 0 (List.replicate (d.leftSize + 12) 0) 12 d.leftSize)
  onCodec (codecDecode raw_temp d.leftSize)

/-- The canceller gets the frame, when enough packets have come. -/
def cancel : Decoder σ :=
  match d.m_ec with
  | none => d
  | some played =>
    if d.num_recv < 20 then { d with num_recv := d.num_recv + 1 }
    else { d with m_ec := some (played ++ [d.processedData]) }

/-- The next step of `run`: one packet is decoded, its array enqueued, and the mailbox
    emptied. -/
def step (codecDecode : Decode σ) : Decoder σ :=
  match d.pc with
  | .waiting =>
    if d.isIdle then d
    else
      match decode codecDecode d with
      | .ok _ d => { d.cancel with pc := .adding }
      | .error _ d => { d with pc := .ended }
  | .adding => { d with m_out_q := d.m_out_q ++ [.processedData], pc := .idling }
  | .idling => { d with leftSize := 0, pc := .waiting }
  | .ended => d

end Decoder

end JaySip
