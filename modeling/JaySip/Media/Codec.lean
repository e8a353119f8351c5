/-
  `Codec` and its native codecs, as far as they decode.

  What the native libraries compute is a parameter (`Native`); which bytes they read
  and which samples they write is not.  An access outside an array or a stack buffer
  ends the method, whether Java would throw or C would go on.
-/
import JaySip.Media.G711

namespace JaySip

open Java

/-- What the native codecs compute: `g722_decode` makes two samples of every byte, and
    `speex_decode_int` one frame of the bits it is given. -/
structure Native (γ ψ : Type) where
  g722Byte : γ → UInt8 → γ × ℤ × ℤ
  speexFrame : ψ → List UInt8 → ψ × (Fin 160 → ℤ)

/-- The static data of the two libraries: how often each codec is open, and its state. -/
structure Natives (γ ψ : Type) where
  g722_open : ℕ
  g722 : γ
  speex_open : ℕ
  speex : ψ

/-- A method that decodes: the bytes with the RTP header in front, and the number of
    payload bytes; the state is that of the codec, and the array for the samples. -/
abbrev Decode (σ : Type) := List UInt8 → ℕ → EStateM JException (σ × List ℤ) ℕ

namespace Codec

variable {γ ψ σ : Type}

/-- `init`: the native codecs are opened. -/
def init (codeccode : ℤ) (n : Natives γ ψ) : Natives γ ψ :=
  if codeccode = 101 then { n with speex_open := n.speex_open + 1 }
  else if codeccode = 9 then { n with g722_open := n.g722_open + 1 }
  else n

/-! ## G.711 -/

/-- A method that only writes samples. -/
def onSamples {α : Type} (x : EStateM JException (List ℤ) α) :
    EStateM JException (σ × List ℤ) α := fun s =>
  match x s.2 with
  | .ok a lin => .ok a (s.1, lin)
  | .error e lin => .error e (s.1, lin)

/-- `ulaw.decode`. -/
def decodeUlaw : Decode σ := fun enc frames => do
  onSamples (G711.ulaw2linear enc frames)
  return frames

/-- `alaw.decode`. -/
def decodeAlaw : Decode σ := fun enc frames => do
  onSamples (G711.alaw2linear enc frames)
  return frames

/-! ## Native codecs -/

section
variable (native : Native γ ψ)

/-- A turn of the loop of `g722_decode`, for 64000 bit/s: `amp[outlen++]` twice. -/
def g722Turn (g722_data : List UInt8) (j : ℕ) (b : γ × List ℤ × ℕ) :
    EStateM JException (Natives γ ψ × List ℤ) (γ × List ℤ × ℕ) := do
  let code ← lift (arrayGet g722_data j)
  let (s, low, high) := native.g722Byte b.1 code
  let amp ← lift (arraySet b.2.1 b.2.2 low)
  let amp ← lift (arraySet amp (b.2.2 + 1) high)
  return (s, amp, b.2.2 + 2)

/-- `Java_jay_codec_G722_decode`, with its buffers of `BLOCK_LEN` entries. -/
def decodeG722 : Decode (Natives γ ψ) := fun encoded size => do
  let (n, _) ← get
  if n.g722_open = 0 then return 0
  else do
    let adpcmdata ← lift (arraycopy encoded 12 (List.replicate 160 0) 0 size)
    let (s, outdata, len) ←
      loop size (g722Turn native adpcmdata) (n.g722, List.replicate 160 0, 0)
    modify fun s' => ({ s'.1 with g722 := s }, s'.2)
    let (n, lin) ← get
    let lin ← lift (arraycopy outdata 0 lin 0 len)
    set (n, lin)
    return len

/-- `Java_jay_codec_Speex_decode`; `dec_frame_size` is 160 in narrow band. -/
def decodeSpeex : Decode (Natives γ ψ) := fun encoded size => do
  let (n, _) ← get
  if n.speex_open = 0 then return 0
  else do
    let buffer ← lift (arraycopy encoded 12 (List.replicate 160 0) 0 size)
    let (s, output_buffer) := native.speexFrame n.speex (buffer.take size)
    modify fun s' => ({ s'.1 with speex := s }, s'.2)
    let (n, lin) ← get
    let lin ← lift (arraycopy (List.ofFn output_buffer) 0 lin 0 160)
    set (n, lin)
    return 160

/-- `Codec.decode`. -/
def decode (codeccode : ℤ) : Decode (Natives γ ψ) := fun encoded size =>
  if codeccode = 101 then decodeSpeex native encoded size
  else if codeccode = 0 then decodeUlaw encoded size
  else if codeccode = 8 then decodeAlaw encoded size
  else if codeccode = 9 then decodeG722 native encoded size
  else return 0

end

end Codec

end JaySip
