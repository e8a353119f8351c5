/-
  The loop of `LanAudioRecord.run` up to `encoder.putData`, on its own: what a turn finds is
  what the read returns and whether the encoder is idle.
-/
import JaySip.Media.LanAudioRecord

namespace JaySip

variable {α : Type}

/-- What a turn of the loop finds: a read of `count` samples, none when it fails, and the
    encoder idle or busy. -/
structure LoopTurn (α : Type) where
  count : Fin 161
  x : ℕ → α
  idle : Bool

/-- `m_in_rec.read(...)<=0`. -/
def LoopTurn.fails (t : LoopTurn α) : Bool := (t.count : ℕ) ≤ 0

/-- The samples read. -/
def LoopTurn.samples (t : LoopTurn α) : List α := List.ofFn fun i : Fin t.count => t.x i

/-- A frame handed to the encoder, behind how many reads, and behind how many turns with a read
    that found the encoder busy. -/
structure Submission (α : Type) where
  captured : ℕ
  busy : ℕ
  frame : Samples α

/-- The recorder, the samples of each read that got some, how often the encoder was busy then,
    and the frames handed to it. -/
structure RecordLoop (α : Type) where
  recorder : Recorder α
  captured : List (List α)
  busy : ℕ
  put : List (Submission α)

/-- The next `readpos`. -/
def Recorder.advance (ringSize : ℕ) (r : Recorder α) : Recorder α :=
  { r with readpos := (r.readpos + 160) % ringSize }

namespace RecordLoop

/-- `run` before its first turn: a new `Audio_in`, but the positions of the run before. -/
def start (silence : α) (readpos writepos : ℕ) : RecordLoop α where
  recorder := ⟨fun _ => silence, readpos, writepos, false, 0, 0, .reading⟩
  captured := []
  busy := 0
  put := []

/-- A turn of the loop, up to the test of `muteflag`. -/
def turn (a : RecorderArgs) (double : α → α) (s : RecordLoop α) (t : LoopTurn α) : RecordLoop α :=
  if t.fails then s
  else
    let r := s.recorder.capture double a.ringSize t.count t.x
    if t.idle then
      { recorder := r.advance a.ringSize
        captured := s.captured ++ [t.samples]
        busy := s.busy
        put := s.put ++ [⟨s.captured.length + 1, s.busy, r.frame⟩] }
    else
      { recorder := r
        captured := s.captured ++ [t.samples]
        busy := s.busy + 1
        put := s.put }

end RecordLoop

/-- The loop, turn after turn. -/
def recordLoop (a : RecorderArgs) (double : α → α) : Machine (RecordLoop α) (LoopTurn α) where
  init s := ∃ silence readpos writepos, s = .start silence readpos writepos
  step := RecordLoop.turn a double

end JaySip
