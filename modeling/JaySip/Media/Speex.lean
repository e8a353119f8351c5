/-
  The native wrapper of Speex, `speex_jni.cpp`: its static variables, and what its functions
  do with the objects of the library.
-/
import JaySip.Lifecycle
import JaySip.Machine

namespace JaySip

/-- The objects of the library that the wrapper keeps. -/
inductive SpeexObject where
  | ebits | dbits | enc_state | dec_state | echostate | preprocess_state
  deriving DecidableEq, Repr

/-- The static variables of the wrapper.  An `int` that overflows wraps around. -/
structure SpeexJni where
  codec_open : BitVec 32
  enc_frame_size : ℤ
  dec_frame_size : ℤ
  eco_open : BitVec 32
  eco_frame_size : ℤ
  deriving DecidableEq, Repr

/-- The call of a native function.  Of the arguments those are left out that only reach the
    library; `tot_bytes` and `speech` are what it returns. -/
inductive SpeexCall where
  | open_
  | encode (size tot_bytes : ℤ)
  | decode (size : ℤ)
  | getFrameSize
  | close
  | echoinit (framesize : ℤ)
  | echoplayback
  | echocapture (speech : ℤ)
  | echoclose
  deriving DecidableEq, Repr

/-- What a call does: the variables after it, the divisors of its divisions, its accesses to
    the objects in order, and its result, 0 where it has none. -/
structure SpeexEffect where
  post : SpeexJni
  divisors : List ℤ := []
  accesses : List (Access SpeexObject) := []
  result : ℤ := 0

namespace SpeexJni

open Access SpeexObject

/-- The variables of the loaded library. -/
def loaded : SpeexJni := ⟨0, 0, 0, 0, 0⟩

/-- `Java_jay_codec_Speex_open`.  The frame size is that of `speex_nb_mode`. -/
def open_ (s : SpeexJni) : SpeexEffect :=
  let codec_open := s.codec_open
  let s := { s with codec_open := codec_open + 1#32 }
  if codec_open ≠ 0#32 then { post := s }
  else
    { post := { s with enc_frame_size := 160, dec_frame_size := 160 }
      accesses := [init ebits, init dbits, init enc_state, init dec_state] ++
        [enc_state, enc_state, dec_state].map use }

/-- `Java_jay_codec_Speex_encode`: the division comes before the guard. -/
def encode (s : SpeexJni) (size tot_bytes : ℤ) : SpeexEffect :=
  let nsamples := (size - 1).tdiv s.enc_frame_size + 1
  if s.codec_open = 0#32 then { post := s, divisors := [s.enc_frame_size] }
  else
    { post := s
      divisors := [s.enc_frame_size]
      accesses := (ebits :: (List.replicate nsamples.toNat [enc_state, ebits]).flatten ++
        [ebits]).map use
      result := tot_bytes }

/-- `Java_jay_codec_Speex_decode`. -/
def decode (s : SpeexJni) : SpeexEffect :=
  if s.codec_open = 0#32 then { post := s }
  else { post := s, accesses := [dbits, dec_state, dbits].map use, result := s.dec_frame_size }

/-- `Java_jay_codec_Speex_getFrameSize`. -/
def getFrameSize (s : SpeexJni) : SpeexEffect :=
  if s.codec_open = 0#32 then { post := s } else { post := s, result := s.enc_frame_size }

/-- `Java_jay_codec_Speex_close`. -/
def close (s : SpeexJni) : SpeexEffect :=
  let s := { s with codec_open := s.codec_open - 1#32 }
  if s.codec_open ≠ 0#32 then { post := s }
  else
    { post := s
      accesses := [destroy ebits, destroy dbits, destroy dec_state, destroy enc_state] }

/-- `Java_jay_codec_Speex_echoinit`: an echo state, and a preprocessor that six controls set
    up and that is given the echo state. -/
def echoinit (s : SpeexJni) (framesize : ℤ) : SpeexEffect :=
  let eco_open := s.eco_open
  let s := { s with eco_open := eco_open + 1#32 }
  if eco_open ≠ 0#32 then { post := s }
  else
    { post := { s with eco_frame_size := framesize }
      accesses := [init echostate, init preprocess_state] ++
        (List.replicate 6 preprocess_state).map use
      result := 1 }

/-- `Java_jay_codec_Speex_echoplayback`. -/
def echoplayback (s : SpeexJni) : SpeexEffect :=
  if s.eco_open = 0#32 then { post := s }
  else { post := s, accesses := [echostate].map use, result := s.eco_frame_size }

/-- `Java_jay_codec_Speex_echocapture`: the preprocessor reads the echo state too. -/
def echocapture (s : SpeexJni) (speech : ℤ) : SpeexEffect :=
  if s.eco_open = 0#32 then { post := s }
  else
    { post := s
      accesses := [preprocess_state, echostate, echostate].map use
      result := speech }

/-- `Java_jay_codec_Speex_echoclose`. -/
def echoclose (s : SpeexJni) : SpeexEffect :=
  let s := { s with eco_open := s.eco_open - 1#32 }
  if s.eco_open ≠ 0#32 then { post := s }
  else { post := s, accesses := [destroy echostate, destroy preprocess_state] }

def call (s : SpeexJni) : SpeexCall → SpeexEffect
  | .open_ => s.open_
  | .encode size tot_bytes => s.encode size tot_bytes
  | .decode _ => s.decode
  | .getFrameSize => s.getFrameSize
  | .close => s.close
  | .echoinit framesize => s.echoinit framesize
  | .echoplayback => s.echoplayback
  | .echocapture speech => s.echocapture speech
  | .echoclose => s.echoclose

end SpeexJni

/-- The wrapper, call after call. -/
def speex : Machine SpeexJni SpeexCall where
  init s := s = .loaded
  step s c := (s.call c).post

example : ((SpeexJni.loaded.open_).post.encode 160 38).result = 38 := by decide

end JaySip
