/-
  Audio and video formats (`SipAudioFormat`, `SipVideoFormat`) and the static
  RTP/AVP table of `SdpConstants`.
-/
import JaySip.Java.Text

namespace JaySip

open Java

/-- `SipAudioFormat`: format code, format name, sample rate in Hz. -/
structure SipAudioFormat where
  format : ℤ
  formatName : Str
  sampleRate : ℤ
  deriving DecidableEq, Repr

/-- `SipVideoFormat`. -/
structure SipVideoFormat where
  format : ℤ
  formatName : Str
  sampleRate : ℤ
  deriving DecidableEq, Repr

/-- The rtpmap value of a format: `8 PCMA/8000`. -/
def sdpField (format : ℤ) (formatName : Str) (sampleRate : ℤ) : Str :=
  intText format ++ " ".toList ++ formatName ++ "/".toList ++ intText sampleRate

def SipAudioFormat.getSdpField (f : SipAudioFormat) : Str :=
  sdpField f.format f.formatName f.sampleRate

def SipVideoFormat.getSdpField (f : SipVideoFormat) : Str :=
  sdpField f.format f.formatName f.sampleRate

/-- `SipAudioFormat.equals` compares the code and the rate, not the name. -/
def SipAudioFormat.equals (f g : SipAudioFormat) : Bool :=
  f.format = g.format ∧ f.sampleRate = g.sampleRate

/-- Reading `8 PCMA/8000` or `rtpmap:8 PCMA/8000`, with every exception. -/
def readFormat {α : Type} (mk : ℤ → Str → ℤ → α) (value : Option Str) : Except JException α := do
  let trim := replace (← nonNull value) "rtpmap:".toList []
  let format ← arrayGet (split trim ' ') 0
  let formatName ← arrayGet (split (← arrayGet (split trim ' ') 1) '/') 0
  let sampleRate ← arrayGet (split (← arrayGet (split trim ' ') 1) '/') 1
  return mk (← parseInt format) formatName (← parseInt sampleRate)

/-- `SipAudioFormat.parseAudioFormat`: `null` on any exception. -/
def SipAudioFormat.parseAudioFormat (value : Option Str) : Option SipAudioFormat :=
  (readFormat SipAudioFormat.mk value).toOption

/-- `SipVideoFormat.parseVideoFormat`. -/
def SipVideoFormat.parseVideoFormat (value : Option Str) : Option SipVideoFormat :=
  (readFormat SipVideoFormat.mk value).toOption

/-- `SdpConstants.avpTypeNames`. -/
def avpTypeNames : List Str :=
  ["PCMU", "1016", "G721", "GSM", "G723", "DVI4_8000", "DVI4_16000", "LPC", "PCMA", "G722",
    "L16_2CH", "L16_1CH", "QCELP", "CN", "MPA", "G728", "DVI4_11025", "DVI4_22050", "G729",
    "CN_DEPRECATED", "UNASSIGNED", "UNASSIGNED", "UNASSIGNED", "UNASSIGNED", "UNASSIGNED", "CelB",
    "JPEG", "UNASSIGNED", "nv", "UNASSIGNED", "UNASSIGNED", "H261", "MPV", "MP2T",
    "H263"].map String.toList

/-- `SdpConstants.avpClockRates`. -/
def avpClockRates : List ℤ :=
  [8000, 8000, 8000, 8000, 8000, 8000, 16000, 8000, 8000, 8000, 44100, 44100, -1, -1, 90000, 8000,
    -1, -1, -1, -1, -1, -1, -1, -1, -1, 90000, 90000, -1, 90000, -1, -1, 90000, 90000, 90000, -1]

-- names and rates cover the same codes, 0 to 34
example : avpTypeNames.length = 35 ∧ avpClockRates.length = 35 := by decide
example : (⟨8, "PCMA".toList, 8000⟩ : SipAudioFormat).getSdpField = "8 PCMA/8000".toList := by
  decide
example : SipAudioFormat.parseAudioFormat (some "rtpmap:8 PCMA/8000".toList) =
    some ⟨8, "PCMA".toList, 8000⟩ := by decide

end JaySip
