/-
  The text of a session description: `SDPAnnounceParser` and `SessionDescriptionImpl`.

  The fields are a parameter: what they hold, how each is written and how each is read.
-/
import JaySip.Iteration
import JaySip.Java.Text
import Mathlib.Data.List.ModifyLast

namespace JaySip.Sdp

open Java

/-! ## Fields -/

/-- The subclasses of `SDPField`. -/
inductive FieldClass where
  | protoVersion | origin | sessionName | information | uri | email | phone | connection
  | bandwidth | time | repeat | zone | key | attribute | media
  deriving DecidableEq, Repr

/-- `ParserFactory.parserTable`. -/
def parserTable (fieldName : Str) : Option FieldClass :=
  if fieldName = ['a'] then some .attribute
  else if fieldName = ['b'] then some .bandwidth
  else if fieldName = ['c'] then some .connection
  else if fieldName = ['e'] then some .email
  else if fieldName = ['i'] then some .information
  else if fieldName = ['k'] then some .key
  else if fieldName = ['m'] then some .media
  else if fieldName = ['o'] then some .origin
  else if fieldName = ['p'] then some .phone
  else if fieldName = ['v'] then some .protoVersion
  else if fieldName = ['r'] then some .repeat
  else if fieldName = ['s'] then some .sessionName
  else if fieldName = ['t'] then some .time
  else if fieldName = ['u'] then some .uri
  else if fieldName = ['z'] then some .zone
  else none

/-- The fields of some type, with `encode` and with the parser of each class, and the locale's
    `toLowerCase`. -/
structure Fields (F : Type) where
  cls : F → FieldClass
  encode : F → Str
  parse : (c : FieldClass) → Str → Except JException { f : F // cls f = c }
  toLowerCase : Str → Str

variable {F : Type}

/-- The fields of a class. -/
abbrev Fields.Of (g : Fields F) (c : FieldClass) : Type := { f : F // g.cls f = c }

/-- `Lexer.getFieldName`. -/
def getFieldName (line : Str) : Option Str :=
  if '=' ∈ line then some (line.takeWhile (· ≠ '=')) else none

/-- `ParserFactory.createParser(field).parse()`. -/
def Fields.parseField (g : Fields F) (field : Str) : Except JException F := do
  let fieldName ← nonNull (getFieldName field)
  match parserTable (g.toLowerCase fieldName) with
  | some c => return (← g.parse c field).val
  | none => throw .parse

/-! ## Descriptions -/

/-- `TimeDescriptionImpl`. -/
@[ext] structure TimeDescriptionImpl (g : Fields F) where
  timeImpl : g.Of .time
  repeatList : List (g.Of .repeat) := []

/-- `MediaDescriptionImpl`, as `addField` makes it: with a media field, without preconditions. -/
@[ext] structure MediaDescriptionImpl (g : Fields F) where
  mediaField : g.Of .media
  informationField : Option (g.Of .information) := none
  connectionField : Option (g.Of .connection) := none
  bandwidthFields : List (g.Of .bandwidth) := []
  keyField : Option (g.Of .key) := none
  attributeFields : List (g.Of .attribute) := []

/-- `SessionDescriptionImpl`.  `currentTimeDescription` and `currentMediaDescription` are the last
    ones of their lists; a vector that is still `null` is empty. -/
@[ext] structure SessionDescriptionImpl (g : Fields F) where
  versionImpl : Option (g.Of .protoVersion) := none
  originImpl : Option (g.Of .origin) := none
  sessionNameImpl : Option (g.Of .sessionName) := none
  infoImpl : Option (g.Of .information) := none
  uriImpl : Option (g.Of .uri) := none
  emailList : List (g.Of .email) := []
  phoneList : List (g.Of .phone) := []
  connectionImpl : Option (g.Of .connection) := none
  bandwidthList : List (g.Of .bandwidth) := []
  timeDescriptions : List (TimeDescriptionImpl g) := []
  zoneAdjustments : List (g.Of .zone) := []
  keyImpl : Option (g.Of .key) := none
  attributesList : List (g.Of .attribute) := []
  mediaDescriptions : List (MediaDescriptionImpl g) := []

variable {g : Fields F}

/-- A change of the current media description. -/
def SessionDescriptionImpl.inMedia (sd : SessionDescriptionImpl g)
    (change : MediaDescriptionImpl g → MediaDescriptionImpl g) : SessionDescriptionImpl g :=
  { sd with mediaDescriptions := sd.mediaDescriptions.modifyLast change }

/-- `addField`. -/
def SessionDescriptionImpl.addField (sd : SessionDescriptionImpl g) (f : F) :
    Except JException (SessionDescriptionImpl g) :=
  match h : g.cls f with
  | .protoVersion => .ok { sd with versionImpl := some ⟨f, h⟩ }
  | .origin => .ok { sd with originImpl := some ⟨f, h⟩ }
  | .sessionName => .ok { sd with sessionNameImpl := some ⟨f, h⟩ }
  | .information =>
    if sd.mediaDescriptions ≠ [] then
      .ok (sd.inMedia fun m => { m with informationField := some ⟨f, h⟩ })
    else .ok { sd with infoImpl := some ⟨f, h⟩ }
  | .uri => .ok { sd with uriImpl := some ⟨f, h⟩ }
  | .connection =>
    if sd.mediaDescriptions ≠ [] then
      .ok (sd.inMedia fun m => { m with connectionField := some ⟨f, h⟩ })
    else .ok { sd with connectionImpl := some ⟨f, h⟩ }
  | .key =>
    if sd.mediaDescriptions ≠ [] then .ok (sd.inMedia fun m => { m with keyField := some ⟨f, h⟩ })
    else .ok { sd with keyImpl := some ⟨f, h⟩ }
  | .email => .ok { sd with emailList := sd.emailList ++ [⟨f, h⟩] }
  | .phone => .ok { sd with phoneList := sd.phoneList ++ [⟨f, h⟩] }
  | .time => .ok { sd with timeDescriptions := sd.timeDescriptions ++ [{ timeImpl := ⟨f, h⟩ }] }
  | .repeat =>
    if sd.timeDescriptions = [] then .error .parse
    else .ok { sd with timeDescriptions := sd.timeDescriptions.modifyLast fun t =>
      { t with repeatList := t.repeatList ++ [⟨f, h⟩] } }
  | .zone => .ok { sd with zoneAdjustments := sd.zoneAdjustments ++ [⟨f, h⟩] }
  | .bandwidth =>
    if sd.mediaDescriptions ≠ [] then
      .ok (sd.inMedia fun m => { m with bandwidthFields := m.bandwidthFields ++ [⟨f, h⟩] })
    else .ok { sd with bandwidthList := sd.bandwidthList ++ [⟨f, h⟩] }
  | .attribute =>
    if sd.mediaDescriptions ≠ [] then
      .ok (sd.inMedia fun m => { m with attributeFields := m.attributeFields ++ [⟨f, h⟩] })
    else .ok { sd with attributesList := sd.attributesList ++ [⟨f, h⟩] }
  | .media =>
    .ok { sd with mediaDescriptions := sd.mediaDescriptions ++ [{ mediaField := ⟨f, h⟩ }] }

/-! ## The text of a description -/

/-- A field that may be `null`. -/
def encodeOption {c : FieldClass} (f : Option (g.Of c)) : Str := (f.map (g.encode ·.val)).getD []

/-- `encodeVector`. -/
def encodeVector {c : FieldClass} (vector : List (g.Of c)) : Str :=
  vector.flatMap (g.encode ·.val)

def TimeDescriptionImpl.toString (t : TimeDescriptionImpl g) : Str :=
  g.encode t.timeImpl.val ++ encodeVector t.repeatList

/-- `MediaDescriptionImpl.encode`. -/
def MediaDescriptionImpl.encode (m : MediaDescriptionImpl g) : Str :=
  g.encode m.mediaField.val ++ encodeOption m.informationField ++
    encodeOption m.connectionField ++ encodeVector m.bandwidthFields ++
    encodeOption m.keyField ++ encodeVector m.attributeFields

def SessionDescriptionImpl.toString (sd : SessionDescriptionImpl g) : Str :=
  encodeOption sd.versionImpl ++ encodeOption sd.originImpl ++ encodeOption sd.sessionNameImpl ++
    encodeOption sd.infoImpl ++ encodeOption sd.uriImpl ++ encodeVector sd.emailList ++
    encodeVector sd.phoneList ++ encodeOption sd.connectionImpl ++ encodeVector sd.bandwidthList ++
    sd.timeDescriptions.flatMap TimeDescriptionImpl.toString ++ encodeVector sd.zoneAdjustments ++
    encodeOption sd.keyImpl ++ encodeVector sd.attributesList ++
    sd.mediaDescriptions.flatMap MediaDescriptionImpl.encode

/-! ## Lines -/

/-- `s.indexOf("c", start)`. -/
def indexOfFrom (s : Str) (c : Char) (start : ℕ) : ℤ :=
  if c ∈ s.drop start then start + (s.drop start).idxOf c else -1

/-- `s.trim()`: without control characters and blanks at the ends. -/
def trim (s : Str) : Str := (s.dropWhile (·.toNat ≤ 32)).rdropWhile (·.toNat ≤ 32)

/-- The variables of the constructor. -/
structure Splitting where
  start : ℕ
  line : Option Str
  sdpMessage : List (Option Str)
  deriving DecidableEq, Repr

/-- A turn that takes a line up to `pos`, and goes on at `start`. -/
def Splitting.take (s : Splitting) (sdpAnnounce : Str) (pos start : ℤ) : Splitting :=
  let line := some ((sdpAnnounce.take pos.toNat).drop s.start)
  ⟨start.toNat, line, s.sdpMessage ++ [line]⟩

/-- A turn of the loop of the constructor. -/
def splitTurn (sdpAnnounce : Str) (s : Splitting) : Splitting ⊕ List (Option Str) :=
  if s.start < sdpAnnounce.length then
    let lfPos := indexOfFrom sdpAnnounce '\n' s.start
    let crPos := indexOfFrom sdpAnnounce '\r' s.start
    if lfPos > 0 ∧ crPos < 0 then .inl (s.take sdpAnnounce lfPos (lfPos + 1))
    else if lfPos < 0 ∧ crPos > 0 then .inl (s.take sdpAnnounce crPos (crPos + 1))
    else if lfPos > 0 ∧ crPos > 0 then
      if lfPos > crPos then
        if lfPos = crPos + 1 then .inl (s.take sdpAnnounce crPos (lfPos + 1))
        else .inl (s.take sdpAnnounce crPos (crPos + 1))
      else
        if crPos = lfPos + 1 then .inl (s.take sdpAnnounce lfPos (crPos + 1))
        else .inl (s.take sdpAnnounce lfPos (lfPos + 1))
    else if lfPos < 0 ∧ crPos < 0 then .inr s.sdpMessage
    -- a line end in front of everything: the line stays `null`
    else .inl { s with sdpMessage := s.sdpMessage ++ [s.line] }
  else .inr s.sdpMessage

/-- `SDPAnnounceParser(message)`, if its loop ends within `turns` turns. -/
def SDPAnnounceParser (message : Str) (turns : ℕ) : Option (List (Option Str)) :=
  Iteration.run (splitTurn (trim message ++ ['\r', '\n'])) turns ⟨0, none, []⟩

/-! ## The parser -/

/-- `SDPAnnounceParser.parse`. -/
def parse (g : Fields F) (sdpMessage : List (Option Str)) :
    Except JException (SessionDescriptionImpl g) :=
  sdpMessage.foldlM (fun retval field => do
    retval.addField (← g.parseField (← nonNull field))) {}

/-- The constructor and `parse`. -/
def announce (g : Fields F) (message : Str) (turns : ℕ) :
    Option (Except JException (SessionDescriptionImpl g)) :=
  (SDPAnnounceParser message turns).map (parse g)

example : SDPAnnounceParser " v=0\r\ns=x\no=y\n\r".toList 9 =
    some [some "v=0".toList, some "s=x".toList, some "o=y".toList] := by decide

end JaySip.Sdp
