/-
  Session descriptions, as the SDP library's parser returns them.

  The text of a message body stands for what `createSessionDescription` makes of
  it (`SdpText`): a description, or a parse error.  A description that the code
  builds is given by its m= sections and their attributes, which is what the
  parser reads back from its text.
-/
import JaySip.Sip.Formats

namespace JaySip

open Java

/-- An a= line.  A line without a colon has a name and no value. -/
structure Attribute where
  name : Str
  value : Option Str
  deriving DecidableEq, Repr

/-- The o= line.  `none` stands for an identifier that is no number: reading it throws. -/
structure Origin where
  username : Str
  sessionId : Option ℤ
  sessionVersion : Option ℤ
  networkType : Str := "IN".toList
  addressType : Str := "IP4".toList
  address : Str
  deriving DecidableEq, Repr

/-- The c= line. -/
structure Connection where
  networkType : Str := "IN".toList
  addressType : Str := "IP4".toList
  address : Str
  deriving DecidableEq, Repr

/-- An m= line with the attributes below it. -/
structure MediaDescription where
  mediaType : Str
  port : ℤ
  protocol : Str := "RTP/AVP".toList
  formats : List Str
  attributes : List Attribute
  deriving DecidableEq, Repr

/-- `SessionDescription`.  A missing line is `null`. -/
structure SessionDescription where
  origin : Option Origin
  sessionName : Option Str
  connection : Option Connection
  mediaDescriptions : List MediaDescription
  deriving DecidableEq, Repr

/-- The text of a message body. -/
inductive SdpText where
  | malformed
  | sdp (d : SessionDescription)
  deriving DecidableEq, Repr

/-- `SdpFactory.createSessionDescription(text)`. -/
def SdpText.createSessionDescription : SdpText → Except JException SessionDescription
  | malformed => .error .sdp
  | sdp d => .ok d

/-- `createSessionDescription(new String(message.getRawContent()))`. -/
def descriptionOf (rawContent : Option SdpText) : Except JException SessionDescription := do
  (← nonNull rawContent).createSessionDescription

/-- `Origin.getSessionId` and `getSessionVersion`, which parse the line's text. -/
def Origin.number (n : Option ℤ) : Except JException ℤ :=
  match n with
  | some n => .ok n
  | none => .error .numberFormat

/-- The value of an a=rtpmap line. -/
def rtpmap (field : Str) : Attribute := ⟨"rtpmap".toList, some field⟩

/-- `a=sendrecv`. -/
def sendReceive : Attribute := ⟨"sendrecv".toList, none⟩

/-- The a=rtcp line. -/
def rtcpAttribute (port : ℤ) : Attribute := ⟨"rtcp".toList, some (intText port)⟩

end JaySip
