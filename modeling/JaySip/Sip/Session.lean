/-
  `SipSession`, and `SipMessageHandler.createSipSession`, which builds one from a
  message and its session description.
-/
import JaySip.Sip.Messages

namespace JaySip

open Java

/-- The message a session was built from: an incoming request, or a response with its
    Call-ID. -/
inductive Source where
  | request (id : ℕ)
  | response (callId : CallId)
  deriving DecidableEq, Repr

/-- `SipSession`.  A format may be `null`.  `source` is no field of the class: it
    records which message the object was made from, and no method reads it. -/
structure SipSession where
  fromSipURI : Str
  toSipURI : Str
  remoteAddress : Str
  remoteSipPort : ℤ
  incoming : Bool
  audioFormats : List (Option SipAudioFormat)
  videoFormats : List (Option SipVideoFormat)
  remoteAudioRtpPort : ℤ
  remoteAudioRtcpPort : ℤ
  remoteVideoRtpPort : ℤ
  remoteVideoRtcpPort : ℤ
  source : Source
  deriving DecidableEq, Repr

/-- `getCallerNumber`. -/
def SipSession.getCallerNumber (s : SipSession) : Except JException Str := do
  let result ← arrayGet (split s.fromSipURI '@') 0
  let result := replace result "sip:0049".toList "0".toList
  let result := replace result "sip:+49".toList "0".toList
  let result := replace result "sip:49".toList "0".toList
  return replace result "sip:".toList []

/-- The user that `processRequest` takes an INVITE to be for: the To URI between its
    first ':' and its first '@'. -/
def SipSession.calledUser (s : SipSession) : Except JException Str :=
  substring s.toSipURI (indexOf s.toSipURI ':' + 1) (indexOf s.toSipURI '@')

/-! ## `createSipSession` -/

/-- What the loops of `createSipSession` gather for one kind of media. -/
structure MediaPart (α : Type) where
  formats : List (Option α)
  rtpPort : ℤ
  rtcpPort : ℤ

/-- One attribute of a media section: an rtpmap adds a format, an rtcp attribute that
    is a number sets the port, and anything else is skipped. -/
def MediaPart.readAttribute {α : Type} (parse : Option Str → Option α) (m : MediaPart α)
    (a : Attribute) : MediaPart α :=
  if contains a.name "rtpmap".toList then { m with formats := m.formats ++ [parse a.value] }
  else if contains a.name "rtcp".toList then
    match nonNull a.value >>= parseInt with
    | .ok port => { m with rtcpPort := port }
    | .error _ => m
  else m

/-- One media section. -/
def MediaPart.readSection {α : Type} (parse : Option Str → Option α) (m : MediaPart α)
    (item : MediaDescription) : MediaPart α :=
  item.attributes.foldl (readAttribute parse) { m with rtpPort := item.port }

/-- The loop over the media sections. -/
def readMedia (items : List MediaDescription) :
    MediaPart SipAudioFormat × MediaPart SipVideoFormat :=
  items.foldl (fun m item =>
    if contains item.mediaType "audio".toList then
      (m.1.readSection SipAudioFormat.parseAudioFormat item, m.2)
    else if contains item.mediaType "video".toList then
      (m.1, m.2.readSection SipVideoFormat.parseVideoFormat item)
    else m) (⟨[], 0, 0⟩, ⟨[], 0, 0⟩)

/-- The part of the Contact URI behind the user: host, and port if there is one. -/
def contactAddress (contactURI : Option Str) : Except JException Str := do
  arrayGet (split (← arrayGet (split (← nonNull contactURI) '@') 1) ';') 0

/-- The SIP port of a Contact address. -/
def contactPort (address : Str) : Except JException ℤ :=
  if contains address ":".toList then do parseInt (← arrayGet (split address ':') 1)
  else .ok 5060

/-- `createSipSession`; `getByName` is `InetAddress.getByName`. -/
def createSipSession (getByName : Str → Option Str) (message : Message) (source : Source)
    (sdpSession : SessionDescription) : Except JException SipSession := do
  let address ← contactAddress message.contactURI
  let (audio, video) := readMedia sdpSession.mediaDescriptions
  let port ← contactPort address
  let connection ← nonNull sdpSession.connection
  match getByName connection.address with
  | none => .error .unknownHost
  | some inetAddress =>
    return {
      fromSipURI := message.fromURI
      toSipURI := message.toURI
      remoteAddress := inetAddress
      remoteSipPort := port
      incoming := false
      audioFormats := audio.formats
      videoFormats := video.formats
      remoteAudioRtpPort := audio.rtpPort
      remoteAudioRtcpPort := audio.rtcpPort
      remoteVideoRtpPort := video.rtpPort
      remoteVideoRtcpPort := video.rtcpPort
      source := source }

example : contactAddress (some "sip:bob@10.0.0.2:5070;lr".toList) = .ok "10.0.0.2:5070".toList := by
  decide

/-! ## Fields of a session -/

section
variable {getByName : Str → Option Str} {message : Message} {source : Source}
  {sdpSession : SessionDescription} {s : SipSession}

theorem createSipSession_fields
    (h : createSipSession getByName message source sdpSession = .ok s) :
    s.source = source ∧ s.incoming = false ∧ s.fromSipURI = message.fromURI ∧
      s.toSipURI = message.toURI := by
  simp only [createSipSession, bind, Except.bind] at h
  split at h
  · cases h
  split at h
  · cases h
  split at h
  · cases h
  split at h
  · cases h
  cases h
  exact ⟨rfl, rfl, rfl, rfl⟩

end

end JaySip
