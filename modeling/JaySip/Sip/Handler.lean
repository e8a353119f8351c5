/-
  `SipMessageHandler`: codec negotiation, and the methods that build and send
  messages.
-/
import JaySip.Java.Array
import JaySip.Sip.World

namespace JaySip

open Java

/-! ## Negotiation -/

/-- `getSipAudioFormats(sdp)`: the formats of the first media section. -/
def getSipAudioFormats (sdp : SessionDescription) : Except JException (List Str) := do
  return (← arrayGet sdp.mediaDescriptions 0).formats

/-- `getSipAudioFormatsBump`: the loop walks `callercodec` and removes from its copy
    the first entry equal to each one that is no local format. -/
def getSipAudioFormatsBump (profile : LocalSipProfile) (callercodec : List Str) :
    Except JException (List Str) :=
  callercodec.foldlM (fun m_temp s => do
    let temp ← parseInt s
    if temp ∈ profile.audioFormats.map (·.format) then return m_temp
    else return m_temp.erase s) callercodec

/-- The two vectors of `getSipAudioFormatsBump`: its argument, and the copy it returns. -/
structure BumpVectors where
  callercodec : List Str
  m_temp : List Str
  deriving DecidableEq, Repr

/-- Turn `i` of the loop of `getSipAudioFormatsBump`. -/
def bumpTurn (profile : LocalSipProfile) (i : ℕ) : EStateM JException BumpVectors Unit := do
  let temp ← lift (parseInt (← lift (arrayGet (← get).callercodec i)))
  if temp ∈ profile.audioFormats.map (·.format) then pure ()
  else do
    let s ← lift (arrayGet (← get).callercodec i)
    modify fun v => { v with m_temp := v.m_temp.erase s }

/-- `getSipAudioFormatsBump` with its vectors as the state. -/
def bumpVectors (profile : LocalSipProfile) : EStateM JException BumpVectors (List Str) := do
  let len := (← get).callercodec.length
  modify fun v => { v with m_temp := v.callercodec }
  loop len (fun i _ => bumpTurn profile i) ()
  return (← get).m_temp

/-- `getSipAudioFormatsList`: names and rates come from the static table. -/
def getSipAudioFormatsList (audioformats : List Str) : Except JException (List SipAudioFormat) :=
  audioformats.mapM fun s => do
    let format_type ← parseInt s
    return ⟨format_type, ← arrayGet avpTypeNames format_type, ← arrayGet avpClockRates format_type⟩

/-- The codecs both sides have: what the two callers of the three functions above make
    of a description. -/
def negotiate (profile : LocalSipProfile) (sdp : SessionDescription) :
    Except JException (List Str) := do
  getSipAudioFormatsBump profile (← getSipAudioFormats sdp)

/-! ## Stack calls -/

section
variable (env : Env)

/-- A stack call that returns nothing of interest. -/
def call (c : StackCall) : M Unit :=
  match env.fails c with
  | some e => throw e
  | none => pure ()

/-- A fresh identifier of the stack. -/
def freshId : M ℕ := do
  let w ← get
  modify World.tick
  return w.fresh

def setStatusChanged (st : SipManagerState) (info : Option Str) : M Unit :=
  modify (·.setStatusChanged st info)

/-- `messageFactory.createResponse`, which refuses a `null` request. -/
def createResponse (code : ℕ) (request : Option Request) : M Reply := do
  let r ← lift (nonNull request)
  call env .createResponse
  return { status := code, request := r }

def getNewServerTransaction (r : Request) : M ServerTransaction := do
  call env .getNewServerTransaction
  let id ← freshId
  return ⟨id, r⟩

def getNewClientTransaction (q : SipRequest) : M ClientTransaction := do
  call env .getNewClientTransaction
  let id ← freshId
  return ⟨id, q, env.dialogTag.map (⟨q.callId, ·⟩)⟩

def ServerTransaction.sendResponse (t : ServerTransaction) (r : Reply) : M Unit := do
  call env .sendResponse
  modify (·.emit (.response t r))

def ClientTransaction.sendRequest (t : ClientTransaction) : M Unit := do
  call env .sendRequest
  modify (·.emit (.request t))

/-! ## Session descriptions -/

/-- The m= section of the local audio formats, if there are any. -/
def audioSection (p : LocalSipProfile) (formats : List Str) (rtpmaps : List Attribute) :
    List MediaDescription :=
  if p.audioFormats.length > 0 then
    [{ mediaType := "audio".toList, port := p.localAudioRtpPort, formats := formats
       attributes := rtpmaps ++ [sendReceive, rtcpAttribute p.localAudioRtcpPort] }]
  else []

/-- The m= section of the local video formats, if there are any. -/
def videoSection (p : LocalSipProfile) : List MediaDescription :=
  if p.videoFormats.length > 0 then
    [{ mediaType := "video".toList, port := p.localVideoRtpPort
       formats := p.videoFormats.map (intText ·.format)
       attributes := p.videoFormats.map (rtpmap ·.getSdpField) ++
         [sendReceive, rtcpAttribute p.localVideoRtcpPort] }]
  else []

/-- The last part of `createSDP`.  `setSessionId` refuses a negative number. -/
def describe (h : SipMessageHandler) (sessionId sessionVersion : ℤ) (sessionName : Str)
    (audioFormats : List Str) (rtpmaps : List Attribute) : Except JException SessionDescription :=
  let p := h.localSipProfile
  if sessionId < 0 then .error .sdp
  else .ok {
    origin := some { username := p.displayName, sessionId := some sessionId
                     sessionVersion := some sessionVersion, address := h.localIPAddress }
    sessionName := some sessionName
    connection := some { address := h.localIPAddress }
    mediaDescriptions := audioSection p audioFormats rtpmaps ++ videoSection p }

/-- `createSDP(null)`: the offer.  The session identifier is 0, since the cast in
    `(long) Math.random() * 100000000L` comes before the product. -/
def createOffer : M SessionDescription := do
  call env .createDescription
  let w ← get
  let formats := w.handler.localSipProfile.audioFormats
  lift (describe w.handler 0 0 "call".toList (formats.map (intText ·.format))
    (formats.map (rtpmap ·.getSdpField)))

/-- `createSDP(request)`: the answer, or `null` without a common codec. -/
def createAnswer (request : Request) : M (Option SessionDescription) := do
  call env .createDescription
  let sdpSession ← lift (descriptionOf request.rawContent)
  let origin ← lift (nonNull sdpSession.origin)
  let sessionId ← lift (Origin.number origin.sessionId)
  let sessionVersion ← lift (Origin.number origin.sessionVersion)
  let sessionName ← lift (nonNull sdpSession.sessionName)
  let w ← get
  let audioFormats ← lift (negotiate w.handler.localSipProfile sdpSession)
  if audioFormats = [] then pure none
  else do
    modify (·.setSipAudioFormats [])
    let formats ← lift (getSipAudioFormatsList audioFormats)
    modify (·.setSipAudioFormats formats)
    some <$> lift (describe w.handler sessionId sessionVersion sessionName audioFormats
      (formats.map (rtpmap ·.getSdpField)))

/-! ## Requests -/

/-- The Contact header of the local user. -/
def SipMessageHandler.contactHeader (h : SipMessageHandler) (expires : Option ℤ) : ContactHeader :=
  .address h.localSipProfile.userName h.localIPAddress h.localSipPort h.localSipProfile.displayName
    expires

/-- `LocalSipProfile.getFromHeader`. -/
def LocalSipProfile.getFromHeader (p : LocalSipProfile) : NameAddress :=
  ⟨p.userName, p.sipDomain, p.displayName, some p.tag⟩

/-- `LocalSipProfile.getToHeader`. -/
def LocalSipProfile.getToHeader (p : LocalSipProfile) : NameAddress :=
  ⟨p.userName, p.sipDomain, p.displayName, none⟩

/-- `SipContact.getToHeader`. -/
def SipContact.getToHeader (c : SipContact) : NameAddress :=
  ⟨c.sipUserName, c.sipDomain, c.sipUserName, none⟩

/-- De-registration: `UNREGISTER` and its authorised repeat. -/
def SipRequestState.unregisters (state : SipRequestState) : Bool :=
  state = .unregister ∨ state = .unregisterAuthorization

/-- The Authorization header of a REGISTER that repeats one. -/
def registerAuthorization (p : LocalSipProfile) (state : SipRequestState) :
    Except JException (Option Authorization) :=
  if state = .authorization ∨ state = .unregisterAuthorization then
    some <$> p.getAuthorizationHeader env.md5 (env.hostURI p.sipDomain)
  else .ok none

/-- The REGISTER that `register` builds. -/
def registerRequest (h : SipMessageHandler) (callId : CallId) (state : SipRequestState)
    (authorization : Option Authorization) : SipRequest where
  method := .register
  requestUser := h.localSipProfile.userName
  requestHost := h.localSipProfile.sipDomain
  requestPort := none
  callId := callId
  cSeq := h.callSequence
  fromHeader := h.localSipProfile.getFromHeader
  toHeader := h.localSipProfile.getToHeader
  via := ⟨h.localIPAddress, h.localSipPort, true⟩
  maxForwards := 70
  expires := if state.unregisters then some 0 else none
  contact := if state.unregisters then some .wildcard else some (h.contactHeader (some 3600))
  authorization := authorization
  content := none

/-- `SipMessageHandler.register`. -/
def SipMessageHandler.register (state : SipRequestState) : M Unit := do
  call env .createAddresses
  let callId ← freshId
  call env .createRequest
  let w ← get
  let authorization ← lift (registerAuthorization env w.handler.localSipProfile state)
  let t ← getNewClientTransaction env (registerRequest w.handler callId state authorization)
  modify (·.setClientTransaction (some t))
  t.sendRequest env

/-- A new Call-ID for a new call, none for the authorised repeat. -/
def renewCallID (state : SipRequestState) : M Unit :=
  if state = .register then do
    let callId ← freshId
    modify (·.setCallID (some callId))
  else pure ()

/-- The Proxy-Authorization header of an INVITE that repeats one. -/
def inviteAuthorization (p : LocalSipProfile) (state : SipRequestState) :
    Except JException (Option Authorization) :=
  if state = .authorization then
    some <$> p.getProxyAuthorizationHeader env.md5 (env.hostURI p.sipDomain)
  else .ok none

/-- The INVITE that `sendInvite` builds. -/
def inviteRequest (h : SipMessageHandler) (callId : CallId) (contact : SipContact)
    (authorization : Option Authorization) (sdp : SessionDescription) : SipRequest where
  method := .invite
  requestUser := contact.sipUserName
  requestHost := contact.sipDomain
  requestPort := if contact.isLocalContact then some contact.sipPort else none
  callId := callId
  cSeq := h.callSequence
  fromHeader := h.localSipProfile.getFromHeader
  toHeader := contact.getToHeader
  via := ⟨h.localIPAddress, h.localSipPort, !contact.isLocalContact⟩
  maxForwards := 70
  expires := some 120
  contact := some (h.contactHeader none)
  authorization := authorization
  content := some sdp

/-- `SipMessageHandler.sendInvite`. -/
def SipMessageHandler.sendInvite (contact : SipContact) (state : SipRequestState) : M Unit := do
  call env .createAddresses
  renewCallID state
  let w ← get
  let callId ← lift (nonNull w.handler.currentCallID)
  call env .createRequest
  let authorization ← lift (inviteAuthorization env w.handler.localSipProfile state)
  let sdp ← createOffer env
  let t ← getNewClientTransaction env (inviteRequest w.handler callId contact authorization sdp)
  modify (·.setClientTransaction (some t))
  t.sendRequest env
  modify (·.setDialog t.dialog)

/-- `sendAck`: `callSequence++` is evaluated before the dialog is used. -/
def sendAck : M Unit := do
  let w ← get
  modify (·.setCallSequence (w.handler.callSequence + 1))
  let d ← lift (nonNull w.handler.currentDialog)
  call env .createAck
  call env .sendAck
  modify (·.emit (.ack d w.handler.callSequence))

/-- `sendBye`, on a client transaction of its own. -/
def sendBye : M Unit := do
  let w ← get
  let d ← lift (nonNull w.handler.currentDialog)
  call env .createBye
  call env .getNewClientTransaction
  modify World.tick
  call env .sendRequest
  modify (·.emit (.bye d))

/-- `sendCancel`: the CANCEL is built from the last client transaction and replaces it. -/
def sendCancel : M Unit := do
  let w ← get
  let target ← lift (nonNull w.handler.clientTransaction)
  call env .createCancel
  let t ← getNewClientTransaction env target.request.toCancel
  modify (·.setClientTransaction (some t))
  call env .sendRequest
  modify (·.emit (.cancel target))

/-! ## Responses -/

/-- The cached server transaction, created for `invite` when there is none. -/
def cachedTransaction (invite : Request) : M ServerTransaction := do
  let w ← get
  match w.handler.serverTransaction with
  | some t => pure t
  | none => do
    let t ← getNewServerTransaction env invite
    modify (·.setServerTransaction (some t))
    return t

/-- The four senders that differ in their status code only. -/
def reply (code : ℕ) (invite : Option Request) : M Unit := do
  let response ← createResponse env code invite
  let t ← cachedTransaction env response.request
  t.sendResponse env response

def sendRinging (invite : Option Request) : M Unit := reply env 180 invite

def sendDecline (invite : Option Request) : M Unit := reply env 603 invite

def sendBusyHere (invite : Option Request) : M Unit := reply env 486 invite

def sendNotFound (invite : Option Request) : M Unit := reply env 404 invite

/-- `sendOK`: without a transaction the response carries the answer to the request's
    offer and goes out on the cached one. -/
def sendOK (request : Request) (transaction : Option ServerTransaction) : M Unit := do
  let response ← createResponse env 200 (some request)
  match transaction with
  | none => do
    call env .createContact
    let w ← get
    let sdp ← createAnswer env request
    let sdp ← lift (nonNull sdp)
    let t ← cachedTransaction env request
    t.sendResponse env { response with contact := some (w.handler.contactHeader (some 3600))
                                       content := some sdp }
  | some t => t.sendResponse env response

end

/-- `SipMessageHandler.reset`. -/
def SipMessageHandler.reset (h : SipMessageHandler) : SipMessageHandler :=
  { h with serverTransaction := none, clientTransaction := none, currentDialog := none,
           currentCallID := none, callSequence := 1 }

end JaySip
