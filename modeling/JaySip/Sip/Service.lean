/-
  `SipService`: the local operations and the listener methods of the stack, and the
  client as a machine.
-/
import JaySip.Machine
import JaySip.Sip.Handler

namespace JaySip

open Java

section
variable (env : Env)

/-! ## Local operations -/

def register : M Unit := do
  setStatusChanged .registering none
  SipMessageHandler.register env .register

def unregister : M Unit := do
  setStatusChanged .unregistering none
  SipMessageHandler.register env .unregister

def sendInvite (contact : SipContact) : M Unit := do
  modify (·.setContact (some contact))
  modify (·.setSession none)
  setStatusChanged .calling none
  SipMessageHandler.sendInvite env contact .register

def acceptCall : M Unit := do
  let w ← get
  match w.service.currentRequest with
  | some request => sendOK env request none
  | none => pure ()

def declineCall : M Unit := do
  let w ← get
  match w.service.currentRequest with
  | some request => sendDecline env (some request)
  | none => pure ()

def endCall : M Unit := do
  let w ← get
  if w.service.currentState = .established then sendBye env else sendCancel env

/-- `SipService.reset`.  The test for `ESTABLISHED` only clears the session once more. -/
def reset : M Unit := do
  modify fun w => { w with handler := w.handler.reset }
  modify (·.setContact none)
  modify (·.setRequest none)
  modify (·.setSession none)
  setStatusChanged .ready none

/-! ## Requests -/

/-- The body of the INVITE branch, inside its `try`. -/
def processInvite (request : Request) : M Unit := do
  let w ← get
  if w.service.currentSession = none then do
    let sdpSession ← lift (descriptionOf request.rawContent)
    let currentsdp ← createAnswer env request
    modify (·.setSdp currentsdp)
    if currentsdp = none then sendDecline env w.service.currentRequest
    else do
      let session ← lift (createSipSession env.getByName request.toMessage (.request request.id)
        sdpSession)
      modify fun w => w.setSession (some { session with
        incoming := true, audioFormats := w.handler.mSipAudioFormats.map some })
      let callTO ← lift session.calledUser
      if callTO = w.handler.localSipProfile.userName then do
        modify (·.setRequest (some request))
        sendRinging env (some request)
        let number ← lift session.getCallerNumber
        setStatusChanged .incoming (some number)
        -- `setCallStatus` broadcasts the same once more
        modify (·.emit (.status .incoming (some number)))
      else sendNotFound env (some request)
  else sendBusyHere env (some request)

/-- The ACK branch. -/
def processAck (dialog : Option Dialog) : M Unit := do
  let w ← get
  match w.service.currentSession with
  | some session => do
    modify (·.setDialog dialog)
    let number ← lift session.getCallerNumber
    setStatusChanged .established (some number)
  | none => pure ()

/-- The server transaction of an event, if the stack has one. -/
def RequestEvent.getServerTransaction (ev : RequestEvent) (request : Request) :
    M (Option ServerTransaction) :=
  if ev.hasTransaction then do
    let id ← freshId
    return some ⟨id, request⟩
  else pure none

/-- The BYE branch. -/
def processBye (request : Request) (transaction : Option ServerTransaction) : M Unit := do
  tryCatch (sendOK env request transaction) fun _ => setStatusChanged .error none
  setStatusChanged .bye none
  reset

/-- `processRequest`, on the request object that the stack made of the message. -/
def processRequest (ev : RequestEvent) : M Unit := do
  let id ← freshId
  let request : Request := ⟨ev.message, id⟩
  match request.method with
  | .invite => tryCatch (processInvite env request) fun _ => setStatusChanged .error none
  | .cancel => reset
  | .ack => processAck ev.getDialog
  | .bye => do
    let transaction ← ev.getServerTransaction request
    processBye env request transaction
  | _ => pure ()

/-! ## Responses -/

/-- Status 180, before it falls through. -/
def processRinging : M Unit := do
  let w ← get
  if w.service.currentState = .calling then setStatusChanged .ringing none else pure ()

/-- The answer to an INVITE: the session, the negotiated formats and the ACK. -/
def establish (ev : ResponseEvent) : M Unit := do
  let sdpSession ← lift (descriptionOf ev.response.rawContent)
  let session ← lift (createSipSession env.getByName ev.response.toMessage
    (.response ev.response.callId) sdpSession)
  modify (·.setSession (some session))
  let w ← get
  let audioFormats ← lift (negotiate w.handler.localSipProfile sdpSession)
  let tempa ← lift (getSipAudioFormatsList audioFormats)
  modify (·.setSession (some { session with audioFormats := tempa.map some, incoming := false }))
  modify (·.setDialog ev.getDialog)
  sendAck env
  setStatusChanged .established none

/-- Status 200, and what follows 180. -/
def processOK (ev : ResponseEvent) : M Unit := do
  let w ← get
  if (w.service.currentState = .ringing ∨ w.service.currentState = .calling) ∧
      ev.response.rawContent ≠ none ∧ ev.getDialog ≠ none then
    establish env ev
  else if w.service.currentState = .registering then do
    setStatusChanged .ready none
    modify (·.setTryCount 0)
  else if w.service.currentState = .unregistering then do
    setStatusChanged .idle none
    modify (·.setTryCount 0)
  else pure ()

/-- Status 401. -/
def processUnauthorized (response : Response) : M Unit := do
  modify fun w => w.setTryCount (w.service.registerTryCount + 1)
  let authHeader ← lift (nonNull response.wwwAuthenticate)
  modify (·.setChallenge authHeader.nonce authHeader.realm)
  let w ← get
  if w.service.currentState = .registering then SipMessageHandler.register env .authorization
  else if w.service.currentState = .unregistering then
    SipMessageHandler.register env .unregisterAuthorization
  else pure ()

/-- Status 407. -/
def processProxyAuthentication (response : Response) : M Unit := do
  modify fun w => w.setTryCount (w.service.registerTryCount + 1)
  let w ← get
  match w.service.currentSession, w.service.currentContact with
  | none, some contact => do
    let authHeader ← lift (nonNull response.proxyAuthenticate)
    modify (·.setChallenge authHeader.nonce authHeader.realm)
    if w.service.currentState = .calling then SipMessageHandler.sendInvite env contact .authorization
    else pure ()
  | _, _ => pure ()

/-- A `try` block of `processResponse`. -/
def orError (x : M Unit) : M Unit := tryCatch x fun _ => setStatusChanged .error none

/-- `processResponse`: 180 falls through into 200. -/
def processResponse (ev : ResponseEvent) : M Unit :=
  match ev.response.status with
  | 180 => do
    orError processRinging
    orError (processOK env ev)
  | 200 => orError (processOK env ev)
  | 401 => orError (processUnauthorized env ev.response)
  | 404 => setStatusChanged .invalid none
  | 407 => orError (processProxyAuthentication env ev.response)
  | 480 => setStatusChanged .declined none
  | 486 => setStatusChanged .busy none
  | 603 => setStatusChanged .declined none
  | 500 => setStatusChanged .error none
  | _ => pure ()

end

/-! ## The machine -/

/-- What can happen to the client: a local operation, or a message handed to the
    listener. -/
inductive Action where
  | register
  | unregister
  | sendInvite (contact : SipContact)
  | acceptCall
  | declineCall
  | endCall
  | reset
  | request (ev : RequestEvent)
  | response (ev : ResponseEvent)
  deriving DecidableEq, Repr

/-- An action, and what the environment decides while it runs. -/
structure Input where
  env : Env
  action : Action

/-- The method that an action runs. -/
def Action.method (env : Env) : Action → M Unit
  | .register => JaySip.register env
  | .unregister => JaySip.unregister env
  | .sendInvite contact => JaySip.sendInvite env contact
  | .acceptCall => JaySip.acceptCall env
  | .declineCall => JaySip.declineCall env
  | .endCall => JaySip.endCall env
  | .reset => JaySip.reset
  | .request ev => processRequest env ev
  | .response ev => processResponse env ev

/-- A local operation that throws, and an exception that leaves the listener, keep what
    was done before. -/
def step (w : World) (i : Input) : World := after (i.action.method i.env) { w with out := [] }

/-- The client, from any profile and address. -/
def client : Machine World Input where
  init w := ∃ profile localIPAddress localSipPort,
    w = World.start profile localIPAddress localSipPort
  step := step

end JaySip
