/-
  The state of the client: `SipService`, its `SipMessageHandler`, and the SIP stack
  as far as the two see it.

  The stack is the environment.  In each step `Env.fails` says which of its calls
  throw; fresh identifiers come from one counter, and what is sent or broadcast in
  the step is collected in `out`.
-/
import JaySip.Java.Exec
import JaySip.Sip.Session

namespace JaySip

open Java

/-- `SipManagerState`. -/
inductive SipManagerState where
  | registering | unregistering | ready | ringing | calling | established | idle | incoming
  | timeout | error | busy | declined | invalid | bye
  deriving DecidableEq, Repr

/-- `SipRequestState`. -/
inductive SipRequestState where
  | register | authorization | unregister | unregisterAuthorization
  deriving DecidableEq, Repr

/-- The calls into the stack and its factories that can throw. -/
inductive StackCall where
  | createAddresses | createRequest | createContact | createResponse | createDescription
  | getNewServerTransaction | getNewClientTransaction
  | sendRequest | sendResponse
  | createAck | sendAck | createBye | createCancel
  deriving DecidableEq, Repr

/-- What the environment decides in one step: the exception each stack call throws, if
    any, name resolution, the tag of the dialog a new client transaction gets (`none`
    for no dialog), the text of a domain's URI, and MD5. -/
structure Env where
  fails : StackCall → Option JException
  getByName : Str → Option Str
  dialogTag : Option ℕ
  hostURI : Str → Str
  md5 : Digest

/-- No stack call throws. -/
def Env.Succeeds (env : Env) : Prop := ∀ c, env.fails c = none

/-- What leaves the client in a step. -/
inductive Output where
  | request (t : ClientTransaction)
  | cancel (target : ClientTransaction)
  | ack (d : Dialog) (cSeq : ℤ)
  | bye (d : Dialog)
  | response (t : ServerTransaction) (r : Reply)
  | status (state : SipManagerState) (info : Option Str)
  deriving DecidableEq, Repr

/-- The fields of `SipMessageHandler`.  `mSipAudioFormats` starts as `null`; it is
    assigned before it is read. -/
structure SipMessageHandler where
  localSipProfile : LocalSipProfile
  localIPAddress : Str
  localSipPort : ℤ
  serverTransaction : Option ServerTransaction
  clientTransaction : Option ClientTransaction
  currentCallID : Option CallId
  currentDialog : Option Dialog
  mSipAudioFormats : List SipAudioFormat
  callSequence : ℤ
  deriving DecidableEq, Repr

/-- The fields of `SipService`. -/
structure SipService where
  currentState : SipManagerState
  currentSession : Option SipSession
  currentContact : Option SipContact
  currentRequest : Option Request
  currentsdp : Option SessionDescription
  registerTryCount : ℤ
  deriving DecidableEq, Repr

/-- The client: its two objects, the stack's counter, and the outputs of the last step. -/
structure World where
  service : SipService
  handler : SipMessageHandler
  fresh : ℕ
  out : List Output
  deriving DecidableEq, Repr

/-- The client after `createInstance`. -/
def World.start (profile : LocalSipProfile) (localIPAddress : Str) (localSipPort : ℤ) : World where
  service := ⟨.idle, none, none, none, none, 0⟩
  handler := ⟨profile, localIPAddress, localSipPort, none, none, none, none, [], 1⟩
  fresh := 0
  out := []

/-! ## The constructor -/

/-- `(int) ((maxPort - minPort) * Math.random()) + minPort`. -/
def randomPort (draw : Fin 1000) : ℤ := draw + 5000

/-- The loop of the constructor of `SipMessageHandler`: each attempt that fails draws another
    port, and the one after the last of them succeeds. -/
def bindPort (localSipPort : ℤ) : List (Fin 1000) → ℤ
  | [] => localSipPort
  | draw :: draws => bindPort (randomPort draw) draws

/-- The client after `createInstance`, when `draws` were drawn.  The field `localSipPort` is set
    before the loop, the profile behind it. -/
def World.create (profile : LocalSipProfile) (localIPAddress : Str) (localSipPort : ℤ)
    (draws : List (Fin 1000)) : World :=
  World.start { profile with localSipPort := bindPort localSipPort draws } localIPAddress
    localSipPort

/-- Methods of the client. -/
abbrev M := EStateM JException World

/-! ## Updates -/

namespace World
variable (w : World)

@[simps service handler fresh out]
def emit (o : Output) : World := { w with out := w.out ++ [o] }

@[simps service handler fresh out]
def tick : World := { w with fresh := w.fresh + 1 }

@[simps service handler fresh out]
def setState (st : SipManagerState) : World :=
  { w with service := { w.service with currentState := st } }

@[simps service handler fresh out]
def setSession (s : Option SipSession) : World :=
  { w with service := { w.service with currentSession := s } }

@[simps service handler fresh out]
def setContact (c : Option SipContact) : World :=
  { w with service := { w.service with currentContact := c } }

@[simps service handler fresh out]
def setRequest (r : Option Request) : World :=
  { w with service := { w.service with currentRequest := r } }

@[simps service handler fresh out]
def setSdp (d : Option SessionDescription) : World :=
  { w with service := { w.service with currentsdp := d } }

@[simps service handler fresh out]
def setTryCount (n : ℤ) : World :=
  { w with service := { w.service with registerTryCount := n } }

@[simps service handler fresh out]
def setServerTransaction (t : Option ServerTransaction) : World :=
  { w with handler := { w.handler with serverTransaction := t } }

@[simps service handler fresh out]
def setClientTransaction (t : Option ClientTransaction) : World :=
  { w with handler := { w.handler with clientTransaction := t } }

@[simps service handler fresh out]
def setCallID (c : Option CallId) : World :=
  { w with handler := { w.handler with currentCallID := c } }

@[simps service handler fresh out]
def setDialog (d : Option Dialog) : World :=
  { w with handler := { w.handler with currentDialog := d } }

@[simps service handler fresh out]
def setSipAudioFormats (fs : List SipAudioFormat) : World :=
  { w with handler := { w.handler with mSipAudioFormats := fs } }

@[simps service handler fresh out]
def setCallSequence (n : ℤ) : World :=
  { w with handler := { w.handler with callSequence := n } }

/-- `setNonce` and `setRealm`. -/
@[simps service handler fresh out]
def setChallenge (nonce realm : Option Str) : World :=
  { w with handler := { w.handler with
    localSipProfile := { w.handler.localSipProfile with nonce := nonce, realm := realm } } }

/-- `setStatusChanged`: the new state, and its broadcast. -/
@[simps! service handler fresh out]
def setStatusChanged (st : SipManagerState) (info : Option Str) : World :=
  (w.setState st).emit (.status st info)

end World

end JaySip
