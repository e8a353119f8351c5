/-
  SIP messages, transactions and dialogs, as far as the code reads or builds them.

  Call-IDs and the identities of objects are numbers: the stack's own are drawn
  from one counter, those of incoming messages are whatever the peer wrote.
-/
import JaySip.Sip.Sdp
import JaySip.Sip.Profile

namespace JaySip

open Java

/-- The method of a CSeq header. -/
inductive Method where
  | invite | ack | bye | cancel | register
  | other (name : Str)
  deriving DecidableEq, Repr

abbrev CallId := ℕ

/-- A dialog of the stack: its Call-ID, and its tags. -/
structure Dialog where
  callId : CallId
  tag : ℕ
  deriving DecidableEq, Repr

/-! ## Incoming messages -/

/-- The headers and the body that the code reads of a message.  URIs are given by
    their text; `contactURI` is `none` without a Contact address. -/
structure Message where
  method : Method
  callId : CallId
  cSeq : ℤ
  fromURI : Str
  toURI : Str
  contactURI : Option Str
  rawContent : Option SdpText
  deriving DecidableEq, Repr

/-- A request handed to the listener: the message, and the identity of the object. -/
structure Request extends Message where
  id : ℕ
  deriving DecidableEq, Repr

/-- The challenge of a 401 or 407 response. -/
structure Challenge where
  nonce : Option Str
  realm : Option Str
  deriving DecidableEq, Repr

/-- A response: `method` and `cSeq` are those of the request it answers. -/
structure Response extends Message where
  status : ℕ
  wwwAuthenticate : Option Challenge := none
  proxyAuthenticate : Option Challenge := none
  deriving DecidableEq, Repr

/-- A `RequestEvent`: whether the stack has a server transaction for the request, and
    which dialog of the request's Call-ID it belongs to. -/
structure RequestEvent where
  message : Message
  hasTransaction : Bool
  dialogTag : Option ℕ
  deriving DecidableEq, Repr

def RequestEvent.getDialog (ev : RequestEvent) : Option Dialog :=
  ev.dialogTag.map (⟨ev.message.callId, ·⟩)

/-- A `ResponseEvent`. -/
structure ResponseEvent where
  response : Response
  dialogTag : Option ℕ
  deriving DecidableEq, Repr

def ResponseEvent.getDialog (ev : ResponseEvent) : Option Dialog :=
  ev.dialogTag.map (⟨ev.response.callId, ·⟩)

/-! ## Outgoing messages -/

/-- A From or To header. -/
structure NameAddress where
  user : Str
  host : Str
  displayName : Str
  tag : Option Str
  deriving DecidableEq, Repr

/-- A Contact header: `*`, or an address. -/
inductive ContactHeader where
  | wildcard
  | address (user host : Str) (port : ℤ) (displayName : Str) (expires : Option ℤ)
  deriving DecidableEq, Repr

/-- A Via header. -/
structure Via where
  host : Str
  port : ℤ
  rport : Bool
  deriving DecidableEq, Repr

/-- A request that the code builds. -/
structure SipRequest where
  method : Method
  requestUser : Str
  requestHost : Str
  requestPort : Option ℤ
  callId : CallId
  cSeq : ℤ
  fromHeader : NameAddress
  toHeader : NameAddress
  via : Via
  maxForwards : ℕ
  expires : Option ℤ
  contact : Option ContactHeader
  authorization : Option Authorization
  content : Option SessionDescription
  deriving DecidableEq, Repr

/-- The CANCEL of a request: its addresses, Call-ID and CSeq number. -/
def SipRequest.toCancel (q : SipRequest) : SipRequest :=
  { q with method := .cancel, expires := none, contact := none, authorization := none,
           content := none }

/-- A response that the code builds, with the request it answers. -/
structure Reply where
  status : ℕ
  request : Request
  contact : Option ContactHeader := none
  content : Option SessionDescription := none
  deriving DecidableEq, Repr

/-- A server transaction, with the request it was created for. -/
structure ServerTransaction where
  id : ℕ
  request : Request
  deriving DecidableEq, Repr

/-- A client transaction, with the request it was created for. -/
structure ClientTransaction where
  id : ℕ
  request : SipRequest
  dialog : Option Dialog
  deriving DecidableEq, Repr

end JaySip
