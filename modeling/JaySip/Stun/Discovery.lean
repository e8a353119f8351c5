/-
  STUN discovery: `DiscoveryTest` and `DiscoveryInfo`.

  The platform and the network are a parameter.  What arrives may depend on all requests that are
  under way, so whatever stands between client and server is a `Network`.
-/
import JaySip.Stun.Message

namespace JaySip.Stun

open Java (Str)

/-! ## What is found -/

/-- An `InetAddress`, by its bytes, and a port. -/
@[ext]
structure Endpoint where
  address : List UInt8
  port : ℕ
  deriving DecidableEq, Repr

/-- `DiscoveryInfo`. -/
structure DiscoveryInfo where
  error : Bool := false
  errorResponseCode : ℤ := 0
  errorReason : Option Str := none
  openAccess : Bool := false
  blockedUDP : Bool := false
  fullCone : Bool := false
  restrictedCone : Bool := false
  portRestrictedCone : Bool := false
  symmetric : Bool := false
  symmetricUDPFirewall : Bool := false
  publicIP : Option (List UInt8) := none
  publicPort : ℕ := 0
  localPort : ℕ := 0
  deriving DecidableEq, Repr

def DiscoveryInfo.setError (di : DiscoveryInfo) (responseCode : ℤ) (reason : Option Str) :
    DiscoveryInfo :=
  { di with error := true, errorResponseCode := responseCode, errorReason := reason }

def DiscoveryInfo.isOpenAccess (di : DiscoveryInfo) : Bool := !di.error && di.openAccess

def DiscoveryInfo.isBlockedUDP (di : DiscoveryInfo) : Bool := !di.error && di.blockedUDP

def DiscoveryInfo.isFullCone (di : DiscoveryInfo) : Bool := !di.error && di.fullCone

def DiscoveryInfo.isRestrictedCone (di : DiscoveryInfo) : Bool := !di.error && di.restrictedCone

def DiscoveryInfo.isPortRestrictedCone (di : DiscoveryInfo) : Bool :=
  !di.error && di.portRestrictedCone

def DiscoveryInfo.isSymmetric (di : DiscoveryInfo) : Bool := !di.error && di.symmetric

def DiscoveryInfo.isSymmetricUDPFirewall (di : DiscoveryInfo) : Bool :=
  !di.error && di.symmetricUDPFirewall

/-! ## The network -/

/-- The tests, each of which sends up to eight requests. -/
inductive Test where
  | test1 | test2 | test1Redo | test3
  deriving DecidableEq, Repr

/-- Why a test gives no answer. -/
inductive Stop where
  | message (e : Thrown)
  /-- `SocketException`, `UnknownHostException`, `IOException`. -/
  | platform
  | timeout
  deriving DecidableEq, Repr

/-- A request under way. -/
structure Request where
  source : Endpoint
  dest : Endpoint
  data : List UInt8
  deriving DecidableEq, Repr

/-- A datagram that reaches a socket. -/
structure Datagram where
  source : Endpoint
  data : List UInt8
  deriving DecidableEq, Repr

/-- The platform and the network in each attempt of each test, with the requests so far, the last
    one first. -/
structure Network where
  /-- The local end of a new socket. -/
  bind : Test → ℕ → List Request → Except Stop Endpoint
  /-- `InetAddress.getByName(stunServer)`. -/
  getByName : Test → ℕ → Except Stop (List UInt8)
  /-- `connect`, `setSoTimeout` and `send`. -/
  send : Test → ℕ → Except Stop Unit
  /-- `generateTransactionID`. -/
  id : Test → ℕ → { l : List UInt8 // l.length = 16 }
  /-- What each `receive` meets on the socket of the last request, once that is connected. -/
  arrivals : Test → ℕ → List Request → Endpoint → ℕ → Except Stop Datagram
  /-- A connected socket hears its peer only. -/
  connected : ∀ {test k sent peer n d}, arrivals test k sent peer n = .ok d → d.source = peer

/-! ## An attempt -/

/-- The fields of `DiscoveryTest`, and the requests so far. -/
structure DiscoveryTest where
  stunPort : ℕ
  ma : Option (Fin 65537 × Option Address) := none
  ca : Option (Fin 65537 × Option Address) := none
  nodeNatted : Bool := true
  /-- The local end of the socket. -/
  socketTest1 : Option Endpoint := none
  di : DiscoveryInfo := {}
  sent : List Request := []
  deriving DecidableEq, Repr

/-- An exception of messages. -/
def ofMessage {α : Type} : Except Thrown α → Except Stop α
  | .ok a => .ok a
  | .error e => .error (.message e)

/-- `a.getAddress().getInetAddress()` and `a.getPort()`. -/
def endpointOf (a : Option (Fin 65537 × Option Address)) : Except Stop Endpoint := do
  let (port, address) ← ofMessage (nonNull a)
  let address ← ofMessage (nonNull address)
  return ⟨← ofMessage address.getBytes, port.val⟩

/-- The attribute of a type that has a port and an address. -/
def addressAttribute (mh : MessageHeader) (type : MessageAttributeType) :
    Option (Fin 65537 × Option Address) :=
  match mh.getMessageAttribute type with
  | some (.socketAddress _ port address) => some (port, address)
  | _ => none

/-- `setError`, if there is an ERROR-CODE. -/
def errorInfo (mh : MessageHeader) (di : DiscoveryInfo) : Option DiscoveryInfo :=
  match mh.getMessageAttribute .ErrorCode with
  | some (.errorCode responseCode reason) => some (di.setError responseCode reason)
  | _ => none

/-- The buffer that a datagram is received in. -/
def buffer (data : List UInt8) : List UInt8 := (data ++ List.replicate 200 0).take 200

/-- `parseHeader` and `parseAttributes`; the latter ends within 65536 turns or never. -/
def parse (cs : Charset) (data : List UInt8) : Option (Except Stop MessageHeader) :=
  match parseHeader data with
  | .error e => some (.error (.message e))
  | .ok mh => (mh.parseAttributes cs data 65536).map ofMessage

/-- `receive`, `parseHeader` and `parseAttributes`, for what the receive meets. -/
def heard (cs : Charset) : Except Stop Datagram → Option (Except Stop MessageHeader)
  | .error e => some (.error e)
  | .ok datagram => parse cs (buffer datagram.data)

/-- The variables of the loop that waits for the response, and the datagrams received. -/
structure Wait where
  n : ℕ
  receiveMH : MessageHeader

/-- A turn of that loop.  One that parses forever is as if it came back to its beginning. -/
def receiveTurn (cs : Charset) (sendMH : MessageHeader) (arrivals : ℕ → Except Stop Datagram)
    (s : Wait) : Wait ⊕ Except Stop MessageHeader :=
  if s.receiveMH.equalTransactionID sendMH then .inr (.ok s.receiveMH)
  else match heard cs (arrivals s.n) with
    | none => .inl s
    | some (.error e) => .inr (.error e)
    | some (.ok receiveMH) => .inl ⟨s.n + 1, receiveMH⟩

/-- The response, if the loop ends within `turns` turns. -/
def receive (cs : Charset) (sendMH : MessageHeader) (arrivals : ℕ → Except Stop Datagram)
    (turns : ℕ) : Option (Except Stop MessageHeader) :=
  Iteration.run (receiveTurn cs sendMH arrivals) turns ⟨0, .new none⟩

/-- The ends of an attempt: it is sent from `socket` to `server`, and only `peer` is heard. -/
structure Ends where
  socket : Endpoint
  server : Endpoint
  peer : Endpoint

/-- What sets the tests apart: which change they request, their sockets, what they make of a
    response, where `none` is to go on, and of silence. -/
structure Procedure where
  test : Test
  changeIP : Bool
  changePort : Bool
  ends : Network → ℕ → DiscoveryTest → Except Stop (DiscoveryTest × Ends)
  conclude : DiscoveryTest → MessageHeader → Except Stop (DiscoveryTest × Option Bool)
  giveUp : DiscoveryTest → DiscoveryTest × Bool

/-- The request of an attempt. -/
def Procedure.sendMH (p : Procedure) (net : Network) (k : ℕ) : MessageHeader :=
  { MessageHeader.new (some .BindingRequest) with id := net.id p.test k }.addMessageAttribute
    (.changeRequest p.changeIP p.changePort)

/-- An attempt until its request is sent, with the peer whose response it waits for. -/
def Procedure.send (p : Procedure) (cs : Charset) (net : Network) (k : ℕ) (t : DiscoveryTest) :
    Except Stop (DiscoveryTest × Endpoint) := do
  let (t, ends) ← p.ends net k t
  let data ← ofMessage ((p.sendMH net k).getBytes cs)
  net.send p.test k
  return ({ t with sent := ⟨ends.socket, ends.server, data⟩ :: t.sent }, ends.peer)

/-- An attempt, if it ends within `turns` turns.  What it has sent stays sent when it times
    out. -/
def Procedure.attempt (p : Procedure) (cs : Charset) (net : Network) (turns k : ℕ)
    (t : DiscoveryTest) : Option (DiscoveryTest × Except Stop (Option Bool)) :=
  match p.send cs net k t with
  | .error e => some (t, .error e)
  | .ok (t, peer) =>
    (receive cs (p.sendMH net k) (net.arrivals p.test k t.sent peer) turns).map fun mh =>
      match mh >>= p.conclude t with
      | .error e => (t, .error e)
      | .ok (t', b) => (t', .ok b)

/-! ## Attempts until there is a response -/

/-- The variables of a test. -/
structure Retry where
  k : ℕ
  timeSinceFirstTransmission : ℕ
  timeout : ℕ
  t : DiscoveryTest

/-- A turn of the loop of a test; `none` is a turn whose attempt is not over. -/
def Procedure.turn (p : Procedure) (cs : Charset) (net : Network) (turns : ℕ) (s : Retry) :
    Retry ⊕ Option (Except Stop (DiscoveryTest × Bool)) :=
  match p.attempt cs net turns s.k s.t with
  | none => .inr none
  | some (t, .ok (some b)) => .inr (some (.ok (t, b)))
  | some (t, .ok none) => .inl { s with k := s.k + 1, t }
  | some (t, .error .timeout) =>
    if s.timeSinceFirstTransmission < 7900 then
      let timeSinceFirstTransmission := s.timeSinceFirstTransmission + s.timeout
      .inl { k := s.k + 1, timeSinceFirstTransmission
             timeout := min (timeSinceFirstTransmission * 2) 1600, t }
    else .inr (some (.ok (p.giveUp t)))
  | some (_, .error e) => .inr (some (.error e))

/-- A test, if it ends within so many attempts, and these within `turns` turns each. -/
def Procedure.run (p : Procedure) (cs : Charset) (net : Network) (attempts turns : ℕ)
    (t : DiscoveryTest) : Option (Except Stop (DiscoveryTest × Bool)) :=
  (Iteration.run (p.turn cs net turns) attempts
    { k := 0, timeSinceFirstTransmission := 0, timeout := 300, t }).join

/-! ## The tests -/

/-- Why there is an error 700. -/
def incompleteTest1 : Str :=
  ("The server is sending an incomplete response (Mapped Address and Changed Address message " ++
    "attributes are missing). The client should not retry.").toList

def incompleteRedo : Str :=
  ("The server is sending an incomplete response (Mapped Address message attribute is missing). " ++
    "The client should not retry.").toList

/-- The server, from a new socket. -/
def newEnds (test : Test) (net : Network) (k : ℕ) (t : DiscoveryTest) :
    Except Stop (Endpoint × Endpoint) := do
  let socket ← net.bind test k t.sent
  return (socket, ⟨← net.getByName test k, t.stunPort⟩)

def test1 : Procedure where
  test := .test1
  changeIP := false
  changePort := false
  ends net k t := do
    let (socket, server) ← newEnds .test1 net k t
    return ({ t with socketTest1 := some socket }, ⟨socket, server, server⟩)
  conclude t mh := do
    let ma := addressAttribute mh .MappedAddress
    let ca := addressAttribute mh .ChangedAddress
    let t := { t with ma, ca }
    if let some di := errorInfo mh t.di then return ({ t with di }, some false)
    if ma.isNone || ca.isNone then
      return ({ t with di := t.di.setError 700 (some incompleteTest1) }, some false)
    let mapped ← endpointOf ma
    let socketTest1 ← ofMessage (nonNull t.socketTest1)
    let di := { t.di with publicIP := some mapped.address, localPort := socketTest1.port }
    if mapped.port = socketTest1.port ∧ mapped.address = socketTest1.address then
      return ({ t with nodeNatted := false, di := { di with publicPort := socketTest1.port } },
        some true)
    else return ({ t with di := { di with publicPort := mapped.port } }, some true)
  giveUp t := ({ t with di := { t.di with blockedUDP := true } }, false)

def test2 : Procedure where
  test := .test2
  changeIP := true
  changePort := true
  ends net k t := do
    let (socket, server) ← newEnds .test2 net k t
    return (t, ⟨socket, server, ← endpointOf t.ca⟩)
  conclude t mh := do
    if let some di := errorInfo mh t.di then return ({ t with di }, some false)
    if !t.nodeNatted then return ({ t with di := { t.di with openAccess := true } }, some false)
    else return ({ t with di := { t.di with fullCone := true } }, some false)
  giveUp t :=
    if !t.nodeNatted then ({ t with di := { t.di with symmetricUDPFirewall := true } }, false)
    else (t, true)

def test1Redo : Procedure where
  test := .test1Redo
  changeIP := false
  changePort := false
  ends _ _ t := do
    let socketTest1 ← ofMessage (nonNull t.socketTest1)
    let changed ← endpointOf t.ca
    return (t, ⟨socketTest1, changed, changed⟩)
  conclude t mh := do
    let ma2 := addressAttribute mh .MappedAddress
    if let some di := errorInfo mh t.di then return ({ t with di }, some false)
    if ma2.isNone then
      return ({ t with di := t.di.setError 700 (some incompleteRedo) }, some false)
    if (← endpointOf t.ma) ≠ (← endpointOf ma2) then
      return ({ t with di := { t.di with symmetric := true } }, some false)
    else return (t, some true)
  giveUp t := (t, false)

/-- `test3`, whose result is not used.  A node that is not natted would try again. -/
def test3 : Procedure where
  test := .test3
  changeIP := false
  changePort := true
  ends net k t := do
    let (socket, server) ← newEnds .test3 net k t
    return (t, ⟨socket, server, ⟨server.address, (← endpointOf t.ca).port⟩⟩)
  conclude t mh := do
    if let some di := errorInfo mh t.di then return ({ t with di }, some false)
    if t.nodeNatted then
      return ({ t with di := { t.di with restrictedCone := true } }, some false)
    else return (t, none)
  giveUp t := ({ t with di := { t.di with portRestrictedCone := true } }, false)

/-! ## The discovery -/

/-- What follows a test that returns true. -/
def ifTrue (r : Option (Except Stop (DiscoveryTest × Bool)))
    (next : DiscoveryTest → Option (Except Stop (DiscoveryTest × Bool))) :
    Option (Except Stop (DiscoveryTest × Bool)) :=
  match r with
  | some (.ok (t, true)) => next t
  | r => r

/-- The tests of `test`. -/
def tests (cs : Charset) (net : Network) (stunPort attempts turns : ℕ) :
    Option (Except Stop (DiscoveryTest × Bool)) :=
  ifTrue (test1.run cs net attempts turns { stunPort }) fun t =>
    ifTrue (test2.run cs net attempts turns t) fun t =>
      ifTrue (test1Redo.run cs net attempts turns t) fun t =>
        test3.run cs net attempts turns t

/-- What `test` does behind its tests. -/
def close (r : Except Stop (DiscoveryTest × Bool)) :
    Except Stop (DiscoveryInfo × List Request) := do
  let (t, _) ← r
  -- `socketTest1.close()`
  let _ ← ofMessage (nonNull t.socketTest1)
  return (t.di, t.sent)

/-- `DiscoveryTest.test`, with the requests it has sent. -/
def test (cs : Charset) (net : Network) (stunPort attempts turns : ℕ) :
    Option (Except Stop (DiscoveryInfo × List Request)) :=
  (tests cs net stunPort attempts turns).map close

end JaySip.Stun
