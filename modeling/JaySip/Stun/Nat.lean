/-
  What discovery is about: a server with two addresses and two ports, behind one of the NATs and
  firewalls that it tells apart.

  The gateway decides by the requests that have passed it which datagrams it lets in.  Which of the
  responses it lets in arrive, how often and in which attempt is left open.
-/
import JaySip.Stun.Discovery
import JaySip.Proof.StunMessage

namespace JaySip.Stun

/-! ## Gateways -/

/-- What stands between client and server. -/
inductive Kind where
  | openAccess | blockedUDP | fullCone | restrictedCone | portRestrictedCone | symmetric
  | symmetricUDPFirewall
  deriving DecidableEq, Repr

/-- The flag of a kind. -/
def Kind.shown (di : DiscoveryInfo) : Kind → Bool
  | openAccess => di.isOpenAccess
  | blockedUDP => di.isBlockedUDP
  | fullCone => di.isFullCone
  | restrictedCone => di.isRestrictedCone
  | portRestrictedCone => di.isPortRestrictedCone
  | symmetric => di.isSymmetric
  | symmetricUDPFirewall => di.isSymmetricUDPFirewall

/-- A datagram from `source` may come in where one has gone out to `contacted`. -/
def Kind.admits (contacted source : Endpoint) : Kind → Bool
  | blockedUDP => false
  | openAccess | fullCone => true
  | restrictedCone => contacted.address = source.address
  | portRestrictedCone | symmetric | symmetricUDPFirewall => contacted = source

/-- An IPv4 address and a port. -/
@[ext]
structure Outside where
  address : Address
  port : Fin 65536
  deriving DecidableEq, Repr

def Outside.endpoint (e : Outside) : Endpoint :=
  ⟨[e.address.firstOctet, e.address.secondOctet, e.address.thirdOctet, e.address.fourthOctet],
    e.port.val⟩

/-- How a kind of gateway maps a client, seen from `dest` and from `dest'`. -/
def Kind.Translates (map : Endpoint → Endpoint → Outside) (inside : Outside)
    (dest dest' : Endpoint) : Kind → Prop
  | fullCone | restrictedCone | portRestrictedCone =>
    map inside.endpoint dest ≠ inside ∧
      map inside.endpoint dest' = map inside.endpoint dest
  | symmetric => map inside.endpoint dest ≠ inside ∧
      map inside.endpoint dest' ≠ map inside.endpoint dest
  | openAccess | symmetricUDPFirewall => map inside.endpoint dest = inside
  | blockedUDP => True

/-! ## The server -/

/-- An attribute with an address. -/
def addressTlv (type : ℕ) (htype : type < 65536) (e : Outside) : Tlv where
  type
  value := [0, 1, byteOf e.port.val 1, byteOf e.port.val 0, e.address.firstOctet,
    e.address.secondOctet, e.address.thirdOctet, e.address.fourthOctet]
  type_lt := htype
  length_lt := show 8 < 65536 by decide

/-- A server, with what else it puts in its responses: they fit in the client's buffer. -/
structure Server where
  address : Bool → Address
  port : Bool → Fin 65536
  address_ne : address true ≠ address false
  port_ne : port true ≠ port false
  extra : List Tlv
  extra_known : ∀ t ∈ extra, ∃ a, t.attribute = some a ∧ a.getType ≠ .MappedAddress ∧
    a.getType ≠ .ChangedAddress
  extra_short : (body extra).length ≤ 156

/-- Its ends: with the other address, with the other port. -/
def Server.ends (s : Server) (ip port : Bool) : Outside := ⟨s.address ip, s.port port⟩

/-- The transaction of a request. -/
def transaction (data : List UInt8) : List UInt8 := (data.drop 4).take 16

/-- The flags of the CHANGE-REQUEST that a request begins with. -/
def flag (data : List UInt8) (bit : ℕ) : Bool := (data.getD 27 0).toNat.testBit bit

/-- The response to a request that reaches the end with `ip` and `port` from `mapped`. -/
def Server.response (s : Server) (data : List UInt8) (ip port : Bool) (mapped : Outside) :
    Datagram where
  source := (s.ends (ip ^^ flag data 2) (port ^^ flag data 1)).endpoint
  data := message 0x0101 (transaction data) (addressTlv 1 (by decide) mapped ::
    addressTlv 5 (by decide) (s.ends (!ip) (!port)) :: s.extra)

/-! ## The world -/

/-- A client, a gateway and a server.  In attempt `k` of a test, the responses to the requests at
    the places `delivered` arrive, as far as the gateway lets them in: a response may be lost, be
    late, or come more than once. -/
structure World where
  kind : Kind
  server : Server
  map : Endpoint → Endpoint → Outside
  translates : ∀ inside, kind.Translates map inside (server.ends false false).endpoint
    (server.ends true true).endpoint
  localAddress : Address
  /-- The port that the client is given, or 0 to take any. -/
  localPort : Fin 65536
  /-- The ports that the platform chooses: such as are not in use. -/
  ephemeral : Test → ℕ → Fin 65536
  ephemeral_ne : ∀ test k, ephemeral test k ≠ localPort
  ephemeral_inj : ∀ test test' k k', k < 8 → k' < 8 → ephemeral test k = ephemeral test' k' →
    test = test' ∧ k = k'
  id : Test → ℕ → { l : List UInt8 // l.length = 16 }
  id_ne : ∀ test k, k < 8 → (id test k).val ≠ List.replicate 16 0
  id_inj : ∀ test test' k k', k < 8 → k' < 8 → id test k = id test' k' → test = test' ∧ k = k'
  delivered : Test → ℕ → List ℕ

/-- Where a test would like its socket to be: only test 1 uses the port that is given. -/
def World.socket (w : World) (test : Test) (k : ℕ) : Outside where
  address := w.localAddress
  port := if test = .test1 ∧ w.localPort.val ≠ 0 then w.localPort else w.ephemeral test k

/-- A datagram from `source` gets to the sender of `r`, after the requests `sent`. -/
def World.passes (w : World) (sent : List Request) (r : Request) (source : Endpoint) : Bool :=
  sent.any fun c => decide (c.source = r.source) &&
    decide (w.map c.source c.dest = w.map r.source r.dest) && w.kind.admits c.dest source

/-- The response to a request, if the gateway lets it in. -/
def World.response (w : World) (sent : List Request) (r : Request) : Option Datagram :=
  [(false, false), (false, true), (true, false), (true, true)].findSome? fun (ip, port) =>
    if (w.server.ends ip port).endpoint = r.dest then
      let d := w.server.response r.data ip port (w.map r.source r.dest)
      if w.passes sent r d.source then some d else none
    else none

/-- What arrives at the socket of the last request. -/
def World.arrivals (w : World) (test : Test) (k : ℕ) (sent : List Request) : List Datagram :=
  (w.delivered test k).filterMap fun i => do
    let now ← sent.head?
    let r ← sent[i]?
    if r.source = now.source then w.response sent r else none

/-- Datagrams, and then silence. -/
def thenSilence (l : List Datagram) (n : ℕ) : Except Stop Datagram :=
  match l[n]? with
  | some d => .ok d
  | none => .error .timeout

theorem mem_of_thenSilence {l : List Datagram} {n : ℕ} {d : Datagram}
    (h : thenSilence l n = .ok d) : d ∈ l := by
  unfold thenSilence at h
  split at h
  next hd =>
    cases h
    exact List.mem_of_getElem? hd
  next => cases h

/-- The sockets that requests were sent from are not closed, and stay bound. -/
def World.network (w : World) : Network where
  bind test k sent :=
    if sent.any (·.source = (w.socket test k).endpoint) then .error .platform
    else .ok (w.socket test k).endpoint
  getByName _ _ := .ok (w.server.ends false false).endpoint.address
  send _ _ := .ok ()
  id := w.id
  arrivals test k sent peer := thenSilence ((w.arrivals test k sent).filter (·.source = peer))
  connected h := of_decide_eq_true (List.mem_filter.1 (mem_of_thenSilence h)).2

end JaySip.Stun
