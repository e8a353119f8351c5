/-
  The client, its peers and the messages in flight.

  The peers answer the INVITEs and REGISTERs that the client has sent, as often and in
  any order they like, and send any other response and any request of their own.
  Messages to the client are delivered in any order, or are lost.
-/
import JaySip.Sip.Service

namespace JaySip

/-- A message to the client. -/
inductive Delivery where
  | request (ev : RequestEvent)
  | response (ev : ResponseEvent)
  deriving DecidableEq, Repr

def Delivery.action : Delivery → Action
  | .request ev => .request ev
  | .response ev => .response ev

/-- The response is to the request `q`. -/
def Response.Answers (r : Response) (q : SipRequest) : Prop :=
  r.method = q.method ∧ r.callId = q.callId ∧ r.cSeq = q.cSeq

instance (r : Response) (q : SipRequest) : Decidable (r.Answers q) :=
  inferInstanceAs (Decidable (_ ∧ _ ∧ _))

/-- The requests of a step. -/
def World.requests (w : World) : List SipRequest :=
  w.out.filterMap fun o => match o with
    | .request t => some t.request
    | _ => none

/-- The client, the requests it has sent so far, and the messages on their way to it. -/
structure Network where
  world : World
  sent : List SipRequest
  inFlight : List Delivery
  deriving DecidableEq, Repr

/-- What can happen next. -/
inductive Move where
  | operate (env : Env) (action : Action)
  | answer (ev : ResponseEvent)
  | call (ev : RequestEvent)
  | deliver (env : Env) (k : ℕ)
  | lose (k : ℕ)

/-- The local operations. -/
def Action.Local : Action → Bool
  | .request _ => false
  | .response _ => false
  | _ => true

namespace Network
variable (n : Network)

/-- A step of the client. -/
def act (i : Input) : Network :=
  { n with world := JaySip.step n.world i, sent := n.sent ++ (JaySip.step n.world i).requests }

/-- A move that is not possible changes nothing. -/
def step : Move → Network
  | .operate env action => if action.Local then n.act ⟨env, action⟩ else n
  | .answer ev =>
    if (ev.response.method = .invite ∨ ev.response.method = .register) →
        ∃ q ∈ n.sent, ev.response.Answers q then
      { n with inFlight := n.inFlight ++ [.response ev] }
    else n
  | .call ev => { n with inFlight := n.inFlight ++ [.request ev] }
  | .deliver env k =>
    match n.inFlight[k]? with
    | some m => { n with inFlight := n.inFlight.eraseIdx k }.act ⟨env, m.action⟩
    | none => n
  | .lose k => { n with inFlight := n.inFlight.eraseIdx k }

end Network

/-- The network, with a new client and nothing sent. -/
def network : Machine Network Move where
  init n := client.init n.world ∧ n.sent = [] ∧ n.inFlight = []
  step := Network.step

end JaySip
