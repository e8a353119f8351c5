/-
  `SipManager`: the operations that the user interface calls, and the phone as a
  machine.

  The manager's own `registerTryCount` is assigned and never read.
-/
import JaySip.Sip.Service

namespace JaySip

open Java

namespace SipManager

/-! ## Operations -/

/-- `SipManager.reset`, also `confirmStateAndReset` and `close`. -/
def reset : M Unit := JaySip.reset

section
variable (env : Env)

def registerProfile : M Unit := JaySip.register env

def unregisterProfile : M Unit := JaySip.unregister env

def sendInvite (contact : SipContact) : M Unit := JaySip.sendInvite env contact

def acceptCall : M Unit := JaySip.acceptCall env

/-- `SipManager.declineCall`: an exception of the service skips the reset. -/
def declineCall : M Unit := do
  JaySip.declineCall env
  reset

/-- `SipManager.endCall`: likewise. -/
def endCall : M Unit := do
  JaySip.endCall env
  reset

end

/-- What can happen to the phone: an operation of the user interface, or a message handed to
    the listener. -/
inductive Action where
  | registerProfile
  | unregisterProfile
  | sendInvite (contact : SipContact)
  | acceptCall
  | declineCall
  | endCall
  | confirmStateAndReset
  | close
  | request (ev : RequestEvent)
  | response (ev : ResponseEvent)
  deriving DecidableEq, Repr

/-- An action, and what the environment decides while it runs. -/
structure Input where
  env : Env
  action : Action

/-- The method that an action runs. -/
def Action.method (env : Env) : Action → M Unit
  | .registerProfile => SipManager.registerProfile env
  | .unregisterProfile => SipManager.unregisterProfile env
  | .sendInvite contact => SipManager.sendInvite env contact
  | .acceptCall => SipManager.acceptCall env
  | .declineCall => SipManager.declineCall env
  | .endCall => SipManager.endCall env
  | .confirmStateAndReset => reset
  | .close => reset
  | .request ev => processRequest env ev
  | .response ev => processResponse env ev

end SipManager

/-- The phone: the client under its manager. -/
def phone : Machine World SipManager.Input where
  init := client.init
  step w i := after (i.action.method i.env) { w with out := [] }

end JaySip
