/-
  The steps of the client, and what holds in every reachable state.
-/
import JaySip.Proof.Service

namespace JaySip

open Java

/-- The world a step starts in: the outputs of the last one are gone. -/
@[simps service handler fresh out]
def World.quiet (w : World) : World := { w with out := [] }

/-- The worlds a step can end in. -/
inductive Stepped (w : World) : Input → World → Prop
  | register (env w') : Registers env (w.quiet.setStatusChanged .registering none) .register w' →
      Stepped w ⟨env, .register⟩ w'
  | unregister (env w') :
      Registers env (w.quiet.setStatusChanged .unregistering none) .unregister w' →
      Stepped w ⟨env, .unregister⟩ w'
  | sendInvite (env w' contact) : Invites env (w.quiet.calls contact) contact .register w' →
      Stepped w ⟨env, .sendInvite contact⟩ w'
  | acceptCall (env w') : Accepts env w.quiet w' → Stepped w ⟨env, .acceptCall⟩ w'
  | declineCall (env w') : Declines env w.quiet w' → Stepped w ⟨env, .declineCall⟩ w'
  | endCall (env w') : Ends env w.quiet w' → Stepped w ⟨env, .endCall⟩ w'
  | reset (env) : Stepped w ⟨env, .reset⟩ w.quiet.cleared
  | request (env w' ev) : Receives env w.quiet ev w' → Stepped w ⟨env, .request ev⟩ w'
  | response (env w' ev) : Responds env w.quiet ev w' → Stepped w ⟨env, .response ev⟩ w'

theorem stepped (w : World) (i : Input) : Stepped w i (step w i) := by
  obtain ⟨env, action⟩ := i
  cases action with
  | register => exact .register env _ after_register
  | unregister => exact .unregister env _ after_unregister
  | sendInvite contact => exact .sendInvite env _ contact after_sendInvite
  | acceptCall => exact .acceptCall env _ after_acceptCall
  | declineCall => exact .declineCall env _ after_declineCall
  | endCall => exact .endCall env _ after_endCall
  | reset => exact .reset env
  | request ev => exact .request env _ ev after_processRequest
  | response ev => exact .response env _ ev after_processResponse

variable {env : Env} {w w' : World}

theorem step_received {ev : RequestEvent} :
    Receives env w.quiet ev (step w ⟨env, .request ev⟩) := after_processRequest

theorem step_responds {ev : ResponseEvent} :
    Responds env w.quiet ev (step w ⟨env, .response ev⟩) := after_processResponse

/-! ## Fields of the worlds that steps reach -/

@[simp] theorem quiet_received {ev : RequestEvent} : w.quiet.received ev = w.received ev := rfl

@[simp] theorem requested_service {q : SipRequest} : (w.requested env q).service = w.service := rfl

@[simp] theorem requested_handler {q : SipRequest} : (w.requested env q).handler =
    { w.handler with clientTransaction := some (w.clientTransactionFor env q) } := rfl

@[simp] theorem requested_fresh {q : SipRequest} : (w.requested env q).fresh = w.fresh + 1 := rfl

@[simp] theorem requested_out {q : SipRequest} :
    (w.requested env q).out = w.out ++ [.request (w.clientTransactionFor env q)] := rfl

@[simp] theorem renewed_service {state : SipRequestState} :
    (w.renewed state).service = w.service := by
  unfold World.renewed
  split_ifs <;> rfl

@[simp] theorem renewed_out {state : SipRequestState} : (w.renewed state).out = w.out := by
  unfold World.renewed
  split_ifs <;> rfl

@[simp] theorem renewed_handler {state : SipRequestState} : (w.renewed state).handler =
    { w.handler with currentCallID :=
        if state = .register then some w.fresh else w.handler.currentCallID } := by
  unfold World.renewed
  split_ifs <;> rfl

@[simp] theorem rung_handler : w.rung.handler = w.handler := by
  unfold World.rung
  split_ifs <;> rfl

@[simp] theorem rung_fresh : w.rung.fresh = w.fresh := by
  unfold World.rung
  split_ifs <;> rfl

theorem rung_service : w.rung.service = { w.service with currentState :=
    if w.service.currentState = .calling then .ringing else w.service.currentState } := by
  unfold World.rung
  split_ifs <;> rfl

theorem rung_of_ne (h : w.service.currentState ≠ .calling) : w.rung = w := if_neg h

theorem rung_out : w.rung.out = w.out ∨ w.rung.out = w.out ++ [.status .ringing none] := by
  unfold World.rung
  split_ifs
  · exact Or.inr rfl
  · exact Or.inl rfl

/-- The responses of a step, with the transactions they went out on. -/
def World.responses (w : World) : List (ServerTransaction × Reply) :=
  w.out.filterMap fun o => match o with
    | .response t r => some (t, r)
    | _ => none

theorem mem_responses {t : ServerTransaction} {r : Reply} :
    (t, r) ∈ w.responses ↔ Output.response t r ∈ w.out := by
  rw [World.responses, List.mem_filterMap]
  constructor
  · rintro ⟨o, ho, h⟩
    cases o <;> cases h
    exact ho
  · exact fun h => ⟨_, h, rfl⟩

theorem mem_replied {t : ServerTransaction} {rep reply : Reply} :
    Output.response t rep ∈ (w.replied reply).out ↔
      Output.response t rep ∈ w.out ∨ (t = w.transactionFor reply.request ∧ rep = reply) := by
  simp

/-! ## The answering side -/

/-- Nothing changes for the callers: the request, the transaction, and no response. -/
structure Aside (w w' : World) : Prop where
  request : w'.service.currentRequest = w.service.currentRequest
  transaction : w'.handler.serverTransaction = w.handler.serverTransaction
  responses : ∀ t r, Output.response t r ∈ w'.out → Output.response t r ∈ w.out

theorem Registers.aside {state : SipRequestState} (h : Registers env w state w') : Aside w w' := by
  cases h <;> exact ⟨by simp, by simp, by simp⟩

theorem Invites.aside {contact : SipContact} {state : SipRequestState}
    (h : Invites env w contact state w') : Aside w w' := by
  cases h <;> exact ⟨by simp, by simp, by simp⟩

theorem Ends.aside (h : Ends env w w') : Aside w w' := by
  cases h <;> exact ⟨by simp, by simp, by simp⟩

theorem Answered.aside {ev : ResponseEvent} (h : Answered env w ev w') : Aside w w' := by
  cases h <;> exact ⟨by simp, by simp, by simp⟩

theorem Responds.aside {ev : ResponseEvent} (h : Responds env w ev w') : Aside w w' := by
  cases h with
  | ringing _ _ ha =>
    refine ⟨?_, ?_, fun t r ho => ?_⟩
    · rw [ha.aside.request, rung_service]
    · rw [ha.aside.transaction, rung_handler]
    · have ho' := ha.aside.responses t r ho
      rcases rung_out (w := w) with hw | hw <;> simpa [hw] using ho'
  | ok _ _ ha => exact ha.aside
  | unauthorized _ _ hu => cases hu <;> exact ⟨by simp, by simp, by simp⟩
  | proxied _ _ hp => cases hp <;> exact ⟨by simp, by simp, by simp⟩
  | failure => exact ⟨by simp, by simp, by simp⟩
  | other => exact ⟨rfl, rfl, fun _ _ h => h⟩

/-! ## The fields of the service -/

theorem Registers.service {state : SipRequestState} (h : Registers env w state w') :
    w'.service = w.service := by
  cases h <;> rfl

theorem Invites.service {contact : SipContact} {state : SipRequestState}
    (h : Invites env w contact state w') : w'.service = w.service := by
  cases h <;> simp

theorem Accepts.service (h : Accepts env w w') : w'.service = w.service := by
  cases h <;> simp

theorem Declines.service (h : Declines env w w') : w'.service = w.service := by
  cases h <;> simp

theorem Ends.service (h : Ends env w w') : w'.service = w.service := by
  cases h <;> simp

theorem failureState_ne_established {status : ℕ} : failureState status ≠ some .established := by
  unfold failureState
  split <;> simp

/-- A call is established only with a session. -/
def Seated (w : World) : Prop :=
  w.service.currentState = .established → w.service.currentSession ≠ none

namespace Seated

theorem of_service (h : Seated w) (hs : w'.service = w.service) : Seated w' := by
  unfold Seated
  rw [hs]
  exact h

/-- Worlds that are not established. -/
theorem of_state (h : w'.service.currentState ≠ .established) : Seated w' :=
  fun he => absurd he h

theorem invited {r : Request} (h : Seated w) (hi : Invited env w r w') : Seated w' := by
  cases hi with
  | busy => exact h.of_service (by simp)
  | declined => exact fun he => by simpa using h (by simpa using he)
  | notFound => exact fun _ => by simp
  | _ => exact of_state (by simp)

theorem acked {dialog : Option Dialog} (h : Seated w) (ha : Acked w dialog w') : Seated w' := by
  cases ha with
  | established s number hs _ => exact fun _ => by simp [hs]
  | unnumbered s e hs _ => exact fun _ => by simp [hs]
  | ignored => exact h

theorem received {ev : RequestEvent} (h : Seated w) (hr : Receives env w ev w') : Seated w' := by
  cases hr with
  | invite _ _ hi => exact invited (w := w.tick) h hi
  | cancel => exact of_state (by simp)
  | ack _ _ ha => exact acked (w := w.tick) h ha
  | bye => exact of_state (by simp)
  | other => exact h.of_service rfl

theorem answered {ev : ResponseEvent} (h : Seated w) (ha : Answered env w ev w') : Seated w' := by
  cases ha with
  | established => exact fun _ => by simp
  | ignored => exact h
  | _ => exact of_state (by simp)

theorem responds {ev : ResponseEvent} (h : Seated w) (hr : Responds env w ev w') : Seated w' := by
  cases hr with
  | ringing _ _ ha =>
    refine answered ?_ ha
    unfold World.rung
    split_ifs
    · exact of_state (by simp)
    · exact h
  | ok _ _ ha => exact h.answered ha
  | unauthorized _ _ hu =>
    cases hu with
    | noted => exact fun he => by simpa using h (by simpa using he)
    | repeated c state a _ hs =>
      refine of_state ?_
      rcases hs with ⟨hs, -⟩ | ⟨hs, -⟩ <;> simp [hs]
    | _ => exact of_state (by simp)
  | proxied _ _ hp =>
    cases hp with
    | ignored => exact fun he => by simpa using h (by simpa using he)
    | noted => exact fun he => by simpa using h (by simpa using he)
    | repeated c contact id a d _ _ hs => exact of_state (by simp [hs])
    | _ => exact of_state (by simp)
  | failure st hst =>
    refine of_state ?_
    rintro rfl
    exact failureState_ne_established hst
  | other => exact h

theorem step (h : Seated w) (i : Input) : Seated (JaySip.step w i) := by
  have hq : Seated w.quiet := h
  generalize hw : JaySip.step w i = w'
  have hs := hw ▸ stepped w i
  cases hs with
  | register _ _ hr => exact of_state (by simp [hr.service])
  | unregister _ _ hr => exact of_state (by simp [hr.service])
  | sendInvite _ _ contact hi => exact of_state (by simp [hi.service])
  | acceptCall _ _ ha => exact hq.of_service ha.service
  | declineCall _ _ hd => exact hq.of_service hd.service
  | endCall _ _ he => exact hq.of_service he.service
  | reset => exact of_state (by simp)
  | request _ _ _ hr => exact hq.received hr
  | response _ _ _ hr => exact hq.responds hr

end Seated

/-- A reachable client that is established has a session. -/
theorem seated (h : client.Reachable w) : Seated w := by
  refine h.inv client ?_ fun w i hw => hw.step i
  rintro _ ⟨profile, localIPAddress, localSipPort, rfl⟩
  exact Seated.of_state (by simp [World.start])

/-! ## Identifiers -/

theorem Registers.fresh_le {state : SipRequestState} (h : Registers env w state w') :
    w.fresh ≤ w'.fresh := by
  cases h with
  | sent => simp only [requested_fresh, World.tick_fresh]; omega
  | failed n t hn => exact hn

theorem Invites.fresh_le {contact : SipContact} {state : SipRequestState}
    (h : Invites env w contact state w') : w.fresh ≤ w'.fresh := by
  cases h with
  | sent => exact fresh_le_renewed.trans (Nat.le_succ _)
  | failed n t _ hn => exact fresh_le_renewed.trans hn
  | refused => exact le_rfl

theorem Accepts.fresh_le (h : Accepts env w w') : w.fresh ≤ w'.fresh := by
  cases h with
  | accepted r fs => exact World.fresh_le_replied (w := w.setSipAudioFormats fs)
  | failed => exact le_rfl
  | failedCached r fs => exact World.fresh_le_cached (w := w.setSipAudioFormats fs)
  | idle => exact le_rfl

theorem Declines.fresh_le (h : Declines env w w') : w.fresh ≤ w'.fresh := by
  cases h with
  | declined => exact World.fresh_le_replied
  | failed => exact World.fresh_le_cached
  | idle => exact le_rfl

theorem Ends.fresh_le (h : Ends env w w') : w.fresh ≤ w'.fresh := by
  cases h with
  | bye => exact Nat.le_succ _
  | cancel => exact Nat.le_succ _
  | noBye n _ _ hn => exact hn
  | noCancel n t _ hn => exact hn

theorem Invited.fresh_le {r : Request} (h : Invited env w r w') : w.fresh ≤ w'.fresh := by
  cases h with
  | busy => exact World.fresh_le_replied
  | busyFailed _ _ _ hw =>
    rcases hw with rfl | rfl
    · exact le_rfl
    · exact World.fresh_le_cached
  | declined => exact World.fresh_le_replied (w := w.setSdp none)
  | declineFailed _ _ _ _ _ hw =>
    rcases hw with rfl | ⟨q, _, rfl⟩
    · exact le_rfl
    · exact World.fresh_le_cached (w := w.setSdp none)
  | notFound fs sdp s => exact World.fresh_le_replied (w := w.opened fs sdp s)
  | notFoundFailed fs sdp s _ _ _ _ _ _ hw =>
    rcases hw with rfl | rfl
    · exact le_rfl
    · exact World.fresh_le_cached (w := w.opened fs sdp s)
  | rang fs sdp s => exact World.fresh_le_replied (w := (w.opened fs sdp s).setRequest (some r))
  | rangError fs sdp s => exact World.fresh_le_replied (w := (w.opened fs sdp s).setRequest (some r))
  | ringFailed fs sdp s _ _ _ _ hw =>
    rcases hw with rfl | rfl
    · exact le_rfl
    · exact World.fresh_le_cached (w := (w.opened fs sdp s).setRequest (some r))
  | _ => exact le_rfl

theorem Receives.fresh_le {ev : RequestEvent} (h : Receives env w ev w') : w.fresh ≤ w'.fresh := by
  cases h with
  | invite _ _ hi => exact (Nat.le_succ _).trans hi.fresh_le
  | cancel => exact Nat.le_succ _
  | ack _ _ ha => cases ha <;> exact Nat.le_succ _
  | bye w₁ _ hb =>
    have hw : w.fresh ≤ (w.byeTransaction ev).2.fresh := by
      unfold World.byeTransaction
      split_ifs
      · exact Nat.le_add_right _ 2
      · exact Nat.le_succ _
    generalize w.byeTransaction ev = p at hb hw
    obtain ⟨transaction, w₂⟩ := p
    refine hw.trans ?_
    cases hb with
    | confirmed => exact le_rfl
    | answered fs => exact World.fresh_le_replied (w := w₂.setSipAudioFormats fs)
    | failed _ fs _ hw =>
      rcases hw with rfl | rfl
      · exact le_rfl
      · exact World.fresh_le_cached (w := w₂.setSipAudioFormats fs)
  | other => exact Nat.le_succ _

theorem Responds.fresh_le {ev : ResponseEvent} (h : Responds env w ev w') : w.fresh ≤ w'.fresh := by
  have answered : ∀ {w₁ : World}, Answered env w₁ ev w' → w₁.fresh = w'.fresh := by
    intro w₁ ha
    cases ha <;> rfl
  cases h with
  | ringing _ _ ha => rw [← answered ha, rung_fresh]
  | ok _ _ ha => exact (answered ha).le
  | unauthorized _ _ hu =>
    cases hu with
    | repeated => exact Nat.le_add_right _ 2
    | failed c n t _ _ hn => exact hn
    | _ => exact le_rfl
  | proxied _ _ hp =>
    cases hp with
    | repeated => exact Nat.le_succ _
    | failed c n t _ _ _ hn => exact hn
    | _ => exact le_rfl
  | failure => exact le_rfl
  | other => exact le_rfl

/-- Identifiers are not drawn twice. -/
theorem fresh_le_step (w : World) (i : Input) : w.fresh ≤ (step w i).fresh := by
  have hs := stepped w i
  generalize step w i = w' at hs
  cases hs with
  | register _ _ hr => exact hr.fresh_le
  | unregister _ _ hr => exact hr.fresh_le
  | sendInvite _ _ contact hi => exact hi.fresh_le
  | acceptCall _ _ ha => exact ha.fresh_le
  | declineCall _ _ hd => exact hd.fresh_le
  | endCall _ _ he => exact he.fresh_le
  | reset => exact le_rfl
  | request _ _ _ hr => exact hr.fresh_le
  | response _ _ _ hr => exact hr.fresh_le

/-- Identifiers that the client holds are not fresh. -/
structure Bounded (w : World) : Prop where
  request : ∀ q, w.service.currentRequest = some q → q.id < w.fresh
  transaction : ∀ t, w.handler.serverTransaction = some t → t.request.id < w.fresh
  callID : ∀ c, w.handler.currentCallID = some c → c < w.fresh

namespace Bounded

theorem keep (h : Bounded w) (hf : w.fresh ≤ w'.fresh)
    (hq : ∀ q, w'.service.currentRequest = some q → w.service.currentRequest = some q)
    (ht : ∀ t, w'.handler.serverTransaction = some t → w.handler.serverTransaction = some t)
    (hc : ∀ c, w'.handler.currentCallID = some c → w.handler.currentCallID = some c) :
    Bounded w' :=
  ⟨fun q hq' => (h.request q (hq q hq')).trans_le hf,
    fun t ht' => (h.transaction t (ht t ht')).trans_le hf,
    fun c hc' => (h.callID c (hc c hc')).trans_le hf⟩

theorem cached {r : Request} (h : Bounded w) (hr : r.id < w.fresh) : Bounded (w.cached r) where
  request q hq := (h.request q (by simpa using hq)).trans_le World.fresh_le_cached
  transaction t ht := by
    have ht' : w.transactionFor r = t := by simpa using ht
    have hid : (w.transactionFor r).request.id < w.fresh := by
      unfold World.transactionFor
      cases hs : w.handler.serverTransaction with
      | none => exact hr
      | some t' => exact h.transaction t' hs
    exact ht' ▸ hid.trans_le World.fresh_le_cached
  callID c hc := (h.callID c (by simpa using hc)).trans_le World.fresh_le_cached

theorem emit {o : Output} (h : Bounded w) : Bounded (w.emit o) := ⟨h.1, h.2, h.3⟩

theorem setStatusChanged {st : SipManagerState} {info : Option Str} (h : Bounded w) :
    Bounded (w.setStatusChanged st info) := ⟨h.1, h.2, h.3⟩

theorem replied {reply : Reply} (h : Bounded w) (hr : reply.request.id < w.fresh) :
    Bounded (w.replied reply) := (h.cached hr).emit

theorem requested {q : SipRequest} (h : Bounded w) : Bounded (w.requested env q) :=
  h.keep (Nat.le_succ _) (fun _ h => h) (fun _ h => h) fun _ h => h

theorem began {n : ℕ} {t : Option ClientTransaction} (h : Bounded w) (hn : w.fresh ≤ n) :
    Bounded (w.began n t) :=
  h.keep hn (fun _ h => h) (fun _ h => h) fun _ h => h

theorem tick (h : Bounded w) : Bounded w.tick :=
  h.keep (Nat.le_succ _) (fun _ h => h) (fun _ h => h) fun _ h => h

theorem setSipAudioFormats {fs : List SipAudioFormat} (h : Bounded w) :
    Bounded (w.setSipAudioFormats fs) := ⟨h.1, h.2, h.3⟩

theorem cleared (w : World) : Bounded w.cleared :=
  ⟨fun _ h => (nomatch h), fun _ h => (nomatch h), fun _ h => (nomatch h)⟩

theorem registers {state : SipRequestState} (h : Bounded w) (hr : Registers env w state w') :
    Bounded w' := by
  cases hr with
  | sent a ha => exact h.tick.requested
  | failed n t hn => exact h.began hn

theorem renewed {state : SipRequestState} (h : Bounded w) : Bounded (w.renewed state) := by
  unfold World.renewed
  split_ifs
  · refine ⟨h.tick.request, h.tick.transaction, ?_⟩
    rintro c ⟨⟩
    exact Nat.lt_succ_self _
  · exact h

theorem invites {contact : SipContact} {state : SipRequestState} (h : Bounded w)
    (hi : Invites env w contact state w') : Bounded w' := by
  cases hi with
  | sent c a d hc =>
    have hq : Bounded ((w.renewed state).requested env (inviteRequest w.handler c contact a d)) :=
      h.renewed.requested
    exact ⟨hq.1, hq.2, hq.3⟩
  | failed n t _ hn => exact h.renewed.began hn
  | refused => exact h

theorem accepts (h : Bounded w) (ha : Accepts env w w') : Bounded w' := by
  cases ha with
  | accepted r fs sdp hr _ => exact h.setSipAudioFormats.replied (h.request r hr)
  | failed r fs hr => exact h.setSipAudioFormats
  | failedCached r fs hr => exact h.setSipAudioFormats.cached (h.request r hr)
  | idle => exact h

theorem declines (h : Bounded w) (hd : Declines env w w') : Bounded w' := by
  cases hd with
  | declined r hr _ => exact h.replied (h.request r hr)
  | failed r hr => exact h.cached (h.request r hr)
  | idle => exact h

theorem ends (h : Bounded w) (he : Ends env w w') : Bounded w' := by
  cases he with
  | bye d _ _ => exact h.tick.emit
  | cancel t _ _ => exact (h.began (Nat.le_succ _)).emit
  | noBye n _ _ hn => exact h.began hn
  | noCancel n t _ hn => exact h.began hn

theorem opened {fs : List SipAudioFormat} {sdp : SessionDescription} {s : SipSession}
    (h : Bounded w) : Bounded (w.opened fs sdp s) := ⟨h.1, h.2, h.3⟩

theorem setRequest {r : Request} (h : Bounded w) (hr : r.id < w.fresh) :
    Bounded (w.setRequest (some r)) := ⟨by rintro q ⟨⟩; exact hr, h.2, h.3⟩

theorem setSdp {d : Option SessionDescription} (h : Bounded w) : Bounded (w.setSdp d) :=
  ⟨h.1, h.2, h.3⟩

theorem invited {r : Request} (h : Bounded w) (hr : r.id < w.fresh) (hi : Invited env w r w') :
    Bounded w' := by
  cases hi with
  | busy => exact replied h hr
  | busyFailed w₁ _ _ hw =>
    rcases hw with rfl | rfl
    · exact setStatusChanged h
    · exact setStatusChanged (cached h hr)
  | unread fs => exact setStatusChanged (setSipAudioFormats h)
  | declined q _ _ _ hq => exact replied (setSdp h) (h.request q hq)
  | declineFailed w₁ _ _ _ _ hw =>
    rcases hw with rfl | ⟨q, hq, rfl⟩
    · exact setStatusChanged (setSdp h)
    · exact setStatusChanged (cached (setSdp h) (h.request q hq))
  | noSession fs sdp => exact setStatusChanged (setSdp (setSipAudioFormats h))
  | noUser => exact setStatusChanged (opened h)
  | notFound => exact replied (opened h) hr
  | notFoundFailed fs sdp s user w₁ _ _ _ _ hw =>
    rcases hw with rfl | rfl
    · exact setStatusChanged (opened h)
    · exact setStatusChanged (cached (opened h) hr)
  | rang => exact emit (setStatusChanged (replied (setRequest (opened h) hr) hr))
  | rangError => exact setStatusChanged (replied (setRequest (opened h) hr) hr)
  | ringFailed fs sdp s w₁ _ _ _ hw =>
    rcases hw with rfl | rfl
    · exact setStatusChanged (setRequest (opened h) hr)
    · exact setStatusChanged (cached (setRequest (opened h) hr) hr)

theorem setDialog {d : Option Dialog} (h : Bounded w) : Bounded (w.setDialog d) :=
  ⟨h.1, h.2, h.3⟩

theorem received {ev : RequestEvent} (h : Bounded w) (hr : Receives env w ev w') :
    Bounded w' := by
  cases hr with
  | invite _ _ hi => exact invited (tick h) (Nat.lt_succ_self _) hi
  | cancel => exact cleared _
  | ack _ _ ha =>
    cases ha with
    | established => exact setStatusChanged (setDialog (tick h))
    | unnumbered => exact setDialog (tick h)
    | ignored => exact tick h
  | bye => exact cleared _
  | other => exact tick h

theorem answered {ev : ResponseEvent} (h : Bounded w) (ha : Answered env w ev w') :
    Bounded w' := by
  cases ha <;> exact ⟨h.1, h.2, h.3⟩

theorem responds {ev : ResponseEvent} (h : Bounded w) (hr : Responds env w ev w') :
    Bounded w' := by
  cases hr with
  | ringing _ _ ha =>
    refine answered ?_ ha
    unfold World.rung
    split_ifs
    · exact h.setStatusChanged
    · exact h
  | ok _ _ ha => exact h.answered ha
  | unauthorized _ _ hu =>
    cases hu with
    | unchallenged => exact ⟨h.1, h.2, h.3⟩
    | noted => exact ⟨h.1, h.2, h.3⟩
    | repeated => exact ⟨h.tick.tick.1, h.tick.tick.2, h.tick.tick.3⟩
    | failed c n t _ _ hn => exact setStatusChanged (began (w := w.challenged c) ⟨h.1, h.2, h.3⟩ hn)
  | proxied _ _ hp =>
    cases hp with
    | ignored => exact ⟨h.1, h.2, h.3⟩
    | unchallenged => exact ⟨h.1, h.2, h.3⟩
    | noted => exact ⟨h.1, h.2, h.3⟩
    | repeated => exact ⟨h.tick.1, h.tick.2, h.tick.3⟩
    | failed c n t _ _ _ hn => exact setStatusChanged (began (w := w.challenged c) ⟨h.1, h.2, h.3⟩ hn)
  | failure => exact h.setStatusChanged
  | other => exact h

theorem step (h : Bounded w) (i : Input) : Bounded (JaySip.step w i) := by
  have hq : Bounded w.quiet := ⟨h.1, h.2, h.3⟩
  generalize hw : JaySip.step w i = w'
  have hs := hw ▸ stepped w i
  cases hs with
  | register _ _ hr => exact hq.setStatusChanged.registers hr
  | unregister _ _ hr => exact hq.setStatusChanged.registers hr
  | sendInvite _ _ contact hi => exact invites (w := w.quiet.calls contact) ⟨hq.1, hq.2, hq.3⟩ hi
  | acceptCall _ _ ha => exact hq.accepts ha
  | declineCall _ _ hd => exact hq.declines hd
  | endCall _ _ he => exact hq.ends he
  | reset => exact cleared _
  | request _ _ _ hr => exact hq.received hr
  | response _ _ _ hr => exact hq.responds hr

end Bounded

/-- Identifiers that a reachable client holds are not fresh. -/
theorem bounded (h : client.Reachable w) : Bounded w := by
  refine h.inv client ?_ fun w i hw => hw.step i
  rintro _ ⟨profile, localIPAddress, localSipPort, rfl⟩
  exact ⟨fun _ h => (nomatch h), fun _ h => (nomatch h), fun _ h => (nomatch h)⟩

/-! ## Traces

A client, and the messages it may get, for the runs that this development replays. -/

namespace Trace

/-- An environment in which nothing fails. -/
def calm : Env where
  fails _ := none
  getByName := some
  dialogTag := some 0
  hostURI domain := "sip:".toList ++ domain
  md5 := id

theorem calm_succeeds : calm.Succeeds := fun _ => rfl

def alice : LocalSipProfile where
  userName := "alice".toList
  displayName := "Alice".toList
  sipDomain := "home".toList
  sipPassword := none
  localSipPort := 5060
  localAudioRtpPort := 8000
  localAudioRtcpPort := 8001
  localVideoRtpPort := 8002
  localVideoRtcpPort := 8003
  audioFormats := [⟨0, "PCMU".toList, 8000⟩]
  videoFormats := []
  tag := "tag".toList
  nonce := none
  realm := none

def bob : SipContact := { sipUserName := "bob".toList, sipDomain := "home".toList }

/-- Alice's client when it starts. -/
def idle : World := World.start alice "10.0.0.1".toList 5060

theorem idle_init : client.init idle := ⟨_, _, _, rfl⟩

/-- A description with one audio codec. -/
def description (format : Str) : SessionDescription where
  origin := some { username := "bob".toList, sessionId := some 1, sessionVersion := some 1
                   address := "10.0.0.2".toList }
  sessionName := some "call".toList
  connection := some { address := "10.0.0.2".toList }
  mediaDescriptions := [{ mediaType := "audio".toList, port := 4000, formats := [format]
                          attributes := [] }]

def audio (format : Str) : SdpText := .sdp (description format)

/-- A message from Bob. -/
def message (method : Method) (callId : CallId) (user : Str) (body : Option SdpText) : Message where
  method := method
  callId := callId
  cSeq := 1
  fromURI := "sip:bob@home".toList
  toURI := "sip:".toList ++ user ++ "@home".toList
  contactURI := some "sip:bob@10.0.0.2:5060".toList
  rawContent := body

/-- A local operation. -/
def act (a : Action) : Input := ⟨calm, a⟩

/-- A request without a body, in its dialog if it has one. -/
def request (method : Method) (callId : CallId) (dialogTag : Option ℕ) : Input :=
  ⟨calm, .request ⟨message method callId "alice".toList none, method = .bye, dialogTag⟩⟩

/-- An INVITE that offers one codec. -/
def offer (callId : CallId) (user format : Str) : RequestEvent :=
  ⟨message .invite callId user (some (audio format)), false, none⟩

def invite (callId : CallId) (user format : Str) : Input := ⟨calm, .request (offer callId user format)⟩

/-- A response, with its dialog if it has a body. -/
def answer (status : ℕ) (method : Method) (callId : CallId) (body : Option SdpText) :
    ResponseEvent :=
  ⟨{ message method callId "alice".toList body with status := status }, body.map fun _ => 0⟩

def response (status : ℕ) (method : Method) (callId : CallId) (body : Option SdpText) : Input :=
  ⟨calm, .response (answer status method callId body)⟩

end Trace

end JaySip
