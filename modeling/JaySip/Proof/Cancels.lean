/-
  The client transaction, and the requests that `endCall` cancels.
-/
import JaySip.Proof.Incoming

namespace JaySip

open Java

variable {env : Env} {w w' : World} {i : Input} {h : List ClientStep} {q : SipRequest}

/-! ## Methods that build a transaction -/

/-- `register` gets as far as a new transaction. -/
def RegisterBuilds (env : Env) (p : LocalSipProfile) (state : SipRequestState) : Prop :=
  env.fails .createAddresses = none ∧ env.fails .createRequest = none ∧
    (∃ a, registerAuthorization env p state = .ok a) ∧ env.fails .getNewClientTransaction = none

/-- `sendInvite` gets as far as a new transaction. -/
def InviteBuilds (env : Env) (h : SipMessageHandler) (state : SipRequestState) : Prop :=
  env.fails .createAddresses = none ∧ (state = .register ∨ h.currentCallID ≠ none) ∧
    env.fails .createRequest = none ∧
    (∃ a, inviteAuthorization env h.localSipProfile state = .ok a) ∧
    env.fails .createDescription = none ∧ env.fails .getNewClientTransaction = none

/-- `sendCancel` gets as far as a new transaction. -/
def CancelBuilds (env : Env) (h : SipMessageHandler) : Prop :=
  h.clientTransaction ≠ none ∧ env.fails .createCancel = none ∧
    env.fails .getNewClientTransaction = none

/-- A method that replaces the client transaction by a new one if `b`, and else keeps it; the
    only request it sends is the new one. -/
structure Turns (b : Prop) (w w' : World) : Prop where
  builds : b → ∃ t, w'.handler.clientTransaction = some t ∧ w.fresh ≤ t.id ∧ t.id < w'.fresh ∧
    ∀ t', Output.request t' ∈ w'.out → Output.request t' ∈ w.out ∨ t' = t
  keeps : ¬ b → w'.handler.clientTransaction = w.handler.clientTransaction ∧
    ∀ t, Output.request t ∈ w'.out → Output.request t ∈ w.out

namespace Turns

variable {b : Prop}

/-- Nothing was built. -/
theorem kept (hn : ¬ b) (ht : w'.handler.clientTransaction = w.handler.clientTransaction)
    (ho : ∀ t, Output.request t ∈ w'.out → Output.request t ∈ w.out) : Turns b w w' :=
  ⟨fun hb => absurd hb hn, fun _ => ⟨ht, ho⟩⟩

/-- A transaction was built, and perhaps its request was sent. -/
theorem built {t : ClientTransaction} (hb : b) (ht : w'.handler.clientTransaction = some t)
    (hid : w.fresh ≤ t.id ∧ t.id < w'.fresh)
    (ho : ∀ t', Output.request t' ∈ w'.out → Output.request t' ∈ w.out ∨ t' = t) :
    Turns b w w' :=
  ⟨fun _ => ⟨t, ht, hid.1, hid.2, ho⟩, fun hn => absurd hb hn⟩

/-- The same from a world with the same transaction, and to one with one status more. -/
theorem frame {w₁ w₂ : World} (ht : Turns b w₁ w₂)
    (hc : w₁.handler.clientTransaction = w.handler.clientTransaction) (hf : w.fresh ≤ w₁.fresh)
    (ho : ∀ t, Output.request t ∈ w₁.out → Output.request t ∈ w.out)
    (hc' : w'.handler.clientTransaction = w₂.handler.clientTransaction) (hf' : w'.fresh = w₂.fresh)
    (ho' : ∀ t, Output.request t ∈ w'.out → Output.request t ∈ w₂.out) : Turns b w w' := by
  constructor
  · intro hb
    obtain ⟨t, h₁, h₂, h₃, h₄⟩ := ht.builds hb
    refine ⟨t, hc'.trans h₁, hf.trans h₂, hf' ▸ h₃, fun t' hm => ?_⟩
    exact (h₄ t' (ho' t' hm)).imp (ho t') id
  · intro hn
    obtain ⟨h₁, h₂⟩ := ht.keeps hn
    exact ⟨hc'.trans (h₁.trans hc), fun t hm => ho t (h₂ t (ho' t hm))⟩

end Turns

/-- Both exits of a method satisfy `P`. -/
abbrev Always {α : Type} (x : M α) (P : World → Prop) (w : World) : Prop :=
  wp x (fun _ => P) (fun _ => P) w

theorem register_turns {state : SipRequestState} :
    Always (SipMessageHandler.register env state)
      (Turns (RegisterBuilds env w.handler.localSipProfile state) w) w := by
  simp only [SipMessageHandler.register, wp_bind, wp_call, wp_freshId, wp_get, wp_lift,
    wp_getNewClientTransaction, wp_modify, wp_sendRequest]
  refine ⟨fun h₁ => ⟨fun h₂ => ⟨fun a ha => ⟨fun h₃ => ⟨fun h₄ => ?_, fun e h₄ => ?_⟩,
    fun e h₃ => ?_⟩, fun e ha => ?_⟩, fun e h₂ => ?_⟩, fun e h₁ => ?_⟩
  · exact .built ⟨h₁, h₂, ⟨a, ha⟩, h₃⟩ rfl ⟨by simp, by simp⟩ (by simp)
  · exact .built ⟨h₁, h₂, ⟨a, ha⟩, h₃⟩ rfl ⟨by simp, by simp⟩ fun _ hm => Or.inl hm
  · exact .kept (fun hb => by simp [hb.2.2.2] at h₃) rfl (by simp)
  · refine .kept ?_ rfl (by simp)
    rintro ⟨-, -, ⟨a, ha'⟩, -⟩
    exact absurd (ha.symm.trans ha') (by simp)
  · exact .kept (fun hb => by simp [hb.2.1] at h₂) rfl (by simp)
  · exact .kept (fun hb => by simp [hb.1] at h₁) rfl (by simp)

/-- `createSDP(null)` throws only when the SDP factory does. -/
theorem wp_createOffer_fails : wp (createOffer env)
    (fun _ w' => env.fails .createDescription = none ∧ w' = w)
    (fun e w' => env.fails .createDescription = some e ∧ w' = w) w := by
  simp only [createOffer, wp_bind, wp_call, wp_get, wp_lift]
  refine ⟨fun hd => ⟨fun _ _ => ⟨hd, trivial⟩, fun e he => ?_⟩, fun e he => ⟨he, trivial⟩⟩
  simp [describe] at he

theorem sendInvite_turns {contact : SipContact} {state : SipRequestState} :
    Always (SipMessageHandler.sendInvite env contact state)
      (Turns (InviteBuilds env w.handler state) w) w := by
  have hp : (w.renewed state).handler.localSipProfile = w.handler.localSipProfile := by simp
  have ht : (w.renewed state).handler.clientTransaction = w.handler.clientTransaction := by simp
  have hf : w.fresh ≤ (w.renewed state).fresh := fresh_le_renewed
  have hid : ∀ c, nonNull (w.renewed state).handler.currentCallID = .ok c →
      state = .register ∨ w.handler.currentCallID ≠ none := by
    intro c hc
    rw [nonNull_eq_ok, renewed_handler] at hc
    by_cases hs : state = .register
    · exact Or.inl hs
    · refine Or.inr fun hn => ?_
      simp [hs, hn] at hc
  simp only [SipMessageHandler.sendInvite, wp_bind, wp_call, wp_renewCallID, wp_get, wp_lift]
  refine ⟨fun h₁ => ⟨fun c hc => ⟨fun h₂ => ⟨fun a ha => ?_, fun e ha => ?_⟩, fun e h₂ => ?_⟩,
    fun e hc => ?_⟩, fun e h₁ => ?_⟩
  · refine wp_mono wp_createOffer_fails ?_ ?_
    · rintro d _ ⟨h₃, rfl⟩
      simp only [wp_getNewClientTransaction, wp_bind, wp_modify, wp_sendRequest]
      refine ⟨fun h₄ => ?_, fun e h₄ => ?_⟩
      · have hb : InviteBuilds env w.handler state := ⟨h₁, hid c hc, h₂, ⟨a, hp ▸ ha⟩, h₃, h₄⟩
        refine ⟨fun h₅ => ?_, fun e h₅ => ?_⟩
        · exact .built hb rfl ⟨hf, by simp⟩ (by simp)
        · exact .built hb rfl ⟨hf, by simp⟩ fun _ hm => Or.inl (by simpa using hm)
      · exact .kept (fun hb => by simp [hb.2.2.2.2.2] at h₄) ht (by simp)
    · rintro e _ ⟨h₃, rfl⟩
      exact .kept (fun hb => by simp [hb.2.2.2.2.1] at h₃) ht (by simp)
  · refine .kept ?_ ht (by simp)
    rintro ⟨-, -, -, ⟨a, ha'⟩, -⟩
    rw [hp] at ha
    exact absurd (ha.symm.trans ha') (by simp)
  · exact .kept (fun hb => by simp [hb.2.2.1] at h₂) ht (by simp)
  · refine .kept ?_ ht (by simp)
    rintro ⟨-, hs, -⟩
    rw [renewed_handler] at hc
    by_cases hr : state = .register
    · simp [hr] at hc
    · obtain ⟨c, hc'⟩ := Option.ne_none_iff_exists'.1 (hs.resolve_left hr)
      simp [hr, hc'] at hc
  · exact .kept (fun hb => by simp [hb.1] at h₁) rfl (by simp)

theorem sendCancel_turns :
    Always (sendCancel env) (Turns (CancelBuilds env w.handler) w) w := by
  simp only [sendCancel, wp_bind, wp_get, wp_modify, wp_lift, wp_call, wp_getNewClientTransaction]
  refine ⟨fun t ht => ⟨fun h₁ => ⟨fun h₂ => ⟨fun h₃ => ?_, fun e h₃ => ?_⟩, fun e h₂ => ?_⟩,
    fun e h₁ => ?_⟩, fun e ht => ?_⟩
  · exact .built ⟨by simp [nonNull_eq_ok.1 ht], h₁, h₂⟩ rfl ⟨le_rfl, by simp⟩
      fun _ hm => Or.inl (by simpa using hm)
  · exact .built ⟨by simp [nonNull_eq_ok.1 ht], h₁, h₂⟩ rfl ⟨le_rfl, by simp⟩
      fun _ hm => Or.inl (by simpa using hm)
  · exact .kept (fun hb => by simp [hb.2.2] at h₂) rfl (by simp)
  · exact .kept (fun hb => by simp [hb.2.1] at h₁) rfl (by simp)
  · exact .kept (fun hb => hb.1 (eq_none_of_nonNull ht)) rfl (by simp)

/-! ## One step -/

/-- A 401 that repeats a REGISTER. -/
def RegistersAgain (env : Env) (w : World) (r : Response) : Prop :=
  r.status = 401 ∧ ∃ c, r.wwwAuthenticate = some c ∧ ∃ state,
    (w.service.currentState = .registering ∧ state = .authorization ∨
      w.service.currentState = .unregistering ∧ state = .unregisterAuthorization) ∧
    RegisterBuilds env (w.challenged c).handler.localSipProfile state

/-- A 407 that repeats an INVITE. -/
def InvitesAgain (env : Env) (w : World) (r : Response) : Prop :=
  r.status = 407 ∧ w.service.currentSession = none ∧ w.service.currentContact ≠ none ∧
    ∃ c, r.proxyAuthenticate = some c ∧ w.service.currentState = .calling ∧
      InviteBuilds env (w.challenged c).handler .authorization

/-- The step takes the client transaction away: it builds another one, or clears it. -/
def Takes (w : World) (i : Input) : Prop :=
  match i.action with
  | .register => RegisterBuilds i.env w.handler.localSipProfile .register
  | .unregister => RegisterBuilds i.env w.handler.localSipProfile .unregister
  | .sendInvite _ => InviteBuilds i.env w.handler .register
  | .endCall => w.service.currentState ≠ .established ∧ CancelBuilds i.env w.handler
  | .reset => True
  | .request ev => ev.message.method = .cancel ∨ ev.message.method = .bye
  | .response ev => RegistersAgain i.env w ev.response ∨ InvitesAgain i.env w ev.response
  | _ => False

/-- What a step does to the client transaction: another one is new, and the request that is
    sent is that of the new one. -/
structure Retains (w : World) (i : Input) (w' : World) : Prop where
  taken : Takes w i → ∀ t, w'.handler.clientTransaction = some t → w.fresh ≤ t.id
  kept : ¬ Takes w i → w'.handler.clientTransaction = w.handler.clientTransaction
  sent : ∀ t, Output.request t ∈ w'.out →
    Takes w i ∧ w'.handler.clientTransaction = some t ∧ t.id < w'.fresh

namespace Retains

theorem of_turns (ht : Turns (Takes w i) w.quiet w') : Retains w i w' := by
  refine ⟨fun hb t h => ?_, fun hn => (ht.keeps hn).1, fun t ho => ?_⟩
  · obtain ⟨t', h', hid, -⟩ := ht.builds hb
    obtain rfl : t' = t := Option.some.inj (h'.symm.trans h)
    exact hid
  · by_cases hb : Takes w i
    · obtain ⟨t', h', -, hlt, ho'⟩ := ht.builds hb
      rcases ho' t ho with hm | rfl
      · cases hm
      · exact ⟨hb, h', hlt⟩
    · exact nomatch (ht.keeps hb).2 t ho

/-- Steps that send no request and keep the transaction. -/
theorem still (hn : ¬ Takes w i) (ht : w'.handler.clientTransaction = w.handler.clientTransaction)
    (ho : Silent w') : Retains w i w' :=
  ⟨fun hb => absurd hb hn, fun _ => ht, fun t hm => absurd hm (ho t)⟩

/-- Steps that send no request and clear the transaction. -/
theorem clears (hb : Takes w i) (ht : w'.handler.clientTransaction = none) (ho : Silent w') :
    Retains w i w' :=
  ⟨fun _ t h => (by rw [ht] at h; cases h), fun hn => absurd hb hn, fun t hm => absurd hm (ho t)⟩

end Retains

theorem registersAgain_iff {r : Response} {c : Challenge} {state : SipRequestState}
    (hr : r.status = 401) (hc : r.wwwAuthenticate = some c)
    (hs : w.service.currentState = .registering ∧ state = .authorization ∨
      w.service.currentState = .unregistering ∧ state = .unregisterAuthorization) :
    RegistersAgain env w r ↔ RegisterBuilds env (w.challenged c).handler.localSipProfile state := by
  constructor
  · rintro ⟨-, c', hc', state', hs', hb⟩
    obtain rfl : c = c' := Option.some.inj (hc.symm.trans hc')
    rcases hs with ⟨hs, rfl⟩ | ⟨hs, rfl⟩ <;> rcases hs' with ⟨hs', rfl⟩ | ⟨hs', rfl⟩
    · exact hb
    · exact absurd (hs.symm.trans hs') (by simp)
    · exact absurd (hs.symm.trans hs') (by simp)
    · exact hb
  · exact fun hb => ⟨hr, c, hc, state, hs, hb⟩

theorem invitesAgain_iff {r : Response} {c : Challenge} {contact : SipContact}
    (hr : r.status = 407) (hs : w.service.currentSession = none)
    (hk : w.service.currentContact = some contact) (hc : r.proxyAuthenticate = some c)
    (hst : w.service.currentState = .calling) :
    InvitesAgain env w r ↔ InviteBuilds env (w.challenged c).handler .authorization := by
  constructor
  · rintro ⟨-, -, -, c', hc', -, hb⟩
    obtain rfl : c = c' := Option.some.inj (hc.symm.trans hc')
    exact hb
  · exact fun hb => ⟨hr, hs, by simp [hk], c, hc, hst, hb⟩

theorem not_registersAgain {r : Response} (h : r.wwwAuthenticate = none ∨
    (w.service.currentState ≠ .registering ∧ w.service.currentState ≠ .unregistering)) :
    ¬ RegistersAgain env w r := by
  rintro ⟨-, c, hc, state, hs, -⟩
  rcases h with hn | ⟨h₁, h₂⟩
  · exact absurd (hn.symm.trans hc) (by simp)
  · exact hs.elim (fun hs => h₁ hs.1) fun hs => h₂ hs.1

theorem not_invitesAgain {r : Response} (h : (w.service.currentSession ≠ none ∨
    w.service.currentContact = none) ∨ r.proxyAuthenticate = none ∨
      w.service.currentState ≠ .calling) : ¬ InvitesAgain env w r := by
  rintro ⟨-, hs, hk, c, hc, hst, -⟩
  rcases h with (h | h) | h | h
  · exact h hs
  · exact hk h
  · exact absurd (h.symm.trans hc) (by simp)
  · exact h hst

theorem unauthorized_turns {r : Response} (hr : r.status = 401) :
    Always (orError (processUnauthorized env r)) (Turns (RegistersAgain env w r) w) w := by
  refine processUnauthorized_rule ?_ ?_ ?_
  · exact fun hc => .kept (not_registersAgain (Or.inl hc)) rfl (by simp)
  · exact fun c _ h₁ h₂ => .kept (not_registersAgain (Or.inr ⟨h₁, h₂⟩)) rfl (by simp)
  · intro c state hc hs
    rw [registersAgain_iff hr hc hs]
    refine wp_mono register_turns ?_ ?_
    · exact fun _ w' ht => ht.frame rfl le_rfl (fun _ => id) rfl rfl fun _ => id
    · exact fun _ w' ht => ht.frame rfl le_rfl (fun _ => id) rfl rfl (by simp)

theorem proxied_turns {r : Response} (hr : r.status = 407) :
    Always (orError (processProxyAuthentication env r)) (Turns (InvitesAgain env w r) w) w := by
  refine processProxyAuthentication_rule ?_ ?_ ?_ ?_
  · exact fun h => .kept (not_invitesAgain (Or.inl h)) rfl (by simp)
  · exact fun _ hc => .kept (not_invitesAgain (Or.inr (Or.inl hc))) rfl (by simp)
  · exact fun c _ _ hst => .kept (not_invitesAgain (Or.inr (Or.inr hst))) rfl (by simp)
  · intro c contact hs hk hc hst
    rw [invitesAgain_iff hr hs hk hc hst]
    refine wp_mono sendInvite_turns ?_ ?_
    · exact fun _ w' ht => ht.frame rfl le_rfl (fun _ => id) rfl rfl fun _ => id
    · exact fun _ w' ht => ht.frame rfl le_rfl (fun _ => id) rfl rfl (by simp)

theorem Invited.clientTransaction {r : Request} (hi : Invited env w r w') :
    w'.handler.clientTransaction = w.handler.clientTransaction := by
  cases hi with
  | busyFailed _ _ _ hw => rcases hw with rfl | rfl <;> simp
  | declineFailed _ _ _ _ _ hw => rcases hw with rfl | ⟨_, _, rfl⟩ <;> simp
  | notFoundFailed _ _ _ _ _ _ _ _ _ hw => rcases hw with rfl | rfl <;> simp
  | ringFailed _ _ _ _ _ _ _ hw => rcases hw with rfl | rfl <;> simp
  | _ => simp

theorem Answered.clientTransaction {ev : ResponseEvent} (ha : Answered env w ev w') :
    w'.handler.clientTransaction = w.handler.clientTransaction := by
  cases ha <;> rfl

namespace Retains

theorem received {ev : RequestEvent} (hr : Receives env w.quiet ev w') :
    Retains w ⟨env, .request ev⟩ w' := by
  have ho : Silent w' := hr.silent (by simp [Silent])
  cases hr with
  | invite _ hm hi => exact still (by simp [Takes, hm]) hi.clientTransaction ho
  | cancel hm => exact clears (Or.inl hm) rfl ho
  | ack _ hm ha =>
    refine still (by simp [Takes, hm]) ?_ ho
    cases ha <;> rfl
  | bye w₁ hm => exact clears (Or.inr hm) rfl ho
  | other _ h₁ _ h₂ => exact still (by simp [Takes, h₁, h₂]) rfl ho

theorem responds (w : World) (ev : ResponseEvent) :
    Retains w ⟨env, .response ev⟩ (JaySip.step w ⟨env, .response ev⟩) := by
  by_cases h401 : ev.response.status = 401
  · have he : JaySip.step w ⟨env, .response ev⟩ =
        after (orError (processUnauthorized env ev.response)) w.quiet := by
      rw [JaySip.step, Action.method, processResponse, h401]
      rfl
    have ht : Takes w ⟨env, .response ev⟩ ↔ RegistersAgain env w ev.response :=
      or_iff_left fun hb => absurd (h401.symm.trans hb.1) (by simp)
    rw [he]
    refine of_turns (wp_after.1 ?_)
    rw [ht]
    exact unauthorized_turns (w := w.quiet) h401
  by_cases h407 : ev.response.status = 407
  · have he : JaySip.step w ⟨env, .response ev⟩ =
        after (orError (processProxyAuthentication env ev.response)) w.quiet := by
      rw [JaySip.step, Action.method, processResponse, h407]
      rfl
    have ht : Takes w ⟨env, .response ev⟩ ↔ InvitesAgain env w ev.response :=
      or_iff_right fun hb => h401 hb.1
    rw [he]
    refine of_turns (wp_after.1 ?_)
    rw [ht]
    exact proxied_turns (w := w.quiet) h407
  have hn : ¬ Takes w ⟨env, .response ev⟩ := by
    rintro (hb | hb)
    · exact h401 hb.1
    · exact h407 hb.1
  have hr : Responds env w.quiet ev (JaySip.step w ⟨env, .response ev⟩) := step_responds
  generalize JaySip.step w ⟨env, .response ev⟩ = w' at hr ⊢
  have ho : Silent w' := hr.silent h401 h407 (by simp [Silent])
  cases hr with
  | ringing _ _ ha => exact still hn (by rw [ha.clientTransaction, rung_handler]; rfl) ho
  | ok _ _ ha => exact still hn ha.clientTransaction ho
  | unauthorized _ he => exact absurd he h401
  | proxied _ he => exact absurd he h407
  | failure => exact still hn rfl ho
  | other => exact still hn rfl ho

theorem registers {state : SipRequestState} {st : SipManagerState}
    (ht : Takes w i ↔ RegisterBuilds env w.handler.localSipProfile state)
    (he : JaySip.step w i = after (do
      setStatusChanged st none
      SipMessageHandler.register env state) w.quiet) : Retains w i (JaySip.step w i) := by
  rw [he]
  refine of_turns (wp_after.1 ?_)
  rw [wp_bind, wp_setStatusChanged, ht]
  refine wp_mono register_turns ?_ ?_
  · exact fun _ w' h => h.frame rfl le_rfl (by simp) rfl rfl fun _ => id
  · exact fun _ w' h => h.frame rfl le_rfl (by simp) rfl rfl fun _ => id

theorem sendInvite {contact : SipContact} :
    Retains w ⟨env, .sendInvite contact⟩ (JaySip.step w ⟨env, .sendInvite contact⟩) := by
  refine of_turns ((wp_after (x := JaySip.sendInvite env contact)).1 ?_)
  rw [JaySip.sendInvite, wp_bind, wp_modify, wp_bind, wp_modify, wp_bind, wp_setStatusChanged]
  refine wp_mono sendInvite_turns ?_ ?_
  · exact fun _ w' h => h.frame rfl le_rfl (by simp) rfl rfl fun _ => id
  · exact fun _ w' h => h.frame rfl le_rfl (by simp) rfl rfl fun _ => id

theorem endCall : Retains w ⟨env, .endCall⟩ (JaySip.step w ⟨env, .endCall⟩) := by
  by_cases hs : w.service.currentState = .established
  · have hn : ¬ Takes w ⟨env, .endCall⟩ := fun hb => hb.1 hs
    have hst := stepped w ⟨env, .endCall⟩
    generalize JaySip.step w ⟨env, .endCall⟩ = w' at hst ⊢
    cases hst with
    | endCall _ _ he =>
      cases he with
      | bye => exact still hn rfl (by simp [Silent])
      | noBye => exact still hn rfl (by simp [Silent])
      | cancel _ hne => exact absurd hs hne
      | noCancel _ _ hne => exact absurd hs hne
  · have ht : Takes w ⟨env, .endCall⟩ ↔ CancelBuilds env w.handler := and_iff_right hs
    refine of_turns ((wp_after (x := JaySip.endCall env)).1 ?_)
    rw [JaySip.endCall, wp_bind, wp_get, ht, if_neg hs]
    exact sendCancel_turns (w := w.quiet)

theorem step (w : World) (i : Input) : Retains w i (JaySip.step w i) := by
  obtain ⟨env, action⟩ := i
  have hst := stepped w ⟨env, action⟩
  cases action with
  | register => exact registers Iff.rfl rfl
  | unregister => exact registers Iff.rfl rfl
  | sendInvite contact => exact sendInvite
  | acceptCall =>
    generalize JaySip.step w ⟨env, .acceptCall⟩ = w' at hst ⊢
    cases hst with
    | acceptCall _ _ ha =>
      cases ha <;> exact still id (by simp) (by simp [Silent])
  | declineCall =>
    generalize JaySip.step w ⟨env, .declineCall⟩ = w' at hst ⊢
    cases hst with
    | declineCall _ _ hd =>
      cases hd <;> exact still id (by simp) (by simp [Silent])
  | endCall => exact endCall
  | reset =>
    generalize JaySip.step w ⟨env, .reset⟩ = w' at hst ⊢
    cases hst with
    | reset => exact clears trivial rfl (by simp [Silent])
  | request ev => exact received step_received
  | response ev => exact responds w ev

end Retains

theorem Invited.no_cancel {r : Request} {t : ClientTransaction} (hi : Invited env w r w')
    (ho : Output.cancel t ∉ w.out) : Output.cancel t ∉ w'.out := by
  cases hi with
  | busyFailed _ _ _ hw => rcases hw with rfl | rfl <;> simpa using ho
  | declineFailed _ _ _ _ _ hw => rcases hw with rfl | ⟨_, _, rfl⟩ <;> simpa using ho
  | notFoundFailed _ _ _ _ _ _ _ _ _ hw => rcases hw with rfl | rfl <;> simpa using ho
  | ringFailed _ _ _ _ _ _ _ hw => rcases hw with rfl | rfl <;> simpa using ho
  | _ => simpa using ho

theorem Receives.no_cancel {ev : RequestEvent} {t : ClientTransaction}
    (hr : Receives env w ev w') (ho : Output.cancel t ∉ w.out) : Output.cancel t ∉ w'.out := by
  cases hr with
  | invite _ _ hi => exact hi.no_cancel (by simpa using ho)
  | cancel => simpa using ho
  | ack _ _ ha => cases ha <;> simpa using ho
  | bye w₁ _ hb =>
    have ht : (w.byeTransaction ev).2.out = w.out := by
      unfold World.byeTransaction
      split_ifs <;> rfl
    have hw : Output.cancel t ∉ w₁.out := by
      rw [← ht] at ho
      generalize (w.byeTransaction ev).2 = w₂, (w.byeTransaction ev).1 = transaction at hb ho
      cases hb with
      | confirmed => simpa using ho
      | answered => simpa using ho
      | failed _ _ _ hw => rcases hw with rfl | rfl <;> simpa using ho
    simpa using hw
  | other => exact ho

theorem Responds.no_cancel {ev : ResponseEvent} {t : ClientTransaction}
    (hr : Responds env w ev w') (ho : Output.cancel t ∉ w.out) : Output.cancel t ∉ w'.out := by
  cases hr with
  | ringing _ _ ha =>
    have hw : Output.cancel t ∉ w.rung.out := by
      rcases rung_out (w := w) with hw | hw <;> simpa [hw] using ho
    cases ha <;> simpa using hw
  | ok _ _ ha => cases ha <;> simpa using ho
  | unauthorized _ _ hu => cases hu <;> simpa using ho
  | proxied _ _ hp => cases hp <;> simpa using ho
  | failure => simpa using ho
  | other => exact ho

/-- A CANCEL leaves the client in `endCall` only, and is that of its transaction. -/
theorem cancel_of_step {t : ClientTransaction} (ht : Output.cancel t ∈ (step w i).out) :
    i.action = .endCall ∧ w.service.currentState ≠ .established ∧
      w.handler.clientTransaction = some t := by
  have hst := stepped w i
  generalize step w i = w' at hst ht
  cases hst with
  | register _ _ hr => cases hr <;> simp at ht
  | unregister _ _ hr => cases hr <;> simp at ht
  | sendInvite _ _ contact hi => cases hi <;> simp at ht
  | acceptCall _ _ ha => cases ha <;> simp at ht
  | declineCall _ _ hd => cases hd <;> simp at ht
  | endCall _ _ he =>
    cases he with
    | cancel t' hs hct =>
      obtain rfl : t = t' := by simpa using ht
      exact ⟨rfl, hs, hct⟩
    | _ => simp at ht
  | reset => simp at ht
  | request _ _ _ hr => exact absurd ht (hr.no_cancel (by simp))
  | response _ _ _ hr => exact absurd ht (hr.no_cancel (by simp))

/-! ## Runs -/

/-- `t` is the transaction of the last INVITE that the client has sent, and no final response
    to it has come. -/
def Open (h : List ClientStep) (t : ClientTransaction) : Prop :=
  ∃ h₁ st h₂, h = h₁ ++ st :: h₂ ∧ Output.request t ∈ st.post.out ∧ t.request.method = .invite ∧
    ∀ st' ∈ h₂, ¬ Finishes st' t.request ∧ ∀ q, Sends st' q → q.method ≠ .invite

/-- Outside of ESTABLISHED `endCall` finds the transaction of an open INVITE, and a CANCEL is
    that of an open INVITE. -/
structure CancelsOwn (h : List ClientStep) (st : ClientStep) : Prop where
  found : st.input.action = .endCall → st.pre.service.currentState ≠ .established →
    ∃ t, st.pre.handler.clientTransaction = some t ∧ Open h t
  cancelled : ∀ t, Output.cancel t ∈ st.post.out → Open h t

/-- Outside of ESTABLISHED `endCall` comes when an INVITE has been sent and nothing since has
    built or cleared a client transaction or was a final response to it. -/
def EndsOpen (h : List ClientStep) (st : ClientStep) : Prop :=
  st.input.action = .endCall → st.pre.service.currentState ≠ .established →
    ∃ h₁ st₁ h₂ q, h = h₁ ++ st₁ :: h₂ ∧ Sends st₁ q ∧ q.method = .invite ∧
      ∀ st' ∈ h₂, ¬ Takes st'.pre st'.input ∧ ¬ Finishes st' q

/-- The client holds the transaction of a request that it sent exactly as long as no step takes
    it away. -/
structure Tracked (h : List ClientStep) (w : World) : Prop where
  bound : ∀ st ∈ h, ∀ t, Output.request t ∈ st.post.out → t.id < w.fresh
  takes : ∀ st ∈ h, ∀ t, Output.request t ∈ st.post.out → Takes st.pre st.input
  held : ∀ h₁ st h₂ t, h = h₁ ++ st :: h₂ → Output.request t ∈ st.post.out →
    (w.handler.clientTransaction = some t ↔ ∀ st' ∈ h₂, ¬ Takes st'.pre st'.input)

namespace Tracked

theorem step (hk : Tracked h w) (i : Input) :
    Tracked (h ++ [client.stepOf w i]) (client.step w i) := by
  have hr : Retains w i (client.step w i) := Retains.step w i
  have hle : w.fresh ≤ (client.step w i).fresh := fresh_le_step w i
  constructor
  · intro st hst t ht
    rcases List.mem_append.1 hst with hst | hst
    · exact (hk.bound st hst t ht).trans_le hle
    · rw [List.mem_singleton.1 hst] at ht
      exact (hr.sent t ht).2.2
  · intro st hst t ht
    rcases List.mem_append.1 hst with hst | hst
    · exact hk.takes st hst t ht
    · rw [List.mem_singleton.1 hst] at ht ⊢
      exact (hr.sent t ht).1
  · intro h₁ st h₂ t he ht
    rcases List.eq_nil_or_concat h₂ with rfl | ⟨h₃, st₂, rfl⟩
    · obtain ⟨-, e⟩ := List.append_inj' he rfl
      cases e
      exact iff_of_true (hr.sent t ht).2.1 (by simp)
    · have he' : h ++ [client.stepOf w i] = (h₁ ++ st :: h₃) ++ [st₂] := by
        simpa using he
      obtain ⟨rfl, e⟩ := List.append_inj' he' rfl
      cases e
      have hold := hk.held h₁ st h₃ t rfl ht
      by_cases hb : Takes w i
      · -- what is held now is newer than `t`
        refine iff_of_false (fun hc => ?_) fun hn => hn (client.stepOf w i) (by simp) hb
        exact absurd (hk.bound st (by simp) t ht) (hr.taken hb t hc).not_gt
      · rw [hr.kept hb, hold]
        constructor
        · intro hn st' hst'
          rw [List.concat_eq_append, List.mem_append, List.mem_singleton] at hst'
          rcases hst' with hst' | rfl
          · exact hn st' hst'
          · exact hb
        · exact fun hn st' hst' => hn st' (by simp [hst'])

/-- What the client sent last is open exactly when nothing since has taken its transaction away
    or answered it for good. -/
theorem open_iff (hk : Tracked h w) : (∃ t, w.handler.clientTransaction = some t ∧ Open h t) ↔
    ∃ h₁ st₁ h₂ q, h = h₁ ++ st₁ :: h₂ ∧ Sends st₁ q ∧ q.method = .invite ∧
      ∀ st' ∈ h₂, ¬ Takes st'.pre st'.input ∧ ¬ Finishes st' q := by
  constructor
  · rintro ⟨t, ht, h₁, st, h₂, rfl, ho, hm, hn⟩
    have hb := (hk.held h₁ st h₂ t rfl ho).1 ht
    exact ⟨h₁, st, h₂, t.request, rfl, mem_requests.2 ⟨t, ho, rfl⟩, hm,
      fun st' hst' => ⟨hb st' hst', (hn st' hst').1⟩⟩
  · rintro ⟨h₁, st, h₂, q, rfl, hq, hm, hn⟩
    obtain ⟨t, ho, rfl⟩ := mem_requests.1 hq
    refine ⟨t, (hk.held h₁ st h₂ t rfl ho).2 fun st' hst' => (hn st' hst').1, h₁, st, h₂, rfl, ho,
      hm, fun st' hst' => ⟨(hn st' hst').2, fun q hq _ => ?_⟩⟩
    obtain ⟨t', ho', -⟩ := mem_requests.1 hq
    exact (hn st' hst').1 (hk.takes st' (by simp [hst']) t' ho')

theorem cancelsOwn_iff (hk : Tracked h w) (i : Input) :
    CancelsOwn h (client.stepOf w i) ↔ EndsOpen h (client.stepOf w i) := by
  constructor
  · exact fun hc hi hs => hk.open_iff.1 (hc.found hi hs)
  · intro hc
    refine ⟨fun hi hs => hk.open_iff.2 (hc hi hs), fun t ht => ?_⟩
    obtain ⟨hi, hs, hct⟩ := cancel_of_step ht
    obtain ⟨t', ht', ho⟩ := hk.open_iff.2 (hc hi hs)
    obtain rfl : t = t' := Option.some.inj (hct.symm.trans ht')
    exact ho

end Tracked

/-- **`endCall` cancels the open INVITE of this client, in exactly the runs that end a call only
    while the INVITE sent last is open and nothing has taken its transaction away.** -/
theorem cancelsOwn_along_iff (s₀ : World) (is : List Input) :
    client.Along s₀ is CancelsOwn ↔ client.Along s₀ is EndsOpen :=
  client.along_congr (I := Tracked) ⟨by simp, by simp, by simp⟩ (fun _ _ i hk => hk.step i)
    (fun _ _ i hk => hk.cancelsOwn_iff i) is

/-- Alice's client registers, and the registration is cancelled in place of a call. -/
theorem register_cancelled : ¬ ∀ s₀, client.init s₀ → ∀ is, client.Along s₀ is CancelsOwn := by
  intro h
  have hrun := h _ Trace.idle_init ([Trace.act (.sendInvite Trace.bob), Trace.act .register] ++
    [Trace.act .endCall])
  obtain ⟨t, ht, -, -, -, -, -, hm, -⟩ := (client.along_snoc.1 hrun).2.found rfl (by decide)
  have hr : (client.run Trace.idle [Trace.act (.sendInvite Trace.bob),
      Trace.act .register]).handler.clientTransaction.map (·.request.method) = some .register := by
    decide
  have hm' : (some t).map (·.request.method) = some .register := ht ▸ hr
  exact absurd (hm.symm.trans (Option.some.inj hm')) (by simp)

end JaySip
