/-
  Repeated requests: how many REGISTERs and INVITEs the client sends between two local
  operations.
-/
import JaySip.Proof.Cancels
import JaySip.Proof.Forgets

namespace JaySip

open Java

variable {env : Env} {w w' : World} {i : Input} {b : Prop} {m : Method}

/-! ## Counting -/

/-- A local operation, and no message. -/
def Action.isLocal : Action → Bool
  | .request _ => false
  | .response _ => false
  | _ => true

/-- The sum over the steps since the last local operation, and that one. -/
def sinceLocal (f : ClientStep → ℕ) (h : List ClientStep) : ℕ :=
  h.foldl (fun n st => (if st.input.action.isLocal then 0 else n) + f st) 0

/-- How many requests of the method a step sends. -/
def sentBy (m : Method) (st : ClientStep) : ℕ :=
  (st.post.requests.filter (·.method = m)).length

/-- Since the last local operation the client has sent at most `N` REGISTERs and `N` INVITEs. -/
def FewSent (N : ℕ) (h : List ClientStep) (st : ClientStep) : Prop :=
  sinceLocal (sentBy .register) (h ++ [st]) ≤ N ∧ sinceLocal (sentBy .invite) (h ++ [st]) ≤ N

/-- The step gets a REGISTER sent: the user registers or unregisters, or a challenge comes while
    that is under way; and the stack lets it. -/
def GetsRegister (w : World) (i : Input) : Prop :=
  i.env.fails .sendRequest = none ∧
    match i.action with
    | .register => RegisterBuilds i.env w.handler.localSipProfile .register
    | .unregister => RegisterBuilds i.env w.handler.localSipProfile .unregister
    | .response ev => RegistersAgain i.env w ev.response
    | _ => False

/-- The step gets an INVITE sent: the user calls, or a challenge comes while that is under way;
    and the stack lets it. -/
def GetsInvite (w : World) (i : Input) : Prop :=
  i.env.fails .sendRequest = none ∧
    match i.action with
    | .sendInvite _ => InviteBuilds i.env w.handler .register
    | .response ev => InvitesAgain i.env w ev.response
    | _ => False

open Classical in
/-- Since the last local operation, that one included, at most `N` steps got a REGISTER sent and
    at most `N` an INVITE. -/
def FewTriggers (N : ℕ) (h : List ClientStep) (st : ClientStep) : Prop :=
  sinceLocal (fun st => if GetsRegister st.pre st.input then 1 else 0) (h ++ [st]) ≤ N ∧
    sinceLocal (fun st => if GetsInvite st.pre st.input then 1 else 0) (h ++ [st]) ≤ N

theorem sinceLocal_snoc (f : ClientStep → ℕ) (h : List ClientStep) (st : ClientStep) :
    sinceLocal f (h ++ [st]) = (if st.input.action.isLocal then 0 else sinceLocal f h) + f st := by
  rw [sinceLocal, List.foldl_append]
  rfl

/-! ## Methods that send a request -/

/-- One request of the method more. -/
def Adds (m : Method) (w w' : World) : Prop :=
  ∃ q : SipRequest, q.method = m ∧ w'.requests = w.requests ++ [q]

/-- If `b`, the method returns with one request more, and else it throws without. -/
abbrev Sending {α : Type} (b : Prop) (m : Method) (x : M α) (w : World) : Prop :=
  wp x (fun _ w' => b ∧ Adds m w w') (fun _ w' => ¬ b ∧ w'.requests = w.requests) w

theorem requests_of_out (ho : w'.out = w.out) : w'.requests = w.requests := by
  rw [World.requests, ho]
  rfl

theorem requests_emit {t : ClientTransaction} (ho : w'.out = w.out ++ [.request t]) :
    w'.requests = w.requests ++ [t.request] := by
  rw [World.requests, ho, List.filterMap_append]
  rfl

theorem register_sending {state : SipRequestState} :
    Sending (RegisterBuilds env w.handler.localSipProfile state ∧ env.fails .sendRequest = none)
      .register (SipMessageHandler.register env state) w := by
  simp only [SipMessageHandler.register, Sending, wp_bind, wp_call, wp_freshId, wp_get, wp_lift,
    wp_getNewClientTransaction, wp_modify, wp_sendRequest]
  refine ⟨fun h₁ => ⟨fun h₂ => ⟨fun a ha => ⟨fun h₃ => ⟨fun h₄ => ?_, fun e h₄ => ⟨?_, ?_⟩⟩,
    fun e h₃ => ⟨?_, ?_⟩⟩, fun e ha => ⟨?_, ?_⟩⟩, fun e h₂ => ⟨?_, ?_⟩⟩, fun e h₁ => ⟨?_, trivial⟩⟩
  · exact ⟨⟨⟨h₁, h₂, ⟨a, ha⟩, h₃⟩, h₄⟩, _, rfl, requests_emit rfl⟩
  · exact fun hb => by simp [hb.2] at h₄
  · exact requests_of_out rfl
  · exact fun hb => by simp [hb.1.2.2.2] at h₃
  · exact requests_of_out rfl
  · rintro ⟨⟨-, -, ⟨a, ha'⟩, -⟩, -⟩
    exact absurd (ha.symm.trans ha') (by simp)
  · exact requests_of_out rfl
  · exact fun hb => by simp [hb.1.2.1] at h₂
  · exact requests_of_out rfl
  · exact fun hb => by simp [hb.1.1] at h₁

theorem sendInvite_sending {contact : SipContact} {state : SipRequestState} :
    Sending (InviteBuilds env w.handler state ∧ env.fails .sendRequest = none)
      .invite (SipMessageHandler.sendInvite env contact state) w := by
  have hp : (w.renewed state).handler.localSipProfile = w.handler.localSipProfile := by simp
  have ho : (w.renewed state).requests = w.requests := requests_of_out renewed_out
  have hid : (∃ c, nonNull (w.renewed state).handler.currentCallID = .ok c) ↔
      state = .register ∨ w.handler.currentCallID ≠ none := by
    rw [renewed_handler]
    by_cases hs : state = .register
    · simp [hs]
    · cases w.handler.currentCallID <;> simp [hs]
  simp only [SipMessageHandler.sendInvite, Sending, wp_bind, wp_call, wp_renewCallID, wp_get, wp_lift]
  refine ⟨fun h₁ => ⟨fun c hc => ⟨fun h₂ => ⟨fun a ha => ?_, fun e ha => ⟨?_, ho⟩⟩,
    fun e h₂ => ⟨?_, ho⟩⟩, fun e hc => ⟨?_, ho⟩⟩, fun e h₁ => ⟨?_, trivial⟩⟩
  · refine wp_mono wp_createOffer_fails ?_ ?_
    · rintro d _ ⟨h₃, rfl⟩
      simp only [wp_getNewClientTransaction, wp_bind, wp_modify, wp_sendRequest]
      refine ⟨fun h₄ => ⟨fun h₅ => ?_, fun e h₅ => ⟨?_, ho⟩⟩, fun e h₄ => ⟨?_, ho⟩⟩
      · refine ⟨⟨⟨h₁, hid.1 ⟨c, hc⟩, h₂, ⟨a, hp ▸ ha⟩, h₃, h₄⟩, h₅⟩, _, ?_,
          (requests_emit rfl).trans (congrArg (· ++ [_]) ho)⟩
        rfl
      · exact fun hb => by simp [hb.2] at h₅
      · exact fun hb => by simp [hb.1.2.2.2.2.2] at h₄
    · rintro e _ ⟨h₃, rfl⟩
      exact ⟨fun hb => by simp [hb.1.2.2.2.2.1] at h₃, ho⟩
  · rintro ⟨⟨-, -, -, ⟨a, ha'⟩, -⟩, -⟩
    rw [hp] at ha
    exact absurd (ha.symm.trans ha') (by simp)
  · exact fun hb => by simp [hb.1.2.2.1] at h₂
  · rintro ⟨⟨-, hs, -⟩, -⟩
    obtain ⟨c, hc'⟩ := hid.2 hs
    exact absurd (hc.symm.trans hc') (by simp)
  · exact fun hb => by simp [hb.1.1] at h₁

/-! ## One step -/

/-- One request of the method more if `b`, and else none. -/
structure Counts (b : Prop) (m : Method) (w w' : World) : Prop where
  adds : b → Adds m w w'
  keeps : ¬ b → w'.requests = w.requests

namespace Counts

/-- Steps that send nothing. -/
theorem kept (hn : ¬ b) (ho : w'.requests = w.requests) : Counts b m w w' :=
  ⟨fun hb => absurd hb hn, fun _ => ho⟩

/-- Both exits of a method that sends, from a world with the same requests. -/
theorem of_sending {α : Type} {x : M α} {w₁ : World} (h : Sending b m x w₁)
    (ho : w₁.requests = w.requests) : Always x (Counts b m w) w₁ := by
  refine wp_mono h ?_ ?_
  · rintro - w' ⟨hb, q, hq, hr⟩
    exact ⟨fun _ => ⟨q, hq, ho ▸ hr⟩, fun hn => absurd hb hn⟩
  · rintro - w' ⟨hn, hr⟩
    exact ⟨fun hb => absurd hb hn, fun _ => hr.trans ho⟩

/-- The same inside a `try` block. -/
theorem of_sending_orError {α : Type} {x : M α} {w₁ : World} (h : Sending b m x w₁)
    (ho : w₁.requests = w.requests) : wp x (fun _ => Counts b m w)
      (fun _ w' => Counts b m w (w'.setStatusChanged .error none)) w₁ := by
  refine wp_mono (of_sending h ho) (fun _ _ hc => hc) ?_
  rintro - w' ⟨ha, hk⟩
  have hr : (w'.setStatusChanged .error none).requests = w'.requests := by
    simp [World.requests]
  exact ⟨fun hb => (ha hb).imp fun q hq => ⟨hq.1, hr.trans hq.2⟩, fun hn => hr.trans (hk hn)⟩

/-- A step that starts without requests. -/
theorem length_eq [Decidable b] (h : Counts b m w w') (ho : Silent w) (m' : Method) :
    (w'.requests.filter (·.method = m')).length = if b ∧ m = m' then 1 else 0 := by
  by_cases hb : b
  · obtain ⟨q, rfl, hr⟩ := h.adds hb
    rw [hr, ho.requests]
    by_cases hm : q.method = m' <;> simp [hb, hm]
  · rw [h.keeps hb, ho.requests, if_neg fun hc => hb hc.1]
    rfl

end Counts

theorem unauthorized_counts {r : Response} (hr : r.status = 401) :
    Always (orError (processUnauthorized env r))
      (Counts (RegistersAgain env w r ∧ env.fails .sendRequest = none) .register w) w := by
  refine processUnauthorized_rule ?_ ?_ ?_
  · exact fun hc => .kept (fun hb => not_registersAgain (Or.inl hc) hb.1) (by simp [World.requests])
  · exact fun c _ h₁ h₂ => .kept (fun hb => not_registersAgain (Or.inr ⟨h₁, h₂⟩) hb.1) rfl
  · intro c state hc hs
    rw [registersAgain_iff hr hc hs]
    exact Counts.of_sending_orError register_sending (requests_of_out rfl)

theorem proxied_counts {r : Response} (hr : r.status = 407) :
    Always (orError (processProxyAuthentication env r))
      (Counts (InvitesAgain env w r ∧ env.fails .sendRequest = none) .invite w) w := by
  refine processProxyAuthentication_rule ?_ ?_ ?_ ?_
  · exact fun h => .kept (fun hb => not_invitesAgain (Or.inl h) hb.1) rfl
  · exact fun _ hc => .kept (fun hb => not_invitesAgain (Or.inr (Or.inl hc)) hb.1)
      (by simp [World.requests])
  · exact fun c _ _ hst => .kept (fun hb => not_invitesAgain (Or.inr (Or.inr hst)) hb.1) rfl
  · intro c contact hs hk hc hst
    rw [invitesAgain_iff hr hs hk hc hst]
    exact Counts.of_sending_orError sendInvite_sending (requests_of_out rfl)

/-- What a step sends: at most one request, of the method that the step calls for. -/
structure Triggers (w : World) (i : Input) (w' : World) : Prop where
  register : ∀ [Decidable (GetsRegister w i)],
    (w'.requests.filter (·.method = .register)).length = if GetsRegister w i then 1 else 0
  invite : ∀ [Decidable (GetsInvite w i)],
    (w'.requests.filter (·.method = .invite)).length = if GetsInvite w i then 1 else 0

namespace Triggers

theorem of_counts (h : Counts b m w.quiet w') (hr : GetsRegister w i ↔ b ∧ m = .register)
    (hi : GetsInvite w i ↔ b ∧ m = .invite) : Triggers w i w' := by
  classical
  have ho : Silent w.quiet := by simp [Silent]
  constructor
  · intro _
    rw [h.length_eq ho]
    simp only [hr]
  · intro _
    rw [h.length_eq ho]
    simp only [hi]

/-- Steps that send no request. -/
theorem of_silent (hs : Silent w') (hr : ¬ GetsRegister w i) (hi : ¬ GetsInvite w i) :
    Triggers w i w' := by
  constructor
  · intro _
    rw [if_neg hr, hs.requests]
    rfl
  · intro _
    rw [if_neg hi, hs.requests]
    rfl

theorem responds (w : World) (ev : ResponseEvent) :
    Triggers w ⟨env, .response ev⟩ (JaySip.step w ⟨env, .response ev⟩) := by
  have h₁ : GetsRegister w ⟨env, .response ev⟩ ↔
      RegistersAgain env w ev.response ∧ env.fails .sendRequest = none := and_comm
  have h₂ : GetsInvite w ⟨env, .response ev⟩ ↔
      InvitesAgain env w ev.response ∧ env.fails .sendRequest = none := and_comm
  by_cases h401 : ev.response.status = 401
  · have he : JaySip.step w ⟨env, .response ev⟩ =
        after (orError (processUnauthorized env ev.response)) w.quiet := by
      rw [JaySip.step, Action.method, processResponse, h401]
      rfl
    have hc : Counts (RegistersAgain env w.quiet ev.response ∧ env.fails .sendRequest = none)
        .register w.quiet (after (orError (processUnauthorized env ev.response)) w.quiet) :=
      wp_after.1 (unauthorized_counts h401)
    rw [he]
    refine of_counts hc (h₁.trans (and_iff_left rfl).symm) (iff_of_false ?_ fun h => by cases h.2)
    exact fun h => absurd (h401.symm.trans h.2.1) (by simp)
  by_cases h407 : ev.response.status = 407
  · have he : JaySip.step w ⟨env, .response ev⟩ =
        after (orError (processProxyAuthentication env ev.response)) w.quiet := by
      rw [JaySip.step, Action.method, processResponse, h407]
      rfl
    have hc : Counts (InvitesAgain env w.quiet ev.response ∧ env.fails .sendRequest = none)
        .invite w.quiet (after (orError (processProxyAuthentication env ev.response)) w.quiet) :=
      wp_after.1 (proxied_counts h407)
    rw [he]
    refine of_counts hc (iff_of_false ?_ fun h => by cases h.2) (h₂.trans (and_iff_left rfl).symm)
    exact fun h => h401 h.2.1
  exact of_silent (step_responds.silent h401 h407 (by simp [Silent])) (fun h => h401 h.2.1)
    fun h => h407 h.2.1

theorem registers {env : Env} {action : Action} {st : SipManagerState} {state : SipRequestState}
    (he : action.method env = (do
      setStatusChanged st none
      SipMessageHandler.register env state))
    (hr : GetsRegister w ⟨env, action⟩ ↔
      env.fails .sendRequest = none ∧ RegisterBuilds env w.handler.localSipProfile state)
    (hi : ¬ GetsInvite w ⟨env, action⟩) :
    Triggers w ⟨env, action⟩ (JaySip.step w ⟨env, action⟩) := by
  have hc : Always (action.method env) (Counts (RegisterBuilds env w.handler.localSipProfile state ∧
      env.fails .sendRequest = none) .register w.quiet) w.quiet := by
    rw [he, Always, wp_bind, wp_setStatusChanged]
    exact Counts.of_sending register_sending (by simp [World.requests])
  refine of_counts (wp_after.1 hc) ?_ (iff_of_false hi fun h => by cases h.2)
  rw [hr, and_iff_left rfl, and_comm]

theorem sendInvite {contact : SipContact} :
    Triggers w ⟨env, .sendInvite contact⟩ (JaySip.step w ⟨env, .sendInvite contact⟩) := by
  have hc : Always (JaySip.sendInvite env contact) (Counts (InviteBuilds env w.handler .register ∧
      env.fails .sendRequest = none) .invite w.quiet) w.quiet := by
    rw [JaySip.sendInvite, Always, wp_bind, wp_modify, wp_bind, wp_modify, wp_bind,
      wp_setStatusChanged]
    exact Counts.of_sending sendInvite_sending (by simp [World.requests])
  refine of_counts (wp_after.1 hc) (iff_of_false (fun h => h.2) fun h => by cases h.2) ?_
  rw [and_iff_left rfl]
  exact and_comm

theorem step (w : World) (i : Input) : Triggers w i (JaySip.step w i) := by
  obtain ⟨env, action⟩ := i
  have hst := stepped w ⟨env, action⟩
  cases action with
  | register => exact registers rfl Iff.rfl fun h => h.2
  | unregister => exact registers rfl Iff.rfl fun h => h.2
  | sendInvite contact => exact sendInvite
  | acceptCall =>
    generalize JaySip.step w ⟨env, .acceptCall⟩ = w' at hst ⊢
    cases hst with
    | acceptCall _ _ ha =>
      refine of_silent ?_ (fun h => h.2) fun h => h.2
      cases ha <;> simp [Silent]
  | declineCall =>
    generalize JaySip.step w ⟨env, .declineCall⟩ = w' at hst ⊢
    cases hst with
    | declineCall _ _ hd =>
      refine of_silent ?_ (fun h => h.2) fun h => h.2
      cases hd <;> simp [Silent]
  | endCall =>
    generalize JaySip.step w ⟨env, .endCall⟩ = w' at hst ⊢
    cases hst with
    | endCall _ _ he =>
      refine of_silent ?_ (fun h => h.2) fun h => h.2
      cases he <;> simp [Silent]
  | reset =>
    generalize JaySip.step w ⟨env, .reset⟩ = w' at hst ⊢
    cases hst with
    | reset => exact of_silent (by simp [Silent]) (fun h => h.2) fun h => h.2
  | request ev =>
    exact of_silent (step_received.silent (by simp [Silent])) (fun h => h.2) fun h => h.2
  | response ev => exact responds w ev

end Triggers

/-! ## Runs -/

/-- **Repeats of requests.**  Between two local operations the client sends at most `N`
    REGISTERs and `N` INVITEs in exactly the runs in which, in each such span, at most `N`
    steps are the user's (un)registering or a challenge to it, and at most `N` the user's
    call or a challenge to it. -/
theorem fewSent_along_iff (N : ℕ) (w₀ : World) (is : List Input) :
    client.Along w₀ is (FewSent N) ↔ client.Along w₀ is (FewTriggers N) := by
  classical
  refine client.along_congr (I := fun h _ => ∀ f g : ClientStep → ℕ,
    (∀ w i, f (client.stepOf w i) = g (client.stepOf w i)) → sinceLocal f h = sinceLocal g h)
    (fun _ _ _ => rfl) ?_ ?_ is
  · intro h w i hI f g hfg
    rw [sinceLocal_snoc, sinceLocal_snoc, hI f g hfg, hfg]
  · intro h w i hI
    have hsnoc : ∀ f g : ClientStep → ℕ, (∀ w i, f (client.stepOf w i) = g (client.stepOf w i)) →
        sinceLocal f (h ++ [client.stepOf w i]) = sinceLocal g (h ++ [client.stepOf w i]) := by
      intro f g hfg
      rw [sinceLocal_snoc, sinceLocal_snoc, hI f g hfg, hfg]
    unfold FewSent FewTriggers
    rw [hsnoc (sentBy .register) (fun st => if GetsRegister st.pre st.input then 1 else 0)
        fun w i => (Triggers.step w i).register,
      hsnoc (sentBy .invite) (fun st => if GetsInvite st.pre st.input then 1 else 0)
        fun w i => (Triggers.step w i).invite]

namespace Trace

/-- Alice's client registers, and its profile has a nonce and a realm. -/
structure Registering (w : World) : Prop where
  state : w.service.currentState = .registering
  profile : ∃ nonce realm,
    w.handler.localSipProfile = { alice with nonce := nonce, realm := realm }

/-- Each challenge gets another REGISTER sent, and the next one will. -/
theorem Registering.again {w : World} (h : Registering w) :
    Registering (client.step w challenge) ∧ sentBy .register (client.stepOf w challenge) = 1 := by
  obtain ⟨⟨service, sessions⟩, handler, fresh, out⟩ := w
  obtain ⟨nonce, realm, hp⟩ := h.profile
  obtain ⟨profile, localIPAddress, localSipPort⟩ := handler
  obtain rfl := h.state
  obtain rfl := hp
  exact ⟨⟨rfl, _, _, rfl⟩, rfl⟩

/-- However many challenges come, each is answered. -/
theorem Registering.challenges {w : World} (h : Registering w) (h₀ : List ClientStep) (n : ℕ) :
    sinceLocal (sentBy .register) (h₀ ++ client.history w (List.replicate n challenge)) =
      sinceLocal (sentBy .register) h₀ + n := by
  induction n generalizing w h₀ with
  | zero => simp [Machine.history]
  | succ n ih =>
    obtain ⟨hn, hs⟩ := h.again
    rw [List.replicate_succ, Machine.history, List.append_cons, ih hn, sinceLocal_snoc, hs]
    simp [Action.isLocal, Trace.challenge, Machine.stepOf]
    omega

end Trace

/-- Alice registers, and her registrar challenges every REGISTER: no number bounds them. -/
theorem repeats_unbounded : ¬ ∃ N, ∀ w₀, client.init w₀ → ∀ is,
    client.Along w₀ is (FewSent N) := by
  rintro ⟨N, h⟩
  have hr : Trace.Registering (client.step Trace.idle (Trace.act .register)) := ⟨rfl, _, _, rfl⟩
  have hrun := h _ Trace.idle_init (Trace.act .register :: List.replicate (N + 1) Trace.challenge)
  rw [List.replicate_succ', ← List.cons_append, Machine.along_snoc] at hrun
  have hN := hrun.2.1
  have he : client.history Trace.idle (Trace.act .register :: List.replicate N Trace.challenge) ++
      [client.stepOf (client.run Trace.idle
        (Trace.act .register :: List.replicate N Trace.challenge)) Trace.challenge] =
      [client.stepOf Trace.idle (Trace.act .register)] ++ client.history
        (client.step Trace.idle (Trace.act .register)) (List.replicate (N + 1) Trace.challenge) := by
    rw [List.replicate_succ', Machine.history_append]
    rfl
  rw [he, hr.challenges] at hN
  omega

end JaySip
