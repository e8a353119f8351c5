/-
  What the methods of `SipService` do, by the exits they take: for each method the
  worlds it can end in.
-/
import JaySip.Proof.Handler
import JaySip.Sip.Service

namespace JaySip

open Java

variable {env : Env} {w : World} {α : Type} {Q : α → World → Prop} {E : JException → World → Prop}

@[simp] theorem wp_orError {x : M Unit} {Q : Unit → World → Prop} :
    wp (orError x) Q E w ↔ wp x Q (fun _ w' => Q () (w'.setStatusChanged .error none)) w := by
  rw [orError, wp_tryCatch]
  rfl

/-! ## Local operations -/

/-- `SipMessageHandler.register` from `w`. -/
inductive Registers (env : Env) (w : World) (state : SipRequestState) : World → Prop
  | sent (a : Option Authorization) :
      registerAuthorization env w.handler.localSipProfile state = .ok a →
      Registers env w state (w.tick.requested env (registerRequest w.handler w.fresh state a))
  | failed (n : ℕ) (t : Option ClientTransaction) : w.fresh ≤ n →
      Registers env w state (w.began n t)

/-- `SipMessageHandler.sendInvite` from `w`. -/
inductive Invites (env : Env) (w : World) (contact : SipContact) (state : SipRequestState) :
    World → Prop
  | sent (c : CallId) (a : Option Authorization) (d : SessionDescription) :
      (w.renewed state).handler.currentCallID = some c →
      Invites env w contact state (((w.renewed state).requested env
        (inviteRequest w.handler c contact a d)).setDialog (env.dialogTag.map (⟨c, ·⟩)))
  | failed (n : ℕ) (t : Option ClientTransaction) : (state = .register → ¬ env.Succeeds) →
      (w.renewed state).fresh ≤ n → Invites env w contact state ((w.renewed state).began n t)
  | refused : (state = .register → ¬ env.Succeeds) → Invites env w contact state w

theorem wp_registers {state : SipRequestState} : wp (SipMessageHandler.register env state)
    (fun _ => Registers env w state) (fun _ => Registers env w state) w := by
  refine wp_mono wp_register ?_ ?_
  · rintro - _ ⟨a, ha, rfl⟩
    exact .sent a ha
  · rintro - _ ⟨n, t, hn, rfl⟩
    exact .failed n t hn

theorem wp_invites {contact : SipContact} {state : SipRequestState} :
    wp (SipMessageHandler.sendInvite env contact state)
      (fun _ => Invites env w contact state) (fun _ => Invites env w contact state) w := by
  refine wp_mono wp_sendInvite ?_ ?_
  · rintro - _ ⟨c, a, d, hc, -, rfl⟩
    exact .sent c a d hc
  · rintro - _ ⟨hs, rfl | ⟨n, t, hn, rfl⟩⟩
    · exact .refused hs
    · exact .failed n t hs hn

theorem after_register :
    Registers env (w.setStatusChanged .registering none) .register (after (register env) w) := by
  rw [register]
  exact wp_after.1 (by simpa using wp_registers)

theorem after_unregister :
    Registers env (w.setStatusChanged .unregistering none) .unregister
      (after (unregister env) w) := by
  rw [unregister]
  exact wp_after.1 (by simpa using wp_registers)

/-- The world in which `sendInvite` calls. -/
@[simps! service handler fresh out]
def World.calls (w : World) (contact : SipContact) : World :=
  ((w.setContact (some contact)).setSession none).setStatusChanged .calling none

theorem after_sendInvite {contact : SipContact} :
    Invites env (w.calls contact) contact .register (after (sendInvite env contact) w) := by
  rw [sendInvite]
  exact wp_after.1 (by simpa [World.calls] using wp_invites)

/-- `acceptCall`. -/
inductive Accepts (env : Env) (w : World) : World → Prop
  | accepted (r : Request) (fs : List SipAudioFormat) (sdp : SessionDescription) :
      w.service.currentRequest = some r → w.handler.answer r = .ok (some (fs, sdp)) →
      Accepts env w ((w.setSipAudioFormats fs).replied
        { status := 200, request := r
          contact := some (w.handler.contactHeader (some 3600)), content := some sdp })
  | failed (r : Request) (fs : List SipAudioFormat) : w.service.currentRequest = some r →
      Accepts env w (w.setSipAudioFormats fs)
  | failedCached (r : Request) (fs : List SipAudioFormat) : w.service.currentRequest = some r →
      Accepts env w ((w.setSipAudioFormats fs).cached r)
  | idle : w.service.currentRequest = none → Accepts env w w

theorem after_acceptCall : Accepts env w (after (acceptCall env) w) := by
  refine wp_after.1 ?_
  rw [acceptCall, wp_bind, wp_get]
  cases h : w.service.currentRequest with
  | none => exact .idle h
  | some r =>
    refine wp_mono wp_sendOK_none ?_ ?_
    · rintro - _ ⟨fs, sdp, ha, rfl⟩
      exact .accepted r fs sdp h ha
    · rintro - _ ⟨fs, rfl | rfl⟩
      · exact .failed r fs h
      · exact .failedCached r fs h

/-- `declineCall`. -/
inductive Declines (env : Env) (w : World) : World → Prop
  | declined (r : Request) : w.service.currentRequest = some r → w.CanReply env →
      Declines env w (w.replied { status := 603, request := r })
  | failed (r : Request) : w.service.currentRequest = some r → Declines env w (w.cached r)
  | idle : Declines env w w

theorem after_declineCall : Declines env w (after (declineCall env) w) := by
  refine wp_after.1 ?_
  rw [declineCall, wp_bind, wp_get]
  cases h : w.service.currentRequest with
  | none => exact .idle
  | some r =>
    refine wp_mono wp_reply ?_ ?_
    · rintro - _ ⟨_, ⟨⟩, hr, rfl⟩
      exact .declined r h hr
    · rintro - _ ⟨-, rfl | ⟨_, ⟨⟩, rfl⟩⟩
      · exact .idle
      · exact .failed r h

/-- `endCall`. -/
inductive Ends (env : Env) (w : World) : World → Prop
  | bye (d : Dialog) : w.service.currentState = .established → w.handler.currentDialog = some d →
      Ends env w (w.tick.emit (.bye d))
  | cancel (t : ClientTransaction) : w.service.currentState ≠ .established →
      w.handler.clientTransaction = some t →
      Ends env w ((w.tick.setClientTransaction
        (some (w.clientTransactionFor env t.request.toCancel))).emit (.cancel t))
  | noBye (n : ℕ) : w.service.currentState = .established →
      (w.handler.currentDialog ≠ none → ¬ env.Succeeds) → w.fresh ≤ n →
      Ends env w (w.began n w.handler.clientTransaction)
  | noCancel (n : ℕ) (t : Option ClientTransaction) : w.service.currentState ≠ .established →
      w.fresh ≤ n → Ends env w (w.began n t)

theorem after_endCall : Ends env w (after (endCall env) w) := by
  refine wp_after.1 ?_
  rw [endCall, wp_bind, wp_get, wp_ite]
  refine ⟨fun h => wp_mono wp_sendBye ?_ ?_, fun h => wp_mono wp_sendCancel ?_ ?_⟩
  · rintro - _ ⟨d, hd, rfl⟩
    exact .bye d h hd
  · rintro - _ ⟨hd, n, hn, rfl⟩
    exact .noBye n h hd hn
  · rintro - _ ⟨t, ht, rfl⟩
    exact .cancel t h ht
  · rintro - _ ⟨n, t, hn, rfl⟩
    exact .noCancel n t h hn

/-- The world after `reset`. -/
@[simps! service handler fresh out]
def World.cleared (w : World) : World :=
  { w with handler := w.handler.reset }.setContact none |>.setRequest none |>.setSession none
    |>.setStatusChanged .ready none

/-! ## Incoming requests -/

/-- The session that `createSipSession` makes of an INVITE. -/
def Request.session (r : Request) (getByName : Str → Option Str) : Except JException SipSession := do
  createSipSession getByName r.toMessage (.request r.id) (← descriptionOf r.rawContent)

/-- The world in which an INVITE has its session. -/
@[simps! service handler fresh out]
def World.opened (w : World) (fs : List SipAudioFormat) (sdp : SessionDescription)
    (s : SipSession) : World :=
  ((w.setSipAudioFormats fs).setSdp (some sdp)).setSession
    (some { s with incoming := true, audioFormats := fs.map some })

/-- The common case of the INVITE branch: an answer can be made, and a session. -/
structure Opens (env : Env) (w : World) (r : Request) (fs : List SipAudioFormat)
    (sdp : SessionDescription) (s : SipSession) : Prop where
  free : w.service.currentSession = none
  describes : env.fails .createDescription = none
  answer : w.handler.answer r = .ok (some (fs, sdp))
  session : r.session env.getByName = .ok s

/-- What becomes of an INVITE. -/
inductive Invited (env : Env) (w : World) (r : Request) : World → Prop
  | busy : w.service.currentSession ≠ none → w.CanReply env →
      Invited env w r (w.replied { status := 486, request := r })
  | busyFailed (w' : World) : w.service.currentSession ≠ none → ¬ w.CanReply env →
      (w' = w ∨ w' = w.cached r) → Invited env w r (w'.setStatusChanged .error none)
  | unread (fs : List SipAudioFormat) : w.service.currentSession = none →
      (env.fails .createDescription = none → ∃ e, w.handler.answer r = .error e) →
      Invited env w r ((w.setSipAudioFormats fs).setStatusChanged .error none)
  | declined (q : Request) : w.service.currentSession = none →
      env.fails .createDescription = none → w.handler.answer r = .ok none →
      w.service.currentRequest = some q → w.CanReply env →
      Invited env w r ((w.setSdp none).replied { status := 603, request := q })
  | declineFailed (w' : World) : w.service.currentSession = none →
      env.fails .createDescription = none → w.handler.answer r = .ok none →
      (w.service.currentRequest ≠ none → ¬ w.CanReply env) →
      (w' = w.setSdp none ∨ ∃ q, w.service.currentRequest = some q ∧ w' = (w.setSdp none).cached q) →
      Invited env w r (w'.setStatusChanged .error none)
  | noSession (fs : List SipAudioFormat) (sdp : SessionDescription) (e : JException) :
      w.service.currentSession = none → env.fails .createDescription = none →
      w.handler.answer r = .ok (some (fs, sdp)) → r.session env.getByName = .error e →
      Invited env w r (((w.setSipAudioFormats fs).setSdp (some sdp)).setStatusChanged .error none)
  | noUser (fs sdp s) (e : JException) : Opens env w r fs sdp s → s.calledUser = .error e →
      Invited env w r ((w.opened fs sdp s).setStatusChanged .error none)
  | notFound (fs sdp s) (user : Str) : Opens env w r fs sdp s → s.calledUser = .ok user →
      user ≠ w.handler.localSipProfile.userName → w.CanReply env →
      Invited env w r ((w.opened fs sdp s).replied { status := 404, request := r })
  | notFoundFailed (fs sdp s) (user : Str) (w' : World) : Opens env w r fs sdp s →
      s.calledUser = .ok user → user ≠ w.handler.localSipProfile.userName → ¬ w.CanReply env →
      (w' = w.opened fs sdp s ∨ w' = (w.opened fs sdp s).cached r) →
      Invited env w r (w'.setStatusChanged .error none)
  | rang (fs sdp s) (number : Str) : Opens env w r fs sdp s →
      s.calledUser = .ok w.handler.localSipProfile.userName → w.CanReply env →
      s.getCallerNumber = .ok number →
      Invited env w r (((((w.opened fs sdp s).setRequest (some r)).replied
        { status := 180, request := r }).setStatusChanged .incoming (some number)).emit
          (.status .incoming (some number)))
  | rangError (fs sdp s) (e : JException) : Opens env w r fs sdp s →
      s.calledUser = .ok w.handler.localSipProfile.userName → w.CanReply env →
      s.getCallerNumber = .error e →
      Invited env w r ((((w.opened fs sdp s).setRequest (some r)).replied
        { status := 180, request := r }).setStatusChanged .error none)
  | ringFailed (fs sdp s) (w' : World) : Opens env w r fs sdp s →
      s.calledUser = .ok w.handler.localSipProfile.userName → ¬ w.CanReply env →
      (w' = (w.opened fs sdp s).setRequest (some r) ∨
        w' = ((w.opened fs sdp s).setRequest (some r)).cached r) →
      Invited env w r (w'.setStatusChanged .error none)

/-- With a session the INVITE is answered busy, or the 486 fails. -/
theorem Invited.of_session {r : Request} {w' : World} (hs : w.service.currentSession ≠ none)
    (hi : Invited env w r w') :
    (w.CanReply env ∧ w' = w.replied { status := 486, request := r }) ∨
      (¬ w.CanReply env ∧ ∃ w₁ : World, w' = w₁.setStatusChanged .error none) := by
  cases hi with
  | busy _ hr => exact Or.inl ⟨hr, rfl⟩
  | busyFailed w₁ _ hr => exact Or.inr ⟨hr, w₁, rfl⟩
  | unread _ hn => exact absurd hn hs
  | declined _ hn => exact absurd hn hs
  | declineFailed _ hn => exact absurd hn hs
  | noSession _ _ _ hn => exact absurd hn hs
  | noUser _ _ _ _ ho => exact absurd ho.free hs
  | notFound _ _ _ _ ho => exact absurd ho.free hs
  | notFoundFailed _ _ _ _ _ ho => exact absurd ho.free hs
  | rang _ _ _ _ ho => exact absurd ho.free hs
  | rangError _ _ _ _ ho => exact absurd ho.free hs
  | ringFailed _ _ _ _ ho => exact absurd ho.free hs

theorem answer_of_unread {h : SipMessageHandler} {r : Request} {e : JException}
    (he : descriptionOf r.rawContent = .error e) : h.answer r = .error e := by
  simp only [SipMessageHandler.answer, readOffer, he, error_bind]

/-- The last part of the INVITE branch, for the user that the To header names. -/
theorem wp_invited_user {r : Request} {fs : List SipAudioFormat} {sdp : SessionDescription}
    {s : SipSession} {user : Str} (h : Opens env w r fs sdp s) (hu : s.calledUser = .ok user) :
    wp (orError (if user = w.handler.localSipProfile.userName then do
        modify (·.setRequest (some r))
        sendRinging env (some r)
        let number ← lift s.getCallerNumber
        setStatusChanged .incoming (some number)
        modify (·.emit (.status .incoming (some number)))
      else sendNotFound env (some r)))
    (fun _ => Invited env w r) (fun _ => Invited env w r) (w.opened fs sdp s) := by
  rw [wp_orError, wp_ite]
  refine ⟨?_, fun hn => wp_mono wp_reply ?_ ?_⟩
  · rintro rfl
    rw [wp_bind, wp_modify, wp_bind]
    refine wp_mono wp_reply ?_ ?_
    · rintro - _ ⟨_, ⟨⟩, hr, rfl⟩
      simp only [wp_bind, wp_lift, wp_setStatusChanged, wp_modify]
      exact ⟨fun number hc => .rang fs sdp s number h hu hr hc,
        fun e hc => .rangError fs sdp s e h hu hr hc⟩
    · rintro - w' ⟨hr, hw⟩
      refine .ringFailed fs sdp s w' h hu (hr (by simp)) ?_
      rcases hw with rfl | ⟨_, ⟨⟩, rfl⟩
      · exact Or.inl rfl
      · exact Or.inr rfl
  · rintro - _ ⟨_, ⟨⟩, hr, rfl⟩
    exact .notFound fs sdp s user h hu hn hr
  · rintro - w' ⟨hr, hw⟩
    refine .notFoundFailed fs sdp s user w' h hu hn (hr (by simp)) ?_
    rcases hw with rfl | ⟨_, ⟨⟩, rfl⟩
    · exact Or.inl rfl
    · exact Or.inr rfl

theorem wp_processInvite {r : Request} : wp (orError (processInvite env r))
    (fun _ => Invited env w r) (fun _ => Invited env w r) w := by
  rw [wp_orError, processInvite, wp_bind, wp_get, wp_ite]
  refine ⟨fun hs => ?_, fun hs => wp_mono wp_reply ?_ ?_⟩
  · rw [wp_bind, wp_lift]
    refine ⟨fun d hd => ?_, fun e he => ?_⟩
    · rw [wp_bind]
      refine wp_mono wp_createAnswer ?_ ?_
      · rintro a _ ⟨hc, ⟨rfl, ha, rfl⟩ | ⟨fs, sdp, rfl, ha, rfl⟩⟩
        · rw [wp_bind, wp_modify, if_pos rfl]
          refine wp_mono wp_reply ?_ ?_
          · rintro - _ ⟨q, hq, hr, rfl⟩
            exact .declined q hs hc ha hq hr
          · rintro - w' ⟨hr, hw⟩
            exact .declineFailed w' hs hc ha hr hw
        · rw [wp_bind, wp_modify, if_neg (by simp), wp_bind, wp_lift]
          have hsession : r.session env.getByName =
              createSipSession env.getByName r.toMessage (.request r.id) d := by
            rw [Request.session, hd, ok_bind]
          refine ⟨fun s hses => ?_, fun e hses => ?_⟩
          · have ho : Opens env w r fs sdp s := ⟨hs, hc, ha, hsession.trans hses⟩
            rw [wp_bind, wp_modify, wp_bind, wp_lift]
            exact ⟨fun user hu => wp_orError.1 (wp_invited_user ho hu),
              fun e hu => .noUser fs sdp s e ho hu⟩
          · exact .noSession fs sdp e hs hc ha (hsession.trans hses)
      · rintro e _ ⟨ha, fs, rfl⟩
        exact .unread fs hs ha
    · exact .unread w.handler.mSipAudioFormats hs fun _ => ⟨e, answer_of_unread he⟩
  · rintro - _ ⟨_, ⟨⟩, hr, rfl⟩
    exact .busy hs hr
  · rintro - w' ⟨hr, hw⟩
    refine .busyFailed w' hs (hr (by simp)) ?_
    rcases hw with rfl | ⟨_, ⟨⟩, rfl⟩
    · exact Or.inl rfl
    · exact Or.inr rfl

/-- What becomes of an ACK. -/
inductive Acked (w : World) (dialog : Option Dialog) : World → Prop
  | established (s : SipSession) (number : Str) : w.service.currentSession = some s →
      s.getCallerNumber = .ok number →
      Acked w dialog ((w.setDialog dialog).setStatusChanged .established (some number))
  | unnumbered (s : SipSession) (e : JException) : w.service.currentSession = some s →
      s.getCallerNumber = .error e → Acked w dialog (w.setDialog dialog)
  | ignored : w.service.currentSession = none → Acked w dialog w

theorem wp_processAck {dialog : Option Dialog} : wp (processAck dialog)
    (fun _ => Acked w dialog) (fun _ => Acked w dialog) w := by
  rw [processAck, wp_bind, wp_get]
  cases h : w.service.currentSession with
  | none => exact .ignored h
  | some s =>
    simp only [wp_bind, wp_modify, wp_lift, wp_setStatusChanged]
    exact ⟨fun number hn => .established s number h hn, fun e he => .unnumbered s e h he⟩

/-- What becomes of a BYE, up to the final `reset`. -/
inductive Byed (w : World) (r : Request) : Option ServerTransaction → World → Prop
  | confirmed (t : ServerTransaction) :
      Byed w r (some t) (w.emit (.response t { status := 200, request := r }))
  | answered (fs : List SipAudioFormat) (sdp : SessionDescription) :
      w.handler.answer r = .ok (some (fs, sdp)) →
      Byed w r none ((w.setSipAudioFormats fs).replied
        { status := 200, request := r
          contact := some (w.handler.contactHeader (some 3600)), content := some sdp })
  | failed (transaction : Option ServerTransaction) (fs : List SipAudioFormat) (w' : World) :
      (w' = w.setSipAudioFormats fs ∨ w' = (w.setSipAudioFormats fs).cached r) →
      Byed w r transaction (w'.setStatusChanged .error none)

/-- The world after a BYE. -/
@[simps! service handler fresh out]
def World.hungUp (w : World) : World := (w.setStatusChanged .bye none).cleared

theorem wp_processBye {r : Request} {transaction : Option ServerTransaction} :
    wp (processBye env r transaction)
      (fun _ w' => ∃ w₁, Byed w r transaction w₁ ∧ w' = w₁.hungUp)
      (fun _ _ => False) w := by
  have done : ∀ {w₁ : World}, Byed w r transaction w₁ →
      wp (setStatusChanged .bye none >>= fun _ => reset)
        (fun _ w' => ∃ w₁, Byed w r transaction w₁ ∧ w' = w₁.hungUp) (fun _ _ => False) w₁ :=
    fun h => ⟨_, h, rfl⟩
  rw [processBye, wp_bind]
  refine wp_orError.2 ?_
  cases transaction with
  | some t =>
    refine wp_mono wp_sendOK_some ?_ ?_
    · rintro - _ rfl
      exact done (.confirmed t)
    · rintro - w' hw
      exact done (.failed _ w.handler.mSipAudioFormats w' (Or.inl hw))
  | none =>
    refine wp_mono wp_sendOK_none ?_ ?_
    · rintro - _ ⟨fs, sdp, ha, rfl⟩
      exact done (.answered fs sdp ha)
    · rintro - w' ⟨fs, hw⟩
      exact done (.failed _ fs w' hw)

/-- The request object that the stack makes of a message. -/
def World.received (w : World) (ev : RequestEvent) : Request := ⟨ev.message, w.fresh⟩

/-- The stack's own transaction of a BYE, and the world in which it is answered. -/
def World.byeTransaction (w : World) (ev : RequestEvent) : Option ServerTransaction × World :=
  if ev.hasTransaction then (some ⟨w.fresh + 1, w.received ev⟩, w.tick.tick) else (none, w.tick)

/-- What becomes of a request. -/
inductive Receives (env : Env) (w : World) (ev : RequestEvent) : World → Prop
  | invite (w' : World) : ev.message.method = .invite → Invited env w.tick (w.received ev) w' →
      Receives env w ev w'
  | cancel : ev.message.method = .cancel → Receives env w ev w.tick.cleared
  | ack (w' : World) : ev.message.method = .ack → Acked w.tick ev.getDialog w' →
      Receives env w ev w'
  | bye (w' : World) : ev.message.method = .bye →
      Byed (w.byeTransaction ev).2 (w.received ev) (w.byeTransaction ev).1 w' →
      Receives env w ev w'.hungUp
  | other : ev.message.method ≠ .invite → ev.message.method ≠ .cancel →
      ev.message.method ≠ .ack → ev.message.method ≠ .bye → Receives env w ev w.tick

theorem after_processRequest {ev : RequestEvent} :
    Receives env w ev (after (processRequest env ev) w) := by
  refine wp_after.1 ?_
  rw [processRequest, wp_bind, wp_freshId]
  dsimp only
  cases h : ev.message.method with
  | invite => exact wp_mono wp_processInvite (fun _ w' => .invite w' h) (fun _ w' => .invite w' h)
  | cancel => exact .cancel h
  | ack => exact wp_mono wp_processAck (fun _ w' => .ack w' h) (fun _ w' => .ack w' h)
  | bye =>
    have hb : wp (ev.getServerTransaction (w.received ev))
        (fun t w' => (t, w') = w.byeTransaction ev) (fun _ _ => False) w.tick := by
      rw [RequestEvent.getServerTransaction, World.byeTransaction]
      split_ifs <;> simp
    rw [wp_bind]
    refine wp_mono hb ?_ fun _ _ => False.elim
    rintro t w' ht
    refine wp_mono wp_processBye ?_ fun _ _ => False.elim
    rintro - _ ⟨w₁, hw, rfl⟩
    refine .bye w₁ h ?_
    rw [← ht]
    exact hw
  | register => exact .other (by simp [h]) (by simp [h]) (by simp [h]) (by simp [h])
  | other name => exact .other (by simp [h]) (by simp [h]) (by simp [h]) (by simp [h])

/-! ## Incoming responses -/

/-- The session that `createSipSession` makes of a response. -/
def Response.session (r : Response) (getByName : Str → Option Str) :
    Except JException SipSession := do
  createSipSession getByName r.toMessage (.response r.callId) (← descriptionOf r.rawContent)

/-- The codecs of the response's description that the client has too. -/
def Response.formats (r : Response) (p : LocalSipProfile) :
    Except JException (List SipAudioFormat) := do
  getSipAudioFormatsList (← negotiate p (← descriptionOf r.rawContent))

/-- A response that status 200 takes as the answer to an INVITE. -/
def Answering (w : World) (ev : ResponseEvent) : Prop :=
  (w.service.currentState = .ringing ∨ w.service.currentState = .calling) ∧
    ev.response.rawContent ≠ none ∧ ev.getDialog ≠ none

instance (w : World) (ev : ResponseEvent) : Decidable (Answering w ev) :=
  inferInstanceAs (Decidable (_ ∧ _ ∧ _))

/-- The world that has the session and the dialog of an answer, and has counted the ACK. -/
@[simps! service handler fresh out]
def World.joined (w : World) (d : Dialog) (fs : List SipAudioFormat) (s : SipSession) : World :=
  ((w.setSession (some { s with audioFormats := fs.map some, incoming := false })).setDialog
    (some d)).setCallSequence (w.handler.callSequence + 1)

/-- An answer that the client can acknowledge. -/
structure Joins (env : Env) (w : World) (ev : ResponseEvent) (d : Dialog)
    (fs : List SipAudioFormat) (s : SipSession) : Prop where
  answering : Answering w ev
  session : ev.response.session env.getByName = .ok s
  formats : ev.response.formats w.handler.localSipProfile = .ok fs
  dialog : ev.getDialog = some d

/-- What becomes of a response with status 200, or behind 180. -/
inductive Answered (env : Env) (w : World) (ev : ResponseEvent) : World → Prop
  | established (d fs s) : Joins env w ev d fs s → env.fails .createAck = none →
      env.fails .sendAck = none →
      Answered env w ev (((w.joined d fs s).emit (.ack d w.handler.callSequence)).setStatusChanged
        .established none)
  | unacked (d fs s) : Joins env w ev d fs s →
      (env.fails .createAck = none → env.fails .sendAck ≠ none) →
      Answered env w ev ((w.joined d fs s).setStatusChanged .error none)
  | unmatched (s : SipSession) (e : JException) : Answering w ev →
      ev.response.session env.getByName = .ok s →
      ev.response.formats w.handler.localSipProfile = .error e →
      Answered env w ev ((w.setSession (some s)).setStatusChanged .error none)
  | unread (e : JException) : Answering w ev → ev.response.session env.getByName = .error e →
      Answered env w ev (w.setStatusChanged .error none)
  | registered : w.service.currentState = .registering →
      Answered env w ev ((w.setStatusChanged .ready none).setTryCount 0)
  | unregistered : w.service.currentState = .unregistering →
      Answered env w ev ((w.setStatusChanged .idle none).setTryCount 0)
  | ignored : ¬ Answering w ev → w.service.currentState ≠ .registering →
      w.service.currentState ≠ .unregistering → Answered env w ev w

theorem wp_establish {ev : ResponseEvent} (ha : Answering w ev) :
    wp (establish env ev) (fun _ => Answered env w ev)
      (fun _ w' => Answered env w ev (w'.setStatusChanged .error none)) w := by
  obtain ⟨d, hd⟩ := Option.ne_none_iff_exists'.1 ha.2.2
  rw [establish, wp_bind, wp_lift]
  refine ⟨fun sdp hsdp => ?_, fun e he => ?_⟩
  · have hs : ev.response.session env.getByName = createSipSession env.getByName
        ev.response.toMessage (.response ev.response.callId) sdp := by
      rw [Response.session, hsdp, ok_bind]
    rw [wp_bind, wp_lift]
    refine ⟨fun s hses => ?_, fun e hses => .unread e ha (hs.trans hses)⟩
    simp only [wp_bind, wp_modify, wp_get, wp_lift]
    have hf : ev.response.formats w.handler.localSipProfile =
        (negotiate w.handler.localSipProfile sdp) >>= getSipAudioFormatsList := by
      rw [Response.formats, hsdp, ok_bind]
    refine ⟨fun codecs hn => ⟨fun fs hl => ?_, fun e hl => ?_⟩, fun e hn => ?_⟩
    · have hj : Joins env w ev d fs s := by
        refine ⟨ha, hs.trans hses, ?_, hd⟩
        rw [hf]
        exact (congrArg (· >>= getSipAudioFormatsList) hn).trans hl
      refine wp_mono wp_sendAck ?_ ?_
      · rintro - _ ⟨d', hd', hc, hk, rfl⟩
        have : d' = d := by simpa [hd] using hd'.symm
        rw [wp_setStatusChanged, this, hd]
        exact .established d fs s hj hc hk
      · rintro e _ ⟨hk, rfl⟩
        rw [hd]
        exact .unacked d fs s hj (hk (by simp [hd]))
    · refine .unmatched s e ha (hs.trans hses) ?_
      rw [hf]
      exact (congrArg (· >>= getSipAudioFormatsList) hn).trans hl
    · refine .unmatched s e ha (hs.trans hses) ?_
      rw [hf]
      exact congrArg (· >>= getSipAudioFormatsList) hn
  · refine .unread e ha ?_
    rw [Response.session, he, error_bind]

theorem wp_processOK {ev : ResponseEvent} : wp (orError (processOK env ev))
    (fun _ => Answered env w ev) (fun _ => Answered env w ev) w := by
  rw [wp_orError, processOK, wp_bind, wp_get, wp_ite]
  refine ⟨fun ha => wp_establish ha, fun ha => ?_⟩
  · simp only [wp_ite, wp_bind, wp_setStatusChanged, wp_modify, wp_pure]
    exact ⟨.registered, fun hr => ⟨.unregistered, fun hu => .ignored ha hr hu⟩⟩

/-- The world that has counted a challenge. -/
@[simps! service handler fresh out]
def World.counted (w : World) : World := w.setTryCount (w.service.registerTryCount + 1)

/-- The world that has taken a challenge. -/
@[simps! service handler fresh out]
def World.challenged (w : World) (c : Challenge) : World := w.counted.setChallenge c.nonce c.realm

/-- What becomes of a 401. -/
inductive Unauthorized (env : Env) (w : World) (r : Response) : World → Prop
  | unchallenged : r.wwwAuthenticate = none →
      Unauthorized env w r (w.counted.setStatusChanged .error none)
  | noted (c : Challenge) : r.wwwAuthenticate = some c → w.service.currentState ≠ .registering →
      w.service.currentState ≠ .unregistering → Unauthorized env w r (w.challenged c)
  | repeated (c : Challenge) (state : SipRequestState) (a : Option Authorization) :
      r.wwwAuthenticate = some c →
      (w.service.currentState = .registering ∧ state = .authorization ∨
        w.service.currentState = .unregistering ∧ state = .unregisterAuthorization) →
      Unauthorized env w r ((w.challenged c).tick.requested env
        (registerRequest (w.challenged c).handler w.fresh state a))
  | failed (c : Challenge) (n : ℕ) (t : Option ClientTransaction) : r.wwwAuthenticate = some c →
      (w.service.currentState = .registering ∨ w.service.currentState = .unregistering) →
      w.fresh ≤ n → Unauthorized env w r (((w.challenged c).began n t).setStatusChanged .error none)

/-- A 401 without a challenge ends in an error; with one, the client registers again if it is
    registering, and else takes the challenge. -/
theorem processUnauthorized_rule {r : Response} {P : World → Prop}
    (hnone : r.wwwAuthenticate = none → P (w.counted.setStatusChanged .error none))
    (hnoted : ∀ c, r.wwwAuthenticate = some c → w.service.currentState ≠ .registering →
      w.service.currentState ≠ .unregistering → P (w.challenged c))
    (hagain : ∀ c state, r.wwwAuthenticate = some c →
      (w.service.currentState = .registering ∧ state = .authorization ∨
        w.service.currentState = .unregistering ∧ state = .unregisterAuthorization) →
      wp (SipMessageHandler.register env state) (fun _ => P)
        (fun _ w' => P (w'.setStatusChanged .error none)) (w.challenged c)) :
    wp (orError (processUnauthorized env r)) (fun _ => P) (fun _ => P) w := by
  rw [wp_orError, processUnauthorized, wp_bind, wp_modify, wp_bind]
  cases hc : r.wwwAuthenticate with
  | none => exact hnone hc
  | some c =>
    rw [nonNull_some, wp_lift_ok]
    simp only [wp_bind, wp_modify, wp_get, wp_ite, wp_pure]
    exact ⟨fun hs => hagain c _ hc (Or.inl ⟨hs, rfl⟩), fun h1 =>
      ⟨fun hs => hagain c _ hc (Or.inr ⟨hs, rfl⟩), fun h2 => hnoted c hc h1 h2⟩⟩

theorem wp_processUnauthorized {r : Response} : wp (orError (processUnauthorized env r))
    (fun _ => Unauthorized env w r) (fun _ => Unauthorized env w r) w := by
  refine processUnauthorized_rule .unchallenged (fun c hc => .noted c hc) ?_
  intro c state hc hs
  refine wp_mono wp_register ?_ ?_
  · rintro - _ ⟨a, -, rfl⟩
    exact .repeated c state a hc hs
  · rintro - _ ⟨n, t, hn, rfl⟩
    exact .failed c n t hc (hs.imp And.left And.left) hn

/-- What becomes of a 407. -/
inductive Proxied (env : Env) (w : World) (r : Response) : World → Prop
  | ignored : (w.service.currentSession ≠ none ∨ w.service.currentContact = none) →
      Proxied env w r w.counted
  | unchallenged : w.service.currentSession = none → r.proxyAuthenticate = none →
      Proxied env w r (w.counted.setStatusChanged .error none)
  | noted (c : Challenge) : w.service.currentSession = none → r.proxyAuthenticate = some c →
      w.service.currentState ≠ .calling → Proxied env w r (w.challenged c)
  | repeated (c : Challenge) (contact : SipContact) (id : CallId) (a : Option Authorization)
      (d : SessionDescription) : w.service.currentSession = none → r.proxyAuthenticate = some c →
      w.service.currentState = .calling → w.service.currentContact = some contact →
      w.handler.currentCallID = some id →
      Proxied env w r (((w.challenged c).requested env
        (inviteRequest (w.challenged c).handler id contact a d)).setDialog
          (env.dialogTag.map (⟨id, ·⟩)))
  | failed (c : Challenge) (n : ℕ) (t : Option ClientTransaction) :
      w.service.currentSession = none → r.proxyAuthenticate = some c →
      w.service.currentState = .calling → w.fresh ≤ n →
      Proxied env w r (((w.challenged c).began n t).setStatusChanged .error none)

/-- A 407 is only counted in a call and without a contact; without a challenge it ends in an
    error; with one, the client calls again if it is calling, and else takes the challenge. -/
theorem processProxyAuthentication_rule {r : Response} {P : World → Prop}
    (hignored : w.service.currentSession ≠ none ∨ w.service.currentContact = none → P w.counted)
    (hnone : w.service.currentSession = none → r.proxyAuthenticate = none →
      P (w.counted.setStatusChanged .error none))
    (hnoted : ∀ c, w.service.currentSession = none → r.proxyAuthenticate = some c →
      w.service.currentState ≠ .calling → P (w.challenged c))
    (hagain : ∀ c contact, w.service.currentSession = none →
      w.service.currentContact = some contact → r.proxyAuthenticate = some c →
      w.service.currentState = .calling →
      wp (SipMessageHandler.sendInvite env contact .authorization) (fun _ => P)
        (fun _ w' => P (w'.setStatusChanged .error none)) (w.challenged c)) :
    wp (orError (processProxyAuthentication env r)) (fun _ => P) (fun _ => P) w := by
  rw [wp_orError, processProxyAuthentication, wp_bind, wp_modify, wp_bind, wp_get]
  cases hs : w.service.currentSession with
  | some s =>
    simp only [World.setTryCount_service, hs]
    exact hignored (Or.inl (by simp [hs]))
  | none =>
    cases hk : w.service.currentContact with
    | none =>
      simp only [World.setTryCount_service, hs, hk]
      exact hignored (Or.inr hk)
    | some contact =>
      simp only [World.setTryCount_service, hs, hk, wp_bind]
      cases hc : r.proxyAuthenticate with
      | none => exact hnone hs hc
      | some c =>
        rw [nonNull_some, wp_lift_ok]
        simp only [wp_bind, wp_modify, wp_ite, wp_pure]
        exact ⟨hagain c contact hs hk hc, hnoted c hs hc⟩

theorem wp_processProxyAuthentication {r : Response} :
    wp (orError (processProxyAuthentication env r))
      (fun _ => Proxied env w r) (fun _ => Proxied env w r) w := by
  refine processProxyAuthentication_rule .ignored .unchallenged (fun c hs hc => .noted c hs hc) ?_
  intro c contact hs hk hc hst
  refine wp_mono wp_sendInvite ?_ ?_
  · rintro - _ ⟨id, a, d, hid, -, rfl⟩
    exact .repeated c contact id a d hs hc hst hk hid
  · rintro - _ ⟨-, rfl | ⟨n, t, hn, rfl⟩⟩
    · exact .failed c w.fresh w.handler.clientTransaction hs hc hst le_rfl
    · exact .failed c n t hs hc hst hn

/-- The world after the first part of status 180. -/
def World.rung (w : World) : World :=
  if w.service.currentState = .calling then w.setStatusChanged .ringing none else w

/-- The states that the error responses set. -/
def failureState : ℕ → Option SipManagerState
  | 404 => some .invalid
  | 480 => some .declined
  | 486 => some .busy
  | 603 => some .declined
  | 500 => some .error
  | _ => none

/-- What becomes of a response. -/
inductive Responds (env : Env) (w : World) (ev : ResponseEvent) : World → Prop
  | ringing (w' : World) : ev.response.status = 180 → Answered env w.rung ev w' →
      Responds env w ev w'
  | ok (w' : World) : ev.response.status = 200 → Answered env w ev w' → Responds env w ev w'
  | unauthorized (w' : World) : ev.response.status = 401 → Unauthorized env w ev.response w' →
      Responds env w ev w'
  | proxied (w' : World) : ev.response.status = 407 → Proxied env w ev.response w' →
      Responds env w ev w'
  | failure (st : SipManagerState) : failureState ev.response.status = some st →
      Responds env w ev (w.setStatusChanged st none)
  | other : ev.response.status ∉ [180, 200, 401, 407] → failureState ev.response.status = none →
      Responds env w ev w

theorem after_processResponse {ev : ResponseEvent} :
    Responds env w ev (after (processResponse env ev) w) := by
  refine wp_after.1 ?_
  rw [processResponse]
  split
  case h_1 h =>
    rw [wp_bind]
    have hr : wp (orError processRinging) (fun _ w' => w' = w.rung) (fun _ _ => False) w := by
      rw [wp_orError, processRinging, wp_bind, wp_get, World.rung]
      split_ifs <;> simp
    refine wp_mono hr ?_ fun _ _ => False.elim
    rintro - _ rfl
    exact wp_mono wp_processOK (fun _ w' => .ringing w' h) fun _ w' => .ringing w' h
  case h_2 h => exact wp_mono wp_processOK (fun _ w' => .ok w' h) fun _ w' => .ok w' h
  case h_3 h =>
    exact wp_mono wp_processUnauthorized (fun _ w' => .unauthorized w' h)
      fun _ w' => .unauthorized w' h
  case h_5 h =>
    exact wp_mono wp_processProxyAuthentication (fun _ w' => .proxied w' h)
      fun _ w' => .proxied w' h
  case h_10 h1 h2 h3 h4 h5 h6 h7 h8 h9 =>
    refine .other (by simpa using ⟨h1, h2, h3, h5⟩) ?_
    unfold failureState
    split <;> simp_all
  all_goals
    rename_i h
    exact .failure _ (by rw [h]; rfl)

end JaySip
