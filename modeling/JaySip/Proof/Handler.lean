/-
  What the methods of `SipMessageHandler` do: the world each of them ends in when it
  returns, and when it throws.
-/
import JaySip.Sip.Handler

namespace JaySip

open Java

variable {env : Env} {w : World} {α : Type} {Q : α → World → Prop} {E : JException → World → Prop}

/-! ## Stack calls -/

@[simp] theorem wp_call {Q : Unit → World → Prop} {c : StackCall} :
    wp (call env c) Q E w ↔
      (env.fails c = none → Q () w) ∧ ∀ e, env.fails c = some e → E e w := by
  unfold call
  cases env.fails c <;> simp

@[simp] theorem wp_freshId {Q : ℕ → World → Prop} : wp freshId Q E w ↔ Q w.fresh w.tick := by
  simp [freshId]

@[simp] theorem wp_setStatusChanged {Q : Unit → World → Prop} {st : SipManagerState}
    {info : Option Str} :
    wp (setStatusChanged st info) Q E w ↔ Q () (w.setStatusChanged st info) := by
  simp [setStatusChanged]

@[simp] theorem wp_getNewClientTransaction {Q : ClientTransaction → World → Prop}
    {q : SipRequest} :
    wp (getNewClientTransaction env q) Q E w ↔
      (env.fails .getNewClientTransaction = none →
        Q ⟨w.fresh, q, env.dialogTag.map (⟨q.callId, ·⟩)⟩ w.tick) ∧
      ∀ e, env.fails .getNewClientTransaction = some e → E e w := by
  simp [getNewClientTransaction]

@[simp] theorem wp_sendRequest {Q : Unit → World → Prop} {t : ClientTransaction} :
    wp (t.sendRequest env) Q E w ↔
      (env.fails .sendRequest = none → Q () (w.emit (.request t))) ∧
      ∀ e, env.fails .sendRequest = some e → E e w := by
  simp [ClientTransaction.sendRequest]

@[simp] theorem wp_sendResponse {Q : Unit → World → Prop} {t : ServerTransaction} {r : Reply} :
    wp (t.sendResponse env r) Q E w ↔
      (env.fails .sendResponse = none → Q () (w.emit (.response t r))) ∧
      ∀ e, env.fails .sendResponse = some e → E e w := by
  simp [ServerTransaction.sendResponse]

/-! ## The cached server transaction -/

namespace World
variable (w : World) (env : Env) (r : Request)

/-- The transaction that a response to `r` goes out on. -/
def transactionFor : ServerTransaction := w.handler.serverTransaction.getD ⟨w.fresh, r⟩

/-- The world once that transaction is cached. -/
def cached : World :=
  match w.handler.serverTransaction with
  | some _ => w
  | none => w.tick.setServerTransaction (some ⟨w.fresh, r⟩)

/-- The stack takes a response on the cached transaction. -/
def CanReply : Prop :=
  env.fails .createResponse = none ∧
    (w.handler.serverTransaction = none → env.fails .getNewServerTransaction = none) ∧
    env.fails .sendResponse = none

/-- The world once a response is sent. -/
def replied (reply : Reply) : World :=
  (w.cached reply.request).emit (.response (w.transactionFor reply.request) reply)

variable {w env r}

@[simp] theorem cached_service : (w.cached r).service = w.service := by
  unfold cached; split <;> rfl

@[simp] theorem cached_handler : (w.cached r).handler =
    { w.handler with serverTransaction := some (w.transactionFor r) } := by
  unfold cached transactionFor
  split <;> rename_i h
  · rw [h, Option.getD_some, ← h]
  · rw [h]; rfl

@[simp] theorem cached_out : (w.cached r).out = w.out := by
  unfold cached; split <;> rfl

theorem fresh_le_cached : w.fresh ≤ (w.cached r).fresh := by
  unfold cached; split
  · exact le_rfl
  · exact Nat.le_succ _

@[simp] theorem replied_service {reply : Reply} : (w.replied reply).service = w.service := by
  simp [replied]

@[simp] theorem replied_handler {reply : Reply} : (w.replied reply).handler =
    { w.handler with serverTransaction := some (w.transactionFor reply.request) } := by
  simp [replied]

@[simp] theorem replied_out {reply : Reply} : (w.replied reply).out =
    w.out ++ [.response (w.transactionFor reply.request) reply] := by
  simp [replied]

theorem fresh_le_replied {reply : Reply} : w.fresh ≤ (w.replied reply).fresh :=
  fresh_le_cached

end World

theorem Env.Succeeds.canReply (h : env.Succeeds) : w.CanReply env :=
  ⟨h _, fun _ => h _, h _⟩

theorem wp_cachedTransaction {r : Request} {Q : ServerTransaction → World → Prop} :
    wp (cachedTransaction env r) Q E w ↔
      ((w.handler.serverTransaction = none → env.fails .getNewServerTransaction = none) →
        Q (w.transactionFor r) (w.cached r)) ∧
      (w.handler.serverTransaction = none →
        ∀ e, env.fails .getNewServerTransaction = some e → E e w) := by
  unfold cachedTransaction World.transactionFor World.cached
  cases h : w.handler.serverTransaction <;> simp [h, getNewServerTransaction]

/-- A reply is sent on the cached transaction, or nothing is. -/
theorem wp_reply {code : ℕ} {invite : Option Request} : wp (reply env code invite)
    (fun _ w' => ∃ r, invite = some r ∧ w.CanReply env ∧
      w' = w.replied { status := code, request := r })
    (fun _ w' => (invite ≠ none → ¬ w.CanReply env) ∧
      (w' = w ∨ ∃ r, invite = some r ∧ w' = w.cached r)) w := by
  unfold reply createResponse
  cases invite with
  | none => simp [nonNull]
  | some r =>
    simp only [wp_bind, wp_lift, wp_call, wp_pure, wp_cachedTransaction, wp_sendResponse, nonNull]
    refine ⟨?_, by simp⟩
    rintro r' ⟨⟩
    refine ⟨fun h1 => ⟨fun h2 => ⟨fun h3 => ⟨r, rfl, ⟨h1, h2, h3⟩, rfl⟩, ?_⟩, ?_⟩, ?_⟩
    · exact fun e h3 => ⟨fun _ hr => by simp [hr.2.2] at h3, Or.inr ⟨r, rfl, rfl⟩⟩
    · exact fun hn e h2 => ⟨fun _ hr => by simp [hr.2.1 hn] at h2, Or.inl trivial⟩
    · exact fun e h1 => ⟨fun _ hr => by simp [hr.1] at h1, Or.inl trivial⟩

/-! ## Answers to an offer -/

/-- The lines of an offer that `createSDP(request)` reads. -/
structure Offer where
  sdpSession : SessionDescription
  sessionId : ℤ
  sessionVersion : ℤ
  sessionName : Str

def readOffer (request : Request) : Except JException Offer := do
  let sdpSession ← descriptionOf request.rawContent
  let origin ← nonNull sdpSession.origin
  let sessionId ← Origin.number origin.sessionId
  let sessionVersion ← Origin.number origin.sessionVersion
  let sessionName ← nonNull sdpSession.sessionName
  return ⟨sdpSession, sessionId, sessionVersion, sessionName⟩

/-- The answer to an offer, for the codecs kept. -/
def SipMessageHandler.answerWith (h : SipMessageHandler) (o : Offer) (audioFormats : List Str)
    (formats : List SipAudioFormat) : Except JException SessionDescription :=
  describe h o.sessionId o.sessionVersion o.sessionName audioFormats
    (formats.map (rtpmap ·.getSdpField))

/-- What `createSDP(request)` makes of the request: nothing without a common codec, else
    the codecs it keeps and the answer. -/
def SipMessageHandler.answer (h : SipMessageHandler) (request : Request) :
    Except JException (Option (List SipAudioFormat × SessionDescription)) := do
  let o ← readOffer request
  let audioFormats ← negotiate h.localSipProfile o.sdpSession
  if audioFormats = [] then return none
  else do
    let formats ← getSipAudioFormatsList audioFormats
    return some (formats, ← h.answerWith o audioFormats formats)

theorem createAnswer_eq (request : Request) : createAnswer env request = (do
    call env .createDescription
    let o ← lift (readOffer request)
    let w ← get
    let audioFormats ← lift (negotiate w.handler.localSipProfile o.sdpSession)
    if audioFormats = [] then pure none
    else do
      modify (·.setSipAudioFormats [])
      let formats ← lift (getSipAudioFormatsList audioFormats)
      modify (·.setSipAudioFormats formats)
      some <$> lift (w.handler.answerWith o audioFormats formats)) := by
  simp only [createAnswer, readOffer, lift_bind, bind_assoc, lift_pure, pure_bind,
    SipMessageHandler.answerWith]

/-- `createSDP(request)` assigns the codecs it keeps, and nothing else. -/
theorem wp_createAnswer {request : Request} : wp (createAnswer env request)
    (fun d w' => env.fails .createDescription = none ∧
      ((d = none ∧ w.handler.answer request = .ok none ∧ w' = w) ∨
        ∃ fs sdp, d = some sdp ∧ w.handler.answer request = .ok (some (fs, sdp)) ∧
          w' = w.setSipAudioFormats fs))
    (fun _ w' => (env.fails .createDescription = none →
        ∃ e, w.handler.answer request = .error e) ∧ ∃ fs, w' = w.setSipAudioFormats fs) w := by
  rw [createAnswer_eq, wp_bind, wp_call]
  refine ⟨fun hc => ?_, fun e hc => ⟨by simp [hc], w.handler.mSipAudioFormats, rfl⟩⟩
  unfold SipMessageHandler.answer
  cases readOffer request with
  | error e => exact ⟨fun _ => ⟨e, rfl⟩, w.handler.mSipAudioFormats, rfl⟩
  | ok o =>
    simp only [wp_lift_ok, wp_bind, wp_get, ok_bind]
    cases negotiate w.handler.localSipProfile o.sdpSession with
    | error e => exact ⟨fun _ => ⟨e, rfl⟩, w.handler.mSipAudioFormats, rfl⟩
    | ok audioFormats =>
      by_cases hn : audioFormats = []
      · subst hn
        exact ⟨hc, Or.inl ⟨rfl, rfl, rfl⟩⟩
      simp only [wp_lift_ok, ok_bind, hn, if_false, wp_bind, wp_modify]
      cases getSipAudioFormatsList audioFormats with
      | error e => exact ⟨fun _ => ⟨e, rfl⟩, [], rfl⟩
      | ok formats =>
        simp only [wp_lift_ok, ok_bind]
        cases w.handler.answerWith o audioFormats formats with
        | error e => exact ⟨fun _ => ⟨e, rfl⟩, formats, rfl⟩
        | ok sdp => exact ⟨hc, Or.inr ⟨formats, sdp, rfl, rfl, rfl⟩⟩

/-! ## Requests -/

/-- A request that was begun and not sent: numbers were drawn, and the client transaction
    may be replaced. -/
@[simps service handler fresh out]
def World.began (w : World) (n : ℕ) (t : Option ClientTransaction) : World :=
  { w with fresh := n, handler := { w.handler with clientTransaction := t } }

/-- The client transaction of a request. -/
def World.clientTransactionFor (w : World) (env : Env) (q : SipRequest) : ClientTransaction :=
  ⟨w.fresh, q, env.dialogTag.map (⟨q.callId, ·⟩)⟩

/-- The world once a request is sent on a new client transaction. -/
def World.requested (w : World) (env : Env) (q : SipRequest) : World :=
  (w.tick.setClientTransaction (some (w.clientTransactionFor env q))).emit
    (.request (w.clientTransactionFor env q))

/-- `register` sends one REGISTER, or none. -/
theorem wp_register {state : SipRequestState} : wp (SipMessageHandler.register env state)
    (fun _ w' => ∃ a, registerAuthorization env w.handler.localSipProfile state = .ok a ∧
      w' = w.tick.requested env (registerRequest w.handler w.fresh state a))
    (fun _ w' => ∃ n t, w.fresh ≤ n ∧ w' = w.began n t) w := by
  simp only [SipMessageHandler.register, wp_bind, wp_call, wp_freshId, wp_get, wp_lift,
    wp_getNewClientTransaction, wp_modify, wp_sendRequest]
  have early : ∀ {m : ℕ}, w.fresh ≤ m → ∃ n t, w.fresh ≤ n ∧
      ({ w with fresh := m } : World) = w.began n t := fun hm => ⟨_, _, hm, rfl⟩
  refine ⟨fun _ => ⟨fun _ => ⟨fun a ha => ⟨fun _ => ⟨fun _ => ⟨a, ha, rfl⟩, fun _ _ => ?_⟩,
    fun _ _ => ?_⟩, fun _ _ => ?_⟩, fun _ _ => ?_⟩, fun _ _ => early le_rfl⟩
  · exact ⟨w.fresh + 2, _, by omega, rfl⟩
  all_goals exact early (Nat.le_succ _)

/-- The world in which `sendInvite` has settled the Call-ID. -/
def World.renewed (w : World) (state : SipRequestState) : World :=
  if state = .register then w.tick.setCallID (some w.fresh) else w

theorem wp_renewCallID {state : SipRequestState} {Q : Unit → World → Prop} :
    wp (renewCallID state) Q E w ↔ Q () (w.renewed state) := by
  unfold renewCallID World.renewed
  split_ifs <;> simp

/-- `createSDP(null)` leaves the world as it is. -/
theorem wp_createOffer : wp (createOffer env) (fun _ w' => w' = w)
    (fun _ w' => env.fails .createDescription ≠ none ∧ w' = w) w := by
  simp only [createOffer, wp_bind, wp_call, wp_get, wp_lift]
  refine ⟨fun _ => ⟨fun _ _ => trivial, fun e he => ?_⟩, fun e he => ⟨by simp [he], trivial⟩⟩
  simp [describe] at he

@[simp] theorem fresh_le_renewed {state : SipRequestState} :
    w.fresh ≤ (w.renewed state).fresh := by
  unfold World.renewed
  split_ifs <;> simp

/-- `sendInvite` sends one INVITE, with the Call-ID it settled, or none. -/
theorem wp_sendInvite {contact : SipContact} {state : SipRequestState} :
    wp (SipMessageHandler.sendInvite env contact state)
    (fun _ w' => ∃ c a d, (w.renewed state).handler.currentCallID = some c ∧
      inviteAuthorization env w.handler.localSipProfile state = .ok a ∧
      w' = ((w.renewed state).requested env (inviteRequest w.handler c contact a d)).setDialog
        (env.dialogTag.map (⟨c, ·⟩)))
    (fun _ w' => (state = .register → ¬ env.Succeeds) ∧
      (w' = w ∨ ∃ n t, (w.renewed state).fresh ≤ n ∧ w' = (w.renewed state).began n t)) w := by
  have failed : ∀ {c e}, env.fails c = some e → (state = .register → ¬ env.Succeeds) :=
    fun he _ hs => by simp [hs _] at he
  have began : ∃ n t, (w.renewed state).fresh ≤ n ∧ w.renewed state = (w.renewed state).began n t :=
    ⟨_, _, le_rfl, rfl⟩
  have hr : ∀ {c a d}, inviteRequest (w.renewed state).handler c contact a d =
      inviteRequest w.handler c contact a d := by
    intro c a d
    unfold World.renewed
    split_ifs <;> rfl
  have hp : (w.renewed state).handler.localSipProfile = w.handler.localSipProfile := by
    unfold World.renewed
    split_ifs <;> rfl
  simp only [SipMessageHandler.sendInvite, wp_bind, wp_call, wp_renewCallID, wp_get, wp_lift, hp]
  refine ⟨fun _ => ⟨fun c hc => ⟨fun _ => ⟨fun a ha => ?_, fun e he => ⟨?_, Or.inr began⟩⟩,
    fun e he => ⟨failed he, Or.inr began⟩⟩, fun e he => ⟨?_, Or.inr began⟩⟩,
    fun e he => ⟨failed he, Or.inl trivial⟩⟩
  · refine wp_mono wp_createOffer ?_ ?_
    · rintro d _ rfl
      simp only [wp_getNewClientTransaction, wp_bind, wp_modify, wp_sendRequest, hr]
      refine ⟨fun _ => ⟨fun _ => ⟨c, a, d, nonNull_eq_ok.1 hc, ha, rfl⟩,
        fun e he => ⟨failed he, Or.inr ?_⟩⟩, fun e he => ⟨failed he, Or.inr began⟩⟩
      exact ⟨_, _, Nat.le_succ _, rfl⟩
    · rintro e _ ⟨he, rfl⟩
      exact ⟨fun _ hs => he (hs _), Or.inr began⟩
  · rintro rfl
    simp [inviteAuthorization] at he
  · rintro rfl
    simp [World.renewed, nonNull] at he

/-- `sendAck` counts, and then sends if it can. -/
theorem wp_sendAck : wp (sendAck env)
    (fun _ w' => ∃ d, w.handler.currentDialog = some d ∧ env.fails .createAck = none ∧
      env.fails .sendAck = none ∧
      w' = (w.setCallSequence (w.handler.callSequence + 1)).emit (.ack d w.handler.callSequence))
    (fun _ w' => (w.handler.currentDialog ≠ none → env.fails .createAck = none →
        env.fails .sendAck ≠ none) ∧
      w' = w.setCallSequence (w.handler.callSequence + 1)) w := by
  simp only [sendAck, wp_bind, wp_get, wp_modify, wp_lift, wp_call]
  cases hd : w.handler.currentDialog with
  | none => simp [nonNull]
  | some d =>
    simp only [nonNull]
    refine ⟨?_, by simp⟩
    rintro _ ⟨⟩
    refine ⟨fun h1 => ⟨fun h2 => ⟨d, rfl, h1, h2, rfl⟩, fun e h2 => ?_⟩, fun e h1 => ?_⟩
    · simp [h2]
    · simp [h1]

/-- `sendBye` sends a BYE in the current dialog. -/
theorem wp_sendBye : wp (sendBye env)
    (fun _ w' => ∃ d, w.handler.currentDialog = some d ∧ w' = w.tick.emit (.bye d))
    (fun _ w' => (w.handler.currentDialog ≠ none → ¬ env.Succeeds) ∧
      ∃ n, w.fresh ≤ n ∧ w' = w.began n w.handler.clientTransaction) w := by
  simp only [sendBye, wp_bind, wp_get, wp_modify, wp_lift, wp_call]
  have began : ∃ n, w.fresh ≤ n ∧ w = w.began n w.handler.clientTransaction := ⟨_, le_rfl, rfl⟩
  cases hd : w.handler.currentDialog with
  | none => simpa [nonNull] using began
  | some d =>
    simp only [nonNull]
    refine ⟨?_, by simp⟩
    rintro _ ⟨⟩
    refine ⟨fun h1 => ⟨fun h2 => ⟨fun h3 => ⟨d, rfl, rfl⟩, fun e h3 => ?_⟩, fun e h2 => ?_⟩,
      fun e h1 => ?_⟩
    · exact ⟨fun _ hs => by simp [hs _] at h3, _, Nat.le_succ _, rfl⟩
    · exact ⟨fun _ hs => by simp [hs _] at h2, began⟩
    · exact ⟨fun _ hs => by simp [hs _] at h1, began⟩

/-- `sendCancel` cancels the last client transaction. -/
theorem wp_sendCancel : wp (sendCancel env)
    (fun _ w' => ∃ t, w.handler.clientTransaction = some t ∧
      w' = (w.tick.setClientTransaction (some (w.clientTransactionFor env t.request.toCancel))).emit
        (.cancel t))
    (fun _ w' => ∃ n t, w.fresh ≤ n ∧ w' = w.began n t) w := by
  simp only [sendCancel, wp_bind, wp_get, wp_modify, wp_lift, wp_call, wp_getNewClientTransaction]
  have began : ∃ n t, w.fresh ≤ n ∧ w = w.began n t := ⟨_, _, le_rfl, rfl⟩
  refine ⟨fun t ht => ⟨fun _ => ⟨fun _ => ⟨fun _ => ⟨t, ?_, rfl⟩, fun _ _ => ?_⟩,
    fun _ _ => began⟩, fun _ _ => began⟩, fun _ _ => began⟩
  · exact nonNull_eq_ok.1 ht
  · exact ⟨_, _, Nat.le_succ _, rfl⟩

/-- `sendOK` on a given transaction. -/
theorem wp_sendOK_some {request : Request} {t : ServerTransaction} :
    wp (sendOK env request (some t))
    (fun _ w' => w' = w.emit (.response t { status := 200, request := request }))
    (fun _ w' => w' = w) w := by
  simp [sendOK, createResponse, nonNull]

/-- `sendOK` on the cached transaction, with the answer to the request's offer. -/
theorem wp_sendOK_none {request : Request} : wp (sendOK env request none)
    (fun _ w' => ∃ fs sdp, w.handler.answer request = .ok (some (fs, sdp)) ∧
      w' = (w.setSipAudioFormats fs).replied
        { status := 200, request := request
          contact := some (w.handler.contactHeader (some 3600)), content := some sdp })
    (fun _ w' => ∃ fs, w' = w.setSipAudioFormats fs ∨
      w' = (w.setSipAudioFormats fs).cached request) w := by
  have same : ∃ fs, w = w.setSipAudioFormats fs ∨ w = (w.setSipAudioFormats fs).cached request :=
    ⟨_, Or.inl rfl⟩
  simp only [sendOK, createResponse, nonNull_some, wp_bind, wp_lift_ok, wp_call, wp_pure, wp_get]
  refine ⟨fun _ => ⟨fun _ => ?_, fun _ _ => same⟩, fun _ _ => same⟩
  refine wp_mono wp_createAnswer ?_ ?_
  · rintro d _ ⟨-, ⟨rfl, -, rfl⟩ | ⟨fs, sdp, rfl, ha, rfl⟩⟩
    · exact same
    · simp only [nonNull_some, wp_bind, wp_lift_ok, wp_cachedTransaction, wp_sendResponse]
      exact ⟨fun _ => ⟨fun _ => ⟨fs, sdp, ha, rfl⟩, fun _ _ => ⟨fs, Or.inr rfl⟩⟩,
        fun _ _ _ => ⟨fs, Or.inl rfl⟩⟩
  · rintro e _ ⟨-, fs, rfl⟩
    exact ⟨fs, Or.inl rfl⟩

end JaySip
