/-
  What `reset` leaves over, and that no later message or broadcast depends on it.
-/
import JaySip.Java.Relational
import JaySip.Proof.Coherence

namespace JaySip

open Java

variable {α β : Type} {env : Env}

/-- What survives a `reset`: the last answer, the count of challenges, the formats kept last,
    and the last challenge. -/
structure Leftover where
  currentsdp : Option SessionDescription
  registerTryCount : ℤ
  mSipAudioFormats : List SipAudioFormat
  nonce : Option Str
  realm : Option Str

def World.left (w : World) : Leftover :=
  ⟨w.service.currentsdp, w.service.registerTryCount, w.handler.mSipAudioFormats,
    w.handler.localSipProfile.nonce, w.handler.localSipProfile.realm⟩

/-- The world with other leftovers. -/
def World.leave (w : World) (l : Leftover) : World :=
  { w with
    service := { w.service with currentsdp := l.currentsdp, registerTryCount := l.registerTryCount }
    handler := { w.handler with
      mSipAudioFormats := l.mSipAudioFormats
      localSipProfile := { w.handler.localSipProfile with nonce := l.nonce, realm := l.realm } } }

/-- Worlds that differ in their leftovers only, which are related by `K`. -/
def Alike (K : Leftover → Leftover → Prop) (s t : World) : Prop :=
  ∃ l, t = s.leave l ∧ K s.left l

/-- Any leftovers. -/
def anything (_ _ : Leftover) : Prop := True

/-- The same challenge. -/
def sameChallenge (l l' : Leftover) : Prop := l'.nonce = l.nonce ∧ l'.realm = l.realm

/-- The same formats. -/
def sameFormats (l l' : Leftover) : Prop := l'.mSipAudioFormats = l.mSipAudioFormats

theorem Alike.any {K : Leftover → Leftover → Prop} {s t : World} (h : Alike K s t) :
    Alike anything s t := by
  obtain ⟨l, rfl, -⟩ := h
  exact ⟨l, rfl, trivial⟩

/-- The method keeps the leftovers apart as they are, and does not depend on them. -/
def Keeps (K : Leftover → Leftover → Prop) (x : M α) : Prop :=
  Relates (Alike K) x (fun _ => Alike K) (Alike K)

namespace Keeps

variable {K : Leftover → Leftover → Prop} {x : M α}

theorem pure (a : α) : Keeps K (Pure.pure a) := Relates.pure fun _ _ h => h

theorem throw (e : JException) : Keeps K (MonadExcept.throw e : M α) := Relates.throw fun _ _ h => h

theorem bind {f : α → M β} (hx : Keeps K x) (hf : ∀ a, Keeps K (f a)) : Keeps K (x >>= f) :=
  Relates.bind hx hf

theorem get {f : World → M α} (he : ∀ s l, f (s.leave l) = f s) (hf : ∀ s, Keeps K (f s)) :
    Keeps K (MonadState.get >>= f) := by
  refine Relates.get ?_ hf
  rintro s _ ⟨l, rfl, -⟩
  exact (he s l).symm

/-- A method that writes leftovers. -/
theorem write {f : World → World} (hf : ∀ s l, ∃ l', f (s.leave l) = (f s).leave l') :
    Keeps anything (modify f) := by
  refine Relates.modify ?_
  rintro s _ ⟨l, rfl, -⟩
  obtain ⟨l', h⟩ := hf s l
  exact ⟨l', h, trivial⟩

theorem update {f : World → World} (hf : ∀ s l, f (s.leave l) = (f s).leave l)
    (hl : ∀ s, (f s).left = s.left) : Keeps K (modify f) := by
  refine Relates.modify ?_
  rintro s _ ⟨l, rfl, hk⟩
  exact ⟨l, hf s l, (hl s).symm ▸ hk⟩

theorem lift (r : Except JException α) : Keeps K (Java.lift r) :=
  Relates.lift (fun _ _ _ _ h => h) fun _ _ h => h

theorem tryCatch {h : JException → M α} (hx : Keeps K x) (hh : ∀ e, Keeps K (h e)) :
    Keeps K (MonadExcept.tryCatch x h) := Relates.tryCatch hx hh

theorem ite {c : Prop} [Decidable c] {y : M α} (hx : Keeps K x) (hy : Keeps K y) :
    Keeps K (if c then x else y) := Relates.ite (fun _ => hx) fun _ => hy

theorem any (h : Keeps K x) : Relates (Alike K) x (fun _ => Alike anything) (Alike anything) :=
  Relates.mono h (fun _ _ h => h) (fun _ _ _ h => h.any) fun _ _ h => h.any

/-! ## Stack calls -/

theorem call (c : StackCall) : Keeps K (JaySip.call env c) := by
  unfold JaySip.call
  cases env.fails c with
  | none => exact pure _
  | some e => exact throw e

theorem freshId : Keeps K JaySip.freshId :=
  get (fun _ _ => rfl) fun _ => bind (update (fun _ _ => rfl) fun _ => rfl) fun _ => pure _

theorem setStatusChanged {st : SipManagerState} {info : Option Str} :
    Keeps K (JaySip.setStatusChanged st info) := update (fun _ _ => rfl) fun _ => rfl

theorem getNewServerTransaction {r : Request} : Keeps K (JaySip.getNewServerTransaction env r) :=
  bind (call _) fun _ => bind freshId fun _ => pure _

theorem getNewClientTransaction {q : SipRequest} :
    Keeps K (JaySip.getNewClientTransaction env q) :=
  bind (call _) fun _ => bind freshId fun _ => pure _

theorem sendResponse {t : ServerTransaction} {r : Reply} : Keeps K (t.sendResponse env r) :=
  bind (call _) fun _ => update (fun _ _ => rfl) fun _ => rfl

theorem sendRequest {t : ClientTransaction} : Keeps K (t.sendRequest env) :=
  bind (call _) fun _ => update (fun _ _ => rfl) fun _ => rfl

/-! ## Requests -/

theorem createOffer : Keeps K (JaySip.createOffer env) :=
  bind (call _) fun _ => get (fun _ _ => rfl) fun _ => lift _

/-- The challenge is read for the repeats only. -/
theorem register {state : SipRequestState}
    (hk : (state = .authorization ∨ state = .unregisterAuthorization) →
      ∀ l l', K l l' → sameChallenge l l') : Keeps K (SipMessageHandler.register env state) := by
  refine bind (call _) fun _ => bind freshId fun callId => bind (call _) fun _ =>
    Relates.get ?_ fun w => bind (lift _) fun a => bind getNewClientTransaction fun t =>
      bind (update (fun _ _ => rfl) fun _ => rfl) fun _ => sendRequest
  rintro s _ ⟨l, rfl, hl⟩
  have ha : registerAuthorization env (s.leave l).handler.localSipProfile state =
      registerAuthorization env s.handler.localSipProfile state := by
    unfold registerAuthorization
    by_cases hs : state = .authorization ∨ state = .unregisterAuthorization
    · obtain ⟨hn, hr⟩ := hk hs _ _ hl
      rw [if_pos hs, if_pos hs]
      simp only [LocalSipProfile.getAuthorizationHeader, LocalSipProfile.digestHeader, World.leave,
        hn, hr]
      rfl
    · rw [if_neg hs, if_neg hs]
  rw [ha]
  rfl

theorem renewCallID {state : SipRequestState} : Keeps K (JaySip.renewCallID state) :=
  ite (bind freshId fun _ => update (fun _ _ => rfl) fun _ => rfl) (pure _)

theorem sendInvite {contact : SipContact} {state : SipRequestState}
    (hk : state = .authorization → ∀ l l', K l l' → sameChallenge l l') :
    Keeps K (SipMessageHandler.sendInvite env contact state) := by
  refine bind (call _) fun _ => bind renewCallID fun _ => Relates.get ?_ fun w =>
    bind (lift _) fun callId => bind (call _) fun _ => bind (lift _) fun a =>
      bind createOffer fun sdp => bind getNewClientTransaction fun t =>
        bind (update (fun _ _ => rfl) fun _ => rfl) fun _ => bind sendRequest fun _ =>
          update (fun _ _ => rfl) fun _ => rfl
  rintro s _ ⟨l, rfl, hl⟩
  have ha : inviteAuthorization env (s.leave l).handler.localSipProfile state =
      inviteAuthorization env s.handler.localSipProfile state := by
    unfold inviteAuthorization
    by_cases hs : state = .authorization
    · obtain ⟨hn, hr⟩ := hk hs _ _ hl
      rw [if_pos hs, if_pos hs]
      simp only [LocalSipProfile.getProxyAuthorizationHeader, LocalSipProfile.digestHeader,
        World.leave, hn, hr]
      rfl
    · rw [if_neg hs, if_neg hs]
  rw [ha]
  rfl

theorem sendAck : Keeps K (JaySip.sendAck env) :=
  get (fun _ _ => rfl) fun _ => bind (update (fun _ _ => rfl) fun _ => rfl) fun _ =>
    bind (lift _) fun _ => bind (call _) fun _ => bind (call _) fun _ =>
      update (fun _ _ => rfl) fun _ => rfl

theorem sendBye : Keeps K (JaySip.sendBye env) :=
  get (fun _ _ => rfl) fun _ => bind (lift _) fun _ => bind (call _) fun _ =>
    bind (call _) fun _ => bind (update (fun _ _ => rfl) fun _ => rfl) fun _ =>
      bind (call _) fun _ => update (fun _ _ => rfl) fun _ => rfl

theorem sendCancel : Keeps K (JaySip.sendCancel env) :=
  get (fun _ _ => rfl) fun _ => bind (lift _) fun _ => bind (call _) fun _ =>
    bind getNewClientTransaction fun _ => bind (update (fun _ _ => rfl) fun _ => rfl) fun _ =>
      bind (call _) fun _ => update (fun _ _ => rfl) fun _ => rfl

/-! ## Responses -/

theorem createResponse {code : ℕ} {request : Option Request} :
    Keeps K (JaySip.createResponse env code request) :=
  bind (lift _) fun _ => bind (call _) fun _ => pure _

theorem cachedTransaction {invite : Request} : Keeps K (JaySip.cachedTransaction env invite) := by
  refine get (fun _ _ => rfl) fun w => ?_
  cases w.handler.serverTransaction with
  | some t => exact pure t
  | none =>
    exact bind getNewServerTransaction fun _ =>
      bind (update (fun _ _ => rfl) fun _ => rfl) fun _ => pure _

theorem reply {code : ℕ} {invite : Option Request} : Keeps K (JaySip.reply env code invite) :=
  bind createResponse fun _ => bind cachedTransaction fun _ => sendResponse

/-! ## Answers -/

/-- A pure computation, after which less needs to be related. -/
theorem lift_any (r : Except JException α) :
    Relates (Alike K) (Java.lift r) (fun _ => Alike K) (Alike anything) :=
  Relates.lift (fun _ _ _ _ h => h) fun _ _ h => h.any

/-- The formats kept last are those of the answer, if there is one. -/
theorem createAnswer {request : Request} : Relates (Alike K) (JaySip.createAnswer env request)
    (fun d => Alike fun l l' => d ≠ none → sameFormats l l') (Alike anything) := by
  have writes : ∀ {K' : Leftover → Leftover → Prop} (fs : List SipAudioFormat),
      Relates (Alike K') (modify (·.setSipAudioFormats fs) : M Unit)
        (fun _ => Alike sameFormats) (Alike anything) := by
    intro K' fs
    refine Relates.modify ?_
    rintro s _ ⟨l, rfl, -⟩
    exact ⟨{ l with mSipAudioFormats := fs }, rfl, rfl⟩
  refine Relates.bind (call _).any fun _ => ?_
  refine Relates.bind (lift _) fun sdpSession => Relates.bind (lift _) fun origin => ?_
  refine Relates.bind (lift _) fun sessionId => Relates.bind (lift _) fun sessionVersion => ?_
  refine Relates.bind (lift _) fun sessionName => Relates.get ?_ fun w => ?_
  · rintro s _ ⟨l, rfl, -⟩
    rfl
  refine Relates.bind (lift _) fun audioFormats => Relates.ite (fun _ => ?_) fun _ => ?_
  · refine Relates.pure ?_
    rintro s _ ⟨l, rfl, -⟩
    exact ⟨l, rfl, fun h => absurd rfl h⟩
  refine Relates.bind (writes _) fun _ => Relates.bind (lift_any _) fun formats => ?_
  refine Relates.bind (writes _) fun _ => Relates.map ?_
  refine Relates.lift (fun sdp _ => ?_) fun _ _ h => h.any
  rintro s _ ⟨l, rfl, hl⟩
  exact ⟨l, rfl, fun _ => hl⟩

theorem sendOK {request : Request} {transaction : Option ServerTransaction} :
    Keeps anything (JaySip.sendOK env request transaction) := by
  refine bind createResponse fun response => ?_
  cases transaction with
  | some t => exact sendResponse
  | none =>
    refine bind (call _) fun _ => get (fun _ _ => rfl) fun w => ?_
    have answer : Keeps anything (JaySip.createAnswer env request) := by
      exact Relates.mono createAnswer (fun _ _ h => h) (fun _ _ _ h => h.any) fun _ _ h => h
    exact bind answer fun _ => bind (lift _) fun _ => bind cachedTransaction fun _ => sendResponse

/-! ## Local operations -/

theorem acceptCall : Keeps anything (JaySip.acceptCall env) := by
  refine get (fun _ _ => rfl) fun w => ?_
  cases w.service.currentRequest with
  | none => exact pure _
  | some request => exact sendOK

theorem declineCall : Keeps K (JaySip.declineCall env) := by
  refine get (fun _ _ => rfl) fun w => ?_
  cases w.service.currentRequest with
  | none => exact pure _
  | some request => exact reply

theorem endCall : Keeps K (JaySip.endCall env) :=
  get (fun _ _ => rfl) fun _ => ite sendBye sendCancel

theorem reset : Keeps K JaySip.reset :=
  bind (update (fun _ _ => rfl) fun _ => rfl) fun _ =>
    bind (update (fun _ _ => rfl) fun _ => rfl) fun _ =>
      bind (update (fun _ _ => rfl) fun _ => rfl) fun _ =>
        bind (update (fun _ _ => rfl) fun _ => rfl) fun _ => setStatusChanged

theorem call_sendInvite {contact : SipContact} : Keeps K (JaySip.sendInvite env contact) :=
  bind (update (fun _ _ => rfl) fun _ => rfl) fun _ =>
    bind (update (fun _ _ => rfl) fun _ => rfl) fun _ =>
      bind setStatusChanged fun _ => sendInvite fun h => nomatch h

/-! ## Incoming requests -/

/-- The session takes its formats from the answer that was made for it. -/
theorem processInvite {request : Request} :
    Keeps anything (JaySip.processInvite env request) := by
  refine get (fun _ _ => rfl) fun w => ite ?_ reply
  refine bind (lift _) fun sdpSession => Relates.bind createAnswer fun currentsdp => ?_
  have writes : Relates (Alike fun l l' => currentsdp ≠ none → sameFormats l l')
      (modify (·.setSdp currentsdp) : M Unit)
      (fun _ => Alike fun l l' => currentsdp ≠ none → sameFormats l l') (Alike anything) := by
    refine Relates.modify ?_
    rintro s _ ⟨l, rfl, hl⟩
    exact ⟨{ l with currentsdp := currentsdp }, rfl, hl⟩
  refine Relates.bind writes fun _ => Relates.ite (fun _ => reply.any) fun hn => ?_
  refine Relates.bind (lift_any _) fun session => Relates.bind (Q := fun _ => Alike anything) ?_
    fun _ => ?_
  · refine Relates.modify ?_
    rintro s _ ⟨l, rfl, hl⟩
    refine ⟨l, ?_, trivial⟩
    have hf : (s.leave l).handler.mSipAudioFormats = s.handler.mSipAudioFormats := hl hn
    simp only [hf]
    rfl
  refine bind (lift _) fun callTO => ite ?_ reply
  refine bind (update (fun _ _ => rfl) fun _ => rfl) fun _ => bind reply fun _ => ?_
  refine bind (lift _) fun number => bind setStatusChanged fun _ => ?_
  exact update (fun _ _ => rfl) fun _ => rfl

theorem processAck {dialog : Option Dialog} : Keeps K (JaySip.processAck dialog) := by
  refine get (fun _ _ => rfl) fun w => ?_
  cases w.service.currentSession with
  | none => exact pure _
  | some session =>
    exact bind (update (fun _ _ => rfl) fun _ => rfl) fun _ =>
      bind (lift _) fun _ => setStatusChanged

theorem processBye {request : Request} {transaction : Option ServerTransaction} :
    Keeps anything (JaySip.processBye env request transaction) :=
  bind (tryCatch sendOK fun _ => setStatusChanged) fun _ => bind setStatusChanged fun _ => reset

theorem processRequest {ev : RequestEvent} : Keeps anything (JaySip.processRequest env ev) := by
  refine bind freshId fun id => ?_
  dsimp only
  cases ev.message.method with
  | invite => exact tryCatch processInvite fun _ => setStatusChanged
  | cancel => exact reset
  | ack => exact processAck
  | bye =>
    refine bind ?_ fun _ => processBye
    exact ite (bind freshId fun _ => pure _) (pure _)
  | register => exact pure _
  | other name => exact pure _

/-! ## Responses -/

theorem orError {x : M Unit} (h : Keeps K x) : Keeps K (JaySip.orError x) :=
  tryCatch h fun _ => setStatusChanged

theorem processRinging : Keeps K JaySip.processRinging :=
  get (fun _ _ => rfl) fun _ => ite setStatusChanged (pure _)

theorem establish {ev : ResponseEvent} : Keeps K (JaySip.establish env ev) := by
  refine bind (lift _) fun sdpSession => bind (lift _) fun session => ?_
  refine bind (update (fun _ _ => rfl) fun _ => rfl) fun _ => get (fun _ _ => rfl) fun w => ?_
  refine bind (lift _) fun audioFormats => bind (lift _) fun tempa => ?_
  refine bind (update (fun _ _ => rfl) fun _ => rfl) fun _ => ?_
  exact bind (update (fun _ _ => rfl) fun _ => rfl) fun _ => bind sendAck fun _ => setStatusChanged

theorem processOK {ev : ResponseEvent} : Keeps anything (JaySip.processOK env ev) := by
  have counts : Keeps anything (modify fun w => w.setTryCount 0) :=
    write fun s l => ⟨{ l with registerTryCount := 0 }, rfl⟩
  refine get (fun _ _ => rfl) fun w => ite establish ?_
  refine ite (bind setStatusChanged fun _ => counts) ?_
  exact ite (bind setStatusChanged fun _ => counts) (pure _)

/-- After a challenge the last one is the same. -/
theorem challenged {K : Leftover → Leftover → Prop} (nonce realm : Option Str) :
    Relates (Alike K) (modify (·.setChallenge nonce realm) : M Unit)
      (fun _ => Alike sameChallenge) (Alike anything) := by
  refine Relates.modify ?_
  rintro s _ ⟨l, rfl, -⟩
  exact ⟨{ l with nonce := nonce, realm := realm }, rfl, rfl, rfl⟩

theorem counted : Keeps anything
    (modify fun w => w.setTryCount (w.service.registerTryCount + 1)) :=
  write fun _ l => ⟨{ l with registerTryCount := l.registerTryCount + 1 }, rfl⟩

theorem processUnauthorized {response : Response} :
    Keeps anything (JaySip.processUnauthorized env response) := by
  have again : ∀ {state}, Keeps sameChallenge (SipMessageHandler.register env state) :=
    register fun _ _ _ h => h
  refine bind counted fun _ => bind (lift _) fun authHeader => ?_
  refine Relates.bind (challenged _ _) fun _ => Keeps.any ?_
  exact get (fun _ _ => rfl) fun _ => ite again (ite again (pure _))

theorem processProxyAuthentication {response : Response} :
    Keeps anything (JaySip.processProxyAuthentication env response) := by
  refine bind counted fun _ => get (fun _ _ => rfl) fun w => ?_
  cases w.service.currentSession with
  | some session => exact pure _
  | none =>
    cases w.service.currentContact with
    | none => exact pure _
    | some contact =>
      refine bind (lift _) fun authHeader => Relates.bind (challenged _ _) fun _ => Keeps.any ?_
      exact ite (sendInvite fun _ _ _ h => h) (pure _)

theorem processResponse {ev : ResponseEvent} : Keeps anything (JaySip.processResponse env ev) := by
  unfold JaySip.processResponse
  split
  · exact bind (orError processRinging) fun _ => orError processOK
  · exact orError processOK
  · exact orError processUnauthorized
  · exact setStatusChanged
  · exact orError processProxyAuthentication
  · exact setStatusChanged
  · exact setStatusChanged
  · exact setStatusChanged
  · exact setStatusChanged
  · exact pure _

/-- No method of the client depends on the leftovers. -/
theorem method (action : Action) : Keeps anything (action.method env) := by
  cases action with
  | register => exact bind setStatusChanged fun _ => register fun h => h.elim nofun nofun
  | unregister => exact bind setStatusChanged fun _ => register fun h => h.elim nofun nofun
  | sendInvite contact => exact call_sendInvite
  | acceptCall => exact acceptCall
  | declineCall => exact declineCall
  | endCall => exact endCall
  | reset => exact reset
  | request ev => exact processRequest
  | response ev => exact processResponse

end Keeps

/-! ## Runs -/

theorem Alike.step {s t : World} (h : Alike anything s t) (i : Input) :
    Alike anything (JaySip.step s i) (JaySip.step t i) := by
  obtain ⟨l, rfl, -⟩ := h
  exact Relates.after (Keeps.method i.action) (s := { s with out := [] })
    (t := { s.leave l with out := [] }) ⟨l, rfl, trivial⟩

theorem Alike.out {s t : World} (h : Alike anything s t) : t.out = s.out := by
  obtain ⟨l, rfl, -⟩ := h
  rfl

/-- Clients that differ in leftovers only send and broadcast the same. -/
theorem Alike.outputs {s t : World} (h : Alike anything s t) (is : List Input) :
    (client.history t is).map (·.post.out) = (client.history s is).map (·.post.out) := by
  induction is generalizing s t with
  | nil => rfl
  | cons i is ih =>
    have hi : Alike anything (client.step s i) (client.step t i) := h.step i
    simp only [Machine.history, List.map_cons, ih hi]
    exact congrArg (· :: _) hi.out

/-- The client with its stack's counter at `n`. -/
def World.drawFrom (w : World) (n : ℕ) : World := { w with fresh := n }

/-- After `reset` only the leftovers tell two clients of one local user apart. -/
theorem alike_reset {w₁ w₂ : World} (h : SameLocal w₁.handler w₂.handler) (n : ℕ) (env : Env) :
    Alike anything (step (w₁.drawFrom n) ⟨env, .reset⟩) (step (w₂.drawFrom n) ⟨env, .reset⟩) := by
  obtain ⟨nonce, realm, hp⟩ := h.profile
  have hr : ∀ w : World, step (w.drawFrom n) ⟨env, .reset⟩ = (w.drawFrom n).quiet.cleared :=
    fun _ => rfl
  refine ⟨(step (w₂.drawFrom n) ⟨env, .reset⟩).left, ?_, trivial⟩
  rw [hr, hr]
  simp [World.cleared, World.leave, World.left, World.drawFrom, World.quiet,
    SipMessageHandler.reset, World.setStatusChanged, World.setState, World.setSession,
    World.setRequest, World.setContact, World.emit, hp, h.address, h.port]

/-- The challenge of Alice's registrar. -/
def Trace.challenge : Input :=
  ⟨calm, .response ⟨{ message .register 0 "alice".toList none with
    status := 401, wwwAuthenticate := some ⟨some "n".toList, some "home".toList⟩ }, none⟩⟩

/-- **`reset` forgets the past: two clients of one local user send the same messages and
    broadcast the same states from then on, whatever they did before.** -/
theorem reset_forgets {w₁ w₂ : World} (h : SameLocal w₁.handler w₂.handler) (n : ℕ) (env : Env)
    (is : List Input) :
    (client.history (w₂.drawFrom n) (⟨env, .reset⟩ :: is)).map (·.post.out) =
      (client.history (w₁.drawFrom n) (⟨env, .reset⟩ :: is)).map (·.post.out) := by
  have hr : Alike anything (client.step (w₁.drawFrom n) ⟨env, .reset⟩)
      (client.step (w₂.drawFrom n) ⟨env, .reset⟩) := alike_reset h n env
  simp only [Machine.history, List.map_cons, hr.outputs is]
  exact congrArg (· :: _) hr.out

/-- Alice's client that has been challenged, and a new one. -/
theorem reset_forgets_challenge : (client.history ((client.run Trace.idle
      [Trace.act .register, Trace.challenge]).drawFrom 9)
        [Trace.act .reset, Trace.act .register]).map (·.post.out) =
    (client.history (Trace.idle.drawFrom 9)
      [Trace.act .reset, Trace.act .register]).map (·.post.out) :=
  reset_forgets ⟨⟨some "n".toList, some "home".toList, rfl⟩, rfl, rfl⟩ 9 Trace.calm
    [Trace.act .register]

end JaySip
