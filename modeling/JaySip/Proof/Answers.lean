/-
  Responses and the requests they answer: which responses move the client, and which
  answers to an INVITE are acknowledged.
-/
import JaySip.Proof.Consent
import JaySip.Sip.Network

namespace JaySip

open Java

variable {env : Env} {w w' : World} {i : Input}

/-- The client waits for the answer to an INVITE. -/
def Waiting (w : World) : Prop :=
  w.service.currentState = .ringing ∨ w.service.currentState = .calling

/-! ## The requests sent -/

/-- The step sends the request `q`. -/
def Sends (st : ClientStep) (q : SipRequest) : Prop := q ∈ st.post.requests

theorem mem_requests {q : SipRequest} :
    q ∈ w.requests ↔ ∃ t, Output.request t ∈ w.out ∧ t.request = q := by
  rw [World.requests, List.mem_filterMap]
  constructor
  · rintro ⟨o, ho, h⟩
    cases o <;> cases h
    exact ⟨_, ho, rfl⟩
  · rintro ⟨t, ht, rfl⟩
    exact ⟨_, ht, rfl⟩

/-- The response is to an INVITE that the client sent. -/
def AnswersInvite (h : List ClientStep) (r : Response) : Prop :=
  ∃ st ∈ h, ∃ q, Sends st q ∧ q.method = .invite ∧ r.Answers q

/-- The response is to the REGISTER that the last `op` sent, with this Expires header, or to an
    authorised repeat of it: to one sent since, with an Authorization header. -/
def AnswersRegister (h : List ClientStep) (op : Action) (expires : Option ℤ) (r : Response) :
    Prop :=
  ∃ earlier opening later q, h = earlier ++ opening :: later ∧ opening.input.action = op ∧
    (∀ st ∈ later, st.input.action ≠ op) ∧
    (Sends opening q ∨ q.authorization ≠ none ∧ ∃ st ∈ later, Sends st q) ∧
    q.method = .register ∧ q.expires = expires ∧ r.Answers q

/-- A success response. -/
def Response.Success (r : Response) : Prop := 200 ≤ r.status ∧ r.status < 300

/-! ## Waiting clients -/

/-- While the client waits, a session is one of an incoming INVITE. -/
def Unanswered (w : World) : Prop :=
  Waiting w → ∀ s, w.service.currentSession = some s → ∃ id, s.source = .request id

theorem failureState_waiting {status : ℕ} {st : SipManagerState}
    (h : failureState status = some st) : st ≠ .ringing ∧ st ≠ .calling := by
  unfold failureState at h
  split at h <;> cases h <;> decide

namespace Unanswered

theorem of_service (h : Unanswered w) (hs : w'.service.currentState = w.service.currentState)
    (hn : w'.service.currentSession = w.service.currentSession) : Unanswered w' := by
  unfold Unanswered Waiting
  rw [hs, hn]
  exact h

theorem of_state (h : ¬ Waiting w') : Unanswered w' := fun hw => absurd hw h

theorem invited {r : Request} (h : Unanswered w) (hi : Invited env w r w') : Unanswered w' := by
  intro hw s hs
  rcases hi.session_source hs with hs' | hs'
  · refine h ?_ s hs'
    cases hi with
    | busy => simpa [Waiting] using hw
    | declined => simpa [Waiting] using hw
    | notFound => simpa [Waiting] using hw
    | _ => simp [Waiting] at hw
  · exact ⟨_, hs'⟩

theorem received {ev : RequestEvent} (h : Unanswered w) (hr : Receives env w ev w') :
    Unanswered w' := by
  cases hr with
  | invite _ _ hi => exact invited (w := w.tick) h hi
  | cancel => exact of_state (by simp [Waiting])
  | ack _ _ ha =>
    cases ha with
    | established => exact of_state (by simp [Waiting])
    | unnumbered => exact h
    | ignored => exact h
  | bye => exact of_state (by simp [Waiting])
  | other => exact h

theorem answered {ev : ResponseEvent} (h : Unanswered w) (ha : Answered env w ev w') :
    Unanswered w' := by
  cases ha with
  | ignored => exact h
  | _ => exact of_state (by simp [Waiting])

theorem rung (h : Unanswered w) : Unanswered w.rung := by
  intro hw s hs
  rw [rung_service] at hs
  unfold World.rung at hw
  split_ifs at hw with hc
  · exact h (Or.inr hc) s hs
  · exact h hw s hs

theorem responds {ev : ResponseEvent} (h : Unanswered w) (hr : Responds env w ev w') :
    Unanswered w' := by
  cases hr with
  | ringing _ _ ha => exact h.rung.answered ha
  | ok _ _ ha => exact h.answered ha
  | unauthorized _ _ hu =>
    cases hu with
    | noted => exact h.of_service (by simp) (by simp)
    | repeated => exact h.of_service (by simp) (by simp)
    | _ => exact of_state (by simp [Waiting])
  | proxied _ _ hp =>
    cases hp with
    | ignored => exact h.of_service (by simp) (by simp)
    | noted => exact h.of_service (by simp) (by simp)
    | repeated => exact h.of_service (by simp) (by simp)
    | _ => exact of_state (by simp [Waiting])
  | failure st hst => exact of_state (by simp [Waiting, failureState_waiting hst])
  | other => exact h

theorem step (h : Unanswered w) (i : Input) : Unanswered (JaySip.step w i) := by
  have hq : Unanswered w.quiet := h
  generalize hw : JaySip.step w i = w'
  have hs := hw ▸ stepped w i
  cases hs with
  | register _ _ hr => exact of_state (by simp [Waiting, hr.service])
  | unregister _ _ hr => exact of_state (by simp [Waiting, hr.service])
  | sendInvite _ _ contact hi => exact fun _ s hs => by simp [hi.service] at hs
  | acceptCall _ _ ha => exact hq.of_service (by rw [ha.service]) (by rw [ha.service])
  | declineCall _ _ hd => exact hq.of_service (by rw [hd.service]) (by rw [hd.service])
  | endCall _ _ he => exact hq.of_service (by rw [he.service]) (by rw [he.service])
  | reset => exact of_state (by simp [Waiting])
  | request _ _ _ hr => exact hq.received hr
  | response _ _ _ hr => exact hq.responds hr

theorem init (h : client.init w) : Unanswered w := by
  obtain ⟨profile, localIPAddress, localSipPort, rfl⟩ := h
  exact of_state (by simp [Waiting, World.start])

end Unanswered

/-! ## What a response moves -/

/-- The step establishes a call, sets the session or acknowledges. -/
def JoinsCall (w w' : World) : Prop :=
  (w.service.currentState ≠ .established ∧ w'.service.currentState = .established) ∨
    w'.service.currentSession ≠ w.service.currentSession ∨ ∃ d n, Output.ack d n ∈ w'.out

/-- The status codes handled as success: 180 falls through to 200. -/
def Response.Accepted (r : Response) : Prop := r.status = 180 ∨ r.status = 200

theorem answering_rung {ev : ResponseEvent} : Answering w.rung ev ↔ Answering w ev := by
  unfold Answering
  rw [rung_service]
  by_cases hc : w.service.currentState = .calling <;> simp [hc]

theorem Answered.joins_iff {ev : ResponseEvent} (h : Unanswered w)
    (ho : ∀ d n, Output.ack d n ∉ w.out) (ha : Answered env w ev w') :
    JoinsCall w w' ↔ Answering w ev ∧ ∃ s, ev.response.session env.getByName = .ok s := by
  -- the session of a response is new to a waiting client
  have fresh : ∀ {s s' : SipSession}, Answering w ev → ev.response.session env.getByName = .ok s →
      s'.source = s.source → some s' ≠ w.service.currentSession := by
    intro s s' hw hs hss he
    obtain ⟨id, hid⟩ := h hw.1 s' he.symm
    rw [hss, (Response.session_fields hs).1] at hid
    cases hid
  have same : ∀ {w₁ : World}, w₁.service.currentSession = w.service.currentSession →
      w₁.service.currentState ≠ .established → (∀ d n, Output.ack d n ∉ w₁.out) →
      ¬ JoinsCall w w₁ := by
    rintro w₁ hs hn hk (⟨-, he⟩ | hne | ⟨d, n, hd⟩)
    · exact hn he
    · exact hne hs
    · exact hk d n hd
  cases ha with
  | established d fs s hj =>
    exact iff_of_true (Or.inr (Or.inr ⟨d, _, by simp; exact Or.inr rfl⟩))
      ⟨hj.answering, s, hj.session⟩
  | unacked d fs s hj =>
    exact iff_of_true (Or.inr (Or.inl (fresh hj.answering hj.session (by simp))))
      ⟨hj.answering, s, hj.session⟩
  | unmatched s e hw hs =>
    exact iff_of_true (Or.inr (Or.inl (fresh hw hs rfl))) ⟨hw, s, hs⟩
  | unread e hw he =>
    exact iff_of_false (same rfl (by simp) (by simpa using ho)) fun ⟨_, s, hs⟩ => by
      simp [he] at hs
  | registered hr =>
    exact iff_of_false (same rfl (by simp) (by simpa using ho)) fun ⟨hw, _⟩ => by
      simp [Answering, hr] at hw
  | unregistered hr =>
    exact iff_of_false (same rfl (by simp) (by simpa using ho)) fun ⟨hw, _⟩ => by
      simp [Answering, hr] at hw
  | ignored hn =>
    refine iff_of_false ?_ fun hw => hn hw.1
    rintro (⟨hne, he⟩ | hne | ⟨d, n, hd⟩)
    · exact hne he
    · exact hne rfl
    · exact ho d n hd

theorem Responds.joins_iff {ev : ResponseEvent} (h : Unanswered w)
    (ho : ∀ d n, Output.ack d n ∉ w.out) (hr : Responds env w ev w') :
    JoinsCall w w' ↔ ev.response.Accepted ∧ Answering w ev ∧
      ∃ s, ev.response.session env.getByName = .ok s := by
  have other : ∀ {status : ℕ}, ev.response.status = status → status ≠ 180 → status ≠ 200 →
      ¬ ev.response.Accepted :=
    fun he h1 h2 ha => ha.elim (fun ha => h1 (he.symm.trans ha)) fun ha => h2 (he.symm.trans ha)
  have quiet : ∀ {w₁ : World}, w₁.service.currentSession = w.service.currentSession →
      (w₁.service.currentState = .established → w.service.currentState = .established) →
      (∀ d n, Output.ack d n ∉ w₁.out) → ¬ JoinsCall w w₁ := by
    rintro w₁ hs hn hk (⟨hne, he⟩ | hne | ⟨d, n, hd⟩)
    · exact hne (hn he)
    · exact hne hs
    · exact hk d n hd
  cases hr with
  | ringing _ he ha =>
    have hk : ∀ d n, Output.ack d n ∉ w.rung.out := by
      rcases rung_out (w := w) with hw | hw <;> simpa [hw] using ho
    have hj : JoinsCall w w' ↔ JoinsCall w.rung w' := by
      unfold JoinsCall
      rw [rung_service]
      by_cases hc : w.service.currentState = .calling <;> simp [hc]
    rw [hj, ha.joins_iff h.rung hk, answering_rung]
    exact ⟨fun hw => ⟨Or.inl he, hw⟩, fun hw => hw.2⟩
  | ok _ he ha =>
    rw [ha.joins_iff h ho]
    exact ⟨fun hw => ⟨Or.inr he, hw⟩, fun hw => hw.2⟩
  | unauthorized _ he hu =>
    refine iff_of_false (quiet ?_ ?_ ?_) fun hw => other he (by decide) (by decide) hw.1
    · cases hu <;> simp
    · cases hu <;> simp
    · cases hu <;> simpa using ho
  | proxied _ he hp =>
    refine iff_of_false (quiet ?_ ?_ ?_) fun hw => other he (by decide) (by decide) hw.1
    · cases hp <;> simp
    · cases hp <;> simp
    · cases hp <;> simpa using ho
  | failure st hst =>
    refine iff_of_false (quiet rfl ?_ (by simpa using ho)) ?_
    · rintro rfl
      exact absurd hst failureState_ne_established
    · rintro ⟨he | he, -⟩ <;> simp [he, failureState] at hst
  | other hn =>
    refine iff_of_false (quiet rfl id ho) ?_
    rintro ⟨he | he, -⟩ <;> simp [he] at hn

/-- The state that ends a registration, or a de-registration. -/
def registrationEnd : SipManagerState → Option SipManagerState
  | .registering => some .ready
  | .unregistering => some .idle
  | _ => none

theorem failureState_end {status : ℕ} {st : SipManagerState} (h : failureState status = some st) :
    st ≠ .ready ∧ st ≠ .idle := by
  unfold failureState at h
  split at h <;> cases h <;> decide

/-- A registration is over after any response that is handled as a success, and after no
    other. -/
theorem Responds.registration_iff {ev : ResponseEvent} {st : SipManagerState}
    (hs : registrationEnd w.service.currentState = some st) (hr : Responds env w ev w') :
    w'.service.currentState = st ↔ ev.response.Accepted := by
  have hend : st = .ready ∨ st = .idle := by
    revert hs
    cases w.service.currentState <;> simp [registrationEnd] <;> tauto
  have hne : w.service.currentState ≠ st := by
    rintro rfl
    rcases hend with he | he <;> simp [he, registrationEnd] at hs
  have answered : Answered env w ev w' → w'.service.currentState = st := by
    intro ha
    have hnw : ¬ Answering w ev := by
      rintro ⟨hc | hc, -⟩ <;> simp [hc, registrationEnd] at hs
    cases ha with
    | established _ _ _ hj => exact absurd hj.answering hnw
    | unacked _ _ _ hj => exact absurd hj.answering hnw
    | unmatched _ _ ha => exact absurd ha hnw
    | unread _ ha => exact absurd ha hnw
    | registered hreg =>
      rw [hreg] at hs
      exact Option.some.inj hs
    | unregistered hreg =>
      rw [hreg] at hs
      exact Option.some.inj hs
    | ignored _ h1 h2 =>
      revert hs h1 h2
      cases w.service.currentState <;> simp [registrationEnd]
  have error : SipManagerState.error ≠ st := by
    rintro rfl
    simp at hend
  cases hr with
  | ringing _ he ha =>
    rw [rung_of_ne (fun hc => by simp [hc, registrationEnd] at hs)] at ha
    exact iff_of_true (answered ha) (Or.inl he)
  | ok _ he ha => exact iff_of_true (answered ha) (Or.inr he)
  | unauthorized _ he hu =>
    refine iff_of_false ?_ (by simp [Response.Accepted, he])
    cases hu with
    | unchallenged => exact error
    | noted => exact hne
    | repeated => exact hne
    | failed => exact error
  | proxied _ he hp =>
    refine iff_of_false ?_ (by simp [Response.Accepted, he])
    cases hp with
    | ignored => exact hne
    | unchallenged => exact error
    | noted => exact hne
    | repeated => exact hne
    | failed => exact error
  | failure st' hst =>
    refine iff_of_false ?_ ?_
    · rintro rfl
      exact hend.elim (failureState_end hst).1 (failureState_end hst).2
    · rintro (he | he) <;> simp [he, failureState] at hst
  | other hn => exact iff_of_false hne (by rintro (he | he) <;> simp [he] at hn)

/-! ## Responses answer the request that opened the state -/

/-- A response joins a call only as a success that answers an INVITE of this client, and ends
    REGISTERING and UNREGISTERING only as a success that answers the REGISTER that opened them. -/
structure Moves (h : List ClientStep) (st : ClientStep) : Prop where
  call : ∀ ev, st.input.action = .response ev → JoinsCall st.pre st.post →
    ev.response.Success ∧ AnswersInvite h ev.response
  ready : ∀ ev, st.input.action = .response ev → st.pre.service.currentState = .registering →
    st.post.service.currentState = .ready →
    ev.response.Success ∧ AnswersRegister h .register none ev.response
  idle : ∀ ev, st.input.action = .response ev → st.pre.service.currentState = .unregistering →
    st.post.service.currentState = .idle →
    ev.response.Success ∧ AnswersRegister h .unregister (some 0) ev.response

/-- A 180 or 200 that comes with a dialog and a session description while the client waits is
    a 200 to an INVITE of this client; one that comes while it registers or de-registers is a
    200 to that REGISTER. -/
structure Ordered (h : List ClientStep) (st : ClientStep) : Prop where
  call : ∀ ev, st.input.action = .response ev → ev.response.Accepted → Answering st.pre ev →
    (∃ s, ev.response.session st.input.env.getByName = .ok s) →
    ev.response.status = 200 ∧ AnswersInvite h ev.response
  ready : ∀ ev, st.input.action = .response ev → ev.response.Accepted →
    st.pre.service.currentState = .registering →
    ev.response.status = 200 ∧ AnswersRegister h .register none ev.response
  idle : ∀ ev, st.input.action = .response ev → ev.response.Accepted →
    st.pre.service.currentState = .unregistering →
    ev.response.status = 200 ∧ AnswersRegister h .unregister (some 0) ev.response

/-- Of the two codes handled as success, 200 is one. -/
theorem Response.Accepted.success_iff {r : Response} (h : r.Accepted) :
    r.Success ↔ r.status = 200 := by
  rcases h with h | h <;> simp [Response.Success, h]

theorem moves_iff_ordered (hu : Unanswered w) (h : List ClientStep) :
    Moves h (client.stepOf w i) ↔ Ordered h (client.stepOf w i) := by
  obtain ⟨env, action⟩ := i
  have hr : ∀ ev, action = .response ev →
      Responds env w.quiet ev (client.stepOf w ⟨env, action⟩).post := by
    rintro ev rfl
    exact step_responds
  have hj : ∀ ev, action = .response ev →
      (JoinsCall w (client.stepOf w ⟨env, action⟩).post ↔ ev.response.Accepted ∧
        Answering w ev ∧ ∃ s, ev.response.session env.getByName = .ok s) :=
    fun ev ha => Responds.joins_iff (w := w.quiet) hu (by simp) (hr ev ha)
  have hend : ∀ ev st, action = .response ev →
      registrationEnd w.service.currentState = some st →
      ((client.stepOf w ⟨env, action⟩).post.service.currentState = st ↔ ev.response.Accepted) :=
    fun ev st ha hs => Responds.registration_iff (w := w.quiet) hs (hr ev ha)
  constructor
  · intro hm
    refine ⟨fun ev ha hacc hw hs => ?_, fun ev ha hacc hst => ?_, fun ev ha hacc hst => ?_⟩
    · have := hm.call ev ha ((hj ev ha).2 ⟨hacc, hw, hs⟩)
      exact ⟨hacc.success_iff.1 this.1, this.2⟩
    · have := hm.ready ev ha hst ((hend ev .ready ha (congrArg registrationEnd hst)).2 hacc)
      exact ⟨hacc.success_iff.1 this.1, this.2⟩
    · have := hm.idle ev ha hst ((hend ev .idle ha (congrArg registrationEnd hst)).2 hacc)
      exact ⟨hacc.success_iff.1 this.1, this.2⟩
  · intro ho
    refine ⟨fun ev ha hc => ?_, fun ev ha hst hp => ?_, fun ev ha hst hp => ?_⟩
    · obtain ⟨hacc, hw, hs⟩ := (hj ev ha).1 hc
      have := ho.call ev ha hacc hw hs
      exact ⟨hacc.success_iff.2 this.1, this.2⟩
    · have hacc := (hend ev .ready ha (congrArg registrationEnd hst)).1 hp
      have := ho.ready ev ha hacc hst
      exact ⟨hacc.success_iff.2 this.1, this.2⟩
    · have hacc := (hend ev .idle ha (congrArg registrationEnd hst)).1 hp
      have := ho.idle ev ha hacc hst
      exact ⟨hacc.success_iff.2 this.1, this.2⟩

/-- **Responses move the state only when they answer the request that opened it, in exactly
    the runs whose successes do.** -/
theorem moves_along_iff {s₀ : World} (h₀ : client.init s₀) (is : List Input) :
    client.Along s₀ is Moves ↔ client.Along s₀ is Ordered :=
  client.along_congr (I := fun _ w => Unanswered w) (Unanswered.init h₀)
    (fun _ _ i hw => hw.step i) (fun h _ _ hw => moves_iff_ordered hw h) is

/-- Alice calls Bob. -/
def Trace.callToBob : List Input := [act (.sendInvite bob)]

theorem Trace.answers_callToBob : AnswersInvite (client.history idle callToBob)
    (answer 200 .invite 0 (some (audio "0".toList))).response := by
  have hq : ∃ q ∈ (client.run idle callToBob).requests,
      q.method = .invite ∧ q.callId = 0 ∧ q.cSeq = 1 := by
    decide
  obtain ⟨q, hq, hm, hc, hn⟩ := hq
  exact ⟨_, .head _, q, hq, hm, hm.symm, hc.symm, hn.symm⟩

/-- Bob takes the call. -/
theorem moves_along_taken : client.Along Trace.idle
    (Trace.callToBob ++ [Trace.response 200 .invite 0 (some (Trace.audio "0".toList))]) Moves := by
  rw [moves_along_iff Trace.idle_init, client.along_snoc]
  refine ⟨client.along_cons.2 ⟨⟨?_, ?_, ?_⟩, client.along_nil _ _⟩, ?_, ?_, ?_⟩
  · exact fun _ ha => nomatch ha
  · exact fun _ ha => nomatch ha
  · exact fun _ ha => nomatch ha
  · rintro _ ⟨⟩ - - -
    exact ⟨rfl, Trace.answers_callToBob⟩
  · exact fun _ _ _ hs => absurd hs (by decide)
  · exact fun _ _ _ hs => absurd hs (by decide)

/-- A 180 with a session description is taken for the answer. -/
theorem ringing_establishes : ¬ ∀ s₀, client.init s₀ → ∀ is, client.Along s₀ is Moves := by
  intro h
  have hrun := h _ Trace.idle_init
    (Trace.callToBob ++ [Trace.response 180 .invite 0 (some (Trace.audio "0".toList))])
  have hs := ((client.along_snoc.1 hrun).2.call _ rfl (Or.inl ⟨by decide, by decide⟩)).1
  exact absurd hs.1 (by decide)

/-! ## Acknowledgements -/

theorem Answered.ack_iff {ev : ResponseEvent} {d : Dialog} (hb : ev.response.rawContent ≠ none)
    (hd : ev.getDialog = some d) (ho : ∀ n, Output.ack d n ∉ w.out)
    (ha : Answered env w ev w') : (∃ n, Output.ack d n ∈ w'.out) ↔
      Waiting w ∧ (∃ s, ev.response.session env.getByName = .ok s) ∧
        (∃ fs, ev.response.formats w.handler.localSipProfile = .ok fs) ∧
        env.fails .createAck = none ∧ env.fails .sendAck = none := by
  have none : ∀ {w₁ : World}, (∀ n, Output.ack d n ∈ w₁.out → Output.ack d n ∈ w.out) →
      ¬ ∃ n, Output.ack d n ∈ w₁.out := fun h ⟨n, hn⟩ => ho n (h n hn)
  cases ha with
  | established d' fs s hj hc hk =>
    obtain rfl : d = d' := by simpa [hd] using hj.dialog
    exact iff_of_true ⟨_, by simp; exact Or.inr rfl⟩
      ⟨hj.answering.1, ⟨s, hj.session⟩, ⟨fs, hj.formats⟩, hc, hk⟩
  | unacked d' fs s hj hk =>
    exact iff_of_false (none (by simp)) fun h => hk h.2.2.2.1 h.2.2.2.2
  | unmatched s e _ _ hf =>
    exact iff_of_false (none (by simp)) fun ⟨_, _, ⟨fs, hfs⟩, _⟩ => by simp [hf] at hfs
  | unread e _ he =>
    exact iff_of_false (none (by simp)) fun ⟨_, ⟨s, hs⟩, _⟩ => by simp [he] at hs
  | registered hr =>
    exact iff_of_false (none (by simp)) fun h => by simp [Waiting, hr] at h
  | unregistered hr =>
    exact iff_of_false (none (by simp)) fun h => by simp [Waiting, hr] at h
  | ignored hn =>
    exact iff_of_false (none (by simp)) fun h => hn ⟨h.1, hb, by simp [hd]⟩

/-- A 200 with a body and a dialog is acknowledged in the dialog exactly when the client waits,
    the answer can be read and has a codec list, and the stack takes the ACK. -/
theorem Responds.ack_iff {ev : ResponseEvent} {d : Dialog} (hs : ev.response.status = 200)
    (hb : ev.response.rawContent ≠ none) (hd : ev.getDialog = some d)
    (ho : ∀ n, Output.ack d n ∉ w.out) (hr : Responds env w ev w') :
    (∃ n, Output.ack d n ∈ w'.out) ↔
      Waiting w ∧ (∃ s, ev.response.session env.getByName = .ok s) ∧
        (∃ fs, ev.response.formats w.handler.localSipProfile = .ok fs) ∧
        env.fails .createAck = none ∧ env.fails .sendAck = none := by
  cases hr with
  | ok _ _ ha => exact ha.ack_iff hb hd ho
  | ringing _ he => simp [hs] at he
  | unauthorized _ he => simp [hs] at he
  | proxied _ he => simp [hs] at he
  | failure _ hf => simp [hs, failureState] at hf
  | other hn => simp [hs] at hn

end JaySip
