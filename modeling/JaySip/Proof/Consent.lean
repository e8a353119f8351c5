/-
  Where sessions, requests and responses come from, and consent: an incoming call is
  established after the local user accepted it.
-/
import JaySip.Proof.Invariants

namespace JaySip

open Java

variable {env : Env} {w w' : World} {i : Input}

/-- A step of the client. -/
abbrev ClientStep := Machine.Step World Input

/-- The step hands the INVITE `r` to the listener. -/
def Delivers (st : ClientStep) (r : Request) : Prop :=
  ∃ ev, st.input.action = .request ev ∧ ev.message.method = .invite ∧ r = st.pre.received ev

/-! ## Provenance -/

theorem Request.session_fields {r : Request} {getByName : Str → Option Str} {s : SipSession}
    (h : r.session getByName = .ok s) : s.source = .request r.id ∧ s.incoming = false ∧
      s.fromSipURI = r.fromURI ∧ s.toSipURI = r.toURI := by
  rw [Request.session] at h
  cases hd : descriptionOf r.rawContent with
  | error e => rw [hd] at h; cases h
  | ok sdp => exact createSipSession_fields (by rwa [hd, ok_bind] at h)

theorem Response.session_fields {r : Response} {getByName : Str → Option Str} {s : SipSession}
    (h : r.session getByName = .ok s) : s.source = .response r.callId ∧ s.incoming = false ∧
      s.fromSipURI = r.fromURI ∧ s.toSipURI = r.toURI := by
  rw [Response.session] at h
  cases hd : descriptionOf r.rawContent with
  | error e => rw [hd] at h; cases h
  | ok sdp => exact createSipSession_fields (by rwa [hd, ok_bind] at h)

/-- The session an INVITE is answered with was there, or is made of this INVITE. -/
theorem Invited.session_source {r : Request} {s : SipSession} (h : Invited env w r w')
    (hs : w'.service.currentSession = some s) :
    w.service.currentSession = some s ∨ s.source = .request r.id := by
  have made : ∀ {fs sdp s₀ s'}, Opens env w r fs sdp s₀ →
      some ({ s₀ with incoming := true, audioFormats := fs.map some } : SipSession) = some s' →
      s'.source = .request r.id := by
    rintro fs sdp s₀ s' ho ⟨⟩
    exact (Request.session_fields ho.session).1
  cases h with
  | busy => exact Or.inl (by simpa using hs)
  | busyFailed _ _ _ hw => rcases hw with rfl | rfl <;> exact Or.inl (by simpa using hs)
  | unread => exact Or.inl (by simpa using hs)
  | declined => exact Or.inl (by simpa using hs)
  | declineFailed _ _ _ _ _ hw => rcases hw with rfl | ⟨_, _, rfl⟩ <;> exact Or.inl (by simpa using hs)
  | noSession => exact Or.inl (by simpa using hs)
  | noUser _ _ _ _ ho => exact Or.inr (made ho (by simpa using hs))
  | notFound _ _ _ _ ho => exact Or.inr (made ho (by simpa using hs))
  | notFoundFailed _ _ _ _ _ ho _ _ _ hw =>
    rcases hw with rfl | rfl <;> exact Or.inr (made ho (by simpa using hs))
  | rang _ _ _ _ ho => exact Or.inr (made ho (by simpa using hs))
  | rangError _ _ _ _ ho => exact Or.inr (made ho (by simpa using hs))
  | ringFailed _ _ _ _ ho _ _ hw =>
    rcases hw with rfl | rfl <;> exact Or.inr (made ho (by simpa using hs))

/-- A session that a response sets is made of the response. -/
theorem Answered.session_source {ev : ResponseEvent} {s : SipSession}
    (h : Answered env w ev w') (hs : w'.service.currentSession = some s) :
    w.service.currentSession = some s ∨ s.source = .response ev.response.callId := by
  cases h with
  | established _ _ _ hj =>
    have hs' := Option.some.inj hs
    exact Or.inr (hs' ▸ (Response.session_fields hj.session).1)
  | unacked _ _ _ hj =>
    have hs' := Option.some.inj hs
    exact Or.inr (hs' ▸ (Response.session_fields hj.session).1)
  | unmatched _ _ _ hses =>
    have hs' := Option.some.inj hs
    exact Or.inr (hs' ▸ (Response.session_fields hses).1)
  | _ => exact Or.inl hs

theorem Responds.session_source {ev : ResponseEvent} {s : SipSession}
    (h : Responds env w ev w') (hs : w'.service.currentSession = some s) :
    w.service.currentSession = some s ∨ s.source = .response ev.response.callId := by
  cases h with
  | ringing _ _ ha =>
    have hr : w.rung.service.currentSession = w.service.currentSession := by rw [rung_service]
    rw [← hr]
    exact ha.session_source hs
  | ok _ _ ha => exact ha.session_source hs
  | unauthorized _ _ hu => cases hu <;> exact Or.inl (by simpa using hs)
  | proxied _ _ hp => cases hp <;> exact Or.inl (by simpa using hs)
  | failure => exact Or.inl hs
  | other => exact Or.inl hs

/-- A session made of a request was there before the step, or the step delivers its INVITE. -/
theorem step_session {s : SipSession} {id : ℕ}
    (hs : (step w i).service.currentSession = some s) (hid : s.source = .request id) :
    w.service.currentSession = some s ∨ ∃ r, Delivers (client.stepOf w i) r ∧ r.id = id := by
  have hst := stepped w i
  generalize step w i = w' at hst hs
  cases hst with
  | register _ _ hr => exact Or.inl (by simpa [hr.service] using hs)
  | unregister _ _ hr => exact Or.inl (by simpa [hr.service] using hs)
  | sendInvite _ _ contact hi => simp [hi.service] at hs
  | acceptCall _ _ ha => exact Or.inl (by simpa [ha.service] using hs)
  | declineCall _ _ hd => exact Or.inl (by simpa [hd.service] using hs)
  | endCall _ _ he => exact Or.inl (by simpa [he.service] using hs)
  | reset => simp at hs
  | request env _ ev hr =>
    cases hr with
    | invite _ hm hi =>
      rcases hi.session_source hs with hs | hs
      · exact Or.inl hs
      · exact Or.inr ⟨_, ⟨ev, rfl, hm, rfl⟩, Source.request.inj (hs.symm.trans hid)⟩
    | cancel => simp at hs
    | ack _ _ ha => cases ha <;> exact Or.inl (by simpa using hs)
    | bye => simp at hs
    | other => exact Or.inl hs
  | response _ _ ev hr =>
    rcases hr.session_source hs with hs | hs
    · exact Or.inl hs
    · exact nomatch hs.symm.trans hid

/-- The request that the user can answer was there before the step, or the step delivers it. -/
theorem step_request {q : Request} (hq : (step w i).service.currentRequest = some q) :
    w.service.currentRequest = some q ∨ Delivers (client.stepOf w i) q := by
  have hst := stepped w i
  generalize step w i = w' at hst hq
  cases hst with
  | register _ _ hr => exact Or.inl (by simpa [hr.service] using hq)
  | unregister _ _ hr => exact Or.inl (by simpa [hr.service] using hq)
  | sendInvite _ _ contact hi => exact Or.inl (by simpa [hi.service] using hq)
  | acceptCall _ _ ha => exact Or.inl (by simpa [ha.service] using hq)
  | declineCall _ _ hd => exact Or.inl (by simpa [hd.service] using hq)
  | endCall _ _ he => exact Or.inl (by simpa [he.service] using hq)
  | reset => simp at hq
  | request env _ ev hr =>
    cases hr with
    | invite _ hm hi =>
      have delivers : w.received ev = q → Delivers (client.stepOf w ⟨env, .request ev⟩) q :=
        fun h => ⟨ev, rfl, hm, h.symm⟩
      cases hi with
      | busy => exact Or.inl (by simpa using hq)
      | busyFailed _ _ _ hw => rcases hw with rfl | rfl <;> exact Or.inl (by simpa using hq)
      | declineFailed _ _ _ _ _ hw =>
        rcases hw with rfl | ⟨_, _, rfl⟩ <;> exact Or.inl (by simpa using hq)
      | notFoundFailed _ _ _ _ _ _ _ _ _ hw =>
        rcases hw with rfl | rfl <;> exact Or.inl (by simpa using hq)
      | rang => exact Or.inr (delivers (by simpa using hq))
      | rangError => exact Or.inr (delivers (by simpa using hq))
      | ringFailed _ _ _ _ _ _ _ hw =>
        rcases hw with rfl | rfl <;> exact Or.inr (delivers (by simpa using hq))
      | _ => exact Or.inl (by simpa using hq)
    | cancel => simp at hq
    | ack _ _ ha => cases ha <;> exact Or.inl (by simpa using hq)
    | bye => simp at hq
    | other => exact Or.inl hq
  | response _ _ ev hr => exact Or.inl (by simpa [hr.aside.request] using hq)

/-- What the INVITE branch replies: to this INVITE, or a decline to the request held. -/
theorem Invited.reply {r : Request} {t : ServerTransaction} {rep : Reply}
    (h : Invited env w r w') (ho : Output.response t rep ∈ w'.out) :
    Output.response t rep ∈ w.out ∨ (rep.request = r ∧ rep.status ∈ [486, 404, 180]) ∨
      (rep.status = 603 ∧ w.service.currentRequest = some rep.request) := by
  cases h with
  | busy =>
    rcases mem_replied.1 ho with ho | ⟨-, rfl⟩
    · exact Or.inl ho
    · exact Or.inr (Or.inl ⟨rfl, by simp⟩)
  | declined q _ _ _ hq =>
    rcases mem_replied.1 ho with ho | ⟨-, rfl⟩
    · exact Or.inl ho
    · exact Or.inr (Or.inr ⟨rfl, hq⟩)
  | notFound =>
    rcases mem_replied.1 ho with ho | ⟨-, rfl⟩
    · exact Or.inl (by simpa using ho)
    · exact Or.inr (Or.inl ⟨rfl, by simp⟩)
  | rang fs sdp s =>
    have ho' : Output.response t rep ∈ (((w.opened fs sdp s).setRequest (some r)).replied
        { status := 180, request := r }).out := by
      simpa using ho
    rcases mem_replied.1 ho' with ho | ⟨-, rfl⟩
    · exact Or.inl (by simpa using ho)
    · exact Or.inr (Or.inl ⟨rfl, by simp⟩)
  | rangError fs sdp s =>
    have ho' : Output.response t rep ∈ (((w.opened fs sdp s).setRequest (some r)).replied
        { status := 180, request := r }).out := by
      simpa using ho
    rcases mem_replied.1 ho' with ho | ⟨-, rfl⟩
    · exact Or.inl (by simpa using ho)
    · exact Or.inr (Or.inl ⟨rfl, by simp⟩)
  | busyFailed _ _ _ hw => rcases hw with rfl | rfl <;> exact Or.inl (by simpa using ho)
  | declineFailed _ _ _ _ _ hw =>
    rcases hw with rfl | ⟨_, _, rfl⟩ <;> exact Or.inl (by simpa using ho)
  | notFoundFailed _ _ _ _ _ _ _ _ _ hw =>
    rcases hw with rfl | rfl <;> exact Or.inl (by simpa using ho)
  | ringFailed _ _ _ _ _ _ _ hw => rcases hw with rfl | rfl <;> exact Or.inl (by simpa using ho)
  | _ => exact Or.inl (by simpa using ho)

/-- What the BYE branch replies: to this BYE. -/
theorem Byed.reply {r : Request} {transaction : Option ServerTransaction} {t : ServerTransaction}
    {rep : Reply} (h : Byed w r transaction w') (ho : Output.response t rep ∈ w'.out) :
    Output.response t rep ∈ w.out ∨ rep.request = r := by
  cases h with
  | confirmed =>
    rw [World.emit_out, List.mem_append, List.mem_singleton] at ho
    rcases ho with ho | ho
    · exact Or.inl ho
    · exact Or.inr (by rw [(Output.response.inj ho).2])
  | answered =>
    rcases mem_replied.1 ho with ho | ⟨-, rfl⟩
    · exact Or.inl ho
    · exact Or.inr rfl
  | failed _ _ _ hw => rcases hw with rfl | rfl <;> exact Or.inl (by simpa using ho)

/-- A 200 answers the request that the user accepts, or a BYE. -/
theorem step_ok {t : ServerTransaction} {rep : Reply}
    (ho : Output.response t rep ∈ (step w i).out) (hst : rep.status = 200) :
    (i.action = .acceptCall ∧ w.service.currentRequest = some rep.request) ∨
      rep.request.method = .bye := by
  have hs := stepped w i
  generalize step w i = w' at hs ho
  cases hs with
  | register _ _ hr => exact absurd (hr.aside.responses t rep ho) (by simp)
  | unregister _ _ hr => exact absurd (hr.aside.responses t rep ho) (by simp)
  | sendInvite _ _ contact hi => exact absurd (hi.aside.responses t rep ho) (by simp)
  | acceptCall _ _ ha =>
    cases ha with
    | accepted r fs sdp hr _ =>
      rcases mem_replied.1 ho with ho | ⟨-, rfl⟩
      · simp at ho
      · exact Or.inl ⟨rfl, hr⟩
    | _ => simp at ho
  | declineCall _ _ hd =>
    cases hd with
    | declined r hr _ =>
      rcases mem_replied.1 ho with ho | ⟨-, rfl⟩
      · simp at ho
      · simp at hst
    | _ => simp at ho
  | endCall _ _ he => exact absurd (he.aside.responses t rep ho) (by simp)
  | reset => simp at ho
  | request env _ ev hr =>
    cases hr with
    | invite _ _ hi =>
      rcases hi.reply ho with ho | ⟨-, hs⟩ | ⟨hs, -⟩
      · simp at ho
      · simp [hst] at hs
      · simp [hst] at hs
    | cancel => simp at ho
    | ack _ _ ha => cases ha <;> simp at ho
    | bye _ hm hb =>
      refine Or.inr ?_
      rcases hb.reply (by simpa using ho) with ho | hr
      · unfold World.byeTransaction at ho
        split_ifs at ho <;> simp at ho
      · rw [hr]
        exact hm
    | other => simp at ho
  | response _ _ ev hr => exact absurd (hr.aside.responses t rep ho) (by simp)

/-! ## Consent -/

/-- A request makes the call of the INVITE with identity `id` established. -/
def Establishes (st : ClientStep) (id : ℕ) : Prop :=
  ∃ ev s, st.input.action = .request ev ∧
    (st.pre.service.currentState ≠ .established ∨ ev.message.method = .ack) ∧
    st.post.service.currentState = .established ∧ st.post.service.currentSession = some s ∧
    s.incoming = true ∧ s.source = .request id

/-- The step sends a 200 that answers `r`. -/
def SendsOK (st : ClientStep) (r : Request) : Prop :=
  ∃ t rep, Output.response t rep ∈ st.post.out ∧ rep.status = 200 ∧ rep.request = r

/-- The INVITE with identity `id` was delivered, and later accepted with a 200. -/
def Consented (h : List ClientStep) (id : ℕ) : Prop :=
  ∃ r h₁ d h₂ a h₃, h = h₁ ++ d :: (h₂ ++ a :: h₃) ∧ Delivers d r ∧ r.id = id ∧
    a.input.action = .acceptCall ∧ SendsOK a r

/-- Two messages have the same Call-ID and CSeq number. -/
def SameCall (m m' : Message) : Prop := m.callId = m'.callId ∧ m.cSeq = m'.cSeq

/-- An ACK that finds an incoming session is for its INVITE and for a 200 sent to an INVITE, and
    only one INVITE had its Call-ID and CSeq number. -/
structure Acknowledges (h : List ClientStep) (ev : RequestEvent) (id : ℕ) : Prop where
  session : ∀ d ∈ h, ∀ r, Delivers d r → r.id = id → SameCall ev.message r.toMessage
  ok : ∃ a ∈ h, ∃ r, SendsOK a r ∧ r.method = .invite ∧ SameCall ev.message r.toMessage
  distinct : ∀ d ∈ h, ∀ d' ∈ h, ∀ r r', Delivers d r → Delivers d' r' →
    SameCall ev.message r.toMessage → SameCall ev.message r'.toMessage → r = r'

/-- The step is no ACK that finds an incoming session but is not for it. -/
def AcksOwn (h : List ClientStep) (st : ClientStep) : Prop :=
  ∀ ev s id, st.input.action = .request ev → ev.message.method = .ack →
    st.pre.service.currentSession = some s → s.incoming = true → s.source = .request id →
    Acknowledges h ev id

/-- What the history says about the client's session, request and 200s. -/
structure Provenance (h : List ClientStep) (w : World) : Prop where
  session : ∀ s id, w.service.currentSession = some s → s.source = .request id →
    ∃ d ∈ h, ∃ r, Delivers d r ∧ r.id = id
  request : ∀ q, w.service.currentRequest = some q → ∃ d ∈ h, Delivers d q
  ok : ∀ a ∈ h, ∀ r, SendsOK a r → r.method = .invite →
    ∃ h₁ h₂, h = h₁ ++ a :: h₂ ∧ a.input.action = .acceptCall ∧ ∃ d ∈ h₁, Delivers d r

theorem Provenance.init {s₀ : World} (h₀ : client.init s₀) : Provenance [] s₀ := by
  obtain ⟨profile, localIPAddress, localSipPort, rfl⟩ := h₀
  refine ⟨fun s id hs _ => ?_, fun q hq => ?_, by simp⟩
  · simp [World.start] at hs
  · simp [World.start] at hq

theorem Provenance.step {h : List ClientStep} (hp : Provenance h w) (i : Input) :
    Provenance (h ++ [client.stepOf w i]) (client.step w i) := by
  have old : ∀ {p : ClientStep → Prop}, (∃ d ∈ h, p d) → ∃ d ∈ h ++ [client.stepOf w i], p d :=
    fun ⟨d, hd, hpd⟩ => ⟨d, List.mem_append_left _ hd, hpd⟩
  have new : ∀ {p : ClientStep → Prop}, p (client.stepOf w i) →
      ∃ d ∈ h ++ [client.stepOf w i], p d :=
    fun hpd => ⟨_, by simp, hpd⟩
  refine ⟨fun s id hs hid => ?_, fun q hq => ?_, fun a ha r hr hm => ?_⟩
  · rcases step_session hs hid with hs | hd
    · exact old (hp.session s id hs hid)
    · exact new hd
  · rcases step_request hq with hq | hd
    · exact old (hp.request q hq)
    · exact new hd
  · rcases List.mem_append.1 ha with ha | ha
    · obtain ⟨h₁, h₂, rfl, hacc, hd⟩ := hp.ok a ha r hr hm
      exact ⟨h₁, h₂ ++ [client.stepOf w i], by simp, hacc, hd⟩
    · obtain rfl := List.mem_singleton.1 ha
      obtain ⟨t, rep, ho, hst, rfl⟩ := hr
      rcases step_ok ho hst with ⟨hacc, hq⟩ | hb
      · exact ⟨h, [], rfl, hacc, hp.request _ hq⟩
      · simp [hb] at hm

/-- The INVITE branch does not establish a call. -/
theorem Invited.established {r : Request} (h : Invited env w r w')
    (he : w'.service.currentState = .established) : w.service.currentState = .established := by
  cases h with
  | busy => simpa using he
  | declined => simpa using he
  | notFound => simpa using he
  | _ => simp at he

/-- Only an ACK makes a call established. -/
theorem Receives.established {ev : RequestEvent} (h : Receives env w ev w')
    (he : w'.service.currentState = .established) :
    w.service.currentState = .established ∨ ev.message.method = .ack := by
  cases h with
  | invite _ _ hi => exact Or.inl (hi.established he)
  | cancel => simp at he
  | ack _ hm => exact Or.inr hm
  | bye => simp at he
  | other => exact Or.inl he

theorem Receives.ack_session {ev : RequestEvent} (h : Receives env w ev w')
    (hm : ev.message.method = .ack) : w'.service.currentSession = w.service.currentSession := by
  cases h with
  | ack _ _ ha => cases ha <;> simp
  | invite _ hn => simp [hm] at hn
  | cancel hn => simp [hm] at hn
  | bye _ hn => simp [hm] at hn
  | other _ _ ha => exact absurd hm ha

/-- **An incoming call is established only after the local user accepted it, as long as every
    ACK is for a 200 of the session's own INVITE.** -/
theorem consented_along {s₀ : World} (h₀ : client.init s₀) (is : List Input)
    (hC : client.Along s₀ is AcksOwn) :
    client.Along s₀ is fun h st => ∀ id, Establishes st id → Consented h id := by
  refine (client.along_inv (I := Provenance) (Provenance.init h₀) ?_ is hC).2
  rintro h w i hp hk
  refine ⟨hp.step i, ?_⟩
  rintro id ⟨ev, s, ha, hack, he, hs, hin, hid⟩
  obtain ⟨env, action⟩ := i
  obtain rfl : action = .request ev := ha
  -- the step is an ACK, and leaves the session as it was
  have hr : Receives env w.quiet ev (step w ⟨env, .request ev⟩) := step_received
  have hm : ev.message.method = .ack :=
    hack.elim (fun hn => (hr.established he).resolve_left hn) fun hm => hm
  have hses : w.service.currentSession = some s := (hr.ack_session hm).symm.trans hs
  have hk : Acknowledges h ev id := hk ev s id rfl hm hses hin hid
  obtain ⟨a, hmem, r, hok, hinv, hcall⟩ := hk.ok
  obtain ⟨h₁, h₂, rfl, hacc, d, hdm, hdr⟩ := hp.ok a hmem r hok hinv
  obtain ⟨d', hdm', r', hdr', hrid⟩ := hp.session s id hses hid
  have hrr : r' = r := hk.distinct d' hdm' d (List.mem_append_left _ hdm) r' r hdr' hdr
    (hk.session d' hdm' r' hdr' hrid) hcall
  obtain ⟨l, m, rfl⟩ := List.append_of_mem hdm
  exact ⟨r, l, d, m, a, h₂, by simp, hdr, hrr ▸ hrid, hacc, hok⟩

/-- A call from Bob that Alice accepts before his ACK arrives. -/
theorem consented_along_accepted : Consented (client.history Trace.idle
    [Trace.invite 7 "alice".toList "0".toList, Trace.act .acceptCall]) 0 := by
  have h := consented_along Trace.idle_init ([Trace.invite 7 "alice".toList "0".toList,
    Trace.act .acceptCall] ++ [Trace.request .ack 7 (some 0)]) ?_
  · exact (client.along_snoc.1 h).2 0 ⟨_, _, rfl, Or.inr rfl, by decide, rfl, rfl, rfl⟩
  · have hok : ∃ p ∈ (client.run Trace.idle [Trace.invite 7 "alice".toList "0".toList,
        Trace.act .acceptCall]).responses, p.2.status = 200 ∧
          p.2.request = ⟨Trace.message .invite 7 "alice".toList (some (Trace.audio "0".toList)), 0⟩ := by
      decide
    obtain ⟨⟨t, rep⟩, hp, hst, hr⟩ := hok
    refine client.along_cons.2 ⟨?_, client.along_cons.2 ⟨?_, client.along_cons.2 ⟨?_,
      client.along_nil _ _⟩⟩⟩
    · rintro _ _ _ ⟨⟩ ⟨⟩
    · rintro _ _ _ ⟨⟩
    · rintro ev _ _ ⟨⟩ - - - -
      have hinvite : ∀ d ∈ client.history Trace.idle [Trace.invite 7 "alice".toList "0".toList,
          Trace.act .acceptCall], ∀ r, Delivers d r →
          r = ⟨Trace.message .invite 7 "alice".toList (some (Trace.audio "0".toList)), 0⟩ := by
        rintro d hd r ⟨ev, ha, -, rfl⟩
        rcases List.mem_cons.1 hd with rfl | hd
        · cases ha
          rfl
        · obtain rfl := List.mem_singleton.1 hd
          cases ha
      refine ⟨?_, ⟨_, .tail _ (.head _), _, ⟨t, rep, mem_responses.1 hp, hst, hr⟩, rfl, rfl, rfl⟩,
        ?_⟩
      · rintro d hd r hdr -
        rw [hinvite d hd r hdr]
        exact ⟨rfl, rfl⟩
      · rintro d hd d' hd' r r' hdr hdr' - -
        rw [hinvite d hd r hdr, hinvite d' hd' r' hdr']

/-- An ACK establishes a call that is still ringing. -/
theorem ack_establishes_ringing : ¬ ∀ s₀, client.init s₀ → ∀ is : List Input,
    client.Along s₀ is fun h st => ∀ id, Establishes st id → Consented h id := by
  intro h
  have hrun := h _ Trace.idle_init
    ([Trace.invite 7 "alice".toList "0".toList] ++ [Trace.request .ack 7 none])
  obtain ⟨r, h₁, d, h₂, a, h₃, hl, -⟩ := (client.along_snoc.1 hrun).2 0
    ⟨_, _, rfl, Or.inr rfl, by decide, rfl, rfl, rfl⟩
  -- a single step is in the history
  have hlen := congrArg List.length hl
  simp [Machine.history] at hlen
  omega

end JaySip
