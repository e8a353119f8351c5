/-
  The held request and the session: when the call that the user answers is the one that
  the session describes.
-/
import JaySip.Proof.Answers
import JaySip.Proof.Negotiation

namespace JaySip

open Java

variable {env : Env} {w w' : World} {i : Input} {r : Request}

/-! ## The local user -/

/-- The local user and the addresses are the same, up to the last challenge. -/
structure SameLocal (h h' : SipMessageHandler) : Prop where
  profile : ∃ nonce realm,
    h'.localSipProfile = { h.localSipProfile with nonce := nonce, realm := realm }
  address : h'.localIPAddress = h.localIPAddress
  port : h'.localSipPort = h.localSipPort

namespace SameLocal

theorem refl (h : SipMessageHandler) : SameLocal h h := ⟨⟨_, _, rfl⟩, rfl, rfl⟩

theorem trans {h₁ h₂ h₃ : SipMessageHandler} (h : SameLocal h₁ h₂) (h' : SameLocal h₂ h₃) :
    SameLocal h₁ h₃ := by
  obtain ⟨n, r, hp⟩ := h.profile
  obtain ⟨n', r', hp'⟩ := h'.profile
  refine ⟨⟨n', r', ?_⟩, h'.address.trans h.address, h'.port.trans h.port⟩
  rw [hp', hp]

theorem of_eq {h h' : SipMessageHandler} (hp : h'.localSipProfile = h.localSipProfile)
    (ha : h'.localIPAddress = h.localIPAddress) (hs : h'.localSipPort = h.localSipPort) :
    SameLocal h h' := ⟨⟨h.localSipProfile.nonce, h.localSipProfile.realm, hp⟩, ha, hs⟩

/-- The answer to an offer does not depend on the challenge. -/
theorem answer {h h' : SipMessageHandler} (hl : SameLocal h h') (r : Request) :
    h'.answer r = h.answer r := by
  obtain ⟨nonce, realm, hp⟩ := hl.profile
  have hd : ∀ a b n cs ls, describe h' a b n cs ls = describe h a b n cs ls := by
    intro a b n cs ls
    rw [describe, describe, hp, hl.address]
    rfl
  have hn : ∀ sdp, negotiate h'.localSipProfile sdp = negotiate h.localSipProfile sdp := by
    intro sdp
    rw [hp]
    rfl
  simp only [SipMessageHandler.answer, SipMessageHandler.answerWith, hd, hn]

theorem invited (hi : Invited env w r w') : SameLocal w.handler w'.handler := by
  cases hi with
  | busyFailed _ _ _ hw => rcases hw with rfl | rfl <;> exact of_eq (by simp) (by simp) (by simp)
  | declineFailed _ _ _ _ _ hw =>
    rcases hw with rfl | ⟨_, _, rfl⟩ <;> exact of_eq (by simp) (by simp) (by simp)
  | notFoundFailed _ _ _ _ _ _ _ _ _ hw =>
    rcases hw with rfl | rfl <;> exact of_eq (by simp) (by simp) (by simp)
  | ringFailed _ _ _ _ _ _ _ hw =>
    rcases hw with rfl | rfl <;> exact of_eq (by simp) (by simp) (by simp)
  | _ => exact of_eq (by simp) (by simp) (by simp)

theorem received {ev : RequestEvent} (hr : Receives env w ev w') :
    SameLocal w.handler w'.handler := by
  cases hr with
  | invite _ _ hi => exact invited (w := w.tick) hi
  | cancel => exact of_eq rfl rfl rfl
  | ack _ _ ha => cases ha <;> exact of_eq rfl rfl rfl
  | bye w₁ _ hb =>
    have hu : SameLocal w₁.handler w₁.hungUp.handler := of_eq rfl rfl rfl
    have ht : (w.byeTransaction ev).2.handler = w.handler := by
      unfold World.byeTransaction
      split_ifs <;> rfl
    rw [← ht]
    refine trans ?_ hu
    generalize (w.byeTransaction ev).2 = w₂, (w.byeTransaction ev).1 = transaction at hb
    cases hb with
    | confirmed => exact of_eq rfl rfl rfl
    | answered => exact of_eq (by simp) (by simp) (by simp)
    | failed _ _ _ hw => rcases hw with rfl | rfl <;> exact of_eq (by simp) (by simp) (by simp)
  | other => exact of_eq rfl rfl rfl

theorem responds {ev : ResponseEvent} (hr : Responds env w ev w') :
    SameLocal w.handler w'.handler := by
  cases hr with
  | ringing _ _ ha =>
    rw [← rung_handler]
    cases ha <;> exact of_eq rfl rfl rfl
  | ok _ _ ha => cases ha <;> exact of_eq rfl rfl rfl
  | unauthorized _ _ hu => cases hu <;> exact ⟨⟨_, _, rfl⟩, rfl, rfl⟩
  | proxied _ _ hp => cases hp <;> exact ⟨⟨_, _, rfl⟩, rfl, rfl⟩
  | failure => exact of_eq rfl rfl rfl
  | other => exact of_eq rfl rfl rfl

theorem step (w : World) (i : Input) : SameLocal w.handler (JaySip.step w i).handler := by
  have hst := stepped w i
  generalize JaySip.step w i = w' at hst
  cases hst with
  | register _ _ hr => cases hr <;> exact of_eq rfl rfl rfl
  | unregister _ _ hr => cases hr <;> exact of_eq rfl rfl rfl
  | sendInvite _ _ contact hi => cases hi <;> exact of_eq (by simp) (by simp) (by simp)
  | acceptCall _ _ ha => cases ha <;> exact of_eq (by simp) (by simp) (by simp)
  | declineCall _ _ hd => cases hd <;> exact of_eq (by simp) (by simp) (by simp)
  | endCall _ _ he => cases he <;> exact of_eq rfl rfl rfl
  | reset => exact of_eq rfl rfl rfl
  | request _ _ _ hr => exact received (w := w.quiet) hr
  | response _ _ _ hr => exact responds (w := w.quiet) hr

end SameLocal

/-! ## The held request -/

/-- The session is the incoming one that was created from the request. -/
def Describes (r : Request) (s : SipSession) : Prop :=
  s.incoming = true ∧ ∃ getByName s₀, r.session getByName = .ok s₀ ∧
    s = { s₀ with incoming := true, audioFormats := s.audioFormats }

/-- A request that the user can answer is the one of the session; the 200 lists the formats
    of the session. -/
structure Coherent (w : World) : Prop where
  session : ∀ r, w.service.currentRequest = some r → r.method = .invite →
    ∃ s, w.service.currentSession = some s ∧ Describes r s
  accepts : ∀ r, w.service.currentRequest = some r → r.method = .invite → ∀ env t rep,
    Output.response t rep ∈ (step w ⟨env, .acceptCall⟩).out → rep.request = r ∧ ∃ s d fs,
      w.service.currentSession = some s ∧ rep.content = some d ∧ d.Lists fs ∧
        s.audioFormats = fs.map some
  declines : ∀ r, w.service.currentRequest = some r → r.method = .invite → ∀ env t rep,
    Output.response t rep ∈ (step w ⟨env, .declineCall⟩).out → rep.request = r

/-- The held request is an INVITE, and its session has the formats of the answer to it. -/
structure Seating (w : World) (r : Request) : Prop where
  invite : r.method = .invite
  session : ∃ getByName s₀ fs sdp, r.session getByName = .ok s₀ ∧
    w.handler.answer r = .ok (some (fs, sdp)) ∧
    w.service.currentSession = some { s₀ with incoming := true, audioFormats := fs.map some }

/-- The held request has its session, and a client that waits for an answer holds none. -/
structure Holding (w : World) : Prop where
  seating : ∀ r, w.service.currentRequest = some r → Seating w r
  waiting : Waiting w → w.service.currentRequest = none

namespace Holding

/-- Worlds without a request. -/
theorem of_none (h : w.service.currentRequest = none) : Holding w :=
  ⟨fun r hr => (by rw [h] at hr; cases hr), fun _ => h⟩

/-- Worlds with the same request and session, that wait no more than before. -/
theorem keep (h : Holding w) (hl : SameLocal w.handler w'.handler)
    (hr : w'.service.currentRequest = w.service.currentRequest)
    (hs : w'.service.currentSession = w.service.currentSession) (hw : Waiting w' → Waiting w) :
    Holding w' := by
  refine ⟨fun r hr' => ?_, fun hw' => hr.trans (h.waiting (hw hw'))⟩
  have hd := h.seating r (hr ▸ hr')
  refine ⟨hd.invite, ?_⟩
  obtain ⟨getByName, s₀, fs, sdp, h₁, h₂, h₃⟩ := hd.session
  exact ⟨getByName, s₀, fs, sdp, h₁, (hl.answer r).trans h₂, hs.trans h₃⟩

/-- Without a session there is no request. -/
theorem free (h : Holding w) (hs : w.service.currentSession = none) :
    w.service.currentRequest = none := by
  by_contra hn
  obtain ⟨r, hr⟩ := Option.ne_none_iff_exists'.1 hn
  obtain ⟨_, _, _, _, -, -, hs'⟩ := (h.seating r hr).session
  rw [hs] at hs'
  cases hs'

theorem invited (h : Holding w) (hm : r.method = .invite) (hi : Invited env w r w') :
    Holding w' := by
  have hl := SameLocal.invited hi
  -- a ringing INVITE is held with the session that was made of it
  have rings : ∀ {fs sdp s}, Opens env w r fs sdp s → w'.service.currentRequest = some r →
      w'.service.currentSession = some { s with incoming := true, audioFormats := fs.map some } →
      ¬ Waiting w' → Holding w' := by
    intro fs sdp s ho hr hs hw
    refine ⟨fun r' hr' => ?_, fun hw' => absurd hw' hw⟩
    obtain rfl : r = r' := Option.some.inj (hr.symm.trans hr')
    exact ⟨hm, _, s, fs, sdp, ho.session, (hl.answer r).trans ho.answer, hs⟩
  cases hi with
  | busy => exact h.keep hl (by simp) (by simp) (by simp [Waiting])
  | busyFailed w₁ _ _ hw =>
    rcases hw with rfl | rfl <;> exact h.keep hl (by simp) (by simp) (by simp [Waiting])
  | unread _ hs => exact of_none (by simpa using h.free hs)
  | declined q hs => exact of_none (by simpa using h.free hs)
  | declineFailed w₁ hs _ _ _ hw =>
    rcases hw with rfl | ⟨q, _, rfl⟩ <;> exact of_none (by simpa using h.free hs)
  | noSession _ _ _ hs => exact of_none (by simpa using h.free hs)
  | noUser fs sdp s e ho => exact of_none (by simpa using h.free ho.free)
  | notFound fs sdp s user ho => exact of_none (by simpa using h.free ho.free)
  | notFoundFailed fs sdp s user w₁ ho _ _ _ hw =>
    rcases hw with rfl | rfl <;> exact of_none (by simpa using h.free ho.free)
  | rang fs sdp s number ho => exact rings ho (by simp) (by simp) (by simp [Waiting])
  | rangError fs sdp s e ho => exact rings ho (by simp) (by simp) (by simp [Waiting])
  | ringFailed fs sdp s w₁ ho _ _ hw =>
    rcases hw with rfl | rfl <;> exact rings ho (by simp) (by simp) (by simp [Waiting])

theorem received {ev : RequestEvent} (h : Holding w) (hr : Receives env w ev w') :
    Holding w' := by
  have hl := SameLocal.received hr
  cases hr with
  | invite _ hm hi =>
    have ht : Holding w.tick := h.keep (SameLocal.refl _) rfl rfl id
    exact ht.invited hm hi
  | cancel => exact of_none (by simp)
  | ack _ _ ha =>
    cases ha with
    | established => exact h.keep hl rfl rfl (by simp [Waiting])
    | unnumbered => exact h.keep hl rfl rfl id
    | ignored => exact h.keep hl rfl rfl id
  | bye => exact of_none (by simp)
  | other => exact h.keep hl rfl rfl id

/-- A response is taken as an answer only while no request is held. -/
theorem answered {ev : ResponseEvent} (h : Holding w) (ha : Answered env w ev w') :
    Holding w' := by
  have waited : Answering w ev → w.service.currentRequest = none := fun hw => h.waiting hw.1
  cases ha with
  | established _ _ _ hj => exact of_none (by simpa using waited hj.answering)
  | unacked _ _ _ hj => exact of_none (by simpa using waited hj.answering)
  | unmatched _ _ hw => exact of_none (by simpa using waited hw)
  | unread _ hw => exact of_none (by simpa using waited hw)
  | registered => exact h.keep (SameLocal.refl _) rfl rfl (by simp [Waiting])
  | unregistered => exact h.keep (SameLocal.refl _) rfl rfl (by simp [Waiting])
  | ignored => exact h

theorem responds {ev : ResponseEvent} (h : Holding w) (hr : Responds env w ev w') :
    Holding w' := by
  have hl := SameLocal.responds hr
  cases hr with
  | ringing _ _ ha =>
    refine answered (h.keep ?_ ?_ ?_ ?_) ha
    · rw [rung_handler]
      exact SameLocal.refl _
    · rw [rung_service]
    · rw [rung_service]
    · unfold World.rung
      split_ifs with hc
      · exact fun _ => Or.inr hc
      · exact id
  | ok _ _ ha => exact h.answered ha
  | unauthorized _ _ hu =>
    cases hu with
    | unchallenged => exact h.keep hl rfl rfl (by simp [Waiting])
    | noted => exact h.keep hl rfl rfl id
    | repeated => exact h.keep hl rfl rfl id
    | failed => exact h.keep hl rfl rfl (by simp [Waiting])
  | proxied _ _ hp =>
    cases hp with
    | ignored => exact h.keep hl rfl rfl id
    | unchallenged => exact h.keep hl rfl rfl (by simp [Waiting])
    | noted => exact h.keep hl rfl rfl id
    | repeated => exact h.keep hl rfl rfl id
    | failed => exact h.keep hl rfl rfl (by simp [Waiting])
  | failure st hst =>
    refine h.keep hl rfl rfl fun hw => ?_
    simp [Waiting, failureState_waiting hst] at hw
  | other => exact h

/-- A step keeps the request and its session together, unless a call is made over a request. -/
theorem step (h : Holding w)
    (hi : ∀ c, i.action = .sendInvite c → w.service.currentRequest = none) :
    Holding (JaySip.step w i) := by
  have hl := SameLocal.step w i
  have hq : Holding w.quiet := h.keep (SameLocal.refl _) rfl rfl id
  have hst := stepped w i
  generalize JaySip.step w i = w' at hst hl
  cases hst with
  | register _ _ hr =>
    exact h.keep hl (by rw [hr.service]; rfl) (by rw [hr.service]; rfl) (by simp [Waiting, hr.service])
  | unregister _ _ hr =>
    exact h.keep hl (by rw [hr.service]; rfl) (by rw [hr.service]; rfl) (by simp [Waiting, hr.service])
  | sendInvite _ _ contact hs => exact of_none (by simpa [hs.service] using hi contact rfl)
  | acceptCall _ _ ha =>
    exact h.keep hl (by rw [ha.service]; rfl) (by rw [ha.service]; rfl) (by simp [Waiting, ha.service])
  | declineCall _ _ hd =>
    exact h.keep hl (by rw [hd.service]; rfl) (by rw [hd.service]; rfl) (by simp [Waiting, hd.service])
  | endCall _ _ he =>
    exact h.keep hl (by rw [he.service]; rfl) (by rw [he.service]; rfl) (by simp [Waiting, he.service])
  | reset => exact of_none (by simp)
  | request _ _ _ hr => exact hq.received hr
  | response _ _ _ hr => exact hq.responds hr

theorem init (h : client.init w) : Holding w := by
  obtain ⟨profile, localIPAddress, localSipPort, rfl⟩ := h
  exact of_none rfl

/-- The 200 of `acceptCall` answers the held request, with the formats of the session. -/
theorem coherent (h : Holding w) : Coherent w := by
  refine ⟨fun r hr hm => ?_, fun r hr hm env t rep ho => ?_, fun r hr hm env t rep ho => ?_⟩
  · obtain ⟨getByName, s₀, fs, sdp, h₁, -, h₃⟩ := (h.seating r hr).session
    exact ⟨_, h₃, rfl, getByName, s₀, h₁, rfl⟩
  · obtain ⟨getByName, s₀, fs, sdp, -, h₂, h₃⟩ := (h.seating r hr).session
    have hst := stepped w ⟨env, .acceptCall⟩
    generalize JaySip.step w ⟨env, .acceptCall⟩ = w' at hst ho
    cases hst with
    | acceptCall _ _ ha =>
      cases ha with
      | accepted r' fs' sdp' hr' ha' =>
        obtain rfl : r' = r := Option.some.inj (hr'.symm.trans hr)
        obtain ⟨rfl, rfl⟩ : fs' = fs ∧ sdp' = sdp := by simpa using ha'.symm.trans h₂
        obtain ⟨-, rfl⟩ : t = _ ∧ rep = _ := by simpa using ho
        exact ⟨rfl, _, sdp', fs', h₃, rfl, answer_lists h₂, rfl⟩
      | failed => simp at ho
      | failedCached => simp at ho
      | idle => simp at ho
  · have hst := stepped w ⟨env, .declineCall⟩
    generalize JaySip.step w ⟨env, .declineCall⟩ = w' at hst ho
    cases hst with
    | declineCall _ _ hd =>
      cases hd with
      | declined r' hr' =>
        obtain rfl : r' = r := Option.some.inj (hr'.symm.trans hr)
        obtain ⟨-, rfl⟩ : t = _ ∧ rep = _ := by simpa using ho
        rfl
      | failed => simp at ho
      | idle => simp at ho

end Holding

/-- A call that is made over a held request leaves the request without its session. -/
theorem sendInvite_not_coherent {c : SipContact} (hm : r.method = .invite)
    (hr : w.service.currentRequest = some r) : ¬ Coherent (step w ⟨env, .sendInvite c⟩) := by
  intro h
  have hst := stepped w ⟨env, .sendInvite c⟩
  generalize step w ⟨env, .sendInvite c⟩ = w' at hst h
  cases hst with
  | sendInvite _ _ _ hi =>
    obtain ⟨s, hs, -⟩ := h.session r (by rw [hi.service]; exact hr) hm
    rw [hi.service] at hs
    cases hs

/-- **The call that the user answers is the one of the session, in exactly the runs in which no
    call is made while a request is held.** -/
theorem coherent_along_iff {s₀ : World} (h₀ : client.init s₀) (is : List Input) :
    client.Along s₀ is (fun _ st => Coherent st.post) ↔
      client.Along s₀ is fun _ st => ∀ c, st.input.action = .sendInvite c →
        st.pre.service.currentRequest = none := by
  refine client.along_iff (I := fun _ w => Holding w) (Holding.init h₀)
    (fun _ w i hw hc => hw.step hc) (fun _ w i hw => ⟨fun hp c hi => ?_, fun hc => ?_⟩) is
  · obtain ⟨env, action⟩ := i
    obtain rfl : action = .sendInvite c := hi
    by_contra hn
    obtain ⟨r, hr⟩ := Option.ne_none_iff_exists'.1 hn
    exact sendInvite_not_coherent (hw.seating r hr).invite hr hp
  · exact (hw.step hc).coherent

/-- Bob's call, which Alice accepts. -/
theorem coherent_along_accepted : client.Along Trace.idle
    [Trace.invite 7 "alice".toList "0".toList, Trace.act .acceptCall]
    fun _ st => Coherent st.post := by
  rw [coherent_along_iff Trace.idle_init, client.along_cons, client.along_cons]
  refine ⟨?_, ?_, client.along_nil _ _⟩
  · exact fun _ hc => nomatch hc
  · exact fun _ hc => nomatch hc

/-- Alice makes a call while Bob's rings. -/
theorem sendInvite_over_request : ¬ ∀ w, client.Reachable w → Coherent w := by
  intro h
  have hw := h (client.run Trace.idle
    [Trace.invite 7 "alice".toList "0".toList, Trace.act (.sendInvite Trace.bob)])
    ⟨_, _, Trace.idle_init, rfl⟩
  have hn : (client.run Trace.idle [Trace.invite 7 "alice".toList "0".toList,
      Trace.act (.sendInvite Trace.bob)]).service.currentSession = none := by
    decide
  obtain ⟨s, hs, -⟩ := hw.session _ rfl rfl
  exact absurd (hn.symm.trans hs) (by simp)

end JaySip
