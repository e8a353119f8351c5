/-
  Established calls and their codecs.

  A call that is established has a session (`seated`); whether that has a codec depends on
  what is acknowledged.
-/
import JaySip.Proof.Sections

namespace JaySip

open Java

variable {env : Env} {w w' : World} {ev : ResponseEvent}

/-- An established call has a session with a codec. -/
def Coded (w : World) : Prop := w.service.currentState = .established →
  ∃ s, w.service.currentSession = some s ∧ s.audioFormats ≠ []

/-- The first section lists integers, none of which is a local codec. -/
def LocalSipProfile.Lacks (p : LocalSipProfile) (d : SessionDescription) : Prop :=
  ∃ m, d.mediaDescriptions.head? = some m ∧
    ∀ s ∈ m.formats, ∃ n, parseInt s = .ok n ∧ n ∉ p.codes

/-- An answer without a local codec is acknowledged. -/
def JoinsUncoded (env : Env) (w : World) (ev : ResponseEvent) : Prop :=
  Answering w ev ∧ (∃ s, ev.response.session env.getByName = .ok s) ∧
    env.fails .createAck = none ∧ env.fails .sendAck = none ∧
    ∃ d, descriptionOf ev.response.rawContent = .ok d ∧ w.handler.localSipProfile.Lacks d

/-- The step acknowledges an answer without a local codec, or gets the ACK for a session
    without formats. -/
def Uncodes (w : World) (i : Input) : Prop :=
  match i.action with
  | .request ev => ev.message.method = .ack ∧ ∃ s, w.service.currentSession = some s ∧
      s.audioFormats = [] ∧ ∃ number, s.getCallerNumber = .ok number
  | .response ev => (ev.response.status = 180 ∨ ev.response.status = 200) ∧
      JoinsUncoded i.env w ev
  | _ => False

/-! ## Negotiation -/

theorem negotiated_nil_iff {p : LocalSipProfile} {d : SessionDescription} :
    p.negotiated d = .ok [] ↔ p.Lacks d := by
  rw [negotiated_iff]
  constructor
  · rintro ⟨m, hm, hp, hlist⟩
    refine ⟨m, hm, fun s hs => ?_⟩
    obtain ⟨n, hn⟩ := hp s hs
    refine ⟨n, hn, fun hl => ?_⟩
    obtain ⟨f, hf⟩ := mapM_returns.1 ⟨[], hlist⟩ s ((mem_kept hn).2 ⟨hs, hl⟩)
    have hmem := (mem_mapM hlist).2 ⟨s, (mem_kept hn).2 ⟨hs, hl⟩, hf⟩
    cases hmem
  · rintro ⟨m, hm, h⟩
    refine ⟨m, hm, fun s hs => (h s hs).imp fun _ hn => hn.1, ?_⟩
    have hnil : m.formats.filter p.hasCodec = [] := by
      rw [List.filter_eq_nil_iff]
      intro s hs hc
      obtain ⟨n, hn, hl⟩ := h s hs
      exact hl ((hasCodec_iff hn).1 hc)
    rw [hnil]
    rfl

theorem formats_eq (r : Response) (p : LocalSipProfile) :
    r.formats p = descriptionOf r.rawContent >>= p.negotiated := rfl

/-- An answer that is acknowledged has no codec exactly when it lacks a local one. -/
theorem Joins.formats_nil_iff {d : Dialog} {fs : List SipAudioFormat} {s : SipSession}
    (hj : Joins env w ev d fs s) : fs = [] ↔
      ∃ d, descriptionOf ev.response.rawContent = .ok d ∧ w.handler.localSipProfile.Lacks d := by
  have hf := hj.formats
  rw [formats_eq] at hf
  obtain ⟨d, hd, hn⟩ := bind_eq_ok.1 hf
  constructor
  · rintro rfl
    exact ⟨d, hd, negotiated_nil_iff.1 hn⟩
  · rintro ⟨d', hd', hl⟩
    cases hd.symm.trans hd'
    exact Except.ok.inj (hn.symm.trans (negotiated_nil_iff.2 hl))

/-- An INVITE is only answered with a codec. -/
theorem answer_formats_ne_nil {h : SipMessageHandler} {r : Request} {fs : List SipAudioFormat}
    {sdp : SessionDescription} (ha : h.answer r = .ok (some (fs, sdp))) : fs ≠ [] := by
  obtain ⟨o, codes, -, -, hne, hl, -⟩ := answer_eq_some.1 ha
  rintro rfl
  obtain ⟨s, hs⟩ := List.exists_mem_of_ne_nil _ hne
  obtain ⟨f, hf⟩ := mapM_returns.1 ⟨[], hl⟩ s hs
  cases (mem_mapM hl).2 ⟨s, hs, hf⟩

/-! ## One step -/

namespace Coded

/-- Worlds that are not established. -/
theorem of_state (h : w'.service.currentState ≠ .established) : Coded w' :=
  fun he => absurd he h

theorem of_service (h : Coded w) (hs : w'.service = w.service) : Coded w' := by
  unfold Coded
  rw [hs]
  exact h

theorem rung (h : Coded w) : Coded w.rung := by
  unfold World.rung
  split_ifs
  · exact of_state (by simp)
  · exact h

theorem answered (h : Coded w) (ha : Answered env w ev w') :
    Coded w' ↔ ¬ JoinsUncoded env w ev := by
  cases ha with
  | established d fs s hj hc hk =>
    have hw : Coded (((w.joined d fs s).emit (.ack d w.handler.callSequence)).setStatusChanged
        .established none) ↔ fs ≠ [] := by
      simp [Coded]
    rw [hw, ne_eq, hj.formats_nil_iff]
    refine not_congr ⟨fun hl => ⟨hj.answering, ⟨s, hj.session⟩, hc, hk, hl⟩, ?_⟩
    exact fun hu => hu.2.2.2.2
  | unacked _ _ _ _ hk =>
    refine iff_of_true (of_state (by simp)) ?_
    rintro ⟨-, -, h₁, h₂, -⟩
    exact hk h₁ h₂
  | unmatched s e _ _ he =>
    refine iff_of_true (of_state (by simp)) ?_
    rintro ⟨-, -, -, -, d, hd, hl⟩
    rw [formats_eq, hd, ok_bind, negotiated_nil_iff.2 hl] at he
    cases he
  | unread e _ he =>
    refine iff_of_true (of_state (by simp)) ?_
    rintro ⟨-, ⟨s, hs⟩, -⟩
    exact absurd (he.symm.trans hs) (by simp)
  | registered hs =>
    refine iff_of_true (of_state (by simp)) ?_
    rintro ⟨⟨h' | h', -⟩, -⟩ <;> exact absurd (hs.symm.trans h') (by simp)
  | unregistered hs =>
    refine iff_of_true (of_state (by simp)) ?_
    rintro ⟨⟨h' | h', -⟩, -⟩ <;> exact absurd (hs.symm.trans h') (by simp)
  | ignored hn => exact iff_of_true h fun hu => hn hu.1

/-- A response is taken for an answer before and after the phone is known to ring. -/
theorem answering_rung : Answering w.rung ev ↔ Answering w ev := by
  unfold Answering
  rw [rung_service]
  refine and_congr_left fun _ => ?_
  by_cases hc : w.service.currentState = .calling
  · simp [hc]
  · simp [hc]

theorem joinsUncoded_rung : JoinsUncoded env w.rung ev ↔ JoinsUncoded env w ev := by
  unfold JoinsUncoded
  rw [answering_rung, rung_handler]

theorem responds (h : Coded w) (hr : Responds env w.quiet ev w') :
    Coded w' ↔ ¬ Uncodes w ⟨env, .response ev⟩ := by
  have hq : Coded w.quiet := h
  have other : ev.response.status ≠ 180 → ev.response.status ≠ 200 →
      ¬ Uncodes w ⟨env, .response ev⟩ := fun h₁ h₂ hu => hu.1.elim h₁ h₂
  cases hr with
  | ringing _ hs ha =>
    rw [hq.rung.answered ha, joinsUncoded_rung]
    exact not_congr ⟨fun hj => ⟨Or.inl hs, hj⟩, fun hu => hu.2⟩
  | ok _ hs ha =>
    rw [hq.answered ha]
    exact not_congr ⟨fun hj => ⟨Or.inr hs, hj⟩, fun hu => hu.2⟩
  | unauthorized _ hs hu =>
    refine iff_of_true ?_ (other (by simp [hs]) (by simp [hs]))
    cases hu with
    | noted => exact fun he => by simpa using h (by simpa using he)
    | repeated c state a _ hs =>
      refine of_state ?_
      rcases hs with ⟨hs, -⟩ | ⟨hs, -⟩ <;> simp at hs <;> simp [hs]
    | _ => exact of_state (by simp)
  | proxied _ hs hp =>
    refine iff_of_true ?_ (other (by simp [hs]) (by simp [hs]))
    cases hp with
    | ignored => exact fun he => by simpa using h (by simpa using he)
    | noted => exact fun he => by simpa using h (by simpa using he)
    | repeated c contact id a d _ _ hs =>
      refine of_state ?_
      simp at hs
      simp [hs]
    | _ => exact of_state (by simp)
  | failure st hst =>
    refine iff_of_true (of_state ?_) (other ?_ ?_)
    · rintro rfl
      exact failureState_ne_established hst
    · intro hs
      rw [hs] at hst
      cases hst
    · intro hs
      rw [hs] at hst
      cases hst
  | other hs =>
    refine iff_of_true hq (other ?_ ?_)
    · rintro h180
      simp [h180] at hs
    · rintro h200
      simp [h200] at hs

theorem invited {r : Request} (h : Coded w) (hi : Invited env w r w') : Coded w' := by
  cases hi with
  | busy => exact h.of_service (by simp)
  | declined => exact fun he => by simpa using h (by simpa using he)
  | notFound fs sdp s user ho =>
    exact fun _ => ⟨{ s with incoming := true, audioFormats := fs.map some }, by simp,
      by simpa using answer_formats_ne_nil ho.answer⟩
  | _ => exact of_state (by simp)

theorem acked {ev : RequestEvent} (h : Coded w) (hm : ev.message.method = .ack)
    (ha : Acked w.quiet.tick ev.getDialog w') : Coded w' ↔ ¬ Uncodes w ⟨env, .request ev⟩ := by
  have hu : Uncodes w ⟨env, .request ev⟩ ↔ ∃ s, w.service.currentSession = some s ∧
      s.audioFormats = [] ∧ ∃ number, s.getCallerNumber = .ok number := and_iff_right hm
  rw [hu]
  cases ha with
  | established s number hs hn =>
    have hs' : w.service.currentSession = some s := hs
    have hw : Coded ((w.quiet.tick.setDialog ev.getDialog).setStatusChanged .established
        (some number)) ↔ s.audioFormats ≠ [] := by
      simp [Coded, hs']
    rw [hw]
    refine not_congr ⟨fun hf => ⟨s, hs', hf, number, hn⟩, ?_⟩
    rintro ⟨s', h', hf, -⟩
    obtain rfl : s = s' := Option.some.inj (hs'.symm.trans h')
    exact hf
  | unnumbered s e hs hn =>
    refine iff_of_true (h.of_service rfl) ?_
    rintro ⟨s', h', -, number, hnumber⟩
    obtain rfl : s = s' := Option.some.inj (hs.symm.trans h')
    exact absurd (hn.symm.trans hnumber) (by simp)
  | ignored hs =>
    refine iff_of_true (h.of_service rfl) ?_
    rintro ⟨s', h', -⟩
    exact absurd (hs.symm.trans h') (by simp)

theorem received {ev : RequestEvent} (h : Coded w) (hr : Receives env w.quiet ev w') :
    Coded w' ↔ ¬ Uncodes w ⟨env, .request ev⟩ := by
  have hq : Coded w.quiet.tick := h
  have other : ev.message.method ≠ .ack → ¬ Uncodes w ⟨env, .request ev⟩ := fun hm hu => hm hu.1
  cases hr with
  | invite _ hm hi => exact iff_of_true (hq.invited hi) (other (by simp [hm]))
  | cancel hm => exact iff_of_true (of_state (by simp)) (other (by simp [hm]))
  | ack _ hm ha => exact h.acked hm ha
  | bye _ hm => exact iff_of_true (of_state (by simp)) (other (by simp [hm]))
  | other _ _ hm => exact iff_of_true (hq.of_service rfl) (other hm)

theorem step (h : Coded w) (i : Input) : Coded (JaySip.step w i) ↔ ¬ Uncodes w i := by
  have hq : Coded w.quiet := h
  have hs := stepped w i
  generalize JaySip.step w i = w' at hs
  cases hs with
  | register _ _ hr => exact iff_of_true (of_state (by simp [hr.service])) id
  | unregister _ _ hr => exact iff_of_true (of_state (by simp [hr.service])) id
  | sendInvite _ _ contact hi => exact iff_of_true (of_state (by simp [hi.service])) id
  | acceptCall _ _ ha => exact iff_of_true (hq.of_service ha.service) id
  | declineCall _ _ hd => exact iff_of_true (hq.of_service hd.service) id
  | endCall _ _ he => exact iff_of_true (hq.of_service he.service) id
  | reset => exact iff_of_true (of_state (by simp)) id
  | request _ _ ev hr => exact h.received hr
  | response _ _ ev hr => exact h.responds hr

end Coded

/-- **Codecs of established calls.**  A call is never established without a session that has a
    codec in exactly the runs in which no answer without a local codec is acknowledged, and
    no ACK comes for a session without formats. -/
theorem coded_along_iff {w₀ : World} (h₀ : client.init w₀) (is : List Input) :
    client.Along w₀ is (fun _ st => Coded st.post) ↔
      client.Along w₀ is (fun _ st => ¬ Uncodes st.pre st.input) := by
  refine client.along_iff (I := fun _ => Coded) ?_ ?_ ?_ is
  · obtain ⟨profile, localIPAddress, localSipPort, rfl⟩ := h₀
    exact Coded.of_state (by simp [World.start])
  · exact fun _ w i hw hc => (hw.step i).2 hc
  · exact fun _ w i hw => hw.step i

/-- Alice calls, and the answer has her codec. -/
theorem coded_along_call : client.Along Trace.idle
    [Trace.act (.sendInvite Trace.bob), Trace.response 200 .invite 0 (some (Trace.audio "0".toList))]
    (fun _ st => Coded st.post) := by
  rw [coded_along_iff Trace.idle_init, Machine.along_cons, Machine.along_cons]
  refine ⟨id, ?_, Machine.along_nil _ _ _⟩
  rintro ⟨-, -, -, -, -, d, hd, m, hm, hl⟩
  cases hd
  cases hm
  obtain ⟨n, hn, hnot⟩ := hl "0".toList List.mem_cons_self
  have h0 : parseInt "0".toList = .ok 0 := by decide
  cases h0.symm.trans hn
  exact hnot List.mem_cons_self

/-- Alice calls, and the answer has another codec: the call is established without one. -/
theorem established_uncoded : ¬ ∀ w₀, client.init w₀ → ∀ is,
    client.Along w₀ is fun _ st => Coded st.post := by
  intro h
  have hrun := h _ Trace.idle_init [Trace.act (.sendInvite Trace.bob),
    Trace.response 200 .invite 0 (some (Trace.audio "3".toList))]
  obtain ⟨s, hs, hne⟩ := (client.along_cons.1 (client.along_cons.1 hrun).2).1 rfl
  cases hs
  exact hne rfl

end JaySip
