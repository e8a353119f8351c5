/-
  The local SIP port: the one that the client is bound to, and the one that its messages name.
-/
import JaySip.Proof.Agreement

namespace JaySip

open Java

variable {env : Env} {w w' : World} {n : ℤ}

/-! ## Headers -/

/-- The Contact header names the port, if it names one. -/
def ContactHeader.HasPort (n : ℤ) : ContactHeader → Prop
  | .wildcard => True
  | .address _ _ port _ _ => port = n

/-- The headers that the client adds to a REGISTER, an INVITE or a response name the port. -/
def Output.HasPort (n : ℤ) : Output → Prop
  | .request t => t.request.via.port = n ∧ ∀ c ∈ t.request.contact, c.HasPort n
  | .response _ r => ∀ c ∈ r.contact, c.HasPort n
  | _ => True

/-- What is sent names the port, and so does the profile. -/
structure Names (n : ℤ) (w : World) : Prop where
  headers : ∀ o ∈ w.out, o.HasPort n
  profile : w.handler.localSipProfile.localSipPort = n

/-- The Contact of a REGISTER is `*`, or names the port of the handler. -/
theorem registerRequest_contact (h : SipMessageHandler) (callId : CallId) (state : SipRequestState)
    (a : Option Authorization) :
    ∀ c ∈ (registerRequest h callId state a).contact, c.HasPort h.localSipPort := by
  intro c hc
  unfold registerRequest at hc
  split_ifs at hc
  · cases hc
    trivial
  · cases hc
    rfl

/-- All that is sent names the port of the handler. -/
def Headed (w : World) : Prop := ∀ o ∈ w.out, o.HasPort w.handler.localSipPort

namespace Headed

theorem append {l : List Output} (h : Headed w) (ho : w'.out = w.out ++ l)
    (hp : w'.handler.localSipPort = w.handler.localSipPort)
    (hl : ∀ o ∈ l, o.HasPort w.handler.localSipPort) : Headed w' := by
  intro o hm
  rw [ho, List.mem_append] at hm
  rw [hp]
  exact hm.elim (h o) (hl o)

theorem keep {v : World} (h : Headed w) (ho : v.out = w.out)
    (hp : v.handler.localSipPort = w.handler.localSipPort) : Headed v := by
  intro o hm
  rw [ho] at hm
  rw [hp]
  exact h o hm

theorem setStatusChanged {st : SipManagerState} {info : Option Str} (h : Headed w) :
    Headed (w.setStatusChanged st info) := by
  refine h.append (l := [.status st info]) (by simp) rfl ?_
  intro o hm
  rw [List.mem_singleton.1 hm]
  trivial

theorem replied {reply : Reply} (h : Headed w)
    (hc : ∀ c ∈ reply.contact, c.HasPort w.handler.localSipPort) : Headed (w.replied reply) := by
  refine h.append World.replied_out (by simp) ?_
  intro o hm
  rw [List.mem_singleton.1 hm]
  exact hc

theorem requested {q : SipRequest} (h : Headed w) (hv : q.via.port = w.handler.localSipPort)
    (hc : ∀ c ∈ q.contact, c.HasPort w.handler.localSipPort) : Headed (w.requested env q) := by
  refine h.append requested_out rfl ?_
  intro o hm
  rw [List.mem_singleton.1 hm]
  exact ⟨hv, hc⟩

/-- Outputs without such headers. -/
theorem emit {o : Output} (h : Headed w) (ho : ∀ n, o.HasPort n) : Headed (w.emit o) := by
  refine h.append (l := [o]) rfl rfl ?_
  intro o' hm
  rw [List.mem_singleton.1 hm]
  exact ho _

theorem cached {r : Request} (h : Headed w) : Headed (w.cached r) := h.keep (by simp) (by simp)

/-- A reply that fails leaves the world, or the request in its transaction. -/
theorem of_cached {r : Request} (h : Headed w) (hw : w' = w ∨ w' = w.cached r) : Headed w' := by
  rcases hw with rfl | rfl
  · exact h
  · exact h.cached

theorem setSipAudioFormats {fs : List SipAudioFormat} (h : Headed w) :
    Headed (w.setSipAudioFormats fs) := h.keep rfl rfl

theorem cleared (h : Headed w) : Headed w.cleared :=
  setStatusChanged (h.keep (v := { w with handler := w.handler.reset }.setContact none
    |>.setRequest none |>.setSession none) rfl rfl)

theorem registers {state : SipRequestState} (h : Headed w) (hr : Registers env w state w') :
    Headed w' := by
  cases hr with
  | sent a =>
    exact (h.keep (v := w.tick) rfl rfl).requested rfl
      (registerRequest_contact w.handler w.fresh state a)
  | failed n t => exact h.keep rfl rfl

theorem invites {contact : SipContact} {state : SipRequestState} (h : Headed w)
    (hi : Invites env w contact state w') : Headed w' := by
  have hr : Headed (w.renewed state) := h.keep (by simp) (by simp)
  cases hi with
  | sent c a d =>
    refine (hr.requested ?_ ?_).keep rfl rfl
    · simp [inviteRequest]
    · rintro _ ⟨⟩
      simp [SipMessageHandler.contactHeader, ContactHeader.HasPort]
  | failed n t => exact hr.keep rfl rfl
  | refused => exact h

theorem accepts (h : Headed w) (ha : Accepts env w w') : Headed w' := by
  cases ha with
  | accepted r fs sdp =>
    refine h.setSipAudioFormats.replied ?_
    rintro _ ⟨⟩
    rfl
  | failed r fs => exact h.setSipAudioFormats
  | failedCached r fs => exact h.setSipAudioFormats.cached
  | idle => exact h

theorem declines (h : Headed w) (hd : Declines env w w') : Headed w' := by
  cases hd with
  | declined => exact h.replied (by simp)
  | failed => exact h.cached
  | idle => exact h

theorem ends (h : Headed w) (he : Ends env w w') : Headed w' := by
  cases he with
  | bye d => exact (h.keep (v := w.tick) rfl rfl).emit fun _ => trivial
  | cancel t =>
    have ht : Headed (w.tick.setClientTransaction
        (some (w.clientTransactionFor env t.request.toCancel))) := h.keep rfl rfl
    exact ht.emit fun _ => trivial
  | noBye | noCancel => exact h.keep rfl rfl

theorem invited {r : Request} (h : Headed w) (hi : Invited env w r w') : Headed w' := by
  have hopened : ∀ fs sdp s, Headed (w.opened fs sdp s) := fun _ _ _ => h.keep rfl rfl
  cases hi with
  | busy => exact h.replied (by simp)
  | busyFailed w₁ _ _ hw => exact (h.of_cached hw).setStatusChanged
  | unread => exact h.setSipAudioFormats.setStatusChanged
  | declined => exact (h.keep (v := w.setSdp none) rfl rfl).replied (by simp)
  | declineFailed w₁ _ _ _ _ hw =>
    have hs : Headed (w.setSdp none) := h.keep rfl rfl
    rcases hw with rfl | ⟨_, _, rfl⟩
    · exact hs.setStatusChanged
    · exact hs.cached.setStatusChanged
  | noSession fs sdp =>
    exact (h.setSipAudioFormats.keep (v := (w.setSipAudioFormats fs).setSdp (some sdp)) rfl
      rfl).setStatusChanged
  | noUser => exact (hopened _ _ _).setStatusChanged
  | notFound => exact (hopened _ _ _).replied (by simp)
  | notFoundFailed _ _ _ _ _ _ _ _ _ hw => exact ((hopened _ _ _).of_cached hw).setStatusChanged
  | rang fs sdp s =>
    have hs : Headed ((w.opened fs sdp s).setRequest (some r)) := h.keep rfl rfl
    exact (hs.replied (by simp)).setStatusChanged.emit fun _ => trivial
  | rangError fs sdp s =>
    have hs : Headed ((w.opened fs sdp s).setRequest (some r)) := h.keep rfl rfl
    exact (hs.replied (by simp)).setStatusChanged
  | ringFailed fs sdp s _ _ _ _ hw =>
    have hs : Headed ((w.opened fs sdp s).setRequest (some r)) := h.keep rfl rfl
    exact (hs.of_cached hw).setStatusChanged

theorem byed {r : Request} {t : Option ServerTransaction} (h : Headed w) (hb : Byed w r t w') :
    Headed w' := by
  cases hb with
  | confirmed t =>
    refine h.append (l := [.response t { status := 200, request := r }]) rfl rfl ?_
    intro o hm
    rw [List.mem_singleton.1 hm]
    exact fun c hc => by cases hc
  | answered fs sdp =>
    refine h.setSipAudioFormats.replied ?_
    rintro _ ⟨⟩
    rfl
  | failed _ fs w₁ hw => exact (h.setSipAudioFormats.of_cached hw).setStatusChanged

theorem received {ev : RequestEvent} (h : Headed w) (hr : Receives env w ev w') : Headed w' := by
  have ht : Headed w.tick := h.keep rfl rfl
  cases hr with
  | invite _ _ hi => exact ht.invited hi
  | cancel => exact ht.cleared
  | ack _ _ ha =>
    have hd : Headed (w.tick.setDialog ev.getDialog) := h.keep rfl rfl
    cases ha with
    | established => exact hd.setStatusChanged
    | unnumbered => exact hd
    | ignored => exact ht
  | bye w₁ _ hb =>
    have hbt : Headed (w.byeTransaction ev).2 := by
      unfold World.byeTransaction
      split_ifs
      · exact h.keep rfl rfl
      · exact ht
    exact (hbt.byed hb).setStatusChanged.cleared
  | other => exact ht

theorem answered {ev : ResponseEvent} (h : Headed w) (ha : Answered env w ev w') : Headed w' := by
  cases ha with
  | established d fs s =>
    have hj : Headed (w.joined d fs s) := h.keep rfl rfl
    exact (hj.emit (o := .ack d w.handler.callSequence) fun _ => trivial).setStatusChanged
  | unacked d fs s =>
    have hj : Headed (w.joined d fs s) := h.keep rfl rfl
    exact hj.setStatusChanged
  | unmatched s =>
    have hs : Headed (w.setSession (some s)) := h.keep rfl rfl
    exact hs.setStatusChanged
  | unread => exact h.setStatusChanged
  | registered | unregistered => exact h.setStatusChanged.keep rfl rfl
  | ignored => exact h

theorem responds {ev : ResponseEvent} (h : Headed w) (hr : Responds env w ev w') : Headed w' := by
  have hc : ∀ c, Headed (w.challenged c) := fun _ => h.keep rfl rfl
  have hn : Headed w.counted := h.keep rfl rfl
  have hb : ∀ c n t, Headed ((w.challenged c).began n t) := fun c _ _ => (hc c).keep rfl rfl
  cases hr with
  | ringing _ _ ha =>
    refine answered ?_ ha
    unfold World.rung
    split_ifs
    · exact h.setStatusChanged
    · exact h
  | ok _ _ ha => exact h.answered ha
  | unauthorized _ _ hu =>
    cases hu with
    | unchallenged => exact hn.setStatusChanged
    | noted => exact hc _
    | repeated c state a =>
      exact ((hc c).keep (v := (w.challenged c).tick) rfl rfl).requested rfl
        (registerRequest_contact (w.challenged c).handler w.fresh state a)
    | failed c n t => exact (hb c n t).setStatusChanged
  | proxied _ _ hp =>
    cases hp with
    | ignored => exact hn
    | unchallenged => exact hn.setStatusChanged
    | noted => exact hc _
    | repeated c contact id a d =>
      refine ((hc c).requested ?_ ?_).keep rfl rfl
      · rfl
      · rintro _ ⟨⟩
        rfl
    | failed c n t => exact (hb c n t).setStatusChanged
  | failure => exact h.setStatusChanged
  | other => exact h

/-- Whatever a step sends names the port of the handler. -/
theorem step (w : World) (i : Input) : Headed (JaySip.step w i) := by
  have hq : Headed w.quiet := fun o hm => by cases hm
  have hst := stepped w i
  generalize JaySip.step w i = w' at hst
  cases hst with
  | register _ _ hr => exact hq.setStatusChanged.registers hr
  | unregister _ _ hr => exact hq.setStatusChanged.registers hr
  | sendInvite _ _ contact hi =>
    have hk : Headed ((w.quiet.setContact (some contact)).setSession none) := hq.keep rfl rfl
    exact hk.setStatusChanged.invites hi
  | acceptCall _ _ ha => exact hq.accepts ha
  | declineCall _ _ hd => exact hq.declines hd
  | endCall _ _ he => exact hq.ends he
  | reset => exact hq.cleared
  | request _ _ _ hr => exact hq.received hr
  | response _ _ _ hr => exact hq.responds hr

end Headed

/-! ## Runs -/

/-- The ports of the client never change. -/
theorem run_ports (w : World) (is : List Input) :
    (client.run w is).handler.localSipPort = w.handler.localSipPort ∧
      (client.run w is).handler.localSipProfile.localSipPort =
        w.handler.localSipProfile.localSipPort := by
  have hl := SameLocal.run w is
  obtain ⟨nonce, realm, hp⟩ := hl.profile
  exact ⟨hl.port, by rw [hp]⟩

/-- The port after the draws is the last one drawn, or the one asked for. -/
theorem bindPort_eq_iff {port : ℤ} {draws : List (Fin 1000)} :
    bindPort port draws = port ↔ ∀ draw ∈ draws.getLast?, randomPort draw = port := by
  have hlast : ∀ (draws : List (Fin 1000)) port draw,
      bindPort port (draws ++ [draw]) = randomPort draw := by
    intro draws
    induction draws with
    | nil => exact fun _ _ => rfl
    | cons d draws ih => exact fun port draw => ih (randomPort d) draw
  rcases List.eq_nil_or_concat draws with rfl | ⟨draws, draw, rfl⟩
  · exact iff_of_true rfl (by simp)
  · rw [List.concat_eq_append, hlast]
    simp

/-- Registering right away sends the port of the field. -/
theorem start_register (w : World) : ∃ o ∈ (client.step w (Trace.act .register)).out,
    ∀ n, o.HasPort n → w.handler.localSipPort = n :=
  ⟨.request ⟨w.fresh + 1, registerRequest w.handler w.fresh .register none, some ⟨w.fresh, 0⟩⟩,
    .tail _ (.head _), fun _ h => h.1⟩

/-- **The port of the listening point.**  In every run its port is the one in the headers and
    in the profile, exactly when no attempt to bind failed or the last port drawn is the one
    asked for. -/
theorem names_bound_iff (profile : LocalSipProfile) (localIPAddress : Str) (localSipPort : ℤ)
    (draws : List (Fin 1000)) :
    (∀ is, client.Along (World.create profile localIPAddress localSipPort draws) is fun _ st =>
      Names (bindPort localSipPort draws) st.post) ↔
      ∀ draw ∈ draws.getLast?, randomPort draw = localSipPort := by
  rw [← bindPort_eq_iff]
  constructor
  · intro h
    obtain ⟨o, ho, hport⟩ := start_register (World.create profile localIPAddress localSipPort draws)
    have hn := h [Trace.act .register] [] _ [] rfl
    exact (hport _ (hn.headers o ho)).symm
  · intro hb is h st t hst
    obtain ⟨js, i, ks, -, -, rfl⟩ := client.history_split hst
    generalize hw : client.run (World.create profile localIPAddress localSipPort draws) js = w
    have hports := run_ports (World.create profile localIPAddress localSipPort draws) (js ++ [i])
    rw [Machine.run_append, hw] at hports
    have hp : (JaySip.step w i).handler.localSipPort = localSipPort := hports.1
    refine ⟨fun o ho => ?_, hports.2⟩
    rw [hb, ← hp]
    exact Headed.step w i o ho

/-- The configured port is taken, and 5001 is drawn: the REGISTER still names 5060. -/
theorem register_names_taken_port : ¬ ∀ profile localIPAddress localSipPort draws is,
    client.Along (World.create profile localIPAddress localSipPort draws) is fun _ st =>
      Names (bindPort localSipPort draws) st.post := by
  intro h
  have hn := h Trace.alice "10.0.0.1".toList 5060 [1] [Trace.act .register] [] _ [] rfl
  obtain ⟨o, ho, hport⟩ := start_register (World.create Trace.alice "10.0.0.1".toList 5060 [1])
  exact absurd (hport _ (hn.headers o ho)) (by decide)

end JaySip
