/-
  Outgoing calls: when the call that a response establishes is the one last dialled.
-/
import JaySip.Proof.Answers

namespace JaySip

open Java

variable {env : Env} {w w' : World} {i : Input} {h : List ClientStep} {q : SipRequest}

/-! ## Dialling -/

/-- The INVITE `q` calls the contact `c`. -/
def SipRequest.CallsTo (q : SipRequest) (c : SipContact) : Prop :=
  q.requestUser = c.sipUserName ∧ q.requestHost = c.sipDomain ∧ q.toHeader = c.getToHeader

/-- A waiting client has dialled `q`: it holds its Call-ID, its CSeq number and its contact. -/
structure Holds (w : World) (q : SipRequest) : Prop where
  callID : w.handler.currentCallID = some q.callId
  callSequence : w.handler.callSequence = q.cSeq
  contact : ∃ c, w.service.currentContact = some c ∧ q.CallsTo c

/-- The parts of the client that a call in the making rests on are the same. -/
structure SameCallee (w w' : World) : Prop where
  callID : w'.handler.currentCallID = w.handler.currentCallID
  callSequence : w'.handler.callSequence = w.handler.callSequence
  contact : w'.service.currentContact = w.service.currentContact

/-- What a step does for outgoing calls: it dials, with a new Call-ID, or dials again, with
    the same, or sends no INVITE and does not make the client wait. -/
inductive Dials (w w' : World) : Prop
  | dialled (q : SipRequest) : w'.requests = [q] → q.method = .invite → w.fresh ≤ q.callId →
      q.callId < w'.fresh → Holds w' q → Dials w w'
  | redialled (q : SipRequest) : w'.requests = [q] → q.method = .invite → Waiting w →
      SameCallee w w' → Holds w' q → Dials w w'
  | other : (∀ q ∈ w'.requests, q.method ≠ .invite ∧ q.callId < w'.fresh) →
      (Waiting w' → Waiting w ∧ SameCallee w w') → Dials w w'

/-- No request has left the client. -/
def Silent (w : World) : Prop := ∀ t, Output.request t ∉ w.out

theorem Silent.requests (h : Silent w) : w.requests = [] :=
  List.eq_nil_iff_forall_not_mem.2 fun _ hq => by
    obtain ⟨t, ht, -⟩ := mem_requests.1 hq
    exact h t ht

theorem requests_requested (h : Silent w) : (w.requested env q).requests = [q] := by
  have hw : w.requests = [] := h.requests
  unfold World.requests at hw ⊢
  rw [requested_out, List.filterMap_append, hw]
  rfl

/-- Steps that send nothing. -/
theorem Dials.silent (hs : Silent w') (hw : Waiting w' → Waiting w ∧ SameCallee w w') :
    Dials w w' := .other (by simp [hs.requests]) hw

/-- A REGISTER is sent with a new Call-ID. -/
theorem Registers.requests {state : SipRequestState} (hr : Registers env w state w')
    (ho : Silent w) : ∀ q ∈ w'.requests, q.method ≠ .invite ∧ q.callId < w'.fresh := by
  cases hr with
  | sent a =>
    intro q hq
    rw [requests_requested (w := w.tick) ho, List.mem_singleton] at hq
    subst hq
    refine ⟨by simp [registerRequest], ?_⟩
    change w.fresh < w.fresh + 1 + 1
    omega
  | failed n t => simp [Silent.requests (w := w.began n t) ho]

/-- An INVITE is dialled by `sendInvite`. -/
theorem Invites.dials {contact : SipContact} (hi : Invites env w contact .register w')
    (hs : env.Succeeds) (ho : Silent w) (hc : w.service.currentContact = some contact)
    {w₀ : World} (hf : w₀.fresh ≤ w.fresh) : Dials w₀ w' := by
  cases hi with
  | sent c a d hid =>
    obtain rfl : w.fresh = c := by simpa using hid
    refine .dialled (inviteRequest w.handler w.fresh contact a d)
      (requests_requested (w := w.renewed .register) ?_) rfl hf ?_ ?_
    · exact fun t => by simpa using ho t
    · exact Nat.lt_succ_of_le fresh_le_renewed
    · refine ⟨?_, by simp [inviteRequest], contact, ?_, rfl, rfl, rfl⟩
      · simp [inviteRequest]
      · simpa using hc
  | failed n t hn => exact absurd hs (hn rfl)
  | refused hn => exact absurd hs (hn rfl)

/-- Dialling from a world that is no further. -/
theorem Dials.of_base {w₁ : World} (hd : Dials w₁ w') (hf : w.fresh ≤ w₁.fresh)
    (hw : Waiting w₁ → Waiting w) (hs : SameCallee w w₁) : Dials w w' := by
  have same : SameCallee w₁ w' → SameCallee w w' := fun h =>
    ⟨h.callID.trans hs.callID, h.callSequence.trans hs.callSequence, h.contact.trans hs.contact⟩
  cases hd with
  | dialled q h1 h2 h3 h4 h5 => exact .dialled q h1 h2 (hf.trans h3) h4 h5
  | redialled q h1 h2 h3 h4 h5 => exact .redialled q h1 h2 (hw h3) (same h4) h5
  | other h1 h2 => exact .other h1 fun hw' => ⟨hw (h2 hw').1, same (h2 hw').2⟩

/-- Steps that send nothing and leave the state and the callee as they are. -/
theorem Dials.kept (hs : Silent w') (hst : w'.service.currentState = w.service.currentState)
    (hid : w'.handler.currentCallID = w.handler.currentCallID)
    (hseq : w'.handler.callSequence = w.handler.callSequence)
    (hc : w'.service.currentContact = w.service.currentContact) : Dials w w' :=
  .silent hs fun hw => ⟨by rwa [Waiting, hst] at hw, hid, hseq, hc⟩

/-- Steps that send nothing and end in a client that does not wait. -/
theorem Dials.lost (hs : Silent w') (hw : ¬ Waiting w') : Dials w w' :=
  .silent hs fun h => absurd h hw

theorem Invited.silent {r : Request} (hi : Invited env w r w') (ho : Silent w) : Silent w' := by
  intro t ht
  refine ho t ?_
  cases hi with
  | busyFailed _ _ _ hw => rcases hw with rfl | rfl <;> simpa using ht
  | declineFailed _ _ _ _ _ hw => rcases hw with rfl | ⟨_, _, rfl⟩ <;> simpa using ht
  | notFoundFailed _ _ _ _ _ _ _ _ _ hw => rcases hw with rfl | rfl <;> simpa using ht
  | ringFailed _ _ _ _ _ _ _ hw => rcases hw with rfl | rfl <;> simpa using ht
  | _ => simpa using ht

theorem Byed.silent {r : Request} {transaction : Option ServerTransaction}
    (hb : Byed w r transaction w') (ho : Silent w) : Silent w' := by
  intro t ht
  refine ho t ?_
  cases hb with
  | confirmed => simpa using ht
  | answered => simpa using ht
  | failed _ _ _ hw => rcases hw with rfl | rfl <;> simpa using ht

theorem Answered.silent {ev : ResponseEvent} (ha : Answered env w ev w') (ho : Silent w) :
    Silent w' := by
  cases ha <;> simpa [Silent] using ho

theorem Silent.rung (ho : Silent w) : Silent w.rung := by
  intro t ht
  rcases rung_out (w := w) with hw | hw <;> exact ho t (by simpa [hw] using ht)

/-- No request is answered with a request. -/
theorem Receives.silent {ev : RequestEvent} (hr : Receives env w ev w') (ho : Silent w) :
    Silent w' := by
  have ht : Silent w.tick := ho
  cases hr with
  | invite _ _ hi => exact hi.silent ht
  | cancel => simpa [Silent] using ho
  | ack _ _ ha => cases ha <;> simpa [Silent] using ho
  | bye w₁ _ hb =>
    have hs : Silent w₁ := by
      refine hb.silent ?_
      unfold World.byeTransaction
      split_ifs
      · exact ho
      · exact ho
    simpa [Silent] using hs
  | other => exact ht

/-- Only challenges are answered with a request. -/
theorem Responds.silent {ev : ResponseEvent} (hr : Responds env w ev w')
    (h401 : ev.response.status ≠ 401) (h407 : ev.response.status ≠ 407) (ho : Silent w) :
    Silent w' := by
  cases hr with
  | ringing _ _ ha => exact ha.silent ho.rung
  | ok _ _ ha => exact ha.silent ho
  | unauthorized _ he => exact absurd he h401
  | proxied _ he => exact absurd he h407
  | failure => simpa [Silent] using ho
  | other => exact ho

theorem Invited.dials {r : Request} (hi : Invited env w r w') (ho : Silent w) : Dials w w' := by
  have hs := hi.silent ho
  cases hi with
  | busy => exact .kept hs (by simp) (by simp) (by simp) (by simp)
  | declined => exact .kept hs (by simp) (by simp) (by simp) (by simp)
  | notFound => exact .kept hs (by simp) (by simp) (by simp) (by simp)
  | _ => exact .lost hs (by simp [Waiting])

theorem Receives.dials {ev : RequestEvent} (hr : Receives env w ev w') (ho : Silent w) :
    Dials w w' := by
  have hs := hr.silent ho
  have ht : Silent w.tick := ho
  cases hr with
  | invite _ _ hi => exact (hi.dials ht).of_base (Nat.le_succ _) id ⟨rfl, rfl, rfl⟩
  | cancel => exact .lost hs (by simp [Waiting])
  | ack _ _ ha =>
    cases ha with
    | established => exact .lost hs (by simp [Waiting])
    | unnumbered => exact .kept hs rfl rfl rfl rfl
    | ignored => exact .kept hs rfl rfl rfl rfl
  | bye => exact .lost hs (by simp [Waiting])
  | other => exact .kept hs rfl rfl rfl rfl

/-- The answer to a call ends the waiting, or nothing happens. -/
theorem Answered.dials {ev : ResponseEvent} (ha : Answered env w ev w') (ho : Silent w) :
    Dials w w' := by
  cases ha with
  | ignored => exact .kept ho rfl rfl rfl rfl
  | _ => exact .lost (by simpa [Silent] using ho) (by simp [Waiting])

theorem Responds.dials {ev : ResponseEvent} (hr : Responds env w ev w') (ho : Silent w) :
    Dials w w' := by
  cases hr with
  | ringing _ _ ha =>
    refine (ha.dials ho.rung).of_base rung_fresh.ge (fun hw => ?_) ⟨?_, ?_, ?_⟩
    · unfold World.rung at hw
      split_ifs at hw with hc
      · exact Or.inr hc
      · exact hw
    · rw [rung_handler]
    · rw [rung_handler]
    · rw [rung_service]
  | ok _ _ ha => exact ha.dials ho
  | unauthorized _ _ hu =>
    cases hu with
    | unchallenged => exact .lost (by simpa [Silent] using ho) (by simp [Waiting])
    | noted => exact .kept (by simpa [Silent] using ho) rfl rfl rfl rfl
    | repeated c state a _ hst =>
      refine .other (fun q hq => ?_) fun hw => ?_
      · rw [requests_requested (w := (w.challenged c).tick) ho, List.mem_singleton] at hq
        subst hq
        refine ⟨by simp [registerRequest], ?_⟩
        change w.fresh < w.fresh + 1 + 1
        omega
      · rcases hst with ⟨hst, -⟩ | ⟨hst, -⟩ <;> simp [Waiting, hst] at hw
    | failed => exact .lost (by simpa [Silent] using ho) (by simp [Waiting])
  | proxied _ _ hp =>
    cases hp with
    | ignored => exact .kept (by simpa [Silent] using ho) rfl rfl rfl rfl
    | unchallenged => exact .lost (by simpa [Silent] using ho) (by simp [Waiting])
    | noted => exact .kept (by simpa [Silent] using ho) rfl rfl rfl rfl
    | repeated c contact id a d _ _ hst hc hid =>
      exact .redialled (inviteRequest (w.challenged c).handler id contact a d)
        (requests_requested (w := w.challenged c) ho) rfl (Or.inr hst)
        ⟨rfl, rfl, rfl⟩ ⟨hid, rfl, contact, hc, rfl, rfl, rfl⟩
    | failed => exact .lost (by simpa [Silent] using ho) (by simp [Waiting])
  | failure st hst =>
    exact .lost (by simpa [Silent] using ho) (by simp [Waiting, failureState_waiting hst])
  | other => exact .kept ho rfl rfl rfl rfl

theorem step_dials (hs : i.env.Succeeds) : Dials w (step w i) := by
  have ho : Silent w.quiet := by simp [Silent]
  have hst := stepped w i
  generalize step w i = w' at hst
  cases hst with
  | register _ _ hr =>
    exact .other (hr.requests (by simp [Silent])) fun hw => by simp [Waiting, hr.service] at hw
  | unregister _ _ hr =>
    exact .other (hr.requests (by simp [Silent])) fun hw => by simp [Waiting, hr.service] at hw
  | sendInvite _ _ contact hi => exact hi.dials hs (by simp [Silent]) (by simp) le_rfl
  | acceptCall _ _ ha =>
    refine .silent (by cases ha <;> simp [Silent]) fun hw => ⟨?_, ?_, ?_, ?_⟩
    · simpa [Waiting, ha.service] using hw
    · cases ha <;> simp
    · cases ha <;> simp
    · simp [ha.service]
  | declineCall _ _ hd =>
    refine .silent (by cases hd <;> simp [Silent]) fun hw => ⟨?_, ?_, ?_, ?_⟩
    · simpa [Waiting, hd.service] using hw
    · cases hd <;> simp
    · cases hd <;> simp
    · simp [hd.service]
  | endCall _ _ he =>
    refine .silent (by cases he <;> simp [Silent]) fun hw => ⟨?_, ?_, ?_, ?_⟩
    · simpa [Waiting, he.service] using hw
    · cases he <;> simp
    · cases he <;> simp
    · simp [he.service]
  | reset => exact .silent (by simp [Silent]) fun hw => by simp [Waiting] at hw
  | request _ _ _ hr => exact (hr.dials ho).of_base le_rfl id ⟨rfl, rfl, rfl⟩
  | response _ _ _ hr => exact (hr.dials ho).of_base le_rfl id ⟨rfl, rfl, rfl⟩

/-! ## The last call dialled -/

/-- `q` is the last INVITE of the history. -/
def LastInvite (h : List ClientStep) (q : SipRequest) : Prop :=
  ∃ h₁ st h₂, h = h₁ ++ st :: h₂ ∧ Sends st q ∧ q.method = .invite ∧
    ∀ st' ∈ h₂, ∀ q', Sends st' q' → q'.method ≠ .invite

theorem lastInvite_snoc {st : ClientStep} : LastInvite (h ++ [st]) q ↔
    (Sends st q ∧ q.method = .invite) ∨
      (LastInvite h q ∧ ∀ q', Sends st q' → q'.method ≠ .invite) := by
  constructor
  · rintro ⟨h₁, st₁, h₂, he, hq, hm, hn⟩
    rcases List.eq_nil_or_concat h₂ with rfl | ⟨h₃, st₂, rfl⟩
    · obtain ⟨-, e⟩ := List.append_inj' he rfl
      cases e
      exact Or.inl ⟨hq, hm⟩
    · have he' : h ++ [st] = (h₁ ++ st₁ :: h₃) ++ [st₂] := by
        simpa using he
      obtain ⟨rfl, e⟩ := List.append_inj' he' rfl
      cases e
      exact Or.inr ⟨⟨h₁, st₁, h₃, rfl, hq, hm, fun st' h' => hn st' (by simp [h'])⟩,
        hn st (by simp)⟩
  · rintro (⟨hq, hm⟩ | ⟨⟨h₁, st₁, h₂, rfl, hq, hm, hn⟩, hs⟩)
    · exact ⟨h, st, [], rfl, hq, hm, by simp⟩
    · refine ⟨h₁, st₁, h₂ ++ [st], by simp, hq, hm, fun st' h' => ?_⟩
      rcases List.mem_append.1 h' with h' | h'
      · exact hn st' h'
      · rw [List.mem_singleton.1 h']
        exact hs

theorem LastInvite.sends (hl : LastInvite h q) : ∃ st ∈ h, Sends st q := by
  obtain ⟨h₁, st, h₂, rfl, hq, -, -⟩ := hl
  exact ⟨st, by simp, hq⟩

/-- Call-IDs of the history are not fresh, and a waiting client has dialled its last INVITE,
    whose Call-ID goes with one CSeq number. -/
structure Dialled (h : List ClientStep) (w : World) : Prop where
  bound : ∀ st ∈ h, ∀ q, Sends st q → q.callId < w.fresh
  last : Waiting w → ∃ q, LastInvite h q
  holds : Waiting w → ∀ q, LastInvite h q → Holds w q
  cSeq : Waiting w → ∀ q, LastInvite h q → ∀ st ∈ h, ∀ q', Sends st q' → q'.method = .invite →
    q'.callId = q.callId → q'.cSeq = q.cSeq

namespace Dialled

theorem init (h₀ : client.init w) : Dialled [] w := by
  obtain ⟨profile, localIPAddress, localSipPort, rfl⟩ := h₀
  have hn : ¬ Waiting (World.start profile localIPAddress localSipPort) := by
    simp [Waiting, World.start]
  exact ⟨by simp, fun hw => absurd hw hn, fun hw => absurd hw hn, fun hw => absurd hw hn⟩

theorem step (hd : Dialled h w) (hs : i.env.Succeeds) :
    Dialled (h ++ [client.stepOf w i]) (client.step w i) := by
  have hf : w.fresh ≤ (client.step w i).fresh := fresh_le_step w i
  -- the INVITEs before the step, and the one that a dialling step adds
  have old : ∀ st ∈ h ++ [client.stepOf w i], ∀ q, Sends st q →
      (st ∈ h ∧ q.callId < w.fresh) ∨ q ∈ (client.step w i).requests := by
    intro st hst q hq
    rcases List.mem_append.1 hst with hst | hst
    · exact Or.inl ⟨hst, hd.bound st hst q hq⟩
    · rw [List.mem_singleton.1 hst] at hq
      exact Or.inr hq
  have sent : ∀ {q q'}, (client.step w i).requests = [q] →
      (q' ∈ (client.step w i).requests ↔ q' = q) := by
    intro q q' hq
    rw [hq, List.mem_singleton]
  have last : ∀ {q}, (client.step w i).requests = [q] → q.method = .invite →
      ∀ {q'}, LastInvite (h ++ [client.stepOf w i]) q' → q' = q := by
    intro q hq hm q' hl
    rcases lastInvite_snoc.1 hl with ⟨hq', -⟩ | ⟨-, hn⟩
    · exact (sent hq).1 hq'
    · exact absurd hm (hn q ((sent hq).2 rfl))
  have bound : (∀ q ∈ (client.step w i).requests, q.callId < (client.step w i).fresh) →
      ∀ st ∈ h ++ [client.stepOf w i], ∀ q, Sends st q →
        q.callId < (client.step w i).fresh := by
    intro hn st hst q hq
    rcases old st hst q hq with ⟨-, hlt⟩ | hq
    · exact hlt.trans_le hf
    · exact hn q hq
  cases step_dials (w := w) hs with
  | dialled q hq hm hlo hhi hh =>
    refine ⟨bound ?_, fun _ => ⟨q, lastInvite_snoc.2 (Or.inl ⟨(sent hq).2 rfl, hm⟩)⟩, ?_, ?_⟩
    · intro q' hq'
      rw [(sent hq).1 hq']
      exact hhi
    · intro _ q' hl
      rw [last hq hm hl]
      exact hh
    · intro _ q' hl st hst q'' hs'' _ hid
      rw [last hq hm hl] at hid ⊢
      rcases old st hst q'' hs'' with ⟨-, hlt⟩ | hq''
      · exact absurd (hid ▸ hlt) hlo.not_gt
      · rw [(sent hq).1 hq'']
  | redialled q hq hm hw hsame hh =>
    -- the repeat has the Call-ID and the CSeq number of the last INVITE
    obtain ⟨q₀, hl₀⟩ := hd.last hw
    have hh₀ := hd.holds hw q₀ hl₀
    have hid₀ : q.callId = q₀.callId := by
      have h₁ := hh.callID.symm.trans (hsame.callID.trans hh₀.callID)
      exact Option.some.inj h₁
    have hseq₀ : q.cSeq = q₀.cSeq :=
      hh.callSequence.symm.trans (hsame.callSequence.trans hh₀.callSequence)
    refine ⟨bound ?_, fun _ => ⟨q, lastInvite_snoc.2 (Or.inl ⟨(sent hq).2 rfl, hm⟩)⟩, ?_, ?_⟩
    · intro q' hq'
      obtain ⟨st, hst, hs₀⟩ := hl₀.sends
      rw [(sent hq).1 hq', hid₀]
      exact (hd.bound st hst q₀ hs₀).trans_le hf
    · intro _ q' hl
      rw [last hq hm hl]
      exact hh
    · intro _ q' hl st hst q'' hs'' hm'' hid
      rw [last hq hm hl] at hid ⊢
      rcases old st hst q'' hs'' with ⟨hst, -⟩ | hq''
      · rw [hseq₀]
        exact hd.cSeq hw q₀ hl₀ st hst q'' hs'' hm'' (hid.trans hid₀)
      · rw [(sent hq).1 hq'']
  | other hq hw =>
    have keep : ∀ {q}, LastInvite (h ++ [client.stepOf w i]) q ↔ LastInvite h q := by
      intro q
      rw [lastInvite_snoc]
      refine ⟨?_, fun hl => Or.inr ⟨hl, fun q' hq' => (hq q' hq').1⟩⟩
      rintro (⟨hq', hm⟩ | ⟨hl, -⟩)
      · exact absurd hm (hq q hq').1
      · exact hl
    refine ⟨bound fun q hq' => (hq q hq').2, fun hw' => ?_, fun hw' q hl => ?_,
      fun hw' q hl st hst q' hs' hm' hid => ?_⟩
    · obtain ⟨q, hl⟩ := hd.last (hw hw').1
      exact ⟨q, keep.2 hl⟩
    · have hh := hd.holds (hw hw').1 q (keep.1 hl)
      obtain ⟨-, hsame⟩ := hw hw'
      obtain ⟨c, hc, hto⟩ := hh.contact
      exact ⟨hsame.callID.trans hh.callID, hsame.callSequence.trans hh.callSequence, c,
        hsame.contact.trans hc, hto⟩
    · rcases old st hst q' hs' with ⟨hst, -⟩ | hq'
      · exact hd.cSeq (hw hw').1 q (keep.1 hl) st hst q' hs' hm' hid
      · exact absurd hm' (hq q' hq').1

end Dialled

/-! ## The call that a response establishes -/

/-- The response has established a call in the dialog `d`, and has acknowledged it there. -/
structure Connected (env : Env) (w : World) (ev : ResponseEvent) (w' : World) (d : Dialog) :
    Prop where
  joins : ∃ fs s, Joins env w ev d fs s
  session : ∃ s, w'.service.currentSession = some s ∧ s.source = .response ev.response.callId
  contact : w'.service.currentContact = w.service.currentContact
  ack : Output.ack d w.handler.callSequence ∈ w'.out
  acks : ∀ d' n, Output.ack d' n ∈ w'.out →
    Output.ack d' n ∈ w.out ∨ (d' = d ∧ n = w.handler.callSequence)

theorem joins_rung {ev : ResponseEvent} {d : Dialog} {fs : List SipAudioFormat} {s : SipSession} :
    Joins env w.rung ev d fs s ↔ Joins env w ev d fs s := by
  constructor
  · rintro ⟨ha, hs, hf, hd⟩
    exact ⟨answering_rung.1 ha, hs, by simpa using hf, hd⟩
  · rintro ⟨ha, hs, hf, hd⟩
    exact ⟨answering_rung.2 ha, hs, by simpa using hf, hd⟩

theorem Answered.connected {ev : ResponseEvent} (hn : w.service.currentState ≠ .established)
    (he : w'.service.currentState = .established) (ha : Answered env w ev w') :
    ∃ d, Connected env w ev w' d := by
  cases ha with
  | established d fs s hj _ _ =>
    refine ⟨d, ⟨fs, s, hj⟩, ⟨_, rfl, (Response.session_fields hj.session).1⟩, rfl, ?_, ?_⟩
    · simp
    · intro d' n hd
      simpa using hd
  | ignored => exact absurd he hn
  | _ => simp at he

/-- Only the answer to a call establishes one. -/
theorem Responds.connected {ev : ResponseEvent} (hn : w.service.currentState ≠ .established)
    (he : w'.service.currentState = .established) (hr : Responds env w ev w') :
    ev.response.Accepted ∧ ∃ d, Connected env w ev w' d := by
  cases hr with
  | ringing _ hst ha =>
    have hn' : w.rung.service.currentState ≠ .established := by
      rw [rung_service]
      split_ifs <;> simp [hn]
    obtain ⟨d, ⟨fs, s, hj⟩, hs, hc, hk, hks⟩ := ha.connected hn' he
    refine ⟨Or.inl hst, d, ⟨fs, s, joins_rung.1 hj⟩, hs, ?_, by simpa using hk, fun d' n hd => ?_⟩
    · rw [hc, rung_service]
    · have hd' := hks d' n hd
      rcases rung_out (w := w) with hw | hw <;> simpa [hw] using hd'
  | ok _ hst ha => exact ⟨Or.inr hst, ha.connected hn he⟩
  | unauthorized _ _ hu => cases hu <;> simp [hn] at he
  | proxied _ _ hp => cases hp <;> simp [hn] at he
  | failure st hst =>
    obtain rfl : st = .established := by simpa using he
    exact absurd hst failureState_ne_established
  | other => exact absurd he hn

theorem Answered.establishes {ev : ResponseEvent} {s : SipSession} {fs : List SipAudioFormat}
    (hs : env.Succeeds) (hw : Answering w ev)
    (hses : ev.response.session env.getByName = .ok s)
    (hf : ev.response.formats w.handler.localSipProfile = .ok fs) (ha : Answered env w ev w') :
    w'.service.currentState = .established := by
  cases ha with
  | established => simp
  | unacked _ _ _ _ hk => exact absurd (hs _) (hk (hs _))
  | unmatched s e _ _ he => simp [he] at hf
  | unread e _ he => simp [he] at hses
  | registered hr => simp [Answering, hr] at hw
  | unregistered hr => simp [Answering, hr] at hw
  | ignored hn => exact absurd hw hn

/-- An answer that can be read establishes the call, when the stack takes the ACK. -/
theorem Responds.establishes {ev : ResponseEvent} {s : SipSession} {fs : List SipAudioFormat}
    (hs : env.Succeeds) (hacc : ev.response.Accepted) (hw : Answering w ev)
    (hses : ev.response.session env.getByName = .ok s)
    (hf : ev.response.formats w.handler.localSipProfile = .ok fs) (hr : Responds env w ev w') :
    w'.service.currentState = .established := by
  cases hr with
  | ringing _ _ ha =>
    exact ha.establishes hs (answering_rung.2 hw) hses (by simpa using hf)
  | ok _ _ ha => exact ha.establishes hs hw hses hf
  | unauthorized _ he => rcases hacc with ha | ha <;> simp [ha] at he
  | proxied _ he => rcases hacc with ha | ha <;> simp [ha] at he
  | failure st hst => rcases hacc with ha | ha <;> simp [ha, failureState] at hst
  | other hn => rcases hacc with ha | ha <;> simp [ha] at hn

/-- The response is the 200 to `q`, the last INVITE sent; the session and the contact are those
    of `q`, and the ACK goes out in its dialog with its CSeq number. -/
structure Completes (h : List ClientStep) (st : ClientStep) (ev : ResponseEvent)
    (q : SipRequest) : Prop where
  last : LastInvite h q
  status : ev.response.status = 200
  answers : ev.response.Answers q
  session : ∃ s, st.post.service.currentSession = some s ∧ s.source = .response q.callId
  contact : ∃ c, st.post.service.currentContact = some c ∧ q.CallsTo c
  ack : ∃ d, Output.ack d q.cSeq ∈ st.post.out ∧ d.callId = q.callId
  acks : ∀ d n, Output.ack d n ∈ st.post.out → d.callId = q.callId ∧ n = q.cSeq
  cSeq : ∀ st' ∈ h, ∀ q', Sends st' q' → q'.method = .invite → q'.callId = q.callId →
    q'.cSeq = q.cSeq

/-- A response establishes a call only as the 200 to the last INVITE sent. -/
def Connects (h : List ClientStep) (st : ClientStep) : Prop :=
  ∀ ev, st.input.action = .response ev → st.pre.service.currentState ≠ .established →
    st.post.service.currentState = .established → ∃ q, Completes h st ev q

/-- A 180 or 200 that comes with a dialog, a session description and a codec list while the
    client waits is a 200 to an INVITE, with the Call-ID and the CSeq number that the client
    holds. -/
def Expected (st : ClientStep) : Prop :=
  ∀ ev, st.input.action = .response ev → ev.response.Accepted → Answering st.pre ev →
    (∃ s, ev.response.session st.input.env.getByName = .ok s) →
    (∃ fs, ev.response.formats st.pre.handler.localSipProfile = .ok fs) →
    ev.response.status = 200 ∧ ev.response.method = .invite ∧
      st.pre.handler.currentCallID = some ev.response.callId ∧
      st.pre.handler.callSequence = ev.response.cSeq

theorem connects_iff (hd : Dialled h w) (hs : i.env.Succeeds) :
    Connects h (client.stepOf w i) ↔ Expected (client.stepOf w i) := by
  obtain ⟨env, action⟩ := i
  refine forall_congr' fun ev => forall_congr' fun ha => ?_
  obtain rfl : action = .response ev := ha
  have hr : Responds env w.quiet ev (client.step w ⟨env, .response ev⟩) := step_responds
  constructor
  · rintro hc hacc (hw : Answering w ev) ⟨s, hses⟩ ⟨fs, hf⟩
    have hn : w.service.currentState ≠ .established := by
      rcases hw.1 with hst | hst <;> simp [hst]
    obtain ⟨q, hq⟩ := hc hn (hr.establishes (w := w.quiet) hs hacc hw hses hf)
    have hh := hd.holds hw.1 q hq.last
    obtain ⟨hm, hid, hseq⟩ := hq.answers
    refine ⟨hq.status, ?_, hid ▸ hh.callID, hh.callSequence.trans hseq.symm⟩
    obtain ⟨h₁, st, h₂, -, -, hqm, -⟩ := hq.last
    exact hm.trans hqm
  · intro he hn hst
    obtain ⟨hacc, d, ⟨fs, s, hj⟩, ⟨s', hs', hsrc⟩, hc, hk, hks⟩ :=
      hr.connected (w := w.quiet) hn hst
    obtain ⟨h200, hm, hid, hseq⟩ := he hacc hj.answering ⟨s, hj.session⟩ ⟨fs, hj.formats⟩
    obtain ⟨q, hl⟩ := hd.last hj.answering.1
    have hh := hd.holds hj.answering.1 q hl
    have hidq : ev.response.callId = q.callId := Option.some.inj (hid.symm.trans hh.callID)
    have hseqq : w.handler.callSequence = q.cSeq := hh.callSequence
    have hdid : d.callId = q.callId := by
      obtain ⟨tag, -, rfl⟩ := Option.map_eq_some_iff.1 hj.dialog
      exact hidq
    obtain ⟨c, hcw, hto⟩ := hh.contact
    refine ⟨q, hl, h200, ⟨?_, hidq, hseq.symm.trans hseqq⟩, ⟨s', hs', hidq ▸ hsrc⟩,
      ⟨c, hc.trans hcw, hto⟩, ⟨d, hseqq ▸ hk, hdid⟩, fun d' n hk' => ?_,
      hd.cSeq hj.answering.1 q hl⟩
    · obtain ⟨h₁, st, h₂, -, -, hqm, -⟩ := hl
      exact hm.trans hqm.symm
    · rcases hks d' n hk' with hk' | ⟨rfl, rfl⟩
      · simp at hk'
      · exact ⟨hdid, hseqq⟩

/-- **When all sends succeed, every call that a response establishes is the one last dialled,
    in exactly the runs whose answers are to the INVITE that the client holds.** -/
theorem connects_along_iff {s₀ : World} (h₀ : client.init s₀) (is : List Input)
    (hs : ∀ i ∈ is, i.env.Succeeds) :
    client.Along s₀ is Connects ↔ client.Along s₀ is fun _ st => Expected st :=
  client.along_congr_of (I := Dialled) (Dialled.init h₀) (fun _ _ _ hd hi => hd.step hi)
    (fun _ _ _ hd hi => connects_iff hd hi) is (client.along_of_forall hs)

/-- Bob takes the call that Alice made last. -/
theorem connects_along_taken : client.Along Trace.idle
    (Trace.callToBob ++ [Trace.response 200 .invite 0 (some (Trace.audio "0".toList))])
      Connects := by
  have hs : ∀ i ∈ Trace.callToBob ++
      [Trace.response 200 .invite 0 (some (Trace.audio "0".toList))], i.env.Succeeds := by
    intro i hi
    rcases List.mem_append.1 hi with hi | hi
    · rw [List.mem_singleton.1 hi]
      exact Trace.calm_succeeds
    · rw [List.mem_singleton.1 hi]
      exact Trace.calm_succeeds
  rw [connects_along_iff Trace.idle_init _ hs, client.along_snoc]
  refine ⟨client.along_cons.2 ⟨?_, client.along_nil _ _⟩, ?_⟩
  · exact fun _ ha => nomatch ha
  · rintro _ ⟨⟩ - - - -
    exact ⟨rfl, rfl, by decide, by decide⟩

/-- Alice gives Bob up and calls Carol. -/
def Trace.callToCarol : List Input :=
  callToBob ++ [act (.sendInvite { bob with sipUserName := "carol".toList })]

/-- Bob's late answer is taken for Carol's. -/
theorem late_answer_connects : ¬ ∀ s₀, client.init s₀ → ∀ is, (∀ i ∈ is, i.env.Succeeds) →
    client.Along s₀ is Connects := by
  intro h
  have hrun := h _ Trace.idle_init
    (Trace.callToCarol ++ [Trace.response 200 .invite 0 (some (Trace.audio "0".toList))])
    (by simp [Trace.callToCarol, Trace.callToBob, Trace.act, Trace.response, Trace.calm_succeeds])
  obtain ⟨q, hq⟩ := (client.along_snoc.1 hrun).2 _ rfl (by decide) (by decide)
  have hids : ∀ q ∈ (client.run Trace.idle Trace.callToCarol).requests, q.callId = 2 := by
    decide
  have hinv : ∃ q ∈ (client.run Trace.idle Trace.callToCarol).requests, q.method = .invite := by
    decide
  rcases lastInvite_snoc (h := client.history Trace.idle Trace.callToBob).1 hq.last with
    ⟨hsent, -⟩ | ⟨-, hn⟩
  · exact absurd (hq.answers.2.1.trans (hids q hsent)) (by decide)
  · obtain ⟨q', hq', hm⟩ := hinv
    exact hn q' hq' hm

end JaySip
