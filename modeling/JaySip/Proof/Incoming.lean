/-
  Incoming calls: which INVITEs are answered, which are refused while a call is being made,
  and which leave the client free.
-/
import JaySip.Proof.Outgoing

namespace JaySip

open Java

variable {env : Env} {w w' : World} {ev : RequestEvent} {r : Request} {code : ℕ}

/-! ## The response to an INVITE -/

/-- One response leaves the client, with this code and to this request. -/
def RepliesOnly (w : World) (code : ℕ) (r : Request) : Prop :=
  ∃ t, w.responses = [(t, { status := code, request := r })]

/-- The client answers the INVITE with this code: 486 with a session, else 180 for the local
    user and 404 for another. -/
inductive Grants (env : Env) (w : World) (r : Request) : ℕ → Prop
  | busy : w.service.currentSession ≠ none → Grants env w r 486
  | rings (fs sdp s) : Opens env w r fs sdp s →
      s.calledUser = .ok w.handler.localSipProfile.userName → Grants env w r 180
  | notFound (fs sdp s) (user : Str) : Opens env w r fs sdp s → s.calledUser = .ok user →
      user ≠ w.handler.localSipProfile.userName → Grants env w r 404

namespace Grants

theorem iff_of_session (hs : w.service.currentSession ≠ none) :
    Grants env w r code ↔ code = 486 := by
  constructor
  · intro hg
    cases hg with
    | busy => rfl
    | rings _ _ _ ho => exact absurd ho.free hs
    | notFound _ _ _ _ ho => exact absurd ho.free hs
  · rintro rfl
    exact .busy hs

theorem opens (hs : w.service.currentSession = none) (hg : Grants env w r code) :
    ∃ fs sdp s, Opens env w r fs sdp s ∧ ∃ user, s.calledUser = .ok user := by
  cases hg with
  | busy hn => exact absurd hs hn
  | rings fs sdp s ho hu => exact ⟨fs, sdp, s, ho, _, hu⟩
  | notFound fs sdp s user ho hu => exact ⟨fs, sdp, s, ho, user, hu⟩

theorem iff_of_opens {fs : List SipAudioFormat} {sdp : SessionDescription} {s : SipSession}
    {user : Str} (ho : Opens env w r fs sdp s) (hu : s.calledUser = .ok user) :
    Grants env w r code ↔
      code = if user = w.handler.localSipProfile.userName then 180 else 404 := by
  have same : ∀ {fs' sdp' s' user'}, Opens env w r fs' sdp' s' → s'.calledUser = .ok user' →
      user' = user := by
    intro fs' sdp' s' user' ho' hu'
    obtain rfl : s = s' := Except.ok.inj (ho.session.symm.trans ho'.session)
    exact Except.ok.inj (hu'.symm.trans hu)
  constructor
  · intro hg
    cases hg with
    | busy hn => exact absurd ho.free hn
    | rings _ _ _ ho' hu' => rw [if_pos (same ho' hu').symm]
    | notFound _ _ _ _ ho' hu' hn => rw [if_neg (same ho' hu' ▸ hn)]
  · rintro rfl
    split_ifs with hl
    · exact .rings fs sdp s ho (hl ▸ hu)
    · exact .notFound fs sdp s user ho hu hl

end Grants

theorem responses_of_out {t : ServerTransaction} {reply : Reply} (os : List Output)
    (ho : w.out = .response t reply :: os) (hn : ∀ t r, Output.response t r ∉ os) :
    w.responses = [(t, reply)] := by
  rw [World.responses, ho, List.filterMap_cons]
  refine congrArg ((t, reply) :: ·) (List.filterMap_eq_nil_iff.2 fun o hmem => ?_)
  cases o with
  | response t r => exact absurd hmem (hn t r)
  | _ => rfl

/-- A step that has sent one response, and what it takes for it to be another. -/
theorem repliesOnly_iff {t : ServerTransaction} {reply : Reply}
    (h : w.responses = [(t, reply)]) :
    RepliesOnly w code r ↔ reply = { status := code, request := r } := by
  constructor
  · rintro ⟨t', ht⟩
    rw [h] at ht
    simp only [List.cons.injEq, Prod.mk.injEq, and_true] at ht
    exact ht.2
  · rintro rfl
    exact ⟨t, h⟩

theorem not_repliesOnly (h : ∀ t r, Output.response t r ∉ w.out) : ¬ RepliesOnly w code r := by
  rintro ⟨t, ht⟩
  have hmem := mem_responses.1 (ht ▸ List.mem_singleton_self _)
  exact h _ _ hmem

/-- The client answers an INVITE, once and with the code that is due, exactly when it can reply
    and grants one. -/
theorem Invited.repliesOnly_iff (hb : ∀ q, w.service.currentRequest = some q → q ≠ r)
    (hout : w.out = []) (hi : Invited env w r w') :
    RepliesOnly w' code r ↔ w.CanReply env ∧ Grants env w r code := by
  have silent : ∀ {w₁ : World}, w₁.out = w.out ++ [.status .error none] →
      ¬ (w.CanReply env ∧ Grants env w r code) →
      (RepliesOnly w₁ code r ↔ w.CanReply env ∧ Grants env w r code) := fun h hn =>
    iff_of_false (not_repliesOnly (by simp [h, hout])) hn
  have closed : w.service.currentSession = none → (∀ fs sdp s, Opens env w r fs sdp s →
      ∀ user, s.calledUser ≠ .ok user) → ¬ (w.CanReply env ∧ Grants env w r code) := by
    rintro hs hn ⟨-, hg⟩
    obtain ⟨fs, sdp, s, ho, user, hu⟩ := hg.opens hs
    exact hn fs sdp s ho user hu
  have replied : ∀ {w₁ : World} (c : ℕ) (os : List Output), w₁.out =
      w.out ++ .response (w.transactionFor r) { status := c, request := r } :: os →
      (∀ t r, Output.response t r ∉ os) → w.CanReply env → (Grants env w r code ↔ code = c) →
      (RepliesOnly w₁ code r ↔ w.CanReply env ∧ Grants env w r code) := by
    intro w₁ c os ho hn hr hg
    rw [JaySip.repliesOnly_iff (responses_of_out os (by rw [ho, hout]; rfl) hn), hg]
    exact ⟨fun he => ⟨hr, (Reply.mk.inj he).1.symm⟩, fun he => by rw [he.2]⟩
  cases hi with
  | busy hs hr => exact replied 486 [] (by simp) (by simp) hr (Grants.iff_of_session hs)
  | busyFailed w₁ hs hr hw =>
    exact silent (by rcases hw with rfl | rfl <;> simp) fun h => hr h.1
  | unread fs hs ha =>
    refine silent (by simp) (closed hs fun fs sdp s ho => ?_)
    obtain ⟨e, he⟩ := ha ho.describes
    exact absurd (he.symm.trans ho.answer) (by simp)
  | declined q hs _ ha hq hr =>
    refine iff_of_false ?_ (closed hs fun fs sdp s ho => ?_)
    · have ho : ((w.setSdp none).replied { status := 603, request := q }).out =
          [.response (w.transactionFor q) { status := 603, request := q }] := by
        simp [hout, World.transactionFor]
      rw [JaySip.repliesOnly_iff (responses_of_out [] ho (by simp))]
      exact fun he => hb q hq (Reply.mk.inj he).2.1
    · exact absurd (ha.symm.trans ho.answer) (by simp)
  | declineFailed w₁ hs _ ha _ hw =>
    refine silent (by rcases hw with rfl | ⟨q, _, rfl⟩ <;> simp) (closed hs fun fs sdp s ho => ?_)
    exact absurd (ha.symm.trans ho.answer) (by simp)
  | noSession fs sdp e hs _ _ he =>
    refine silent (by simp) (closed hs fun fs sdp s ho => ?_)
    exact absurd (he.symm.trans ho.session) (by simp)
  | noUser fs sdp s e ho hu =>
    refine silent (by simp) (closed ho.free fun fs' sdp' s' ho' user hu' => ?_)
    obtain rfl : s = s' := Except.ok.inj (ho.session.symm.trans ho'.session)
    exact absurd (hu.symm.trans hu') (by simp)
  | notFound fs sdp s user ho hu hn hr =>
    exact replied 404 [] (by simp [World.transactionFor]) (by simp) hr
      (by rw [Grants.iff_of_opens ho hu, if_neg hn])
  | notFoundFailed fs sdp s user w₁ _ _ _ hr hw =>
    exact silent (by rcases hw with rfl | rfl <;> simp) fun h => hr h.1
  | rang fs sdp s number ho hu hr =>
    exact replied 180 [.status .incoming (some number), .status .incoming (some number)]
      (by simp [World.transactionFor]) (by simp) hr (by rw [Grants.iff_of_opens ho hu, if_pos rfl])
  | rangError fs sdp s e ho hu hr =>
    exact replied 180 [.status .error none] (by simp [World.transactionFor]) (by simp) hr
      (by rw [Grants.iff_of_opens ho hu, if_pos rfl])
  | ringFailed fs sdp s w₁ _ _ hr hw =>
    exact silent (by rcases hw with rfl | rfl <;> simp) fun h => hr h.1

theorem step_invited (hm : ev.message.method = .invite) :
    Invited env w.quiet.tick (w.received ev) (step w ⟨env, .request ev⟩) := by
  have hr : Receives env w.quiet ev (step w ⟨env, .request ev⟩) := step_received
  generalize step w ⟨env, .request ev⟩ = w' at hr ⊢
  cases hr with
  | invite _ _ hi => exact hi
  | cancel he => simp [hm] at he
  | ack _ he => simp [hm] at he
  | bye _ he => simp [hm] at he
  | other he => exact absurd hm he

theorem opens_quiet {fs : List SipAudioFormat} {sdp : SessionDescription} {s : SipSession} :
    Opens env w.quiet.tick r fs sdp s ↔ Opens env w r fs sdp s :=
  ⟨fun ⟨h1, h2, h3, h4⟩ => ⟨h1, h2, h3, h4⟩, fun ⟨h1, h2, h3, h4⟩ => ⟨h1, h2, h3, h4⟩⟩

theorem grants_quiet : Grants env w.quiet.tick r code ↔ Grants env w r code := by
  constructor
  · intro hg
    cases hg with
    | busy hs => exact .busy hs
    | rings fs sdp s ho hu => exact .rings fs sdp s (opens_quiet.1 ho) hu
    | notFound fs sdp s user ho hu hn => exact .notFound fs sdp s user (opens_quiet.1 ho) hu hn
  · intro hg
    cases hg with
    | busy hs => exact .busy hs
    | rings fs sdp s ho hu => exact .rings fs sdp s (opens_quiet.2 ho) hu
    | notFound fs sdp s user ho hu hn => exact .notFound fs sdp s user (opens_quiet.2 ho) hu hn

/-- The request that the client holds is not the one that arrives. -/
theorem Bounded.other (h : Bounded w) :
    ∀ q, w.quiet.tick.service.currentRequest = some q → q ≠ w.received ev := by
  rintro q hq rfl
  exact lt_irrefl _ (h.request _ hq)

theorem step_repliesOnly_iff (h : Bounded w) (hm : ev.message.method = .invite) :
    RepliesOnly (step w ⟨env, .request ev⟩) code (w.received ev) ↔
      w.CanReply env ∧ Grants env w (w.received ev) code := by
  rw [(step_invited hm).repliesOnly_iff h.other rfl, grants_quiet]
  rfl

/-! ## One call at a time -/

/-- The response is a final one to `q`. -/
def Finishes (st : ClientStep) (q : SipRequest) : Prop :=
  ∃ ev, st.input.action = .response ev ∧ 200 ≤ ev.response.status ∧ ev.response.Answers q

/-- The step sends the CANCEL of `q`. -/
def Cancels (st : ClientStep) (q : SipRequest) : Prop :=
  ∃ t, Output.cancel t ∈ st.post.out ∧ t.request = q

/-- The INVITE `q` has been sent, and has neither got a final response nor been cancelled. -/
def Pending (h : List ClientStep) (q : SipRequest) : Prop :=
  ∃ h₁ st h₂, h = h₁ ++ st :: h₂ ∧ Sends st q ∧ q.method = .invite ∧
    ∀ st' ∈ h₂, ¬ Finishes st' q ∧ ¬ Cancels st' q

/-- The INVITE is answered busy, and the client goes on with what it did. -/
structure Refuses (w w' : World) (r : Request) : Prop where
  busy : RepliesOnly w' 486 r
  state : w'.service.currentState = w.service.currentState
  session : w'.service.currentSession = w.service.currentSession
  contact : w'.service.currentContact = w.service.currentContact
  request : w'.service.currentRequest = w.service.currentRequest

theorem refuses_iff (h : Bounded w) (hm : ev.message.method = .invite) :
    Refuses w (step w ⟨env, .request ev⟩) (w.received ev) ↔
      w.service.currentSession ≠ none ∧ w.CanReply env := by
  constructor
  · intro hr
    obtain ⟨hc, hg⟩ := (step_repliesOnly_iff h hm).1 hr.busy
    refine ⟨fun hs => ?_, hc⟩
    obtain ⟨fs, sdp, s, ho, user, hu⟩ := hg.opens hs
    rw [Grants.iff_of_opens ho hu] at hg
    split_ifs at hg <;> simp at hg
  · rintro ⟨hs, hc⟩
    have hb := (step_repliesOnly_iff h hm).2 ⟨hc, .busy hs⟩
    have hi : Invited env w.quiet.tick (w.received ev) (step w ⟨env, .request ev⟩) :=
      step_invited hm
    rcases hi.of_session (w := w.quiet.tick) hs with ⟨-, he⟩ | ⟨hn, -⟩
    · rw [he] at hb ⊢
      exact ⟨hb, by simp, by simp, by simp, by simp⟩
    · exact absurd hc hn

/-- While an INVITE of this client is pending, one that arrives is refused. -/
def OneCall (h : List ClientStep) (st : ClientStep) : Prop :=
  ∀ q, Pending h q → ∀ ev, st.input.action = .request ev → ev.message.method = .invite →
    Refuses st.pre st.post (st.pre.received ev)

/-- While an INVITE of this client is pending, one that arrives finds a session, and the stack
    takes the 486. -/
def Engaged (h : List ClientStep) (st : ClientStep) : Prop :=
  ∀ q, Pending h q → ∀ ev, st.input.action = .request ev → ev.message.method = .invite →
    st.pre.service.currentSession ≠ none ∧ st.pre.CanReply st.input.env

/-- **An INVITE that arrives while another is pending is refused, in exactly the runs where each
    of them finds a session.** -/
theorem oneCall_along_iff {s₀ : World} (h₀ : client.init s₀) (is : List Input) :
    client.Along s₀ is OneCall ↔ client.Along s₀ is Engaged := by
  refine client.along_congr (I := fun _ w => Bounded w) (bounded ⟨s₀, [], h₀, rfl⟩)
    (fun _ _ i hb => hb.step i) (fun h w i hb => ?_) is
  obtain ⟨env, action⟩ := i
  refine forall_congr' fun q => forall_congr' fun _ => forall_congr' fun ev =>
    forall_congr' fun ha => forall_congr' fun hm => ?_
  obtain rfl : action = .request ev := ha
  exact refuses_iff hb hm

/-- Alice has called Bob and then Carol, and Bob's late answer gives her a session. -/
def Trace.lateAnswer : List Input :=
  callToCarol ++ [response 200 .invite 0 (some (audio "0".toList))]

/-- A third caller is refused while Carol's phone rings. -/
theorem oneCall_along_late : client.Along Trace.idle
    (Trace.lateAnswer ++ [Trace.invite 5 "alice".toList "0".toList]) OneCall := by
  rw [oneCall_along_iff Trace.idle_init, client.along_snoc, Trace.lateAnswer, client.along_snoc,
    Trace.callToCarol, client.along_snoc]
  refine ⟨⟨⟨client.along_cons.2 ⟨?_, client.along_nil _ _⟩, ?_⟩, ?_⟩, ?_⟩
  · rintro _ _ _ ⟨⟩
  · rintro _ _ _ ⟨⟩
  · rintro _ _ _ ⟨⟩
  · exact fun _ _ _ _ _ => ⟨by decide, Trace.calm_succeeds.canReply⟩

/-- An INVITE that arrives before Bob answers rings, and takes the place of Alice's call. -/
theorem invite_interrupts : ¬ ∀ s₀, client.init s₀ → ∀ is, client.Along s₀ is OneCall := by
  intro h
  have hrun := h _ Trace.idle_init
    (Trace.callToBob ++ [Trace.invite 5 "alice".toList "0".toList])
  have hq : ∃ q ∈ (client.run Trace.idle Trace.callToBob).requests, q.method = .invite := by
    decide
  obtain ⟨q, hq, hm⟩ := hq
  have hr := (client.along_snoc.1 hrun).2 q ⟨[], _, [], rfl, hq, hm, by simp⟩ _ rfl rfl
  exact absurd hr.state (by decide)

/-! ## Rejected INVITEs -/

/-- An INVITE for the local user, with a common codec, that the client can read. -/
structure WellFormed (env : Env) (w : World) (ev : RequestEvent) : Prop where
  method : ev.message.method = .invite
  succeeds : env.Succeeds
  answer : ∃ fs sdp, w.handler.answer (w.received ev) = .ok (some (fs, sdp))
  session : ∃ s, (w.received ev).session env.getByName = .ok s ∧
    s.calledUser = .ok w.handler.localSipProfile.userName

/-- The session and the request are what they were, and the next good INVITE rings. -/
structure StaysFree (w w' : World) : Prop where
  session : w'.service.currentSession = w.service.currentSession
  request : w'.service.currentRequest = w.service.currentRequest
  rings : ∀ env ev, WellFormed env w' ev →
    RepliesOnly (step w' ⟨env, .request ev⟩) 180 (w'.received ev)

/-- A free client rings for a good INVITE. -/
theorem WellFormed.rings (hw : WellFormed env w ev) (hb : Bounded w)
    (hs : w.service.currentSession = none) :
    RepliesOnly (step w ⟨env, .request ev⟩) 180 (w.received ev) := by
  obtain ⟨fs, sdp, ha⟩ := hw.answer
  obtain ⟨s, hses, hu⟩ := hw.session
  refine (step_repliesOnly_iff hb hw.method).2 ⟨hw.succeeds.canReply, ?_⟩
  exact .rings fs sdp s ⟨hs, hw.succeeds _, ha, hses⟩ hu

/-- An INVITE that does not ring leaves the session and the request alone, unless a session
    was made of it. -/
theorem Invited.kept_iff (hs : w.service.currentSession = none)
    (hn : ¬ (w.CanReply env ∧ Grants env w r 180)) (hi : Invited env w r w') :
    (w'.service.currentSession = none ∧
        w'.service.currentRequest = w.service.currentRequest) ↔
      ¬ ∃ fs sdp s, Opens env w r fs sdp s := by
  have opened : ∀ {fs sdp s}, Opens env w r fs sdp s → w'.service.currentSession ≠ none →
      ((w'.service.currentSession = none ∧
        w'.service.currentRequest = w.service.currentRequest) ↔
      ¬ ∃ fs sdp s, Opens env w r fs sdp s) := fun ho hne =>
    iff_of_false (fun h => hne h.1) fun h => h ⟨_, _, _, ho⟩
  cases hi with
  | busy hne => exact absurd hs hne
  | busyFailed _ hne => exact absurd hs hne
  | unread fs _ ha =>
    refine iff_of_true ⟨by simpa using hs, by simp⟩ ?_
    rintro ⟨_, _, _, ho⟩
    obtain ⟨e, he⟩ := ha ho.describes
    exact absurd (he.symm.trans ho.answer) (by simp)
  | declined q _ _ ha =>
    refine iff_of_true ⟨by simpa using hs, by simp⟩ ?_
    rintro ⟨_, _, _, ho⟩
    exact absurd (ha.symm.trans ho.answer) (by simp)
  | declineFailed w₁ _ _ ha _ hw =>
    refine iff_of_true ?_ ?_
    · rcases hw with rfl | ⟨q, _, rfl⟩ <;> simpa using hs
    · rintro ⟨_, _, _, ho⟩
      exact absurd (ha.symm.trans ho.answer) (by simp)
  | noSession fs sdp e _ _ _ he =>
    refine iff_of_true ⟨by simpa using hs, by simp⟩ ?_
    rintro ⟨_, _, _, ho⟩
    exact absurd (he.symm.trans ho.session) (by simp)
  | noUser fs sdp s e ho => exact opened ho (by simp)
  | notFound fs sdp s user ho => exact opened ho (by simp)
  | notFoundFailed fs sdp s user w₁ ho _ _ _ hw =>
    exact opened ho (by rcases hw with rfl | rfl <;> simp)
  | rang fs sdp s number ho hu hr => exact absurd ⟨hr, .rings fs sdp s ho hu⟩ hn
  | rangError fs sdp s e ho hu hr => exact absurd ⟨hr, .rings fs sdp s ho hu⟩ hn
  | ringFailed fs sdp s w₁ ho _ _ hw =>
    exact opened ho (by rcases hw with rfl | rfl <;> simp)

/-- **An INVITE that does not ring leaves a free client free exactly when no session can be made
    of it.** -/
theorem staysFree_iff (h : client.Reachable w) (hs : w.service.currentSession = none)
    (hm : ev.message.method = .invite)
    (hn : ¬ RepliesOnly (step w ⟨env, .request ev⟩) 180 (w.received ev)) :
    StaysFree w (step w ⟨env, .request ev⟩) ↔
      ¬ ∃ fs sdp s, Opens env w (w.received ev) fs sdp s := by
  have hb := bounded h
  have hn' : ¬ (w.CanReply env ∧ Grants env w.quiet.tick (w.received ev) 180) := by
    rwa [grants_quiet, ← step_repliesOnly_iff hb hm]
  have hi : Invited env w.quiet.tick (w.received ev) (step w ⟨env, .request ev⟩) :=
    step_invited hm
  have hk := hi.kept_iff (w := w.quiet.tick) hs hn'
  simp only [opens_quiet] at hk
  rw [← hk]
  constructor
  · exact fun hf => ⟨hf.session.trans hs, hf.request⟩
  · rintro ⟨hs', hq⟩
    exact ⟨hs'.trans hs.symm, hq, fun env' ev' hw => hw.rings (hb.step _) hs'⟩

/-- Without a common codec Alice's client stays free. -/
theorem staysFree_iff_codec : StaysFree Trace.idle
    (step Trace.idle (Trace.invite 5 "alice".toList "8".toList)) := by
  have hn : ¬ RepliesOnly (step Trace.idle (Trace.invite 5 "alice".toList "8".toList)) 180
      (Trace.idle.received (Trace.offer 5 "alice".toList "8".toList)) := by
    rintro ⟨t, ht⟩
    have hnone : (step Trace.idle (Trace.invite 5 "alice".toList "8".toList)).responses = [] := by
      decide
    rw [hnone] at ht
    cases ht
  refine (staysFree_iff ⟨_, [], Trace.idle_init, rfl⟩ rfl rfl hn).2 ?_
  rintro ⟨fs, sdp, s, ho⟩
  have ha : Trace.idle.handler.answer (Trace.idle.received
      (Trace.offer 5 "alice".toList "8".toList)) = .ok none := by
    rfl
  exact absurd (ha.symm.trans ho.answer) (by simp)

/-- An INVITE for Carol is answered 404, and its session stays. -/
theorem wrong_user_occupies : ¬ ∀ w, client.Reachable w → w.service.currentSession = none →
    ∀ env ev, ev.message.method = .invite →
      ¬ RepliesOnly (step w ⟨env, .request ev⟩) 180 (w.received ev) →
      StaysFree w (step w ⟨env, .request ev⟩) := by
  intro h
  have hf := h Trace.idle ⟨_, [], Trace.idle_init, rfl⟩ rfl Trace.calm
    (Trace.offer 5 "carol".toList "0".toList) rfl
    (by
      rintro ⟨t, ht⟩
      have hcodes : (step Trace.idle (Trace.invite 5 "carol".toList "0".toList)).responses.map
          (·.2.status) = [404] := by
        decide
      exact absurd (hcodes.symm.trans (congrArg (List.map (·.2.status)) ht)) (by simp))
  exact absurd hf.session (by decide)

end JaySip
