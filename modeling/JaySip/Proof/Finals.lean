/-
  Final responses: how often each incoming INVITE gets one.
-/
import JaySip.Proof.Coherence
import JaySip.Proof.Incoming

namespace JaySip

open Java

variable {env : Env} {w w' : World} {i : Input} {h : List ClientStep} {q r : Request}

/-- The final responses of a step to the request. -/
def World.finals (w : World) (r : Request) : List Reply :=
  (w.responses.map (·.2)).filter fun rep => rep.request = r ∧ 200 ≤ rep.status

/-- The final responses of a history to the request. -/
def finals (h : List ClientStep) (r : Request) : List Reply := h.flatMap (·.post.finals r)

/-- No INVITE has got two final responses. -/
def OneFinal (h : List ClientStep) (st : ClientStep) : Prop :=
  ∀ r, r.method = .invite → (finals (h ++ [st]) r).length ≤ 1

theorem finals_snoc {st : ClientStep} :
    finals (h ++ [st]) r = finals h r ++ st.post.finals r := by
  simp [finals]

theorem finals_eq_nil (ho : ∀ t rep, Output.response t rep ∈ w.out → rep.request = r →
    rep.status < 200) : w.finals r = [] := by
  rw [World.finals, List.filter_eq_nil_iff]
  intro rep hrep
  obtain ⟨⟨t, rep'⟩, hp, rfl⟩ := List.mem_map.1 hrep
  have hs := ho t rep' (mem_responses.1 hp)
  rw [decide_eq_true_eq]
  rintro ⟨hq, hn⟩
  exact absurd hn (hs hq).not_ge

/-- The final responses of a step with one response. -/
theorem finals_of_out {t : ServerTransaction} {reply : Reply} (os : List Output)
    (ho : w.out = .response t reply :: os) (hn : ∀ t r, Output.response t r ∉ os) :
    w.finals r = if reply.request = r ∧ 200 ≤ reply.status then [reply] else [] := by
  rw [World.finals, responses_of_out os ho hn]
  by_cases hc : reply.request = r ∧ 200 ≤ reply.status <;> simp [hc]

/-- The outputs of a step whose only one is a reply. -/
theorem replied_out_nil {reply : Reply} (h : w.out = []) :
    (w.replied reply).out = [.response (w.transactionFor reply.request) reply] := by
  rw [World.replied_out, h]
  rfl

/-! ## Accepting -/

/-- The stack takes the 200 of `acceptCall`. -/
def World.CanAccept (w : World) (env : Env) : Prop :=
  w.CanReply env ∧ env.fails .createContact = none ∧ env.fails .createDescription = none

/-- `acceptCall` sends one 200 with the answer to the held request, or throws when the stack
    does not take it. -/
theorem wp_acceptCall {fs : List SipAudioFormat} {sdp : SessionDescription}
    (hq : w.service.currentRequest = some q) (ha : w.handler.answer q = .ok (some (fs, sdp))) :
    wp (acceptCall env)
      (fun _ w' => w.CanAccept env ∧ w'.out = w.out ++ [.response (w.transactionFor q)
        ⟨200, q, some (w.handler.contactHeader (some 3600)), some sdp⟩])
      (fun _ w' => ¬ w.CanAccept env ∧ w'.out = w.out) w := by
  rw [acceptCall, wp_bind, wp_get, hq]
  simp only [sendOK, createResponse, nonNull_some, wp_bind, wp_lift_ok, wp_call, wp_pure, wp_get]
  refine ⟨fun h₁ => ⟨fun h₂ => ?_, fun e h₂ => ⟨?_, trivial⟩⟩, fun e h₁ => ⟨?_, trivial⟩⟩
  · refine wp_mono wp_createAnswer ?_ ?_
    · rintro d _ ⟨h₃, ⟨rfl, ha', -⟩ | ⟨fs', sdp', rfl, ha', rfl⟩⟩
      · exact absurd (ha.symm.trans ha') (by simp)
      obtain ⟨rfl, rfl⟩ : fs = fs' ∧ sdp = sdp' := by simpa using ha.symm.trans ha'
      simp only [nonNull_some, wp_bind, wp_lift_ok, wp_cachedTransaction, wp_sendResponse]
      refine ⟨fun h₄ => ⟨fun h₅ => ?_, fun e h₅ => ⟨?_, by simp⟩⟩, fun hn e h₄ => ⟨?_, rfl⟩⟩
      · refine ⟨⟨⟨h₁, h₄, h₅⟩, h₂, h₃⟩, ?_⟩
        rw [World.emit_out, World.cached_out]
        rfl
      · exact fun hc => by simp [hc.1.2.2] at h₅
      · exact fun hc => by simp [hc.1.2.1 hn] at h₄
    · rintro e _ ⟨ha', fs', rfl⟩
      refine ⟨fun hc => ?_, rfl⟩
      obtain ⟨e', he⟩ := ha' hc.2.2
      exact absurd (ha.symm.trans he) (by simp)
  · exact fun hc => by simp [hc.2.1] at h₂
  · exact fun hc => by simp [hc.1.1] at h₁

/-- `declineCall` sends one 603 to the held request, or throws when the stack does not take
    it. -/
theorem wp_declineCall (hq : w.service.currentRequest = some q) :
    wp (declineCall env)
      (fun _ w' => w.CanReply env ∧ w'.out =
        w.out ++ [.response (w.transactionFor q) { status := 603, request := q }])
      (fun _ w' => ¬ w.CanReply env ∧ w'.out = w.out) w := by
  rw [declineCall, wp_bind, wp_get, hq]
  refine wp_mono wp_reply ?_ ?_
  · rintro - _ ⟨_, ⟨⟩, hr, rfl⟩
    exact ⟨hr, by simp⟩
  · rintro - _ ⟨hr, hw⟩
    refine ⟨hr (by simp), ?_⟩
    rcases hw with rfl | ⟨_, -, rfl⟩ <;> simp

/-- No answer is made exactly when the offer can be read and has no common codec. -/
theorem answer_none_iff {h : SipMessageHandler} : h.answer r = .ok none ↔
    ∃ o, readOffer r = .ok o ∧ negotiate h.localSipProfile o.sdpSession = .ok [] := by
  rw [SipMessageHandler.answer]
  cases readOffer r with
  | error e => simp
  | ok o =>
    rw [ok_bind]
    cases hn : negotiate h.localSipProfile o.sdpSession with
    | error e => simp [hn]
    | ok codecs =>
      rw [ok_bind]
      by_cases hc : codecs = []
      · subst hc
        exact iff_of_true rfl ⟨o, rfl, hn⟩
      · rw [if_neg hc]
        refine iff_of_false ?_ ?_
        · cases getSipAudioFormatsList codecs with
          | error e => simp
          | ok formats =>
            rw [ok_bind]
            cases h.answerWith o codecs formats with
            | error e => simp
            | ok d =>
              intro he
              cases he
        · rintro ⟨o', ho, hn'⟩
          cases ho
          exact hc (Except.ok.inj (hn.symm.trans hn'))

/-! ## Held requests -/

/-- The held request is an INVITE that can be answered. -/
def Answerable (w : World) : Prop := ∀ q, w.service.currentRequest = some q →
  q.method = .invite ∧ ∃ fs sdp, w.handler.answer q = .ok (some (fs, sdp))

theorem Answerable.step (ha : Answerable w) (i : Input) : Answerable (JaySip.step w i) := by
  intro q hq
  have hl := SameLocal.step w i
  rcases step_request hq with hq | ⟨ev, hi, hm, hr⟩
  · obtain ⟨hm, fs, sdp, hans⟩ := ha q hq
    exact ⟨hm, fs, sdp, (hl.answer q).trans hans⟩
  obtain rfl : q = w.received ev := hr
  refine ⟨hm, ?_⟩
  rw [hl.answer]
  obtain ⟨env, action⟩ := i
  obtain rfl : action = .request ev := hi
  have held : w.service.currentRequest = some (w.received ev) →
      ∃ fs sdp, w.handler.answer (w.received ev) = .ok (some (fs, sdp)) :=
    fun hq => (ha _ hq).2
  have hinv : Invited env w.quiet.tick (w.received ev) (JaySip.step w ⟨env, .request ev⟩) :=
    step_invited hm
  generalize JaySip.step w ⟨env, .request ev⟩ = w' at hinv hq
  cases hinv with
  | busyFailed _ _ _ hw => rcases hw with rfl | rfl <;> exact held (by simpa using hq)
  | declineFailed _ _ _ _ _ hw =>
    rcases hw with rfl | ⟨_, _, rfl⟩ <;> exact held (by simpa using hq)
  | noUser _ _ _ _ ho => exact ⟨_, _, ho.answer⟩
  | notFound _ _ _ _ ho => exact ⟨_, _, ho.answer⟩
  | notFoundFailed _ _ _ _ _ ho => exact ⟨_, _, ho.answer⟩
  | rang _ _ _ _ ho => exact ⟨_, _, ho.answer⟩
  | rangError _ _ _ _ ho => exact ⟨_, _, ho.answer⟩
  | ringFailed _ _ _ _ ho => exact ⟨_, _, ho.answer⟩
  | _ => exact held (by simpa using hq)

/-! ## The final responses of a step -/

/-- The step answers the held request for good: the user accepts or declines it, or an INVITE
    without a common codec arrives while there is no session; and the stack takes it. -/
def Settles (w : World) (i : Input) (q : Request) : Prop :=
  w.service.currentRequest = some q ∧ w.CanReply i.env ∧
    match i.action with
    | .acceptCall => i.env.fails .createContact = none ∧ i.env.fails .createDescription = none
    | .declineCall => True
    | .request ev => ev.message.method = .invite ∧ w.service.currentSession = none ∧
        i.env.fails .createDescription = none ∧ ∃ o, readOffer (w.received ev) = .ok o ∧
          negotiate w.handler.localSipProfile o.sdpSession = .ok []
    | _ => False

/-- What a step does for an INVITE `r`: one final response if it settles it, and else none, or
    one to a new INVITE that is not held afterwards. -/
structure FinalsOf (w : World) (i : Input) (w' : World) (r : Request) : Prop where
  settles : Settles w i r → (w'.finals r).length = 1
  other : ¬ Settles w i r → w'.finals r = [] ∨
    (r.id = w.fresh ∧ w.fresh < w'.fresh ∧ (w'.finals r).length = 1 ∧
      w'.service.currentRequest ≠ some r)

namespace FinalsOf

/-- Steps that send `r` no final response. -/
theorem silent (ho : ∀ t rep, Output.response t rep ∈ w'.out → rep.request = r →
    rep.status < 200) (hn : ¬ Settles w i r) : FinalsOf w i w' r :=
  ⟨fun hs => absurd hs hn, fun _ => Or.inl (finals_eq_nil ho)⟩

theorem aside (ha : Aside w.quiet w') (hn : ¬ Settles w i r) : FinalsOf w i w' r :=
  silent (fun t rep ho => absurd (ha.responses t rep ho) (by simp)) hn

/-- Steps with one final response to the held request `q`. -/
theorem replies {t : ServerTransaction} {reply : Reply} (ho : w'.out = [.response t reply])
    (hs : Settles w i reply.request) (hf : 200 ≤ reply.status) : FinalsOf w i w' r := by
  have hfin := finals_of_out (r := r) [] ho (by simp)
  by_cases hr : reply.request = r
  · rw [if_pos ⟨hr, hf⟩] at hfin
    exact ⟨fun _ => by rw [hfin]; rfl, fun hn => absurd (hr ▸ hs) hn⟩
  · rw [if_neg (fun hc => hr hc.1)] at hfin
    refine ⟨fun hs' => ?_, fun _ => Or.inl hfin⟩
    exact absurd (Option.some.inj (hs.1.symm.trans hs'.1)) hr

theorem accepts (ha : Answerable w) :
    FinalsOf w ⟨env, .acceptCall⟩ (JaySip.step w ⟨env, .acceptCall⟩) r := by
  cases hq : w.service.currentRequest with
  | none =>
    have hst := stepped w ⟨env, .acceptCall⟩
    generalize JaySip.step w ⟨env, .acceptCall⟩ = w' at hst
    cases hst with
    | acceptCall _ _ hacc =>
      refine silent ?_ fun hs => absurd (hq.symm.trans hs.1) (by simp)
      cases hacc with
      | idle => simp
      | accepted _ _ _ hr => exact absurd (hq.symm.trans hr) (by simp)
      | failed _ _ hr => exact absurd (hq.symm.trans hr) (by simp)
      | failedCached _ _ hr => exact absurd (hq.symm.trans hr) (by simp)
  | some q =>
    obtain ⟨-, fs, sdp, hans⟩ := ha q hq
    refine (wp_after (P := fun w' => FinalsOf w _ w' r)).1
      (wp_mono (wp_acceptCall (w := w.quiet) hq hans) ?_ ?_)
    · rintro - w' ⟨hc, ho⟩
      exact replies ho ⟨hq, hc⟩ (by simp)
    · rintro - w' ⟨hc, ho⟩
      exact silent (by simp [ho]) fun hs => hc hs.2

theorem declines : FinalsOf w ⟨env, .declineCall⟩ (JaySip.step w ⟨env, .declineCall⟩) r := by
  cases hq : w.service.currentRequest with
  | none =>
    have hst := stepped w ⟨env, .declineCall⟩
    generalize JaySip.step w ⟨env, .declineCall⟩ = w' at hst
    cases hst with
    | declineCall _ _ hd =>
      refine silent ?_ fun hs => absurd (hq.symm.trans hs.1) (by simp)
      cases hd with
      | idle => simp
      | failed => simp
      | declined _ hr => exact absurd (hq.symm.trans hr) (by simp)
  | some q =>
    refine (wp_after (P := fun w' => FinalsOf w _ w' r)).1
      (wp_mono (wp_declineCall (w := w.quiet) hq) ?_ ?_)
    · rintro - w' ⟨hc, ho⟩
      exact replies ho ⟨hq, hc, trivial⟩ (by simp)
    · rintro - w' ⟨hc, ho⟩
      exact silent (by simp [ho]) fun hs => hc hs.2.1

theorem invited {ev : RequestEvent} (hb : Bounded w) (hm : ev.message.method = .invite)
    (hi : Invited env w.quiet.tick (w.received ev) w') :
    FinalsOf w ⟨env, .request ev⟩ w' r := by
  -- a final response to the new INVITE, which is not held
  have fresh : ∀ {t reply}, w'.out = [.response t reply] → reply.request = w.received ev →
      200 ≤ reply.status → w'.service.currentRequest = w.service.currentRequest →
      ¬ Settles w ⟨env, .request ev⟩ r → FinalsOf w ⟨env, .request ev⟩ w' r := by
    intro t reply ho hreq hf hcur hn
    have hfin := finals_of_out (r := r) [] ho (by simp)
    refine ⟨fun hs => absurd hs hn, fun _ => ?_⟩
    by_cases hr : reply.request = r
    · rw [if_pos ⟨hr, hf⟩] at hfin
      refine Or.inr ⟨?_, hi.fresh_le, by rw [hfin]; rfl, fun hc => ?_⟩
      · rw [← hr, hreq]
        rfl
      · rw [hcur, ← hr, hreq] at hc
        exact lt_irrefl _ (hb.request _ hc)
    · rw [if_neg (fun hc => hr hc.1)] at hfin
      exact Or.inl hfin
  have answered : ∀ {x}, w.handler.answer (w.received ev) = .ok (some x) →
      ¬ Settles w ⟨env, .request ev⟩ r := by
    rintro x hx ⟨-, -, -, -, -, ho⟩
    exact absurd (hx.symm.trans (answer_none_iff.2 ho)) (by simp)
  cases hi with
  | busy hs => exact fresh (replied_out_nil rfl) rfl (by simp) (by simp) fun h => hs h.2.2.2.1
  | busyFailed _ hs _ hw =>
    refine silent ?_ fun h => hs h.2.2.2.1
    rcases hw with rfl | rfl <;> simp
  | unread fs hs ha =>
    refine silent (by simp) fun h => ?_
    obtain ⟨e, he⟩ := ha h.2.2.2.2.1
    exact absurd (he.symm.trans (answer_none_iff.2 h.2.2.2.2.2)) (by simp)
  | declined q hs hd ha hq hr =>
    exact replies (replied_out_nil rfl) ⟨hq, hr, hm, hs, hd, answer_none_iff.1 ha⟩ (by simp)
  | declineFailed _ hs hd ha hn hw =>
    refine silent ?_ fun h => hn (by simp [h.1]) h.2.1
    rcases hw with rfl | ⟨_, _, rfl⟩ <;> simp
  | noSession fs sdp e _ _ ha => exact silent (by simp) (answered ha)
  | noUser fs sdp s e ho => exact silent (by simp) (answered ho.answer)
  | notFound fs sdp s user ho =>
    exact fresh (replied_out_nil rfl) rfl (by simp) (by simp) (answered ho.answer)
  | notFoundFailed fs sdp s user _ ho _ _ _ hw =>
    refine silent ?_ (answered ho.answer)
    rcases hw with rfl | rfl <;> simp
  | rang fs sdp s number ho => exact silent (by simp) (answered ho.answer)
  | rangError fs sdp s e ho => exact silent (by simp) (answered ho.answer)
  | ringFailed fs sdp s _ ho _ _ hw =>
    refine silent ?_ (answered ho.answer)
    rcases hw with rfl | rfl <;> simp

theorem received {ev : RequestEvent} (hb : Bounded w) (hm : r.method = .invite)
    (hr : Receives env w.quiet ev w') : FinalsOf w ⟨env, .request ev⟩ w' r := by
  cases hr with
  | invite _ hi hinv => exact invited hb hi hinv
  | cancel hc => exact silent (by simp) fun hs => absurd (hc.symm.trans hs.2.2.1) (by simp)
  | ack _ hc ha =>
    refine silent ?_ fun hs => absurd (hc.symm.trans hs.2.2.1) (by simp)
    cases ha <;> simp
  | bye w₁ hc hy =>
    -- the 200 of a BYE answers the BYE
    refine silent (fun t rep ho hreq => ?_) fun hs => absurd (hc.symm.trans hs.2.2.1) (by simp)
    have hy' : Output.response t rep ∈ w₁.out := by
      simpa using ho
    rcases hy.reply hy' with ho' | hreq'
    · unfold World.byeTransaction at ho'
      split_ifs at ho' <;> simp at ho'
    · rw [← hreq, hreq'] at hm
      exact absurd (hm.symm.trans hc) (by simp)
  | other hc => exact silent (by simp) fun hs => hc hs.2.2.1

theorem step (hb : Bounded w) (ha : Answerable w) (hm : r.method = .invite) (i : Input) :
    FinalsOf w i (JaySip.step w i) r := by
  have hst := stepped w i
  generalize hw : JaySip.step w i = w' at hst
  cases hst with
  | register _ _ hr =>
    exact aside ⟨hr.aside.request, hr.aside.transaction, by simpa using hr.aside.responses⟩
      fun hs => hs.2.2
  | unregister _ _ hr =>
    exact aside ⟨hr.aside.request, hr.aside.transaction, by simpa using hr.aside.responses⟩
      fun hs => hs.2.2
  | sendInvite _ _ contact hi =>
    exact aside ⟨hi.aside.request, hi.aside.transaction, by simpa using hi.aside.responses⟩
      fun hs => hs.2.2
  | acceptCall => exact hw ▸ accepts ha
  | declineCall => exact hw ▸ declines
  | endCall _ _ he => exact aside he.aside fun hs => hs.2.2
  | reset => exact silent (by simp) fun hs => hs.2.2
  | request _ _ _ hr => exact received hb hm hr
  | response _ _ _ hr => exact aside hr.aside fun hs => hs.2.2

end FinalsOf

/-! ## Runs -/

/-- No earlier step has settled the request that this one settles. -/
def SettlesOnce (h : List ClientStep) (st : ClientStep) : Prop :=
  ∀ q, Settles st.pre st.input q → ∀ st' ∈ h, ¬ Settles st'.pre st'.input q

/-- The final responses so far: one at most to each INVITE, all of them to old requests, and to
    the held request exactly when a step has settled it. -/
structure Finalized (h : List ClientStep) (w : World) : Prop where
  bounded : Bounded w
  answerable : Answerable w
  old : ∀ r, r.method = .invite → finals h r ≠ [] → r.id < w.fresh
  settled : ∀ q, q.method = .invite → ∀ st ∈ h, Settles st.pre st.input q → finals h q ≠ []
  settles : ∀ q, w.service.currentRequest = some q → finals h q ≠ [] →
    ∃ st ∈ h, Settles st.pre st.input q
  one : ∀ r, r.method = .invite → (finals h r).length ≤ 1

namespace Finalized

theorem init (h₀ : client.init w) : Finalized [] w := by
  refine ⟨JaySip.bounded ⟨w, [], h₀, rfl⟩, ?_, by simp [finals], by simp, by simp [finals],
    by simp [finals]⟩
  obtain ⟨profile, localIPAddress, localSipPort, rfl⟩ := h₀
  exact fun q hq => nomatch hq

/-- One more step keeps the final responses to one exactly when it settles no request again. -/
theorem oneFinal_iff (hf : Finalized h w) (i : Input) :
    OneFinal h (client.stepOf w i) ↔ SettlesOnce h (client.stepOf w i) := by
  constructor
  · intro h₁ q hs st' hst' hs'
    have hm := (hf.answerable q hs.1).1
    have h₂ := h₁ q hm
    have hl : ((client.stepOf w i).post.finals q).length = 1 :=
      (FinalsOf.step hf.bounded hf.answerable hm i).settles hs
    rw [finals_snoc, List.length_append, hl] at h₂
    have h₃ := List.length_pos_iff.2 (hf.settled q hm st' hst' hs')
    omega
  · intro hc r hm
    have hs := FinalsOf.step hf.bounded hf.answerable hm i
    rw [finals_snoc, List.length_append]
    change (finals h r).length + ((step w i).finals r).length ≤ 1
    by_cases hr : Settles w i r
    · have hn : finals h r = [] := by
        by_contra hne
        obtain ⟨st', hst', hs'⟩ := hf.settles r hr.1 hne
        exact hc r hr st' hst' hs'
      rw [hn, hs.settles hr]
      rfl
    · rcases hs.other hr with hn | ⟨hid, -, hl, -⟩
      · rw [hn]
        exact hf.one r hm
      · have hn : finals h r = [] := by
          by_contra hne
          exact absurd (hf.old r hm hne) (by omega)
        rw [hn, hl]
        rfl

theorem step (hf : Finalized h w) (hc : SettlesOnce h (client.stepOf w i)) :
    Finalized (h ++ [client.stepOf w i]) (client.step w i) := by
  have hs : ∀ r, r.method = .invite → FinalsOf w i (JaySip.step w i) r :=
    fun r hm => FinalsOf.step hf.bounded hf.answerable hm i
  have hle : w.fresh ≤ (client.step w i).fresh := fresh_le_step w i
  refine ⟨hf.bounded.step i, hf.answerable.step i, fun r hm hne => ?_, fun q hm st hst hq => ?_,
    fun q hq hne => ?_, (oneFinal_iff hf i).2 hc⟩
  · rw [finals_snoc] at hne
    by_cases hs' : Settles w i r
    · exact (hf.bounded.request r hs'.1).trans_le hle
    rcases (hs r hm).other hs' with hn | ⟨hid, hlt, -⟩
    · have hold : finals h r ≠ [] := by
        intro he
        exact hne (by rw [he]; exact hn)
      exact (hf.old r hm hold).trans_le hle
    · rw [hid]
      exact hlt
  · rw [finals_snoc]
    intro he
    rw [List.append_eq_nil_iff] at he
    rcases List.mem_append.1 hst with hst | hst
    · exact hf.settled q hm st hst hq he.1
    · rw [List.mem_singleton.1 hst] at hq
      have hl := (hs q hm).settles hq
      rw [show (JaySip.step w i).finals q = [] from he.2] at hl
      cases hl
  · have hq' : (JaySip.step w i).service.currentRequest = some q := hq
    have hm : q.method = .invite := (hf.answerable.step i q hq').1
    by_cases hs' : Settles w i q
    · exact ⟨client.stepOf w i, by simp, hs'⟩
    rw [finals_snoc] at hne
    rcases (hs q hm).other hs' with hn | ⟨-, -, -, hc'⟩
    · have hold : finals h q ≠ [] := by
        intro he
        exact hne (by rw [he]; exact hn)
      -- a request that has been answered is no new one
      have hcur : w.service.currentRequest = some q := by
        rcases step_request hq' with hq' | ⟨ev, -, -, rfl⟩
        · exact hq'
        · exact absurd (hf.old _ hm hold) (lt_irrefl _)
      obtain ⟨st, hst, hs''⟩ := hf.settles q hcur hold
      exact ⟨st, by simp [hst], hs''⟩
    · exact absurd hq' hc'

end Finalized

/-- **Every INVITE gets one final response at most, in exactly the runs that settle no held
    request twice.** -/
theorem oneFinal_along_iff {s₀ : World} (h₀ : client.init s₀) (is : List Input) :
    client.Along s₀ is OneFinal ↔ client.Along s₀ is SettlesOnce :=
  client.along_iff (I := Finalized) (Finalized.init h₀) (fun _ _ _ hf hc => hf.step hc)
    (fun _ _ i hf => hf.oneFinal_iff i) is

/-- Bob's call, which Alice accepts. -/
theorem oneFinal_along_accepted : client.Along Trace.idle
    [Trace.invite 7 "alice".toList "0".toList, Trace.act .acceptCall] OneFinal := by
  rw [oneFinal_along_iff Trace.idle_init, client.along_cons, client.along_cons]
  refine ⟨fun _ _ _ hst => (nomatch hst), fun q _ st hst hs => ?_, client.along_nil _ _⟩
  rw [List.mem_singleton.1 hst] at hs
  exact nomatch hs.1

/-- Alice declines the call that she has accepted. -/
theorem declined_after_accepted : ¬ ∀ s₀, client.init s₀ → ∀ is, client.Along s₀ is OneFinal := by
  intro h
  have hrun := h _ Trace.idle_init
    ([Trace.invite 7 "alice".toList "0".toList, Trace.act .acceptCall] ++ [Trace.act .declineCall])
  have ho := (client.along_snoc.1 hrun).2
    (Trace.idle.received (Trace.offer 7 "alice".toList "0".toList)) rfl
  revert ho
  decide

end JaySip
