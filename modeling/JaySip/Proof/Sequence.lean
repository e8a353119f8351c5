/-
  CSeq numbers: when requests with one Call-ID are sent with growing numbers.
-/
import JaySip.Proof.Repeats

namespace JaySip

open Java

variable {env : Env} {w w' : World} {i : Input} {h : List ClientStep}

/-! ## Numbers -/

/-- The INVITEs and REGISTERs sent in the steps, oldest first. -/
def sentRequests (h : List ClientStep) : List SipRequest := h.flatMap (·.post.requests)

/-- Of two requests with one Call-ID the later one has the greater CSeq number. -/
def Increases (qs : List SipRequest) : Prop :=
  qs.Pairwise fun q q' => q.callId = q'.callId → q.cSeq < q'.cSeq

/-- The step repeats the INVITE of a call for a challenge. -/
def RepeatsInvite (w : World) (i : Input) : Prop := GetsInvite w i ∧ i.action.isLocal = false

/-- The step sees to it that the next INVITE has other numbers: it takes a new Call-ID or clears
    it, or it counts an ACK. -/
def Renews (w : World) (i : Input) : Prop :=
  match i.action with
  | .sendInvite _ => i.env.fails .createAddresses = none
  | .reset => True
  | .request ev => ev.message.method = .cancel ∨ ev.message.method = .bye
  | .response ev => (ev.response.status = 180 ∨ ev.response.status = 200) ∧
      ∃ d fs s, Joins i.env w ev d fs s
  | _ => False

/-- An INVITE was sent, and no step since then has renewed the numbers. -/
def Outstanding (h : List ClientStep) : Prop :=
  h.foldl (fun b st => GetsInvite st.pre st.input ∨ (b ∧ ¬ Renews st.pre st.input)) False

/-- An INVITE is repeated only if the numbers are renewed since the last one. -/
def RepeatsRenewed (h : List ClientStep) (st : ClientStep) : Prop :=
  RepeatsInvite st.pre st.input → ¬ Outstanding h

theorem sentRequests_snoc (h : List ClientStep) (st : ClientStep) :
    sentRequests (h ++ [st]) = sentRequests h ++ st.post.requests := by
  simp [sentRequests]

theorem outstanding_snoc (h : List ClientStep) (st : ClientStep) : Outstanding (h ++ [st]) ↔
    GetsInvite st.pre st.input ∨ (Outstanding h ∧ ¬ Renews st.pre st.input) := by
  rw [Outstanding, List.foldl_append]
  rfl

theorem increases_snoc {qs : List SipRequest} {q : SipRequest} : Increases (qs ++ [q]) ↔
    Increases qs ∧ ∀ q' ∈ qs, q'.callId = q.callId → q'.cSeq < q.cSeq := by
  simp [Increases, List.pairwise_append]

/-! ## One step -/

/-- The Call-ID and the sequence number are the same. -/
structure SameNumbers (w w' : World) : Prop where
  callID : w'.handler.currentCallID = w.handler.currentCallID
  callSequence : w'.handler.callSequence = w.handler.callSequence

/-- What a step sends, and what it does to the numbers. -/
inductive Numbered (w : World) (i : Input) (w' : World) : Prop
  | kept : w'.requests = [] → SameNumbers w w' → ¬ GetsInvite w i → ¬ Renews w i → Numbered w i w'
  | registered (q : SipRequest) : w'.requests = [q] → w.fresh ≤ q.callId → q.callId < w'.fresh →
      SameNumbers w w' → ¬ GetsInvite w i → ¬ Renews w i → Numbered w i w'
  | renewed : w'.requests = [] →
      (∀ c, w'.handler.currentCallID = some c → (w.fresh ≤ c ∧ c < w'.fresh) ∨
        (w.handler.currentCallID = some c ∧ w.handler.callSequence < w'.handler.callSequence)) →
      ¬ GetsInvite w i → Renews w i → Numbered w i w'
  | invited (q : SipRequest) : w'.requests = [q] → w'.handler.currentCallID = some q.callId →
      w'.handler.callSequence = q.cSeq → w.fresh ≤ q.callId → q.callId < w'.fresh →
      GetsInvite w i → ¬ RepeatsInvite w i → Numbered w i w'
  | repeated (q : SipRequest) : w'.requests = [q] → w.handler.currentCallID = some q.callId →
      w.handler.callSequence = q.cSeq → SameNumbers w w' → GetsInvite w i → RepeatsInvite w i →
      Numbered w i w'

/-- The step gets an INVITE sent exactly if one is. -/
theorem getsInvite_iff : GetsInvite w i ↔ ∃ q ∈ (step w i).requests, q.method = .invite := by
  classical
  have hlen := (Triggers.step w i).invite
  have hmem : (∃ q ∈ (step w i).requests, q.method = .invite) ↔
      0 < ((step w i).requests.filter (·.method = .invite)).length := by
    rw [List.length_pos_iff_exists_mem]
    simp
  rw [hmem, hlen]
  split_ifs with hg
  · exact iff_of_true hg Nat.one_pos
  · exact iff_of_false hg (lt_irrefl 0)

theorem Invited.sameNumbers {r : Request} (hi : Invited env w r w') : SameNumbers w w' := by
  cases hi with
  | busyFailed _ _ _ hw => rcases hw with rfl | rfl <;> exact ⟨by simp, by simp⟩
  | declineFailed _ _ _ _ _ hw => rcases hw with rfl | ⟨_, _, rfl⟩ <;> exact ⟨by simp, by simp⟩
  | notFoundFailed _ _ _ _ _ _ _ _ _ hw => rcases hw with rfl | rfl <;> exact ⟨by simp, by simp⟩
  | ringFailed _ _ _ _ _ _ _ hw => rcases hw with rfl | rfl <;> exact ⟨by simp, by simp⟩
  | _ => exact ⟨by simp, by simp⟩

/-- The numbers of a call that is made from `w`. -/
structure TakesNew (w w' : World) : Prop where
  callID : w'.handler.currentCallID = some w.fresh
  fresh : w.fresh < w'.fresh
  callSequence : w'.handler.callSequence = w.handler.callSequence

/-- A new call takes a new Call-ID as soon as its addresses are made. -/
theorem sendInvite_renews {contact : SipContact} (hc : env.fails .createAddresses = none) :
    Always (SipMessageHandler.sendInvite env contact .register) (TakesNew w) w := by
  have hr : TakesNew w (w.renewed .register) := ⟨by simp, by simp [World.renewed], by simp⟩
  have hkeep : ∀ {w₁ : World},
      w₁.handler.currentCallID = (w.renewed .register).handler.currentCallID →
      (w.renewed .register).fresh ≤ w₁.fresh →
      w₁.handler.callSequence = (w.renewed .register).handler.callSequence → TakesNew w w₁ :=
    fun h₁ h₂ h₃ => ⟨h₁.trans hr.callID, hr.fresh.trans_le h₂, h₃.trans hr.callSequence⟩
  simp only [SipMessageHandler.sendInvite, Always, wp_bind, wp_call, wp_renewCallID, wp_get,
    wp_lift]
  refine ⟨fun _ => ⟨fun c _ => ⟨fun _ => ⟨fun a _ => ?_, fun _ _ => hr⟩, fun _ _ => hr⟩,
    fun _ _ => hr⟩, fun e he => absurd he (by simp [hc])⟩
  refine wp_mono wp_createOffer ?_ ?_
  · rintro d _ rfl
    simp only [wp_getNewClientTransaction, wp_bind, wp_modify, wp_sendRequest]
    refine ⟨fun _ => ⟨fun _ => ?_, fun _ _ => ?_⟩, fun _ _ => hr⟩
    · exact hkeep rfl (Nat.le_succ _) rfl
    · exact hkeep rfl (Nat.le_succ _) rfl
  · rintro e _ ⟨-, rfl⟩
    exact hr

/-- Without addresses it takes none, and sends nothing. -/
theorem sendInvite_refused {contact : SipContact} {e : JException}
    (hc : env.fails .createAddresses = some e) :
    Always (SipMessageHandler.sendInvite env contact .register) (fun w' => w' = w) w := by
  simp only [SipMessageHandler.sendInvite, Always, wp_bind, wp_call]
  exact ⟨fun h => absurd (h.symm.trans hc) (by simp), fun _ _ => trivial⟩

namespace Numbered

theorem silent (hs : Silent w') (hn : SameNumbers w w') (hi : ¬ GetsInvite w i)
    (hr : ¬ Renews w i) : Numbered w i w' := .kept hs.requests hn hi hr

/-- Steps that send nothing and clear the Call-ID. -/
theorem clears (hs : Silent w') (hc : w'.handler.currentCallID = none) (hi : ¬ GetsInvite w i)
    (hr : Renews w i) : Numbered w i w' :=
  .renewed hs.requests (fun c h => by rw [hc] at h; cases h) hi hr

theorem registers {action : Action} {state : SipRequestState} {st : SipManagerState}
    (hr : Registers env (w.quiet.setStatusChanged st none) state w')
    (hi : ¬ GetsInvite w ⟨env, action⟩) (hn : ¬ Renews w ⟨env, action⟩) :
    Numbered w ⟨env, action⟩ w' := by
  cases hr with
  | sent a =>
    refine .registered _ (requests_requested (by simp [Silent])) le_rfl ?_ ⟨rfl, rfl⟩ hi hn
    show w.fresh < w.fresh + 1 + 1
    omega
  | failed n t hle => exact silent (by simp [Silent]) ⟨rfl, rfl⟩ hi hn

theorem received {ev : RequestEvent} (hr : Receives env w.quiet ev w') :
    Numbered w ⟨env, .request ev⟩ w' := by
  have hs : Silent w' := hr.silent (by simp [Silent])
  have hi : ¬ GetsInvite w ⟨env, .request ev⟩ := fun h => h.2
  cases hr with
  | invite _ hm hinv =>
    obtain ⟨h₁, h₂⟩ := hinv.sameNumbers
    exact silent hs ⟨h₁, h₂⟩ hi (by simp [Renews, hm])
  | cancel hm => exact clears hs rfl hi (Or.inl hm)
  | ack _ hm ha =>
    have hn : ¬ Renews w ⟨env, .request ev⟩ := by simp [Renews, hm]
    cases ha <;> exact silent hs ⟨rfl, rfl⟩ hi hn
  | bye w₁ hm => exact clears hs rfl hi (Or.inr hm)
  | other _ h₁ _ h₂ => exact silent hs ⟨rfl, rfl⟩ hi (by simp [Renews, h₁, h₂])

/-- Status 180 does not change who answers what. -/
theorem joins_rung {ev : ResponseEvent} {d : Dialog} {fs : List SipAudioFormat} {s : SipSession} :
    Joins env w.quiet.rung ev d fs s ↔ Joins env w ev d fs s := by
  have ha : Answering w.quiet.rung ev ↔ Answering w ev := by
    unfold Answering
    rw [rung_service]
    by_cases hc : w.service.currentState = .calling <;> simp [hc]
  have hp : w.quiet.rung.handler = w.handler := rung_handler
  constructor
  · rintro ⟨h₁, h₂, h₃, h₄⟩
    exact ⟨ha.1 h₁, h₂, hp ▸ h₃, h₄⟩
  · rintro ⟨h₁, h₂, h₃, h₄⟩
    exact ⟨ha.2 h₁, h₂, hp.symm ▸ h₃, h₄⟩

/-- What status 200 does, and status 180. -/
theorem answered {ev : ResponseEvent} {w₁ : World} (ha : Answered env w₁ ev w') (hs : Silent w')
    (hw : w₁.handler = w.handler) (hst : ev.response.status = 180 ∨ ev.response.status = 200)
    (hj : ∀ d fs s, Joins env w₁ ev d fs s ↔ Joins env w ev d fs s) :
    Numbered w ⟨env, .response ev⟩ w' := by
  have hi : ¬ GetsInvite w ⟨env, .response ev⟩ := by
    rintro ⟨-, h407, -⟩
    rcases hst with h | h <;> exact absurd (h.symm.trans h407) (by simp)
  have hrenews : Renews w ⟨env, .response ev⟩ ↔ ∃ d fs s, Joins env w₁ ev d fs s := by
    simp only [hj]
    exact and_iff_right hst
  have hkept : SameNumbers w w₁ := ⟨by rw [hw], by rw [hw]⟩
  have hcount : ∀ {d fs s}, Joins env w₁ ev d fs s →
      w'.handler.currentCallID = (w₁.joined d fs s).handler.currentCallID →
      w'.handler.callSequence = (w₁.joined d fs s).handler.callSequence →
      Numbered w ⟨env, .response ev⟩ w' := by
    intro d fs s hjoin h₁ h₂
    refine .renewed hs.requests (fun c hc => Or.inr ⟨?_, ?_⟩) hi (hrenews.2 ⟨d, fs, s, hjoin⟩)
    · rw [← hw, ← hc, h₁]
      rfl
    · rw [h₂, ← hw]
      show w₁.handler.callSequence < w₁.handler.callSequence + 1
      omega
  have hkeeps : SameNumbers w w' → (∀ d fs s, ¬ Joins env w₁ ev d fs s) →
      Numbered w ⟨env, .response ev⟩ w' := by
    intro hn hno
    refine silent hs hn hi fun h => ?_
    obtain ⟨d, fs, s, hjoin⟩ := hrenews.1 h
    exact hno d fs s hjoin
  cases ha with
  | established d fs s hjoin => exact hcount hjoin rfl rfl
  | unacked d fs s hjoin => exact hcount hjoin rfl rfl
  | unmatched s e _ _ hf =>
    refine hkeeps ⟨hkept.1, hkept.2⟩ fun d fs s' hjoin => ?_
    exact absurd (hf.symm.trans hjoin.formats) (by simp)
  | unread e _ hses =>
    refine hkeeps ⟨hkept.1, hkept.2⟩ fun d fs s' hjoin => ?_
    exact absurd (hses.symm.trans hjoin.session) (by simp)
  | registered hreg | unregistered hreg =>
    refine hkeeps ⟨hkept.1, hkept.2⟩ fun d fs s' hjoin => ?_
    have := hjoin.answering.1
    simp [hreg] at this
  | ignored hna => exact hkeeps ⟨hkept.1, hkept.2⟩ fun d fs s' hjoin => hna hjoin.answering

theorem responds {ev : ResponseEvent} (hr : Responds env w.quiet ev w')
    (hi : GetsInvite w ⟨env, .response ev⟩ ↔ ∃ q ∈ w'.requests, q.method = .invite) :
    Numbered w ⟨env, .response ev⟩ w' := by
  have hq : Silent w.quiet := by simp [Silent]
  have hkept : SameNumbers w w' → Silent w' → ¬ Renews w ⟨env, .response ev⟩ →
      Numbered w ⟨env, .response ev⟩ w' := by
    intro hn hs
    refine silent hs hn fun hg => ?_
    obtain ⟨q, hm, -⟩ := hi.1 hg
    rw [hs.requests] at hm
    cases hm
  cases hr with
  | ringing _ hst ha =>
    have hs : Silent w.quiet.rung := by
      intro t ht
      rcases rung_out (w := w.quiet) with ho | ho <;> rw [ho] at ht <;> simp at ht
    exact answered ha (ha.silent hs) rung_handler (Or.inl hst) fun _ _ _ => joins_rung
  | ok _ hst ha =>
    refine answered ha (ha.silent hq) rfl (Or.inr hst) fun _ _ _ => ?_
    exact ⟨fun h => ⟨h.1, h.2, h.3, h.4⟩, fun h => ⟨h.1, h.2, h.3, h.4⟩⟩
  | unauthorized _ hst hu =>
    have hr : ¬ Renews w ⟨env, .response ev⟩ := by simp [Renews, hst]
    cases hu with
    | repeated c state a =>
      have hg : ¬ GetsInvite w ⟨env, .response ev⟩ :=
        fun hg => absurd (hst.symm.trans hg.2.1) (by simp)
      refine .registered _ (requests_requested (by simp [Silent])) le_rfl ?_ ⟨rfl, rfl⟩ hg hr
      show w.fresh < w.fresh + 1 + 1
      omega
    | unchallenged | noted | failed => exact hkept ⟨rfl, rfl⟩ (by simp [Silent]) hr
  | proxied _ hst hp =>
    have hr : ¬ Renews w ⟨env, .response ev⟩ := by simp [Renews, hst]
    cases hp with
    | repeated c contact id a d _ _ _ _ hid =>
      have hq' : (((w.quiet.challenged c).requested env
          (inviteRequest (w.quiet.challenged c).handler id contact a d)).setDialog
            (env.dialogTag.map (⟨id, ·⟩))).requests =
          [inviteRequest (w.quiet.challenged c).handler id contact a d] :=
        requests_requested (by simp [Silent])
      have hg : GetsInvite w ⟨env, .response ev⟩ := hi.2 ⟨_, by rw [hq']; exact .head _, rfl⟩
      exact .repeated _ hq' hid rfl ⟨rfl, rfl⟩ hg ⟨hg, rfl⟩
    | ignored | unchallenged | noted | failed => exact hkept ⟨rfl, rfl⟩ (by simp [Silent]) hr
  | failure st hf =>
    refine hkept ⟨rfl, rfl⟩ (by simp [Silent]) ?_
    rintro ⟨h | h, -⟩ <;> simp [h, failureState] at hf
  | other hno =>
    refine hkept ⟨rfl, rfl⟩ hq ?_
    rintro ⟨h | h, -⟩ <;> simp [h] at hno

theorem sendInvite {contact : SipContact}
    (hs : Invites env (w.quiet.calls contact) contact .register w')
    (hn : env.fails .createAddresses = none → TakesNew w w')
    (hr : env.fails .createAddresses ≠ none → w' = w.quiet.calls contact)
    (hi : GetsInvite w ⟨env, .sendInvite contact⟩ ↔ ∃ q ∈ w'.requests, q.method = .invite) :
    Numbered w ⟨env, .sendInvite contact⟩ w' := by
  have hsilent : Silent w' → Numbered w ⟨env, .sendInvite contact⟩ w' := by
    intro hsil
    have hg : ¬ GetsInvite w ⟨env, .sendInvite contact⟩ := by
      intro hg
      obtain ⟨q, hm, -⟩ := hi.1 hg
      rw [hsil.requests] at hm
      cases hm
    by_cases hc : env.fails .createAddresses = none
    · refine .renewed hsil.requests (fun c h => Or.inl ?_) hg hc
      rw [(hn hc).callID] at h
      obtain rfl := Option.some.inj h
      exact ⟨le_rfl, (hn hc).fresh⟩
    · rw [hr hc] at hsil ⊢
      exact silent hsil ⟨rfl, rfl⟩ hg hc
  cases hs with
  | sent c a d hid =>
    have hq : ((((w.quiet.calls contact).renewed .register).requested env
        (inviteRequest (w.quiet.calls contact).handler c contact a d)).setDialog
          (env.dialogTag.map (⟨c, ·⟩))).requests =
        [inviteRequest (w.quiet.calls contact).handler c contact a d] :=
      requests_requested (by simp [Silent])
    have hg : GetsInvite w ⟨env, .sendInvite contact⟩ :=
      hi.2 ⟨_, by rw [hq]; exact .head _, rfl⟩
    have hfresh : c = w.fresh := by simpa using hid.symm
    refine .invited _ hq hid ?_ hfresh.ge (lt_of_eq_of_lt hfresh (hn hg.2.1).fresh) hg
      fun h => by cases h.2
    simp [inviteRequest]
  | failed n t => exact hsilent (by simp [Silent])
  | refused => exact hsilent (by simp [Silent])

end Numbered

theorem numbered (w : World) (i : Input) : Numbered w i (step w i) := by
  have hi : GetsInvite w i ↔ ∃ q ∈ (step w i).requests, q.method = .invite := getsInvite_iff
  obtain ⟨env, action⟩ := i
  have hst := stepped w ⟨env, action⟩
  cases action with
  | sendInvite contact =>
    have hn : env.fails .createAddresses = none →
        TakesNew w (step w ⟨env, .sendInvite contact⟩) := by
      intro hc
      have h : Always (JaySip.sendInvite env contact) (TakesNew (w.quiet.calls contact))
          w.quiet := by
        rw [JaySip.sendInvite, Always, wp_bind, wp_modify, wp_bind, wp_modify, wp_bind,
          wp_setStatusChanged]
        exact sendInvite_renews hc
      obtain ⟨h₁, h₂, h₃⟩ := wp_after.1 h
      exact ⟨h₁, h₂, h₃⟩
    have hr : env.fails .createAddresses ≠ none →
        step w ⟨env, .sendInvite contact⟩ = w.quiet.calls contact := by
      intro hc
      obtain ⟨e, he⟩ := Option.ne_none_iff_exists'.1 hc
      have h : Always (JaySip.sendInvite env contact) (· = w.quiet.calls contact) w.quiet := by
        rw [JaySip.sendInvite, Always, wp_bind, wp_modify, wp_bind, wp_modify, wp_bind,
          wp_setStatusChanged]
        exact sendInvite_refused he
      exact wp_after.1 h
    generalize step w ⟨env, .sendInvite contact⟩ = w' at *
    cases hst with
    | sendInvite _ _ _ hs => exact .sendInvite hs hn hr hi
  | register =>
    generalize step w ⟨env, .register⟩ = w' at *
    cases hst with
    | register _ _ hr => exact .registers hr (fun h => h.2) id
  | unregister =>
    generalize step w ⟨env, .unregister⟩ = w' at *
    cases hst with
    | unregister _ _ hr => exact .registers hr (fun h => h.2) id
  | acceptCall =>
    generalize step w ⟨env, .acceptCall⟩ = w' at *
    cases hst with
    | acceptCall _ _ ha =>
      cases ha <;> exact .silent (by simp [Silent]) ⟨by simp, by simp⟩ (fun h => h.2) id
  | declineCall =>
    generalize step w ⟨env, .declineCall⟩ = w' at *
    cases hst with
    | declineCall _ _ hd =>
      cases hd <;> exact .silent (by simp [Silent]) ⟨by simp, by simp⟩ (fun h => h.2) id
  | endCall =>
    generalize step w ⟨env, .endCall⟩ = w' at *
    cases hst with
    | endCall _ _ he =>
      cases he <;> exact .silent (by simp [Silent]) ⟨rfl, rfl⟩ (fun h => h.2) id
  | reset =>
    generalize step w ⟨env, .reset⟩ = w' at *
    cases hst with
    | reset => exact .clears (by simp [Silent]) rfl (fun h => h.2) trivial
  | request ev =>
    generalize step w ⟨env, .request ev⟩ = w' at *
    cases hst with
    | request _ _ _ hr => exact .received hr
  | response ev =>
    generalize step w ⟨env, .response ev⟩ = w' at *
    cases hst with
    | response _ _ _ hr => exact .responds hr hi

/-! ## Runs -/

/-- What the numbers of the client say about the requests sent so far. -/
structure CountsUp (h : List ClientStep) (w : World) : Prop where
  fresh : ∀ q ∈ sentRequests h, q.callId < w.fresh
  callID : ∀ c, w.handler.currentCallID = some c → c < w.fresh
  callSequence : ∀ q ∈ sentRequests h, w.handler.currentCallID = some q.callId →
    q.cSeq ≤ w.handler.callSequence
  outstanding : Outstanding h ↔ ∃ q ∈ sentRequests h,
    w.handler.currentCallID = some q.callId ∧ w.handler.callSequence = q.cSeq

namespace CountsUp

/-- No request has been sent with a Call-ID that is new. -/
theorem new_callId (hI : CountsUp h w) {q q' : SipRequest} (hm : q' ∈ sentRequests h)
    (hq : w.fresh ≤ q.callId) : q'.callId ≠ q.callId :=
  ((hI.fresh q' hm).trans_le hq).ne

/-- The client does not hold a Call-ID that is new. -/
theorem not_held (hI : CountsUp h w) {q : SipRequest} (hq : w.fresh ≤ q.callId) :
    w.handler.currentCallID ≠ some q.callId :=
  fun hc => (hI.callID _ hc).not_ge hq

theorem step (hI : CountsUp h w) (i : Input) :
    CountsUp (h ++ [client.stepOf w i]) (JaySip.step w i) := by
  have hle := fresh_le_step w i
  have hn := numbered w i
  have hsent : sentRequests (h ++ [client.stepOf w i]) =
      sentRequests h ++ (JaySip.step w i).requests := sentRequests_snoc h _
  have hout : Outstanding (h ++ [client.stepOf w i]) ↔
      GetsInvite w i ∨ (Outstanding h ∧ ¬ Renews w i) := outstanding_snoc h _
  generalize JaySip.step w i = w' at *
  have hold : ∀ q ∈ sentRequests h, q.callId < w'.fresh := fun q hq => (hI.fresh q hq).trans_le hle
  cases hn with
  | kept hr hs hg hren =>
    rw [hr, List.append_nil] at hsent
    refine ⟨?_, ?_, ?_, ?_⟩
    · rwa [hsent]
    · rw [hs.callID]
      exact fun c hc => (hI.callID c hc).trans_le hle
    · rw [hsent, hs.callID, hs.callSequence]
      exact hI.callSequence
    · rw [hout, hsent, hs.callID, hs.callSequence, or_iff_right hg, and_iff_left hren]
      exact hI.outstanding
  | registered q hr hq hq' hs hg hren =>
    rw [hr] at hsent
    have hheld := hI.not_held hq
    refine ⟨?_, ?_, ?_, ?_⟩
    · rw [hsent, List.forall_mem_append, List.forall_mem_singleton]
      exact ⟨hold, hq'⟩
    · rw [hs.callID]
      exact fun c hc => (hI.callID c hc).trans_le hle
    · rw [hsent, hs.callID, hs.callSequence, List.forall_mem_append, List.forall_mem_singleton]
      exact ⟨hI.callSequence, fun hc => absurd hc hheld⟩
    · rw [hout, hsent, hs.callID, hs.callSequence, or_iff_right hg, and_iff_left hren,
        hI.outstanding]
      simp only [List.mem_append, List.mem_singleton, or_and_right, exists_or, exists_eq_left,
        hheld, false_and, or_false]
  | renewed hr hid hg hren =>
    rw [hr, List.append_nil] at hsent
    have hlt : ∀ q ∈ sentRequests h, w'.handler.currentCallID = some q.callId →
        q.cSeq < w'.handler.callSequence := by
      intro q hq hc
      rcases hid _ hc with ⟨hnew, -⟩ | ⟨hc', hseq⟩
      · exact absurd (hI.fresh q hq) (not_lt.2 hnew)
      · have := hI.callSequence q hq hc'
        omega
    refine ⟨?_, ?_, ?_, ?_⟩
    · rwa [hsent]
    · intro c hc
      rcases hid c hc with ⟨-, hlt⟩ | ⟨hc', -⟩
      · exact hlt
      · exact (hI.callID c hc').trans_le hle
    · rw [hsent]
      intro q hq hc
      have := hlt q hq hc
      omega
    · rw [hout, hsent]
      refine iff_of_false (fun h => h.elim hg fun h => h.2 hren) ?_
      rintro ⟨q, hq, hc, hseq⟩
      have := hlt q hq hc
      omega
  | invited q hr hc hseq hq hq' hg =>
    rw [hr] at hsent
    refine ⟨?_, ?_, ?_, ?_⟩
    · rw [hsent, List.forall_mem_append, List.forall_mem_singleton]
      exact ⟨hold, hq'⟩
    · intro c hc'
      obtain rfl := Option.some.inj (hc.symm.trans hc')
      exact hq'
    · rw [hsent, List.forall_mem_append, List.forall_mem_singleton]
      refine ⟨fun q' hm hc' => ?_, fun _ => by omega⟩
      exact absurd (Option.some.inj (hc'.symm.trans hc)) (hI.new_callId hm hq)
    · rw [hout, hsent]
      exact iff_of_true (Or.inl hg) ⟨q, List.mem_append_right _ (.head _), hc, hseq⟩
  | repeated q hr hc hseq hs hg =>
    rw [hr] at hsent
    refine ⟨?_, ?_, ?_, ?_⟩
    · rw [hsent, List.forall_mem_append, List.forall_mem_singleton]
      exact ⟨hold, (hI.callID _ hc).trans_le hle⟩
    · rw [hs.callID]
      exact fun c hc' => (hI.callID c hc').trans_le hle
    · rw [hsent, hs.callID, hs.callSequence, List.forall_mem_append, List.forall_mem_singleton]
      exact ⟨hI.callSequence, fun _ => by omega⟩
    · rw [hout, hsent, hs.callID, hs.callSequence]
      exact iff_of_true (Or.inl hg) ⟨q, List.mem_append_right _ (.head _), hc, hseq⟩

/-- The requests still increase after a step exactly if it repeats no INVITE with numbers that
    were used. -/
theorem increases_step (hI : CountsUp h w) (i : Input) :
    Increases (sentRequests (h ++ [client.stepOf w i])) ↔
      Increases (sentRequests h) ∧ RepeatsRenewed h (client.stepOf w i) := by
  have hn := numbered w i
  have hsent : sentRequests (h ++ [client.stepOf w i]) =
      sentRequests h ++ (JaySip.step w i).requests := sentRequests_snoc h _
  have hrep : RepeatsRenewed h (client.stepOf w i) ↔ (RepeatsInvite w i → ¬ Outstanding h) :=
    Iff.rfl
  rw [hrep, hsent]
  generalize JaySip.step w i = w' at *
  have hnew : ∀ {q : SipRequest}, w.fresh ≤ q.callId →
      ∀ q' ∈ sentRequests h, q'.callId = q.callId → q'.cSeq < q.cSeq :=
    fun hq q' hm hc => absurd hc (hI.new_callId hm hq)
  cases hn with
  | kept hr _ hg | renewed hr _ hg =>
    rw [hr, List.append_nil]
    exact (and_iff_left fun hri => absurd hri.1 hg).symm
  | registered q hr hq _ _ hg =>
    rw [hr, increases_snoc]
    exact and_congr_right fun _ => iff_of_true (hnew hq) fun hri => absurd hri.1 hg
  | invited q hr _ _ hq _ _ hri =>
    rw [hr, increases_snoc]
    exact and_congr_right fun _ => iff_of_true (hnew hq) fun h => absurd h hri
  | repeated q hr hc hseq _ _ hri =>
    rw [hr, increases_snoc, hI.outstanding, imp_iff_right hri]
    refine and_congr_right fun _ => ⟨?_, ?_⟩
    · rintro hlt ⟨q', hm, hc', hseq'⟩
      have := hlt q' hm (Option.some.inj (hc'.symm.trans hc))
      omega
    · intro hno q' hm hid
      have hc' : w.handler.currentCallID = some q'.callId := by rw [hc, hid]
      have hle := hI.callSequence q' hm hc'
      have hne : w.handler.callSequence ≠ q'.cSeq := fun he => hno ⟨q', hm, hc', he⟩
      omega

end CountsUp

/-- **CSeq numbers.**  In a run the requests with one Call-ID have growing CSeq numbers exactly
    when an INVITE is repeated only if, since the last one, a Call-ID was taken or cleared or an
    ACK was counted. -/
theorem increases_iff (profile : LocalSipProfile) (localIPAddress : Str) (localSipPort : ℤ)
    (is : List Input) :
    Increases (sentRequests
      (client.history (World.start profile localIPAddress localSipPort) is)) ↔
      client.Along (World.start profile localIPAddress localSipPort) is RepeatsRenewed := by
  generalize hw : World.start profile localIPAddress localSipPort = w₀
  have h₀ : CountsUp [] w₀ := by
    subst hw
    refine ⟨?_, ?_, ?_, iff_of_false id ?_⟩
    · intro q hq
      cases hq
    · intro c hc
      cases hc
    · intro q hq
      cases hq
    · rintro ⟨q, hq, -⟩
      cases hq
  have hI : ∀ is, CountsUp (client.history w₀ is) (client.run w₀ is) := by
    intro is
    exact client.along_keeps (C := fun _ _ => True) h₀ (fun h w i hI _ => hI.step i)
      fun _ _ _ _ => trivial
  induction is using List.reverseRecOn with
  | nil => exact iff_of_true .nil (client.along_nil _ _)
  | append_singleton is i ih =>
    rw [client.along_snoc, Machine.history_append]
    exact ((hI is).increases_step i).trans (and_congr_left' ih)

namespace Trace

/-- A 407 from Bob's proxy. -/
def proxyChallenge (callId : CallId) : Input :=
  ⟨calm, .response ⟨{ message .invite callId "alice".toList none with
    status := 407, proxyAuthenticate := some ⟨some "n".toList, some "home".toList⟩ }, none⟩⟩

end Trace

/-- Alice calls Bob and is challenged: both INVITEs have the same Call-ID and CSeq number. -/
theorem invite_repeats_number : ¬ ∀ w₀, client.init w₀ → ∀ is,
    Increases (sentRequests (client.history w₀ is)) := by
  intro h
  have hi := h Trace.idle Trace.idle_init
    [Trace.act (.sendInvite Trace.bob), Trace.proxyChallenge 0]
  have hlt := List.pairwise_cons.1 hi |>.1 _ (.head _) rfl
  exact absurd hlt (by decide)

end JaySip
