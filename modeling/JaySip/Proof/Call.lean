/-
  The established call: when `endCall` hangs it up, and which foreign messages leave it
  alone.
-/
import JaySip.Proof.Invariants

namespace JaySip

open Java

variable {env : Env} {w w' : World} {D : Dialog}

/-- `endCall` sends a BYE in `D` when the stack takes it, and never a CANCEL. -/
def HangsUp (D : Dialog) (w : World) : Prop :=
  (∀ env : Env, env.Succeeds → Output.bye D ∈ (step w ⟨env, .endCall⟩).out) ∧
    ∀ env t, Output.cancel t ∉ (step w ⟨env, .endCall⟩).out

/-- The client has a call in the dialog `D`. -/
def Established (D : Dialog) (w : World) : Prop :=
  w.service.currentState = .established ∧ w.handler.currentDialog = some D

instance (D : Dialog) (w : World) : Decidable (Established D w) :=
  inferInstanceAs (Decidable (_ ∧ _))

/-- The actions that give up a call: `reset`, a new call, a BYE and a CANCEL. -/
def Action.GivesUp : Action → Prop
  | .reset => True
  | .sendInvite _ => True
  | .request ev => ev.message.method = .bye ∨ ev.message.method = .cancel
  | _ => False

/-- A step that leaves a call in `D` alone: no registration; an INVITE only if the 486 goes
    out; an ACK only in `D`; no error response, and a 401 only with its challenge. -/
def KeepsCall (D : Dialog) (w : World) (i : Input) : Prop :=
  match i.action with
  | .register => False
  | .unregister => False
  | .request ev => (ev.message.method = .invite → w.CanReply i.env) ∧
      (ev.message.method = .ack → ev.getDialog = some D)
  | .response ev => failureState ev.response.status = none ∧
      (ev.response.status = 401 → ev.response.wwwAuthenticate ≠ none)
  | _ => True

/-- `endCall` hangs up exactly in the state of an established call. -/
theorem hangsUp_iff : HangsUp D w ↔ Established D w := by
  constructor
  · intro h
    have hb := h.1 Trace.calm Trace.calm_succeeds
    generalize he : step w ⟨Trace.calm, .endCall⟩ = w' at hb
    cases he ▸ stepped w ⟨Trace.calm, .endCall⟩ with
    | endCall _ _ he =>
      cases he with
      | bye d hs hd =>
        obtain rfl : D = d := by simpa using hb
        exact ⟨hs, hd⟩
      | _ => simp at hb
  · intro h
    refine ⟨fun env hs => ?_, fun env t => ?_⟩ <;>
      generalize he : step w ⟨env, .endCall⟩ = w'
    · cases he ▸ stepped w ⟨env, .endCall⟩ with
      | endCall _ _ he =>
        cases he with
        | bye d _ hd =>
          obtain rfl : D = d := by simpa [h.2] using hd
          simp
        | cancel t hn => exact absurd h.1 hn
        | noBye n _ hd => exact absurd hs (hd (by simp [h.2]))
        | noCancel n t hn => exact absurd h.1 hn
    · cases he ▸ stepped w ⟨env, .endCall⟩ with
      | endCall _ _ he =>
        cases he with
        | cancel t hn => exact absurd h.1 hn
        | _ => simp

/-! ## One step of a call -/

namespace Established

theorem of_eq (h : Established D w) (hs : w'.service.currentState = w.service.currentState)
    (hd : w'.handler.currentDialog = w.handler.currentDialog) : Established D w' :=
  ⟨hs.trans h.1, hd.trans h.2⟩

theorem not_of_state (h : w'.service.currentState ≠ .established) : ¬ Established D w' :=
  fun he => h he.1

/-- During a call an INVITE is answered busy, or the state is lost. -/
theorem invited {r : Request} (h : Established D w) (hs : w.service.currentSession ≠ none)
    (hi : Invited env w r w') : Established D w' ↔ w.CanReply env := by
  rcases hi.of_session hs with ⟨hr, rfl⟩ | ⟨hr, w₁, rfl⟩
  · exact iff_of_true (h.of_eq (by simp) (by simp)) hr
  · exact iff_of_false (not_of_state (by simp)) hr

theorem acked {dialog : Option Dialog} (h : Established D w) (hs : w.service.currentSession ≠ none)
    (ha : Acked w dialog w') : Established D w' ↔ dialog = some D := by
  cases ha with
  | established s number _ _ => exact ⟨fun he => by simpa using he.2, fun hd => ⟨rfl, hd⟩⟩
  | unnumbered s e _ _ => exact ⟨fun he => he.2, fun hd => ⟨h.1, hd⟩⟩
  | ignored hn => exact absurd hn hs

theorem received {ev : RequestEvent} (h : Established D w) (hs : w.service.currentSession ≠ none)
    (hg : ¬ (ev.message.method = .bye ∨ ev.message.method = .cancel))
    (hr : Receives env w ev w') : Established D w' ↔
      (ev.message.method = .invite → w.CanReply env) ∧
        (ev.message.method = .ack → ev.getDialog = some D) := by
  cases hr with
  | invite _ hm hi =>
    rw [invited (w := w.tick) h hs hi]
    simp only [hm, forall_const]
    exact ⟨fun hr => ⟨hr, nofun⟩, fun hr => hr.1⟩
  | cancel hm => exact absurd (Or.inr hm) hg
  | ack _ hm ha =>
    rw [acked (w := w.tick) h hs ha]
    simp only [hm, forall_const]
    exact ⟨fun hd => ⟨nofun, hd⟩, fun hd => hd.2⟩
  | bye _ hm => exact absurd (Or.inl hm) hg
  | other h1 _ h3 => exact iff_of_true h ⟨fun hm => absurd hm h1, fun hm => absurd hm h3⟩

/-- A call is not waiting for an answer. -/
theorem answered {ev : ResponseEvent} (h : Established D w) (ha : Answered env w ev w') :
    w' = w := by
  have hn : ¬ Answering w ev := fun ha => by
    rcases ha.1 with hs | hs <;> simp [h.1] at hs
  cases ha with
  | established _ _ _ hj => exact absurd hj.answering hn
  | unacked _ _ _ hj => exact absurd hj.answering hn
  | unmatched _ _ ha => exact absurd ha hn
  | unread _ ha => exact absurd ha hn
  | registered hs => simp [h.1] at hs
  | unregistered hs => simp [h.1] at hs
  | ignored => rfl

theorem responds {ev : ResponseEvent} (h : Established D w) (hs : w.service.currentSession ≠ none)
    (hr : Responds env w ev w') : Established D w' ↔
      failureState ev.response.status = none ∧
        (ev.response.status = 401 → ev.response.wwwAuthenticate ≠ none) := by
  have plain : ∀ {status : ℕ}, ev.response.status = status → failureState status = none →
      status ≠ 401 → failureState ev.response.status = none ∧
        (ev.response.status = 401 → ev.response.wwwAuthenticate ≠ none) :=
    fun he hf hn => ⟨he ▸ hf, fun h401 => absurd (he.symm.trans h401) hn⟩
  cases hr with
  | ringing _ he ha =>
    rw [rung_of_ne (by simp [h.1])] at ha
    rw [h.answered ha]
    exact iff_of_true h (plain he rfl (by decide))
  | ok _ he ha =>
    rw [h.answered ha]
    exact iff_of_true h (plain he rfl (by decide))
  | unauthorized _ he hu =>
    cases hu with
    | unchallenged hc => exact iff_of_false (not_of_state (by simp)) fun hk => hk.2 he hc
    | noted c hc =>
      exact iff_of_true (h.of_eq (by simp) (by simp)) ⟨he ▸ rfl, fun _ => by simp [hc]⟩
    | repeated c state a _ hst => rcases hst with ⟨hst, -⟩ | ⟨hst, -⟩ <;> simp [h.1] at hst
    | failed c n t _ hst => rcases hst with hst | hst <;> simp [h.1] at hst
  | proxied _ he hp =>
    cases hp with
    | ignored => exact iff_of_true (h.of_eq (by simp) (by simp)) (plain he rfl (by decide))
    | unchallenged hn => exact absurd hn hs
    | noted c hn => exact absurd hn hs
    | repeated c contact id a d hn => exact absurd hn hs
    | failed c n t hn => exact absurd hn hs
  | failure st hst =>
    refine iff_of_false (not_of_state ?_) fun hk => by simp [hst] at hk
    rintro rfl
    exact failureState_ne_established hst
  | other hn hf => exact iff_of_true h ⟨hf, fun h401 => absurd (by simp [h401]) hn⟩

/-- A step keeps a call, unless it gives it up, exactly when it leaves it alone. -/
theorem step_iff {i : Input} (h : Established D w) (hs : w.service.currentSession ≠ none)
    (hg : ¬ i.action.GivesUp) : Established D (step w i) ↔ KeepsCall D w i := by
  have hq : Established D w.quiet := h
  generalize hw : step w i = w'
  have hst := hw ▸ stepped w i
  cases hst with
  | register _ _ hr => exact iff_of_false (not_of_state (by simp [hr.service])) id
  | unregister _ _ hr => exact iff_of_false (not_of_state (by simp [hr.service])) id
  | sendInvite => exact absurd trivial hg
  | acceptCall _ _ ha =>
    refine iff_of_true (hq.of_eq (by rw [ha.service]) ?_) trivial
    cases ha <;> simp
  | declineCall _ _ hd =>
    refine iff_of_true (hq.of_eq (by rw [hd.service]) ?_) trivial
    cases hd <;> simp
  | endCall _ _ he =>
    refine iff_of_true (hq.of_eq (by rw [he.service]) ?_) trivial
    cases he <;> simp
  | reset => exact absurd trivial hg
  | request _ _ _ hr => exact hq.received hs hg hr
  | response _ _ _ hr => exact hq.responds hs hr

end Established

/-! ## Runs of a call -/

/-- **`endCall` hangs up at every point of a call exactly when every step of the call leaves
    it alone.** -/
theorem hangsUp_along {s : World} (h : client.Reachable s) (he : Established D s) {js : List Input}
    (hg : ∀ i ∈ js, ¬ i.action.GivesUp) :
    (∀ ks, ks <+: js → HangsUp D (client.run s ks)) ↔
      client.Along s js fun _ st => KeepsCall D st.pre st.input := by
  induction js using List.reverseRecOn with
  | nil =>
    refine iff_of_true ?_ (client.along_nil _ _)
    intro ks hk
    rw [List.prefix_nil.1 hk]
    exact hangsUp_iff.2 he
  | append_singleton js i ih =>
    rw [client.along_snoc, ← ih fun j hj => hg j (List.mem_append_left _ hj)]
    have hi : (∀ ks, ks <+: js → HangsUp D (client.run s ks)) →
        (HangsUp D (client.run s (js ++ [i])) ↔ KeepsCall D (client.run s js) i) := by
      intro hk
      have hs := hangsUp_iff.1 (hk js (List.prefix_refl js))
      rw [hangsUp_iff, client.run_append]
      exact hs.step_iff (seated (h.run client js) hs.1) (hg i (by simp))
    constructor
    · intro hk
      have hjs : ∀ ks, ks <+: js → HangsUp D (client.run s ks) :=
        fun ks hp => hk ks (hp.trans (List.prefix_append js [i]))
      exact ⟨hjs, (hi hjs).1 (hk _ (List.prefix_refl _))⟩
    · rintro ⟨hjs, hki⟩ ks hp
      rcases List.prefix_concat_iff.1 hp with rfl | hp
      · exact (hi hjs).2 hki
      · exact hjs ks hp

/-- A call from Bob that Alice accepts. -/
def Trace.callFromBob : List Input :=
  [invite 7 "alice".toList "0".toList, act .acceptCall, request .ack 7 (some 0)]

/-- Alice's client in that call. -/
def Trace.inCall : World := client.run idle callFromBob

theorem Trace.inCall_reachable : client.Reachable inCall := ⟨_, _, idle_init, rfl⟩

theorem Trace.inCall_established : Established ⟨7, 0⟩ inCall := by decide

/-- A second caller, who is told that Alice is busy. -/
theorem hangsUp_along_busy : HangsUp ⟨7, 0⟩
    (client.run Trace.inCall [Trace.invite 8 "alice".toList "0".toList]) := by
  refine (hangsUp_along Trace.inCall_reachable Trace.inCall_established ?_).2 ?_ _
    (List.prefix_refl _)
  · intro i hi
    rw [List.mem_singleton.1 hi]
    exact fun hg => hg.elim nofun nofun
  · exact client.along_cons.2 ⟨⟨fun _ => Trace.calm_succeeds.canReply, nofun⟩,
      client.along_nil _ _⟩

/-- A registration takes the BYE away from the call. -/
theorem register_loses_bye : ¬ ∀ s D js, client.Reachable s → Established D s →
    (∀ i ∈ js, ¬ i.action.GivesUp) → HangsUp D (client.run s js) := by
  intro h
  have hr := h _ _ [Trace.act .register] Trace.inCall_reachable Trace.inCall_established
    (by simp [Trace.act, Action.GivesUp])
  rw [hangsUp_iff] at hr
  revert hr
  decide

/-! ## Isolation -/

/-- The fields that describe the call are the same. -/
structure Isolated (w w' : World) : Prop where
  state : w'.service.currentState = w.service.currentState
  session : w'.service.currentSession = w.service.currentSession
  request : w'.service.currentRequest = w.service.currentRequest
  dialog : w'.handler.currentDialog = w.handler.currentDialog

/-- A CANCEL, BYE or ACK, or a response, that is not of the dialog `D`. -/
def Action.Foreign (D : Dialog) : Action → Prop
  | .request ev => (ev.message.method = .cancel ∨ ev.message.method = .bye ∨
      ev.message.method = .ack) ∧ ev.getDialog ≠ some D
  | .response ev => ev.getDialog ≠ some D
  | _ => False

/-- A response that changes nothing in a call: no error response, and a 401 only with its
    challenge. -/
def Action.Unnoticed : Action → Prop
  | .response ev => failureState ev.response.status = none ∧
      (ev.response.status = 401 → ev.response.wwwAuthenticate ≠ none)
  | _ => False

theorem Isolated.established (h : Isolated w w') (he : Established D w) : Established D w' :=
  he.of_eq h.state h.dialog

/-- A response that an established client does not notice. -/
theorem Established.isolated {ev : ResponseEvent} (h : Established D w)
    (hs : w.service.currentSession ≠ none)
    (hf : failureState ev.response.status = none)
    (hc : ev.response.status = 401 → ev.response.wwwAuthenticate ≠ none)
    (hr : Responds env w ev w') : Isolated w w' := by
  have he : Established D w' := (h.responds hs hr).2 ⟨hf, hc⟩
  refine ⟨he.1.trans h.1.symm, ?_, hr.aside.request, he.2.trans h.2.symm⟩
  cases hr with
  | ringing _ _ ha =>
    rw [rung_of_ne (by simp [h.1])] at ha
    rw [h.answered ha]
  | ok _ _ ha => rw [h.answered ha]
  | unauthorized _ _ hu => cases hu <;> simp
  | proxied _ _ hp => cases hp <;> simp
  | failure => rfl
  | other => rfl

/-- **A foreign message leaves an established call alone exactly when it is a response that
    goes unnoticed; every foreign CANCEL, BYE and ACK disturbs it.** -/
theorem isolated_iff {i : Input} (h : client.Reachable w) (he : Established D w)
    (hf : i.action.Foreign D) : Isolated w (step w i) ↔ i.action.Unnoticed := by
  have hs := seated h he.1
  obtain ⟨env, action⟩ := i
  cases action with
  | request ev =>
    refine iff_of_false (fun hi => ?_) id
    obtain ⟨hm, hd⟩ := hf
    have hr := stepped w ⟨env, .request ev⟩
    have he' := hi.established he
    generalize step w ⟨env, .request ev⟩ = w' at hr he'
    cases hr with
    | request _ _ _ hr =>
      cases hr with
      | invite _ hn => simp [hn] at hm
      | cancel => simpa using he'.1
      | ack _ _ ha =>
        exact hd ((Established.acked (w := w.quiet.tick) he hs ha).1 he')
      | bye => simpa using he'.1
      | other _ h1 h2 h3 => rcases hm with hm | hm | hm <;> contradiction
  | response ev =>
    have hr := stepped w ⟨env, .response ev⟩
    generalize step w ⟨env, .response ev⟩ = w' at hr
    cases hr with
    | response _ _ _ hr =>
      have hq : Established D w.quiet := he
      refine ⟨fun hi => (hq.responds hs hr).1 (hi.established he), fun hu => ?_⟩
      have hi := hq.isolated hs hu.1 hu.2 hr
      exact ⟨hi.state, hi.session, hi.request, hi.dialog⟩
  | _ => exact hf.elim

/-- A late answer to a registration. -/
theorem isolated_iff_late : Isolated Trace.inCall
    (step Trace.inCall (Trace.response 200 .register 9 none)) :=
  (isolated_iff Trace.inCall_reachable Trace.inCall_established
    (by simp [Trace.response, Trace.answer, Action.Foreign, ResponseEvent.getDialog])).2 ⟨rfl, nofun⟩

/-- The CANCEL of another caller ends the call. -/
theorem foreign_cancel_resets : ¬ ∀ w D i, client.Reachable w → Established D w →
    i.action.Foreign D → Isolated w (step w i) := by
  intro h
  have hi := h _ _ (Trace.request .cancel 8 none) Trace.inCall_reachable
    Trace.inCall_established ⟨Or.inl rfl, by decide⟩
  have hs := hi.state
  revert hs
  decide

end JaySip
