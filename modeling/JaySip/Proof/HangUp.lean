/-
  Hanging up: when `SipManager.endCall` and `SipManager.declineCall` leave the phone reset.
-/
import JaySip.Proof.Invariants
import JaySip.Sip.Manager

namespace JaySip

open Java

variable {env : Env} {w w' : World}

theorem wp_reset {Q : Unit → World → Prop} {E : JException → World → Prop} :
    wp reset Q E w ↔ Q () w.cleared := by
  simp [reset, World.cleared]

/-! ## The phone is a client -/

/-- A method that ends with a reset ends reset, or as it is when it throws. -/
theorem after_seq_reset (x : M Unit) (w : World) :
    after (do x; reset) w = (after x w).cleared ∨ after (do x; reset) w = after x w := by
  refine (wp_after (P := fun w' => w' = (after x w).cleared ∨ w' = after x w)).1 ?_
  rw [wp_bind]
  unfold wp after
  cases x w with
  | ok a w' => exact Or.inl rfl
  | error e w' => exact Or.inr rfl

/-- A step of the phone is a step of the client, or one and a reset. -/
theorem phone_step (w : World) (i : SipManager.Input) :
    ∃ is, (client.run w is).quiet = (phone.step w i).quiet := by
  have hseq : ∀ a : Action, (∃ is, (client.run w is).quiet =
      (after (do a.method i.env; reset) w.quiet).quiet) := by
    intro a
    rcases after_seq_reset (a.method i.env) w.quiet with h | h
    · exact ⟨[⟨i.env, a⟩, ⟨i.env, .reset⟩], by rw [h]; rfl⟩
    · exact ⟨[⟨i.env, a⟩], by rw [h]; rfl⟩
  obtain ⟨env, a⟩ := i
  cases a with
  | registerProfile => exact ⟨[⟨env, .register⟩], rfl⟩
  | unregisterProfile => exact ⟨[⟨env, .unregister⟩], rfl⟩
  | sendInvite contact => exact ⟨[⟨env, .sendInvite contact⟩], rfl⟩
  | acceptCall => exact ⟨[⟨env, .acceptCall⟩], rfl⟩
  | declineCall => exact hseq .declineCall
  | endCall => exact hseq .endCall
  | confirmStateAndReset => exact ⟨[⟨env, .reset⟩], rfl⟩
  | close => exact ⟨[⟨env, .reset⟩], rfl⟩
  | request ev => exact ⟨[⟨env, .request ev⟩], rfl⟩
  | response ev => exact ⟨[⟨env, .response ev⟩], rfl⟩

/-- The worlds of the phone are those of the client, but for the outputs of the last step. -/
theorem phone_reachable (h : phone.Reachable w) :
    ∃ w', client.Reachable w' ∧ w'.quiet = w.quiet := by
  refine h.inv phone (I := fun w => ∃ w', client.Reachable w' ∧ w'.quiet = w.quiet)
    (fun w hw => ⟨w, ⟨w, [], hw, rfl⟩, rfl⟩) ?_
  rintro w i ⟨w', hw', hq⟩
  have hstep : phone.step w i = phone.step w' i := by
    show after (i.action.method i.env) w.quiet = after (i.action.method i.env) w'.quiet
    rw [hq]
  obtain ⟨is, his⟩ := phone_step w' i
  exact ⟨client.run w' is, hw'.run client is, hstep ▸ his⟩

/-! ## Hanging up -/

/-- The call is gone, and the phone is ready for the next. -/
structure World.HungUp (w : World) : Prop where
  state : w.service.currentState = .ready
  session : w.service.currentSession = none
  request : w.service.currentRequest = none
  contact : w.service.currentContact = none
  serverTransaction : w.handler.serverTransaction = none
  clientTransaction : w.handler.clientTransaction = none
  dialog : w.handler.currentDialog = none
  callID : w.handler.currentCallID = none

/-- The BYE or the CANCEL of `endCall` is sent. -/
def World.CanEnd (w : World) (env : Env) : Prop :=
  env.fails .getNewClientTransaction = none ∧ env.fails .sendRequest = none ∧
    if w.service.currentState = .established then
      w.handler.currentDialog ≠ none ∧ env.fails .createBye = none
    else w.handler.clientTransaction ≠ none ∧ env.fails .createCancel = none

/-- The 603 of `declineCall` is sent, if there is a call to decline. -/
def World.CanDecline (w : World) (env : Env) : Prop :=
  w.service.currentRequest ≠ none → w.CanReply env

/-- Hanging up gets through, or the phone is reset as it is. -/
def GetsReset (w : World) (i : SipManager.Input) : Prop :=
  match i.action with
  | .endCall => w.CanEnd i.env ∨ w.HungUp
  | .declineCall => w.CanDecline i.env
  | _ => True

/-- The two operations that hang up. -/
def SipManager.Action.hangsUp : SipManager.Action → Bool
  | .endCall | .declineCall => true
  | _ => false

namespace World

theorem cleared_hungUp (w : World) : w.cleared.HungUp :=
  ⟨rfl, rfl, rfl, rfl, rfl, rfl, rfl, rfl⟩

/-- What a failed BYE or CANCEL changes does not reset the phone. -/
theorem began_hungUp {n : ℕ} {t : Option ClientTransaction}
    (ht : t = none ↔ w.handler.clientTransaction = none) : (w.began n t).HungUp ↔ w.HungUp := by
  constructor
  · rintro ⟨h₁, h₂, h₃, h₄, h₅, h₆, h₇, h₈⟩
    exact ⟨h₁, h₂, h₃, h₄, h₅, ht.1 h₆, h₇, h₈⟩
  · rintro ⟨h₁, h₂, h₃, h₄, h₅, h₆, h₇, h₈⟩
    exact ⟨h₁, h₂, h₃, h₄, h₅, ht.2 h₆, h₇, h₈⟩

end World

theorem wp_sendBye_hungUp (hs : w.service.currentState = .established) : wp (sendBye env)
    (fun _ _ => w.CanEnd env) (fun _ w' => ¬ w.CanEnd env ∧ (w'.HungUp ↔ w.HungUp)) w := by
  have hend : w.CanEnd env ↔ env.fails .getNewClientTransaction = none ∧
      env.fails .sendRequest = none ∧
      w.handler.currentDialog ≠ none ∧ env.fails .createBye = none := by
    rw [World.CanEnd, if_pos hs]
  simp only [sendBye, wp_bind, wp_get, wp_modify, wp_lift, wp_call, hend]
  refine ⟨fun d hd => ⟨fun h₁ => ⟨fun h₂ => ⟨fun h₃ => ?_, fun e h₃ => ⟨?_, ?_⟩⟩,
    fun e h₂ => ⟨?_, trivial⟩⟩, fun e h₁ => ⟨?_, trivial⟩⟩, fun e hd => ⟨?_, trivial⟩⟩
  · exact ⟨h₂, h₃, by simp [nonNull_eq_ok.1 hd], h₁⟩
  · exact fun h => by simp [h.2.1] at h₃
  · exact World.began_hungUp Iff.rfl
  · exact fun h => by simp [h.1] at h₂
  · exact fun h => by simp [h.2.2.2] at h₁
  · exact fun h => h.2.2.1 (eq_none_of_nonNull hd)

theorem wp_sendCancel_hungUp (hs : w.service.currentState ≠ .established) : wp (sendCancel env)
    (fun _ _ => w.CanEnd env) (fun _ w' => ¬ w.CanEnd env ∧ (w'.HungUp ↔ w.HungUp)) w := by
  have hend : w.CanEnd env ↔ env.fails .getNewClientTransaction = none ∧
      env.fails .sendRequest = none ∧
      w.handler.clientTransaction ≠ none ∧ env.fails .createCancel = none := by
    rw [World.CanEnd, if_neg hs]
  simp only [sendCancel, wp_bind, wp_get, wp_modify, wp_lift, wp_call, wp_getNewClientTransaction,
    hend]
  refine ⟨fun t ht => ⟨fun h₁ => ⟨fun h₂ => ⟨fun h₃ => ?_, fun e h₃ => ⟨?_, ?_⟩⟩,
    fun e h₂ => ⟨?_, trivial⟩⟩, fun e h₁ => ⟨?_, trivial⟩⟩, fun e ht => ⟨?_, trivial⟩⟩
  · exact ⟨h₂, h₃, by simp [nonNull_eq_ok.1 ht], h₁⟩
  · exact fun h => by simp [h.2.1] at h₃
  · have hn : some (w.clientTransactionFor env t.request.toCancel) = none ↔
        w.handler.clientTransaction = none := by
      simp [nonNull_eq_ok.1 ht]
    exact World.began_hungUp (n := w.fresh + 1) hn
  · exact fun h => by simp [h.1] at h₂
  · exact fun h => by simp [h.2.2.2] at h₁
  · exact fun h => h.2.2.1 (eq_none_of_nonNull ht)

/-- `SipManager.endCall`. -/
theorem endCall_hungUp : (after (SipManager.endCall env) w).HungUp ↔ w.CanEnd env ∨ w.HungUp := by
  refine (wp_after (P := fun w' : World => w'.HungUp ↔ w.CanEnd env ∨ w.HungUp)).1 ?_
  rw [SipManager.endCall, wp_bind, endCall, wp_bind, wp_get]
  have hsent : w.CanEnd env → ∀ w' : World,
      wp reset (fun _ w' => w'.HungUp ↔ w.CanEnd env ∨ w.HungUp)
        (fun _ w' => w'.HungUp ↔ w.CanEnd env ∨ w.HungUp) w' :=
    fun hc w' => wp_reset.2 (iff_of_true w'.cleared_hungUp (Or.inl hc))
  have hfailed : ∀ w' : World, ¬ w.CanEnd env ∧ (w'.HungUp ↔ w.HungUp) →
      (w'.HungUp ↔ w.CanEnd env ∨ w.HungUp) :=
    fun w' h => h.2.trans (or_iff_right h.1).symm
  rw [wp_ite]
  refine ⟨fun hs => ?_, fun hs => ?_⟩
  · exact wp_mono (wp_sendBye_hungUp hs) (fun _ w' hc => hsent hc w') fun _ w' h => hfailed w' h
  · exact wp_mono (wp_sendCancel_hungUp hs) (fun _ w' hc => hsent hc w') fun _ w' h => hfailed w' h

/-- `SipManager.declineCall`. -/
theorem declineCall_hungUp :
    (after (SipManager.declineCall env) w).HungUp ↔ w.CanDecline env := by
  refine (wp_after (P := fun w' : World => w'.HungUp ↔ w.CanDecline env)).1 ?_
  rw [SipManager.declineCall, wp_bind, declineCall, wp_bind, wp_get]
  cases hr : w.service.currentRequest with
  | none =>
    show wp SipManager.reset (fun _ w' => w'.HungUp ↔ w.CanDecline env)
      (fun _ w' => w'.HungUp ↔ w.CanDecline env) w
    exact wp_reset.2 (iff_of_true w.cleared_hungUp fun hn => absurd hr hn)
  | some r =>
    refine wp_mono wp_reply ?_ ?_
    · rintro - w' ⟨_, -, hc, -⟩
      exact wp_reset.2 (iff_of_true w'.cleared_hungUp fun _ => hc)
    · rintro e w' ⟨hc, hw⟩
      have hr' : w'.service.currentRequest = some r := by
        rcases hw with rfl | ⟨_, -, rfl⟩
        · exact hr
        · rw [World.cached_service, hr]
      refine iff_of_false (fun h => ?_) fun h => hc (by simp) (h (by simp [hr]))
      rw [h.request] at hr'
      cases hr'

/-- **Hanging up.**  Along a run of the phone every hang-up leaves it reset exactly when at each
    of them the send gets through, or the phone was reset before. -/
theorem hangs_up_iff (w : World) (is : List SipManager.Input) :
    phone.Along w is (fun _ st => st.input.action.hangsUp = true → st.post.HungUp) ↔
      phone.Along w is fun _ st => GetsReset st.pre st.input := by
  refine phone.along_congr (I := fun _ _ => True) trivial (fun _ _ _ _ => trivial) ?_ is
  rintro - w ⟨env, a⟩ -
  have hq : w.quiet.HungUp ↔ w.HungUp :=
    ⟨fun ⟨h₁, h₂, h₃, h₄, h₅, h₆, h₇, h₈⟩ => ⟨h₁, h₂, h₃, h₄, h₅, h₆, h₇, h₈⟩,
      fun ⟨h₁, h₂, h₃, h₄, h₅, h₆, h₇, h₈⟩ => ⟨h₁, h₂, h₃, h₄, h₅, h₆, h₇, h₈⟩⟩
  cases a with
  | endCall =>
    have h : (phone.step w ⟨env, .endCall⟩).HungUp ↔ w.quiet.CanEnd env ∨ w.quiet.HungUp :=
      endCall_hungUp
    rw [hq] at h
    exact ⟨fun hp => h.1 (hp rfl), fun hc _ => h.2 hc⟩
  | declineCall =>
    have h : (phone.step w ⟨env, .declineCall⟩).HungUp ↔ w.quiet.CanDecline env :=
      declineCall_hungUp
    exact ⟨fun hp => h.1 (hp rfl), fun hc _ => h.2 hc⟩
  | registerProfile | unregisterProfile | sendInvite | acceptCall | confirmStateAndReset | close
  | request | response => exact iff_of_true (fun h => by cases h) trivial

/-- An incoming call that the user ends instead of declining it: there is nothing to cancel, and
    the phone stays in the call. -/
theorem endCall_leaves_call : ¬ ∀ w, phone.init w → ∀ is,
    phone.Along w is fun _ st => st.input.action.hangsUp = true → st.post.HungUp := by
  intro h
  have hp := h Trace.idle Trace.idle_init
    [⟨Trace.calm, .request (Trace.offer 7 "alice".toList "0".toList)⟩, ⟨Trace.calm, .endCall⟩]
    [_] _ [] rfl rfl
  exact absurd hp.state (by decide)

end JaySip
