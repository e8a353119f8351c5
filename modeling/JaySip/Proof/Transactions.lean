/-
  The cached server transaction: which responses go out on a transaction of the request
  they answer.
-/
import JaySip.Proof.Invariants

namespace JaySip

open Java

variable {env : Env} {w w' : World}

/-- Every response of a step goes out on a transaction of the request it answers. -/
def OwnTransactions (w : World) : Prop :=
  ∀ t r, Output.response t r ∈ w.out → t.request = r.request

instance (w : World) : Decidable (OwnTransactions w) :=
  decidable_of_iff (∀ p ∈ w.responses, p.1.request = p.2.request)
    ⟨fun h t r ho => h (t, r) (mem_responses.2 ho), fun h p hp => h p.1 p.2 (mem_responses.1 hp)⟩

/-- The cached transaction, if any, is that of the request the user can still answer. -/
def Paired (w : World) : Prop :=
  ∀ t q, w.handler.serverTransaction = some t → w.service.currentRequest = some q → t.request = q

/-- The INVITE `r` gets as far as its called user. -/
def Calls (env : Env) (w : World) (r : Request) (user : Str) : Prop :=
  ∃ fs sdp s, Opens env w r fs sdp s ∧ s.calledUser = .ok user

/-- An INVITE that is answered busy arrives with no transaction and no request held; one
    whose called user is read arrives with no transaction held, and unless it is for the
    local user with no request either. -/
structure Undisturbed (env : Env) (w : World) (r : Request) : Prop where
  busy : w.service.currentSession ≠ none →
    w.handler.serverTransaction = none ∧ w.service.currentRequest = none
  calls : ∀ user, Calls env w r user → w.handler.serverTransaction = none ∧
    (user = w.handler.localSipProfile.userName ∨ w.service.currentRequest = none)

theorem Undisturbed.of_eq {r : Request} (h : Undisturbed env w r) (hs : w'.service = w.service)
    (hh : w'.handler = w.handler) : Undisturbed env w' r := by
  refine ⟨by rw [hs, hh]; exact h.busy, fun user hc => ?_⟩
  obtain ⟨fs, sdp, s, ho, hu⟩ := hc
  rw [hs, hh]
  exact h.calls user ⟨fs, sdp, s, ⟨hs ▸ ho.free, ho.describes, hh ▸ ho.answer, ho.session⟩, hu⟩

/-- Every INVITE is undisturbed, and a BYE has its own transaction, or no body, or comes
    with none held. -/
def KeepsTransactions (w : World) (i : Input) : Prop :=
  match i.action with
  | .request ev =>
    (ev.message.method = .invite → Undisturbed i.env w (w.received ev)) ∧
    (ev.message.method = .bye → ev.hasTransaction ∨ ev.message.rawContent = none ∨
      w.handler.serverTransaction = none)
  | _ => True

/-- The transaction for `r`, where any cached one is its own. -/
theorem transactionFor_request {r : Request}
    (ht : ∀ t, w.handler.serverTransaction = some t → t.request = r) :
    (w.transactionFor r).request = r := by
  unfold World.transactionFor
  cases hs : w.handler.serverTransaction with
  | none => rfl
  | some t => exact ht t hs

theorem own_emit {t : ServerTransaction} {reply : Reply} (h : OwnTransactions w)
    (ht : t.request = reply.request) : OwnTransactions (w.emit (.response t reply)) := by
  intro t' r ho
  rw [World.emit_out, List.mem_append, List.mem_singleton] at ho
  rcases ho with ho | ho
  · exact h t' r ho
  · obtain ⟨rfl, rfl⟩ := Output.response.inj ho
    exact ht

theorem own_replied {reply : Reply} (h : OwnTransactions w)
    (ht : ∀ t, w.handler.serverTransaction = some t → t.request = reply.request) :
    OwnTransactions (w.replied reply) :=
  own_emit (fun t r ho => h t r (by simpa using ho)) (transactionFor_request ht)

/-- Both at once. -/
structure Kept (w : World) : Prop where
  paired : Paired w
  own : OwnTransactions w

namespace Kept

theorem quiet (h : Paired w) : Kept w.quiet := ⟨h, fun _ _ ho => nomatch ho⟩

theorem aside (h : Kept w) (ha : Aside w w') : Kept w' :=
  ⟨fun t q ht hq => h.paired t q (ha.transaction ▸ ht) (ha.request ▸ hq),
    fun t r ho => h.own t r (ha.responses t r ho)⟩

/-- Steps that hold nothing, with no response. -/
theorem update (h : Kept w)
    (ht : ∀ t, w'.handler.serverTransaction = some t → w.handler.serverTransaction = some t)
    (hq : ∀ q, w'.service.currentRequest = some q → w.service.currentRequest = some q)
    (ho : ∀ t r, Output.response t r ∈ w'.out → Output.response t r ∈ w.out) : Kept w' :=
  ⟨fun t q ht' hq' => h.paired t q (ht t ht') (hq q hq'), fun t r ho' => h.own t r (ho t r ho')⟩

theorem cached {r : Request} (h : Kept w)
    (ht : ∀ t, w.handler.serverTransaction = some t → t.request = r)
    (hq : ∀ q, w.service.currentRequest = some q → q = r) : Kept (w.cached r) := by
  refine ⟨fun t q ht' hq' => ?_, fun t r' ho => h.own t r' (by simpa using ho)⟩
  have ht' : w.transactionFor r = t := by simpa using ht'
  rw [← ht', transactionFor_request ht]
  exact (hq q (by simpa using hq')).symm

theorem replied {reply : Reply} (h : Kept w)
    (ht : ∀ t, w.handler.serverTransaction = some t → t.request = reply.request)
    (hq : ∀ q, w.service.currentRequest = some q → q = reply.request) :
    Kept (w.replied reply) :=
  ⟨(h.cached ht hq).paired, own_replied h.own ht⟩

theorem setStatusChanged {st : SipManagerState} {info : Option Str} (h : Kept w) :
    Kept (w.setStatusChanged st info) := h.aside ⟨rfl, rfl, by simp⟩

theorem accepts (h : Kept w) (ha : Accepts env w w') : Kept w' := by
  have hs : ∀ fs, Kept (w.setSipAudioFormats fs) := fun fs => ⟨h.1, h.2⟩
  cases ha with
  | accepted r fs sdp hr _ =>
    exact replied (hs fs) (fun t ht => h.paired t r ht hr) fun q hq => by simpa [hr] using hq.symm
  | failed r fs hr => exact hs fs
  | failedCached r fs hr =>
    exact cached (hs fs) (fun t ht => h.paired t r ht hr) fun q hq => by simpa [hr] using hq.symm
  | idle => exact h

theorem declines (h : Kept w) (hd : Declines env w w') : Kept w' := by
  cases hd with
  | declined r hr _ =>
    exact replied h (fun t ht => h.paired t r ht hr) fun q hq => by simpa [hr] using hq.symm
  | failed r hr =>
    exact cached h (fun t ht => h.paired t r ht hr) fun q hq => by simpa [hr] using hq.symm
  | idle => exact h

theorem invited {r : Request} (h : Kept w) (hu : Undisturbed env w r) (hi : Invited env w r w') :
    Kept w' := by
  -- a reply to `r` on the fresh transaction, with no other request held
  have free : w.handler.serverTransaction = none →
      ∀ t, w.handler.serverTransaction = some t → t.request = r := by
    intro hn t ht
    rw [hn] at ht
    cases ht
  have opened : ∀ fs sdp s, Kept (w.opened fs sdp s) :=
    fun fs sdp s => h.aside ⟨by simp, by simp, by simp⟩
  have holds : ∀ fs sdp s, w.handler.serverTransaction = none →
      Kept ((w.opened fs sdp s).setRequest (some r)) :=
    fun fs sdp s hn => ⟨fun t q ht _ => by simp [hn] at ht, (opened fs sdp s).own⟩
  have rings : ∀ fs sdp s, w.handler.serverTransaction = none →
      Kept (((w.opened fs sdp s).setRequest (some r)).replied { status := 180, request := r }) :=
    fun fs sdp s hn => (holds fs sdp s hn).replied (free hn) (by simp)
  cases hi with
  | busy hs _ => exact h.replied (free (hu.busy hs).1) (by simp [(hu.busy hs).2])
  | busyFailed w₁ hs _ hw =>
    rcases hw with rfl | rfl
    · exact h.setStatusChanged
    · exact (h.cached (free (hu.busy hs).1) (by simp [(hu.busy hs).2])).setStatusChanged
  | unread fs => exact h.aside ⟨by simp, by simp, by simp⟩
  | declined q _ _ _ hq =>
    refine replied (h.aside ⟨by simp, by simp, by simp⟩) (fun t ht => h.paired t q ht hq) ?_
    intro q' hq'
    simpa [hq] using hq'.symm
  | declineFailed w₁ _ _ _ _ hw =>
    have hsdp : Kept (w.setSdp none) := h.aside ⟨by simp, by simp, by simp⟩
    rcases hw with rfl | ⟨q, hq, rfl⟩
    · exact hsdp.setStatusChanged
    · exact (hsdp.cached (fun t ht => h.paired t q ht hq)
        fun q' hq' => by simpa [hq] using hq'.symm).setStatusChanged
  | noSession fs sdp => exact h.aside ⟨by simp, by simp, by simp⟩
  | noUser fs sdp s => exact (opened fs sdp s).setStatusChanged
  | notFound fs sdp s user ho hc hn _ =>
    obtain ⟨hf, hq⟩ := hu.calls user ⟨fs, sdp, s, ho, hc⟩
    exact (opened fs sdp s).replied (free hf) (by simp [hq.resolve_left hn])
  | notFoundFailed fs sdp s user w₁ ho hc hn _ hw =>
    obtain ⟨hf, hq⟩ := hu.calls user ⟨fs, sdp, s, ho, hc⟩
    rcases hw with rfl | rfl
    · exact (opened fs sdp s).setStatusChanged
    · exact ((opened fs sdp s).cached (free hf) (by simp [hq.resolve_left hn])).setStatusChanged
  | rang fs sdp s number ho hc _ _ =>
    have hf := (hu.calls _ ⟨fs, sdp, s, ho, hc⟩).1
    exact (rings fs sdp s hf).aside ⟨by simp, by simp, by simp⟩
  | rangError fs sdp s e ho hc _ _ =>
    have hf := (hu.calls _ ⟨fs, sdp, s, ho, hc⟩).1
    exact (rings fs sdp s hf).setStatusChanged
  | ringFailed fs sdp s w₁ ho hc _ hw =>
    have hf := (hu.calls _ ⟨fs, sdp, s, ho, hc⟩).1
    rcases hw with rfl | rfl
    · exact (holds fs sdp s hf).setStatusChanged
    · exact ((holds fs sdp s hf).cached (free hf) (by simp)).setStatusChanged

theorem received {ev : RequestEvent} (h : Kept w)
    (hu : ev.message.method = .invite → Undisturbed env w (w.received ev))
    (hb : ev.message.method = .bye → ev.hasTransaction ∨ ev.message.rawContent = none ∨
      w.handler.serverTransaction = none) (hr : Receives env w ev w') : Kept w' := by
  have ht : Kept w.tick := h.aside ⟨by simp, by simp, by simp⟩
  cases hr with
  | invite _ hm hi => exact ht.invited ((hu hm).of_eq rfl rfl) hi
  | cancel => exact ht.update (by simp [SipMessageHandler.reset]) (by simp) (by simp)
  | ack _ _ ha =>
    cases ha with
    | established => exact ht.aside ⟨by simp, by simp, by simp⟩
    | unnumbered => exact ht.aside ⟨by simp, by simp, by simp⟩
    | ignored => exact ht
  | bye w₁ hm hy =>
    suffices ho : OwnTransactions w₁ from ⟨fun t q ht => (nomatch ht), fun t r ho' =>
      ho t r (by simpa using ho')⟩
    unfold World.byeTransaction at hy
    split_ifs at hy with hh
    · cases hy with
      | confirmed => exact own_emit ht.own rfl
      | failed _ fs w₂ hw =>
        intro t r ho
        refine ht.own t r ?_
        rcases hw with rfl | rfl <;> simpa using ho
    · cases hy with
      | answered fs sdp ha =>
        have hn : w.handler.serverTransaction = none := by
          rcases hb hm with h | h | h
          · exact absurd h hh
          · rw [answer_of_unread (by rw [World.received, h]; rfl)] at ha
            cases ha
          · exact h
        exact own_replied ht.own (by simp [hn])
      | failed _ fs w₂ hw =>
        intro t r ho
        refine ht.own t r ?_
        rcases hw with rfl | rfl <;> simpa using ho
  | other => exact ht

theorem step {i : Input} (h : Paired w) (hk : KeepsTransactions w i) : Kept (JaySip.step w i) := by
  have hq : Kept w.quiet := quiet h
  generalize hw : JaySip.step w i = w'
  have hs := hw ▸ stepped w i
  cases hs with
  | register _ _ hr => exact hq.setStatusChanged.aside hr.aside
  | unregister _ _ hr => exact hq.setStatusChanged.aside hr.aside
  | sendInvite _ _ contact hi =>
    have hc : Aside w.quiet (w.quiet.calls contact) := ⟨by simp, by simp, by simp⟩
    exact (hq.aside hc).aside hi.aside
  | acceptCall _ _ ha => exact hq.accepts ha
  | declineCall _ _ hd => exact hq.declines hd
  | endCall _ _ he => exact hq.aside he.aside
  | reset => exact hq.update (by simp [SipMessageHandler.reset]) (by simp) (by simp)
  | request _ _ _ hr => exact hq.received (fun hm => (hk.1 hm).of_eq rfl rfl) hk.2 hr
  | response _ _ _ hr => exact hq.aside hr.aside

end Kept

/-- **Responses go out on their own transactions, as long as no call disturbs the one
    before it.** -/
theorem responses_own {s₀ : World} (h₀ : client.init s₀) (is : List Input)
    (h : client.Along s₀ is fun _ st => KeepsTransactions st.pre st.input) :
    client.Along s₀ is fun _ st => OwnTransactions st.post := by
  refine (client.along_inv (I := fun _ w => Paired w) ?_ ?_ is h).2
  · obtain ⟨profile, localIPAddress, localSipPort, rfl⟩ := h₀
    exact fun t q ht => nomatch ht
  · intro l w i hw hk
    have hs := Kept.step hw hk
    exact ⟨hs.paired, hs.own⟩

/-- An accepted call. -/
theorem responses_own_accepted : OwnTransactions (client.run Trace.idle
    [Trace.invite 7 "alice".toList "0".toList, Trace.act .acceptCall]) := by
  have h := responses_own Trace.idle_init
    ([Trace.invite 7 "alice".toList "0".toList] ++ [Trace.act .acceptCall]) ?_
  · exact (client.along_snoc.1 h).2
  · refine client.along_cons.2 ⟨⟨fun _ => ⟨fun hs => absurd rfl hs, fun _ _ => ⟨rfl, Or.inr rfl⟩⟩,
      fun hb => nomatch hb⟩, client.along_cons.2 ⟨trivial, client.along_nil _ _⟩⟩

/-- A second INVITE is answered busy on the transaction of the first. -/
theorem busy_on_foreign_transaction : ¬ ∀ s₀, client.init s₀ → ∀ is : List Input,
    client.Along s₀ is fun _ st => OwnTransactions st.post := by
  intro h
  have hrun := h _ Trace.idle_init
    ([Trace.invite 7 "alice".toList "0".toList] ++ [Trace.invite 8 "alice".toList "0".toList])
  have hown := (client.along_snoc.1 hrun).2
  revert hown
  decide

end JaySip
