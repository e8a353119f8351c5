/-
  Half-open calls: which answers to an INVITE the client acknowledges, among peers and
  messages in flight.
-/
import JaySip.Proof.Answers

namespace JaySip

open Java

variable {n : Network}

/-! ## The client in the network -/

/-- A move of the network is a step of the client, or none. -/
theorem Network.step_world (n : Network) (m : Move) :
    (n.step m).world = n.world ∨ ∃ i, (n.step m).world = client.step n.world i := by
  cases m with
  | operate env action =>
    rw [Network.step]
    split_ifs
    · exact Or.inr ⟨_, rfl⟩
    · exact Or.inl rfl
  | answer ev =>
    rw [Network.step]
    split_ifs <;> exact Or.inl rfl
  | call ev => exact Or.inl rfl
  | deliver env k =>
    rw [Network.step]
    split
    · exact Or.inr ⟨_, rfl⟩
    · exact Or.inl rfl
  | lose k => exact Or.inl rfl

/-- Each run of the network is a run of the client. -/
theorem Network.run_world (n : Network) (ms : List Move) :
    ∃ is, (network.run n ms).world = client.run n.world is := by
  induction ms using List.reverseRecOn with
  | nil => exact ⟨[], rfl⟩
  | append_singleton ms m ih =>
    obtain ⟨is, hi⟩ := ih
    rw [network.run_append]
    rcases (network.run n ms).step_world m with h | ⟨i, h⟩
    · exact ⟨is, h.trans hi⟩
    · exact ⟨is ++ [i], by rw [client.run_append, ← hi]; exact h⟩

/-- The client of a reachable network is reachable. -/
theorem Network.world_reachable (h : network.Reachable n) : client.Reachable n.world := by
  obtain ⟨n₀, ms, h₀, rfl⟩ := h
  obtain ⟨is, hi⟩ := n₀.run_world ms
  exact ⟨n₀.world, is, h₀.1, hi.symm⟩

/-- The responses to INVITEs and REGISTERs in flight answer requests of the client. -/
def Network.Caused (n : Network) : Prop :=
  ∀ ev, Delivery.response ev ∈ n.inFlight →
    (ev.response.method = .invite ∨ ev.response.method = .register) →
    ∃ q ∈ n.sent, ev.response.Answers q

theorem Network.Caused.act (h : n.Caused) (i : Input) : (n.act i).Caused := by
  intro ev hev hm
  obtain ⟨q, hq, ha⟩ := h ev hev hm
  exact ⟨q, List.mem_append_left _ hq, ha⟩

theorem Network.Caused.erase (h : n.Caused) (k : ℕ) :
    Network.Caused { n with inFlight := n.inFlight.eraseIdx k } :=
  fun ev hev hm => h ev (List.mem_of_mem_eraseIdx hev) hm

theorem network_caused (h : network.Reachable n) : n.Caused := by
  refine h.inv network ?_ ?_
  · rintro n₀ ⟨-, -, hf⟩ ev hev
    simp [hf] at hev
  · intro n m hn
    cases m with
    | operate env action =>
      change (Network.step n (.operate env action)).Caused
      rw [Network.step]
      split_ifs
      · exact hn.act _
      · exact hn
    | answer ev =>
      change (Network.step n (.answer ev)).Caused
      rw [Network.step]
      split_ifs with ha
      · intro ev' hev hm
        rcases List.mem_append.1 hev with hev | hev
        · exact hn ev' hev hm
        · cases List.mem_singleton.1 hev
          exact ha hm
      · exact hn
    | call ev =>
      intro ev' hev hm
      rcases List.mem_append.1 hev with hev | hev
      · exact hn ev' hev hm
      · cases List.mem_singleton.1 hev
    | deliver env k =>
      change (Network.step n (.deliver env k)).Caused
      rw [Network.step]
      split
      · exact (hn.erase k).act _
      · exact hn
    | lose k => exact hn.erase k

/-! ## Acknowledgements -/

/-- The step delivers a 200 with a body in the dialog `d` that answers an INVITE of the client. -/
structure Confirmed (st : Machine.Step Network Move) (env : Env) (ev : ResponseEvent)
    (d : Dialog) : Prop where
  delivered : ∃ k, st.input = .deliver env k ∧ st.pre.inFlight[k]? = some (.response ev)
  status : ev.response.status = 200
  body : ev.response.rawContent ≠ none
  dialog : ev.getDialog = some d
  answers : ∃ q ∈ st.pre.sent, q.method = .invite ∧ ev.response.Answers q

/-- Such a 200 is acknowledged in its dialog. -/
def Confirms (st : Machine.Step Network Move) : Prop :=
  ∀ env ev d, Confirmed st env ev d → ∃ n, Output.ack d n ∈ st.post.world.out

/-- Such a 200 arrives while the client is CALLING or RINGING, gives a session and a list of
    codecs, and the stack takes the ACK. -/
def Awaited (st : Machine.Step Network Move) : Prop :=
  ∀ env ev d, Confirmed st env ev d → Waiting st.pre.world ∧
    (∃ s, ev.response.session env.getByName = .ok s) ∧
    (∃ fs, ev.response.formats st.pre.world.handler.localSipProfile = .ok fs) ∧
    env.fails .createAck = none ∧ env.fails .sendAck = none

/-- **Every answer to an INVITE is acknowledged in exactly the runs of the network where each
    of them is awaited.** -/
theorem confirms_along_iff (n₀ : Network) (ms : List Move) :
    network.Along n₀ ms (fun _ st => Confirms st) ↔
      network.Along n₀ ms fun _ st => Awaited st := by
  refine network.along_congr (I := fun _ _ => True) trivial (fun _ _ _ _ => trivial) ?_ ms
  rintro - n m -
  refine forall_congr' fun env => forall_congr' fun ev => forall_congr' fun d =>
    forall_congr' fun hc => ?_
  obtain ⟨k, rfl, hk⟩ := hc.delivered
  have hpost : (network.stepOf n (.deliver env k)).post.world =
      step n.world ⟨env, .response ev⟩ := by
    change (Network.step n (.deliver env k)).world = _
    rw [Network.step, show n.inFlight[k]? = _ from hk]
    rfl
  rw [hpost]
  exact step_responds.ack_iff (w := n.world.quiet) hc.status hc.body hc.dialog (by simp)

/-- A network with Alice's new client. -/
def Trace.network : Network := ⟨idle, [], []⟩

/-- Bob takes a call that Alice has left to register: nobody acknowledges his answer. -/
theorem answer_unacknowledged : ¬ ∀ n₀, network.init n₀ → ∀ ms,
    network.Along n₀ ms fun _ st => Confirms st := by
  intro h
  have hrun := h Trace.network ⟨Trace.idle_init, rfl, rfl⟩
    ([.operate Trace.calm (.sendInvite Trace.bob), .operate Trace.calm .register,
      .answer (Trace.answer 200 .invite 0 (some (Trace.audio "0".toList)))] ++
        [.deliver Trace.calm 0])
  obtain ⟨n, hn⟩ := (network.along_snoc.1 hrun).2 Trace.calm
    (Trace.answer 200 .invite 0 (some (Trace.audio "0".toList))) ⟨0, 0⟩
    ⟨⟨0, rfl, by decide⟩, rfl, by simp [Trace.answer, Trace.message], rfl, by decide⟩
  have hout : (network.run Trace.network [.operate Trace.calm (.sendInvite Trace.bob),
      .operate Trace.calm .register,
      .answer (Trace.answer 200 .invite 0 (some (Trace.audio "0".toList))),
      .deliver Trace.calm 0]).world.out = [.status .ready none] := by
    decide
  have hn' := hout ▸ hn
  simp at hn'

end JaySip
