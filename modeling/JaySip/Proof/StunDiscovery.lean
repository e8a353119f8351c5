/-
  What discovery returns: the end of a path of the flowchart, with the responses that led there,
  whatever the network does.
-/
import JaySip.Proof.StunParsing
import JaySip.Stun.Discovery

namespace JaySip.Stun

open Filter

variable {cs : Charset} {net : Network} {p : Procedure}

/-! ## Responses -/

/-- A response to attempt `k` of a test from `peer`.  The header that there is before any response
    would be taken for one to a transaction of zeros. -/
structure Responds (cs : Charset) (net : Network) (test : Test) (k : ℕ) (peer : Endpoint)
    (mh : MessageHeader) : Prop where
  attempt : k < 8
  read : mh.Read cs
  transaction : mh.id = net.id test k
  seen : mh = .new none ∨ ∃ sent n d, net.arrivals test k sent peer n = .ok d ∧ d.source = peer ∧
    parse cs (buffer d.data) = some (.ok mh)

/-- A datagram that can be read, of another transaction. -/
def Foreign (cs : Charset) (id : { l : List UInt8 // l.length = 16 })
    (arrival : Except Stop Datagram) : Prop :=
  ∃ mh, heard cs arrival = some (.ok mh) ∧ mh.id ≠ id

/-- The wait for a response has no end: there is no end of datagrams of other transactions, or
    they are followed by one that is parsed forever. -/
def Waits (cs : Charset) (id : { l : List UInt8 // l.length = 16 })
    (arrivals : ℕ → Except Stop Datagram) : Prop :=
  (∀ n, Foreign cs id (arrivals n)) ∨
    ∃ n, (∀ j < n, Foreign cs id (arrivals j)) ∧ heard cs (arrivals n) = none

section
variable {data : List UInt8} {mh mh₀ sendMH : MessageHeader}

theorem ofMessage_eq_ok {α : Type} {x : Except Thrown α} {a : α} :
    ofMessage x = .ok a ↔ x = .ok a := by
  cases x <;> simp [ofMessage]

theorem parseHeader_new (h : parseHeader data = .ok mh) : ∃ type, mh = .new type := by
  unfold parseHeader at h
  split at h
  · cases h
  · cases h
  · split_ifs at h <;> cases h <;> exact ⟨_, rfl⟩

theorem read_of_parse (h : parse cs data = some (.ok mh)) : mh.Read cs := by
  unfold parse at h
  split at h
  · cases h
  next mh₀ h₀ =>
    obtain ⟨type, rfl⟩ := parseHeader_new h₀
    obtain ⟨r, hr, h⟩ := Option.map_eq_some_iff.1 h
    rw [ofMessage_eq_ok.1 h] at hr
    exact read_of_parseAttributes hr

theorem heard_eq_ok {arrival : Except Stop Datagram} : heard cs arrival = some (.ok mh) ↔
    ∃ d, arrival = .ok d ∧ parse cs (buffer d.data) = some (.ok mh) := by
  cases arrival <;> simp [heard]

theorem read_new (type : Option MessageHeaderType) : (MessageHeader.new type).Read cs := by
  intro _ _ h
  cases h

theorem equalTransactionID_iff : mh.equalTransactionID sendMH = true ↔ mh.id = sendMH.id := by
  rw [MessageHeader.equalTransactionID, beq_iff_eq, Subtype.ext_iff]
  exact eq_comm

section
variable {arrivals : ℕ → Except Stop Datagram} {n turns : ℕ}

theorem receiveTurn_eq (h : mh.id ≠ sendMH.id) : receiveTurn cs sendMH arrivals ⟨n, mh⟩ =
    match heard cs (arrivals n) with
      | none => .inl ⟨n, mh⟩
      | some (.error e) => .inr (.error e)
      | some (.ok receiveMH) => .inl ⟨n + 1, receiveMH⟩ :=
  if_neg (mt equalTransactionID_iff.1 h)

/-- What is received has the right transaction, and was there before or has arrived. -/
theorem receive_eq_ok (h : receive cs sendMH arrivals turns = some (.ok mh)) :
    mh.id = sendMH.id ∧ (mh = .new none ∨ ∃ n, heard cs (arrivals n) = some (.ok mh)) := by
  refine Iteration.run_invariant (I := fun s => s.receiveMH = .new none ∨
      ∃ n, heard cs (arrivals n) = some (.ok s.receiveMH))
    (Q := fun r => ∀ mh, r = .ok mh → mh.id = sendMH.id ∧
      (mh = .new none ∨ ∃ n, heard cs (arrivals n) = some (.ok mh))) ?_ ?_ (Or.inl rfl) h mh rfl
  · intro s s' hs hturn
    by_cases heq : s.receiveMH.id = sendMH.id
    · rw [receiveTurn, if_pos (equalTransactionID_iff.2 heq)] at hturn
      cases hturn
    · rw [receiveTurn_eq heq] at hturn
      split at hturn
      · cases hturn
        exact hs
      · cases hturn
      next hheard =>
        cases hturn
        exact Or.inr ⟨_, hheard⟩
  · rintro s r hs hturn mh rfl
    by_cases heq : s.receiveMH.id = sendMH.id
    · rw [receiveTurn, if_pos (equalTransactionID_iff.2 heq)] at hturn
      cases hturn
      exact ⟨heq, hs⟩
    · rw [receiveTurn_eq heq] at hturn
      split at hturn <;> cases hturn

/-- Datagrams of other transactions are passed over. -/
theorem receive_foreign (h₀ : (MessageHeader.new none).id ≠ sendMH.id)
    (h : ∀ j < n, Foreign cs sendMH.id (arrivals j)) : ∃ mh, mh.id ≠ sendMH.id ∧
      ∀ turns, receive cs sendMH arrivals (n + turns) =
        Iteration.run (receiveTurn cs sendMH arrivals) turns ⟨n, mh⟩ := by
  induction n with
  | zero => exact ⟨_, h₀, fun turns => by rw [Nat.zero_add]; rfl⟩
  | succ n ih =>
    obtain ⟨mh, hmh, hrun⟩ := ih fun j hj => h j (Nat.lt_succ_of_lt hj)
    obtain ⟨mh', hheard, hmh'⟩ := h n (Nat.lt_succ_self n)
    refine ⟨mh', hmh', fun turns => ?_⟩
    rw [Nat.add_assoc, Nat.add_comm 1, hrun]
    refine Iteration.run_inl ?_
    rw [receiveTurn_eq hmh, hheard]

/-- The first arrival that is not of another transaction ends the wait, unless it is parsed
    forever. -/
theorem receive_first {r : Except Stop MessageHeader}
    (h₀ : (MessageHeader.new none).id ≠ sendMH.id)
    (h : ∀ j < n, Foreign cs sendMH.id (arrivals j)) (hn : heard cs (arrivals n) = some r)
    (hr : ∀ mh, r = .ok mh → mh.id = sendMH.id) :
    ∀ᶠ turns in atTop, receive cs sendMH arrivals turns = some r := by
  obtain ⟨mh, hmh, hrun⟩ := receive_foreign h₀ h
  refine Iteration.eventually_run (n := n + 2) ((hrun 2).trans ?_)
  have hturn : receiveTurn cs sendMH arrivals ⟨n, mh⟩ = _ := receiveTurn_eq hmh
  rw [hn] at hturn
  cases r with
  | error e => exact Iteration.run_inr hturn
  | ok mh' =>
    rw [Iteration.run_inl hturn]
    refine Iteration.run_inr ?_
    exact if_pos (equalTransactionID_iff.2 (hr mh' rfl))

/-- A wait has an end, or waits for ever. -/
theorem receive_ends (h : ¬ Waits cs sendMH.id arrivals) :
    ∃ r, ∀ᶠ turns in atTop, receive cs sendMH arrivals turns = some r := by
  by_cases h₀ : (MessageHeader.new none).id = sendMH.id
  · refine ⟨.ok (.new none), Iteration.eventually_run (n := 1) (Iteration.run_inr ?_)⟩
    exact if_pos (equalTransactionID_iff.2 h₀)
  · obtain ⟨hall, hnone⟩ := not_or.1 h
    classical
    have hex := not_forall.1 hall
    have hmin : ∀ j < Nat.find hex, Foreign cs sendMH.id (arrivals j) := fun j hj =>
      not_not.1 (Nat.find_min hex hj)
    cases hheard : heard cs (arrivals (Nat.find hex)) with
    | none => exact absurd ⟨_, hmin, hheard⟩ hnone
    | some r =>
      refine ⟨r, receive_first h₀ hmin hheard fun mh hr => ?_⟩
      by_contra hne
      exact Nat.find_spec hex ⟨mh, hr ▸ hheard, hne⟩

end

/-- An address that is read can be used. -/
theorem MessageHeader.Read.endpointOf {type : MessageAttributeType} {a : Fin 65537 × Option Address}
    (h : mh.Read cs) (ha : addressAttribute mh type = some a) :
    ∃ e, endpointOf (some a) = .ok e := by
  unfold addressAttribute at ha
  split at ha
  next kind port address hma =>
    cases ha
    obtain ⟨-, -, -, bytes, hb⟩ := h.getMessageAttribute hma
    obtain ⟨_, _, hb⟩ := Java.bind_eq_ok.1 hb
    simp only [Java.bind_eq_ok] at hb
    obtain ⟨_, _, _, _, _, _, _, _, address', haddress, bytes', hbytes, _⟩ := hb
    cases address with
    | none => cases haddress
    | some a =>
      obtain rfl : a = address' := Except.ok.inj haddress
      refine ⟨⟨bytes', port.val⟩, ?_⟩
      show (do return ⟨← ofMessage a.getBytes, port.val⟩ : Except Stop Endpoint) = _
      rw [hbytes]
      rfl
  next => cases ha

theorem MessageHeader.Read.errorInfo (h : mh.Read cs) (di : DiscoveryInfo) :
    errorInfo mh di = none := by
  rw [Stun.errorInfo, h.errorCode]

end

/-! ## Attempts -/

section
variable {turns k : ℕ} {t t' t₁ : DiscoveryTest} {b : Option Bool} {e : Stop}

/-- An attempt that gives a result has had a response. -/
theorem attempt_ok (hk : k < 8) (h : p.attempt cs net turns k t = some (t', .ok b)) :
    ∃ t₁ peer mh, p.send cs net k t = .ok (t₁, peer) ∧ Responds cs net p.test k peer mh ∧
      p.conclude t₁ mh = .ok (t', b) := by
  unfold Procedure.attempt at h
  split at h
  · cases h
  next t₁ peer hsend =>
    obtain ⟨r, hr, h⟩ := Option.map_eq_some_iff.1 h
    split at h
    · cases h
    next t₂ b' hresult =>
      cases h
      obtain ⟨mh, rfl, hconclude⟩ := Java.bind_eq_ok.1 hresult
      obtain ⟨hid, hseen⟩ := receive_eq_ok hr
      refine ⟨t₁, peer, mh, hsend, ⟨hk, ?_, hid, ?_⟩, hconclude⟩
      · rcases hseen with rfl | ⟨n, hheard⟩
        · exact read_new none
        · obtain ⟨d, -, hparse⟩ := heard_eq_ok.1 hheard
          exact read_of_parse hparse
      · refine hseen.imp_right ?_
        rintro ⟨n, hheard⟩
        obtain ⟨d, hd, hparse⟩ := heard_eq_ok.1 hheard
        exact ⟨_, n, d, hd, net.connected hd, hparse⟩

theorem attempt_error (h : p.attempt cs net turns k t = some (t', .error e)) :
    t' = t ∨ ∃ peer, p.send cs net k t = .ok (t', peer) := by
  unfold Procedure.attempt at h
  split at h
  · cases h
    exact Or.inl rfl
  next t₁ peer hsend =>
    obtain ⟨r, -, h⟩ := Option.map_eq_some_iff.1 h
    split at h
    · cases h
      exact Or.inr ⟨peer, hsend⟩
    · cases h

/-- An attempt whose request is sent ends as its wait does. -/
theorem attempt_of_receive {peer : Endpoint} {r : Except Stop MessageHeader}
    (hs : p.send cs net k t = .ok (t₁, peer))
    (hr : ∀ᶠ n in atTop, receive cs (p.sendMH net k) (net.arrivals p.test k t₁.sent peer) n =
      some r) : ∀ᶠ n in atTop, p.attempt cs net n k t = some (match r >>= p.conclude t₁ with
        | .error e => (t₁, .error e)
        | .ok (t', b) => (t', .ok b)) := by
  refine hr.mono fun n hn => ?_
  rw [Procedure.attempt, hs]
  exact congrArg (Option.map _) hn

theorem attempt_ends (cs : Charset) (t : DiscoveryTest)
    (h : ∀ t₁ peer, p.send cs net k t = .ok (t₁, peer) →
      ¬ Waits cs (net.id p.test k) (net.arrivals p.test k t₁.sent peer)) :
    ∃ a, ∀ᶠ n in atTop, p.attempt cs net n k t = some a := by
  cases hs : p.send cs net k t with
  | error e =>
    refine ⟨(t, .error e), Eventually.of_forall fun n => ?_⟩
    simp only [Procedure.attempt, hs]
  | ok s =>
    obtain ⟨t₁, peer⟩ := s
    have hw : ¬ Waits cs (p.sendMH net k).id (net.arrivals p.test k t₁.sent peer) := h t₁ peer hs
    obtain ⟨r, hr⟩ := receive_ends hw
    exact ⟨_, attempt_of_receive hs hr⟩

theorem attempt_mono {a : DiscoveryTest × Except Stop (Option Bool)} {n : ℕ} (hn : turns ≤ n)
    (h : p.attempt cs net turns k t = some a) : p.attempt cs net n k t = some a := by
  unfold Procedure.attempt at h ⊢
  split at h
  · exact h
  · obtain ⟨r, hr, rfl⟩ := Option.map_eq_some_iff.1 h
    exact Option.map_eq_some_iff.2 ⟨r, Iteration.run_mono hr hn, rfl⟩

theorem send_eq_ok {peer : Endpoint} (h : p.send cs net k t = .ok (t₁, peer)) :
    ∃ t₀ ends r, p.ends net k t = .ok (t₀, ends) ∧ peer = ends.peer ∧
      t₁ = { t₀ with sent := r :: t₀.sent } := by
  obtain ⟨⟨t₀, ends⟩, hends, h⟩ := Java.bind_eq_ok.1 h
  obtain ⟨data, -, h⟩ := Java.bind_eq_ok.1 h
  obtain ⟨_, -, h⟩ := Java.bind_eq_ok.1 h
  cases h
  exact ⟨t₀, ends, _, hends, rfl, rfl⟩

end

/-! ## Where discovery comes to -/

/-- The order of the tests. -/
inductive Procedure.Follows : Procedure → Procedure → Prop
  | test2 : Follows Stun.test1 Stun.test2
  | test1Redo : Follows Stun.test2 Stun.test1Redo
  | test3 : Follows Stun.test1Redo Stun.test3

/-- Discovery comes to attempt `k` of a test. -/
inductive Comes (cs : Charset) (net : Network) (stunPort : ℕ) :
    Procedure → ℕ → DiscoveryTest → Prop
  | start : Comes cs net stunPort test1 0 { stunPort }
  | again {p : Procedure} {k : ℕ} {t t' : DiscoveryTest} (h : Comes cs net stunPort p k t)
      (hat : ∀ᶠ turns in atTop, p.attempt cs net turns k t = some (t', .error .timeout)) :
      Comes cs net stunPort p (k + 1) t'
  | next {p q : Procedure} {t t' : DiscoveryTest} (hpq : p.Follows q)
      (h : Comes cs net stunPort p 0 t)
      (hrun : ∀ᶠ turns in atTop, p.run cs net 8 turns t = some (.ok (t', true))) :
      Comes cs net stunPort q 0 t'

/-- Discovery comes to an attempt that sends its request, and waits for the response without end. -/
def Hangs (cs : Charset) (net : Network) (stunPort : ℕ) : Prop :=
  ∃ p k t t₁ peer, k < 8 ∧ Comes cs net stunPort p k t ∧ p.send cs net k t = .ok (t₁, peer) ∧
    Waits cs (net.id p.test k) (net.arrivals p.test k t₁.sent peer)

/-! ## The loop of a test -/

/-- `timeSinceFirstTransmission` and `timeout` before attempt `k`. -/
def schedule : ℕ → ℕ × ℕ
  | 0 => (0, 300)
  | k + 1 =>
    ((schedule k).1 + (schedule k).2, min (((schedule k).1 + (schedule k).2) * 2) 1600)

/-- After seven timeouts there is one more attempt. -/
theorem schedule_lt : ∀ k ≤ 7, (schedule k).1 < 7900 ↔ k < 7 := by decide

section
variable {I : ℕ → DiscoveryTest → Prop} {Q : DiscoveryTest → Bool → Prop} {turns : ℕ}
  {t t' : DiscoveryTest} {b : Bool}

/-- A test has eight attempts. -/
theorem run_attempts {Q : Except Stop (DiscoveryTest × Bool) → Prop}
    (hturn : ∀ k t, k < 8 → I k t →
      (∃ t', (∀ᶠ n in atTop, p.attempt cs net n k t = some (t', .error .timeout)) ∧ I (k + 1) t') ∨
      (∃ t' b, (∀ᶠ n in atTop, p.attempt cs net n k t = some (t', .ok (some b))) ∧ Q (.ok (t', b))) ∨
      ∃ t' e, (∀ᶠ n in atTop, p.attempt cs net n k t = some (t', .error e)) ∧ e ≠ .timeout ∧
        Q (.error e))
    (hgive : ∀ t, I 8 t → Q (.ok (p.giveUp t))) (h : I 0 t) :
    ∃ r, (∀ᶠ n in atTop, p.run cs net 8 n t = some r) ∧ Q r := by
  have hrun : ∃ r', (∀ᶠ n in atTop, Iteration.run (p.turn cs net n) 8 ⟨0, 0, 300, t⟩ = some r') ∧
      ∃ r, r' = some r ∧ Q r := by
    refine Iteration.eventually_run_countdown (I := fun n (s : Retry) => s.k + n = 7 ∧
      (s.timeSinceFirstTransmission, s.timeout) = schedule s.k ∧ I s.k s.t) ?_ ⟨rfl, rfl, h⟩
    rintro n s ⟨hk, hs, hI⟩
    have hsince : s.timeSinceFirstTransmission = (schedule s.k).1 := congrArg Prod.fst hs
    have hlt := schedule_lt s.k (by omega)
    rw [← hsince] at hlt
    rcases hturn s.k s.t (by omega) hI with ⟨t', hat, hI'⟩ | ⟨t', b, hat, hQ⟩ | ⟨t', e, hat, he, hQ⟩
    · by_cases h7 : s.k < 7
      · left
        refine ⟨n - 1, ⟨s.k + 1, s.timeSinceFirstTransmission + s.timeout,
          min ((s.timeSinceFirstTransmission + s.timeout) * 2) 1600, t'⟩, by omega, ?_, ?_⟩
        · refine hat.mono fun n hn => ?_
          rw [Procedure.turn, hn]
          exact if_pos (hlt.2 h7)
        · refine ⟨by dsimp only; omega, ?_, hI'⟩
          show _ = schedule (s.k + 1)
          rw [schedule, ← hs]
      · right
        have hk7 : s.k + 1 = 8 := by omega
        rw [hk7] at hI'
        refine ⟨_, hat.mono fun n hn => ?_, _, rfl, hgive t' hI'⟩
        rw [Procedure.turn, hn]
        exact if_neg (mt hlt.1 h7)
    · right
      refine ⟨_, hat.mono fun n hn => ?_, _, rfl, hQ⟩
      rw [Procedure.turn, hn]
    · right
      refine ⟨_, hat.mono fun n hn => ?_, _, rfl, hQ⟩
      rw [Procedure.turn, hn]
      cases e with
      | timeout => exact absurd rfl he
      | _ => rfl
  obtain ⟨_, hr, r, rfl, hQ⟩ := hrun
  exact ⟨r, hr.mono fun n hn => by rw [Procedure.run, hn, Option.join_some], hQ⟩

/-- More turns for each wait do not change a result. -/
theorem run_mono {r : Except Stop (DiscoveryTest × Bool)} {n : ℕ} (hn : turns ≤ n)
    (h : p.run cs net 8 turns t = some r) : p.run cs net 8 n t = some r := by
  have hrun : ∀ attempts s, Iteration.run (p.turn cs net turns) attempts s = some (some r) →
      Iteration.run (p.turn cs net n) attempts s = some (some r) := by
    intro attempts
    induction attempts with
    | zero => exact fun _ h => h
    | succ attempts ih =>
      intro s h
      cases hat : p.attempt cs net turns s.k s.t with
      | none =>
        have hturn : p.turn cs net turns s = .inr none := by rw [Procedure.turn, hat]
        rw [Iteration.run_inr hturn] at h
        cases h
      | some a =>
        have hturn : p.turn cs net n s = p.turn cs net turns s := by
          rw [Procedure.turn, Procedure.turn, hat, attempt_mono hn hat]
        rw [Iteration.run, hturn]
        rw [Iteration.run] at h
        cases hs : p.turn cs net turns s with
        | inl s' =>
          rw [hs] at h
          exact ih s' h
        | inr r' =>
          rw [hs] at h
          exact h
  exact Option.join_eq_some_iff.2 (hrun 8 _ (Option.join_eq_some_iff.1 h))

/-- What a test keeps from attempt to attempt, and what that says of its results. -/
structure Procedure.Keeps (p : Procedure) (cs : Charset) (net : Network)
    (I : ℕ → DiscoveryTest → Prop) (Q : DiscoveryTest → Bool → Prop) : Prop where
  keep : ∀ {k t}, I k t → I (k + 1) t
  send : ∀ {k t t₁ peer}, I k t → p.send cs net k t = .ok (t₁, peer) → I (k + 1) t₁
  conclude : ∀ {k t t₁ peer mh t' b}, I k t → p.send cs net k t = .ok (t₁, peer) →
    Responds cs net p.test k peer mh → p.conclude t₁ mh = .ok (t', b) → ∃ b', b = some b' ∧ Q t' b'
  giveUp : ∀ {t}, I 8 t → Q (p.giveUp t).1 (p.giveUp t).2

namespace Procedure.Keeps

/-- An attempt gives a result, or leaves what is kept, or stops the test. -/
theorem attempt (hp : p.Keeps cs net I Q) {k : ℕ} (hk : k < 8) (hI : I k t)
    {r : Except Stop (Option Bool)} (h : p.attempt cs net turns k t = some (t', r)) :
    (∃ b, r = .ok (some b) ∧ Q t' b) ∨ (r = .error .timeout ∧ I (k + 1) t') ∨
      ∃ e, r = .error e ∧ e ≠ .timeout := by
  cases r with
  | ok b =>
    obtain ⟨t₁, peer, mh, hs, hr, hc⟩ := attempt_ok hk h
    obtain ⟨b', rfl, hQ⟩ := hp.conclude hI hs hr hc
    exact Or.inl ⟨b', rfl, hQ⟩
  | error e =>
    by_cases he : e = .timeout
    · subst he
      refine Or.inr (Or.inl ⟨rfl, ?_⟩)
      rcases attempt_error h with rfl | ⟨peer, hs⟩
      · exact hp.keep hI
      · exact hp.send hI hs
    · exact Or.inr (Or.inr ⟨e, rfl, he⟩)

theorem result (hp : p.Keeps cs net I Q) (hI : I 0 t)
    (h : p.run cs net 8 turns t = some (.ok (t', b))) : Q t' b := by
  refine Iteration.run_invariant (I := fun s : Retry => s.k < 8 ∧
      (s.timeSinceFirstTransmission, s.timeout) = schedule s.k ∧ I s.k s.t)
    (Q := fun r => ∀ t' b, r = some (.ok (t', b)) → Q t' b) ?_ ?_ ⟨Nat.succ_pos 7, rfl, hI⟩
    (Option.join_eq_some_iff.1 h) t' b rfl
  · rintro s s' ⟨hk, hs, hI⟩ hturn
    have hlt := schedule_lt s.k (by omega)
    rw [← hs] at hlt
    unfold Procedure.turn at hturn
    split at hturn
    · cases hturn
    · cases hturn
    next t' hat =>
      rcases hp.attempt hk hI hat with ⟨b, hb, -⟩ | ⟨hb, -⟩ | ⟨e, hb, -⟩ <;> cases hb
    next t' hat =>
      split_ifs at hturn with hsince
      cases hturn
      have hk7 := hlt.1 hsince
      rcases hp.attempt hk hI hat with ⟨b, hb, -⟩ | ⟨-, hI'⟩ | ⟨e, hb, he⟩
      · cases hb
      · refine ⟨Nat.succ_lt_succ hk7, ?_, hI'⟩
        show _ = schedule (s.k + 1)
        rw [schedule, ← hs]
      · cases hb
        exact absurd rfl he
    · cases hturn
  · rintro s r ⟨hk, hs, hI⟩ hturn t' b rfl
    have hlt := schedule_lt s.k (by omega)
    rw [← hs] at hlt
    unfold Procedure.turn at hturn
    split at hturn
    · cases hturn
    next hat =>
      cases hturn
      rcases hp.attempt hk hI hat with ⟨b, hb, hQ⟩ | ⟨hb, -⟩ | ⟨e, hb, -⟩ <;> cases hb
      exact hQ
    · cases hturn
    next t₁ hat =>
      split_ifs at hturn with hsince
      have hgive : p.giveUp t₁ = (t', b) :=
        Except.ok.inj (Option.some.inj (Sum.inr.inj hturn))
      have hk8 : s.k + 1 = 8 := by
        have := mt hlt.2 hsince
        omega
      rcases hp.attempt hk hI hat with ⟨b, hb, -⟩ | ⟨-, hI'⟩ | ⟨e, hb, he⟩
      · cases hb
      · rw [hk8] at hI'
        have hQ := hp.giveUp hI'
        rwa [hgive] at hQ
      · cases hb
        exact absurd rfl he
    · cases hturn

theorem ends {stunPort : ℕ} (hp : p.Keeps cs net I Q) (hI : I 0 t)
    (ht : Comes cs net stunPort p 0 t) (hw : ¬ Hangs cs net stunPort) :
    ∃ r, ∀ᶠ n in atTop, p.run cs net 8 n t = some r := by
  have hrun : ∃ r, (∀ᶠ n in atTop, p.run cs net 8 n t = some r) ∧ True := by
    refine run_attempts (I := fun k t => Comes cs net stunPort p k t ∧ I k t) ?_
      (fun _ _ => trivial) ⟨ht, hI⟩
    rintro k t hk ⟨ht, hI⟩
    obtain ⟨⟨t', r⟩, hat⟩ := attempt_ends cs t fun t₁ peer hs hwaits =>
      hw ⟨p, k, t, t₁, peer, hk, ht, hs, hwaits⟩
    obtain ⟨n, hn⟩ := hat.exists
    rcases hp.attempt hk hI hn with ⟨b, rfl, -⟩ | ⟨rfl, hI'⟩ | ⟨e, rfl, he⟩
    · exact Or.inr (Or.inl ⟨t', b, hat, trivial⟩)
    · exact Or.inl ⟨t', hat, ht.again hat, hI'⟩
    · exact Or.inr (Or.inr ⟨t', e, hat, he, trivial⟩)
  exact hrun.imp fun r h => h.1

end Procedure.Keeps

end

/-! ## The flowchart -/

/-- What is known once test 1 has found the public address of its socket. -/
def located (inside mapped : Endpoint) : DiscoveryInfo :=
  { publicIP := some mapped.address, publicPort := mapped.port, localPort := inside.port }

/-- The server under its name, as attempt `k` of a test finds it, at a port. -/
def Named (net : Network) (test : Test) (k port : ℕ) (peer : Endpoint) : Prop :=
  ∃ address, net.getByName test k = .ok address ∧ peer = ⟨address, port⟩

/-- An attempt of test 1 is answered by the server: its socket `inside` is seen as `mapped`, and
    the other address and port of the server are `changed`. -/
def Locates (cs : Charset) (net : Network) (stunPort : ℕ) (inside mapped changed : Endpoint) :
    Prop :=
  ∃ k sent peer mh, net.bind .test1 k sent = .ok inside ∧ Named net .test1 k stunPort peer ∧
    Responds cs net .test1 k peer mh ∧
    endpointOf (addressAttribute mh .MappedAddress) = .ok mapped ∧
    endpointOf (addressAttribute mh .ChangedAddress) = .ok changed

/-- The paths of the flowchart, with the responses on them. -/
inductive Flowchart (cs : Charset) (net : Network) (stunPort : ℕ) : DiscoveryInfo → Prop
  | blockedUDP : Flowchart cs net stunPort { blockedUDP := true }
  | incompleteTest1 {k : ℕ} {peer : Endpoint} {mh : MessageHeader}
      (hpeer : Named net .test1 k stunPort peer) (h : Responds cs net .test1 k peer mh)
      (hnone : addressAttribute mh .MappedAddress = none ∨
        addressAttribute mh .ChangedAddress = none) :
      Flowchart cs net stunPort (DiscoveryInfo.setError {} 700 (some Stun.incompleteTest1))
  | openAccess {inside changed : Endpoint} {k : ℕ} {mh : MessageHeader}
      (h₁ : Locates cs net stunPort inside inside changed)
      (h₂ : Responds cs net .test2 k changed mh) :
      Flowchart cs net stunPort { located inside inside with openAccess := true }
  | symmetricUDPFirewall {inside changed : Endpoint}
      (h₁ : Locates cs net stunPort inside inside changed) :
      Flowchart cs net stunPort { located inside inside with symmetricUDPFirewall := true }
  | fullCone {inside mapped changed : Endpoint} {k : ℕ} {mh : MessageHeader}
      (h₁ : Locates cs net stunPort inside mapped changed) (hnat : mapped ≠ inside)
      (h₂ : Responds cs net .test2 k changed mh) :
      Flowchart cs net stunPort { located inside mapped with fullCone := true }
  | unknown {inside mapped changed : Endpoint}
      (h₁ : Locates cs net stunPort inside mapped changed) (hnat : mapped ≠ inside) :
      Flowchart cs net stunPort (located inside mapped)
  | incompleteRedo {inside mapped changed : Endpoint} {k : ℕ} {mh : MessageHeader}
      (h₁ : Locates cs net stunPort inside mapped changed) (hnat : mapped ≠ inside)
      (h : Responds cs net .test1Redo k changed mh)
      (hnone : addressAttribute mh .MappedAddress = none) :
      Flowchart cs net stunPort ((located inside mapped).setError 700 (some Stun.incompleteRedo))
  | symmetric {inside mapped changed mapped' : Endpoint} {k : ℕ} {mh : MessageHeader}
      (h₁ : Locates cs net stunPort inside mapped changed) (hnat : mapped ≠ inside)
      (h : Responds cs net .test1Redo k changed mh)
      (hma : endpointOf (addressAttribute mh .MappedAddress) = .ok mapped')
      (hne : mapped ≠ mapped') :
      Flowchart cs net stunPort { located inside mapped with symmetric := true }
  | restrictedCone {inside mapped changed peer : Endpoint} {k k₃ : ℕ} {mh mh₃ : MessageHeader}
      (h₁ : Locates cs net stunPort inside mapped changed) (hnat : mapped ≠ inside)
      (h : Responds cs net .test1Redo k changed mh)
      (hma : endpointOf (addressAttribute mh .MappedAddress) = .ok mapped)
      (hpeer : Named net .test3 k₃ changed.port peer) (h₃ : Responds cs net .test3 k₃ peer mh₃) :
      Flowchart cs net stunPort { located inside mapped with restrictedCone := true }
  | portRestrictedCone {inside mapped changed : Endpoint} {k : ℕ} {mh : MessageHeader}
      (h₁ : Locates cs net stunPort inside mapped changed) (hnat : mapped ≠ inside)
      (h : Responds cs net .test1Redo k changed mh)
      (hma : endpointOf (addressAttribute mh .MappedAddress) = .ok mapped) :
      Flowchart cs net stunPort { located inside mapped with portRestrictedCone := true }

/-- The variables after test 1. -/
structure At (inside mapped changed : Endpoint) (t : DiscoveryTest) : Prop where
  socket : t.socketTest1 = some inside
  ma : endpointOf t.ma = .ok mapped
  ca : endpointOf t.ca = .ok changed
  natted : t.nodeNatted = decide (mapped ≠ inside)
  di : t.di = located inside mapped

/-! ## The tests -/

section
variable {k stunPort : ℕ} {t t' t₁ : DiscoveryTest} {b : Option Bool} {mh : MessageHeader}
  {inside mapped changed peer : Endpoint}

theorem newEnds_eq_ok {test : Test} {socket server : Endpoint} :
    newEnds test net k t = .ok (socket, server) ↔
      net.bind test k t.sent = .ok socket ∧ Named net test k t.stunPort server := by
  rw [newEnds]
  constructor
  · intro h
    obtain ⟨_, hsocket, h⟩ := Java.bind_eq_ok.1 h
    obtain ⟨address, haddress, h⟩ := Java.bind_eq_ok.1 h
    cases h
    exact ⟨hsocket, address, haddress, rfl⟩
  · rintro ⟨hsocket, address, haddress, rfl⟩
    rw [hsocket, Java.ok_bind, haddress, Java.ok_bind]
    rfl

theorem test1_send (h : test1.send cs net k t = .ok (t₁, peer)) :
    ∃ socket r, net.bind .test1 k t.sent = .ok socket ∧ Named net .test1 k t.stunPort peer ∧
      t₁ = { t with socketTest1 := some socket, sent := r :: t.sent } := by
  obtain ⟨t₀, ends, r, hends, rfl, rfl⟩ := send_eq_ok h
  obtain ⟨⟨socket, server⟩, hnew, hends⟩ := Java.bind_eq_ok.1 hends
  obtain ⟨hsocket, hserver⟩ := newEnds_eq_ok.1 hnew
  cases hends
  exact ⟨socket, r, hsocket, hserver, rfl⟩

theorem endpointOf_some {a : Option (Fin 65537 × Option Address)} (h : endpointOf a = .ok mapped) :
    a.isNone = false := by
  cases a with
  | none => cases h
  | some a => rfl

/-- A response that locates the node. -/
theorem test1_concludes (hec : errorInfo mh t.di = none)
    (hma : endpointOf (addressAttribute mh .MappedAddress) = .ok mapped)
    (hca : endpointOf (addressAttribute mh .ChangedAddress) = .ok changed) (hdi : t.di = {})
    (hnat : t.nodeNatted = true) (hsocket : t.socketTest1 = some inside) :
    ∃ t', test1.conclude t mh = .ok (t', some true) ∧ t'.sent = t.sent ∧
      t'.stunPort = t.stunPort ∧ At inside mapped changed t' := by
  have hsome : ((addressAttribute mh .MappedAddress).isNone ||
      (addressAttribute mh .ChangedAddress).isNone) = false := by
    rw [endpointOf_some hma, endpointOf_some hca, Bool.or_false]
  rw [hdi] at hec
  simp only [test1, hdi, hec, hma, hsocket, hnat, hsome, Bool.false_eq_true, if_false, nonNull,
    ofMessage, Java.ok_bind]
  by_cases heq : mapped = inside
  · subst heq
    exact ⟨_, if_pos ⟨rfl, rfl⟩, rfl, rfl, rfl, hma, hca, by simp, rfl⟩
  · have hne : ¬(mapped.port = inside.port ∧ mapped.address = inside.address) :=
      fun h => heq (Endpoint.ext h.2 h.1)
    exact ⟨_, if_neg hne, rfl, rfl, rfl, hma, hca, (decide_eq_true heq).symm, rfl⟩

theorem test1_conclude {sent : List Request} (hdi : t.di = {}) (hnat : t.nodeNatted = true)
    (hsocket : t.socketTest1 = some inside) (hbind : net.bind .test1 k sent = .ok inside)
    (hpeer : Named net .test1 k stunPort peer) (hr : Responds cs net .test1 k peer mh)
    (h : test1.conclude t mh = .ok (t', b)) :
    t'.sent = t.sent ∧ (b = some false ∧ Flowchart cs net stunPort t'.di ∨
      b = some true ∧ ∃ mapped changed, Locates cs net stunPort inside mapped changed ∧
        At inside mapped changed t') := by
  have hincomplete (hnone : addressAttribute mh .MappedAddress = none ∨
      addressAttribute mh .ChangedAddress = none) :
      t'.sent = t.sent ∧ b = some false ∧ Flowchart cs net stunPort t'.di := by
    have hor : ((addressAttribute mh .MappedAddress).isNone ||
        (addressAttribute mh .ChangedAddress).isNone) = true := by
      rcases hnone with hnone | hnone <;> simp [hnone]
    simp only [test1, hr.read.errorInfo, hor, if_true] at h
    cases h
    rw [hdi]
    exact ⟨rfl, rfl, .incompleteTest1 hpeer hr hnone⟩
  cases hma : addressAttribute mh .MappedAddress with
  | none =>
    obtain ⟨hs, hb, hflow⟩ := hincomplete (Or.inl hma)
    exact ⟨hs, Or.inl ⟨hb, hflow⟩⟩
  | some ma =>
    cases hca : addressAttribute mh .ChangedAddress with
    | none =>
      obtain ⟨hs, hb, hflow⟩ := hincomplete (Or.inr hca)
      exact ⟨hs, Or.inl ⟨hb, hflow⟩⟩
    | some ca =>
      obtain ⟨mapped, hmapped⟩ := hr.read.endpointOf hma
      obtain ⟨changed, hchanged⟩ := hr.read.endpointOf hca
      rw [← hma] at hmapped
      rw [← hca] at hchanged
      obtain ⟨t₂, hc, hs, -, hat⟩ := test1_concludes (hr.read.errorInfo _) hmapped hchanged hdi hnat
        hsocket
      rw [hc] at h
      cases h
      exact ⟨hs, Or.inr ⟨rfl, mapped, changed,
        ⟨k, sent, peer, mh, hbind, hpeer, hr, hmapped, hchanged⟩, hat⟩⟩

theorem test2_concludes (hec : errorInfo mh t.di = none) : test2.conclude t mh =
    .ok ({ t with di := if t.nodeNatted then { t.di with fullCone := true }
      else { t.di with openAccess := true } }, some false) := by
  simp only [test2, hec]
  cases t.nodeNatted <;> rfl

theorem test2_conclude (hat : At inside mapped changed t)
    (h₁ : Locates cs net stunPort inside mapped changed) (hr : Responds cs net .test2 k changed mh)
    (h : test2.conclude t mh = .ok (t', b)) :
    t'.sent = t.sent ∧ b = some false ∧ Flowchart cs net stunPort t'.di := by
  rw [test2_concludes (hr.read.errorInfo _)] at h
  cases h
  refine ⟨rfl, rfl, ?_⟩
  rw [hat.natted, hat.di]
  by_cases hnat : mapped = inside
  · subst hnat
    simp only [ne_eq, not_true_eq_false, decide_false]
    exact .openAccess h₁ hr
  · simp only [ne_eq, hnat, not_false_eq_true, decide_true, if_true]
    exact .fullCone h₁ hnat hr

theorem test1Redo_concludes {mapped' : Endpoint} (hec : errorInfo mh t.di = none)
    (hma : endpointOf t.ma = .ok mapped)
    (hma2 : endpointOf (addressAttribute mh .MappedAddress) = .ok mapped') :
    test1Redo.conclude t mh =
      if mapped ≠ mapped' then .ok ({ t with di := { t.di with symmetric := true } }, some false)
      else .ok (t, some true) := by
  simp only [test1Redo, hec, hma, hma2, endpointOf_some hma2, Java.ok_bind]
  rfl

theorem test1Redo_conclude (hat : At inside mapped changed t) (hnat : mapped ≠ inside)
    (h₁ : Locates cs net stunPort inside mapped changed)
    (hr : Responds cs net .test1Redo k changed mh) (h : test1Redo.conclude t mh = .ok (t', b)) :
    t'.sent = t.sent ∧ (b = some false ∧ Flowchart cs net stunPort t'.di ∨
      b = some true ∧ t' = t ∧ endpointOf (addressAttribute mh .MappedAddress) = .ok mapped) := by
  cases hma : addressAttribute mh .MappedAddress with
  | none =>
    simp only [test1Redo, hr.read.errorInfo, hma] at h
    cases h
    rw [hat.di]
    exact ⟨rfl, Or.inl ⟨rfl, .incompleteRedo h₁ hnat hr hma⟩⟩
  | some ma2 =>
    obtain ⟨mapped', hmapped'⟩ := hr.read.endpointOf hma
    rw [← hma] at hmapped' ⊢
    rw [test1Redo_concludes (hr.read.errorInfo _) hat.ma hmapped'] at h
    split_ifs at h with hne
    · cases h
      rw [hat.di]
      exact ⟨rfl, Or.inl ⟨rfl, .symmetric h₁ hnat hr hmapped' hne⟩⟩
    · cases h
      rw [not_not] at hne
      exact ⟨rfl, Or.inr ⟨rfl, rfl, by rw [hmapped', hne]⟩⟩

theorem test3_concludes (hec : errorInfo mh t.di = none) (hnat : t.nodeNatted = true) :
    test3.conclude t mh =
      .ok ({ t with di := { t.di with restrictedCone := true } }, some false) := by
  simp only [test3, hec, hnat]
  rfl

theorem test2_send (h : test2.send cs net k t = .ok (t₁, peer)) :
    (∃ r, t₁ = { t with sent := r :: t.sent }) ∧ endpointOf t.ca = .ok peer := by
  obtain ⟨t₀, ends, r, hends, rfl, rfl⟩ := send_eq_ok h
  obtain ⟨new, -, hends⟩ := Java.bind_eq_ok.1 hends
  obtain ⟨changed, hchanged, hends⟩ := Java.bind_eq_ok.1 hends
  cases hends
  exact ⟨⟨r, rfl⟩, hchanged⟩

theorem test1Redo_send (h : test1Redo.send cs net k t = .ok (t₁, peer)) :
    (∃ r, t₁ = { t with sent := r :: t.sent }) ∧ endpointOf t.ca = .ok peer := by
  obtain ⟨t₀, ends, r, hends, rfl, rfl⟩ := send_eq_ok h
  obtain ⟨socket, -, hends⟩ := Java.bind_eq_ok.1 hends
  obtain ⟨changed, hchanged, hends⟩ := Java.bind_eq_ok.1 hends
  cases hends
  exact ⟨⟨r, rfl⟩, hchanged⟩

theorem test3_send (h : test3.send cs net k t = .ok (t₁, peer)) :
    (∃ r, t₁ = { t with sent := r :: t.sent }) ∧
      ∃ changed, endpointOf t.ca = .ok changed ∧ Named net .test3 k changed.port peer := by
  obtain ⟨t₀, ends, r, hends, rfl, rfl⟩ := send_eq_ok h
  obtain ⟨⟨socket, server⟩, hnew, hends⟩ := Java.bind_eq_ok.1 hends
  obtain ⟨-, address, haddress, rfl⟩ := newEnds_eq_ok.1 hnew
  obtain ⟨changed, hchanged, hends⟩ := Java.bind_eq_ok.1 hends
  cases hends
  exact ⟨⟨r, rfl⟩, changed, hchanged, address, haddress, rfl⟩

/-- What the later tests keep. -/
theorem At.with_sent (h : At inside mapped changed t) (sent : List Request) :
    At inside mapped changed { t with sent } :=
  ⟨h.socket, h.ma, h.ca, h.natted, h.di⟩

theorem test1_keeps : test1.Keeps cs net
    (fun k t => t.di = {} ∧ t.nodeNatted = true ∧ t.stunPort = stunPort ∧ t.sent.length ≤ k)
    (fun t b => t.sent.length ≤ 8 ∧ if b then ∃ inside mapped changed,
      Locates cs net stunPort inside mapped changed ∧ At inside mapped changed t
      else Flowchart cs net stunPort t.di) where
  keep := fun ⟨hdi, hnat, hport, hsent⟩ => ⟨hdi, hnat, hport, hsent.trans (Nat.le_succ _)⟩
  send := by
    rintro k t t₁ peer ⟨hdi, hnat, hport, hsent⟩ hs
    obtain ⟨socket, r, -, -, rfl⟩ := test1_send hs
    exact ⟨hdi, hnat, hport, Nat.succ_le_succ hsent⟩
  conclude := by
    rintro k t t₁ peer mh t' b ⟨hdi, hnat, hport, hsent⟩ hs hr hc
    obtain ⟨socket, r, hbind, hpeer, rfl⟩ := test1_send hs
    rw [hport] at hpeer
    obtain ⟨hsent', ⟨rfl, hflow⟩ | ⟨rfl, mapped, changed, h₁, hat⟩⟩ := test1_conclude
      (t := { t with socketTest1 := some socket, sent := r :: t.sent }) hdi hnat rfl hbind hpeer hr
      hc
    all_goals
      have hlen : t'.sent.length ≤ 8 := by
        rw [hsent']
        exact (Nat.succ_le_succ hsent).trans hr.attempt
    · exact ⟨false, rfl, hlen, hflow⟩
    · exact ⟨true, rfl, hlen, socket, mapped, changed, h₁, hat⟩
  giveUp := by
    rintro t ⟨hdi, hnat, hport, hsent⟩
    refine ⟨hsent, ?_⟩
    show Flowchart cs net stunPort { t.di with blockedUDP := true }
    rw [hdi]
    exact .blockedUDP

theorem test2_keeps (h₁ : Locates cs net stunPort inside mapped changed) : test2.Keeps cs net
    (fun k t => At inside mapped changed t ∧ t.sent.length ≤ 8 + k)
    (fun t b => t.sent.length ≤ 16 ∧ if b then At inside mapped changed t ∧ mapped ≠ inside
      else Flowchart cs net stunPort t.di) where
  keep := fun ⟨hat, hsent⟩ => ⟨hat, hsent.trans (Nat.le_succ _)⟩
  send := by
    rintro k t t₁ peer ⟨hat, hsent⟩ hs
    obtain ⟨⟨r, rfl⟩, -⟩ := test2_send hs
    exact ⟨hat.with_sent _, Nat.succ_le_succ hsent⟩
  conclude := by
    rintro k t t₁ peer mh t' b ⟨hat, hsent⟩ hs hr hc
    obtain ⟨⟨r, rfl⟩, hpeer⟩ := test2_send hs
    rw [hat.ca] at hpeer
    cases hpeer
    obtain ⟨hsent', rfl, hflow⟩ := test2_conclude (hat.with_sent _) h₁ hr hc
    have hk := hr.attempt
    refine ⟨false, rfl, ?_, hflow⟩
    rw [hsent', List.length_cons]
    omega
  giveUp := by
    rintro t ⟨hat, hsent⟩
    cases hnat : t.nodeNatted with
    | false =>
      simp only [test2, hnat, Bool.not_false, if_true]
      rw [hat.natted, decide_eq_false_iff_not, not_not] at hnat
      subst hnat
      refine ⟨hsent, ?_⟩
      rw [hat.di]
      exact .symmetricUDPFirewall h₁
    | true =>
      simp only [test2, hnat]
      rw [hat.natted, decide_eq_true_eq] at hnat
      exact ⟨hsent, hat, hnat⟩

theorem test1Redo_keeps (hnat : mapped ≠ inside)
    (h₁ : Locates cs net stunPort inside mapped changed) : test1Redo.Keeps cs net
    (fun k t => At inside mapped changed t ∧ t.sent.length ≤ 16 + k)
    (fun t b => t.sent.length ≤ 24 ∧ if b then At inside mapped changed t ∧
      ∃ k mh, Responds cs net .test1Redo k changed mh ∧
        endpointOf (addressAttribute mh .MappedAddress) = .ok mapped
      else Flowchart cs net stunPort t.di) where
  keep := fun ⟨hat, hsent⟩ => ⟨hat, hsent.trans (Nat.le_succ _)⟩
  send := by
    rintro k t t₁ peer ⟨hat, hsent⟩ hs
    obtain ⟨⟨r, rfl⟩, -⟩ := test1Redo_send hs
    exact ⟨hat.with_sent _, Nat.succ_le_succ hsent⟩
  conclude := by
    rintro k t t₁ peer mh t' b ⟨hat, hsent⟩ hs hr hc
    obtain ⟨⟨r, rfl⟩, hpeer⟩ := test1Redo_send hs
    rw [hat.ca] at hpeer
    cases hpeer
    obtain ⟨hsent', hcases⟩ := test1Redo_conclude (hat.with_sent _) hnat h₁ hr hc
    have hk := hr.attempt
    have hlen : t'.sent.length ≤ 24 := by
      rw [hsent', List.length_cons]
      omega
    rcases hcases with ⟨rfl, hflow⟩ | ⟨rfl, rfl, hma⟩
    · exact ⟨false, rfl, hlen, hflow⟩
    · exact ⟨true, rfl, hlen, hat.with_sent _, k, mh, hr, hma⟩
  giveUp := by
    rintro t ⟨hat, hsent⟩
    refine ⟨hsent, ?_⟩
    show Flowchart cs net stunPort t.di
    rw [hat.di]
    exact .unknown h₁ hnat

theorem test3_keeps (hnat : mapped ≠ inside) (h₁ : Locates cs net stunPort inside mapped changed)
    {j : ℕ} (hr₁ : Responds cs net .test1Redo j changed mh)
    (hma : endpointOf (addressAttribute mh .MappedAddress) = .ok mapped) : test3.Keeps cs net
    (fun k t => At inside mapped changed t ∧ t.sent.length ≤ 24 + k)
    (fun t _ => t.sent.length ≤ 32 ∧ Flowchart cs net stunPort t.di) where
  keep := fun ⟨hat, hsent⟩ => ⟨hat, hsent.trans (Nat.le_succ _)⟩
  send := by
    rintro k t t₁ peer ⟨hat, hsent⟩ hs
    obtain ⟨⟨r, rfl⟩, -⟩ := test3_send hs
    exact ⟨hat.with_sent _, Nat.succ_le_succ hsent⟩
  conclude := by
    rintro k t t₁ peer mh₃ t' b ⟨hat, hsent⟩ hs hr hc
    obtain ⟨⟨r, rfl⟩, changed', hchanged, hpeer⟩ := test3_send hs
    rw [hat.ca] at hchanged
    cases hchanged
    rw [test3_concludes (t := { t with sent := r :: t.sent }) (hr.read.errorInfo _)
      (hat.natted.trans (decide_eq_true hnat))] at hc
    cases hc
    have hk := hr.attempt
    refine ⟨false, rfl, ?_, ?_⟩
    · rw [List.length_cons]
      omega
    · rw [hat.di]
      exact .restrictedCone h₁ hnat hr₁ hma hpeer hr
  giveUp := by
    rintro t ⟨hat, hsent⟩
    refine ⟨hsent, ?_⟩
    show Flowchart cs net stunPort { t.di with portRestrictedCone := true }
    rw [hat.di]
    exact .portRestrictedCone h₁ hnat hr₁ hma

end

/-! ## The discovery -/

/-- What a part of the discovery gives with so many turns for each wait: its results are as said,
    and it has one with enough turns, unless discovery hangs. -/
structure Settles (hangs : Prop) (x : ℕ → Option (Except Stop (DiscoveryTest × Bool)))
    (Q : DiscoveryTest → Bool → Prop) : Prop where
  mono : ∀ {m n r}, m ≤ n → x m = some r → x n = some r
  result : ∀ {n t b}, x n = some (.ok (t, b)) → Q t b
  ends : ¬ hangs → ∃ r, ∀ᶠ n in atTop, x n = some r

section
variable {hangs : Prop} {x : ℕ → Option (Except Stop (DiscoveryTest × Bool))}
  {Q Q' : DiscoveryTest → Bool → Prop}

theorem Procedure.Keeps.settles {I : ℕ → DiscoveryTest → Prop} {stunPort : ℕ}
    (hp : p.Keeps cs net I Q) {t : DiscoveryTest} (hI : I 0 t) (ht : Comes cs net stunPort p 0 t) :
    Settles (Hangs cs net stunPort) (fun n => p.run cs net 8 n t) Q where
  mono := run_mono
  result := hp.result hI
  ends := hp.ends hI ht

theorem Settles.eventually (hx : Settles hangs x Q) {n : ℕ}
    {r : Except Stop (DiscoveryTest × Bool)} (h : x n = some r) : ∀ᶠ m in atTop, x m = some r :=
  eventually_atTop.2 ⟨n, fun _ hm => hx.mono hm h⟩

theorem Settles.ifTrue {next : ℕ → DiscoveryTest → Option (Except Stop (DiscoveryTest × Bool))}
    (hx : Settles hangs x Q)
    (hnext : ∀ t, Q t true → (∀ᶠ n in atTop, x n = some (.ok (t, true))) →
      Settles hangs (fun n => next n t) Q')
    (hstop : ∀ t, Q t false → Q' t false) :
    Settles hangs (fun n => Stun.ifTrue (x n) (next n)) Q' where
  mono {m n r} hmn h := by
    cases hxm : x m with
    | none =>
      rw [hxm] at h
      cases h
    | some r' =>
      rw [hxm] at h
      rw [hx.mono hmn hxm]
      cases r' with
      | error e => exact h
      | ok r' =>
        obtain ⟨t, _ | _⟩ := r'
        · exact h
        · exact (hnext t (hx.result hxm) (hx.eventually hxm)).mono hmn h
  result {n t b} h := by
    cases hxn : x n with
    | none =>
      rw [hxn] at h
      cases h
    | some r =>
      rw [hxn] at h
      cases r with
      | error e => cases h
      | ok r =>
        obtain ⟨t₁, _ | _⟩ := r
        · cases h
          exact hstop t (hx.result hxn)
        · exact (hnext t₁ (hx.result hxn) (hx.eventually hxn)).result h
  ends hok := by
    obtain ⟨r, hr⟩ := hx.ends hok
    obtain ⟨m, hm⟩ := hr.exists
    cases r with
    | error e => exact ⟨.error e, hr.mono fun n hn => by rw [hn]; rfl⟩
    | ok r =>
      obtain ⟨t, _ | _⟩ := r
      · exact ⟨.ok (t, false), hr.mono fun n hn => by rw [hn]; rfl⟩
      · obtain ⟨r', hr'⟩ := (hnext t (hx.result hm) hr).ends hok
        refine ⟨r', ?_⟩
        filter_upwards [hr, hr'] with n hn hn'
        rw [hn]
        exact hn'

end

theorem tests_settles (cs : Charset) (net : Network) (stunPort : ℕ) :
    Settles (Hangs cs net stunPort) (tests cs net stunPort 8)
      (fun t _ => t.sent.length ≤ 32 ∧ Flowchart cs net stunPort t.di) := by
  refine (test1_keeps.settles (t := { stunPort }) ⟨rfl, rfl, rfl, Nat.le_refl 0⟩ .start).ifTrue ?_
    fun t h => ⟨h.1.trans (by decide), h.2⟩
  rintro t ⟨hsent, inside, mapped, changed, h₁, hat⟩ hrun
  have ht := Comes.start.next .test2 hrun
  refine ((test2_keeps h₁).settles ⟨hat, hsent⟩ ht).ifTrue ?_
    fun t h => ⟨h.1.trans (by decide), h.2⟩
  rintro t ⟨hsent, hat, hnat⟩ hrun
  have ht := ht.next .test1Redo hrun
  refine ((test1Redo_keeps hnat h₁).settles ⟨hat, hsent⟩ ht).ifTrue ?_
    fun t h => ⟨h.1.trans (by decide), h.2⟩
  rintro t ⟨hsent, hat, k, mh, hr, hma⟩ hrun
  exact (test3_keeps hnat h₁ hr hma).settles ⟨hat, hsent⟩ (ht.next .test3 hrun)

theorem close_eq_ok {r : Except Stop (DiscoveryTest × Bool)} {di : DiscoveryInfo}
    {sent : List Request} (h : close r = .ok (di, sent)) :
    ∃ t b, r = .ok (t, b) ∧ di = t.di ∧ sent = t.sent := by
  obtain ⟨⟨t, b⟩, rfl, h⟩ := Java.bind_eq_ok.1 h
  change (ofMessage (nonNull t.socketTest1) >>= fun _ => .ok (t.di, t.sent)) = _ at h
  obtain ⟨_, -, h⟩ := Java.bind_eq_ok.1 h
  cases h
  exact ⟨t, b, rfl, rfl, rfl⟩

/-- **Discovery.**  Whatever arrives, what discovery returns is the end of a path of the flowchart,
    with the responses on that path, so that there is at most one verdict, and the only error is
    that of an incomplete response.  And it is over after eight attempts of each test, unless it
    comes to one that waits for its response forever. -/
theorem test_flowchart (cs : Charset) (net : Network) (stunPort : ℕ) :
    (∀ turns di sent, test cs net stunPort 8 turns = some (.ok (di, sent)) →
      Flowchart cs net stunPort di ∧ sent.length ≤ 32) ∧
    ((∃ r, ∀ᶠ turns in atTop, test cs net stunPort 8 turns = some r) ∨
      (∀ turns, test cs net stunPort 8 turns = none) ∧ Hangs cs net stunPort) := by
  have hsettles := tests_settles cs net stunPort
  have htest {r : Except Stop (DiscoveryTest × Bool)}
      (hr : ∀ᶠ turns in atTop, tests cs net stunPort 8 turns = some r) :
      ∀ᶠ turns in atTop, test cs net stunPort 8 turns = some (close r) :=
    hr.mono fun n hn => by rw [test, hn, Option.map_some]
  constructor
  · intro turns di sent h
    obtain ⟨r, hr, h⟩ := Option.map_eq_some_iff.1 h
    obtain ⟨t, b, rfl, rfl, rfl⟩ := close_eq_ok h
    obtain ⟨hsent, hflow⟩ := hsettles.result hr
    exact ⟨hflow, hsent⟩
  · by_cases hsome : ∃ turns r, tests cs net stunPort 8 turns = some r
    · obtain ⟨turns, r, hr⟩ := hsome
      exact Or.inl ⟨_, htest (hsettles.eventually hr)⟩
    · refine Or.inr ⟨fun turns => ?_, ?_⟩
      · have hnone : tests cs net stunPort 8 turns = none :=
          Option.eq_none_iff_forall_ne_some.2 fun r hr => hsome ⟨turns, r, hr⟩
        rw [test, hnone, Option.map_none]
      · by_contra hw
        obtain ⟨r, hr⟩ := hsettles.ends hw
        obtain ⟨turns, hturns⟩ := hr.exists
        exact hsome ⟨turns, r, hturns⟩

end JaySip.Stun
