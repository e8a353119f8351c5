/-
  Discovery tells the kinds of NATs and firewalls apart, as long as no test loses all of its
  responses.
-/
import JaySip.Proof.StunDiscovery
import JaySip.Stun.Nat

namespace JaySip.Stun

open Filter

/-! ## Ends -/

theorem Outside.endpoint_inj {a b : Outside} : a.endpoint = b.endpoint ↔ a = b := by
  constructor
  · intro h
    obtain ⟨⟨a₁, a₂, a₃, a₄⟩, p⟩ := a
    obtain ⟨⟨b₁, b₂, b₃, b₄⟩, q⟩ := b
    simp only [Outside.endpoint, Endpoint.mk.injEq, List.cons.injEq, and_true] at h
    obtain ⟨⟨rfl, rfl, rfl, rfl⟩, hport⟩ := h
    rw [Fin.ext hport]
  · intro h
    rw [h]

theorem Outside.address_inj {a b : Outside} :
    a.endpoint.address = b.endpoint.address ↔ a.address = b.address := by
  obtain ⟨⟨a₁, a₂, a₃, a₄⟩, p⟩ := a
  obtain ⟨⟨b₁, b₂, b₃, b₄⟩, q⟩ := b
  simp [Outside.endpoint]

section
variable {s : Server} {ip port ip' port' : Bool}

theorem Server.address_inj : s.address ip = s.address ip' ↔ ip = ip' := by
  have hne := s.address_ne
  cases ip <;> cases ip' <;> simp [hne, hne.symm]

theorem Server.port_inj : s.port port = s.port port' ↔ port = port' := by
  have hne := s.port_ne
  cases port <;> cases port' <;> simp [hne, hne.symm]

theorem Server.ends_inj :
    (s.ends ip port).endpoint = (s.ends ip' port').endpoint ↔ ip = ip' ∧ port = port' := by
  rw [Outside.endpoint_inj, Server.ends, Server.ends, Outside.mk.injEq, Server.address_inj,
    Server.port_inj]

end

/-! ## Requests -/

/-- The CHANGE-REQUEST of a request. -/
def changeTlv (ip port : Bool) : Tlv where
  type := 3
  value := [0, 0, 0, if ip then (if port then 6 else 4) else if port then 2 else 0]
  type_lt := by decide
  length_lt := show 4 < 65536 by decide

section
variable {id : { l : List UInt8 // l.length = 16 }} {tlvs : List Tlv} {type : ℕ}

theorem getBytes_sendMH {cs : Charset} {net : Network} {p : Procedure} {k : ℕ} :
    (p.sendMH net k).getBytes cs =
      .ok (message 0x0001 (net.id p.test k).val [changeTlv p.changeIP p.changePort]) := by
  have hencoded : Encoded cs (p.sendMH net k).attributes [changeTlv p.changeIP p.changePort] :=
    .cons (getBytes_changeRequest cs p.changeIP p.changePort) .nil
  exact @getBytes_message cs (p.sendMH net k) _ .BindingRequest rfl hencoded
    (show 8 < 65536 by decide)

theorem transaction_message : transaction (message type id.val tlvs) = id.val := by
  have hdrop : (word type ++ word (body tlvs).length ++ (id.val ++ body tlvs)).drop 4 =
      id.val ++ body tlvs := List.drop_left' rfl
  rw [transaction, message, List.append_assoc (word type ++ _), hdrop, List.take_left' id.2]

theorem getD_message (n : ℕ) :
    (message type id.val tlvs).getD (20 + n) 0 = (body tlvs).getD n 0 := by
  have hlen : (word type ++ word (body tlvs).length ++ id.val).length = 20 := by
    rw [List.length_append, id.2]
    rfl
  rw [message, List.getD_eq_getElem?_getD, List.getElem?_append_right (by omega), hlen,
    Nat.add_sub_cancel_left, List.getD_eq_getElem?_getD]

theorem flag_message {ip port : Bool} :
    flag (message type id.val [changeTlv ip port]) 2 = ip ∧
      flag (message type id.val [changeTlv ip port]) 1 = port := by
  have h7 : (message type id.val [changeTlv ip port]).getD 27 0 = _ := getD_message 7
  rw [flag, flag, h7]
  cases ip <;> cases port <;> exact ⟨rfl, rfl⟩

end

/-! ## Responses -/

section
variable {cs : Charset}

theorem endpointOf_outside {e : Outside} {port : Fin 65537} (h : port.val = e.port.val) :
    endpointOf (some (port, some e.address)) = .ok e.endpoint := by
  show (do return ⟨← ofMessage e.address.getBytes, port.val⟩ : Except Stop Endpoint) = _
  simp only [Address.getBytes, integerToOneByte_toNat, Java.ok_bind, h]
  rfl

theorem attribute_addressTlv {type : ℕ} (htype : type < 65536) {kind : AddressKind} (e : Outside)
    (hk : kindOf type = some kind) : ∃ port : Fin 65537, port.val = e.port.val ∧
      (addressTlv type htype e).attribute = some (.socketAddress kind port (some e.address)) := by
  have h₁ : e.port.val >>> (8 * 1) = e.port.val / 256 := Nat.shiftRight_eq_div_pow ..
  have h₀ : e.port.val >>> (8 * 0) = e.port.val := rfl
  refine ⟨Fin.ofNat 65537 ((byteOf e.port.val 1).toNat * 256 + (byteOf e.port.val 0).toNat), ?_, ?_⟩
  · have hport : e.port.val / 256 % 256 * 256 + e.port.val % 256 = e.port.val := by omega
    rw [Fin.val_ofNat, byteOf_toNat, byteOf_toNat, h₁, h₀, hport]
    exact Nat.mod_eq_of_lt (e.port.isLt.trans (by decide))
  · rw [Tlv.attribute]
    simp only [addressTlv, hk]

theorem exists_attributes {P : MessageAttribute → Prop} {tlvs : List Tlv}
    (h : ∀ t ∈ tlvs, ∃ a, t.attribute = some a ∧ P a) :
    ∃ as : List MessageAttribute, tlvs.map Tlv.attribute = as.map some ∧ ∀ a ∈ as, P a := by
  induction tlvs with
  | nil => exact ⟨[], rfl, by simp⟩
  | cons t tlvs ih =>
    obtain ⟨a, ha, hP⟩ := h t List.mem_cons_self
    obtain ⟨as, has, hPs⟩ := ih fun t' ht' => h t' (List.mem_cons_of_mem t ht')
    refine ⟨a :: as, by rw [List.map_cons, List.map_cons, ha, has], ?_⟩
    exact List.forall_mem_cons.2 ⟨hP, hPs⟩

theorem length_le_body (tlvs : List Tlv) : tlvs.length ≤ (body tlvs).length := by
  induction tlvs with
  | nil => exact Nat.le_refl 0
  | cons t tlvs ih =>
    rw [body, List.flatMap_cons, List.length_append, Tlv.length_bytes, ← body, List.length_cons]
    omega

theorem parseAttributes_mono {mh mh' : MessageHeader} {data : List UInt8} {m n : ℕ}
    (h : mh.parseAttributes cs data m = some (.ok mh')) (hn : m ≤ n) :
    mh.parseAttributes cs data n = some (.ok mh') := by
  cases hs : parseStart mh data with
  | error e =>
    simp only [MessageHeader.parseAttributes, hs] at h
    cases h
  | ok s =>
    simp only [MessageHeader.parseAttributes, hs] at h ⊢
    exact Iteration.run_mono h hn

theorem parse_of_parseAttributes {data : List UInt8} {mh₀ mh : MessageHeader}
    (h₀ : parseHeader data = .ok mh₀) (h : mh₀.parseAttributes cs data 65536 = some (.ok mh)) :
    parse cs data = some (.ok mh) := by
  simp only [parse, h₀, h, Option.map_some, ofMessage]

/-- A message that fits in the buffer is read, and the last attribute of each type counts. -/
theorem parse_message (id : { l : List UInt8 // l.length = 16 }) {tlvs : List Tlv}
    {as : List MessageAttribute} (h : tlvs.map Tlv.attribute = as.map some)
    (hl : (body tlvs).length ≤ 180) :
    ∃ mh, parse cs (buffer (message 0x0101 id.val tlvs)) = some (.ok mh) ∧ mh.id = id ∧
      ∀ type, mh.getMessageAttribute type = as.reverse.find? fun a => a.getType = type := by
  have hlen : (message 0x0101 id.val tlvs).length = 20 + (body tlvs).length := by
    simp only [message, List.length_append, length_word, id.2]
  have hbuffer : buffer (message 0x0101 id.val tlvs) = message 0x0101 id.val tlvs ++
      List.replicate (200 - (message 0x0101 id.val tlvs).length) 0 := by
    rw [buffer, List.take_append, List.take_of_length_le (by omega), List.take_replicate,
      Nat.min_eq_left (Nat.sub_le _ _)]
  have hparse := parseAttributes_tlvs cs (.new (some .BindingResponse)) 0x0101 id
    (List.replicate (200 - (message 0x0101 id.val tlvs).length) 0) h (by omega)
  have hturns : tlvs.length + 1 ≤ 65536 := by
    have hle := length_le_body tlvs
    omega
  have hheader : parseHeader (message 0x0101 id.val tlvs ++
      List.replicate (200 - (message 0x0101 id.val tlvs).length) 0) =
      .ok (.new (some .BindingResponse)) := by
    simp only [message, List.append_assoc]
    exact @parseHeader_word .BindingResponse _
  have hall := parseAttributes_mono hparse hturns
  rw [hbuffer]
  refine ⟨_, parse_of_parseAttributes hheader hall, (foldl_type_id as).2, fun type => ?_⟩
  rw [getMessageAttribute_foldl]
  exact Option.or_none

/-- What the client reads of a response of the server. -/
theorem parse_response (cs : Charset) (s : Server) (id : { l : List UInt8 // l.length = 16 })
    (mapped changed : Outside) :
    ∃ mh, parse cs (buffer (message 0x0101 id.val (addressTlv 1 (by decide) mapped ::
        addressTlv 5 (by decide) changed :: s.extra))) = some (.ok mh) ∧ mh.id = id ∧
      endpointOf (addressAttribute mh .MappedAddress) = .ok mapped.endpoint ∧
      endpointOf (addressAttribute mh .ChangedAddress) = .ok changed.endpoint := by
  obtain ⟨as, has, htypes⟩ := exists_attributes s.extra_known
  obtain ⟨p₁, hp₁, h₁⟩ := attribute_addressTlv (by decide : 1 < 65536) mapped rfl
  obtain ⟨p₅, hp₅, h₅⟩ := attribute_addressTlv (by decide : 5 < 65536) changed rfl
  have hbody : (body (addressTlv 1 (by decide) mapped :: addressTlv 5 (by decide) changed ::
      s.extra)).length = 24 + (body s.extra).length := by
    simp only [body, List.flatMap_cons, List.length_append, Tlv.length_bytes, addressTlv,
      List.length_cons, List.length_nil]
    omega
  have hattributes : (addressTlv 1 (by decide) mapped :: addressTlv 5 (by decide) changed ::
      s.extra).map Tlv.attribute = (.socketAddress .MappedAddress p₁ (some mapped.address) ::
      .socketAddress .ChangedAddress p₅ (some changed.address) :: as).map some := by
    simp only [List.map_cons, h₁, h₅, has]
  have hshort := s.extra_short
  obtain ⟨mh, hmh, hid, hget⟩ := @parse_message cs id _ _ hattributes (by omega)
  have hother (type : MessageAttributeType) (h : ∀ a ∈ as, a.getType ≠ type) :
      (as.reverse.find? fun a => a.getType = type) = none := by
    refine List.find?_eq_none.2 fun a ha => ?_
    rw [decide_eq_true_eq]
    exact h a (List.mem_reverse.1 ha)
  refine ⟨mh, hmh, hid, ?_, ?_⟩
  · rw [addressAttribute, hget, List.reverse_cons, List.reverse_cons, List.find?_append,
      List.find?_append, hother _ fun a ha => (htypes a ha).1]
    exact endpointOf_outside hp₁
  · rw [addressAttribute, hget, List.reverse_cons, List.reverse_cons, List.find?_append,
      List.find?_append, hother _ fun a ha => (htypes a ha).2]
    exact endpointOf_outside hp₅

end

/-! ## What is let in -/

/-- The changes that a test requests. -/
def Test.change : Test → Bool × Bool
  | test1 | test1Redo => (false, false)
  | test2 => (true, true)
  | test3 => (false, true)

/-- The end of the server that a test asks. -/
def Test.other : Test → Bool
  | test1Redo => true
  | test1 | test2 | test3 => false

/-- The order of the tests. -/
def Test.rank : Test → ℕ
  | test1 => 0
  | test2 => 1
  | test1Redo => 2
  | test3 => 3

/-- The responses to a test that a kind of gateway lets in. -/
def Kind.lets : Kind → Test → Bool
  | blockedUDP, _ => false
  | openAccess, _ | fullCone, _ => true
  | restrictedCone, test => test ≠ .test2
  | portRestrictedCone, test | symmetric, test | symmetricUDPFirewall, test =>
    test = .test1 ∨ test = .test1Redo

/-- The end of the server that a test is answered from. -/
def World.peer (w : World) (test : Test) : Endpoint :=
  (w.server.ends (test.other ^^ test.change.1) (test.other ^^ test.change.2)).endpoint

/-- The test whose sockets a test uses. -/
def Test.binds : Test → Test
  | test1 | test1Redo => test1
  | test2 => test2
  | test3 => test3

/-- A request of an attempt, from the socket of that attempt or, redoing test 1, of one of test
    1. -/
structure Sent (w : World) (test : Test) (k : ℕ) (r : Request) : Prop where
  source : ∃ j, j < 8 ∧ r.source = (w.socket test.binds j).endpoint ∧ (test ≠ .test1Redo → j = k)
  dest : r.dest = (w.server.ends test.other test.other).endpoint
  data : r.data = message 0x0001 (w.id test k).val [changeTlv test.change.1 test.change.2]

/-- All requests are those of attempts before attempt `k` of a test. -/
def Log (w : World) (test : Test) (k : ℕ) (sent : List Request) : Prop :=
  ∀ r ∈ sent, ∃ test' k', k' < 8 ∧ Sent w test' k' r ∧
    (test'.rank < test.rank ∨ test' = test ∧ k' < k)

section
variable {cs : Charset} {w : World} {test test' : Test} {k : ℕ} {r : Request}
  {sent : List Request}

/-- Between the ends of a server. -/
theorem admits_ends {κ : Kind} {s : Server} {ip port ip' port' : Bool} :
    κ.admits (s.ends ip port).endpoint (s.ends ip' port').endpoint = match κ with
      | .blockedUDP => false
      | .openAccess | .fullCone => true
      | .restrictedCone => ip == ip'
      | .portRestrictedCone | .symmetric | .symmetricUDPFirewall => ip == ip' && port == port' := by
  cases κ with
  | blockedUDP | openAccess | fullCone => rfl
  | restrictedCone =>
    rw [Kind.admits, Bool.eq_iff_iff, decide_eq_true_eq, Outside.address_inj, beq_iff_eq]
    exact Server.address_inj
  | portRestrictedCone | symmetric | symmetricUDPFirewall =>
    rw [Kind.admits, Bool.eq_iff_iff, decide_eq_true_eq, Server.ends_inj]
    simp

/-- A request opens the gateway for its response if the kind of gateway lets that in. -/
theorem admits_peer : w.kind.admits (w.server.ends test.other test.other).endpoint (w.peer test) =
    w.kind.lets test := by
  rw [World.peer, admits_ends]
  cases w.kind <;> cases test <;> rfl

/-- The requests before it do not open the gateway for more. -/
theorem lets_of_admits (hrank : test'.rank ≤ test.rank)
    (h : w.kind.admits (w.server.ends test'.other test'.other).endpoint (w.peer test) = true) :
    w.kind.lets test = true := by
  rw [World.peer, admits_ends] at h
  revert hrank h
  cases w.kind <;> cases test <;> cases test' <;> decide

theorem passes_eq (hlog : Log w test (k + 1) sent) (hr : Sent w test k r) (hmem : r ∈ sent) :
    w.passes sent r (w.peer test) = w.kind.lets test := by
  rw [Bool.eq_iff_iff, World.passes, List.any_eq_true]
  constructor
  · rintro ⟨c, hc, hpass⟩
    obtain ⟨test', k', -, hsent, hbefore⟩ := hlog c hc
    have hrank : test'.rank ≤ test.rank := by
      rcases hbefore with hlt | ⟨rfl, -⟩
      · exact hlt.le
      · exact Nat.le_refl _
    rw [Bool.and_eq_true, hsent.dest] at hpass
    exact lets_of_admits hrank hpass.2
  · intro hlets
    refine ⟨r, hmem, ?_⟩
    rw [hr.dest, admits_peer, hlets]
    simp

theorem findSome?_ends {α : Type} {f : Bool × Bool → Option α} {o : Bool}
    (hf : ∀ p, p ≠ (o, o) → f p = none) :
    [(false, false), (false, true), (true, false), (true, true)].findSome? f = f (o, o) := by
  have h₁ : f (false, true) = none := hf _ (by cases o <;> decide)
  have h₂ : f (true, false) = none := hf _ (by cases o <;> decide)
  cases o with
  | false =>
    have h₃ : f (true, true) = none := hf _ (by decide)
    rw [List.findSome?_cons, List.findSome?_cons, List.findSome?_cons, List.findSome?_cons, h₁, h₂,
      h₃]
    cases f (false, false) <;> rfl
  | true =>
    have h₀ : f (false, false) = none := hf _ (by decide)
    rw [List.findSome?_cons, List.findSome?_cons, List.findSome?_cons, List.findSome?_cons, h₁, h₂,
      h₀]
    cases f (true, true) <;> rfl

theorem response_eq (hr : Sent w test k r) : w.response sent r =
    if w.passes sent r (w.peer test) then
      some ⟨w.peer test, message 0x0101 (w.id test k).val
        (addressTlv 1 (by decide) (w.map r.source r.dest) ::
          addressTlv 5 (by decide) (w.server.ends (!test.other) (!test.other)) :: w.server.extra)⟩
    else none := by
  have hdest (ip port : Bool) : (w.server.ends ip port).endpoint = r.dest ↔
      ip = test.other ∧ port = test.other := by rw [hr.dest, Server.ends_inj]
  have hflags : flag (message 1 (w.id test k).val _) 2 = _ ∧ _ :=
    @flag_message (w.id test k) 1 test.change.1 test.change.2
  rw [World.response, findSome?_ends (o := test.other)]
  · dsimp only
    rw [if_pos ((hdest _ _).2 ⟨rfl, rfl⟩)]
    simp only [Server.response, hr.data, hflags, transaction_message, World.peer]
    rfl
  · rintro ⟨ip, port⟩ hne
    refine if_neg fun h => hne ?_
    obtain ⟨rfl, rfl⟩ := (hdest ip port).1 h
    rfl

/-- What arrives can be read, and what answers the last request has its address. -/
theorem arrivals_spec (cs : Charset) {rest : List Request} (hk : k < 8)
    (hlog : Log w test (k + 1) (r :: rest)) (hr : Sent w test k r) {d : Datagram}
    (hd : d ∈ (w.arrivals test k (r :: rest)).filter (·.source = w.peer test)) :
    ∃ mh, parse cs (buffer d.data) = some (.ok mh) ∧ (mh.id = w.id test k →
      w.kind.lets test = true ∧ (∃ i ∈ w.delivered test k, i < (r :: rest).length) ∧
      endpointOf (addressAttribute mh .MappedAddress) = .ok (w.map r.source r.dest).endpoint ∧
      endpointOf (addressAttribute mh .ChangedAddress) =
        .ok (w.server.ends (!test.other) (!test.other)).endpoint) := by
  obtain ⟨i, hdelivered, hi⟩ := List.mem_filterMap.1 (List.mem_filter.1 hd).1
  change ((r :: rest)[i]?.bind fun r' =>
    if r'.source = r.source then w.response (r :: rest) r' else none) = some d at hi
  obtain ⟨r', hr', hi⟩ := Option.bind_eq_some_iff.1 hi
  split_ifs at hi with hsource
  obtain ⟨test', k', hk', hsent, -⟩ := hlog r' (List.mem_of_getElem? hr')
  rw [response_eq hsent] at hi
  split_ifs at hi with hpass
  cases hi
  obtain ⟨mh, hmh, hid, hmapped, hchanged⟩ := parse_response cs w.server (w.id test' k')
    (w.map r'.source r'.dest) (w.server.ends (!test'.other) (!test'.other))
  refine ⟨mh, hmh, fun hthis => ?_⟩
  obtain ⟨rfl, rfl⟩ := w.id_inj test' test k' k hk' hk (hid.symm.trans hthis)
  have hdest : r'.dest = r.dest := hsent.dest.trans hr.dest.symm
  rw [passes_eq hlog hsent (List.mem_of_getElem? hr')] at hpass
  rw [hsource, hdest] at hmapped
  exact ⟨hpass, ⟨i, hdelivered, (List.getElem?_eq_some_iff.1 hr').1⟩, hmapped, hchanged⟩

/-- The response to the last request arrives, if it is delivered and let in. -/
theorem mem_arrivals (cs : Charset) {rest : List Request} (hlog : Log w test (k + 1) (r :: rest))
    (hr : Sent w test k r) (hlets : w.kind.lets test = true) (h0 : 0 ∈ w.delivered test k) :
    ∃ d mh, d ∈ (w.arrivals test k (r :: rest)).filter (·.source = w.peer test) ∧
      parse cs (buffer d.data) = some (.ok mh) ∧ mh.id = w.id test k := by
  obtain ⟨mh, hmh, hid, -, -⟩ := parse_response cs w.server (w.id test k)
    (w.map r.source r.dest) (w.server.ends (!test.other) (!test.other))
  have hresponse : w.response (r :: rest) r = _ := response_eq hr
  rw [passes_eq hlog hr List.mem_cons_self, if_pos hlets] at hresponse
  refine ⟨⟨w.peer test, _⟩, mh, List.mem_filter.2 ⟨?_, decide_eq_true rfl⟩, hmh, hid⟩
  refine List.mem_filterMap.2 ⟨0, h0, ?_⟩
  show (if r.source = r.source then w.response (r :: rest) r else none) = _
  rw [if_pos rfl, hresponse]
  rfl

/-- If all that arrives can be read, the wait ends with what answers the request, or in silence. -/
theorem receive_readable {P : MessageHeader → Prop} {sendMH : MessageHeader} {l : List Datagram}
    (h₀ : (MessageHeader.new none).id ≠ sendMH.id)
    (h : ∀ d ∈ l, ∃ mh, parse cs (buffer d.data) = some (.ok mh) ∧ (mh.id = sendMH.id → P mh)) :
    (∃ mh, (∀ᶠ n in atTop, receive cs sendMH (thenSilence l) n = some (.ok mh)) ∧ P mh) ∨
      (∀ᶠ n in atTop, receive cs sendMH (thenSilence l) n = some (.error .timeout)) ∧
        ∀ d ∈ l, ∀ mh, parse cs (buffer d.data) = some (.ok mh) → mh.id ≠ sendMH.id := by
  have hget {n : ℕ} (hn : n < l.length) : heard cs (thenSilence l n) =
      parse cs (buffer l[n].data) := by
    rw [thenSilence, List.getElem?_eq_getElem hn]
    rfl
  have hend : heard cs (thenSilence l l.length) = some (.error .timeout) := by
    rw [thenSilence, List.getElem?_eq_none (Nat.le_refl _)]
    rfl
  -- the first arrival that is not of another transaction
  have hex : ∃ n, ¬ Foreign cs sendMH.id (thenSilence l n) := by
    refine ⟨l.length, ?_⟩
    rintro ⟨mh, hmh, -⟩
    rw [hend] at hmh
    cases hmh
  classical
  have hmin : ∀ j < Nat.find hex, Foreign cs sendMH.id (thenSilence l j) := fun j hj =>
    not_not.1 (Nat.find_min hex hj)
  rcases Nat.lt_or_ge (Nat.find hex) l.length with hlt | hge
  · obtain ⟨mh, hmh, hP⟩ := h _ (List.getElem_mem hlt)
    have hheard := (hget hlt).trans hmh
    have hid : mh.id = sendMH.id := by
      by_contra hne
      exact Nat.find_spec hex ⟨mh, hheard, hne⟩
    refine Or.inl ⟨mh, receive_first h₀ hmin hheard ?_, hP hid⟩
    rintro _ ⟨⟩
    exact hid
  · refine Or.inr ⟨receive_first h₀ (fun j hj => hmin j (hj.trans_le hge)) hend ?_, ?_⟩
    · rintro _ ⟨⟩
    · intro d hd mh hmh
      obtain ⟨n, hn, rfl⟩ := List.mem_iff_getElem.1 hd
      obtain ⟨mh', hheard, hne⟩ := hmin n (hn.trans_le hge)
      rw [hget hn, hmh] at hheard
      cases hheard
      exact hne

end

/-! ## An attempt -/

/-- What a response to the request says. -/
structure Replies (w : World) (test : Test) (inside : Endpoint) (mh : MessageHeader) : Prop where
  mapped : endpointOf (addressAttribute mh .MappedAddress) =
    .ok (w.map inside (w.server.ends test.other test.other).endpoint).endpoint
  changed : endpointOf (addressAttribute mh .ChangedAddress) =
    .ok (w.server.ends (!test.other) (!test.other)).endpoint
  errorInfo : ∀ di, errorInfo mh di = none

section
variable {cs : Charset} {w : World} {p : Procedure} {k : ℕ} {t t₁ : DiscoveryTest}

/-- An attempt times out, or has a response, and it has one if that is let in and delivered. -/
theorem attempt_world {r : Request} {rest : List Request} (hk : k < 8)
    (hsend : p.send cs w.network k t = .ok (t₁, w.peer p.test)) (hsent : t₁.sent = r :: rest)
    (hlog : Log w p.test (k + 1) (r :: rest)) (hr : Sent w p.test k r) :
    ((∀ᶠ n in atTop, p.attempt cs w.network n k t = some (t₁, .error .timeout)) ∧
        ¬(w.kind.lets p.test = true ∧ 0 ∈ w.delivered p.test k)) ∨
      w.kind.lets p.test = true ∧ (∃ i ∈ w.delivered p.test k, i < (r :: rest).length) ∧
        ∃ mh, Replies w p.test r.source mh ∧ ∀ t' b, p.conclude t₁ mh = .ok (t', b) →
          ∀ᶠ n in atTop, p.attempt cs w.network n k t = some (t', .ok b) := by
  have hnew : (MessageHeader.new none).id ≠ (p.sendMH w.network k).id := by
    intro h
    exact w.id_ne p.test k hk (congrArg Subtype.val h).symm
  have hread : ∀ d ∈ (w.arrivals p.test k (r :: rest)).filter (·.source = w.peer p.test), ∃ mh,
      parse cs (buffer d.data) = some (.ok mh) ∧ (mh.id = (p.sendMH w.network k).id →
        w.kind.lets p.test = true ∧ (∃ i ∈ w.delivered p.test k, i < (r :: rest).length) ∧
          Replies w p.test r.source mh) := by
    intro d hd
    obtain ⟨mh, hmh, hid⟩ := arrivals_spec cs hk hlog hr hd
    refine ⟨mh, hmh, fun h => ?_⟩
    obtain ⟨hlets, hdelivered, hmapped, hchanged⟩ := hid h
    rw [hr.dest] at hmapped
    exact ⟨hlets, hdelivered, hmapped, hchanged, (read_of_parse hmh).errorInfo⟩
  have hwait : w.network.arrivals p.test k t₁.sent (w.peer p.test) =
      thenSilence ((w.arrivals p.test k (r :: rest)).filter (·.source = w.peer p.test)) := by
    rw [hsent]
    rfl
  rcases receive_readable hnew hread with ⟨mh, hmh, hlets, hdelivered, hreplies⟩ | ⟨htimeout, hne⟩
  · refine Or.inr ⟨hlets, hdelivered, mh, hreplies, fun t' b hconclude => ?_⟩
    rw [← hwait] at hmh
    simpa only [Java.ok_bind, hconclude] using attempt_of_receive hsend hmh
  · rw [← hwait] at htimeout
    refine Or.inl ⟨attempt_of_receive hsend htimeout, ?_⟩
    rintro ⟨hlets, h0⟩
    obtain ⟨d, mh, hd, hmh, hid⟩ := mem_arrivals cs hlog hr hlets h0
    exact hne d hd mh hmh hid

theorem Log.cons {r : Request} {sent : List Request} {test : Test} (hlog : Log w test k sent)
    (hk : k < 8) (hr : Sent w test k r) : Log w test (k + 1) (r :: sent) := by
  intro r' hr'
  rcases List.mem_cons.1 hr' with rfl | hr'
  · exact ⟨test, k, hk, hr, Or.inr ⟨rfl, Nat.lt_succ_self k⟩⟩
  · obtain ⟨test', k', hk', hsent, hbefore⟩ := hlog r' hr'
    exact ⟨test', k', hk', hsent, hbefore.imp_right fun h => ⟨h.1, Nat.lt_succ_of_lt h.2⟩⟩

theorem Log.next {sent : List Request} {test test' : Test} (hlog : Log w test k sent)
    (h : test.rank < test'.rank) : Log w test' 0 sent := by
  intro r hr
  obtain ⟨test'', k', hk', hsent, hbefore⟩ := hlog r hr
  refine ⟨test'', k', hk', hsent, Or.inl ?_⟩
  rcases hbefore with hlt | ⟨rfl, -⟩
  · exact hlt.trans h
  · exact h

/-- A test whose responses are let in has one, and the others are given up. -/
theorem run_world {J : ℕ → DiscoveryTest → Prop} {Q : DiscoveryTest → Bool → Prop}
    (hdelivered : ∃ k < 8, 0 ∈ w.delivered p.test k)
    (hsend : ∀ k t, k < 8 → J k t → Log w p.test k t.sent → ∃ t₁ r,
      p.send cs w.network k t = .ok (t₁, w.peer p.test) ∧ t₁.sent = r :: t.sent ∧
      Sent w p.test k r ∧
      (¬(w.kind.lets p.test = true ∧ 0 ∈ w.delivered p.test k) → J (k + 1) t₁) ∧
      (w.kind.lets p.test = true → Log w p.test (k + 1) t₁.sent →
        ∀ mh, Replies w p.test r.source mh →
          ∃ t' b, p.conclude t₁ mh = .ok (t', some b) ∧ Q t' b))
    (hgive : ∀ t, J 8 t → Log w p.test 8 t.sent → w.kind.lets p.test = false →
      Q (p.giveUp t).1 (p.giveUp t).2) (hlog : Log w p.test 0 t.sent) (h : J 0 t) :
    ∃ t' b, (∀ᶠ n in atTop, p.run cs w.network 8 n t = some (.ok (t', b))) ∧ Q t' b := by
  have hrun : ∃ r, (∀ᶠ n in atTop, p.run cs w.network 8 n t = some r) ∧
      ∃ t' b, r = .ok (t', b) ∧ Q t' b := by
    refine run_attempts (I := fun k t => J k t ∧ Log w p.test k t.sent ∧
      ∀ j < k, ¬(w.kind.lets p.test = true ∧ 0 ∈ w.delivered p.test j)) ?_ ?_
      ⟨h, hlog, fun j hj => absurd hj (Nat.not_lt_zero j)⟩
    · rintro k t hk ⟨hJ, hlog, hlost⟩
      obtain ⟨t₁, r, hs, hsent, hr, hJ₁, hconclude⟩ := hsend k t hk hJ hlog
      have hlog₁ := hlog.cons hk hr
      rcases attempt_world hk hs hsent hlog₁ hr with ⟨hat, hnot⟩ | ⟨hlets, -, mh, hreplies, hat⟩
      · refine Or.inl ⟨t₁, hat, hJ₁ hnot, by rwa [hsent], fun j hj => ?_⟩
        rcases Nat.lt_succ_iff_lt_or_eq.1 hj with hj | rfl
        · exact hlost j hj
        · exact hnot
      · obtain ⟨t', b, hc, hQ⟩ := hconclude hlets (by rwa [hsent]) mh hreplies
        exact Or.inr (Or.inl ⟨t', b, hat t' _ hc, t', b, rfl, hQ⟩)
    · rintro t ⟨hJ, hlog, hlost⟩
      obtain ⟨k, hk, h0⟩ := hdelivered
      have hlets : w.kind.lets p.test = false := by
        rw [← Bool.not_eq_true]
        exact fun hlets => hlost k hk ⟨hlets, h0⟩
      exact ⟨_, _, rfl, hgive t hJ hlog hlets⟩
  obtain ⟨r, hr, t', b, rfl, hQ⟩ := hrun
  exact ⟨t', b, hr, hQ⟩

end

/-! ## The tests -/

/-- The end of the server that is known from the start, and the other one. -/
def World.near (w : World) : Endpoint := (w.server.ends false false).endpoint

def World.far (w : World) : Endpoint := (w.server.ends true true).endpoint

/-- How attempt `k` of test 1 is seen. -/
def World.mapped (w : World) (k : ℕ) : Endpoint :=
  (w.map (w.socket .test1 k).endpoint w.near).endpoint

/-- The flag of a kind is set. -/
def Kind.mark (di : DiscoveryInfo) : Kind → DiscoveryInfo
  | openAccess => { di with openAccess := true }
  | blockedUDP => { di with blockedUDP := true }
  | fullCone => { di with fullCone := true }
  | restrictedCone => { di with restrictedCone := true }
  | portRestrictedCone => { di with portRestrictedCone := true }
  | symmetric => { di with symmetric := true }
  | symmetricUDPFirewall => { di with symmetricUDPFirewall := true }

/-- What attempt `k` of test 1 has found is known. -/
structure Found (w : World) (k : ℕ) (t : DiscoveryTest) : Prop where
  attempt : k < 8
  at' : At (w.socket .test1 k).endpoint (w.mapped k) w.far t
  stunPort : t.stunPort = (w.server.port false).val

/-- The tests are over. -/
structure Done (w : World) (found : DiscoveryInfo) (t : DiscoveryTest) : Prop where
  socket : t.socketTest1.isSome
  di : t.di = w.kind.mark found

section
variable {cs : Charset} {w : World} {k : ℕ} {t : DiscoveryTest}

/-- The request of an attempt, from `inside`. -/
def World.request (w : World) (test : Test) (k : ℕ) (inside : Endpoint) : Request :=
  ⟨inside, (w.server.ends test.other test.other).endpoint,
    message 0x0001 (w.id test k).val [changeTlv test.change.1 test.change.2]⟩

theorem sent_request {test : Test} {j : ℕ} (hj : j < 8) (hs : test ≠ .test1Redo → j = k) :
    Sent w test k (w.request test k (w.socket test.binds j).endpoint) :=
  ⟨⟨j, hj, rfl, hs⟩, rfl, rfl⟩

/-- Only the sockets of test 1 can be alike. -/
theorem socket_inj {test test' : Test} {k k' : ℕ} (hk : k < 8) (hk' : k' < 8)
    (h : (w.socket test k).endpoint = (w.socket test' k').endpoint) :
    test = test' ∧ k = k' ∨ test = .test1 ∧ test' = .test1 ∧ w.localPort ≠ 0 := by
  have hport : (w.socket test k).port = (w.socket test' k').port :=
    congrArg Outside.port (Outside.endpoint_inj.1 h)
  simp only [World.socket] at hport
  split_ifs at hport with h₁ h₂ h₂
  · exact Or.inr ⟨h₁.1, h₂.1, Fin.val_ne_zero_iff.1 h₁.2⟩
  · exact absurd hport.symm (w.ephemeral_ne test' k')
  · exact absurd hport (w.ephemeral_ne test k)
  · exact Or.inl (w.ephemeral_inj test test' k k' hk hk' hport)

/-- A new socket can be bound, unless it is one of test 1 at the port that an earlier one has. -/
theorem bind_world {test : Test} {sent : List Request} (hk : k < 8) (htest : test ≠ .test1Redo)
    (hport : test = .test1 → w.localPort = 0 ∨ k = 0) (hlog : Log w test k sent) :
    w.network.bind test k sent = .ok (w.socket test k).endpoint := by
  refine if_neg fun hany => ?_
  obtain ⟨r, hr, hsource⟩ := List.any_eq_true.1 hany
  obtain ⟨test', k', hk', hsent, hbefore⟩ := hlog r hr
  obtain ⟨j, hj, hj', hjk⟩ := hsent.source
  have hsame : (w.socket test'.binds j).endpoint = (w.socket test k).endpoint :=
    hj'.symm.trans (of_decide_eq_true hsource)
  rcases socket_inj hj hk hsame with ⟨hbinds, rfl⟩ | ⟨hbinds, rfl, hfixed⟩
  · cases test' with
    | test1Redo =>
      subst hbinds
      rcases hbefore with hrank | ⟨heq, -⟩
      · exact absurd hrank (by decide)
      · cases heq
    | _ =>
      subst hbinds
      rcases hbefore with hrank | ⟨-, hlt⟩
      · exact absurd hrank (Nat.lt_irrefl _)
      · exact absurd (hjk (by decide)) hlt.ne'
  · rcases hport rfl with h0 | rfl
    · exact absurd h0 hfixed
    · rcases hbefore with hrank | ⟨-, hlt⟩
      · exact absurd hrank (Nat.not_lt_zero _)
      · exact absurd hlt (Nat.not_lt_zero _)

theorem send_world {p : Procedure} {t₀ : DiscoveryTest} {ends : Ends}
    (hends : p.ends w.network k t = .ok (t₀, ends))
    (hserver : ends.server = (w.server.ends p.test.other p.test.other).endpoint)
    (hpeer : ends.peer = w.peer p.test) (hchange : (p.changeIP, p.changePort) = p.test.change) :
    p.send cs w.network k t =
      .ok ({ t₀ with sent := w.request p.test k ends.socket :: t₀.sent }, w.peer p.test) := by
  have hip : p.changeIP = p.test.change.1 := congrArg Prod.fst hchange
  have hport : p.changePort = p.test.change.2 := congrArg Prod.snd hchange
  simp only [Procedure.send, hends, getBytes_sendMH, Java.ok_bind, ofMessage, World.request,
    hserver, hpeer, hip, hport]
  rfl

theorem test1_send_world (hport : t.stunPort = (w.server.port false).val)
    (hbind : w.network.bind .test1 k t.sent = .ok (w.socket .test1 k).endpoint) :
    test1.send cs w.network k t = .ok ({ t with
      socketTest1 := some (w.socket .test1 k).endpoint
      sent := w.request .test1 k (w.socket .test1 k).endpoint :: t.sent }, w.peer .test1) := by
  have hends : test1.ends w.network k t = .ok ({ t with
      socketTest1 := some (w.socket .test1 k).endpoint },
      ⟨(w.socket .test1 k).endpoint, w.near, w.near⟩) := by
    simp only [test1, newEnds, hbind, Java.ok_bind, hport]
    rfl
  exact send_world hends rfl rfl rfl

theorem test2_send_world {inside mapped : Endpoint} (hat : At inside mapped w.far t)
    (hport : t.stunPort = (w.server.port false).val)
    (hbind : w.network.bind .test2 k t.sent = .ok (w.socket .test2 k).endpoint) :
    test2.send cs w.network k t = .ok ({ t with
      sent := w.request .test2 k (w.socket .test2 k).endpoint :: t.sent }, w.peer .test2) := by
  have hends : test2.ends w.network k t =
      .ok (t, ⟨(w.socket .test2 k).endpoint, w.near, w.far⟩) := by
    simp only [test2, newEnds, hbind, Java.ok_bind, hport, hat.ca]
    rfl
  exact send_world hends rfl rfl rfl

theorem test1Redo_send_world {inside mapped : Endpoint} (hat : At inside mapped w.far t) :
    test1Redo.send cs w.network k t = .ok ({ t with
      sent := w.request .test1Redo k inside :: t.sent }, w.peer .test1Redo) := by
  have hends : test1Redo.ends w.network k t = .ok (t, ⟨inside, w.far, w.far⟩) := by
    simp only [test1Redo, hat.socket, nonNull, ofMessage, Java.ok_bind, hat.ca]
    rfl
  exact send_world hends rfl rfl rfl

theorem test3_send_world {inside mapped : Endpoint} (hat : At inside mapped w.far t)
    (hport : t.stunPort = (w.server.port false).val)
    (hbind : w.network.bind .test3 k t.sent = .ok (w.socket .test3 k).endpoint) :
    test3.send cs w.network k t = .ok ({ t with
      sent := w.request .test3 k (w.socket .test3 k).endpoint :: t.sent }, w.peer .test3) := by
  have hends : test3.ends w.network k t = .ok (t, ⟨(w.socket .test3 k).endpoint, w.near,
      (w.server.ends false true).endpoint⟩) := by
    simp only [test3, newEnds, hbind, Java.ok_bind, hport, hat.ca]
    rfl
  exact send_world hends rfl rfl rfl

/-- The first attempt of test 1 is answered. -/
def World.Answered (w : World) : Prop := w.kind ≠ .blockedUDP ∧ 0 ∈ w.delivered .test1 0

theorem lets_test1_iff {κ : Kind} : κ.lets .test1 = true ↔ κ ≠ .blockedUDP := by
  cases κ <;> decide

theorem test1_world (cs : Charset) (hdelivered : ∃ k < 8, 0 ∈ w.delivered .test1 k)
    (hport : w.localPort = 0 ∨ w.Answered) :
    ∃ t b, (∀ᶠ n in atTop, test1.run cs w.network 8 n { stunPort := (w.server.port false).val } =
        some (.ok (t, b))) ∧
      Log w .test2 0 t.sent ∧ if b then w.kind ≠ .blockedUDP ∧ ∃ k, Found w k t
        else w.kind = .blockedUDP ∧ Done w {} t := by
  refine run_world (J := fun k t => t.di = {} ∧ t.nodeNatted = true ∧
    t.stunPort = (w.server.port false).val ∧ (0 < k → t.socketTest1.isSome) ∧
    (w.localPort = 0 ∨ k = 0)) hdelivered ?_ ?_ (fun _ h => absurd h List.not_mem_nil)
    ⟨rfl, rfl, rfl, fun h => absurd h (Nat.not_lt_zero 0), Or.inr rfl⟩
  · rintro k t hk ⟨hdi, hnat, hserver, -, hfirst⟩ hlog
    have hbind := bind_world hk (by decide) (fun _ => hfirst) hlog
    refine ⟨_, _, test1_send_world hserver hbind, rfl, sent_request hk fun _ => rfl, ?_, ?_⟩
    · intro hlost
      refine ⟨hdi, hnat, hserver, fun _ => rfl, ?_⟩
      rcases hport with hport | ⟨hkind, h0⟩
      · exact Or.inl hport
      · rcases hfirst with hport | rfl
        · exact Or.inl hport
        · exact absurd ⟨lets_test1_iff.2 hkind, h0⟩ hlost
    intro hlets hlog mh hreplies
    obtain ⟨t', hc, hsent, hport', hat⟩ := test1_concludes (t := { t with
      socketTest1 := some (w.socket .test1 k).endpoint
      sent := w.request .test1 k (w.socket .test1 k).endpoint :: t.sent })
      (hreplies.errorInfo _) hreplies.mapped hreplies.changed hdi hnat rfl
    refine ⟨t', true, hc, ?_, lets_test1_iff.1 hlets, k, hk, hat, hport'.trans hserver⟩
    rw [hsent]
    exact hlog.next (by decide)
  · rintro t ⟨hdi, -, -, hsocket, -⟩ hlog hlets
    have hblocked : w.kind = .blockedUDP := by
      by_contra hkind
      cases (lets_test1_iff.2 hkind).symm.trans hlets
    refine ⟨hlog.next (by decide), hblocked, hsocket (by decide), ?_⟩
    rw [hblocked]
    show { t.di with blockedUDP := true } = _
    rw [hdi]
    rfl

/-- At a given port the second attempt of test 1 cannot bind its socket. -/
theorem test1_refused (cs : Charset) (hport : w.localPort ≠ 0) (hlost : ¬ w.Answered) :
    ∀ᶠ n in atTop, test1.run cs w.network 8 n { stunPort := (w.server.port false).val } =
      some (.error .platform) := by
  have hsocket (k : ℕ) : w.socket .test1 k = ⟨w.localAddress, w.localPort⟩ := by
    rw [World.socket, if_pos ⟨rfl, Fin.val_ne_zero_iff.2 hport⟩]
  obtain ⟨r, hr, rfl⟩ : ∃ r, (∀ᶠ n in atTop,
      test1.run cs w.network 8 n { stunPort := (w.server.port false).val } = some r) ∧
      r = .error .platform := by
    refine run_attempts (I := fun k t => (k = 0 ∧ t = { stunPort := (w.server.port false).val }) ∨
      k = 1 ∧ ∃ r ∈ t.sent, r.source = (w.socket .test1 k).endpoint) ?_ ?_ (Or.inl ⟨rfl, rfl⟩)
    · rintro k t hk (⟨rfl, rfl⟩ | ⟨rfl, r, hr, hsource⟩)
      · have hlog : Log w .test1 0 [] := fun _ h => absurd h List.not_mem_nil
        have hbind := bind_world hk (by decide) (fun _ => Or.inr rfl) hlog
        have hsent : Sent w .test1 0 (w.request .test1 0 (w.socket .test1 0).endpoint) :=
          sent_request hk fun _ => rfl
        have hsend : test1.send cs w.network 0 { stunPort := (w.server.port false).val } = _ :=
          test1_send_world rfl hbind
        rcases attempt_world hk hsend rfl (hlog.cons hk hsent) hsent with
          ⟨hat, -⟩ | ⟨hlets, ⟨i, hi, hlt⟩, -⟩
        · refine Or.inl ⟨_, hat, Or.inr ⟨rfl, _, List.mem_cons_self, ?_⟩⟩
          show (w.socket .test1 0).endpoint = (w.socket .test1 1).endpoint
          rw [hsocket, hsocket]
        · obtain rfl : i = 0 := Nat.lt_one_iff.1 hlt
          exact absurd ⟨lets_test1_iff.1 hlets, hi⟩ hlost
      · have hbind : w.network.bind .test1 1 t.sent = .error .platform :=
          if_pos (List.any_eq_true.2 ⟨r, hr, decide_eq_true hsource⟩)
        refine Or.inr (Or.inr ⟨t, .platform, Eventually.of_forall fun n => ?_, by decide, rfl⟩)
        have hsend : test1.send cs w.network 1 t = .error .platform := by
          have hends : test1.ends w.network 1 t = .error .platform := by
            simp only [test1, newEnds, hbind]
            rfl
          simp only [Procedure.send, hends]
          rfl
        simp only [Procedure.attempt, hsend]
    · rintro t (⟨h, -⟩ | ⟨h, -⟩) <;> cases h
  exact hr

/-- The kinds that translate, but do not let everything in. -/
def Kind.Restricts (κ : Kind) : Prop :=
  κ = .restrictedCone ∨ κ = .portRestrictedCone ∨ κ = .symmetric

/-- A node is natted, or open or behind a firewall. -/
theorem mapped_cases (w : World) (k : ℕ) (hkind : w.kind ≠ .blockedUDP) :
    (w.mapped k = (w.socket .test1 k).endpoint ∧
      (w.kind = .openAccess ∨ w.kind = .symmetricUDPFirewall)) ∨
    (w.mapped k ≠ (w.socket .test1 k).endpoint ∧ (w.kind = .fullCone ∨ w.kind.Restricts)) := by
  have htranslates := w.translates (w.socket .test1 k)
  cases hk : w.kind with
  | blockedUDP => exact absurd hk hkind
  | openAccess | symmetricUDPFirewall =>
    rw [hk] at htranslates
    refine Or.inl ⟨congrArg Outside.endpoint htranslates, ?_⟩
    simp
  | fullCone | restrictedCone | portRestrictedCone | symmetric =>
    rw [hk] at htranslates
    refine Or.inr ⟨mt Outside.endpoint_inj.1 htranslates.1, ?_⟩
    simp [Kind.Restricts]

theorem Found.with_sent (h : Found w k t) (sent : List Request) : Found w k { t with sent } :=
  ⟨h.attempt, h.at'.with_sent sent, h.stunPort⟩

theorem test2_world (cs : Charset) (hdelivered : ∃ k < 8, 0 ∈ w.delivered .test2 k)
    (hkind : w.kind ≠ .blockedUDP) (hfound : Found w k t) (hlog : Log w .test2 0 t.sent) :
    ∃ t' b, (∀ᶠ n in atTop, test2.run cs w.network 8 n t = some (.ok (t', b))) ∧
      Log w .test1Redo 0 t'.sent ∧ if b then Found w k t' ∧ w.kind.Restricts
        else Done w (located (w.socket .test1 k).endpoint (w.mapped k)) t' := by
  refine run_world (J := fun _ t => Found w k t) hdelivered ?_ ?_ hlog hfound
  · rintro j t hj hfound hlog
    have hbind := bind_world hj (by decide) (fun h => by cases h) hlog
    refine ⟨_, _, test2_send_world hfound.at' hfound.stunPort hbind, rfl,
      sent_request hj fun _ => rfl, fun _ => hfound.with_sent _, ?_⟩
    intro hlets hlog mh hreplies
    refine ⟨_, false, test2_concludes (hreplies.errorInfo _), hlog.next (by decide),
      Option.isSome_iff_exists.2 ⟨_, hfound.at'.socket⟩, ?_⟩
    dsimp only
    rw [hfound.at'.natted, hfound.at'.di]
    rcases mapped_cases w k hkind with ⟨heq, hk | hk⟩ | ⟨hne, hk | hk⟩
    · rw [hk, heq]
      simp [Kind.mark]
    · rw [hk] at hlets
      cases hlets
    · rw [hk]
      simp [Kind.mark, hne]
    · rcases hk with hk | hk | hk <;> (rw [hk] at hlets; cases hlets)
  · rintro t hfound hlog hlets
    have hsocket := Option.isSome_iff_exists.2 ⟨_, hfound.at'.socket⟩
    have hnatted := hfound.at'.natted
    rcases mapped_cases w k hkind with ⟨heq, hk | hk⟩ | ⟨hne, hk | hk⟩
    · rw [hk] at hlets
      cases hlets
    · rw [heq, decide_eq_false (by simp)] at hnatted
      simp only [test2, hnatted, Bool.not_false, if_true]
      refine ⟨hlog.next (by decide), hsocket, ?_⟩
      rw [hk, hfound.at'.di]
      rfl
    · rw [hk] at hlets
      cases hlets
    · rw [decide_eq_true hne] at hnatted
      simp only [test2, hnatted]
      exact ⟨hlog.next (by decide), hfound, hk⟩

theorem test1Redo_world (cs : Charset) (hdelivered : ∃ k < 8, 0 ∈ w.delivered .test1Redo k)
    (hkind : w.kind.Restricts) (hfound : Found w k t) (hlog : Log w .test1Redo 0 t.sent) :
    ∃ t' b, (∀ᶠ n in atTop, test1Redo.run cs w.network 8 n t = some (.ok (t', b))) ∧
      Log w .test3 0 t'.sent ∧
        if b then Found w k t' ∧ (w.kind = .restrictedCone ∨ w.kind = .portRestrictedCone)
        else Done w (located (w.socket .test1 k).endpoint (w.mapped k)) t' := by
  have htranslates := w.translates (w.socket .test1 k)
  refine run_world (J := fun _ t => Found w k t) hdelivered ?_ ?_ hlog hfound
  · rintro j t hj hfound -
    refine ⟨_, _, test1Redo_send_world hfound.at', rfl,
      sent_request hfound.attempt fun h => absurd rfl h, fun _ => hfound.with_sent _, ?_⟩
    intro _ hlog mh hreplies
    have hc := test1Redo_concludes (t := { t with
      sent := w.request .test1Redo j (w.socket .test1 k).endpoint :: t.sent })
      (hreplies.errorInfo _) hfound.at'.ma hreplies.mapped
    have hcone (h : w.map (w.socket .test1 k).endpoint w.far =
        w.map (w.socket .test1 k).endpoint w.near) :
        ¬ w.mapped k ≠ (w.map (w.socket .test1 k).endpoint w.far).endpoint := by
      rw [not_not, World.mapped, h]
    rcases hkind with hk | hk | hk
    · rw [hk] at htranslates
      exact ⟨_, true, hc.trans (if_neg (hcone htranslates.2)), hlog.next (by decide),
        hfound.with_sent _, Or.inl hk⟩
    · rw [hk] at htranslates
      exact ⟨_, true, hc.trans (if_neg (hcone htranslates.2)), hlog.next (by decide),
        hfound.with_sent _, Or.inr hk⟩
    · rw [hk] at htranslates
      have hne : w.mapped k ≠ (w.map (w.socket .test1 k).endpoint w.far).endpoint :=
        fun h => htranslates.2 (Outside.endpoint_inj.1 h).symm
      refine ⟨_, false, hc.trans (if_pos hne), hlog.next (by decide),
        Option.isSome_iff_exists.2 ⟨_, hfound.at'.socket⟩, ?_⟩
      rw [hk, ← hfound.at'.di]
      rfl
  · rintro t - - hlets
    rcases hkind with hk | hk | hk <;> (rw [hk] at hlets; cases hlets)

theorem test3_world (cs : Charset) (hdelivered : ∃ k < 8, 0 ∈ w.delivered .test3 k)
    (hkind : w.kind = .restrictedCone ∨ w.kind = .portRestrictedCone) (hfound : Found w k t)
    (hlog : Log w .test3 0 t.sent) :
    ∃ t' b, (∀ᶠ n in atTop, test3.run cs w.network 8 n t = some (.ok (t', b))) ∧
      Done w (located (w.socket .test1 k).endpoint (w.mapped k)) t' := by
  have hnatted : w.mapped k ≠ (w.socket .test1 k).endpoint := by
    rcases mapped_cases w k (by rcases hkind with hk | hk <;> simp [hk]) with ⟨-, h⟩ | ⟨hne, -⟩
    · rcases hkind with hk | hk <;> simp [hk] at h
    · exact hne
  refine run_world (J := fun _ t => Found w k t) hdelivered ?_ ?_ hlog hfound
  · rintro j t hj hfound hlog
    have hbind := bind_world hj (by decide) (fun h => by cases h) hlog
    refine ⟨_, _, test3_send_world hfound.at' hfound.stunPort hbind, rfl,
      sent_request hj fun _ => rfl, fun _ => hfound.with_sent _, ?_⟩
    intro hlets hlog mh hreplies
    refine ⟨_, false, test3_concludes (hreplies.errorInfo _)
      (hfound.at'.natted.trans (decide_eq_true hnatted)),
      Option.isSome_iff_exists.2 ⟨_, hfound.at'.socket⟩, ?_⟩
    dsimp only
    rcases hkind with hk | hk
    · rw [hk, hfound.at'.di]
      rfl
    · rw [hk] at hlets
      cases hlets
  · rintro t hfound - hlets
    refine ⟨Option.isSome_iff_exists.2 ⟨_, hfound.at'.socket⟩, ?_⟩
    rcases hkind with hk | hk
    · rw [hk] at hlets
      cases hlets
    · rw [hk, ← hfound.at'.di]
      rfl

end

/-! ## The discovery -/

theorem shown_mark {κ κ' : Kind} (inside mapped : Endpoint) :
    (κ.shown (κ'.mark (located inside mapped)) = true ↔ κ = κ') ∧
      (κ.shown (κ'.mark {}) = true ↔ κ = κ') := by
  cases κ <;> cases κ' <;> simp [Kind.shown, Kind.mark, located, DiscoveryInfo.isOpenAccess,
    DiscoveryInfo.isBlockedUDP, DiscoveryInfo.isFullCone, DiscoveryInfo.isRestrictedCone,
    DiscoveryInfo.isPortRestrictedCone, DiscoveryInfo.isSymmetric,
    DiscoveryInfo.isSymmetricUDPFirewall]

theorem tests_world (cs : Charset) (w : World) (hport : w.localPort = 0 ∨ w.Answered)
    (hdelivered : ∀ test, ∃ k < 8, 0 ∈ w.delivered test k) :
    ∃ t b, (∀ᶠ n in atTop,
        tests cs w.network (w.server.port false).val 8 n = some (.ok (t, b))) ∧
      if w.kind = .blockedUDP then Done w {} t
        else ∃ k < 8, Done w (located (w.socket .test1 k).endpoint (w.mapped k)) t := by
  obtain ⟨t₁, b₁, h₁, hlog₁, hQ₁⟩ := test1_world cs (hdelivered .test1) hport
  cases b₁ with
  | false =>
    refine ⟨t₁, false, h₁.mono fun n hn => by rw [tests, hn]; rfl, ?_⟩
    rw [if_pos hQ₁.1]
    exact hQ₁.2
  | true =>
    obtain ⟨hkind, k, hfound⟩ := hQ₁
    have hk := hfound.attempt
    simp only [if_neg hkind]
    obtain ⟨t₂, b₂, h₂, hlog₂, hQ₂⟩ := test2_world cs (hdelivered .test2) hkind hfound hlog₁
    cases b₂ with
    | false =>
      refine ⟨t₂, false, ?_, k, hk, hQ₂⟩
      filter_upwards [h₁, h₂] with n h₁ h₂
      simp only [tests, h₁, h₂, ifTrue]
    | true =>
      obtain ⟨hfound, hrestricts⟩ := hQ₂
      obtain ⟨t₃, b₃, h₃, hlog₃, hQ₃⟩ := test1Redo_world cs (hdelivered .test1Redo)
        hrestricts hfound hlog₂
      cases b₃ with
      | false =>
        refine ⟨t₃, false, ?_, k, hk, hQ₃⟩
        filter_upwards [h₁, h₂, h₃] with n h₁ h₂ h₃
        simp only [tests, h₁, h₂, h₃, ifTrue]
      | true =>
        obtain ⟨hfound, hcone⟩ := hQ₃
        obtain ⟨t₄, b₄, h₄, hdone⟩ := test3_world cs (hdelivered .test3) hcone hfound hlog₃
        refine ⟨t₄, b₄, ?_, k, hk, hdone⟩
        filter_upwards [h₁, h₂, h₃, h₄] with n h₁ h₂ h₃ h₄
        simp only [tests, h₁, h₂, h₃, h₄, ifTrue]

/-- The kind of the gateway is shown and no other, and the public address that the server sees. -/
def World.Tells (w : World) (di : DiscoveryInfo) : Prop :=
  (∀ κ : Kind, κ.shown di = true ↔ κ = w.kind) ∧ (w.kind ≠ .blockedUDP → ∃ k < 8,
    di.publicIP = some (w.mapped k).address ∧ di.publicPort = (w.mapped k).port ∧
    di.localPort = (w.socket .test1 k).port.val)

/-- **NATs.**  Behind each kind of NAT and firewall, and however responses are lost, delayed and
    repeated, as long as no test loses the responses to all of its requests, discovery names that
    kind and no other, and the public address that the server sees; but from a port that is given
    it does so exactly if the first request is answered, and else leaves with the exception of
    the socket that cannot be bound again. -/
theorem test_kind (cs : Charset) (w : World)
    (hdelivered : ∀ test, ∃ k < 8, 0 ∈ w.delivered test k) :
    (w.localPort = 0 ∨ w.Answered → ∃ di sent, w.Tells di ∧ ∀ᶠ turns in atTop,
      test cs w.network (w.server.port false).val 8 turns = some (.ok (di, sent))) ∧
    (¬(w.localPort = 0 ∨ w.Answered) → ∀ᶠ turns in atTop,
      test cs w.network (w.server.port false).val 8 turns = some (.error .platform)) := by
  constructor
  · intro hport
    obtain ⟨t, b, ht, hdone⟩ := tests_world cs w hport hdelivered
    have htest {found : DiscoveryInfo} (h : Done w found t) : ∀ᶠ n in atTop,
        test cs w.network (w.server.port false).val 8 n =
          some (.ok (w.kind.mark found, t.sent)) := by
      obtain ⟨socket, hsocket⟩ := Option.isSome_iff_exists.1 h.socket
      refine ht.mono fun n hn => ?_
      rw [test, hn, ← h.di, Option.map_some]
      show some (do
        let _ ← ofMessage (nonNull t.socketTest1)
        return (t.di, t.sent) : Except Stop (DiscoveryInfo × List Request)) = _
      rw [hsocket]
      rfl
    split_ifs at hdone with hkind
    · exact ⟨_, _, ⟨fun κ => (shown_mark ⟨[], 0⟩ ⟨[], 0⟩).2, fun hne => absurd hkind hne⟩,
        htest hdone⟩
    · obtain ⟨k, hk, hdone⟩ := hdone
      refine ⟨_, _, ⟨fun κ => (shown_mark _ _).1, fun _ => ⟨k, hk, ?_⟩⟩, htest hdone⟩
      cases w.kind <;> exact ⟨rfl, rfl, rfl⟩
  · intro hport
    obtain ⟨hfixed, hlost⟩ := not_or.1 hport
    refine (test1_refused cs hfixed hlost).mono fun n hn => ?_
    rw [test, tests, hn]
    rfl

/-! ## There are such NATs -/

def Outside.ofEndpoint (e : Endpoint) : Outside :=
  ⟨⟨e.address.getD 0 0, e.address.getD 1 0, e.address.getD 2 0, e.address.getD 3 0⟩,
    Fin.ofNat 65536 e.port⟩

theorem Outside.ofEndpoint_endpoint (e : Outside) : Outside.ofEndpoint e.endpoint = e := by
  obtain ⟨⟨a₁, a₂, a₃, a₄⟩, port⟩ := e
  simp [Outside.ofEndpoint, Outside.endpoint]

/-- A server with nothing to add. -/
def plainServer : Server where
  address ip := if ip then ⟨192, 0, 2, 2⟩ else ⟨192, 0, 2, 1⟩
  port port := if port then 3479 else 3478
  address_ne := by decide
  port_ne := by decide
  extra := []
  extra_known := fun _ h => absurd h List.not_mem_nil
  extra_short := by decide

/-- A NAT that takes another port, and yet another one for the other end of the server. -/
def portMap (l dest : Endpoint) : Outside :=
  { Outside.ofEndpoint l with
    port := (Outside.ofEndpoint l).port +
      if dest = (plainServer.ends true true).endpoint then 2 else 1 }

/-- Only the response to the third request of each test arrives, after a late one. -/
def symmetricWorld : World where
  kind := .symmetric
  server := plainServer
  map := portMap
  translates := by
    have hne : (plainServer.ends false false).endpoint ≠ (plainServer.ends true true).endpoint := by
      decide
    have hport : ∀ port : Fin 65536, port + 1 ≠ port ∧ port + 2 ≠ port + 1 := by
      intro port
      simp only [ne_eq, Fin.ext_iff, Fin.val_add]
      omega
    intro inside
    have hinside := hport inside.port
    simp [Kind.Translates, portMap, Outside.ofEndpoint_endpoint, hne, Outside.ext_iff, hinside]
  localAddress := ⟨10, 0, 0, 1⟩
  localPort := 0
  ephemeral test k := Fin.ofNat 65536 (40000 + 8 * test.rank + k % 8)
  ephemeral_ne := by
    intro test k h
    have hval := congrArg Fin.val h
    rw [Fin.val_ofNat] at hval
    cases test <;> simp only [Test.rank] at hval <;> simp only [Fin.val_zero] at hval <;> omega
  ephemeral_inj := by
    intro test test' k k' hk hk' h
    have hval := congrArg Fin.val h
    rw [Fin.val_ofNat, Fin.val_ofNat] at hval
    cases test <;> cases test' <;> simp only [Test.rank] at hval <;>
      first | exact ⟨rfl, by omega⟩ | omega
  id test k := ⟨UInt8.ofNat (8 * test.rank + k + 1) :: List.replicate 15 0, rfl⟩
  id_ne := by
    intro test k hk h
    have hbyte := congrArg UInt8.toNat (List.cons.inj h).1
    rw [UInt8.toNat_ofNat', show (0 : UInt8).toNat = 0 from rfl] at hbyte
    cases test <;> simp only [Test.rank] at hbyte <;> omega
  id_inj := by
    intro test test' k k' hk hk' h
    have hbyte := congrArg UInt8.toNat (List.cons.inj (congrArg Subtype.val h)).1
    rw [UInt8.toNat_ofNat', UInt8.toNat_ofNat'] at hbyte
    cases test <;> cases test' <;> simp only [Test.rank] at hbyte <;>
      first | exact ⟨rfl, by omega⟩ | omega
  delivered _ k := if k = 2 then [1, 0] else []

theorem test_kind_symmetric : ∃ di sent, symmetricWorld.Tells di ∧ ∀ᶠ turns in atTop,
    test .latin1 symmetricWorld.network 3478 8 turns = some (.ok (di, sent)) :=
  (test_kind .latin1 symmetricWorld fun _ =>
    ⟨2, by decide, List.mem_cons_of_mem 1 List.mem_cons_self⟩).1 (Or.inl rfl)

end JaySip.Stun
