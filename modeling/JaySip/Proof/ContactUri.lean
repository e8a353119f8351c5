/-
  The SIP port that `createSipSession` takes from a Contact URI.
-/
import JaySip.Java.Exec
import JaySip.Java.Number
import JaySip.Java.Split
import JaySip.Sip.Session

namespace JaySip

open Java

/-! ## URIs -/

/-- A host: a name or an IPv4 address, or an IPv6 address, given by its groups between colons. -/
inductive SipHost where
  | name (text : Str)
  | ipv6 (groups : List Str)

/-- The characters of an IPv6 group; the last group may be an IPv4 address. -/
def groupChars : List Char := "0123456789abcdefABCDEF.".toList

/-- A name has none of the separators of the URI; an IPv6 address has two colons at least. -/
def SipHost.WellFormed : SipHost → Prop
  | .name text => text ≠ [] ∧ '@' ∉ text ∧ ';' ∉ text ∧ ':' ∉ text
  | .ipv6 groups => 3 ≤ groups.length ∧ ∀ g ∈ groups, ∀ c ∈ g, c ∈ groupChars

def SipHost.text : SipHost → Str
  | .name text => text
  | .ipv6 groups => '[' :: [':'].intercalate groups ++ [']']

/-- The text is a decimal numeral of the number, with or without leading zeros. -/
def IsNumeral (ds : Str) (n : ℤ) : Prop :=
  ds ≠ [] ∧ (∀ c ∈ ds, c.isDigit = true) ∧ n = Nat.ofDigitChars 10 ds 0

/-- `user[:password]`. -/
structure UserInfo where
  user : Str
  password : Option Str
  user_free : '@' ∉ user
  password_free : ∀ p ∈ password, '@' ∉ p

/-- `sip:[user[:password]@]host[:port][;parameters]`, with a port that an `int` holds. -/
structure ContactUri where
  userInfo : Option UserInfo
  host : SipHost
  port : Option Str
  parameters : List Str
  host_wf : host.WellFormed
  port_numeral : ∀ ds ∈ port, ∃ n ≤ 2147483647, IsNumeral ds n
  parameters_free : ∀ q ∈ parameters, '@' ∉ q

namespace ContactUri

/-- A part behind its separator, if there is one. -/
def part (c : Char) (o : Option Str) : Str := o.elim [] (c :: ·)

/-- Host and port. -/
def address (u : ContactUri) : Str := u.host.text ++ part ':' u.port

def parameterText (u : ContactUri) : Str := u.parameters.flatMap (';' :: ·)

def text (u : ContactUri) : Str :=
  "sip:".toList ++ (u.userInfo.elim [] fun i => i.user ++ part ':' i.password ++ ['@']) ++
    u.address ++ u.parameterText

/-- The port of the URI, 5060 if it gives none. -/
def sipPort (u : ContactUri) : ℤ := u.port.elim 5060 fun ds => Nat.ofDigitChars 10 ds 0

/-- The user part is present, and the host is no IPv6 address, or one whose second group
    happens to be a decimal numeral of the port. -/
def Readable (u : ContactUri) : Prop :=
  u.userInfo.isSome = true ∧
    ∀ groups, u.host = .ipv6 groups → ∃ g, groups[1]? = some g ∧ IsNumeral g u.sipPort

end ContactUri

/-- The address of the description's connection, looked up. -/
def connectionAddress (getByName : Str → Option Str) (d : SessionDescription) :
    Except JException Str := do
  let connection ← nonNull d.connection
  match getByName connection.address with
  | none => .error .unknownHost
  | some inetAddress => .ok inetAddress

/-- With this Contact URI `createSipSession` fails only where the connection of the description
    does, and the session has the port of the URI. -/
def ContactUri.Honoured (u : ContactUri) : Prop :=
  ∀ (getByName : Str → Option Str) (message : Message) (source : Source) (d : SessionDescription),
    (createSipSession getByName { message with contactURI := some u.text } source d).map
        (·.remoteSipPort) =
      (connectionAddress getByName d).map fun _ => u.sipPort

/-! ## The session -/

/-- The port is read from the Contact header before the connection is looked up. -/
theorem createSipSession_port (getByName : Str → Option Str) (message : Message) (source : Source)
    (d : SessionDescription) :
    (createSipSession getByName message source d).map (·.remoteSipPort) =
      (contactAddress message.contactURI >>= contactPort) >>= fun port =>
        (connectionAddress getByName d).map fun _ => port := by
  rw [createSipSession, connectionAddress]
  cases contactAddress message.contactURI with
  | error e => rfl
  | ok address =>
    simp only [ok_bind]
    cases contactPort address with
    | error e => rfl
    | ok port =>
      simp only [ok_bind]
      cases nonNull d.connection with
      | error e => rfl
      | ok connection =>
        simp only [ok_bind]
        cases getByName connection.address <;> rfl

/-- A description whose connection is found. -/
def reachable : SessionDescription where
  origin := none
  sessionName := none
  connection := some { address := "10.0.0.2".toList }
  mediaDescriptions := []

theorem honoured_iff_port {u : ContactUri} : u.Honoured ↔
    (contactAddress (some u.text) >>= contactPort) = .ok u.sipPort := by
  constructor
  · intro h
    have hc := h some ⟨.invite, 0, 0, [], [], none, none⟩ (.request 0) reachable
    rw [createSipSession_port] at hc
    cases hp : (contactAddress (some u.text) >>= contactPort) with
    | error e =>
      simp only [hp] at hc
      cases hc
    | ok port =>
      simp only [hp] at hc
      cases hc
      rfl
  · intro h getByName message source d
    rw [createSipSession_port]
    simp only [h, ok_bind]

/-! ## The parts of a URI -/

theorem IsNumeral.notMem {ds : Str} {n : ℤ} (h : IsNumeral ds n) {c : Char}
    (hc : c.isDigit = false) : c ∉ ds := by
  intro hm
  rw [h.2.1 c hm] at hc
  cases hc

namespace ContactUri

variable {u : ContactUri}

/-- A text between colons has the characters of its parts, and colons. -/
theorem mem_intercalate {gs : List Str} {c d : Char} (h : c ∈ [d].intercalate gs) :
    c = d ∨ ∃ g ∈ gs, c ∈ g := by
  induction gs with
  | nil => simp at h
  | cons g gs ih =>
    cases gs with
    | nil => exact Or.inr ⟨g, List.mem_cons_self, by simpa using h⟩
    | cons g' gs =>
      rw [List.intercalate_cons_cons, List.mem_append, List.mem_append, List.mem_singleton] at h
      rcases h with (h | h) | h
      · exact Or.inr ⟨g, List.mem_cons_self, h⟩
      · exact Or.inl h
      · exact (ih h).imp_right fun ⟨g, hg, hc⟩ => ⟨g, List.mem_cons_of_mem _ hg, hc⟩

/-- The host has no character that neither its groups nor their separators are. -/
theorem notMem_host {c : Char} (hc : c = '@' ∨ c = ';') : c ∉ u.host.text := by
  have hwf := u.host_wf
  cases hh : u.host with
  | name text =>
    rw [hh] at hwf
    rcases hc with rfl | rfl
    · exact hwf.2.1
    · exact hwf.2.2.1
  | ipv6 groups =>
    rw [hh] at hwf
    intro hm
    have hno : c ∉ groupChars ∧ c ≠ ':' ∧ c ≠ '[' ∧ c ≠ ']' := by
      rcases hc with rfl | rfl <;> decide
    rw [SipHost.text, List.mem_append, List.mem_cons, List.mem_singleton] at hm
    rcases hm with (h | h) | h
    · exact hno.2.2.1 h
    · rcases mem_intercalate h with h | ⟨g, hg, h⟩
      · exact hno.2.1 h
      · exact hno.1 (hwf.2 g hg c h)
    · exact hno.2.2.2 h

theorem notMem_address {c : Char} (hc : c = '@' ∨ c = ';') : c ∉ u.address := by
  rw [address, List.mem_append, not_or]
  refine ⟨notMem_host hc, ?_⟩
  cases hp : u.port with
  | none => simp [part]
  | some ds =>
    obtain ⟨n, -, hn⟩ := u.port_numeral ds hp
    have hd : c ≠ ':' ∧ c.isDigit = false := by rcases hc with rfl | rfl <;> decide
    rw [part, Option.elim_some, List.mem_cons, not_or]
    exact ⟨hd.1, hn.notMem hd.2⟩

theorem host_ne_nil : u.host.text ≠ [] := by
  have hwf := u.host_wf
  cases hh : u.host with
  | name text =>
    rw [hh] at hwf
    exact hwf.1
  | ipv6 groups => simp [SipHost.text]

theorem exists_mem_address : ∃ c ∈ u.address, c ≠ '@' ∧ c ≠ ';' := by
  obtain ⟨c, hc⟩ := List.exists_mem_of_ne_nil _ (host_ne_nil (u := u))
  have hmem : c ∈ u.address := List.mem_append_left _ hc
  exact ⟨c, hmem, fun h => notMem_address (Or.inl h) hmem, fun h => notMem_address (Or.inr h) hmem⟩

theorem notMem_parameterText : '@' ∉ u.parameterText := by
  intro h
  obtain ⟨q, hq, h⟩ := List.mem_flatMap.1 h
  rcases List.mem_cons.1 h with h | h
  · cases h
  · exact u.parameters_free q hq h

/-- The parameters go with the first semicolon. -/
theorem textBefore_address : textBefore (u.address ++ u.parameterText) ';' = u.address := by
  have hs : ';' ∉ u.address := notMem_address (Or.inr rfl)
  rw [parameterText]
  cases u.parameters with
  | nil => rw [List.flatMap_nil, List.append_nil, textBefore_of_notMem hs]
  | cons q qs =>
    rw [List.flatMap_cons, List.cons_append]
    exact textBefore_append hs _

/-! ## The Contact address -/

/-- Without a user there is no second part. -/
theorem contactAddress_of_none (h : u.userInfo = none) :
    contactAddress (some u.text) = .error .indexOutOfBounds := by
  have hat : '@' ∉ u.text := by
    have haddress : '@' ∉ u.address := notMem_address (Or.inl rfl)
    unfold text
    simp [h, haddress, notMem_parameterText]
  have hpart : arrayGet (split u.text '@') 1 = .error .indexOutOfBounds := by
    rw [arrayGet_split_one, textAfter_of_notMem hat]
    rfl
  simp only [contactAddress, nonNull_some, ok_bind, hpart, error_bind]

theorem contactAddress_of_some {i : UserInfo} (h : u.userInfo = some i) :
    contactAddress (some u.text) = .ok u.address := by
  have hpass : '@' ∉ part ':' i.password := by
    cases hp : i.password with
    | none => simp [part]
    | some p => simp [part, i.password_free p hp]
  have hfront : '@' ∉ "sip:".toList ++ i.user ++ part ':' i.password := by
    simp [i.user_free, hpass]
  have htext : u.text = ("sip:".toList ++ i.user ++ part ':' i.password) ++
      '@' :: (u.address ++ u.parameterText) := by
    unfold text
    simp [h]
  have hback : '@' ∉ u.address ++ u.parameterText := by
    rw [List.mem_append, not_or]
    exact ⟨notMem_address (Or.inl rfl), notMem_parameterText⟩
  obtain ⟨c, hc, hat, hsemi⟩ := exists_mem_address (u := u)
  have hc' : c ∈ u.address ++ u.parameterText := List.mem_append_left _ hc
  rw [contactAddress, nonNull_some, ok_bind, arrayGet_split_one, htext, textAfter_append hfront,
    if_neg (not_run hc' hat), ok_bind, textBefore_of_notMem hback, arrayGet_split_zero,
    if_neg fun hall => not_run hc' hsemi hall.2, textBefore_address]

/-! ## The port -/

theorem contains_colon {s : Str} : contains s ":".toList = true ↔ ':' ∈ s :=
  decide_eq_true_iff.trans (List.singleton_infix_iff ':' s)

/-- With a host that has no colon the port is that of the URI. -/
theorem contactPort_name {t : Str} (hh : u.host = .name t) :
    contactPort u.address = .ok u.sipPort := by
  have hwf := u.host_wf
  rw [hh] at hwf
  have hcolon : ':' ∉ t := hwf.2.2.2
  rw [contactPort, address, sipPort, hh, SipHost.text]
  cases hp : u.port with
  | none =>
    rw [part, Option.elim_none, List.append_nil, if_neg (mt contains_colon.1 hcolon)]
    rfl
  | some ds =>
    obtain ⟨n, hn, hnum⟩ := u.port_numeral ds hp
    have hds : ':' ∉ ds := hnum.notMem (by decide)
    obtain ⟨x, hx⟩ := List.exists_mem_of_ne_nil _ hnum.1
    have hne : x ≠ ':' := fun h => hds (h ▸ hx)
    rw [part, Option.elim_some, if_pos (contains_colon.2 (by simp)), arrayGet_split_one,
      textAfter_append hcolon, if_neg (not_run hx hne), ok_bind, textBefore_of_notMem hds,
      Option.elim_some]
    exact parseInt_digits hnum.2.1 hnum.1 (by have := hnum.2.2; omega)

/-- With an IPv6 address the port is read from its second group. -/
theorem contactPort_ipv6 {g₀ g₁ g₂ : Str} {gs : List Str}
    (hh : u.host = .ipv6 (g₀ :: g₁ :: g₂ :: gs)) : contactPort u.address = parseInt g₁ := by
  have hwf := u.host_wf
  rw [hh] at hwf
  have hcolon : ∀ g ∈ g₀ :: g₁ :: g₂ :: gs, ':' ∉ g := fun g hg hm =>
    absurd (hwf.2 g hg ':' hm) (by decide)
  have h₀ : ':' ∉ '[' :: g₀ := by
    rw [List.mem_cons, not_or]
    exact ⟨by decide, hcolon g₀ (by simp)⟩
  have h₁ : ':' ∉ g₁ := hcolon g₁ (by simp)
  have haddress : u.address = ('[' :: g₀) ++
      ':' :: (g₁ ++ ':' :: ([':'].intercalate (g₂ :: gs) ++ ']' :: part ':' u.port)) := by
    rw [address, hh, SipHost.text, List.intercalate_cons_cons, List.intercalate_cons_cons]
    simp
  rw [contactPort, if_pos (contains_colon.2 (by rw [haddress]; simp)), haddress,
    arrayGet_split_one, textAfter_append h₀, textBefore_append h₁,
    if_neg (not_run (by simp) (by decide : ']' ≠ ':')), ok_bind]

/-- The hexadecimal digits that `parseInt` reads are the decimal ones. -/
theorem parseInt_group {g : Str} (hg : ∀ c ∈ g, c ∈ groupChars) :
    parseInt g = .ok u.sipPort ↔ IsNumeral g u.sipPort := by
  have hdigit : groupChars.all (fun c => (digit c).isSome == c.isDigit) = true := by decide
  have hascii : ∀ c ∈ g, (digit c).isSome = true → c.isDigit = true := by
    intro c hc hs
    rwa [← eq_of_beq (List.all_eq_true.1 hdigit c (hg c hc))]
  have hrange : u.sipPort ≤ 2147483647 := by
    rw [sipPort]
    cases hp : u.port with
    | none => decide
    | some ds =>
      obtain ⟨n, hn, -, -, rfl⟩ := u.port_numeral ds hp
      exact hn
  have hminus : '-' ∉ g := fun h => absurd (hg '-' h) (by decide)
  have hplus : '+' ∉ g := fun h => absurd (hg '+' h) (by decide)
  rw [parseInt_eq_ok hminus hplus hascii]
  exact ⟨fun ⟨hne, hall, hn, _⟩ => ⟨hne, hall, hn⟩, fun ⟨hne, hall, hn⟩ => ⟨hne, hall, hn, hrange⟩⟩

/-- **Contact URIs.**  `createSipSession` takes the port of the URI exactly if the user part is
    present and the host is no IPv6 address, accidents of its second group apart. -/
theorem honoured_iff : u.Honoured ↔ u.Readable := by
  rw [honoured_iff_port, Readable]
  cases hi : u.userInfo with
  | none =>
    rw [contactAddress_of_none hi, error_bind]
    exact iff_of_false (by simp) (by simp)
  | some i =>
    rw [contactAddress_of_some hi, ok_bind]
    simp only [Option.isSome_some, true_and]
    cases hh : u.host with
    | name t =>
      rw [contactPort_name hh]
      exact iff_of_true rfl (by simp)
    | ipv6 groups =>
      have hwf := u.host_wf
      rw [hh] at hwf
      -- two colons make three groups
      match groups, hwf, hh with
      | g₀ :: g₁ :: g₂ :: gs, hwf, hh =>
        rw [contactPort_ipv6 hh, parseInt_group (hwf.2 g₁ (by simp))]
        constructor
        · rintro h groups hgs
          cases hgs
          exact ⟨g₁, rfl, h⟩
        · intro h
          obtain ⟨g, hg, h⟩ := h _ rfl
          cases hg
          exact h

end ContactUri

namespace Trace

theorem port_5070 : ∀ ds ∈ some "5070".toList, ∃ n ≤ 2147483647, IsNumeral ds n := by
  intro ds hds
  obtain rfl := Option.some.inj hds
  exact ⟨5070, by decide, by decide, List.all_eq_true.1 (by decide), by decide⟩

/-- `sip:10.0.0.2:5070`. -/
def withoutUser : ContactUri where
  userInfo := none
  host := .name "10.0.0.2".toList
  port := some "5070".toList
  parameters := []
  host_wf := ⟨by decide, by decide, by decide, by decide⟩
  port_numeral := port_5070
  parameters_free := by simp

/-- `sip:bob@[2001:db8::1]:5070`. -/
def bracketed : ContactUri where
  userInfo := some ⟨"bob".toList, none, by decide, by simp⟩
  host := .ipv6 ["2001".toList, "db8".toList, [], "1".toList]
  port := some "5070".toList
  parameters := []
  host_wf := by
    refine ⟨by decide, fun g hg c hc => ?_⟩
    have hall : ["2001".toList, "db8".toList, [], "1".toList].all
      (·.all (groupChars.contains ·)) = true := by decide
    exact List.contains_iff_mem.1 (List.all_eq_true.1 (List.all_eq_true.1 hall g hg) c hc)
  port_numeral := port_5070
  parameters_free := by simp

end Trace

/-- A URI without a user part and one with an IPv6 address make `createSipSession` fail. -/
theorem uris_not_honoured : ¬ Trace.withoutUser.Honoured ∧ ¬ Trace.bracketed.Honoured := by
  constructor
  · intro h
    have hthrows : contactAddress (some Trace.withoutUser.text) = .error .indexOutOfBounds := by
      decide
    rw [honoured_iff_port, hthrows] at h
    cases h
  · intro h
    have hok : contactAddress (some Trace.bracketed.text) = .ok "[2001:db8::1]:5070".toList := by
      decide
    have hthrows : contactPort "[2001:db8::1]:5070".toList = .error .numberFormat := by
      decide
    rw [honoured_iff_port, hok, ok_bind, hthrows] at h
    cases h

end JaySip
