/-
  The native wrapper of Speex over all sequences of calls: which of them use its objects only
  while they are live, and divide by no zero.
-/
import JaySip.Media.Speex

namespace JaySip

open Access

/-! ## Runs -/

/-- The steps of a run of the wrapper. -/
abbrev SpeexHistory := List (Machine.Step SpeexJni SpeexCall)

variable {h : SpeexHistory} {st : Machine.Step SpeexJni SpeexCall} {s : SpeexJni} {c : SpeexCall}

/-- What a call counts on `codec_open`. -/
def SpeexCall.codec : SpeexCall → ℤ
  | .open_ => 1
  | .close => -1
  | _ => 0

/-- What a call counts on `eco_open`. -/
def SpeexCall.echo : SpeexCall → ℤ
  | .echoinit _ => 1
  | .echoclose => -1
  | _ => 0

/-- The calls of `open` less those of `close`. -/
def opens (h : SpeexHistory) : ℤ := (h.map (·.input.codec)).sum

/-- The calls of `echoinit` less those of `echoclose`. -/
def echoes (h : SpeexHistory) : ℤ := (h.map (·.input.echo)).sum

/-- What a step does. -/
def effect (st : Machine.Step SpeexJni SpeexCall) : SpeexEffect := st.pre.call st.input

/-- The accesses of the steps, in order. -/
def accesses (h : SpeexHistory) : List (Access SpeexObject) :=
  h.flatMap fun st => (effect st).accesses

/-- The lives of the objects after the steps, all of them fresh before. -/
def livesAfter (h : SpeexHistory) : SpeexObject → Life := lives (fun _ => .fresh) (accesses h)

/-- The calls use and destroy the objects only while they are live, and divide by no zero. -/
structure SafeCalls (calls : List SpeexCall) : Prop where
  respects : Respects (fun _ => .fresh) (accesses (speex.history .loaded calls))
  divisors : ∀ st ∈ speex.history .loaded calls, ∀ n ∈ (effect st).divisors, n ≠ 0

/-- Some `open` found as many `close` as `open` before it. -/
def Initialised (h : SpeexHistory) : Prop :=
  ∃ h' st, h' ++ [st] <+: h ∧ opens h' = 0 ∧ st.input = .open_

/-- The call does not come behind a surplus `close` or `echoclose`, as far as it uses the codec
    or the echo state, and `encode` not before the codec was initialised. -/
def InOrder (h : SpeexHistory) (st : Machine.Step SpeexJni SpeexCall) : Prop :=
  match st.input with
  | .encode _ _ => 0 ≤ opens h ∧ Initialised h
  | .decode _ => 0 ≤ opens h
  | .echoplayback | .echocapture _ => 0 ≤ echoes h
  | _ => True

/-- No counter leaves the range of `int`. -/
def InRange (h : SpeexHistory) (st : Machine.Step SpeexJni SpeexCall) : Prop :=
  (-2147483648 ≤ opens h + st.input.codec ∧ opens h + st.input.codec ≤ 2147483647) ∧
    -2147483648 ≤ echoes h + st.input.echo ∧ echoes h + st.input.echo ≤ 2147483647

/-! ## One more step -/

theorem opens_snoc : opens (h ++ [st]) = opens h + st.input.codec := by
  simp [opens]

theorem echoes_snoc : echoes (h ++ [st]) = echoes h + st.input.echo := by
  simp [echoes]

theorem accesses_snoc : accesses (h ++ [st]) = accesses h ++ (effect st).accesses := by
  simp [accesses]

theorem livesAfter_snoc : livesAfter (h ++ [st]) = lives (livesAfter h) (effect st).accesses := by
  rw [livesAfter, accesses_snoc, lives_append]
  rfl

theorem initialised_snoc :
    Initialised (h ++ [st]) ↔ Initialised h ∨ opens h = 0 ∧ st.input = .open_ := by
  constructor
  · rintro ⟨h', st', hp, hc⟩
    rcases List.prefix_concat_iff.1 hp with he | hp
    · obtain ⟨rfl, hst⟩ := List.append_inj' he rfl
      obtain rfl := List.singleton_inj.1 hst
      exact Or.inr hc
    · exact Or.inl ⟨h', st', hp, hc⟩
  · rintro (⟨h', st', hp, hc⟩ | hc)
    · exact ⟨h', st', hp.trans (List.prefix_append h [st]), hc⟩
    · exact ⟨h, st, List.prefix_rfl, hc⟩

/-- The step is safe after the steps before it. -/
structure SafeStep (h : SpeexHistory) (st : Machine.Step SpeexJni SpeexCall) : Prop where
  respects : Respects (livesAfter h) (effect st).accesses
  divisors : ∀ n ∈ (effect st).divisors, n ≠ 0

theorem safeCalls_iff (calls : List SpeexCall) :
    SafeCalls calls ↔ speex.Along .loaded calls SafeStep := by
  induction calls using List.reverseRecOn with
  | nil =>
    refine iff_of_true ⟨respects_nil, ?_⟩ (speex.along_nil _ _)
    intro st hst
    cases hst
  | append_singleton calls c ih =>
    have hh : speex.history .loaded (calls ++ [c]) = speex.history .loaded calls ++
        [speex.stepOf (speex.run .loaded calls) c] := speex.history_append ..
    rw [Machine.along_snoc, ← ih]
    constructor
    · rintro ⟨hr, hd⟩
      rw [hh, accesses_snoc, respects_append] at hr
      rw [hh] at hd
      refine ⟨⟨hr.1, fun st hst => hd st (List.mem_append_left _ hst)⟩, hr.2, ?_⟩
      exact hd _ (List.mem_append_right _ (List.mem_singleton_self _))
    · rintro ⟨⟨hr, hd⟩, hr', hd'⟩
      constructor
      · rw [hh, accesses_snoc, respects_append]
        exact ⟨hr, hr'⟩
      · rw [hh]
        intro st hst
        rcases List.mem_append.1 hst with hst | hst
        · exact hd st hst
        · rwa [List.mem_singleton.1 hst]

/-! ## The objects of the calls -/

/-- The objects of the codec, as opposed to those of the echo canceller. -/
def SpeexObject.isCodec : SpeexObject → Bool
  | .ebits | .dbits | .enc_state | .dec_state => true
  | .echostate | .preprocess_state => false

/-- A call that counts nothing changes no variable, and uses objects at most. -/
theorem call_reads (hc : c.codec = 0) (he : c.echo = 0) :
    (s.call c).post = s ∧ ∃ os : List SpeexObject, (s.call c).accesses = os.map use := by
  cases c with
  | open_ | close => cases hc
  | echoinit | echoclose => cases he
  | encode size tot_bytes =>
    rw [SpeexJni.call, SpeexJni.encode]
    split_ifs
    · exact ⟨rfl, [], rfl⟩
    · exact ⟨rfl, _, rfl⟩
  | decode =>
    rw [SpeexJni.call, SpeexJni.decode]
    split_ifs
    · exact ⟨rfl, [], rfl⟩
    · exact ⟨rfl, _, rfl⟩
  | getFrameSize =>
    rw [SpeexJni.call, SpeexJni.getFrameSize]
    split_ifs
    · exact ⟨rfl, [], rfl⟩
    · exact ⟨rfl, [], rfl⟩
  | echoplayback =>
    rw [SpeexJni.call, SpeexJni.echoplayback]
    split_ifs
    · exact ⟨rfl, [], rfl⟩
    · exact ⟨rfl, _, rfl⟩
  | echocapture speech =>
    rw [SpeexJni.call, SpeexJni.echocapture]
    split_ifs
    · exact ⟨rfl, [], rfl⟩
    · exact ⟨rfl, _, rfl⟩

section
variable (l : SpeexObject → Life) {framesize : ℤ}

theorem open_post : s.open_.post.codec_open = s.codec_open + 1#32 ∧
    s.open_.post.eco_open = s.eco_open ∧
      s.open_.post.enc_frame_size = if s.codec_open = 0#32 then 160 else s.enc_frame_size := by
  rw [SpeexJni.open_]
  by_cases h0 : s.codec_open = 0#32
  · rw [if_neg (not_not.2 h0), if_pos h0]
    exact ⟨rfl, rfl, rfl⟩
  · rw [if_pos h0, if_neg h0]
    exact ⟨rfl, rfl, rfl⟩

theorem close_post : s.close.post.codec_open = s.codec_open - 1#32 ∧
    s.close.post.eco_open = s.eco_open ∧ s.close.post.enc_frame_size = s.enc_frame_size := by
  rw [SpeexJni.close]
  split_ifs <;> exact ⟨rfl, rfl, rfl⟩

theorem echoinit_post (framesize : ℤ) : (s.echoinit framesize).post.codec_open = s.codec_open ∧
    (s.echoinit framesize).post.eco_open = s.eco_open + 1#32 ∧
      (s.echoinit framesize).post.enc_frame_size = s.enc_frame_size := by
  rw [SpeexJni.echoinit]
  split_ifs <;> exact ⟨rfl, rfl, rfl⟩

theorem echoclose_post : s.echoclose.post.codec_open = s.codec_open ∧
    s.echoclose.post.eco_open = s.eco_open - 1#32 ∧
      s.echoclose.post.enc_frame_size = s.enc_frame_size := by
  rw [SpeexJni.echoclose]
  split_ifs <;> exact ⟨rfl, rfl, rfl⟩

/-- The first `open` makes the objects of the codec live. -/
theorem open_lives (o : SpeexObject) : lives l s.open_.accesses o =
    if o.isCodec then if s.codec_open = 0#32 then .live else l o else l o := by
  rw [SpeexJni.open_]
  by_cases h0 : s.codec_open = 0#32
  · rw [if_neg (not_not.2 h0), lives_append, lives_uses, if_pos h0]
    cases o <;> rfl
  · rw [if_pos h0, if_neg h0, ite_self]
    rfl

/-- The last `close` destroys the objects of the codec. -/
theorem close_lives (o : SpeexObject) : lives l s.close.accesses o =
    if o.isCodec then if s.codec_open - 1#32 = 0#32 then .destroyed else l o else l o := by
  rw [SpeexJni.close]
  by_cases h1 : s.codec_open - 1#32 = 0#32
  · rw [if_neg (not_not.2 h1), if_pos h1]
    cases o <;> rfl
  · rw [if_pos h1, if_neg h1, ite_self]
    rfl

/-- The first `echoinit` makes the objects of the canceller live. -/
theorem echoinit_lives (o : SpeexObject) : lives l (s.echoinit framesize).accesses o =
    if o.isCodec then l o else if s.eco_open = 0#32 then .live else l o := by
  rw [SpeexJni.echoinit]
  by_cases h0 : s.eco_open = 0#32
  · rw [if_neg (not_not.2 h0), lives_append, lives_uses, if_pos h0]
    cases o <;> rfl
  · rw [if_pos h0, if_neg h0, ite_self]
    rfl

/-- The last `echoclose` destroys the objects of the canceller. -/
theorem echoclose_lives (o : SpeexObject) : lives l s.echoclose.accesses o =
    if o.isCodec then l o else if s.eco_open - 1#32 = 0#32 then .destroyed else l o := by
  rw [SpeexJni.echoclose]
  by_cases h1 : s.eco_open - 1#32 = 0#32
  · rw [if_neg (not_not.2 h1), if_pos h1]
    cases o <;> rfl
  · rw [if_pos h1, if_neg h1, ite_self]
    rfl

/-- `open` uses what it has initialised. -/
theorem open_respects : Respects l s.open_.accesses := by
  rw [SpeexJni.open_]
  split_ifs
  · trivial
  · rw [respects_append, respects_uses]
    refine ⟨⟨trivial, trivial, trivial, trivial, trivial⟩, ?_⟩
    intro o ho
    have hcodec : o = .enc_state ∨ o = .dec_state := by simpa using ho
    rcases hcodec with rfl | rfl <;> rfl

theorem echoinit_respects : Respects l (s.echoinit framesize).accesses := by
  rw [SpeexJni.echoinit]
  split_ifs
  · trivial
  · rw [respects_append, respects_uses]
    refine ⟨⟨trivial, trivial, trivial⟩, ?_⟩
    intro o ho
    obtain rfl := List.eq_of_mem_replicate ho
    rfl

/-- `close` respects the lives if the objects are live when the counter reaches 0. -/
theorem close_respects
    (hl : s.codec_open - 1#32 = 0#32 → ∀ o : SpeexObject, o.isCodec = true → l o = .live) :
    Respects l s.close.accesses := by
  rw [SpeexJni.close]
  split_ifs with h1
  · trivial
  · have hlive := hl (not_not.1 h1)
    exact ⟨hlive .ebits rfl, hlive .dbits rfl, hlive .dec_state rfl, hlive .enc_state rfl, trivial⟩

theorem echoclose_respects
    (hl : s.eco_open - 1#32 = 0#32 → ∀ o : SpeexObject, o.isCodec = false → l o = .live) :
    Respects l s.echoclose.accesses := by
  rw [SpeexJni.echoclose]
  split_ifs with h1
  · trivial
  · have hlive := hl (not_not.1 h1)
    exact ⟨hlive .echostate rfl, hlive .preprocess_state rfl, trivial⟩

end

/-! ## The invariant -/

/-- Each counter stands at its surplus of calls and guards its objects, and the frame size is
    set once the codec was initialised. -/
structure SpeexInv (h : SpeexHistory) (s : SpeexJni) : Prop where
  codec : RefCount (·.isCodec = true) (livesAfter h) s.codec_open (opens h)
  echo : RefCount (·.isCodec = false) (livesAfter h) s.eco_open (echoes h)
  frame : s.enc_frame_size ≠ 0 ↔ Initialised h

theorem SpeexInv.loaded : SpeexInv [] .loaded where
  codec := ⟨rfl, fun o _ => iff_of_false (by simp [livesAfter, accesses]) (by simp [opens])⟩
  echo := ⟨rfl, fun o _ => iff_of_false (by simp [livesAfter, accesses]) (by simp [echoes])⟩
  frame := by
    refine iff_of_false (by simp [SpeexJni.loaded]) ?_
    rintro ⟨h', st, hp, -⟩
    simp at hp

/-- The invariant after one more step, over the lives and the counts that the step leaves. -/
theorem SpeexInv.snoc
    (hc : RefCount (·.isCodec = true) (lives (livesAfter h) (s.call c).accesses)
      (s.call c).post.codec_open (opens h + c.codec))
    (he : RefCount (·.isCodec = false) (lives (livesAfter h) (s.call c).accesses)
      (s.call c).post.eco_open (echoes h + c.echo))
    (hf : (s.call c).post.enc_frame_size ≠ 0 ↔ Initialised h ∨ opens h = 0 ∧ c = .open_) :
    SpeexInv (h ++ [speex.stepOf s c]) (speex.step s c) where
  codec := by
    rw [opens_snoc, livesAfter_snoc]
    exact hc
  echo := by
    rw [echoes_snoc, livesAfter_snoc]
    exact he
  frame := by
    rw [initialised_snoc]
    exact hf

section
variable (hi : SpeexInv h s)
include hi

/-- Only `open` sets the frame size, and at 0 it initialises the codec. -/
theorem SpeexInv.frame_open :
    s.open_.post.enc_frame_size ≠ 0 ↔ Initialised h ∨ opens h = 0 ∧ SpeexCall.open_ = .open_ := by
  rw [open_post.2.2]
  by_cases h0 : s.codec_open = 0#32
  · rw [if_pos h0]
    exact iff_of_true (by decide) (Or.inr ⟨hi.codec.count_eq_zero.1 h0, rfl⟩)
  · rw [if_neg h0, hi.frame]
    exact (or_iff_left fun hn => h0 (hi.codec.count_eq_zero.2 hn.1)).symm

theorem SpeexInv.frame_keep (hc : c ≠ .open_)
    (hs : (s.call c).post.enc_frame_size = s.enc_frame_size) :
    (s.call c).post.enc_frame_size ≠ 0 ↔ Initialised h ∨ opens h = 0 ∧ c = .open_ := by
  rw [hs, hi.frame]
  exact (or_iff_left fun h => hc h.2).symm

/-- A call that counts nothing keeps the invariant. -/
theorem SpeexInv.reads (hc : c.codec = 0) (he : c.echo = 0) :
    SpeexInv (h ++ [speex.stepOf s c]) (speex.step s c) := by
  obtain ⟨hs, os, hos⟩ := call_reads (s := s) hc he
  have hl : ∀ o, lives (livesAfter h) (s.call c).accesses o = livesAfter h o := by
    intro o
    rw [hos, lives_uses]
  refine .snoc ?_ ?_ (hi.frame_keep ?_ (by rw [hs]))
  · exact hi.codec.keep (by rw [hs]) (by rw [hc, add_zero]) fun o _ => hl o
  · exact hi.echo.keep (by rw [hs]) (by rw [he, add_zero]) fun o _ => hl o
  · rintro rfl
    cases hc

/-- Steps without overflow keep the invariant. -/
theorem SpeexInv.step (hr : InRange h (speex.stepOf s c)) :
    SpeexInv (h ++ [speex.stepOf s c]) (speex.step s c) := by
  have hw : 1 < 32 := by decide
  have hcodec : -2147483648 ≤ opens h + c.codec ∧ opens h + c.codec ≤ 2147483647 := hr.1
  have hecho : -2147483648 ≤ echoes h + c.echo ∧ echoes h + c.echo ≤ 2147483647 := hr.2
  cases c with
  | encode | decode | getFrameSize | echoplayback | echocapture => exact hi.reads rfl rfl
  | open_ =>
    obtain ⟨hco, heo, -⟩ := open_post (s := s)
    refine .snoc ?_ ?_ hi.frame_open
    · refine hi.codec.acquire hw hco rfl (by omega) fun o ho => ?_
      exact (open_lives _ o).trans (if_pos ho)
    · refine hi.echo.keep heo (add_zero _) fun o ho => ?_
      exact (open_lives _ o).trans (if_neg (Bool.eq_false_iff.1 ho))
  | close =>
    obtain ⟨hco, heo, hfr⟩ := close_post (s := s)
    refine .snoc ?_ ?_ (hi.frame_keep (fun hc => by cases hc) hfr)
    · refine hi.codec.release hw hco rfl (by omega) fun o ho => ?_
      exact (close_lives _ o).trans (if_pos ho)
    · refine hi.echo.keep heo (add_zero _) fun o ho => ?_
      exact (close_lives _ o).trans (if_neg (Bool.eq_false_iff.1 ho))
  | echoinit framesize =>
    obtain ⟨hco, heo, hfr⟩ := echoinit_post (s := s) framesize
    refine .snoc ?_ ?_ (hi.frame_keep (fun hc => by cases hc) hfr)
    · refine hi.codec.keep hco (add_zero _) fun o ho => ?_
      exact (echoinit_lives _ o).trans (if_pos ho)
    · refine hi.echo.acquire hw heo rfl (by omega) fun o ho => ?_
      exact (echoinit_lives _ o).trans (if_neg (Bool.eq_false_iff.1 ho))
  | echoclose =>
    obtain ⟨hco, heo, hfr⟩ := echoclose_post (s := s)
    refine .snoc ?_ ?_ (hi.frame_keep (fun hc => by cases hc) hfr)
    · refine hi.codec.keep hco (add_zero _) fun o ho => ?_
      exact (echoclose_lives _ o).trans (if_pos ho)
    · refine hi.echo.release hw heo rfl (by omega) fun o ho => ?_
      exact (echoclose_lives _ o).trans (if_neg (Bool.eq_false_iff.1 ho))

theorem SpeexInv.encode_respects (size tot_bytes : ℤ) :
    Respects (livesAfter h) (s.encode size tot_bytes).accesses ↔ 0 ≤ opens h := by
  let nsamples := (size - 1).tdiv s.enc_frame_size + 1
  let os : List SpeexObject :=
    .ebits :: (List.replicate nsamples.toNat [.enc_state, .ebits]).flatten ++ [.ebits]
  have he : (s.encode size tot_bytes).accesses =
      if s.codec_open = 0#32 then [] else os.map use := by
    rw [SpeexJni.encode]
    split_ifs <;> rfl
  have hG : ∀ o ∈ os, SpeexObject.isCodec o = true := by
    intro o ho
    rcases List.mem_cons.1 ho with rfl | ho
    · rfl
    · rcases List.mem_append.1 ho with ho | ho
      · obtain ⟨l, hl, ho⟩ := List.mem_flatten.1 ho
        obtain rfl := List.eq_of_mem_replicate hl
        have hloop : o = .enc_state ∨ o = .ebits := by simpa using ho
        rcases hloop with rfl | rfl <;> rfl
      · obtain rfl := List.mem_singleton.1 ho
        rfl
  rw [he]
  exact hi.codec.respects_guarded (List.cons_ne_nil _ _) hG

theorem SpeexInv.decode_respects :
    Respects (livesAfter h) s.decode.accesses ↔ 0 ≤ opens h := by
  have he : s.decode.accesses =
      if s.codec_open = 0#32 then [] else [.dbits, .dec_state, .dbits].map use := by
    rw [SpeexJni.decode]
    split_ifs <;> rfl
  rw [he]
  exact hi.codec.respects_guarded (List.cons_ne_nil _ _) (by decide)

theorem SpeexInv.echoplayback_respects :
    Respects (livesAfter h) s.echoplayback.accesses ↔ 0 ≤ echoes h := by
  have he : s.echoplayback.accesses =
      if s.eco_open = 0#32 then [] else [.echostate].map use := by
    rw [SpeexJni.echoplayback]
    split_ifs <;> rfl
  rw [he]
  exact hi.echo.respects_guarded (List.cons_ne_nil _ _) (by decide)

theorem SpeexInv.echocapture_respects (speech : ℤ) :
    Respects (livesAfter h) (s.echocapture speech).accesses ↔ 0 ≤ echoes h := by
  have he : (s.echocapture speech).accesses =
      if s.eco_open = 0#32 then [] else [.preprocess_state, .echostate, .echostate].map use := by
    rw [SpeexJni.echocapture]
    split_ifs <;> rfl
  rw [he]
  exact hi.echo.respects_guarded (List.cons_ne_nil _ _) (by decide)

/-- The last `close` finds the objects live. -/
theorem SpeexInv.close_respects : Respects (livesAfter h) s.close.accesses :=
  JaySip.close_respects _ fun h1 _ ho => hi.codec.live_of_pred (by decide) h1 ho

theorem SpeexInv.echoclose_respects : Respects (livesAfter h) s.echoclose.accesses :=
  JaySip.echoclose_respects _ fun h1 _ ho => hi.echo.live_of_pred (by decide) h1 ho

omit hi in
/-- Only `encode` divides. -/
theorem call_divisors : (s.call c).divisors =
    match c with
    | .encode _ _ => [s.enc_frame_size]
    | _ => [] := by
  cases c with
  | open_ => rw [SpeexJni.call, SpeexJni.open_]; split_ifs <;> rfl
  | encode => rw [SpeexJni.call, SpeexJni.encode]; split_ifs <;> rfl
  | decode => rw [SpeexJni.call, SpeexJni.decode]; split_ifs <;> rfl
  | getFrameSize => rw [SpeexJni.call, SpeexJni.getFrameSize]; split_ifs <;> rfl
  | close => rw [SpeexJni.call, SpeexJni.close]; split_ifs <;> rfl
  | echoinit => rw [SpeexJni.call, SpeexJni.echoinit]; split_ifs <;> rfl
  | echoplayback => rw [SpeexJni.call, SpeexJni.echoplayback]; split_ifs <;> rfl
  | echocapture => rw [SpeexJni.call, SpeexJni.echocapture]; split_ifs <;> rfl
  | echoclose => rw [SpeexJni.call, SpeexJni.echoclose]; split_ifs <;> rfl

omit hi in
theorem getFrameSize_accesses : s.getFrameSize.accesses = [] := by
  rw [SpeexJni.getFrameSize]
  split_ifs <;> rfl

/-- A step is safe exactly if it is in order. -/
theorem SpeexInv.safeStep_iff :
    SafeStep h (speex.stepOf s c) ↔ InOrder h (speex.stepOf s c) := by
  have hsafe : SafeStep h (speex.stepOf s c) ↔ Respects (livesAfter h) (s.call c).accesses ∧
      ∀ n ∈ (s.call c).divisors, n ≠ 0 := ⟨fun h => ⟨h.1, h.2⟩, fun h => ⟨h.1, h.2⟩⟩
  rw [hsafe, call_divisors]
  cases c with
  | encode size tot_bytes =>
    refine and_congr (hi.encode_respects size tot_bytes) ?_
    rw [List.forall_mem_singleton]
    exact hi.frame
  | decode => exact (and_iff_left (List.forall_mem_nil _)).trans hi.decode_respects
  | echoplayback => exact (and_iff_left (List.forall_mem_nil _)).trans hi.echoplayback_respects
  | echocapture speech =>
    exact (and_iff_left (List.forall_mem_nil _)).trans (hi.echocapture_respects speech)
  | open_ => exact iff_of_true ⟨open_respects _, List.forall_mem_nil _⟩ trivial
  | close => exact iff_of_true ⟨hi.close_respects, List.forall_mem_nil _⟩ trivial
  | echoinit framesize => exact iff_of_true ⟨echoinit_respects _, List.forall_mem_nil _⟩ trivial
  | echoclose => exact iff_of_true ⟨hi.echoclose_respects, List.forall_mem_nil _⟩ trivial
  | getFrameSize =>
    refine iff_of_true ⟨?_, List.forall_mem_nil _⟩ trivial
    rw [SpeexJni.call, getFrameSize_accesses]
    trivial

end

/-- **Native objects.**  As long as no counter overflows, the calls use the objects only while
    they are live, destroy none twice and divide by no zero exactly if no call that uses the
    codec or the echo state comes behind a surplus close of it, and no `encode` comes before
    the codec was initialised. -/
theorem safeCalls_iff_inOrder (calls : List SpeexCall) (hr : speex.Along .loaded calls InRange) :
    SafeCalls calls ↔ speex.Along .loaded calls InOrder := by
  rw [safeCalls_iff]
  exact speex.along_congr_of SpeexInv.loaded (fun _ _ _ hi hr => hi.step hr)
    (fun _ _ _ hi _ => hi.safeStep_iff) calls hr

/-! ## Ranges -/

theorem codec_bounds (c : SpeexCall) : -1 ≤ c.codec ∧ c.codec ≤ 1 := by
  cases c <;> simp [SpeexCall.codec]

theorem echo_bounds (c : SpeexCall) : -1 ≤ c.echo ∧ c.echo ≤ 1 := by
  cases c <;> simp [SpeexCall.echo]

/-- A surplus is no larger than the number of calls. -/
theorem surplus_bounds (h : SpeexHistory) : (-(h.length : ℤ) ≤ opens h ∧ opens h ≤ h.length) ∧
    -(h.length : ℤ) ≤ echoes h ∧ echoes h ≤ h.length := by
  induction h using List.reverseRecOn with
  | nil => simp [opens, echoes]
  | append_singleton h st ih =>
    have hc := codec_bounds st.input
    have he := echo_bounds st.input
    rw [opens_snoc, echoes_snoc, List.length_append, List.length_singleton]
    push_cast
    omega

/-- Fewer than 2 ^ 31 calls cannot make a counter overflow. -/
theorem inRange_of_length {calls : List SpeexCall} (hl : calls.length < 2147483648) :
    speex.Along .loaded calls InRange := by
  intro h st t e
  have hlen : h.length + 1 ≤ calls.length := by
    have hh := congrArg List.length e
    rw [speex.length_history, List.length_append, List.length_cons] at hh
    omega
  have hb := surplus_bounds h
  have hc := codec_bounds st.input
  have he := echo_bounds st.input
  rw [InRange]
  omega

/-- A codec that is closed once too often, and opened again. -/
theorem safeCalls_iff_inOrder_reopened :
    SafeCalls [.open_, .close, .close, .open_, .decode 38] ↔
      speex.Along .loaded [.open_, .close, .close, .open_, .decode 38] InOrder :=
  safeCalls_iff_inOrder _ (inRange_of_length (by decide))

/-- Division by zero in a library that was just loaded, and uses of objects that were never
    initialised or that are destroyed. -/
theorem calls_not_safe : ¬ SafeCalls [.encode 160 38] ∧ ¬ SafeCalls [.close, .decode 38] ∧
    ¬ SafeCalls [.open_, .close, .close, .encode 160 38] ∧
      ¬ SafeCalls [.echoclose, .echoplayback] := by
  have hrespects : ∀ calls ∈ [[.close, .decode 38], [.open_, .close, .close, .encode 160 38],
      [.echoclose, .echoplayback]],
      ¬ Respects (fun _ => .fresh) (accesses (speex.history .loaded calls)) := by
    decide
  refine ⟨fun h => ?_, fun h => ?_, fun h => ?_, fun h => ?_⟩
  · exact h.divisors _ List.mem_cons_self 0 List.mem_cons_self rfl
  · exact hrespects _ (by simp) h.respects
  · exact hrespects _ (by simp) h.respects
  · exact hrespects _ (by simp) h.respects

end JaySip
