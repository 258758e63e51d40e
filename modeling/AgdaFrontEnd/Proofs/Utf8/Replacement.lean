import AgdaFrontEnd.Proofs.Utf8.Partial

/-!
# What is replaced

Bytes are a text in which every ill-formed stretch is replaced by one U+FFFD.  Such a stretch stands
where no character stands, and it is as long as it begins a character; a byte that begins none is a
stretch of its own.

* `Utf8.Broken`: an ill-formed stretch.
* `Utf8.Replaced`: the text of bytes; there is just one, `Utf8.Replaced.unique`.
* `Utf8.Decoder.Stands`: where the decoder stands, told by the bytes that it keeps back.
* `Utf8.Decoder.exists_takes`: what one byte adds to the text.
* `Utf8.replaced_iff`: the decoder gives the text of the bytes.
* `Utf8.KeepsBack`, `Utf8.keepsBack_feed`: what the decoder keeps back when the bytes end.
-/

namespace AgdaFrontEnd.Utf8

/-! ## The text of bytes -/

/-- The bytes `q`, with `bs` behind them, are ill-formed: no character stands at their beginning, and
they are all bytes there that begin one, or a single byte. -/
structure Broken (q bs : Bytes) : Prop where
  ne_nil : q ≠ []
  noCharacter : ∀ c, ¬ String.utf8EncodeChar c <+: q ++ bs
  begins : Begins q ∨ q.length = 1
  longest : ∀ r, r <+: q ++ bs → q.length < r.length → ¬ Begins r

/-- The text of bytes, every ill-formed stretch replaced. -/
inductive Replaced : Bytes → Text → Prop
  | nil : Replaced [] []
  | char {bs : Bytes} {t : Text} (c : Char) (h : Replaced bs t) :
    Replaced (String.utf8EncodeChar c ++ bs) (c :: t)
  | broken {q bs : Bytes} {t : Text} (hq : Broken q bs) (h : Replaced bs t) :
    Replaced (q ++ bs) (replacement :: t)

theorem Broken.length_le {q q' bs bs' : Bytes} (h : Broken q bs) (h' : Broken q' bs')
    (he : q ++ bs = q' ++ bs') : q'.length ≤ q.length := by
  by_contra hlt
  have hlong := h.longest q' (he ▸ List.prefix_append q' bs') (by omega)
  have hpos := List.length_pos_iff.2 h.ne_nil
  rcases h'.begins with hb | hone
  · exact hlong hb
  · omega

theorem Broken.eq {q q' bs bs' : Bytes} (h : Broken q bs) (h' : Broken q' bs')
    (he : q ++ bs = q' ++ bs') : q = q' ∧ bs = bs' :=
  List.append_inj he (Nat.le_antisymm (h'.length_le h he.symm) (h.length_le h' he))

theorem eq_of_encodeChar_append {c c' : Char} {bs bs' : Bytes}
    (h : String.utf8EncodeChar c ++ bs = String.utf8EncodeChar c' ++ bs') : c = c' ∧ bs = bs' := by
  have hc : c = c' := by
    rcases List.append_eq_append_iff.1 h with ⟨r, hr, -⟩ | ⟨r, hr, -⟩
    · exact eq_of_encodeChar_begins ⟨r, hr.symm⟩
    · exact (eq_of_encodeChar_begins ⟨r, hr.symm⟩).symm
  subst hc
  exact ⟨rfl, List.append_cancel_left h⟩

/-- **Bytes have just one text.** -/
theorem Replaced.unique {bs : Bytes} {t t' : Text} (h : Replaced bs t) (h' : Replaced bs t') : t = t' := by
  induction h generalizing t' with
  | nil =>
    generalize hbs : ([] : Bytes) = bs at h'
    cases h' with
    | nil => rfl
    | char c h' => exact absurd (List.append_eq_nil_iff.1 hbs.symm).1 (encodeChar_ne_nil c)
    | broken hq h' => exact absurd (List.append_eq_nil_iff.1 hbs.symm).1 hq.ne_nil
  | @char bs t c h ih =>
    generalize hbs : String.utf8EncodeChar c ++ bs = bytes at h'
    cases h' with
    | nil => exact absurd (List.append_eq_nil_iff.1 hbs).1 (encodeChar_ne_nil c)
    | char c' h' =>
      obtain ⟨rfl, rfl⟩ := eq_of_encodeChar_append hbs
      rw [ih h']
    | broken hq h' => exact absurd ⟨bs, hbs⟩ (hq.noCharacter c)
  | @broken q bs t hq h ih =>
    generalize hbs : q ++ bs = bytes at h'
    cases h' with
    | nil => exact absurd (List.append_eq_nil_iff.1 hbs).1 hq.ne_nil
    | char c h' => exact absurd ⟨_, hbs.symm⟩ (hq.noCharacter c)
    | broken hq' h' =>
      obtain ⟨rfl, rfl⟩ := hq.eq hq' hbs
      rw [ih h']

/-! ## Ill-formed stretches -/

/-- A longer beginning of the bytes holds the byte behind `q`. -/
theorem exists_head_of_prefix {q bs r : Bytes} (h : r <+: q ++ bs) (hlt : q.length < r.length) :
    ∃ b ∈ bs.head?, q ++ [b] <+: r := by
  cases bs with
  | nil =>
    have hle := h.length_le
    rw [List.append_nil] at hle
    omega
  | cons b bs =>
    have hb : q ++ [b] <+: q ++ b :: bs := ⟨bs, by simp⟩
    exact ⟨b, rfl, List.prefix_of_prefix_length_le hb h (by rw [List.length_append]; exact hlt)⟩

/-- Bytes that were read are an ill-formed stretch if the byte behind them is refused, or there is none. -/
theorem Reads.broken {q bs : Bytes} {p : Partial} (h : Reads q p)
    (hb : ∀ b ∈ bs.head?, p.accepts b.toNat ≠ true) : Broken q bs where
  ne_nil := h.ne_nil
  noCharacter := by
    intro c hc
    rcases Nat.lt_or_ge q.length (String.utf8EncodeChar c).length with hlt | hle
    · obtain ⟨b, hmem, hpre⟩ := exists_head_of_prefix hc hlt
      exact h.not_begins (hb b hmem) ⟨c, hpre⟩
    · exact h.not_prefix c (List.prefix_of_prefix_length_le hc (List.prefix_append q bs) hle)
  begins := .inl h.begins
  longest := by
    intro r hr hlt hbegins
    obtain ⟨b, hmem, hpre⟩ := exists_head_of_prefix hr hlt
    exact h.not_begins (hb b hmem) (hbegins.of_prefix hpre)

/-- A byte that begins no character is an ill-formed stretch. -/
theorem broken_of_invalid {b : UInt8} (h : start b.toNat = .invalid) (bs : Bytes) : Broken [b] bs where
  ne_nil := List.cons_ne_nil b []
  noCharacter := by
    intro c hc
    have hpos := List.length_pos_iff.2 (encodeChar_ne_nil c)
    exact not_begins_of_invalid h
      ⟨c, List.prefix_of_prefix_length_le (List.prefix_append [b] bs) hc hpos⟩
  begins := .inr rfl
  longest := by
    intro r hr hlt hbegins
    exact not_begins_of_invalid h
      (hbegins.of_prefix (List.prefix_of_prefix_length_le (List.prefix_append [b] bs) hr hlt.le))

/-! ## The decoder -/

/-- The first byte of a surrogate's form. -/
def surrogateLead : UInt8 := 0xED

/-- The second byte of a surrogate's form. -/
def IsSurrogateTail (b : UInt8) : Prop := 0xA0 ≤ b.toNat ∧ b.toNat ≤ 0xBF

/-- Where the decoder stands, told by the bytes that it keeps back. -/
inductive Decoder.Stands : Decoder → Bytes → Prop
  | between : Stands .between []
  | inside {q : Bytes} {p : Partial} (h : Reads q p) : Stands (.inside p) q
  | surrogate {b : UInt8} (hb : IsSurrogateTail b) : Stands .surrogate [surrogateLead, b]

/-- The bytes that a surrogate's form begins with. -/
theorem Reads.eq_surrogateLead {q : Bytes} {p : Partial} (h : Reads q p) (hp : p.greatest = 0x9F) :
    q = [surrogateLead] := by
  cases h with
  | @start b _ h =>
    have hb : b.toNat = 0xED := by
      have hforms := start_more_cases h
      omega
    rw [UInt8.toNat_inj.1 (hb.trans (by decide : (237 : Nat) = surrogateLead.toNat))]
  | next hq ha h =>
    have hgreatest := (Partial.expects_next hq.means ha h).2.2.2.1
    omega

theorem IsSurrogateTail.start_eq {b : UInt8} (hb : IsSurrogateTail b) : start b.toNat = .invalid := by
  obtain ⟨hl, hg⟩ := hb
  unfold start
  rw [if_neg (by omega), if_neg (by omega), if_neg (by omega), if_neg (by omega), if_neg (by omega),
    if_neg (by omega), if_neg (by omega), if_neg (by omega)]

/-- The two bytes of a surrogate's form are replaced one by one. -/
theorem replaced_surrogate {b : UInt8} (hb : IsSurrogateTail b) {bs : Bytes} {t : Text}
    (h : Replaced bs t) : Replaced (surrogateLead :: b :: bs) (Decoder.brokenSurrogate ++ t) := by
  have hlead : Reads [surrogateLead] ⟨13, 1, 2, 0x80, 0x9F⟩ := .start rfl
  have hrefused : Partial.accepts ⟨13, 1, 2, 0x80, 0x9F⟩ b.toNat ≠ true := by
    obtain ⟨hl, -⟩ := hb
    rw [ne_eq, Partial.accepts_iff]
    dsimp only
    omega
  have htail : Replaced (b :: bs) (replacement :: t) := .broken (broken_of_invalid hb.start_eq bs) h
  refine .broken (hlead.broken ?_) htail
  intro b' hb'
  cases hb'
  exact hrefused

namespace Decoder

/-- One byte makes some of the bytes kept back, or all with itself, whole; `whole` are these, `q'` are
those that are kept back then.  What the byte adds to the text is the text of `whole`. -/
structure Takes (d : Decoder) (q : Bytes) (b : UInt8) (whole q' : Bytes) : Prop where
  split : q ++ [b] = whole ++ q'
  stands : (d.step b.toNat).2.Stands q'
  replaced : ∀ {bs t}, Replaced (q' ++ bs) t → Replaced (q ++ b :: bs) ((d.step b.toNat).1 ++ t)

theorem takes_between (b : UInt8) : ∃ whole q', between.Takes [] b whole q' := by
  have hstep : between.step b.toNat = first b.toNat := rfl
  cases hs : start b.toNat with
  | char c =>
    refine ⟨[b], [], rfl, ?_, fun {bs t} h => ?_⟩
    · rw [hstep, first, hs]
      exact .between
    · rw [hstep, first, hs]
      have hc := Replaced.char c h
      rwa [encodeChar_of_start hs] at hc
  | more p =>
    refine ⟨[], [b], rfl, ?_, fun {bs t} h => ?_⟩
    · rw [hstep, first, hs]
      exact .inside (.start hs)
    · rw [hstep, first, hs]
      exact h
  | invalid =>
    refine ⟨[b], [], rfl, ?_, fun {bs t} h => ?_⟩
    · rw [hstep, first, hs]
      exact .between
    · rw [hstep, first, hs]
      exact Replaced.broken (q := [b]) (broken_of_invalid hs bs) h

/-- **What one byte adds to the text.** -/
theorem exists_takes {d : Decoder} {q : Bytes} (h : d.Stands q) (b : UInt8) :
    ∃ whole q', d.Takes q b whole q' := by
  obtain ⟨whole, q', hsplit, hstands, hreplaced⟩ := takes_between b
  cases h with
  | between => exact takes_between b
  | @inside q p h =>
    by_cases ha : p.accepts b.toNat = true
    · cases hn : p.next b.toNat with
      | inl c =>
        have hstep : (inside p).step b.toNat = ([c], between) := by simp [step, ha, hn]
        refine ⟨q ++ [b], [], (List.append_nil _).symm, ?_, fun {bs t} ht => ?_⟩
        · rw [hstep]
          exact .between
        · have hc := Replaced.char c ht
          rw [h.last ha hn] at hc
          rw [hstep]
          simpa using hc
      | inr p' =>
        have hstep : (inside p).step b.toNat = ([], inside p') := by simp [step, ha, hn]
        refine ⟨[], q ++ [b], rfl, ?_, fun {bs t} ht => ?_⟩
        · rw [hstep]
          exact .inside (.next h ha hn)
        · rw [hstep]
          simpa using ht
    · have hbroken : ∀ bs, Broken q (b :: bs) := fun bs => h.broken fun b' hb' => by
        cases hb'
        exact ha
      by_cases hm : makesSurrogate p b.toNat = true
      · have hstep : (inside p).step b.toNat = ([], surrogate) := by simp [step, ha, hm]
        have htail : p.greatest = 0x9F ∧ IsSurrogateTail b := by
          simp only [makesSurrogate, Bool.and_eq_true, decide_eq_true_eq] at hm
          exact ⟨hm.1.1, hm.1.2, hm.2⟩
        obtain rfl := h.eq_surrogateLead htail.1
        refine ⟨[], [surrogateLead, b], rfl, ?_, fun {bs t} ht => ?_⟩
        · rw [hstep]
          exact .surrogate htail.2
        · rw [hstep]
          exact ht
      · have hstep : (inside p).step b.toNat =
            (replacement :: (first b.toNat).1, (first b.toNat).2) := by simp [step, ha, hm]
        refine ⟨q ++ whole, q', ?_, ?_, fun {bs t} ht => ?_⟩
        · rw [List.append_assoc, ← hsplit, List.nil_append]
        · rw [hstep]
          exact hstands
        · rw [hstep]
          exact .broken (hbroken bs) (hreplaced ht)
  | @surrogate x hx =>
    have hstep : surrogate.step b.toNat =
        (brokenSurrogate ++ (first b.toNat).1, (first b.toNat).2) := rfl
    refine ⟨[surrogateLead, x] ++ whole, q', ?_, ?_, fun {bs t} ht => ?_⟩
    · rw [List.append_assoc, ← hsplit, List.nil_append]
    · rw [hstep]
      exact hstands
    · rw [hstep]
      dsimp only
      rw [List.append_assoc]
      exact replaced_surrogate hx (hreplaced ht)

/-- What is kept back is replaced when the bytes end. -/
theorem replaced_flush {d : Decoder} {q : Bytes} (h : d.Stands q) : Replaced q d.flush := by
  cases h with
  | between => exact .nil
  | @inside q p h =>
    have hbroken : Broken q [] := h.broken nofun
    have hq := Replaced.broken hbroken .nil
    rwa [List.append_nil] at hq
  | surrogate hb => exact replaced_surrogate hb .nil

theorem replaced_feed : ∀ (bs : Bytes) {d : Decoder} {q : Bytes}, d.Stands q →
    Replaced (q ++ bs) ((d.feed bs).1 ++ (d.feed bs).2.flush)
  | [], d, q, h => by
    rw [List.append_nil]
    exact replaced_flush h
  | b :: bs, d, q, h => by
    obtain ⟨whole, q', ht⟩ := exists_takes h b
    have hrest := ht.replaced (replaced_feed bs ht.stands)
    rwa [← List.append_assoc] at hrest

end Decoder

/-- **The decoder gives the text of the bytes.** -/
theorem replaced_iff {bs : Bytes} {t : Text} : Replaced bs t ↔ t = decodeLossy bs := by
  have h : Replaced bs (decodeLossy bs) := Decoder.replaced_feed bs .between
  constructor
  · exact fun h' => h'.unique h
  · rintro rfl
    exact h

theorem decodeLossy_eq_nil {bs : Bytes} : decodeLossy bs = [] ↔ bs = [] := by
  constructor
  · intro h
    have hnil : Replaced bs [] := replaced_iff.2 h.symm
    cases hnil with
    | nil => rfl
  · rintro rfl
    rfl

/-! ## What is kept back -/

/-- The bytes begin a character, or have the form of a surrogate, and they are not all of it. -/
def Unfinished (q : Bytes) : Prop :=
  (∃ c r, r ≠ [] ∧ String.utf8EncodeChar c = q ++ r) ∨
    ∃ b, IsSurrogateTail b ∧ q = [surrogateLead, b]

/-- Behind the bytes `whole` stands the longest stretch of bytes that is unfinished. -/
structure KeepsBack (bs whole q : Bytes) : Prop where
  split : bs = whole ++ q
  unfinished : Unfinished q
  longest : ∀ r, r <:+ bs → Unfinished r → r.length ≤ q.length

namespace Decoder

theorem unfinished_of_stands {d : Decoder} {q : Bytes} (h : d.Stands q) : Unfinished q := by
  cases h with
  | between => exact .inl ⟨'a', _, encodeChar_ne_nil 'a', rfl⟩
  | inside h => exact .inl h.exists_rest
  | surrogate hb => exact .inr ⟨_, hb, rfl⟩

theorem exists_stands {q : Bytes} (hq : q ≠ []) (h : Unfinished q) : ∃ d : Decoder, d.Stands q := by
  rcases h with ⟨c, r, hr, hc⟩ | ⟨b, hb, rfl⟩
  · obtain ⟨p, hp⟩ := exists_reads hr hq hc
    exact ⟨_, .inside hp⟩
  · exact ⟨_, .surrogate hb⟩

/-- How many bytes are kept back is told by where the decoder stands. -/
theorem length_eq_of_stands {d : Decoder} {q q' : Bytes} (h : d.Stands q) (h' : d.Stands q') :
    q.length = q'.length := by
  cases h with
  | between =>
    cases h'
    rfl
  | inside h =>
    cases h' with
    | inside h' => rw [← h.length_eq, ← h'.length_eq]
  | surrogate =>
    cases h'
    rfl

/-- A byte that begins a character finishes off what was kept back before. -/
theorem step_start {d : Decoder} {q : Bytes} (h : d.Stands q) {b : UInt8} {p : Partial}
    (hb : start b.toNat = .more p) : d.step b.toNat = (d.flush, inside p) := by
  have hforms := start_more_cases hb
  have hfirst : first b.toNat = ([], inside p) := by simp [first, hb]
  cases h with
  | between => exact hfirst
  | @inside _ p₀ h =>
    have hgreatest := h.means.greatest_le
    have ha : p₀.accepts b.toNat ≠ true := by
      rw [ne_eq, Partial.accepts_iff]
      omega
    have hm : makesSurrogate p₀ b.toNat ≠ true := by
      simp only [makesSurrogate, ne_eq, Bool.and_eq_true, decide_eq_true_eq]
      omega
    simp [step, ha, hm, hfirst, flush]
  | surrogate => simp [step, hfirst, flush]

theorem feed_concat (d : Decoder) (q : Bytes) (b : UInt8) : d.feed (q ++ [b]) =
    ((d.feed q).1 ++ ((d.feed q).2.step b.toNat).1, ((d.feed q).2.step b.toNat).2) := by
  rw [feed_append]
  simp [feed]

/-- The bytes of an unfinished stretch finish off what was kept back before, and are kept back
themselves. -/
theorem feed_reads {d : Decoder} {q₀ q : Bytes} {p : Partial} (h₀ : d.Stands q₀) (h : Reads q p) :
    d.feed q = (d.flush, inside p) := by
  induction h with
  | start hb =>
    have hstep := step_start h₀ hb
    simp [feed, hstep]
  | next _ ha hn ih =>
    rw [feed_concat, ih]
    simp [step, ha, hn]

theorem feed_unfinished {d d' : Decoder} {q₀ q : Bytes} (h₀ : d.Stands q₀) (h : d'.Stands q)
    (hq : q ≠ []) : d.feed q = (d.flush, d') := by
  cases h with
  | between => exact absurd rfl hq
  | inside h => exact feed_reads h₀ h
  | @surrogate b hb =>
    have hlead : Reads [surrogateLead] ⟨13, 1, 2, 0x80, 0x9F⟩ := .start rfl
    have hsplit : [surrogateLead, b] = [surrogateLead] ++ [b] := rfl
    obtain ⟨hl, hg⟩ := hb
    have ha : Partial.accepts ⟨13, 1, 2, 0x80, 0x9F⟩ b.toNat ≠ true := by
      rw [ne_eq, Partial.accepts_iff]
      dsimp only
      omega
    have hm : makesSurrogate ⟨13, 1, 2, 0x80, 0x9F⟩ b.toNat = true := by
      simp only [makesSurrogate, Bool.and_eq_true, decide_eq_true_eq]
      exact ⟨⟨trivial, hl⟩, hg⟩
    rw [hsplit, feed_concat, feed_reads h₀ hlead]
    simp [step, ha, hm]

/-- After any bytes the decoder keeps back some of them. -/
theorem exists_stands_feed : ∀ (bs : Bytes) {d : Decoder} {q₀ : Bytes}, d.Stands q₀ →
    ∃ whole q, q₀ ++ bs = whole ++ q ∧ (d.feed bs).2.Stands q
  | [], d, q₀, h => ⟨[], q₀, List.append_nil q₀, h⟩
  | b :: bs, d, q₀, h => by
    obtain ⟨whole, q', ht⟩ := exists_takes h b
    obtain ⟨whole', q, hsplit, hq⟩ := exists_stands_feed bs ht.stands
    refine ⟨whole ++ whole', q, ?_, hq⟩
    calc q₀ ++ b :: bs = q₀ ++ [b] ++ bs := by simp
      _ = whole ++ (q' ++ bs) := by rw [ht.split, List.append_assoc]
      _ = whole ++ whole' ++ q := by rw [hsplit, List.append_assoc]

end Decoder

/-- **What the decoder keeps back** is the longest stretch at the end of the bytes that is unfinished.
It has given the text of all bytes before it. -/
theorem keepsBack_feed (bs : Bytes) : ∃ whole q, KeepsBack bs whole q ∧
    (Decoder.between.feed bs).1 = decodeLossy whole ∧
    (Decoder.between.feed bs).2.flush = decodeLossy q := by
  obtain ⟨whole, q, hsplit, hq⟩ := Decoder.exists_stands_feed bs .between
  rw [List.nil_append] at hsplit
  have hflush : (Decoder.between.feed bs).2.flush = decodeLossy q :=
    replaced_iff.1 (Decoder.replaced_flush hq)
  refine ⟨whole, q, ⟨hsplit, Decoder.unfinished_of_stands hq, fun r hr hunfinished => ?_⟩, ?_,
    hflush⟩
  · by_cases hnil : r = []
    · rw [hnil]
      exact Nat.zero_le _
    · obtain ⟨a, rfl⟩ := hr
      obtain ⟨_, q₀, -, hq₀⟩ := Decoder.exists_stands_feed a .between
      obtain ⟨d, hd⟩ := Decoder.exists_stands hnil hunfinished
      rw [Decoder.feed_append, Decoder.feed_unfinished hq₀ hd hnil] at hq
      exact Nat.le_of_eq (Decoder.length_eq_of_stands hd hq)
  · by_cases hnil : q = []
    · rw [hnil] at hflush hsplit
      rw [List.append_nil] at hsplit
      rw [← hsplit, decodeLossy]
      dsimp only
      rw [hflush]
      exact (List.append_nil _).symm
    · obtain ⟨_, q₀, -, hq₀⟩ := Decoder.exists_stands_feed whole .between
      rw [hsplit, Decoder.feed_append, Decoder.feed_unfinished hq₀ hq hnil]
      rfl

end AgdaFrontEnd.Utf8
