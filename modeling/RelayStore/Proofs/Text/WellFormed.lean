import RelayStore.Proofs.Text.Coding

/-! # Bytes that are UTF-8

Nothing is found ill-formed in exactly those bytes that are the encoding of a text. For the
machine takes no other bytes over a character than those that encode it.
-/
namespace RelayStore.Utf8

def IsText (bs : Bytes) : Prop :=
  ∃ s, bs = encode s

theorem isText_iff {bs : Bytes} : IsText bs ↔ encode (decode bs) = bs := by
  constructor
  · rintro ⟨s, rfl⟩
    rw [decode_encode]
  · intro h
    exact ⟨decode bs, h.symm⟩

instance (bs : Bytes) : Decidable (IsText bs) :=
  decidable_of_iff _ isText_iff.symm

/-! ## The bytes of one character -/

/-- What the first byte of a sequence says of the bytes behind it, by their number. -/
theorem lead_cases {b : Nat} {p : Partial} (h : lead b = some p) :
    (p.more = 1 ∧ p.code = b - 0xC0 ∧ 0xC2 ≤ b ∧ b < 0xE0 ∧ 0x80 ≤ p.low ∧ p.high ≤ 0xBF) ∨
      (p.more = 2 ∧ p.code = b - 0xE0 ∧ 0xE0 ≤ b ∧ b < 0xF0 ∧ 0x80 ≤ p.low ∧ p.high ≤ 0xBF ∧
        (b = 0xE0 → 0xA0 ≤ p.low) ∧ (b = 0xED → p.high ≤ 0x9F)) ∨
      p.more = 3 ∧ p.code = b - 0xF0 ∧ 0xF0 ≤ b ∧ b < 0xF5 ∧ 0x80 ≤ p.low ∧ p.high ≤ 0xBF ∧
        (b = 0xF0 → 0x90 ≤ p.low) ∧ (b = 0xF4 → p.high ≤ 0x8F) := by
  unfold lead at h
  split at h
  · cases h
  split at h
  · cases h
    left
    dsimp only
    omega
  right
  iterate 3
    split at h
    · cases h
      left
      dsimp only
      omega
  right
  iterate 3
    split at h
    · cases h
      dsimp only
      omega
  cases h

/-- A continuation byte is within the bounds, and ends the sequence or goes on with it. -/
theorem Partial.next_cases {p : Partial} {b : UInt8} (h : p.next b ≠ .broken) :
    p.low ≤ b.toNat ∧ b.toNat ≤ p.high ∧
      p.next b = if p.more = 1 then .done (.ofNat (p.code * 0x40 + (b.toNat - 0x80)))
        else .more ⟨p.seen + 1, p.more - 1, 0x80, 0xBF, p.code * 0x40 + (b.toNat - 0x80)⟩ := by
  unfold next at h ⊢
  split at h
  · next hb =>
    refine ⟨hb.1, hb.2, ?_⟩
    rw [if_pos hb]
  · exact absurd rfl h

theorem Partial.Completes.last_eq {p : Partial} {bs : Bytes} {c : Char} (h : p.Completes bs c)
    (hmore : p.more = 1) :
    ∃ b, bs = [b] ∧ p.low ≤ b.toNat ∧ b.toNat ≤ p.high ∧ c = .ofNat (p.code * 0x40 + (b.toNat - 0x80)) := by
  cases h with
  | last h =>
    obtain ⟨hlow, hhigh, hnext⟩ := Partial.next_cases (by rw [h]; simp)
    rw [h, if_pos hmore] at hnext
    exact ⟨_, rfl, hlow, hhigh, Step.done.inj hnext⟩
  | tail h hbs =>
    obtain ⟨-, -, hnext⟩ := Partial.next_cases (by rw [h]; simp)
    rw [h, if_pos hmore] at hnext
    cases hnext

theorem Partial.Completes.tail_eq {p : Partial} {bs : Bytes} {c : Char} (h : p.Completes bs c)
    (hmore : p.more ≠ 1) :
    ∃ b rest, bs = b :: rest ∧ p.low ≤ b.toNat ∧ b.toNat ≤ p.high ∧
      Completes ⟨p.seen + 1, p.more - 1, 0x80, 0xBF, p.code * 0x40 + (b.toNat - 0x80)⟩ rest c := by
  cases h with
  | last h =>
    obtain ⟨-, -, hnext⟩ := Partial.next_cases (by rw [h]; simp)
    rw [h, if_neg hmore] at hnext
    cases hnext
  | tail h hbs =>
    obtain ⟨hlow, hhigh, hnext⟩ := Partial.next_cases (by rw [h]; simp)
    rw [h, if_neg hmore] at hnext
    exact ⟨_, _, rfl, hlow, hhigh, Step.more.inj hnext ▸ hbs⟩

theorem toNat_char_ofNat {n : Nat} (h : n.isValidChar) : (Char.ofNat n).toNat = n := by
  rw [Char.ofNat, dif_pos h]
  rfl

theorem ofNat_eq {n : Nat} {b : UInt8} (h : n = b.toNat) : UInt8.ofNat n = b := by
  rw [h, UInt8.ofNat_toNat]

/-- The bytes that take the machine over a character are those that encode it. -/
theorem Partial.Completes.encodeChar_eq {b : UInt8} {p : Partial} {bs : Bytes} {c : Char}
    (h : p.Completes bs c) (hlead : lead b.toNat = some p) : encodeChar c = b :: bs := by
  have hvalue {n : Nat} (hc : c = .ofNat n) (hn : n < 0xD800 ∨ 0xDFFF < n ∧ n < 0x110000) : c.toNat = n :=
    hc ▸ toNat_char_ofNat hn
  rcases lead_cases hlead with hp | hp | hp
  · obtain ⟨hmore, hcode, hb, hb', hlow, hhigh⟩ := hp
    obtain ⟨d, hbs, hd, hd', hc⟩ := h.last_eq hmore
    have hvalue := hvalue hc (by omega)
    have htwo : encodeChar c = [.ofNat (0xC0 + c.toNat / 0x40), .ofNat (0x80 + c.toNat % 0x40)] := by
      unfold encodeChar
      dsimp only
      rw [if_neg (by omega), if_pos (by omega)]
    rw [htwo, hbs, ofNat_eq (b := b) (by omega), ofNat_eq (b := d) (by omega)]
  · obtain ⟨hmore, hcode, hb, hb', hlow, hhigh, hoverlong, hsurrogate⟩ := hp
    obtain ⟨d, rest, hbs, hd, hd', hrest⟩ := h.tail_eq (by omega)
    obtain ⟨e, hrest, he, he', hc⟩ := hrest.last_eq (by dsimp only; omega)
    dsimp only at he he' hc
    have hvalue := hvalue hc (by omega)
    have hthree : encodeChar c = [.ofNat (0xE0 + c.toNat / 0x1000),
        .ofNat (0x80 + c.toNat / 0x40 % 0x40), .ofNat (0x80 + c.toNat % 0x40)] := by
      unfold encodeChar
      dsimp only
      rw [if_neg (by omega), if_neg (by omega), if_pos (by omega)]
    rw [hthree, hbs, hrest, ofNat_eq (b := b) (by omega), ofNat_eq (b := d) (by omega),
      ofNat_eq (b := e) (by omega)]
  · obtain ⟨hmore, hcode, hb, hb', hlow, hhigh, hoverlong, hlast⟩ := hp
    obtain ⟨d, rest, hbs, hd, hd', hrest⟩ := h.tail_eq (by omega)
    obtain ⟨e, rest', hrest', he, he', hlast'⟩ := hrest.tail_eq (by dsimp only; omega)
    obtain ⟨f, hlast', hf, hf', hc⟩ := hlast'.last_eq (by dsimp only; omega)
    dsimp only at he he' hf hf' hc
    have hvalue := hvalue hc (by omega)
    have hfour : encodeChar c = [.ofNat (0xF0 + c.toNat / 0x40000),
        .ofNat (0x80 + c.toNat / 0x1000 % 0x40), .ofNat (0x80 + c.toNat / 0x40 % 0x40),
        .ofNat (0x80 + c.toNat % 0x40)] := by
      unfold encodeChar
      dsimp only
      rw [if_neg (by omega), if_neg (by omega), if_neg (by omega)]
    rw [hfour, hbs, hrest', hlast', ofNat_eq (b := b) (by omega), ofNat_eq (b := d) (by omega),
      ofNat_eq (b := e) (by omega), ofNat_eq (b := f) (by omega)]

theorem encodeChar_of_first {b : UInt8} {c : Char} (h : first b = .done c) : encodeChar c = [b] := by
  unfold first at h
  split at h
  · next hb =>
    have hc : c.toNat = b.toNat := by
      rw [← Step.done.inj h]
      exact toNat_char_ofNat (.inl (by omega))
    unfold encodeChar
    dsimp only
    rw [hc, if_pos hb, UInt8.ofNat_toNat]
  · split at h <;> cases h

theorem lead_of_first {b : UInt8} {p : Partial} (h : first b = .more p) : lead b.toNat = some p := by
  unfold first at h
  split at h
  · cases h
  · split at h
    · next hlead =>
      cases h
      exact hlead
    · cases h

theorem first_ne_broken (b : UInt8) : first b ≠ .broken := by
  unfold first
  split
  · simp
  · split <;> simp

/-! ## Whole texts -/

/-- Bytes that go on where the machine stands: they complete the open sequence, if there is one,
and then encode a text. -/
def GoesOn : Option Partial → Bytes → Prop
  | none, bs => IsText bs
  | some p, bs => ∃ tail c rest, bs = tail ++ rest ∧ p.Completes tail c ∧ IsText rest

theorem isText_nil : IsText [] := ⟨"", rfl⟩

theorem IsText.append {bs bs' : Bytes} (h : IsText bs) (h' : IsText bs') : IsText (bs ++ bs') := by
  obtain ⟨s, rfl⟩ := h
  obtain ⟨t, rfl⟩ := h'
  exact ⟨s ++ t, (encode_append s t).symm⟩

theorem isText_encodeChar (c : Char) : IsText (encodeChar c) :=
  ⟨.ofList [c], by rw [encode_ofList, List.flatMap_singleton]⟩

theorem goesOn_of_findMalformed {i : Nat} {pending : Option Partial} {bs : Bytes}
    (h : findMalformed i pending bs = none) : GoesOn pending bs := by
  induction bs generalizing i pending with
  | nil =>
    cases pending with
    | none => exact isText_nil
    | some p => cases h
  | cons b bs ih =>
    cases pending with
    | none =>
      cases hfirst : first b with
      | done c =>
        have hrest : IsText bs := @ih _ none (by simpa only [findMalformed, hfirst] using h)
        have hb : b :: bs = encodeChar c ++ bs := by rw [encodeChar_of_first hfirst, List.singleton_append]
        exact hb ▸ (isText_encodeChar c).append hrest
      | more p =>
        obtain ⟨tail, c, rest, rfl, htail, hrest⟩ :=
          @ih _ (some p) (by simpa only [findMalformed, hfirst] using h)
        have hb : b :: (tail ++ rest) = encodeChar c ++ rest := by
          rw [htail.encodeChar_eq (lead_of_first hfirst), List.cons_append]
        exact hb ▸ (isText_encodeChar c).append hrest
      | stray => simp [findMalformed, hfirst] at h
      | broken => exact absurd hfirst (first_ne_broken b)
    | some p =>
      cases hnext : p.next b with
      | done c =>
        have hrest : IsText bs := @ih _ none (by simpa only [findMalformed, hnext] using h)
        exact ⟨[b], c, bs, rfl, .last hnext, hrest⟩
      | more q =>
        obtain ⟨tail, c, rest, rfl, htail, hrest⟩ :=
          @ih _ (some q) (by simpa only [findMalformed, hnext] using h)
        exact ⟨b :: tail, c, rest, rfl, .tail hnext htail, hrest⟩
      | stray => simp [findMalformed, hnext] at h
      | broken => simp [findMalformed, hnext] at h

theorem Partial.Completes.findMalformed_append {p : Partial} {bs : Bytes} {c : Char}
    (h : p.Completes bs c) (i : Nat) (rest : Bytes) :
    findMalformed i (some p) (bs ++ rest) = findMalformed (i + bs.length) none rest := by
  induction h generalizing i with
  | last h => simp only [List.singleton_append, findMalformed, h, List.length_singleton]
  | @tail p q b bs c h _ ih =>
    have hlength : i + (b :: bs).length = i + 1 + bs.length := by
      rw [List.length_cons]
      omega
    simp only [List.cons_append, findMalformed, h, ih, hlength]

theorem findMalformed_encodeChar_append (c : Char) (i : Nat) (rest : Bytes) :
    findMalformed i none (encodeChar c ++ rest) = findMalformed (i + (encodeChar c).length) none rest := by
  rcases encodeChar_cases c with ⟨b, hc, hfirst⟩ | ⟨b, bs, p, hc, hfirst, hbs⟩
  · simp only [hc, List.singleton_append, findMalformed, hfirst, List.length_singleton]
  · have hlength : i + (b :: bs).length = i + 1 + bs.length := by
      rw [List.length_cons]
      omega
    simp only [hc, List.cons_append, findMalformed, hfirst, hbs.findMalformed_append, hlength]

/-- Nothing is found ill-formed in the encodings of texts, and in no other bytes. -/
theorem malformed?_eq_none_iff {bs : Bytes} : malformed? bs = none ↔ IsText bs := by
  constructor
  · exact fun h => @goesOn_of_findMalformed _ none bs h
  · rintro ⟨s, rfl⟩
    have hlist (cs : List Char) (i : Nat) : findMalformed i none (cs.flatMap encodeChar) = none := by
      induction cs generalizing i with
      | nil => rfl
      | cons c cs ih => rw [List.flatMap_cons, findMalformed_encodeChar_append, ih]
    exact hlist s.toList 0

/-- A surrogate and a code above the last character are refused. -/
example : malformed? [0xED, 0xA0, 0x80] = some (.invalid 1 0) ∧ malformed? [0xF4, 0x8F, 0xBF, 0xBF] = none ∧
    malformed? [0xF4, 0x90, 0x80, 0x80] = some (.invalid 1 0) := by decide

end RelayStore.Utf8
