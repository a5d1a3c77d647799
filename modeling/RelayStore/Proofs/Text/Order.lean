import RelayStore.Proofs.Text.Coding

/-! # The order of texts

Texts stand in the order of the codes of their characters. That is also the order of their bytes:
of two characters the one with more bytes has the greater first byte, and where the numbers of
bytes are the same, so is the order of the digits that the bytes carry. So two texts are told
apart by the bytes of the first character in which they differ, whatever follows it.
-/
namespace RelayStore.Utf8

theorem ofNat_cons_lt_iff {m n : Nat} (hm : m < 0x100) (hn : n < 0x100) (as bs : Bytes) :
    UInt8.ofNat m :: as < UInt8.ofNat n :: bs ↔ m < n ∨ m = n ∧ as < bs := by
  rw [List.cons_lt_cons_iff, UInt8.lt_iff_toNat_lt, ← UInt8.toNat_inj, toNat_ofNat hm, toNat_ofNat hn]

/-- The bytes of the lesser character come first, whatever comes behind them. -/
theorem encodeChar_append_lt {c d : Char} (h : c < d) (as bs : Bytes) :
    encodeChar c ++ as < encodeChar d ++ bs := by
  have hlt : c.toNat < d.toNat := h
  -- Of the sixteen pairs of widths, six have the wider character below the other.
  rcases encodeChar_widths c with ⟨hc, hcode⟩ | ⟨hc, hc', hcode⟩ | ⟨hc, hc', hcode⟩ | ⟨hc, hc', hcode⟩ <;>
    rcases encodeChar_widths d with ⟨hd, hdcode⟩ | ⟨hd, hd', hdcode⟩ | ⟨hd, hd', hdcode⟩ |
      ⟨hd, hd', hdcode⟩ <;>
    rw [hcode, hdcode] <;>
    simp (disch := omega) only [List.cons_append, List.nil_append, ofNat_cons_lt_iff] <;>
    omega

theorem flatMap_encodeChar_lt {cs ds : List Char} (h : cs < ds) :
    cs.flatMap encodeChar < ds.flatMap encodeChar := by
  induction h with
  | @nil d ds =>
    obtain ⟨b, bs, hd⟩ := List.exists_cons_of_ne_nil (encodeChar_ne_nil d)
    rw [List.flatMap_nil, List.flatMap_cons, hd]
    exact .nil
  | rel h => exact encodeChar_append_lt h _ _
  | cons _ ih => exact List.append_left_lt ih

/-- The order of texts is the order of their bytes. -/
theorem encode_lt_encode_iff {s t : String} : encode s < encode t ↔ s < t := by
  constructor
  · intro h
    rcases Std.lt_trichotomy s t with hst | rfl | hts
    · exact hst
    · exact absurd h (List.lt_irrefl _)
    · exact absurd (flatMap_encodeChar_lt hts) (List.lt_asymm h)
  · exact fun h => flatMap_encodeChar_lt h

/-- A character of four bytes comes behind one of three, however the two are told apart elsewhere. -/
example : "\uFFFD" < "😀" ∧ encode "\uFFFD" < encode "😀" := by decide

end RelayStore.Utf8
