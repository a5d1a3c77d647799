import RelayStore.Inbox
import RelayStore.Proofs.Line.Splitter
import RelayStore.Proofs.Text.Coding
import RelayStore.Proofs.Text.Words

/-! # Texts sent as lines

A text without newline that is sent as a line comes back as that text, save that returns
at its end are lost and that it may be blank or too long. A text with newlines comes as
so many pieces. Whatever the bytes are, no line that is read holds a newline or is blank.
-/
namespace RelayStore

def Text.dropReturns (s : String) : String :=
  .ofList (s.toList.rdropWhile (· == '\r'))

/-! ## Pieces of an encoded text -/

theorem newline_mem_encodeChar {c : Char} : newline ∈ Utf8.encodeChar c ↔ c = '\n' := by
  rw [Utf8.mem_encodeChar_ascii (by decide), ← Char.toNat_inj]
  rfl

theorem splitOn_append_of_not_mem {α : Type} [BEq α] [LawfulBEq α] {sep : α} {as : List α}
    (h : sep ∉ as) (bs : List α) : (as ++ bs).splitOn sep = (bs.splitOn sep).modifyHead (as ++ ·) := by
  obtain ⟨p, ps, hps⟩ := List.exists_cons_of_ne_nil (List.splitOn_ne_nil sep bs)
  induction as with
  | nil => simp [hps]
  | cons a as ih =>
    have ha : ¬ (a == sep) = true := fun he => h (by simp [eq_of_beq he])
    have has : sep ∉ as := fun hm => h (List.mem_cons_of_mem _ hm)
    rw [List.cons_append, List.splitOn_cons_eq_if_modifyHead, if_neg ha, ih has, hps]
    rfl

/-- Cutting the bytes of a text at newlines is cutting the text. -/
theorem splitOn_flatMap_encodeChar (cs : List Char) :
    (cs.flatMap Utf8.encodeChar).splitOn newline =
      (cs.splitOn '\n').map (·.flatMap Utf8.encodeChar) := by
  induction cs with
  | nil => rfl
  | cons c cs ih =>
    obtain ⟨p, ps, hps⟩ := List.exists_cons_of_ne_nil (List.splitOn_ne_nil '\n' cs)
    rw [List.flatMap_cons, List.splitOn_cons_eq_if_modifyHead]
    by_cases hc : c = '\n'
    · subst hc
      have hnl : Utf8.encodeChar '\n' = [newline] := rfl
      rw [hnl, List.singleton_append, splitOn_cons_newline, ih]
      rfl
    · have hnot : newline ∉ Utf8.encodeChar c := fun h => hc (newline_mem_encodeChar.mp h)
      rw [splitOn_append_of_not_mem hnot, ih, hps, if_neg (by simpa using hc)]
      simp

/-! ## What one piece stands for -/

theorem carriageReturn_mem_encodeChar {c : Char} :
    carriageReturn ∈ Utf8.encodeChar c ↔ c = '\r' := by
  rw [Utf8.mem_encodeChar_ascii (by decide), ← Char.toNat_inj]
  rfl

theorem stripReturns_eq (bs : Bytes) : stripReturns bs = bs.rdropWhile (· == carriageReturn) := rfl

theorem stripReturns_append (as : Bytes) {bs : Bytes} (hne : bs ≠ []) (h : carriageReturn ∉ bs) :
    stripReturns (as ++ bs) = as ++ bs := by
  rw [stripReturns_eq, List.rdropWhile_eq_self_iff]
  intro hs hlast
  rw [List.getLast_append_of_ne_nil hs hne] at hlast
  exact h (eq_of_beq hlast ▸ List.getLast_mem hne)

theorem Item.ofPiece?_of_stripped {piece : Bytes} (h : stripReturns piece = piece)
    (hblank : Text.isBlank (Utf8.decode piece) = false) :
    ofPiece? piece =
      some (if piece.length ≤ maxLine then .line (Utf8.decode piece) else .tooLong) := by
  unfold ofPiece?
  dsimp only
  rw [h, hblank]
  by_cases hfits : piece.length ≤ maxLine
  · rw [if_neg (by omega), if_pos hfits]
    rfl
  · rw [if_pos (by omega), if_neg hfits]

theorem stripReturns_flatMap_encodeChar (cs : List Char) :
    stripReturns (cs.flatMap Utf8.encodeChar) =
      (cs.rdropWhile (· == '\r')).flatMap Utf8.encodeChar := by
  rw [stripReturns_eq]
  induction cs using List.reverseRecOn with
  | nil => rfl
  | append_singleton cs c ih =>
    rw [List.flatMap_append, List.flatMap_singleton]
    by_cases hc : c = '\r'
    · subst hc
      have hcr : Utf8.encodeChar '\r' = [carriageReturn] := rfl
      rw [hcr, List.rdropWhile_concat_pos _ _ _ (by decide), ih,
        List.rdropWhile_concat_pos _ _ _ (by decide)]
    · rw [List.rdropWhile_concat_neg _ _ _ (by simpa using hc), List.flatMap_append,
        List.flatMap_singleton, List.rdropWhile_eq_self_iff]
      intro hne hlast
      have hmem := List.getLast_mem (Utf8.encodeChar_ne_nil c)
      rw [List.getLast_append_of_ne_nil hne (Utf8.encodeChar_ne_nil c)] at hlast
      rw [eq_of_beq hlast] at hmem
      exact hc (carriageReturn_mem_encodeChar.mp hmem)

theorem stripReturns_encode (s : String) :
    stripReturns (Utf8.encode s) = Utf8.encode (Text.dropReturns s) := by
  rw [Utf8.encode, stripReturns_flatMap_encodeChar, Text.dropReturns, Utf8.encode_ofList]

theorem Text.dropReturns_eq_self {s : String} (h : ∀ hs : s.toList ≠ [], s.toList.getLast hs ≠ '\r') :
    dropReturns s = s := by
  have hself : s.toList.rdropWhile (· == '\r') = s.toList := by
    rw [List.rdropWhile_eq_self_iff]
    intro hs hlast
    exact h hs (eq_of_beq hlast)
  rw [dropReturns, hself, String.ofList_toList]

/-- A trimmed text has no return at its end. -/
theorem Text.dropReturns_trim (s : String) : dropReturns (trim s) = trim s := by
  apply dropReturns_eq_self
  intro hs hlast
  have hne : stripWhite s.toList ≠ [] := by simpa [trim] using hs
  have hlast' : (stripWhite s.toList).getLast hne = '\r' := by simpa [trim] using hlast
  have hwhite := isWhite_getLast_stripWhite hne
  rw [hlast'] at hwhite
  exact absurd hwhite (by decide)

/-- The returns that are dropped are white. -/
theorem Text.dropReturns_append (s : String) :
    ∃ ws, (∀ c ∈ ws, isWhite c = true) ∧ (dropReturns s).toList ++ ws = s.toList := by
  refine ⟨s.toList.rtakeWhile (· == '\r'), ?_, ?_⟩
  · intro c hc
    have hr : c = '\r' := by simpa using List.mem_rtakeWhile_imp hc
    rw [hr]
    decide
  · rw [dropReturns, String.toList_ofList, List.rdropWhile_append_rtakeWhile]

theorem Text.tokens_dropReturns (s : String) : tokens (dropReturns s) = tokens s := by
  obtain ⟨ws, hws, happ⟩ := dropReturns_append s
  rw [tokens, tokens, ← happ, words_append_of_white _ hws]

theorem Text.trim_dropReturns (s : String) : trim (dropReturns s) = trim s := by
  obtain ⟨ws, hws, happ⟩ := dropReturns_append s
  rw [trim, trim, ← happ, stripWhite_append_of_white _ hws]

theorem Text.isBlank_dropReturns (s : String) : isBlank (dropReturns s) = isBlank s := by
  rw [Bool.eq_iff_iff, ← tokens_eq_nil_iff, ← tokens_eq_nil_iff, tokens_dropReturns]

def Item.ofText? (s : String) : Option Item :=
  if maxLine + 1 < Utf8.size s ∨ maxLine < Utf8.size (Text.dropReturns s) then some .tooLong
  else if Text.isBlank s then none
  else some (.line (Text.dropReturns s))

theorem ofPiece?_encode (s : String) : Item.ofPiece? (Utf8.encode s) = Item.ofText? s := by
  unfold Item.ofPiece?
  dsimp only
  rw [stripReturns_encode, Utf8.decode_encode, Text.isBlank_dropReturns]
  rfl

theorem Text.IsSpaced.dropReturns_eq {s : String} (h : IsSpaced s) : dropReturns s = s := by
  apply dropReturns_eq_self
  intro hs hlast
  exact h.return_not_mem (hlast ▸ List.getLast_mem hs)

/-- The text is not too long for a line, with its returns and without. -/
def Text.FitsLine (s : String) : Prop :=
  Utf8.size s ≤ 65537 ∧ Utf8.size (dropReturns s) ≤ 65536

instance (s : String) : Decidable (Text.FitsLine s) :=
  inferInstanceAs (Decidable (_ ∧ _))

theorem Text.IsSpaced.fitsLine_iff {s : String} (h : IsSpaced s) : FitsLine s ↔ Utf8.size s ≤ maxLine := by
  rw [FitsLine, h.dropReturns_eq]
  unfold maxLine
  omega

theorem Item.ofText?_of_not_isBlank {s : String} (h : Text.isBlank s = false) :
    ofText? s = some (if Text.FitsLine s then .line (Text.dropReturns s) else .tooLong) := by
  have hlong : maxLine + 1 < Utf8.size s ∨ maxLine < Utf8.size (Text.dropReturns s) ↔
      ¬ Text.FitsLine s := by
    unfold Text.FitsLine maxLine
    omega
  rw [ofText?, h]
  by_cases hfits : Text.FitsLine s
  · rw [if_neg (by rwa [hlong, not_not]), if_pos hfits]
    rfl
  · rw [if_pos (hlong.mpr hfits), if_neg hfits]

theorem Item.ofText?_of_isSpaced {s : String} (h : Text.IsSpaced s) (hblank : Text.isBlank s = false) :
    ofText? s = some (if Utf8.size s ≤ maxLine then .line s else .tooLong) := by
  rw [ofText?_of_not_isBlank hblank, h.dropReturns_eq]
  simp only [h.fitsLine_iff]

/-! ## What a sent text stands for -/

def Text.pieces (s : String) : List String :=
  (s.toList.splitOn '\n').map String.ofList

theorem Text.pieces_of_not_mem {s : String} (h : '\n' ∉ s.toList) : pieces s = [s] := by
  rw [pieces, List.splitOn_eq_singleton h, List.map_singleton, String.ofList_toList]

theorem splitOn_encode (s : String) :
    (Utf8.encode s).splitOn newline = (Text.pieces s).map Utf8.encode := by
  rw [Utf8.encode, splitOn_flatMap_encodeChar, Text.pieces, List.map_map]
  simp only [Function.comp_def, Utf8.encode_ofList]

theorem splitOn_sentLine (s : String) :
    (sentLine s).splitOn newline = (Text.pieces s).map Utf8.encode ++ [[]] := by
  rw [sentLine, List.splitOn_append_cons_self, splitOn_encode]
  rfl

theorem splitItems_sentLine (s : String) (ending : Ending) :
    (splitItems (sentLine s) ending).1 = (Text.pieces s).filterMap Item.ofText? := by
  have hmap : ((Text.pieces s).map Utf8.encode).filterMap Item.ofPiece? =
      (Text.pieces s).filterMap Item.ofText? := by
    have hfun : Item.ofPiece? ∘ Utf8.encode = Item.ofText? := funext ofPiece?_encode
    rw [List.filterMap_map, hfun]
  cases ending with
  | closed => simp [splitItems, splitOn_sentLine, hmap]
  | failing fault => simp [splitItems, splitOn_sentLine, hmap]
  | idle => simp [splitItems, splitOn_sentLine, hmap]

theorem Source.items_of_sentLine (src : Source) {s : String} (hbytes : src.bytes = sentLine s)
    (h : src.ending ≠ .failing .interrupted) :
    src.items.1 = (Text.pieces s).filterMap Item.ofText? := by
  rw [src.items_eq h, hbytes, splitItems_sentLine]

theorem Source.items_of_isSpaced (src : Source) {s : String} (hbytes : src.bytes = sentLine s)
    (h : src.ending ≠ .failing .interrupted) (hs : Text.IsSpaced s) (hblank : Text.isBlank s = false) :
    src.items.1 = [if Utf8.size s ≤ maxLine then .line s else .tooLong] := by
  rw [src.items_of_sentLine hbytes h, Text.pieces_of_not_mem hs.newline_not_mem, List.filterMap_cons,
    Item.ofText?_of_isSpaced hs hblank]
  rfl

end RelayStore
