import Mathlib.Data.List.Forall2
import RelayStore.Proofs.Text.Words

/-! # How texts spell words and tokens

A word may be typed in any case of its ASCII letters. No other character stands for a letter,
however alike the two look. A text consists of tokens if white space stands between any two
of them and perhaps at the ends; each text consists of exactly one list of tokens.
-/
namespace RelayStore.Text

/-! ## Words in any case -/

def IsCapitalOf (a b : Char) : Prop :=
  'A'.toNat ≤ a.toNat ∧ a.toNat ≤ 'Z'.toNat ∧ b.toNat = a.toNat + 0x20

/-- The same character, or the two cases of an ASCII letter. -/
def SameLetter (a b : Char) : Prop :=
  a = b ∨ IsCapitalOf a b ∨ IsCapitalOf b a

def IsVariant (word s : String) : Prop :=
  List.Forall₂ SameLetter word.toList s.toList

theorem toNat_toUpper (c : Char) :
    c.toUpper.toNat = if 'a'.toNat ≤ c.toNat ∧ c.toNat ≤ 'z'.toNat then c.toNat - 0x20 else c.toNat := by
  have hbounds : ('a'.val ≤ c.val ∧ c.val ≤ 'z'.val) ↔ 'a'.toNat ≤ c.toNat ∧ c.toNat ≤ 'z'.toNat :=
    and_congr UInt32.le_iff_toNat_le UInt32.le_iff_toNat_le
  unfold Char.toUpper
  by_cases h : 'a'.toNat ≤ c.toNat ∧ c.toNat ≤ 'z'.toNat
  · rw [dif_pos (hbounds.mpr h), if_pos h]
    have hadd : (c.val + ('A'.val - 'a'.val)).toNat = (c.val.toNat + (2 ^ 32 - 0x20)) % 2 ^ 32 :=
      UInt32.toNat_add c.val _
    change (c.val + ('A'.val - 'a'.val)).toNat = c.val.toNat - 0x20
    change 97 ≤ c.val.toNat ∧ c.val.toNat ≤ 122 at h
    omega
  · rw [dif_neg (mt hbounds.mp h), if_neg h]

theorem toUpper_eq_toUpper_iff {a b : Char} : a.toUpper = b.toUpper ↔ SameLetter a b := by
  have hA : 'A'.toNat = 65 := rfl
  have hZ : 'Z'.toNat = 90 := rfl
  have ha : 'a'.toNat = 97 := rfl
  have hz : 'z'.toNat = 122 := rfl
  rw [SameLetter, IsCapitalOf, IsCapitalOf, ← Char.toNat_inj, ← Char.toNat_inj, toNat_toUpper,
    toNat_toUpper, hA, hZ, ha, hz]
  split <;> split <;> omega

theorem isVariant_iff_upper {word s : String} : IsVariant word s ↔ upper s = upper word := by
  have hmap : upper s = upper word ↔ word.toList.map Char.toUpper = s.toList.map Char.toUpper := by
    rw [upper, upper, String.ofList_inj, eq_comm]
  rw [hmap, ← List.forall₂_eq_eq_eq, List.forall₂_map_left_iff, List.forall₂_map_right_iff]
  simp only [toUpper_eq_toUpper_iff]
  rfl

instance (word s : String) : Decidable (IsVariant word s) :=
  decidable_of_iff _ isVariant_iff_upper.symm

/-- A capital word has exactly those variants that are the word in upper case. -/
theorem isVariant_iff {word s : String} (h : upper word = word) : IsVariant word s ↔ upper s = word := by
  rw [isVariant_iff_upper, h]

theorem isWhite_eq_false_of_sameLetter {a b : Char} (h : SameLetter a b) (ha : isWhite a = false) :
    isWhite b = false := by
  have hletter (c : Char) (hlow : 'A'.toNat ≤ c.toNat) (hhigh : c.toNat ≤ 'z'.toNat) : isWhite c = false := by
    have hA : 'A'.toNat = 65 := rfl
    have hz : 'z'.toNat = 122 := rfl
    simp [isWhite, whiteRanges]
    omega
  have hbound : 'Z'.toNat + 0x20 = 'z'.toNat := rfl
  have hZ : 'Z'.toNat ≤ 'z'.toNat := by decide
  rcases h with rfl | ⟨hlow, hhigh, hb⟩ | ⟨hlow, hhigh, -⟩
  · exact ha
  · exact hletter b (by omega) (by omega)
  · exact hletter b hlow (by omega)

theorem IsVariant.isToken {word s : String} (h : IsVariant word s) (hword : IsToken word) : IsToken s := by
  obtain ⟨hne, hwhite⟩ := hword
  refine ⟨?_, ?_⟩
  · rintro rfl
    exact hne (by simpa using h.length_eq)
  · unfold IsVariant at h
    generalize word.toList = as at h hwhite
    generalize s.toList = bs at h ⊢
    induction h with
    | nil => simp
    | cons hab _ ih =>
      obtain ⟨ha, has⟩ := List.forall_mem_cons.mp hwhite
      exact List.forall_mem_cons.mpr ⟨isWhite_eq_false_of_sameLetter hab ha, ih has⟩

/-! ## Texts of tokens -/

inductive Gapped : List String → String → Prop
  | nil : Gapped [] ""
  | cons {gap t s : String} {ts : List String} (hne : gap ≠ "") (hgap : isBlank gap = true)
    (ht : IsToken t) (hs : Gapped ts s) : Gapped (t :: ts) (gap ++ t ++ s)

/-- A text that consists of these tokens: white space stands between any two of them and
perhaps at the ends. -/
def ConsistsOf (s : String) : List String → Prop
  | [] => isBlank s = true
  | t :: ts => ∃ lead rest trail, s = lead ++ t ++ rest ++ trail ∧ isBlank lead = true ∧ IsToken t ∧
      Gapped ts rest ∧ isBlank trail = true

theorem isBlank_iff {s : String} : isBlank s = true ↔ ∀ c ∈ s.toList, isWhite c = true := by
  simp [isBlank]

theorem isBlank_append {s t : String} (hs : isBlank s = true) (ht : isBlank t = true) :
    isBlank (s ++ t) = true := by
  simpa [isBlank] using And.intro (by simpa [isBlank] using hs) (by simpa [isBlank] using ht)

theorem ofList_cons (c : Char) (cs : List Char) :
    String.ofList (c :: cs) = String.ofList [c] ++ String.ofList cs :=
  @String.ofList_append [c] cs

/-! ### From the text to its tokens -/

theorem tokens_blank_append {gap : String} (h : isBlank gap = true) (s : String) :
    tokens (gap ++ s) = tokens s := by
  have hwords (ws cs : List Char) (hws : ∀ c ∈ ws, isWhite c = true) : words (ws ++ cs) = words cs := by
    induction ws with
    | nil => rfl
    | cons c ws ih =>
      obtain ⟨hc, hws⟩ := List.forall_mem_cons.mp hws
      exact (words_cons_white hc (ws ++ cs)).trans (ih hws)
  simp only [tokens, String.toList_append, hwords _ _ (isBlank_iff.mp h)]

/-- White space ends a token. -/
theorem tokens_append_gap {gap : String} (hne : gap ≠ "") (h : isBlank gap = true) (s t : String) :
    tokens (s ++ gap ++ t) = tokens s ++ tokens t := by
  obtain ⟨c, cs, hcs⟩ : ∃ c cs, gap.toList = c :: cs :=
    List.exists_cons_of_ne_nil fun he => hne (by simpa using congrArg String.ofList he)
  obtain ⟨hc, hrest⟩ := List.forall_mem_cons.mp (hcs ▸ isBlank_iff.mp h)
  have hblank : isBlank (String.ofList cs) = true := isBlank_iff.mpr (by simpa using hrest)
  have hlist : (s ++ gap ++ t).toList = s.toList ++ c :: (String.ofList cs ++ t).toList := by
    simp [hcs]
  have htail : (words (String.ofList cs ++ t).toList).map String.ofList = tokens t :=
    tokens_blank_append hblank t
  calc tokens (s ++ gap ++ t) = (words s.toList ++ words (String.ofList cs ++ t).toList).map String.ofList := by
        rw [tokens, hlist, words_append_white hc]
    _ = (words s.toList).map String.ofList ++ tokens t := by rw [List.map_append, htail]

theorem Gapped.tokens_eq {ts : List String} {s trail : String} (h : Gapped ts s)
    (htrail : isBlank trail = true) {t : String} (ht : IsToken t) : tokens (t ++ s ++ trail) = t :: ts := by
  induction h generalizing t with
  | nil =>
    have hend : tokens (t ++ trail) = tokens t := by
      simp only [tokens, String.toList_append, words_append_of_white _ (isBlank_iff.mp htrail)]
    simpa only [String.append_empty] using hend.trans (tokens_of_isToken ht)
  | @cons gap t' s ts hne hgap ht' _ ih =>
    have hassoc : t ++ (gap ++ t' ++ s) ++ trail = t ++ gap ++ (t' ++ s ++ trail) := by
      simp only [String.append_assoc]
    rw [hassoc, tokens_append_gap hne hgap, tokens_of_isToken ht, ih ht', List.singleton_append]

/-! ### From the tokens to the text -/

theorem Gapped.consistsOf {ts : List String} {s trail : String} (h : Gapped ts s)
    (htrail : isBlank trail = true) : ConsistsOf (s ++ trail) ts := by
  cases h with
  | nil => simpa only [ConsistsOf, String.empty_append] using htrail
  | @cons gap t s ts _ hgap ht hs => exact ⟨gap, s, trail, rfl, hgap, ht, hs, htrail⟩

theorem isToken_run {cs : List Char} (h : (split cs).1 ≠ []) : IsToken (String.ofList (split cs).1) :=
  ⟨fun he => h (by simpa using congrArg String.toList he), by simpa using (split_spec cs).1⟩

/-- Every list of characters is the first run of its split, then the other runs, each with white
space in front, and perhaps white space at the end. -/
theorem exists_gapped (cs : List Char) :
    ∃ s trail, String.ofList cs = String.ofList (split cs).1 ++ s ++ trail ∧
      Gapped ((split cs).2.map String.ofList) s ∧ isBlank trail = true := by
  induction cs with
  | nil => exact ⟨"", "", rfl, .nil, rfl⟩
  | cons c cs ih =>
    obtain ⟨s, trail, hcs, hs, htrail⟩ := ih
    by_cases hc : isWhite c = true
    · have hgap : isBlank (String.ofList [c]) = true := isBlank_iff.mpr (by simpa using hc)
      have hne (t : String) : String.ofList [c] ++ t ≠ "" := fun he => by
        simpa using congrArg String.toList he
      simp only [split_cons, splitStep, hc, if_true]
      rw [ofList_cons, hcs]
      by_cases hfirst : (split cs).1 = []
      · -- The white space goes to the gap in front of the next run, or else to the end.
        have hruns : (split cs).runs = (split cs).2 := by simp [Split.runs, hfirst]
        rw [hruns, hfirst]
        generalize (split cs).2.map String.ofList = ts at hs ⊢
        cases hs with
        | nil => exact ⟨"", String.ofList [c] ++ trail, by simp, .nil, isBlank_append hgap htrail⟩
        | @cons gap t s ts _ hgap' ht hs =>
          exact ⟨String.ofList [c] ++ gap ++ t ++ s, trail, by simp [String.append_assoc],
            .cons (hne gap) (isBlank_append hgap hgap') ht hs, htrail⟩
      · have hruns : (split cs).runs = (split cs).1 :: (split cs).2 := by simp [Split.runs, hfirst]
        have hone : String.ofList [c] ≠ "" := by simp
        rw [hruns]
        exact ⟨_, trail, by simp [String.append_assoc], .cons hone hgap (isToken_run hfirst) hs, htrail⟩
    · simp only [split_cons, splitStep, hc, Bool.false_eq_true, if_false]
      rw [ofList_cons c cs, ofList_cons c (split cs).1, hcs]
      exact ⟨s, trail, by simp only [String.append_assoc], hs, htrail⟩

/-- The tokens of a text are the only list of tokens that it consists of. -/
theorem consistsOf_iff {s : String} {ts : List String} : ConsistsOf s ts ↔ tokens s = ts := by
  constructor
  · intro h
    cases ts with
    | nil => exact tokens_eq_nil_iff.mpr h
    | cons t ts =>
      obtain ⟨lead, rest, trail, rfl, hlead, ht, hrest, htrail⟩ := h
      have hassoc : lead ++ t ++ rest ++ trail = lead ++ (t ++ rest ++ trail) := by
        simp only [String.append_assoc]
      rw [hassoc, tokens_blank_append hlead, hrest.tokens_eq htrail ht]
  · rintro rfl
    obtain ⟨rest, trail, hs, hrest, htrail⟩ := exists_gapped s.toList
    rw [String.ofList_toList] at hs
    rw [tokens, words, Split.runs]
    by_cases hfirst : (split s.toList).1 = []
    · have hspaced : s = rest ++ trail := by simpa [hfirst] using hs
      simp only [hfirst, List.isEmpty_nil, if_true]
      exact hspaced ▸ hrest.consistsOf htrail
    · simp only [List.isEmpty_iff, hfirst, if_false, List.map_cons]
      exact ⟨"", rest, trail, by simpa using hs, rfl, isToken_run hfirst, hrest, htrail⟩

end RelayStore.Text
