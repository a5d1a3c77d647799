import Mathlib.Data.List.DropRight
import RelayStore.Text.Token

/-! # Words of joined and trimmed texts

A white character anywhere in a text splits its words into those before it and those
behind it. Everything else about words follows from that and from the words of a text
without white space, which is its own only word.
-/
namespace RelayStore.Text

theorem split_append_white {c : Char} (h : isWhite c = true) (as bs : List Char) :
    split (as ++ c :: bs) = ((split as).1, (split as).2 ++ words bs) := by
  induction as with
  | nil => simp [splitStep, h, split, words]
  | cons a as ih =>
    rw [List.cons_append, split_cons, split_cons, ih]
    by_cases ha : isWhite a = true
    · cases hs : (split as).1 <;> simp [splitStep, ha, Split.runs, hs]
    · simp [splitStep, ha]

theorem words_append_white {c : Char} (h : isWhite c = true) (as bs : List Char) :
    words (as ++ c :: bs) = words as ++ words bs := by
  unfold words
  rw [split_append_white h]
  cases hs : (split as).1 <;> simp [Split.runs, hs, words]

theorem words_append_of_white (as : List Char) {ws : List Char} (h : ∀ c ∈ ws, isWhite c = true) :
    words (as ++ ws) = words as := by
  induction ws generalizing as with
  | nil => simp
  | cons c ws ih =>
    obtain ⟨hc, hws⟩ := List.forall_mem_cons.mp h
    have hnil : words ws = [] := by simpa using ih [] hws
    rw [words_append_white hc, hnil, List.append_nil]

theorem split_token {cs : List Char} (h : ∀ c ∈ cs, isWhite c = false) : split cs = (cs, []) := by
  induction cs with
  | nil => rfl
  | cons c cs ih =>
    obtain ⟨hc, hcs⟩ := List.forall_mem_cons.mp h
    simp [split_cons, splitStep, hc, ih hcs]

theorem words_token {cs : List Char} (hne : cs ≠ []) (h : ∀ c ∈ cs, isWhite c = false) :
    words cs = [cs] := by
  simp [words, split_token h, Split.runs, hne]

/-- A split never holds white space, and its finished runs are not empty. -/
theorem split_spec (cs : List Char) :
    (∀ c ∈ (split cs).1, isWhite c = false) ∧
      ∀ w ∈ (split cs).2, w ≠ [] ∧ ∀ c ∈ w, isWhite c = false := by
  induction cs with
  | nil => simp [split]
  | cons c cs ih =>
    obtain ⟨hfirst, hrest⟩ := ih
    rw [split_cons]
    by_cases hc : isWhite c = true
    · refine ⟨by simp [splitStep, hc], ?_⟩
      intro w hw
      by_cases he : (split cs).1 = []
      · exact hrest w (by simpa [splitStep, hc, Split.runs, he] using hw)
      · have hw' : w = (split cs).1 ∨ w ∈ (split cs).2 := by
          simpa [splitStep, hc, Split.runs, he] using hw
        rcases hw' with rfl | hw'
        · exact ⟨he, hfirst⟩
        · exact hrest w hw'
    · simp only [Bool.not_eq_true] at hc
      simp only [splitStep, hc]
      exact ⟨List.forall_mem_cons.mpr ⟨hc, hfirst⟩, hrest⟩

theorem mem_words {cs w : List Char} (hw : w ∈ words cs) :
    w ≠ [] ∧ ∀ c ∈ w, isWhite c = false := by
  obtain ⟨hfirst, hrest⟩ := split_spec cs
  by_cases he : (split cs).1 = []
  · exact hrest w (by simpa [words, Split.runs, he] using hw)
  · have hw' : w = (split cs).1 ∨ w ∈ (split cs).2 := by
      simpa [words, Split.runs, he] using hw
    rcases hw' with rfl | hw'
    · exact ⟨he, hfirst⟩
    · exact hrest w hw'

theorem words_eq_nil_iff {cs : List Char} : words cs = [] ↔ ∀ c ∈ cs, isWhite c = true := by
  constructor
  · intro h
    induction cs with
    | nil => simp
    | cons c cs ih =>
      by_cases hc : isWhite c = true
      · exact List.forall_mem_cons.mpr ⟨hc, ih (by rw [← words_cons_white hc, h])⟩
      · simp [words, split_cons, splitStep, hc, Split.runs] at h
  · intro h
    simpa using words_append_of_white [] h

/-! ## Trimming -/

theorem words_dropWhile (cs : List Char) : words (cs.dropWhile isWhite) = words cs := by
  induction cs with
  | nil => rfl
  | cons c cs ih =>
    by_cases hc : isWhite c = true
    · rw [List.dropWhile_cons_of_pos hc, ih, words_cons_white hc]
    · rw [List.dropWhile_cons_of_neg hc]

theorem stripWhite_eq (cs : List Char) :
    stripWhite cs = (cs.dropWhile isWhite).rdropWhile isWhite := rfl

theorem words_stripWhite (cs : List Char) : words (stripWhite cs) = words cs := by
  have hend : ∀ c ∈ (cs.dropWhile isWhite).rtakeWhile isWhite, isWhite c = true :=
    fun c hc => List.mem_rtakeWhile_imp hc
  rw [stripWhite_eq, ← words_append_of_white _ hend, List.rdropWhile_append_rtakeWhile]
  exact words_dropWhile cs

theorem mem_of_mem_stripWhite {cs : List Char} {c : Char} (h : c ∈ stripWhite cs) : c ∈ cs :=
  (List.dropWhile_sublist isWhite).subset ((List.rdropWhile_prefix isWhite _).subset h)

/-- A trimmed text ends in a character that is not white, if it has one. -/
theorem isWhite_getLast_stripWhite {cs : List Char} (h : stripWhite cs ≠ []) :
    isWhite ((stripWhite cs).getLast h) = false :=
  Bool.eq_false_iff.mpr (List.rdropWhile_last_not isWhite (cs.dropWhile isWhite) h)

theorem stripWhite_eq_self {cs : List Char} (hhead : ∀ c ∈ cs.head?, isWhite c = false)
    (hlast : ∀ c ∈ cs.getLast?, isWhite c = false) : stripWhite cs = cs := by
  have hdrop : cs.dropWhile isWhite = cs := by
    cases cs with
    | nil => rfl
    | cons c cs => rw [List.dropWhile_cons_of_neg (by simpa using hhead c rfl)]
  rw [stripWhite_eq, hdrop, List.rdropWhile_eq_self_iff]
  intro hne
  simpa using hlast _ (List.getLast?_eq_getLast_of_ne_nil hne)

theorem stripWhite_append_of_white (cs : List Char) {ws : List Char}
    (h : ∀ c ∈ ws, isWhite c = true) : stripWhite (cs ++ ws) = stripWhite cs := by
  have hend (bs : List Char) : (bs ++ ws).rdropWhile isWhite = bs.rdropWhile isWhite := by
    induction ws using List.reverseRecOn with
    | nil => rw [List.append_nil]
    | append_singleton ws c ih =>
      rw [← List.append_assoc, List.rdropWhile_concat_pos _ _ _ (h c (by simp)),
        ih fun a ha => h a (List.mem_append_left _ ha)]
  have hwhite : ws.dropWhile isWhite = [] := List.dropWhile_eq_nil_iff.mpr h
  rw [stripWhite_eq, stripWhite_eq, List.dropWhile_append]
  split
  · next hempty => rw [hwhite, List.isEmpty_iff.mp hempty]
  · exact hend _

/-! ## Tokens -/

theorem isToken_of_mem_tokens {s t : String} (h : t ∈ tokens s) : IsToken t := by
  obtain ⟨w, hw, rfl⟩ := List.mem_map.mp h
  obtain ⟨hne, hcs⟩ := mem_words hw
  refine ⟨fun he => hne ?_, by simpa using hcs⟩
  simpa using congrArg String.toList he

theorem tokens_eq_nil_iff {s : String} : tokens s = [] ↔ isBlank s = true := by
  simp [tokens, isBlank, words_eq_nil_iff]

theorem isBlank_of_tokens {s t : String} {ts : List String} (h : tokens s = t :: ts) :
    isBlank s = false := by
  rw [Bool.eq_false_iff, Ne, ← tokens_eq_nil_iff, h]
  exact List.cons_ne_nil t ts

theorem tokens_trim (s : String) : tokens (trim s) = tokens s := by
  simp [tokens, trim, words_stripWhite]

theorem isBlank_trim (s : String) : isBlank (trim s) = isBlank s := by
  rw [Bool.eq_iff_iff, ← tokens_eq_nil_iff, ← tokens_eq_nil_iff, tokens_trim]

theorem trim_of_isBlank {s : String} (h : isBlank s = true) : trim s = "" := by
  have hwhite : ∀ c ∈ s.toList, isWhite c = true := by simpa [isBlank] using h
  exact congrArg String.ofList (stripWhite_append_of_white [] hwhite)

theorem tokens_spaced (s t : String) : tokens (s ++ " " ++ t) = tokens s ++ tokens t := by
  have h : (s ++ " " ++ t).toList = s.toList ++ ' ' :: t.toList := by simp
  rw [tokens, h, words_append_white (by decide), List.map_append]
  rfl

theorem isToken_replicate {c : Char} (hc : isWhite c = false) {n : Nat} (hn : 0 < n) :
    IsToken (.ofList (List.replicate n c)) := by
  constructor
  · intro he
    have hlength := congrArg (fun s => s.toList.length) he
    simp at hlength
    omega
  · intro a ha
    rw [String.toList_ofList] at ha
    rw [(List.mem_replicate.mp ha).2]
    exact hc

theorem tokens_of_isToken {s : String} (h : IsToken s) : tokens s = [s] := by
  have hne : s.toList ≠ [] := fun he => h.1 (by simpa using congrArg String.ofList he)
  simp [tokens, words_token hne h.2]

/-! ## Spaced texts -/

/-- A text whose only white character is the space. -/
def IsSpaced (s : String) : Prop :=
  ∀ c ∈ s.toList, isWhite c = true → c = ' '

instance (s : String) : Decidable (IsSpaced s) :=
  decidable_of_iff ((s.toList.all fun c => !isWhite c || c == ' ') = true) (by
    simp only [List.all_eq_true, Bool.or_eq_true, Bool.not_eq_true', beq_iff_eq, IsSpaced,
      Bool.eq_false_iff, ← imp_iff_not_or])

theorem IsToken.isSpaced {s : String} (h : IsToken s) : IsSpaced s := by
  intro c hc hwhite
  rw [h.2 c hc] at hwhite
  cases hwhite

theorem IsSpaced.append {s t : String} (hs : IsSpaced s) (ht : IsSpaced t) : IsSpaced (s ++ t) := by
  intro c hc
  rw [String.toList_append, List.mem_append] at hc
  exact hc.elim (hs c) (ht c)

theorem IsSpaced.newline_not_mem {s : String} (h : IsSpaced s) : '\n' ∉ s.toList := by
  intro hm
  exact absurd (h '\n' hm (by decide)) (by decide)

theorem IsSpaced.return_not_mem {s : String} (h : IsSpaced s) : '\r' ∉ s.toList := by
  intro hm
  exact absurd (h '\r' hm (by decide)) (by decide)

theorem isBlank_of_isToken {s : String} (h : IsToken s) : isBlank s = false :=
  isBlank_of_tokens (tokens_of_isToken h)

end RelayStore.Text
