import RelayStore.Proofs.Text.Coding
import RelayStore.Proofs.Text.Words

/-! # Texts cut short

When only the first bytes of a text have come, a beginning of it is read, with a replacement
behind it if they end within a character. All its words but the last are words of the text.
There are no more of them than there were, unless the bytes end within a white character.
-/
namespace RelayStore.Text
open Utf8

def cut (s : String) (n : Nat) : String :=
  decode ((encode s).take n)

/-! ## Whole characters and a piece of one -/

theorem take_flatMap_encodeChar (cs : List Char) (n : Nat) :
    ∃ as bs rest, cs = as ++ bs ∧ (cs.flatMap encodeChar).take n = as.flatMap encodeChar ++ rest ∧
      (rest = [] ∨ ∃ c ∈ bs.head?, ∃ k, 0 < k ∧ k < (encodeChar c).length ∧
        n = (as.flatMap encodeChar).length + k ∧ rest = (encodeChar c).take k) := by
  induction cs generalizing n with
  | nil => exact ⟨[], [], [], rfl, by simp, .inl rfl⟩
  | cons c cs ih =>
    rw [List.flatMap_cons]
    by_cases hlong : (encodeChar c).length ≤ n
    · obtain ⟨as, bs, rest, hcs, htake, hrest⟩ := ih (n - (encodeChar c).length)
      refine ⟨c :: as, bs, rest, by rw [hcs, List.cons_append], ?_, hrest.imp_right ?_⟩
      · rw [List.take_append, List.take_of_length_le hlong, htake, List.flatMap_cons, List.append_assoc]
      · rintro ⟨d, hd, k, hpos, hk, hn, htail⟩
        refine ⟨d, hd, k, hpos, hk, ?_, htail⟩
        rw [List.flatMap_cons, List.length_append]
        omega
    · have htake : (encodeChar c ++ cs.flatMap encodeChar).take n = (encodeChar c).take n :=
        List.take_append_of_le_length (by omega)
      refine ⟨[], c :: cs, (encodeChar c).take n, rfl, by rw [htake]; rfl, ?_⟩
      by_cases hzero : n = 0
      · exact .inl (by rw [hzero, List.take_zero])
      · exact .inr ⟨c, rfl, n, by omega, by omega, (Nat.zero_add n).symm, rfl⟩

theorem decode_flatMap_take (as : List Char) (c : Char) {k : Nat} (hpos : 0 < k)
    (hk : k < (encodeChar c).length) :
    decode (as.flatMap encodeChar ++ (encodeChar c).take k) = .ofList (as ++ [replacement]) := by
  obtain ⟨q, hq⟩ := foldl_push_take_encodeChar (as.reverse ++ []) c hpos hk
  rw [decode, List.foldl_append, foldl_push_encode, hq]
  simp [Decoder.finish]

/-- The bytes of a cut text are those of a beginning, or of a beginning and a part of the next
character, which has several. -/
theorem cut_cases (s : String) (n : Nat) :
    ∃ as bs, s.toList = as ++ bs ∧
      ((encode s).take n = as.flatMap encodeChar ∧ cut s n = .ofList as ∨
        ∃ c ∈ bs.head?, ∃ k, 0 < k ∧ k < (encodeChar c).length ∧ n = size (.ofList as) + k ∧
          (encode s).take n = as.flatMap encodeChar ++ (encodeChar c).take k ∧
          cut s n = .ofList (as ++ [replacement])) := by
  obtain ⟨as, bs, rest, hs, htake, rfl | ⟨c, hc, k, hpos, hk, hn, rfl⟩⟩ :=
    take_flatMap_encodeChar s.toList n
  · rw [List.append_nil] at htake
    refine ⟨as, bs, hs, .inl ⟨htake, ?_⟩⟩
    rw [cut, encode, htake, ← encode_ofList, decode_encode]
  · refine ⟨as, bs, hs, .inr ⟨c, hc, k, hpos, hk, ?_, htake, ?_⟩⟩
    · rw [size, encode_ofList, hn]
    · rw [cut, encode, htake, decode_flatMap_take as c hpos hk]

theorem cut_of_size_le {s : String} {n : Nat} (h : size s ≤ n) : cut s n = s := by
  rw [cut, List.take_of_length_le h, decode_encode]

theorem isToken_cut {s : String} (hs : IsToken s) {n : Nat} (hn : 0 < n) : IsToken (cut s n) := by
  have hnil : (encode s).take n ≠ [] := by
    have hsize := size_pos hs.1
    intro he
    rcases List.take_eq_nil_iff.mp he with hzero | hempty
    · omega
    · rw [size, hempty] at hsize
      exact absurd hsize (by decide)
  obtain ⟨as, bs, hsplit, hcut⟩ := cut_cases s n
  have has : ∀ c ∈ as, isWhite c = false := fun c hc => hs.2 c (hsplit ▸ List.mem_append_left _ hc)
  rcases hcut with ⟨htake, hcut⟩ | ⟨c, -, k, -, -, -, -, hcut⟩
  · rw [hcut]
    refine ⟨fun he => hnil ?_, by rwa [String.toList_ofList]⟩
    have hempty : as = [] := by simpa using congrArg String.toList he
    rw [htake, hempty, List.flatMap_nil]
  · rw [hcut]
    refine ⟨fun he => ?_, ?_⟩
    · simpa using congrArg String.toList he
    · rw [String.toList_ofList]
      intro a ha
      rcases List.mem_append.mp ha with ha | ha
      · exact has a ha
      · rw [List.mem_singleton.mp ha]
        decide

/-! ## Words up to the cut -/

theorem words_append_of_getLast? {cs : List Char} (h : ∀ c ∈ cs.getLast?, isWhite c = true)
    (ds : List Char) : words (cs ++ ds) = words cs ++ words ds := by
  rcases List.eq_nil_or_concat cs with rfl | ⟨bs, c, rfl⟩
  · rfl
  · rw [List.concat_eq_append] at h ⊢
    have hc : isWhite c = true := h c List.getLast?_concat
    have hsingle : ∀ a ∈ [c], isWhite a = true := fun a ha => List.mem_singleton.mp ha ▸ hc
    rw [List.append_assoc, List.singleton_append, words_append_white hc,
      words_append_of_white bs hsingle]

/-- The end of a text that is not white yet, and what is before it. -/
theorem exists_run (cs : List Char) :
    ∃ before run, cs = before ++ run ∧ (∀ c ∈ before.getLast?, isWhite c = true) ∧
      ∀ c ∈ run, isWhite c = false := by
  refine ⟨cs.rdropWhile fun c => !isWhite c, cs.rtakeWhile fun c => !isWhite c,
    (List.rdropWhile_append_rtakeWhile ..).symm, ?_, ?_⟩
  · intro c hc
    obtain ⟨hne, hlast⟩ := List.mem_getLast?_eq_getLast hc
    have hnot := List.rdropWhile_last_not (fun c => !isWhite c) cs hne
    rw [← hlast] at hnot
    simpa using hnot
  · intro c hc
    simpa using List.mem_rtakeWhile_imp hc

theorem words_run {run : List Char} (h : ∀ c ∈ run, isWhite c = false) :
    words run = if run = [] then [] else [run] := by
  by_cases hnil : run = []
  · rw [if_pos hnil, hnil, words_nil]
  · rw [if_neg hnil, words_token hnil h]

/-- If another end without white space comes behind a beginning, all words but the last stay.
There is one word more only where the old end had none, and then that is the new end. -/
theorem words_change_end (as bs : List Char) {us : List Char} (hus : ∀ c ∈ us, isWhite c = false) :
    (words (as ++ us)).dropLast <+: words (as ++ bs) ∧
      ((words (as ++ us)).length ≤ (words (as ++ bs)).length ∨
        words (as ++ us) = words (as ++ bs) ++ [us] ∧ ∀ c ∈ bs, isWhite c = true) := by
  obtain ⟨before, run, rfl, hbefore, hrun⟩ := exists_run as
  have hnew : ∀ c ∈ run ++ us, isWhite c = false := fun c hc =>
    (List.mem_append.mp hc).elim (hrun c) (hus c)
  rw [List.append_assoc, List.append_assoc, words_append_of_getLast? hbefore,
    words_append_of_getLast? hbefore, words_run hnew]
  by_cases hnil : run ++ us = []
  · rw [if_pos hnil, List.append_nil]
    refine ⟨(List.dropLast_prefix _).trans (List.prefix_append _ _), .inl ?_⟩
    rw [List.length_append]
    omega
  · rw [if_neg hnil, List.dropLast_concat]
    refine ⟨List.prefix_append _ _, ?_⟩
    by_cases hold : words (run ++ bs) = []
    · have hwhite := words_eq_nil_iff.mp hold
      -- A run that is not empty would still be a word before the old end.
      have hempty : run = [] := by
        by_contra hne
        obtain ⟨c, hc⟩ := List.exists_mem_of_ne_nil run hne
        have hnot := hrun c hc
        rw [hwhite c (List.mem_append_left _ hc)] at hnot
        cases hnot
      subst hempty
      rw [hold, List.append_nil, List.nil_append]
      exact .inr ⟨rfl, fun c hc => hwhite c hc⟩
    · have hpos := List.length_pos_iff.mpr hold
      left
      rw [List.length_append, List.length_append, List.length_singleton]
      omega

/-- The first `n` bytes of a text end within a character that is white, with nothing but white
characters behind it. -/
def EndsInWhite (s : String) (n : Nat) : Prop :=
  ∃ as c bs, s.toList = as ++ c :: bs ∧ (∀ a ∈ c :: bs, isWhite a = true) ∧
    size (.ofList as) < n ∧ n < size (.ofList as) + (encodeChar c).length

/-- How the tokens of a cut text differ from those of the text. -/
theorem tokens_cut (s : String) (n : Nat) :
    (tokens (cut s n)).dropLast <+: tokens s ∧
      ((tokens (cut s n)).length ≤ (tokens s).length ∨
        tokens (cut s n) = tokens s ++ [.ofList [replacement]] ∧ EndsInWhite s n) := by
  obtain ⟨as, bs, hs, hcut⟩ := cut_cases s n
  have hus : ∀ us, cut s n = .ofList (as ++ us) → (∀ c ∈ us, isWhite c = false) →
      (tokens (cut s n)).dropLast <+: tokens s ∧
        ((tokens (cut s n)).length ≤ (tokens s).length ∨
          tokens (cut s n) = tokens s ++ [.ofList us] ∧ ∀ c ∈ bs, isWhite c = true) := by
    intro us hcut hus
    obtain ⟨hfront, hlength⟩ := words_change_end as bs hus
    rw [tokens, tokens, hcut, hs, String.toList_ofList, ← List.map_dropLast, List.length_map,
      List.length_map]
    refine ⟨hfront.map _, hlength.imp_right fun h => ⟨?_, h.2⟩⟩
    rw [h.1, List.map_append, List.map_singleton]
  rcases hcut with ⟨-, hcut⟩ | ⟨c, hc, k, hpos, hk, hn, -, hcut⟩
  · obtain ⟨hfront, hlength | ⟨htokens, -⟩⟩ := hus [] (by rwa [List.append_nil]) (by simp)
    · exact ⟨hfront, .inl hlength⟩
    · have hempty := isToken_of_mem_tokens (s := cut s n) (t := "") (by simp [htokens])
      exact absurd rfl hempty.1
  · obtain ⟨hfront, hlength | ⟨htokens, hwhite⟩⟩ :=
      hus [replacement] hcut (List.forall_mem_singleton.mpr (by decide))
    · exact ⟨hfront, .inl hlength⟩
    · obtain ⟨ds, rfl⟩ := List.head?_eq_some_iff.mp hc
      exact ⟨hfront, .inr ⟨htokens, as, c, ds, hs, hwhite, by omega, by omega⟩⟩

/-- The white character is in the second of two texts if the first has only short ones. -/
theorem EndsInWhite.of_append {s t : String} {n : Nat} (h : EndsInWhite (s ++ t) n)
    (hshort : ∀ a ∈ s.toList, (encodeChar a).length = 1) : EndsInWhite t (n - size s) := by
  obtain ⟨as, c, bs, hst, hwhite, hstart, hend⟩ := h
  obtain ⟨ds, rfl, ht⟩ : ∃ ds, as = s.toList ++ ds ∧ t.toList = ds ++ c :: bs := by
    rw [String.toList_append] at hst
    rcases List.append_eq_append_iff.mp hst with hsplit | ⟨ds, hs, hc⟩
    · exact hsplit
    · cases ds with
      | nil => exact ⟨[], by simpa using hs.symm, by simpa using hc.symm⟩
      | cons d ds =>
        obtain ⟨rfl, -⟩ := List.cons_eq_cons.mp hc
        have hone := hshort c (by simp [hs])
        omega
  rw [String.ofList_append, String.ofList_toList, size_append] at hstart hend
  exact ⟨ds, c, bs, ht, hwhite, by omega, by omega⟩

/-- A trimmed text ends in its last token, and whatever stands there instead is read alike. -/
theorem exists_head {s t : String} {ts : List String} (h : tokens s = ts ++ [t]) :
    ∃ head, trim s = head ++ t ∧ tokens head = ts ∧ ∀ x, tokens (head ++ x) = ts ++ tokens x := by
  obtain ⟨before, run, hsplit, hbefore, hrun⟩ := exists_run (stripWhite s.toList)
  have hrunNe : run ≠ [] := by
    rintro rfl
    rw [List.append_nil] at hsplit
    have hne : stripWhite s.toList ≠ [] := by
      intro he
      have hnil : tokens s = [] := by rw [tokens, ← words_stripWhite, he, words_nil, List.map_nil]
      rw [hnil] at h
      exact absurd h (by simp)
    have hlast := isWhite_getLast_stripWhite hne
    rw [hbefore _ (by rw [← hsplit]; exact List.getLast_mem_getLast? hne)] at hlast
    cases hlast
  have htokens (x : String) : tokens (.ofList before ++ x) = tokens (.ofList before) ++ tokens x := by
    rw [tokens, String.toList_append, String.toList_ofList, words_append_of_getLast? hbefore,
      List.map_append, tokens, tokens, String.toList_ofList]
  have hrunToken : IsToken (.ofList run) :=
    ⟨fun he => hrunNe (by simpa using congrArg String.toList he), by rwa [String.toList_ofList]⟩
  have htrim : trim s = .ofList before ++ .ofList run := by
    rw [trim, hsplit, String.ofList_append]
  rw [← tokens_trim, htrim, htokens, tokens_of_isToken hrunToken] at h
  obtain ⟨hhead, hlast⟩ := List.append_inj' h rfl
  rw [List.singleton_inj] at hlast
  refine ⟨.ofList before, by rw [htrim, hlast], hhead, fun x => by rw [htokens, hhead]⟩

end RelayStore.Text
