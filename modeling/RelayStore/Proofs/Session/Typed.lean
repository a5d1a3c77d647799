import RelayStore.Console
import RelayStore.Proofs.Line.Sent
import RelayStore.Proofs.Text.Spelling
import RelayStore.Proofs.Text.WellFormed

/-! # What is typed at the console

The lines that are typed are the pieces of the input between its newlines. The console ends at
the first of them that is not UTF-8 or is one of two words. Of those before it, without the white
space around them, the blank ones are passed over and all but the calls for help are requests.
-/
namespace RelayStore
open Text

namespace Console

def textOf (line : Bytes) : String :=
  trim (Utf8.decode line)

/-- A line at which the console ends: it is not UTF-8, or one of two words in any case. -/
def IsLast (line : Bytes) : Prop :=
  ¬ Utf8.IsText line ∨ IsVariant "QUIT" (textOf line) ∨ IsVariant "EXIT" (textOf line)

instance (line : Bytes) : Decidable (IsLast line) :=
  inferInstanceAs (Decidable (_ ∨ _ ∨ _))

def entries (lines : List Bytes) : List String :=
  ((lines.takeWhile fun line => ¬ IsLast line).map textOf).filter (· ≠ "")

def requests (lines : List Bytes) : List String :=
  (entries lines).filter fun text => ¬ IsVariant "HELP" text

structure IsRequest (line : Bytes) : Prop where
  not_isLast : ¬ IsLast line
  ne_empty : textOf line ≠ ""
  not_help : ¬ IsVariant "HELP" (textOf line)

/-- The line at which the console ends is not UTF-8. -/
def EndsIllFormed (lines : List Bytes) : Prop :=
  ∃ line ∈ lines.find? (IsLast ·), ¬ Utf8.IsText line

instance (lines : List Bytes) : Decidable (EndsIllFormed lines) :=
  decidable_of_iff (∃ line ∈ (lines.find? (IsLast ·)).toList, ¬ Utf8.IsText line) (by simp [EndsIllFormed])

/-! ## Typed lines -/

structure IsLineOf (line piece : Bytes) : Prop where
  newline_not_mem : newline ∉ piece
  eq_or : line = piece ∨ line = piece ++ [newline]

theorem typedLines_cons_of_nil {b : UInt8} (hb : b ≠ newline) {input : Bytes} (h : typedLines input = []) :
    typedLines (b :: input) = [[b]] := by
  rw [typedLines] at h ⊢
  simp only [List.foldr_cons, if_neg hb, h]

theorem typedLines_cons {b : UInt8} (hb : b ≠ newline) {input line : Bytes} {lines : List Bytes}
    (h : typedLines input = line :: lines) : typedLines (b :: input) = (b :: line) :: lines := by
  rw [typedLines] at h ⊢
  simp only [List.foldr_cons, if_neg hb, h]

/-- The typed lines are the pieces of the input, each with its newline. There is no line behind
the last newline. -/
theorem exists_pieces (input : Bytes) : ∃ pieces last, input.splitOn newline = pieces ++ [last] ∧
    typedLines input = pieces.map (· ++ [newline]) ++ if last = [] then [] else [last] := by
  induction input with
  | nil => exact ⟨[], [], rfl, rfl⟩
  | cons b input ih =>
    obtain ⟨pieces, last, hpieces, hlines⟩ := ih
    by_cases hb : b = newline
    · subst hb
      have hcons : typedLines (newline :: input) = [newline] :: typedLines input := rfl
      refine ⟨[] :: pieces, last, ?_, ?_⟩
      · rw [splitOn_cons_newline, hpieces, List.cons_append]
      · rw [hcons, hlines]
        rfl
    · rw [splitOn_cons_ne hb, hpieces]
      cases pieces with
      | nil =>
        refine ⟨[], b :: last, rfl, ?_⟩
        by_cases hlast : last = []
        · subst hlast
          exact typedLines_cons_of_nil hb hlines
        · exact typedLines_cons hb (hlines.trans (if_neg hlast))
      | cons piece pieces => exact ⟨(b :: piece) :: pieces, last, rfl, typedLines_cons hb hlines⟩

/-- A newline behind the bytes of a text adds nothing to it but white space. -/
theorem IsLineOf.isText_iff {line piece : Bytes} (h : IsLineOf line piece) :
    Utf8.IsText line ↔ Utf8.IsText piece := by
  rcases h.eq_or with rfl | rfl
  · exact Iff.rfl
  constructor
  · rintro ⟨s, hs⟩
    have hsplit : (piece ++ [newline]).splitOn newline = [piece, []] := by
      rw [List.splitOn_append_cons_self, List.splitOn_eq_singleton h.newline_not_mem]
      rfl
    rw [hs, Utf8.encode, splitOn_flatMap_encodeChar] at hsplit
    obtain ⟨cs, -, hcs⟩ := List.mem_map.mp (hsplit ▸ List.mem_cons_self : piece ∈ List.map _ _)
    exact ⟨.ofList cs, by rw [Utf8.encode_ofList, hcs]⟩
  · exact fun h => h.append ⟨"\n", rfl⟩

theorem IsLineOf.textOf_eq {line piece : Bytes} (h : IsLineOf line piece) (hpiece : Utf8.IsText piece) :
    textOf line = textOf piece := by
  rcases h.eq_or with rfl | rfl
  · rfl
  · obtain ⟨s, rfl⟩ := hpiece
    have hwhite : ∀ c ∈ ['\n'], isWhite c = true := List.forall_mem_singleton.mpr (by decide)
    have hnewline : Utf8.encode s ++ [newline] = Utf8.encode (s ++ "\n") :=
      (Utf8.encode_append s "\n").symm
    rw [hnewline, textOf, textOf, Utf8.decode_encode, Utf8.decode_encode, trim, trim, String.toList_append]
    exact congrArg String.ofList (stripWhite_append_of_white s.toList hwhite)

theorem newline_not_mem_textOf {piece : Bytes} (h : newline ∉ piece) : '\n' ∉ (textOf piece).toList := by
  intro hmem
  rw [textOf, trim, String.toList_ofList] at hmem
  exact h (Utf8.mem_of_mem_decode (a := '\n') (by decide) (by decide) (mem_of_mem_stripWhite hmem))

/-! ## One typed line -/

theorem ofLine_eq {line piece : Bytes} (h : IsLineOf line piece) (hpiece : Utf8.IsText piece) :
    Typed.ofLine (Utf8.decode line) =
      if IsLast piece then .quit else if textOf piece = "" then .blank
      else if IsVariant "HELP" (textOf piece) then .help else .request (textOf piece) := by
  have hlast : IsLast piece ↔ upper (textOf piece) = "QUIT" ∨ upper (textOf piece) = "EXIT" := by
    have hword {word : String} (hword : upper word = word) := isVariant_iff hword (s := textOf piece)
    rw [← hword (by decide : upper "QUIT" = _), ← hword (by decide : upper "EXIT" = _)]
    exact or_iff_right (not_not_intro hpiece)
  have hhelp : IsVariant "HELP" (textOf piece) ↔ upper (textOf piece) = "HELP" := isVariant_iff (by decide)
  have htext : trim (Utf8.decode line) = textOf piece := h.textOf_eq hpiece
  simp only [Typed.ofLine, htext, hlast, hhelp]
  generalize textOf piece = text
  by_cases hquit : upper text = "QUIT" ∨ upper text = "EXIT"
  · -- A word at which the console ends is neither blank nor the call for help.
    have hne : text ≠ "" := by
      rintro rfl
      exact absurd hquit (by decide)
    have hnot : upper text ≠ "HELP" := by
      intro he
      rw [he] at hquit
      exact absurd hquit (by decide)
    rw [if_neg hne, if_neg hnot, if_pos hquit, if_pos hquit]
  · simp only [if_neg hquit]

theorem IsLineOf.malformed?_eq_none {line piece : Bytes} (h : IsLineOf line piece)
    (hpiece : Utf8.IsText piece) : Utf8.malformed? line = none :=
  Utf8.malformed?_eq_none_iff.mpr (h.isText_iff.mpr hpiece)

theorem isVariant_help_of_not_isRequest {piece : Bytes} (hnot : ¬ IsRequest piece) (hlast : ¬ IsLast piece)
    (hne : textOf piece ≠ "") : IsVariant "HELP" (textOf piece) :=
  not_not.mp fun hhelp => hnot ⟨hlast, hne, hhelp⟩

/-- What the console does at a line that is UTF-8 and no request. -/
theorem runLines_cons {line piece : Bytes} (h : IsLineOf line piece) (hpiece : Utf8.IsText piece)
    (hnot : ¬ IsRequest piece) (d : Dialogue) (lines : List Bytes) :
    runLines d (line :: lines) =
      if IsLast piece then some ⟨[], none, d⟩ else if textOf piece = "" then runLines d lines
      else (runLines d lines).map (·.print helpText) := by
  simp only [runLines, h.malformed?_eq_none hpiece, ofLine_eq h hpiece]
  by_cases hlast : IsLast piece
  · simp only [if_pos hlast]
  by_cases hblank : textOf piece = ""
  · simp only [if_neg hlast, if_pos hblank]
  simp only [if_neg hlast, if_neg hblank, if_pos (isVariant_help_of_not_isRequest hnot hlast hblank)]

theorem IsRequest.isText {piece : Bytes} (h : IsRequest piece) : Utf8.IsText piece :=
  not_not.mp fun hnot => h.not_isLast (.inl hnot)

theorem IsRequest.ofLine_eq {line piece : Bytes} (h : IsRequest piece) (hline : IsLineOf line piece) :
    Typed.ofLine (Utf8.decode line) = .request (textOf piece) := by
  rw [Console.ofLine_eq hline h.isText, if_neg h.not_isLast, if_neg h.ne_empty, if_neg h.not_help]

theorem IsRequest.runLines_of_reply {line piece : Bytes} (h : IsRequest piece) (hline : IsLineOf line piece)
    {d d' : Dialogue} {reply : String} (hrequest : d.request 0 (textOf piece) = (.reply reply, d'))
    (lines : List Bytes) : runLines d (line :: lines) = (runLines d' lines).map (·.print reply) := by
  simp only [runLines, hline.malformed?_eq_none h.isText, h.ofLine_eq hline, hrequest]

theorem IsRequest.runLines_of_failure {line piece : Bytes} (h : IsRequest piece) (hline : IsLineOf line piece)
    {d d' : Dialogue} {f : Failure} (hrequest : d.request 0 (textOf piece) = (.failure f, d'))
    (lines : List Bytes) : runLines d (line :: lines) = some ⟨[], some f, d'⟩ := by
  simp only [runLines, hline.malformed?_eq_none h.isText, h.ofLine_eq hline, hrequest]

theorem runLines_cons_of_not_isText {line piece : Bytes} (h : IsLineOf line piece)
    (hpiece : ¬ Utf8.IsText piece) (d : Dialogue) (lines : List Bytes) :
    ∃ cause, runLines d (line :: lines) = some ⟨[], some (.malformedInput cause), d⟩ := by
  obtain ⟨cause, hcause⟩ : ∃ cause, Utf8.malformed? line = some cause := by
    rw [← Option.ne_none_iff_exists']
    exact fun hnone => hpiece (h.isText_iff.mp (Utf8.malformed?_eq_none_iff.mp hnone))
  exact ⟨cause, by simp only [runLines, hcause]⟩

theorem entries_cons_of_isLast {piece : Bytes} (h : IsLast piece) (pieces : List Bytes) :
    entries (piece :: pieces) = [] := by
  simp [entries, h]

theorem entries_cons {piece : Bytes} (h : ¬ IsLast piece) (pieces : List Bytes) :
    entries (piece :: pieces) =
      if textOf piece = "" then entries pieces else textOf piece :: entries pieces := by
  by_cases hblank : textOf piece = "" <;> simp [entries, h, hblank]

theorem requests_cons_of_help {piece : Bytes} (h : ¬ IsLast piece)
    (hhelp : IsVariant "HELP" (textOf piece)) (pieces : List Bytes) :
    requests (piece :: pieces) = requests pieces := by
  by_cases hblank : textOf piece = "" <;> simp [requests, entries_cons h, hblank, hhelp]

theorem IsRequest.entries_cons {piece : Bytes} (h : IsRequest piece) (pieces : List Bytes) :
    entries (piece :: pieces) = textOf piece :: entries pieces := by
  rw [Console.entries_cons h.not_isLast, if_neg h.ne_empty]

theorem IsRequest.requests_cons {piece : Bytes} (h : IsRequest piece) (pieces : List Bytes) :
    requests (piece :: pieces) = textOf piece :: requests pieces := by
  simp [requests, h.entries_cons, h.not_help]

theorem endsIllFormed_cons {piece : Bytes} {pieces : List Bytes} : EndsIllFormed (piece :: pieces) ↔
    if IsLast piece then ¬ Utf8.IsText piece else EndsIllFormed pieces := by
  by_cases hlast : IsLast piece <;> simp [EndsIllFormed, hlast]

theorem not_isLast_nil : ¬ IsLast [] := by decide

/-- What is behind the last newline adds nothing if it is empty. -/
theorem entries_append_nil (pieces : List Bytes) : entries (pieces ++ [[]]) = entries pieces := by
  induction pieces with
  | nil => rfl
  | cons piece pieces ih =>
    rw [List.cons_append]
    by_cases hlast : IsLast piece
    · rw [entries_cons_of_isLast hlast, entries_cons_of_isLast hlast]
    · rw [entries_cons hlast, entries_cons hlast, ih]

theorem endsIllFormed_append_nil (pieces : List Bytes) :
    EndsIllFormed (pieces ++ [[]]) ↔ EndsIllFormed pieces := by
  have hnil : [([] : Bytes)].find? (IsLast ·) = none := by
    rw [List.find?_eq_none]
    simp [not_isLast_nil]
  rw [EndsIllFormed, List.find?_append, hnil, Option.or_none, EndsIllFormed]

end Console
end RelayStore
