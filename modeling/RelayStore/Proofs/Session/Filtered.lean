import RelayStore.Proofs.Session.Pairing
import RelayStore.Proofs.Session.Typed

/-! # The console as a session

The node takes each request that the console passes on as one line. So the console comes to one
reply for each, in the order of one session, and it never waits in vain. It ends early at a reply
that is over the limit, and nothing that is typed behind it reaches the node.
-/
namespace RelayStore
open Text

/-- What a node reads of a text that has no newline, no white space at its ends and is not empty. -/
def Item.ofTrimmed (text : String) : Item :=
  if Utf8.size text ≤ maxLine then .line text else .tooLong

namespace Console

/-- How many texts are sent: none behind the first whose reply is not read. -/
def reach (replies : List Reply) : Nat :=
  replies.findIdx (·.IsLong) + 1

/-- What is printed: the help for each call for it, and for each other text its reply, until one
is not read. -/
def printout : List String → List Reply → List String
  | [], _ => []
  | text :: texts, replies =>
    if IsVariant "HELP" text then helpText :: printout texts replies
    else match replies with
      | [] => []
      | r :: replies => if r.IsLong then [] else r.render :: printout texts replies

theorem printout_cons_of_help {text : String} (h : IsVariant "HELP" text) (texts : List String)
    (replies : List Reply) :
    printout (text :: texts) replies = helpText :: printout texts replies := by
  cases replies <;> simp only [printout, if_pos h]

theorem printout_cons {text : String} (h : ¬ IsVariant "HELP" text) (texts : List String) (r : Reply)
    (replies : List Reply) :
    printout (text :: texts) (r :: replies) = if r.IsLong then [] else r.render :: printout texts replies := by
  simp only [printout, if_neg h]

theorem reach_cons (r : Reply) (replies : List Reply) :
    reach (r :: replies) = if r.IsLong then 1 else reach replies + 1 := by
  rw [reach, List.findIdx_cons]
  by_cases hlong : r.IsLong <;> simp [hlong, reach]

/-! ## One request -/

/-- The node reads one line of a request: the request, or that it is too long. -/
theorem sentItems_textOf {piece : Bytes} (hpiece : newline ∉ piece) (hne : textOf piece ≠ "") :
    sentItems (textOf piece) = [.ofTrimmed (textOf piece)] := by
  have hreturns : dropReturns (textOf piece) = textOf piece := dropReturns_trim _
  have hblank : isBlank (textOf piece) = false := by
    rw [textOf, isBlank_trim, Bool.eq_false_iff]
    exact fun hblank => hne (trim_of_isBlank hblank)
  rw [sentItems, pieces_of_not_mem (newline_not_mem_textOf hpiece), List.filterMap_cons, Item.ofText?,
    hreturns, hblank, Item.ofTrimmed]
  by_cases hfits : Utf8.size (textOf piece) ≤ maxLine
  · rw [if_neg (by omega), if_pos hfits]
    rfl
  · rw [if_pos (by omega), if_neg hfits]
    rfl

end Console

namespace Dialogue
variable {s : Store} {conn : Nat} {d : Dialogue} {text : String} {item : Item}

theorem Paired.server_eq (h : Paired s conn [] d) : d.server = .node s :=
  h.server

/-- A client that has taken all replies so far and sends a text that is read as one line comes to
its reply, and has then taken all replies again. -/
theorem Paired.request_of_item (h : Paired s conn [] d) (hs : s.IsClean) (hitem : sentItems text = [item]) :
    (d.request conn text).1 = (respond Store.reply s item).2.awaited ∧
      Paired (s.after [item]) conn [] (d.request conn text).2 := by
  have hitems : ([] ++ [text]).flatMap sentItems = [item] := by simp [hitem]
  have hreplies : s.replies [item] = [(respond Store.reply s item).2] := rfl
  have hfirst : (s.replies (([] ++ [text]).flatMap sentItems))[0]? = some (respond Store.reply s item).2 := by
    rw [hitems, hreplies]
    rfl
  obtain ⟨hresult, hup, hserver, -, hinbox⟩ := h.request hs hfirst
  rw [hitems] at hserver hinbox
  refine ⟨hresult, hup, hserver, Nat.le_refl _, ?_⟩
  rw [hinbox, hreplies]
  rfl

end Dialogue

namespace Console
variable {s : Store} {d : Dialogue} {line piece : Bytes} {lines pieces : List Bytes} {t : Transcript}

/-! ## What the console comes to -/

/-- What the console comes to at a node with this store, by the pieces of its input. -/
structure Filtered (s : Store) (pieces : List Bytes) (t : Transcript) : Prop where
  printed : t.printed = printout (entries pieces) (s.replies ((requests pieces).map .ofTrimmed))
  server : t.dialogue.server = .node (s.after
    (((requests pieces).take (reach (s.replies ((requests pieces).map .ofTrimmed)))).map .ofTrimmed))
  failure : t.failure.isSome = true ↔
    (∃ r ∈ s.replies ((requests pieces).map .ofTrimmed), r.IsLong) ∨ EndsIllFormed pieces

theorem filtered_nil (hserver : d.server = .node s) : Filtered s [] ⟨[], none, d⟩ where
  printed := rfl
  server := hserver
  failure := by simp [requests, entries, EndsIllFormed, Store.replies, transcript]

theorem filtered_last (hserver : d.server = .node s) (hlast : IsLast piece) {failure : Option Failure}
    (hfailure : failure.isSome = true ↔ ¬ Utf8.IsText piece) (pieces : List Bytes) :
    Filtered s (piece :: pieces) ⟨[], failure, d⟩ := by
  have hentries := entries_cons_of_isLast hlast pieces
  have hrequests : requests (piece :: pieces) = [] := by rw [requests, hentries, List.filter_nil]
  constructor
  · rw [hentries]
    rfl
  · rw [hrequests]
    exact hserver
  · simp [hfailure, hrequests, endsIllFormed_cons, hlast, Store.replies, transcript]

theorem Filtered.blank (h : Filtered s pieces t) (hlast : ¬ IsLast piece) (hblank : textOf piece = "") :
    Filtered s (piece :: pieces) t := by
  have hentries : entries (piece :: pieces) = entries pieces := by rw [entries_cons hlast, if_pos hblank]
  have hrequests : requests (piece :: pieces) = requests pieces := by rw [requests, hentries, requests]
  constructor
  · rw [hentries, hrequests, h.printed]
  · rw [hrequests, h.server]
  · rw [hrequests, endsIllFormed_cons, if_neg hlast, h.failure]

theorem Filtered.help (h : Filtered s pieces t) (hlast : ¬ IsLast piece) (hne : textOf piece ≠ "")
    (hhelp : IsVariant "HELP" (textOf piece)) : Filtered s (piece :: pieces) (t.print helpText) := by
  have hentries : entries (piece :: pieces) = textOf piece :: entries pieces := by
    rw [entries_cons hlast, if_neg hne]
  have hrequests := requests_cons_of_help hlast hhelp pieces
  constructor
  · rw [hentries, hrequests, printout_cons_of_help hhelp, ← h.printed]
    rfl
  · rw [hrequests, ← h.server]
    rfl
  · rw [hrequests, endsIllFormed_cons, if_neg hlast, ← h.failure]
    rfl

theorem replies_request (s : Store) (hpiece : IsRequest piece) (pieces : List Bytes) :
    s.replies ((requests (piece :: pieces)).map .ofTrimmed) =
      (respond Store.reply s (.ofTrimmed (textOf piece))).2 ::
        (s.after [.ofTrimmed (textOf piece)]).replies ((requests pieces).map .ofTrimmed) := by
  rw [hpiece.requests_cons, List.map_cons, Store.replies_cons]

/-- A request with a reply that is read, and what comes behind it. -/
theorem Filtered.request (h : Filtered (s.after [.ofTrimmed (textOf piece)]) pieces t)
    (hpiece : IsRequest piece) (hread : ¬ (respond Store.reply s (.ofTrimmed (textOf piece))).2.IsLong) :
    Filtered s (piece :: pieces)
      (t.print (respond Store.reply s (.ofTrimmed (textOf piece))).2.render) := by
  have hreplies := replies_request s hpiece pieces
  constructor
  · rw [hreplies, hpiece.entries_cons, printout_cons hpiece.not_help, if_neg hread, ← h.printed]
    rfl
  · rw [hreplies, reach_cons, if_neg hread, hpiece.requests_cons, List.take_succ_cons, List.map_cons,
      Store.after_cons, ← h.server]
    rfl
  · simp only [hreplies, endsIllFormed_cons, if_neg hpiece.not_isLast, List.mem_cons, exists_eq_or_imp, hread,
      false_or, ← h.failure]
    rfl

/-- A request with a reply that is not read, which ends the console. -/
theorem filtered_long (hserver : d.server = .node (s.after [.ofTrimmed (textOf piece)]))
    (hpiece : IsRequest piece) (hlong : (respond Store.reply s (.ofTrimmed (textOf piece))).2.IsLong)
    (f : Failure) (pieces : List Bytes) : Filtered s (piece :: pieces) ⟨[], some f, d⟩ := by
  have hreplies := replies_request s hpiece pieces
  constructor
  · rw [hreplies, hpiece.entries_cons, printout_cons hpiece.not_help, if_pos hlong]
  · rw [hreplies, reach_cons, if_pos hlong, hpiece.requests_cons, List.take_succ_cons, List.take_zero]
    exact hserver
  · rw [hreplies]
    exact iff_of_true rfl (.inl ⟨_, List.mem_cons_self, hlong⟩)

/-- At a request the console waits for one reply, and goes on if it is read. -/
theorem exists_filtered_request (h : Dialogue.Paired s 0 [] d) (hs : s.IsClean) (hline : IsLineOf line piece)
    (hpiece : IsRequest piece)
    (hrest : ∀ s' d', Dialogue.Paired s' 0 [] d' → s'.IsClean →
      ∃ t, runLines d' lines = some t ∧ Filtered s' pieces t) :
    ∃ t, runLines d (line :: lines) = some t ∧ Filtered s (piece :: pieces) t := by
  have hitem := sentItems_textOf hline.newline_not_mem hpiece.ne_empty
  obtain ⟨hresult, hpaired⟩ := h.request_of_item hs hitem
  rw [Reply.awaited_eq] at hresult
  by_cases hlong : (respond Store.reply s (.ofTrimmed (textOf piece))).2.IsLong
  · rw [if_pos hlong] at hresult
    exact ⟨_, hpiece.runLines_of_failure hline (Prod.ext hresult rfl) lines,
      filtered_long hpaired.server_eq hpiece hlong _ pieces⟩
  · rw [if_neg hlong] at hresult
    obtain ⟨t, hrun, ht⟩ := hrest _ _ hpaired (hs.after _)
    refine ⟨_, ?_, ht.request hpiece hlong⟩
    rw [hpiece.runLines_of_reply hline (Prod.ext hresult rfl), hrun]
    rfl

/-- The console goes through its lines, and at each of them has taken all replies so far. -/
theorem exists_filtered (h : Dialogue.Paired s 0 [] d) (hs : s.IsClean)
    (hlines : List.Forall₂ IsLineOf lines pieces) :
    ∃ t, runLines d lines = some t ∧ Filtered s pieces t := by
  induction hlines generalizing s d with
  | nil => exact ⟨_, rfl, filtered_nil h.server_eq⟩
  | @cons line piece lines pieces hline _ ih =>
    by_cases hasks : IsRequest piece
    · exact exists_filtered_request h hs hline hasks fun s' d' h' hs' => ih h' hs'
    by_cases hpiece : Utf8.IsText piece
    · rw [runLines_cons hline hpiece hasks]
      by_cases hlast : IsLast piece
      · rw [if_pos hlast]
        exact ⟨_, rfl, filtered_last h.server_eq hlast (by simpa using hpiece) pieces⟩
      obtain ⟨t, hrun, ht⟩ := ih h hs
      rw [if_neg hlast, hrun]
      by_cases hblank : textOf piece = ""
      · rw [if_pos hblank]
        exact ⟨t, rfl, ht.blank hlast hblank⟩
      · rw [if_neg hblank]
        exact ⟨_, rfl, ht.help hlast hblank (isVariant_help_of_not_isRequest hasks hlast hblank)⟩
    · obtain ⟨cause, hrun⟩ := runLines_cons_of_not_isText hline hpiece d lines
      exact ⟨_, hrun, filtered_last h.server_eq (.inl hpiece) (iff_of_true rfl hpiece) pieces⟩

/-! ## A whole input -/

theorem Filtered.append_nil (h : Filtered s pieces t) : Filtered s (pieces ++ [[]]) t := by
  have hrequests : requests (pieces ++ [[]]) = requests pieces := by
    rw [requests, entries_append_nil, requests]
  constructor
  · rw [entries_append_nil, hrequests, h.printed]
  · rw [hrequests, h.server]
  · rw [hrequests, endsIllFormed_append_nil, h.failure]

theorem exists_filtered_input (h : Dialogue.Paired s 0 [] d) (hs : s.IsClean) (input : Bytes) :
    ∃ t, runLines d (typedLines input) = some t ∧ Filtered s (input.splitOn newline) t := by
  obtain ⟨pieces, last, hpieces, hlines⟩ := exists_pieces input
  have hplain : ∀ piece ∈ pieces ++ [last], newline ∉ piece :=
    fun piece hmem => not_mem_of_mem_splitOn (hpieces ▸ hmem)
  have hterminated : List.Forall₂ IsLineOf (pieces.map (· ++ [newline])) pieces := by
    rw [List.forall₂_map_left_iff, List.forall₂_same]
    exact fun piece hmem => ⟨hplain piece (List.mem_append_left _ hmem), .inr rfl⟩
  rw [hpieces, hlines]
  by_cases hlast : last = []
  · subst hlast
    rw [if_pos rfl, List.append_nil]
    obtain ⟨t, hrun, ht⟩ := exists_filtered h hs hterminated
    exact ⟨t, hrun, ht.append_nil⟩
  · have hopen : IsLineOf last last := ⟨hplain last (by simp), .inl rfl⟩
    rw [if_neg hlast]
    exact exists_filtered h hs (List.rel_append hterminated (.cons hopen .nil))

theorem paired_connect (address : String) :
    ∃ d inbox, Dialogue.connect ⟨.up, address, .node .empty, []⟩ 0 = .ok (d, inbox) ∧
      Dialogue.Paired .empty 0 [] d :=
  ⟨_, _, rfl, rfl, rfl, Nat.le_refl _, rfl⟩

/-- The node reads each request as one line. -/
theorem flatMap_sentItems_requests (input : Bytes) {texts : List String}
    (htexts : texts ⊆ requests (input.splitOn newline)) :
    texts.flatMap sentItems = texts.map .ofTrimmed := by
  have hone : ∀ text ∈ texts, sentItems text = [.ofTrimmed text] := by
    intro text hmem
    obtain ⟨hentry, hne⟩ := List.mem_filter.mp (List.mem_filter.mp (htexts hmem)).1
    obtain ⟨piece, hpiece, rfl⟩ := List.mem_map.mp hentry
    have hplain := not_mem_of_mem_splitOn ((List.takeWhile_sublist _).subset hpiece)
    exact sentItems_textOf hplain (by simpa using hne)
  rw [List.flatMap_congr hone, List.map_eq_flatMap]

/-- What is printed is decided by the replies up to the first that is not read. -/
theorem printout_take_reach (texts : List String) (replies : List Reply) :
    printout texts (replies.take (reach replies)) = printout texts replies := by
  induction texts generalizing replies with
  | nil => cases replies <;> rfl
  | cons text texts ih =>
    by_cases hhelp : IsVariant "HELP" text
    · rw [printout_cons_of_help hhelp, printout_cons_of_help hhelp, ih]
    cases replies with
    | nil => rfl
    | cons r replies =>
      rw [reach_cons]
      by_cases hlong : r.IsLong
      · rw [if_pos hlong, List.take_succ_cons, printout_cons hhelp, printout_cons hhelp, if_pos hlong,
          if_pos hlong]
      · rw [if_neg hlong, List.take_succ_cons, printout_cons hhelp, printout_cons hhelp, ih]

theorem exists_isLong_take_reach {replies : List Reply} :
    (∃ r ∈ replies.take (reach replies), r.IsLong) ↔ ∃ r ∈ replies, r.IsLong := by
  induction replies with
  | nil => simp
  | cons r replies ih =>
    rw [reach_cons]
    by_cases hlong : r.IsLong
    · simp [hlong]
    · simp [hlong, ih]

/-- Standard output shows each text that is printed as a line, or as several. -/
theorem Transcript.sentLines_lines (t : Transcript) : sentLines t.lines = sentLines t.printed := by
  rw [sentLines, Transcript.lines, List.flatMap_assoc]
  exact List.flatMap_congr fun text _ => sentLines_pieces text

/-- A text that only begins with a word of the console is a request. -/
example : (Console.run ⟨.up, "", .node .empty, []⟩
    (Utf8.encode " SET k v\n\nquit now\nGET k\r\nQuit\nDEL k")).map (·.printed) =
      some ["OK", "ERROR invalid command 'quit'", "v"] := by decide +kernel

end Console
end RelayStore
