import Mathlib.Data.List.DropRight
import RelayStore.Line.Framer
import RelayStore.Proofs.Text.Coding

/-! # The framer as a splitter

Reading line by line reports what cutting the whole stream at its newlines reports. The
framer's state is computed from the unfinished piece alone, held bytes and discarding
alike, so one step lemma carries the induction over the stream.
-/
namespace RelayStore

def Item.ofPiece? (piece : Bytes) : Option Item :=
  let body := stripReturns piece
  if maxLine + 1 < piece.length ∨ maxLine < body.length then some .tooLong
  else
    let text := Utf8.decode body
    if Text.isBlank text then none else some (.line text)

/-- The items of a stream cut at its newlines. The last piece has no newline behind it and
counts only if the stream is closed there. -/
def splitItems (bs : Bytes) (ending : Ending) : List Item × Finish :=
  let pieces := bs.splitOn newline
  match ending with
  | .closed => (pieces.filterMap Item.ofPiece?, .closed)
  | .failing fault => (pieces.dropLast.filterMap Item.ofPiece?, .failed fault)
  | .idle => (pieces.dropLast.filterMap Item.ofPiece?, .waiting)

theorem ofPiece?_of_lt {piece : Bytes} (h : piece.length < window) :
    Item.ofPiece? piece = Item.ofBytes? piece := by
  have hshort : ¬ maxLine + 1 < piece.length := by
    unfold window at h
    omega
  simp only [Item.ofPiece?, Item.ofBytes?, hshort, false_or]

theorem ofPiece?_of_le {piece : Bytes} (h : window ≤ piece.length) :
    Item.ofPiece? piece = some .tooLong := by
  have hlong : maxLine + 1 < piece.length := by
    unfold window at h
    omega
  simp only [Item.ofPiece?, hlong, true_or, if_true]

@[simp] theorem ofPiece?_nil : Item.ofPiece? [] = none := by decide

namespace Framer

def holding (piece : Bytes) : Framer :=
  if piece.length < window then .collecting piece.toArray else .discarding

theorem fresh_eq_holding : fresh = holding [] := by
  simp [fresh, holding, window]

theorem push_holding (piece : Bytes) (b : UInt8) :
    (holding piece).push b =
      if b = newline then (fresh, Item.ofPiece? piece) else (holding (piece ++ [b]), none) := by
  unfold holding
  by_cases hlt : piece.length < window
  · rw [if_pos hlt, ofPiece?_of_lt hlt]
    simp only [push, List.size_toArray, List.length_append, List.length_singleton]
    by_cases hb : b = newline
    · simp only [hb, if_true]
    · by_cases hfull : piece.length + 1 = window
      · have hnot : ¬ piece.length + 1 < window := by omega
        simp only [hb, hfull, if_true, if_false, Nat.lt_irrefl]
      · have hmore : piece.length + 1 < window := by omega
        simp only [hb, hfull, hmore, if_true, if_false, List.push_toArray]
  · have hle : window ≤ piece.length := by omega
    have hnot : ¬ (piece ++ [b]).length < window := by
      rw [List.length_append]
      omega
    rw [if_neg hlt, if_neg hnot, ofPiece?_of_le hle, push]

theorem finish_holding_closed (piece : Bytes) :
    (holding piece).finish .closed = (Item.ofPiece? piece, .closed) := by
  unfold holding
  split
  · next h => rw [ofPiece?_of_lt h, finish]
  · next h => rw [ofPiece?_of_le (by omega), finish]

theorem finish_failing (f : Framer) {fault : Fault} (h : fault ≠ .interrupted) :
    f.finish (.failing fault) = (none, .failed fault) := by
  cases f with
  | collecting held => cases fault <;> first | rfl | exact absurd rfl h
  | discarding => rfl

theorem finish_idle (f : Framer) : f.finish .idle = (none, .waiting) := by
  cases f <;> rfl

end Framer

/-! ## From one byte to a whole stream -/

theorem splitOn_cons_newline (bs : Bytes) :
    (newline :: bs).splitOn newline = [] :: bs.splitOn newline := by
  rw [List.splitOn_cons_eq_if_modifyHead, if_pos (beq_self_eq_true _)]

theorem splitOn_cons_ne {b : UInt8} (hb : b ≠ newline) (bs : Bytes) :
    (b :: bs).splitOn newline = (bs.splitOn newline).modifyHead (b :: ·) := by
  rw [List.splitOn_cons_eq_if_modifyHead, if_neg (by simpa using hb)]

/-- The pieces, each with a newline behind it. -/
theorem flatMap_splitOn (bs : Bytes) :
    (bs.splitOn newline).flatMap (· ++ [newline]) = bs ++ [newline] := by
  induction bs with
  | nil => rfl
  | cons b bs ih =>
    obtain ⟨p, ps, hps⟩ := List.exists_cons_of_ne_nil (List.splitOn_ne_nil newline bs)
    by_cases hb : b = newline
    · rw [hb, splitOn_cons_newline, List.flatMap_cons, ih]
      rfl
    · rw [hps, List.flatMap_cons] at ih
      rw [splitOn_cons_ne hb, hps, List.modifyHead_cons, List.flatMap_cons, List.cons_append, List.cons_append,
        ih]
      rfl

/-- A reader that is inside a piece goes on with it and then with the pieces that follow. -/
theorem Reader.feed_holding (piece : Bytes) (items : Array Item) (bs : Bytes) :
    Reader.feed ⟨.holding piece, items⟩ bs =
      let pieces := (bs.splitOn newline).modifyHead (piece ++ ·)
      ⟨.holding (pieces.getLastD []),
        items ++ (pieces.dropLast.filterMap Item.ofPiece?).toArray⟩ := by
  induction bs generalizing piece items with
  | nil => simp [feed]
  | cons b bs ih =>
    obtain ⟨p, ps, hps⟩ := List.exists_cons_of_ne_nil (List.splitOn_ne_nil newline bs)
    have hfeed : Reader.feed ⟨.holding piece, items⟩ (b :: bs) =
        Reader.feed (Reader.push ⟨.holding piece, items⟩ b) bs := rfl
    rw [hfeed, push, Framer.push_holding]
    by_cases hb : b = newline
    · subst hb
      rw [splitOn_cons_newline, hps, if_pos rfl, Framer.fresh_eq_holding, ih, hps]
      cases hitem : Item.ofPiece? piece with
      | none => simp [hitem]
      | some item => simp [hitem]
    · rw [splitOn_cons_ne hb, hps, if_neg hb, ih, hps]
      simp

theorem Reader.foldl_feed (r : Reader) (reads : List Bytes) :
    reads.foldl Reader.feed r = r.feed reads.flatten := by
  induction reads generalizing r with
  | nil => rfl
  | cons read reads ih => rw [List.foldl_cons, ih, List.flatten_cons, feed_append]

/-- However the stream is cut into reads, the reader stands where the splitter does. -/
theorem Source.reader_eq (src : Source) :
    src.reads.foldl Reader.feed {} =
      ⟨.holding ((src.bytes.splitOn newline).getLastD []),
        ((src.bytes.splitOn newline).dropLast.filterMap Item.ofPiece?).toArray⟩ := by
  have hstart : ({} : Reader) = ⟨.holding [], #[]⟩ := by rw [← Framer.fresh_eq_holding]
  have hhead : (src.bytes.splitOn newline).modifyHead ([] ++ ·) = src.bytes.splitOn newline := by
    obtain ⟨p, ps, hps⟩ := List.exists_cons_of_ne_nil (List.splitOn_ne_nil newline src.bytes)
    rw [hps]
    rfl
  rw [Reader.foldl_feed, hstart, Reader.feed_holding]
  simp only [← Source.bytes.eq_def, hhead]
  simp

theorem filterMap_dropLast_append {α β : Type} (f : α → Option β) (l : List α) (a : α)
    (h : l ≠ []) : l.dropLast.filterMap f ++ (f (l.getLastD a)).toList = l.filterMap f := by
  have hlast : l.getLastD a = l.getLast h := by
    rw [List.getLastD_eq_getLast?, List.getLast?_eq_getLast_of_ne_nil h]
    rfl
  conv_rhs => rw [← List.dropLast_append_getLast h]
  rw [hlast, List.filterMap_append]
  cases hitem : f (l.getLast h) <;> simp [hitem]

/-- What is before a newline has no part in what is read behind it. -/
theorem splitItems_append_newline (as bs : Bytes) (ending : Ending) :
    splitItems (as ++ newline :: bs) ending =
      ((as.splitOn newline).filterMap Item.ofPiece? ++ (splitItems bs ending).1,
        (splitItems bs ending).2) := by
  have hne := List.splitOn_ne_nil newline bs
  have hlast : (as.splitOn newline ++ bs.splitOn newline).dropLast =
      as.splitOn newline ++ (bs.splitOn newline).dropLast := List.dropLast_append_of_ne_nil hne
  cases ending with
  | closed => simp only [splitItems, List.splitOn_append_cons_self, List.filterMap_append]
  | failing fault =>
    simp only [splitItems, List.splitOn_append_cons_self, hlast, List.filterMap_append]
  | idle => simp only [splitItems, List.splitOn_append_cons_self, hlast, List.filterMap_append]

/-- However the stream is cut into reads, reading to the end reports the splitter's items. -/
theorem Source.items_eq (src : Source) (h : src.ending ≠ .failing .interrupted) :
    src.items = splitItems src.bytes src.ending := by
  have hne := List.splitOn_ne_nil newline src.bytes
  rw [items, src.reader_eq]
  dsimp only
  cases hend : src.ending with
  | closed =>
    rw [Framer.finish_holding_closed, splitItems]
    simp only [filterMap_dropLast_append _ _ _ hne]
  | failing fault =>
    have hfault : fault ≠ .interrupted := by
      intro he
      exact h (by rw [hend, he])
    rw [Framer.finish_failing _ hfault, splitItems]
    simp
  | idle =>
    rw [Framer.finish_idle, splitItems]
    simp

theorem Source.items_of_unterminated (src : Source) (hbytes : newline ∉ src.bytes)
    (hclosed : src.ending = .closed) : src.items.1 = (Item.ofPiece? src.bytes).toList := by
  have hend : src.ending ≠ .failing .interrupted := by simp [hclosed]
  rw [src.items_eq hend, hclosed, splitItems, List.splitOn_eq_singleton hbytes, List.filterMap_cons]
  cases hitem : Item.ofPiece? src.bytes <;> simp

/-! ## Lines that are read -/

theorem not_mem_of_mem_splitOn {α : Type} [BEq α] [LawfulBEq α] {a : α} {l piece : List α}
    (h : piece ∈ l.splitOn a) : a ∉ piece := by
  induction l generalizing piece with
  | nil =>
    rw [List.splitOn_nil, List.mem_singleton] at h
    simp [h]
  | cons b l ih =>
    obtain ⟨p, ps, hps⟩ := List.exists_cons_of_ne_nil (List.splitOn_ne_nil a l)
    rw [List.splitOn_cons_eq_if_modifyHead, hps] at h
    rw [hps] at ih
    by_cases hb : b == a
    · rw [if_pos hb] at h
      rcases List.mem_cons.mp h with rfl | h
      · simp
      · exact ih h
    · rw [if_neg hb, List.modifyHead_cons] at h
      rcases List.mem_cons.mp h with rfl | h
      · have hne : a ≠ b := fun he => hb (beq_iff_eq.mpr he.symm)
        exact fun hm => (List.mem_cons.mp hm).elim hne (ih List.mem_cons_self)
      · exact ih (List.mem_cons_of_mem _ h)

theorem Framer.ofPiece?_of_finish {piece : Bytes} {ending : Ending} {item : Item}
    (h : ((holding piece).finish ending).1 = some item) : Item.ofPiece? piece = some item := by
  cases ending with
  | closed => rwa [finish_holding_closed] at h
  | idle => simp [finish_idle] at h
  | failing fault =>
    by_cases hf : fault = .interrupted
    · subst hf
      unfold holding at h
      split at h
      · next hlt => rwa [ofPiece?_of_lt hlt]
      · simp [finish] at h
    · simp [finish_failing _ hf] at h

/-- Every item is that of some piece, whatever the stream ends in. -/
theorem Source.exists_piece {src : Source} {item : Item} (h : item ∈ src.items.1) :
    ∃ piece ∈ src.bytes.splitOn newline, Item.ofPiece? piece = some item := by
  have hne := List.splitOn_ne_nil newline src.bytes
  rw [items, src.reader_eq] at h
  dsimp only at h
  rcases List.mem_append.mp h with h | h
  · obtain ⟨piece, hmem, hpiece⟩ := List.mem_filterMap.mp h
    exact ⟨piece, (List.dropLast_sublist _).subset hmem, hpiece⟩
  · refine ⟨_, ?_, Framer.ofPiece?_of_finish (Option.mem_toList.mp h)⟩
    rw [List.getLastD_eq_getLast?, List.getLast?_eq_getLast_of_ne_nil hne]
    exact List.getLast_mem hne

theorem ofPiece?_eq_line {piece : Bytes} {text : String}
    (h : Item.ofPiece? piece = some (.line text)) :
    text = Utf8.decode (stripReturns piece) ∧ Text.isBlank text = false := by
  unfold Item.ofPiece? at h
  dsimp only at h
  split at h
  · cases h
  split at h
  · cases h
  · next hblank =>
    cases h
    exact ⟨rfl, by simpa using hblank⟩

/-- No line that is read holds a newline or is blank. -/
theorem Source.line_spec {src : Source} {text : String} (h : .line text ∈ src.items.1) :
    '\n' ∉ text.toList ∧ Text.isBlank text = false := by
  obtain ⟨piece, hmem, hpiece⟩ := exists_piece h
  obtain ⟨rfl, hblank⟩ := ofPiece?_eq_line hpiece
  refine ⟨fun hnl => not_mem_of_mem_splitOn hmem ?_, hblank⟩
  exact (List.rdropWhile_prefix (· == carriageReturn) piece).subset
    (Utf8.mem_of_mem_decode (a := '\n') (by decide) (by decide) hnl)

/-! ## Reading is splitting -/

/-- Reading to the end reports the splitter's items in order, and the end or the failure
itself. No byte of a piece, be it too long or not, reaches an item behind its newline, and
none of the items there is lost. -/
theorem reading_eq_splitting (src : Source) (h : src.ending ≠ .failing .interrupted) :
    src.items = splitItems src.bytes src.ending ∧
      ∀ before after, src.bytes = before ++ newline :: after →
        src.items = ((before.splitOn newline).filterMap Item.ofPiece? ++
          (splitItems after src.ending).1, (splitItems after src.ending).2) := by
  have heq := src.items_eq h
  refine ⟨heq, fun before after hbytes => ?_⟩
  rw [heq, hbytes, splitItems_append_newline]

/-- The last piece is dropped at the failure, and the return before the newline does not count. -/
theorem reading_eq_splitting_reset :
    Ending.failing .connectionReset ≠ .failing .interrupted ∧
      Source.items ⟨[[0x61, 0x0D], [0x0A, 0x20, 0x0A, 0x62]], .failing .connectionReset⟩ =
        ([.line "a"], .failed .connectionReset) :=
  ⟨by decide, (reading_eq_splitting ⟨[[0x61, 0x0D], [0x0A, 0x20, 0x0A, 0x62]],
    .failing .connectionReset⟩ (by decide)).1.trans (by decide)⟩

end RelayStore
