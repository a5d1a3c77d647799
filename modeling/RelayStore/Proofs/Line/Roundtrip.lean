import RelayStore.Proofs.Session.Texts

/-! # Lines that are written and read back

Texts that are written as lines, one behind the other, are read back as they are exactly if
each of them is one line: it has no newline in it and no return at its end, it is not blank and
not too long. Nothing that is read of written texts is anything but such a line, so a text that
fails in one of the four is not read back at all, however the others are.
-/
namespace RelayStore
open Text

structure Text.IsOneLine (s : String) : Prop where
  newline_not_mem : '\n' ∉ s.toList
  return_not_last : s.toList.getLast? ≠ some '\r'
  not_blank : isBlank s = false
  size_le : Utf8.size s ≤ 65536

/-! ## Writing -/

namespace Sink
variable {s : Sink}

theorem IsOpen.take_flushed (h : s.IsOpen) (bs : Bytes) (n : Nat) : ((s.take bs).flushed n).IsOpen where
  chunk := h.chunk
  room := by simp [take, flushed, h.room]
  flushFailure := h.flushFailure

theorem IsOpen.writeLine (h : s.IsOpen) (line : String) :
    s.writeLine line = ((s.take (sentLine line)).flushed 1, none) := by
  rw [writeLine_of_hasRoom h.chunk (hasRoom_of_room_eq_none h.room _), h.flushFailure]

/-- A sink that never fails takes all lines, one behind the other. -/
theorem IsOpen.writeLines (h : s.IsOpen) (lines : List String) :
    (∀ w ∈ s.writeLines lines, w.2 = none) ∧
      ((s.writeLines lines).getLastD (s, none)).1 = (s.take (sentLines lines)).flushed lines.length := by
  induction lines generalizing s with
  | nil => exact ⟨by simp [Sink.writeLines], by simp [Sink.writeLines, sentLines, flushed]⟩
  | cons line lines ih =>
    obtain ⟨hnone, hlast⟩ := ih (h.take_flushed (sentLine line) 1)
    have hall : sentLines (line :: lines) = sentLine line ++ sentLines lines := List.flatMap_cons
    simp only [Sink.writeLines, h.writeLine, List.getLastD_cons]
    refine ⟨List.forall_mem_cons.mpr ⟨rfl, hnone⟩, ?_⟩
    rw [hlast, hall, Sink.take_flushed, flushed_flushed, take_take, List.length_cons, Nat.add_comm 1]

end Sink

/-! ## Reading -/

theorem Text.return_not_last_dropReturns (s : String) : (dropReturns s).toList.getLast? ≠ some '\r' := by
  intro hlast
  rw [dropReturns, String.toList_ofList] at hlast
  have hne : s.toList.rdropWhile (· == '\r') ≠ [] := by
    intro he
    rw [he] at hlast
    cases hlast
  have hnot := List.rdropWhile_last_not (· == '\r') s.toList hne
  rw [List.getLast?_eq_getLast_of_ne_nil hne] at hlast
  exact hnot (beq_iff_eq.mpr (Option.some.inj hlast))

theorem Item.ofText?_eq_line {s line : String} (h : ofText? s = some (.line line)) :
    line = dropReturns s ∧ isBlank s = false := by
  unfold ofText? at h
  split at h
  · cases h
  split at h
  · cases h
  · next hblank =>
    cases h
    exact ⟨rfl, by simpa using hblank⟩

/-- Whatever text is sent, the lines that are read of it are one line each. -/
theorem isOneLine_of_mem_sentItems {text line : String} (h : .line line ∈ sentItems text) :
    IsOneLine line := by
  obtain ⟨piece, hpiece, hitem⟩ := List.mem_filterMap.mp h
  obtain ⟨cs, hcs, rfl⟩ := List.mem_map.mp hpiece
  have hsize := Item.size_le_of_ofText? hitem
  obtain ⟨rfl, hblank⟩ := Item.ofText?_eq_line hitem
  have hnewline : '\n' ∉ (String.ofList cs).toList := by
    rw [String.toList_ofList]
    exact not_mem_of_mem_splitOn hcs
  exact ⟨newline_not_mem_dropReturns hnewline, return_not_last_dropReturns _,
    (isBlank_dropReturns _).trans hblank, hsize⟩

theorem Text.IsOneLine.dropReturns_eq {s : String} (h : IsOneLine s) : dropReturns s = s := by
  apply dropReturns_eq_self
  intro hs hlast
  exact h.return_not_last (by rw [List.getLast?_eq_getLast_of_ne_nil hs, hlast])

theorem sentItems_of_isOneLine {text : String} (h : IsOneLine text) : sentItems text = [.line text] := by
  have hsize : Utf8.size text ≤ maxLine := h.size_le
  have hitem : Item.ofText? text = some (.line text) := by
    rw [Item.ofText?, h.dropReturns_eq, h.not_blank, if_neg (by omega)]
    rfl
  rw [sentItems, pieces_of_not_mem h.newline_not_mem, List.filterMap_cons, hitem]
  rfl

/-! ## Round trips -/

/-- However few bytes a sink takes at a time, and however what it holds is cut into reads: texts
that are written to it as lines are read back as the same list up to the end of the stream exactly
if each of them is one line. No text that is not one line is ever read, so where a single text
is written the four conditions are needed one by one. -/
theorem written_lines_read_back {sink : Sink} (hsink : sink.IsOpen) (hnew : sink.written = #[])
    (texts : List String) :
    let writes := sink.writeLines texts
    let written := (writes.getLastD (sink, none)).1.written.toList
    (∀ w ∈ writes, w.2 = none) ∧ written = texts.flatMap sentLine ∧
      ∀ src : Source, src.bytes = written → src.ending = .closed →
        (src.items = (texts.map .line, .closed) ↔ ∀ t ∈ texts, IsOneLine t) ∧
          ∀ t, .line t ∈ src.items.1 → IsOneLine t := by
  intro writes written
  obtain ⟨hnone, hlast⟩ := hsink.writeLines texts
  have hwritten : written = sentLines texts := by
    rw [show written = _ from congrArg (fun s : Sink => s.written.toList) hlast]
    simp [Sink.take, Sink.flushed, hnew]
  refine ⟨hnone, hwritten, fun src hbytes hend => ?_⟩
  have hnot : src.ending ≠ .failing .interrupted := by simp [hend]
  have hitems := src.items_of_sentLines (hbytes.trans hwritten) hnot
  have hfinish : src.items.2 = .closed := by
    rw [src.items_eq hnot, hend]
    rfl
  have hread : ∀ t, .line t ∈ src.items.1 → IsOneLine t := by
    intro t ht
    rw [hitems] at ht
    obtain ⟨text, -, hmem⟩ := List.mem_flatMap.mp ht
    exact isOneLine_of_mem_sentItems hmem
  refine ⟨⟨fun hback t ht => ?_, fun hlines => ?_⟩, hread⟩
  · apply hread
    rw [hback]
    exact List.mem_map_of_mem ht
  · refine Prod.ext ?_ hfinish
    rw [hitems, List.map_eq_flatMap]
    exact List.flatMap_congr fun t ht => sentItems_of_isOneLine (hlines t ht)

/-- Returns within a line stay, and a sink may take one byte at a time. -/
theorem written_lines_read_back_returns :
    let sink : Sink := { chunk := some 1 }
    let texts := ["a\r\rb", "\u3000 c\t"]
    sink.IsOpen ∧ sink.written = #[] ∧ (∀ t ∈ texts, IsOneLine t) ∧
      Source.items ⟨[Utf8.encode "a\r", Utf8.encode "\rb\n\u3000 c\t\n"], .closed⟩ =
        ([.line "a\r\rb", .line "\u3000 c\t"], .closed) := by
  intro sink texts
  have hsink : sink.IsOpen := ⟨by simp [sink], rfl, rfl⟩
  have hlines : ∀ t ∈ texts, IsOneLine t := by
    simp only [texts, List.forall_mem_cons]
    exact ⟨⟨by decide, by decide, by decide, by decide⟩, ⟨by decide, by decide, by decide, by decide⟩, by simp⟩
  obtain ⟨-, hwritten, hread⟩ := written_lines_read_back hsink rfl texts
  refine ⟨hsink, rfl, hlines, ((hread _ ?_ rfl).1).mpr hlines⟩
  rw [hwritten]
  decide

end RelayStore
