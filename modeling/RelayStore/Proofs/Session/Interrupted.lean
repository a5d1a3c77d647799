import RelayStore.Proofs.Line.Endings
import RelayStore.Proofs.Line.Roundtrip

/-! # Reads that are interrupted

A read that is interrupted while a line is collected is tried again, and nothing of it is seen.
While a line that is too long is skipped it is not tried again, so the session fails there and the
line has no reply. Which of the two it is depends on the last piece of the stream alone: a piece
that fills the window is being skipped. The store is the same either way, as a line that is too
long changes nothing.
-/
namespace RelayStore

def lastPiece (bs : Bytes) : Bytes :=
  (bs.splitOn newline).getLastD []

theorem Framer.finish_holding_interrupted (piece : Bytes) :
    (holding piece).finish (.failing .interrupted) =
      if piece.length < window then (Item.ofPiece? piece, .closed) else (none, .failed .interrupted) := by
  unfold holding
  split
  · next h => rw [ofPiece?_of_lt h, finish]
  · rfl

/-! ## What is read -/

namespace Source
variable {reads : List Bytes}

/-- The ending has a say in the last piece only. -/
theorem items_eq_finish (src : Source) :
    src.items =
      ((src.bytes.splitOn newline).dropLast.filterMap Item.ofPiece? ++
        ((Framer.holding (lastPiece src.bytes)).finish src.ending).1.toList,
        ((Framer.holding (lastPiece src.bytes)).finish src.ending).2) := by
  rw [items, src.reader_eq, lastPiece]

theorem items_interrupted_of_lt (h : (lastPiece reads.flatten).length < window) :
    items ⟨reads, .failing .interrupted⟩ = items ⟨reads, .closed⟩ := by
  rw [items_eq_finish, items_eq_finish]
  simp only [bytes, Framer.finish_holding_closed, Framer.finish_holding_interrupted, if_pos h]

/-- The piece that was being skipped is dropped, as behind any other failure. -/
theorem items_interrupted_of_le (h : window ≤ (lastPiece reads.flatten).length) :
    items ⟨reads, .failing .interrupted⟩ = splitItems reads.flatten (.failing .interrupted) := by
  have hlong : ¬ (lastPiece reads.flatten).length < window := by omega
  rw [items_eq_finish, splitItems]
  simp only [bytes, Framer.finish_holding_interrupted, if_neg hlong, Option.toList_none, List.append_nil]

theorem items_closed_of_le (h : window ≤ (lastPiece reads.flatten).length) :
    items ⟨reads, .closed⟩ = ((items ⟨reads, .failing .interrupted⟩).1 ++ [.tooLong], .closed) := by
  rw [items_interrupted_of_le h, items_eq_finish, splitItems]
  simp only [bytes, Framer.finish_holding_closed, ofPiece?_of_le h, Option.toList_some]

end Source

/-! ## Sessions -/

section Session
variable {σ : Type} (answer : σ → String → σ × Reply) (state : σ) {reads : List Bytes}

/-- One more line that is too long changes no state, and is answered if all before it are. -/
theorem converse_append_tooLong (sink : Sink) (items : List Item) :
    converse answer state sink (items ++ [.tooLong]) =
      match converse answer state sink items with
      | (state, sink, some fault) => (state, sink, some fault)
      | (state, sink, none) => (state, sink.writeLine tooLongReply.render) := by
  induction items generalizing state sink with
  | nil =>
    simp only [List.nil_append, converse, respond]
    rcases sink.writeLine tooLongReply.render with ⟨sink', _ | fault⟩ <;> rfl
  | cons item items ih =>
    rw [List.cons_append, converse, converse]
    dsimp only
    rcases sink.writeLine (respond answer state item).2.render with ⟨sink', _ | fault⟩
    · exact ih _ sink'
    · rfl

theorem state_serve_interrupted (sink : Sink) :
    (serve answer state ⟨reads, .failing .interrupted⟩ sink).state =
      (serve answer state ⟨reads, .closed⟩ sink).state := by
  rcases Nat.lt_or_ge (lastPiece reads.flatten).length window with h | h
  · rw [serve_of_items_eq answer state sink (Source.items_interrupted_of_lt h)]
  · rw [serve, serve, Source.items_closed_of_le h]
    simp only [converse_append_tooLong]
    rcases converse answer state sink (Source.items ⟨reads, .failing .interrupted⟩).1 with
      ⟨state', sink', _ | fault⟩
    · dsimp only
      rcases sink'.writeLine tooLongReply.render with ⟨sink'', _ | fault⟩ <;> rfl
    · rfl

/-- The session on the closed stream goes on where the other one fails. -/
theorem serve_closed_of_le {sink : Sink} (hsink : sink.IsOpen)
    (h : window ≤ (lastPiece reads.flatten).length) :
    let o := serve answer state ⟨reads, .failing .interrupted⟩ sink
    o.finish = .failed .interrupted ∧ serve answer state ⟨reads, .closed⟩ sink =
      ⟨o.state, (o.sink.writeLine tooLongReply.render).1, .closed⟩ := by
  have hrun := converse_of_isOpen answer state hsink (Source.items ⟨reads, .failing .interrupted⟩).1
  intro o
  have ho : o = _ := serve_of_isOpen answer state ⟨reads, .failing .interrupted⟩ hsink
  have hopen : o.sink.IsOpen := by
    rw [ho]
    exact ⟨hsink.chunk, hsink.room, hsink.flushFailure⟩
  have hwrite := hopen.writeLine tooLongReply.render
  rw [ho] at hwrite ⊢
  refine ⟨by rw [Source.items_interrupted_of_le h, splitItems], ?_⟩
  rw [serve, Source.items_closed_of_le h]
  simp only [converse_append_tooLong, hrun, hwrite]

end Session

theorem render_tooLongReply : tooLongReply.render = "ERROR line too long (limit 65536 bytes)" := by
  decide +kernel

/-- The next read behind the bytes of a stream is interrupted once, and then the stream is closed. If
fewer than 65538 bytes stand behind the last newline, whatever they are, the same is read as of the
stream that is closed at once, and every session on the one is the session on the other. If they
are so many, the line that they begin is not reported, and a session that can write all its
replies fails where the other writes one more. The state that is left is the same in any case. -/
theorem interruption_seen (reads : List Bytes) :
    let src : Source := ⟨reads, .failing .interrupted⟩
    let closed : Source := ⟨reads, .closed⟩
    let last := lastPiece reads.flatten
    (src.items = closed.items ↔ last.length < 65538) ∧
      (65538 ≤ last.length → src.items = splitItems reads.flatten (.failing .interrupted) ∧
        closed.items = (src.items.1 ++ [.tooLong], .closed)) ∧
      ∀ (σ : Type) (answer : σ → String → σ × Reply) (state : σ) (sink : Sink),
        let o := serve answer state src sink
        let o' := serve answer state closed sink
        o.state = o'.state ∧ (last.length < 65538 → o = o') ∧
          (65538 ≤ last.length → sink.IsOpen → o.finish = .failed .interrupted ∧ o' =
            ⟨o.state, (o.sink.writeLine "ERROR line too long (limit 65536 bytes)").1, .closed⟩) := by
  intro src closed last
  refine ⟨⟨fun hsame => ?_, Source.items_interrupted_of_lt⟩,
    fun hlong => ⟨Source.items_interrupted_of_le hlong, Source.items_closed_of_le hlong⟩,
    fun σ answer state sink => ⟨state_serve_interrupted answer state sink, ?_, ?_⟩⟩
  · by_contra hshort
    have hlong : window ≤ last.length := Nat.le_of_not_lt hshort
    have hfinish : src.items.2 = .closed := by
      rw [hsame, show closed.items = _ from Source.items_closed_of_le hlong]
    rw [show src.items = _ from Source.items_interrupted_of_le hlong, splitItems] at hfinish
    cases hfinish
  · intro hshort
    exact serve_of_items_eq answer state sink (Source.items_interrupted_of_lt hshort)
  · intro hlong hsink
    rw [← render_tooLongReply]
    exact serve_closed_of_le answer state hsink hlong

/-- The last line has no newline, and is answered whether or not the read behind it is interrupted. -/
theorem interruption_seen_unterminated :
    let reads := [Utf8.encode "SET k v\nGE", Utf8.encode "T k"]
    (lastPiece reads.flatten).length < 65538 ∧
      serve Store.reply .empty ⟨reads, .failing .interrupted⟩ {} =
        serve Store.reply .empty ⟨reads, .closed⟩ {} := by
  intro reads
  have hshort : (lastPiece reads.flatten).length < 65538 := by decide
  exact ⟨hshort, ((interruption_seen reads).2.2 Store Store.reply .empty {}).2.1 hshort⟩

/-- A line that just fills the window is skipped. It is answered where the stream is closed, and not
where a read is interrupted before that. -/
theorem interruption_told_apart :
    let reads : List Bytes := [List.replicate 65538 0x61]
    let o := Store.empty.serve ⟨reads, .failing .interrupted⟩ {}
    let o' := Store.empty.serve ⟨reads, .closed⟩ {}
    o ≠ o' ∧ o.sink.written.toList = [] ∧ o.finish = .failed .interrupted ∧
      o'.sink.written.toList = sentLine "ERROR line too long (limit 65536 bytes)" ∧ o'.finish = .closed := by
  -- The bytes stay a variable, or they would be computed.
  obtain ⟨bs, hbs⟩ : ∃ bs : Bytes, bs = List.replicate 65538 0x61 := ⟨_, rfl⟩
  have hsplit : [bs].flatten.splitOn newline = [bs] := by
    rw [List.flatten_singleton, hbs]
    exact List.splitOn_eq_singleton fun h => absurd (List.eq_of_mem_replicate h) (by decide)
  have hlong : window ≤ (lastPiece [bs].flatten).length := by
    rw [lastPiece, hsplit, List.getLastD_cons, List.getLastD_nil, hbs, List.length_replicate]
    decide
  rw [← hbs]
  intro reads o o'
  have hitems : Source.items ⟨reads, .failing .interrupted⟩ = ([], .failed .interrupted) := by
    rw [Source.items_interrupted_of_le hlong, splitItems, hsplit]
    rfl
  have hitems' : Source.items ⟨reads, .closed⟩ = ([.tooLong], .closed) := by
    rw [Source.items_closed_of_le hlong, hitems]
    rfl
  obtain ⟨-, hwritten, hend⟩ := Store.empty.serve_default ⟨reads, .failing .interrupted⟩
  obtain ⟨-, hwritten', hend'⟩ := Store.empty.serve_default ⟨reads, .closed⟩
  rw [hitems] at hwritten hend
  rw [hitems'] at hwritten' hend'
  have hfinish : o.finish = .failed .interrupted := hend
  have hfinish' : o'.finish = .closed := hend'
  refine ⟨fun hsame => ?_, hwritten, hfinish, ?_, hfinish'⟩
  · rw [hsame, hfinish'] at hfinish
    cases hfinish
  · rw [← render_tooLongReply]
    exact hwritten'.trans (List.append_nil _)

end RelayStore
