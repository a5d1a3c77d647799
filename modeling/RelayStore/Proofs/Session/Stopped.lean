import RelayStore.Proofs.Session.Texts

/-! # Sessions that cannot write all their replies

A sink that fills up, or that cannot be flushed, ends a session before its stream does. What
it has taken is the beginning of what a sink without bounds takes, and the command whose reply
is cut off has taken effect, as a reply is written after its command is applied.
-/
namespace RelayStore

/-! ## Where replies are cut -/

/-- So many bytes hold this many whole replies, and the next one is cut off. -/
structure Reply.CutAfter (replies : List Reply) (limit k : Nat) : Prop where
  whole : (bytes (replies.take k)).length ≤ limit
  cut : limit < (bytes (replies.take (k + 1))).length

namespace Reply

theorem bytes_cons (r : Reply) (replies : List Reply) :
    bytes (r :: replies) = sentLine r.render ++ bytes replies :=
  List.flatMap_cons

theorem cutAfter_zero {r : Reply} {replies : List Reply} {limit : Nat}
    (h : limit < (sentLine r.render).length) : CutAfter (r :: replies) limit 0 := by
  constructor
  · exact Nat.zero_le limit
  · simpa [bytes] using h

theorem CutAfter.cons {r : Reply} {replies : List Reply} {limit k : Nat}
    (h : CutAfter replies limit k) :
    CutAfter (r :: replies) ((sentLine r.render).length + limit) (k + 1) := by
  have hwhole := h.whole
  have hcut := h.cut
  constructor
  · rw [List.take_succ_cons, bytes_cons, List.length_append]
    omega
  · rw [List.take_succ_cons, bytes_cons, List.length_append]
    omega

theorem IsLine.count_newline {r : Reply} (h : r.IsLine) : (Utf8.encode r.render).count newline = 0 := by
  apply List.count_eq_zero.mpr
  intro hm
  exact h.1.newline_not_mem ((Utf8.mem_encode_ascii (a := '\n') (by decide)).mp hm)

theorem IsLine.count_newline_take {r : Reply} (h : r.IsLine) {size : Nat}
    (hsize : size < (sentLine r.render).length) : ((sentLine r.render).take size).count newline = 0 := by
  have hlength : (sentLine r.render).length = (Utf8.encode r.render).length + 1 := by
    simp [sentLine]
  have htake : (sentLine r.render).take size = (Utf8.encode r.render).take size :=
    List.take_append_of_le_length (by omega)
  rw [htake]
  exact Nat.le_zero.mp (h.count_newline ▸ (List.take_sublist _ _).count_le _)

/-- The whole replies are counted by the newlines. -/
theorem CutAfter.count_newline {replies : List Reply} (hline : ∀ r ∈ replies, r.IsLine) {limit k : Nat}
    (h : CutAfter replies limit k) : ((bytes replies).take limit).count newline = k := by
  induction replies generalizing limit k with
  | nil =>
    have hcut := h.cut
    simp [bytes] at hcut
  | cons r replies ih =>
    obtain ⟨hr, hreplies⟩ := List.forall_mem_cons.mp hline
    rw [bytes_cons]
    cases k with
    | zero =>
      have hcut : limit < (sentLine r.render).length := by simpa [bytes] using h.cut
      rw [List.take_append_of_le_length (Nat.le_of_lt hcut)]
      exact hr.count_newline_take hcut
    | succ k =>
      have hwhole := h.whole
      have hcut := h.cut
      rw [List.take_succ_cons, bytes_cons, List.length_append] at hwhole hcut
      have hrest : CutAfter replies (limit - (sentLine r.render).length) k :=
        ⟨by omega, by omega⟩
      have hone : (sentLine r.render).count newline = 1 := by
        simp [sentLine, List.count_append, hr.count_newline]
      rw [List.take_append, List.count_append, List.take_of_length_le (by omega), hone, ih hreplies hrest,
        Nat.add_comm]

end Reply

/-! ## Sessions that are stopped -/

section Stopped
variable {σ : Type} (answer : σ → String → σ × Reply) {sink : Sink}

/-- The reply that no longer fits is the last one that is made. -/
theorem converse_of_lt (state : σ) (hchunk : ∀ taken, sink.chunk taken ≠ some 0)
    (hflush : sink.flushFailure = none) {limit : Nat} (hroom : sink.room = some limit) {items : List Item}
    (h : limit < (Reply.bytes (transcript answer state items).2).length) :
    ∃ k < items.length, Reply.CutAfter (transcript answer state items).2 limit k ∧
      converse answer state sink items = ((transcript answer state (items.take (k + 1))).1,
        (sink.take ((Reply.bytes (transcript answer state items).2).take limit)).flushed k,
        some sink.failure) := by
  induction items generalizing state sink limit with
  | nil => exact absurd h (Nat.not_lt_zero limit)
  | cons item items ih =>
    have hcons : (transcript answer state (item :: items)).2 = (respond answer state item).2 ::
        (transcript answer (respond answer state item).1 items).2 := rfl
    rw [hcons, Reply.bytes_cons] at h ⊢
    by_cases hfirst : limit < (sentLine (respond answer state item).2.render).length
    · refine ⟨0, by simp, Reply.cutAfter_zero hfirst, ?_⟩
      rw [converse]
      simp only [Sink.writeLine_of_lt hchunk hroom hfirst,
        List.take_append_of_le_length (Nat.le_of_lt hfirst)]
      rfl
    · obtain ⟨rest, rfl⟩ := Nat.exists_eq_add_of_le (Nat.le_of_not_lt hfirst)
      rw [List.length_append] at h
      have hwrite : sink.writeLine (respond answer state item).2.render =
          ((sink.take (sentLine (respond answer state item).2.render)).flushed 1, none) := by
        rw [Sink.writeLine_of_hasRoom hchunk, hflush]
        intro n hn
        rw [hroom] at hn
        cases hn
        omega
      have hleft : ((sink.take (sentLine (respond answer state item).2.render)).flushed 1).room =
          some rest := by
        simp [Sink.take, Sink.flushed, hroom]
      obtain ⟨k, hk, hcut, hrest⟩ := @ih
        ((sink.take (sentLine (respond answer state item).2.render)).flushed 1)
        (respond answer state item).1 hchunk hflush rest hleft (by omega)
      refine ⟨k + 1, by simpa using hk, hcut.cons, ?_⟩
      rw [converse]
      simp only [hwrite, hrest, Sink.take_flushed, Sink.flushed_flushed, Sink.take_take,
        List.take_length_add_append, Nat.add_comm 1 k]
      rfl

theorem serve_of_hasRoom (state : σ) (src : Source) (hchunk : ∀ taken, sink.chunk taken ≠ some 0)
    (hflush : sink.flushFailure = none)
    (h : sink.HasRoom (Reply.bytes (transcript answer state src.items.1).2).length) :
    serve answer state src sink = ⟨(transcript answer state src.items.1).1,
      (sink.take (Reply.bytes (transcript answer state src.items.1).2)).flushed src.items.1.length,
      src.items.2⟩ := by
  rw [serve]
  simp only [converse_of_hasRoom answer state hchunk hflush h]

theorem serve_of_lt (state : σ) (src : Source) (hchunk : ∀ taken, sink.chunk taken ≠ some 0)
    (hflush : sink.flushFailure = none) {limit : Nat} (hroom : sink.room = some limit)
    (h : limit < (Reply.bytes (transcript answer state src.items.1).2).length) :
    ∃ k < src.items.1.length, Reply.CutAfter (transcript answer state src.items.1).2 limit k ∧
      serve answer state src sink = ⟨(transcript answer state (src.items.1.take (k + 1))).1,
        (sink.take ((Reply.bytes (transcript answer state src.items.1).2).take limit)).flushed k,
        .failed sink.failure⟩ := by
  obtain ⟨k, hk, hcut, hrun⟩ := converse_of_lt answer state hchunk hflush hroom h
  refine ⟨k, hk, hcut, ?_⟩
  rw [serve]
  simp only [hrun]

/-- A flush that fails ends the session behind the first reply. -/
theorem serve_of_flushFailure (state : σ) {src : Source}
    (hchunk : ∀ taken, sink.chunk taken ≠ some 0) {fault : Fault}
    (hflush : sink.flushFailure = some fault) {item : Item} {items : List Item}
    (hitems : src.items.1 = item :: items)
    (h : sink.HasRoom (sentLine (respond answer state item).2.render).length) :
    serve answer state src sink = ⟨(respond answer state item).1,
      (sink.take (sentLine (respond answer state item).2.render)).flushed 1, .failed fault⟩ := by
  rw [serve]
  simp only [hitems, converse, Sink.writeLine_of_hasRoom hchunk h, hflush]

end Stopped

/-- A session on a sink that takes at least one byte a call is compared with that on a sink that
takes all replies. If they fit, nothing differs. If they do not, the sink has taken what fits,
the session fails as the sink does, and just the lines whose replies were written whole and the
one behind them have taken effect; where no stored value breaks a line, the newlines tell how
many. If flushing fails, this is so behind the first reply. -/
theorem session_stopped (s : Store) (src : Source) {sink : Sink}
    (hchunk : ∀ taken, sink.chunk taken ≠ some 0) :
    let full := s.serve src {}
    let out := s.serve src sink
    let F := full.sink.written.toList
    ∃ replies, s.Answers src.items.1 replies ∧ F = Reply.bytes replies ∧
      (∀ limit, sink.room = some limit → sink.flushFailure = none →
        (F.length ≤ limit → out.state = full.state ∧ out.finish = full.finish ∧
          out.sink.written = sink.written ++ F.toArray ∧
          out.sink.flushes = sink.flushes + full.sink.flushes) ∧
        (limit < F.length → ∃ k < src.items.1.length, Reply.CutAfter replies limit k ∧
          (s.IsClean → (F.take limit).count newline = k) ∧
          out.sink.written = sink.written ++ (F.take limit).toArray ∧
          out.finish = .failed sink.failure ∧ out.state = s.after (src.items.1.take (k + 1)))) ∧
      (∀ fault first rest, sink.flushFailure = some fault → replies = first :: rest →
        sink.HasRoom (sentLine first.render).length →
        out.sink.written = sink.written ++ (sentLine first.render).toArray ∧
          out.finish = .failed fault ∧ out.state = s.after (src.items.1.take 1)) := by
  intro full out F
  obtain ⟨hstate, hwritten, hfinish⟩ := s.serve_default src
  have hflushes : full.sink.flushes = src.items.1.length := by
    change (serve Store.reply s src {}).sink.flushes = _
    rw [serve_of_isOpen _ _ _ Sink.isOpen_default]
    exact Nat.zero_add _
  have hanswers := s.answers_transcript src.items.1
  refine ⟨s.replies src.items.1, hanswers, hwritten, fun limit hroom hflush => ⟨?_, ?_⟩, ?_⟩
  · intro hlimit
    have hfits : sink.HasRoom (Reply.bytes (s.replies src.items.1)).length := by
      intro n hn
      rw [hroom] at hn
      cases hn
      rwa [← hwritten]
    have hout : out = _ := serve_of_hasRoom Store.reply s src hchunk hflush hfits
    refine ⟨?_, ?_, ?_, ?_⟩
    · rw [hout, hstate, Store.transcript_fst]
    · rw [hout, hfinish]
    · rw [hout, show F = _ from hwritten]
      rfl
    · rw [hout, hflushes]
      rfl
  · intro hlimit
    rw [show F = _ from hwritten] at hlimit ⊢
    obtain ⟨k, hk, hcut, hrun⟩ := serve_of_lt Store.reply s src hchunk hflush hroom hlimit
    have hout : out = _ := hrun
    refine ⟨k, hk, hcut, fun hclean => ?_, ?_, ?_, ?_⟩
    · exact hcut.count_newline (hclean.isLine_replies src.items.1)
    · rw [hout]
      rfl
    · rw [hout]
    · rw [hout, Store.transcript_fst]
  · intro fault first rest hflush hreplies hfits
    cases hitems : src.items.1 with
    | nil =>
      rw [hitems] at hreplies
      cases hreplies
    | cons item items =>
      have hfirst : (respond Store.reply s item).2 = first := by
        rw [hitems] at hreplies
        exact (List.cons.inj hreplies).1
      subst hfirst
      have hout : out = _ := serve_of_flushFailure Store.reply s hchunk hflush hitems hfits
      refine ⟨?_, ?_, ?_⟩
      · rw [hout]
        rfl
      · rw [hout]
      · rw [hout, Store.respond_fst]
        rfl

/-- The sink fills up within the third reply: the client has read two, and the third command is
in the store. -/
theorem session_stopped_within_reply :
    let src : Source := ⟨[Utf8.encode "SET a 1\nGET a\nSET b 2\nDELETE a\n"], .closed⟩
    let sink : Sink :=
      { chunk := fun taken => some (taken % 3 + 1), room := some 6, failure := .brokenPipe }
    (∀ taken, sink.chunk taken ≠ some 0) ∧
      (Store.empty.serve src sink).sink.written.toList = Utf8.encode "OK\n1\nO" ∧
      (Store.empty.serve src sink).finish = .failed .brokenPipe ∧
      (Store.empty.serve src sink).state = (Store.empty.set "a" "1").set "b" "2" := by
  intro src sink
  have hchunk : ∀ taken, sink.chunk taken ≠ some 0 := by
    intro taken
    exact fun h => Nat.succ_ne_zero _ (Option.some.inj h)
  have hitems : src.items.1 = [.line "SET a 1", .line "GET a", .line "SET b 2", .line "DELETE a"] := by
    decide
  obtain ⟨replies, hanswers, hF, hroom, -⟩ := session_stopped Store.empty src hchunk
  have hreplies : replies = [.done, .value "1", .done, .done] := by
    rw [hitems] at hanswers
    have hlength := hanswers.length
    have hfirst := hanswers.each 0 _ rfl
    have hsecond := hanswers.each 1 _ rfl
    have hthird := hanswers.each 2 _ rfl
    have hfourth := hanswers.each 3 _ rfl
    match replies, hlength with
    | [first, second, third, fourth], _ =>
      cases hfirst
      cases hsecond
      cases hthird
      cases hfourth
      decide
  rw [hreplies] at hF
  have hlt : 6 < (Store.empty.serve src {}).sink.written.toList.length := by
    rw [hF]
    decide
  obtain ⟨k, -, -, hcount, hwritten, hfinish, hstate⟩ := (hroom 6 rfl rfl).2 hlt
  have hk := hcount Store.isClean_empty
  rw [hF] at hk hwritten
  have hk : k = 2 := by
    rw [← hk]
    decide
  refine ⟨hchunk, ?_, hfinish, ?_⟩
  · rw [hwritten]
    decide
  · rw [hstate, hk, hitems]
    rfl

end RelayStore
