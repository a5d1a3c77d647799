import RelayStore.Proofs.Line.Room

/-! # Sessions that can always write

On a sink that takes everything a session is a fold over the items that are read: each
item moves the state and has one reply, and the replies are written in order as lines.
-/
namespace RelayStore

def transcript {σ : Type} (answer : σ → String → σ × Reply) (state : σ) : List Item → σ × List Reply
  | [] => (state, [])
  | item :: items =>
    let (state, reply) := respond answer state item
    let (state, replies) := transcript answer state items
    (state, reply :: replies)

def Reply.bytes (replies : List Reply) : Bytes :=
  replies.flatMap fun r => sentLine r.render

/-- A sink on which no call fails, however few bytes it takes at a time. -/
structure Sink.IsOpen (s : Sink) : Prop where
  chunk : ∀ taken, s.chunk taken ≠ some 0
  room : s.room = none
  flushFailure : s.flushFailure = none

theorem Sink.isOpen_default : ({} : Sink).IsOpen := ⟨by simp, rfl, rfl⟩

theorem length_transcript {σ : Type} (answer : σ → String → σ × Reply) (state : σ) (items : List Item) :
    (transcript answer state items).2.length = items.length := by
  induction items generalizing state with
  | nil => rfl
  | cons item items ih => simp only [transcript, List.length_cons, ih]

/-- Each reply is made in the state that the items before it have left. -/
theorem getElem?_transcript {σ : Type} (answer : σ → String → σ × Reply) (state : σ)
    (items : List Item) (i : Nat) :
    (transcript answer state items).2[i]? =
      items[i]?.map fun item => (respond answer (transcript answer state (items.take i)).1 item).2 := by
  induction items generalizing state i with
  | nil => rfl
  | cons item items ih =>
    cases i with
    | zero => rfl
    | succ i => simpa only [transcript, List.getElem?_cons_succ, List.take_succ_cons] using ih _ i

/-- Whatever ends a session, its state is that after the first so many items. -/
theorem exists_take_of_converse {σ : Type} (answer : σ → String → σ × Reply) (state : σ) (sink : Sink)
    (items : List Item) :
    ∃ n, (converse answer state sink items).1 = (transcript answer state (items.take n)).1 := by
  induction items generalizing state sink with
  | nil => exact ⟨0, rfl⟩
  | cons item items ih =>
    rw [converse]
    dsimp only
    rcases hwrite : sink.writeLine (respond answer state item).2.render with ⟨sink', _ | fault⟩
    · obtain ⟨n, hn⟩ := ih (respond answer state item).1 sink'
      exact ⟨n + 1, hn⟩
    · exact ⟨1, rfl⟩

theorem exists_take_of_serve {σ : Type} (answer : σ → String → σ × Reply) (state : σ) (src : Source)
    (sink : Sink) :
    ∃ n, (serve answer state src sink).state = (transcript answer state (src.items.1.take n)).1 := by
  obtain ⟨n, hn⟩ := exists_take_of_converse answer state sink src.items.1
  refine ⟨n, ?_⟩
  rw [← hn, serve]
  dsimp only
  rcases converse answer state sink src.items.1 with ⟨state', sink', _ | fault⟩ <;> rfl

theorem serve_state_of_nil {σ : Type} (answer : σ → String → σ × Reply) (state : σ) {src : Source}
    (h : src.items.1 = []) (sink : Sink) : (serve answer state src sink).state = state := by
  simp only [serve, h, converse]

/-- The one item is answered before its reply can fail. -/
theorem serve_state_of_singleton {σ : Type} (answer : σ → String → σ × Reply) (state : σ) {src : Source}
    {item : Item} (h : src.items.1 = [item]) (sink : Sink) :
    (serve answer state src sink).state = (respond answer state item).1 := by
  simp only [serve, h, converse]
  rcases sink.writeLine (respond answer state item).2.render with ⟨sink', _ | fault⟩ <;> rfl

theorem bytes_transcript_cons {σ : Type} (answer : σ → String → σ × Reply) (state : σ) (item : Item)
    (items : List Item) :
    Reply.bytes (transcript answer state (item :: items)).2 =
      sentLine (respond answer state item).2.render ++
        Reply.bytes (transcript answer (respond answer state item).1 items).2 := by
  simp [transcript, Reply.bytes]

/-- A session whose sink has room for all replies is that of its transcript. -/
theorem converse_of_hasRoom {σ : Type} (answer : σ → String → σ × Reply) (state : σ) {sink : Sink}
    (hchunk : ∀ taken, sink.chunk taken ≠ some 0) (hflush : sink.flushFailure = none) {items : List Item}
    (h : sink.HasRoom (Reply.bytes (transcript answer state items).2).length) :
    converse answer state sink items =
      ((transcript answer state items).1,
        (sink.take (Reply.bytes (transcript answer state items).2)).flushed items.length, none) := by
  induction items generalizing state sink with
  | nil => simp [converse, transcript, Reply.bytes, Sink.flushed]
  | cons item items ih =>
    rw [bytes_transcript_cons, List.length_append] at h
    have hwrite : sink.writeLine (respond answer state item).2.render =
        ((sink.take (sentLine (respond answer state item).2.render)).flushed 1, none) := by
      rw [Sink.writeLine_of_hasRoom hchunk (h.mono (Nat.le_add_right _ _)), hflush]
    have hrest := @ih (respond answer state item).1
      ((sink.take (sentLine (respond answer state item).2.render)).flushed 1) hchunk hflush h.take
    have hall := Sink.take_take sink (sentLine (respond answer state item).2.render)
      (Reply.bytes (transcript answer (respond answer state item).1 items).2)
    rw [converse]
    simp only [hwrite, hrest, Sink.take_flushed, Sink.flushed_flushed]
    rw [bytes_transcript_cons, hall, List.length_cons, Nat.add_comm items.length]
    rfl

theorem converse_of_isOpen {σ : Type} (answer : σ → String → σ × Reply) (state : σ) {sink : Sink}
    (h : sink.IsOpen) (items : List Item) :
    converse answer state sink items =
      ((transcript answer state items).1,
        { sink with
          written := sink.written ++ (Reply.bytes (transcript answer state items).2).toArray
          flushes := sink.flushes + items.length }, none) := by
  rw [converse_of_hasRoom answer state h.chunk h.flushFailure (Sink.hasRoom_of_room_eq_none h.room _),
    Sink.take, h.room]
  rfl

theorem serve_of_isOpen {σ : Type} (answer : σ → String → σ × Reply) (state : σ) (src : Source)
    {sink : Sink} (h : sink.IsOpen) :
    serve answer state src sink =
      ⟨(transcript answer state src.items.1).1,
        { sink with
          written := sink.written ++ (Reply.bytes (transcript answer state src.items.1).2).toArray
          flushes := sink.flushes + src.items.1.length }, src.items.2⟩ := by
  rw [serve]
  simp only [converse_of_isOpen answer state h]

end RelayStore
