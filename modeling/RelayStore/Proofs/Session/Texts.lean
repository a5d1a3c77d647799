import RelayStore.Proofs.Session.Readback

/-! # Texts sent to a node

A client sends texts as lines, one behind the other. However it lays them together, the
node reads the items of each text in turn, so it comes to the same store and writes the
same replies. What the client finds in its inbox are these replies, in their order.
-/
namespace RelayStore
open Text

def sentItems (text : String) : List Item :=
  (pieces text).filterMap Item.ofText?

def sentLines (texts : List String) : Bytes :=
  texts.flatMap sentLine

theorem filterMap_splitOn_encode (s : String) :
    ((Utf8.encode s).splitOn newline).filterMap Item.ofPiece? = sentItems s := by
  have hfun : Item.ofPiece? ∘ Utf8.encode = Item.ofText? := funext ofPiece?_encode
  rw [splitOn_encode, List.filterMap_map, hfun, sentItems]

/-- A text and its pieces are the same lines. -/
theorem sentLines_pieces (s : String) : sentLines (pieces s) = sentLine s := by
  rw [sentLine, ← flatMap_splitOn, splitOn_encode, List.flatMap_map]
  rfl

theorem splitItems_sentLines (texts : List String) (ending : Ending) :
    (splitItems (sentLines texts) ending).1 = texts.flatMap sentItems := by
  induction texts with
  | nil => cases ending <;> rfl
  | cons text texts ih =>
    have hcons : sentLines (text :: texts) = Utf8.encode text ++ newline :: sentLines texts := by
      simp [sentLines, sentLine]
    rw [hcons, splitItems_append_newline, filterMap_splitOn_encode, ih, List.flatMap_cons]

theorem Source.items_of_sentLines (src : Source) {texts : List String}
    (hbytes : src.bytes = sentLines texts) (h : src.ending ≠ .failing .interrupted) :
    src.items.1 = texts.flatMap sentItems := by
  rw [src.items_eq h, hbytes, splitItems_sentLines]

namespace Store

def replies (s : Store) (items : List Item) : List Reply :=
  (transcript reply s items).2

@[simp] theorem length_replies (s : Store) (items : List Item) :
    (s.replies items).length = items.length :=
  length_transcript reply s items

theorem replies_cons (s : Store) (item : Item) (items : List Item) :
    s.replies (item :: items) = (respond reply s item).2 :: (s.after [item]).replies items := by
  rw [← respond_fst]
  rfl

theorem replies_append (s : Store) (items more : List Item) :
    s.replies (items ++ more) = s.replies items ++ (s.after items).replies more := by
  induction items generalizing s with
  | nil => rfl
  | cons item items ih =>
    rw [List.cons_append, replies_cons, replies_cons, s.after_cons item items, ih, List.cons_append]

theorem replies_take (s : Store) (items : List Item) (n : Nat) :
    s.replies (items.take n) = (s.replies items).take n := by
  induction items generalizing s n with
  | nil => simp [replies, transcript]
  | cons item items ih =>
    cases n with
    | zero => rfl
    | succ n => rw [List.take_succ_cons, replies_cons, replies_cons, List.take_succ_cons, ih]

theorem serve_default (s : Store) (src : Source) :
    (s.serve src {}).state = s.after src.items.1 ∧
      (s.serve src {}).sink.written.toList = Reply.bytes (s.replies src.items.1) ∧
      (s.serve src {}).finish = src.items.2 := by
  rw [Store.serve, serve_of_isOpen _ _ _ Sink.isOpen_default, transcript_fst]
  exact ⟨rfl, by simp [replies], rfl⟩

theorem exchange_sentLines (s : Store) (texts : List String) :
    s.exchange (sentLines texts) =
      (s.after (texts.flatMap sentItems), Reply.bytes (s.replies (texts.flatMap sentItems))) := by
  obtain ⟨hstate, hwritten, -⟩ := s.serve_default ⟨[sentLines texts], .idle⟩
  have hbytes : Source.bytes ⟨[sentLines texts], .idle⟩ = sentLines texts := List.append_nil _
  rw [Source.items_of_sentLines _ hbytes (by simp)] at hstate hwritten
  rw [exchange, hstate, hwritten]

theorem exchange_sentLine (s : Store) (text : String) :
    s.exchange (sentLine text) = (s.after (sentItems text), Reply.bytes (s.replies (sentItems text))) := by
  have h := s.exchange_sentLines [text]
  simpa only [sentLines, List.flatMap_cons, List.flatMap_nil, List.append_nil] using h

theorem IsClean.isLine_replies {s : Store} (hs : s.IsClean) (items : List Item) :
    ∀ r ∈ s.replies items, r.IsLine := by
  intro r hr
  obtain ⟨i, item, -, rfl⟩ := (s.answers_transcript items).exists_item hr
  exact (hs.after _).isLine_respond item

/-- The items that a session answers into a sink, up to the one whose reply cannot be written. -/
def answered (s : Store) (sink : Sink) : List Item → List Item
  | [] => []
  | item :: items =>
    match sink.writeLine (respond reply s item).2.render with
    | (_, some _) => [item]
    | (sink, none) => item :: answered (respond reply s item).1 sink items

theorem answered_isPrefix (s : Store) (sink : Sink) (items : List Item) :
    s.answered sink items <+: items := by
  induction items generalizing s sink with
  | nil => exact List.nil_prefix
  | cons item items ih =>
    rw [answered]
    rcases sink.writeLine (respond reply s item).2.render with ⟨sink', _ | fault⟩
    · exact List.cons_prefix_cons.mpr ⟨rfl, ih _ _⟩
    · exact List.cons_prefix_cons.mpr ⟨rfl, List.nil_prefix⟩

theorem converse_fst (s : Store) (sink : Sink) (items : List Item) :
    (converse reply s sink items).1 = s.after (s.answered sink items) := by
  induction items generalizing s sink with
  | nil => rfl
  | cons item items ih =>
    rw [converse, answered]
    dsimp only
    rcases sink.writeLine (respond reply s item).2.render with ⟨sink', _ | fault⟩
    · exact (ih _ _).trans (by rw [s.after_cons item, s.respond_fst])
    · exact s.respond_fst item

theorem serve_state (s : Store) (src : Source) (sink : Sink) :
    (s.serve src sink).state = s.after (s.answered sink src.items.1) := by
  rw [← converse_fst, Store.serve, RelayStore.serve]
  dsimp only
  rcases converse reply s sink src.items.1 with ⟨s', sink', _ | fault⟩ <;> rfl

end Store

end RelayStore
