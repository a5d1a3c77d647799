import Mathlib.Algebra.GroupWithZero.Nat
import RelayStore.Dialogue
import RelayStore.Proofs.Request.Rendered
import RelayStore.Proofs.Session.Replay

/-! # Replies that are read back

A client reads replies with the limit that a node puts on requests, but no reply is kept
within it. A name that is quoted adds twenty-four bytes, and a stored value may have grown
when the bytes of its line were decoded. All other replies are read as what they are.
-/
namespace RelayStore
open Text

/-! ## Sizes -/

/-- The runs of a split and one white character for each but the first fit into the text. -/
theorem Text.length_split_le (cs : List Char) :
    ((split cs).1.flatMap Utf8.encodeChar).length +
        ((split cs).2.map fun w => (w.flatMap Utf8.encodeChar).length + 1).sum ≤
      (cs.flatMap Utf8.encodeChar).length := by
  induction cs with
  | nil => exact Nat.le_refl _
  | cons c cs ih =>
    have hc := List.length_pos_iff.mpr (Utf8.encodeChar_ne_nil c)
    rw [split_cons, List.flatMap_cons, List.length_append]
    by_cases hwhite : isWhite c = true
    · by_cases hfirst : (split cs).1 = []
      · simp only [hfirst, List.flatMap_nil, List.length_nil] at ih
        simp only [splitStep, hwhite, Split.runs, hfirst, List.isEmpty_nil, if_true,
          List.flatMap_nil, List.length_nil]
        omega
      · simp only [splitStep, hwhite, Split.runs, List.isEmpty_iff, hfirst, if_true, if_false,
          List.flatMap_nil, List.length_nil, List.map_cons, List.sum_cons]
        omega
    · simp only [splitStep, hwhite, Bool.false_eq_true, if_false, List.flatMap_cons,
        List.length_append]
      omega

theorem Text.sum_size_tokens_le (s : String) :
    ((tokens s).map fun t => Utf8.size t + 1).sum ≤ Utf8.size s + 1 := by
  have hsplit := length_split_le s.toList
  have hmap : (tokens s).map (fun t => Utf8.size t + 1) =
      (words s.toList).map fun w => (w.flatMap Utf8.encodeChar).length + 1 := by
    rw [tokens, List.map_map]
    simp only [Function.comp_def, Utf8.size, Utf8.encode_ofList]
  rw [hmap, words, Split.runs, Utf8.size, Utf8.encode]
  split
  · omega
  · rw [List.map_cons, List.sum_cons]
    omega

/-! ## Reading replies -/

def Reply.heard (r : Reply) : Item :=
  if Utf8.size r.render ≤ maxLine then .line r.render else .tooLong

def Reply.awaited (r : Reply) : Awaited :=
  if Utf8.size r.render ≤ maxLine then .reply r.render
  else .failure (.unreadableReply (.lineTooLong maxLine))

theorem Reply.awaited_ne_never (r : Reply) : r.awaited ≠ .never := by
  unfold awaited
  split <;> simp

/-- A reply that the client does not read, as it is over the limit. -/
def Reply.IsLong (r : Reply) : Prop :=
  maxLine < Utf8.size r.render

instance (r : Reply) : Decidable r.IsLong :=
  inferInstanceAs (Decidable (_ < _))

theorem Reply.awaited_eq (r : Reply) :
    r.awaited = if r.IsLong then .failure (.unreadableReply (.lineTooLong maxLine)) else .reply r.render := by
  by_cases h : r.IsLong
  · rw [if_pos h, awaited, if_neg (Nat.not_le_of_lt h)]
  · rw [if_neg h, awaited, if_pos (Nat.le_of_not_lt h)]

theorem Framer.finish_fresh (ending : Ending) : (fresh.finish ending).1 = none := by
  cases ending with
  | closed => rfl
  | idle => rfl
  | failing fault => cases fault <;> rfl

/-- Whole replies are read one by one, and nothing is left over. -/
theorem Reader.feed_replies {replies : List Reply} (h : ∀ r ∈ replies, r.IsLine) :
    Reader.feed {} (Reply.bytes replies) = ⟨.fresh, (replies.map Reply.heard).toArray⟩ := by
  have hpieces := Reply.splitOn_bytes fun r hr => (h r hr).1.newline_not_mem
  have hitems : (replies.map fun r => Utf8.encode r.render).filterMap Item.ofPiece? =
      replies.map Reply.heard := by
    rw [List.filterMap_map, ← List.filterMap_eq_map]
    apply List.filterMap_congr
    intro r hr
    simp only [Function.comp_apply, ofPiece?_encode, Item.ofText?_of_isSpaced (h r hr).1 (h r hr).2,
      Reply.heard]
  have hreader := Source.reader_eq ⟨[Reply.bytes replies], .closed⟩
  have hbytes : Source.bytes ⟨[Reply.bytes replies], .closed⟩ = Reply.bytes replies :=
    List.append_nil _
  rw [hbytes, hpieces] at hreader
  simpa [← Framer.fresh_eq_holding, hitems] using hreader

/-- However replies come and whatever follows them, they are read one by one. -/
theorem Source.items_of_replies {src : Source} {replies : List Reply}
    (hbytes : src.bytes = Reply.bytes replies) (h : ∀ r ∈ replies, r.IsLine) :
    src.items.1 = replies.map Reply.heard := by
  rw [bytes] at hbytes
  rw [items, Reader.foldl_feed, hbytes, Reader.feed_replies h]
  simp [Framer.finish_fresh]

/-- A client that has read whole replies so far finds those that come behind them. -/
theorem Inbox.receive_replies {replies : List Reply} (h : ∀ r ∈ replies, r.IsLine)
    (ready : List Item) :
    Inbox.receive { ready } (Reply.bytes replies) =
      { ready := ready ++ replies.map Reply.heard } := by
  have hfeed : Reader.feed { framer := .fresh } (Reply.bytes replies) =
      ⟨.fresh, (replies.map Reply.heard).toArray⟩ := Reader.feed_replies h
  simp only [receive, hfeed]

/-- What a client comes to that reads a reply next. -/
theorem Inbox.await_heard (r : Reply) (rest : List Item) :
    Inbox.await { ready := r.heard :: rest } = (r.awaited, { ready := rest }) := by
  unfold Reply.heard Reply.awaited
  split <;> rfl

/-- The client has its reply once it is written, and nothing is left over. -/
theorem Inbox.await_receive {reply : Reply} (h : reply.IsLine) :
    (({} : Inbox).receive (sentLine reply.render)).await = (reply.awaited, {}) := by
  have hone : ∀ r ∈ [reply], r.IsLine := by
    intro r hr
    rwa [List.mem_singleton.mp hr]
  have hbytes : sentLine reply.render = Reply.bytes [reply] := by simp [Reply.bytes]
  rw [hbytes, receive_replies hone, List.nil_append, List.map_singleton, await_heard]

/-! ## Stores that sessions leave -/

/-- A store that sessions on such streams can leave, whatever ended them. -/
inductive Store.ReachedBy (P : Source → Prop) : Store → Prop
  | empty : ReachedBy P .empty
  | serve {s : Store} {src : Source} (sink : Sink) (hs : ReachedBy P s) (hsrc : P src) :
    ReachedBy P (s.serve src sink).state

def Source.IsText (src : Source) : Prop :=
  ∃ text, src.bytes = Utf8.encode text

namespace Store

theorem serve_of_item (s : Store) {src : Source} {item : Item} (h : src.items.1 = [item]) :
    (s.serve src {}).state = (respond reply s item).1 ∧
      (s.serve src {}).sink.written.toList = Reply.bytes [(respond reply s item).2] := by
  rw [Store.serve, serve_of_isOpen _ _ _ Sink.isOpen_default, h]
  simp [transcript]

theorem exchange_of_item (s : Store) {bytes : Bytes} {item : Item}
    (h : (Source.items ⟨[bytes], .idle⟩).1 = [item]) :
    s.exchange bytes = ((respond reply s item).1, sentLine (respond reply s item).2.render) := by
  obtain ⟨hstate, hwritten⟩ := s.serve_of_item h
  rw [exchange, hstate, hwritten]
  simp [Reply.bytes]

theorem exists_take_of_serve (s : Store) (src : Source) (sink : Sink) :
    ∃ n, (s.serve src sink).state = s.after (src.items.1.take n) := by
  obtain ⟨n, hn⟩ := RelayStore.exists_take_of_serve reply s src sink
  exact ⟨n, hn.trans (s.transcript_fst _)⟩

theorem ReachedBy.exists_line {P : Source → Prop} {s : Store} (hs : s.ReachedBy P) {key value : String}
    (hget : s.get? key = some value) :
    ∃ src text r, P src ∧ .line text ∈ src.items.1 ∧ Request.parse text = .ok r ∧
      r.command = .set key value := by
  induction hs with
  | empty =>
    rw [get?_empty] at hget
    cases hget
  | @serve s src sink _ hsrc ih =>
    obtain ⟨n, hn⟩ := s.exists_take_of_serve src sink
    rw [hn] at hget
    rcases get?_after_eq_some hget with hget | ⟨text, r, hmem, hparse, hset⟩
    · exact ih hget
    · exact ⟨src, text, r, hsrc, List.mem_of_mem_take hmem, hparse, hset⟩

theorem ReachedBy.isClean {P : Source → Prop} {s : Store} (hs : s.ReachedBy P) : s.IsClean := by
  intro key value hget
  obtain ⟨src, text, r, -, -, hparse, hset⟩ := hs.exists_line hget
  exact isToken_of_set hparse hset

end Store

theorem Item.size_le_of_ofText? {s text : String} (h : ofText? s = some (.line text)) :
    Utf8.size text ≤ maxLine := by
  unfold ofText? at h
  split at h
  · cases h
  split at h
  · cases h
  · next hlong _ =>
    cases h
    omega

theorem Source.IsText.size_le {src : Source} (h : src.IsText) {text : String}
    (hmem : .line text ∈ src.items.1) : Utf8.size text ≤ maxLine := by
  obtain ⟨whole, hbytes⟩ := h
  obtain ⟨piece, hpiece, hitem⟩ := Source.exists_piece hmem
  rw [hbytes, Utf8.encode, splitOn_flatMap_encodeChar] at hpiece
  obtain ⟨cs, -, rfl⟩ := List.mem_map.mp hpiece
  rw [← Utf8.encode_ofList, ofPiece?_encode] at hitem
  exact Item.size_le_of_ofText? hitem

/-- A line that sets a key leaves room for the name, the key, the value and what parts them. -/
theorem Request.size_of_set {text key value : String} {r : Request} (hparse : parse text = .ok r)
    (hset : r.command = .set key value) :
    Utf8.size key + 4 ≤ Utf8.size text ∧ Utf8.size value + 4 ≤ Utf8.size text := by
  obtain ⟨hkey, hvalue⟩ := Store.isToken_of_set hparse hset
  have hkey := Utf8.size_pos hkey.1
  have hvalue := Utf8.size_pos hvalue.1
  have hsum := sum_size_tokens_le text
  obtain ⟨name, args, hc, htokens⟩ := parse_eq_ok hparse
  have hargs : args = [key, value] := by
    rw [← Command.arguments_of_ofTokens hc, hset]
    rfl
  have hname (h : name ∈ tokens text) : 0 < Utf8.size name :=
    Utf8.size_pos (isToken_of_mem_tokens h).1
  subst hargs
  rcases htokens with ⟨-, htokens, -⟩ | ⟨-, mark, htokens, -⟩
  · have hname := hname (by simp [htokens])
    simp only [htokens, List.map_cons, List.map_nil, List.sum_cons, List.sum_nil] at hsum
    omega
  · have hname := hname (by simp [htokens])
    simp only [htokens, List.map_cons, List.map_nil, List.sum_cons, List.sum_nil] at hsum
    omega

end RelayStore
