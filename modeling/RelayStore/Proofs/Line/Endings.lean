import RelayStore.Proofs.Line.Sent

/-! # Endings that make no difference

A line ends in a newline, with a return before it or without; the last one may also end with the
stream, with a return before that or without. What is read of a line does not depend on which of
these it is, nor does it depend on the ending whether a line is too long. So sessions on streams
that differ in their endings alone are the same session.
-/
namespace RelayStore

structure IsRaw (line : Bytes) : Prop where
  newline_not_mem : newline ∉ line
  return_not_last : line.getLast? ≠ some carriageReturn

def Item.ofRaw? (line : Bytes) : Option Item :=
  if 65536 < line.length then some .tooLong
  else if Text.isBlank (Utf8.decode line) then none
  else some (.line (Utf8.decode line))

def IsReturn (rs : Bytes) : Prop :=
  rs = [] ∨ rs = [carriageReturn]

/-- Bytes that consist of these lines with an ending each. Only the last may lack the newline. -/
inductive Terminated : List Bytes → Bytes → Prop
  | nil : Terminated [] []
  | last {line rs : Bytes} (h : IsReturn rs) : Terminated [line] (line ++ rs)
  | cons {line rs rest : Bytes} {lines : List Bytes} (h : IsReturn rs)
    (hrest : Terminated lines rest) : Terminated (line :: lines) (line ++ rs ++ newline :: rest)

section Raw
variable {line rs : Bytes}

theorem IsReturn.newline_not_mem (h : IsReturn rs) : newline ∉ rs := by
  rcases h with rfl | rfl <;> decide

theorem IsReturn.length_le (h : IsReturn rs) : rs.length ≤ 1 := by
  rcases h with rfl | rfl <;> decide

theorem IsRaw.stripReturns_append (h : IsRaw line) (hrs : IsReturn rs) :
    stripReturns (line ++ rs) = line := by
  have hself : line.rdropWhile (· == carriageReturn) = line := by
    rw [List.rdropWhile_eq_self_iff]
    intro hne hlast
    exact h.return_not_last (by rw [List.getLast?_eq_getLast_of_ne_nil hne, eq_of_beq hlast])
  rcases hrs with rfl | rfl
  · rw [List.append_nil, stripReturns_eq, hself]
  · rw [stripReturns_eq, List.rdropWhile_concat_pos _ _ _ (by decide), hself]

theorem IsRaw.newline_not_mem_append (h : IsRaw line) (hrs : IsReturn rs) : newline ∉ line ++ rs := by
  rw [List.mem_append]
  exact fun hm => hm.elim h.newline_not_mem hrs.newline_not_mem

/-- The window has room for the return, so it is the line alone that may be too long. -/
theorem IsRaw.ofPiece?_append (h : IsRaw line) (hrs : IsReturn rs) :
    Item.ofPiece? (line ++ rs) = Item.ofRaw? line := by
  have hlong : maxLine + 1 < (line ++ rs).length ∨ maxLine < line.length ↔ 65536 < line.length := by
    have := hrs.length_le
    unfold maxLine
    rw [List.length_append]
    omega
  unfold Item.ofPiece? Item.ofRaw?
  simp only [h.stripReturns_append hrs, hlong]

end Raw

/-! ## Streams and sessions -/

theorem Terminated.splitItems_eq {lines : List Bytes} {bs : Bytes} (h : Terminated lines bs)
    (hraw : ∀ line ∈ lines, IsRaw line) :
    splitItems bs .closed = (lines.filterMap Item.ofRaw?, .closed) := by
  induction h with
  | nil => rfl
  | @last line rs hrs =>
    have hline := List.forall_mem_singleton.mp hraw
    rw [splitItems, List.splitOn_eq_singleton (hline.newline_not_mem_append hrs), List.filterMap_cons,
      List.filterMap_cons, hline.ofPiece?_append hrs]
    rfl
  | @cons line rs rest lines hrs hrest ih =>
    obtain ⟨hline, hlines⟩ := List.forall_mem_cons.mp hraw
    rw [splitItems_append_newline, ih hlines, List.splitOn_eq_singleton (hline.newline_not_mem_append hrs),
      List.filterMap_cons, List.filterMap_cons, hline.ofPiece?_append hrs]
    cases Item.ofRaw? line <;> rfl

theorem Source.items_of_terminated {src : Source} {lines : List Bytes} (hraw : ∀ line ∈ lines, IsRaw line)
    (h : Terminated lines src.bytes) (hend : src.ending = .closed) :
    src.items = (lines.filterMap Item.ofRaw?, .closed) := by
  rw [src.items_eq (by simp [hend]), hend, h.splitItems_eq hraw]

/-- A session does not see its stream but for what is read of it. -/
theorem serve_of_items_eq {σ : Type} (answer : σ → String → σ × Reply) (state : σ) (sink : Sink)
    {src src' : Source} (h : src'.items = src.items) :
    serve answer state src' sink = serve answer state src sink := by
  rw [serve, serve, h]

/-- Two streams of the same lines, whatever the ending of each line is in the one and in the other
and however they are cut into reads. Of both the same is read: a line of more than 65536 bytes is
too long, and all others are reported with their text unless they are blank. So whatever it is that
answers, a session on the one is the session on the other, with its replies, with the state that
it leaves, and with its end; this holds of a store alone and of a node that relays. -/
theorem endings_unseen {lines : List Bytes} (hraw : ∀ line ∈ lines, IsRaw line) {src src' : Source}
    (h : Terminated lines src.bytes) (h' : Terminated lines src'.bytes)
    (hend : src.ending = .closed) (hend' : src'.ending = .closed) :
    src.items = (lines.filterMap Item.ofRaw?, .closed) ∧
      src'.items = (lines.filterMap Item.ofRaw?, .closed) ∧
      (∀ (s : Store) (sink : Sink), s.serve src' sink = s.serve src sink) ∧
      ∀ (σ : Type) (answer : σ → String → σ × Reply) (state : σ) (sink : Sink),
        serve answer state src' sink = serve answer state src sink := by
  have hitems := Source.items_of_terminated hraw h hend
  have hitems' := Source.items_of_terminated hraw h' hend'
  have hsame : src'.items = src.items := hitems'.trans hitems.symm
  exact ⟨hitems, hitems', fun s sink => serve_of_items_eq Store.reply s sink hsame,
    fun _ answer state sink => serve_of_items_eq answer state sink hsame⟩

theorem isRaw_replicate (n : Nat) : IsRaw (List.replicate n 0x76) where
  newline_not_mem h := absurd (List.eq_of_mem_replicate h) (by decide)
  return_not_last h := absurd (List.eq_of_mem_replicate (List.mem_of_getLast? h)) (by decide)

/-- A line that is one byte too long and one that just fits. The newline of the first is the last
byte that is looked at on the one stream, and lies beyond what is looked at on the other. -/
theorem endings_unseen_at_limit :
    let long : Bytes := List.replicate 65537 0x76
    let full : Bytes := List.replicate 65536 0x76
    let src : Source := ⟨[long ++ [newline], full], .closed⟩
    let src' : Source := ⟨[long, [carriageReturn], newline :: full, [carriageReturn]], .closed⟩
    (∀ line ∈ [long, full], IsRaw line) ∧ Terminated [long, full] src.bytes ∧
      Terminated [long, full] src'.bytes ∧
      ∀ sink, Store.empty.serve src' sink = Store.empty.serve src sink := by
  intro long full
  have hlong : IsRaw long := isRaw_replicate 65537
  have hfull : IsRaw full := isRaw_replicate 65536
  -- The two lines stay variables, or they would be computed.
  clear_value long full
  intro src src'
  have hraw : ∀ line ∈ [long, full], IsRaw line := by simp [hlong, hfull]
  have h : Terminated [long, full] src.bytes := by
    have hbytes : src.bytes = long ++ [] ++ newline :: (full ++ []) := by simp [src, Source.bytes]
    exact hbytes ▸ .cons (.inl rfl) (.last (.inl rfl))
  have h' : Terminated [long, full] src'.bytes := by
    have hbytes : src'.bytes = long ++ [carriageReturn] ++ newline :: (full ++ [carriageReturn]) := by
      simp [src', Source.bytes]
    exact hbytes ▸ .cons (.inr rfl) (.last (.inr rfl))
  exact ⟨hraw, h, h', (endings_unseen hraw h h' rfl rfl).2.2.1 Store.empty⟩

end RelayStore
