import RelayStore.Proofs.Cluster.Interleaved

/-! # When a key is said to be absent

What a node holds at a key is what the last change of that key has left there. A client that
asks for the key is told the value as it is, or a word of the node if there is none. As that
word is a token it is also a value that can be stored, and then a client can not tell the two
apart. All other values are told apart from an absent key.
-/
namespace RelayStore
open Text

/-! ## The last change of a key -/

/-- The command of a line that changes what is stored at a key. -/
def Item.change? (key : String) (item : Item) : Option Command :=
  ((Request.ofItem? item).map Request.command).filter fun c => c.isMutation && c.key = key

def lastChange? (key : String) (items : List Item) : Option Command :=
  (items.filterMap (Item.change? key)).getLast?

theorem lastChange?_append_singleton (key : String) (items : List Item) (item : Item) :
    lastChange? key (items ++ [item]) = (item.change? key).or (lastChange? key items) := by
  cases hitem : item.change? key <;> simp [lastChange?, List.filterMap_append, hitem]

theorem key_of_lastChange? {key : String} {items : List Item} {c : Command}
    (h : lastChange? key items = some c) : c.key = key := by
  obtain ⟨item, -, hitem⟩ := List.mem_filterMap.mp (List.mem_of_getLast? h)
  have hchanges := (Option.filter_eq_some_iff.mp hitem).2
  simp only [Bool.and_eq_true, decide_eq_true_eq] at hchanges
  exact hchanges.2

namespace Store

theorem get?_after_item (s : Store) (item : Item) (key : String) :
    (s.after [item]).get? key = (item.change? key).elim (s.get? key) Command.outcome := by
  cases hitem : Request.ofItem? item with
  | none =>
    rw [after_of_not_taken _ hitem, Item.change?, hitem]
    rfl
  | some r =>
    rw [after_of_taken _ hitem, Item.change?, hitem, Option.map_some, Option.filter_some]
    cases hmut : r.command.isMutation with
    | false =>
      rw [apply_of_not_mutation hmut]
      rfl
    | true =>
      rw [get?_apply hmut]
      by_cases hkey : r.command.key = key <;> simp [hkey]

/-- What lines leave at a key is what the last of them leaves there that changes it. -/
theorem get?_after (s : Store) (items : List Item) (key : String) :
    (s.after items).get? key = (lastChange? key items).elim (s.get? key) Command.outcome := by
  induction items using List.reverseRecOn with
  | nil => rfl
  | append_singleton items item ih =>
    rw [after_append, get?_after_item, ih, lastChange?_append_singleton]
    cases item.change? key <;> rfl

theorem get?_after_empty_eq_some_iff {items : List Item} {key value : String} :
    (empty.after items).get? key = some value ↔ lastChange? key items = some (.set key value) := by
  rw [get?_after, get?_empty]
  constructor
  · intro h
    cases hlast : lastChange? key items with
    | none => simp [hlast] at h
    | some c =>
      rw [hlast] at h
      rw [c.eq_set_of_outcome h, key_of_lastChange? hlast]
  · intro h
    rw [h]
    rfl

end Store

/-! ## What a client is told -/

def Cluster.fetch (c : Cluster) (i : Nat) (key : String) : String :=
  (c.handle i (Command.get key).render).2.render

theorem Reply.render_replyTo_get (s : Store) (key : String) :
    (s.replyTo (.get key)).render = (s.get? key).getD absentWord := by
  rw [Store.replyTo]
  cases s.get? key <;> rfl

theorem Cluster.fetch_eq {key : String} (hkey : IsToken key) (c : Cluster) (i : Nat) :
    c.fetch i key = ((c.storeAt i).get? key).getD Reply.absentWord := by
  have hclean : (Command.get key).IsClean := List.forall_mem_singleton.mpr hkey
  have hreply := Traffic.respond_answer_snd i { cluster := c } (.line (Command.get key).render)
  rw [Store.respond_of_parse _ (Request.parse_render hclean)] at hreply
  rw [fetch, ← Reply.render_replyTo_get]
  exact congrArg Reply.render hreply

/-- A client that asks a node for a key is told `None` if nothing is stored there, and also if
`None` itself is stored there, but at no other value. So of two nodes, one with the key and one
without, both give the same reply exactly if the one has `None` as its value. That value stands
in a node that was sent lines from its start on exactly if the last change of the key among them
has set it, whatever the node's neighbour is, if the relays of each line are over before the next
one. -/
theorem absence_told {key : String} (hkey : IsToken key) :
    (∀ (c : Cluster) (i : Nat), c.fetch i key = "None" ↔
        (c.storeAt i).get? key = none ∨ (c.storeAt i).get? key = some "None") ∧
      (∀ (c c' : Cluster) (i i' : Nat),
        (c.storeAt i).get? key ≠ none → (c'.storeAt i').get? key = none →
        (c.fetch i key = c'.fetch i' key ↔ (c.storeAt i).get? key = some "None")) ∧
      ∀ (c : Cluster) (i : Nat) (items : List Item), i < c.size → c.storeAt i = .empty →
        (∀ line, .line line ∈ items → '\n' ∉ line.toList) →
        let c' := (transcript (Cluster.answerAt i) c items).1
        c'.fetch i key = "None" ↔
          (c'.storeAt i).get? key = none ∨ lastChange? key items = some (.set key "None") := by
  have htold (c : Cluster) (i : Nat) : c.fetch i key = "None" ↔
      (c.storeAt i).get? key = none ∨ (c.storeAt i).get? key = some "None" := by
    rw [c.fetch_eq hkey]
    cases (c.storeAt i).get? key <;> simp [Reply.absentWord]
  refine ⟨htold, ?_, ?_⟩
  · intro c c' i i' hstored habsent
    rw [(htold c' i').mpr (.inl habsent), htold, or_iff_right hstored]
  · intro c i items hi hempty hlines c'
    obtain ⟨htable, -⟩ := transcript_answerAt hi (congrArg Store.table hempty) hlines
    have hget : (c'.storeAt i).get? key = (Store.empty.after items).get? key := by
      rw [Store.get?, htable, Store.get?]
    rw [htold, hget, Store.get?_after_empty_eq_some_iff]

/-- A node whose client has set a key, and whose neighbour then sets it to `None`. -/
theorem absence_told_word :
    let start : Cluster := #[{ peer := .node 1 }, {}]
    let items : List Item := [.line "SET k v", .line "propagate set k None", .line "DEL j", .line "GET k"]
    let c := (transcript (Cluster.answerAt 0) start items).1
    IsToken "k" ∧ (∀ line, .line line ∈ items → '\n' ∉ line.toList) ∧
      lastChange? "k" items = some (.set "k" "None") ∧ c.fetch 0 "k" = "None" := by
  intro start items c
  have hkey : IsToken "k" := by decide
  have hlines : ∀ line, .line line ∈ items → '\n' ∉ line.toList := by
    intro line hmem
    have hline : line = "SET k v" ∨ line = "propagate set k None" ∨ line = "DEL j" ∨ line = "GET k" := by
      simpa [items] using hmem
    rcases hline with rfl | rfl | rfl | rfl <;> decide
  have hlast : lastChange? "k" items = some (.set "k" "None") := by decide
  exact ⟨hkey, hlines, hlast,
    ((absence_told hkey).2.2 start 0 items (by decide) rfl hlines).mpr (.inr hlast)⟩

/-- A node that was set a key to `None` and one that was sent nothing: the key is stored in the one
and not in the other, and both say that it is absent. -/
theorem absence_mistaken :
    let start : Cluster := #[{}]
    let c := (transcript (Cluster.answerAt 0) start [.line "SET k None"]).1
    let c' := (transcript (Cluster.answerAt 0) start []).1
    IsToken "k" ∧ (c.storeAt 0).get? "k" = some "None" ∧ (c'.storeAt 0).get? "k" = none ∧
      ¬ (c.fetch 0 "k" = "None" ↔ (c.storeAt 0).get? "k" = none) ∧ c.fetch 0 "k" = c'.fetch 0 "k" := by
  intro start c c'
  have hkey : IsToken "k" := by decide
  have hstored : (c.storeAt 0).get? "k" = some "None" := by decide
  have habsent : (c'.storeAt 0).get? "k" = none := by decide
  have htold : c.fetch 0 "k" = "None" := by rw [c.fetch_eq hkey, hstored, Option.getD_some]
  have htold' : c'.fetch 0 "k" = "None" := by rw [c'.fetch_eq hkey, habsent]; rfl
  refine ⟨hkey, hstored, habsent, ?_, htold.trans htold'.symm⟩
  rw [htold, hstored]
  simp

end RelayStore
