import RelayStore.Proofs.Cluster.Ledger
import RelayStore.Proofs.Store.Applied

/-! # A node and the others

A node makes its replies at its own store, and serving a stream writes no store but its own. So
its replies and its table are those of a node alone, as far as nothing comes back to it. A node
that is its own neighbour applies its mutations twice, which shows in nothing but the number of
its writes if each relay is over before the next line.
-/
namespace RelayStore
open Text

/-! ## Stores with the same table -/

namespace Store
variable {s s' : Store}

theorem respond_of_table (h : s'.table = s.table) (item : Item) :
    (respond reply s' item).1.table = (respond reply s item).1.table ∧
      (respond reply s' item).2 = (respond reply s item).2 := by
  cases item with
  | tooLong => exact ⟨h, rfl⟩
  | line text =>
    cases hparse : Request.parse text with
    | error e =>
      rw [respond_of_rejected _ hparse, respond_of_rejected _ hparse]
      exact ⟨h, rfl⟩
    | ok r =>
      rw [respond_of_parse _ hparse, respond_of_parse _ hparse]
      exact ⟨table_apply h r.command, replyTo_of_table h r.command⟩

end Store

namespace Traffic

/-! ## The node's own reply -/

theorem respond_answer_snd (i : Nat) (t : Traffic) (item : Item) :
    (respond (answer i) t item).2 = (respond Store.reply (t.cluster.storeAt i) item).2 := by
  cases item with
  | tooLong => rfl
  | line text =>
    cases hparse : Request.parse text with
    | error e =>
      rw [Store.respond_of_rejected _ hparse, respond, answer_of_rejected i t hparse]
    | ok r =>
      rw [Store.respond_of_parse _ hparse, respond, answer_reply i t hparse]

/-! ## The other nodes -/

theorem sameLinks_respond (j : Nat) (t : Traffic) (item : Item) :
    t.cluster.SameLinks (respond (answer j) t item).1.cluster := by
  cases item with
  | tooLong => exact .refl _
  | line text =>
    cases hparse : Request.parse text with
    | error e =>
      rw [respond, answer_of_rejected j t hparse]
    | ok r =>
      rw [respond, answer_fst_of_parse j t hparse]
      exact (Cluster.SameLinks.refl _).write j t.inFlight t.relays r.command

theorem storeAt_respond_of_ne {i j : Nat} (hne : j ≠ i) (t : Traffic) (item : Item) :
    (respond (answer j) t item).1.cluster.storeAt i = t.cluster.storeAt i := by
  cases item with
  | tooLong => rfl
  | line text =>
    cases hparse : Request.parse text with
    | error e => rw [respond, answer_of_rejected j t hparse]
    | ok r =>
      rw [respond, answer_fst_of_parse j t hparse]
      dsimp only
      by_cases hi : i < t.cluster.size
      · rw [storeAt_write j t hi, if_neg hne]
      · have hsize : (write j t r.command).cluster.size ≤ i := by
          rw [write, Cluster.size_setStore]
          exact Nat.le_of_not_lt hi
        rw [Cluster.storeAt_of_size_le _ hsize, Cluster.storeAt_of_size_le _ (Nat.le_of_not_lt hi)]

/-- A node that serves a stream leaves the links and the stores of the others as they are. -/
theorem serve_elsewhere {i j : Nat} (hne : j ≠ i) (t : Traffic) (src : Source) (sink : Sink) :
    t.cluster.SameLinks (serve (answer j) t src sink).state.cluster ∧
      (serve (answer j) t src sink).state.cluster.storeAt i = t.cluster.storeAt i := by
  obtain ⟨n, hstate⟩ := exists_take_of_serve (answer j) t src sink
  rw [hstate]
  clear hstate
  generalize src.items.1.take n = items
  induction items generalizing t with
  | nil => exact ⟨.refl _, rfl⟩
  | cons item items ih =>
    obtain ⟨hlinks, hstore⟩ := ih (respond (answer j) t item).1
    exact ⟨(sameLinks_respond j t item).trans hlinks, hstore.trans (storeAt_respond_of_ne hne t item)⟩

/-! ## One line whose relay is over -/

/-- The node's own store is that of a node alone, unless the node is its own neighbour. Then
its table is. -/
theorem storeAt_respond {i : Nat} {c : Cluster} (hi : i < c.size) {item : Item}
    (hline : ∀ line, item = .line line → '\n' ∉ line.toList) (rounds : Nat) :
    let c' := ((respond (answer i) { cluster := c } item).1.settle (rounds + 1)).cluster
    let alone := (respond Store.reply (c.storeAt i) item).1
    c.SameLinks c' ∧ (c'.storeAt i).table = alone.table ∧
      (c.peerAt i ≠ .node i → c'.storeAt i = alone) := by
  intro c' alone
  have hsame (ha : c' = c) (hb : alone = c.storeAt i) : c.SameLinks c' ∧
      (c'.storeAt i).table = alone.table ∧ (c.peerAt i ≠ .node i → c'.storeAt i = alone) := by
    rw [ha, hb]
    exact ⟨.refl c, rfl, fun _ => rfl⟩
  cases item with
  | tooLong => exact hsame (by simp only [c', respond, settle_of_inFlight_eq_nil]) rfl
  | line text =>
    have hnl := hline text rfl
    cases hparse : Request.parse text with
    | error e =>
      apply hsame
      · simp only [c', respond, answer_of_rejected i _ hparse, settle_of_inFlight_eq_nil]
      · simp only [alone, Store.respond_of_rejected _ hparse]
    | ok r =>
      have halone : alone = (c.storeAt i).apply r.command := by
        simp only [alone, Store.respond_of_parse _ hparse]
      have hstore := storeAt_answer hnl hparse rounds i c hi
      rw [List.foldl_append, ← storeAt_own c i hi r.command, storeAt_write i _ hi, if_pos rfl] at hstore
      refine ⟨sameLinks_answer hnl hparse rounds i c, ?_⟩
      rw [halone]
      by_cases hself : r.isForwarded = true ∧ c.reachablePeer i = .node i ∧
          Utf8.size (trim text) ≤ markedMax
      · rw [if_pos hself] at hstore
        have hpeer := ((c.reachablePeer_eq_node_iff).mp hself.2.1).1
        exact ⟨(congrArg Store.table hstore).trans (Store.table_apply_apply _ _),
          fun hne => absurd hpeer hne⟩
      · rw [if_neg hself] at hstore
        exact ⟨congrArg Store.table hstore, fun _ => hstore⟩

end Traffic
end RelayStore
