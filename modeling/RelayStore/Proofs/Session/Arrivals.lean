import Mathlib.Data.List.Count
import RelayStore.Proofs.Session.Texts

/-! # Arrivals

The lines of several connections come to a node in some order. Each connection has its own lines
and its own replies among them, and those of the others do not change which they are.
-/
namespace RelayStore

abbrev Arrivals := List (Nat × Item)

namespace Arrivals

def items (run : Arrivals) : List Item :=
  run.map Prod.snd

def on (run : Arrivals) (conn : Nat) : List Item :=
  items (run.filter fun a => a.1 = conn)

/-- The replies that go to one connection, of the replies to all lines. -/
def repliesOn (run : Arrivals) (conn : Nat) (replies : List Reply) : List Reply :=
  ((run.zip replies).filter fun a => a.1.1 = conn).map Prod.snd

def ofConn (conn : Nat) (items : List Item) : Arrivals :=
  items.map (conn, ·)

variable (run more : Arrivals) (conn : Nat)

theorem mem_on {run : Arrivals} {a : Nat × Item} (h : a ∈ run) : a.2 ∈ run.on a.1 :=
  List.mem_map_of_mem (List.mem_filter.mpr ⟨h, decide_eq_true rfl⟩)

@[simp] theorem items_append : items (run ++ more) = run.items ++ more.items :=
  List.map_append

theorem on_append : on (run ++ more) conn = run.on conn ++ more.on conn := by
  rw [on, List.filter_append, items_append, on, on]

theorem repliesOn_append {replies : List Reply} (hlength : replies.length = run.length)
    (rest : List Reply) :
    repliesOn (run ++ more) conn (replies ++ rest) =
      run.repliesOn conn replies ++ more.repliesOn conn rest := by
  rw [repliesOn, List.zip_append hlength.symm, List.filter_append, List.map_append, repliesOn, repliesOn]

theorem on_append_singleton (a : Nat × Item) :
    on (run ++ [a]) conn = run.on conn ++ if a.1 = conn then [a.2] else [] := by
  rw [on_append]
  by_cases h : a.1 = conn <;> simp [on, items, h]

theorem repliesOn_append_singleton {run : Arrivals} (a : Nat × Item) {replies : List Reply}
    (hlength : replies.length = run.length) (r : Reply) :
    repliesOn (run ++ [a]) conn (replies ++ [r]) =
      run.repliesOn conn replies ++ if a.1 = conn then [r] else [] := by
  rw [repliesOn_append _ _ _ hlength]
  by_cases h : a.1 = conn <;> simp [repliesOn, h]

/-! ## One connection -/

variable (is : List Item)

@[simp] theorem items_ofConn : items (ofConn conn is) = is := by
  rw [items, ofConn, List.map_map]
  exact List.map_id is

theorem on_ofConn : on (ofConn conn is) conn = is := by
  have hall : (ofConn conn is).filter (fun a => a.1 = conn) = ofConn conn is := by
    simp [ofConn, List.filter_map, Function.comp_def]
  rw [on, hall, items_ofConn]

theorem on_ofConn_of_ne {conn : Nat} {other : Nat} (h : conn ≠ other) : on (ofConn conn is) other = [] := by
  have hnone : (ofConn conn is).filter (fun a => a.1 = other) = [] := by
    simp [ofConn, List.filter_map, Function.comp_def, h]
  rw [on, hnone]
  rfl

theorem repliesOn_ofConn {is : List Item} {replies : List Reply} (hlength : replies.length = is.length) :
    (ofConn conn is).repliesOn conn replies = replies := by
  induction is generalizing replies with
  | nil =>
    rw [List.length_eq_zero_iff.mp hlength]
    rfl
  | cons item is ih =>
    cases replies with
    | nil => cases hlength
    | cons r replies =>
      have hrest := ih (Nat.succ.inj hlength)
      simp only [repliesOn, ofConn, List.map_cons, List.zip_cons_cons, List.filter_cons_of_pos,
        decide_true] at hrest ⊢
      rw [hrest]

theorem repliesOn_ofConn_of_ne {conn : Nat} {other : Nat} (h : conn ≠ other) (replies : List Reply) :
    (ofConn conn is).repliesOn other replies = [] := by
  induction is generalizing replies with
  | nil => rfl
  | cons item is ih =>
    cases replies with
    | nil => rfl
    | cons r replies =>
      have hrest := ih replies
      simp only [repliesOn, ofConn, List.map_cons, List.zip_cons_cons, List.filter_cons_of_neg, h,
        decide_false, Bool.false_eq_true, not_false_iff] at hrest ⊢
      exact hrest

/-! ## Served from the start of a node -/

def store : Store :=
  Store.empty.after run.items

def repliesTo : List Reply :=
  run.repliesOn conn (Store.empty.replies run.items)

theorem isClean_store : run.store.IsClean :=
  Store.isClean_empty.after _

theorem store_append : store (run ++ more) = run.store.after more.items := by
  rw [store, items_append, Store.after_append, store]

theorem repliesTo_append : repliesTo (run ++ more) conn =
    run.repliesTo conn ++ more.repliesOn conn (run.store.replies more.items) := by
  have hlength : (Store.empty.replies run.items).length = run.length := by simp [items]
  rw [repliesTo, items_append, Store.replies_append, repliesOn_append _ _ _ hlength, repliesTo, store]

theorem repliesTo_append_ofConn : repliesTo (run ++ ofConn conn is) conn =
    run.repliesTo conn ++ run.store.replies is := by
  rw [repliesTo_append, items_ofConn, repliesOn_ofConn conn (by simp)]

theorem repliesTo_append_ofConn_of_ne {conn : Nat} {other : Nat} (h : conn ≠ other) :
    repliesTo (run ++ ofConn conn is) other = run.repliesTo other := by
  rw [repliesTo_append, repliesOn_ofConn_of_ne _ h, List.append_nil]

theorem length_repliesTo : (run.repliesTo conn).length = (run.on conn).length := by
  have hmap {l : Arrivals} {rs : List Reply} (h : rs.length = l.length) :
      (l.repliesOn conn rs).length = (l.on conn).length := by
    induction l generalizing rs with
    | nil => rfl
    | cons a l ih =>
      cases rs with
      | nil => cases h
      | cons r rs =>
        have hrest := ih (Nat.succ.inj h)
        by_cases hconn : a.1 = conn <;> simpa [repliesOn, on, items, hconn] using hrest
  exact hmap (by simp [items])

end Arrivals
end RelayStore
