import Mathlib.Data.Set.Card
import RelayStore.Proofs.Store.Applied
import RelayStore.Proofs.Text.Order
import RelayStore.Store.Call

/-! # Calls and their history

A store holds what its calls have left: at each key the value of the last call that set it, unless
it was deleted since. What a call returns is told by the calls before it and by nothing else: a
look-up and a deletion return what stands at the key, the size is the number of keys where a value
stands, and a snapshot lists these keys with their values in the order of their bytes.
-/
namespace RelayStore.Store

def Call.Writes (key : String) : Call → Prop
  | .set k _ | .delete k => k = key
  | .get _ | .size | .isEmpty | .snapshot => False

/-- The value that the last of the calls has left at the key that writes it. -/
def Stands (past : List Call) (key value : String) : Prop :=
  ∃ before after, past = before ++ .set key value :: after ∧ ∀ c ∈ after, ¬ c.Writes key

def standing (past : List Call) : Set String :=
  {key | ∃ value, Stands past key value}

/-- The entries that stand, each once, in the order of the bytes of their keys. -/
structure Lists (past : List Call) (entries : List (String × String)) : Prop where
  mem_iff : ∀ key value, (key, value) ∈ entries ↔ Stands past key value
  ascending : entries.Pairwise fun a b => Utf8.encode a.1 < Utf8.encode b.1

inductive Told (past : List Call) : Call → Returned → Prop
  | get {key : String} {v : Option String} (h : ∀ value, v = some value ↔ Stands past key value) :
    Told past (.get key) (.value v)
  | set (key value : String) : Told past (.set key value) .nothing
  | delete {key : String} {v : Option String} (h : ∀ value, v = some value ↔ Stands past key value) :
    Told past (.delete key) (.value v)
  | size {n : Nat} (h : (standing past).encard = n) : Told past .size (.count n)
  | isEmpty {b : Bool} (h : b = true ↔ (standing past).encard = 0) : Told past .isEmpty (.flag b)
  | snapshot {entries : List (String × String)} (h : Lists past entries) :
    Told past .snapshot (.entries entries)

/-! ## What stands -/

theorem stands_append_singleton {past : List Call} {c : Call} {key value : String} :
    Stands (past ++ [c]) key value ↔ c = .set key value ∨ ¬ c.Writes key ∧ Stands past key value := by
  constructor
  · rintro ⟨before, after, hpast, hafter⟩
    induction after using List.reverseRecOn with
    | nil =>
      obtain ⟨-, hc⟩ := List.append_inj' hpast rfl
      exact .inl (List.singleton_inj.mp hc)
    | append_singleton after c' _ =>
      rw [← List.cons_append, ← List.append_assoc] at hpast
      obtain ⟨rfl, hc⟩ := List.append_inj' hpast rfl
      obtain rfl := List.singleton_inj.mp hc
      exact .inr ⟨hafter c (by simp), before, after, rfl, fun c' h => hafter c' (by simp [h])⟩
  · rintro (rfl | ⟨hc, before, after, rfl, hafter⟩)
    · exact ⟨past, [], rfl, by simp⟩
    · refine ⟨before, after ++ [c], by simp, fun c' h => ?_⟩
      rcases List.mem_append.mp h with h | h
      · exact hafter c' h
      · rwa [List.mem_singleton.mp h]

theorem not_stands_nil (key value : String) : ¬ Stands [] key value := by
  rintro ⟨before, after, h, -⟩
  exact absurd h (by simp)

/-! ## What one call leaves -/

variable (s : Store)

theorem get?_call_eq_some_iff (c : Call) (key value : String) :
    (s.call c).2.get? key = some value ↔
      c = .set key value ∨ ¬ c.Writes key ∧ s.get? key = some value := by
  cases c with
  | set k v =>
    rw [call, get?_set]
    by_cases hk : k = key <;> simp [Call.Writes, hk]
  | delete k =>
    rw [call, get?_erase]
    by_cases hk : k = key <;> simp [Call.Writes, hk]
  | get k => simp [call, Call.Writes]
  | size => simp [call, Call.Writes]
  | isEmpty => simp [call, Call.Writes]
  | snapshot => simp [call, Call.Writes]

theorem call_of_not_writes {c : Call} (h : ∀ key, ¬ c.Writes key) : (s.call c).2 = s := by
  cases c with
  | set k v => exact absurd rfl (h k)
  | delete k => exact absurd rfl (h k)
  | get k => rfl
  | size => rfl
  | isEmpty => rfl
  | snapshot => rfl

theorem table_call_call (c : Call) : ((s.call c).2.call c).2.table = (s.call c).2.table := by
  cases c with
  | set k v => exact s.table_apply_apply (.set k v)
  | delete k => exact s.table_apply_apply (.delete k)
  | get k => rfl
  | size => rfl
  | isEmpty => rfl
  | snapshot => rfl

/-! ## What calls leave -/

theorem afterCalls_append (cs more : List Call) :
    s.afterCalls (cs ++ more) = (s.afterCalls cs).afterCalls more := by
  simp only [afterCalls, List.foldl_append]

theorem get?_afterCalls (past : List Call) (key value : String) :
    (empty.afterCalls past).get? key = some value ↔ Stands past key value := by
  induction past using List.reverseRecOn with
  | nil => simpa [afterCalls] using not_stands_nil key value
  | append_singleton past c ih =>
    rw [afterCalls_append, stands_append_singleton, ← ih]
    exact get?_call_eq_some_iff _ c key value

theorem length_calls (cs : List Call) : (s.calls cs).length = cs.length := by
  induction cs generalizing s with
  | nil => rfl
  | cons c cs ih => rw [calls, List.length_cons, ih, List.length_cons]

theorem calls_append (cs more : List Call) :
    s.calls (cs ++ more) = s.calls cs ++ (s.afterCalls cs).calls more := by
  induction cs generalizing s with
  | nil => rfl
  | cons c cs ih => rw [List.cons_append, calls, ih, calls, List.cons_append]; rfl

theorem getElem?_calls (cs : List Call) (i : Nat) :
    (s.calls cs)[i]? = cs[i]?.map fun c => (s.afterCalls (cs.take i)).call c := by
  induction cs generalizing s i with
  | nil => rfl
  | cons c cs ih =>
    cases i with
    | zero => rfl
    | succ i =>
      rw [calls, List.getElem?_cons_succ, ih, List.getElem?_cons_succ, List.take_succ_cons]
      rfl

/-! ## What a call returns -/

theorem mem_snapshot (key value : String) : (key, value) ∈ s.snapshot ↔ s.get? key = some value :=
  Std.ExtTreeMap.mem_toList_iff_getElem?_eq_some

theorem snapshot_ascending : s.snapshot.Pairwise fun a b => Utf8.encode a.1 < Utf8.encode b.1 := by
  have hordered : s.snapshot.Pairwise fun a b => compare a.1 b.1 = .lt :=
    Std.ExtTreeMap.ordered_keys_toList
  exact hordered.imp fun h => Utf8.encode_lt_encode_iff.mpr (compareOfLessAndEq_eq_lt.mp h)

theorem length_snapshot : s.snapshot.length = s.size :=
  Std.ExtTreeMap.length_toList

theorem lists_snapshot (past : List Call) : Lists past (empty.afterCalls past).snapshot where
  mem_iff key value := by rw [mem_snapshot, get?_afterCalls]
  ascending := snapshot_ascending _

/-- The keys of a listing are those where a value stands, so there are as many as entries. -/
theorem Lists.encard_standing {past : List Call} {entries : List (String × String)}
    (h : Lists past entries) : (standing past).encard = entries.length := by
  have hnodup : (entries.map Prod.fst).Nodup := by
    refine List.pairwise_map.mpr (h.ascending.imp fun hlt he => ?_)
    rw [he] at hlt
    exact List.lt_irrefl _ hlt
  have hkeys : standing past = ((entries.map Prod.fst).toFinset : Set String) := by
    ext key
    simp [standing, ← h.mem_iff]
  rw [hkeys, Set.encard_coe_eq_coe_finsetCard, List.toFinset_card_of_nodup hnodup, List.length_map]

theorem encard_standing (past : List Call) :
    (standing past).encard = (empty.afterCalls past).size := by
  rw [(lists_snapshot past).encard_standing, length_snapshot]

theorem isEmpty_iff : s.isEmpty = true ↔ s.size = 0 := by
  rw [isEmpty, size, Std.ExtTreeMap.isEmpty_eq_size_beq_zero, beq_iff_eq]

theorem told_call (past : List Call) (c : Call) : Told past c ((empty.afterCalls past).call c).1 := by
  cases c with
  | get key => exact .get (get?_afterCalls past key)
  | set key value => exact .set key value
  | delete key => exact .delete (get?_afterCalls past key)
  | size => exact .size (encard_standing past)
  | isEmpty =>
    apply Told.isEmpty
    rw [isEmpty_iff, encard_standing, Nat.cast_eq_zero]
  | snapshot => exact .snapshot (lists_snapshot past)

/-- Calls on a new store, in any number and order. Each returns what the calls before it tell, and
leaves the store with what then stands at each key. A deletion returns what a look-up would have
returned. A call that writes no key leaves the store as it is, and a call made twice leaves the
entries of the call made once. What has been returned stays as it is, whatever calls follow. -/
theorem calls_told (cs : List Call) :
    (empty.calls cs).length = cs.length ∧
      (∀ i c, cs[i]? = some c → ∃ r, (empty.calls cs)[i]? = some (r, empty.afterCalls (cs.take (i + 1))) ∧
        Told (cs.take i) c r) ∧
      (∀ key value, (empty.afterCalls cs).get? key = some value ↔ Stands cs key value) ∧
      (∀ key, ((empty.afterCalls cs).call (.delete key)).1 = ((empty.afterCalls cs).call (.get key)).1) ∧
      (∀ c, (∀ key, ¬ c.Writes key) → empty.afterCalls (cs ++ [c]) = empty.afterCalls cs) ∧
      (∀ c, (empty.afterCalls (cs ++ [c, c])).table = (empty.afterCalls (cs ++ [c])).table) ∧
      ∀ more, (empty.calls (cs ++ more)).take cs.length = empty.calls cs := by
  refine ⟨empty.length_calls cs, fun i c hc => ?_, get?_afterCalls cs, fun key => rfl, fun c hc => ?_,
    fun c => ?_, fun more => ?_⟩
  · have hcall := empty.getElem?_calls cs i
    rw [hc, Option.map_some] at hcall
    have hafter : empty.afterCalls (cs.take (i + 1)) = ((empty.afterCalls (cs.take i)).call c).2 := by
      rw [List.take_add_one, hc, afterCalls_append]
      rfl
    exact ⟨_, hafter ▸ hcall, told_call (cs.take i) c⟩
  · rw [afterCalls_append]
    exact call_of_not_writes _ hc
  · rw [afterCalls_append, afterCalls_append]
    exact table_call_call _ c
  · rw [calls_append, ← empty.length_calls cs, List.take_left]

/-- A key that is set again after its deletion, and keys whose order is another one in UTF-16. -/
example : (empty.calls [.set "😀" "1", .set "\uFFFD" "", .delete "😀", .set "😀" "2", .size, .snapshot]).map
    Prod.fst = [.nothing, .nothing, .value (some "1"), .nothing, .count 2,
      .entries [("\uFFFD", ""), ("😀", "2")]] := by decide

end RelayStore.Store
