import RelayStore.Store

/-! # One command at a store

A command concerns the value at its key and no other. What it leaves there and what is replied
follow from what stood there before.
-/
namespace RelayStore

def Command.outcome : Command → Option String
  | .set _ value => some value
  | .get _ | .delete _ => none

theorem Command.eq_set_of_outcome (c : Command) {value : String} (h : c.outcome = some value) :
    c = .set c.key value := by
  cases c with
  | get key => cases h
  | set key v =>
    cases h
    rfl
  | delete key => cases h

namespace Store
variable {s s' : Store} {c : Command} {key : String}

/-! ## What a mutation leaves -/

theorem get?_apply {c : Command} (hmut : c.isMutation = true) (s : Store) (key : String) :
    (s.apply c).get? key = if c.key = key then c.outcome else s.get? key := by
  cases c with
  | get k => cases hmut
  | set k v => exact s.get?_set k v key
  | delete k => exact s.get?_erase k key

theorem writes_apply {c : Command} (hmut : c.isMutation = true) (s : Store) :
    (s.apply c).writes = s.writes + 1 := by
  cases c with
  | get k => cases hmut
  | set k v => rfl
  | delete k => rfl

theorem apply_of_not_mutation (hget : c.isMutation = false) (s : Store) : s.apply c = s := by
  cases c with
  | get k => rfl
  | set k v => cases hget
  | delete k => cases hget

theorem get?_apply_of_ne (hne : c.key ≠ key) (s : Store) : (s.apply c).get? key = s.get? key := by
  cases hmut : c.isMutation with
  | false => rw [apply_of_not_mutation hmut]
  | true => exact (get?_apply hmut s key).trans (if_neg hne)

/-! ## Stores that agree -/

theorem eq_of_table {s t : Store} (htable : s.table = t.table) (hwrites : s.writes = t.writes) :
    s = t := by
  cases s
  cases htable
  cases hwrites
  rfl

theorem get?_apply_congr (h : s'.get? key = s.get? key) (c : Command) :
    (s'.apply c).get? key = (s.apply c).get? key := by
  cases hmut : c.isMutation with
  | false => simpa only [apply_of_not_mutation hmut] using h
  | true => simp only [get?_apply hmut, h]

theorem replyTo_congr (h : s'.get? c.key = s.get? c.key) : s'.replyTo c = s.replyTo c := by
  cases c with
  | get key =>
    have hget : s'.get? key = s.get? key := h
    simp only [replyTo, hget]
  | set key value => rfl
  | delete key => rfl

theorem table_apply (h : s'.table = s.table) (c : Command) : (s'.apply c).table = (s.apply c).table :=
  table_ext fun _ => get?_apply_congr (by simp only [get?, h]) c

theorem replyTo_of_table (h : s'.table = s.table) (c : Command) : s'.replyTo c = s.replyTo c :=
  replyTo_congr (by simp only [get?, h])

/-- A command that is applied again changes nothing more. -/
theorem table_apply_apply (s : Store) (c : Command) :
    ((s.apply c).apply c).table = (s.apply c).table := by
  cases hmut : c.isMutation with
  | false => simp only [apply_of_not_mutation hmut]
  | true =>
    apply table_ext
    intro key
    simp only [get?_apply hmut]
    split <;> rfl

end Store
end RelayStore
