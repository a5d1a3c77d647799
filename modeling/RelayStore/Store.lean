import RelayStore.Reply
import Std.Data.ExtTreeMap

/-! # The store

A store holds a finite map from keys to values, kept in ascending order of the keys, and
counts the writes that reached it. The order of texts is the order of their characters'
codes, which is also the order of their bytes in UTF-8. Erasing an absent key changes no
entry but is a write.
-/
namespace RelayStore

/-- Entries by key. Two tables are equal if they hold the same value at every key. -/
abbrev Table := Std.ExtTreeMap String String compare

structure Store where
  table : Table := ∅
  writes : Nat := 0

namespace Store

def empty : Store := {}

def get? (s : Store) (key : String) : Option String :=
  s.table[key]?

def set (s : Store) (key value : String) : Store :=
  { table := s.table.insert key value, writes := s.writes + 1 }

def erase (s : Store) (key : String) : Store :=
  { table := s.table.erase key, writes := s.writes + 1 }

def size (s : Store) : Nat :=
  s.table.size

def isEmpty (s : Store) : Bool :=
  s.table.isEmpty

def snapshot (s : Store) : List (String × String) :=
  s.table.toList

def apply (s : Store) : Command → Store
  | .get _ => s
  | .set key value => s.set key value
  | .delete key => s.erase key

def replyTo (s : Store) : Command → Reply
  | .get key =>
    match s.get? key with
    | some value => .value value
    | none => .absent
  | .set _ _ | .delete _ => .done

@[simp] theorem get?_empty (key : String) : empty.get? key = none := by
  simp [empty, get?]

theorem get?_set (s : Store) (key value k : String) :
    (s.set key value).get? k = if key = k then some value else s.get? k := by
  simp [get?, set, Std.ExtTreeMap.getElem?_insert]

theorem get?_erase (s : Store) (key k : String) :
    (s.erase key).get? k = if key = k then none else s.get? k := by
  simp [get?, erase, Std.ExtTreeMap.getElem?_erase]

theorem table_ext {s t : Store} (h : ∀ key, s.get? key = t.get? key) : s.table = t.table :=
  Std.ExtTreeMap.ext_getElem? fun key => h key

end Store
end RelayStore
