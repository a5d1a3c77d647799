import Mathlib.Data.List.Nodup
import RelayStore.Proofs.Session.Arrivals

/-! # Callers

The connections to a node as their clients know them: in the order in which they were opened,
each with what has been sent on it and how much of the replies has been taken.
-/
namespace RelayStore

structure Caller where
  /-- How many were opened before it. -/
  number : Nat
  conn : Nat
  isOpen : Bool := true
  sent : List String := []
  /-- How many replies its client has taken. -/
  taken : Nat := 0

namespace Caller

def items (c : Caller) : List Item :=
  c.sent.flatMap sentItems

def isOn (conn : Nat) (c : Caller) : Bool :=
  c.isOpen && c.conn == conn

def change (conn : Nat) (f : Caller → Caller) (c : Caller) : Caller :=
  if c.isOn conn then f c else c

def shut (c : Caller) : Caller :=
  { c with isOpen := false }

def say (text : String) (c : Caller) : Caller :=
  { c with sent := c.sent ++ [text] }

def take (c : Caller) : Caller :=
  { c with taken := c.taken + 1 }

def conns (cs : List Caller) : List Nat :=
  (cs.filter (·.isOpen)).map (·.conn)

variable {cs : List Caller} {conn : Nat} {c : Caller}

theorem isOn_iff : c.isOn conn = true ↔ c.isOpen = true ∧ c.conn = conn := by
  simp [isOn]

theorem change_of_isOn (f : Caller → Caller) (h : c.isOn conn = true) : c.change conn f = f c :=
  if_pos h

theorem change_of_not_isOn (f : Caller → Caller) (h : c.isOn conn = false) : c.change conn f = c :=
  if_neg (by simp [h])

/-- A change that leaves a part as it is leaves it so whether or not the caller is the one. -/
theorem change_keeps {α : Type} (part : Caller → α) {f : Caller → Caller}
    (hf : ∀ c, part (f c) = part c) (conn : Nat) (c : Caller) : part (c.change conn f) = part c := by
  unfold change
  split
  · exact hf c
  · rfl

theorem change_change {f g : Caller → Caller} (hf : ∀ c, (f c).isOn conn = c.isOn conn) (c : Caller) :
    (c.change conn f).change conn g = c.change conn fun c => g (f c) := by
  cases hon : c.isOn conn with
  | true =>
    rw [change_of_isOn f hon, change_of_isOn g ((hf c).trans hon), change_of_isOn _ hon]
  | false =>
    rw [change_of_not_isOn f hon, change_of_not_isOn g hon, change_of_not_isOn _ hon]

theorem map_change_of_find?_eq_none (f : Caller → Caller) (h : cs.find? (isOn conn) = none) :
    cs.map (change conn f) = cs := by
  have hnone := List.find?_eq_none.mp h
  calc cs.map (change conn f) = cs.map id := by
        apply List.map_congr_left
        intro d hd
        exact change_of_not_isOn f (by simpa using hnone d hd)
    _ = cs := List.map_id cs

theorem mem_conns_of_isOn {d : Caller} (hd : d ∈ cs) (h : d.isOn conn = true) : conn ∈ conns cs := by
  obtain ⟨hopen, hconn⟩ := isOn_iff.mp h
  exact List.mem_map.mpr ⟨d, List.mem_filter.mpr ⟨hd, hopen⟩, hconn⟩

theorem numbers_map {f : Caller → Caller} (hf : ∀ c, (f c).number = c.number) (cs : List Caller) :
    (cs.map f).map (·.number) = cs.map (·.number) := by
  rw [List.map_map]
  exact List.map_congr_left fun c _ => hf c

theorem conns_append (cs ds : List Caller) : conns (cs ++ ds) = conns cs ++ conns ds := by
  rw [conns, List.filter_append, List.map_append, conns, conns]

theorem conns_map {f : Caller → Caller} (hopen : ∀ c, (f c).isOpen = c.isOpen)
    (hconn : ∀ c, (f c).conn = c.conn) (cs : List Caller) : conns (cs.map f) = conns cs := by
  induction cs with
  | nil => rfl
  | cons c cs ih =>
    simp only [conns, List.map_cons, List.filter_cons, hopen] at ih ⊢
    split
    · rw [List.map_cons, List.map_cons, hconn, ih]
    · exact ih

/-- One caller at most is open on a connection. -/
theorem eq_of_isOn (hconns : (conns cs).Nodup) {d : Caller} (hc : c ∈ cs) (hd : d ∈ cs)
    (hon : c.isOn conn = true) (hon' : d.isOn conn = true) : c = d := by
  obtain ⟨hopen, hconn⟩ := isOn_iff.mp hon
  obtain ⟨hopen', hconn'⟩ := isOn_iff.mp hon'
  exact List.inj_on_of_nodup_map hconns (List.mem_filter.mpr ⟨hc, hopen⟩) (List.mem_filter.mpr ⟨hd, hopen'⟩)
    (hconn.trans hconn'.symm)

theorem filter_map_shut (conn : Nat) (cs : List Caller) :
    (cs.map (change conn shut)).filter (·.isOpen) =
      (cs.filter (·.isOpen)).filter (·.conn != conn) := by
  induction cs with
  | nil => rfl
  | cons c cs ih =>
    rw [List.map_cons]
    cases hopen : c.isOpen with
    | false =>
      have hsame : c.change conn shut = c := change_of_not_isOn shut (by simp [isOn, hopen])
      simp [hsame, hopen, ih]
    | true =>
      by_cases hconn : c.conn = conn
      · have hleft : c.change conn shut = c.shut := change_of_isOn shut (isOn_iff.mpr ⟨hopen, hconn⟩)
        simp [hleft, shut, hopen, hconn, ih]
      · have hsame : c.change conn shut = c := change_of_not_isOn shut (by simp [isOn, hconn])
        simp [hsame, hopen, hconn, ih]

theorem conns_map_shut (conn : Nat) (cs : List Caller) :
    conns (cs.map (change conn shut)) = (conns cs).filter (· != conn) := by
  rw [conns, filter_map_shut, conns, List.filter_map]
  rfl

end Caller
end RelayStore
