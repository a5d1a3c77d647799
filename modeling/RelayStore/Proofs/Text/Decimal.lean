import Mathlib.Algebra.GroupWithZero.Nat
import RelayStore.Text.Numeral

/-! # Numbers in decimal

A text of ASCII digits, leading zeros among them or not, is read as the number that it spells if
the limit allows that, and is too large otherwise, however many digits it has. Nothing wraps: the
reading stops at the first digit that goes over the limit, and no digit behind it brings the
value back.
-/
namespace RelayStore.Numeral

structure IsDecimal (s : String) (n : Nat) : Prop where
  ne_nil : s.toList ≠ []
  isDigit : ∀ c ∈ s.toList, c.isDigit
  value_eq : Nat.ofDigitChars 10 s.toList 0 = n

/-- The canonical text of a number, without leading zeros. -/
theorem isDecimal_toString (n : Nat) : IsDecimal (toString n) n where
  ne_nil := by simp
  isDigit c hc := by
    rw [Nat.toString_eq_repr, Nat.toList_repr] at hc
    exact Nat.isDigit_of_mem_toDigits (by decide) (by decide) hc
  value_eq := by simp

theorem digit?_of_isDigit {c : Char} (h : c.isDigit) : digit? 10 c = some (c.toNat - '0'.toNat) := by
  have hle : c.toNat ≤ 57 := by
    simp only [Char.isDigit, Bool.and_eq_true, decide_eq_true_eq] at h
    exact h.2
  have hlt : c.toNat - 48 < 10 := by omega
  simpa [digit?, h] using hlt

theorem le_ofDigitChars (cs : List Char) (acc : Nat) : acc ≤ Nat.ofDigitChars 10 cs acc := by
  rw [Nat.ofDigitChars_eq_ofDigitChars_zero]
  exact Nat.le_add_right_of_le (Nat.le_mul_of_pos_left acc (Nat.pow_pos (by decide)))

theorem readDigits_cons (limit acc : Nat) {c : Char} (h : c.isDigit) (cs : List Char) :
    readDigits limit acc (c :: cs) = if limit < 10 * acc + (c.toNat - '0'.toNat)
      then .error .tooLarge else readDigits limit (10 * acc + (c.toNat - '0'.toNat)) cs := by
  simp only [readDigits, digit?_of_isDigit h, Nat.mul_comm acc 10]

theorem readDigits_eq {limit acc : Nat} {cs : List Char} (hcs : ∀ c ∈ cs, c.isDigit) (hacc : acc ≤ limit) :
    readDigits limit acc cs = if Nat.ofDigitChars 10 cs acc ≤ limit
      then .ok (Nat.ofDigitChars 10 cs acc) else .error .tooLarge := by
  induction cs generalizing acc with
  | nil => rw [Nat.ofDigitChars_nil, if_pos hacc, readDigits]
  | cons c cs ih =>
    obtain ⟨hc, hcs⟩ := List.forall_mem_cons.mp hcs
    rw [readDigits_cons limit acc hc, Nat.ofDigitChars_cons]
    generalize 10 * acc + (c.toNat - '0'.toNat) = value
    have hle := le_ofDigitChars cs value
    by_cases hvalue : limit < value
    · rw [if_pos hvalue, if_neg (by omega)]
    · rw [if_neg hvalue]
      exact ih hcs (Nat.le_of_not_lt hvalue)

theorem IsDecimal.parse_eq {s : String} {n : Nat} (h : IsDecimal s n) (limit : Nat) :
    parse limit s = if n ≤ limit then .ok n else .error .tooLarge := by
  have hread := readDigits_eq h.isDigit (Nat.zero_le limit)
  rw [h.value_eq] at hread
  rw [parse]
  split
  · next hnil => exact absurd hnil h.ne_nil
  · next hplus => exact absurd (h.isDigit '+' (by simp [hplus])) (by decide)
  · next cs hplus => exact absurd (h.isDigit '+' (by simp [hplus])) (by decide)
  · exact hread

theorem le_max64_iff {n : Nat} : n ≤ max64 ↔ n < 2 ^ 64 :=
  Nat.lt_succ_iff.symm

/-- A number that must not be zero is looked at for its size first. -/
theorem IsDecimal.parsePositive_eq {s : String} {n : Nat} (h : IsDecimal s n) (limit : Nat) :
    parsePositive limit s = if n ≤ limit then
      if hpos : 0 < n then .ok ⟨n, hpos⟩ else .error .zero else .error .tooLarge := by
  rw [parsePositive, h.parse_eq]
  split
  · rfl
  · rfl

end RelayStore.Numeral
