import RelayStore.Address.Socket
import RelayStore.Proofs.Text.Decimal

/-! # Addresses read back

The text of an IPv4 address and a port, each number in canonical decimal, is read as that address
and that port. A number is scanned up to the first character that is no digit, so the points and
the colon between the numbers are what keeps them apart.
-/
namespace RelayStore.Address
open Numeral

/-! ## Numbers -/

def EndsNumber (rest : List Char) : Prop :=
  ∀ c ∈ rest.head?, digit? 10 c = none

theorem endsNumber_nil : EndsNumber [] := by
  intro c hc
  cases hc

theorem endsNumber_cons {c : Char} (h : digit? 10 c = none) (rest : List Char) : EndsNumber (c :: rest) := by
  intro d hd
  obtain rfl := Option.some.inj hd
  exact h

def digitsOf (n : Nat) : List Nat :=
  (Nat.toDigits 10 n).map fun c => c.toNat - '0'.toNat

theorem digits_toDigits_append (n : Nat) {rest : List Char} (hrest : EndsNumber rest) :
    digits 10 (Nat.toDigits 10 n ++ rest) = (digitsOf n, rest) := by
  have hdigits : ∀ c ∈ Nat.toDigits 10 n, c.isDigit :=
    fun c hc => Nat.isDigit_of_mem_toDigits (by decide) (by decide) hc
  rw [digitsOf]
  generalize Nat.toDigits 10 n = cs at hdigits ⊢
  induction cs with
  | nil =>
    cases rest with
    | nil => rfl
    | cons c rest =>
      have hc : digit? 10 c = none := hrest c rfl
      rw [List.nil_append, digits, hc]
      rfl
  | cons c cs ih =>
    obtain ⟨hc, hcs⟩ := List.forall_mem_cons.mp hdigits
    rw [List.cons_append, digits, digit?_of_isDigit hc]
    simp only [ih hcs, List.map_cons]

theorem valueOf_digitsOf (n : Nat) : valueOf 10 (digitsOf n) = n := by
  calc valueOf 10 (digitsOf n)
      = Nat.ofDigitChars 10 (Nat.toDigits 10 n) 0 := by
        rw [valueOf, digitsOf, List.foldl_map, Nat.ofDigitChars_eq_foldl]
        simp only [Nat.mul_comm]
    _ = n := Nat.ofDigitChars_ten_toDigits

theorem digitsOf_ne_nil (n : Nat) : digitsOf n ≠ [] := by
  simp [digitsOf]

theorem length_digitsOf_le_iff {n k : Nat} (hk : 0 < k) : (digitsOf n).length ≤ k ↔ n < 10 ^ k := by
  rw [digitsOf, List.length_map]
  exact Nat.length_toDigits_le_iff (by decide) hk

theorem digitsOf_of_lt {n : Nat} (h : n < 10) : digitsOf n = [n] := by
  have hvalue : n.digitChar.toNat - 48 = n := Nat.toNat_digitChar_sub_48_of_lt_ten h
  rw [digitsOf, Nat.toDigits_of_lt_base h, List.map_singleton]
  exact congrArg ([·]) hvalue

/-- Only a number of one digit is written with a zero in front. -/
theorem head?_digitsOf_ne_zero {n : Nat} (h : 10 ≤ n) : (digitsOf n).head? ≠ some 0 := by
  induction n using Nat.strongRecOn with
  | ind n ih =>
    have hfront : digitsOf n = digitsOf (n / 10) ++ [(n % 10).digitChar.toNat - '0'.toNat] := by
      rw [digitsOf, Nat.toDigits_of_base_le (by decide) h, List.map_append, List.map_singleton, digitsOf]
    rw [hfront, List.head?_append]
    by_cases hn : n / 10 < 10
    · rw [digitsOf_of_lt hn, List.head?_cons, Option.some_or]
      intro hzero
      have := Option.some.inj hzero
      omega
    · have hrest := ih (n / 10) (by omega) (by omega)
      obtain ⟨d, ds, hds⟩ := List.exists_cons_of_ne_nil (digitsOf_ne_nil (n / 10))
      rw [hds, List.head?_cons] at hrest ⊢
      exact hrest

theorem NumberForm.allows_digitsOf {form : NumberForm} (hbase : form.base = 10) {n : Nat}
    (hlimit : n ≤ form.limit) (hlength : ∀ m ∈ form.maxDigits, (digitsOf n).length ≤ m) :
    form.allows (digitsOf n) = true := by
  have hmax : form.maxDigits.all ((digitsOf n).length ≤ ·) = true := by
    rw [Option.all_eq_true]
    exact fun m hm => decide_eq_true (hlength m hm)
  have hzeros : ((digitsOf n).head? != some 0 || (digitsOf n).length == 1) = true := by
    rcases Nat.lt_or_ge n 10 with hn | hn
    · rw [digitsOf_of_lt hn]
      exact Bool.or_true _
    · rw [bne_iff_ne.mpr (head?_digitsOf_ne_zero hn), Bool.true_or]
  simp only [allows, hbase, hmax, valueOf_digitsOf, hlimit, Bool.or_assoc, hzeros, decide_true, Bool.or_true,
    Bool.and_true, Bool.not_eq_true', List.isEmpty_eq_false_iff]
  exact digitsOf_ne_nil n

theorem number_toDigits (form : NumberForm) (hbase : form.base = 10) {n : Nat} (hlimit : n ≤ form.limit)
    (hlength : ∀ m ∈ form.maxDigits, (digitsOf n).length ≤ m) {rest : List Char}
    (hrest : EndsNumber rest) : number form (Nat.toDigits 10 n ++ rest) = some (n, rest) := by
  have hallows := NumberForm.allows_digitsOf hbase hlimit hlength
  simp only [number, hbase, digits_toDigits_append n hrest, hallows, valueOf_digitsOf, if_true]

/-! ## Addresses -/

theorem V4.octet_toDigits (n : UInt8) {rest : List Char} (hrest : EndsNumber rest) :
    V4.octet (Nat.toDigits 10 n.toNat ++ rest) = some (n, rest) := by
  have hn := n.toNat_lt
  have hlength : ∀ m ∈ V4.octetForm.maxDigits, (digitsOf n.toNat).length ≤ m := by
    intro m hm
    obtain rfl := Option.some.inj hm
    exact (length_digitsOf_le_iff (by decide)).mpr (by omega)
  have hnumber := number_toDigits V4.octetForm rfl (show n.toNat ≤ 255 by omega) hlength hrest
  simp only [V4.octet, hnumber, Option.map_some, UInt8.ofNat_toNat]

theorem V4.scan_render (ip : V4) {rest : List Char} (hrest : EndsNumber rest) :
    V4.scan (ip.render.toList ++ rest) = some (ip, rest) := by
  have hpoint : ∀ cs, EndsNumber ('.' :: cs) := endsNumber_cons (by decide)
  have htext : ip.render.toList ++ rest =
      Nat.toDigits 10 ip.a.toNat ++ '.' :: (Nat.toDigits 10 ip.b.toNat ++ '.' ::
        (Nat.toDigits 10 ip.c.toNat ++ '.' :: (Nat.toDigits 10 ip.d.toNat ++ rest))) := by
    simp [V4.render]
  rw [htext, V4.scan]
  simp [V4.octet_toDigits, hpoint, hrest, skip]

end RelayStore.Address

namespace RelayStore.SocketAddress
open Address

theorem scanPort_toDigits (port : UInt16) :
    scanPort (':' :: Nat.toDigits 10 port.toNat) = some (port, []) := by
  have hn := port.toNat_lt
  have hnumber := number_toDigits portForm rfl (show port.toNat ≤ 65535 by omega)
    (fun m hm => by cases hm) endsNumber_nil
  rw [List.append_nil] at hnumber
  simp [scanPort, skip, hnumber]

theorem exists_toList_render_v4 (ip : V4) (port : UInt16) :
    ∃ rest, (render (.v4 ip port)).toList = Nat.toDigits 10 ip.a.toNat ++ rest := by
  simp [render, V4.render]

/-- An IPv4 address and a port in canonical decimal are read as they are. -/
theorem parse?_render_v4 (ip : V4) (port : UInt16) : parse? (render (.v4 ip port)) = some (.v4 ip port) := by
  have htext : (render (.v4 ip port)).toList = ip.render.toList ++ ':' :: Nat.toDigits 10 port.toNat := by
    simp [render]
  have hcolon : EndsNumber (':' :: Nat.toDigits 10 port.toNat) := endsNumber_cons (by decide) _
  have hscan : scanV4 (render (.v4 ip port)).toList = some (.v4 ip port, []) := by
    rw [htext, scanV4]
    simp [V4.scan_render ip hcolon, scanPort_toDigits]
  -- the equation of the definition would evaluate both scanners on a text that is not known
  delta parse?
  rw [hscan]
  rfl

end RelayStore.SocketAddress
