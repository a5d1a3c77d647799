import Mathlib.Data.List.Basic
import RelayStore.Text.Utf8

/-! # Encoding and decoding

Decoding undoes encoding: the machine turns the bytes of one character into that character
and is then between characters again. Bytes below 0x80 stand for themselves on both sides.
No other character has them in its encoding, and decoding makes an ASCII character of
nothing else, whatever else the bytes hold.
-/
namespace RelayStore.Utf8

@[simp] theorem encode_append (s t : String) : encode (s ++ t) = encode s ++ encode t := by
  simp [encode]

@[simp] theorem encode_ofList (cs : List Char) : encode (.ofList cs) = cs.flatMap encodeChar := by
  simp [encode]

theorem size_replicate (n : Nat) (c : Char) :
    size (.ofList (List.replicate n c)) = n * (encodeChar c).length := by
  rw [size, encode_ofList, List.length_flatMap, List.map_replicate, List.sum_replicate_nat]

theorem size_append (s t : String) : size (s ++ t) = size s + size t := by
  rw [size, encode_append, List.length_append, size, size]

theorem toNat_ofNat {n : Nat} (h : n < 0x100) : (UInt8.ofNat n).toNat = n := by
  rw [UInt8.toNat_ofNat']
  exact Nat.mod_eq_of_lt h

/-! ## The round trip -/

/-- A continuation byte within the bounds adds its six bits. -/
theorem Partial.next_tail (p : Partial) {d : Nat} (hd : d < 0x40) (hlow : p.low ≤ 0x80 + d)
    (hhigh : 0x80 + d ≤ p.high) :
    p.next (.ofNat (0x80 + d)) =
      if p.more = 1 then .done (.ofNat (p.code * 0x40 + d))
      else .more ⟨p.seen + 1, p.more - 1, 0x80, 0xBF, p.code * 0x40 + d⟩ := by
  have hb : (UInt8.ofNat (0x80 + d)).toNat = 0x80 + d := toNat_ofNat (by omega)
  simp only [next, hb, hlow, hhigh, and_self, if_true, Nat.add_sub_cancel_left]

theorem first_of_lead {b : Nat} {p : Partial} (hb : 0x80 ≤ b) (hlt : b < 0x100)
    (h : lead b = some p) : first (.ofNat b) = .more p := by
  have hnot : ¬ b < 0x80 := by omega
  simp only [first, toNat_ofNat hlt, if_neg hnot, h]

theorem lead_two {n : Nat} (hlow : 0x80 ≤ n) (hhigh : n < 0x800) :
    lead (0xC0 + n / 0x40) = some ⟨1, 1, 0x80, 0xBF, n / 0x40⟩ := by
  have h1 : ¬ 0xC0 + n / 0x40 < 0xC2 := by omega
  have h2 : 0xC0 + n / 0x40 < 0xE0 := by omega
  rw [lead, if_neg h1, if_pos h2, Nat.add_sub_cancel_left]

/-- Surrogates are excepted because no byte opens them. -/
theorem lead_three {n : Nat} (hlow : 0x800 ≤ n) (hhigh : n < 0x10000)
    (hscalar : n < 0xD800 ∨ 0xDFFF < n) :
    ∃ p, lead (0xE0 + n / 0x1000) = some p ∧ p.more = 2 ∧ p.code = n / 0x1000 ∧
      p.low ≤ 0x80 + n / 0x40 % 0x40 ∧ 0x80 + n / 0x40 % 0x40 ≤ p.high := by
  have h1 : ¬ 0xE0 + n / 0x1000 < 0xC2 := by omega
  have h2 : ¬ 0xE0 + n / 0x1000 < 0xE0 := by omega
  rw [lead, if_neg h1, if_neg h2]
  by_cases h3 : 0xE0 + n / 0x1000 = 0xE0
  · refine ⟨_, if_pos h3, rfl, ?_, ?_, ?_⟩ <;> dsimp only <;> omega
  by_cases h4 : 0xE0 + n / 0x1000 = 0xED
  · refine ⟨_, (if_neg h3).trans (if_pos h4), rfl, ?_, ?_, ?_⟩ <;> dsimp only <;> omega
  have h5 : 0xE0 + n / 0x1000 < 0xF0 := by omega
  refine ⟨_, (if_neg h3).trans ((if_neg h4).trans (if_pos h5)), rfl, ?_, ?_, ?_⟩ <;>
    dsimp only <;> omega

theorem lead_four {n : Nat} (hlow : 0x10000 ≤ n) (hhigh : n < 0x110000) :
    ∃ p, lead (0xF0 + n / 0x40000) = some p ∧ p.more = 3 ∧ p.code = n / 0x40000 ∧
      p.low ≤ 0x80 + n / 0x1000 % 0x40 ∧ 0x80 + n / 0x1000 % 0x40 ≤ p.high := by
  have h1 : ¬ 0xF0 + n / 0x40000 < 0xC2 := by omega
  have h2 : ¬ 0xF0 + n / 0x40000 < 0xE0 := by omega
  have h3 : ¬ 0xF0 + n / 0x40000 = 0xE0 := by omega
  have h4 : ¬ 0xF0 + n / 0x40000 = 0xED := by omega
  have h5 : ¬ 0xF0 + n / 0x40000 < 0xF0 := by omega
  rw [lead, if_neg h1, if_neg h2, if_neg h3, if_neg h4, if_neg h5]
  by_cases h6 : 0xF0 + n / 0x40000 = 0xF0
  · refine ⟨_, if_pos h6, rfl, ?_, ?_, ?_⟩ <;> dsimp only <;> omega
  by_cases h7 : 0xF0 + n / 0x40000 < 0xF4
  · refine ⟨_, (if_neg h6).trans (if_pos h7), rfl, ?_, ?_, ?_⟩ <;> dsimp only <;> omega
  have h8 : 0xF0 + n / 0x40000 = 0xF4 := by omega
  refine ⟨_, (if_neg h6).trans ((if_neg h7).trans (if_pos h8)), rfl, ?_, ?_, ?_⟩ <;>
    dsimp only <;> omega

theorem isScalar_toNat (c : Char) :
    c.toNat < 0xD800 ∨ 0xDFFF < c.toNat ∧ c.toNat < 0x110000 :=
  c.valid

/-- The bytes of a character, by their number. -/
theorem encodeChar_widths (c : Char) :
    (c.toNat < 0x80 ∧ encodeChar c = [.ofNat c.toNat]) ∨
      (0x80 ≤ c.toNat ∧ c.toNat < 0x800 ∧
        encodeChar c = [.ofNat (0xC0 + c.toNat / 0x40), .ofNat (0x80 + c.toNat % 0x40)]) ∨
      (0x800 ≤ c.toNat ∧ c.toNat < 0x10000 ∧
        encodeChar c = [.ofNat (0xE0 + c.toNat / 0x1000), .ofNat (0x80 + c.toNat / 0x40 % 0x40),
          .ofNat (0x80 + c.toNat % 0x40)]) ∨
      (0x10000 ≤ c.toNat ∧ c.toNat < 0x110000 ∧
        encodeChar c = [.ofNat (0xF0 + c.toNat / 0x40000), .ofNat (0x80 + c.toNat / 0x1000 % 0x40),
          .ofNat (0x80 + c.toNat / 0x40 % 0x40), .ofNat (0x80 + c.toNat % 0x40)]) := by
  have hscalar := isScalar_toNat c
  unfold encodeChar
  dsimp only
  split
  · next h1 => exact .inl ⟨h1, rfl⟩
  split
  · next h1 h2 => exact .inr (.inl ⟨Nat.le_of_not_lt h1, h2, rfl⟩)
  split
  · next h2 h3 => exact .inr (.inr (.inl ⟨Nat.le_of_not_lt h2, h3, rfl⟩))
  · next h3 => exact .inr (.inr (.inr ⟨Nat.le_of_not_lt h3, by omega, rfl⟩))

/-- Bytes that bring an open sequence to a character, one continuation byte after the other. -/
inductive Partial.Completes : Partial → Bytes → Char → Prop
  | last {p : Partial} {b : UInt8} {c : Char} (h : p.next b = .done c) : Completes p [b] c
  | tail {p q : Partial} {b : UInt8} {bs : Bytes} {c : Char} (h : p.next b = .more q)
    (hbs : Completes q bs c) : Completes p (b :: bs) c

theorem Partial.completes_last (p : Partial) {d : Nat} {c : Char} (hd : d < 0x40)
    (hlow : p.low ≤ 0x80 + d) (hhigh : 0x80 + d ≤ p.high) (hmore : p.more = 1)
    (hc : p.code * 0x40 + d = c.toNat) : p.Completes [.ofNat (0x80 + d)] c := by
  apply Completes.last
  rw [p.next_tail hd hlow hhigh, if_pos hmore, hc, Char.ofNat_toNat]

theorem Partial.completes_tail (p : Partial) {d : Nat} {bs : Bytes} {c : Char} (hd : d < 0x40)
    (hlow : p.low ≤ 0x80 + d) (hhigh : 0x80 + d ≤ p.high) (hmore : p.more ≠ 1)
    (hbs : Completes ⟨p.seen + 1, p.more - 1, 0x80, 0xBF, p.code * 0x40 + d⟩ bs c) :
    p.Completes (.ofNat (0x80 + d) :: bs) c := by
  refine Completes.tail ?_ hbs
  rw [p.next_tail hd hlow hhigh, if_neg hmore]

/-- A character is one byte, or its first byte opens a sequence that the others complete. -/
theorem encodeChar_cases (c : Char) :
    (∃ b, encodeChar c = [b] ∧ first b = .done c) ∨
      ∃ b bs p, encodeChar c = b :: bs ∧ first b = .more p ∧ p.Completes bs c := by
  have hscalar := isScalar_toNat c
  have hmod (m : Nat) : m % 0x40 < 0x40 := Nat.mod_lt _ (by decide)
  rcases encodeChar_widths c with ⟨h1, hc⟩ | ⟨h1, h2, hc⟩ | ⟨h2, h3, hc⟩ | ⟨h3, -, hc⟩
  · have hb : (UInt8.ofNat c.toNat).toNat = c.toNat := toNat_ofNat (by omega)
    refine .inl ⟨_, hc, ?_⟩
    rw [first, hb, if_pos h1, Char.ofNat_toNat]
  · have hlead := lead_two (n := c.toNat) h1 h2
    refine .inr ⟨_, _, _, hc, first_of_lead (by omega) (by omega) hlead, ?_⟩
    apply Partial.completes_last _ (hmod _) <;> dsimp only <;> omega
  · obtain ⟨p, hlead, hmore, hcode, hlow, hhigh⟩ := lead_three (n := c.toNat) h2 h3 (by omega)
    refine .inr ⟨_, _, p, hc, first_of_lead (by omega) (by omega) hlead, ?_⟩
    refine p.completes_tail (hmod _) hlow hhigh (by omega) ?_
    apply Partial.completes_last _ (hmod _) <;> dsimp only <;> omega
  · obtain ⟨p, hlead, hmore, hcode, hlow, hhigh⟩ := lead_four (n := c.toNat) h3 (by omega)
    refine .inr ⟨_, _, p, hc, first_of_lead (by omega) (by omega) hlead, ?_⟩
    refine p.completes_tail (hmod _) hlow hhigh (by omega) ?_
    refine Partial.completes_tail _ (hmod _) ?_ ?_ ?_ ?_
    · dsimp only
      omega
    · dsimp only
      omega
    · dsimp only
      omega
    · apply Partial.completes_last _ (hmod _) <;> dsimp only <;> omega

theorem Partial.Completes.foldl_push {p : Partial} {bs : Bytes} {c : Char} (h : p.Completes bs c)
    (out : List Char) : bs.foldl Decoder.push ⟨out, some p⟩ = ⟨c :: out, none⟩ := by
  induction h with
  | last h => simp only [List.foldl_cons, List.foldl_nil, Decoder.push, h]
  | tail h _ ih => simpa only [List.foldl_cons, Decoder.push, h] using ih

/-- Before its last byte a sequence is still open. -/
theorem Partial.Completes.foldl_push_take {p : Partial} {bs : Bytes} {c : Char} (h : p.Completes bs c)
    (out : List Char) {n : Nat} (hn : n < bs.length) :
    ∃ q, (bs.take n).foldl Decoder.push ⟨out, some p⟩ = ⟨out, some q⟩ := by
  induction h generalizing n with
  | @last p b c h =>
    have hzero : n = 0 := Nat.lt_one_iff.mp hn
    exact ⟨p, by rw [hzero, List.take_zero, List.foldl_nil]⟩
  | @tail p q b bs c h _ ih =>
    cases n with
    | zero => exact ⟨p, by rw [List.take_zero, List.foldl_nil]⟩
    | succ n =>
      obtain ⟨r, hr⟩ := ih (Nat.lt_of_succ_lt_succ hn)
      exact ⟨r, by simpa only [List.take_succ_cons, List.foldl_cons, Decoder.push, h] using hr⟩

theorem Decoder.push_first (out : List Char) {b : UInt8} {p : Partial} (h : first b = .more p) :
    Decoder.push ⟨out, none⟩ b = ⟨out, some p⟩ := by
  simp [Decoder.push, Decoder.start, h]

/-- The bytes of one character take the machine over that character. -/
theorem foldl_push_encodeChar (out : List Char) (c : Char) :
    (encodeChar c).foldl Decoder.push ⟨out, none⟩ = ⟨c :: out, none⟩ := by
  rcases encodeChar_cases c with ⟨b, hc, hfirst⟩ | ⟨b, bs, p, hc, hfirst, hbs⟩
  · simp [hc, Decoder.push, Decoder.start, hfirst]
  · rw [hc, List.foldl_cons, Decoder.push_first out hfirst, hbs.foldl_push]

/-- Within a character the machine has a sequence open and nothing new to show for it. -/
theorem foldl_push_take_encodeChar (out : List Char) (c : Char) {n : Nat} (hpos : 0 < n)
    (hn : n < (encodeChar c).length) :
    ∃ q, ((encodeChar c).take n).foldl Decoder.push ⟨out, none⟩ = ⟨out, some q⟩ := by
  obtain ⟨m, rfl⟩ := Nat.exists_eq_succ_of_ne_zero (Nat.ne_of_gt hpos)
  rcases encodeChar_cases c with ⟨b, hc, -⟩ | ⟨b, bs, p, hc, hfirst, hbs⟩
  · rw [hc, List.length_singleton] at hn
    omega
  · rw [hc, List.length_cons] at hn
    rw [hc, List.take_succ_cons, List.foldl_cons, Decoder.push_first out hfirst]
    exact hbs.foldl_push_take out (Nat.lt_of_succ_lt_succ hn)

theorem foldl_push_encode (out cs : List Char) :
    (cs.flatMap encodeChar).foldl Decoder.push ⟨out, none⟩ = ⟨cs.reverse ++ out, none⟩ := by
  induction cs generalizing out with
  | nil => rfl
  | cons c cs ih =>
    rw [List.flatMap_cons, List.foldl_append, foldl_push_encodeChar, ih]
    simp

@[simp] theorem decode_encode (s : String) : decode (encode s) = s := by
  rw [decode, encode, foldl_push_encode]
  simp [Decoder.finish]

/-- What has been decoded has no part in what comes next. -/
theorem foldl_push_append (out before : List Char) (pending : Option Partial) (bs : Bytes) :
    bs.foldl Decoder.push ⟨out ++ before, pending⟩ =
      ⟨(bs.foldl Decoder.push ⟨out, pending⟩).out ++ before,
        (bs.foldl Decoder.push ⟨out, pending⟩).pending⟩ := by
  have hstart (out : List Char) (b : UInt8) : Decoder.start (out ++ before) b =
      ⟨(Decoder.start out b).out ++ before, (Decoder.start out b).pending⟩ := by
    unfold Decoder.start
    cases first b <;> rfl
  have hpush (out : List Char) (pending : Option Partial) (b : UInt8) :
      Decoder.push ⟨out ++ before, pending⟩ b =
        ⟨(Decoder.push ⟨out, pending⟩ b).out ++ before, (Decoder.push ⟨out, pending⟩ b).pending⟩ := by
    cases pending with
    | none => exact hstart out b
    | some p =>
      simp only [Decoder.push]
      cases p.next b with
      | done c => rfl
      | more q => rfl
      | stray => exact hstart (replacement :: out) b
      | broken => exact hstart (replacement :: out) b
  induction bs generalizing out pending with
  | nil => rfl
  | cons b bs ih => rw [List.foldl_cons, hpush, ih, List.foldl_cons]

theorem decode_encode_append (s : String) (bs : Bytes) : decode (encode s ++ bs) = s ++ decode bs := by
  have hrun := foldl_push_append [] s.toList.reverse none bs
  rw [List.nil_append] at hrun
  rw [decode, List.foldl_append, encode, foldl_push_encode, List.append_nil, hrun, decode]
  generalize bs.foldl Decoder.push ⟨[], none⟩ = d
  obtain ⟨out, pending⟩ := d
  cases pending <;> simp [Decoder.finish]

/-! ## Bytes of the ASCII range -/

theorem encodeChar_ne_nil (c : Char) : encodeChar c ≠ [] := by
  rcases encodeChar_widths c with ⟨-, hc⟩ | ⟨-, -, hc⟩ | ⟨-, -, hc⟩ | ⟨-, -, hc⟩ <;>
    rw [hc] <;>
    exact List.cons_ne_nil _ _

theorem size_pos {s : String} (h : s ≠ "") : 0 < size s := by
  have hne : s.toList ≠ [] := fun he => h (by simpa using congrArg String.ofList he)
  obtain ⟨c, cs, hcs⟩ := List.exists_cons_of_ne_nil hne
  have hc := List.length_pos_iff.mpr (encodeChar_ne_nil c)
  rw [size, encode, hcs, List.flatMap_cons, List.length_append]
  omega

theorem mem_encodeChar_ascii {c : Char} {b : UInt8} (hb : b.toNat < 0x80) :
    b ∈ encodeChar c ↔ c.toNat = b.toNat := by
  have hscalar := isScalar_toNat c
  have hne (m : Nat) (hlow : 0x80 ≤ m) (hhigh : m < 0x100) : b ≠ .ofNat m := by
    intro he
    rw [he, toNat_ofNat hhigh] at hb
    omega
  rcases encodeChar_widths c with ⟨h1, hc⟩ | ⟨h1, h2, hc⟩ | ⟨h2, h3, hc⟩ | ⟨h3, -, hc⟩
  · rw [hc, List.mem_singleton]
    constructor
    · intro he
      rw [he, toNat_ofNat (by omega)]
    · intro he
      rw [he, UInt8.ofNat_toNat]
  · have hno : ¬ c.toNat = b.toNat := by omega
    simp only [hc, List.mem_cons, hne _ (show 0x80 ≤ 0xC0 + c.toNat / 0x40 by omega) (by omega),
      hne _ (show 0x80 ≤ 0x80 + c.toNat % 0x40 by omega) (by omega), List.not_mem_nil, or_self, hno]
  · have hno : ¬ c.toNat = b.toNat := by omega
    simp only [hc, List.mem_cons, hne _ (show 0x80 ≤ 0xE0 + c.toNat / 0x1000 by omega) (by omega),
      hne _ (show 0x80 ≤ 0x80 + c.toNat / 0x40 % 0x40 by omega) (by omega),
      hne _ (show 0x80 ≤ 0x80 + c.toNat % 0x40 by omega) (by omega), List.not_mem_nil, or_self, hno]
  · have hno : ¬ c.toNat = b.toNat := by omega
    simp only [hc, List.mem_cons, hne _ (show 0x80 ≤ 0xF0 + c.toNat / 0x40000 by omega) (by omega),
      hne _ (show 0x80 ≤ 0x80 + c.toNat / 0x1000 % 0x40 by omega) (by omega),
      hne _ (show 0x80 ≤ 0x80 + c.toNat / 0x40 % 0x40 by omega) (by omega),
      hne _ (show 0x80 ≤ 0x80 + c.toNat % 0x40 by omega) (by omega), List.not_mem_nil, or_self, hno]

theorem mem_encode_ascii {s : String} {a : Char} (ha : a.toNat < 0x80) :
    UInt8.ofNat a.toNat ∈ encode s ↔ a ∈ s.toList := by
  have hb : (UInt8.ofNat a.toNat).toNat = a.toNat := toNat_ofNat (by omega)
  rw [encode, List.mem_flatMap]
  constructor
  · rintro ⟨c, hc, hm⟩
    have he : c.toNat = a.toNat := by
      rw [(mem_encodeChar_ascii (by omega)).mp hm, hb]
    rwa [← Char.toNat_inj.mp he]
  · intro hm
    exact ⟨a, hm, (mem_encodeChar_ascii (by omega)).mpr hb.symm⟩

def extend (code : Nat) : Nat → Nat
  | 0 => code
  | n + 1 => extend (code * 0x40) n

theorem extend_le_extend {a b : Nat} (h : a ≤ b) (n : Nat) : extend a n ≤ extend b n := by
  induction n generalizing a b with
  | zero => exact h
  | succ n ih => exact ih (Nat.mul_le_mul_right 0x40 h)

def Partial.least (p : Partial) : Nat :=
  extend (p.code * 0x40 + (p.low - 0x80)) (p.more - 1)

structure Partial.IsWide (p : Partial) : Prop where
  one_le_more : 1 ≤ p.more
  le_low : 0x80 ≤ p.low
  le_least : 0x80 ≤ p.least

theorem isWide_of_lead {b : Nat} {p : Partial} (h : lead b = some p) : p.IsWide := by
  have hwide {more low high code : Nat} (h1 : 1 ≤ more) (h2 : 0x80 ≤ low)
      (h3 : 0x80 ≤ extend (code * 0x40 + (low - 0x80)) (more - 1)) :
      Partial.IsWide ⟨1, more, low, high, code⟩ := ⟨h1, h2, h3⟩
  unfold lead at h
  split at h
  · cases h
  split at h
  · cases h
    exact hwide (by decide) (by decide) (by simp [extend]; omega)
  split at h
  · cases h
    exact hwide (by decide) (by decide) (by decide)
  split at h
  · cases h
    exact hwide (by decide) (by decide) (by decide)
  split at h
  · cases h
    exact hwide (by decide) (by decide) (by simp [extend]; omega)
  split at h
  · cases h
    exact hwide (by decide) (by decide) (by decide)
  split at h
  · cases h
    exact hwide (by decide) (by decide) (by simp [extend]; omega)
  split at h
  · cases h
    exact hwide (by decide) (by decide) (by decide)
  · cases h

/-- What a continuation byte makes of an open sequence is as wide. -/
theorem Partial.IsWide.next {p : Partial} (hp : p.IsWide) (b : UInt8) :
    p.next b = .broken ∨ (∃ n, 0x80 ≤ n ∧ p.next b = .done (.ofNat n)) ∨
      ∃ q : Partial, q.IsWide ∧ p.next b = .more q := by
  obtain ⟨hmore, hlow, hleast⟩ := hp
  unfold Partial.next
  dsimp only
  split
  · next hb =>
    have hcode : p.code * 0x40 + (p.low - 0x80) ≤ p.code * 0x40 + (b.toNat - 0x80) := by omega
    right
    split
    · next h1 =>
      left
      simp only [Partial.least, h1, Nat.sub_self, extend] at hleast
      exact ⟨_, Nat.le_trans hleast hcode, rfl⟩
    · next h1 =>
      right
      refine ⟨_, ⟨?_, Nat.le_refl _, ?_⟩, rfl⟩
      · dsimp only
        omega
      · have hmore' : p.more - 1 = p.more - 1 - 1 + 1 := by omega
        rw [Partial.least, hmore', extend] at hleast
        simp only [Partial.least, Nat.sub_self, Nat.add_zero]
        exact Nat.le_trans hleast (extend_le_extend (Nat.mul_le_mul_right _ hcode) _)
  · exact .inl rfl

theorem toNat_eq_of_eq_ofNat {a : Char} {n : Nat} (h0 : 0 < a.toNat) (he : a = .ofNat n) :
    a.toNat = n := by
  subst he
  by_cases hn : n.isValidChar
  · rw [Char.ofNat, dif_pos hn]
    rfl
  · rw [Char.ofNat, dif_neg hn] at h0
    exact absurd h0 (by decide)

/-- A decoding that has made no character `a`, and in which none is under way. -/
structure Decoder.Avoids (d : Decoder) (a : Char) : Prop where
  not_mem : a ∉ d.out
  isWide : ∀ p, d.pending = some p → p.IsWide

theorem Decoder.Avoids.start {a : Char} {out : List Char} {b : UInt8} (h0 : 0 < a.toNat)
    (ha : a.toNat < 0x80) (hout : a ∉ out) (hb : b.toNat ≠ a.toNat) :
    (Decoder.start out b).Avoids a := by
  have hrep : a ≠ replacement := by
    intro he
    rw [he] at ha
    exact absurd ha (by decide)
  unfold Decoder.start first
  by_cases h1 : b.toNat < 0x80
  · have hne : a ≠ .ofNat b.toNat := fun he => hb (toNat_eq_of_eq_ofNat h0 he).symm
    simp only [h1, if_true]
    exact ⟨List.not_mem_cons_of_ne_of_not_mem hne hout, by simp⟩
  · simp only [h1, if_false]
    cases hlead : lead b.toNat with
    | none => exact ⟨List.not_mem_cons_of_ne_of_not_mem hrep hout, by simp⟩
    | some p =>
      refine ⟨hout, fun q hq => ?_⟩
      cases hq
      exact isWide_of_lead hlead

theorem Decoder.Avoids.push {a : Char} {d : Decoder} {b : UInt8} (h0 : 0 < a.toNat)
    (ha : a.toNat < 0x80) (hd : d.Avoids a) (hb : b.toNat ≠ a.toNat) : (d.push b).Avoids a := by
  obtain ⟨out, pending⟩ := d
  obtain ⟨hout, hwide⟩ := hd
  have hcons {n : Nat} (hn : 0x80 ≤ n) : a ∉ Char.ofNat n :: out := by
    refine List.not_mem_cons_of_ne_of_not_mem (fun he => ?_) hout
    have := toNat_eq_of_eq_ofNat h0 he
    omega
  cases pending with
  | none => exact Decoder.Avoids.start h0 ha hout hb
  | some p =>
    rcases (hwide p rfl).next b with hp | ⟨n, hn, hp⟩ | ⟨q, hq, hp⟩
    · simp only [Decoder.push, hp]
      exact Decoder.Avoids.start h0 ha (hcons (n := 0xFFFD) (by decide)) hb
    · simp only [Decoder.push, hp]
      exact ⟨hcons hn, by simp⟩
    · simp only [Decoder.push, hp]
      refine ⟨hout, fun r hr => ?_⟩
      cases hr
      exact hq

theorem Decoder.Avoids.foldl {a : Char} {bs : Bytes} (h0 : 0 < a.toNat) (ha : a.toNat < 0x80)
    (hbs : ∀ b ∈ bs, b.toNat ≠ a.toNat) {d : Decoder} (hd : d.Avoids a) :
    (bs.foldl Decoder.push d).Avoids a := by
  induction bs generalizing d with
  | nil => exact hd
  | cons b bs ih =>
    obtain ⟨hb, hbs⟩ := List.forall_mem_cons.mp hbs
    exact ih hbs (hd.push h0 ha hb)

/-- An ASCII character of a decoded text was a byte of its own. -/
theorem mem_of_mem_decode {a : Char} {bs : Bytes} (h0 : 0 < a.toNat) (ha : a.toNat < 0x80)
    (h : a ∈ (decode bs).toList) : UInt8.ofNat a.toNat ∈ bs := by
  by_contra hnot
  have hbs : ∀ b ∈ bs, b.toNat ≠ a.toNat := by
    intro b hb he
    exact hnot (by rwa [← he, UInt8.ofNat_toNat])
  have hstart : (⟨[], none⟩ : Decoder).Avoids a := ⟨by simp, by simp⟩
  have hend := (hstart.foldl h0 ha hbs).not_mem
  have hrep : a ≠ replacement := by
    intro he
    rw [he] at ha
    exact absurd ha (by decide)
  simp only [decode, Decoder.finish, String.toList_ofList, List.mem_reverse] at h
  split at h
  · exact hend ((List.mem_cons.mp h).resolve_left hrep)
  · exact hend h

end RelayStore.Utf8
