import RelayStore.Inbox

/-! # Sinks that fill up

A sink that takes at least one byte a call takes as much of a line as it has room for,
however few bytes it takes at a time. Only the room decides whether the line is written.
-/
namespace RelayStore.Sink
variable {s : Sink}

def HasRoom (s : Sink) (size : Nat) : Prop :=
  ∀ n, s.room = some n → size ≤ n

theorem hasRoom_of_room_eq_none (h : s.room = none) (size : Nat) : s.HasRoom size := by
  intro n hn
  rw [h] at hn
  cases hn

theorem HasRoom.mono {k m : Nat} (h : s.HasRoom m) (hk : k ≤ m) : s.HasRoom k :=
  fun n hn => Nat.le_trans hk (h n hn)

theorem HasRoom.take {as : Bytes} {size : Nat} (h : s.HasRoom (as.length + size)) :
    (s.take as).HasRoom size := by
  intro n hn
  obtain ⟨m, hm, rfl⟩ := Option.map_eq_some_iff.mp hn
  have := h m hm
  omega

@[simp] theorem take_nil (s : Sink) : s.take [] = s := by
  simp [Sink.take]

theorem take_take (s : Sink) (as bs : Bytes) : (s.take as).take bs = s.take (as ++ bs) := by
  have hroom : (s.room.map (· - as.length)).map (· - bs.length) =
      s.room.map (· - (as ++ bs).length) := by
    rw [Option.map_map, List.length_append]
    congr 1
    funext n
    exact Nat.sub_sub n _ _
  simp only [Sink.take, hroom, Array.append_assoc, List.append_toArray]

theorem split_eq_nil (hchunk : ∀ taken, s.chunk taken ≠ some 0) {bs : Bytes} (hbs : bs ≠ [])
    (h : (s.split bs).1 = []) : s.room = some 0 := by
  unfold split allowance at h
  cases hc : s.chunk s.written.size with
  | none =>
    cases hr : s.room with
    | none => simp [hc, hr, hbs] at h
    | some m => simpa [hc, hr, hbs] using h
  | some n =>
    have hn : n ≠ 0 := fun he => hchunk _ (by rw [hc, he])
    cases hr : s.room with
    | none => simp [hc, hr, hn, hbs] at h
    | some m =>
      simp only [hc, hr, List.take_eq_nil_iff, hbs, or_false] at h
      have hm : m = 0 := by omega
      rw [hm]

theorem length_split_le {n : Nat} (hroom : s.room = some n) (bs : Bytes) :
    (s.split bs).1.length ≤ n := by
  unfold split allowance
  cases s.chunk s.written.size with
  | none =>
    simp only [hroom, List.length_take]
    exact Nat.min_le_left n _
  | some m =>
    simp only [hroom, List.length_take]
    omega

theorem writeAll_of_hasRoom (hchunk : ∀ taken, s.chunk taken ≠ some 0) {bs : Bytes}
    (h : s.HasRoom bs.length) : s.writeAll bs = (s.take bs, none) := by
  induction s, bs using writeAll.induct with
  | case1 s bs hempty => rw [writeAll, if_pos hempty, List.isEmpty_iff.mp hempty, take_nil]
  | case2 s bs hempty hnone =>
    have hbs : bs ≠ [] := by simpa using hempty
    have hlength := h 0 (split_eq_nil hchunk hbs hnone)
    exact absurd (List.length_eq_zero_iff.mp (Nat.le_zero.mp hlength)) hbs
  | case3 s bs hempty hsome ih =>
    have hbs := s.split_append bs
    have hlength := congrArg List.length hbs
    rw [List.length_append] at hlength
    have hrest : (s.take (s.split bs).1).HasRoom (s.split bs).2.length :=
      HasRoom.take (by rwa [hlength])
    rw [writeAll, if_neg hempty, dif_neg hsome, ih hchunk hrest, take_take, hbs]

/-- The bytes for which there is no room are those that are not taken. -/
theorem writeAll_of_lt (hchunk : ∀ taken, s.chunk taken ≠ some 0) {n : Nat}
    (hroom : s.room = some n) {bs : Bytes} (h : n < bs.length) :
    s.writeAll bs = (s.take (bs.take n), some s.failure) := by
  induction s, bs using writeAll.induct generalizing n with
  | case1 s bs hempty =>
    rw [List.isEmpty_iff.mp hempty] at h
    exact absurd h (Nat.not_lt_zero n)
  | case2 s bs hempty hnone =>
    have hfull := split_eq_nil hchunk (by simpa using hempty) hnone
    obtain rfl : n = 0 := Option.some.inj (hroom.symm.trans hfull)
    rw [writeAll, if_neg hempty, dif_pos hnone, refusal, if_pos hfull, List.take_zero, take_nil]
  | case3 s bs hempty hsome ih =>
    have hbs := s.split_append bs
    have hlength := congrArg List.length hbs
    rw [List.length_append] at hlength
    have hle := length_split_le hroom bs
    have hleft : (s.take (s.split bs).1).room = some (n - (s.split bs).1.length) := by
      rw [Sink.take, hroom]
      rfl
    have htake : (s.split bs).1 ++ (s.split bs).2.take (n - (s.split bs).1.length) = bs.take n := by
      calc (s.split bs).1 ++ (s.split bs).2.take (n - (s.split bs).1.length)
          = ((s.split bs).1 ++ (s.split bs).2).take n := by
            rw [List.take_append, List.take_of_length_le hle]
        _ = bs.take n := by rw [hbs]
    rw [writeAll, if_neg hempty, dif_neg hsome, ih hchunk hleft (by omega), take_take, htake]
    rfl

def flushed (s : Sink) (n : Nat) : Sink :=
  { s with flushes := s.flushes + n }

theorem take_flushed (s : Sink) (n : Nat) (bs : Bytes) : (s.flushed n).take bs = (s.take bs).flushed n :=
  rfl

theorem flushed_flushed (s : Sink) (m n : Nat) : (s.flushed m).flushed n = s.flushed (m + n) := by
  simp only [flushed, Nat.add_assoc]

theorem writeLine_of_hasRoom (hchunk : ∀ taken, s.chunk taken ≠ some 0) {line : String}
    (h : s.HasRoom (sentLine line).length) :
    s.writeLine line = ((s.take (sentLine line)).flushed 1, s.flushFailure) := by
  have hwrite : s.writeAll (Utf8.encode line ++ [newline]) = _ := writeAll_of_hasRoom hchunk h
  rw [writeLine, hwrite]
  rfl

/-- Of a longer line the sink takes what it can, and it is not flushed. -/
theorem writeLine_of_lt (hchunk : ∀ taken, s.chunk taken ≠ some 0) {n : Nat} (hroom : s.room = some n)
    {line : String} (h : n < (sentLine line).length) :
    s.writeLine line = (s.take ((sentLine line).take n), some s.failure) := by
  have hwrite : s.writeAll (Utf8.encode line ++ [newline]) = _ := writeAll_of_lt hchunk hroom h
  rw [writeLine, hwrite]
  rfl

end RelayStore.Sink
