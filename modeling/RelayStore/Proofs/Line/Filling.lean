import RelayStore.Proofs.Session.Texts

/-! # Lines written to a sink that fills up

Lines are tried one behind the other, whatever failed before. What the sink then holds is the
beginning of them all, up to its room, and nothing tells how many bytes it took a call. A line is
written whole if there is room for it behind all that were tried before it, and each whole line
is flushed once, whether or not flushing works.
-/
namespace RelayStore.Sink
variable {s : Sink}

/-! ## Room -/

def fitting (s : Sink) (bs : Bytes) : Bytes :=
  match s.room with
  | none => bs
  | some n => bs.take n

theorem fitting_of_room {n : Nat} (h : s.room = some n) (bs : Bytes) : s.fitting bs = bs.take n := by
  simp only [fitting, h]

theorem fitting_of_room_eq_none (h : s.room = none) (bs : Bytes) : s.fitting bs = bs := by
  simp only [fitting, h]

theorem hasRoom_iff_of_room {n : Nat} (h : s.room = some n) (size : Nat) : s.HasRoom size ↔ size ≤ n := by
  constructor
  · exact fun hroom => hroom n h
  · intro hle m hm
    rw [h] at hm
    exact Option.some.inj hm ▸ hle

instance (s : Sink) (size : Nat) : Decidable (s.HasRoom size) :=
  match h : s.room with
  | none => .isTrue (hasRoom_of_room_eq_none h size)
  | some _ => decidable_of_iff _ (hasRoom_iff_of_room h size).symm

theorem fitting_of_hasRoom {bs : Bytes} (h : s.HasRoom bs.length) : s.fitting bs = bs := by
  cases hroom : s.room with
  | none => exact fitting_of_room_eq_none hroom bs
  | some n => rw [fitting_of_room hroom, List.take_of_length_le (h n hroom)]

theorem room_take_fitting (as : Bytes) : (s.take (s.fitting as)).room = s.room.map (· - as.length) := by
  cases hroom : s.room with
  | none => simp only [take, hroom, Option.map_none]
  | some n =>
    have hleft : n - (as.take n).length = n - as.length := by
      rw [List.length_take]
      omega
    simp only [take, hroom, fitting_of_room hroom, Option.map_some, hleft]

/-- Behind bytes that did not fit there is room for nothing. -/
theorem hasRoom_take_fitting (as : Bytes) {size : Nat} (hsize : 0 < size) :
    (s.take (s.fitting as)).HasRoom size ↔ s.HasRoom (as.length + size) := by
  have hleft := s.room_take_fitting as
  cases hroom : s.room with
  | none =>
    rw [hroom, Option.map_none] at hleft
    exact iff_of_true (hasRoom_of_room_eq_none hleft _) (hasRoom_of_room_eq_none hroom _)
  | some n =>
    rw [hroom, Option.map_some] at hleft
    rw [hasRoom_iff_of_room hleft, hasRoom_iff_of_room hroom]
    omega

theorem fitting_append (as bs : Bytes) :
    s.fitting (as ++ bs) = s.fitting as ++ (s.take (s.fitting as)).fitting bs := by
  have hleft := s.room_take_fitting as
  cases hroom : s.room with
  | none =>
    rw [hroom, Option.map_none] at hleft
    rw [fitting_of_room_eq_none hleft, fitting_of_room_eq_none hroom, fitting_of_room_eq_none hroom]
  | some n =>
    rw [hroom, Option.map_some] at hleft
    rw [fitting_of_room hleft, fitting_of_room hroom, fitting_of_room hroom, List.take_append]

/-! ## One line -/

/-- What is reported of a line that is written whole or not. -/
theorem writeLine_eq (hchunk : ∀ taken, s.chunk taken ≠ some 0) (line : String) :
    s.writeLine line = if s.HasRoom (sentLine line).length
      then ((s.take (s.fitting (sentLine line))).flushed 1, s.flushFailure)
      else (s.take (s.fitting (sentLine line)), some s.failure) := by
  split
  · next h => rw [writeLine_of_hasRoom hchunk h, fitting_of_hasRoom h]
  · next h =>
    cases hroom : s.room with
    | none => exact absurd (hasRoom_of_room_eq_none hroom _) h
    | some n =>
      rw [hasRoom_iff_of_room hroom, Nat.not_le] at h
      rw [writeLine_of_lt hchunk hroom h, fitting_of_room hroom]

/-! ## All lines -/

/-- A line that is to be written, and what its flush reports if that comes to be made and fails. -/
structure Attempt where
  line : String
  flushFailure : Option Fault := none
deriving DecidableEq, Repr

def attempt (s : Sink) (a : Attempt) : Sink × Option Fault :=
  { s with flushFailure := a.flushFailure }.writeLine a.line

def attempts (s : Sink) : List Attempt → List (Sink × Option Fault)
  | [] => []
  | a :: as => s.attempt a :: (s.attempt a).1.attempts as

def afterAttempts (s : Sink) (as : List Attempt) : Sink :=
  as.foldl (fun s a => (s.attempt a).1) s

def sentAttempts (as : List Attempt) : Bytes :=
  sentLines (as.map Attempt.line)

def wholeLines (s : Sink) (as : List Attempt) : Nat :=
  (List.range as.length).countP fun i => s.HasRoom (sentAttempts (as.take (i + 1))).length

theorem length_attempts (s : Sink) (as : List Attempt) : (s.attempts as).length = as.length := by
  induction as generalizing s with
  | nil => rfl
  | cons a as ih => rw [attempts, List.length_cons, ih, List.length_cons]

theorem getElem?_attempts (s : Sink) (as : List Attempt) (i : Nat) :
    (s.attempts as)[i]? = as[i]?.map fun a => (s.afterAttempts (as.take i)).attempt a := by
  induction as generalizing s i with
  | nil => rfl
  | cons a as ih =>
    cases i with
    | zero => rfl
    | succ i =>
      rw [attempts, List.getElem?_cons_succ, ih, List.getElem?_cons_succ, List.take_succ_cons]
      rfl

/-- Where each flush reports the same, these are the lines that the sink writes by itself. -/
theorem writeLines_eq_attempts (hchunk : ∀ taken, s.chunk taken ≠ some 0) (lines : List String) :
    s.writeLines lines = s.attempts (lines.map fun line => ⟨line, s.flushFailure⟩) := by
  induction lines generalizing s with
  | nil => rfl
  | cons line lines ih =>
    obtain ⟨bs, n, hnext⟩ : ∃ bs n, (s.writeLine line).1 = (s.take bs).flushed n := by
      rw [writeLine_eq hchunk]
      split
      · exact ⟨_, 1, rfl⟩
      · exact ⟨_, 0, rfl⟩
    have hrest := ih (s := (s.writeLine line).1) (by rw [hnext]; exact hchunk)
    have hflush : (s.writeLine line).1.flushFailure = s.flushFailure := by rw [hnext]; rfl
    rw [hflush] at hrest
    rw [writeLines, hrest]
    rfl

theorem afterAttempts_append_singleton (s : Sink) (as : List Attempt) (a : Attempt) :
    s.afterAttempts (as ++ [a]) = ((s.afterAttempts as).attempt a).1 := by
  simp only [afterAttempts, List.foldl_append, List.foldl_cons, List.foldl_nil]

theorem sentAttempts_append_singleton (as : List Attempt) (a : Attempt) :
    sentAttempts (as ++ [a]) = sentAttempts as ++ sentLine a.line := by
  simp [sentAttempts, sentLines]

theorem wholeLines_append_singleton (s : Sink) (as : List Attempt) (a : Attempt) :
    s.wholeLines (as ++ [a]) =
      s.wholeLines as + if s.HasRoom (sentAttempts (as ++ [a])).length then 1 else 0 := by
  have hbefore : (List.range as.length).countP (fun i =>
      s.HasRoom (sentAttempts ((as ++ [a]).take (i + 1))).length) = s.wholeLines as := by
    refine List.countP_congr fun i hi => ?_
    rw [List.take_append_of_le_length (List.mem_range.mp hi)]
  rw [wholeLines, List.length_append, List.length_singleton, List.range_succ, List.countP_append, hbefore,
    List.countP_singleton, List.take_of_length_le (by simp)]
  simp only [decide_eq_true_eq]

/-- What one more line comes to behind bytes that were tried. -/
theorem writeLine_take_fitting (hchunk : ∀ taken, s.chunk taken ≠ some 0) (bs : Bytes) (n : Nat)
    (line : String) :
    ((s.take (s.fitting bs)).flushed n).writeLine line =
      ((s.take (s.fitting (bs ++ sentLine line))).flushed
          (n + if s.HasRoom (bs ++ sentLine line).length then 1 else 0),
        if s.HasRoom (bs ++ sentLine line).length then s.flushFailure else some s.failure) := by
  have hroom : ((s.take (s.fitting bs)).flushed n).HasRoom (sentLine line).length ↔
      s.HasRoom (bs ++ sentLine line).length := by
    rw [List.length_append]
    exact hasRoom_take_fitting bs (by simp [sentLine])
  have htaken : ((s.take (s.fitting bs)).flushed n).take
      (((s.take (s.fitting bs)).flushed n).fitting (sentLine line)) =
        (s.take (s.fitting (bs ++ sentLine line))).flushed n := by
    rw [fitting_append, ← take_take]
    rfl
  have hwrite := writeLine_eq (s := (s.take (s.fitting bs)).flushed n) hchunk line
  rw [htaken, flushed_flushed] at hwrite
  rw [hwrite]
  by_cases h : s.HasRoom (bs ++ sentLine line).length
  · rw [if_pos (hroom.mpr h), if_pos h, if_pos h]
    rfl
  · rw [if_neg (mt hroom.mp h), if_neg h, if_neg h]
    rfl

def filled (s : Sink) (as : List Attempt) : Sink :=
  { (s.take (s.fitting (sentAttempts as))).flushed (s.wholeLines as) with
    flushFailure := (as.getLast?.map Attempt.flushFailure).getD s.flushFailure }

theorem attempt_filled (hchunk : ∀ taken, s.chunk taken ≠ some 0) (as : List Attempt) (a : Attempt) :
    (s.filled as).attempt a = (s.filled (as ++ [a]),
      if s.HasRoom (sentAttempts (as ++ [a])).length then a.flushFailure else some s.failure) := by
  -- how the flush before it went makes no difference to an attempt
  have hwrite := writeLine_take_fitting (s := { s with flushFailure := a.flushFailure }) hchunk
    (sentAttempts as) (s.wholeLines as) a.line
  simp only [filled, wholeLines_append_singleton, sentAttempts_append_singleton, List.getLast?_concat,
    Option.map_some, Option.getD_some]
  exact hwrite

theorem afterAttempts_eq (hchunk : ∀ taken, s.chunk taken ≠ some 0) (as : List Attempt) :
    s.afterAttempts as = s.filled as := by
  induction as using List.reverseRecOn with
  | nil =>
    have hnil : s.fitting [] = [] := by cases hroom : s.room <;> simp [fitting, hroom]
    simp [afterAttempts, filled, sentAttempts, sentLines, hnil, wholeLines, flushed]
  | append_singleton as a ih =>
    rw [afterAttempts_append_singleton, ih, attempt_filled hchunk]

theorem take_add_one_of_getElem? {as : List Attempt} {i : Nat} {a : Attempt} (h : as[i]? = some a) :
    as.take (i + 1) = as.take i ++ [a] := by
  rw [List.take_add_one, h]
  rfl

theorem getElem?_attempts_eq (hchunk : ∀ taken, s.chunk taken ≠ some 0) {as : List Attempt} {i : Nat}
    {a : Attempt} (h : as[i]? = some a) :
    (s.attempts as)[i]? = some (s.afterAttempts (as.take (i + 1)),
      if s.HasRoom (sentAttempts (as.take (i + 1))).length then a.flushFailure else some s.failure) := by
  rw [getElem?_attempts, h, Option.map_some, take_add_one_of_getElem? h, afterAttempts_eq hchunk,
    afterAttempts_eq hchunk, attempt_filled hchunk]

theorem fitting_isPrefix (bs : Bytes) : s.fitting bs <+: bs := by
  cases hroom : s.room with
  | none => exact ⟨[], by rw [fitting_of_room_eq_none hroom, List.append_nil]⟩
  | some n =>
    rw [fitting_of_room hroom]
    exact List.take_prefix n bs

/-- One more line adds the front of its own bytes to what was taken, and nothing else. -/
theorem exists_written_append (hchunk : ∀ taken, s.chunk taken ≠ some 0) {as : List Attempt} {i : Nat}
    {a : Attempt} (h : as[i]? = some a) : ∃ part, part <+: sentLine a.line ∧
      (s.afterAttempts (as.take (i + 1))).written =
        (s.afterAttempts (as.take i)).written ++ part.toArray := by
  refine ⟨_, fitting_isPrefix (s := s.take (s.fitting (sentAttempts (as.take i)))) (sentLine a.line), ?_⟩
  rw [afterAttempts_eq hchunk, afterAttempts_eq hchunk, take_add_one_of_getElem? h, filled, filled,
    sentAttempts_append_singleton, fitting_append, ← take_take]
  rfl

def atPace (s : Sink) (pace : Pace) : Sink :=
  { s with chunk := pace }

theorem map_attempts_atPace (hchunk : ∀ taken, s.chunk taken ≠ some 0) {pace : Pace}
    (hpace : ∀ taken, pace taken ≠ some 0) (as : List Attempt) :
    ((s.atPace pace).attempts as).map (fun w => (w.1.atPace s.chunk, w.2)) = s.attempts as := by
  refine List.ext_getElem? fun i => ?_
  rw [List.getElem?_map]
  cases h : as[i]? with
  | none => simp only [getElem?_attempts, h, Option.map_none]
  | some a =>
    have hother := getElem?_attempts_eq (s := s.atPace pace) hpace h
    have hafter := afterAttempts_eq (s := s.atPace pace) hpace (as.take (i + 1))
    rw [getElem?_attempts_eq hchunk h, hother, Option.map_some, hafter, afterAttempts_eq hchunk]
    rfl

end RelayStore.Sink

namespace RelayStore
open Sink

/-- Lines are tried one behind the other on a sink that takes at least one byte a call and may fill
up, where each flush works or fails. What the sink has taken is what fits of all lines with their
newlines. A try succeeds exactly if there is room for its line behind all the lines before it, and
its flush works; as many flushes were made as lines are whole, also if they fail. A try adds the
front of its own line and nothing else, so nothing is written twice or out of order, and at which
pace the bytes are taken makes no difference. -/
theorem lines_fill_sink {sink : Sink} (hchunk : ∀ taken, sink.chunk taken ≠ some 0) :
    (∀ lines, sink.writeLines lines = sink.attempts (lines.map fun line => ⟨line, sink.flushFailure⟩)) ∧
      ∀ as : List Attempt,
        let sent i := sentAttempts (as.take i)
        let after i := sink.afterAttempts (as.take i)
        (∀ i, (after i).written = sink.written ++ (sink.fitting (sent i)).toArray ∧
            (after i).flushes = sink.flushes + sink.wholeLines (as.take i)) ∧
          (sink.attempts as).length = as.length ∧
          (∀ i a, as[i]? = some a →
            (sink.attempts as)[i]? = some (after (i + 1),
                if sink.HasRoom (sent (i + 1)).length then a.flushFailure else some sink.failure) ∧
              ∃ part, part <+: sentLine a.line ∧
                (after (i + 1)).written = (after i).written ++ part.toArray) ∧
          ∀ pace : Pace, (∀ taken, pace taken ≠ some 0) →
            ((sink.atPace pace).attempts as).map (fun w => (w.1.written, w.1.flushes, w.2)) =
              (sink.attempts as).map (fun w => (w.1.written, w.1.flushes, w.2)) := by
  refine ⟨fun lines => writeLines_eq_attempts hchunk lines, fun as => ?_⟩
  intro sent after
  refine ⟨fun i => ?_, sink.length_attempts as, fun i a ha => ⟨?_, ?_⟩, fun pace hpace => ?_⟩
  · have hafter : after i = sink.filled (as.take i) := afterAttempts_eq hchunk (as.take i)
    rw [hafter]
    exact ⟨rfl, rfl⟩
  · exact getElem?_attempts_eq hchunk ha
  · exact exists_written_append hchunk ha
  · rw [← map_attempts_atPace hchunk hpace as, List.map_map]
    rfl

/-- The third line is cut off and the fourth finds no room; of the two flushes the second fails. -/
theorem lines_fill_sink_cut :
    let sink : Sink := { chunk := some 2, room := some 6, failure := .connectionReset }
    let as : List Attempt := [⟨"a", none⟩, ⟨"", some .brokenPipe⟩, ⟨"bcde", none⟩, ⟨"", none⟩]
    (∀ taken, sink.chunk taken ≠ some 0) ∧
      (sink.afterAttempts as).written.toList = Utf8.encode "a\n\nbcd" ∧
      (sink.afterAttempts as).flushes = 2 ∧
      ((sink.attempts as).map fun w => w.2) =
        [none, some .brokenPipe, some .connectionReset, some .connectionReset] := by
  intro sink as
  have hchunk : ∀ taken, sink.chunk taken ≠ some 0 := by simp [sink]
  obtain ⟨hafter, hlength, htries, -⟩ := (lines_fill_sink hchunk).2 as
  obtain ⟨hwritten, hflushes⟩ := hafter 4
  refine ⟨hchunk, ?_, ?_, List.ext_getElem? fun i => ?_⟩
  · rw [show as = as.take 4 from rfl, hwritten]
    decide
  · rw [show as = as.take 4 from rfl, hflushes]
    decide
  · rw [List.getElem?_map]
    match i with
    | 0 => rw [(htries 0 _ rfl).1]; decide
    | 1 => rw [(htries 1 _ rfl).1]; decide
    | 2 => rw [(htries 2 _ rfl).1]; decide
    | 3 => rw [(htries 3 _ rfl).1]; decide
    | i + 4 => rw [List.getElem?_eq_none (by rw [hlength]; exact Nat.le_add_left 4 i)]; rfl

end RelayStore
