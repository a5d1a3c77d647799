import RelayStore.Proofs.Request.Marked
import RelayStore.Proofs.Store.Applied
import RelayStore.Session

/-! # Stores of tokens

Parsed commands bring only tokens into a store. What a node then replies, a stored value
or a word of its own, holds no newline and is not blank, so it is written as one line and
is read as one.
-/
namespace RelayStore
open Text

/-- A store that holds nothing but tokens. -/
def Store.IsClean (s : Store) : Prop :=
  ∀ key value, s.get? key = some value → IsToken key ∧ IsToken value

theorem Store.isClean_empty : empty.IsClean := by
  intro key value h
  rw [get?_empty] at h
  cases h

/-- What a store holds after a command, it held before or was given by that command. -/
theorem Store.get?_apply_eq_some {s : Store} {c : Command} {key value : String}
    (h : (s.apply c).get? key = some value) : s.get? key = some value ∨ c = .set key value := by
  cases hmut : c.isMutation with
  | false => exact .inl (by rwa [apply_of_not_mutation hmut] at h)
  | true =>
    rw [get?_apply hmut] at h
    by_cases hkey : c.key = key
    · rw [if_pos hkey] at h
      exact .inr (hkey ▸ c.eq_set_of_outcome h)
    · exact .inl (by rwa [if_neg hkey] at h)

theorem Store.IsClean.apply {s : Store} {c : Command} (hs : s.IsClean) (hc : c.IsClean) :
    (s.apply c).IsClean := by
  intro key value h
  rcases get?_apply_eq_some h with h | rfl
  · exact hs key value h
  · exact ⟨hc key (by simp [Command.arguments]), hc value (by simp [Command.arguments])⟩

/-! ## Replies -/

/-- A reply that is read as a line, and as no other text, when it is written as one. -/
def Reply.IsLine (r : Reply) : Prop :=
  IsSpaced r.render ∧ isBlank r.render = false

instance (r : Reply) : Decidable r.IsLine :=
  inferInstanceAs (Decidable (_ ∧ _))

theorem Reply.isLine_value {v : String} (h : IsToken v) : (value v).IsLine :=
  ⟨h.isSpaced, isBlank_of_isToken h⟩

theorem Reply.isLine_error {message : String} (h : IsSpaced message) : (error message).IsLine := by
  have hword : IsSpaced "ERROR " := by decide
  refine ⟨hword.append h, ?_⟩
  have hlist : (error message).render.toList = "ERROR ".toList ++ message.toList := by
    rw [render, String.toList_append]
  rw [isBlank, hlist, List.all_append, Bool.and_eq_false_iff]
  exact .inl (by decide)

theorem Rejection.message_unknownCommand (name : String) :
    (unknownCommand name).message = "invalid command '" ++ name ++ "'" := rfl

theorem Rejection.isLine_reply {line : String} {e : Rejection}
    (h : Request.parse line = .error e) : e.reply.IsLine := by
  apply Reply.isLine_error
  rcases Request.parse_eq_error h with rfl | rfl | ⟨name, hname, rfl⟩ | ⟨verb, rfl⟩
  · decide
  · decide
  · have hbefore : IsSpaced "invalid command '" := by decide
    have hbehind : IsSpaced "'" := by decide
    rw [message_unknownCommand]
    exact (hbefore.append (isToken_of_mem_tokens hname).isSpaced).append hbehind
  · cases verb <;> decide

theorem Reply.isLine_tooLong : tooLongReply.IsLine :=
  isLine_error (by decide +kernel)

theorem Store.IsClean.isLine_replyTo {s : Store} (h : s.IsClean) (c : Command) :
    (s.replyTo c).IsLine := by
  cases c with
  | get key =>
    cases hget : s.get? key with
    | none =>
      simp only [replyTo, hget]
      decide
    | some value =>
      simp only [replyTo, hget]
      exact Reply.isLine_value (h key value hget).2
  | set key value => exact (by decide : Reply.done.IsLine)
  | delete key => exact (by decide : Reply.done.IsLine)

end RelayStore
