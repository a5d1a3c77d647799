import RelayStore.Cluster
import RelayStore.Proofs.Text.Words

/-! # Requests and their marked form

A parsed request is made of tokens of its line, so the arguments of its command are
tokens. The marked form of a line has the marker in front of the same tokens: what parses
as a client's command parses behind the marker as the same command of a neighbour. A line
that starts with the marker, whatever follows it, is never relayed.
-/
namespace RelayStore
open Text

theorem Verb.arguments_of_command? {verb : Verb} {args : List String} {c : Command}
    (h : verb.command? args = some c) : c.arguments = args := by
  unfold Verb.command? at h
  split at h <;> cases h <;> rfl

theorem Command.arguments_of_ofTokens {name : String} {args : List String} {c : Command}
    (h : Command.ofTokens name args = .ok c) : c.arguments = args := by
  unfold Command.ofTokens at h
  split at h
  · cases h
  · next verb _ =>
    split at h
    · cases h
    · next hc =>
      cases h
      exact Verb.arguments_of_command? hc

theorem Command.ofTokens_eq_error {name : String} {args : List String} {e : Rejection}
    (h : Command.ofTokens name args = .error e) :
    e = .unknownCommand name ∨ ∃ verb : Verb, e = .wrongArity verb.usage := by
  unfold Command.ofTokens at h
  split at h
  · cases h
    exact .inl rfl
  · next verb _ =>
    split at h
    · cases h
      exact .inr ⟨verb, rfl⟩
    · cases h

theorem map_eq_ok_iff {ε α β : Type} {x : Except ε α} {f : α → β} {b : β} :
    x.map f = .ok b ↔ ∃ a, x = .ok a ∧ f a = b := by
  cases x <;> simp [Except.map]

theorem map_eq_error_iff {ε α β : Type} {x : Except ε α} {f : α → β} {e : ε} :
    x.map f = .error e ↔ x = .error e := by
  cases x <;> simp [Except.map]

namespace Request

theorem ofTokens_cons (first : String) (rest : List String) :
    ofTokens (first :: rest) =
      if upper first = marker then
        match rest with
        | [] => .error .missingCommand
        | name :: args => (Command.ofTokens name args).map fun c => ⟨.peer, c⟩
      else (Command.ofTokens first rest).map fun c => ⟨.client, c⟩ := rfl

/-- The tokens that a parsed request is made of. -/
theorem parse_eq_ok {line : String} {r : Request} (h : parse line = .ok r) :
    ∃ name args, Command.ofTokens name args = .ok r.command ∧
      (r.origin = .client ∧ tokens line = name :: args ∧ upper name ≠ marker ∨
        r.origin = .peer ∧ ∃ mark, tokens line = mark :: name :: args ∧ upper mark = marker) := by
  unfold parse at h
  cases ht : tokens line with
  | nil => rw [ht] at h; cases h
  | cons first rest =>
    rw [ht, ofTokens_cons] at h
    by_cases hm : upper first = marker
    · rw [if_pos hm] at h
      cases rest with
      | nil => cases h
      | cons name args =>
        obtain ⟨c, hc, rfl⟩ := map_eq_ok_iff.mp h
        exact ⟨name, args, hc, .inr ⟨rfl, first, rfl, hm⟩⟩
    · rw [if_neg hm] at h
      obtain ⟨c, hc, rfl⟩ := map_eq_ok_iff.mp h
      exact ⟨first, rest, hc, .inl ⟨rfl, rfl, hm⟩⟩

theorem parse_eq_error {line : String} {e : Rejection} (h : parse line = .error e) :
    e = .empty ∨ e = .missingCommand ∨ (∃ name ∈ tokens line, e = .unknownCommand name) ∨
      ∃ verb : Verb, e = .wrongArity verb.usage := by
  unfold parse at h
  cases ht : tokens line with
  | nil =>
    rw [ht] at h
    cases h
    exact .inl rfl
  | cons first rest =>
    rw [ht, ofTokens_cons] at h
    by_cases hm : upper first = marker
    · rw [if_pos hm] at h
      cases rest with
      | nil =>
        cases h
        exact .inr (.inl rfl)
      | cons name args =>
        rcases Command.ofTokens_eq_error (map_eq_error_iff.mp h) with rfl | hv
        · exact .inr (.inr (.inl ⟨name, by simp, rfl⟩))
        · exact .inr (.inr (.inr hv))
    · rw [if_neg hm] at h
      rcases Command.ofTokens_eq_error (map_eq_error_iff.mp h) with rfl | hv
      · exact .inr (.inr (.inl ⟨first, by simp, rfl⟩))
      · exact .inr (.inr (.inr hv))

/-- The arguments of a parsed command can be told apart when it is written. -/
theorem isClean_of_parse {line : String} {r : Request} (h : parse line = .ok r) :
    r.command.IsClean := by
  obtain ⟨name, args, hc, ht⟩ := parse_eq_ok h
  intro t hmem
  rw [Command.arguments_of_ofTokens hc] at hmem
  apply isToken_of_mem_tokens (s := line)
  rcases ht with ⟨-, ht, -⟩ | ⟨-, mark, ht, -⟩
  · rw [ht]
    exact List.mem_cons_of_mem _ hmem
  · rw [ht]
    exact List.mem_cons_of_mem _ (List.mem_cons_of_mem _ hmem)

/-! ## Behind the marker -/

theorem upper_marker : upper marker = marker := by decide

theorem tokens_marker_spaced (s : String) : tokens (marker ++ " " ++ s) = marker :: tokens s := by
  rw [tokens_spaced, tokens_of_isToken (by decide)]
  rfl

theorem tokens_markedLine (line : String) : tokens (markedLine line) = marker :: tokens line := by
  rw [markedLine, tokens_marker_spaced, tokens_trim]

/-- What a client's line asks for, its marked form asks for as a neighbour's. -/
theorem parse_markedLine {line : String} {c : Command} (h : parse line = .ok ⟨.client, c⟩) :
    parse (markedLine line) = .ok ⟨.peer, c⟩ := by
  obtain ⟨name, args, hc, ⟨-, ht, -⟩ | ⟨ho, -⟩⟩ := parse_eq_ok h
  · rw [parse, tokens_markedLine, ht, ofTokens_cons, if_pos upper_marker]
    dsimp only at hc ⊢
    rw [hc]
    rfl
  · cases ho

theorem isForwarded_eq_false_of_marked {line : String} {rest : List String} {r : Request}
    (ht : tokens line = marker :: rest) (h : parse line = .ok r) : r.isForwarded = false := by
  obtain ⟨name, args, -, ⟨-, ht', hm⟩ | ⟨ho, -⟩⟩ := parse_eq_ok h
  · rw [ht] at ht'
    cases ht'
    exact absurd upper_marker hm
  · simp [isForwarded, ho]

end Request
end RelayStore
