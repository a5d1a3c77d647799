import RelayStore.Proofs.Request.Grammar

/-! # A line and its marked form

The marked form of a line has the tokens of the line behind the marker. What the line asks for
as a client's it asks for as a neighbour's, and what is wrong with the one is wrong with the
other. They part only where the line has no token, and where it has a marker of its own: behind
another marker it stands for a name, and no command goes by it.
-/
namespace RelayStore
open Text

theorem Command.ofTokens_of_isVariant_marker {name : String} (h : IsVariant marker name)
    (args : List String) : ofTokens name args = .error (.unknownCommand name) :=
  ofTokens_eq_unknownCommand_iff.mpr ⟨rfl, fun _ hname => hname.not_isVariant_marker h⟩

namespace Request
variable {line name : String} {args : List String}

/-- The same command of a client and of a neighbour, or the same rejection. -/
inductive Alike : Except Rejection Request → Except Rejection Request → Prop
  | taken (c : Command) : Alike (.ok ⟨.client, c⟩) (.ok ⟨.peer, c⟩)
  | rejected (e : Rejection) : Alike (.error e) (.error e)

theorem isVariant_marker : IsVariant marker marker :=
  isVariant_marker_iff.mpr upper_marker

theorem parse_markedLine_of_cons (h : tokens line = name :: args) :
    parse (markedLine line) = (Command.ofTokens name args).map fun c => ⟨.peer, c⟩ := by
  rw [parse, tokens_markedLine, h]
  exact ofTokens_of_leads (.peer isVariant_marker)

theorem parse_of_cons (h : tokens line = name :: args) (hname : ¬ IsVariant marker name) :
    parse line = (Command.ofTokens name args).map fun c => ⟨.client, c⟩ := by
  rw [parse, h]
  exact ofTokens_of_leads (.client (by simpa using hname))

theorem parse_markedLine_of_blank (h : isBlank line = true) :
    parse (markedLine line) = .error .missingCommand := by
  rw [parse, tokens_markedLine, tokens_eq_nil_iff.mpr h]
  exact ofTokens_mark isVariant_marker

/-- A marker of the line's own is quoted as a name, whatever follows it. -/
theorem parse_markedLine_of_mark (h : tokens line = name :: args) (hname : IsVariant marker name) :
    parse (markedLine line) = .error (.unknownCommand name) := by
  rw [parse_markedLine_of_cons h, Command.ofTokens_of_isVariant_marker hname]
  rfl

theorem alike_of_cons (h : tokens line = name :: args) (hname : ¬ IsVariant marker name) :
    Alike (parse line) (parse (markedLine line)) := by
  rw [parse_of_cons h hname, parse_markedLine_of_cons h]
  cases Command.ofTokens name args with
  | ok c => exact .taken c
  | error e => exact .rejected e

/-- A neighbour's command in the marked form was a client's command in the line. -/
theorem parse_of_markedLine {c : Command} (h : parse (markedLine line) = .ok ⟨.peer, c⟩) :
    parse line = .ok ⟨.client, c⟩ := by
  rcases hline : tokens line with _ | ⟨name, args⟩
  · rw [parse_markedLine_of_blank (tokens_eq_nil_iff.mp hline)] at h
    cases h
  by_cases hname : IsVariant marker name
  · rw [parse_markedLine_of_mark hline hname] at h
    cases h
  · rw [parse_markedLine_of_cons hline] at h
    obtain ⟨_, hc, ⟨⟩⟩ := map_eq_ok_iff.mp h
    rw [parse_of_cons hline hname, hc]
    rfl

theorem isForwarded_of_markedLine {r : Request} (h : parse (markedLine line) = .ok r) :
    r.isForwarded = false :=
  isForwarded_eq_false_of_marked (tokens_markedLine line) h

/-- A line is parsed beside its marked form. The marked form is a neighbour's command exactly if
the line is that command of a client. If the line has a marker of its own in front, in any case,
the marked form is rejected with that marker quoted as typed, and if it is blank a command is
missing. Otherwise both are taken with the same command or both are rejected for the same cause.
So no marked form is ever to be relayed, whatever node it is sent to. -/
theorem marked_parses_alike (line : String) :
    (∀ c : Command, parse (markedLine line) = .ok ⟨.peer, c⟩ ↔ parse line = .ok ⟨.client, c⟩) ∧
      (∀ mark rest, ConsistsOf line (mark :: rest) → IsVariant marker mark →
        parse (markedLine line) = .error (.unknownCommand mark)) ∧
      (isBlank line = true → parse (markedLine line) = .error .missingCommand) ∧
      (∀ name rest, ConsistsOf line (name :: rest) → ¬ IsVariant marker name →
        Alike (parse line) (parse (markedLine line))) ∧
      (∀ r : Request, parse (markedLine line) = .ok r → r.isForwarded = false) ∧
      ∀ s : Store, (s.answer (markedLine line)).aftermath ≠ .forward := by
  simp only [consistsOf_iff]
  refine ⟨fun c => ⟨parse_of_markedLine, parse_markedLine⟩, fun _ _ => parse_markedLine_of_mark,
    parse_markedLine_of_blank, fun _ _ => alike_of_cons, fun _ => isForwarded_of_markedLine,
    fun s => ?_⟩
  cases hparse : parse (markedLine line) with
  | error e => simp [Store.answer, hparse]
  | ok r =>
    have hnot := isForwarded_of_markedLine hparse
    cases hmut : r.command.isMutation <;> simp [Store.answer, hparse, aftermath, hnot, hmut]

/-- A line with a marker in small letters, and a return and a wide space around it. -/
theorem marked_parses_alike_twice :
    let line := "\r propagate DEL k\u3000"
    ConsistsOf line ["propagate", "DEL", "k"] ∧ IsVariant marker "propagate" ∧
      markedLine line = "PROPAGATE propagate DEL k" ∧
      parse line = .ok ⟨.peer, .delete "k"⟩ ∧
      parse (markedLine line) = .error (.unknownCommand "propagate") := by
  intro line
  have htokens : ConsistsOf line ["propagate", "DEL", "k"] := consistsOf_iff.mpr (by decide)
  have hmark : IsVariant marker "propagate" := by decide
  exact ⟨htokens, hmark, by decide, by decide, (marked_parses_alike line).2.1 _ _ htokens hmark⟩

end Request
end RelayStore
