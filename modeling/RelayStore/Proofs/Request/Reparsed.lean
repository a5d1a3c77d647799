import RelayStore.Proofs.Request.Grammar
import RelayStore.Proofs.Request.Rendered

/-! # Written commands that are parsed again

A written command has the tokens of its arguments behind its name, and these decide what it parses
as: the command of the same verb with these tokens as its arguments, if their number is right.
That is the command itself exactly if each argument is a token. Other commands are rejected, or
taken as one that is not the one that was written.
-/
namespace RelayStore
open Text

namespace Command

theorem isNamed_name (c : Command) : c.verb.IsNamed c.name :=
  (ofTokens_eq_ok_iff.mp c.ofTokens_name).1

theorem isNamed_name_iff {c : Command} {v : Verb} : v.IsNamed c.name ↔ v = c.verb := by
  rw [← Verb.ofName?_eq_some_iff, Verb.ofName?_eq_some_iff.mpr c.isNamed_name, Option.some_inj, eq_comm]

theorem leads_name (c : Command) (args : List String) :
    Origin.client.Leads (c.name :: args) (c.name :: args) :=
  .client (by simpa using c.isNamed_name.not_isVariant_marker)

end Command

namespace Request

/-- What a written command parses as, whatever its arguments hold. -/
theorem parse_render_eq (c : Command) :
    parse c.render = (Command.ofTokens c.name (c.arguments.flatMap tokens)).map fun c' => ⟨.client, c'⟩ := by
  rw [parse, Command.tokens_render_eq]
  exact ofTokens_of_leads (c.leads_name _)

theorem parse_render_eq_ok_iff {c : Command} {r : Request} :
    parse c.render = .ok r ↔ r.origin = .client ∧ r.command.verb = c.verb ∧
      r.command.arguments = c.arguments.flatMap tokens := by
  rw [parse_render_eq, map_eq_ok_iff]
  simp only [Command.ofTokens_eq_ok_iff, Command.isNamed_name_iff]
  constructor
  · rintro ⟨c', h, rfl⟩
    exact ⟨rfl, h⟩
  · obtain ⟨origin, c'⟩ := r
    rintro ⟨rfl, h⟩
    exact ⟨c', h, rfl⟩

theorem parse_render_eq_error_iff {c : Command} {e : Rejection} :
    parse c.render = .error e ↔
      (c.arguments.flatMap tokens).length ≠ c.verb.arity ∧ e = .wrongArity c.verb.usage := by
  rw [parse_render_eq, map_eq_error_iff]
  constructor
  · intro h
    rcases Command.ofTokens_eq_error h with rfl | ⟨v, rfl⟩
    · exact absurd c.isNamed_name ((Command.ofTokens_eq_unknownCommand_iff.mp h).2 c.verb)
    · obtain ⟨w, hw, harity, husage⟩ := Command.ofTokens_eq_wrongArity_iff.mp h
      obtain rfl := Command.isNamed_name_iff.mp hw
      exact ⟨harity, by rw [husage]⟩
  · rintro ⟨harity, rfl⟩
    exact Command.ofTokens_eq_wrongArity_iff.mpr ⟨c.verb, c.isNamed_name, harity, rfl⟩

/-- A command is written and parsed. It comes back, from whatever origin, exactly if its key, and for
setting also its value, is not empty and holds no white space, and then it is a client's. In
general the tokens of its arguments come back as the arguments of its verb, or the line is
rejected with the verb's usage if their number is wrong. Every command that is ever taken from a
line comes back when it is written. -/
theorem written_parses_back (c : Command) :
    ((∃ r, parse c.render = .ok r ∧ r.command = c) ↔ c.IsClean) ∧
      (parse c.render = .ok ⟨.client, c⟩ ↔ c.IsClean) ∧
      (∀ r, parse c.render = .ok r ↔ r.origin = .client ∧ r.command.verb = c.verb ∧
        r.command.arguments = c.arguments.flatMap tokens) ∧
      (∀ e, parse c.render = .error e ↔
        (c.arguments.flatMap tokens).length ≠ c.verb.arity ∧ e = .wrongArity c.verb.usage) ∧
      ∀ line r, parse line = .ok r → parse r.command.render = .ok ⟨.client, r.command⟩ := by
  refine ⟨⟨?_, fun h => ⟨_, parse_render h, rfl⟩⟩, ⟨fun h => isClean_of_parse h, parse_render⟩,
    fun r => parse_render_eq_ok_iff, fun e => parse_render_eq_error_iff,
    fun line r h => parse_render (isClean_of_parse h)⟩
  rintro ⟨r, h, rfl⟩
  exact isClean_of_parse h

/-- White space in a key makes up for an empty value. -/
example : parse (Command.set "a\u3000b" "").render = .ok ⟨.client, .set "a" "b"⟩ := by decide

end Request
end RelayStore
