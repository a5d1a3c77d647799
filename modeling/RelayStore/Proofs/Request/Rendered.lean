import RelayStore.Request
import RelayStore.Proofs.Text.Words

/-! # Written commands

A command whose arguments are tokens is written as a line that parses as that command of
a client. The line has no white space at its ends.
-/
namespace RelayStore
open Text

def Command.name : Command → String
  | .get _ => "GET"
  | .set _ _ => "SET"
  | .delete _ => "DELETE"

namespace Command

theorem isClean_set {key value : String} (hkey : IsToken key) (hvalue : IsToken value) :
    (set key value).IsClean := by
  intro t ht
  rcases List.mem_cons.mp ht with rfl | ht
  · exact hkey
  · rwa [List.mem_singleton.mp ht]

theorem render_get (key : String) : (get key).render = "GET" ++ " " ++ key := rfl

theorem render_set (key value : String) :
    (set key value).render = "SET" ++ " " ++ key ++ " " ++ value := rfl

theorem render_delete (key : String) : (delete key).render = "DELETE" ++ " " ++ key := rfl

/-- The tokens of a written command are its name and those of its arguments, whatever these hold. -/
theorem tokens_render_eq (c : Command) : tokens c.render = c.name :: c.arguments.flatMap tokens := by
  have hname {n : String} (hn : IsToken n) (s : String) : tokens (n ++ " " ++ s) = n :: tokens s := by
    rw [tokens_spaced, tokens_of_isToken hn]
    rfl
  cases c with
  | get key =>
    rw [render_get, hname (by decide)]
    simp [name, arguments]
  | set key value =>
    rw [render_set, tokens_spaced, hname (by decide)]
    simp [name, arguments]
  | delete key =>
    rw [render_delete, hname (by decide)]
    simp [name, arguments]

theorem IsClean.flatMap_tokens {c : Command} (h : c.IsClean) : c.arguments.flatMap tokens = c.arguments := by
  have hself : c.arguments.flatMap tokens = c.arguments.flatMap fun t => [t] :=
    List.flatMap_congr fun t ht => tokens_of_isToken (h t ht)
  rw [hself, List.flatMap_singleton']

theorem tokens_render {c : Command} (h : c.IsClean) : tokens c.render = c.name :: c.arguments := by
  rw [tokens_render_eq, h.flatMap_tokens]

theorem isSpaced_render {c : Command} (h : c.IsClean) : IsSpaced c.render := by
  have hspace : IsSpaced " " := by decide
  cases c with
  | get key =>
    have hname : IsSpaced "GET " := by decide
    exact hname.append (h key (by simp [arguments])).isSpaced
  | set key value =>
    have hname : IsSpaced "SET " := by decide
    exact ((hname.append (h key (by simp [arguments])).isSpaced).append hspace).append
      (h value (by simp [arguments])).isSpaced
  | delete key =>
    have hname : IsSpaced "DELETE " := by decide
    exact hname.append (h key (by simp [arguments])).isSpaced

theorem isBlank_render {c : Command} (h : c.IsClean) : isBlank c.render = false :=
  isBlank_of_tokens (tokens_render h)

theorem ofTokens_name (c : Command) : ofTokens c.name c.arguments = .ok c := by
  have hget : Verb.ofName? "GET" = some .get := by decide
  have hset : Verb.ofName? "SET" = some .set := by decide
  have hdelete : Verb.ofName? "DELETE" = some .delete := by decide
  cases c with
  | get key => simp only [ofTokens, name, arguments, hget, Verb.command?]
  | set key value => simp only [ofTokens, name, arguments, hset, Verb.command?]
  | delete key => simp only [ofTokens, name, arguments, hdelete, Verb.command?]

end Command

theorem Request.parse_render {c : Command} (h : c.IsClean) : parse c.render = .ok ⟨.client, c⟩ := by
  have hne : upper c.name ≠ marker := by
    cases c <;> (dsimp only [Command.name]; decide)
  rw [parse, Command.tokens_render h]
  simp only [ofTokens, if_neg hne, Command.ofTokens_name]
  rfl

/-- A written command has no white space at its ends. -/
theorem Command.trim_render {c : Command} (h : c.IsClean) : trim c.render = c.render := by
  have hlast {t : String} (ht : IsToken t) (cs : List Char) :
      ∀ a ∈ (cs ++ t.toList).getLast?, isWhite a = false := by
    intro a ha
    have hne : t.toList ≠ [] := fun he => ht.1 (by simpa using congrArg String.ofList he)
    rw [List.getLast?_append_of_ne_nil _ hne] at ha
    exact ht.2 a (List.mem_of_getLast? ha)
  rw [trim]
  conv_rhs => rw [← String.ofList_toList (s := c.render)]
  congr 1
  apply stripWhite_eq_self
  · intro a ha
    cases c <;> simp [render] at ha <;> subst ha <;> decide
  · cases c with
    | get key =>
      rw [render, String.toList_append]
      exact hlast (h key (by simp [arguments])) _
    | set key value =>
      rw [render, String.toList_append]
      exact hlast (h value (by simp [arguments])) _
    | delete key =>
      rw [render, String.toList_append]
      exact hlast (h key (by simp [arguments])) _

end RelayStore
