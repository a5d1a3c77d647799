import RelayStore.Proofs.Request.Marked
import RelayStore.Proofs.Text.Spelling

/-! # The grammar of requests

A request is spelled as an optional marker, a name of its command and the arguments, with
white space before each but the first and perhaps at the ends. Marker and name may be in any
ASCII case, arguments are taken as they are. Exactly the texts that spell a request parse as
it, and each other text is rejected for the first of four causes that applies.
-/
namespace RelayStore
open Text

/-! ## Names -/

def Verb.arity : Verb → Nat
  | .get | .delete => 1
  | .set => 2

def Verb.IsNamed (v : Verb) (name : String) : Prop :=
  ∃ word ∈ v.names, IsVariant word name

def Command.verb : Command → Verb
  | .get _ => .get
  | .set _ _ => .set
  | .delete _ => .delete

namespace Verb

theorem isNamed_iff {v : Verb} {name : String} : v.IsNamed name ↔ upper name ∈ v.names := by
  have hupper : ∀ word ∈ v.names, upper word = word := by cases v <;> decide
  constructor
  · rintro ⟨word, hword, hname⟩
    rwa [(isVariant_iff (hupper word hword)).mp hname]
  · intro h
    exact ⟨upper name, h, (isVariant_iff (hupper _ h)).mpr rfl⟩

instance (v : Verb) (name : String) : Decidable (v.IsNamed name) :=
  decidable_of_iff _ isNamed_iff.symm

theorem ofName?_eq_some_iff {v : Verb} {name : String} : ofName? name = some v ↔ v.IsNamed name := by
  have hsame : ∀ w : Verb, upper name ∈ v.names → upper name ∈ w.names → w = v := by
    intro w hv hw
    cases v <;> cases w <;> simp_all [names]
  rw [isNamed_iff, ofName?]
  constructor
  · intro h
    simpa using List.find?_some h
  · intro h
    cases hfind : [get, set, delete].find? fun w => w.names.contains (upper name) with
    | none =>
      have hnot := List.find?_eq_none.mp hfind v (by cases v <;> decide)
      simp [h] at hnot
    | some w =>
      have hw : upper name ∈ w.names := by simpa using List.find?_some hfind
      rw [hsame w h hw]

theorem ofName?_eq_none_iff {name : String} : ofName? name = none ↔ ∀ v : Verb, ¬ v.IsNamed name := by
  simp only [Option.eq_none_iff_forall_ne_some, ne_eq, ofName?_eq_some_iff]

theorem command?_eq_some_iff {v : Verb} {args : List String} {c : Command} :
    v.command? args = some c ↔ c.verb = v ∧ c.arguments = args := by
  constructor
  · intro h
    refine ⟨?_, arguments_of_command? h⟩
    unfold command? at h
    split at h <;> cases h <;> rfl
  · rintro ⟨rfl, rfl⟩
    cases c <;> rfl

theorem command?_eq_none_iff {v : Verb} {args : List String} :
    v.command? args = none ↔ args.length ≠ v.arity := by
  cases v <;> rcases args with _ | ⟨a, _ | ⟨b, _ | ⟨c, args⟩⟩⟩ <;> simp [command?, arity]

end Verb

/-! ## Tokens -/

namespace Command
variable {name : String} {args : List String}

theorem ofTokens_eq_ok_iff {c : Command} :
    ofTokens name args = .ok c ↔ c.verb.IsNamed name ∧ c.arguments = args := by
  rw [ofTokens]
  cases hverb : Verb.ofName? name with
  | none => simpa using fun h => absurd h (Verb.ofName?_eq_none_iff.mp hverb c.verb)
  | some v =>
    have hnamed : c.verb.IsNamed name ↔ v = c.verb := by
      rw [← Verb.ofName?_eq_some_iff, hverb, Option.some_inj]
    cases hc : v.command? args with
    | none =>
      have hnot : ¬ (c.verb = v ∧ c.arguments = args) := by
        simp [← Verb.command?_eq_some_iff, hc]
      simpa [hc, hnamed, eq_comm] using hnot
    | some c' =>
      have hsome : c' = c ↔ c.verb = v ∧ c.arguments = args := by
        rw [← Verb.command?_eq_some_iff, hc, Option.some_inj]
      simpa [hc, hnamed, eq_comm] using hsome

theorem ofTokens_eq_wrongArity_iff {usage : String} :
    ofTokens name args = .error (.wrongArity usage) ↔
      ∃ v : Verb, v.IsNamed name ∧ args.length ≠ v.arity ∧ usage = v.usage := by
  rw [ofTokens]
  cases hverb : Verb.ofName? name with
  | none => simpa using fun v h => absurd h (Verb.ofName?_eq_none_iff.mp hverb v)
  | some v =>
    have hnamed (w : Verb) : w.IsNamed name ↔ v = w := by
      rw [← Verb.ofName?_eq_some_iff, hverb, Option.some_inj]
    cases hc : v.command? args with
    | none =>
      have harity := Verb.command?_eq_none_iff.mp hc
      simp [hc, hnamed, harity, eq_comm]
    | some c =>
      have harity : args.length = v.arity := by
        by_contra hne
        simp [Verb.command?_eq_none_iff.mpr hne] at hc
      simp [hc, hnamed, harity]

theorem ofTokens_eq_unknownCommand_iff {quoted : String} :
    ofTokens name args = .error (.unknownCommand quoted) ↔
      quoted = name ∧ ∀ v : Verb, ¬ v.IsNamed name := by
  rw [ofTokens, ← Verb.ofName?_eq_none_iff]
  cases hverb : Verb.ofName? name with
  | none => simp [eq_comm]
  | some v => cases hc : v.command? args <;> simp [hc]

end Command

/-! ## The marker -/

/-- The tokens of a line and those behind its leading marker, if it has one. -/
inductive Origin.Leads : Origin → List String → List String → Prop
  | client {ts : List String} (h : ∀ t ∈ ts.head?, ¬ IsVariant marker t) : Leads .client ts ts
  | peer {mark : String} {ts : List String} (h : IsVariant marker mark) : Leads .peer (mark :: ts) ts

theorem isVariant_marker_iff {t : String} : IsVariant marker t ↔ upper t = marker :=
  isVariant_iff Request.upper_marker

theorem Verb.IsNamed.not_isVariant_marker {v : Verb} {name : String} (h : v.IsNamed name) :
    ¬ IsVariant marker name := by
  have hnot : ∀ v : Verb, marker ∉ v.names := by
    intro v
    cases v <;> decide
  intro hmarker
  exact hnot v (isVariant_marker_iff.mp hmarker ▸ isNamed_iff.mp h)

theorem Verb.IsNamed.isToken {v : Verb} {name : String} (h : v.IsNamed name) : IsToken name := by
  obtain ⟨word, hword, hname⟩ := h
  have hall : ∀ word ∈ v.names, IsToken word := by cases v <;> decide
  exact hname.isToken (hall word hword)

namespace Request

/-- A line has no token, or the marker alone, or else a first token behind at most one marker. -/
theorem tokens_cases (ts : List String) :
    ts = [] ∨ (∃ mark, IsVariant marker mark ∧ ts = [mark]) ∨
      ∃ o name args, Origin.Leads o ts (name :: args) := by
  rcases ts with _ | ⟨first, rest⟩
  · exact .inl rfl
  by_cases hmark : IsVariant marker first
  · rcases rest with _ | ⟨name, args⟩
    · exact .inr (.inl ⟨first, hmark, rfl⟩)
    · exact .inr (.inr ⟨.peer, name, args, .peer hmark⟩)
  · exact .inr (.inr ⟨.client, first, rest, .client (by simpa using hmark)⟩)

theorem ofTokens_mark {mark : String} (h : IsVariant marker mark) :
    ofTokens [mark] = .error .missingCommand := by
  rw [ofTokens_cons, if_pos (isVariant_marker_iff.mp h)]

/-- The token behind the marker and those that follow it decide on the command. -/
theorem ofTokens_of_leads {o : Origin} {ts args : List String} {name : String}
    (h : o.Leads ts (name :: args)) :
    ofTokens ts = (Command.ofTokens name args).map fun c => ⟨o, c⟩ := by
  generalize hrest : name :: args = rest at h
  cases h with
  | client h =>
    subst hrest
    have hname : upper name ≠ marker := by simpa [isVariant_marker_iff] using h
    rw [ofTokens_cons, if_neg hname]
  | peer h =>
    subst hrest
    rw [ofTokens_cons, if_pos (isVariant_marker_iff.mp h)]

theorem ofTokens_eq_ok_iff {ts : List String} {r : Request} :
    ofTokens ts = .ok r ↔
      ∃ name, r.origin.Leads ts (name :: r.command.arguments) ∧ r.command.verb.IsNamed name := by
  constructor
  · intro h
    rcases tokens_cases ts with rfl | ⟨mark, hmark, rfl⟩ | ⟨o, name, args, hleads⟩
    · cases h
    · rw [ofTokens_mark hmark] at h
      cases h
    · rw [ofTokens_of_leads hleads] at h
      obtain ⟨c, hc, rfl⟩ := map_eq_ok_iff.mp h
      obtain ⟨hname, rfl⟩ := Command.ofTokens_eq_ok_iff.mp hc
      exact ⟨name, hleads, hname⟩
  · rintro ⟨name, hleads, hname⟩
    rw [ofTokens_of_leads hleads, Command.ofTokens_eq_ok_iff.mpr ⟨hname, rfl⟩]
    rfl

theorem ofTokens_eq_error_iff {ts : List String} {e : Rejection} :
    ofTokens ts = .error e ↔ ts = [] ∧ e = .empty ∨
      (∃ mark, IsVariant marker mark ∧ ts = [mark]) ∧ e = .missingCommand ∨
      ∃ (o : Origin) (name : String) (args : List String), o.Leads ts (name :: args) ∧
        Command.ofTokens name args = .error e := by
  constructor
  · intro h
    rcases tokens_cases ts with rfl | ⟨mark, hmark, rfl⟩ | ⟨o, name, args, hleads⟩
    · cases h
      exact .inl ⟨rfl, rfl⟩
    · rw [ofTokens_mark hmark] at h
      cases h
      exact .inr (.inl ⟨⟨mark, hmark, rfl⟩, rfl⟩)
    · rw [ofTokens_of_leads hleads] at h
      exact .inr (.inr ⟨o, name, args, hleads, map_eq_error_iff.mp h⟩)
  · rintro (⟨rfl, rfl⟩ | ⟨⟨mark, hmark, rfl⟩, rfl⟩ | ⟨o, name, args, hleads, he⟩)
    · rfl
    · exact ofTokens_mark hmark
    · rw [ofTokens_of_leads hleads, he]
      rfl

/-- What stands in front of the name: the marker and white space if a neighbour sent the
request, and nothing if a client did. -/
inductive MarkedBy : Origin → String → Prop
  | client : MarkedBy .client ""
  | peer {mark gap : String} (hmark : IsVariant marker mark) (hne : gap ≠ "")
    (hgap : isBlank gap = true) : MarkedBy .peer (mark ++ gap)

def IsSpelledBy (r : Request) (text : String) : Prop :=
  ∃ lead mark name args trail, text = lead ++ mark ++ name ++ args ++ trail ∧
    isBlank lead = true ∧ MarkedBy r.origin mark ∧ r.command.verb.IsNamed name ∧
    Gapped r.command.arguments args ∧ isBlank trail = true

/-- A text spells a request if its tokens behind the marker are a name and the arguments. -/
theorem isSpelledBy_iff {r : Request} {text : String} :
    r.IsSpelledBy text ↔ ∃ ts name, ConsistsOf text ts ∧
      r.origin.Leads ts (name :: r.command.arguments) ∧ r.command.verb.IsNamed name := by
  obtain ⟨o, c⟩ := r
  constructor
  · rintro ⟨lead, mark, name, args, trail, rfl, hlead, hmark, hname, hargs, htrail⟩
    have htoken := hname.isToken
    cases hmark with
    | client =>
      refine ⟨name :: c.arguments, name, ⟨lead, args, trail, by simp, hlead, htoken, hargs, htrail⟩,
        .client ?_, hname⟩
      simpa using hname.not_isVariant_marker
    | @peer mark gap hmark hne hgap =>
      have hmarkToken : IsToken mark := hmark.isToken (by decide)
      refine ⟨mark :: name :: c.arguments, name, ?_, .peer hmark, hname⟩
      exact ⟨lead, gap ++ name ++ args, trail, by simp only [String.append_assoc], hlead, hmarkToken,
        .cons hne hgap htoken hargs, htrail⟩
  · rintro ⟨ts, name, hts, hleads, hname⟩
    generalize hrest : name :: c.arguments = rest at hleads
    cases hleads with
    | client h =>
      subst hrest
      obtain ⟨lead, args, trail, rfl, hlead, -, hargs, htrail⟩ := hts
      exact ⟨lead, "", name, args, trail, by simp, hlead, .client, hname, hargs, htrail⟩
    | peer hmark =>
      subst hrest
      obtain ⟨lead, rest, trail, rfl, hlead, -, hrest, htrail⟩ := hts
      cases hrest with
      | @cons gap _ args _ hne hgap _ hargs =>
        exact ⟨lead, _, name, args, trail, by simp only [String.append_assoc], hlead,
          .peer hmark hne hgap, hname, hargs, htrail⟩

/-! ## The law of requests -/

/-- A text parses as the requests that it spells and as nothing else. Any other text is rejected:
as empty exactly if it has no token, for a missing command exactly if its only token is the
marker, for the number of arguments with the usage of the command exactly if the token behind at
most one marker names a command that takes another number, and as an unknown command that is
quoted as typed exactly if that token names none. -/
theorem parses_iff_spelled (text : String) :
    (∀ r : Request, parse text = .ok r ↔ r.IsSpelledBy text) ∧
      (parse text = .error .empty ↔ ConsistsOf text []) ∧
      (parse text = .error .missingCommand ↔ ∃ mark, IsVariant marker mark ∧ ConsistsOf text [mark]) ∧
      (∀ usage, parse text = .error (.wrongArity usage) ↔
        ∃ (ts : List String) (o : Origin) (name : String) (args : List String) (v : Verb),
          ConsistsOf text ts ∧ o.Leads ts (name :: args) ∧ v.IsNamed name ∧ args.length ≠ v.arity ∧
            usage = v.usage) ∧
      (∀ quoted, parse text = .error (.unknownCommand quoted) ↔
        ∃ (ts : List String) (o : Origin) (args : List String),
          ConsistsOf text ts ∧ o.Leads ts (quoted :: args) ∧ ∀ v : Verb, ¬ v.IsNamed quoted) ∧
      ∀ limit, parse text ≠ .error (.lineTooLong limit) := by
  have hcommand {name : String} {args : List String} {e : Rejection}
      (h : Command.ofTokens name args = .error e) :
      e ≠ .empty ∧ e ≠ .missingCommand ∧ ∀ limit, e ≠ .lineTooLong limit := by
    rcases Command.ofTokens_eq_error h with rfl | ⟨v, rfl⟩ <;> simp
  simp only [isSpelledBy_iff, consistsOf_iff, parse]
  refine ⟨fun r => ?_, ?_, ?_, fun usage => ?_, fun quoted => ?_, fun limit h => ?_⟩
  · simpa using ofTokens_eq_ok_iff
  · rw [ofTokens_eq_error_iff]
    constructor
    · rintro (⟨hts, -⟩ | ⟨-, ⟨⟩⟩ | ⟨o, name, args, -, he⟩)
      · exact hts
      · exact absurd rfl (hcommand he).1
    · exact fun hts => .inl ⟨hts, rfl⟩
  · rw [ofTokens_eq_error_iff]
    constructor
    · rintro (⟨-, ⟨⟩⟩ | ⟨hmark, -⟩ | ⟨o, name, args, -, he⟩)
      · exact hmark
      · exact absurd rfl (hcommand he).2.1
    · exact fun hmark => .inr (.inl ⟨hmark, rfl⟩)
  · rw [ofTokens_eq_error_iff]
    constructor
    · rintro (⟨-, ⟨⟩⟩ | ⟨-, ⟨⟩⟩ | ⟨o, name, args, hleads, he⟩)
      obtain ⟨v, hname, harity, husage⟩ := Command.ofTokens_eq_wrongArity_iff.mp he
      exact ⟨_, o, name, args, v, rfl, hleads, hname, harity, husage⟩
    · rintro ⟨_, o, name, args, v, rfl, hleads, hname, harity, husage⟩
      exact .inr (.inr ⟨o, name, args, hleads,
        Command.ofTokens_eq_wrongArity_iff.mpr ⟨v, hname, harity, husage⟩⟩)
  · rw [ofTokens_eq_error_iff]
    constructor
    · rintro (⟨-, ⟨⟩⟩ | ⟨-, ⟨⟩⟩ | ⟨o, name, args, hleads, he⟩)
      obtain ⟨rfl, hnone⟩ := Command.ofTokens_eq_unknownCommand_iff.mp he
      exact ⟨_, o, args, rfl, hleads, hnone⟩
    · rintro ⟨_, o, args, rfl, hleads, hnone⟩
      exact .inr (.inr ⟨o, quoted, args, hleads,
        Command.ofTokens_eq_unknownCommand_iff.mpr ⟨rfl, hnone⟩⟩)
  · rcases ofTokens_eq_error_iff.mp h with ⟨-, ⟨⟩⟩ | ⟨-, ⟨⟩⟩ | ⟨o, name, args, -, he⟩
    exact (hcommand he).2.2 limit rfl

/-- Only one marker is taken; the next one is a name, and an unknown one. -/
example : parse "PROPAGATE\u2003Propagate SET k v" = .error (.unknownCommand "Propagate") := by decide

end Request
end RelayStore
