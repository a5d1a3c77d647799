import RelayStore.Proofs.Line.Sent
import RelayStore.Request

/-! # Requests that are taken

What a node takes from a text that a client sends as a line. A text without newline comes
to one item unless it is blank, and to at most one request. The line that is read differs
from the text only in the returns at its end, so both have the same trimmed form.
-/
namespace RelayStore
open Text

namespace Request

def ofItem? : Item → Option Request
  | .line line => (parse line).toOption
  | .tooLong => none

def ofSent (text : String) : List Request :=
  (Source.items ⟨[sentLine text], .idle⟩).1.filterMap ofItem?

end Request

theorem newline_not_mem_dropReturns {s : String} (h : '\n' ∉ s.toList) :
    '\n' ∉ (dropReturns s).toList := by
  obtain ⟨ws, -, happ⟩ := dropReturns_append s
  intro hm
  exact h (happ ▸ List.mem_append_left ws hm)

theorem Item.ofText?_cases {s : String} (h : isBlank s = false) :
    ofText? s = some .tooLong ∨ ofText? s = some (.line (dropReturns s)) := by
  rw [ofText?_of_not_isBlank h]
  split
  · exact .inr rfl
  · exact .inl rfl

/-- What is read of a text without newline, and the requests that are taken from it. -/
theorem sent_cases {text : String} (hnl : '\n' ∉ text.toList) (hblank : isBlank text = false) :
    ((Source.items ⟨[sentLine text], .idle⟩).1 = [.tooLong] ∧ Request.ofSent text = []) ∨
      ∃ line, '\n' ∉ line.toList ∧ trim line = trim text ∧
        (Source.items ⟨[sentLine text], .idle⟩).1 = [.line line] ∧
        Request.ofSent text = (Request.parse line).toOption.toList := by
  have hitems : (Source.items ⟨[sentLine text], .idle⟩).1 = (Item.ofText? text).toList := by
    rw [Source.items_of_sentLine _ (s := text) (by simp [Source.bytes]) (by simp),
      pieces_of_not_mem hnl]
    cases hitem : Item.ofText? text <;> simp [hitem]
  rcases Item.ofText?_cases hblank with hitem | hitem
  · rw [hitem] at hitems
    exact .inl ⟨hitems, by rw [Request.ofSent, hitems]; rfl⟩
  · rw [hitem] at hitems
    refine .inr ⟨dropReturns text, newline_not_mem_dropReturns hnl, trim_dropReturns text, hitems, ?_⟩
    rw [Request.ofSent, hitems]
    cases hparse : Request.parse (dropReturns text) with
    | error e => simp [Request.ofItem?, hparse, Except.toOption]
    | ok r => simp [Request.ofItem?, hparse, Except.toOption]

end RelayStore
