import RelayStore.Text.White

/-! # Tokens

A text is read as its maximal runs of characters that are not white space. The split
runs from the right, so that one step in front of a finished split decides whether a
character extends the first run or ends it. Trimming removes white space at both ends,
and a text is blank if it holds nothing else. Case is folded for the ASCII letters only.
-/
namespace RelayStore.Text

/-- A split in progress: the run being gathered and the finished runs behind it. -/
abbrev Split := List Char × List (List Char)

def Split.runs (s : Split) : List (List Char) :=
  if s.1.isEmpty then s.2 else s.1 :: s.2

def splitStep (c : Char) (s : Split) : Split :=
  if isWhite c then ([], s.runs) else (c :: s.1, s.2)

def split (cs : List Char) : Split :=
  cs.foldr splitStep ([], [])

def words (cs : List Char) : List (List Char) :=
  (split cs).runs

def tokens (s : String) : List String :=
  (words s.toList).map String.ofList

def stripWhite (cs : List Char) : List Char :=
  ((cs.dropWhile isWhite).reverse.dropWhile isWhite).reverse

def trim (s : String) : String :=
  .ofList (stripWhite s.toList)

def isBlank (s : String) : Bool :=
  s.toList.all isWhite

def upper (s : String) : String :=
  .ofList (s.toList.map Char.toUpper)

def IsToken (s : String) : Prop :=
  s ≠ "" ∧ ∀ c ∈ s.toList, isWhite c = false

instance (s : String) : Decidable (IsToken s) :=
  decidable_of_iff (s ≠ "" ∧ (s.toList.all fun c => !isWhite c) = true) (by simp [IsToken])

@[simp] theorem words_nil : words [] = [] := rfl

theorem split_cons (c : Char) (cs : List Char) : split (c :: cs) = splitStep c (split cs) := rfl

theorem words_cons_white {c : Char} (h : isWhite c = true) (cs : List Char) :
    words (c :: cs) = words cs := by
  simp [words, split_cons, splitStep, h, Split.runs]

end RelayStore.Text
