import RelayStore.CommandLine.Invocation

/-! # Options as they are written

An option stands on the command line with its value behind it or attached to it. Both come to the
same: the values are looked at in the order of their options, and the first that cannot be taken is
what is reported, although a value that stands behind its option is looked at only when the next
option is read.
-/
namespace RelayStore.CommandLine

structure Written where
  flag : Flag
  text : String
  isAttached : Bool
deriving DecidableEq, Repr

namespace Written

def words (w : Written) : List String :=
  if w.isAttached then ["--" ++ w.flag.name ++ "=" ++ w.text] else ["--" ++ w.flag.name, w.text]

/-- A page knows the option, and its value is not taken for an option. -/
structure IsReadable (page : Page) (w : Written) : Prop where
  mem_flags : w.flag ∈ page.flags
  no_dash : w.isAttached = false → w.text.toList.head? ≠ some '-'

end Written

/-! ## Words -/

theorem Word.ofArgument_name (flag : Flag) :
    Word.ofArgument ("--" ++ flag.name) = .long flag.name none := by
  cases flag <;> decide

theorem Word.ofArgument_attached (flag : Flag) (text : String) :
    Word.ofArgument ("--" ++ flag.name ++ "=" ++ text) = .long flag.name (some text) := by
  have hname : ∀ c ∈ flag.name.toList, (c != '=') = true :=
    List.all_eq_true.mp (by cases flag <;> decide)
  have hlist : ("--" ++ flag.name ++ "=" ++ text).toList =
      '-' :: '-' :: (flag.name.toList ++ '=' :: text.toList) := by
    simp [String.toList_append]
  have htake : (flag.name.toList ++ '=' :: text.toList).takeWhile (· != '=') = flag.name.toList := by
    rw [List.takeWhile_append_of_pos hname]
    simp
  have hdrop : (flag.name.toList ++ '=' :: text.toList).dropWhile (· != '=') = '=' :: text.toList := by
    rw [List.dropWhile_append_of_pos hname]
    simp
  simp only [Word.ofArgument, hlist, splitValue, htake, hdrop, String.ofList_toList]

theorem Word.ofArgument_plain {text : String} (h : text.toList.head? ≠ some '-') :
    Word.ofArgument text = .plain := by
  rw [Word.ofArgument]
  split
  · next hlist => simp [hlist] at h
  · next hlist => simp [hlist] at h
  · rfl

theorem Flag.name_inj {flag other : Flag} (h : flag.name = other.name) : flag = other := by
  cases flag <;> cases other <;> simp [name] at h ⊢

theorem Page.find?_flags {page : Page} {flag : Flag} (h : flag ∈ page.flags) :
    (page.flags.find? fun f => f.name = flag.name) = some flag := by
  have hsome : (page.flags.find? fun f => f.name = flag.name).isSome :=
    List.find?_isSome.mpr ⟨flag, h, decide_eq_true rfl⟩
  obtain ⟨found, hfound⟩ := Option.isSome_iff_exists.mp hsome
  have hname : found.name = flag.name := by simpa using List.find?_some hfound
  rw [hfound, Flag.name_inj hname]

/-! ## Reading -/

/-- An option ends the one before it, and its own value is looked at now or later. -/
theorem readOptions_long {page : Page} {flag : Flag} (hflag : flag ∈ page.flags) {arg : String}
    {value : Option String} (harg : Word.ofArgument arg = .long flag.name value) (p : Progress)
    (rest : List String) : readOptions page p (arg :: rest) = p.settle page >>= fun given =>
      match value with
      | none => readOptions page { given, pending := some (flag, none) } rest
      | some text =>
        Progress.commit page given flag text >>= fun given => readOptions page { given } rest := by
  have hne : arg ≠ "--" := by
    rintro rfl
    have hnone : Word.ofArgument "--" = .long "" none := by decide
    rw [hnone] at harg
    cases flag <;> exact absurd harg (by simp [Flag.name])
  have hhelp : flag.name ≠ "help" := by cases flag <;> decide
  rw [readOptions.eq_def]
  simp only [if_neg hne, harg]
  split
  · next h => exact absurd (Word.long.inj h).1 hhelp
  · next h => exact absurd (Word.long.inj h).1 hhelp
  · next h =>
    obtain ⟨rfl, rfl⟩ := Word.long.inj h
    rewrite [Page.find?_flags hflag]
    rfl
  all_goals next h => cases h

theorem readOptions_plain (page : Page) (given : List (Flag × Value)) (flag : Flag) {arg : String}
    (harg : Word.ofArgument arg = .plain) (rest : List String) :
    readOptions page { given, pending := some (flag, none) } (arg :: rest) =
      readOptions page { given, pending := some (flag, some arg) } rest := by
  have hne : arg ≠ "--" := by
    rintro rfl
    exact absurd harg (by decide)
  rw [readOptions.eq_def]
  simp only [if_neg hne, harg]

def Progress.commitAll (page : Page) (given : List (Flag × Value)) (ws : List Written) :
    Except Notice (List (Flag × Value)) :=
  ws.foldlM (fun given w => commit page given w.flag w.text) given

theorem Progress.commitAll_cons (page : Page) (given : List (Flag × Value)) (w : Written)
    (ws : List Written) : commitAll page given (w :: ws) =
      commit page given w.flag w.text >>= fun given => commitAll page given ws :=
  List.foldlM_cons

/-- However the options are written, their values are taken one behind the other, after that of an
option that is still open. -/
theorem readOptions_written {page : Page} {ws : List Written} (h : ∀ w ∈ ws, w.IsReadable page)
    (p : Progress) : readOptions page p (ws.flatMap Written.words) =
      p.settle page >>= fun given => Progress.commitAll page given ws := by
  induction ws generalizing p with
  | nil =>
    rw [List.flatMap_nil, readOptions]
    cases p.settle page <;> rfl
  | cons w ws ih =>
    obtain ⟨hw, hws⟩ := List.forall_mem_cons.mp h
    rw [List.flatMap_cons]
    cases hattached : w.isAttached with
    | true =>
      have hwords : w.words = ["--" ++ w.flag.name ++ "=" ++ w.text] := by
        rw [Written.words, if_pos hattached]
      rw [hwords, List.singleton_append,
        readOptions_long hw.mem_flags (Word.ofArgument_attached w.flag w.text)]
      simp only [ih hws, Progress.commitAll_cons]
      rfl
    | false =>
      -- the value waits in the progress until the rest is read, and is then the first to be looked at
      have hwords : w.words = ["--" ++ w.flag.name, w.text] := by
        rw [Written.words, if_neg (by simp [hattached])]
      have htext := Word.ofArgument_plain (hw.no_dash hattached)
      rw [hwords, List.cons_append, List.singleton_append,
        readOptions_long hw.mem_flags (Word.ofArgument_name w.flag)]
      simp only [readOptions_plain page _ w.flag htext, ih hws, Progress.commitAll_cons]
      rfl

end RelayStore.CommandLine
