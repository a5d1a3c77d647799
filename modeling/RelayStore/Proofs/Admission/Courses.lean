import RelayStore.Proofs.Admission.Requests
import RelayStore.Proofs.Admission.Unheard

/-! # Courses

What step after step leads to. The register goes along with the hall; its log only grows, and
once the node has stopped nobody is accepted any more.
-/
namespace RelayStore

namespace Hall

def after (h : Hall) (steps : List Step) : Hall :=
  steps.foldl (fun h st => (h.step st).2) h

def outcomes (h : Hall) : List Step → List (Option Outcome)
  | [] => []
  | st :: steps => (h.step st).1 :: (h.step st).2.outcomes steps

theorem after_cons (h : Hall) (st : Step) (steps : List Step) :
    h.after (st :: steps) = (h.step st).2.after steps := rfl

theorem after_append (h : Hall) (before later : List Step) :
    h.after (before ++ later) = (h.after before).after later :=
  List.foldl_append

theorem outcomes_append (h : Hall) (before later : List Step) :
    h.outcomes (before ++ later) = h.outcomes before ++ (h.after before).outcomes later := by
  induction before generalizing h with
  | nil => rfl
  | cons st before ih => exact congrArg (_ :: ·) (ih (h.step st).2)

/-- A run that has an end comes to all outcomes of its steps. -/
theorem run_eq_some_iff (h : Hall) (steps : List Step) (results : List Outcome) :
    h.run steps = some results ↔ h.outcomes steps = results.map some := by
  induction steps generalizing h results with
  | nil => cases results <;> simp [run, outcomes]
  | cons st steps ih =>
    rw [run, outcomes]
    rcases h.step st with ⟨_ | outcome, h'⟩
    · cases results <;> simp
    · cases results with
      | nil => simp
      | cons first rest =>
        dsimp only
        rw [Option.map_eq_some_iff, List.map_cons, List.cons.injEq, Option.some.injEq, ← ih]
        constructor
        · rintro ⟨results, hrun, heq⟩
          cases heq
          exact ⟨rfl, hrun⟩
        · rintro ⟨rfl, hrun⟩
          exact ⟨rest, hrun, rfl⟩

/-- The open connections after some steps without shutdown, in the order in which they were
opened. -/
def openings (steps : List Step) : List Nat :=
  steps.foldl Step.reopen []

end Hall

namespace Register

def along (r : Register) (h : Hall) : List Hall.Step → Register
  | [] => r
  | st :: steps => (r.follow st (h.step st).2).along (h.step st).2 steps

theorem along_append (r : Register) (h : Hall) (before later : List Hall.Step) :
    r.along h (before ++ later) = (r.along h before).along (h.after before) later := by
  induction before generalizing r h with
  | nil => rfl
  | cons st before ih => exact ih (r.follow st (h.step st).2) (h.step st).2

/-! ## The register goes along -/

structure Follows (r : Register) (h : Hall) : Prop where
  network : h.network = .up
  atRest : h.AtRest
  tells : r.Tells h

variable {r r' : Register} {h h' : Hall}

theorem Follows.step (hf : r.Follows h) (st : Hall.Step) :
    (r.follow st (h.step st).2).Follows (h.step st).2 ∧ h.SameHouse (h.step st).2 := by
  obtain ⟨isListening, conns, dropped, hleads⟩ :
      ∃ isListening conns dropped, h.Leads isListening conns dropped (h.step st).2 := by
    cases hlistening : h.isListening with
    | false => exact ⟨_, _, _, hf.atRest.step_of_stopped hf.network hlistening st⟩
    | true =>
      by_cases hst : st = .shutdown
      · subst hst
        exact ⟨_, _, _, hf.atRest.shutdown hlistening⟩
      · exact ⟨_, _, hf.atRest.step hf.network hlistening hst⟩
  exact ⟨⟨hleads.same.network.trans hf.network, hleads.atRest, hf.tells.step hf.atRest hf.network st⟩,
    hleads.same⟩

theorem Follows.along (hf : r.Follows h) (steps : List Hall.Step) :
    (r.along h steps).Follows (h.after steps) ∧ h.SameHouse (h.after steps) := by
  induction steps generalizing r h with
  | nil => exact ⟨hf, .refl h⟩
  | cons st steps ih =>
    obtain ⟨hnext, hsame⟩ := hf.step st
    obtain ⟨hend, hsame'⟩ := ih hnext
    exact ⟨hend, hsame.trans hsame'⟩

/-! ## The log grows -/

structure Grows (r r' : Register) : Prop where
  log : r.log <+: r'.log
  accepted : r.accepted ≤ r'.accepted
  callers : r.callers.length ≤ r'.callers.length

theorem Grows.refl (r : Register) : r.Grows r :=
  ⟨List.prefix_rfl, Nat.le_refl _, Nat.le_refl _⟩

theorem Grows.trans {r'' : Register} (hg : r.Grows r') (hg' : r'.Grows r'') : r.Grows r'' :=
  ⟨hg.log.trans hg'.log, hg.accepted.trans hg'.accepted, hg.callers.trans hg'.callers⟩

theorem grows_update (r : Register) (conn : Nat) (f : Caller → Caller) : r.Grows (r.update conn f) :=
  ⟨List.prefix_rfl, Nat.le_refl _, (List.length_map _).ge⟩

theorem grows_enter (r : Register) : r.Grows r.enter := by
  rw [enter]
  split
  · exact ⟨List.prefix_append _ _, Nat.le_succ _, Nat.le_refl _⟩
  · exact .refl r

theorem grows_advance (r : Register) (accepted : Nat) : r.Grows (r.advance accepted) := by
  rw [advance]
  induction accepted - r.accepted with
  | zero => exact .refl r
  | succ turns ih =>
    rw [Function.iterate_succ_apply']
    exact ih.trans (grows_enter _)

theorem grows_settle (r : Register) (h : Hall) : r.Grows (r.settle h) := by
  rw [settle]
  split
  · exact grows_advance _ _
  · exact .refl r

/-- A request accepts nobody. -/
theorem grows_request (r : Register) (isListening : Bool) (conn : Nat) (text : String) :
    r.Grows (r.request isListening conn text).2 ∧
      (r.request isListening conn text).2.accepted = r.accepted := by
  have hsay : r.Grows (r.say conn text) ∧ (r.say conn text).accepted = r.accepted := by
    rw [say]
    split
    · split
      · exact ⟨⟨List.prefix_append _ _, Nat.le_refl _, (List.length_map _).ge⟩, rfl⟩
      · exact ⟨grows_update _ _ _, rfl⟩
    · exact ⟨.refl r, rfl⟩
  have hawait (q : Register) :
      q.Grows (q.await isListening conn).2 ∧ (q.await isListening conn).2.accepted = q.accepted := by
    rw [await]
    split
    · split
      · split
        · exact ⟨grows_update _ _ _, rfl⟩
        · exact ⟨.refl q, rfl⟩
      · exact ⟨.refl q, rfl⟩
    · exact ⟨.refl q, rfl⟩
  obtain ⟨htaken, hsame⟩ := hawait (r.say conn text)
  exact ⟨hsay.1.trans htaken, hsame.trans hsay.2⟩

theorem grows_follow (r : Register) (st : Hall.Step) (h : Hall) : r.Grows (r.follow st h) := by
  cases st with
  | connect conn =>
    rw [follow]
    split
    · have hpush (q : Register) : q.Grows (q.push conn) :=
        ⟨List.prefix_rfl, Nat.le_refl _, by simp [push]⟩
      exact ((grows_update r conn Caller.shut).trans (hpush _)).trans (grows_settle _ h)
    · exact .refl r
  | request conn text => exact (grows_request r h.isListening conn text).1
  | attempt conn text => exact (grows_request r h.isListening conn text).1
  | close conn => exact (grows_update r conn Caller.shut).trans (grows_settle _ h)
  | acceptFailure => exact grows_settle r h
  | shutdown => exact .refl r
  | bindAgain => exact .refl r

theorem grows_along (r : Register) (h : Hall) (steps : List Hall.Step) : r.Grows (r.along h steps) := by
  induction steps generalizing r h with
  | nil => exact .refl r
  | cons st steps ih => exact (grows_follow r st (h.step st).2).trans (ih _ _)

/-! ## After the shutdown -/

theorem accepted_follow_of_stopped (hstopped : h.isListening = false) (r : Register) (st : Hall.Step) :
    (r.follow st h).accepted = r.accepted := by
  have hsettle (q : Register) : q.settle h = q := by rw [settle, hstopped, if_neg Bool.false_ne_true]
  cases st with
  | connect conn => rw [follow, hstopped, if_neg Bool.false_ne_true]
  | request conn text => exact (grows_request r h.isListening conn text).2
  | attempt conn text => exact (grows_request r h.isListening conn text).2
  | close conn =>
    rw [follow, hsettle]
    rfl
  | acceptFailure => rw [follow, hsettle]
  | shutdown => rfl
  | bindAgain => rfl

/-- Nobody comes in, and whoever leaves is gone. -/
theorem Follows.along_of_stopped (hf : r.Follows h) (hstopped : h.isListening = false)
    (steps : List Hall.Step) :
    h.Leads false (steps.foldl Hall.Step.leave (Hall.openConns h.served h.waiting))
        (steps.foldl Hall.Step.leave h.dropped) (h.after steps) ∧
      (r.along h steps).accepted = r.accepted := by
  induction steps generalizing r h with
  | nil => exact ⟨hstopped ▸ .refl hf.atRest, rfl⟩
  | cons st steps ih =>
    have hfirst := hf.atRest.step_of_stopped hf.network hstopped st
    obtain ⟨hleads, haccepted⟩ := ih (hf.step st).1 hfirst.isListening
    rw [hfirst.conns, hfirst.dropped] at hleads
    refine ⟨⟨hfirst.same.trans hleads.same, hleads.atRest, hleads.isListening, hleads.conns,
      hleads.dropped⟩, ?_⟩
    exact haccepted.trans (accepted_follow_of_stopped hfirst.isListening r st)

theorem foldl_leave (steps : List Hall.Step) (conns : List Nat) :
    steps.foldl Hall.Step.leave conns = conns.filter (.close · ∉ steps) := by
  induction steps generalizing conns with
  | nil => simp
  | cons st steps ih =>
    rw [List.foldl_cons, ih]
    cases st with
    | close conn =>
      rw [Hall.Step.leave, List.filter_filter]
      apply List.filter_congr
      intro c _
      simp [Bool.and_comm, bne, Bool.beq_eq_decide_eq]
    | _ => simp [Hall.Step.leave]

/-! ## Before the shutdown -/

theorem Follows.along_of_listening (hf : r.Follows h) (hlistening : h.isListening = true)
    {steps : List Hall.Step} (hsteps : .shutdown ∉ steps) :
    (h.after steps).isListening = true ∧
      Hall.openConns (h.after steps).served (h.after steps).waiting =
        steps.foldl Hall.Step.reopen (Hall.openConns h.served h.waiting) := by
  induction steps generalizing r h with
  | nil => exact ⟨hlistening, rfl⟩
  | cons st steps ih =>
    rw [List.mem_cons, not_or] at hsteps
    obtain ⟨dropped, hfirst⟩ := hf.atRest.step hf.network hlistening (Ne.symm hsteps.1)
    obtain ⟨hstill, hconns⟩ := ih (hf.step st).1 hfirst.isListening hsteps.2
    rw [hfirst.conns] at hconns
    exact ⟨hstill, hconns⟩

/-! ## While one waits -/

theorem Tells.awaits (ht : r.Tells h) {number : Nat} (hle : r.accepted ≤ number)
    (hlt : number < r.callers.length) : h.Awaits number := by
  intro hlistening
  have hnumbers : h.waiting.map (·.number) = (List.range r.callers.length).drop r.accepted := by
    rw [(ht.listening hlistening).1, List.map_map, ← ht.sound.numbered, ← List.map_drop]
    rfl
  rw [hnumbers, List.mem_drop_iff_getElem]
  exact ⟨number - r.accepted, by simp; omega, by simp; omega⟩

/-- Two halls that are alike but for one visitor come to the same as long as it waits. -/
theorem Follows.unheard (hf : r.Follows h) {number : Nat} (halike : Hall.AlikeBut number h h')
    (hlt : number < r.callers.length) {steps : List Hall.Step}
    (hwaits : (r.along h steps).accepted ≤ number) :
    h'.outcomes steps = h.outcomes steps ∧ Hall.AlikeBut number (h.after steps) (h'.after steps) := by
  induction steps generalizing r h h' with
  | nil => exact ⟨rfl, halike⟩
  | cons st steps ih =>
    -- Nobody's turn is taken back, so a visitor that waits at the end has waited all along.
    obtain ⟨hnext, -⟩ := hf.step st
    have hlt' := hlt.trans_le (grows_follow r st (h.step st).2).callers
    have hlater := grows_along (r.follow st (h.step st).2) (h.step st).2 steps
    obtain ⟨hfirst, halike'⟩ :=
      halike.step hf.atRest st (hnext.tells.awaits (hlater.accepted.trans hwaits) hlt')
    obtain ⟨hrest, hend⟩ := ih hnext halike' hlt' hwaits
    refine ⟨?_, hend⟩
    rw [Hall.outcomes, Hall.outcomes, hfirst, hrest]

end Register
end RelayStore
