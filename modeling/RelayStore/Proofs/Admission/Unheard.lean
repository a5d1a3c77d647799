import RelayStore.Proofs.Admission.Steps

/-! # Texts that wait

What a client sends while it waits shows nowhere else. Two halls that are the same but for what
lies unserved of one visitor come to the same in every step, as long as that visitor waits.
-/
namespace RelayStore

namespace Visitor

def hush (number : Nat) (v : Visitor) : Visitor :=
  if v.number = number then { v with unserved := [] } else v

variable {number conn : Nat} {v w : Visitor}

theorem hush_of_ne (h : v.number ≠ number) : v.hush number = v :=
  if_neg h

theorem hush_keeps (number : Nat) (v : Visitor) :
    (v.hush number).number = v.number ∧ (v.hush number).conn = v.conn ∧
      (v.hush number).isOpen = v.isOpen := by
  rw [hush]
  split <;> exact ⟨rfl, rfl, rfl⟩

theorem eq_of_hush (h : w.hush number = v.hush number) (hne : v.number ≠ number) : w = v := by
  have hsame : w.number = v.number := by
    rw [← (hush_keeps number w).1, h, (hush_keeps number v).1]
  rwa [hush_of_ne hne, hush_of_ne (hsame ▸ hne)] at h

theorem hush_shut (number conn : Nat) (v : Visitor) :
    (v.shut conn).hush number = (v.hush number).shut conn := by
  by_cases hnumber : v.number = number <;> by_cases hconn : v.conn = conn <;>
    simp [hush, shut, hnumber, hconn]

theorem hush_keep (number conn : Nat) (text : String) (v : Visitor) :
    (v.keep conn text).hush number = ((v.hush number).keep conn text).hush number := by
  by_cases hnumber : v.number = number
  · cases hon : v.isOpen && v.conn == conn <;> simp [hush, keep, hnumber, hon]
  · rw [hush_of_ne hnumber]

end Visitor

namespace Hall

/-- The same but for what lies unserved of one visitor that waits. -/
def AlikeBut (number : Nat) (h h' : Hall) : Prop :=
  ∃ waiting, h' = { h with waiting } ∧
    waiting.map (Visitor.hush number) = h.waiting.map (Visitor.hush number)

/-- The visitor with this number still waits, unless the loop has stopped. -/
def Awaits (h : Hall) (number : Nat) : Prop :=
  h.isListening = true → number ∈ h.waiting.map (·.number)

variable {h h' : Hall} {number : Nat} {waiting waiting' : List Visitor}

theorem AlikeBut.refl (number : Nat) (h : Hall) : AlikeBut number h h :=
  ⟨h.waiting, rfl, rfl⟩

/-- What is seen of those who wait, be one of them hushed or not. -/
theorem congr_hush {α : Type} (part : List Visitor → α)
    (hpart : ∀ waiting, part (waiting.map (Visitor.hush number)) = part waiting)
    (hsame : waiting'.map (Visitor.hush number) = waiting.map (Visitor.hush number)) :
    part waiting' = part waiting := by
  rw [← hpart, hsame, hpart]

/-! ## Going round -/

theorem acceptAll_with (h : Hall) (waiting left : List Visitor) :
    { h with waiting := left }.acceptAll waiting = h.acceptAll waiting := by
  induction waiting generalizing h with
  | nil => rfl
  | cons v waiting ih =>
    have haccept : { h with waiting := left }.acquire.accept v =
        { h.acquire.accept v with waiting := left } := by
      cases hopen : v.isOpen with
      | true => rw [accept_of_isOpen hopen, accept_of_isOpen hopen]; rfl
      | false => rw [accept_of_left hopen, accept_of_left hopen]; rfl
    rw [acceptAll, acceptAll, haccept, ih]
    rfl

theorem waiting_acceptAll (h : Hall) (waiting : List Visitor) :
    (h.acceptAll waiting).waiting <:+ waiting := by
  obtain ⟨h', left, hleft, hall, -⟩ :=
    acceptAll_spec (h := h) (P := fun _ left => left <:+ waiting)
      (fun _ _ _ _ hsuffix => (List.suffix_cons _ _).trans hsuffix) List.suffix_rfl
  rw [hall]
  exact hleft

/-- The loop goes as far with both, and never comes to the one that still waits. -/
theorem acceptAll_hush (hsame : waiting'.map (Visitor.hush number) = waiting.map (Visitor.hush number))
    (hnumbers : (waiting.map (·.number)).Nodup)
    (hwaits : number ∈ (h.acceptAll waiting).waiting.map (·.number)) :
    AlikeBut number (h.acceptAll waiting) (h.acceptAll waiting') := by
  induction waiting generalizing h waiting' with
  | nil =>
    rw [List.map_eq_nil_iff.mp hsame]
    exact .refl _ _
  | cons v waiting ih =>
    obtain ⟨v', left, rfl, hhead, hleft⟩ := List.map_eq_cons_iff.mp hsame
    obtain ⟨hv, hnumbers⟩ := List.nodup_cons.mp hnumbers
    rw [acceptAll] at hwaits ⊢
    rw [acceptAll]
    cases hready : h.acquire.gate.isReady with
    | true =>
      rw [if_pos hready] at hwaits
      have hne : v.number ≠ number := by
        intro heq
        rw [← heq] at hwaits
        exact hv (List.map_subset (·.number) (waiting_acceptAll (h.acquire.accept v) waiting).subset hwaits)
      rw [if_pos rfl, if_pos rfl, Visitor.eq_of_hush hhead hne]
      exact ih hleft hnumbers hwaits
    | false => exact ⟨_, rfl, hsame⟩

theorem Orderly.nodup_waiting (ho : h.Orderly waiting) : (waiting.map (·.number)).Nodup := by
  have hnumbers := (List.pairwise_append.mp ho.numbers).1
  rw [List.map_append] at hnumbers
  exact (List.pairwise_append.mp hnumbers).2.1.imp Nat.ne_of_lt

theorem AlikeBut.resume (halike : AlikeBut number h h') (ho : h.Orderly h.waiting)
    (hwaits : h.resume.Awaits number) : AlikeBut number h.resume h'.resume := by
  obtain ⟨store, gate, served, left, hframe⟩ := h.exists_resume
  have hstill : h.resume.isListening = h.isListening := by rw [hframe]
  obtain ⟨waiting, rfl, hsame⟩ := halike
  rw [Awaits, hstill] at hwaits
  rw [Hall.resume] at hwaits ⊢
  rw [Hall.resume]
  by_cases hlistening : h.isListening = true
  · rw [if_pos hlistening] at hwaits ⊢
    rw [if_pos hlistening, acceptAll_with h waiting waiting]
    exact acceptAll_hush hsame ho.nodup_waiting (hwaits hlistening)
  · rw [if_neg hlistening, if_neg hlistening]
    exact ⟨waiting, rfl, hsame⟩

/-! ## Steps -/

theorem AlikeBut.leave (halike : AlikeBut number h h') (conn : Nat) :
    AlikeBut number (h.leave conn) (h'.leave conn) := by
  obtain ⟨waiting, rfl, hsame⟩ := halike
  have hcomm : Visitor.hush number ∘ Visitor.shut conn = Visitor.shut conn ∘ Visitor.hush number :=
    funext (Visitor.hush_shut number conn)
  refine ⟨waiting.map (Visitor.shut conn), rfl, ?_⟩
  change _ = (h.waiting.map (Visitor.shut conn)).map _
  rw [List.map_map, List.map_map, hcomm, ← List.map_map, ← List.map_map, hsame]

theorem AlikeBut.push (halike : AlikeBut number h h') (conn : Nat) :
    AlikeBut number (h.push conn) (h'.push conn) := by
  obtain ⟨waiting, rfl, hsame⟩ := halike
  refine ⟨waiting ++ [{ number := h.opened, conn }], rfl, ?_⟩
  change _ = (h.waiting ++ _).map _
  rw [List.map_append, List.map_append, hsame]

theorem AlikeBut.connect (halike : AlikeBut number h h') (hr : h.AtRest) (conn : Nat)
    (hwaits : (h.connect conn).2.Awaits number) :
    (h'.connect conn).1 = (h.connect conn).1 ∧
      AlikeBut number (h.connect conn).2 (h'.connect conn).2 := by
  have hobstacle : h'.network.obstacle? h'.isListening = h.network.obstacle? h.isListening ∧
      h'.address = h.address := by
    obtain ⟨waiting, rfl, -⟩ := halike
    exact ⟨rfl, rfl⟩
  rw [Hall.connect] at hwaits ⊢
  rw [Hall.connect, hobstacle.1, hobstacle.2]
  cases hcause : h.network.obstacle? h.isListening with
  | some cause => exact ⟨rfl, halike⟩
  | none =>
    rw [hcause] at hwaits
    exact ⟨rfl, ((halike.leave conn).push conn).resume ((hr.leave conn).1.push conn) hwaits⟩

theorem AlikeBut.request (halike : AlikeBut number h h') (conn : Nat) (text : String) :
    (h'.request conn text).1 = (h.request conn text).1 ∧
      AlikeBut number (h.request conn text).2 (h'.request conn text).2 := by
  obtain ⟨waiting, rfl, hsame⟩ := halike
  rw [Hall.request, Hall.request]
  dsimp only
  cases h.served.find? (·.conn = conn) with
  | some v => exact ⟨rfl, waiting, rfl, hsame⟩
  | none =>
    have hany : (waiting.any fun v => v.isOpen && v.conn == conn) =
        h.waiting.any fun v => v.isOpen && v.conn == conn := by
      apply congr_hush (fun waiting => waiting.any fun v => v.isOpen && v.conn == conn) _ hsame
      intro waiting
      simp [List.any_map, Function.comp_def, Visitor.hush_keeps]
    have hkeep : (waiting.map (Visitor.keep conn text)).map (Visitor.hush number) =
        (h.waiting.map (Visitor.keep conn text)).map (Visitor.hush number) := by
      apply congr_hush (fun waiting => (waiting.map (Visitor.keep conn text)).map (Visitor.hush number)) _ hsame
      intro waiting
      rw [List.map_map, List.map_map, List.map_map]
      exact List.map_congr_left fun v _ => (Visitor.hush_keep number conn text v).symm
    dsimp only
    rw [hany]
    split
    · exact ⟨rfl, _, rfl, hkeep⟩
    · split <;> exact ⟨rfl, waiting, rfl, hsame⟩

theorem AlikeBut.shutdown (halike : AlikeBut number h h') :
    h'.shutdown.1 = h.shutdown.1 ∧ AlikeBut number h.shutdown.2 h'.shutdown.2 := by
  obtain ⟨waiting, rfl, hsame⟩ := halike
  have hconns : (waiting.filter (·.isOpen)).map (·.conn) = (h.waiting.filter (·.isOpen)).map (·.conn) := by
    apply congr_hush (fun waiting => (waiting.filter (·.isOpen)).map (·.conn)) _ hsame
    intro waiting
    simp [List.filter_map, Function.comp_def, Visitor.hush_keeps]
  rw [Hall.shutdown, Hall.shutdown]
  dsimp only
  rw [hconns]
  split
  · exact ⟨rfl, .refl _ _⟩
  · exact ⟨rfl, waiting, rfl, hsame⟩

/-- A text on a connection that waits changes nothing but what lies unserved of it. -/
theorem AtRest.request_of_waiting (hr : h.AtRest) {v : Visitor} (hv : v ∈ h.waiting)
    (hopen : v.isOpen = true) (text : String) :
    ∃ h', h.request v.conn text = (.awaited .never, h') ∧ AlikeBut v.number h h' := by
  have hconns : ((h.served ++ h.waiting.filter (·.isOpen)).map (·.conn)).Nodup :=
    (List.nodup_append.mp hr.distinct).1
  have hmem : v ∈ h.served ++ h.waiting.filter (·.isOpen) :=
    List.mem_append_right _ (List.mem_filter.mpr ⟨hv, hopen⟩)
  have honly {w : Visitor} (hw : w ∈ h.served ++ h.waiting.filter (·.isOpen)) (hconn : w.conn = v.conn) :
      w = v := List.inj_on_of_nodup_map hconns hw hmem hconn
  have hnone : h.served.find? (·.conn = v.conn) = none := by
    apply List.find?_eq_none.mpr
    intro w hw hconn
    rw [honly (List.mem_append_left _ hw) (by simpa using hconn)] at hw
    exact Nat.lt_irrefl _ (hr.older v hw v hv)
  have hany : (h.waiting.any fun w => w.isOpen && w.conn == v.conn) = true :=
    List.any_eq_true.mpr ⟨v, hv, by simp [hopen]⟩
  refine ⟨_, by rw [Hall.request, hnone]; exact if_pos hany, _, rfl, ?_⟩
  rw [List.map_map]
  apply List.map_congr_left
  intro w hw
  rw [Function.comp_apply, Visitor.keep]
  split
  · rename_i hon
    obtain ⟨hwopen, hconn⟩ := (Bool.and_eq_true _ _).mp hon
    rw [honly (List.mem_append_right _ (List.mem_filter.mpr ⟨hw, hwopen⟩)) (by simpa using hconn)]
    simp [Visitor.hush]
  · rfl

/-- As long as the one visitor waits, a step comes to the same with both. -/
theorem AlikeBut.step (halike : AlikeBut number h h') (hr : h.AtRest) (st : Step)
    (hwaits : (h.step st).2.Awaits number) :
    (h'.step st).1 = (h.step st).1 ∧ AlikeBut number (h.step st).2 (h'.step st).2 := by
  cases st with
  | connect conn =>
    rw [step_connect] at hwaits ⊢
    obtain ⟨hresult, hconnect⟩ := halike.connect hr conn hwaits
    rw [step_connect, hresult]
    exact ⟨rfl, hconnect⟩
  | request conn text =>
    obtain ⟨hresult, hrequest⟩ := halike.request conn text
    exact ⟨congrArg Result.outcome? hresult, hrequest⟩
  | attempt conn text =>
    obtain ⟨hresult, hrequest⟩ := halike.request conn text
    exact ⟨congrArg (fun result : Result => some (result.outcome?.getD .pending)) hresult, hrequest⟩
  | close conn => exact ⟨rfl, (halike.leave conn).resume (hr.leave conn).1 hwaits⟩
  | acceptFailure =>
    obtain ⟨waiting, rfl, hsame⟩ := halike
    have hdropped : AlikeBut number { h with gate := h.gate.drop } { h with gate := h.gate.drop, waiting } :=
      ⟨waiting, rfl, hsame⟩
    exact ⟨rfl, hdropped.resume ⟨hr.permits.drop, hr.isOpen, hr.numbers⟩ hwaits⟩
  | shutdown =>
    obtain ⟨hresult, hshutdown⟩ := halike.shutdown
    exact ⟨congrArg (fun stopped : Bool => some (if stopped then Outcome.stopped else .nothing)) hresult,
      hshutdown⟩
  | bindAgain =>
    rw [step_bindAgain, step_bindAgain]
    obtain ⟨waiting, rfl, hsame⟩ := halike
    exact ⟨rfl, waiting, rfl, hsame⟩

end Hall
end RelayStore
