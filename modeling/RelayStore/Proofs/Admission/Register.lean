import RelayStore.Proofs.Admission.Callers
import RelayStore.Proofs.Admission.Permits

/-! # A register of callers

What becomes of a node can be told from what its clients have done and from how many of their
connections it has accepted: all that callers have sent from their turn on stands in one log, in
the order in which it was served. The store and all replies follow from the log; bytes, inboxes
and sockets are not spoken of.
-/
namespace RelayStore

structure Register where
  /-- What the socket of a connection, by number, still takes once its client has closed it. -/
  farewell : Nat → Sink
  /-- In the order in which they were opened. -/
  callers : List Caller := []
  /-- How many of them the node has accepted, the first ones. -/
  accepted : Nat := 0
  /-- What was served, with the numbers of the callers. -/
  log : Arrivals := []

namespace Register

def served (r : Register) : List Caller :=
  r.callers.take r.accepted

def waiting (r : Register) : List Caller :=
  r.callers.drop r.accepted

def update (r : Register) (conn : Nat) (f : Caller → Caller) : Register :=
  { r with callers := r.callers.map (Caller.change conn f) }

/-- What is served of a caller when its turn comes. If it has left, that may be a part. -/
def opening (r : Register) (c : Caller) : List Item :=
  if c.isOpen then c.items else r.log.store.answered (r.farewell c.number) c.items

def enter (r : Register) : Register :=
  match r.callers[r.accepted]? with
  | some c =>
    { r with accepted := r.accepted + 1, log := r.log ++ .ofConn c.number (r.opening c) }
  | none => r

/-! ## Callers that are served, and those that wait -/

structure Sound (r : Register) : Prop where
  numbered : r.callers.map (·.number) = List.range r.callers.length
  accepted_le : r.accepted ≤ r.callers.length
  only : ∀ e ∈ r.log, e.1 < r.accepted
  on_prefix : ∀ c ∈ r.served, r.log.on c.number <+: c.items
  on_eq : ∀ c ∈ r.served, c.isOpen = true → r.log.on c.number = c.items
  within : ∀ c ∈ r.served, c.taken ≤ (r.log.on c.number).length
  untaken : ∀ c ∈ r.waiting, c.taken = 0

variable {r : Register} {c : Caller}

theorem served_append_waiting (r : Register) : r.served ++ r.waiting = r.callers :=
  List.take_append_drop _ _

theorem mem_callers_of_served (hc : c ∈ r.served) : c ∈ r.callers :=
  List.mem_of_mem_take hc

theorem mem_callers_of_waiting (hc : c ∈ r.waiting) : c ∈ r.callers :=
  List.mem_of_mem_drop hc

namespace Sound

theorem numbers_served (h : r.Sound) : r.served.map (·.number) = List.range r.accepted := by
  rw [served, List.map_take, h.numbered, List.take_range, Nat.min_eq_left h.accepted_le]

theorem number_lt (h : r.Sound) (hc : c ∈ r.served) : c.number < r.accepted := by
  have hmem := List.mem_map_of_mem (f := (·.number)) hc
  rwa [h.numbers_served, List.mem_range] at hmem

theorem eq_of_number (h : r.Sound) {d : Caller} (hc : c ∈ r.callers) (hd : d ∈ r.callers)
    (hnumber : c.number = d.number) : c = d := by
  have hnumbers : (r.callers.map (·.number)).Nodup := h.numbered ▸ List.nodup_range
  exact List.inj_on_of_nodup_map hnumbers hc hd hnumber

theorem le_number (h : r.Sound) (hc : c ∈ r.waiting) : r.accepted ≤ c.number := by
  have hnumbers : (r.served ++ r.waiting).map (·.number) = List.range r.callers.length := by
    rw [served_append_waiting, h.numbered]
  rw [List.map_append, h.numbers_served] at hnumbers
  have hnodup : (List.range r.accepted ++ r.waiting.map (·.number)).Nodup := hnumbers ▸ List.nodup_range
  by_contra hlt
  exact (List.nodup_append.mp hnodup).2.2 _ (List.mem_range.mpr (Nat.lt_of_not_le hlt)) _
    (List.mem_map_of_mem hc) rfl

theorem on_eq_nil (h : r.Sound) {number : Nat} (hnumber : r.accepted ≤ number) :
    r.log.on number = [] := by
  have hnone : r.log.filter (fun a => a.1 = number) = [] := by
    apply List.filter_eq_nil_iff.mpr
    intro e he
    have hlt := h.only e he
    simp only [decide_eq_true_eq]
    omega
  rw [Arrivals.on, hnone]
  rfl

end Sound

/-! ## A turn -/

theorem Sound.number_eq (h : r.Sound) (hc : r.callers[r.accepted]? = some c) : c.number = r.accepted := by
  have hnumber := congrArg (Option.map (·.number)) hc
  rw [← List.getElem?_map, h.numbered, Option.map_some] at hnumber
  obtain ⟨hlt, -⟩ := List.getElem?_eq_some_iff.mp hc
  rw [List.getElem?_range hlt] at hnumber
  exact (Option.some.inj hnumber).symm

theorem enter_of_some (hc : r.callers[r.accepted]? = some c) : r.enter =
    { r with accepted := r.accepted + 1, log := r.log ++ .ofConn c.number (r.opening c) } := by
  rw [enter, hc]

theorem served_enter (hc : r.callers[r.accepted]? = some c) : r.enter.served = r.served ++ [c] := by
  rw [enter_of_some hc, served, List.take_add_one, hc]
  rfl

theorem waiting_eq_cons (hc : r.callers[r.accepted]? = some c) : r.waiting = c :: r.enter.waiting := by
  obtain ⟨hlt, hget⟩ := List.getElem?_eq_some_iff.mp hc
  rw [enter_of_some hc, waiting, List.drop_eq_getElem_cons hlt, hget]
  rfl

theorem opening_isPrefix (r : Register) (c : Caller) : r.opening c <+: c.items := by
  rw [opening]
  split
  · exact List.prefix_rfl
  · exact Store.answered_isPrefix _ _ _

theorem Sound.enter (h : r.Sound) : r.enter.Sound := by
  cases hc : r.callers[r.accepted]? with
  | none =>
    have hsame : r.enter = r := by rw [Register.enter, hc]
    rwa [hsame]
  | some c =>
    have hnumber := h.number_eq hc
    have hserved := served_enter hc
    have hwaiting := waiting_eq_cons hc
    obtain ⟨hlt, -⟩ := List.getElem?_eq_some_iff.mp hc
    -- The turns before this one stand in the log as they did.
    have hold {d : Caller} (hd : d ∈ r.served) :
        (r.log ++ .ofConn c.number (r.opening c)).on d.number = r.log.on d.number := by
      have hne : c.number ≠ d.number := by
        have := h.number_lt hd
        omega
      rw [Arrivals.on_append, Arrivals.on_ofConn_of_ne _ hne, List.append_nil]
    have hnew : (r.log ++ .ofConn c.number (r.opening c)).on c.number = r.opening c := by
      rw [Arrivals.on_append, h.on_eq_nil hnumber.ge, Arrivals.on_ofConn, List.nil_append]
    rw [enter_of_some hc] at hserved hwaiting ⊢
    refine ⟨h.numbered, hlt, ?_, ?_, ?_, ?_, ?_⟩
    · intro e he
      rcases List.mem_append.mp he with he | he
      · exact Nat.lt_succ_of_lt (h.only e he)
      · obtain ⟨item, -, rfl⟩ := List.mem_map.mp he
        exact hnumber ▸ Nat.lt_succ_self _
    · rw [hserved]
      intro d hd
      rcases List.mem_append.mp hd with hd | hd
      · exact (hold hd).symm ▸ h.on_prefix d hd
      · rw [List.mem_singleton.mp hd, hnew]
        exact r.opening_isPrefix c
    · rw [hserved]
      intro d hd hopen
      rcases List.mem_append.mp hd with hd | hd
      · exact (hold hd).trans (h.on_eq d hd hopen)
      · rw [List.mem_singleton.mp hd] at hopen ⊢
        rw [hnew, opening, if_pos hopen]
    · rw [hserved]
      intro d hd
      rcases List.mem_append.mp hd with hd | hd
      · exact (hold hd).symm ▸ h.within d hd
      · rw [List.mem_singleton.mp hd, h.untaken c (hwaiting ▸ List.mem_cons_self)]
        exact Nat.zero_le _
    · exact fun d hd => h.untaken d (hwaiting ▸ List.mem_cons_of_mem c hd)

end Register
end RelayStore
