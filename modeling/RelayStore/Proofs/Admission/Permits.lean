import Mathlib.Data.List.Nodup
import RelayStore.Admission

/-! # The permits of a node

A permit is never lost and never given back twice: each is free, or with the loop, or with a
session. So the loop goes round as long as fewer connections are served than the cap allows,
and as those that wait are accepted in their order, the connections that are served are those
that have been open longest, as many as may be.
-/
namespace RelayStore

namespace Gate

/-- Each permit is free, or with the loop, or with one of so many sessions. -/
def Accounts (g : Gate) (cap : Option Cap) (sessions : Nat) : Prop :=
  g.free.map (· + g.isReady.toNat + sessions) = cap.map (·.val)

variable {g : Gate} {cap : Option Cap} {n : Nat}

theorem accounts_ofCap (cap : Option Cap) : (ofCap cap).Accounts cap 0 := by
  cases cap <;> rfl

theorem Accounts.acquire (h : g.Accounts cap n) : g.acquire.Accounts cap n := by
  obtain ⟨free, isReady⟩ := g
  cases isReady with
  | true => exact h
  | false =>
    match free with
    | none => exact h
    | some 0 => exact h
    | some (m + 1) => exact h

theorem Accounts.accept (h : g.Accounts cap n) (hready : g.isReady = true) :
    g.accept.Accounts cap (n + 1) := by
  have hmove : (fun m => m + false.toNat + (n + 1)) = fun m => m + g.isReady.toNat + n := by
    funext m
    rw [hready, Bool.toNat_true, Bool.toNat_false]
    omega
  rw [Accounts, Gate.accept, hmove]
  exact h

theorem Accounts.release {sessions : Nat} (h : g.Accounts cap (n + sessions)) :
    (g.release sessions).Accounts cap n := by
  have hmove : ((fun m => m + g.isReady.toNat + n) ∘ fun m => m + sessions) =
      fun m => m + g.isReady.toNat + (n + sessions) := by
    funext m
    simp only [Function.comp_apply]
    omega
  rw [Accounts, Gate.release, Option.map_map, hmove]
  exact h

theorem Accounts.drop (h : g.Accounts cap n) : g.drop.Accounts cap n := by
  rw [Gate.drop]
  cases hready : g.isReady with
  | false => exact h
  | true => exact (h.accept hready).release

theorem accounts_some_iff {cap : Cap} :
    g.Accounts (some cap) n ↔ ∃ m, g.free = some m ∧ m + g.isReady.toNat + n = cap :=
  Option.map_eq_some_iff

theorem Accounts.sessions_le {cap : Cap} (h : g.Accounts (some cap) n) : n ≤ cap := by
  obtain ⟨m, -, hm⟩ := accounts_some_iff.mp h
  omega

/-- The loop gets a permit exactly if fewer sessions go on than the cap allows. -/
theorem Accounts.isReady_acquire_iff {cap : Cap} (h : g.Accounts (some cap) n) :
    g.acquire.isReady = true ↔ n < cap := by
  obtain ⟨m, hfree, hm⟩ := accounts_some_iff.mp h
  cases hready : g.isReady with
  | true =>
    rw [hready, Bool.toNat_true] at hm
    rw [Gate.acquire, if_pos hready, hready]
    exact iff_of_true rfl (by omega)
  | false =>
    rw [hready, Bool.toNat_false] at hm
    rw [Gate.acquire, hready, if_neg Bool.false_ne_true, hfree]
    cases m with
    | zero => exact iff_of_false (hready ▸ Bool.false_ne_true) (by omega)
    | succ m => exact iff_of_true rfl (by omega)

theorem acquire_of_refused (h : g.acquire.isReady = false) : g.acquire = g := by
  obtain ⟨free, isReady⟩ := g
  match isReady, free with
  | true, _ => rfl
  | false, some 0 => rfl
  | false, none => cases h
  | false, some (m + 1) => cases h

/-- A gate that has only been used as a loop and its sessions use it, and how many sessions go on:
nothing is accepted without a permit, and a session ends once. -/
inductive IsReached (cap : Option Cap) : Gate → Nat → Prop
  | start : IsReached cap (ofCap cap) 0
  | acquire {g : Gate} {n : Nat} (h : IsReached cap g n) : IsReached cap g.acquire n
  | accept {g : Gate} {n : Nat} (h : IsReached cap g n) (hready : g.isReady = true) :
      IsReached cap g.accept (n + 1)
  | release {g : Gate} {n sessions : Nat} (h : IsReached cap g (n + sessions)) :
      IsReached cap (g.release sessions) n
  | drop {g : Gate} {n : Nat} (h : IsReached cap g n) : IsReached cap g.drop n

theorem IsReached.accounts (h : IsReached cap g n) : g.Accounts cap n := by
  induction h with
  | start => exact accounts_ofCap cap
  | acquire _ ih => exact ih.acquire
  | accept _ hready ih => exact ih.accept hready
  | release _ ih => exact ih.release
  | drop _ ih => exact ih.drop

/-- No more sessions go on than the cap allows, and the loop can accept whenever there are fewer. -/
theorem IsReached.within {cap : Cap} (h : IsReached (some cap) g n) :
    n ≤ cap ∧ (g.acquire.isReady = true ↔ n < cap) :=
  ⟨h.accounts.sessions_le, h.accounts.isReady_acquire_iff⟩

end Gate

namespace Hall

/-! ## Going round -/

/-- What holds of a hall in which these wait, with the loop at any point of its way round. -/
structure Orderly (h : Hall) (waiting : List Visitor) : Prop where
  permits : Gate.IsReached h.cap h.gate h.served.length
  isOpen : ∀ v ∈ h.served, v.isOpen = true
  /-- Numbers rise from those who are served to those who wait and to the next one. -/
  numbers : ((h.served ++ waiting).map (·.number) ++ [h.opened]).Pairwise (· < ·)

def openConns (served waiting : List Visitor) : List Nat :=
  (served ++ waiting.filter (·.isOpen)).map (·.conn)

variable {h : Hall} {v : Visitor} {waiting : List Visitor}

/-- Whoever is served was there before all who wait. -/
theorem Orderly.older (ho : h.Orderly waiting) : ∀ v ∈ h.served, ∀ w ∈ waiting, v.number < w.number := by
  intro v hv w hw
  have hnumbers := (List.pairwise_append.mp ho.numbers).1
  rw [List.map_append] at hnumbers
  exact (List.pairwise_append.mp hnumbers).2.2 _ (List.mem_map_of_mem hv) _ (List.mem_map_of_mem hw)

theorem Orderly.number_lt (ho : h.Orderly waiting) (hv : v ∈ waiting) : v.number < h.opened :=
  (List.pairwise_append.mp ho.numbers).2.2 _ (List.mem_map_of_mem (List.mem_append_right _ hv)) _
    (List.mem_singleton_self _)

theorem accept_of_isOpen (hopen : v.isOpen = true) : h.accept v =
    { h with
      store := (h.store.exchange v.unserved).1
      gate := h.gate.accept
      served := h.served ++
        [{ v with unserved := [], inbox := v.inbox.receive (h.store.exchange v.unserved).2 }] } := by
  simp [accept, Visitor.enter, hopen]

theorem accept_of_left (hleft : v.isOpen = false) : h.accept v =
    { h with
      store := (h.store.serve ⟨[v.unserved], .closed⟩ (h.farewell v.number)).state
      gate := h.gate.accept.release 1 } := by
  simp [accept, Visitor.enter, hleft]

theorem exists_accept (h : Hall) (v : Visitor) :
    ∃ store gate served, h.accept v = { h with store, gate, served } := by
  cases hopen : v.isOpen with
  | true => exact ⟨_, _, _, accept_of_isOpen hopen⟩
  | false => exact ⟨_, _, _, accept_of_left hopen⟩

theorem Orderly.acquire (ho : h.Orderly waiting) : h.acquire.Orderly waiting :=
  { ho with permits := ho.permits.acquire }

theorem Orderly.accept (ho : h.Orderly (v :: waiting)) (hready : h.gate.isReady = true) :
    (h.accept v).Orderly waiting := by
  cases hopen : v.isOpen with
  | true =>
    rw [accept_of_isOpen hopen]
    constructor
    · rw [List.length_append]
      exact ho.permits.accept hready
    · intro w hw
      rcases List.mem_append.mp hw with hw | hw
      · exact ho.isOpen w hw
      · rw [List.mem_singleton.mp hw]
        exact hopen
    · simpa using ho.numbers
  | false =>
    rw [accept_of_left hopen]
    have hfewer : (h.served ++ waiting).Sublist (h.served ++ v :: waiting) :=
      (List.sublist_cons_self v waiting).append_left _
    constructor
    · exact (ho.permits.accept hready).release
    · exact ho.isOpen
    · exact ho.numbers.sublist ((hfewer.map _).append_right _)

/-- What each acceptance preserves holds when the loop gets no permit any more, or nobody waits. -/
theorem acceptAll_spec {P : Hall → List Visitor → Prop}
    (haccept : ∀ h v waiting, h.acquire.gate.isReady = true → P h (v :: waiting) →
      P (h.acquire.accept v) waiting) (hP : P h waiting) :
    ∃ h' left, P h' left ∧ h.acceptAll waiting = { h'.acquire with waiting := left } ∧
      (left ≠ [] → h'.acquire.gate.isReady = false) := by
  induction waiting generalizing h with
  | nil => exact ⟨h, [], hP, rfl, fun hne => absurd rfl hne⟩
  | cons v waiting ih =>
    rw [acceptAll]
    cases hready : h.acquire.gate.isReady with
    | true =>
      rw [if_pos rfl]
      exact ih (haccept h v waiting hready hP)
    | false =>
      rw [if_neg Bool.false_ne_true]
      exact ⟨h, v :: waiting, hP, rfl, fun _ => hready⟩

/-! ## Between two steps -/

structure AtRest (h : Hall) : Prop extends h.Orderly h.waiting where
  refused : h.isListening = true → h.waiting ≠ [] → h.gate.acquire.isReady = false
  stopped : h.isListening = false → h.waiting = []
  distinct : (openConns h.served h.waiting ++ h.dropped).Nodup

/-- The first connections are served, as many as the cap allows, and all others wait. -/
theorem AtRest.first_served (hr : h.AtRest) {cap : Cap} (hcap : h.cap = some cap)
    (hlistening : h.isListening = true) :
    h.served.map (·.conn) = (openConns h.served h.waiting).take cap ∧
      (h.waiting.filter (·.isOpen)).map (·.conn) = (openConns h.served h.waiting).drop cap ∧
      h.served.length = min (cap : Nat) (openConns h.served h.waiting).length := by
  obtain ⟨hwithin, hready⟩ := (hcap ▸ hr.permits).within
  have hsplit : openConns h.served h.waiting =
      h.served.map (·.conn) ++ (h.waiting.filter (·.isOpen)).map (·.conn) := List.map_append
  have hlength : (h.served.map (·.conn)).length = h.served.length := List.length_map _
  rcases Nat.lt_or_ge h.served.length cap with hfew | hfull
  · -- The loop still has a permit, so nobody is left who waits.
    have hnone : h.waiting = [] := by
      by_contra hne
      rw [hr.refused hlistening hne] at hready
      exact Bool.false_ne_true (hready.mpr hfew)
    rw [hsplit, hnone, List.filter_nil, List.map_nil, List.append_nil, List.take_of_length_le (by omega),
      List.drop_of_length_le (by omega), hlength]
    exact ⟨rfl, rfl, (Nat.min_eq_right (by omega)).symm⟩
  · have hall : h.served.length = cap := Nat.le_antisymm hwithin hfull
    rw [hsplit, List.take_left' (hlength.trans hall), List.drop_left' (hlength.trans hall),
      List.length_append, hlength, hall]
    exact ⟨rfl, rfl, (Nat.min_eq_left (Nat.le_add_right _ _)).symm⟩

theorem openConns_accept (h : Hall) (v : Visitor) (waiting : List Visitor) :
    openConns (h.accept v).served waiting = openConns h.served (v :: waiting) := by
  cases hopen : v.isOpen with
  | true => simp [accept_of_isOpen, openConns, hopen]
  | false => simp [accept_of_left, openConns, hopen]

theorem exists_resume (h : Hall) :
    ∃ store gate served waiting, h.resume = { h with store, gate, served, waiting } := by
  rw [resume]
  split
  · obtain ⟨h', left, ⟨store, gate, served, rfl⟩, hall, -⟩ :=
      acceptAll_spec (P := fun h' _ => ∃ store gate served, h' = { h with store, gate, served })
        (fun h' v _ _ ⟨_, _, _, hframe⟩ => hframe ▸ exists_accept _ v)
        (⟨_, _, _, rfl⟩ : ∃ store gate served, h = { h with store, gate, served })
    exact ⟨_, _, _, _, hall⟩
  · exact ⟨_, _, _, _, rfl⟩

/-- When the loop rests, the connections are the same. -/
theorem resume_spec (ho : h.Orderly h.waiting) (hstopped : h.isListening = false → h.waiting = [])
    (hdistinct : (openConns h.served h.waiting ++ h.dropped).Nodup) :
    h.resume.AtRest ∧ openConns h.resume.served h.resume.waiting = openConns h.served h.waiting := by
  obtain ⟨store, gate, served, waiting, hframe⟩ := h.exists_resume
  have hsame : h.resume.isListening = h.isListening ∧ h.resume.dropped = h.dropped := by
    rw [hframe]
    exact ⟨rfl, rfl⟩
  by_cases hlistening : h.isListening = true
  · obtain ⟨h', left, ⟨ho', hconns⟩, hall, hrefused⟩ :=
      acceptAll_spec (P := fun h' left => h'.Orderly left ∧
          openConns h'.served left = openConns h.served h.waiting)
        (fun h' v left hready ⟨ho', hconns⟩ =>
          ⟨ho'.acquire.accept hready, (openConns_accept _ _ _).trans hconns⟩)
        ⟨ho, rfl⟩
    have hresume : h.resume = { h'.acquire with waiting := left } := (if_pos hlistening).trans hall
    rw [hresume] at hsame ⊢
    refine ⟨⟨⟨ho'.acquire.permits, ho'.isOpen, ho'.numbers⟩, ?_, ?_, ?_⟩, hconns⟩
    · intro _ hne
      have hno := hrefused hne
      exact (congrArg (·.acquire.isReady) (Gate.acquire_of_refused hno)).trans hno
    · intro hstill
      exact absurd (hsame.1.trans hlistening) (Bool.eq_false_iff.mp hstill)
    · rw [hsame.2]
      exact hconns.symm ▸ hdistinct
  · rw [resume, if_neg hlistening]
    exact ⟨{ ho with
      refused := fun hstill => absurd hstill hlistening
      stopped := hstopped
      distinct := hdistinct }, rfl⟩

end Hall
end RelayStore
