import Mathlib.Logic.Relation
import RelayStore.Proofs.Cluster.Relay
import RelayStore.Proofs.Store.Applied

/-! # Relays in flight

Two nodes are each other's neighbour. A node that takes a mutation sends its marked form and
goes on, and the neighbour serves it when it comes, in whatever order relays come. As long as
no key is written while a relay of the same key is in flight, the nodes differ only at keys
that are in flight: the node that sent the relay holds what the other one is about to hold.
-/
namespace RelayStore
open Text

/-! ## Sending and serving -/

def Relay.Apart (r r' : Relay) : Prop :=
  ∀ key, r.Mutates key → ¬ r'.Mutates key

theorem Relay.Apart.symm {r r' : Relay} (h : r.Apart r') : r'.Apart r :=
  fun key hkey' hkey => h key hkey hkey'

namespace Traffic

/-- Steps of two nodes. One takes a client's mutation of a key that is not in flight, or a
relay that is in flight comes to the node that it is for. -/
inductive Exchange (i j : Nat) : Traffic → Traffic → Prop
  | issue {t : Traffic} {node : Nat} {line : String} {c : Command} (hnode : node = i ∨ node = j)
      (hnl : '\n' ∉ line.toList) (hparse : Request.parse line = .ok ⟨.client, c⟩)
      (hmut : c.isMutation = true) (hfits : Utf8.size (trim line) ≤ 65526)
      (hfree : ∀ r ∈ t.inFlight, ¬ r.Mutates c.key) :
      Exchange i j t (answer node t line).1
  | deliver {t t' : Traffic} (hland : Delivery t t') : Exchange i j t t'

variable {i j node other : Nat} {t : Traffic} {c : Command}

/-! ## What is in flight -/

def AreEnds (i j node other : Nat) : Prop :=
  node = i ∧ other = j ∨ node = j ∧ other = i

/-- The relays in flight are mutations of different keys. The node that sent one holds what it
brings, and at all other keys the two nodes hold the same. -/
structure Flight (i j : Nat) (t : Traffic) : Prop where
  ends : ∀ node other, AreEnds i j node other → t.cluster.reachablePeer node = .node other
  carried : ∀ r ∈ t.inFlight, ∃ node other c, AreEnds i j node other ∧ r.Carries other c ∧ r.Fits ∧
    (t.cluster.storeAt node).get? c.key = c.outcome
  apart : t.inFlight.Pairwise Relay.Apart
  agree : ∀ key, (∀ r ∈ t.inFlight, ¬ r.Mutates key) →
    (t.cluster.storeAt i).get? key = (t.cluster.storeAt j).get? key

theorem lt_size_of_peer {c : Cluster} {k : Nat} (h : c.reachablePeer k = .node other) : k < c.size := by
  rcases Nat.lt_or_ge k c.size with hk | hk
  · exact hk
  · rw [Cluster.reachablePeer, Array.getElem?_eq_none hk] at h
    cases h

theorem Flight.lt_size (h : Flight i j t) (hends : AreEnds i j node other) :
    node < t.cluster.size ∧ other < t.cluster.size := by
  have hback : AreEnds i j other node := hends.elim (fun h => .inr h.symm) fun h => .inl h.symm
  exact ⟨lt_size_of_peer (h.ends _ _ hends), lt_size_of_peer (h.ends _ _ hback)⟩

theorem Flight.agree_ends (h : Flight i j t) (hends : AreEnds i j node other) {key : String}
    (hfree : ∀ r ∈ t.inFlight, ¬ r.Mutates key) :
    (t.cluster.storeAt node).get? key = (t.cluster.storeAt other).get? key := by
  rcases hends with ⟨rfl, rfl⟩ | ⟨rfl, rfl⟩
  · exact h.agree key hfree
  · exact (h.agree key hfree).symm

theorem Flight.issue (h : Flight i j t) (hends : AreEnds i j node other) {r : Relay}
    (hr : r.Carries other c) (hfits : r.Fits) (hfree : ∀ r ∈ t.inFlight, ¬ r.Mutates c.key) :
    Flight i j { write node t c with inFlight := t.inFlight ++ [r] } where
  ends k l hkl := (Cluster.reachablePeer_setStore _ _ _ _).trans (h.ends k l hkl)
  carried := by
    intro r' hr'
    rcases List.mem_append.mp hr' with hr' | hr'
    · obtain ⟨k, l, c', hkl, hc', hfits', hheld⟩ := h.carried r' hr'
      have hkey : c.key ≠ c'.key := fun he => hfree r' hr' (hc'.mutates_iff.mpr ⟨hfits', he.symm⟩)
      refine ⟨k, l, c', hkl, hc', hfits', ?_⟩
      rw [get?_write _ _ hr.isMutation (h.lt_size hkl).1, if_neg fun hn => hkey hn.2]
      exact hheld
    · obtain rfl := List.mem_singleton.mp hr'
      refine ⟨node, other, c, hends, hr, hfits, ?_⟩
      rw [get?_write _ _ hr.isMutation (h.lt_size hends).1, if_pos ⟨rfl, rfl⟩]
  apart := by
    refine List.pairwise_append.mpr ⟨h.apart, List.pairwise_singleton _ _, ?_⟩
    intro r' hr' r'' hr'' key hkey hkey'
    rw [List.mem_singleton.mp hr'', hr.mutates_iff] at hkey'
    exact hfree r' hr' (hkey'.2 ▸ hkey)
  agree := by
    intro key hkey
    have hsize := h.lt_size (.inl ⟨rfl, rfl⟩)
    have hother : c.key ≠ key := fun he => hkey r (by simp) (hr.mutates_iff.mpr ⟨hfits, he⟩)
    rw [get?_write _ _ hr.isMutation hsize.1, get?_write _ _ hr.isMutation hsize.2,
      if_neg fun hn => hother hn.2, if_neg fun hn => hother hn.2]
    exact h.agree key fun r' hr' => hkey r' (List.mem_append_left _ hr')

theorem Flight.deliver (h : Flight i j t) {before rest relays : List Relay} {r : Relay}
    (hflight : t.inFlight = before ++ r :: rest) (hr : r.Carries other c) (hfits : r.Fits)
    (hends : AreEnds i j node other) (hheld : (t.cluster.storeAt node).get? c.key = c.outcome) :
    Flight i j { write other t c with inFlight := before ++ rest, relays } := by
  have hperm : t.inFlight.Perm (r :: (before ++ rest)) := hflight ▸ List.perm_middle
  obtain ⟨hfirst, hrest⟩ :=
    List.pairwise_cons.mp ((hperm.pairwise_iff Relay.Apart.symm).mp h.apart)
  have hsize {k l : Nat} (hkl : AreEnds i j k l) := h.lt_size hkl
  constructor
  · intro k l hkl
    exact (Cluster.reachablePeer_setStore _ _ _ _).trans (h.ends k l hkl)
  · intro r' hr'
    obtain ⟨k, l, c', hkl, hc', hfits', hheld'⟩ :=
      h.carried r' (hperm.mem_iff.mpr (List.mem_cons_of_mem r hr'))
    have hkey : c.key ≠ c'.key := fun he =>
      hfirst r' hr' c.key (hr.mutates_iff.mpr ⟨hfits, rfl⟩) (hc'.mutates_iff.mpr ⟨hfits', he.symm⟩)
    refine ⟨k, l, c', hkl, hc', hfits', ?_⟩
    rw [get?_write _ _ hr.isMutation (hsize hkl).1, if_neg fun hn => hkey hn.2]
    exact hheld'
  · exact hrest
  · intro key hfree
    have hagree : ((write other t c).cluster.storeAt node).get? key =
        ((write other t c).cluster.storeAt other).get? key := by
      rw [get?_write _ _ hr.isMutation (hsize hends).1, get?_write _ _ hr.isMutation (hsize hends).2]
      by_cases hkey : c.key = key
      · -- The node that is served catches up with the one that sent the relay.
        subst hkey
        simp only [and_true, if_true, hheld, ite_self]
      · rw [if_neg fun hn => hkey hn.2, if_neg fun hn => hkey hn.2]
        apply h.agree_ends hends
        intro r' hr'
        rcases List.mem_cons.mp (hperm.mem_iff.mp hr') with rfl | hr'
        · exact fun hm => hkey (hr.mutates_iff.mp hm).2
        · exact hfree r' hr'
    rcases hends with ⟨rfl, rfl⟩ | ⟨rfl, rfl⟩
    · exact hagree
    · exact hagree.symm

/-- What a step of the two nodes does: it writes one node's store, with one more relay in flight
to the other node, or one relay less that brought the mutation. -/
theorem Exchange.cases {t' : Traffic} (hstep : Exchange i j t t') (h : Flight i j t) :
    (∃ node other c r, AreEnds i j node other ∧ r.Carries other c ∧ r.Fits ∧
      (∀ r ∈ t.inFlight, ¬ r.Mutates c.key) ∧
      t' = { write node t c with inFlight := t.inFlight ++ [r] }) ∨
    ∃ node other c r before rest relays, AreEnds i j node other ∧ r.Carries other c ∧ r.Fits ∧
      (t.cluster.storeAt node).get? c.key = c.outcome ∧ t.inFlight = before ++ r :: rest ∧
      t' = { write other t c with inFlight := before ++ rest, relays } := by
  cases hstep with
  | @issue node line c hnode hnl hparse hmut hfits hfree =>
    obtain ⟨other, hends⟩ : ∃ other, AreEnds i j node other := by
      rcases hnode with rfl | rfl
      · exact ⟨j, .inl ⟨rfl, rfl⟩⟩
      · exact ⟨i, .inr ⟨rfl, rfl⟩⟩
    let r : Relay := ⟨node, some other, sentLine (markedLine line), none⟩
    have hr : r.Carries other c := ⟨rfl, hmut, line, hnl, hparse, rfl⟩
    have hwire : r.wire = sentLine (markedLine line) := rfl
    have hshort : r.Fits := (Relay.fits_iff hwire).mpr (markedMax_eq ▸ hfits)
    exact .inl ⟨node, other, c, r, hends, hr, hshort, hfree,
      answer_of_mutation _ _ hparse hmut (h.ends _ _ hends)⟩
  | deliver hland =>
    obtain @⟨before, rest, r, src, sink, hflight, hbytes, hend⟩ := hland
    obtain ⟨node, other, c, hends, hr, hfits, hheld⟩ := h.carried r (by simp [hflight])
    obtain ⟨relays, hland⟩ :=
      hr.exists_land hfits hbytes hend sink { t with inFlight := before ++ rest }
    exact .inr ⟨node, other, c, r, before, rest, relays, hends, hr, hfits, hheld, hflight, hland⟩

theorem Flight.step {t' : Traffic} (h : Flight i j t) (hstep : Exchange i j t t') : Flight i j t' := by
  rcases hstep.cases h with ⟨node, other, c, r, hends, hr, hfits, hfree, rfl⟩ |
    ⟨node, other, c, r, before, rest, relays, hends, hr, hfits, hheld, hflight, rfl⟩
  · exact h.issue hends hr hfits hfree
  · exact h.deliver hflight hr hfits hends hheld

def due (k : Nat) (t : Traffic) : Nat :=
  (t.cluster.storeAt k).writes + t.inFlight.countP (·.target = some k)

theorem writes_write (hmut : c.isMutation = true) {k : Nat} (hk : k < t.cluster.size) :
    ((write node t c).cluster.storeAt k).writes =
      (t.cluster.storeAt k).writes + if node = k then 1 else 0 := by
  rw [storeAt_write node t hk]
  split
  · exact Store.writes_apply hmut _
  · rfl

/-- Each mutation falls due at both nodes at once, and a relay that is served was due before. -/
theorem Exchange.due_eq {t' : Traffic} (hstep : Exchange i j t t') (h : Flight i j t) :
    ∃ n, due i t' = due i t + n ∧ due j t' = due j t + n := by
  have hsize := h.lt_size (.inl ⟨rfl, rfl⟩)
  rcases hstep.cases h with ⟨node, other, c, r, hends, hr, hfits, hfree, rfl⟩ |
    ⟨node, other, c, r, before, rest, relays, hends, hr, hfits, hheld, hflight, rfl⟩
  · have hdue {k : Nat} (hk : k < t.cluster.size) :
        due k { write node t c with inFlight := t.inFlight ++ [r] } =
          due k t + ((if node = k then 1 else 0) + if other = k then 1 else 0) := by
      simp only [due, writes_write hr.isMutation hk, List.countP_append, List.countP_singleton,
        hr.target, Option.some.injEq, decide_eq_true_eq]
      omega
    refine ⟨_, hdue hsize.1, ?_⟩
    rw [hdue hsize.2]
    rcases hends with ⟨rfl, rfl⟩ | ⟨rfl, rfl⟩
    · simp only [eq_comm, Nat.add_comm]
    · simp only [eq_comm, Nat.add_comm]
  · have hdue {k : Nat} (hk : k < t.cluster.size) :
        due k { write other t c with inFlight := before ++ rest, relays } = due k t := by
      simp only [due, writes_write hr.isMutation hk, hflight, List.countP_append, List.countP_cons,
        hr.target, Option.some.injEq, decide_eq_true_eq]
      omega
    exact ⟨0, hdue hsize.1, hdue hsize.2⟩

/-- What holds of every run: the nodes differ only by what is in flight, in what they hold and in
how often they were written. -/
theorem Flight.run {t' : Traffic} (h : Flight i j t) (hrun : Relation.ReflTransGen (Exchange i j) t t') :
    Flight i j t' ∧ ∃ n, due i t' = due i t + n ∧ due j t' = due j t + n := by
  induction hrun with
  | refl => exact ⟨h, 0, rfl, rfl⟩
  | tail _ hstep ih =>
    obtain ⟨hflight, n, hi, hj⟩ := ih
    obtain ⟨m, hi', hj'⟩ := hstep.due_eq hflight
    exact ⟨hflight.step hstep, n + m, by omega, by omega⟩

/-- Two nodes are each other's neighbour and hold the same. They take mutations, each relayed on
its own, and relays are served in any order. In a run in which no key is written while a relay
of it is in flight, the nodes agree at every key that is not in flight, a relay that is served
sets off no other, and the stores are the same whenever nothing is in flight. -/
theorem stores_converge {c : Cluster} (hi : c.reachablePeer i = .node j)
    (hj : c.reachablePeer j = .node i) (hsame : (c.storeAt i).table = (c.storeAt j).table)
    (hrun : Relation.ReflTransGen (Exchange i j) { cluster := c } t) :
    (∀ key, (∀ r ∈ t.inFlight, ¬ r.Mutates key) →
      (t.cluster.storeAt i).get? key = (t.cluster.storeAt j).get? key) ∧
    (∀ before r rest src sink, t.inFlight = before ++ r :: rest → src.bytes = r.wire →
      src.ending = .closed →
      (land { t with inFlight := before ++ rest } r src sink).inFlight = before ++ rest) ∧
    (t.inFlight = [] → (t.cluster.storeAt i).table = (t.cluster.storeAt j).table ∧
      (c.storeAt i = c.storeAt j → t.cluster.storeAt i = t.cluster.storeAt j)) := by
  have hstart : Flight i j { cluster := c } := by
    constructor
    · rintro node other (⟨rfl, rfl⟩ | ⟨rfl, rfl⟩)
      · exact hi
      · exact hj
    · intro r hr
      cases hr
    · exact .nil
    · intro key _
      simp only [Store.get?, hsame]
  obtain ⟨hflight, n, hdue⟩ := hstart.run hrun
  refine ⟨hflight.agree, ?_, ?_⟩
  · intro before r rest src sink hsplit hbytes hend
    obtain ⟨_, node, command, -, hr, hfits, -⟩ := hflight.carried r (by simp [hsplit])
    obtain ⟨relays, hland⟩ :=
      hr.exists_land hfits hbytes hend sink { t with inFlight := before ++ rest }
    rw [hland]
    rfl
  · intro hnone
    have htable : (t.cluster.storeAt i).table = (t.cluster.storeAt j).table :=
      Store.table_ext fun key => hflight.agree key (by simp [hnone])
    refine ⟨htable, ?_⟩
    intro hequal
    have hwrites : (t.cluster.storeAt i).writes = (t.cluster.storeAt j).writes := by
      simp only [due, hnone, hequal, List.countP_nil] at hdue
      omega
    exact Store.eq_of_table htable hwrites

/-- Each node takes one mutation, and the later of the two relays is served first. -/
theorem stores_converge_crossing :
    let c : Cluster := #[{ peer := .node 1 }, { peer := .node 0 }]
    ∃ t, Relation.ReflTransGen (Exchange 0 1) { cluster := c } t ∧ t.inFlight = [] ∧
      (t.cluster.storeAt 0).get? "a" = some "1" ∧
      t.cluster.storeAt 0 = t.cluster.storeAt 1 := by
  intro c
  let first : Relay := ⟨0, some 1, sentLine (markedLine "SET a 1"), none⟩
  let second : Relay := ⟨1, some 0, sentLine (markedLine "DEL b"), none⟩
  have hfirst : first.Carries 1 (.set "a" "1") :=
    ⟨rfl, rfl, "SET a 1", by decide, by decide, rfl⟩
  have hsecond : second.Carries 0 (.delete "b") :=
    ⟨rfl, rfl, "DEL b", by decide, by decide, rfl⟩
  let t₁ : Traffic := { write 0 { cluster := c } (.set "a" "1") with inFlight := [first] }
  let t₂ : Traffic := { write 1 t₁ (.delete "b") with inFlight := [first, second] }
  have hissue₁ : Exchange 0 1 { cluster := c } t₁ := by
    have hparse : Request.parse "SET a 1" = .ok ⟨.client, .set "a" "1"⟩ := by decide
    have hstep : Exchange 0 1 { cluster := c } (answer 0 { cluster := c } "SET a 1").1 :=
      .issue (.inl rfl) (by decide) hparse rfl (by decide) (by simp)
    rwa [answer_of_mutation _ _ hparse rfl (rfl : c.reachablePeer 0 = .node 1)] at hstep
  have hissue₂ : Exchange 0 1 t₁ t₂ := by
    have hparse : Request.parse "DEL b" = .ok ⟨.client, .delete "b"⟩ := by decide
    have hfree : ∀ r ∈ t₁.inFlight, ¬ r.Mutates (Command.delete "b").key := by
      intro r hr
      rw [List.mem_singleton.mp hr, hfirst.mutates_iff]
      decide
    have hstep : Exchange 0 1 t₁ (answer 1 t₁ "DEL b").1 :=
      .issue (.inr rfl) (by decide) hparse rfl (by decide) hfree
    rwa [answer_of_mutation _ _ hparse rfl (rfl : t₁.cluster.reachablePeer 1 = .node 0)] at hstep
  have hwire (r : Relay) : Source.bytes ⟨[r.wire], .closed⟩ = r.wire := List.append_nil _
  obtain ⟨ended, hland₂⟩ := hsecond.exists_land (by decide) (hwire second) rfl {}
    { t₂ with inFlight := [first] ++ [] }
  let t₃ : Traffic := { write 0 t₂ (.delete "b") with inFlight := [first], relays := ended }
  have hdeliver₂ : Exchange 0 1 t₂ t₃ := by
    have hsplit : t₂.inFlight = [first] ++ second :: [] := rfl
    exact .deliver (hland₂.subst (motive := Delivery t₂) (.land hsplit (hwire second) rfl))
  obtain ⟨ended', hland₁⟩ := hfirst.exists_land (by decide) (hwire first) rfl {}
    { t₃ with inFlight := [] ++ [] }
  let t₄ : Traffic := { write 1 t₃ (.set "a" "1") with inFlight := [], relays := ended' }
  have hdeliver₁ : Exchange 0 1 t₃ t₄ := by
    have hsplit : t₃.inFlight = [] ++ first :: [] := rfl
    exact .deliver (hland₁.subst (motive := Delivery t₃) (.land hsplit (hwire first) rfl))
  have hrun : Relation.ReflTransGen (Exchange 0 1) { cluster := c } t₄ :=
    .tail (.tail (.tail (.single hissue₁) hissue₂) hdeliver₂) hdeliver₁
  have hi : c.reachablePeer 0 = .node 1 := rfl
  have hj : c.reachablePeer 1 = .node 0 := rfl
  obtain ⟨-, -, hequal⟩ := stores_converge hi hj rfl hrun
  exact ⟨t₄, hrun, rfl, rfl, (hequal rfl).2 rfl⟩

end Traffic
end RelayStore
