import RelayStore.Cluster
import RelayStore.Proofs.Session.Transcript
import RelayStore.Proofs.Store.Applied

/-! # Members of a cluster

Writing one node's store changes no other store and no link, and cutting or mending a
link changes no store. A node that answers a line writes its own store first and relays
only if the line is a client's mutation.
-/
namespace RelayStore

namespace Cluster
variable (cluster : Cluster)

@[simp] theorem size_setStore (i : Nat) (s : Store) : (cluster.setStore i s).size = cluster.size :=
  Array.size_modify

@[simp] theorem size_setLink (i : Nat) (up : Bool) : (cluster.setLink i up).size = cluster.size :=
  Array.size_modify

theorem getElem?_setStore (i k : Nat) (s : Store) :
    (cluster.setStore i s)[k]? =
      if i = k then cluster[k]?.map fun m => { m with store := s } else cluster[k]? :=
  Array.getElem?_modify

theorem getElem?_setLink (i k : Nat) (up : Bool) :
    (cluster.setLink i up)[k]? =
      if i = k then cluster[k]?.map fun m => { m with isLinked := up } else cluster[k]? :=
  Array.getElem?_modify

theorem storeAt_setStore {k : Nat} (hk : k < cluster.size) (i : Nat) (s : Store) :
    (cluster.setStore i s).storeAt k = if i = k then s else cluster.storeAt k := by
  rw [storeAt, getElem?_setStore, Array.getElem?_eq_getElem hk]
  by_cases hi : i = k
  · rw [if_pos hi, if_pos hi]
    rfl
  · rw [if_neg hi, if_neg hi, storeAt, Array.getElem?_eq_getElem hk]

@[simp] theorem storeAt_setLink (i k : Nat) (up : Bool) :
    (cluster.setLink i up).storeAt k = cluster.storeAt k := by
  rw [storeAt, storeAt, getElem?_setLink]
  by_cases hi : i = k
  · rw [if_pos hi]
    cases cluster[k]? <;> rfl
  · rw [if_neg hi]

@[simp] theorem setStore_storeAt (i : Nat) : cluster.setStore i (cluster.storeAt i) = cluster := by
  apply Array.ext_getElem?
  intro k
  rw [getElem?_setStore, storeAt]
  by_cases hi : i = k
  · subst hi
    rw [if_pos rfl]
    cases cluster[i]? <;> rfl
  · rw [if_neg hi]

theorem getElem?_setStore_cases (i k : Nat) (s : Store) :
    (cluster.setStore i s)[k]? = cluster[k]? ∨
      ∃ m, cluster[k]? = some m ∧ (cluster.setStore i s)[k]? = some { m with store := s } := by
  rw [getElem?_setStore]
  by_cases hi : i = k
  · rw [if_pos hi]
    cases hm : cluster[k]? with
    | none => exact .inl rfl
    | some m => exact .inr ⟨m, rfl, rfl⟩
  · rw [if_neg hi]
    exact .inl rfl

@[simp] theorem reachablePeer_setStore (i k : Nat) (s : Store) :
    (cluster.setStore i s).reachablePeer k = cluster.reachablePeer k := by
  rw [reachablePeer, reachablePeer]
  rcases getElem?_setStore_cases cluster i k s with h | ⟨m, hm, h⟩
  · rw [h]
  · rw [h, hm]

def peerAt (i : Nat) : Peer :=
  match cluster[i]? with
  | some m => m.peer
  | none => .absent

def isUp (i : Nat) : Bool :=
  match cluster[i]? with
  | some m => m.isLinked
  | none => false

theorem reachablePeer_eq_node_iff {i j : Nat} :
    cluster.reachablePeer i = .node j ↔ cluster.peerAt i = .node j ∧ cluster.isUp i = true := by
  rw [reachablePeer, peerAt, isUp]
  cases cluster[i]? with
  | none => simp
  | some m => cases hpeer : m.peer <;> cases hlink : m.isLinked <;> simp [hpeer, hlink]

@[simp] theorem peerAt_setStore (i k : Nat) (s : Store) :
    (cluster.setStore i s).peerAt k = cluster.peerAt k := by
  rw [peerAt, peerAt]
  rcases getElem?_setStore_cases cluster i k s with h | ⟨m, hm, h⟩
  · rw [h]
  · rw [h, hm]

@[simp] theorem isUp_setStore (i k : Nat) (s : Store) :
    (cluster.setStore i s).isUp k = cluster.isUp k := by
  rw [isUp, isUp]
  rcases getElem?_setStore_cases cluster i k s with h | ⟨m, hm, h⟩
  · rw [h]
  · rw [h, hm]

@[simp] theorem peerAt_setLink (i k : Nat) (up : Bool) :
    (cluster.setLink i up).peerAt k = cluster.peerAt k := by
  rw [peerAt, peerAt, getElem?_setLink]
  by_cases hi : i = k
  · rw [if_pos hi]
    cases cluster[k]? <;> rfl
  · rw [if_neg hi]

theorem isUp_setLink {k : Nat} (hk : k < cluster.size) (i : Nat) (up : Bool) :
    (cluster.setLink i up).isUp k = if i = k then up else cluster.isUp k := by
  rw [isUp, getElem?_setLink, Array.getElem?_eq_getElem hk]
  by_cases hi : i = k
  · rw [if_pos hi, if_pos hi]
    rfl
  · rw [if_neg hi, if_neg hi, isUp, Array.getElem?_eq_getElem hk]

theorem storeAt_of_size_le {k : Nat} (hk : cluster.size ≤ k) : cluster.storeAt k = .empty := by
  rw [storeAt, Array.getElem?_eq_none hk]

theorem storeAt_of_empty {cluster : Cluster} (h : ∀ m ∈ cluster, m.store = .empty) (k : Nat) :
    cluster.storeAt k = .empty := by
  rw [storeAt]
  cases hm : cluster[k]? with
  | none => rfl
  | some m => exact h m (Array.mem_of_getElem? hm)

end Cluster

/-! ## What a node answers and sends -/

def Peer.isReached : Peer → Bool
  | .node _ | .sink => true
  | _ => false

def Cluster.posted (cluster : Cluster) (i : Nat) (line : String) : List Relay :=
  match cluster.reachablePeer i with
  | .node j => [⟨i, some j, sentLine (markedLine line), none⟩]
  | .sink => [⟨i, none, sentLine (markedLine line), none⟩]
  | .absent | .refused | .invalid _ | .stalled => []

theorem Cluster.length_posted (cluster : Cluster) (i : Nat) (line : String) :
    (cluster.posted i line).length = if (cluster.reachablePeer i).isReached then 1 else 0 := by
  rw [posted]
  cases cluster.reachablePeer i <;> rfl

theorem Cluster.posted_of_node {cluster : Cluster} {i j : Nat} (h : cluster.reachablePeer i = .node j)
    (line : String) : cluster.posted i line = [⟨i, some j, sentLine (markedLine line), none⟩] := by
  rw [posted, h]

theorem Cluster.eq_of_mem_posted {cluster : Cluster} {i : Nat} {line : String} {r : Relay}
    (h : r ∈ cluster.posted i line) :
    r.source = i ∧ r.wire = sentLine (markedLine line) ∧
      ∀ j, r.target = some j → cluster.reachablePeer i = .node j := by
  rw [posted] at h
  cases hpeer : cluster.reachablePeer i with
  | node j =>
    rw [hpeer] at h
    obtain rfl := List.mem_singleton.mp h
    exact ⟨rfl, rfl, fun k hk => congrArg Peer.node (Option.some.inj hk)⟩
  | sink =>
    rw [hpeer] at h
    obtain rfl := List.mem_singleton.mp h
    exact ⟨rfl, rfl, fun k hk => nomatch hk⟩
  | absent | refused | invalid _ | stalled =>
    rw [hpeer] at h
    cases h

namespace Traffic
variable (i : Nat) (t : Traffic) {line : String}

def write (c : Command) : Traffic :=
  { t with cluster := t.cluster.setStore i ((t.cluster.storeAt i).apply c) }

@[simp] theorem inFlight_write (c : Command) : (write i t c).inFlight = t.inFlight := rfl

@[simp] theorem relays_write (c : Command) : (write i t c).relays = t.relays := rfl

@[simp] theorem reachablePeer_write (k : Nat) (c : Command) :
    (write i t c).cluster.reachablePeer k = t.cluster.reachablePeer k :=
  Cluster.reachablePeer_setStore _ _ _ _

theorem storeAt_write {k : Nat} (hk : k < t.cluster.size) (c : Command) :
    (write i t c).cluster.storeAt k =
      if i = k then (t.cluster.storeAt k).apply c else t.cluster.storeAt k := by
  rw [write, Cluster.storeAt_setStore _ hk]
  by_cases hi : i = k
  · rw [if_pos hi, if_pos hi, hi]
  · rw [if_neg hi, if_neg hi]

theorem get?_write {c : Command} (hmut : c.isMutation = true) {k : Nat} (hk : k < t.cluster.size)
    (key : String) :
    ((write i t c).cluster.storeAt k).get? key =
      if i = k ∧ c.key = key then c.outcome else (t.cluster.storeAt k).get? key := by
  rw [storeAt_write i t hk]
  by_cases hi : i = k
  · rw [if_pos hi, Store.get?_apply hmut]
    simp only [hi, true_and]
  · simp only [hi, false_and, if_false]

/-- Sending changes nothing but what is in flight. -/
theorem post_fst (line : String) :
    (post i t line).1 = { t with inFlight := t.inFlight ++ t.cluster.posted i line } := by
  rw [post, Cluster.posted]
  cases t.cluster.reachablePeer i <;> simp

theorem serveAt_eq (src : Source) :
    serveAt i t src =
      ((transcript (answer i) t src.items.1).1,
        Reply.bytes (transcript (answer i) t src.items.1).2) := by
  rw [serveAt, serve_of_isOpen _ _ _ Sink.isOpen_default]
  simp

theorem answer_of_rejected {e : Rejection} (h : Request.parse line = .error e) :
    answer i t line = (t, e.reply) := by
  simp [answer, Store.answer, h]

theorem answer_of_not_forwarded {r : Request} (h : Request.parse line = .ok r)
    (hf : r.isForwarded = false) :
    answer i t line = (write i t r.command, (t.cluster.storeAt i).replyTo r.command) := by
  simp only [answer, Store.answer, h, Request.aftermath, hf, Bool.false_eq_true, if_false]
  cases r.command.isMutation <;> rfl

theorem answer_of_forwarded {r : Request} (h : Request.parse line = .ok r)
    (hf : r.isForwarded = true) :
    answer i t line =
      ({ write i t r.command with inFlight := t.inFlight ++ t.cluster.posted i line },
        (t.cluster.storeAt i).replyTo r.command) := by
  have hposted : (write i t r.command).cluster.posted i line = t.cluster.posted i line := by
    rw [Cluster.posted, reachablePeer_write, Cluster.posted]
  simp only [answer, Store.answer, h, Request.aftermath, hf, if_true]
  exact congrArg (·, _) ((post_fst i (write i t r.command) line).trans (by rw [hposted, inFlight_write]))

/-- Whatever a node answers, it writes its own store with the command of the line, and has one
relay more in flight at most. -/
theorem answer_fst_of_parse {r : Request} (h : Request.parse line = .ok r) :
    (answer i t line).1 = { write i t r.command with
      inFlight := t.inFlight ++ if r.isForwarded = true then t.cluster.posted i line else [] } := by
  by_cases hf : r.isForwarded = true
  · rw [answer_of_forwarded i t h hf, if_pos hf]
  · rw [answer_of_not_forwarded i t h (Bool.eq_false_iff.mpr hf), if_neg hf, List.append_nil]
    rfl

theorem answer_of_mutation {c : Command} {j : Nat} (h : Request.parse line = .ok ⟨.client, c⟩)
    (hmut : c.isMutation = true) (hpeer : t.cluster.reachablePeer i = .node j) :
    (answer i t line).1 = { write i t c with
      inFlight := t.inFlight ++ [⟨i, some j, sentLine (markedLine line), none⟩] } := by
  have hforwarded : Request.isForwarded ⟨.client, c⟩ = true := by simp [Request.isForwarded, hmut]
  rw [answer_of_forwarded i t h hforwarded, Cluster.posted_of_node hpeer]

theorem answer_reply {r : Request} (h : Request.parse line = .ok r) :
    (answer i t line).2 = (t.cluster.storeAt i).replyTo r.command := by
  by_cases hf : r.isForwarded = true
  · rw [answer_of_forwarded i t h hf]
  · rw [answer_of_not_forwarded i t h (Bool.eq_false_iff.mpr hf)]

/-! ## What comes to its end -/

theorem settle_of_inFlight_eq_nil {t : Traffic} (h : t.inFlight = []) (rounds : Nat) :
    t.settle rounds = t := by
  have hround : t.round = t := by
    rw [round, h, List.foldl_nil, ← h]
  induction rounds with
  | zero => rfl
  | succ rounds ih => rw [settle, hround, ih]

theorem round_of_singleton {t : Traffic} {r : Relay} (h : t.inFlight = [r]) :
    t.round = land { t with inFlight := [] } r ⟨[r.wire], .closed⟩ {} := by
  rw [round, h, List.foldl_cons, List.foldl_nil]

theorem land_of_sink {t : Traffic} {r : Relay} (h : r.target = none) (src : Source) (sink : Sink) :
    t.land r src sink = { t with relays := t.relays ++ [r] } := by
  rw [land, h]

theorem land_of_node {t : Traffic} {r : Relay} {j : Nat} (h : r.target = some j) (src : Source)
    (sink : Sink) :
    t.land r src sink =
      { (serve (answer j) t src sink).state with
        relays := (serve (answer j) t src sink).state.relays ++
          [{ r with answer := some (serve (answer j) t src sink).sink.written.toList }] } := by
  rw [land, h]

end Traffic
end RelayStore
