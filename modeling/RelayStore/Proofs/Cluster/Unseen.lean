import RelayStore.Proofs.Cluster.Alone
import RelayStore.Proofs.Session.Readback

/-! # The neighbour is unseen

What a node's own clients are told does not depend on its neighbour: whether it has one, which
one, and when or whether its relays come through. If only this node is sent lines, its replies
and its table are those of a node alone. Only a node that is its own neighbour gets its relays
back. They are not kept in order, so an old one may undo a newer write; none does as long as no
key is written while a relay of it is in flight.
-/
namespace RelayStore
open Text

/-! ## A node alone -/

def Store.talk (s : Store) (texts : List String) : List (String × Bytes) × Store :=
  texts.foldl (fun (said, s) text =>
    (said ++ [(text, (s.exchange (sentLine text)).2)], (s.exchange (sentLine text)).1)) ([], s)

theorem Store.talk_append_singleton (s : Store) (texts : List String) (text : String) :
    s.talk (texts ++ [text]) =
      ((s.talk texts).1 ++ [(text, ((s.talk texts).2.exchange (sentLine text)).2)],
        ((s.talk texts).2.exchange (sentLine text)).1) := by
  rw [talk, List.foldl_append, ← talk]
  rfl

namespace Traffic

/-! ## A node in the midst of a cluster -/

/-- What comes about when clients send texts to one node only, with what they are told. Relays
come to their ends at any time and in any order, or are lost, and links are cut and mended.
A text may be sent whenever `free` says so. -/
inductive Course (i : Nat) (free : Traffic → String → Prop) (start : Traffic) :
    List (String × Bytes) → Traffic → Prop
  | start : Course i free start [] start
  | request {said : List (String × Bytes)} {t : Traffic} {text : String}
      (h : Course i free start said t) (hnl : '\n' ∉ text.toList) (hblank : isBlank text = false)
      (hfree : free t text) :
      Course i free start (said ++ [(text, (serveAt i t ⟨[sentLine text], .idle⟩).2)])
        (serveAt i t ⟨[sentLine text], .idle⟩).1
  | land {said : List (String × Bytes)} {t t' : Traffic} (h : Course i free start said t)
      (hland : Delivery t t') : Course i free start said t'
  | lose {said : List (String × Bytes)} {t : Traffic} {before rest : List Relay} {r : Relay}
      (h : Course i free start said t) (hflight : t.inFlight = before ++ r :: rest) :
      Course i free start said { t with inFlight := before ++ rest }
  | link {said : List (String × Bytes)} {t : Traffic} (h : Course i free start said t) (k : Nat)
      (isLinked : Bool) : Course i free start said { t with cluster := t.cluster.setLink k isLinked }

/-- A node that is its own neighbour is to write no key of which a relay is in flight. -/
def Unhurried (i : Nat) (t : Traffic) (text : String) : Prop :=
  t.cluster.peerAt i = .node i → ∀ q ∈ Request.ofSent text, q.command.isMutation = true →
    ∀ r ∈ t.inFlight, ¬ r.Mutates q.command.key

/-- Serving the relay at the node changes nothing of what a node alone would hold. -/
def Echoes (r : Relay) (i : Nat) (alone : Store) : Prop :=
  ∃ c, r.Carries i c ∧ (r.Fits → alone.get? c.key = c.outcome)

structure Follows (p : Peer) (i : Nat) (alone : Store) (t : Traffic) : Prop where
  lt_size : i < t.cluster.size
  peer : t.cluster.peerAt i = p
  table : (t.cluster.storeAt i).table = alone.table
  store : p ≠ .node i → t.cluster.storeAt i = alone
  isLast : ∀ r ∈ t.inFlight, r.IsLast
  echoes : ∀ r ∈ t.inFlight, r.target = some i → p = .node i ∧ Echoes r i alone

variable {p : Peer} {i : Nat} {alone : Store} {t t' : Traffic}

/-! ## One step -/

theorem Echoes.apply {r : Relay} (h : Echoes r i alone) {c : Command}
    (hfree : c.isMutation = true → ¬ r.Mutates c.key) : Echoes r i (alone.apply c) := by
  obtain ⟨c', hr, hheld⟩ := h
  refine ⟨c', hr, fun hfits => ?_⟩
  cases hmut : c.isMutation with
  | false => rw [Store.apply_of_not_mutation hmut, hheld hfits]
  | true =>
    have hkey : c.key ≠ c'.key := fun he => hfree hmut (hr.mutates_iff.mpr ⟨hfits, he.symm⟩)
    rw [Store.get?_apply_of_ne hkey, hheld hfits]

theorem Follows.answer (h : Follows p i alone t) {line : String} {r : Request}
    (hnl : '\n' ∉ line.toList) (hparse : Request.parse line = .ok r)
    (hfree : p = .node i → r.command.isMutation = true → ∀ q ∈ t.inFlight, ¬ q.Mutates r.command.key) :
    Follows p i (alone.apply r.command) (Traffic.answer i t line).1 := by
  rw [answer_fst_of_parse i t hparse]
  have hposted : ∀ q ∈ (if r.isForwarded = true then t.cluster.posted i line else []),
      q.IsLast ∧ (q.target = some i → p = .node i ∧ Echoes q i (alone.apply r.command)) := by
    intro q hq
    by_cases hf : r.isForwarded = true
    · rw [if_pos hf] at hq
      obtain ⟨-, hwire, htarget⟩ := Cluster.eq_of_mem_posted hq
      refine ⟨isLast_of_marked hnl hwire, fun hi => ⟨?_, ?_⟩⟩
      · rw [← h.peer]
        exact ((Cluster.reachablePeer_eq_node_iff _).mp (htarget i hi)).1
      · obtain ⟨origin, c⟩ := r
        obtain ⟨rfl, hmut⟩ : origin = .client ∧ c.isMutation = true := by
          simpa [Request.isForwarded] using hf
        exact ⟨c, ⟨hi, hmut, line, hnl, hparse, hwire⟩,
          fun _ => (Store.get?_apply hmut _ _).trans (if_pos rfl)⟩
    · rw [if_neg hf] at hq
      cases hq
  have hown := storeAt_write i t h.lt_size r.command
  rw [if_pos rfl] at hown
  constructor
  · exact (Cluster.size_setStore _ _ _).symm ▸ h.lt_size
  · exact (Cluster.peerAt_setStore _ _ _ _).trans h.peer
  · exact (congrArg Store.table hown).trans (Store.table_apply h.table r.command)
  · exact fun hne => hown.trans (by rw [h.store hne])
  · exact fun q hq => (List.mem_append.mp hq).elim (h.isLast q) fun hq => (hposted q hq).1
  · intro q hq hi
    rcases List.mem_append.mp hq with hq | hq
    · obtain ⟨hself, hecho⟩ := h.echoes q hq hi
      exact ⟨hself, hecho.apply fun hmut => hfree hself hmut q hq⟩
    · exact (hposted q hq).2 hi

/-- A text of one line has the reply that a node alone gives. -/
theorem Follows.request (h : Follows p i alone t) {text : String} (hnl : '\n' ∉ text.toList)
    (hblank : isBlank text = false) (hfree : Unhurried i t text) :
    (serveAt i t ⟨[sentLine text], .idle⟩).2 = (alone.exchange (sentLine text)).2 ∧
      Follows p i (alone.exchange (sentLine text)).1 (serveAt i t ⟨[sentLine text], .idle⟩).1 := by
  have hitem {item : Item} (hitems : (Source.items ⟨[sentLine text], .idle⟩).1 = [item])
      (hfollows : Follows p i (respond Store.reply alone item).1 (respond (Traffic.answer i) t item).1) :
      (serveAt i t ⟨[sentLine text], .idle⟩).2 = (alone.exchange (sentLine text)).2 ∧
        Follows p i (alone.exchange (sentLine text)).1 (serveAt i t ⟨[sentLine text], .idle⟩).1 := by
    rw [serveAt_of_item i t hitems, alone.exchange_of_item hitems, respond_answer_snd,
      (Store.respond_of_table h.table item).2]
    exact ⟨rfl, hfollows⟩
  rcases sent_cases hnl hblank with ⟨hitems, -⟩ | ⟨line, hline, -, hitems, hsent⟩
  · exact hitem hitems h
  · apply hitem hitems
    cases hparse : Request.parse line with
    | error e =>
      rw [Store.respond_of_rejected _ hparse, respond, answer_of_rejected i t hparse]
      exact h
    | ok r =>
      rw [Store.respond_of_parse _ hparse, respond]
      refine h.answer hline hparse fun hself hmut q hq => ?_
      exact hfree (h.peer.trans hself) r (by simp [hsent, hparse, Except.toOption]) hmut q hq

theorem Follows.of_inFlight (h : Follows p i alone t) {inFlight relays : List Relay}
    (hsub : ∀ r ∈ inFlight, r ∈ t.inFlight) : Follows p i alone ⟨t.cluster, inFlight, relays⟩ where
  lt_size := h.lt_size
  peer := h.peer
  table := h.table
  store := h.store
  isLast r hr := h.isLast r (hsub r hr)
  echoes r hr := h.echoes r (hsub r hr)

theorem Follows.of_links (h : Follows p i alone t) {c : Cluster} (hlinks : t.cluster.SameLinks c)
    (htable : (c.storeAt i).table = (t.cluster.storeAt i).table)
    (hstore : p ≠ .node i → c.storeAt i = t.cluster.storeAt i) : Follows p i alone { t with cluster := c } where
  lt_size := hlinks.size ▸ h.lt_size
  peer := (hlinks.peer i).trans h.peer
  table := htable.trans h.table
  store hne := (hstore hne).trans (h.store hne)
  isLast := h.isLast
  echoes := h.echoes

/-- A relay that comes back to the node writes what is there already. -/
theorem Follows.land_self (h : Follows p i alone t) (hself : p = .node i) {r : Relay}
    (hecho : Echoes r i alone) {src : Source} (hbytes : src.bytes = r.wire) (hend : src.ending = .closed)
    (sink : Sink) : Follows p i alone (serve (Traffic.answer i) t src sink).state := by
  obtain ⟨c, hr, hheld⟩ := hecho
  rw [hr.serve_eq hbytes hend]
  by_cases hfits : r.Fits
  · rw [if_pos hfits]
    refine h.of_links (c := (write i t c).cluster) ((Cluster.SameLinks.refl _).write i _ _ c) ?_
      fun hne => absurd hself hne
    rw [storeAt_write i t h.lt_size, if_pos rfl]
    apply Store.table_ext
    intro key
    rw [Store.get?_apply hr.isMutation]
    split
    · next hkey => rw [← hheld hfits, hkey, Store.get?, Store.get?, h.table]
    · rfl
  · rw [if_neg hfits]
    exact h

theorem Follows.land (h : Follows p i alone t) (hland : Delivery t t') : Follows p i alone t' := by
  obtain @⟨before, rest, r, src, sink, hflight, hbytes, hend⟩ := hland
  have hr : r ∈ t.inFlight := by simp [hflight]
  have hrest : Follows p i alone { t with inFlight := before ++ rest } :=
    h.of_inFlight fun q hq => by
      rw [hflight]
      exact ((List.sublist_cons_self r rest).append_left before).subset hq
  cases htarget : r.target with
  | none =>
    rw [land_of_sink htarget]
    exact hrest.of_inFlight fun q hq => hq
  | some j =>
    have hkept := h.isLast r hr j { t with inFlight := before ++ rest } src sink hbytes (by simp [hend])
    rw [land_of_node htarget]
    by_cases hj : j = i
    · subst hj
      obtain ⟨hself, hecho⟩ := h.echoes r hr htarget
      exact (hrest.land_self hself hecho hbytes hend sink).of_inFlight fun q hq => hq
    · obtain ⟨hlinks, hstore⟩ := serve_elsewhere hj { t with inFlight := before ++ rest } src sink
      have hfollows := hrest.of_links hlinks (congrArg Store.table hstore) fun _ => hstore
      exact hfollows.of_inFlight fun q hq => hkept ▸ hq

/-! ## A whole course -/

/-- Up to any moment of a course the clients are told what a node alone tells them. -/
theorem Course.follows {free : Traffic → String → Prop} (hfree : ∀ t text, free t text → Unhurried i t text)
    {start : Traffic} (hstart : Follows p i alone start) {said : List (String × Bytes)}
    (h : Course i free start said t) :
    said = (alone.talk (said.map Prod.fst)).1 ∧ Follows p i (alone.talk (said.map Prod.fst)).2 t := by
  induction h with
  | start => exact ⟨rfl, hstart⟩
  | @request said t text _ hnl hblank hsent ih =>
    obtain ⟨hsaid, hfollows⟩ := ih
    obtain ⟨hreply, hafter⟩ := hfollows.request hnl hblank (hfree t text hsent)
    rw [List.map_append, List.map_singleton, Store.talk_append_singleton, ← hsaid, hreply]
    exact ⟨rfl, hafter⟩
  | land _ hland ih => exact ⟨ih.1, ih.2.land hland⟩
  | @lose said t before rest r _ hflight ih =>
    refine ⟨ih.1, ih.2.of_inFlight fun q hq => ?_⟩
    rw [hflight]
    exact ((List.sublist_cons_self r rest).append_left before).subset hq
  | link _ k isLinked ih =>
    obtain ⟨hsaid, hfollows⟩ := ih
    refine ⟨hsaid, ?_⟩
    constructor
    · exact (Cluster.size_setLink _ _ _).symm ▸ hfollows.lt_size
    · exact (Cluster.peerAt_setLink ..).trans hfollows.peer
    · rw [Cluster.storeAt_setLink, hfollows.table]
    · exact fun hne => by rw [Cluster.storeAt_setLink, hfollows.store hne]
    · exact hfollows.isLast
    · exact hfollows.echoes

theorem follows_start {c : Cluster} (hi : i < c.size) :
    Follows (c.peerAt i) i (c.storeAt i) { cluster := c } where
  lt_size := hi
  peer := rfl
  table := rfl
  store _ := rfl
  isLast := by simp
  echoes := by simp

variable {free : Traffic → String → Prop} {start : Traffic} {said : List (String × Bytes)}

/-- A text that is read as it is and taken. -/
theorem Course.take (h : Course i free start said t) {text : String} {r : Request}
    (hnl : '\n' ∉ text.toList) (hitems : (Source.items ⟨[sentLine text], .idle⟩).1 = [.line text])
    (hparse : Request.parse text = .ok r) (hfree : free t text) :
    Course i free start
      (said ++ [(text, sentLine ((t.cluster.storeAt i).replyTo r.command).render)])
      (Traffic.answer i t text).1 := by
  have hread : Item.line text ∈ (Source.items ⟨[sentLine text], .idle⟩).1 := by simp [hitems]
  have hstep := h.request hnl (Source.line_spec hread).2 hfree
  rwa [serveAt_of_parse i t hitems hparse] at hstep

theorem Course.mutate (h : Course i free start said t) {text : String} {c : Command} {j : Nat}
    (hnl : '\n' ∉ text.toList) (hitems : (Source.items ⟨[sentLine text], .idle⟩).1 = [.line text])
    (hparse : Request.parse text = .ok ⟨.client, c⟩) (hmut : c.isMutation = true)
    (hpeer : t.cluster.reachablePeer i = .node j) (hfree : free t text) :
    Course i free start (said ++ [(text, sentLine "OK")])
      { write i t c with
        inFlight := t.inFlight ++ [⟨i, some j, sentLine (markedLine text), none⟩] } := by
  have hstep := h.take hnl hitems hparse hfree
  rwa [answer_of_mutation i t hparse hmut hpeer, replyTo_mutation _ hmut] at hstep

theorem Course.exists_land (h : Course i free start said t) {before rest : List Relay} {r : Relay}
    (hflight : t.inFlight = before ++ r :: rest) {j : Nat} {c : Command} (hr : r.Carries j c)
    (hfits : r.Fits) :
    ∃ relays, Course i free start said { write j t c with inFlight := before ++ rest, relays } := by
  have hbytes : Source.bytes ⟨[r.wire], .closed⟩ = r.wire := List.append_nil _
  obtain ⟨relays, hland⟩ := hr.exists_land hfits hbytes rfl {} { t with inFlight := before ++ rest }
  have hstep : Delivery t (Traffic.land { t with inFlight := before ++ rest } r ⟨[r.wire], .closed⟩ {}) :=
    .land hflight hbytes rfl
  exact ⟨relays, h.land (hland ▸ hstep)⟩

end Traffic
end RelayStore
