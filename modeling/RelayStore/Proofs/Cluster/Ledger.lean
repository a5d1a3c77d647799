import RelayStore.Cluster.Run
import RelayStore.Proofs.Cluster.Hops

/-! # What the nodes of a cluster hold

A ledger lists the commands that steps bring to one node: what its own clients ask for, and
what the nodes that have it as their neighbour relay to it, over a link that is up and within
the limit. In a run in which clients send single lines and each relay is over before the next
step, each node holds after every step what its ledger comes to. No entry is made up for
later and none comes over two links.
-/
namespace RelayStore
open Text

/-! ## Ledgers -/

namespace Scene

def Step.IsPlain : Step → Prop
  | .request _ _ text => '\n' ∉ text.toList ∧ isBlank text = false
  | .cut _ | .mend _ => True
  | .handle _ _ | .propagate _ _ | .hasPeer _ => False

instance (st : Step) : Decidable st.IsPlain :=
  match st with
  | .request _ _ _ => inferInstanceAs (Decidable (_ ∧ _))
  | .cut _ | .mend _ => inferInstanceAs (Decidable True)
  | .handle _ _ | .propagate _ _ | .hasPeer _ => inferInstanceAs (Decidable False)

def Step.relink (up : Nat → Bool) : Step → Nat → Bool
  | .cut i => fun k => if i = k then false else up k
  | .mend i => fun k => if i = k then true else up k
  | _ => up

/-- The commands that a step brings to a node: what the node itself takes, and then what it
is relayed. A marked form of more than 65536 bytes is lost. -/
def Step.commandsFor (peer : Nat → Peer) (up : Nat → Bool) (k : Nat) : Step → List Command
  | .request i _ text => (Request.ofSent text).flatMap fun r =>
    (if i = k ∧ r.command.isMutation = true then [r.command] else []) ++
      if r.isForwarded = true ∧ peer i = .node k ∧ up i = true ∧ Utf8.size (trim text) ≤ 65526 then
        [r.command]
      else []
  | _ => []

def ledger (peer : Nat → Peer) (k : Nat) (up : Nat → Bool) : List Step → List Command
  | [] => []
  | st :: steps => st.commandsFor peer up k ++ ledger peer k (st.relink up) steps

end Scene

/-! ## One answer -/

namespace Traffic

/-- A relay that goes to no node changes no store. -/
theorem cluster_settle_elsewhere {c : Cluster} {i : Nat} (h : ∀ j, c.reachablePeer i ≠ .node j)
    (c' : Cluster) (line : String) (rounds : Nat) :
    (settle ⟨c', c.posted i line, []⟩ (rounds + 1)).cluster = c' := by
  rw [Cluster.posted]
  cases hpeer : c.reachablePeer i with
  | node j => exact absurd hpeer (h j)
  | sink =>
    dsimp only
    rw [settle, round_of_singleton rfl, land_of_sink rfl, settle_of_inFlight_eq_nil rfl]
  | absent | refused | invalid _ | stalled =>
    dsimp only
    rw [settle_of_inFlight_eq_nil rfl]

/-- What an answer to a line does to the stores, once its relay is over: it writes the node's own,
and also that of its neighbour if the relay takes effect. -/
theorem cluster_answer {line : String} {r : Request} (hnl : '\n' ∉ line.toList)
    (hparse : Request.parse line = .ok r) (rounds i : Nat) (c : Cluster) :
    let own := write i { cluster := c } r.command
    let after := ((answer i { cluster := c } line).1.settle (rounds + 1)).cluster
    (∃ j, r.isForwarded = true ∧ c.reachablePeer i = .node j ∧ Utf8.size (trim line) ≤ markedMax ∧
        after = (write j own r.command).cluster) ∨
      (¬ ∃ j, r.isForwarded = true ∧ c.reachablePeer i = .node j ∧
          Utf8.size (trim line) ≤ markedMax) ∧
        after = own.cluster := by
  intro own after
  have hanswer := answer_fst_of_parse i { cluster := c } hparse
  rw [List.nil_append] at hanswer
  by_cases hf : r.isForwarded = true
  · obtain ⟨origin, command⟩ := r
    obtain ⟨rfl, hmut⟩ : origin = .client ∧ command.isMutation = true := by
      simpa [Request.isForwarded] using hf
    rw [if_pos hf] at hanswer
    by_cases hnode : ∃ j, c.reachablePeer i = .node j
    · obtain ⟨j, hpeer⟩ := hnode
      rw [Cluster.posted_of_node hpeer] at hanswer
      have hsettle := settle_posted_mutation hnl hparse hmut (i := i) (j := j)
        (t := (answer i { cluster := c } line).1) (by rw [hanswer]) rounds
      by_cases hfits : Utf8.size (trim line) ≤ markedMax
      · rw [if_pos hfits, hanswer] at hsettle
        refine .inl ⟨j, hf, hpeer, hfits, ?_⟩
        simp only [after, hanswer, hsettle]
        rfl
      · rw [if_neg hfits, hanswer] at hsettle
        refine .inr ⟨?_, by simp only [after, hanswer, hsettle]; rfl⟩
        rintro ⟨_, -, -, h⟩
        exact hfits h
    · refine .inr ⟨?_, ?_⟩
      · rintro ⟨j, -, hpeer, -⟩
        exact hnode ⟨j, hpeer⟩
      · simp only [after, hanswer]
        exact cluster_settle_elsewhere (not_exists.mp hnode) own.cluster line rounds
  · rw [if_neg hf] at hanswer
    refine .inr ⟨?_, ?_⟩
    · rintro ⟨_, h, -⟩
      exact hf h
    · simp only [after, hanswer]
      rw [settle_of_inFlight_eq_nil rfl]

theorem storeAt_own (c : Cluster) (i : Nat) {k : Nat} (hk : k < c.size) (command : Command) :
    (write i { cluster := c } command).cluster.storeAt k =
      (if i = k ∧ command.isMutation = true then [command] else []).foldl Store.apply
        (c.storeAt k) := by
  rw [storeAt_write i _ hk]
  by_cases hi : i = k
  · cases command with
    | get key => simp [hi, Store.apply, Command.isMutation]
    | set key value => simp [hi, Command.isMutation]
    | delete key => simp [hi, Command.isMutation]
  · simp [hi]

/-- What the answer brings to each node. -/
theorem storeAt_answer {line : String} {r : Request} (hnl : '\n' ∉ line.toList)
    (hparse : Request.parse line = .ok r) (rounds i : Nat) (c : Cluster) {k : Nat} (hk : k < c.size) :
    ((answer i { cluster := c } line).1.settle (rounds + 1)).cluster.storeAt k =
      ((if i = k ∧ r.command.isMutation = true then [r.command] else []) ++
        if r.isForwarded = true ∧ c.reachablePeer i = .node k ∧ Utf8.size (trim line) ≤ markedMax then
          [r.command]
        else []).foldl Store.apply (c.storeAt k) := by
  have hown := storeAt_own c i hk r.command
  rw [List.foldl_append, ← hown]
  -- A node that is its own neighbour is written twice, so its own write comes first.
  rcases cluster_answer hnl hparse rounds i c with ⟨j, hf, hpeer, hfits, hcluster⟩ | ⟨hnone, hcluster⟩
  · have hsize : k < (write i { cluster := c } r.command).cluster.size := by
      rw [write, Cluster.size_setStore]
      exact hk
    rw [hcluster, storeAt_write j _ hsize]
    by_cases hj : j = k
    · rw [if_pos hj, if_pos ⟨hf, hj ▸ hpeer, hfits⟩]
      rfl
    · have hother : ¬ (r.isForwarded = true ∧ c.reachablePeer i = .node k ∧
          Utf8.size (trim line) ≤ markedMax) := by
        rintro ⟨-, hk', -⟩
        rw [hpeer] at hk'
        exact hj (Peer.node.inj hk')
      rw [if_neg hj, if_neg hother]
      rfl
  · rw [hcluster, if_neg fun h => hnone ⟨k, h⟩]
    rfl

end Traffic

/-! ## One step -/

structure Cluster.SameLinks (c c' : Cluster) : Prop where
  size : c'.size = c.size
  peer : ∀ i, c'.peerAt i = c.peerAt i
  link : ∀ i, c'.isUp i = c.isUp i

@[refl] theorem Cluster.SameLinks.refl (c : Cluster) : c.SameLinks c :=
  ⟨rfl, fun _ => rfl, fun _ => rfl⟩

theorem Cluster.SameLinks.trans {c c' c'' : Cluster} (h : c.SameLinks c') (h' : c'.SameLinks c'') :
    c.SameLinks c'' :=
  ⟨h'.size.trans h.size, fun k => (h'.peer k).trans (h.peer k), fun k => (h'.link k).trans (h.link k)⟩

theorem Cluster.SameLinks.write {c c' : Cluster} (h : c.SameLinks c') (i : Nat)
    (inFlight relays : List Relay) (command : Command) :
    c.SameLinks (Traffic.write i ⟨c', inFlight, relays⟩ command).cluster where
  size := by rw [Traffic.write, size_setStore, h.size]
  peer k := by rw [Traffic.write, peerAt_setStore, h.peer]
  link k := by rw [Traffic.write, isUp_setStore, h.link]

def Cluster.IsClean (c : Cluster) : Prop :=
  ∀ k, (c.storeAt k).IsClean

theorem Cluster.IsClean.write {c : Cluster} (h : c.IsClean) {command : Command}
    (hc : command.IsClean) (i : Nat) (inFlight relays : List Relay) :
    (Traffic.write i ⟨c, inFlight, relays⟩ command).cluster.IsClean := by
  intro k
  by_cases hk : k < c.size
  · rw [Traffic.storeAt_write i _ hk]
    split
    · exact (h k).apply hc
    · exact h k
  · have hsize : (Traffic.write i ⟨c, inFlight, relays⟩ command).cluster.size ≤ k := by
      rw [Traffic.write, size_setStore]
      exact Nat.le_of_not_lt hk
    rw [storeAt_of_size_le _ hsize]
    exact Store.isClean_empty

theorem Traffic.sameLinks_answer {line : String} {r : Request} (hnl : '\n' ∉ line.toList)
    (hparse : Request.parse line = .ok r) (rounds i : Nat) (c : Cluster) :
    c.SameLinks ((answer i { cluster := c } line).1.settle (rounds + 1)).cluster := by
  have hown : c.SameLinks (write i { cluster := c } r.command).cluster :=
    (Cluster.SameLinks.refl c).write i [] [] r.command
  rcases cluster_answer hnl hparse rounds i c with ⟨j, -, -, -, hcluster⟩ | ⟨-, hcluster⟩
  · rw [hcluster]
    exact hown.write j _ _ r.command
  · rw [hcluster]
    exact hown

theorem Traffic.isClean_answer {line : String} {r : Request} (hnl : '\n' ∉ line.toList)
    (hparse : Request.parse line = .ok r) (rounds i : Nat) {c : Cluster} (hclean : c.IsClean) :
    ((answer i { cluster := c } line).1.settle (rounds + 1)).cluster.IsClean := by
  have hcommand := Request.isClean_of_parse hparse
  have hown := hclean.write hcommand i [] []
  rcases cluster_answer hnl hparse rounds i c with ⟨j, -, -, -, hcluster⟩ | ⟨-, hcluster⟩
  · rw [hcluster]
    exact hown.write hcommand j _ _
  · rw [hcluster]
    exact hown

theorem Cluster.lt_size_of_peerAt {c : Cluster} {i j : Nat} (h : c.peerAt i = .node j) :
    i < c.size := by
  by_contra hi
  rw [peerAt, Array.getElem?_eq_none (Nat.le_of_not_lt hi)] at h
  cases h

namespace Scene

/-- A scene that has come from a cluster: the same nodes and neighbours, these links, each
node with what its books come to, and no client with an unread reply. -/
structure Agrees (c₀ : Cluster) (up : Nat → Bool) (books : Nat → List Command) (s : Scene) : Prop where
  size : s.cluster.size = c₀.size
  peer : ∀ i, s.cluster.peerAt i = c₀.peerAt i
  link : ∀ i < c₀.size, s.cluster.isUp i = up i
  store : ∀ k < c₀.size, s.cluster.storeAt k = (books k).foldl Store.apply .empty
  clean : s.cluster.IsClean
  inboxes : ∀ b ∈ s.inboxes, b.2 = {}

variable {c₀ : Cluster} {up : Nat → Bool} {books : Nat → List Command} {s : Scene}

theorem Agrees.reachablePeer_iff (h : s.Agrees c₀ up books) (i k : Nat) :
    s.cluster.reachablePeer i = .node k ↔ c₀.peerAt i = .node k ∧ up i = true := by
  rw [Cluster.reachablePeer_eq_node_iff, h.peer]
  refine and_congr_right fun hpeer => ?_
  rw [h.link i (Cluster.lt_size_of_peerAt hpeer)]

/-- A request whose reply is one line is over at once. -/
theorem step_request (hin : ∀ b ∈ s.inboxes, b.2 = {}) (node conn : Nat) {text : String}
    {t : Traffic} {reply : Reply} (hline : reply.IsLine)
    (hexchange : s.cluster.exchange node (sentLine text) = (t, sentLine reply.render)) :
    ∃ inboxes, (∀ b ∈ inboxes, b.2 = {}) ∧
      s.step (.request node conn text) = (.awaited reply.awaited, t.relays, ⟨t.cluster, inboxes⟩) := by
  have hinbox : (s.inboxes.lookup (node, conn)).getD {} = {} := by
    cases hfound : s.inboxes.lookup (node, conn) with
    | none => rfl
    | some inbox =>
      obtain ⟨l₁, l₂, hsplit, -⟩ := List.lookup_eq_some_iff.mp hfound
      exact hin ((node, conn), inbox) (by simp [hsplit])
  refine ⟨((node, conn), {}) :: s.inboxes.filter fun b => b.1 != (node, conn), ?_, ?_⟩
  · intro b hb
    rcases List.mem_cons.mp hb with rfl | hb
    · rfl
    · exact hin b (List.mem_filter.mp hb).1
  · simp only [step, request, hinbox, hexchange, Inbox.await_receive hline]

theorem Agrees.step_cluster (h : s.Agrees c₀ up books) {c : Cluster} (hlinks : s.cluster.SameLinks c)
    (hclean : c.IsClean) {brought : Nat → List Command}
    (hstore : ∀ k < c₀.size, c.storeAt k = (brought k).foldl Store.apply (s.cluster.storeAt k))
    {inboxes : List ((Nat × Nat) × Inbox)} (hin : ∀ b ∈ inboxes, b.2 = {}) :
    Agrees c₀ up (fun k => books k ++ brought k) ⟨c, inboxes⟩ where
  size := hlinks.size.trans h.size
  peer i := (hlinks.peer i).trans (h.peer i)
  link i hi := (hlinks.link i).trans (h.link i hi)
  store k hk := by rw [hstore k hk, h.store k hk, List.foldl_append]
  clean := hclean
  inboxes := hin

theorem Agrees.step_request (h : s.Agrees c₀ up books) (node conn : Nat) {text : String}
    (hnl : '\n' ∉ text.toList) (hblank : isBlank text = false) :
    ∃ a relays s', a ≠ .never ∧ s.step (.request node conn text) = (.awaited a, relays, s') ∧
      s'.Agrees c₀ up fun k =>
        books k ++ Step.commandsFor c₀.peerAt up k (.request node conn text) := by
  rcases Traffic.serveAt_sent node { cluster := s.cluster } hnl hblank with
    ⟨hnone, reply, hline, hserve⟩ | ⟨line, r, hnl', htrim, hparse, hsent, hserve⟩
  · have hexchange : s.cluster.exchange node (sentLine text) =
        ({ cluster := s.cluster }, sentLine reply.render) := by
      rw [Cluster.exchange, hserve]
      exact congrArg (·, _) (Traffic.settle_of_inFlight_eq_nil rfl hopLimit)
    obtain ⟨inboxes, hin, hstep⟩ := Scene.step_request h.inboxes node conn hline hexchange
    refine ⟨_, _, _, reply.awaited_ne_never, hstep, ?_⟩
    exact h.step_cluster (.refl _) h.clean
      (fun k _ => by simp [Step.commandsFor, hnone]) hin
  · have hline := (h.clean node).isLine_replyTo r.command
    have hexchange : s.cluster.exchange node (sentLine text) =
        ((Traffic.answer node { cluster := s.cluster } line).1.settle hopLimit,
          sentLine ((s.cluster.storeAt node).replyTo r.command).render) := by
      rw [Cluster.exchange, hserve]
    obtain ⟨inboxes, hin, hstep⟩ := Scene.step_request h.inboxes node conn hline hexchange
    have hlinks := Traffic.sameLinks_answer hnl' hparse 3 node s.cluster
    have hclean := Traffic.isClean_answer hnl' hparse 3 node h.clean
    refine ⟨_, _, _, Reply.awaited_ne_never _, hstep, h.step_cluster hlinks hclean (fun k hk => ?_) hin⟩
    rw [Traffic.storeAt_answer hnl' hparse 3 node s.cluster (h.size ▸ hk), markedMax_eq, htrim]
    simp only [Step.commandsFor, hsent, List.flatMap_cons, List.flatMap_nil, List.append_nil,
      h.reachablePeer_iff, and_assoc]

/-- Cutting and mending brings no command to any node. -/
theorem Agrees.step_link (h : s.Agrees c₀ up books) (node : Nat) (isLinked : Bool) :
    Agrees c₀ (fun k => if node = k then isLinked else up k) (fun k => books k ++ [])
      { s with cluster := s.cluster.setLink node isLinked } where
  size := (Cluster.size_setLink _ _ _).trans h.size
  peer i := (Cluster.peerAt_setLink _ _ _ _).trans (h.peer i)
  link i hi := by rw [Cluster.isUp_setLink _ (h.size ▸ hi), h.link i hi]
  store k hk := by rw [Cluster.storeAt_setLink, h.store k hk, List.append_nil]
  clean k := by
    rw [Cluster.storeAt_setLink]
    exact h.clean k
  inboxes := h.inboxes

theorem Agrees.step (h : s.Agrees c₀ up books) {st : Step} (hst : st.IsPlain) :
    ∃ o relays s', o ≠ .awaited .never ∧ s.step st = (o, relays, s') ∧
      s'.Agrees c₀ (st.relink up) fun k => books k ++ st.commandsFor c₀.peerAt up k := by
  cases st with
  | request node conn text =>
    obtain ⟨a, relays, s', hnever, hstep, hagrees⟩ := h.step_request node conn hst.1 hst.2
    exact ⟨.awaited a, relays, s', fun he => hnever (Outcome.awaited.inj he), hstep, hagrees⟩
  | handle node text => exact hst.elim
  | propagate node text => exact hst.elim
  | hasPeer node => exact hst.elim
  | cut node => exact ⟨.nothing, [], _, by simp, rfl, h.step_link node false⟩
  | mend node => exact ⟨.nothing, [], _, by simp, rfl, h.step_link node true⟩

/-! ## A whole run -/

theorem run_cons {st : Step} {o : Outcome} {relays : List Relay} {s' : Scene}
    (hstep : s.step st = (o, relays, s')) (ho : o ≠ .awaited .never) (steps : List Step) :
    s.run (st :: steps) =
      (s'.run steps).map (⟨o, relays.mergeSort fun a b => a.source ≤ b.source, s'.cluster⟩ :: ·) := by
  rw [run, hstep]
  split
  · next he =>
    cases he
    exact absurd rfl ho
  · next he =>
    cases he
    rfl

theorem Agrees.run (h : s.Agrees c₀ up books) {steps : List Step} (hsteps : ∀ st ∈ steps, st.IsPlain) :
    ∃ reports, s.run steps = some reports ∧ reports.length = steps.length ∧
      ∀ n report, reports[n]? = some report → report.cluster.size = c₀.size ∧
        ∀ k < c₀.size, report.cluster.storeAt k =
          (books k ++ ledger c₀.peerAt k up (steps.take (n + 1))).foldl Store.apply .empty := by
  -- The links and the books move with the scene; the nodes and their neighbours stay.
  induction steps generalizing s up books with
  | nil => exact ⟨[], rfl, rfl, by simp⟩
  | cons st steps ih =>
    obtain ⟨hst, hrest⟩ := List.forall_mem_cons.mp hsteps
    obtain ⟨o, relays, s', ho, hstep, hagrees⟩ := h.step hst
    obtain ⟨reports, hrun, hlength, hreports⟩ := ih hagrees hrest
    let first : Report := ⟨o, relays.mergeSort fun a b => a.source ≤ b.source, s'.cluster⟩
    refine ⟨first :: reports, ?_, by simp [hlength], ?_⟩
    · rw [run_cons hstep ho, hrun]
      rfl
    · intro n report hn
      cases n with
      | zero =>
        cases hn
        refine ⟨hagrees.size, fun k hk => ?_⟩
        rw [hagrees.store k hk]
        simp [ledger]
      | succ n =>
        obtain ⟨hsize, hstore⟩ := hreports n report (by simpa using hn)
        refine ⟨hsize, fun k hk => ?_⟩
        rw [hstore k hk, List.take_succ_cons, ledger, List.append_assoc]

/-- In every run of single lines, cuts and mends from empty stores, over any graph of
neighbours, with nothing in flight between two steps, each step reports that each node holds
what its ledger comes to so far: what it took itself, and what its neighbours' clients asked
for while the link was up and the trimmed line had at most 65526 bytes. -/
theorem run_eq_ledger (c : Cluster) (steps : List Step) (hempty : ∀ m ∈ c, m.store = .empty)
    (hsteps : ∀ st ∈ steps, st.IsPlain) :
    ∃ reports, run { cluster := c } steps = some reports ∧ reports.length = steps.length ∧
      ∀ n report, reports[n]? = some report → report.cluster.size = c.size ∧
        ∀ k < c.size, report.cluster.storeAt k =
          (ledger c.peerAt k c.isUp (steps.take (n + 1))).foldl Store.apply .empty := by
  have hstore := c.storeAt_of_empty hempty
  have hclean : c.IsClean := by
    intro k
    rw [hstore k]
    exact Store.isClean_empty
  have hstart : Agrees c c.isUp (fun _ => []) { cluster := c } :=
    ⟨rfl, fun _ => rfl, fun _ _ => rfl, fun k _ => hstore k, hclean, by simp⟩
  exact hstart.run hsteps

/-- Two nodes, each the other's neighbour: what was not relayed over the cut link stays missing. -/
theorem run_eq_ledger_cut :
    ∃ reports, run { cluster := #[{ peer := .node 1 }, { peer := .node 0 }] }
        [.request 0 0 "SET a 1", .cut 0, .request 0 0 "SET a 2", .mend 0, .request 1 0 "SET b 3"] =
          some reports ∧
      ∀ report, reports[4]? = some report →
        report.cluster.storeAt 1 = ((Store.empty.set "a" "1").set "b" "3") ∧
        report.cluster.storeAt 0 = (((Store.empty.set "a" "1").set "a" "2").set "b" "3") := by
  have hsteps : ∀ st ∈ [Step.request 0 0 "SET a 1", .cut 0, .request 0 0 "SET a 2", .mend 0,
      .request 1 0 "SET b 3"], st.IsPlain := by decide
  obtain ⟨reports, hrun, -, hreports⟩ := run_eq_ledger #[{ peer := .node 1 }, { peer := .node 0 }]
    [.request 0 0 "SET a 1", .cut 0, .request 0 0 "SET a 2", .mend 0, .request 1 0 "SET b 3"]
    (by simp) hsteps
  refine ⟨reports, hrun, fun report hn => ?_⟩
  obtain ⟨-, hstore⟩ := hreports 4 report hn
  refine ⟨(hstore 1 (by decide)).trans ?_, (hstore 0 (by decide)).trans ?_⟩
  · have hbooks : ledger (Cluster.peerAt #[{ peer := .node 1 }, { peer := .node 0 }]) 1
        (Cluster.isUp #[{ peer := .node 1 }, { peer := .node 0 }])
        [.request 0 0 "SET a 1", .cut 0, .request 0 0 "SET a 2", .mend 0, .request 1 0 "SET b 3"] =
          [.set "a" "1", .set "b" "3"] := by decide
    rw [List.take_of_length_le (by decide), hbooks]
    rfl
  · have hbooks : ledger (Cluster.peerAt #[{ peer := .node 1 }, { peer := .node 0 }]) 0
        (Cluster.isUp #[{ peer := .node 1 }, { peer := .node 0 }])
        [.request 0 0 "SET a 1", .cut 0, .request 0 0 "SET a 2", .mend 0, .request 1 0 "SET b 3"] =
          [.set "a" "1", .set "a" "2", .set "b" "3"] := by decide
    rw [List.take_of_length_le (by decide), hbooks]
    rfl

end Scene
end RelayStore
