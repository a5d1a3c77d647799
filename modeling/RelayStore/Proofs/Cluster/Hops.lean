import RelayStore.Cluster.Run
import RelayStore.Proofs.Cluster.Delivery
import RelayStore.Proofs.Cluster.Exchange
import RelayStore.Proofs.Cluster.Relay

/-! # How far relays go

The marked form of a line without newline is never relayed by the node that serves it. A
text with newlines comes apart at the neighbour: its first line has the marker, and each
other line may be a client's mutation, which the neighbour relays in its marked form. So no
chain of relays is longer than two, in whatever order relays are served.
-/
namespace RelayStore
open Text

/-- A relay after which nothing is relayed, whichever node serves it and whatever becomes of its
replies. -/
def Relay.IsLast (r : Relay) : Prop :=
  ∀ (j : Nat) (t : Traffic) (src : Source) (sink : Sink), src.bytes = r.wire →
    src.ending ≠ .failing .interrupted → (serve (Traffic.answer j) t src sink).state.inFlight = t.inFlight

/-- Relays that a text sets off at a node: at most one for the text itself, and then only
such as the node that took it sends on, each of them the last of its chain. -/
def Relay.EndAfterTwo (i : Nat) (text : String) : List Relay → Prop
  | [] => True
  | first :: rest =>
    first.source = i ∧ first.wire = sentLine (markedLine text) ∧
      ∀ r ∈ rest, first.target = some r.source ∧ r.IsLast

namespace Traffic

/-! ## One line -/

theorem inFlight_answer_marked (i : Nat) (t : Traffic) {line : String} {rest : List String}
    (h : tokens line = marker :: rest) : (answer i t line).1.inFlight = t.inFlight := by
  cases hparse : Request.parse line with
  | error e => rw [answer_of_rejected i t hparse]
  | ok r =>
    rw [answer_of_not_forwarded i t hparse (Request.isForwarded_eq_false_of_marked h hparse),
      inFlight_write]

theorem isLast_of_marked {r : Relay} {line : String} (hnl : '\n' ∉ line.toList)
    (h : r.wire = sentLine (markedLine line)) : r.IsLast := by
  intro j t src sink hbytes hend
  have hitems := items_of_markedLine hnl (hbytes.trans h) hend
  by_cases hfits : Utf8.size (trim line) ≤ markedMax
  · rw [if_pos hfits] at hitems
    rw [serve_state_of_singleton _ _ hitems, respond]
    exact inFlight_answer_marked j t (Request.tokens_markedLine line)
  · rw [if_neg hfits] at hitems
    rw [serve_state_of_singleton _ _ hitems, respond]

theorem inFlight_land_of_isLast {r : Relay} (h : r.IsLast) (t : Traffic) {src : Source}
    (hbytes : src.bytes = r.wire) (hend : src.ending = .closed) (sink : Sink) :
    (t.land r src sink).inFlight = t.inFlight := by
  cases htarget : r.target with
  | none => rw [land_of_sink htarget]
  | some j =>
    rw [land_of_node htarget]
    exact h j t src sink hbytes (by simp [hend])

/-! ## Lines behind each other -/

/-- A node that answers a line sends one relay at most, and that is the last of its chain. -/
theorem inFlight_answer_line {line : String} (hnl : '\n' ∉ line.toList) (j : Nat) (t : Traffic) :
    ∃ added, (answer j t line).1.inFlight = t.inFlight ++ added ∧ added.length ≤ 1 ∧
      ∀ r ∈ added, r.source = j ∧ r.IsLast := by
  cases hparse : Request.parse line with
  | error e => exact ⟨[], by simp [answer_of_rejected j t hparse], by simp, by simp⟩
  | ok r =>
    refine ⟨_, congrArg inFlight (answer_fst_of_parse j t hparse), ?_, ?_⟩
    · split
      · rw [Cluster.length_posted]
        split <;> omega
      · exact Nat.zero_le 1
    · intro relay hr
      split at hr
      · obtain ⟨hsource, hwire, -⟩ := Cluster.eq_of_mem_posted hr
        exact ⟨hsource, isLast_of_marked hnl hwire⟩
      · cases hr

theorem inFlight_transcript (j : Nat) (t : Traffic) (items : List Item)
    (h : ∀ line, .line line ∈ items → '\n' ∉ line.toList) :
    ∃ added, (transcript (answer j) t items).1.inFlight = t.inFlight ++ added ∧
      added.length ≤ items.length ∧ ∀ r ∈ added, r.source = j ∧ r.IsLast := by
  -- Each line brings at most one relay, by the node itself, and that one is the last of its chain.
  induction items generalizing t with
  | nil => exact ⟨[], by simp [transcript], by simp, by simp⟩
  | cons item items ih =>
    have hrest := fun line hl => h line (List.mem_cons_of_mem _ hl)
    cases item with
    | tooLong =>
      obtain ⟨added, hflight, hlen, hlast⟩ := ih t hrest
      exact ⟨added, hflight, Nat.le_succ_of_le hlen, hlast⟩
    | line line =>
      obtain ⟨first, hflight₁, hlen₁, hlast₁⟩ := inFlight_answer_line (h line List.mem_cons_self) j t
      obtain ⟨added, hflight, hlen, hlast⟩ := ih (answer j t line).1 hrest
      refine ⟨first ++ added, ?_, ?_, ?_⟩
      · rw [← List.append_assoc, ← hflight₁]
        exact hflight
      · rw [List.length_append, List.length_cons]
        omega
      · intro r hr
        exact (List.mem_append.mp hr).elim (hlast₁ r) (hlast r)

/-! ## Any text -/

/-- The marked form of a text is cut as the trimmed text is, the marker before the first piece. -/
theorem pieces_markedLine (text : String) :
    ∃ p ps, pieces (trim text) = p :: ps ∧ pieces (markedLine text) = (marker ++ " " ++ p) :: ps := by
  obtain ⟨p, ps, hps⟩ := List.exists_cons_of_ne_nil (List.splitOn_ne_nil '\n' (stripWhite text.toList))
  have hlist : (markedLine text).toList = (marker ++ " ").toList ++ stripWhite text.toList := by
    simp [markedLine, trim]
  refine ⟨.ofList p, ps.map .ofList, ?_, ?_⟩
  · rw [pieces, trim, String.toList_ofList, hps, List.map_cons]
  · rw [pieces, hlist, splitOn_append_of_not_mem (by decide), hps, List.modifyHead_cons,
      List.map_cons, String.ofList_append, String.ofList_toList]

/-- What a neighbour reads of a relayed text: first something that it does not relay, then at
most as many items as there are newlines. -/
theorem items_of_relayed {src : Source} {text : String} (hbytes : src.bytes = sentLine (markedLine text))
    (hend : src.ending = .closed) :
    ∃ first rest, src.items.1 = first :: rest ∧
      rest.length < (pieces (trim text)).length ∧
      (first = .tooLong ∨ ∃ line ts, first = .line line ∧ tokens line = marker :: ts) := by
  obtain ⟨p, ps, htrim, hmarked⟩ := pieces_markedLine text
  have htokens := Request.tokens_marker_spaced p
  have hblank := isBlank_of_tokens htokens
  have hrest : (ps.filterMap Item.ofText?).length < (pieces (trim text)).length := by
    rw [htrim, List.length_cons]
    exact Nat.lt_succ_of_le (List.length_filterMap_le _ _)
  have hitems := src.items_of_sentLine hbytes (by simp [hend])
  rw [hmarked, List.filterMap_cons] at hitems
  rcases Item.ofText?_cases hblank with hitem | hitem
  · rw [hitem] at hitems
    exact ⟨.tooLong, _, hitems, hrest, .inl rfl⟩
  · rw [hitem] at hitems
    refine ⟨_, _, hitems, hrest, .inr ⟨_, tokens p, rfl, ?_⟩⟩
    rw [tokens_dropReturns, htokens]

/-- A node that serves a relayed text sends fewer relays than the text has lines. -/
theorem inFlight_serve_relayed {src : Source} {text : String}
    (hbytes : src.bytes = sentLine (markedLine text)) (hend : src.ending = .closed) (sink : Sink) (j : Nat)
    (t : Traffic) :
    ∃ added, (serve (answer j) t src sink).state.inFlight = t.inFlight ++ added ∧
      added.length < (pieces (trim text)).length ∧ ∀ r ∈ added, r.source = j ∧ r.IsLast := by
  obtain ⟨first, rest, hitems, hrest, hfirst⟩ := items_of_relayed hbytes hend
  obtain ⟨n, hstate⟩ := exists_take_of_serve (answer j) t src sink
  rw [hitems] at hstate
  rw [hstate]
  cases n with
  | zero => exact ⟨[], by simp [transcript], by simpa using Nat.zero_lt_of_lt hrest, by simp⟩
  | succ n =>
    -- The marker is in front of the first piece only, so only the others may be relayed.
    have hkept : (respond (answer j) t first).1.inFlight = t.inFlight := by
      rcases hfirst with rfl | ⟨line, ts, rfl, hmarked⟩
      · rfl
      · exact inFlight_answer_marked j t hmarked
    obtain ⟨added, hflight, hlen, hlast⟩ :=
      inFlight_transcript j (respond (answer j) t first).1 (rest.take n) fun line hl =>
        (Source.line_spec (hitems ▸ List.mem_cons_of_mem _ (List.mem_of_mem_take hl))).1
    rw [hkept] at hflight
    have hshort : (rest.take n).length ≤ rest.length := List.length_take_le' n rest
    exact ⟨added, hflight, by omega, hlast⟩

/-! ## Any order -/

/-- Where the relays of one text stand: the one for the text itself is in flight alone or is over,
and all behind it are the last of their chains. -/
structure Ends (i : Nat) (text : String) (t : Traffic) : Prop where
  bounded : (t.relays ++ t.inFlight).length ≤ (pieces (trim text)).length
  endAfterTwo : Relay.EndAfterTwo i text (t.relays ++ t.inFlight)
  single : t.relays = [] → t.inFlight.length ≤ 1

variable {i : Nat} {text : String} {t t' : Traffic}

theorem Ends.isLast (h : Ends i text t) (hover : t.relays ≠ []) : ∀ r ∈ t.inFlight, r.IsLast := by
  obtain ⟨first, rest, hrelays⟩ := List.exists_cons_of_ne_nil hover
  have hends := h.endAfterTwo
  rw [hrelays] at hends
  exact fun r hr => (hends.2.2 r (List.mem_append_right _ hr)).2

/-- The relay for the text itself comes to its end, and the node sends what it sets off. -/
theorem Ends.land_first {c : Cluster} {r : Relay} (h : Ends i text ⟨c, [r], []⟩) {src : Source}
    (hbytes : src.bytes = r.wire) (hend : src.ending = .closed) (sink : Sink) :
    Ends i text (land ⟨c, [], []⟩ r src sink) := by
  obtain ⟨hsource, hwire, -⟩ := h.endAfterTwo
  obtain ⟨reply, hrelays⟩ := exists_relays_land ⟨c, [], []⟩ r src sink
  obtain ⟨hfew, hlast⟩ : (land ⟨c, [], []⟩ r src sink).inFlight.length < (pieces (trim text)).length ∧
      ∀ q ∈ (land ⟨c, [], []⟩ r src sink).inFlight, r.target = some q.source ∧ q.IsLast := by
    obtain htarget | ⟨j, htarget⟩ := Option.eq_none_or_eq_some r.target
    · rw [land_of_sink htarget]
      exact ⟨h.bounded, by simp⟩
    · obtain ⟨added, hadded, hfew, hlast⟩ :=
        inFlight_serve_relayed (hbytes.trans hwire) hend sink j ⟨c, [], []⟩
      rw [land_of_node htarget, hadded]
      exact ⟨hfew, fun q hq => ⟨by rw [htarget, (hlast q hq).1], (hlast q hq).2⟩⟩
  constructor
  · rw [hrelays, List.nil_append, List.length_append, List.length_singleton]
    omega
  · rw [hrelays]
    exact ⟨hsource, hwire, hlast⟩
  · simp [hrelays]

/-- Any other relay comes to its end, and nothing is sent. -/
theorem Ends.land_last {c : Cluster} {before rest ended : List Relay} {first r : Relay}
    (h : Ends i text ⟨c, before ++ r :: rest, first :: ended⟩) {src : Source} (hbytes : src.bytes = r.wire)
    (hend : src.ending = .closed) (sink : Sink) :
    Ends i text (land ⟨c, before ++ rest, first :: ended⟩ r src sink) := by
  obtain ⟨bounded, ⟨hsource, hwire, hlast⟩, -⟩ := h
  have hr := hlast r (by simp)
  obtain ⟨reply, hrelays⟩ := exists_relays_land ⟨c, before ++ rest, first :: ended⟩ r src sink
  have hkept := inFlight_land_of_isLast hr.2 ⟨c, before ++ rest, first :: ended⟩ hbytes hend sink
  constructor
  · rw [hrelays, hkept]
    simpa [Nat.add_assoc, Nat.add_comm, Nat.add_left_comm] using bounded
  · rw [hrelays, hkept]
    refine ⟨hsource, hwire, fun q hq => ?_⟩
    rcases List.mem_append.mp hq with hq | hq
    · rcases List.mem_append.mp hq with hq | hq
      · exact hlast q (List.mem_append_left _ hq)
      · rw [List.mem_singleton.mp hq]
        exact hr
    · exact hlast q (List.mem_append_right _ ((List.sublist_cons_self r rest).append_left before |>.subset hq))
  · simp [hrelays]

theorem Ends.delivery (h : Ends i text t) (hstep : Delivery t t') : Ends i text t' := by
  obtain @⟨before, rest, r, src, sink, hflight, hbytes, hend⟩ := hstep
  obtain ⟨c, flight, ended⟩ := t
  obtain rfl : flight = before ++ r :: rest := hflight
  cases ended with
  | nil =>
    have hlen := h.single rfl
    rw [List.length_append, List.length_cons] at hlen
    obtain rfl := List.length_eq_zero_iff.mp (by omega : before.length = 0)
    obtain rfl := List.length_eq_zero_iff.mp (by omega : rest.length = 0)
    exact h.land_first hbytes hend sink
  | cons first ended => exact h.land_last hbytes hend sink

theorem Ends.deliveries (h : Ends i text t) (hrun : Relation.ReflTransGen Delivery t t') :
    Ends i text t' := by
  induction hrun with
  | refl => exact h
  | tail _ hstep ih => exact ih.delivery hstep

/-! ## Rounds -/

theorem inFlight_round_of_isLast (h : ∀ r ∈ t.inFlight, r.IsLast) : t.round.inFlight = [] := by
  have hfold : ∀ (rs : List Relay) (t : Traffic), (∀ r ∈ rs, r.IsLast) →
      (rs.foldl (fun t r => t.land r ⟨[r.wire], .closed⟩ {}) t).inFlight = t.inFlight := by
    intro rs
    induction rs with
    | nil => exact fun t _ => rfl
    | cons r rs ih =>
      intro t hrs
      rw [List.foldl_cons, ih _ fun q hq => hrs q (List.mem_cons_of_mem r hq)]
      exact inFlight_land_of_isLast (hrs r List.mem_cons_self) t (List.append_nil _) rfl {}
  exact hfold t.inFlight { t with inFlight := [] } h

/-- After two rounds nothing is in flight. -/
theorem Ends.inFlight_round_round (h : Ends i text t) : t.round.round.inFlight = [] := by
  by_cases hover : t.relays = []
  · match hflight : t.inFlight, h.single hover with
    | [], _ =>
      have hround : t.round = t := settle_of_inFlight_eq_nil hflight 1
      rw [hround, hround, hflight]
    | [r], _ =>
      apply inFlight_round_of_isLast
      apply (h.deliveries (delivery_round t)).isLast
      rw [round_of_singleton hflight]
      obtain ⟨reply, hrelays⟩ := exists_relays_land { t with inFlight := [] } r ⟨[r.wire], .closed⟩ {}
      simp [hrelays]
  · have hround := inFlight_round_of_isLast (h.isLast hover)
    have hagain : t.round.round = t.round := settle_of_inFlight_eq_nil hround 1
    rw [hagain, hround]

structure EndsAfterTwo (i : Nat) (text : String) (start settled : Traffic) : Prop where
  ends : ∀ t, Relation.ReflTransGen Delivery start t → Ends i text t
  delivered : Relation.ReflTransGen Delivery start settled
  inFlight_eq_nil : settled.inFlight = []
  settle_eq : ∀ rounds, start.settle (rounds + 2) = settled

theorem Ends.endsAfterTwo (h : Ends i text t) (rounds : Nat) :
    EndsAfterTwo i text t (t.settle (rounds + 2)) := by
  have hsettle (n : Nat) : t.settle (n + 2) = t.round.round :=
    settle_of_inFlight_eq_nil h.inFlight_round_round n
  refine ⟨fun t' => h.deliveries, delivery_settle t _, ?_, fun n => ?_⟩
  · rw [hsettle, h.inFlight_round_round]
  · rw [hsettle, hsettle]

/-! ## What one text sets off -/

theorem length_posted_le (c : Cluster) (i : Nat) (text : String) : (c.posted i text).length ≤ 1 := by
  rw [Cluster.length_posted]
  split <;> omega

theorem ends_of_posted (c c' : Cluster) (i : Nat) (text : String) (isSent : Prop) [Decidable isSent] :
    Ends i text ⟨c', if isSent then c.posted i text else [], []⟩ := by
  have hflight : (if isSent then c.posted i text else []).length ≤ 1 := by
    split
    · exact length_posted_le c i text
    · exact Nat.zero_le 1
  have hpieces : 0 < (pieces (trim text)).length := by
    obtain ⟨p, ps, hps, -⟩ := pieces_markedLine text
    rw [hps]
    exact Nat.succ_pos _
  refine ⟨hflight.trans hpieces, ?_, fun _ => hflight⟩
  rw [List.nil_append]
  match hposted : (if isSent then c.posted i text else []), hflight with
  | [], _ => trivial
  | [r], _ =>
    have hr : r ∈ c.posted i text := by
      split at hposted
      · exact hposted ▸ List.mem_singleton_self r
      · cases hposted
    obtain ⟨hsource, hwire, -⟩ := Cluster.eq_of_mem_posted hr
    exact ⟨hsource, hwire, by simp⟩

theorem ends_post (c : Cluster) (i : Nat) (text : String) : Ends i text (post i { cluster := c } text).1 := by
  rw [post_fst]
  simpa using ends_of_posted c c i text True

theorem ends_answer (c : Cluster) (i : Nat) (text : String) :
    Ends i text (answer i { cluster := c } text).1 := by
  cases hparse : Request.parse text with
  | error e =>
    rw [answer_of_rejected i _ hparse]
    simpa using ends_of_posted c c i text False
  | ok r =>
    rw [answer_fst_of_parse i _ hparse]
    exact ends_of_posted c _ i text (r.isForwarded = true)

/-- Relays that set off none come to their ends in one round. -/
theorem relays_settle_of_isLast {c : Cluster} {flight : List Relay} (hflight : flight.length ≤ 1)
    (hlast : ∀ r ∈ flight, r.IsLast) (rounds : Nat) :
    let relays := (settle ⟨c, flight, []⟩ (rounds + 1)).relays
    relays.length = flight.length ∧
      ∀ q ∈ relays, ∃ r ∈ flight, q.source = r.source ∧ q.wire = r.wire := by
  intro relays
  have hrelays : relays = (round ⟨c, flight, []⟩).relays :=
    congrArg Traffic.relays (settle_of_inFlight_eq_nil (inFlight_round_of_isLast hlast) rounds)
  rw [hrelays]
  match flight, hflight with
  | [], _ => exact ⟨rfl, by simp [round]⟩
  | [r], _ =>
    rw [round_of_singleton rfl]
    obtain ⟨reply, hland⟩ := exists_relays_land ⟨c, [], []⟩ r ⟨[r.wire], .closed⟩ {}
    rw [hland]
    exact ⟨rfl, fun q hq => ⟨r, by simp, by simp_all⟩⟩

end Traffic

/-! ## The law of relays -/

theorem Scene.relays_of_request (s : Scene) (node conn : Nat) {text : String}
    (hnl : '\n' ∉ text.toList) (hblank : isBlank text = false) :
    let relays := (s.step (.request node conn text)).2.1
    relays.length ≤ 1 ∧
      (relays.length = 1 ↔ (∃ r ∈ Request.ofSent text, r.isForwarded = true) ∧
        (s.cluster.reachablePeer node).isReached = true) ∧
      ∀ relay ∈ relays, relay.source = node ∧ relay.wire = sentLine (markedLine text) ∧
        relay.IsLast := by
  have hstep : (s.step (.request node conn text)).2.1 =
      ((Traffic.serveAt node { cluster := s.cluster } ⟨[sentLine text], .idle⟩).1.settle hopLimit).relays := by
    simp only [step, request, Cluster.exchange]
  dsimp only
  rw [hstep]
  rcases Traffic.serveAt_sent node { cluster := s.cluster } hnl hblank with
    ⟨hnone, reply, -, hserve⟩ | ⟨line, r, hline, htrim, hparse, hsent, hserve⟩
  · rw [hserve, hnone, Traffic.settle_of_inFlight_eq_nil rfl]
    simp
  · rw [hserve, hsent, Traffic.answer_fst_of_parse node _ hparse]
    dsimp only
    rw [List.nil_append, Traffic.relays_write]
    by_cases hf : r.isForwarded = true
    · have hmarked : markedLine line = markedLine text := by rw [markedLine, markedLine, htrim]
      have hlast : ∀ q ∈ s.cluster.posted node line, q.IsLast := fun q hq =>
        Traffic.isLast_of_marked hline (Cluster.eq_of_mem_posted hq).2.1
      obtain ⟨hlen, hrelays⟩ := Traffic.relays_settle_of_isLast (c := (Traffic.write node
        { cluster := s.cluster } r.command).cluster) (Traffic.length_posted_le s.cluster node line) hlast 3
      rw [if_pos hf]
      dsimp only [hopLimit] at hlen hrelays ⊢
      rw [hlen, s.cluster.length_posted]
      refine ⟨by split <;> omega, by simp [hf], fun relay hr => ?_⟩
      obtain ⟨q, hq, hsource, hwire⟩ := hrelays relay hr
      obtain ⟨hqsource, hqwire, -⟩ := Cluster.eq_of_mem_posted hq
      have hrwire := hwire.trans hqwire
      exact ⟨hsource.trans hqsource, hmarked ▸ hrwire, Traffic.isLast_of_marked hline hrwire⟩
    · rw [if_neg hf, Traffic.settle_of_inFlight_eq_nil rfl]
      simp [hf]

/-- A request of one line sets off at most one relay, exactly one if the node takes it as a
client's mutation and its neighbour is reached, and nothing is relayed where that relay is
served. A text handed to a node, whatever it holds, sets off no more relays than its trimmed
form has lines, and each chain of them ends after two, in whatever order they are served and
however much of the replies is written. -/
theorem relays_end_after_two :
    (∀ (s : Scene) (node conn : Nat) (text : String), '\n' ∉ text.toList → isBlank text = false →
      let relays := (s.step (.request node conn text)).2.1
      relays.length ≤ 1 ∧
        (relays.length = 1 ↔ (∃ r ∈ Request.ofSent text, r.isForwarded = true) ∧
          (s.cluster.reachablePeer node).isReached = true) ∧
        ∀ relay ∈ relays, relay.source = node ∧ relay.wire = sentLine (markedLine text) ∧
          relay.IsLast) ∧
    ∀ (c : Cluster) (i : Nat) (text : String),
      Traffic.EndsAfterTwo i text (Traffic.post i { cluster := c } text).1 (c.propagate i text).1 ∧
        Traffic.EndsAfterTwo i text (Traffic.answer i { cluster := c } text).1 (c.handle i text).1 := by
  refine ⟨fun s node conn text hnl hblank => s.relays_of_request node conn hnl hblank, ?_⟩
  intro c i text
  exact ⟨(Traffic.ends_post c i text).endsAfterTwo 2, (Traffic.ends_answer c i text).endsAfterTwo 2⟩

/-- A node that is its own neighbour relays one mutation to itself, and once only. -/
theorem relays_end_after_two_self :
    '\n' ∉ "SET k v".toList ∧ isBlank "SET k v" = false ∧
      (Scene.step ⟨#[{ peer := .node 0 }], []⟩ (.request 0 0 "SET k v")).2.1.length = 1 := by
  have hnl : '\n' ∉ "SET k v".toList := by decide
  have hblank : isBlank "SET k v" = false := by decide
  refine ⟨hnl, hblank, ?_⟩
  rw [(relays_end_after_two.1 ⟨#[{ peer := .node 0 }], []⟩ 0 0 "SET k v" hnl hblank).2.1]
  exact ⟨⟨⟨.client, .set "k" "v"⟩, by decide, rfl⟩, rfl⟩

end RelayStore
