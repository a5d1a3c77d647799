import RelayStore.Proofs.Admission.Permits

/-! # Steps of a node

Whatever clients do, and whether or not the loop can accept, no permit is lost and the loop goes
on as long as it can. Until the shutdown the connections are those that clients have opened and
not closed; after it no more are opened, and those that were dropped are not taken again.
-/
namespace RelayStore.Hall

/-- The open connections after a step, in the order in which they were opened. -/
def Step.reopen (conns : List Nat) : Step → List Nat
  | .connect conn => conns.filter (· != conn) ++ [conn]
  | .close conn => conns.filter (· != conn)
  | .request _ _ | .attempt _ _ | .acceptFailure | .shutdown | .bindAgain => conns

def Step.leave (conns : List Nat) : Step → List Nat
  | .close conn => conns.filter (· != conn)
  | .connect _ | .request _ _ | .attempt _ _ | .acceptFailure | .shutdown | .bindAgain => conns

structure SameHouse (h h' : Hall) : Prop where
  network : h'.network = h.network
  address : h'.address = h.address
  cap : h'.cap = h.cap
  farewell : h'.farewell = h.farewell

theorem SameHouse.refl (h : Hall) : h.SameHouse h := ⟨rfl, rfl, rfl, rfl⟩

theorem SameHouse.trans {h h' h'' : Hall} (hh : h.SameHouse h') (hh' : h'.SameHouse h'') :
    h.SameHouse h'' :=
  ⟨hh'.network.trans hh.network, hh'.address.trans hh.address, hh'.cap.trans hh.cap,
    hh'.farewell.trans hh.farewell⟩

/-- A hall at rest that a step leads to, with its open connections and those that were dropped. -/
structure Leads (h : Hall) (isListening : Bool) (conns dropped : List Nat) (h' : Hall) : Prop where
  same : h.SameHouse h'
  atRest : h'.AtRest
  isListening : h'.isListening = isListening
  conns : openConns h'.served h'.waiting = conns
  dropped : h'.dropped = dropped

variable {h h' : Hall}

theorem Leads.refl (hr : h.AtRest) :
    h.Leads h.isListening (openConns h.served h.waiting) h.dropped h :=
  ⟨.refl h, hr, rfl, rfl, rfl⟩

theorem leads_resume (hsame : h'.SameHouse h) (ho : h.Orderly h.waiting)
    (hstopped : h.isListening = false → h.waiting = [])
    (hdistinct : (openConns h.served h.waiting ++ h.dropped).Nodup) :
    h'.Leads h.isListening (openConns h.served h.waiting) h.dropped h.resume := by
  obtain ⟨hr, hconns⟩ := resume_spec ho hstopped hdistinct
  obtain ⟨store, gate, served, waiting, hall⟩ := h.exists_resume
  refine ⟨hsame.trans ?_, hr, ?_, hconns, ?_⟩
  · rw [hall]
    exact ⟨rfl, rfl, rfl, rfl⟩
  · rw [hall]
  · rw [hall]

/-! ## Closing and opening -/

theorem openConns_shut (served waiting : List Visitor) (conn : Nat) :
    openConns (served.filter (·.conn != conn)) (waiting.map (Visitor.shut conn)) =
      (openConns served waiting).filter (· != conn) := by
  have hserved : (served.filter (·.conn != conn)).map (·.conn) =
      (served.map (·.conn)).filter (· != conn) := by
    rw [List.filter_map]
    rfl
  have hwaiting : ((waiting.map (Visitor.shut conn)).filter (·.isOpen)).map (·.conn) =
      ((waiting.filter (·.isOpen)).map (·.conn)).filter (· != conn) := by
    induction waiting with
    | nil => rfl
    | cons v waiting ih =>
      by_cases hconn : v.conn = conn <;> cases hopen : v.isOpen <;>
        simp [Visitor.shut, hconn, hopen] at ih ⊢ <;> exact ih
  rw [openConns, openConns, List.map_append, List.map_append, List.filter_append, hserved, hwaiting]

theorem AtRest.leave (hr : h.AtRest) (conn : Nat) :
    (h.leave conn).Orderly (h.leave conn).waiting ∧
      ((h.leave conn).isListening = false → (h.leave conn).waiting = []) ∧
      openConns (h.leave conn).served (h.leave conn).waiting =
        (openConns h.served h.waiting).filter (· != conn) ∧
      (openConns (h.leave conn).served (h.leave conn).waiting ++ (h.leave conn).dropped).Nodup := by
  have hconns := openConns_shut h.served h.waiting conn
  refine ⟨⟨?_, ?_, ?_⟩, ?_, hconns, ?_⟩
  · apply Gate.IsReached.release
    have hlength := h.served.length_eq_countP_add_countP (·.conn != conn)
    have hgone : h.served.countP (fun v => ¬ (v.conn != conn) = true) = h.served.countP (·.conn == conn) := by
      apply List.countP_congr
      intro v _
      simp
    rw [hgone, List.countP_eq_length_filter] at hlength
    exact hlength ▸ hr.permits
  · exact fun v hv => hr.isOpen v (List.mem_of_mem_filter hv)
  · have hnumbers : (h.waiting.map (Visitor.shut conn)).map (·.number) = h.waiting.map (·.number) := by
      rw [List.map_map]
      apply List.map_congr_left
      intro v _
      rw [Function.comp_apply, Visitor.shut]
      split <;> rfl
    have hfewer : (h.served.filter (·.conn != conn)).Sublist h.served := List.filter_sublist
    have hsub := ((hfewer.append_right h.waiting).map (·.number)).append_right [h.opened]
    rw [List.map_append] at hsub
    rw [List.map_append]
    exact hnumbers.symm ▸ hr.numbers.sublist hsub
  · intro hstopped
    rw [Hall.leave, hr.stopped hstopped, List.map_nil]
  · rw [Hall.leave, hconns, ← List.filter_append]
    exact hr.distinct.filter _

theorem AtRest.close (hr : h.AtRest) (conn : Nat) :
    h.Leads h.isListening ((openConns h.served h.waiting).filter (· != conn))
      (h.dropped.filter (· != conn)) (h.close conn) := by
  obtain ⟨ho, hstopped, hconns, hdistinct⟩ := hr.leave conn
  exact hconns ▸ leads_resume (h := h.leave conn) ⟨rfl, rfl, rfl, rfl⟩ ho hstopped hdistinct

theorem Orderly.push (ho : h.Orderly h.waiting) (conn : Nat) : (h.push conn).Orderly (h.push conn).waiting := by
  have hnumbers := ho.numbers
  refine ⟨ho.permits, ho.isOpen, ?_⟩
  simp only [Hall.push, List.map_append, List.map_cons, List.map_nil, ← List.append_assoc] at hnumbers ⊢
  refine List.pairwise_append.mpr ⟨hnumbers, List.pairwise_singleton _ _, ?_⟩
  intro n hn m hm
  rw [List.mem_singleton.mp hm]
  rcases List.mem_append.mp hn with hn | hn
  · exact Nat.lt_succ_of_lt ((List.pairwise_append.mp hnumbers).2.2 n hn _ (by simp))
  · exact List.mem_singleton.mp hn ▸ Nat.lt_succ_self _

theorem connect_of_listening (hup : h.network = .up) (hlistening : h.isListening = true) (conn : Nat) :
    h.connect conn = (none, ((h.leave conn).push conn).resume) := by
  simp [connect, Network.obstacle?, hup, hlistening]

theorem connect_of_stopped (hup : h.network = .up) (hstopped : h.isListening = false) (conn : Nat) :
    h.connect conn = (some (.connect h.address .refused), h) := by
  simp [connect, Network.obstacle?, hup, hstopped]

theorem AtRest.connect (hr : h.AtRest) (hup : h.network = .up) (hlistening : h.isListening = true)
    (conn : Nat) :
    h.Leads true ((openConns h.served h.waiting).filter (· != conn) ++ [conn])
      (h.dropped.filter (· != conn)) (h.connect conn).2 := by
  obtain ⟨ho, -, hconns, hdistinct⟩ := hr.leave conn
  have hpushed : openConns ((h.leave conn).push conn).served ((h.leave conn).push conn).waiting =
      (openConns h.served h.waiting).filter (· != conn) ++ [conn] := by
    rw [← hconns]
    simp [push, openConns]
  rw [connect_of_listening hup hlistening, ← hpushed, ← hlistening]
  refine leads_resume (h := (h.leave conn).push conn) ⟨rfl, rfl, rfl, rfl⟩ (ho.push conn) ?_ ?_
  · intro hstopped
    exact absurd hlistening (Bool.eq_false_iff.mp hstopped)
  · rw [hconns] at hdistinct
    rw [hpushed, List.append_assoc]
    refine List.perm_middle.nodup_iff.mpr (List.nodup_cons.mpr ⟨?_, hdistinct⟩)
    simp [push, Hall.leave]

/-! ## Failing to accept and stopping -/

/-- A loop that fails to accept lets go of its permit and takes it again. -/
theorem AtRest.acceptFailure (hr : h.AtRest) :
    h.Leads h.isListening (openConns h.served h.waiting) h.dropped h.acceptFailure :=
  leads_resume (h := { h with gate := h.gate.drop }) ⟨rfl, rfl, rfl, rfl⟩
    ⟨hr.permits.drop, hr.isOpen, hr.numbers⟩ hr.stopped hr.distinct

theorem shutdown_of_listening (hlistening : h.isListening = true) : h.shutdown.2 =
    { h with
      isListening := false
      gate := h.gate.drop
      dropped := h.dropped ++ (h.waiting.filter (·.isOpen)).map (·.conn)
      waiting := [] } := by
  rw [shutdown, if_pos hlistening]

theorem shutdown_of_stopped (hstopped : h.isListening = false) : h.shutdown = (false, h) := by
  rw [shutdown, hstopped, if_neg Bool.false_ne_true]

theorem AtRest.shutdown (hr : h.AtRest) (hlistening : h.isListening = true) :
    h.Leads false (h.served.map (·.conn))
      (h.dropped ++ (h.waiting.filter (·.isOpen)).map (·.conn)) h.shutdown.2 := by
  rw [shutdown_of_listening hlistening]
  have hserved : openConns h.served [] = h.served.map (·.conn) := by simp [openConns]
  refine ⟨⟨rfl, rfl, rfl, rfl⟩, ⟨⟨hr.permits.drop, hr.isOpen, ?_⟩, ?_, fun _ => rfl, ?_⟩, rfl, hserved, rfl⟩
  · have hfewer : (h.served ++ []).Sublist (h.served ++ h.waiting) :=
      (List.nil_sublist h.waiting).append_left _
    exact hr.numbers.sublist ((hfewer.map _).append_right _)
  · intro hstill
    cases hstill
  · have hdistinct := hr.distinct
    rw [openConns, List.map_append, List.append_assoc] at hdistinct
    change (openConns h.served [] ++ _).Nodup
    rw [hserved]
    exact (List.perm_append_comm.append_left _).nodup_iff.mp hdistinct

/-- Whoever is still open then and waits is dropped. -/
theorem AtRest.dropped_of_waiting (hr : h.AtRest) : ∃ dropped,
    h.Leads false (h.served.map (·.conn)) dropped (h.step .shutdown).2 ∧
      ∀ v ∈ h.waiting, v.isOpen = true → v.conn ∈ dropped := by
  change ∃ dropped, h.Leads _ _ dropped h.shutdown.2 ∧ _
  cases hlistening : h.isListening with
  | true =>
    refine ⟨_, hr.shutdown hlistening, fun v hv hopen => List.mem_append_right _ ?_⟩
    exact List.mem_map_of_mem (List.mem_filter.mpr ⟨hv, hopen⟩)
  | false =>
    have hnone := hr.stopped hlistening
    have hserved : openConns h.served h.waiting = h.served.map (·.conn) := by simp [openConns, hnone]
    rw [shutdown_of_stopped hlistening]
    refine ⟨_, hserved ▸ hlistening ▸ Leads.refl hr, ?_⟩
    rw [hnone]
    intro v hv
    cases hv

/-! ## Sending -/

/-- Those who are served and those who wait stay where they are. -/
theorem AtRest.map (hr : h.AtRest) (store : Store) {f g : Visitor → Visitor}
    (hf : ∀ v, (f v).number = v.number ∧ (f v).conn = v.conn ∧ (f v).isOpen = v.isOpen)
    (hg : ∀ v, (g v).number = v.number ∧ (g v).conn = v.conn ∧ (g v).isOpen = v.isOpen) :
    h.Leads h.isListening (openConns h.served h.waiting) h.dropped
      { h with store, served := h.served.map f, waiting := h.waiting.map g } := by
  have hconns : openConns (h.served.map f) (h.waiting.map g) = openConns h.served h.waiting := by
    simp [openConns, List.filter_map, Function.comp_def, hf, hg]
  refine ⟨⟨rfl, rfl, rfl, rfl⟩, ⟨⟨?_, ?_, ?_⟩, ?_, ?_, ?_⟩, rfl, hconns, rfl⟩
  · simpa using hr.permits
  · intro v hv
    obtain ⟨u, hu, rfl⟩ := List.mem_map.mp hv
    exact (hf u).2.2.trans (hr.isOpen u hu)
  · simpa [Function.comp_def, hf, hg] using hr.numbers
  · intro hlistening hne
    exact hr.refused hlistening fun hnone => hne (by simp [hnone])
  · intro hstopped
    simp [hr.stopped hstopped]
  · exact hconns.symm ▸ hr.distinct

theorem hold_keeps (conn : Nat) (inbox : Inbox) (v : Visitor) :
    (v.hold conn inbox).number = v.number ∧ (v.hold conn inbox).conn = v.conn ∧
      (v.hold conn inbox).isOpen = v.isOpen := by
  rw [Visitor.hold]
  split <;> exact ⟨rfl, rfl, rfl⟩

theorem keep_keeps (conn : Nat) (text : String) (v : Visitor) :
    (v.keep conn text).number = v.number ∧ (v.keep conn text).conn = v.conn ∧
      (v.keep conn text).isOpen = v.isOpen := by
  rw [Visitor.keep]
  split <;> exact ⟨rfl, rfl, rfl⟩

theorem AtRest.request (hr : h.AtRest) (conn : Nat) (text : String) :
    h.Leads h.isListening (openConns h.served h.waiting) h.dropped (h.request conn text).2 := by
  rw [Hall.request]
  cases h.served.find? (·.conn = conn) with
  | some v =>
    have hmap := hr.map (ask h.store v.inbox text).2.1 (hold_keeps conn (ask h.store v.inbox text).2.2)
      (g := id) fun _ => ⟨rfl, rfl, rfl⟩
    rwa [List.map_id] at hmap
  | none =>
    dsimp only
    split
    · have hmap := hr.map h.store (f := id) (fun _ => ⟨rfl, rfl, rfl⟩) (keep_keeps conn text)
      rwa [List.map_id] at hmap
    · split <;> exact .refl hr

/-- A connection that was dropped is cut off. -/
theorem AtRest.request_of_dropped (hr : h.AtRest) (hstopped : h.isListening = false) {conn : Nat}
    (hconn : conn ∈ h.dropped) (text : String) : h.request conn text = (.disconnected, h) := by
  have hnone : h.served.find? (·.conn = conn) = none := by
    apply List.find?_eq_none.mpr
    intro v hv heq
    have hopen : conn ∈ openConns h.served h.waiting :=
      List.mem_map.mpr ⟨v, List.mem_append_left _ hv, by simpa using heq⟩
    exact (List.nodup_append.mp hr.distinct).2.2 conn hopen conn hconn rfl
  have hcut : h.dropped.contains conn = true := List.contains_iff_mem.mpr hconn
  rw [Hall.request, hnone, hr.stopped hstopped, hcut]
  rfl

/-! ## Any step -/

theorem step_connect (h : Hall) (conn : Nat) : h.step (.connect conn) =
    (some ((h.connect conn).1.elim .connected .failed), (h.connect conn).2) := by
  rw [step]
  rcases h.connect conn with ⟨_ | f, h'⟩ <;> rfl

theorem step_bindAgain (h : Hall) : h.step .bindAgain =
    (some (if h.isListening then .failed (.bind h.address .inUse) else .bound), h) := by
  rw [step, bindAgain]
  cases h.isListening <;> rfl

/-- Before the shutdown. -/
theorem AtRest.step (hr : h.AtRest) (hup : h.network = .up) (hlistening : h.isListening = true)
    {st : Step} (hst : st ≠ .shutdown) :
    ∃ dropped, h.Leads true (st.reopen (openConns h.served h.waiting)) dropped (h.step st).2 := by
  cases st with
  | connect conn =>
    rw [step_connect]
    exact ⟨_, hr.connect hup hlistening conn⟩
  | request conn text => exact ⟨_, hlistening ▸ hr.request conn text⟩
  | attempt conn text => exact ⟨_, hlistening ▸ hr.request conn text⟩
  | close conn => exact ⟨_, hlistening ▸ hr.close conn⟩
  | acceptFailure => exact ⟨_, hlistening ▸ hr.acceptFailure⟩
  | shutdown => exact absurd rfl hst
  | bindAgain =>
    rw [step_bindAgain]
    exact ⟨_, hlistening ▸ Leads.refl hr⟩

/-- After the shutdown. -/
theorem AtRest.step_of_stopped (hr : h.AtRest) (hup : h.network = .up) (hstopped : h.isListening = false)
    (st : Step) :
    h.Leads false (st.leave (openConns h.served h.waiting)) (st.leave h.dropped) (h.step st).2 := by
  have hstays := hstopped ▸ Leads.refl hr
  cases st with
  | connect conn =>
    rw [step_connect, connect_of_stopped hup hstopped]
    exact hstays
  | request conn text => exact hstopped ▸ hr.request conn text
  | attempt conn text => exact hstopped ▸ hr.request conn text
  | close conn => exact hstopped ▸ hr.close conn
  | acceptFailure => exact hstopped ▸ hr.acceptFailure
  | shutdown =>
    change h.Leads _ _ _ h.shutdown.2
    rw [shutdown_of_stopped hstopped]
    exact hstays
  | bindAgain =>
    rw [step_bindAgain]
    exact hstays

end RelayStore.Hall
