import RelayStore.Proofs.Admission.Courses

/-! # Turns

Whatever clients do, and whether or not the loop can accept, a node with a cap serves the
connections that have been open longest, as many as it has permits. What is sent on a connection
is served in its order, once, when its turn has come, and until then it shows nowhere. After the
shutdown nobody's turn comes any more.
-/
namespace RelayStore

def Register.after (start : Hall) (steps : List Hall.Step) : Register :=
  Register.along { farewell := start.farewell } start steps

namespace Hall

def start (cap : Cap) (address : String) (farewell : Nat → Sink) : Hall :=
  { network := .up, address, cap := some cap, farewell }

/-- How a new node with a cap, and the register of its callers, stand after some steps. -/
structure InTurn (cap : Cap) (start : Hall) (steps : List Step) (h : Hall) (r : Register) : Prop where
  run_eq_some_iff : ∀ results, start.run steps = some results ↔ start.outcomes steps = results.map some
  permits : h.gate.Accounts (some cap) h.served.length
  /-- Before the shutdown those are served who were opened first, as many as may be. -/
  first_served : .shutdown ∉ steps →
    h.served.map (·.conn) = (openings steps).take cap ∧
      (h.waiting.filter (·.isOpen)).map (·.conn) = (openings steps).drop cap ∧
      h.served.length = min (cap : Nat) (openings steps).length
  older : ∀ v ∈ h.served, ∀ w ∈ h.waiting, v.number < w.number
  store_eq : h.store = r.log.store
  /-- Whoever is served has the replies to what it has sent, less those its client has taken. -/
  served_eq : h.served = (r.served.filter (·.isOpen)).map (Register.seat r.log)
  /-- Whoever waits has what it has sent, and no reply. -/
  waiting_eq : .shutdown ∉ steps → h.waiting = r.waiting.map Register.queued
  /-- What accepted callers have sent was served in its order and once, and nothing else was. Of
  those who have left it may be a part. -/
  in_order : ∀ c ∈ r.served, c.isOpen = true → r.log.on c.number = c.items
  in_part : ∀ c ∈ r.served, r.log.on c.number <+: c.items
  only_served : ∀ e ∈ r.log, e.1 < r.accepted
  grows : ∀ before later, steps = before ++ later → (Register.after start before).Grows r
  /-- A request comes to the next reply that the log has for its caller. -/
  request_eq : ∀ conn text, (h.request conn text).1 = (r.request h.isListening conn text).1
  /-- A text on a connection whose turn has not come by the end makes no difference. -/
  unheard : ∀ before later, steps = before ++ later →
    ∀ v ∈ (start.after before).waiting, v.isOpen = true → r.accepted ≤ v.number →
    ∀ text st outcome,
      (st, outcome) ∈ [(Step.attempt v.conn text, some Outcome.pending), (.request v.conn text, none)] →
      (start.after (before ++ st :: later)).store = h.store ∧
        start.outcomes (before ++ st :: later) =
          start.outcomes before ++ outcome :: (start.after before).outcomes later
  /-- After the shutdown nobody waits or comes in, those who are served stay, and those who
  waited are cut off and nothing of theirs is served. -/
  stopped : ∀ before later, steps = before ++ .shutdown :: later →
    h.waiting = [] ∧
      (∀ conn, h.step (.connect conn) = (some (.failed (.connect start.address .refused)), h)) ∧
      h.served.map (·.conn) = ((start.after before).served.map (·.conn)).filter (.close · ∉ later) ∧
      r.accepted = (Register.after start before).accepted ∧
      ∀ v ∈ (start.after before).waiting, v.isOpen = true → .close v.conn ∉ later →
        ∀ text, h.request v.conn text = (.disconnected, h)

variable {cap : Cap} {address : String} {farewell : Nat → Sink}

theorem follows_start (cap : Cap) (address : String) (farewell : Nat → Sink) :
    Register.Follows { farewell } (start cap address farewell) := by
  have horderly : (start cap address farewell).Orderly [] :=
    ⟨Gate.IsReached.start.acquire, List.forall_mem_nil _, List.pairwise_singleton _ _⟩
  have hsound : Register.Sound { farewell } :=
    ⟨rfl, Nat.le_refl _, List.forall_mem_nil _, List.forall_mem_nil _, List.forall_mem_nil _,
      List.forall_mem_nil _, List.forall_mem_nil _⟩
  refine ⟨rfl, ⟨horderly, ?_, fun _ => rfl, List.nodup_nil⟩,
    ⟨hsound, rfl, rfl, rfl, fun _ => ⟨rfl, rfl⟩, ?_, rfl⟩⟩
  · intro _ hne
    exact absurd rfl hne
  · intro hstopped
    cases hstopped

theorem follows_after (cap : Cap) (address : String) (farewell : Nat → Sink) (steps : List Step) :
    (Register.after (start cap address farewell) steps).Follows ((start cap address farewell).after steps) ∧
      (start cap address farewell).SameHouse ((start cap address farewell).after steps) :=
  (follows_start cap address farewell).along steps

theorem register_after_append (start : Hall) (before later : List Step) :
    Register.after start (before ++ later) =
      (Register.after start before).along (start.after before) later :=
  Register.along_append _ start before later

theorem first_served_of_not_mem {steps : List Step} (h : .shutdown ∉ steps) :
    let hall := (start cap address farewell).after steps
    hall.isListening = true ∧
      hall.served.map (·.conn) = (openings steps).take cap ∧
      (hall.waiting.filter (·.isOpen)).map (·.conn) = (openings steps).drop cap ∧
      hall.served.length = min (cap : Nat) (openings steps).length := by
  obtain ⟨hf, hsame⟩ := follows_after cap address farewell steps
  obtain ⟨hlistening, hconns⟩ := (follows_start cap address farewell).along_of_listening rfl h
  have hfirst := hf.atRest.first_served hsame.cap hlistening
  rw [hconns] at hfirst
  exact ⟨hlistening, hfirst⟩

theorem unheard_of_waiting {before later : List Step} {v : Visitor}
    (hv : v ∈ ((start cap address farewell).after before).waiting) (hopen : v.isOpen = true)
    (hwaits : (Register.after (start cap address farewell) (before ++ later)).accepted ≤ v.number)
    {text : String} {st : Step} {outcome : Option Outcome}
    (hst : (st, outcome) ∈
      [(Step.attempt v.conn text, some Outcome.pending), (.request v.conn text, none)]) :
    ((start cap address farewell).after (before ++ st :: later)).store =
        ((start cap address farewell).after (before ++ later)).store ∧
      (start cap address farewell).outcomes (before ++ st :: later) =
        (start cap address farewell).outcomes before ++
          outcome :: ((start cap address farewell).after before).outcomes later := by
  obtain ⟨hf, -⟩ := follows_after cap address farewell before
  obtain ⟨h', hrequest, halike⟩ := hf.atRest.request_of_waiting hv hopen text
  have hstep : ((start cap address farewell).after before).step st = (outcome, h') := by
    rcases List.mem_pair.mp hst with h | h
    · cases h
      rw [step, hrequest]
      rfl
    · cases h
      rw [step, hrequest]
      rfl
  -- The two runs part at the text and are alike from there on.
  rw [register_after_append] at hwaits
  obtain ⟨hsame, waiting, hend, -⟩ :=
    hf.unheard halike (hf.tells.opened ▸ hf.atRest.number_lt hv) hwaits
  constructor
  · rw [after_append, after_append, after_cons, hstep, hend]
  · rw [outcomes_append, outcomes, hstep, hsame]

theorem stopped_of_shutdown (before later : List Step) :
    let hall := (start cap address farewell).after (before ++ .shutdown :: later)
    hall.waiting = [] ∧
      (∀ conn, hall.step (.connect conn) = (some (.failed (.connect address .refused)), hall)) ∧
      hall.served.map (·.conn) =
        (((start cap address farewell).after before).served.map (·.conn)).filter (.close · ∉ later) ∧
      (Register.after (start cap address farewell) (before ++ .shutdown :: later)).accepted =
        (Register.after (start cap address farewell) before).accepted ∧
      ∀ v ∈ ((start cap address farewell).after before).waiting, v.isOpen = true →
        .close v.conn ∉ later → ∀ text, hall.request v.conn text = (.disconnected, hall) := by
  intro hall
  obtain ⟨hf, -⟩ := follows_after cap address farewell before
  obtain ⟨hend, hsame⟩ := follows_after cap address farewell (before ++ .shutdown :: later)
  obtain ⟨dropped, hshut, hwaiting⟩ := hf.atRest.dropped_of_waiting
  obtain ⟨hleads, haccepted⟩ := (hf.step .shutdown).1.along_of_stopped hshut.isListening later
  have hhall : hall = (((start cap address farewell).after before).step .shutdown).2.after later :=
    after_append _ _ _
  rw [hshut.conns, hshut.dropped, ← hhall, Register.foldl_leave, Register.foldl_leave] at hleads
  have hnone := hend.atRest.stopped hleads.isListening
  refine ⟨hnone, fun conn => ?_, ?_, ?_, fun v hv hopen hclose text => ?_⟩
  · rw [step_connect, connect_of_stopped hend.network hleads.isListening, hsame.address]
    rfl
  · have hconns := hleads.conns
    rwa [openConns, hnone, List.filter_nil, List.append_nil] at hconns
  · rw [register_after_append]
    exact haccepted
  · apply hend.atRest.request_of_dropped hleads.isListening
    change v.conn ∈ hall.dropped
    rw [hleads.dropped]
    exact List.mem_filter.mpr ⟨hwaiting v hv hopen, by simpa using hclose⟩

/-- Behind a cap of one the second client gets its reply when the first one has left. -/
example : (start ⟨1, Nat.one_pos⟩ "127.0.0.1:5000" fun _ => {}).run
    [.connect 0, .request 0 "SET k v", .connect 1, .attempt 1 "GET k", .close 0, .request 1 "GET k"] =
      some [.connected, .reply "OK", .connected, .pending, .nothing, .reply "v"] := by
  decide +kernel

/-- A node that has stopped refuses new connections. -/
example : (start ⟨1, Nat.one_pos⟩ "127.0.0.1:5000" fun _ => {}).run [.shutdown, .connect 0] =
    some [.stopped, .failed (.connect "127.0.0.1:5000" .refused)] := by
  decide +kernel

end Hall
end RelayStore
