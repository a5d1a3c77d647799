import Mathlib.Logic.Function.Iterate
import RelayStore.Proofs.Admission.Register

/-! # The hall behind the register

The register determines who is in the hall, what lies unserved there and which replies have not
been taken. When the loop goes round, the callers that it accepts have their turns in the register.
-/
namespace RelayStore.Register

/-- A caller that is served, with the replies that it has not taken. -/
def seat (log : Arrivals) (c : Caller) : Visitor :=
  { number := c.number
    conn := c.conn
    inbox := { ready := ((log.repliesTo c.number).map Reply.heard).drop c.taken } }

def queued (c : Caller) : Visitor :=
  { number := c.number, conn := c.conn, unserved := sentLines c.sent, isOpen := c.isOpen }

structure Tells (r : Register) (h : Hall) : Prop where
  sound : r.Sound
  farewell : h.farewell = r.farewell
  store : h.store = r.log.store
  served : h.served = (r.served.filter (·.isOpen)).map (seat r.log)
  listening : h.isListening = true → h.waiting = r.waiting.map queued ∧ h.dropped = []
  stopped : h.isListening = false → h.waiting = [] ∧ h.dropped = Caller.conns r.waiting
  opened : h.opened = r.callers.length

variable {r : Register} {h : Hall} {c : Caller} {log : Arrivals}

theorem seat_append_of_ne {number : Nat} (hne : number ≠ c.number) (items : List Item) :
    seat (log ++ .ofConn number items) c = seat log c := by
  rw [seat, Arrivals.repliesTo_append_ofConn_of_ne _ _ hne, seat]

theorem map_seat_append {number : Nat} {cs : List Caller} (hne : ∀ c ∈ cs, number ≠ c.number)
    (items : List Item) : cs.map (seat (log ++ .ofConn number items)) = cs.map (seat log) :=
  List.map_congr_left fun c hc => seat_append_of_ne (hne c hc) items

/-- The inbox of a caller that has just been accepted and has taken nothing. -/
theorem inbox_seat (hempty : log.on c.number = []) (htaken : c.taken = 0) (items : List Item) :
    ({} : Inbox).receive (Reply.bytes (log.store.replies items)) =
      (seat (log ++ .ofConn c.number items) c).inbox := by
  have hnone : log.repliesTo c.number = [] := by
    rw [← List.length_eq_zero_iff, Arrivals.length_repliesTo, hempty, List.length_nil]
  have hready : ({} : Inbox).receive (Reply.bytes (log.store.replies items)) = _ :=
    Inbox.receive_replies (log.isClean_store.isLine_replies items) []
  rw [hready, seat, Arrivals.repliesTo_append_ofConn, hnone, htaken, List.nil_append, List.nil_append,
    List.drop_zero]

theorem exists_next {v : Visitor} {left : List Visitor} (h : v :: left = r.waiting.map queued) :
    ∃ c, r.callers[r.accepted]? = some c ∧ v = queued c ∧ left = r.enter.waiting.map queued := by
  cases hwaiting : r.waiting with
  | nil =>
    rw [hwaiting] at h
    cases h
  | cons c rest =>
    have hc : r.callers[r.accepted]? = some c := by
      rw [← List.head?_drop, ← waiting, hwaiting, List.head?_cons]
    obtain ⟨-, hrest⟩ := List.cons.inj (hwaiting.symm.trans (waiting_eq_cons hc))
    rw [hwaiting, List.map_cons] at h
    obtain ⟨hv, hleft⟩ := List.cons.inj h
    exact ⟨c, hc, hv, hrest ▸ hleft⟩

/-- A session begins at the node as the turn of the caller does in the register. -/
theorem accept_queued (hs : r.Sound) (hc : r.callers[r.accepted]? = some c)
    (hfarewell : h.farewell = r.farewell) (hstore : h.store = r.log.store)
    (hserved : h.served = (r.served.filter (·.isOpen)).map (seat r.log)) :
    ∃ gate, h.accept (queued c) =
      { h with
        store := r.enter.log.store
        gate
        served := (r.enter.served.filter (·.isOpen)).map (seat r.enter.log) } := by
  have hnumber := hs.number_eq hc
  have hitems : (Source.items ⟨[sentLines c.sent], .closed⟩).1 = c.items :=
    Source.items_of_sentLines _ (List.append_nil _) (by simp)
  have hseated : (r.served.filter (·.isOpen)).map (seat (r.log ++ .ofConn c.number (r.opening c))) =
      h.served := by
    rw [hserved]
    apply map_seat_append
    intro d hd
    have := hs.number_lt (List.mem_of_mem_filter hd)
    omega
  rw [served_enter hc, enter_of_some hc]
  dsimp only
  rw [List.filter_append, List.map_append, hseated, Arrivals.store_append, Arrivals.items_ofConn]
  cases hopen : c.isOpen with
  | true =>
    have hinbox := inbox_seat (hs.on_eq_nil hnumber.ge)
      (hs.untaken c (waiting_eq_cons hc ▸ List.mem_cons_self)) c.items
    have hexchange : h.store.exchange (queued c).unserved =
        (r.log.store.after c.items, Reply.bytes (r.log.store.replies c.items)) := by
      rw [hstore]
      exact r.log.store.exchange_sentLines c.sent
    rw [Hall.accept_of_isOpen (show (queued c).isOpen = true from hopen), hexchange,
      List.filter_cons_of_pos hopen, opening, if_pos hopen]
    refine ⟨h.gate.accept, ?_⟩
    simp [queued, hopen, hinbox, seat]
  | false =>
    have hleft : (queued c).isOpen = false := hopen
    rw [Hall.accept_of_left hleft, Store.serve_state, hfarewell, hstore,
      List.filter_cons_of_neg (by simp [hopen]), opening, if_neg (by simp [hopen])]
    refine ⟨h.gate.accept.release 1, ?_⟩
    simp [queued, hitems]

/-- When the loop accepts a connection, the turn of the next caller comes. -/
theorem Tells.accept {v : Visitor} {left : List Visitor} (hlistening : h.isListening = true)
    (ht : r.Tells { h with waiting := v :: left }) :
    r.enter.Tells { h.acquire.accept v with waiting := left } ∧ r.enter.accepted = r.accepted + 1 := by
  obtain ⟨hwaiting, hdropped⟩ := ht.listening hlistening
  obtain ⟨c, hc, rfl, hleft⟩ := exists_next hwaiting
  obtain ⟨gate, haccept⟩ := accept_queued (h := h.acquire) ht.sound hc ht.farewell ht.store ht.served
  have henter := enter_of_some hc
  rw [haccept]
  refine ⟨⟨ht.sound.enter, ?_, rfl, rfl, fun _ => ⟨hleft, hdropped⟩, ?_, ?_⟩, ?_⟩
  · rw [henter]
    exact ht.farewell
  · intro hstopped
    exact absurd hlistening (Bool.eq_false_iff.mp hstopped)
  · rw [henter]
    exact ht.opened
  · rw [henter]

def advance (r : Register) (accepted : Nat) : Register :=
  enter^[accepted - r.accepted] r

theorem Tells.resume (ht : r.Tells h) (hlistening : h.isListening = true) :
    (r.advance (h.opened - h.resume.waiting.length)).Tells h.resume := by
  obtain ⟨h', left, ⟨turns, ht', haccepted, store, gate, served, rfl⟩, hall, -⟩ :=
    Hall.acceptAll_spec (P := fun h' left => ∃ turns, (enter^[turns] r).Tells { h' with waiting := left } ∧
        (enter^[turns] r).accepted = r.accepted + turns ∧
        ∃ store gate served, h' = { h with store, gate, served })
      (fun h' v left _ ⟨turns, ht', haccepted, hframe⟩ => by
        obtain ⟨store, gate, served, rfl⟩ := hframe
        obtain ⟨hnext, hmore⟩ := Tells.accept (h := { h with store, gate, served }) hlistening ht'
        rw [← Function.iterate_succ_apply' enter] at hnext hmore
        exact ⟨turns + 1, hnext, hmore.trans (by rw [haccepted, Nat.add_assoc]), Hall.exists_accept _ v⟩)
      ⟨0, ht, rfl, _, _, _, rfl⟩
  have hleft : left = (enter^[turns] r).waiting.map queued := (ht'.listening hlistening).1
  have hturns : h.opened - left.length - r.accepted = turns := by
    have hopened : h.opened = (enter^[turns] r).callers.length := ht'.opened
    have hle := ht'.sound.accepted_le
    rw [hleft, List.length_map, waiting, List.length_drop]
    omega
  rw [Hall.resume, if_pos hlistening, hall, advance, hturns]
  exact ⟨ht'.sound, ht'.farewell, ht'.store, ht'.served, ht'.listening, ht'.stopped, ht'.opened⟩

end RelayStore.Register
