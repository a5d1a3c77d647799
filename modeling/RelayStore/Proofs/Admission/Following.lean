import RelayStore.Proofs.Admission.Mirror
import RelayStore.Proofs.Admission.Steps

/-! # Following the hall

The register follows the hall step by step. Clients open and close connections, send texts and
take replies, whatever the node does; only how many connections have been accepted is read off
the hall. What a request comes to is then in the register: the next reply of the log.
-/
namespace RelayStore.Register

def push (r : Register) (conn : Nat) : Register :=
  { r with callers := r.callers ++ [{ number := r.callers.length, conn }] }

/-- A text is sent. If the turn of its caller has come it is served at once. -/
def say (r : Register) (conn : Nat) (text : String) : Register :=
  match r.callers.find? (Caller.isOn conn) with
  | some c =>
    if c.number < r.accepted then
      { r.update conn (Caller.say text) with log := r.log ++ .ofConn c.number (sentItems text) }
    else r.update conn (Caller.say text)
  | none => r

def await (r : Register) (isListening : Bool) (conn : Nat) : Hall.Result × Register :=
  match r.callers.find? (Caller.isOn conn) with
  | some c =>
    if c.number < r.accepted then
      match (r.log.repliesTo c.number)[c.taken]? with
      | some reply => (.awaited reply.awaited, r.update conn Caller.take)
      | none => (.awaited .never, r)
    else (if isListening then .awaited .never else .disconnected, r)
  | none => (.nothing, r)

def request (r : Register) (isListening : Bool) (conn : Nat) (text : String) : Hall.Result × Register :=
  (r.say conn text).await isListening conn

def settle (r : Register) (h : Hall) : Register :=
  if h.isListening then r.advance (h.opened - h.waiting.length) else r

def follow (r : Register) (st : Hall.Step) (h : Hall) : Register :=
  match st with
  | .connect conn => if h.isListening then ((r.update conn Caller.shut).push conn).settle h else r
  | .request conn text | .attempt conn text => (r.request h.isListening conn text).2
  | .close conn => (r.update conn Caller.shut).settle h
  | .acceptFailure => r.settle h
  | .shutdown | .bindAgain => r

variable {r : Register} {h : Hall} {c : Caller} {conn : Nat}

/-! ## Closing -/

theorem served_update (r : Register) (conn : Nat) (f : Caller → Caller) :
    (r.update conn f).served = r.served.map (Caller.change conn f) :=
  (List.map_take ..).symm

theorem waiting_update (r : Register) (conn : Nat) (f : Caller → Caller) :
    (r.update conn f).waiting = r.waiting.map (Caller.change conn f) :=
  (List.map_drop ..).symm

theorem Sound.numbered_update (hs : r.Sound) {f : Caller → Caller} (hf : ∀ c, (f c).number = c.number)
    (conn : Nat) :
    (r.update conn f).callers.map (·.number) = List.range (r.update conn f).callers.length := by
  rw [update, Caller.numbers_map (Caller.change_keeps (·.number) hf conn), List.length_map, hs.numbered]

/-- Callers change, but of those that are served neither what was sent nor what is read of it. -/
theorem Sound.update (hs : r.Sound) {f : Caller → Caller} (hnumber : ∀ c, (f c).number = c.number)
    (htaken : ∀ c, (f c).taken = c.taken)
    (hserved : ∀ c ∈ r.served, (c.change conn f).items = c.items ∧
      ((c.change conn f).isOpen = true → c.isOpen = true)) : (r.update conn f).Sound := by
  have hnumber' := Caller.change_keeps (·.number) hnumber conn
  have htaken' := Caller.change_keeps (·.taken) htaken conn
  have hmem {d : Caller} (hd : d ∈ (r.update conn f).served) : ∃ c ∈ r.served, c.change conn f = d :=
    List.mem_map.mp (served_update r conn f ▸ hd)
  refine ⟨hs.numbered_update hnumber conn, (List.length_map _).symm ▸ hs.accepted_le, hs.only, ?_, ?_, ?_, ?_⟩
  · intro d hd
    obtain ⟨c, hc, rfl⟩ := hmem hd
    rw [hnumber', (hserved c hc).1]
    exact hs.on_prefix c hc
  · intro d hd hopen
    obtain ⟨c, hc, rfl⟩ := hmem hd
    rw [hnumber', (hserved c hc).1]
    exact hs.on_eq c hc ((hserved c hc).2 hopen)
  · intro d hd
    obtain ⟨c, hc, rfl⟩ := hmem hd
    rw [hnumber', htaken']
    exact hs.within c hc
  · intro d hd
    rw [waiting_update] at hd
    obtain ⟨c, hc, rfl⟩ := List.mem_map.mp hd
    rw [htaken']
    exact hs.untaken c hc

theorem Sound.shut (hs : r.Sound) (conn : Nat) : (r.update conn Caller.shut).Sound := by
  refine hs.update (f := Caller.shut) (fun _ => rfl) (fun _ => rfl) fun c _ => ⟨?_, fun hopen => ?_⟩
  · exact Caller.change_keeps (fun c => c.items) (f := Caller.shut) (fun _ => rfl) conn c
  · unfold Caller.change at hopen
    split at hopen
    · cases hopen
    · exact hopen

theorem queued_shut (conn : Nat) (c : Caller) :
    (queued c).shut conn = queued (c.change conn Caller.shut) := by
  rw [Visitor.shut]
  by_cases hconn : c.conn = conn
  · rw [if_pos (show (queued c).conn = conn from hconn)]
    cases hopen : c.isOpen with
    | true =>
      rw [Caller.change_of_isOn _ (Caller.isOn_iff.mpr ⟨hopen, hconn⟩)]
      rfl
    | false =>
      rw [Caller.change_of_not_isOn _ (by simp [Caller.isOn, hopen])]
      simp [queued, hopen]
  · rw [if_neg (show (queued c).conn ≠ conn from hconn),
      Caller.change_of_not_isOn _ (by simp [Caller.isOn, hconn])]

theorem Tells.leave (ht : r.Tells h) (conn : Nat) : (r.update conn Caller.shut).Tells (h.leave conn) := by
  refine ⟨ht.sound.shut conn, ht.farewell, ht.store, ?_, fun hlistening => ?_, fun hstopped => ?_, ?_⟩
  · change h.served.filter _ = ((r.update conn Caller.shut).served.filter _).map (seat r.log)
    rw [ht.served, served_update, Caller.filter_map_shut, List.filter_map]
    rfl
  · obtain ⟨hwaiting, hdropped⟩ := ht.listening hlistening
    change h.waiting.map _ = _ ∧ h.dropped.filter _ = []
    rw [hwaiting, hdropped, waiting_update, List.map_map, List.map_map]
    exact ⟨List.map_congr_left fun c _ => queued_shut conn c, rfl⟩
  · obtain ⟨hwaiting, hdropped⟩ := ht.stopped hstopped
    change h.waiting.map _ = [] ∧ h.dropped.filter _ = _
    rw [hwaiting, hdropped, waiting_update, Caller.conns_map_shut]
    exact ⟨rfl, rfl⟩
  · exact ht.opened.trans (List.length_map _).symm

/-- The turns that the hall gives are those that come in the register. -/
theorem Tells.settle (ht : r.Tells h) : (r.settle h.resume).Tells h.resume := by
  obtain ⟨store, gate, served, waiting, hframe⟩ := h.exists_resume
  have hstill : h.resume.isListening = h.isListening := by rw [hframe]
  have hopened : h.resume.opened = h.opened := by rw [hframe]
  rw [Register.settle, hstill, hopened]
  by_cases hlistening : h.isListening = true
  · rw [if_pos hlistening]
    exact ht.resume hlistening
  · rw [if_neg hlistening, Hall.resume, if_neg hlistening]
    exact ht

/-! ## Opening -/

theorem served_push (hs : r.Sound) (conn : Nat) : (r.push conn).served = r.served :=
  List.take_append_of_le_length hs.accepted_le

theorem waiting_push (hs : r.Sound) (conn : Nat) :
    (r.push conn).waiting = r.waiting ++ [{ number := r.callers.length, conn }] :=
  List.drop_append_of_le_length hs.accepted_le

theorem Sound.push (hs : r.Sound) (conn : Nat) : (r.push conn).Sound := by
  refine ⟨?_, ?_, hs.only, ?_, ?_, ?_, ?_⟩
  · simp [Register.push, hs.numbered, List.range_succ]
  · rw [Register.push, List.length_append]
    exact Nat.le_add_right_of_le hs.accepted_le
  · exact fun c hc => hs.on_prefix c (served_push hs conn ▸ hc)
  · exact fun c hc => hs.on_eq c (served_push hs conn ▸ hc)
  · exact fun c hc => hs.within c (served_push hs conn ▸ hc)
  · intro c hc
    rw [waiting_push hs] at hc
    rcases List.mem_append.mp hc with hc | hc
    · exact hs.untaken c hc
    · rw [List.mem_singleton.mp hc]

theorem Tells.push (ht : r.Tells h) (hlistening : h.isListening = true) (conn : Nat) :
    (r.push conn).Tells (h.push conn) := by
  obtain ⟨hwaiting, hdropped⟩ := ht.listening hlistening
  refine ⟨ht.sound.push conn, ht.farewell, ht.store, ?_, fun _ => ⟨?_, hdropped⟩, fun hstopped => ?_, ?_⟩
  · rw [served_push ht.sound]
    exact ht.served
  · rw [waiting_push ht.sound, List.map_append, Hall.push, hwaiting, ht.opened]
    rfl
  · exact absurd hlistening (Bool.eq_false_iff.mp hstopped)
  · rw [Register.push, List.length_append]
    exact congrArg (· + 1) ht.opened

end RelayStore.Register
