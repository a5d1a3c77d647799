import RelayStore.Proofs.Admission.Following

/-! # Texts and replies

A text on a served connection is served at once and its client takes the next reply, if there
is one. A text on a connection that waits is kept with it. So whatever a step of the hall is, the
register that follows it tells the hall that it leads to, and what a request comes to.
-/
namespace RelayStore.Register

variable {r : Register} {h : Hall} {c : Caller} {conn : Nat}

/-! ## Finding a caller -/

theorem Tells.conns_eq (ht : r.Tells h) :
    Hall.openConns h.served h.waiting ++ h.dropped = Caller.conns r.callers := by
  have hserved : h.served.map (·.conn) = Caller.conns r.served := by
    rw [ht.served, List.map_map]
    rfl
  have hqueued : ((r.waiting.map queued).filter (·.isOpen)).map (·.conn) = Caller.conns r.waiting := by
    rw [List.filter_map, List.map_map]
    rfl
  rw [Hall.openConns, List.map_append, hserved, ← served_append_waiting r, Caller.conns_append]
  cases hlistening : h.isListening with
  | true =>
    obtain ⟨hwaiting, hdropped⟩ := ht.listening hlistening
    rw [hwaiting, hqueued, hdropped, List.append_nil]
  | false =>
    obtain ⟨hwaiting, hdropped⟩ := ht.stopped hlistening
    rw [hwaiting, hdropped, List.filter_nil, List.map_nil, List.append_nil]

theorem find?_seated (cs : List Caller) (log : Arrivals) (conn : Nat) :
    ((cs.filter (·.isOpen)).map (seat log)).find? (·.conn = conn) =
      (cs.find? (Caller.isOn conn)).map (seat log) := by
  rw [List.find?_map, List.find?_filter]
  congr 2
  funext c
  rw [Bool.eq_iff_iff, decide_eq_true_iff, Caller.isOn_iff, Function.comp_apply, decide_eq_true_iff]
  rfl

theorem any_queued (cs : List Caller) (conn : Nat) :
    ((cs.map queued).any fun v => v.isOpen && v.conn == conn) =
      (cs.find? (Caller.isOn conn)).isSome := by
  rw [List.any_map, Bool.eq_iff_iff, List.any_eq_true, List.find?_isSome]
  rfl

theorem find?_update {f : Caller → Caller} (hf : ∀ c, (f c).isOn conn = c.isOn conn) :
    (r.update conn f).callers.find? (Caller.isOn conn) =
      (r.callers.find? (Caller.isOn conn)).map f := by
  have hon : Caller.isOn conn ∘ Caller.change conn f = Caller.isOn conn :=
    funext (Caller.change_keeps (Caller.isOn conn) hf conn)
  rw [update, List.find?_map, hon]
  cases hfind : r.callers.find? (Caller.isOn conn) with
  | none => rfl
  | some c => exact congrArg some (Caller.change_of_isOn f (List.find?_some hfind))

/-- A caller is the one that is open on the connection, or it is not changed and has its own log. -/
theorem Sound.eq_or_ne (hs : r.Sound) (hconns : (Caller.conns r.callers).Nodup)
    (hc : c ∈ r.callers) (hon : c.isOn conn = true) {d : Caller} (hd : d ∈ r.callers) :
    d = c ∨ d.isOn conn = false ∧ c.number ≠ d.number := by
  cases hond : d.isOn conn with
  | true => exact .inl (Caller.eq_of_isOn hconns hd hc hond hon)
  | false =>
    refine .inr ⟨rfl, fun hnumber => ?_⟩
    rw [hs.eq_of_number hc hd hnumber, hond] at hon
    cases hon

theorem inbox_await (log : Arrivals) (c : Caller) :
    (seat log c).inbox.await =
      match (log.repliesTo c.number)[c.taken]? with
      | some reply => (reply.awaited, (seat log c.take).inbox)
      | none => (.never, (seat log c).inbox) := by
  cases hnext : (log.repliesTo c.number)[c.taken]? with
  | some reply =>
    obtain ⟨hlt, hget⟩ := List.getElem?_eq_some_iff.mp hnext
    have hready : ((log.repliesTo c.number).map Reply.heard).drop c.taken =
        reply.heard :: ((log.repliesTo c.number).map Reply.heard).drop (c.taken + 1) := by
      rw [List.drop_eq_getElem_cons (by simpa using hlt), List.getElem_map, hget]
    rw [seat, hready]
    exact Inbox.await_heard _ _
  | none =>
    have hready : ((log.repliesTo c.number).map Reply.heard).drop c.taken = [] := by
      apply List.drop_eq_nil_of_le
      rw [List.length_map]
      exact List.getElem?_eq_none_iff.mp hnext
    rw [seat, hready]
    rfl

theorem ask_seat {log : Arrivals} (hwithin : c.taken ≤ (log.on c.number).length) (text : String) :
    let log' := log ++ .ofConn c.number (sentItems text)
    Hall.ask log.store (seat log c).inbox text =
      ((seat log' c).inbox.await.1, log'.store, (seat log' c).inbox.await.2) := by
  intro log'
  have hline := log.isClean_store.isLine_replies (sentItems text)
  have hready : (seat log c).inbox.receive (Reply.bytes (log.store.replies (sentItems text))) =
      (seat log' c).inbox := by
    rw [seat, Inbox.receive_replies hline, seat, Arrivals.repliesTo_append_ofConn, List.map_append,
      List.drop_append_of_le_length (by simpa [Arrivals.length_repliesTo] using hwithin)]
  rw [Hall.ask, Store.exchange_sentLine]
  dsimp only
  rw [hready, Arrivals.store_append, Arrivals.items_ofConn]

theorem Sound.mem_served_update (hs : r.Sound) (hconns : (Caller.conns r.callers).Nodup)
    (hc : c ∈ r.served) (hon : c.isOn conn = true) {f : Caller → Caller} {d : Caller}
    (hd : d ∈ (r.update conn f).served) : d = f c ∨ d ∈ r.served ∧ c.number ≠ d.number := by
  rw [served_update] at hd
  obtain ⟨e, he, rfl⟩ := List.mem_map.mp hd
  obtain rfl | ⟨hoff, hne⟩ :=
    hs.eq_or_ne hconns (mem_callers_of_served hc) hon (mem_callers_of_served he)
  · exact .inl (Caller.change_of_isOn f hon)
  · rw [Caller.change_of_not_isOn f hoff]
    exact .inr ⟨he, hne⟩

theorem Sound.map_waiting (hs : r.Sound) (hconns : (Caller.conns r.callers).Nodup) (hc : c ∈ r.served)
    (hon : c.isOn conn = true) (f : Caller → Caller) : (r.update conn f).waiting = r.waiting := by
  rw [waiting_update]
  refine (List.map_congr_left fun d hd => ?_).trans (List.map_id _)
  obtain rfl | ⟨hoff, -⟩ :=
    hs.eq_or_ne hconns (mem_callers_of_served hc) hon (mem_callers_of_waiting hd)
  · exact absurd (hs.number_lt hc) (Nat.not_lt.mpr (hs.le_number hd))
  · exact Caller.change_of_not_isOn f hoff

/-- The turn of a caller goes on with what it sends, and it may take a reply. -/
theorem Sound.serve (hs : r.Sound) (hconns : (Caller.conns r.callers).Nodup) (hc : c ∈ r.served)
    (hon : c.isOn conn = true) {f : Caller → Caller} (hnumber : ∀ c, (f c).number = c.number)
    {items : List Item} (hitems : (f c).items = c.items ++ items)
    (htaken : (f c).taken ≤ (c.items ++ items).length) :
    Sound { r.update conn f with log := r.log ++ .ofConn c.number items } := by
  have hsent : (r.log ++ .ofConn c.number items).on (f c).number = (f c).items := by
    rw [hnumber, Arrivals.on_append, hs.on_eq c hc (Caller.isOn_iff.mp hon).1, Arrivals.on_ofConn, hitems]
  have hother {d : Caller} (hne : c.number ≠ d.number) :
      (r.log ++ .ofConn c.number items).on d.number = r.log.on d.number := by
    rw [Arrivals.on_append, Arrivals.on_ofConn_of_ne _ hne, List.append_nil]
  refine ⟨hs.numbered_update hnumber conn, (List.length_map _).symm ▸ hs.accepted_le, ?_, ?_, ?_, ?_, ?_⟩
  · intro e he
    rcases List.mem_append.mp he with he | he
    · exact hs.only e he
    · obtain ⟨item, -, rfl⟩ := List.mem_map.mp he
      exact hs.number_lt hc
  · intro d hd
    obtain rfl | ⟨hd, hne⟩ := hs.mem_served_update hconns hc hon hd
    · exact hsent ▸ List.prefix_rfl
    · exact (hother hne).symm ▸ hs.on_prefix d hd
  · intro d hd hopen
    obtain rfl | ⟨hd, hne⟩ := hs.mem_served_update hconns hc hon hd
    · exact hsent
    · exact (hother hne).trans (hs.on_eq d hd hopen)
  · intro d hd
    obtain rfl | ⟨hd, hne⟩ := hs.mem_served_update hconns hc hon hd
    · exact hsent.symm ▸ hitems.symm ▸ htaken
    · exact (hother hne).symm ▸ hs.within d hd
  · intro d hd
    have hwaiting := hs.map_waiting hconns hc hon f
    exact hs.untaken d (hwaiting ▸ hd)

/-- What is sent on a served connection goes to the end of the log. -/
theorem Tells.serve (ht : r.Tells h) (hconns : (Caller.conns r.callers).Nodup) (hc : c ∈ r.served)
    (hon : c.isOn conn = true) {f : Caller → Caller} (hnumber : ∀ c, (f c).number = c.number)
    (hconn : ∀ c, (f c).conn = c.conn) (hopen : ∀ c, (f c).isOpen = c.isOpen) {items : List Item}
    (hitems : (f c).items = c.items ++ items) (htaken : (f c).taken ≤ (c.items ++ items).length) :
    let log := r.log ++ .ofConn c.number items
    Tells { r.update conn f with log }
      { h with
        store := log.store
        served := h.served.map (Visitor.hold conn (seat log (f c)).inbox) } := by
  intro log
  have hwaiting := ht.sound.map_waiting hconns hc hon f
  have hserved : h.served.map (Visitor.hold conn (seat log (f c)).inbox) =
      ((r.update conn f).served.filter (·.isOpen)).map (seat log) := by
    have hopen' : (fun c : Caller => c.isOpen) ∘ Caller.change conn f = fun c => c.isOpen :=
      funext (Caller.change_keeps (·.isOpen) hopen conn)
    rw [ht.served, served_update, List.filter_map, hopen', List.map_map, List.map_map]
    apply List.map_congr_left
    intro d hd
    obtain ⟨hd, hdopen⟩ := List.mem_filter.mp hd
    rw [Function.comp_apply, Function.comp_apply, Visitor.hold]
    obtain rfl | ⟨hoff, hne⟩ :=
      ht.sound.eq_or_ne hconns (mem_callers_of_served hc) hon (mem_callers_of_served hd)
    · rw [if_pos (show (seat r.log d).conn = conn from (Caller.isOn_iff.mp hon).2),
        Caller.change_of_isOn f hon]
      simp [seat, hnumber, hconn]
    · have hother : d.conn ≠ conn := fun he => by
        rw [Caller.isOn_iff.mpr ⟨hdopen, he⟩] at hoff
        cases hoff
      rw [if_neg (show (seat r.log d).conn ≠ conn from hother), Caller.change_of_not_isOn f hoff,
        seat_append_of_ne hne]
  refine ⟨ht.sound.serve hconns hc hon hnumber hitems htaken, ht.farewell, rfl, hserved, ?_, ?_, ?_⟩
  · intro hlistening
    obtain ⟨hw, hdropped⟩ := ht.listening hlistening
    exact ⟨hw.trans (congrArg (List.map queued) hwaiting.symm), hdropped⟩
  · intro hstopped
    obtain ⟨hw, hdropped⟩ := ht.stopped hstopped
    exact ⟨hw, hdropped.trans (congrArg Caller.conns hwaiting.symm)⟩
  · exact ht.opened.trans (List.length_map _).symm

theorem find?_callers (r : Register) (conn : Nat) : r.callers.find? (Caller.isOn conn) =
    (r.served.find? (Caller.isOn conn)).or (r.waiting.find? (Caller.isOn conn)) := by
  rw [← List.find?_append, served_append_waiting]

/-! ## A text whose caller is served -/

theorem request_of_served (hc : r.callers.find? (Caller.isOn conn) = some c) (hlt : c.number < r.accepted)
    (isListening : Bool) (text : String) :
    let log := r.log ++ .ofConn c.number (sentItems text)
    r.request isListening conn text =
      match (log.repliesTo c.number)[c.taken]? with
      | some reply => (.awaited reply.awaited, { r.update conn (fun c => (c.say text).take) with log })
      | none => (.awaited .never, { r.update conn (Caller.say text) with log }) := by
  intro log
  have hsaid : r.say conn text = { r.update conn (Caller.say text) with log } := by
    simp only [Register.say, hc, if_pos hlt, log]
  have hfound : (r.update conn (Caller.say text)).callers.find? (Caller.isOn conn) = some (c.say text) := by
    rw [find?_update (f := Caller.say text) fun _ => rfl, hc, Option.map_some]
  have htwice : Register.update { r.update conn (Caller.say text) with log } conn Caller.take =
      { r.update conn (fun c => (c.say text).take) with log } := by
    have hfun : Caller.change conn Caller.take ∘ Caller.change conn (Caller.say text) =
        Caller.change conn fun c => (c.say text).take :=
      funext (Caller.change_change (f := Caller.say text) fun _ => rfl)
    simp only [update, List.map_map, hfun]
  have hnumber : (c.say text).number < (r.update conn (Caller.say text)).accepted := hlt
  rw [Register.request, hsaid, Register.await]
  dsimp only
  rw [hfound]
  dsimp only
  rw [if_pos hnumber, htwice]
  rfl

theorem Tells.request_served (ht : r.Tells h) (hconns : (Caller.conns r.callers).Nodup)
    (hc : r.served.find? (Caller.isOn conn) = some c) (text : String) :
    (h.request conn text).1 = (r.request h.isListening conn text).1 ∧
      (r.request h.isListening conn text).2.Tells (h.request conn text).2 := by
  have hmem := List.mem_of_find?_eq_some hc
  have hon := List.find?_some hc
  have hfind : r.callers.find? (Caller.isOn conn) = some c := by rw [find?_callers, hc, Option.some_or]
  have hwithin := ht.sound.within c hmem
  have hon_eq := ht.sound.on_eq c hmem (Caller.isOn_iff.mp hon).1
  have hitems : (c.say text).items = c.items ++ sentItems text := by simp [Caller.items, Caller.say]
  have hvisitor : h.served.find? (·.conn = conn) = some (seat r.log c) := by
    rw [ht.served, find?_seated, hc, Option.map_some]
  have hlength : ((r.log ++ .ofConn c.number (sentItems text)).repliesTo c.number).length =
      (c.items ++ sentItems text).length := by
    rw [Arrivals.length_repliesTo, Arrivals.on_append, Arrivals.on_ofConn, hon_eq]
  have hask := ask_seat hwithin text
  dsimp only at hask
  rw [← ht.store, inbox_await] at hask
  rw [Hall.request, hvisitor, request_of_served hfind (ht.sound.number_lt hmem)]
  dsimp only
  rw [hask]
  cases hnext : ((r.log ++ .ofConn c.number (sentItems text)).repliesTo c.number)[c.taken]? with
  | none =>
    have htaken : c.taken ≤ (c.items ++ sentItems text).length := by
      rw [List.length_append]
      exact Nat.le_add_right_of_le (hon_eq ▸ hwithin)
    exact ⟨rfl, ht.serve hconns hmem hon (f := Caller.say text) (fun _ => rfl) (fun _ => rfl)
      (fun _ => rfl) hitems htaken⟩
  | some reply =>
    have htaken : c.taken + 1 ≤ (c.items ++ sentItems text).length :=
      hlength ▸ (List.getElem?_eq_some_iff.mp hnext).1
    exact ⟨rfl, ht.serve hconns hmem hon (f := fun c => (c.say text).take) (fun _ => rfl)
      (fun _ => rfl) (fun _ => rfl) hitems htaken⟩

/-! ## A text whose caller waits -/

theorem say_of_waiting (hc : r.callers.find? (Caller.isOn conn) = some c) (hle : r.accepted ≤ c.number)
    (text : String) : r.say conn text = r.update conn (Caller.say text) := by
  rw [Register.say, hc]
  exact if_neg (Nat.not_lt.mpr hle)

theorem request_of_waiting (hc : r.callers.find? (Caller.isOn conn) = some c) (hle : r.accepted ≤ c.number)
    (isListening : Bool) (text : String) : r.request isListening conn text =
      (if isListening then .awaited .never else .disconnected, r.update conn (Caller.say text)) := by
  have hfound : (r.update conn (Caller.say text)).callers.find? (Caller.isOn conn) = some (c.say text) := by
    rw [find?_update (f := Caller.say text) fun _ => rfl, hc, Option.map_some]
  rw [Register.request, say_of_waiting hc hle, Register.await, hfound]
  exact if_neg (Nat.not_lt.mpr hle)

theorem keep_queued (conn : Nat) (text : String) (c : Caller) :
    (queued c).keep conn text = queued (c.change conn (Caller.say text)) := by
  rw [Visitor.keep]
  cases hon : c.isOn conn with
  | true =>
    rw [if_pos (show ((queued c).isOpen && (queued c).conn == conn) = true from hon),
      Caller.change_of_isOn _ hon]
    simp [queued, Caller.say, sentLines]
  | false =>
    have hwaits : ((queued c).isOpen && (queued c).conn == conn) = false := hon
    rw [hwaits, if_neg Bool.false_ne_true, Caller.change_of_not_isOn _ hon]

theorem served_update_of_waiting (hnone : r.served.find? (Caller.isOn conn) = none) (f : Caller → Caller) :
    (r.update conn f).served = r.served := by
  rw [served_update, Caller.map_change_of_find?_eq_none f hnone]

theorem Sound.keep (hs : r.Sound) (hnone : r.served.find? (Caller.isOn conn) = none) (text : String) :
    (r.update conn (Caller.say text)).Sound := by
  apply hs.update (f := Caller.say text) (fun _ => rfl) fun _ => rfl
  intro c hc
  have hoff : c.isOn conn = false := by simpa using List.find?_eq_none.mp hnone c hc
  rw [Caller.change_of_not_isOn _ hoff]
  exact ⟨rfl, id⟩

theorem Tells.keep (ht : r.Tells h) (hnone : r.served.find? (Caller.isOn conn) = none) (text : String)
    {waiting : List Visitor}
    (hwaiting : h.isListening = true → waiting = h.waiting.map (Visitor.keep conn text))
    (hstopped : h.isListening = false → waiting = []) :
    (r.update conn (Caller.say text)).Tells { h with waiting } := by
  have hsame := served_update_of_waiting hnone (Caller.say text)
  refine ⟨ht.sound.keep hnone text, ht.farewell, ht.store, hsame.symm ▸ ht.served, ?_, ?_, ?_⟩
  · intro hlistening
    obtain ⟨hqueued, hdropped⟩ := ht.listening hlistening
    refine ⟨(hwaiting hlistening).trans ?_, hdropped⟩
    rw [hqueued, waiting_update, List.map_map, List.map_map]
    exact List.map_congr_left fun d _ => keep_queued conn text d
  · intro hstill
    obtain ⟨-, hdropped⟩ := ht.stopped hstill
    refine ⟨hstopped hstill, hdropped.trans ?_⟩
    have hkeeps {α : Type} (part : Caller → α) (hpart : ∀ c : Caller, part (c.say text) = part c) :=
      Caller.change_keeps part hpart conn
    rw [waiting_update, Caller.conns_map (hkeeps (·.isOpen) fun _ => rfl) (hkeeps (·.conn) fun _ => rfl)]
  · exact ht.opened.trans (List.length_map _).symm

theorem Tells.request_waiting (ht : r.Tells h) (hnone : r.served.find? (Caller.isOn conn) = none)
    (hc : r.waiting.find? (Caller.isOn conn) = some c) (text : String) :
    (h.request conn text).1 = (r.request h.isListening conn text).1 ∧
      (r.request h.isListening conn text).2.Tells (h.request conn text).2 := by
  have hmem := List.mem_of_find?_eq_some hc
  have hfind : r.callers.find? (Caller.isOn conn) = some c := by rw [find?_callers, hnone, hc]; rfl
  have hvisitor : h.served.find? (·.conn = conn) = none := by
    rw [ht.served, find?_seated, hnone, Option.map_none]
  rw [Hall.request, hvisitor, request_of_waiting hfind (ht.sound.le_number hmem)]
  dsimp only
  cases hlistening : h.isListening with
  | true =>
    have hany : (h.waiting.any fun v => v.isOpen && v.conn == conn) = true := by
      rw [(ht.listening hlistening).1, any_queued, hc]
      rfl
    rw [if_pos hany, if_pos rfl]
    refine ⟨rfl, hlistening ▸ ht.keep hnone text (fun _ => rfl) fun hstopped => ?_⟩
    exact absurd hlistening (Bool.eq_false_iff.mp hstopped)
  | false =>
    obtain ⟨hwaiting, hdropped⟩ := ht.stopped hlistening
    have hconn : h.dropped.contains conn = true := by
      rw [hdropped, List.contains_iff_mem]
      exact Caller.mem_conns_of_isOn hmem (List.find?_some hc)
    rw [hwaiting, List.any_nil, if_neg Bool.false_ne_true, if_pos hconn, if_neg Bool.false_ne_true]
    have hkept : (r.update conn (Caller.say text)).Tells { h with waiting := [] } := by
      apply ht.keep hnone text _ fun _ => rfl
      intro hstill
      rw [hlistening] at hstill
      cases hstill
    rw [← hwaiting] at hkept
    exact ⟨rfl, hkept⟩

/-! ## Any step -/

theorem Tells.request (ht : r.Tells h) (hconns : (Caller.conns r.callers).Nodup) (conn : Nat)
    (text : String) :
    (h.request conn text).1 = (r.request h.isListening conn text).1 ∧
      (r.request h.isListening conn text).2.Tells (h.request conn text).2 := by
  cases hserved : r.served.find? (Caller.isOn conn) with
  | some c => exact ht.request_served hconns hserved text
  | none =>
    cases hwaiting : r.waiting.find? (Caller.isOn conn) with
    | some c => exact ht.request_waiting hserved hwaiting text
    | none =>
      have hfind : r.callers.find? (Caller.isOn conn) = none := by
        rw [find?_callers, hserved, hwaiting]
        rfl
      have hvisitor : h.served.find? (·.conn = conn) = none := by
        rw [ht.served, find?_seated, hserved, Option.map_none]
      have hconn : conn ∉ Caller.conns r.waiting := by
        intro hmem
        obtain ⟨c, hc, hconn⟩ := List.mem_map.mp hmem
        obtain ⟨hc, hopen⟩ := List.mem_filter.mp hc
        exact List.find?_eq_none.mp hwaiting c hc (Caller.isOn_iff.mpr ⟨hopen, hconn⟩)
      have hany : (h.waiting.any fun v => v.isOpen && v.conn == conn) = false ∧
          h.dropped.contains conn = false := by
        cases hlistening : h.isListening with
        | true =>
          obtain ⟨hqueued, hdropped⟩ := ht.listening hlistening
          rw [hqueued, any_queued, hwaiting, hdropped]
          exact ⟨rfl, rfl⟩
        | false =>
          obtain ⟨hnobody, hdropped⟩ := ht.stopped hlistening
          rw [hnobody, hdropped]
          exact ⟨rfl, by simpa using hconn⟩
      rw [Hall.request, hvisitor, Register.request, Register.say, hfind, Register.await, hfind, hany.1,
        hany.2]
      exact ⟨rfl, ht⟩

/-- The register that follows a step tells the hall that it leads to. -/
theorem Tells.step (ht : r.Tells h) (hr : h.AtRest) (hup : h.network = .up) (st : Hall.Step) :
    (r.follow st (h.step st).2).Tells (h.step st).2 := by
  have hconns : (Caller.conns r.callers).Nodup := ht.conns_eq ▸ hr.distinct
  have hrequest (conn : Nat) (text : String) :
      (r.request (h.request conn text).2.isListening conn text).2.Tells (h.request conn text).2 := by
    rw [(hr.request conn text).isListening]
    exact (ht.request hconns conn text).2
  cases st with
  | connect conn =>
    rw [Hall.step_connect, follow]
    cases hlistening : h.isListening with
    | true =>
      rw [(hr.connect hup hlistening conn).isListening, if_pos rfl, Hall.connect_of_listening hup hlistening]
      exact ((ht.leave conn).push hlistening conn).settle
    | false =>
      rw [Hall.connect_of_stopped hup hlistening, hlistening, if_neg Bool.false_ne_true]
      exact ht
  | request conn text => exact hrequest conn text
  | attempt conn text => exact hrequest conn text
  | close conn => exact (ht.leave conn).settle
  | acceptFailure =>
    have hdropped : r.Tells { h with gate := h.gate.drop } :=
      ⟨ht.sound, ht.farewell, ht.store, ht.served, ht.listening, ht.stopped, ht.opened⟩
    exact hdropped.settle
  | shutdown =>
    change r.Tells h.shutdown.2
    cases hlistening : h.isListening with
    | true =>
      obtain ⟨hwaiting, hdropped⟩ := ht.listening hlistening
      rw [Hall.shutdown_of_listening hlistening]
      refine ⟨ht.sound, ht.farewell, ht.store, ht.served, fun hstill => ?_, fun _ => ⟨rfl, ?_⟩, ht.opened⟩
      · cases hstill
      · rw [hdropped, hwaiting, List.filter_map, List.map_map]
        rfl
    | false =>
      rw [Hall.shutdown_of_stopped hlistening]
      exact ht
  | bindAgain =>
    rw [Hall.step_bindAgain]
    exact ht

end RelayStore.Register
