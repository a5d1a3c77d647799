import RelayStore.Proofs.Session.Texts

/-! # Requests and their replies

A client that sends texts over one connection waits once for each. A text may bring several
replies or none, so the inbox may hold replies to earlier texts. As long as enough lines
have been answered, the client's requests come to the replies of one session, one by one.
-/
namespace RelayStore
open Text

/-- How many lines of a stream are answered: those that are too long or not blank. -/
def answeredLines (bs : Bytes) : Nat :=
  (bs.splitOn newline).countP fun piece =>
    maxLine + 1 < piece.length || maxLine < (stripReturns piece).length ||
      !isBlank (Utf8.decode (stripReturns piece))

theorem answeredLines_eq (bs : Bytes) : answeredLines bs = (splitItems bs .closed).1.length := by
  rw [splitItems, List.length_filterMap_eq_countP, answeredLines]
  congr 1
  funext piece
  have hpiece := Item.ofPiece?_ne_none_iff piece
  rw [Bool.eq_iff_iff, Option.isSome_iff_ne_none, hpiece]
  simp [or_assoc]

theorem answeredLines_sentLines (texts : List String) :
    answeredLines (sentLines texts) = (texts.flatMap sentItems).length := by
  rw [answeredLines_eq, splitItems_sentLines]

namespace Inboxes

theorem find?_put (boxes : Inboxes) (n : Nat) (inbox : Inbox) :
    (boxes.put n inbox).find? n = some inbox := by
  rw [find?, put, List.lookup_cons_self]

end Inboxes

namespace Dialogue

/-- Where a client stands that has sent some texts over one connection and waited after each:
the node has answered all of them, and the replies not yet asked for are in the inbox. -/
structure Paired (s : Store) (conn : Nat) (sent : List String) (d : Dialogue) : Prop where
  network : d.network = .up
  server : d.server = .node (s.after (sent.flatMap sentItems))
  enough : sent.length ≤ (sent.flatMap sentItems).length
  inbox : (d.inboxes.find? conn).getD {} =
    { ready := ((s.replies (sent.flatMap sentItems)).map Reply.heard).drop sent.length }

variable {s : Store} {conn : Nat} {sent : List String} {d : Dialogue}

/-- A request is read off the inbox behind what the node now replies. -/
theorem request_eq {t : Store} (hup : d.network = .up) (hserver : d.server = .node t) (text : String) :
    let waited := (((d.inboxes.find? conn).getD {}).receive (t.exchange (sentLine text)).2).await
    (d.request conn text).1 = waited.1 ∧
      (d.request conn text).2.network = .up ∧
      (d.request conn text).2.server = .node (t.exchange (sentLine text)).1 ∧
      (d.request conn text).2.inboxes.find? conn = some waited.2 := by
  intro waited
  cases hfound : d.inboxes.find? conn with
  | some inbox =>
    have hconnect : d.connect conn = .ok (d, inbox) := by simp only [connect, hfound]
    simp only [request, hconnect, hserver, Server.receive, hup, Inboxes.find?_put, waited, hfound,
      Option.getD_some, and_self]
  | none =>
    have hconnect : d.connect conn =
        .ok ({ d with inboxes := d.inboxes.put conn {}, server := .node t }, {}) := by
      simp only [connect, hfound, hup, hserver, Network.obstacle?, Server.isListening, if_true,
        Server.accept]
    simp only [request, hconnect, Server.receive, hup, Inboxes.find?_put, waited, hfound,
      Option.getD_none, and_self]

/-- The replies to all texts so far come to lie in the inbox, less one for each earlier request. -/
theorem Paired.receive (h : Paired s conn sent d) (hs : s.IsClean) (text : String) :
    ((d.inboxes.find? conn).getD {}).receive
        ((s.after (sent.flatMap sentItems)).exchange (sentLine text)).2 =
      { ready := ((s.replies ((sent ++ [text]).flatMap sentItems)).map Reply.heard).drop
          sent.length } := by
  have hline := (hs.after (sent.flatMap sentItems)).isLine_replies (sentItems text)
  have henough : sent.length ≤ ((s.replies (sent.flatMap sentItems)).map Reply.heard).length := by
    rw [List.length_map, Store.length_replies]
    exact h.enough
  rw [h.inbox, Store.exchange_sentLine, Inbox.receive_replies hline, List.flatMap_append,
    List.flatMap_singleton, Store.replies_append, List.map_append, List.drop_append_of_le_length henough]

/-- A request comes to the reply with its own number. -/
theorem Paired.request (h : Paired s conn sent d) (hs : s.IsClean) {text : String} {r : Reply}
    (hr : (s.replies ((sent ++ [text]).flatMap sentItems))[sent.length]? = some r) :
    (d.request conn text).1 = r.awaited ∧
      Paired s conn (sent ++ [text]) (d.request conn text).2 := by
  obtain ⟨hresult, hup, hserver, hinbox⟩ := @request_eq conn d _ h.network h.server text
  obtain ⟨hlt, hget⟩ := List.getElem?_eq_some_iff.mp hr
  have hnext : ((s.replies ((sent ++ [text]).flatMap sentItems)).map Reply.heard).drop sent.length =
      r.heard :: ((s.replies ((sent ++ [text]).flatMap sentItems)).map Reply.heard).drop
        (sent ++ [text]).length := by
    rw [List.drop_eq_getElem_cons (by simpa using hlt), List.getElem_map, hget, List.length_append,
      List.length_singleton]
  rw [h.receive hs, hnext, Inbox.await_heard] at hresult hinbox
  refine ⟨hresult, hup, ?_, ?_, ?_⟩
  · rw [hserver, Store.exchange_sentLine, List.flatMap_append, List.flatMap_singleton,
      Store.after_append]
  · rw [Store.length_replies] at hlt
    rw [List.length_append, List.length_singleton]
    omega
  · rw [hinbox, Option.getD_some]

theorem Paired.request_never (h : Paired s conn sent d) (hs : s.IsClean) {text : String}
    (hfew : ((sent ++ [text]).flatMap sentItems).length ≤ sent.length) :
    (d.request conn text).1 = .never := by
  obtain ⟨hresult, -, -, -⟩ := @request_eq conn d _ h.network h.server text
  have hnone : ((s.replies ((sent ++ [text]).flatMap sentItems)).map Reply.heard).drop sent.length =
      [] := by
    apply List.drop_eq_nil_of_le
    rwa [List.length_map, Store.length_replies]
  rw [hresult, h.receive hs, hnone]
  rfl

theorem run_request_cons {text : String} {a : Awaited} {d' : Dialogue} (ha : a ≠ .never)
    (hrequest : d.request conn text = (a, d')) (steps : List Step) :
    d.run (.request conn text :: steps) = (d'.run steps).map fun r => (some a :: r.1, r.2) := by
  rw [run]
  simp only [step, hrequest]
  split
  · next he =>
    cases he
    exact absurd rfl ha
  · next he =>
    cases he
    rfl

/-- The requests of a client whose inbox never runs dry come to the replies of one session. -/
theorem Paired.run (h : Paired s conn sent d) (hs : s.IsClean) {texts : List String}
    (henough : ∀ n ≤ texts.length,
      sent.length + n ≤ ((sent ++ texts.take n).flatMap sentItems).length) :
    ∃ d', d.run (texts.map (.request conn)) =
        some ((((s.replies ((sent ++ texts).flatMap sentItems)).drop sent.length).take
          texts.length).map fun r => some r.awaited, d') ∧
      Paired s conn (sent ++ texts) d' := by
  -- The texts move from those to come to those sent, and the replies stay the same.
  induction texts generalizing sent d with
  | nil =>
    have hdone : d.run [] = some ([], d) := by simp only [Dialogue.run, h.server, Server.isDone, if_true]
    exact ⟨d, by simpa using hdone, by simpa using h⟩
  | cons text texts ih =>
    have hone := henough 1 (by simp)
    rw [List.take_succ_cons, List.take_zero] at hone
    obtain ⟨r, hr⟩ : ∃ r, (s.replies ((sent ++ [text]).flatMap sentItems))[sent.length]? = some r :=
      ⟨_, List.getElem?_eq_getElem (by rw [Store.length_replies]; omega)⟩
    obtain ⟨hresult, hpaired⟩ := h.request hs hr
    have hrest : ∀ n ≤ texts.length, (sent ++ [text]).length + n ≤
        (((sent ++ [text]) ++ texts.take n).flatMap sentItems).length := by
      intro n hn
      have hmore := henough (n + 1) (by simpa using hn)
      rw [List.take_succ_cons, List.append_cons] at hmore
      rw [List.length_append, List.length_singleton]
      omega
    obtain ⟨d', hrun, hend⟩ := ih hpaired hrest
    have hall : (sent ++ [text]) ++ texts = sent ++ text :: texts := by simp
    rw [hall] at hrun hend
    refine ⟨d', ?_, hend⟩
    have hsplit : (sent ++ text :: texts).flatMap sentItems =
        (sent ++ [text]).flatMap sentItems ++ texts.flatMap sentItems := by simp
    have hfirst : (s.replies ((sent ++ text :: texts).flatMap sentItems))[sent.length]? = some r := by
      have hlt := (List.getElem?_eq_some_iff.mp hr).1
      rw [hsplit, Store.replies_append, List.getElem?_append_left hlt, hr]
    obtain ⟨hlt, hget⟩ := List.getElem?_eq_some_iff.mp hfirst
    rw [List.map_cons, run_request_cons r.awaited_ne_never (Prod.ext hresult rfl), hrun,
      List.drop_eq_getElem_cons hlt, hget]
    simp

/-- A client whose inbox runs dry waits for ever. -/
theorem Paired.run_eq_none (h : Paired s conn sent d) (hs : s.IsClean) {texts : List String} {n : Nat}
    (hn : n ≤ texts.length)
    (hfew : ((sent ++ texts.take n).flatMap sentItems).length < sent.length + n) :
    d.run (texts.map (.request conn)) = none := by
  induction texts generalizing sent d n with
  | nil =>
    have henough := h.enough
    rw [List.take_nil, List.append_nil] at hfew
    rw [List.length_nil] at hn
    omega
  | cons text texts ih =>
    rw [List.map_cons]
    by_cases hone : sent.length < ((sent ++ [text]).flatMap sentItems).length
    · obtain ⟨r, hr⟩ : ∃ r, (s.replies ((sent ++ [text]).flatMap sentItems))[sent.length]? = some r :=
        ⟨_, List.getElem?_eq_getElem (by rwa [Store.length_replies])⟩
      obtain ⟨hresult, hpaired⟩ := h.request hs hr
      cases n with
      | zero =>
        have henough := h.enough
        rw [List.take_zero, List.append_nil] at hfew
        omega
      | succ n =>
        rw [List.take_succ_cons, List.append_cons] at hfew
        have hrest : (((sent ++ [text]) ++ texts.take n).flatMap sentItems).length <
            (sent ++ [text]).length + n := by
          rw [List.length_append, List.length_singleton]
          omega
        rw [run_request_cons r.awaited_ne_never (Prod.ext hresult rfl),
          ih hpaired (by simpa using hn) hrest]
        rfl
    · have hnever := h.request_never hs (Nat.le_of_not_lt hone)
      have hrequest : d.request conn text = (.never, (d.request conn text).2) := Prod.ext hnever rfl
      rw [Dialogue.run, step, hrequest]

/-- A client sends texts over one new connection to a node that nobody else talks to. If at each
of its requests at least as many lines have been answered as requests made, each comes to the
reply with its own number in the session on all that was sent, or fails to read it if it is too
long, and the node is left as by that session. Otherwise the client waits for ever. -/
theorem requests_paired (hs : s.IsClean) (hup : d.network = .up) (hserver : d.server = .node s)
    (hnew : d.inboxes.find? conn = none) (texts : List String) :
    let session := s.serve ⟨[sentLines texts], .closed⟩ {}
    let unread : Failure := .unreadableReply (.lineTooLong 65536)
    unread.context = "failed to read response" ∧
      unread.cause? = some "line too long (limit 65536 bytes)" ∧
      ((∀ n ≤ texts.length, n ≤ answeredLines (sentLines (texts.take n))) →
        ∃ replies results d', s.Answers (splitItems (sentLines texts) .closed).1 replies ∧
          session.sink.written.toList = Reply.bytes replies ∧
          d.run (texts.map (.request conn)) = some (results, d') ∧
          results.length = texts.length ∧
          (∀ i < texts.length, ∃ r, replies[i]? = some r ∧ results[i]? =
            some (some (if Utf8.size r.render ≤ 65536 then .reply r.render else .failure unread))) ∧
          d'.server = .node session.state) ∧
      ((¬ ∀ n ≤ texts.length, n ≤ answeredLines (sentLines (texts.take n))) →
        d.run (texts.map (.request conn)) = none) := by
  intro session unread
  have hstart : Paired s conn [] d := ⟨hup, hserver, Nat.le_refl _, by rw [hnew]; rfl⟩
  have hcount (n : Nat) : answeredLines (sentLines (texts.take n)) =
      ((texts.take n).flatMap sentItems).length := answeredLines_sentLines _
  refine ⟨rfl, by decide +kernel, fun henough => ?_, fun hfew => ?_⟩
  · have hitems := splitItems_sentLines texts .closed
    have hread : (Source.items ⟨[sentLines texts], .closed⟩).1 = texts.flatMap sentItems :=
      Source.items_of_sentLines _ (List.append_nil _) (by simp)
    obtain ⟨hstate, hwritten, -⟩ := s.serve_default ⟨[sentLines texts], .closed⟩
    have hlong : texts.length ≤ (s.replies (texts.flatMap sentItems)).length := by
      have hall := henough texts.length (Nat.le_refl _)
      rw [hcount, List.take_length] at hall
      rwa [Store.length_replies]
    have hlag : ∀ n ≤ texts.length,
        ([] : List String).length + n ≤ (([] ++ texts.take n).flatMap sentItems).length := by
      intro n hn
      rw [List.length_nil, Nat.zero_add, List.nil_append, ← hcount]
      exact henough n hn
    obtain ⟨d', hrun, hend⟩ := hstart.run hs hlag
    rw [List.nil_append, List.length_nil, List.drop_zero] at hrun
    refine ⟨s.replies (texts.flatMap sentItems), _, d', ?_, ?_, hrun, ?_, ?_, ?_⟩
    · rw [hitems]
      exact s.answers_transcript _
    · rw [hwritten, hread]
    · rw [List.length_map, List.length_take_of_le hlong]
    · intro i hi
      have hlt := Nat.lt_of_lt_of_le hi hlong
      refine ⟨_, List.getElem?_eq_getElem hlt, ?_⟩
      rw [List.getElem?_map, List.getElem?_take_of_lt hi, List.getElem?_eq_getElem hlt]
      rfl
    · rw [hend.server, hstate, hread, List.nil_append]
  · obtain ⟨n, hn, hlt⟩ : ∃ n ≤ texts.length, answeredLines (sentLines (texts.take n)) < n := by
      simpa only [not_forall, Nat.not_le, exists_prop] using hfew
    rw [hcount] at hlt
    exact hstart.run_eq_none hs hn (by simpa using hlt)

/-- Two requests in one text, then a blank text, and a third request: each comes to its own reply. -/
theorem requests_paired_lagging :
    let d : Dialogue := ⟨.up, "127.0.0.1:7878", .node .empty, []⟩
    let texts := ["SET k v\n\nGET k", " ", "DEL"]
    Store.empty.IsClean ∧ d.inboxes.find? 0 = none ∧
      (∀ n ≤ texts.length, n ≤ answeredLines (sentLines (texts.take n))) ∧
      ∃ results d', d.run (texts.map (.request 0)) = some (results, d') ∧
        results = [some (.reply "OK"), some (.reply "v"),
          some (.reply "ERROR DELETE requires exactly one argument: DELETE <key>")] := by
  intro d texts
  have henough : ∀ n ≤ texts.length, n ≤ answeredLines (sentLines (texts.take n)) := by decide
  obtain ⟨-, -, hpaired, -⟩ :=
    requests_paired (d := d) Store.isClean_empty rfl rfl (rfl : d.inboxes.find? 0 = none) texts
  obtain ⟨replies, results, d', hanswers, -, hrun, hlength, hresults, -⟩ := hpaired henough
  refine ⟨Store.isClean_empty, rfl, henough, results, d', hrun, ?_⟩
  have hitems : (splitItems (sentLines texts) .closed).1 =
      [.line "SET k v", .line "GET k", .line "DEL"] := by decide
  rw [hitems] at hanswers
  match replies, hanswers.length, results, hlength with
  | [first, second, third], _, [a, b, c], _ =>
    cases hanswers.each 0 _ rfl
    cases hanswers.each 1 _ rfl
    cases hanswers.each 2 _ rfl
    obtain ⟨_, ⟨⟩, ha⟩ := hresults 0 (by decide)
    obtain ⟨_, ⟨⟩, hb⟩ := hresults 1 (by decide)
    obtain ⟨_, ⟨⟩, hc⟩ := hresults 2 (by decide)
    rw [Option.some.inj ha, Option.some.inj hb, Option.some.inj hc]
    decide

end Dialogue
end RelayStore
