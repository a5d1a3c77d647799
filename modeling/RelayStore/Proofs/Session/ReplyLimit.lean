import RelayStore.Proofs.Session.Readback

/-! # Replies over the limit

A reply of more than 65536 bytes is not read by the client that waits for it. Such a reply
quotes an unknown name or is a stored value that grew when it was decoded. Streams that are
UTF-8 bring no such value into a store, and whatever they have stored a client can fetch.
-/
namespace RelayStore
open Text

/-! ## Which replies are long -/

theorem Rejection.size_unknownCommand (name : String) :
    Utf8.size (unknownCommand name).reply.render = 24 + Utf8.size name := by
  have hbefore : Utf8.size "ERROR " = 6 := by decide
  have hquote : Utf8.size "invalid command '" = 17 := by decide
  have hbehind : Utf8.size "'" = 1 := by decide
  rw [reply, Reply.render, message_unknownCommand, Utf8.size_append, Utf8.size_append,
    Utf8.size_append, hbefore, hquote, hbehind]
  omega

namespace Store

theorem respond_size_cases (s : Store) (item : Item) :
    Utf8.size (respond reply s item).2.render ≤ maxLine ∨
      (∃ name, (respond reply s item).2 = (Rejection.unknownCommand name).reply) ∨
      ∃ key value, s.get? key = some value ∧ (respond reply s item).2 = .value value := by
  cases item with
  | tooLong => exact .inl (by decide +kernel : Utf8.size tooLongReply.render ≤ maxLine)
  | line text =>
    cases hparse : Request.parse text with
    | error e =>
      rw [s.respond_of_rejected hparse]
      dsimp only
      rcases Request.parse_eq_error hparse with rfl | rfl | ⟨name, -, rfl⟩ | ⟨verb, rfl⟩
      · exact .inl (by decide)
      · exact .inl (by decide)
      · exact .inr (.inl ⟨name, rfl⟩)
      · cases verb <;> exact .inl (by decide)
    | ok r =>
      rw [s.respond_of_parse hparse]
      dsimp only
      rcases s.replyTo_cases r.command with hr | hr | hvalue
      · rw [hr]
        exact .inl (by decide)
      · rw [hr]
        exact .inl (by decide)
      · exact .inr (.inr hvalue)

theorem Answers.long_cases {s : Store} {items : List Item} {replies : List Reply}
    (h : s.Answers items replies) {r : Reply} (hr : r ∈ replies)
    (hlong : maxLine < Utf8.size r.render) :
    (∃ name, r = (Rejection.unknownCommand name).reply ∧ 65512 < Utf8.size name) ∨
      ∃ i key value, (s.after (items.take i)).get? key = some value ∧ r = .value value := by
  obtain ⟨i, item, -, rfl⟩ := h.exists_item hr
  rcases respond_size_cases (s.after (items.take i)) item with hshort | ⟨name, hname⟩ | hvalue
  · omega
  · rw [hname, Rejection.size_unknownCommand] at hlong
    unfold maxLine at hlong
    exact .inl ⟨name, hname, by omega⟩
  · exact .inr ⟨i, hvalue⟩

/-- Of UTF-8 no key and no value is stored that would not fit a line with its command. -/
theorem ReachedBy.size_le {s : Store} (hs : s.ReachedBy Source.IsText) {key value : String}
    (hget : s.get? key = some value) :
    Utf8.size key + 4 ≤ maxLine ∧ Utf8.size value + 4 ≤ maxLine := by
  obtain ⟨src, text, r, hsrc, hmem, hparse, hset⟩ := hs.exists_line hget
  have hfits := hsrc.size_le hmem
  obtain ⟨hkey, hvalue⟩ := Request.size_of_set hparse hset
  exact ⟨by omega, by omega⟩

theorem ReachedBy.size_after_le {s : Store} (hs : s.ReachedBy Source.IsText) {src : Source}
    (hsrc : src.IsText) {i : Nat} {key value : String}
    (hget : (s.after (src.items.1.take i)).get? key = some value) : Utf8.size value ≤ maxLine := by
  rcases get?_after_eq_some hget with hget | ⟨text, r, hmem, hparse, hset⟩
  · exact Nat.le_of_add_right_le (hs.size_le hget).2
  · have hfits := hsrc.size_le (List.mem_of_mem_take hmem)
    obtain ⟨-, hvalue⟩ := Request.size_of_set hparse hset
    omega

end Store

/-! ## Fetching a value -/

theorem Dialogue.request_of_item {d : Dialogue} {conn : Nat} {s : Store} {text : String} {item : Item}
    (hup : d.network = .up) (hserver : d.server = .node s) (hnew : d.inboxes.find? conn = none)
    (hitem : (Source.items ⟨[sentLine text], .idle⟩).1 = [item])
    (hline : (respond Store.reply s item).2.IsLine) :
    (d.request conn text).1 = (respond Store.reply s item).2.awaited := by
  have hconnect : d.connect conn =
      .ok ({ d with inboxes := d.inboxes.put conn {}, server := .node s }, {}) := by
    simp only [connect, hnew, hup, hserver, Network.obstacle?, Server.isListening, if_true,
      Server.accept]
  rw [request, hconnect]
  simp only [Server.receive, s.exchange_of_item hitem, Inbox.await_receive hline]

theorem Dialogue.request_get {d : Dialogue} {conn : Nat} {s : Store} (hs : s.IsClean)
    (hup : d.network = .up) (hserver : d.server = .node s) (hnew : d.inboxes.find? conn = none)
    {key value : String} (hget : s.get? key = some value) (hkey : Utf8.size key + 4 ≤ maxLine) :
    (d.request conn (Command.get key).render).1 = (Reply.value value).awaited := by
  obtain ⟨hkeyToken, hvalueToken⟩ := hs key value hget
  have hclean : (Command.get key).IsClean := by
    intro t ht
    rwa [List.mem_singleton.mp ht]
  have hsize : Utf8.size (Command.get key).render ≤ maxLine := by
    have hname : Utf8.size "GET " = 4 := by decide
    rw [Command.render, Utf8.size_append, hname]
    omega
  have hitem := Source.items_of_isSpaced ⟨[sentLine (Command.get key).render], .idle⟩
    (s := (Command.get key).render) (by simp [Source.bytes]) (by simp)
    (Command.isSpaced_render hclean) (Command.isBlank_render hclean)
  rw [if_pos hsize] at hitem
  have hreply : (respond Store.reply s (.line (Command.get key).render)).2 = .value value := by
    rw [s.respond_of_parse (Request.parse_render hclean)]
    simp only [Store.replyTo, hget]
  have hline : (respond Store.reply s (.line (Command.get key).render)).2.IsLine := by
    rw [hreply]
    exact Reply.isLine_value hvalueToken
  rw [request_of_item hup hserver hnew hitem hline, hreply]

/-! ## The law of replies -/

/-- Whatever a node was sent before, each reply of a session is read back as one line with its
text if it has at most 65536 bytes, and as too long if it has more. A longer one quotes a name
of more than 65512 bytes or is a value that the store held. A client that asks for a key gets
its value if the value and the request fit a line. They do if all that was sent is UTF-8. -/
theorem replies_read_back {s : Store} (hs : s.ReachedBy fun _ => True) :
    (∀ src : Source, ∃ replies, s.Answers src.items.1 replies ∧
      (s.serve src {}).sink.written.toList = Reply.bytes replies ∧
      (∀ reading : Source, reading.bytes = Reply.bytes replies →
        reading.items.1 = replies.map fun r =>
          if Utf8.size r.render ≤ 65536 then .line r.render else .tooLong) ∧
      ∀ r ∈ replies, 65536 < Utf8.size r.render →
        (∃ name, r = (Rejection.unknownCommand name).reply ∧ 65512 < Utf8.size name) ∨
          ∃ i key value, (s.after (src.items.1.take i)).get? key = some value ∧ r = .value value) ∧
      (∀ key value, s.get? key = some value → Utf8.size key + 4 ≤ 65536 → Utf8.size value ≤ 65536 →
        ∀ (d : Dialogue) (conn : Nat), d.network = .up → d.server = .node s →
          d.inboxes.find? conn = none →
          (d.request conn (Command.get key).render).1 = .reply value) ∧
      (s.ReachedBy Source.IsText →
        (∀ key value, s.get? key = some value →
          Utf8.size key + 4 ≤ 65536 ∧ Utf8.size value ≤ 65536) ∧
        ∀ src : Source, src.IsText → ∀ replies, s.Answers src.items.1 replies →
          ∀ value, .value value ∈ replies → Utf8.size value ≤ 65536) := by
  refine ⟨fun src => ?_, ?_, fun htext => ⟨?_, ?_⟩⟩
  · have hanswers := s.answers_transcript src.items.1
    have hline : ∀ r ∈ (transcript Store.reply s src.items.1).2, r.IsLine := by
      intro r hr
      have hblank : ∀ text, .line text ∈ src.items.1 → isBlank text = false :=
        fun text hmem => (Source.line_spec hmem).2
      rcases hanswers.isProper_or hblank hr with hproper | ⟨key, value, hget, rfl⟩
      · exact hproper.isLine
      · exact Reply.isLine_value (hs.isClean key value hget).2
    refine ⟨_, hanswers, ?_, fun reading hbytes => Source.items_of_replies hbytes hline,
      fun r => hanswers.long_cases⟩
    rw [Store.serve, serve_of_isOpen _ _ _ Sink.isOpen_default]
    simp
  · intro key value hget hkey hvalue d conn hup hserver hnew
    rw [Dialogue.request_get hs.isClean hup hserver hnew hget hkey, Reply.awaited, Reply.render]
    exact if_pos hvalue
  · intro key value hget
    obtain ⟨hkey, hvalue⟩ := htext.size_le hget
    exact ⟨hkey, Nat.le_of_add_right_le hvalue⟩
  · intro src hsrc replies hanswers value hmem
    by_contra hlong
    rcases hanswers.long_cases hmem (Nat.lt_of_not_le hlong) with ⟨name, hname, -⟩ |
      ⟨i, key, v, hget, hvalue⟩
    · cases hname
    · cases hvalue
      exact hlong (htext.size_after_le hsrc hget)

/-- A client gets what another has set, and the sessions before it do not matter. -/
theorem replies_read_back_stored :
    let s := (Store.empty.serve ⟨[sentLine "SET k v"], .closed⟩ {}).state
    let d : Dialogue := ⟨.up, "127.0.0.1:7878", .node s, []⟩
    s.ReachedBy (fun _ => True) ∧ s.get? "k" = some "v" ∧
      (d.request 0 (Command.get "k").render).1 = .reply "v" := by
  intro s d
  have hs : s.ReachedBy fun _ => True := .serve {} .empty trivial
  have hitem : (Source.items ⟨[sentLine "SET k v"], .closed⟩).1 = [.line "SET k v"] := by decide
  have hstate : s = Store.empty.set "k" "v" := (Store.empty.serve_of_item hitem).1
  have hget : s.get? "k" = some "v" := by rw [hstate, Store.get?_set, if_pos rfl]
  refine ⟨hs, hget, ?_⟩
  exact (replies_read_back hs).2.1 "k" "v" hget (by decide) (by decide) d 0 rfl rfl rfl

/-! ## Replies that are too long -/

theorem Verb.ofName?_of_mem {name : String} (h : 'X' ∈ (upper name).toList) : ofName? name = none := by
  have hnot : ∀ verb ∈ [get, set, delete], ∀ n ∈ verb.names, 'X' ∉ n.toList := by decide
  rw [ofName?, List.find?_eq_none]
  intro verb hverb hnames
  exact hnot verb hverb _ (List.contains_iff_mem.mp hnames) h

/-- A name with an x in it is unknown, and it is quoted however long it is. -/
theorem Request.parse_unknown {name : String} (hname : IsToken name) (hx : 'x' ∈ name.toList) :
    parse name = .error (.unknownCommand name) := by
  have hupper : 'X' ∈ (upper name).toList := by
    rw [upper, String.toList_ofList]
    exact List.mem_map.mpr ⟨'x', hx, by decide⟩
  have hmarker : upper name ≠ marker := by
    intro he
    rw [he] at hupper
    exact absurd hupper (by decide)
  rw [parse, tokens_of_isToken hname, ofTokens_cons, if_neg hmarker, Command.ofTokens,
    Verb.ofName?_of_mem hupper]
  rfl

theorem Utf8.decode_invalid (n : Nat) :
    decode (List.replicate n 0xFF) = .ofList (List.replicate n replacement) := by
  have hpush (out : List Char) : Decoder.push ⟨out, none⟩ 0xFF = ⟨replacement :: out, none⟩ := rfl
  have hrun (out : List Char) : (List.replicate n (0xFF : UInt8)).foldl Decoder.push ⟨out, none⟩ =
      ⟨List.replicate n replacement ++ out, none⟩ := by
    induction n generalizing out with
    | zero => rfl
    | succ n ih =>
      rw [List.replicate_succ, List.foldl_cons, hpush, ih, List.replicate_succ', List.append_assoc,
        List.singleton_append]
  rw [decode, hrun]
  simp [Decoder.finish]

/-- Bytes that are no UTF-8 behind a text are read as replacements, three bytes for one. -/
theorem Source.items_of_invalid {s : String} {n : Nat} (hs : '\n' ∉ s.toList) (hn : 0 < n)
    (hfits : Utf8.size s + n ≤ maxLine)
    (hblank : isBlank (s ++ .ofList (List.replicate n Utf8.replacement)) = false) :
    (Source.items ⟨[Utf8.encode s ++ List.replicate n 0xFF], .closed⟩).1 =
      [.line (s ++ .ofList (List.replicate n Utf8.replacement))] := by
  have hnewline : newline ∉ Utf8.encode s ++ List.replicate n 0xFF := by
    rw [List.mem_append, List.mem_replicate]
    rintro (hm | ⟨-, hff⟩)
    · exact hs ((Utf8.mem_encode_ascii (a := '\n') (by decide)).mp hm)
    · exact absurd hff (by decide)
  have hreturn : carriageReturn ∉ List.replicate n 0xFF := by
    rw [List.mem_replicate]
    exact fun h => absurd h.2 (by decide)
  have hstrip := stripReturns_append (Utf8.encode s) (by simp [Nat.ne_of_gt hn]) hreturn
  have hdecode : Utf8.decode (Utf8.encode s ++ List.replicate n 0xFF) =
      s ++ .ofList (List.replicate n Utf8.replacement) := by
    rw [Utf8.decode_encode_append, Utf8.decode_invalid]
  have hpiece := Item.ofPiece?_of_stripped hstrip (by rwa [hdecode])
  rw [hdecode, if_pos (by rwa [List.length_append, List.length_replicate, ← Utf8.size])] at hpiece
  have hbytes : Source.bytes ⟨[Utf8.encode s ++ List.replicate n 0xFF], .closed⟩ =
      Utf8.encode s ++ List.replicate n 0xFF := List.append_nil _
  rw [Source.items_of_unterminated _ (by rwa [hbytes]) rfl, hbytes, hpiece]
  rfl

/-- The quotation of a name may be too long although the name itself is not. -/
theorem Source.items_of_long_quotation {name : String} (hname : IsToken name) (hx : 'x' ∈ name.toList)
    (hfits : Utf8.size name ≤ maxLine) (hlong : maxLine < 24 + Utf8.size name) {reading : Source}
    (hbytes : reading.bytes =
      (Store.empty.serve ⟨[sentLine name], .closed⟩ {}).sink.written.toList) :
    reading.items.1 = [.tooLong] := by
  have hitem := Source.items_of_isSpaced ⟨[sentLine name], .closed⟩ (s := name)
    (by simp [Source.bytes]) (by simp) hname.isSpaced (isBlank_of_isToken hname)
  rw [if_pos hfits] at hitem
  have hparse := Request.parse_unknown hname hx
  rw [(Store.empty.serve_of_item hitem).2, Store.empty.respond_of_rejected hparse] at hbytes
  have hheard : (Rejection.unknownCommand name).reply.heard = .tooLong := by
    rw [Reply.heard, Rejection.size_unknownCommand, if_neg (Nat.not_le_of_lt hlong)]
  have hread := Source.items_of_replies hbytes fun r hr => by
    rw [List.mem_singleton.mp hr]
    exact Rejection.isLine_reply hparse
  rw [hread, List.map_singleton, hheard]

/-- A value may be stored that is longer than any line. -/
theorem Store.exists_long_value :
    ∃ (s : Store) (value : String), s.ReachedBy (fun _ => True) ∧ s.get? "k" = some value ∧
      maxLine < Utf8.size value := by
  -- The length stays a variable, or the text itself would be computed.
  obtain ⟨n, hn⟩ : ∃ n, n = 21846 := ⟨_, rfl⟩
  obtain ⟨value, hvalue⟩ : ∃ value, value = String.ofList (List.replicate n Utf8.replacement) :=
    ⟨_, rfl⟩
  have htoken : IsToken value := hvalue ▸ isToken_replicate (by decide) (by omega)
  have hclean : (Command.set "k" value).IsClean := Command.isClean_set (by decide) htoken
  have hsize : Utf8.size value = n * 3 := by
    have hwidth : (Utf8.encodeChar Utf8.replacement).length = 3 := rfl
    rw [hvalue, Utf8.size_replicate, hwidth]
  let src : Source := ⟨[Utf8.encode "SET k " ++ List.replicate n 0xFF], .closed⟩
  have hitem : src.items.1 = [.line (Command.set "k" value).render] := by
    have hfits : Utf8.size "SET k " + n ≤ maxLine := by
      have hname : Utf8.size "SET k " = 6 := by decide
      unfold maxLine
      omega
    have hrender : (Command.set "k" value).render = "SET k " ++ value := rfl
    rw [hrender, hvalue]
    apply Source.items_of_invalid (by decide) (by omega) hfits
    rw [← hvalue, ← hrender]
    exact Command.isBlank_render hclean
  refine ⟨(Store.empty.serve src {}).state, value, .serve {} .empty trivial, ?_, ?_⟩
  · rw [(Store.empty.serve_of_item hitem).1,
      Store.empty.respond_of_parse (Request.parse_render hclean)]
    exact (Store.get?_set .empty "k" value "k").trans (if_pos rfl)
  · unfold maxLine
    omega

/-- A name of 65513 bytes fits a line, but its quotation does not. A value of 21846 bytes that
are no UTF-8 fits one too, and is stored with three bytes for each of them. -/
theorem replies_not_read_back :
    (¬ ∀ (s : Store) (src reading : Source), s.ReachedBy (fun _ => True) →
      reading.bytes = (s.serve src {}).sink.written.toList → .tooLong ∉ reading.items.1) ∧
      ¬ ∀ (s : Store) (key value : String), s.ReachedBy (fun _ => True) →
        s.get? key = some value → ∀ (d : Dialogue) (conn : Nat), d.network = .up →
          d.server = .node s → d.inboxes.find? conn = none →
          (d.request conn (Command.get key).render).1 = .reply value := by
  constructor
  · intro hall
    obtain ⟨n, hn⟩ : ∃ n, n = 65513 := ⟨_, rfl⟩
    obtain ⟨name, hname⟩ : ∃ name, name = String.ofList (List.replicate n 'x') := ⟨_, rfl⟩
    have htoken : IsToken name := hname ▸ isToken_replicate (by decide) (by omega)
    have hx : 'x' ∈ name.toList := by
      rw [hname, String.toList_ofList]
      exact List.mem_replicate.mpr ⟨by omega, rfl⟩
    have hsize : Utf8.size name = n := by
      have hwidth : (Utf8.encodeChar 'x').length = 1 := rfl
      rw [hname, Utf8.size_replicate, hwidth, Nat.mul_one]
    let src : Source := ⟨[sentLine name], .closed⟩
    let reading : Source := ⟨[(Store.empty.serve src {}).sink.written.toList], .closed⟩
    have hbytes : reading.bytes = (Store.empty.serve src {}).sink.written.toList := List.append_nil _
    apply hall Store.empty src reading .empty hbytes
    rw [Source.items_of_long_quotation htoken hx _ _ hbytes]
    · exact List.mem_singleton_self _
    · unfold maxLine
      omega
    · unfold maxLine
      omega
  · intro hall
    obtain ⟨s, value, hs, hget, hlong⟩ := Store.exists_long_value
    let d : Dialogue := ⟨.up, "127.0.0.1:7878", .node s, []⟩
    have hreply := hall s "k" value hs hget d 0 rfl rfl rfl
    rw [Dialogue.request_get hs.isClean rfl rfl rfl hget (by decide), Reply.awaited, Reply.render,
      if_neg (Nat.not_le_of_lt hlong)] at hreply
    cases hreply

end RelayStore
