import RelayStore.Proofs.Request.Accepted
import RelayStore.Proofs.Session.Transcript
import RelayStore.Proofs.Store.Clean

/-! # What a session says and leaves

The items that are read decide a session that can always write. Each of them has one reply,
made at the store that the commands before it have left, and the store at the end is that of
all commands. Replies are lines in the words of the node, or values that were stored before.
-/
namespace RelayStore
open Text

namespace Store

def after (s : Store) (items : List Item) : Store :=
  (items.filterMap Request.ofItem?).foldl (fun s r => s.apply r.command) s

/-- Replies to some items, each made at the store after the items before it. -/
structure Answers (s : Store) (items : List Item) (replies : List Reply) : Prop where
  length : replies.length = items.length
  each : ∀ i item, items[i]? = some item →
    replies[i]? = some (respond reply (s.after (items.take i)) item).2

/-! ## The store -/

theorem after_append (s : Store) (items more : List Item) :
    s.after (items ++ more) = (s.after items).after more := by
  simp only [after, List.filterMap_append, List.foldl_append]

theorem after_cons (s : Store) (item : Item) (items : List Item) :
    s.after (item :: items) = (s.after [item]).after items :=
  s.after_append [item] items

theorem after_of_not_taken (s : Store) {item : Item} (h : Request.ofItem? item = none) :
    s.after [item] = s := by
  simp only [after, List.filterMap_cons, h, List.filterMap_nil, List.foldl_nil]

theorem after_of_taken (s : Store) {item : Item} {r : Request} (h : Request.ofItem? item = some r) :
    s.after [item] = s.apply r.command := by
  simp only [after, List.filterMap_cons, h, List.filterMap_nil, List.foldl_cons, List.foldl_nil]

theorem ofItem?_of_parse {text : String} {r : Request} (h : Request.parse text = .ok r) :
    Request.ofItem? (.line text) = some r := by
  rw [Request.ofItem?, h]
  rfl

theorem ofItem?_of_rejected {text : String} {e : Rejection} (h : Request.parse text = .error e) :
    Request.ofItem? (.line text) = none := by
  rw [Request.ofItem?, h]
  rfl

theorem respond_of_parse (s : Store) {text : String} {r : Request} (h : Request.parse text = .ok r) :
    respond reply s (.line text) = (s.apply r.command, s.replyTo r.command) := by
  simp only [respond, reply, answer, h]

theorem respond_of_rejected (s : Store) {text : String} {e : Rejection}
    (h : Request.parse text = .error e) : respond reply s (.line text) = (s, e.reply) := by
  simp only [respond, reply, answer, h]

theorem respond_fst (s : Store) (item : Item) : (respond reply s item).1 = s.after [item] := by
  cases item with
  | tooLong => rfl
  | line text =>
    cases hparse : Request.parse text with
    | error e => rw [s.respond_of_rejected hparse, s.after_of_not_taken (ofItem?_of_rejected hparse)]
    | ok r => rw [s.respond_of_parse hparse, s.after_of_taken (ofItem?_of_parse hparse)]

theorem transcript_fst (s : Store) (items : List Item) :
    (transcript reply s items).1 = s.after items := by
  induction items generalizing s with
  | nil => rfl
  | cons item items ih =>
    rw [after_cons, ← respond_fst, ← ih]
    rfl

theorem answers_transcript (s : Store) (items : List Item) :
    s.Answers items (transcript reply s items).2 where
  length := length_transcript reply s items
  each i item hitem := by
    rw [getElem?_transcript, hitem, transcript_fst]
    rfl

/-- What a store holds after some items, it held before or was given by one of the lines. -/
theorem get?_after_eq_some {s : Store} {items : List Item} {key value : String}
    (h : (s.after items).get? key = some value) :
    s.get? key = some value ∨
      ∃ text r, .line text ∈ items ∧ Request.parse text = .ok r ∧ r.command = .set key value := by
  induction items using List.reverseRecOn with
  | nil => exact .inl h
  | append_singleton items item ih =>
    have hearlier (h : (s.after items).get? key = some value) :
        s.get? key = some value ∨ ∃ text r, .line text ∈ items ++ [item] ∧
          Request.parse text = .ok r ∧ r.command = .set key value := by
      rcases ih h with h | ⟨text, r, hmem, hr⟩
      · exact .inl h
      · exact .inr ⟨text, r, List.mem_append_left _ hmem, hr⟩
    rw [after_append] at h
    cases hitem : Request.ofItem? item with
    | none =>
      rw [after_of_not_taken _ hitem] at h
      exact hearlier h
    | some r =>
      rw [after_of_taken _ hitem] at h
      rcases get?_apply_eq_some h with h | hset
      · exact hearlier h
      · cases item with
        | tooLong => cases hitem
        | line text =>
          refine .inr ⟨text, r, by simp, ?_, hset⟩
          cases hparse : Request.parse text with
          | error e =>
            rw [ofItem?_of_rejected hparse] at hitem
            cases hitem
          | ok r' =>
            rw [ofItem?_of_parse hparse] at hitem
            rw [Option.some.inj hitem]

theorem isToken_of_set {text key value : String} {r : Request} (hparse : Request.parse text = .ok r)
    (hset : r.command = .set key value) : IsToken key ∧ IsToken value := by
  have hclean := Request.isClean_of_parse hparse
  rw [hset] at hclean
  exact ⟨hclean key (by simp [Command.arguments]), hclean value (by simp [Command.arguments])⟩

theorem IsClean.after {s : Store} (h : s.IsClean) (items : List Item) : (s.after items).IsClean := by
  intro key value hget
  rcases get?_after_eq_some hget with hget | ⟨text, r, -, hparse, hset⟩
  · exact h key value hget
  · exact isToken_of_set hparse hset

/-! ## The replies -/

theorem replyTo_cases (s : Store) (c : Command) :
    s.replyTo c = .done ∨ s.replyTo c = .absent ∨
      ∃ key value, s.get? key = some value ∧ s.replyTo c = .value value := by
  cases c with
  | get key =>
    cases hget : s.get? key with
    | none => exact .inr (.inl (by simp only [replyTo, hget]))
    | some value => exact .inr (.inr ⟨key, value, hget, by simp only [replyTo, hget]⟩)
  | set key value => exact .inl rfl
  | delete key => exact .inl rfl

end Store

theorem Request.tokens_of_empty {text : String} (h : parse text = .error .empty) :
    tokens text = [] := by
  have hcommand (name : String) (args : List String) : Command.ofTokens name args ≠ .error .empty := by
    intro he
    rcases Command.ofTokens_eq_error he with he | ⟨verb, he⟩ <;> cases he
  cases htokens : tokens text with
  | nil => rfl
  | cons first rest =>
    rw [parse, htokens, ofTokens_cons] at h
    split at h
    · cases rest with
      | nil => cases h
      | cons name args => exact absurd (map_eq_error_iff.mp h) (hcommand name args)
    · exact absurd (map_eq_error_iff.mp h) (hcommand first rest)

/-- A line that is not blank is never called an empty command. -/
theorem Rejection.render_ne_empty {text : String} {e : Rejection}
    (hparse : Request.parse text = .error e) (hblank : isBlank text = false) :
    e.reply.render ≠ "ERROR empty command" := by
  rcases Request.parse_eq_error hparse with rfl | rfl | ⟨name, -, rfl⟩ | ⟨verb, rfl⟩
  · rw [tokens_eq_nil_iff.mp (Request.tokens_of_empty hparse)] at hblank
    cases hblank
  · decide
  · intro h
    have hlist := congrArg String.toList h
    simp [reply, Reply.render, message_unknownCommand] at hlist
  · cases verb <;> decide

/-- A reply in the node's own words, which are one line and never speak of an empty command. -/
structure Reply.IsProper (r : Reply) : Prop where
  isLine : r.IsLine
  ne_empty : r.render ≠ "ERROR empty command"

theorem Reply.isProper_value {v : String} (h : IsToken v) : (value v).IsProper where
  isLine := isLine_value h
  ne_empty := by
    rintro rfl
    exact absurd h (by decide)

namespace Store

/-- Every reply is proper, unless it is a value that the store holds. -/
theorem respond_cases (s : Store) {item : Item} (h : ∀ text, item = .line text → isBlank text = false) :
    (respond reply s item).2.IsProper ∨
      ∃ key value, s.get? key = some value ∧ (respond reply s item).2 = .value value := by
  cases item with
  | tooLong => exact .inl ⟨Reply.isLine_tooLong, (by decide +kernel : tooLongReply.render ≠ _)⟩
  | line text =>
    cases hparse : Request.parse text with
    | error e =>
      rw [s.respond_of_rejected hparse]
      exact .inl ⟨Rejection.isLine_reply hparse, Rejection.render_ne_empty hparse (h text rfl)⟩
    | ok r =>
      rw [s.respond_of_parse hparse]
      dsimp only
      rcases s.replyTo_cases r.command with hr | hr | hvalue
      · rw [hr]
        exact .inl ⟨by decide, by decide⟩
      · rw [hr]
        exact .inl ⟨by decide, by decide⟩
      · exact .inr hvalue

theorem IsClean.isLine_respond {s : Store} (hs : s.IsClean) (item : Item) :
    (respond reply s item).2.IsLine := by
  cases item with
  | tooLong => exact Reply.isLine_tooLong
  | line text =>
    cases hparse : Request.parse text with
    | error e =>
      rw [s.respond_of_rejected hparse]
      exact Rejection.isLine_reply hparse
    | ok r =>
      rw [s.respond_of_parse hparse]
      exact hs.isLine_replyTo r.command

theorem Answers.exists_item {s : Store} {items : List Item} {replies : List Reply}
    (h : s.Answers items replies) {r : Reply} (hr : r ∈ replies) :
    ∃ i, ∃ item ∈ items, r = (respond reply (s.after (items.take i)) item).2 := by
  obtain ⟨i, hi⟩ := List.mem_iff_getElem?.mp hr
  have hlt : i < items.length := by
    rw [← h.length]
    exact (List.getElem?_eq_some_iff.mp hi).1
  have hitem := List.getElem?_eq_getElem hlt
  exact ⟨i, items[i], List.getElem_mem hlt, Option.some.inj (hi.symm.trans (h.each i _ hitem))⟩

theorem Answers.isProper_or {s : Store} {items : List Item} {replies : List Reply}
    (h : s.Answers items replies) (hblank : ∀ text, .line text ∈ items → isBlank text = false)
    {r : Reply} (hr : r ∈ replies) :
    r.IsProper ∨ ∃ key value, s.get? key = some value ∧ r = .value value := by
  obtain ⟨i, item, hmem, rfl⟩ := h.exists_item hr
  have hline : ∀ text, item = .line text → isBlank text = false := fun text he => hblank text (he ▸ hmem)
  rcases respond_cases (s.after (items.take i)) hline with hproper | ⟨key, value, hget, hvalue⟩
  · exact .inl hproper
  · rw [hvalue]
    rcases get?_after_eq_some hget with hget | ⟨text, r', -, hparse, hset⟩
    · exact .inr ⟨key, value, hget, rfl⟩
    · exact .inl (Reply.isProper_value (isToken_of_set hparse hset).2)

end Store

/-- Cutting what is written at its newlines gives back the replies, and nothing is behind the last. -/
theorem Reply.splitOn_bytes {replies : List Reply} (h : ∀ r ∈ replies, '\n' ∉ r.render.toList) :
    (bytes replies).splitOn newline = replies.map (fun r => Utf8.encode r.render) ++ [[]] := by
  induction replies with
  | nil => rfl
  | cons r replies ih =>
    obtain ⟨hr, hreplies⟩ := List.forall_mem_cons.mp h
    have hnot : newline ∉ Utf8.encode r.render := fun hm =>
      hr ((Utf8.mem_encode_ascii (a := '\n') (by decide)).mp hm)
    have hcons : bytes (r :: replies) = Utf8.encode r.render ++ newline :: bytes replies := by
      simp [bytes, sentLine]
    rw [hcons, List.splitOn_append_cons_self, List.splitOn_eq_singleton hnot, ih hreplies]
    rfl

/-! ## The course of a session -/

theorem Item.ofPiece?_ne_none_iff (piece : Bytes) :
    ofPiece? piece ≠ none ↔ maxLine + 1 < piece.length ∨ maxLine < (stripReturns piece).length ∨
      isBlank (Utf8.decode (stripReturns piece)) = false := by
  rw [← or_assoc]
  unfold ofPiece?
  dsimp only
  by_cases hlong : maxLine + 1 < piece.length ∨ maxLine < (stripReturns piece).length
  · rw [if_pos hlong]
    exact iff_of_true (by simp) (.inl hlong)
  · rw [if_neg hlong, or_iff_right hlong]
    cases hblank : isBlank (Utf8.decode (stripReturns piece)) <;> simp

/-- A session that can always write answers each piece of its stream that is too long or not
blank, with one line each and in order. Each reply is made at the store that the commands
before it have left, the store at the end is that of all of them, and the session ends as the
stream does. Every reply is one line, unless it is a stored value that was none. -/
theorem session_eq_fold (s : Store) (src : Source) {sink : Sink} (hsink : sink.IsOpen)
    (hend : src.ending ≠ .failing .interrupted) :
    let read := splitItems src.bytes src.ending
    ∃ replies, s.Answers read.1 replies ∧
      (s.serve src sink).sink.written = sink.written ++ (Reply.bytes replies).toArray ∧
      (s.serve src sink).state = s.after read.1 ∧ (s.serve src sink).finish = read.2 ∧
      (∀ piece, Item.ofPiece? piece ≠ none ↔ maxLine + 1 < piece.length ∨
        maxLine < (stripReturns piece).length ∨
        isBlank (Utf8.decode (stripReturns piece)) = false) ∧
      (∀ (state : Store) (item : Item), Request.ofItem? item = none → state.after [item] = state) ∧
      (∀ r ∈ replies, r ≠ Rejection.empty.reply ∧
        ('\n' ∈ r.render.toList ∨ r.render = "ERROR empty command" →
          ∃ key value, s.get? key = some value ∧ r = .value value)) ∧
      ((∀ key value, s.get? key = some value → '\n' ∉ value.toList) →
        (Reply.bytes replies).splitOn newline =
          replies.map (fun r => Utf8.encode r.render) ++ [[]]) := by
  intro read
  have hread : src.items = read := src.items_eq hend
  have hserve : s.serve src sink = _ := serve_of_isOpen Store.reply s src hsink
  rw [hread, Store.transcript_fst] at hserve
  have hanswers := s.answers_transcript read.1
  have hblank : ∀ text, .line text ∈ read.1 → isBlank text = false :=
    fun text hmem => (Source.line_spec (hread ▸ hmem)).2
  refine ⟨_, hanswers, by rw [hserve], by rw [hserve], by rw [hserve], Item.ofPiece?_ne_none_iff,
    fun state _ => state.after_of_not_taken, fun r hr => ⟨?_, ?_⟩, fun hstored => ?_⟩
  · rintro rfl
    rcases hanswers.isProper_or hblank hr with hline | ⟨key, value, -, hvalue⟩
    · exact hline.ne_empty (by decide)
    · cases hvalue
  · intro hodd
    rcases hanswers.isProper_or hblank hr with hline | hvalue
    · exact hodd.elim (fun hnl => absurd hnl hline.isLine.1.newline_not_mem)
        fun hempty => absurd hempty hline.ne_empty
    · exact hvalue
  · apply Reply.splitOn_bytes
    intro r hr
    rcases hanswers.isProper_or hblank hr with hline | ⟨key, value, hget, rfl⟩
    · exact hline.isLine.1.newline_not_mem
    · exact hstored key value hget

/-- A read that fails with a fault of no special kind ends the session with that fault. The line
that it cuts short is not executed, and a sink that takes one byte at a time gets all replies. -/
theorem session_eq_fold_invalid :
    let src : Source := ⟨[Utf8.encode "SET k v\n\r\nFROB\nDEL", Utf8.encode "ETE k"],
      .failing (.other "InvalidData")⟩
    let sink : Sink := { chunk := some 1 }
    sink.IsOpen ∧ src.ending ≠ .failing .interrupted ∧
      (Store.empty.serve src sink).finish = .failed (.other "InvalidData") ∧
      (Store.empty.serve src sink).state = Store.empty.set "k" "v" ∧
      (Store.empty.serve src sink).sink.written.toList =
        Utf8.encode "OK\nERROR invalid command 'FROB'\n" := by
  intro src sink
  have hsink : sink.IsOpen := ⟨by simp [sink], rfl, rfl⟩
  have hend : src.ending ≠ .failing .interrupted := by decide
  have hread : splitItems src.bytes src.ending =
      ([.line "SET k v", .line "FROB"], .failed (.other "InvalidData")) := by decide
  obtain ⟨replies, hanswers, hwritten, hstate, hfinish, -⟩ :=
    session_eq_fold Store.empty src hsink hend
  rw [hread] at hanswers hstate hfinish
  have hreplies : replies = [.done, .error "invalid command 'FROB'"] := by
    have hlength := hanswers.length
    have hfirst := hanswers.each 0 _ rfl
    have hsecond := hanswers.each 1 _ rfl
    match replies, hlength with
    | [first, second], _ =>
      cases hfirst
      cases hsecond
      decide
  refine ⟨hsink, hend, hfinish, hstate, ?_⟩
  rw [hwritten, hreplies]
  decide

/-- A store that was filled before the session may hold any value, and a request for it is answered
by the value as it is: by two lines if it has two, and like an error if it reads like one. -/
theorem session_two_lines :
    let src : Source := ⟨[Utf8.encode "GET k\n"], .closed⟩
    let written (s : Store) (src : Source) : Bytes := (s.serve src {}).sink.written.toList
    (splitItems src.bytes src.ending).1 = [.line "GET k"] ∧
      (∀ value, written (Store.empty.set "k" value) src = sentLine value) ∧
      (¬ ∀ (s : Store) (src : Source), src.ending ≠ .failing .interrupted →
        (written s src).count newline = (splitItems src.bytes src.ending).1.length) ∧
      ¬ ∀ (s : Store) (src : Source), src.ending ≠ .failing .interrupted →
        Utf8.encode "ERROR empty command" ∉ (written s src).splitOn newline := by
  intro src written
  have hitems : (splitItems src.bytes src.ending).1 = [.line "GET k"] := by decide
  have hend : src.ending ≠ .failing .interrupted := by decide
  have hwritten (value : String) : written (Store.empty.set "k" value) src = sentLine value := by
    have hparse : Request.parse "GET k" = .ok ⟨.client, .get "k"⟩ := by decide
    have hget : (Store.empty.set "k" value).get? "k" = some value :=
      (Store.get?_set .empty "k" value "k").trans (if_pos rfl)
    have hserve := serve_of_isOpen Store.reply (Store.empty.set "k" value) src Sink.isOpen_default
    rw [src.items_eq hend, hitems] at hserve
    simp [written, Store.serve, hserve, transcript, Store.respond_of_parse _ hparse, Store.replyTo, hget,
      Reply.bytes, Reply.render]
  refine ⟨hitems, hwritten, fun hall => ?_, fun hall => ?_⟩
  · have hcount := hall (Store.empty.set "k" "a\nb") src hend
    rw [hwritten, hitems] at hcount
    exact absurd hcount (by decide)
  · have hnone := hall (Store.empty.set "k" "ERROR empty command") src hend
    rw [hwritten] at hnone
    exact hnone (by decide)

end RelayStore
