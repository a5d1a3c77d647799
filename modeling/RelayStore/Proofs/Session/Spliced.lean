import RelayStore.Proofs.Cluster.Absence
import RelayStore.Proofs.Line.Roundtrip
import RelayStore.Proofs.Request.Reparsed
import RelayStore.Proofs.Session.Pairing

/-! # Texts that are spliced into a line

A client that sets a key puts the key and the value into one line as they are. It is answered to the
first line that this makes, whatever else follows, and what the node takes as key and value are two
tokens of that line. If both texts are tokens, they are the ones that are taken. If not, the client
may be told `OK` although something else is stored, or although its next reply belongs to what
followed the first line.
-/
namespace RelayStore
open Text

/-! ## The first line of a text -/

def Text.firstLine (s : String) : String :=
  (pieces s).headD ""

namespace Text
variable {s t : String}

theorem exists_pieces_eq (s : String) : ∃ rest, pieces s = firstLine s :: rest := by
  obtain ⟨p, ps, hps⟩ := List.exists_cons_of_ne_nil (List.splitOn_ne_nil '\n' s.toList)
  exact ⟨ps.map .ofList, by rw [firstLine, pieces, hps]; rfl⟩

theorem newline_not_mem_firstLine (s : String) : '\n' ∉ (firstLine s).toList := by
  obtain ⟨rest, hrest⟩ := exists_pieces_eq s
  obtain ⟨cs, hcs, hline⟩ := List.mem_map.mp (hrest ▸ List.mem_cons_self : firstLine s ∈ pieces s)
  rw [← hline, String.toList_ofList]
  exact not_mem_of_mem_splitOn hcs

theorem firstLine_of_not_mem (h : '\n' ∉ s.toList) : firstLine s = s := by
  rw [firstLine, pieces_of_not_mem h, List.headD_cons]

theorem firstLine_append (h : '\n' ∉ s.toList) (t : String) : firstLine (s ++ t) = s ++ firstLine t := by
  obtain ⟨p, ps, hps⟩ := List.exists_cons_of_ne_nil (List.splitOn_ne_nil '\n' t.toList)
  rw [firstLine, firstLine, pieces, pieces, String.toList_append, splitOn_append_of_not_mem h, hps]
  simp

theorem firstLine_spaced (hs : '\n' ∉ s.toList) (ht : '\n' ∉ t.toList) :
    firstLine (s ++ " " ++ t) = s ++ " " ++ t := by
  have hspace : '\n' ∉ " ".toList := by decide
  apply firstLine_of_not_mem
  simp only [String.toList_append, List.mem_append, not_or]
  exact ⟨⟨hs, hspace⟩, ht⟩

end Text

/-- What is read of a text starts with what is read of its first line. -/
theorem exists_sentItems_eq {s : String} (h : isBlank (firstLine s) = false) :
    ∃ more, sentItems s =
      (if FitsLine (firstLine s) then .line (dropReturns (firstLine s)) else .tooLong) :: more := by
  obtain ⟨rest, hrest⟩ := exists_pieces_eq s
  exact ⟨rest.filterMap Item.ofText?, by
    rw [sentItems, hrest, List.filterMap_cons, Item.ofText?_of_not_isBlank h]⟩

theorem sentItems_firstLine {s : String} (h : isBlank (firstLine s) = false) :
    sentItems (firstLine s) =
      [if FitsLine (firstLine s) then .line (dropReturns (firstLine s)) else .tooLong] := by
  rw [sentItems, pieces_of_not_mem (newline_not_mem_firstLine s), List.filterMap_cons,
    Item.ofText?_of_not_isBlank h]
  rfl

/-! ## The first line of a written command -/

section FirstLine
variable {key value : String}

theorem firstLine_set (key value : String) :
    firstLine (Command.set key value).render = "SET" ++ " " ++ firstLine (key ++ " " ++ value) := by
  have hname : '\n' ∉ ("SET" ++ " ").toList := by decide
  rw [← firstLine_append hname, Command.render_set]
  simp only [String.append_assoc]

theorem firstLine_set_of_not_mem (hkey : '\n' ∉ key.toList) (hvalue : '\n' ∉ value.toList) :
    firstLine (Command.set key value).render = (Command.set key value).render := by
  rw [firstLine_set, firstLine_spaced hkey hvalue, Command.render_set]
  simp only [String.append_assoc]

theorem tokens_firstLine_set (key value : String) :
    tokens (firstLine (Command.set key value).render) =
      "SET" :: tokens (firstLine (key ++ " " ++ value)) := by
  have hname : tokens "SET" = ["SET"] := by decide
  rw [firstLine_set, tokens_spaced, hname, List.singleton_append]

theorem parse_firstLine_set (key value : String) :
    Request.parse (dropReturns (firstLine (Command.set key value).render)) =
      (Command.ofTokens "SET" (tokens (firstLine (key ++ " " ++ value)))).map fun c => ⟨.client, c⟩ := by
  rw [Request.parse, tokens_dropReturns, tokens_firstLine_set]
  exact Request.ofTokens_of_leads ((Command.set key value).leads_name _)

theorem isBlank_firstLine_set (key value : String) :
    isBlank (firstLine (Command.set key value).render) = false :=
  isBlank_of_tokens (tokens_firstLine_set key value)

/-- The first line is taken: it fits and has two arguments. -/
structure Command.SetTaken (key value : String) : Prop where
  fits : FitsLine (firstLine (set key value).render)
  two : (tokens (firstLine (key ++ " " ++ value))).length = 2

/-- Its two arguments are set, whatever the lines behind it then do. -/
theorem Command.SetTaken.exists_items (h : SetTaken key value) :
    ∃ line a b more, tokens (firstLine (key ++ " " ++ value)) = [a, b] ∧
      Request.parse line = .ok ⟨.client, .set a b⟩ ∧
      sentItems (firstLine (set key value).render) = [.line line] ∧
      sentItems (set key value).render = .line line :: more := by
  obtain ⟨a, b, hargs⟩ := List.length_eq_two.mp h.two
  obtain ⟨more, hmore⟩ := exists_sentItems_eq (isBlank_firstLine_set key value)
  have hfirst := sentItems_firstLine (isBlank_firstLine_set key value)
  rw [if_pos h.fits] at hmore hfirst
  refine ⟨_, a, b, more, hargs, ?_, hfirst, hmore⟩
  rw [parse_firstLine_set, hargs]
  exact congrArg (Except.map _) (ofTokens_name (set a b))

theorem Command.setTaken_of_isToken (hkey : IsToken key) (hvalue : IsToken value)
    (hsize : Utf8.size key + Utf8.size value ≤ 65531) : SetTaken key value := by
  have hrest := firstLine_spaced hkey.isSpaced.newline_not_mem hvalue.isSpaced.newline_not_mem
  have hwhole := firstLine_set_of_not_mem hkey.isSpaced.newline_not_mem hvalue.isSpaced.newline_not_mem
  have hlength : Utf8.size (set key value).render = Utf8.size key + Utf8.size value + 5 := by
    have hname : Utf8.size "SET " = 4 := by decide
    have hspace : Utf8.size " " = 1 := by decide
    simp only [render, Utf8.size_append, hname, hspace]
    omega
  constructor
  · rw [hwhole, (isSpaced_render (isClean_set hkey hvalue)).fitsLine_iff, hlength]
    unfold maxLine
    omega
  · rw [hrest, tokens_spaced, tokens_of_isToken hkey, tokens_of_isToken hvalue]
    rfl

/-- A node that has had the first line only. -/
theorem Command.SetTaken.exists_reached (h : SetTaken key value) {a b : String}
    (hargs : tokens (firstLine (key ++ " " ++ value)) = [a, b]) :
    ∃ s : Store, s.ReachedBy (fun _ => True) ∧ s.get? a = some b := by
  obtain ⟨line, a', b', -, hargs', hparse, hfirst, -⟩ := h.exists_items
  rw [hargs] at hargs'
  cases hargs'
  let src : Source := ⟨[sentLine (firstLine (set key value).render)], .closed⟩
  have hitem : src.items.1 = [.line line] := by
    rw [src.items_of_sentLine (List.append_nil _) (by simp [src])]
    exact hfirst
  refine ⟨(Store.empty.serve src {}).state, .serve {} .empty trivial, ?_⟩
  rw [(Store.empty.serve_of_item hitem).1, Store.empty.respond_of_parse hparse]
  exact (Store.get?_set .empty a b a).trans (if_pos rfl)

/-- A first line that is not taken has an error as its reply and changes nothing. -/
theorem Command.exists_items_of_not_setTaken (h : ¬ SetTaken key value) :
    ∃ item more, sentItems (set key value).render = item :: more ∧
      ∀ s : Store, respond Store.reply s item = (s, .error
        (if FitsLine (firstLine (set key value).render) then Verb.set.usage
          else (Rejection.lineTooLong maxLine).message)) := by
  obtain ⟨more, hmore⟩ := exists_sentItems_eq (isBlank_firstLine_set key value)
  refine ⟨_, more, hmore, fun s => ?_⟩
  by_cases hfits : FitsLine (firstLine (set key value).render)
  · have harity : (tokens (firstLine (key ++ " " ++ value))).length ≠ Verb.set.arity :=
      fun htwo => h ⟨hfits, htwo⟩
    have hrejected : ofTokens "SET" (tokens (firstLine (key ++ " " ++ value))) =
        .error (.wrongArity Verb.set.usage) :=
      ofTokens_eq_wrongArity_iff.mpr ⟨.set, (set key value).isNamed_name, harity, rfl⟩
    have hparse := parse_firstLine_set key value
    rw [hrejected] at hparse
    rw [if_pos hfits, if_pos hfits]
    exact s.respond_of_rejected hparse
  · rw [if_neg hfits, if_neg hfits]
    rfl

end FirstLine

/-! ## Setting and getting -/

namespace Dialogue
variable {s : Store} {d : Dialogue} {conn : Nat} {key value : String}

/-- A connection that is still to be opened, to a node with this store. -/
structure IsFresh (d : Dialogue) (conn : Nat) (s : Store) : Prop where
  network : d.network = .up
  server : d.server = .node s
  isNew : d.inboxes.find? conn = none

/-- A client that is told `OK` has set its key and changed nothing else, and gets the value back. -/
def StoresOrFails (key value : String) : Prop :=
  ∀ (s : Store) (d : Dialogue) (conn : Nat), s.ReachedBy (fun _ => True) → d.IsFresh conn s →
    (d.set conn key value).1 = .reply "OK" →
      (∃ t, (d.set conn key value).2.server = .node t ∧ ∀ k ≠ key, t.get? k = s.get? k) ∧
        ((d.set conn key value).2.get conn key).1 = .reply value

theorem exists_isFresh (s : Store) : ∃ d : Dialogue, d.IsFresh 0 s :=
  ⟨⟨.up, "", .node s, []⟩, rfl, rfl, rfl⟩

theorem IsFresh.paired (h : d.IsFresh conn s) : Paired s conn [] d :=
  ⟨h.network, h.server, Nat.le_refl _, by rw [h.isNew]; rfl⟩

/-- The first request over a connection comes to the reply to its first line. -/
theorem IsFresh.request (h : d.IsFresh conn s) (hs : s.IsClean) {text : String} {item : Item}
    {more : List Item} (hitems : sentItems text = item :: more) :
    (d.request conn text).1 = (respond Store.reply s item).2.awaited ∧
      Paired s conn [text] (d.request conn text).2 := by
  have hr : (s.replies (([] ++ [text]).flatMap sentItems))[([] : List String).length]? =
      some (respond Store.reply s item).2 := by
    simp [hitems, Store.replies_cons]
  exact h.paired.request hs hr

theorem awaited_done : Reply.done.awaited = .reply "OK" := by decide

theorem awaited_usage : (Reply.error Verb.set.usage).awaited =
    .reply "ERROR SET requires exactly two arguments: SET <key> <value>" := by
  decide +kernel

theorem awaited_tooLong : (Reply.error (Rejection.lineTooLong maxLine).message).awaited =
    .reply "ERROR line too long (limit 65536 bytes)" := by
  decide +kernel

/-- What the client is told that sets a key. -/
theorem IsFresh.set_fst (h : d.IsFresh conn s) (hs : s.IsClean) (key value : String) :
    (d.set conn key value).1 = .reply
      (if ¬ FitsLine (firstLine (Command.set key value).render) then
        "ERROR line too long (limit 65536 bytes)"
      else if (tokens (firstLine (key ++ " " ++ value))).length = 2 then "OK"
      else "ERROR SET requires exactly two arguments: SET <key> <value>") := by
  by_cases htaken : Command.SetTaken key value
  · obtain ⟨line, a, b, more, -, hparse, -, hitems⟩ := htaken.exists_items
    rw [set, (h.request hs hitems).1, s.respond_of_parse hparse, if_neg (not_not.mpr htaken.fits),
      if_pos htaken.two]
    exact awaited_done
  · obtain ⟨item, more, hitems, hrespond⟩ := Command.exists_items_of_not_setTaken htaken
    rw [set, (h.request hs hitems).1, hrespond]
    by_cases hfits : FitsLine (firstLine (Command.set key value).render)
    · rw [if_pos hfits, if_neg (not_not.mpr hfits), if_neg fun htwo => htaken ⟨hfits, htwo⟩]
      exact awaited_usage
    · rw [if_neg hfits, if_pos hfits]
      exact awaited_tooLong

theorem IsFresh.set_eq_ok_iff (h : d.IsFresh conn s) (hs : s.IsClean) :
    (d.set conn key value).1 = .reply "OK" ↔ Command.SetTaken key value := by
  rw [h.set_fst hs]
  constructor
  · intro hok
    split at hok
    · exact absurd hok (by decide)
    split at hok
    · next hfits htwo => exact ⟨not_not.mp hfits, htwo⟩
    · exact absurd hok (by decide)
  · intro htaken
    rw [if_neg (not_not.mpr htaken.fits), if_pos htaken.two]

theorem sentItems_get (hkey : IsToken key) (hsize : Utf8.size key + 4 ≤ maxLine) :
    sentItems (Command.get key).render = [.line (Command.get key).render] := by
  have hclean : (Command.get key).IsClean := List.forall_mem_singleton.mpr hkey
  have hspaced := Command.isSpaced_render hclean
  have hname : Utf8.size "GET " = 4 := by decide
  apply sentItems_of_isOneLine
  refine ⟨hspaced.newline_not_mem, fun hlast => ?_, Command.isBlank_render hclean, ?_⟩
  · exact hspaced.return_not_mem (List.mem_of_getLast? hlast)
  · rw [Command.render, Utf8.size_append, hname, Nat.add_comm]
    exact hsize

/-- What the client gets behind setting a key is the second reply to all that it has sent. -/
theorem IsFresh.get_of_set (h : d.IsFresh conn s) (hs : s.IsClean) {key' : String} {r : Reply}
    (hr : (s.replies (sentItems (Command.set key value).render ++
      sentItems (Command.get key').render))[1]? = some r) :
    ((d.set conn key value).2.get conn key').1 = r.awaited := by
  obtain ⟨more, hmore⟩ := exists_sentItems_eq (isBlank_firstLine_set key value)
  obtain ⟨-, hpaired⟩ := h.request hs hmore
  exact (hpaired.request hs (by simpa using hr)).1

/-- A value of one line is stored without the white space around it, and that is what the client
then gets. -/
theorem IsFresh.get_set (h : d.IsFresh conn s) (hs : s.IsClean) (hkey : IsToken key)
    (hvalue : '\n' ∉ value.toList) {b : String} (hb : tokens value = [b])
    (htaken : Command.SetTaken key value) :
    (d.set conn key value).2.server = .node (s.set key b) ∧
      ((d.set conn key value).2.get conn key).1 = .reply b := by
  have hrest := firstLine_spaced hkey.isSpaced.newline_not_mem hvalue
  have hwhole := firstLine_set_of_not_mem hkey.isSpaced.newline_not_mem hvalue
  obtain ⟨line, a, b', more, hargs, hparse, hitems, -⟩ := htaken.exists_items
  rw [hrest, tokens_spaced, tokens_of_isToken hkey, hb] at hargs
  cases hargs
  rw [hwhole] at hitems
  have hline := (isOneLine_of_mem_sentItems (hitems ▸ List.mem_singleton_self _)).size_le
  obtain ⟨hkeysize, hvaluesize⟩ := Request.size_of_set hparse rfl
  have hget := sentItems_get hkey (Nat.le_trans hkeysize hline)
  have hclean : (Command.get key).IsClean := List.forall_mem_singleton.mpr hkey
  have hafter : s.after [.line line] = s.set key b := s.after_of_taken (Store.ofItem?_of_parse hparse)
  have hreply : (respond Store.reply (s.set key b) (.line (Command.get key).render)).2 = .value b := by
    rw [Store.respond_of_parse _ (Request.parse_render hclean)]
    simp only [Store.replyTo, Store.get?_set, if_true]
  have hr : (s.replies (sentItems (Command.set key value).render ++
      sentItems (Command.get key).render))[1]? = some (.value b) := by
    simp [hitems, hget, Store.replies_cons, hafter, hreply]
  obtain ⟨-, hpaired⟩ := h.request hs hitems
  refine ⟨?_, ?_⟩
  · rw [set, hpaired.server, List.flatMap_singleton, hitems, hafter]
  · rw [h.get_of_set hs hr, Reply.awaited, Reply.render]
    exact if_pos (Nat.le_trans (Nat.le_of_add_right_le hvaluesize) hline)

/-! ## Texts that are not stored as given -/

theorem Paired.newline_not_mem {sent : List String} (h : Paired s conn sent d) (hs : s.IsClean)
    {text told : String} (htold : (d.request conn text).1 = .reply told) : '\n' ∉ told.toList := by
  cases hr : (s.replies ((sent ++ [text]).flatMap sentItems))[sent.length]? with
  | none =>
    rw [List.getElem?_eq_none_iff, Store.length_replies] at hr
    rw [h.request_never hs hr] at htold
    cases htold
  | some r =>
    rw [(h.request hs hr).1, Reply.awaited] at htold
    have hline := hs.isLine_replies _ r (List.mem_of_getElem? hr)
    split at htold
    · cases htold
      exact hline.1.newline_not_mem
    · cases htold

/-- What is left at the key that the first line names does not depend on what stood there, so that
entry changes at one of two nodes. Nothing may change but the entry that the client names. -/
theorem StoresOrFails.isToken_key (h : StoresOrFails key value) (htaken : Command.SetTaken key value) :
    IsToken key := by
  by_contra hkey
  obtain ⟨line, a, b, more, hargs, hparse, -, hitems⟩ := htaken.exists_items
  have hne : a ≠ key := by
    rintro rfl
    exact hkey (isToken_of_mem_tokens (hargs ▸ List.mem_cons_self))
  have hchange : Item.change? a (.line line) = some (.set a b) := by
    rw [Item.change?, Store.ofItem?_of_parse hparse]
    simp [Command.isMutation, Command.key]
  obtain ⟨c, hc⟩ : ∃ c, lastChange? a (.line line :: more) = some c := by
    rw [lastChange?, List.filterMap_cons, hchange]
    exact Option.isSome_iff_exists.mp (by simp)
  have hleft (s : Store) (hs : s.ReachedBy fun _ => True) : s.get? a = c.outcome := by
    obtain ⟨d, hfresh⟩ := exists_isFresh s
    obtain ⟨⟨t, ht, hkeep⟩, -⟩ := h s d 0 hs hfresh ((hfresh.set_eq_ok_iff hs.isClean).mpr htaken)
    have hserver := (hfresh.request hs.isClean hitems).2.server
    rw [List.flatMap_singleton, hitems] at hserver
    have hafter : t = s.after (.line line :: more) := Server.node.inj (ht.symm.trans hserver)
    rw [← hkeep a hne, hafter, Store.get?_after, hc]
    rfl
  obtain ⟨s, hs, hget⟩ := htaken.exists_reached hargs
  have hempty := hleft .empty .empty
  rw [← hleft s hs, hget, Store.get?_empty] at hempty
  cases hempty

/-- No reply has two lines, and a value of one line comes back without the white space around it. -/
theorem StoresOrFails.isToken_value (h : StoresOrFails key value) (htaken : Command.SetTaken key value) :
    IsToken value := by
  have hkey := h.isToken_key htaken
  obtain ⟨d, hfresh⟩ := exists_isFresh .empty
  have hok := (hfresh.set_eq_ok_iff Store.isClean_empty).mpr htaken
  obtain ⟨-, hget⟩ := h .empty d 0 .empty hfresh hok
  obtain ⟨line, a, b, more, hargs, -, -, hitems⟩ := htaken.exists_items
  have hpaired := (hfresh.request Store.isClean_empty hitems).2
  have hvalue : '\n' ∉ value.toList := hpaired.newline_not_mem Store.isClean_empty hget
  rw [firstLine_spaced hkey.isSpaced.newline_not_mem hvalue, tokens_spaced, tokens_of_isToken hkey,
    List.singleton_append] at hargs
  have hb : tokens value = [b] := (List.cons.inj hargs).2
  obtain ⟨-, hget'⟩ := hfresh.get_set Store.isClean_empty hkey hvalue hb htaken
  rw [hget'] at hget
  cases hget
  exact isToken_of_mem_tokens (hb ▸ List.mem_cons_self)

/-- A client sets a key over a new connection to a node, whatever the node has stored before. It is
told `OK` exactly if the first line that its two texts make holds two arguments and is not too
long, and an error otherwise. Only if both texts are tokens is it then sure that nothing but the
entry of the key has changed and that the value comes back over the same connection. For other
texts there is a node that says `OK` and changes another entry or gives back another text. -/
theorem stores_or_fails_iff (key value : String) :
    let line := firstLine (Command.set key value).render
    let args := tokens (firstLine (key ++ " " ++ value))
    (∀ (s : Store) (d : Dialogue) (conn : Nat), s.ReachedBy (fun _ => True) → d.IsFresh conn s →
      (d.set conn key value).1 = .reply
        (if ¬ FitsLine line then "ERROR line too long (limit 65536 bytes)"
        else if args.length = 2 then "OK"
        else "ERROR SET requires exactly two arguments: SET <key> <value>")) ∧
      (StoresOrFails key value ↔ (FitsLine line → args.length = 2 → IsToken key ∧ IsToken value)) ∧
      (IsToken key → IsToken value → Utf8.size key + Utf8.size value ≤ 65531 →
        ∀ (s : Store) (d : Dialogue) (conn : Nat), s.ReachedBy (fun _ => True) → d.IsFresh conn s →
          (d.set conn key value).1 = .reply "OK" ∧
            (d.set conn key value).2.server = .node (s.set key value) ∧
            ((d.set conn key value).2.get conn key).1 = .reply value) := by
  intro line args
  refine ⟨fun s d conn hs hfresh => hfresh.set_fst hs.isClean key value, ⟨?_, ?_⟩, ?_⟩
  · intro h hfits htwo
    exact ⟨h.isToken_key ⟨hfits, htwo⟩, h.isToken_value ⟨hfits, htwo⟩⟩
  · intro htokens s d conn hs hfresh hok
    have htaken := (hfresh.set_eq_ok_iff hs.isClean).mp hok
    obtain ⟨hkey, hvalue⟩ := htokens htaken.fits htaken.two
    obtain ⟨hserver, hget⟩ := hfresh.get_set hs.isClean hkey hvalue.isSpaced.newline_not_mem
      (tokens_of_isToken hvalue) htaken
    refine ⟨⟨_, hserver, fun k hk => ?_⟩, hget⟩
    rw [Store.get?_set, if_neg hk.symm]
  · intro hkey hvalue hsize s d conn hs hfresh
    have htaken := Command.setTaken_of_isToken hkey hvalue hsize
    exact ⟨(hfresh.set_eq_ok_iff hs.isClean).mpr htaken, hfresh.get_set hs.isClean hkey
      hvalue.isSpaced.newline_not_mem (tokens_of_isToken hvalue) htaken⟩

/-- A node that holds another value at the key. -/
theorem stores_or_fails_iff_again :
    let s := (Store.empty.serve ⟨[sentLine "SET k old"], .closed⟩ {}).state
    let d : Dialogue := ⟨.up, "127.0.0.1:7878", .node s, []⟩
    s.ReachedBy (fun _ => True) ∧ d.IsFresh 3 s ∧ IsToken "k" ∧ IsToken "new" ∧
      (d.set 3 "k" "new").1 = .reply "OK" ∧ ((d.set 3 "k" "new").2.get 3 "k").1 = .reply "new" := by
  intro s d
  have hs : s.ReachedBy fun _ => True := .serve {} .empty trivial
  have hfresh : d.IsFresh 3 s := ⟨rfl, rfl, rfl⟩
  have hkey : IsToken "k" := by decide
  have hvalue : IsToken "new" := by decide
  obtain ⟨hok, -, hget⟩ := (stores_or_fails_iff "k" "new").2.2 hkey hvalue (by decide) s d 3 hs hfresh
  exact ⟨hs, hfresh, hkey, hvalue, hok, hget⟩

/-- White space around a value is lost; a value of two lines sets two keys, and the client that gets
the first one is given the reply to the second line; of a key of two words the second takes the
place of a value that is missing. Each time the client is told `OK`. -/
theorem set_not_as_given :
    let d : Dialogue := ⟨.up, "127.0.0.1:7878", .node .empty, []⟩
    d.IsFresh 0 .empty ∧
      ((d.set 0 "k" " v").1 = .reply "OK" ∧ ((d.set 0 "k" " v").2.get 0 "k").1 = .reply "v" ∧
        ¬ StoresOrFails "k" " v") ∧
      ((d.set 0 "k" "v\nSET j w").1 = .reply "OK" ∧
        ((d.set 0 "k" "v\nSET j w").2.get 0 "k").1 = .reply "OK" ∧
        ¬ StoresOrFails "k" "v\nSET j w") ∧
      (d.set 0 "a b" "").1 = .reply "OK" ∧ ((d.set 0 "a b" "").2.get 0 "a").1 = .reply "b" ∧
        ¬ StoresOrFails "a b" "" := by
  intro d
  have hfresh : d.IsFresh 0 .empty := ⟨rfl, rfl, rfl⟩
  have hspace : Command.SetTaken "k" " v" := ⟨by decide, by decide⟩
  have hnewline : Command.SetTaken "k" "v\nSET j w" := ⟨by decide, by decide⟩
  have hwords : Command.SetTaken "a b" "" := ⟨by decide, by decide⟩
  have hok {key value : String} (htaken : Command.SetTaken key value) : (d.set 0 key value).1 = .reply "OK" :=
    (hfresh.set_eq_ok_iff Store.isClean_empty).mpr htaken
  refine ⟨hfresh, ⟨hok hspace, ?_, fun h => ?_⟩, ⟨hok hnewline, ?_, fun h => ?_⟩, hok hwords, ?_, fun h => ?_⟩
  · exact (hfresh.get_set Store.isClean_empty (by decide) (by decide) (by decide) hspace).2
  · exact absurd (h.isToken_value hspace) (by decide)
  · exact hfresh.get_of_set Store.isClean_empty (r := .done) (by decide)
  · exact absurd (h.isToken_value hnewline) (by decide)
  · exact hfresh.get_of_set Store.isClean_empty (r := .value "b") (by decide)
  · exact absurd (h.isToken_key hwords) (by decide)

end Dialogue
end RelayStore
