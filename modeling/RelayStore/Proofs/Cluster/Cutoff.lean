import RelayStore.Proofs.Cluster.Exchange
import RelayStore.Proofs.Cluster.Relay
import RelayStore.Proofs.Text.Cut

/-! # A relay cut short

A sender that gives up leaves a part of a marked line with its neighbour, which takes the
end of the stream for the end of the line. Too few tokens are no request. But a part that
reaches into the last argument is one, and its argument is what has come of it.
-/
namespace RelayStore
open Text

/-! ## The last argument -/

namespace Command

def lastArgument : Command → String
  | get key | delete key => key
  | set _ value => value

def withLast (s : String) : Command → Command
  | get _ => get s
  | set key _ => set key s
  | delete _ => delete s

theorem withLast_lastArgument (c : Command) : c.withLast c.lastArgument = c := by
  cases c <;> rfl

theorem exists_arguments (c : Command) : ∃ init, c.arguments = init ++ [c.lastArgument] := by
  cases c with
  | get key => exact ⟨[], rfl⟩
  | set key value => exact ⟨[key], rfl⟩
  | delete key => exact ⟨[], rfl⟩

end Command

theorem Verb.command?_withLast {verb : Verb} {init : List String} {last : String} {c : Command}
    (h : verb.command? (init ++ [last]) = some c) (s : String) :
    verb.command? (init ++ [s]) = some (c.withLast s) := by
  rcases init with _ | ⟨first, _ | ⟨second, init⟩⟩
  · cases verb <;> cases h <;> rfl
  · cases verb <;> cases h
    rfl
  · cases verb <;> cases init <;> cases h

theorem Verb.length_of_command? {verb : Verb} {args : List String} {c : Command}
    (h : verb.command? args = some c) : args.length = if verb = .set then 2 else 1 := by
  unfold command? at h
  split at h <;> cases h <;> rfl

theorem Verb.command?_of_length {verb : Verb} {args args' : List String} {c : Command}
    (h : verb.command? args = some c) (hlength : args'.length ≠ args.length) :
    verb.command? args' = none := by
  cases h' : verb.command? args' with
  | none => rfl
  | some c' => exact absurd ((length_of_command? h').trans (length_of_command? h).symm) hlength

namespace Command

theorem ofTokens_withLast {name last : String} {init : List String} {c : Command}
    (h : ofTokens name (init ++ [last]) = .ok c) (s : String) :
    ofTokens name (init ++ [s]) = .ok (c.withLast s) := by
  unfold ofTokens at h ⊢
  cases hverb : Verb.ofName? name with
  | none =>
    rw [hverb] at h
    cases h
  | some verb =>
    rw [hverb] at h
    dsimp only at h ⊢
    cases hcommand : verb.command? (init ++ [last]) with
    | none =>
      rw [hcommand] at h
      cases h
    | some c' =>
      rw [hcommand] at h
      cases h
      rw [Verb.command?_withLast hcommand s]

theorem ofTokens_of_length {name : String} {args args' : List String} {c : Command}
    (h : ofTokens name args = .ok c) (hlength : args'.length ≠ args.length) :
    ∃ e, ofTokens name args' = .error e := by
  unfold ofTokens at h ⊢
  cases hverb : Verb.ofName? name with
  | none => exact ⟨_, rfl⟩
  | some verb =>
    rw [hverb] at h
    dsimp only at h ⊢
    cases hcommand : verb.command? args with
    | none =>
      rw [hcommand] at h
      cases h
    | some c' =>
      rw [Verb.command?_of_length hcommand hlength]
      exact ⟨_, rfl⟩

theorem ofTokens_nil (name : String) : ∃ e, ofTokens name [] = .error e := by
  unfold ofTokens
  cases Verb.ofName? name with
  | none => exact ⟨_, rfl⟩
  | some verb => cases verb <;> exact ⟨_, rfl⟩

end Command

namespace Request

theorem ofTokens_marker (name : String) (args : List String) :
    ofTokens (marker :: name :: args) = (Command.ofTokens name args).map fun c => ⟨.peer, c⟩ := by
  rw [ofTokens_cons, if_pos upper_marker]

/-- Behind the marker and the name there is one token too few. -/
theorem ofTokens_short {name last : String} {init ts : List String} {c : Command}
    (h : Command.ofTokens name (init ++ [last]) = .ok c)
    (hfront : ts.dropLast <+: marker :: name :: init) (hlength : ts.length ≤ init.length + 2) :
    ∃ e, ofTokens ts = .error e := by
  rcases ts with _ | ⟨first, _ | ⟨second, _ | ⟨third, rest⟩⟩⟩
  · exact ⟨_, rfl⟩
  · rw [ofTokens_cons]
    split
    · exact ⟨_, rfl⟩
    · obtain ⟨e, he⟩ := Command.ofTokens_nil first
      exact ⟨e, by rw [he]; rfl⟩
  · obtain ⟨rfl, -⟩ := List.cons_prefix_cons.mp hfront
    obtain ⟨e, he⟩ := Command.ofTokens_nil second
    exact ⟨e, by rw [ofTokens_marker, he]; rfl⟩
  · obtain ⟨rfl, hname⟩ := List.cons_prefix_cons.mp hfront
    obtain ⟨rfl, -⟩ := List.cons_prefix_cons.mp hname
    have hshort : (third :: rest).length ≠ (init ++ [last]).length := by
      simp only [List.length_cons, List.length_append, List.length_nil] at hlength ⊢
      omega
    obtain ⟨e, he⟩ := Command.ofTokens_of_length h hshort
    exact ⟨e, by rw [ofTokens_marker, he]; rfl⟩

/-- A client's line whose last argument is behind `head`, and the tokens in front of it. -/
structure Front (line : String) (c : Command) (head name : String) (init : List String) : Prop where
  newline_not_mem : '\n' ∉ line.toList
  trim_eq : trim line = head ++ c.lastArgument
  isToken : IsToken c.lastArgument
  command : Command.ofTokens name (init ++ [c.lastArgument]) = .ok c
  tokens_head : tokens (marker ++ " " ++ head) = marker :: name :: init
  tokens_append : ∀ x, tokens (marker ++ " " ++ head ++ x) = marker :: name :: init ++ tokens x

theorem exists_front {line : String} {c : Command} (hnl : '\n' ∉ line.toList)
    (h : parse line = .ok ⟨.client, c⟩) : ∃ head name init, Front line c head name init := by
  obtain ⟨name, args, hc, ⟨-, hline, -⟩ | ⟨horigin, -⟩⟩ := parse_eq_ok h
  · obtain ⟨init, hinit⟩ := c.exists_arguments
    have hargs : args = init ++ [c.lastArgument] := by
      rw [← hinit]
      exact (Command.arguments_of_ofTokens hc).symm
    rw [hargs] at hc hline
    have hlast : IsToken c.lastArgument := isToken_of_mem_tokens (s := line) (by simp [hline])
    rw [← List.cons_append] at hline
    obtain ⟨head, htrim, hhead, hmore⟩ := exists_head hline
    refine ⟨head, name, init, hnl, htrim, hlast, hc, ?_, fun x => ?_⟩
    · rw [tokens_marker_spaced, hhead]
    · rw [@String.append_assoc _ head, tokens_marker_spaced, hmore]
      rfl
  · cases horigin

end Request

/-! ## Reading a part of a line -/

theorem carriageReturn_not_mem_take {c : Char} {k : Nat} (hpos : 0 < k)
    (hk : k < (Utf8.encodeChar c).length) : carriageReturn ∉ (Utf8.encodeChar c).take k := by
  intro hmem
  have hc := carriageReturn_mem_encodeChar.mp (List.mem_of_mem_take hmem)
  have hone : (Utf8.encodeChar '\r').length = 1 := rfl
  rw [hc, hone] at hk
  omega

theorem Text.tokens_read_cut (s : String) (n : Nat) :
    tokens (Utf8.decode (stripReturns ((Utf8.encode s).take n))) = tokens (cut s n) := by
  obtain ⟨as, bs, -, ⟨htake, hcut⟩ | ⟨c, -, k, hpos, hk, -, htake, -⟩⟩ := cut_cases s n
  · rw [htake, ← Utf8.encode_ofList, stripReturns_encode, Utf8.decode_encode, tokens_dropReturns, hcut]
  · have hne : (Utf8.encodeChar c).take k ≠ [] := by
      rw [Ne, List.take_eq_nil_iff]
      exact fun h => h.elim (by omega) (Utf8.encodeChar_ne_nil c)
    rw [cut, htake, stripReturns_append _ hne (carriageReturn_not_mem_take hpos hk)]

namespace Traffic
variable (j : Nat) (t : Traffic) {src : Source} (sink : Sink)

theorem serve_of_rejected {text : String} {e : Rejection} (h : src.items.1 = [.line text])
    (hparse : Request.parse text = .error e) : (serve (answer j) t src sink).state = t := by
  rw [serve_state_of_singleton _ _ h, respond, answer_of_rejected j t hparse]

theorem serve_of_peer {text : String} {c : Command} (h : src.items.1 = [.line text])
    (hparse : Request.parse text = .ok ⟨.peer, c⟩) :
    (serve (answer j) t src sink).state = write j t c := by
  rw [serve_state_of_singleton _ _ h, respond, answer_of_not_forwarded j t hparse rfl]

variable {name last : String} {init : List String} {c : Command}

/-- A part that ends before the last argument is no request. Only if it ends within a white
character there is a replacement for its first bytes, and that stands for the argument. -/
theorem serve_cut_head {head : String} (hnl : '\n' ∉ head.toList)
    (htokens : tokens head = marker :: name :: init)
    (hc : Command.ofTokens name (init ++ [last]) = .ok c) {n : Nat}
    (hbytes : src.bytes = (Utf8.encode head).take n) (hclosed : src.ending = .closed) :
    (serve (answer j) t src sink).state = t ∨
      (serve (answer j) t src sink).state = write j t (c.withLast (.ofList [Utf8.replacement])) ∧
        EndsInWhite head n := by
  have hnewline : newline ∉ src.bytes := by
    rw [hbytes]
    exact fun hmem => hnl ((Utf8.mem_encode_ascii (by decide)).mp (List.mem_of_mem_take hmem))
  have hitems := src.items_of_unterminated hnewline hclosed
  rw [hbytes] at hitems
  cases hpiece : Item.ofPiece? ((Utf8.encode head).take n) with
  | none =>
    rw [hpiece] at hitems
    exact .inl (serve_state_of_nil _ _ hitems sink)
  | some item =>
    rw [hpiece] at hitems
    cases item with
    | tooLong => exact .inl (serve_state_of_singleton _ _ hitems sink)
    | line text =>
      have hread : tokens text = tokens (cut head n) := by
        rw [(ofPiece?_eq_line hpiece).1, tokens_read_cut]
      obtain ⟨hfront, hlength | ⟨hmore, hwhite⟩⟩ := tokens_cut head n
      · rw [htokens] at hfront hlength
        obtain ⟨e, he⟩ := Request.ofTokens_short hc hfront hlength
        exact .inl (serve_of_rejected j t sink hitems (by rw [Request.parse, hread, he]))
      · refine .inr ⟨serve_of_peer j t sink hitems ?_, hwhite⟩
        rw [Request.parse, hread, hmore, htokens, List.cons_append, List.cons_append,
          Request.ofTokens_marker, Command.ofTokens_withLast hc]
        rfl

/-- A part that reaches into the last argument is the request with as much of it as has come. -/
theorem serve_cut_last {head : String} (hnl : '\n' ∉ head.toList) (hlast : IsToken last)
    (htokens : ∀ x, tokens (head ++ x) = marker :: name :: init ++ tokens x)
    (hc : Command.ofTokens name (init ++ [last]) = .ok c) {m : Nat} (hm : 0 < m)
    (hbytes : src.bytes = Utf8.encode head ++ (Utf8.encode last).take m)
    (hclosed : src.ending = .closed) :
    (serve (answer j) t src sink).state =
      if src.bytes.length ≤ maxLine then write j t (c.withLast (cut last m)) else t := by
  have hcut := isToken_cut hlast hm
  have hdecode : Utf8.decode src.bytes = head ++ cut last m := by
    rw [hbytes, Utf8.decode_encode_append, cut]
  have hread : tokens (head ++ cut last m) = marker :: name :: (init ++ [cut last m]) := by
    rw [htokens, tokens_of_isToken hcut, List.cons_append, List.cons_append]
  have hne : (Utf8.encode last).take m ≠ [] := by
    intro he
    rw [cut, he] at hcut
    exact absurd hcut (by decide)
  have hreturn : carriageReturn ∉ (Utf8.encode last).take m := fun hmem =>
    hlast.isSpaced.return_not_mem ((Utf8.mem_encode_ascii (by decide)).mp (List.mem_of_mem_take hmem))
  have hnewline : newline ∉ src.bytes := by
    rw [hbytes, List.mem_append]
    rintro (hmem | hmem)
    · exact hnl ((Utf8.mem_encode_ascii (by decide)).mp hmem)
    · exact hlast.isSpaced.newline_not_mem
        ((Utf8.mem_encode_ascii (by decide)).mp (List.mem_of_mem_take hmem))
  have hstrip : stripReturns src.bytes = src.bytes := by
    rw [hbytes, stripReturns_append _ hne hreturn]
  have hpiece := Item.ofPiece?_of_stripped hstrip (by rw [hdecode]; exact isBlank_of_tokens hread)
  have hitems := src.items_of_unterminated hnewline hclosed
  rw [hpiece, hdecode] at hitems
  by_cases hfits : src.bytes.length ≤ maxLine
  · rw [if_pos hfits] at hitems ⊢
    apply serve_of_peer j t sink hitems
    rw [Request.parse, hread, Request.ofTokens_marker, Command.ofTokens_withLast hc]
    rfl
  · rw [if_neg hfits] at hitems ⊢
    exact serve_state_of_singleton _ _ hitems sink

end Traffic

/-! ## The law of a relay cut short -/

theorem size_marked (head : String) : Utf8.size (marker ++ " " ++ head) = 10 + Utf8.size head := by
  have hmarker : Utf8.size (marker ++ " ") = 10 := by decide
  rw [Utf8.size_append, hmarker]

namespace Request.Front
variable {line head name : String} {init : List String} {c : Command} {src : Source}

theorem size_trim (h : Front line c head name init) :
    Utf8.size (trim line) = Utf8.size head + Utf8.size c.lastArgument := by
  rw [h.trim_eq, Utf8.size_append]

theorem markedLine_eq (h : Front line c head name init) :
    markedLine line = marker ++ " " ++ head ++ c.lastArgument := by
  rw [markedLine, h.trim_eq, @String.append_assoc _ head]

theorem sentLine_eq (h : Front line c head name init) :
    sentLine (markedLine line) =
      Utf8.encode (marker ++ " " ++ head) ++ (Utf8.encode c.lastArgument ++ [newline]) := by
  rw [sentLine, h.markedLine_eq, Utf8.encode_append _ c.lastArgument, List.append_assoc]

theorem newline_not_mem_head (h : Front line c head name init) :
    '\n' ∉ (marker ++ " " ++ head).toList := by
  intro hmem
  apply newline_not_mem_markedLine h.newline_not_mem
  rw [h.markedLine_eq, String.toList_append]
  exact List.mem_append_left _ hmem

theorem serve_before (h : Front line c head name init) (j : Nat) (t : Traffic) (sink : Sink) {n : Nat}
    (hn : n ≤ 10 + Utf8.size head) (hbytes : src.bytes = (sentLine (markedLine line)).take n)
    (hclosed : src.ending = .closed) :
    (serve (Traffic.answer j) t src sink).state = t ∨
      (serve (Traffic.answer j) t src sink).state =
          Traffic.write j t (c.withLast (.ofList [Utf8.replacement])) ∧
        EndsInWhite head (n - 10) := by
  have hmarker : (marker ++ " ").toList.all fun a => (Utf8.encodeChar a).length == 1 := by decide
  have hshort : ∀ a ∈ (marker ++ " ").toList, (Utf8.encodeChar a).length = 1 := fun a ha =>
    beq_iff_eq.mp (List.all_eq_true.mp hmarker a ha)
  rw [h.sentLine_eq, List.take_append_of_le_length (by rwa [← Utf8.size, size_marked])] at hbytes
  have hcut := Traffic.serve_cut_head j t sink h.newline_not_mem_head h.tokens_head h.command hbytes hclosed
  exact hcut.imp_right fun hwrite => ⟨hwrite.1, hwrite.2.of_append hshort⟩

theorem serve_within (h : Front line c head name init) (j : Nat) (t : Traffic) (sink : Sink) {m : Nat}
    (hpos : 0 < m) (hm : m ≤ Utf8.size c.lastArgument)
    (hbytes : src.bytes = (sentLine (markedLine line)).take (10 + Utf8.size head + m))
    (hclosed : src.ending = .closed) :
    (serve (Traffic.answer j) t src sink).state =
      if 10 + Utf8.size head + m ≤ maxLine then
        Traffic.write j t (c.withLast (cut c.lastArgument m))
      else t := by
  rw [h.sentLine_eq, ← size_marked, Utf8.size, List.take_length_add_append,
    List.take_append_of_le_length hm] at hbytes
  have hlength : src.bytes.length = 10 + Utf8.size head + m := by
    rw [hbytes, List.length_append, List.length_take_of_le hm, ← Utf8.size, size_marked]
  rw [Traffic.serve_cut_last j t sink h.newline_not_mem_head h.isToken h.tokens_append h.command hpos
    hbytes hclosed, hlength]

/-- Without its newline the whole line is read as with it. -/
theorem serve_whole (h : Front line c head name init) (hparse : parse line = .ok ⟨.client, c⟩) (j : Nat)
    (t : Traffic) (sink : Sink) {n : Nat} (hn : 10 + Utf8.size (trim line) ≤ n)
    (hbytes : src.bytes = (sentLine (markedLine line)).take n) (hclosed : src.ending = .closed) :
    (serve (Traffic.answer j) t src sink).state =
      if Utf8.size (trim line) ≤ 65526 then Traffic.write j t c else t := by
  have hlength : (sentLine (markedLine line)).length = 11 + Utf8.size (trim line) := by
    rw [sentLine, List.length_append, ← Utf8.size, size_markedLine, List.length_singleton]
    omega
  rcases Nat.eq_or_lt_of_le hn with rfl | hmore
  · rw [h.size_trim, ← Nat.add_assoc] at hbytes
    have hserve := h.serve_within j t sink (Utf8.size_pos h.isToken.1) (Nat.le_refl _) hbytes hclosed
    rw [cut_of_size_le (Nat.le_refl _), Command.withLast_lastArgument] at hserve
    have hfits : 10 + Utf8.size head + Utf8.size c.lastArgument ≤ maxLine ↔
        Utf8.size (trim line) ≤ 65526 := by
      rw [h.size_trim, maxLine]
      omega
    rw [hserve]
    exact if_congr hfits rfl rfl
  · rw [List.take_of_length_le (by omega)] at hbytes
    rw [Traffic.serve_markedLine src sink h.newline_not_mem hparse hbytes (by simp [hclosed]) j t,
      markedMax_eq]

end Request.Front

/-- Of a marked line the first `n` bytes come, and the stream ends. A part that ends before the
last argument changes nothing, unless it ends within a white character of several bytes with
nothing but white space between it and the argument. A part that ends in the argument is taken
for the command with what is left of it. If the whole line has come, with its newline or
without, the command is the one that was sent. -/
theorem relay_cut_short {line : String} {c : Command} (hnl : '\n' ∉ line.toList)
    (hparse : Request.parse line = .ok ⟨.client, c⟩) :
    ∃ head, trim line = head ++ c.lastArgument ∧
      ∀ (j : Nat) (t : Traffic) (n : Nat) (src : Source) (sink : Sink),
        src.bytes = (sentLine (markedLine line)).take n → src.ending = .closed →
        let after := (serve (Traffic.answer j) t src sink).state
        (n ≤ 10 + Utf8.size head →
          after = t ∨ after = Traffic.write j t (c.withLast "\uFFFD") ∧ EndsInWhite head (n - 10)) ∧
        (∀ m, 0 < m → m < Utf8.size c.lastArgument → n = 10 + Utf8.size head + m →
          after =
            if n ≤ 65536 then Traffic.write j t (c.withLast (cut c.lastArgument m)) else t) ∧
        (10 + Utf8.size (trim line) ≤ n →
          after = if Utf8.size (trim line) ≤ 65526 then Traffic.write j t c else t) := by
  obtain ⟨head, name, init, hfront⟩ := Request.exists_front hnl hparse
  refine ⟨head, hfront.trim_eq, fun j t n src sink hbytes hclosed =>
    ⟨fun hn => ?_, ?_, fun hn => ?_⟩⟩
  · exact hfront.serve_before j t sink hn hbytes hclosed
  · rintro m hpos hm rfl
    exact hfront.serve_within j t sink hpos (Nat.le_of_lt hm) hbytes hclosed
  · exact hfront.serve_whole hparse j t sink hn hbytes hclosed

/-- Of the two bytes of the value one has come. -/
theorem relay_cut_short_character :
    '\n' ∉ "set k \u00e9 ".toList ∧
      Request.parse "set k \u00e9 " = .ok ⟨.client, .set "k" "\u00e9"⟩ ∧
      (serve (Traffic.answer 0) { cluster := #[{}] }
          ⟨[(sentLine (markedLine "set k \u00e9 ")).take 17], .closed⟩ {}).state =
        Traffic.write 0 { cluster := #[{}] } (.set "k" "\uFFFD") := by
  have hnl : '\n' ∉ "set k \u00e9 ".toList := by decide
  have hparse : Request.parse "set k \u00e9 " = .ok ⟨.client, .set "k" "\u00e9"⟩ := by decide
  obtain ⟨head, htrim, hlaw⟩ := relay_cut_short hnl hparse
  have hhead : Utf8.size head = 6 := by
    have hwhole : Utf8.size (trim "set k \u00e9 ") = 8 := by decide
    have hlast : Utf8.size "\u00e9" = 2 := by decide
    rw [htrim, Utf8.size_append] at hwhole
    exact Nat.add_right_cancel (hwhole.trans (by rw [Command.lastArgument, hlast]))
  have hserve := (hlaw 0 { cluster := #[{}] } 17
    ⟨[(sentLine (markedLine "set k \u00e9 ")).take 17], .closed⟩ {} (List.append_nil _) rfl).2.1 1
    (by decide) (by decide) (by rw [hhead])
  have hcut : cut "\u00e9" 1 = "\uFFFD" := by decide
  refine ⟨hnl, hparse, ?_⟩
  rw [hserve, if_pos (by decide), Command.lastArgument, hcut]
  rfl

/-- A value of two letters of which one has come is set to that one. -/
theorem relay_cut_short_wrong :
    ¬ ∀ (line : String) (c : Command), '\n' ∉ line.toList → Request.parse line = .ok ⟨.client, c⟩ →
      c.isMutation = true → ∀ (j : Nat) (t : Traffic) (n : Nat),
        let src : Source := ⟨[(sentLine (markedLine line)).take n], .closed⟩
        let after := (serve (Traffic.answer j) t src {}).state
        after = t ∨ after = Traffic.write j t c := by
  intro hall
  have hparse : Request.parse "SET k vw" = .ok ⟨.client, .set "k" "vw"⟩ := by decide
  have hitems : (Source.items ⟨[(sentLine (markedLine "SET k vw")).take 17], .closed⟩).1 =
      [.line "PROPAGATE SET k v"] := by decide
  have hpart : Request.parse "PROPAGATE SET k v" = .ok ⟨.peer, .set "k" "v"⟩ := by decide
  let t : Traffic := { cluster := #[{}] }
  have hserve := Traffic.serve_of_peer 0 t {} hitems hpart
  have hget : ((Traffic.write 0 t (.set "k" "v")).cluster.storeAt 0).get? "k" = some "v" :=
    (Store.get?_set .empty "k" "v" "k").trans (if_pos rfl)
  have hlaw := hall "SET k vw" _ (by decide) hparse rfl 0 t 17
  dsimp only at hlaw
  rw [hserve] at hlaw
  rcases hlaw with he | he
  · have hold : (t.cluster.storeAt 0).get? "k" = none := Store.get?_empty "k"
    rw [he, hold] at hget
    cases hget
  · have hforwarded : ((Traffic.write 0 t (.set "k" "vw")).cluster.storeAt 0).get? "k" = some "vw" :=
      (Store.get?_set .empty "k" "vw" "k").trans (if_pos rfl)
    rw [he, hforwarded] at hget
    exact absurd hget (by decide)

end RelayStore
