import RelayStore.Proofs.Cluster.Members
import RelayStore.Proofs.Line.Sent
import RelayStore.Proofs.Request.Marked
import RelayStore.Proofs.Request.Rendered

/-! # One relayed mutation

The marked form of a line is ten bytes longer than the trimmed line, and the neighbour
reads it with the same limit. If it fits, the neighbour applies exactly the command that
the client gave, once, and relays nothing. If it does not, the neighbour's store stays
as it is, although the sender counts the relay as delivered.
-/
namespace RelayStore
open Text

/-- The longest trimmed line, in bytes, whose marked form is not too long. -/
def markedMax : Nat := maxLine - Utf8.size (marker ++ " ")

theorem markedMax_eq : markedMax = 65526 := by decide

/-! ## The marked form on the wire -/

theorem toList_markedLine (line : String) :
    (markedLine line).toList = marker.toList ++ ' ' :: stripWhite line.toList := by
  simp [markedLine, trim]

theorem size_markedLine (line : String) :
    Utf8.size (markedLine line) = 10 + Utf8.size (trim line) := by
  have hmarker : (Utf8.encode (marker ++ " ")).length = 10 := by decide
  rw [Utf8.size, markedLine, Utf8.encode_append, List.length_append, hmarker, Utf8.size]

theorem newline_not_mem_markedLine {line : String} (h : '\n' ∉ line.toList) :
    '\n' ∉ (markedLine line).toList := by
  rw [toList_markedLine, List.mem_append, List.mem_cons]
  rintro (hm | hs | hl)
  · exact absurd hm (by decide)
  · exact absurd hs (by decide)
  · exact h (mem_of_mem_stripWhite hl)

/-- The marked form ends in the space or in a character that is not white. -/
theorem dropReturns_markedLine (line : String) : dropReturns (markedLine line) = markedLine line := by
  apply dropReturns_eq_self
  intro hs hlast
  have hlast? : (markedLine line).toList.getLast? = some '\r' := by
    rw [List.getLast?_eq_getLast_of_ne_nil hs, hlast]
  by_cases hempty : stripWhite line.toList = []
  · rw [toList_markedLine, hempty, List.getLast?_concat] at hlast?
    exact absurd hlast? (by decide)
  · have hwhite := isWhite_getLast_stripWhite hempty
    rw [toList_markedLine, List.getLast?_append_cons, List.getLast?_cons_of_ne_nil hempty,
      List.getLast?_eq_getLast_of_ne_nil hempty] at hlast?
    rw [Option.some.inj hlast?] at hwhite
    exact absurd hwhite (by decide)

theorem isBlank_markedLine (line : String) : isBlank (markedLine line) = false :=
  isBlank_of_tokens (Request.tokens_markedLine line)

theorem ofText?_markedLine (line : String) :
    Item.ofText? (markedLine line) =
      some (if Utf8.size (trim line) ≤ markedMax then .line (markedLine line) else .tooLong) := by
  have hlong : (maxLine + 1 < Utf8.size (markedLine line) ∨
      maxLine < Utf8.size (markedLine line)) ↔ ¬ Utf8.size (trim line) ≤ markedMax := by
    rw [size_markedLine, markedMax_eq]
    unfold maxLine
    omega
  rw [Item.ofText?, dropReturns_markedLine, isBlank_markedLine]
  by_cases hfits : Utf8.size (trim line) ≤ markedMax
  · rw [if_neg fun h => hlong.mp h hfits, if_pos hfits]
    rfl
  · rw [if_pos (hlong.mpr hfits), if_neg hfits]

theorem items_of_markedLine {src : Source} {line : String} (hnl : '\n' ∉ line.toList)
    (hbytes : src.bytes = sentLine (markedLine line)) (hend : src.ending ≠ .failing .interrupted) :
    src.items.1 =
      [if Utf8.size (trim line) ≤ markedMax then .line (markedLine line) else .tooLong] := by
  rw [src.items_of_sentLine hbytes hend, pieces_of_not_mem (newline_not_mem_markedLine hnl),
    List.filterMap_cons, ofText?_markedLine]
  rfl

/-! ## What the neighbour makes of it -/

namespace Traffic
variable {line : String} {c : Command}

theorem replyTo_mutation (s : Store) (h : c.isMutation = true) : s.replyTo c = .done := by
  cases c with
  | get key => cases h
  | set key value => rfl
  | delete key => rfl

theorem serveAt_markedLine (src : Source) (hnl : '\n' ∉ line.toList)
    (hparse : Request.parse line = .ok ⟨.client, c⟩) (hmut : c.isMutation = true)
    (hbytes : src.bytes = sentLine (markedLine line)) (hend : src.ending ≠ .failing .interrupted)
    (j : Nat) (t : Traffic) :
    serveAt j t src =
      if Utf8.size (trim line) ≤ markedMax then (write j t c, sentLine "OK")
      else (t, sentLine tooLongReply.render) := by
  rw [serveAt_eq, items_of_markedLine hnl hbytes hend]
  by_cases hfits : Utf8.size (trim line) ≤ markedMax
  · rw [if_pos hfits, if_pos hfits]
    have hanswer := answer_of_not_forwarded j t (Request.parse_markedLine hparse) rfl
    simp only [transcript, respond, hanswer, replyTo_mutation _ hmut]
    rfl
  · rw [if_neg hfits, if_neg hfits]
    simp [transcript, respond, Reply.bytes]

/-- The node need not get rid of its reply. -/
theorem serve_markedLine (src : Source) (sink : Sink) (hnl : '\n' ∉ line.toList)
    (hparse : Request.parse line = .ok ⟨.client, c⟩)
    (hbytes : src.bytes = sentLine (markedLine line)) (hend : src.ending ≠ .failing .interrupted)
    (j : Nat) (t : Traffic) :
    (serve (answer j) t src sink).state =
      if Utf8.size (trim line) ≤ markedMax then write j t c else t := by
  have hitems := items_of_markedLine hnl hbytes hend
  by_cases hfits : Utf8.size (trim line) ≤ markedMax
  · rw [if_pos hfits] at hitems ⊢
    rw [serve_state_of_singleton _ _ hitems, respond,
      answer_of_not_forwarded j t (Request.parse_markedLine hparse) rfl]
  · rw [if_neg hfits] at hitems ⊢
    rw [serve_state_of_singleton _ _ hitems, respond]

/-- The relay of a mutation to a node comes to its end in one round. -/
theorem settle_posted_mutation (hnl : '\n' ∉ line.toList)
    (hparse : Request.parse line = .ok ⟨.client, c⟩) (hmut : c.isMutation = true) {i j : Nat}
    {t : Traffic} (hflight : t.inFlight = [⟨i, some j, sentLine (markedLine line), none⟩])
    (rounds : Nat) :
    t.settle (rounds + 1) =
      if Utf8.size (trim line) ≤ markedMax then
        { write j t c with
          inFlight := []
          relays := t.relays ++ [⟨i, some j, sentLine (markedLine line), some (sentLine "OK")⟩] }
      else
        { t with
          inFlight := []
          relays := t.relays ++
            [⟨i, some j, sentLine (markedLine line), some (sentLine tooLongReply.render)⟩] } := by
  have hserve := serveAt_markedLine ⟨[sentLine (markedLine line)], .closed⟩ hnl hparse hmut
    (by simp [Source.bytes]) (by simp) j { t with inFlight := [] }
  rw [settle, round_of_singleton hflight, land_of_node rfl]
  by_cases hfits : Utf8.size (trim line) ≤ markedMax
  · rw [if_pos hfits] at hserve ⊢
    obtain ⟨hstate, hwritten⟩ := Prod.ext_iff.mp hserve
    dsimp only [serveAt] at hstate hwritten
    rw [hstate, hwritten, settle_of_inFlight_eq_nil rfl]
    rfl
  · rw [if_neg hfits] at hserve ⊢
    obtain ⟨hstate, hwritten⟩ := Prod.ext_iff.mp hserve
    dsimp only [serveAt] at hstate hwritten
    rw [hstate, hwritten, settle_of_inFlight_eq_nil rfl]

theorem propagate_mutation (hnl : '\n' ∉ line.toList)
    (hparse : Request.parse line = .ok ⟨.client, c⟩) (hmut : c.isMutation = true)
    {cluster : Cluster} {i j : Nat} (hpeer : cluster.reachablePeer i = .node j) :
    cluster.propagate i line =
      if Utf8.size (trim line) ≤ markedMax then
        ({ cluster := cluster.setStore j ((cluster.storeAt j).apply c)
           relays := [⟨i, some j, sentLine (markedLine line), some (sentLine "OK")⟩] }, .delivered)
      else
        ({ cluster
           relays := [⟨i, some j, sentLine (markedLine line), some (sentLine tooLongReply.render)⟩] },
          .delivered) := by
  have hsettle := settle_posted_mutation hnl hparse hmut (i := i) (j := j)
    (t := { cluster, inFlight := [⟨i, some j, sentLine (markedLine line), none⟩] }) rfl 3
  simp only [Cluster.propagate, post, hpeer, List.nil_append, hopLimit, hsettle]
  split <;> rfl

end Traffic

/-! ## Relays of mutations -/

namespace Relay

def Mutates (r : Relay) (key : String) : Prop :=
  ∃ line q, .line line ∈ (Source.items ⟨[r.wire], .closed⟩).1 ∧ Request.parse line = .ok q ∧
    q.command.isMutation = true ∧ q.command.key = key

structure Carries (r : Relay) (node : Nat) (c : Command) : Prop where
  target : r.target = some node
  isMutation : c.isMutation = true
  line : ∃ line, '\n' ∉ line.toList ∧ Request.parse line = .ok ⟨.client, c⟩ ∧
    r.wire = sentLine (markedLine line)

/-- What the relay has on the wire is not too long for one line. -/
def Fits (r : Relay) : Prop :=
  r.wire.length ≤ maxLine + 1

instance (r : Relay) : Decidable r.Fits :=
  inferInstanceAs (Decidable (_ ≤ _))

variable {r : Relay} {node : Nat} {line : String} {c : Command}

theorem fits_iff (h : r.wire = sentLine (markedLine line)) : r.Fits ↔ Utf8.size (trim line) ≤ markedMax := by
  rw [Fits, h, sentLine, List.length_append, List.length_singleton, ← Utf8.size, size_markedLine,
    markedMax_eq]
  unfold maxLine
  omega

theorem Carries.mutates_iff (h : r.Carries node c) {key : String} : r.Mutates key ↔ r.Fits ∧ c.key = key := by
  obtain ⟨line, hnl, hparse, hwire⟩ := h.line
  have hmarked := Request.parse_markedLine hparse
  have hbytes : Source.bytes ⟨[r.wire], .closed⟩ = sentLine (markedLine line) := by
    simp [Source.bytes, hwire]
  have hitems := items_of_markedLine hnl hbytes (by simp)
  rw [fits_iff hwire]
  by_cases hfits : Utf8.size (trim line) ≤ markedMax
  · rw [if_pos hfits] at hitems
    constructor
    · rintro ⟨text, q, hmem, hq, -, hkey⟩
      rw [hitems, List.mem_singleton] at hmem
      cases hmem
      rw [hmarked] at hq
      cases hq
      exact ⟨hfits, hkey⟩
    · rintro ⟨-, hkey⟩
      exact ⟨markedLine line, _, by simp [hitems], hmarked, h.isMutation, hkey⟩
  · rw [if_neg hfits] at hitems
    constructor
    · rintro ⟨text, q, hmem, -⟩
      simp [hitems] at hmem
    · exact fun hm => absurd hm.1 hfits

/-- A node that is served a relay writes its mutation and sends nothing, whatever becomes of the
reply. -/
theorem Carries.serve_eq (h : r.Carries node c) {src : Source} (hbytes : src.bytes = r.wire)
    (hend : src.ending = .closed) (sink : Sink) (t : Traffic) :
    (serve (Traffic.answer node) t src sink).state = if r.Fits then Traffic.write node t c else t := by
  obtain ⟨line, hnl, hparse, hwire⟩ := h.line
  rw [Traffic.serve_markedLine src sink hnl hparse (hbytes.trans hwire) (by simp [hend])]
  exact if_congr (fits_iff hwire).symm rfl rfl

theorem Carries.exists_land (h : r.Carries node c) (hfits : r.Fits) {src : Source}
    (hbytes : src.bytes = r.wire) (hend : src.ending = .closed) (sink : Sink) (t : Traffic) :
    ∃ relays, t.land r src sink = { Traffic.write node t c with relays } := by
  rw [Traffic.land_of_node h.target, h.serve_eq hbytes hend, if_pos hfits]
  exact ⟨_, rfl⟩

end Relay

/-! ## The law of one relay -/

/-- A client's mutation, read off any stream, is relayed to a neighbour that is a node. However
its wire bytes are cut into reads, that node applies the command once, answers, and relays
nothing, if and only if the trimmed line has at most 65526 bytes. A longer one is too long for
it. The sender calls both delivered. -/
theorem mutation_relayed {src : Source} {line : String} {command : Command}
    (hread : .line line ∈ src.items.1) (hparse : Request.parse line = .ok ⟨.client, command⟩)
    (hmut : command.isMutation = true) :
    (∀ (j : Nat) (t : Traffic) (wire : Source),
      wire.bytes = sentLine (markedLine line) → wire.ending = .closed →
      Traffic.serveAt j t wire =
        if Utf8.size (trim line) ≤ 65526 then
          ({ t with cluster := t.cluster.setStore j ((t.cluster.storeAt j).apply command) },
            sentLine "OK")
        else (t, sentLine tooLongReply.render)) ∧
      ∀ (cluster : Cluster) (i j : Nat), cluster.reachablePeer i = .node j →
        Traffic.post i { cluster } line =
            ({ cluster, inFlight := [⟨i, some j, sentLine (markedLine line), none⟩] }, .delivered) ∧
          cluster.propagate i line =
            if Utf8.size (trim line) ≤ 65526 then
              ({ cluster := cluster.setStore j ((cluster.storeAt j).apply command)
                 relays := [⟨i, some j, sentLine (markedLine line), some (sentLine "OK")⟩] },
                .delivered)
            else
              ({ cluster
                 relays :=
                  [⟨i, some j, sentLine (markedLine line), some (sentLine tooLongReply.render)⟩] },
                .delivered) := by
  have hnl := (Source.line_spec hread).1
  rw [← markedMax_eq]
  refine ⟨fun j t wire hbytes hend => ?_, fun cluster i j hpeer => ⟨?_, ?_⟩⟩
  · exact Traffic.serveAt_markedLine wire hnl hparse hmut hbytes (by simp [hend]) j t
  · simp only [Traffic.post, hpeer, List.nil_append]
  · exact Traffic.propagate_mutation hnl hparse hmut hpeer

/-- A deletion in lower case with white space around it. -/
theorem mutation_relayed_deletion :
    .line " del k" ∈ (Source.items ⟨[sentLine " del k\r"], .closed⟩).1 ∧
      Request.parse " del k" = .ok ⟨.client, .delete "k"⟩ ∧
      (Command.delete "k").isMutation = true ∧
      Cluster.propagate #[{ peer := .node 1 }, {}] 0 " del k" =
        ({ cluster := Cluster.setStore #[{ peer := .node 1 }, {}] 1 (Store.empty.erase "k")
           relays := [⟨0, some 1, sentLine "PROPAGATE del k", some (sentLine "OK")⟩] },
          .delivered) := by
  have hread : .line " del k" ∈ (Source.items ⟨[sentLine " del k\r"], .closed⟩).1 := by decide
  have hparse : Request.parse " del k" = .ok ⟨.client, .delete "k"⟩ := by decide
  have hfits : Utf8.size (trim " del k") ≤ 65526 := by decide
  have hmark : markedLine " del k" = "PROPAGATE del k" := by decide
  refine ⟨hread, hparse, rfl, ?_⟩
  rw [((mutation_relayed hread hparse rfl).2 _ 0 1 rfl).2, if_pos hfits, hmark]
  rfl

theorem size_replicate (n : Nat) : Utf8.size (.ofList (List.replicate n 'v')) = n := by
  have hwidth : (Utf8.encodeChar 'v').length = 1 := rfl
  rw [Utf8.size_replicate, hwidth, Nat.mul_one]

theorem isClean_set_replicate {n : Nat} (h : 0 < n) :
    (Command.set "k" (.ofList (List.replicate n 'v'))).IsClean :=
  Command.isClean_set (by decide) (isToken_replicate (by decide) h)

/-- A written command is read back as its own line if it is not too long. -/
theorem line_mem_items_of_render {c : Command} (h : c.IsClean) (hnl : '\n' ∉ c.render.toList)
    (hsize : Utf8.size c.render ≤ maxLine) :
    .line c.render ∈ (Source.items ⟨[sentLine c.render], .closed⟩).1 := by
  have hblank := isBlank_of_tokens (Command.tokens_render h)
  have hdrop : dropReturns c.render = c.render := by
    rw [← Command.trim_render h, dropReturns_trim]
  rw [Source.items_of_sentLine _ (s := c.render) (by simp [Source.bytes]) (by simp),
    pieces_of_not_mem hnl, List.mem_filterMap]
  refine ⟨c.render, List.mem_singleton_self _, ?_⟩
  rw [Item.ofText?, hdrop, hblank, if_neg (by omega)]
  rfl

/-- A value of 65521 characters makes a line of 65527 bytes, which is read and applied but is
lost on its way to the neighbour. -/
theorem mutation_lost_at_limit :
    ¬ ∀ (src : Source) (line : String) (command : Command), .line line ∈ src.items.1 →
      Request.parse line = .ok ⟨.client, command⟩ → command.isMutation = true →
      ∀ (cluster : Cluster) (i j : Nat), cluster.reachablePeer i = .node j →
        (cluster.propagate i line).1.cluster =
          cluster.setStore j ((cluster.storeAt j).apply command) := by
  intro hall
  -- The length stays a variable, or the text itself would be computed.
  obtain ⟨n, hn⟩ : ∃ n, n = 65521 := ⟨_, rfl⟩
  have hclean := isClean_set_replicate (n := n) (by omega)
  generalize hcommand : Command.set "k" (.ofList (List.replicate n 'v')) = command at hclean
  have hmut : command.isMutation = true := by rw [← hcommand]; rfl
  have hrender : command.render.toList = "SET k ".toList ++ List.replicate n 'v' := by
    simp [← hcommand, Command.render]
  have hnl : '\n' ∉ command.render.toList := by
    rw [hrender, List.mem_append, List.mem_replicate]
    rintro (hm | ⟨-, hv⟩)
    · exact absurd hm (by decide)
    · exact absurd hv (by decide)
  have hsize : Utf8.size command.render = 6 + n := by
    have hname : (Utf8.encode "SET k ").length = 6 := by decide
    rw [← String.ofList_toList (s := command.render), hrender, String.ofList_append,
      String.ofList_toList, Utf8.size, Utf8.encode_append, List.length_append, hname, ← Utf8.size,
      size_replicate]
  have hread := line_mem_items_of_render hclean hnl (by rw [hsize, hn]; decide)
  have hparse := Request.parse_render hclean
  have hlong : ¬ Utf8.size (trim command.render) ≤ markedMax := by
    rw [Command.trim_render hclean, hsize, markedMax_eq]
    omega
  let cluster : Cluster := #[{ peer := .node 1 }, {}]
  have hpeer : cluster.reachablePeer 0 = .node 1 := rfl
  have hlaw := hall _ _ command hread hparse hmut cluster 0 1 hpeer
  rw [Traffic.propagate_mutation hnl hparse hmut hpeer, if_neg hlong] at hlaw
  have hwrites := congrArg (fun c : Cluster => (c.storeAt 1).writes) hlaw
  rw [← hcommand] at hwrites
  cases hwrites

end RelayStore
