import RelayStore.Proofs.Cluster.Alone
import RelayStore.Proofs.Cluster.Delivery

/-! # Replies in every state of a cluster

Whatever a cluster is sent, over streams of any bytes, as texts with newlines in them, or by
relays that come from node to node at any time, its stores hold nothing but tokens. So a stored
value is never taken for one of the node's own errors, and each reply is one line that says
whether the request was rejected.
-/
namespace RelayStore
open Text

/-! ## Clean clusters stay clean -/

namespace Traffic
variable {t : Traffic}

theorem isClean_respond (ht : t.cluster.IsClean) (i : Nat) (item : Item) :
    (respond (answer i) t item).1.cluster.IsClean := by
  cases item with
  | tooLong => exact ht
  | line text =>
    cases hparse : Request.parse text with
    | error e => simpa only [respond, answer_of_rejected i t hparse] using ht
    | ok r =>
      have hwrite := ht.write (Request.isClean_of_parse hparse) i t.inFlight t.relays
      simpa only [respond, answer_fst_of_parse i t hparse] using hwrite

theorem isClean_transcript (ht : t.cluster.IsClean) (i : Nat) (items : List Item) :
    (transcript (answer i) t items).1.cluster.IsClean := by
  induction items generalizing t with
  | nil => exact ht
  | cons item items ih => exact ih (isClean_respond ht i item)

/-- Serving a stream keeps a cluster clean, also one that ends early or that fails. -/
theorem isClean_serve (ht : t.cluster.IsClean) (i : Nat) (src : Source) (sink : Sink) :
    (serve (answer i) t src sink).state.cluster.IsClean := by
  obtain ⟨n, hn⟩ := exists_take_of_serve (answer i) t src sink
  exact hn ▸ isClean_transcript ht i _

theorem isClean_land (ht : t.cluster.IsClean) (r : Relay) (src : Source) (sink : Sink) :
    (t.land r src sink).cluster.IsClean := by
  cases htarget : r.target with
  | none => exact land_of_sink htarget src sink ▸ ht
  | some j => exact land_of_node htarget src sink ▸ isClean_serve ht j src sink

/-- Traffic that events lead to from empty stores, whoever is whose neighbour. A node serves a
stream of any bytes to any end, or it is handed a text, or a text is relayed from it; a relay that
is in flight comes to its end, or it is lost; and links are cut and mended. -/
inductive IsReached : Traffic → Prop
  | start {c : Cluster} (h : ∀ m ∈ c, m.store = .empty) : IsReached { cluster := c }
  | serve {t : Traffic} (ht : IsReached t) (i : Nat) (src : Source) (sink : Sink) :
    IsReached (serve (answer i) t src sink).state
  | handle {t : Traffic} (ht : IsReached t) (i : Nat) (text : String) :
    IsReached (answer i t text).1
  | propagate {t : Traffic} (ht : IsReached t) (i : Nat) (text : String) :
    IsReached (post i t text).1
  | land {t t' : Traffic} (ht : IsReached t) (hland : Delivery t t') : IsReached t'
  | lose {t : Traffic} {before rest : List Relay} {r : Relay} (ht : IsReached t)
    (hflight : t.inFlight = before ++ r :: rest) : IsReached { t with inFlight := before ++ rest }
  | link {t : Traffic} (ht : IsReached t) (i : Nat) (isLinked : Bool) :
    IsReached { t with cluster := t.cluster.setLink i isLinked }

theorem IsReached.isClean (h : t.IsReached) : t.cluster.IsClean := by
  induction h with
  | start h => exact fun k => Cluster.storeAt_of_empty h k ▸ Store.isClean_empty
  | serve _ i src sink ih => exact isClean_serve ih i src sink
  | handle _ i text ih => exact isClean_respond ih i (.line text)
  | @propagate t _ i text ih => simpa only [post_fst] using ih
  | @land t _ _ hland ih =>
    cases hland with
    | @land before rest r src sink =>
      exact isClean_land (t := { t with inFlight := before ++ rest }) ih r src sink
  | lose _ _ ih => exact ih
  | link _ i isLinked ih =>
    intro k
    simpa only [Cluster.storeAt_setLink] using ih k

/-- What settles was on its way there. -/
theorem IsReached.settle (h : t.IsReached) (rounds : Nat) : (t.settle rounds).IsReached := by
  have hrun := delivery_settle t rounds
  generalize t.settle rounds = t' at hrun
  induction hrun with
  | refl => exact h
  | tail _ hland ih => exact ih.land hland

end Traffic

/-! ## What replies tell -/

def Item.IsRejected : Item → Prop
  | .line text => ∃ e, Request.parse text = .error e
  | .tooLong => True

/-- A reply to an item that is one line, and starts with the word for an error exactly if the
item is rejected. -/
structure Reply.Befits (r : Reply) (item : Item) : Prop where
  isBlank_eq_false : isBlank r.render = false
  newline_not_mem : '\n' ∉ r.render.toList
  return_not_mem : '\r' ∉ r.render.toList
  isRejected_iff : "ERROR ".toList <+: r.render.toList ↔ item.IsRejected

theorem Reply.IsLine.befits {r : Reply} {item : Item} (h : r.IsLine)
    (hrejected : "ERROR ".toList <+: r.render.toList ↔ item.IsRejected) : r.Befits item :=
  ⟨h.2, h.1.newline_not_mem, h.1.return_not_mem, hrejected⟩

theorem Reply.starts_with_error (message : String) :
    "ERROR ".toList <+: (error message).render.toList :=
  ⟨message.toList, String.toList_append.symm⟩

/-- No token looks like an error, as it has no space in it. -/
theorem Text.IsToken.not_starts_with_error {v : String} (h : IsToken v) : ¬ "ERROR ".toList <+: v.toList := by
  intro hprefix
  have hspace : ' ' ∈ v.toList := hprefix.subset (by decide)
  exact absurd (h.2 ' ' hspace) (by decide)

theorem Store.IsClean.befits_respond {s : Store} (hs : s.IsClean) (item : Item) :
    (respond reply s item).2.Befits item := by
  apply (hs.isLine_respond item).befits
  cases item with
  | tooLong => exact iff_of_true (Reply.starts_with_error _) trivial
  | line text =>
    cases hparse : Request.parse text with
    | error e =>
      rw [s.respond_of_rejected hparse]
      exact iff_of_true (Reply.starts_with_error _) ⟨e, hparse⟩
    | ok r =>
      have htaken : ¬ (Item.line text).IsRejected := by
        rintro ⟨e, he⟩
        simp [hparse] at he
      rw [s.respond_of_parse hparse, iff_false_right htaken]
      rcases s.replyTo_cases r.command with hr | hr | ⟨key, value, hget, hr⟩
      · exact hr ▸ (by decide : ¬ "ERROR ".toList <+: Reply.done.render.toList)
      · exact hr ▸ (by decide : ¬ "ERROR ".toList <+: Reply.absent.render.toList)
      · exact hr ▸ (hs key value hget).2.not_starts_with_error

theorem Traffic.befits_transcript {t : Traffic} (ht : t.cluster.IsClean) (i : Nat) (items : List Item) :
    List.Forall₂ Reply.Befits (transcript (answer i) t items).2 items := by
  induction items generalizing t with
  | nil => exact .nil
  | cons item items ih =>
    have hfirst := respond_answer_snd i t item ▸ (ht i).befits_respond item
    exact .cons hfirst (ih (isClean_respond ht i item))

/-- In every state that a cluster can come to, all stored keys and values are tokens. A node that
is handed a text, newlines and all, or that serves a stream, replies with one line that is not blank
and has no return in it, and that starts as an error exactly if the request was rejected. On a
stream the replies are those of its items in order, and nothing else is written. -/
theorem replies_befit {t : Traffic} (ht : t.IsReached) :
    (∀ i key value, (t.cluster.storeAt i).get? key = some value → IsToken key ∧ IsToken value) ∧
      (∀ i text, (t.answer i text).2.Befits (.line text)) ∧
      ∀ i src, ∃ replies : List Reply,
        (t.serveAt i src).2 = Reply.bytes replies ∧ List.Forall₂ Reply.Befits replies src.items.1 := by
  have hclean := ht.isClean
  refine ⟨fun i => hclean i, fun i text => ?_, fun i src =>
    ⟨_, congrArg Prod.snd (Traffic.serveAt_eq i t src), ?_⟩⟩
  · exact Traffic.respond_answer_snd i t (.line text) ▸ (hclean i).befits_respond (.line text)
  · exact Traffic.befits_transcript hclean i src.items.1

/-- Two nodes that are each other's neighbours, after a text that the second reads as two lines
and of which it relays one back. -/
theorem replies_befit_both_ways :
    let start : Cluster := #[{ peer := .node 1 }, { peer := .node 0 }]
    let t := (start.handle 0 "SET\nDEL x").1
    t.IsReached ∧ (t.answer 0 "GET DEL").2.Befits (.line "GET DEL") := by
  intro start t
  have hstart : ({ cluster := start } : Traffic).IsReached := .start (by simp [start])
  have ht : t.IsReached := (hstart.handle 0 "SET\nDEL x").settle hopLimit
  exact ⟨ht, (replies_befit ht).2.1 0 "GET DEL"⟩

end RelayStore
