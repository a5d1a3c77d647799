import Mathlib.Logic.Relation
import RelayStore.Proofs.Cluster.Members

/-! # Deliveries

Relays come to their ends one by one. What a node does with one of them does not depend on
what else is in flight, so relays that are served round by round are served in one of the
many orders in which they may come.
-/
namespace RelayStore.Traffic

/-! ## Relays that are over -/

@[simp] theorem relays_answer (i : Nat) (t : Traffic) (line : String) :
    (answer i t line).1.relays = t.relays := by
  cases hparse : Request.parse line with
  | error e => rw [answer_of_rejected i t hparse]
  | ok r => rw [answer_fst_of_parse i t hparse, relays_write]

theorem relays_converse (i : Nat) (t : Traffic) (sink : Sink) (items : List Item) :
    (converse (answer i) t sink items).1.relays = t.relays := by
  induction items generalizing t sink with
  | nil => rfl
  | cons item items ih =>
    have hfirst : (respond (answer i) t item).1.relays = t.relays := by
      cases item with
      | tooLong => rfl
      | line text => exact relays_answer i t text
    rw [converse]
    dsimp only
    rcases sink.writeLine (respond (answer i) t item).2.render with ⟨sink', _ | fault⟩
    · exact (ih _ _).trans hfirst
    · exact hfirst

@[simp] theorem relays_serve (i : Nat) (t : Traffic) (src : Source) (sink : Sink) :
    (serve (answer i) t src sink).state.relays = t.relays := by
  rw [← relays_converse i t sink src.items.1, serve]
  dsimp only
  rcases converse (answer i) t sink src.items.1 with ⟨t', sink', _ | fault⟩ <;> rfl

theorem exists_relays_land (t : Traffic) (r : Relay) (src : Source) (sink : Sink) :
    ∃ reply, (t.land r src sink).relays = t.relays ++ [{ r with answer := reply }] := by
  obtain htarget | ⟨j, htarget⟩ := Option.eq_none_or_eq_some r.target
  · exact ⟨r.answer, congrArg relays (land_of_sink htarget src sink)⟩
  · have hrelays := congrArg relays (land_of_node htarget src sink (t := t))
    rw [relays_serve] at hrelays
    exact ⟨_, hrelays⟩

/-! ## What else is in flight -/

def behind (others : List Relay) (t : Traffic) : Traffic :=
  { t with inFlight := others ++ t.inFlight }

variable (others : List Relay)

theorem answer_behind (i : Nat) (t : Traffic) (line : String) :
    answer i (t.behind others) line = ((answer i t line).1.behind others, (answer i t line).2) := by
  cases hparse : Request.parse line with
  | error e => rw [answer_of_rejected i _ hparse, answer_of_rejected i t hparse]
  | ok r =>
    apply Prod.ext
    · rw [answer_fst_of_parse i _ hparse, answer_fst_of_parse i t hparse]
      simp only [behind, write, List.append_assoc]
    · rw [answer_reply i _ hparse, answer_reply i t hparse]
      rfl

theorem respond_behind (i : Nat) (t : Traffic) (item : Item) :
    respond (answer i) (t.behind others) item =
      ((respond (answer i) t item).1.behind others, (respond (answer i) t item).2) := by
  cases item with
  | tooLong => rfl
  | line text => exact answer_behind others i t text

theorem converse_behind (i : Nat) (t : Traffic) (sink : Sink) (items : List Item) :
    converse (answer i) (t.behind others) sink items =
      ((converse (answer i) t sink items).1.behind others, (converse (answer i) t sink items).2) := by
  induction items generalizing t sink with
  | nil => rfl
  | cons item items ih =>
    rw [converse, converse, respond_behind]
    dsimp only
    rcases sink.writeLine (respond (answer i) t item).2.render with ⟨sink', _ | fault⟩
    · exact ih _ _
    · rfl

theorem serve_behind (i : Nat) (t : Traffic) (src : Source) (sink : Sink) :
    serve (answer i) (t.behind others) src sink =
      { serve (answer i) t src sink with state := (serve (answer i) t src sink).state.behind others } := by
  simp only [serve, converse_behind]
  rcases converse (answer i) t sink src.items.1 with ⟨t', sink', _ | fault⟩ <;> rfl

theorem land_behind (t : Traffic) (r : Relay) (src : Source) (sink : Sink) :
    (t.behind others).land r src sink = (t.land r src sink).behind others := by
  cases htarget : r.target with
  | none => rw [land_of_sink htarget, land_of_sink htarget, behind, behind]
  | some j =>
    rw [land_of_node htarget, land_of_node htarget, serve_behind]
    rfl

/-! ## Rounds -/

theorem delivery_foldl_land (rs : List Relay) (t : Traffic) :
    Relation.ReflTransGen Delivery (t.behind rs)
      (rs.foldl (fun t r => t.land r ⟨[r.wire], .closed⟩ {}) t) := by
  induction rs generalizing t with
  | nil => exact .refl
  | cons r rs ih =>
    have hsplit : (t.behind (r :: rs)).inFlight = [] ++ r :: (rs ++ t.inFlight) := rfl
    have hstep : Delivery (t.behind (r :: rs))
        (land { t with inFlight := [] ++ (rs ++ t.inFlight) } r ⟨[r.wire], .closed⟩ {}) :=
      .land hsplit (List.append_nil _) rfl
    have hland := land_behind rs t r ⟨[r.wire], .closed⟩ {}
    exact .head hstep (hland ▸ ih (t.land r ⟨[r.wire], .closed⟩ {}))

theorem delivery_round (t : Traffic) : Relation.ReflTransGen Delivery t t.round := by
  have hrun := delivery_foldl_land t.inFlight { t with inFlight := [] }
  rwa [behind, List.append_nil] at hrun

/-- Settling is one of the orders in which relays may be delivered. -/
theorem delivery_settle (t : Traffic) (rounds : Nat) :
    Relation.ReflTransGen Delivery t (t.settle rounds) := by
  induction rounds generalizing t with
  | zero => exact .refl
  | succ rounds ih => exact (delivery_round t).trans (ih t.round)

end RelayStore.Traffic
