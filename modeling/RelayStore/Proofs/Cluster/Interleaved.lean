import RelayStore.Proofs.Cluster.Alone
import RelayStore.Proofs.Session.Arrivals

/-! # Connections that share a node

The lines of several connections come to a node one by one, those of each connection in their
order. A line reads and writes nothing but the value at its own key. So connections that have
no key in common are each served as if the others were not there, however their lines are mixed.
-/
namespace RelayStore
open Text

def Item.key? (item : Item) : Option String :=
  (Request.ofItem? item).map fun r => r.command.key

def KeysApart (lists : Nat → List Item) : Prop :=
  ∀ m n, m ≠ n → ∀ item ∈ lists m, item.key? ≠ none → ∀ other ∈ lists n, other.key? ≠ item.key?

/-! ## One key -/

theorem Item.key?_cases (item : Item) : Request.ofItem? item = none ∧ item.key? = none ∨
    ∃ r, Request.ofItem? item = some r ∧ item.key? = some r.command.key := by
  cases hitem : Request.ofItem? item with
  | none => exact .inl ⟨rfl, by rw [key?, hitem, Option.map_none]⟩
  | some r => exact .inr ⟨r, rfl, by rw [key?, hitem, Option.map_some]⟩

namespace Store
variable {s s' : Store} {item : Item} {key : String}

theorem get?_after_of_ne (h : item.key? ≠ some key) (s : Store) :
    (s.after [item]).get? key = s.get? key := by
  obtain ⟨hnone, -⟩ | ⟨r, hr, hkey⟩ := item.key?_cases
  · rw [s.after_of_not_taken hnone]
  · have hne : r.command.key ≠ key := fun he => h (hkey.trans (congrArg some he))
    rw [s.after_of_taken hr, get?_apply_of_ne hne]

theorem get?_after_congr (h : s'.get? key = s.get? key) (item : Item) :
    (s'.after [item]).get? key = (s.after [item]).get? key := by
  obtain ⟨hnone, -⟩ | ⟨r, hr, -⟩ := item.key?_cases
  · simpa only [after_of_not_taken _ hnone] using h
  · simpa only [after_of_taken _ hr] using get?_apply_congr h r.command

/-- The reply to a line depends on the value at its key only. -/
theorem respond_congr (h : ∀ key, item.key? = some key → s'.get? key = s.get? key) :
    (respond reply s' item).2 = (respond reply s item).2 := by
  cases item with
  | tooLong => rfl
  | line text =>
    cases hparse : Request.parse text with
    | error e => simp only [respond_of_rejected _ hparse]
    | ok r =>
      have hkey : Item.key? (.line text) = some r.command.key := by
        rw [Item.key?, ofItem?_of_parse hparse, Option.map_some]
      simpa only [respond_of_parse _ hparse] using replyTo_congr (h _ hkey)

/-- What a list of lines leaves at a key is left there by its lines about that key. -/
theorem get?_after_filter (s : Store) (items : List Item) (key : String) :
    (s.after (items.filter fun item => item.key? = some key)).get? key = (s.after items).get? key := by
  induction items using List.reverseRecOn with
  | nil => rfl
  | append_singleton items item ih =>
    rw [List.filter_append, after_append, after_append]
    by_cases hkey : item.key? = some key
    · have hlast : [item].filter (fun item => item.key? = some key) = [item] := by simp [hkey]
      rw [hlast]
      exact get?_after_congr ih item
    · have hlast : [item].filter (fun item => item.key? = some key) = [] := by simp [hkey]
      rw [hlast]
      exact ih.trans (get?_after_of_ne hkey _).symm

/-- The writes that a list of lines makes are its mutations. -/
theorem writes_after (s : Store) (items : List Item) : (s.after items).writes =
    s.writes + items.countP fun item => (Request.ofItem? item).any fun r => r.command.isMutation := by
  induction items using List.reverseRecOn with
  | nil => rfl
  | append_singleton items item ih =>
    rw [after_append, List.countP_append, ← Nat.add_assoc, ← ih]
    cases hitem : Request.ofItem? item with
    | none => simp [after_of_not_taken _ hitem, hitem]
    | some r =>
      rw [after_of_taken _ hitem]
      cases hmut : r.command.isMutation with
      | false => simp [apply_of_not_mutation hmut, hitem, hmut]
      | true => simp [writes_apply hmut, hitem, hmut]

end Store

/-! ## Mixed lines -/

namespace Arrivals

/-- The lists of lines of all connections, mixed in some way. -/
def Mixes (run : Arrivals) (lists : Nat → List Item) : Prop :=
  ∀ conn, run.on conn = lists conn

def IsOwner (run : Arrivals) (conn : Nat) (key : String) : Prop :=
  ∀ a ∈ run, a.2.key? = some key → a.1 = conn

variable {run run' : Arrivals} {conn : Nat} {key : String} {lists : Nat → List Item}

/-- Of the lines about a key, none is on another connection than its owner's. -/
theorem IsOwner.filter_items (h : run.IsOwner conn key) :
    run.items.filter (fun item => item.key? = some key) =
      (run.on conn).filter fun item => item.key? = some key := by
  simp only [items, on, List.filter_map, List.filter_filter, Function.comp_def]
  congr 1
  apply List.filter_congr
  intro a ha
  by_cases hkey : a.2.key? = some key
  · simp [hkey, h a ha hkey]
  · simp [hkey]

theorem IsOwner.get?_after (h : run.IsOwner conn key) (s : Store) :
    (s.after run.items).get? key = (s.after (run.on conn)).get? key := by
  rw [← s.get?_after_filter run.items, h.filter_items, s.get?_after_filter]

/-- A connection that owns all its keys has the replies that it has alone. -/
theorem repliesOn_eq (s : Store)
    (h : ∀ item ∈ run.on conn, ∀ key, item.key? = some key → run.IsOwner conn key) :
    run.repliesOn conn (s.replies run.items) = s.replies (run.on conn) := by
  -- What comes first is owned as well, so up to the last line the replies are the same.
  induction run using List.reverseRecOn with
  | nil => rfl
  | append_singleton run a ih =>
    have hitems : items (run ++ [a]) = items run ++ [a.2] := items_append run [a]
    have howner {item : Item} (hitem : item ∈ on (run ++ [a]) conn) {key : String}
        (hkey : item.key? = some key) : IsOwner run conn key :=
      fun b hb => h item hitem key hkey b (List.mem_append_left _ hb)
    have hbefore : repliesOn run conn (s.replies (items run)) = s.replies (on run conn) := by
      apply ih
      intro item hitem key hkey
      apply howner _ hkey
      rw [on_append_singleton]
      exact List.mem_append_left _ hitem
    have hlength : (s.replies (items run)).length = run.length := by simp [items]
    have hlast (s : Store) (item : Item) : s.replies [item] = [(respond Store.reply s item).2] := rfl
    rw [hitems, s.replies_append, hlast, repliesOn_append_singleton _ _ hlength, hbefore,
      on_append_singleton, s.replies_append]
    by_cases hconn : a.1 = conn
    · have hmem : a.2 ∈ on (run ++ [a]) conn := hconn ▸ mem_on (by simp)
      have hreply : (respond Store.reply (s.after (items run)) a.2).2 =
          (respond Store.reply (s.after (on run conn)) a.2).2 :=
        Store.respond_congr fun key hkey => (howner hmem hkey).get?_after s
      rw [if_pos hconn, if_pos hconn, hlast, hreply]
    · rw [if_neg hconn, if_neg hconn]
      rfl

theorem Mixes.isOwner (h : run.Mixes lists) (hapart : KeysApart lists) {item : Item}
    (hitem : item ∈ lists conn) (hkey : item.key? = some key) : run.IsOwner conn key := by
  intro a ha hother
  by_contra hne
  have hmem : a.2 ∈ lists a.1 := h a.1 ▸ mem_on ha
  have hapart := hapart conn a.1 (fun he => hne he.symm) item hitem (by simp [hkey]) a.2 hmem
  exact hapart (hother.trans hkey.symm)

/-- Two mixtures of the same lists hold the same lines. -/
theorem Mixes.perm (h : run.Mixes lists) (h' : run'.Mixes lists) : run'.Perm run := by
  have hcount (r : Arrivals) (a : Nat × Item) : r.count a = (r.on a.1).count a.2 := by
    rw [on, items, List.count, List.count, List.countP_map, List.countP_filter]
    apply List.countP_congr
    intro b _
    simp [Prod.ext_iff, and_comm]
  rw [List.perm_iff_count]
  intro a
  rw [hcount, hcount, h, h']

end Arrivals

/-! ## A node of a cluster -/

def Cluster.answerAt (i : Nat) (c : Cluster) (line : String) : Cluster × Reply :=
  ((c.handle i line).1.cluster, (c.handle i line).2)

theorem respond_answerAt {c : Cluster} {i : Nat} (hi : i < c.size) {s : Store}
    (htable : (c.storeAt i).table = s.table) {item : Item}
    (hline : ∀ line, item = .line line → '\n' ∉ line.toList) :
    i < (respond (Cluster.answerAt i) c item).1.size ∧
      ((respond (Cluster.answerAt i) c item).1.storeAt i).table = (s.after [item]).table ∧
      (respond (Cluster.answerAt i) c item).2 = (respond Store.reply s item).2 := by
  have htraffic : respond (Cluster.answerAt i) c item =
      (((respond (Traffic.answer i) { cluster := c } item).1.settle hopLimit).cluster,
        (respond (Traffic.answer i) { cluster := c } item).2) := by
    cases item <;> rfl
  obtain ⟨hlinks, hown, -⟩ := Traffic.storeAt_respond hi hline 3
  obtain ⟨hstore, hreply⟩ := Store.respond_of_table htable item
  rw [htraffic, Traffic.respond_answer_snd, ← s.respond_fst]
  exact ⟨hlinks.size ▸ hi, hown.trans hstore, hreply⟩

/-- Whatever its neighbour is, a node's replies and its table are those of a node alone. -/
theorem transcript_answerAt {c : Cluster} {i : Nat} (hi : i < c.size) {s : Store}
    (htable : (c.storeAt i).table = s.table) {items : List Item}
    (hlines : ∀ line, .line line ∈ items → '\n' ∉ line.toList) :
    ((transcript (Cluster.answerAt i) c items).1.storeAt i).table = (s.after items).table ∧
      (transcript (Cluster.answerAt i) c items).2 = s.replies items := by
  induction items generalizing c s with
  | nil => exact ⟨htable, rfl⟩
  | cons item items ih =>
    have hline : ∀ line, item = .line line → '\n' ∉ line.toList := fun line he => hlines line (by simp [he])
    obtain ⟨hsize, hstore, hreply⟩ := respond_answerAt hi htable hline
    obtain ⟨hend, hreplies⟩ := ih hsize hstore fun line hmem => hlines line (List.mem_cons_of_mem _ hmem)
    rw [s.after_cons item items, s.replies_cons]
    exact ⟨hend, congrArg₂ List.cons hreply hreplies⟩

/-! ## Mixed lines at a node -/

/-- What comes of mixed lines if no connection is touched by the others: each of them has the
replies that it has alone, in a session as well, and leaves at its keys what it leaves there
alone. -/
structure Undisturbed (s : Store) (lists : Nat → List Item) (run : Arrivals) (store : Store)
    (replies : List Reply) : Prop where
  replies_eq : ∀ conn, run.repliesOn conn replies = (transcript Store.reply s (lists conn)).2
  written_eq : ∀ conn (src : Source), src.items.1 = lists conn →
    (s.serve src {}).sink.written.toList = Reply.bytes (run.repliesOn conn replies)
  used : ∀ conn, ∀ item ∈ lists conn, ∀ key, item.key? = some key →
    store.get? key = (transcript Store.reply s (lists conn)).1.get? key
  unused : ∀ key, (∀ conn, ∀ item ∈ lists conn, item.key? ≠ some key) → store.get? key = s.get? key

theorem Undisturbed.of_table {s store store' : Store} {lists : Nat → List Item} {run : Arrivals}
    {replies : List Reply} (h : Undisturbed s lists run store replies) (htable : store'.table = store.table) :
    Undisturbed s lists run store' replies := by
  have hget (key : String) : store'.get? key = store.get? key := by rw [Store.get?, htable, Store.get?]
  exact { h with
    used := fun conn item hitem key hkey => (hget key).trans (h.used conn item hitem key hkey)
    unused := fun key hfree => (hget key).trans (h.unused key hfree) }

/-- What the store holds in the end does not depend on the order of the lines. -/
theorem Undisturbed.get?_eq {s store store' : Store} {lists : Nat → List Item} {run run' : Arrivals}
    {replies replies' : List Reply} (h : Undisturbed s lists run store replies)
    (h' : Undisturbed s lists run' store' replies') (key : String) : store'.get? key = store.get? key := by
  by_cases hused : ∃ conn, ∃ item ∈ lists conn, item.key? = some key
  · obtain ⟨conn, item, hitem, hkey⟩ := hused
    exact (h'.used conn item hitem key hkey).trans (h.used conn item hitem key hkey).symm
  · have hfree : ∀ conn, ∀ item ∈ lists conn, item.key? ≠ some key :=
      fun conn item hitem hkey => hused ⟨conn, item, hitem, hkey⟩
    exact (h'.unused key hfree).trans (h.unused key hfree).symm

theorem Arrivals.Mixes.undisturbed {lists : Nat → List Item} {run : Arrivals} (h : run.Mixes lists)
    (hapart : KeysApart lists) (s : Store) :
    Undisturbed s lists run (s.after run.items) (s.replies run.items) := by
  have hreplies (conn : Nat) : run.repliesOn conn (s.replies run.items) = s.replies (lists conn) := by
    have howner : ∀ item ∈ run.on conn, ∀ key, item.key? = some key → run.IsOwner conn key :=
      fun item hitem key hkey => h.isOwner hapart (h conn ▸ hitem) hkey
    rw [repliesOn_eq s howner, h conn]
  constructor
  · exact hreplies
  · intro conn src hitems
    rw [(s.serve_default src).2.1, hitems, hreplies]
  · intro conn item hitem key hkey
    rw [Store.transcript_fst, (h.isOwner hapart hitem hkey).get?_after s, h conn]
  · intro key hfree
    have hnone : run.items.filter (fun item => item.key? = some key) = [] := by
      rw [List.filter_eq_nil_iff]
      intro item hitem
      obtain ⟨a, ha, rfl⟩ := List.mem_map.mp hitem
      simpa using hfree a.1 a.2 (h a.1 ▸ mem_on ha)
    rw [← s.get?_after_filter, hnone]
    rfl

/-- The lines of several connections come to a node in two orders, and no key of one connection
is a key of another. Then each connection has the same replies in both, those that it has alone,
and the store is the same in both: at the keys of a connection it holds what that connection
leaves there alone, and at all other keys what it held before. The same is true of a node of a
cluster, whatever its neighbour is. -/
theorem connections_undisturbed {lists : Nat → List Item} (hapart : KeysApart lists)
    {run run' : Arrivals} (hrun : run.Mixes lists) (hrun' : run'.Mixes lists) (s : Store) :
    let here := transcript Store.reply s run.items
    let here' := transcript Store.reply s run'.items
    Undisturbed s lists run here.1 here.2 ∧ Undisturbed s lists run' here'.1 here'.2 ∧
      here'.1 = here.1 ∧
      ∀ (c : Cluster) (i : Nat), i < c.size → c.storeAt i = s →
        (∀ conn line, .line line ∈ lists conn → '\n' ∉ line.toList) →
        let there := transcript (Cluster.answerAt i) c run.items
        let there' := transcript (Cluster.answerAt i) c run'.items
        Undisturbed s lists run (there.1.storeAt i) there.2 ∧
          Undisturbed s lists run' (there'.1.storeAt i) there'.2 ∧
          (there'.1.storeAt i).table = (there.1.storeAt i).table := by
  intro here here'
  have hhere (r : Arrivals) : transcript Store.reply s r.items = (s.after r.items, s.replies r.items) :=
    Prod.ext (s.transcript_fst r.items) rfl
  have hundisturbed {r : Arrivals} (hr : r.Mixes lists) : Undisturbed s lists r
      (transcript Store.reply s r.items).1 (transcript Store.reply s r.items).2 :=
    hhere r ▸ hr.undisturbed hapart s
  have htable : here'.1.table = here.1.table :=
    Store.table_ext ((hundisturbed hrun).get?_eq (hundisturbed hrun'))
  have hwrites : here'.1.writes = here.1.writes := by
    have hperm : run'.items.Perm run.items := (hrun.perm hrun').map Prod.snd
    simp only [here', here, hhere, Store.writes_after, hperm.countP_eq]
  refine ⟨hundisturbed hrun, hundisturbed hrun', Store.eq_of_table htable hwrites, ?_⟩
  intro c i hi hstore hlines there there'
  have hthere {r : Arrivals} (hr : r.Mixes lists) :
      Undisturbed s lists r ((transcript (Cluster.answerAt i) c r.items).1.storeAt i)
        (transcript (Cluster.answerAt i) c r.items).2 := by
    have hplain : ∀ line, .line line ∈ r.items → '\n' ∉ line.toList := by
      intro line hmem
      obtain ⟨a, ha, he⟩ := List.mem_map.mp hmem
      exact hlines a.1 line (he ▸ hr a.1 ▸ Arrivals.mem_on ha)
    obtain ⟨htable, hreplies⟩ := transcript_answerAt hi (congrArg Store.table hstore) hplain
    rw [hreplies]
    exact (hr.undisturbed hapart s).of_table htable
  exact ⟨hthere hrun, hthere hrun', Store.table_ext ((hthere hrun).get?_eq (hthere hrun'))⟩

/-- Two connections at a node that is its own neighbour. One of them sends a marked line, a line
that is no command, and asks for a key that it has deleted. -/
theorem connections_undisturbed_two :
    let lists : Nat → List Item
      | 0 => [.line "SET a 1", .line "get a"]
      | 1 => [.line "PROPAGATE SET b 2", .line "FROB a", .line "del b", .line "GET b"]
      | _ => []
    let run : Arrivals := (lists 0).map (0, ·) ++ (lists 1).map (1, ·)
    let run' : Arrivals := [(1, .line "PROPAGATE SET b 2"), (0, .line "SET a 1"), (1, .line "FROB a"),
      (1, .line "del b"), (0, .line "get a"), (1, .line "GET b")]
    let c : Cluster := #[{ peer := .node 0 }]
    KeysApart lists ∧ run.Mixes lists ∧ run'.Mixes lists ∧
      (∀ conn line, .line line ∈ lists conn → '\n' ∉ line.toList) ∧
      (transcript Store.reply .empty run'.items).1 = (transcript Store.reply .empty run.items).1 ∧
      ((transcript (Cluster.answerAt 0) c run'.items).1.storeAt 0).get? "a" = some "1" ∧
      run'.repliesOn 0 (transcript (Cluster.answerAt 0) c run'.items).2 = [.done, .value "1"] ∧
      run'.repliesOn 1 (transcript (Cluster.answerAt 0) c run'.items).2 =
        [.done, .error "invalid command 'FROB'", .done, .absent] := by
  intro lists run run' c
  have hapart : KeysApart lists := by
    rintro (_ | _ | m) (_ | _ | n) hne
    · exact absurd rfl hne
    · decide
    · simp [lists]
    · decide
    · exact absurd rfl hne
    · simp [lists]
    · simp [lists]
    · simp [lists]
    · simp [lists]
  have hrun : run.Mixes lists := by
    rintro (_ | _ | conn)
    · decide
    · decide
    · simp [run, lists, Arrivals.on, Arrivals.items]
  have hrun' : run'.Mixes lists := by
    rintro (_ | _ | conn)
    · decide
    · decide
    · simp [run', lists, Arrivals.on, Arrivals.items]
  have hlines : ∀ conn line, .line line ∈ lists conn → '\n' ∉ line.toList := by
    rintro (_ | _ | conn) line hmem
    · have hline : line = "SET a 1" ∨ line = "get a" := by simpa [lists] using hmem
      rcases hline with rfl | rfl <;> decide
    · have hline : line = "PROPAGATE SET b 2" ∨ line = "FROB a" ∨ line = "del b" ∨ line = "GET b" := by
        simpa [lists] using hmem
      rcases hline with rfl | rfl | rfl | rfl <;> decide
    · simp [lists] at hmem
  obtain ⟨-, -, hstore, hnode⟩ := connections_undisturbed hapart hrun hrun' .empty
  obtain ⟨-, hundisturbed, -⟩ := hnode c 0 (by decide) rfl hlines
  refine ⟨hapart, hrun, hrun', hlines, hstore, ?_, ?_, ?_⟩
  · exact (hundisturbed.used 0 (.line "get a") (by decide) "a" (by decide)).trans (by decide)
  · exact (hundisturbed.replies_eq 0).trans (by decide)
  · exact (hundisturbed.replies_eq 1).trans (by decide)

end RelayStore
