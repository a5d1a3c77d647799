import Mathlib.Data.List.Forall2
import Mathlib.Data.List.Nodup
import RelayStore.Proofs.Address.Readback
import RelayStore.Proofs.CommandLine.Written

/-! # Options carried to the configuration

What is asked of a node on its command line is what it is configured with, in whatever order the
options come and however each is written. A number that a node cannot be configured with is an
error, whatever else is asked.
-/
namespace RelayStore.CommandLine

/-- One thing that is asked of a node. A number may be out of range. -/
inductive Choice where
  | listen (ip : Address.V4) (port : UInt16)
  | peer (address : String)
  | peerTimeout (milliseconds : Nat)
  | maxConnections (connections : Nat)
deriving DecidableEq, Repr

namespace Choice

def flag : Choice → Flag
  | .listen _ _ => .listen
  | .peer _ => .peer
  | .peerTimeout _ => .peerTimeout
  | .maxConnections _ => .maxConnections

def SaidBy : Choice → String → Prop
  | .listen ip port, text => text = (SocketAddress.v4 ip port).render
  | .peer address, text => text = address ∧ text.toList.head? ≠ some '-'
  | .peerTimeout n, text | .maxConnections n, text => Numeral.IsDecimal text n

structure WrittenAs (c : Choice) (w : Written) : Prop where
  flag_eq : w.flag = c.flag
  said : c.SaidBy w.text

def setting : Choice → Except Numeral.Flaw NodeConfig.Setting
  | .listen ip port => .ok (.listen (.v4 ip port))
  | .peer address => .ok (.peer address)
  | .peerTimeout n => if n < 2 ^ 64 then .ok (.peerTimeout n) else .error .tooLarge
  | .maxConnections n =>
    if n < 2 ^ 64 then
      if h : 0 < n then .ok (.maxConnections ⟨n, h⟩) else .error .zero
    else .error .tooLarge

end Choice

structure Choices where
  listen : Option (Address.V4 × UInt16) := none
  peer : Option String := none
  peerTimeout : Option Nat := none
  maxConnections : Option Nat := none
deriving DecidableEq, Repr

namespace Choices

def toList (choices : Choices) : List Choice :=
  (choices.listen.map fun a => .listen a.1 a.2).toList ++ (choices.peer.map .peer).toList ++
    (choices.peerTimeout.map .peerTimeout).toList ++ (choices.maxConnections.map .maxConnections).toList

def put (choices : Choices) : Choice → Choices
  | .listen ip port => { choices with listen := some (ip, port) }
  | .peer address => { choices with peer := some address }
  | .peerTimeout n => { choices with peerTimeout := some n }
  | .maxConnections n => { choices with maxConnections := some n }

structure InRange (choices : Choices) : Prop where
  peerTimeout : ∀ n ∈ choices.peerTimeout, n < 2 ^ 64
  maxConnections : ∀ n ∈ choices.maxConnections, 0 < n ∧ n < 2 ^ 64

/-- A configuration has what is asked, and the default where nothing is. -/
structure CarriedBy (choices : Choices) (config : NodeConfig) : Prop where
  listen_eq : config.listen = (choices.listen.map fun a => .v4 a.1 a.2).getD (.v4 ⟨127, 0, 0, 1⟩ 5000)
  peer_eq : config.peer = choices.peer
  peerTimeout_eq : config.peerTimeout = choices.peerTimeout.getD 2000
  maxConnections_eq : config.maxConnections.map Subtype.val = choices.maxConnections

end Choices

/-! ## One option -/

theorem head?_ne_dash {cs : List Char} (hne : cs ≠ []) (hcs : ∀ c ∈ cs, c.isDigit) (rest : List Char) :
    (cs ++ rest).head? ≠ some '-' := by
  obtain ⟨c, cs, rfl⟩ := List.exists_cons_of_ne_nil hne
  intro h
  have hc := hcs c List.mem_cons_self
  rw [Option.some.inj h] at hc
  exact absurd hc (by decide)

namespace Choice
variable {c : Choice} {w : Written}

theorem WrittenAs.isReadable (h : c.WrittenAs w) : w.IsReadable .serve where
  mem_flags := by
    rw [h.flag_eq]
    cases c <;> simp [Page.flags, flag]
  no_dash _ := by
    have hsaid := h.said
    cases c with
    | listen ip port =>
      obtain ⟨rest, hrest⟩ := SocketAddress.exists_toList_render_v4 ip port
      rw [show w.text = _ from hsaid, hrest]
      exact head?_ne_dash Nat.toDigits_ne_nil
        (fun _ hc => Nat.isDigit_of_mem_toDigits (by decide) (by decide) hc) rest
    | peer address => exact hsaid.2
    | peerTimeout n | maxConnections n =>
      have hhead := head?_ne_dash hsaid.ne_nil hsaid.isDigit []
      rwa [List.append_nil] at hhead

theorem WrittenAs.read_eq (h : c.WrittenAs w) : w.flag.read w.text =
    match c.setting with
    | .ok s => .ok (.setting s)
    | .error flaw => .error flaw.message := by
  have hsaid := h.said
  rw [h.flag_eq]
  -- an equation of the reader would open the scanners of addresses
  delta Flag.read
  cases c with
  | listen ip port =>
    rw [show w.text = _ from hsaid]
    simp only [flag, setting, SocketAddress.parse?_render_v4]
  | peer address =>
    rw [hsaid.1]
    rfl
  | peerTimeout n =>
    simp only [flag, setting, hsaid.parse_eq, Numeral.le_max64_iff]
    by_cases hn : n < 2 ^ 64
    · simp only [if_pos hn]
    · simp only [if_neg hn]
  | maxConnections n =>
    simp only [flag, setting, hsaid.parsePositive_eq, Numeral.le_max64_iff]
    by_cases hn : n < 2 ^ 64
    · by_cases hpos : 0 < n
      · simp only [if_pos hn, dif_pos hpos]
      · simp only [if_pos hn, dif_neg hpos]
    · simp only [if_neg hn]

theorem setting_cases {s : NodeConfig.Setting} (h : c.setting = .ok s) :
    (∃ ip port, c = .listen ip port ∧ s = .listen (.v4 ip port)) ∨
      (∃ address, c = .peer address ∧ s = .peer address) ∨
      (∃ n, c = .peerTimeout n ∧ n < 2 ^ 64 ∧ s = .peerTimeout n) ∨
      ∃ n, ∃ hpos : 0 < n, c = .maxConnections n ∧ n < 2 ^ 64 ∧ s = .maxConnections ⟨n, hpos⟩ := by
  cases c with
  | listen ip port => exact .inl ⟨ip, port, rfl, (Except.ok.inj h).symm⟩
  | peer address => exact .inr (.inl ⟨address, rfl, (Except.ok.inj h).symm⟩)
  | peerTimeout n =>
    rw [setting] at h
    split at h
    · next hn => exact .inr (.inr (.inl ⟨n, rfl, hn, (Except.ok.inj h).symm⟩))
    · cases h
  | maxConnections n =>
    rw [setting] at h
    split at h
    · next hn =>
      split at h
      · next hpos => exact .inr (.inr (.inr ⟨n, hpos, rfl, hn, (Except.ok.inj h).symm⟩))
      · cases h
    · cases h

theorem exists_setting_peerTimeout_iff (n : Nat) : (∃ s, (peerTimeout n).setting = .ok s) ↔ n < 2 ^ 64 := by
  constructor
  · rintro ⟨s, hs⟩
    rw [setting] at hs
    split at hs
    · next hn => exact hn
    · cases hs
  · exact fun hn => ⟨_, if_pos hn⟩

theorem exists_setting_maxConnections_iff (n : Nat) :
    (∃ s, (maxConnections n).setting = .ok s) ↔ 0 < n ∧ n < 2 ^ 64 := by
  constructor
  · rintro ⟨s, hs⟩
    rw [setting] at hs
    split at hs
    · next hn =>
      split at hs
      · next hpos => exact ⟨hpos, hn⟩
      · cases hs
    · cases hs
  · exact fun ⟨hpos, hn⟩ => ⟨_, (if_pos hn).trans (dif_pos hpos)⟩

def Gives (c : Choice) (g : Flag × Value) : Prop :=
  ∃ s, c.setting = .ok s ∧ g = (c.flag, .setting s)

theorem WrittenAs.commit_eq (h : c.WrittenAs w) (page : Page) {given : List (Flag × Value)}
    (hnew : c.flag ∉ given.map Prod.fst) : Progress.commit page given w.flag w.text =
      match c.setting with
      | .ok s => .ok (given ++ [(c.flag, .setting s)])
      | .error flaw => .error (.invalidValue w.flag w.text flaw.message) := by
  have hany : (given.any fun g => g.1 = w.flag) = false := by
    rw [List.any_eq_false, h.flag_eq]
    intro g hg
    rw [decide_eq_true_eq]
    exact fun he => hnew (he ▸ List.mem_map_of_mem hg)
  rw [Progress.commit, hany, h.read_eq, ← h.flag_eq]
  cases c.setting <;> rfl

end Choice

/-! ## All options -/

/-- Options that are given once each are all taken, or one that cannot be is the error. -/
theorem commitAll_cases (page : Page) {order : List Choice} {ws : List Written}
    (h : List.Forall₂ Choice.WrittenAs order ws) (hnodup : (order.map Choice.flag).Nodup)
    (given : List (Flag × Value)) (hgiven : (given.map Prod.fst).Disjoint (order.map Choice.flag)) :
    (∃ taken, List.Forall₂ Choice.Gives order taken ∧
        Progress.commitAll page given ws = .ok (given ++ taken)) ∨
      ∃ c w flaw, (c, w) ∈ order.zip ws ∧ c.setting = .error flaw ∧
        Progress.commitAll page given ws = .error (.invalidValue w.flag w.text flaw.message) := by
  induction h generalizing given with
  | nil => exact .inl ⟨[], .nil, by rw [List.append_nil]; rfl⟩
  | @cons c w order ws hw hws ih =>
    rw [List.map_cons] at hnodup hgiven
    obtain ⟨hfirst, hrest⟩ := List.nodup_cons.mp hnodup
    have hnew : c.flag ∉ given.map Prod.fst := fun hc => hgiven hc List.mem_cons_self
    rw [Progress.commitAll_cons, hw.commit_eq page hnew]
    cases hsetting : c.setting with
    | error flaw => exact .inr ⟨c, w, flaw, List.mem_cons_self, hsetting, rfl⟩
    | ok s =>
      have hnext : ((given ++ [(c.flag, Value.setting s)]).map Prod.fst).Disjoint
          (order.map Choice.flag) := by
        intro flag hmem hin
        rw [List.map_append, List.map_singleton, List.mem_append, List.mem_singleton] at hmem
        rcases hmem with hmem | rfl
        · exact hgiven hmem (List.mem_cons_of_mem _ hin)
        · exact hfirst hin
      rcases ih hrest _ hnext with ⟨taken, htaken, hrun⟩ | ⟨c', w', flaw, hmem, hc', hrun⟩
      · refine .inl ⟨(c.flag, .setting s) :: taken, .cons ⟨s, hsetting, rfl⟩ htaken, ?_⟩
        rw [← List.append_cons] at hrun
        exact hrun
      · exact .inr ⟨c', w', flaw, List.mem_cons_of_mem _ hmem, hc', hrun⟩

namespace Choices
variable {choices : Choices} {order : List Choice}

/-- What is asked leaves no choice to the configuration. -/
theorem CarriedBy.unique {config other : NodeConfig} (h : choices.CarriedBy config)
    (hother : choices.CarriedBy other) : config = other := by
  have hlisten := h.listen_eq.trans hother.listen_eq.symm
  have hpeer := h.peer_eq.trans hother.peer_eq.symm
  have htimeout := h.peerTimeout_eq.trans hother.peerTimeout_eq.symm
  have hcap := Option.map_injective Subtype.val_injective
    (h.maxConnections_eq.trans hother.maxConnections_eq.symm)
  cases config
  cases other
  simp_all

theorem CarriedBy.take {args : ServeArgs} (h : choices.CarriedBy args.nodeConfig) {c : Choice}
    {s : NodeConfig.Setting} (hs : c.setting = .ok s) :
    (choices.put c).CarriedBy (args.take s).nodeConfig := by
  rcases Choice.setting_cases hs with ⟨ip, port, rfl, rfl⟩ | ⟨address, rfl, rfl⟩ | ⟨n, rfl, -, rfl⟩ |
    ⟨n, hpos, rfl, -, rfl⟩
  · exact ⟨rfl, h.peer_eq, h.peerTimeout_eq, h.maxConnections_eq⟩
  · exact ⟨h.listen_eq, rfl, h.peerTimeout_eq, h.maxConnections_eq⟩
  · exact ⟨h.listen_eq, h.peer_eq, rfl, h.maxConnections_eq⟩
  · exact ⟨h.listen_eq, h.peer_eq, h.peerTimeout_eq, rfl⟩

theorem carriedBy_serveArgs {taken : List (Flag × Value)} (h : List.Forall₂ Choice.Gives order taken) :
    (order.foldl put {}).CarriedBy (serveArgs taken).nodeConfig := by
  have hdefault : CarriedBy {} ({} : ServeArgs).nodeConfig := ⟨rfl, rfl, rfl, rfl⟩
  rw [serveArgs]
  generalize ({} : Choices) = choices at hdefault ⊢
  generalize ({} : ServeArgs) = args at hdefault ⊢
  induction h generalizing choices args with
  | nil => exact hdefault
  | cons hc _ ih =>
    obtain ⟨s, hs, rfl⟩ := hc
    exact ih _ _ (hdefault.take hs)

theorem nodup_flags (choices : Choices) : (choices.toList.map Choice.flag).Nodup := by
  obtain ⟨listen, peer, peerTimeout, maxConnections⟩ := choices
  cases listen <;> cases peer <;> cases peerTimeout <;> cases maxConnections <;> simp [toList, Choice.flag]

theorem put_put (choices : Choices) {c d : Choice} (h : c.flag = d.flag → c = d) :
    (choices.put c).put d = (choices.put d).put c := by
  by_cases hflag : c.flag = d.flag
  · rw [h hflag]
  · cases c <;> cases d <;> simp [Choice.flag, put] at hflag ⊢

theorem foldl_put_toList (choices : Choices) : choices.toList.foldl put {} = choices := by
  obtain ⟨listen, peer, peerTimeout, maxConnections⟩ := choices
  cases listen <;> cases peer <;> cases peerTimeout <;> cases maxConnections <;> rfl

/-- In which order things are asked makes no difference, as no two are of one kind. -/
theorem foldl_put (horder : order.Perm choices.toList) : order.foldl put {} = choices := by
  have hinj := List.inj_on_of_nodup_map ((horder.map Choice.flag).nodup_iff.mpr choices.nodup_flags)
  calc order.foldl put {}
      = choices.toList.foldl put {} :=
        horder.foldl_eq' (fun c hc d hd before => put_put before (hinj hc hd)) _
    _ = choices := choices.foldl_put_toList

theorem mem_toList (c : Choice) : c ∈ choices.toList ↔
    (∃ a ∈ choices.listen, c = .listen a.1 a.2) ∨ (∃ a ∈ choices.peer, c = .peer a) ∨
      (∃ n ∈ choices.peerTimeout, c = .peerTimeout n) ∨
      ∃ n ∈ choices.maxConnections, c = .maxConnections n := by
  simp only [toList, List.mem_append, Option.mem_toList, Option.mem_def, Option.map_eq_some_iff,
    eq_comm (a := c), or_assoc]

theorem inRange_iff : choices.InRange ↔ ∀ c ∈ choices.toList, ∃ s, c.setting = .ok s := by
  constructor
  · intro h c hc
    rcases choices.mem_toList c |>.mp hc with ⟨a, -, rfl⟩ | ⟨a, -, rfl⟩ | ⟨n, hn, rfl⟩ | ⟨n, hn, rfl⟩
    · exact ⟨_, rfl⟩
    · exact ⟨_, rfl⟩
    · exact (Choice.exists_setting_peerTimeout_iff n).mpr (h.peerTimeout n hn)
    · exact (Choice.exists_setting_maxConnections_iff n).mpr (h.maxConnections n hn)
  · refine fun h => ⟨fun n hn => ?_, fun n hn => ?_⟩
    · apply (Choice.exists_setting_peerTimeout_iff n).mp
      exact h _ ((choices.mem_toList _).mpr (.inr (.inr (.inl ⟨n, hn, rfl⟩))))
    · apply (Choice.exists_setting_maxConnections_iff n).mp
      exact h _ ((choices.mem_toList _).mpr (.inr (.inr (.inr ⟨n, hn, rfl⟩))))

end Choices

theorem exists_setting_of_gives {order : List Choice} {taken : List (Flag × Value)}
    (h : List.Forall₂ Choice.Gives order taken) : ∀ c ∈ order, ∃ s, c.setting = .ok s := by
  have hboth := h.imp fun _ _ hg => And.intro (hg.imp fun _ hs => hs.1) hg
  exact ((List.forall₂_and_left _ _).mp hboth).1

theorem isReadable_of_writtenAs {order : List Choice} {ws : List Written}
    (h : List.Forall₂ Choice.WrittenAs order ws) : ∀ w ∈ ws, w.IsReadable .serve := by
  have hboth := h.flip.imp fun _ _ hw => And.intro hw.isReadable hw
  exact ((List.forall₂_and_left _ _).mp hboth).1

/-- A command line comes to the configuration that its options make, or to the error of one of them. -/
theorem parse_serve_cases {order : List Choice} {ws : List Written}
    (h : List.Forall₂ Choice.WrittenAs order ws) (hnodup : (order.map Choice.flag).Nodup) :
    (∃ taken, List.Forall₂ Choice.Gives order taken ∧
        parse ("serve" :: ws.flatMap Written.words) = .ok (.serve (serveArgs taken).nodeConfig)) ∨
      ∃ c w flaw, (c, w) ∈ order.zip ws ∧ c.setting = .error flaw ∧
        parse ("serve" :: ws.flatMap Written.words) = .error (.invalidValue w.flag w.text flaw.message) := by
  have hparse : parse ("serve" :: ws.flatMap Written.words) =
      (Progress.commitAll .serve [] ws).map fun given => Invocation.serve (serveArgs given).nodeConfig := by
    rw [parse, readOptions_written (isReadable_of_writtenAs h)]
    rfl
  rcases commitAll_cases .serve h hnodup [] (List.disjoint_nil_left _) with
    ⟨taken, htaken, hrun⟩ | ⟨c, w, flaw, hmem, hc, hrun⟩
  · exact .inl ⟨taken, htaken, by rw [hparse, hrun]; rfl⟩
  · exact .inr ⟨c, w, flaw, hmem, hc, by rw [hparse, hrun]; rfl⟩

/-- What is asked of a node, each thing at most once, in any order and each value behind its option
or attached to it, is what the node is configured with, and all else is as it is by default. If the
bound on the time does not fit into 64 bits, or the cap does not or is zero, then the line is in error
for such an option, with exit code 2: no number wraps or is brought into range. -/
theorem options_carried {choices : Choices} {order : List Choice} (horder : order.Perm choices.toList)
    {ws : List Written} (hws : List.Forall₂ Choice.WrittenAs order ws) :
    let run := parse ("serve" :: ws.flatMap Written.words)
    (choices.InRange → ∃ config, run = .ok (.serve config) ∧ choices.CarriedBy config) ∧
      (¬ choices.InRange → ∃ c w flaw, (c, w) ∈ order.zip ws ∧ c.setting = .error flaw ∧
        run = .error (.invalidValue w.flag w.text flaw.message) ∧
        (Notice.invalidValue w.flag w.text flaw.message).exitCode = 2) := by
  intro run
  have hnodup := (horder.map Choice.flag).nodup_iff.mpr choices.nodup_flags
  have hrange : choices.InRange ↔ ∀ c ∈ order, ∃ s, c.setting = .ok s := by
    rw [Choices.inRange_iff]
    exact forall_congr' fun c => imp_congr horder.mem_iff.symm Iff.rfl
  rcases parse_serve_cases hws hnodup with ⟨taken, htaken, hrun⟩ | ⟨c, w, flaw, hmem, hc, hrun⟩
  · refine ⟨fun _ => ⟨_, hrun, ?_⟩, fun h => ?_⟩
    · rw [← Choices.foldl_put horder]
      exact Choices.carriedBy_serveArgs htaken
    · exact absurd (hrange.mpr (exists_setting_of_gives htaken)) h
  · refine ⟨fun h => ?_, fun _ => ⟨c, w, flaw, hmem, hc, hrun, rfl⟩⟩
    obtain ⟨s, hs⟩ := hrange.mp h c (List.of_mem_zip hmem).1
    rw [hc] at hs
    cases hs

/-- The largest bound on the time is carried, and the next number is an error. -/
theorem options_carried_largest :
    let choices (n : Nat) : Choices :=
      { listen := some (⟨10, 0, 0, 255⟩, 65535), peer := some "b=c", peerTimeout := some n,
        maxConnections := some 7 }
    let order (n : Nat) : List Choice :=
      [.peerTimeout n, .maxConnections 7, .listen ⟨10, 0, 0, 255⟩ 65535, .peer "b=c"]
    let ws (n : Nat) : List Written :=
      [⟨.peerTimeout, toString n, false⟩, ⟨.maxConnections, "007", true⟩,
        ⟨.listen, "10.0.0.255:65535", true⟩, ⟨.peer, "b=c", false⟩]
    (∀ n, (order n).Perm (choices n).toList ∧ List.Forall₂ Choice.WrittenAs (order n) (ws n)) ∧
      parse ("serve" :: (ws (2 ^ 64 - 1)).flatMap Written.words) =
        .ok (.serve ⟨.v4 ⟨10, 0, 0, 255⟩ 65535, some "b=c", 2 ^ 64 - 1, some ⟨7, by decide⟩⟩) ∧
      ∃ notice, parse ("serve" :: (ws (2 ^ 64)).flatMap Written.words) = .error notice ∧
        notice.exitCode = 2 := by
  intro choices order ws
  have horder (n : Nat) : (order n).Perm (choices n).toList :=
    @List.perm_append_comm Choice [.peerTimeout n, .maxConnections 7]
      [.listen ⟨10, 0, 0, 255⟩ 65535, .peer "b=c"]
  have hseven : Numeral.IsDecimal "007" 7 :=
    ⟨by decide, List.all_eq_true.mp (by decide), by decide⟩
  have hlisten : "10.0.0.255:65535" = (SocketAddress.v4 ⟨10, 0, 0, 255⟩ 65535).render := by decide
  have hws (n : Nat) : List.Forall₂ Choice.WrittenAs (order n) (ws n) :=
    .cons ⟨rfl, Numeral.isDecimal_toString n⟩ (.cons ⟨rfl, hseven⟩
      (.cons ⟨rfl, hlisten⟩ (.cons ⟨rfl, rfl, by decide⟩ .nil)))
  refine ⟨fun n => ⟨horder n, hws n⟩, ?_, ?_⟩
  · have hrange : (choices (2 ^ 64 - 1)).InRange := by
      constructor <;> simp [choices]
    obtain ⟨config, hrun, hcarried⟩ := (options_carried (horder _) (hws _)).1 hrange
    have hconfig : (choices (2 ^ 64 - 1)).CarriedBy
        ⟨.v4 ⟨10, 0, 0, 255⟩ 65535, some "b=c", 2 ^ 64 - 1, some ⟨7, by decide⟩⟩ :=
      ⟨rfl, rfl, rfl, rfl⟩
    rw [hrun, hcarried.unique hconfig]
  · have hrange : ¬ (choices (2 ^ 64)).InRange := fun h => absurd (h.peerTimeout _ rfl) (by decide)
    obtain ⟨c, w, flaw, -, -, hrun, hcode⟩ := (options_carried (horder _) (hws _)).2 hrange
    exact ⟨_, hrun, hcode⟩

end RelayStore.CommandLine
