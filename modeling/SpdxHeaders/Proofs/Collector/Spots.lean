import Mathlib.Tactic.Lemma
import SpdxHeaders.Proofs.Collector.Walk
import SpdxHeaders.Proofs.FileTree.Names

/-!
# Where a walk comes by

A walk meets files in the order of their names (`walk_ordered`), so every file once, and the path
under which it meets a file leads to the place below the root where the file is (`walk_placed`).
This is so while the walk goes on in trees that differ from the first in bytes only.
-/

namespace SpdxHeaders

/-- The names of a file that is met. -/
def WalkEvent.file? : WalkEvent → Option (List Text)
  | .file names => some names
  | _ => none

namespace Collector

/-- Names lead down from a location without a link on the way. -/
structure Reaches (t : FileTree) (start : Location) (names : List Text) : Prop where
  isName : ∀ n ∈ names, IsName n
  noLink : ∀ ns, ns <+: names → ∀ target, t.get? (start ++ ns) ≠ some (.link target)

/-- The path of names leads to their place below the root, and a file is there. The root itself can
be something else. -/
structure Placed (c : Collector) (t : FileTree) (start : Location) (names : List Text) : Prop where
  root : t.locate .content c.root = .ok start
  locate : ∀ l, t.locate .content (c.pathOf names) = .ok l → l = start ++ names
  locate_below : names ≠ [] → ∀ purpose l, t.locate purpose (c.pathOf names) = .ok l →
    l = start ++ names
  file : names ≠ [] → ∃ bytes, t.get? (start ++ names) = some (.file bytes)

variable {c : Collector} {t : FileTree} {start : Location} {names : List Text}

/-- A location that is no link reaches itself. -/
lemma Reaches.nil (h : ∀ target, t.get? start ≠ some (.link target)) : Reaches t start [] := by
  refine ⟨by simp, fun ns hns target => ?_⟩
  rw [List.prefix_nil.1 hns, List.append_nil]
  exact h target

/-- Names and the name of an entry lead down if the entry is not a link. -/
lemma Reaches.concat (h : Reaches t start names) {n : Text} (hn : IsName n)
    (hlink : ∀ target, t.get? (start ++ (names ++ [n])) ≠ some (.link target)) :
    Reaches t start (names ++ [n]) := by
  refine ⟨fun m hm => ?_, fun ns hns => ?_⟩
  · rcases List.mem_append.1 hm with hm | hm
    · exact h.isName m hm
    · rw [List.mem_singleton.1 hm]
      exact hn
  · rcases List.prefix_concat_iff.1 hns with rfl | hns
    · exact hlink
    · exact h.noLink ns hns

/-- The path of names that lead down from the root leads to their place, whatever for. -/
lemma Reaches.locate (h : Reaches t start names) (hroot : t.locate .content c.root = .ok start)
    (hne : names ≠ []) {purpose : FileTree.Purpose} {l : Location}
    (hl : t.locate purpose (c.pathOf names) = .ok l) : l = start ++ names := by
  unfold pathOf at hl
  rw [if_neg (by simpa using hne)] at hl
  exact FileTree.locate_join hroot hne h.isName h.noLink hl

/-- Different names make different paths below the root. -/
lemma pathOf_inj (c : Collector) {names' : List Text} (h : ∀ n ∈ names, IsName n)
    (h' : ∀ n ∈ names', IsName n) (heq : c.pathOf names = c.pathOf names') : names = names' := by
  unfold pathOf at heq
  by_cases hnil : names = [] <;> by_cases hnil' : names' = []
  · rw [hnil, hnil']
  · rw [if_pos (by simpa using hnil), if_neg (by simpa using hnil')] at heq
    exact absurd heq.symm (Path.join_ne_self (ofNames_ne_nil hnil' h') (not_isAbsolute_ofNames h'))
  · rw [if_neg (by simpa using hnil), if_pos (by simpa using hnil')] at heq
    exact absurd heq (Path.join_ne_self (ofNames_ne_nil hnil h) (not_isAbsolute_ofNames h))
  · rw [if_neg (by simpa using hnil), if_neg (by simpa using hnil')] at heq
    have hof := Path.join_inj (not_isAbsolute_ofNames h) (not_isAbsolute_ofNames h') heq
    rw [← pieces_ofNames hnil h, hof, pieces_ofNames hnil' h']

/-- The root is where its path leads. -/
lemma Placed.nil (hroot : t.locate .content c.root = .ok start) : Placed c t start [] := by
  refine ⟨hroot, fun l hl => ?_, fun hne => absurd rfl hne, fun hne => absurd rfl hne⟩
  rw [List.append_nil]
  exact Except.ok.inj (hl.symm.trans hroot)

/-- A file that names lead down to is in its place. -/
lemma Reaches.placed (h : Reaches t start names) (hroot : t.locate .content c.root = .ok start)
    (hne : names ≠ []) {bytes : ByteArray} (hfile : t.get? (start ++ names) = some (.file bytes)) :
    Placed c t start names :=
  ⟨hroot, fun _ hl => h.locate hroot hne hl, fun _ _ _ hl => h.locate hroot hne hl,
    fun _ => ⟨_, hfile⟩⟩

/-- Names come before others if a name does at the first place where they go on differently. -/
lemma lt_of_prefix_concat {n m : Text} {spot spot' : List Text} (h : n < m)
    (hn : names ++ [n] <+: spot) (hm : names ++ [m] <+: spot') : spot < spot' := by
  obtain ⟨rest, rfl⟩ := hn
  obtain ⟨rest', rfl⟩ := hm
  rw [List.append_assoc, List.append_assoc]
  exact List.append_left_lt (.rel h)

/-- Steps that meet what is at entries in order meet all of it in order. -/
lemma foldl_spots {P : List Text → Prop} {f : List WalkEvent → Text → List WalkEvent}
    {ns : List Text} (hns : ns.Pairwise (· < ·))
    (h : ∀ n ∈ ns, ∀ es, ∃ spots : List (List Text), f es n = es ++ spots.map c.event ∧
      spots.Pairwise (· < ·) ∧ ∀ spot ∈ spots, names ++ [n] <+: spot ∧ P spot)
    (es : List WalkEvent) :
    ∃ spots : List (List Text), ns.foldl f es = es ++ spots.map c.event ∧
      spots.Pairwise (· < ·) ∧ ∀ spot ∈ spots, ∃ n ∈ ns, names ++ [n] <+: spot ∧ P spot := by
  induction ns generalizing es with
  | nil => exact ⟨[], by simp⟩
  | cons n ns ih =>
    obtain ⟨hn, hns⟩ := List.pairwise_cons.1 hns
    obtain ⟨here, heq, hordered, hspot⟩ := h n List.mem_cons_self es
    obtain ⟨later, heq', hordered', hspot'⟩ :=
      ih hns (fun m hm => h m (List.mem_cons_of_mem n hm)) (f es n)
    refine ⟨here ++ later, ?_, ?_, fun spot hmem => ?_⟩
    · rw [List.foldl_cons, heq', heq, List.map_append, List.append_assoc]
    · refine List.pairwise_append.2 ⟨hordered, hordered', fun a ha b hb => ?_⟩
      obtain ⟨m, hm, hpre, -⟩ := hspot' b hb
      exact lt_of_prefix_concat (hn m hm) (hspot a ha).1 hpre
    · rcases List.mem_append.1 hmem with hmem | hmem
      · exact ⟨n, List.mem_cons_self, hspot spot hmem⟩
      · obtain ⟨m, hm, hP⟩ := hspot' spot hmem
        exact ⟨m, List.mem_cons_of_mem n hm, hP⟩

variable {look : List WalkEvent → FileTree}

/-- What is met below a directory is met in order, and is a file in its place. -/
lemma foldBelow_spots (ht : t.WellNamed) (hlook : ∀ es, t.Alike (look es))
    (hroot : t.locate .content c.root = .ok start) (depth : Nat) (rules : IgnoreRules)
    (hnames : Reaches t start names) (es : List WalkEvent) :
    ∃ spots : List (List Text),
      c.foldBelow look meet start depth rules names es = es ++ spots.map c.event ∧
      spots.Pairwise (· < ·) ∧ ∀ spot ∈ spots, names <+: spot ∧ Placed c t start spot := by
  induction depth generalizing rules names es with
  | zero => exact ⟨[], by simp [foldBelow]⟩
  | succ depth ih =>
    rw [foldBelow_succ, (hlook es).names]
    have hstep (n : Text) (hn : n ∈ t.names (start ++ names)) (es' : List WalkEvent) :
        ∃ spots : List (List Text), c.atEntry look meet start depth (look es)
            (rules.enter (look es) (start ++ names)) names es' n = es' ++ spots.map c.event ∧
          spots.Pairwise (· < ·) ∧
          ∀ spot ∈ spots, names ++ [n] <+: spot ∧ Placed c t start spot := by
      have hname := ht.isName hn
      have hshape := (hlook es).shape (start ++ (names ++ [n]))
      have hnone : es' = es' ++ ([] : List (List Text)).map c.event := by simp
      unfold atEntry
      dsimp only
      split
      case h_1 hdir =>
        split
        case isTrue => exact ⟨[], hnone, by simp⟩
        case isFalse =>
          -- The entry is a directory in both trees, so no link is on the way.
          refine ih _ (hnames.concat hname fun target hlink => ?_) es'
          rw [hdir, hlink] at hshape
          cases hshape
      case h_2 hfile =>
        split
        case isTrue => exact ⟨[], hnone, by simp⟩
        case isFalse =>
          rw [hfile] at hshape
          obtain ⟨bytes, hbytes⟩ := hshape.exists_file
          have hreaches : Reaches t start (names ++ [n]) :=
            hnames.concat hname fun target hlink => by
              rw [hbytes] at hlink
              cases hlink
          refine ⟨[names ++ [n]], rfl, by simp, fun spot hspot => ?_⟩
          rw [List.mem_singleton.1 hspot]
          exact ⟨List.prefix_rfl, hreaches.placed hroot (by simp) hbytes⟩
      case h_3 => exact ⟨[], hnone, by simp⟩
    obtain ⟨spots, heq, hordered, hspots⟩ := foldl_spots (t.pairwise_names _) hstep es
    refine ⟨spots, heq, hordered, fun spot hspot => ?_⟩
    obtain ⟨n, -, hpre, hplaced⟩ := hspots spot hspot
    exact ⟨(List.prefix_append ..).trans hpre, hplaced⟩

/-- What a walk meets is met in order, and is in its place below the root. -/
lemma walk_spots (ht : t.WellNamed) (hlook : ∀ es, t.Alike (look es)) :
    ∃ (start : Location) (before : List WalkEvent) (spots : List (List Text)),
      c.walk look = before ++ spots.map c.event ∧
      (∀ e ∈ before, e.file? = none) ∧ spots.Pairwise (· < ·) ∧
      ∀ spot ∈ spots, Placed c t start spot := by
  unfold walk fold
  dsimp only
  rw [(hlook []).locate]
  split
  case h_1 => exact ⟨[], [_], [], rfl, by simp [WalkEvent.file?], by simp⟩
  case h_2 start hstart =>
    have hshape := (hlook []).shape start
    split
    case h_1 hdir =>
      have hreaches : Reaches t start [] := .nil fun target hlink => by
        rw [hdir, hlink] at hshape
        cases hshape
      split
      case isTrue =>
        obtain ⟨spots, heq, hordered, hspots⟩ := foldBelow_spots ht hlook hstart _ _ hreaches []
        exact ⟨start, [], spots, heq, by simp, hordered, fun spot hmem => (hspots spot hmem).2⟩
      case isFalse =>
        obtain ⟨spots, heq, hordered, hspots⟩ := foldBelow_spots ht hlook hstart _ _ hreaches _
        exact ⟨start, _, spots, heq, by simp [WalkEvent.file?], hordered,
          fun spot hmem => (hspots spot hmem).2⟩
    case h_2 =>
      refine ⟨start, [], [[]], rfl, by simp, by simp, fun spot hmem => ?_⟩
      rw [List.mem_singleton.1 hmem]
      exact .nil hstart

/-- A walk meets files in order, each in its place below the root. -/
lemma walk_ordered (c : Collector) (ht : t.WellNamed) (hlook : ∀ es, t.Alike (look es)) :
    ((c.walk look).filterMap WalkEvent.file?).Pairwise (· < ·) ∧
      ∃ start, ∀ names ∈ (c.walk look).filterMap WalkEvent.file?, Placed c t start names := by
  obtain ⟨start, before, spots, heq, hbefore, hordered, hspots⟩ := walk_spots (c := c) ht hlook
  have hfiles : (c.walk look).filterMap WalkEvent.file?
      = spots.filter fun names => !c.manifest.excludes (Path.ofNames names) := by
    rw [heq, List.filterMap_append, List.filterMap_eq_nil_iff.2 hbefore, List.nil_append,
      List.filterMap_map, ← List.filterMap_eq_filter]
    congr 1
    funext names
    simp only [Function.comp, event, Option.guard]
    split <;> simp_all [WalkEvent.file?]
  rw [hfiles]
  exact ⟨hordered.filter _, start, fun names hmem => hspots names (List.mem_filter.1 hmem).1⟩

/-- A walk meets every file once, and in its place below the root. -/
theorem walk_placed (c : Collector) (ht : t.WellNamed) (hlook : ∀ es, t.Alike (look es)) :
    ((c.walk look).filterMap WalkEvent.file?).Nodup ∧
      ∃ start, ∀ names ∈ (c.walk look).filterMap WalkEvent.file?, Placed c t start names := by
  obtain ⟨hordered, hplaced⟩ := c.walk_ordered ht hlook
  refine ⟨hordered.imp ?_, hplaced⟩
  rintro names _ h rfl
  exact List.lt_irrefl names h

end Collector

end SpdxHeaders
