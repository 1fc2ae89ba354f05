import SpdxHeaders.Proofs.Collector.Pruning

/-!
# What a walk passes over

A walk may see another tree each time it enters a directory, and it is by that tree that it goes
there. The directories that it enters, and when, are told by `Enters`, and the files that it meets
are not skipped in such a directory (`Meets`). Everything that a walk takes for a file is of these
(`meets_of_mem_walk`), and all of them are kept (`Meets.kept`). In a tree that stays as it is they
are the files that the walk comes by (`meets_const_iff`).
-/

namespace SpdxHeaders.Collector

/-- The rules that a walk comes to its root with: those of the directories above it, and the user's
own. -/
def rulesAbove (t : FileTree) (start : Location) : IgnoreRules :=
  ⟨layersAbove t start, UserRules.read t⟩

/-- An entry is skipped by rules, in the tree that was seen when its directory was entered. -/
def skipsBy (c : Collector) (rules : IgnoreRules) (t : FileTree) (start : Location)
    (names : List Text) (isDirectory : Bool) : Bool :=
  rules.skips (start ++ names) (pathFromHere t (c.pathOf names)) isDirectory

section Passage
variable (c : Collector) (look : List WalkEvent → FileTree) (start : Location)

/-- The walk enters the directory that names lead to when it has met `es`, and goes there by the
rules. -/
inductive Enters : List Text → List WalkEvent → IgnoreRules → Prop where
  | root {es} :
    es <+: c.walk look →
    Enters [] es ((rulesAbove (look []) start).enter (look es) start)
  | entry {names es rules n es'} :
    Enters names es rules →
    (look es).get? (start ++ (names ++ [n])) = some .directory →
    c.skipsBy rules (look es) start (names ++ [n]) true = false →
    c.prunes (look es) (names ++ [n]) = false →
    es <+: es' → es' <+: c.walk look →
    Enters (names ++ [n]) es' (rules.enter (look es') (start ++ (names ++ [n])))

/-- The walk meets the file that names lead to: it is not skipped in a directory that is entered,
and the manifest does not exclude it. -/
inductive Meets : List Text → Prop where
  | file {names es rules n bytes} :
    Enters c look start names es rules →
    (look es).get? (start ++ (names ++ [n])) = some (.file bytes) →
    c.skipsBy rules (look es) start (names ++ [n]) false = false →
    c.manifest.excludes (Path.ofNames (names ++ [n])) = false →
    Meets (names ++ [n])

end Passage

variable {c : Collector} {look : List WalkEvent → FileTree} {start : Location}
  {names spot : List Text} {es all : List WalkEvent} {rules : IgnoreRules}

/-- Steps that only add what has a property do so one after the other, up to what is met in all. -/
lemma forall_mem_foldl {P : WalkEvent → Prop} {f : List WalkEvent → Text → List WalkEvent}
    (hadd : ∀ es n, es <+: f es n)
    (hstep : ∀ es' n, es <+: es' → f es' n <+: all → ∀ e ∈ f es' n, e ∈ es' ∨ P e)
    (ns : List Text) {es' : List WalkEvent} (hes : es <+: es') (hall : ns.foldl f es' <+: all) :
    ∀ e ∈ ns.foldl f es', e ∈ es' ∨ P e := by
  induction ns generalizing es' with
  | nil => exact fun e he => .inl he
  | cons n ns ih =>
    intro e he
    rcases ih (hes.trans (hadd es' n)) hall e he with he | he
    · exact hstep es' n hes ((prefix_foldl hadd (f es' n) ns).trans hall) e he
    · exact .inr he

/-- A file stands for itself unless the manifest excludes it. -/
lemma file_eq_event_iff :
    WalkEvent.file spot = c.event names ↔
      spot = names ∧ c.manifest.excludes (Path.ofNames names) = false := by
  unfold event
  cases c.manifest.excludes (Path.ofNames names) <;> simp

/-- Below a directory that the walk enters it takes nothing for a file but what it meets. -/
lemma meets_of_mem_foldBelow (depth : Nat)
    (hall : c.foldBelow look meet start depth rules names es <+: c.walk look)
    (henters : Enters c look start names es (rules.enter (look es) (start ++ names))) :
    ∀ e ∈ c.foldBelow look meet start depth rules names es,
      e ∈ es ∨ ∀ spot, e = .file spot → Meets c look start spot := by
  induction depth generalizing rules names es with
  | zero => exact fun e he => .inl he
  | succ depth ih =>
    rw [foldBelow_succ] at hall ⊢
    refine forall_mem_foldl (prefix_atEntry (prefix_foldBelow depth) _ _ _) ?_ _ List.prefix_rfl hall
    intro es' n hes hall' e he
    -- By cases on what the entry was when the directory was entered.
    cases hnode : (look es).get? (start ++ (names ++ [n])) with
    | none =>
      simp only [atEntry, hnode] at he
      exact .inl he
    | some node =>
      cases node with
      | link target =>
        rw [atEntry_link hnode] at he
        exact .inl he
      | file bytes =>
        rw [atEntry_file hnode] at he
        split at he
        case isTrue => exact .inl he
        case isFalse hskips =>
          refine (List.mem_append.1 he).imp_right fun he spot hspot => ?_
          rw [List.mem_singleton.1 he, eq_comm, file_eq_event_iff] at hspot
          rw [hspot.1]
          exact .file henters hnode (Bool.eq_false_of_not_eq_true hskips) hspot.2
      | directory =>
        rw [atEntry_directory hnode] at he hall'
        split at he
        case isTrue => exact .inl he
        case isFalse hskips =>
          rw [if_neg hskips] at hall'
          rw [Bool.not_eq_true, Bool.or_eq_false_iff] at hskips
          refine ih hall' ?_ e he
          exact henters.entry hnode hskips.1 hskips.2 hes ((prefix_foldBelow ..).trans hall')

/-- What a walk of a directory takes for a file is a file that it meets. -/
theorem meets_of_mem_walk (hstart : (look []).locate .content c.root = .ok start)
    (hdir : (look []).get? start = some .directory) (h : .file spot ∈ c.walk look) :
    Meets c look start spot := by
  have hwalk : ∃ es, (∀ e ∈ es, e.file? = none) ∧ c.walk look
      = c.foldBelow look meet start ((look []).depth + 1) (rulesAbove (look []) start) [] es := by
    unfold walk fold
    dsimp only
    rw [hstart]
    dsimp only
    rw [hdir]
    dsimp only
    split
    · exact ⟨[], by simp, rfl⟩
    · exact ⟨_, by simp [WalkEvent.file?], rfl⟩
  obtain ⟨es, hes, hwalk⟩ := hwalk
  have henters : Enters c look start [] es
      ((rulesAbove (look []) start).enter (look es) (start ++ [])) := by
    rw [List.append_nil]
    exact .root (hwalk ▸ prefix_foldBelow ..)
  have hall : c.foldBelow look meet start ((look []).depth + 1) (rulesAbove (look []) start) [] es
      <+: c.walk look := by
    rw [hwalk]
  rcases meets_of_mem_foldBelow _ hall henters _ (hwalk ▸ h) with hmem | hmeets
  · cases hes _ hmem
  · exact hmeets spot rfl

/-- In a tree that stays as it is, a walk enters the directories of the set, with the rules in
them. -/
lemma exists_enters_const_iff {t : FileTree} :
    (∃ es, Enters c (fun _ => t) start names es rules) ↔
      Entered c t start names ∧ rules = rulesIn t (start ++ names) := by
  have hconcat (names : List Text) (n : Text) : (rulesIn t (start ++ names)).enter t
      (start ++ (names ++ [n])) = rulesIn t (start ++ (names ++ [n])) := by
    rw [rulesIn, rulesIn, ← List.append_assoc, layersAbove_concat]
    rfl
  constructor
  · rintro ⟨es, h⟩
    induction h with
    | root => exact ⟨.root, by rw [List.append_nil]; rfl⟩
    | entry _ hdir hskips hprunes _ _ ih =>
      obtain ⟨hentered, rfl⟩ := ih
      exact ⟨hentered.entry hdir hskips hprunes, hconcat _ _⟩
  · rintro ⟨h, rfl⟩
    refine ⟨[], ?_⟩
    induction h with
    | root =>
      rw [List.append_nil]
      exact .root List.nil_prefix
    | entry _ hdir hskips hprunes ih =>
      rw [← hconcat]
      exact ih.entry hdir hskips hprunes List.prefix_rfl List.nil_prefix

/-- In a tree that stays as it is, a walk meets the files of the set that are not excluded. -/
lemma meets_const_iff {t : FileTree} :
    Meets c (fun _ => t) start names ↔
      Found c t start names ∧ c.manifest.excludes (Path.ofNames names) = false := by
  constructor
  · rintro ⟨henters, hfile, hskips, hincluded⟩
    obtain ⟨hentered, rfl⟩ := exists_enters_const_iff.1 ⟨_, henters⟩
    exact ⟨.file hentered hfile hskips, hincluded⟩
  · rintro ⟨⟨hentered, hfile, hskips⟩, hincluded⟩
    obtain ⟨es, henters⟩ := exists_enters_const_iff.2 ⟨hentered, rfl⟩
    exact .file henters hfile hskips hincluded

/-- No directory on the way to one that is entered is pruned, as long as the walk sees the same
names that are not UTF-8. -/
lemma Enters.prunes_eq_false {t : FileTree} (hlook : ∀ es, (look es).garbled = t.garbled)
    (h : Enters c look start names es rules) :
    ∀ dir, dir <+: names → dir ≠ [] → c.prunes t dir = false := by
  induction h with
  | root => exact fun dir hdir hne => absurd (List.prefix_nil.1 hdir) hne
  | entry _ _ _ hprunes _ _ ih =>
    intro dir hdir hne
    rcases List.prefix_concat_iff.1 hdir with rfl | hdir
    · exact (c.prunes_congr (hlook _) _).symm.trans hprunes
    · exact ih dir hdir hne

/-- A file that is met is kept. -/
theorem Meets.kept {t : FileTree} {root : Path} {ignoredDirs : List Text} {m : Manifest}
    (h : Meets ⟨root, ignoredDirs.map trimSlashes, m⟩ look start names)
    (hlook : ∀ es, (look es).garbled = t.garbled) (hnames : ∀ n ∈ names, IsName n) :
    Kept t ignoredDirs m names := by
  obtain ⟨henters, -, -, hincluded⟩ := h
  refine (@kept_iff t root _ _ _ hnames).2 ⟨fun dir hdir hne hne' => ?_, hincluded⟩
  exact henters.prunes_eq_false hlook dir ((List.prefix_concat_iff.1 hdir).resolve_left hne') hne

end SpdxHeaders.Collector
