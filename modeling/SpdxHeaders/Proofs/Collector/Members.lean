import SpdxHeaders.Proofs.Collector.Spots

/-!
# What a walk comes by

The files that are collected in a tree that stays as it is, told without the walk: the directories
that it enters are the least set with the root and what is not skipped in a directory of the set
(`Entered`), and the files are those that are not skipped in such a directory (`mem_files_iff`).
-/

namespace SpdxHeaders.Collector

/-- The rules for the entries of a directory. -/
def rulesIn (t : FileTree) (dir : Location) : IgnoreRules :=
  IgnoreRules.enter ⟨layersAbove t dir, UserRules.read t⟩ t dir

/-- The entry of a directory is skipped on a walk from the start. -/
def skips (c : Collector) (t : FileTree) (start : Location) (names : List Text) (n : Text)
    (isDirectory : Bool) : Bool :=
  (rulesIn t (start ++ names)).skips (start ++ (names ++ [n]))
    (pathFromHere t (c.pathOf (names ++ [n]))) isDirectory

/-- The directories that a walk from the start enters. -/
inductive Entered (c : Collector) (t : FileTree) (start : Location) : List Text → Prop where
  | root : Entered c t start []
  | entry {names : List Text} {n : Text} (h : Entered c t start names)
    (hdir : t.get? (start ++ (names ++ [n])) = some .directory)
    (hskips : c.skips t start names n true = false) (hprunes : c.prunes t (names ++ [n]) = false) :
    Entered c t start (names ++ [n])

/-- The files that a walk from the start comes by. -/
inductive Found (c : Collector) (t : FileTree) (start : Location) : List Text → Prop where
  | file {names : List Text} {n : Text} {bytes : ByteArray} (h : Entered c t start names)
    (hfile : t.get? (start ++ (names ++ [n])) = some (.file bytes))
    (hskips : c.skips t start names n false = false) : Found c t start (names ++ [n])

/-- What is met below a directory that names lead to. -/
def eventsBelow (c : Collector) (t : FileTree) (start : Location) (depth : Nat)
    (names : List Text) : List WalkEvent :=
  c.foldBelow (fun _ => t) meet start depth ⟨layersAbove t (start ++ names), UserRules.read t⟩ names
    []

variable {c : Collector} {t t' : FileTree} {start dir : Location} {names : List Text} {n : Text}
  {depth : Nat} {e : WalkEvent}

/-- Above a directory are its parent and what is above that. -/
lemma layersAbove_concat (t : FileTree) (dir : Location) (n : Text) :
    layersAbove t (dir ++ [n]) = IgnoreLayer.read t dir :: layersAbove t dir := by
  unfold layersAbove
  rw [List.length_append, List.length_singleton, List.range_succ, List.map_append,
    List.reverse_append, List.map_singleton, List.reverse_singleton, List.take_left,
    List.singleton_append]
  congr 2
  apply List.map_congr_left
  intro k hk
  rw [List.take_append_of_le_length (Nat.le_of_lt (List.mem_range.1 hk))]

/-- What was met before does not matter in a tree that stays as it is. -/
lemma foldBelow_const (c : Collector) (t : FileTree) (start : Location) (depth : Nat)
    (rules : IgnoreRules) (names : List Text) (es : List WalkEvent) :
    c.foldBelow (fun _ => t) meet start depth rules names es
      = es ++ c.foldBelow (fun _ => t) meet start depth rules names [] := by
  conv_lhs => rw [← List.append_nil es]
  exact foldBelow_hom (π := (es ++ ·)) (fun _ => rfl) (fun _ _ => List.append_assoc ..) c start
    depth rules names []

/-- Steps that add to what was met add what they meet at the single entries. -/
lemma mem_foldl_iff {P : Text → Prop} {f : List WalkEvent → Text → List WalkEvent}
    (hf : ∀ es n, e ∈ f es n ↔ e ∈ es ∨ P n) (ns : List Text) (es : List WalkEvent) :
    e ∈ ns.foldl f es ↔ e ∈ es ∨ ∃ n ∈ ns, P n := by
  induction ns generalizing es with
  | nil => simp
  | cons n ns ih => rw [List.foldl_cons, ih, hf, List.exists_mem_cons_iff, or_assoc]

/-- What can be met at an entry: what is below a directory that is entered, or a file. -/
def MetAt (c : Collector) (t : FileTree) (start : Location) (depth : Nat) (names : List Text)
    (e : WalkEvent) (n : Text) : Prop :=
  (t.get? (start ++ (names ++ [n])) = some .directory ∧ c.skips t start names n true = false ∧
      c.prunes t (names ++ [n]) = false ∧ e ∈ c.eventsBelow t start depth (names ++ [n])) ∨
    (∃ bytes, t.get? (start ++ (names ++ [n])) = some (.file bytes)) ∧
      c.skips t start names n false = false ∧ e = c.event (names ++ [n])

/-- What has been met after an entry was met before or is met there. -/
lemma mem_atEntry_iff {es : List WalkEvent} :
    e ∈ c.atEntry (fun _ => t) meet start depth t (rulesIn t (start ++ names)) names es n ↔
      e ∈ es ∨ c.MetAt t start depth names e n := by
  unfold MetAt
  cases hn : t.get? (start ++ (names ++ [n])) with
  | none => simp [atEntry, hn]
  | some node =>
    cases node with
    | link target => simp [atEntry_link hn]
    | file bytes =>
      rw [atEntry_file hn]
      change (e ∈ if c.skips t start names n false = true then es else es ++ [_]) ↔ _
      split <;> simp_all
    | directory =>
      have hbelow : c.foldBelow (fun _ => t) meet start depth (rulesIn t (start ++ names))
          (names ++ [n]) es = es ++ c.eventsBelow t start depth (names ++ [n]) := by
        rw [foldBelow_const, eventsBelow, ← List.append_assoc, layersAbove_concat]
        rfl
      rw [atEntry_directory hn, hbelow]
      change (e ∈ if (c.skips t start names n true || c.prunes t (names ++ [n])) = true then es
        else es ++ _) ↔ _
      cases c.skips t start names n true <;> cases c.prunes t (names ++ [n]) <;> simp

/-- What is met below a directory is met at its entries. -/
lemma mem_eventsBelow_succ_iff :
    e ∈ c.eventsBelow t start (depth + 1) names ↔ ∃ n, c.MetAt t start depth names e n := by
  have hentry {n : Text} (h : c.MetAt t start depth names e n) : n ∈ t.names (start ++ names) := by
    rw [FileTree.mem_names_iff, List.append_assoc]
    refine FileTree.mem_locations_of_get? (by simp) ?_
    rcases h with ⟨h, -⟩ | ⟨⟨bytes, h⟩, -⟩ <;> rw [h] <;> rfl
  unfold eventsBelow
  rw [foldBelow_succ]
  refine .trans (mem_foldl_iff (P := c.MetAt t start depth names e) (fun _ _ => mem_atEntry_iff)
    (t.names (start ++ names)) []) ?_
  constructor
  · rintro (h | ⟨n, -, h⟩)
    · cases h
    · exact ⟨n, h⟩
  · rintro ⟨n, h⟩
    exact .inr ⟨n, hentry h, h⟩

/-- Below a directory that is entered only files of the set are met. -/
lemma exists_found_of_mem (hnames : Entered c t start names)
    (h : e ∈ c.eventsBelow t start depth names) :
    ∃ spot, Found c t start spot ∧ e = c.event spot := by
  induction depth generalizing names with
  | zero => cases h
  | succ depth ih =>
    obtain ⟨n, ⟨hdir, hskips, hprunes, h⟩ | ⟨⟨bytes, hfile⟩, hskips, rfl⟩⟩ :=
      mem_eventsBelow_succ_iff.1 h
    · exact ih (hnames.entry hdir hskips hprunes) h
    · exact ⟨_, .file hnames hfile hskips, rfl⟩

/-- What is met below a directory that is entered is met on the walk, if it goes deep enough. -/
lemma Entered.mem_eventsBelow (h : Entered c t start names)
    (he : e ∈ c.eventsBelow t start depth names) :
    e ∈ c.eventsBelow t start (depth + names.length) [] := by
  induction h generalizing depth with
  | root => exact he
  | entry _ hdir hskips hprunes ih =>
    have hup := ih (mem_eventsBelow_succ_iff.2 ⟨_, .inl ⟨hdir, hskips, hprunes, he⟩⟩)
    rw [List.length_append, List.length_singleton, ← Nat.add_assoc, Nat.add_right_comm]
    exact hup

/-- A walk goes deep enough to meet every file of the set. -/
lemma Found.mem_eventsBelow (h : Found c t start names) :
    c.event names ∈ c.eventsBelow t start (t.depth + 1) [] := by
  obtain ⟨hnames, hfile, hskips⟩ := h
  rename_i names n bytes
  have hdepth := FileTree.depth_le_iff.1 (Nat.le_refl t.depth) (start ++ (names ++ [n]))
    (FileTree.mem_locations_of_get? (by simp) (by rw [hfile]; rfl))
  have hmet : c.event (names ++ [n]) ∈ c.eventsBelow t start (t.depth - names.length + 1) names :=
    mem_eventsBelow_succ_iff.2 ⟨n, .inr ⟨⟨bytes, hfile⟩, hskips, rfl⟩⟩
  have hup := hnames.mem_eventsBelow hmet
  have hlength : t.depth - names.length + 1 + names.length = t.depth + 1 := by
    simp only [List.length_append, List.length_singleton] at hdepth
    omega
  rwa [hlength] at hup

/-- The files that are collected are the files that are met. -/
lemma files_eq (c : Collector) (t : FileTree) :
    c.files t = (c.events t).filterMap WalkEvent.file? :=
  rfl

/-- The files that are collected are those that the walk comes by, unless they are excluded. -/
theorem mem_files_iff (hstart : t.locate .content c.root = .ok start)
    (hdir : t.get? start = some .directory) :
    names ∈ c.files t ↔
      Found c t start names ∧ c.manifest.excludes (Path.ofNames names) = false := by
  have hevent {spot : List Text} (h : WalkEvent.file names = c.event spot) :
      spot = names ∧ c.manifest.excludes (Path.ofNames names) = false := by
    unfold event at h
    split at h
    case isTrue => cases h
    case isFalse hexcludes =>
      cases h
      exact ⟨rfl, by simpa using hexcludes⟩
  have hmem : names ∈ c.files t ↔ .file names ∈ c.eventsBelow t start (t.depth + 1) [] := by
    have hfile : names ∈ c.files t ↔ .file names ∈ c.events t := by
      rw [files_eq, List.mem_filterMap]
      constructor
      · rintro ⟨e, he, hnames⟩
        cases e <;> cases hnames
        exact he
      · intro h
        exact ⟨_, h, rfl⟩
    rw [hfile]
    unfold events fold eventsBelow
    dsimp only
    rw [hstart]
    dsimp only
    rw [hdir, List.append_nil]
    dsimp only
    split
    · exact Iff.rfl
    · rw [foldBelow_const]
      simp
  rw [hmem]
  constructor
  · intro h
    obtain ⟨spot, hspot, he⟩ := exists_found_of_mem .root h
    obtain ⟨rfl, hexcludes⟩ := hevent he
    exact ⟨hspot, hexcludes⟩
  · rintro ⟨h, hexcludes⟩
    have hmet := h.mem_eventsBelow
    unfold event at hmet
    rwa [if_neg (by simp [hexcludes])] at hmet

/-- What a walk comes by is a file. -/
lemma Found.exists_file (h : Found c t start names) :
    ∃ bytes, t.get? (start ++ names) = some (.file bytes) := by
  obtain ⟨-, hfile, -⟩ := h
  exact ⟨_, hfile⟩

/-- Where the same rules hold, the same entries are skipped. -/
lemma skips_congr (hhere : t'.here = t.here)
    (hrules : ∀ dir, start <+: dir → rulesIn t' dir = rulesIn t dir) (names : List Text) (n : Text)
    (isDirectory : Bool) :
    c.skips t' start names n isDirectory = c.skips t start names n isDirectory := by
  unfold skips pathFromHere
  rw [hrules _ (List.prefix_append ..), hhere]

/-- Where the same rules hold, and directories stay, the same directories are entered. -/
lemma Entered.congr (hhere : t'.here = t.here) (hgarbled : t'.garbled = t.garbled)
    (hrules : ∀ dir, start <+: dir → rulesIn t' dir = rulesIn t dir)
    (hdirs : ∀ l, t.get? l = some .directory → t'.get? l = some .directory)
    (h : Entered c t start names) : Entered c t' start names := by
  induction h with
  | root => exact .root
  | entry _ hdir hskips hprunes ih =>
    exact ih.entry (hdirs _ hdir) ((skips_congr hhere hrules ..).trans hskips)
      ((c.prunes_congr hgarbled _).trans hprunes)

/-- A file that a walk comes by is come by where the same rules hold and the file is still there. -/
lemma Found.congr (hhere : t'.here = t.here) (hgarbled : t'.garbled = t.garbled)
    (hrules : ∀ dir, start <+: dir → rulesIn t' dir = rulesIn t dir)
    (hdirs : ∀ l, t.get? l = some .directory → t'.get? l = some .directory)
    (h : Found c t start names) (hfile : ∃ bytes, t'.get? (start ++ names) = some (.file bytes)) :
    Found c t' start names := by
  obtain ⟨hnames, -, hskips⟩ := h
  obtain ⟨bytes, hfile⟩ := hfile
  exact .file (hnames.congr hhere hgarbled hrules hdirs) hfile
    ((skips_congr hhere hrules ..).trans hskips)

/-- The rules of a tree with the same rules. -/
lemma SameRules.rulesIn {root : Path} (h : SameRules root t t')
    (hstart : t.locate .content root = .ok start) (hdir : start <+: dir) :
    Collector.rulesIn t' dir = Collector.rulesIn t dir := by
  unfold Collector.rulesIn IgnoreRules.enter
  rw [h.layersAbove hstart hdir, h.own, h.layers start hstart dir (.inl hdir)]

end SpdxHeaders.Collector
