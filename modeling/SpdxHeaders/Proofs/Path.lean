import Mathlib.Data.List.TakeWhile
import SpdxHeaders.Proofs.FileTree.Names

/-!
# Paths of names

Names make a path with just these components (`components_ofNames`), also behind the path of a
directory (`components_join`), and only names that an entry can have come up as components
(`isName_of_components`). The extension of a path is what stands behind the last dot of its last
name (`extension_eq_iff`).
-/

namespace SpdxHeaders.Path

variable {p : Path} {names : List Text} {n e : Text}

/-- A name is a component of its own. -/
lemma Component.ofPart?_of_isName (h : IsName n) : ofPart? n = some (.name n) := by
  unfold ofPart?
  split
  · exact absurd rfl h.ne_nil
  · exact absurd rfl h.ne_current
  · exact absurd rfl h.ne_parent
  · rfl

/-- A part without slashes that stands for a name is that name. -/
lemma Component.isName_of_ofPart? {part : Text} (hslash : '/' ∉ part)
    (h : ofPart? part = some (.name n)) : IsName n := by
  unfold ofPart? at h
  split at h
  case h_4 hnil hcurrent hparent =>
    cases h
    exact ⟨hnil, hcurrent, hparent, hslash⟩
  all_goals cases h

/-- A slash separates the parts in front of it from those behind it. -/
lemma parts_append_cons (a b : Text) : parts (a ++ '/' :: b) = parts a ++ parts b := by
  unfold parts
  rw [Text.pieces_append_cons, List.filterMap_append]

/-- The parts of a path of names are these names. -/
lemma parts_ofNames (h : ∀ n ∈ names, IsName n) : parts (ofNames names) = names.map .name := by
  by_cases hne : names = []
  · subst hne
    rfl
  · rw [parts, pieces_ofNames hne h, ← List.filterMap_eq_map]
    exact List.filterMap_congr fun n hn => Component.ofPart?_of_isName (h n hn)

/-- The parts of a path that are names can stand in paths. -/
lemma isName_of_mem_parts (h : .name n ∈ parts p) : IsName n := by
  obtain ⟨part, hpart, hn⟩ := List.mem_filterMap.1 h
  exact Component.isName_of_ofPart? (Text.notMem_of_mem_pieces hpart) hn

/-- A path that begins with neither `/` nor a part `.` consists of its parts. -/
lemma components_of_plain (hroot : p.isAbsolute = false)
    (hcurrent : (Text.pieces '/' p).head? ≠ some ['.']) : components p = parts p := by
  unfold components
  split
  · cases hroot
  · exact absurd rfl hcurrent
  · exact absurd rfl hcurrent
  · rfl

/-- Names make a path with these names as its components. -/
lemma components_ofNames (h : ∀ n ∈ names, IsName n) :
    components (ofNames names) = names.map .name := by
  rw [← parts_ofNames h]
  by_cases hne : names = []
  · subst hne
    rfl
  · refine components_of_plain (not_isAbsolute_ofNames h) ?_
    rw [pieces_ofNames hne h]
    exact fun hhead => (h _ (List.mem_of_mem_head? hhead)).ne_current rfl

/-- What goes on behind a path has its components behind those of the path. -/
lemma components_append_cons {base : Path} (hbase : base ≠ []) (p : Path) :
    components (base ++ '/' :: p) = components base ++ parts p := by
  obtain ⟨c, t, rfl⟩ := List.exists_cons_of_ne_nil hbase
  by_cases hroot : c = '/'
  · subst hroot
    exact congrArg (Component.root :: ·) (parts_append_cons t p)
  have hroot (t : Text) : isAbsolute (c :: t) = false := by simpa [isAbsolute] using hroot
  by_cases hcurrent : (Text.pieces '/' (c :: t)).head? = some ['.']
  · obtain ⟨qs, hqs⟩ := List.head?_eq_some_iff.1 hcurrent
    rw [← Text.join_pieces '/' (c :: t), hqs]
    cases qs with
    | nil => rfl
    | cons q qs =>
      rw [Text.join, List.intercalate_cons_cons]
      exact congrArg (Component.current :: ·) (parts_append_cons _ p)
  · rw [components_of_plain (hroot t) hcurrent, ← parts_append_cons]
    refine components_of_plain (hroot _) ?_
    rwa [Text.pieces_append_cons, List.head?_append_of_ne_nil _ (Text.pieces_ne_nil _ _)]

/-- A path goes on with names behind its own components. -/
lemma components_join (base : Path) (h : ∀ n ∈ names, IsName n) :
    components (base.join (ofNames names)) = components base ++ names.map .name := by
  unfold join
  rw [not_isAbsolute_ofNames h, if_neg Bool.false_ne_true]
  split
  case isTrue hbase =>
    rcases Bool.or_eq_true _ _ ▸ hbase with hnil | hslash
    · rw [List.isEmpty_iff.1 hnil]
      exact components_ofNames h
    · obtain ⟨b, rfl⟩ := List.getLast?_eq_some_iff.1 (beq_iff_eq.1 hslash)
      rw [List.append_assoc, List.singleton_append, ← parts_ofNames h]
      by_cases hb : b = []
      · subst hb
        rfl
      · -- The slash at the end has no part behind it.
        rw [components_append_cons hb, components_append_cons hb, List.append_assoc]
        rfl
  case isFalse hbase =>
    rw [Bool.or_eq_true, not_or] at hbase
    rw [components_append_cons (by simpa using hbase.1), parts_ofNames h]

/-- Names that come up as components are names that an entry can have. -/
lemma isName_of_components (h : p.components = names.map .name) : ∀ n ∈ names, IsName n := by
  intro n hn
  have hmem : Component.name n ∈ p.components := h ▸ List.mem_map_of_mem hn
  unfold components at hmem
  split at hmem
  · exact isName_of_mem_parts ((List.mem_cons.1 hmem).resolve_left nofun)
  · exact absurd (List.mem_singleton.1 hmem) nofun
  · exact isName_of_mem_parts ((List.mem_cons.1 hmem).resolve_left nofun)
  · exact isName_of_mem_parts hmem

/-- The file name of a path of names is the last one. -/
lemma fileName?_eq (h : p.components = names.map .name) : p.fileName? = names.getLast? := by
  unfold fileName?
  rw [h, List.getLast?_map]
  cases names.getLast? <;> rfl

/-- A name has what is behind its last dot as extension, unless it begins with this dot. -/
lemma extensionOfName?_append_cons (he : '.' ∉ e) (stem : Text) :
    extensionOfName? (stem ++ '.' :: e) = if stem = [] then none else some e := by
  have hpos : ∀ c ∈ e.reverse, decide (c ≠ '.') = true := by
    intro c hc
    exact decide_eq_true fun h => he (h ▸ List.mem_reverse.1 hc)
  have hrev : (stem ++ '.' :: e).reverse = e.reverse ++ '.' :: stem.reverse := by simp
  unfold extensionOfName?
  rw [hrev, List.dropWhile_append_of_pos hpos, List.takeWhile_append_of_pos hpos,
    List.dropWhile_cons_of_neg (by simp), List.takeWhile_cons_of_neg (by simp), List.append_nil,
    List.reverse_reverse]
  cases h : stem.reverse with
  | nil =>
    rw [if_pos (List.reverse_eq_nil_iff.1 h)]
    rfl
  | cons c t =>
    have hstem : stem ≠ [] := by
      rintro rfl
      cases h
    rw [if_neg hstem]
    rfl

/-- The extension of a name is what stands behind its last dot, if anything stands in front. -/
lemma extensionOfName?_eq_some_iff :
    extensionOfName? n = some e ↔ '.' ∉ e ∧ ∃ stem, stem ≠ [] ∧ n = stem ++ '.' :: e := by
  constructor
  · intro h
    by_cases hdot : '.' ∈ n
    · obtain ⟨e', stem, hrev, he'⟩ := List.eq_append_cons_of_mem (List.mem_reverse.2 hdot)
      have hn : n = stem.reverse ++ '.' :: e'.reverse := by
        rw [← List.reverse_reverse n, hrev]
        simp
      have he' : '.' ∉ e'.reverse := fun hmem => he' (List.mem_reverse.1 hmem)
      rw [hn, extensionOfName?_append_cons he'] at h
      split at h
      case isTrue => cases h
      case isFalse hstem =>
        cases h
        exact ⟨he', _, hstem, hn⟩
    · have hnone : n.reverse.dropWhile (· ≠ '.') = [] := by
        rw [List.dropWhile_eq_nil_iff]
        exact fun c hc => decide_eq_true fun hc' => hdot (hc' ▸ List.mem_reverse.1 hc)
      unfold extensionOfName? at h
      rw [hnone] at h
      cases h
  · rintro ⟨he, stem, hstem, rfl⟩
    rw [extensionOfName?_append_cons he, if_neg hstem]

/-- The extension of a path is what stands behind the last dot of its last name, if anything stands
in front of this dot. -/
lemma extension_eq_iff (h : p.components = names.map .name) (he : e ≠ []) :
    p.extension = e ↔ '.' ∉ e ∧ ∃ dirs stem, stem ≠ [] ∧ names = dirs ++ [stem ++ '.' :: e] := by
  have hsome : p.extension = e ↔ ∃ n, names.getLast? = some n ∧ extensionOfName? n = some e := by
    unfold extension
    rw [fileName?_eq h]
    cases hlast : names.getLast? with
    | none => simp [he.symm]
    | some n =>
      cases hext : extensionOfName? n with
      | none => simp [he.symm, hext]
      | some e' => simp [hext]
  simp only [hsome, extensionOfName?_eq_some_iff, List.getLast?_eq_some_iff]
  constructor
  · rintro ⟨n, ⟨dirs, rfl⟩, hdot, stem, hstem, rfl⟩
    exact ⟨hdot, dirs, stem, hstem, rfl⟩
  · rintro ⟨hdot, dirs, stem, hstem, rfl⟩
    exact ⟨_, ⟨dirs, rfl⟩, hdot, stem, hstem, rfl⟩

end SpdxHeaders.Path
