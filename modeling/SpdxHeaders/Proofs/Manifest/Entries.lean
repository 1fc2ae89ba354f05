import SpdxHeaders.Proofs.Glob.Segments
import SpdxHeaders.Proofs.Manifest
import SpdxHeaders.Proofs.Path
import SpdxHeaders.Proofs.Text.Blank

/-!
# From the text of a manifest to what it excludes

A manifest can be used if each of its entries can be, and excludes the paths that one of its entries
covers (`excludes_union`): a glob covers the paths that it stands for, and any other entry covers
the path that it names and all that is below it. So it does not matter in which order or how often
the entries are listed, nor on which lines, nor what other lines say. The glob of a plain entry
stands for paths with as many segments as it has itself (`excludes_iff_segments`).
-/

namespace SpdxHeaders.Manifest

/-- The text of a manifest lists an entry: it is a word of a line, behind the `Files: ` that the
line begins with. -/
def Lists (content entry : Text) : Prop :=
  ∃ rest, "Files: ".toList ++ rest ∈ content.lines ∧ Text.IsWord entry rest

/-- The pattern is what is left of an entry without any `./` in front of it. -/
structure Leaves (entry pattern : Text) : Prop where
  eq : ∃ n, entry = (List.replicate n "./".toList).flatten ++ pattern
  bare : ¬"./".toList <+: pattern

/-- The pattern of an entry covers the path of names: it is a glob for the path, or it has no `*`
and names, but for slashes at its end, a path that this one begins with. -/
inductive Covers (names : List Text) : (pattern : Text) → Prop where
  | glob {pattern : Text} {glob : Glob} (hstar : '*' ∈ pattern)
    (hglob : Glob.ofPattern .strict true pattern = .ok glob)
    (hmatch : glob.isMatch (Path.ofNames names) = true) : Covers names pattern
  | below {base slashes : Text} (hstar : '*' ∉ base ++ slashes) (hslashes : ∀ c ∈ slashes, c = '/')
    (hbase : base.getLast? ≠ some '/') (hbelow : Path.components base <+: names.map .name) :
    Covers names (base ++ slashes)

variable {content entry pattern : Text} {entries entries' : List Text} {m m' : Manifest}
  {names : List Text} {p : Path}

/-- The first word of a stanza is its label. -/
lemma words_append_files (rest : Text) :
    Text.words ("Files: ".toList ++ rest) = "Files:".toList :: Text.words rest := by
  have hblank : ∀ c ∈ (' ' :: rest).head?, Text.isBlank c = true := fun c hc => by
    cases hc
    decide
  have hrun : Text.words ("Files:".toList ++ ' ' :: rest)
      = "Files:".toList :: Text.words (' ' :: rest) :=
    Text.runsOutside_append (by decide) (by simp [Text.isBlank]) hblank
  have hrest : Text.words (' ' :: rest) = Text.words rest :=
    Text.runsOutside_cons_of_pos (by decide)
  rw [hrest] at hrun
  exact hrun

/-- The entries of a manifest are those that its lines list. -/
lemma mem_entries_iff : entry ∈ Manifest.entries content ↔ Lists content entry := by
  unfold Manifest.entries Lists
  simp only [List.mem_flatMap, List.mem_filter, List.isPrefixOf_iff_prefix]
  constructor
  · rintro ⟨line, ⟨hline, rest, rfl⟩, hentry⟩
    rw [words_append_files, List.drop_one, List.tail_cons] at hentry
    exact ⟨rest, hline, Text.mem_words_iff.1 hentry⟩
  · rintro ⟨rest, hline, hentry⟩
    refine ⟨_, ⟨hline, List.prefix_append ..⟩, ?_⟩
    rw [words_append_files, List.drop_one, List.tail_cons]
    exact Text.mem_words_iff.2 hentry

/-- An entry leaves what is behind each `./` in front of it. -/
lemma leaves_iff : Leaves entry pattern ↔ fromRoot entry = pattern := by
  constructor
  · rintro ⟨⟨n, rfl⟩, hbare⟩
    induction n with
    | zero =>
      rw [List.replicate_zero, List.flatten_nil, List.nil_append]
      unfold fromRoot
      split
      case h_1 rest => exact absurd (List.prefix_append ..) hbare
      case h_2 => rfl
    | succ n ih => exact ih
  · rintro rfl
    fun_induction fromRoot entry with
    | case1 entry ih =>
      obtain ⟨⟨n, hn⟩, hbare⟩ := ih
      exact ⟨⟨n + 1, congrArg ("./".toList ++ ·) hn⟩, hbare⟩
    | case2 entry h =>
      refine ⟨⟨0, rfl⟩, ?_⟩
      rintro ⟨rest, rfl⟩
      exact h rest rfl

/-- An entry leaves its stars. -/
lemma Leaves.star_mem_iff (h : Leaves entry pattern) : '*' ∈ entry ↔ '*' ∈ pattern := by
  obtain ⟨⟨n, rfl⟩, -⟩ := h
  simp

/-- An entry with a star is a glob. -/
lemma ofEntry_of_star (h : '*' ∈ pattern) :
    ofEntry pattern = match Glob.ofPattern .strict true pattern with
      | .ok glob => .ok { globs := [glob] }
      | .error cause => .error ⟨pattern, cause⟩ :=
  if_pos (List.elem_eq_true_of_mem h)

/-- An entry without a star is a path, without the slashes at its end. -/
lemma ofEntry_of_notMem (h : '*' ∉ pattern) :
    ofEntry pattern = .ok { paths := [Text.dropEndWhile (· = '/') pattern] } :=
  if_neg (mt List.mem_of_elem_eq_true h)

/-- An entry can be used unless it should be a glob and is none. -/
lemma exists_ofEntry_iff :
    (∃ m, ofEntry pattern = .ok m) ↔
      ('*' ∈ pattern → ∃ glob, Glob.ofPattern .strict true pattern = .ok glob) := by
  by_cases hstar : '*' ∈ pattern
  · rw [ofEntry_of_star hstar]
    cases Glob.ofPattern .strict true pattern <;> simp [hstar]
  · rw [ofEntry_of_notMem hstar]
    simp [hstar]

/-- A path excludes itself and what is below it. -/
lemma excludes_path_iff {base : Path} (h : ∀ n ∈ names, IsName n) :
    excludes { paths := [base] } (Path.ofNames names) = true ↔
      Path.components base <+: names.map .name := by
  simp [excludes, Path.startsWith, Path.components_ofNames h]

/-- A glob excludes what it matches. -/
lemma excludes_glob_iff {glob : Glob} :
    excludes { globs := [glob] } p = true ↔ glob.isMatch p = true := by
  simp [excludes]

/-- A pattern with a `*` excludes what it stands for as a glob. -/
lemma excludes_iff_covers_of_star (hstar : '*' ∈ pattern) :
    (∃ m, ofEntry pattern = .ok m ∧ m.excludes (Path.ofNames names) = true) ↔
      Covers names pattern := by
  rw [ofEntry_of_star hstar]
  constructor
  · rintro ⟨m, hm, hexcludes⟩
    cases hglob : Glob.ofPattern .strict true pattern with
    | error cause =>
      rw [hglob] at hm
      cases hm
    | ok glob =>
      rw [hglob] at hm
      cases hm
      exact .glob hstar hglob (excludes_glob_iff.1 hexcludes)
  · intro hcovers
    cases hcovers with
    | glob _ hglob hmatch =>
      rw [hglob]
      exact ⟨_, rfl, excludes_glob_iff.2 hmatch⟩
    | below hnot => exact absurd hstar hnot

/-- A pattern without a `*` excludes what begins with its components. -/
lemma excludes_iff_covers_of_notMem (h : ∀ n ∈ names, IsName n) (hstar : '*' ∉ pattern) :
    (∃ m, ofEntry pattern = .ok m ∧ m.excludes (Path.ofNames names) = true) ↔
      Covers names pattern := by
  rw [ofEntry_of_notMem hstar]
  constructor
  · rintro ⟨m, hm, hexcludes⟩
    cases hm
    have hbelow := (excludes_path_iff h).1 hexcludes
    obtain ⟨⟨slashes, heq, hslashes⟩, hbase⟩ :=
      Text.dropEndWhile_eq_iff.1 (rfl : Text.dropEndWhile (· = '/') pattern = _)
    rw [heq] at hstar ⊢
    exact .below hstar (by simpa using hslashes) (fun hlast => by simpa using hbase _ hlast) hbelow
  · intro hcovers
    cases hcovers with
    | glob hmem => exact absurd hmem hstar
    | @below base _ _ hslashes hbase hbelow =>
      have hlast : ∀ c ∈ base.getLast?, decide (c = '/') = false := by
        rintro c hc
        exact decide_eq_false fun hslash => hbase (hslash ▸ hc)
      rw [Text.dropEndWhile_append (by simpa using hslashes) hlast]
      exact ⟨_, rfl, (excludes_path_iff h).2 hbelow⟩

/-- An entry excludes the paths that its pattern covers. -/
lemma excludes_ofNames_iff (h : ∀ n ∈ names, IsName n) (hleaves : Leaves entry pattern) :
    Excludes entry (Path.ofNames names) ↔ Covers names pattern := by
  unfold Excludes
  rw [leaves_iff.1 hleaves]
  by_cases hstar : '*' ∈ pattern
  · exact excludes_iff_covers_of_star hstar
  · exact excludes_iff_covers_of_notMem h hstar

/-- A manifest can be used if every entry can be. -/
lemma exists_ofEntries_iff :
    (∃ m, ofEntries entries = .ok m) ↔
      ∀ entry ∈ entries, ∃ m, ofEntry (fromRoot entry) = .ok m := by
  rw [← exists_mapM_iff]
  unfold ofEntries
  simp only [bind_eq_ok_iff]
  constructor
  · rintro ⟨m, parts, hparts, -⟩
    exact ⟨parts, hparts⟩
  · rintro ⟨parts, hparts⟩
    exact ⟨_, parts, hparts, rfl⟩

/-- Manifests with the same entries, in any order and number, can be used alike and exclude the
same. -/
lemma ofEntries_congr (h : ∀ entry, entry ∈ entries ↔ entry ∈ entries') :
    ((∃ m, ofEntries entries = .ok m) ↔ ∃ m, ofEntries entries' = .ok m) ∧
      ∀ m m', ofEntries entries = .ok m → ofEntries entries' = .ok m' →
        m.excludes = m'.excludes := by
  constructor
  · simp only [exists_ofEntries_iff, h]
  · intro m m' hm hm'
    funext p
    rw [Bool.eq_iff_iff, excludes_iff hm, excludes_iff hm']
    simp only [h]

/-- A manifest can be used just if each entry with a `*` is a glob without the `./` in front of it.
Then it excludes just the paths that one of its entries covers, and a manifest that lists the same
entries excludes the same: neither their order and number nor their lines matter, nor do other
lines. -/
theorem excludes_union (content : Text) :
    ((∃ m, ofEntries (Manifest.entries content) = .ok m) ↔
      ∀ entry pattern, Lists content entry → Leaves entry pattern → '*' ∈ entry →
        ∃ glob, Glob.ofPattern .strict true pattern = .ok glob) ∧
    (∀ m names, ofEntries (Manifest.entries content) = .ok m → (∀ n ∈ names, IsName n) →
      (m.excludes (Path.ofNames names) = true ↔
        ∃ entry pattern, Lists content entry ∧ Leaves entry pattern ∧ Covers names pattern)) ∧
    ∀ content', (∀ entry, Lists content entry ↔ Lists content' entry) →
      ((∃ m, ofEntries (Manifest.entries content) = .ok m) ↔
        ∃ m, ofEntries (Manifest.entries content') = .ok m) ∧
      ∀ m m', ofEntries (Manifest.entries content) = .ok m →
        ofEntries (Manifest.entries content') = .ok m' → m.excludes = m'.excludes := by
  refine ⟨?_, fun m names hm hnames => ?_, fun content' h => ?_⟩
  · simp only [exists_ofEntries_iff, exists_ofEntry_iff, mem_entries_iff]
    constructor
    · intro h entry pattern hlists hleaves hstar
      rw [← leaves_iff.1 hleaves]
      exact h entry hlists ((leaves_iff.2 rfl).star_mem_iff.1 hstar)
    · intro h entry hlists hstar
      exact h entry _ hlists (leaves_iff.2 rfl) ((leaves_iff.2 rfl).star_mem_iff.2 hstar)
  · simp only [excludes_iff hm, mem_entries_iff]
    constructor
    · rintro ⟨entry, hlists, hexcludes⟩
      have hleaves : Leaves entry (fromRoot entry) := leaves_iff.2 rfl
      exact ⟨entry, _, hlists, hleaves, (excludes_ofNames_iff hnames hleaves).1 hexcludes⟩
    · rintro ⟨entry, pattern, hlists, hleaves, hcovers⟩
      exact ⟨entry, hlists, (excludes_ofNames_iff hnames hleaves).2 hcovers⟩
  · exact ofEntries_congr fun entry => by rw [mem_entries_iff, mem_entries_iff, h]

/-- A path of the manifest is not taken for a sibling whose name begins with its own, and a line
that lists nothing may hold what is no glob. -/
theorem excludes_union_siblings :
    ∃ m, ofEntries (Manifest.entries "Files: ./img/*.svg lib/\nLicense: *\x7b\n".toList) = .ok m ∧
      m.excludes "img/a.svg".toList = true ∧ m.excludes "lib/src/a.c".toList = true ∧
      m.excludes "library/a.c".toList = false := by
  have hm : ofEntries (Manifest.entries "Files: ./img/*.svg lib/\nLicense: *\x7b\n".toList)
      = .ok ⟨[⟨"img/*.svg".toList.map Glob.tokenOf, true⟩], ["lib".toList]⟩ := by cbv
  obtain ⟨-, hexcludes, -⟩ := excludes_union "Files: ./img/*.svg lib/\nLicense: *\x7b\n".toList
  refine ⟨_, hm, ?_, ?_, by decide +kernel⟩
  · exact (hexcludes _ ["img".toList, "a.svg".toList] hm (by decide)).2
      ⟨"./img/*.svg".toList, "img/*.svg".toList, mem_entries_iff.1 (by decide), leaves_iff.2 rfl,
        .glob (by decide) (by cbv) (by decide +kernel)⟩
  · have hcovers : Covers ["lib".toList, "src".toList, "a.c".toList] ("lib".toList ++ ['/']) :=
      .below (by decide) (by simp) (by decide) (by decide)
    exact (hexcludes _ ["lib".toList, "src".toList, "a.c".toList] hm (by decide)).2
      ⟨"lib/".toList, _, mem_entries_iff.1 (by decide), leaves_iff.2 rfl, hcovers⟩

/-- A plain entry with a `*` excludes just the paths that have as many segments as its pattern, each
of which fits the pattern's segment; so none that lies deeper or less deep than the pattern. -/
theorem excludes_iff_segments (hleaves : Leaves entry pattern) (hstar : '*' ∈ entry)
    (hplain : Glob.Plain entry) :
    ∃ m, ofEntries [entry] = .ok m ∧ ∀ p,
      (m.excludes p = true ↔
        List.Forall₂ Glob.Fits (Text.pieces '/' pattern) (Text.pieces '/' p)) ∧
      (m.excludes p = true → (Text.pieces '/' p).length = (Text.pieces '/' pattern).length) := by
  have hsuffix : pattern <:+ entry := by
    obtain ⟨⟨n, rfl⟩, -⟩ := hleaves
    exact List.suffix_append ..
  obtain ⟨glob, hglob, hmatch⟩ := Glob.exists_glob_of_plain (hplain.of_suffix hsuffix)
  have hof : ofEntry pattern = .ok { globs := [glob] } := by
    rw [ofEntry_of_star (hleaves.star_mem_iff.1 hstar), hglob]
  have hm : ofEntries [entry] = .ok { globs := [glob] } := by
    simp [ofEntries, leaves_iff.1 hleaves, hof]
  refine ⟨_, hm, fun p => ?_⟩
  rw [excludes_glob_iff, hmatch]
  exact ⟨Iff.rfl, fun h => h.length_eq.symm⟩

/-- Images in a directory, in letters of any case, but not those in directories below it. -/
theorem excludes_iff_segments_images :
    ∃ m, ofEntries ["./img/*.svg".toList] = .ok m ∧
      m.excludes "img/Logo.SVG".toList = true ∧ m.excludes "img/new/logo.svg".toList = false := by
  have hleaves : Leaves "./img/*.svg".toList "img/*.svg".toList := leaves_iff.2 rfl
  obtain ⟨m, hm, hexcludes⟩ :=
    excludes_iff_segments hleaves (by decide) ⟨by simp, by decide +kernel⟩
  refine ⟨m, hm, (hexcludes _).1.2 ?_, Bool.eq_false_iff.2 fun h => ?_⟩
  · have himg : Glob.Fits "img".toList "img".toList := (Glob.fits_iff_of_notMem (by decide)).2 rfl
    have hext : Glob.Fits ".svg".toList ".SVG".toList :=
      (Glob.fits_iff_of_notMem (by decide)).2 rfl
    exact .cons himg (.cons (.star "Logo".toList hext) .nil)
  · exact absurd ((hexcludes _).2 h) (by decide)

end SpdxHeaders.Manifest
