import SpdxHeaders.Proofs.Collector.Pruning
import SpdxHeaders.Proofs.Text.Blank

/-!
# Spellings of ignored directories

An entry for an ignored directory may have slashes around it, but no `./` in front of it: then it
stands for no directory at all, and what is below the directory that it spells is collected
(`files_of_spelling`).
-/

namespace SpdxHeaders.Collector

/-- What may stand in front of a path without leading elsewhere: slashes and `./`, in any number. -/
inductive IsLead : Text → Prop where
  | nil : IsLead []
  | slash {lead : Text} (h : IsLead lead) : IsLead ('/' :: lead)
  | here {lead : Text} (h : IsLead lead) : IsLead ('.' :: '/' :: lead)

variable {t : FileTree} {m : Manifest} {before after names dir : List Text}
  {entry lead behind : Text}

/-- Without a `./` in it, what stands in front is trimmed. -/
lemma IsLead.dropWhile_eq_nil (h : IsLead lead) (hdot : '.' ∉ lead) :
    lead.dropWhile (· = '/') = [] := by
  induction h with
  | nil => rfl
  | slash _ ih =>
    rw [List.dropWhile_cons_of_pos (by decide)]
    exact ih fun h => hdot (List.mem_cons_of_mem _ h)
  | here => exact absurd List.mem_cons_self hdot

/-- From the first `./` on, what stands in front is not trimmed. -/
lemma IsLead.exists_dropWhile_eq (h : IsLead lead) (hdot : '.' ∈ lead) :
    ∃ rest, lead.dropWhile (· = '/') = '.' :: '/' :: rest := by
  induction h with
  | nil => cases hdot
  | slash _ ih =>
    rw [List.dropWhile_cons_of_pos (by decide)]
    exact ih ((List.mem_cons.1 hdot).resolve_left (by decide))
  | here => exact ⟨_, List.dropWhile_cons_of_neg (by decide)⟩

/-- What is trimmed in front of a path is trimmed in front of its names. -/
lemma dropWhile_append_ofNames (lead rest : Text) (hne : dir ≠ []) (hdir : ∀ n ∈ dir, IsName n) :
    (lead ++ (Path.ofNames dir ++ rest)).dropWhile (· = '/')
      = lead.dropWhile (· = '/') ++ (Path.ofNames dir ++ rest) := by
  rw [List.dropWhile_append]
  split
  case isTrue hnil =>
    obtain ⟨c, p, hp⟩ := List.exists_cons_of_ne_nil (ofNames_ne_nil hne hdir)
    have hc : c ≠ '/' := by
      simpa [hp, Path.isAbsolute] using not_isAbsolute_ofNames hdir
    rw [List.isEmpty_iff.1 hnil, hp, List.cons_append,
      List.dropWhile_cons_of_neg (by simpa using hc), List.nil_append]
  case isFalse => rfl

/-- What is trimmed of a spelling: the slashes behind the path, and those at the very front. -/
lemma trimSlashes_spelling (lead : Text) (hne : dir ≠ []) (hdir : ∀ n ∈ dir, IsName n)
    (hbehind : ∀ c ∈ behind, c = '/') :
    trimSlashes (lead ++ Path.ofNames dir ++ behind)
      = lead.dropWhile (· = '/') ++ Path.ofNames dir := by
  unfold trimSlashes
  rw [List.append_assoc, dropWhile_append_ofNames lead behind hne hdir, ← List.append_assoc]
  refine Text.dropEndWhile_append (by simpa using hbehind) fun c hc => decide_eq_false ?_
  rw [List.getLast?_append_of_ne_nil _ (ofNames_ne_nil hne hdir)] at hc
  exact fun hslash => getLast?_ofNames_ne hdir (hslash ▸ hc)

/-- With slashes around it, the path of a directory stands for this directory. -/
lemma ignores_of_notMem (hne : dir ≠ []) (hdir : ∀ n ∈ dir, IsName n) (hlead : IsLead lead)
    (hdot : '.' ∉ lead) (hbehind : ∀ c ∈ behind, c = '/') :
    Ignores t (lead ++ Path.ofNames dir ++ behind) dir := by
  right
  rw [trimSlashes_spelling lead hne hdir hbehind, hlead.dropWhile_eq_nil hdot, List.nil_append]

/-- With a `./` in front of it, the path of a directory stands for no directory. -/
lemma not_ignores_of_mem (hne : dir ≠ []) (hdir : ∀ n ∈ dir, IsName n) (hlead : IsLead lead)
    (hdot : '.' ∈ lead) (hbehind : ∀ c ∈ behind, c = '/') (hnames : ∀ n ∈ names, IsName n) :
    ¬Ignores t (lead ++ Path.ofNames dir ++ behind) names := by
  obtain ⟨rest, hrest⟩ := hlead.exists_dropWhile_eq hdot
  unfold Ignores
  rw [trimSlashes_spelling lead hne hdir hbehind, hrest, Path.components_ofNames hnames]
  rintro (hname | hpath)
  · obtain ⟨n, hn, htext⟩ := Option.map_eq_some_iff.1 hname
    unfold FileTree.nameText at htext
    split at htext
    case isTrue => cases htext
    case isFalse => exact (hnames n (List.mem_of_getLast? hn)).slash (by simp [htext])
  · have hcurrent : Path.Component.current ∈ names.map Path.Component.name := by
      rw [← hpath]
      exact List.mem_cons_self
    simp at hcurrent

/-- An entry that stands for no directory does not matter. -/
lemma kept_append_cons_iff (hnames : ∀ n ∈ names, IsName n)
    (hentry : ∀ dir, (∀ n ∈ dir, IsName n) → ¬Ignores t entry dir) :
    Kept t (before ++ entry :: after) m names ↔ Kept t (before ++ after) m names := by
  refine ⟨(·.anti (by simp) fun _ => id), fun h => ⟨fun d hd hne hne' e he => ?_, h.included⟩⟩
  rw [List.mem_append, List.mem_cons, or_left_comm, ← List.mem_append] at he
  rcases he with rfl | he
  · exact hentry d fun n hn => hnames n (hd.subset hn)
  · exact h.entered d hd hne hne' e he

/-- An entry that is the path of a directory, with slashes around it, keeps what is below this
directory from being collected. With a `./` in front of it, it keeps nothing from being
collected. -/
theorem files_of_spelling (root : Path) (m : Manifest) (ht : t.WellNamed) (hne : dir ≠ [])
    (hdir : ∀ n ∈ dir, IsName n) (hlead : IsLead lead) (hbehind : ∀ c ∈ behind, c = '/') :
    let entry := lead ++ Path.ofNames dir ++ behind
    let files ignoredDirs := (⟨root, ignoredDirs.map trimSlashes, m⟩ : Collector).files t
    ('.' ∉ lead → ∀ ignoredDirs, entry ∈ ignoredDirs →
      ∀ rest, rest ≠ [] → dir ++ rest ∉ files ignoredDirs) ∧
    ('.' ∈ lead → ∀ before after, files (before ++ entry :: after) = files (before ++ after)) := by
  intro entry files
  refine ⟨fun hdot ignoredDirs hentry rest hrest hmem => ?_, fun hdot before after => ?_⟩
  · obtain ⟨-, hkept⟩ := (mem_files_iff_kept ht).1 hmem
    exact hkept.entered dir (List.prefix_append ..) hne (by simpa using hrest) entry hentry
      (ignores_of_notMem hne hdir hlead hdot hbehind)
  · refine List.Pairwise.eq_of_mem_iff (files_ordered _ ht).1 (files_ordered _ ht).1 fun names => ?_
    rw [mem_files_iff_kept ht, mem_files_iff_kept ht]
    refine and_congr_right fun hmem => ?_
    obtain ⟨-, start, hplaced⟩ := files_ordered (bare root) ht
    exact kept_append_cons_iff ((hplaced names hmem).isName ht) fun d hd =>
      not_ignores_of_mem hne hdir hlead hdot hbehind hd

/-- A directory is ignored by its path with slashes around it. -/
theorem files_of_spelling_siblings :
    let c : Collector := ⟨"/", ["//a/".toList].map trimSlashes, {}⟩
    siblings.WellNamed ∧ ["a".toList, "x.h".toList] ∈ (bare "/").files siblings ∧
      ["a".toList, "x.h".toList] ∉ c.files siblings := by
  intro c
  have ht : siblings.WellNamed := by decide
  have hfiles : (bare "/").files siblings = [["a".toList, "x.h".toList], ["a.h".toList]] := by cbv
  have hdir : ∀ n ∈ ["a".toList], IsName n := by decide
  have hlead : IsLead "//".toList := .slash (.slash .nil)
  have hbehind : ∀ b ∈ "/".toList, b = '/' := by simp
  have hentry : "//".toList ++ Path.ofNames ["a".toList] ++ "/".toList ∈ ["//a/".toList] := by
    decide
  have hspelling := (files_of_spelling "/" {} ht (by decide) hdir hlead hbehind).1 (by decide)
  exact ⟨ht, hfiles ▸ List.mem_cons_self, hspelling _ hentry ["x.h".toList] (by decide)⟩

/-- With a `./` in front of its path, a directory is not ignored. -/
theorem dotted_spelling_missed :
    let c : Collector := ⟨"/", ["./a".toList].map trimSlashes, {}⟩
    siblings.WellNamed ∧ siblings.get? ["a"] = some .directory ∧ IsLead "./".toList ∧
      ["a".toList, "x.h".toList] ∈ c.files siblings := by
  intro c
  have hfiles : c.files siblings = [["a".toList, "x.h".toList], ["a.h".toList]] := by cbv
  exact ⟨by decide, rfl, .here .nil, hfiles ▸ List.mem_cons_self⟩

end SpdxHeaders.Collector
