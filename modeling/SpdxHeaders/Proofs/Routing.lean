import SpdxHeaders.Proofs.Path
import SpdxHeaders.Proofs.Text.Occurrence
import SpdxHeaders.Routing

/-!
# Where a file goes

A file is routed by its extension, and by the directories it lies in only where the extension leaves
a choice (`ofPath_by_extension`). Markers of vendored code are looked for as texts in the path, but
a marker of the form `/a/b/` occurs just if the directories `a/b` are a run of those that the file
lies in (`Marks.isInfix_anchored_iff`).
-/

namespace SpdxHeaders

/-- The last of the names goes on behind its last dot with the extension, and there is something in
front of that dot. -/
def HasExtension (names : List Text) (e : Text) : Prop :=
  '.' ∉ e ∧ ∃ dirs stem, stem ≠ [] ∧ names = dirs ++ [stem ++ '.' :: e]

namespace Route

variable {settings : Settings} {p : Path} {names dirs : List Text} {e marker : Text}

namespace Family

/-- The extensions of a family. -/
def extensions : Family → List Text
  | .source => ["php", "css", "scss", "m", "h"]
  | .script => ["ts", "js", "mts", "mjs", "cts", "cjs"]
  | .markup => ["vue", "html"]
  | .lineSource => ["swift"]

/-- The style of the comments in a family. -/
def style : Family → CommentStyle
  | .source | .script => .block
  | .markup => .markup
  | .lineSource => .line

/-- The markers that tell which files of a family are vendored. -/
def markers (settings : Settings) : Family → List Text
  | .source => settings.vendorMarkers
  | .script | .markup => settings.scriptVendorMarkers
  | .lineSource => []

variable {f : Family}

/-- No family holds the files without extension. -/
lemma ne_nil_of_mem_extensions (h : e ∈ f.extensions) : e ≠ [] := by
  cases f <;> revert e <;> decide

end Family

section Extension
variable {f : Family}

/-- The pattern for scripts stands for six extensions. -/
lemma isScript_iff : isScript e = true ↔ e ∈ Family.script.extensions := by
  constructor
  · intro h
    unfold isScript at h
    split at h
    · simp only [Bool.and_eq_true, Bool.or_eq_true, decide_eq_true_eq] at h
      obtain ⟨⟨rfl | rfl, rfl | rfl⟩, rfl⟩ := h <;> decide
    · simp only [Bool.and_eq_true, Bool.or_eq_true, decide_eq_true_eq] at h
      obtain ⟨rfl | rfl, rfl⟩ := h <;> decide
    · cases h
  · revert e
    decide

/-- An extension is looked up in the family that has it. -/
lemma family?_eq_some_iff : family? e = some f ↔ e ∈ f.extensions := by
  constructor
  · intro h
    unfold family? at h
    split at h
    case isTrue hsource =>
      cases h
      exact List.contains_iff_mem.1 hsource
    case isFalse =>
      split at h
      case isTrue hscript =>
        cases h
        exact isScript_iff.1 hscript
      case isFalse =>
        split at h
        case isTrue hmarkup =>
          cases h
          exact List.contains_iff_mem.1 hmarkup
        case isFalse =>
          split at h <;> cases h
          exact List.mem_singleton.2 ‹_›
  · cases f <;> revert e <;> decide

/-- The family of a path is that of its extension. -/
lemma family?_extension_iff (h : p.components = names.map .name) :
    family? p.extension = some f ↔ ∃ e ∈ f.extensions, HasExtension names e := by
  rw [family?_eq_some_iff]
  constructor
  · intro hmem
    exact ⟨_, hmem, (Path.extension_eq_iff h (Family.ne_nil_of_mem_extensions hmem)).1 rfl⟩
  · rintro ⟨e, hmem, he⟩
    rwa [(Path.extension_eq_iff h (Family.ne_nil_of_mem_extensions hmem)).2 he]

/-- A file of a family is rewritten in its style outside the places that its markers tell. -/
lemma ofPath_of_family (h : family? p.extension = some f) :
    ofPath settings p = rewriteOutside (f.markers settings) f.style (anchored p) := by
  unfold ofPath
  rw [h]
  cases f <;> rfl

/-- A file of no family is left as it is. -/
lemma ofPath_of_none (h : family? p.extension = none) :
    ofPath settings p = other settings (anchored p) := by
  unfold ofPath
  rw [h]

end Extension

section Location

/-- The marker of vendored code names directories in each other: it consists of them with a slash on
either side of each. -/
structure Marks (marker : Text) (dirs : List Text) : Prop where
  ne_nil : dirs ≠ []
  isSegment : ∀ d ∈ dirs, d ≠ [] ∧ '/' ∉ d
  eq : marker = '/' :: Text.join "/" dirs ++ ['/']

/-- A file of the names is a bundle of a locale: a JSON file below `l10n`. -/
def IsLocaleBundle (names : List Text) : Prop :=
  ∃ dirs last, names = "l10n".toList :: (dirs ++ [last]) ∧ ".json".toList <:+ last

/-- The path of the names, anchored at the root, has an ignorable end. -/
def IsIgnorable (settings : Settings) (names : List Text) : Prop :=
  ∃ s ∈ settings.ignorableSuffixes, s <:+ '/' :: Path.ofNames names

/-- The names are those of a bundle of a locale, or their path has an exempt part. -/
def IsExempt (settings : Settings) (names : List Text) : Prop :=
  IsLocaleBundle names ∨ ∃ fragment ∈ settings.exemptions, fragment <:+: '/' :: Path.ofNames names

/-- The path of names is anchored by a slash in front. -/
lemma anchored_eq (h : p.components = names.map .name) : anchored p = '/' :: Path.ofNames names := by
  have hspelling : Path.Component.spelling ∘ Path.Component.name = id := rfl
  unfold anchored
  rw [h, List.map_map, hspelling, List.map_id]
  rfl

/-- A marker occurs in the path of a file just if the directories it names are a run of those that
the file lies in. -/
lemma Marks.isInfix_anchored_iff (h : Marks marker dirs) (hnames : ∀ n ∈ names, IsName n) :
    marker <:+: '/' :: Path.ofNames names ↔ dirs <:+: names.dropLast := by
  have hcons (t : Text) : Text.pieces '/' ('/' :: t) = [] :: Text.pieces '/' t :=
    Text.pieces_append_cons '/' [] t
  rw [h.eq]
  refine (Text.isInfix_fenced_iff h.ne_nil fun d hd => (h.isSegment d hd).2).trans ?_
  rw [hcons]
  rcases List.eq_nil_or_concat' names with rfl | ⟨lies, last, rfl⟩
  · constructor
    · rintro ⟨before, after, hb, ha, e⟩
      -- There are two pieces only, one for each side of the directories.
      have hlength := congrArg List.length e
      have := List.length_pos_of_ne_nil hb
      have := List.length_pos_of_ne_nil ha
      have := List.length_pos_of_ne_nil h.ne_nil
      simp only [List.length_append] at hlength
      change 2 = _ at hlength
      omega
    · exact fun hnil => absurd (List.infix_nil.1 hnil) h.ne_nil
  · rw [pieces_ofNames (by simp) hnames, List.dropLast_concat]
    constructor
    · rintro ⟨before, after, hb, ha, e⟩
      obtain ⟨b, before, rfl⟩ := List.exists_cons_of_ne_nil hb
      obtain ⟨after, a, rfl⟩ := (List.eq_nil_or_concat' after).resolve_left ha
      have e : ([] :: lies) ++ [last] = (b :: before ++ dirs ++ after) ++ [a] :=
        e.trans (List.append_assoc _ _ _).symm
      obtain ⟨e, -⟩ := List.append_inj' e rfl
      exact ⟨before, after, (List.cons.inj e).2.symm⟩
    · rintro ⟨before, after, rfl⟩
      exact ⟨[] :: before, after ++ [last], by simp, by simp, by simp⟩

/-- A directory leads a path just if it is the first of the names, and not the last. -/
lemma isPrefix_anchored_iff (hnames : ∀ n ∈ names, IsName n) {d : Text} (hd : '/' ∉ d) :
    '/' :: d ++ ['/'] <+: '/' :: Path.ofNames names ↔ ∃ rest, rest ≠ [] ∧ names = d :: rest := by
  rw [List.cons_append, List.cons_prefix_cons, and_iff_right rfl]
  constructor
  · rintro ⟨t, e⟩
    rw [List.append_assoc, List.singleton_append] at e
    have hne : names ≠ [] := by
      rintro rfl
      exact List.append_ne_nil_of_right_ne_nil d (List.cons_ne_nil _ _) e
    refine ⟨Text.pieces '/' t, Text.pieces_ne_nil _ _, ?_⟩
    rw [← pieces_ofNames hne hnames, ← e, Text.pieces_cons hd]
  · rintro ⟨rest, hrest, rfl⟩
    have hjoin := @Text.join_append '/' [d] rest (List.cons_ne_nil _ _) hrest
    simp only [Text.join, List.intercalate_singleton] at hjoin
    exact ⟨Path.ofNames rest, (List.append_assoc _ _ _).trans hjoin.symm⟩

/-- A path of names ends in a slash and the last of them. -/
lemma exists_anchored_concat (lies : List Text) (last : Text) :
    ∃ front, '/' :: Path.ofNames (lies ++ [last]) = front ++ '/' :: last := by
  by_cases hlies : lies = []
  · subst hlies
    exact ⟨[], by simp [Path.ofNames, Text.join]⟩
  · refine ⟨'/' :: Path.ofNames lies, ?_⟩
    have hjoin := @Text.join_append '/' lies [last] hlies (List.cons_ne_nil _ _)
    simp only [Text.join, List.intercalate_singleton] at hjoin
    exact congrArg ('/' :: ·) hjoin

/-- A bundle of a locale is told by the front and the end of its path. -/
lemma isLocaleBundle_iff (hnames : ∀ n ∈ names, IsName n) :
    IsLocaleBundle names ↔ "/l10n/".toList <+: '/' :: Path.ofNames names ∧
      ".json".toList <:+ '/' :: Path.ofNames names := by
  have hprefix := @isPrefix_anchored_iff names hnames "l10n" (by decide)
  have hsuffix (lies : List Text) (last : Text) :
      ".json".toList <:+ '/' :: Path.ofNames (lies ++ [last]) ↔ ".json".toList <:+ last := by
    obtain ⟨front, e⟩ := exists_anchored_concat lies last
    rw [e, Text.isSuffix_append_cons_iff (by decide)]
  refine Iff.trans ?_ (and_congr_left fun _ => hprefix.symm)
  constructor
  · rintro ⟨dirs, last, rfl, hlast⟩
    refine ⟨⟨dirs ++ [last], by simp, rfl⟩, ?_⟩
    rwa [← List.cons_append, hsuffix]
  · rintro ⟨⟨rest, hrest, rfl⟩, hlast⟩
    obtain ⟨dirs, last, rfl⟩ := (List.eq_nil_or_concat' rest).resolve_left hrest
    rw [← List.cons_append, hsuffix] at hlast
    exact ⟨dirs, last, rfl, hlast⟩

/-- A file is vendored just if a marker occurs in its path. -/
lemma rewriteOutside_eq_vendored_iff {markers : List Text} {style : CommentStyle} {path : Text} :
    rewriteOutside markers style path = .vendored ↔ ∃ m ∈ markers, m <:+: path := by
  unfold rewriteOutside
  split <;> simp_all [Text.contains_iff_isInfix]

/-- A file of a family that is not vendored is rewritten. -/
lemma rewriteOutside_eq_rewrite {markers : List Text} {style : CommentStyle} {path : Text}
    (h : rewriteOutside markers style path ≠ .vendored) :
    rewriteOutside markers style path = .rewrite style := by
  unfold rewriteOutside at h ⊢
  split
  case isTrue hany => exact absurd (if_pos hany) h
  case isFalse => rfl

/-- Where all markers name directories, a file is vendored just if it lies in a run of directories
that one of them names. -/
lemma vendored_iff_exists_isInfix {markers : List Text} {style : CommentStyle}
    (hnames : ∀ n ∈ names, IsName n) (hmarkers : ∀ m ∈ markers, ∃ dirs, Marks m dirs) :
    rewriteOutside markers style ('/' :: Path.ofNames names) = .vendored ↔
      ∃ m ∈ markers, ∃ dirs, Marks m dirs ∧ dirs <:+: names.dropLast := by
  rw [rewriteOutside_eq_vendored_iff]
  constructor
  · rintro ⟨m, hm, hinfix⟩
    obtain ⟨dirs, hdirs⟩ := hmarkers m hm
    exact ⟨m, hm, dirs, hdirs, (hdirs.isInfix_anchored_iff hnames).1 hinfix⟩
  · rintro ⟨m, hm, dirs, hdirs, hinfix⟩
    exact ⟨m, hm, (hdirs.isInfix_anchored_iff hnames).2 hinfix⟩

/-- Ignorable ends are looked for as texts. -/
lemma isIgnorable_iff :
    settings.ignorableSuffixes.any (·.isSuffixOf ('/' :: Path.ofNames names)) = true ↔
      IsIgnorable settings names := by
  simp only [List.any_eq_true, List.isSuffixOf_iff_suffix]
  rfl

/-- Bundles of locales and exempt parts are looked for as texts. -/
lemma isExempt_iff (hnames : ∀ n ∈ names, IsName n) :
    ("/l10n/".toList.isPrefixOf ('/' :: Path.ofNames names) &&
        ".json".toList.isSuffixOf ('/' :: Path.ofNames names) ||
      settings.exemptions.any (Text.contains · ('/' :: Path.ofNames names))) = true ↔
      IsExempt settings names := by
  rw [Bool.or_eq_true, Bool.and_eq_true, List.isPrefixOf_iff_prefix, List.isSuffixOf_iff_suffix,
    ← isLocaleBundle_iff hnames]
  simp only [List.any_eq_true, Text.contains_iff_isInfix]
  rfl

/-- For a file of no family, that it is ignorable goes before that it is exempt. -/
lemma other_spec (settings : Settings) (hnames : ∀ n ∈ names, IsName n) :
    (IsIgnorable settings names ∧ other settings ('/' :: Path.ofNames names) = .ignorable) ∨
    (¬IsIgnorable settings names ∧ IsExempt settings names ∧
      other settings ('/' :: Path.ofNames names) = .exempt) ∨
    (¬IsIgnorable settings names ∧ ¬IsExempt settings names ∧
      other settings ('/' :: Path.ofNames names) = .unhandled) := by
  unfold other
  split
  case isTrue hignorable => exact .inl ⟨isIgnorable_iff.1 hignorable, rfl⟩
  case isFalse hignorable =>
    have hignorable := mt isIgnorable_iff.2 hignorable
    split
    case isTrue hexempt =>
      exact .inr (.inl ⟨hignorable, (isExempt_iff hnames).1 hexempt, rfl⟩)
    case isFalse hexempt =>
      exact .inr (.inr ⟨hignorable, mt (isExempt_iff hnames).2 hexempt, rfl⟩)

end Location

/-- The extension decides whether a file is rewritten or vendored on the one hand, or anything else
on the other, whatever is ignorable or exempt. Which of the two it is depends on the directories
that the file lies in, where the markers name directories; sources with comments of lines are
rewritten everywhere. For any other file, that it is ignorable goes before that it is exempt. -/
theorem ofPath_by_extension (settings : Settings) (h : p.components = names.map .name) :
    (((∃ style, ofPath settings p = .rewrite style) ∨ ofPath settings p = .vendored) ↔
      ∃ f, ∃ e ∈ Family.extensions f, HasExtension names e) ∧
    (∀ f, ∀ e ∈ Family.extensions f, HasExtension names e →
      (ofPath settings p = .rewrite f.style ∨ ofPath settings p = .vendored) ∧
      ((∀ m ∈ f.markers settings, ∃ dirs, Marks m dirs) →
        (ofPath settings p = .vendored ↔
          ∃ m ∈ f.markers settings, ∃ dirs, Marks m dirs ∧ dirs <:+: names.dropLast))) ∧
    (HasExtension names "swift" → ofPath settings p = .rewrite .line) ∧
    ((¬∃ f, ∃ e ∈ Family.extensions f, HasExtension names e) →
      (ofPath settings p = .ignorable ↔ IsIgnorable settings names) ∧
      (ofPath settings p = .exempt ↔ ¬IsIgnorable settings names ∧ IsExempt settings names) ∧
      (ofPath settings p = .unhandled ↔
        ¬IsIgnorable settings names ∧ ¬IsExempt settings names)) := by
  have hnames := Path.isName_of_components h
  have hrewritten {f : Family} {e : Text} (he : e ∈ f.extensions) (hext : HasExtension names e) :
      ofPath settings p = rewriteOutside (f.markers settings) f.style ('/' :: Path.ofNames names) := by
    rw [ofPath_of_family ((family?_extension_iff h).2 ⟨e, he, hext⟩), anchored_eq h]
  have hhandled {f : Family} {e : Text} (he : e ∈ f.extensions) (hext : HasExtension names e) :
      ofPath settings p = .rewrite f.style ∨ ofPath settings p = .vendored := by
    rw [hrewritten he hext]
    exact (em _).symm.imp rewriteOutside_eq_rewrite id
  have hother (hnone : ¬∃ f, ∃ e ∈ Family.extensions f, HasExtension names e) :
      ofPath settings p = other settings ('/' :: Path.ofNames names) := by
    rw [ofPath_of_none, anchored_eq h]
    refine Option.eq_none_iff_forall_ne_some.2 fun f hf => hnone ⟨f, ?_⟩
    exact (family?_extension_iff h).1 hf
  refine ⟨⟨fun hrouted => ?_, ?_⟩, fun f e he hext => ⟨hhandled he hext, fun hmarkers => ?_⟩,
    hrewritten (f := .lineSource) (List.mem_singleton.2 rfl), fun hnone => ?_⟩
  · -- A file of no family is neither.
    by_contra hnone
    rw [hother hnone] at hrouted
    rcases other_spec settings hnames with ⟨-, e⟩ | ⟨-, -, e⟩ | ⟨-, -, e⟩ <;>
      simp [e] at hrouted
  · rintro ⟨f, e, he, hext⟩
    exact (hhandled he hext).imp (⟨_, ·⟩) id
  · rw [hrewritten he hext]
    exact vendored_iff_exists_isInfix hnames hmarkers
  · rw [hother hnone]
    rcases other_spec settings hnames with ⟨hi, e⟩ | ⟨hi, he, e⟩ | ⟨hi, he, e⟩ <;>
      simp_all

/-- All markers that are built in name directories. -/
lemma marks_default : ∀ m ∈ ({} : Settings).vendorMarkers, ∃ dirs, Marks m dirs := by
  intro m hm
  simp only [List.mem_cons, List.not_mem_nil, or_false] at hm
  rcases hm with rfl | rfl | rfl
  · exact ⟨["lib", "Vendor"], by decide, by decide, rfl⟩
  · exact ⟨["vendor"], by decide, by decide, rfl⟩
  · exact ⟨["tests", "stubs"], by decide, by decide, rfl⟩

/-- Without a configuration, a source in a vendored library is left alone. -/
theorem ofPath_by_extension_library :
    Path.components "lib//Vendor/./a.php" =
      (["lib", "Vendor", "a.php"] : List Text).map .name ∧
    ofPath {} "lib//Vendor/./a.php" = .vendored := by
  have hcomponents : Path.components "lib//Vendor/./a.php" =
      (["lib", "Vendor", "a.php"] : List Text).map .name := by decide
  have hext : HasExtension ["lib", "Vendor", "a.php"] "php" :=
    ⟨by decide, ["lib", "Vendor"], "a", by decide, rfl⟩
  have hmarks : Marks "/lib/Vendor/" ["lib", "Vendor"] := ⟨by decide, by decide, rfl⟩
  refine ⟨hcomponents, ?_⟩
  obtain ⟨-, hvendored⟩ := (ofPath_by_extension {} hcomponents).2.1 .source _ (by decide) hext
  exact (hvendored marks_default).2 ⟨_, List.mem_cons_self, _, hmarks, List.infix_rfl⟩

end Route
end SpdxHeaders
