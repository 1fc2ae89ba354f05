import Mathlib.Tactic.Lemma
import SpdxHeaders.Conversion.Basic
import SpdxHeaders.Proofs.FileTree.Overwriting
import SpdxHeaders.Proofs.Rewriting.Change

/-!
# What becomes of a file

The verdict on a file is what a conversion says about it as it stands in a tree: a report, or why
the conversion stops. Taking the file reports its verdict, or stops with it (`takeFile_verdict`).
The tree changes at most by a new content for this file (`takeFile_tree`).
-/

namespace SpdxHeaders

namespace Conversion

/-- What rewriting makes of the file that names lead to. -/
def rewritingOf (c : Conversion) (t : FileTree) (style : CommentStyle) (names : List Text) :
    Except ConversionError Rewriting :=
  readSource t (c.collector.pathOf names) >>= fun source =>
    Rewriting.ofContent style c.options source.content

/-- The report on the file that names lead to, none if it is exempt, or why a conversion stops
there. -/
def verdict (c : Conversion) (t : FileTree) (names : List Text) :
    Except ConversionError (Option FileReport) :=
  let p := c.collector.pathOf names
  match Route.ofPath c.settings (Path.ofNames names) with
  | .rewrite style =>
    match c.rewritingOf t style names with
    | .ok .alreadyNormalized => .ok (some ⟨p, .alreadyTagged, []⟩)
    | .ok (.changed _ authors) =>
      .ok (some ⟨p, if c.options.dryRun then .wouldReplace else .replaced, authors⟩)
    | .error e => .error (e.inFile p)
  | .vendored => .ok (some ⟨p, .vendored, []⟩)
  | .ignorable => .ok (some ⟨p, .ignorable, []⟩)
  | .unhandled => .ok (some ⟨p, .unhandled, []⟩)
  | .exempt => .ok none

/-- The new content of the file that names lead to, if there is one. -/
def replacement? (c : Conversion) (t : FileTree) (names : List Text) : Option Text :=
  match Route.ofPath c.settings (Path.ofNames names) with
  | .rewrite style =>
    match c.rewritingOf t style names with
    | .ok (.changed content _) => some content
    | _ => none
  | _ => none

/-- The report on the file that names lead to, if there is one. -/
def report? (c : Conversion) (t : FileTree) (names : List Text) : Option FileReport :=
  match c.verdict t names with
  | .ok r => r
  | .error _ => none

/-- Why a conversion stops at the file that names lead to, if it does. -/
def failure? (c : Conversion) (t : FileTree) (names : List Text) : Option ConversionError :=
  match c.verdict t names with
  | .ok _ => none
  | .error e => some e

variable {c : Conversion} {t t' : FileTree} {names : List Text} {s : Progress}

/-- What rewriting makes of a file depends on the node its path leads to only. -/
lemma rewritingOf_congr (h : t.Alike t')
    (hsame : ∀ l, t.locate .content (c.collector.pathOf names) = .ok l → t'.get? l = t.get? l)
    (style : CommentStyle) : c.rewritingOf t' style names = c.rewritingOf t style names := by
  unfold rewritingOf readSource
  rw [h.readText hsame]

/-- The verdict on a file depends on the node its path leads to only. -/
lemma verdict_congr (h : t.Alike t')
    (hsame : ∀ l, t.locate .content (c.collector.pathOf names) = .ok l → t'.get? l = t.get? l) :
    c.verdict t' names = c.verdict t names := by
  unfold verdict
  simp only [rewritingOf_congr h hsame]

/-- The new content of a file depends on the bytes of this file only. -/
lemma replacement?_congr (h : t.Alike t')
    (hsame : ∀ l, t.locate .content (c.collector.pathOf names) = .ok l → t'.get? l = t.get? l) :
    c.replacement? t' names = c.replacement? t names := by
  unfold replacement?
  simp only [rewritingOf_congr h hsame]

/-- Whether a conversion stops at a file depends on the node its path leads to only. -/
lemma failure?_congr (h : t.Alike t')
    (hsame : ∀ l, t.locate .content (c.collector.pathOf names) = .ok l → t'.get? l = t.get? l) :
    c.failure? t' names = c.failure? t names := by
  unfold failure?
  rw [verdict_congr h hsame]

/-- What rewriting makes of a file is what it makes of the text in it. -/
lemma rewritingOf_of_readText {text : Text}
    (htext : t.readText (c.collector.pathOf names) = .ok text) (style : CommentStyle) :
    c.rewritingOf t style names = Rewriting.ofContent style c.options text := by
  unfold rewritingOf readSource
  rw [htext]
  rfl

/-- What rewriting makes of a file, it makes of the text that stands there. -/
lemma rewritingOf_of_get? {l : Location} {text : Text}
    (hl : t.locate .content (c.collector.pathOf names) = .ok l)
    (hfile : t.get? l = some (.file text.toUtf8)) (style : CommentStyle) :
    c.rewritingOf t style names = Rewriting.ofContent style c.options text :=
  rewritingOf_of_readText (FileTree.readText_of_get? hl hfile) style

/-- What rewriting makes of a file, it makes of a text that was read. -/
lemma exists_of_rewritingOf {style : CommentStyle} {r : Rewriting}
    (h : c.rewritingOf t style names = .ok r) :
    ∃ text, t.readText (c.collector.pathOf names) = .ok text ∧
      Rewriting.ofContent style c.options text = .ok r := by
  obtain ⟨source, hsource, hcontent⟩ := bind_eq_ok_iff.1 h
  unfold readSource at hsource
  split at hsource
  case h_1 text htext =>
    cases hsource
    exact ⟨text, htext, hcontent⟩
  case h_2 => cases hsource

/-- A file to rewrite that rewriting changes has a new content. -/
lemma replacement?_of_changed {style : CommentStyle} {content : Text} {authors : List Text}
    (hroute : Route.ofPath c.settings (Path.ofNames names) = .rewrite style)
    (h : c.rewritingOf t style names = .ok (.changed content authors)) :
    c.replacement? t names = some content := by
  unfold replacement?
  simp only [hroute, h]

/-- A file with a new content is one to rewrite whose text was read and changed. -/
lemma exists_of_replacement? {content : Text} (h : c.replacement? t names = some content) :
    ∃ style text authors,
      Route.ofPath c.settings (Path.ofNames names) = .rewrite style ∧
      t.readText (c.collector.pathOf names) = .ok text ∧
      Rewriting.ofContent style c.options text = .ok (.changed content authors) ∧
      c.rewritingOf t style names = .ok (.changed content authors) := by
  unfold replacement? at h
  split at h
  case h_1 style hroute =>
    split at h
    case h_1 content' authors hrewriting =>
      cases h
      obtain ⟨text, htext, hcontent⟩ := exists_of_rewritingOf hrewriting
      exact ⟨style, text, authors, hroute, htext, hcontent, hrewriting⟩
    case h_2 => cases h
  case h_2 => cases h

/-- The content that is written to the file that names lead to, if there is one. -/
def written? (c : Conversion) (t : FileTree) (names : List Text) : Option Text :=
  if c.options.dryRun then none else c.replacement? t names

/-- What is written to a file depends on the bytes of this file only. -/
lemma written?_congr (h : t.Alike t')
    (hsame : ∀ l, t.locate .content (c.collector.pathOf names) = .ok l → t'.get? l = t.get? l) :
    c.written? t' names = c.written? t names := by
  unfold written?
  rw [replacement?_congr h hsame]

/-- Converting a file is writing back what rewriting makes of it. -/
lemma convertFile_snd (c : Conversion) (t : FileTree) (style : CommentStyle) (names : List Text) :
    (convertFile c.options style (c.collector.pathOf names) t).2
      = c.rewritingOf t style names >>= writeBack c.options (c.collector.pathOf names) t := by
  unfold convertFile rewritingOf
  cases readSource t (c.collector.pathOf names) <;> rfl

/-- Writing back goes well for a file that was read. -/
lemma writeBack_of_rewritingOf {style : CommentStyle} {content : Text} {authors : List Text}
    (hroute : Route.ofPath c.settings (Path.ofNames names) = .rewrite style)
    (h : c.rewritingOf t style names = .ok (.changed content authors)) :
    ∃ l bytes, t.locate .content (c.collector.pathOf names) = .ok l ∧
      t.get? l = some (.file bytes) ∧
      writeBack c.options (c.collector.pathOf names) t (.changed content authors)
        = if c.options.dryRun then .ok (t, ⟨c.collector.pathOf names, .wouldReplace, authors⟩)
          else .ok (t.insert l (.file content.toUtf8),
            ⟨c.collector.pathOf names, .replaced, authors⟩) := by
  obtain ⟨-, text, -, -, htext, -, -⟩ :=
    exists_of_replacement? (replacement?_of_changed hroute h)
  obtain ⟨l, bytes, hl, hfile, -⟩ := FileTree.exists_of_readText htext
  refine ⟨l, bytes, hl, hfile, ?_⟩
  unfold writeBack
  dsimp only
  rw [FileTree.write_of_read hl hfile]

/-- Taking a file stops with its verdict, or reports it. -/
lemma takeFile_verdict (c : Conversion) (s : Progress) (names : List Text) :
    match c.verdict s.tree names with
    | .ok r => (c.takeFile s names).reports = s.reports ++ r.toList ∧
        (c.takeFile s names).failure = s.failure
    | .error e => (c.takeFile s names).reports = s.reports ∧
        (c.takeFile s names).failure = some e := by
  unfold verdict takeFile
  dsimp only
  cases hroute : Route.ofPath c.settings (Path.ofNames names) with
  | vendored => exact ⟨rfl, rfl⟩
  | ignorable => exact ⟨rfl, rfl⟩
  | unhandled => exact ⟨rfl, rfl⟩
  | exempt => exact ⟨(List.append_nil _).symm, rfl⟩
  | rewrite style =>
    dsimp only
    rw [convertFile_snd]
    cases h : c.rewritingOf s.tree style names with
    | error e => exact ⟨rfl, rfl⟩
    | ok r =>
      cases r with
      | alreadyNormalized => exact ⟨rfl, rfl⟩
      | changed content authors =>
        -- Writing back cannot fail, as the file was read.
        obtain ⟨l, bytes, -, -, hback⟩ := writeBack_of_rewritingOf hroute h
        rw [ok_bind, hback]
        cases c.options.dryRun <;> exact ⟨rfl, rfl⟩

/-- Taking a file leaves the tree as it is, or writes a new content to the file. -/
lemma takeFile_tree (c : Conversion) (s : Progress) (names : List Text) :
    match c.written? s.tree names with
    | none => (c.takeFile s names).tree = s.tree
    | some content => ∃ l bytes, s.tree.locate .content (c.collector.pathOf names) = .ok l ∧
        s.tree.get? l = some (.file bytes) ∧
        (c.takeFile s names).tree = s.tree.insert l (.file content.toUtf8) := by
  unfold written? replacement? takeFile
  dsimp only
  cases hroute : Route.ofPath c.settings (Path.ofNames names) with
  | vendored => cases c.options.dryRun <;> rfl
  | ignorable => cases c.options.dryRun <;> rfl
  | unhandled => cases c.options.dryRun <;> rfl
  | exempt => cases c.options.dryRun <;> rfl
  | rewrite style =>
    dsimp only
    rw [convertFile_snd]
    cases h : c.rewritingOf s.tree style names with
    | error e => cases c.options.dryRun <;> rfl
    | ok r =>
      cases r with
      | alreadyNormalized => cases c.options.dryRun <;> rfl
      | changed content authors =>
        obtain ⟨l, bytes, hl, hfile, hback⟩ := writeBack_of_rewritingOf hroute h
        rw [ok_bind, hback]
        cases c.options.dryRun with
        | true => rfl
        | false => exact ⟨l, bytes, hl, hfile, rfl⟩

/-- A file that is written is one to rewrite whose text rewriting changes, and it is reported. -/
lemma exists_of_written? {content : Text} (h : c.written? t names = some content) :
    ∃ style text authors,
      Route.ofPath c.settings (Path.ofNames names) = .rewrite style ∧
      t.readText (c.collector.pathOf names) = .ok text ∧
      Rewriting.ofContent style c.options text = .ok (.changed content authors) ∧
      c.verdict t names = .ok (some ⟨c.collector.pathOf names, .replaced, authors⟩) := by
  unfold written? at h
  split at h
  case isTrue => cases h
  case isFalse hdry =>
    obtain ⟨style, text, authors, hroute, htext, hcontent, hrewriting⟩ := exists_of_replacement? h
    refine ⟨style, text, authors, hroute, htext, hcontent, ?_⟩
    unfold verdict
    simp [hroute, hrewriting, hdry]

/-- A file at which a conversion stops is not written. -/
lemma written?_of_failure? {e : ConversionError} (h : c.failure? t names = some e) :
    c.written? t names = none := by
  rw [Option.eq_none_iff_forall_ne_some]
  intro content hcontent
  obtain ⟨-, -, authors, -, -, -, hreport⟩ := exists_of_written? hcontent
  unfold failure? at h
  rw [hreport] at h
  cases h

/-- What keeps a file from being rewritten is an error of the file. -/
lemma raisedByFile_of_rewritingOf {style : CommentStyle} {e : ConversionError}
    (h : c.rewritingOf t style names = .error e) : e.RaisedByFile := by
  rcases bind_eq_error_iff.1 h with hsource | ⟨source, -, h⟩
  · unfold readSource at hsource
    split at hsource <;> cases hsource
    exact .access _
  · exact Rewriting.raisedByFile_of_error h

/-- A conversion stops at a file just if it is one to rewrite and rewriting fails, with that
error. -/
lemma failure?_eq_some_iff {e : ConversionError} :
    c.failure? t names = some e ↔ ∃ style cause,
      Route.ofPath c.settings (Path.ofNames names) = .rewrite style ∧
      c.rewritingOf t style names = .error cause ∧ e = .file (c.collector.pathOf names) cause := by
  unfold failure? verdict
  dsimp only
  cases hroute : Route.ofPath c.settings (Path.ofNames names) with
  | vendored => simp
  | ignorable => simp
  | unhandled => simp
  | exempt => simp
  | rewrite style =>
    cases h : c.rewritingOf t style names with
    | error cause =>
      have hcause := (raisedByFile_of_rewritingOf h).inFile
      simp [h, hcause, eq_comm]
    | ok r => cases r <;> simp [h]

/-- A conversion does not stop at a file just if rewriting does not fail, if it is one to
rewrite. -/
lemma failure?_eq_none_iff :
    c.failure? t names = none ↔
      ∀ style, Route.ofPath c.settings (Path.ofNames names) = .rewrite style →
        ∃ r, c.rewritingOf t style names = .ok r := by
  constructor
  · intro h style hroute
    cases hrewriting : c.rewritingOf t style names with
    | ok r => exact ⟨r, rfl⟩
    | error cause =>
      have hfail := failure?_eq_some_iff.2 ⟨style, cause, hroute, hrewriting, rfl⟩
      rw [h] at hfail
      cases hfail
  · intro h
    rw [Option.eq_none_iff_forall_ne_some]
    intro e hfail
    obtain ⟨style, cause, hroute, hrewriting, -⟩ := failure?_eq_some_iff.1 hfail
    obtain ⟨r, hr⟩ := h style hroute
    rw [hrewriting] at hr
    cases hr

/-- A conversion does not stop at a file that rewriting does not fail on. -/
lemma failure?_of_rewritingOf {style : CommentStyle} {r : Rewriting}
    (hroute : Route.ofPath c.settings (Path.ofNames names) = .rewrite style)
    (h : c.rewritingOf t style names = .ok r) : c.failure? t names = none := by
  refine failure?_eq_none_iff.2 fun style' hroute' => ?_
  rw [hroute] at hroute'
  cases hroute'
  exact ⟨r, h⟩

/-- A file at which a conversion does not stop is reported under its path unless it is exempt. -/
lemma path_of_report? (h : c.failure? t names = none) :
    (c.report? t names).map FileReport.path
      = if Route.ofPath c.settings (Path.ofNames names) = .exempt then none
        else some (c.collector.pathOf names) := by
  unfold failure? at h
  unfold report?
  unfold verdict at h ⊢
  dsimp only at h ⊢
  cases hroute : Route.ofPath c.settings (Path.ofNames names) with
  | vendored => rfl
  | ignorable => rfl
  | unhandled => rfl
  | exempt => rfl
  | rewrite style =>
    simp only [hroute] at h ⊢
    cases hrewriting : c.rewritingOf t style names with
    | error cause => simp [hrewriting] at h
    | ok r => cases r <;> rfl

/-- What a conversion can report on the file that names lead to. -/
inductive Reported (c : Conversion) (t : FileTree) (names : List Text) : FileReport → Prop where
  | tagged {style} :
    Route.ofPath c.settings (Path.ofNames names) = .rewrite style →
    c.rewritingOf t style names = .ok .alreadyNormalized →
    Reported c t names ⟨c.collector.pathOf names, .alreadyTagged, []⟩
  | rewritten {style content authors} :
    Route.ofPath c.settings (Path.ofNames names) = .rewrite style →
    c.rewritingOf t style names = .ok (.changed content authors) →
    Reported c t names
      ⟨c.collector.pathOf names, if c.options.dryRun then .wouldReplace else .replaced, authors⟩
  | vendored :
    Route.ofPath c.settings (Path.ofNames names) = .vendored →
    Reported c t names ⟨c.collector.pathOf names, .vendored, []⟩
  | ignorable :
    Route.ofPath c.settings (Path.ofNames names) = .ignorable →
    Reported c t names ⟨c.collector.pathOf names, .ignorable, []⟩
  | unhandled :
    Route.ofPath c.settings (Path.ofNames names) = .unhandled →
    Reported c t names ⟨c.collector.pathOf names, .unhandled, []⟩

/-- A report on a file is one of those that there can be. -/
lemma reported_of_report? {f : FileReport} (h : c.report? t names = some f) :
    c.Reported t names f := by
  unfold report? verdict at h
  dsimp only at h
  cases hroute : Route.ofPath c.settings (Path.ofNames names) with
  | vendored =>
    simp only [hroute] at h
    cases h
    exact .vendored hroute
  | ignorable =>
    simp only [hroute] at h
    cases h
    exact .ignorable hroute
  | unhandled =>
    simp only [hroute] at h
    cases h
    exact .unhandled hroute
  | exempt => simp [hroute] at h
  | rewrite style =>
    cases hrewriting : c.rewritingOf t style names with
    | error cause => simp [hroute, hrewriting] at h
    | ok r =>
      simp only [hroute, hrewriting] at h
      cases r with
      | alreadyNormalized =>
        cases h
        exact .tagged hroute hrewriting
      | changed content authors =>
        cases h
        exact .rewritten hroute hrewriting

/-- A file is reported under its path, and it is none of the exempt ones. -/
lemma Reported.route_ne_exempt {f : FileReport} (h : c.Reported t names f) :
    f.path = c.collector.pathOf names ∧
      Route.ofPath c.settings (Path.ofNames names) ≠ .exempt := by
  cases h with
  | tagged hroute | rewritten hroute | vendored hroute | ignorable hroute | unhandled hroute =>
    exact ⟨rfl, hroute ▸ nofun⟩

/-- A file that is reported as replaced is written. -/
lemma written?_of_report? {f : FileReport} (h : c.report? t names = some f)
    (hf : f.outcome = .replaced) : ∃ content, c.written? t names = some content := by
  cases reported_of_report? h with
  | @rewritten style content authors hroute hrewriting =>
    cases hdry : c.options.dryRun with
    | true => simp [hdry] at hf
    | false =>
      refine ⟨content, ?_⟩
      rw [written?, hdry, if_neg Bool.false_ne_true]
      exact replacement?_of_changed hroute hrewriting
  | _ => cases hf

end Conversion

end SpdxHeaders
