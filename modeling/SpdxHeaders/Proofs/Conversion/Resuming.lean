import SpdxHeaders.Proofs.Conversion.Course
import SpdxHeaders.Proofs.Rewriting.Idempotence

/-!
# Going on where a conversion stopped

A file that was converted holds tags, so that it is left as it is when it is taken again
(`verdict_of_isTagged`). Converting files of which some are converted already is therefore the same
as converting all of them (`Wrote.trans`), and a conversion of such a tree meets what it meets in
the tree in which none is converted yet (`Ahead.walk_eq`).
-/

namespace SpdxHeaders.Conversion

/-- No two of the files are in the same place. -/
def Apart (c : Conversion) (t : FileTree) (files : List (List Text)) : Prop :=
  ∀ ns ∈ files, ∀ names ∈ files, ∀ l, t.locate .content (c.collector.pathOf ns) = .ok l →
    t.locate .content (c.collector.pathOf names) = .ok l → ns = names

variable {c : Conversion} {t t' u u' : FileTree} {before files : List (List Text)}
  {names : List Text}

/-- The files that a conversion meets are not in the same place. -/
lemma metFiles_apart (c : Conversion) (ht : t.WellNamed) : c.Apart t (c.metFiles t) := by
  obtain ⟨-, start, hplaced⟩ := c.metFiles_placed ht
  intro ns hns names hnames l hl hl'
  exact List.append_cancel_left
    (((hplaced ns hns).locate l hl).symm.trans ((hplaced names hnames).locate l hl'))

/-- Files of which no two are in one place stay so if there are fewer. -/
lemma Apart.mono (h : c.Apart t files) (hsub : before ⊆ files) : c.Apart t before :=
  fun ns hns names hnames => h ns (hsub hns) names (hsub hnames)

/-- A file whose header holds tags is reported as such, and not written. -/
lemma verdict_of_isTagged {style : CommentStyle} {text : Text}
    (hroute : Route.ofPath c.settings (Path.ofNames names) = .rewrite style)
    (htext : t.readText (c.collector.pathOf names) = .ok text)
    (h : Rewriting.IsTagged style text) :
    c.verdict t names = .ok (some ⟨c.collector.pathOf names, .alreadyTagged, []⟩) ∧
      c.written? t names = none := by
  have hrewriting : c.rewritingOf t style names = .ok .alreadyNormalized :=
    (rewritingOf_of_readText htext style).trans
      (Rewriting.ofContent_eq_alreadyNormalized_iff.2 h)
  unfold verdict written? replacement?
  simp [hroute, hrewriting]

/-- Two trees that files were written in are the same everywhere. -/
lemma Wrote.unique (h : c.Wrote t files t') (h' : c.Wrote t files u') (l : Location) :
    u'.get? l = t'.get? l := by
  by_cases hwritten : ∃ names ∈ files, (c.written? t names).isSome ∧
      t.locate .content (c.collector.pathOf names) = .ok l
  · obtain ⟨names, hmem, hsome, hl⟩ := hwritten
    obtain ⟨content, hcontent⟩ := Option.isSome_iff_exists.1 hsome
    rw [h.written names hmem content l hcontent hl, h'.written names hmem content l hcontent hl]
  · have hnone : ∀ names ∈ files, (c.written? t names).isSome →
        t.locate .content (c.collector.pathOf names) ≠ .ok l :=
      fun names hmem hsome hl => hwritten ⟨names, hmem, hsome, hl⟩
    rw [h.kept l hnone, h'.kept l hnone]

/-- A file that was written is not written again, and the conversion does not stop there. -/
lemma Wrote.again_of_written (h : c.Wrote u before t) (hmem : names ∈ before) {content : Text}
    (hcontent : c.written? u names = some content) :
    c.written? t names = none ∧ c.failure? t names = none := by
  obtain ⟨style, text, authors, hroute, htext, hchanged, -⟩ := exists_of_written? hcontent
  obtain ⟨l, -, hl, -, -⟩ := FileTree.exists_of_readText htext
  have hnew := FileTree.readText_of_get? ((h.alike.locate ..).trans hl)
    (h.written names hmem content l hcontent hl)
  obtain ⟨hverdict, hnone⟩ :=
    verdict_of_isTagged hroute hnew (Rewriting.isTagged_of_changed hchanged)
  refine ⟨hnone, ?_⟩
  unfold failure?
  rw [hverdict]

section Again
variable (h : c.Wrote u before t) (hsub : before ⊆ files) (hapart : c.Apart u files)
include h hsub hapart

/-- A file that was not written is as it was. -/
lemma Wrote.get?_of_unwritten (hmem : names ∈ files)
    (hnone : names ∈ before → c.written? u names = none) {l : Location}
    (hl : u.locate .content (c.collector.pathOf names) = .ok l) : t.get? l = u.get? l := by
  apply h.kept l
  intro ns hns hsome hl'
  obtain rfl := hapart ns (hsub hns) names hmem l hl' hl
  rw [hnone hns] at hsome
  cases hsome

/-- A file of those that were converted is not written again. -/
lemma Wrote.written?_of_mem (hmem : names ∈ before) : c.written? t names = none := by
  cases hcontent : c.written? u names with
  | some content => exact (h.again_of_written hmem hcontent).1
  | none =>
    rw [written?_congr h.alike fun l =>
      h.get?_of_unwritten hsub hapart (hsub hmem) fun _ => hcontent]
    exact hcontent

/-- For the other files nothing has changed. -/
lemma Wrote.written?_of_notMem (hmem : names ∈ files) (hnot : names ∉ before) :
    c.written? t names = c.written? u names :=
  written?_congr h.alike fun _ =>
    h.get?_of_unwritten hsub hapart hmem fun hbefore => absurd hbefore hnot

/-- The conversion stops at the same files. -/
lemma Wrote.failure?_eq (hgoing : ∀ ns ∈ before, c.failure? u ns = none) (hmem : names ∈ files) :
    c.failure? t names = c.failure? u names := by
  by_cases hbefore : names ∈ before ∧ ∃ content, c.written? u names = some content
  · obtain ⟨hbefore, content, hcontent⟩ := hbefore
    rw [(h.again_of_written hbefore hcontent).2, hgoing names hbefore]
  · refine failure?_congr h.alike fun l => h.get?_of_unwritten hsub hapart hmem fun hmem => ?_
    rw [Option.eq_none_iff_forall_ne_some]
    exact fun content hcontent => hbefore ⟨hmem, content, hcontent⟩

/-- Where a file is written again it has the content that it has for the first time. Elsewhere both
trees are as they were. -/
lemma Wrote.either {all : List (List Text)} (hall : all ⊆ files) (hu : c.Wrote u all u')
    (ht : c.Wrote t all t') (l : Location) :
    t'.get? l = u'.get? l ∨ u'.get? l = u.get? l ∧ t'.get? l = t.get? l := by
  have hlocate (ns : List Text) : t.locate .content (c.collector.pathOf ns)
      = u.locate .content (c.collector.pathOf ns) := h.alike.locate ..
  by_cases hwritten : ∃ names ∈ all, (c.written? u names).isSome ∧
      u.locate .content (c.collector.pathOf names) = .ok l
  · obtain ⟨names, hmem, hsome, hl⟩ := hwritten
    obtain ⟨content, hcontent⟩ := Option.isSome_iff_exists.1 hsome
    left
    rw [hu.written names hmem content l hcontent hl]
    by_cases hbefore : names ∈ before
    · rw [← h.written names hbefore content l hcontent hl]
      apply ht.kept l
      intro ns hns hsome' hl'
      rw [hapart ns (hall hns) names (hall hmem) l ((hlocate ns).symm.trans hl') hl,
        h.written?_of_mem hsub hapart hbefore] at hsome'
      cases hsome'
    · refine ht.written names hmem content l ?_ ((hlocate names).trans hl)
      exact (h.written?_of_notMem hsub hapart (hall hmem) hbefore).trans hcontent
  · right
    refine ⟨hu.kept l fun names hmem hsome hl => hwritten ⟨names, hmem, hsome, hl⟩,
      ht.kept l fun names hmem hsome hl => ?_⟩
    have hnot : names ∉ before := by
      intro hbefore
      rw [h.written?_of_mem hsub hapart hbefore] at hsome
      cases hsome
    rw [h.written?_of_notMem hsub hapart (hall hmem) hnot] at hsome
    exact hwritten ⟨names, hmem, hsome, (hlocate names).symm.trans hl⟩

/-- To convert some files first and then all is to convert all. -/
lemma Wrote.trans (h' : c.Wrote t files t') : c.Wrote u files t' := by
  have hlocate (ns : List Text) : t.locate .content (c.collector.pathOf ns)
      = u.locate .content (c.collector.pathOf ns) := h.alike.locate ..
  refine ⟨h.alike.trans h'.alike, fun names hmem content l hcontent hl => ?_, fun l hl => ?_⟩
  · by_cases hbefore : names ∈ before
    · rw [← h.written names hbefore content l hcontent hl]
      apply h'.kept l
      intro ns hns hsome hl'
      rw [hapart ns hns names hmem l ((hlocate ns).symm.trans hl') hl,
        h.written?_of_mem hsub hapart hbefore] at hsome
      cases hsome
    · refine h'.written names hmem content l ?_ ((hlocate names).trans hl)
      exact (h.written?_of_notMem hsub hapart hmem hbefore).trans hcontent
  · rw [← h.kept l fun names hmem => hl names (hsub hmem)]
    apply h'.kept l
    intro names hmem hsome hl'
    have hnot : names ∉ before := by
      intro hbefore
      rw [h.written?_of_mem hsub hapart hbefore] at hsome
      cases hsome
    rw [h.written?_of_notMem hsub hapart hmem hnot] at hsome
    exact hl names hmem hsome ((hlocate names).symm.trans hl')

end Again

/-- A tree in which the first of the files that a conversion of another tree meets have been
converted, with the same rules. -/
structure Ahead (c : Conversion) (u t : FileTree) : Prop where
  rules : Collector.SameRules c.collector.root u t
  exists_part : ∃ es, es <+: c.walk u ∧
    (∀ names ∈ es.filterMap WalkEvent.file?, c.failure? u names = none) ∧
    c.Wrote u (es.filterMap WalkEvent.file?) t

namespace Ahead

/-- A tree that is not ahead. -/
lemma refl (c : Conversion) (u : FileTree) : c.Ahead u u :=
  ⟨.refl _ u, [], List.nil_prefix, by simp, (Converted.start c u).tree⟩

/-- A tree that is ahead of another is like it. -/
lemma alike (h : c.Ahead u t) : u.Alike t := by
  obtain ⟨-, es, -, -, hwrote⟩ := h
  exact hwrote.alike

/-- A conversion stops at the same files of a tree that is ahead. -/
lemma failure?_eq (hu : u.WellNamed) (h : c.Ahead u t) (hmem : names ∈ c.metFiles u) :
    c.failure? t names = c.failure? u names := by
  obtain ⟨-, es, hes, hgoing, hwrote⟩ := h
  exact hwrote.failure?_eq (hes.filterMap _).subset (c.metFiles_apart hu) hgoing hmem

/-- A conversion of a tree that is ahead meets what it meets in the other tree. -/
theorem walk_eq (hu : u.WellNamed) (h : c.Ahead u t) : c.walk t = c.walk u := by
  have hfailure {ns : List Text} (hns : ns ∈ c.metFiles u) : c.failure? t ns = c.failure? u ns :=
    h.failure?_eq hu hns
  obtain ⟨hrules, es, hes, -, hwrote⟩ := h
  refine Collector.walk_congr hwrote.alike hrules fun start es' hstart hes' => ?_
  have hsub : es'.filterMap WalkEvent.file? ⊆ c.metFiles u := (hes'.filterMap _).subset
  have hslow := (c.converted_of_isPrefix hu (.refl u) hes').tree
  have hfast := (c.converted_of_isPrefix hu hwrote.alike hes').tree
  rw [(taken_congr fun ns hns => hfailure (hsub hns)).1] at hfast
  -- The runs differ only where one of them has a file converted that the other has not met yet.
  refine .of_sameRules u t ((hslow.alike.symm.trans hwrote.alike).trans hfast.alike)
    (fun dir hdir => hrules.layers start hstart dir (.inl hdir)) ?_ ?_ fun l => ?_
  · intro links l parts l' hl
    exact (hslow.alike.follow ..).symm.trans hl
  · intro links l parts l' hl
    exact (hwrote.alike.follow ..).trans ((hslow.alike.follow ..).symm.trans hl)
  · exact hwrote.either (hes.filterMap _).subset (c.metFiles_apart hu)
      (List.Subset.trans (List.takeWhile_prefix _).subset hsub) hslow hfast l

/-- A conversion of a tree that is ahead comes as far as that of the other tree, and writes what it
has left to write. -/
theorem convertFiles (hu : u.WellNamed) (h : c.Ahead u t) :
    (c.convertFiles t).failure = (c.convertFiles u).failure ∧
      c.Wrote u (c.taken u (c.metFiles u)) (c.convertFiles t).tree := by
  have hmet : c.metFiles t = c.metFiles u := by
    unfold metFiles
    rw [h.walk_eq hu]
  obtain ⟨htaken, hfailure⟩ := taken_congr fun names hmem => h.failure?_eq hu hmem
  have hslow := c.converted_convertFiles hu
  have hfast := c.converted_convertFiles (h.alike.wellNamed hu)
  rw [hmet] at hfast
  refine ⟨by rw [hfast.failure, hslow.failure, hfailure], ?_⟩
  obtain ⟨-, es, hes, hgoing, hwrote⟩ := h
  have hfiles : es.filterMap WalkEvent.file? <+: c.metFiles u := hes.filterMap _
  have hbefore : es.filterMap WalkEvent.file? ⊆ c.taken u (c.metFiles u) := by
    rw [← taken_of_going (List.findSome?_eq_none_iff.2 hgoing)]
    exact (taken_isPrefix hfiles).subset
  have htree := hfast.tree
  rw [htaken] at htree
  exact hwrote.trans hbefore ((c.metFiles_apart hu).mono (List.takeWhile_prefix _).subset) htree

end Ahead

end SpdxHeaders.Conversion
