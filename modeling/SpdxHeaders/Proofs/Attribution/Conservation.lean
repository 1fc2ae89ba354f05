import Mathlib.Data.List.Induction
import SpdxHeaders.Proofs.Attribution.TagLines

/-!
# What becomes of the statements of a header

Reading a header takes in its lines one after the other, and what it has taken in so far is told by
what the lines say (`Draft.Holds`): a line preserves this (`Draft.Holds.add`), so it holds for the
whole header (`parse_eq_ok_iff`). The tag lines then stand for every copyright statement
(`exists_read_of_parse`).
-/

namespace SpdxHeaders.Attribution

namespace LineMeaning

/-- The copyright statement of a line. -/
def statement? : LineMeaning → Option Statement
  | .copyright s => some s
  | _ => none

/-- The entry of a line in the list of authors. -/
def entry? : LineMeaning → Option Text
  | .copyright s => some s.author
  | .author entry => some entry
  | _ => none

/-- The SPDX identifier of the license that a line declares. -/
def license? : LineMeaning → Option Text
  | .license identifier => some identifier
  | _ => none

end LineMeaning

/-- The copyright statements among what lines say. -/
def statements (ms : List LineMeaning) : List Statement :=
  ms.filterMap LineMeaning.statement?

/-- The statements that are kept. -/
def keptStatements (keep : List Text) (ms : List LineMeaning) : List Statement :=
  (statements ms).filter fun s => Preservation.isPreserved keep s.holder

/-- The statements that are not kept. -/
def sharedStatements (keep : List Text) (ms : List LineMeaning) : List Statement :=
  (statements ms).filter fun s => !Preservation.isPreserved keep s.holder

section Draft
variable {keep : List Text} {ms : List LineMeaning} {d : Draft}

/-- What a draft has taken in from what lines say. -/
structure Draft.Holds (keep : List Text) (ms : List LineMeaning) (d : Draft) : Prop where
  authors : d.authors = ms.filterMap LineMeaning.entry?
  minYear : d.minYear = ((sharedStatements keep ms).map Statement.year).min?
  preserved : d.preserved = (keptStatements keep ms).map Statement.tagLine
  license : d.license = ms.findSome? LineMeaning.license?

/-- The statements that are kept are those of one part of the lines and then of the other. -/
lemma keptStatements_append (ms ms' : List LineMeaning) :
    keptStatements keep (ms ++ ms') = keptStatements keep ms ++ keptStatements keep ms' := by
  simp only [keptStatements, statements, List.filterMap_append, List.filter_append]

/-- So are the statements that share one line. -/
lemma sharedStatements_append (ms ms' : List LineMeaning) :
    sharedStatements keep (ms ++ ms') = sharedStatements keep ms ++ sharedStatements keep ms' := by
  simp only [sharedStatements, statements, List.filterMap_append, List.filter_append]

/-- The smallest of years and one more year. -/
lemma min?_concat (years : List Nat) (year : Nat) :
    (years ++ [year]).min? = olderYear years.min? year := by
  cases years with
  | nil => rfl
  | cons y years =>
    rw [List.cons_append, List.min?_cons', List.min?_cons', List.foldl_append]
    simp only [List.foldl_cons, List.foldl_nil, olderYear]
    split <;> congr 1 <;> omega

/-- A line adds its entry to the authors, if it has one. -/
lemma Draft.add_authors (keep : List Text) (d : Draft) (m : LineMeaning) :
    (d.add keep m).authors = d.authors ++ m.entry?.toList := by
  cases m with
  | copyright s =>
    rw [Draft.add]
    split <;> rfl
  | author entry => rfl
  | _ => exact (List.append_nil _).symm

/-- A line gives the license if there is none yet. -/
lemma Draft.add_license (keep : List Text) (d : Draft) (m : LineMeaning) :
    (d.add keep m).license = d.license.or m.license? := by
  cases m with
  | copyright s =>
    rw [Draft.add]
    split <;> exact Option.or_none.symm
  | license identifier => exact Option.orElse_eq_or
  | _ => exact Option.or_none.symm

/-- A line adds its statement to those that are kept, if it is to be kept. -/
lemma Draft.add_preserved (keep : List Text) (d : Draft) (m : LineMeaning) :
    (d.add keep m).preserved = d.preserved ++ (keptStatements keep [m]).map Statement.tagLine := by
  cases m with
  | copyright s =>
    cases hs : Preservation.isPreserved keep s.holder <;>
      simp [Draft.add, keptStatements, statements, LineMeaning.statement?, hs]
  | _ => exact (List.append_nil _).symm

/-- A line adds the year of its statement to those that count, if it is not to be kept. -/
lemma Draft.add_minYear (keep : List Text) (d : Draft) (m : LineMeaning) :
    (d.add keep m).minYear
      = ((sharedStatements keep [m]).map Statement.year).foldl olderYear d.minYear := by
  cases m with
  | copyright s =>
    cases hs : Preservation.isPreserved keep s.holder <;>
      simp [Draft.add, sharedStatements, statements, LineMeaning.statement?, hs]
  | _ => rfl

/-- The smallest of years and more years. -/
lemma min?_append (years years' : List Nat) :
    (years ++ years').min? = years'.foldl olderYear years.min? := by
  induction years' generalizing years with
  | nil => rw [List.append_nil, List.foldl_nil]
  | cons year years' ih => rw [List.append_cons, ih, min?_concat, List.foldl_cons]

/-- Taking in a line adds what it says. -/
lemma Draft.Holds.add (h : d.Holds keep ms) (m : LineMeaning) :
    (d.add keep m).Holds keep (ms ++ [m]) where
  authors := by
    rw [Draft.add_authors, h.authors, List.filterMap_append]
    cases hm : m.entry? <;> simp [hm]
  minYear := by
    rw [Draft.add_minYear, h.minYear, sharedStatements_append, List.map_append, min?_append]
  preserved := by
    rw [Draft.add_preserved, h.preserved, keptStatements_append, List.map_append]
  license := by
    rw [Draft.add_license, h.license, List.findSome?_append, List.findSome?_singleton]

/-- What lines say is held by the draft that they were taken into. -/
lemma Draft.holds_foldl (keep : List Text) (ms : List LineMeaning) :
    (ms.foldl (Draft.add keep) {}).Holds keep ms := by
  induction ms using List.reverseRecOn with
  | nil => exact ⟨rfl, rfl, rfl, rfl⟩
  | append_singleton ms m ih =>
    rw [List.foldl_append]
    exact ih.add m

/-- Reading lines one after the other is reading all of them and taking them in. -/
lemma foldlM_meaning (keep : List Text) (lines : List Text) (d : Draft) :
    lines.foldlM (fun (d : Draft) line => (meaning line).map (d.add keep)) d
      = (lines.mapM meaning).map fun ms => ms.foldl (Draft.add keep) d := by
  induction lines generalizing d with
  | nil => rfl
  | cons line lines ih =>
    rw [List.foldlM_cons, List.mapM_cons]
    cases meaning line with
    | error e => rfl
    | ok m =>
      rw [ok_bind, Except.map, ok_bind, ih]
      cases lines.mapM meaning <;> rfl

end Draft

section Attribution
variable {keep : List Text} {header : Text} {ms : List LineMeaning} {a : Attribution}

/-- An attribution says what lines say: it has their entries in order, the oldest year of the
statements that are not kept, the others as tag lines, and the first license. -/
structure Conserves (a : Attribution) (keep : List Text) (ms : List LineMeaning) : Prop where
  authors : a.authors = ms.filterMap LineMeaning.entry?
  minYear : a.minYear = ((sharedStatements keep ms).map Statement.year).min?
  preserved : a.preserved = (keptStatements keep ms).map Statement.tagLine
  license : ms.findSome? LineMeaning.license? = some a.license

/-- A draft with a license is finished to an attribution that says the same. -/
lemma Draft.Holds.finish_eq_ok_iff {d : Draft} (h : d.Holds keep ms) :
    d.finish = .ok a ↔ a.Conserves keep ms := by
  unfold Draft.finish
  constructor
  · intro hfinish
    split at hfinish
    case h_1 license hlicense =>
      cases hfinish
      exact ⟨h.authors, h.minYear, h.preserved, h.license.symm.trans hlicense⟩
    case h_2 => cases hfinish
  · rintro ⟨hauthors, hyear, hpreserved, hlicense⟩
    rw [h.license, hlicense, h.authors, h.minYear, h.preserved, ← hauthors, ← hyear, ← hpreserved]

/-- A header is read if every line is, and the attribution says what the lines say. -/
lemma parse_eq_ok_iff :
    parse keep header = .ok a ↔
      ∃ ms, header.lines.mapM meaning = .ok ms ∧ a.Conserves keep ms := by
  unfold parse
  rw [foldlM_meaning, bind_eq_ok_iff]
  constructor
  · rintro ⟨d, hd, hfinish⟩
    obtain ⟨ms, hms, rfl⟩ := map_eq_ok_iff.1 hd
    exact ⟨ms, hms, (Draft.holds_foldl keep ms).finish_eq_ok_iff.1 hfinish⟩
  · rintro ⟨ms, hms, ha⟩
    exact ⟨_, map_eq_ok_iff.2 ⟨ms, hms, rfl⟩, (Draft.holds_foldl keep ms).finish_eq_ok_iff.2 ha⟩

/-- The entries for the list of authors are those of the lines. -/
lemma mem_authors_iff (h : parse keep header = .ok a) {entry : Text} :
    entry ∈ a.authors ↔
      ∃ line ∈ header.lines, ∃ m, meaning line = .ok m ∧ m.entry? = some entry := by
  obtain ⟨ms, hms, ha⟩ := parse_eq_ok_iff.1 h
  rw [ha.authors, List.mem_filterMap]
  constructor
  · rintro ⟨m, hm, hentry⟩
    obtain ⟨line, hline, heq⟩ := exists_of_mem_mapM hms hm
    exact ⟨line, hline, m, heq, hentry⟩
  · rintro ⟨line, hline, m, heq, hentry⟩
    obtain ⟨m', hm, heq'⟩ := exists_of_mapM hms hline
    cases heq.symm.trans heq'
    exact ⟨m, hm, hentry⟩

/-- The tag lines that are kept are those of the kept statements of the lines. -/
lemma mem_preserved_iff (h : parse keep header = .ok a) {kept : Text} :
    kept ∈ a.preserved ↔ ∃ line ∈ header.lines, ∃ s, meaning line = .ok (.copyright s) ∧
      Preservation.isPreserved keep s.holder = true ∧ s.tagLine = kept := by
  obtain ⟨ms, hms, ha⟩ := parse_eq_ok_iff.1 h
  simp only [ha.preserved, keptStatements, statements, List.mem_map, List.mem_filter,
    List.mem_filterMap]
  constructor
  · rintro ⟨s, ⟨⟨m, hm, hs⟩, hkept⟩, rfl⟩
    obtain ⟨line, hline, heq⟩ := exists_of_mem_mapM hms hm
    cases m with
    | copyright s' =>
      cases hs
      exact ⟨line, hline, s, heq, hkept, rfl⟩
    | _ => cases hs
  · rintro ⟨line, hline, s, heq, hkept, rfl⟩
    obtain ⟨m, hm, heq'⟩ := exists_of_mapM hms hline
    cases heq.symm.trans heq'
    exact ⟨s, ⟨⟨_, hm, rfl⟩, hkept⟩, rfl⟩

/-- What every copyright line begins with. -/
def copyrightLabel : Text :=
  "SPDX-FileCopyrightText: "

/-- What the license line begins with. -/
def licenseLabel : Text :=
  "SPDX-License-Identifier: "

/-- The line that stands for all statements that are not kept. -/
def sharedLine (defaultHolder : Text) (year : Nat) : Text :=
  copyrightLabel ++ Text.ofNat year ++ " ".toList ++ defaultHolder

/-- The copyright lines of an attribution, each of them once. -/
def copyrightLines (a : Attribution) (defaultHolder : Text) : List Text :=
  ((a.minYear.map (sharedLine defaultHolder)).toList ++ a.preserved).eraseDups

/-- The license line stands behind the copyright lines. -/
lemma tagLines_eq (a : Attribution) (defaultHolder : Text) :
    a.tagLines defaultHolder = a.copyrightLines defaultHolder ++ [licenseLabel ++ a.license] := by
  unfold tagLines copyrightLines
  dsimp only
  rw [distinct_eq_eraseDups]
  cases a.minYear with
  | none => rfl
  | some year => rfl

/-- A copyright line is the shared one or one that is preserved. -/
lemma mem_copyrightLines_iff {defaultHolder l : Text} :
    l ∈ a.copyrightLines defaultHolder ↔
      (∃ year, a.minYear = some year ∧ sharedLine defaultHolder year = l) ∨ l ∈ a.preserved := by
  rw [copyrightLines, List.mem_eraseDups, List.mem_append, Option.mem_toList, Option.map_eq_some_iff]

/-- The tag line of a statement begins with the label of copyrights. -/
lemma copyrightLabel_isPrefix_tagLine (s : Statement) : copyrightLabel <+: s.tagLine := by
  unfold Statement.tagLine copyrightLabel
  rw [List.append_assoc, List.append_assoc]
  exact List.prefix_append _ _

/-- A copyright line is no license line. -/
lemma Conserves.not_licenseLabel_isPrefix (h : a.Conserves keep ms) {defaultHolder l : Text}
    (hl : l ∈ a.copyrightLines defaultHolder) : ¬ licenseLabel <+: l := by
  have hlabel : copyrightLabel <+: l := by
    rcases mem_copyrightLines_iff.1 hl with ⟨year, -, rfl⟩ | hl
    · rw [sharedLine, List.append_assoc, List.append_assoc]
      exact List.prefix_append _ _
    · rw [h.preserved] at hl
      obtain ⟨s, -, rfl⟩ := List.mem_map.1 hl
      exact copyrightLabel_isPrefix_tagLine s
  intro hlicense
  rcases List.prefix_or_prefix_of_prefix hlabel hlicense with hprefix | hprefix
  · exact absurd hprefix (by decide)
  · exact absurd hprefix (by decide)

/-- Every statement is represented: by its own line, or by a line with a year that is not later. -/
lemma Conserves.represented (h : a.Conserves keep ms) (defaultHolder : Text) {s : Statement}
    (hs : s ∈ statements ms) :
    if Preservation.isPreserved keep s.holder then s.tagLine ∈ a.copyrightLines defaultHolder
    else ∃ year ≤ s.year, sharedLine defaultHolder year ∈ a.copyrightLines defaultHolder := by
  split
  case isTrue hkeep =>
    rw [mem_copyrightLines_iff, h.preserved]
    exact .inr (List.mem_map.2 ⟨s, List.mem_filter.2 ⟨hs, hkeep⟩, rfl⟩)
  case isFalse hkeep =>
    have hyear : s.year ∈ (sharedStatements keep ms).map Statement.year :=
      List.mem_map.2 ⟨s, List.mem_filter.2 ⟨hs, by simpa using hkeep⟩, rfl⟩
    cases hmin : a.minYear with
    | none =>
      rw [h.minYear, List.min?_eq_none_iff] at hmin
      rw [hmin] at hyear
      cases hyear
    | some year =>
      refine ⟨year, ?_, mem_copyrightLines_iff.2 (.inl ⟨year, hmin, rfl⟩)⟩
      rw [h.minYear] at hmin
      exact (List.min?_eq_some_iff.1 hmin).2 _ hyear

/-- Reading a header and writing its tag lines conserves what the header says. The attribution says
what the lines say, the tag lines are its copyright lines and one license line behind them, and
every copyright statement is represented. -/
theorem parse_conserves (h : parse keep header = .ok a) (defaultHolder : Text) :
    ∃ ms, header.lines.mapM meaning = .ok ms ∧ a.Conserves keep ms ∧
      a.tagLines defaultHolder
        = ((a.minYear.map (sharedLine defaultHolder)).toList ++ a.preserved).eraseDups
          ++ [licenseLabel ++ a.license] ∧
      (∀ l ∈ a.copyrightLines defaultHolder, ¬ licenseLabel <+: l) ∧
      ∀ s ∈ statements ms,
        if Preservation.isPreserved keep s.holder then s.tagLine ∈ a.copyrightLines defaultHolder
        else ∃ year ≤ s.year, sharedLine defaultHolder year ∈ a.copyrightLines defaultHolder := by
  obtain ⟨ms, hms, ha⟩ := parse_eq_ok_iff.1 h
  exact ⟨ms, hms, ha, a.tagLines_eq defaultHolder, fun _ => ha.not_licenseLabel_isPrefix,
    fun _ => ha.represented defaultHolder⟩

/-- A kept statement that is repeated is represented by one line. -/
theorem parse_conserves_repeated :
    let header : Text :=
      "@copyright 2012 Old <o>\n@copyright 2017 Jo <j>\n@copyright 2012 Old <o>\n@license AGPL-3.0"
    let kept : Text := "SPDX-FileCopyrightText: 2012 Old <o>"
    let a : Attribution :=
      ⟨["Old <o>", "Jo <j>", "Old <o>"], some 2017, [kept, kept], "AGPL-3.0-only"⟩
    parse ["old"] header = .ok a ∧
      ∃ ms, header.lines.mapM meaning = .ok ms ∧ a.Conserves ["old"] ms ∧
        a.tagLines "Acme" = (["SPDX-FileCopyrightText: 2017 Acme", kept,
          "SPDX-License-Identifier: AGPL-3.0-only"] : List Text) ∧
        (∀ l ∈ a.copyrightLines "Acme", ¬ licenseLabel <+: l) ∧
        ∀ s ∈ statements ms,
          if Preservation.isPreserved ["old"] s.holder then s.tagLine ∈ a.copyrightLines "Acme"
          else ∃ year ≤ s.year, sharedLine "Acme" year ∈ a.copyrightLines "Acme" := by
  intro header kept a
  have h : parse ["old"] header = .ok a := by decide +kernel
  obtain ⟨ms, hms, ha, htags, hlabels, hrepresented⟩ := parse_conserves h "Acme"
  exact ⟨h, ms, hms, ha, htags.trans (by decide), hlabels, hrepresented⟩

end Attribution

end SpdxHeaders.Attribution
