import Mathlib.Tactic.Lemma
import SpdxHeaders.Text.Basic

/-!
# Pieces of a text

A text without the separator is a single piece, and every other text is such a piece in front of a
separator and a shorter text. `pieces_induction` is the induction that follows the pieces, and
`isInfix_fenced_iff` says what stands between two separators.
-/

namespace SpdxHeaders.Text

variable {sep : Char}

/-- A separator between two texts separates their pieces. -/
lemma pieces_append_cons (sep : Char) (a b : Text) :
    pieces sep (a ++ sep :: b) = pieces sep a ++ pieces sep b := by
  induction a with
  | nil => simp [pieces]
  | cons c a ih =>
    simp only [List.cons_append, pieces, ih]
    split
    · rfl
    · obtain ⟨p, ps, hp⟩ := List.exists_cons_of_ne_nil (pieces_ne_nil sep a)
      rw [hp]
      rfl

/-- A text without the separator is a single piece. -/
lemma pieces_of_notMem {a : Text} (h : sep ∉ a) : pieces sep a = [a] := by
  induction a with
  | nil => rfl
  | cons c a ih =>
    rw [List.mem_cons, not_or] at h
    unfold pieces
    rw [if_neg (Ne.symm h.1), ih h.2]

/-- A text without the separator is the first piece in front of one. -/
lemma pieces_cons {a : Text} (h : sep ∉ a) (b : Text) :
    pieces sep (a ++ sep :: b) = a :: pieces sep b := by
  rw [pieces_append_cons, pieces_of_notMem h, List.singleton_append]

/-- Texts without the separator are the pieces of what is made of them by putting a lead in front of
each and the separator between them. -/
lemma pieces_join {lead : Text} (hlead : sep ∉ lead) {ls : List Text} (hne : ls ≠ [])
    (h : ∀ l ∈ ls, sep ∉ l) :
    pieces sep (lead ++ join (sep :: lead) ls) = ls.map (lead ++ ·) := by
  induction ls with
  | nil => exact absurd rfl hne
  | cons l ls ih =>
    rw [List.forall_mem_cons] at h
    have hl : sep ∉ lead ++ l := by
      rw [List.mem_append, not_or]
      exact ⟨hlead, h.1⟩
    cases ls with
    | nil =>
      rw [join, List.intercalate_singleton, pieces_of_notMem hl]
      rfl
    | cons l' ls =>
      rw [join] at ih
      rw [join, List.intercalate_cons_cons, ← List.append_assoc, ← List.append_assoc,
        List.append_assoc (lead ++ l), List.cons_append, pieces_cons hl,
        ih (List.cons_ne_nil _ _) h.2]
      rfl

/-- What holds of a single piece, and of a piece in front of a text of which it holds, holds of
every text. -/
@[elab_as_elim]
lemma pieces_induction (sep : Char) {motive : Text → Prop} (t : Text)
    (piece : ∀ l, sep ∉ l → motive l)
    (cons : ∀ l t, sep ∉ l → motive t → motive (l ++ sep :: t)) : motive t := by
  by_cases h : sep ∈ t
  · obtain ⟨l, t', rfl, hl⟩ := List.eq_append_cons_of_mem h
    exact cons l t' hl (pieces_induction sep t' piece cons)
  · exact piece t h
termination_by t.length
decreasing_by
  subst_vars
  rw [List.length_append, List.length_cons]
  omega

/-- A separator is in no piece. -/
lemma notMem_of_mem_pieces {t l : Text} (hl : l ∈ pieces sep t) : sep ∉ l := by
  induction t using pieces_induction sep with
  | piece a ha =>
    rw [pieces_of_notMem ha, List.mem_singleton] at hl
    exact hl ▸ ha
  | cons a t ha ih =>
    rw [pieces_cons ha, List.mem_cons] at hl
    rcases hl with rfl | hl
    · exact ha
    · exact ih hl

/-- Two lists of pieces are joined by a separator between them. -/
lemma join_append (ls : List Text) {ms : List Text} (hls : ls ≠ []) (hms : ms ≠ []) :
    join [sep] (ls ++ ms) = join [sep] ls ++ sep :: join [sep] ms := by
  induction ls with
  | nil => exact absurd rfl hls
  | cons l ls ih =>
    cases ls with
    | nil =>
      obtain ⟨m, ms, rfl⟩ := List.exists_cons_of_ne_nil hms
      rw [List.singleton_append, join, List.intercalate_cons_cons, join, join,
        List.intercalate_singleton, List.append_assoc, List.singleton_append]
    | cons l' ls =>
      have ih := ih (List.cons_ne_nil _ _)
      rw [join, join] at ih
      rw [List.cons_append, List.cons_append, join, join, List.intercalate_cons_cons,
        List.intercalate_cons_cons, ← List.cons_append, ih]
      simp only [List.append_assoc, join]

/-- Texts without the separator occur between separators just if they are neighbours among the
pieces, with a piece on either side. -/
lemma isInfix_fenced_iff {ls : List Text} (hne : ls ≠ []) (hls : ∀ l ∈ ls, sep ∉ l) {t : Text} :
    sep :: join [sep] ls ++ [sep] <:+: t ↔
      ∃ before after, before ≠ [] ∧ after ≠ [] ∧ pieces sep t = before ++ ls ++ after := by
  have hpieces : pieces sep (join [sep] ls) = ls := by
    have h := @pieces_join sep [] (List.not_mem_nil) ls hne hls
    simpa using h
  constructor
  · rintro ⟨a, b, rfl⟩
    refine ⟨pieces sep a, pieces sep b, pieces_ne_nil _ _, pieces_ne_nil _ _, ?_⟩
    rw [List.append_assoc, List.append_assoc, List.cons_append, pieces_append_cons,
      List.singleton_append, pieces_append_cons, hpieces, List.append_assoc]
  · rintro ⟨before, after, hb, ha, e⟩
    refine ⟨join [sep] before, join [sep] after, ?_⟩
    rw [← join_pieces sep t, e, join_append _ (by simp [hne]) ha, join_append _ hb hne]
    simp only [List.append_assoc, List.cons_append, List.nil_append]

end SpdxHeaders.Text
