import Mathlib.Data.List.Induction
import Mathlib.Data.List.Infix
import Mathlib.Tactic.Lemma
import SpdxHeaders.Attribution.Basic
import SpdxHeaders.Proofs.Bind

/-!
# Tag lines

Every line that stands for a header is a tag: it begins with `SPDX`. The main facts are
`Draft.tagged_add`, the step of the reading of a header, and `tagged_of_parse`, its whole run.
-/

namespace SpdxHeaders.Attribution

/-- What every tag begins with. -/
def tag : Text :=
  "SPDX"

/-- A list of tag lines. -/
def Tagged (lines : List Text) : Prop :=
  ∀ l ∈ lines, tag <+: l

/-- The line that keeps a statement is a tag line. -/
lemma Statement.tag_isPrefix (s : Statement) : tag <+: s.tagLine := by
  unfold tagLine
  simp only [List.append_assoc]
  exact ⟨"-FileCopyrightText: ".toList ++ _, rfl⟩

/-- Taking in a line keeps tag lines only. -/
lemma Draft.tagged_add {keep : List Text} {d : Draft} (h : Tagged d.preserved) (m : LineMeaning) :
    Tagged (d.add keep m).preserved := by
  cases m with
  | copyright s =>
    rw [Draft.add]
    split
    · intro l hl
      rcases List.mem_append.1 hl with hl | hl
      · exact h l hl
      · rw [List.mem_singleton.1 hl]
        exact s.tag_isPrefix
    · exact h
  | _ => exact h

/-- Reading lines preserves tagged lines only. -/
lemma Draft.tagged_foldlM {keep : List Text} {lines : List Text} {d d' : Draft}
    (hd : Tagged d.preserved)
    (h : lines.foldlM (fun (d : Draft) line => (meaning line).map (d.add keep)) d = .ok d') :
    Tagged d'.preserved := by
  induction lines generalizing d with
  | nil =>
    cases h
    exact hd
  | cons line lines ih =>
    rw [List.foldlM_cons, bind_eq_ok_iff] at h
    obtain ⟨d₁, hadd, h⟩ := h
    obtain ⟨m, -, rfl⟩ := map_eq_ok_iff.1 hadd
    exact ih (Draft.tagged_add hd m) h

/-- The statements that a header keeps are kept as tag lines. -/
lemma tagged_of_parse {keep : List Text} {header : Text} {a : Attribution}
    (h : parse keep header = .ok a) : Tagged a.preserved := by
  obtain ⟨d, hd, h⟩ := bind_eq_ok_iff.1 h
  unfold Draft.finish at h
  split at h
  · cases h
    exact Draft.tagged_foldlM (d := {}) (List.forall_mem_nil _) hd
  · cases h

/-- Of equal elements the first is left. -/
lemma distinct_eq_eraseDups {α : Type} [BEq α] [LawfulBEq α] [DecidableEq α] (xs : List α) :
    distinct xs = xs.eraseDups := by
  induction xs using List.reverseRecOn with
  | nil => rfl
  | append_singleton xs x ih =>
    have hx : [x].removeAll xs = if x ∈ xs then [] else [x] := by
      by_cases h : x ∈ xs <;> simp [List.removeAll, h]
    unfold distinct at ih ⊢
    rw [List.foldl_append, ih, List.eraseDups_append, hx]
    simp only [List.foldl_cons, List.foldl_nil, List.mem_eraseDups]
    split
    · exact (List.append_nil _).symm
    · simp [List.eraseDups_cons]

/-- The lines of a header are tagged if those that it preserves are. -/
lemma tagged_tagLines {a : Attribution} (h : Tagged a.preserved) (defaultHolder : Text) :
    Tagged (a.tagLines defaultHolder) := by
  intro l hl
  rcases List.mem_append.1 hl with hl | hl
  · rw [distinct_eq_eraseDups, List.mem_eraseDups] at hl
    rcases List.mem_append.1 hl with hl | hl
    · split at hl
      · rw [List.mem_singleton.1 hl]
        exact ⟨"-FileCopyrightText: ".toList ++ _, by simp only [List.append_assoc]; rfl⟩
      · cases hl
    · exact h l hl
  · rw [List.mem_singleton.1 hl]
    exact ⟨"-License-Identifier: ".toList ++ a.license, rfl⟩

/-- The first of the lines that stand for a header is a tag line. -/
lemma exists_head?_tagLines {keep : List Text} {header : Text} {a : Attribution}
    (h : parse keep header = .ok a) (defaultHolder : Text) :
    ∃ l, (a.tagLines defaultHolder).head? = some l ∧ tag <+: l := by
  have ht := tagged_tagLines (tagged_of_parse h) defaultHolder
  have hne : a.tagLines defaultHolder ≠ [] :=
    List.append_ne_nil_of_right_ne_nil _ (List.cons_ne_nil _ _)
  obtain ⟨l, ls, e⟩ := List.exists_cons_of_ne_nil hne
  exact ⟨l, by rw [e, List.head?_cons], ht l (e ▸ List.mem_cons_self ..)⟩

end SpdxHeaders.Attribution
