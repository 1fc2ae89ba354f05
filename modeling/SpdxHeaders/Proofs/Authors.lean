import Mathlib.Data.List.Induction
import Mathlib.Tactic.Lemma
import SpdxHeaders.Authors
import SpdxHeaders.Proofs.Text.Order

/-!
# The author list

Sorting the entries and leaving out the repeats loses none of them (`mem_ofEntries`) and leaves them
in strict order (`pairwise_ofEntries`), and in the markdown each has a line of its own
(`line_isInfix_markdown`).
-/

namespace SpdxHeaders.Authors

/-- Of each run of equal texts one is left. -/
lemma mem_dropRepeats {a : Text} {ts : List Text} : a ∈ dropRepeats ts ↔ a ∈ ts := by
  fun_induction dropRepeats ts with
  | case1 b ts ih =>
    rw [ih]
    exact ⟨List.mem_cons_of_mem b, fun h => (List.mem_cons.1 h).elim (· ▸ List.mem_cons_self) id⟩
  | case2 b c ts _ ih => rw [List.mem_cons, ih, ← List.mem_cons]
  | case3 ts => rfl

/-- The author list holds the entries. -/
lemma mem_ofEntries {a : Text} {entries : List Text} : a ∈ ofEntries entries ↔ a ∈ entries := by
  rw [ofEntries, mem_dropRepeats, Text.sort, List.mem_mergeSort]

/-- In a sorted list without repeats each entry comes before those behind it. -/
lemma pairwise_dropRepeats {ts : List Text} (h : ts.Pairwise fun a b => Text.le a b = true) :
    (dropRepeats ts).Pairwise (· < ·) := by
  fun_induction dropRepeats ts with
  | case1 a ts ih => exact ih h.of_cons
  | case2 a b ts hne ih =>
    obtain ⟨ha, hts⟩ := List.pairwise_cons.1 h
    refine List.pairwise_cons.2 ⟨fun x hx => ?_, ih hts⟩
    have hmem := mem_dropRepeats.1 hx
    refine Text.lt_iff.2 ⟨ha x hmem, ?_⟩
    -- A repeat of the first entry further down would be one of the second entry too.
    rintro rfl
    rcases List.mem_cons.1 hmem with rfl | hmem
    · exact hne rfl
    · have hle := (List.pairwise_cons.1 hts).1 a hmem
      exact hne (Text.le_antisymm a b (ha b List.mem_cons_self) hle)
  | case3 ts hshort =>
    match ts, hshort with
    | [], _ => exact .nil
    | [a], _ => exact List.pairwise_singleton _ _
    | a :: b :: ts, hshort => exact absurd rfl (hshort a b ts)

/-- The author list is in strict order. -/
lemma pairwise_ofEntries (entries : List Text) : (ofEntries entries).Pairwise (· < ·) :=
  pairwise_dropRepeats (List.pairwise_mergeSort Text.le_trans Text.le_total entries)

/-- The line of an author in the markdown. -/
def line (a : Text) : Text :=
  "- ".toList ++ a ++ ['\n']

/-- More authors are listed behind those that are listed before. -/
lemma markdown_append (as bs : List Text) :
    markdown (as ++ bs) = markdown as ++ bs.flatMap line := by
  unfold markdown
  rw [List.flatMap_append, ← List.append_assoc]
  rfl

/-- The heading and the lines below it end with a line feed. -/
lemma exists_markdown_eq (authors : List Text) : ∃ t, markdown authors = t ++ ['\n'] := by
  cases authors using List.reverseRecOn with
  | nil => exact ⟨"# Authors\n".toList, by decide⟩
  | append_singleton as a =>
    refine ⟨markdown as ++ ("- ".toList ++ a), ?_⟩
    rw [markdown_append, List.flatMap_singleton, line, ← List.append_assoc]

/-- Every author has a line in the markdown, behind another line or the heading. -/
lemma line_isInfix_markdown {a : Text} {authors : List Text} (h : a ∈ authors) :
    '\n' :: line a <:+: markdown authors := by
  obtain ⟨as, bs, rfl⟩ := List.append_of_mem h
  obtain ⟨t, ht⟩ := exists_markdown_eq as
  refine ⟨t, bs.flatMap line, ?_⟩
  rw [markdown_append, ht, List.flatMap_cons, List.append_assoc, List.append_assoc]
  rfl

end SpdxHeaders.Authors
