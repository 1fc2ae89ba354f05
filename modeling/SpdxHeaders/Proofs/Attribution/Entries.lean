import SpdxHeaders.Proofs.Attribution.Conservation
import SpdxHeaders.Proofs.Attribution.Decision
import SpdxHeaders.Proofs.Text.Lines

/-!
# The entries of a header

What a rule reads in a line for the list of authors is not empty and holds no line feed, whatever
the rule (`Rule.Says.entry_run`). A header is read line by line, so this holds for all of its
entries (`entry_run_of_lines`).
-/

namespace SpdxHeaders.Attribution

variable {opening closing lead t holder contact line entry : Text} {form : HolderForm}
  {s : Statement} {rule : Rule} {m : LineMeaning}

/-- The entry of a holder with a contact is a run if the text has no line feed. -/
lemma Bracketed.author_run (h : Bracketed opening closing t holder contact) (ht : '\n' ∉ t)
    (year : Nat) : RunWithout '\n' (Statement.author ⟨year, holder, some contact⟩) := by
  have hmem {c : Char} (hc : c ∈ holder ++ opening ++ contact ++ closing) : c ∈ t :=
    h.isPrefix.subset hc
  have hholder : '\n' ∉ holder := fun hc => ht (hmem (by simp [hc]))
  have hcontact : '\n' ∉ contact := fun hc => ht (hmem (by simp [hc]))
  refine ⟨fun e => ?_, ?_⟩
  · simp [Statement.author] at e
  · simp [Statement.author, hholder, hcontact]

/-- The entry of a statement is a run if the text that begins with it has no line feed. -/
lemma Begins.author_run (h : Begins lead form t s) (ht : '\n' ∉ t) : RunWithout '\n' s.author := by
  obtain ⟨year, holder, contact⟩ := s
  obtain ⟨rest, ⟨digits, comma, -, -, rfl, -⟩, hholder⟩ := h
  have hrest : '\n' ∉ rest := fun hmem => ht (List.mem_append_right _ hmem)
  dsimp only at hholder
  cases hholder with
  | angle hb => exact hb.author_run hrest year
  | paren hb => exact hb.author_run hrest year
  | free hrun => exact hrun

/-- What a rule reads in a line for the list of authors is a run. -/
lemma Rule.Says.entry_run (h : rule.Says line m) (hentry : m.entry? = some entry)
    (hline : '\n' ∉ line) : RunWithout '\n' entry := by
  cases h with
  | angle hfirst h | paren hfirst h | free hfirst h =>
    cases hentry
    exact h.author_run fun hmem => hline (hfirst.eq ▸ List.mem_append_right _ hmem)
  | author _ h =>
    cases hentry
    exact h.1
  | _ => cases hentry

/-- The entry of a line is a run. -/
lemma entry_run_of_meaning (h : meaning line = .ok m) (hentry : m.entry? = some entry)
    (hline : '\n' ∉ line) : RunWithout '\n' entry := by
  obtain ⟨rule, -, hsaid⟩ | ⟨-, -, -, rfl⟩ := meaning_eq_ok_iff.1 h
  · exact hsaid.entry_run hentry hline
  · cases hentry

/-- The entries of lines are runs. -/
lemma entry_run_of_lines {header : Text} {ms : List LineMeaning}
    (h : header.lines.mapM meaning = .ok ms) (hentry : entry ∈ ms.filterMap LineMeaning.entry?) :
    RunWithout '\n' entry := by
  obtain ⟨m, hm, hentry⟩ := List.mem_filterMap.1 hentry
  obtain ⟨line, hline, heq⟩ := exists_of_mem_mapM h hm
  exact entry_run_of_meaning heq hentry (Text.lineFeed_notMem_of_mem_lines hline)

end SpdxHeaders.Attribution
