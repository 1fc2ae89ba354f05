import Mathlib.Data.List.TakeWhile
import Mathlib.Tactic.Lemma
import SpdxHeaders.Manifest
import SpdxHeaders.Proofs.Bind

/-!
# The paths that a manifest excludes

A manifest excludes what one of its entries excludes (`excludes_iff`), so that with more entries it
excludes more (`excludes_mono`).
-/

namespace SpdxHeaders.Manifest

variable {entries entries' : List Text} {m m' : Manifest} {p : Path}

/-- An entry of a manifest excludes a path. -/
def Excludes (entry : Text) (p : Path) : Prop :=
  ∃ m, ofEntry (fromRoot entry) = .ok m ∧ m.excludes p = true

/-- A manifest made of parts excludes what one of them excludes. -/
lemma excludes_flatMap (parts : List Manifest) :
    excludes ⟨parts.flatMap globs, parts.flatMap paths⟩ p = true ↔
      ∃ m ∈ parts, m.excludes p = true := by
  unfold excludes
  simp only [List.any_flatMap, Bool.or_eq_true, List.any_eq_true, ← exists_or, ← and_or_left]

/-- A manifest excludes what one of its entries excludes. -/
lemma excludes_iff (h : ofEntries entries = .ok m) :
    m.excludes p = true ↔ ∃ entry ∈ entries, Excludes entry p := by
  obtain ⟨parts, hparts, hm⟩ := bind_eq_ok_iff.1 h
  cases hm
  rw [excludes_flatMap]
  constructor
  · rintro ⟨part, hpart, hp⟩
    obtain ⟨entry, hentry, hof⟩ := exists_of_mem_mapM hparts hpart
    exact ⟨entry, hentry, part, hof, hp⟩
  · rintro ⟨entry, hentry, part, hof, hp⟩
    obtain ⟨part', hpart, hof'⟩ := exists_of_mapM hparts hentry
    cases hof.symm.trans hof'
    exact ⟨part, hpart, hp⟩

/-- An entry that spells the root, by `./` and slashes, excludes everything. -/
lemma excludes_of_root {entry : Text} (h : ofEntries entries = .ok m) (hentry : entry ∈ entries)
    (hroot : ∀ c ∈ fromRoot entry, c = '/') (p : Path) : m.excludes p = true := by
  refine (excludes_iff h).2 ⟨entry, hentry, { paths := [[]] }, ?_, rfl⟩
  have hstar : '*' ∉ fromRoot entry := fun hmem => absurd (hroot _ hmem) (by decide)
  have hslashes : Text.dropEndWhile (· = '/') (fromRoot entry) = [] := by
    rw [Text.dropEndWhile, List.dropWhile_eq_nil_iff.2 (by simpa using hroot), List.reverse_nil]
  unfold ofEntry
  rw [if_neg (by simpa using hstar), hslashes]

/-- With more entries, more is excluded. -/
lemma excludes_mono (h : ofEntries entries = .ok m) (h' : ofEntries entries' = .ok m')
    (hentries : entries ⊆ entries') (hp : m.excludes p = true) : m'.excludes p = true := by
  obtain ⟨entry, hentry, hexcludes⟩ := (excludes_iff h).1 hp
  exact (excludes_iff h').2 ⟨entry, hentries hentry, hexcludes⟩

end SpdxHeaders.Manifest
