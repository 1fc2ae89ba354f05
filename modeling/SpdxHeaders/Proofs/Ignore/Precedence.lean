import Mathlib.Tactic.Lemma
import SpdxHeaders.Ignore.Layer

/-!
# Which rule decides

What a line says counts more than what the lines above it say (`lastVerdict?_ofLines_cons`), and the
`.ignore` file of the deepest directory counts more than all other ignore files (`skips_enter`).
Without rules only hidden entries are skipped (`skips_of_no_rules`).
-/

namespace SpdxHeaders

open IgnoreRule (Verdict lastVerdict?)

/-- A rule in front of others decides only if none of them does. -/
lemma IgnoreRule.lastVerdict?_cons (rule : IgnoreRule) (rules : List IgnoreRule) (p : Text)
    (isDirectory : Bool) :
    lastVerdict? (rule :: rules) p isDirectory
      = (lastVerdict? rules p isDirectory).or (rule.verdict? p isDirectory) := by
  simp [lastVerdict?, List.findSome?_append]

namespace IgnoreFile

variable {number : Nat} {lines : List (List UInt8)} {p : Text} {isDirectory : Bool} {v : Verdict}

/-- What is reported about an ignore file does not matter to its rules. -/
lemma rules_ofBytes (bytes : ByteArray) :
    (ofBytes bytes).rules = (ofLines 1 (byteLines bytes.toList)).rules := by
  unfold ofBytes
  dsimp only
  split <;> rfl

/-- What the lines below a line of text decide does not depend on it. -/
lemma lastVerdict?_ofLines_cons (line : Text)
    (h : lastVerdict? (ofLines (number + 1) lines).rules p isDirectory = some v) :
    lastVerdict? (ofLines number (line.toUtf8.data.toList :: lines)).rules p isDirectory
      = some v := by
  unfold ofLines
  rw [Array.toArray_toList, Text.ofUtf8?_toUtf8]
  dsimp only
  split
  · exact h
  · rw [IgnoreRule.lastVerdict?_cons, h, Option.some_or]
  · exact h

end IgnoreFile

/-- What the `.ignore` file of the deepest directory decides is decided. -/
lemma IgnoreRules.skips_enter {rules : IgnoreRules} {t : FileTree} {dir : Location}
    {names : List Text} {isDirectory : Bool} {v : Verdict}
    (h : lastVerdict? (IgnoreFile.read t dir IgnoreLayer.ignoreParts).rules (Path.ofNames names)
      isDirectory = some v) (p : Path) :
    (rules.enter t dir).skips (dir ++ names) p isDirectory = decide (v = .ignored) := by
  have hverdict : (rules.enter t dir).verdict? (dir ++ names) p isDirectory = some v := by
    unfold IgnoreRules.verdict? IgnoreLayer.verdict? IgnoreRules.enter IgnoreLayer.read
    rw [List.findSome?_cons]
    dsimp only
    rw [List.drop_left, h]
    rfl
  unfold IgnoreRules.skips
  rw [hverdict]
  cases v <;> rfl

/-- Without rules only hidden entries are skipped. -/
lemma IgnoreRules.skips_of_no_rules {rules : IgnoreRules} (hown : rules.own = {})
    (hlayers : ∀ layer ∈ rules.layers, layer = ⟨layer.base, {}, {}, {}⟩) (l : Location) (p : Path)
    (isDirectory : Bool) :
    rules.skips l p isDirectory = (l.getLast?.map isHidden).getD false := by
  have hnone {kind : IgnoreLayer → IgnoreFile} (hkind : ∀ base, kind ⟨base, {}, {}, {}⟩ = {}) :
      IgnoreLayer.verdict? kind rules.layers l isDirectory = none := by
    apply List.findSome?_eq_none_iff.2
    intro layer hlayer
    rw [hlayers layer hlayer, hkind]
    rfl
  unfold IgnoreRules.skips IgnoreRules.verdict?
  rw [hnone fun _ => rfl, hnone fun _ => rfl, hnone fun _ => rfl, hown]
  rfl

end SpdxHeaders
