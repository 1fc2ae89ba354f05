import Mathlib.Tactic.Lemma
import SpdxHeaders.Conversion.Basic
import SpdxHeaders.Proofs.Bind
import SpdxHeaders.Proofs.Collector.Rules

/-!
# What a conversion needs before it runs

A root is refused for one of three reasons (`exists_resolveRoot_error_iff`), all of which are the
fault of the command line (`exitCode_of_resolveRoot`). A conversion is prepared if its collector is
(`prepare_eq_ok_iff`), so that trees with the same rules give the same conversion
(`prepare_of_sameRules`).
-/

namespace SpdxHeaders.Conversion

/-- A path cannot be converted: it leads nowhere, or not to a directory, or the holder for the new
headers is blank though they are to be written. -/
def Unusable (t : FileTree) (p : Path) (options : ConversionOptions) : Prop :=
  (∃ fault, t.canonical p = .error fault) ∨
    (∃ root, t.canonical p = .ok root ∧ t.isDirectory root = false) ∨
    (options.dryRun = false ∧ Text.trim options.defaultHolder = [])

variable {t : FileTree} {p root : Path} {settings : Settings} {options : ConversionOptions}
  {c : Conversion}

/-- A root is refused just if it cannot be converted. -/
lemma exists_resolveRoot_error_iff :
    (∃ e, resolveRoot t p options = .error e) ↔ Unusable t p options := by
  unfold resolveRoot Unusable
  split
  case h_1 fault hroot => exact ⟨fun _ => .inl ⟨fault, hroot⟩, fun _ => ⟨_, rfl⟩⟩
  case h_2 root hroot =>
    split
    case isTrue hdir =>
      exact ⟨fun _ => .inr (.inl ⟨root, hroot, by simpa using hdir⟩), fun _ => ⟨_, rfl⟩⟩
    case isFalse hdir =>
      split
      case isTrue hblank =>
        exact ⟨fun _ => .inr (.inr (by simpa using hblank)), fun _ => ⟨_, rfl⟩⟩
      case isFalse hblank =>
        refine ⟨nofun, fun h => ?_⟩
        rcases h with ⟨fault, hfault⟩ | ⟨root', hroot', hdir'⟩ | h
        · cases hroot.symm.trans hfault
        · rw [Except.ok.inj (hroot.symm.trans hroot'), hdir'] at hdir
          exact absurd rfl hdir
        · exact absurd (by simpa using h) hblank

/-- What keeps a root from being resolved is the fault of the command line. -/
lemma exitCode_of_resolveRoot {e : ConversionError} (h : resolveRoot t p options = .error e) :
    e.exitCode = 2 := by
  unfold resolveRoot at h
  split at h
  case h_1 =>
    cases h
    rfl
  case h_2 =>
    split at h
    case isTrue =>
      cases h
      rfl
    case isFalse =>
      split at h <;> cases h
      rfl

/-- A root that is not refused is the path of a directory. -/
lemma exists_start_of_resolveRoot (h : resolveRoot t p options = .ok root) :
    ∃ start, t.locate .content root = .ok start ∧ t.get? start = some .directory := by
  have hdir : t.isDirectory root = true := by
    unfold resolveRoot at h
    split at h
    case h_1 => cases h
    case h_2 =>
      split at h
      case isTrue => cases h
      case isFalse hdir =>
        split at h <;> cases h
        simpa using hdir
  unfold FileTree.isDirectory FileTree.node? at hdir
  cases hstart : t.locate .content root with
  | error fault => simp [hstart] at hdir
  | ok start =>
    rw [hstart] at hdir
    dsimp only at hdir
    split at hdir
    case h_1 hnode => exact ⟨start, rfl, hnode⟩
    case h_2 => cases hdir

/-- A conversion is prepared just if its collector is. -/
lemma prepare_eq_ok_iff :
    (prepare t root settings options).2 = .ok c ↔
      ∃ collector, (Collector.prepare t root settings.ignoredDirs).2 = .ok collector ∧
        c = ⟨root, options, settings, collector⟩ := by
  unfold prepare
  rw [map_eq_ok_iff]
  simp only [eq_comm]

/-- The conversion with other options. -/
def withOptions (c : Conversion) (options : ConversionOptions) : Conversion :=
  { c with options := options }

/-- A conversion that is prepared has the settings and options it is prepared with, and walks its
own root. -/
lemma eq_of_prepare (h : (prepare t root settings options).2 = .ok c) :
    c.root = root ∧ c.collector.root = root ∧ c.settings = settings ∧ c.options = options := by
  obtain ⟨collector, hcollector, rfl⟩ := prepare_eq_ok_iff.1 h
  exact ⟨rfl, Collector.root_of_prepare hcollector, rfl, rfl⟩

/-- With other options the conversion is prepared with these. -/
lemma prepare_withOptions (h : (prepare t root settings options).2 = .ok c)
    (options' : ConversionOptions) :
    (prepare t root settings options').2 = .ok (c.withOptions options') := by
  obtain ⟨collector, hcollector, rfl⟩ := prepare_eq_ok_iff.1 h
  exact prepare_eq_ok_iff.2 ⟨collector, hcollector, rfl⟩

/-- Where the rules are the same, the same conversion is prepared. -/
lemma prepare_of_sameRules {t' : FileTree} (hrules : Collector.SameRules root t t')
    (h : (prepare t root settings options).2 = .ok c) :
    (prepare t' root settings options).2 = .ok c := by
  obtain ⟨collector, hcollector, hc⟩ := prepare_eq_ok_iff.1 h
  exact prepare_eq_ok_iff.2 ⟨collector, hrules.prepare _ ▸ hcollector, hc⟩

end SpdxHeaders.Conversion
