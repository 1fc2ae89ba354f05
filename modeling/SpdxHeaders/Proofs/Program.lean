import SpdxHeaders.Program
import SpdxHeaders.Proofs.Conversion.DryRun
import SpdxHeaders.Proofs.Conversion.Preparation

/-!
# How the program ends

An invocation goes through its stages until one of them fails (`Ended`). The exit status tells
whether one failed, and whether it was the fault of the command line (`exitCode_run`). Before the
conversion runs nothing is written, and a dry run writes its summary only (`tree_of_dryRun`).
-/

namespace SpdxHeaders

namespace Conversion

variable {c : Conversion} {t : FileTree} {s : Progress}

/-- An error at which a conversion stops is not the fault of the command line. -/
lemma exitCode_of_failure? {names : List Text} {e : ConversionError}
    (h : c.failure? t names = some e) : e.exitCode = 1 := by
  obtain ⟨style, cause, -, hrewriting, rfl⟩ := failure?_eq_some_iff.1 h
  exact (raisedByFile_of_rewritingOf hrewriting).exitCode _

/-- A conversion that stops at what it meets does not blame the command line. -/
lemma exitCode_of_step (h : ∀ e, s.failure = some e → e.exitCode = 1) (event : WalkEvent) :
    ∀ e, (c.step s event).failure = some e → e.exitCode = 1 := by
  intro e he
  cases hfailure : s.failure with
  | some e' =>
    rw [step_of_failure (by simp [hfailure])] at he
    exact h e he
  | none =>
    cases event with
    | excluded names =>
      simp [step, hfailure, Progress.tell] at he
    | unreadable description =>
      simp [step, hfailure, Progress.tell] at he
    | file names =>
      rw [step_file hfailure] at he
      have hverdict := c.takeFile_verdict (s.tell []) names
      cases hv : c.verdict (s.tell []).tree names with
      | ok r =>
        rw [hv] at hverdict
        rw [hverdict.2, show (s.tell []).failure = s.failure from rfl, hfailure] at he
        cases he
      | error e' =>
        rw [hv] at hverdict
        rw [hverdict.2] at he
        have hfail : c.failure? (s.tell []).tree names = some e := by
          unfold failure?
          rw [hv]
          exact he
        exact exitCode_of_failure? hfail

/-- A run that stops does not blame the command line. -/
lemma exitCode_of_run {e : ConversionError} (h : (c.run t).outcome = .error e) :
    e.exitCode = 1 := by
  have hfold (es : List WalkEvent) (s : Progress)
      (hs : ∀ e, s.failure = some e → e.exitCode = 1) :
      ∀ e, (es.foldl c.step s).failure = some e → e.exitCode = 1 := by
    induction es generalizing s with
    | nil => exact hs
    | cons event es ih => exact ih _ (exitCode_of_step hs event)
  have hfiles : ∀ e, (c.convertFiles t).failure = some e → e.exitCode = 1 := by
    rw [convertFiles_eq]
    exact hfold _ _ nofun
  cases hfailure : (c.convertFiles t).failure with
  | some e' =>
    rw [(run_of_failure hfailure).1] at h
    cases h
    exact hfiles _ hfailure
  | none =>
    cases hdry : c.options.dryRun with
    | true =>
      rw [run_of_dry hfailure hdry] at h
      cases h
    | false =>
      have hwriting := run_of_writing hfailure hdry
      split at hwriting
      case h_1 =>
        rw [hwriting.1] at h
        cases h
      case h_2 fault _ =>
        rw [hwriting.1] at h
        cases h
        rfl

end Conversion

namespace Invocation

/-- The stages of an invocation in front of the run go well: its settings are found, its root is
resolved, and the conversion of this root is prepared. -/
structure Prepares (i : Invocation) (t : FileTree) (settings : Settings) (c : Conversion) :
    Prop where
  loaded : (Settings.load t i.settings).2 = .ok settings
  resolved : Conversion.resolveRoot t i.path (i.optionsWith settings) = .ok c.root
  prepared : (Conversion.prepare t c.root (i.settingsWith settings)
    (i.optionsWith settings)).2 = .ok c

/-- How an invocation ends: the tree that it leaves, and the stage that ended it before its end. -/
inductive Ended (i : Invocation) (time : Timestamp) (t : FileTree) :
    FileTree → Option Failure → Prop where
  | settings (fault : Settings.Fault) (h : (Settings.load t i.settings).2 = .error fault) :
    Ended i time t t (some (.settings fault))
  | root (settings : Settings) (e : ConversionError)
    (hsettings : (Settings.load t i.settings).2 = .ok settings)
    (h : Conversion.resolveRoot t i.path (i.optionsWith settings) = .error e) :
    Ended i time t t (some (.root e))
  | preparation (settings : Settings) (root : Path) (fault : Collector.Fault)
    (hsettings : (Settings.load t i.settings).2 = .ok settings)
    (hroot : Conversion.resolveRoot t i.path (i.optionsWith settings) = .ok root)
    (h : (Conversion.prepare t root (i.settingsWith settings) (i.optionsWith settings)).2
      = .error fault) : Ended i time t t (some (.preparation fault))
  | conversion (settings : Settings) (c : Conversion) (e : ConversionError)
    (hprepares : i.Prepares t settings c) (h : (c.run t).outcome = .error e) :
    Ended i time t (c.run t).tree (some (.conversion e))
  | summary (settings : Settings) (c : Conversion) (report : Report) (fault : Report.SummaryFault)
    (hprepares : i.Prepares t settings c) (hreport : (c.run t).outcome = .ok report)
    (h : report.summarize time i.format i.output (c.run t).tree = .error fault) :
    Ended i time t (c.run t).tree (some (.summary fault))
  | success (settings : Settings) (c : Conversion) (report : Report) (text : Text) (t' : FileTree)
    (hprepares : i.Prepares t settings c) (hreport : (c.run t).outcome = .ok report)
    (h : report.summarize time i.format i.output (c.run t).tree = .ok (text, t')) :
    Ended i time t t' none

variable {i : Invocation} {t : FileTree} {settings : Settings} {c : Conversion}

/-- An invocation whose conversion is prepared goes on with the run and the summary. -/
lemma ended_convert (hprepares : i.Prepares t settings c) (colored : Bool) (time : Timestamp)
    (shown : Settings) :
    Ended i time t (convert i colored time shown c t).tree
      (convert i colored time shown c t).failure := by
  unfold convert
  dsimp only
  split
  case h_1 report hreport =>
    unfold finish
    dsimp only
    split
    case h_1 text t' h => exact .success settings c report text t' hprepares hreport h
    case h_2 fault h => exact .summary settings c report fault hprepares hreport h
  case h_2 e he => exact .conversion settings c e hprepares he

/-- An invocation ends in one of these ways. -/
lemma ended_run (i : Invocation) (colored : Bool) (time : Timestamp) (t : FileTree) :
    Ended i time t (i.run colored time t).tree (i.run colored time t).failure := by
  unfold run
  dsimp only [Execution.after]
  split
  case h_1 fault h => exact .settings fault h
  case h_2 settings hsettings =>
    split
    case h_1 e h => exact .root settings e hsettings h
    case h_2 root hroot =>
      split
      case h_1 fault h => exact .preparation settings root fault hsettings hroot h
      case h_2 c h =>
        have hc : c.root = root := by
          obtain ⟨-, -, rfl⟩ := Conversion.prepare_eq_ok_iff.1 h
          rfl
        subst hc
        exact ended_convert ⟨hsettings, hroot, h⟩ colored time _

/-- A conversion that is prepared is a dry run just if its invocation is. -/
lemma Prepares.dryRun (h : i.Prepares t settings c) : c.options.dryRun = i.dryRun := by
  obtain ⟨_, -, hc⟩ := Conversion.prepare_eq_ok_iff.1 h.prepared
  rw [hc]
  rfl

/-- An invocation prepares one conversion only. -/
lemma Prepares.unique {settings' : Settings} {c' : Conversion} (h : i.Prepares t settings c)
    (h' : i.Prepares t settings' c') : c = c' := by
  have hsettings := Except.ok.inj (h.loaded.symm.trans h'.loaded)
  subst hsettings
  have hroot := Except.ok.inj (h.resolved.symm.trans h'.resolved)
  have hprepared := h'.prepared
  rw [← hroot, h.prepared] at hprepared
  exact Except.ok.inj hprepared

variable {time : Timestamp} {t' : FileTree} {failure : Option Failure}

/-- The exit status that an end stands for. -/
lemma Ended.exitCode_eq (h : Ended i time t t' failure) :
    (failure.map Failure.exitCode).getD 0
      = match failure with
        | none => 0
        | some (.root _) => 2
        | some _ => 1 := by
  cases h with
  | settings => rfl
  | root settings e _ he => exact Conversion.exitCode_of_resolveRoot he
  | preparation => rfl
  | conversion settings c e _ he => exact Conversion.exitCode_of_run he
  | summary => rfl
  | success => rfl

/-- Nothing ends an invocation before its end just if all stages go well. -/
lemma Ended.failure_eq_none_iff (h : Ended i time t t' failure) :
    failure = none ↔ ∃ settings c report summary, i.Prepares t settings c ∧
      (c.run t).outcome = .ok report ∧
      report.summarize time i.format i.output (c.run t).tree = .ok summary := by
  constructor
  · rintro rfl
    cases h with
    | success settings c report text t' hprepares hreport h =>
      exact ⟨settings, c, report, (text, t'), hprepares, hreport, h⟩
  · rintro ⟨settings, c, report, summary, ⟨hloaded, hresolved, hprepared⟩, hreport, hsummary⟩
    -- Each stage has a single result, so a failure of one contradicts its success.
    cases h with
    | settings fault h => cases hloaded.symm.trans h
    | root settings' e hsettings h =>
      rw [← Except.ok.inj (hloaded.symm.trans hsettings)] at h
      cases hresolved.symm.trans h
    | preparation settings' root fault hsettings hroot h =>
      rw [← Except.ok.inj (hloaded.symm.trans hsettings)] at hroot h
      rw [← Except.ok.inj (hresolved.symm.trans hroot)] at h
      cases hprepared.symm.trans h
    | conversion settings' c' e hprepares h =>
      rw [hprepares.unique ⟨hloaded, hresolved, hprepared⟩] at h
      cases hreport.symm.trans h
    | summary settings' c' report' fault hprepares hreport' h =>
      rw [hprepares.unique ⟨hloaded, hresolved, hprepared⟩] at hreport' h
      rw [← Except.ok.inj (hreport.symm.trans hreport')] at h
      cases hsummary.symm.trans h
    | success => rfl

/-- The root ends an invocation just if the settings are found and the root is refused. -/
lemma Ended.failure_eq_root_iff (h : Ended i time t t' failure) :
    (∃ e, failure = some (.root e)) ↔ ∃ settings, (Settings.load t i.settings).2 = .ok settings ∧
      Conversion.Unusable t i.path (i.optionsWith settings) := by
  simp only [← Conversion.exists_resolveRoot_error_iff]
  constructor
  · rintro ⟨e, rfl⟩
    cases h with
    | root settings e hsettings h => exact ⟨settings, hsettings, e, h⟩
  · rintro ⟨settings, hloaded, e, he⟩
    have hnot {settings' : Settings} {c : Conversion} : ¬ i.Prepares t settings' c := by
      intro hprepares
      have hresolved := hprepares.resolved
      rw [← Except.ok.inj (hloaded.symm.trans hprepares.loaded)] at hresolved
      cases he.symm.trans hresolved
    cases h with
    | settings fault h => cases hloaded.symm.trans h
    | root settings' e' => exact ⟨e', rfl⟩
    | preparation settings' root fault hsettings hroot =>
      rw [← Except.ok.inj (hloaded.symm.trans hsettings)] at hroot
      cases he.symm.trans hroot
    | conversion settings' c' e' hprepares => exact absurd hprepares hnot
    | summary settings' c' report fault hprepares => exact absurd hprepares hnot
    | success settings' c' report text t' hprepares => exact absurd hprepares hnot

/-- An invocation that does not get to its run leaves the tree as it is. -/
lemma Ended.tree_eq (h : Ended i time t t' failure)
    (hnone : ∀ settings c, ¬ i.Prepares t settings c) : t' = t := by
  cases h with
  | settings => rfl
  | root => rfl
  | preparation => rfl
  | conversion settings c e hprepares => exact absurd hprepares (hnone _ _)
  | summary settings c report fault hprepares => exact absurd hprepares (hnone _ _)
  | success settings c report text t' hprepares => exact absurd hprepares (hnone _ _)

end Invocation

namespace Program

open Invocation

variable {args : List Text} {i : Invocation}

/-- The program ends as the invocation does that its arguments ask for. -/
lemma ended_run (hargs : Invocation.ofArguments args = .ok i) (env : Environment) (t : FileTree) :
    ∃ failure, Ended i env.time t (run env args t).tree failure ∧
      (run env args t).exitCode = (failure.map Failure.exitCode).getD 0 := by
  refine ⟨(i.run env.colored env.time t).failure, ?_⟩
  unfold run execute Execution.exitCode
  rw [hargs]
  exact ⟨Invocation.ended_run i env.colored env.time t, rfl⟩

/-- The exit status of a command line that asks for a conversion. It is 0 just if all stages go
well. It is 2 just if the settings are found but the root is refused, for one of three reasons. In
all other cases it is 1. If the stages in front of the run do not all go well, nothing is
written. -/
theorem exitCode_run (hargs : Invocation.ofArguments args = .ok i) (env : Environment)
    (t : FileTree) :
    ((run env args t).exitCode = 0 ↔ ∃ settings c report summary, i.Prepares t settings c ∧
      (c.run t).outcome = .ok report ∧
      report.summarize env.time i.format i.output (c.run t).tree = .ok summary) ∧
    ((run env args t).exitCode = 2 ↔ ∃ settings, (Settings.load t i.settings).2 = .ok settings ∧
      Conversion.Unusable t i.path (i.optionsWith settings)) ∧
    (∀ options, (∃ e, Conversion.resolveRoot t i.path options = .error e) ↔
      Conversion.Unusable t i.path options) ∧
    ((run env args t).exitCode ≠ 0 → (run env args t).exitCode ≠ 2 →
      (run env args t).exitCode = 1) ∧
    ((∀ settings c, ¬ i.Prepares t settings c) → (run env args t).tree = t) := by
  obtain ⟨failure, hended, hcode⟩ := ended_run hargs env t
  rw [hcode, hended.exitCode_eq]
  refine ⟨.trans ?_ hended.failure_eq_none_iff, .trans ?_ hended.failure_eq_root_iff,
    fun options => Conversion.exists_resolveRoot_error_iff, ?_, hended.tree_eq⟩
  · rcases failure with - | (_ | _ | _ | _ | _) <;> simp
  · rcases failure with - | (_ | _ | _ | _ | _) <;> simp
  · rcases failure with - | (_ | _ | _ | _ | _) <;> simp

/-- A root that is not there is the fault of the command line. -/
theorem exitCode_run_missing_root :
    let args : List Text := ["convert", "Acme Inc.", "/missing"]
    Invocation.ofArguments args = .ok { defaultHolder := "Acme Inc.", path := "/missing" } ∧
      (run { time := .ofSeconds 0 0 } args {}).exitCode = 2 ∧
      (run { time := .ofSeconds 0 0 } args {}).tree = {} := by
  intro args
  have hargs : Invocation.ofArguments args
      = .ok { defaultHolder := "Acme Inc.", path := "/missing" } := by rfl
  obtain ⟨-, hrefused, hunusable, -, htree⟩ := exitCode_run hargs { time := .ofSeconds 0 0 } {}
  have hroot : FileTree.canonical {} "/missing" = .error .notFound := by cbv
  have hnone (options : ConversionOptions) : Conversion.Unusable {} "/missing" options :=
    .inl ⟨_, hroot⟩
  refine ⟨hargs, hrefused.2 ⟨{}, by cbv, hnone _⟩, htree fun settings c hprepares => ?_⟩
  obtain ⟨e, he⟩ := (hunusable _).2 (hnone _)
  cases he.symm.trans hprepares.resolved

/-- A dry run writes nothing but its summary, to the file that is named for it, and this only if the
run goes well. -/
theorem tree_of_dryRun (hargs : Invocation.ofArguments args = .ok i) (hdry : i.dryRun = true)
    (env : Environment) (t : FileTree) :
    (run env args t).tree = t ∨
      ∃ p settings c report l, i.output = some p ∧ i.Prepares t settings c ∧
        (c.run t).outcome = .ok report ∧ t.locate .creation p = .ok l ∧
        (run env args t).tree
          = t.insert l (.file (report.render env.time i.format).toUtf8) := by
  have htree {settings : Settings} {c : Conversion} (hprepares : i.Prepares t settings c) :
      (c.run t).tree = t :=
    Conversion.run_tree_of_dryRun (hprepares.dryRun.trans hdry)
  obtain ⟨failure, hended, -⟩ := ended_run hargs env t
  generalize (run env args t).tree = t' at hended ⊢
  cases hended with
  | settings => exact .inl rfl
  | root => exact .inl rfl
  | preparation => exact .inl rfl
  | conversion settings c e hprepares => exact .inl (htree hprepares)
  | summary settings c report fault hprepares => exact .inl (htree hprepares)
  | success settings c report text t' hprepares hreport h =>
    rw [htree hprepares] at h
    unfold Report.summarize at h
    rw [if_neg fun hgarbled => by rw [if_pos hgarbled] at h; cases h] at h
    dsimp only at h
    cases hout : i.output with
    | none =>
      rw [hout] at h
      cases h
      exact .inl rfl
    | some p =>
      rw [hout] at h
      dsimp only at h
      split at h
      case h_1 t'' hwrite =>
        cases h
        obtain ⟨l, hl, rfl⟩ := FileTree.exists_of_write hwrite
        exact .inr ⟨p, settings, c, report, l, rfl, hprepares, hreport, hl, rfl⟩
      case h_2 => cases h

/-- A dry run without a file for its summary writes nothing. -/
theorem tree_of_dryRun_printed :
    let args : List Text := ["convert", "Acme Inc.", "/", "--dry-run"]
    let t : FileTree := { nodes := [(["a.h"], .file (Text.toUtf8 "/* @license AGPL-3.0 */"))] }
    let i : Invocation := { defaultHolder := "Acme Inc.", path := "/", dryRun := true }
    Invocation.ofArguments args = .ok i ∧ i.dryRun = true ∧ i.output = none ∧
      (run { time := .ofSeconds 0 0 } args t).tree = t := by
  intro args t i
  have hargs : Invocation.ofArguments args = .ok i := by rfl
  refine ⟨hargs, rfl, rfl, ?_⟩
  rcases tree_of_dryRun hargs rfl { time := .ofSeconds 0 0 } t with h | ⟨p, _, _, _, _, hp, _⟩
  · exact h
  · cases hp

end Program

end SpdxHeaders
