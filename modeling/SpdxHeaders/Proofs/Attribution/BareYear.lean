import SpdxHeaders.Proofs.Attribution.Decision

/-!
# Years without a holder

The rule for a year without a holder fits every line with a year behind the lead, whatever follows
it. It stands behind the rules for copyright statements, so a line means a year without a holder if
it has a year and no statement that one of those rules reads (`meaning_of_year`). A holder that is
written in another way is dropped without an error (`holder_dropped`).
-/

namespace SpdxHeaders.Attribution

/-- What a year without a holder stands behind. -/
def yearLead : Text :=
  "@copyright "

/-- What the other copyright statements of the table stand behind, at least. -/
def plainLead : Text :=
  "Copyright (c) "

/-- The line has a year of four digits behind the lead. -/
def GivesYear (line : Text) : Prop :=
  ∃ digits, IsYear digits ∧ yearLead ++ digits <:+: line

/-- The line has a copyright statement that a rule of the table reads. -/
def GivesHolder (line : Text) : Prop :=
  ∃ lead form, Rule.copyright lead form ∈ rules ∧ (Rule.copyright lead form).Fits line

/-- The rule looks for copyright statements. -/
def Rule.isCopyright : Rule → Bool
  | .copyright .. => true
  | _ => false

variable {line : Text} {rule : Rule}

/-- The rule for a year stands behind those for statements and in front of all others. -/
lemma yearOnly_mem_rules : Rule.yearOnly yearLead ∈ rules ∧ ∀ r ∈ rules,
    (r ∈ earlierRules (.yearOnly yearLead) ↔ r.isCopyright = true) ∧
      (r.isCopyright = true ∨ r = .yearOnly yearLead ∨ .yearOnly yearLead ∈ earlierRules r) := by
  decide +kernel

/-- There is one rule for a year. -/
lemma eq_yearLead_of_mem {lead : Text} (h : Rule.yearOnly lead ∈ rules) : lead = yearLead := by
  have hall : ∀ r ∈ rules, r = .yearOnly r.lead → r.lead = yearLead := by
    decide +kernel
  exact hall _ h rfl

/-- One rule for statements looks for the lead of a year, the others for a longer text. -/
lemma copyright_mem_rules : ∀ r ∈ rules, r.isCopyright = true →
    r = .copyright yearLead .angle ∨ plainLead <:+: r.lead := by
  decide +kernel

/-- One of the rules for copyrights fits a line just if the line gives a holder. -/
lemma exists_isCopyright_iff :
    (∃ r ∈ rules, r.isCopyright = true ∧ r.Fits line) ↔ GivesHolder line := by
  constructor
  · rintro ⟨r, hmem, hcopyright, hfits⟩
    cases r with
    | copyright lead form => exact ⟨lead, form, hmem, hfits⟩
    | _ => cases hcopyright
  · rintro ⟨lead, form, hmem, hfits⟩
    exact ⟨_, hmem, rfl, hfits⟩

/-- The rule for a year decides the lines with a year and without a statement. -/
lemma decides_yearOnly_iff :
    Decides line (.yearOnly yearLead) ↔ GivesYear line ∧ ¬ GivesHolder line := by
  obtain ⟨hmem, hrules⟩ := yearOnly_mem_rules
  rw [← exists_isCopyright_iff]
  constructor
  · intro h
    refine ⟨h.fits, fun ⟨r, hr, hcopyright, hfits⟩ => ?_⟩
    exact h.first r ((hrules r hr).1.2 hcopyright) hfits
  · rintro ⟨hyear, hnone⟩
    refine ⟨hmem, hyear, fun r hr hfits => hnone ?_⟩
    have hr' : r ∈ rules := (List.takeWhile_prefix _).subset hr
    exact ⟨r, hr', (hrules r hr').1.1 hr, hfits⟩

/-- A line means a year without a holder if the rule for it decides. -/
lemma meaning_eq_yearOnly_iff :
    meaning line = .ok .yearOnly ↔ Decides line (.yearOnly yearLead) := by
  rw [meaning_eq_ok_iff]
  constructor
  · rintro (⟨rule, hdecides, hsaid⟩ | ⟨-, -, -, hm⟩)
    · cases hsaid with
      | yearOnly =>
        obtain rfl := eq_yearLead_of_mem hdecides.mem
        exact hdecides
    · cases hm
  · intro h
    refine .inl ⟨_, h, ?_⟩
    obtain ⟨digits, hdigits, hinfix⟩ := h.fits
    exact .yearOnly hdigits hinfix

/-- A line with a year is decided by the rule for it or by one for statements. -/
lemma exists_decides_of_givesYear (h : GivesYear line) :
    ∃ rule m, Decides line rule ∧ rule.Says line m ∧
      (rule.isCopyright = true ∨ rule = .yearOnly yearLead) := by
  obtain ⟨hmem, hrules⟩ := yearOnly_mem_rules
  obtain ⟨rule, m, hdecides, hsaid⟩ := exists_decides fun hunfit => hunfit _ hmem h
  refine ⟨rule, m, hdecides, hsaid, ?_⟩
  rcases (hrules rule hdecides.mem).2 with hcopyright | hyear | hearlier
  · exact .inl hcopyright
  · exact .inr hyear
  · exact absurd h (hdecides.first _ hearlier)

/-- A statement has a holder. -/
lemma Begins.holder_ne_nil {lead t : Text} {form : HolderForm} {s : Statement}
    (h : Begins lead form t s) : s.holder ≠ [] := by
  obtain ⟨rest, -, hwrites⟩ := h
  generalize s.contact = contact at hwrites
  cases hwrites with
  | angle h => exact h.holder_run.ne_nil
  | paren h => exact h.holder_run.ne_nil
  | free h => exact h.ne_nil

/-- A rule for statements reads a statement with a holder. -/
lemma Rule.Says.exists_holder {m : LineMeaning} (h : rule.Says line m)
    (hcopyright : rule.isCopyright = true) : ∃ s, m = .copyright s ∧ s.holder ≠ [] := by
  cases h with
  | angle _ h => exact ⟨_, rfl, h.holder_ne_nil⟩
  | paren _ h _ => exact ⟨_, rfl, h.holder_ne_nil⟩
  | free _ h _ => exact ⟨_, rfl, h.holder_ne_nil⟩
  | _ => cases hcopyright

/-- A line with a year and a statement that a rule reads means a statement with a holder. -/
lemma exists_copyright_of_givesHolder (hyear : GivesYear line) (hholder : GivesHolder line) :
    ∃ s, s.holder ≠ [] ∧ meaning line = .ok (.copyright s) := by
  obtain ⟨rule, m, hdecides, hsaid, hcopyright | rfl⟩ := exists_decides_of_givesYear hyear
  · obtain ⟨s, rfl, hne⟩ := hsaid.exists_holder hcopyright
    exact ⟨s, hne, hdecides.meaning_eq_ok hsaid⟩
  · exact absurd hholder (decides_yearOnly_iff.1 hdecides).2

/-- What is headed by a lead begins with it. -/
lemma Heads.lead_isPrefix {lead t rest : Text} {year : Nat} (h : Heads lead t year rest) :
    lead <+: t := by
  obtain ⟨digits, comma, -, -, rfl, -⟩ := h
  exact ⟨digits ++ comma ++ " ".toList ++ rest, by simp only [List.append_assoc]⟩

section GivenBehind

/-- The only lead of the line stands behind `front`, and a year, perhaps a comma, a space and `rest`
follow it. -/
structure GivenBehind (line front digits comma rest : Text) : Prop where
  year : IsYear digits
  separator : comma = [] ∨ comma = [',']
  once : Text.OccursOnce yearLead line front (digits ++ comma ++ " ".toList ++ rest)
  plain : ¬ plainLead <:+: line

variable {front digits comma rest holder contact : Text}

/-- From its lead on, such a line is headed by the year. -/
lemma GivenBehind.heads (h : GivenBehind line front digits comma rest) :
    Heads yearLead (yearLead ++ (digits ++ comma ++ " ".toList ++ rest))
      (Nat.ofDigitChars 10 digits 0) rest :=
  ⟨digits, comma, h.year, h.separator, by simp only [List.append_assoc], rfl⟩

/-- Such a line gives the year. -/
lemma GivenBehind.givesYear (h : GivenBehind line front digits comma rest) : GivesYear line := by
  refine ⟨digits, h.year, front, comma ++ " ".toList ++ rest, ?_⟩
  rw [h.once.eq]
  simp only [List.append_assoc]

/-- The only rule for statements that can fit is the one that looks for the lead. -/
lemma GivenBehind.eq_copyright (h : GivenBehind line front digits comma rest)
    (hmem : rule ∈ rules) (hcopyright : rule.isCopyright = true) (hfits : rule.Fits line) :
    rule = .copyright yearLead .angle := by
  rcases copyright_mem_rules rule hmem hcopyright with hrule | hlead
  · exact hrule
  · exact absurd (hlead.trans hfits.lead_isInfix) h.plain

/-- A statement behind the lead is a holder and a contact that `rest` begins with. -/
lemma GivenBehind.bracketed (h : GivenBehind line front digits comma rest) {front' t : Text}
    {s : Statement} (ht : line = front' ++ t) (hbegins : Begins yearLead .angle t s) :
    s.year = Nat.ofDigitChars 10 digits 0 ∧
      ∃ contact, s.contact = some contact ∧ Bracketed " <" ">" rest s.holder contact := by
  obtain ⟨rest', hheads, hwrites⟩ := hbegins
  obtain ⟨tail, rfl⟩ := hheads.lead_isPrefix
  obtain ⟨-, rfl⟩ := h.once.eq_parts (ht.trans (List.append_assoc ..).symm)
  obtain ⟨hyear, rfl⟩ := h.heads.unique hheads
  refine ⟨hyear, ?_⟩
  generalize s.contact = contact at hwrites
  cases hwrites with
  | angle hbracketed => exact ⟨_, rfl, hbracketed⟩

/-- Behind the only lead, rules read just a holder and, in angle brackets, a contact. -/
lemma GivenBehind.givesHolder_iff (h : GivenBehind line front digits comma rest) :
    GivesHolder line ↔ ∃ holder contact, Bracketed " <" ">" rest holder contact := by
  constructor
  · rintro ⟨lead, form, hmem, hfits⟩
    cases h.eq_copyright hmem rfl hfits
    obtain ⟨front', t, ht, s, hbegins⟩ := hfits
    obtain ⟨-, contact, -, hbracketed⟩ := h.bracketed ht hbegins
    exact ⟨s.holder, contact, hbracketed⟩
  · rintro ⟨holder, contact, hbracketed⟩
    exact ⟨yearLead, .angle, by decide, front, _, h.once.eq.trans (List.append_assoc ..),
      ⟨_, holder, some contact⟩, rest, h.heads, .angle hbracketed⟩

/-- A holder and a contact behind the only lead are read. -/
lemma GivenBehind.meaning_eq_copyright (h : GivenBehind line front digits comma rest)
    (hbracketed : Bracketed " <" ">" rest holder contact) :
    meaning line = .ok (.copyright ⟨Nat.ofDigitChars 10 digits 0, holder, some contact⟩) := by
  obtain ⟨rule, m, hdecides, hsaid, hcopyright | rfl⟩ := exists_decides_of_givesYear h.givesYear
  · obtain rfl := h.eq_copyright hdecides.mem hcopyright hdecides.fits
    rw [hdecides.meaning_eq_ok hsaid]
    cases hsaid with
    | @angle lead front' t s hfirst hbegins =>
      obtain ⟨hyear, contact', hcontact, hbracketed'⟩ := h.bracketed hfirst.eq hbegins
      obtain ⟨hholder, rfl⟩ := hbracketed.unique_angle hbracketed'
      rw [← hyear, ← hholder, ← hcontact]
  · exact absurd (h.givesHolder_iff.2 ⟨holder, contact, hbracketed⟩)
      (decides_yearOnly_iff.1 hdecides).2

end GivenBehind

/-- A line with a year means this year without a holder just if no rule reads a statement in it, and
else a statement with a holder. Behind the only lead of a line, a holder with a contact in angle
brackets is such a statement, and no other text is. -/
theorem meaning_of_year (line : Text) :
    (meaning line = .ok .yearOnly ↔ GivesYear line ∧ ¬ GivesHolder line) ∧
    (GivesYear line → GivesHolder line →
      ∃ s, s.holder ≠ [] ∧ meaning line = .ok (.copyright s)) ∧
    ∀ front digits comma rest, GivenBehind line front digits comma rest →
      (∀ holder contact, Bracketed " <" ">" rest holder contact →
        meaning line
          = .ok (.copyright ⟨Nat.ofDigitChars 10 digits 0, holder, some contact⟩)) ∧
      (meaning line = .ok .yearOnly ↔
        ∀ holder contact, ¬ Bracketed " <" ">" rest holder contact) := by
  have hiff : meaning line = .ok .yearOnly ↔ GivesYear line ∧ ¬ GivesHolder line :=
    meaning_eq_yearOnly_iff.trans decides_yearOnly_iff
  refine ⟨hiff, exists_copyright_of_givesHolder, fun front digits comma rest h =>
    ⟨fun holder contact => h.meaning_eq_copyright, ?_⟩⟩
  rw [hiff, h.givesHolder_iff]
  simp only [h.givesYear, not_exists, true_and]

/-- A holder with a contact in angle brackets is read, one with a contact in parentheses is not. -/
theorem meaning_of_year_brackets :
    let read : Text := "// @copyright 2020, Jane Doe <jane.doe>"
    let bare : Text := "// @copyright 2020, Jane Doe (jane.doe)"
    GivenBehind read "// " "2020" "," "Jane Doe <jane.doe>" ∧
      (∃ s, s.holder ≠ [] ∧ meaning read = .ok (.copyright s)) ∧
      meaning read = .ok (.copyright ⟨2020, "Jane Doe", some "jane.doe"⟩) ∧
      GivenBehind bare "// " "2020" "," "Jane Doe (jane.doe)" ∧
      (∀ holder contact, ¬ Bracketed " <" ">" "Jane Doe (jane.doe)" holder contact) ∧
      meaning bare = .ok .yearOnly := by
  intro read bare
  have hyear : IsYear "2020" := ⟨by decide, List.all_eq_true.1 (by decide)⟩
  have hread : GivenBehind read "// " "2020" "," "Jane Doe <jane.doe>" :=
    ⟨hyear, .inr rfl, .of_notMem (c := '@') rfl rfl (by decide) (by decide), by decide⟩
  have hbare : GivenBehind bare "// " "2020" "," "Jane Doe (jane.doe)" :=
    ⟨hyear, .inr rfl, .of_notMem (c := '@') rfl rfl (by decide) (by decide), by decide⟩
  have hbracketed : Bracketed " <" ">" "Jane Doe <jane.doe>" "Jane Doe" "jane.doe" :=
    ⟨⟨by decide, by decide⟩, ⟨by decide, by decide⟩, List.prefix_rfl⟩
  have hnone (holder contact : Text) :
      ¬ Bracketed " <" ">" "Jane Doe (jane.doe)" holder contact := by
    intro h
    have hangle : '<' ∈ holder ++ " <".toList ++ contact ++ ">".toList := by simp
    exact absurd (h.isPrefix.subset hangle) (by decide)
  exact ⟨hread, (meaning_of_year read).2.1 hread.givesYear
      (hread.givesHolder_iff.2 ⟨_, _, hbracketed⟩),
    ((meaning_of_year read).2.2 _ _ _ _ hread).1 _ _ hbracketed, hbare, hnone,
    ((meaning_of_year bare).2.2 _ _ _ _ hbare).2.2 hnone⟩

/-- The holder behind a year is dropped without an error if there is no contact. -/
theorem holder_dropped :
    let line : Text := "@copyright 2020 Jane Doe"
    line = yearLead ++ "2020".toList ++ " ".toList ++ "Jane Doe".toList ∧ IsYear "2020" ∧
      meaning line = .ok .yearOnly ∧
      parse [] (line ++ "\n@license AGPL-3.0".toList) = .ok ⟨[], none, [], "AGPL-3.0-only"⟩ :=
  ⟨rfl, ⟨by decide, List.all_eq_true.1 (by decide)⟩, rfl, rfl⟩

end SpdxHeaders.Attribution
