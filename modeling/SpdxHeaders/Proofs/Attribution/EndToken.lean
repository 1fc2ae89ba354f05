import SpdxHeaders.Proofs.Attribution.Conservation
import SpdxHeaders.Proofs.Attribution.Decision
import SpdxHeaders.Proofs.CommentStyle
import SpdxHeaders.Proofs.Text.Lines

/-!
# The end token in what a header says

The text of a header block ends with the end token, and the rules read its lines as they are. What
is taken up to the end of a line takes the end token with it, and brackets that are put around a
contact can make one (`Leaks`). Nothing else can: an entry for the list of authors holds the end
token just if it leaks in the line (`endToken_isInfix_entry_iff`).
-/

namespace SpdxHeaders.Attribution

open Text

/-- What a line says takes in the end token: an author or a holder without a contact if the line
ends with it, and a contact that its brackets complete to the end of a markup comment. -/
def Leaks (style : CommentStyle) (token line : Text) : LineMeaning → Prop
  | .author _ => token <:+ line
  | .copyright s =>
    match s.contact with
    | none => token <:+ line
    | some contact => style = .markup ∧ "--".toList <:+ contact
  | _ => False

instance (style : CommentStyle) (token line : Text) (m : LineMeaning) :
    Decidable (Leaks style token line m) := by
  unfold Leaks
  split
  · infer_instance
  · split <;> infer_instance
  · infer_instance

variable {style : CommentStyle} {token line front rest : Text}

/-- What stands behind a blank up to the end of a line holds the end token just if the line ends
with it. -/
lemma endToken_isInfix_rest_iff (htoken : token ∈ style.endTokens) (honly : OnlyAtEnd token line)
    (hline : line = front ++ ' ' :: rest) : token <:+: rest ↔ token <:+ line := by
  have hrest : rest <:+ line := hline ▸ (List.suffix_cons _ _).trans (List.suffix_append _ _)
  rw [(honly.of_isInfix hrest.isInfix).isInfix_iff, hline,
    isSuffix_append_cons_iff (CommentStyle.notMem_endToken htoken).1]

/-- A holder with a contact holds the end token just if the contact and its bracket complete one. -/
lemma endToken_isInfix_bracketed_iff (htoken : token ∈ style.endTokens)
    (honly : OnlyAtEnd token line) {opening closing holder contact : Text} {year : Nat}
    (h : Bracketed opening closing rest holder contact) (hclosing : closing ≠ [])
    (hrest : rest <:+: line) :
    token <:+: Statement.author ⟨year, holder, some contact⟩ ↔
      style = .markup ∧ "--".toList <:+ contact := by
  obtain ⟨hblank, hbracket⟩ := CommentStyle.notMem_endToken htoken
  -- Both stand in the line in front of something else.
  have hparts : holder ++ (opening ++ contact ++ closing) <:+: line := by
    simp only [← List.append_assoc]
    exact h.isPrefix.isInfix.trans hrest
  have hholder : ¬ token <:+: holder :=
    honly.not_isInfix (List.append_ne_nil_of_right_ne_nil _ hclosing) hparts
  have hcontact : ¬ token <:+: contact := by
    refine honly.not_isInfix hclosing (List.IsInfix.trans ?_ hparts)
    rw [← List.append_assoc, ← List.append_assoc, List.append_assoc]
    exact (List.suffix_append _ _).isInfix
  have hauthor : Statement.author ⟨year, holder, some contact⟩
      = holder ++ ' ' :: ([] ++ '<' :: (contact ++ ['>'])) := by
    simp only [Statement.author, List.append_assoc]
    rfl
  rw [hauthor, isInfix_append_cons_iff hblank, or_iff_right hholder,
    isInfix_append_cons_iff hbracket, List.infix_nil,
    or_iff_right (CommentStyle.endToken_ne_nil htoken),
    CommentStyle.endToken_isInfix_concat_iff htoken hcontact]

/-- The rule for authors. -/
lemma eq_of_author_mem {lead : Text} (h : Rule.author lead ∈ rules) : lead = "@author " := by
  simp only [rules, licenseRules, boilerplateRules, List.cons_append, List.nil_append,
    List.mem_cons, List.not_mem_nil, Rule.author.injEq, reduceCtorEq, false_or, or_false] at h
  exact h

/-- The longest run without a character is all of a text that does not hold the character. -/
lemma RunWithout.eq_of_greatest {c : Char} {run t : Text} (hrun : RunWithout c run)
    (hbegins : run <+: t) (ht : c ∉ t)
    (hgreatest : ∀ run', RunWithout c run' → run' <+: t → run'.length ≤ run.length) :
    run = t := by
  have hne : t ≠ [] := by
    rintro rfl
    exact hrun.ne_nil (List.prefix_nil.1 hbegins)
  exact hbegins.eq_of_length_le (hgreatest t ⟨hne, ht⟩ List.prefix_rfl)

/-- An author goes on to the end of the line. -/
lemma eq_of_beginsAuthor {lead t entry : Text} (hfeed : '\n' ∉ t) (h : BeginsAuthor lead t entry)
    (hgreatest : ∀ entry', BeginsAuthor lead t entry' → entry'.length ≤ entry.length) :
    t = lead ++ entry := by
  obtain ⟨hrun, hbegins⟩ := h
  obtain ⟨u, rfl⟩ := (List.prefix_append lead entry).trans hbegins
  rw [List.prefix_append_right_inj] at hbegins
  rw [hrun.eq_of_greatest hbegins (fun hmem => hfeed (List.mem_append_right _ hmem))
    fun run' hrun' hbegins' =>
      hgreatest run' ⟨hrun', (List.prefix_append_right_inj lead).2 hbegins'⟩]

/-- A holder without a contact goes on to the end of the line. -/
lemma exists_eq_of_begins_free {lead t : Text} {s : Statement} (hfeed : '\n' ∉ t)
    (h : Begins lead .free t s)
    (hgreatest : ∀ s', Begins lead .free t s' → s'.holder.length ≤ s.holder.length) :
    s.contact = none ∧ ∃ front, t = front ++ ' ' :: s.holder := by
  obtain ⟨year, holder, contact⟩ := s
  obtain ⟨rest, hhead, hholder⟩ := h
  have ⟨digits, comma, hdigits, hcomma, e, hyear⟩ := hhead
  dsimp only at hhead hholder hgreatest ⊢
  cases hholder with
  | free hrun hbegins =>
    have hrest : holder = rest := by
      refine hrun.eq_of_greatest hbegins (fun hmem => hfeed ?_) fun run' hrun' hbegins' => ?_
      · exact e ▸ List.mem_append_right _ hmem
      · exact hgreatest ⟨year, run', none⟩ ⟨rest, hhead, .free hrun' hbegins'⟩
    refine ⟨rfl, lead ++ digits ++ comma, ?_⟩
    rw [e, hrest, List.append_assoc _ " ".toList]
    rfl

/-- A statement with a contact holds the end token just if the contact and its bracket complete
one. -/
lemma Begins.endToken_isInfix_author_iff {lead t : Text} {form : HolderForm} {s : Statement}
    (h : Begins lead form t s) (hform : form ≠ .free) (ht : t <:+ line)
    (htoken : token ∈ style.endTokens) (honly : OnlyAtEnd token line) :
    token <:+: s.author ↔ Leaks style token line (.copyright s) := by
  obtain ⟨year, holder, contact⟩ := s
  obtain ⟨rest, ⟨digits, comma, -, -, rfl, -⟩, hholder⟩ := h
  have hrest : rest <:+: line := ((List.suffix_append _ _).trans ht).isInfix
  dsimp only at hholder
  cases hholder with
  | angle hb => exact endToken_isInfix_bracketed_iff htoken honly hb (List.cons_ne_nil _ _) hrest
  | paren hb => exact endToken_isInfix_bracketed_iff htoken honly hb (List.cons_ne_nil _ _) hrest
  | free => exact absurd rfl hform

/-- What a rule reads in a line holds the end token just if it leaks. -/
lemma Rule.Says.endToken_isInfix_iff {rule : Rule} {m : LineMeaning} {entry : Text}
    (h : rule.Says line m) (hrule : rule ∈ rules) (hentry : m.entry? = some entry)
    (htoken : token ∈ style.endTokens) (honly : OnlyAtEnd token line) (hfeed : '\n' ∉ line) :
    token <:+: entry ↔ Leaks style token line m := by
  cases h with
  | angle hfirst h =>
    cases hentry
    exact h.endToken_isInfix_author_iff nofun (hfirst.eq ▸ List.suffix_append _ _) htoken honly
  | paren hfirst h =>
    cases hentry
    exact h.endToken_isInfix_author_iff nofun (hfirst.eq ▸ List.suffix_append _ _) htoken honly
  | @free lead front t s hfirst h hgreatest =>
    cases hentry
    obtain ⟨hcontact, front', e⟩ := exists_eq_of_begins_free
      (fun hmem => hfeed (hfirst.eq ▸ List.mem_append_right _ hmem)) h hgreatest
    have hline : line = (front ++ front') ++ ' ' :: s.holder := by
      rw [hfirst.eq, e, List.append_assoc]
    simp only [Statement.author, Leaks, hcontact]
    exact endToken_isInfix_rest_iff htoken honly hline
  | @author lead front t entry hfirst h hgreatest =>
    cases hentry
    have e := eq_of_beginsAuthor
      (fun hmem => hfeed (hfirst.eq ▸ List.mem_append_right _ hmem)) h hgreatest
    have hline : line = (front ++ "@author".toList) ++ ' ' :: entry := by
      rw [hfirst.eq, e, eq_of_author_mem hrule, List.append_assoc]
      rfl
    exact endToken_isInfix_rest_iff htoken honly hline
  | _ => cases hentry

/-- The entry of a line for the list of authors holds the end token just if it leaks. -/
lemma endToken_isInfix_entry_iff {m : LineMeaning} {entry : Text} (h : meaning line = .ok m)
    (hentry : m.entry? = some entry) (htoken : token ∈ style.endTokens)
    (honly : OnlyAtEnd token line) (hfeed : '\n' ∉ line) :
    token <:+: entry ↔ Leaks style token line m := by
  obtain ⟨rule, hdecides, hsaid⟩ | ⟨-, -, -, rfl⟩ := meaning_eq_ok_iff.1 h
  · exact hsaid.endToken_isInfix_iff hdecides.mem hentry htoken honly hfeed
  · cases hentry

/-- A copyright line holds the end token just if what stands behind its year does. -/
lemma endToken_isInfix_dated_iff (htoken : token ∈ style.endTokens) {year : Nat} {t : Text} :
    token <:+: copyrightLabel ++ Text.ofNat year ++ " ".toList ++ t ↔ token <:+: t := by
  have hlabel : Clear token copyrightLabel := by
    cases style <;> revert token <;> decide
  have hyear : ¬ token <:+: Text.ofNat year := by
    intro hin
    obtain ⟨c, hc, hnot⟩ := CommentStyle.exists_not_isDigit htoken
    have hdigit := Nat.isDigit_of_mem_toDigits (by decide) (by decide) (hin.subset hc)
    cases hnot.symm.trans hdigit
  have heq : copyrightLabel ++ Text.ofNat year ++ " ".toList ++ t
      = copyrightLabel ++ (Text.ofNat year ++ ' ' :: t) := by
    simp only [List.append_assoc]
    rfl
  rw [heq, hlabel.isInfix_iff, isInfix_append_cons_iff (CommentStyle.notMem_endToken htoken).1,
    or_iff_right hyear]

/-- The identifiers of the licenses that the rules know. -/
def identifiers : List Text :=
  ["AGPL-3.0-or-later", "AGPL-3.0-only", "GPL-3.0-or-later"]

/-- The identifier of a license rule is one of these. -/
lemma mem_identifiers_of_mem {needle identifier : Text}
    (h : Rule.license needle identifier ∈ rules) : identifier ∈ identifiers := by
  simp only [rules, licenseRules, boilerplateRules, List.cons_append, List.nil_append,
    List.mem_cons, List.not_mem_nil, Rule.license.injEq, reduceCtorEq, false_or, or_false] at h
  rcases h with ⟨-, rfl⟩ | ⟨-, rfl⟩ | ⟨-, rfl⟩ | ⟨-, rfl⟩ | ⟨-, rfl⟩ | ⟨-, rfl⟩ <;> decide

/-- The license line of a rule holds no end token. -/
lemma not_endToken_isInfix_licenseLine (htoken : token ∈ style.endTokens)
    {needle identifier : Text} (hrule : Rule.license needle identifier ∈ rules) :
    ¬ token <:+: licenseLabel ++ identifier := by
  have hlabel : Clear token licenseLabel := by
    cases style <;> revert token <;> decide
  have hidentifier : ∀ identifier ∈ identifiers, ¬ token <:+: identifier := by
    clear hlabel
    cases style <;> revert token <;> decide
  rw [hlabel.isInfix_iff]
  exact hidentifier identifier (mem_identifiers_of_mem hrule)

end SpdxHeaders.Attribution
