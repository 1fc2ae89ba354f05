import SpdxHeaders.Proofs.Attribution.Rules

/-!
# The grammar of header lines

What the rules for header lines fit and what they read, said by a grammar instead of a search. A
rule fits a line if its text occurs there (`Rule.Fits`), and reads what stands at the earliest place
(`Rule.Says`). The search of a rule finds just that (`Rule.meaning?_eq_some_iff`), so a line says
what the first rule of the table says that fits it (`meaning_eq`).
-/

namespace SpdxHeaders

/-- A lead can be taken off a text that begins with it. -/
lemma Text.isSome_after?_iff {lead t : Text} : (Text.after? lead t).isSome ↔ lead <+: t := by
  rw [Option.isSome_iff_exists]
  simp only [Text.after?_eq_some_iff, List.IsPrefix, eq_comm (a := t)]

/-- What stands in front of the first of a character and behind it is determined. -/
lemma Text.append_cons_inj {c : Char} {s s' t t' : Text} (h : c ∉ s) (h' : c ∉ s')
    (e : s ++ c :: t = s' ++ c :: t') : s = s' ∧ t = t' := by
  rcases List.append_eq_append_iff.1 e with ⟨u, rfl, hu⟩ | ⟨u, rfl, hu⟩
  · cases u with
    | nil => exact ⟨(List.append_nil s).symm, (List.cons.inj hu).2⟩
    | cons d u =>
      obtain ⟨rfl, -⟩ := List.cons.inj hu
      exact absurd (List.mem_append_right s List.mem_cons_self) h'
  · cases u with
    | nil => exact ⟨List.append_nil s', (List.cons.inj hu).2.symm⟩
    | cons d u =>
      obtain ⟨rfl, -⟩ := List.cons.inj hu
      exact absurd (List.mem_append_right s' List.mem_cons_self) h

namespace Attribution

/-- A text that is not empty and does not hold the character. -/
structure RunWithout (c : Char) (t : Text) : Prop where
  ne_nil : t ≠ []
  notMem : c ∉ t

section Holder

/-- The text begins with a holder and, in the brackets behind it, a contact. -/
structure Bracketed (opening closing t holder contact : Text) : Prop where
  holder_run : RunWithout '<' holder
  contact_run : RunWithout '>' contact
  isPrefix : holder ++ opening ++ contact ++ closing <+: t

/-- The text begins with a holder in the form. -/
inductive HolderForm.Writes (t : Text) : HolderForm → Text → Option Text → Prop where
  | angle {holder contact} :
    Bracketed " <" ">" t holder contact →
    Writes t .angle holder (some contact)
  | paren {holder contact} :
    Bracketed " (" ")" t holder contact →
    Writes t .paren holder (some contact)
  | free {holder} :
    RunWithout '\n' holder →
    holder <+: t →
    Writes t .free holder none

/-- A holder is longer than another, or equally long and with a contact that is not shorter. -/
def NotShorter (holder : Text) (contact : Option Text) (holder' : Text) (contact' : Option Text) :
    Prop :=
  holder'.length < holder.length ∨
    holder'.length = holder.length ∧ (contact'.getD []).length ≤ (contact.getD []).length

/-- The text begins with the holder in the form, and with none that is preferred to it: the longest
holder counts first, then the longest contact. -/
structure HolderForm.Prefers (form : HolderForm) (t holder : Text) (contact : Option Text) :
    Prop where
  writes : form.Writes t holder contact
  greatest : ∀ holder' contact', form.Writes t holder' contact' →
    NotShorter holder contact holder' contact'

variable {opening closing t holder contact : Text}

/-- A run without a character is one of other characters. -/
lemma runBefore_iff {α : Type} {c : Char} {next : Text → Option α} {run rest : Text} :
    RunBefore (· != c) next t run rest ↔ RunWithout c run ∧ t = run ++ rest ∧ (next rest).isSome := by
  have hall : (∀ d ∈ run, (d != c) = true) ↔ c ∉ run := by
    simp only [bne_iff_ne]
    exact ⟨fun h hc => h c hc rfl, fun h d hd e => h (e ▸ hd)⟩
  constructor
  · rintro ⟨e, hne, h, hnext⟩
    exact ⟨⟨hne, hall.1 h⟩, e, hnext⟩
  · rintro ⟨⟨hne, h⟩, e, hnext⟩
    exact ⟨e, hne, hall.2 h, hnext⟩

/-- The contact in brackets that a text begins with, and what follows it. -/
def readContact (opening closing : Text) (u : Text) : Option (Text × Text) := do
  longest (· != '>') (Text.after? closing) (← Text.after? opening u)

/-- The text begins with a contact in brackets. -/
def Contacted (opening closing u contact : Text) : Prop :=
  RunWithout '>' contact ∧ opening ++ contact ++ closing <+: u

/-- A contact is a run between an opening and a closing bracket. -/
lemma contacted_iff {u : Text} :
    Contacted opening closing u contact ↔ ∃ v rest, u = opening ++ v ∧
      RunBefore (· != '>') (Text.after? closing) v contact rest := by
  simp only [Contacted, runBefore_iff, Text.isSome_after?_iff]
  constructor
  · rintro ⟨hrun, rest, rfl⟩
    refine ⟨contact ++ (closing ++ rest), closing ++ rest, ?_, hrun, rfl, List.prefix_append _ _⟩
    simp only [List.append_assoc]
  · rintro ⟨v, rest, rfl, hrun, rfl, hclosing⟩
    refine ⟨hrun, ?_⟩
    rw [List.append_assoc, List.prefix_append_right_inj, List.prefix_append_right_inj]
    exact hclosing

/-- A contact is read if the text begins with one. -/
lemma isSome_readContact_iff {u : Text} :
    (readContact opening closing u).isSome ↔ ∃ contact, Contacted opening closing u contact := by
  rw [readContact, Option.bind_eq_bind, Option.isSome_bind, Option.any_eq_true]
  simp only [Text.after?_eq_some_iff, isSome_longest_iff, contacted_iff]
  constructor
  · rintro ⟨v, rfl, contact, rest, h⟩
    exact ⟨contact, v, rest, rfl, h⟩
  · rintro ⟨contact, v, rest, rfl, h⟩
    exact ⟨v, rfl, contact, rest, h⟩

/-- The contact that is read is the longest one. -/
lemma contacted_of_readContact {u rest : Text}
    (h : readContact opening closing u = some (contact, rest)) :
    Contacted opening closing u contact ∧
      ∀ contact', Contacted opening closing u contact' → contact'.length ≤ contact.length := by
  obtain ⟨v, hv, hlongest⟩ := Option.bind_eq_some_iff.1 h
  obtain rfl := Text.after?_eq_some_iff.1 hv
  obtain ⟨rest', hrun, -, hgreatest⟩ := exists_runBefore hlongest
  refine ⟨contacted_iff.2 ⟨v, rest', rfl, hrun⟩, fun contact' h' => ?_⟩
  obtain ⟨v', rest'', e, hrun'⟩ := contacted_iff.1 h'
  obtain rfl := List.append_cancel_left e
  exact hgreatest contact' rest'' hrun'

/-- A holder with a contact is a run in front of a contact in brackets. -/
lemma bracketed_iff :
    Bracketed opening closing t holder contact ↔
      RunWithout '<' holder ∧ ∃ u, t = holder ++ u ∧ Contacted opening closing u contact := by
  constructor
  · rintro ⟨hholder, hcontact, rest, rfl⟩
    refine ⟨hholder, opening ++ contact ++ closing ++ rest, ?_, hcontact, List.prefix_append _ _⟩
    simp only [List.append_assoc]
  · rintro ⟨hholder, u, rfl, hcontact, hprefix⟩
    refine ⟨hholder, hcontact, ?_⟩
    rw [List.append_assoc, List.append_assoc, List.prefix_append_right_inj, ← List.append_assoc]
    exact hprefix

/-- A holder and a contact are read if the text begins with them. -/
lemma Bracketed.isSome_longest (h : Bracketed opening closing t holder contact) :
    (longest (· != '<') (readContact opening closing) t).isSome := by
  obtain ⟨hholder, u, rfl, hcontact⟩ := bracketed_iff.1 h
  exact isSome_longest_iff.2 ⟨holder, u, runBefore_iff.2
    ⟨hholder, rfl, isSome_readContact_iff.2 ⟨contact, hcontact⟩⟩⟩

/-- The holder that is read is the longest one, and the contact is the longest one behind it. -/
lemma bracketed_of_longest {rest : Text}
    (h : longest (· != '<') (readContact opening closing) t = some (holder, contact, rest)) :
    Bracketed opening closing t holder contact ∧
      ∀ holder' contact', Bracketed opening closing t holder' contact' →
        NotShorter holder (some contact) holder' (some contact') := by
  obtain ⟨u, hrun, hnext, hgreatest⟩ := exists_runBefore h
  obtain ⟨hholder, e, -⟩ := runBefore_iff.1 hrun
  obtain ⟨hcontact, hlongest⟩ := contacted_of_readContact hnext
  refine ⟨bracketed_iff.2 ⟨hholder, u, e, hcontact⟩, fun holder' contact' h' => ?_⟩
  obtain ⟨hholder', u', e', hcontact'⟩ := bracketed_iff.1 h'
  have hle := hgreatest holder' u'
    (runBefore_iff.2 ⟨hholder', e', isSome_readContact_iff.2 ⟨contact', hcontact'⟩⟩)
  rcases Nat.lt_or_eq_of_le hle with hlt | heq
  · exact .inl hlt
  · obtain ⟨-, rfl⟩ := List.append_inj (e'.symm.trans e) heq
    exact .inr ⟨heq, hlongest contact' hcontact'⟩

/-- Equally long holders and contacts in brackets are the same. -/
lemma Bracketed.eq_of_length {holder' contact' : Text}
    (h : Bracketed opening closing t holder contact)
    (h' : Bracketed opening closing t holder' contact') (hholder : holder'.length = holder.length)
    (hcontact : contact'.length = contact.length) : holder' = holder ∧ contact' = contact := by
  have hlength : (holder' ++ opening ++ contact' ++ closing).length
      = (holder ++ opening ++ contact ++ closing).length := by
    simp only [List.length_append, hholder, hcontact]
  have e := (List.prefix_of_prefix_length_le h'.isPrefix h.isPrefix hlength.le).eq_of_length hlength
  obtain ⟨e, hcontact⟩ := List.append_inj (List.append_cancel_right e)
    (by rw [List.length_append, List.length_append, hholder])
  exact ⟨List.append_cancel_right e, hcontact⟩

/-- With angle brackets, a text begins with one holder and one contact only. -/
lemma Bracketed.unique_angle {holder' contact' : Text} (h : Bracketed " <" ">" t holder contact)
    (h' : Bracketed " <" ">" t holder' contact') : holder' = holder ∧ contact' = contact := by
  obtain ⟨hholder, hcontact, rest, rfl⟩ := h
  obtain ⟨hholder', hcontact', rest', e⟩ := h'
  have hspace {r : Text} (hr : '<' ∉ r) : '<' ∉ r ++ [' '] := by
    simpa using hr
  have hsplit (r s v : Text) :
      r ++ " <".toList ++ s ++ ">".toList ++ v = (r ++ [' ']) ++ '<' :: (s ++ '>' :: v) := by
    simp only [List.append_assoc]
    rfl
  rw [hsplit, hsplit] at e
  obtain ⟨hspaced, e⟩ := Text.append_cons_inj (hspace hholder'.notMem) (hspace hholder.notMem) e
  exact ⟨List.append_cancel_right hspaced,
    (Text.append_cons_inj hcontact'.notMem hcontact.notMem e).1⟩

end Holder

section Form
variable {form : HolderForm} {t holder : Text} {contact : Option Text}

/-- A holder is read if the text begins with one. -/
lemma HolderForm.Writes.isSome_read? (h : form.Writes t holder contact) :
    (form.read? t).isSome := by
  cases h with
  | angle h =>
    rw [read?, Option.isSome_map]
    exact h.isSome_longest
  | paren h =>
    rw [read?, Option.isSome_map]
    exact h.isSome_longest
  | free hrun hprefix =>
    obtain ⟨rest, rfl⟩ := hprefix
    rw [read?, Option.isSome_map]
    exact isSome_longest_iff.2 ⟨holder, rest, runBefore_iff.2 ⟨hrun, rfl, rfl⟩⟩

/-- The holder that is read is preferred to all others. -/
lemma HolderForm.prefers_of_read? (h : form.read? t = some (holder, contact)) :
    form.Prefers t holder contact := by
  unfold read? at h
  split at h
  case h_1 =>
    obtain ⟨⟨holder, contact, rest⟩, hlongest, e⟩ := Option.map_eq_some_iff.1 h
    cases e
    obtain ⟨hwrites, hgreatest⟩ := bracketed_of_longest hlongest
    refine ⟨.angle hwrites, fun holder' contact' h' => ?_⟩
    cases h' with
    | angle h' => exact hgreatest _ _ h'
  case h_2 =>
    obtain ⟨⟨holder, contact, rest⟩, hlongest, e⟩ := Option.map_eq_some_iff.1 h
    cases e
    obtain ⟨hwrites, hgreatest⟩ := bracketed_of_longest hlongest
    refine ⟨.paren hwrites, fun holder' contact' h' => ?_⟩
    cases h' with
    | paren h' => exact hgreatest _ _ h'
  case h_3 =>
    obtain ⟨⟨holder, rest⟩, hlongest, e⟩ := Option.map_eq_some_iff.1 h
    cases e
    obtain ⟨rest', hrun, -, hgreatest⟩ := exists_runBefore hlongest
    obtain ⟨hholder, e, -⟩ := runBefore_iff.1 hrun
    refine ⟨.free hholder ⟨rest', e.symm⟩, fun holder' contact' h' => ?_⟩
    cases h' with
    | free hholder' hprefix =>
      obtain ⟨rest'', e'⟩ := hprefix
      have hle := hgreatest holder' rest'' (runBefore_iff.2 ⟨hholder', e'.symm, rfl⟩)
      rcases Nat.lt_or_eq_of_le hle with hlt | heq
      · exact .inl hlt
      · exact .inr ⟨heq, Nat.le_refl _⟩

/-- Equally long holders and contacts are the same. -/
lemma HolderForm.Writes.eq_of_length {holder' : Text} {contact' : Option Text}
    (h : form.Writes t holder contact) (h' : form.Writes t holder' contact')
    (hholder : holder'.length = holder.length)
    (hcontact : (contact'.getD []).length = (contact.getD []).length) :
    holder' = holder ∧ contact' = contact := by
  cases h with
  | angle h =>
    cases h' with
    | angle h' =>
      obtain ⟨rfl, rfl⟩ := h.eq_of_length h' hholder hcontact
      exact ⟨rfl, rfl⟩
  | paren h =>
    cases h' with
    | paren h' =>
      obtain ⟨rfl, rfl⟩ := h.eq_of_length h' hholder hcontact
      exact ⟨rfl, rfl⟩
  | free _ h =>
    cases h' with
    | free _ h' =>
      exact ⟨(List.prefix_of_prefix_length_le h' h hholder.le).eq_of_length hholder, rfl⟩

/-- One holder is preferred to all others. -/
lemma HolderForm.Prefers.unique {holder' : Text} {contact' : Option Text}
    (h : form.Prefers t holder contact) (h' : form.Prefers t holder' contact') :
    holder' = holder ∧ contact' = contact := by
  have hle := h.greatest _ _ h'.writes
  have hge := h'.greatest _ _ h.writes
  unfold NotShorter at hle hge
  exact h.writes.eq_of_length h'.writes (by omega) (by omega)

/-- The holder that is read is the one that is preferred. -/
lemma HolderForm.read?_eq_some_iff :
    form.read? t = some (holder, contact) ↔ form.Prefers t holder contact := by
  refine ⟨prefers_of_read?, fun h => ?_⟩
  obtain ⟨⟨holder', contact'⟩, hread⟩ := Option.isSome_iff_exists.1 h.writes.isSome_read?
  obtain ⟨rfl, rfl⟩ := h.unique (prefers_of_read? hread)
  exact hread

/-- With angle brackets there is nothing to prefer. -/
lemma HolderForm.Writes.prefers_angle (h : HolderForm.angle.Writes t holder contact) :
    HolderForm.angle.Prefers t holder contact := by
  refine ⟨h, fun holder' contact' h' => ?_⟩
  cases h with
  | angle h =>
    cases h' with
    | angle h' =>
      obtain ⟨rfl, rfl⟩ := h.unique_angle h'
      exact .inr ⟨rfl, Nat.le_refl _⟩

end Form

section Statement

/-- The text begins with the lead, a year of four digits, perhaps a comma, and a space, and goes on
with `rest`. -/
def Heads (lead t : Text) (year : Nat) (rest : Text) : Prop :=
  ∃ digits comma, IsYear digits ∧ (comma = [] ∨ comma = [',']) ∧
    t = lead ++ digits ++ comma ++ " ".toList ++ rest ∧ year = Nat.ofDigitChars 10 digits 0

/-- The text begins with a statement in the form behind the lead. -/
def Begins (lead : Text) (form : HolderForm) (t : Text) (s : Statement) : Prop :=
  ∃ rest, Heads lead t s.year rest ∧ form.Writes rest s.holder s.contact

variable {lead t rest : Text} {form : HolderForm} {s : Statement} {year : Nat}

/-- A comma in front of a space may be missing. -/
lemma after?_comma_iff :
    Text.after? " " ((Text.after? "," t).getD t) = some rest ↔
      ∃ comma, (comma = [] ∨ comma = [',']) ∧ t = comma ++ " ".toList ++ rest := by
  constructor
  · intro h
    cases hcomma : Text.after? "," t with
    | none =>
      rw [hcomma, Option.getD_none] at h
      exact ⟨[], .inl rfl, Text.after?_eq_some_iff.1 h⟩
    | some u =>
      rw [hcomma, Option.getD_some] at h
      exact ⟨[','], .inr rfl, by
        rw [Text.after?_eq_some_iff.1 hcomma, Text.after?_eq_some_iff.1 h]; rfl⟩
  · rintro ⟨comma, rfl | rfl, rfl⟩ <;> rfl

/-- The parts that a statement begins with are read one after the other. -/
lemma heads_iff :
    Heads lead t year rest ↔ ∃ u v, Text.after? lead t = some u ∧ year? u = some (year, v) ∧
      Text.after? " " ((Text.after? "," v).getD v) = some rest := by
  simp only [@Text.after?_eq_some_iff lead, year?_eq_some_iff, after?_comma_iff]
  constructor
  · rintro ⟨digits, comma, hdigits, hcomma, rfl, rfl⟩
    refine ⟨digits ++ (comma ++ " ".toList ++ rest), comma ++ " ".toList ++ rest, ?_,
      ⟨digits, hdigits, rfl, rfl⟩, comma, hcomma, rfl⟩
    simp only [List.append_assoc]
  · rintro ⟨-, -, rfl, ⟨digits, hdigits, rfl, rfl⟩, comma, hcomma, rfl⟩
    refine ⟨digits, comma, hdigits, hcomma, ?_, rfl⟩
    simp only [List.append_assoc]

/-- The year of a statement and what follows its head are determined. -/
lemma Heads.unique {year' : Nat} {rest' : Text} (h : Heads lead t year rest)
    (h' : Heads lead t year' rest') : year' = year ∧ rest' = rest := by
  obtain ⟨u, v, hu, hv, hrest⟩ := heads_iff.1 h
  obtain ⟨u', v', hu', hv', hrest'⟩ := heads_iff.1 h'
  cases hu.symm.trans hu'
  cases hv.symm.trans hv'
  exact ⟨rfl, Option.some.inj (hrest'.symm.trans hrest)⟩

/-- A statement is read behind its head, with the holder that is preferred there. -/
lemma statement?_eq_some_iff :
    statement? lead form t = some s ↔
      ∃ rest, Heads lead t s.year rest ∧ form.Prefers rest s.holder s.contact := by
  simp only [statement?, Option.bind_eq_bind, Option.bind_eq_some_iff, heads_iff,
    ← HolderForm.read?_eq_some_iff]
  constructor
  · rintro ⟨u, hu, ⟨year, v⟩, hv, rest, hrest, ⟨holder, contact⟩, hholder, e⟩
    cases e
    exact ⟨rest, ⟨u, v, hu, hv, hrest⟩, hholder⟩
  · rintro ⟨rest, ⟨u, v, hu, hv, hrest⟩, hholder⟩
    exact ⟨u, hu, ⟨s.year, v⟩, hv, rest, hrest, ⟨s.holder, s.contact⟩, hholder, rfl⟩

/-- A statement is read if the text begins with one. -/
lemma isSome_statement?_iff : (statement? lead form t).isSome ↔ ∃ s, Begins lead form t s := by
  rw [Option.isSome_iff_exists]
  constructor
  · rintro ⟨s, h⟩
    obtain ⟨rest, hhead, hholder⟩ := statement?_eq_some_iff.1 h
    exact ⟨s, rest, hhead, hholder.writes⟩
  · rintro ⟨s, rest, hhead, hholder⟩
    obtain ⟨⟨holder, contact⟩, hread⟩ := Option.isSome_iff_exists.1 hholder.isSome_read?
    exact ⟨⟨s.year, holder, contact⟩, statement?_eq_some_iff.2
      ⟨rest, hhead, HolderForm.read?_eq_some_iff.1 hread⟩⟩

/-- Of the statements that a text begins with, the one with the preferred holder is read. -/
lemma statement?_eq_some_iff_greatest :
    statement? lead form t = some s ↔ Begins lead form t s ∧
      ∀ s', Begins lead form t s' → NotShorter s.holder s.contact s'.holder s'.contact := by
  rw [statement?_eq_some_iff]
  constructor
  · rintro ⟨rest, hhead, hholder⟩
    refine ⟨⟨rest, hhead, hholder.writes⟩, fun s' ⟨rest', hhead', hholder'⟩ => ?_⟩
    obtain ⟨-, rfl⟩ := hhead.unique hhead'
    exact hholder.greatest _ _ hholder'
  · rintro ⟨⟨rest, hhead, hholder⟩, hgreatest⟩
    refine ⟨rest, hhead, hholder, fun holder' contact' h' => ?_⟩
    exact hgreatest ⟨s.year, holder', contact'⟩ ⟨rest, hhead, h'⟩

/-- With angle brackets, the statement that a text begins with is read. -/
lemma statement?_angle_eq_some_iff :
    statement? lead .angle t = some s ↔ Begins lead .angle t s := by
  rw [statement?_eq_some_iff]
  constructor
  · rintro ⟨rest, hhead, hholder⟩
    exact ⟨rest, hhead, hholder.writes⟩
  · rintro ⟨rest, hhead, hholder⟩
    exact ⟨rest, hhead, hholder.prefers_angle⟩

end Statement

section Author
variable {lead t entry : Text}

/-- The text begins with the lead and an author behind it. -/
def BeginsAuthor (lead t entry : Text) : Prop :=
  RunWithout '\n' entry ∧ lead ++ entry <+: t

/-- The author behind the lead, and what follows. -/
def readAuthor (lead t : Text) : Option (Text × Text) :=
  Text.after? lead t >>= longest (· != '\n') some

/-- An author is a run up to the end of the line. -/
lemma beginsAuthor_iff :
    BeginsAuthor lead t entry ↔ ∃ u rest, t = lead ++ u ∧
      RunBefore (· != '\n') some u entry rest := by
  simp only [BeginsAuthor, runBefore_iff, Option.isSome_some, and_true]
  constructor
  · rintro ⟨hrun, rest, rfl⟩
    exact ⟨entry ++ rest, rest, List.append_assoc .., hrun, rfl⟩
  · rintro ⟨-, rest, rfl, hrun, rfl⟩
    exact ⟨hrun, rest, List.append_assoc ..⟩

/-- An author is read just where an entry begins. -/
lemma isSome_readAuthor_iff :
    (readAuthor lead t).isSome ↔ ∃ entry, BeginsAuthor lead t entry := by
  rw [readAuthor, Option.bind_eq_bind, Option.isSome_bind, Option.any_eq_true]
  simp only [Text.after?_eq_some_iff, isSome_longest_iff, beginsAuthor_iff]
  constructor
  · rintro ⟨u, rfl, entry, rest, h⟩
    exact ⟨entry, u, rest, rfl, h⟩
  · rintro ⟨entry, u, rest, rfl, h⟩
    exact ⟨u, rfl, entry, rest, h⟩

/-- The longest author is read. -/
lemma exists_readAuthor_iff :
    (∃ rest, readAuthor lead t = some (entry, rest)) ↔ BeginsAuthor lead t entry ∧
      ∀ entry', BeginsAuthor lead t entry' → entry'.length ≤ entry.length := by
  simp only [readAuthor, Option.bind_eq_bind, Option.bind_eq_some_iff, Text.after?_eq_some_iff,
    longest_eq_some_iff, beginsAuthor_iff]
  constructor
  · rintro ⟨rest, u, rfl, rest', hrun, -, hgreatest⟩
    refine ⟨⟨u, rest', rfl, hrun⟩, fun entry' ⟨u', rest'', e, hrun'⟩ => ?_⟩
    obtain rfl := List.append_cancel_left e
    exact hgreatest entry' rest'' hrun'
  · rintro ⟨⟨u, rest, rfl, hrun⟩, hgreatest⟩
    exact ⟨rest, u, rfl, rest, hrun, rfl, fun run' rest' hrun' =>
      hgreatest run' ⟨u, rest', rfl, hrun'⟩⟩

end Author

section Rule
variable {lead line : Text} {rule : Rule} {m : LineMeaning}

/-- The text that a rule looks for occurs in the line. -/
def Rule.Fits (line : Text) : Rule → Prop
  | .copyright lead form => ∃ front t, line = front ++ t ∧ ∃ s, Begins lead form t s
  | .yearOnly lead => ∃ digits, IsYear digits ∧ lead ++ digits <:+: line
  | .author lead => ∃ front t, line = front ++ t ∧ ∃ entry, BeginsAuthor lead t entry
  | .license needle _ | .boilerplate needle => needle <:+: line

/-- What a rule reads in a line. Of the places where its text occurs the earliest counts. There is
one statement with angle brackets at a place; of those in parentheses the one with the longest
holder counts, and of these the one with the longest contact; of those without a contact, and of
the authors, the longest counts. -/
inductive Rule.Says (line : Text) : Rule → LineMeaning → Prop where
  | angle {lead front t s} :
    Earliest (fun r => ∃ s, Begins lead .angle r s) line front t →
    Begins lead .angle t s →
    Says line (.copyright lead .angle) (.copyright s)
  | paren {lead front t s} :
    Earliest (fun r => ∃ s, Begins lead .paren r s) line front t →
    Begins lead .paren t s →
    (∀ s', Begins lead .paren t s' → NotShorter s.holder s.contact s'.holder s'.contact) →
    Says line (.copyright lead .paren) (.copyright s)
  | free {lead front t s} :
    Earliest (fun r => ∃ s, Begins lead .free r s) line front t →
    Begins lead .free t s →
    (∀ s', Begins lead .free t s' → s'.holder.length ≤ s.holder.length) →
    Says line (.copyright lead .free) (.copyright s)
  | yearOnly {lead digits} :
    IsYear digits →
    lead ++ digits <:+: line →
    Says line (.yearOnly lead) .yearOnly
  | author {lead front t entry} :
    Earliest (fun r => ∃ entry, BeginsAuthor lead r entry) line front t →
    BeginsAuthor lead t entry →
    (∀ entry', BeginsAuthor lead t entry' → entry'.length ≤ entry.length) →
    Says line (.author lead) (.author entry)
  | license {needle identifier} :
    needle <:+: line →
    Says line (.license needle identifier) (.license identifier)
  | boilerplate {needle} :
    needle <:+: line →
    Says line (.boilerplate needle) .boilerplate

/-- Without a contact, the longest holder is the one that is preferred. -/
lemma Begins.notShorter_free_iff {t : Text} {s s' : Statement} (h : Begins lead .free t s)
    (h' : Begins lead .free t s') :
    NotShorter s.holder s.contact s'.holder s'.contact ↔ s'.holder.length ≤ s.holder.length := by
  obtain ⟨rest, _, h⟩ := h
  obtain ⟨rest', _, h'⟩ := h'
  generalize s.contact = contact at h ⊢
  generalize s'.contact = contact' at h' ⊢
  cases h with
  | free =>
    cases h' with
    | free =>
      unfold NotShorter
      omega

/-- The search of a copyright rule finds what the rule says. -/
lemma says_copyright_iff {form : HolderForm} {s : Statement} :
    leftmost (statement? lead form) line = some s ↔
      (Rule.copyright lead form).Says line (.copyright s) := by
  rw [leftmost_eq_some_iff]
  simp only [isSome_statement?_iff]
  cases form with
  | angle =>
    simp only [statement?_angle_eq_some_iff]
    constructor
    · rintro ⟨front, t, hfirst, h⟩
      exact .angle hfirst h
    · intro h
      cases h with
      | angle hfirst h => exact ⟨_, _, hfirst, h⟩
  | paren =>
    simp only [statement?_eq_some_iff_greatest]
    constructor
    · rintro ⟨front, t, hfirst, h, hgreatest⟩
      exact .paren hfirst h hgreatest
    · intro h
      cases h with
      | paren hfirst h hgreatest => exact ⟨_, _, hfirst, h, hgreatest⟩
  | free =>
    simp only [statement?_eq_some_iff_greatest]
    constructor
    · rintro ⟨front, t, hfirst, h, hgreatest⟩
      exact .free hfirst h fun s' h' => (h.notShorter_free_iff h').1 (hgreatest s' h')
    · intro h
      cases h with
      | free hfirst h hgreatest =>
        exact ⟨_, _, hfirst, h, fun s' h' => (h.notShorter_free_iff h').2 (hgreatest s' h')⟩

/-- The search for a year finds what the rule says. -/
lemma says_yearOnly_iff :
    (leftmost (fun t => Text.after? lead t >>= year?) line).isSome ↔
      (Rule.yearOnly lead).Says line .yearOnly := by
  have hsome (t : Text) : (Text.after? lead t >>= year?).isSome ↔
      ∃ digits rest, IsYear digits ∧ t = lead ++ digits ++ rest := by
    rw [Option.bind_eq_bind, Option.isSome_bind, Option.any_eq_true]
    simp only [Text.after?_eq_some_iff, Option.isSome_iff_exists, Prod.exists, year?_eq_some_iff]
    constructor
    · rintro ⟨-, rfl, -, rest, digits, hdigits, rfl, -⟩
      exact ⟨digits, rest, hdigits, (List.append_assoc ..).symm⟩
    · rintro ⟨digits, rest, hdigits, rfl⟩
      exact ⟨digits ++ rest, List.append_assoc .., _, rest, digits, hdigits, rfl, rfl⟩
  simp only [isSome_leftmost_iff, hsome]
  constructor
  · rintro ⟨front, -, rfl, digits, rest, hdigits, rfl⟩
    exact .yearOnly hdigits ⟨front, rest, by simp only [List.append_assoc]⟩
  · intro h
    cases h with
    | yearOnly hdigits hinfix =>
      obtain ⟨front, rest, rfl⟩ := hinfix
      exact ⟨front, _, List.append_assoc .., _, rest, hdigits, rfl⟩

/-- The search for an author finds what the rule says. -/
lemma says_author_iff {entry : Text} :
    (∃ rest, leftmost (readAuthor lead) line = some (entry, rest)) ↔
      (Rule.author lead).Says line (.author entry) := by
  simp only [leftmost_eq_some_iff, isSome_readAuthor_iff]
  constructor
  · rintro ⟨rest, front, t, hfirst, h⟩
    obtain ⟨hentry, hgreatest⟩ := exists_readAuthor_iff.1 ⟨rest, h⟩
    exact .author hfirst hentry hgreatest
  · intro h
    cases h with
    | author hfirst hentry hgreatest =>
      obtain ⟨rest, h⟩ := exists_readAuthor_iff.2 ⟨hentry, hgreatest⟩
      exact ⟨rest, _, _, hfirst, h⟩

/-- What a rule makes of a line is what it says. -/
lemma Rule.meaning?_eq_some_iff : rule.meaning? line = some m ↔ rule.Says line m := by
  cases rule with
  | copyright lead form =>
    rw [meaning?, Option.map_eq_some_iff]
    simp only [says_copyright_iff]
    constructor
    · rintro ⟨s, h, rfl⟩
      exact h
    · intro h
      obtain ⟨s, rfl⟩ : ∃ s, m = .copyright s := by cases h <;> exact ⟨_, rfl⟩
      exact ⟨s, h, rfl⟩
  | yearOnly lead =>
    rw [meaning?, Option.map_eq_some_iff]
    constructor
    · rintro ⟨p, h, rfl⟩
      exact says_yearOnly_iff.1 (Option.isSome_of_eq_some h)
    · intro h
      obtain rfl : m = .yearOnly := by cases h; rfl
      obtain ⟨p, hp⟩ := Option.isSome_iff_exists.1 (says_yearOnly_iff.2 h)
      exact ⟨p, hp, rfl⟩
  | author lead =>
    rw [meaning?, Option.map_eq_some_iff]
    constructor
    · rintro ⟨⟨entry, rest⟩, h, rfl⟩
      exact says_author_iff.1 ⟨rest, h⟩
    · intro h
      obtain ⟨entry, rfl⟩ : ∃ entry, m = .author entry := by cases h; exact ⟨_, rfl⟩
      obtain ⟨rest, h⟩ := says_author_iff.2 h
      exact ⟨(entry, rest), h, rfl⟩
  | license needle identifier =>
    rw [meaning?, Option.ite_none_right_eq_some, Text.contains_iff_isInfix]
    constructor
    · rintro ⟨h, e⟩
      cases e
      exact .license h
    · intro h
      cases h with
      | license h => exact ⟨h, rfl⟩
  | boilerplate needle =>
    rw [meaning?, Option.ite_none_right_eq_some, Text.contains_iff_isInfix]
    constructor
    · rintro ⟨h, e⟩
      cases e
      exact .boilerplate h
    · intro h
      cases h with
      | boilerplate h => exact ⟨h, rfl⟩

/-- A rule makes something of the lines that it fits. -/
lemma Rule.fits_iff : rule.Fits line ↔ (rule.meaning? line).isSome := by
  cases rule with
  | copyright lead form =>
    rw [meaning?, Option.isSome_map, isSome_leftmost_iff]
    simp only [isSome_statement?_iff]
    rfl
  | yearOnly lead =>
    rw [meaning?, Option.isSome_map, says_yearOnly_iff]
    constructor
    · rintro ⟨digits, hdigits, hinfix⟩
      exact .yearOnly hdigits hinfix
    · intro h
      cases h with
      | yearOnly hdigits hinfix => exact ⟨_, hdigits, hinfix⟩
  | author lead =>
    rw [meaning?, Option.isSome_map, isSome_leftmost_iff]
    simp only [← isSome_readAuthor_iff, Fits]
    rfl
  | license needle identifier =>
    rw [meaning?, Option.isSome_ite, Text.contains_iff_isInfix]
    rfl
  | boilerplate needle =>
    rw [meaning?, Option.isSome_ite, Text.contains_iff_isInfix]
    rfl

/-- What a rule says about a line is determined. -/
lemma Rule.Says.unique {m' : LineMeaning} (h : rule.Says line m) (h' : rule.Says line m') :
    m' = m :=
  Option.some.inj ((meaning?_eq_some_iff.2 h').symm.trans (meaning?_eq_some_iff.2 h))

/-- The year of a statement has at most four digits. -/
lemma Rule.Says.year_lt {s : Statement} (h : rule.Says line (.copyright s)) : s.year < 10000 := by
  have hbegins {lead form t} (h : Begins lead form t s) : s.year < 10000 := by
    obtain ⟨rest, ⟨digits, comma, hdigits, -, -, hyear⟩, -⟩ := h
    exact hyear ▸ hdigits.lt
  cases h with
  | angle _ h => exact hbegins h
  | paren _ h _ => exact hbegins h
  | free _ h _ => exact hbegins h

end Rule

/-- A line says what the first rule of the table says that fits it. If no rule fits, the line is
refused because it speaks of a license, or of a copyright, and else it says nothing. -/
theorem meaning_eq (line : Text) :
    (∃ before rule after m, rules = before ++ rule :: after ∧ (∀ r ∈ before, ¬ r.Fits line) ∧
      rule.Fits line ∧ (∀ m', rule.Says line m' ↔ m' = m) ∧
      (∀ s, m = .copyright s → s.year < 10000) ∧ meaning line = .ok m) ∨
    (∀ r ∈ rules, ¬ r.Fits line) ∧
      ("license".toList <:+: line.lowercase ∧ meaning line = .error (.unrecognizedLicense line) ∨
        ¬ "license".toList <:+: line.lowercase ∧
          ("copyright".toList <:+: line.lowercase ∧
              meaning line = .error (.unrecognizedCopyright line) ∨
            ¬ "copyright".toList <:+: line.lowercase ∧ meaning line = .ok .unrelated)) := by
  have hfits (r : Rule) : r.Fits line ↔ r.meaning? line ≠ none := by
    rw [r.fits_iff, Option.isSome_iff_ne_none]
  cases hfirst : rules.findSome? fun rule => rule.meaning? line with
  | some m =>
    left
    obtain ⟨before, rule, after, hrules, hm, hbefore⟩ := List.findSome?_eq_some_iff.1 hfirst
    have hm' := Rule.meaning?_eq_some_iff.1 hm
    refine ⟨before, rule, after, m, hrules, fun r hr => ?_, ?_, fun m' => ⟨hm'.unique, ?_⟩, ?_, ?_⟩
    · rw [hfits, not_not]
      exact hbefore r hr
    · rw [hfits, hm]
      exact Option.some_ne_none m
    · rintro rfl
      exact hm'
    · rintro s rfl
      exact hm'.year_lt
    · rw [meaning, hfirst]
  | none =>
    right
    refine ⟨fun r hr => ?_, ?_⟩
    · rw [hfits, not_not]
      exact List.findSome?_eq_none_iff.1 hfirst r hr
    · simp only [meaning, hfirst, ← Text.contains_iff_isInfix]
      cases Text.contains "license" line.lowercase with
      | true => exact .inl ⟨rfl, rfl⟩
      | false =>
        right
        refine ⟨Bool.false_ne_true, ?_⟩
        cases Text.contains "copyright" line.lowercase with
        | true => exact .inl ⟨rfl, rfl⟩
        | false => exact .inr ⟨Bool.false_ne_true, rfl⟩

-- A lead that no year follows is passed over, and a comma and parentheses belong to no contact.
example : meaning "@copyright 20 @copyright 2020, Jo (Co) <j@x>"
    = .ok (.copyright ⟨2020, "Jo (Co)", some "j@x"⟩) := rfl

end Attribution

end SpdxHeaders
