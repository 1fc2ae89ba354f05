import Mathlib.Tactic.Lemma
import Mathlib.Tactic.SplitIfs
import SpdxHeaders.FileTree.Access
import SpdxHeaders.Proofs.Bind

/-!
# Following a path step by step

A path is followed one part after the other: `stepInto` takes one part, and following the rest goes
on from there (`follow_cons`). Proofs about paths go by `followInduction`, with one case for a part.
-/

namespace SpdxHeaders.FileTree

/-- Goes on to the entry of a directory that a part names: the links that may still be met, the
location it leads to, and the parts that are left. -/
def enter (t : FileTree) (purpose : Purpose) (links : Nat) (l : Location) (part : Text)
    (parts : List Text) : Except AccessFault (Nat × Location × List Text) :=
  match t.get? (l ++ [part]) with
  | none =>
    if purpose = .creation && parts.isEmpty then .ok (links, l ++ [part], [])
    else .error .notFound
  | some (.link target) =>
    if purpose = .entry && parts.isEmpty then .ok (links, l ++ [part], [])
    else
      match links with
      | 0 => .error .tooManyLinks
      | links + 1 =>
        .ok (links, if target.isAbsolute then [] else l, Text.pieces '/' target ++ parts)
  | some _ => .ok (links, l ++ [part], parts)

/-- Takes the first part of a path from a location. -/
def stepInto (t : FileTree) (purpose : Purpose) (links : Nat) (l : Location) (part : Text)
    (parts : List Text) : Except AccessFault (Nat × Location × List Text) :=
  match t.get? l with
  | some .directory =>
    if part.isEmpty || part = ".".toList then .ok (links, l, parts)
    else if part = "..".toList then .ok (links, l.dropLast, parts)
    else if purpose = .creation && !parts.isEmpty && parts.all List.isEmpty then
      .error .isDirectory
    else if maxNameLength < Text.byteLength part then .error .nameTooLong
    else t.enter purpose links l part parts
  | _ => .error .notDirectory

variable {t : FileTree} {purpose : Purpose} {links : Nat} {l : Location} {part : Text}
  {parts : List Text} {s : Nat × Location × List Text}

/-- A path without parts stays where it is. -/
lemma follow_nil (links : Nat) (l : Location) : t.follow purpose links l [] = .ok l := by
  rw [follow]

/-- Following a path takes its first part, and goes on from there. -/
lemma follow_cons (links : Nat) (l : Location) (part : Text) (parts : List Text) :
    t.follow purpose links l (part :: parts)
      = t.stepInto purpose links l part parts >>= fun s => t.follow purpose s.1 s.2.1 s.2.2 := by
  rw [follow]
  unfold stepInto enter
  cases t.get? l with
  | none => rfl
  | some n =>
    cases n with
    | file _ => rfl
    | link _ => rfl
    | directory =>
      cases t.get? (l ++ [part]) with
      | none => dsimp only; split_ifs <;> simp [bind, Except.bind, follow_nil]
      | some n =>
        cases n with
        | file _ => dsimp only; split_ifs <;> rfl
        | directory => dsimp only; split_ifs <;> rfl
        | link target =>
          cases links <;> dsimp only <;> split_ifs <;> simp [bind, Except.bind, follow_nil]

/-- What taking the first part of a path comes to. -/
inductive Stepped (t : FileTree) (purpose : Purpose) (links : Nat) (l : Location) (part : Text)
    (parts : List Text) : Nat × Location × List Text → Prop where
  | stay (h : part = [] ∨ part = ['.']) : Stepped t purpose links l part parts (links, l, parts)
  | up (h : part = ['.', '.']) : Stepped t purpose links l part parts (links, l.dropLast, parts)
  | last (h : purpose ≠ .content) (hparts : parts = []) :
    Stepped t purpose links l part parts (links, l ++ [part], [])
  | through (k : Nat) (hk : links = k + 1) (target : Path)
    (h : t.get? (l ++ [part]) = some (.link target)) :
    Stepped t purpose links l part parts
      (k, if target.isAbsolute then [] else l, Text.pieces '/' target ++ parts)
  | into (n : Node) (h : t.get? (l ++ [part]) = some n) (hn : ∀ target, n ≠ .link target) :
    Stepped t purpose links l part parts (links, l ++ [part], parts)

/-- What going on to an entry comes to. -/
lemma stepped_of_enter (h : t.enter purpose links l part parts = .ok s) :
    Stepped t purpose links l part parts s := by
  unfold enter at h
  split at h
  case h_1 =>
    split_ifs at h with hlast
    cases h
    simp only [Bool.and_eq_true, decide_eq_true_eq, List.isEmpty_iff] at hlast
    exact .last (by simp [hlast.1]) hlast.2
  case h_2 target hn =>
    split at h
    case isTrue hlast =>
      cases h
      simp only [Bool.and_eq_true, decide_eq_true_eq, List.isEmpty_iff] at hlast
      exact .last (by simp [hlast.1]) hlast.2
    case isFalse =>
      cases links with
      | zero => cases h
      | succ links =>
        cases h
        exact .through links rfl target hn
  case h_3 n hlink hn =>
    cases h
    exact .into n hn hlink

/-- A part is taken from a directory. -/
lemma stepped_of_stepInto (h : t.stepInto purpose links l part parts = .ok s) :
    t.get? l = some .directory ∧ Stepped t purpose links l part parts s := by
  unfold stepInto at h
  split at h
  case h_1 hdir =>
    refine ⟨hdir, ?_⟩
    split_ifs at h with hstay hup
    · cases h
      exact .stay (by simpa using hstay)
    · cases h
      exact .up hup
    · exact stepped_of_enter h
  case h_2 => cases h

/-- Taking a part uses up a link, or leaves as many links and no more parts. -/
lemma Stepped.decreases (h : Stepped t purpose links l part parts s) :
    s.1 < links ∨ s.1 = links ∧ s.2.2.length ≤ parts.length := by
  cases h with
  | stay => exact .inr ⟨rfl, Nat.le_refl _⟩
  | up => exact .inr ⟨rfl, Nat.le_refl _⟩
  | last => exact .inr ⟨rfl, Nat.zero_le _⟩
  | through k hk => exact .inl (hk ▸ Nat.lt_succ_self k)
  | into => exact .inr ⟨rfl, Nat.le_refl _⟩

/-- What holds without parts, and for a path if it holds for what taking its first part leaves,
holds for all paths. -/
lemma followInduction (t : FileTree) (purpose : Purpose)
    {motive : Nat → Location → List Text → Prop}
    (nil : ∀ links l, motive links l [])
    (cons : ∀ links l part parts,
      (∀ s, t.stepInto purpose links l part parts = .ok s → motive s.1 s.2.1 s.2.2) →
      motive links l (part :: parts))
    (links : Nat) (l : Location) (parts : List Text) : motive links l parts := by
  -- The links that may still be met count first, then the parts: a link can bring new parts.
  induction links using Nat.strongRecOn generalizing l parts with
  | ind links ihLinks =>
    suffices ∀ n l parts, parts.length ≤ n → motive links l parts from
      this _ l parts (Nat.le_refl _)
    intro n
    induction n with
    | zero =>
      intro l parts h
      rw [List.eq_nil_of_length_eq_zero (Nat.le_zero.1 h)]
      exact nil links l
    | succ n ihParts =>
      intro l parts h
      cases parts with
      | nil => exact nil links l
      | cons part parts =>
        apply cons links l part parts
        intro s hs
        rcases (stepped_of_stepInto hs).2.decreases with hlt | ⟨heq, hle⟩
        · exact ihLinks _ hlt _ _
        · rw [heq]
          exact ihParts _ _ (Nat.le_trans hle (Nat.le_of_succ_le_succ h))

/-- For content, the parts behind the first do not matter to it, and neither do they for another
purpose if they are not all empty. -/
lemma stepInto_append {qs : List Text} (hqs : purpose = .content ∨ ¬qs.all List.isEmpty) :
    t.stepInto purpose links l part (parts ++ qs)
      = (t.stepInto .content links l part parts).map fun s => (s.1, s.2.1, s.2.2 ++ qs) := by
  have hlast : purpose ≠ .content → (parts ++ qs).isEmpty = false := by
    intro hpurpose
    cases qs with
    | nil => exact absurd rfl (hqs.resolve_left hpurpose)
    | cons => simp
  have hguard :
      (decide (purpose = .creation) && !(parts ++ qs).isEmpty && (parts ++ qs).all List.isEmpty)
        = false := by
    rcases hqs with rfl | hqs
    · rfl
    · rw [List.all_append, Bool.eq_false_iff.2 hqs, Bool.and_false, Bool.and_false]
  have enter_append : t.enter purpose links l part (parts ++ qs)
      = (t.enter .content links l part parts).map fun s => (s.1, s.2.1, s.2.2 ++ qs) := by
    unfold enter
    cases t.get? (l ++ [part]) with
    | none => cases purpose <;> simp [Except.map, hlast]
    | some n =>
      cases n with
      | file _ => rfl
      | directory => rfl
      | link target => cases purpose <;> cases links <;> simp [Except.map, hlast]
  unfold stepInto
  cases t.get? l with
  | none => rfl
  | some n =>
    cases n with
    | file _ => rfl
    | link _ => rfl
    | directory =>
      dsimp only
      rw [enter_append, hguard]
      split_ifs <;> first | rfl | simp_all

/-- Following parts and then more parts follows the first, and goes on from where they lead with the
links that may still be met. -/
lemma follow_append (links : Nat) (l : Location) (ps : List Text) :
    ∃ k, ∀ purpose qs, (purpose = .content ∨ ¬qs.all List.isEmpty) →
      t.follow purpose links l (ps ++ qs)
        = t.follow .content links l ps >>= fun l' => t.follow purpose k l' qs := by
  induction links, l, ps using followInduction t .content with
  | nil links l =>
    refine ⟨links, fun purpose qs _ => ?_⟩
    rw [follow_nil]
    rfl
  | cons links l part parts ih =>
    cases hs : t.stepInto .content links l part parts with
    | error e =>
      refine ⟨0, fun purpose qs hqs => ?_⟩
      rw [List.cons_append, follow_cons, follow_cons, stepInto_append hqs, hs]
      rfl
    | ok s =>
      obtain ⟨k, hk⟩ := ih s hs
      refine ⟨k, fun purpose qs hqs => ?_⟩
      rw [List.cons_append, follow_cons, follow_cons, stepInto_append hqs, hs]
      exact hk purpose qs hqs

/-- A path that ends in an empty part leads to a directory. -/
lemma isDirectory_of_follow {l' : Location} {ps : List Text}
    (h : t.follow .content links l (ps ++ [[]]) = .ok l') :
    t.get? l' = some .directory ∧ t.follow .content links l ps = .ok l' := by
  obtain ⟨k, hk⟩ := follow_append (t := t) links l ps
  rw [hk _ _ (.inl rfl), bind_eq_ok_iff] at h
  obtain ⟨l₁, hps, h⟩ := h
  rw [follow_cons, bind_eq_ok_iff] at h
  obtain ⟨s, hs, h⟩ := h
  obtain ⟨hdir, _⟩ := stepped_of_stepInto hs
  have hstay : s = (k, l₁, []) := by
    simpa [stepInto, hdir] using hs.symm
  subst hstay
  rw [follow_nil] at h
  cases h
  exact ⟨hdir, hps⟩

/-- A part that can be taken for content can be taken for creation, unless only empty parts are
left. -/
lemma stepInto_creation (h : t.stepInto .content links l part parts = .ok s)
    (hparts : parts ≠ [] → ¬parts.all List.isEmpty) :
    t.stepInto .creation links l part parts = .ok s := by
  have hguard : (decide (Purpose.creation = .creation) && !parts.isEmpty && parts.all List.isEmpty)
      = false := by
    cases parts with
    | nil => rfl
    | cons p ps => simpa using hparts (List.cons_ne_nil p ps)
  have henter (h : t.enter .content links l part parts = .ok s) :
      t.enter .creation links l part parts = .ok s := by
    unfold enter at h ⊢
    cases hn : t.get? (l ++ [part]) with
    | none => simp [hn] at h
    | some n => cases n <;> simpa [hn] using h
  unfold stepInto at h ⊢
  split at h
  case h_1 hdir =>
    split_ifs at h with hstay hup hempty hlong
    · rw [if_pos hstay]
      exact h
    · rw [if_neg hstay, if_pos hup]
      exact h
    · rw [if_neg hstay, if_neg hup, if_neg (hguard ▸ Bool.false_ne_true), if_neg hlong]
      exact henter h
  case h_2 => cases h

/-- What leads to a file for content leads there for creation too. -/
lemma follow_creation {l' : Location} {bytes : ByteArray} (hfile : t.get? l' = some (.file bytes))
    (h : t.follow .content links l parts = .ok l') : t.follow .creation links l parts = .ok l' := by
  induction links, l, parts using followInduction t .content with
  | nil links l =>
    rw [follow_nil] at h ⊢
    exact h
  | cons links l part parts ih =>
    have hparts : parts ≠ [] → ¬parts.all List.isEmpty := by
      -- Empty parts at the end would lead to a directory, and not to a file.
      intro hne hall
      have hlast : parts.getLast hne = [] := by
        simpa using List.all_eq_true.1 hall _ (List.getLast_mem hne)
      rw [← List.dropLast_concat_getLast hne, hlast, ← List.cons_append] at h
      have := (isDirectory_of_follow h).1
      rw [hfile] at this
      cases this
    rw [follow_cons, bind_eq_ok_iff] at h
    obtain ⟨s, hs, h⟩ := h
    rw [follow_cons, stepInto_creation hs hparts]
    exact ih s hs h

end SpdxHeaders.FileTree
