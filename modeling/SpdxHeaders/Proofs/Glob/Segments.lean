import SpdxHeaders.Glob.Parser
import SpdxHeaders.Proofs.Glob.Bytes
import SpdxHeaders.Proofs.Text.Pieces

/-!
# Globs of plain patterns

A plain pattern has no other signs than single stars. It is always a glob, and stands for the paths
that fit it segment by segment (`exists_glob_of_plain`): a star stays within one name, so that a
path has as many segments as the pattern.
-/

namespace SpdxHeaders.Glob

open String (utf8EncodeChar)
open Text (pieces)

/-- The pattern has single stars, and no other character that does not stand for itself. -/
structure Plain (pattern : Text) : Prop where
  chars : ∀ c ∈ pattern, c ∉ "?[]{}\\".toList
  stars : ¬"**".toList <:+: pattern

/-- A text fits a pattern: a star stands for any run of characters, and any other character for
itself, up to the case of ASCII letters. -/
inductive Fits : (pattern name : Text) → Prop where
  | nil : Fits [] []
  | star {pattern name : Text} (run : Text) (h : Fits pattern name) :
    Fits ('*' :: pattern) (run ++ name)
  | letter {c d : Char} {pattern name : Text} (hc : c ≠ '*') (hd : c.toLower = d.toLower)
    (h : Fits pattern name) : Fits (c :: pattern) (d :: name)

/-- A pattern without a star only fits what is the same up to case. -/
lemma fits_iff_of_notMem {pattern name : Text} (hstar : '*' ∉ pattern) :
    Fits pattern name ↔ pattern.map Char.toLower = name.map Char.toLower := by
  constructor
  · intro h
    induction h with
    | nil => rfl
    | star => exact absurd List.mem_cons_self hstar
    | letter _ hd _ ih =>
      rw [List.map_cons, List.map_cons, hd, ih (fun h => hstar (List.mem_cons_of_mem _ h))]
  · intro h
    induction pattern generalizing name with
    | nil =>
      obtain rfl := List.map_eq_nil_iff.1 h.symm
      exact .nil
    | cons c pattern ih =>
      obtain ⟨hc, hpattern⟩ := not_or.1 (mt List.mem_cons.2 hstar)
      obtain ⟨d, name, rfl, hd, hname⟩ := List.map_eq_cons_iff.1 h.symm
      exact .letter (Ne.symm hc) hd.symm (ih hpattern hname.symm)

/-- A path fits a pattern as a whole, the runs that stars stand for being without slashes. -/
inductive FitsPath : (pattern path : Text) → Prop where
  | nil : FitsPath [] []
  | star {pattern path run : Text} (hrun : '/' ∉ run) (h : FitsPath pattern path) :
    FitsPath ('*' :: pattern) (run ++ path)
  | letter {c d : Char} {pattern path : Text} (hc : c ≠ '*') (hd : c.toLower = d.toLower)
    (h : FitsPath pattern path) : FitsPath (c :: pattern) (d :: path)

/-- What a character of a plain pattern stands for. -/
def tokenOf (c : Char) : Token :=
  if c = '*' then .many else .literal c

variable {c : Char} {a b p pattern : Text} {r s : List UInt8} {token : Token}
  {tokens : List Token} {caseless : Bool}

/-- The end of a plain pattern is plain. -/
lemma Plain.of_suffix (h : Plain pattern) (hsuffix : a <:+ pattern) : Plain a :=
  ⟨fun d hd => h.chars d (hsuffix.mem hd), fun hstars => h.stars (hstars.trans hsuffix.isInfix)⟩

/-- The rest of a plain pattern is plain. -/
lemma Plain.of_cons (h : Plain (c :: pattern)) : Plain pattern :=
  h.of_suffix (List.suffix_cons ..)

/-- In a plain pattern no star follows a star. -/
lemma Plain.head?_ne (h : Plain ('*' :: pattern)) : pattern.head? ≠ some '*' := by
  intro hhead
  obtain ⟨t, rfl⟩ := List.head?_eq_some_iff.1 hhead
  exact h.stars ⟨[], t, rfl⟩

/-- No character stands for directories in front. -/
lemma leading_notMem : Token.leading ∉ pattern.map tokenOf := by
  rw [List.mem_map]
  rintro ⟨c, -, hc⟩
  unfold tokenOf at hc
  split at hc <;> cases hc

/-- A character that stands for itself is read so outside of braces. -/
lemma readTokens_letter (hc : c ∉ "?[]{}\\".toList) (hstar : c ≠ '*') (prev : Option Char)
    (before : List Token) (t : Text) :
    readTokens .strict prev ⟨before, []⟩ (c :: t)
      = readTokens .strict (some c) ⟨.literal c :: before, []⟩ t := by
  have hc : c ∉ ['?', '[', ']', '{', '}', '\\'] := hc
  simp only [List.mem_cons, List.not_mem_nil, or_false, not_or] at hc
  obtain ⟨h1, h2, -, h4, h5, h6⟩ := hc
  by_cases hcomma : c = ','
  · subst hcomma
    rw [readTokens]
    rfl
  · rw [readTokens]
    · rfl
    all_goals simp_all

/-- A plain pattern is read character by character. -/
lemma readTokens_of_plain (h : Plain pattern) (prev : Option Char) (before : List Token) :
    readTokens .strict prev ⟨before, []⟩ pattern = .ok (before.reverse ++ pattern.map tokenOf) := by
  induction pattern generalizing prev before with
  | nil => simp [readTokens]
  | cons c pattern ih =>
    have ih := ih h.of_cons
    by_cases hstar : c = '*'
    · subst hstar
      rw [readTokens, Draft.push, ih, List.reverse_cons, List.append_assoc, List.map_cons]
      · rfl
      · rintro t rfl
        exact h.head?_ne rfl
    · rw [readTokens_letter (h.chars c List.mem_cons_self) hstar, ih, List.reverse_cons,
        List.append_assoc, List.map_cons, tokenOf, if_neg hstar]
      rfl

/-- What is left of several texts is what is left of one of them. -/
lemma mem_seqRests_iff {rs : List (List UInt8)} :
    r ∈ seqRests caseless tokens rs ↔ ∃ s ∈ rs, r ∈ seqRests caseless tokens [s] := by
  induction tokens generalizing rs with
  | nil => simp [seqRests]
  | cons token tokens ih =>
    simp only [seqRests]
    rw [ih]
    constructor
    · rintro ⟨t, ht, hr⟩
      obtain ⟨s, hs, hts⟩ := List.mem_flatMap.1 (List.mem_eraseDups.1 ht)
      refine ⟨s, hs, ih.2 ⟨t, ?_, hr⟩⟩
      simpa using hts
    · rintro ⟨s, hs, hr⟩
      obtain ⟨t, ht, hr⟩ := ih.1 hr
      refine ⟨t, List.mem_eraseDups.2 (List.mem_flatMap.2 ⟨s, hs, ?_⟩), hr⟩
      simpa using ht

/-- What a sequence of tokens can leave, told by what its first token can leave. -/
lemma mem_seqRests_cons_iff :
    r ∈ seqRests caseless (token :: tokens) [s] ↔
      ∃ t ∈ token.rests caseless s, r ∈ seqRests caseless tokens [t] := by
  rw [seqRests, mem_seqRests_iff]
  simp

/-- A star takes off a run without slashes. -/
lemma mem_endsWithinName_iff : r ∈ endsWithinName s ↔ ∃ run, s = run ++ r ∧ slash ∉ run := by
  induction s with
  | nil => simp [endsWithinName]
  | cons b s ih =>
    unfold endsWithinName
    split
    case isTrue hb =>
      constructor
      · intro h
        exact ⟨[], (List.mem_singleton.1 h).symm, List.not_mem_nil⟩
      · rintro ⟨run, e, hrun⟩
        cases run with
        | nil => exact List.mem_singleton.2 e.symm
        | cons x run =>
          obtain ⟨rfl, -⟩ := List.cons.inj e
          exact absurd (hb ▸ List.mem_cons_self) hrun
    case isFalse hb =>
      rw [List.mem_cons, ih]
      constructor
      · rintro (rfl | ⟨run, rfl, hrun⟩)
        · exact ⟨[], rfl, List.not_mem_nil⟩
        · exact ⟨b :: run, rfl, by simpa [Ne.symm hb] using hrun⟩
      · rintro ⟨run, e, hrun⟩
        cases run with
        | nil => exact .inl e.symm
        | cons x run =>
          obtain ⟨rfl, rfl⟩ := List.cons.inj e
          exact .inr ⟨run, rfl, fun hmem => hrun (List.mem_cons_of_mem _ hmem)⟩

/-- A plain pattern does not match where no character begins, unless it begins with a star. -/
lemma not_continues_of_match (hstar : pattern.head? ≠ some '*')
    (h : [] ∈ seqRests true (pattern.map tokenOf) [s]) : ∀ b ∈ s.head?, ¬Continues b := by
  cases pattern with
  | nil =>
    obtain rfl : s = [] := by simpa [seqRests] using h
    exact nofun
  | cons c pattern =>
    have hc : c ≠ '*' := fun hc => hstar (congrArg some hc)
    rw [List.map_cons, mem_seqRests_cons_iff, tokenOf, if_neg hc] at h
    obtain ⟨t, ht, -⟩ := h
    rw [Token.rests, Option.mem_toList] at ht
    exact not_continues_of_afterBytes? ht

/-- The tokens of a plain pattern match the bytes of the paths that fit it. -/
lemma match_iff_fitsPath (h : Plain pattern) :
    [] ∈ seqRests true (pattern.map tokenOf) [bytesOf p] ↔ FitsPath pattern p := by
  induction pattern generalizing p with
  | nil =>
    have hp : [] ∈ seqRests true ([].map tokenOf) [bytesOf p] ↔ p = [] := by
      rw [List.map_nil, seqRests, List.mem_singleton, eq_comm, bytesOf_eq_nil_iff]
    rw [hp]
    constructor
    · rintro rfl
      exact .nil
    · rintro ⟨⟩
      rfl
  | cons c pattern ih =>
    rw [List.map_cons, mem_seqRests_cons_iff, tokenOf]
    by_cases hc : c = '*'
    · subst hc
      rw [if_pos rfl]
      simp only [Token.rests, mem_endsWithinName_iff]
      constructor
      · rintro ⟨t, ⟨run, hp, hrun⟩, ht⟩
        -- The star stops where a character begins, as the next token takes one off there.
        obtain ⟨q, p', rfl, rfl, rfl⟩ :=
          exists_bytesOf_eq hp (not_continues_of_match h.head?_ne ht)
        exact .star (mt slash_mem_bytesOf_iff.2 hrun) ((ih h.of_cons).1 ht)
      · intro hfits
        cases hfits with
        | star hrun hfits =>
          exact ⟨_, ⟨_, bytesOf_append .., mt slash_mem_bytesOf_iff.1 hrun⟩, (ih h.of_cons).2 hfits⟩
        | letter hc => exact absurd rfl hc
    · rw [if_neg hc]
      simp only [Token.rests, Option.mem_toList, afterBytes?_utf8EncodeChar_iff]
      constructor
      · rintro ⟨_, ⟨d, p', rfl, hd, rfl⟩, hmatch⟩
        exact .letter hc hd ((ih h.of_cons).1 hmatch)
      · intro hfits
        cases hfits with
        | star => exact absurd rfl hc
        | letter _ hd hfits =>
          exact ⟨_, ⟨_, _, rfl, hd, rfl⟩, (ih h.of_cons).2 hfits⟩

/-- A path fits two patterns in a row just if it has a part for each. -/
lemma FitsPath.append_iff :
    FitsPath (a ++ b) p ↔ ∃ q r, p = q ++ r ∧ FitsPath a q ∧ FitsPath b r := by
  constructor
  · intro h
    induction a generalizing p with
    | nil => exact ⟨[], p, rfl, .nil, h⟩
    | cons c a ih =>
      cases h with
      | star hrun h =>
        obtain ⟨q, r, rfl, hq, hr⟩ := ih h
        exact ⟨_, r, (List.append_assoc ..).symm, .star hrun hq, hr⟩
      | letter hc hd h =>
        obtain ⟨q, r, rfl, hq, hr⟩ := ih h
        exact ⟨_, r, rfl, .letter hc hd hq, hr⟩
  · rintro ⟨q, r, rfl, hq, hr⟩
    induction hq with
    | nil => exact hr
    | star hrun _ ih =>
      rw [List.append_assoc]
      exact .star hrun ih
    | letter hc hd _ ih => exact .letter hc hd ih

/-- A slash fits nothing else than a slash. -/
lemma FitsPath.slash_iff : FitsPath ('/' :: b) p ↔ ∃ r, p = '/' :: r ∧ FitsPath b r := by
  constructor
  · intro h
    cases h with
    | letter _ hd h =>
      obtain rfl := toLower_eq_slash_iff.1 hd.symm
      exact ⟨_, rfl, h⟩
  · rintro ⟨r, rfl, h⟩
    exact .letter (by decide) rfl h

/-- Without a slash, a pattern fits names only. -/
lemma FitsPath.iff_fits (ha : '/' ∉ a) : FitsPath a p ↔ Fits a p ∧ '/' ∉ p := by
  constructor
  · intro h
    induction h with
    | nil => exact ⟨.nil, List.not_mem_nil⟩
    | star hrun _ ih =>
      obtain ⟨hfits, hp⟩ := ih (fun h => ha (List.mem_cons_of_mem _ h))
      refine ⟨.star _ hfits, fun hmem => ?_⟩
      exact (List.mem_append.1 hmem).elim hrun hp
    | @letter c d _ _ hc hd _ ih =>
      obtain ⟨hfits, hp⟩ := ih (fun h => ha (List.mem_cons_of_mem _ h))
      refine ⟨.letter hc hd hfits, fun hmem => ?_⟩
      rcases List.mem_cons.1 hmem with rfl | hmem
      · exact ha (List.mem_cons.2 (.inl (toLower_eq_slash_iff.1 hd).symm))
      · exact hp hmem
  · rintro ⟨h, hp⟩
    induction h with
    | nil => exact .nil
    | star run _ ih =>
      rw [List.mem_append, not_or] at hp
      exact .star hp.1 (ih (fun h => ha (List.mem_cons_of_mem _ h)) hp.2)
    | letter hc hd _ ih =>
      rw [List.mem_cons, not_or] at ha hp
      exact .letter hc hd (ih ha.2 hp.2)

/-- A path fits a pattern as a whole just if it does segment by segment. -/
lemma fitsPath_iff_forall₂ :
    FitsPath pattern p ↔ List.Forall₂ Fits (pieces '/' pattern) (pieces '/' p) := by
  induction pattern using Text.pieces_induction '/' generalizing p with
  | piece a ha =>
    rw [Text.pieces_of_notMem ha, FitsPath.iff_fits ha]
    constructor
    · rintro ⟨hfits, hp⟩
      rw [Text.pieces_of_notMem hp]
      exact .cons hfits .nil
    · intro h
      by_cases hp : '/' ∈ p
      · obtain ⟨q, r, rfl, hq⟩ := List.eq_append_cons_of_mem hp
        rw [Text.pieces_cons hq] at h
        cases h with
        | cons _ hrest => exact absurd (List.forall₂_nil_left_iff.1 hrest) (Text.pieces_ne_nil _ _)
      · rw [Text.pieces_of_notMem hp] at h
        cases h with
        | cons hfits _ => exact ⟨hfits, hp⟩
  | cons a b ha ih =>
    rw [Text.pieces_cons ha, FitsPath.append_iff]
    simp only [FitsPath.slash_iff, FitsPath.iff_fits ha, ih]
    constructor
    · rintro ⟨q, _, rfl, ⟨hfits, hq⟩, r, rfl, hrest⟩
      rw [Text.pieces_cons hq]
      exact .cons hfits hrest
    · intro h
      by_cases hp : '/' ∈ p
      · obtain ⟨q, r, rfl, hq⟩ := List.eq_append_cons_of_mem hp
        rw [Text.pieces_cons hq] at h
        cases h with
        | cons hfits hrest => exact ⟨q, _, rfl, ⟨hfits, hq⟩, r, rfl, hrest⟩
      · rw [Text.pieces_of_notMem hp] at h
        cases h with
        | cons _ hrest => exact absurd (List.forall₂_nil_right_iff.1 hrest) (Text.pieces_ne_nil _ _)

/-- A plain pattern is a glob, and stands for the paths that fit it segment by segment. -/
lemma exists_glob_of_plain (h : Plain pattern) :
    ∃ glob, ofPattern .strict true pattern = .ok glob ∧ ∀ p, glob.isMatch p = true ↔
      List.Forall₂ Fits (pieces '/' pattern) (pieces '/' p) := by
  refine ⟨⟨pattern.map tokenOf, true⟩, ?_, fun p => ?_⟩
  · rw [ofPattern, readTokens_of_plain h]
    rfl
  · rw [← fitsPath_iff_forall₂, ← match_iff_fitsPath h]
    unfold isMatch
    dsimp only
    split
    case h_1 hleading => exact absurd (hleading ▸ List.mem_singleton.2 rfl) leading_notMem
    case h_2 => exact List.contains_iff_mem

end SpdxHeaders.Glob
