import Mathlib.Data.List.Infix
import Mathlib.Tactic.Lemma
import SpdxHeaders.Text.Basic

/-!
# Lines of a text

Every line of a text is a part of it (`isInfix_of_mem_lines`) and holds no line feed
(`lineFeed_notMem_of_mem_lines`).
-/

namespace SpdxHeaders.Text

variable {t l : Text} {ls : List Text}

/-- A text begins with its first line. -/
lemma isPrefix_of_lines_eq_cons (h : lines t = l :: ls) : l <+: t := by
  fun_induction lines t generalizing l ls with
  | case1 => cases h
  | case2 t _ =>
    cases h
    exact List.nil_prefix
  | case3 t _ =>
    cases h
    exact List.nil_prefix
  | case4 c t _ _ _ _ =>
    cases h
    exact List.cons_prefix_cons.2 ⟨rfl, List.nil_prefix⟩
  | case5 c t _ _ l' ls' hcons ih =>
    cases h
    exact List.cons_prefix_cons.2 ⟨rfl, ih hcons⟩

/-- Every line is a part of the text. -/
lemma isInfix_of_mem_lines (h : l ∈ lines t) : l <:+: t := by
  fun_induction lines t with
  | case1 => cases h
  | case2 t ih =>
    rcases List.mem_cons.1 h with rfl | h
    · exact List.nil_infix
    · exact (ih h).trans (List.suffix_cons _ _).isInfix
  | case3 t ih =>
    rcases List.mem_cons.1 h with rfl | h
    · exact List.nil_infix
    · exact (ih h).trans ((List.suffix_cons _ _).trans (List.suffix_cons _ _)).isInfix
  | case4 c t _ _ _ _ =>
    obtain rfl := List.mem_singleton.1 h
    exact (List.cons_prefix_cons.2 ⟨rfl, List.nil_prefix⟩).isInfix
  | case5 c t _ _ l' ls' hcons ih =>
    rw [hcons] at ih
    rcases List.mem_cons.1 h with rfl | h
    · exact (List.cons_prefix_cons.2 ⟨rfl, isPrefix_of_lines_eq_cons hcons⟩).isInfix
    · exact (ih (List.mem_cons_of_mem _ h)).trans (List.suffix_cons _ _).isInfix

/-- No line holds a line feed. -/
lemma lineFeed_notMem_of_mem_lines (h : l ∈ lines t) : '\n' ∉ l := by
  fun_induction lines t generalizing l with
  | case1 => cases h
  | case2 t ih =>
    rcases List.mem_cons.1 h with rfl | h
    · exact List.not_mem_nil
    · exact ih h
  | case3 t ih =>
    rcases List.mem_cons.1 h with rfl | h
    · exact List.not_mem_nil
    · exact ih h
  | case4 c t hfeed _ _ _ =>
    obtain rfl := List.mem_singleton.1 h
    exact List.not_mem_cons_of_ne_of_not_mem (Ne.symm hfeed) List.not_mem_nil
  | case5 c t hfeed _ l' ls' hcons ih =>
    rw [hcons] at ih
    rcases List.mem_cons.1 h with rfl | h
    · exact List.not_mem_cons_of_ne_of_not_mem (Ne.symm hfeed) (ih List.mem_cons_self)
    · exact ih (List.mem_cons_of_mem _ h)

end SpdxHeaders.Text
