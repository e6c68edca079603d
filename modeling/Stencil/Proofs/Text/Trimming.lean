/-
Trimming a text that is two texts in a row. An end is trimmed in the outer one;
only if that is white space altogether does trimming go on in the other.
-/
import Stencil.Text.Blank

namespace Stencil.Text

variable {s t : List Char}

theorem dropBlank_append_of_blank (h : s.all isBlank = true) :
    dropBlank (s ++ t) = dropBlank t := by
  unfold dropBlank
  rw [List.dropWhile_append, if_pos]
  exact List.isEmpty_iff.2 (dropBlank_eq_nil.2 h)

theorem dropBlank_append_of_filled (h : s.all isBlank = false) :
    dropBlank (s ++ t) = dropBlank s ++ t := by
  have filled : dropBlank s ≠ [] := fun hnil =>
    Bool.false_ne_true (h.symm.trans (dropBlank_eq_nil.1 hnil))
  unfold dropBlank at filled ⊢
  rw [List.dropWhile_append, if_neg fun hempty => filled (List.isEmpty_iff.1 hempty)]

theorem dropBlankEnd_append_of_blank (h : t.all isBlank = true) :
    dropBlankEnd (s ++ t) = dropBlankEnd s := by
  have hrev : t.reverse.all isBlank = true := List.all_reverse.trans h
  have dropped := dropBlank_append_of_blank (t := s.reverse) hrev
  unfold dropBlank at dropped
  unfold dropBlankEnd
  rw [List.reverse_append, dropped]

theorem dropBlankEnd_append_of_filled (h : t.all isBlank = false) :
    dropBlankEnd (s ++ t) = s ++ dropBlankEnd t := by
  have hrev : t.reverse.all isBlank = false := List.all_reverse.trans h
  have dropped := dropBlank_append_of_filled (t := s.reverse) hrev
  unfold dropBlank at dropped
  unfold dropBlankEnd
  rw [List.reverse_append, dropped, List.reverse_append, List.reverse_reverse]

end Stencil.Text
