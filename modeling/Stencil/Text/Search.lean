/-
Finding, cutting and replacing in a text. Positions count characters. Every
search goes by `indexOf?`, the first place where the pattern starts.
-/
namespace Stencil.Text

/-- The first place where `p` starts. The empty pattern starts at once. -/
def indexOf? (p : List Char) : List Char → Option Nat
  | [] => if p.isEmpty then some 0 else none
  | c :: s =>
    if p.isPrefixOf (c :: s) then some 0 else (indexOf? p s).map (· + 1)

/-- What stands before and after the first `p`. -/
def breakOn? (p s : List Char) : Option (List Char × List Char) :=
  (indexOf? p s).map fun i => (s.take i, s.drop (i + p.length))

/-- Some part of the text is `p`. -/
def occurs (p s : List Char) : Bool := (indexOf? p s).isSome

/-- Replaces from left to right, passing over `skip` characters that belong
to the occurrence just replaced. -/
def replaceFrom (p r : List Char) : Nat → List Char → List Char
  | _, [] => []
  | skip + 1, _ :: s => replaceFrom p r skip s
  | 0, c :: s =>
    if p.isPrefixOf (c :: s) then r ++ replaceFrom p r (p.length - 1) s
    else c :: replaceFrom p r 0 s

/-- Every `p` replaced by `r`; the empty pattern is never replaced. -/
def replaceAll (p r s : List Char) : List Char :=
  if p.isEmpty then s else replaceFrom p r 0 s

/-- The pieces between separators, empty ones included. -/
def pieces (separates : Char → Bool) : List Char → List (List Char)
  | [] => [[]]
  | c :: s =>
    if separates c then [] :: pieces separates s
    else
      match pieces separates s with
      | [] => [[c]]
      | w :: ws => (c :: w) :: ws

/-- The pieces between separators that hold something. -/
def fields (separates : Char → Bool) (s : List Char) : List (List Char) :=
  (pieces separates s).filter fun w => !w.isEmpty

/-- The length in bytes of the text's encoding in UTF-8. -/
def width : List Char → Nat
  | [] => 0
  | c :: s => c.utf8Size + width s

/-- The same text when ASCII letters may differ in case. -/
def sameIgnoringCase (s t : List Char) : Bool :=
  s.map Char.toLower == t.map Char.toLower

-- ================================================================= facts

theorem indexOf?_le_length {p s : List Char} {i : Nat}
    (h : indexOf? p s = some i) : i + p.length ≤ s.length := by
  induction s generalizing i with
  | nil =>
    simp only [indexOf?] at h
    split at h
    · next hp => cases h; simp_all
    · cases h
  | cons c s ih =>
    simp only [indexOf?] at h
    split at h
    · next hp =>
      cases h
      have := (List.isPrefixOf_iff_prefix.1 hp).length_le
      omega
    · obtain ⟨j, hj, rfl⟩ := Option.map_eq_some_iff.1 h
      have := ih hj
      simp only [List.length_cons]
      omega

/-- Cutting at the first `p` loses nothing but the `p`. -/
theorem eq_append_of_breakOn? {p s a b : List Char}
    (h : breakOn? p s = some (a, b)) : s = a ++ p ++ b := by
  obtain ⟨i, hi, he⟩ := Option.map_eq_some_iff.1 h
  cases he
  clear h
  induction s generalizing i with
  | nil =>
    simp only [indexOf?] at hi
    split at hi
    · next hp => cases hi; simp_all
    · cases hi
  | cons c s ih =>
    simp only [indexOf?] at hi
    split at hi
    · next hp =>
      cases hi
      obtain ⟨t, ht⟩ := List.isPrefixOf_iff_prefix.1 hp
      rw [← ht]
      simp
    · obtain ⟨j, hj, rfl⟩ := Option.map_eq_some_iff.1 hi
      have := ih j hj
      simp only [List.take_succ_cons, List.cons_append]
      rw [show j + 1 + p.length = (j + p.length) + 1 by omega,
        List.drop_succ_cons]
      exact congrArg _ this

theorem width_append (s t : List Char) :
    width (s ++ t) = width s + width t := by
  induction s with
  | nil => simp [width]
  | cons c s ih => simp [width, ih, Nat.add_assoc]

end Stencil.Text
