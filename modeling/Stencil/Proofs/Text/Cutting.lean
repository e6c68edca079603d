/-
Cutting a text at the first place of a pattern, and replacing place by place.

What stands before the first place has none itself; with something put behind
it that does not complete a place, it stays in front of the first one.
-/
import Stencil.Text.Search

namespace Stencil.Text

variable {p : List Char}

theorem breakOn?_nil (hp : p ≠ []) : breakOn? p [] = none := by
  cases p with
  | nil => exact absurd rfl hp
  | cons c p => rfl

/-- Where the pattern begins a text it is found at once. -/
theorem breakOn?_append_self (hp : p ≠ []) (s : List Char) :
    breakOn? p (p ++ s) = some ([], s) := by
  cases p with
  | nil => exact absurd rfl hp
  | cons c p =>
    have hfront : (c :: p).isPrefixOf (c :: (p ++ s)) = true :=
      List.isPrefixOf_iff_prefix.2 (List.prefix_append (c :: p) s)
    unfold breakOn?
    rw [List.cons_append, indexOf?, if_pos hfront]
    show some ([], (c :: p ++ s).drop (0 + (c :: p).length)) = _
    rw [Nat.zero_add, List.drop_left]

/-- Else the search goes on behind the first character. -/
theorem breakOn?_cons {c : Char} {s : List Char} (h : ¬ p <+: c :: s) :
    breakOn? p (c :: s) = (breakOn? p s).map fun (a, b) => (c :: a, b) := by
  unfold breakOn?
  rw [indexOf?, if_neg fun hb => h (List.isPrefixOf_iff_prefix.1 hb)]
  cases indexOf? p s with
  | none => rfl
  | some i =>
    show some ((c :: s).take (i + 1), (c :: s).drop (i + 1 + p.length)) = _
    rw [show i + 1 + p.length = (i + p.length) + 1 by omega,
      List.drop_succ_cons]
    rfl

/-- A pattern that is found in a text begins it, or is found behind its first
character. -/
theorem breakOn?_cons_eq_some {c : Char} {s a b : List Char} (hp : p ≠ [])
    (h : breakOn? p (c :: s) = some (a, b)) :
    (a = [] ∧ c :: s = p ++ b)
    ∨ ∃ a', a = c :: a' ∧ breakOn? p s = some (a', b)
      ∧ ¬ p <+: c :: s := by
  by_cases hfront : p <+: c :: s
  · obtain ⟨t, ht⟩ := hfront
    rw [← ht, breakOn?_append_self hp] at h
    cases h
    exact .inl ⟨rfl, ht.symm⟩
  · rw [breakOn?_cons hfront] at h
    obtain ⟨⟨a', b'⟩, hs, heq⟩ := Option.map_eq_some_iff.1 h
    cases heq
    exact .inr ⟨a', rfl, hs, hfront⟩

/-- Before the first place there is none. -/
theorem breakOn?_before (hp : p ≠ []) {s a b : List Char}
    (h : breakOn? p s = some (a, b)) : breakOn? p a = none := by
  induction s generalizing a with
  | nil =>
    rw [breakOn?_nil hp] at h
    cases h
  | cons c s ih =>
    rcases breakOn?_cons_eq_some hp h with ⟨rfl, -⟩ | ⟨a', rfl, hs, hfront⟩
    · exact breakOn?_nil hp
    · have hlonger : ¬ p <+: c :: a' := by
        rintro hfront'
        refine hfront (hfront'.trans ?_)
        rw [eq_append_of_breakOn? hs, List.append_assoc, ← List.cons_append]
        exact List.prefix_append ..
      rw [breakOn?_cons hlonger, ih hs]
      rfl

-- ================================================================= pieces

/-- A piece holds characters of the text, and no separator. -/
theorem mem_of_mem_pieces {separates : Char → Bool} {s w : List Char} {c : Char}
    (hw : w ∈ pieces separates s) (hc : c ∈ w) :
    c ∈ s ∧ separates c = false := by
  induction s generalizing w with
  | nil =>
    rw [pieces, List.mem_singleton] at hw
    subst hw
    exact absurd hc nofun
  | cons d s ih =>
    rw [pieces] at hw
    split at hw
    · rcases List.mem_cons.1 hw with rfl | hw
      · exact absurd hc nofun
      · exact ⟨List.mem_cons_of_mem d (ih hw hc).1, (ih hw hc).2⟩
    · next hkept =>
      have hd : d ∈ d :: s ∧ separates d = false :=
        ⟨List.mem_cons_self, Bool.eq_false_iff.2 hkept⟩
      split at hw
      · rw [List.mem_singleton] at hw
        subst hw
        rw [List.mem_singleton.1 hc]
        exact hd
      · next first rest hpieces =>
        rw [hpieces] at ih
        rcases List.mem_cons.1 hw with rfl | hw
        · rcases List.mem_cons.1 hc with rfl | hc
          · exact hd
          -- the first piece is one that begins further behind, with this
          -- character in front
          · have hbehind := ih List.mem_cons_self hc
            exact ⟨List.mem_cons_of_mem d hbehind.1, hbehind.2⟩
        · have hbehind := ih (List.mem_cons_of_mem first hw) hc
          exact ⟨List.mem_cons_of_mem d hbehind.1, hbehind.2⟩

-- ============================================================== replacing

theorem replaceFrom_eq_drop (p r : List Char) (skip : Nat) (s : List Char) :
    replaceFrom p r skip s = replaceFrom p r 0 (s.drop skip) := by
  induction s generalizing skip with
  | nil =>
    rw [List.drop_nil]
    rfl
  | cons c s ih =>
    cases skip with
    | zero => rfl
    | succ skip =>
      rw [replaceFrom, List.drop_succ_cons]
      exact ih skip

/-- Replacing goes from the first place on. -/
theorem replaceAll_eq (hp : p ≠ []) (r s : List Char) :
    replaceAll p r s
      = match breakOn? p s with
        | none => s
        | some (a, b) => a ++ r ++ replaceAll p r b := by
  have hall (s : List Char) : replaceAll p r s = replaceFrom p r 0 s :=
    if_neg fun he => hp (List.isEmpty_iff.1 he)
  induction s with
  | nil =>
    rw [breakOn?_nil hp, hall]
    rfl
  | cons c s ih =>
    rw [hall, replaceFrom]
    split
    · next hfront =>
      obtain ⟨t, ht⟩ := List.isPrefixOf_iff_prefix.1 hfront
      -- of what was found the first character is passed already
      have hdrop : s.drop (p.length - 1) = t := by
        cases p with
        | nil => exact absurd rfl hp
        | cons d p =>
          cases ht
          exact List.drop_left
      rw [replaceFrom_eq_drop, hdrop, ← ht, breakOn?_append_self hp]
      dsimp only
      rw [hall, List.nil_append]
    · next hfront =>
      rw [breakOn?_cons fun h => hfront (List.isPrefixOf_iff_prefix.2 h),
        ← hall, ih]
      cases breakOn? p s with
      | none => rfl
      | some q => rfl

-- ============================================================= occurrences

/-- A pattern occurs in a text if the text has a part that is the pattern. -/
theorem occurs_iff {s : List Char} : occurs p s = true ↔ p <:+: s := by
  unfold occurs
  induction s with
  | nil =>
    rw [indexOf?, List.infix_nil]
    split
    · next h => exact iff_of_true rfl (List.isEmpty_iff.1 h)
    · next h =>
      exact iff_of_false Bool.false_ne_true fun he => h (List.isEmpty_iff.2 he)
  | cons c s ih =>
    rw [indexOf?, List.infix_cons_iff, ← List.isPrefixOf_iff_prefix]
    split
    · next h => exact iff_of_true rfl (.inl h)
    · next h => rw [Option.isSome_map, ih, or_iff_right h]

-- ================================================================ readings

/-- What a row of readings gave is each from something read. -/
theorem exists_of_mem_mapM {α β : Type} {f : α → Option β} {as : List α}
    {bs : List β} (h : as.mapM f = some bs) {b : β} (hb : b ∈ bs) :
    ∃ a ∈ as, f a = some b := by
  induction as generalizing bs with
  | nil =>
    cases h
    exact absurd hb nofun
  | cons a as ih =>
    rw [List.mapM_cons] at h
    obtain ⟨b', hb', h⟩ := Option.bind_eq_some_iff.1 h
    obtain ⟨bs', hbs', h⟩ := Option.bind_eq_some_iff.1 h
    cases h
    rcases List.mem_cons.1 hb with rfl | hb
    · exact ⟨a, List.mem_cons_self, hb'⟩
    · obtain ⟨x, hx, hfx⟩ := ih hbs' hb
      exact ⟨x, List.mem_cons_of_mem a hx, hfx⟩

end Stencil.Text
