/-
The functions that search and cut texts.

All of them go by the first place where one text stands in the other
(`Text.indexOf?`), told as a position, as what stands before and behind it, or as
whether there is one. What ties them together is that nothing before that place
is left out and nothing is counted twice (`Text.eq_append_of_breakOn?`), and that
no earlier place will do (`Text.indexOf?_least`). Positions are whole numbers of 64
bits, so the text that is searched must not be longer than they count; no text in
memory is.
-/
import Stencil.Expr.Library
import Stencil.Proofs.Text.Cutting
import Mathlib.Algebra.Group.Nat.Defs
import Mathlib.Tactic.SplitIfs

namespace Stencil.Text

variable {p s : List Char} {i : Nat}

/-- No earlier place will do. -/
theorem indexOf?_least (h : indexOf? p s = some i) {j : Nat}
    (hj : p <+: s.drop j) : i ≤ j := by
  induction s generalizing i j with
  | nil =>
    rw [indexOf?] at h
    split at h <;> cases h
    omega
  | cons c s ih =>
    rw [indexOf?] at h
    split at h
    · cases h
      omega
    · next hfront =>
      obtain ⟨k, hk, rfl⟩ := Option.map_eq_some_iff.1 h
      cases j with
      | zero => exact absurd (List.isPrefixOf_iff_prefix.2 hj) hfront
      | succ j =>
        have := ih hk hj
        omega

/-- The first place is the front just in case the text begins so. -/
theorem indexOf?_eq_zero_iff : indexOf? p s = some 0 ↔ p <+: s := by
  constructor
  · intro h
    have hcut : breakOn? p s = some ([], s.drop p.length) := by
      simp [breakOn?, h]
    rw [eq_append_of_breakOn? hcut]
    exact List.prefix_append p _
  · intro h
    have hoccurs : (indexOf? p s).isSome = true := occurs_iff.2 h.isInfix
    obtain ⟨i, hi⟩ := Option.isSome_iff_exists.1 hoccurs
    have hle : i ≤ 0 := indexOf?_least hi (by simpa using h)
    rw [hi, Nat.le_zero.1 hle]

end Stencil.Text

namespace Stencil.Expr.Library

variable {v w : Value}

-- =================================================================== slices

theorem slice_front (a b : List Char) : slice (a ++ b) 0 a.length = a := by
  have hstop : (decide ((a.length : Int) < 0)
      || decide ((a.length : Int) > (a ++ b).length)) = false := by
    rw [Bool.or_eq_false_iff, decide_eq_false_iff_not, decide_eq_false_iff_not,
      List.length_append]
    omega
  unfold slice
  dsimp only
  rw [hstop]
  simp

theorem slice_behind (a b : List Char) :
    slice (a ++ b) a.length (-1) = b := by
  unfold slice
  simp only [Int.toNat_natCast]
  rw [if_pos (by simp), List.take_length, List.drop_left]

/-- A slice holds the characters from the one position on that stand before the
other, a negative one being the end. -/
theorem getElem?_slice (s : List Char) (first last : Int) (k : Nat) :
    (slice s first last)[k]?
      = if (first.toNat + k : Int) < (if last < 0 then (s.length : Int) else last)
        then s[first.toNat + k]? else none := by
  unfold slice
  dsimp only
  rw [List.getElem?_drop, List.getElem?_take]
  by_cases hin : first.toNat + k < s.length
  · -- the position is one of the text, so its end is no bound
    congr 1
    simp only [Bool.or_eq_true, decide_eq_true_eq]
    split_ifs <;> apply propext <;> omega
  · rw [List.getElem?_eq_none (by omega), ite_self, ite_self]

-- ================================================================== results

theorem call_contains : strings.call "contains" [v, w]
    = .ok (.bool (Text.occurs (chars w) (chars v))) := rfl

theorem call_startsWith : strings.call "startsWith" [v, w]
    = .ok (.bool ((chars w).isPrefixOf (chars v))) := rfl

theorem call_indexOf :
    strings.call "indexOf" [v, w] = .ok (position (chars v) (chars w)) := rfl

theorem call_substringBefore : strings.call "substringBefore" [v, w]
    = .ok (ofChars (before (chars v) (chars w))) := rfl

theorem call_substringAfter : strings.call "substringAfter" [v, w]
    = .ok (ofChars (after (chars v) (chars w))) := rfl

theorem call_substring {i j : Int64} :
    strings.call "substring" [v, .int i, .int j]
      = .ok (ofChars (slice (chars v) i.toInt j.toInt)) := rfl

theorem call_length (s : String) : strings.call "length" [.string s]
    = .ok (ofCount s.toList.length) := rfl

-- ================================================================ agreement

/-- What the functions say of a text that occurs in another, of which `a` stands
before the first place and `b` behind it. -/
structure Found (v w : Value) (i : Int64) (a b : String) : Prop where
  whole : v.display = a ++ w.display ++ b
  position : i.toInt = a.length
  least : ∀ k, w.display.toList <+: v.display.toList.drop k → i.toInt ≤ k
  length_before : strings.call "length" [.string a] = .ok (.int i)
  cut_before : strings.call "substring" [v, .int 0, .int i] = .ok (.string a)
  cut_behind : ∃ n j, strings.call "length" [.string w.display] = .ok (.int n)
    ∧ Number.add? i n = some j
    ∧ strings.call "substring" [v, .int j, .int (-1)] = .ok (.string b)

/-- What the functions say of one text in another. -/
structure Searched (v w : Value) (found front : Bool) (i : Int64)
    (a b : String) : Prop where
  contains : strings.call "contains" [v, w] = .ok (.bool found)
  startsWith : strings.call "startsWith" [v, w] = .ok (.bool front)
  indexOf : strings.call "indexOf" [v, w] = .ok (.int i)
  before : strings.call "substringBefore" [v, w] = .ok (.string a)
  behind : strings.call "substringAfter" [v, w] = .ok (.string b)
  occurs : found = true ↔ w.display.toList <:+: v.display.toList
  nonnegative : found = true ↔ 0 ≤ i.toInt
  zero : front = true ↔ i = 0
  place : found = true → Found v w i a b
  missing : found = false → a = "" ∧ b = ""

theorem searched_missing (h : Text.indexOf? (chars w) (chars v) = none) :
    Searched v w false false (-1) "" "" := by
  have hcut : Text.breakOn? (chars w) (chars v) = none := by
    rw [Text.breakOn?, h]
    rfl
  have hoccurs : Text.occurs (chars w) (chars v) = false := by
    rw [Text.occurs, h]
    rfl
  have hinfix : ¬ chars w <:+: chars v := fun hin =>
    Bool.false_ne_true (hoccurs.symm.trans (Text.occurs_iff.2 hin))
  -- what the text begins with would occur in it
  have hfront : (chars w).isPrefixOf (chars v) = false :=
    Bool.eq_false_iff.2 fun hb =>
      hinfix (List.isPrefixOf_iff_prefix.1 hb).isInfix
  constructor
  case contains => rw [call_contains, hoccurs]
  case startsWith => rw [call_startsWith, hfront]
  case indexOf => rw [call_indexOf, position, h]
  case before =>
    rw [call_substringBefore, before, hcut]
    rfl
  case behind =>
    rw [call_substringAfter, after, hcut]
    rfl
  case occurs => exact iff_of_false Bool.false_ne_true hinfix
  case nonnegative => decide
  case zero => decide
  case place => nofun
  case missing => exact fun _ => ⟨rfl, rfl⟩

theorem found_at {i : Nat} {n : Int64} {a b : List Char}
    (h : Text.indexOf? (chars w) (chars v) = some i)
    (hwhole : chars v = a ++ chars w ++ b) (ha : a.length = i)
    (hn : n.toInt = i) (hfits : (chars v).length < 2 ^ 63) :
    Found v w n (.ofList a) (.ofList b) := by
  have hlength : (chars v).length = a.length + (chars w).length + b.length := by
    rw [hwhole, List.length_append, List.length_append]
  -- places lie within the text, so none is too large to be counted
  have count {k : Nat} (hk : k ≤ (chars v).length) :
      (Int64.ofNat k).toInt = k :=
    Int64.toInt_ofNat_of_lt (by omega)
  constructor
  case whole =>
    apply String.toList_injective
    rw [String.toList_append, String.toList_append, String.toList_ofList,
      String.toList_ofList]
    exact hwhole
  case position =>
    rw [hn, ← String.length_toList, String.toList_ofList, ha]
  case least =>
    intro k hk
    rw [hn]
    exact_mod_cast Text.indexOf?_least h hk
  case length_before =>
    have hn' : Int64.ofNat a.length = n :=
      Int64.toInt_inj.1 (by rw [count (by omega), hn, ha])
    rw [call_length, String.toList_ofList, ofCount, hn']
  case cut_before =>
    rw [call_substring, hn, ← ha, hwhole, List.append_assoc]
    exact congrArg (fun s => Except.ok (ofChars s)) (slice_front _ _)
  case cut_behind =>
    have hend : i + (chars w).length ≤ (chars v).length := by omega
    refine ⟨.ofNat (chars w).length, .ofNat (i + (chars w).length),
      call_length _, ?_, ?_⟩
    · rw [Number.add?, Number.whole?_eq_some, count hend, count (by omega), hn]
      exact Int.natCast_add i _
    · rw [call_substring, count hend, hwhole, ← ha, ← List.length_append]
      exact congrArg (fun s => Except.ok (ofChars s)) (slice_behind _ _)

theorem searched_found {i : Nat}
    (h : Text.indexOf? (chars w) (chars v) = some i)
    (hfits : (chars v).length < 2 ^ 63) :
    ∃ front n a b, Searched v w true front n a b := by
  have hcut : Text.breakOn? (chars w) (chars v)
      = some ((chars v).take i, (chars v).drop (i + (chars w).length)) := by
    rw [Text.breakOn?, h]
    rfl
  have hoccurs : Text.occurs (chars w) (chars v) = true := by
    rw [Text.occurs, h]
    rfl
  have hbound := Text.indexOf?_le_length h
  have hn : (Int64.ofNat i).toInt = i := Int64.toInt_ofNat_of_lt (by omega)
  have hlength : ((chars v).take i).length = i :=
    List.length_take_of_le (by omega)
  refine ⟨(chars w).isPrefixOf (chars v), .ofNat i, .ofList ((chars v).take i),
    .ofList ((chars v).drop (i + (chars w).length)), ?_⟩
  constructor
  case contains => rw [call_contains, hoccurs]
  case startsWith => exact call_startsWith
  case indexOf =>
    rw [call_indexOf, position, h]
    rfl
  case before =>
    rw [call_substringBefore, before, hcut]
    rfl
  case behind =>
    rw [call_substringAfter, after, hcut]
    rfl
  case occurs => exact iff_of_true rfl (Text.occurs_iff.1 hoccurs)
  case nonnegative => exact iff_of_true rfl (by omega)
  case zero =>
    rw [List.isPrefixOf_iff_prefix, ← Text.indexOf?_eq_zero_iff, h,
      Option.some.injEq, ← Int64.toInt_inj, hn]
    exact Int.natCast_eq_zero.symm
  case place =>
    intro _
    exact found_at h (Text.eq_append_of_breakOn? hcut) hlength hn hfits
  case missing => nofun

-- ============================================================= main results

/-- The functions that search a text agree, whatever values stand for the texts:
on whether there is a place, on the first one, and on what is cut off there; and a
cut never fails, whatever the positions. A text in memory is not longer than 64
bits count. -/
theorem searches_agree :
    (∀ v w, v.display.length < 2 ^ 63 →
      ∃ found front i a b, Searched v w found front i a b)
    ∧ ∀ v (i j : Int64), ∃ r : String,
      strings.call "substring" [v, .int i, .int j] = .ok (.string r)
      ∧ ∀ k : Nat, r.toList[k]?
        = if (i.toInt.toNat + k : Int)
              < (if j.toInt < 0 then (v.display.length : Int) else j.toInt)
          then v.display.toList[i.toInt.toNat + k]? else none := by
  refine ⟨fun v w hfits => ?_, fun v i j => ?_⟩
  · rw [← String.length_toList] at hfits
    cases h : Text.indexOf? (chars w) (chars v) with
    | none => exact ⟨_, _, _, _, _, searched_missing h⟩
    | some i => exact ⟨true, searched_found h hfits⟩
  · refine ⟨_, rfl, fun k => ?_⟩
    rw [String.toList_ofList, ← String.length_toList]
    exact getElem?_slice (chars v) i.toInt j.toInt k

/-- Places that overlap in a text of characters of several bytes. -/
theorem searches_agree_overlapping :
    (Value.string "é😀😀😀b").display.length < 2 ^ 63
    ∧ Searched (.string "é😀😀😀b") (.string "😀😀") true false 1 "é" "😀b" := by
  have hfits : (Value.string "é😀😀😀b").display.length < 2 ^ 63 := by decide
  obtain ⟨found, front, i, a, b, h⟩ :=
    searches_agree.1 (.string "é😀😀😀b") (.string "😀😀") hfits
  have hfound := h.contains
  have hfront := h.startsWith
  have hi := h.indexOf
  have ha := h.before
  have hb := h.behind
  cases hfound
  cases hfront
  cases hi
  cases ha
  cases hb
  exact ⟨hfits, h⟩

end Stencil.Expr.Library
