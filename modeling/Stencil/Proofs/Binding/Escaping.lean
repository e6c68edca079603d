/-
Entries of properties, character by character.

A character is written as it stands or behind a backslash (`Token`). What a reader
of properties looks for in a line - the end of the key, the separator, backslashes -
it never finds inside such a token, so each pass over a line takes whole tokens
(`splitKey_tokens`, `unescape_tokens`), and the passes agree on where they are.
-/
import Stencil.Binding.Properties.Writing
import Mathlib.Data.List.Forall2

namespace Stencil.Binding.Properties

variable {apart cs s t : List Char} {ts : List (List Char)} {c : Char}

/-- A character as it is written: by itself, if it is none of those that have to be
set apart, or behind a backslash. -/
inductive Token (apart : List Char) : List Char → Char → Prop
  | plain {c : Char} (h : c ∉ apart) : Token apart [c] c
  | escaped {c d : Char} (h : unescapeChar d = c)
      (hd : d ∉ ['u', '\n', '\r']) : Token apart ['\\', d] c

/-- What is set apart everywhere. -/
def specials : List Char := ['\\', '\t', '\n', '\r', '\x0c']

/-- What is set apart in keys. -/
def keySpecials : List Char := ' ' :: '=' :: ':' :: specials

theorem token_escapeChar (c : Char) : Token specials (escapeChar c) c := by
  unfold escapeChar
  split
  · exact .escaped rfl (by decide)
  · exact .escaped rfl (by decide)
  · exact .escaped rfl (by decide)
  · exact .escaped rfl (by decide)
  · exact .escaped rfl (by decide)
  · refine .plain ?_
    simp_all [specials]

theorem token_escapeKeyChar (front : Bool) (c : Char) :
    Token keySpecials (escapeKeyChar front c) c := by
  unfold escapeKeyChar
  split
  · next h =>
    simp only [Bool.or_eq_true, Bool.and_eq_true, decide_eq_true_eq] at h
    rcases h with ((rfl | rfl) | rfl) | ⟨-, rfl | rfl⟩ <;>
      exact .escaped rfl (by decide)
  · next h =>
    simp only [Bool.or_eq_true, decide_eq_true_eq, not_or] at h
    generalize ht : escapeChar c = t
    have htoken := token_escapeChar c
    rw [ht] at htoken
    cases htoken with
    | plain hc => exact .plain (by simp_all [keySpecials])
    | escaped hc hd => exact .escaped hc hd

/-- What is set apart in keys is more. -/
theorem Token.of_key (h : Token keySpecials t c) : Token specials t c := by
  cases h with
  | plain hc => exact .plain fun h => hc (by simp [keySpecials, h])
  | escaped hc hd => exact .escaped hc hd

-- ================================================================== reading

theorem Token.unescape (h : Token specials t c) (s : List Char) :
    unescape (t ++ s) = c :: unescape s := by
  cases h with
  | plain hc =>
    simp only [specials, List.mem_cons, not_or] at hc
    rw [List.singleton_append, Properties.unescape] <;> simp_all
  | escaped hc hd =>
    simp only [List.mem_cons, not_or] at hd
    rw [List.cons_append, List.singleton_append, Properties.unescape, hc]
    simp_all

theorem unescape_tokens (h : List.Forall₂ (Token specials) ts cs) :
    unescape ts.flatten = cs := by
  induction h with
  | nil => rw [List.flatten_nil, unescape]
  | cons ht hts ih => rw [List.flatten_cons, ht.unescape, ih]

theorem Token.splitKey (h : Token keySpecials t c) (s : List Char) :
    splitKey (t ++ s) = (t ++ (splitKey s).1, (splitKey s).2) := by
  cases h with
  | plain hc =>
    have hends : endsKey c = false := by
      simp_all [keySpecials, specials, endsKey, isGap]
    rw [List.singleton_append, Properties.splitKey] <;> simp_all [keySpecials, specials]
  | escaped hc hd => rfl

/-- A key ends at the first separator behind its tokens. -/
theorem splitKey_tokens (h : List.Forall₂ (Token keySpecials) ts cs)
    (s : List Char) :
    splitKey (ts.flatten ++ '=' :: s) = (ts.flatten, '=' :: s) := by
  induction h with
  | nil => rfl
  | cons ht hts ih =>
    rw [List.flatten_cons, List.append_assoc, ht.splitKey, ih]

-- ================================================================== entries

/-- The tokens of a key. -/
def keyTokens : List Char → List (List Char)
  | [] => []
  | c :: s => escapeKeyChar true c :: s.map (escapeKeyChar false)

/-- The tokens of a value. -/
def valueTokens : List Char → List (List Char)
  | ' ' :: s => ['\\', ' '] :: s.map escapeChar
  | s => s.map escapeChar

/-- The tokens of an entry. -/
def tokens (e : String × String) : List (List Char) :=
  keyTokens e.1.toList ++ ['='] :: valueTokens e.2.toList

theorem flatten_keyTokens (s : List Char) :
    (keyTokens s).flatten = writeKey s := by
  cases s with
  | nil => rfl
  | cons c s => rfl

theorem flatten_valueTokens (s : List Char) :
    (valueTokens s).flatten = writeValue s := by
  by_cases hspace : ∃ r, s = ' ' :: r
  · obtain ⟨r, rfl⟩ := hspace
    rfl
  · have hfront (r : List Char) (h : s = ' ' :: r) : False := hspace ⟨r, h⟩
    rw [valueTokens, writeValue, List.flatMap_def]
    · exact hfront
    · exact hfront

/-- An entry is written by its tokens. -/
theorem flatten_tokens (e : String × String) :
    (tokens e).flatten = writeEntry e := by
  unfold tokens writeEntry
  rw [List.flatten_append, List.flatten_cons, flatten_keyTokens,
    flatten_valueTokens]
  rfl

theorem forall₂_map {f : Char → List Char} (h : ∀ c, Token apart (f c) c)
    (s : List Char) : List.Forall₂ (Token apart) (s.map f) s :=
  List.forall₂_map_left_iff.2 (List.forall₂_same.2 fun c _ => h c)

theorem token_keyTokens (s : List Char) :
    List.Forall₂ (Token keySpecials) (keyTokens s) s := by
  cases s with
  | nil => exact .nil
  | cons c s =>
    exact .cons (token_escapeKeyChar true c)
      (forall₂_map (token_escapeKeyChar false) s)

theorem token_valueTokens (s : List Char) :
    List.Forall₂ (Token specials) (valueTokens s) s := by
  unfold valueTokens
  split
  · exact .cons (.escaped rfl (by decide)) (forall₂_map token_escapeChar _)
  · exact forall₂_map token_escapeChar s

theorem token_tokens (e : String × String) :
    List.Forall₂ (Token specials) (tokens e) (e.1.toList ++ '=' :: e.2.toList) := by
  have hkey := (token_keyTokens e.1.toList).imp fun _ _ => Token.of_key
  have hequals : Token specials ['='] '=' := .plain (by decide)
  exact List.rel_append hkey (.cons hequals (token_valueTokens e.2.toList))

/-- A token that does not begin with a space does not begin with white space. -/
theorem Token.head (h : Token specials t c) (hspace : t.head? ≠ some ' ') :
    ∃ d r, t = d :: r ∧ isGap d = false := by
  cases h with
  | plain hc => exact ⟨c, [], rfl, by simp_all [specials, isGap]⟩
  | escaped hc hd => exact ⟨_, _, rfl, by decide⟩

theorem Token.head_ne (h : Token apart t c) (hc : c ≠ ' ') :
    t.head? ≠ some ' ' := by
  cases h with
  | plain => simpa using hc
  | escaped => simp

theorem dropGap_cons (hc : isGap c = false) (s : List Char) :
    dropGap (c :: s) = c :: s :=
  List.dropWhile_cons_of_neg (by simp [hc])

/-- A value as written does not begin with white space. -/
theorem dropGap_writeValue (s : List Char) :
    dropGap (writeValue s) = writeValue s := by
  unfold writeValue
  split
  · exact dropGap_cons (by decide) _
  · next hfront =>
    cases s with
    | nil => rfl
    | cons c s =>
      have hc : c ≠ ' ' := fun h => hfront s (by rw [h])
      have htoken := token_escapeChar c
      obtain ⟨d, r, hd, hgap⟩ := htoken.head (htoken.head_ne hc)
      rw [List.flatMap_cons, hd]
      exact dropGap_cons hgap _

/-- An entry is read from its tokens. -/
theorem entry_tokens (e : String × String) : entry (tokens e).flatten = e := by
  obtain ⟨k, v⟩ := e
  have hkey := token_keyTokens k.toList
  have hvalue := token_valueTokens v.toList
  have hkey' : List.Forall₂ (Token specials) (keyTokens k.toList) k.toList :=
    hkey.imp fun _ _ => Token.of_key
  have hseparator : dropSeparator ('=' :: (valueTokens v.toList).flatten)
      = (valueTokens v.toList).flatten := by
    rw [flatten_valueTokens]
    exact dropGap_writeValue v.toList
  unfold entry tokens
  rw [List.flatten_append, List.flatten_cons, List.singleton_append,
    splitKey_tokens hkey]
  dsimp only
  rw [hseparator, unescape_tokens hkey', unescape_tokens hvalue,
    String.ofList_toList, String.ofList_toList]

end Stencil.Binding.Properties
