/-
Tokens that are written are read back.

What stands behind a token decides where it ends, so each lemma says what may
follow: a number needs no digit or fraction behind it, a name no character
that could belong to it. Readers take the space behind some tokens with them
and leave it behind others; `Loose` allows for both, and no reader minds.
-/
import Stencil.Expr.Printer
import Stencil.Proofs.Expr.Reading

namespace Stencil.Expr

open Text (isSpace)

-- =================================================================== marks

theorem mark?_skipSpace (c : Char) (s : List Char) :
    mark? c (skipSpace s) = mark? c s := by
  unfold mark?
  rw [skipSpace_skipSpace]

theorem readOperator_skipSpace (level : Level) (s : List Char) :
    readOperator level (skipSpace s) = readOperator level s := by
  unfold readOperator
  rw [skipSpace_skipSpace]

theorem skipSpace_cons {c : Char} (hc : isSpace c = false) (s : List Char) :
    skipSpace (c :: s) = c :: s :=
  skipSpace_of_head hc

theorem mark?_self {c : Char} (hc : isSpace c = false) (s : List Char) :
    mark? c (c :: s) = some (skipSpace s) :=
  mark?_eq_some.2 ⟨s, skipSpace_cons hc s, rfl⟩

theorem mark?_other {c d : Char} (hd : isSpace d = false) (hne : d ≠ c)
    (s : List Char) : mark? c (d :: s) = none := by
  rw [Option.eq_none_iff_forall_ne_some]
  intro r hr
  obtain ⟨r', hs, -⟩ := mark?_eq_some.1 hr
  rw [skipSpace_cons hd] at hs
  exact hne (List.cons.inj hs).1

/-- What is left of a text, perhaps without the space in front. -/
def Loose (rest r : List Char) : Prop := r = rest ∨ r = skipSpace rest

namespace Loose

variable {rest r : List Char}

theorem refl (rest : List Char) : Loose rest rest := .inl rfl

theorem skipped (rest : List Char) : Loose rest (skipSpace rest) := .inr rfl

theorem skipSpace_eq (h : Loose rest r) : skipSpace r = skipSpace rest := by
  rcases h with rfl | rfl
  · rfl
  · exact skipSpace_skipSpace rest

theorem skip (h : Loose rest r) : Loose rest (skipSpace r) :=
  .inr h.skipSpace_eq

theorem mark (h : Loose rest r) (c : Char) : mark? c r = mark? c rest := by
  rw [← mark?_skipSpace, h.skipSpace_eq, mark?_skipSpace]

theorem operator (h : Loose rest r) (level : Level) :
    readOperator level r = readOperator level rest := by
  rw [← readOperator_skipSpace, h.skipSpace_eq, readOperator_skipSpace]

/-- Nothing is left of nothing. -/
theorem nil (h : Loose [] r) : r = [] := by
  rcases h with rfl | rfl <;> rfl

end Loose

-- =================================================================== names

/-- A text is divided in one way into characters of a class and a rest that
begins with none. -/
theorem split_unique {p : Char → Bool} {a b r t : List Char}
    (ha : a.all p = true) (hb : b.all p = true)
    (hr : r.head?.any p = false) (ht : t.head?.any p = false)
    (h : a ++ r = b ++ t) : a = b ∧ r = t := by
  have hsplit {a r : List Char} (ha : a.all p = true)
      (hr : r.head?.any p = false) :
      (a ++ r).takeWhile p = a ∧ (a ++ r).dropWhile p = r := by
    have hall := List.all_eq_true.1 ha
    rw [List.takeWhile_append_of_pos hall, List.dropWhile_append_of_pos hall]
    cases r with
    | nil => simp
    | cons c r => simp [show p c = false from hr]
  obtain ⟨ha₁, hr₁⟩ := hsplit ha hr
  obtain ⟨hb₁, ht₁⟩ := hsplit hb ht
  rw [h] at ha₁ hr₁
  exact ⟨ha₁.symm.trans hb₁, hr₁.symm.trans ht₁⟩

theorem all_of_isIdentifier {name : List Char} (h : isIdentifier name = true) :
    name.all isIdentifierPart = true := by
  cases name with
  | nil => rfl
  | cons c s =>
    obtain ⟨hc, hs⟩ := Bool.and_eq_true_iff.1 h
    rw [List.all_cons, isIdentifierPart_of_start hc, hs]
    rfl

section

variable {name rest : List Char}

/-- A word is stripped off a name if it is the name. -/
theorem stripWord?_name {w : List Char} (hw : w.all isIdentifierPart = true)
    (hname : isIdentifier name = true)
    (hrest : rest.head?.any isIdentifierPart = false) :
    stripWord? w (name ++ rest) = if w = name then some rest else none := by
  split
  · next heq => exact stripWord?_eq_some.2 ⟨by rw [heq], hrest⟩
  · next hne =>
    rw [Option.eq_none_iff_forall_ne_some]
    intro r hr
    obtain ⟨heq, hr⟩ := stripWord?_eq_some.1 hr
    exact hne (split_unique (all_of_isIdentifier hname) hw hrest hr heq).1.symm

theorem readIdentifier_name (hname : isIdentifier name = true)
    (hrest : rest.head?.any isIdentifierPart = false) :
    readIdentifier (name ++ rest) = some (name, rest) := by
  cases name with
  | nil => cases hname
  | cons c s =>
    obtain ⟨hc, hs⟩ := Bool.and_eq_true_iff.1 hname
    have htail : (s ++ rest).takeWhile isIdentifierPart = s := by
      rw [List.takeWhile_append_of_pos (List.all_eq_true.1 hs)]
      cases rest with
      | nil => simp
      | cons d rest => simp [show isIdentifierPart d = false from hrest]
    rw [List.cons_append, readIdentifier, if_pos hc, htail]
    show some (c :: s, (s ++ rest).drop s.length) = _
    rw [List.drop_left]

/-- A name begins with none of the characters that begin anything else. -/
theorem exists_start (hname : isIdentifier name = true) :
    ∃ c s, name = c :: s ∧ isIdentifierStart c = true := by
  cases name with
  | nil => cases hname
  | cons c s => exact ⟨c, s, rfl, (Bool.and_eq_true_iff.1 hname).1⟩

end

/-- A character that begins a name is none that does not. -/
theorem ne_of_start {c d : Char} (hc : isIdentifierStart c = true)
    (hd : isIdentifierStart d = false) : c ≠ d := by
  rintro rfl
  rw [hc] at hd
  cases hd

theorem isSpace_of_start {c : Char} (hc : isIdentifierStart c = true) :
    isSpace c = false := by
  have h₁ := ne_of_start hc (d := ' ') (by decide)
  have h₂ := ne_of_start hc (d := '\t') (by decide)
  have h₃ := ne_of_start hc (d := '\r') (by decide)
  have h₄ := ne_of_start hc (d := '\n') (by decide)
  simp [isSpace, h₁, h₂, h₃, h₄]

/-- What holds of the ten digits holds of every digit. -/
theorem of_isDigit {P : Char → Prop}
    (h : ∀ n ∈ List.range' 48 10, P (Char.ofNat n)) {c : Char}
    (hc : c.isDigit = true) : P c := by
  have hbounds : 48 ≤ c.toNat ∧ c.toNat ≤ 57 := by
    simpa [Char.isDigit, UInt32.le_iff_toNat_le] using hc
  have hmem : c.toNat ∈ List.range' 48 10 := List.mem_range'_1.2 (by omega)
  have hP := h c.toNat hmem
  rwa [Char.ofNat_toNat] at hP

theorem isDigit_of_start {c : Char} (hc : isIdentifierStart c = true) :
    c.isDigit = false := by
  rw [Bool.eq_false_iff]
  intro hdigit
  have hnone : isIdentifierStart c = false :=
    of_isDigit (P := fun c => isIdentifierStart c = false) (by decide) hdigit
  exact nomatch hnone.symm.trans hc

theorem isIdentifierPart_of_isDigit {c : Char} (hc : c.isDigit = true) :
    isIdentifierPart c = true :=
  of_isDigit (P := fun c => isIdentifierPart c = true) (by decide) hc

-- ================================================================ literals

/-- A token ends before the text: nothing of it belongs to a name or a number
in front, and it does not make a name a namespace. -/
structure Stops (rest : List Char) : Prop where
  name : rest.head?.any isIdentifierPart = false
  colon : strip? [':'] rest = none
  fraction : takeFraction rest = []

section

variable {rest : List Char}

theorem Stops.digit (h : Stops rest) : rest.head?.any Char.isDigit = false := by
  have hname := h.name
  cases rest with
  | nil => rfl
  | cons c rest =>
    rw [Bool.eq_false_iff]
    intro hc
    have hpart : isIdentifierPart c = true := isIdentifierPart_of_isDigit hc
    exact absurd hpart (Bool.eq_false_iff.1 hname)

theorem Stops.exponent (h : Stops rest) : takeExponent rest = [] := by
  have hname := h.name
  unfold takeExponent
  split
  · next c r =>
    refine if_neg fun hc => ?_
    have hpart : isIdentifierPart c = true := by
      rcases Bool.or_eq_true_iff.1 hc with hc | hc <;>
        cases of_decide_eq_true hc <;> decide
    exact absurd hpart (Bool.eq_false_iff.1 hname)
  · rfl

/-- Digits of a whole number are read as that number. -/
theorem readWhole?_toDigits {n : Nat} {i : Int64} (hi : i.toInt = n) :
    Number.readWhole? (Nat.toDigits 10 n) = some i := by
  have hall : (Nat.toDigits 10 n).all Char.isDigit = true :=
    List.all_eq_true.2 fun _ hc =>
      Nat.isDigit_of_mem_toDigits (by decide) (by decide) hc
  have hvalue : Number.ofDigits (Nat.toDigits 10 n) = n :=
    Nat.ofDigitChars_eq_foldl.symm.trans Nat.ofDigitChars_ten_toDigits
  unfold Number.readWhole?
  rw [splitSign_of_digits hall]
  dsimp only
  rw [hall, hvalue, if_neg (by simp), if_neg Bool.false_ne_true]
  exact Number.whole?_eq_some.2 hi

theorem text_of_nat {n : Nat} {i : Int64} (hi : i.toInt = n) :
    (Number.text i).toList = Nat.toDigits 10 n := by
  rw [Number.text, hi]
  exact Nat.toList_repr

theorem readNumber_text (h : Stops rest) {i : Int64} (hi : 0 ≤ i.toInt) :
    readNumber ((Number.text i).toList ++ rest) = some (.int i, rest) := by
  obtain ⟨n, hn⟩ := Int.eq_ofNat_of_zero_le hi
  have hdigits : (Nat.toDigits 10 n ++ rest).takeWhile Char.isDigit
      = Nat.toDigits 10 n := by
    rw [List.takeWhile_append_of_pos fun _ hc =>
      Nat.isDigit_of_mem_toDigits (by decide) (by decide) hc]
    have hhead := h.digit
    cases rest with
    | nil => simp
    | cons c rest => simp [show c.isDigit = false from hhead]
  have hliteral : numberLiteral (Nat.toDigits 10 n) [] [] = some (.int i) := by
    unfold numberLiteral
    dsimp only
    rw [List.append_nil, List.append_nil, readWhole?_toDigits hn]
    rfl
  unfold readNumber
  rw [text_of_nat hn, hdigits]
  dsimp only
  rw [if_neg (by simp), List.drop_left, h.fraction]
  rw [List.length_nil, List.drop_zero, h.exponent, hliteral]
  rfl

/-- A string is read back from between its quotes. -/
theorem readQuoted_quotedChars (t rest : List Char) :
    readQuoted '\'' (t.flatMap quotedChar ++ '\'' :: rest)
      = some (t, rest) := by
  induction t with
  | nil => rfl
  | cons c t ih =>
    rw [List.flatMap_cons, List.append_assoc]
    generalize t.flatMap quotedChar ++ '\'' :: rest = u at ih ⊢
    unfold quotedChar
    split
    · exact congrArg (Option.map fun q => ('\\' :: q.1, q.2)) ih
    · exact congrArg (Option.map fun q => ('\'' :: q.1, q.2)) ih
    · exact congrArg (Option.map fun q => ('\n' :: q.1, q.2)) ih
    · exact congrArg (Option.map fun q => ('\t' :: q.1, q.2)) ih
    · exact congrArg (Option.map fun q => ('\r' :: q.1, q.2)) ih
    · next hescape hquote _ _ _ =>
      rw [List.singleton_append, readQuoted, if_neg hquote, ih]
      · rfl
      · exact fun h _ => hescape h
      · exact fun _ _ h _ => hescape h

theorem quoted_append (t : String) (rest : List Char) :
    (quoted t).toList ++ rest
      = '\'' :: (t.toList.flatMap quotedChar ++ '\'' :: rest) := by
  simp [quoted]

theorem readString_quoted (t : String) (rest : List Char) :
    readString ((quoted t).toList ++ rest) = some (t, rest) := by
  rw [quoted_append, readString, readQuoted_quotedChars]
  exact congrArg (fun u => some (u, rest)) String.ofList_toList

theorem strip?_other {c d : Char} (hne : c ≠ d) (p s : List Char) :
    strip? (d :: p) (c :: s) = none := by
  rw [Option.eq_none_iff_forall_ne_some]
  intro r hr
  exact hne (List.cons.inj (strip?_eq_some.1 hr)).1

theorem stripWord?_other {c d : Char} (hne : c ≠ d) (p s : List Char) :
    stripWord? (d :: p) (c :: s) = none := by
  rw [stripWord?, strip?_other hne]
  rfl

theorem readNumber_other {c : Char} (hc : c.isDigit = false) (s : List Char) :
    readNumber (c :: s) = none := by
  have hdigits : (c :: s).takeWhile Char.isDigit = [] :=
    List.takeWhile_cons_of_neg (Bool.not_eq_true _ ▸ hc)
  unfold readNumber
  rw [hdigits]
  rfl

theorem readString_other {c : Char} (hsingle : c ≠ '\'') (hdouble : c ≠ '"')
    (s : List Char) : readString (c :: s) = none := by
  unfold readString
  split
  · next h => exact absurd (List.cons.inj h).1 hsingle
  · next h => exact absurd (List.cons.inj h).1 hdouble
  · rfl

variable {name : List Char}

/-- A name is a literal if it is one of the constants. -/
theorem readLiteral_name (hname : isIdentifier name = true)
    (hrest : rest.head?.any isIdentifierPart = false) :
    readLiteral (name ++ rest)
      = if ['t', 'r', 'u', 'e'] = name then some (.bool true, rest)
        else if ['f', 'a', 'l', 's', 'e'] = name then some (.bool false, rest)
        else if ['n', 'u', 'l', 'l'] = name then some (.null, rest)
        else none := by
  have hword {w : List Char} (hw : w.all isIdentifierPart = true) :=
    stripWord?_name hw hname hrest
  -- a name begins with no digit and with no quote
  have hconstant : readLiteral (name ++ rest) = readConstant (name ++ rest) := by
    obtain ⟨c, s, rfl, hc⟩ := exists_start hname
    unfold readLiteral
    rw [List.cons_append, readNumber_other (isDigit_of_start hc),
      readString_other (ne_of_start hc (by decide)) (ne_of_start hc (by decide))]
    rfl
  rw [hconstant, readConstant, hword (by decide), hword (by decide),
    hword (by decide)]
  split
  · rfl
  · split
    · rfl
    · split <;> rfl

theorem readLiteral_print {l : Literal} (h : Stops rest) (hl : l.Proper)
    (hfloat : ∀ f, l ≠ .float f) :
    readLiteral (l.print.toList ++ rest) = some (l, rest) := by
  cases l with
  | null =>
    have htext : Literal.null.print.toList = ['n', 'u', 'l', 'l'] := rfl
    rw [htext, readLiteral_name (by decide) h.name]
    rfl
  | bool b =>
    cases b with
    | true =>
      have htext : (Literal.bool true).print.toList = ['t', 'r', 'u', 'e'] := rfl
      rw [htext, readLiteral_name (by decide) h.name]
      rfl
    | false =>
      have htext : (Literal.bool false).print.toList
          = ['f', 'a', 'l', 's', 'e'] := rfl
      rw [htext, readLiteral_name (by decide) h.name]
      rfl
  | int i =>
    rw [readLiteral, Literal.print, readNumber_text h hl]
    rfl
  | float f => exact absurd rfl (hfloat f)
  | string t =>
    -- numbers are tried before texts, and a quote begins none
    have hquote : readNumber ((quoted t).toList ++ rest) = none := by
      rw [quoted_append]
      exact readNumber_other (by decide) _
    rw [readLiteral, Literal.print, readString_quoted, hquote]
    rfl

-- ================================================================ operators

/-- A character that is no space and begins no prefix operator. -/
theorem readPrefixOp_other {c : Char} (hspace : isSpace c = false)
    (hminus : c ≠ '-') (hbang : c ≠ '!') (hn : c ≠ 'n') (he : c ≠ 'e')
    (s : List Char) : readPrefixOp (c :: s) = none := by
  unfold readPrefixOp
  rw [skipSpace_cons hspace]
  dsimp only
  rw [stripNot?, strip?_other hminus, strip?_other hbang, stripWord?_other hn,
    stripWord?_other he]
  rfl

/-- A name is no prefix operator but for two. -/
theorem readPrefixOp_name (hname : isIdentifier name = true)
    (hrest : rest.head?.any isIdentifierPart = false)
    (hnot : ['n', 'o', 't'] ≠ name)
    (hempty : ['e', 'm', 'p', 't', 'y'] ≠ name) :
    readPrefixOp (name ++ rest) = none := by
  have hword {w : List Char} (hw : w.all isIdentifierPart = true) :=
    stripWord?_name hw hname hrest
  have hstart : skipSpace (name ++ rest) = name ++ rest
      ∧ strip? ['-'] (name ++ rest) = none
      ∧ strip? ['!'] (name ++ rest) = none := by
    obtain ⟨c, s, rfl, hc⟩ := exists_start hname
    exact ⟨skipSpace_cons (isSpace_of_start hc) _,
      strip?_other (ne_of_start hc (by decide)) _ _,
      strip?_other (ne_of_start hc (by decide)) _ _⟩
  obtain ⟨hskip, hminus, hbang⟩ := hstart
  unfold readPrefixOp
  rw [hskip]
  dsimp only
  rw [stripNot?, hminus, hbang, hword (by decide), hword (by decide),
    if_neg hnot, if_neg hempty]
  rfl

end

end Stencil.Expr
