/-
The texts of terms.

A text is that of the parts with tokens around and between them, which the
lemmas here say for each form of a term. No text of a term begins or ends with
white space, so nothing of it is trimmed.
-/
import Stencil.Proofs.Expr.Tokens

namespace Stencil.Expr

open Text (CodeRanges isBlank)

-- ================================================================== floats

mutual

/-- Some literal in the term is a float. -/
def Term.hasFloat : Term → Bool
  | .literal (.float _) => true
  | .literal _ => false
  | .variable _ => false
  | .array es => haveFloat es
  | .object es => entriesHaveFloat es
  | .property e _ => e.hasFloat
  | .index e i => e.hasFloat || i.hasFloat
  | .call _ _ args => haveFloat args
  | .unary _ e => e.hasFloat
  | .binary _ l r => l.hasFloat || r.hasFloat
  | .conditional test yes no => test.hasFloat || yes.hasFloat || no.hasFloat

def haveFloat : List Term → Bool
  | [] => false
  | e :: es => e.hasFloat || haveFloat es

def entriesHaveFloat : List (String × Term) → Bool
  | [] => false
  | (_, e) :: es => e.hasFloat || entriesHaveFloat es

end

-- =================================================================== parts

/-- The text of an entry of an object. -/
def entryText (e : String × Term) : List Char :=
  (quoted e.1).toList ++ ':' :: ' ' :: e.2.print.toList

/-- Items with a comma and a space between them. -/
def commas {α : Type} (text : α → List Char) (xs : List α) : List Char :=
  [',', ' '].intercalate (xs.map text)

theorem commas_printItems (es : List Term) :
    [',', ' '].intercalate ((printItems es).map String.toList)
      = commas (fun e => e.print.toList) es := by
  have hitems : (printItems es).map String.toList
      = es.map fun e => e.print.toList := by
    induction es with
    | nil => rfl
    | cons e es ih => rw [printItems, List.map_cons, List.map_cons, ih]
  rw [hitems, commas]

theorem commas_printEntries (es : List (String × Term)) :
    [',', ' '].intercalate ((printEntries es).map String.toList)
      = commas entryText es := by
  have hentries : (printEntries es).map String.toList = es.map entryText := by
    induction es with
    | nil => rfl
    | cons e es ih =>
      rw [printEntries, List.map_cons, List.map_cons, ih]
      simp [entryText]
  rw [hentries, commas]

/-- The text of a part that is put in parentheses below a level. -/
def partText (m : Nat) (e : Term) : List Char :=
  (parenthesized (e.level < m) e.print).toList

theorem partText_eq (m : Nat) (e : Term) :
    partText m e
      = if e.level < m then '(' :: (e.print.toList ++ [')'])
        else e.print.toList := by
  unfold partText parenthesized
  by_cases h : e.level < m <;> simp [h]

-- =================================================================== forms

namespace Term

theorem toList_print_array (es : List Term) :
    (array es).print.toList
      = '[' :: (commas (fun e => e.print.toList) es ++ [']']) := by
  show ("[" ++ String.intercalate ", " (printItems es) ++ "]").toList = _
  simp [commas_printItems]

theorem toList_print_object (es : List (String × Term)) :
    (object es).print.toList = '\x7b' :: (commas entryText es ++ ['\x7d']) := by
  show ("\x7b" ++ String.intercalate ", " (printEntries es) ++ "\x7d").toList = _
  simp [commas_printEntries]

theorem toList_print_property (e : Term) (name : String) :
    (property e name).print.toList
      = partText postfixLevel e ++ '.' :: name.toList := by
  show (_ ++ "." ++ name).toList = _
  simp [partText]

theorem toList_print_index (e i : Term) :
    (index e i).print.toList
      = partText postfixLevel e ++ '[' :: (i.print.toList ++ [']']) := by
  show (_ ++ "[" ++ i.print ++ "]").toList = _
  simp [partText]

theorem toList_print_call (qualifier name : String) (args : List Term) :
    (call qualifier name args).print.toList
      = qualifier.toList ++ ':' :: (name.toList
        ++ '(' :: (commas (fun e => e.print.toList) args ++ [')'])) := by
  show (qualifier ++ ":" ++ name
    ++ "(" ++ String.intercalate ", " (printItems args) ++ ")").toList = _
  simp [commas_printItems]

theorem toList_print_unary (op : UnaryOp) (e : Term) :
    (unary op e).print.toList = op.symbol.toList ++ partText unaryLevel e := by
  show (op.symbol ++ _).toList = _
  rw [String.toList_append]
  rfl

theorem toList_print_binary (op : BinaryOp) (l r : Term) :
    (binary op l r).print.toList
      = partText op.level l
        ++ ' ' :: (op.symbol.toList ++ ' ' :: partText (op.level + 1) r) := by
  show (_ ++ " " ++ op.symbol ++ " " ++ _).toList = _
  simp [partText]

theorem toList_print_conditional (test yes no : Term) :
    (conditional test yes no).print.toList
      = partText 1 test ++ ' ' :: '?' :: ' ' :: (yes.print.toList
        ++ ' ' :: ':' :: ' ' :: no.print.toList) := by
  show (_ ++ " ? " ++ yes.print ++ " : " ++ no.print).toList = _
  simp [partText]

end Term

-- ================================================================ trimming

/-- No range of the one table meets a range of the other. -/
def apart (a b : CodeRanges) : Bool :=
  a.all fun r => b.all fun s => r.2.blt s.1 || s.2.blt r.1

theorem not_contains_of_apart {a b : CodeRanges} (h : apart a b = true)
    {c : Char} (hc : a.contains c = true) : b.contains c = false := by
  rw [Bool.eq_false_iff]
  intro hb
  obtain ⟨r, hr, hlow, hhigh⟩ := CodeRanges.contains_iff.1 hc
  obtain ⟨s, hs, hlow', hhigh'⟩ := CodeRanges.contains_iff.1 hb
  have hrs := List.all_eq_true.1 (List.all_eq_true.1 h r hr) s hs
  simp only [Bool.or_eq_true, Nat.blt_eq] at hrs
  omega

/-- White space belongs to no name. -/
theorem isBlank_of_part {c : Char} (hc : isIdentifierPart c = true) :
    isBlank c = false := by
  rw [Bool.eq_false_iff]
  intro hblank
  cases hascii : Text.isAscii c with
  | true =>
    -- the characters of ASCII are gone through one by one
    have hfew : ∀ n < 128, isBlank (Char.ofNat n) = true →
        isIdentifierPart (Char.ofNat n) = false := by
      decide +kernel
    have hpart := hfew c.toNat (of_decide_eq_true hascii)
    rw [Char.ofNat_toNat, hc] at hpart
    cases hpart hblank
  | false =>
    -- of the others the tables have none in common
    have hletter := not_contains_of_apart
      (by decide +kernel : apart Text.blankRanges Text.letterRanges = true) hblank
    have hnumeral := not_contains_of_apart
      (by decide +kernel : apart Text.blankRanges Text.numeralRanges = true) hblank
    have hother : ∀ d, Text.isAscii d = true → (c == d) = false := by
      intro d hd
      refine beq_eq_false_iff_ne.2 fun hcd => ?_
      rw [hcd, hd] at hascii
      cases hascii
    unfold isIdentifierPart Text.isLetter Text.isNumeral at hc
    rw [hascii, if_neg Bool.false_ne_true, if_neg Bool.false_ne_true, hletter,
      hnumeral, hother '_' rfl, hother '$' rfl] at hc
    cases hc

/-- The last character is no white space. -/
def Closed (s : List Char) : Prop := ∃ t c, s = t ++ [c] ∧ isBlank c = false

/-- A text that begins and ends with no white space. -/
structure Trimmed (s : List Char) : Prop where
  front : ∃ c t, s = c :: t ∧ isBlank c = false
  back : Closed s

theorem closed_one {c : Char} (hc : isBlank c = false) : Closed [c] :=
  ⟨[], c, rfl, hc⟩

/-- What stands in front does not matter. -/
theorem Closed.behind {s : List Char} (h : Closed s) (m : List Char) :
    Closed (m ++ s) := by
  obtain ⟨t, c, rfl, hc⟩ := h
  exact ⟨m ++ t, c, (List.append_assoc ..).symm, hc⟩

namespace Trimmed

variable {s t : List Char}

theorem trim_eq (h : Trimmed s) : Text.trim s = s := by
  have hfront : Text.dropBlank s = s := by
    obtain ⟨c, t, rfl, hc⟩ := h.front
    exact List.dropWhile_cons_of_neg (by rw [hc]; exact nofun)
  have hback : Text.dropBlankEnd s = s := by
    obtain ⟨t, c, rfl, hc⟩ := h.back
    unfold Text.dropBlankEnd
    rw [List.reverse_append, List.reverse_singleton, List.singleton_append,
      List.dropWhile_cons_of_neg (by rw [hc]; exact nofun), List.reverse_cons,
      List.reverse_reverse]
  rw [Text.trim, hfront, hback]

theorem append (hs : Trimmed s) (ht : Closed t) : Trimmed (s ++ t) := by
  obtain ⟨c, s', rfl, hc⟩ := hs.front
  exact ⟨⟨c, s' ++ t, rfl, hc⟩, ht.behind _⟩

/-- Characters that are no white space around a text. -/
theorem enclosed {c d : Char} (hc : isBlank c = false) (hd : isBlank d = false)
    (m : List Char) : Trimmed (c :: (m ++ [d])) :=
  ⟨⟨c, m ++ [d], rfl, hc⟩, ((closed_one hd).behind m).behind [c]⟩

theorem of_all (hne : s ≠ []) (h : ∀ c ∈ s, isBlank c = false) : Trimmed s := by
  obtain ⟨c, t, hfront⟩ := List.exists_cons_of_ne_nil hne
  refine ⟨⟨c, t, hfront, h c (hfront ▸ List.mem_cons_self)⟩,
    ⟨s.dropLast, s.getLast hne, (List.dropLast_concat_getLast hne).symm,
      h _ (List.getLast_mem hne)⟩⟩

theorem of_identifier (h : isIdentifier s = true) : Trimmed s := by
  have hall := List.all_eq_true.1 (all_of_isIdentifier h)
  refine of_all ?_ fun c hc => isBlank_of_part (hall c hc)
  rintro rfl
  cases h

theorem part {e : Term} (h : Trimmed e.print.toList) (m : Nat) :
    Trimmed (partText m e) := by
  rw [partText_eq]
  split
  · exact enclosed (by decide) (by decide) _
  · exact h

end Trimmed

theorem trimmed_literal {l : Literal} (hl : l.Proper)
    (hf : ∀ f, l ≠ .float f) : Trimmed l.print.toList := by
  cases l with
  | null => exact .of_identifier (s := ['n', 'u', 'l', 'l']) rfl
  | bool b =>
    cases b with
    | true => exact .of_identifier (s := ['t', 'r', 'u', 'e']) rfl
    | false => exact .of_identifier (s := ['f', 'a', 'l', 's', 'e']) rfl
  | int i =>
    obtain ⟨n, hn⟩ := Int.eq_ofNat_of_zero_le hl
    rw [Literal.print, text_of_nat hn]
    refine .of_all Nat.toDigits_ne_nil fun c hc => ?_
    exact isBlank_of_part (isIdentifierPart_of_isDigit
      (Nat.isDigit_of_mem_toDigits (by decide) (by decide) hc))
  | float f => exact absurd rfl (hf f)
  | string t =>
    have htext := quoted_append t []
    rw [List.append_nil] at htext
    rw [Literal.print, htext]
    exact .enclosed (by decide) (by decide) _

/-- The text of a term begins and ends with no white space. -/
theorem trimmed_print : ∀ {e : Term}, e.Proper → e.hasFloat = false →
    Trimmed e.print.toList
  | .literal l, he, hf => trimmed_literal he fun f hl => by
      subst hl
      exact nomatch hf
  | .variable name, he, _ =>
    .of_identifier (Bool.and_eq_true_iff.1 he).1
  | .array es, _, _ => by
    rw [Term.toList_print_array]
    exact .enclosed (by decide) (by decide) _
  | .object es, _, _ => by
    rw [Term.toList_print_object]
    exact .enclosed (by decide) (by decide) _
  | .property e name, he, hf => by
    rw [Term.toList_print_property]
    have hname := Trimmed.of_identifier he.2
    -- how a text ends is seen from what is printed last
    exact ((trimmed_print he.1 hf).part _).append (hname.back.behind ['.'])
  | .index e i, he, hf => by
    have hfe := (Bool.or_eq_false_iff.1 hf).1
    rw [Term.toList_print_index]
    exact ((trimmed_print he.1 hfe).part _).append
      (Trimmed.enclosed (by decide) (by decide) _).back
  | .call qualifier name args, he, _ => by
    rw [Term.toList_print_call]
    have hname := Trimmed.of_identifier (Bool.and_eq_true_iff.1 he.1).1
    have hargs : Closed ('(' :: (commas (fun e => e.print.toList) args ++ [')'])) :=
      (Trimmed.enclosed (by decide) (by decide) _).back
    exact hname.append ((hargs.behind name.toList).behind [':'])
  | .unary op e, he, hf => by
    have hsymbol : ∃ c s, op.symbol.toList = c :: s ∧ isBlank c = false := by
      cases op with
      | minus => exact ⟨'-', [], rfl, by decide⟩
      | not => exact ⟨'!', [], rfl, by decide⟩
      | empty => exact ⟨'e', _, rfl, by decide⟩
    obtain ⟨c, s, htext, hc⟩ := hsymbol
    have hoperand := (trimmed_print (e := e) he hf).part unaryLevel
    rw [Term.toList_print_unary]
    refine ⟨⟨c, s ++ partText unaryLevel e, ?_, hc⟩, hoperand.back.behind _⟩
    rw [htext, List.cons_append]
  | .binary op l r, he, hf => by
    obtain ⟨hfl, hfr⟩ := Bool.or_eq_false_iff.1 hf
    have hr := ((trimmed_print he.2 hfr).part (op.level + 1)).back
    rw [Term.toList_print_binary]
    exact ((trimmed_print he.1 hfl).part _).append
      (((hr.behind [' ']).behind op.symbol.toList).behind [' '])
  | .conditional test yes no, ⟨htest, _, hno⟩, hf => by
    obtain ⟨hf, hfno⟩ := Bool.or_eq_false_iff.1 hf
    have hftest := (Bool.or_eq_false_iff.1 hf).1
    have hno := (trimmed_print hno hfno).back
    rw [Term.toList_print_conditional]
    exact ((trimmed_print htest hftest).part _).append
      (((hno.behind [' ', ':', ' ']).behind yes.print.toList).behind
        [' ', '?', ' '])

end Stencil.Expr
