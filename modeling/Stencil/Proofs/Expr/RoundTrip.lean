/-
An expression that is written with no more parentheses than precedence asks
for is read back as it was.

Each form of a term is read from its own tokens and the texts of its parts;
parentheses make any term a primary expression, so a part is read wherever it
stands. Floats are left out: their display is not always a literal.
-/
import Stencil.Proofs.Expr.Precedence
import Stencil.Proofs.Expr.Printing

namespace Stencil.Expr

open Text (isSpace)

-- =========================================================== primary forms

section

variable {p : List Char} {e : Term}

theorem readGroup_eq_none {f : Reader Term} {s : List Char}
    (h : mark? '(' s = none) : readGroup f s = none := by
  unfold readGroup
  rw [h]
  rfl

theorem readBracketed_eq_none {α : Type} {item : Reader α} {o c : Char}
    {s : List Char} (h : mark? o s = none) :
    readBracketed o c item s = none := by
  unfold readBracketed
  rw [h]
  rfl

/-- A text that is read as a primary expression, whatever ends it. -/
theorem Reads.of_primary
    (h : ∀ rest, Stops rest → readPrefixOp (p ++ rest) = none
      ∧ skipSpace (p ++ rest) = p ++ rest
      ∧ ∃ r, Loose rest r ∧ readPrimary readTerm (p ++ rest) = some (e, r)) :
    Reads 9 p e := by
  refine .of_gives (fun rest hrest => ?_) (.inr (.inr rfl))
  obtain ⟨hop, hspace, r, hr, hread⟩ := h rest hrest.toStops
  refine ⟨fun _ => hop, r, hr, ?_⟩
  show readPrimary readTerm (skipSpace (p ++ rest)) = _
  rw [hspace, hread]

/-- Parentheses make a primary expression of any. -/
theorem reads_group (h : Reads 0 p e) : Reads 9 ('(' :: (p ++ [')'])) e := by
  refine .of_primary fun rest _ => ⟨rfl, rfl, skipSpace rest, .skipped rest, ?_⟩
  have htext : '(' :: (p ++ [')']) ++ rest = '(' :: (p ++ ')' :: rest) := by simp
  have hinner : readTerm (skipSpace (p ++ ')' :: rest)) = some (e, ')' :: rest) :=
    (reader_skipSpace (Nat.zero_le 7) _).trans (h.closed (by decide) rest)
  have hgroup : readGroup readTerm ('(' :: (p ++ ')' :: rest))
      = some (e, skipSpace rest) := by
    unfold readGroup
    rw [mark?_self (by decide)]
    show (readTerm (skipSpace _) >>= _) = _
    rw [hinner]
    rfl
  rw [htext, readPrimary, hgroup]
  rfl

/-- A part is read wherever it stands. -/
theorem reads_part {m : Nat} (hm : m ≤ 9) (h : Reads e.level e.print.toList e) :
    Reads m (partText m e) e := by
  rw [partText_eq]
  split
  · exact (reads_group (h.mono (Nat.zero_le _))).mono hm
  · next hlevel => exact h.mono (Nat.le_of_not_lt hlevel)

end

-- ==================================================================== names

section

variable {name rest : List Char}

/-- A name begins with no space and no bracket. -/
theorem name_front (hname : isIdentifier name = true) (rest : List Char) :
    skipSpace (name ++ rest) = name ++ rest
    ∧ mark? '(' (name ++ rest) = none ∧ mark? '[' (name ++ rest) = none
    ∧ mark? '\x7b' (name ++ rest) = none := by
  obtain ⟨c, s, rfl, hc⟩ := exists_start hname
  have hspace := isSpace_of_start hc
  exact ⟨skipSpace_cons hspace _,
    mark?_other hspace (ne_of_start hc (by decide)) _,
    mark?_other hspace (ne_of_start hc (by decide)) _,
    mark?_other hspace (ne_of_start hc (by decide)) _⟩

/-- A name that is no literal is read as a call or as a variable. -/
theorem readPrimary_name (hname : isIdentifier name = true)
    (hliteral : readLiteral (name ++ rest) = none) :
    readPrimary readTerm (name ++ rest)
      = (readCall readTerm (name ++ rest) <|> readVariable (name ++ rest)) := by
  obtain ⟨-, hparen, hbracket, hbrace⟩ := name_front hname rest
  rw [readPrimary, readGroup_eq_none hparen, hliteral,
    readBracketed_eq_none hbracket, readBracketed_eq_none hbrace]
  rfl

theorem reads_variable {name : String} (h : isValidName name = true) :
    Reads 9 name.toList (.variable name) := by
  obtain ⟨hname, hreserved⟩ := Bool.and_eq_true_iff.1 h
  rw [Bool.not_eq_true'] at hreserved
  have hfree {w : List Char} (hw : isReserved w = true) : w ≠ name.toList := by
    rintro rfl
    rw [hw] at hreserved
    cases hreserved
  refine .of_primary fun rest hrest => ⟨?_, (name_front hname rest).1, rest,
    .refl rest, ?_⟩
  · exact readPrefixOp_name hname hrest.name (hfree (by decide))
      (hfree (by decide))
  · have hliteral : readLiteral (name.toList ++ rest) = none := by
      rw [readLiteral_name hname hrest.name, if_neg (hfree (by decide)),
        if_neg (hfree (by decide)), if_neg (hfree (by decide))]
    have hidentifier := readIdentifier_name hname hrest.name
    -- no colon follows, so it is not taken for a call
    have hcall : readCall readTerm (name.toList ++ rest) = none := by
      unfold readCall
      rw [hidentifier]
      show (strip? [':'] rest >>= _) = _
      rw [hrest.colon]
      rfl
    rw [readPrimary_name hname hliteral, hcall]
    unfold readVariable
    rw [hidentifier]
    show (if isReserved name.toList then none else _) = _
    rw [if_neg (by rw [hreserved]; exact nofun), String.ofList_toList]

end

-- ================================================================ literals

/-- A whole number without a sign begins with a digit. -/
theorem text_start {i : Int64} (hi : 0 ≤ i.toInt) :
    ∃ c s, (Number.text i).toList = c :: s ∧ c.isDigit = true := by
  obtain ⟨n, hn⟩ := Int.eq_ofNat_of_zero_le hi
  obtain ⟨c, s, hcs⟩ := List.exists_cons_of_ne_nil
    (Nat.toDigits_ne_nil : Nat.toDigits 10 n ≠ [])
  refine ⟨c, s, (text_of_nat hn).trans hcs, ?_⟩
  exact Nat.isDigit_of_mem_toDigits (by decide) (by decide)
    (hcs ▸ List.mem_cons_self)

/-- Literals begin with no space, no parenthesis and no prefix operator. -/
theorem literal_front {l : Literal} (hl : l.Proper) (hf : ∀ f, l ≠ .float f)
    {rest : List Char} (h : Stops rest) :
    readPrefixOp (l.print.toList ++ rest) = none
    ∧ skipSpace (l.print.toList ++ rest) = l.print.toList ++ rest
    ∧ mark? '(' (l.print.toList ++ rest) = none := by
  -- the words among the literals are names, but not those of operators
  have hword (w : List Char) (hw : isIdentifier w = true)
      (hnot : ['n', 'o', 't'] ≠ w) (hempty : ['e', 'm', 'p', 't', 'y'] ≠ w) :
      readPrefixOp (w ++ rest) = none
      ∧ skipSpace (w ++ rest) = w ++ rest
      ∧ mark? '(' (w ++ rest) = none :=
    have ⟨hspace, hparen, _⟩ := name_front hw rest
    ⟨readPrefixOp_name hw h.name hnot hempty, hspace, hparen⟩
  cases l with
  | null => exact hword ['n', 'u', 'l', 'l'] rfl (by decide) (by decide)
  | bool b =>
    cases b with
    | true =>
      exact hword ['t', 'r', 'u', 'e'] rfl (by decide) (by decide)
    | false =>
      exact hword ['f', 'a', 'l', 's', 'e'] rfl (by decide) (by decide)
  | int i =>
    obtain ⟨c, s, htext, hc⟩ := text_start hl
    have hother {d : Char} (hd : d.isDigit = false) : c ≠ d := by
      rintro rfl
      rw [hc] at hd
      cases hd
    have hspace : isSpace c = false := by
      simp [isSpace, hother (d := ' ') rfl, hother (d := '\t') rfl,
        hother (d := '\r') rfl, hother (d := '\n') rfl]
    rw [Literal.print, htext]
    exact ⟨readPrefixOp_other hspace (hother rfl) (hother rfl) (hother rfl)
        (hother rfl) _, skipSpace_cons hspace _, mark?_other hspace (hother rfl) _⟩
  | float f => exact absurd rfl (hf f)
  | string t =>
    rw [Literal.print, quoted_append]
    exact ⟨rfl, rfl, rfl⟩

theorem reads_literal {l : Literal} (hl : l.Proper)
    (hf : ∀ f, l ≠ .float f) : Reads 9 l.print.toList (.literal l) := by
  refine .of_primary fun rest hrest => ?_
  obtain ⟨hop, hspace, hparen⟩ := literal_front hl hf hrest
  refine ⟨hop, hspace, rest, .refl rest, ?_⟩
  rw [readPrimary, readGroup_eq_none hparen, readLiteral_print hrest hl hf]
  rfl

-- =================================================================== lists

section

variable {α : Type} {item : Reader α} {text : α → List Char}

/-- Texts with a comma and a space before each. -/
def behindCommas (ps : List (List Char)) : List Char :=
  ps.flatMap fun p => ',' :: ' ' :: p

theorem commas_cons (x : α) (xs : List α) :
    commas text (x :: xs) = text x ++ behindCommas (xs.map text) := by
  unfold commas
  induction xs generalizing x with
  | nil => simp [behindCommas]
  | cons y xs ih =>
    rw [List.map_cons, List.map_cons, List.intercalate_cons_cons,
      ← List.map_cons, ih y]
    simp [behindCommas]

/-- A comma or a closing bracket stands behind an item. -/
theorem ends_behindCommas {c : Char} (hc : c ∈ [')', ']', '\x7d'])
    (ps : List (List Char)) (rest : List Char) :
    Ends 0 (behindCommas ps ++ c :: rest) := by
  cases ps with
  | nil => exact ends_closer (List.mem_append_left [','] hc) rest
  | cons p ps => exact ends_closer (by decide) _

/-- A reader of items reads each from its text, if an end of expressions
stands behind it. -/
structure ReadsItems (item : Reader α) (text : α → List Char) (xs : List α) :
    Prop where
  read : ∀ x ∈ xs, ∀ rest, Ends 0 rest →
    ∃ r, Loose rest r ∧ item (text x ++ rest) = some (x, r)
  space : ∀ s, item (skipSpace s) = item s
  shorter : ∀ s x r, item s = some (x, r) → r.length ≤ s.length

theorem ReadsItems.tail {x : α} {xs : List α}
    (h : ReadsItems item text (x :: xs)) : ReadsItems item text xs :=
  ⟨fun y hy => h.read y (List.mem_cons_of_mem x hy), h.space, h.shorter⟩

/-- Items behind commas are read to the closing bracket. -/
theorem readMore_written {xs : List α} (h : ReadsItems item text xs)
    {c : Char} (hc : c ∈ [')', ']', '\x7d']) (rest : List Char) {r : List Char}
    (hr : Loose (behindCommas (xs.map text) ++ c :: rest) r) :
    ∃ r', Loose (c :: rest) r' ∧ readMore item r = (xs, r') := by
  have hguard (s : List Char) (x : α) (t : List Char)
      (ht : (mark? ',' s).bind item = some (x, t)) : t.length < s.length := by
    obtain ⟨s', hs', ht⟩ := Option.bind_eq_some_iff.1 ht
    exact Nat.lt_of_le_of_lt (h.shorter s' x t ht) (length_lt_of_mark hs')
  induction xs generalizing r with
  | nil =>
    refine ⟨r, hr, ?_⟩
    -- the closing mark is no comma, so no item is tried
    have hcomma : mark? ',' r = none := by
      rw [hr.mark]
      simp only [List.mem_cons, List.not_mem_nil, or_false] at hc
      rcases hc with rfl | rfl | rfl <;> rfl
    rw [readMore_eq (hguard r), hcomma]
    rfl
  | cons x xs ih =>
    let tail := behindCommas (xs.map text) ++ c :: rest
    have hcomma : mark? ',' r = some (skipSpace (text x ++ tail)) := by
      have htext : behindCommas ((x :: xs).map text) ++ c :: rest
          = ',' :: ' ' :: (text x ++ tail) := by
        simp [behindCommas, tail]
      rw [hr.mark, htext]
      rfl
    obtain ⟨r₁, hr₁, hread⟩ :=
      h.read x List.mem_cons_self tail (ends_behindCommas hc _ rest)
    obtain ⟨r₂, hr₂, hmore⟩ := ih h.tail hr₁
    refine ⟨r₂, hr₂, ?_⟩
    have hitem : (mark? ',' r).bind item = some (x, r₁) := by
      rw [hcomma]
      exact (h.space _).trans hread
    rw [readMore_eq (hguard r), hitem]
    dsimp only
    rw [hmore]

/-- Items between brackets are read, if a closing bracket is no item. -/
theorem readBracketed_written {xs : List α} (h : ReadsItems item text xs)
    {o c : Char} (ho : isSpace o = false) (hc : c ∈ [')', ']', '\x7d'])
    (hbarren : ∀ s, item (c :: s) = none) (rest : List Char) :
    readBracketed o c item
        (o :: (commas text xs ++ [c]) ++ rest)
      = some (xs, skipSpace rest) := by
  have hspace : isSpace c = false := isSpace_closer hc
  have htext : o :: (commas text xs ++ [c]) ++ rest
      = o :: (commas text xs ++ c :: rest) := by simp
  have hitems : ∃ r, Loose (c :: rest) r ∧
      readItems item (skipSpace (commas text xs ++ c :: rest)) = (xs, r) := by
    cases xs with
    | nil =>
      refine ⟨c :: rest, .refl _, ?_⟩
      rw [commas, List.map_nil, List.intercalate_nil, List.nil_append,
        skipSpace_cons hspace, readItems, hbarren]
    | cons x xs =>
      obtain ⟨r₁, hr₁, hread⟩ :=
        h.read x List.mem_cons_self _ (ends_behindCommas hc (xs.map text) rest)
      obtain ⟨r₂, hr₂, hmore⟩ := readMore_written h.tail hc rest hr₁
      refine ⟨r₂, hr₂, ?_⟩
      rw [commas_cons, List.append_assoc, readItems, h.space, hread]
      dsimp only
      rw [hmore]
  obtain ⟨r, hr, hread⟩ := hitems
  -- what the items leave begins with the closing mark
  have hclose : mark? c r = some (skipSpace rest) :=
    (hr.mark c).trans (mark?_self hspace rest)
  rw [htext]
  unfold readBracketed
  rw [mark?_self ho]
  show (fun q : List α × List Char => mark? c q.2 >>= fun r => some (q.1, r))
    (readItems item (skipSpace _)) = _
  rw [hread]
  show (mark? c r >>= _) = _
  rw [hclose]
  rfl

end

-- ============================================================ constructors

/-- Terms are items. -/
theorem readsItems_terms {es : List Term}
    (h : ∀ e ∈ es, Reads e.level e.print.toList e) :
    ReadsItems readTerm (fun e => e.print.toList) es where
  read e he rest hrest :=
    ((h e he).gives 0 (Nat.zero_le _) rest hrest).2
  space := reader_skipSpace (Nat.zero_le 7)
  shorter _ _ _ hread := (readTerm_ok hread).1.length_le

theorem reads_array {es : List Term}
    (h : ∀ e ∈ es, Reads e.level e.print.toList e) :
    Reads 9 (Term.array es).print.toList (.array es) := by
  rw [Term.toList_print_array]
  refine .of_primary fun rest _ => ⟨rfl, rfl, skipSpace rest, .skipped rest, ?_⟩
  have hitems := readBracketed_written (readsItems_terms h) (o := '[') (c := ']')
    rfl (by decide) (fun s => reader_barren (by decide) (Nat.zero_le 7) s) rest
  unfold readPrimary
  rw [hitems]
  rfl

/-- Entries of objects are items. -/
theorem readsItems_entries {es : List (String × Term)}
    (h : ∀ e ∈ es, Reads e.2.level e.2.print.toList e.2) :
    ReadsItems (readEntry readTerm) entryText es where
  read e he rest hrest := by
    obtain ⟨-, r, hr, hread⟩ := (h e he).gives 0 (Nat.zero_le _) rest hrest
    refine ⟨r, hr, ?_⟩
    have htext : entryText e ++ rest
        = (quoted e.1).toList ++ ':' :: ' ' :: (e.2.print.toList ++ rest) := by
      simp [entryText]
    have hspace : skipSpace (entryText e ++ rest) = entryText e ++ rest := by
      simp [entryText, quoted, skipSpace, isSpace]
    have hinner : readTerm (' ' :: (e.2.print.toList ++ rest))
        = some (e.2, r) := by
      -- the reader of terms skips the space behind the colon by itself
      have hskip := reader_skipSpace (Nat.zero_le 7)
      exact (hskip _).symm.trans ((hskip (e.2.print.toList ++ rest)).trans hread)
    unfold readEntry
    rw [hspace, htext, readString_quoted]
    show (readTerm (' ' :: (e.2.print.toList ++ rest)) >>= _) = _
    rw [hinner]
    rfl
  space s := by
    unfold readEntry
    rw [skipSpace_skipSpace]
  shorter s e r hread :=
    (((alike_readTerm s.length).readEntry (Nat.le_refl _)).taken hread).length_le

theorem reads_object {es : List (String × Term)}
    (hkeys : (es.map Prod.fst).Nodup)
    (h : ∀ e ∈ es, Reads e.2.level e.2.print.toList e.2) :
    Reads 9 (Term.object es).print.toList (.object es) := by
  rw [Term.toList_print_object]
  refine .of_primary fun rest _ => ⟨rfl, rfl, skipSpace rest, .skipped rest, ?_⟩
  have hitems := readBracketed_written (readsItems_entries h) (o := '\x7b')
    (c := '\x7d') rfl (by decide) (fun _ => rfl) rest
  unfold readPrimary
  rw [hitems]
  exact congrArg (fun es => some (Term.object es, _)) (enterAll_of_nodup hkeys)

theorem reads_call {qualifier name : String} {args : List Term}
    (hqualifier : isQualifier qualifier.toList = true)
    (hname : isIdentifier name.toList = true)
    (h : ∀ e ∈ args, Reads e.level e.print.toList e) :
    Reads 9 (Term.call qualifier name args).print.toList
      (.call qualifier name args) := by
  obtain ⟨hidentifier, hfresh⟩ := Bool.and_eq_true_iff.1 hqualifier
  -- a qualifier is none of the words that begin an operand
  have hother {w : List Char} (hw : w ∈ wordsForOperand) :
      w ≠ qualifier.toList := by
    rintro rfl
    rw [Bool.not_eq_true', List.contains_eq_mem] at hfresh
    exact absurd hw (of_decide_eq_false hfresh)
  refine .of_primary fun rest _ => ?_
  let inside := '(' :: (commas (fun e => e.print.toList) args ++ [')']) ++ rest
  have htext : (Term.call qualifier name args).print.toList ++ rest
      = qualifier.toList ++ ':' :: (name.toList ++ inside) := by
    simp [Term.toList_print_call, inside]
  have hitems : readBracketed '(' ')' readTerm inside
      = some (args, skipSpace rest) :=
    readBracketed_written (readsItems_terms h) rfl (by decide)
      (fun s => reader_barren (by decide) (Nat.zero_le 7) s) rest
  have hliteral : readLiteral (qualifier.toList ++ ':' :: (name.toList ++ inside))
      = none := by
    rw [readLiteral_name hidentifier rfl, if_neg (hother (by decide)),
      if_neg (hother (by decide)), if_neg (hother (by decide))]
  have hcall : readCall readTerm
      (qualifier.toList ++ ':' :: (name.toList ++ inside))
      = some (.call qualifier name args, skipSpace rest) := by
    unfold readCall
    rw [readIdentifier_name hidentifier rfl]
    show (readIdentifier (name.toList ++ inside) >>= _) = _
    rw [readIdentifier_name hname rfl]
    show (readBracketed '(' ')' readTerm inside >>= _) = _
    rw [hitems]
    show some (Term.call (String.ofList _) (String.ofList _) args, _) = _
    rw [String.ofList_toList, String.ofList_toList]
  rw [htext]
  refine ⟨readPrefixOp_name hidentifier rfl (hother (by decide))
    (hother (by decide)), (name_front hidentifier _).1, skipSpace rest,
    .skipped rest, ?_⟩
  rw [readPrimary_name hidentifier hliteral, hcall]
  rfl

-- ================================================================ all terms

mutual

/-- A proper term without floats is read from its text. -/
theorem reads_print : ∀ {e : Term}, e.Proper → e.hasFloat = false →
    Reads e.level e.print.toList e
  | .literal l, he, hf => reads_literal he fun f hl => by
      subst hl
      exact nomatch hf
  | .variable name, he, _ => reads_variable he
  | .array es, he, hf => reads_array (reads_printItems he hf)
  | .object es, he, hf => reads_object he.1 (reads_printEntries he.2 hf)
  | .property e name, he, hf => by
    have htarget := reads_part (m := 8) (by omega) (reads_print he.1 hf)
    have hread := reads_property htarget he.2
    rw [String.ofList_toList] at hread
    rw [Term.toList_print_property]
    exact hread
  | .index e i, he, hf => by
    obtain ⟨hfe, hfi⟩ := Bool.or_eq_false_iff.1 hf
    have htarget := reads_part (m := 8) (by omega) (reads_print he.1 hfe)
    have hi := (reads_print he.2 hfi).mono (Nat.zero_le _)
    rw [Term.toList_print_index]
    exact reads_index htarget hi
  | .call qualifier name args, ⟨hqualifier, hname, hargs⟩, hf =>
    reads_call hqualifier hname (reads_printItems hargs hf)
  | .unary op e, he, hf => by
    have hoperand := reads_part (m := 7) (by omega) (reads_print (e := e) he hf)
    rw [Term.toList_print_unary]
    exact reads_unary op hoperand
  | .binary op l r, he, hf => by
    obtain ⟨hfl, hfr⟩ := Bool.or_eq_false_iff.1 hf
    have hbounds := level_bounds op
    -- operators associate to the left, so the right operand is bound tighter
    have hl := reads_part (m := op.level) (by omega) (reads_print he.1 hfl)
    have hr := reads_part (m := op.level + 1) (by omega) (reads_print he.2 hfr)
    rw [Term.toList_print_binary]
    exact reads_binary hl hr
  | .conditional test yes no, ⟨htest, hyes, hno⟩, hf => by
    obtain ⟨hf, hfno⟩ := Bool.or_eq_false_iff.1 hf
    obtain ⟨hftest, hfyes⟩ := Bool.or_eq_false_iff.1 hf
    have htest := reads_part (m := 1) (by omega) (reads_print htest hftest)
    have hyes := (reads_print hyes hfyes).mono (Nat.zero_le _)
    have hno := (reads_print hno hfno).mono (Nat.zero_le _)
    rw [Term.toList_print_conditional]
    exact reads_conditional htest hyes hno

theorem reads_printItems : ∀ {es : List Term}, ProperItems es →
    haveFloat es = false → ∀ e ∈ es, Reads e.level e.print.toList e
  | [], _, _ => nofun
  | e :: es, ⟨he, hes⟩, hf => by
    obtain ⟨hfe, hfes⟩ := Bool.or_eq_false_iff.1 hf
    exact List.forall_mem_cons.2
      ⟨reads_print he hfe, reads_printItems hes hfes⟩

theorem reads_printEntries : ∀ {es : List (String × Term)},
    ProperEntries es → entriesHaveFloat es = false →
      ∀ e ∈ es, Reads e.2.level e.2.print.toList e.2
  | [], _, _ => nofun
  | (k, e) :: es, ⟨he, hes⟩, hf => by
    obtain ⟨hfe, hfes⟩ := Bool.or_eq_false_iff.1 hf
    exact List.forall_mem_cons.2
      ⟨reads_print he hfe, reads_printEntries hes hfes⟩

end

-- ============================================================= main results

/-- A text that is read as an expression without floats gives one that is read
as that expression again, written with no more parentheses than precedence
asks for. -/
theorem parse_print (text : String) (e : Term) (h : parse text = .ok e)
    (hf : e.hasFloat = false) : parse e.print = .ok e := by
  have hproper : e.Proper := by
    unfold parse at h
    dsimp only at h
    split at h
    · next hread =>
      cases h
      exact (readTerm_ok hread).2
    · cases h
    · cases h
  obtain ⟨-, r, hr, hread⟩ :=
    (reads_print hproper hf).gives 0 (Nat.zero_le _) [] ends_nil
  rw [hr.nil, List.append_nil] at hread
  have hread : readTerm e.print.toList = some (e, []) := hread
  unfold parse
  dsimp only
  rw [(trimmed_print hproper hf).trim_eq, hread]

/-- Every level of precedence, calls beside conditionals, a property of a
number, and a string with a quote in it. -/
theorem parse_print_mixed :
    let text := " a?(b?1 :c.or) : not-f:g ( 2.x, [ ] )[empty(3)] or"
      ++ "(p-(q- r))-s*(t + \x7bk :'\\'\\n', k:null\x7d )eq !(u== v)"
    ∃ e, parse text = .ok e
      ∧ e.print = "a ? b ? 1 : c.or : !-f:g(2.x, [])[empty 3] || "
        ++ "p - (q - r) - s * (t + \x7b'k': null\x7d) == !(u == v)"
      ∧ parse e.print = .ok e := by
  intro text
  have hprint : (parse text).map (fun e => (e.print, e.hasFloat))
      = .ok ("a ? b ? 1 : c.or : !-f:g(2.x, [])[empty 3] || "
        ++ "p - (q - r) - s * (t + \x7b'k': null\x7d) == !(u == v)", false) := by
    decide +kernel
  cases he : parse text with
  | error fault =>
    rw [he] at hprint
    cases hprint
  | ok e =>
    rw [he] at hprint
    obtain ⟨htext, hf⟩ := Prod.mk.inj (Except.ok.inj hprint)
    exact ⟨e, rfl, htext, parse_print text e he hf⟩

end Stencil.Expr
