/-
The levels of precedence, as readers.

A reader of one level reads what the reader of the next tighter one gives, and
goes on from there: `extend` is how it does. A written expression is read at
its own level, and at every looser one, if what stands behind it `Ends` it
there. To the left of an operator of the same level it is not the end yet: the
reader goes on from the expression, which is what `Leads` says.
-/
import Stencil.Proofs.Expr.Tokens

namespace Stencil.Expr

open Text (isSpace)

-- ================================================================ readers

/-- The binary operators of a level. -/
def levelAt (k : Nat) : Level := levels.getD (k - 1) []

/-- The reader of what holds together at a level or tighter: whole
expressions, operands of the binary operators from the loosest on, operands of
prefix operators, operands with accessors, and primary expressions. -/
def reader : Nat → Reader Term
  | 0 => readTerm
  | 8 => readPostfix readTerm
  | 9 => fun s => readPrimary readTerm (skipSpace s)
  | k + 1 => (levels.drop k).foldr readBinary (readUnary (readPostfix readTerm))

/-- How the reader of a level goes on from an expression. -/
def extend : Nat → Term → List Char → Term × List Char
  | 0, e, r =>
    match readBranches readTerm r with
    | some ((yes, no), r) => (.conditional e yes no, r)
    | none => (e, r)
  | 7, e, r => (e, r)
  | 8, e, r => readAccessors readTerm e r
  | k + 1, e, r => readChain (levelAt (k + 1)) (reader (k + 2)) e r

theorem extend_whole (e : Term) (r : List Char) :
    extend 0 e r
      = match readBranches readTerm r with
        | some ((yes, no), r) => (.conditional e yes no, r)
        | none => (e, r) := rfl

/-- The levels of the binary operators. -/
theorem levels_binary {k : Nat} (hk : 1 ≤ k) (hk' : k ≤ 6) :
    levels.drop (k - 1) = levelAt k :: levels.drop k
    ∧ reader k = readBinary (levelAt k) (reader (k + 1))
    ∧ extend k = readChain (levelAt k) (reader (k + 1)) := by
  match k with
  | 1 | 2 | 3 | 4 | 5 | 6 => exact ⟨rfl, rfl, rfl⟩
  | 0 | k + 7 => omega

theorem levelAt_mem {k : Nat} (hk : 1 ≤ k) (hk' : k ≤ 6) :
    levelAt k ∈ levels := by
  have hmem : levelAt k ∈ levels.drop (k - 1) := by
    rw [(levels_binary hk hk').1]
    exact List.mem_cons_self
  exact List.drop_subset _ _ hmem

/-- Up to the operands of prefix operators, a reader goes on from what the
next tighter one gives. -/
theorem reader_step {k : Nat} (hk : k ≤ 6) (s : List Char) :
    reader k s = (reader (k + 1) s).map fun (e, r) => extend k e r := by
  cases k with
  | zero =>
    show readTerm s = (levels.foldr readBinary _ s).map _
    rw [readTerm_eq, readWith]
    cases levels.foldr readBinary (readUnary (readPostfix readTerm)) s with
    | none => rfl
    | some q =>
      obtain ⟨e, r⟩ := q
      dsimp only [Option.map]
      rw [extend_whole]
      show (match readBranches readTerm r with
        | some ((yes, no), r) => some (Term.conditional e yes no, r)
        | none => some (e, r)) = _
      cases readBranches readTerm r <;> rfl
  | succ k =>
    obtain ⟨-, hreader, hextend⟩ := levels_binary (Nat.succ_pos k) hk
    rw [hreader, hextend, readBinary]

theorem reader_unary (s : List Char) :
    reader 7 s
      = match readPrefixOp s with
        | none => reader 8 s
        | some (op, r) => (reader 7 r).map fun (e, r) => (.unary op e, r) :=
  readUnary_eq (readPostfix readTerm) s

theorem reader_accessors (s : List Char) :
    reader 8 s
      = (reader 9 s).map fun (e, r) => extend 8 e (skipSpace r) := by
  show readPostfix readTerm s = (readPrimary readTerm (skipSpace s)).map _
  unfold readPostfix
  cases readPrimary readTerm (skipSpace s) <;> rfl

/-- Readers skip space in front. -/
theorem reader_skipSpace {k : Nat} (hk : k ≤ 7) (s : List Char) :
    reader k (skipSpace s) = reader k s := by
  have htight : reader 7 (skipSpace s) = reader 7 s := by
    have hprimary : reader 9 (skipSpace s) = reader 9 s :=
      congrArg (readPrimary readTerm) (skipSpace_skipSpace s)
    rw [reader_unary, reader_unary, readPrefixOp_skipSpace, reader_accessors,
      reader_accessors, hprimary]
  induction hk using Nat.decreasingInduction with
  | self => exact htight
  | of_succ k hk ih =>
    rw [reader_step (Nat.le_of_lt_succ hk), ih,
      ← reader_step (Nat.le_of_lt_succ hk)]

/-- What is left by the reader of an operand is no longer. -/
theorem reader_length {k : Nat} (hk : 1 ≤ k) (hk' : k ≤ 7) {s r : List Char}
    {e : Term} (h : reader k s = some (e, r)) : r.length ≤ s.length := by
  have hlevels : reader k = (levels.drop (k - 1)).foldr readBinary
      (readUnary (readPostfix readTerm)) := by
    match k with
    | 1 | 2 | 3 | 4 | 5 | 6 | 7 => rfl
    | k + 8 => omega
  have hoperand : Alike (s.length + 1) Term.Proper
      (readUnary (readPostfix readTerm)) (readUnary (readPostfix readTerm)) :=
    fun t ht => (alike_readTerm s.length).readUnary t (Nat.le_of_lt_succ ht)
  have hread := hoperand.readLevels (List.drop_subset (k - 1) levels) s
    (Nat.lt_succ_self _)
  rw [← hlevels] at hread
  exact (hread.taken h).length_le

-- ================================================================= endings

/-- No expression at the level of `k` or tighter goes on with the text. -/
structure Ends (k : Nat) (rest : List Char) : Prop extends Stops rest where
  accessor : k ≤ 8 → mark? '.' rest = none ∧ mark? '[' rest = none
  operator : ∀ level ∈ levels.drop (k - 1), readOperator level rest = none
  branches : k = 0 → mark? '?' rest = none

theorem Ends.mono {k m : Nat} {rest : List Char} (h : Ends k rest)
    (hkm : k ≤ m) : Ends m rest where
  toStops := h.toStops
  accessor hm := h.accessor (Nat.le_trans hkm hm)
  operator level hl := by
    refine h.operator level (List.drop_subset_drop_left levels ?_ hl)
    omega
  branches hm := h.branches (by omega)

/-- Where an expression ends, its reader does not go on. -/
theorem extend_of_ends {k : Nat} (hk : k ≤ 8) {rest r : List Char} (e : Term)
    (h : Ends k rest) (hr : Loose rest r) : extend k e r = (e, r) := by
  rcases (by omega : k = 0 ∨ (1 ≤ k ∧ k ≤ 6) ∨ k = 7 ∨ k = 8) with
    rfl | ⟨hk, hk'⟩ | rfl | rfl
  · have hbranches : readBranches readTerm r = none := by
      unfold readBranches
      rw [hr.mark, h.branches rfl]
      rfl
    rw [extend_whole, hbranches]
  · obtain ⟨hlevel, -, hextend⟩ := levels_binary hk hk'
    have hnone : readOperator (levelAt k) r = none :=
      (hr.operator _).trans
        (h.operator _ (hlevel ▸ List.mem_cons_self))
    rw [hextend, readChain, hnone]
  · rfl
  · obtain ⟨hdot, hbracket⟩ := h.accessor (Nat.le_refl 8)
    have haccessor : readAccessor readTerm e r = none := by
      unfold readAccessor
      rw [hr.mark, hr.mark, hdot, hbracket]
      rfl
    show readAccessors readTerm e r = (e, r)
    rw [readAccessors, haccessor]

-- ============================================================ expressions

/-- The text is read as the expression at a level, where it ends. From the
operands with accessors on it begins with no prefix operator. -/
def Gives (k : Nat) (p : List Char) (e : Term) : Prop :=
  ∀ rest, Ends k rest →
    (8 ≤ k → readPrefixOp (p ++ rest) = none)
    ∧ ∃ r, Loose rest r ∧ reader k (p ++ rest) = some (e, r)

/-- The reader of a level goes on from the expression that the text is. -/
def Leads (k : Nat) (p : List Char) (e : Term) : Prop :=
  ∀ rest, Ends (k + 1) rest →
    (8 ≤ k → readPrefixOp (p ++ rest) = none)
    ∧ ∃ r, Loose rest r ∧ reader k (p ++ rest) = some (extend k e r)

section

variable {k m : Nat} {p : List Char} {e : Term}

theorem Leads.gives (h : Leads k p e) (hk : k ≤ 8) : Gives k p e := by
  intro rest hrest
  obtain ⟨hprefixed, r, hr, hread⟩ := h rest (hrest.mono (Nat.le_succ k))
  exact ⟨hprefixed, r, hr, by rw [hread, extend_of_ends hk e hrest hr]⟩

theorem Gives.leads (h : Gives (k + 1) p e) (hk : k ≤ 8) : Leads k p e := by
  intro rest hrest
  obtain ⟨hprefixed, r, hr, hread⟩ := h rest hrest
  rcases (by omega : k ≤ 6 ∨ k = 7 ∨ k = 8) with hk | rfl | rfl
  · refine ⟨fun hk' => absurd hk' (by omega), r, hr, ?_⟩
    rw [reader_step hk, hread]
    rfl
  -- a prefix operator would be read first, so there must be none
  · refine ⟨fun hk' => absurd hk' (by omega), r, hr, ?_⟩
    rw [reader_unary, hprefixed (Nat.le_refl 8), hread]
    rfl
  · refine ⟨fun _ => hprefixed (by omega), skipSpace r, hr.skip, ?_⟩
    rw [reader_accessors, hread]
    rfl

theorem Gives.mono (h : Gives m p e) (hm : m ≤ 9) (hk : k ≤ m) :
    Gives k p e := by
  induction hk using Nat.decreasingInduction with
  | self => exact h
  | of_succ k hk ih =>
    exact (ih.leads (by omega)).gives (by omega)

end

/-- The text is read as the expression at a level and at every looser one, and
the readers that take operands to the left go on from it. -/
structure Reads (m : Nat) (p : List Char) (e : Term) : Prop where
  gives : ∀ k ≤ m, Gives k p e
  leads : ∀ k ≤ m, (1 ≤ k ∧ k ≤ 6) ∨ k = 8 → Leads k p e

namespace Reads

variable {k m : Nat} {p : List Char} {e : Term}

theorem mono (h : Reads m p e) (hk : k ≤ m) : Reads k p e :=
  ⟨fun j hj => h.gives j (Nat.le_trans hj hk),
    fun j hj => h.leads j (Nat.le_trans hj hk)⟩

/-- A level that does not take operands to the left. -/
theorem of_gives (h : Gives m p e) (hm : m = 0 ∨ m = 7 ∨ m = 9) :
    Reads m p e where
  gives k hk := h.mono (by omega) hk
  leads k hk hleft := (h.mono (by omega) (by omega : k + 1 ≤ m)).leads (by omega)

theorem of_leads (h : Leads m p e) (hm : m ≤ 8) : Reads m p e where
  gives k hk := (h.gives hm).mono (by omega) hk
  leads k hk _ := by
    rcases Nat.eq_or_lt_of_le hk with rfl | hk
    · exact h
    · exact ((h.gives hm).mono (by omega) hk).leads (by omega)

end Reads

-- =============================================================== operators

/-- An operator with a space on either side. -/
def spaced (op : BinaryOp) (s : List Char) : List Char :=
  ' ' :: (op.symbol.toList ++ ' ' :: s)

theorem readOperator_spaced (op : BinaryOp) (s : List Char) :
    readOperator (levelAt op.level) (spaced op s) = some (op, skipSpace s) := by
  cases op <;> rfl

theorem level_bounds (op : BinaryOp) : 1 ≤ op.level ∧ op.level ≤ 6 := by
  cases op <;> decide

/-- An operator ends what is tighter. -/
theorem ends_spaced (op : BinaryOp) (s : List Char) :
    Ends (op.level + 1) (spaced op s) where
  name := rfl
  colon := rfl
  fraction := rfl
  accessor _ := by cases op <;> exact ⟨rfl, rfl⟩
  operator := List.findSome?_eq_none_iff.1 (by cases op <;> rfl)
  branches h := absurd h (by omega)

/-- A bracket or a comma ends every expression. -/
theorem ends_closer {c : Char} (hc : c ∈ [')', ']', '\x7d', ','])
    (rest : List Char) : Ends 0 (c :: rest) := by
  simp only [List.mem_cons, List.not_mem_nil, or_false] at hc
  rcases hc with rfl | rfl | rfl | rfl <;>
    exact ⟨⟨rfl, rfl, rfl⟩, fun _ => ⟨rfl, rfl⟩,
      List.findSome?_eq_none_iff.1 rfl, fun _ => rfl⟩

theorem isSpace_closer {c : Char} (hc : c ∈ [')', ']', '\x7d']) :
    isSpace c = false := by
  simp only [List.mem_cons, List.not_mem_nil, or_false] at hc
  rcases hc with rfl | rfl | rfl <;> rfl

theorem ends_nil : Ends 0 [] :=
  ⟨⟨rfl, rfl, rfl⟩, fun _ => ⟨rfl, rfl⟩, List.findSome?_eq_none_iff.1 rfl,
    fun _ => rfl⟩

/-- A question mark ends the test of a conditional. -/
theorem ends_question (rest : List Char) : Ends 1 (' ' :: '?' :: rest) :=
  ⟨⟨rfl, rfl, rfl⟩, fun _ => ⟨rfl, rfl⟩,
    List.findSome?_eq_none_iff.1 rfl, nofun⟩

/-- A colon behind a space ends every expression. -/
theorem ends_colon (rest : List Char) : Ends 0 (' ' :: ':' :: rest) :=
  ⟨⟨rfl, rfl, rfl⟩, fun _ => ⟨rfl, rfl⟩,
    List.findSome?_eq_none_iff.1 rfl, fun _ => rfl⟩

section

variable {p q : List Char} {e l r : Term}

/-- The right operand of a binary operator binds tighter than it, and the left
one as tightly or tighter. -/
theorem reads_binary {op : BinaryOp} (hl : Reads op.level p l)
    (hr : Reads (op.level + 1) q r) :
    Reads op.level (p ++ spaced op q) (.binary op l r) := by
  obtain ⟨hk, hk'⟩ := level_bounds op
  obtain ⟨-, -, hextend⟩ := levels_binary hk hk'
  refine .of_leads (fun rest hrest => ⟨fun h => absurd h (by omega), ?_⟩)
    (by omega)
  have htext : p ++ spaced op q ++ rest = p ++ spaced op (q ++ rest) := by
    simp [spaced]
  obtain ⟨-, r₁, hr₁, hleft⟩ := hl.leads _ (Nat.le_refl _) (.inl ⟨hk, hk'⟩)
    (spaced op (q ++ rest)) (ends_spaced op _)
  obtain ⟨-, r₂, hr₂, hright⟩ := hr.gives _ (Nat.le_refl _) rest hrest
  have hop : readOperator (levelAt op.level) r₁
      = some (op, skipSpace (q ++ rest)) :=
    (hr₁.operator _).trans (readOperator_spaced op _)
  refine ⟨r₂, hr₂, ?_⟩
  rw [htext, hleft, hextend, readChain_eq (levelAt_mem hk hk')
    fun t x r' _ ht => reader_length (by omega) (by omega) ht, hop]
  dsimp only
  rw [reader_skipSpace (by omega), hright]

/-- A conditional has a test that is no conditional. -/
theorem reads_conditional {yes no : Term} {test : Term} {q' : List Char}
    (htest : Reads 1 p test) (hyes : Reads 0 q yes) (hno : Reads 0 q' no) :
    Reads 0 (p ++ ' ' :: '?' :: ' ' :: (q ++ ' ' :: ':' :: ' ' :: q'))
      (.conditional test yes no) := by
  refine .of_gives (fun rest hrest => ⟨fun h => absurd h (by omega), ?_⟩)
    (.inl rfl)
  have htext : p ++ ' ' :: '?' :: ' ' :: (q ++ ' ' :: ':' :: ' ' :: q') ++ rest
      = p ++ ' ' :: '?' :: ' ' :: (q ++ ' ' :: ':' :: ' ' :: (q' ++ rest)) := by
    simp
  obtain ⟨-, r₁, hr₁, h₁⟩ := htest.gives 1 (Nat.le_refl 1) _
    (ends_question (' ' :: (q ++ ' ' :: ':' :: ' ' :: (q' ++ rest))))
  obtain ⟨-, r₂, hr₂, h₂⟩ := hyes.gives 0 (Nat.le_refl 0) _
    (ends_colon (' ' :: (q' ++ rest)))
  obtain ⟨-, r₃, hr₃, h₃⟩ := hno.gives 0 (Nat.le_refl 0) rest hrest
  -- what is left of the test and of a branch begins with the next mark
  have hquestion : mark? '?' r₁
      = some (skipSpace (q ++ ' ' :: ':' :: ' ' :: (q' ++ rest))) :=
    hr₁.mark '?'
  have hcolon : mark? ':' r₂ = some (skipSpace (q' ++ rest)) := hr₂.mark ':'
  have hbranches : readBranches readTerm r₁ = some ((yes, no), r₃) := by
    unfold readBranches
    rw [hquestion]
    show (reader 0 (skipSpace _) >>= _) = _
    rw [reader_skipSpace (by omega), h₂]
    show (mark? ':' r₂ >>= _) = _
    rw [hcolon]
    show (reader 0 (skipSpace _) >>= _) = _
    rw [reader_skipSpace (by omega), h₃]
    rfl
  refine ⟨r₃, hr₃, ?_⟩
  rw [htext, reader_step (by omega), h₁]
  show some (extend 0 test r₁) = _
  rw [extend_whole, hbranches]

/-- No expression begins with an equals sign or a closing bracket. -/
theorem reader_barren {c : Char} (hc : c ∈ ['=', ')', ']', '\x7d']) {k : Nat}
    (hk : k ≤ 7) (s : List Char) : reader k (c :: s) = none := by
  have hprimary : readPrefixOp (c :: s) = none ∧ reader 9 (c :: s) = none := by
    simp only [List.mem_cons, List.not_mem_nil, or_false] at hc
    rcases hc with rfl | rfl | rfl | rfl <;> exact ⟨rfl, rfl⟩
  induction hk using Nat.decreasingInduction with
  | self => rw [reader_unary, hprimary.1, reader_accessors, hprimary.2]; rfl
  | of_succ k hk ih => rw [reader_step (Nat.le_of_lt_succ hk), ih]; rfl

/-- A prefix operator is taken off with the space behind it. -/
theorem readPrefixOp_symbol (op : UnaryOp) {s : List Char}
    (hs : s.head? ≠ some '=') :
    readPrefixOp (op.symbol.toList ++ s) = some (op, skipSpace s) := by
  cases op with
  | minus => rfl
  | empty => rfl
  | not =>
    have hbang : stripNot? ('!' :: s) = some s :=
      Option.filter_eq_some_iff.2 ⟨rfl, bne_iff_ne.2 hs⟩
    show ((stripNot? ('!' :: s)).map _ <|> _).map _ = _
    rw [hbang]
    rfl

theorem reads_unary (op : UnaryOp) (h : Reads 7 p e) :
    Reads 7 (op.symbol.toList ++ p) (.unary op e) := by
  refine .of_gives (fun rest hrest => ⟨fun h => absurd h (by omega), ?_⟩)
    (.inr (.inl rfl))
  obtain ⟨-, r, hr, hread⟩ := h.gives 7 (Nat.le_refl 7) rest hrest
  -- else the exclamation mark would be read as half of an inequality
  have hhead : (p ++ rest).head? ≠ some '=' := by
    intro hhead
    obtain ⟨s, hs⟩ := List.head?_eq_some_iff.1 hhead
    rw [hs, reader_barren (by decide) (Nat.le_refl 7)] at hread
    cases hread
  refine ⟨r, hr, ?_⟩
  rw [List.append_assoc, reader_unary, readPrefixOp_symbol op hhead]
  dsimp only
  rw [reader_skipSpace (Nat.le_refl 7), hread]
  rfl

-- ================================================================ accessors

/-- What is read up to a closing bracket leaves the bracket. -/
theorem Reads.closed (h : Reads 0 p e) {c : Char} (hc : c ∈ [')', ']', '\x7d'])
    (rest : List Char) : readTerm (p ++ c :: rest) = some (e, c :: rest) := by
  have hcloser : c ∈ [')', ']', '\x7d', ','] := List.mem_append_left [','] hc
  obtain ⟨-, r, hr, hread⟩ :=
    h.gives 0 (Nat.le_refl 0) _ (ends_closer hcloser rest)
  have hread : readTerm (p ++ c :: rest) = some (e, r) := hread
  rcases hr with rfl | rfl
  · exact hread
  · rw [skipSpace_cons (isSpace_closer hc)] at hread
    exact hread

/-- An accessor that is read behind an expression belongs to it. -/
theorem reads_accessor {f : Term} {q : List Char} (h : Reads 8 p e)
    (hq : ∀ rest, Ends 9 (q ++ rest))
    (haccessor : ∀ rest, Ends 9 rest → ∃ r, Loose rest r ∧
      ∀ r', Loose (q ++ rest) r' → readAccessor readTerm e r' = some (f, r)) :
    Reads 8 (p ++ q) f := by
  refine .of_leads (fun rest hrest => ?_) (Nat.le_refl 8)
  obtain ⟨hprefixed, r', hr', hleft⟩ :=
    h.leads 8 (Nat.le_refl 8) (.inr rfl) (q ++ rest) (hq rest)
  obtain ⟨r, hr, hread⟩ := haccessor rest hrest
  have hshorter (f' : Term) (t : List Char)
      (ht : readAccessor readTerm e r' = some (f', t)) :
      t.length < r'.length :=
    (alike_readTerm r'.length).length_lt_of_readAccessor (Nat.le_refl _) ht
  rw [List.append_assoc]
  refine ⟨hprefixed, r, hr, ?_⟩
  rw [hleft]
  show some (readAccessors readTerm e r') = some (readAccessors readTerm f r)
  rw [readAccessors_eq hshorter, hread r' hr']

theorem reads_property {name : List Char} (h : Reads 8 p e)
    (hname : isIdentifier name = true) :
    Reads 8 (p ++ '.' :: name) (.property e (String.ofList name)) := by
  obtain ⟨c, s, hcs, hc⟩ := exists_start hname
  refine reads_accessor h (fun rest => ⟨⟨rfl, rfl, ?_⟩, nofun, nofun, nofun⟩)
    fun rest hrest => ⟨rest, .refl rest, fun r' hr' => ?_⟩
  · rw [hcs]
    -- the point is not taken for that of a number: no digit follows
    have hdigits : (c :: (s ++ rest)).takeWhile Char.isDigit = [] :=
      List.takeWhile_cons_of_neg (by rw [isDigit_of_start hc]; exact nofun)
    show (if ((c :: (s ++ rest)).takeWhile Char.isDigit).isEmpty then []
      else _) = []
    rw [hdigits]
    rfl
  · have hspace : skipSpace (name ++ rest) = name ++ rest := by
      rw [hcs]
      exact skipSpace_cons (isSpace_of_start hc) (s ++ rest)
    have hdot : mark? '.' r' = some (name ++ rest) := by
      rw [hr'.mark, ← hspace]
      exact mark?_self (by decide) (name ++ rest)
    unfold readAccessor
    rw [hdot]
    show ((readIdentifier (name ++ rest) >>= _) <|> _) = _
    rw [readIdentifier_name hname hrest.name]
    rfl

theorem reads_index {i : Term} (h : Reads 8 p e) (hi : Reads 0 q i) :
    Reads 8 (p ++ '[' :: (q ++ [']'])) (.index e i) := by
  refine reads_accessor h (fun rest => ⟨⟨rfl, rfl, rfl⟩, nofun, nofun, nofun⟩)
    fun rest hrest => ⟨skipSpace rest, .skipped rest, fun r' hr' => ?_⟩
  have htext : '[' :: (q ++ [']']) ++ rest = '[' :: (q ++ ']' :: rest) := by simp
  rw [htext] at hr'
  have hdot : mark? '.' r' = none := hr'.mark '.'
  have hopen : mark? '[' r' = some (skipSpace (q ++ ']' :: rest)) := hr'.mark '['
  have hinner : readTerm (skipSpace (q ++ ']' :: rest))
      = some (i, ']' :: rest) :=
    (reader_skipSpace (Nat.zero_le 7) _).trans (hi.closed (by decide) rest)
  unfold readAccessor
  rw [hdot, hopen]
  show (readTerm (skipSpace _) >>= _) = _
  rw [hinner]
  rfl

end

end Stencil.Expr
