/-
What the scan for a closing brace makes of the tokens of an expression.

A text is `Even` if the scan goes through it and stands outside quotes again,
with as many braces open as before. Every token but a brace is even, and so is
an even text between braces. A reader of expressions takes even text off the
front, which is what `Taken` says.
-/
import Mathlib.Data.List.TakeWhile
import Mathlib.Data.Option.Basic
import Stencil.Expr.Substitution

namespace Stencil.Expr

open Text (isSpace isBlank)

-- ============================================================ the scan

/-- The state behind some characters, if none of them closes the
expression. -/
def BraceState.walk? : BraceState → List Char → Option BraceState
  | state, [] => some state
  | state, c :: s => (state.step? c).bind fun next => next.walk? s

theorem BraceState.walk?_append (state : BraceState) (s t : List Char) :
    state.walk? (s ++ t) = (state.walk? s).bind fun next => next.walk? t := by
  induction s generalizing state with
  | nil => rfl
  | cons c s ih =>
    rw [List.cons_append, walk?, walk?]
    cases state.step? c with
    | none => rfl
    | some next => exact ih next

/-- Characters that do not close the expression stay in front of what is
split behind them. -/
theorem splitBrace_append {state next : BraceState} {p : List Char}
    (h : state.walk? p = some next) (rest : List Char) :
    splitBrace state (p ++ rest)
      = (splitBrace next rest).map fun (body, behind) => (p ++ body, behind) := by
  induction p generalizing state with
  | nil =>
    cases h
    rw [List.nil_append]
    cases splitBrace next rest <;> rfl
  | cons c p ih =>
    obtain ⟨next', hc, hp⟩ := Option.bind_eq_some_iff.1 h
    rw [List.cons_append, splitBrace, hc]
    dsimp only
    rw [ih hp]
    cases splitBrace next rest <;> rfl

/-- The scan goes through the text and stands where it stood, outside
quotes. -/
def Even (p : List Char) : Prop :=
  ∀ depth, (BraceState.outside depth).walk? p = some (.outside depth)

/-- The first brace behind an even text closes the expression. -/
theorem Even.splitBrace {p : List Char} (h : Even p) (rest : List Char) :
    splitBrace (.outside 0) (p ++ '\x7d' :: rest) = some (p, rest) := by
  rw [splitBrace_append (h 0)]
  show some (p ++ [], rest) = _
  rw [List.append_nil]

theorem even_nil : Even [] := fun _ => rfl

theorem Even.append {p q : List Char} (hp : Even p) (hq : Even q) :
    Even (p ++ q) := by
  intro depth
  rw [BraceState.walk?_append, hp]
  exact hq depth

/-- Neither a quote nor a brace. -/
def Plain (c : Char) : Prop :=
  c ≠ '\'' ∧ c ≠ '"' ∧ c ≠ '\x7b' ∧ c ≠ '\x7d'

instance (c : Char) : Decidable (Plain c) :=
  inferInstanceAs (Decidable (_ ∧ _))

theorem even_of_plain {p : List Char} (h : ∀ c ∈ p, Plain c) : Even p := by
  intro depth
  induction p with
  | nil => rfl
  | cons c p ih =>
    obtain ⟨hsingle, hdouble, hopen, hclose⟩ := h c List.mem_cons_self
    have hstep : (BraceState.outside depth).step? c = some (.outside depth) := by
      simp [BraceState.step?, hsingle, hdouble, hopen, hclose]
    rw [BraceState.walk?, hstep]
    exact ih fun d hd => h d (List.mem_cons_of_mem _ hd)

/-- The characters of a token are checked one by one. -/
theorem plain_token {p : List Char} (h : p.all (fun c => decide (Plain c)) = true) :
    ∀ c ∈ p, Plain c :=
  fun c hc => of_decide_eq_true (List.all_eq_true.1 h c hc)

/-- An even text between braces is even. -/
theorem Even.braced {p : List Char} (h : Even p) :
    Even ('\x7b' :: p ++ ['\x7d']) := by
  intro depth
  have hopened : (BraceState.outside depth).walk? ('\x7b' :: p)
      = some (.outside (depth + 1)) := h (depth + 1)
  rw [BraceState.walk?_append, hopened]
  rfl

-- ================================================================ classes

/-- A class of characters without quotes and braces. -/
theorem plain_of_class {p : Char → Bool} {c : Char} (hc : p c = true)
    (hsingle : p '\'' = false) (hdouble : p '"' = false)
    (hopen : p '\x7b' = false) (hclose : p '\x7d' = false) : Plain c := by
  refine ⟨?_, ?_, ?_, ?_⟩ <;> rintro rfl <;> simp_all

theorem plain_of_isBlank {c : Char} (h : isBlank c = true) : Plain c :=
  plain_of_class h (by decide) (by decide) (by decide) (by decide)

theorem plain_of_isSpace {c : Char} (h : isSpace c = true) : Plain c :=
  plain_of_isBlank (Text.isBlank_of_isSpace h)

theorem plain_of_isIdentifierPart {c : Char}
    (h : isIdentifierPart c = true) : Plain c :=
  plain_of_class h (by decide) (by decide) (by decide) (by decide)

theorem plain_of_isDigit {c : Char} (h : c.isDigit = true) : Plain c :=
  plain_of_class h (by decide) (by decide) (by decide) (by decide)

-- ============================================================== taking off

/-- What is left when even text is taken off the front. -/
def Taken (s r : List Char) : Prop := ∃ p, s = p ++ r ∧ Even p

namespace Taken

variable {s t r : List Char}

theorem refl (s : List Char) : Taken s s := ⟨[], rfl, even_nil⟩

theorem trans (h : Taken s t) (h' : Taken t r) : Taken s r := by
  obtain ⟨p, rfl, hp⟩ := h
  obtain ⟨q, rfl, hq⟩ := h'
  exact ⟨p ++ q, (List.append_assoc ..).symm, hp.append hq⟩

theorem of_plain {p : List Char} (h : ∀ c ∈ p, Plain c) (r : List Char) :
    Taken (p ++ r) r :=
  ⟨p, rfl, even_of_plain h⟩

theorem length_le (h : Taken s r) : r.length ≤ s.length := by
  obtain ⟨p, rfl, -⟩ := h
  rw [List.length_append]
  omega

/-- What is taken as long as characters are of a plain class. -/
theorem dropWhile {p : Char → Bool} (h : ∀ {c}, p c = true → Plain c)
    (s : List Char) : Taken s (s.dropWhile p) :=
  ⟨s.takeWhile p, List.takeWhile_append_dropWhile.symm,
    even_of_plain fun _ hc => h (List.mem_takeWhile_imp hc)⟩

/-- Taking off all leaves the end. -/
theorem even (h : Taken s []) : Even s := by
  obtain ⟨p, rfl, hp⟩ := h
  rwa [List.append_nil]

end Taken

-- ================================================================= tokens

theorem drop_takeWhile (p : Char → Bool) (s : List Char) :
    s.drop (s.takeWhile p).length = s.dropWhile p := by
  induction s with
  | nil => rfl
  | cons c s ih =>
    rw [List.takeWhile_cons, List.dropWhile_cons]
    split
    · exact ih
    · rfl

/-- What is left does not begin with a character of the class taken off. -/
theorem head_dropWhile (p : Char → Bool) (s : List Char) :
    (s.dropWhile p).head?.any p = false := by
  have h := List.head?_dropWhile_not p s
  cases hs : (s.dropWhile p).head? with
  | none => rfl
  | some c =>
    rw [hs] at h
    exact h

theorem taken_skipSpace (s : List Char) : Taken s (skipSpace s) :=
  .dropWhile plain_of_isSpace s

theorem strip?_eq_some {p s r : List Char} :
    strip? p s = some r ↔ s = p ++ r := by
  unfold strip?
  split
  · next h =>
    obtain ⟨t, rfl⟩ := List.isPrefixOf_iff_prefix.1 h
    rw [List.drop_left]
    simp
  · next h =>
    refine iff_of_false nofun fun he => h ?_
    rw [he]
    exact List.isPrefixOf_iff_prefix.2 (List.prefix_append p r)

theorem stripWord?_eq_some {w s r : List Char} :
    stripWord? w s = some r
      ↔ s = w ++ r ∧ r.head?.any isIdentifierPart = false := by
  unfold stripWord?
  rw [Option.filter_eq_some_iff, strip?_eq_some, Bool.not_eq_true']

theorem mark?_eq_some {c : Char} {s r : List Char} :
    mark? c s = some r
      ↔ ∃ r', skipSpace s = c :: r' ∧ skipSpace r' = r := by
  unfold mark?
  simp only [Option.map_eq_some_iff, strip?_eq_some, List.singleton_append]

/-- Nothing is skipped where no space begins. -/
theorem skipSpace_of_head {s : List Char}
    (h : s.head?.any isSpace = false) : skipSpace s = s := by
  cases s with
  | nil => rfl
  | cons c s => exact List.dropWhile_cons_of_neg (Bool.not_eq_true _ ▸ h)

theorem skipSpace_skipSpace (s : List Char) :
    skipSpace (skipSpace s) = skipSpace s :=
  skipSpace_of_head (head_dropWhile isSpace s)

/-- A token and the space around it. -/
theorem taken_token {s p r : List Char} (h : skipSpace s = p ++ r)
    (hne : p ≠ []) (hp : ∀ c ∈ p, Plain c) :
    Taken s (skipSpace r) ∧ (skipSpace r).length < s.length := by
  have hbefore := taken_skipSpace s
  have hbehind := taken_skipSpace r
  rw [h] at hbefore
  refine ⟨hbefore.trans ((Taken.of_plain hp r).trans hbehind), ?_⟩
  have hle := hbefore.length_le
  have hle' := hbehind.length_le
  have hpos := List.length_pos_iff.2 hne
  rw [List.length_append] at hle
  omega

theorem taken_mark {c : Char} (hc : Plain c) {s r : List Char}
    (h : mark? c s = some r) : Taken s r := by
  obtain ⟨r', hs, rfl⟩ := mark?_eq_some.1 h
  exact (taken_token (p := [c]) hs (List.cons_ne_nil c [])
    fun d hd => List.mem_singleton.1 hd ▸ hc).1

/-- What stands before a mark, and what stands behind it. -/
theorem split_mark {c : Char} {s r : List Char} (h : mark? c s = some r) :
    ∃ r', Taken s (c :: r') ∧ Taken r' r := by
  obtain ⟨r', hs, rfl⟩ := mark?_eq_some.1 h
  exact ⟨r', hs ▸ taken_skipSpace s, taken_skipSpace r'⟩

theorem length_lt_of_mark {c : Char} {s r : List Char}
    (h : mark? c s = some r) : r.length < s.length := by
  obtain ⟨r', hbefore, hbehind⟩ := split_mark h
  have hle := hbefore.length_le
  have hle' := hbehind.length_le
  rw [List.length_cons] at hle
  omega

/-- Even text between braces, and the space around them. -/
theorem taken_braces {s r r' rest : List Char}
    (hopen : mark? '\x7b' s = some r) (hinside : Taken r r')
    (hclose : mark? '\x7d' r' = some rest) : Taken s rest := by
  obtain ⟨s₁, hbefore, hfront⟩ := split_mark hopen
  obtain ⟨s₂, hback, hbehind⟩ := split_mark hclose
  obtain ⟨p, rfl, hp⟩ := hfront.trans (hinside.trans hback)
  refine hbefore.trans (Taken.trans ?_ hbehind)
  refine ⟨'\x7b' :: p ++ ['\x7d'], ?_, hp.braced⟩
  simp only [List.cons_append, List.append_assoc, List.nil_append]

/-- An identifier and what is left behind it. -/
theorem readIdentifier_eq_some {s name r : List Char}
    (h : readIdentifier s = some (name, r)) :
    s = name ++ r ∧ isIdentifier name = true
      ∧ r.head?.any isIdentifierPart = false := by
  cases s with
  | nil => cases h
  | cons c s =>
    rw [readIdentifier] at h
    split at h
    · next hc =>
      cases h
      rw [drop_takeWhile]
      refine ⟨?_, ?_, head_dropWhile _ s⟩
      · rw [List.cons_append, List.takeWhile_append_dropWhile]
      · rw [isIdentifier, hc, List.all_takeWhile]
        rfl
    · cases h

theorem plain_of_isIdentifier {name : List Char}
    (h : isIdentifier name = true) : ∀ c ∈ name, Plain c := by
  cases name with
  | nil => exact nofun
  | cons c s =>
    obtain ⟨hc, hs⟩ := Bool.and_eq_true_iff.1 h
    intro d hd
    rcases List.mem_cons.1 hd with rfl | hd
    · exact plain_of_isIdentifierPart (isIdentifierPart_of_start hc)
    · exact plain_of_isIdentifierPart (List.all_eq_true.1 hs d hd)

theorem taken_identifier {s name r : List Char}
    (h : readIdentifier s = some (name, r)) : Taken s r := by
  obtain ⟨rfl, hname, -⟩ := readIdentifier_eq_some h
  exact .of_plain (plain_of_isIdentifier hname) r

-- =============================================================== operators

/-- The characters of a spelling. -/
def Spelling.text : Spelling → List Char
  | .symbol p => p
  | .word w => w

theorem Spelling.strip?_eq_append {spelling : Spelling} {s r : List Char}
    (h : spelling.strip? s = some r) : s = spelling.text ++ r := by
  cases spelling with
  | symbol p => exact strip?_eq_some.1 h
  | word w => exact (stripWord?_eq_some.1 h).1

theorem plain_of_levels :
    ∀ level ∈ levels, ∀ entry ∈ level,
      entry.1.text ≠ [] ∧ entry.1.text.all (fun c => decide (Plain c)) = true := by
  decide

theorem taken_operator {level : Level} (hl : level ∈ levels) {s r : List Char}
    {op : BinaryOp} (h : readOperator level s = some (op, r)) :
    Taken s r ∧ r.length < s.length := by
  obtain ⟨⟨spelling, op'⟩, hmem, hread⟩ := List.exists_of_findSome?_eq_some h
  obtain ⟨r', hstrip, heq⟩ := Option.map_eq_some_iff.1 hread
  cases heq
  have hplain := plain_of_levels level hl _ hmem
  exact taken_token (Spelling.strip?_eq_append hstrip) hplain.1
    (plain_token hplain.2)

theorem taken_prefixOp {s r : List Char} {op : UnaryOp}
    (h : readPrefixOp s = some (op, r)) : Taken s r ∧ r.length < s.length := by
  obtain ⟨⟨op', r'⟩, hfound, heq⟩ := Option.map_eq_some_iff.1 h
  cases heq
  have htext : ∃ p, skipSpace s = p ++ r' ∧ p ≠ [] ∧ ∀ c ∈ p, Plain c := by
    simp only [Option.orElse_eq_some] at hfound
    rcases hfound with hfound | ⟨-, hfound | ⟨-, hfound | ⟨-, hfound⟩⟩⟩
    all_goals
      obtain ⟨r'', hstrip, heq⟩ := Option.map_eq_some_iff.1 hfound
      cases heq
    · exact ⟨_, strip?_eq_some.1 hstrip, nofun, plain_token rfl⟩
    · exact ⟨_, strip?_eq_some.1 (Option.filter_eq_some_iff.1 hstrip).1,
        nofun, plain_token rfl⟩
    · exact ⟨_, (stripWord?_eq_some.1 hstrip).1, nofun, plain_token rfl⟩
    · exact ⟨_, (stripWord?_eq_some.1 hstrip).1, nofun, plain_token rfl⟩
  obtain ⟨p, hs, hne, hplain⟩ := htext
  exact taken_token hs hne hplain

-- ================================================================ literals

theorem taken_front {p s : List Char} (h : p <+: s)
    (hp : ∀ c ∈ p, Plain c) : Taken s (s.drop p.length) := by
  obtain ⟨r, rfl⟩ := h
  rw [List.drop_left]
  exact .of_plain hp r

theorem plain_of_digits (s : List Char) :
    ∀ c ∈ s.takeWhile Char.isDigit, Plain c :=
  fun _ hc => plain_of_isDigit (List.mem_takeWhile_imp hc)

theorem taken_fraction (s : List Char) :
    Taken s (s.drop (takeFraction s).length) := by
  unfold takeFraction
  split
  · next r =>
    dsimp only
    split
    · exact .refl _
    · refine taken_front (List.cons_prefix_cons.2 ⟨rfl, ?_⟩) ?_
      · exact List.takeWhile_prefix _
      · exact List.forall_mem_cons.2 ⟨by decide, plain_of_digits r⟩
  · exact .refl _

/-- An exponent of which the sign has been found. -/
theorem taken_signed {c : Char} (hc : Plain c) {sign r : List Char}
    (hfront : sign <+: r) (hsign : ∀ d ∈ sign, Plain d) :
    let digits := (r.drop sign.length).takeWhile Char.isDigit
    Taken (c :: r)
      ((c :: r).drop
        (if digits.isEmpty then [] else c :: (sign ++ digits)).length) := by
  obtain ⟨r', rfl⟩ := hfront
  dsimp only
  rw [List.drop_left]
  split
  · exact .refl _
  · refine taken_front (List.cons_prefix_cons.2 ⟨rfl, ?_⟩) ?_
    · exact (List.prefix_append_right_inj sign).2 (List.takeWhile_prefix _)
    · refine List.forall_mem_cons.2 ⟨hc, fun d hd => ?_⟩
      exact (List.mem_append.1 hd).elim (hsign d) (plain_of_digits r' d)

theorem taken_exponent (s : List Char) :
    Taken s (s.drop (takeExponent s).length) := by
  unfold takeExponent
  split
  · next c r =>
    split
    · next hc =>
      have hplain : Plain c := by
        rcases Bool.or_eq_true_iff.1 hc with h | h <;>
          cases of_decide_eq_true h <;> decide
      dsimp only
      split
      · exact taken_signed hplain ⟨_, rfl⟩ (plain_token rfl)
      · exact taken_signed hplain ⟨_, rfl⟩ (plain_token rfl)
      · exact taken_signed hplain List.nil_prefix nofun
    · exact .refl _
  · exact .refl _

theorem taken_number {s r : List Char} {l : Literal}
    (h : readNumber s = some (l, r)) : Taken s r := by
  unfold readNumber at h
  dsimp only at h
  split at h
  · cases h
  · obtain ⟨l', -, heq⟩ := Option.map_eq_some_iff.1 h
    cases heq
    refine Taken.trans ?_ ((taken_fraction _).trans (taken_exponent _))
    exact taken_front (List.takeWhile_prefix _) (plain_of_digits s)

/-- The scan between quotes is the reading of a string. -/
theorem walk_of_readQuoted {quote : Char} (hq : quote ≠ '\\')
    {s t r : List Char} (h : readQuoted quote s = some (t, r)) :
    ∃ p, s = p ++ r ∧ ∀ depth,
      (BraceState.quoted quote depth).walk? p = some (.outside depth) := by
  fun_induction readQuoted quote s generalizing t with
  | case1 => cases h
  | case2 => cases h
  | case3 c s ih =>
    obtain ⟨⟨t', r'⟩, hread, heq⟩ := Option.map_eq_some_iff.1 h
    cases heq
    obtain ⟨p, rfl, hp⟩ := ih hread
    exact ⟨'\\' :: c :: p, rfl, hp⟩
  | case4 s hnil hcons =>
    cases h
    refine ⟨[quote], rfl, fun depth => ?_⟩
    simp [BraceState.walk?, BraceState.step?, hq]
  | case5 c s hnil hcons hc ih =>
    obtain ⟨⟨t', r'⟩, hread, heq⟩ := Option.map_eq_some_iff.1 h
    cases heq
    obtain ⟨p, rfl, hp⟩ := ih hread
    refine ⟨c :: p, rfl, fun depth => ?_⟩
    -- a backslash would have been read together with what follows it
    have hescape : c ≠ '\\' := by
      rintro rfl
      cases hs : p ++ r with
      | nil => exact hnil rfl hs
      | cons d s => exact hcons d s rfl hs
    have hstep : (BraceState.quoted quote depth).step? c
        = some (.quoted quote depth) := by
      simp [BraceState.step?, hescape, hc]
    rw [BraceState.walk?, hstep]
    exact hp depth

theorem taken_string {s r : List Char} {t : String}
    (h : readString s = some (t, r)) : Taken s r := by
  have hquoted {quote : Char} (hq : quote = '\'' ∨ quote = '"')
      {s : List Char} {t' : List Char}
      (h : readQuoted quote s = some (t', r)) : Taken (quote :: s) r := by
    have hescape : quote ≠ '\\' := by rcases hq with rfl | rfl <;> decide
    obtain ⟨p, rfl, hp⟩ := walk_of_readQuoted hescape h
    refine ⟨quote :: p, rfl, fun depth => ?_⟩
    have hstep : (BraceState.outside depth).step? quote
        = some (.quoted quote depth) := by
      rcases hq with rfl | rfl <;> rfl
    rw [BraceState.walk?, hstep]
    exact hp depth
  unfold readString at h
  split at h
  · obtain ⟨⟨t', r'⟩, hread, heq⟩ := Option.map_eq_some_iff.1 h
    cases heq
    exact hquoted (.inl rfl) hread
  · obtain ⟨⟨t', r'⟩, hread, heq⟩ := Option.map_eq_some_iff.1 h
    cases heq
    exact hquoted (.inr rfl) hread
  · cases h

theorem taken_constant {s r : List Char} {l : Literal}
    (h : readConstant s = some (l, r)) : Taken s r := by
  unfold readConstant at h
  simp only [Option.orElse_eq_some] at h
  rcases h with h | ⟨-, h | ⟨-, h⟩⟩
  all_goals
    obtain ⟨r', hstrip, heq⟩ := Option.map_eq_some_iff.1 h
    cases heq
    obtain ⟨rfl, -⟩ := stripWord?_eq_some.1 hstrip
    exact .of_plain (plain_token rfl) _

theorem taken_literal {s r : List Char} {l : Literal}
    (h : readLiteral s = some (l, r)) : Taken s r := by
  unfold readLiteral at h
  simp only [Option.orElse_eq_some] at h
  rcases h with h | ⟨-, h | ⟨-, h⟩⟩
  · exact taken_number h
  · obtain ⟨⟨t, r'⟩, hread, heq⟩ := Option.map_eq_some_iff.1 h
    cases heq
    exact taken_string hread
  · exact taken_constant h

end Stencil.Expr
