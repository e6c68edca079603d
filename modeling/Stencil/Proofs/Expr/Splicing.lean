/-
Expressions in a text are replaced exactly.

A text is written from literal pieces and expressions: what would open an
expression in a piece is escaped, and each expression is put between braces.
Replacing the expressions of the text then gives the pieces as they were and
the values in between. The scan for the closing brace comes to the end of the
expression, since all that the grammar takes off is even.
-/
import Stencil.Proofs.Expr.Reading
import Stencil.Proofs.Text.Cutting

namespace Stencil.Expr

open Text (breakOn? breakOn?_before breakOn?_cons breakOn?_nil
  breakOn?_append_self replaceAll replaceAll_eq)

-- ================================================================ writing

/-- A literal text, with a backslash before all that would open an
expression. -/
def escape (s : String) : String :=
  String.ofList (replaceAll opener ('\\' :: opener) s.toList)

/-- Literal texts, each before an expression, and a last one. -/
def written : List (String × String) → String → String
  | [], last => escape last
  | (literal, e) :: ps, last =>
    escape literal ++ "$\x7b" ++ e ++ "\x7d" ++ written ps last

/-- The literal texts with the values in between, or the error of the first
expression that has no value. -/
def spliced (env : Environment) :
    List (String × String) → String → Except Error String
  | [], last => .ok last
  | (literal, e) :: ps, last => do
    let v ← evaluate env e
    let rest ← spliced env ps last
    .ok (literal ++ v.display ++ rest)

-- ============================================================ whole texts

/-- White space at both ends of a text. -/
theorem trim_append (s : List Char) :
    ∃ a b, s = a ++ Text.trim s ++ b
      ∧ (∀ c ∈ a, Text.isBlank c = true) ∧ ∀ c ∈ b, Text.isBlank c = true := by
  let t := Text.dropBlank s
  refine ⟨s.takeWhile Text.isBlank, (t.reverse.takeWhile Text.isBlank).reverse,
    ?_, fun c hc => List.mem_takeWhile_imp hc, fun c hc => ?_⟩
  · have hend : Text.trim s ++ (t.reverse.takeWhile Text.isBlank).reverse
        = t := by
      show (t.reverse.dropWhile Text.isBlank).reverse ++ _ = t
      rw [← List.reverse_append, List.takeWhile_append_dropWhile,
        List.reverse_reverse]
    rw [List.append_assoc, hend]
    exact (Text.dropBlank_append s).symm
  · exact List.mem_takeWhile_imp (List.mem_reverse.1 hc)

/-- A text that is an expression is even. -/
theorem even_of_parse {text : String} {e : Term} (h : parse text = .ok e) :
    Even text.toList := by
  unfold parse at h
  dsimp only at h
  split at h
  · next e' hread =>
    obtain ⟨a, b, htext, ha, hb⟩ := trim_append text.toList
    rw [htext]
    have hplain {p : List Char} (hp : ∀ c ∈ p, Text.isBlank c = true) :
        Even p := even_of_plain fun c hc => plain_of_isBlank (hp c hc)
    exact ((hplain ha).append (readTerm_ok hread).1.even).append (hplain hb)
  · cases h
  · cases h

-- =============================================================== replacing

section

variable {env : Environment} {whole : String} {s before behind : List Char}

theorem substituteFrom_none (h : breakOn? opener s = none) :
    substituteFrom env whole s = .ok s := by
  rw [substituteFrom]
  split
  · rfl
  · next heq =>
    rw [h] at heq
    cases heq

theorem substituteFrom_escaped (h : breakOn? opener s = some (before, behind))
    (hlast : before.getLast? = some '\\') :
    substituteFrom env whole s
      = (substituteFrom env whole behind).map
          fun rest => before.dropLast ++ opener ++ rest := by
  rw [substituteFrom]
  split
  · next heq =>
    rw [h] at heq
    cases heq
  · next heq =>
    rw [h] at heq
    cases heq
    rw [if_pos hlast]
    cases substituteFrom env whole behind <;> rfl

theorem substituteFrom_expression {body rest : List Char}
    (h : breakOn? opener s = some (before, behind))
    (hlast : before.getLast? ≠ some '\\')
    (hsplit : splitBrace (.outside 0) behind = some (body, rest)) :
    substituteFrom env whole s
      = (do
          let v ← evaluate env (String.ofList body)
          let rest ← substituteFrom env whole rest
          .ok (before ++ v.display.toList ++ rest)) := by
  rw [substituteFrom]
  split
  · next heq =>
    rw [h] at heq
    cases heq
  · next heq =>
    rw [h] at heq
    cases heq
    rw [if_neg hlast]
    split
    · next heq =>
      rw [hsplit] at heq
      cases heq
    · next heq =>
      rw [hsplit] at heq
      cases heq
      rfl

theorem substituteFrom_unclosed
    (h : breakOn? opener s = some (before, behind))
    (hlast : before.getLast? ≠ some '\\')
    (hsplit : splitBrace (.outside 0) behind = none) :
    substituteFrom env whole s = .error (.unterminated whole) := by
  rw [substituteFrom]
  split
  · next heq =>
    rw [h] at heq
    cases heq
  · next heq =>
    rw [h] at heq
    cases heq
    rw [if_neg hlast]
    split
    · rfl
    · next heq =>
      rw [hsplit] at heq
      cases heq

end

-- ================================================================= pieces

/-- Without a place of its own, a text stays in front of the first one behind
it. -/
theorem breakOn?_opener_append {m t : List Char}
    (hm : breakOn? opener m = none) (ht : t.head? ≠ some '\x7b') :
    breakOn? opener (m ++ t)
      = (breakOn? opener t).map fun (a, b) => (m ++ a, b) := by
  induction m with
  | nil =>
    rw [List.nil_append]
    cases breakOn? opener t <;> rfl
  | cons c m ih =>
    have hshort : ¬ opener <+: c :: m := by
      rintro ⟨r, hr⟩
      rw [← hr, breakOn?_append_self (by decide)] at hm
      cases hm
    -- across the border an opener would need the brace that is not there
    have hlong : ¬ opener <+: c :: (m ++ t) := by
      intro hfront
      obtain ⟨rfl, hbrace⟩ := List.cons_prefix_cons.1 hfront
      cases m with
      | nil =>
        obtain ⟨r, rfl⟩ := hbrace
        exact ht rfl
      | cons d m =>
        obtain ⟨rfl, -⟩ := List.cons_prefix_cons.1 hbrace
        exact hshort ⟨m, rfl⟩
    rw [breakOn?_cons hshort] at hm
    rw [List.cons_append, breakOn?_cons hlong,
      ih (Option.map_eq_none_iff.1 hm)]
    cases breakOn? opener t <;> rfl

theorem head_opener (t : List Char) : (opener ++ t).head? ≠ some '\x7b' :=
  fun h => absurd (Option.some.inj h) (by decide)

/-- The first place is the one behind a text that has none. -/
theorem breakOn?_opener_behind {m : List Char} (hm : breakOn? opener m = none)
    (u : List Char) : breakOn? opener (m ++ (opener ++ u)) = some (m, u) := by
  rw [breakOn?_opener_append hm (head_opener _),
    breakOn?_append_self (by decide)]
  exact congrArg (fun p => some (p, u)) (List.append_nil m)

/-- A backslash before the first place belongs to what stands before it. -/
theorem breakOn?_opener_escaped {m : List Char} (hm : breakOn? opener m = none)
    (u : List Char) :
    breakOn? opener (m ++ '\\' :: (opener ++ u)) = some (m ++ ['\\'], u) := by
  have hnone : breakOn? opener (m ++ ['\\']) = none := by
    rw [breakOn?_opener_append hm (by decide)]
    rfl
  have htext : m ++ '\\' :: (opener ++ u) = m ++ ['\\'] ++ (opener ++ u) :=
    List.append_cons ..
  rw [htext, breakOn?_opener_behind hnone]

variable (env : Environment) (whole : String)

/-- An escaped text is kept in front of another, if every part of it without
a place is kept there. -/
theorem substituteFrom_escape {t : List Char} (ht : t.head? ≠ some '\x7b')
    (l : List Char)
    (hkept : ∀ m, m <:+ l → breakOn? opener m = none →
      substituteFrom env whole (m ++ t)
        = (substituteFrom env whole t).map fun rest => m ++ rest) :
    substituteFrom env whole (replaceAll opener ('\\' :: opener) l ++ t)
      = (substituteFrom env whole t).map fun rest => l ++ rest := by
  rw [replaceAll_eq (by decide)]
  cases hl : breakOn? opener l with
  | none => exact hkept l (List.suffix_refl l) hl
  | some q =>
    obtain ⟨a, b⟩ := q
    have heq := Text.eq_append_of_breakOn? hl
    have hrest := substituteFrom_escape ht b fun m hm =>
      hkept m (hm.trans (heq ▸ List.suffix_append (a ++ opener) b))
    let u := replaceAll opener ('\\' :: opener) b ++ t
    have hfound := breakOn?_opener_escaped (breakOn?_before (by decide) hl) u
    have htext : a ++ '\\' :: opener ++ replaceAll opener ('\\' :: opener) b ++ t
        = a ++ '\\' :: (opener ++ u) := by
      simp only [List.append_assoc, List.cons_append, u]
    -- the backslash stands last before the place, so the place is kept
    have hlast : (a ++ ['\\']).getLast? = some '\\' := List.getLast?_concat
    dsimp only
    rw [htext, substituteFrom_escaped hfound hlast, hrest, List.dropLast_concat,
      heq]
    cases substituteFrom env whole t with
    | error fault => rfl
    | ok rest => exact congrArg Except.ok (List.append_assoc ..).symm
termination_by l.length
decreasing_by
  rw [heq, List.length_append, List.length_append]
  have : opener.length = 2 := rfl
  omega

/-- The value of an expression in front of the replaced rest. -/
def valued (e rest : List Char) : Except Error (List Char) := do
  let v ← evaluate env (String.ofList e)
  let rest ← substituteFrom env whole rest
  .ok (v.display.toList ++ rest)

/-- The text of an expression between braces is replaced by its value. -/
theorem substituteFrom_braced {m e : List Char}
    (hm : breakOn? opener m = none) (hlast : m.getLast? ≠ some '\\')
    (he : Even e) (rest : List Char) :
    substituteFrom env whole (m ++ (opener ++ (e ++ '\x7d' :: rest)))
      = (valued env whole e rest).map fun r => m ++ r := by
  have hfound := breakOn?_opener_behind hm (e ++ '\x7d' :: rest)
  rw [substituteFrom_expression hfound hlast (he.splitBrace rest), valued]
  cases evaluate env (String.ofList e) with
  | error fault => rfl
  | ok v =>
    cases substituteFrom env whole rest with
    | error fault => rfl
    | ok r => exact congrArg Except.ok (List.append_assoc ..)

/-- A literal text before an expression is kept, and the expression is
replaced. -/
theorem substituteFrom_piece {l e : List Char}
    (hlast : l.getLast? ≠ some '\\') (he : Even e) (rest : List Char) :
    substituteFrom env whole (replaceAll opener ('\\' :: opener) l
        ++ (opener ++ (e ++ '\x7d' :: rest)))
      = (valued env whole e rest).map fun r => l ++ r := by
  have hfirst : substituteFrom env whole (opener ++ (e ++ '\x7d' :: rest))
      = valued env whole e rest := by
    have h := substituteFrom_braced env whole (breakOn?_nil (by decide))
      nofun he rest
    rw [List.nil_append] at h
    rw [h]
    cases valued env whole e rest <;> rfl
  rw [substituteFrom_escape env whole (head_opener _) l ?_, hfirst]
  rintro m ⟨a, rfl⟩ hm
  -- the last part ends as the literal text does, so in no backslash
  have hm' : m.getLast? ≠ some '\\' := by
    intro h
    rw [List.getLast?_append, h] at hlast
    exact hlast rfl
  rw [substituteFrom_braced env whole hm hm' he, hfirst]

/-- The written text of literals and expressions. -/
theorem substituteFrom_written (ps : List (String × String)) (last : String)
    (h : ∀ p ∈ ps, p.1.toList.getLast? ≠ some '\\' ∧ Even p.2.toList) :
    substituteFrom env whole (written ps last).toList
      = (spliced env ps last).map String.toList := by
  induction ps with
  | nil =>
    have hnil : substituteFrom env whole [] = .ok [] :=
      substituteFrom_none (breakOn?_nil (by decide))
    have hkept := substituteFrom_escape env whole (t := []) nofun last.toList
      fun m _ hm => by
        rw [List.append_nil, substituteFrom_none hm, hnil]
        exact congrArg Except.ok (List.append_nil m).symm
    rw [List.append_nil, hnil] at hkept
    rw [written, escape, String.toList_ofList, hkept]
    exact congrArg Except.ok (List.append_nil _)
  | cons p ps ih =>
    obtain ⟨l, e⟩ := p
    obtain ⟨⟨hlast, he⟩, hps⟩ := List.forall_mem_cons.1 h
    have htext : (written ((l, e) :: ps) last).toList
        = replaceAll opener ('\\' :: opener) l.toList
          ++ (opener ++ (e.toList ++ '\x7d' :: (written ps last).toList)) := by
      simp [written, escape, opener]
    rw [htext, substituteFrom_piece env whole hlast he, valued, ih hps,
      String.ofList_toList, spliced]
    cases evaluate env e with
    | error fault => rfl
    | ok v =>
      cases spliced env ps last with
      | error fault => rfl
      | ok rest => exact congrArg Except.ok (by simp)

-- ============================================================= main results

/-- Replacing the expressions of a text that is written from literal texts and
expressions keeps the literal texts and puts the values in between. The scan
for the closing brace ends behind every expression, and an escaped text is
replaced by what it was. -/
theorem substitute_written (env : Environment) (ps : List (String × String))
    (last : String)
    (h : ∀ p ∈ ps, p.1.toList.getLast? ≠ some '\\' ∧ ∃ e, parse p.2 = .ok e) :
    substitute env (written ps last) = spliced env ps last
    ∧ (∀ p ∈ ps, ∀ rest,
        splitBrace (.outside 0) (p.2.toList ++ '\x7d' :: rest)
          = some (p.2.toList, rest))
    ∧ substitute env (escape last) = .ok last := by
  have heven : ∀ p ∈ ps, p.1.toList.getLast? ≠ some '\\' ∧ Even p.2.toList :=
    fun p hp => ⟨(h p hp).1, (h p hp).2.elim fun _ he => even_of_parse he⟩
  have hwritten (qs : List (String × String))
      (hqs : ∀ p ∈ qs, p.1.toList.getLast? ≠ some '\\' ∧ Even p.2.toList) :
      substitute env (written qs last) = spliced env qs last := by
    rw [substitute, substituteFrom_written env _ qs last hqs]
    cases spliced env qs last with
    | error fault => rfl
    | ok t => exact congrArg Except.ok String.ofList_toList
  exact ⟨hwritten ps heven, fun p hp rest => (heven p hp).2.splitBrace rest,
    hwritten [] nofun⟩

/-- Dollars, braces, quotes and escapes on both sides of the braces of an
expression. -/
theorem substitute_written_mixed :
    let env : Environment :=
      ⟨fun name => if name = "a" then some (.int 3) else none,
        fun _ => none, fun _ => none⟩
    let ps := [("$", "\x7b '\x7d' : a\x7d['\x7d']"), ("\\$\x7b \x7d", "'\x7d\\'$\x7b'")]
    written ps "$"
        = "$$\x7b\x7b '\x7d' : a\x7d['\x7d']\x7d\\\\$\x7b \x7d$\x7b'\x7d\\'$\x7b'\x7d$"
    ∧ substitute env (written ps "$") = .ok "$3\\$\x7b \x7d\x7d'$\x7b$" := by
  intro env ps
  have hok : ∀ p ∈ ps, p.1.toList.getLast? ≠ some '\\'
      ∧ (parse p.2).isOk = true := by
    decide +kernel
  have hps : ∀ p ∈ ps, p.1.toList.getLast? ≠ some '\\'
      ∧ ∃ e, parse p.2 = .ok e := by
    intro p hp
    obtain ⟨hlast, hparse⟩ := hok p hp
    refine ⟨hlast, ?_⟩
    cases he : parse p.2 with
    | error fault =>
      rw [he] at hparse
      cases hparse
    | ok e => exact ⟨e, rfl⟩
  refine ⟨by decide +kernel, ?_⟩
  rw [(substitute_written env ps "$" hps).1]
  decide +kernel

end Stencil.Expr
