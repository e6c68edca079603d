/-
Texts with expressions in them. Each `$` and the braces behind it hold an
expression, whose value's text takes their place; a backslash before the `$`
keeps them as they are. The closing brace is the first that stands outside
quotes and outside the braces of the expression itself.
-/
import Stencil.Expr.Eval

namespace Stencil.Expr

/-- What opens an expression. -/
def opener : List Char := ['$', '\x7b']

/-- Where a scan for the closing brace stands: between quotes, perhaps right
behind a backslash, or outside with some braces open. -/
inductive BraceState where
  | outside (depth : Nat)
  | quoted (quote : Char) (depth : Nat)
  | escaped (quote : Char) (depth : Nat)
deriving DecidableEq, Repr

/-- The state behind one more character; none if it closes the expression. -/
def BraceState.step? (c : Char) : BraceState → Option BraceState
  | .escaped quote depth => some (.quoted quote depth)
  | .quoted quote depth =>
    if c = '\\' then some (.escaped quote depth)
    else if c = quote then some (.outside depth)
    else some (.quoted quote depth)
  | .outside depth =>
    if c = '\'' || c = '"' then some (.quoted c depth)
    else if c = '\x7b' then some (.outside (depth + 1))
    else if c = '\x7d' then
      match depth with
      | 0 => none
      | depth + 1 => some (.outside depth)
    else some (.outside depth)

/-- Splits at the closing brace, which belongs to neither part. -/
def splitBrace (state : BraceState) :
    List Char → Option (List Char × List Char)
  | [] => none
  | c :: s =>
    match state.step? c with
    | none => some ([], s)
    | some next => (splitBrace next s).map fun (body, rest) => (c :: body, rest)

theorem splitBrace_length {state : BraceState} {s body rest : List Char}
    (h : splitBrace state s = some (body, rest)) :
    rest.length < s.length := by
  induction s generalizing state body with
  | nil => cases h
  | cons c s ih =>
    simp only [splitBrace] at h
    split at h
    · cases h
      simp
    · obtain ⟨⟨b, r⟩, hr, he⟩ := Option.map_eq_some_iff.1 h
      cases he
      have : r.length < s.length := ih hr
      simp only [List.length_cons]
      omega

/-- Replaces the expressions of a text from left to right; `whole` is the text
to blame for an expression that never closes. -/
def substituteFrom (env : Environment) (whole : String) (s : List Char) :
    Except Error (List Char) :=
  match _h : Text.breakOn? opener s with
  | none => .ok s
  | some (before, behind) =>
    -- an escaped opener stands for itself, without its backslash
    if before.getLast? = some '\\' then do
      let rest ← substituteFrom env whole behind
      .ok (before.dropLast ++ opener ++ rest)
    else
      match _hs : splitBrace (.outside 0) behind with
      | none => .error (.unterminated whole)
      | some (body, rest) => do
        let v ← evaluate env (String.ofList body)
        let rest ← substituteFrom env whole rest
        .ok (before ++ v.display.toList ++ rest)
termination_by s.length
decreasing_by
  · have := congrArg List.length (Text.eq_append_of_breakOn? _h)
    simp only [opener, List.length_append, List.length_cons,
      List.length_nil] at this
    omega
  · have hb := splitBrace_length _hs
    have := congrArg List.length (Text.eq_append_of_breakOn? _h)
    simp only [opener, List.length_append, List.length_cons,
      List.length_nil] at this
    omega

/-- A text without any expression is taken as it is. -/
def hasExpression (text : String) : Bool := Text.occurs opener text.toList

/-- The text with its expressions replaced. -/
def substitute (env : Environment) (text : String) : Except Error String :=
  (substituteFrom env text text.toList).map String.ofList

end Stencil.Expr
