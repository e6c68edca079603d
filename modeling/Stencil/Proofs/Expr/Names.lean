/-
Names as expressions.

A text is a valid name just in case it is read as the variable of that name
(`parse_eq_variable_iff`). A name that is valid is written as itself, and what is
written is read again; the other way round, the readers give proper terms only,
and a proper variable has a valid name. So where a valid name has a value, the
text of the name evaluates to it, and no text reads a name that is not valid.
-/
import Stencil.Proofs.Expr.Keys
import Stencil.Proofs.Expr.RoundTrip

namespace Stencil.Expr

variable {name text : String}

/-- A proper term without floats is read from its text and nothing else. -/
theorem parse_of_proper {e : Term} (he : e.Proper) (hf : e.hasFloat = false) :
    parse e.print = .ok e := by
  obtain ⟨-, r, hr, hread⟩ :=
    (reads_print he hf).gives 0 (Nat.zero_le _) [] ends_nil
  rw [hr.nil, List.append_nil] at hread
  have hread : readTerm e.print.toList = some (e, []) := hread
  unfold parse
  dsimp only
  rw [(trimmed_print he hf).trim_eq, hread]

theorem parse_of_isValidName (h : isValidName name = true) :
    parse name = .ok (.variable name) :=
  parse_of_proper (e := .variable name) h rfl

/-- Whatever the text, a variable that it is read as has a valid name. -/
theorem isValidName_of_parse (h : parse text = .ok (.variable name)) :
    isValidName name = true :=
  proper_parse text _ h

theorem parse_eq_variable_iff :
    parse name = .ok (.variable name) ↔ isValidName name = true :=
  ⟨isValidName_of_parse, parse_of_isValidName⟩

/-- A valid name evaluates to what it means. -/
theorem evaluate_of_isValidName {env : Environment} {v : Value}
    (h : isValidName name = true) (hv : env.value? name = some v) :
    evaluate env name = .ok v := by
  unfold evaluate
  rw [parse_of_isValidName h]
  show (Term.variable name).eval env = .ok v
  rw [Term.eval, hv]

end Stencil.Expr
