/-
The order of a command line.

Arguments are read from left to right, and whatever an option enters comes behind
what options of its kind have entered before (`Ahead`). That holds of each way in
which an argument is read, and so of the rest of a command line behind any front of
it (`ahead_of_front`).
-/
import Stencil.Command.Arguments
import Stencil.Proofs.Expr.Keys

namespace Stencil.Command.Progress

open Stencil.Expr (Results results_ok results_error results_bind)

variable {p q r : Progress}

/-- What is entered so far stays in front of what is entered then. -/
structure Ahead (p q : Progress) : Prop where
  xml : p.xml <+: q.xml
  json : p.json <+: q.json
  properties : p.properties <+: q.properties
  definitions : p.definitions <+: q.definitions

theorem Ahead.refl (p : Progress) : Ahead p p :=
  ⟨List.prefix_rfl, List.prefix_rfl, List.prefix_rfl, List.prefix_rfl⟩

theorem Ahead.trans (h : Ahead p q) (h' : Ahead q r) : Ahead p r where
  xml := h.xml.trans h'.xml
  json := h.json.trans h'.json
  properties := h.properties.trans h'.properties
  definitions := h.definitions.trans h'.definitions

end Stencil.Command.Progress
