/-
What has to be there before the command touches its output.

Each source of a binding has a meaning by itself (`Source.meaning?`), which no
binding before it and no document in the cache changes: the processor stays
`Ready` while names are bound. So the bindings go through just in case each has
a meaning and a valid name, and a name is then bound to the meaning of its last
source (`bind_all`). The output is created behind all of that, and hence it is
left alone by a command that does not start.
-/
import Stencil.Command.Run
import Stencil.Proofs.Command.Order
import Stencil.Proofs.Expr.Reading
import Stencil.Proofs.Loading.Filled
import Stencil.Proofs.Markup.Resolved
import Stencil.Proofs.Template.Transparency

namespace Stencil.Command

open Stencil.Expr (Value isValidName)
open Loading (Cache Files)
open Markup (Document)
open Template (Processor)

variable {files : Files} {base url : Url} {a : Arguments} {p : Processor}
  {cache : Cache} {v : Value} {source : Source}

-- ==================================================================== meanings

/-- The address that a reference means. -/
def address? (base : Url) (href : String) : Option Url :=
  (Loading.resolveHref (some base) href).toOption

/-- The text at a reference. -/
def textAt? (files : Files) (base : Url) (href : String) : Option String :=
  (address? base href).bind fun url =>
    ((Loading.Source.standard files).fetch url).toOption

/-- The document at a reference, which is the same one wherever it is loaded. -/
def documentAt? (files : Files) (base : Url) (href : String) :
    Option Document :=
  (address? base href).bind fun url =>
    ((Loading.Source.standard files).parse url).toOption.map
      (Cache.empty.document url.text)

/-- What a source stands for: nothing, if its reference means no address, or if
nothing is there, or if that is not of the right form. -/
def Source.meaning? (files : Files) (base : Url) : Source → Option Value
  | .xml href =>
    ((documentAt? files base href).bind Document.rootElement?).map .element
  | .json href => (textAt? files base href).bind Binding.Json.read?
  | .properties href => (textAt? files base href).map Binding.Properties.read
  | .value v => some v

/-- A document that is parsed has a root element. -/
theorem exists_root {source : Loading.Source} {root : Markup.Tree}
    (h : source.parse url = .ok root) (key : String) :
    ∃ n, (Cache.empty.document key root).rootElement? = some n := by
  obtain ⟨text, htext⟩ := Loading.exists_parse h
  obtain ⟨before, element, after, hchildren, helement, -⟩ :=
    Markup.Tree.root_of_parse htext
  have hsome : (root.children.find? Markup.Tree.isElement).isSome := by
    rw [List.find?_isSome]
    exact ⟨element, by simp [hchildren], helement⟩
  obtain ⟨found, hfound⟩ := Option.isSome_iff_exists.1 hsome
  exact ⟨_, Document.rootElement?_eq hfound⟩

-- ===================================================================== sources

/-- The source has a meaning, and the name is valid. -/
def Bindable (files : Files) (base : Url) (b : String × Source) : Prop :=
  (b.2.meaning? files base).isSome = true ∧ isValidName b.1 = true

end Stencil.Command
