/-
Loading documents: from the cache if it has them, else from a source, whose
text is parsed and kept.
-/
import Stencil.Loading.Cache
import Stencil.Loading.Source
import Stencil.Markup.Builder
import Stencil.Url.Parse

namespace Stencil.Loading

open Markup (Document)

/-- The address that a reference means; without a base it has to be one by
itself. -/
def resolveHref (base : Option Url) (href : String) : Except Error Url :=
  match Url.parse? base href with
  | some url => .ok url
  | none => .error (.invalidUrl href)

/-- The tree of the document at an address. -/
def Source.parse (source : Source) (url : Url) : Except Error Markup.Tree := do
  let text ← source.fetch url
  (Markup.Tree.parse text.toList).mapError (Error.parse url.text)

/-- The document at an address, and the cache afterwards. -/
def load (source : Source) (cache : Cache) (url : Url) :
    Except Error Document × Cache :=
  match cache.get? url.text with
  | some d => (.ok d, cache)
  | none =>
    match source.parse url with
    | .error e => (.error e, cache)
    | .ok root =>
      let (d, cache) := cache.insert url.text root
      (.ok d, cache)

end Stencil.Loading
