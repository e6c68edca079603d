/-
Why a document could not be had.
-/
import Stencil.Markup.Error

namespace Stencil.Loading

inductive Error where
  | io (url : String)
  | parse (url : String) (fault : Markup.Error)
  | network (url : String)
  | notFound (url : String)
  | unsupportedScheme (url : String)
  | invalidUrl (href : String)
deriving DecidableEq, Repr

def Error.message : Error → String
  | .io url => s!"I/O error reading URL - {url}"
  | .parse url fault => s!"Parsing error reading URL - {url}: {fault.message}"
  | .network url => s!"HTTP error reading URL - {url}: no connection"
  | .notFound url => s!"Document not found - {url}"
  | .unsupportedScheme url => s!"Unsupported URL scheme - {url}"
  | .invalidUrl href => s!"Invalid URL - {href}"

end Stencil.Loading
