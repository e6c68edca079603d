/-
Where the text of a document comes from, by its address: from memory, from
files, from the web, or from whichever source serves its scheme.
-/
import Stencil.Loading.Error
import Stencil.Loading.Files
import Stencil.Url.FilePath

namespace Stencil.Loading

structure Source where
  fetch : Url → Except Error String

/-- Texts by the address they are asked for under, newest first. -/
abbrev Store := List (String × String)

/-- Keeps a text under a key, in place of an older one. -/
def Store.add (store : Store) (key text : String) : Store :=
  (key, text) :: store.filter fun e => e.1 != key

namespace Source

/-- Texts in memory. -/
def memory (store : Store) : Source where
  fetch url :=
    match store.lookup url.text with
    | some text => .ok text
    | none => .error (.notFound url.text)

/-- Texts of files. -/
def files (files : Files) : Source where
  fetch url :=
    if url.scheme ≠ "file" then .error (.unsupportedScheme url.text)
    else
      match url.filePath? with
      | none => .error (.notFound url.text)
      | some path =>
        match (Url.pathTexts? path).bind files.read? with
        | some text => .ok text
        | none => .error (.io url.text)

/-- The web as it is without a connection. -/
def web : Source where
  fetch url :=
    if url.scheme = "http" ∨ url.scheme = "https" then
      .error (.network url.text)
    else .error (.unsupportedScheme url.text)

/-- A choice among sources by scheme; the first that serves it counts. -/
def byScheme (sources : List (String × Source)) : Source where
  fetch url :=
    match sources.find? fun s => s.1.toLower == url.scheme with
    | some s => s.2.fetch url
    | none => .error (.unsupportedScheme url.text)

/-- Files, and the web. -/
def standard (tree : Files) : Source :=
  byScheme [("file", files tree), ("http", web), ("https", web)]

end Source

end Stencil.Loading
