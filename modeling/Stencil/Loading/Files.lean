/-
A tree of files, given by the path of each file from the root. The
directories are those on the way to a file, and whatever is listed as one.
-/

namespace Stencil.Loading

/-- Texts by path, and directories that may hold no file. -/
structure Files where
  texts : List (List String × String)
  directories : List (List String)
deriving DecidableEq, Repr

namespace Files

/-- A path without the names that stand for nothing. -/
def tidy (path : List String) : List String := path.filter (· ≠ "")

def isFile (files : Files) (path : List String) : Bool :=
  files.texts.any (·.1 == path)

def isDirectory (files : Files) (path : List String) : Bool :=
  files.directories.any path.isPrefixOf
    || files.texts.any fun f => path.length < f.1.length && path.isPrefixOf f.1

/-- Puts a text in the place of a file, new or old. -/
def write (files : Files) (path : List String) (text : String) : Files :=
  { files with
    texts := (path, text) :: files.texts.filter fun f => f.1 != path }

/-- Walks a path from a directory that is there, by names that may stand for
this directory or the one around it. -/
def canonicalFrom (files : Files) (place : List String) :
    List String → Option (List String)
  | [] => some place
  | name :: rest =>
    if !files.isDirectory place then none
    else if name = "" ∨ name = "." then canonicalFrom files place rest
    else if name = ".." then canonicalFrom files place.dropLast rest
    else
      let next := place ++ [name]
      if files.isFile next || files.isDirectory next then
        canonicalFrom files next rest
      else none

/-- The one path of what a path leads to, if there is something. -/
def canonical? (files : Files) (path : List String) : Option (List String) :=
  canonicalFrom files [] path

/-- The text of the file that a path leads to. -/
def read? (files : Files) (path : List String) : Option String :=
  (files.canonical? path).bind fun place => files.texts.lookup place

end Files

end Stencil.Loading
