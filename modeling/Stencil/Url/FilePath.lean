/-
Addresses of files and the paths that they stand for. A path is the list of
its names from the root on. An address may escape any bytes in a name, even
ones that are no text and slashes, which make it several names.
-/
import Stencil.Text.Search
import Stencil.Url.Basic
import Stencil.Url.Percent

namespace Stencil.Url

/-- A name in a path, in bytes. -/
abbrev FileName := List UInt8

/-- The names that a text between slashes stands for. -/
def fileNames (segment : String) : List FileName :=
  splitBytes (unescapeBytes segment.toList)
where
  splitBytes : List UInt8 → List FileName
    | [] => [[]]
    | b :: s =>
      match splitBytes s with
      | [] => [[b]]
      | name :: names =>
        if b = 0x2F then [] :: name :: names else (b :: name) :: names

/-- A letter and a colon or a bar. -/
def isDriveEnd (name : FileName) : Bool :=
  match name.reverse with
  | b :: a :: _ => (Char.ofUInt8 a).isAlpha && (b = 0x3A || b = 0x7C)
  | _ => false

/-- A path that ends like a drive is that of a directory. -/
def closeDriveEnd (names : List FileName) : List FileName :=
  if names.getLast?.any isDriveEnd then names ++ [[]] else names

/-- The path from the root, if the address is that of a file on this
machine. -/
def filePath? (u : Url) : Option (List FileName) :=
  match u.kind, u.authority.all (·.host.isEmpty), u.path with
  | .file, true, .segments names =>
      some (closeDriveEnd (names.flatMap fileNames))
  | _, _, _ => none

/-- The names of a path as texts, if they are texts. -/
def pathTexts? (names : List FileName) : Option (List String) :=
  names.mapM fun bytes => String.fromUTF8? (ByteArray.mk bytes.toArray)

/-- The address of the file with a path from the root. -/
def ofFilePath (names : List String) : Url where
  scheme := "file"
  authority := some ⟨"", none, "", none⟩
  path := .segments (names.map fun n => escape inSegment n.toList)
  query := none
  fragment := none

/-- The address of a directory, against which the names in it resolve. -/
def ofDirectoryPath (names : List String) : Url :=
  ofFilePath (names ++ [""])

end Stencil.Url
