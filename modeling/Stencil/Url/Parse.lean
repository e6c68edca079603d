/-
From texts to addresses. A text is an address by itself if it begins with a
scheme; else it is taken relative to a base, whose parts stand in for the
leading parts that the text does not have.

The parts are read from left to right. Where one ends depends on the scheme:
a backslash is as good as a slash in the special ones.
-/
import Stencil.Url.Basic
import Stencil.Url.Host
import Stencil.Url.Path

namespace Stencil.Url

/-- The text without controls and spaces around it. -/
def clean (s : List Char) : List Char :=
  let isJunk (c : Char) : Bool := c ≤ ' '
  ((s.dropWhile isJunk).reverse.dropWhile isJunk).reverse

/-- Splits before the first character that a test accepts. -/
def splitBefore (ends : Char → Bool) (s : List Char) :
    List Char × List Char :=
  s.span fun c => !ends c

-- ================================================================= scheme

def isSchemePart (c : Char) : Bool :=
  c.isAlphanum || c == '+' || c == '-' || c == '.'

/-- The scheme that a text begins with, in lower case, and what is behind
its colon. -/
def splitScheme? (s : List Char) : Option (String × List Char) :=
  match splitBefore (fun c => !(isSchemePart c || isBreak c)) s with
  | (front, ':' :: rest) =>
    let scheme := joined front
    if scheme.head?.any Char.isAlpha
    then some ((String.ofList scheme).toLower, rest)
    else none
  | _ => none

def isSlash (c : Char) : Bool := c == '/' || c == '\\'

/-- How many slashes of either kind a text begins with, and what is behind
them. -/
def slashes : List Char → Nat × List Char
  | [] => (0, [])
  | c :: s =>
    if isBreak c then slashes s
    else if isSlash c then
      let (n, rest) := slashes s
      (n + 1, rest)
    else (0, c :: s)

/-- What ends a path. -/
def endsPath (c : Char) : Bool := c == '?' || c == '#'

-- ===================================================== query and fragment

/-- The query and the fragment that a text consists of. -/
def tail (k : SchemeKind) (s : List Char) : Option String × Option String :=
  let set := if k.isSpecial then inSpecialQuery else inQuery
  let (front, back) := splitBefore (· == '#') s
  let query := match front with
    | [] => none
    | _ :: q => some (escape set (joined q))
  let fragment := match back with
    | [] => none
    | _ :: f => some (escape inFragment (joined f))
  (query, fragment)

-- ============================================================== authority

/-- The user name and the password before an at sign. -/
def userinfo (s : List Char) : String × Option String :=
  match Text.breakOn? [':'] s with
  | none => (escape inUserinfo s, none)
  | some (user, password) =>
    (escape inUserinfo user,
      if password.isEmpty then none else some (escape inUserinfo password))

/-- Splits at the last at sign. -/
def splitLastAt? (s : List Char) : Option (List Char × List Char) :=
  (Text.breakOn? ['@'] s.reverse).map fun (back, front) =>
    (front.reverse, back.reverse)

/-- Splits a host from its port: at a colon outside brackets. -/
def splitPort (bracketed : Bool) : List Char → List Char × List Char
  | [] => ([], [])
  | c :: s =>
    if c == ':' && !bracketed then ([], c :: s)
    else
      let (host, port) :=
        splitPort (c == '[' || (bracketed && c != ']')) s
      (c :: host, port)

/-- The port behind a host, and the text behind it, which nothing but a
backslash may begin. The port of the scheme goes without saying. -/
def port? (k : SchemeKind) (s : List Char) :
    Option (Option Nat × List Char) :=
  match s with
  | [] => some (none, [])
  | _ :: s =>
    let (front, rest) := splitBefore (fun c => !(c.isDigit || isBreak c)) s
    let digits := joined front
    if rest.head?.any (· != '\\') then none
    else if digits.isEmpty then some (none, rest)
    else do
      let n ← Number.natural? 10 digits
      if 65535 < n then none
      else some (if k = .hosted n then none else some n, rest)

/-- What ends an authority. -/
def endsAuthority (k : SchemeKind) (c : Char) : Bool :=
  k.separates c || endsPath c

/-- The host and port of an authority, and the text behind a port. An empty
host has no port. -/
def hostAndPort? (k : SchemeKind) (s : List Char) :
    Option (String × Option Nat × List Char) := do
  let (front, back) := splitPort false s
  let host := joined front
  let host ← if k.isSpecial then specialHost? host else plainHost? host
  if host.isEmpty && (k.isSpecial || !back.isEmpty) then none
  else
    let (port, rest) ← port? k back
    some (host, port, rest)

/-- The authority that a text is, and the text behind a port in it. There is
no user of an empty host; an at sign alone is nothing, but then nothing may
follow, as `more` says. -/
def authority? (k : SchemeKind) (more : Bool) (s : List Char) :
    Option (Authority × List Char) :=
  match splitLastAt? s with
  | none => do
    let (host, port, rest) ← hostAndPort? k s
    some (⟨"", none, host, port⟩, rest)
  | some (front, back) =>
    if more && (joined front).isEmpty && (joined back).isEmpty then none
    else do
      let (user, password) := userinfo (joined front)
      let (host, port, rest) ← hostAndPort? k back
      if host.isEmpty && !(user.isEmpty && password.isNone) then none
      else some (⟨user, password, host, port⟩, rest)

-- ========================================================== whole addresses

/-- The names of a path behind an authority. Only a special address always
has one. -/
def rootedPath (k : SchemeKind) (s : List Char) : List String × Bool :=
  match first? s with
  | none => (if k.isSpecial then [""] else [], false)
  | some (c, rest) => resolvePath k [""] (if k.separates c then rest else s)

/-- An address of an authority and what follows it. -/
def withAuthority? (scheme : String) (s : List Char) : Option Url := do
  let k := SchemeKind.ofName scheme
  let (front, rest) := splitBefore (endsAuthority k) s
  let (authority, begun) ← authority? k (!rest.isEmpty) front
  let (path, back) := splitBefore endsPath (begun ++ rest)
  let (query, fragment) := tail k back
  let (names, _) := rootedPath k path
  some ⟨scheme, some authority, .segments names, query, fragment⟩

/-- An address without an authority whose scheme is not special: with a path
from the root, or with a flat path. -/
def withoutAuthority (scheme : String) (s : List Char) : Url :=
  let (path, back) := splitBefore endsPath s
  let (query, fragment) := tail .plain back
  let path := match first? path with
    | some ('/', rest) => .segments (resolvePath .plain [""] rest).1
    | _ => .flat (escape controlsOnly (joined path))
  ⟨scheme, none, path, query, fragment⟩

/-- What stands behind two slashes. -/
def behindSlashes? (s : List Char) : Option (List Char) :=
  match first? s with
  | some ('/', s) =>
    match first? s with
    | some ('/', s) => some s
    | _ => none
  | _ => none

/-- An address whose scheme is not special. -/
def plain? (scheme : String) (s : List Char) : Option Url :=
  match behindSlashes? s with
  | some rest => withAuthority? scheme rest
  | none => some (withoutAuthority scheme s)

/-- An address that differs from its base from the path on. -/
def withPath (base : Url) (names : List String) (back : List Char) : Url :=
  let (query, fragment) := tail base.kind back
  { base with path := .segments names, query := query, fragment := fragment }

/-- An address that differs from its base from the query on. -/
def withQuery (base : Url) (back : List Char) : Url :=
  let (query, fragment) := tail base.kind back
  { base with query := query, fragment := fragment }

def withFragment (base : Url) (s : List Char) : Url :=
  { base with fragment := some (escape inFragment (joined s)) }

/-- The directory of a base. A file that is named like a drive stays, for
more to be written behind it. -/
def directory (base : Url) : Trail :=
  match base.names.reverse with
  | [] => [""]
  | name :: outer =>
    if base.kind = .file && isPlainDrive name then name :: outer
    else "" :: outer

/-- A path relative to that of a base. -/
def withRelativePath (base : Url) (start : Trail) (s : List Char) : Url :=
  let (path, back) := splitBefore endsPath s
  base.withPath (resolvePath base.kind start path).1 back

/-- A text without a scheme, taken relative to a base that is no file. -/
def relative? (base : Url) (s : List Char) : Option Url :=
  match first? s with
  | none => some { base with fragment := none }
  | some ('#', f) => some (base.withFragment f)
  | some ('?', q) => some (base.withQuery ('?' :: q))
  | some (c, rest) =>
    if isSlash c then
      match behindSlashes? s, slashes s with
      | some rest, _ => withAuthority? base.scheme rest
      | none, (n, others) =>
        if 2 ≤ n then withAuthority? base.scheme others
        else some (base.withRelativePath [""] rest)
    else some (base.withRelativePath base.directory s)

-- ================================================================== files

/-- A text begins with a drive as its first segment. -/
def beginsWithDrive (s : List Char) : Bool :=
  let s := joined s
  isDrive (s.take 2)
    && (s.drop 2).head?.all fun c => isSlash c || endsPath c

/-- A file address on a host, with a path from a trail. A drive that comes
first in a path behind the root makes the host go. -/
def onHost (host : String) (start : Trail) (s : List Char)
    (behindHost : Bool) : Url :=
  let (path, back) := splitBefore endsPath s
  let (names, drive) :=
    if behindHost then rootedPath .file path
    else resolvePath .file start path
  let (query, fragment) := tail .file back
  let host := if behindHost && drive then "" else host
  ⟨"file", some ⟨"", none, host, none⟩, .segments names, query, fragment⟩

/-- A file address with a host. What looks like a host may be a drive. -/
def fileWithHost? (s : List Char) : Option Url := do
  let (front, rest) := splitBefore (fun c => isSlash c || endsPath c) s
  if isDrive (joined front) then some (onHost "" [""] s false)
  else
    let host ← fileHost? (joined front)
    some (onHost host [""] rest (!host.isEmpty))

/-- The host and the drive that a path from the root takes from a base. -/
def fileRoot (base? : Option Url) (rest : List Char) : String × Trail :=
  let host (base : Url) : String := (base.authority.map (·.host)).getD ""
  match base? with
  | none => ("", [""])
  | some base =>
    if beginsWithDrive rest then ("", [""])
    else
      match base.names with
      | name :: _ =>
        if isPlainDrive name then ("", ["", name]) else (host base, [""])
      | [] => (host base, [""])

/-- A text behind the scheme of files, or relative to a file. -/
def file? (base? : Option Url) (s : List Char) : Option Url :=
  match first? s with
  | some (c, rest) =>
    if isSlash c then
      match first? rest with
      | some (d, rest') =>
        if isSlash d then fileWithHost? rest' else some (fromRoot rest)
      | none => some (fromRoot rest)
    else
      match base? with
      | none => some (onHost "" [""] s false)
      | some base =>
        if c == '?' then some (base.withQuery ('?' :: rest))
        else if c == '#' then some (base.withFragment rest)
        else if beginsWithDrive s then some (onHost "" [""] s false)
        else some (base.withRelativePath base.directory s)
  | none =>
    match base? with
    | none => some (onHost "" [""] s false)
    | some base => some { base with fragment := none }
where
  fromRoot (rest : List Char) : Url :=
    let (host, start) := fileRoot base? rest
    onHost host start rest false

-- ================================================================== parse

/-- An address that begins with its scheme. -/
def ofScheme? (base? : Option Url) (scheme : String) (s : List Char) :
    Option Url :=
  match SchemeKind.ofName scheme with
  | .file => file? (base?.filter (·.scheme == scheme)) s
  | .plain => plain? scheme s
  | .hosted _ =>
    let (n, rest) := slashes s
    match base?.filter (·.scheme == scheme) with
    | some base =>
      if n < 2 then relative? base s else withAuthority? scheme rest
    | none => withAuthority? scheme rest

/-- The address that a text is, perhaps relative to a base. -/
def parse? (base? : Option Url) (text : String) : Option Url :=
  let s := clean text.toList
  match splitScheme? s with
  | some (scheme, rest) => ofScheme? base? scheme rest
  | none =>
    match base? with
    | none => none
    | some base =>
      match first? s with
      | some ('#', f) => some (base.withFragment f)
      | _ =>
        if !base.isBase then none
        else if base.kind = .file then file? base? s
        else relative? base s

end Stencil.Url
