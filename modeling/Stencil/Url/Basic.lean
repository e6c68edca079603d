/-
Addresses of documents: a scheme, an authority if there is one, a path, and
perhaps a query and a fragment. All parts are kept as they are written, with
what cannot stand in them escaped.
-/

namespace Stencil

/-- Who answers for an address. An empty password is none. -/
structure Authority where
  username : String
  password : Option String
  host : String
  port : Option Nat
deriving DecidableEq, Repr

/-- A path is a row of segments, or one text without any. -/
inductive UrlPath where
  | segments (names : List String)
  | flat (text : String)
deriving DecidableEq, Repr

structure Url where
  scheme : String
  authority : Option Authority
  path : UrlPath
  query : Option String
  fragment : Option String
deriving DecidableEq, Repr

namespace Url

-- =================================================================== text

/-- What stands between `//` and the path. -/
def authorityText (a : Authority) : String :=
  let password := match a.password with
    | some p => ":" ++ p
    | none => ""
  let user := a.username ++ password
  let port := match a.port with
    | some n => ":" ++ toString n
    | none => ""
  (if user.isEmpty then "" else user ++ "@") ++ a.host ++ port

def pathText : UrlPath → String
  | .segments names => String.join (names.map ("/" ++ ·))
  | .flat text => text

/-- Segments that would read as an authority behind the scheme. -/
def looksLikeAuthority : UrlPath → Bool
  | .segments ("" :: _ :: _) => true
  | _ => false

/-- The text of a part behind its mark. -/
def marked (mark : String) : Option String → String
  | some s => mark ++ s
  | none => ""

/-- An address as text. Without an authority, a path that begins with an
empty segment stands behind a dot. -/
def text (u : Url) : String :=
  let authority := match u.authority with
    | some a => "//" ++ authorityText a
    | none => if looksLikeAuthority u.path then "/." else ""
  u.scheme ++ ":" ++ authority ++ pathText u.path
    ++ marked "?" u.query ++ marked "#" u.fragment

-- ================================================================ schemes

/-- Some schemes have rules of their own: those of files, and those that
always have a host, with the port that goes without saying. -/
inductive SchemeKind where
  | file
  | hosted (port : Nat)
  | plain
deriving DecidableEq, Repr

def SchemeKind.ofName : String → SchemeKind
  | "file" => .file
  | "http" => .hosted 80
  | "https" => .hosted 443
  | "ws" => .hosted 80
  | "wss" => .hosted 443
  | "ftp" => .hosted 21
  | _ => .plain

/-- A backslash separates as a slash does. -/
def SchemeKind.isSpecial : SchemeKind → Bool
  | .plain => false
  | _ => true

def kind (u : Url) : SchemeKind := .ofName u.scheme

/-- Nothing can be resolved against a path without segments. -/
def isBase (u : Url) : Bool :=
  match u.path with
  | .segments _ => true
  | .flat _ => false

/-- The names of the segments of the path. -/
def names (u : Url) : List String :=
  match u.path with
  | .segments names => names
  | .flat _ => []

end Url

end Stencil
