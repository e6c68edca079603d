/-
The command line. Arguments are read from left to right, and the first that
is wrong, or asks for help, decides. An option takes the arguments behind it
as values until it has enough of them; a value may also be attached. Nothing
that begins with a dash is a value by itself, except the dash alone.
-/

namespace Stencil.Command

/-- What the command line asks for. -/
structure Arguments where
  template : String
  out : Option String
  xml : List (String × String)
  json : List (String × String)
  properties : List (String × String)
  definitions : List String
  noLibrary : Bool
  verbose : Bool
deriving DecidableEq, Repr

/-- Why there is nothing to do. -/
inductive Refusal where
  | usage
  | help
  | version
deriving DecidableEq, Repr

-- ================================================================ options

inductive ValueOption where
  | template
  | out
  | xml
  | json
  | properties
  | define
deriving DecidableEq, Repr

/-- How many values an option takes. -/
def ValueOption.arity : ValueOption → Nat
  | .xml => 2
  | .json => 2
  | .properties => 2
  | _ => 1

inductive Flag where
  | noLibrary
  | verbose
  | help
  | version
deriving DecidableEq, Repr

inductive AnyOption where
  | value (o : ValueOption)
  | flag (f : Flag)
deriving DecidableEq, Repr

/-- The options by their long names. -/
def longOptions : List (String × AnyOption) :=
  [("template", .value .template), ("out", .value .out),
   ("xml", .value .xml), ("json", .value .json),
   ("prop", .value .properties), ("nojstl", .flag .noLibrary),
   ("verbose", .flag .verbose), ("help", .flag .help),
   ("version", .flag .version)]

/-- The options by their letters. -/
def shortOptions : List (Char × AnyOption) :=
  [('D', .value .define), ('h', .flag .help), ('V', .flag .version)]

-- =============================================================== progress

/-- What is known of the command line so far, and the option that may still
take values, with those it has. -/
structure Progress where
  template : Option String
  out : Option String
  xml : List (String × String)
  json : List (String × String)
  properties : List (String × String)
  definitions : List String
  noLibrary : Bool
  verbose : Bool
  pending : Option (ValueOption × List String)
deriving DecidableEq, Repr

def Progress.start : Progress :=
  ⟨none, none, [], [], [], [], false, false, none⟩

namespace Progress

/-- Enters an option with all its values. An option that is not a list is
given once at most. -/
def enter (p : Progress) (o : ValueOption) (values : List String) :
    Except Refusal Progress :=
  match o, values with
  | .template, [v] =>
    if p.template.isSome then .error .usage
    else .ok { p with template := some v }
  | .out, [v] =>
    if p.out.isSome || v.isEmpty then .error .usage
    else .ok { p with out := some v }
  | .xml, [name, href] => .ok { p with xml := p.xml ++ [(name, href)] }
  | .json, [name, href] => .ok { p with json := p.json ++ [(name, href)] }
  | .properties, [name, href] =>
    .ok { p with properties := p.properties ++ [(name, href)] }
  | .define, [v] => .ok { p with definitions := p.definitions ++ [v] }
  | _, _ => .error .usage

/-- Enters the option that was still taking values. -/
def settle (p : Progress) : Except Refusal Progress :=
  match p.pending with
  | none => .ok p
  | some (o, values) => { p with pending := none }.enter o values

def setFlag (p : Progress) : Flag → Except Refusal Progress
  | .help => .error .help
  | .version => .error .version
  | .noLibrary =>
    if p.noLibrary then .error .usage else .ok { p with noLibrary := true }
  | .verbose =>
    if p.verbose then .error .usage else .ok { p with verbose := true }

/-- An option, with the value attached to it if there is one. -/
def option (p : Progress) (o : AnyOption) (value : Option String) :
    Except Refusal Progress := do
  match o, value with
  | .flag _, some _ => .error .usage
  | .flag f, none => (← p.settle).setFlag f
  | .value o, some v => (← p.settle).enter o [v]
  | .value o, none => return { ← p.settle with pending := some (o, []) }

/-- Letters behind one dash: flags, up to a first option with a value, which
the rest is attached to. -/
def letters (p : Progress) : List Char → Except Refusal Progress
  | [] => .ok p
  | c :: rest =>
    match shortOptions.lookup c with
    | none => .error .usage
    | some (.flag f) => do (← p.option (.flag f) none).letters rest
    | some (.value o) =>
      match rest with
      | [] => p.option (.value o) none
      | '=' :: v => p.option (.value o) (some (String.ofList v))
      | v => p.option (.value o) (some (String.ofList v))

/-- A name behind two dashes, with a value attached by an equals sign or
none. -/
def long (p : Progress) (s : List Char) : Except Refusal Progress :=
  let (name, rest) := s.span (· != '=')
  let value := match rest with
    | [] => none
    | _ :: v => some (String.ofList v)
  match longOptions.lookup (String.ofList name) with
  | none => .error .usage
  | some o => p.option o value

/-- An argument that is no option: a value of the option that still takes
one. -/
def plain (p : Progress) (arg : String) : Except Refusal Progress :=
  match p.pending with
  | some (o, values) =>
    if values.length < o.arity then
      .ok { p with pending := some (o, values ++ [arg]) }
    else .error .usage
  | none => .error .usage

def argument (p : Progress) (arg : String) : Except Refusal Progress :=
  match arg.toList with
  | '-' :: '-' :: s => p.long s
  | ['-'] => p.plain arg
  | '-' :: s => p.letters s
  | _ => p.plain arg

/-- All arguments; behind two dashes alone there may be none. -/
def arguments (p : Progress) : List String → Except Refusal Progress
  | [] => p.settle
  | arg :: rest => do
    if arg = "--" then
      if rest.isEmpty then p.settle else .error .usage
    else (← p.argument arg).arguments rest

/-- A template is required. -/
def finish (p : Progress) : Except Refusal Arguments :=
  match p.template with
  | none => .error .usage
  | some template =>
    .ok ⟨template, p.out, p.xml, p.json, p.properties, p.definitions,
      p.noLibrary, p.verbose⟩

end Progress

/-- What a command line asks for. -/
def Arguments.parse (args : List String) : Except Refusal Arguments := do
  (← Progress.start.arguments args).finish

end Stencil.Command
