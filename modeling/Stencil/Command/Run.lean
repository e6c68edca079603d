/-
What the command does, over a tree of files: it loads the template, binds the
names that the command line gives, and only then creates the output and
processes the template into it.
-/
import Stencil.Binding.Argument
import Stencil.Binding.Json
import Stencil.Binding.Properties
import Stencil.Command.Arguments
import Stencil.Template.Processor

namespace Stencil.Command

open Stencil.Expr (Value)
open Loading (Files)
open Template (Processor)

/-- Why the command fails. -/
inductive Error where
  | template (stop : Template.Stop)
  | load (e : Loading.Error)
  | json (url : String)
  | invalidName (name : String)

/-- What is bound to which name, in the order of binding. -/
inductive Source where
  | xml (href : String)
  | json (href : String)
  | properties (href : String)
  | value (v : Value)

-- ================================================================ bindings

/-- A name and a value, or a name alone, which is true. -/
def definition (text : String) : String × Source :=
  match Text.breakOn? ['='] text.toList with
  | some (name, value) =>
    (String.ofList name, .value (Binding.Argument.read (String.ofList value)))
  | none => (text, .value (.bool true))

/-- All names to bind and what to bind them to, in order. -/
def bindings (a : Arguments) : List (String × Source) :=
  a.xml.map (fun p => (p.1, .xml p.2))
    ++ a.json.map (fun p => (p.1, .json p.2))
    ++ a.properties.map (fun p => (p.1, .properties p.2))
    ++ a.definitions.map definition

/-- The text at a reference, and its address. -/
def fetch (p : Processor) (base : Url) (href : String) :
    Except Error (Url × String) := do
  let url ← (Loading.resolveHref (some base) href).mapError Error.load
  let text ← (p.source.fetch url).mapError Error.load
  return (url, text)

/-- The root element of the document at a reference, and the documents loaded
then. -/
def rootElement (p : Processor) (base : Url) (href : String) :
    Except Error (Value × Loading.Cache) := do
  let url ← (Loading.resolveHref (some base) href).mapError Error.load
  match Loading.load p.source p.cache url with
  | (.error e, _) => .error (.load e)
  | (.ok d, cache) =>
    return ((d.rootElement?.map Value.element).getD .null, cache)

/-- The value of a source. -/
def Source.value? (p : Processor) (base : Url) :
    Source → Except Error (Value × Loading.Cache)
  | .xml href => rootElement p base href
  | .json href => do
    let (url, text) ← fetch p base href
    match Binding.Json.read? text with
    | some v => return (v, p.cache)
    | none => .error (.json url.text)
  | .properties href => do
    let (_, text) ← fetch p base href
    return (Binding.Properties.read text, p.cache)
  | .value v => return (v, p.cache)

/-- Binds a name, which has to be a valid one, to what a source gives. -/
def bindOne (base : Url) (p : Processor) (b : String × Source) :
    Except Error Processor := do
  let (v, cache) ← b.2.value? p base
  if Expr.isValidName b.1 then
    ({ p with cache := cache }.setVariable b.1 v).mapError fun d =>
      Error.template (.failed d)
  else .error (.invalidName b.1)

/-- The processor of the template with all names bound. -/
def prepare (files : Files) (base : Url) (a : Arguments) :
    Except Error Processor := do
  let url ← (Loading.resolveHref (some base) a.template).mapError Error.load
  let p ← (Processor.load (.standard files) .empty url).mapError fun d =>
    Error.template (.failed d)
  let p :=
    if a.noLibrary then p
    else p.addLibrary Expr.Library.stringsUri Expr.Library.strings
  (bindings a).foldlM (bindOne base) p

-- ==================================================================== run

/-- What the command leaves: the files, what it wrote if not to a file, and
why it failed, if it did. -/
structure Ending where
  files : Files
  written : String
  error : Option Error

/-- Processes to text with the output file there, but empty. -/
def renderInto (p : Processor) (files : Files) (out : Option (List String)) :
    Ending :=
  let created := match out with
    | some path => files.write path ""
    | none => files
  let ending := { p with source := .standard created }.render none
  let text := ending.output.text
  let error := ending.stop.map Error.template
  match out with
  | some path => ⟨created.write path text, "", error⟩
  | none => ⟨created, text, error⟩

/-- A path from the root, or from a directory. -/
def absolute (directory : List String) (path : String) : List String :=
  match path.toList with
  | '/' :: s => Files.tidy ((Text.pieces (· == '/') s).map String.ofList)
  | s =>
    directory ++ Files.tidy ((Text.pieces (· == '/') s).map String.ofList)

/-- Runs the command in a directory, with references relative to a base. -/
def execute (files : Files) (directory : List String) (base : Url)
    (a : Arguments) : Ending :=
  match prepare files base a with
  | .error e => ⟨files, "", some e⟩
  | .ok p => renderInto p files (a.out.map (absolute directory))

/-- Runs the command in a directory, which references are relative to. -/
def run (files : Files) (directory : List String) (a : Arguments) : Ending :=
  execute files directory (Url.ofDirectoryPath directory) a

def Error.message : Error → String
  | .template (.failed d) => d.message
  | .template .unfinished => "Loop without an end"
  | .load e => e.message
  | .json url => s!"JSON error reading URL - {url}"
  | .invalidName name => s!"Invalid variable name - {name}"

/-- The address of a file that the error is about not having. -/
def Error.missing? : Error → Option String
  | .load (.io url) => some url
  | .template (.failed ⟨.loading (.io url), _, _⟩) => some url
  | _ => none

end Stencil.Command
