/-
Documents as flat sequences of marks. A tree has marks, read off from left to
right, and so have the events of a source, once references are resolved,
character data is joined and white space outside all elements is left out.
-/
import Stencil.Markup.Event
import Stencil.Markup.Tree

namespace Stencil.Markup

/-- The start or the end of an element, or what stands between. -/
inductive Mark where
  | start (name : String) (attributes : List (String × String))
  | stop (name : String)
  | text (s : String)
  | cdata (s : String)
  | comment (s : String)
  | instruction (target data : String)
deriving DecidableEq, Repr

-- ========================================================== marks of trees

mutual

/-- The marks of a tree; the document itself has none but those of its
children. -/
def Tree.marks : Tree → List Mark
  | .node label ts =>
    match label.content with
    | .document => marksOf ts
    | .element e =>
      .start e.name.text (e.attributes.map fun a => (a.name.text, a.value))
        :: (marksOf ts ++ [.stop e.name.text])
    | .text s => [.text s]
    | .cdata s => [.cdata s]
    | .comment s => [.comment s]
    | .instruction target data => [.instruction target data]

/-- The marks of trees in order. -/
def marksOf : List Tree → List Mark
  | [] => []
  | t :: ts => t.marks ++ marksOf ts

end

theorem marksOf_append (ts us : List Tree) :
    marksOf (ts ++ us) = marksOf ts ++ marksOf us := by
  induction ts with
  | nil => rfl
  | cons t ts ih =>
    simp only [List.cons_append, marksOf, ih, List.append_assoc]

-- ========================================================= marks of events

/-- Character data; where there is none there is no mark. -/
def textMarks (s : String) : List Mark := if s.isEmpty then [] else [.text s]

/-- The marks of an event, if its attributes and its reference can be
read. -/
def Event.marks? : Event → Option (List Mark)
  | .start tag empty =>
    (readAttributes tag).toOption.map fun attributes =>
      let name := String.ofList (tagName tag)
      .start name attributes :: (if empty then [.stop name] else [])
  | .stop name => some [.stop name]
  | .text s => some (textMarks s)
  | .reference name => (referenced? name).map fun c => [.text c.toString]
  | .cdata s => some [.cdata s]
  | .comment s => some [.comment s]
  | .instruction target data => some [.instruction target data]

/-- Leaves out the white space outside all elements, of which `depth` are
open. -/
def withoutOutside : Nat → List Mark → List Mark
  | _, [] => []
  | depth, .start name attributes :: ms =>
    .start name attributes :: withoutOutside (depth + 1) ms
  | depth, .stop name :: ms => .stop name :: withoutOutside (depth - 1) ms
  | 0, .text s :: ms =>
    if Text.allBlank s then withoutOutside 0 ms
    else .text s :: withoutOutside 0 ms
  | depth, m :: ms => m :: withoutOutside depth ms

/-- Character data before marks, joined to any that they begin with. -/
def prependText (s : String) : List Mark → List Mark
  | .text t :: ms => .text (s ++ t) :: ms
  | ms => .text s :: ms

/-- Character data directly behind character data joins it. -/
def joinTexts : List Mark → List Mark
  | [] => []
  | .text s :: ms => prependText s (joinTexts ms)
  | m :: ms => m :: joinTexts ms

/-- The marks of the events of a source. -/
def Scan.marks? (s : Scan) : Option (List Mark) :=
  (s.events.mapM fun (e : Placed) => e.event.marks?).map fun ms =>
    joinTexts (withoutOutside 0 ms.flatten)

end Stencil.Markup
