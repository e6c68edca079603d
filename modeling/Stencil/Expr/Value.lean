/-
The values of expressions, and how one kind of value serves as another: as
text, as a boolean, as a number, as a list of items.

A map keeps the order in which its keys were first entered, and each key
occurs once.
-/
import Stencil.Expr.Error
import Stencil.Markup.Node
import Stencil.Number.Decimal
import Stencil.Number.Shortest
import Stencil.Text.Blank

namespace Stencil.Expr

open Markup (Node)

inductive Value where
  | null
  | bool (b : Bool)
  | int (i : Int64)
  | float (f : Float)
  | string (s : String)
  | array (items : List Value)
  | map (entries : List (String × Value))
  | element (node : Node)

instance : Inhabited Value := ⟨.null⟩

/-- Enters a key: an equal key keeps its position and takes the new value. -/
def enter {α : Type} (entries : List (String × α)) (k : String) (v : α) :
    List (String × α) :=
  match entries with
  | [] => [(k, v)]
  | (k', v') :: rest =>
    if k' = k then (k, v) :: rest else (k', v') :: enter rest k v

/-- The entries entered one after another. -/
def enterAll {α : Type} (entries : List (String × α)) : List (String × α) :=
  entries.foldl (fun acc e => enter acc e.1 e.2) []

namespace Value

def kind : Value → Kind
  | .null => .null
  | .bool _ => .boolean
  | .int _ => .integer
  | .float _ => .float
  | .string _ => .string
  | .array _ => .array
  | .map _ => .map
  | .element _ => .element

def isNull : Value → Bool
  | .null => true
  | _ => false

def isFloating : Value → Bool
  | .float _ => true
  | _ => false

def isString : Value → Bool
  | .string _ => true
  | _ => false

/-- Null and whatever holds nothing. -/
def isEmpty : Value → Bool
  | .null => true
  | .string s => s.isEmpty
  | .array items => items.isEmpty
  | .map entries => entries.isEmpty
  | _ => false

-- =============================================================== display

/-- The text that a node stands for. -/
def nodeText (n : Node) : String :=
  if n.isElement then n.textContent else n.characters?.getD ""

mutual

/-- The text that a value stands for. -/
def display : Value → String
  | .null => ""
  | .bool b => if b then "true" else "false"
  | .int i => Number.text i
  | .float f => Number.floatText f
  | .string s => s
  | .array items => "[" ++ String.intercalate ", " (displayItems items) ++ "]"
  | .map entries =>
    "\x7b" ++ String.intercalate ", " (displayEntries entries) ++ "\x7d"
  | .element n => nodeText n

def displayItems : List Value → List String
  | [] => []
  | v :: vs => display v :: displayItems vs

def displayEntries : List (String × Value) → List String
  | [] => []
  | (k, v) :: rest => (k ++ "=" ++ display v) :: displayEntries rest

end

-- =============================================================== numbers

/-- A number is whole or floating. -/
inductive Numeric where
  | int (i : Int64)
  | float (f : Float)

namespace Numeric

def toValue : Numeric → Value
  | .int i => .int i
  | .float f => .float f

def toFloat : Numeric → Float
  | .int i => Number.ofWhole i
  | .float f => f

end Numeric

/-- The number that a text denotes, white space around it aside: a whole
number if it is one in range, else a finite float. -/
def readNumber? (s : String) : Option Numeric :=
  let body := Text.trim s.toList
  match Number.readWhole? body with
  | some i => some (.int i)
  | none =>
    ((Number.readFloat? body).filter Number.isFinite).map Numeric.float

/-- The number that a value stands for; null is zero. -/
def number? : Value → Option Numeric
  | .null => some (.int 0)
  | .int i => some (.int i)
  | .float f => some (.float f)
  | .string s => readNumber? s
  | _ => none

/-- Floats below this magnitude convert to whole numbers. -/
def wholeLimit : Nat := Nat.pow 2 63

/-- The whole number that a number is. -/
def Numeric.whole? : Numeric → Option Int64
  | .int i => some i
  | .float f => (Number.integerBelow? wholeLimit f).bind Number.whole?

/-- The value as a whole number. -/
def asInt (v : Value) : Except Error Int64 :=
  match v.number?.bind Numeric.whole? with
  | some i => .ok i
  | none => .error (.coercion v.kind .integer)

/-- The value as a float. -/
def asFloat (v : Value) : Except Error Float :=
  match v.number? with
  | some n => .ok n.toFloat
  | none => .error (.coercion v.kind .float)

/-- The value as a boolean: null and the empty text are false, and the words
may be in any case. -/
def asBool : Value → Except Error Bool
  | .null => .ok false
  | .bool b => .ok b
  | .string s =>
    if s.isEmpty then .ok false
    else if Text.sameIgnoringCase s.toList "true".toList then .ok true
    else if Text.sameIgnoringCase s.toList "false".toList then .ok false
    else .error (.coercion .string .boolean)
  | v => .error (.coercion v.kind .boolean)

-- ============================================================ components

/-- What a loop over the value visits. -/
def items? : Value → Option (List Value)
  | .null => some []
  | .array items => some items
  | .map entries => some (entries.map (·.2))
  | _ => none

/-- The attributes of a node, declarations left out, as a map. -/
def attributeMap (n : Node) : Value :=
  .map <| enterAll <|
    (n.attributes.filter fun a => !a.isDeclaration).map fun a =>
      (a.name.text, .string a.value)

/-- A property of a node. -/
def nodeProperty (n : Node) (name : String) : Value :=
  match name with
  | "tagName" => (n.tag?.map Value.string).getD .null
  | "elems" => .array (n.childElements.map Value.element)
  | "attrs" => attributeMap n
  | "text" => .string n.textContent
  | _ => .null

/-- A property of a value: of a map the entry, of a node what nodes have, and
null has every property, null. -/
def property (v : Value) (name : String) : Except Error Value :=
  match v with
  | .null => .ok .null
  | .map entries => .ok ((entries.lookup name).getD .null)
  | .element n => .ok (nodeProperty n name)
  | v => .error (.type (.property name v.kind))

/-- The item at a position, null beyond the end. -/
def itemAt (items : List Value) (i : Int64) : Value :=
  if 0 ≤ i.toInt then (items[i.toInt.toNat]?).getD .null else .null

/-- What an index selects: an item of an array, else a property. -/
def index (target i : Value) : Except Error Value :=
  match target with
  | .null => .ok .null
  | .array items => return itemAt items (← i.asInt)
  | .map _ => target.property i.display
  | .element _ => target.property i.display
  | v => .error (.type (.index v.kind))

-- ============================================================== equality

mutual

/-- The same value of the same kind. The order of a map's entries does not
matter. -/
def same : Value → Value → Bool
  | .null, .null => true
  | .bool a, .bool b => a == b
  | .int i, .int j => i == j
  | .float x, .float y => x == y
  | .string s, .string t => s == t
  | .array vs, .array ws => sameItems vs ws
  | .map es, .map fs => es.length == fs.length && sameEntries es fs
  | .element m, .element n => m.same n
  | _, _ => false

def sameItems : List Value → List Value → Bool
  | [], [] => true
  | v :: vs, w :: ws => same v w && sameItems vs ws
  | _, _ => false

/-- Every entry has an equal one under its key on the other side. -/
def sameEntries : List (String × Value) → List (String × Value) → Bool
  | [], _ => true
  | (k, v) :: rest, fs =>
    (match fs.lookup k with
      | some w => same v w
      | none => false) && sameEntries rest fs

end

/-- Equality as expressions have it: numbers and texts that denote numbers
are equal by value, booleans equal their names, null equals itself alone. -/
def equal (l r : Value) : Bool :=
  match l, r with
  | .null, .null => true
  | .null, _ => false
  | _, .null => false
  -- a text is taken for the boolean that it names, in any case
  | .bool b, .string s => namesBool s b
  | .string s, .bool b => namesBool s b
  -- integers are compared as they are, and other numbers as floats
  | .int i, .int j => i == j
  | .string s, .string t => s == t
  | .int _, .float _ => sameNumber l r
  | .int _, .string _ => sameNumber l r
  | .float _, .int _ => sameNumber l r
  | .float _, .float _ => sameNumber l r
  | .float _, .string _ => sameNumber l r
  | .string _, .int _ => sameNumber l r
  | .string _, .float _ => sameNumber l r
  | l, r => same l r
where
  namesBool (s : String) (b : Bool) : Bool :=
    Text.sameIgnoringCase s.toList
      (if b then "true".toList else "false".toList)
  sameNumber (l r : Value) : Bool :=
    match l.number?, r.number? with
    | some a, some b => a.toFloat == b.toFloat
    | _, _ => false

/-- The order of two values: of texts by code point, else by number. -/
def order (l r : Value) : Except Error Ordering :=
  match l, r with
  | .string s, .string t => .ok (compare s t)
  | l, r =>
    match l.number?, r.number? with
    | some (.int i), some (.int j) => .ok (compare i.toInt j.toInt)
    | some a, some b =>
      match Number.compareFloats a.toFloat b.toFloat with
      | some o => .ok o
      | none => .error (.arithmetic .notANumber)
    | _, _ => .error (.type (.compare l.kind r.kind))

end Value

end Stencil.Expr
