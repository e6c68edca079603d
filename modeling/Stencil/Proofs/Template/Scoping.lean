/-
Stacks of scopes, by what has been done to them.

A stack answers from what its scopes hold. The answers can be told without it,
from what was tried since: of each scope that is open, what it held when it was
opened and the moves that were tried while it was the innermost (`Past`). A name
stands for its first constant, or else for the variable that was assigned last;
a macro is the first of its name, a library and a base are the last. What a move
does to the stack is what it adds to the past (`recalled_attempt`), and so it is
for any moves in a row.

Scopes that are closed are not recalled. That they may be forgotten is the other
half: as long as moves do not leave the scope that they begin in, those around
it stay as they are (`kept_perform`), so moves between a push and its pop are
undone by the pop.
-/
import Stencil.Proofs.Expr.Reading
import Stencil.Proofs.Template.Outcome

namespace Stencil.Template

open Stencil.Expr (Value Library enter lookup_enter lookup_entry)
open Markup (Node)

-- ================================================================== moves

/-- What can be done to a stack of scopes. -/
inductive Move where
  | push (anchor : Node)
  | pop
  | setVariable (name : String) (v : Value)
  | setConstant (name : String) (v : Value)
  | define (name : String) (element : Node)
  | addLibrary (uri : String) (library : Library)
  | setBase (base : Option Url)

namespace Move

/-- What a move makes of a stack, or why it cannot be made. -/
def act : Move → Scopes → Except ScopeError Scopes
  | .push anchor, s => .ok (s.push anchor)
  | .pop, s => .ok s.pop
  | .setVariable name v, s => s.setVariable name v
  | .setConstant name v, s => s.setConstant name v
  | .define name element, s => s.define name element
  | .addLibrary uri library, s => .ok (s.addLibrary uri library)
  | .setBase base, s => .ok (s.setBase base)

/-- What a move makes of the innermost scope, if it does not open or leave
one. -/
def change : Move → Scope → Except ScopeError Scope
  | .setVariable name v, t => t.setVariable name v
  | .setConstant name v, t => t.setConstant name v
  | .define name element, t => t.define name element
  | .addLibrary uri library, t => .ok (t.addLibrary uri library)
  | .setBase base, t => .ok { t with base := base }
  | _, t => .ok t

/-- The innermost scope behind such a move, which may be refused. -/
def changed (o : Move) (t : Scope) : Scope :=
  match o.change t with
  | .ok t' => t'
  | .error _ => t

/-- The value that a variable of this name is given. -/
def assigns? (name : String) : Move → Option Value
  | .setVariable name' v => if name = name' then some v else none
  | _ => none

/-- The value that a constant of this name is given. -/
def fixes? (name : String) : Move → Option Value
  | .setConstant name' v => if name = name' then some v else none
  | _ => none

/-- The element that a macro of this name is given. -/
def defines? (name : String) : Move → Option Node
  | .define name' element => if name = name' then some element else none
  | _ => none

/-- The library that is added for this URI. -/
def adds? (uri : String) : Move → Option Library
  | .addLibrary uri' library => if uri = uri' then some library else none
  | _ => none

/-- The base that is set, which may be none. -/
def rebases? : Move → Option (Option Url)
  | .setBase base => some base
  | _ => none

/-- How many scopes are open above one behind a move, with so many open before
it; none if the move leaves that one. -/
def above? : Move → Nat → Option Nat
  | .push _, d => some (d + 1)
  | .pop, 0 => none
  | .pop, d + 1 => some d
  | _, d => some d

end Move

namespace Scopes

/-- The stack after a move was tried: one that cannot be made changes
nothing. -/
def attempt (s : Scopes) (o : Move) : Scopes :=
  match o.act s with
  | .ok t => t
  | .error _ => s

/-- The stack after moves were tried in turn. -/
def perform (s : Scopes) (os : List Move) : Scopes := os.foldl attempt s

theorem attempt_ok {s t : Scopes} {o : Move} (h : o.act s = .ok t) :
    s.attempt o = t := by
  rw [attempt, h]

theorem attempt_error {s : Scopes} {o : Move} {e : ScopeError}
    (h : o.act s = .error e) : s.attempt o = s := by
  rw [attempt, h]

theorem perform_append (s : Scopes) (os us : List Move) :
    s.perform (os ++ us) = (s.perform os).perform us :=
  List.foldl_append

theorem all_ne_nil (s : Scopes) : s.all ≠ [] := List.cons_ne_nil _ _

end Scopes

/-- The value of a name that is a constant of the scope. -/
def Scope.constant? (t : Scope) (name : String) : Option Value :=
  (t.names.lookup name).bind fun b => if b.constant then some b.value else none

-- =================================================================== pasts

/-- A scope by its past: what it held when it was opened, and what was tried
since while it was the innermost, latest first. -/
structure Past where
  opened : Scope
  tried : List Move

namespace Past

/-- One more move is tried. -/
def add (p : Past) (o : Move) : Past := ⟨p.opened, o :: p.tried⟩

/-- A constant is what it was made first. -/
def constant? (p : Past) (name : String) : Option Value :=
  (p.opened.constant? name).or (p.tried.reverse.findSome? (·.fixes? name))

/-- A variable is what it was assigned last. -/
def assigned? (p : Past) (name : String) : Option Value :=
  (p.tried.findSome? (·.assigns? name)).or (p.opened.value? name)

/-- A constant counts for more than any variable. -/
def value? (p : Past) (name : String) : Option Value :=
  (p.constant? name).or (p.assigned? name)

/-- A macro is the first of its name. -/
def macro? (p : Past) (name : String) : Option Node :=
  (p.opened.macros.lookup name).or
    (p.tried.reverse.findSome? (·.defines? name))

/-- A library is the last for its URI. -/
def library? (p : Past) (uri : String) : Option Library :=
  (p.tried.findSome? (·.adds? uri)).or (p.opened.libraries.lookup uri)

/-- A base is the last that was set, or the one that was taken over. -/
def base (p : Past) : Option Url :=
  (p.tried.findSome? (·.rebases?)).getD p.opened.base

variable (p : Past) (o : Move) (name : String)

theorem constant?_add :
    (p.add o).constant? name = (p.constant? name).or (o.fixes? name) := by
  unfold constant? add
  rw [List.reverse_cons, List.findSome?_append, Option.or_assoc]
  cases h : o.fixes? name <;> simp [h]

theorem assigned?_add :
    (p.add o).assigned? name = (o.assigns? name).or (p.assigned? name) := by
  unfold assigned? add
  rw [List.findSome?_cons]
  cases o.assigns? name <;> rfl

theorem macro?_add :
    (p.add o).macro? name = (p.macro? name).or (o.defines? name) := by
  unfold macro? add
  rw [List.reverse_cons, List.findSome?_append, Option.or_assoc]
  cases h : o.defines? name <;> simp [h]

theorem library?_add (uri : String) :
    (p.add o).library? uri = (o.adds? uri).or (p.library? uri) := by
  unfold library? add
  rw [List.findSome?_cons]
  cases o.adds? uri <;> rfl

theorem base_add : (p.add o).base = o.rebases?.getD p.base := by
  unfold base add
  rw [List.findSome?_cons]
  cases o.rebases? <;> rfl

end Past

/-- The base that a scope takes over from the innermost of those around it. -/
def baseOver (ps : List Past) : Option Url := ps.head?.bind Past.base

/-- What a move adds to the pasts of the scopes that are open, innermost first.
The outermost is never left. -/
def recalled : List Past → Move → List Past
  | ps, .push anchor => ⟨.fresh anchor (baseOver ps), []⟩ :: ps
  | _ :: p :: ps, .pop => p :: ps
  | ps, .pop => ps
  | p :: ps, o => p.add o :: ps
  | [], _ => []

/-- The pasts of the scopes that are open after these moves, innermost first. -/
def pasts (s : Scopes) (os : List Move) : List Past :=
  os.foldl recalled (s.all.map fun t => ⟨t, []⟩)

/-- A scope is as its past says. -/
structure Recalls (p : Past) (t : Scope) : Prop where
  anchor : t.anchor = p.opened.anchor
  constant? (name : String) : t.constant? name = p.constant? name
  value? (name : String) : t.value? name = p.value? name
  macro? (name : String) : t.macros.lookup name = p.macro? name
  library? (uri : String) : t.libraries.lookup uri = p.library? uri
  base : t.base = p.base

-- ================================================================= a scope

/-- What a move makes of the innermost scope, whether it is refused or not: it
is refused where what it gives would not count. -/
structure Takes (o : Move) (t t' : Scope) : Prop where
  anchor : t'.anchor = t.anchor
  constant? (x : String) : t'.constant? x = (t.constant? x).or (o.fixes? x)
  value? (x : String) : t'.value? x
    = (t'.constant? x).or ((o.assigns? x).or (t.value? x))
  macro? (x : String) :
    t'.macros.lookup x = (t.macros.lookup x).or (o.defines? x)
  library? (x : String) :
    t'.libraries.lookup x = (o.adds? x).or (t.libraries.lookup x)
  base : t'.base = o.rebases?.getD t.base

section

variable {t : Scope} {p : Past} {o : Move} {name : String} {b : Binding}

theorem changed_ok {t' : Scope} (h : o.change t = .ok t') :
    o.changed t = t' := by
  rw [Move.changed, h]

theorem changed_error {e : ScopeError} (h : o.change t = .error e) :
    o.changed t = t := by
  rw [Move.changed, h]

theorem isConstant_eq (t : Scope) (name : String) :
    t.isConstant name = (t.constant? name).isSome := by
  unfold Scope.isConstant Scope.constant?
  cases t.names.lookup name with
  | none => rfl
  | some b =>
    obtain ⟨v, constant⟩ := b
    cases constant <;> rfl

/-- What is a constant of a scope is its value. -/
theorem constant?_or_value? (t : Scope) (x : String) :
    (t.constant? x).or (t.value? x) = t.value? x := by
  unfold Scope.constant? Scope.value?
  cases t.names.lookup x with
  | none => rfl
  | some b =>
    obtain ⟨v, constant⟩ := b
    cases constant <;> rfl

theorem constant?_bound (h : t.constant? name = none) (x : String) :
    Scope.constant? { t with names := enter t.names name b } x
      = (t.constant? x).or
          (if x = name ∧ b.constant = true then some b.value else none) := by
  unfold Scope.constant? at h ⊢
  dsimp only
  rw [lookup_enter]
  by_cases hx : x = name
  · rw [if_pos hx, hx, h]
    cases hb : b.constant <;> simp [hb]
  · rw [if_neg hx, if_neg (fun hand => hx hand.1), Option.or_none]

theorem value?_bound (t : Scope) (name : String) (b : Binding) (x : String) :
    Scope.value? { t with names := enter t.names name b } x
      = if x = name then some b.value else t.value? x := by
  unfold Scope.value?
  dsimp only
  rw [lookup_enter]
  split <;> rfl

/-- The move gives a name a value, and nothing else. -/
structure Move.Binds (o : Move) (name : String) (b : Binding) : Prop where
  fixes? (x : String) : o.fixes? x
    = if x = name ∧ b.constant = true then some b.value else none
  assigns? (x : String) : o.assigns? x
    = if x = name ∧ b.constant = false then some b.value else none
  defines? (x : String) : o.defines? x = none
  adds? (x : String) : o.adds? x = none
  rebases? : o.rebases? = none

theorem takes_names (ho : o.Binds name b) {names : List (String × Binding)}
    (hconstant : ∀ x, Scope.constant? { t with names := names } x
      = (t.constant? x).or (o.fixes? x))
    (hvalue : ∀ x, Scope.value? { t with names := names } x
      = (Scope.constant? { t with names := names } x).or
          ((o.assigns? x).or (t.value? x))) :
    Takes o t { t with names := names } where
  anchor := rfl
  constant? := hconstant
  value? := hvalue
  macro? x := by
    rw [ho.defines?]
    exact Option.or_none.symm
  library? x := by
    rw [ho.adds?]
    rfl
  base := by
    rw [ho.rebases?]
    rfl

/-- A name that is a constant is not bound again. -/
theorem takes_refused (ho : o.Binds name b)
    (h : (t.constant? name).isSome = true) : Takes o t t := by
  obtain ⟨v, hv⟩ := Option.isSome_iff_exists.1 h
  show Takes o t { t with names := t.names }
  refine takes_names ho (fun x => ?_) fun x => ?_
  · rw [ho.fixes?]
    split
    · next hx =>
      rw [hx.1]
      show t.constant? name = _
      rw [hv]
      rfl
    · exact Option.or_none.symm
  · show t.value? x = (t.constant? x).or _
    rw [ho.assigns?, ← constant?_or_value?]
    split
    · next hx =>
      rw [hx.1, hv]
      rfl
    · rw [Option.none_or, constant?_or_value?, constant?_or_value?]

theorem takes_bound (ho : o.Binds name b) (h : t.constant? name = none) :
    Takes o t { t with names := enter t.names name b } := by
  have hconstant := constant?_bound (b := b) h
  refine takes_names ho (fun x => ?_) fun x => ?_
  · rw [hconstant, ho.fixes?]
  · rw [value?_bound, hconstant, ho.assigns?]
    by_cases hx : x = name
    · rw [hx, h]
      cases hb : b.constant <;> simp
    · rw [if_neg hx, if_neg fun hand => hx hand.1, if_neg fun hand => hx hand.1,
        Option.or_none, Option.none_or, constant?_or_value?]

theorem takes_bind (ho : o.Binds name b)
    (hchange : o.change t = t.bind name b) : Takes o t (o.changed t) := by
  unfold Move.changed
  rw [hchange]
  unfold Scope.bind
  rw [isConstant_eq]
  cases h : (t.constant? name).isSome with
  | true => exact takes_refused ho h
  | false =>
    have hnew := Option.not_isSome_iff_eq_none.1 (Bool.eq_false_iff.1 h)
    exact takes_bound ho hnew

theorem binds_setVariable (name : String) (v : Value) :
    (Move.setVariable name v).Binds name ⟨v, false⟩ where
  fixes? x := (if_neg fun h => Bool.false_ne_true h.2).symm
  assigns? x := by
    show (if x = name then some v else none) = _
    simp only [and_true]
  defines? _ := rfl
  adds? _ := rfl
  rebases? := rfl

theorem binds_setConstant (name : String) (v : Value) :
    (Move.setConstant name v).Binds name ⟨v, true⟩ where
  fixes? x := by
    show (if x = name then some v else none) = _
    simp only [and_true]
  assigns? x := (if_neg fun h => Bool.noConfusion h.2).symm
  defines? _ := rfl
  adds? _ := rfl
  rebases? := rfl

/-- A move that has nothing to do with names. -/
structure Move.Nameless (o : Move) : Prop where
  fixes? (x : String) : o.fixes? x = none
  assigns? (x : String) : o.assigns? x = none

theorem takes_nameless (ho : o.Nameless) {t' : Scope}
    (hanchor : t'.anchor = t.anchor) (hnames : t'.names = t.names)
    (hdefined : ∀ x,
      t'.macros.lookup x = (t.macros.lookup x).or (o.defines? x))
    (hlibrary : ∀ x,
      t'.libraries.lookup x = (o.adds? x).or (t.libraries.lookup x))
    (hbase : t'.base = o.rebases?.getD t.base) : Takes o t t' := by
  have hconstant (x : String) : t'.constant? x = t.constant? x := by
    unfold Scope.constant?
    rw [hnames]
  have hvalue (x : String) : t'.value? x = t.value? x := by
    unfold Scope.value?
    rw [hnames]
  refine ⟨hanchor, fun x => ?_, fun x => ?_, hdefined, hlibrary, hbase⟩
  · rw [hconstant, ho.fixes?, Option.or_none]
  · rw [hconstant, hvalue, ho.assigns?, Option.none_or, constant?_or_value?]

theorem lookup_nothing {α : Type} (es : List (String × α)) (x : String) :
    es.lookup x = (es.lookup x).or none :=
  Option.or_none.symm

/-- A macro that there is already stays what it is. -/
theorem takes_define (t : Scope) (name : String) (element : Node) :
    Takes (.define name element) t ((Move.define name element).changed t) := by
  have nameless : (Move.define name element).Nameless :=
    ⟨fun _ => rfl, fun _ => rfl⟩
  have hchange : (Move.define name element).change t = t.define name element :=
    rfl
  cases h : t.macros.lookup name with
  | some body =>
    rw [Scope.define, h] at hchange
    -- the name is taken, and it is the older macro that is found anyway
    rw [changed_error hchange]
    refine takes_nameless nameless rfl rfl (fun x => ?_) (fun _ => rfl) rfl
    show _ = (t.macros.lookup x).or (if x = name then some element else none)
    split
    · next hx =>
      rw [hx, h]
      rfl
    · exact lookup_nothing _ x
  | none =>
    rw [Scope.define, h] at hchange
    rw [changed_ok hchange]
    refine takes_nameless nameless rfl rfl (fun x => ?_) (fun _ => rfl) rfl
    show ((name, element) :: t.macros).lookup x
      = (t.macros.lookup x).or (if x = name then some element else none)
    rw [lookup_entry]
    split
    · next hx =>
      rw [hx, h]
      rfl
    · exact lookup_nothing _ x

theorem takes_addLibrary (t : Scope) (uri : String) (library : Library) :
    Takes (.addLibrary uri library) t (t.addLibrary uri library) := by
  refine takes_nameless ⟨fun _ => rfl, fun _ => rfl⟩ rfl rfl
    (lookup_nothing _) (fun x => ?_) rfl
  show (enter t.libraries uri library).lookup x
    = (if x = uri then some library else none).or (t.libraries.lookup x)
  rw [lookup_enter]
  split <;> rfl

/-- What every move makes of the innermost scope. -/
theorem takes (o : Move) (t : Scope) : Takes o t (o.changed t) := by
  cases o with
  | setVariable name v => exact takes_bind (binds_setVariable name v) rfl
  | setConstant name v => exact takes_bind (binds_setConstant name v) rfl
  | define name element => exact takes_define t name element
  | addLibrary uri library => exact takes_addLibrary t uri library
  | _ =>
    exact takes_nameless ⟨fun _ => rfl, fun _ => rfl⟩ rfl rfl
      (lookup_nothing _) (fun _ => rfl) rfl

theorem Recalls.fresh (t : Scope) : Recalls ⟨t, []⟩ t := by
  refine ⟨rfl, fun x => ?_, fun x => ?_, fun x => ?_, fun _ => rfl, rfl⟩
  · exact Option.or_none.symm
  · show _ = ((t.constant? x).or none).or (t.value? x)
    rw [Option.or_none, constant?_or_value?]
  · exact Option.or_none.symm

/-- What a move makes of a scope is what it adds to the past. -/
theorem Recalls.add (h : Recalls p t) {t' : Scope} (ht : Takes o t t') :
    Recalls (p.add o) t' := by
  have hconstant (x : String) : t'.constant? x = (p.add o).constant? x := by
    rw [ht.constant?, Past.constant?_add, h.constant?]
  refine ⟨ht.anchor.trans h.anchor, hconstant, fun x => ?_, fun x => ?_,
    fun x => ?_, ?_⟩
  · have hvalue : (p.add o).value? x = ((p.constant? x).or (o.fixes? x)).or
        ((o.assigns? x).or (p.assigned? x)) := by
      rw [← Past.constant?_add, ← Past.assigned?_add]
      rfl
    rw [ht.value?, ht.constant?, h.constant?, h.value?, hvalue, Past.value?]
    cases p.constant? x <;> rfl
  · rw [ht.macro?, Past.macro?_add, h.macro?]
  · rw [ht.library?, Past.library?_add, h.library?]
  · rw [ht.base, Past.base_add, h.base]

end

-- ================================================================ the stack

/-- Why a scope with this past refuses a move. -/
inductive Past.Refuses (p : Past) : Move → ScopeError → Prop
  | setVariable {name : String} {w : Value} (v : Value)
    (h : p.constant? name = some w) :
    Refuses p (.setVariable name v) (.constant name)
  | setConstant {name : String} {w : Value} (v : Value)
    (h : p.constant? name = some w) :
    Refuses p (.setConstant name v) (.constant name)
  | define {name : String} {body : Node} (element : Node)
    (h : p.macro? name = some body) :
    Refuses p (.define name element) (.duplicateMacro name)

/-- What the pasts of scopes, innermost first, tell of the stack that they make
up. Every name stands for what it does in the innermost scope that has it, and
qualifiers are looked up at the anchor of the innermost. -/
structure Remembered (ps : List Past) (s : Scopes) : Prop where
  depth : s.depth = ps.length
  value? (name : String) : s.value? name = ps.findSome? (·.value? name)
  defined? (name : String) : s.defined? name = ps.findSome? (·.macro? name)
  library? (uri : String) : s.library? uri = ps.findSome? (·.library? uri)
  base : s.base = baseOver ps
  anchor : some s.current.anchor = ps.head?.map (·.opened.anchor)
  uri? (q : String) : s.uri? q
    = (ps.head?.bind (·.opened.anchor.resolve? (some q))).filter
        fun uri => !uri.isEmpty
  refuses (o : Move) (e : ScopeError) :
    o.act s = .error e ↔ ∃ p ∈ ps.head?, p.Refuses o e

section

variable {s : Scopes} {ps : List Past} {p : Past} {o : Move}

/-- A change of the innermost scope that is refused is not made. -/
theorem attempt_onCurrent {f : Scope → Except ScopeError Scope}
    (hact : o.act s = s.onCurrent f)
    (hchange : o.change s.current = f s.current) :
    s.attempt o = ⟨o.changed s.current, s.outer⟩ := by
  unfold Scopes.attempt Move.changed
  rw [hact, hchange]
  unfold Scopes.onCurrent
  cases f s.current <;> rfl

/-- A move is about the innermost scope alone. -/
structure Move.Inward (o : Move) (s : Scopes) : Prop where
  recalled (p : Past) (ps : List Past) : recalled (p :: ps) o = p.add o :: ps
  above? (d : Nat) : o.above? d = some d
  attempt : s.attempt o = ⟨o.changed s.current, s.outer⟩

theorem attempt_cases (s : Scopes) (o : Move) :
    (∃ anchor, o = .push anchor) ∨ o = .pop ∨ o.Inward s := by
  cases o with
  | push anchor => exact .inl ⟨anchor, rfl⟩
  | pop => exact .inr (.inl rfl)
  | setVariable name v =>
    exact .inr (.inr ⟨fun _ _ => rfl, fun _ => rfl, attempt_onCurrent rfl rfl⟩)
  | setConstant name v =>
    exact .inr (.inr ⟨fun _ _ => rfl, fun _ => rfl, attempt_onCurrent rfl rfl⟩)
  | define name element =>
    exact .inr (.inr ⟨fun _ _ => rfl, fun _ => rfl, attempt_onCurrent rfl rfl⟩)
  | addLibrary uri library =>
    exact .inr (.inr ⟨fun _ _ => rfl, fun _ => rfl, rfl⟩)
  | setBase base => exact .inr (.inr ⟨fun _ _ => rfl, fun _ => rfl, rfl⟩)

theorem baseOver_eq (h : List.Forall₂ Recalls ps s.all) :
    baseOver ps = s.base := by
  obtain ⟨current, outer⟩ := s
  cases h with
  | cons hp _ => exact hp.base.symm

/-- What a move does to a stack is what it adds to the pasts of its scopes. -/
theorem recalled_attempt (h : List.Forall₂ Recalls ps s.all) (o : Move) :
    List.Forall₂ Recalls (recalled ps o) (s.attempt o).all := by
  rcases attempt_cases s o with ⟨anchor, rfl⟩ | rfl | inward
  · have hbase := baseOver_eq h
    refine .cons ?_ h
    rw [hbase]
    exact .fresh _
  · obtain ⟨current, outer⟩ := s
    cases h with
    | cons hp hps =>
      cases hps with
      | nil => exact .cons hp .nil
      | cons hq hqs => exact .cons hq hqs
  · rw [inward.attempt]
    obtain ⟨current, outer⟩ := s
    cases h with
    | cons hp hps =>
      rw [inward.recalled]
      exact .cons (hp.add (takes o current)) hps

theorem recalled_perform (s : Scopes) (os : List Move) :
    List.Forall₂ Recalls (pasts s os) (s.perform os).all := by
  suffices onward : ∀ (ps : List Past) (s : Scopes),
      List.Forall₂ Recalls ps s.all →
      List.Forall₂ Recalls (os.foldl recalled ps) (s.perform os).all by
    refine onward _ s (List.forall₂_map_left_iff.2 ?_)
    exact List.forall₂_same.2 fun t _ => .fresh t
  induction os with
  | nil => exact fun _ _ h => h
  | cons o os ih => exact fun _ s h => ih _ _ (recalled_attempt h o)

theorem bind_refused {t : Scope} {name : String} {b : Binding}
    {e : ScopeError} :
    t.bind name b = .error e
      ↔ e = .constant name ∧ ∃ v, t.constant? name = some v := by
  rw [Scope.bind_eq_error, isConstant_eq, ← Option.isSome_iff_exists, and_comm]

/-- A move is refused in the cases that there are. -/
theorem refuses_iff (h : Recalls p s.current) (e : ScopeError) :
    o.act s = .error e ↔ p.Refuses o e := by
  cases o with
  | setVariable name v =>
    refine (onCurrent_error (f := (·.bind name ⟨v, false⟩))).trans ?_
    rw [bind_refused, h.constant?]
    constructor
    · rintro ⟨rfl, w, hw⟩
      exact .setVariable v hw
    · intro hrefuses
      cases hrefuses with
      | setVariable _ hw => exact ⟨rfl, _, hw⟩
  | setConstant name v =>
    refine (onCurrent_error (f := (·.bind name ⟨v, true⟩))).trans ?_
    rw [bind_refused, h.constant?]
    constructor
    · rintro ⟨rfl, w, hw⟩
      exact .setConstant v hw
    · intro hrefuses
      cases hrefuses with
      | setConstant _ hw => exact ⟨rfl, _, hw⟩
  | define name element =>
    refine (onCurrent_error (f := (·.define name element))).trans ?_
    rw [Scope.define_eq_error, h.macro?]
    constructor
    · rintro ⟨⟨body, hbody⟩, rfl⟩
      exact .define element hbody
    · intro hrefuses
      cases hrefuses with
      | define _ hbody => exact ⟨⟨_, hbody⟩, rfl⟩
  | _ => exact ⟨nofun, nofun⟩

/-- What recalls the scopes tells of the stack. -/
theorem remembered_of_recalls (h : List.Forall₂ Recalls ps s.all) :
    Remembered ps s := by
  have hbase := baseOver_eq h
  have hvalue (name : String) :=
    findSome?_eq h fun _ _ hr => (hr.value? name).symm
  have hdefined (name : String) :=
    findSome?_eq h fun _ _ hr => (hr.macro? name).symm
  have hlibrary (uri : String) :=
    findSome?_eq h fun _ _ hr => (hr.library? uri).symm
  have hlength := h.length_eq
  obtain ⟨current, outer⟩ := s
  cases h with
  | @cons p _ ps _ hp hps =>
    refine ⟨hlength.symm, fun name => (hvalue name).symm,
      fun name => (hdefined name).symm, fun uri => (hlibrary uri).symm,
      hbase.symm, congrArg some hp.anchor, fun q => ?_, fun o e => ?_⟩
    · show (current.anchor.resolve? (some q)).filter _ = _
      rw [hp.anchor]
      rfl
    · refine (refuses_iff hp e).trans ⟨fun h => ⟨p, rfl, h⟩, ?_⟩
      rintro ⟨_, ⟨⟩, h⟩
      exact h

/-- The outermost scope is never left. -/
theorem getLast?_pasts (s : Scopes) (os : List Move) :
    (pasts s os).getLast?.map (·.opened) = s.all.getLast? := by
  have step (ps : List Past) (o : Move) (hne : ps ≠ []) :
      recalled ps o ≠ [] ∧ (recalled ps o).getLast?.map (·.opened)
        = ps.getLast?.map (·.opened) := by
    cases ps with
    | nil => exact absurd rfl hne
    | cons p ps =>
      cases o with
      | push anchor =>
        exact ⟨List.cons_ne_nil _ _, by rw [recalled, List.getLast?_cons_cons]⟩
      | pop =>
        cases ps with
        | nil => exact ⟨hne, rfl⟩
        | cons q ps =>
          exact ⟨List.cons_ne_nil _ _,
            by rw [recalled, List.getLast?_cons_cons]⟩
      | _ => cases ps <;> exact ⟨List.cons_ne_nil _ _, rfl⟩
  -- the outermost past is never taken off, whatever comes first
  suffices onward : ∀ ps : List Past, ps ≠ [] →
      (os.foldl recalled ps).getLast?.map (·.opened)
        = ps.getLast?.map (·.opened) by
    refine (onward (s.all.map fun t => ⟨t, []⟩) (List.cons_ne_nil _ _)).trans ?_
    rw [List.getLast?_map, Option.map_map]
    exact Option.map_id'
  induction os with
  | nil => exact fun _ _ => rfl
  | cons o os ih =>
    intro ps hne
    obtain ⟨hne', hlast⟩ := step ps o hne
    exact (ih _ hne').trans hlast

end

-- ================================================================ what stays

/-- How many are open behind moves in a row, if none of them leaves the scope
that they begin in. -/
def above? : Nat → List Move → Option Nat
  | d, [] => some d
  | d, o :: os => (o.above? d).bind fun d => above? d os

/-- What lasts of a scope as long as it is open. -/
structure Scope.Lasts (t t' : Scope) : Prop where
  anchor : t'.anchor = t.anchor
  constant? {name : String} {v : Value} (h : t.constant? name = some v) :
    t'.constant? name = some v
  macro? {name : String} {n : Node} (h : t.macros.lookup name = some n) :
    t'.macros.lookup name = some n

theorem Scope.Lasts.refl (t : Scope) : t.Lasts t := ⟨rfl, id, id⟩

theorem Scope.Lasts.trans {t t' t'' : Scope} (h : t.Lasts t')
    (h' : t'.Lasts t'') : t.Lasts t'' :=
  ⟨h'.anchor.trans h.anchor, fun hv => h'.constant? (h.constant? hv),
    fun hn => h'.macro? (h.macro? hn)⟩

theorem Takes.lasts {o : Move} {t t' : Scope} (h : Takes o t t') :
    t.Lasts t' where
  anchor := h.anchor
  constant? hv := by
    rw [h.constant?, hv]
    rfl
  macro? hn := by
    rw [h.macro?, hn]
    rfl

section

variable {s : Scopes} {t : Scope} {inner outer : List Scope} {o : Move}
  {os : List Move} {d k : Nat}

theorem all_pop {ts : List Scope} {u : Scope} (hs : s.all = u :: ts)
    (hts : ts ≠ []) : s.pop.all = ts := by
  obtain ⟨current, scopes⟩ := s
  obtain ⟨-, rfl⟩ := List.cons.inj hs
  cases scopes with
  | nil => exact absurd rfl hts
  | cons t ts => rfl

/-- A move that does not leave a scope keeps it, and those around it. -/
theorem kept_attempt (hs : s.all = inner ++ t :: outer)
    (ho : o.above? inner.length = some d) :
    ∃ inner' t', (s.attempt o).all = inner' ++ t' :: outer
      ∧ inner'.length = d ∧ t.Lasts t' := by
  -- a scope is opened, left, or changed: what is inside of this one grows,
  -- shrinks, or stays as deep
  rcases attempt_cases s o with ⟨anchor, rfl⟩ | rfl | inward
  · cases ho
    exact ⟨.fresh anchor s.base :: inner, t, congrArg (_ :: ·) hs, rfl,
      .refl t⟩
  · cases inner with
    | nil => cases ho
    | cons u inner =>
      cases ho
      have hne : inner ++ t :: outer ≠ [] :=
        List.append_ne_nil_of_right_ne_nil _ (List.cons_ne_nil _ _)
      exact ⟨inner, t, all_pop hs hne, rfl, .refl t⟩
  · rw [inward.above?] at ho
    obtain rfl := Option.some.inj ho
    rw [inward.attempt]
    obtain ⟨current, scopes⟩ := s
    cases inner with
    | nil =>
      obtain ⟨rfl, rfl⟩ := List.cons.inj hs
      exact ⟨[], _, rfl, rfl, (takes o current).lasts⟩
    | cons u inner =>
      obtain ⟨rfl, rfl⟩ := List.cons.inj hs
      exact ⟨_ :: inner, t, rfl, rfl, .refl t⟩

/-- Moves that do not leave a scope keep it, and those around it. -/
theorem kept_perform (hs : s.all = inner ++ t :: outer)
    (hos : above? inner.length os = some k) :
    ∃ inner' t', (s.perform os).all = inner' ++ t' :: outer
      ∧ inner'.length = k ∧ t.Lasts t' := by
  induction os generalizing s inner t with
  | nil =>
    cases hos
    exact ⟨inner, t, hs, rfl, .refl t⟩
  | cons o os ih =>
    obtain ⟨d, ho, hos⟩ := Option.bind_eq_some_iff.1 hos
    obtain ⟨inner₁, t₁, hs₁, rfl, hlasts₁⟩ := kept_attempt hs ho
    obtain ⟨inner', t', hs', hk, hlasts⟩ := ih hs₁ hos
    exact ⟨inner', t', hs', hk, hlasts₁.trans hlasts⟩

theorem eq_of_all {s s' : Scopes} (h : s.all = s'.all) : s = s' := by
  obtain ⟨current, outer⟩ := s
  obtain ⟨current', outer'⟩ := s'
  obtain ⟨rfl, rfl⟩ := List.cons.inj h
  rfl

/-- Moves that leave all scopes they open, and no other, are undone with the
scope that they begin in. -/
theorem pop_perform_push (s : Scopes) (anchor : Node)
    (hos : above? 0 os = some 0) : ((s.push anchor).perform os).pop = s := by
  have hs : (s.push anchor).all = [] ++ .fresh anchor s.base :: s.all := rfl
  obtain ⟨inner, t, hs', hinner, -⟩ := kept_perform hs hos
  obtain rfl := List.length_eq_zero_iff.1 hinner
  exact eq_of_all (all_pop hs' s.all_ne_nil)

end

/-- A constant that is made was none before. -/
theorem setConstant_ok {s s' : Scopes} {name : String} {v : Value}
    (h : s.setConstant name v = .ok s') :
    s'.current.constant? name = some v := by
  have hact : (Move.setConstant name v).act s = .ok s' := h
  have hattempt := (attempt_onCurrent (o := .setConstant name v) (s := s)
    rfl rfl).symm.trans (Scopes.attempt_ok hact)
  have hnone : s.current.constant? name = none := by
    refine Option.eq_none_iff_forall_ne_some.2 fun w hw => ?_
    have hrefused : s.setConstant name v = .error (.constant name) :=
      onCurrent_error.2 (bind_refused.2 ⟨rfl, w, hw⟩)
    rw [h] at hrefused
    cases hrefused
  rw [← hattempt]
  show ((Move.setConstant name v).changed s.current).constant? name = some v
  rw [(takes _ _).constant?, hnone]
  exact if_pos rfl

/-- Whatever was tried on a stack, it is never empty and its outermost scope is
never left; what it answers, and which moves it refuses, is told by the pasts of
the scopes that are open, the innermost of which that has an answer gives it. A
move that is refused changes nothing, nor does the run that tries it. A constant
that was made keeps its value as long as its scope is open, `k` scopes below the
innermost; and moves that leave just the scopes they open are undone with the
scope that they begin in. -/
theorem scopes_remembered (s : Scopes) (os : List Move) :
    Remembered (pasts s os) (s.perform os)
    ∧ 0 < (s.perform os).depth
    ∧ (pasts s os).getLast?.map (·.opened) = s.all.getLast?
    ∧ (∀ o e, o.act s = .error e → s.attempt o = s)
    ∧ (∀ {σ : Type} n f (m m' : Machine σ) e, onScope n f m = .error e m' →
      m' = m)
    ∧ (∀ name v s', s.setConstant name v = .ok s' →
      s'.current.constant? name = some v)
    ∧ (∀ name v k, s.current.constant? name = some v → above? 0 os = some k →
      ∃ inner t, (s.perform os).all = inner ++ t :: s.outer
        ∧ inner.length = k ∧ t.constant? name = some v
        ∧ t.value? name = some v)
    ∧ ∀ anchor, above? 0 os = some 0 →
      s.perform (.push anchor :: (os ++ [.pop])) = s := by
  refine ⟨remembered_of_recalls (recalled_perform s os), Nat.succ_pos _,
    getLast?_pasts s os, fun o e h => Scopes.attempt_error h,
    fun n f m m' e h => (onScope_error h).1, fun name v s' h => setConstant_ok h,
    fun name v k hv hk => ?_, fun anchor hos => ?_⟩
  · have hall : s.all = [] ++ s.current :: s.outer := rfl
    obtain ⟨inner, t, hall, hinner, hlasts⟩ := kept_perform hall hk
    have ht := hlasts.constant? hv
    refine ⟨inner, t, hall, hinner, ht, ?_⟩
    rw [← constant?_or_value?, ht]
    rfl
  · show (s.push anchor).perform (os ++ [.pop]) = s
    rw [Scopes.perform_append]
    exact pop_perform_push s anchor hos

/-- A scope with a constant, in a document that holds nothing. -/
def Scopes.fixed : Scopes :=
  .single
    { Scope.fresh ⟨.given 0, .node ⟨0, ⟨1, 1⟩, .document⟩ [], []⟩ none with
      names := [("c", ⟨.int 1, true⟩)] }

/-- The constant is tried to be changed, and is shadowed for a while. -/
def shadowing : List Move :=
  let n := Scopes.fixed.current.anchor
  [.setVariable "c" (.int 2), .push n, .setVariable "c" (.int 3), .push n, .pop,
    .define "m" n, .pop, .setConstant "c" (.int 4)]

/-- The constant is what it was. -/
theorem scopes_remembered_shadowed :
    (Move.setConstant "c" (.int 4)).act .fixed = .error (.constant "c")
    ∧ Scopes.fixed.attempt (.setConstant "c" (.int 4)) = .fixed
    ∧ Scopes.fixed.current.constant? "c" = some (.int 1)
    ∧ above? 0 shadowing = some 0
    ∧ (∃ inner t, (Scopes.fixed.perform shadowing).all = inner ++ [t]
        ∧ inner.length = 0 ∧ t.value? "c" = some (.int 1))
    ∧ ∀ anchor, Scopes.fixed.perform (.push anchor :: (shadowing ++ [.pop]))
        = .fixed := by
  obtain ⟨-, -, -, refused, -, -, lasting, undone⟩ :=
    scopes_remembered .fixed shadowing
  have hrefused :
      (Move.setConstant "c" (.int 4)).act .fixed = .error (.constant "c") := rfl
  have hfixed : Scopes.fixed.current.constant? "c" = some (.int 1) := rfl
  have habove : above? 0 shadowing = some 0 := rfl
  obtain ⟨inner, t, hall, hinner, -, hvalue⟩ := lasting "c" _ 0 hfixed habove
  exact ⟨hrefused, refused _ _ hrefused, hfixed, habove,
    ⟨inner, t, hall, hinner, hvalue⟩, fun anchor => undone anchor habove⟩

end Stencil.Template
