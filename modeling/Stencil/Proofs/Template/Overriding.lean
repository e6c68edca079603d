/-
What the root of a template says about the options of a run.

For each option the root has at most one attribute, and this says a text, or
nothing, or cannot be read (`saying`). What an option comes to is settled from
what its own attribute says and from what the processor has
(`Saying.settled`), and the options of a run are those that are settled so,
one by one (`effective_ok_iff`); they are refused for the first that is not
settled (`effective_error_iff`). Only the declaration is not left to its own
attribute: it is looked at if the root says what to write as, and this is XML.

A run with other options than those of the processor is one of a processor
that has them.
-/
import Stencil.Proofs.Template.Caching
import Stencil.Proofs.Template.Outcome
import Stencil.Template.Processor

namespace Stencil.Template

open Markup (Node)
open Output (Dialect Whitespace Writer)

namespace Options

-- ========================================================= what a root says

/-- The attribute of the root by which an option is overridden. A template
element has it by the name of the option. On another root it is of the reserved
namespace, and there is none for white space. -/
def voice? (uri : String) (n : Node) (option : String) : Option String :=
  if Directive.ofNode? uri n = some .template then some option
  else if option = "whitespace" then none
  else (n.attributeIn? uri option).map (·.name.text)

/-- Nothing, a text in an attribute, or an attribute whose expressions cannot
be replaced. -/
inductive Saying where
  | nothing
  | spoken (name text : String)
  | garbled (name : String) (e : Expr.Error)

/-- What the root says about an option. -/
def saying (uri : String) (n : Node) (env : Expr.Environment)
    (option : String) : Saying :=
  match voice? uri n option with
  | none => .nothing
  | some name =>
    match n.attribute? name with
    | none => .nothing
    | some raw =>
      match Expr.substitute env raw with
      | .error e => .garbled name e
      | .ok text => if text.isEmpty then .nothing else .spoken name text

namespace Saying

/-- The attribute that says it. -/
def name? : Saying → Option String
  | .nothing => none
  | .spoken name _ => some name
  | .garbled name _ => some name

variable {α : Type}

/-- What an option comes to: what is said, if it is legal, and else what the
processor has. -/
def settled (n : Node) (kept : α) (legal : String → Except Reason α) :
    Saying → Except Diagnostic α
  | .nothing => .ok kept
  | .spoken name text => (legal text).mapError (.on n name)
  | .garbled name e => .error (.on n name (.expression .substitution e))

end Saying

variable {uri : String} {n : Node} {env : Expr.Environment} {option : String}

theorem voice?_eq
    (h : Directive.ofNode? uri n = some .template ∨ option ≠ "whitespace") :
    overrider? uri n option = voice? uri n option := by
  unfold overrider? voice?
  by_cases ht : Directive.ofNode? uri n = some .template
  · rw [if_pos ht, if_pos ht]
  · rw [if_neg ht, if_neg ht, if_neg (h.resolve_left ht)]

/-- The reading of the attribute of an option goes as what it says. -/
theorem substituted_eq {name : String} (h : voice? uri n option = some name) :
    substituted n name env
      = match saying uri n env option with
        | .nothing => .ok none
        | .spoken _ text => .ok (some text)
        | .garbled name e =>
          .error (.on n name (.expression .substitution e)) := by
  unfold saying
  rw [h]
  dsimp only
  cases ha : n.attribute? name with
  | none =>
    unfold substituted
    rw [ha]
    rfl
  | some raw =>
    dsimp only
    cases hs : Expr.substitute env raw with
    | ok text =>
      rw [substituted_ok ha hs]
      dsimp only
      split
      · rfl
      · rfl
    | error e => exact substituted_error ha hs

theorem voice?_of_name {name : String}
    (h : (saying uri n env option).name? = some name) :
    voice? uri n option = some name := by
  unfold saying at h
  cases hv : voice? uri n option with
  | none =>
    rw [hv] at h
    cases h
  | some name' =>
    rw [hv] at h
    dsimp only at h
    split at h
    · cases h
    · split at h
      · exact h
      · split at h
        · cases h
        · exact h

/-- An option is overridden by what its attribute says, and by that alone. -/
theorem override_eq {α : Type} (kept : α) (legal : String → Except Reason α)
    (h : Directive.ofNode? uri n = some .template ∨ option ≠ "whitespace") :
    override uri n option kept legal env
      = (saying uri n env option).settled n kept legal := by
  unfold override
  rw [voice?_eq h]
  cases hv : voice? uri n option with
  | none =>
    unfold saying
    rw [hv]
    rfl
  | some name =>
    show (substituted n name env >>= _) = _
    rw [substituted_eq hv]
    cases hs : saying uri n env option with
    | nothing => rfl
    | garbled name' e =>
      -- the attribute that speaks is the one that was read
      cases (voice?_of_name (congrArg Saying.name? hs)).symm.trans hv
      rfl
    | spoken name' text =>
      cases (voice?_of_name (congrArg Saying.name? hs)).symm.trans hv
      unfold Saying.settled
      dsimp only [bind, Except.bind]
      cases legal text with
      | ok a => rfl
      | error reason => rfl

/-- The root is asked whether it says what to write as. -/
theorem overridesDialect_eq :
    overridesDialect uri n env
      = match saying uri n env "output" with
        | .nothing => .ok false
        | .spoken _ _ => .ok true
        | .garbled name e =>
          .error (.on n name (.expression .substitution e)) := by
  unfold overridesDialect
  rw [voice?_eq (.inr (by decide))]
  cases hv : voice? uri n "output" with
  | none =>
    unfold saying
    rw [hv]
    rfl
  | some name =>
    show (substituted n name env >>= _) = _
    rw [substituted_eq hv]
    cases hs : saying uri n env "output" with
    | nothing => rfl
    | spoken name' text => rfl
    | garbled name' e =>
      cases (voice?_of_name (congrArg Saying.name? hs)).symm.trans hv
      rfl

-- ================================================================ one by one

section

variable (o : Options) (n : Node) (env : Expr.Environment)

/-- What white space comes to. -/
def settledWhitespace : Except Diagnostic Whitespace :=
  (saying o.uri n env "whitespace").settled n o.whitespace readWhitespace

/-- What the run is to be written as. -/
def settledDialect : Except Diagnostic Dialect :=
  (saying o.uri n env "output").settled n o.dialect readDialect

/-- What the declaration comes to where it is asked for. -/
def settledDeclaration : Except Diagnostic Bool :=
  (saying o.uri n env "prefix").settled n o.declaration readDeclaration

/-- The root says what to write as, and this is XML. -/
def asksForXml (dialect : Dialect) : Bool :=
  match saying o.uri n env "output" with
  | .spoken _ _ => dialect == .xml
  | _ => false

/-- The options `o'` are those of a run over a root, where the processor has
`o`. -/
structure Overridden (o' : Options) : Prop where
  uri : o'.uri = o.uri
  whitespace : settledWhitespace o n env = .ok o'.whitespace
  dialect : settledDialect o n env = .ok o'.dialect
  asked : asksForXml o n env o'.dialect = true →
    settledDeclaration o n env = .ok o'.declaration
  unasked : asksForXml o n env o'.dialect = false →
    o'.declaration = o.declaration

/-- Why there is no run over a root: the first option that is not settled. -/
inductive Refused : Diagnostic → Prop
  | whitespace {d : Diagnostic} (h : settledWhitespace o n env = .error d) :
    Refused d
  | dialect {d : Diagnostic} {w : Whitespace}
    (hw : settledWhitespace o n env = .ok w)
    (h : settledDialect o n env = .error d) : Refused d
  | declaration {d : Diagnostic} {w : Whitespace} {dialect : Dialect}
    (hw : settledWhitespace o n env = .ok w)
    (hd : settledDialect o n env = .ok dialect)
    (hasked : asksForXml o n env dialect = true)
    (h : settledDeclaration o n env = .error d) : Refused d

/-- On other roots than template elements nothing is said of white space. -/
theorem settledWhitespace_eq :
    (if Directive.ofNode? o.uri n = some .template then
      override o.uri n "whitespace" o.whitespace readWhitespace
    else pure o.whitespace : Reading Whitespace) env
      = settledWhitespace o n env := by
  by_cases ht : Directive.ofNode? o.uri n = some .template
  · rw [if_pos ht]
    exact override_eq _ _ (.inl ht)
  · rw [if_neg ht]
    unfold settledWhitespace saying voice?
    rw [if_neg ht, if_pos rfl]
    rfl

theorem ite_bind {α β : Type} {c : Prop} [Decidable c] (r t : Reading α)
    (f : α → Reading β) :
    (if c then r >>= f else t >>= f) = (if c then r else t) >>= f := by
  split
  · rfl
  · rfl

/-- The options of a run are settled in order. -/
theorem effective_eq :
    o.effective n env
      = (settledWhitespace o n env).bind fun w =>
        (settledDialect o n env).bind fun dialect =>
        (if asksForXml o n env dialect then settledDeclaration o n env
          else .ok o.declaration).bind fun declaration =>
        .ok ⟨o.uri, w, dialect, declaration⟩ := by
  have hdialect : override o.uri n "output" o.dialect readDialect env
      = settledDialect o n env := override_eq _ _ (.inr (by decide))
  have hdeclaration :
      override o.uri n "prefix" o.declaration readDeclaration env
        = settledDeclaration o n env := override_eq _ _ (.inr (by decide))
  have hasked : overridesDialect o.uri n env = _ := overridesDialect_eq
  rw [← settledWhitespace_eq]
  unfold effective
  dsimp only
  simp only [ite_bind]
  refine congrArg (Except.bind _) (funext fun w => ?_)
  show (override o.uri n "output" o.dialect readDialect env).bind _ = _
  rw [hdialect]
  unfold settledDialect
  -- a dialect that is not spoken of is kept, so it does not ask for a
  -- declaration either
  cases hs : saying o.uri n env "output" with
  | garbled name e => rfl
  | nothing =>
    rw [hs] at hasked
    show (overridesDialect o.uri n env).bind _ = _
    rw [hasked]
    unfold asksForXml
    rw [hs]
    rfl
  | spoken name text =>
    rw [hs] at hasked
    refine congrArg (Except.bind _) (funext fun dialect => ?_)
    show (overridesDialect o.uri n env).bind _ = _
    rw [hasked]
    unfold asksForXml
    rw [hs]
    cases dialect with
    | html => rfl
    | xml =>
      show Except.bind
        (override o.uri n "prefix" o.declaration readDeclaration env) _ = _
      rw [hdeclaration]
      rfl

variable {o n env}

theorem effective_of_overridden {o' : Options} (h : Overridden o n env o') :
    o.effective n env = .ok o' := by
  obtain ⟨uri, w, dialect, declaration⟩ := o'
  obtain rfl : uri = o.uri := h.uri
  rw [effective_eq, h.whitespace]
  show (settledDialect o n env).bind _ = _
  rw [h.dialect]
  have hdeclaration : (if asksForXml o n env dialect then
      settledDeclaration o n env else .ok o.declaration)
        = .ok declaration := by
    split
    · next hasked => exact h.asked hasked
    · next hasked =>
      exact congrArg Except.ok (h.unasked (Bool.eq_false_iff.2 hasked)).symm
  show Except.bind (if asksForXml o n env dialect then _ else _) _ = _
  rw [hdeclaration]
  rfl

theorem effective_of_refused {d : Diagnostic} (h : Refused o n env d) :
    o.effective n env = .error d := by
  rw [effective_eq]
  cases h with
  | whitespace h =>
    rw [h]
    rfl
  | dialect hw h =>
    rw [hw]
    show (settledDialect o n env).bind _ = _
    rw [h]
    rfl
  | declaration hw hdialect hasked h =>
    rw [hw]
    show (settledDialect o n env).bind _ = _
    rw [hdialect]
    show Except.bind (if asksForXml o n env _ then _ else _) _ = _
    rw [hasked, if_pos rfl, h]
    rfl

variable (o n env)

/-- Either all options are settled, or there is a first that is not. -/
theorem overridden_or_refused :
    (∃ o', Overridden o n env o') ∨ ∃ d, Refused o n env d := by
  cases hw : settledWhitespace o n env with
  | error d => exact .inr ⟨d, .whitespace hw⟩
  | ok w =>
    cases hdialect : settledDialect o n env with
    | error d => exact .inr ⟨d, .dialect hw hdialect⟩
    | ok dialect =>
      cases hasked : asksForXml o n env dialect with
      | false =>
        refine .inl ⟨⟨o.uri, w, dialect, o.declaration⟩, rfl, hw, hdialect,
          fun h => ?_, fun _ => rfl⟩
        rw [hasked] at h
        cases h
      | true =>
        cases hdeclaration : settledDeclaration o n env with
        | error d =>
          exact .inr ⟨d, .declaration hw hdialect hasked hdeclaration⟩
        | ok declaration =>
          refine .inl ⟨⟨o.uri, w, dialect, declaration⟩, rfl, hw, hdialect,
            fun _ => hdeclaration, fun h => ?_⟩
          rw [hasked] at h
          cases h

/-- There is a run just with the options that are settled one by one. -/
theorem effective_ok_iff (o' : Options) :
    o.effective n env = .ok o' ↔ Overridden o n env o' := by
  refine ⟨fun h => ?_, effective_of_overridden⟩
  rcases overridden_or_refused o n env with ⟨o'', ho⟩ | ⟨d, hd⟩
  · cases h.symm.trans (effective_of_overridden ho)
    exact ho
  · cases h.symm.trans (effective_of_refused hd)

/-- There is none just for the first option that is not settled. -/
theorem effective_error_iff (d : Diagnostic) :
    o.effective n env = .error d ↔ Refused o n env d := by
  refine ⟨fun h => ?_, effective_of_refused⟩
  rcases overridden_or_refused o n env with ⟨o', ho⟩ | ⟨d', hd⟩
  · cases h.symm.trans (effective_of_overridden ho)
  · cases h.symm.trans (effective_of_refused hd)
    exact hd

-- ================================================================= refusals

/-- A diagnostic is about the attribute of an option: its text is illegal, or
the expressions in it cannot be replaced. -/
inductive Faulted (option : String) : Diagnostic → Prop
  | illegal {name text : String} {reason : Reason}
    (hspoken : saying o.uri n env option = .spoken name text)
    (hkind : reason.kind = .config) : Faulted option (.on n name reason)
  | garbled {name : String} {e : Expr.Error}
    (hgarbled : saying o.uri n env option = .garbled name e) :
    Faulted option (.on n name (.expression .substitution e))

variable {o n env}

theorem faulted_of_settled {α : Type} {option : String} {kept : α}
    {legal : String → Except Reason α} {d : Diagnostic}
    (hlegal : ∀ text reason, legal text = .error reason →
      reason.kind = .config)
    (h : (saying o.uri n env option).settled n kept legal = .error d) :
    Faulted o n env option d := by
  cases hs : saying o.uri n env option with
  | nothing =>
    rw [hs] at h
    cases h
  | garbled name e =>
    rw [hs] at h
    cases h
    exact .garbled hs
  | spoken name text =>
    rw [hs] at h
    change (legal text).mapError (Diagnostic.on n name) = _ at h
    cases hl : legal text with
    | ok a =>
      rw [hl] at h
      cases h
    | error reason =>
      rw [hl] at h
      cases h
      exact .illegal hs (hlegal text reason hl)

theorem Refused.faulted {d : Diagnostic} (h : Refused o n env d) :
    Faulted o n env "whitespace" d ∨ Faulted o n env "output" d
      ∨ Faulted o n env "prefix" d := by
  cases h with
  | whitespace h =>
    refine .inl (faulted_of_settled (fun text reason hr => ?_) h)
    obtain ⟨_, rfl⟩ := exists_of_mapError hr
    rfl
  | dialect _ h =>
    refine .inr (.inl (faulted_of_settled (fun text reason hr => ?_) h))
    obtain ⟨_, rfl⟩ := exists_of_mapError hr
    rfl
  | declaration _ _ _ h =>
    refine .inr (.inr (faulted_of_settled (fun text reason hr => ?_) h))
    unfold readDeclaration at hr
    split at hr <;> cases hr
    rfl

end

end Options

namespace Processor

open Options (Faulted Overridden Refused)

/-- Writes as the processor's own options say. -/
def writeAs (p : Processor) (room : Option Nat) : Ending Writer :=
  match p.options.dialect with
  | .xml => p.writeXml room
  | .html => p.writeHtml room

theorem write_eq_writeAs (p : Processor) {o : Options}
    (huri : o.uri = p.options.uri) (room : Option Nat) :
    p.write o room = ({ p with options := o } : Processor).writeAs room := by
  obtain ⟨uri, w, dialect, declaration⟩ := o
  obtain rfl : uri = p.options.uri := huri
  cases dialect with
  | xml => rfl
  | html => rfl

/-- A run has the options that are settled one by one, each from what the root
says about it and from what the processor has, and ends as one of a processor
that has these. If there is one that is not settled, it is reported with its
attribute, and nothing is written. The processor keeps its options. -/
theorem root_overrides (p : Processor) (room : Option Nat) :
    let env := (Scopes.single p.scope).environment
    (∀ o, p.effectiveOptions = .ok o ↔ Overridden p.options p.root env o)
    ∧ (∀ d, p.effectiveOptions = .error d ↔ Refused p.options p.root env d)
    ∧ (∀ o, Overridden p.options p.root env o →
      p.render room = ({ p with options := o } : Processor).writeAs room)
    ∧ (∀ d, Refused p.options p.root env d →
      (Faulted p.options p.root env "whitespace" d
        ∨ Faulted p.options p.root env "output" d
        ∨ Faulted p.options p.root env "prefix" d)
      ∧ (p.render room).stop = some (.failed d)
      ∧ (p.render room).output.text = ""
      ∧ (p.render room).cache = p.cache)
    ∧ (p.withCache (p.render room).cache).options = p.options
    ∧ (p.withCache (p.render room).cache).effectiveOptions
        = p.effectiveOptions := by
  intro env
  refine ⟨Options.effective_ok_iff _ _ _, Options.effective_error_iff _ _ _,
    fun o ho => ?_, fun d hd => ⟨hd.faulted, ?_⟩, rfl, rfl⟩
  · have heffective : p.effectiveOptions = .ok o :=
      (Options.effective_ok_iff _ _ _ o).2 ho
    unfold render
    rw [heffective]
    exact p.write_eq_writeAs ho.uri room
  · have heffective : p.effectiveOptions = .error d :=
      (Options.effective_error_iff _ _ _ d).2 hd
    unfold render
    rw [heffective]
    exact ⟨rfl, rfl, rfl⟩

/-- A template element with attributes, around another element. -/
def asking (attributes : List (String × String)) : Processor :=
  let child : Markup.Tree :=
    .node ⟨2, ⟨1, 2⟩, .element ⟨.ofText "a", none, [], []⟩⟩ []
  let element : Markup.Element :=
    ⟨.ofText "xt:template", some standardUri,
      attributes.map fun (name, value) => ⟨.ofText name, none, value⟩, []⟩
  let root : Node :=
    ⟨.given 0, .node ⟨1, ⟨1, 1⟩, .element element⟩ [child], []⟩
  ⟨root, .fresh root none, .standard, .memory [], .empty⟩

/-- A template that asks for a declaration is written with one, and one that
asks for what there is not is refused. -/
theorem root_overrides_asking :
    let p := asking [("whitespace", "none"), ("output", "xml"),
      ("prefix", "yes")]
    let q := asking [("output", "pdf"), ("prefix", "maybe")]
    let env := (Scopes.single p.scope).environment
    let o : Options := ⟨standardUri, .none, .xml, true⟩
    let d : Diagnostic := .on q.root "output" (.outputOption (.output "pdf"))
    Overridden p.options p.root env o
    ∧ p.render none = ({ p with options := o } : Processor).writeAs none
    ∧ (p.render none).output.text
        = "<?xml version=\"1.0\" encoding=\"UTF-8\"?>\n<a/>"
    ∧ Refused q.options q.root (Scopes.single q.scope).environment d
    ∧ (q.render none).stop = some (.failed d) := by
  intro p q env o d
  have hoverridden : Overridden p.options p.root env o := by
    refine ⟨rfl, ?_, ?_, fun _ => ?_, fun h => ?_⟩
    · with_unfolding_all rfl
    · with_unfolding_all rfl
    · with_unfolding_all rfl
    · revert h
      decide +kernel
  have hrefused :
      Refused q.options q.root (Scopes.single q.scope).environment d := by
    refine .dialect (w := .all) ?_ ?_
    · with_unfolding_all rfl
    · with_unfolding_all rfl
  obtain ⟨-, -, hrender, -, -, -⟩ := root_overrides p none
  obtain ⟨-, -, -, hfails, -, -⟩ := root_overrides q none
  exact ⟨hoverridden, hrender o hoverridden, by decide +kernel, hrefused,
    (hfails d hrefused).2.1⟩

open Options in
/-- A declaration that is asked for where nothing is said of what to write as
is left out, though the template is written as XML, and a text that is not
legal there is no fault. -/
theorem declaration_unheeded :
    let p := asking [("prefix", "yes")]
    let q := asking [("prefix", "maybe")]
    saying p.options.uri p.root (Scopes.single p.scope).environment "prefix"
        = .spoken "prefix" "yes"
    ∧ readDeclaration "yes" = .ok true
    ∧ (∃ o, p.effectiveOptions = .ok o ∧ o.dialect = .xml
      ∧ o.declaration = false)
    ∧ (p.render none).output.text = "<a/>"
    ∧ saying q.options.uri q.root (Scopes.single q.scope).environment "prefix"
        = .spoken "prefix" "maybe"
    ∧ readDeclaration "maybe" = .error (.declarationOption "maybe")
    ∧ (q.render none).stop = none ∧ (q.render none).output.text = "<a/>" := by
  intro p q
  have hp : p.effectiveOptions = .ok .standard := by
    with_unfolding_all rfl
  refine ⟨?_, by decide +kernel, ⟨.standard, hp, rfl, rfl⟩, by decide +kernel,
    ?_, by decide +kernel, ?_, by decide +kernel⟩
  · with_unfolding_all rfl
  · with_unfolding_all rfl
  · with_unfolding_all rfl

end Processor

end Stencil.Template
