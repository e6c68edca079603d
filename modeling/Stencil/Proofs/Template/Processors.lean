/-
Processors that are alike.

Two processors are alike if what they start out with differs only in what may be
interchanged: their roots, their outermost scopes and their caches. Their roots
ask for the same options, and their runs end alike (`Processor.Alike.runInto`):
the same is written, and they both go well or stop for the same reason.
-/
import Stencil.Proofs.Template.Interchange
import Stencil.Template.Processor

namespace Stencil.Template

open Markup (Node)
open Output (Sink)

-- ================================================================= options

section options

variable {N : Node → Node → Prop} {n n' : Node}

theorem alike_ite {α β : Type} {Q : α → β → Prop} {c : Prop} [Decidable c]
    {r t : Reading α} {r' t' : Reading β} (hr : ReadAlike N Q r r')
    (ht : ReadAlike N Q t t') :
    ReadAlike N Q (if c then r else t) (if c then r' else t') := by
  split
  · exact hr
  · exact ht

theorem overrider?_eq [Likeness N] (h : N n n') (uri option : String) :
    Options.overrider? uri n option = Options.overrider? uri n' option := by
  unfold Options.overrider?
  rw [Likeness.ofNode? h, Likeness.attributeIn? h]

theorem alike_override [Likeness N] {α : Type} (h : N n n')
    (uri option : String) (default : α) {read : String → Except Reason α}
    (hread : ∀ text reason, read text = .error reason →
      reason.kind ≠ .output) :
    ReadAlike N (· = ·) (Options.override uri n option default read)
      (Options.override uri n' option default read) := by
  unfold Options.override
  rw [overrider?_eq h]
  cases Options.overrider? uri n' option with
  | none => exact alike_pure _
  | some name =>
    refine alike_bind (alike_substituted h name) fun text => ?_
    cases text with
    | none => exact alike_pure _
    | some text =>
      dsimp only
      cases hr : read text with
      | ok a => exact alike_pure _
      | error reason =>
        exact alike_throw (Diagnostic.matches_on h name (hread text reason hr))

theorem alike_overridesDialect [Likeness N] (h : N n n') (uri : String) :
    ReadAlike N (· = ·) (Options.overridesDialect uri n)
      (Options.overridesDialect uri n') := by
  unfold Options.overridesDialect
  rw [overrider?_eq h]
  cases Options.overrider? uri n' "output" with
  | none => exact alike_pure _
  | some name =>
    exact alike_bind (alike_substituted h name) fun _ => alike_pure _

theorem exists_of_mapError {ε ε' α : Type} {x : Except ε α} {f : ε → ε'}
    {e : ε'} (h : x.mapError f = .error e) : ∃ e', e = f e' := by
  cases x with
  | ok a => cases h
  | error e' =>
    cases h
    exact ⟨e', rfl⟩

/-- A root asks for the same options in each copy of its document. -/
theorem alike_effective [Likeness N] (h : N n n') (o : Options) :
    ReadAlike N (· = ·) (o.effective n) (o.effective n') := by
  have hwhitespace : ∀ text reason,
      Options.readWhitespace text = .error reason →
        reason.kind ≠ .output := by
    intro text reason hread
    obtain ⟨_, rfl⟩ := exists_of_mapError hread
    exact nofun
  have hdialect : ∀ text reason, Options.readDialect text = .error reason →
      reason.kind ≠ .output := by
    intro text reason hread
    obtain ⟨_, rfl⟩ := exists_of_mapError hread
    exact nofun
  have hdeclaration : ∀ text reason,
      Options.readDeclaration text = .error reason →
        reason.kind ≠ .output := by
    intro text reason hread
    unfold Options.readDeclaration at hread
    split at hread <;> cases hread
    exact nofun
  unfold Options.effective
  rw [Likeness.ofNode? h]
  dsimp only
  -- the rest is read in the same way, whatever white space is chosen
  refine alike_ite (alike_bind (alike_override h _ _ _ hwhitespace) ?rest)
    (alike_bind (alike_pure _) ?rest)
  intro whitespace
  refine alike_bind (alike_override h _ _ _ hdialect) fun dialect => ?_
  refine alike_bind (alike_overridesDialect h _) fun asked => ?_
  exact alike_ite
    (alike_bind (alike_override h _ _ _ hdeclaration) fun _ => alike_pure _)
    (alike_bind (alike_pure _) fun _ => alike_pure _)

end options

-- ================================================================= endings

namespace Processor

variable {σ : Type} {E : Interchange}

/-- The same is written, and both runs went well or stopped alike. -/
structure Ending.Alike (E : Interchange) (e e' : Ending σ) : Prop where
  stop : Option.Rel (Stop.Alike E) e.stop e'.stop
  output : e.output = e'.output
  cache : E.caches e.cache e'.cache

/-- Processors that differ only in what may be interchanged. -/
structure Alike (E : Interchange) (p p' : Processor) : Prop where
  root : E.nodes p.root p'.root
  scope : p.scope.Alike E p'.scope
  options : p.options = p'.options
  source : p.source = p'.source
  cache : E.caches p.cache p'.cache
  serves : E.Serves p.options.uri p.source

namespace Alike

variable {p p' : Processor}

theorem scopes (h : p.Alike E p') :
    (Scopes.single p.scope).Alike E (.single p'.scope) :=
  ⟨h.scope, .nil⟩

theorem machine (h : p.Alike E p') (start : σ) :
    (p.machine start).Alike E (p'.machine start) :=
  ⟨h.scopes, rfl, rfl, h.cache⟩

theorem document (h : p.Alike E p') (sink : Sink σ) :
    RunsAlike E (p.document sink) (p'.document sink) := by
  have hsettings : p'.settings sink = p.settings sink := by
    unfold settings
    rw [h.options, h.source]
  have c := runsAlike_congruence (s := p.settings sink) h.serves
  unfold Processor.document
  rw [hsettings]
  dsimp only
  refine runsAlike_seq (runsAlike_send _ _) (runsAlike_seq ?_
    (runsAlike_send _ _))
  exact c.execute (c.inner nestingLimit) h.root

/-- Runs of alike processors end alike, into whatever sink. -/
theorem runInto (h : p.Alike E p') (sink : Sink σ) (start : σ) :
    (p.runInto sink start).Alike E (p'.runInto sink start) := by
  have hend := h.document sink _ _ (h.machine start)
  unfold Processor.runInto
  generalize p.document sink (p.machine start) = r at hend ⊢
  generalize p'.document sink (p'.machine start) = r' at hend ⊢
  cases hend with
  | ok hm => exact ⟨.none, hm.output, hm.cache⟩
  | error he hm => exact ⟨.some he, hm.output, hm.cache⟩

theorem render (h : p.Alike E p') (room : Option Nat) :
    (p.render room).Alike E (p'.render room) := by
  have hread := alike_effective h.root p.options
    (Scopes.single p.scope).environment
  have heffective : p'.effectiveOptions
      = p.options.effective p'.root (Scopes.single p.scope).environment := by
    rw [effectiveOptions, h.options, h.scopes.environment]
  have hsame : p.effectiveOptions
      = p.options.effective p.root (Scopes.single p.scope).environment := rfl
  rw [← heffective, ← hsame] at hread
  unfold Processor.render
  generalize p.effectiveOptions = options at hread ⊢
  generalize p'.effectiveOptions = options' at hread ⊢
  cases hread with
  | ok heq =>
    cases heq
    exact h.runInto _ _
  | error hd => exact ⟨.some (.failed hd.alike), by rw [h.options], h.cache⟩

end Alike

end Processor

end Stencil.Template
