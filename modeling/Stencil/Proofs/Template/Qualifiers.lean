/-
What qualifiers mean where they are read.

The anchor of the scope that something is read in is the one that can be told
from where it stands (`anchor_of_readsAt`), and what a diagnostic says of
qualifiers is true of that anchor.
-/
import Stencil.Proofs.Template.Faults
import Stencil.Proofs.Template.Simulation

namespace Stencil.Template

open Markup (Attribute Node Tree)

variable {σ α : Type}

/-- What is read is read where it can be told, but for what a copy reads of
itself in its own scope. -/
theorem anchor_of_readsAt {uri : String} {call : Option Node} {a n b : Node}
    {t : Task} (hfits : t.Fits uri call a) (h : t.ReadsAt uri a n b) :
    b = anchorAt uri call n
      ∨ Directive.ofNode? uri n = some .copy ∧ b = n := by
  cases h with
  | element => exact .inl hfits.symm
  | source hn => exact .inr ⟨hn, rfl⟩
  | intercept hn hchild =>
    obtain ⟨t, -, rfl⟩ := List.mem_map.1 hchild
    exact .inl (anchorAt_below (anchorIn_opener hn rfl) t).symm
  | item => exact .inl (anchorAt_below hfits _).symm
  | case => exact .inl (anchorAt_below hfits _).symm
  | param body hchild =>
    obtain ⟨hn, -, rfl⟩ := hfits
    obtain ⟨t, -, rfl⟩ := List.mem_map.1 hchild
    exact .inl (anchorAt_below (anchorIn_opener hn rfl) t).symm

-- ===================================================================== runs

theorem exists_of_blamed {Q : Node → Expr.Error → Prop}
    {R : Node → String → Prop} {d : Diagnostic} (h : d.Blamed Q R)
    {subject : Subject} {fault : Expr.Error}
    (hd : d.reason = .expression subject fault) :
    ∃ n, d.node = some n ∧ Q n fault := by
  cases h with
  | plain h =>
    rw [hd] at h
    cases h
  | read subject' attr h =>
    cases hd
    exact ⟨_, rfl, h⟩
  | twice => cases hd

/-- A qualifier means the same at a node as at an ancestor, if none of the nodes
in between declares it. -/
theorem meaning?_of_lineage {n a : Node} {inner : List Node}
    (h : n.lineage = inner ++ a.lineage) {q : String}
    (hinner : ∀ x ∈ inner, x.declared? (some q) = none) :
    meaning? a q = meaning? n q := by
  unfold meaning? Node.resolve?
  rw [h, List.findSome?_append, List.findSome?_eq_none_iff.2 hinner,
    Option.none_or]

section

variable {s : Settings σ} {m : Machine σ} {n : Node}

/-- However far processing gets, qualifiers are looked up at the anchor of the
scope that is open. For whatever is read that is the nearest directive around it
that opens a scope, but the call for what lies in a macro, and the root where
there is none; only a copy reads its source and its option in its own scope. If
a qualifier or a namespace is said to be unknown then it is, at that anchor and
on behalf of a node that is read. Outside of macros the anchor lies around the
node, so qualifiers mean what they mean at the node unless they are declared in
between. -/
theorem qualifiers_told (htop : IsTop n) (hanchor : m.scopes.current.anchor = n)
    (hproper : ∀ site ∈ m.scopes.sites, site.Proper s.uri)
    (hparsed : AllParsed m.cache) (hnesting : m.nesting = 0) :
    (∀ k t rest, (progress s n m k).work = t :: rest →
      (progress s n m k).stop = none →
      let scopes := (progress s n m k).machine.scopes
      let a := scopes.current.anchor
      (∀ q, scopes.environment.uri? q = meaning? a q)
        ∧ (∀ e b, t.ReadsAt s.uri a e b →
          b = anchorAt s.uri (openedIn rest) e
            ∨ Directive.ofNode? s.uri e = some .copy ∧ b = e)
        ∧ ∀ d subject fault,
          (progress s n m (k + 1)).stop = some (.failed d) →
          d.reason = .expression subject fault →
          ∃ e, d.node = some e ∧ ∃ b, t.ReadsAt s.uri a e b ∧ TrueAt b fault)
    ∧ (∀ call e, call = some (anchorAt s.uri call e)
      ∨ ∃ inner, e.lineage = inner ++ (anchorAt s.uri call e).lineage
        ∧ ∀ q, (∀ x ∈ inner, x.declared? (some q) = none) →
          meaning? (anchorAt s.uri call e) q = meaning? e q)
    ∧ ∀ p, (∃ k, (progress s n m k).work = []
        ∧ (progress s n m k).stop ≠ some .unfinished
        ∧ process { s with passes := p } n m = (progress s n m k).result)
      ∨ (∃ m', process { s with passes := p } n m = .error .unfinished m')
        ∧ ∃ k, (progress s n m k).Floating s := by
  refine ⟨fun k t rest hwork hstop => ?_, fun call e => ?_,
    process_simulated s n hnesting⟩
  · have traced := traced_progress htop hanchor hproper hparsed k hstop
    rw [progress_succ]
    generalize progress s n m k = c at hwork hstop traced
    obtain ⟨work, stop, machine⟩ := c
    cases hwork
    cases hstop
    refine ⟨fun q => rfl, fun e b hb => ?_,
      fun d subject fault hd hreason => ?_⟩
    · obtain ⟨a, as, has, hanchored⟩ := traced.anchored
      rw [← (List.cons.inj has).1] at hanchored
      refine anchor_of_readsAt ?_ hb
      cases hb <;> exact hanchored.1
    -- only a task that fails tells of a qualifier, and it blames what it reads
    · obtain ⟨m', hexpand⟩ := exists_of_stopped hd
      exact exists_of_blamed
        (accuses_expand traced.proper t d m' hexpand) hreason
  · refine (exists_lineage_anchorAt s.uri call e).imp id ?_
    rintro ⟨inner, hinner⟩
    exact ⟨inner, hinner, fun q => meaning?_of_lineage hinner⟩

end

/-- An element, of a line of its own, that declares a qualifier for the
functions on texts. -/
def declaring (id : Nat) (name : String) (uri : Option String)
    (attributes : List Attribute) (ts : List Tree) : Tree :=
  .node ⟨id, ⟨id, 1⟩, .element ⟨.ofText name, uri, attributes,
    [(some "f", Expr.Library.stringsUri)]⟩⟩ ts

/-- A call of one of these functions. -/
def counting : Tree :=
  .node ⟨3, ⟨3, 1⟩, .text "$\x7bf:length('abc')\x7d"⟩ []

/-- The root of a template that holds an element. -/
def enclosing (t : Tree) : Node :=
  ⟨.given 0, directive 1 "template" [] [t], []⟩

def equipped (n : Node) : Machine Unit :=
  ⟨.single { Scope.fresh n none with
    libraries := [(Expr.Library.stringsUri, .strings)] }, 0, .empty, ()⟩

/-- A text in a condition that declares the qualifier. -/
def tested : Tree :=
  declaring 2 "if" (some "x") [⟨.ofText "test", none, "true"⟩] [counting]

/-- There the qualifier means what the condition declares. -/
theorem qualifiers_told_tested :
    let n := enclosing tested
    let c := progress vacant n (equipped n) 5
    let e := (n.below tested).below counting
    ∃ t rest, c.work = t :: rest ∧ c.stop = none
      ∧ t.ReadsAt "x" c.machine.scopes.current.anchor e
        c.machine.scopes.current.anchor
      ∧ c.machine.scopes.current.anchor = anchorAt "x" (openedIn rest) e
      ∧ c.machine.scopes.environment.uri? "f"
        = some Expr.Library.stringsUri := by
  intro n c e
  have hwork : ∃ rest, c.work
      = .items true true (n.below tested) [counting] :: rest :=
    ⟨_, by with_unfolding_all rfl⟩
  have hstop : c.stop = none := by with_unfolding_all rfl
  have hmeaning : meaning? c.machine.scopes.current.anchor "f"
      = some Expr.Library.stringsUri := by decide +kernel
  have proper : ∀ site ∈ (equipped n).scopes.sites, site.Proper vacant.uri := by
    intro site hsite
    obtain rfl := List.mem_singleton.1 hsite
    refine ⟨nofun, fun x hx => ?_⟩
    obtain rfl := List.mem_singleton.1 hx
    exact Expr.Library.discreet_strings
  obtain ⟨rest, hwork⟩ := hwork
  have hreads : Task.ReadsAt "x" c.machine.scopes.current.anchor
      (.items true true (n.below tested) [counting]) e _ :=
    .item true true (n.below tested) counting []
  obtain ⟨hat, hread, -⟩ := (qualifiers_told (s := vacant) (n := n)
    (m := equipped n) nofun rfl proper nofun rfl).1 5 _ rest hwork hstop
  refine ⟨_, rest, hwork, hstop, hreads, ?_, (hat "f").trans hmeaning⟩
  rcases hread e _ hreads with h | ⟨h, -⟩
  · exact h
  · cases h

/-- What a literal element declares is not looked up for the texts in it, though
the element that carries such a text declares the qualifier. -/
theorem literal_declaration_unseen :
    let n := enclosing (declaring 2 "a" none [] [counting])
    ∃ d, fault? (process vacant n (equipped n)) = some d
      ∧ d.reason = .expression .substitution (.unknownPrefix "f")
      ∧ ∃ e, d.node = some e ∧ meaning? e "f" = some Expr.Library.stringsUri := by
  intro n
  have hreason : (fault? (process vacant n (equipped n))).map (·.reason)
      = some (.expression .substitution (.unknownPrefix "f")) := by
    decide +kernel
  have hmeaning : ((fault? (process vacant n (equipped n))).bind (·.node)).bind
      (meaning? · "f") = some Expr.Library.stringsUri := by decide +kernel
  obtain ⟨d, hd, hr⟩ := Option.map_eq_some_iff.1 hreason
  rw [hd] at hmeaning
  obtain ⟨e, he, hmeans⟩ := Option.bind_eq_some_iff.1 hmeaning
  exact ⟨d, hd, hr, e, he, hmeans⟩

end Stencil.Template
