/-
Comments are transparent.

When a comment is deleted from a document nothing else changes, but that the
nodes behind it have other numbers and places, and that the texts on both sides
of it may be one text then. So the document and its edition without the comment
are twins, by the renumbering that the deletion is (`exists_renumbering`), and
every other document is its own twin. Processors are twins if one has the first
edition where the other has the second: as its template, among the documents
that it can load, or in the values that it is given. Then the machines that they
start with are twins, the interpreter ends alike on them (`twin_process`), and so
do whole runs.
-/
import Stencil.Proofs.Template.Comments
import Stencil.Template.Processor

namespace Stencil.Template

open Stencil.Expr (Library Value)
open Loading (Cache Source)
open Markup (Document Node Renumbering Tree exists_renumbering)
open Output (Recording Sink Writer)

variable {r : Renumbering} {n n' : Node}

-- ================================================================= options

theorem same_ite {α : Type} {c : Prop} [Decidable c] {x x' y y' : Reading α}
    (hx : ReadSame r x x') (hy : ReadSame r y y') :
    ReadSame r (if c then x else y) (if c then x' else y') := by
  split
  · exact hx
  · exact hy

section

variable (h : n.Twin r n')
include h

theorem overrider?_twin (uri option : String) :
    Options.overrider? uri n option = Options.overrider? uri n' option := by
  unfold Options.overrider?
  rw [same_ofNode? h, h.attributeIn?]

theorem same_override {α : Type} (uri option : String) (default : α)
    (read : String → Except Reason α) :
    ReadSame r (Options.override uri n option default read)
      (Options.override uri n' option default read) := by
  unfold Options.override
  rw [overrider?_twin h]
  cases Options.overrider? uri n' option with
  | none => exact same_pure _
  | some name =>
    refine (same_substituted h name).same_bind fun text => ?_
    cases text with
    | none => exact same_pure _
    | some text =>
      dsimp only
      split
      · exact same_pure _
      · exact twin_throw (Diagnostic.twin_on h _ _)

theorem same_overridesDialect (uri : String) :
    ReadSame r (Options.overridesDialect uri n)
      (Options.overridesDialect uri n') := by
  unfold Options.overridesDialect
  rw [overrider?_twin h]
  cases Options.overrider? uri n' "output" with
  | none => exact same_pure _
  | some name =>
    exact (same_substituted h name).same_bind fun _ => same_pure _

/-- The root asks for the same. -/
theorem same_effective (o : Options) :
    ReadSame r (o.effective n) (o.effective n') := by
  unfold Options.effective
  rw [same_ofNode? h]
  dsimp only
  -- the rest is read in the same way, whatever white space is chosen
  refine same_ite ((same_override h _ _ _ _).same_bind ?rest)
    ((same_pure _).same_bind ?rest)
  intro whitespace
  refine (same_override h _ _ _ _).same_bind fun dialect => ?_
  refine (same_overridesDialect h _).same_bind fun asked => ?_
  exact same_ite
    ((same_override h _ _ _ _).same_bind fun _ => same_pure _)
    ((same_pure _).same_bind fun _ => same_pure _)

end

-- ============================================================== processors

/-- Processors of twins, with the same options, that are given twins and can
load twins. -/
structure Processor.Twin (r : Renumbering) (p p' : Processor) : Prop where
  root : p.root.Twin r p'.root
  scope : p.scope.Twin r p'.scope
  options : p.options = p'.options
  source : SourceTwin r p.cache.epoch p.source p'.source
  cache : CacheTwin r p.cache.epoch p.cache p'.cache

namespace Processor.Twin

variable {σ : Type} {p p' : Processor} (h : p.Twin r p')
include h

theorem scopes : (Scopes.single p.scope).Twin r (.single p'.scope) :=
  ⟨h.scope, .nil⟩

/-- Whole documents are twins to any output that takes character data in any
pieces. -/
theorem document {sink : Sink σ} (hj : sink.JoinsText) (o : σ) :
    EndTwin r p.cache.epoch (p.document sink (p.machine o))
      (p'.document sink (p'.machine o)) := by
  have settings : (p.settings sink).Twin r p.cache.epoch (p'.settings sink) :=
    ⟨congrArg Options.uri h.options, rfl, hj, h.source, rfl⟩
  have run := (twin_send settings .startDocument).seq
    ((twin_process settings h.root).seq (twin_send settings .endDocument))
  exact run _ _ ⟨h.scopes, rfl, h.cache, rfl⟩

/-- The same is written into such an output, and the run stops alike if it
stops. -/
theorem runInto {sink : Sink σ} (hj : sink.JoinsText) (o : σ) :
    Option.Rel (Stop.Twin r) (p.runInto sink o).stop (p'.runInto sink o).stop
      ∧ (p.runInto sink o).output = (p'.runInto sink o).output := by
  have run := h.document hj o
  unfold Processor.runInto
  generalize p.document sink (p.machine o) = e at run ⊢
  generalize p'.document sink (p'.machine o) = e' at run ⊢
  cases run with
  | ok hm => exact ⟨.none, hm.output⟩
  | error he hm => exact ⟨.some he, hm.output⟩

/-- The templates render to the same text, or rendering stops alike. -/
theorem text : Paired (Stop.Twin r) (· = ·) p.text p'.text := by
  have options : Paired (Diagnostic.Twin r) (· = ·) p.effectiveOptions
      p'.effectiveOptions := by
    unfold Processor.effectiveOptions
    rw [h.options]
    exact same_effective h.root _ _ _ h.scopes.environment
  unfold Processor.text Processor.render
  generalize p.effectiveOptions = o at options ⊢
  generalize p'.effectiveOptions = o' at options ⊢
  cases options with
  | error hd => exact .error (.failed hd)
  | @ok o _ ho =>
    subst ho
    have written := h.runInto Writer.joinsText
      (.fresh o.dialect o.whitespace o.declaration none)
    unfold Processor.write
    dsimp only
    generalize p.runInto Writer.sink _ = e at written ⊢
    generalize p'.runInto Writer.sink _ = e' at written ⊢
    obtain ⟨stop, output, cache⟩ := e
    obtain ⟨stop', output', cache'⟩ := e'
    obtain ⟨hstop, rfl⟩ := written
    cases hstop with
    | none => exact .ok rfl
    | some he => exact .error he

theorem onScope {f f' : Scope → Except ScopeError Scope}
    (hf : Paired (· = ·) (Scope.Twin r) (f p.scope) (f' p'.scope)) :
    Paired (· = ·) (Processor.Twin r) (p.onScope f) (p'.onScope f') := by
  unfold Processor.onScope
  generalize f p.scope = x at hf ⊢
  generalize f' p'.scope = x' at hf ⊢
  cases hf with
  | ok hs => exact .ok ⟨h.root, hs, h.options, h.source, h.cache⟩
  | error he =>
    exact .error (congrArg (fun e => Diagnostic.general (.scope e)) he)

/-- Twins may be bound at the outset. -/
theorem setVariable (name : String) {v v' : Value} (hv : v.Twin r v') :
    Paired (· = ·) (Processor.Twin r) (p.setVariable name v)
      (p'.setVariable name v') :=
  h.onScope (h.scope.bind name ⟨hv, rfl⟩)

theorem setConstant (name : String) {v v' : Value} (hv : v.Twin r v') :
    Paired (· = ·) (Processor.Twin r) (p.setConstant name v)
      (p'.setConstant name v') :=
  h.onScope (h.scope.bind name ⟨hv, rfl⟩)

theorem addLibrary (uri : String) {l l' : Library} (hl : l.Twin r l') :
    (p.addLibrary uri l).Twin r (p'.addLibrary uri l') :=
  { h with
    scope := { h.scope with
      libraries := Expr.forall₂_enter h.scope.libraries uri hl } }

end Processor.Twin

namespace Processor

variable {source source' : Source} {cache cache' : Cache}

/-- A template and its edition have processors that are twins, if either has
one. -/
theorem twin_ofDocument {d d' : Document} (hd : d.Twin r d')
    (hsource : SourceTwin r cache.epoch source source')
    (hcache : CacheTwin r cache.epoch cache cache') (base : Option Url) :
    Paired (· = ·) (Processor.Twin r) (ofDocument source cache base d)
      (ofDocument source' cache' base d') := by
  have root := hd.rootElement?
  unfold ofDocument
  generalize d.rootElement? = n at root ⊢
  generalize d'.rootElement? = n' at root ⊢
  cases root with
  | none => exact .error rfl
  | some hn =>
    exact .ok ⟨hn, ⟨hn, .nil, .nil, .nil, rfl⟩, rfl, hsource, hcache⟩

/-- The same where the template is loaded. -/
theorem twin_load (hsource : SourceTwin r cache.epoch source source')
    (hcache : CacheTwin r cache.epoch cache cache') (url : Url) :
    Paired (· = ·) (Processor.Twin r) (load source cache url)
      (load source' cache' url) := by
  obtain ⟨loaded, behind⟩ := hcache.load hsource url
  unfold load
  generalize Loading.load source cache url = x at loaded behind ⊢
  generalize Loading.load source' cache' url = x' at loaded behind ⊢
  obtain ⟨d, c⟩ := x
  obtain ⟨d', c'⟩ := x'
  dsimp only at loaded behind
  cases loaded with
  | error he => exact .error (congrArg (fun e => Diagnostic.general (.loading e)) he)
  | ok hd =>
    refine twin_ofDocument hd ?_ ?_ _
    · rw [behind.left]
      exact hsource
    · rw [behind.left]
      exact behind

end Processor

-- ============================================================ transparency

/-- Deleting comments changes no run. For two editions of a document, the second
without some of the comments, there is a renumbering that makes them twins and
every other document its own. Then processors that differ only in the edition of
their template are twins, and so are processors of another template that differ
only in the edition that they can load. Twins end alike, whatever they write
into: both runs go well or both stop for the same reason, they leave the same
output, and their scopes bind twins. So they record the same events, and render
to the same text. -/
theorem comments_transparent {d d' : Document} (horigin : d.origin = d'.origin)
    (hd : d.root.Numbered) (hd' : d'.root.Numbered)
    (h : d.root.Twin (fun _ _ => True) d'.root) :
    ∃ r : Renumbering, d.Twin r d' ∧
      (∀ o ≠ d.origin, ∀ t : Tree, t.Twin (r.takes o) t) ∧
      (∀ source cache base, (∀ key, d.origin ≠ .loaded cache.epoch key) →
        Paired (· = ·) (Processor.Twin r)
          (Processor.ofDocument source cache base d)
          (Processor.ofDocument source cache base d')) ∧
      (∀ source source' cache base key, d.origin = .loaded cache.epoch key →
        key ∉ cache.entries.map Prod.fst →
        SourcesDiffer key d.root d'.root source source' →
        (∀ t : Document, t.origin ≠ d.origin →
          Paired (· = ·) (Processor.Twin r)
            (Processor.ofDocument source cache base t)
            (Processor.ofDocument source' cache base t))
        ∧ ∀ url, Paired (· = ·) (Processor.Twin r)
            (Processor.load source cache url)
            (Processor.load source' cache url)) ∧
      ∀ p p' : Processor, p.Twin r p' →
        (∀ (σ : Type) (sink : Sink σ) (o : σ), sink.JoinsText →
          EndTwin r p.cache.epoch (p.document sink (p.machine o))
            (p'.document sink (p'.machine o)))
        ∧ (p.runInto Recording.sink .empty).output
          = (p'.runInto Recording.sink .empty).output
        ∧ Paired (Stop.Twin r) (· = ·) p.text p'.text := by
  obtain ⟨r, hdoc, hother⟩ := exists_renumbering horigin hd hd' h
  refine ⟨r, hdoc, hother, ?template, ?loaded, fun p p' hp =>
    ⟨fun _ _ o hj => hp.document hj o,
      (hp.runInto Recording.joinsText .empty).2, hp.text⟩⟩
  case template =>
    intro source cache base hloaded
    have alone (key : String) (t : Tree) :
        t.Twin (r.takes (.loaded cache.epoch key)) t :=
      hother _ (hloaded key).symm t
    exact Processor.twin_ofDocument hdoc (.refl alone source)
      (.refl fun x _ => alone x.1 x.2) base
  case loaded =>
    intro source source' cache base key hloaded hkey hdiffer
    -- the documents that differ belong to one key; trees of any other are
    -- twins of themselves
    have alone (other : String) (hne : other ≠ key) (u : Tree) :
        u.Twin (r.takes (.loaded cache.epoch other)) u := by
      refine hother _ (fun he => hne ?_) u
      injection he.trans hloaded
    have root := hdoc.root
    rw [hloaded] at root
    have hsource : SourceTwin r cache.epoch source source' :=
      hdiffer.twin root alone
    have hcache : CacheTwin r cache.epoch cache cache := by
      -- the key is not in the cache yet, so all that is there is shared
      refine .refl fun x hx => alone x.1 ?_ x.2
      rintro rfl
      exact hkey (List.mem_map_of_mem hx)
    exact ⟨fun t ht => Processor.twin_ofDocument ⟨rfl, hother _ ht t.root⟩
        hsource hcache base,
      Processor.twin_load hsource hcache⟩

/-- A template that is a conditional with these children. -/
def conditional (ts : List Tree) : Document where
  origin := .given 0
  root :=
    .node ⟨0, ⟨1, 1⟩, .document⟩
      [.node ⟨1, ⟨1, 1⟩, .element ⟨.ofText "if", some standardUri,
        [⟨.ofText "test", none, "true"⟩], []⟩⟩ ts]

/-- The texts on both sides of the comment are trimmed as one. -/
theorem comments_transparent_trimmed :
    let d := conditional [.node ⟨2, ⟨2, 1⟩, .text " a "⟩ [],
      .node ⟨3, ⟨3, 1⟩, .comment "c"⟩ [], .node ⟨4, ⟨4, 1⟩, .text " b "⟩ []]
    let d' := conditional [.node ⟨2, ⟨2, 1⟩, .text " a  b "⟩ []]
    d.origin = d'.origin ∧ d.root.Numbered ∧ d'.root.Numbered
    ∧ d.root.Twin (fun _ _ => True) d'.root
    ∧ ∃ (r : Renumbering) (p p' : Processor),
      Processor.ofDocument (.memory []) .empty none d = .ok p
      ∧ Processor.ofDocument (.memory []) .empty none d' = .ok p'
      ∧ p.Twin r p' ∧ Paired (Stop.Twin r) (· = ·) p.text p'.text
      ∧ p.text.toOption = some "a  b" ∧ p'.text.toOption = some "a  b" := by
  intro d d'
  have numbered : d.root.Numbered ∧ d'.root.Numbered := by
    unfold Tree.Numbered
    decide
  have verbatim : Markup.Verbatim " a " ∧ Markup.Verbatim " b " := by decide
  have twin : d.root.Twin (fun _ _ => True) d'.root := by
    refine ⟨rfl, trivial, .keep rfl trivial ?_ .nil⟩
    exact .join rfl rfl rfl rfl verbatim.1 verbatim.2 .nil
  refine ⟨rfl, numbered.1, numbered.2, twin, ?_⟩
  have sameOrigin : d.origin = d'.origin := rfl
  obtain ⟨r, -, -, template, -, alike⟩ :=
    comments_transparent sameOrigin numbered.1 numbered.2 twin
  have started := template (.memory []) .empty none
    fun _ => Markup.Origin.noConfusion
  cases started with
  | ok hp =>
    exact ⟨r, _, _, rfl, rfl, hp, (alike _ _ hp).2.2, by decide +kernel,
      by decide +kernel⟩

end Stencil.Template
