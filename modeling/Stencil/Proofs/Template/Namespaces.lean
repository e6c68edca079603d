/-
Namespaces of the output of a template.

A template is made of parsed documents, and if there is no copy in them, all
that it writes stems from their literal elements. If this has a root element
with nothing but white space and document types beside it, the text that is
written is parsed into the same elements in the same namespaces exactly if all
of them are declared where they are written (`namespaces_kept`). Where the
declarations stand on a directive, come out empty, or where names are none of
XML, this can fail (`namespaces_lost`).
-/
import Stencil.Proofs.Output.Streaming
import Stencil.Proofs.Template.Copying
import Stencil.Proofs.Template.Declared
import Stencil.Proofs.Template.Oblivious
import Stencil.Proofs.Template.Provenance

namespace Stencil.Template

open Markup (Content Context Datum Document Element Node Tree declared
  elementDatum? elementsOf isXmlName)
open Output (ElementName Event ForestLegible Piece Sink Writer documentEvents
  documentXml forestData? forestEvents)

-- ================================================================= legible

/-- The names of the element can be read. -/
structure Emitted.Legible (x : Emitted) : Prop where
  name : isXmlName x.element.name.text = true
  attributes : ∀ a ∈ x.attributes, isXmlName a.1 = true
  distinct : (x.attributes.map Prod.fst).Nodup

/-- The document types that are sent can be read: their names are names of XML,
and no identifier holds a quote. -/
def LegibleDoctypes (es : List Event) : Prop :=
  ∀ name publicId systemId, .startDoctype name publicId systemId ∈ es →
    (Piece.doctype name publicId systemId).Legible

mutual

theorem legible_piece : ∀ em : Emission, (∀ x ∈ em.elements, x.Legible) →
    LegibleDoctypes em.piece.events → em.piece.Legible
  | .element x contents, hx, hes => by
    obtain ⟨hself, hinside⟩ := List.forall_mem_cons.1 hx
    refine ⟨hself.name, hself.attributes, hself.distinct, ?_⟩
    refine legible_pieces contents hinside fun name publicId systemId h => ?_
    exact hes name publicId systemId
      (List.mem_cons_of_mem _ (List.mem_append_left _ h))
  | .text _, _, _ => trivial
  | .cdata _, _, _ => trivial
  | .doctype name publicId systemId, _, hes =>
    hes name publicId systemId List.mem_cons_self
termination_by structural em => em

theorem legible_pieces : ∀ ems : List Emission,
    (∀ x ∈ allElements ems, x.Legible) →
    LegibleDoctypes (forestEvents (pieces ems)) → ForestLegible (pieces ems)
  | [], _, _ => trivial
  | em :: ems, hx, hes => by
    obtain ⟨hem, hems⟩ := List.forall_mem_append.1 hx
    refine ⟨legible_piece em hem fun name publicId systemId h => ?_,
      legible_pieces ems hems fun name publicId systemId h => ?_⟩
    · exact hes name publicId systemId (List.mem_append_left _ h)
    · exact hes name publicId systemId (List.mem_append_right _ h)
termination_by structural ems => ems

end

theorem sublist_keptAttributes (uri : String) (env : Expr.Environment)
    (attributes : List Markup.Attribute) :
    ((keptAttributes uri env attributes).map Prod.fst).Sublist attributes := by
  unfold keptAttributes
  induction attributes with
  | nil => exact .slnil
  | cons a rest ih =>
    rw [List.filterMap_cons]
    cases hkept : kept? uri env a with
    | none => exact ih.cons a
    | some k =>
      rw [List.map_cons, fst_of_kept hkept]
      exact ih.cons_cons a

namespace Emitted

variable {P : Content → Prop} {uri : String} {x : Emitted}

/-- What stems from parsed documents is genuine. -/
theorem Stems.genuine (h : x.Stems P uri)
    (hP : ∀ e, P (.element e) → ∃ ctx, e.Resolved ctx) : x.Genuine := by
  obtain ⟨env, hkept⟩ := h.kept
  exact ⟨hP _ h.known, hkept ▸ sublist_keptAttributes uri env _⟩

/-- What is genuine, and has names of XML, can be read. -/
theorem Genuine.legible (h : x.Genuine) (hnamed : Named (.element x.element)) :
    x.Legible := by
  obtain ⟨ctx, hresolved⟩ := h.resolved
  refine ⟨hnamed.1, fun a ha => ?_, ?_⟩
  · obtain ⟨k, hk, rfl⟩ := List.mem_map.1 ha
    exact hnamed.2 k.1 (h.kept.subset (List.mem_map_of_mem hk))
  · have hnames : x.attributes.map Prod.fst
        = (x.kept.map Prod.fst).map fun a => a.name.text := by
      unfold Emitted.attributes
      rw [List.map_map, List.map_map]
      rfl
    have hall : x.element.raw.map Prod.fst
        = x.element.attributes.map fun a => a.name.text := by
      unfold Element.raw
      rw [List.map_map]
      rfl
    rw [hnames]
    have hdistinct := hresolved.distinct
    rw [hall] at hdistinct
    exact hdistinct.sublist (h.kept.map _)

end Emitted

-- =============================================================== documents

namespace Processor

/-- The documents that the processor has after a run that no sink disturbs. -/
def loaded (p : Processor) : Loading.Cache := (p.runInto Sink.log []).cache

/-- A content of the template: one of its root, or of a document that is
loaded. -/
inductive Holds (p : Processor) : Content → Prop
  | root {t : Tree} (h : t ∈ p.root.tree.preorder) : p.Holds t.content
  | loaded {entry : String × Tree} {t : Tree} (h : entry ∈ p.loaded.entries)
      (ht : t ∈ entry.2.preorder) : p.Holds t.content

theorem forall_holds {p : Processor} {P : Content → Prop} :
    (∀ c, p.Holds c → P c) ↔
      (∀ t ∈ p.root.tree.preorder, P t.content)
        ∧ ∀ entry ∈ p.loaded.entries, ∀ t ∈ entry.2.preorder, P t.content := by
  constructor
  · exact fun h => ⟨fun t ht => h _ (.root ht),
      fun entry he t ht => h _ (.loaded he ht)⟩
  · rintro ⟨hroot, hloaded⟩ c (ht | ⟨he, ht⟩)
    · exact hroot _ ht
    · exact hloaded _ he _ ht

/-- The processor is made of parsed documents, and has no macros yet. -/
structure Grounded (p : Processor) : Prop where
  root : ∃ source t, Tree.parse source = .ok t ∧ p.root.tree ∈ t.children
  macros : p.scope.macros = []
  cached : AllParsed p.cache

theorem grounded_ofDocument {source : Loading.Source} {cache : Loading.Cache}
    {base : Option Url} {d : Document} {p : Processor}
    (hd : ∃ source, Tree.parse source = .ok d.root)
    (hcache : AllParsed cache)
    (h : ofDocument source cache base d = .ok p) : p.Grounded := by
  obtain ⟨text, ht⟩ := hd
  unfold ofDocument at h
  cases hroot : d.rootElement? with
  | none =>
    rw [hroot] at h
    cases h
  | some root =>
    rw [hroot] at h
    cases h
    obtain ⟨t, hmem, rfl⟩ := List.mem_map.1 (List.mem_of_find?_eq_some hroot)
    exact ⟨⟨text, d.root, ht, hmem⟩, rfl, hcache⟩

/-- A processor of a template that is given is grounded. -/
theorem grounded_parse {source : Loading.Source} {number : Nat} {text : String}
    {p : Processor} (h : Processor.parse source number text = .ok p) :
    p.Grounded := by
  unfold Processor.parse at h
  cases hd : Document.parse (.given number) text with
  | error e =>
    rw [hd] at h
    cases h
  | ok d =>
    rw [hd] at h
    refine grounded_ofDocument ⟨_, (Document.tree_of_parse hd).2⟩ ?_ h
    intro entry hentry
    cases hentry

/-- A processor of a template that is loaded is grounded. -/
theorem grounded_load {source : Loading.Source} {cache : Loading.Cache}
    {url : Url} {p : Processor} (hcache : AllParsed cache)
    (h : Processor.load source cache url = .ok p) : p.Grounded := by
  obtain ⟨hdocument, hall⟩ := hcache.load source url
  unfold Processor.load at h
  generalize Loading.load source cache url = result at h hdocument hall
  obtain ⟨_ | d, cache'⟩ := result
  · cases h
  · exact grounded_ofDocument (hdocument d rfl) hall h

theorem Grounded.onScope {p q : Processor} {f : Scope → Except ScopeError Scope}
    (g : p.Grounded) (hf : ∀ s s', f s = .ok s' → s'.macros = s.macros)
    (h : p.onScope f = .ok q) : q.Grounded := by
  unfold Processor.onScope at h
  cases hscope : f p.scope with
  | error e =>
    rw [hscope] at h
    cases h
  | ok scope =>
    rw [hscope] at h
    cases h
    exact ⟨g.root, (hf _ _ hscope).trans g.macros, g.cached⟩

theorem macros_bind {s s' : Scope} {name : String} {b : Binding}
    (h : s.bind name b = .ok s') : s'.macros = s.macros := by
  obtain ⟨-, rfl⟩ := Scope.bind_eq_ok h
  rfl

theorem Grounded.setVariable {p q : Processor} {name : String} {v : Expr.Value}
    (g : p.Grounded) (h : p.setVariable name v = .ok q) : q.Grounded :=
  g.onScope (fun _ _ => macros_bind) h

theorem Grounded.setConstant {p q : Processor} {name : String} {v : Expr.Value}
    (g : p.Grounded) (h : p.setConstant name v = .ok q) : q.Grounded :=
  g.onScope (fun _ _ => macros_bind) h

theorem Grounded.addLibrary {p : Processor} (g : p.Grounded) (uri : String)
    (library : Expr.Library) : (p.addLibrary uri library).Grounded :=
  ⟨g.root, g.macros, g.cached⟩

/-- What a run has loaded is parsed, whatever the sink. -/
theorem Grounded.parsed {σ : Type} {p : Processor} (g : p.Grounded)
    (sink : Sink σ) (o : σ) : AllParsed (p.runInto sink o).cache := by
  have c := loads_congruence (p.settings sink)
  have hroot : Within Loads (process (p.settings sink) p.root) :=
    c.execute (c.inner nestingLimit) p.root
  have hdocument : Within Loads (p.document sink) :=
    loads_bind (loads_send _ _) fun _ =>
      loads_bind hroot fun _ => loads_send _ _
  have hloads := hdocument (p.machine o)
  have hcache : (p.runInto sink o).cache
      = (after (p.document sink) (p.machine o)).cache := by
    unfold runInto after
    cases p.document sink (p.machine o) <;> rfl
  intro entry hentry
  rw [hcache] at hentry
  rcases hloads.parsed entry hentry with hentry | hparsed
  · exact g.cached entry hentry
  · exact hparsed

/-- A processor is grounded still with the documents that a run has loaded. -/
theorem Grounded.processed {σ : Type} {p : Processor} (g : p.Grounded)
    (sink : Sink σ) (o : σ) :
    Grounded { p with cache := (p.runInto sink o).cache } :=
  ⟨g.root, g.macros, g.parsed sink o⟩

/-- The elements of a grounded template are resolved somewhere. -/
theorem Grounded.resolved {p : Processor} (g : p.Grounded) {e : Element}
    (h : p.Holds (.element e)) : ∃ ctx, e.Resolved ctx := by
  generalize hc : Content.element e = c at h
  cases h with
  | root ht =>
    obtain ⟨source, whole, hparse, hroot⟩ := g.root
    exact Tree.exists_resolved_of_parse hparse (Tree.mem_preorder hroot ht)
      hc.symm
  | loaded hentry ht =>
    obtain ⟨source, hparse⟩ := g.parsed Sink.log [] _ hentry
    exact Tree.exists_resolved_of_parse hparse ht hc.symm

-- ============================================================= what is sent

/-- The processor sends this, and it stems from the template. -/
structure Sent (p : Processor) (ems : List Emission) : Prop where
  course : p.course = documentEvents (pieces ems)
  stems : ∀ x ∈ allElements ems, x.Stems p.Holds p.options.uri

/-- A run that succeeds sends what stems from the template. -/
theorem exists_sent {p : Processor} (g : p.Grounded)
    (hcopy : Copyless p.options.uri p.Holds) (h : p.outcome = none) :
    ∃ ems, p.Sent ems := by
  let s := p.settings Sink.log
  have hknows : Knows p.Holds (p.machine [Event.startDocument]) := by
    intro scope hscope x hx
    cases List.mem_singleton.1 hscope
    have hx : x ∈ p.scope.macros := hx
    rw [g.macros] at hx
    cases hx
  have hrenders : Renders s p.Holds (process s p.root) :=
    renders_execute hcopy (renders_inner hcopy nestingLimit) fun _ hu => .root hu
  have hrun : p.runInto Sink.log [] = ⟨none, p.course, p.loaded⟩ := by
    rw [← h]
    rfl
  obtain ⟨m, hprocess, hcourse, hloaded⟩ := runInto_log_iff.1 hrun
  -- what was loaded on the way is still there at the end, so all is held
  have hcached : Cached p.Holds m := fun entry hentry u hu =>
    .loaded (hloaded ▸ hentry) hu
  obtain ⟨-, ems, hems, hd⟩ := hrenders.sends _ m hknows hcached hprocess
  have hd : Sink.log.deliver [.startDocument] (forestEvents (pieces ems))
      = (m.output, none) := hd
  rw [Sink.deliver_log] at hd
  refine ⟨ems, ?_, hems⟩
  rw [hcourse, ← (Prod.mk.inj hd).1, List.append_assoc]
  rfl

/-- The text that is written is that of the pieces that are sent. -/
theorem text_of_course {p : Processor} {ps : List Piece}
    (hws : p.options.whitespace = .all) (h : p.course = documentEvents ps) :
    (p.writeXml none).output.text
      = documentXml .all p.options.declaration ps := by
  obtain ⟨hout, -⟩ := p.runInto_eq_deliver Writer.sink
    (.fresh .xml p.options.whitespace p.options.declaration none)
  obtain ⟨w, hw, htext⟩ := Writer.brings_document
    (nofun : Output.Whitespace.all ≠ .indent) p.options.declaration ps
  have hout : (p.writeXml none).output = _ := hout
  rw [h, hws, Writer.deliver_eq, hw] at hout
  rw [hout]
  exact htext

theorem outcome_of_stop {p : Processor} {o : Options}
    (h : (p.write o none).stop = none) : p.outcome = none := by
  obtain ⟨-, hstop⟩ := p.runInto_eq_deliver Writer.sink
    (.fresh o.dialect o.whitespace o.declaration none)
  have hstop : (p.write o none).stop = _ := hstop
  rw [h] at hstop
  exact (Option.or_eq_none_iff.1 hstop.symm).2

-- =============================================================== namespaces

theorem pieces_eq_map (ems : List Emission) :
    pieces ems = ems.map Emission.piece := by
  induction ems with
  | nil => rfl
  | cons em ems ih => rw [pieces, ih, List.map_cons]

/-- Of a document that is parsed into some data, the elements are those of the
data. -/
theorem elements_of_parse (origin : Markup.Origin) {text : String} {t : Tree}
    {xs : List Datum} (h : Tree.parse text.toList = .ok t)
    (hdata : t.data = xs) :
    Document.parse origin text = .ok ⟨origin, t⟩
      ∧ (Document.mk origin t).elements = elementsOf xs := by
  constructor
  · unfold Document.parse
    rw [h]
    rfl
  · rw [Document.elements_eq, ← hdata]
    exact (Tree.elementsOf_data t (Tree.built_of_parse h).tidy).symm

/-- Of a root element with nothing but white space and document types beside
it, the text is parsed into the emitted elements, in the namespaces of the
template, if and only if these are declared where they are written. -/
theorem parse_emitted_iff (origin : Markup.Origin) (uri : String)
    (declaration : Bool) {before after contents : List Emission} {x : Emitted}
    (hlegible : ForestLegible (pieces (before ++ .element x contents :: after)))
    (hgenuine : ∀ y ∈ (Emission.element x contents).elements, y.Genuine)
    (hout : ∀ em ∈ before ++ after, em.piece.Outside) :
    let root := Emission.element x contents
    (∃ d, Document.parse origin
          (documentXml .all declaration (pieces (before ++ root :: after)))
          = .ok d
        ∧ List.Forall₂ (Emitted.Kept uri) root.elements d.elements)
      ↔ root.Declared uri [[]] := by
  intro root
  have hsplit : pieces (before ++ root :: after) = pieces before
      ++ .element (.ofElement x.element) x.attributes (pieces contents)
        :: pieces after := by
    rw [pieces_append]
    rfl
  -- what is outside of the root is no element, so it takes no part
  have hbeside : ∀ q ∈ pieces before ++ pieces after, q.Outside := by
    rw [pieces_eq_map, pieces_eq_map, ← List.map_append]
    exact List.forall_mem_map.2 hout
  rw [hsplit] at hlegible
  have hparse := Output.parse_document declaration (pieces before)
    (pieces after) hlegible hbeside
  rw [← declared_iff uri [[]] root hgenuine, hsplit]
  -- both sides speak of the root element as it is read, if it can be
  have hdata : root.piece.data? [[]]
      = (elementDatum? [[]] x.element.name.text x.attributes
          (forestData? [declared x.attributes, []] (pieces contents))).map
            fun y => [y] := rfl
  rw [hdata]
  rw [show (ElementName.ofElement x.element).qualified = x.element.name.text
    from rfl] at hparse
  generalize elementDatum? [[]] x.element.name.text x.attributes
    (forestData? [declared x.attributes, []] (pieces contents)) = datum?
    at hparse ⊢
  cases datum? with
  | none =>
    obtain ⟨e, he⟩ := hparse
    refine iff_of_false ?_ ?_
    · rintro ⟨d, hd, -⟩
      have htree := (Document.tree_of_parse hd).2
      rw [he] at htree
      cases htree
    · rintro ⟨xs, hxs, -⟩
      cases hxs
  | some y =>
    obtain ⟨t, ht, hy⟩ := hparse
    obtain ⟨hd, helements⟩ := elements_of_parse origin ht hy
    rw [hd]
    constructor
    · rintro ⟨d, hd', hkept⟩
      cases hd'
      rw [helements] at hkept
      exact ⟨[y], rfl, hkept⟩
    · rintro ⟨xs, hxs, hkept⟩
      cases hxs
      refine ⟨_, rfl, ?_⟩
      rw [helements]
      exact hkept

section

variable {p : Processor} {ems : List Emission}

theorem Sent.genuine (h : p.Sent ems) (g : p.Grounded) :
    ∀ x ∈ allElements ems, x.Genuine :=
  fun x hx => (h.stems x hx).genuine fun _ he => g.resolved he

/-- What a template sends can be read if its names are names of XML. -/
theorem Sent.legible (h : p.Sent ems) (g : p.Grounded)
    (hnamed : ∀ c, p.Holds c → Named c) (hdoctypes : LegibleDoctypes p.course) :
    ForestLegible (pieces ems) := by
  refine legible_pieces ems (fun x hx => ?_) fun name publicId systemId he => ?_
  · exact (h.genuine g x hx).legible (hnamed _ (h.stems x hx).known)
  · refine hdoctypes name publicId systemId ?_
    rw [h.course]
    exact List.mem_cons_of_mem _ (List.mem_append_left _ he)

end

/-- Let a template without copies, whose names are names of XML, be written
with all its white space. What it sends stems from literal elements of its
documents. If this is a root element with nothing but white space and document
types beside it, the text is parsed into a document whose elements are the
emitted ones in order, each with the attributes that it keeps, and in the
namespaces of the template, if and only if the names of every element are
declared so on it and around it where it is written. -/
theorem namespaces_kept (p : Processor) (hgrounded : p.Grounded)
    (hnamed : ∀ c, p.Holds c → Named c)
    (hcopy : Copyless p.options.uri p.Holds)
    (hws : p.options.whitespace = .all) (hstop : (p.writeXml none).stop = none)
    (hdoctypes : LegibleDoctypes p.course) :
    (∃ ems, p.Sent ems)
      ∧ ∀ ems, p.Sent ems → ∀ before x contents after,
        ems = before ++ .element x contents :: after →
        (∀ em ∈ before ++ after, em.piece.Outside) → ∀ origin,
        let root := Emission.element x contents
        (∃ d, Document.parse origin (p.writeXml none).output.text = .ok d
            ∧ List.Forall₂ (Emitted.Kept p.options.uri) root.elements d.elements)
          ↔ root.Declared p.options.uri [[]] := by
  refine ⟨exists_sent hgrounded hcopy (outcome_of_stop hstop), ?_⟩
  rintro ems hsent before x contents after rfl hout origin root
  have hgenuine : ∀ y ∈ root.elements, y.Genuine := by
    intro y hy
    refine hsent.genuine hgrounded y ?_
    rw [allElements_append]
    exact List.mem_append_right _ (List.mem_append_left _ hy)
  have hlegible := hsent.legible hgrounded hnamed hdoctypes
  rw [text_of_course hws hsent.course]
  exact parse_emitted_iff origin p.options.uri p.options.declaration hlegible
    hgenuine hout

/-- What a template sends, and the elements of the text that it writes, with
their namespaces, if that is parsed. -/
def readBack? (source : String) :
    Option (List Event × Option (List (String × Option String))) :=
  match Processor.parse (.memory []) 0 source with
  | .error _ => none
  | .ok p =>
    let ending := p.writeXml none
    if p.options.whitespace = .all && ending.stop.isNone then
      some (p.course,
        (Document.parse (.given 1) ending.output.text).toOption.map fun d =>
          d.elements.map fun e => (e.name.text, e.uri))
    else none

/-- An element whose qualifier is declared on the template element. -/
def liftedSource : String :=
  "<t:template xmlns:t='http://pwall.net/xml/xt/1.0' xmlns:h='u'>"
    ++ "<h:a/></t:template>"

/-- An element that is in no namespace, within one that is. -/
def undeclaredSource : String := "<a xmlns='u'><b xmlns=''/></a>"

/-- An element whose name ends with a slash. -/
def slashedSource : String := "<a/ b=''>t</a/>"

/-- A document type whose name closes its declaration. -/
def closingSource : String :=
  "<t:template xmlns:t='http://pwall.net/xml/xt/1.0'>"
    ++ "<t:doctype name='a&gt;&lt;'/><a/></t:template>"

/-- Declarations on directives and empty ones are not written, so the text of a
template may not be parsed, or be in other namespaces. Nor is it if names are
no names of XML. -/
theorem namespaces_lost :
    let a : ElementName := ⟨none, "a", "a"⟩
    readBack? liftedSource
      = some (documentEvents [.element ⟨some "u", "a", "h:a"⟩ [] []], none)
    ∧ readBack? undeclaredSource
      = some (documentEvents
          [.element ⟨some "u", "a", "a"⟩ [("xmlns", "u")]
            [.element ⟨none, "b", "b"⟩ [] []]],
        some [("a", some "u"), ("b", some "u")])
    ∧ readBack? slashedSource
      = some (documentEvents [.element ⟨none, "a/", "a/"⟩ [] [.text "t"]], none)
    ∧ readBack? closingSource
      = some (documentEvents [.doctype "a><" none none, .element a [] []],
        none) := by
  refine ⟨?_, ?_, ?_, ?_⟩ <;> decide +kernel

/-- A template whose root element declares what an element within a directive
in it is named by. -/
def nestedSource : String :=
  "<t:template xmlns:t='http://pwall.net/xml/xt/1.0'><h:a xmlns:h='u' h:x='1'>"
    ++ "<t:if test='true'><h:b/></t:if></h:a></t:template>"

/-- The outer element of that template. -/
def outerElement : Element where
  name := .ofText "h:a"
  uri := some "u"
  attributes := [⟨.ofText "xmlns:h", some Markup.declarationUri, "u"⟩,
    ⟨.ofText "h:x", some "u", "1"⟩]
  declarations := [(some "h", "u")]

/-- The inner element of that template. -/
def innerElement : Element := ⟨.ofText "h:b", some "u", [], []⟩

/-- The template element. -/
def nestedTemplate : Tree :=
  .node ⟨1, ⟨1, 1⟩, .element
      ⟨.ofText "t:template", some standardUri,
        [⟨.ofText "xmlns:t", some Markup.declarationUri, standardUri⟩],
        [(some "t", standardUri)]⟩⟩
    [.node ⟨2, ⟨1, 51⟩, .element outerElement⟩
      [.node ⟨3, ⟨1, 76⟩, .element
          ⟨.ofText "t:if", some standardUri, [⟨.ofText "test", none, "true"⟩],
            []⟩⟩
        [.node ⟨4, ⟨1, 94⟩, .element innerElement⟩ []]]]

/-- The document of that template. -/
def nestedDocument : Document :=
  ⟨.given 0, .node ⟨0, ⟨1, 1⟩, .document⟩ [nestedTemplate]⟩

/-- The processor of that template. -/
def nested : Processor :=
  let root := nestedDocument.node.below nestedTemplate
  ⟨root, .fresh root none, .standard, .memory [], .empty⟩

set_option maxRecDepth 2000 in
theorem parse_nested :
    Processor.parse (.memory []) 0 nestedSource = .ok nested := by
  have hparse : Document.parse (.given 0) nestedSource
      = .ok nestedDocument := by
    with_unfolding_all rfl
  unfold Processor.parse
  rw [hparse]
  rfl

/-- What that template sends. -/
def nestedEmission : Emission :=
  .element
    ⟨outerElement,
      [(⟨.ofText "xmlns:h", some Markup.declarationUri, "u"⟩, "u"),
        (⟨.ofText "h:x", some "u", "1"⟩, "1")]⟩
    [.element ⟨innerElement, []⟩ []]

theorem sent_nested : nested.Sent [nestedEmission] := by
  have hknown : ∀ x ∈ allElements [nestedEmission],
      Content.element x.element
        ∈ nested.root.tree.preorder.map Tree.content := by
    decide +kernel
  have hliteral : ∀ x ∈ allElements [nestedEmission],
      x.element.uri = some standardUri →
        Directive.ofName? x.element.name.localPart = none := by
    decide +kernel
  have hkept : ∀ x ∈ allElements [nestedEmission], x.kept
      = keptAttributes standardUri (Scopes.single nested.scope).environment
        x.element.attributes := by
    decide +kernel
  refine ⟨by decide +kernel, fun x hx => ⟨?_, hliteral x hx, _, hkept x hx⟩⟩
  obtain ⟨t, ht, hcontent⟩ := List.mem_map.1 (hknown x hx)
  exact hcontent ▸ .root ht

/-- The directive is gone, and the element in it still has its namespace by the
declaration on the root element. -/
theorem nested_namespaces_kept :
    Processor.parse (.memory []) 0 nestedSource = .ok nested
    ∧ nested.Sent [nestedEmission]
    ∧ ∃ d, Document.parse (.given 1) (nested.writeXml none).output.text = .ok d
      ∧ List.Forall₂ (Emitted.Kept standardUri) nestedEmission.elements
        d.elements := by
  have hnamed : ∀ c, nested.Holds c → Named c :=
    forall_holds.2 (by decide +kernel)
  have hcopies : ∀ c, nested.Holds c → ∀ e ∈ c.element?,
      e.uri = some nested.options.uri →
        Directive.ofName? e.name.localPart ≠ some .copy :=
    forall_holds.2 (by decide +kernel)
  have hcopy : Copyless nested.options.uri nested.Holds :=
    fun e he => hcopies _ he e rfl
  have hstop : (nested.writeXml none).stop = none :=
    Option.isNone_iff_eq_none.1 (by decide +kernel)
  have hdoctypes : LegibleDoctypes nested.course := by
    intro name publicId systemId h
    rw [sent_nested.course] at h
    simp [documentEvents, nestedEmission, pieces, Emission.piece, forestEvents,
      Piece.events] at h
  obtain ⟨-, hkept⟩ := namespaces_kept nested (grounded_parse parse_nested)
    hnamed hcopy rfl hstop hdoctypes
  have hread := hkept _ sent_nested [] _ _ [] rfl
    (List.forall_mem_nil _) (.given 1)
  exact ⟨parse_nested, sent_nested, hread.2 (by decide +kernel)⟩

end Processor

end Stencil.Template
