/-
Document types in templates.

What a document type is given for its names is data of the template, and is
written between quotes as it is. As long as no quote is in it, the document type
is read as one: the text of a template is then parsed into the tree that it is
parsed into without the document type, but for the places of nodes
(`doctype_injects_nothing`). A quote ends the identifier, and what comes behind
it is read as markup (`doctype_injects_element`).

The run without the document type goes the same way as the one with it, behind
another record (`SendAlike`). So both send the same from the root element on
(`untitled_items`, by induction on what becomes of the contents), and what they
send in front of it comes to nothing when it is read.
-/
import Stencil.Proofs.Template.Gathering
import Stencil.Proofs.Template.Namespaces
import Stencil.Proofs.Template.Silence

namespace Stencil.Template

open Markup (Document Node Origin Tree placeless)
open Output (Event Front Fronted Piece Single Sink Writer
  documentEvents documentXml forestEvents forestEvents_append laidOut)

variable {s : Settings (List Event)} {inner : Option (Inner (List Event))}
  {origin origin' : Origin} {trail trail' ts ts' : List Tree}

-- ============================================================ document types

/-- A document type is put out, or left out, and nothing else comes of it. -/
theorem ok_of_doctype (hs : s.sink = Sink.log) {t : Tree}
    (hd : Directive.ofNode? s.uri ⟨.given 0, t, []⟩ = some .doctype)
    {m m' : Machine (List Event)}
    (h : item s ⟨origin, t, trail⟩ false false
      (element s inner origin trail t) m = .ok () m') :
    ∃ ps, (∀ p ∈ ps, p.Outside) ∧ m' = m.extended ps := by
  have hd : Directive.ofNode? s.uri ⟨origin, t, trail⟩ = some .doctype := hd
  have helement : t.isElement = true := by
    obtain ⟨e, he, -⟩ := Option.bind_eq_some_iff.1 hd
    exact Option.isSome_iff_exists.2 ⟨e, he⟩
  obtain ⟨below, hperform, -⟩ := element_eq_perform s inner origin trail t
  rw [item_element helement (hd ▸ nofun), hperform] at h
  obtain ⟨b, -, h⟩ := exists_of_read_ok h
  split at h
  · rw [hd] at h
    obtain ⟨name?, -, h⟩ := exists_of_read_ok h
    cases name? with
    | none => cases h
    | some name =>
      obtain ⟨systemId, -, h⟩ := exists_of_read_ok h
      obtain ⟨publicId, -, h⟩ := exists_of_read_ok h
      rw [sendAll_log hs] at h
      cases h
      exact ⟨[.doctype name publicId systemId],
        List.forall_mem_singleton.2 trivial, rfl⟩
  · cases h
    exact ⟨[], nofun, m.extended_nil.symm⟩

/-- Contents that put nothing out but a literal element, white space and the
document types in front of the element; the second are without the document
types. White space and comments in front of the element may be others, and what
stays may have other numbers and places. -/
inductive Untitled (uri : String) : List Tree → List Tree → Prop
  | root {t t' : Tree} {ts ts' : List Tree} (literal : isLiteral uri t = true)
    (silent : ∀ t ∈ ts, isSilent uri t = true)
    (same : List.Forall₂ (Regrouped uri) (t :: ts) (t' :: ts')) :
    Untitled uri (t :: ts) (t' :: ts')
  | keep {t t' : Tree} {ts ts' : List Tree} (silent : isSilent uri t = true)
    (same : Regrouped uri t t') (rest : Untitled uri ts ts') :
    Untitled uri (t :: ts) (t' :: ts')
  | untitle {t : Tree} {ts ts' : List Tree}
    (doctype : Directive.ofNode? uri ⟨.given 0, t, []⟩ = some .doctype)
    (rest : Untitled uri ts ts') : Untitled uri (t :: ts) ts'
  | drop {t : Tree} {ts ts' : List Tree} (silent : isSilent uri t = true)
    (other : t.isElement = false) (rest : Untitled uri ts ts') :
    Untitled uri (t :: ts) ts'
  | add {t' : Tree} {ts ts' : List Tree} (silent : isSilent uri t' = true)
    (other : t'.isElement = false) (rest : Untitled uri ts ts') :
    Untitled uri ts (t' :: ts')

theorem macroTree_of_directive {uri : String} {t : Tree} {d : Option Directive}
    (hd : Directive.ofNode? uri ⟨.given 0, t, []⟩ = d)
    (hne : d ≠ some .definition) : ¬ macroTree uri t = true := by
  unfold macroTree isMacro
  rw [hd]
  exact fun h => hne (of_decide_eq_true h)

theorem macroTree_of_other {uri : String} {t : Tree}
    (h : t.isElement = false) : ¬ macroTree uri t = true := by
  have hnone : (⟨.given 0, t, []⟩ : Node).element? = none :=
    Option.not_isSome_iff_eq_none.1 (Bool.eq_false_iff.1 h)
  refine macroTree_of_directive (d := none) ?_ (Option.some_ne_none _).symm
  unfold Directive.ofNode?
  rw [hnone]
  rfl

theorem macroTree_regrouped {uri : String} {t t' : Tree}
    (h : Regrouped uri t t') : macroTree uri t = macroTree uri t' := by
  rw [← macroTree_gathered, h, macroTree_gathered]

/-- Without document types there are the same macros. -/
theorem Untitled.macros {uri : String} (h : Untitled uri ts ts') :
    List.Forall₂ (Regrouped uri) (ts.filter (macroTree uri))
      (ts'.filter (macroTree uri)) := by
  induction h with
  | root _ _ same =>
    refine List.rel_filter (fun _ _ h => ?_) same
    exact iff_of_eq (congrArg (· = true) (macroTree_regrouped h))
  | @keep t t' _ _ _ same _ ih =>
    have hsame := macroTree_regrouped same
    cases ht : macroTree uri t with
    | true =>
      rw [List.filter_cons_of_pos ht, List.filter_cons_of_pos (hsame ▸ ht)]
      exact .cons same ih
    | false =>
      rw [List.filter_cons_of_neg (Bool.eq_false_iff.1 ht),
        List.filter_cons_of_neg (Bool.eq_false_iff.1 (hsame ▸ ht))]
      exact ih
  | untitle doctype _ ih =>
    rw [List.filter_cons_of_neg (macroTree_of_directive doctype nofun)]
    exact ih
  | drop _ other _ ih =>
    rw [List.filter_cons_of_neg (macroTree_of_other other)]
    exact ih
  | add _ other _ ih =>
    rw [List.filter_cons_of_neg (macroTree_of_other other)]
    exact ih

-- ============================================================== side by side

section

variable {N : Node → Node → Prop}

theorem Machine.Beside.extended {m m' : Machine (List Event)}
    (h : m.Beside N m') (ps qs : List Piece) :
    (m.extended ps).Beside N (m'.extended qs) :=
  ⟨h.scopes, h.nesting, h.cache⟩

/-- Of two runs side by side, the second goes as well as the first and puts out
the same. -/
theorem SendAlike.puts {P : List Piece → Prop} {x x' : Run (List Event) Unit}
    (h : SendAlike N x x') (hP : Puts P x) {m m' n : Machine (List Event)}
    (hm : m.Beside N m') (hx : x m = .ok () n) :
    ∃ n' ps, x' m' = .ok () n' ∧ n.Beside N n' ∧ P ps
      ∧ n.output = m.output ++ forestEvents ps
      ∧ n'.output = m'.output ++ forestEvents ps := by
  obtain ⟨ps, hps, hsent⟩ := hP m n hx
  have hend := h m m' hm
  rw [hx] at hend
  generalize hx' : x' m' = r at hend
  cases hend with
  | ok es hn hes hes' =>
    obtain rfl : es = forestEvents ps :=
      List.append_cancel_left (hes.symm.trans hsent)
    exact ⟨_, ps, rfl, hn, hps, hsent, hes'⟩

end

/-- What is put out on both sides is the same from the root element on. In front
of it there are white space and document types, which on the second side can be
read. -/
def SameRoot (before before' out out' : List Event) : Prop :=
  ∃ ps ps' rest, (∀ p ∈ ps, p.Outside) ∧ Front ps' ∧ Single rest
    ∧ out = before ++ forestEvents (ps ++ rest)
    ∧ out' = before' ++ forestEvents (ps' ++ rest)

theorem SameRoot.behind {before before' out out' : List Event}
    {qs qs' : List Piece}
    (h : SameRoot (before ++ forestEvents qs) (before' ++ forestEvents qs')
      out out') (hqs : ∀ q ∈ qs, q.Outside) (hqs' : Front qs') :
    SameRoot before before' out out' := by
  obtain ⟨ps, ps', rest, hps, hps', hrest, hout, hout'⟩ := h
  refine ⟨qs ++ ps, qs' ++ ps', rest, List.forall_mem_append.2 ⟨hqs, hps⟩,
    hqs'.append hps', hrest, ?_, ?_⟩
  · rw [hout, List.append_assoc, List.append_assoc qs, forestEvents_append qs]
  · rw [hout', List.append_assoc, List.append_assoc qs',
      forestEvents_append qs']

/-- Nodes of trees that are the same when macros are gathered, in places that
hold the same. -/
abbrev RegroupedAt (uri : String) : Node → Node → Prop :=
  Transplanted (Regrouped uri)

/-- Without their document types contents go the same way. -/
theorem untitled_items (hs : s.sink = Sink.log) (room : Nat)
    (around : trail.map Tree.content = trail'.map Tree.content)
    (h : Untitled s.uri ts ts') {m m' n : Machine (List Event)}
    (hm : m.Beside (RegroupedAt s.uri) m')
    (hrun : items s (inner? s room) origin trail false false ts m = .ok () n) :
    ∃ n', items s (inner? s room) origin' trail' false false ts' m' = .ok () n'
      ∧ SameRoot m.output m'.output n.output n'.output := by
  have c := sendAlike_congruence (N := RegroupedAt s.uri) hs
    (fun _ => ⟨rfl, rfl⟩) (descends_regrouped s.uri)
  induction h generalizing m m' with
  | @root t t' ts ts' literal silent same =>
    have abreast : Abreast (RegroupedAt s.uri) origin origin' trail trail'
        (t :: ts) (t' :: ts') := same.imp fun _ _ ht => ⟨ht, around⟩
    obtain ⟨n', _, hrun', -, ⟨front, rest, rfl, hfront, hrest⟩, hout, hout'⟩ :=
      (c.items (c.treesAlike (c.inner room) (t :: ts)) abreast false false).puts
        (puts_root hs literal silent room) hm hrun
    exact ⟨n', hrun', front, front, rest, hfront.outside, hfront, hrest, hout,
      hout'⟩
  | @keep t t' ts ts' silent same _ ih =>
    have here : RegroupedAt s.uri ⟨origin, t, trail⟩ ⟨origin', t', trail'⟩ :=
      ⟨same, around⟩
    rw [items_cons] at hrun
    obtain ⟨_, m₁, hfirst, hrun⟩ := exists_of_bind_ok hrun
    obtain ⟨m₁', ps, hfirst', hm₁, hps, hout, hout'⟩ :=
      (c.item here false false (c.element (c.inner room) here)).puts
        (puts_silent hs silent) hm hfirst
    obtain ⟨n', hrun', hroot⟩ := ih hm₁ hrun
    rw [hout, hout'] at hroot
    rw [items_cons, bind_ok hfirst']
    exact ⟨n', hrun', hroot.behind hps.outside hps⟩
  | untitle doctype _ ih =>
    rw [items_cons] at hrun
    obtain ⟨_, m₁, hfirst, hrun⟩ := exists_of_bind_ok hrun
    obtain ⟨ps, hps, rfl⟩ := ok_of_doctype hs doctype hfirst
    obtain ⟨n', hrun', hroot⟩ := ih (hm.extended ps []) hrun
    rw [m'.extended_nil] at hrun'
    exact ⟨n', hrun', hroot.behind hps .nil⟩
  | @drop t _ _ silent other _ ih =>
    obtain ⟨ps, hps, hitem⟩ := idle_item hs ⟨origin, t, trail⟩ silent other
      (element s (inner? s room) origin trail t)
    rw [items_cons, bind_ok (hitem m)] at hrun
    -- only one side has the item, and sends what stands outside of the root
    obtain ⟨n', hrun', hroot⟩ := ih (hm.extended ps []) hrun
    rw [m'.extended_nil] at hrun'
    exact ⟨n', hrun', hroot.behind hps.outside .nil⟩
  | @add t' _ _ silent other _ ih =>
    obtain ⟨ps, hps, hitem⟩ := idle_item hs ⟨origin', t', trail'⟩ silent other
      (element s (inner? s room) origin' trail' t')
    rw [← m.extended_nil] at hrun
    obtain ⟨n', hrun', hroot⟩ := ih (hm.extended [] ps) hrun
    rw [items_cons, bind_ok (hitem m')]
    exact ⟨n', hrun', hroot.behind nofun hps⟩

/-- The same holds of a node with its definitions. -/
theorem untitled_contents (hs : s.sink = Sink.log) (room : Nat)
    {titled bare : Node} (place : SamePlace titled bare)
    (h : Untitled s.uri titled.tree.children bare.tree.children)
    {m m' n : Machine (List Event)} (hm : m.Beside (RegroupedAt s.uri) m')
    (hrun : contents s (inner? s room) false titled m = .ok () n) :
    ∃ n', contents s (inner? s room) false bare m' = .ok () n'
      ∧ SameRoot m.output m'.output n.output n'.output := by
  have c := sendAlike_congruence (N := RegroupedAt s.uri) hs
    (fun _ => ⟨rfl, rfl⟩) (descends_regrouped s.uri)
  have macros : List.Forall₂ (RegroupedAt s.uri)
      (titled.children.filter (isMacro s.uri))
      (bare.children.filter (isMacro s.uri)) := by
    rw [macros_children, macros_children]
    exact Transplanted.below place h.macros
  obtain ⟨_, m₁, hdefined, hrun⟩ := exists_of_bind_ok hrun
  obtain ⟨m₁', _, hdefined', hm₁, rfl, hout, hout'⟩ :=
    (c.definitions macros).puts (puts_defineAll _) hm hdefined
  obtain ⟨n', hrun', hroot⟩ := untitled_items hs room place h hm₁ hrun
  rw [hout, hout'] at hroot
  refine ⟨n', ?_, hroot.behind nofun .nil⟩
  unfold contents
  rw [bind_ok hdefined']
  exact hrun'

-- =========================================================== whole documents

namespace Processor

variable {p : Processor}

/-- What may stand in front of a root element, and that with nothing but such
pieces behind it, is written as it is laid out. -/
theorem write_front {o : Options} (hxml : o.dialect = .xml)
    {ps rest : List Piece} (hps : Front ps) (hrest : Single rest)
    (houtcome : p.outcome = none)
    (hcourse : p.course = documentEvents (ps ++ rest)) :
    (p.write o none).stop = none
      ∧ (p.write o none).output.text = documentXml .all o.declaration
        (laidOut o.whitespace (ps ++ rest)) := by
  obtain ⟨w, hw, htext⟩ :=
    Writer.brings_front o.whitespace o.declaration hps hrest
  obtain ⟨houtput, hstop⟩ := p.runInto_eq_deliver Writer.sink
    (.fresh .xml o.whitespace o.declaration none)
  rw [hcourse, Writer.deliver_eq, hw] at houtput hstop
  unfold write
  rw [hxml, houtput, hstop, houtcome]
  exact ⟨rfl, htext⟩

end Processor

/-- What may stand in front of a root element can be read, if the document types
among it can. -/
theorem front_of_legible {ps : List Piece} (hps : ∀ p ∈ ps, p.Outside)
    (hdoctypes : LegibleDoctypes (forestEvents ps)) : Front ps := by
  induction ps with
  | nil => exact .nil
  | cons p ps ih =>
    obtain ⟨hp, hps⟩ := List.forall_mem_cons.1 hps
    have hrest : Front ps := ih hps fun name publicId systemId h =>
      hdoctypes name publicId systemId (List.mem_append_right _ h)
    cases p with
    | text s => exact .text hp hrest
    | doctype name publicId systemId =>
      exact .doctype (hdoctypes name publicId systemId List.mem_cons_self) hrest
    | _ => cases hp

/-- A document without the places of its nodes. -/
def unplaced (d : Document) : Document := ⟨d.origin, d.root.placeless⟩

/-- Documents are the same but for places if their trees are. -/
theorem unplaced_parse {a b : String}
    (h : placeless Tree.placeless (Tree.parse a.toList)
      = placeless Tree.placeless (Tree.parse b.toList)) (origin : Origin) :
    placeless unplaced (Document.parse origin a)
      = placeless unplaced (Document.parse origin b) := by
  have hdocument (text : String) :
      placeless unplaced (Document.parse origin text)
        = (placeless Tree.placeless (Tree.parse text.toList)).map
          (⟨origin, ·⟩) := by
    unfold Document.parse
    cases Tree.parse text.toList <;> rfl
  rw [hdocument, hdocument, h]

namespace Processor

/-- At roots in places that hold the same, machines start side by side. -/
theorem beside_withRoot (p : Processor) {root root' : Node}
    (place : SamePlace root root') (out out' : List Event) :
    ((p.withRoot root).machine out).Beside (RegroupedAt p.options.uri)
      ((p.withRoot root').machine out') where
  scopes := by
    refine ⟨⟨place.resolve?, rfl, ?_, rfl, rfl⟩, .nil⟩
    exact List.forall₂_same.2 fun _ _ =>
      ⟨rfl, ⟨rfl, rfl⟩, List.forall₂_same.2 fun _ _ => ⟨rfl, rfl⟩⟩
  nesting := rfl
  cache := rfl

/-- Without its document types a template sends the same from the root element
on. -/
theorem course_untitled (p : Processor) {titled bare : Node}
    (htemplate : Directive.ofNode? p.options.uri titled = some .template)
    (place : SamePlace titled bare)
    (h : Untitled p.options.uri titled.tree.children bare.tree.children)
    (houtcome : (p.withRoot titled).outcome = none) :
    (p.withRoot bare).outcome = none
      ∧ ∃ ps ps' rest, (∀ q ∈ ps, q.Outside) ∧ Front ps' ∧ Single rest
        ∧ (p.withRoot titled).course = documentEvents (ps ++ rest)
        ∧ (p.withRoot bare).course = documentEvents (ps' ++ rest) := by
  let s := (p.withRoot titled).settings Sink.log
  -- the root is a template either way, and all else that is done is its
  -- contents
  have executed {n : Node}
      (hn : Directive.ofNode? p.options.uri n = some .template) :
      process s n = contents s (inner? s nestingLimit) false n := if_pos hn
  have hbare : Directive.ofNode? p.options.uri bare = some .template := by
    rw [← place.ofNode?, htemplate]
  obtain ⟨m, hrun, hcourse⟩ := exists_of_outcome houtcome
  have hrun : process s titled ((p.withRoot titled).machine [.startDocument])
      = .ok () m := hrun
  rw [executed htemplate] at hrun
  obtain ⟨m', hrun', ps, ps', rest, hps, hps', hrest, hout, hout'⟩ :=
    untitled_contents rfl nestingLimit place h
      (p.beside_withRoot place [.startDocument] [.startDocument]) hrun
  rw [← executed hbare] at hrun'
  have hended' : (p.withRoot bare).runInto Sink.log []
      = ⟨none, m'.output ++ [.endDocument], m'.cache⟩ :=
    runInto_log_iff.2 ⟨m', hrun', rfl, rfl⟩
  have hcourse' : (p.withRoot bare).course = m'.output ++ [.endDocument] :=
    congrArg Ending.output hended'
  refine ⟨congrArg Ending.stop hended', ps, ps', rest, hps, hps', hrest, ?_, ?_⟩
  · rw [hcourse, hout]
    rfl
  · rw [hcourse', hout']
    rfl

/-- Let a template be processed whose contents are white space, document types
and then a literal element, besides what puts nothing out. Let the name of every
document type that is sent be a name of XML, and let no identifier hold a quote;
they may hold anything else. If the run to XML goes well, so does that of the
template without its document types, and both texts are parsed into the same
document, but for places. So the document is the same whatever is in the
identifiers. -/
theorem doctype_injects_nothing (p : Processor) (titled bare : Node)
    {o : Options} (hxml : o.dialect = .xml)
    (htemplate : Directive.ofNode? p.options.uri titled = some .template)
    (place : SamePlace titled bare)
    (h : Untitled p.options.uri titled.tree.children bare.tree.children)
    (hdoctypes : LegibleDoctypes (p.withRoot titled).course)
    (hstop : ((p.withRoot titled).write o none).stop = none) :
    ((p.withRoot bare).write o none).stop = none
      ∧ ∀ origin,
        placeless unplaced (Document.parse origin
            ((p.withRoot titled).write o none).output.text)
          = placeless unplaced (Document.parse origin
            ((p.withRoot bare).write o none).output.text) := by
  have houtcome := outcome_of_stop hstop
  obtain ⟨houtcome', ps, ps', rest, hps, hps', hrest, hcourse, hcourse'⟩ :=
    p.course_untitled htemplate place h houtcome
  -- the two texts differ in their fronts, which a parser passes over
  have hlegible : Front ps := by
    refine front_of_legible hps fun name publicId systemId he =>
      hdoctypes name publicId systemId ?_
    rw [hcourse, documentEvents, forestEvents_append]
    simp [he]
  obtain ⟨-, htext⟩ := write_front hxml hlegible hrest houtcome hcourse
  obtain ⟨hstop', htext'⟩ := write_front hxml hps' hrest houtcome' hcourse'
  refine ⟨hstop', unplaced_parse ?_⟩
  rw [htext, htext']
  exact Output.parse_front o.whitespace o.declaration hlegible hps' hrest.1

-- ------------------------------------------------------------- identifiers

/-- A template with some contents. -/
def templateOf (ts : List Tree) : Processor :=
  let tree : Tree := .node ⟨1, ⟨1, 1⟩, .element
    ⟨.ofText "t:template", some standardUri,
      [⟨.ofText "xmlns:t", some Markup.declarationUri, standardUri⟩],
      [(some "t", standardUri)]⟩⟩ ts
  let document : Document := ⟨.given 0, .node ⟨0, ⟨1, 1⟩, .document⟩ [tree]⟩
  let root := document.node.below tree
  ⟨root, .fresh root none, .standard, .memory [], .empty⟩

/-- A document type with a system identifier. -/
def systemDoctype (system : String) : Tree :=
  .node ⟨2, ⟨1, 51⟩, .element
    ⟨.ofText "t:doctype", some standardUri,
      [⟨.ofText "name", none, "a"⟩, ⟨.ofText "system", none, system⟩], []⟩⟩ []

/-- An element whose character data ends a comment, where there is one. -/
def arrowElement (id column : Nat) : Tree :=
  .node ⟨id, ⟨1, column⟩, .element ⟨.ofText "a", none, [], []⟩⟩
    [.node ⟨id + 1, ⟨1, column + 3⟩, .cdata "-->"⟩ []]

/-- That element with a document type in front of it, and without. -/
def arrowTitled (system : String) (column : Nat) : Processor :=
  templateOf [systemDoctype system, arrowElement 3 column]

def arrowBare : Processor := templateOf [arrowElement 2 51]

theorem untitled_arrow (system : String) (column : Nat) :
    Untitled standardUri (arrowTitled system column).root.tree.children
      arrowBare.root.tree.children := by
  have same : Regrouped standardUri (arrowElement 3 column)
      (arrowElement 2 51) := rfl
  exact .untitle rfl (.root rfl (List.forall_mem_nil _) (.cons same .nil))

/-- The source of such templates. -/
def arrowSource (doctype : String) : String :=
  "<t:template xmlns:t='http://pwall.net/xml/xt/1.0'>" ++ doctype
    ++ "<a><![CDATA[-->]]></a></t:template>"

/-- What is sent for them. -/
def arrowCourse (system : String) : List Event :=
  documentEvents [.doctype "a" none (some system),
    .element ⟨none, "a", "a"⟩ [] [.cdata "-->"]]

/-- Brackets and other markup in an identifier are no harm. -/
theorem doctype_injects_nothing_bracketed :
    let p := arrowTitled "x><b>" 90
    Untitled standardUri p.root.tree.children arrowBare.root.tree.children
      ∧ LegibleDoctypes p.course ∧ (p.write .standard none).stop = none
      ∧ (p.write .standard none).output.text
        = "<!DOCTYPE a SYSTEM \"x><b>\">\n<a><![CDATA[-->]]></a>"
      ∧ (arrowBare.write .standard none).stop = none
      ∧ ∀ origin,
        placeless unplaced
            (Document.parse origin (p.write .standard none).output.text)
          = placeless unplaced
            (Document.parse origin (arrowBare.write .standard none).output.text)
    := by
  intro p
  have hcourse : p.course = arrowCourse "x><b>" := by decide +kernel
  have hdoctypes : LegibleDoctypes p.course := by
    intro name publicId systemId h
    rw [hcourse] at h
    simp [arrowCourse, documentEvents, forestEvents, Piece.events] at h
    obtain ⟨rfl, rfl, rfl⟩ := h
    exact ⟨by decide, by decide⟩
  have hstop : (p.write .standard none).stop = none :=
    Option.isNone_iff_eq_none.1 (by decide +kernel)
  have untitled := untitled_arrow "x><b>" 90
  exact ⟨untitled, hdoctypes, hstop, by decide +kernel,
    doctype_injects_nothing p p.root arrowBare.root
      (rfl : Options.standard.dialect = .xml) rfl rfl untitled hdoctypes hstop⟩

set_option maxRecDepth 4000 in
theorem parse_arrowTitled :
    Processor.parse (.memory []) 0
      (arrowSource "<t:doctype name='a' system='x\"&gt;&lt;a&gt;&lt;!--'/>")
      = .ok (arrowTitled "x\"><a><!--" 104) := by
  with_unfolding_all rfl

set_option maxRecDepth 4000 in
theorem parse_arrowBare :
    Processor.parse (.memory []) 0 (arrowSource "") = .ok arrowBare := by
  with_unfolding_all rfl

/-- A quote ends the identifier, and what is behind it is read as markup: an
element and a comment are injected, and the root element is part of the
comment. -/
theorem doctype_injects_element :
    let p := arrowTitled "x\"><a><!--" 104
    let contents (text : String) : Option (List Markup.Content) :=
      (Tree.parse text.toList).toOption.map (·.preorder.map Tree.content)
    let a : Markup.Element := ⟨.ofText "a", none, [], []⟩
    Processor.parse (.memory []) 0
        (arrowSource "<t:doctype name='a' system='x\"&gt;&lt;a&gt;&lt;!--'/>")
        = .ok p
      ∧ Processor.parse (.memory []) 0 (arrowSource "") = .ok arrowBare
      ∧ Untitled standardUri p.root.tree.children arrowBare.root.tree.children
      ∧ p.course = arrowCourse "x\"><a><!--" ∧ Markup.isXmlName "a" = true
      ∧ (p.write .standard none).stop = none
      ∧ contents (p.write .standard none).output.text
        = some [.document, .element a, .comment "\">\n<a><![CDATA[",
          .text "]]>"]
      ∧ contents (arrowBare.write .standard none).output.text
        = some [.document, .element a, .cdata "-->"] := by
  refine ⟨parse_arrowTitled, parse_arrowBare, untitled_arrow _ _, ?_, ?_,
    Option.isNone_iff_eq_none.1 ?_, ?_, ?_⟩ <;> decide +kernel

end Processor

end Stencil.Template
