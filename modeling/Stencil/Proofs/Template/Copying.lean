/-
A document that is copied and written is read back.

Without intercepts a copy sends the events of the document's own pieces. These
have, where they stand, the data of the document they come from: its elements
have the namespaces that their names have there. So the document that is read
from what is written has the same data.
-/
import Stencil.Proofs.Output.Reading
import Stencil.Proofs.Output.Streaming
import Stencil.Proofs.Template.Literal

namespace Stencil.Template

open Markup (Content Context Document Element Node Origin Tree Datum isXmlName
  elementDatum? declared)
open Output (ElementName Event ForestLegible Piece Writer Writing allAttributes
  documentEvents documentPieces forestData? forestEvents forestEvents_append
  treePieces treesPieces)

-- ================================================================== copies

section

variable {σ : Type} {s : Settings σ} {x : Run σ Unit} {es : List Event}

/-- A scope that is left again leaves nothing behind. -/
theorem sends_inScope (n : Node) (hx : Sends s x es) :
    Sends s (inScope n x) es := by
  intro m
  obtain ⟨o, ho, hm⟩ := hx { m with scopes := m.scopes.push n }
  refine ⟨o, ho, ?_⟩
  unfold inScope between
  rw [hm]
  dsimp only
  rw [Scopes.pop_push]

mutual

/-- A copy without intercepts sends what is copied. -/
theorem sends_copyTree (hs : s.sink.Accepting) (origin : Origin)
    (trail : List Tree) : ∀ t : Tree, t.Tidy →
    t.content ≠ .document →
    Sends s (copyTree s [] origin trail t)
      (forestEvents (treePieces (copiedAttributes s.uri) t))
  | .node ⟨id, place, content⟩ ts, htidy, hdocument => by
    obtain ⟨horderly, hbelow⟩ := Tree.tidy_node.1 htidy
    have hinside := sends_copyTrees hs origin
      (.node ⟨id, place, content⟩ ts :: trail) ts hbelow horderly.below
    cases content with
    | document => exact absurd rfl hdocument
    | element e =>
      have hevents : forestEvents (treePieces (copiedAttributes s.uri)
            (.node ⟨id, place, .element e⟩ ts))
          = [.start (.ofElement e) (copiedAttributes s.uri e)]
            ++ (forestEvents (treesPieces (copiedAttributes s.uri) ts)
              ++ [.stop (.ofElement e)]) := by
        simp [treePieces, forestEvents, Output.Piece.events]
      rw [hevents]
      exact sends_seq (sends_send hs _)
        (sends_seq (sends_inScope _ hinside) (sends_send hs _))
    | text data => exact sends_send hs _
    | cdata data => exact sends_sendAll hs (cdata data)
    | comment data => exact sends_skip
    | instruction target data => exact sends_skip
termination_by structural t => t

theorem sends_copyTrees (hs : s.sink.Accepting) (origin : Origin)
    (trail : List Tree) : ∀ ts : List Tree,
    (∀ t ∈ ts, t.Tidy) → (∀ t ∈ ts, t.content ≠ .document) →
    Sends s (copyTrees s [] origin trail ts)
      (forestEvents (treesPieces (copiedAttributes s.uri) ts))
  | [], _, _ => sends_skip
  | t :: ts, htidy, hdocument => by
    obtain ⟨ht, htidy⟩ := List.forall_mem_cons.1 htidy
    obtain ⟨hd, hdocument⟩ := List.forall_mem_cons.1 hdocument
    rw [treesPieces, forestEvents_append]
    exact sends_seq (sends_copyTree hs origin trail t ht hd)
      (sends_copyTrees hs origin trail ts htidy hdocument)
termination_by structural ts => ts

end

end

-- ==================================================================== data

mutual

/-- The pieces of a tree have the data of the tree where it stands. -/
theorem data_treePieces : ∀ (ctx : Context) (t : Tree), t.Tidy →
    t.content ≠ .document → t.Resolved ctx →
    forestData? ctx (treePieces allAttributes t) = some t.data
  | ctx, .node ⟨id, place, content⟩ ts, htidy, hdocument, hresolved => by
    obtain ⟨horderly, hbelow⟩ := Tree.tidy_node.1 htidy
    cases content with
    | document => exact absurd rfl hdocument
    | element e =>
      obtain ⟨⟨hself, -⟩, hinside⟩ := hresolved
      have hown := (Markup.declarations_of_elementOf? hself).1
      have hinside := data_treesPieces (e.declarations :: ctx) ts hbelow
        horderly.below hinside
      rw [hown] at hinside
      show ((elementDatum? ctx e.name.text e.raw
        (forestData? (declared e.raw :: ctx)
          (treesPieces allAttributes ts))).map _).bind _ = _
      rw [hinside, elementDatum?, hself]
      rfl
    | text data => rfl
    | cdata data => rfl
    | comment data => rfl
    | instruction target data => rfl
termination_by structural _ t => t

theorem data_treesPieces : ∀ (ctx : Context) (ts : List Tree),
    (∀ t ∈ ts, t.Tidy) → (∀ t ∈ ts, t.content ≠ .document) →
    Tree.AllResolved ctx ts →
    forestData? ctx (treesPieces allAttributes ts) = some (Tree.allData ts)
  | _, [], _, _, _ => rfl
  | ctx, t :: ts, htidy, hdocument, hresolved => by
    obtain ⟨ht, htidy⟩ := List.forall_mem_cons.1 htidy
    obtain ⟨hd, hdocument⟩ := List.forall_mem_cons.1 hdocument
    obtain ⟨hr, hresolved⟩ := hresolved
    rw [treesPieces, Output.forestData?_append, data_treePieces ctx t ht hd hr,
      data_treesPieces ctx ts htidy hdocument hresolved]
    rfl
termination_by structural _ ts => ts

end

-- =============================================================== documents

/-- An element whose name and whose attributes' names are names of XML. -/
def Named : Content → Prop
  | .element e =>
    isXmlName e.name.text = true
      ∧ ∀ a ∈ e.attributes, isXmlName a.name.text = true
  | _ => True

instance : DecidablePred Named
  | .element e =>
    inferInstanceAs (Decidable (isXmlName e.name.text = true
      ∧ ∀ a ∈ e.attributes, isXmlName a.name.text = true))
  | .document => isTrue trivial
  | .text _ => isTrue trivial
  | .cdata _ => isTrue trivial
  | .comment _ => isTrue trivial
  | .instruction _ _ => isTrue trivial

/-- A node without attributes of the reserved namespace, and without
declarations of it. -/
def Unreserved (uri : String) : Content → Prop
  | .element e => ∀ a ∈ e.attributes, isReserved uri a = false
  | _ => True

theorem copiedAttributes_unreserved {uri : String} {e : Element}
    (h : Unreserved uri (.element e)) :
    copiedAttributes uri e = allAttributes e := by
  unfold copiedAttributes allAttributes
  rw [List.filter_eq_self.2 fun a ha => by rw [h a ha]; rfl]

mutual

theorem pieces_unreserved {uri : String} : ∀ t : Tree,
    t.Throughout (Unreserved uri) →
    treePieces (copiedAttributes uri) t = treePieces allAttributes t
  | .node ⟨id, place, content⟩ ts, h => by
    obtain ⟨hself, hinside⟩ := Tree.throughout_node.1 h
    have hinside := trees_unreserved ts hinside
    cases content with
    | document => exact hinside
    | element e =>
      show [Piece.element _ (copiedAttributes uri e) _] = [.element _ _ _]
      rw [hinside, copiedAttributes_unreserved hself]
    | _ => rfl
termination_by structural t => t

theorem trees_unreserved {uri : String} : ∀ ts : List Tree,
    (∀ t ∈ ts, t.Throughout (Unreserved uri)) →
    treesPieces (copiedAttributes uri) ts = treesPieces allAttributes ts
  | [], _ => rfl
  | t :: ts, h => by
    obtain ⟨ht, hts⟩ := List.forall_mem_cons.1 h
    rw [treesPieces, treesPieces, pieces_unreserved t ht,
      trees_unreserved ts hts]
termination_by structural ts => ts

end

mutual

/-- The pieces of a tree with names of XML can be read. -/
theorem legible_treePieces : ∀ (ctx : Context) (t : Tree), t.Resolved ctx →
    t.Throughout Named →
    ForestLegible (treePieces allAttributes t)
  | ctx, .node ⟨id, place, content⟩ ts, hresolved, hnamed => by
    obtain ⟨hself, hinside⟩ := Tree.throughout_node.1 hnamed
    cases content with
    | document => exact legible_treesPieces ([] :: ctx) ts hresolved hinside
    | element e =>
      obtain ⟨helement, hbelow⟩ := hresolved
      have hnames : ∀ a ∈ allAttributes e, isXmlName a.1 = true := by
        intro a ha
        obtain ⟨b, hb, rfl⟩ := List.mem_map.1 ha
        exact hself.2 b hb
      have hlegible : (Piece.element (.ofElement e) (allAttributes e)
          (treesPieces allAttributes ts)).Legible :=
        ⟨hself.1, hnames, helement.distinct,
          legible_treesPieces (e.declarations :: ctx) ts hbelow hinside⟩
      exact ⟨hlegible, trivial⟩
    | text data => exact ⟨trivial, trivial⟩
    | cdata data => exact ⟨trivial, trivial⟩
    | comment data => exact trivial
    | instruction target data => exact trivial
termination_by structural _ t => t

theorem legible_treesPieces : ∀ (ctx : Context) (ts : List Tree),
    Tree.AllResolved ctx ts →
    (∀ t ∈ ts, t.Throughout Named) →
    ForestLegible (treesPieces allAttributes ts)
  | _, [], _, _ => trivial
  | ctx, t :: ts, ⟨hr, hresolved⟩, hnamed => by
    obtain ⟨hn, hnamed⟩ := List.forall_mem_cons.1 hnamed
    rw [treesPieces, Output.forestLegible_append]
    exact ⟨legible_treePieces ctx t hr hn,
      legible_treesPieces ctx ts hresolved hnamed⟩
termination_by structural _ ts => ts

end

/-- A document is one piece, which is its root element. -/
theorem pieces_of_parse {source : List Char} {t : Tree}
    (h : Tree.parse source = .ok t)
    (attributes : Element → List (String × String)) :
    ∃ root e, root ∈ t.children
      ∧ t.children.find? Tree.isElement = some root
      ∧ root.content = .element e
      ∧ treePieces attributes t = treePieces attributes root
      ∧ treePieces attributes root = [.element (.ofElement e) (attributes e)
          (treesPieces attributes root.children)] := by
  obtain ⟨root, hmem, hfind, hpieces⟩ := exists_root h attributes
  have hroot := List.find?_some hfind
  obtain ⟨⟨id, place, content⟩, ts⟩ := root
  cases content with
  | element e => exact ⟨_, e, hmem, hfind, rfl, hpieces, rfl⟩
  | _ => cases hroot

/-- What is written of a document with names of XML is parsed into the same
data. -/
theorem parse_written {source : List Char} {t : Tree}
    (h : Tree.parse source = .ok t) (hnamed : t.Throughout Named)
    (declaration : Bool) :
    ∃ t', Tree.parse
        (Output.documentXml .all declaration (documentPieces t)).toList = .ok t'
      ∧ t'.data = t.data := by
  -- what is written reads back if it is legible and stands for the data of the
  -- tree; the two are known apart
  have hlegible := legible_treePieces [] t (Tree.resolved_of_parse h).1 hnamed
  have hdata : forestData? [[]] (treePieces allAttributes t) = some t.data := by
    obtain ⟨id, place, ts, rfl, htidy, hdocument, hresolved⟩ :=
      Tree.children_of_parse h
    exact data_treesPieces [[]] ts htidy hdocument hresolved
  obtain ⟨root, e, -, -, -, hpieces, hroot⟩ := pieces_of_parse h allAttributes
  rw [hpieces, hroot] at hlegible hdata
  have hparse := Output.parse_document declaration [] [] hlegible nofun
  have hdata : ((elementDatum? [[]] e.name.text (allAttributes e)
      (forestData? [declared (allAttributes e), []]
        (treesPieces allAttributes root.children))).map fun x => [x]).bind
          (fun xs => some (xs ++ [])) = some t.data := hdata
  unfold documentPieces
  rw [hpieces, hroot]
  generalize hdatum : elementDatum? [[]] e.name.text (allAttributes e)
    (forestData? [declared (allAttributes e), []]
      (treesPieces allAttributes root.children)) = datum? at hdata
  cases datum? with
  | none => cases hdata
  | some x =>
    have hparse := hparse
    rw [show (ElementName.ofElement e).qualified = e.name.text from rfl,
      hdatum] at hparse
    obtain ⟨t', ht', hdata'⟩ := hparse
    exact ⟨t', ht', hdata'.trans (Option.some.inj hdata)⟩

/-- Without intercepts a copy of the root element sends the document's own
events, with all attributes that are not reserved. -/
theorem copied_whole (origin : Origin) (source : String) (d : Document)
    (hd : Document.parse origin source = .ok d) (hs : s.sink.Accepting)
    (m : Machine σ) :
    ∃ root o, d.rootElement? = some root
      ∧ s.sink.deliver m.output
          (forestEvents (treePieces (copiedAttributes s.uri) d.root)) = (o, none)
      ∧ copyFrom s [] true root m = .ok () { m with output := o } := by
  obtain ⟨-, hparse⟩ := Document.tree_of_parse hd
  obtain ⟨root, e, hmem, hfind, hcontent, hpieces, -⟩ :=
    pieces_of_parse hparse (copiedAttributes s.uri)
  have htidy := (Tree.built_of_parse hparse).tidy.child hmem
  obtain ⟨o, ho, hm⟩ := sends_copyTree hs d.origin [d.root] root htidy
    (by rw [hcontent]; exact nofun) m
  refine ⟨d.node.below root, o, Document.rootElement?_eq hfind, ?_, hm⟩
  rw [hpieces]
  exact ho

/-- Let all names in a document be names of XML. Its pieces, which are what a
copy of its root element sends if nothing in it is reserved, are written to a
text that is parsed into a document of the same data: the same elements with
the same attributes, values and namespaces, and the same character data. -/
theorem document_read_back (origin origin' : Origin) (source : String)
    (d : Document) (hd : Document.parse origin source = .ok d)
    (hnamed : ∀ n ∈ d.nodes, Named n.content) (declaration : Bool) :
    (∃ w d', Writer.acceptAll (documentEvents (documentPieces d.root))
          (.fresh .xml .all declaration none) = .ok () w
        ∧ Document.parse origin' w.text = .ok d' ∧ d'.data = d.data)
      ∧ ∀ {σ : Type} (s : Settings σ) (m : Machine σ), s.sink.Accepting →
        (∀ n ∈ d.nodes, Unreserved s.uri n.content) →
        ∃ root o, d.rootElement? = some root
          ∧ s.sink.deliver m.output (forestEvents (documentPieces d.root))
            = (o, none)
          ∧ copyFrom s [] true root m = .ok () { m with output := o } := by
  obtain ⟨-, hparse⟩ := Document.tree_of_parse hd
  constructor
  · obtain ⟨w, hw, htext⟩ := Writer.brings_document
      (nofun : Output.Whitespace.all ≠ .indent) declaration
      (documentPieces d.root)
    obtain ⟨t, ht, hdata⟩ := parse_written hparse
      (Document.forall_content.1 hnamed) declaration
    refine ⟨w, ⟨origin', t⟩, hw, ?_, congrArg Markup.joinData hdata⟩
    unfold Document.parse
    rw [htext, ht]
    rfl
  · intro σ s m hs hunreserved
    unfold documentPieces
    rw [← pieces_unreserved d.root (Document.forall_content.1 hunreserved)]
    exact copied_whole origin source d hd hs m

/-- A document in two namespaces, with a quote in an attribute, text around a
comment, and the mark that closes a section over two sections. -/
def twofoldSource : String :=
  "<a xmlns='u' p:x='\"' xmlns:p='v'>t<!--c-->&amp;<![CDATA[]]]>"
    ++ "<![CDATA[]>]]><p:b/></a>"

/-- The document of that source. -/
def twofold : Document where
  origin := .given 0
  root :=
    .node ⟨0, ⟨1, 1⟩, .document⟩
      [.node ⟨1, ⟨1, 1⟩, .element
          ⟨.ofText "a", some "u",
            [⟨.ofText "xmlns", some Markup.declarationUri, "u"⟩,
              ⟨.ofText "p:x", some "v", "\""⟩,
              ⟨.ofText "xmlns:p", some Markup.declarationUri, "v"⟩],
            [(none, "u"), (some "p", "v")]⟩⟩
        [.node ⟨2, ⟨1, 34⟩, .text "t"⟩ [],
          .node ⟨3, ⟨1, 35⟩, .comment "c"⟩ [],
          .node ⟨4, ⟨1, 43⟩, .text "&"⟩ [],
          .node ⟨5, ⟨1, 48⟩, .cdata "]"⟩ [],
          .node ⟨6, ⟨1, 61⟩, .cdata "]>"⟩ [],
          .node ⟨7, ⟨1, 75⟩, .element ⟨.ofText "p:b", some "v", [], []⟩⟩ []]]

/-- The comment is gone, and what stood around it is one text; so are the two
sections one. -/
theorem twofold_read_back :
    Document.parse (.given 0) twofoldSource = .ok twofold
    ∧ (∀ n ∈ twofold.nodes, Named n.content)
    ∧ ∃ w d', Writer.acceptAll (documentEvents (documentPieces twofold.root))
        (.fresh .xml .all true none) = .ok () w
      ∧ Document.parse (.given 1) w.text = .ok d'
      ∧ d'.data =
        [.element
          ⟨.ofText "a", some "u",
            [⟨.ofText "xmlns", some Markup.declarationUri, "u"⟩,
              ⟨.ofText "p:x", some "v", "\""⟩,
              ⟨.ofText "xmlns:p", some Markup.declarationUri, "v"⟩],
            [(none, "u"), (some "p", "v")]⟩
          [.text "t&", .cdata "]]>",
            .element ⟨.ofText "p:b", some "v", [], []⟩ []]] := by
  have hparse : Document.parse (.given 0) twofoldSource = .ok twofold := by
    with_unfolding_all rfl
  have hnamed : ∀ n ∈ twofold.nodes, Named n.content := by
    decide +kernel
  obtain ⟨⟨w, d', hw, hread, hdata⟩, -⟩ := document_read_back (.given 0)
    (.given 1) twofoldSource twofold hparse hnamed true
  exact ⟨hparse, hnamed, w, d', hw, hread, hdata⟩

end Stencil.Template
