/-
Documents that are formatted twice.

In a document that is parsed every name stands for something where it stands,
and no section holds the end of one. So if its names are names of XML its
pieces are readable (`readable_treePieces`), and what is written of them is
read and written again as it was.
-/
import Stencil.Proofs.Markup.Sections
import Stencil.Proofs.Output.Formatting
import Stencil.Proofs.Template.Copying

namespace Stencil.Template

open Markup (Content Context Document Mark Origin Tree marksOf sectionEnd)
open Output (ForestReadable Whitespace Writer allAttributes documentEvents
  documentPieces treePieces treesPieces)

/-- No section among the marks holds the end of one. -/
def AllWhole (ms : List Mark) : Prop :=
  ∀ s, Mark.cdata s ∈ ms → Text.breakOn? sectionEnd s.toList = none

mutual

/-- The pieces of a tree are readable where it stands. -/
theorem readable_treePieces : ∀ (ctx : Context) (t : Tree), t.Tidy →
    t.content ≠ .document → t.Resolved ctx → t.Throughout Named →
    AllWhole t.marks → ForestReadable ctx (treePieces allAttributes t)
  | ctx, .node ⟨id, place, content⟩ ts, htidy, hdocument, hresolved, hnamed,
      hwhole => by
    obtain ⟨horderly, hbelow⟩ := Tree.tidy_node.1 htidy
    obtain ⟨hself, hinside⟩ := Tree.throughout_node.1 hnamed
    cases content with
    | document => exact absurd rfl hdocument
    | element e =>
      obtain ⟨helement, hresolved⟩ := hresolved
      have hown := (Markup.declarations_of_elementOf? helement.resolved).1
      rw [hown] at hresolved
      have hnames : ∀ a ∈ allAttributes e, Markup.isXmlName a.1 = true := by
        intro a ha
        obtain ⟨b, hb, rfl⟩ := List.mem_map.1 ha
        exact hself.2 b hb
      -- the marks below are among those of the element
      have hbetween : AllWhole (marksOf ts) := fun s hs =>
        hwhole s (List.mem_cons_of_mem _ (List.mem_append_left _ hs))
      have hstands : (Markup.elementOf? ctx e.name.text (allAttributes e)).map
          Output.ElementName.ofElement = some (.ofElement e) :=
        congrArg _ helement.resolved
      exact ⟨⟨⟨hself.1, hnames, helement.distinct⟩, hstands,
        readable_treesPieces _ ts hbelow horderly.below hresolved hinside
          hbetween⟩, trivial⟩
    | text data => exact ⟨trivial, trivial⟩
    | cdata data => exact ⟨hwhole data List.mem_cons_self, trivial⟩
    | comment data => exact trivial
    | instruction target data => exact trivial
termination_by structural _ t => t

theorem readable_treesPieces : ∀ (ctx : Context) (ts : List Tree),
    (∀ t ∈ ts, t.Tidy) → (∀ t ∈ ts, t.content ≠ .document) →
    Tree.AllResolved ctx ts → (∀ t ∈ ts, t.Throughout Named) →
    AllWhole (marksOf ts) → ForestReadable ctx (treesPieces allAttributes ts)
  | _, [], _, _, _, _, _ => trivial
  | ctx, t :: ts, htidy, hdocument, ⟨hr, hresolved⟩, hnamed, hwhole => by
    obtain ⟨ht, htidy⟩ := List.forall_mem_cons.1 htidy
    obtain ⟨hd, hdocument⟩ := List.forall_mem_cons.1 hdocument
    obtain ⟨hn, hnamed⟩ := List.forall_mem_cons.1 hnamed
    have hfirst : AllWhole t.marks := fun s hs =>
      hwhole s (List.mem_append_left _ hs)
    have hrest : AllWhole (marksOf ts) := fun s hs =>
      hwhole s (List.mem_append_right _ hs)
    rw [treesPieces, Output.forestReadable_append]
    exact ⟨readable_treePieces ctx t ht hd hr hn hfirst,
      readable_treesPieces ctx ts htidy hdocument hresolved hnamed hrest⟩
termination_by structural _ ts => ts

end

/-- The pieces of a document whose names are names of XML are readable. -/
theorem readable_of_parse {source : List Char} {t : Tree}
    (h : Tree.parse source = .ok t) (hnamed : t.Throughout Named) :
    ForestReadable [[]] (documentPieces t) := by
  have hwhole : AllWhole t.marks := fun _ => Tree.whole_of_parse h
  obtain ⟨id, place, ts, rfl, htidy, hdocument, hresolved⟩ :=
    Tree.children_of_parse h
  exact readable_treesPieces [[]] ts htidy hdocument hresolved
    (Tree.throughout_node.1 hnamed).2 hwhole

/-- Formatting a document twice is formatting it once: let all names in a
document be names of XML. Under every option for white space its events are
written to a text that is parsed, and the events of what is parsed are written
under the same option to the same text. -/
theorem formatted_again (origin origin' : Origin) (source : String)
    (d : Document) (hd : Document.parse origin source = .ok d)
    (hnamed : ∀ n ∈ d.nodes, Named n.content) (ws : Whitespace)
    (declaration : Bool) :
    ∃ w d' w', Writer.acceptAll (documentEvents (documentPieces d.root))
        (.fresh .xml ws declaration none) = .ok () w
      ∧ Document.parse origin' w.text = .ok d'
      ∧ Writer.acceptAll (documentEvents (documentPieces d'.root))
          (.fresh .xml ws declaration none) = .ok () w'
      ∧ w'.text = w.text := by
  obtain ⟨-, hparse⟩ := Document.tree_of_parse hd
  have hreadable := readable_of_parse hparse (Document.forall_content.1 hnamed)
  obtain ⟨root, e, -, -, -, hpieces, hroot⟩ := pieces_of_parse hparse allAttributes
  have hpieces : documentPieces d.root = [.element (.ofElement e)
      (allAttributes e) (treesPieces allAttributes root.children)] :=
    hpieces.trans hroot
  rw [hpieces] at hreadable ⊢
  obtain ⟨w, t, w', hw, ht, hw', htext⟩ := Writer.written_again ws declaration
    _ _ _ hreadable.1
  refine ⟨w, ⟨origin', t⟩, w', hw, ?_, hw', htext⟩
  unfold Document.parse
  rw [ht]
  rfl

/-- A document with an element in front of text, text around a comment that
ends in a line feed, sections side by side, and an element between white space
alone. -/
def jumbledSource : String :=
  "<!DOCTYPE a>\n<a x='\"'>\n <b/>t<!--c-->u\n"
    ++ "<![CDATA[]]]]><![CDATA[>]]><d> <e>v\n</e></d></a>"

/-- The document of that source. -/
def jumbled : Document where
  origin := .given 0
  root :=
    .node ⟨0, ⟨1, 1⟩, .document⟩
      [.node ⟨1, ⟨2, 1⟩, .element
          ⟨.ofText "a", none, [⟨.ofText "x", none, "\""⟩], []⟩⟩
        [.node ⟨2, ⟨2, 10⟩, .text "\n "⟩ [],
          .node ⟨3, ⟨3, 2⟩, .element ⟨.ofText "b", none, [], []⟩⟩ [],
          .node ⟨4, ⟨3, 6⟩, .text "t"⟩ [],
          .node ⟨5, ⟨3, 7⟩, .comment "c"⟩ [],
          .node ⟨6, ⟨3, 15⟩, .text "u\n"⟩ [],
          .node ⟨7, ⟨4, 1⟩, .cdata "]]"⟩ [],
          .node ⟨8, ⟨4, 15⟩, .cdata ">"⟩ [],
          .node ⟨9, ⟨4, 28⟩, .element ⟨.ofText "d", none, [], []⟩⟩
            [.node ⟨10, ⟨4, 31⟩, .text " "⟩ [],
              .node ⟨11, ⟨4, 32⟩, .element ⟨.ofText "e", none, [], []⟩⟩
                [.node ⟨12, ⟨4, 35⟩, .text "v\n"⟩ []]]]]

/-- The white space that is put in is the same both times, in front of the text
and where there was other white space. -/
theorem jumbled_formatted_again :
    Document.parse (.given 0) jumbledSource = .ok jumbled
    ∧ (∀ n ∈ jumbled.nodes, Named n.content)
    ∧ ∃ w d' w', Writer.acceptAll (documentEvents (documentPieces jumbled.root))
        (.fresh .xml .indent false none) = .ok () w
      ∧ w.text = "<a x=\"&quot;\">\n  <b/>tu\n<![CDATA[]]]]><![CDATA[>]]>"
        ++ "<d>\n    <e>v\n</e>\n  </d></a>\n"
      ∧ Document.parse (.given 1) w.text = .ok d'
      ∧ Writer.acceptAll (documentEvents (documentPieces d'.root))
          (.fresh .xml .indent false none) = .ok () w'
      ∧ w'.text = w.text := by
  have hparse : Document.parse (.given 0) jumbledSource = .ok jumbled := by
    with_unfolding_all rfl
  have hnamed : ∀ n ∈ jumbled.nodes, Named n.content := by
    decide +kernel
  obtain ⟨w, d', w', hw, hread, hw', htext⟩ := formatted_again (.given 0)
    (.given 1) jumbledSource jumbled hparse hnamed .indent false
  obtain ⟨w₀, hw₀, htext₀⟩ := Writer.brings_laidOut .indent false _ _ _
  cases hw.symm.trans hw₀
  refine ⟨hparse, hnamed, w, d', w', hw, ?_, hread, hw', htext⟩
  rw [htext₀]
  decide +kernel

end Stencil.Template
