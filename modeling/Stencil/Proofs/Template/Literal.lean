/-
Templates without directives are written as they are.

Where no element and no attribute is of the reserved namespace, and no text
and no attribute value holds an expression, nothing is looked up, bound or
trimmed. A run then does nothing but send: `Sends` says which events, and that
the rest of the machine stays as it is.
-/
import Stencil.Output.Fragment
import Stencil.Proofs.Expr.Splicing
import Stencil.Proofs.Markup.Resolved
import Stencil.Proofs.Output.Delivery
import Stencil.Proofs.Template.Outcome
import Stencil.Template.Interpreter

namespace Stencil.Template

open Markup (Content Element Node Origin Document Tree)
open Output (Event ElementName forestEvents forestEvents_append treePieces
  treesPieces)

variable {σ : Type} {s : Settings σ} {x y : Run σ Unit} {es fs : List Event}

-- ================================================================= sending

/-- A run that sends these events to an output that takes them, and changes
nothing else. -/
def Sends (s : Settings σ) (x : Run σ Unit) (es : List Event) : Prop :=
  ∀ m, ∃ o, s.sink.deliver m.output es = (o, none)
    ∧ x m = .ok () { m with output := o }

theorem sends_skip : Sends s (pure ()) [] :=
  fun m => ⟨m.output, rfl, rfl⟩

theorem sends_seq (hx : Sends s x es) (hy : Sends s y fs) :
    Sends s (x >>= fun _ => y) (es ++ fs) := by
  intro m
  obtain ⟨o₁, ho₁, hm₁⟩ := hx m
  obtain ⟨o₂, ho₂, hm₂⟩ := hy { m with output := o₁ }
  refine ⟨o₂, ?_, ?_⟩
  · rw [Output.Sink.deliver_append_of_accepted ho₁]
    exact ho₂
  · rw [bind_ok hm₁]
    exact hm₂

/-- Reading what is the same in any scope. -/
theorem sends_read {α : Type} {r : Reading α} {a : α} {f : α → Run σ Unit}
    (hr : ∀ env, r env = .ok a) (hf : Sends s (f a) es) :
    Sends s (read r >>= f) es := by
  intro m
  rw [bind_ok (read_ok (hr _))]
  exact hf m

theorem sends_send (hs : s.sink.Accepting) (e : Event) :
    Sends s (send s e) [e] := by
  intro m
  have hsend : s.sink.send m.output e = ((s.sink.send m.output e).1, none) :=
    Prod.ext rfl (hs m.output e)
  refine ⟨_, Output.Sink.deliver_cons_of_accepted hsend, ?_⟩
  unfold send
  rw [hsend]

theorem sends_sendAll (hs : s.sink.Accepting) (es : List Event) :
    Sends s (sendAll s es) es := by
  induction es with
  | nil => exact sends_skip
  | cons e es ih => exact sends_seq (sends_send hs e) ih

-- ==================================================================== inert

/-- A node that is no directive, has no reserved attribute and holds no
expression. -/
def Inert (uri : String) : Content → Prop
  | .element e =>
    e.uri ≠ some uri
      ∧ ∀ a ∈ e.attributes, a.uri ≠ some uri ∧ Expr.hasExpression a.value = false
  | .text data => Expr.hasExpression data = false
  | _ => True

instance (uri : String) : DecidablePred (Inert uri)
  | .element e =>
    inferInstanceAs (Decidable (e.uri ≠ some uri ∧ ∀ a ∈ e.attributes,
      a.uri ≠ some uri ∧ Expr.hasExpression a.value = false))
  | .text data => inferInstanceAs (Decidable (Expr.hasExpression data = false))
  | .document => isTrue trivial
  | .cdata _ => isTrue trivial
  | .comment _ => isTrue trivial
  | .instruction _ _ => isTrue trivial

/-- The attributes of an element, in order, less empty ones and declarations
of the reserved namespace. -/
def ownAttributes (uri : String) (e : Element) : List (String × String) :=
  (e.attributes.filter fun a =>
    !a.value.isEmpty && !(a.isDeclaration && a.value == uri)).map fun a =>
      (a.name.text, a.value)

/-- A text without expressions is taken as it is. -/
theorem substitute_plain {text : String}
    (h : Expr.hasExpression text = false) (env : Expr.Environment) :
    Expr.substitute env text = .ok text := by
  have hnone : Text.breakOn? Expr.opener text.toList = none := by
    unfold Text.breakOn?
    unfold Expr.hasExpression Text.occurs at h
    rw [Option.map_eq_none_iff]
    exact Option.isSome_eq_false_iff.1 h |> Option.isNone_iff_eq_none.1
  unfold Expr.substitute
  rw [Expr.substituteFrom_none hnone]
  exact congrArg Except.ok String.ofList_toList

section

variable {n : Node} {e : Element}

theorem ofNode?_inert (hn : Inert s.uri n.content) :
    Directive.ofNode? s.uri n = none := by
  unfold Directive.ofNode? Node.element?
  cases hc : n.content with
  | element e =>
    rw [hc] at hn
    exact if_neg hn.1
  | _ => rfl

theorem included_inert (hn : Inert s.uri n.content) (env : Expr.Environment) :
    included s.uri n env = .ok true := by
  have hnone : n.attributeIn? s.uri "if" = none := by
    unfold Node.attributeIn? Node.element?
    cases hc : n.content with
    | element e =>
      rw [hc] at hn
      refine List.find?_eq_none.2 fun a ha hfound => (hn.2 a ha).1 ?_
      simpa using (Bool.and_eq_true_iff.1 hfound).1
    | _ => rfl
  unfold included
  rw [hnone]
  rfl

theorem literalAttributes_inert (hn : Inert s.uri (.element e))
    (env : Expr.Environment) :
    literalAttributes s.uri n e.attributes env
      = .ok (ownAttributes s.uri e) := by
  obtain ⟨-, hall⟩ := hn
  unfold ownAttributes
  generalize e.attributes = attributes at hall ⊢
  induction attributes with
  | nil => rfl
  | cons a rest ih =>
    obtain ⟨⟨huri, hplain⟩, hrest⟩ := List.forall_mem_cons.1 hall
    have ih := ih hrest
    -- an inert element has no attributes of directives, so only the
    -- declaration is left out
    have hreserved : isReserved s.uri a
        = (a.isDeclaration && a.value == s.uri) := by
      unfold isReserved
      cases a.isDeclaration with
      | true => rfl
      | false => exact beq_eq_false_iff_ne.2 huri
    have hvalue : literalValue n a env = .ok a.value := by
      show (Expr.substitute env a.value).mapError _ = _
      rw [substitute_plain hplain]
      rfl
    rw [literalAttributes, hreserved, List.filter_cons]
    cases a.isDeclaration && a.value == s.uri with
    | true =>
      rw [if_pos rfl, ih]
      simp
    | false =>
      rw [if_neg Bool.false_ne_true]
      show (literalValue n a env >>= fun value =>
        literalAttributes s.uri n rest env >>= fun others => _) = _
      rw [hvalue, ih]
      cases ha : a.value.isEmpty with
      | true => simp [ha, bind, Except.bind, pure, ReaderT.pure, Except.pure]
      | false => simp [ha, bind, Except.bind, pure, ReaderT.pure, Except.pure]

end

-- ================================================================ elements

theorem defineAll_inert {ns : List Node}
    (hns : ∀ n ∈ ns, Inert s.uri n.content) : Sends s (defineAll s ns) [] := by
  induction ns with
  | nil => exact sends_skip
  | cons n ns ih =>
    obtain ⟨hn, hns⟩ := List.forall_mem_cons.1 hns
    rw [defineAll, if_neg (by rw [ofNode?_inert hn]; exact nofun)]
    exact ih hns

/-- A text is sent as it is. -/
theorem sends_text (hs : s.sink.Accepting) {n : Node} {data : String}
    (hplain : Expr.hasExpression data = false) (hfilled : data ≠ "") :
    Sends s (text s n data) [.characters data] := by
  have hempty : ¬ data.isEmpty = true := fun h => hfilled (String.isEmpty_iff.1 h)
  unfold text
  rw [if_neg hempty]
  refine sends_read (a := data) (fun env => ?_) (sends_send hs _)
  show (Expr.substitute env data).mapError _ = _
  rw [substitute_plain hplain]
  rfl

theorem trimEnds_none (data : String) : trimEnds false false data = data :=
  String.ofList_toList

section

variable (hs : s.sink.Accepting) (inner : Option (Inner σ)) (origin : Origin)
include hs

mutual

/-- An element is sent with all that is in it. -/
theorem sends_element (trail : List Tree) : ∀ t : Tree, t.Tidy →
    t.Throughout (Inert s.uri) → t.isElement = true →
    Sends s (element s inner origin trail t)
      (forestEvents (treePieces (ownAttributes s.uri) t))
  | .node ⟨id, place, content⟩ ts, htidy, hinert, helement => by
    obtain ⟨horderly, hbelow⟩ := Tree.tidy_node.1 htidy
    obtain ⟨hself, hinside⟩ := Tree.throughout_node.1 hinert
    cases content with
    | element e =>
      -- children that are inert are no macros, so nothing is defined
      have hmacros : Sends s
          (defineAll s (Node.children ⟨origin, .node ⟨id, place, .element e⟩ ts,
            trail⟩)) [] := by
        refine defineAll_inert fun n hn => ?_
        obtain ⟨t, ht, rfl⟩ := List.mem_map.1 hn
        exact (hinside _ ht).self
      have hcontents := sends_items
        (.node ⟨id, place, .element e⟩ ts :: trail) ts hbelow
        horderly.below hinside
      rw [element]
      unfold perform
      refine sends_read (a := true) (included_inert hself) ?_
      rw [if_pos rfl, ofNode?_inert hself]
      have hevents : forestEvents (treePieces (ownAttributes s.uri)
            (.node ⟨id, place, .element e⟩ ts))
          = [.start (.ofElement e) (ownAttributes s.uri e)]
            ++ (([] ++ forestEvents (treesPieces (ownAttributes s.uri) ts))
              ++ [.stop (.ofElement e)]) := by
        simp [treePieces, forestEvents, Output.Piece.events]
      rw [hevents]
      refine sends_read (literalAttributes_inert hself) ?_
      refine sends_seq (sends_send hs _) ?_
      exact sends_seq (sends_seq hmacros hcontents) (sends_send hs _)
    | _ => cases helement
termination_by structural t => t

/-- Contents that are not trimmed are sent in order. -/
theorem sends_items (trail : List Tree) : ∀ ts : List Tree,
    (∀ t ∈ ts, t.Tidy) → (∀ t ∈ ts, t.content ≠ .document) →
    (∀ t ∈ ts, t.Throughout (Inert s.uri)) →
    Sends s (items s inner origin trail false false ts)
      (forestEvents (treesPieces (ownAttributes s.uri) ts))
  | [], _, _, _ => sends_skip
  | t :: ts, htidy, hdocument, hinert => by
    obtain ⟨ht, htidy⟩ := List.forall_mem_cons.1 htidy
    obtain ⟨hd, hdocument⟩ := List.forall_mem_cons.1 hdocument
    obtain ⟨hi, hinert⟩ := List.forall_mem_cons.1 hinert
    have helement := sends_element trail t ht hi
    have hrest := sends_items trail ts htidy hdocument hinert
    rw [treesPieces, forestEvents_append, items]
    refine sends_seq ?_ hrest
    have hfilled := (ht t (by cases t; exact List.mem_cons_self)).filled
    have hself := hi.self
    obtain ⟨⟨id, place, content⟩, us⟩ := t
    unfold item
    cases content with
    | document => exact absurd rfl hd
    | element e =>
      have hno : Directive.ofNode? s.uri
          ⟨origin, .node ⟨id, place, .element e⟩ us, trail⟩
          ≠ some .definition := by
        rw [ofNode?_inert hself]
        exact nofun
      show Sends s (if _ = _ then _ else _) _
      rw [if_neg hno]
      exact helement rfl
    | text data =>
      -- a parsed text is never empty, so there is an event for it
      have hne : data ≠ "" := fun he => hfilled (congrArg Content.text he)
      show Sends s (text s _ (trimEnds false false data)) _
      rw [trimEnds_none]
      exact sends_text hs hself hne
    | cdata data => exact sends_sendAll hs (cdata data)
    | comment data => exact sends_skip
    | instruction target data => exact sends_skip
termination_by structural ts => ts

end

end

-- =============================================================== documents

theorem treesPieces_append (attributes : Element → List (String × String))
    (us vs : List Tree) :
    treesPieces attributes (us ++ vs)
      = treesPieces attributes us ++ treesPieces attributes vs := by
  induction us with
  | nil => rfl
  | cons u us ih =>
    rw [List.cons_append, treesPieces, treesPieces, ih, List.append_assoc]

/-- Remarks are no elements, and nothing is sent of them. -/
theorem pieces_remark {u : Tree} (h : u.content.IsRemark)
    (attributes : Element → List (String × String)) :
    u.isElement = false ∧ treePieces attributes u = [] := by
  obtain ⟨⟨id, place, content⟩, us⟩ := u
  rcases h with ⟨_, hc⟩ | ⟨_, _, hc⟩ <;> cases hc <;> exact ⟨rfl, rfl⟩

theorem pieces_remarks {us : List Tree} (h : ∀ u ∈ us, u.content.IsRemark)
    (attributes : Element → List (String × String)) :
    treesPieces attributes us = [] := by
  induction us with
  | nil => rfl
  | cons u us ih =>
    obtain ⟨hu, hus⟩ := List.forall_mem_cons.1 h
    rw [treesPieces, (pieces_remark hu attributes).2, ih hus]
    rfl

/-- The pieces of a document are those of its root element. -/
theorem exists_root {source : List Char} {t : Tree}
    (h : Tree.parse source = .ok t)
    (attributes : Element → List (String × String)) :
    ∃ root ∈ t.children, t.children.find? Tree.isElement = some root
      ∧ treePieces attributes t = treePieces attributes root := by
  obtain ⟨before, root, after, hsplit, hroot, hremarks⟩ := Tree.root_of_parse h
  obtain ⟨hbefore, hafter⟩ := List.forall_mem_append.1 hremarks
  refine ⟨root, ?_, ?_, ?_⟩
  · rw [hsplit]
    exact List.mem_append_right _ List.mem_cons_self
  · have hnone : before.find? Tree.isElement = none :=
      List.find?_eq_none.2 fun u hu => by
        rw [(pieces_remark (hbefore u hu) attributes).1]
        exact Bool.false_ne_true
    rw [hsplit, List.find?_append, hnone, List.find?_cons_of_pos hroot]
    rfl
  · have hdocument := (Tree.built_of_parse h).content
    obtain ⟨⟨id, place, content⟩, ts⟩ := t
    cases hdocument
    cases hsplit
    show treesPieces attributes (before ++ root :: after) = _
    rw [treesPieces_append, treesPieces, pieces_remarks hbefore,
      pieces_remarks hafter, List.nil_append, List.append_nil]

/-- The root of a document that has nothing to do with the reserved namespace
and holds no expression is processed, in any state and for any output that
takes everything, by sending the document's own events: every element with its
attributes in order, every text and every section as it is. Nothing else of
the machine changes. -/
theorem literal_reproduced (origin : Origin) (source : String) (d : Document)
    (hd : Document.parse origin source = .ok d) (s : Settings σ)
    (hs : s.sink.Accepting) (hinert : ∀ n ∈ d.nodes, Inert s.uri n.content)
    (inner : Option (Inner σ)) (m : Machine σ) :
    ∃ root o, d.rootElement? = some root
      ∧ s.sink.deliver m.output
          (forestEvents (treePieces (ownAttributes s.uri) d.root)) = (o, none)
      ∧ execute s inner root m = .ok () { m with output := o } := by
  obtain ⟨-, hparse⟩ := Document.tree_of_parse hd
  obtain ⟨root, hmem, hfind, hpieces⟩ :=
    exists_root hparse (ownAttributes s.uri)
  have hall : d.root.Throughout (Inert s.uri) := Document.forall_content.1 hinert
  have htidy := (Tree.built_of_parse hparse).tidy.child hmem
  have hall := hall.child hmem
  have hself : Inert s.uri root.content := hall.self
  obtain ⟨o, ho, hm⟩ := sends_element hs inner d.origin [d.root] root htidy hall
    (List.find?_some hfind) m
  refine ⟨d.node.below root, o, Document.rootElement?_eq hfind, ?_, ?_⟩
  · rw [hpieces]
    exact ho
  · have hno : Directive.ofNode? s.uri (d.node.below root)
        ≠ some .template := by
      rw [ofNode?_inert hself]
      exact nofun
    unfold execute
    rw [if_neg hno]
    exact hm

/-- A document with an empty attribute, a declaration of the namespace `u`, a
comment, white space, and a section with what would be an expression in a
text. -/
def plainSource : String :=
  "<a xmlns:t='u' x='' y='1'><!--c--> <b/><![CDATA[$\x7b]]></a>"

/-- The document of that source. -/
def plain : Document where
  origin := .given 0
  root :=
    .node ⟨0, ⟨1, 1⟩, .document⟩
      [.node ⟨1, ⟨1, 1⟩, .element
          ⟨.ofText "a", none,
            [⟨.ofText "xmlns:t", some Markup.declarationUri, "u"⟩,
              ⟨.ofText "x", none, ""⟩, ⟨.ofText "y", none, "1"⟩],
            [(some "t", "u")]⟩⟩
        [.node ⟨2, ⟨1, 27⟩, .comment "c"⟩ [],
          .node ⟨3, ⟨1, 35⟩, .text " "⟩ [],
          .node ⟨4, ⟨1, 36⟩, .element ⟨.ofText "b", none, [], []⟩⟩ [],
          .node ⟨5, ⟨1, 40⟩, .cdata "$\x7b"⟩ []]]

/-- The comment, the empty attribute and the declaration are left out, all else
is sent. -/
theorem plain_reproduced :
    let s : Settings (List Event) := ⟨"u", Output.Sink.log, .memory [], 0⟩
    let m : Machine (List Event) :=
      ⟨.single (.fresh plain.node none), 0, .empty, []⟩
    let a : ElementName := ⟨none, "a", "a"⟩
    let b : ElementName := ⟨none, "b", "b"⟩
    Document.parse (.given 0) plainSource = .ok plain
    ∧ (∀ n ∈ plain.nodes, Inert s.uri n.content)
    ∧ ∃ root, plain.rootElement? = some root
      ∧ execute s none root m = .ok ()
        { m with
          output := [.start a [("y", "1")], .characters " ", .start b [],
            .stop b, .startCData, .characters "$\x7b", .endCData, .stop a] } := by
  intro s m a b
  have hparse : Document.parse (.given 0) plainSource = .ok plain := by
    with_unfolding_all rfl
  have hinert : ∀ n ∈ plain.nodes, Inert s.uri n.content := by
    decide +kernel
  obtain ⟨root, o, hroot, ho, hm⟩ := literal_reproduced (.given 0) plainSource
    plain hparse s Output.Sink.accepting_log hinert none m
  refine ⟨hparse, hinert, root, hroot, ?_⟩
  rw [hm]
  cases ho
  rfl

end Stencil.Template
