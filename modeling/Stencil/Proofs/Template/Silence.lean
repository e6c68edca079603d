/-
What contents put out.

Some directives put nothing out, and contents that are white space besides them
put out white space (`puts_silents`). A literal element among them comes out as
one element, or is left out (`puts_root`).
-/
import Stencil.Proofs.Output.Fronts
import Stencil.Proofs.Template.Alongside
import Stencil.Proofs.Template.Balance
import Stencil.Proofs.Template.Inversion
import Stencil.Proofs.Template.Merging

namespace Stencil.Template

open Markup (Node Origin Tree)
open Output (ElementName Event Front Fronted Piece Sink forestEvents)

variable {s : Settings (List Event)} {inner : Option (Inner (List Event))}
  {origin : Origin} {trail : List Tree} {ts : List Tree}

-- ============================================================ what is put out

/-- If the run goes well, it sends the events of such pieces. -/
def Puts (P : List Piece → Prop) (x : Run (List Event) Unit) : Prop :=
  ∀ m m', x m = .ok () m' →
    ∃ ps, P ps ∧ m'.output = m.output ++ forestEvents ps

variable {P Q R : List Piece → Prop} {x y : Run (List Event) Unit}

theorem puts_seq (hx : Puts P x) (hy : Puts Q y)
    (h : ∀ ps qs, P ps → Q qs → R (ps ++ qs)) :
    Puts R (x >>= fun _ => y) := by
  intro m m' hm
  obtain ⟨_, m₁, hm₁, hm⟩ := exists_of_bind_ok hm
  obtain ⟨ps, hps, hfirst⟩ := hx m m₁ hm₁
  obtain ⟨qs, hqs, hrest⟩ := hy m₁ m' hm
  refine ⟨ps ++ qs, h ps qs hps hqs, ?_⟩
  rw [hrest, hfirst, Output.forestEvents_append, List.append_assoc]

theorem puts_read {α : Type} {r : Reading α} {f : α → Run (List Event) Unit}
    (hf : ∀ a, Puts P (f a)) : Puts P (read r >>= f) := by
  intro m m' hm
  obtain ⟨a, -, hm⟩ := exists_of_read_ok hm
  exact hf a m m' hm

/-- What changes no output puts nothing out. -/
theorem puts_still (hx : Within Still x) (h : P []) : Puts P x := by
  intro m m' hm
  have hstill : Still m m' := hx.still hm
  exact ⟨[], h, hstill.output.trans (List.append_nil _).symm⟩

/-- Definitions put nothing out. -/
theorem puts_defineAll (ns : List Node) :
    Puts (fun ps => ps = []) (defineAll s ns) := by
  have hdefine (n : Node) : Puts (fun ps => ps = []) (define n) := by
    unfold define
    dsimp only
    split
    · intro m m' hm
      obtain ⟨scopes, -, rfl⟩ := onScope_ok hm
      exact ⟨[], rfl, (List.append_nil _).symm⟩
    · exact puts_still (still_fail _) rfl
  induction ns with
  | nil => exact puts_still still_skip rfl
  | cons n ns ih =>
    -- whether the first is a macro or not, nothing is sent for it
    have both {x : Run (List Event) Unit} (hx : Puts (fun ps => ps = []) x) :
        Puts (fun ps => ps = []) (x >>= fun _ => defineAll s ns) := by
      refine puts_seq hx ih ?_
      rintro _ _ rfl rfl
      rfl
    unfold defineAll
    split
    · exact both (hdefine n)
    · exact both (puts_still still_skip rfl)

-- =========================================================== silent contents

/-- Directives that put nothing out. -/
def Directive.isSilent : Directive → Bool
  | .definition | .failure | .assignment | .comment => true
  | _ => false

/-- Contents that put nothing out but white space. -/
def isSilent (uri : String) (t : Tree) : Bool :=
  match t.content with
  | .text data => Text.allBlank data
  | .cdata _ => false
  | .element _ =>
    (Directive.ofNode? uri ⟨.given 0, t, []⟩).any Directive.isSilent
  | _ => true

theorem hasExpression_blank {data : String} (h : Text.allBlank data = true) :
    Expr.hasExpression data = false := by
  refine Bool.eq_false_iff.2 fun hopen => ?_
  have hmem := (Text.occurs_iff.1 hopen).subset List.mem_cons_self
  exact absurd (List.all_eq_true.1 h _ hmem) (by decide)

/-- The machine with more put out. -/
def Machine.extended (m : Machine (List Event)) (ps : List Piece) :
    Machine (List Event) :=
  { m with output := m.output ++ forestEvents ps }

theorem Machine.extended_nil (m : Machine (List Event)) :
    m.extended [] = m := by
  unfold extended
  rw [forestEvents, List.append_nil]

/-- White space is put out as it is, and nothing comes of other contents that
are silent and no elements. -/
theorem idle_item (hs : s.sink = Sink.log) (n : Node)
    (h : isSilent s.uri n.tree = true) (hother : n.tree.isElement = false)
    (x : Run (List Event) Unit) :
    ∃ ps, Front ps
      ∧ ∀ m, item s n false false x m = .ok () (m.extended ps) := by
  obtain ⟨origin, ⟨⟨id, place, content⟩, us⟩, trail⟩ := n
  cases content with
  | element e => cases hother
  | cdata data => cases h
  | text data =>
    have hblank : Text.allBlank data = true := h
    let n : Node := ⟨origin, .node ⟨id, place, .text data⟩ us, trail⟩
    have hwords : item s n false false x = words s data := by
      show text s n (trimEnds false false data) = _
      rw [trimEnds_none, text_plain (hasExpression_blank hblank)]
    rw [hwords]
    unfold words
    split
    · exact ⟨[], .nil, fun m => by rw [m.extended_nil]; rfl⟩
    · exact ⟨[.text data], .text hblank .nil, send_log hs _⟩
  | _ => exact ⟨[], .nil, fun m => by rw [m.extended_nil]; rfl⟩

/-- To process an element is to perform it, with its contents below. -/
theorem element_eq_perform (s : Settings (List Event))
    (inner : Option (Inner (List Event))) (origin : Origin) (trail : List Tree)
    (t : Tree) :
    ∃ below, element s inner origin trail t
        = perform s inner ⟨origin, t, trail⟩ below
      ∧ below.contents false = contents s inner false ⟨origin, t, trail⟩ := by
  cases t
  exact ⟨_, rfl, rfl⟩

theorem item_element {n : Node} (he : n.tree.isElement = true)
    (hd : Directive.ofNode? s.uri n ≠ some .definition)
    (front back : Bool) (x : Run (List Event) Unit) :
    item s n front back x = x := by
  obtain ⟨origin, ⟨⟨id, place, content⟩, us⟩, trail⟩ := n
  cases content with
  | element e => exact if_neg hd
  | _ => cases he

theorem puts_directive {n : Node} {d : Directive} (h : d.isSilent = true)
    (below : Below (List Event)) : Puts Front (obey s inner n below d) := by
  cases d with
  | definition => exact puts_still still_skip .nil
  | comment => exact puts_still still_skip .nil
  | assignment => exact puts_still (still_assignment n) .nil
  | failure => exact puts_read fun _ => puts_still (still_fail _) .nil
  | _ => cases h

theorem puts_silent (hs : s.sink = Sink.log) {t : Tree}
    (h : isSilent s.uri t = true) :
    Puts Front (item s ⟨origin, t, trail⟩ false false
      (element s inner origin trail t)) := by
  cases he : t.isElement with
  | false =>
    obtain ⟨ps, hps, hitem⟩ := idle_item hs ⟨origin, t, trail⟩ h he
      (element s inner origin trail t)
    intro m m' hm
    rw [hitem] at hm
    cases hm
    exact ⟨ps, hps, rfl⟩
  | true =>
    obtain ⟨below, helement, -⟩ := element_eq_perform s inner origin trail t
    rw [helement]
    obtain ⟨⟨id, place, content⟩, us⟩ := t
    cases content with
    | element e =>
      -- an element is silent by being a directive that sends nothing
      obtain ⟨d, hd, hsilent⟩ := (Option.any_eq_true _ _).1 h
      have hd : Directive.ofNode? s.uri
          ⟨origin, .node ⟨id, place, .element e⟩ us, trail⟩ = some d := hd
      show Puts Front (if Directive.ofNode? s.uri _ = some .definition then
        pure () else _)
      split
      · exact puts_still still_skip .nil
      · refine puts_read fun b => ?_
        split
        · rw [hd]
          exact puts_directive hsilent below
        · exact puts_still still_skip .nil
    | _ => cases he

/-- Contents that are not trimmed are processed one after another. -/
theorem items_cons (s : Settings (List Event))
    (inner : Option (Inner (List Event))) (origin : Origin) (trail : List Tree)
    (t : Tree) (ts : List Tree) :
    items s inner origin trail false false (t :: ts)
      = (item s ⟨origin, t, trail⟩ false false (element s inner origin trail t)
        >>= fun _ => items s inner origin trail false false ts) := by
  rw [items]
  simp only [Bool.false_and, Bool.false_eq_true, if_false]

theorem puts_silents (hs : s.sink = Sink.log)
    (h : ∀ t ∈ ts, isSilent s.uri t = true) :
    Puts Front (items s inner origin trail false false ts) := by
  induction ts with
  | nil => exact puts_still still_skip .nil
  | cons t ts ih =>
    obtain ⟨ht, hts⟩ := List.forall_mem_cons.1 h
    rw [items_cons]
    exact puts_seq (puts_silent hs ht) (ih hts) fun _ _ => Front.append

-- ============================================================== root elements

/-- The tree is a literal element. -/
def isLiteral (uri : String) (t : Tree) : Bool :=
  t.isElement && (Directive.ofNode? uri ⟨.given 0, t, []⟩).isNone

/-- What is sent in a run is whole pieces. -/
theorem puts_emitted (h : Emits id x) : Puts (fun _ => True) x := by
  intro m m' hm
  obtain ⟨es, hadds⟩ := h m
  rw [hm] at hadds
  obtain ⟨hsent, ps, rfl⟩ := hadds
  exact ⟨ps, trivial, hsent⟩

/-- Nothing, or an element. -/
def AtMostElement (ps : List Piece) : Prop :=
  ps = [] ∨ ∃ name attributes children, ps = [.element name attributes children]

theorem puts_enclosed (hs : s.sink = Sink.log) (hx : Emits id x)
    (name : ElementName) (attributes : List (String × String)) :
    Puts AtMostElement
      (do send s (.start name attributes); x; send s (.stop name)) := by
  intro m m' hm
  obtain ⟨_, m₁, hstart, hm⟩ := exists_of_bind_ok hm
  obtain ⟨_, m₂, hinside, hstop⟩ := exists_of_bind_ok hm
  obtain ⟨ps, -, hps⟩ := puts_emitted hx m₁ m₂ hinside
  rw [send_log hs] at hstart hstop
  cases hstart
  cases hstop
  refine ⟨[.element name attributes ps], .inr ⟨_, _, _, rfl⟩, ?_⟩
  simp [hps, forestEvents, Piece.events]

/-- A literal element is put out as an element, or left out. -/
theorem puts_literal (hs : s.sink = Sink.log) {t : Tree}
    (h : isLiteral s.uri t = true) (room : Nat) :
    Puts AtMostElement (item s ⟨origin, t, trail⟩ false false
      (element s (inner? s room) origin trail t)) := by
  obtain ⟨helement, hnone⟩ := Bool.and_eq_true_iff.1 h
  have hnone : Directive.ofNode? s.uri ⟨origin, t, trail⟩ = none :=
    Option.isNone_iff_eq_none.1 hnone
  obtain ⟨e, he⟩ := Option.isSome_iff_exists.1 helement
  have shows : Shows id s.sink := by
    intro o event
    rw [hs]
    rfl
  have c := emits_congruence shows
  obtain ⟨below, hperform, hbelow⟩ :=
    element_eq_perform s (inner? s room) origin trail t
  have hitem : item s ⟨origin, t, trail⟩ false false
      (element s (inner? s room) origin trail t)
      = perform s (inner? s room) ⟨origin, t, trail⟩ below := by
    rw [item_element helement (hnone ▸ (Option.some_ne_none _).symm), hperform]
  rw [hitem]
  refine puts_read fun b => ?_
  split
  · rw [hnone]
    show Puts _ (literal s _ (below.contents false))
    rw [hbelow]
    unfold literal
    have he : (⟨origin, t, trail⟩ : Node).element? = some e := he
    rw [he]
    refine puts_read fun attributes => ?_
    exact puts_enclosed hs (c.contents (c.inner room) false _) _ _
  · exact puts_still still_skip (.inl rfl)

/-- Behind the root element nothing is put out but white space. -/
theorem puts_root (hs : s.sink = Sink.log) {t : Tree}
    (h : isLiteral s.uri t = true) (hsilent : ∀ t ∈ ts, isSilent s.uri t = true)
    (room : Nat) :
    Puts Fronted
      (items s (inner? s room) origin trail false false (t :: ts)) := by
  rw [items_cons]
  refine puts_seq (puts_literal hs h room) (puts_silents hs hsilent) ?_
  rintro _ qs (rfl | ⟨name, attributes, children, rfl⟩) hqs
  · exact ⟨qs, [], (List.append_nil qs).symm, hqs, trivial, nofun⟩
  · exact ⟨[], _, rfl, .nil, rfl, hqs.outside⟩

end Stencil.Template
