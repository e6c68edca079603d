/-
Places are no part of what is parsed.

The offset of an event becomes the place of a node or of a fault and is not
looked at otherwise: without their places, two builders react to the same events
alike, wherever these stand (`run_placeless`). So what stands before a document
and comes to nothing moves the nodes of the document, and that is all
(`parse_behind`).
-/
import Stencil.Proofs.Markup.Scanning

namespace Stencil.Markup

open Text (width)

-- ================================================================== places

/-- The place that stands for all others. -/
def nowhere : Location := ⟨1, 1⟩

mutual

/-- A tree without the places of its nodes. -/
def Tree.placeless : Tree → Tree
  | .node label ts => .node { label with place := nowhere } (allPlaceless ts)

def Tree.allPlaceless : List Tree → List Tree
  | [] => []
  | t :: ts => Tree.placeless t :: allPlaceless ts

end

theorem Tree.allPlaceless_eq_map (ts : List Tree) :
    Tree.allPlaceless ts = ts.map Tree.placeless := by
  induction ts with
  | nil => rfl
  | cons t ts ih => rw [allPlaceless, ih, List.map_cons]

theorem Tree.isElement_placeless (t : Tree) :
    t.placeless.isElement = t.isElement := by
  cases t
  rfl

/-- A fault of a document without its place. -/
def Error.placeless : Error → Error
  | .markup fault _ => .markup fault nowhere
  | .unboundPrefix qualifier _ => .unboundPrefix qualifier nowhere
  | .unknownEntity name _ => .unknownEntity name nowhere
  | e => e

/-- What comes out, without places; `f` takes them from what is wanted. -/
def placeless {α : Type} (f : α → α) : Except Error α → Except Error α
  | .ok a => .ok (f a)
  | .error e => .error e.placeless

/-- Two steps without places are the two without theirs. -/
theorem placeless_bind {α β : Type} {f : α → α} {g : β → β}
    {r r' : Except Error α} {k k' : α → Except Error β}
    (hr : placeless f r = r') (hk : ∀ a, placeless g (k a) = k' (f a)) :
    placeless g (r >>= k) = r' >>= k' := by
  subst hr
  cases r with
  | error e => rfl
  | ok a => exact hk a

-- ================================================================ builders

def Frame.placeless (f : Frame) : Frame :=
  ⟨{ f.label with place := nowhere }, f.children.map Tree.placeless⟩

theorem Frame.close_placeless (f : Frame) :
    f.placeless.close = f.close.placeless := by
  unfold placeless close
  rw [Tree.placeless, Tree.allPlaceless_eq_map, List.map_reverse]

namespace Builder

/-- A builder that knows no places. -/
def placeless (b : Builder) : Builder :=
  ⟨b.current.placeless, b.outer.map Frame.placeless, b.next⟩

variable (b : Builder)

theorem atTop_placeless : b.placeless.atTop = b.atTop := by
  unfold placeless atTop
  exact List.isEmpty_map

theorem hasRoot_placeless : b.placeless.hasRoot = b.hasRoot := by
  have hsame : Tree.isElement ∘ Tree.placeless = Tree.isElement :=
    funext Tree.isElement_placeless
  unfold hasRoot
  rw [atTop_placeless]
  show (b.atTop && (b.current.children.map Tree.placeless).any Tree.isElement)
    = _
  rw [List.any_map, hsame]

theorem resolve?_placeless (own : Declarations) (q : Option String) :
    b.placeless.resolve? own q = b.resolve? own q := by
  have houter : b.placeless.outer.map Frame.declarations
      = b.outer.map Frame.declarations := List.map_map
  unfold resolve?
  rw [houter]
  rfl

theorem qualify_placeless (own : Declarations) (place : Location)
    (a : String × String) :
    Markup.placeless id (b.qualify own place a)
      = b.placeless.qualify own nowhere a := by
  unfold qualify
  dsimp only
  split
  · rfl
  · cases (Name.ofText a.1).qualifier with
    | none => rfl
    | some q =>
      dsimp only
      rw [resolve?_placeless]
      cases b.resolve? own (some q) <;> rfl

theorem qualify_all_placeless (own : Declarations) (place : Location)
    (raw : List (String × String)) :
    Markup.placeless id (raw.mapM (b.qualify own place))
      = raw.mapM (b.placeless.qualify own nowhere) := by
  induction raw with
  | nil => rfl
  | cons a raw ih =>
    rw [List.mapM_cons, List.mapM_cons]
    exact placeless_bind (b.qualify_placeless own place a) fun _ =>
      placeless_bind ih fun _ => rfl

theorem element_placeless (place : Location) (tag : List Char) :
    Markup.placeless id (b.element place tag)
      = b.placeless.element nowhere tag := by
  unfold element
  refine placeless_bind (f := id) ?_ fun raw => ?_
  · cases readAttributes tag <;> rfl
  · dsimp only [id]
    rw [resolve?_placeless]
    split
    · rfl
    · exact placeless_bind (b.qualify_all_placeless _ place raw) fun _ => rfl

-- ================================================================== events

theorem addText_placeless (place : Location) (s : String) :
    (b.addText place s).placeless = b.placeless.addText nowhere s := by
  obtain ⟨⟨label, children⟩, outer, next⟩ := b
  cases children with
  | nil => rfl
  | cons t rest =>
    obtain ⟨⟨id, first, content⟩, ts⟩ := t
    cases content <;> rfl

theorem text_placeless (place : Location) (s : String) :
    Markup.placeless placeless (b.text place s)
      = b.placeless.text nowhere s := by
  unfold text
  rw [atTop_placeless, ← addText_placeless]
  split
  · rfl
  · split
    · split <;> rfl
    · rfl

theorem stop_placeless (place : Location) (name : String) :
    Markup.placeless placeless (b.stop place name)
      = b.placeless.stop nowhere name := by
  obtain ⟨⟨⟨id, first, content⟩, children⟩, outer, next⟩ := b
  cases outer with
  | nil => cases content <;> rfl
  | cons f fs =>
    cases content with
    | element e =>
      let current : Frame := ⟨⟨id, first, .element e⟩, children⟩
      have hclosed : placeless ⟨f.push current.close, fs, next⟩
          = ⟨f.placeless.push current.placeless.close, fs.map Frame.placeless,
            next⟩ := by
        rw [Frame.close_placeless]
        rfl
      show Markup.placeless placeless (if e.name.text = name then _ else _)
        = if e.name.text = name then _ else _
      split
      · exact congrArg Except.ok hclosed
      · rfl
    | _ => rfl

/-- The place of an event is the place of its node, or of its fault. -/
theorem feed_placeless (place : Location) (e : Event) :
    Markup.placeless placeless (b.feed place e)
      = b.placeless.feed nowhere e := by
  cases e with
  | start tag empty =>
    rw [feed, feed, hasRoot_placeless]
    split
    · rfl
    · refine placeless_bind (b.element_placeless place tag) fun e => ?_
      cases empty <;> rfl
  | stop name => exact b.stop_placeless place name
  | text s => exact b.text_placeless place s
  | reference name =>
    rw [feed, feed]
    cases referenced? name with
    | none => rfl
    | some c => exact b.text_placeless place _
  | cdata s =>
    rw [feed, feed, atTop_placeless]
    split <;> rfl
  | comment s => rfl
  | instruction target data => rfl

/-- The events alone, with no places. -/
def feedAll (b : Builder) : List Event → Except Error Builder
  | [] => .ok b
  | e :: es => b.feed nowhere e >>= fun b => b.feedAll es

theorem feedAll_append (es fs : List Event) :
    b.feedAll (es ++ fs) = b.feedAll es >>= fun b => b.feedAll fs := by
  induction es generalizing b with
  | nil => rfl
  | cons e es ih =>
    rw [List.cons_append, feedAll, feedAll]
    cases b.feed nowhere e with
    | error fault => rfl
    | ok b => exact ih b

theorem run_placeless (starts : List Nat) (es : List Placed) :
    Markup.placeless placeless (b.run starts es)
      = b.placeless.feedAll (es.map Placed.event) := by
  induction es generalizing b with
  | nil => rfl
  | cons e es ih =>
    exact placeless_bind (b.feed_placeless _ e.event) ih

theorem finish_placeless :
    Markup.placeless Tree.placeless b.finish = b.placeless.finish := by
  have htop : Markup.placeless Tree.placeless
      (if b.hasRoot then .ok b.current.close else .error .noRoot)
      = if b.placeless.hasRoot then .ok b.placeless.current.close
        else .error .noRoot := by
    rw [hasRoot_placeless]
    split
    · exact congrArg Except.ok (Frame.close_placeless _).symm
    · rfl
  obtain ⟨⟨⟨id, place, content⟩, children⟩, outer, next⟩ := b
  cases content with
  | element e => rfl
  | _ => exact htop

end Builder

-- ================================================================ scanning

/-- Where a text stands is the offset of its events, and nothing else. -/
theorem scanFrom_events (pos pos' : Nat) (s : List Char) :
    (scanFrom pos s).events.map Placed.event
        = (scanFrom pos' s).events.map Placed.event
      ∧ (scanFrom pos s).failure.map Prod.snd
        = (scanFrom pos' s).failure.map Prod.snd := by
  induction pos, s using scanFrom.induct generalizing pos' with
  | case1 pos =>
    rw [scanFrom, scanFrom]
    exact ⟨rfl, rfl⟩
  | case2 pos c s fault h =>
    rw [scanFrom, scanFrom, h]
    exact ⟨rfl, rfl⟩
  | case3 pos c s n e h ih =>
    obtain ⟨hevents, hfailure⟩ := ih (pos' + width (c :: s.take n))
    rw [scanFrom, scanFrom, h]
    exact ⟨congrArg (e :: ·) hevents, hfailure⟩
  | case4 pos c s n h ih =>
    rw [scanFrom, scanFrom, h]
    exact ih _

/-- The tree of a scan, if places are no matter. -/
def Scan.bare (s : Scan) : Except Error Tree := do
  let b ← Builder.start.feedAll (s.events.map Placed.event)
  match s.failure.map Prod.snd with
  | some fault => .error (.markup fault nowhere)
  | none => b.finish

theorem parse_placeless (source : List Char) :
    placeless Tree.placeless (Tree.parse source) = (scan source).bare := by
  refine placeless_bind (Builder.start.run_placeless _ _) fun b => ?_
  rcases (scan source).failure with _ | ⟨pos, fault⟩
  · exact b.finish_placeless
  · rfl

/-- What stands before a document and comes to nothing moves its nodes, and does
no more. -/
theorem parse_behind {before source : List Char}
    (hidle : Leads Stops before Idle) (hstops : Stops source)
    (hmark : withoutMark (before ++ source) = before ++ source)
    (hmark' : withoutMark source = source) :
    placeless Tree.placeless (Tree.parse (before ++ source))
      = placeless Tree.placeless (Tree.parse source) := by
  obtain ⟨placed, hscan, hrun⟩ := hidle 0 source hstops
  obtain ⟨hevents, hfailure⟩ := scanFrom_events (0 + width before) 0 source
  have hnothing : Builder.start.feedAll (placed.map Placed.event)
      = .ok Builder.start := by
    have hstart := congrArg (placeless Builder.placeless)
      (hrun [] Builder.start rfl)
    rw [Builder.run_placeless] at hstart
    exact hstart
  rw [parse_placeless, parse_placeless]
  unfold scan Scan.bare
  rw [hmark, hmark', hscan]
  unfold Scan.behind
  dsimp only
  rw [List.map_append, Builder.feedAll_append, hnothing, hevents, hfailure]
  rfl

end Stencil.Markup
