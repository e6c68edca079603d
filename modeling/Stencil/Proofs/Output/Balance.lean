/-
Events as brackets.

The names of the elements that are open after some events are found from the
events alone. Balanced events open nothing that they do not close, and the
beginning of what is balanced closes nothing that it has not opened. The
writer has the same elements open, so of events that are nested it refuses
none, unless its destination does.
-/
import Stencil.Output.Forest
import Stencil.Proofs.Output.Delivery

namespace Stencil.Output

/-- The names open after an event, if it may stand where `names` are open,
innermost first. A document ends with no name open. -/
def nest (names : List String) : Event → Option (List String)
  | .start name _ => some (name.qualified :: names)
  | .stop name =>
    match names with
    | [] => none
    | n :: ns => if n = name.qualified then some ns else none
  | .endDocument => if names.isEmpty then some names else none
  | _ => some names

/-- The names open after events. -/
def nestAll (names : List String) (es : List Event) : Option (List String) :=
  es.foldlM nest names

/-- Events that begin something balanced. -/
def Beginning (es : List Event) : Prop := ∃ rest, Balanced (es ++ rest)

-- ================================================================= nesting

theorem nestAll_append (names : List String) (es fs : List Event) :
    nestAll names (es ++ fs)
      = (nestAll names es).bind fun names => nestAll names fs := by
  unfold nestAll
  rw [List.foldlM_append]
  rfl

theorem nestAll_cons (names : List String) (e : Event) (es : List Event) :
    nestAll names (e :: es)
      = (nest names e).bind fun names => nestAll names es := by
  unfold nestAll
  rw [List.foldlM_cons]
  rfl

mutual

/-- A piece leaves the names open that were open. -/
theorem nestAll_piece (names : List String) :
    ∀ p : Piece, nestAll names p.events = some names
  | .element name attributes children => by
    have inside := nestAll_forest (name.qualified :: names) children
    have ends : nestAll (name.qualified :: names) [.stop name]
        = some names := by
      rw [nestAll_cons, nest, if_pos rfl]
      rfl
    rw [Piece.events, nestAll_cons, nest, Option.bind_some, nestAll_append,
      inside, Option.bind_some, ends]
  | .text _ => rfl
  | .cdata _ => rfl
  | .doctype _ _ _ => rfl
termination_by structural p => p

theorem nestAll_forest (names : List String) :
    ∀ ps, nestAll names (forestEvents ps) = some names
  | [] => rfl
  | p :: ps => by
    have first := nestAll_piece names p
    have rest := nestAll_forest names ps
    rw [forestEvents, nestAll_append, first, Option.bind_some, rest]
termination_by structural ps => ps

end

theorem Balanced.nestAll {es : List Event} (h : Balanced es)
    (names : List String) : nestAll names es = some names := by
  obtain ⟨ps, rfl⟩ := h
  exact nestAll_forest names ps

/-- What begins something balanced may stand anywhere. -/
theorem Beginning.nestAll {es : List Event} (h : Beginning es)
    (names : List String) : (nestAll names es).isSome := by
  obtain ⟨rest, hrest⟩ := h
  have whole := hrest.nestAll names
  rw [nestAll_append] at whole
  cases hes : Output.nestAll names es with
  | none =>
    rw [hes] at whole
    cases whole
  | some names => rfl

theorem Balanced.beginning {es : List Event} (h : Balanced es) :
    Beginning es :=
  ⟨[], by rwa [List.append_nil]⟩

theorem Balanced.append_beginning {es fs : List Event} (he : Balanced es)
    (hf : Beginning fs) : Beginning (es ++ fs) := by
  obtain ⟨rest, hrest⟩ := hf
  exact ⟨rest, by rw [List.append_assoc]; exact he.append hrest⟩

/-- What stands behind the start of an element begins its contents. -/
theorem Beginning.element {es : List Event} (h : Beginning es)
    (name : ElementName) (attributes : List (String × String)) :
    Beginning (.start name attributes :: es) := by
  obtain ⟨rest, hrest⟩ := h
  refine ⟨rest ++ [.stop name], ?_⟩
  rw [List.cons_append, ← List.append_assoc]
  exact hrest.element name attributes

theorem nestAll_startDocument (names : List String) (es : List Event) :
    nestAll names (.startDocument :: es) = nestAll names es := rfl

theorem Balanced.document {es : List Event} (h : Balanced es) :
    (Output.nestAll [] (.startDocument :: (es ++ [.endDocument]))).isSome := by
  rw [nestAll_startDocument, nestAll_append, h.nestAll, Option.bind_some]
  rfl

theorem Beginning.document {es : List Event} (h : Beginning es) :
    (Output.nestAll [] (.startDocument :: es)).isSome := by
  rw [nestAll_startDocument]
  exact h.nestAll []

theorem balanced_characters (s : String) : Balanced [.characters s] :=
  ⟨[.text s], rfl⟩

theorem balanced_cdata (s : String) :
    Balanced [.startCData, .characters s, .endCData] :=
  ⟨[.cdata s], rfl⟩

theorem balanced_doctype (name : String) (publicId systemId : Option String) :
    Balanced [.startDoctype name publicId systemId, .endDoctype] :=
  ⟨[.doctype name publicId systemId], rfl⟩

-- ============================================================== the writer

namespace Writer

variable {α β : Type}

/-- The names of the open elements, innermost first. -/
def names (w : Writer) : List String := w.opened.map (·.name)

/-- A refusal that comes from the destination. -/
def External (e : Error) : Prop := ∃ reason, e = .io reason

/-- An action ends with these names open, unless the destination refuses. -/
def Leaves (names : List String) : EStateM.Result Error Writer α → Prop
  | .ok _ w => w.names = names
  | .error e _ => External e

/-- An action neither opens nor closes an element. -/
def Level (x : Writing α) : Prop := ∀ w, Leaves w.names (x w)

theorem Level.leaves {x : Writing α} (hx : Level x) {w : Writer}
    {ns : List String} (h : w.names = ns) : Leaves ns (x w) :=
  h ▸ hx w

theorem leaves_bind {x : Writing α} {f : α → Writing β} {w : Writer}
    {inner outer : List String} (hx : Leaves inner (x w))
    (hf : ∀ a w', w'.names = inner → Leaves outer (f a w')) :
    Leaves outer ((x >>= f) w) := by
  have hbind : (x >>= f) w = EStateM.bind x f w := rfl
  rw [hbind]
  unfold EStateM.bind
  cases h : x w with
  | ok a w' =>
    rw [h] at hx
    exact hf a w' hx
  | error e w' =>
    rw [h] at hx
    exact hx

theorem leaves_get {f : Writer → Writing α} {w : Writer}
    {ns : List String} (h : Leaves ns (f w w)) : Leaves ns ((get >>= f) w) :=
  h

/-- A step that is made only in some cases. -/
theorem leaves_optional {p : Prop} [Decidable p] {x : Writing Unit}
    {f : Unit → Writing α} {w : Writer} {inner outer : List String}
    (hx : Level x) (hw : w.names = inner)
    (hf : ∀ w', w'.names = inner → Leaves outer (f () w')) :
    Leaves outer ((if p then x >>= f else f ()) w) := by
  split
  · exact leaves_bind (hx.leaves hw) fun _ w' hw' => hf w' hw'
  · exact hf w hw

theorem level_bind {x : Writing α} {f : α → Writing β} (hx : Level x)
    (hf : ∀ a, Level (f a)) : Level (x >>= f) := by
  intro w
  refine leaves_bind (hx w) fun a w' hw => ?_
  rw [← hw]
  exact hf a w'

theorem level_pure (a : α) : Level (pure a : Writing α) := fun _ => rfl

theorem level_get : Level (get : Writing Writer) := fun _ => rfl

theorem level_modify {f : Writer → Writer} (h : ∀ w, (f w).names = w.names) :
    Level (modify f : Writing Unit) := h

theorem level_write (s : String) : Level (write s) := by
  intro w
  unfold write
  split
  · rfl
  · split
    · exact ⟨_, rfl⟩
    · rfl
    · rfl

theorem level_when {p : Prop} [Decidable p] {x : Writing Unit}
    (h : Level x) : Level (if p then x else pure ()) := by
  split
  · exact h
  · exact level_pure ()

theorem level_closeTag : Level closeTag := by
  refine level_bind level_get fun w => ?_
  exact level_when (level_bind (level_modify fun _ => rfl) fun _ =>
    level_write ">")

theorem level_newLine (depth : Nat) : Level (newLine depth) :=
  level_bind level_get fun _ => level_when (level_write _)

theorem level_onInnermost {f : OpenElement → OpenElement}
    (h : ∀ e, (f e).name = e.name) : Level (onInnermost f) := by
  refine level_modify fun w => ?_
  split
  · rfl
  · next e es hopened =>
    unfold names
    rw [hopened, List.map_cons, List.map_cons, h]

theorem level_flush : Level flush := by
  refine level_bind level_get fun w => level_when ?_
  refine level_bind (level_modify fun _ => rfl) fun _ => ?_
  refine level_bind level_get fun w => level_when ?_
  refine level_bind level_closeTag fun _ => ?_
  refine level_bind level_get fun w => ?_
  refine level_bind (level_onInnermost fun _ => rfl) fun _ => ?_
  exact level_write _

theorem level_closeElement (e : OpenElement) : Level (closeElement e) := by
  refine level_bind level_get fun w => ?_
  split
  · exact level_bind (level_modify fun _ => rfl) fun _ => level_write "/>"
  · refine level_bind level_closeTag fun _ => level_when ?_
    intro w
    exact leaves_optional (level_newLine _) rfl fun w' hw =>
      (level_write _).leaves hw

theorem level_stopCData : Level stopCData := by
  refine level_bind level_get fun w => ?_
  refine level_bind (level_modify fun _ => rfl) fun _ => ?_
  refine level_bind level_closeTag fun _ => ?_
  refine level_bind (level_onInnermost fun _ => rfl) fun _ => ?_
  refine level_bind level_get fun w => ?_
  cases w.dialect <;> exact level_write _

theorem level_startDocument : Level startDocument :=
  level_bind level_get fun _ => level_when (level_write _)

-- ----------------------------------------------------- the ends of elements

theorem leaves_openElement (name : ElementName)
    (attributes : List (String × String)) (w : Writer) :
    Leaves (name.qualified :: w.names) (openElement name attributes w) := by
  refine leaves_bind (level_flush w) fun _ w₁ h₁ => ?_
  refine leaves_bind (level_closeTag.leaves h₁) fun _ w₂ h₂ => ?_
  refine leaves_get ?_
  refine leaves_optional (level_newLine _) h₂ fun w₃ h₃ => ?_
  have marked : Level (onInnermost fun e => { e with hasElements := true }) :=
    level_onInnermost fun _ => rfl
  refine leaves_bind (marked.leaves h₃) fun _ w₄ h₄ => ?_
  refine leaves_bind ((level_write _).leaves h₄) fun _ w₅ h₅ => ?_
  exact congrArg (name.qualified :: ·) h₅

theorem leaves_stopElement (name : ElementName) {w : Writer}
    {ns : List String} (h : w.names = name.qualified :: ns) :
    Leaves ns (stopElement name w) := by
  refine leaves_bind (level_flush.leaves h) fun _ w₁ h₁ => ?_
  refine leaves_get ?_
  unfold names at h₁
  obtain ⟨e, es, hopened, hname, hes⟩ := List.map_eq_cons_iff.1 h₁
  rw [hopened]
  dsimp only
  rw [if_pos hname]
  have left : Leaves ns ((modify fun w => { w with opened := es } :
      Writing Unit) w₁) := hes
  exact leaves_bind left fun _ w₂ h₂ => (level_closeElement e).leaves h₂

theorem leaves_endDocument {w : Writer} (h : w.names = []) :
    Leaves [] (endDocument w) := by
  refine leaves_bind (level_flush.leaves h) fun _ w₁ h₁ => ?_
  refine leaves_get ?_
  have hopened : w₁.opened = [] := List.map_eq_nil_iff.1 h₁
  rw [hopened]
  exact (level_when (level_write "\n")).leaves h₁

theorem leaves_accept {e : Event} {w : Writer} {ns : List String}
    (h : nest w.names e = some ns) : Leaves ns (accept e w) := by
  cases e with
  | startDocument =>
    cases h
    exact level_startDocument w
  | endDocument =>
    rw [nest] at h
    split at h
    · next hempty =>
      cases h
      have hnames := List.isEmpty_iff.1 hempty
      rw [hnames]
      exact leaves_endDocument hnames
    · cases h
  | start name attributes =>
    cases h
    exact leaves_openElement name attributes w
  | stop name =>
    unfold nest at h
    dsimp only at h
    split at h
    · cases h
    · next n ns' hnames =>
      split at h
      · next hname =>
        cases h
        exact leaves_stopElement name (hname ▸ hnames)
      · cases h
  | characters s =>
    cases h
    have added : Level (accept (.characters s)) :=
      level_modify fun w => by split <;> rfl
    exact added w
  | startCData =>
    cases h
    have opened : Level (accept .startCData) :=
      level_bind level_flush fun _ => level_modify fun _ => rfl
    exact opened w
  | endCData =>
    cases h
    exact level_stopCData w
  | startDoctype name publicId systemId =>
    cases h
    have written : Level (accept (.startDoctype name publicId systemId)) :=
      level_bind level_flush fun _ => level_bind level_closeTag fun _ =>
        level_write _
    exact written w
  | endDoctype =>
    cases h
    exact level_pure () w

theorem send_eq (w : Writer) (e : Event) :
    sink.send w e
      = match accept e w with
        | .ok _ w => (w, none)
        | .error e w => (w, some e) := rfl

/-- Of nested events the writer refuses none, unless its destination does. -/
theorem external_of_nestAll {es : List Event} {w : Writer}
    (h : (nestAll w.names es).isSome) {e : Error}
    (hd : (sink.deliver w es).2 = some e) : External e := by
  induction es generalizing w with
  | nil => cases hd
  | cons event es ih =>
    rw [nestAll_cons] at h
    cases hnest : nest w.names event with
    | none =>
      rw [hnest] at h
      cases h
    | some ns =>
      have leaves := leaves_accept hnest
      rw [hnest, Option.bind_some] at h
      unfold Sink.deliver at hd
      -- an event that is refused nests, so the fault is none of the writer's
      cases haccept : accept event w with
      | ok _ w' =>
        have hsend : sink.send w event = (w', none) := by
          rw [send_eq, haccept]
        rw [haccept] at leaves
        rw [hsend] at hd
        exact ih (leaves.symm ▸ h) hd
      | error e' w' =>
        have hsend : sink.send w event = (w', some e') := by
          rw [send_eq, haccept]
        rw [haccept] at leaves
        rw [hsend] at hd
        cases hd
        exact leaves

end Writer

end Stencil.Output
