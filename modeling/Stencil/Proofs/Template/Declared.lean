/-
How the elements that a template emits are read back.

Nothing is added to the output to keep namespaces: a literal element is written
with the declarations that it keeps itself, whatever was declared around it in
the template. So an element is read, and is in the namespaces of the template,
exactly if the declarations on it and around it in the output say so
(`Emitted.Declared`); and a forest is, if this holds of every element of it
where it stands (`allDeclared_iff`).
-/
import Stencil.Proofs.Output.Reading
import Stencil.Proofs.Template.Emission

namespace Stencil.Markup

-- ============================================================== attributes

/-- The qualifier that an attribute has its namespace from, unless it is a
declaration. -/
def Attribute.qualifier? (a : Attribute) : Option String :=
  if a.name.qualifier = some "xmlns" then none else a.name.qualifier

/-- The attribute has the namespace that it has somewhere. -/
def Attribute.Genuine (a : Attribute) : Prop :=
  ∃ ctx value, qualified? ctx (a.name.text, value) = some a

/-- The attribute in another context, with another value. -/
def Attribute.placed? (ctx : Context) (a : Attribute) (value : String) :
    Option Attribute :=
  match a.qualifier? with
  | none => some { a with value := value }
  | some q =>
    (uriOf? ctx (some q)).map fun uri =>
      { a with uri := some uri, value := value }

/-- What an attribute is elsewhere is a matter of its qualifier. -/
theorem qualified?_eq_placed? {a : Attribute} (ha : a.Genuine) (ctx : Context)
    (value : String) :
    qualified? ctx (a.name.text, value) = a.placed? ctx value := by
  obtain ⟨ctx₀, value₀, h⟩ := ha
  have hname := name_of_qualified? h
  have hplaced {uri : Option String} (huri : uri = a.uri) :
      some (⟨a.name, uri, value⟩ : Attribute) = some { a with value := value } :=
    congrArg (fun uri => some (Attribute.mk a.name uri value)) huri
  unfold qualified? at h ⊢
  unfold Attribute.placed? Attribute.qualifier?
  dsimp only at h hname ⊢
  rw [← hname] at h ⊢
  -- three spellings: `xmlns:p`, plain `xmlns`, and any other name, which alone
  -- is looked up
  by_cases hq : a.name.qualifier = some "xmlns"
  · rw [if_pos (by simp [hq])] at h ⊢
    rw [if_pos hq]
    exact hplaced (congrArg Attribute.uri (Option.some.inj h))
  · rw [if_neg hq]
    by_cases htext : a.name.text = "xmlns"
    · have hnone : a.name.qualifier = none := by
        rw [hname, htext]
        decide +kernel
      rw [if_pos (by simp [htext])] at h ⊢
      rw [hnone]
      exact hplaced (congrArg Attribute.uri (Option.some.inj h))
    · rw [if_neg (by simp [htext, hq])] at h ⊢
      cases hqualifier : a.name.qualifier with
      | some q => rfl
      | none =>
        rw [hqualifier] at h
        exact hplaced (congrArg Attribute.uri (Option.some.inj h))

-- ================================================================ elements

theorem Element.Resolved.genuine {ctx : Context} {e : Element}
    (h : e.Resolved ctx) : ∀ a ∈ e.attributes, a.Genuine :=
  fun a ha => ⟨_, a.value, h.attribute ha⟩

end Stencil.Markup

namespace Stencil.Template

open Markup (Attribute Context Datum Element declared elementOf? elementsOf
  joinData qualified? uriOf?)
open Output (forestData?)

-- =================================================== elements as they are read

section

variable {ctx : Context} {kept : List (Attribute × String)}

theorem mapM_written (h : ∀ k ∈ kept, k.1.Genuine) :
    (kept.map writtenAs).mapM (qualified? ctx)
      = kept.mapM fun k => Attribute.placed? ctx k.1 k.2 := by
  induction kept with
  | nil => rfl
  | cons k kept ih =>
    obtain ⟨hk, hkept⟩ := List.forall_mem_cons.1 h
    rw [List.map_cons, List.mapM_cons, List.mapM_cons, ih hkept]
    have hplaced := Markup.qualified?_eq_placed? hk ctx k.2
    rw [show qualified? ctx (writtenAs k) = k.1.placed? ctx k.2 from hplaced]

/-- All qualifiers of attributes stand for something. -/
def KeptBound (ctx : Context) (kept : List (Attribute × String)) : Prop :=
  ∀ k ∈ kept, ∀ q ∈ k.1.qualifier?, (uriOf? ctx (some q)).isSome

/-- All qualifiers of attributes stand for what they stand for in the
template. -/
def KeptSame (ctx : Context) (kept : List (Attribute × String)) : Prop :=
  ∀ k ∈ kept, ∀ q ∈ k.1.qualifier?, uriOf? ctx (some q) = k.1.uri

theorem isSome_placed :
    (kept.mapM fun k => Attribute.placed? ctx k.1 k.2).isSome
      ↔ KeptBound ctx kept := by
  induction kept with
  | nil => exact iff_of_true rfl nofun
  | cons k kept ih =>
    have hfirst : (Attribute.placed? ctx k.1 k.2).isSome
        ↔ ∀ q ∈ k.1.qualifier?, (uriOf? ctx (some q)).isSome := by
      unfold Attribute.placed?
      cases k.1.qualifier? with
      | none => exact iff_of_true rfl nofun
      | some q =>
        dsimp only
        rw [Option.isSome_map]
        exact ⟨fun h q' hq' => by cases hq'; exact h, fun h => h q rfl⟩
    unfold KeptBound at ih ⊢
    rw [List.mapM_cons, List.forall_mem_cons, ← ih, ← hfirst]
    generalize Attribute.placed? ctx k.1 k.2 = first
    generalize kept.mapM (fun k => Attribute.placed? ctx k.1 k.2) = rest
    cases first <;> cases rest <;> simp

theorem placed_eq_some {as : List Attribute}
    (h : (kept.mapM fun k => Attribute.placed? ctx k.1 k.2) = some as) :
    (as.map fun a => (a.name.text, a.value)) = kept.map writtenAs
      ∧ ((as.map fun a => a.uri) = (kept.map fun k => k.1.uri)
        ↔ KeptSame ctx kept) := by
  induction kept generalizing as with
  | nil =>
    cases h
    exact ⟨rfl, iff_of_true rfl nofun⟩
  | cons k kept ih =>
    rw [List.mapM_cons] at h
    obtain ⟨a, ha, h⟩ := Option.bind_eq_some_iff.1 h
    obtain ⟨bs, hbs, h⟩ := Option.bind_eq_some_iff.1 h
    cases h
    obtain ⟨hwritten, huris⟩ := ih hbs
    unfold KeptSame at huris ⊢
    rw [List.map_cons, List.map_cons, hwritten, List.map_cons, List.map_cons,
      List.cons.injEq, List.cons.injEq, huris, List.forall_mem_cons]
    unfold Attribute.placed? at ha
    cases hq : k.1.qualifier? with
    -- without a qualifier the name keeps its namespace, so nothing is asked of
    -- the context
    | none =>
      rw [hq] at ha
      cases ha
      exact ⟨⟨rfl, rfl⟩, and_congr_left fun _ => iff_of_true rfl nofun⟩
    | some q =>
      rw [hq] at ha
      obtain ⟨uri, huri, rfl⟩ := Option.map_eq_some_iff.1 ha
      refine ⟨⟨rfl, rfl⟩, and_congr_left fun _ => ?_⟩
      show some uri = k.1.uri ↔ _
      rw [← huri]
      exact ⟨fun h q' hq' => by cases hq'; exact h, fun h => h q rfl⟩

end

namespace Emitted

variable {ctx : Context} {x : Emitted} {e : Element}

/-- The element is one of a parsed document, and what it keeps are attributes
of it. -/
structure Genuine (x : Emitted) : Prop where
  resolved : ∃ ctx, x.element.Resolved ctx
  kept : (x.kept.map Prod.fst).Sublist x.element.attributes

/-- All qualifiers of the element stand for something. -/
def Bound (ctx : Context) (x : Emitted) : Prop :=
  (∀ q ∈ x.element.name.qualifier, (uriOf? ctx (some q)).isSome)
    ∧ KeptBound ctx x.kept

/-- The names of the element have the namespaces of the template. -/
def Same (ctx : Context) (x : Emitted) : Prop :=
  uriOf? ctx x.element.name.qualifier = x.element.uri ∧ KeptSame ctx x.kept

/-- Where it is written, the element has its namespaces by the declarations
there; an element of the reserved namespace has some. -/
structure Declared (uri : String) (ctx : Context) (x : Emitted) : Prop where
  bound : x.Bound (declared x.attributes :: ctx)
  same : x.element.uri ≠ some uri → x.Same (declared x.attributes :: ctx)

instance : Decidable (x.Bound ctx) :=
  inferInstanceAs (Decidable
    ((∀ q ∈ x.element.name.qualifier, (uriOf? ctx (some q)).isSome)
      ∧ ∀ k ∈ x.kept, ∀ q ∈ k.1.qualifier?, (uriOf? ctx (some q)).isSome))

instance : Decidable (x.Same ctx) :=
  inferInstanceAs (Decidable
    (uriOf? ctx x.element.name.qualifier = x.element.uri
      ∧ ∀ k ∈ x.kept, ∀ q ∈ k.1.qualifier?, uriOf? ctx (some q) = k.1.uri))

instance (uri : String) : Decidable (x.Declared uri ctx) :=
  decidable_of_iff
    (x.Bound (declared x.attributes :: ctx)
      ∧ (x.element.uri ≠ some uri → x.Same (declared x.attributes :: ctx)))
    ⟨fun h => ⟨h.1, h.2⟩, fun h => ⟨h.1, h.2⟩⟩

/-- The element that is read is the one that was emitted, in the same
namespaces unless it is of the reserved one. -/
structure Kept (uri : String) (x : Emitted) (e : Element) : Prop where
  name : e.name = x.element.name
  raw : e.raw = x.attributes
  same : x.element.uri ≠ some uri → e.uri = x.element.uri
    ∧ (e.attributes.map fun a => a.uri) = x.kept.map fun k => k.1.uri

theorem Genuine.attributes (hx : x.Genuine) :
    ∀ k ∈ x.kept, k.1.Genuine := by
  obtain ⟨ctx, hresolved⟩ := hx.resolved
  exact fun k hk =>
    hresolved.genuine k.1 (hx.kept.subset (List.mem_map_of_mem hk))

theorem Genuine.elementOf?_eq (hx : x.Genuine) (ctx : Context) :
    elementOf? ctx x.element.name.text x.attributes
      = if x.element.name.qualifier.isSome
          && (uriOf? (declared x.attributes :: ctx)
            x.element.name.qualifier).isNone
        then none
        else (x.kept.mapM fun k => Attribute.placed?
            (declared x.attributes :: ctx) k.1 k.2).map fun as =>
          ⟨x.element.name,
            uriOf? (declared x.attributes :: ctx) x.element.name.qualifier, as,
            declared x.attributes⟩ := by
  obtain ⟨ctx₀, hresolved⟩ := hx.resolved
  rw [← mapM_written hx.attributes]
  unfold elementOf?
  dsimp only
  rw [← (Markup.elementOf?_eq_some hresolved.resolved).1]
  rfl

/-- An element can be read where its qualifiers stand for something. -/
theorem Genuine.isSome_elementOf? (hx : x.Genuine) :
    (elementOf? ctx x.element.name.text x.attributes).isSome
      ↔ x.Bound (declared x.attributes :: ctx) := by
  unfold Bound
  rw [hx.elementOf?_eq, ← isSome_placed]
  cases hq : x.element.name.qualifier with
  | none =>
    rw [if_neg (by simp), Option.isSome_map]
    exact ⟨fun h => ⟨nofun, h⟩, And.right⟩
  | some q =>
    cases huri : uriOf? (declared x.attributes :: ctx) (some q) with
    | none =>
      rw [if_pos (by simp)]
      refine iff_of_false nofun fun h => ?_
      have hsome := h.1 q rfl
      rw [huri] at hsome
      cases hsome
    | some uri =>
      rw [if_neg (by simp), Option.isSome_map]
      refine ⟨fun h => ⟨fun q' hq' => ?_, h⟩, And.right⟩
      cases hq'
      rw [huri]
      rfl

/-- An element that is read is kept if its names have the same namespaces. -/
theorem Genuine.kept_iff (hx : x.Genuine) (uri : String)
    (h : elementOf? ctx x.element.name.text x.attributes = some e) :
    x.Kept uri e ↔
      (x.element.uri ≠ some uri → x.Same (declared x.attributes :: ctx)) := by
  rw [hx.elementOf?_eq] at h
  split at h
  · cases h
  obtain ⟨as, has, rfl⟩ := Option.map_eq_some_iff.1 h
  obtain ⟨hraw, huris⟩ := placed_eq_some has
  unfold Same
  rw [← huris]
  exact ⟨Kept.same, fun hsame => ⟨rfl, hraw, hsame⟩⟩

/-- An element is read, and kept, where its names are declared. -/
theorem Genuine.declared_iff (hx : x.Genuine) (uri : String) (ctx : Context) :
    (∃ e, elementOf? ctx x.element.name.text x.attributes = some e
        ∧ x.Kept uri e) ↔ x.Declared uri ctx := by
  constructor
  · rintro ⟨e, he, hkept⟩
    exact ⟨hx.isSome_elementOf?.1 (by rw [he]; rfl), (hx.kept_iff uri he).1 hkept⟩
  · rintro ⟨hbound, hsame⟩
    obtain ⟨e, he⟩ := Option.isSome_iff_exists.1 (hx.isSome_elementOf?.2 hbound)
    exact ⟨e, he, (hx.kept_iff uri he).2 hsame⟩

end Emitted

-- ================================================================= forests

mutual

/-- Every element of the emission has its namespaces by the declarations where
it is written. -/
def Emission.Declared (uri : String) (ctx : Context) : Emission → Prop
  | .element x contents =>
    x.Declared uri ctx ∧ AllDeclared uri (declared x.attributes :: ctx) contents
  | _ => True

def AllDeclared (uri : String) (ctx : Context) : List Emission → Prop
  | [] => True
  | em :: ems => em.Declared uri ctx ∧ AllDeclared uri ctx ems

end

mutual

def Emission.decideDeclared (uri : String) :
    ∀ (ctx : Context) (em : Emission), Decidable (em.Declared uri ctx)
  | ctx, .element x contents =>
    have := decideAllDeclared uri (declared x.attributes :: ctx) contents
    inferInstanceAs (Decidable (x.Declared uri ctx
      ∧ AllDeclared uri (declared x.attributes :: ctx) contents))
  | _, .text _ => isTrue trivial
  | _, .cdata _ => isTrue trivial
  | _, .doctype _ _ _ => isTrue trivial
termination_by structural _ em => em

def decideAllDeclared (uri : String) :
    ∀ (ctx : Context) (ems : List Emission), Decidable (AllDeclared uri ctx ems)
  | _, [] => isTrue trivial
  | ctx, em :: ems =>
    have := em.decideDeclared uri ctx
    have := decideAllDeclared uri ctx ems
    inferInstanceAs (Decidable (em.Declared uri ctx ∧ AllDeclared uri ctx ems))
termination_by structural _ ems => ems

end

instance (uri : String) (ctx : Context) (em : Emission) :
    Decidable (em.Declared uri ctx) := em.decideDeclared uri ctx

theorem forall₂_append_iff {α β : Type} {R : α → β → Prop} {as as' : List α}
    {bs bs' : List β} (h : as.length = bs.length) :
    List.Forall₂ R (as ++ as') (bs ++ bs')
      ↔ List.Forall₂ R as bs ∧ List.Forall₂ R as' bs' := by
  induction as generalizing bs with
  | nil =>
    cases bs with
    | nil => exact ⟨fun h => ⟨.nil, h⟩, And.right⟩
    | cons b bs => cases h
  | cons a as ih =>
    cases bs with
    | nil => cases h
    | cons b bs =>
      rw [List.cons_append, List.cons_append, List.forall₂_cons,
        List.forall₂_cons, ih (Nat.succ.inj h), and_assoc]

/-- The data of an element's piece, in parts. -/
theorem data?_element {ctx : Context} {x : Emitted} {contents : List Emission}
    {xs : List Datum} :
    (Emission.element x contents).piece.data? ctx = some xs ↔
      ∃ e inside, elementOf? ctx x.element.name.text x.attributes = some e
        ∧ forestData? (declared x.attributes :: ctx) (pieces contents)
          = some inside
        ∧ xs = [.element e (joinData inside)] := by
  show ((elementOf? ctx x.element.name.text x.attributes).bind fun e =>
    (forestData? (declared x.attributes :: ctx) (pieces contents)).map
      fun inside => Datum.element e (joinData inside)).map _ = _ ↔ _
  cases elementOf? ctx x.element.name.text x.attributes with
  | none => simp
  | some e =>
    cases forestData? (declared x.attributes :: ctx) (pieces contents) with
    | none => simp
    | some inside => simp [eq_comm]

/-- The data of pieces in order, in parts. -/
theorem forestData?_cons {ctx : Context} {em : Emission} {ems : List Emission}
    {xs : List Datum} :
    forestData? ctx (pieces (em :: ems)) = some xs ↔
      ∃ ys zs, em.piece.data? ctx = some ys
        ∧ forestData? ctx (pieces ems) = some zs ∧ xs = ys ++ zs := by
  rw [pieces, forestData?]
  cases em.piece.data? ctx with
  | none => simp
  | some ys =>
    cases forestData? ctx (pieces ems) with
    | none => simp
    | some zs => simp [eq_comm]

mutual

/-- As many elements are read as were emitted. -/
theorem length_elements : ∀ (ctx : Context) (em : Emission) (xs : List Datum),
    em.piece.data? ctx = some xs →
    em.elements.length = (elementsOf xs).length
  | ctx, .element x contents, xs, h => by
    obtain ⟨e, inside, -, hinside, rfl⟩ := data?_element.1 h
    have hlength := length_allElements (declared x.attributes :: ctx) contents
      inside hinside
    show (allElements contents).length + 1
      = (e :: elementsOf (joinData inside) ++ []).length
    rw [Markup.elementsOf_joinData, List.append_nil, List.length_cons, hlength]
  | _, .text s, _, h => by
    cases h
    rfl
  | _, .cdata s, _, h => by
    cases h
    rfl
  | _, .doctype name publicId systemId, _, h => by
    cases h
    rfl
termination_by structural _ em => em

theorem length_allElements : ∀ (ctx : Context) (ems : List Emission)
    (xs : List Datum), forestData? ctx (pieces ems) = some xs →
    (allElements ems).length = (elementsOf xs).length
  | _, [], _, h => by
    cases h
    rfl
  | ctx, em :: ems, xs, h => by
    obtain ⟨ys, zs, hys, hzs, rfl⟩ := forestData?_cons.1 h
    rw [allElements, Markup.elementsOf_append, List.length_append,
      List.length_append, length_elements ctx em ys hys,
      length_allElements ctx ems zs hzs]
termination_by structural _ ems => ems

end

mutual

/-- An emission is read, and its elements are kept, where they are declared. -/
theorem declared_iff (uri : String) : ∀ (ctx : Context) (em : Emission),
    (∀ x ∈ em.elements, x.Genuine) →
    ((∃ xs, em.piece.data? ctx = some xs
        ∧ List.Forall₂ (Emitted.Kept uri) em.elements (elementsOf xs))
      ↔ em.Declared uri ctx)
  | ctx, .element x contents, h => by
    obtain ⟨hx, hcontents⟩ := List.forall_mem_cons.1 h
    rw [Emission.Declared, ← hx.declared_iff uri ctx,
      ← allDeclared_iff uri (declared x.attributes :: ctx) contents hcontents]
    constructor
    · rintro ⟨xs, hxs, hkept⟩
      obtain ⟨e, inside, he, hinside, rfl⟩ := data?_element.1 hxs
      have hkept : List.Forall₂ (Emitted.Kept uri) (x :: allElements contents)
          (e :: elementsOf (joinData inside) ++ []) := hkept
      rw [Markup.elementsOf_joinData, List.append_nil, List.forall₂_cons]
        at hkept
      exact ⟨⟨e, he, hkept.1⟩, inside, hinside, hkept.2⟩
    · rintro ⟨⟨e, he, hkept⟩, inside, hinside, hrest⟩
      refine ⟨_, data?_element.2 ⟨e, inside, he, hinside, rfl⟩, ?_⟩
      show List.Forall₂ _ (x :: allElements contents)
        (e :: elementsOf (joinData inside) ++ [])
      rw [Markup.elementsOf_joinData, List.append_nil, List.forall₂_cons]
      exact ⟨hkept, hrest⟩
  | _, .text s, _ => iff_of_true ⟨_, rfl, .nil⟩ trivial
  | _, .cdata s, _ => iff_of_true ⟨_, rfl, .nil⟩ trivial
  | _, .doctype name publicId systemId, _ => iff_of_true ⟨_, rfl, .nil⟩ trivial
termination_by structural _ em => em

theorem allDeclared_iff (uri : String) : ∀ (ctx : Context)
    (ems : List Emission), (∀ x ∈ allElements ems, x.Genuine) →
    ((∃ xs, forestData? ctx (pieces ems) = some xs
        ∧ List.Forall₂ (Emitted.Kept uri) (allElements ems) (elementsOf xs))
      ↔ AllDeclared uri ctx ems)
  | _, [], _ => iff_of_true ⟨[], rfl, .nil⟩ trivial
  | ctx, em :: ems, h => by
    rw [allElements] at h ⊢
    obtain ⟨hem, hems⟩ := List.forall_mem_append.1 h
    rw [AllDeclared, ← declared_iff uri ctx em hem,
      ← allDeclared_iff uri ctx ems hems]
    constructor
    · rintro ⟨xs, hxs, hkept⟩
      obtain ⟨ys, zs, hys, hzs, rfl⟩ := forestData?_cons.1 hxs
      rw [Markup.elementsOf_append,
        forall₂_append_iff (length_elements ctx em ys hys)] at hkept
      exact ⟨⟨ys, hys, hkept.1⟩, zs, hzs, hkept.2⟩
    · rintro ⟨⟨ys, hys, hfirst⟩, zs, hzs, hrest⟩
      refine ⟨ys ++ zs, forestData?_cons.2 ⟨ys, zs, hys, hzs, rfl⟩, ?_⟩
      rw [Markup.elementsOf_append,
        forall₂_append_iff (length_elements ctx em ys hys)]
      exact ⟨hfirst, hrest⟩
termination_by structural _ ems => ems

end

end Stencil.Template
