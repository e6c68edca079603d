/-
The data of a document: its elements with their attributes and namespaces, and
its character data. Comments, instructions and places are no data; adjacent
texts are one text, adjacent sections are one section, and an empty text is
none.

Data is joined where it is put in front of other data (`Datum.before`), so two
lists that join alike in front of anything can stand for each other. The
builder adds to the data of its innermost frame by what it is fed.
-/
import Stencil.Proofs.Markup.Resolved

namespace Stencil.Markup

-- ================================================================== joining

/-- An element with its contents, or character data. -/
inductive Datum where
  | element (e : Element) (contents : List Datum)
  | text (s : String)
  | cdata (s : String)

/-- A datum in front of others. -/
def Datum.before : Datum → List Datum → List Datum
  | .text s, rest =>
    if s.isEmpty then rest
    else
      match rest with
      | .text t :: rest => .text (s ++ t) :: rest
      | rest => .text s :: rest
  | .cdata s, .cdata t :: rest => .cdata (s ++ t) :: rest
  | x, rest => x :: rest

/-- Data with what is adjacent joined. -/
def joinData (xs : List Datum) : List Datum := xs.foldr Datum.before []

theorem before_text_text (s t : String) (rest : List Datum) :
    (Datum.text s).before ((Datum.text t).before rest)
      = (Datum.text (s ++ t)).before rest := by
  by_cases hs : s = ""
  · subst hs
    rw [String.empty_append]
    rfl
  have hst : s ++ t ≠ "" := fun h => hs (String.append_eq_empty_iff.1 h).1
  have hfilled {s : String} (h : s ≠ "") : ¬ s.isEmpty = true :=
    fun he => h (String.isEmpty_iff.1 he)
  by_cases ht : t = ""
  · subst ht
    rw [String.append_empty]
    rfl
  -- both are filled, so what counts is whether a text follows
  unfold Datum.before
  simp only [if_neg (hfilled hs), if_neg (hfilled ht), if_neg (hfilled hst)]
  cases rest with
  | nil => rfl
  | cons x rest =>
    cases x with
    | text u =>
      show Datum.text (s ++ (t ++ u)) :: rest = .text (s ++ t ++ u) :: rest
      rw [String.append_assoc]
    | _ => rfl

theorem before_cdata_cdata (s t : String) (rest : List Datum) :
    (Datum.cdata s).before ((Datum.cdata t).before rest)
      = (Datum.cdata (s ++ t)).before rest := by
  cases rest with
  | nil => rfl
  | cons x rest =>
    cases x with
    | cdata u =>
      show Datum.cdata (s ++ (t ++ u)) :: rest = .cdata (s ++ t ++ u) :: rest
      rw [String.append_assoc]
    | _ => rfl

/-- The lists are the same data, whatever stands behind them. -/
def SameData (xs ys : List Datum) : Prop :=
  ∀ rest, xs.foldr Datum.before rest = ys.foldr Datum.before rest

namespace SameData

variable {xs ys zs ws : List Datum}

theorem refl (xs : List Datum) : SameData xs xs := fun _ => rfl

theorem symm (h : SameData xs ys) : SameData ys xs := fun rest => (h rest).symm

theorem trans (h : SameData xs ys) (h' : SameData ys zs) : SameData xs zs :=
  fun rest => (h rest).trans (h' rest)

theorem append (h : SameData xs ys) (h' : SameData zs ws) :
    SameData (xs ++ zs) (ys ++ ws) := by
  intro rest
  rw [List.foldr_append, List.foldr_append, h' rest, h]

theorem joinData_eq (h : SameData xs ys) : joinData xs = joinData ys := h []

end SameData

theorem sameData_texts (s t : String) :
    SameData [.text s, .text t] [.text (s ++ t)] := before_text_text s t

theorem sameData_cdatas (s t : String) :
    SameData [.cdata s, .cdata t] [.cdata (s ++ t)] := before_cdata_cdata s t

theorem sameData_nothing : SameData [.text ""] [] := fun _ => rfl

-- ==================================================================== trees

namespace Tree

mutual

/-- The data of a tree; of a document, that of its children. -/
def data : Tree → List Datum
  | .node label ts =>
    match label.content with
    | .document => allData ts
    | .element e => [.element e (joinData (allData ts))]
    | .text s => [.text s]
    | .cdata s => [.cdata s]
    | _ => []

def allData : List Tree → List Datum
  | [] => []
  | t :: ts => t.data ++ allData ts

end

theorem allData_append (ts us : List Tree) :
    allData (ts ++ us) = allData ts ++ allData us := by
  induction ts with
  | nil => rfl
  | cons t ts ih =>
    rw [List.cons_append, allData, allData, ih, List.append_assoc]

end Tree

-- ================================================================= elements

mutual

/-- The elements in some data, in document order. -/
def Datum.elements : Datum → List Element
  | .element e contents => e :: elementsOf contents
  | _ => []

def elementsOf : List Datum → List Element
  | [] => []
  | x :: xs => x.elements ++ elementsOf xs

end

theorem elementsOf_append (xs ys : List Datum) :
    elementsOf (xs ++ ys) = elementsOf xs ++ elementsOf ys := by
  induction xs with
  | nil => rfl
  | cons x xs ih =>
    rw [List.cons_append, elementsOf, elementsOf, ih, List.append_assoc]

theorem elementsOf_before (x : Datum) (rest : List Datum) :
    elementsOf (x.before rest) = x.elements ++ elementsOf rest := by
  cases x with
  | element e contents => rfl
  | text s =>
    by_cases hs : s.isEmpty = true
    · rw [show (Datum.text s).before rest = rest from if_pos hs]
      rfl
    · unfold Datum.before
      simp only [if_neg hs]
      cases rest with
      | nil => rfl
      | cons y rest => cases y <;> rfl
  | cdata s =>
    cases rest with
    | nil => rfl
    | cons y rest => cases y <;> rfl

/-- Joining is a matter of character data alone. -/
theorem elementsOf_joinData (xs : List Datum) :
    elementsOf (joinData xs) = elementsOf xs := by
  induction xs with
  | nil => rfl
  | cons x xs ih =>
    show elementsOf (x.before (joinData xs)) = x.elements ++ elementsOf xs
    rw [elementsOf_before, ih]

namespace Tree

/-- The elements of a tree in document order. -/
def elements (t : Tree) : List Element :=
  t.preorder.filterMap fun u => u.content.element?

mutual

theorem elementsOf_data : ∀ t : Tree, t.Tidy → elementsOf t.data = t.elements
  | .node ⟨id, place, content⟩ ts, htidy => by
    obtain ⟨horderly, hbelow⟩ := tidy_node.1 htidy
    have hinside := elementsOf_allData ts hbelow
    unfold elements at hinside ⊢
    rw [preorder, List.filterMap_cons]
    -- other nodes have no children
    have leaf (hleaf : ts = []) :
        [] = (preorders ts).filterMap fun u => u.content.element? := by
      rw [hleaf]
      rfl
    cases content with
    | document => exact hinside
    | element e =>
      show e :: elementsOf (joinData (allData ts)) ++ [] = e :: _
      rw [elementsOf_joinData, hinside, List.append_nil]
    | text s => exact leaf (horderly.leaf.elim nofun (·.elim nofun fun h => h))
    | cdata s => exact leaf (horderly.leaf.elim nofun (·.elim nofun fun h => h))
    | comment s => exact leaf (horderly.leaf.elim nofun (·.elim nofun fun h => h))
    | instruction target data =>
      exact leaf (horderly.leaf.elim nofun (·.elim nofun fun h => h))
termination_by structural t => t

theorem elementsOf_allData : ∀ ts : List Tree, (∀ t ∈ ts, t.Tidy) →
    elementsOf (allData ts)
      = (preorders ts).filterMap fun u => u.content.element?
  | [], _ => rfl
  | t :: ts, htidy => by
    obtain ⟨ht, hts⟩ := List.forall_mem_cons.1 htidy
    rw [allData, elementsOf_append, elementsOf_data t ht,
      elementsOf_allData ts hts, preorders, List.filterMap_append]
    rfl
termination_by structural ts => ts

end

end Tree

/-- The data of a document. -/
def Document.data (d : Document) : List Datum := joinData d.root.data

/-- The elements of a document in document order. -/
def Document.elements (d : Document) : List Element :=
  d.nodes.filterMap Node.element?

theorem Document.elements_eq (d : Document) : d.elements = d.root.elements := by
  unfold elements Tree.elements nodes
  show _ = d.node.tree.preorder.filterMap _
  rw [← d.node.map_tree_nodes, List.filterMap_map]
  rfl

-- ================================================================= builders

/-- The data of an open frame. -/
def Frame.data (f : Frame) : List Datum := Tree.allData f.children.reverse

theorem Frame.data_push (f : Frame) (t : Tree) :
    (f.push t).data = f.data ++ t.data := by
  unfold Frame.data Frame.push
  rw [List.reverse_cons, Tree.allData_append]
  exact congrArg _ (List.append_nil _)

namespace Builder

variable {b b' b'' : Builder} {place : Location} {added more : List Datum}

/-- The builder `b'` is `b` with something added to the innermost frame. -/
structure Grows (b : Builder) (added : List Datum) (b' : Builder) : Prop where
  outer : b'.outer = b.outer
  label : b'.current.label = b.current.label
  data : SameData b'.current.data (b.current.data ++ added)

namespace Grows

theorem refl (b : Builder) : Grows b [] b :=
  ⟨rfl, rfl, by rw [List.append_nil]; exact .refl _⟩

theorem trans (h : Grows b added b') (h' : Grows b' more b'') :
    Grows b (added ++ more) b'' where
  outer := h'.outer.trans h.outer
  label := h'.label.trans h.label
  data := by
    rw [← List.append_assoc]
    exact h'.data.trans (h.data.append (.refl more))

theorem congr (h : Grows b added b') (hsame : SameData added more) :
    Grows b more b' :=
  { h with data := h.data.trans (.append (.refl _) hsame) }

theorem context (h : Grows b added b') : b'.context = b.context := by
  unfold Builder.context Frame.declarations
  rw [List.map_cons, List.map_cons, h.outer, h.label]

theorem atTop (h : Grows b added b') : b'.atTop = b.atTop := by
  unfold Builder.atTop
  rw [h.outer]

end Grows

/-- A leaf adds its own data. -/
theorem grows_leaf (b : Builder) (place : Location) (content : Content) :
    Grows b (Tree.node ⟨b.next, place, content⟩ []).data
      (b.leaf place content) :=
  ⟨rfl, rfl, by rw [leaf, Frame.data_push]; exact .refl _⟩

/-- Text inside an element is added, whether it joins another or not. -/
theorem grows_addText (b : Builder) (place : Location) (s : String) :
    Grows b [.text s] (b.addText place s) := by
  rcases addText_cases b place s with
    ⟨id, first, t, ts, rest, hc, heq⟩ | ⟨-, heq⟩
  · rw [heq]
    obtain ⟨⟨label, children⟩, outer, next⟩ := b
    cases hc
    refine ⟨rfl, rfl, ?_⟩
    have hold : Frame.data ⟨label, .node ⟨id, first, .text t⟩ ts :: rest⟩
        = Frame.data ⟨label, rest⟩ ++ [.text t] :=
      Frame.data_push ⟨label, rest⟩ _
    have hnew : Frame.data (Frame.push ⟨label, rest⟩
          (.node ⟨id, first, .text (t ++ s)⟩ ts))
        = Frame.data ⟨label, rest⟩ ++ [.text (t ++ s)] :=
      Frame.data_push ⟨label, rest⟩ _
    show SameData (Frame.data _) (Frame.data ⟨label, _⟩ ++ [.text s])
    rw [hnew, hold, List.append_assoc]
    exact .append (.refl _) (sameData_texts t s).symm
  · rw [heq]
    exact grows_leaf b place (.text s)

theorem grows_text (htop : b.atTop = false) (place : Location) (s : String) :
    ∃ b', b.text place s = .ok b' ∧ Grows b [.text s] b' := by
  unfold text
  rw [htop]
  split
  · next hs =>
    rw [String.isEmpty_iff.1 hs]
    exact ⟨b, rfl, (Grows.refl b).congr sameData_nothing.symm⟩
  · exact ⟨_, rfl, grows_addText b place s⟩

/-- The end of an element adds it, with what it has grown by since it was
opened. -/
theorem Grows.stop {b b' : Builder} {place : Location} {e : Element}
    {added : List Datum} (h : Grows (b.openElement place e) added b')
    (last : Location) :
    b'.stop last e.name.text
        = .ok ⟨b.current.push b'.current.close, b.outer, b'.next⟩
      ∧ b'.current.close.isElement = true
      ∧ b'.current.close.data = [.element e (joinData added)] := by
  -- the frame has grown, but it is still that of the element
  have hcontent : b'.current.label.content = .element e := by
    rw [h.label]
    rfl
  have houter : b'.outer = b.current :: b.outer := h.outer
  refine ⟨?_, ?_, ?_⟩
  · unfold Builder.stop
    rw [hcontent, houter]
    exact if_pos rfl
  · show b'.current.label.content.element?.isSome = true
    rw [hcontent]
    rfl
  · have hjoined : joinData b'.current.data = joinData added :=
      h.data.joinData_eq
    rw [← hjoined]
    unfold Frame.close Tree.data
    rw [hcontent]
    rfl

end Builder

end Stencil.Markup
