/-
Expressions over two editions of the same documents.

Two values are twins if they differ in the nodes that they hold, and there only
in that twins stand for each other. No operator tells one from the other: twins
stand for the same text, the same number and the same boolean, and what is
selected from them are twins again. A library may be handed nodes too, and has
to keep to this (`Library.Twin`); the functions on texts do. So where names mean
twins an expression has twins as values, and a text with expressions in it comes
out as the same text (`substitute_twin`).
-/
import Stencil.Expr.Substitution
import Stencil.Proofs.Expr.Arithmetic
import Stencil.Proofs.Expr.Splicing
import Stencil.Proofs.Markup.Comments

namespace Stencil.Expr

open Markup (Node Renumbering)

-- ================================================================== values

/-- The same value, with twins for the nodes that it holds. -/
inductive Value.Twin (r : Renumbering) : Value → Value → Prop
  | null : Twin r .null .null
  | bool (b : Bool) : Twin r (.bool b) (.bool b)
  | int (i : Int64) : Twin r (.int i) (.int i)
  | float (f : Float) : Twin r (.float f) (.float f)
  | string (s : String) : Twin r (.string s) (.string s)
  | array {vs ws : List Value} (items : List.Forall₂ (Twin r) vs ws) :
    Twin r (.array vs) (.array ws)
  | map {es fs : List (String × Value)}
    (keys : es.map Prod.fst = fs.map Prod.fst)
    (values : List.Forall₂ (Twin r) (es.map Prod.snd) (fs.map Prod.snd)) :
    Twin r (.map es) (.map fs)
  | element {n n' : Node} (h : n.Twin r n') :
    Twin r (.element n) (.element n')

/-- The same key, with twins as values. -/
def EntryTwin (r : Renumbering) (e f : String × Value) : Prop :=
  e.1 = f.1 ∧ e.2.Twin r f.2

/-- Both fail with the same error, or what comes out is related. -/
abbrev Outcome {α β : Type} (Q : α → β → Prop) :
    Except Error α → Except Error β → Prop :=
  Paired (· = ·) Q

section

variable {r : Renumbering} {v v' w w' : Value} {vs vs' ws ws' : List Value}
  {es es' fs fs' : List (String × Value)}

theorem Value.Twin.ofEntries (h : List.Forall₂ (EntryTwin r) es fs) :
    (Value.map es).Twin r (.map fs) :=
  .map (forall₂_entries.1 h).1 (forall₂_entries.1 h).2

theorem twin_of_isString (h : v.isString = true) : v.Twin r v := by
  cases v with
  | string s => exact .string s
  | _ => cases h

namespace Value.Twin

theorem entries (h : (Value.map es).Twin r (.map fs)) :
    List.Forall₂ (EntryTwin r) es fs := by
  cases h with
  | map keys values => exact forall₂_entries.2 ⟨keys, values⟩

theorem kind (h : v.Twin r v') : v.kind = v'.kind := by
  cases h <;> rfl

theorem isFloating (h : v.Twin r v') : v.isFloating = v'.isFloating := by
  cases h <;> rfl

theorem isString (h : v.Twin r v') : v.isString = v'.isString := by
  cases h <;> rfl

theorem number? (h : v.Twin r v') : v.number? = v'.number? := by
  cases h <;> rfl

theorem asInt (h : v.Twin r v') : v.asInt = v'.asInt := by
  unfold Value.asInt
  rw [h.number?, h.kind]

theorem asFloat (h : v.Twin r v') : v.asFloat = v'.asFloat := by
  unfold Value.asFloat
  rw [h.number?, h.kind]

theorem asBool (h : v.Twin r v') : v.asBool = v'.asBool := by
  cases h <;> rfl

theorem isEmpty (h : v.Twin r v') : v.isEmpty = v'.isEmpty := by
  cases h with
  | array items => cases items <;> rfl
  | @map es fs keys _ =>
    have lengths := congrArg List.length keys
    rw [List.length_map, List.length_map] at lengths
    show es.isEmpty = fs.isEmpty
    rw [Bool.eq_iff_iff, List.isEmpty_iff_length_eq_zero,
      List.isEmpty_iff_length_eq_zero, lengths]
  | _ => rfl

theorem items? (h : v.Twin r v') :
    Option.Rel (List.Forall₂ (Twin r)) v.items? v'.items? := by
  cases h with
  | null => exact .some .nil
  | array items => exact .some items
  | map _ values => exact .some values
  | _ => exact .none

end Value.Twin

-- ================================================================= display

mutual

theorem display_twin :
    ∀ {v v' : Value}, v.Twin r v' → v.display = v'.display
  | .null, _, h => by cases h; rfl
  | .bool _, _, h => by cases h; rfl
  | .int _, _, h => by cases h; rfl
  | .float _, _, h => by cases h; rfl
  | .string _, _, h => by cases h; rfl
  | .array vs, _, h => by
    cases h with
    | array items => rw [Value.display, Value.display, display_items items]
  | .map es, _, h => by
    have entries := fun fs (h : (Value.map es).Twin r (.map fs)) =>
      display_entries h.entries
    cases h with
    | map keys values =>
      rw [Value.display, Value.display, entries _ (.map keys values)]
  | .element n, _, h => by
    cases h with
    | element h =>
      rw [Value.display, Value.display, Value.nodeText, Value.nodeText,
        h.isElement, h.textContent, h.characters?]

theorem display_items : ∀ {vs vs' : List Value},
    List.Forall₂ (Value.Twin r) vs vs' →
      Value.displayItems vs = Value.displayItems vs'
  | [], _, h => by cases h; rfl
  | v :: vs, _, h => by
    cases h with
    | cons hv hvs =>
      rw [Value.displayItems, Value.displayItems, display_twin hv,
        display_items hvs]

theorem display_entries : ∀ {es es' : List (String × Value)},
    List.Forall₂ (EntryTwin r) es es' →
      Value.displayEntries es = Value.displayEntries es'
  | [], _, h => by cases h; rfl
  | (k, v) :: es, _, h => by
    cases h with
    | @cons _ e' _ es' he hes =>
      obtain ⟨k', v'⟩ := e'
      obtain ⟨rfl, hv⟩ : k = k' ∧ v.Twin r v' := he
      rw [Value.displayEntries, Value.displayEntries, display_twin hv,
        display_entries hes]

end

-- ================================================================ equality

mutual

theorem same_twin : ∀ {v v' w w' : Value}, v.Twin r v' → w.Twin r w' →
    v.same w = v'.same w'
  | .null, _, _, _, h, h' => by cases h; cases h' <;> rfl
  | .bool _, _, _, _, h, h' => by cases h; cases h' <;> rfl
  | .int _, _, _, _, h, h' => by cases h; cases h' <;> rfl
  | .float _, _, _, _, h, h' => by cases h; cases h' <;> rfl
  | .string _, _, _, _, h, h' => by cases h; cases h' <;> rfl
  | .array vs, _, _, _, h, h' => by
    cases h with
    | array items =>
      cases h' with
      | array items' => rw [Value.same, Value.same, same_items items items']
      | _ => rfl
  | .map es, _, _, _, h, h' => by
    have among := fun fs fs' es' (h : (Value.map es).Twin r (.map es'))
        (h' : (Value.map fs).Twin r (.map fs')) =>
      same_entries h.entries h'.entries
    cases h with
    | @map es es' keys values =>
      cases h' with
      | @map fs fs' keys' values' =>
        have lengths := congrArg List.length keys
        have lengths' := congrArg List.length keys'
        rw [List.length_map, List.length_map] at lengths lengths'
        rw [Value.same, Value.same, lengths, lengths',
          among _ _ _ (.map keys values) (.map keys' values')]
      | _ => rfl
  | .element n, _, _, _, h, h' => by
    cases h with
    | element h =>
      cases h' with
      | element h' => exact h.same h'
      | _ => rfl

theorem same_items : ∀ {vs vs' ws ws' : List Value},
    List.Forall₂ (Value.Twin r) vs vs' → List.Forall₂ (Value.Twin r) ws ws' →
      Value.sameItems vs ws = Value.sameItems vs' ws'
  | [], _, _, _, h, h' => by cases h; cases h' <;> rfl
  | v :: vs, _, _, _, h, h' => by
    cases h with
    | cons hv hvs =>
      cases h' with
      | nil => rfl
      | cons hw hws =>
        rw [Value.sameItems, Value.sameItems, same_twin hv hw,
          same_items hvs hws]

theorem same_entries : ∀ {es es' fs fs' : List (String × Value)},
    List.Forall₂ (EntryTwin r) es es' → List.Forall₂ (EntryTwin r) fs fs' →
      Value.sameEntries es fs = Value.sameEntries es' fs'
  | [], _, _, _, h, _ => by cases h; rfl
  | (k, v) :: es, _, fs, fs', h, h' => by
    cases h with
    | @cons _ e' _ es' he hes =>
      obtain ⟨k', v'⟩ := e'
      obtain ⟨rfl, hv⟩ : k = k' ∧ v.Twin r v' := he
      have among := same_entries hes h'
      have found := rel_lookup h' k
      rw [Value.sameEntries, Value.sameEntries, among]
      generalize fs.lookup k = w at found ⊢
      generalize fs'.lookup k = w' at found ⊢
      cases found with
      | none => rfl
      | some hw =>
        dsimp only
        rw [same_twin hv hw]

end

theorem equal_twin (h : v.Twin r v') (h' : w.Twin r w') :
    v.equal w = v'.equal w' := by
  cases h with
  | array items =>
    cases h' with
    | array items' => exact same_twin (.array items) (.array items')
    | _ => rfl
  | map keys values =>
    cases h' with
    | map keys' values' =>
      exact same_twin (.map keys values) (.map keys' values')
    | _ => rfl
  | element hn =>
    cases h' with
    | element hn' => exact hn.same hn'
    | _ => rfl
  | _ => cases h' <;> rfl

theorem order_twin (h : v.Twin r v') (h' : w.Twin r w') :
    v.order w = v'.order w' := by
  cases h <;> cases h' <;> rfl

-- ============================================================== components

theorem forall₂_enter {α β : Type} {Q : α → β → Prop} {as : List (String × α)}
    {bs : List (String × β)}
    (h : List.Forall₂ (fun x x' => x.1 = x'.1 ∧ Q x.2 x'.2) as bs)
    (key : String) {a : α} {b : β} (hab : Q a b) :
    List.Forall₂ (fun x x' => x.1 = x'.1 ∧ Q x.2 x'.2)
      (enter as key a) (enter bs key b) := by
  induction h with
  | nil => exact .cons ⟨rfl, hab⟩ .nil
  | @cons x x' as bs hx hrest ih =>
    obtain ⟨k, a'⟩ := x
    obtain ⟨k', b'⟩ := x'
    obtain ⟨rfl, hvalue⟩ : k = k' ∧ Q a' b' := hx
    unfold enter
    split
    · exact .cons ⟨rfl, hab⟩ hrest
    · exact .cons ⟨rfl, hvalue⟩ ih

/-- What is chosen by the same rule from twins. -/
theorem twin_getD {o o' : Option Value}
    (h : Option.Rel (Value.Twin r) o o') :
    (o.getD .null).Twin r (o'.getD .null) := by
  cases h with
  | none => exact .null
  | some hv => exact hv

theorem twin_attributeMap {n n' : Node} (h : n.Twin r n') :
    (Value.attributeMap n).Twin r (Value.attributeMap n') := by
  have texts : ∀ entries : List (String × Value),
      (∀ e ∈ entries, e.2.isString = true) →
        (Value.map entries).Twin r (.map entries) := fun entries hall =>
    .ofEntries (List.forall₂_same.2 fun e he =>
      ⟨rfl, twin_of_isString (hall e he)⟩)
  unfold Value.attributeMap
  rw [h.attributes]
  refine texts _ fun e he => ?_
  obtain ⟨a, -, rfl⟩ := List.mem_map.1 (mem_enterAll e he)
  rfl

theorem twin_nodeProperty {n n' : Node} (h : n.Twin r n') (name : String) :
    (Value.nodeProperty n name).Twin r (Value.nodeProperty n' name) := by
  unfold Value.nodeProperty
  split
  · rw [h.tag?]
    cases n'.tag? with
    | none => exact .null
    | some tag => exact .string tag
  · refine .array ?_
    rw [List.forall₂_map_left_iff, List.forall₂_map_right_iff]
    exact h.childElements.imp fun _ _ hm => .element hm
  · exact twin_attributeMap h
  · rw [h.textContent]
    exact .string _
  · exact .null

theorem twin_property (h : v.Twin r v') (name : String) :
    Outcome (Value.Twin r) (v.property name) (v'.property name) := by
  cases h with
  | null => exact .ok .null
  | map keys values =>
    have entries := (Value.Twin.map keys values).entries
    exact .ok (twin_getD (rel_lookup entries name))
  | element h => exact .ok (twin_nodeProperty h name)
  | _ => exact .error rfl

theorem twin_itemAt (h : List.Forall₂ (Value.Twin r) vs vs') (i : Int64) :
    (Value.itemAt vs i).Twin r (Value.itemAt vs' i) := by
  unfold Value.itemAt
  split
  · refine twin_getD ?_
    generalize i.toInt.toNat = k
    induction h generalizing k with
    | nil => exact .none
    | cons hv _ ih =>
      cases k with
      | zero => exact .some hv
      | succ k => exact ih k
  · exact .null

theorem twin_index (h : v.Twin r v') (h' : w.Twin r w') :
    Outcome (Value.Twin r) (v.index w) (v'.index w') := by
  cases h with
  | null => exact .ok .null
  | array items =>
    unfold Value.index
    rw [h'.asInt]
    exact (Paired.refl _).bind fun i _ hi => hi ▸ .ok (twin_itemAt items i)
  | map keys values =>
    unfold Value.index
    rw [display_twin h']
    exact twin_property (.map keys values) _
  | element h =>
    unfold Value.index
    rw [display_twin h']
    exact twin_property (.element h) _
  | _ => exact .error rfl

-- =============================================================== operators

/-- An outcome without nodes is its own twin. -/
theorem twin_checked (i : Option Int64) :
    Outcome (Value.Twin r) (checked i) (checked i) := by
  cases i with
  | none => exact .error rfl
  | some i => exact .ok (.int i)

theorem twin_wholeRemainder (i j : Int64) :
    Outcome (Value.Twin r) (wholeRemainder i j) (wholeRemainder i j) := by
  unfold wholeRemainder
  split
  · exact .error rfl
  · exact twin_checked _

theorem operand_twin (h : v.Twin r v') : operand v = operand v' := by
  unfold operand
  rw [h.number?, h.kind]

theorem twin_negate (h : v.Twin r v') :
    Outcome (Value.Twin r) (negate v) (negate v') := by
  unfold negate
  rw [h.number?, h.kind]
  split
  · exact twin_checked _
  · exact .ok (.float _)
  · exact .error rfl

theorem twin_arithmetic {onWhole : Int64 → Int64 → Except Error Value}
    (hwhole : ∀ i j, Outcome (Value.Twin r) (onWhole i j) (onWhole i j))
    (onFloats : Float → Float → Float) (h : v.Twin r v') (h' : w.Twin r w') :
    Outcome (Value.Twin r) (arithmetic onWhole onFloats v w)
      (arithmetic onWhole onFloats v' w') := by
  unfold arithmetic
  rw [operand_twin h, operand_twin h']
  refine (Paired.refl _).bind fun a _ ha => (Paired.refl _).bind fun b _ hb => ?_
  subst ha hb
  split
  · exact hwhole _ _
  · exact .ok (.float _)

theorem twin_add (h : v.Twin r v') (h' : w.Twin r w') :
    Outcome (Value.Twin r) (add v w) (add v' w') := by
  unfold add
  rw [h.isString, h'.isString, display_twin h, display_twin h']
  split
  · exact .ok (.string _)
  · exact twin_arithmetic (fun _ _ => twin_checked _) _ h h'

theorem twin_divide (h : v.Twin r v') (h' : w.Twin r w') :
    Outcome (Value.Twin r) (divide v w) (divide v' w') := by
  unfold divide
  rw [operand_twin h, operand_twin h']
  refine (Paired.refl _).bind fun a _ ha => (Paired.refl _).bind fun b _ hb => ?_
  subst ha hb
  exact .ok (.float _)

/-- A boolean that comes of the same steps. -/
theorem twin_bool {α : Type} (x : Except Error α) (f : α → Bool) :
    Outcome (Value.Twin r) (x >>= fun a => pure (Value.bool (f a)))
      (x >>= fun a => pure (Value.bool (f a))) :=
  (Paired.refl x).bind fun a _ ha => ha ▸ .ok (.bool (f a))

theorem twin_applyBinary (op : BinaryOp) (h : v.Twin r v')
    (h' : w.Twin r w') :
    Outcome (Value.Twin r) (applyBinary op v w) (applyBinary op v' w') := by
  have compared (f : Ordering → Bool) :
      Outcome (Value.Twin r) (v.order w >>= fun o => pure (Value.bool (f o)))
        (v'.order w' >>= fun o => pure (Value.bool (f o))) := by
    rw [order_twin h h']
    exact twin_bool _ f
  cases op with
  | equals =>
    show Outcome _ (.ok (Value.bool (v.equal w))) (.ok (Value.bool (v'.equal w')))
    rw [equal_twin h h']
    exact .ok (.bool _)
  | notEquals =>
    show Outcome _ (.ok (Value.bool (!v.equal w))) (.ok (Value.bool (!v'.equal w')))
    rw [equal_twin h h']
    exact .ok (.bool _)
  | less => exact compared (· == .lt)
  | lessOrEqual => exact compared (· != .gt)
  | greater => exact compared (· == .gt)
  | greaterOrEqual => exact compared (· != .lt)
  | plus => exact twin_add h h'
  | minus => exact twin_arithmetic (fun _ _ => twin_checked _) _ h h'
  | times => exact twin_arithmetic (fun _ _ => twin_checked _) _ h h'
  | divide => exact twin_divide h h'
  | modulo => exact twin_arithmetic twin_wholeRemainder _ h h'
  | and =>
    unfold applyBinary
    rw [h.asBool, h'.asBool]
    refine (Paired.refl _).bind fun b _ hb => ?_
    subst hb
    cases b with
    | true => exact twin_bool _ id
    | false => exact .ok (.bool false)
  | or =>
    unfold applyBinary
    rw [h.asBool, h'.asBool]
    refine (Paired.refl _).bind fun b _ hb => ?_
    subst hb
    cases b with
    | true => exact .ok (.bool true)
    | false => exact twin_bool _ id

theorem twin_applyUnary (op : UnaryOp) (h : v.Twin r v') :
    Outcome (Value.Twin r) (applyUnary op v) (applyUnary op v') := by
  cases op with
  | minus => exact twin_negate h
  | not =>
    unfold applyUnary
    rw [h.asBool]
    exact twin_bool _ not
  | empty =>
    show Outcome _ (.ok (Value.bool v.isEmpty)) (.ok (Value.bool v'.isEmpty))
    rw [h.isEmpty]
    exact .ok (.bool _)

end

-- =============================================================== libraries

/-- From twins as arguments the functions of the two libraries make twins, or
they fail with the same error. -/
def Library.Twin (r : Renumbering) (l l' : Library) : Prop :=
  ∀ name vs vs', List.Forall₂ (Value.Twin r) vs vs' →
    Outcome (Value.Twin r) (l.call name vs) (l'.call name vs')

section

variable {r : Renumbering} {v v' : Value} {vs vs' : List Value}

theorem chars_twin (h : v.Twin r v') : Library.chars v = Library.chars v' :=
  congrArg String.toList (display_twin h)

theorem length_twin (h : v.Twin r v') :
    Library.length v = Library.length v' := by
  cases h with
  | array items => exact items.length_eq
  | map keys _ =>
    have lengths := congrArg List.length keys
    rwa [List.length_map, List.length_map] at lengths
  | element h =>
    exact congrArg List.length (chars_twin (Value.Twin.element h))
  | _ => rfl

theorem twin_join {items items' : Value} (h : items.Twin r items')
    (separator : String) :
    Outcome (Value.Twin r) (Library.join items separator)
      (Library.join items' separator) := by
  have texts : ∀ {vs vs'}, List.Forall₂ (Value.Twin r) vs vs' →
      vs.map Value.display = vs'.map Value.display := by
    intro vs vs' hvs
    induction hvs with
    | nil => rfl
    | cons hv _ ih => rw [List.map_cons, List.map_cons, display_twin hv, ih]
  cases h with
  | null => exact .ok (.string "")
  | array items =>
    unfold Library.join
    dsimp only
    rw [texts items]
    exact .ok (.string _)
  | _ => exact .error rfl

theorem twin_split (s delimiters : List Char) :
    (Value.array (Library.split s delimiters)).Twin r
      (.array (Library.split s delimiters)) := by
  refine .array (List.forall₂_same.2 fun v hv => twin_of_isString ?_)
  unfold Library.split at hv
  split at hv
  · rw [List.mem_singleton.1 hv]
    rfl
  · obtain ⟨piece, -, rfl⟩ := List.mem_map.1 hv
    rfl

theorem twin_position (s t : List Char) :
    (Library.position s t).Twin r (Library.position s t) := by
  unfold Library.position
  split
  · exact .int _
  · exact .int _

/-- As many arguments on both sides as are taken. -/
theorem exists_one (h : List.Forall₂ (Value.Twin r) vs vs')
    (hlength : vs.length = 1) :
    ∃ v v', vs = [v] ∧ vs' = [v'] ∧ v.Twin r v' := by
  obtain ⟨v, rfl⟩ := List.length_eq_one_iff.1 hlength
  cases h with
  | cons hv hrest =>
    cases hrest
    exact ⟨_, _, rfl, rfl, hv⟩

theorem exists_two (h : List.Forall₂ (Value.Twin r) vs vs')
    (hlength : vs.length = 2) :
    ∃ v v' w w', vs = [v, w] ∧ vs' = [v', w'] ∧ v.Twin r v' ∧ w.Twin r w' := by
  cases h with
  | nil => cases hlength
  | cons hv hrest =>
    obtain ⟨w, w', rfl, rfl, hw⟩ :=
      exists_one hrest (Nat.succ.inj hlength)
    exact ⟨_, _, _, _, rfl, rfl, hv, hw⟩

theorem exists_three (h : List.Forall₂ (Value.Twin r) vs vs')
    (hlength : vs.length = 3) :
    ∃ u u' v v' w w', vs = [u, v, w] ∧ vs' = [u', v', w'] ∧ u.Twin r u'
      ∧ v.Twin r v' ∧ w.Twin r w' := by
  cases h with
  | nil => cases hlength
  | cons hu hrest =>
    obtain ⟨v, v', w, w', rfl, rfl, hv, hw⟩ :=
      exists_two hrest (Nat.succ.inj hlength)
    exact ⟨_, _, _, _, _, _, rfl, rfl, hu, hv, hw⟩

theorem twin_apply {name : String}
    (hname : (name, vs.length) ∈ Library.arities)
    (h : List.Forall₂ (Value.Twin r) vs vs') :
    Outcome (Value.Twin r) (Library.apply name vs) (Library.apply name vs') := by
  simp only [Library.arities, List.mem_cons, Prod.mk.injEq, List.not_mem_nil,
    or_false] at hname
  rcases hname with ⟨rfl, hn⟩ | ⟨rfl, hn⟩ | ⟨rfl, hn⟩ | ⟨rfl, hn⟩ | ⟨rfl, hn⟩
    | ⟨rfl, hn⟩ | ⟨rfl, hn⟩ | ⟨rfl, hn⟩ | ⟨rfl, hn⟩ | ⟨rfl, hn⟩ | ⟨rfl, hn⟩
    | ⟨rfl, hn⟩ | ⟨rfl, hn⟩ | ⟨rfl, hn⟩ | ⟨rfl, hn⟩ | ⟨rfl, hn⟩
  · obtain ⟨v, v', rfl, rfl, hv⟩ := exists_one h hn
    rw [Library.apply, Library.apply, length_twin hv]
    exact .ok (.int _)
  · obtain ⟨v, v', rfl, rfl, hv⟩ := exists_one h hn
    rw [Library.apply, Library.apply, display_twin hv]
    exact .ok (.string _)
  · obtain ⟨v, v', rfl, rfl, hv⟩ := exists_one h hn
    rw [Library.apply, Library.apply, display_twin hv]
    exact .ok (.string _)
  · obtain ⟨v, v', rfl, rfl, hv⟩ := exists_one h hn
    rw [Library.apply, Library.apply, chars_twin hv]
    exact .ok (.string _)
  · obtain ⟨u, u', v, v', w, w', rfl, rfl, hu, hv, hw⟩ := exists_three h hn
    rw [Library.apply, Library.apply, chars_twin hu, hv.asInt, hw.asInt]
    refine (Paired.refl _).bind fun i _ hi => (Paired.refl _).bind fun j _ hj => ?_
    subst hi hj
    exact .ok (.string _)
  · obtain ⟨v, v', w, w', rfl, rfl, hv, hw⟩ := exists_two h hn
    rw [Library.apply, Library.apply, chars_twin hv, chars_twin hw]
    exact .ok (.string _)
  · obtain ⟨v, v', w, w', rfl, rfl, hv, hw⟩ := exists_two h hn
    rw [Library.apply, Library.apply, chars_twin hv, chars_twin hw]
    exact .ok (.string _)
  · obtain ⟨v, v', w, w', rfl, rfl, hv, hw⟩ := exists_two h hn
    rw [Library.apply, Library.apply, chars_twin hv, chars_twin hw]
    exact .ok (.bool _)
  · obtain ⟨v, v', w, w', rfl, rfl, hv, hw⟩ := exists_two h hn
    rw [Library.apply, Library.apply, display_twin hv, display_twin hw]
    exact .ok (.bool _)
  · obtain ⟨v, v', w, w', rfl, rfl, hv, hw⟩ := exists_two h hn
    rw [Library.apply, Library.apply, chars_twin hv, chars_twin hw]
    exact .ok (.bool _)
  · obtain ⟨v, v', w, w', rfl, rfl, hv, hw⟩ := exists_two h hn
    rw [Library.apply, Library.apply, chars_twin hv, chars_twin hw]
    exact .ok (.bool _)
  · obtain ⟨v, v', w, w', rfl, rfl, hv, hw⟩ := exists_two h hn
    rw [Library.apply, Library.apply, chars_twin hv, chars_twin hw]
    exact .ok (twin_position _ _)
  · obtain ⟨u, u', v, v', w, w', rfl, rfl, hu, hv, hw⟩ := exists_three h hn
    rw [Library.apply, Library.apply, chars_twin hu, chars_twin hv, chars_twin hw]
    exact .ok (.string _)
  · obtain ⟨v, v', w, w', rfl, rfl, hv, hw⟩ := exists_two h hn
    rw [Library.apply, Library.apply, chars_twin hv, chars_twin hw]
    exact .ok (twin_split _ _)
  · obtain ⟨v, v', w, w', rfl, rfl, hv, hw⟩ := exists_two h hn
    rw [Library.apply, Library.apply, display_twin hw]
    exact twin_join hv _
  · obtain ⟨v, v', rfl, rfl, hv⟩ := exists_one h hn
    rw [Library.apply, Library.apply, display_twin hv]
    exact .ok (.string _)

end

/-- The functions on texts make twins of twins. -/
theorem Library.twin_strings (r : Renumbering) :
    Library.strings.Twin r .strings := by
  intro name vs vs' h
  unfold Library.strings
  dsimp only
  rw [← h.length_eq]
  cases hname : Library.arities.lookup name with
  | none => exact .error rfl
  | some n =>
    dsimp only
    split
    · next hlength => exact twin_apply (hlength ▸ mem_of_lookup hname) h
    · exact .error rfl

-- ============================================================== evaluation

/-- Names mean twins. -/
structure Environment.Twin (r : Renumbering) (env env' : Environment) :
    Prop where
  value? (name : String) :
    Option.Rel (Value.Twin r) (env.value? name) (env'.value? name)
  uri? (q : String) : env.uri? q = env'.uri? q
  library? (uri : String) :
    Option.Rel (Library.Twin r) (env.library? uri) (env'.library? uri)

section

variable {r : Renumbering} {env env' : Environment}

theorem twin_literal (l : Literal) : l.value.Twin r l.value := by
  cases l with
  | null => exact .null
  | bool b => exact .bool b
  | int i => exact .int i
  | float f => exact .float f
  | string s => exact .string s

theorem twin_libraryOf (h : env.Twin r env') (q : String) :
    Outcome (Library.Twin r) (env.libraryOf q) (env'.libraryOf q) := by
  unfold Environment.libraryOf
  rw [h.uri? q]
  cases env'.uri? q with
  | none => exact .error rfl
  | some uri =>
    have found := h.library? uri
    dsimp only
    generalize env.library? uri = l at found ⊢
    generalize env'.library? uri = l' at found ⊢
    cases found with
    | none => exact .error rfl
    | some hl => exact .ok hl

/-- The second operand may not be asked for, but if it is then on both sides. -/
theorem twin_binary (op : BinaryOp) {l t : Term}
    (hl : Outcome (Value.Twin r) (l.eval env) (l.eval env'))
    (ht : Outcome (Value.Twin r) (t.eval env) (t.eval env')) :
    Outcome (Value.Twin r) ((Term.binary op l t).eval env)
      ((Term.binary op l t).eval env') := by
  have bool {v v' : Value} (hv : v.Twin r v') :
      Outcome (· = ·) v.asBool v'.asBool := hv.asBool ▸ Paired.refl _
  cases op with
  | and =>
    rw [Term.eval, Term.eval]
    refine hl.bind fun v v' hv => (bool hv).bind fun b _ hb => ?_
    subst hb
    split
    · refine ht.bind fun w w' hw => (bool hw).bind fun c _ hc => ?_
      exact hc ▸ .ok (.bool c)
    · exact .ok (.bool false)
  | or =>
    rw [Term.eval, Term.eval]
    refine hl.bind fun v v' hv => (bool hv).bind fun b _ hb => ?_
    subst hb
    split
    · exact .ok (.bool true)
    · refine ht.bind fun w w' hw => (bool hw).bind fun c _ hc => ?_
      exact hc ▸ .ok (.bool c)
  | _ =>
    rw [eval_strict rfl, eval_strict rfl]
    refine hl.bind fun v v' hv => ht.bind fun w w' hw => ?_
    exact twin_applyBinary _ hv hw

mutual

theorem twin_eval (h : env.Twin r env') : ∀ t : Term,
    Outcome (Value.Twin r) (t.eval env) (t.eval env')
  | .literal l => by
    rw [Term.eval, Term.eval]
    exact .ok (twin_literal l)
  | .variable name => by
    have found := h.value? name
    rw [Term.eval, Term.eval]
    generalize env.value? name = v at found ⊢
    generalize env'.value? name = v' at found ⊢
    cases found with
    | none => exact .error rfl
    | some hv => exact .ok hv
  | .array es => by
    rw [Term.eval, Term.eval]
    exact (twin_evalItems h es).bind fun _ _ hvs => .ok (.array hvs)
  | .object es => by
    rw [Term.eval, Term.eval]
    exact (twin_evalEntries h es).bind fun _ _ hes => .ok (.ofEntries hes)
  | .property e name => by
    rw [Term.eval, Term.eval]
    exact (twin_eval h e).bind fun _ _ hv => twin_property hv name
  | .index e i => by
    rw [Term.eval, Term.eval]
    refine (twin_eval h e).bind fun _ _ hv => ?_
    exact (twin_eval h i).bind fun _ _ hi => twin_index hv hi
  | .call q name args => by
    rw [Term.eval, Term.eval]
    refine (twin_libraryOf h q).bind fun _ _ hl => ?_
    exact (twin_evalItems h args).bind fun _ _ hvs => hl name _ _ hvs
  | .unary op e => by
    rw [Term.eval, Term.eval]
    exact (twin_eval h e).bind fun _ _ hv => twin_applyUnary op hv
  | .binary op l t => twin_binary op (twin_eval h l) (twin_eval h t)
  | .conditional test yes no => by
    rw [Term.eval, Term.eval]
    refine (twin_eval h test).bind fun v v' hv => ?_
    rw [hv.asBool]
    refine (Paired.refl _).bind fun b _ hb => ?_
    subst hb
    split
    · exact twin_eval h yes
    · exact twin_eval h no

theorem twin_evalItems (h : env.Twin r env') : ∀ es : List Term,
    Outcome (List.Forall₂ (Value.Twin r)) (evalItems env es)
      (evalItems env' es)
  | [] => by
    rw [evalItems, evalItems]
    exact .ok .nil
  | e :: es => by
    rw [evalItems, evalItems]
    refine (twin_eval h e).bind fun _ _ hv => ?_
    exact (twin_evalItems h es).bind fun _ _ hvs => .ok (.cons hv hvs)

theorem twin_evalEntries (h : env.Twin r env') :
    ∀ es : List (String × Term),
      Outcome (List.Forall₂ (EntryTwin r)) (evalEntries env es)
        (evalEntries env' es)
  | [] => by
    rw [evalEntries, evalEntries]
    exact .ok .nil
  | (k, e) :: es => by
    rw [evalEntries, evalEntries]
    refine (twin_eval h e).bind fun _ _ hv => ?_
    exact (twin_evalEntries h es).bind fun _ _ hes => .ok (.cons ⟨rfl, hv⟩ hes)

end

theorem twin_evaluate (h : env.Twin r env') (text : String) :
    Outcome (Value.Twin r) (evaluate env text) (evaluate env' text) :=
  (Paired.refl (parse text)).bind fun t _ ht => ht ▸ twin_eval h t

-- =========================================================== substitution

theorem substituteFrom_twin (h : env.Twin r env') (whole : String)
    (s : List Char) :
    substituteFrom env whole s = substituteFrom env' whole s := by
  refine Paired.eq ?_
  fun_induction substituteFrom env whole s with
  | case1 s hs =>
    rw [substituteFrom_none hs]
    exact .ok rfl
  | case2 s before behind hs hescaped ih =>
    rw [substituteFrom_escaped hs hescaped]
    exact ih.bind fun rest _ hrest => hrest ▸ .ok rfl
  | case3 s before behind hs hescaped hopen =>
    rw [substituteFrom_unclosed hs hescaped hopen]
    exact .error rfl
  | case4 s before behind hs hescaped body rest hbody ih =>
    rw [substituteFrom_expression hs hescaped hbody]
    refine (twin_evaluate h _).bind fun v v' hv => ?_
    rw [display_twin hv]
    exact ih.bind fun rest _ hrest => hrest ▸ .ok rfl

/-- A text comes out the same. -/
theorem substitute_twin (h : env.Twin r env') (text : String) :
    substitute env text = substitute env' text := by
  unfold substitute
  rw [substituteFrom_twin h]

end

end Stencil.Expr
