/-
The keys of maps.

A map has each key once. Nothing in the form of a value says so, but there is no
other way to one: the entries of literals and of attributes are entered under
their keys, operators make no maps at all, and what is selected from a value
stood in it before. So where names mean values whose maps, at any depth, have
distinct keys, expressions have such values too (`distinct_evaluate`).
-/
import Stencil.Proofs.Expr.Arithmetic
import Stencil.Proofs.Expr.Reading
import Stencil.Proofs.Related

namespace Stencil.Expr

open Markup (Node)

variable {v w : Value} {P Q : Value → Prop}

-- ============================================================= whole values

/-- What an array or a map holds. -/
def Value.parts : Value → List Value
  | .array vs => vs
  | .map es => es.map Prod.snd
  | _ => []

/-- A property of the value, of what it holds, and of what that holds. -/
inductive Value.Throughout (P : Value → Prop) : Value → Prop
  | of {v : Value} (here : P v) (within : ∀ w ∈ v.parts, Throughout P w) :
    Throughout P v

namespace Value.Throughout

theorem here (h : v.Throughout P) : P v := by
  cases h with
  | of here _ => exact here

theorem within (h : v.Throughout P) : ∀ w ∈ v.parts, w.Throughout P := by
  cases h with
  | of _ within => exact within

theorem entry {es : List (String × Value)} (h : (Value.map es).Throughout P)
    {e : String × Value} (he : e ∈ es) : e.2.Throughout P :=
  h.within _ (List.mem_map_of_mem he)

end Value.Throughout

/-- The keys of a map differ. -/
def Value.KeysDiffer : Value → Prop
  | .map es => (es.map Prod.fst).Nodup
  | _ => True

/-- Every map in the value has each key once. -/
def Value.Distinct (v : Value) : Prop := v.Throughout Value.KeysDiffer

theorem distinct_array {vs : List Value} (h : ∀ v ∈ vs, v.Distinct) :
    (Value.array vs).Distinct :=
  .of trivial h

theorem distinct_map {es : List (String × Value)}
    (hkeys : (es.map Prod.fst).Nodup) (h : ∀ e ∈ es, e.2.Distinct) :
    (Value.map es).Distinct :=
  .of hkeys (List.forall_mem_map.2 h)

/-- A value that is neither an array nor a map. -/
def Value.Simple : Value → Prop
  | .array _ => False
  | .map _ => False
  | _ => True

theorem Value.Simple.distinct (h : v.Simple) : v.Distinct := by
  cases v with
  | array vs => exact h.elim
  | map es => exact h.elim
  | _ => exact .of trivial (List.forall_mem_nil _)

-- ================================================================ outcomes

section

variable {ε α β : Type} {R : α → Prop} {S : β → Prop}

/-- If there is a result, then one with the property. -/
def Results (R : α → Prop) (x : Except ε α) : Prop := ∀ a, x = .ok a → R a

theorem results_ok {a : α} (h : R a) : Results R (.ok a : Except ε α) := by
  intro b hb
  cases hb
  exact h

theorem results_error (e : ε) : Results R (.error e) := nofun

theorem results_bind {x : Except ε α} {f : α → Except ε β} (hx : Results R x)
    (hf : ∀ a, R a → Results S (f a)) : Results S (x >>= f) := by
  cases x with
  | ok a => exact hf a (hx a rfl)
  | error e => exact results_error e

/-- Whatever comes first. -/
theorem results_after {x : Except ε α} {f : α → Except ε β}
    (hf : ∀ a, Results S (f a)) : Results S (x >>= f) :=
  results_bind (R := fun _ => True) (fun _ _ => trivial) fun a _ => hf a

theorem results_mapError {ε' : Type} {x : Except ε α} (h : Results R x)
    (f : ε → ε') : Results R (x.mapError f) := by
  cases x with
  | ok a => exact results_ok (h a rfl)
  | error e => exact results_error _

theorem Results.mono {R' : α → Prop} {x : Except ε α} (h : Results R x)
    (hR : ∀ a, R a → R' a) : Results R' x :=
  fun a ha => hR a (h a ha)

end

-- =============================================================== operators

theorem simple_checked (i : Option Int64) : Results Value.Simple (checked i) := by
  cases i with
  | some i => exact results_ok trivial
  | none => exact results_error _

theorem simple_wholeRemainder (i j : Int64) :
    Results Value.Simple (wholeRemainder i j) := by
  unfold wholeRemainder
  split
  · exact results_error _
  · exact simple_checked _

theorem simple_arithmetic {onWhole : Int64 → Int64 → Except Error Value}
    (h : ∀ i j, Results Value.Simple (onWhole i j))
    (onFloats : Float → Float → Float) (l r : Value) :
    Results Value.Simple (arithmetic onWhole onFloats l r) := by
  refine results_after fun a => results_after fun b => ?_
  split
  · exact h _ _
  · exact results_ok trivial

/-- Operators give numbers, texts and booleans. -/
theorem simple_applyBinary (op : BinaryOp) (l r : Value) :
    Results Value.Simple (applyBinary op l r) := by
  have compared (f : Ordering → Bool) : Results Value.Simple
      (l.order r >>= fun o => pure (Value.bool (f o))) :=
    results_after fun _ => results_ok trivial
  cases op with
  | equals => exact results_ok trivial
  | notEquals => exact results_ok trivial
  | less => exact compared (· == .lt)
  | lessOrEqual => exact compared (· != .gt)
  | greater => exact compared (· == .gt)
  | greaterOrEqual => exact compared (· != .lt)
  | plus =>
    show Results _ (add l r)
    unfold add
    split
    · exact results_ok trivial
    · exact simple_arithmetic (fun _ _ => simple_checked _) _ l r
  | minus => exact simple_arithmetic (fun _ _ => simple_checked _) _ l r
  | times => exact simple_arithmetic (fun _ _ => simple_checked _) _ l r
  | divide => exact results_after fun _ => results_after fun _ => results_ok trivial
  | modulo => exact simple_arithmetic simple_wholeRemainder _ l r
  | and =>
    refine results_after fun b => ?_
    cases b with
    | true => exact results_after fun _ => results_ok trivial
    | false => exact results_ok trivial
  | or =>
    refine results_after fun b => ?_
    cases b with
    | true => exact results_ok trivial
    | false => exact results_after fun _ => results_ok trivial

theorem simple_applyUnary (op : UnaryOp) (v : Value) :
    Results Value.Simple (applyUnary op v) := by
  cases op with
  | minus =>
    show Results _ (negate v)
    unfold negate
    split
    · exact simple_checked _
    · exact results_ok trivial
    · exact results_error _
  | not => exact results_after fun _ => results_ok trivial
  | empty => exact results_ok trivial

-- ============================================================== selections

/-- Texts entered under their keys. -/
theorem distinct_texts {es : List (String × Value)}
    (hkeys : (es.map Prod.fst).Nodup) (h : ∀ e ∈ es, e.2.isString = true) :
    (Value.map es).Distinct := by
  refine distinct_map hkeys fun e he => Value.Simple.distinct ?_
  have hstring := h e he
  generalize e.2 = v at hstring
  cases v with
  | string s => trivial
  | _ => cases hstring

theorem distinct_attributeMap (n : Node) : (Value.attributeMap n).Distinct := by
  refine distinct_texts (nodup_enterAll _) fun e he => ?_
  obtain ⟨a, -, rfl⟩ := List.mem_map.1 (mem_enterAll e he)
  rfl

theorem distinct_nodeProperty (n : Node) (name : String) :
    (Value.nodeProperty n name).Distinct := by
  unfold Value.nodeProperty
  split
  · cases n.tag? <;> exact Value.Simple.distinct trivial
  · exact distinct_array <| List.forall_mem_map.2 fun _ _ =>
      Value.Simple.distinct trivial
  · exact distinct_attributeMap n
  · exact Value.Simple.distinct trivial
  · exact Value.Simple.distinct trivial

theorem distinct_property (h : v.Distinct) (name : String) :
    Results Value.Distinct (v.property name) := by
  cases v with
  | null => exact results_ok h
  | map es =>
    refine results_ok ?_
    cases hw : es.lookup name with
    | none => exact Value.Simple.distinct trivial
    | some w => exact h.entry (mem_of_lookup hw)
  | element n => exact results_ok (distinct_nodeProperty n name)
  | _ => exact results_error _

theorem distinct_index (h : v.Distinct) (i : Value) :
    Results Value.Distinct (v.index i) := by
  cases v with
  | null => exact results_ok h
  | array vs =>
    refine results_after fun i => results_ok ?_
    unfold Value.itemAt
    split
    · cases hw : vs[i.toInt.toNat]? with
      | none => exact Value.Simple.distinct trivial
      | some w => exact h.within w (List.mem_of_getElem? hw)
    · exact Value.Simple.distinct trivial
  | map es => exact distinct_property h _
  | element n => exact distinct_property h _
  | _ => exact results_error _

-- ============================================================== evaluation

/-- The functions make no map with a key twice. -/
def Library.Distinct (l : Library) : Prop :=
  ∀ name args, (∀ v ∈ args, v.Distinct) → Results Value.Distinct (l.call name args)

theorem distinct_split (s delimiters : List Char) :
    (Value.array (Library.split s delimiters)).Distinct := by
  unfold Library.split
  split
  · exact distinct_array <| List.forall_mem_singleton.2 <|
      Value.Simple.distinct trivial
  · exact distinct_array <| List.forall_mem_map.2 fun _ _ =>
      Value.Simple.distinct trivial

theorem distinct_apply (name : String) (args : List Value) :
    Results Value.Distinct (Library.apply name args) := by
  have simple {v : Value} (h : v.Simple) :
      Results Value.Distinct (.ok v : Except Error Value) := results_ok h.distinct
  unfold Library.apply
  split
  case h_5 => exact results_after fun _ => results_after fun _ => simple trivial
  case h_12 =>
    unfold Library.position
    split <;> exact simple trivial
  case h_14 => exact results_ok (distinct_split _ _)
  case h_15 =>
    unfold Library.join
    split
    · exact simple trivial
    · exact simple trivial
    · exact results_error _
  case h_17 => exact results_error _
  all_goals exact simple trivial

theorem Library.distinct_strings : Library.strings.Distinct := by
  intro name args _
  show Results Value.Distinct (strings.call name args)
  unfold strings
  dsimp only
  split
  · exact results_error _
  · split
    · exact distinct_apply name args
    · exact results_error _

/-- Keys differ in what names mean and in what functions make. -/
structure Environment.Distinct (env : Environment) : Prop where
  values : ∀ name v, env.value? name = some v → v.Distinct
  libraries : ∀ uri l, env.library? uri = some l → l.Distinct

section

variable {env : Environment}

theorem distinct_libraryOf (h : env.Distinct) (qualifier : String) :
    Results Library.Distinct (env.libraryOf qualifier) := by
  unfold Environment.libraryOf
  split
  · exact results_error _
  · split
    · exact results_error _
    · next hl => exact results_ok (h.libraries _ _ hl)

/-- An operator makes no array and no object, so nothing is asked of its
operands. -/
theorem distinct_binary (op : BinaryOp) (l r : Term) :
    Results Value.Distinct ((Term.binary op l r).eval env) := by
  have bool {b : Bool} :
      Results Value.Distinct (.ok (.bool b) : Except Error Value) :=
    results_ok (Value.Simple.distinct trivial)
  cases op with
  | and =>
    rw [Term.eval]
    refine results_after fun _ => results_after fun _ => ?_
    split
    · exact results_after fun _ => results_after fun _ => bool
    · exact bool
  | or =>
    rw [Term.eval]
    refine results_after fun _ => results_after fun _ => ?_
    split
    · exact bool
    · exact results_after fun _ => results_after fun _ => bool
  | _ =>
    rw [eval_strict rfl]
    exact results_after fun v => results_after fun w =>
      (simple_applyBinary _ v w).mono fun _ => Value.Simple.distinct

mutual

theorem distinct_eval (h : env.Distinct) :
    ∀ t : Term, t.Proper → Results Value.Distinct (t.eval env)
  | .literal l, _ => by
    rw [Term.eval]
    cases l <;> exact results_ok (Value.Simple.distinct trivial)
  | .variable name, _ => by
    rw [Term.eval]
    split
    · next hv => exact results_ok (h.values _ _ hv)
    · exact results_error _
  | .array es, ht => by
    rw [Term.eval]
    rw [Term.Proper] at ht
    exact results_bind (distinct_evalItems h es ht) fun vs hvs =>
      results_ok (distinct_array hvs)
  | .object es, ht => by
    rw [Term.eval]
    rw [Term.Proper] at ht
    exact results_bind (distinct_evalEntries h es ht.2) fun fs ⟨hkeys, hfs⟩ =>
      results_ok (distinct_map (hkeys ▸ ht.1) hfs)
  | .property e name, ht => by
    rw [Term.eval]
    rw [Term.Proper] at ht
    exact results_bind (distinct_eval h e ht.1) fun v hv =>
      distinct_property hv name
  | .index e i, ht => by
    rw [Term.eval]
    rw [Term.Proper] at ht
    refine results_bind (distinct_eval h e ht.1) fun v hv => ?_
    exact results_after fun w => distinct_index hv w
  | .call q name args, ht => by
    rw [Term.eval]
    rw [Term.Proper] at ht
    refine results_bind (distinct_libraryOf h q) fun l hl => ?_
    exact results_bind (distinct_evalItems h args ht.2.2) fun vs hvs =>
      hl name vs hvs
  | .unary op e, _ => by
    rw [Term.eval]
    exact results_after fun v =>
      (simple_applyUnary op v).mono fun _ => Value.Simple.distinct
  | .binary op l r, _ => distinct_binary op l r
  | .conditional test yes no, ht => by
    rw [Term.eval]
    rw [Term.Proper] at ht
    refine results_after fun v => results_after fun b => ?_
    split
    · exact distinct_eval h yes ht.2.1
    · exact distinct_eval h no ht.2.2

theorem distinct_evalItems (h : env.Distinct) :
    ∀ es : List Term, ProperItems es →
      Results (∀ v ∈ ·, Value.Distinct v) (evalItems env es)
  | [], _ => by
    rw [evalItems]
    exact results_ok (List.forall_mem_nil _)
  | e :: es, hes => by
    rw [evalItems]
    refine results_bind (distinct_eval h e hes.1) fun v hv => ?_
    exact results_bind (distinct_evalItems h es hes.2) fun vs hvs =>
      results_ok (List.forall_mem_cons.2 ⟨hv, hvs⟩)

/-- Entries keep their keys. -/
theorem distinct_evalEntries (h : env.Distinct) :
    ∀ es : List (String × Term), ProperEntries es →
      Results (fun fs => fs.map Prod.fst = es.map Prod.fst
        ∧ ∀ f ∈ fs, f.2.Distinct) (evalEntries env es)
  | [], _ => by
    rw [evalEntries]
    exact results_ok ⟨rfl, List.forall_mem_nil _⟩
  | (k, e) :: es, hes => by
    rw [evalEntries]
    refine results_bind (distinct_eval h e hes.1) fun v hv => ?_
    exact results_bind (distinct_evalEntries h es hes.2) fun fs ⟨hkeys, hfs⟩ =>
      results_ok ⟨congrArg (k :: ·) hkeys, List.forall_mem_cons.2 ⟨hv, hfs⟩⟩

end

/-- What a text that is an expression is. -/
theorem proper_parse (text : String) : Results Term.Proper (parse text) := by
  unfold parse
  dsimp only
  split
  · next hread => exact results_ok (readTerm_ok hread).2
  · exact results_error _
  · exact results_error _

/-- Where the keys of maps differ, they differ in what expressions give. -/
theorem distinct_evaluate (h : env.Distinct) (text : String) :
    Results Value.Distinct (evaluate env text) :=
  results_bind (proper_parse text) fun t ht => distinct_eval h t ht

end

end Stencil.Expr
