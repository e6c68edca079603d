/-
Lists, options and results that are related part by part: what is found in
them is related too.
-/
import Mathlib.Data.List.Forall2

namespace Stencil

variable {α β γ δ ε ε' : Type} {Q : α → β → Prop}

-- ================================================================== lists

/-- The first element of each list that a test accepts, if the test is the
same. -/
theorem rel_find? {as : List α} {bs : List β} {p : α → Bool} {p' : β → Bool}
    (h : List.Forall₂ Q as bs) (hp : ∀ a b, Q a b → p a = p' b) :
    Option.Rel Q (as.find? p) (bs.find? p') := by
  induction h with
  | nil => exact .none
  | @cons a b as bs hab _ ih =>
    rw [List.find?_cons, List.find?_cons, hp a b hab]
    cases p' b with
    | true => exact .some hab
    | false => exact ih

theorem mem_of_lookup {as : List (String × α)} {key : String} {a : α}
    (h : as.lookup key = some a) : (key, a) ∈ as := by
  obtain ⟨before, behind, rfl, -⟩ := List.lookup_eq_some_iff.1 h
  exact List.mem_append_right before List.mem_cons_self

/-- What is looked up in lists of the same keys. -/
theorem rel_lookup {as : List (String × α)} {bs : List (String × β)}
    (h : List.Forall₂ (fun a b => a.1 = b.1 ∧ Q a.2 b.2) as bs)
    (key : String) : Option.Rel Q (as.lookup key) (bs.lookup key) := by
  induction h with
  | nil => exact .none
  | @cons a b as bs hab _ ih =>
    obtain ⟨k, x⟩ := a
    obtain ⟨k', y⟩ := b
    obtain ⟨rfl, hxy⟩ := hab
    rw [List.lookup_cons, List.lookup_cons]
    dsimp only
    cases key == k with
    | true => exact .some hxy
    | false => exact ih

/-- Entries are related if they have the same keys and related values. -/
theorem forall₂_entries {κ : Type} {as : List (κ × α)} {bs : List (κ × β)} :
    List.Forall₂ (fun a b => a.1 = b.1 ∧ Q a.2 b.2) as bs
      ↔ as.map Prod.fst = bs.map Prod.fst
        ∧ List.Forall₂ Q (as.map Prod.snd) (bs.map Prod.snd) := by
  constructor
  · intro h
    induction h with
    | nil => exact ⟨rfl, .nil⟩
    | cons hab _ ih =>
      exact ⟨congrArg₂ List.cons hab.1 ih.1, .cons hab.2 ih.2⟩
  · intro ⟨keys, values⟩
    induction as generalizing bs with
    | nil =>
      cases bs with
      | nil => exact .nil
      | cons => cases keys
    | cons a as ih =>
      cases bs with
      | nil => cases keys
      | cons b bs =>
        obtain ⟨key, keys⟩ := List.cons.inj keys
        cases values with
        | cons value values => exact .cons ⟨key, value⟩ (ih keys values)

theorem rel_findSome? {Q' : γ → δ → Prop} {as : List α} {bs : List β}
    {f : α → Option γ} {f' : β → Option δ} (h : List.Forall₂ Q as bs)
    (hf : ∀ a b, Q a b → Option.Rel Q' (f a) (f' b)) :
    Option.Rel Q' (as.findSome? f) (bs.findSome? f') := by
  induction h with
  | nil => exact .none
  | @cons a b as bs hab _ ih =>
    have hfirst := hf a b hab
    rw [List.findSome?_cons, List.findSome?_cons]
    generalize f a = x at hfirst ⊢
    generalize f' b = y at hfirst ⊢
    cases hfirst with
    | some hxy => exact .some hxy
    | none => exact ih

/-- What is found first in each list, if what is found in their parts is the
same. -/
theorem findSome?_eq {as : List α} {bs : List β} {f : α → Option γ}
    {f' : β → Option γ} (h : List.Forall₂ Q as bs)
    (hf : ∀ a b, Q a b → f a = f' b) : as.findSome? f = bs.findSome? f' := by
  induction h with
  | nil => rfl
  | @cons a b as bs hab _ ih =>
    rw [List.findSome?_cons, List.findSome?_cons, hf a b hab, ih]

-- ================================================================ results

/-- Both results are values, or both are errors, and they are related. -/
inductive Paired (E : ε → ε' → Prop) (Q : α → β → Prop) :
    Except ε α → Except ε' β → Prop
  | ok {a : α} {b : β} (h : Q a b) : Paired E Q (.ok a) (.ok b)
  | error {e : ε} {e' : ε'} (h : E e e') : Paired E Q (.error e) (.error e')

namespace Paired

variable {E : ε → ε' → Prop} {Q' : γ → δ → Prop} {x : Except ε α}
  {x' : Except ε' β}

theorem bind {f : α → Except ε γ} {f' : β → Except ε' δ} (hx : Paired E Q x x')
    (hf : ∀ a b, Q a b → Paired E Q' (f a) (f' b)) :
    Paired E Q' (x >>= f) (x' >>= f') := by
  cases hx with
  | ok h => exact hf _ _ h
  | error h => exact .error h

theorem map {f : α → γ} {f' : β → δ} (hx : Paired E Q x x')
    (hf : ∀ a b, Q a b → Q' (f a) (f' b)) :
    Paired E Q' (x.map f) (x'.map f') := by
  cases hx with
  | ok h => exact .ok (hf _ _ h)
  | error h => exact .error h

/-- A result is paired with itself. -/
theorem refl (x : Except ε α) : Paired (· = ·) (· = ·) x x := by
  cases x with
  | ok a => exact .ok rfl
  | error e => exact .error rfl

/-- Results that are paired as the same are the same. -/
theorem eq {x x' : Except ε α} (h : Paired (· = ·) (· = ·) x x') : x = x' := by
  cases h with
  | ok h => rw [h]
  | error h => rw [h]

end Paired

/-- What goes well in the end went well at first. -/
theorem bind_eq_ok {x : Except ε α} {f : α → Except ε β} {b : β}
    (h : x >>= f = .ok b) : ∃ a, x = .ok a ∧ f a = .ok b := by
  cases x with
  | error e => cases h
  | ok a => exact ⟨a, rfl, h⟩

theorem mapError_eq_ok {x : Except ε α} {f : ε → ε'} {a : α}
    (h : x.mapError f = .ok a) : x = .ok a := by
  cases x with
  | error e => cases h
  | ok a' => exact congrArg Except.ok (Except.ok.inj h)

end Stencil
