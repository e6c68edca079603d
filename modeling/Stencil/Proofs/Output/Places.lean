/-
Where a writer stands, and how an action brings it on.

Contents that are written as nothing leave a start tag open, and any others
close it before they are added: so a place behind contents depends on the text
of the contents alone (`advance`), and places behind contents in a row are
reached one after another (`advance_append`).
-/
import Stencil.Output.Writer

namespace Stencil.Output

/-- What is not empty is not written as nothing. -/
theorem escapeText_ne_empty {s : String} (h : s ≠ "") :
    Markup.escapeText s ≠ "" := by
  intro he
  have hchars : s.toList.flatMap Markup.escapeTextChar = [] :=
    String.ofList_injective he
  refine h (String.toList_injective ?_)
  cases hs : s.toList with
  | nil => rfl
  | cons c cs =>
    rw [hs, List.flatMap_cons] at hchars
    have hfirst := (List.append_eq_nil_iff.1 hchars).1
    unfold Markup.escapeTextChar at hfirst
    split at hfirst <;> cases hfirst

namespace Writer

-- ================================================================== places

/-- Where a writer stands: the text so far, and whether it ends in a start tag
that is open. -/
abbrev Place := String × Bool

/-- What closes a start tag, if one is open. -/
def closing (tagOpen : Bool) : String := if tagOpen then ">" else ""

/-- The place behind contents that are written as `t`. -/
def advance (p : Place) (t : String) : Place :=
  if t.isEmpty then p else (p.1 ++ closing p.2 ++ t, false)

/-- The place behind the end of an element, whose start tag may still be
open. -/
def ended (p : Place) (name : String) : Place :=
  (p.1 ++ if p.2 then "/>" else "</" ++ name ++ ">", false)

theorem advance_nothing (p : Place) : advance p "" = p := rfl

theorem advance_of_ne {t : String} (h : t ≠ "") (p : Place) :
    advance p t = (p.1 ++ closing p.2 ++ t, false) :=
  if_neg fun he => h (String.isEmpty_iff.1 he)

/-- Behind a closed tag every text is just added. -/
theorem advance_closed (s t : String) :
    advance (s, false) t = (s ++ t, false) := by
  unfold advance
  split
  · next h => rw [String.isEmpty_iff.1 h, String.append_empty]
  · show (s ++ "" ++ t, false) = _
    rw [String.append_empty]

theorem advance_append (p : Place) (s t : String) :
    advance p (s ++ t) = advance (advance p s) t := by
  by_cases hs : s = ""
  · rw [hs, String.empty_append, advance_nothing]
  · have hst : s ++ t ≠ "" := fun h => hs (String.append_eq_empty_iff.1 h).1
    rw [advance_of_ne hst, advance_of_ne hs, advance_closed,
      String.append_assoc, String.append_assoc, String.append_assoc]

/-- An element closes itself in its start tag, if it holds nothing. -/
theorem ended_advance (s contents name : String) :
    (ended (advance (s, true) contents) name).1
      = s ++ if contents.isEmpty then "/>"
        else ">" ++ contents ++ "</" ++ name ++ ">" := by
  by_cases hcontents : contents = ""
  · subst hcontents
    rfl
  · have hempty : ¬ contents.isEmpty = true :=
      fun he => hcontents (String.isEmpty_iff.1 he)
    rw [advance_of_ne hcontents, if_neg hempty]
    simp only [ended, closing, if_true, Bool.false_eq_true, if_false,
      String.append_assoc]

-- ================================================================= actions

/-- An action succeeds, and brings the writer where `P` says. -/
def Brings (x : Writing Unit) (w : Writer) (P : Writer → Prop) : Prop :=
  ∃ w', x w = .ok () w' ∧ P w'

section

variable {x y : Writing Unit} {P Q : Writer → Prop} {w : Writer}

theorem brings_seq (hx : Brings x w P) (hy : ∀ w', P w' → Brings y w' Q) :
    Brings (x >>= fun _ => y) w Q := by
  obtain ⟨w₁, hw₁, hP⟩ := hx
  obtain ⟨w₂, hw₂, hQ⟩ := hy w₁ hP
  refine ⟨w₂, ?_, hQ⟩
  show EStateM.bind x (fun _ => y) w = _
  rw [EStateM.bind, hw₁]
  exact hw₂

theorem Brings.mono (hx : Brings x w P) (h : ∀ w', P w' → Q w') :
    Brings x w Q :=
  have ⟨w', hw', hP⟩ := hx
  ⟨w', hw', h w' hP⟩

theorem brings_get {f : Writer → Writing Unit} (h : Brings (f w) w P) :
    Brings (get >>= f) w P := h

theorem brings_modify {f : Writer → Writer} (h : P (f w)) :
    Brings (modify f) w P := ⟨f w, rfl, h⟩

theorem brings_skip (h : P w) : Brings (pure ()) w P := ⟨w, rfl, h⟩

theorem text_write (w : Writer) (s : String) :
    ({ w with chunks := s :: w.chunks } : Writer).text = w.text ++ s := by
  show String.join (s :: w.chunks).reverse = String.join w.chunks.reverse ++ s
  unfold String.join
  rw [List.reverse_cons, List.foldl_append]
  rfl

theorem brings_accept_all {e : Event} {es : List Event}
    (he : Brings (accept e) w P)
    (hes : ∀ w', P w' → Brings (acceptAll es) w' Q) :
    Brings (acceptAll (e :: es)) w Q :=
  brings_seq he hes

theorem brings_append {es fs : List Event} (hes : Brings (acceptAll es) w P)
    (hfs : ∀ w', P w' → Brings (acceptAll fs) w' Q) :
    Brings (acceptAll (es ++ fs)) w Q := by
  induction es generalizing w with
  | nil =>
    obtain ⟨w', hw', hP⟩ := hes
    cases hw'
    exact hfs w hP
  | cons e es ih =>
    obtain ⟨w', hw', hP⟩ := hes
    have hbind : acceptAll (e :: es) w
        = EStateM.bind (accept e) (fun _ => acceptAll es) w := rfl
    rw [hbind, EStateM.bind] at hw'
    cases he : accept e w with
    | ok _ w₁ =>
      rw [he] at hw'
      exact brings_accept_all ⟨w₁, he, rfl⟩ fun w₂ h₂ =>
        ih (h₂ ▸ ⟨w', hw', hP⟩)
    | error e w₁ =>
      rw [he] at hw'
      cases hw'

end

theorem startTag_ne_empty (name : String)
    (attributes : List (String × String)) : startTag name attributes ≠ "" := by
  intro h
  have hopen := (String.append_eq_empty_iff.1 (String.append_eq_empty_iff.1 h).1).1
  exact absurd hopen (by decide)

theorem cdataSection_ne_empty (data : String) : cdataSection data ≠ "" := by
  intro h
  have hopen := (String.append_eq_empty_iff.1 h).1
  exact absurd (String.append_eq_empty_iff.1 hopen).1 (by decide)

end Writer

end Stencil.Output
