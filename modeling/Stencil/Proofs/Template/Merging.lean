/-
Children that make no difference.

In contents, and in what is copied, a comment is passed over (`items_comment`,
`copyTrees_comment`). Two texts in a row that no expression can be part of are
written as one text is, if the output takes character data in any pieces
(`items_join`, `copyTrees_join`). In contents that is more than putting pieces
together, as ends are trimmed text by text: one of the two texts, or both, may be
white space that is trimmed away, and the trimming goes on in the other.
-/
import Stencil.Proofs.Markup.Comments
import Stencil.Proofs.Output.Chunks
import Stencil.Proofs.Template.Texts
import Stencil.Proofs.Text.Trimming

namespace Stencil.Template

open Markup (Label Node Origin Tree Verbatim)
open Output (Event)

variable {σ : Type} {s : Settings σ}

-- =================================================================== words

theorem hasExpression_verbatim {data : String} (h : Verbatim data) :
    Expr.hasExpression data = false := by
  refine Bool.eq_false_iff.2 fun hopen => h.1 ?_
  exact (Text.occurs_iff.1 hopen).subset List.mem_cons_self

theorem verbatim_append {a b : String} (ha : Verbatim a) (hb : Verbatim b) :
    Verbatim (a ++ b) := by
  unfold Verbatim
  rw [String.toList_append, List.mem_append, List.mem_append]
  exact ⟨not_or.2 ⟨ha.1, hb.1⟩, not_or.2 ⟨ha.2, hb.2⟩⟩

theorem hasExpression_trimEnds {data : String}
    (h : Expr.hasExpression data = false) (front back : Bool) :
    Expr.hasExpression (trimEnds front back data) = false := by
  obtain ⟨before, behind, hdata, -, -⟩ := exists_trimEnds front back data
  rw [hdata] at h
  exact hasExpression_part h

/-- Character data that is sent as it is; no data is no event. -/
def words (s : Settings σ) (data : String) : Run σ Unit :=
  if data.isEmpty then pure () else send s (.characters data)

/-- A text without expressions is sent as it is. -/
theorem text_plain {data : String} (h : Expr.hasExpression data = false)
    (n : Node) : text s n data = words s data := by
  unfold text words
  split
  · rfl
  · funext m
    have plain : literalText n data m.scopes.environment = .ok data := by
      unfold literalText evaluating
      dsimp only
      rw [substitute_plain h]
      rfl
    rw [bind_ok (read_ok plain)]

/-- Two runs of character data are one. -/
theorem send_send (hj : s.sink.JoinsText) (a b : String) :
    (send s (.characters a) >>= fun _ => send s (.characters b))
      = send s (.characters (a ++ b)) := by
  funext m
  have first : send s (.characters a) m
      = .ok () { m with output := (s.sink.send m.output (.characters a)).1 } := by
    have accepted : s.sink.send m.output (.characters a)
        = ((s.sink.send m.output (.characters a)).1, none) :=
      Prod.ext rfl (hj.accepts m.output a)
    unfold send
    rw [accepted]
  rw [bind_ok first]
  unfold send
  dsimp only
  rw [hj.joins]

theorem words_words (hj : s.sink.JoinsText) (a b : String) :
    (words s a >>= fun _ => words s b) = words s (a ++ b) := by
  unfold words
  by_cases ha : a.isEmpty = true
  · rw [if_pos ha, String.isEmpty_iff.1 ha, String.empty_append]
    rfl
  · by_cases hb : b.isEmpty = true
    · rw [if_neg ha, if_pos hb, String.isEmpty_iff.1 hb, String.append_empty,
        if_neg ha]
      exact bind_pure _
    · have hab : ¬ (a ++ b).isEmpty = true := fun h => ha <| by
        rw [String.isEmpty_iff] at h ⊢
        exact (String.append_eq_empty_iff.1 h).1
      rw [if_neg ha, if_neg hb, if_neg hab]
      exact send_send hj a b

-- ================================================================ trimming

section

variable {a b : String} {front back : Bool}

/-- Blank data in front is trimmed before what comes behind it. -/
theorem trimEnds_blank_front (ha : Text.allBlank a = true) :
    trimEnds true back (a ++ b) = trimEnds true back b := by
  unfold trimEnds
  rw [String.toList_append]
  exact congrArg (fun cs : List Char =>
    String.ofList (if back then Text.dropBlankEnd cs else cs))
    (Text.dropBlank_append_of_blank ha)

theorem trimEnds_blank_back (ha : front = true → Text.allBlank a = false)
    (hb : Text.allBlank b = true) :
    trimEnds front true (a ++ b) = trimEnds front true a := by
  unfold trimEnds
  rw [String.toList_append]
  cases front with
  | false => exact congrArg String.ofList (Text.dropBlankEnd_append_of_blank hb)
  | true =>
    dsimp only
    rw [if_pos rfl, if_pos rfl, if_pos rfl, if_pos rfl,
      Text.dropBlank_append_of_filled (ha rfl),
      Text.dropBlankEnd_append_of_blank hb]

theorem trimEnds_append (ha : front = true → Text.allBlank a = false)
    (hb : back = true → Text.allBlank b = false) :
    trimEnds front back (a ++ b)
      = trimEnds front false a ++ trimEnds false back b := by
  -- each end is cut in its own half, as that half is not blank
  have atFront : (if front then Text.dropBlank (a.toList ++ b.toList)
        else a.toList ++ b.toList)
      = (if front then Text.dropBlank a.toList else a.toList) ++ b.toList := by
    cases front with
    | false => rfl
    | true => exact Text.dropBlank_append_of_filled (ha rfl)
  have atBack (cs : List Char) : (if back then Text.dropBlankEnd (cs ++ b.toList)
        else cs ++ b.toList)
      = cs ++ if back then Text.dropBlankEnd b.toList else b.toList := by
    cases back with
    | false => rfl
    | true => exact Text.dropBlankEnd_append_of_filled (hb rfl)
  apply String.toList_injective
  unfold trimEnds
  dsimp only
  rw [String.toList_append, String.toList_append, atFront, atBack,
    String.toList_ofList, String.toList_ofList, String.toList_ofList]
  rfl

end

-- ================================================================ contents

section

variable {inner : Option (Inner σ)} {origin : Origin} {trail : List Tree}
  {trim front : Bool} {ts us : List Tree}

/-- Nothing is left where the end is trimmed and all is insignificant. -/
theorem items_idle (h : ts.all Tree.isInsignificant = true) :
    items s inner origin trail true front ts = pure () := by
  induction ts generalizing front with
  | nil => rfl
  | cons t ts ih =>
    rw [List.all_cons, Bool.and_eq_true] at h
    obtain ⟨ht, hts⟩ := h
    rw [items, ht, hts]
    cases front with
    | true => exact ih hts
    | false => rfl

theorem items_comment {l : Label} {c : String} {cs : List Tree}
    (h : l.content = .comment c) :
    items s inner origin trail trim front (.node l cs :: ts)
      = items s inner origin trail trim front ts := by
  have blank : (Markup.Tree.node l cs).isInsignificant = true :=
    congrArg Markup.Content.isInsignificant h
  have nothing (front back : Bool) (x : Run σ Unit) :
      item s ⟨origin, .node l cs, trail⟩ front back x = pure () := by
    have content : (⟨origin, .node l cs, trail⟩ : Node).content = .comment c :=
      h
    unfold item
    rw [content]
  rw [items, blank, nothing, Bool.and_true, Bool.and_true]
  cases front with
  | true => rfl
  | false =>
    rw [if_neg Bool.false_ne_true]
    split
    · next ends =>
      rw [Bool.and_eq_true] at ends
      rw [ends.1]
      exact (items_idle ends.2).symm
    · rfl

theorem items_comment_behind {l : Label} {c : String} {cs : List Tree}
    (h : l.content = .comment c) (t : Tree) :
    items s inner origin trail trim front (t :: .node l cs :: ts)
      = items s inner origin trail trim front (t :: ts) := by
  have blank : (Markup.Tree.node l cs).isInsignificant = true :=
    congrArg Markup.Content.isInsignificant h
  rw [items, items_comment h, items_comment h, List.all_cons, blank,
    Bool.true_and, items]

theorem items_plain {l : Label} {a : String} {cs : List Tree}
    (h : l.content = .text a) (ha : Expr.hasExpression a = false) :
    items s inner origin trail trim front (.node l cs :: ts)
      = if front && Text.allBlank a then items s inner origin trail trim true ts
        else if (trim && ts.all Tree.isInsignificant) && Text.allBlank a then
          pure ()
        else words s (trimEnds front (trim && ts.all Tree.isInsignificant) a)
          >>= fun _ => items s inner origin trail trim false ts := by
  have blank : (Markup.Tree.node l cs).isInsignificant = Text.allBlank a :=
    congrArg Markup.Content.isInsignificant h
  have sent (front back : Bool) (x : Run σ Unit) :
      item s ⟨origin, .node l cs, trail⟩ front back x
        = words s (trimEnds front back a) := by
    have content : (⟨origin, .node l cs, trail⟩ : Node).content = .text a := h
    unfold item
    rw [content]
    exact text_plain (hasExpression_trimEnds ha front back) _
  rw [items, blank, sent]

/-- Two texts are written as the text that they make. -/
theorem items_join (hj : s.sink.JoinsText) {k l m : Label} {a b : String}
    {ks ls : List Tree} (hk : k.content = .text a) (hl : l.content = .text b)
    (hm : m.content = .text (a ++ b)) (ms : List Tree) (ha : Verbatim a)
    (hb : Verbatim b) :
    items s inner origin trail trim front (.node k ks :: .node l ls :: us)
      = items s inner origin trail trim front (.node m ms :: us) := by
  have hab := hasExpression_verbatim (verbatim_append ha hb)
  have both : Text.allBlank (a ++ b) = (Text.allBlank a && Text.allBlank b) :=
    Markup.passable_insignificant.text a b
  have blank : (Markup.Tree.node l ls).isInsignificant = Text.allBlank b :=
    congrArg Markup.Content.isInsignificant hl
  have lastOf : (trim && (Text.allBlank b && us.all Tree.isInsignificant))
      = (Text.allBlank b && (trim && us.all Tree.isInsignificant)) :=
    Bool.and_left_comm ..
  rw [items_plain hk (hasExpression_verbatim ha), items_plain hm hab,
    items_plain hl (hasExpression_verbatim hb),
    items_plain hl (hasExpression_verbatim hb), both, List.all_cons, blank, lastOf]
  have idle (h : (trim && us.all Tree.isInsignificant) = true) :
      items s inner origin trail trim false us = pure () := by
    rw [Bool.and_eq_true] at h
    rw [h.1]
    exact items_idle h.2
  generalize (trim && us.all Tree.isInsignificant) = ends at idle ⊢
  cases hskip : front && Text.allBlank a with
  | true =>
    -- the first text is trimmed away, and the second is at the front
    obtain ⟨rfl, hblank⟩ := Bool.and_eq_true_iff.1 hskip
    rw [hblank, trimEnds_blank_front hblank]
    rfl
  | false =>
    have hfilled : front = true → Text.allBlank a = false := by
      rintro rfl
      exact hskip
    have hskips : (front && (Text.allBlank a && Text.allBlank b)) = false := by
      rw [← Bool.and_assoc, hskip, Bool.false_and]
    rw [hskips, if_neg Bool.false_ne_true, if_neg Bool.false_ne_true,
      Bool.false_and, if_neg Bool.false_ne_true]
    cases hends : ends && Text.allBlank b with
    | true =>
      -- all behind the first text is trimmed away
      obtain ⟨rfl, hblank⟩ := Bool.and_eq_true_iff.1 hends
      rw [hblank, Bool.and_true, Bool.and_true, if_pos rfl, idle rfl,
        trimEnds_blank_back hfilled hblank]
    | false =>
      have hfilled' : ends = true → Text.allBlank b = false := by
        rintro rfl
        exact hends
      have hends' : (ends && (Text.allBlank a && Text.allBlank b)) = false := by
        rw [Bool.and_left_comm, hends, Bool.and_false]
      rw [Bool.and_comm (Text.allBlank b), hends, hends', Bool.false_and,
        if_neg Bool.false_ne_true, if_neg Bool.false_ne_true,
        if_neg Bool.false_ne_true, trimEnds_append hfilled hfilled',
        ← words_words hj, bind_assoc]

end

-- ================================================================== copies

section

variable {is : List (Intercept σ)} {origin : Origin} {trail ts us : List Tree}

theorem copyTree_comment {l : Label} {c : String} (h : l.content = .comment c) :
    copyTree s is origin trail (.node l ts) = pure () := by
  rw [copyTree, h]

theorem copyTree_text {l : Label} {a : String} (h : l.content = .text a) :
    copyTree s is origin trail (.node l ts) = send s (.characters a) := by
  rw [copyTree, h]

theorem copyTrees_comment {l : Label} {c : String}
    (h : l.content = .comment c) :
    copyTrees s is origin trail (.node l ts :: us)
      = copyTrees s is origin trail us := by
  rw [copyTrees, copyTree_comment h]
  rfl

/-- Two texts are copied as the text that they make. -/
theorem copyTrees_join (hj : s.sink.JoinsText) {k l : Label} {a b : String}
    {ks ls : List Tree} (hk : k.content = .text a)
    (hl : l.content = .text b) :
    copyTrees s is origin trail (.node k ks :: .node l ls :: us)
      = (send s (.characters (a ++ b)) >>= fun _ =>
          copyTrees s is origin trail us) := by
  rw [copyTrees, copyTrees, copyTree_text hk, copyTree_text hl, ← send_send hj,
    bind_assoc]

end

end Stencil.Template
