/-
Contents that are only worded: texts without expressions, and comments.

Ends are trimmed child by child: what is insignificant is dropped at both ends, and
then the first child that is left is trimmed in front and the last one behind. In
worded contents that is to trim the text that all the texts make together
(`items_worded`), however comments split it up. The induction is on the children;
what it carries is that from any child on the rest comes to the rest of the text,
trimmed in front only while nothing has been sent.
-/
import Stencil.Proofs.Template.Merging

namespace Stencil.Template

open Markup (Node Origin Tree)
open Output (Event)

variable {ts : List Tree} {trim front : Bool}

/-- The node is a text without expressions, or a comment. -/
def Worded (t : Tree) : Prop :=
  match t.content with
  | .text data => Expr.hasExpression data = false
  | .comment _ => True
  | _ => False

instance (t : Tree) : Decidable (Worded t) := by
  unfold Worded
  split <;> infer_instance

/-- Character data, text by text. -/
def wordEvents (ws : List String) : List Event := ws.map .characters

-- ================================================================== the text

theorem worded_cases {t : Tree} (h : Worded t) :
    (∃ l us data, t = .node l us ∧ l.content = .text data
      ∧ Expr.hasExpression data = false)
    ∨ ∃ l us data, t = .node l us ∧ l.content = .comment data := by
  obtain ⟨l, us⟩ := t
  unfold Worded at h
  split at h
  · next data hc => exact .inl ⟨l, us, data, rfl, hc, h⟩
  · next data hc => exact .inr ⟨l, us, data, rfl, hc⟩
  · exact h.elim

theorem textContents_text {l : Markup.Label} {us : List Tree} {data : String}
    (h : l.content = .text data) :
    Tree.textContents (.node l us :: ts) = data ++ Tree.textContents ts := by
  rw [Tree.textContents, Tree.textContent, h]

theorem textContents_comment {l : Markup.Label} {us : List Tree} {data : String}
    (h : l.content = .comment data) :
    Tree.textContents (.node l us :: ts) = Tree.textContents ts := by
  rw [Tree.textContents, Tree.textContent, h, String.empty_append]

/-- Worded contents are insignificant if their text is white space. -/
theorem allBlank_textContents (h : ∀ t ∈ ts, Worded t) :
    Text.allBlank (Tree.textContents ts) = ts.all Tree.isInsignificant := by
  induction ts with
  | nil => rfl
  | cons t ts ih =>
    obtain ⟨ht, hts⟩ := List.forall_mem_cons.1 h
    rcases worded_cases ht with ⟨l, us, data, rfl, hc, -⟩ | ⟨l, us, data, rfl, hc⟩
    · have hself : (Markup.Tree.node l us).isInsignificant = Text.allBlank data :=
        congrArg Markup.Content.isInsignificant hc
      have hboth : Text.allBlank (data ++ Tree.textContents ts)
          = (Text.allBlank data && Text.allBlank (Tree.textContents ts)) :=
        Markup.passable_insignificant.text _ _
      rw [textContents_text hc, hboth, List.all_cons, hself, ih hts]
    · have hself : (Markup.Tree.node l us).isInsignificant = true :=
        congrArg Markup.Content.isInsignificant hc
      rw [textContents_comment hc, List.all_cons, hself, ih hts, Bool.true_and]

/-- White space that is trimmed behind is gone. -/
theorem trimEnds_allBlank {data : String} (h : Text.allBlank data = true)
    (front : Bool) : trimEnds front true data = "" := by
  cases front with
  | false =>
    have hback : trimEnds false true ("" ++ data) = trimEnds false true "" :=
      trimEnds_blank_back nofun h
    rw [String.empty_append] at hback
    rw [hback]
    rfl
  | true =>
    have hfront : trimEnds true true (data ++ "") = trimEnds true true "" :=
      trimEnds_blank_front h
    rw [String.append_empty] at hfront
    rw [hfront]
    rfl

-- ================================================================== contents

theorem sendAll_append {σ : Type} (s : Settings σ) (es fs : List Event) :
    sendAll s (es ++ fs) = (sendAll s es >>= fun _ => sendAll s fs) := by
  induction es with
  | nil => rfl
  | cons e es ih =>
    show (send s e >>= fun _ => sendAll s (es ++ fs))
      = ((send s e >>= fun _ => sendAll s es) >>= fun _ => sendAll s fs)
    rw [ih, bind_assoc]

/-- Character data to be sent is one text, or none if there is no data. -/
theorem words_eq_sendAll (data : String) :
    ∃ ws : List String, String.join ws = data ∧ "" ∉ ws
      ∧ ∀ {σ : Type} (s : Settings σ),
        words s data = sendAll s (wordEvents ws) := by
  by_cases h : data.isEmpty = true
  · rw [String.isEmpty_iff] at h
    subst h
    exact ⟨[], rfl, by simp, fun s => rfl⟩
  · refine ⟨[data], by simp, ?_, fun s => ?_⟩
    · rw [String.isEmpty_iff] at h
      simpa using Ne.symm h
    · unfold words
      rw [if_neg h]
      exact (bind_pure (send s (.characters data))).symm

/-- What is left of a text and what is left of the rest make up what is left of
both: the text is no white space in front, and the rest none behind. -/
theorem trimEnds_textContents {data : String} (hts : ∀ t ∈ ts, Worded t)
    (hfront : (front && Text.allBlank data) = false)
    (hend : ((trim && ts.all Tree.isInsignificant) && Text.allBlank data)
      = false) :
    trimEnds front trim (data ++ Tree.textContents ts)
      = trimEnds front (trim && ts.all Tree.isInsignificant) data
        ++ trimEnds false trim (Tree.textContents ts) := by
  have hblank := allBlank_textContents hts
  have hfront : front = true → Text.allBlank data = false := by
    rintro rfl
    exact hfront
  by_cases hlast : (trim && ts.all Tree.isInsignificant) = true
  · obtain ⟨rfl, hall⟩ := Bool.and_eq_true_iff.1 hlast
    rw [hall] at hblank hlast ⊢
    rw [trimEnds_blank_back hfront hblank, trimEnds_allBlank hblank,
      String.append_empty]
    rfl
  · have hfilled : trim = true → Text.allBlank (Tree.textContents ts) = false := by
      rintro rfl
      rw [hblank]
      exact Bool.eq_false_iff.2 hlast
    rw [Bool.eq_false_iff.2 hlast]
    exact trimEnds_append hfront hfilled

/-- Worded contents are sent as the text that they make, trimmed as a whole. -/
theorem items_worded (h : ∀ t ∈ ts, Worded t) (trim front : Bool) :
    ∃ ws : List String,
      String.join ws = trimEnds front trim (Tree.textContents ts) ∧ "" ∉ ws
      ∧ ∀ {σ : Type} (s : Settings σ) (inner : Option (Inner σ))
          (origin : Origin) (trail : List Tree),
        items s inner origin trail trim front ts
          = sendAll s (wordEvents ws) := by
  induction ts generalizing front with
  | nil =>
    refine ⟨[], ?_, by simp, fun s inner origin trail => rfl⟩
    cases front <;> cases trim <;> rfl
  | cons t ts ih =>
    obtain ⟨ht, hts⟩ := List.forall_mem_cons.1 h
    rcases worded_cases ht with ⟨l, us, data, rfl, hc, hplain⟩
      | ⟨l, us, data, rfl, hc⟩
    · rw [textContents_text hc]
      cases hfront : front && Text.allBlank data with
      | true =>
        -- nothing has been sent yet, and nothing is of this text
        obtain ⟨rfl, hblank⟩ := Bool.and_eq_true_iff.1 hfront
        obtain ⟨ws, hjoin, hfilled, hrun⟩ := ih hts true
        refine ⟨ws, ?_, hfilled, fun s inner origin trail => ?_⟩
        · rw [trimEnds_blank_front hblank]
          exact hjoin
        · rw [items_plain hc hplain, hfront, if_pos rfl]
          exact hrun s inner origin trail
      | false =>
        cases hend : (trim && ts.all Tree.isInsignificant)
            && Text.allBlank data with
        | true =>
          -- nothing is left but white space
          obtain ⟨hlast, hblank⟩ := Bool.and_eq_true_iff.1 hend
          obtain ⟨rfl, hall⟩ := Bool.and_eq_true_iff.1 hlast
          have hrest := (allBlank_textContents hts).trans hall
          refine ⟨[], ?_, by simp, fun s inner origin trail => ?_⟩
          · exact (trimEnds_allBlank
              (Output.allBlank_append hblank hrest) front).symm
          · rw [items_plain hc hplain, hfront, hend, if_pos rfl,
              if_neg Bool.false_ne_true]
            rfl
        | false =>
          obtain ⟨ws, hjoin, hfilled, hwords⟩ := words_eq_sendAll
            (trimEnds front (trim && ts.all Tree.isInsignificant) data)
          obtain ⟨vs, hjoin', hfilled', hrest⟩ := ih hts false
          refine ⟨ws ++ vs, ?_, ?_, fun s inner origin trail => ?_⟩
          · rw [String.join_append, hjoin, hjoin',
              trimEnds_textContents hts hfront hend]
          · simp [hfilled, hfilled']
          · rw [items_plain hc hplain, hfront, hend,
              if_neg Bool.false_ne_true, if_neg Bool.false_ne_true, hwords,
              hrest, ← sendAll_append]
            unfold wordEvents
            rw [List.map_append]
    · obtain ⟨ws, hjoin, hfilled, hrun⟩ := ih hts front
      rw [textContents_comment hc]
      refine ⟨ws, hjoin, hfilled, fun s inner origin trail => ?_⟩
      rw [items_comment hc]
      exact hrun s inner origin trail

/-- There are no macros in worded contents. -/
theorem defineAll_worded {σ : Type} (s : Settings σ) {n : Node}
    (h : ∀ t ∈ n.tree.children, Worded t) : defineAll s n.children = pure () := by
  unfold Node.children
  generalize n.tree.children = ts at h
  induction ts with
  | nil => rfl
  | cons t ts ih =>
    obtain ⟨ht, hts⟩ := List.forall_mem_cons.1 h
    have hother : Directive.ofNode? s.uri (n.below t) = none := by
      have hcontent : (n.below t).content.element? = none := by
        rcases worded_cases ht with ⟨l, us, data, rfl, hc, -⟩
          | ⟨l, us, data, rfl, hc⟩
        · exact congrArg Markup.Content.element? hc
        · exact congrArg Markup.Content.element? hc
      unfold Directive.ofNode? Node.element?
      rw [hcontent]
      rfl
    rw [List.map_cons, defineAll, hother, if_neg (by simp)]
    exact ih hts

-- ============================================================= main results

/-- Worded contents are sent as the text that they make: trimmed, if they are
trimmed, as one text is, and as it stands if they are not. Nothing else is done,
and scopes are as they were also if the output refuses something. -/
theorem trimmed_as_one_text (n : Node) (h : ∀ t ∈ n.tree.children, Worded t)
    (trim : Bool) :
    let whole := Tree.textContents n.tree.children
    ∃ ws : List String,
      String.join ws = (if trim then Text.trimmed whole else whole)
      ∧ "" ∉ ws
      ∧ (∃ before behind, whole = before ++ String.join ws ++ behind
        ∧ Text.allBlank before = true ∧ Text.allBlank behind = true)
      ∧ ∀ {σ : Type} (s : Settings σ) (inner : Option (Inner σ)),
        contents s inner trim n = sendAll s (wordEvents ws)
        ∧ (trim = true → body s inner n.origin n.trail n.tree
          = sendAll s (wordEvents ws))
        ∧ (s.sink.Accepting → Sends s (contents s inner trim n) (wordEvents ws))
        ∧ ∀ m, (after (contents s inner trim n) m).scopes = m.scopes := by
  intro whole
  obtain ⟨ws, hjoin, hfilled, hrun⟩ := items_worded h trim trim
  obtain ⟨before, behind, hwhole, hbefore, hbehind⟩ :=
    exists_trimEnds trim trim whole
  refine ⟨ws, ?_, hfilled, ⟨before, behind, ?_, hbefore, hbehind⟩,
    fun s inner => ?_⟩
  · rw [hjoin]
    cases trim with
    | true => rfl
    | false => exact trimEnds_none whole
  · rw [hjoin]
    exact hwhole
  -- there is no macro among texts and comments, so nothing is defined
  · have hcontents : contents s inner trim n = sendAll s (wordEvents ws) := by
      unfold contents
      rw [defineAll_worded s h, hrun]
      rfl
    rw [hcontents]
    refine ⟨rfl, ?_, fun hs => sends_sendAll hs _,
      fun m => (untouched_sendAll s _ m).scopes⟩
    rintro rfl
    obtain ⟨origin, ⟨l, ts⟩, trail⟩ := n
    rw [body, defineAll_worded s h]
    exact hrun s inner origin _

/-- A text that comments split at its white space, some of it no space of
markup. -/
def scattered : Node :=
  let piece (id : Nat) (content : Markup.Content) : Tree :=
    .node ⟨id, ⟨1, id⟩, content⟩ []
  ⟨.given 0, .node ⟨1, ⟨1, 1⟩, .element ⟨.ofText "p", none, [], []⟩⟩
    [piece 2 (.text "\u00a0"), piece 3 (.comment "1"), piece 4 (.text " a "),
     piece 5 (.comment "2"), piece 6 (.text "\n"), piece 7 (.comment "3"),
     piece 8 (.text " $ "), piece 9 (.comment "4"), piece 10 (.text "\t")], []⟩

theorem trimmed_as_one_text_scattered :
    (∀ t ∈ scattered.tree.children, Worded t)
    ∧ Output.Sink.log.Accepting
    ∧ ∃ ws : List String, String.join ws = "a \n $"
      ∧ ∀ (source : Loading.Source) (m : Machine (List Event)),
        contents ⟨"x", Output.Sink.log, source, 0⟩ none true scattered m
          = .ok () { m with output := m.output ++ wordEvents ws } := by
  have h : ∀ t ∈ scattered.tree.children, Worded t := by decide
  have hlog := Output.Sink.accepting_log
  obtain ⟨ws, hjoin, -, -, hrun⟩ := trimmed_as_one_text scattered h true
  refine ⟨h, hlog, ws, hjoin, fun source m => ?_⟩
  obtain ⟨-, -, sends, -⟩ :=
    hrun (⟨"x", Output.Sink.log, source, 0⟩ : Settings (List Event)) none
  obtain ⟨o, ho, hm⟩ := sends hlog m
  rw [Output.Sink.deliver_log] at ho
  rw [hm, ← (Prod.mk.inj ho).1]

end Stencil.Template
