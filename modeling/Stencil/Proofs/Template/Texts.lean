/-
The texts of a template in its output.

Which texts a run comes to is read off its steps: a step over contents comes to
the first of them, or to all that are left if they are trimmed away, and a step
over the source of a copy to the node that is copied. A text without
expressions is sent there, but for the white space at its ends; no other step
has to be known but that it leaves no section of character data open
(`Whole`). From the events on the texts are a matter of the writer.
-/
import Stencil.Proofs.Output.Passages
import Stencil.Proofs.Template.Inversion
import Stencil.Proofs.Template.Literal
import Stencil.Proofs.Template.Oblivious
import Stencil.Proofs.Template.Termination
import Stencil.Proofs.Text.Cutting

namespace Stencil.Template

open Markup (Node Tree)
open Output (Event Sink Writer Passage Surroundings Appear Conveyed)

-- =================================================================== texts

/-- The text that a tree is, if it is one without expressions. -/
def plainText? (t : Tree) : Option String :=
  match t.content with
  | .text data => if Expr.hasExpression data then none else some data
  | _ => none

/-- The texts without expressions that a task comes to next. -/
def Task.texts : Task → List String
  | .items trim front _ (t :: ts) =>
    if !(front && t.isInsignificant)
      && trim && (t :: ts).all Tree.isInsignificant then
      (t :: ts).filterMap plainText?
    else (plainText? t).toList
  | .copyTree _ source => (plainText? source.tree).toList
  | _ => []

/-- The texts that the next step comes to, in the elements that are open. -/
def Progress.texts (c : Progress (List Event)) : List Passage :=
  match c.work, c.stop with
  | t :: _, none =>
    let around := (Surroundings.outermost.behindAll c.machine.output).around
    t.texts.map (Passage.mk around)
  | _, _ => []

namespace Processor

/-- How far a run gets in so many steps, if no sink disturbs it. -/
def state (p : Processor) (k : Nat) : Progress (List Event) :=
  progress (p.settings Sink.log) p.root (p.machine [.startDocument]) k

/-- The texts without expressions that a run comes to in so many steps. -/
def texts (p : Processor) : Nat → List Passage
  | 0 => []
  | k + 1 => p.texts k ++ (p.state k).texts

end Processor

-- ================================================================ trimming

theorem exists_dropBlank (front : Bool) (cs : List Char) :
    ∃ before : List Char, before.all Text.isBlank = true
      ∧ cs = before ++ if front then Text.dropBlank cs else cs := by
  cases front with
  | true =>
    exact ⟨cs.takeWhile Text.isBlank, List.all_takeWhile,
      (Text.dropBlank_append cs).symm⟩
  | false => exact ⟨[], rfl, rfl⟩

theorem exists_dropBlankEnd (back : Bool) (cs : List Char) :
    ∃ behind : List Char, behind.all Text.isBlank = true
      ∧ cs = (if back then Text.dropBlankEnd cs else cs) ++ behind := by
  cases back with
  | true =>
    refine ⟨(cs.reverse.takeWhile Text.isBlank).reverse, ?_, ?_⟩
    · rw [List.all_reverse]
      exact List.all_takeWhile
    · have halves := Text.dropBlank_append cs.reverse
      have whole := congrArg List.reverse halves
      rw [List.reverse_append, List.reverse_reverse] at whole
      exact whole.symm
  | false => exact ⟨[], rfl, (List.append_nil cs).symm⟩

/-- What is trimmed of a text is white space. -/
theorem exists_trimEnds (front back : Bool) (data : String) :
    ∃ before behind, data = before ++ trimEnds front back data ++ behind
      ∧ Text.allBlank before = true ∧ Text.allBlank behind = true := by
  obtain ⟨before, hbefore, hfront⟩ := exists_dropBlank front data.toList
  obtain ⟨behind, hbehind, hback⟩ := exists_dropBlankEnd back
    (if front then Text.dropBlank data.toList else data.toList)
  refine ⟨.ofList before, .ofList behind, String.toList_injective ?_, ?_, ?_⟩
  · unfold trimEnds
    rw [String.toList_append, String.toList_append, String.toList_ofList,
      String.toList_ofList, String.toList_ofList, List.append_assoc, ← hback,
      ← hfront]
  · unfold Text.allBlank
    rw [String.toList_ofList]
    exact hbefore
  · unfold Text.allBlank
    rw [String.toList_ofList]
    exact hbehind

/-- A part of a text without expressions has none. -/
theorem hasExpression_part {before core behind : String}
    (h : Expr.hasExpression (before ++ core ++ behind) = false) :
    Expr.hasExpression core = false := by
  rw [Bool.eq_false_iff] at h ⊢
  intro hcore
  refine h (Text.occurs_iff.2 ((Text.occurs_iff.1 hcore).trans ?_))
  rw [String.toList_append, String.toList_append]
  exact List.infix_append _ _ _

-- ================================================================= sending

/-- Events after which no section is open, if none was before. -/
def Whole (es : List Event) : Prop :=
  ∀ c : Surroundings, c.inSection = false →
    (c.behindAll es).inSection = false

/-- A task does not send an event by itself, or the end of an element. -/
def Task.isClosing : Task → Bool
  | .send (.stop _) => true
  | .send _ => false
  | _ => true

section

variable {σ : Type} {s : Settings σ} {m m' : Machine σ} {t : Task}
  {ts : List Task} {es : List Event}

theorem closing_of_loop {n : Node} (h : t.loop? = some n) :
    t.isClosing = true := by
  cases t with
  | send => cases h
  | _ => rfl

theorem texts_of_loop {n : Node} (h : t.loop? = some n) : t.texts = [] := by
  cases t with
  | items => cases h
  | copyTree => cases h
  | _ => rfl

/-- No step leaves a section open. -/
theorem whole_leads (h : Leads s m m' t ts es) (ht : t.isClosing = true) :
    Whole es := by
  cases h with
  | itemSection => exact fun _ _ => rfl
  | copiedSection => exact fun _ _ => rfl
  | text _ _ _ hes =>
    rcases hes with ⟨-, rfl⟩ | ⟨_, -, -, rfl⟩ <;> exact fun _ h => h
  | send e =>
    cases e with
    | stop name => exact fun _ h => h
    | _ => cases ht
  | _ => exact fun _ h => h

theorem closing_leads (h : Leads s m m' t ts es) :
    ts.all Task.isClosing = true := by
  cases h with
  | loop _ ht => rw [List.all_cons, closing_of_loop ht]; rfl
  | pass _ hu => rw [List.all_cons, List.all_cons, closing_of_loop hu]; rfl
  | _ => rfl

-- ================================================================ conveyance

theorem plainText?_text {u : Tree} {data : String}
    (h : u.content = .text data) :
    plainText? u = if Expr.hasExpression data then none else some data := by
  unfold plainText?
  rw [h]

theorem plainText?_other {u : Tree} (h : ∀ data, u.content ≠ .text data) :
    plainText? u = none := by
  unfold plainText?
  split
  · next hdata => exact absurd hdata (h _)
  · rfl

/-- An element is neither white space nor a text. -/
theorem significant_element {u : Tree} (h : u.isElement = true) :
    u.isInsignificant = false ∧ ∀ data, u.content ≠ .text data := by
  unfold Tree.isElement at h
  unfold Tree.isInsignificant
  cases hc : u.content with
  | element e => exact ⟨rfl, nofun⟩
  | _ =>
    rw [hc] at h
    cases h

/-- A text that is trimmed as a whole is white space. -/
theorem blank_of_plainText? {u : Tree} {data : String}
    (hu : u.isInsignificant = true) (h : plainText? u = some data) :
    Text.allBlank data = true := by
  unfold plainText? at h
  unfold Tree.isInsignificant at hu
  split at h
  · next data' hdata =>
    split at h
    · cases h
    · cases h
      rw [hdata] at hu
      exact hu
  · cases h

section

variable {trim front : Bool} {parent : Node} {u : Tree} {us : List Tree}

/-- Contents that are not all trimmed away are come to one by one. -/
theorem texts_item (h : (trim && (u :: us).all Tree.isInsignificant) = false) :
    (Task.items trim front parent (u :: us)).texts
      = (plainText? u).toList := by
  have hfront : (!(front && u.isInsignificant) && trim
      && (u :: us).all Tree.isInsignificant) = false := by
    rw [Bool.and_assoc, h, Bool.and_false]
  show (if _ then _ else _) = _
  rw [hfront]
  rfl

/-- So they are while the front is trimmed. -/
theorem texts_skipped (h : u.isInsignificant = true) :
    (Task.items trim true parent (u :: us)).texts
      = (plainText? u).toList := by
  show (if _ then _ else _) = _
  rw [h]
  rfl

theorem texts_trimmed (hfront : (front && u.isInsignificant) = false)
    (h : (u :: us).all Tree.isInsignificant = true) :
    (Task.items true front parent (u :: us)).texts
      = (u :: us).filterMap plainText? := by
  show (if _ then _ else _) = _
  rw [hfront, h]
  rfl

theorem texts_item_other
    (hends : (trim && (u :: us).all Tree.isInsignificant) = false)
    (h : ∀ data, u.content ≠ .text data) :
    (Task.items trim front parent (u :: us)).texts = [] := by
  rw [texts_item hends, plainText?_other h]
  rfl

end

theorem texts_copied_other {is : List (Intercept Unit)} {source : Node}
    (h : ∀ data, source.tree.content ≠ .text data) :
    (Task.copyTree is source).texts = [] := by
  rw [Task.texts, plainText?_other h]
  rfl

/-- Where no section is open, characters are passed on at their place. -/
theorem passages_characters (c : Surroundings) (hc : c.inSection = false)
    (data : String) :
    c.passages [.characters data] = [⟨c.around, data⟩] := by
  rw [Surroundings.passages, Surroundings.passage, hc]
  rfl

/-- Of a text what is not trimmed is sent. -/
theorem conveyed_text {n : Node} {front back : Bool} {data : String}
    (c : Surroundings) (hc : c.inSection = false)
    (hplain : Expr.hasExpression data = false)
    {env : Expr.Environment}
    (hes : trimEnds front back data = "" ∧ es = []
      ∨ ∃ text, trimEnds front back data ≠ ""
        ∧ literalText n (trimEnds front back data) env = .ok text
        ∧ es = [.characters text]) :
    Conveyed [⟨c.around, data⟩] (c.passages es) := by
  obtain ⟨before, behind, hdata, hbefore, hbehind⟩ :=
    exists_trimEnds front back data
  rcases hes with ⟨hempty, rfl⟩ | ⟨text, -, htext, rfl⟩
  -- all of it was cut off, so it is blank
  · refine .blank ?_ .nothing
    show Text.allBlank data = true
    rw [hdata, hempty, String.append_empty]
    exact Output.allBlank_append hbefore hbehind
  · rw [hdata] at hplain
    have hpart := hasExpression_part hplain
    have hvalue : (Expr.substitute env (trimEnds front back data)).mapError _
        = .ok text := htext
    rw [substitute_plain hpart] at hvalue
    cases hvalue
    rw [passages_characters c hc]
    generalize trimEnds front back data = core at hdata
    rw [hdata]
    exact .part hbefore hbehind .nothing

/-- Of the texts that a task comes to all is sent but the white space at their
ends. -/
theorem conveyed_leads (h : Leads s m m' t ts es) (c : Surroundings)
    (hc : c.inSection = false) :
    Conveyed (t.texts.map (Passage.mk c.around)) (c.passages es) := by
  -- most steps have no text before them
  have none {us : List String} (hus : us = []) :
      Conveyed (us.map (Passage.mk c.around)) (c.passages es) := by
    rw [hus]
    exact Output.conveyed_others _
  cases h with
  | skipped hu =>
    rw [texts_skipped hu]
    refine Output.conveyed_blank (fun p hp => ?_) _
    obtain ⟨data, hdata, rfl⟩ := List.mem_map.1 hp
    exact blank_of_plainText? hu (Option.mem_toList.1 hdata)
  | trimmed hfront hts =>
    rw [texts_trimmed hfront hts]
    refine Output.conveyed_blank (fun p hp => ?_) _
    obtain ⟨data, hdata, rfl⟩ := List.mem_map.1 hp
    obtain ⟨v, hv, hplain⟩ := List.mem_filterMap.1 hdata
    exact blank_of_plainText? (List.all_eq_true.1 hts v hv) hplain
  | @child trim _ _ u us ht =>
    obtain ⟨hu, htext⟩ := significant_element ht
    have hends : (trim && (u :: us).all Tree.isInsignificant) = false := by
      rw [List.all_cons, hu, Bool.false_and, Bool.and_false]
    exact none (texts_item_other hends htext)
  | passed _ hends htext => exact none (texts_item_other hends htext)
  | text hdata hfront hends hes =>
    rw [texts_item hends, plainText?_text hdata]
    split
    · exact none rfl
    · next hplain =>
      exact conveyed_text c hc (Bool.eq_false_iff.2 hplain) hes
  | itemSection hdata hends =>
    exact none (texts_item_other hends (by rw [hdata]; exact nofun))
  | replaced _ hsource =>
    exact none (texts_copied_other (significant_element hsource).2)
  | copied _ he =>
    have hsource := significant_element (Option.isSome_of_eq_some he)
    exact none (texts_copied_other hsource.2)
  | @copiedText source _ data hdata =>
    have hdata : source.tree.content = .text data := hdata
    rw [Task.texts, plainText?_text hdata]
    split
    · exact none rfl
    · rw [passages_characters c hc]
      exact Output.conveyed_whole _
  | @copiedSection source _ data hdata =>
    have hdata : source.tree.content = .cdata data := hdata
    exact none (texts_copied_other (by rw [hdata]; exact nofun))
  | notCopied htext => exact none (texts_copied_other htext)
  | noPass ht => exact none (texts_of_loop ht)
  | pass ht => exact none (texts_of_loop ht)
  | lastPass ht => exact none (texts_of_loop ht)
  | _ => exact none rfl

end

-- =============================================================== whole runs

/-- Behind steps that end elements alone, the texts come to are sent, and no
section is open. -/
structure Told (c : Progress (List Event)) (texts : List Passage) : Prop where
  closing : c.work.all Task.isClosing = true
  outside : (Surroundings.outermost.behindAll c.machine.output).inSection
    = false
  conveyed : Conveyed texts (Surroundings.outermost.passages c.machine.output)

/-- A step goes on telling the texts that it comes to. -/
theorem told_step {s : Settings (List Event)} (hs : s.sink = Sink.log)
    {c : Progress (List Event)} {texts : List Passage} (h : Told c texts)
    (hstop : (step s c).stop = none) :
    Told (step s c) (texts ++ c.texts) := by
  obtain ⟨hnone, hstep⟩ := step_running hstop
  rcases hstep with ⟨hwork, hidle⟩
    | ⟨t, rest, ts, m', es, hwork, -, hnext, hes, hleads⟩
  · have htexts : c.texts = [] := by
      unfold Progress.texts
      rw [hwork]
    rw [hidle, htexts, List.append_nil]
    exact h
  · have htexts : c.texts = t.texts.map (Passage.mk
        (Surroundings.outermost.behindAll c.machine.output).around) := by
      unfold Progress.texts
      rw [hwork, hnone]
    -- no section is open where a text is come to, and none is left open
    have closing := h.closing
    rw [hwork, List.all_cons, Bool.and_eq_true] at closing
    have hsent := hes.sent
    rw [hs, Sink.deliver_log] at hsent
    have houtput : m'.output = c.machine.output ++ es :=
      (congrArg Prod.fst hsent).symm
    rw [hnext, htexts]
    refine ⟨?_, ?_, ?_⟩
    · show (ts ++ rest).all Task.isClosing = true
      rw [List.all_append, closing_leads hleads, closing.2]
      rfl
    · show (Surroundings.outermost.behindAll m'.output).inSection = false
      rw [houtput, Surroundings.behindAll_append]
      exact whole_leads hleads closing.1 _ h.outside
    · show Conveyed _ (Surroundings.outermost.passages m'.output)
      rw [houtput, Surroundings.passages_append]
      exact h.conveyed.append (conveyed_leads hleads _ h.outside)

namespace Processor

variable (p : Processor)

theorem state_succ (k : Nat) :
    p.state (k + 1) = step (p.settings Sink.log) (p.state k) :=
  Function.iterate_succ_apply' ..

/-- However far a run gets, the texts come to are sent. -/
theorem told (k : Nat) (h : (p.state k).stop = none) :
    Told (p.state k) (p.texts k) := by
  induction k with
  | zero => exact ⟨rfl, rfl, Output.conveyed_others _⟩
  | succ k ih =>
    rw [state_succ] at h ⊢
    exact told_step rfl (ih (step_running h).1) h

/-- The course of a run that succeeds is what its steps send. -/
theorem exists_course (h : p.outcome = none) :
    ∃ k, (p.state k).work = [] ∧ (p.state k).stop = none
      ∧ p.course = (p.state k).machine.output ++ [.endDocument] := by
  obtain ⟨m, hprocess, hcourse⟩ := exists_of_outcome h
  have simulated := process_simulated (p.settings Sink.log) p.root
    (m := p.machine [.startDocument]) rfl passLimit
  -- the limit of passes is that of the processor anyway
  have hpasses : { p.settings Sink.log with passes := passLimit }
    = p.settings Sink.log := rfl
  rw [hpasses, hprocess] at simulated
  rcases simulated with ⟨k, hwork, -, hresult⟩ | ⟨⟨m', hm'⟩, -⟩
  · refine ⟨k, hwork, ?_⟩
    have hresult : (p.state k).result = .ok () m := hresult.symm
    unfold Progress.result at hresult
    split at hresult
    · next hstop =>
      cases hresult
      exact ⟨hstop, hcourse⟩
    · cases hresult
  · cases hm'

/-- When a run is written to its end, in either dialect, under every option for
white space and whatever its destination takes, every text without expressions
that it came to stands in what was written, each behind the one before: whole
but for white space at its ends, and escaped unless it is in an element of HTML
that has its data as it is. -/
theorem texts_written (o : Options) (room : Option Nat)
    (h : (p.write o room).stop = none) :
    ∃ k, (p.state k).work = [] ∧ (p.state k).stop = none
      ∧ p.course = (p.state k).machine.output ++ [.endDocument]
      ∧ Appear o.dialect (p.texts k) (p.write o room).output.text := by
  unfold write at h ⊢
  obtain ⟨houtput, hstop⟩ := p.runInto_eq_deliver Writer.sink
    (.fresh o.dialect o.whitespace o.declaration room)
  rw [hstop, Option.or_eq_none_iff, Option.map_eq_none_iff] at h
  obtain ⟨k, hwork, hnone, hcourse⟩ := p.exists_course h.2
  refine ⟨k, hwork, hnone, hcourse, ?_⟩
  rw [houtput]
  have taken : Writer.sink.deliver
        (.fresh o.dialect o.whitespace o.declaration room) p.course
      = ((Writer.sink.deliver
        (.fresh o.dialect o.whitespace o.declaration room) p.course).1, none) :=
    Prod.ext rfl h.1
  rw [hcourse] at taken ⊢
  exact (p.told k hnone).conveyed.appear (Writer.appear_delivered taken)

/-- A literal element of no namespace, in a line of its own. -/
def plainElement (id : Nat) (name : String) (ts : List Tree) : Tree :=
  .node ⟨id, ⟨id, 1⟩, .element ⟨.ofText name, none, [], []⟩⟩ ts

def plainText (id : Nat) (data : String) : Tree :=
  .node ⟨id, ⟨id, 1⟩, .text data⟩ []

/-- A processor of an element that holds these trees. -/
def holding (ts : List Tree) : Processor :=
  let root : Node := ⟨.given 0, plainElement 1 "a" ts, []⟩
  ⟨root, .fresh root none, { Options.standard with uri := "x" }, .memory [],
    .empty⟩

/-- Texts in an element, in a directive and in a script. -/
def wordy : Processor :=
  let test : Markup.Attribute := ⟨.ofText "test", none, "true"⟩
  holding
    [plainText 2 " 1<2 ", directive 3 "if" [test] [plainText 4 " b\n"],
      plainElement 5 "script" [plainText 6 "1<2"]]

theorem texts_written_wordy :
    let a : Output.ElementName := ⟨none, "a", "a"⟩
    let script : Output.ElementName := ⟨none, "script", "script"⟩
    let o : Options := ⟨"x", .none, .html, false⟩
    (wordy.write o none).stop = none
    ∧ wordy.texts 14 = [⟨[a], " 1<2 "⟩, ⟨[a], " b\n"⟩, ⟨[script, a], "1<2"⟩]
    ∧ (wordy.write o none).output.text
      = "<a> 1&lt;2 b<script>1<2</script></a>"
    ∧ ∃ k, (wordy.state k).work = []
      ∧ Appear .html (wordy.texts k) (wordy.write o none).output.text := by
  intro a script o
  have h : (wordy.write o none).stop = none :=
    Option.isNone_iff_eq_none.1 (by decide +kernel)
  refine ⟨h, by decide +kernel, by decide +kernel, ?_⟩
  obtain ⟨k, hwork, -, -, happear⟩ := wordy.texts_written o none h
  exact ⟨k, hwork, happear⟩

/-- White space of another script is no markup space, but it is white space,
and lost where it stands alone. -/
theorem no_break_space_lost :
    let p := holding [plainText 2 "\u00a0"]
    let o : Options := ⟨"x", .none, .xml, false⟩
    (p.write o none).stop = none
    ∧ (∃ k, (p.state k).work = []
      ∧ ∃ x ∈ p.texts k, ∃ c ∈ x.data.toList, Text.isSpace c = false
        ∧ ¬ ∃ before behind, (p.write o none).output.text
          = before ++ Markup.escapeText (String.ofList [c]) ++ behind) := by
  intro p o
  have hwritten : (p.write o none).output.text = "<a/>" := by decide +kernel
  have hwork : (p.state 8).work.isEmpty = true := by decide +kernel
  have htexts : p.texts 8 = [⟨[⟨none, "a", "a"⟩], "\u00a0"⟩] := by
    decide +kernel
  refine ⟨Option.isNone_iff_eq_none.1 (by decide +kernel), 8,
    List.isEmpty_iff.1 hwork, _, by rw [htexts]; exact List.mem_singleton_self _,
    '\u00a0', by decide, by decide, ?_⟩
  rintro ⟨before, behind, happears⟩
  have hmem : '\u00a0' ∈ (p.write o none).output.text.toList := by
    rw [happears, String.toList_append, String.toList_append]
    exact List.mem_append_left _ (List.mem_append_right _ (by decide))
  rw [hwritten] at hmem
  revert hmem
  decide

end Processor

end Stencil.Template
