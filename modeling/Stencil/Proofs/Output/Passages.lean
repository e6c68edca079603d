/-
Character data in what is written.

A passage is character data outside of sections, in the elements that are open
around it. What the writer holds back of it is judged with all the data of its
run, so a passage that was sent may not be written yet: of a writer is known
that the passages sent to it stand in its text, but for the last ones, which
stand in the run that it holds back (`Bears`). No event loses any of this. A run
is dropped only if it is white space, and is otherwise written character by
character.
-/
import Stencil.Proofs.Output.Balance
import Stencil.Proofs.Output.Html

namespace Stencil.Output

-- =================================================================== order

/-- Texts stand in a text, one behind another. -/
def InOrder : List String → String → Prop
  | [], _ => True
  | t :: ts, s => ∃ before behind,
    s = before ++ t ++ behind ∧ InOrder ts behind

section

variable {ts us : List String} {s : String}

theorem InOrder.behind (h : InOrder ts s) (r : String) :
    InOrder ts (r ++ s) := by
  cases ts with
  | nil => trivial
  | cons t ts =>
    obtain ⟨before, behind, rfl, hts⟩ := h
    refine ⟨r ++ before, behind, ?_, hts⟩
    rw [String.append_assoc, String.append_assoc, String.append_assoc]

theorem InOrder.before (h : InOrder ts s) (r : String) :
    InOrder ts (s ++ r) := by
  induction ts generalizing s with
  | nil => trivial
  | cons t ts ih =>
    obtain ⟨before, behind, rfl, hts⟩ := h
    exact ⟨before, behind ++ r, String.append_assoc, ih hts⟩

theorem InOrder.append {r : String} (hts : InOrder ts s) (hus : InOrder us r) :
    InOrder (ts ++ us) (s ++ r) := by
  induction ts generalizing s with
  | nil => exact hus.behind s
  | cons t ts ih =>
    obtain ⟨before, behind, rfl, hts⟩ := hts
    exact ⟨before, behind ++ r, String.append_assoc, ih hts⟩

/-- What is done to a text character by character is done to all that stands
in it. -/
theorem InOrder.map {f : String → String}
    (hf : ∀ s t, f (s ++ t) = f s ++ f t) (h : InOrder ts s) :
    InOrder (ts.map f) (f s) := by
  induction ts generalizing s with
  | nil => trivial
  | cons t ts ih =>
    obtain ⟨before, behind, rfl, hts⟩ := h
    refine ⟨f before, f behind, ?_, ih hts⟩
    rw [hf, hf]

theorem inOrder_nothing (h : ∀ t ∈ ts, t = "") (s : String) :
    InOrder ts s := by
  induction ts with
  | nil => trivial
  | cons t ts ih =>
    refine ⟨"", s, ?_, ih fun u hu => h u (List.mem_cons_of_mem t hu)⟩
    rw [h t List.mem_cons_self, String.append_empty, String.empty_append]

theorem inOrder_whole (s : String) : InOrder [s] s :=
  ⟨"", "", by rw [String.append_empty, String.empty_append], trivial⟩

/-- What stands in a text is no longer than it. -/
theorem InOrder.infix (h : InOrder ts s) {t : String} (ht : t ∈ ts) :
    ∃ before behind, s = before ++ t ++ behind := by
  induction ts generalizing s with
  | nil => cases ht
  | cons u ts ih =>
    obtain ⟨before, behind, rfl, hts⟩ := h
    rcases List.mem_cons.1 ht with rfl | ht
    · exact ⟨before, behind, rfl⟩
    · obtain ⟨before', behind', rfl⟩ := ih hts ht
      refine ⟨before ++ u ++ before', behind', ?_⟩
      simp only [String.append_assoc]

end

-- ================================================================ passages

/-- Character data with the elements around it, innermost first. -/
structure Passage where
  around : List ElementName
  data : String
deriving DecidableEq, Repr

/-- Character data as it is written into some elements: HTML has it as it is
in a script or a style sheet, else it is escaped. -/
def Dialect.textIn (d : Dialect) (around : List ElementName) (s : String) :
    String :=
  htmlText (d = .html && isRaw around) s

/-- A passage is written as `t`: all of it but for white space at its ends. -/
def Passage.WrittenAs (d : Dialect) (p : Passage) (t : String) : Prop :=
  ∃ front core back, p.data = front ++ core ++ back
    ∧ Text.allBlank front = true ∧ Text.allBlank back = true
    ∧ t = d.textIn p.around core

/-- Passages are written in a text, in order. -/
def Appear (d : Dialect) (ps : List Passage) (s : String) : Prop :=
  ∃ ts, List.Forall₂ (Passage.WrittenAs d) ps ts ∧ InOrder ts s

section

variable {d : Dialect} {around : List ElementName} {ps qs : List Passage}
  {s : String}

theorem textIn_append (s t : String) :
    d.textIn around (s ++ t) = d.textIn around s ++ d.textIn around t :=
  htmlText_append _ s t

theorem textIn_nothing : d.textIn around "" = "" := Writer.htmlText_nothing _

theorem writtenAs_whole (around : List ElementName) (data : String) :
    Passage.WrittenAs d ⟨around, data⟩ (d.textIn around data) :=
  ⟨"", data, "", by rw [String.append_empty, String.empty_append], rfl, rfl,
    rfl⟩

/-- White space may be missing altogether. -/
theorem writtenAs_blank {p : Passage} (h : Text.allBlank p.data = true) :
    p.WrittenAs d "" :=
  ⟨p.data, "", "", by rw [String.append_empty, String.append_empty], h, rfl,
    textIn_nothing.symm⟩

/-- What is written of a part is written of the whole, if the rest of it is
white space. -/
theorem Passage.WrittenAs.widen {front core back t : String}
    (h : Passage.WrittenAs d ⟨around, core⟩ t)
    (hfront : Text.allBlank front = true) (hback : Text.allBlank back = true) :
    Passage.WrittenAs d ⟨around, front ++ core ++ back⟩ t := by
  obtain ⟨front', core', back', hcore, hfront', hback', rfl⟩ := h
  have hcore : core = front' ++ core' ++ back' := hcore
  refine ⟨front ++ front', core', back' ++ back, ?_,
    allBlank_append hfront hfront', allBlank_append hback' hback, rfl⟩
  show front ++ core ++ back = _
  rw [hcore]
  simp only [String.append_assoc]

theorem Appear.before (h : Appear d ps s) (r : String) :
    Appear d ps (s ++ r) :=
  have ⟨ts, hts, hs⟩ := h
  ⟨ts, hts, hs.before r⟩

theorem Appear.append {r : String} (hps : Appear d ps s)
    (hqs : Appear d qs r) : Appear d (ps ++ qs) (s ++ r) :=
  have ⟨_, hts, hs⟩ := hps
  have ⟨_, hus, hr⟩ := hqs
  ⟨_, List.rel_append hts hus, hs.append hr⟩

theorem appear_blank (h : ∀ p ∈ ps, Text.allBlank p.data = true)
    (s : String) : Appear d ps s := by
  refine ⟨ps.map fun _ => "", ?_, inOrder_nothing (fun t ht => ?_) s⟩
  · rw [List.forall₂_map_right_iff, List.forall₂_same]
    exact fun p hp => writtenAs_blank (h p hp)
  · obtain ⟨_, -, rfl⟩ := List.mem_map.1 ht
    rfl

/-- Where a run is written, all is that was sent of it. -/
theorem appear_run {held : List String} {run : String}
    (h : InOrder held run) (around : List ElementName) :
    Appear d (held.map (Passage.mk around)) (d.textIn around run) := by
  refine ⟨held.map (d.textIn around), ?_, h.map textIn_append⟩
  rw [List.forall₂_map_left_iff, List.forall₂_map_right_iff,
    List.forall₂_same]
  exact fun data _ => writtenAs_whole around data

/-- What stands in white space is white space. -/
theorem allBlank_of_inOrder {held : List String} {run : String}
    (h : InOrder held run) (hrun : Text.allBlank run = true) :
    ∀ t ∈ held, Text.allBlank t = true := by
  intro t ht
  obtain ⟨before, behind, rfl⟩ := h.infix ht
  unfold Text.allBlank at hrun ⊢
  rw [String.toList_append, String.toList_append, List.all_append,
    List.all_append, Bool.and_eq_true, Bool.and_eq_true] at hrun
  exact hrun.1.2

end

-- =================================================================== sent

/-- Of passages in order these parts are sent: of each all but white space at
its ends, or none if there is nothing else. Others may be sent between. -/
inductive Conveyed : List Passage → List Passage → Prop
  | nothing : Conveyed [] []
  | other (q : Passage) {ps qs : List Passage} : Conveyed ps qs → Conveyed ps (q :: qs)
  | blank {p : Passage} {ps qs : List Passage} :
    Text.allBlank p.data = true → Conveyed ps qs → Conveyed (p :: ps) qs
  | part {around : List ElementName} {front core back : String}
    {ps qs : List Passage} :
    Text.allBlank front = true → Text.allBlank back = true → Conveyed ps qs →
    Conveyed (⟨around, front ++ core ++ back⟩ :: ps) (⟨around, core⟩ :: qs)

section

variable {ps qs ps' qs' : List Passage}

theorem conveyed_others (qs : List Passage) : Conveyed [] qs := by
  induction qs with
  | nil => exact .nothing
  | cons q qs ih => exact .other q ih

theorem conveyed_blank (h : ∀ p ∈ ps, Text.allBlank p.data = true)
    (qs : List Passage) : Conveyed ps qs := by
  induction ps with
  | nil => exact conveyed_others qs
  | cons p ps ih =>
    refine .blank (h p List.mem_cons_self) (ih fun q hq => ?_)
    exact h q (List.mem_cons_of_mem p hq)

theorem conveyed_whole (p : Passage) : Conveyed [p] [p] := by
  have part : Conveyed [⟨p.around, "" ++ p.data ++ ""⟩] [p] :=
    .part rfl rfl .nothing
  rw [String.append_empty, String.empty_append] at part
  exact part

theorem Conveyed.append (h : Conveyed ps qs) (h' : Conveyed ps' qs') :
    Conveyed (ps ++ ps') (qs ++ qs') := by
  induction h with
  | nothing => exact h'
  | other q _ ih => exact .other q ih
  | blank hp _ ih => exact .blank hp ih
  | part hfront hback _ ih => exact .part hfront hback ih

/-- What was sent of passages and appears, is what appears of them. -/
theorem Conveyed.appear {d : Dialect} {s : String} (h : Conveyed ps qs)
    (hqs : Appear d qs s) : Appear d ps s := by
  obtain ⟨ts, hts, hs⟩ := hqs
  induction h generalizing ts s with
  | nothing => exact ⟨ts, hts, hs⟩
  | other q _ ih =>
    cases hts with
    | cons _ hts =>
      obtain ⟨before, behind, rfl, hs⟩ := hs
      obtain ⟨us, hus, hbehind⟩ := ih _ hts hs
      exact ⟨us, hus, hbehind.behind _⟩
  | blank hp _ ih =>
    obtain ⟨us, hus, hs⟩ := ih ts hts hs
    refine ⟨"" :: us, .cons (writtenAs_blank hp) hus, "", s, ?_, hs⟩
    rw [String.append_empty, String.empty_append]
  | part hfront hback _ ih =>
    cases hts with
    -- what was cut off is white space, which may stand on either side
    | cons ht hts =>
      obtain ⟨before, behind, rfl, hs⟩ := hs
      obtain ⟨us, hus, hbehind⟩ := ih _ hts hs
      exact ⟨_ :: us, .cons (ht.widen hfront hback) hus, before, behind, rfl,
        hbehind⟩

end

-- ============================================================ surroundings

/-- Where events have come to: the elements that are open, innermost first,
and whether a section is. -/
structure Surroundings where
  around : List ElementName
  inSection : Bool
deriving DecidableEq, Repr

namespace Surroundings

/-- Outside of everything. -/
def outermost : Surroundings := ⟨[], false⟩

def behind (c : Surroundings) : Event → Surroundings
  | .start name _ => { c with around := name :: c.around }
  | .stop _ => { c with around := c.around.tail }
  | .startCData => { c with inSection := true }
  | .endCData => { c with inSection := false }
  | _ => c

/-- The passage that an event is, if it is one. -/
def passage (c : Surroundings) : Event → List Passage
  | .characters s => if c.inSection then [] else [⟨c.around, s⟩]
  | _ => []

def behindAll (c : Surroundings) (es : List Event) : Surroundings :=
  es.foldl behind c

/-- The passages among events, in order. -/
def passages (c : Surroundings) : List Event → List Passage
  | [] => []
  | e :: es => c.passage e ++ (c.behind e).passages es

theorem behindAll_append (c : Surroundings) (es fs : List Event) :
    c.behindAll (es ++ fs) = (c.behindAll es).behindAll fs := by
  unfold behindAll
  exact List.foldl_append

theorem passages_append (c : Surroundings) (es fs : List Event) :
    c.passages (es ++ fs) = c.passages es ++ (c.behindAll es).passages fs := by
  induction es generalizing c with
  | nil => rfl
  | cons e es ih =>
    rw [List.cons_append, passages, passages, ih, List.append_assoc]
    rfl

end Surroundings

namespace Writer

-- ================================================================= actions

/-- If an action succeeds, it leaves the writer where `P` says. -/
def Lands (x : Writing Unit) (w : Writer) (P : Writer → Prop) : Prop :=
  ∀ w', x w = .ok () w' → P w'

/-- The writer has only written, and closed a tag perhaps. -/
structure Extended (w w' : Writer) : Prop where
  dialect : w'.dialect = w.dialect
  inCData : w'.inCData = w.inCData
  pending : w'.pending = w.pending
  raws : w'.opened.map (·.raw) = w.opened.map (·.raw)
  text : ∃ t, w'.text = w.text ++ t

section

variable {x y : Writing Unit} {w w' : Writer} {P Q : Writer → Prop}

theorem lands_seq (hx : Lands x w P) (hy : ∀ w', P w' → Lands y w' Q) :
    Lands (x >>= fun _ => y) w Q := by
  intro w₂ h
  have hbind : (x >>= fun _ => y) w = EStateM.bind x (fun _ => y) w := rfl
  rw [hbind, EStateM.bind] at h
  cases hw : x w with
  | ok _ w₁ =>
    rw [hw] at h
    exact hy w₁ (hx w₁ hw) w₂ h
  | error e w₁ =>
    rw [hw] at h
    cases h

theorem lands_get {f : Writer → Writing Unit} (h : Lands (f w) w P) :
    Lands (get >>= f) w P := h

theorem lands_modify {f : Writer → Writer} (h : P (f w)) :
    Lands (modify f) w P := by
  intro w' hw'
  cases hw'
  exact h

theorem lands_skip (h : P w) : Lands (pure ()) w P := by
  intro w' hw'
  cases hw'
  exact h

theorem lands_throw (e : Error) : Lands (throw e) w P := nofun

theorem Extended.refl (w : Writer) : Extended w w :=
  ⟨rfl, rfl, rfl, rfl, "", String.append_empty.symm⟩

theorem Extended.trans {a b c : Writer} (hab : Extended a b)
    (hbc : Extended b c) : Extended a c where
  dialect := hbc.dialect.trans hab.dialect
  inCData := hbc.inCData.trans hab.inCData
  pending := hbc.pending.trans hab.pending
  raws := hbc.raws.trans hab.raws
  text := by
    obtain ⟨s, hs⟩ := hab.text
    obtain ⟨t, ht⟩ := hbc.text
    exact ⟨s ++ t, by rw [ht, hs, String.append_assoc]⟩

theorem extended_seq (hx : ∀ w, Lands x w (Extended w))
    (hy : ∀ w, Lands y w (Extended w)) (w : Writer) :
    Lands (x >>= fun _ => y) w (Extended w) :=
  lands_seq (hx w) fun w₁ h₁ w₂ h₂ => h₁.trans (hy w₁ w₂ h₂)

theorem extended_when {p : Prop} [Decidable p]
    (hx : ∀ w, Lands x w (Extended w)) (w : Writer) :
    Lands (if p then x else pure ()) w (Extended w) := by
  split
  · exact hx w
  · exact lands_skip (.refl w)

theorem extended_write (s : String) (w : Writer) :
    Lands (write s) w (fun w' => Extended w w' ∧ w'.text = w.text ++ s) := by
  intro w' h
  unfold write at h
  split at h
  · next hs =>
    cases h
    rw [String.isEmpty_iff.1 hs]
    exact ⟨.refl w, String.append_empty.symm⟩
  · have written (room : Option Nat) :
        ({ w with chunks := s :: w.chunks, room := room } : Writer).text
          = w.text ++ s := text_write w s
    split at h
    · cases h
    · cases h
      exact ⟨⟨rfl, rfl, rfl, rfl, s, written _⟩, written _⟩
    · cases h
      exact ⟨⟨rfl, rfl, rfl, rfl, s, text_write w s⟩, text_write w s⟩

theorem extended_writing (s : String) (w : Writer) :
    Lands (write s) w (Extended w) :=
  fun w' h => (extended_write s w w' h).1

theorem extended_closeTag (w : Writer) : Lands closeTag w (Extended w) := by
  refine lands_get (extended_when (extended_seq (fun w => ?_)
    (extended_writing ">")) w)
  exact lands_modify ⟨rfl, rfl, rfl, rfl, (Extended.refl w).text⟩

theorem extended_newLine (depth : Nat) (w : Writer) :
    Lands (newLine depth) w (Extended w) :=
  lands_get (extended_when (extended_writing _) w)

theorem extended_onInnermost {f : OpenElement → OpenElement}
    (hf : ∀ e, (f e).raw = e.raw) (w : Writer) :
    Lands (onInnermost f) w (Extended w) := by
  refine lands_modify ?_
  split
  · exact .refl w
  · next e es hopened =>
    refine ⟨rfl, rfl, rfl, ?_, (Extended.refl w).text⟩
    rw [hopened, List.map_cons, List.map_cons, hf]

/-- Of the innermost element counts only whether data is raw in it. -/
theorem any_raw {es fs : List OpenElement}
    (h : es.map (·.raw) = fs.map (·.raw)) :
    es.head?.any (·.raw) = fs.head?.any (·.raw) := by
  cases es with
  | nil => rw [List.map_eq_nil_iff.1 h.symm]
  | cons e es =>
    obtain ⟨f, fs, rfl, hf, -⟩ := List.map_eq_cons_iff.1 h.symm
    exact Eq.symm hf

/-- What is held back is written, or dropped, as a whole. -/
theorem lands_flush (w : Writer) :
    Lands flush w fun w' => Extended { w with pending := "" } w'
      ∧ ∃ t, w'.text = w.text ++ t ++ heldText w.whitespace w.opened w.pending
    := by
  refine lands_get ?_
  by_cases hrun : w.pending = ""
  · have same : { w with pending := "" } = w := by rw [← hrun]
    rw [hrun, same]
    refine lands_skip ⟨.refl w, "", ?_⟩
    rw [String.append_empty]
    exact String.append_empty.symm
  have hfilled : (!w.pending.isEmpty) = true := by
    rw [Bool.not_eq_true', Bool.eq_false_iff]
    exact fun he => hrun (String.isEmpty_iff.1 he)
  have hkeeps : keeps w.whitespace w.pending
      = !drops w.whitespace w.pending := by
    unfold keeps
    rw [hfilled, Bool.true_and]
  rw [if_pos hfilled]
  unfold heldText
  rw [hkeeps]
  refine lands_seq (P := (· = { w with pending := "" })) (lands_modify rfl)
    fun w₁ h₁ => ?_
  subst h₁
  refine lands_get ?_
  show Lands (if (!drops w.whitespace w.pending) = true then _ else _) _ _
  split
  · refine lands_seq (extended_closeTag _) fun w₂ h₂ => ?_
    refine lands_get ?_
    have noted := extended_onInnermost (f := OpenElement.withText)
      (fun _ => rfl) w₂
    refine lands_seq noted fun w₃ h₃ w₄ h₄ => ?_
    obtain ⟨extended, htext⟩ := extended_write _ w₃ w₄ h₄
    refine ⟨(h₂.trans h₃).trans extended, ?_⟩
    obtain ⟨t, ht⟩ := (h₂.trans h₃).text
    refine ⟨t, ?_⟩
    -- closing the tag changes nothing about how text is written inside
    have hraw : w₂.opened.head?.any (·.raw) = w.opened.head?.any (·.raw) :=
      any_raw h₂.raws
    rw [htext, ht, hraw]
    rfl
  · refine lands_skip ⟨.refl _, "", ?_⟩
    rw [String.append_empty, String.append_empty]
    rfl

-- ================================================================== states

variable {d : Dialect} {c : Surroundings} {ps : List Passage}

/-- A writer has written the passages that were sent to it, but for the last
ones, which it holds back. -/
structure Bears (d : Dialect) (c : Surroundings) (ps : List Passage)
    (w : Writer) : Prop where
  dialect : w.dialect = d
  inSection : w.inCData = c.inSection
  raws : w.opened.map (·.raw)
    = c.around.map fun name => (OpenElement.new d name).raw
  passages : ∃ settled held, ps = settled ++ held.map (Passage.mk c.around)
    ∧ Appear d settled w.text ∧ InOrder held w.pending

/-- A writer that holds nothing back. -/
structure Settled (d : Dialect) (c : Surroundings) (ps : List Passage)
    (w : Writer) : Prop extends Bears d c ps w where
  pending : w.pending = ""

theorem Bears.extended (h : Bears d c ps w) (hw : Extended w w') :
    Bears d c ps w' where
  dialect := hw.dialect.trans h.dialect
  inSection := hw.inCData.trans h.inSection
  raws := hw.raws.trans h.raws
  passages := by
    obtain ⟨settled, held, hps, hsettled, hheld⟩ := h.passages
    obtain ⟨t, ht⟩ := hw.text
    rw [ht, hw.pending]
    exact ⟨settled, held, hps, hsettled.before t, hheld⟩

theorem Settled.extended (h : Settled d c ps w) (hw : Extended w w') :
    Settled d c ps w' :=
  ⟨h.toBears.extended hw, hw.pending.trans h.pending⟩

theorem Bears.lands (h : Bears d c ps w)
    (hx : ∀ w, Lands x w (Extended w)) : Lands x w (Bears d c ps) :=
  fun w' hw' => h.extended (hx w w' hw')

/-- An action that only writes. -/
theorem Settled.lands (h : Settled d c ps w)
    (hx : ∀ w, Lands x w (Extended w)) : Lands x w (Settled d c ps) :=
  fun w' hw' => h.extended (hx w w' hw')

/-- What is written may be anywhere. -/
theorem settled_of_appear (hdialect : w.dialect = d)
    (hsection : w.inCData = c.inSection)
    (hraws : w.opened.map (·.raw)
      = c.around.map fun name => (OpenElement.new d name).raw)
    (hpending : w.pending = "") (h : Appear d ps w.text) :
    Settled d c ps w where
  dialect := hdialect
  inSection := hsection
  raws := hraws
  passages := ⟨ps, [], (List.append_nil ps).symm, h, trivial⟩
  pending := hpending

theorem Settled.appear (h : Settled d c ps w) : Appear d ps w.text := by
  obtain ⟨settled, held, rfl, hsettled, hheld⟩ := h.passages
  rw [h.pending] at hheld
  rw [← String.append_empty (s := w.text)]
  refine hsettled.append (appear_blank (fun p hp => ?_) "")
  obtain ⟨data, hdata, rfl⟩ := List.mem_map.1 hp
  exact allBlank_of_inOrder hheld allBlank_nothing data hdata

theorem raw_innermost (h : w.opened.map (·.raw)
      = c.around.map fun name => (OpenElement.new d name).raw) :
    w.opened.head?.any (·.raw) = (d = .html && isRaw c.around) := by
  unfold isRaw
  cases hopened : w.opened with
  | nil =>
    rw [hopened] at h
    rw [List.map_eq_nil_iff.1 h.symm]
    exact (Bool.and_false _).symm
  | cons e es =>
    rw [hopened] at h
    obtain ⟨name, names, haround, hraw, -⟩ := List.map_eq_cons_iff.1 h.symm
    rw [haround]
    exact hraw.symm

/-- A run that is not written is white space. -/
theorem allBlank_of_not_keeps {ws : Whitespace} {run : String}
    (h : ¬ keeps ws run = true) : Text.allBlank run = true := by
  unfold keeps drops at h
  by_cases hrun : run = ""
  · rw [hrun]
    exact allBlank_nothing
  · have hfilled : run.isEmpty = false :=
      Bool.eq_false_iff.2 fun he => hrun (String.isEmpty_iff.1 he)
    rw [hfilled, Bool.not_false, Bool.true_and, Bool.not_eq_true,
      Bool.not_eq_false', Bool.and_eq_true] at h
    exact h.2

/-- A run that is held back is written, or it is white space. -/
theorem Bears.flushed (h : Bears d c ps w) :
    Lands flush w (Settled d c ps) := by
  intro w' hw'
  obtain ⟨extended, t, htext⟩ := lands_flush w w' hw'
  refine settled_of_appear (extended.dialect.trans h.dialect)
    (extended.inCData.trans h.inSection) (extended.raws.trans h.raws)
    extended.pending ?_
  obtain ⟨settled, held, rfl, hsettled, hheld⟩ := h.passages
  rw [htext]
  refine (hsettled.before t).append ?_
  unfold heldText
  split
  · rw [raw_innermost h.raws]
    exact appear_run hheld c.around
  · next hkeeps =>
    refine appear_blank (fun p hp => ?_) ""
    obtain ⟨data, hdata, rfl⟩ := List.mem_map.1 hp
    exact allBlank_of_inOrder hheld (allBlank_of_not_keeps hkeeps) data hdata

-- ================================================================== events

theorem lands_start (h : Bears d c ps w) (name : ElementName)
    (attributes : List (String × String)) :
    Lands (accept (.start name attributes)) w
      (Settled d (c.behind (.start name attributes)) ps) := by
  refine lands_seq h.flushed fun w₁ h₁ => ?_
  refine lands_seq (h₁.lands extended_closeTag) fun w₂ h₂ => ?_
  refine lands_get ?_
  -- with a new line or without one, the rest is the same
  have opens (w₃ : Writer) (h₃ : Settled d c ps w₃) : Lands (do
        onInnermost fun e => { e with hasElements := true }
        write (startTag name.qualified attributes)
        modify fun w =>
          { w with
            tagOpen := true
            opened := .new w₂.dialect name :: w.opened }) w₃
      (Settled d (c.behind (.start name attributes)) ps) := by
    refine lands_seq (h₃.lands (extended_onInnermost fun _ => rfl))
      fun w₄ h₄ => ?_
    refine lands_seq (h₄.lands (extended_writing _)) fun w₅ h₅ => ?_
    refine lands_modify (settled_of_appear h₅.dialect h₅.inSection ?_
      h₅.pending h₅.appear)
    rw [List.map_cons, h₅.raws, h₂.dialect]
    rfl
  split
  · exact lands_seq (h₂.lands (extended_newLine _)) opens
  · exact opens w₂ h₂

theorem extended_closeElement (e : OpenElement) (w : Writer) :
    Lands (closeElement e) w (Extended w) := by
  refine lands_get ?_
  split
  · refine extended_seq (fun w => ?_) (extended_writing "/>") w
    exact lands_modify ⟨rfl, rfl, rfl, rfl, (Extended.refl w).text⟩
  · refine extended_seq extended_closeTag (extended_when fun w => ?_) w
    have ends := extended_writing ("</" ++ e.name ++ ">")
    split
    · exact extended_seq (extended_newLine _) ends w
    · exact ends w

theorem lands_stop (h : Bears d c ps w) (name : ElementName) :
    Lands (accept (.stop name)) w (Settled d (c.behind (.stop name)) ps) := by
  refine lands_seq h.flushed fun w₁ h₁ => lands_get ?_
  split
  · exact lands_throw _
  · next e es hopened =>
    have left : Settled d (c.behind (.stop name)) ps
        { w₁ with opened := es } := by
      refine settled_of_appear h₁.dialect h₁.inSection ?_ h₁.pending h₁.appear
      have raws := congrArg List.tail h₁.raws
      rw [hopened, List.map_cons, List.tail_cons, ← List.map_tail] at raws
      exact raws
    refine lands_seq (lands_modify left) fun w₂ h₂ => ?_
    split
    · exact h₂.lands (extended_closeElement e)
    · exact lands_throw _

/-- What a section holds is written behind what is written already. -/
theorem lands_endCData (h : Bears d c ps w) :
    Lands (accept .endCData) w (Bears d (c.behind .endCData) ps) := by
  have left : Bears d (c.behind .endCData) ps
      { w with inCData := false, cdata := "" } :=
    { h with inSection := rfl }
  refine lands_get (lands_seq (lands_modify left) fun w₁ h₁ => ?_)
  refine lands_seq (h₁.lands extended_closeTag) fun w₂ h₂ => ?_
  refine lands_seq (h₂.lands (extended_onInnermost fun _ => rfl))
    fun w₃ h₃ => lands_get ?_
  cases w₃.dialect with
  | xml => exact h₃.lands (extended_writing _)
  | html => exact h₃.lands (extended_writing _)

theorem lands_characters (h : Bears d c ps w) (s : String) :
    Lands (accept (.characters s)) w
      (Bears d c (ps ++ c.passage (.characters s))) := by
  refine lands_modify ?_
  show Bears d c (ps ++ if c.inSection then [] else [⟨c.around, s⟩]) _
  rw [← h.inSection]
  split
  · rw [List.append_nil]
    exact { h with }
  · obtain ⟨settled, held, rfl, hsettled, hheld⟩ := h.passages
    refine { h with
      passages := ⟨settled, held ++ [s], ?_, hsettled,
        hheld.append (inOrder_whole s)⟩ }
    rw [List.map_append, List.append_assoc]
    rfl

/-- At the end of a document nothing is held back. -/
theorem lands_endDocument (h : Bears d c ps w) :
    Lands (accept .endDocument) w (Settled d c ps) := by
  refine lands_seq h.flushed fun w₁ h₁ => lands_get ?_
  have written := h₁.lands (extended_when
    (p := (w₁.whitespace = .indent && !w₁.atLineStart) = true)
    (extended_writing "\n"))
  cases hopened : w₁.opened.isEmpty with
  | true => exact written
  | false => exact nofun

/-- Whatever event comes, nothing is lost. -/
theorem lands_accept (h : Bears d c ps w) (e : Event) :
    Lands (accept e) w (Bears d (c.behind e) (ps ++ c.passage e)) := by
  -- most events are no passage, so none is added
  have silent {w' : Writer} (hnone : c.passage e = [])
      (hw' : Bears d (c.behind e) ps w') :
      Bears d (c.behind e) (ps ++ c.passage e) w' := by
    rw [hnone, List.append_nil]
    exact hw'
  cases e with
  | characters s => exact lands_characters h s
  | start name attributes =>
    exact fun w' hw' => silent rfl (lands_start h name attributes w' hw').toBears
  | stop name => exact fun w' hw' => silent rfl (lands_stop h name w' hw').toBears
  | startCData =>
    refine lands_seq h.flushed fun w₁ h₁ => lands_modify (silent rfl ?_)
    exact { h₁ with inSection := rfl }
  | endCData => exact fun w' hw' => silent rfl (lands_endCData h w' hw')
  | startDocument =>
    have written := extended_when (p := (w.dialect = .xml && w.declaration) = true)
      (extended_writing xmlDeclaration) w
    exact fun w' hw' => silent rfl (h.extended (written w' hw'))
  | endDocument =>
    exact fun w' hw' => silent rfl (lands_endDocument h w' hw').toBears
  | startDoctype name publicId systemId =>
    refine lands_seq h.flushed fun w₁ h₁ => ?_
    have written := extended_seq extended_closeTag
      (extended_writing (doctypeText name publicId systemId))
    exact fun w' hw' => silent rfl (h₁.extended (written w₁ w' hw')).toBears
  | endDoctype => exact lands_skip (silent rfl h)

-- =============================================================== deliveries

theorem accepted_of_delivered {e : Event} {es : List Event}
    (h : sink.deliver w (e :: es) = (w', none)) :
    ∃ w₁, accept e w = .ok () w₁ ∧ sink.deliver w₁ es = (w', none) := by
  unfold Sink.deliver at h
  rw [send_eq] at h
  cases haccept : accept e w with
  | ok _ w₁ =>
    rw [haccept] at h
    exact ⟨w₁, rfl, h⟩
  | error error w₁ =>
    rw [haccept] at h
    cases h

theorem bears_delivered {es : List Event} (h : Bears d c ps w)
    (hes : sink.deliver w es = (w', none)) :
    Bears d (c.behindAll es) (ps ++ c.passages es) w' := by
  induction es generalizing c ps w with
  | nil =>
    cases hes
    rw [Surroundings.passages, List.append_nil]
    exact h
  | cons e es ih =>
    rw [Surroundings.passages, ← List.append_assoc]
    obtain ⟨w₁, haccept, hes⟩ := accepted_of_delivered hes
    exact ih (lands_accept h e w₁ haccept) hes

/-- When a document is written to its end, all passages in it are. -/
theorem appear_delivered {ws : Whitespace} {declaration : Bool}
    {room : Option Nat} {es : List Event}
    (h : sink.deliver (.fresh d ws declaration room) (es ++ [.endDocument])
      = (w, none)) :
    Appear d (Surroundings.outermost.passages es) w.text := by
  have begun : Bears d .outermost [] (.fresh d ws declaration room) :=
    ⟨rfl, rfl, rfl, [], [], rfl, ⟨[], .nil, trivial⟩, trivial⟩
  rcases hd : sink.deliver (.fresh d ws declaration room) es
    with ⟨w₁, _ | error⟩
  · rw [Sink.deliver_append_of_accepted hd] at h
    obtain ⟨w₂, haccept, hnone⟩ := accepted_of_delivered h
    cases hnone
    exact (lands_endDocument (bears_delivered begun hd) w haccept).appear
  · rw [Sink.deliver_append_of_refused hd] at h
    cases h

end

end Writer

end Stencil.Output
