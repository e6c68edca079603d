/-
Markup that is written is scanned piece by piece.

`Leads` is about a text wherever it stands: before what fits behind it, it is
scanned as if by itself, and then what is behind is scanned; every builder that
is fed the events of the text reacts to them in some way. So what is known of
two texts gives what is known of one behind the other (`Leads.append`), and
positions never matter.
-/
import Stencil.Proofs.Markup.Data
import Stencil.Proofs.Text.Cutting

namespace Stencil.Markup

open Text (width width_append isBlank breakOn? breakOn?_nil breakOn?_cons
  breakOn?_before indexOf? replaceAll replaceAll_eq)

-- ================================================================== leading

/-- A scan with some events in front. -/
def Scan.behind (placed : List Placed) (s : Scan) : Scan :=
  { s with events := placed ++ s.events }

theorem Scan.behind_behind (ps qs : List Placed) (s : Scan) :
    (s.behind qs).behind ps = s.behind (ps ++ qs) := by
  unfold behind
  rw [List.append_assoc]

/-- What fits behind a stretch of text does not run on with it: it begins with
markup or a reference, or is nothing. -/
def Stops (rest : List Char) : Prop :=
  ∀ c ∈ rest.head?, isTextChar c = false

theorem stops_cons {c : Char} (hc : isTextChar c = false) (s : List Char) :
    Stops (c :: s) := by
  intro d hd
  cases hd
  exact hc

/-- Behind markup and references anything fits. -/
def Anything (_ : List Char) : Prop := True

/-- What a builder makes of some events. -/
abbrev Reaction := Builder → Except Error Builder → Prop

/-- Before what fits behind it the text is scanned by itself, and a builder
reacts so to its events. -/
def Leads (fits : List Char → Prop) (s : List Char) (Q : Reaction) : Prop :=
  ∀ pos rest, fits rest → ∃ placed,
    scanFrom pos (s ++ rest) = (scanFrom (pos + width s) rest).behind placed
      ∧ ∀ starts b, Q b (b.run starts placed)

theorem Builder.run_append (b : Builder) (starts : List Nat)
    (es fs : List Placed) :
    b.run starts (es ++ fs) = b.run starts es >>= fun b => b.run starts fs := by
  induction es generalizing b with
  | nil => rfl
  | cons e es ih =>
    rw [List.cons_append, run, run]
    cases b.feed (Location.ofOffset starts e.offset) e.event with
    | error fault => rfl
    | ok b => exact ih b

section

variable {fits first : List Char → Prop} {s t : List Char} {Q R T : Reaction}

theorem Leads.mono (h : Leads fits s Q) (hQ : ∀ b r, Q b r → R b r) :
    Leads fits s R := by
  intro pos rest hrest
  obtain ⟨placed, hscan, hrun⟩ := h pos rest hrest
  exact ⟨placed, hscan, fun starts b => hQ b _ (hrun starts b)⟩

/-- One text behind another: the second reaction follows on the first. -/
theorem Leads.append (hs : Leads first s Q) (ht : Leads fits t R)
    (hfits : ∀ rest, fits rest → first (t ++ rest))
    (hT : ∀ b r (f : Builder → Except Error Builder), Q b r →
      (∀ b', R b' (f b')) → T b (r >>= f)) : Leads fits (s ++ t) T := by
  intro pos rest hrest
  obtain ⟨ps, hps, hQ⟩ := hs pos (t ++ rest) (hfits rest hrest)
  obtain ⟨qs, hqs, hR⟩ := ht (pos + width s) rest hrest
  refine ⟨ps ++ qs, ?_, fun starts b => ?_⟩
  · rw [List.append_assoc, hps, hqs, Scan.behind_behind, width_append,
      Nat.add_assoc]
  · rw [b.run_append]
    exact hT b _ _ (hQ starts b) (hR starts)

/-- Nothing at all. -/
theorem leads_nil (hQ : ∀ b, Q b (.ok b)) : Leads fits [] Q :=
  fun _ _ _ => ⟨[], rfl, fun _ b => hQ b⟩

-- =================================================================== pieces

theorem scanFrom_piece {c : Char} {p rest : List Char} {event : Option Event}
    (h : piece c (p ++ rest) = .ok (event, p.length)) (pos : Nat) :
    scanFrom pos (c :: (p ++ rest))
      = (scanFrom (pos + width (c :: p)) rest).behind
          (event.toList.map (Placed.mk pos)) := by
  rw [scanFrom, h]
  dsimp only
  rw [List.take_left, List.drop_left]
  cases event <;> rfl

/-- The builder is fed one event, if there is one. -/
def Feeds (event : Option Event) : Reaction := fun b r =>
  ∃ place, r = match event with
    | some e => b.feed place e
    | none => .ok b

theorem leads_piece {c : Char} {p : List Char} (event : Option Event)
    (h : ∀ rest, fits rest → piece c (p ++ rest) = .ok (event, p.length)) :
    Leads fits (c :: p) (Feeds event) := by
  intro pos rest hrest
  refine ⟨_, scanFrom_piece (h rest hrest) pos, fun starts b => ?_⟩
  refine ⟨Location.ofOffset starts pos, ?_⟩
  cases event with
  | none => rfl
  | some e =>
    show b.feed (Location.ofOffset starts pos) e >>= (fun b => .ok b)
      = b.feed (Location.ofOffset starts pos) e
    cases b.feed (Location.ofOffset starts pos) e <;> rfl

end

-- ===================================================================== text

/-- The builder is given some text. -/
def Texts (s : List Char) : Reaction := fun b r =>
  ∃ place, r = b.text place (String.ofList s)

theorem isTextChar_iff {c : Char} :
    isTextChar c = true ↔ c ≠ '<' ∧ c ≠ '&' := by
  simp [isTextChar]

/-- A stretch of text is one event. -/
theorem leads_stretch {p : List Char} (hp : ∀ c ∈ p, isTextChar c = true) :
    Leads Stops p (Texts p) := by
  cases p with
  | nil => exact leads_nil fun b => ⟨⟨1, 1⟩, rfl⟩
  | cons c p =>
    obtain ⟨hc, hp⟩ := List.forall_mem_cons.1 hp
    refine (leads_piece (some (.text (String.ofList (c :: p))))
      fun rest hrest => ?_).mono fun b r h => h
    have hrun : (p ++ rest).takeWhile isTextChar = p := by
      rw [List.takeWhile_append_of_pos hp]
      cases rest with
      | nil => exact List.append_nil p
      | cons d rest =>
        rw [List.takeWhile_cons_of_neg (by rw [hrest d rfl]; exact Bool.false_ne_true),
          List.append_nil]
    unfold piece
    rw [if_neg (isTextChar_iff.1 hc).1, if_neg (isTextChar_iff.1 hc).2, hrun]

/-- A reference by name is the text of its character. -/
theorem leads_reference {name : List Char} {c : Char}
    (h : predefined? name = some c) :
    Leads Anything ('&' :: (name ++ [';'])) (Texts [c]) := by
  refine (leads_piece (some (.reference name))
    fun rest _ => ?_).mono fun b r ⟨place, hr⟩ => ⟨place, ?_⟩
  · have hall : ∀ d ∈ name, (d != ';' && d != '&' && d != '<') = true := by
      intro d hd
      obtain ⟨hamp, hsemi, hlt, -⟩ := plain_of_predefined? h d hd
      simp [hamp, hsemi, hlt]
    have hname : (name ++ ';' :: rest).takeWhile
        (fun d => d != ';' && d != '&' && d != '<') = name := by
      rw [List.takeWhile_append_of_pos hall]
      exact List.append_nil name
    unfold piece referencePiece
    rw [if_neg (by decide), if_pos rfl, List.append_assoc, List.singleton_append,
      hname]
    dsimp only
    rw [List.drop_left, List.length_append]
    rfl
  · rw [hr]
    show b.feed place (.reference name) = _
    rw [Builder.feed, referenced?_of_predefined? h]
    rfl

/-- The data is added to an open element in this context, or the events are
refused. -/
def Adds (ctx : Context) (added? : Option (List Datum)) : Reaction := fun b r =>
  b.atTop = false → b.context = ctx →
    match added? with
    | some added => ∃ b', r = .ok b' ∧ b.Grows added b'
    | none => ∃ e, r = .error e

section

variable {ctx : Context}

theorem Texts.adds {s : List Char} {b : Builder} {r : Except Error Builder}
    (h : Texts s b r) (ctx : Context) :
    Adds ctx (some [.text (String.ofList s)]) b r := by
  obtain ⟨place, rfl⟩ := h
  exact fun htop _ => Builder.grows_text htop place _

/-- What is added in two steps. -/
theorem Adds.bind {xs? ys? : Option (List Datum)} {b : Builder}
    {r : Except Error Builder} {f : Builder → Except Error Builder}
    (hr : Adds ctx xs? b r) (hf : ∀ b', Adds ctx ys? b' (f b')) :
    Adds ctx (xs?.bind fun xs => ys?.map fun ys => xs ++ ys) b (r >>= f) := by
  intro htop hctx
  have hr := hr htop hctx
  cases xs? with
  | none =>
    obtain ⟨e, rfl⟩ := hr
    exact ⟨e, rfl⟩
  | some xs =>
    obtain ⟨b', rfl, hgrows⟩ := hr
    have hf := hf b' (hgrows.atTop.trans htop) (hgrows.context.trans hctx)
    cases ys? with
    | none => exact hf
    | some ys =>
      obtain ⟨b'', hb'', hgrows'⟩ := hf
      exact ⟨b'', hb'', hgrows.trans hgrows'⟩

theorem Adds.congr {xs? ys? : Option (List Datum)} {b : Builder}
    {r : Except Error Builder} (h : Adds ctx xs? b r)
    (hsame : Option.Rel SameData xs? ys?) : Adds ctx ys? b r := by
  intro htop hctx
  have h := h htop hctx
  cases hsame with
  | none => exact h
  | some hsame =>
    obtain ⟨b', hb', hgrows⟩ := h
    exact ⟨b', hb', hgrows.congr hsame⟩

/-- Escaped text is scanned in parts, whose reactions make up that to the whole
text. The plain characters `p` met so far are one stretch with those to
come. -/
theorem leads_escaped {Q : List Char → Reaction}
    (hpart : ∀ s b r, Texts s b r → Q s b r)
    (happend : ∀ s t b r (f : Builder → Except Error Builder), Q s b r →
      (∀ b', Q t b' (f b')) → Q (s ++ t) b (r >>= f))
    (s : List Char) {p : List Char} (hp : ∀ c ∈ p, isTextChar c = true) :
    Leads Stops (p ++ s.flatMap escapeTextChar) (Q (p ++ s)) := by
  induction s generalizing p with
  | nil =>
    rw [List.flatMap_nil, List.append_nil]
    exact (leads_stretch hp).mono (hpart p)
  | cons c s ih =>
    rw [List.flatMap_cons]
    rcases escapes_escapeTextChar c with ⟨heq, hamp, hlt⟩ | ⟨name, heq, hname⟩
    · have hpc : ∀ d ∈ p ++ [c], isTextChar d = true := by
        intro d hd
        rcases List.mem_append.1 hd with hd | hd
        · exact hp d hd
        · rw [List.mem_singleton.1 hd]
          exact isTextChar_iff.2 ⟨hlt, hamp⟩
      -- a character that stands for itself joins the stretch before it
      have h := ih hpc
      rw [List.append_assoc, List.append_assoc] at h
      rw [heq]
      exact h
    · have hrest := ih (p := []) nofun
      rw [List.nil_append, List.nil_append] at hrest
      -- the stretch ends here: it is read, then the reference, then the rest
      have hbehind := (leads_reference hname).append hrest
        (fun _ _ => trivial) fun b r f hr => happend [c] s b r f (hpart _ b r hr)
      have hall := (leads_stretch hp).append hbehind
        (fun _ _ => stops_cons (by decide) _) fun b r f hr =>
          happend p (c :: s) b r f (hpart p b r hr)
      rw [heq]
      rw [List.cons_append, List.append_assoc] at hall ⊢
      exact hall

/-- Escaped text is read as the text. -/
theorem leads_text (ctx : Context) (s : List Char) :
    Leads Stops (s.flatMap escapeTextChar)
      (Adds ctx (some [.text (String.ofList s)])) := by
  refine leads_escaped (Q := fun s => Adds ctx (some [.text (String.ofList s)]))
    (fun _ _ _ h => h.adds ctx) (fun s t b r f hr hf => ?_) s (p := []) nofun
  refine (hr.bind hf).congr (.some ?_)
  rw [String.ofList_append]
  exact sameData_texts _ _

end

/-- White space is not escaped, and is one stretch of text. -/
theorem plain_of_isBlank {c : Char} (h : isBlank c = true) :
    escapeTextChar c = [c] ∧ isTextChar c = true := by
  have hne {d : Char} (hd : isBlank d = false) : c ≠ d := by
    rintro rfl
    rw [h] at hd
    cases hd
  refine ⟨?_, isTextChar_iff.2 ⟨hne (by decide), hne (by decide)⟩⟩
  unfold escapeTextChar
  split
  · exact absurd rfl (hne (by decide))
  · exact absurd rfl (hne (by decide))
  · exact absurd rfl (hne (by decide))
  · rfl

theorem flatMap_escapeTextChar_blank {s : List Char}
    (h : s.all isBlank = true) : s.flatMap escapeTextChar = s := by
  induction s with
  | nil => rfl
  | cons c s ih =>
    obtain ⟨hc, hs⟩ := Bool.and_eq_true_iff.1 h
    rw [List.flatMap_cons, (plain_of_isBlank hc).1, ih hs]
    rfl

/-- Outside all elements nothing comes of the events. -/
def Idle : Reaction := fun b r => b.atTop = true → r = .ok b

theorem leads_blank {s : List Char} (h : s.all isBlank = true) :
    Leads Stops (s.flatMap escapeTextChar) Idle := by
  rw [flatMap_escapeTextChar_blank h]
  have hplain : ∀ c ∈ s, isTextChar c = true := fun c hc =>
    (plain_of_isBlank (List.all_eq_true.1 h c hc)).2
  refine (leads_stretch hplain).mono fun b r ⟨place, hr⟩ htop => ?_
  have hblank : Text.allBlank (String.ofList s) = true := by
    unfold Text.allBlank
    rw [String.toList_ofList]
    exact h
  rw [hr, Builder.text, htop, hblank]
  split <;> rfl

-- ===================================================================== tags

section

variable {name : String} {attributes : List (String × String)}

/-- A tag is not taken for other markup. -/
theorem markupPiece_tag (hname : isXmlName name = true) (rest : List Char) :
    markupPiece (tagChars name attributes ++ rest)
      = startPiece (tagChars name attributes ++ rest) := by
  obtain ⟨c, cs, hcons, hchars⟩ := chars_of_isXmlName hname
  have hc : Nominal c := hchars c (hcons ▸ List.mem_cons_self)
  rw [tagChars, hcons]
  unfold markupPiece
  split
  · next h => exact absurd (List.cons.inj h).1 hc.bang
  · next h => exact absurd (List.cons.inj h).1 hc.mark
  · next h => exact absurd (List.cons.inj h).1 hc.slash
  · rfl

theorem piece_markup (s : List Char) : piece '<' s = markupPiece s :=
  if_pos rfl

theorem leads_start (hname : isXmlName name = true)
    (hnames : ∀ a ∈ attributes, isXmlName a.1 = true) :
    Leads Anything ('<' :: (tagChars name attributes ++ ['>']))
      (Feeds (some (.start (tagChars name attributes) false))) := by
  refine leads_piece _ fun rest _ => ?_
  rw [piece_markup, List.append_assoc, List.length_append, markupPiece_tag hname]
  exact startPiece_written hname hnames rest

theorem leads_empty (hname : isXmlName name = true)
    (hnames : ∀ a ∈ attributes, isXmlName a.1 = true) :
    Leads Anything ('<' :: (tagChars name attributes ++ ['/', '>']))
      (Feeds (some (.start (tagChars name attributes) true))) := by
  refine leads_piece _ fun rest _ => ?_
  rw [piece_markup, List.append_assoc, List.length_append, markupPiece_tag hname]
  exact startPiece_empty hname hnames rest

theorem leads_stop (hname : isXmlName name = true) :
    Leads Anything ('<' :: '/' :: (name.toList ++ ['>']))
      (Feeds (some (.stop name))) := by
  refine leads_piece _ fun rest _ => ?_
  rw [piece_markup, List.cons_append, List.append_assoc, List.length_cons,
    List.length_append]
  exact endPiece_written hname rest

end

-- ================================================================= sections

/-- What opens a section. -/
def sectionStart : List Char := ['<', '!', '[', 'C', 'D', 'A', 'T', 'A', '[']

/-- What closes a section. -/
def sectionEnd : List Char := [']', ']', '>']

/-- What stands for the end of a section in data: the end of one section
between its brackets and its `>`, and the start of another. -/
def sectionSplit : List Char :=
  [']', ']'] ++ sectionEnd ++ sectionStart ++ ['>']

/-- A text that does not hold the end of a section holds none together with
two brackets behind it. -/
theorem breakOn?_brackets {a : List Char} (h : breakOn? sectionEnd a = none)
    (u : List Char) :
    breakOn? sectionEnd (a ++ ']' :: ']' :: u)
      = (breakOn? sectionEnd (']' :: ']' :: u)).map fun (x, y) => (a ++ x, y) := by
  induction a with
  | nil =>
    rw [List.nil_append]
    cases breakOn? sectionEnd (']' :: ']' :: u) <;> rfl
  | cons c a ih =>
    have hshort : ¬ sectionEnd <+: c :: a := by
      rintro ⟨r, hr⟩
      rw [← hr, Text.breakOn?_append_self (by decide)] at h
      cases h
    -- an end that reaches into the two brackets would take a third behind them
    have hlong : ¬ sectionEnd <+: c :: (a ++ ']' :: ']' :: u) := by
      intro hfront
      obtain ⟨rfl, hsecond⟩ := List.cons_prefix_cons.1 hfront
      rcases a with _ | ⟨d, a⟩
      · exact absurd (List.cons_prefix_cons.1
          (List.cons_prefix_cons.1 hsecond).2).1 (by decide)
      obtain ⟨rfl, hthird⟩ := List.cons_prefix_cons.1 hsecond
      rcases a with _ | ⟨e, a⟩
      · exact absurd (List.cons_prefix_cons.1 hthird).1 (by decide)
      obtain ⟨rfl, -⟩ := List.cons_prefix_cons.1 hthird
      exact hshort ⟨a, rfl⟩
    rw [breakOn?_cons hshort] at h
    rw [List.cons_append, breakOn?_cons hlong, ih (Option.map_eq_none_iff.1 h)]
    cases breakOn? sectionEnd (']' :: ']' :: u) <;> rfl

/-- A section whose data does not hold its end. -/
theorem leads_section {data : List Char}
    (h : breakOn? sectionEnd data = none) :
    Leads Anything (sectionStart ++ data ++ sectionEnd)
      (Feeds (some (.cdata (String.ofList data)))) := by
  refine leads_piece (p := ['!', '[', 'C', 'D', 'A', 'T', 'A', '['] ++ data
    ++ sectionEnd) _ fun rest _ => ?_
  have hfound := breakOn?_brackets h ('>' :: rest)
  rw [show ']' :: ']' :: '>' :: rest = sectionEnd ++ rest from rfl,
    Text.breakOn?_append_self (by decide)] at hfound
  obtain ⟨i, hi, heq⟩ := Option.map_eq_some_iff.1 hfound
  have htake : (data ++ (sectionEnd ++ rest)).take i = data := by
    have := congrArg Prod.fst heq
    simpa using this
  -- the end that is found is the one that was written
  have hlength : i = data.length := by
    have hle := Text.indexOf?_le_length hi
    have := congrArg List.length htake
    rw [List.length_take] at this
    omega
  have hdelimited : delimited .cdata 7 sectionEnd
      (['[', 'C', 'D', 'A', 'T', 'A', '['] ++ (data ++ (sectionEnd ++ rest)))
      (fun t => some (.cdata (String.ofList t)))
      = .ok (some (.cdata (String.ofList data)), 7 + data.length + 3) := by
    unfold delimited
    have hdrop : (['[', 'C', 'D', 'A', 'T', 'A', '[']
        ++ (data ++ (sectionEnd ++ rest))).drop 7
        = data ++ (sectionEnd ++ rest) := rfl
    rw [hdrop, hi, hlength]
    dsimp only
    rw [List.take_left]
    rfl
  have hbang : bangPiece (['[', 'C', 'D', 'A', 'T', 'A', '[']
      ++ (data ++ (sectionEnd ++ rest)))
      = (delimited .cdata 7 sectionEnd
          (['[', 'C', 'D', 'A', 'T', 'A', '[']
            ++ (data ++ (sectionEnd ++ rest)))
          fun t => some (.cdata (String.ofList t))).map
            fun scanned => (scanned.1, scanned.2 + 1) := rfl
  rw [piece_markup, List.append_assoc, List.append_assoc]
  refine hbang.trans ?_
  rw [hdelimited, List.length_append, List.length_append]
  show Except.ok (_, 7 + data.length + 3 + 1) = .ok (_, 8 + data.length + 3)
  congr 2
  omega

/-- Data in as many sections as it takes, where each end of a section in it is
split. What stands before it in the first section completes no end. -/
theorem leads_sections_behind (ctx : Context) (before data : List Char)
    (hbefore : ∀ a, breakOn? sectionEnd a = none →
      breakOn? sectionEnd (before ++ a) = none) :
    Leads Anything (sectionStart
        ++ (before ++ replaceAll sectionEnd sectionSplit data) ++ sectionEnd)
      (Adds ctx (some [.cdata (String.ofList (before ++ data))])) := by
  have hfeeds {s : List Char} {b : Builder} {r : Except Error Builder}
      (h : Feeds (some (.cdata (String.ofList s))) b r) :
      Adds ctx (some [.cdata (String.ofList s)]) b r := by
    obtain ⟨place, rfl⟩ := h
    intro htop _
    refine ⟨_, ?_, b.grows_leaf place (.cdata (String.ofList s))⟩
    show (if b.atTop then _ else _) = _
    rw [htop]
    rfl
  rw [replaceAll_eq (by decide)]
  cases hdata : breakOn? sectionEnd data with
  | none => exact (leads_section (hbefore data hdata)).mono fun b r => hfeeds
  | some q =>
    obtain ⟨a, rest⟩ := q
    have heq := Text.eq_append_of_breakOn? hdata
    have ha := hbefore a (breakOn?_before (by decide) hdata)
    -- the section is left between the brackets and the mark that ends it
    have hfirst : breakOn? sectionEnd (before ++ a ++ [']', ']']) = none := by
      rw [breakOn?_brackets ha]
      rfl
    have hrest := leads_sections_behind ctx ['>'] rest fun b hb => by
      rw [List.singleton_append, breakOn?_cons (by
        intro hfront
        exact absurd (List.cons_prefix_cons.1 hfront).1 (by decide)), hb]
      rfl
    have hall := (leads_section hfirst).append hrest (fun _ _ => trivial)
      fun b r f hr hf => ((hfeeds hr).bind hf).congr
        (.some (sameData_cdatas _ _))
    rw [← String.ofList_append] at hall
    have htext : sectionStart ++ (before ++ (a ++ sectionSplit
          ++ replaceAll sectionEnd sectionSplit rest)) ++ sectionEnd
        = sectionStart ++ (before ++ a ++ [']', ']']) ++ sectionEnd
          ++ (sectionStart ++ (['>']
            ++ replaceAll sectionEnd sectionSplit rest) ++ sectionEnd) := by
      simp only [sectionSplit, List.append_assoc]
    have hwhole : before ++ data
        = before ++ a ++ [']', ']'] ++ (['>'] ++ rest) := by
      rw [heq]
      simp only [sectionEnd, List.append_assoc, List.cons_append,
        List.nil_append]
    rw [hwhole]
    dsimp only
    rw [htext]
    exact hall
termination_by data.length
decreasing_by
  rw [heq, List.length_append, List.length_append]
  have : sectionEnd.length = 3 := rfl
  omega

/-- Data in sections is read as the data. -/
theorem leads_sections (ctx : Context) (data : List Char) :
    Leads Anything (sectionStart ++ replaceAll sectionEnd sectionSplit data
        ++ sectionEnd)
      (Adds ctx (some [.cdata (String.ofList data)])) :=
  leads_sections_behind ctx [] data fun _ h => h

-- ============================================================ declarations

/-- The word that begins a document type declaration. -/
def doctypeWord : List Char := ['D', 'O', 'C', 'T', 'Y', 'P', 'E']

/-- A document type declaration is no event. -/
theorem leads_doctype {name : String} (hname : isXmlName name = true)
    {ids : List Char} (hids : Passes doctypeLength ids) :
    Leads Anything ('<' :: '!' :: (doctypeWord ++ ' ' :: (name.toList ++ ids)
      ++ ['>'])) (Feeds none) := by
  obtain ⟨c, cs, hcons, hchars⟩ := chars_of_isXmlName hname
  -- nothing in the name or the identifiers ends the declaration or nests in it
  have hnamed : Passes doctypeLength name.toList :=
    closer_doctype.passes_plain fun d hd => ⟨(hchars d hd).closer,
      (hchars d hd).bracket, (hchars d hd).double, (hchars d hd).single⟩
  have hword : Passes doctypeLength (doctypeWord ++ [' ']) :=
    closer_doctype.passes_plain (by simp [doctypeWord])
  have hlength (rest : List Char) :=
    closer_doctype.length (hword.append (hnamed.append hids)) rest
  have hspace : (' ' :: (name.toList ++ ids)).all Text.isSpace = false := by
    rw [hcons, List.cons_append, List.all_cons, List.all_cons,
      (hchars c (hcons ▸ List.mem_cons_self)).space]
    rfl
  refine leads_piece _ fun rest _ => ?_
  have hbody : doctypeWord ++ [' '] ++ (name.toList ++ ids)
      = doctypeWord ++ ' ' :: (name.toList ++ ids) := by simp
  rw [piece_markup, List.cons_append, List.append_assoc, ← hbody]
  show doctypePiece (doctypeWord ++ [' '] ++ (name.toList ++ ids)
    ++ '>' :: rest) = _
  unfold doctypePiece
  rw [hlength]
  dsimp only
  rw [List.take_left]
  have htake : (doctypeWord ++ [' '] ++ (name.toList ++ ids)
      ++ '>' :: rest).take 7 = doctypeWord := rfl
  have hsame : Text.sameIgnoringCase doctypeWord "doctype".toList = true := by
    decide
  have hdrop : (doctypeWord ++ [' '] ++ (name.toList ++ ids)).drop 7
      = ' ' :: (name.toList ++ ids) := rfl
  have hle : ¬ (doctypeWord ++ [' '] ++ (name.toList ++ ids)).length < 7 := by
    rw [List.length_append]
    have : (doctypeWord ++ [' ']).length = 8 := rfl
    omega
  rw [htake, hsame, hdrop, hspace, decide_eq_false hle, List.length_cons]
  simp [Nat.add_assoc]

/-- The inside of the XML declaration that a document is written with. -/
def declarationBody : List Char :=
  "xml version=\"1.0\" encoding=\"UTF-8\"".toList

/-- The XML declaration is no event. -/
theorem leads_declaration :
    Leads Anything ('<' :: '?' :: (declarationBody ++ ['?', '>']))
      (Feeds none) := by
  refine leads_piece _ fun rest _ => ?_
  rfl

-- ================================================================= elements

/-- The element of a name and attributes in a context, with its contents. -/
def elementDatum? (ctx : Context) (name : String)
    (attributes : List (String × String)) (inside? : Option (List Datum)) :
    Option Datum :=
  (elementOf? ctx name attributes).bind fun e =>
    inside?.map fun xs => .element e (joinData xs)

/-- The builder gets one more child, which is an element, or the events are
refused. -/
def Pushes (ctx : Context) (datum? : Option Datum) : Reaction := fun b r =>
  b.hasRoot = false → b.context = ctx →
    match datum? with
    | some x => ∃ t next, r = .ok ⟨b.current.push t, b.outer, next⟩
        ∧ t.isElement = true ∧ t.data = [x]
    | none => ∃ e, r = .error e

/-- Inside another element an element is added. -/
theorem Pushes.adds {ctx : Context} {datum? : Option Datum} {b : Builder}
    {r : Except Error Builder} (h : Pushes ctx datum? b r) :
    Adds ctx (datum?.map fun x => [x]) b r := by
  intro htop hctx
  have hroot : b.hasRoot = false := by
    unfold Builder.hasRoot
    rw [htop]
    rfl
  have h := h hroot hctx
  cases datum? with
  | none => exact h
  | some x =>
    obtain ⟨t, next, hr, -, hdata⟩ := h
    refine ⟨_, hr, rfl, rfl, ?_⟩
    rw [Frame.data_push, hdata]
    exact .refl _

section

variable {ctx : Context} {name : String} {attributes : List (String × String)}
  (hname : isXmlName name = true)
  (hnames : ∀ a ∈ attributes, isXmlName a.1 = true)
  (hnodup : (attributes.map Prod.fst).Nodup)
include hname hnames hnodup

/-- A written tag begins the element of its name and its attributes. -/
theorem element_written {b : Builder} (hctx : b.context = ctx)
    (place : Location) :
    (b.element place (tagChars name attributes)).toOption
      = elementOf? ctx name attributes := by
  rw [Builder.element_eq, readAttributes_written hname hnames hnodup,
    tagName_written hname, String.ofList_toList, hctx]
  rfl

/-- What a builder makes of a start tag. -/
theorem feed_start {b : Builder} (hroot : b.hasRoot = false)
    (hctx : b.context = ctx) (place : Location) (empty : Bool) :
    match elementOf? ctx name attributes with
    | some e => b.feed place (.start (tagChars name attributes) empty)
        = .ok (if empty then b.leaf place (.element e)
          else b.openElement place e)
    | none => ∃ fault,
        b.feed place (.start (tagChars name attributes) empty)
          = .error fault := by
  rw [← element_written hname hnames hnodup hctx place, Builder.feed, hroot,
    if_neg Bool.false_ne_true]
  cases b.element place (tagChars name attributes) with
  | error fault => exact ⟨fault, rfl⟩
  | ok e => cases empty <;> rfl

/-- An element that is written with an end tag. -/
theorem leads_element {inside : List Char} {inside? : Option (List Datum)}
    (hinside : Leads Stops inside (Adds (declared attributes :: ctx) inside?)) :
    Leads Anything ('<' :: (tagChars name attributes ++ ['>'])
        ++ (inside ++ '<' :: '/' :: (name.toList ++ ['>'])))
      (Pushes ctx (elementDatum? ctx name attributes inside?)) := by
  -- the contents are read up to the end tag, from where they stand
  have hrest := hinside.append (leads_stop hname)
    (fun rest _ => stops_cons (by decide) _)
    (T := fun b r => ∃ r' f, Adds (declared attributes :: ctx) inside? b r'
      ∧ (∀ b', Feeds (some (.stop name)) b' (f b')) ∧ r = r' >>= f)
    fun b r f hr hf => ⟨r, f, hr, hf, rfl⟩
  refine (leads_start hname hnames).append hrest (fun _ _ => trivial) ?_
  intro b r f ⟨place, hr⟩ hf hroot hctx
  have hr : r = b.feed place (.start (tagChars name attributes) false) := hr
  have hfeed := feed_start hname hnames hnodup hroot hctx place false
  rw [hr]
  unfold elementDatum?
  cases he : elementOf? ctx name attributes with
  | none =>
    rw [he] at hfeed
    obtain ⟨fault, hfault⟩ := hfeed
    exact ⟨fault, by rw [hfault]; rfl⟩
  | some e =>
    rw [he] at hfeed
    obtain ⟨hown, hnamed⟩ := declarations_of_elementOf? he
    -- inside, what the tag declares comes before the context of the element
    have hinner : (b.openElement place e).context
        = declared attributes :: ctx := by
      rw [← hown, ← hctx]
      rfl
    obtain ⟨r', g, hadds, hstop, hf⟩ := hf (b.openElement place e)
    have hadds := hadds rfl hinner
    rw [show b.feed place _ = .ok (b.openElement place e) from hfeed]
    cases inside? with
    | none =>
      obtain ⟨fault, rfl⟩ := hadds
      exact ⟨fault, hf⟩
    | some xs =>
      obtain ⟨b', rfl, hgrows⟩ := hadds
      obtain ⟨last, hlast⟩ := hstop b'
      have hlast : g b' = b'.stop last name := hlast
      obtain ⟨hstopped, helement, hdata⟩ := hgrows.stop last
      rw [hnamed] at hstopped
      exact ⟨b'.current.close, b'.next, hf.trans (hlast.trans hstopped),
        helement, hdata⟩

/-- An element that is closed in its start tag, as it is if its contents are
nothing. -/
theorem leads_hollow {inside? : Option (List Datum)}
    (hinside : Leads Stops [] (Adds (declared attributes :: ctx) inside?)) :
    Leads Anything ('<' :: (tagChars name attributes ++ ['/', '>']))
      (Pushes ctx (elementDatum? ctx name attributes inside?)) := by
  refine (leads_empty hname hnames).mono fun b r ⟨place, hr⟩ hroot hctx => ?_
  have hr : r = b.feed place (.start (tagChars name attributes) true) := hr
  have hfeed := feed_start hname hnames hnodup hroot hctx place true
  rw [hr]
  unfold elementDatum?
  cases he : elementOf? ctx name attributes with
  | none =>
    rw [he] at hfeed
    exact hfeed
  | some e =>
    rw [he] at hfeed
    have hinner : (b.openElement place e).context
        = declared attributes :: ctx := by
      rw [← (declarations_of_elementOf? he).1, ← hctx]
      rfl
    -- nothing is read from no contents, so they have no data
    obtain ⟨placed, hplaced, hadds⟩ := hinside 0 [] nofun
    have hnone : placed = [] := by
      have hevents := congrArg Scan.events hplaced
      have hscan : (scanFrom 0 []).events = [] := by rw [scanFrom]
      have hevents : (scanFrom 0 []).events
          = placed ++ (scanFrom 0 []).events := hevents
      rw [hscan, List.append_nil] at hevents
      exact hevents.symm
    have hadds := hadds [] (b.openElement place e) rfl hinner
    rw [hnone] at hadds
    cases inside? with
    | none =>
      obtain ⟨fault, hfault⟩ := hadds
      cases hfault
    | some xs =>
      obtain ⟨b', hb', hgrows⟩ := hadds
      cases hb'
      have hnothing : joinData [] = joinData xs := hgrows.data.joinData_eq
      refine ⟨_, _, hfeed, rfl, ?_⟩
      show [Datum.element e (joinData [])] = _
      rw [hnothing]

end

end Stencil.Markup
