/-
What is written of pieces is read back as their data.

The data of pieces in a context is what a reader makes of them there: every
element gets the namespaces that its names have by the declarations around it,
if they have any, and a document type leaves a line feed behind it. The text
of pieces leads to this data (`leads_forest`), and the text of a document with
one root element is parsed into it, or not at all if a qualifier stands for
nothing.
-/
import Stencil.Output.Forest
import Stencil.Proofs.Markup.Scanning

namespace Stencil.Output

open Markup (Context Datum SameData Leads Stops Anything Adds Pushes Idle Feeds
  isXmlName elementOf? elementDatum? declared joinData tagChars attributeChars
  sectionStart sectionEnd sectionSplit doctypeWord)

-- ==================================================================== pieces

mutual

/-- A piece that can be read: its names are names of XML, no element has two
attributes of one name, and no identifier holds a quote. -/
def Piece.Legible : Piece → Prop
  | .element name attributes children =>
    isXmlName name.qualified = true
      ∧ (∀ a ∈ attributes, isXmlName a.1 = true)
      ∧ (attributes.map Prod.fst).Nodup ∧ ForestLegible children
  | .doctype name publicId systemId =>
    isXmlName name = true ∧ ∀ id ∈ publicId.toList ++ systemId.toList,
      '"' ∉ id.toList
  | .text _ => True
  | .cdata _ => True

def ForestLegible : List Piece → Prop
  | [] => True
  | p :: ps => p.Legible ∧ ForestLegible ps

end

mutual

/-- The data of a piece in a context. -/
def Piece.data? (ctx : Context) : Piece → Option (List Datum)
  | .element name attributes children =>
    (elementDatum? ctx name.qualified attributes
      (forestData? (declared attributes :: ctx) children)).map fun x => [x]
  | .text s => some [.text s]
  | .cdata s => some [.cdata s]
  | .doctype _ _ _ => some [.text "\n"]

def forestData? (ctx : Context) : List Piece → Option (List Datum)
  | [] => some []
  | p :: ps =>
    (p.data? ctx).bind fun xs => (forestData? ctx ps).map fun ys => xs ++ ys

end

theorem forestLegible_append {ps qs : List Piece} :
    ForestLegible (ps ++ qs) ↔ ForestLegible ps ∧ ForestLegible qs := by
  induction ps with
  | nil => exact ⟨fun h => ⟨trivial, h⟩, And.right⟩
  | cons p ps ih =>
    rw [List.cons_append, ForestLegible, ForestLegible, ih, and_assoc]

theorem forestData?_append (ctx : Context) (ps qs : List Piece) :
    forestData? ctx (ps ++ qs)
      = (forestData? ctx ps).bind fun xs =>
          (forestData? ctx qs).map fun ys => xs ++ ys := by
  induction ps with
  | nil =>
    show _ = (forestData? ctx qs).map id
    rw [Option.map_id]
    rfl
  | cons p ps ih =>
    rw [List.cons_append, forestData?, forestData?, ih]
    cases p.data? ctx <;> cases forestData? ctx ps <;>
      cases forestData? ctx qs <;> simp

-- ===================================================================== text

theorem runText_all (run : String) :
    runText .all run = Markup.escapeText run := rfl

theorem escapeText_append (s t : String) :
    Markup.escapeText (s ++ t) = Markup.escapeText s ++ Markup.escapeText t := by
  unfold Markup.escapeText
  rw [String.toList_append, List.flatMap_append, String.ofList_append]

/-- The front of a run can be written by itself. -/
theorem forestXml_append (s run : String) (ps : List Piece) :
    forestXml .all (s ++ run) ps
      = Markup.escapeText s ++ forestXml .all run ps := by
  induction ps generalizing run with
  | nil => exact escapeText_append s run
  | cons p ps ih =>
    cases p with
    | text t =>
      rw [forestXml, forestXml, String.append_assoc, ih]
    | _ =>
      show runText .all (s ++ run) ++ _ ++ _
        = Markup.escapeText s ++ (runText .all run ++ _ ++ _)
      rw [runText_all, runText_all, escapeText_append]
      simp only [String.append_assoc]

theorem toList_escapeText (s : String) : (Markup.escapeText s).toList
    = s.toList.flatMap Markup.escapeTextChar := String.toList_ofList

theorem toList_attribute (k v : String) :
    (" " ++ k ++ "=\"" ++ Markup.escape v ++ "\"").toList
      = attributeChars (k, v) := by
  simp [attributeChars, Markup.escape]

theorem toList_startTag (name : String) (attributes : List (String × String)) :
    (Writer.startTag name attributes).toList
      = '<' :: tagChars name attributes := by
  unfold tagChars
  have hall : (String.join (attributes.map fun a =>
      " " ++ a.1 ++ "=\"" ++ Markup.escape a.2 ++ "\"")).toList
      = attributes.flatMap attributeChars := by
    induction attributes with
    | nil => rfl
    | cons a as ih =>
      rw [List.map_cons, String.join_cons, String.toList_append, ih,
        List.flatMap_cons, toList_attribute]
  show ("<" ++ name ++ String.join (attributes.map fun a =>
    " " ++ a.1 ++ "=\"" ++ Markup.escape a.2 ++ "\"")).toList = _
  rw [String.toList_append, String.toList_append, hall]
  rfl

theorem toList_cdataSection (data : String) :
    (Writer.cdataSection data).toList
      = sectionStart
        ++ Text.replaceAll sectionEnd sectionSplit data.toList ++ sectionEnd := by
  unfold Writer.cdataSection
  rw [String.toList_append, String.toList_append]
  exact congrArg (fun s => sectionStart ++ s ++ sectionEnd)
    String.toList_ofList

/-- An element with contents, as it is written. -/
theorem toList_element {contents : String} (h : contents ≠ "") (name : String)
    (attributes : List (String × String)) :
    (Writer.startTag name attributes
        ++ (if contents.isEmpty then "/>"
          else ">" ++ contents ++ "</" ++ name ++ ">")).toList
      = '<' :: (tagChars name attributes ++ ['>'])
        ++ (contents.toList ++ '<' :: '/' :: (name.toList ++ ['>'])) := by
  have hempty : ¬ contents.isEmpty = true := fun he => h (String.isEmpty_iff.1 he)
  rw [if_neg hempty, String.toList_append, toList_startTag]
  simp

/-- An element without contents, as it is written. -/
theorem toList_hollow (name : String) (attributes : List (String × String)) :
    (Writer.startTag name attributes
        ++ (if "".isEmpty then "/>"
          else ">" ++ "" ++ "</" ++ name ++ ">")).toList
      = '<' :: (tagChars name attributes ++ ['/', '>']) := by
  rw [if_pos (by decide), String.toList_append, toList_startTag]
  rfl

/-- An element begins with markup. -/
theorem toList_xml_element (name : ElementName)
    (attributes : List (String × String)) (children : List Piece) :
    ∃ u, (Piece.xml .all (.element name attributes children)).toList
      = '<' :: u := by
  rw [Piece.xml, String.toList_append, toList_startTag]
  exact ⟨_, rfl⟩

-- ============================================================ document types

/-- The identifiers of a document type do not close it. -/
theorem passes_externalId {publicId systemId : Option String}
    (h : ∀ id ∈ publicId.toList ++ systemId.toList, '"' ∉ id.toList) :
    Markup.Passes Markup.doctypeLength
      (Writer.externalId publicId systemId).toList := by
  -- a quoted identifier is passed whole, as it has no such mark inside
  have hquoted (id : String) (hmem : id ∈ publicId.toList ++ systemId.toList)
      {word : List Char}
      (hword : ∀ c ∈ word, c ≠ '>' ∧ c ≠ '[' ∧ c ≠ '"' ∧ c ≠ '\'') :
      Markup.Passes Markup.doctypeLength (word ++ '"' :: (id.toList ++ ['"'])) :=
    (Markup.closer_doctype.passes_plain hword).append
      (Markup.closer_doctype.passes_quoted (h id hmem))
  have hpublic : ∀ c ∈ " PUBLIC ".toList,
      c ≠ '>' ∧ c ≠ '[' ∧ c ≠ '"' ∧ c ≠ '\'' := by simp
  have hsystem : ∀ c ∈ " SYSTEM ".toList,
      c ≠ '>' ∧ c ≠ '[' ∧ c ≠ '"' ∧ c ≠ '\'' := by simp
  have hspace : ∀ c ∈ [' '],
      c ≠ '>' ∧ c ≠ '[' ∧ c ≠ '"' ∧ c ≠ '\'' := by simp
  cases publicId with
  | none =>
    cases systemId with
    | none => exact Markup.passes_nil
    | some s =>
      have hs := hquoted s (by simp) hsystem
      have htext : (Writer.externalId none (some s)).toList
          = " SYSTEM ".toList ++ '"' :: (s.toList ++ ['"']) := by
        simp [Writer.externalId]
      rw [htext]
      exact hs
  | some p =>
    have hp := hquoted p (by simp) hpublic
    cases systemId with
    | none =>
      have htext : (Writer.externalId (some p) none).toList
          = " PUBLIC ".toList ++ '"' :: (p.toList ++ ['"']) := by
        simp [Writer.externalId]
      rw [htext]
      exact hp
    | some s =>
      have hs := hquoted s (by simp) hspace
      have htext : (Writer.externalId (some p) (some s)).toList
          = (" PUBLIC ".toList ++ '"' :: (p.toList ++ ['"']))
            ++ ([' '] ++ '"' :: (s.toList ++ ['"'])) := by
        simp [Writer.externalId]
      rw [htext]
      exact hp.append hs

/-- The declaration of a document type. -/
def doctypeChars (name : String) (publicId systemId : Option String) :
    List Char :=
  '<' :: '!' :: (doctypeWord ++ ' ' :: (name.toList
    ++ (Writer.externalId publicId systemId).toList) ++ ['>'])

/-- A document type is written as its declaration, and its line feed begins
the run of character data behind it. -/
theorem toList_forestXml_doctype (run name : String)
    (publicId systemId : Option String) (ps : List Piece) :
    (forestXml .all run (.doctype name publicId systemId :: ps)).toList
      = (Markup.escapeText run).toList
        ++ doctypeChars name publicId systemId
        ++ (forestXml .all "\n" ps).toList := by
  have hfeed : forestXml .all "\n" ps = "\n" ++ forestXml .all "" ps :=
    forestXml_append "\n" "" ps
  have hdoctype : (Piece.xml .all (.doctype name publicId systemId)).toList
      = doctypeChars name publicId systemId ++ "\n".toList := by
    simp [Piece.xml, doctypeChars, doctypeWord]
  show (runText .all run ++ Piece.xml .all (.doctype name publicId systemId)
    ++ forestXml .all "" ps).toList = _
  rw [String.toList_append, String.toList_append, hdoctype, hfeed,
    String.toList_append, runText_all]
  simp only [List.append_assoc]

-- ================================================================== forests

/-- An element is read back if its contents are. -/
theorem leads_element (ctx : Context) {name : ElementName}
    {attributes : List (String × String)} {children : List Piece}
    (h : (Piece.element name attributes children).Legible)
    (hinside : Leads Stops (forestXml .all "" children).toList
      (Adds (declared attributes :: ctx)
        ((forestData? (declared attributes :: ctx) children).map
          fun xs => .text "" :: xs))) :
    Leads Anything (Piece.xml .all (.element name attributes children)).toList
      (Markup.Pushes ctx (elementDatum? ctx name.qualified attributes
        (forestData? (declared attributes :: ctx) children))) := by
  obtain ⟨hname, hnames, hnodup, -⟩ := h
  have hnothing (xs? : Option (List Datum)) :
      elementDatum? ctx name.qualified attributes
        (xs?.map fun xs => .text "" :: xs)
      = elementDatum? ctx name.qualified attributes xs? := by
    cases xs? <;> rfl
  rw [Piece.xml, ← hnothing]
  by_cases hcontents : forestXml .all "" children = ""
  · rw [hcontents] at hinside ⊢
    rw [toList_hollow]
    exact Markup.leads_hollow hname hnames hnodup hinside
  · rw [toList_element hcontents]
    exact Markup.leads_element hname hnames hnodup hinside

/-- A piece between a run of character data and other pieces. -/
theorem leads_behind_run {ctx : Context} (run : String) {p : List Char}
    {rest : List Char} {xs? ys? : Option (List Datum)}
    (hp : Leads Anything p (Adds ctx xs?)) (hhead : p.head? = some '<')
    (hrest : Leads Stops rest (Adds ctx (ys?.map fun ys => .text "" :: ys))) :
    Leads Stops ((Markup.escapeText run).toList ++ p ++ rest)
      (Adds ctx ((xs?.bind fun xs => ys?.map fun ys => xs ++ ys).map
        fun zs => .text run :: zs)) := by
  have hrun := Markup.leads_text ctx run.toList
  rw [String.ofList_toList, ← toList_escapeText] at hrun
  have hbehind := hp.append hrest (fun _ _ => trivial)
    fun b r f (hr : Adds ctx xs? b r) hf => hr.bind hf
  have hall := hrun.append hbehind
    (fun more _ => by
      obtain ⟨u, rfl⟩ := List.head?_eq_some_iff.1 hhead
      exact Markup.stops_cons (by decide) _)
    fun b r f hr hf => hr.bind hf
  rw [List.append_assoc]
  refine hall.mono fun b r h => h.congr ?_
  cases xs? with
  | none => exact .none
  | some xs =>
    cases ys? with
    | none => exact .none
    | some ys =>
      refine .some ?_
      -- a text that is empty makes no difference between data
      show SameData ([.text run] ++ (xs ++ ([.text ""] ++ ys)))
        ([.text run] ++ (xs ++ ([] ++ ys)))
      exact .append (.refl _) (.append (.refl _)
        (.append Markup.sameData_nothing (.refl _)))

mutual

/-- Elements and sections are read back. -/
theorem leads_piece (ctx : Context) : ∀ p : Piece, p.Legible →
    (∀ s, p ≠ .text s) → (∀ name p' s', p ≠ .doctype name p' s') →
    Leads Anything (p.xml .all).toList (Adds ctx (p.data? ctx))
      ∧ (p.xml .all).toList.head? = some '<'
  | .element name attributes children, h, _, _ => by
    have hinside := leads_forest (declared attributes :: ctx) "" children h.2.2.2
    refine ⟨(leads_element ctx h hinside).mono fun b r hr => hr.adds, ?_⟩
    obtain ⟨u, hu⟩ := toList_xml_element name attributes children
    rw [hu]
    rfl
  | .cdata s, _, _, _ => by
    rw [Piece.xml, toList_cdataSection]
    have h := Markup.leads_sections ctx s.toList
    rw [String.ofList_toList] at h
    exact ⟨h, rfl⟩
  | .text s, _, h, _ => absurd rfl (h s)
  | .doctype name p s, _, _, h => absurd rfl (h name p s)
termination_by structural p => p

/-- Pieces behind a run of character data are read back. -/
theorem leads_forest (ctx : Context) (run : String) :
    ∀ ps, ForestLegible ps →
      Leads Stops (forestXml .all run ps).toList
        (Adds ctx ((forestData? ctx ps).map fun xs => .text run :: xs))
  | [], _ => by
    rw [forestXml, runText_all, toList_escapeText]
    have h := Markup.leads_text ctx run.toList
    rw [String.ofList_toList] at h
    exact h
  | p :: ps, ⟨hp, hps⟩ => by
    have other (htext : ∀ s, p ≠ .text s)
        (hdoctype : ∀ name p' s', p ≠ .doctype name p' s') :
        Leads Stops (runText .all run ++ p.xml .all
            ++ forestXml .all "" ps).toList
          (Adds ctx ((forestData? ctx (p :: ps)).map
            fun xs => .text run :: xs)) := by
      obtain ⟨hpiece, hhead⟩ := leads_piece ctx p hp htext hdoctype
      rw [String.toList_append, String.toList_append]
      exact leads_behind_run run hpiece hhead (leads_forest ctx "" ps hps)
    cases p with
    | text s =>
      refine (leads_forest ctx (run ++ s) ps hps).mono fun b r h => h.congr ?_
      rw [forestData?]
      cases forestData? ctx ps with
      | none => exact .none
      | some xs =>
        exact .some (.append (Markup.sameData_texts run s).symm (.refl xs))
    | element name attributes children => exact other nofun nofun
    | cdata s => exact other nofun nofun
    | doctype name publicId systemId =>
      have hdoctype := (Markup.leads_doctype hp.1 (passes_externalId hp.2)).mono
        (R := Adds ctx (some [])) fun b r ⟨_, hr⟩ _ _ => ⟨b, hr, .refl b⟩
      -- its line feed is read as the front of the run behind it
      have hrest := (leads_forest ctx "\n" ps hps).mono
        (R := Adds ctx (((forestData? ctx ps).map fun xs => .text "\n" :: xs).map
          fun xs => .text "" :: xs)) fun b r h => h.congr <| by
            cases forestData? ctx ps with
            | none => exact .none
            | some xs => exact .some (.append Markup.sameData_nothing.symm (.refl _))
      have hall := leads_behind_run run hdoctype rfl hrest
      rw [toList_forestXml_doctype]
      refine hall.mono fun b r h => h.congr ?_
      rw [forestData?, Piece.data?]
      cases forestData? ctx ps with
      | none => exact .none
      | some xs => exact .some (.refl _)
termination_by structural ps => ps

end

-- =============================================================== documents

/-- What may stand beside the root element: white space and document types. -/
def Piece.Outside : Piece → Prop
  | .text s => Text.allBlank s = true
  | .doctype _ _ _ => True
  | _ => False

/-- Outside all elements there is one more child, which is an element, or the
events are refused. -/
def Roots (datum? : Option Datum) : Markup.Reaction := fun b r =>
  b.atTop = true → Markup.Pushes [[]] datum? b r

theorem leads_idle_run {run : String} (h : Text.allBlank run = true) :
    Leads Stops (Markup.escapeText run).toList Idle := by
  rw [toList_escapeText]
  exact Markup.leads_blank h

theorem leads_idle_doctype {name : String} {publicId systemId : Option String}
    (h : (Piece.doctype name publicId systemId).Legible) :
    Leads Anything (doctypeChars name publicId systemId) Idle :=
  (Markup.leads_doctype h.1 (passes_externalId h.2)).mono
    fun _ _ ⟨_, hr⟩ _ => hr

theorem roots_before {datum? : Option Datum} {b : Markup.Builder}
    {r : Except Markup.Error Markup.Builder}
    {f : Markup.Builder → Except Markup.Error Markup.Builder}
    (hr : Markup.Pushes [[]] datum? b r) (hf : ∀ b', Idle b' (f b')) :
    Roots datum? b (r >>= f) := by
  intro htop hnone hctx
  have hr := hr hnone hctx
  cases datum? with
  | none =>
    obtain ⟨fault, rfl⟩ := hr
    exact ⟨fault, rfl⟩
  | some x =>
    obtain ⟨t, next, rfl, ht⟩ := hr
    exact ⟨t, next, hf _ htop, ht⟩

theorem roots_behind {datum? : Option Datum} {b : Markup.Builder}
    {r : Except Markup.Error Markup.Builder}
    {f : Markup.Builder → Except Markup.Error Markup.Builder}
    (hr : Idle b r) (hf : ∀ b', Roots datum? b' (f b')) :
    Roots datum? b (r >>= f) := by
  intro htop
  rw [hr htop]
  exact hf b htop

theorem idle_behind {b : Markup.Builder}
    {r : Except Markup.Error Markup.Builder}
    {f : Markup.Builder → Except Markup.Error Markup.Builder}
    (hr : Idle b r) (hf : ∀ b', Idle b' (f b')) : Idle b (r >>= f) := by
  intro htop
  rw [hr htop]
  exact hf b htop

theorem allBlank_append {s t : String} (hs : Text.allBlank s = true)
    (ht : Text.allBlank t = true) : Text.allBlank (s ++ t) = true := by
  unfold Text.allBlank at hs ht ⊢
  rw [String.toList_append, List.all_append, hs, ht]
  rfl

theorem allBlank_nothing : Text.allBlank "" = true := by decide

theorem allBlank_feed : Text.allBlank "\n" = true := by decide

/-- What stands beside the root element is passed over. -/
theorem leads_outside {run : String} (hrun : Text.allBlank run = true)
    {ps : List Piece} (hps : ForestLegible ps) (hout : ∀ p ∈ ps, p.Outside) :
    Leads Stops (forestXml .all run ps).toList Idle := by
  induction ps generalizing run with
  | nil => exact leads_idle_run hrun
  | cons p ps ih =>
    obtain ⟨hp, hps⟩ := hps
    obtain ⟨hpout, hrest⟩ := List.forall_mem_cons.1 hout
    cases p with
    | text s => exact ih (allBlank_append hrun hpout) hps hrest
    | doctype name publicId systemId =>
      have hbehind := (leads_idle_doctype hp).append
        (ih allBlank_feed hps hrest) (fun _ _ => trivial)
        fun _ _ _ => idle_behind
      rw [toList_forestXml_doctype, List.append_assoc]
      exact (leads_idle_run hrun).append hbehind
        (fun _ _ => Markup.stops_cons (by decide) _) fun _ _ _ => idle_behind
    | element name attributes children => exact hpout.elim
    | cdata s => exact hpout.elim

/-- The root element is read back, among what stands beside it. -/
theorem leads_rooted {run : String} (hrun : Text.allBlank run = true)
    {before after : List Piece} {name : ElementName}
    {attributes : List (String × String)} {children : List Piece}
    (hlegible : ForestLegible
      (before ++ .element name attributes children :: after))
    (hout : ∀ p ∈ before ++ after, p.Outside) :
    Leads Stops (forestXml .all run
        (before ++ .element name attributes children :: after)).toList
      (Roots (elementDatum? [[]] name.qualified attributes
        (forestData? [declared attributes, []] children))) := by
  induction before generalizing run with
  | nil =>
    obtain ⟨hroot, hafter⟩ := hlegible
    have hinside := leads_forest [declared attributes, []] "" children
      hroot.2.2.2
    have hbehind := (leads_element [[]] hroot hinside).append
      (leads_outside allBlank_nothing hafter hout) (fun _ _ => trivial)
      fun _ _ _ => roots_before
    -- an element begins with a mark, at which the white space ends
    have hhead : ∀ rest, Stops ((Piece.xml .all
        (.element name attributes children)).toList
          ++ (forestXml .all "" after).toList ++ rest) := by
      intro rest
      obtain ⟨u, hu⟩ := toList_xml_element name attributes children
      rw [hu]
      exact Markup.stops_cons (by decide) _
    have hall := (leads_idle_run hrun).append hbehind (fun rest _ => hhead rest)
      fun _ _ _ => roots_behind
    have htext : (forestXml .all run
          (.element name attributes children :: after)).toList
        = (Markup.escapeText run).toList
          ++ ((Piece.xml .all (.element name attributes children)).toList
            ++ (forestXml .all "" after).toList) := by
      rw [← String.toList_append, ← String.toList_append, ← String.append_assoc]
      rfl
    rw [List.nil_append, htext]
    exact hall
  | cons p before ih =>
    obtain ⟨hp, hlegible⟩ := hlegible
    obtain ⟨hpout, hrest⟩ := List.forall_mem_cons.1 hout
    cases p with
    | text s => exact ih (allBlank_append hrun hpout) hlegible hrest
    | doctype name publicId systemId =>
      have hbehind := (leads_idle_doctype hp).append
        (ih allBlank_feed hlegible hrest) (fun _ _ => trivial)
        fun _ _ _ => roots_behind
      rw [List.cons_append, toList_forestXml_doctype, List.append_assoc]
      exact (leads_idle_run hrun).append hbehind
        (fun _ _ => Markup.stops_cons (by decide) _) fun _ _ _ => roots_behind
    | element name attributes children => exact hpout.elim
    | cdata s => exact hpout.elim

/-- What is written around and before a root element begins with white space or
with markup. -/
theorem head_rooted {run : String} (hrun : Text.allBlank run = true)
    {before after : List Piece} {name : ElementName}
    {attributes : List (String × String)} {children : List Piece}
    (hout : ∀ p ∈ before, p.Outside) :
    ∃ blank rest, blank.all Text.isBlank = true
      ∧ (forestXml .all run
          (before ++ .element name attributes children :: after)).toList
        = blank ++ '<' :: rest := by
  induction before generalizing run with
  | nil =>
    obtain ⟨u, hu⟩ := toList_xml_element name attributes children
    refine ⟨run.toList, u ++ (forestXml .all "" after).toList, hrun, ?_⟩
    show (runText .all run ++ Piece.xml .all (.element name attributes children)
      ++ forestXml .all "" after).toList = _
    rw [String.toList_append, String.toList_append, runText_all,
      toList_escapeText, Markup.flatMap_escapeTextChar_blank hrun, hu,
      List.append_assoc]
    rfl
  | cons p before ih =>
    obtain ⟨hpout, hrest⟩ := List.forall_mem_cons.1 hout
    cases p with
    | text s => exact ih (allBlank_append hrun hpout) hrest
    | doctype name publicId systemId =>
      rw [List.cons_append, toList_forestXml_doctype, toList_escapeText,
        Markup.flatMap_escapeTextChar_blank hrun, List.append_assoc]
      exact ⟨run.toList, _, hrun, rfl⟩
    | element name attributes children => exact hpout.elim
    | cdata s => exact hpout.elim

theorem withoutMark_of_head {blank : List Char}
    (h : blank.all Text.isBlank = true) (rest : List Char) :
    Markup.withoutMark (blank ++ '<' :: rest) = blank ++ '<' :: rest := by
  have hne {c : Char} (hc : c ≠ '\ufeff') (s : List Char) :
      Markup.withoutMark (c :: s) = c :: s := if_neg hc
  cases blank with
  | nil => exact hne (by decide) rest
  | cons c blank =>
    refine hne ?_ (blank ++ '<' :: rest)
    rintro rfl
    exact absurd (Bool.and_eq_true_iff.1 h).1 (by decide)

/-- A text that leads to one root element is parsed into the data of this, or
refused. -/
theorem parse_of_roots {source blank rest : List Char} {datum? : Option Datum}
    (hblank : blank.all Text.isBlank = true)
    (htext : source = blank ++ '<' :: rest) :
    Leads Stops source (Roots datum?) →
      match datum? with
      | some x => ∃ t, Markup.Tree.parse source = .ok t ∧ t.data = [x]
      | none => ∃ e, Markup.Tree.parse source = .error e := by
  intro hleads
  obtain ⟨placed, hscan, hrun⟩ := hleads 0 [] nofun
  -- behind white space there is no byte order mark to be left out
  have hscanned : Markup.scan source = ⟨placed, none⟩ := by
    rw [List.append_nil] at hscan
    unfold Markup.scan
    rw [htext, withoutMark_of_head hblank, ← htext, hscan, Markup.scanFrom]
    unfold Markup.Scan.behind
    rw [List.append_nil]
  have hroots := hrun (Markup.lineStarts source) Markup.Builder.start rfl rfl rfl
  unfold Markup.Tree.parse
  dsimp only
  rw [hscanned]
  cases datum? with
  | none =>
    obtain ⟨fault, hfault⟩ := hroots
    exact ⟨fault, by rw [hfault]; rfl⟩
  | some x =>
    obtain ⟨t, next, hbuilt, helement, hdata⟩ := hroots
    refine ⟨.node ⟨0, ⟨1, 1⟩, .document⟩ [t], ?_, ?_⟩
    · rw [hbuilt]
      have hroot : Markup.Builder.hasRoot
          ⟨Markup.Builder.start.current.push t, [], next⟩ = true := by
        show ([t].any Markup.Tree.isElement) = true
        rw [List.any_cons, helement]
        rfl
      show (if Markup.Builder.hasRoot
        ⟨Markup.Builder.start.current.push t, [], next⟩ then _ else _) = _
      rw [if_pos hroot]
      rfl
    · show t.data ++ [] = [x]
      rw [List.append_nil, hdata]

/-- A declaration is written with a line feed, which begins the run of
character data behind it. -/
theorem toList_declared (ps : List Piece) :
    (documentXml .all true ps).toList
      = '<' :: '?' :: (Markup.declarationBody ++ ['?', '>'])
        ++ (forestXml .all "\n" ps).toList := by
  have htext : (documentXml .all true ps).toList
      = Writer.xmlDeclaration.toList ++ (forestXml .all "" ps).toList :=
    String.toList_append
  have hdeclaration : Writer.xmlDeclaration.toList
      = '<' :: '?' :: (Markup.declarationBody ++ ['?', '>']) ++ "\n".toList := by
    decide
  have hfeed : forestXml .all "\n" ps = "\n" ++ forestXml .all "" ps :=
    forestXml_append "\n" "" ps
  rw [htext, hdeclaration, hfeed, String.toList_append, List.append_assoc]

/-- The text of a document with one root element, among white space and
document types, is parsed into the data of the root element, or refused if a
qualifier in it stands for nothing. -/
theorem parse_document (declaration : Bool) (before after : List Piece)
    {name : ElementName} {attributes : List (String × String)}
    {children : List Piece}
    (hlegible : ForestLegible
      (before ++ .element name attributes children :: after))
    (hout : ∀ p ∈ before ++ after, p.Outside) :
    match elementDatum? [[]] name.qualified attributes
        (forestData? [declared attributes, []] children) with
    | some x => ∃ t, Markup.Tree.parse (documentXml .all declaration
        (before ++ .element name attributes children :: after)).toList = .ok t
          ∧ t.data = [x]
    | none => ∃ e, Markup.Tree.parse (documentXml .all declaration
        (before ++ .element name attributes children :: after)).toList
          = .error e := by
  have hbefore : ∀ p ∈ before, p.Outside :=
    fun p hp => hout p (List.mem_append_left _ hp)
  cases declaration with
  | false =>
    obtain ⟨blank, rest, hblank, htext⟩ := head_rooted allBlank_nothing hbefore
    exact parse_of_roots hblank htext
      (leads_rooted allBlank_nothing hlegible hout)
  | true =>
    -- the declaration leaves no mark, and is passed over before the root
    have hdeclaration : Leads Anything _ Idle :=
      Markup.leads_declaration.mono fun _ _ ⟨_, hr⟩ _ => hr
    have hleads := hdeclaration.append
      (leads_rooted allBlank_feed hlegible hout)
      (fun _ _ => trivial) fun _ _ _ => roots_behind
    have hblank : ([] : List Char).all Text.isBlank = true := rfl
    rw [toList_declared]
    exact parse_of_roots hblank rfl hleads

end Stencil.Output
