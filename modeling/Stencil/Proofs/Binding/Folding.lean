/-
Entries of properties over lines.

Written out, entries may stand among blank lines and comments, be indented, and go
on over several lines (`Arranged`). Joining undoes this: no token but a pair of
backslashes ends in a backslash, so a line goes on in the next exactly where an entry
was folded (`continues_token`), and no line of an entry begins with white space of
its own, nor the first one with the mark of a comment (`Begun`).
-/
import Stencil.Proofs.Binding.Escaping
import Stencil.Proofs.Expr.Reading

namespace Stencil.Text

variable {r s t : List Char}

/-- A line break: a line feed, maybe with a carriage return before it. -/
def breaks : List (List Char) := [['\n'], ['\r', '\n']]

theorem mem_breaks : s ∈ breaks ↔ s = ['\n'] ∨ s = ['\r', '\n'] := by
  simp [breaks]

/-- The end of a line and what comes after it: a line break, or nothing. -/
inductive Ends : List Char → List Char → Prop
  | broken {brk : List Char} (h : brk ∈ breaks) (s : List Char) : Ends (brk ++ s) s
  | text : Ends [] []

/-- Neither character of a line's end is in it. -/
def OneLine (s : List Char) : Prop := '\n' ∉ s ∧ '\r' ∉ s

theorem OneLine.append (hs : OneLine s) (ht : OneLine t) : OneLine (s ++ t) :=
  ⟨by simp [hs.1, ht.1], by simp [hs.2, ht.2]⟩

theorem linesFrom_append (hs : '\n' ∉ s) (line t : List Char) :
    linesFrom line (s ++ t) = linesFrom (line ++ s) t := by
  induction s generalizing line with
  | nil => rw [List.nil_append, List.append_nil]
  | cons c s ih =>
    obtain ⟨hc, hs⟩ := not_or.1 fun hor => hs (List.mem_cons.2 hor)
    rw [List.cons_append, linesFrom, if_neg (Ne.symm hc), ih hs, List.append_assoc,
      List.singleton_append]

theorem lines_feed (hs : '\n' ∉ s) (t : List Char) :
    lines (s ++ '\n' :: t) = endLine s :: lines t := by
  rw [lines, linesFrom_append hs, linesFrom, if_pos rfl, List.nil_append]
  rfl

/-- A line feed takes at most a carriage return from the line. -/
theorem endLine_eq (s : List Char) : endLine s = s ∨ endLine s ++ ['\r'] = s := by
  unfold endLine
  split
  · next h => exact .inr (List.dropLast_append_getLast? _ h)
  · exact .inl rfl

/-- A line is read as it stands, perhaps without a carriage return at its end; but an
empty one with nothing after it is none. -/
theorem lines_ends (hs : '\n' ∉ s) (hne : s ++ r ≠ []) (h : Ends r t) :
    ∃ line, (line = s ∨ line ++ ['\r'] = s) ∧ lines (s ++ r) = line :: lines t := by
  cases h with
  | broken h =>
    rcases mem_breaks.1 h with rfl | rfl
    · exact ⟨endLine s, endLine_eq s, lines_feed hs t⟩
    · have hs' : '\n' ∉ s ++ ['\r'] := by simpa using hs
      refine ⟨s, .inl rfl, ?_⟩
      rw [List.cons_append, List.append_cons, List.singleton_append, lines_feed hs',
        endLine, List.getLast?_concat, if_pos rfl, List.dropLast_concat]
  | text =>
    refine ⟨s, .inl rfl, ?_⟩
    have hempty : ¬ s.isEmpty := by simpa using hne
    rw [lines, linesFrom_append hs, linesFrom, List.nil_append, if_neg hempty]
    rfl

/-- A line without carriage returns is read as it stands. -/
theorem lines_plain (hs : OneLine s) (hne : s ++ r ≠ []) (h : Ends r t) :
    lines (s ++ r) = s :: lines t := by
  obtain ⟨line, rfl | rfl, hlines⟩ := lines_ends hs.1 hne h
  · exact hlines
  · exact absurd (List.mem_append_right _ List.mem_cons_self) hs.2

end Stencil.Text

namespace Stencil.Binding.Properties

open Stencil.Expr (enterAll_of_nodup)
open Stencil.Text (breaks mem_breaks lines OneLine Ends lines_ends lines_plain)

variable {cs gap line p r s t text : List Char} {ts : List (List Char)}
  {pending : Option (List Char)} {c mark : Char} {e : String × String}
  {es : List (String × String)}

/-- White space only. -/
def Gap (s : List Char) : Prop := ∀ c ∈ s, isGap c = true

instance (s : List Char) : Decidable (Gap s) :=
  decidable_of_iff (s.all isGap = true) List.all_eq_true

/-- What comes behind the first token of an entry: the other tokens, before each of
which the entry may go on in a new line, unless the token begins with a space. -/
inductive Folded : List (List Char) → List Char → Prop
  | nothing : Folded [] []
  | next {ts : List (List Char)} {s : List Char} (t : List Char)
      (h : Folded ts s) : Folded (t :: ts) (t ++ s)
  | fold {brk gap s t : List Char} {ts : List (List Char)} (hbrk : brk ∈ breaks)
      (hgap : Gap gap) (ht : t.head? ≠ some ' ') (h : Folded ts s) :
      Folded (t :: ts) ('\\' :: (brk ++ (gap ++ (t ++ s))))

/-- The entries, each in its tokens, perhaps folded and indented, among blank lines
and comments. -/
inductive Arranged : List (String × String) → List Char → Prop
  | nothing : Arranged [] []
  | blank {gap r s : List Char} {es : List (String × String)} (hgap : Gap gap)
      (hend : Ends r s) (h : Arranged es s) : Arranged es (gap ++ r)
  | comment {gap text r s : List Char} {mark : Char} {es : List (String × String)}
      (hgap : Gap gap) (hmark : mark = '#' ∨ mark = '!') (htext : '\n' ∉ text)
      (hend : Ends r s) (h : Arranged es s) :
      Arranged es (gap ++ (mark :: (text ++ r)))
  | entry {gap t line r s : List Char} {ts : List (List Char)}
      {e : String × String} {es : List (String × String)} (hgap : Gap gap)
      (htokens : tokens e = t :: ts) (hline : Folded ts line) (hend : Ends r s)
      (h : Arranged es s) : Arranged (e :: es) (gap ++ (t ++ (line ++ r)))

-- ================================================================= tokens

theorem continues_concat (s : List Char) (c : Char) :
    continues (s ++ [c]) = (c = '\\' && !continues s) := by
  unfold continues
  rw [List.reverse_concat, List.takeWhile_cons]
  by_cases hc : c = '\\'
  · simp only [hc, decide_true, if_true, List.length_cons, Bool.true_and]
    rw [← decide_not, decide_eq_decide]
    omega
  · simp [hc]

/-- After a whole token a line does not go on. -/
theorem continues_token (h : Token specials t c) (hp : continues p = false) :
    continues (p ++ t) = false := by
  cases h with
  | plain hc =>
    rw [continues_concat]
    simp_all [specials]
  | escaped hc hd =>
    rw [List.append_cons, continues_concat, continues_concat, hp]
    simp

theorem gap_oneLine (h : Gap s) : OneLine s :=
  ⟨fun hmem => absurd (h _ hmem) (by decide),
    fun hmem => absurd (h _ hmem) (by decide)⟩

theorem Token.oneLine (h : Token specials t c) : OneLine t := by
  cases h with
  | plain hc => simp_all [OneLine, specials, eq_comm]
  | escaped hc hd => simp_all [OneLine, eq_comm]

/-- The text can be the front of a line, behind its indent: it begins with neither
white space nor, unless a line is going on, the mark of a comment, and it consists of
whole tokens. -/
structure Begun (pending : Option (List Char)) (s : List Char) : Prop where
  front : ∃ c r, s = c :: r ∧ isGap c = false
    ∧ (pending = none → c ≠ '#' ∧ c ≠ '!')
  whole : continues s = false
  oneLine : OneLine s

theorem Begun.token (h : Begun pending s) (ht : Token specials t c) :
    Begun pending (s ++ t) where
  front := by
    obtain ⟨d, r, rfl, hd, hmark⟩ := h.front
    exact ⟨d, r ++ t, rfl, hd, hmark⟩
  whole := continues_token ht h.whole
  oneLine := h.oneLine.append ht.oneLine

/-- A token goes on with a line that was folded before it. -/
theorem Token.begun (ht : Token specials t c) (hspace : t.head? ≠ some ' ')
    (line : List Char) : Begun (some line) t where
  front := by
    obtain ⟨d, r, h, hd⟩ := ht.head hspace
    exact ⟨d, r, h, hd, nofun⟩
  whole := continues_token (p := []) ht rfl
  oneLine := ht.oneLine

/-- Of the marks of comments, a key begins with neither. -/
theorem escapeKeyChar_front (c : Char) : ∃ d r, escapeKeyChar true c = d :: r
    ∧ isGap d = false ∧ d ≠ '#' ∧ d ≠ '!' := by
  unfold escapeKeyChar
  split
  · exact ⟨'\\', [c], rfl, by decide⟩
  · next h =>
    simp only [Bool.true_and, Bool.or_eq_true, decide_eq_true_eq, not_or] at h
    obtain ⟨⟨⟨hspace, -⟩, -⟩, hmark⟩ := h
    have htoken := token_escapeChar c
    obtain ⟨d, r, hd, hgap⟩ := htoken.head (htoken.head_ne hspace)
    refine ⟨d, r, hd, hgap, ?_⟩
    rw [hd] at htoken
    cases htoken with
    | plain => exact hmark
    | escaped => decide

/-- The first token of an entry begins it. -/
theorem begun_tokens (htokens : tokens e = t :: ts) (ht : Token specials t c) :
    Begun none t := by
  refine ⟨?_, continues_token (p := []) ht rfl, ht.oneLine⟩
  unfold tokens at htokens
  cases hkey : e.1.toList with
  | nil =>
    rw [hkey] at htokens
    cases htokens
    exact ⟨'=', [], rfl, by decide, fun _ => by decide⟩
  | cons c s =>
    rw [hkey] at htokens
    cases htokens
    obtain ⟨d, r, hd, hgap, hmark⟩ := escapeKeyChar_front c
    exact ⟨d, r, hd, hgap, fun _ => hmark⟩

-- ================================================================= joining

theorem dropGap_begun (hgap : Gap gap) (h : Begun pending s) (t : List Char) :
    dropGap (gap ++ (s ++ t)) = s ++ t := by
  obtain ⟨c, r, rfl, hc, -⟩ := h.front
  rw [dropGap, List.dropWhile_append_of_pos hgap]
  exact dropGap_cons hc (r ++ t)

theorem not_skipped (h : Begun pending s) (t : List Char) :
    (pending.isNone && isSkipped (s ++ t)) = false := by
  obtain ⟨c, r, rfl, -, hmark⟩ := h.front
  cases pending with
  | none => simp_all [isSkipped]
  | some => rfl

theorem joinFrom_last (hgap : Gap gap) (h : Begun pending s)
    (rest : List (List Char)) : joinFrom pending ((gap ++ s) :: rest)
      = (pending.getD [] ++ s) :: joinFrom none rest := by
  have hline : dropGap (gap ++ s) = s := by simpa using dropGap_begun hgap h []
  have hskip : (pending.isNone && isSkipped s) = false := by
    simpa using not_skipped h []
  rw [joinFrom]
  simp only [hline, hskip, h.whole, Bool.false_eq_true, if_false]

theorem joinFrom_fold (hgap : Gap gap) (h : Begun pending s)
    (rest : List (List Char)) : joinFrom pending ((gap ++ (s ++ ['\\'])) :: rest)
      = joinFrom (some (pending.getD [] ++ s)) rest := by
  have hgoes : continues (s ++ ['\\']) = true := by
    rw [continues_concat, h.whole]
    rfl
  rw [joinFrom]
  simp only [dropGap_begun hgap h, not_skipped h, hgoes, Bool.false_eq_true, if_false,
    if_true, List.dropLast_concat]

/-- Lines joined give the tokens again, behind those that are in the line already.
The induction is on the tokens to come; a fold moves those before it to the line that
is going on. -/
theorem joinFrom_folded (h : Folded ts line)
    (hts : List.Forall₂ (Token specials) ts cs) (hgap : Gap gap)
    (hp : Begun pending p) (hend : Ends r s) :
    joinFrom pending (lines (gap ++ (p ++ (line ++ r))))
      = (pending.getD [] ++ (p ++ ts.flatten)) :: joinFrom none (lines s) := by
  -- what is pending grows with each token, up to the end of the line
  induction h generalizing pending p gap cs with
  | nothing =>
    have hone := (gap_oneLine hgap).append hp.oneLine
    have hne : gap ++ p ++ r ≠ [] := by
      obtain ⟨c, s, rfl, -⟩ := hp.front
      simp
    rw [List.nil_append, ← List.append_assoc, lines_plain hone hne hend,
      joinFrom_last hgap hp, List.flatten_nil, List.append_nil]
  | next t h ih =>
    obtain _ | ⟨ht, hts⟩ := hts
    have hjoin := ih hts hgap (hp.token ht)
    simpa only [List.append_assoc, List.flatten_cons] using hjoin
  | @fold brk gap' s' t ts hbrk hgap' hspace h ih =>
    obtain _ | ⟨ht, hts⟩ := hts
    -- the backslash ends this line: what is read so far stays pending
    have hone : OneLine (gap ++ (p ++ ['\\'])) :=
      (gap_oneLine hgap).append (hp.oneLine.append ⟨by decide, by decide⟩)
    have hlines := lines_plain hone (by simp) (.broken hbrk (gap' ++ (t ++ (s' ++ r))))
    have hjoin := ih hts hgap' (ht.begun hspace (pending.getD [] ++ p))
    rw [← joinFrom_fold hgap hp, ← hlines] at hjoin
    simpa only [List.append_assoc, List.cons_append, List.nil_append,
      List.flatten_cons, Option.getD_some] using hjoin

theorem joinFrom_blank (hgap : Gap gap) (hend : Ends r s) :
    joinFrom none (lines (gap ++ r)) = joinFrom none (lines s) := by
  have hskip (rest : List (List Char)) :
      joinFrom none (gap :: rest) = joinFrom none rest := by
    rw [joinFrom, dropGap, List.dropWhile_eq_nil_iff.2 hgap]
    rfl
  cases hend with
  | @broken brk hbrk =>
    have hne : gap ++ (brk ++ s) ≠ [] := by
      rcases mem_breaks.1 hbrk with rfl | rfl <;> simp
    rw [lines_plain (gap_oneLine hgap) hne (.broken hbrk s), hskip]
  | text =>
    by_cases hne : gap ++ [] = []
    · rw [hne]
    · rw [lines_plain (gap_oneLine hgap) hne .text, hskip]

/-- Behind its mark a comment may lose a carriage return, but not the mark. -/
theorem lines_comment (hgap : Gap gap) (hmark : mark = '#' ∨ mark = '!')
    (htext : '\n' ∉ text) (hend : Ends r s) :
    ∃ kept, lines (gap ++ (mark :: (text ++ r)))
      = (gap ++ mark :: kept) :: lines s := by
  have hone : '\n' ∉ gap ++ mark :: text := by
    rcases hmark with rfl | rfl <;> simp [(gap_oneLine hgap).1, htext]
  obtain ⟨line, hline, hlines⟩ := lines_ends hone (by simp) hend
  rw [List.append_assoc, List.cons_append] at hlines
  rcases hline with rfl | hline
  · exact ⟨text, hlines⟩
  · rcases List.eq_nil_or_concat text with rfl | ⟨init, last, rfl⟩
    · have hlast := (List.append_inj' hline rfl).2
      rcases hmark with rfl | rfl <;> simp at hlast
    · have hinit : line ++ ['\r'] = (gap ++ mark :: init) ++ [last] := by
        simpa using hline
      exact ⟨init, (List.append_inj' hinit rfl).1 ▸ hlines⟩

theorem joinFrom_comment (hgap : Gap gap) (hmark : mark = '#' ∨ mark = '!')
    (htext : '\n' ∉ text) (hend : Ends r s) :
    joinFrom none (lines (gap ++ (mark :: (text ++ r)))) = joinFrom none (lines s) := by
  obtain ⟨kept, hlines⟩ := lines_comment hgap hmark htext hend
  have hgap' : isGap mark = false := by rcases hmark with rfl | rfl <;> rfl
  have hline : dropGap (gap ++ mark :: kept) = mark :: kept := by
    rw [dropGap, List.dropWhile_append_of_pos hgap]
    exact dropGap_cons hgap' kept
  rw [hlines, joinFrom, hline]
  rcases hmark with rfl | rfl <;> rfl

/-- What is arranged is read as the entries, in order. -/
theorem logicalLines_arranged (h : Arranged es s) :
    (logicalLines s).map entry = es := by
  unfold logicalLines
  induction h with
  | nothing => rfl
  | blank hgap hend h ih => rw [joinFrom_blank hgap hend, ih]
  | comment hgap hmark htext hend h ih =>
    rw [joinFrom_comment hgap hmark htext hend, ih]
  | @entry gap t line r s ts e es hgap htokens hline hend h ih =>
    have htoken := token_tokens e
    rw [htokens] at htoken
    generalize e.1.toList ++ '=' :: e.2.toList = cs at htoken
    obtain _ | ⟨ht, hts⟩ := htoken
    rw [joinFrom_folded hline hts hgap (begun_tokens htokens ht) hend, List.map_cons,
      ih, ← List.flatten_cons, ← htokens]
    exact congrArg (· :: es) (entry_tokens e)

theorem folded_flatten (ts : List (List Char)) : Folded ts ts.flatten := by
  induction ts with
  | nil => exact .nothing
  | cons t ts ih => exact .next t ih

theorem tokens_ne_nil (e : String × String) : tokens e ≠ [] := by
  simp [tokens]

/-- Entries as they are written are arranged. -/
theorem arranged_write (es : List (String × String)) :
    Arranged es (write es).toList := by
  rw [write, String.toList_ofList]
  induction es with
  | nil => exact .nothing
  | cons e es ih =>
    obtain ⟨t, ts, htokens⟩ := List.exists_cons_of_ne_nil (tokens_ne_nil e)
    have hbrk : ['\n'] ∈ breaks := by decide
    have hentry := Arranged.entry (by decide : Gap []) htokens (folded_flatten ts)
      (.broken hbrk _) ih
    rw [List.flatMap_cons, ← flatten_tokens, htokens]
    simpa using hentry

/-- Reading undoes writing, of entries whose keys differ, however the entries are
arranged on lines. -/
theorem written_read_back (hkeys : (es.map Prod.fst).Nodup) :
    read (write es) = .map (es.map fun (k, v) => (k, .string v))
    ∧ ∀ text : String, Arranged es text.toList →
      read text = .map (es.map fun (k, v) => (k, .string v)) := by
  have hread (text : String) (h : Arranged es text.toList) :
      read text = .map (es.map fun (k, v) => (k, .string v)) := by
    rw [read, entries, logicalLines_arranged h, enterAll_of_nodup hkeys]
  exact ⟨hread (write es) (arranged_write es), hread⟩

/-- Entries among blank lines and a comment, two of them folded: one before what would
be the mark of a comment, the other before what would end a key. -/
theorem written_read_back_folded :
    let es := [("#a#b", " x\\\n"), ("", "y =z"), ("é:", "")]
    let text :=
      "\t! note\r\n  \\#a\\\r\n\t#b=\\ x\\\\\\n\n\x0c\r\n=y \\\n  =z\n  é\\:="
    read (write es) = .map (es.map fun (k, v) => (k, .string v))
    ∧ read text = .map (es.map fun (k, v) => (k, .string v)) := by
  intro es text
  have hfeed : ['\n'] ∈ breaks := by decide
  have hboth : ['\r', '\n'] ∈ breaks := by decide
  have hindent : Gap [' ', ' '] := by decide
  have hlast : tokens ("é:", "") = [['é'], ['\\', ':'], ['=']] := by decide
  have hnext : tokens ("", "y =z") = [['='], ['y'], [' '], ['='], ['z']] := by decide
  have hfirst : tokens ("#a#b", " x\\\n") = [['\\', '#'], ['a'], ['#'], ['b'], ['='],
    ['\\', ' '], ['x'], ['\\', '\\'], ['\\', 'n']] := by decide
  -- the text is arranged from its last entry to its first
  have harranged := Arranged.entry hindent hlast (.next _ (.next _ .nothing)) .text
    .nothing
  have harranged := Arranged.entry (by decide : Gap []) hnext
    (.next _ (.next _ (.fold hfeed hindent (by decide) (.next _ .nothing))))
    (.broken hfeed _) harranged
  have harranged := Arranged.entry hindent hfirst
    (.next _ (.fold hboth (by decide : Gap ['\t']) (by decide)
      (.next _ (.next _ (.next _ (.next _ (.next _ (.next _ .nothing))))))))
    (.broken hfeed _)
    (.blank (by decide : Gap ['\x0c']) (.broken hboth _) harranged)
  have harranged := Arranged.comment (by decide : Gap ['\t']) (.inr rfl)
    (by decide : '\n' ∉ " note".toList) (.broken hboth _) harranged
  have htext : ∃ s, Arranged es s ∧ s = text.toList := ⟨_, harranged, by decide⟩
  obtain ⟨s, harranged, rfl⟩ := htext
  have hkeys : (es.map Prod.fst).Nodup := by decide
  exact ⟨(written_read_back hkeys).1, (written_read_back hkeys).2 text harranged⟩

end Stencil.Binding.Properties
