/-
The places of nodes in a source.

An offset counts bytes, and so do columns; a table of the offsets at which lines
begin turns the one into the other. No byte but that of a line feed itself has its
value, so the table holds zero and what is behind each line feed among the bytes
(`breaksFrom_eq`). It increases, and the lines that begin at an offset or before it
are those of the bytes before the offset (`passed_eq`): there is one at least, the
last of them is the line of the offset, and it does not begin beyond it. So nothing
is looked up outside the table, and nothing larger is taken from the offset.

Events are scanned one behind another, and a node begins at one of them
(`Builder.places_run`). Nodes in document order are therefore in the order of their
places.
-/
import Mathlib.Data.List.DropRight
import Mathlib.Data.List.TakeWhile
import Mathlib.Tactic.SplitIfs
import Stencil.Proofs.Markup.Arena

namespace Stencil.Markup

open Text (width width_append)

-- =================================================================== bytes

/-- The byte of a line feed. -/
def lineFeed : UInt8 := '\n'.toUInt8

/-- The bytes of a source. -/
def bytes (source : String) : List UInt8 := source.toUTF8.data.toList

theorem bytes_eq (source : String) :
    bytes source = source.toList.flatMap String.utf8EncodeChar := by
  unfold bytes
  rw [show source.toUTF8 = source.toByteArray from rfl,
    ← String.utf8Encode_toList]
  exact List.toList_data_toByteArray

theorem length_encoded (s : List Char) :
    (s.flatMap String.utf8EncodeChar).length = width s := by
  induction s with
  | nil => rfl
  | cons c s ih =>
    rw [List.flatMap_cons, List.length_append, ih, String.length_utf8EncodeChar,
      width]

theorem length_bytes (source : String) :
    (bytes source).length = source.utf8ByteSize := rfl

theorem width_toList (source : String) :
    width source.toList = source.utf8ByteSize := by
  rw [← length_bytes, bytes_eq, length_encoded]

theorem lineFeed_ne_ofNat {n : Nat} (hn : n < 256) (hne : n ≠ 10) :
    lineFeed ≠ UInt8.ofNat n := by
  intro h
  have hval := congrArg UInt8.toNat h
  rw [UInt8.toNat_ofNat_of_lt' hn] at hval
  exact hne hval.symm

/-- No byte of another character is a line feed. -/
theorem lineFeed_notMem {c : Char} (hc : c ≠ '\n') :
    lineFeed ∉ String.utf8EncodeChar c := by
  have hval : c.val.toNat ≠ 10 := fun h =>
    hc (Char.ext (UInt32.toNat_inj.1 h))
  unfold String.utf8EncodeChar
  dsimp only
  generalize c.val.toNat = v at hval
  split_ifs
  -- alone the byte is the character itself, and of more none is below 128
  all_goals
    simp only [List.mem_cons, List.not_mem_nil, or_false, not_or]
    and_intros
    all_goals exact lineFeed_ne_ofNat (by omega) (by omega)

-- =================================================================== lines

/-- The offsets just behind each line feed of some bytes, the first byte being
at `pos`. -/
def breaks (pos : Nat) : List UInt8 → List Nat
  | [] => []
  | b :: bs =>
    if b = lineFeed then (pos + 1) :: breaks (pos + 1) bs else breaks (pos + 1) bs

section

variable (pos : Nat) (bs : List UInt8)

theorem breaks_append (cs : List UInt8) :
    breaks pos (bs ++ cs) = breaks pos bs ++ breaks (pos + bs.length) cs := by
  induction bs generalizing pos with
  | nil => rfl
  | cons b bs ih =>
    have hlength : pos + 1 + bs.length = pos + (bs.length + 1) := by omega
    rw [List.cons_append, breaks, breaks, ih, List.length_cons, hlength]
    split <;> rfl

theorem breaks_eq_nil (h : lineFeed ∉ bs) : breaks pos bs = [] := by
  induction bs generalizing pos with
  | nil => rfl
  | cons b bs ih =>
    have hb : b ≠ lineFeed := fun hb => h (hb ▸ List.mem_cons_self)
    rw [breaks, if_neg hb, ih (pos + 1) fun hbs => h (List.mem_cons_of_mem _ hbs)]

/-- A table of breaks is that of the line feeds among the bytes. -/
theorem breaksFrom_eq (s : List Char) :
    breaksFrom pos s = breaks pos (s.flatMap String.utf8EncodeChar) := by
  induction s generalizing pos with
  | nil => rfl
  | cons c s ih =>
    rw [breaksFrom, List.flatMap_cons, breaks_append,
      String.length_utf8EncodeChar, ih, ih]
    split
    · next hc =>
      subst hc
      rfl
    · next hc => rw [breaks_eq_nil pos _ (lineFeed_notMem hc), List.nil_append]

theorem lt_of_mem_breaks {k : Nat} (h : k ∈ breaks pos bs) : pos < k := by
  induction bs generalizing pos with
  | nil => cases h
  | cons b bs ih =>
    rw [breaks] at h
    split at h
    · rcases List.mem_cons.1 h with rfl | h
      · exact Nat.lt_succ_self pos
      · have := ih (pos + 1) h
        omega
    · have := ih (pos + 1) h
      omega

theorem breaks_increasing : (breaks pos bs).Pairwise (· < ·) := by
  induction bs generalizing pos with
  | nil => exact .nil
  | cons b bs ih =>
    rw [breaks]
    split
    · exact .cons (fun k hk => lt_of_mem_breaks _ _ hk) (ih _)
    · exact ih _

theorem length_breaks : (breaks pos bs).length = bs.count lineFeed := by
  induction bs generalizing pos with
  | nil => rfl
  | cons b bs ih =>
    rw [breaks, List.count_cons, apply_ite List.length, List.length_cons, ih]
    simp only [beq_iff_eq]
    split <;> rfl

/-- The breaks not beyond an offset are those of the bytes before it. -/
theorem takeWhile_breaks (k : Nat) :
    (breaks pos bs).takeWhile (· ≤ pos + k) = breaks pos (bs.take k) := by
  induction bs generalizing pos k with
  | nil => rw [List.take_nil]; rfl
  | cons b bs ih =>
    cases k with
    | zero =>
      refine List.takeWhile_eq_nil_iff.2 fun hpos hle => ?_
      have hbeyond := lt_of_mem_breaks pos (b :: bs) (List.get_mem _ ⟨0, hpos⟩)
      exact absurd hbeyond (Nat.not_lt.2 (of_decide_eq_true hle))
    | succ k =>
      have hle : pos + (k + 1) = pos + 1 + k := by omega
      rw [List.take_succ_cons, breaks, breaks, ← ih, hle]
      split
      · rw [List.takeWhile_cons_of_pos (by simp)]
      · rfl

/-- The last line begins behind the last line feed, or where the first one
does. -/
theorem getLastD_breaks :
    (breaks pos bs).getLastD pos + (bs.rtakeWhile (· ≠ lineFeed)).length
      = pos + bs.length := by
  induction bs using List.reverseRecOn with
  | nil => rfl
  | append_singleton bs b ih =>
    rw [breaks_append, breaks, breaks, List.length_append, List.length_singleton]
    split
    · next hb =>
      rw [List.getLastD_concat, List.rtakeWhile_concat_neg _ _ _ (by simp [hb])]
      rfl
    · next hb =>
      rw [List.append_nil, List.rtakeWhile_concat_pos _ _ _ (by simp [hb]),
        List.length_append, List.length_singleton]
      omega

end

-- ============================================================ single places

/-- The place of an offset in a source. -/
def placeAt (source : String) (pos : Nat) : Location :=
  Location.ofOffset (lineStarts source.toList) pos

theorem lineStarts_eq (source : String) :
    lineStarts source.toList = 0 :: breaks 0 (bytes source) := by
  rw [lineStarts, breaksFrom_eq, bytes_eq]

theorem lineStarts_increasing (source : String) :
    (lineStarts source.toList).Pairwise (· < ·) := by
  rw [lineStarts_eq]
  exact .cons (fun k hk => lt_of_mem_breaks 0 _ hk) (breaks_increasing 0 _)

/-- The lines that begin at an offset or before it. -/
theorem passed_eq (source : String) (pos : Nat) :
    (lineStarts source.toList).takeWhile (· ≤ pos)
      = 0 :: breaks 0 ((bytes source).take pos) := by
  have hbreaks := takeWhile_breaks 0 (bytes source) pos
  rw [Nat.zero_add] at hbreaks
  rw [lineStarts_eq, List.takeWhile_cons_of_pos (by simp), hbreaks]

theorem getElem?_lineStarts (source : String) (pos : Nat) :
    (lineStarts source.toList)[((bytes source).take pos).count lineFeed]?
      = some ((breaks 0 ((bytes source).take pos)).getLastD 0) := by
  have hsplit := (List.takeWhile_append_dropWhile (p := fun k => k ≤ pos)
    (l := lineStarts source.toList)).symm
  rw [passed_eq] at hsplit
  rw [hsplit, ← length_breaks 0,
    List.getElem?_append_left (Nat.lt_succ_self _), List.getLastD_eq_getLast?]
  exact List.getLast?_eq_getElem?.symm.trans List.getLast?_cons

/-- A bound splits an increasing table where its first entries end. -/
theorem getElem_le_iff {table : List Nat} (h : table.Pairwise (· < ·))
    (pos i : Nat) (hi : i < table.length) :
    table[i] ≤ pos ↔ i < (table.takeWhile (· ≤ pos)).length := by
  induction h generalizing i with
  | nil => cases hi
  | @cons k table hk h ih =>
    by_cases hle : k ≤ pos
    · rw [List.takeWhile_cons_of_pos (by simpa using hle), List.length_cons]
      cases i with
      | zero => exact iff_of_true hle (Nat.succ_pos _)
      | succ i =>
        rw [List.getElem_cons_succ, ih i (Nat.lt_of_succ_lt_succ hi),
          Nat.succ_lt_succ_iff]
    · rw [List.takeWhile_cons_of_neg (by simpa using hle)]
      refine iff_of_false (fun hbelow => hle ?_) (Nat.not_lt_zero i)
      cases i with
      | zero => exact hbelow
      | succ i =>
        have := hk _ (List.getElem_mem (Nat.lt_of_succ_lt_succ hi))
        rw [List.getElem_cons_succ] at hbelow
        omega

theorem line_placeAt (source : String) (pos : Nat) :
    (placeAt source pos).line = ((bytes source).take pos).count lineFeed + 1 := by
  show ((lineStarts source.toList).takeWhile (· ≤ pos)).length = _
  rw [passed_eq, List.length_cons, length_breaks]

theorem column_placeAt (source : String) (pos : Nat) :
    (placeAt source pos).column
      = pos - (breaks 0 ((bytes source).take pos)).getLastD 0 + 1 := by
  show pos - ((lineStarts source.toList).takeWhile (· ≤ pos)).getLastD 0 + 1 = _
  rw [passed_eq, List.getLastD_cons]

theorem placeAt_zero (source : String) : placeAt source 0 = ⟨1, 1⟩ := by
  have hline := line_placeAt source 0
  have hcolumn := column_placeAt source 0
  rw [List.take_zero] at hline hcolumn
  exact congrArg₂ Location.mk hline hcolumn

/-- How the place of an offset is found, and what it is. -/
structure Located (source : String) (pos : Nat) : Prop where
  /-- The lines that begin at the offset or before it are the first ones of the
  table, and the place is on the last of them. -/
  found : ∀ i, ∀ h : i < (lineStarts source.toList).length,
    (lineStarts source.toList)[i] ≤ pos ↔ i < (placeAt source pos).line
  /-- That line stands in the table, and it does not begin beyond the offset. -/
  begun : ∃ start,
    (lineStarts source.toList)[(placeAt source pos).line - 1]? = some start
      ∧ start ≤ pos ∧ (placeAt source pos).column = pos - start + 1
  /-- One more than there are line feeds before the offset. -/
  line : (placeAt source pos).line = ((bytes source).take pos).count lineFeed + 1
  /-- One more than there are bytes behind the last of those line feeds. -/
  column : (placeAt source pos).column
    = (((bytes source).take pos).rtakeWhile (· ≠ lineFeed)).length + 1

theorem located {source : String} {pos : Nat}
    (h : pos ≤ source.utf8ByteSize) : Located source pos := by
  have hlength : ((bytes source).take pos).length = pos := by
    rw [List.length_take, length_bytes]
    omega
  have hlast := getLastD_breaks 0 ((bytes source).take pos)
  rw [hlength, Nat.zero_add] at hlast
  have hline := line_placeAt source pos
  have hcolumn := column_placeAt source pos
  refine ⟨getElem_le_iff (lineStarts_increasing source) pos, ?_, hline, ?_⟩
  · refine ⟨_, ?_, by omega, hcolumn⟩
    rw [hline, Nat.add_sub_cancel]
    exact getElem?_lineStarts source pos
  · omega

-- ==================================================================== order

/-- Places are ordered by their lines, and on one line by their columns. -/
instance : LE Location where
  le l m := l.line < m.line ∨ l.line = m.line ∧ l.column ≤ m.column

/-- A later offset has no earlier place, whatever the table. -/
theorem ofOffset_le (starts : List Nat) {p q : Nat} (h : p ≤ q) :
    Location.ofOffset starts p ≤ Location.ofOffset starts q := by
  have hboth : (starts.takeWhile (· ≤ q)).takeWhile (· ≤ p)
      = starts.takeWhile (· ≤ p) := by
    rw [List.takeWhile_takeWhile]
    congr 1
    funext k
    simp only [decide_eq_true_eq, decide_eq_decide]
    omega
  have hfront : starts.takeWhile (· ≤ p) <+: starts.takeWhile (· ≤ q) := by
    rw [← hboth]
    exact List.takeWhile_prefix _
  rcases Nat.lt_or_eq_of_le hfront.length_le with hlt | heq
  · exact .inl hlt
  · refine .inr ⟨heq, ?_⟩
    show p - (starts.takeWhile (· ≤ p)).getLastD 0 + 1
      ≤ q - (starts.takeWhile (· ≤ q)).getLastD 0 + 1
    rw [hfront.eq_of_length heq]
    omega

/-- Events begin one behind another, inside the text. -/
theorem offsets_scanFrom (pos : Nat) (s : List Char) :
    ((scanFrom pos s).events.map Placed.offset).Pairwise (· < ·)
      ∧ ∀ k ∈ (scanFrom pos s).events.map Placed.offset,
        pos ≤ k ∧ k < pos + width s := by
  have hwidth (n : Nat) (s : List Char) :
      width s = width (s.take n) + width (s.drop n) := by
    rw [← width_append, List.take_append_drop]
  -- a token takes at least the character that it begins with
  induction pos, s using scanFrom.induct with
  | case1 pos =>
    rw [scanFrom]
    exact ⟨.nil, nofun⟩
  | case2 pos c s fault h =>
    rw [scanFrom, h]
    exact ⟨.nil, nofun⟩
  | case3 pos c s n e h ih =>
    obtain ⟨hincreasing, hinside⟩ := ih
    have hpos := c.utf8Size_pos
    simp only [width] at hinside ⊢
    rw [scanFrom, h, hwidth n s]
    refine ⟨.cons (fun k hk => ?_) hincreasing, fun k hk => ?_⟩
    · have := hinside k hk
      show pos < k
      omega
    · rcases List.mem_cons.1 hk with hk | hk
      · have hk : k = pos := hk
        omega
      · have := hinside k hk
        omega
  | case4 pos c s n h ih =>
    obtain ⟨hincreasing, hinside⟩ := ih
    simp only [width] at hinside ⊢
    rw [scanFrom, h, hwidth n s]
    refine ⟨hincreasing, fun k hk => ?_⟩
    have := hinside k hk
    omega

-- ================================================================= builders

/-- The places of some trees. -/
def Tree.places (ts : List Tree) : List Location := ts.map fun t => t.label.place

namespace Builder

variable {b b' : Builder} {place : Location}

/-- The places of the nodes begun so far, in document order. -/
def places (b : Builder) : List Location :=
  (b.outer.reverse ++ [b.current]).flatMap
    fun f => Tree.places f.close.preorder

theorem places_mk (f : Frame) (fs : List Frame) (next : Nat) :
    places ⟨f, fs, next⟩
      = fs.reverse.flatMap (fun f => Tree.places f.close.preorder)
        ++ Tree.places f.close.preorder := by
  unfold places
  rw [List.flatMap_append, List.flatMap_singleton]

theorem places_of_top (h : b.outer = []) :
    b.places = Tree.places b.current.close.preorder := by
  obtain ⟨f, fs, next⟩ := b
  cases h
  exact places_mk f [] next

theorem places_start (source : String) :
    start.places = [placeAt source 0] := by
  rw [placeAt_zero]
  rfl

theorem places_push (f : Frame) (t : Tree) :
    Tree.places (f.push t).close.preorder
      = Tree.places f.close.preorder ++ Tree.places t.preorder := by
  have h := congrArg (List.map Label.place) (labels_push f t)
  simp only [List.map_append, List.map_map] at h
  exact h

theorem places_leaf (b : Builder) (place : Location) (content : Content) :
    (b.leaf place content).places = b.places ++ [place] := by
  obtain ⟨f, fs, next⟩ := b
  unfold leaf
  rw [places_mk, places_mk, places_push, List.append_assoc]
  rfl

theorem places_openElement (b : Builder) (place : Location) (e : Element) :
    (b.openElement place e).places = b.places ++ [place] := by
  obtain ⟨f, fs, next⟩ := b
  unfold openElement
  rw [places_mk, places_mk, List.reverse_cons, List.flatMap_append,
    List.flatMap_singleton]
  rfl

/-- A text that is joined keeps its place. -/
theorem places_addText (b : Builder) (place : Location) (s : String) :
    (b.addText place s).places = b.places
      ∨ (b.addText place s).places = b.places ++ [place] := by
  rcases addText_cases b place s with
    ⟨id, first, t, ts, rest, hc, heq⟩ | ⟨-, heq⟩
  · refine .inl ?_
    rw [heq]
    obtain ⟨⟨label, children⟩, outer, next⟩ := b
    cases hc
    have hsame := (places_push ⟨label, rest⟩
      (.node ⟨id, first, .text (t ++ s)⟩ ts)).trans
      (places_push ⟨label, rest⟩ (.node ⟨id, first, .text t⟩ ts)).symm
    rw [places_mk, places_mk]
    exact congrArg (_ ++ ·) hsame
  · exact .inr (heq ▸ places_leaf b place _)

theorem places_text {s : String} (h : b.text place s = .ok b') :
    b'.places = b.places ∨ b'.places = b.places ++ [place] := by
  rcases text_cases h with ⟨-, rfl⟩ | ⟨-, -, rfl⟩ | ⟨-, -, rfl⟩
  · exact .inl rfl
  · exact .inl rfl
  · exact places_addText b place s

/-- An event begins one node at its place, or none. -/
theorem Fed.places {e : Event} (h : Fed b place e b') :
    b'.places = b.places ∨ b'.places = b.places ++ [place] := by
  cases h with
  | opened _ _ => exact .inr (places_openElement b place _)
  | empty _ _ => exact .inr (places_leaf b place _)
  | closed _ hf =>
    refine .inl ?_
    obtain ⟨current, outer, next⟩ := b
    cases hf
    rw [places_mk, places_mk, places_push, List.reverse_cons,
      List.flatMap_append, List.flatMap_singleton, List.append_assoc]
  | text h => exact places_text h
  | reference _ h => exact places_text h
  | cdata _ => exact .inr (places_leaf b place _)
  | comment => exact .inr (places_leaf b place _)
  | instruction => exact .inr (places_leaf b place _)

/-- The nodes of a run begin where some of its events do. -/
theorem places_run {starts : List Nat} {es : List Placed}
    (h : b.run starts es = .ok b') :
    ∃ ks : List Nat, ks.Sublist (es.map Placed.offset)
      ∧ b'.places = b.places ++ ks.map (Location.ofOffset starts) := by
  induction es generalizing b with
  | nil =>
    cases h
    exact ⟨[], .slnil, (List.append_nil _).symm⟩
  | cons e es ih =>
    obtain ⟨b₁, hfed, hrun⟩ := run_cons h
    obtain ⟨ks, hks, hplaces⟩ := ih hrun
    rcases hfed.places with hnone | hone
    · exact ⟨ks, hks.cons _, by rw [hplaces, hnone]⟩
    · refine ⟨e.offset :: ks, hks.cons_cons _, ?_⟩
      rw [hplaces, hone, List.append_assoc]
      rfl

end Builder

-- =============================================================== documents

theorem width_withoutMark_le (s : List Char) : width (withoutMark s) ≤ width s := by
  cases s with
  | nil => exact Nat.le_refl _
  | cons c s =>
    rw [withoutMark]
    split
    · exact Nat.le_add_left (width s) c.utf8Size
    · exact Nat.le_refl _

theorem Node.map_place_nodes (n : Node) :
    n.nodes.map place = Tree.places n.tree.preorder := by
  rw [← n.map_tree_nodes, Tree.places, List.map_map]
  rfl

namespace Document

variable {origin : Origin} {source : String} {d : Document}

/-- Where a node of a source can begin: with the document, or with an event. -/
def beginnings (source : String) : List Nat :=
  0 :: (scan source.toList).events.map Placed.offset

/-- The nodes in order begin at offsets in order, inside the source. -/
theorem places_of_parse (h : parse origin source = .ok d) :
    d.Arena ∧ ∃ ks : List Nat, ks.Pairwise (· ≤ ·)
      ∧ (∀ k ∈ ks, k ∈ beginnings source ∧ k ≤ source.utf8ByteSize)
      ∧ d.nodes.map Node.place = ks.map (placeAt source) := by
  obtain ⟨-, ht⟩ := tree_of_parse h
  refine ⟨arena_of_built (Tree.built_of_parse ht), ?_⟩
  obtain ⟨-, b, hrun, hfinish⟩ := Tree.parse_ok ht
  obtain ⟨houter, -, hroot⟩ := Builder.finish_ok hfinish
  obtain ⟨ks, hks, hplaces⟩ := Builder.places_run hrun
  obtain ⟨hincreasing, hinside⟩ :=
    offsets_scanFrom 0 (withoutMark source.toList)
  have hsize := width_withoutMark_le source.toList
  rw [width_toList] at hsize
  refine ⟨0 :: ks, ?_, ?_, ?_⟩
  · exact .cons (fun k _ => Nat.zero_le k)
      ((hincreasing.sublist hks).imp Nat.le_of_lt)
  · intro k hk
    refine ⟨(hks.cons_cons 0).subset hk, ?_⟩
    rcases List.mem_cons.1 hk with rfl | hk
    · exact Nat.zero_le _
    · have := hinside k (hks.subset hk)
      omega
  -- the document stands at the beginning, in front of all that is built
  · rw [Builder.places_of_top houter, Builder.places_start source,
      ← hroot] at hplaces
    exact (Node.map_place_nodes _).trans hplaces

/-- The number of a node is its position. -/
theorem Arena.getElem?_id (h : d.Arena) {n : Node} (hn : n ∈ d.nodes) :
    d.nodes[n.id]? = some n := by
  obtain ⟨i, hi, rfl⟩ := List.mem_iff_getElem.1 hn
  have hid := congrArg (fun ids => ids[i]?) h.numbered
  simp only [List.getElem?_map, List.getElem?_eq_getElem hi, Option.map_some,
    List.getElem?_range hi, Option.some_inj] at hid
  rw [hid]
  exact List.getElem?_eq_getElem hi

/-- Every offset of a source has its place, found without a step outside the
table. In a document the nodes have the places of where they begin, and with their
numbers these never go back. -/
theorem placed_in_order (source : String) :
    (∀ pos, pos ≤ source.utf8ByteSize → Located source pos)
    ∧ ∀ origin d, parse origin source = .ok d →
      (∀ n ∈ d.nodes, ∃ pos ∈ beginnings source, pos ≤ source.utf8ByteSize
        ∧ n.place = placeAt source pos)
      ∧ ∀ m ∈ d.nodes, ∀ n ∈ d.nodes, m.id ≤ n.id → m.place ≤ n.place := by
  refine ⟨fun pos h => located h, fun origin d h => ?_⟩
  obtain ⟨harena, ks, hordered, hinside, hplaces⟩ := places_of_parse h
  -- a node is found by its number among the places, for none is left out
  have placed (n : Node) (hn : n ∈ d.nodes) :
      ∃ hk : n.id < ks.length, n.place = placeAt source ks[n.id] := by
    have hplace := congrArg (fun places => places[n.id]?) hplaces
    rw [List.getElem?_map, List.getElem?_map, harena.getElem?_id hn] at hplace
    obtain ⟨k, hk, hplace⟩ := Option.map_eq_some_iff.1 hplace.symm
    obtain ⟨hlt, rfl⟩ := List.getElem?_eq_some_iff.1 hk
    exact ⟨hlt, hplace.symm⟩
  constructor
  · intro n hn
    obtain ⟨hk, hplace⟩ := placed n hn
    obtain ⟨hbegins, hsize⟩ := hinside _ (List.getElem_mem hk)
    exact ⟨_, hbegins, hsize, hplace⟩
  · intro m hm n hn hle
    obtain ⟨hj, hmplace⟩ := placed m hm
    obtain ⟨hk, hnplace⟩ := placed n hn
    rw [hmplace, hnplace]
    exact ofOffset_le _ (hordered.rel_get_of_le hle)

/-- A source with an empty line, two bytes in one character, and a line feed at
the end. -/
def spacedSource : String := "<a>\n\né<b/>\n</a>\n"

/-- The document of that source. -/
def spaced : Document where
  origin := .given 0
  root :=
    .node ⟨0, ⟨1, 1⟩, .document⟩
      [.node ⟨1, ⟨1, 1⟩, .element ⟨.ofText "a", none, [], []⟩⟩
        [.node ⟨2, ⟨1, 4⟩, .text "\n\né"⟩ [],
          .node ⟨3, ⟨3, 3⟩, .element ⟨.ofText "b", none, [], []⟩⟩ [],
          .node ⟨4, ⟨3, 7⟩, .text "\n"⟩ []]]

/-- The end is the beginning of a fifth line, and the line feed behind the first
tag is still on the line of that. -/
theorem spaced_in_order :
    parse (.given 0) spacedSource = .ok spaced
    ∧ spacedSource.utf8ByteSize = 17 ∧ placeAt spacedSource 17 = ⟨5, 1⟩
    ∧ placeAt spacedSource 3 = ⟨1, 4⟩
    ∧ ∀ m ∈ spaced.nodes, ∀ n ∈ spaced.nodes, m.id ≤ n.id →
      m.place ≤ n.place := by
  have h : parse (.given 0) spacedSource = .ok spaced := by
    with_unfolding_all rfl
  have hsize : spacedSource.utf8ByteSize = 17 := by decide
  obtain ⟨located, ordered⟩ := placed_in_order spacedSource
  have last := located 17 (by omega)
  have first := located 3 (by omega)
  exact ⟨h, hsize, congrArg₂ Location.mk last.line last.column,
    congrArg₂ Location.mk first.line first.column,
    (ordered (.given 0) spaced h).2⟩

end Document

end Stencil.Markup
