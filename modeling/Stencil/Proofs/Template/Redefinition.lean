/-
When a macro is found to be defined twice.

Macros are defined whenever contents are processed, in the scope that is open
then. All that is still to be processed in a scope lies in elements apart from
each other and from those whose contents have been processed there (`Level`),
but in the scope of a loop, which goes through the same contents again. This is
what a step keeps (`level_leads`). So if the name of a macro is taken, it is by
another macro, or contents are processed in a scope again, and the scope is a
loop's; and then, if there is a macro among them, it always is
(`macros_defined_twice`).
-/
import Stencil.Proofs.Markup.Arena
import Stencil.Proofs.Template.Faults
import Stencil.Proofs.Template.Simulation

namespace Stencil.Template

open Markup (Document Node Tree)

variable {σ : Type}

-- ================================================================ regularity

/-- Nodes that are numbered in document order, and that their numbers tell
apart. -/
structure Regular (ns : List Node) : Prop where
  numbered : ∀ n ∈ ns, n.tree.Numbered
  apart : ∀ n ∈ ns, ∀ n' ∈ ns, n.id = n'.id → n = n'

theorem Regular.mono {ns ns' : List Node} (h : Regular ns) (hs : ns' ⊆ ns) :
    Regular ns' :=
  ⟨fun n hn => h.numbered n (hs hn),
    fun n hn n' hn' => h.apart n (hs hn) n' (hs hn')⟩

section

variable {n : Node} (h : n.tree.Numbered)

include h

theorem nodup_ids : (n.nodes.map Node.id).Nodup := by
  rw [n.map_id_nodes]
  exact h.nodup

theorem nodup_nodes : n.nodes.Nodup := .of_map _ (nodup_ids h)

theorem regular_nodes : Regular n.nodes := by
  refine ⟨fun m hm => h.mem _ (Node.tree_mem hm), fun m hm m' hm' hid => ?_⟩
  exact List.inj_on_of_nodup_map (nodup_ids h) hm hm' hid

end

theorem mem_nodes (n : Node) : n ∈ n.nodes := by
  rw [n.nodes_eq]
  exact List.mem_cons_self

-- ==================================================================== levels

/-- The nodes whose contents a task may have processed in the scope that is
open. -/
def Task.pending : Task → List Node
  | .execute n => n.nodes
  | .element n => n.nodes
  | .contents _ n => n.nodes
  | .items _ _ parent ts => (ts.map parent.below).flatMap Node.nodes
  | .cases n ts => (ts.map n.below).flatMap Node.nodes
  | .each n _ _ _ => n.nodes
  | .whole n _ _ _ _ => n.nodes
  | .floating n _ _ _ _ => n.nodes
  | .invoke _ body => body.nodes
  | _ => []

/-- What a copy puts in the place of elements is numbered. -/
def Task.Proper : Task → Prop
  | .copyTree is _ => ∀ i ∈ is, i.node.tree.Numbered
  | .copyTrees is _ _ => ∀ i ∈ is, i.node.tree.Numbered
  | _ => True

/-- In a scope these nodes are still to be processed. If it is no loop's, each
is met once, and none holds a macro that the scope knows. -/
structure Site.Awaits (uri : String) (site : Site) (ns : List Node) : Prop where
  regular : Regular (site.macros.map Prod.snd ++ ns)
  once : Directive.ofNode? uri site.anchor ≠ some .loop →
    ns.Nodup ∧ ∀ x ∈ site.macros, ∃ p, x.2 ∈ p.children ∧ p ∉ ns

/-- What these tasks and those before them, with these nodes, are to process
in the innermost scope and in those around it. -/
def Level (uri : String) : List Task → List Node → Site → List Site → Prop
  | [], ns, site, outer => site.Awaits uri ns ∧ outer = []
  | .leave :: ts, ns, site, outer => site.Awaits uri ns
    ∧ ∃ next rest, outer = next :: rest ∧ Level uri ts [] next rest
  | t :: ts, ns, site, outer =>
    t.Proper ∧ Level uri ts (ns ++ t.pending) site outer

section

variable {uri : String} {site site' : Site} {outer : List Site}
  {ns ns' : List Node} {t : Task} {ts : List Task} {n : Node}

theorem awaits_fresh (anchor : Node) (h : Regular ns) (hnodup : ns.Nodup) :
    (Site.fresh anchor).Awaits uri ns :=
  ⟨h, fun _ => ⟨hnodup, nofun⟩⟩

theorem awaits_nothing (anchor : Node) : (Site.fresh anchor).Awaits uri [] :=
  awaits_fresh anchor ⟨nofun, nofun⟩ .nil

theorem awaits_nodes (anchor : Node) (h : n.tree.Numbered) :
    (Site.fresh anchor).Awaits uri n.nodes :=
  awaits_fresh anchor (regular_nodes h) (nodup_nodes h)

theorem Site.Awaits.sublist (h : site.Awaits uri ns) (hs : ns'.Sublist ns) :
    site.Awaits uri ns' := by
  refine ⟨h.regular.mono ?_, fun hloop => ?_⟩
  · exact List.append_subset.2 ⟨List.subset_append_left _ _,
      List.subset_append_of_subset_right _ hs.subset⟩
  · obtain ⟨hnodup, hmacros⟩ := h.once hloop
    refine ⟨hnodup.sublist hs, fun x hx => ?_⟩
    obtain ⟨p, hp, hns⟩ := hmacros x hx
    exact ⟨p, hp, fun hmem => hns (hs.subset hmem)⟩

/-- A task that leaves no scope stands before the others. -/
theorem level_cons (ht : t ≠ .leave) :
    Level uri (t :: ts) ns site outer
      ↔ t.Proper ∧ Level uri ts (ns ++ t.pending) site outer := by
  cases t with
  | leave => exact absurd rfl ht
  | _ => rfl

/-- The nodes before the tasks are changed, and so may the scope be. -/
theorem Level.change (h : Level uri ts ns site outer)
    (hns : ∀ more, site.Awaits uri (ns ++ more) →
      site'.Awaits uri (ns' ++ more)) : Level uri ts ns' site' outer := by
  have now (ha : site.Awaits uri ns) : site'.Awaits uri ns' := by
    have changed := hns []
    rw [List.append_nil, List.append_nil] at changed
    exact changed ha
  induction ts generalizing ns ns' with
  | nil => exact ⟨now h.1, h.2⟩
  | cons t ts ih =>
    by_cases ht : t = .leave
    · subst ht
      exact ⟨now h.1, h.2⟩
    · obtain ⟨hproper, hrest⟩ := (level_cons ht).1 h
      have hmore (more : List Node)
          (ha : site.Awaits uri (ns ++ t.pending ++ more)) :
          site'.Awaits uri (ns' ++ t.pending ++ more) := by
        rw [List.append_assoc] at ha ⊢
        exact hns _ ha
      refine (level_cons ht).2 ⟨hproper, ih hrest hmore fun ha => ?_⟩
      have changed := hmore []
      rw [List.append_nil, List.append_nil] at changed
      exact changed ha

theorem Level.sublist (h : Level uri ts ns site outer) (hs : ns'.Sublist ns) :
    Level uri ts ns' site outer :=
  h.change fun more ha => ha.sublist (hs.append (.refl more))

theorem Level.awaits (h : Level uri ts ns site outer) :
    site.Awaits uri ns := by
  induction ts generalizing ns with
  | nil => exact h.1
  | cons t ts ih =>
    by_cases ht : t = .leave
    · subst ht
      exact h.1
    · exact (ih ((level_cons ht).1 h).2).sublist (List.sublist_append_left _ _)

/-- All macros that are known are numbered. -/
theorem Level.numbered (h : Level uri ts ns site outer) :
    ∀ known ∈ site :: outer, ∀ x ∈ known.macros, x.2.tree.Numbered := by
  have own {site : Site} {ns : List Node} (ha : site.Awaits uri ns)
      (x : String × Node) (hx : x ∈ site.macros) : x.2.tree.Numbered :=
    ha.regular.numbered _
      (List.mem_append_left _ (List.mem_map_of_mem hx))
  induction ts generalizing ns site outer with
  | nil =>
    obtain ⟨ha, rfl⟩ := h
    exact List.forall_mem_singleton.2 (own ha)
  | cons t ts ih =>
    by_cases ht : t = .leave
    · subst ht
      obtain ⟨ha, next, rest, rfl, hrest⟩ := h
      exact List.forall_mem_cons.2 ⟨own ha, ih hrest⟩
    · exact ih ((level_cons ht).1 h).2

/-- Tasks that leave no scope put their nodes before those behind them. -/
theorem level_append {us : List Task}
    (hus : ∀ t ∈ us, t ≠ .leave ∧ t.Proper) :
    Level uri (us ++ ts) ns site outer
      ↔ Level uri ts (ns ++ us.flatMap Task.pending) site outer := by
  induction us generalizing ns with
  | nil => rw [List.nil_append, List.flatMap_nil, List.append_nil]
  | cons t us ih =>
    obtain ⟨⟨ht, hproper⟩, hus⟩ := List.forall_mem_cons.1 hus
    rw [List.cons_append, level_cons ht, ih hus, List.append_assoc,
      List.flatMap_cons, and_iff_right hproper]

/-- Other tasks for fewer nodes, in the scope that is open. -/
theorem Level.replaced (h : Level uri ts ns site outer) (us : List Task)
    (hus : ∀ t ∈ us, t ≠ .leave ∧ t.Proper)
    (hs : (us.flatMap Task.pending).Sublist ns) :
    Level uri (us ++ ts) [] site outer :=
  (level_append hus).2 (h.sublist hs)

/-- Nothing is left to be processed in the scope that is open, for now. -/
theorem Level.dropped (h : Level uri ts ns site outer) :
    Level uri ts [] site outer :=
  h.sublist (List.nil_sublist _)

/-- A task in a scope of its own. -/
theorem Level.opened (h : Level uri ts ns site outer) (anchor : Node)
    (ht : t ≠ .leave ∧ t.Proper) (ha : (Site.fresh anchor).Awaits uri t.pending) :
    Level uri (t :: .leave :: ts) [] (.fresh anchor) (site :: outer) :=
  (level_cons ht.1).2 ⟨ht.2, ha, site, outer, rfl, h.dropped⟩

/-- Macros among the contents of the node that is next are defined. -/
theorem Site.Awaits.defined {added : List (String × Node)} {more : List Node}
    (h : site.Awaits uri (n.nodes ++ more))
    (hadded : ∀ x ∈ added, x.2 ∈ n.children) :
    Site.Awaits uri { site with macros := added ++ site.macros }
      ((n.tree.children.map n.below).flatMap Node.nodes ++ more) := by
  have hnodes : n.nodes = n :: n.children.flatMap Node.nodes := n.nodes_eq
  refine ⟨h.regular.mono ?_, fun hloop => ?_⟩
  · rw [List.map_append, List.append_assoc]
    refine List.append_subset.2 ⟨fun c hc => ?_, List.append_subset.2
      ⟨List.subset_append_left _ _, ?_⟩⟩
    · obtain ⟨x, hx, rfl⟩ := List.mem_map.1 hc
      exact List.mem_append_right _ (List.mem_append_left _
        (Node.children_subset (mem_nodes n) (hadded x hx)))
    · refine List.subset_append_of_subset_right _ ?_
      rw [hnodes]
      exact List.subset_cons_self _ _
  · obtain ⟨hnodup, hmacros⟩ := h.once hloop
    rw [hnodes, List.cons_append, List.nodup_cons] at hnodup
    refine ⟨hnodup.2, fun x hx => ?_⟩
    rcases List.mem_append.1 hx with hx | hx
    · exact ⟨n, hadded x hx, hnodup.1⟩
    · obtain ⟨p, hp, hns⟩ := hmacros x hx
      refine ⟨p, hp, fun hmem => hns ?_⟩
      rw [hnodes]
      exact List.mem_cons_of_mem _ hmem

/-- In a loop's scope the contents of the loop may be processed again. -/
theorem Site.Awaits.again {more : List Node}
    (h : site.Awaits uri (n.nodes ++ more))
    (hloop : Directive.ofNode? uri site.anchor = some .loop) :
    site.Awaits uri (n.nodes ++ n.nodes ++ more) := by
  refine ⟨h.regular.mono ?_, fun hno => absurd hloop hno⟩
  refine List.append_subset.2 ⟨List.subset_append_left _ _, ?_⟩
  rw [List.append_assoc]
  refine List.append_subset.2 ⟨?_, List.subset_append_right _ _⟩
  exact List.subset_append_of_subset_right _ (List.subset_append_left _ _)

theorem pending_loop (h : t.loop? = some n) :
    t ≠ .leave ∧ t.Proper ∧ t.pending = n.nodes := by
  cases t with
  | each => cases h; exact ⟨nofun, trivial, rfl⟩
  | whole => cases h; exact ⟨nofun, trivial, rfl⟩
  | floating => cases h; exact ⟨nofun, trivial, rfl⟩
  | _ => cases h

end

section

variable {s : Settings σ} {m m' : Machine σ} {t : Task} {ts rest : List Task}
  {es : List Output.Event} {site : Site} {outer : List Site} {a : Node}
  {ns : List Node}

/-- The innermost scope is left, or it is the outermost. -/
theorem pop_cases (scopes : Scopes) :
    scopes.sites = scopes.current.site :: scopes.pop.sites
      ∨ scopes.pop = scopes ∧ scopes.outer = [] := by
  obtain ⟨current, outer⟩ := scopes
  cases outer with
  | nil => exact .inr ⟨rfl, rfl⟩
  | cons scope scopes => exact .inl rfl

/-- What these tasks are to process in the scopes that are open stays apart. -/
def Leveled (uri : String) (m : Machine σ) (ts : List Task) : Prop :=
  ∃ site outer, m.scopes.sites = site :: outer ∧ Level uri ts [] site outer

theorem leveled_same (hm : SameSites m m')
    (hsites : m.scopes.sites = site :: outer)
    (h : Level s.uri ts [] site outer) : Leveled s.uri m' ts :=
  ⟨site, outer, hm.trans hsites, h⟩

/-- A task goes on in a scope of its own. -/
theorem leveled_opened {ns : List Node} {anchor : Node} {u : Task}
    (hm : OpenedAt anchor m m') (hsites : m.scopes.sites = site :: outer)
    (h : Level s.uri rest ns site outer) (hu : u ≠ .leave ∧ u.Proper)
    (ha : (Site.fresh anchor).Awaits s.uri u.pending) :
    Leveled s.uri m' (u :: .leave :: rest) :=
  ⟨_, _, hm.trans (congrArg (_ :: ·) hsites), h.opened anchor hu ha⟩

/-- The scope that is left is not met again: what is behind is that of the next
one. The outermost scope is not left by a task. -/
theorem leveled_leave (hsites : m.scopes.sites = site :: outer)
    (h : Level s.uri (.leave :: rest) [] site outer)
    (hm : m'.scopes = m.scopes.pop) : Leveled s.uri m' rest := by
  obtain ⟨-, next, others, rfl, hrest⟩ := h
  refine ⟨next, others, ?_, hrest⟩
  rcases pop_cases m.scopes with hpop | ⟨-, hlast⟩
  · rw [hm]
    exact (List.cons.inj (hpop.symm.trans hsites)).2
  · have houter := (List.cons.inj hsites).2
    rw [hlast] at houter
    cases houter

/-- The macro that is called is known to a scope, so it is numbered. -/
theorem numbered_defined (hsites : m.scopes.sites = site :: outer)
    (h : Level s.uri ts ns site outer) {name : String} {body : Node}
    (hbody : m.scopes.defined? name = some body) : body.tree.Numbered := by
  obtain ⟨known, hknown, hmacro⟩ := exists_of_defined? hbody
  exact h.numbered known (hsites ▸ hknown) (name, body) hmacro

/-- An inclusion goes on in a document of its own, which is numbered when it is
parsed. -/
theorem numbered_fetched {url : Url} {d : Document} {root : Node}
    (hparsed : AllParsed m.cache)
    (hload : Loading.load s.source m.cache url = (.ok d, m'.cache))
    (hroot : d.rootElement? = some root) : root.tree.Numbered := by
  obtain ⟨text, hparse⟩ := (hparsed.load s.source _).1 _
    (congrArg Prod.fst hload)
  obtain ⟨t, ht, rfl⟩ := List.mem_map.1 (List.mem_of_find?_eq_some hroot)
  exact (Tree.built_of_parse hparse).numbered.mem t
    (Tree.mem_preorder ht (by cases t; exact List.mem_cons_self))

/-- Another pass of a loop comes to its contents again, which a loop's scope
allows for. -/
theorem level_pass {u : Task} (hloop : Directive.ofNode? s.uri a = some .loop)
    (ha : a = site.anchor) (ht : t.loop? = some a) (hu : u.loop? = some a)
    (h : Level s.uri (t :: rest) [] site outer) :
    Level s.uri (.contents true a :: u :: rest) [] site outer := by
  obtain ⟨hleave, -, hpending⟩ := pending_loop ht
  obtain ⟨hleave', hproper', hpending'⟩ := pending_loop hu
  have hrest := ((level_cons hleave).1 h).2
  rw [hpending] at hrest
  refine ⟨trivial, (level_cons hleave').2 ⟨hproper', ?_⟩⟩
  rw [hpending']
  exact hrest.change fun more hawaits => hawaits.again (ha ▸ hloop)

/-- In every way in which a task is replaced, what is to be processed in a scope
stays apart. -/
theorem level_leads (h : Leads s m m' t ts es)
    (hparsed : AllParsed m.cache) (hsites : m.scopes.sites = site :: outer)
    (hfits : ∀ n, t.loop? = some n →
      Directive.ofNode? s.uri n = some .loop ∧ n = site.anchor)
    (hlevel : Level s.uri (t :: rest) [] site outer) :
    Leveled s.uri m' (ts ++ rest) := by
  have same {us : List Task} (hm : SameSites m m')
      (h : Level s.uri us [] site outer) : Leveled s.uri m' us :=
    leveled_same hm hsites h
  have numbered {ns : List Node} (h : Level s.uri rest ns site outer) {n : Node}
      (hn : n ∈ ns) : n.tree.Numbered :=
    h.awaits.regular.numbered n (List.mem_append_right _ hn)
  cases h with
  | template _ hm => exact same hm hlevel
  | root _ hm => exact same hm hlevel
  | inclusion _ _ hm =>
    exact same hm (hlevel.2.replaced [.fetch _ _] (by simp [Task.Proper])
      (List.nil_sublist _))
  | @condition n _ hm =>
    have hn := numbered hlevel.2 (mem_nodes n)
    exact leveled_opened hm hsites hlevel.2 ⟨nofun, trivial⟩ (awaits_nodes n hn)
  | @loop n t _ ht hm =>
    have hn := numbered hlevel.2 (mem_nodes n)
    obtain ⟨hleave, hproper, hpending⟩ := pending_loop ht
    refine leveled_opened hm hsites hlevel.2 ⟨hleave, hproper⟩ ?_
    rw [hpending]
    exact awaits_nodes n hn
  | @call n body name _ hbody hm =>
    have hn := numbered_defined hsites hlevel hbody
    exact leveled_opened hm hsites hlevel.2 ⟨nofun, trivial⟩ (awaits_nodes n hn)
  | @switch n _ hm =>
    refine same hm (hlevel.2.replaced [.cases n n.tree.children]
      (by simp [Task.Proper]) ?_)
    rw [List.flatMap_singleton]
    show (n.children.flatMap Node.nodes).Sublist n.nodes
    rw [n.nodes_eq]
    exact List.sublist_cons_self _ _
  | @copyWhole n source is _ his hm =>
    have proper : ∀ i ∈ is, i.node.tree.Numbered := fun i hi =>
      numbered hlevel.2 (Node.children_subset (mem_nodes n) (his i hi).1)
    exact leveled_opened hm hsites hlevel.2 ⟨nofun, proper⟩ (awaits_nothing n)
  | @copyContents n source is _ his hm =>
    have proper : ∀ i ∈ is, i.node.tree.Numbered := fun i hi =>
      numbered hlevel.2 (Node.children_subset (mem_nodes n) (his i hi).1)
    -- two scopes, that of the copy and that of its source
    have hopened : Level s.uri (.leave :: rest) [] (.fresh n) (site :: outer) :=
      ⟨awaits_nothing n, site, outer, rfl, hlevel.2.dropped⟩
    exact ⟨_, _, hm.trans (congrArg (_ :: _ :: ·) hsites),
      hopened.opened source ⟨nofun, proper⟩ (awaits_nothing source)⟩
  | @literal n e _ _ _ hm =>
    exact same hm (hlevel.2.replaced
      [.contents false n, .send (.stop (.ofElement e))]
      (by simp [Task.Proper]) (by simp [Task.pending]))
  | @contents trim n hm =>
    -- macros move from what is to be processed to what is known
    obtain ⟨added, hadded, hdefined, -⟩ := sites_defineAll hm
    obtain ⟨rfl, rfl⟩ := List.cons.inj hsites
    exact ⟨_, _, hadded, trivial, hlevel.2.change fun more ha =>
      ha.defined fun x hx => (hdefined x hx).1⟩
  | @child trim front parent t ts _ _ hm =>
    exact same hm (hlevel.2.replaced
      [.element (parent.below t), .items trim false parent ts]
      (by simp [Task.Proper]) (by simp [Task.pending]))
  | skipped _ hm | passed _ _ _ hm | text _ _ _ _ hm | itemSection _ _ hm
  | nextCase hm =>
    refine same hm ⟨trivial, hlevel.2.sublist ?_⟩
    exact List.sublist_append_right _ _
  | @case n t ts _ hm =>
    have hmem : n.below t ∈ (Task.cases n (t :: ts)).pending :=
      List.mem_append_left _ (mem_nodes (n.below t))
    have hn := numbered hlevel.2 hmem
    exact leveled_opened hm hsites hlevel.2 ⟨nofun, trivial⟩ (awaits_nodes _ hn)
  | noPass ht hm =>
    obtain ⟨hleave, -, -⟩ := pending_loop ht
    exact same hm ((level_cons hleave).1 hlevel).2.dropped
  | @pass n t u ht hu hm =>
    obtain ⟨hloop, hanchor⟩ := hfits _ ht
    exact same hm (level_pass hloop hanchor ht hu hlevel)
  | @lastPass n t ht hm =>
    obtain ⟨hleave, -, hpending⟩ := pending_loop ht
    have hrest := ((level_cons hleave).1 hlevel).2
    rw [hpending] at hrest
    exact same hm ⟨trivial, hrest⟩
  | @fetched n root href url d hload hroot hm =>
    have ha : Site.Awaits s.uri (.fresh root) root.nodes :=
      awaits_nodes root (numbered_fetched hparsed hload hroot)
    exact ⟨_, _, hm.trans (congrArg (_ :: ·) hsites), trivial, trivial,
      ha.sublist (List.append_nil _ ▸ .refl _), site, outer, rfl,
      hlevel.2.dropped⟩
  | @invoked n body hm =>
    exact same hm (hlevel.2.replaced [.contents true body, .close n]
      (by simp [Task.Proper]) (by simp [Task.pending]))
  | @replaced source is i hi _ hm =>
    exact leveled_opened hm hsites hlevel.2 ⟨nofun, trivial⟩
      (awaits_nodes i.node (hlevel.1 i hi))
  | @copied source is e _ _ hm =>
    have hsent : Level s.uri (.send (.stop (.ofElement e)) :: rest) [] site
        outer := ⟨trivial, hlevel.2⟩
    exact leveled_opened hm hsites hsent ⟨nofun, hlevel.1⟩
      (awaits_nothing source)
  | copyNext hm => exact same hm ⟨hlevel.1, hlevel⟩
  | leave hm => exact leveled_leave hsites hlevel hm
  | _ => exact same ‹SameSites m m'› hlevel.2.dropped

theorem level_step {c : Progress σ} (htraced : Traced s c)
    (hlevel : Leveled s.uri c.machine c.work)
    (hstop : (step s c).stop = none) :
    Leveled s.uri (step s c).machine (step s c).work := by
  obtain ⟨-, ⟨-, hidle⟩ | ⟨t, rest, ts, m', es, hwork, -, hnext, -, hleads⟩⟩ :=
    step_running hstop
  · rw [hidle]
    exact hlevel
  · obtain ⟨site, outer, hsites, hlevel⟩ := hlevel
    obtain ⟨a, as, has, hanchored⟩ := htraced.anchored
    rw [hwork] at hlevel hanchored
    have hanchor : site.anchor = a := by
      unfold Scopes.anchors at has
      rw [hsites] at has
      exact (List.cons.inj has).1
    rw [hnext]
    refine level_leads hleads htraced.parsed hsites (fun n hn => ?_) hlevel
    rw [hanchor]
    exact (fits_loop hn).1 ((anchored_loop hn).1 hanchored).1

-- ==================================================================== scopes

/-- The scopes from one on down are still there after a step that does not leave
it, and that one holds its macros. -/
theorem sites_forward {front : List Site} (h : Leads s m m' t ts es)
    (hsites : m.scopes.sites = front ++ site :: outer)
    (hdepth : outer.length < m'.scopes.sites.length) :
    ∃ front' site', m'.scopes.sites = front' ++ site' :: outer
      ∧ site.macros ⊆ site'.macros := by
  rcases sites_leads h with ⟨anchors, hm⟩ | ⟨_, n, -, hm⟩ | hm
  · rw [hm, hsites, ← List.append_assoc]
    exact ⟨_, site, rfl, List.Subset.refl _⟩
  · obtain ⟨added, hadded, -⟩ := sites_defineAll hm
    rw [hadded]
    cases front with
    | nil =>
      obtain ⟨rfl, rfl⟩ := List.cons.inj hsites
      exact ⟨[], _, rfl, List.subset_append_right _ _⟩
    | cons first front =>
      obtain ⟨-, houter⟩ := List.cons.inj hsites
      rw [houter]
      exact ⟨_ :: front, site, rfl, List.Subset.refl _⟩
  -- if one is left, it lies inside of this one, which is too deep to be left
  · rw [hm] at hdepth ⊢
    rcases pop_cases m.scopes with hpop | ⟨hlast, -⟩
    · cases front with
      | nil =>
        rw [hsites] at hpop
        rw [← (List.cons.inj hpop).2] at hdepth
        exact absurd hdepth (Nat.lt_irrefl _)
      | cons first front =>
        exact ⟨front, site, (List.cons.inj (hpop.symm.trans hsites)).2,
          List.Subset.refl _⟩
    · rw [hlast]
      exact ⟨front, site, hsites, List.Subset.refl _⟩

/-- A macro that a scope holds after a step it held before, or the macro is
among contents that are next to be processed in that scope. -/
theorem sites_backward {front : List Site} (h : Leads s m m' t ts es)
    (hsites : m'.scopes.sites = front ++ site :: outer) {x : String × Node}
    (hx : x ∈ site.macros) :
    (∃ front' site', m.scopes.sites = front' ++ site' :: outer
        ∧ x ∈ site'.macros)
      ∨ ∃ trim n, t = .contents trim n ∧ x.2 ∈ n.children
        ∧ m.scopes.sites.length = outer.length + 1 := by
  -- a scope that has macros is no new one, so it was there before, perhaps
  -- without those that this step defines
  rcases sites_leads h with ⟨anchors, hm⟩ | ⟨trim, n, ht, hm⟩ | hm
  · rw [hm] at hsites
    refine .inl ?_
    rcases List.append_eq_append_iff.1 hsites with
      ⟨fronts, -, hrest⟩ | ⟨fronts, hfresh, hrest⟩
    · exact ⟨fronts, site, hrest, hx⟩
    · cases fronts with
      | nil => exact ⟨[], site, hrest.symm, hx⟩
      | cons first fronts =>
        obtain ⟨rfl, -⟩ := List.cons.inj hrest
        have hmem : site ∈ anchors.map Site.fresh :=
          hfresh ▸ List.mem_append_right _ List.mem_cons_self
        obtain ⟨anchor, -, rfl⟩ := List.mem_map.1 hmem
        exact absurd hx List.not_mem_nil
  · obtain ⟨added, hadded, hdefined, -⟩ := sites_defineAll hm
    rw [hadded] at hsites
    cases front with
    | nil =>
      obtain ⟨rfl, rfl⟩ := List.cons.inj hsites
      rcases List.mem_append.1 hx with hx | hx
      · exact .inr ⟨trim, n, ht, (hdefined x hx).1, rfl⟩
      · exact .inl ⟨[], m.scopes.current.site, rfl, hx⟩
    | cons first front =>
      obtain ⟨-, houter⟩ := List.cons.inj hsites
      refine .inl ⟨m.scopes.current.site :: front, site, ?_, hx⟩
      exact congrArg (m.scopes.current.site :: ·) houter
  · rw [hm] at hsites
    refine .inl ?_
    rcases pop_cases m.scopes with hpop | ⟨hlast, -⟩
    · exact ⟨m.scopes.current.site :: front, site,
        hpop.trans (congrArg _ hsites), hx⟩
    · rw [hlast] at hsites
      exact ⟨front, site, hsites, hx⟩

end

-- ====================================================================== runs

section

variable {s : Settings σ} {n : Node} {m : Machine σ}

/-- How many scopes are open after so many steps. -/
def depthAt (s : Settings σ) (n : Node) (m : Machine σ) (k : Nat) : Nat :=
  (progress s n m k).machine.scopes.depth

/-- The scope that is innermost after `j` steps is so after `k` steps, and was
not left in between. -/
def SameScope (s : Settings σ) (n : Node) (m : Machine σ) (j k : Nat) : Prop :=
  depthAt s n m j = depthAt s n m k
    ∧ ∀ i, j ≤ i → i ≤ k → depthAt s n m j ≤ depthAt s n m i

/-- The contents of a node are next to be processed after so many steps. -/
def ProcessedAt (s : Settings σ) (n : Node) (m : Machine σ) (k : Nat)
    (parent : Node) : Prop :=
  ∃ trim rest, (progress s n m k).work = .contents trim parent :: rest

theorem length_sites (scopes : Scopes) : scopes.sites.length = scopes.depth :=
  List.length_map _

/-- What macros a scope holds, it holds from contents that were processed while
it was innermost, and it was not left since. -/
theorem processed_of_macros
    (hmacros : ∀ site ∈ m.scopes.sites, site.macros = []) (k : Nat)
    (hstop : (progress s n m k).stop = none) {front outer : List Site}
    {site : Site}
    (hsites : (progress s n m k).machine.scopes.sites = front ++ site :: outer)
    {x : String × Node} (hx : x ∈ site.macros) :
    ∃ j < k, ∃ parent, ProcessedAt s n m j parent ∧ x.2 ∈ parent.children
      ∧ depthAt s n m j = outer.length + 1
      ∧ ∀ i, j ≤ i → i ≤ k → outer.length + 1 ≤ depthAt s n m i := by
  induction k generalizing front site with
  | zero =>
    have hmem : site ∈ m.scopes.sites :=
      hsites ▸ List.mem_append_right _ List.mem_cons_self
    rw [hmacros site hmem] at hx
    cases hx
  | succ k ih =>
    have hdepth : outer.length + 1 ≤ depthAt s n m (k + 1) := by
      unfold depthAt
      rw [← length_sites, hsites, List.length_append, List.length_cons]
      omega
    -- what is so before the last step is so behind it, as the scope is still
    -- open
    have later {front : List Site} {site : Site}
        (hstop : (progress s n m k).stop = none)
        (hsites : (progress s n m k).machine.scopes.sites
          = front ++ site :: outer) (hx : x ∈ site.macros) :
        ∃ j < k + 1, ∃ parent, ProcessedAt s n m j parent
          ∧ x.2 ∈ parent.children ∧ depthAt s n m j = outer.length + 1
          ∧ ∀ i, j ≤ i → i ≤ k + 1 → outer.length + 1 ≤ depthAt s n m i := by
      obtain ⟨j, hj, parent, hprocessed, hchild, hj', hopen⟩ :=
        ih hstop hsites hx
      refine ⟨j, Nat.lt_succ_of_lt hj, parent, hprocessed, hchild, hj',
        fun i hji hik => ?_⟩
      rcases Nat.le_succ_iff.1 hik with hik | rfl
      · exact hopen i hji hik
      · exact hdepth
    rw [progress_succ] at hsites hstop
    obtain ⟨hnone, ⟨-, hidle⟩
      | ⟨t, rest, ts, m', es, hwork, -, hnext, -, hleads⟩⟩ := step_running hstop
    · rw [hidle] at hsites
      exact later hnone hsites hx
    · rw [hnext] at hsites
      rcases sites_backward hleads hsites hx with
        ⟨front', site', hbefore, hx'⟩ | ⟨trim, parent, rfl, hchild, hlength⟩
      · exact later hnone hbefore hx'
      · rw [length_sites] at hlength
        refine ⟨k, Nat.lt_succ_self k, parent, ⟨trim, rest, hwork⟩, hchild,
          hlength, fun i hki hik => ?_⟩
        rcases Nat.le_succ_iff.1 hik with hik | rfl
        · rw [Nat.le_antisymm hik hki]
          exact hlength.ge
        · exact hdepth

/-- The macros of a scope stay as long as it is not left. -/
theorem macros_stay {j k : Nat} (hjk : j ≤ k)
    (hstop : (progress s n m k).stop = none) {site : Site} {outer : List Site}
    (hsites : (progress s n m j).machine.scopes.sites = site :: outer)
    (hopen : ∀ i, j ≤ i → i ≤ k → outer.length + 1 ≤ depthAt s n m i) :
    ∃ front site', (progress s n m k).machine.scopes.sites
      = front ++ site' :: outer ∧ site.macros ⊆ site'.macros := by
  induction k, hjk using Nat.le_induction with
  | base => exact ⟨[], site, hsites, List.Subset.refl _⟩
  | succ k hjk ih =>
    have hdepth := hopen (k + 1) (Nat.le_succ_of_le hjk) (Nat.le_refl _)
    unfold depthAt at hdepth
    rw [progress_succ] at hstop hdepth ⊢
    obtain ⟨hnone, hstep⟩ := step_running hstop
    obtain ⟨front, site', hsites', hmacros⟩ :=
      ih hnone fun i hji hik => hopen i hji (Nat.le_succ_of_le hik)
    rcases hstep with ⟨-, hidle⟩
      | ⟨t, rest, ts, m', es, -, -, hnext, -, hleads⟩
    · rw [hidle]
      exact ⟨front, site', hsites', hmacros⟩
    · rw [hnext] at hdepth ⊢
      rw [← length_sites] at hdepth
      obtain ⟨front', site'', hsites'', hmore⟩ :=
        sites_forward hleads hsites' hdepth
      exact ⟨front', site'', hsites'', List.Subset.trans hmacros hmore⟩

/-- A macro whose name is taken is found at once, if none stands before it. -/
theorem defineAll_taken {before behind : List Node} {child body : Node}
    (hbefore : ∀ x ∈ before, Directive.ofNode? s.uri x ≠ some .definition)
    (hchild : Directive.ofNode? s.uri child = some .definition)
    (hvalid : Expr.isValidName ((child.attribute? "name").getD ""))
    (hbody : ((child.attribute? "name").getD "", body)
      ∈ m.scopes.current.macros) :
    defineAll s (before ++ child :: behind) m
      = .error (.failed (.about child
        (.scope (.duplicateMacro ((child.attribute? "name").getD ""))))) m := by
  induction before with
  | nil =>
    have hdefine : define child m = .error (.failed (.about child
        (.scope (.duplicateMacro ((child.attribute? "name").getD ""))))) m := by
      unfold define
      rw [if_pos hvalid]
      unfold onScope Scopes.define Scopes.onCurrent Scope.define
      dsimp only
      cases hlookup :
          m.scopes.current.macros.lookup ((child.attribute? "name").getD "") with
      | some other => rfl
      | none =>
        have differs := List.lookup_eq_none_iff.1 hlookup _ hbody
        rw [bne_self_eq_false] at differs
        cases differs
    rw [List.nil_append, defineAll, if_pos hchild]
    exact bind_error hdefine
  | cons x before ih =>
    obtain ⟨hx, hbefore⟩ := List.forall_mem_cons.1 hbefore
    rw [List.cons_append, defineAll, if_neg hx]
    exact ih hbefore

/-- A step that finds a macro to be defined twice processes contents. -/
theorem exists_redefined {c : Progress σ} (htraced : Traced s c)
    (hstop : c.stop = none) {d : Diagnostic} {name : String}
    (hd : (step s c).stop = some (.failed d))
    (hreason : d.reason = .scope (.duplicateMacro name)) :
    ∃ trim parent rest before behind child body,
      c.work = .contents trim parent :: rest
      ∧ parent.children = before ++ child :: behind
      ∧ Defines s.uri child name ∧ d.node = some child
      ∧ ((name, body) ∈ c.machine.scopes.current.macros
        ∨ body ∈ before ∧ Defines s.uri body name) := by
  obtain ⟨work, stop, machine⟩ := c
  cases hstop
  cases work with
  | nil => cases hd
  | cons t rest =>
    obtain ⟨m', hexpand⟩ := exists_of_stopped hd
    -- of all that is blamed only a macro that is defined twice has this
    -- reason
    cases accuses_expand htraced.proper t d m' hexpand with
    | plain h =>
      rw [hreason] at h
      cases h
    | read => cases hreason
    | twice h =>
      cases hreason
      obtain ⟨trim, parent, before, behind, rfl, hchildren, hchild, body,
        hbody⟩ := h
      exact ⟨trim, parent, rest, before, behind, _, body, rfl, hchildren,
        hchild, rfl, hbody⟩

theorem parent_unique {p q c : Node} (hp : c ∈ p.children)
    (hq : c ∈ q.children) : p = q := by
  obtain ⟨t, -, rfl⟩ := List.mem_map.1 hp
  obtain ⟨u, -, hu⟩ := List.mem_map.1 hq
  obtain ⟨origin, tree, trail⟩ := p
  obtain ⟨origin', tree', trail'⟩ := q
  cases hu
  rfl

theorem id_of_same {a b : Node} (h : a.same b = true) : a.id = b.id :=
  eq_of_beq (Bool.and_eq_true_iff.1 h).2

theorem running_of_le {j k : Nat} (hjk : j ≤ k)
    (hstop : (progress s n m k).stop = none) :
    (progress s n m j).stop = none := by
  induction k, hjk using Nat.le_induction with
  | base => exact hstop
  | succ k _ ih =>
    rw [progress_succ] at hstop
    exact ih (step_running hstop).1

/-- Where contents with a macro among them are processed again in a scope, that
macro is always found to be defined twice. -/
theorem processed_again {j k : Nat} (hjk : j < k) (hsame : SameScope s n m j k)
    (hstop : (progress s n m k).stop = none) {parent : Node}
    (hj : ProcessedAt s n m j parent) (hk : ProcessedAt s n m k parent)
    {before behind : List Node} {child : Node}
    (hchildren : parent.children = before ++ child :: behind)
    (hbefore : ∀ x ∈ before, Directive.ofNode? s.uri x ≠ some .definition)
    (hchild : Directive.ofNode? s.uri child = some .definition) :
    (progress s n m (k + 1)).stop = some (.failed (.about child (.scope
      (.duplicateMacro ((child.attribute? "name").getD ""))))) := by
  have hmem : child ∈ parent.children :=
    hchildren ▸ List.mem_append_right _ List.mem_cons_self
  obtain ⟨trim, rest, hwork⟩ := hj
  have hnext := running_of_le (j := j + 1) hjk hstop
  rw [progress_succ] at hnext
  obtain ⟨-, ⟨hempty, -⟩
    | ⟨t, rest', ts, m', es, hwork', hexpand, hstep, -, -⟩⟩ := step_running hnext
  · rw [hwork] at hempty
    cases hempty
  · rw [hwork] at hwork'
    cases hwork'
    obtain ⟨_, m₁, hdefined, hrest⟩ := exists_of_bind_ok hexpand
    cases hrest
    -- when the children were gone through at first, the macro was put into the
    -- scope
    obtain ⟨added, hadded, -, hall⟩ := sites_defineAll hdefined
    obtain ⟨hvalid, hnamed⟩ := hall child hmem hchild
    have hmachine : (progress s n m (j + 1)).machine = m' := by
      rw [progress_succ, hstep]
    rw [← hmachine] at hadded
    have hdepth : depthAt s n m j
        = ((progress s n m j).machine.scopes.outer.map Scope.site).length + 1 := by
      unfold depthAt
      rw [← length_sites]
      rfl
    -- as long as that scope is open it stays there
    obtain ⟨front, site, hsites, hmacros⟩ := macros_stay hjk hstop hadded
      fun i hji hik => hdepth ▸ hsame.2 i (Nat.le_of_succ_le hji) hik
    -- the scopes are as deep as then, so it is the innermost one
    have hfront : front = [] := by
      have hlength := congrArg List.length hsites
      rw [length_sites, ← depthAt, ← hsame.1, hdepth, List.length_append,
        List.length_cons] at hlength
      exact List.eq_nil_of_length_eq_zero (by omega)
    subst hfront
    have hknown : ((child.attribute? "name").getD "", child)
        ∈ (progress s n m k).machine.scopes.current.macros := by
      have hcurrent : (progress s n m k).machine.scopes.current.macros
          = site.macros := congrArg Site.macros (List.cons.inj hsites).1
      rw [hcurrent]
      exact hmacros (List.mem_append_left _ hnamed)
    have htaken : defineAll s (before ++ child :: behind)
        (progress s n m k).machine = _ :=
      defineAll_taken hbefore hchild hvalid hknown
    rw [← hchildren] at htaken
    obtain ⟨trim', rest', hwork'⟩ := hk
    rw [progress_succ]
    generalize progress s n m k = c at hstop hwork' htaken
    obtain ⟨work, stop, machine⟩ := c
    cases hwork'
    cases hstop
    rw [step_error (bind_error htaken)]

variable (htop : IsTop n) (hnumbered : n.tree.Numbered)
  (hanchor : m.scopes.current.anchor = n)
  (hmacros : ∀ site ∈ m.scopes.sites, site.macros = [])
  (hdiscreet : ∀ site ∈ m.scopes.sites, ∀ x ∈ site.libraries, x.2.Discreet)
  (houter : m.scopes.outer = []) (hparsed : AllParsed m.cache)

include htop hanchor hmacros hdiscreet hparsed

theorem traced_at (k : Nat) (hstop : (progress s n m k).stop = none) :
    Traced s (progress s n m k) := by
  refine traced_progress htop hanchor (fun site hsite => ⟨?_, ?_⟩) hparsed k hstop
  · rw [hmacros site hsite]
    exact nofun
  · exact hdiscreet site hsite

include hnumbered houter

theorem level_at (k : Nat) (hstop : (progress s n m k).stop = none) :
    Leveled s.uri (progress s n m k).machine (progress s n m k).work := by
  induction k with
  | zero =>
    refine ⟨m.scopes.current.site, m.scopes.outer.map Scope.site, rfl,
      trivial, ?_, by rw [houter]; rfl⟩
    have hnone : m.scopes.current.site.macros = [] :=
      hmacros _ List.mem_cons_self
    refine ⟨?_, fun _ => ⟨nodup_nodes hnumbered, ?_⟩⟩
    · rw [hnone]
      exact regular_nodes hnumbered
    · rw [hnone]
      exact nofun
  | succ k ih =>
    rw [progress_succ] at hstop ⊢
    have hnone := (step_running hstop).1
    exact level_step (traced_at htop hanchor hmacros hdiscreet hparsed k hnone)
      (ih hnone) hstop

/-- That a macro is defined twice is found of two different elements in one
scope, or where contents are processed again in a scope, that of a loop. -/
theorem redefined (k : Nat) (hstop : (progress s n m k).stop = none)
    {d : Diagnostic} {name : String}
    (hd : (progress s n m (k + 1)).stop = some (.failed d))
    (hreason : d.reason = .scope (.duplicateMacro name)) :
    ∃ parent child, ProcessedAt s n m k parent ∧ child ∈ parent.children
      ∧ Defines s.uri child name ∧ d.node = some child
      ∧ ((∃ body, body.same child = false ∧ Defines s.uri body name
          ∧ (body ∈ parent.children
            ∨ (name, body) ∈ (progress s n m k).machine.scopes.current.macros))
        ∨ (∃ j < k, SameScope s n m j k ∧ ProcessedAt s n m j parent)
          ∧ Directive.ofNode? s.uri
              (progress s n m k).machine.scopes.current.anchor
            = some .loop) := by
  have traced := traced_at htop hanchor hmacros hdiscreet hparsed k hstop
  rw [progress_succ] at hd
  obtain ⟨trim, parent, rest, before, behind, child, body, hwork, hchildren,
    hchild, hnode, hbody⟩ := exists_redefined traced hstop hd hreason
  have hmem : child ∈ parent.children :=
    hchildren ▸ List.mem_append_right _ List.mem_cons_self
  obtain ⟨site, outer, hsites, hlevel⟩ :=
    level_at htop hnumbered hanchor hmacros hdiscreet houter hparsed k hstop
  rw [hwork] at hlevel
  have awaits : site.Awaits s.uri parent.nodes := hlevel.2.awaits
  have hparent : Node.children parent ⊆ parent.nodes :=
    Node.children_subset (mem_nodes parent)
  refine ⟨parent, child, ⟨trim, rest, hwork⟩, hmem, hchild, hnode, ?_⟩
  -- the other macro was there before, or stands in front among the children
  rcases hbody with hbody | ⟨hbefore, hdefines⟩
  · have hmacro : (name, body) ∈ site.macros :=
      congrArg Site.macros (List.cons.inj hsites).1 ▸ hbody
    have hcurrent : (progress s n m k).machine.scopes.current.anchor
        = site.anchor := congrArg Site.anchor (List.cons.inj hsites).1
    cases hsame : body.same child with
    | false =>
      have hdefines := (traced.proper _ List.mem_cons_self).definitions _ hbody
      exact .inl ⟨body, hsame, hdefines, .inr hbody⟩
    | true =>
      obtain rfl : body = child := awaits.regular.apart body
        (List.mem_append_left _ (List.mem_map_of_mem hmacro)) child
        (List.mem_append_right _ (hparent hmem)) (id_of_same hsame)
      -- the same node: it got there when the children were gone through
      -- before, in the scope of a loop, as elsewhere this is done once
      have earlier := processed_of_macros hmacros k hstop
        (hsites.trans (List.nil_append _).symm) hmacro
      obtain ⟨j, hj, parent', hprocessed, hchild', hdepth, hopen⟩ := earlier
      obtain rfl := parent_unique hchild' hmem
      refine .inr ⟨⟨j, hj, ⟨?_, hdepth ▸ hopen⟩, hprocessed⟩, ?_⟩
      · rw [hdepth, depthAt, ← length_sites, hsites]
        rfl
      · rw [hcurrent]
        by_contra hloop
        obtain ⟨p, hp, hns⟩ := (awaits.once hloop).2 _ hmacro
        obtain rfl := parent_unique hp hmem
        exact hns (mem_nodes p)
  · refine .inl ⟨body, Bool.eq_false_iff.2 fun hsame => ?_, hdefines,
      .inl (hchildren ▸ List.mem_append_left _ hbefore)⟩
    have hids : (parent.children.map Node.id).Nodup := by
      rw [parent.map_id_children]
      have hn := awaits.regular.numbered parent
        (List.mem_append_right _ (mem_nodes parent))
      exact hn.increasing.imp Nat.ne_of_lt
    rw [hchildren, List.map_append, List.map_cons] at hids
    refine (List.nodup_append.1 hids).2.2 _ (List.mem_map_of_mem hbefore) _
      List.mem_cons_self (id_of_same hsame)

/-- In processing a template from a scope that holds no macros, a macro is found
to be defined twice only if another element of its name is among the same
contents or was defined in the same scope, or if the same contents are processed
again in the scope of a loop. If they are, the first macro among them always is
found to be defined twice. -/
theorem macros_defined_twice (hnesting : m.nesting = 0) :
    (∀ k d name, (progress s n m k).stop = none →
      (progress s n m (k + 1)).stop = some (.failed d) →
      d.reason = .scope (.duplicateMacro name) →
      ∃ parent child, ProcessedAt s n m k parent ∧ child ∈ parent.children
        ∧ Defines s.uri child name ∧ d.node = some child
        ∧ ((∃ body, body.same child = false ∧ Defines s.uri body name
            ∧ (body ∈ parent.children
              ∨ (name, body) ∈ (progress s n m k).machine.scopes.current.macros))
          ∨ (∃ j < k, SameScope s n m j k ∧ ProcessedAt s n m j parent)
            ∧ Directive.ofNode? s.uri
                (progress s n m k).machine.scopes.current.anchor
              = some .loop))
    ∧ (∀ j k parent, j < k → SameScope s n m j k → ProcessedAt s n m j parent →
      ProcessedAt s n m k parent → (progress s n m k).stop = none →
      ∀ before child behind, parent.children = before ++ child :: behind →
      (∀ x ∈ before, Directive.ofNode? s.uri x ≠ some .definition) →
      Directive.ofNode? s.uri child = some .definition →
      (progress s n m (k + 1)).stop = some (.failed (.about child (.scope
        (.duplicateMacro ((child.attribute? "name").getD ""))))))
    ∧ ∀ p, (∃ k, (progress s n m k).work = []
        ∧ (progress s n m k).stop ≠ some .unfinished
        ∧ process { s with passes := p } n m = (progress s n m k).result)
      ∨ (∃ m', process { s with passes := p } n m = .error .unfinished m')
        ∧ ∃ k, (progress s n m k).Floating s := by
  refine ⟨fun k d name hstop hd hreason => ?_,
    fun j k parent hjk hsame hj hk hstop before child behind hchildren hbefore
      hchild => ?_, process_simulated s n hnesting⟩
  · exact redefined htop hnumbered hanchor hmacros hdiscreet houter hparsed k
      hstop hd hreason
  · exact processed_again hjk hsame hstop hj hk hchildren hbefore hchild

end

/-- A loop of two passes with a macro in it. -/
def looping : Tree :=
  directive 2 "for" [⟨.ofText "from", none, "0"⟩, ⟨.ofText "to", none, "2"⟩]
    [directive 3 "macro" [⟨.ofText "name", none, "m"⟩] []]

def looped : Node := ⟨.given 0, directive 1 "template" [] [looping], []⟩

def idle (n : Node) : Machine Unit :=
  ⟨.single (.fresh n none), 0, .empty, ()⟩

/-- The second pass comes to the contents of the loop again. -/
theorem macros_defined_twice_looped :
    let c := progress vacant looped (idle looped)
    (∃ child, (c 10).stop
        = some (.failed (.about child (.scope (.duplicateMacro "m")))))
      ∧ ∃ parent child, ProcessedAt vacant looped (idle looped) 9 parent
        ∧ child ∈ parent.children ∧ Defines "x" child "m" := by
  intro c
  obtain ⟨told, again, -⟩ := macros_defined_twice (s := vacant) (n := looped)
    (m := idle looped) nofun (by unfold Tree.Numbered; decide) rfl
    (List.forall_mem_singleton.2 rfl) (List.forall_mem_singleton.2 nofun) rfl
    nofun rfl
  have hfirst : ProcessedAt vacant looped (idle looped) 5
      (looped.below looping) := ⟨true, _, by with_unfolding_all rfl⟩
  have hsecond : ProcessedAt vacant looped (idle looped) 9
      (looped.below looping) := ⟨true, _, by with_unfolding_all rfl⟩
  have hrunning : (c 9).stop = none := by with_unfolding_all rfl
  have hsame : SameScope vacant looped (idle looped) 5 9 := by
    refine ⟨by decide +kernel, fun i hi hi' => ?_⟩
    have hall : ∀ i < 10, 5 ≤ i → depthAt vacant looped (idle looped) 5
        ≤ depthAt vacant looped (idle looped) i := by decide +kernel
    exact hall i (Nat.lt_succ_of_le hi') hi
  have hstop := again 5 9 _ (by decide) hsame hfirst hsecond hrunning [] _ []
    rfl nofun (by decide +kernel)
  obtain ⟨parent, child, hparent, hchild, hdefines, -⟩ :=
    told 9 _ "m" hrunning hstop rfl
  exact ⟨⟨_, hstop⟩, parent, child, hparent, hchild, hdefines⟩

/-- A single macro element, but a loop that comes to it twice: it is found to be
defined twice. -/
theorem single_macro_redefined :
    (looped.nodes.filter fun n =>
        Directive.ofNode? "x" n = some .definition).length = 1
      ∧ (fault? (process vacant looped (idle looped))).map (·.reason)
        = some (.scope (.duplicateMacro "m")) := by
  decide +kernel

end Stencil.Template
