/-
Processors that share a cache.

A caller sees of a run what is written, and what is reported if it stops. That
is the same whatever the cache held before, if a source has filled it. Loads,
runs and clearing leave caches that the source has filled, whichever processors
of the source they are for; so it makes no difference to a processor what the
cache that it shares is used for.

The processors themselves may have been loaded by way of a cache. From two
caches that the source has filled come processors that cannot be told apart
(`Processor.builtAlike_load`).
-/
import Stencil.Proofs.Template.Processors
import Stencil.Proofs.Template.Transparency

namespace Stencil.Template

open Loading (Cache Source)
open Markup (Document Node Origin)
open Output (Sink)

-- ================================================================= endings

/-- What is reported of a stop; of a run that is out of passes there is
nothing to report. -/
def Stop.report? : Stop → Option Diagnostic.Report
  | .failed d => some d.report
  | .unfinished => none

theorem Stop.Alike.report? {source : Source} {e e' : Stop}
    (h : e.Alike (copies source) e') : e.report? = e'.report? := by
  cases h with
  | failed hd => exact congrArg some hd.report
  | unfinished => rfl

namespace Processor

variable {σ : Type}

/-- What a caller sees of a run: what is written, and what is reported if it
stops. -/
def Ending.seen (ending : Ending σ) : σ × Option (Option Diagnostic.Report) :=
  (ending.output, ending.stop.map Stop.report?)

theorem Ending.Alike.seen {source : Source} {e e' : Ending σ}
    (h : e.Alike (copies source) e') : e.seen = e'.seen := by
  unfold Ending.seen
  rw [h.output]
  have hstop := h.stop
  generalize e.stop = stop at hstop ⊢
  generalize e'.stop = stop' at hstop ⊢
  cases hstop with
  | none => rfl
  | some hs => rw [Option.map_some, Option.map_some, hs.report?]

/-- Runs of two processors are seen alike, into whatever sink, and as the
templates ask. -/
structure SameRuns (p p' : Processor) : Prop where
  runInto {σ : Type} (sink : Sink σ) (start : σ) :
    (p.runInto sink start).seen = (p'.runInto sink start).seen
  render (room : Option Nat) : (p.render room).seen = (p'.render room).seen

namespace Alike

variable {source : Source} {p p' : Processor}

/-- Runs of alike processors are seen alike, and leave caches that the source
has filled. -/
theorem seen_runInto (h : p.Alike (copies source) p') (sink : Sink σ)
    (start : σ) :
    (p.runInto sink start).seen = (p'.runInto sink start).seen
      ∧ (p.runInto sink start).cache.Filled source := by
  have hend := h.runInto sink start
  exact ⟨hend.seen, hend.cache.1⟩

theorem seen_render (h : p.Alike (copies source) p') (room : Option Nat) :
    (p.render room).seen = (p'.render room).seen
      ∧ (p.render room).cache.Filled source := by
  have hend := h.render room
  exact ⟨hend.seen, hend.cache.1⟩

theorem sameRuns (h : p.Alike (copies source) p') : p.SameRuns p' :=
  ⟨fun sink start => (h.seen_runInto sink start).1,
    fun room => (h.seen_render room).1⟩

end Alike

-- ======================================================== loaded and set up

/-- Alike processors, or the same diagnostic of none. -/
inductive BuiltAlike (source : Source) :
    Except Diagnostic Processor → Except Diagnostic Processor → Prop
  | ok {p p' : Processor} (h : p.Alike (copies source) p') :
    BuiltAlike source (.ok p) (.ok p')
  | error (reason : Reason) :
    BuiltAlike source (.error (.general reason)) (.error (.general reason))

/-- From caches that a source has filled come alike processors. -/
theorem builtAlike_load {source : Source} {cache cache' : Cache}
    (hcache : cache.Filled source) (hcache' : cache'.Filled source) {url : Url}
    (hurl : url.Sound) :
    BuiltAlike source (load source cache url) (load source cache' url) := by
  have hloaded := loadedAlike_load hcache hcache' hurl
  -- both caches stay filled, so they hold the same documents afterwards too
  have hleft := hcache.load hurl
  have hleft' := hcache'.load hurl
  unfold Processor.load
  generalize Loading.load source cache url = r at hloaded hleft ⊢
  generalize Loading.load source cache' url = r' at hloaded hleft' ⊢
  obtain ⟨d, left⟩ := r
  obtain ⟨d', left'⟩ := r'
  cases hloaded with
  | error e => exact .error _
  | @ok d d' hroot =>
    dsimp only [ofDocument]
    generalize d.rootElement? = root? at hroot ⊢
    generalize d'.rootElement? = root?' at hroot ⊢
    cases hroot with
    | none => exact .error _
    | some hroot =>
      have hscope : (Scope.fresh _ (some url)).Alike (copies source)
          (.fresh _ (some url)) :=
        ⟨hroot, rfl, .nil, rfl, rfl, fun b hb => Option.some.inj hb ▸ hurl⟩
      exact .ok ⟨hroot, hscope, rfl, rfl, ⟨hleft, hleft'⟩,
        serves_copies _ source⟩

/-- Alike processors stay so when the same names are bound. -/
theorem Alike.onScope {source : Source} {p p' : Processor}
    (h : p.Alike (copies source) p') {f : Scope → Except ScopeError Scope}
    (hf : ∀ scope scope', scope.Alike (copies source) scope' →
      Changed (Scope.Alike (copies source)) (f scope) (f scope')) :
    BuiltAlike source (p.onScope f) (p'.onScope f) := by
  have hchanged := hf _ _ h.scope
  unfold Processor.onScope
  generalize f p.scope = changed at hchanged ⊢
  generalize f p'.scope = changed' at hchanged ⊢
  cases hchanged with
  | ok hscope =>
    exact .ok ⟨h.root, hscope, h.options, h.source, h.cache, h.serves⟩
  | error e => exact .error _

-- ================================================================ one cache

/-- The address that references are relative to, if there is one, is sound, as
every address is that arises (`Url.Arises.sound`). -/
def Based (p : Processor) : Prop := ∀ b ∈ p.url?, b.Sound

/-- A processor that shares a cache. -/
def withCache (p : Processor) (cache : Cache) : Processor :=
  { p with cache := cache }

variable {p : Processor}

theorem Based.scope (h : p.Based) :
    p.scope.Alike (copies p.source) p.scope :=
  p.scope.alike_same h

theorem Based.alike (h : p.Based) {cache cache' : Cache}
    (hcache : cache.Filled p.source) (hcache' : cache'.Filled p.source) :
    (p.withCache cache).Alike (copies p.source) (p.withCache cache') :=
  ⟨.refl (fun _ => trivial) _, h.scope, rfl, rfl, ⟨hcache, hcache'⟩,
    serves_copies _ p.source⟩

/-- What comes of a cache when it is used: by loads from a source, by runs of
processors of the source, or when it is cleared. -/
inductive Used (source : Source) (cache : Cache) : Cache → Prop
  | unused : Used source cache cache
  | loaded {left : Cache} {url : Url} (h : Used source cache left)
    (hurl : url.Sound) : Used source cache (Loading.load source left url).2
  | run {σ : Type} {left : Cache} (h : Used source cache left) (q : Processor)
    (hq : q.source = source) (hbased : q.Based) (sink : Sink σ) (start : σ) :
    Used source cache ((q.withCache left).runInto sink start).cache
  | rendered {left : Cache} (h : Used source cache left) (q : Processor)
    (hq : q.source = source) (hbased : q.Based) (room : Option Nat) :
    Used source cache ((q.withCache left).render room).cache
  | cleared {left : Cache} (h : Used source cache left) :
    Used source cache left.clear

/-- A cache that a source has filled stays one, whatever it is used for. -/
theorem Used.filled {source : Source} {cache left : Cache}
    (h : Used source cache left) (hcache : cache.Filled source) :
    left.Filled source := by
  induction h with
  | unused => exact hcache
  | loaded _ hurl ih => exact ih.load hurl
  | run _ q hq hbased sink start ih =>
    subst hq
    exact ((hbased.alike ih ih).seen_runInto sink start).2
  | rendered _ q hq hbased room ih =>
    subst hq
    exact ((hbased.alike ih ih).seen_render room).2
  | cleared _ _ => exact Cache.filled_clear source _

/-- It makes no difference to a processor what the cache holds: what is written
and what is reported is the same for any two caches in which every document was
put by an earlier load from its source. So it is the same again after the cache
was used, be it by this processor or by others of the source. -/
theorem sameRuns_of_filled (p : Processor) (hbased : p.Based)
    {cache cache' : Cache} (hcache : cache.Filled p.source)
    (hcache' : cache'.Filled p.source) :
    (p.withCache cache).SameRuns (p.withCache cache')
      ∧ ∀ left, Used p.source cache left →
        (p.withCache cache).SameRuns (p.withCache left) :=
  ⟨(hbased.alike hcache hcache').sameRuns, fun _ hused =>
    (hbased.alike hcache (hused.filled hcache)).sameRuns⟩

/-- A part that pages include. -/
def site : Source := .memory [("mem://t/part.xml", "<part/>")]

def address (name : String) : Url :=
  ⟨"mem", some ⟨"", none, "t", none⟩, .segments [name], none, none⟩

/-- A page with the part in it. -/
def page : Processor :=
  let inclusion : Markup.Tree :=
    .node ⟨2, ⟨1, 7⟩, .element ⟨.ofText "include", some standardUri,
      [⟨.ofText "href", none, "part.xml"⟩], []⟩⟩ []
  let root : Node :=
    ⟨.given 0, .node ⟨1, ⟨1, 1⟩, .element ⟨.ofText "main", none, [], []⟩⟩
      [inclusion], []⟩
  ⟨root, .fresh root (some (address "page.xml")), .standard, site, .empty⟩

/-- The page is written with the part as it is in a cache of a later epoch, as
it is without, and as it is once more. -/
theorem page_sameRuns :
    let stocked := (Loading.load site ⟨3, []⟩ (address "part.xml")).2
    let used := ((page.withCache .empty).render none).cache
    stocked.size = 1
    ∧ (page.withCache .empty).SameRuns (page.withCache stocked)
    ∧ (page.withCache .empty).SameRuns (page.withCache used)
    ∧ ((page.withCache stocked).render none).output.text
      = "<main><part/></main>" := by
  intro stocked used
  have hnone : ∀ b ∈ (none : Option Url), b.Sound := nofun
  have hread {text : String} {url : Url} (h : Url.parse? none text = some url) :
      url.Sound :=
    Url.sound_parse hnone h
  have hpart : Url.parse? none "mem://t/part.xml" = address "part.xml" := by
    decide +kernel
  have hpage : Url.parse? none "mem://t/page.xml" = address "page.xml" := by
    decide +kernel
  have hbased : page.Based := fun b hb => Option.some.inj hb ▸ hread hpage
  have hstocked : stocked.Filled site :=
    (Cache.filled_of_nil rfl).load (hread hpart)
  have hsame := sameRuns_of_filled page hbased (Cache.filled_empty site)
    hstocked
  refine ⟨by decide +kernel, hsame.1, ?_, by decide +kernel⟩
  exact hsame.2 used (.rendered .unused page rfl hbased none)

end Processor

end Stencil.Template
