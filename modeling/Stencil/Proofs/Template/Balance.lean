/-
The output of a run is balanced.

What is sent while something is processed is balanced if all goes well, and
begins something balanced if it does not. So the writer, which has the same
elements open, is never sent an end that does not fit; its destination alone
can make it fail.
-/
import Stencil.Proofs.Output.Balance
import Stencil.Proofs.Template.Oblivious

namespace Stencil.Template

open Markup (Node)
open Output (Event Sink Writer Balanced Beginning ElementName nestAll)

variable {σ : Type}

-- ============================================================ the property

/-- The settings with a sink that keeps a log. -/
def Settings.watched (s : Settings σ) : Settings (List Event × σ) :=
  ⟨s.uri, s.sink.logged, s.source, s.passes⟩

/-- The output shows in `view` what was sent to the sink. -/
def Shows (view : σ → List Event) (sink : Sink σ) : Prop :=
  ∀ o e, view (sink.send o e).1 = view o ++ [e]

/-- A run that ends so added `es` to what was sent `before`: something
balanced, or the beginning of it if the run failed. -/
def Adds (view : σ → List Event) (before es : List Event) :
    EStateM.Result Stop (Machine σ) Unit → Prop
  | .ok _ m => view m.output = before ++ es ∧ Balanced es
  | .error _ m => view m.output = before ++ es ∧ Beginning es

/-- A run that ends so added something. -/
def Grows (view : σ → List Event) (before : List Event)
    (r : EStateM.Result Stop (Machine σ) Unit) : Prop :=
  ∃ es, Adds view before es r

/-- Whatever was sent before, a run adds something balanced. -/
def Emits (view : σ → List Event) (x : Run σ Unit) : Prop :=
  ∀ m, Grows view (view m.output) (x m)

section

variable {view : σ → List Event} {s : Settings σ} {x y : Run σ Unit}

theorem grows_idle (m : Machine σ) : Grows view (view m.output) (.ok () m) :=
  ⟨[], (List.append_nil _).symm, Output.balanced_nil⟩

theorem grows_stopped (e : Stop) (m : Machine σ) :
    Grows view (view m.output) (.error e m) :=
  ⟨[], (List.append_nil _).symm, Output.balanced_nil.beginning⟩

/-- What is added behind something balanced is added to the whole. -/
theorem Adds.behind {before es fs : List Event} (hes : Balanced es)
    {r : EStateM.Result Stop (Machine σ) Unit}
    (h : Adds view (before ++ es) fs r) : Adds view before (es ++ fs) r := by
  cases r with
  | ok _ m =>
    obtain ⟨hview, hfs⟩ := h
    exact ⟨by rw [hview, List.append_assoc], hes.append hfs⟩
  | error _ m =>
    obtain ⟨hview, hfs⟩ := h
    exact ⟨by rw [hview, List.append_assoc], hes.append_beginning hfs⟩

-- =================================================================== steps

theorem emits_skip : Emits view (pure () : Run σ Unit) := grows_idle

theorem emits_throw (e : Stop) : Emits view (throw e : Run σ Unit) :=
  grows_stopped e

theorem emits_seq (hx : Emits view x) (hy : Emits view y) :
    Emits view (x >>= fun _ => y) := by
  intro m
  obtain ⟨es, hadds⟩ := hx m
  refine bind_cases (Grows view _) (fun _ m' h => ?_) fun e m' h => ?_
  · rw [h] at hadds
    obtain ⟨hview, hes⟩ := hadds
    obtain ⟨fs, hadds'⟩ := hy m'
    rw [hview] at hadds'
    exact ⟨es ++ fs, hadds'.behind hes⟩
  · rw [h] at hadds
    exact ⟨es, hadds⟩

/-- A first step that sends nothing. -/
theorem emits_bind {α : Type} {r : Run σ α} {f : α → Run σ Unit}
    (hr : ∀ m, (after r m).output = m.output) (hf : ∀ a, Emits view (f a)) :
    Emits view (r >>= f) := by
  intro m
  have silent := hr m
  refine bind_cases (Grows view _) (fun a m' h => ?_) fun e m' h => ?_
  · rw [after_ok h] at silent
    rw [← silent]
    exact hf a m'
  · rw [after_error h] at silent
    rw [← silent]
    exact grows_stopped e m'

theorem emits_between {enter leave : Machine σ → Machine σ}
    (henter : ∀ m, (enter m).output = m.output)
    (hleave : ∀ m, (leave m).output = m.output) (hx : Emits view x) :
    Emits view (between enter leave x) := by
  intro m
  obtain ⟨es, hadds⟩ := hx (enter m)
  rw [henter] at hadds
  refine ⟨es, ?_⟩
  unfold between
  cases h : x (enter m) with
  | ok _ m' =>
    rw [h] at hadds
    exact ⟨(congrArg view (hleave m')).trans hadds.1, hadds.2⟩
  | error _ m' =>
    rw [h] at hadds
    exact ⟨(congrArg view (hleave m')).trans hadds.1, hadds.2⟩

theorem emits_read {α : Type} {r : Reading α} {f : α → Run σ Unit}
    (hf : ∀ env a, r env = .ok a → Emits view (f a)) :
    Emits view (read r >>= f) := by
  intro m
  cases h : r m.scopes.environment with
  | ok a =>
    rw [bind_ok (read_ok h)]
    exact hf _ a h m
  | error d =>
    rw [bind_error (read_error h)]
    exact grows_stopped _ m

theorem emits_onScope (n : Node) (f : Scopes → Except ScopeError Scopes) :
    Emits view (onScope n f : Run σ Unit) := by
  intro m
  unfold onScope
  cases f m.scopes with
  | ok scopes => exact grows_idle { m with scopes := scopes }
  | error e => exact grows_stopped _ m

-- ================================================================= sending

/-- An event counts as sent also when it is refused. -/
theorem shown_send (h : Shows view s.sink) (e : Event) (m : Machine σ) :
    view (after (send s e) m).output = view m.output ++ [e] := by
  rw [← h m.output e]
  unfold after send
  rcases s.sink.send m.output e with ⟨o, _ | error⟩ <;> rfl

theorem sent_ok (h : Shows view s.sink) {e : Event} {m m' : Machine σ}
    (hsend : send s e m = .ok () m') :
    view m'.output = view m.output ++ [e] :=
  after_ok hsend ▸ shown_send h e m

theorem sent_error (h : Shows view s.sink) {e : Event} {stop : Stop}
    {m m' : Machine σ} (hsend : send s e m = .error stop m') :
    view m'.output = view m.output ++ [e] :=
  after_error hsend ▸ shown_send h e m

theorem emits_send (h : Shows view s.sink) {e : Event} (he : Balanced [e]) :
    Emits view (send s e) := by
  intro m
  refine ⟨[e], ?_⟩
  cases hsend : send s e m with
  | ok _ m' => exact ⟨sent_ok h hsend, he⟩
  | error _ m' => exact ⟨sent_error h hsend, he.beginning⟩

/-- Of events in sequence that finish something balanced all are sent, or as
many as begin it. -/
theorem grows_sendAll (h : Shows view s.sink) (es : List Event)
    {fs : List Event} (hes : Balanced (es ++ fs)) {m : Machine σ}
    {before : List Event} (hm : view m.output = before ++ es) :
    Grows view before (sendAll s fs m) := by
  induction fs generalizing es m with
  | nil =>
    rw [List.append_nil] at hes
    exact ⟨es, hm, hes⟩
  | cons e fs ih =>
    rw [List.append_cons] at hes
    refine bind_cases (Grows view _) (fun _ m' hsend => ?_)
      fun stop m' hsend => ?_
    · have hview := sent_ok h hsend
      rw [hm, List.append_assoc] at hview
      exact ih _ hes hview
    · have hview := sent_error h hsend
      rw [hm, List.append_assoc] at hview
      exact ⟨es ++ [e], hview, fs, hes⟩

theorem emits_sendAll (h : Shows view s.sink) {es : List Event}
    (hes : Balanced es) : Emits view (sendAll s es) :=
  fun _ => grows_sendAll h [] hes (List.append_nil _).symm

/-- However far an element gets, it is an element or the beginning of one. -/
theorem emits_enclosed (h : Shows view s.sink) (name : ElementName)
    (attributes : List (String × String)) (hx : Emits view x) :
    Emits view
      (do send s (.start name attributes); x; send s (.stop name)) := by
  intro m
  -- three ways to end: the start is refused, the inside stops, or the end is
  -- sent, which counts as sent even where it is refused
  refine bind_cases (Grows view _) (fun _ m₁ hstart => ?_)
    fun stop m₁ hstart => ?_
  · have first := sent_ok h hstart
    obtain ⟨es, hadds⟩ := hx m₁
    rw [first] at hadds
    refine bind_cases (Grows view _) (fun _ m₂ hinside => ?_)
      fun stop m₂ hinside => ?_
    · rw [hinside] at hadds
      obtain ⟨hview, hes⟩ := hadds
      rw [List.append_assoc] at hview
      have whole := hes.element name attributes
      have shown (m₃ : Machine σ)
          (hlast : view m₃.output = view m₂.output ++ [.stop name]) :
          view m₃.output = view m.output
            ++ (.start name attributes :: (es ++ [.stop name])) := by
        rw [hlast, hview, List.append_assoc]
        rfl
      refine ⟨.start name attributes :: (es ++ [.stop name]), ?_⟩
      cases hstop : send s (.stop name) m₂ with
      | ok _ m₃ => exact ⟨shown m₃ (sent_ok h hstop), whole⟩
      | error _ m₃ => exact ⟨shown m₃ (sent_error h hstop), whole.beginning⟩
    · rw [hinside] at hadds
      obtain ⟨hview, hes⟩ := hadds
      rw [List.append_assoc] at hview
      exact ⟨_, hview, hes.element name attributes⟩
  · refine ⟨[.start name attributes], sent_error h hstart, ?_⟩
    exact Output.balanced_nil.beginning.element name attributes

theorem emits_sequential : Sequential (Alone (@Emits σ view)) where
  skip := emits_skip
  seq hx hy := emits_seq hx hy
  binding n _ _ := emits_onScope n _

theorem emits_congruence (h : Shows view s.sink) :
    Congruence s s (Alone (Emits view)) where
  toSequential := emits_sequential
  uri := rfl
  fault _ := emits_throw _
  reading hr hf := emits_read fun env a ha =>
    let ⟨b, hab⟩ := (hr env).exists_of_ok ha
    hf a b hab
  state hf m := hf m m rfl m
  loading _ hf := emits_bind (fun _ => rfl) hf
  definition n _ := emits_onScope n _
  characters data := emits_send h (Output.balanced_characters data)
  cdata data := emits_sendAll h (Output.balanced_cdata data)
  doctype name publicId systemId :=
    emits_sendAll h (Output.balanced_doctype name publicId systemId)
  enclosed name attributes hx := emits_enclosed h name attributes hx
  inScope _ hx := emits_between (fun _ => rfl) (fun _ => rfl) hx
  nested hx := emits_between (fun _ => rfl) (fun _ => rfl) hx
  rebased _ _ hx := emits_between (fun _ => rfl) (fun _ => rfl)
    (emits_bind (fun _ => rfl) fun _ => hx)
  floating n name r hx := emits_sequential.runFloat (emits_throw .unfinished)
    rfl n name r hx

-- ================================================================== faults

/-- If a run fails, a node of a template is to blame. -/
def Blames (x : Run σ Unit) : Prop :=
  ∀ m d m', x m = .error (.failed d) m' → d.Located

theorem blames_skip : Blames (pure () : Run σ Unit) := by
  intro m d m' h
  cases h

theorem blames_unfinished : Blames (throw .unfinished : Run σ Unit) := by
  intro m d m' h
  cases h

theorem blames_fail {d : Diagnostic} (hd : d.Located) :
    Blames (fail d : Run σ Unit) := by
  intro m d' m' h
  cases h
  exact hd

theorem blames_bind {α : Type} {r : Run σ α} {f : α → Run σ Unit}
    (hr : ∀ m d m', r m = .error (.failed d) m' → d.Located)
    (hf : ∀ a, Blames (f a)) : Blames (r >>= f) := by
  intro m
  refine bind_cases (fun r => ∀ d m', r = .error (.failed d) m' → d.Located)
    (fun a m' _ => hf a m') fun e m' h d m'' he => ?_
  cases he
  exact hr m d m' h

theorem blames_read {α : Type} {r : Reading α} {f : α → Run σ Unit}
    (hr : Reading.Located r) (hf : ∀ env a, r env = .ok a → Blames (f a)) :
    Blames (read r >>= f) := by
  intro m d m' h
  cases hread : r m.scopes.environment with
  | ok a =>
    rw [bind_ok (read_ok hread)] at h
    exact hf _ a hread m d m' h
  | error e =>
    rw [bind_error (read_error hread)] at h
    cases h
    exact hr _ d hread

theorem blames_between {enter leave : Machine σ → Machine σ}
    (hx : Blames x) : Blames (between enter leave x) := by
  intro m d m' h
  unfold between at h
  cases hin : x (enter m) with
  | ok _ m₁ =>
    rw [hin] at h
    cases h
  | error e m₁ =>
    rw [hin] at h
    cases h
    exact hx _ d m₁ hin

theorem blames_onScope (n : Node) (f : Scopes → Except ScopeError Scopes) :
    Blames (onScope n f : Run σ Unit) := by
  intro m d m' h
  obtain ⟨-, e, -, hd⟩ := onScope_error h
  cases hd
  exact Diagnostic.located_about n nofun

theorem blames_load (s : Settings σ) (url : Url) (m : Machine σ)
    (d : Diagnostic) (m' : Machine σ)
    (h : load s url m = .error (.failed d) m') : d.Located := by
  cases h

theorem blames_setBase (base : Option Url) :
    Blames (setBase base : Run σ Unit) := by
  intro m d m' h
  cases h

theorem blames_send (h : s.sink.Accepting) (e : Event) :
    Blames (send s e) := by
  intro m d m' hsend
  have taken : s.sink.send m.output e = ((s.sink.send m.output e).1, none) :=
    Prod.ext rfl (h m.output e)
  unfold send at hsend
  rw [taken] at hsend
  cases hsend

theorem blames_sendAll (h : s.sink.Accepting) (es : List Event) :
    Blames (sendAll s es) := by
  induction es with
  | nil => exact blames_skip
  | cons e es ih => exact blames_bind (blames_send h e) fun _ => ih

theorem blames_sequential : Sequential (Alone (@Blames σ)) where
  skip := blames_skip
  seq hx hy := blames_bind hx fun _ => hy
  binding n _ _ := blames_onScope n _

/-- When the sink takes everything, templates alone are to blame. -/
theorem blames_congruence (h : s.sink.Accepting) :
    Congruence s s (Alone Blames) where
  toSequential := blames_sequential
  uri := rfl
  fault hd := blames_fail hd
  reading hr hf := blames_read (fun env _ h => (hr env).located_of_error h)
    fun env a ha =>
      let ⟨b, hab⟩ := (hr env).exists_of_ok ha
      hf a b hab
  state hf m := hf m m rfl m
  loading url hf := blames_bind (blames_load s url) hf
  definition n _ := blames_onScope n _
  characters _ := blames_send h _
  cdata _ := blames_sendAll h _
  doctype _ _ _ := blames_sendAll h _
  enclosed _ _ hx := blames_bind (blames_send h _) fun _ =>
    blames_bind hx fun _ => blames_send h _
  inScope _ hx := blames_between hx
  nested hx := blames_between hx
  rebased _ url hx := blames_between
    (blames_bind (blames_setBase (some url)) fun _ => hx)
  floating n name r hx :=
    blames_sequential.runFloat blames_unfinished rfl n name r hx

end

-- =============================================================== whole runs

namespace Processor

/-- The events of a run are a whole document, or the beginning of one. -/
theorem course_nested (p : Processor) : (nestAll [] p.course).isSome := by
  have shows : Shows id Sink.log := fun _ _ => rfl
  have c := emits_congruence (s := p.settings Sink.log) shows
  obtain ⟨es, hadds⟩ := c.execute (c.inner nestingLimit) p.root
    (p.machine [.startDocument])
  -- what the run sends goes behind the start of the document
  unfold course runInto
  rw [p.document_log]
  unfold process
  cases h : execute (p.settings Sink.log)
      (inner? (p.settings Sink.log) nestingLimit) p.root
      (p.machine [.startDocument]) with
  | ok _ m =>
    rw [h] at hadds
    obtain ⟨hview, hes⟩ := hadds
    have hview : m.output = [.startDocument] ++ es := hview
    have hsend : send (p.settings Sink.log) .endDocument m
        = .ok () { m with output := m.output ++ [.endDocument] } := rfl
    rw [bind_ok h, hsend]
    dsimp only
    rw [hview, List.append_assoc]
    exact hes.document
  -- a run that stops has sent the beginning of something balanced, which nests
  -- as well
  | error e m =>
    rw [h] at hadds
    obtain ⟨hview, hes⟩ := hadds
    have hview : m.output = [.startDocument] ++ es := hview
    rw [bind_error h]
    dsimp only
    rw [hview]
    exact hes.document

/-- If a run fails that no sink disturbs, it is not for the output. -/
theorem outcome_located (p : Processor) {d : Diagnostic}
    (h : p.outcome = some (.failed d)) : d.Located := by
  have c := blames_congruence (s := p.settings Sink.log) Sink.accepting_log
  have root := c.execute (c.inner nestingLimit) p.root
  have blames : Blames (p.document Sink.log) :=
    blames_bind (blames_send Sink.accepting_log _) fun _ =>
      blames_bind root fun _ => blames_send Sink.accepting_log _
  unfold outcome runInto at h
  cases hdocument : p.document Sink.log (p.machine []) with
  | ok _ m =>
    rw [hdocument] at h
    cases h
  | error e m =>
    rw [hdocument] at h
    cases h
    exact blames _ d m hdocument

end Processor

/-- Whatever is processed, the events that it sends are balanced if all goes
well and begin something balanced if not. So a writer only ever fails when its
destination does. -/
theorem output_balanced :
    (∀ {σ : Type} (s : Settings σ) (room : Nat) (n : Node)
        (m : Machine (List Event × σ)), ∃ es,
      match execute s.watched (inner? s.watched room) n m with
      | .ok _ m' => m'.output.1 = m.output.1 ++ es ∧ Balanced es
      | .error _ m' =>
        m'.output.1 = m.output.1 ++ es ∧ ∃ rest, Balanced (es ++ rest))
    ∧ ∀ (p : Processor) (o : Options) (room : Option Nat) (d : Diagnostic)
        (e : Output.Error), (p.write o room).stop = some (.failed d) →
        d.reason = .output e → ∃ reason, e = .io reason := by
  refine ⟨fun s room n m => ?_, fun p o room d e hstop hreason => ?_⟩
  · have shows : Shows Prod.fst s.watched.sink := fun _ _ => rfl
    have c := emits_congruence (s := s.watched) shows
    obtain ⟨es, hadds⟩ := c.execute (c.inner room) n m
    refine ⟨es, ?_⟩
    cases h : execute s.watched (inner? s.watched room) n m with
    | ok _ _ =>
      rw [h] at hadds
      exact hadds
    | error _ _ =>
      rw [h] at hadds
      exact hadds
  · obtain ⟨-, hended⟩ := p.runInto_eq_deliver Writer.sink
      (.fresh o.dialect o.whitespace o.declaration room)
    have hended : (p.write o room).stop = _ := hended
    rw [hstop] at hended
    cases hd : (Writer.sink.deliver
        (.fresh o.dialect o.whitespace o.declaration room) p.course).2 with
    -- nothing was refused, so what failed is the run, and no run fails with an
    -- error of the output's kind
    | none =>
      rw [hd] at hended
      have located := p.outcome_located hended.symm
      have kind : d.kind = .output := congrArg Reason.kind hreason
      exact absurd kind located.kind
    -- the course nests, so an element that was never opened cannot be what the
    -- writer complains of
    | some refused =>
      rw [hd] at hended
      cases hended
      cases hreason
      refine Writer.external_of_nestAll ?_ hd
      exact p.course_nested

/-- A writer whose destination is full. -/
theorem write_hollow_full :
    (Processor.hollow.write .standard (some 0)).stop
      = some (.failed (.general (.output (.io "sink full"))))
    ∧ ∃ reason, Output.Error.io "sink full" = .io reason := by
  have stopped : (Processor.hollow.write .standard (some 0)).stop
      = some (.failed (.general (.output (.io "sink full")))) := rfl
  exact ⟨stopped, output_balanced.2 _ _ _ _ _ stopped rfl⟩

end Stencil.Template
