/-
What a cache holds makes no difference.

Two machines that one source serves may differ in their caches, and in which
copies of the documents their scopes are anchored in (`copies`). Both caches
hold nothing but what earlier loads from the source put there. Then a load gives
copies of one document on both sides, or fails on both; no other step looks at
the cache, and none tells one copy of a document from another. So alike machines
stay alike to the end of a run (`serves_copies`).
-/
import Stencil.Proofs.Loading.Filled
import Stencil.Proofs.Template.Interchange
import Stencil.Proofs.Template.Reported
import Stencil.Template.Processor

namespace Stencil.Template

open Loading (Cache Source)
open Markup (Document Node Origin)

/-- Any document may stand for another that holds the same. -/
def Anywhere (_ _ : Origin) : Prop := True

/-- Copies of documents, and caches that one source has filled. -/
def copies (source : Source) : Interchange where
  nodes := Matches Anywhere
  caches cache cache' := cache.Filled source ∧ cache'.Filled source
  known url := url.Sound
  like := inferInstance
  same n := .refl (fun _ => trivial) n

theorem rel_rootElement? {O : Origin → Origin → Prop} {d d' : Document}
    (origin : O d.origin d'.origin) (root : d.root = d'.root) :
    Option.Rel (Matches O) d.rootElement? d'.rootElement? := by
  have hnode : Matches O d.node d'.node := ⟨origin, root, rfl⟩
  exact rel_find? hnode.children fun _ _ h => Likeness.isElement h

/-- Caches that one source has filled give copies of the same documents. -/
theorem loadedAlike_load {source : Source} {cache cache' : Cache}
    (h : cache.Filled source) (h' : cache'.Filled source) {url : Url}
    (hurl : url.Sound) :
    LoadedAlike (Matches Anywhere) (Loading.load source cache url).1
      (Loading.load source cache' url).1 := by
  have hroot := Loading.root_load h hurl
  rw [← Loading.root_load h' hurl] at hroot
  generalize (Loading.load source cache url).1 = d at hroot ⊢
  generalize (Loading.load source cache' url).1 = d' at hroot ⊢
  cases d with
  | error e =>
    cases d' with
    | error e' =>
      cases hroot
      exact .error e
    | ok d' => cases hroot
  | ok d =>
    cases d' with
    | error e' => cases hroot
    | ok d' => exact .ok (rel_rootElement? trivial (Except.ok.inj hroot))

/-- References resolve to sound addresses against sound addresses. -/
theorem sound_resolveHref {base : Option Url} {href : String} {url : Url}
    (hbase : ∀ b ∈ base, b.Sound)
    (h : Loading.resolveHref base href = .ok url) : url.Sound := by
  unfold Loading.resolveHref at h
  split at h
  · next hparse =>
    cases h
    exact Url.sound_parse hbase hparse
  · cases h

/-- It makes no difference which copies of its documents a source has put into
a cache. -/
theorem serves_copies (uri : String) (source : Source) :
    (copies source).Serves uri source where
  descends := Matches.descends uri
  resolved := sound_resolveHref
  loaded h hurl := loadedAlike_load h.1 h.2 hurl
  left h hurl := ⟨h.1.load hurl, h.2.load hurl⟩

end Stencil.Template
