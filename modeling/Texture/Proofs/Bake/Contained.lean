/- Texture/Proofs/Bake/Contained
   digest: Blends that reach no further than the group they are in. A document of such nodes is
   painted without a group that is added to anything. -/

import Texture.Proofs.Bake.Additive
import Texture.Proofs.Requests

set_option autoImplicit false
set_option relaxedAutoImplicit false

namespace Texture

open Svg (Def Document Effects)
open Work (Upholds)

namespace Svg

namespace Node

/-- A group lets its children blend in another way than normally only if it is isolated, and lets
them be added only if it is additive. -/
def Holds (effects : Effects) (children : List Node) : Prop :=
  ∀ n ∈ children, (n.blend ≠ .normal → effects.isolated = true) ∧
    (n.blend = .plusLighter → isAdditive effects children = true)

/-- No blend among some nodes reaches beyond the group it is in, at any depth. -/
structure Contained (ns : List Node) : Prop where
  outer : ∀ n ∈ ns, n.blend = .normal
  inner : EveryGroupAll Holds ns

/-- No group among some nodes is added, at any depth. -/
def Unadded (ns : List Node) : Prop :=
  EveryGroupAll (fun effects _ => effects.blend ≠ .plusLighter) ns

/-- No group inside of a node is added, whatever becomes of the node. -/
def UnaddedInside : Node → Prop
  | group _ children => Unadded children
  | _ => True

variable {P : Effects → List Node → Prop} {n : Node} {ns ms : List Node}

theorem everyGroupAll_append :
    EveryGroupAll P (ns ++ ms) ↔ EveryGroupAll P ns ∧ EveryGroupAll P ms := by
  induction ns with
  | nil => simp [EveryGroupAll]
  | cons n ns ih => simp [EveryGroupAll, ih, and_assoc]

theorem exists_blend (h : ms.map blend = ns.map blend) (mem : n ∈ ms) :
    ∃ m ∈ ns, m.blend = n.blend := by
  have listed : n.blend ∈ ns.map blend := by
    rw [← h]
    exact List.mem_map_of_mem mem
  exact List.mem_map.mp listed

namespace Contained

theorem nil : Contained [] := ⟨by simp, trivial⟩

theorem append (h : Contained ns) (h' : Contained ms) : Contained (ns ++ ms) := by
  refine ⟨?_, everyGroupAll_append.mpr ⟨h.inner, h'.inner⟩⟩
  intro n mem
  rcases List.mem_append.mp mem with mem | mem
  · exact h.outer n mem
  · exact h'.outer n mem

theorem shape (geometry : Geometry) (style : Style) : Contained [.shape geometry style] :=
  ⟨by simp [blend], trivial, trivial⟩

theorem image (box : Plane.Box) (address : String) (rendering : Rendering) :
    Contained [.image box address rendering] :=
  ⟨by simp [blend], trivial, trivial⟩

private theorem holds (h : Contained ns) (effects : Effects) : Holds effects ns := by
  intro n mem
  rw [h.outer n mem]
  exact ⟨fun unlike => absurd rfl unlike, nofun⟩

theorem everyGroup (h : Contained ns) (effects : Effects) :
    EveryGroup Holds (.group effects ns) := ⟨h.holds effects, h.inner⟩

theorem group {effects : Effects} (normal : effects.blend = .normal) (holds : Holds effects ns)
    (inner : EveryGroupAll Holds ns) : Contained [.group effects ns] :=
  ⟨by simpa [blend] using normal, ⟨holds, inner⟩, trivial⟩

theorem wrap (h : Contained ns) {effects : Effects} (normal : effects.blend = .normal) :
    Contained [.group effects ns] :=
  group normal (h.holds effects) h.inner

end Contained

private theorem unadded_singleton (outer : n.blend ≠ .plusLighter) (inside : n.UnaddedInside) :
    Unadded [n] := by
  cases n with
  | shape geometry style => exact ⟨trivial, trivial⟩
  | group effects children => exact ⟨⟨outer, inside⟩, trivial⟩
  | image box address rendering => exact ⟨trivial, trivial⟩

private theorem unadded_of_forall (outer : ∀ n ∈ ns, n.blend ≠ .plusLighter)
    (inside : ∀ n ∈ ns, n.UnaddedInside) : Unadded ns := by
  induction ns with
  | nil => exact trivial
  | cons n ns ih =>
    rw [List.forall_mem_cons] at outer inside
    exact ⟨(unadded_singleton outer.1 inside.1).1, ih outer.2 inside.2⟩

end Node

structure Document.Contained (doc : Document) : Prop where
  content : Node.Contained doc.content
  masks : ∀ d ∈ doc.definitions.items, Node.Contained d.content

end Svg

/-- A single node is painted on nothing, and no group inside of it is added. -/
def Request.IsLayer (q : Request) : Prop :=
  q.document.background = none ∧ ∃ n, q.document.content = [n] ∧ n.UnaddedInside

/-- No group of a document that is painted is added, neither in the content nor in a mask. -/
def Request.IsFinal (q : Request) : Prop :=
  Svg.Node.Unadded q.document.content ∧
    ∀ d ∈ q.document.definitions.items, Svg.Node.Unadded d.content

namespace Bake

/-- What came of nodes when their additive groups were flattened: they blend as before, and nothing
inside of them is added. -/
structure Flat (ns ms : List Svg.Node) : Prop where
  blends : ms.map Svg.Node.blend = ns.map Svg.Node.blend
  inside : ∀ m ∈ ms, m.UnaddedInside

private theorem Flat.unadded {ns ms : List Svg.Node} (flat : Flat ns ms)
    (outer : ∀ n ∈ ns, n.blend ≠ .plusLighter) : Svg.Node.Unadded ms := by
  refine Svg.Node.unadded_of_forall ?_ flat.inside
  intro m mem
  obtain ⟨n, memN, same⟩ := Svg.Node.exists_blend flat.blends mem
  rw [← same]
  exact outer n memN

private theorem Flat.unadded_of_contained {ns ms : List Svg.Node} (flat : Flat ns ms)
    (contained : Svg.Node.Contained ns) : Svg.Node.Unadded ms := by
  refine flat.unadded fun n mem => ?_
  rw [contained.outer n mem]
  nofun

namespace Layers

variable (layers : Layers)

private theorem sum_upholds {children : List Svg.Node} (inside : ∀ n ∈ children, n.UnaddedInside) :
    (layers.sum children).Upholds Request.IsLayer fun _ => True := by
  refine Upholds.bind (Upholds.foldlM (R := fun _ => True) ?_ none trivial) fun bytes _ =>
    Upholds.ofExcept _
  intro below n mem _
  refine (Upholds.rasterize ⟨rfl, n, rfl, inside n mem⟩).bind fun layer _ => ?_
  exact (Upholds.ofExcept _).map _

mutual

theorem flatten_upholds {n : Svg.Node} (holds : n.EveryGroup Svg.Node.Holds) :
    (layers.flatten n).Upholds Request.IsLayer fun m => Flat [n] [m] := by
  cases n with
  | shape geometry style =>
    rw [flatten]
    exact Upholds.pure ⟨rfl, by simp [Svg.Node.UnaddedInside]⟩
  | group effects children =>
    rw [flatten]
    refine (flattenAll_upholds holds.2).bind fun flat below => ?_
    split
    · refine (sum_upholds layers below.inside).bind fun picture _ => Upholds.pure ⟨rfl, ?_⟩
      exact List.forall_mem_singleton.mpr ⟨trivial, trivial⟩
    · rename_i plain
      refine Upholds.pure ⟨rfl, List.forall_mem_singleton.mpr (below.unadded ?_)⟩
      intro m mem added
      rw [Svg.Node.isAdditive_congr effects below.blends] at plain
      exact plain ((holds.1 m mem).2 added)
  | image box address rendering =>
    rw [flatten]
    exact Upholds.pure ⟨rfl, by simp [Svg.Node.UnaddedInside]⟩

private theorem flattenAll_upholds {ns : List Svg.Node}
    (holds : Svg.Node.EveryGroupAll Svg.Node.Holds ns) :
    (layers.flattenAll ns).Upholds Request.IsLayer (Flat ns) := by
  cases ns with
  | nil =>
    rw [flattenAll]
    exact Upholds.pure ⟨rfl, by simp⟩
  | cons n ns =>
    rw [flattenAll]
    refine (flatten_upholds holds.1).bind fun m first => ?_
    refine (flattenAll_upholds holds.2).bind fun ms rest => Upholds.pure ⟨?_, ?_⟩
    · rw [List.map_cons, List.map_cons, rest.blends]
      exact congrArg (· :: ns.map Svg.Node.blend) (List.cons.inj first.blends).1
    · rw [List.forall_mem_cons]
      exact ⟨first.inside m List.mem_cons_self, rest.inside⟩

end

end Layers

private theorem flattenMasks_upholds (canvas : Canvas) (width height : Nat) {done ds : List Def}
    (finished : ∀ d ∈ done, Svg.Node.Unadded d.content)
    (contained : ∀ d ∈ ds, Svg.Node.Contained d.content) :
    (flattenMasks canvas width height done ds).Upholds Request.IsLayer fun es =>
      ∀ e ∈ es, Svg.Node.Unadded e.content := by
  induction ds generalizing done with
  | nil => exact Upholds.pure finished
  | cons d ds ih =>
    rw [List.forall_mem_cons] at contained
    have next : ∀ e : Def, Svg.Node.Unadded e.content →
        (flattenMasks canvas width height (done ++ [e]) ds).Upholds Request.IsLayer fun es =>
          ∀ e ∈ es, Svg.Node.Unadded e.content := by
      intro e unadded
      refine ih ?_ contained.2
      rw [List.forall_mem_append, List.forall_mem_singleton]
      exact ⟨finished, unadded⟩
    cases d with
    | gradient g => exact next (.gradient g) trivial
    | filter id region primitives => exact next (.filter id region primitives) trivial
    | mask id region content =>
      refine (Layers.flattenAll_upholds _ contained.1.inner).bind fun flat below => ?_
      exact next (.mask id region flat) (below.unadded_of_contained contained.1)

theorem flatten_upholds (rasterizer : Rasterizer) (width height : Nat) {doc : Document}
    (contained : doc.Contained) :
    (flatten rasterizer width height doc).Upholds Request.IsLayer fun flat =>
      Request.IsFinal ⟨flat, width, height⟩ := by
  refine (flattenMasks_upholds _ width height (by simp) contained.masks).bind fun ds masks => ?_
  refine (Layers.flattenAll_upholds _ contained.content.inner).bind fun ns content => ?_
  exact Upholds.pure ⟨content.unadded_of_contained contained.content, masks⟩

end Bake

/-- What is painted is handed over in layers first and then, unless that failed, as a whole. -/
def Work.HandsOver (x : Work Picture) : Prop :=
  ∀ s, ∃ (layers : List Request) (final : Option Request),
    (x.after s).2.requests = s.requests ++ layers ++ final.toList ∧
    (∀ q ∈ layers, q.IsLayer) ∧ (∀ q ∈ final, q.IsFinal) ∧
    ∀ p t, x.Yields s p t → final.isSome

theorem Bake.document_handsOver (rasterizer : Rasterizer) (width height : Nat) {doc : Document}
    (contained : doc.Contained) : (document rasterizer width height doc).HandsOver := by
  intro s
  have flattens := Bake.flatten_upholds rasterizer width height contained
  obtain ⟨layers, asked, sound⟩ := flattens.asks s
  simp only [document, Work.Yields, Work.after_bind, Work.after_rasterize]
  rcases outcome : (flatten rasterizer width height doc).after s with ⟨e | flat, t⟩ <;>
    rw [outcome] at asked
  · exact ⟨layers, none, by simpa using asked, sound, by simp, by simp⟩
  · refine ⟨layers, some ⟨flat, width, height⟩, ?_, sound, ?_, fun _ _ _ => rfl⟩
    · rw [← asked]
      rfl
    · intro q mem
      obtain rfl := Option.mem_some_iff.mp mem
      exact flattens.ensures s flat t outcome

end Texture
