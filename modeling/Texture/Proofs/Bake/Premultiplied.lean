/- Texture/Proofs/Bake/Premultiplied
   digest: A painter of valid pictures is all that it takes for valid sums, and a document that is
   painted shows no bitmaps but its own and such sums. -/

import Texture.Proofs.Bake.Sum
import Texture.Proofs.Picture.Premultiplied

set_option autoImplicit false
set_option relaxedAutoImplicit false

namespace Texture

open Svg (Def Definitions Document)
open Work (Ensures Upholds)

def Rasterizer.IsValid (rasterizer : Rasterizer) : Prop :=
  ∀ earlier request p, rasterizer earlier request = .ok p → p.Valid

namespace Svg

namespace Node

mutual

def addresses : Node → List String
  | shape _ _ => []
  | group _ children => addressesAll children
  | image _ address _ => [address]

def addressesAll : List Node → List String
  | [] => []
  | n :: ns => addresses n ++ addressesAll ns

end

def Show (P : String → Prop) (ns : List Node) : Prop := ∀ address ∈ addressesAll ns, P address

variable {P : String → Prop} {n : Node} {ns : List Node}

private theorem show_cons : Show P (n :: ns) ↔ Show P [n] ∧ Show P ns := by
  simp only [Show, addressesAll, List.append_nil, List.forall_mem_append]

private theorem show_group {effects : Effects} : Show P [.group effects ns] ↔ Show P ns := by
  simp only [Show, addressesAll, addresses, List.append_nil]

private theorem show_of_mem (h : Show P ns) (mem : n ∈ ns) : Show P [n] := by
  induction ns with
  | nil => simp at mem
  | cons m ns ih =>
    obtain ⟨first, rest⟩ := show_cons.mp h
    rcases List.mem_cons.mp mem with rfl | mem
    · exact first
    · exact ih rest mem

end Node

def Document.addresses (doc : Document) : List String :=
  Node.addressesAll doc.content ++
    doc.definitions.items.flatMap fun d => Node.addressesAll d.content

def Def.Show (P : String → Prop) (ds : List Def) : Prop := ∀ d ∈ ds, Node.Show P d.content

theorem Document.forall_addresses {P : String → Prop} {doc : Document} :
    (∀ address ∈ doc.addresses, P address) ↔
      Node.Show P doc.content ∧ Def.Show P doc.definitions.items := by
  simp only [addresses, List.forall_mem_append, List.mem_flatMap, Node.Show, Def.Show]
  constructor
  · rintro ⟨content, masks⟩
    exact ⟨content, fun d mem address shown => masks address ⟨d, mem, shown⟩⟩
  · rintro ⟨content, masks⟩
    refine ⟨content, ?_⟩
    rintro address ⟨d, mem, shown⟩
    exact masks d mem address shown

end Svg

def Request.Shows (P : String → Prop) (q : Request) : Prop :=
  ∀ address ∈ q.document.addresses, P address

namespace Bake

private theorem lay_isPremultiplied (n : Svg.Node) {below above : Pixel} (h : below.IsPremultiplied)
    (h' : above.IsPremultiplied) : (n.lay below above).IsPremultiplied := by
  unfold Svg.Node.lay
  split
  · exact h.add h'
  · exact h.cover h'

private theorem total_isPremultiplied {painted : List (Svg.Node × Picture)} {i : Nat}
    (h : ∀ layer ∈ painted, (Buffer.pixelAt layer.2.bytes i).IsPremultiplied) :
    (total painted i).IsPremultiplied := by
  induction painted using List.reverseRecOn with
  | nil => exact Pixel.isPremultiplied_clear
  | append_singleton painted layer ih =>
    rw [List.forall_mem_append, List.forall_mem_singleton] at h
    rw [total_concat]
    exact lay_isPremultiplied layer.1 (ih h.1) h.2

namespace Layers

variable {layers : Layers} {P : String → Prop}

private theorem sum_edges {children : List Svg.Node} {s t : Session} {p : Picture}
    (yields : (layers.sum children).Yields s p t) :
    p.width = layers.width ∧ p.height = layers.height := by
  rw [sum, Work.yields_bind] at yields
  obtain ⟨bytes, u, -, whole⟩ := yields
  rw [Work.yields_ofExcept] at whole
  obtain ⟨width, height, -⟩ := Picture.ofBytes_ok whole.1
  exact ⟨width, height⟩

theorem sum_valid (painter : layers.canvas.rasterizer.IsValid) (children : List Svg.Node) :
    (layers.sum children).Ensures fun p =>
      p.Valid ∧ p.width = layers.width ∧ p.height = layers.height := by
  intro s p t yields
  obtain ⟨width, height⟩ := sum_edges yields
  have edges : EdgesInRange layers.width layers.height := by
    rw [← width, ← height]
    exact p.edges
  obtain ⟨painted, -, asked, same⟩ := sum_yields edges yields
  -- All that is laid on a sum are answers of the painter.
  have answers : ∀ layer ∈ painted, layer.2.Valid := by
    intro layer mem
    obtain ⟨earlier, answered⟩ := asked.answered.of_mem (List.mem_map_of_mem mem)
    exact painter earlier _ _ answered
  refine ⟨Picture.IsPremultiplied.valid fun i inside => ?_, width, height⟩
  have pixel : Buffer.pixelAt p.bytes i = total painted i := by
    subst same
    exact Buffer.pixelAt_build _ inside
  rw [pixel]
  exact total_isPremultiplied fun layer mem => (answers layer mem).pixelAt i

private theorem sum_shows (definitions : Def.Show P layers.definitions.items)
    {children : List Svg.Node} (shown : Svg.Node.Show P children) :
    (layers.sum children).Upholds (Request.Shows P) fun _ => True := by
  refine Upholds.bind (Upholds.foldlM (R := fun _ => True) ?_ none trivial) fun bytes _ =>
    Upholds.ofExcept _
  intro below n mem _
  have layer : Request.Shows P
      ⟨⟨layers.canvas.resolution, layers.definitions, none, [n]⟩, layers.width, layers.height⟩ :=
    Document.forall_addresses.mpr ⟨Svg.Node.show_of_mem shown mem, definitions⟩
  refine (Upholds.rasterize layer).bind fun answer _ => ?_
  exact (Upholds.ofExcept _).map _

/-- The bitmaps that are shown when layers are painted, besides those of the layers themselves, have
addresses with a property: sums of answers of the painter, and what the definitions hold. -/
structure Backs (layers : Layers) (P : String → Prop) : Prop where
  painter : layers.canvas.rasterizer.IsValid
  sums : ∀ p : Picture, p.Valid → p.width = layers.width → p.height = layers.height →
    P p.toAddress
  definitions : Def.Show P layers.definitions.items

mutual

private theorem flatten_shows (backs : layers.Backs P) {n : Svg.Node}
    (shown : Svg.Node.Show P [n]) :
    (layers.flatten n).Upholds (Request.Shows P) fun m => Svg.Node.Show P [m] := by
  cases n with
  | shape geometry style =>
    rw [flatten]
    exact Upholds.pure shown
  | group effects children =>
    rw [flatten]
    refine (flattenAll_shows backs (Svg.Node.show_group.mp shown)).bind fun flat below => ?_
    split
    · have summed : (layers.sum flat).Upholds (Request.Shows P) fun p =>
          p.Valid ∧ p.width = layers.width ∧ p.height = layers.height :=
        ⟨(sum_shows backs.definitions below).asks, sum_valid backs.painter flat⟩
      refine summed.bind ?_
      rintro p ⟨valid, width, height⟩
      refine Upholds.pure (Svg.Node.show_group.mpr ?_)
      exact List.forall_mem_singleton.mpr (backs.sums p valid width height)
    · exact Upholds.pure (Svg.Node.show_group.mpr below)
  | image box address rendering =>
    rw [flatten]
    exact Upholds.pure shown

private theorem flattenAll_shows (backs : layers.Backs P) {ns : List Svg.Node}
    (shown : Svg.Node.Show P ns) :
    (layers.flattenAll ns).Upholds (Request.Shows P) (Svg.Node.Show P) := by
  cases ns with
  | nil =>
    rw [flattenAll]
    exact Upholds.pure shown
  | cons n ns =>
    rw [flattenAll]
    obtain ⟨first, rest⟩ := Svg.Node.show_cons.mp shown
    refine (flatten_shows backs first).bind fun m shownFirst => ?_
    refine (flattenAll_shows backs rest).bind fun ms shownRest => Upholds.pure ?_
    exact Svg.Node.show_cons.mpr ⟨shownFirst, shownRest⟩

end

end Layers

section

variable {rasterizer : Rasterizer} {P : String → Prop} {width height : Nat}
  (painter : rasterizer.IsValid)
  (sums : ∀ p : Picture, p.Valid → p.width = width → p.height = height → P p.toAddress)

include painter sums

private theorem flattenMasks_shows (r : Resolution) {done ds : List Def}
    (finished : Def.Show P done) (shown : Def.Show P ds) :
    (flattenMasks ⟨r, rasterizer⟩ width height done ds).Upholds (Request.Shows P)
      (Def.Show P) := by
  induction ds generalizing done with
  | nil => exact Upholds.pure finished
  | cons d ds ih =>
    have all : Def.Show P (done ++ d :: ds) := List.forall_mem_append.mpr ⟨finished, shown⟩
    obtain ⟨first, rest⟩ := List.forall_mem_cons.mp shown
    have next : ∀ e : Def, Svg.Node.Show P e.content →
        (flattenMasks ⟨r, rasterizer⟩ width height (done ++ [e]) ds).Upholds (Request.Shows P)
          (Def.Show P) := by
      intro e shownE
      refine ih (List.forall_mem_append.mpr ⟨finished, ?_⟩) rest
      exact List.forall_mem_singleton.mpr shownE
    cases d with
    | gradient g => exact next (.gradient g) first
    | filter id region primitives => exact next (.filter id region primitives) first
    | mask id region content =>
      have backs : Layers.Backs ⟨⟨r, rasterizer⟩, ⟨done ++ .mask id region content :: ds⟩, width,
          height⟩ P := ⟨painter, sums, all⟩
      refine (Layers.flattenAll_shows backs first).bind fun flat below => ?_
      exact next (.mask id region flat) below

private theorem document_shows {doc : Document} (own : ∀ address ∈ doc.addresses, P address) :
    (document rasterizer width height doc).Upholds (Request.Shows P) Picture.Valid := by
  obtain ⟨content, masks⟩ := Document.forall_addresses.mp own
  have answered : ∀ request, (Work.rasterize rasterizer request).Ensures Picture.Valid := by
    intro request s p t yields
    rw [Work.Yields, Work.after_rasterize, Prod.mk.injEq] at yields
    exact painter _ _ _ yields.1
  have flattened : (flatten rasterizer width height doc).Upholds (Request.Shows P) fun flat =>
      ∀ address ∈ flat.addresses, P address := by
    refine (flattenMasks_shows painter sums _ (by simp [Def.Show]) masks).bind fun ds shown => ?_
    have backs : Layers.Backs ⟨⟨doc.resolution, rasterizer⟩, ⟨ds⟩, width, height⟩ P :=
      ⟨painter, sums, shown⟩
    refine (Layers.flattenAll_shows backs content).bind fun ns shownAll => ?_
    exact Upholds.pure (Document.forall_addresses.mpr ⟨shownAll, shown⟩)
  exact flattened.bind fun flat shown => ⟨(Upholds.rasterize shown).asks, answered _⟩

end

/-- The address is one of a document, or that of a valid picture as large as the document is
painted. -/
def IsOwnOrSum (doc : Document) (width height : Nat) (address : String) : Prop :=
  address ∈ doc.addresses ∨
    ∃ p : Picture, p.Valid ∧ p.width = width ∧ p.height = height ∧ address = p.toAddress

/-- A document that is painted shows no bitmaps but its own and valid sums, at every step of the
way and whether or not it succeeds, and comes to a valid picture if it does. -/
theorem document_valid {rasterizer : Rasterizer} (painter : rasterizer.IsValid)
    (width height : Nat) (doc : Document) :
    (document rasterizer width height doc).Upholds
      (Request.Shows (IsOwnOrSum doc width height)) Picture.Valid := by
  refine document_shows painter ?_ fun address mem => Or.inl mem
  intro p valid wide high
  exact Or.inr ⟨p, valid, wide, high, rfl⟩

end Bake

end Texture
