/- Texture/Proofs/Operator/Scope
   digest: Every operator keeps its fragments well scoped, and the definitions of all fragments in
   agreement. -/

import Texture.Operator.Apply
import Texture.Proofs.Bake
import Texture.Proofs.Svg.Scope

set_option autoImplicit false
set_option relaxedAutoImplicit false

namespace Texture

open Svg (Agree Def Definitions Effects Offers Reference Scoped Style)

/-- The definitions that an evaluation has made, when so many ids were given out: they agree, and
each is a silhouette filter or has one of these ids. -/
structure World (r : Resolution) (minted : Nat) (W : Def → Prop) : Prop where
  agree : Agree W
  origin : ∀ d, W d → (∃ s : Silhouette, d = s.filter r) ∨
    ∃ stem number, number ≤ minted ∧ d.id = mintedId stem number

/-- A table of definitions that were made, each referring to earlier ones only. -/
structure Svg.Definitions.Fits (W : Def → Prop) (ds : Definitions) : Prop where
  within : ∀ d ∈ ds.items, W d
  ordered : Scoped ds.items

structure Fragment.Fits (W : Def → Prop) (f : Fragment) : Prop where
  table : f.definitions.Fits W
  nodes : ∀ ref ∈ Svg.Node.referencesAll f.nodes, Offers f.definitions.items ref

def Artifact.Fits (W : Def → Prop) : Artifact → Prop
  | .vector f => f.Fits W
  | .raster _ _ => True

structure Inputs.Fits (W : Def → Prop) (inputs : Inputs) : Prop where
  only : ∀ a, inputs.only = some a → a.Fits W
  first : ∀ a, inputs.first = some a → a.Fits W
  second : ∀ a, inputs.second = some a → a.Fits W

/-- More ids given out, and more definitions made: silhouette filters, and definitions under the new
ids. -/
structure Grown (r : Resolution) (minted : Nat) (W : Def → Prop) (minted' : Nat)
    (W' : Def → Prop) : Prop where
  le : minted ≤ minted'
  sub : ∀ d, W d → W' d
  world : World r minted' W'
  origin : ∀ d, W' d → W d ∨ (∃ s : Silhouette, d = s.filter r) ∨
    ∃ stem number, minted < number ∧ number ≤ minted' ∧ d.id = mintedId stem number

section

variable {r : Resolution} {n m : Nat} {W W' : Def → Prop} {ds es : Definitions} {d : Def}

namespace World

theorem empty (r : Resolution) (n : Nat) : World r n fun _ => False :=
  ⟨fun _ _ h => h.elim, fun _ h => h.elim⟩

theorem grown (world : World r n W) : Grown r n W n W :=
  ⟨Nat.le_refl n, fun _ h => h, world, fun _ h => Or.inl h⟩

private theorem add (world : World r n W) (le : n ≤ m) (fresh : ∀ e, W e → e.id = d.id → e = d)
    (origin : (∃ s : Silhouette, d = s.filter r) ∨
      ∃ stem number, n < number ∧ number ≤ m ∧ d.id = mintedId stem number) :
    Grown r n W m fun e => W e ∨ e = d := by
  refine ⟨le, fun _ h => Or.inl h, ⟨?_, ?_⟩, ?_⟩
  · rintro e e' (he | rfl) (he' | rfl) same
    · exact world.agree e e' he he' same
    · exact fresh e he same
    · exact (fresh e' he' same.symm).symm
    · rfl
  · rintro e (he | rfl)
    · rcases world.origin e he with h | ⟨stem, number, bound, h⟩
      · exact Or.inl h
      · exact Or.inr ⟨stem, number, Nat.le_trans bound le, h⟩
    · rcases origin with h | ⟨stem, number, -, bound, h⟩
      · exact Or.inl h
      · exact Or.inr ⟨stem, number, bound, h⟩
  · rintro e (he | rfl)
    · exact Or.inl he
    · exact Or.inr origin

private theorem silhouette (world : World r n W) (s : Silhouette) :
    Grown r n W n fun e => W e ∨ e = s.filter r := by
  refine world.add (Nat.le_refl n) ?_ (Or.inl ⟨s, rfl⟩)
  intro e he same
  rcases world.origin e he with ⟨s', rfl⟩ | ⟨stem, number, -, h⟩
  · rw [Silhouette.filterId_inj.mp same]
  · exact absurd (same.symm.trans h) (Silhouette.filterId_ne_mintedId s stem number)

private theorem mint (world : World r n W) {stem : String} (hd : d.id = mintedId stem (n + 1)) :
    Grown r n W (n + 1) fun e => W e ∨ e = d := by
  refine world.add (Nat.le_succ n) ?_ (Or.inr ⟨stem, n + 1, Nat.lt_succ_self n, Nat.le_refl _, hd⟩)
  intro e he same
  rw [hd] at same
  rcases world.origin e he with ⟨s, rfl⟩ | ⟨stem', number, bound, h⟩
  · exact absurd same (Silhouette.filterId_ne_mintedId s stem (n + 1))
  · rw [h, mintedId_inj] at same
    omega

end World

theorem Grown.trans {k : Nat} {W'' : Def → Prop} (h : Grown r n W m W')
    (h' : Grown r m W' k W'') : Grown r n W k W'' := by
  refine ⟨Nat.le_trans h.le h'.le, fun d hd => h'.sub d (h.sub d hd), h'.world, ?_⟩
  intro d hd
  rcases h'.origin d hd with hd | hd | ⟨stem, number, low, high, hd⟩
  · rcases h.origin d hd with hd | hd | ⟨stem, number, low, high, hd⟩
    · exact Or.inl hd
    · exact Or.inr (Or.inl hd)
    · exact Or.inr (Or.inr ⟨stem, number, low, Nat.le_trans high h'.le, hd⟩)
  · exact Or.inr (Or.inl hd)
  · exact Or.inr (Or.inr ⟨stem, number, Nat.lt_of_le_of_lt h.le low, high, hd⟩)

namespace Svg.Definitions

theorem Fits.empty
    (W : Def → Prop) : Definitions.empty.Fits W := ⟨by simp [Definitions.empty], .nil⟩

private theorem Fits.mono (fits : ds.Fits W) (sub : ∀ d, W d → W' d) : ds.Fits W' :=
  ⟨fun d mem => sub d (fits.within d mem), fits.ordered⟩

private theorem Fits.insert (fits : ds.Fits W) (hd : W d)
    (refs : ∀ r ∈ d.references, Offers ds.items r) : (ds.insert d).Fits W :=
  ⟨forall_insert fits.within hd, scoped_insert fits.ordered refs⟩

theorem Fits.merge (fits : ds.Fits W) (fits' : es.Fits W) (agree : Agree W) :
    (ds.merge es).Fits W :=
  ⟨forall_merge fits.within fits'.within,
    scoped_merge agree fits.within fits'.within fits.ordered fits'.ordered⟩

theorem Fits.subset_merge (fits : ds.Fits W) (fits' : es.Fits W) (agree : Agree W) :
    ds.items ⊆ (ds.merge es).items ∧ es.items ⊆ (ds.merge es).items :=
  ⟨fun _ mem => (mem_merge agree fits.within fits'.within).mpr (Or.inl mem),
    fun _ mem => (mem_merge agree fits.within fits'.within).mpr (Or.inr mem)⟩

theorem offers_insert (fits : ds.Fits W) (agree : Agree W) (hd : W d) :
    Offers (ds.insert d).items ⟨d.kind, d.id⟩ :=
  ⟨d, (mem_insert agree fits.within hd).mpr (Or.inr rfl), rfl, rfl⟩

end Svg.Definitions

namespace Fragment

variable {f : Fragment} {nodes : List Svg.Node}

private theorem Fits.plain (W : Def → Prop) (h : Svg.Node.referencesAll nodes = []) :
    Fits W ⟨nodes, Definitions.empty⟩ := by
  refine ⟨Definitions.Fits.empty W, ?_⟩
  intro ref mem
  rw [h] at mem
  simp at mem

theorem Fits.empty (W : Def → Prop) : Fragment.empty.Fits W := Fits.plain W rfl

private theorem Fits.mono (fits : f.Fits W) (sub : ∀ d, W d → W' d) : f.Fits W' :=
  ⟨fits.table.mono sub, fits.nodes⟩

theorem Fits.offers (fits : f.Fits W) (sub : f.definitions.items ⊆ ds.items) :
    ∀ ref ∈ Svg.Node.referencesAll f.nodes, Offers ds.items ref :=
  fun ref mem => (fits.nodes ref mem).mono sub

private theorem Fits.regroup (fits : f.Fits W)
    (sub : Svg.Node.referencesAll nodes ⊆ Svg.Node.referencesAll f.nodes) :
    Fits W ⟨nodes, f.definitions⟩ :=
  ⟨fits.table, fun ref mem => fits.nodes ref (sub mem)⟩

end Fragment

theorem Artifact.Fits.mono {a : Artifact} (fits : a.Fits W) (sub : ∀ d, W d → W' d) :
    a.Fits W' := by
  cases a with
  | vector f => exact Fragment.Fits.mono fits sub
  | raster p rendering => trivial

theorem Artifact.Fits.empty (W : Def → Prop) : Artifact.empty.Fits W := Fragment.Fits.empty W

theorem Artifact.Fits.toFragment {a : Artifact} (fits : a.Fits W) : (a.toFragment r).Fits W := by
  cases a with
  | vector f => exact fits
  | raster p rendering => exact Fragment.Fits.plain W rfl

theorem Artifact.Fits.getD {a : Option Artifact} (fits : ∀ b, a = some b → b.Fits W) :
    (a.getD .empty).Fits W := by
  cases a with
  | none => exact Artifact.Fits.empty W
  | some b => exact fits b rfl

private theorem Silhouette.references_content (s : Silhouette) (nodes : List Svg.Node)
    (ref : Reference) : ref ∈ Svg.Node.referencesAll (s.content r nodes) ↔
      ref = ⟨.filter, s.filterId⟩ ∨ ref ∈ Svg.Node.referencesAll nodes := by
  cases s <;> simp [content, Svg.Node.referencesAll, Svg.Node.references, Effects.references,
    Effects.none, Style.references, Style.white, Style.solid, Style.filled, Svg.Paint.references]

/-- A table with a new mask of some nodes, and with the filter of its silhouette. -/
structure Silhouette.Adds (s : Silhouette) (r : Resolution) (nodes : List Svg.Node)
    (ds es : Definitions) (id : String) : Prop where
  sub : ds.items ⊆ es.items
  filter_mem : s.filter r ∈ es.items
  mask_mem : Def.mask id (Svg.Region.roomy r) (s.content r nodes) ∈ es.items
  fresh : ∀ d ∈ ds.items, d.id ≠ id

private theorem Silhouette.Adds.offers {s : Silhouette} {nodes : List Svg.Node} {id : String}
    (adds : s.Adds r nodes ds es id) : Offers es.items ⟨.mask, id⟩ :=
  ⟨_, adds.mask_mem, rfl, rfl⟩

theorem Silhouette.Adds.widen {s : Silhouette} {nodes : List Svg.Node} {id : String}
    {es' : Definitions} (adds : s.Adds r nodes ds es id) (sub : es.items ⊆ es'.items) :
    s.Adds r nodes ds es' id :=
  ⟨List.Subset.trans adds.sub sub, sub adds.filter_mem, sub adds.mask_mem, adds.fresh⟩

theorem Silhouette.mask_fits (s : Silhouette) {nodes : List Svg.Node} {σ τ : Session}
    {id : String} (world : World r σ.minted W) (fits : ds.Fits W)
    (refs : ∀ ref ∈ Svg.Node.referencesAll nodes, Offers ds.items ref)
    (yields : (s.mask r ds nodes).Yields σ (es, id) τ) :
    τ.minted = σ.minted + 1 ∧ ∃ W', Grown r σ.minted W τ.minted W' ∧ es.Fits W' ∧
      s.Adds r nodes ds es id := by
  simp only [mask, Work.yields_bind, Work.yields_freshId, Work.yields_pure, Prod.mk.injEq] at yields
  obtain ⟨_, _, ⟨rfl, rfl⟩, ⟨rfl, rfl⟩, rfl⟩ := yields
  have first := world.silhouette s
  have table := fits.mono first.sub
  have fits₁ := table.insert (Or.inr rfl) (by simp [filter, Def.references])
  have filter_mem : s.filter r ∈ (ds.insert (s.filter r)).items :=
    (Definitions.mem_insert first.world.agree table.within (Or.inr rfl)).mpr (Or.inr rfl)
  have second := first.world.mint
    (d := .mask (mintedId "mask" (σ.minted + 1)) (Svg.Region.roomy r) (s.content r nodes)) rfl
  have table₁ := fits₁.mono second.sub
  have refs₁ : ∀ ref ∈ Svg.Node.referencesAll (s.content r nodes),
      Offers (ds.insert (s.filter r)).items ref := by
    intro ref mem
    rcases (s.references_content nodes ref).mp mem with rfl | mem
    · exact ⟨_, filter_mem, rfl, rfl⟩
    · exact (refs ref mem).mono (Definitions.subset_insert ds _)
  refine ⟨rfl, _, first.trans second, table₁.insert (Or.inr rfl) refs₁, ?_⟩
  refine ⟨List.Subset.trans (Definitions.subset_insert ds _) (Definitions.subset_insert _ _),
    Definitions.subset_insert _ _ filter_mem,
    (Definitions.mem_insert second.world.agree table₁.within (Or.inr rfl)).mpr (Or.inr rfl), ?_⟩
  intro d mem same
  -- No older definition has the id of the mask: it has another stem or a lower number.
  rcases world.origin d (fits.within d mem) with ⟨l, rfl⟩ | ⟨stem, number, bound, h⟩
  · exact l.filterId_ne_mintedId _ _ same
  · rw [h, mintedId_inj] at same
    omega

/-- Work whose artifact fits a world that grew out of the one it found, by at most two ids. -/
def Work.Keeps (r : Resolution) (W : Def → Prop) (x : Work Artifact) : Prop :=
  ∀ s a t, World r s.minted W → x.Yields s a t →
    t.minted ≤ s.minted + 2 ∧ ∃ W', Grown r s.minted W t.minted W' ∧ a.Fits W'

open Work (Keeps)

private theorem Work.Keeps.pure {a : Artifact} (fits : a.Fits W) : Keeps r W (Pure.pure a) := by
  intro s b t world yields
  obtain ⟨rfl, rfl⟩ := (Work.yields_pure _ _ _ _).mp yields
  exact ⟨Nat.le_add_right _ _, W, world.grown, fits⟩

private theorem Work.Keeps.define {f : Fragment} (fits : f.Fits W) (stem : String)
    (nodes : String → List Svg.Node) (d : String → Def) (id_eq : ∀ id, (d id).id = id)
    (closed : ∀ id, (d id).references = [])
    (refs : ∀ id, ∀ ref ∈ Svg.Node.referencesAll (nodes id),
      ref = ⟨(d id).kind, id⟩ ∨ ref ∈ Svg.Node.referencesAll f.nodes) :
    Keeps r W do
      let id ← Work.freshId stem
      return .ofNodes (nodes id) (f.definitions.insert (d id)) := by
  intro s a t world yields
  simp only [Work.yields_bind, Work.yields_freshId, Work.yields_pure] at yields
  obtain ⟨_, _, ⟨rfl, rfl⟩, rfl, rfl⟩ := yields
  have grown := world.mint (id_eq (mintedId stem (s.minted + 1)))
  have table := fits.table.mono grown.sub
  refine ⟨Nat.add_le_add_left (by decide) _, _, grown,
    table.insert (Or.inr rfl) (by simp [closed]), ?_⟩
  intro ref mem
  rcases refs _ ref mem with rfl | mem
  · have offered := Definitions.offers_insert table grown.world.agree (Or.inr rfl)
    rwa [id_eq] at offered
  · exact (fits.nodes ref mem).mono (Definitions.subset_insert _ _)

private theorem Shapes.plain_fits (path : Plane.Path) : (Shapes.plain r path).Fits W :=
  Fragment.Fits.plain W rfl

private theorem Shapes.gradientFilled_keeps (stem : String) (gradient : String → Svg.LinearGradient)
    (id_eq : ∀ id, (gradient id).id = id) (node : Style → Svg.Node)
    (painted : ∀ style, (node style).references = style.references) :
    Keeps r W do
      let id ← Work.freshId stem
      return Shapes.gradientFilled (gradient id) node := by
  refine Work.Keeps.define (Fragment.Fits.empty W) stem
    (fun id => [node (Style.filled (.reference (gradient id).id))])
    (fun id => .gradient (gradient id)) id_eq (fun _ => rfl) ?_
  intro id ref mem
  left
  simpa [Svg.Node.referencesAll, painted, Style.references, Style.filled, Svg.Paint.references,
    id_eq, Def.kind] using mem

private theorem Shapes.beam_keeps (s : BeamSettings) : Keeps r W (Shapes.beam r s) :=
  Shapes.gradientFilled_keeps "beam" _ (fun _ => rfl) _ (fun _ => rfl)

private theorem Shapes.gradient_keeps (g : Gradient) : Keeps r W (Shapes.gradient r g) :=
  Shapes.gradientFilled_keeps "gradient" _ (fun _ => rfl) _ (fun _ => rfl)

private theorem Swatches.color_keeps (s : ColorSettings) {input : Option Artifact}
    (fits : ∀ a, input = some a → a.Fits W) : Keeps r W (Swatches.color r s input) := by
  cases input with
  | none => exact Work.Keeps.pure (Fragment.Fits.plain W rfl)
  | some a =>
    have fitsA : (a.toFragment r).Fits W := (fits a rfl).toFragment
    intro σ b τ world yields
    simp only [color, Work.yields_bind, Work.yields_pure] at yields
    obtain ⟨⟨definitions, mask⟩, u, masked, rfl, rfl⟩ := yields
    obtain ⟨minted, W', grown, table, adds⟩ :=
      Silhouette.white.mask_fits world fitsA.table fitsA.nodes masked
    refine ⟨by omega, W', grown, table, ?_⟩
    intro ref mem
    simp only [Svg.Node.referencesAll, Svg.Node.references, Effects.isolate, Effects.references,
      Effects.none, swatch, Svg.Node.canvas, Svg.Node.referencesAll_append, Style.references,
      Style.solid, Style.filled, Svg.Paint.references, Option.map_none, Option.map_some,
      Option.toList_none, Option.toList_some, List.nil_append, List.append_nil, List.mem_append,
      List.mem_singleton] at mem
    rcases mem with mem | rfl
    · exact (fitsA.nodes ref mem).mono adds.sub
    · exact adds.offers

private theorem Swatches.alpha_fits (opacity : Float) {input : Option Artifact}
    (fits : ∀ a, input = some a → a.Fits W) : (Swatches.alpha r opacity input).Fits W := by
  cases input with
  | none => exact Fragment.Fits.plain W rfl
  | some a =>
    refine Fragment.Fits.regroup (fits a rfl).toFragment ?_
    simp [Svg.Node.referencesAll, Svg.Node.references, Effects.references, Effects.none]

private theorem Swatches.image_keeps (payload : Option String) :
    Keeps r W (Work.ofExcept (Swatches.image payload)) := by
  intro s a t world yields
  obtain ⟨made, rfl⟩ := (Work.yields_ofExcept _ _ _ _).mp yields
  refine ⟨Nat.le_add_right _ _, W, world.grown, ?_⟩
  obtain rfl | ⟨text, p, -, rfl⟩ := image_ok made
  · exact Artifact.Fits.empty W
  · trivial

private theorem Restyle.apply_fits {f : Style → Style}
    (h : ∀ style ref, ref ∈ (f style).references → ref ∈ style.references)
    {input : Option Artifact} (fits : ∀ a, input = some a → a.Fits W) :
    (Restyle.apply f input).Fits W := by
  rcases input with _ | ⟨fragment⟩ | _
  · exact Artifact.Fits.empty W
  · refine Fragment.Fits.regroup (f := fragment) (fits _ rfl) ?_
    intro ref mem
    exact Svg.Node.references_restyleAll h fragment.nodes ref mem
  · trivial

private theorem Restyle.references_fillStyle (s : FillSettings) (style : Style) (ref : Reference)
    (mem : ref ∈ (fillStyle s style).references) : ref ∈ style.references := by
  simp only [fillStyle, Style.references] at mem
  split at mem <;> split at mem <;> simp [Svg.Paint.references] at mem

private theorem Restyle.references_strokeStyle (s : StrokeSettings) (style : Style)
    (ref : Reference) (mem : ref ∈ (strokeStyle s style).references) : ref ∈ style.references := by
  simp only [strokeStyle, Style.references, Svg.Paint.references, List.append_nil] at mem ⊢
  exact List.mem_append_left _ mem

private theorem Place.apply_fits (m : Plane.Affine) {input : Option Artifact}
    (fits : ∀ a, input = some a → a.Fits W) : (Place.apply r m input).Fits W := by
  cases input with
  | none => exact Artifact.Fits.empty W
  | some a =>
    refine Fragment.Fits.regroup (fits a rfl).toFragment ?_
    simp [Svg.Node.referencesAll, Svg.Node.references, Effects.references, Effects.none]

private theorem Soften.filtered_keeps (stem : String) (region : Svg.Region)
    (primitives : List Svg.Primitive) {a : Artifact} (fits : a.Fits W) :
    Keeps r W (Soften.filtered r stem region primitives a) := by
  refine Work.Keeps.define fits.toFragment stem
    (fun id => [.group { Effects.none with filter := some id } (a.toFragment r).nodes])
    (fun id => .filter id region primitives) (fun _ => rfl) (fun _ => rfl) ?_
  intro id ref mem
  simpa [Svg.Node.referencesAll, Svg.Node.references, Effects.references, Effects.none,
    Def.kind] using mem

private theorem Soften.glow_keeps (s : GlowSettings) {input : Option Artifact}
    (fits : ∀ a, input = some a → a.Fits W) : Keeps r W (Soften.glow r s input) := by
  cases input with
  | none => exact Work.Keeps.pure (Artifact.Fits.empty W)
  | some a => exact Soften.filtered_keeps _ _ _ (fits a rfl)

private theorem Soften.blur_keeps (radius : Float) {input : Option Artifact}
    (fits : ∀ a, input = some a → a.Fits W) : Keeps r W (Soften.blur r radius input) := by
  cases input with
  | none => exact Work.Keeps.pure (Artifact.Fits.empty W)
  | some a => exact Soften.filtered_keeps _ _ _ (fits a rfl)

private theorem Soften.fade_keeps (s : FadeSettings) {input : Option Artifact}
    (fits : ∀ a, input = some a → a.Fits W) : Keeps r W (Soften.fade r s input) := by
  cases input with
  | none => exact Work.Keeps.pure (Artifact.Fits.empty W)
  | some a =>
    have fitsA : (a.toFragment r).Fits W := (fits a rfl).toFragment
    intro σ b τ world yields
    simp only [fade, Work.yields_bind, Work.yields_freshId, Work.yields_pure] at yields
    obtain ⟨_, _, ⟨rfl, rfl⟩, _, _, ⟨rfl, rfl⟩, rfl, rfl⟩ := yields
    have first := world.mint (d := .gradient (ramp r s (mintedId "fade_grad" (σ.minted + 1)))) rfl
    have table₁ := (fitsA.table.mono first.sub).insert (Or.inr rfl) (by
      simp [Def.references])
    have ramped := Definitions.offers_insert (fitsA.table.mono first.sub) first.world.agree
      (d := .gradient (ramp r s (mintedId "fade_grad" (σ.minted + 1)))) (Or.inr rfl)
    have second := first.world.mint (d := .mask (mintedId "fade_mask" (σ.minted + 1 + 1))
      (Svg.Region.roomy r) [.shape (.box (Svg.Region.roomy r).box)
        (Style.filled (.reference (mintedId "fade_grad" (σ.minted + 1))))]) rfl
    refine ⟨by simp, _, first.trans second,
      (table₁.mono second.sub).insert (Or.inr rfl) ?_, ?_⟩
    · intro ref mem
      simp only [Def.references, Svg.Node.referencesAll, Svg.Node.references, Style.references,
        Style.filled, Svg.Paint.references, List.append_nil, List.mem_singleton] at mem
      subst mem
      exact ramped
    · intro ref mem
      simp only [Svg.Node.referencesAll, Svg.Node.references, Effects.references, Effects.none,
        Option.map_none, Option.map_some, Option.toList_none, Option.toList_some, List.nil_append,
        List.append_nil, List.mem_append, List.mem_singleton] at mem
      rcases mem with rfl | mem
      · exact Definitions.offers_insert (table₁.mono second.sub) second.world.agree (Or.inr rfl)
      · exact (fitsA.nodes ref mem).mono
          (List.Subset.trans (Definitions.subset_insert _ _) (Definitions.subset_insert _ _))

private theorem Combination.references_blended (blend : Svg.Blend) (nodes : List Svg.Node) :
    (blended blend nodes).references = Svg.Node.referencesAll nodes := by
  simp [blended, Svg.Node.references, Effects.references, Effects.none]

private theorem Combination.references_masked (mask : String) (blend : Svg.Blend)
    (nodes : List Svg.Node) :
    (masked mask blend nodes).references = ⟨.mask, mask⟩ :: Svg.Node.referencesAll nodes := by
  simp [masked, Svg.Node.references, Effects.references, Effects.none]

private theorem Combination.offers_blended {first second : List Svg.Node} (blend blend' : Svg.Blend)
    (refs : ∀ ref ∈ Svg.Node.referencesAll first, Offers ds.items ref)
    (refs' : ∀ ref ∈ Svg.Node.referencesAll second, Offers ds.items ref) :
    ∀ ref ∈ Svg.Node.referencesAll [blended blend first, blended blend' second],
      Offers ds.items ref := by
  intro ref mem
  simp only [Svg.Node.referencesAll, references_blended, List.append_nil, List.mem_append] at mem
  exact mem.elim (refs ref) (refs' ref)

private theorem Combination.children_fits (c : Combination) {first second nodes : List Svg.Node}
    {σ τ : Session} (world : World r σ.minted W) (fits : ds.Fits W)
    (refs : ∀ ref ∈ Svg.Node.referencesAll first, Offers ds.items ref)
    (refs' : ∀ ref ∈ Svg.Node.referencesAll second, Offers ds.items ref)
    (yields : (c.children r ds first second).Yields σ (nodes, es) τ) :
    τ.minted ≤ σ.minted + 2 ∧ ∃ W', Grown r σ.minted W τ.minted W' ∧ es.Fits W' ∧
      ∀ ref ∈ Svg.Node.referencesAll nodes, Offers es.items ref := by
  cases c with
  | union =>
    simp only [children, Work.yields_pure, Prod.mk.injEq] at yields
    obtain ⟨⟨rfl, rfl⟩, rfl⟩ := yields
    exact ⟨Nat.le_add_right _ _, W, world.grown, fits, offers_blended _ _ refs refs'⟩
  | exclusion =>
    simp only [children, Work.yields_pure, Prod.mk.injEq] at yields
    obtain ⟨⟨rfl, rfl⟩, rfl⟩ := yields
    exact ⟨Nat.le_add_right _ _, W, world.grown, fits, offers_blended _ _ refs refs'⟩
  | difference =>
    simp only [children, Work.yields_bind, Work.yields_pure, Prod.mk.injEq] at yields
    obtain ⟨⟨ds₁, hidden⟩, u, masked, ⟨rfl, rfl⟩, rfl⟩ := yields
    obtain ⟨minted, W', grown, table, adds⟩ :=
      Silhouette.black.mask_fits world fits refs' masked
    refine ⟨by omega, W', grown, table, ?_⟩
    intro ref mem
    simp only [Svg.Node.referencesAll, references_masked, List.append_nil, List.mem_cons] at mem
    rcases mem with rfl | mem
    · exact adds.offers
    · exact (refs ref mem).mono adds.sub
  | intersection =>
    simp only [children, Work.yields_bind, Work.yields_pure, Prod.mk.injEq] at yields
    obtain ⟨⟨ds₁, inSecond⟩, u, masked, ⟨ds₂, inFirst⟩, v, masked', ⟨rfl, rfl⟩, rfl⟩ := yields
    obtain ⟨minted, W₁, grown, table, adds⟩ :=
      Silhouette.white.mask_fits world fits refs' masked
    -- The second mask is made in the world of the first.
    obtain ⟨minted', W₂, grown', table', adds'⟩ := Silhouette.white.mask_fits grown.world table
      (fun ref mem => (refs ref mem).mono adds.sub) masked'
    have sub := List.Subset.trans adds.sub adds'.sub
    refine ⟨by omega, W₂, grown.trans grown', table', ?_⟩
    intro ref mem
    simp only [Svg.Node.referencesAll, references_masked, List.append_nil, List.cons_append,
      List.mem_cons, List.mem_append] at mem
    rcases mem with rfl | mem | rfl | mem
    · exact adds.offers.mono adds'.sub
    · exact (refs ref mem).mono sub
    · exact adds'.offers
    · exact (refs' ref mem).mono sub

private theorem Combination.apply_keeps (c : Combination) {first second : Option Artifact}
    (fits : ∀ a, first = some a → a.Fits W) (fits' : ∀ a, second = some a → a.Fits W) :
    Keeps r W (c.apply r first second) := by
  intro σ a τ world yields
  have f : ((first.getD .empty).toFragment r).Fits W := (Artifact.Fits.getD fits).toFragment
  have g : ((second.getD .empty).toFragment r).Fits W := (Artifact.Fits.getD fits').toFragment
  have merged := f.table.merge g.table world.agree
  obtain ⟨sub, sub'⟩ := f.table.subset_merge g.table world.agree
  simp only [apply, Work.yields_bind, Work.yields_pure] at yields
  obtain ⟨⟨nodes, es⟩, u, made, rfl, rfl⟩ := yields
  obtain ⟨minted, W', grown, table, offered⟩ :=
    c.children_fits world merged (f.offers sub) (g.offers sub') made
  refine ⟨minted, W', grown, table, ?_⟩
  intro ref mem
  refine offered ref ?_
  simpa [Svg.Node.referencesAll, Svg.Node.references, Effects.references, Effects.isolate,
    Effects.none] using mem

private theorem Pixelate.apply_keeps (canvas : Canvas) (size : Nat) {input : Option Artifact}
    (fits : ∀ a, input = some a → a.Fits W) : Keeps r W (Pixelate.apply canvas size input) := by
  cases input with
  | none => exact Work.Keeps.pure (Artifact.Fits.empty W)
  | some a =>
    intro σ b τ world yields
    have minted : τ.minted = σ.minted :=
      (Work.MintsNothing.tryCatch ((Artifact.bake_paints _ _ _).mintsNothing.bind fun _ =>
        Work.MintsNothing.pure _) fun _ => Work.MintsNothing.pure _).minted_eq yields
    refine ⟨by omega, W, minted.symm ▸ world.grown, ?_⟩
    rw [apply, Work.yields_tryCatch] at yields
    rcases yields with yields | ⟨_, _, _, yields⟩
    · simp only [Work.yields_bind, Work.yields_pure] at yields
      obtain ⟨p, u, baked, rfl, rfl⟩ := yields
      trivial
    · obtain ⟨rfl, rfl⟩ := (Work.yields_pure _ _ _ _).mp yields
      exact fits a rfl

private theorem Polar.apply_keeps (canvas : Canvas) (s : PolarSettings) (input : Option Artifact) :
    Keeps r W (Polar.apply canvas s input) := by
  cases input with
  | none => exact Work.Keeps.pure (Artifact.Fits.empty W)
  | some a =>
    intro σ b τ world yields
    simp only [apply, Work.yields_bind, Work.yields_pure] at yields
    obtain ⟨p, u, baked, rfl, rfl⟩ := yields
    have minted := (Artifact.bake_paints _ _ _).mintsNothing.minted_eq baked
    exact ⟨by omega, W, minted.symm ▸ world.grown, trivial⟩

/-- What an operator makes of inputs that fit the world fits a world that grew by at most two
ids. -/
theorem Settings.apply_keeps (settings : Settings) (canvas : Canvas) {inputs : Inputs}
    (fits : inputs.Fits W) : Keeps canvas.resolution W (settings.apply canvas inputs) := by
  cases settings with
  | rectangle s => exact Work.Keeps.pure (Shapes.plain_fits _)
  | circle s => exact Work.Keeps.pure (Shapes.plain_fits _)
  | polygon s => exact Work.Keeps.pure (Shapes.plain_fits _)
  | wavyRing s => exact Work.Keeps.pure (Shapes.plain_fits _)
  | beam s => exact Shapes.beam_keeps s
  | gradient g => exact Shapes.gradient_keeps g
  | color s => exact Swatches.color_keeps s fits.only
  | value level => exact Work.Keeps.pure (Fragment.Fits.plain W rfl)
  | alpha opacity => exact Work.Keeps.pure (Swatches.alpha_fits opacity fits.only)
  | image payload => exact Swatches.image_keeps payload
  | math c => exact c.apply_keeps fits.first fits.second
  | fill s =>
    exact Work.Keeps.pure (Restyle.apply_fits (Restyle.references_fillStyle s) fits.only)
  | glow s => exact Soften.glow_keeps s fits.only
  | softBlur radius => exact Soften.blur_keeps radius fits.only
  | stroke s =>
    exact Work.Keeps.pure (Restyle.apply_fits (Restyle.references_strokeStyle s) fits.only)
  | gradientFade s => exact Soften.fade_keeps s fits.only
  | pixelate size => exact Pixelate.apply_keeps canvas size fits.only
  | translate s => exact Work.Keeps.pure (Place.apply_fits _ fits.only)
  | rotate degrees => exact Work.Keeps.pure (Place.apply_fits _ fits.only)
  | scale factor => exact Work.Keeps.pure (Place.apply_fits _ fits.only)
  | polar s => exact Polar.apply_keeps canvas s inputs.only
  | output =>
    refine Work.Keeps.pure ?_
    cases connected : inputs.only with
    | none => exact Fragment.Fits.plain W rfl
    | some a => exact fits.only a connected
  | unknown => exact Work.Keeps.pure (Artifact.Fits.empty W)

end

end Texture
