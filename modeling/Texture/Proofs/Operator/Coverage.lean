/- Texture/Proofs/Operator/Coverage
   digest: Combined pictures are opaque where the sets of their inputs say so, whatever their
   colours. -/

import Mathlib.Data.List.Nodup
import Mathlib.Data.List.Perm.Subperm
import Texture.Proofs.Operator.Scope
import Texture.Proofs.Svg.Reading

set_option autoImplicit false
set_option relaxedAutoImplicit false

namespace Texture

open Svg (Blend Def Definitions Effects Renderer Sample Scoped Style alpha_opacity opacity
  opacity_le_one opacity_mul opacity_nonneg)

section

variable {P : Type}

def Svg.Renderer.fragment (R : Renderer P) (f : Fragment) : P → Sample :=
  R.reading f.definitions f.nodes Sample.clear

end

namespace Silhouette

def level : Silhouette → ℚ
  | white => 1
  | black => 0

def shows : Silhouette → Bool → Bool
  | white, covered => covered
  | black, covered => !covered

private theorem recolor_matrix (s : Silhouette) {x : Sample} (low : 0 ≤ x.alpha)
    (high : x.alpha ≤ 1) : x.recolor s.matrix =
      ⟨x.alpha * s.level, x.alpha * s.level, x.alpha * s.level, x.alpha⟩ := by
  have keeps := Svg.clampUnit_of_mem low high
  cases s <;>
    simp [Sample.recolor, Sample.matrixRow, matrix, level, Sample.fade, Number.exactValue_zero,
      Number.exactValue_one, keeps] <;>
    norm_num [Svg.clampUnit]

end Silhouette

section

variable {P : Type} {R : Renderer P} {r : Resolution} {W : Def → Prop} {ds es : Definitions}
  {f g : Fragment}

private theorem Svg.Scoped.length_le {items others : List Def} (table : Scoped items)
    (sub : items ⊆ others) : items.length ≤ others.length :=
  ((List.Nodup.of_map _ table.distinct).subperm sub).length_le

private theorem Fragment.Fits.nodes_eq (fits : f.Fits W) (table : Scoped es.items)
    (sub : f.definitions.items ⊆ es.items) {depth : Nat}
    (deep : f.definitions.items.length ≤ depth) :
    R.nodes es (R.mask es depth) f.nodes (fun _ => Sample.clear) = R.fragment f :=
  R.nodes_in_larger fits.table.ordered table sub fits.nodes deep _

private theorem Fragment.Fits.nodes_whole (fits : f.Fits W) (table : Scoped es.items)
    (sub : f.definitions.items ⊆ es.items) :
    R.nodes es (R.mask es es.items.length) f.nodes (fun _ => Sample.clear) = R.fragment f :=
  fits.nodes_eq table sub (fits.table.ordered.length_le sub)

private theorem Silhouette.Adds.length_lt {s : Silhouette} {id : String}
    (adds : s.Adds r f.nodes ds es id) (fits : f.Fits W) (sub : f.definitions.items ⊆ ds.items) :
    f.definitions.items.length < es.items.length := by
  have nodup : (Def.mask id (Svg.Region.roomy r) (s.content r f.nodes) ::
      f.definitions.items).Nodup := by
    refine List.nodup_cons.mpr ⟨?_, List.Nodup.of_map _ fits.table.ordered.distinct⟩
    intro mem
    exact adds.fresh _ (sub mem) rfl
  refine (nodup.subperm ?_).length_le
  intro d mem
  rcases List.mem_cons.mp mem with rfl | mem
  · exact adds.mask_mem
  · exact adds.sub (sub mem)

private theorem Silhouette.node_footprint (s : Silhouette) {masks : String → P → ℚ}
    {ns : List Svg.Node} {picture : P → Sample} {p : P}
    (found : es.get? s.filterId = some (s.filter r))
    (layer : R.nodes es masks ns (fun _ => Sample.clear) = picture)
    (low : 0 ≤ (picture p).alpha) (high : (picture p).alpha ≤ 1) :
    R.node es masks (.group { Effects.none with filter := some s.filterId } ns) p =
      ⟨(picture p).alpha * s.level, (picture p).alpha * s.level,
        (picture p).alpha * s.level, (picture p).alpha⟩ := by
  rw [← s.recolor_matrix low high, Renderer.node, layer]
  simp [Effects.none, Renderer.moved, Renderer.faded, Renderer.masked, Renderer.filtered, found,
    filter, Svg.colorMatrix?]

private theorem Silhouette.mask_covers (s : Silhouette) {id : String} {region : P → Bool}
    (fills : R.FillsBoxes) (fits : f.Fits W) (table : Scoped es.items)
    (sub : f.definitions.items ⊆ ds.items) (adds : s.Adds r f.nodes ds es id)
    (covers : R.Covers r (R.fragment f) region) :
    ∀ p, (R.extent p).OnCanvas r →
      R.mask es es.items.length id p = opacity (s.shows (region p)) := by
  intro p on
  -- What the mask paints is read at a depth that still exceeds the table of the fragment.
  have room := adds.length_lt fits sub
  obtain ⟨depth, length⟩ : ∃ depth, es.items.length = depth + 1 :=
    ⟨es.items.length - 1, by omega⟩
  have maskFound : es.get? id = some (.mask id (Svg.Region.roomy r) (s.content r f.nodes)) :=
    Renderer.get?_of_mem table.distinct adds.mask_mem
  have layer : R.nodes es (R.mask es depth) f.nodes (fun _ => Sample.clear) = R.fragment f :=
    fits.nodes_eq table (List.Subset.trans sub adds.sub) (by omega)
  have covered := covers p on
  have low : 0 ≤ (R.fragment f p).alpha := by
    rw [covered]
    exact opacity_nonneg _
  have high : (R.fragment f p).alpha ≤ 1 := by
    rw [covered]
    exact opacity_le_one _
  have footprint := s.node_footprint
    (Renderer.get?_of_mem table.distinct adds.filter_mem) layer low high
  have normal : (Svg.Node.group { Effects.none with filter := some s.filterId } f.nodes).blend =
      .normal := rfl
  rw [length, Renderer.mask, maskFound]
  cases s with
  | white =>
    simp only [content, List.nil_append, Renderer.nodes, normal, footprint, Sample.lay_clear,
      covered]
    cases region p <;> norm_num [Sample.coverage, opacity, level, shows]
  | black =>
    have box : R.node es (R.mask es depth)
        (.shape (.box (Svg.Region.roomy r).box) Style.white) p = Sample.white := by
      rw [Renderer.node]
      exact (fills _ _ p on.within_roomy).trans Sample.ofColor_white
    have plain : (Svg.Node.shape (.box (Svg.Region.roomy r).box) Style.white).blend = .normal := rfl
    simp only [content, List.cons_append, List.nil_append, Renderer.nodes, box, plain, normal,
      footprint, Sample.lay_clear, covered]
    cases region p <;>
      norm_num [Sample.coverage, Sample.lay, Blend.color, Sample.white, opacity, level, shows]

theorem Svg.Renderer.fragment_isolated (ns : List Svg.Node) :
    R.fragment ((Artifact.ofNodes [.group Effects.isolate ns] es).toFragment r) =
      R.reading es ns Sample.clear := by
  have blend : (Svg.Node.group Effects.isolate ns).blend = .normal := rfl
  have layer : R.node es (R.mask es es.items.length) (.group Effects.isolate ns) =
      R.nodes es (R.mask es es.items.length) ns fun _ => Sample.clear := by
    rw [Renderer.node]
    rfl
  funext p
  simp only [Renderer.fragment, Artifact.ofNodes, Artifact.toFragment, Renderer.reading,
    Renderer.nodes, blend, layer, Sample.lay_clear]

namespace Combination

def holds : Combination → Bool → Bool → Bool
  | union, a, b => a || b
  | difference, a, b => a && !b
  | intersection, a, b => a && b
  | exclusion, a, b => a || b

private theorem node_blended (masks : String → P → ℚ) (blend : Blend) (ns : List Svg.Node) :
    R.node es masks (blended blend ns) = R.nodes es masks ns fun _ => Sample.clear := by
  rw [blended, Renderer.node]
  rfl

private theorem node_masked (masks : String → P → ℚ) (mask : String) (blend : Blend)
    (ns : List Svg.Node) :
    R.node es masks (masked mask blend ns) = fun p =>
      (R.nodes es masks ns (fun _ => Sample.clear) p).fade (masks mask p) := by
  rw [masked, Renderer.node]
  rfl

private theorem blend_blended (blend : Blend) (ns : List Svg.Node) :
    (blended blend ns).blend = blend := rfl

private theorem blend_masked (mask : String) (blend : Blend) (ns : List Svg.Node) :
    (masked mask blend ns).blend = blend := rfl

variable {A B : P → Bool}

private theorem overlay_covers (blend : Blend) (fits : f.Fits W) (fits' : g.Fits W)
    (table : Scoped es.items) (sub : f.definitions.items ⊆ es.items)
    (sub' : g.definitions.items ⊆ es.items) (covers : R.Covers r (R.fragment f) A)
    (covers' : R.Covers r (R.fragment g) B) :
    R.Covers r (R.reading es [blended .normal f.nodes, blended blend g.nodes] Sample.clear)
      fun p => A p || B p := by
  intro p on
  simp only [Renderer.reading, Renderer.nodes, node_blended, blend_blended, Sample.lay_clear,
    fits.nodes_whole table sub, fits'.nodes_whole table sub', Sample.alpha_lay]
  rw [covers p on, covers' p on, alpha_opacity]

variable {s t : Session}

private theorem cut_covers (fills : R.FillsBoxes) (l : Silhouette) {mask : String}
    (world : World r s.minted W) (fits : f.Fits W) (fits' : g.Fits W) (table : ds.Fits W)
    (sub : f.definitions.items ⊆ ds.items) (sub' : g.definitions.items ⊆ ds.items)
    (covers : R.Covers r (R.fragment f) A) (covers' : R.Covers r (R.fragment g) B)
    (yields : (l.mask r ds g.nodes).Yields s (es, mask) t) :
    R.Covers r (R.reading es [masked mask .normal f.nodes] Sample.clear)
      fun p => A p && l.shows (B p) := by
  obtain ⟨-, W', -, table', adds⟩ := l.mask_fits world table (fits'.offers sub') yields
  intro p on
  have seen := l.mask_covers fills fits' table'.ordered sub' adds covers' p on
  simp only [Renderer.reading, Renderer.nodes, node_masked, blend_masked, Sample.lay_clear,
    fits.nodes_whole table'.ordered (List.Subset.trans sub adds.sub), Sample.alpha_fade]
  rw [seen, covers p on, opacity_mul, Bool.and_comm]

private theorem children_covers (fills : R.FillsBoxes) (c : Combination) {nodes : List Svg.Node}
    (world : World r s.minted W) (fits : f.Fits W) (fits' : g.Fits W) (table : ds.Fits W)
    (sub : f.definitions.items ⊆ ds.items) (sub' : g.definitions.items ⊆ ds.items)
    (covers : R.Covers r (R.fragment f) A) (covers' : R.Covers r (R.fragment g) B)
    (yields : (c.children r ds f.nodes g.nodes).Yields s (nodes, es) t) :
    R.Covers r (R.reading es nodes Sample.clear) fun p => c.holds (A p) (B p) := by
  cases c with
  | union =>
    simp only [children, Work.yields_pure, Prod.mk.injEq] at yields
    obtain ⟨⟨rfl, rfl⟩, rfl⟩ := yields
    exact overlay_covers _ fits fits' table.ordered sub sub' covers covers'
  | exclusion =>
    simp only [children, Work.yields_pure, Prod.mk.injEq] at yields
    obtain ⟨⟨rfl, rfl⟩, rfl⟩ := yields
    exact overlay_covers _ fits fits' table.ordered sub sub' covers covers'
  | difference =>
    simp only [children, Work.yields_bind, Work.yields_pure, Prod.mk.injEq] at yields
    obtain ⟨⟨ds₁, hidden⟩, u, made, ⟨rfl, rfl⟩, rfl⟩ := yields
    exact cut_covers fills .black world fits fits' table sub sub' covers covers' made
  | intersection =>
    simp only [children, Work.yields_bind, Work.yields_pure, Prod.mk.injEq] at yields
    obtain ⟨⟨ds₁, inSecond⟩, u, made, ⟨ds₂, inFirst⟩, v, made', ⟨rfl, rfl⟩, rfl⟩ := yields
    obtain ⟨-, W₁, grown, table₁, adds⟩ :=
      Silhouette.white.mask_fits world table (fits'.offers sub') made
    have sub₁ := List.Subset.trans sub adds.sub
    obtain ⟨-, W₂, -, table₂, adds'⟩ :=
      Silhouette.white.mask_fits grown.world table₁ (fits.offers sub₁) made'
    -- The masks are read in the last table, which has all of the earlier ones.
    have sub₂ := List.Subset.trans sub₁ adds'.sub
    have sub₂' := List.Subset.trans sub' (List.Subset.trans adds.sub adds'.sub)
    intro p on
    have second := Silhouette.white.mask_covers fills fits' table₂.ordered sub'
      (adds.widen adds'.sub) covers' p on
    have first := Silhouette.white.mask_covers fills fits table₂.ordered sub₁ adds' covers p on
    simp only [Renderer.reading, Renderer.nodes, node_masked, blend_masked, Sample.lay_clear,
      fits.nodes_whole table₂.ordered sub₂, fits'.nodes_whole table₂.ordered sub₂',
      Sample.alpha_lay, Sample.alpha_fade]
    rw [second, first, covers p on, covers' p on, opacity_mul, opacity_mul, alpha_opacity]
    simp only [Silhouette.shows, holds, Bool.and_comm (B p), Bool.or_self]

/-- A combination covers what its rule says, whatever the colours. -/
theorem apply_covers (fills : R.FillsBoxes) (c : Combination) {first second : Option Artifact}
    {a : Artifact} (world : World r s.minted W)
    (fits : ∀ b, first = some b → b.Fits W) (fits' : ∀ b, second = some b → b.Fits W)
    (covers : R.Covers r (R.fragment ((first.getD .empty).toFragment r)) A)
    (covers' : R.Covers r (R.fragment ((second.getD .empty).toFragment r)) B)
    (yields : (c.apply r first second).Yields s a t) :
    R.Covers r (R.fragment (a.toFragment r)) fun p => c.holds (A p) (B p) := by
  simp only [apply, Work.yields_bind, Work.yields_pure] at yields
  obtain ⟨⟨nodes, ds⟩, u, combined, rfl, rfl⟩ := yields
  have f : ((first.getD .empty).toFragment r).Fits W := (Artifact.Fits.getD fits).toFragment
  have g : ((second.getD .empty).toFragment r).Fits W := (Artifact.Fits.getD fits').toFragment
  have merged := f.table.merge g.table world.agree
  obtain ⟨sub, sub'⟩ := f.table.subset_merge g.table world.agree
  rw [Renderer.fragment_isolated]
  exact c.children_covers fills world f g merged sub sub' covers covers' combined

end Combination

theorem Swatches.color_covers (fills : R.FillsBoxes) (settings : ColorSettings)
    {input a : Artifact} {A : P → Bool} {s t : Session} (world : World r s.minted W)
    (fits : input.Fits W) (covers : R.Covers r (R.fragment (input.toFragment r)) A)
    (yields : (Swatches.color r settings (some input)).Yields s a t) :
    R.Covers r (R.fragment (a.toFragment r)) A := by
  have fitsA : (input.toFragment r).Fits W := fits.toFragment
  simp only [color, Work.yields_bind, Work.yields_pure] at yields
  obtain ⟨⟨ds, mask⟩, u, masked, rfl, rfl⟩ := yields
  obtain ⟨-, W', grown, table, adds⟩ :=
    Silhouette.white.mask_fits world fitsA.table fitsA.nodes masked
  intro p on
  have inside := Silhouette.white.mask_covers fills fitsA table.ordered (List.Subset.refl _) adds
    covers p on
  have tint : (Svg.Node.group { Effects.none with mask := some mask, blend := .multiply }
      [swatch r settings]) = Combination.masked mask .multiply [swatch r settings] := rfl
  rw [Renderer.fragment_isolated, Renderer.reading, Renderer.nodes_append, tint,
    fitsA.nodes_whole table.ordered adds.sub]
  simp only [Renderer.nodes, Combination.node_masked, Combination.blend_masked, Sample.alpha_lay,
    Sample.alpha_fade, inside, covers p on, Silhouette.shows]
  cases A p <;> norm_num [Blend.alpha, opacity]

theorem Swatches.value_covers (fills : R.FillsBoxes) (level : Float) :
    R.Covers r (R.fragment ((Swatches.value r level).toFragment r)) fun _ => true := by
  intro p on
  have box (c : Color) (masks : String → P → ℚ) :
      R.node Definitions.empty masks (Svg.Node.canvas r (Style.solid c)) p = Sample.ofColor c := by
    rw [Svg.Node.canvas, Renderer.node]
    exact fills _ _ p on.within_square
  have plain (c : Color) : (Svg.Node.canvas r (Style.solid c)).blend = .normal := rfl
  simp only [value, Artifact.single, Fragment.single, Artifact.toFragment, Renderer.fragment,
    Renderer.reading, Renderer.nodes, plain, box, Sample.lay_clear]
  rfl

end

end Texture
