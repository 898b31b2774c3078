/- Texture/Proofs/Operator/Shift
   digest: A union that is moved and a union of what was moved: an exact rasterizer paints both the
   same where nothing comes from beyond the canvas. -/

import Texture.Operator.Apply
import Texture.Proofs.Bake.Exact

set_option autoImplicit false
set_option relaxedAutoImplicit false

namespace Texture

open Svg (Definitions Effects Style)

namespace Svg.Node

/-- A box of whole pixels, filled with a colour. -/
def IsPatch (n : Node) : Prop :=
  ∃ b c f, n = .shape (.box b) (Style.solid c) ∧ Frame.ofBox? b = some f

def Covers (n : Node) (x y : ℤ) : Prop :=
  ∃ b c f, n = .shape (.box b) (Style.solid c) ∧ Frame.ofBox? b = some f ∧ f.Holds x y

end Svg.Node

namespace Fragment

structure IsPatched (f : Fragment) : Prop where
  definitions : f.definitions = Definitions.empty
  nodes : ∀ n ∈ f.nodes, n.IsPatch

def Covers (f : Fragment) (x y : ℤ) : Prop := ∃ n ∈ f.nodes, n.Covers x y

end Fragment

private theorem Frame.fill_isPremultiplied (f : Frame) (c : Color) :
    (f.fill c).IsPremultiplied := by
  intro x y
  rw [Frame.fill]
  split
  · exact Pixel.isPremultiplied_full _ _ _
  · exact Pixel.isPremultiplied_clear

namespace Svg.Node

private theorem covers_patch {b : Plane.Box} {c : Color} {f : Frame}
    (framed : Frame.ofBox? b = some f)
    (x y : ℤ) : (Node.shape (.box b) (Style.solid c)).Covers x y ↔ f.Holds x y := by
  constructor
  · rintro ⟨b', c', f', same, framed', holds⟩
    obtain ⟨⟨rfl⟩, -⟩ : Geometry.box b = .box b' ∧ Style.solid c = Style.solid c' := by
      simpa using same
    rw [framed, Option.some.injEq] at framed'
    rwa [framed']
  · intro holds
    exact ⟨b, c, f, rfl, framed, holds⟩

private theorem summed_of_patches {ns : List Node} (patches : ∀ n ∈ ns, n.IsPatch) : Summed ns := by
  induction ns with
  | nil => exact trivial
  | cons n ns ih =>
    rw [List.forall_mem_cons] at patches
    obtain ⟨⟨b, c, f, rfl, -⟩, rest⟩ := patches
    exact ⟨trivial, ih rest⟩

private theorem sheet?_patch {b : Plane.Box} {c : Color} {f : Frame}
    (framed : Frame.ofBox? b = some f) :
    (Node.shape (.box b) (Style.solid c)).sheet? = some (f.fill c) := by
  simp only [sheet?, framed, Option.bind_eq_bind, Option.bind_some]
  rfl

private theorem paintOver?_patches {ns : List Node} (patches : ∀ n ∈ ns, n.IsPatch) {below : Sheet}
    (premultiplied : below.IsPremultiplied) :
    ∃ s, paintOver? below ns = some s ∧ s.IsPremultiplied ∧
      ∀ x y, s x y = Pixel.clear ↔ below x y = Pixel.clear ∧ ¬ ∃ n ∈ ns, n.Covers x y := by
  induction ns generalizing below with
  | nil => exact ⟨below, rfl, premultiplied, by simp⟩
  | cons n ns ih =>
    rw [List.forall_mem_cons] at patches
    obtain ⟨⟨b, c, f, rfl, framed⟩, rest⟩ := patches
    have shown := sheet?_patch (c := c) framed
    -- A solid box hides what is below it.
    have painted : ∀ x y, below.cover (f.fill c) x y =
        if f.Holds x y then ⟨c.red, c.green, c.blue, 255⟩ else below x y := by
      intro x y
      rw [Sheet.cover, Frame.fill]
      split
      · exact Pixel.cover_full _ _ _ _
      · rfl
    have kept : (below.cover (f.fill c)).IsPremultiplied := fun x y =>
      (premultiplied x y).cover (f.fill_isPremultiplied c x y)
    obtain ⟨s, same, done, seen⟩ := ih rest kept
    refine ⟨s, ?_, done, fun x y => ?_⟩
    · simp only [paintOver?, shown, Option.bind_eq_bind, Option.bind_some]
      exact same
    · have visible : Pixel.mk c.red c.green c.blue 255 ≠ Pixel.clear := by simp [Pixel.clear]
      have covers := covers_patch (c := c) framed x y
      rw [seen, painted]
      by_cases holds : f.Holds x y
      · simp [holds, visible, covers]
      · simp [holds, covers]

end Svg.Node

namespace Fragment

/-- A fragment without definitions and without anything to be added up shows a sheet. -/
structure Paints (f : Fragment) (s : Sheet) : Prop where
  definitions : f.definitions = Definitions.empty
  summed : Svg.Node.Summed f.nodes
  paints : Svg.Node.paintOver? Sheet.blank f.nodes = some s
  premultiplied : s.IsPremultiplied

private theorem IsPatched.paints {f : Fragment} (h : f.IsPatched) :
    ∃ s, f.Paints s ∧ ∀ x y, s x y = Pixel.clear ↔ ¬ f.Covers x y := by
  have blank : Sheet.IsPremultiplied Sheet.blank := fun _ _ => Pixel.isPremultiplied_clear
  obtain ⟨s, shows, premultiplied, clear⟩ := Svg.Node.paintOver?_patches h.nodes blank
  refine ⟨s, ⟨h.definitions, Svg.Node.summed_of_patches h.nodes, shows, premultiplied⟩, ?_⟩
  intro x y
  rw [clear]
  exact and_iff_right rfl

end Fragment

/-- The pixels of two inputs that are added and then moved. -/
def movedUnion (canvas : Canvas) (s : TranslateSettings) (a b : Artifact) : Work Picture := do
  let union ← (Settings.math .union).apply canvas ⟨none, some a, some b⟩
  let moved ← (Settings.translate s).apply canvas ⟨some union, none, none⟩
  moved.bake canvas canvas.resolution.pixels

/-- The pixels of two inputs that are moved and then added. -/
def unionOfMoved (canvas : Canvas) (s : TranslateSettings) (a b : Artifact) : Work Picture := do
  let first ← (Settings.translate s).apply canvas ⟨some a, none, none⟩
  let second ← (Settings.translate s).apply canvas ⟨some b, none, none⟩
  let union ← (Settings.math .union).apply canvas ⟨none, some first, some second⟩
  union.bake canvas canvas.resolution.pixels

def unionOf (ns ms : List Svg.Node) : List Svg.Node :=
  [Combination.blended .normal ns, Combination.blended .plusLighter ms]

def movedBy (canvas : Canvas) (s : TranslateSettings) (ns : List Svg.Node) : Svg.Node :=
  .group { Effects.none with
    transform := some (.translate ⟨s.x * canvas.resolution.edge, s.y * canvas.resolution.edge⟩) } ns

section

variable {canvas : Canvas} {s : TranslateSettings} {dx dy : ℤ} {a b : Sheet}
  {ns ms : List Svg.Node}

private theorem union_gives (ns ms : List Svg.Node) :
    ((Settings.math .union).apply canvas ⟨none, some (.vector ⟨ns, Definitions.empty⟩),
      some (.vector ⟨ms, Definitions.empty⟩)⟩).Gives
      (.vector ⟨[.group Effects.isolate (unionOf ns ms)], Definitions.empty⟩) := fun t => ⟨t, rfl⟩

private theorem translate_gives (ns : List Svg.Node) :
    ((Settings.translate s).apply canvas
      ⟨some (.vector ⟨ns, Definitions.empty⟩), none, none⟩).Gives
      (.vector ⟨[movedBy canvas s ns], Definitions.empty⟩) := fun t => ⟨t, rfl⟩

private theorem summed_unionOf (summed : Svg.Node.Summed ns) (summed' : Svg.Node.Summed ms) :
    Svg.Node.Summed (unionOf ns ms) :=
  ⟨⟨rfl, summed⟩, ⟨rfl, summed'⟩, trivial⟩

private theorem summed_movedBy (summed : Svg.Node.Summed ns) :
    Svg.Node.Summed [movedBy canvas s ns] :=
  ⟨⟨rfl, summed⟩, trivial⟩

private theorem sheet?_blended (blend : Svg.Blend)
    (shows : Svg.Node.paintOver? Sheet.blank ns = some a) :
    (Combination.blended blend ns).sheet? = some a := by
  have unmoved : Effects.shift? { Effects.none with blend := blend } = some (0, 0) := rfl
  rw [Combination.blended, Svg.Node.sheet?_group unmoved shows, Sheet.shift_zero]

private theorem layOver?_unionOf (shows : Svg.Node.paintOver? Sheet.blank ns = some a)
    (shows' : Svg.Node.paintOver? Sheet.blank ms = some b) (premultiplied : a.IsPremultiplied) :
    Svg.Node.layOver? Sheet.blank (unionOf ns ms) = some (a.add b) := by
  have unchanged : (Combination.blended .normal ns).laid Sheet.blank a = a :=
    Sheet.blank_cover premultiplied
  simp only [unionOf, Svg.Node.layOver?, sheet?_blended _ shows, sheet?_blended _ shows', unchanged,
    Option.bind_eq_bind, Option.bind_some]
  rfl

private theorem sheet?_movedBy (right : Number.Exact (s.x * canvas.resolution.edge) dx)
    (down : Number.Exact (s.y * canvas.resolution.edge) dy)
    (shows : Svg.Node.paintOver? Sheet.blank ns = some a) :
    (movedBy canvas s ns).sheet? = some (a.shift dx dy) :=
  Svg.Node.sheet?_group (Svg.shift?_translate right down) shows

private theorem flatten_unionOf (exact : canvas.rasterizer.IsExact) (summed : Svg.Node.Summed ns)
    (summed' : Svg.Node.Summed ms) (shows : Svg.Node.paintOver? Sheet.blank ns = some a)
    (shows' : Svg.Node.paintOver? Sheet.blank ms = some b) (premultiplied : a.IsPremultiplied) :
    ((Bake.Layers.whole canvas.rasterizer canvas.resolution Definitions.empty).flatten
      (.group Effects.isolate (unionOf ns ms))).Gives
      (.group Effects.isolate [Artifact.embed ((a.add b).picture canvas.resolution)
        canvas.resolution .smooth]) :=
  Bake.Layers.flatten_additive exact rfl (summed_unionOf summed summed')
    (layOver?_unionOf shows shows' premultiplied)

variable {f g : Fragment}

private theorem movedUnion_gives (exact : canvas.rasterizer.IsExact)
    (right : Number.Exact (s.x * canvas.resolution.edge) dx)
    (down : Number.Exact (s.y * canvas.resolution.edge) dy) (shows : f.Paints a)
    (shows' : g.Paints b) :
    (movedUnion canvas s (.vector f) (.vector g)).Gives
      ((((a.add b).clip canvas.resolution).shift dx dy).picture canvas.resolution) := by
  obtain ⟨ns, ds⟩ := f
  obtain ⟨ms, es⟩ := g
  obtain ⟨rfl, summed, painted, premultiplied⟩ := shows
  obtain ⟨rfl, summed', painted', premultiplied'⟩ := shows'
  have sum := premultiplied.add premultiplied'
  -- The shift is outside of the group that is added up, so its layers know nothing of it.
  have flat : ((Bake.Layers.whole canvas.rasterizer canvas.resolution Definitions.empty).flatten
      (movedBy canvas s [.group Effects.isolate (unionOf ns ms)])).Gives
      (movedBy canvas s [.group Effects.isolate [Artifact.embed
        ((a.add b).picture canvas.resolution) canvas.resolution .smooth]]) :=
    Bake.Layers.flatten_single
      (flatten_unionOf exact summed summed' painted painted' premultiplied) rfl
  have image := Svg.Node.sheet?_isolated canvas.resolution .smooth sum
  have seen := sheet?_movedBy right down (Svg.Node.paintOver?_single rfl image (sum.clip _))
  exact (union_gives ns ms).bind ((translate_gives _).bind (Bake.document_gives exact flat seen))

private theorem unionOfMoved_gives (exact : canvas.rasterizer.IsExact)
    (right : Number.Exact (s.x * canvas.resolution.edge) dx)
    (down : Number.Exact (s.y * canvas.resolution.edge) dy) (shows : f.Paints a)
    (shows' : g.Paints b) :
    (unionOfMoved canvas s (.vector f) (.vector g)).Gives
      (((a.add b).shift dx dy).picture canvas.resolution) := by
  obtain ⟨ns, ds⟩ := f
  obtain ⟨ms, es⟩ := g
  obtain ⟨rfl, summed, painted, premultiplied⟩ := shows
  obtain ⟨rfl, summed', painted', premultiplied'⟩ := shows'
  have first : Svg.Node.paintOver? Sheet.blank [movedBy canvas s ns] = some (a.shift dx dy) :=
    Svg.Node.paintOver?_single rfl (sheet?_movedBy right down painted) (premultiplied.shift dx dy)
  have second : Svg.Node.paintOver? Sheet.blank [movedBy canvas s ms] = some (b.shift dx dy) :=
    Svg.Node.paintOver?_single rfl (sheet?_movedBy right down painted') (premultiplied'.shift dx dy)
  have sum := (premultiplied.add premultiplied').shift dx dy
  have flat := flatten_unionOf exact (summed_movedBy summed) (summed_movedBy summed') first second
    (premultiplied.shift dx dy)
  have baked := Bake.document_gives exact flat
    (Svg.Node.sheet?_isolated canvas.resolution .smooth sum)
  rw [Sheet.picture_clip] at baked
  exact (translate_gives _).bind ((translate_gives _).bind ((union_gives _ _).bind baked))

private theorem add_ne_clear_iff (seen : ∀ x y, a x y = Pixel.clear ↔ ¬ f.Covers x y)
    (seen' : ∀ x y, b x y = Pixel.clear ↔ ¬ g.Covers x y) (x y : ℤ) :
    a.add b x y ≠ Pixel.clear ↔ f.Covers x y ∨ g.Covers x y := by
  rw [Ne, Sheet.add, Pixel.add_eq_clear, seen, seen', ← not_or, not_not]

/-- Boxes of whole pixels that are added and then moved show the same as boxes that are moved and
then added if nothing that is moved onto the canvas comes from beyond it. What does is lost, since
the sum is clipped at the place where it is added up. -/
theorem movedUnion_eq_iff (exact : canvas.rasterizer.IsExact) (patched : f.IsPatched)
    (patched' : g.IsPatched) (right : Number.Exact (s.x * canvas.resolution.edge) dx)
    (down : Number.Exact (s.y * canvas.resolution.edge) dy) :
    ∃ a b p q, f.Paints a ∧ g.Paints b ∧
      p = (((a.add b).clip canvas.resolution).shift dx dy).picture canvas.resolution ∧
      q = ((a.add b).shift dx dy).picture canvas.resolution ∧
      (movedUnion canvas s (.vector f) (.vector g)).Gives p ∧
      (unionOfMoved canvas s (.vector f) (.vector g)).Gives q ∧
      (p = q ↔ ∀ x y, canvas.resolution.Shows x y → f.Covers (x - dx) (y - dy) ∨
        g.Covers (x - dx) (y - dy) → canvas.resolution.Shows (x - dx) (y - dy)) := by
  obtain ⟨a, shows, seen⟩ := patched.paints
  obtain ⟨b, shows', seen'⟩ := patched'.paints
  refine ⟨a, b, _, _, shows, shows', rfl, rfl, movedUnion_gives exact right down shows shows',
    unionOfMoved_gives exact right down shows shows', ?_⟩
  simp only [Sheet.picture_shift_clip_eq_iff, add_ne_clear_iff seen seen']

end

private theorem isPatched_white {b : Plane.Box} {f : Frame} (framed : Frame.ofBox? b = some f) :
    (Fragment.single (.shape (.box b) Style.white)).IsPatched := by
  refine ⟨rfl, ?_⟩
  simp only [Fragment.single, List.mem_singleton, forall_eq]
  exact ⟨_, _, _, rfl, framed⟩

def squareCanvas : Canvas := ⟨⟨2, by decide, by decide⟩, Rasterizer.exact⟩

/-- The first pixel of the canvas. -/
def corner : Fragment := .single (.shape (.box ⟨0.0, 0.0, 1.0, 1.0⟩) Style.white)

private theorem framed_corner : Frame.ofBox? ⟨0.0, 0.0, 1.0, 1.0⟩ = some ⟨0, 0, 1, 1⟩ := by
  simp only [Frame.ofBox?, Number.exact_zero.whole?_eq, Number.exact_one.whole?_eq]
  rfl

private theorem corner_paints {a : Sheet} (shows : corner.Paints a) :
    a = Frame.fill ⟨0, 0, 1, 1⟩ Color.white := by
  have painted := Svg.Node.paintOver?_single rfl (Svg.Node.sheet?_patch framed_corner)
    (Frame.fill_isPremultiplied _ Color.white)
  exact Option.some.inj (shows.paints.symm.trans painted)

private theorem half_edge_exact : Number.Exact (0.5 * squareCanvas.resolution.edge) (1 : ℤ) := by
  have read : Number.Binary.ofFloat (0.5 * squareCanvas.resolution.edge) =
      .finite false 4503599627370496 (-52) := by decide
  exact .of_read read (by norm_num)

private theorem none_edge_exact : Number.Exact (0.0 * squareCanvas.resolution.edge) (0 : ℤ) := by
  have read : Number.Binary.ofFloat (0.0 * squareCanvas.resolution.edge) =
      .finite false 0 (-1074) := by decide
  exact .of_read read (by norm_num)

/-- The first pixel is moved to the right, and seen there in either order. -/
theorem movedUnion_corner :
    ∃ p, (movedUnion squareCanvas ⟨0.5, 0.0⟩ (.vector corner) (.vector corner)).Gives p ∧
      (unionOfMoved squareCanvas ⟨0.5, 0.0⟩ (.vector corner) (.vector corner)).Gives p ∧
      p.pixel? 0 0 = some Pixel.clear ∧ p.pixel? 1 0 = some ⟨255, 255, 255, 255⟩ := by
  have patched : corner.IsPatched := isPatched_white framed_corner
  obtain ⟨a, b, p, q, shows, shows', -, seen, given, given', same⟩ :=
    movedUnion_eq_iff (s := ⟨0.5, 0.0⟩) Rasterizer.exact_isExact patched patched
      half_edge_exact none_edge_exact
  obtain rfl := corner_paints shows
  obtain rfl := corner_paints shows'
  -- The only pixel that is moved onto the canvas is the first one.
  have kept : p = q := by
    refine same.mpr fun x y _ covered => ?_
    have there : (⟨0, 0, 1, 1⟩ : Frame).Holds (x - 1) (y - 0) := by
      simpa [corner, Fragment.single, Fragment.Covers, Svg.Node.covers_patch framed_corner,
        Style.white] using covered
    simp only [Frame.Holds] at there
    simp only [Resolution.Shows, squareCanvas]
    omega
  rw [kept] at given
  refine ⟨q, given, given', ?_, ?_⟩
  · rw [seen, Sheet.pixel?_picture _ (by decide)]
    decide
  · rw [seen, Sheet.pixel?_picture _ (by decide)]
    decide

def pixelCanvas : Canvas := ⟨⟨1, by decide, by decide⟩, Rasterizer.exact⟩

/-- The pixel to the left of the canvas. -/
def beside : Fragment := .single (.shape (.box ⟨-1.0, 0.0, 0.0, 1.0⟩) Style.white)

private theorem beside_patched : beside.IsPatched ∧ beside.Covers (-1) 0 := by
  have left : Number.Exact (-1.0) (-1 : ℤ) := by
    have read : Number.Binary.ofFloat (-1.0) = .finite true 4503599627370496 (-52) := by decide
    exact .of_read read (by norm_num)
  have framed : Frame.ofBox? ⟨-1.0, 0.0, 0.0, 1.0⟩ = some ⟨-1, 0, 0, 1⟩ := by
    simp only [Frame.ofBox?, left.whole?_eq, Number.exact_zero.whole?_eq,
      Number.exact_one.whole?_eq]
    rfl
  exact ⟨isPatched_white framed, _, List.mem_singleton_self _, _, _, _, rfl, framed, by decide⟩

private theorem zero_edge_exact : Number.Exact (0.0 * pixelCanvas.resolution.edge) (0 : ℤ) := by
  have read : Number.Binary.ofFloat (0.0 * pixelCanvas.resolution.edge) =
      .finite false 0 (-1074) := by decide
  exact .of_read read (by norm_num)

private theorem one_edge_exact : Number.Exact (1.0 * pixelCanvas.resolution.edge) (1 : ℤ) := by
  have read : Number.Binary.ofFloat (1.0 * pixelCanvas.resolution.edge) =
      .finite false 4503599627370496 (-52) := by decide
  exact .of_read read (by norm_num)

/-- The pixel beside the canvas is moved onto it, but it is lost where the sum is taken. -/
theorem movedUnion_loses :
    ¬ ∀ (canvas : Canvas) (s : TranslateSettings) (dx dy : ℤ) (f g : Fragment) (p q : Picture),
      canvas.rasterizer.IsExact → f.IsPatched → g.IsPatched →
      Number.Exact (s.x * canvas.resolution.edge) dx →
      Number.Exact (s.y * canvas.resolution.edge) dy →
      (movedUnion canvas s (.vector f) (.vector g)).Gives p →
      (unionOfMoved canvas s (.vector f) (.vector g)).Gives q → p = q := by
  intro always
  obtain ⟨patched, covers⟩ := beside_patched
  obtain ⟨a, shows, seen⟩ := patched.paints
  have same := always pixelCanvas ⟨1.0, 0.0⟩ 1 0 beside beside _ _ Rasterizer.exact_isExact
    patched patched one_edge_exact zero_edge_exact
    (movedUnion_gives Rasterizer.exact_isExact one_edge_exact zero_edge_exact shows shows)
    (unionOfMoved_gives Rasterizer.exact_isExact one_edge_exact zero_edge_exact shows shows)
  have onto : pixelCanvas.resolution.Shows 0 0 := by decide
  have shown := Sheet.picture_shift_clip_eq_iff.mp same 0 0 onto
    ((add_ne_clear_iff seen seen _ _).mpr (Or.inl covers))
  exact absurd shown (by decide)

end Texture
