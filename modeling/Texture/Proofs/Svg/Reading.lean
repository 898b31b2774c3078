/- Texture/Proofs/Svg/Reading
   digest: What a document shows at a place: groups layer by layer, colour matrices and masks pixel
   by pixel. Shapes, bitmaps, maps of the plane and other filters are left to a renderer. -/

import Mathlib.Algebra.Order.Field.Rat
import Mathlib.Tactic.Linarith
import Mathlib.Tactic.NormNum
import Mathlib.Tactic.Ring
import Texture.Bake
import Texture.Proofs.Number.Binary
import Texture.Proofs.Svg.Scope

set_option autoImplicit false
set_option relaxedAutoImplicit false

namespace Texture.Svg

open Number (Exact exactValue)
open Plane (Affine Box)

def clampUnit (x : ℚ) : ℚ := max 0 (min 1 x)

theorem clampUnit_of_mem {x : ℚ} (low : 0 ≤ x) (high : x ≤ 1) : clampUnit x = x := by
  rw [clampUnit, min_eq_right high, max_eq_right low]

def opacity (covered : Bool) : ℚ := if covered then 1 else 0

theorem opacity_nonneg (a : Bool) : 0 ≤ opacity a := by
  cases a <;> norm_num [opacity]

theorem opacity_le_one (a : Bool) : opacity a ≤ 1 := by
  cases a <;> norm_num [opacity]

theorem opacity_mul (a b : Bool) : opacity a * opacity b = opacity (a && b) := by
  cases a <;> cases b <;> norm_num [opacity]

/-- A colour with an opacity, by which it is multiplied. -/
structure Sample where
  red : ℚ
  green : ℚ
  blue : ℚ
  alpha : ℚ

/-- A channel of a colour laid over a channel of another one, both multiplied by their opacities. -/
def Blend.color (below belowAlpha above aboveAlpha : ℚ) : Blend → ℚ
  | .normal => above + below * (1 - aboveAlpha)
  | .multiply => above * (1 - belowAlpha) + below * (1 - aboveAlpha) + above * below
  | .exclusion => above + below - 2 * above * below
  | .plusLighter => min 1 (above + below)

def Blend.alpha (below above : ℚ) : Blend → ℚ
  | .plusLighter => min 1 (above + below)
  | _ => above + below - above * below

/-- Whatever the blend, a place is covered where one of two layers covers it. -/
theorem alpha_opacity (blend : Blend) (a b : Bool) :
    blend.alpha (opacity a) (opacity b) = opacity (a || b) := by
  cases blend <;> cases a <;> cases b <;> norm_num [Blend.alpha, opacity]

namespace Sample

def clear : Sample := ⟨0, 0, 0, 0⟩

def white : Sample := ⟨1, 1, 1, 1⟩

def ofColor (c : Color) : Sample :=
  ⟨c.red.toNat / 255, c.green.toNat / 255, c.blue.toNat / 255, 1⟩

theorem ofColor_white : ofColor Color.white = white := by
  simp [ofColor, white, Color.white, Color.gray]

def lay (blend : Blend) (below above : Sample) : Sample :=
  ⟨blend.color below.red below.alpha above.red above.alpha,
    blend.color below.green below.alpha above.green above.alpha,
    blend.color below.blue below.alpha above.blue above.alpha,
    blend.alpha below.alpha above.alpha⟩

def fade (k : ℚ) (s : Sample) : Sample := ⟨k * s.red, k * s.green, k * s.blue, k * s.alpha⟩

@[simp] theorem alpha_lay (blend : Blend) (below above : Sample) :
    (lay blend below above).alpha = blend.alpha below.alpha above.alpha := rfl

@[simp] theorem alpha_fade (k : ℚ) (s : Sample) : (s.fade k).alpha = k * s.alpha := rfl

theorem lay_clear (s : Sample) : lay .normal clear s = s := by
  simp [lay, clear, Blend.color, Blend.alpha]

/-- How much a mask shows: the luminance times the opacity. -/
def coverage (s : Sample) : ℚ :=
  2125 / 10000 * s.red + 7154 / 10000 * s.green + 721 / 10000 * s.blue

/-- A row of a colour matrix applied to a colour that is not multiplied by its opacity. -/
def matrixRow (values : List Float) (row : Nat) (s : Sample) : ℚ :=
  let entry (column : Nat) : ℚ := exactValue (values.getD (5 * row + column) 0.0)
  clampUnit (entry 0 * (s.red / s.alpha) + entry 1 * (s.green / s.alpha)
    + entry 2 * (s.blue / s.alpha) + entry 3 * s.alpha + entry 4)

def recolor (values : List Float) (s : Sample) : Sample :=
  fade (matrixRow values 3 s)
    ⟨matrixRow values 0 s, matrixRow values 1 s, matrixRow values 2 s, 1⟩

end Sample

/-- What a place of a picture takes up: a pixel a square, a point nothing but itself. -/
structure Extent where
  left : ℚ
  top : ℚ
  right : ℚ
  bottom : ℚ

namespace Extent

structure OnCanvas (x : Extent) (r : Resolution) : Prop where
  left : 0 ≤ x.left
  top : 0 ≤ x.top
  right : x.right ≤ r.pixels
  bottom : x.bottom ≤ r.pixels

def Within (x : Extent) (b : Box) : Prop :=
  ∃ left top right bottom, Exact b.left left ∧ Exact b.top top ∧ Exact b.right right ∧
    Exact b.bottom bottom ∧ left ≤ x.left ∧ top ≤ x.top ∧ x.right ≤ right ∧ x.bottom ≤ bottom

theorem OnCanvas.within_square {x : Extent} {r : Resolution} (on : x.OnCanvas r) :
    x.Within (Box.square r.edge) := by
  have few : r.pixels < 2 * Number.Binary.fractionUnit :=
    Nat.lt_of_le_of_lt r.bounded (by decide)
  obtain ⟨edge, -, -⟩ := Number.exact_ofNat r.positive few
  have origin : Exact 0.0 0 := ⟨by decide, Number.exactValue_zero⟩
  exact ⟨_, _, _, _, origin, origin, edge, edge, on.left, on.top, on.right, on.bottom⟩

theorem OnCanvas.within_roomy {x : Extent} {r : Resolution} (on : x.OnCanvas r) :
    x.Within (Region.roomy r).box := by
  have few : r.pixels < 2 * Number.Binary.fractionUnit :=
    Nat.lt_of_le_of_lt r.bounded (by decide)
  obtain ⟨-, low, high⟩ := Number.exact_ofNat r.positive few
  have size : (0 : ℚ) ≤ r.pixels := Nat.cast_nonneg _
  refine ⟨_, _, _, _, low, low, high, high, ?_, ?_, ?_, ?_⟩
  · linarith [on.left]
  · linarith [on.top]
  · linarith [on.right]
  · linarith [on.bottom]

end Extent

/-- What the pictures of a document are made of: shapes with their gradients, bitmaps, pictures
moved, and pictures filtered other than by one colour matrix; and the places they are read at. -/
structure Renderer (P : Type) where
  shape : Geometry → Style → Option Def → Option Def → P → Sample
  image : Box → String → Rendering → P → Sample
  move : Affine → (P → Sample) → P → Sample
  filter : Region → List Primitive → (P → Sample) → P → Sample
  extent : P → Extent

def Definitions.paint? (ds : Definitions) : Paint → Option Def
  | .reference id => ds.get? id
  | _ => none

def colorMatrix? : List Primitive → Option (List Float)
  | [.matrix input values _] => if input = "SourceGraphic" then some values else none
  | _ => none

namespace Renderer

variable {P : Type} (R : Renderer P)

def filtered (ds : Definitions) (filter : Option String) (layer : P → Sample) : P → Sample :=
  match filter.bind ds.get? with
  | some (.filter _ region primitives) =>
    match colorMatrix? primitives with
    | some values => fun p => (layer p).recolor values
    | none => R.filter region primitives layer
  | _ => layer

def masked (masks : String → P → ℚ) (mask : Option String) (layer : P → Sample) : P → Sample :=
  match mask with
  | some id => fun p => (layer p).fade (masks id p)
  | none => layer

def faded (opacity : Option Float) (layer : P → Sample) : P → Sample :=
  match opacity with
  | some x => fun p => (layer p).fade (clampUnit (exactValue x))
  | none => layer

def moved (transform : Option Affine) (layer : P → Sample) : P → Sample :=
  match transform with
  | some m => R.move m layer
  | none => layer

mutual

def node (ds : Definitions) (masks : String → P → ℚ) : Node → P → Sample
  | .shape geometry style => R.shape geometry style (ds.paint? style.fill) (ds.paint? style.stroke)
  | .image box address rendering => R.image box address rendering
  | .group effects children =>
    R.moved effects.transform (faded effects.opacity (masked masks effects.mask
      (R.filtered ds effects.filter (nodes ds masks children fun _ => Sample.clear))))

def nodes (ds : Definitions) (masks : String → P → ℚ) : List Node → (P → Sample) → P → Sample
  | [], below => below
  | n :: ns, below => nodes ds masks ns fun p => (below p).lay n.blend (node ds masks n p)

end

/-- How much a mask shows. The depth bounds masks inside of masks. -/
def mask (ds : Definitions) : Nat → String → P → ℚ
  | 0, _ => fun _ => 1
  | depth + 1, id =>
    match ds.get? id with
    | some (.mask _ _ content) => fun p =>
      (R.nodes ds (mask ds depth) content (fun _ => Sample.clear) p).coverage
    | _ => fun _ => 1

def reading (ds : Definitions) (ns : List Node) (ground : Sample) : P → Sample :=
  R.nodes ds (R.mask ds ds.items.length) ns fun _ => ground

def document (doc : Document) : P → Sample :=
  R.reading doc.definitions doc.content (doc.background.elim Sample.clear Sample.ofColor)

/-- A box of one colour shows this colour in it. -/
def FillsBoxes : Prop := ∀ b c p, (R.extent p).Within b →
  R.shape (.box b) (Style.solid c) none none p = Sample.ofColor c

/-- A picture that is opaque at the places of a set and shows nothing elsewhere on the canvas. -/
def Covers (r : Resolution) (picture : P → Sample) (region : P → Bool) : Prop :=
  ∀ p, (R.extent p).OnCanvas r → (picture p).alpha = opacity (region p)

variable {ds es : Definitions} {masks masks' : String → P → ℚ}

theorem nodes_append (ns ms : List Node) (below : P → Sample) :
    R.nodes ds masks (ns ++ ms) below = R.nodes ds masks ms (R.nodes ds masks ns below) := by
  induction ns generalizing below with
  | nil => simp only [List.nil_append, nodes]
  | cons n ns ih => simp only [List.cons_append, nodes, ih]

/-- Two tables, with how much their masks show, that do not differ for some references. -/
def Alike (ds es : Definitions) (masks masks' : String → P → ℚ) (refs : List Reference) : Prop :=
  ∀ ref ∈ refs, ds.get? ref.id = es.get? ref.id ∧ (ref.kind = .mask → masks ref.id = masks' ref.id)

private theorem Alike.left {refs refs' : List Reference}
    (h : Alike ds es masks masks' (refs ++ refs')) :
    Alike ds es masks masks' refs := fun ref mem => h ref (List.mem_append_left _ mem)

private theorem Alike.right {refs refs' : List Reference}
    (h : Alike ds es masks masks' (refs ++ refs')) :
    Alike ds es masks masks' refs' := fun ref mem => h ref (List.mem_append_right _ mem)

private theorem paint?_congr {paint : Paint} (h : Alike ds es masks masks' paint.references) :
    ds.paint? paint = es.paint? paint := by
  cases paint with
  | none => rfl
  | color c => rfl
  | reference id => exact (h ⟨.gradient, id⟩ (by simp [Paint.references])).1

private theorem filtered_congr {effects : Effects} (layer : P → Sample)
    (h : Alike ds es masks masks' effects.references) :
    R.filtered ds effects.filter layer = R.filtered es effects.filter layer := by
  cases named : effects.filter with
  | none => rfl
  | some id =>
    have same := (h ⟨.filter, id⟩ (by simp [Effects.references, named])).1
    simp only [filtered, Option.bind_some, same]

private theorem masked_congr {effects : Effects} (layer : P → Sample)
    (h : Alike ds es masks masks' effects.references) :
    masked masks effects.mask layer = masked masks' effects.mask layer := by
  cases named : effects.mask with
  | none => rfl
  | some id =>
    have same := (h ⟨.mask, id⟩ (by simp [Effects.references, named])).2 rfl
    simp only [masked, same]

mutual

private theorem node_congr (n : Node) (h : Alike ds es masks masks' n.references) :
    R.node ds masks n = R.node es masks' n := by
  cases n with
  | shape geometry style =>
    rw [Node.references, Style.references] at h
    rw [node, node, paint?_congr h.left, paint?_congr h.right]
  | image box address rendering => rfl
  | group effects children =>
    rw [Node.references] at h
    rw [node, node, nodes_congr children _ h.right, filtered_congr R _ h.left,
      masked_congr _ h.left]

private theorem nodes_congr (ns : List Node) (below : P → Sample)
    (h : Alike ds es masks masks' (Node.referencesAll ns)) :
    R.nodes ds masks ns below = R.nodes es masks' ns below := by
  cases ns with
  | nil => rfl
  | cons n ns =>
    rw [Node.referencesAll] at h
    rw [nodes, nodes, node_congr n h.left]
    exact nodes_congr ns _ h.right

end

theorem get?_of_mem {d : Def} (distinct : (ds.items.map Def.id).Nodup) (mem : d ∈ ds.items) :
    ds.get? d.id = some d := by
  obtain ⟨items⟩ := ds
  induction items with
  | nil => simp at mem
  | cons e items ih =>
    rw [List.map_cons, List.nodup_cons] at distinct
    rcases List.mem_cons.mp mem with rfl | later
    · simp [Definitions.get?]
    · have apart : e.id ≠ d.id := fun same => distinct.1 (List.mem_map.mpr ⟨d, later, same.symm⟩)
      have found := ih distinct.2 later
      simp only [Definitions.get?] at found ⊢
      rw [List.find?_cons_of_neg (by simpa using apart), found]

private theorem mask_congr (table : Scoped ds.items) (table' : Scoped es.items)
    (sub : ds.items ⊆ es.items) {before after : List Def} {d : Def}
    (split : ds.items = before ++ d :: after) {depth depth' : Nat} (deep : before.length < depth)
    (deep' : before.length < depth') : R.mask ds depth d.id = R.mask es depth' d.id := by
  -- A definition refers to earlier ones only: masks inside of masks go down in the table.
  induction place : before.length using Nat.strong_induction_on
    generalizing before after d depth depth' with
  | _ n ih =>
    have mem : d ∈ ds.items := by
      rw [split]
      simp
    cases depth with
    | zero => omega
    | succ depth =>
      cases depth' with
      | zero => omega
      | succ depth' =>
        rw [mask, mask, get?_of_mem table.distinct mem, get?_of_mem table'.distinct (sub mem)]
        cases d with
        | gradient g => rfl
        | filter id region primitives => rfl
        | mask id region content =>
          have alike : Alike ds es (R.mask ds depth) (R.mask es depth')
              (Node.referencesAll content) := by
            intro ref memRef
            obtain ⟨e, memE, same, -⟩ := table.earlier before _ after split ref memRef
            obtain ⟨front, back, inner⟩ := List.append_of_mem memE
            have split' : ds.items = front ++ e :: (back ++ Def.mask id region content :: after) := by
              rw [split, inner, List.append_assoc, List.cons_append]
            have memE' : e ∈ ds.items := by
              rw [split']
              simp
            have shorter : front.length < before.length := by
              rw [inner]
              simp
            rw [← same]
            refine ⟨?_, fun _ => ?_⟩
            · rw [get?_of_mem table.distinct memE', get?_of_mem table'.distinct (sub memE')]
            · exact ih front.length (by omega) split' (by omega) (by omega) rfl
          simp only [nodes_congr R content _ alike]

/-- Nodes that refer to a table show the same with every larger one. -/
theorem nodes_in_larger (table : Scoped ds.items) (table' : Scoped es.items)
    (sub : ds.items ⊆ es.items) {ns : List Node}
    (refs : ∀ ref ∈ Node.referencesAll ns, Offers ds.items ref) {depth : Nat}
    (deep : ds.items.length ≤ depth) (below : P → Sample) :
    R.nodes es (R.mask es depth) ns below =
      R.nodes ds (R.mask ds ds.items.length) ns below := by
  refine (nodes_congr R ns below ?_).symm
  intro ref mem
  obtain ⟨e, memE, same, -⟩ := refs ref mem
  obtain ⟨before, after, split⟩ := List.append_of_mem memE
  have place : before.length < ds.items.length := by
    rw [split]
    simp
  rw [← same]
  refine ⟨?_, fun _ => mask_congr R table table' sub split place (by omega)⟩
  rw [get?_of_mem table.distinct memE, get?_of_mem table'.distinct (sub memE)]

end Renderer

end Texture.Svg
