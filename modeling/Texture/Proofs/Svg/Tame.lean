/- Texture/Proofs/Svg/Tame
   digest: Floats with room to be rounded, and parts of documents that have no others: boxes on and
   around the canvas, outlines and maps far from the largest floats, restyled nodes. -/

import Texture.Artifact
import Texture.Proofs.Plane.Size
import Texture.Proofs.Svg.Numeral
import Texture.Proofs.Svg.Scope

set_option autoImplicit false
set_option relaxedAutoImplicit false

namespace Texture

open Number (Beyond Within)
open Number.Binary (isFinite)
open Plane (Affine Box Path)

theorem Resolution.within_edge (r : Resolution) : Within 14 r.edge :=
  Number.within_ofNat (by decide) (by decide) r.bounded

theorem Resolution.within_centre (r : Resolution) : Within 13 r.centre :=
  r.within_edge.div Number.beyond_two (by decide)

namespace Svg

def AreTame (ns : List Numeral) : Prop := ∀ n ∈ ns, n.IsTame

def Definitions.AreTame (ds : Definitions) : Prop := ∀ d ∈ ds.items, Svg.AreTame d.numerals

section

variable {k : Int} {x : Float} {xs : List Float} {ns ms : List Numeral} {r : Resolution}

theorem areTame_nil : AreTame [] := List.forall_mem_nil _

theorem areTame_append : AreTame (ns ++ ms) ↔ AreTame ns ∧ AreTame ms := List.forall_mem_append

theorem areTame_cons {n : Numeral} : AreTame (n :: ns) ↔ n.IsTame ∧ AreTame ns :=
  List.forall_mem_cons

theorem areTame_flatMap {α : Type} {items : List α} {f : α → List Numeral} :
    AreTame (items.flatMap f) ↔ ∀ i ∈ items, AreTame (f i) := List.forall_mem_flatMap

theorem isTame_short (h : Within k x) (room : k ≤ 1009) : (Numeral.short x).IsTame := by
  have scale : Within 14 1e4 := .of_test (by decide)
  have scaled : Within 1023 (x * 1e4) := h.mul scale (by omega)
  exact fun _ => scaled.finite

theorem areTame_short (h : ∀ y ∈ xs, Within 1009 y) : AreTame (xs.map .short) := by
  rw [AreTame, List.forall_mem_map]
  exact fun y mem => isTame_short (h y mem) le_rfl

theorem within_of_test (held : xs.all (Number.isWithin k) = true) : ∀ y ∈ xs, Within k y :=
  fun y mem => .of_test (List.all_eq_true.1 held y mem)

theorem areTame_of_test (held : xs.all (Number.isWithin 1009) = true) :
    AreTame (xs.map .short) := areTame_short (within_of_test held)

private theorem areTame_box {b : Box} (hl : Within 15 b.left) (ht : Within 15 b.top)
    (hr : Within 15 b.right) (hb : Within 15 b.bottom) : AreTame ((boxFloats b).map .short) := by
  have wide : Within 16 b.width := hr.sub hl (by decide)
  have high : Within 16 b.height := hb.sub ht (by decide)
  exact areTame_cons.2 ⟨isTame_short hl (by decide), areTame_cons.2 ⟨isTame_short ht (by decide),
    areTame_cons.2 ⟨isTame_short wide (by decide), areTame_cons.2 ⟨isTame_short high (by decide),
      areTame_nil⟩⟩⟩⟩

theorem areTame_square (r : Resolution) : AreTame ((boxFloats (Box.square r.edge)).map .short) := by
  have zero := Number.within_zero 15
  have edge := r.within_edge.mono (by decide : (14 : Int) ≤ 15)
  exact areTame_box zero zero edge edge

theorem areTame_roomy (r : Resolution) : AreTame ((boxFloats (Region.roomy r).box).map .short) := by
  have before : Within 15 (-r.edge) := (r.within_edge.neg (by decide)).mono (by decide)
  have behind : Within 15 (2.0 * r.edge) := Number.within_two.mul r.within_edge (by decide)
  exact areTame_box before before behind behind

theorem areTame_path {path : Path} (h : Path.Within k path) :
    AreTame (Geometry.path path).numerals := by
  have point : ∀ {p : Plane.Point}, p.Within k → ∀ x ∈ [p.x, p.y], isFinite x = true := by
    intro p hp
    rw [List.forall_mem_cons, List.forall_mem_singleton]
    exact ⟨hp.x.finite, hp.y.finite⟩
  rw [AreTame, Geometry.numerals, List.forall_mem_map, List.forall_mem_flatMap]
  intro s mem
  have within := h s mem
  cases s with
  | move p => exact point within
  | line p => exact point within
  | curve p q r =>
    have parts : ∀ x ∈ [p.x, p.y] ++ ([q.x, q.y] ++ [r.x, r.y]), isFinite x = true :=
      List.forall_mem_append.2 ⟨point within.1,
        List.forall_mem_append.2 ⟨point within.2.1, point within.2.2⟩⟩
    exact parts
  | close => exact List.forall_mem_nil _

theorem areTame_map {m : Affine} (h : m.Within k) (room : k ≤ 1009) :
    AreTame (m.toList.map .short) := areTame_short fun x mem => (h x mem).mono room

/-- A document of tame parts is written in decimals. -/
theorem Document.writesDecimals {definitions : Definitions} {content : List Node}
    (hd : definitions.AreTame) (hc : AreTame (Node.numeralsAll content))
    (background : Option Color) :
    WritesDecimals (Document.mk r definitions background content).write := by
  have zero : (Numeral.short 0.0).IsTame := isTame_short (Number.within_zero 0) (by decide)
  have edge := isTame_short r.within_edge (by decide)
  have view : AreTame ([0.0, r.edge].map .short) :=
    areTame_cons.2 ⟨zero, areTame_cons.2 ⟨edge, areTame_nil⟩⟩
  rw [Document.writesDecimals_iff]
  exact areTame_append.2 ⟨view, areTame_append.2 ⟨areTame_flatMap.2 hd, hc⟩⟩

end

namespace Definitions.AreTame

variable {ds es : Definitions} {d : Def}

theorem empty : Definitions.empty.AreTame := List.forall_mem_nil _

theorem insert (h : ds.AreTame) (hd : Svg.AreTame d.numerals) : (ds.insert d).AreTame :=
  Definitions.forall_insert h hd

theorem merge (h : ds.AreTame) (h' : es.AreTame) : (ds.merge es).AreTame :=
  Definitions.forall_merge h h'

end Definitions.AreTame

namespace Node

mutual

private theorem restyle_areTame {f : Style → Style}
    (hf : ∀ s, AreTame s.numerals → AreTame (f s).numerals) {n : Node} (h : AreTame n.numerals) :
    AreTame (restyle f n).numerals := by
  cases n with
  | shape geometry style =>
    obtain ⟨outline, painted⟩ := areTame_append.1 h
    exact areTame_append.2 ⟨outline, hf style painted⟩
  | group effects children =>
    obtain ⟨own, inner⟩ := areTame_append.1 h
    exact areTame_append.2 ⟨own, restyleAll_areTame hf inner⟩
  | image box address rendering => exact h

theorem restyleAll_areTame {f : Style → Style}
    (hf : ∀ s, AreTame s.numerals → AreTame (f s).numerals) {ns : List Node}
    (h : AreTame (numeralsAll ns)) : AreTame (numeralsAll (restyleAll f ns)) := by
  cases ns with
  | nil => exact areTame_nil
  | cons n ns =>
    obtain ⟨first, rest⟩ := areTame_append.1 h
    exact areTame_append.2 ⟨restyle_areTame hf first, restyleAll_areTame hf rest⟩

end

theorem numeralsAll_append (ns ms : List Node) :
    numeralsAll (ns ++ ms) = numeralsAll ns ++ numeralsAll ms := by
  induction ns with
  | nil => rfl
  | cons n ns ih => rw [List.cons_append, numeralsAll, numeralsAll, ih, List.append_assoc]

theorem areTame_all {ns : List Node} :
    AreTame (numeralsAll ns) ↔ ∀ n ∈ ns, AreTame n.numerals := by
  induction ns with
  | nil => exact iff_of_true areTame_nil (List.forall_mem_nil _)
  | cons n ns ih => rw [numeralsAll, areTame_append, ih, List.forall_mem_cons]

theorem areTame_single {n : Node} (h : AreTame n.numerals) : AreTame (numeralsAll [n]) :=
  areTame_append.2 ⟨h, areTame_nil⟩

theorem areTame_group {effects : Effects} {children : List Node} (plain : effects.numerals = [])
    (h : AreTame (numeralsAll children)) : AreTame (group effects children).numerals := by
  rwa [numerals, plain, List.nil_append]

theorem areTame_canvas (r : Resolution) {style : Style} (h : AreTame style.numerals) :
    AreTame (canvas r style).numerals := areTame_append.2 ⟨areTame_square r, h⟩

end Node

end Svg

open Svg (AreTame)

structure Fragment.IsTame (f : Fragment) : Prop where
  nodes : AreTame (Svg.Node.numeralsAll f.nodes)
  definitions : f.definitions.AreTame

def Artifact.IsTame : Artifact → Prop
  | .vector f => f.IsTame
  | .raster _ _ => True

namespace Artifact.IsTame

variable {a : Artifact} {r : Resolution}

theorem empty : Artifact.empty.IsTame := ⟨Svg.areTame_nil, Svg.Definitions.AreTame.empty⟩

theorem single {n : Svg.Node} (h : AreTame n.numerals) : (Artifact.single n).IsTame :=
  ⟨Svg.Node.areTame_single h, Svg.Definitions.AreTame.empty⟩

theorem toFragment (h : a.IsTame) : (a.toFragment r).IsTame := by
  cases a with
  | vector f => exact h
  | raster p rendering =>
    exact ⟨Svg.Node.areTame_single (Svg.areTame_square r), Svg.Definitions.AreTame.empty⟩

theorem getD {a : Option Artifact} (h : ∀ b ∈ a, b.IsTame) : (a.getD .empty).IsTame := by
  cases a with
  | none => exact empty
  | some b => exact h b rfl

end Artifact.IsTame

end Texture
