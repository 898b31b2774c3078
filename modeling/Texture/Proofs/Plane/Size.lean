/- Texture/Proofs/Plane/Size
   digest: Outlines of modest shapes stay modest: all points of their lines and curves are within a
   few powers of two of the numbers that they are made from. -/

import Texture.Plane.Outline
import Texture.Proofs.Number.Angle
import Texture.Proofs.Number.Power
import Texture.Proofs.Number.Whole

set_option autoImplicit false
set_option relaxedAutoImplicit false

namespace Texture.Plane

open Number (Beyond)
open Number.Binary (isFinite)

structure Point.Within (k : Int) (p : Point) : Prop where
  x : Number.Within k p.x
  y : Number.Within k p.y

def Step.Within (k : Int) : Step → Prop
  | move p | line p => p.Within k
  | curve p q r => p.Within k ∧ q.Within k ∧ r.Within k
  | close => True

def Path.Within (k : Int) (path : Path) : Prop := ∀ s ∈ path, s.Within k

section

variable {j k l : Int} {p q : Point} {path path' : Path}

private theorem Point.Within.mono (h : p.Within j)
    (le : j ≤ k) : p.Within k := ⟨h.x.mono le, h.y.mono le⟩

private theorem Point.Within.add (hp : p.Within j) (hq : q.Within k)
    (le : max j k < l ∧ -1074 ≤ l ∧ l ≤ 1023) : (p.add q).Within l :=
  ⟨hp.x.add hq.x le, hp.y.add hq.y le⟩

private theorem Point.Within.sub (hp : p.Within j) (hq : q.Within k)
    (le : max j k < l ∧ -1074 ≤ l ∧ l ≤ 1023) : (p.sub q).Within l :=
  ⟨hp.x.sub hq.x le, hp.y.sub hq.y le⟩

private theorem Point.Within.scale {f : Float} (hf : Number.Within j f) (hp : p.Within k)
    (le : j + k ≤ l ∧ -1074 ≤ l ∧ l ≤ 1023) : (Point.scale f p).Within l :=
  ⟨hf.mul hp.x le, hf.mul hp.y le⟩

private theorem Point.Within.turn {angle : Float} (hp : p.Within k) (finite : isFinite angle = true)
    (room : 0 ≤ k ∧ k ≤ 1000) : (p.turn angle).Within (k + 1) := by
  have s := Number.within_sine finite
  have c := Number.within_cosine finite
  have times : ∀ {x f : Float}, Number.Within k x → Number.Within 0 f → Number.Within k (x * f) :=
    fun hx hf => hx.mul hf (by omega)
  exact ⟨(times hp.x c).sub (times hp.y s) (by omega), (times hp.x s).add (times hp.y c) (by omega)⟩

private theorem Step.Within.mono {s : Step} (h : s.Within j) (le : j ≤ k) : s.Within k := by
  cases s with
  | move p => exact Point.Within.mono h le
  | line p => exact Point.Within.mono h le
  | curve p q r => exact ⟨h.1.mono le, h.2.1.mono le, h.2.2.mono le⟩
  | close => trivial

theorem Path.Within.mono (h : Path.Within j path) (le : j ≤ k) : Path.Within k path :=
  fun s mem => (h s mem).mono le

private theorem Path.Within.append (h : Path.Within k path) (h' : Path.Within k path') :
    Path.Within k (path ++ path') := List.forall_mem_append.2 ⟨h, h'⟩

private theorem Path.Within.cons {s : Step} (hs : s.Within k) (h : Path.Within k path) :
    Path.Within k (s :: path) := List.forall_mem_cons.2 ⟨hs, h⟩

private theorem Path.Within.single {s : Step} (hs : s.Within k) : Path.Within k [s] :=
  List.forall_mem_singleton.2 hs

private theorem Outline.within_closed {points : List Point} (h : ∀ p ∈ points, p.Within k) :
    Path.Within k (Outline.closed points) := by
  refine Path.Within.append ?_ (Path.Within.single trivial)
  cases points with
  | nil => exact List.forall_mem_nil _
  | cons p ps =>
    obtain ⟨first, rest⟩ := List.forall_mem_cons.1 h
    refine Path.Within.cons first ?_
    rw [Path.Within, List.forall_mem_map]
    exact rest

theorem Path.Within.translate (h : Path.Within k path) {v : Point} (hv : v.Within 13)
    (room : 13 ≤ k ∧ k ≤ 1000) : Path.Within (k + 2) (path.transform (Affine.translate v)) := by
  have one := Number.within_one
  have zero := Number.within_zero 0
  have moved : ∀ {p : Point}, p.Within k → ((Affine.translate v).apply p).Within (k + 2) := by
    intro p hp
    have times : ∀ {f x : Float}, Number.Within 0 f → Number.Within k x → Number.Within k (f * x) :=
      fun hf hx => hf.mul hx (by omega)
    have sum : ∀ {f g e : Float}, Number.Within 0 f → Number.Within 0 g → Number.Within 13 e →
        Number.Within (k + 2) (f * p.x + g * p.y + e) := fun hf hg he =>
      ((times hf hp.x).add (times hg hp.y) (by omega : _ ∧ _ ∧ k + 1 ≤ 1023)).add he (by omega)
    exact ⟨sum one zero hv.x, sum zero one hv.y⟩
  rw [Path.Within, Path.transform, List.forall_mem_map]
  intro s mem
  have hs := h s mem
  cases s with
  | move p => exact moved hs
  | line p => exact moved hs
  | curve p q r => exact ⟨moved hs.1, moved hs.2.1, moved hs.2.2⟩
  | close => trivial

end

/-! Maps of the plane. -/

def Affine.Within (k : Int) (m : Affine) : Prop := ∀ x ∈ m.toList, Number.Within k x

namespace Affine

variable {j k : Int} {m n : Affine}

private theorem forall_mem_toList {P : Float → Prop} :
    (∀ x ∈ m.toList, P x) ↔ P m.a ∧ P m.b ∧ P m.c ∧ P m.d ∧ P m.e ∧ P m.f := by
  simp [toList]

theorem within_translate {v : Point} (h : v.Within k) (least : 0 ≤ k) :
    (translate v).Within k := by
  have zero := Number.within_zero 0
  have one := Number.within_one
  exact forall_mem_toList.2 ⟨one.mono least, zero.mono least, zero.mono least, one.mono least,
    h.x, h.y⟩

theorem within_rotate {angle : Float} (finite : isFinite angle = true) :
    (rotate angle).Within 0 := by
  have zero := Number.within_zero 0
  have s := Number.within_sine finite
  have c := Number.within_cosine finite
  exact forall_mem_toList.2 ⟨c, s, s.neg (by decide), c, zero, zero⟩

theorem within_scale {x : Float} (h : Number.Within k x) (least : 0 ≤ k) :
    (scale x).Within k := by
  have zero := Number.within_zero 0
  exact forall_mem_toList.2 ⟨h, zero.mono least, zero.mono least, h, zero.mono least,
    zero.mono least⟩

private theorem Within.after (hm : m.Within j) (hn : n.Within k)
    (room : 0 ≤ j ∧ 0 ≤ k ∧ j + k ≤ 1000) : (m.after n).Within (j + k + 2) := by
  obtain ⟨a, b, c, d, e, f⟩ := forall_mem_toList.1 hm
  obtain ⟨a', b', c', d', e', f'⟩ := forall_mem_toList.1 hn
  have sum : ∀ {x y z w : Float}, Number.Within j x → Number.Within k y → Number.Within j z →
      Number.Within k w → Number.Within (j + k + 1) (x * y + z * w) := by
    intro x y z w hx hy hz hw
    have first : Number.Within (j + k) (x * y) := hx.mul hy (by omega)
    have second : Number.Within (j + k) (z * w) := hz.mul hw (by omega)
    exact first.add second (by omega)
  have wider : ∀ {x : Float}, Number.Within (j + k + 1) x → Number.Within (j + k + 2) x :=
    fun hx => hx.mono (by omega)
  exact forall_mem_toList.2 ⟨wider (sum a a' c b'), wider (sum b a' d b'), wider (sum a c' c d'),
    wider (sum b c' d d'), (sum a e' c f').add e (by omega), (sum b e' d f').add f (by omega)⟩

theorem Within.about (h : m.Within k) {p : Point} (centre : p.Within 13)
    (room : 0 ≤ k ∧ k ≤ 980) : (m.about p).Within (k + 16) := by
  have back : Point.Within 13 ⟨-p.x, -p.y⟩ :=
    ⟨centre.x.neg (by decide), centre.y.neg (by decide)⟩
  have moved := h.after (within_translate back (by decide)) (by omega)
  obtain ⟨a, b, c, d, e, f⟩ := forall_mem_toList.1 moved
  have wider : ∀ {x : Float}, Number.Within (k + 13 + 2) x → Number.Within (k + 16) x :=
    fun hx => hx.mono (by omega)
  exact forall_mem_toList.2 ⟨wider a, wider b, wider c, wider d, e.add centre.x (by omega),
    f.add centre.y (by omega)⟩

end Affine

namespace Arc

/-- An arc of a quarter or a full turn whose radii are within a power of two. -/
structure IsModest (k : Int) (arc : Arc) : Prop where
  centre : arc.centre.Within (k + 1)
  radii : arc.radii.Within k
  start : Number.Within 60 arc.start
  tilt : isFinite arc.tilt = true
  sweep : arc.sweep = quarterTurn ∨ arc.sweep = fullTurn

private theorem within_quarterTurn : Number.Within 1 quarterTurn := .of_test (by decide)

private theorem within_fullTurn : Number.Within 3 fullTurn := .of_test (by decide)

private theorem beyond_pieces {arc : Arc} (full : arc.sweep = fullTurn)
    (some : Number.Binary.wholePart arc.pieces ≠ 0) : Beyond 1 arc.pieces := by
  have finite := (Number.beyond_of_wholePart some).finite
  unfold pieces at finite some ⊢
  simp only [full] at finite some ⊢
  refine Beyond.ceiling ?_ some
  have product := Number.isFinite_of_ceiling finite
  obtain ⟨inner, -⟩ := Number.isFinite_of_mul product
  obtain ⟨large, -⟩ := Number.isFinite_of_mul inner
  have turn : isFinite fullTurn.abs = true := by decide
  have enough : Beyond 4 (Number.larger (Number.Power.power (1.1163 *
      (Number.larger arc.radii.x arc.radii.y / tolerance)) (1.0 / 6.0)) 3.999999
      * fullTurn.abs) := by
    refine (Number.rounds_mul large turn (.inr inner)).beyond ?_ (by decide)
    have low : Number.Binary.ofFloat 3.999999 = .finite false 9007197002941178 (-51) := by
      decide
    have read : Number.Binary.ofFloat fullTurn.abs = .finite false 7074237752028440 (-50) := by
      decide
    have least := Number.le_larger (Number.isFinite_of_read low) large
    rw [Number.exactValue_of_read low] at least
    have four : (25 : ℚ) / 7 ≤ _ := le_trans (by norm_num) (least.trans (le_abs_self _))
    rw [abs_mul, Number.abs_exactValue_of_read read]
    have six : (25 : ℚ) / 4 ≤ (7074237752028440 : Nat) * 2 ^ (-50 : Int) := by norm_num
    calc
      (2 : ℚ) ^ (4 : Int) ≤ 25 / 7 * (25 / 4) := by norm_num
      _ ≤ _ := mul_le_mul four six (by norm_num) (abs_nonneg _)
  have inverse : Beyond (-3) (1.0 / fullTurn) := .of_test (by decide)
  exact enough.mul inverse product (by decide)

variable {k : Int} {arc : Arc} (modest : arc.IsModest k) (room : 0 ≤ k ∧ k ≤ 1000)

include modest room

private theorem IsModest.sample {angle : Float} (finite : isFinite angle = true) :
    (arc.sample angle).Within (k + 1) := by
  have c := Number.within_cosine finite
  have s := Number.within_sine finite
  have point : Point.Within k ⟨arc.radii.x * Number.Angle.cosine angle,
      arc.radii.y * Number.Angle.sine angle⟩ :=
    ⟨modest.radii.x.mul c (by omega), modest.radii.y.mul s (by omega)⟩
  exact point.turn modest.tilt room

/-- The curves from any angle on: the angle never grows beyond a power of two, since the steps are
too short to leave it. -/
private theorem IsModest.curvesFrom {step arm : Float} (short : Number.Within 3 step)
    (flat : Number.Within 3 arm) (n : Nat) {angle : Float} (turned : Number.Within 60 angle)
    {p : Point} (hp : p.Within (k + 1)) :
    Path.Within (k + 6) (arc.curvesFrom step arm n angle p) := by
  induction n generalizing angle p with
  | zero => exact List.forall_mem_nil _
  | succ n ih =>
    have next : Number.Within 60 (angle + step) := turned.add_small short (by decide)
    have quarter : ∀ {a : Float}, Number.Within 60 a → isFinite (a + quarterTurn) = true :=
      fun ha => (ha.add_small within_quarterTurn (by decide)).finite
    have sample := modest.sample room next.finite
    have leaving := Point.Within.scale (l := k + 4) flat
      (modest.sample room (quarter turned)) (by omega)
    have arriving := Point.Within.scale (l := k + 4) flat
      (modest.sample room (quarter next)) (by omega)
    have first : Point.Within (k + 5) _ := hp.add leaving (by omega)
    have second : Point.Within (k + 5) _ := sample.sub arriving (by omega)
    refine Path.Within.cons ⟨?_, ?_, ?_⟩ (ih next sample)
    · exact modest.centre.add first (by omega)
    · exact modest.centre.add second (by omega)
    · exact modest.centre.add sample (by omega)

private theorem IsModest.curves : Path.Within (k + 6) arc.curves := by
  unfold Arc.curves
  simp only
  by_cases none : Number.Binary.wholePart arc.pieces = 0
  · rw [none]
    exact List.forall_mem_nil _
  · have least := Number.beyond_of_wholePart none
    obtain ⟨short, slight⟩ : Number.Within 3 (arc.sweep / arc.pieces) ∧
        Number.Within 0 (0.25 * (arc.sweep / arc.pieces)) := by
      have fourth : Number.Within (-2) 0.25 := .of_test (by decide)
      rcases modest.sweep with quarter | full
      · have step : Number.Within 1 (arc.sweep / arc.pieces) :=
          quarter ▸ within_quarterTurn.div least (by decide)
        exact ⟨step.mono (by decide), fourth.mul step (by decide)⟩
      · have step : Number.Within 2 (arc.sweep / arc.pieces) :=
          full ▸ within_fullTurn.div (beyond_pieces full none) (by decide)
        exact ⟨step.mono (by decide), fourth.mul step (by decide)⟩
    have third : Number.Within 1 (4.0 / 3.0) := .of_test (by decide)
    have sign : Number.Within 0 (if arc.sweep < 0.0 then -1.0 else 1.0) := by
      split <;> exact .of_test (by decide)
    have flat : Number.Within 3 (4.0 / 3.0 *
        Number.Angle.tangent (0.25 * (arc.sweep / arc.pieces)).abs) :=
      third.mul (Number.within_tangent (slight.abs (by decide))) (by decide)
    exact modest.curvesFrom room short (flat.mul sign (by decide)) _ modest.start
      (modest.sample room modest.start.finite)

end Arc

namespace Outline

private theorem within_polarPoint {k : Int} {radius angle : Float} (hr : Number.Within k radius)
    (finite : isFinite angle = true) (room : 0 ≤ k ∧ k ≤ 1000) :
    (polarPoint radius angle).Within k :=
  ⟨hr.mul (Number.within_cosine finite) (by omega), hr.mul (Number.within_sine finite) (by omega)⟩

variable {k : Int} (room : 10 ≤ k ∧ k ≤ 980)

include room

theorem within_half {x : Float} (h : Number.Within k x) : Number.Within k (x / 2.0) := by
  have two := Number.beyond_two
  exact h.div two (by omega)

theorem within_roundedBox {width height : Float} {corners : Corners} (hw : Number.Within k width)
    (hh : Number.Within k height) (tl : Number.Within k corners.topLeft)
    (tr : Number.Within k corners.topRight) (br : Number.Within k corners.bottomRight)
    (bl : Number.Within k corners.bottomLeft) :
    Path.Within (k + 6) (roundedBox width height corners) := by
  have zero := Number.within_zero 0
  have halved := @within_half k room
  have sides : ∀ {d : Float}, Number.Within k d →
      Number.Within k (Number.smaller (-d / 2.0) (d / 2.0)) ∧
        Number.Within k (Number.larger (-d / 2.0) (d / 2.0)) := fun hd =>
    ⟨(halved (hd.neg (by omega))).smaller (halved hd),
      (halved (hd.neg (by omega))).larger (halved hd)⟩
  obtain ⟨left, right⟩ := sides hw
  obtain ⟨top, bottom⟩ := sides hh
  unfold roundedBox
  simp only
  -- From here on only the bounds of the four sides matter.
  generalize Number.smaller (-width / 2.0) (width / 2.0) = l at *
  generalize Number.larger (-width / 2.0) (width / 2.0) = r at *
  generalize Number.smaller (-height / 2.0) (height / 2.0) = t at *
  generalize Number.larger (-height / 2.0) (height / 2.0) = b at *
  have two := Number.beyond_two
  have most : Number.Within k (Number.smaller (r - l) (b - t) / 2.0) := by
    have wide : Number.Within (k + 1) (r - l) := right.sub left (by omega)
    have high : Number.Within (k + 1) (b - t) := bottom.sub top (by omega)
    exact (wide.smaller high).div two (by omega)
  generalize Number.smaller (r - l) (b - t) / 2.0 = m at *
  have radius : ∀ {c : Float}, Number.Within k c → Number.Within k (Number.smaller c.abs m) :=
    fun hc => (hc.abs (by omega)).smaller most
  have plus : ∀ {c d : Float}, Number.Within k c → Number.Within k d →
      Number.Within (k + 1) (c + d) := fun hc hd => hc.add hd (by omega)
  have minus : ∀ {c d : Float}, Number.Within k c → Number.Within k d →
      Number.Within (k + 1) (c - d) := fun hc hd => hc.sub hd (by omega)
  have arc : ∀ {x y c q : Float}, Number.Within (k + 1) x → Number.Within (k + 1) y →
      Number.Within k c → Number.Within 2 q →
      Path.Within (k + 6) (Arc.curves ⟨⟨x, y⟩, ⟨c, c⟩, quarterTurn * q, quarterTurn, 0.0⟩) := by
    intro x y c q hx hy hc hq
    have start : Number.Within 3 (quarterTurn * q) := Arc.within_quarterTurn.mul hq (by decide)
    exact Arc.IsModest.curves
      ⟨⟨hx, hy⟩, ⟨hc, hc⟩, start.mono (by decide), zero.finite, .inl rfl⟩ (by omega)
  have step : ∀ {x y : Float}, Number.Within (k + 1) x → Number.Within (k + 1) y →
      Point.Within (k + 6) ⟨x, y⟩ := fun hx hy => ⟨hx.mono (by omega), hy.mono (by omega)⟩
  have wider : ∀ {c : Float}, Number.Within k c → Number.Within (k + 1) c :=
    fun hc => hc.mono (by omega)
  have tl := radius tl
  have tr := radius tr
  have br := radius br
  have bl := radius bl
  refine ((((((((Path.Within.single ?_).append ?_).append (.single ?_)).append ?_).append
    (.single ?_)).append ?_).append (.single ?_)).append ?_).append (.single trivial)
  · exact step (wider left) (plus top tl)
  · exact arc (plus left tl) (plus top tl) tl (.of_test (by decide))
  · exact step (minus right tr) (wider top)
  · exact arc (minus right tr) (plus top tr) tr (.of_test (by decide))
  · exact step (wider right) (minus bottom br)
  · exact arc (minus right br) (minus bottom br) br (Number.within_zero 2)
  · exact step (plus left bl) (wider bottom)
  · exact arc (plus left bl) (minus bottom bl) bl (.of_test (by decide))

theorem within_ellipse {rx ry : Float} (hx : Number.Within k rx) (hy : Number.Within k ry) :
    Path.Within (k + 6) (ellipse rx ry) := by
  have zero := Number.within_zero 0
  have origin : Point.Within (k + 1) ⟨0.0, 0.0⟩ := ⟨zero.mono (by omega), zero.mono (by omega)⟩
  have modest : (Arc.wholeEllipse rx ry).IsModest k := by
    unfold Arc.wholeEllipse
    rw [hx.finite, hy.finite]
    simp only [Bool.and_self, if_true]
    split
    · exact ⟨origin, ⟨hy.abs (by omega), hx.abs (by omega)⟩, zero.mono (by decide),
        Arc.within_quarterTurn.finite, .inr rfl⟩
    · exact ⟨origin, ⟨hx.abs (by omega), hy.abs (by omega)⟩, zero.mono (by decide),
        zero.finite, .inr rfl⟩
  have sample := modest.sample (by omega) modest.start.finite
  refine Path.Within.cons ?_ (modest.curves (by omega))
  exact modest.centre.add sample (by omega)

theorem within_star {spokes : Nat} {outer inner : Float} (few : spokes ≤ 1024)
    (ho : Number.Within k outer) (hi : Number.Within k inner) :
    Path.Within k (star spokes outer inner) := by
  unfold star
  simp only
  refine within_closed ?_
  rw [List.forall_mem_map]
  intro i mem
  have below := List.mem_range.1 mem
  have few : i ≤ 2048 := by omega
  have index : Number.Within 11 (Number.Binary.ofNat false i) :=
    Number.within_ofNat (by decide) (by decide) few
  have total : Beyond 0 (Number.Binary.ofNat false (max spokes 3 * 2)) :=
    Number.beyond_ofNat (by omega) (by simp only [Number.Binary.fractionUnit]; omega)
  have turned : Number.Within 14 (fullTurn * Number.Binary.ofNat false i) :=
    Arc.within_fullTurn.mul index (by decide)
  have part : Number.Within 14 (fullTurn * Number.Binary.ofNat false i /
      Number.Binary.ofNat false (max spokes 3 * 2)) := turned.div total (by decide)
  have angle : Number.Within 15 (fullTurn * Number.Binary.ofNat false i /
      Number.Binary.ofNat false (max spokes 3 * 2) - quarterTurn) :=
    part.sub Arc.within_quarterTurn (by decide)
  refine within_polarPoint ?_ angle.finite (by omega)
  split
  · exact ho
  · exact hi

theorem within_wavyRing {radius frequency amplitude : Float} (hr : Number.Within k radius)
    (hf : Number.Within k frequency) (ha : Number.Within k amplitude) :
    Path.Within (k + 1) (wavyRing radius frequency amplitude) := by
  unfold wavyRing
  refine within_closed ?_
  rw [List.forall_mem_map]
  intro i mem
  have below := List.mem_range.1 mem
  have few : i ≤ 512 := below.le.trans (by decide)
  have index : Number.Within 9 (Number.Binary.ofNat false i) :=
    Number.within_ofNat (by decide) (by decide) few
  have steps : Beyond 8 (Number.Binary.ofNat false ringSteps) := .of_test (by decide)
  have part : Number.Within 1 (Number.Binary.ofNat false i / Number.Binary.ofNat false ringSteps) :=
    index.div steps (by decide)
  have angle : Number.Within 4 (Number.Binary.ofNat false i / Number.Binary.ofNat false ringSteps
      * fullTurn) := part.mul Arc.within_fullTurn (by decide)
  simp only
  generalize Number.Binary.ofNat false i / Number.Binary.ofNat false ringSteps * fullTurn = a at *
  have swing : Number.Within (k + 4) (a * frequency) := angle.mul hf (by omega)
  have wave : Number.Within k (Number.Angle.sine (a * frequency) * amplitude) :=
    (Number.within_sine swing.finite).mul ha (by omega)
  have distance : Number.Within (k + 1) (radius + Number.Angle.sine (a * frequency) * amplitude) :=
    hr.add wave (by omega)
  exact within_polarPoint distance angle.finite (by omega)

theorem within_beam {length topWidth bottomWidth : Float} (hl : Number.Within k length)
    (ht : Number.Within k topWidth) (hb : Number.Within k bottomWidth) :
    Path.Within k (beam length topWidth bottomWidth) := by
  have halved := @within_half k room
  have flipped : ∀ {x : Float}, Number.Within k x → Number.Within k (-(x / 2.0)) :=
    fun hx => (halved hx).neg (by omega)
  refine within_closed ?_
  rw [List.forall_mem_cons, List.forall_mem_cons, List.forall_mem_cons, List.forall_mem_singleton]
  exact ⟨⟨flipped ht, flipped hl⟩, ⟨halved ht, flipped hl⟩, ⟨halved hb, halved hl⟩,
    flipped hb, halved hl⟩

end Outline

end Texture.Plane
