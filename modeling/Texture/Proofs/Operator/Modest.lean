/- Texture/Proofs/Operator/Modest
   digest: Parameters that keep far from the largest floats: from bags without larger numbers come
   settings without larger numbers, opacities and offsets between zero and one, and few spokes. -/

import Texture.Operator.Decode
import Texture.Proofs.Number.Position

set_option autoImplicit false
set_option relaxedAutoImplicit false

namespace Texture

open Number (Exact Position Within clamp exactValue)
open Number.Binary (isFinite roundHalfAway wholePart)

namespace Number

variable {x : Float}

structure IsShare (x : Float) : Prop where
  finite : isFinite x = true
  least : 0 ≤ exactValue x
  most : exactValue x ≤ 1

theorem IsShare.within (h : IsShare x) : Within 0 x := by
  refine ⟨h.finite, ?_⟩
  rw [abs_of_nonneg h.least, zpow_zero]
  exact h.most

theorem isShare_zero : IsShare 0.0 :=
  ⟨(within_zero 0).finite, exactValue_zero.ge, by rw [exactValue_zero]; exact zero_le_one⟩

theorem isShare_one : IsShare 1.0 :=
  ⟨within_one.finite, by rw [exactValue_one]; exact zero_le_one, exactValue_one.le⟩

theorem clamp_unit (finite : isFinite x = true) :
    Exact (clamp x 0.0 1.0) (max 0 (min 1 (exactValue x))) := by
  have ordered : exactValue 0.0 ≤ exactValue 1.0 := isShare_zero.most.trans exactValue_one.ge
  have nearest := clamp_exact finite isShare_zero.finite isShare_one.finite ordered
  rwa [exactValue_zero, exactValue_one] at nearest

theorem isShare_clamp (finite : isFinite x = true) : IsShare (clamp x 0.0 1.0) := by
  have nearest := clamp_unit finite
  refine ⟨nearest.finite, ?_, ?_⟩
  · rw [nearest.value]
    exact le_max_left _ _
  · rw [nearest.value]
    exact max_le zero_le_one (min_le_left _ _)

private theorem ofFloat_toFloat (x : Float) :
    Binary.ofFloat (Position.ofFloat x).toFloat = Binary.ofFloat x :=
  ofFloat_ofBits x.toBits

theorem exactValue_ofFloat (x : Float) : exactValue (Position.ofFloat x).toFloat = exactValue x := by
  rw [exactValue, exactValue, ofFloat_toFloat]

private theorem isFinite_ofFloat (x : Float) :
    isFinite (Position.ofFloat x).toFloat = isFinite x := by
  rw [Binary.isFinite, Binary.isFinite, ofFloat_toFloat]

theorem IsShare.ofFloat (h : IsShare x) : IsShare (Position.ofFloat x).toFloat := by
  refine ⟨?_, ?_, ?_⟩
  · rw [isFinite_ofFloat]
    exact h.finite
  · rw [exactValue_ofFloat]
    exact h.least
  · rw [exactValue_ofFloat]
    exact h.most

private theorem IsShare.clampUnit (h : IsShare x) :
    IsShare (Position.ofFloat x).clampUnit.toFloat := by
  have same := h.ofFloat
  have zero : IsShare Position.zero.toFloat := isShare_zero
  have one : IsShare Position.one.toFloat := isShare_one
  unfold Position.clampUnit
  split
  · exact same
  · split
    · exact zero
    · split
      · exact one
      · exact same

end Number

open Number (IsShare)

def Bag.IsModest (bag : Bag) : Prop := ∀ key x, bag.number? key = some x → Within 960 x

structure GradientStop.IsModest (s : GradientStop) : Prop where
  offset : IsShare s.offset.clampUnit.toFloat
  opacity : IsShare s.opacity

/-- Parameters within a power of two, opacities between zero and one, and few spokes. -/
def Settings.IsModest : Settings → Prop
  | rectangle s => Within 960 s.width ∧ Within 960 s.height ∧ Within 960 s.topLeft ∧
    Within 960 s.topRight ∧ Within 960 s.bottomRight ∧ Within 960 s.bottomLeft
  | circle s => Within 960 s.width ∧ Within 960 s.height
  | polygon s => s.points ≤ 1024 ∧ Within 960 s.outer ∧ Within 960 s.inner
  | wavyRing s => Within 960 s.radius ∧ Within 960 s.frequency ∧ Within 960 s.amplitude
  | beam s => Within 960 s.length ∧ Within 960 s.topWidth ∧ Within 960 s.bottomWidth
  | gradient g => Within 960 g.directionX ∧ Within 960 g.directionY ∧ Within 960 g.power ∧
    ∀ s ∈ g.stops, s.IsModest
  | color s => IsShare s.opacity
  | alpha opacity => IsShare opacity
  | fill s => Within 960 s.strokeWidth
  | glow s => Within 960 s.radius ∧ Within 960 s.intensity
  | softBlur radius => Within 960 radius
  | stroke s => Within 960 s.width ∧ IsShare s.opacity
  | gradientFade s => Within 960 s.direction ∧ IsShare s.start ∧ IsShare s.stop
  | translate s => Within 960 s.x ∧ Within 960 s.y
  | rotate degrees => Within 960 degrees
  | scale factor => Within 960 factor
  | value _ | image _ | math _ | pixelate _ | polar _ | output | unknown => True

section

variable {bag : Bag} {x : Float} {o : Option Float}

private theorem getD_of {P : Float → Prop} (h : ∀ y, o = some y → P y) (usual : P x) :
    P (o.getD x) := by
  cases o with
  | none => exact usual
  | some y => exact h y rfl

private theorem Bag.isFinite_of_number? {key : String} (read : bag.number? key = some x) :
    isFinite x = true := by
  have last : ∀ y, (if isFinite y then some y else none) = some x → isFinite x = true := by
    intro y tested
    split at tested
    · rename_i finite
      rwa [← Option.some.inj tested]
    · cases tested
  obtain ⟨v, -, rest⟩ := Option.bind_eq_some_iff.1 read
  cases v with
  | number n => exact last _ rest
  | string text =>
    obtain ⟨y, -, tested⟩ := Option.bind_eq_some_iff.1 rest
    exact last y tested
  | null => cases rest
  | bool b => cases rest
  | array items => cases rest
  | object fields => cases rest

private theorem Bag.isShare_of_unit? (bag : Bag) (key : String) (x : Float)
    (read : bag.unit? key = some x) : IsShare x := by
  obtain ⟨y, held, rfl⟩ := Option.map_eq_some_iff.1 read
  exact Number.isShare_clamp (isFinite_of_number? held)

private theorem Bag.isShare_unit (bag : Bag) (key : String) (usual : IsShare x) :
    IsShare ((bag.unit? key).getD x) := getD_of (bag.isShare_of_unit? key) usual

private theorem Bag.count?_le {key : String} {low high : Float} {n l h : Nat}
    (read : bag.count? key low high = some n) (hl : Exact low l) (hh : Exact high h)
    (ordered : l ≤ h) : n ≤ h := by
  obtain ⟨y, held, rfl⟩ := Option.map_eq_some_iff.1 read
  have nearest :=
    Number.wholePart_clamp_roundHalfAway (isFinite_of_number? held) hl hh ordered
  omega

private theorem Gradient.stopOfBag_isModest (bag : Bag) : (stopOfBag bag).IsModest :=
  ⟨(bag.isShare_unit "offset" Number.isShare_zero).clampUnit,
    bag.isShare_unit "opacity" Number.isShare_one⟩

private theorem Gradient.ofStops_isModest {stops : List GradientStop}
    (h : ∀ s ∈ stops, s.IsModest) : ∀ s ∈ (ofStops stops).stops, s.IsModest :=
  fun s mem => h s (List.mem_mergeSort.1 mem)

private theorem Gradient.ofBag_isModest (bag : Bag) : ∀ s ∈ (ofBag bag).stops, s.IsModest := by
  have standard : ∀ s ∈ standard.stops, s.IsModest := by
    have full : IsShare 1.0 := Number.isShare_one
    exact List.forall_mem_cons.2 ⟨⟨Number.isShare_zero, full⟩,
      List.forall_mem_singleton.2 ⟨Number.isShare_one, full⟩⟩
  have stored : ∀ s ∈ stopsOfBag bag, s.IsModest := by
    unfold stopsOfBag
    split
    · rw [List.forall_mem_map]
      exact fun inner _ => stopOfBag_isModest inner
    · exact List.forall_mem_nil _
  unfold ofBag
  simp only
  split
  · exact ofStops_isModest standard
  · exact ofStops_isModest stored

namespace Bag.IsModest

variable (modest : bag.IsModest) (key : String)

include modest

private theorem size (usual : Within 960 x) : Within 960 ((bag.size? key).getD x) := by
  refine getD_of (fun y read => ?_) usual
  obtain ⟨z, held, rfl⟩ := Option.map_eq_some_iff.1 read
  exact (modest key z held).larger (Number.within_zero 960)

private theorem number (usual : Within 960 x) : Within 960 ((bag.number? key).getD x) :=
  getD_of (modest key) usual

end Bag.IsModest

theorem spokes : Exact 3.0 (3 : Nat) ∧ Exact 1024.0 (1024 : Nat) :=
  ⟨.of_test (by decide), .of_test (by decide)⟩

/-- Bags without larger numbers give parameters without larger numbers. -/
theorem Settings.ofBag_isModest (modest : bag.IsModest) (op : Operator) :
    (ofBag op bag).IsModest := by
  have size : ∀ key {usual : Float}, Number.isWithin 960 usual = true →
      Within 960 ((bag.size? key).getD usual) := fun key _ usual => modest.size key (.of_test usual)
  have number : ∀ key {usual : Float}, Number.isWithin 960 usual = true →
      Within 960 ((bag.number? key).getD usual) :=
    fun key _ usual => modest.number key (.of_test usual)
  have level : ∀ key, IsShare ((bag.unit? key).getD 1.0) :=
    fun key => bag.isShare_unit key Number.isShare_one
  cases op with
  | rectangle =>
    refine ⟨size "width" ?_, size "height" ?_, size "rTL" ?_, size "rTR" ?_, size "rBR" ?_,
      size "rBL" ?_⟩ <;> decide +kernel
  | circle => refine ⟨size "width" ?_, size "height" ?_⟩ <;> decide +kernel
  | polygon =>
    have few : ((bag.count? "points" 3.0 1024.0).getD 5) ≤ 1024 := by
      cases read : bag.count? "points" 3.0 1024.0 with
      | none => decide
      | some n => exact Bag.count?_le read spokes.1 spokes.2 (by decide)
    refine ⟨few, size "outerRadius" ?_, size "innerRadius" ?_⟩ <;> decide +kernel
  | wavyRing =>
    refine ⟨size "radius" ?_, number "frequency" ?_, number "amplitude" ?_⟩ <;> decide +kernel
  | beam =>
    refine ⟨size "length" ?_, size "topWidth" ?_, size "bottomWidth" ?_⟩ <;> decide +kernel
  | gradient =>
    have power : Within 960 ((((bag.number? "power").filter (0.0 < ·)).getD 1.0)) := by
      refine getD_of (fun y kept => ?_) (.of_test (by decide +kernel))
      exact modest "power" y (Option.filter_eq_some_iff.1 kept).1
    refine ⟨number "directionX" ?_, number "directionY" ?_, power, Gradient.ofBag_isModest bag⟩
      <;> decide +kernel
  | color =>
    refine getD_of (fun y read => ?_) Number.isShare_one
    rcases Option.or_eq_some_iff.1 read with first | ⟨-, second⟩
    · exact bag.isShare_of_unit? "opacity" y first
    · exact bag.isShare_of_unit? "a" y second
  | alpha => exact level "value"
  | fill => exact size "strokeWidth" (by decide +kernel)
  | glow => refine ⟨size "radius" ?_, size "intensity" ?_⟩ <;> decide +kernel
  | neon => refine ⟨size "radius" ?_, size "intensity" ?_⟩ <;> decide +kernel
  | softBlur => exact size "radius" (by decide +kernel)
  | stroke => exact ⟨size "width" (by decide +kernel), level "opacity"⟩
  | gradientFade =>
    exact ⟨number "direction" (by decide +kernel), level "start",
      bag.isShare_unit "end" Number.isShare_zero⟩
  | translate => refine ⟨number "x" ?_, number "y" ?_⟩ <;> decide +kernel
  | rotate => exact number "angle" (by decide +kernel)
  | scale => exact number "scale" (by decide +kernel)
  | _ => trivial

end

end Texture
