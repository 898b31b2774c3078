/- Texture/Proofs/Operator/Decode
   digest: Whatever a bag holds, the parameters decoded from it belong to the operator, lie in their
   intervals and have their usual values where no number is stored. -/

import Texture.Proofs.Operator.Entry
import Texture.Proofs.Operator.Stops

set_option autoImplicit false
set_option relaxedAutoImplicit false

namespace Texture

open Number (Exact IsShare Position exactValue)
open Number.Binary (isFinite)

namespace Entry

def single (key : String) (quantity : Quantity) : Entry := ⟨.own, [key], quantity⟩

def channel (key : String) (level : UInt8) : Entry := ⟨.palette, [key], .count 0 255 level.toNat⟩

end Entry

open Entry (single channel)

def Color.entries (c : Color) : List Entry :=
  [channel "r" c.red, channel "g" c.green, channel "b" c.blue]

namespace GradientStop

def entries (s : GradientStop) : List Entry :=
  single "offset" (.share s.offset.toFloat) :: single "opacity" (.share s.opacity) :: s.color.entries

/-- A stop without any numbers in its bag. -/
def usual : GradientStop := ⟨Position.zero, Color.white, 1.0⟩

end GradientStop

namespace Settings

def operator : Settings → Operator
  | rectangle _ => .rectangle
  | circle _ => .circle
  | polygon _ => .polygon
  | wavyRing _ => .wavyRing
  | beam _ => .beam
  | gradient _ => .gradient
  | color _ => .color
  | value _ => .value
  | alpha _ => .alpha
  | image _ => .image
  | math .union => .add
  | math .difference => .subtract
  | math .intersection => .multiply
  | math .exclusion => .divide
  | fill _ => .fill
  | glow ⟨.glow, _, _⟩ => .glow
  | glow ⟨.neon, _, _⟩ => .neon
  | softBlur _ => .softBlur
  | stroke _ => .stroke
  | gradientFade _ => .gradientFade
  | pixelate _ => .pixelate
  | translate _ => .translate
  | rotate _ => .rotate
  | scale _ => .scale
  | polar _ => .polar
  | output => .output
  | unknown => .unknown

/-- The parameters of an operator that has none stored. -/
def usual : Operator → Settings
  | .rectangle => rectangle {}
  | .circle => circle {}
  | .polygon => polygon {}
  | .wavyRing => wavyRing {}
  | .beam => beam {}
  | .gradient => gradient Gradient.standard
  | .color => color {}
  | .value => value 0.5
  | .alpha => alpha 1.0
  | .image => image none
  | .add => math .union
  | .subtract => math .difference
  | .multiply => math .intersection
  | .divide => math .exclusion
  | .fill => fill {}
  | .glow => glow (GlowSettings.standard .glow)
  | .neon => glow (GlowSettings.standard .neon)
  | .softBlur => softBlur 5.0
  | .stroke => stroke {}
  | .gradientFade => gradientFade {}
  | .pixelate => pixelate 8
  | .translate => translate {}
  | .rotate => rotate 0.0
  | .scale => scale 1.0
  | .polar => polar {}
  | .output => output
  | .unknown => unknown

/-- All numbers among the parameters but those of the stops of a gradient. -/
def entries : Settings → List Entry
  | rectangle s => [single "width" (.size s.width), single "height" (.size s.height),
    single "rTL" (.size s.topLeft), single "rTR" (.size s.topRight),
    single "rBR" (.size s.bottomRight), single "rBL" (.size s.bottomLeft)]
  | circle s => [single "width" (.size s.width), single "height" (.size s.height)]
  | polygon s => [single "points" (.count 3 1024 s.points), single "outerRadius" (.size s.outer),
    single "innerRadius" (.size s.inner)]
  | wavyRing s => [single "radius" (.size s.radius), single "frequency" (.real s.frequency),
    single "amplitude" (.real s.amplitude)]
  | beam s => [single "length" (.size s.length), single "topWidth" (.size s.topWidth),
    single "bottomWidth" (.size s.bottomWidth)]
  | gradient g => [single "directionX" (.real g.directionX),
    single "directionY" (.real g.directionY), single "power" (.power g.power)]
  | color s => ⟨.own, ["opacity", "a"], .share s.opacity⟩ :: s.color.entries
  | value level => [single "value" (.share level)]
  | alpha opacity => [single "value" (.share opacity)]
  | fill s => [single "strokeWidth" (.size s.strokeWidth)]
  | glow s => [single "radius" (.size s.radius), single "intensity" (.size s.intensity)]
  | softBlur radius => [single "radius" (.size radius)]
  | stroke s => [single "width" (.size s.width), single "opacity" (.share s.opacity)]
  | gradientFade s => [single "direction" (.real s.direction), single "start" (.share s.start),
    single "end" (.share s.stop)]
  | pixelate size => [single "pixelSize" (.count 1 4096 size)]
  | translate s => [single "x" (.real s.x), single "y" (.real s.y)]
  | rotate degrees => [single "angle" (.real degrees)]
  | scale factor => [single "scale" (.real factor)]
  | polar s => [single "x" (.real s.offsetX), single "y" (.real s.offsetY),
    single "radialScale" (.real s.radialScale), single "angularScale" (.real s.angularScale)]
  | image _ | math _ | output | unknown => []

end Settings

/-- The bags of the stops that a bag holds; what is no bag is no stop. -/
def Bag.stops (bag : Bag) : List Bag :=
  match bag.get? "stops" with
  | some (.array items) => items.filterMap Json.fields?
  | _ => []

/-- The stops of a gradient come from a bag: they stand in the order of their offsets, their numbers
lie in their intervals, and there is one for each bag of a stop. Without any such bag there are the
usual two. -/
structure Gradient.StopsRead (bag : Bag) (stops : List GradientStop) : Prop where
  some : stops ≠ []
  sorted : stops.Pairwise fun s t => exactValue s.offset.toFloat ≤ exactValue t.offset.toFloat
  inRange : ∀ s ∈ stops, ∀ f ∈ s.entries, f.quantity.InRange
  kept : bag.stops = [] → stops = standard.stops
  stored : bag.stops ≠ [] → ∃ read, stops.Perm read ∧ List.Forall₂
    (fun inner s => List.Forall₂ (Entry.IsRead inner) s.entries GradientStop.usual.entries)
    bag.stops read

def Settings.StopsRead (bag : Bag) : Settings → Prop
  | gradient g => Gradient.StopsRead bag g.stops
  | _ => True

section

variable {bag : Bag}

private theorem inRange_of_forall₂ {fs us : List Entry} (h : List.Forall₂ (Entry.IsRead bag) fs us)
    (fine : ∀ u ∈ us, u.quantity.InRange) : ∀ f ∈ fs, f.quantity.InRange := by
  induction h with
  | nil => exact List.forall_mem_nil _
  | cons read rest ih =>
    obtain ⟨first, others⟩ := List.forall_mem_cons.1 fine
    exact List.forall_mem_cons.2 ⟨read.inRange first, ih others⟩

/-- Whether a quantity is in its interval, for exponents that are not below one. -/
def Quantity.fits : Quantity → Bool
  | real x => isFinite x
  | size x => Number.isUnsigned x
  | share x => Number.isUnsigned x && Number.isWithin 0 x
  | power x => Number.isUnsigned x && Number.isBeyond 0 x
  | count low high n => decide (low ≤ n) && decide (n ≤ high)

private theorem Quantity.InRange.of_test {q : Quantity} (held : q.fits = true) : q.InRange := by
  cases q with
  | real x => exact held
  | size x => exact Number.exactValue_nonneg held
  | share x =>
    obtain ⟨unsigned, short⟩ := Bool.and_eq_true_iff.1 held
    obtain ⟨finite, least⟩ := Number.exactValue_nonneg unsigned
    have most := (Number.Within.of_test short).most
    rw [abs_of_nonneg least, zpow_zero] at most
    exact ⟨finite, least, most⟩
  | power x =>
    obtain ⟨unsigned, long⟩ := Bool.and_eq_true_iff.1 held
    obtain ⟨finite, least⟩ := Number.exactValue_nonneg unsigned
    exact ⟨finite, lt_of_le_of_ne least (Number.Beyond.of_test long).nonzero.symm⟩
  | count low high n =>
    obtain ⟨least, most⟩ := Bool.and_eq_true_iff.1 held
    exact ⟨of_decide_eq_true least, of_decide_eq_true most⟩

private theorem inRange_of_test {entries : List Entry}
    (test : entries.all (·.quantity.fits) = true) : ∀ f ∈ entries, f.quantity.InRange :=
  fun f mem => .of_test (List.all_eq_true.1 test f mem)

private theorem Settings.usual_inRange (op : Operator) :
    ∀ f ∈ (usual op).entries, f.quantity.InRange :=
  inRange_of_test (by cases op <;> decide +kernel)

private theorem Bag.color_isRead (bag : Bag) :
    List.Forall₂ (Entry.IsRead bag) bag.color.entries Color.white.entries := by
  have channel : ∀ key, Entry.IsRead bag
      (channel key (UInt8.ofNat ((bag.palette.count? key 0.0 255.0).getD 255))) (channel key 255) := by
    intro key
    have low : Exact 0.0 (0 : Nat) :=
      ⟨(Number.within_zero 0).finite, by rw [Number.exactValue_zero, Nat.cast_zero]⟩
    have high : Exact 255.0 (255 : Nat) := .of_test (by decide)
    have read : Entry.IsRead bag ⟨.palette, [key], .count 0 255 _⟩
        ⟨.palette, [key], .count 0 255 255⟩ :=
      Entry.isRead_count .palette low high (Nat.zero_le _)
    have most := (read.inRange ⟨Nat.zero_le _, le_rfl⟩).2
    have level : (UInt8.ofNat ((bag.palette.count? key 0.0 255.0).getD 255)).toNat
        = (bag.palette.count? key 0.0 255.0).getD 255 :=
      UInt8.toNat_ofNat_of_lt' (Nat.lt_succ_of_le most)
    unfold Entry.channel
    rw [level]
    exact read
  exact .cons (channel "r") (.cons (channel "g") (.cons (channel "b") .nil))

namespace Gradient

private theorem stopOfBag_isRead (bag : Bag) :
    List.Forall₂ (Entry.IsRead bag) (stopOfBag bag).entries GradientStop.usual.entries := by
  have zero : Position.ofFloat 0.0 = Position.zero := by decide
  have offset : Entry.IsRead bag (single "offset" (.share (stopOfBag bag).offset.toFloat))
      (single "offset" (.share (Position.ofFloat 0.0).toFloat)) :=
    Entry.isRead_single .own
      (fun held => .share
        (Position.ofFloat ((held.map (Number.clamp · 0.0 1.0)).getD 0.0)).toFloat)
      fun x finite => ⟨(Number.isShare_clamp finite).ofFloat,
        (Number.exactValue_ofFloat _).trans (Number.clamp_unit finite).value⟩
  rw [zero] at offset
  exact .cons offset (.cons Entry.isRead_share bag.color_isRead)

private theorem stopsOfBag_eq (bag : Bag) : stopsOfBag bag = bag.stops.map stopOfBag := by
  unfold stopsOfBag Bag.stops
  cases bag.get? "stops" with
  | none => rfl
  | some v => cases v <;> rfl

private theorem sort_sorted {stops : List GradientStop}
    (fine : ∀ s ∈ stops, IsShare s.offset.toFloat) :
    (sort stops).Pairwise fun s t => exactValue s.offset.toFloat ≤ exactValue t.offset.toFloat := by
  refine (sort_settled stops).ascending.imp_of_mem fun {s t} left right before => ?_
  exact Number.exactValue_le_of_rank_le (fine s (List.mem_mergeSort.1 left)).finite
    (fine t (List.mem_mergeSort.1 right)).finite before

private theorem stopsRead_sort {bag : Bag} {stops : List GradientStop} (some : stops ≠ [])
    (inRange : ∀ s ∈ stops, ∀ f ∈ s.entries, f.quantity.InRange)
    (kept : bag.stops = [] → sort stops = standard.stops)
    (stored : bag.stops ≠ [] → List.Forall₂
      (fun inner s => List.Forall₂ (Entry.IsRead inner) s.entries GradientStop.usual.entries)
      bag.stops stops) : StopsRead bag (sort stops) where
  some := fun none => some (List.Perm.eq_nil (none ▸ (List.mergeSort_perm stops _).symm))
  sorted := sort_sorted fun s mem => inRange s mem _ List.mem_cons_self
  inRange := fun s mem => inRange s (List.mem_mergeSort.1 mem)
  kept := kept
  stored := fun usable => ⟨stops, List.mergeSort_perm stops _, stored usable⟩

private theorem ofBag_stopsRead (bag : Bag) : StopsRead bag (ofBag bag).stops := by
  have usual : ∀ s ∈ standard.stops, ∀ f ∈ s.entries, f.quantity.InRange :=
    List.forall_mem_cons.2 ⟨inRange_of_test (by decide +kernel),
      List.forall_mem_singleton.2 (inRange_of_test (by decide))⟩
  have fine : ∀ u ∈ GradientStop.usual.entries, u.quantity.InRange :=
    inRange_of_test (by decide +kernel)
  have choice : (ofBag bag).stops
      = sort (if (stopsOfBag bag).isEmpty then standard.stops else stopsOfBag bag) := by
    unfold ofBag
    simp only
    split
    · rfl
    · rfl
  rw [choice, stopsOfBag_eq]
  cases held : bag.stops with
  | nil =>
    have inOrder : sort standard.stops = standard.stops :=
      List.mergeSort_of_pairwise (by decide)
    exact stopsRead_sort (List.cons_ne_nil _ _) usual (fun _ => inOrder)
      fun usable => absurd held usable
  | cons first rest =>
    refine stopsRead_sort (List.cons_ne_nil _ _) ?_ (fun none => ?_) fun _ => ?_
    · exact List.forall_mem_map.2 fun inner _ => inRange_of_forall₂ (stopOfBag_isRead inner) fine
    · exact absurd (held.symm.trans none) (List.cons_ne_nil _ _)
    · rw [held]
      exact List.forall₂_map_right_iff.2 (List.forall₂_same.2 fun inner _ => stopOfBag_isRead inner)

end Gradient

namespace Settings

private theorem operator_ofBag (op : Operator) (bag : Bag) : (ofBag op bag).operator = op := by
  cases op <;> rfl

private theorem ofBag_isRead (op : Operator) (bag : Bag) :
    List.Forall₂ (Entry.IsRead bag) (ofBag op bag).entries (usual op).entries := by
  have size : ∀ key {x : Float},
      Entry.IsRead bag (single key (.size ((bag.size? key).getD x))) (single key (.size x)) :=
    fun _ => Entry.isRead_size
  have real : ∀ key {x : Float},
      Entry.IsRead bag (single key (.real ((bag.number? key).getD x))) (single key (.real x)) :=
    fun _ => Entry.isRead_real
  have share : ∀ key {x : Float},
      Entry.IsRead bag (single key (.share ((bag.unit? key).getD x))) (single key (.share x)) :=
    fun _ => Entry.isRead_share
  cases op with
  | rectangle =>
    exact .cons (size "width") (.cons (size "height") (.cons (size "rTL") (.cons (size "rTR")
      (.cons (size "rBR") (.cons (size "rBL") .nil)))))
  | circle => exact .cons (size "width") (.cons (size "height") .nil)
  | polygon =>
    have points : Entry.IsRead bag
        (single "points" (.count 3 1024 ((bag.count? "points" 3.0 1024.0).getD 5)))
        (single "points" (.count 3 1024 5)) :=
      Entry.isRead_count .own spokes.1 spokes.2 (by decide)
    exact .cons points (.cons (size "outerRadius") (.cons (size "innerRadius") .nil))
  | wavyRing => exact .cons (size "radius") (.cons (real "frequency") (.cons (real "amplitude") .nil))
  | beam => exact .cons (size "length") (.cons (size "topWidth") (.cons (size "bottomWidth") .nil))
  | gradient =>
    have power : Entry.IsRead bag
        (single "power" (.power (((bag.number? "power").filter (0.0 < ·)).getD 1.0)))
        (single "power" (.power 1.0)) :=
      Entry.isRead_power (.of_test (by decide))
    exact .cons (real "directionX") (.cons (real "directionY") (.cons power .nil))
  -- The opacity has two keys, and the second counts where the first holds no number.
  | color =>
    have opacity : Entry.IsRead bag
        ⟨.own, ["opacity", "a"], .share (((bag.unit? "opacity").or (bag.unit? "a")).getD 1.0)⟩
        ⟨.own, ["opacity", "a"], .share 1.0⟩ := by
      have either : (bag.unit? "opacity").or (bag.unit? "a")
          = (["opacity", "a"].findSome? bag.number?).map (Number.clamp · 0.0 1.0) := by
        unfold Bag.unit?
        cases first : bag.number? "opacity" <;> cases second : bag.number? "a" <;>
          simp [first, second]
      rw [either]
      exact Entry.isRead_first .own
        (fun held => .share ((held.map (Number.clamp · 0.0 1.0)).getD 1.0))
        fun _ finite => ⟨Number.isShare_clamp finite, (Number.clamp_unit finite).value⟩
    exact .cons opacity bag.color_isRead
  | value => exact .cons (share "value") .nil
  | alpha => exact .cons (share "value") .nil
  | fill => exact .cons (size "strokeWidth") .nil
  | glow => exact .cons (size "radius") (.cons (size "intensity") .nil)
  | neon => exact .cons (size "radius") (.cons (size "intensity") .nil)
  | softBlur => exact .cons (size "radius") .nil
  | stroke => exact .cons (size "width") (.cons (share "opacity") .nil)
  | gradientFade => exact .cons (real "direction") (.cons (share "start") (.cons (share "end") .nil))
  | pixelate =>
    have size : Entry.IsRead bag
        (single "pixelSize" (.count 1 4096 ((bag.count? "pixelSize" 1.0 4096.0).getD 8)))
        (single "pixelSize" (.count 1 4096 8)) :=
      Entry.isRead_count .own (.of_test (by decide)) (.of_test (by decide))
        (by decide)
    exact .cons size .nil
  | translate => exact .cons (real "x") (.cons (real "y") .nil)
  | rotate => exact .cons (real "angle") .nil
  | scale => exact .cons (real "scale") .nil
  | polar =>
    exact .cons (real "x") (.cons (real "y") (.cons (real "radialScale")
      (.cons (real "angularScale") .nil)))
  | image | add | subtract | multiply | divide | output | unknown => exact .nil

/-- Whatever a bag holds, the parameters decoded from it belong to the operator, every number in them
is in its interval, the ones without a stored number have their usual values, and a gradient has
stops in the order of their offsets. -/
theorem ofBag_inRange (op : Operator) (bag : Bag) :
    (ofBag op bag).operator = op ∧
      (∀ f ∈ (ofBag op bag).entries, f.quantity.InRange) ∧
      List.Forall₂ (Entry.IsRead bag) (ofBag op bag).entries (usual op).entries ∧
      (ofBag op bag).StopsRead bag := by
  have read := ofBag_isRead op bag
  refine ⟨operator_ofBag op bag, inRange_of_forall₂ read (usual_inRange op), read, ?_⟩
  cases op with
  | gradient => exact Gradient.ofBag_stopsRead bag
  | _ => trivial

end Settings

end

end Texture
