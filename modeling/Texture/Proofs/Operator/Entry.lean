/- Texture/Proofs/Operator/Entry
   digest: Single numbers among the parameters: the interval each of them lies in, the keys it is
   stored under, and what a bag makes of its usual value. -/

import Texture.Proofs.Operator.Modest

set_option autoImplicit false
set_option relaxedAutoImplicit false

namespace Texture

open Number (Exact IsShare exactValue)
open Number.Binary (isFinite)

inductive Bag.Lacks (bag : Bag) (key : String) : Prop where
  | missing (none : bag.get? key = none)
  | mistyped {v : Json} (held : bag.get? key = some v) (number : ∀ n, v ≠ .number n)
    (text : ∀ s, v ≠ .string s)
  | unreadable {s : String} (held : bag.get? key = some (.string s))
    (none : Number.Reader.float? (Text.trim s.toList) = none)
  | infiniteNumber {n : Json.Numeral} (held : bag.get? key = some (.number n))
    (infinite : isFinite n.toFloat = false)
  | infiniteText {s : String} {x : Float} (held : bag.get? key = some (.string s))
    (read : Number.Reader.float? (Text.trim s.toList) = some x) (infinite : isFinite x = false)

/-- A finite number stands under a key, perhaps spelled in a text. -/
inductive Bag.Holds (bag : Bag) (key : String) : Float → Prop where
  | number {n : Json.Numeral} (held : bag.get? key = some (.number n))
    (finite : isFinite n.toFloat = true) : Holds bag key n.toFloat
  | text {s : String} {x : Float} (held : bag.get? key = some (.string s))
    (read : Number.Reader.float? (Text.trim s.toList) = some x) (finite : isFinite x = true) :
    Holds bag key x

/-- A number stands under one of some keys, and none under those before it. -/
inductive Bag.First (bag : Bag) (x : Float) : List String → Prop where
  | here {key : String} {keys : List String} (held : bag.Holds key x) : First bag x (key :: keys)
  | later {key : String} {keys : List String} (lacking : bag.Lacks key) (rest : First bag x keys) :
    First bag x (key :: keys)

/-- The bag that holds the channels of a colour: an object of its own or the bag itself. -/
def Bag.palette (bag : Bag) : Bag := ((bag.get? "color").bind Json.fields?).getD bag

/-- A number among the parameters, by the interval that it lies in. -/
inductive Quantity where
  | real (x : Float)
  | size (x : Float)
  | share (x : Float)
  | power (x : Float)
  | count (low high n : Nat)

namespace Quantity

def InRange : Quantity → Prop
  | real x => isFinite x = true
  | size x => isFinite x = true ∧ 0 ≤ exactValue x
  | share x => IsShare x
  | power x => isFinite x = true ∧ 0 < exactValue x
  | count low high n => low ≤ n ∧ n ≤ high

def value : Quantity → ℚ
  | real x | size x | share x | power x => exactValue x
  | count _ _ n => n

/-- What a stored number gives in place of the usual quantity: the nearest one in the interval. An
exponent that is not positive leaves the usual one. -/
def settle : Quantity → ℚ → ℚ
  | real _, q => q
  | size _, q => max q 0
  | share _, q => max 0 (min 1 q)
  | power x, q => if 0 < q then q else exactValue x
  | count low high _, q => (max (low : Int) (min high (round q)) : Int)

end Quantity

inductive Place where
  | own
  | palette
  deriving DecidableEq, Repr

def Place.bag (bag : Bag) : Place → Bag
  | own => bag
  | palette => bag.palette

/-- A number among the parameters with the keys it may stand under. -/
structure Entry where
  place : Place
  keys : List String
  quantity : Quantity

/-- An entry comes from a bag: without a number under its keys it has its usual value, and otherwise
the value that the first number gives. -/
structure Entry.IsRead (bag : Bag) (f usual : Entry) : Prop where
  kept : (∀ key ∈ usual.keys, (usual.place.bag bag).Lacks key) → f.quantity = usual.quantity
  stored : ∀ x, (usual.place.bag bag).First x usual.keys →
    f.quantity.InRange ∧ f.quantity.value = usual.quantity.settle (exactValue x)

section

variable {bag : Bag} {key : String} {x : Float}

private theorem Bag.number?_of_holds (held : bag.Holds key x) : bag.number? key = some x := by
  unfold number?
  cases held with
  | number held finite => simp [held, finite]
  | text held read finite => simp [held, read, finite]

private theorem Bag.number?_of_lacks (lacking : bag.Lacks key) : bag.number? key = none := by
  unfold number?
  cases lacking with
  | missing none => simp [none]
  | @mistyped v held number text =>
    rw [held]
    cases v with
    | number n => exact absurd rfl (number n)
    | string s => exact absurd rfl (text s)
    | null => rfl
    | bool b => rfl
    | array items => rfl
    | object fields => rfl
  | unreadable held none => simp [held, none]
  | infiniteNumber held infinite => simp [held, infinite]
  | infiniteText held read infinite => simp [held, read, infinite]

private theorem Bag.lacks_or_holds (bag : Bag) (key : String) :
    bag.Lacks key ∨ ∃ x, bag.Holds key x := by
  cases held : bag.get? key with
  | none => exact .inl (.missing held)
  | some v =>
    cases v with
    | number n =>
      cases finite : isFinite n.toFloat with
      | false => exact .inl (.infiniteNumber held finite)
      | true => exact .inr ⟨_, .number held finite⟩
    | string s =>
      cases read : Number.Reader.float? (Text.trim s.toList) with
      | none => exact .inl (.unreadable held read)
      | some x =>
        cases finite : isFinite x with
        | false => exact .inl (.infiniteText held read finite)
        | true => exact .inr ⟨x, .text held read finite⟩
    | null => exact .inl (.mistyped held (fun _ => Json.noConfusion) fun _ => Json.noConfusion)
    | bool b => exact .inl (.mistyped held (fun _ => Json.noConfusion) fun _ => Json.noConfusion)
    | array items =>
      exact .inl (.mistyped held (fun _ => Json.noConfusion) fun _ => Json.noConfusion)
    | object fields =>
      exact .inl (.mistyped held (fun _ => Json.noConfusion) fun _ => Json.noConfusion)

private theorem Bag.Holds.finite (held : bag.Holds key x) : isFinite x = true := by
  cases held with
  | number held finite => exact finite
  | text held read finite => exact finite

private theorem Bag.lack_or_first (bag : Bag) (keys : List String) :
    (∀ key ∈ keys, bag.Lacks key) ∨ ∃ x, bag.First x keys := by
  induction keys with
  | nil => exact .inl (List.forall_mem_nil _)
  | cons key keys rest =>
    rcases bag.lacks_or_holds key with lacking | ⟨x, held⟩
    · rcases rest with none | ⟨x, first⟩
      · exact .inl (List.forall_mem_cons.2 ⟨lacking, none⟩)
      · exact .inr ⟨x, .later lacking first⟩
    · exact .inr ⟨x, .here held⟩

/-- An entry that comes from a bag is in its interval if its usual value is. -/
theorem Entry.IsRead.inRange {f usual : Entry} (h : f.IsRead bag usual)
    (fine : usual.quantity.InRange) : f.quantity.InRange := by
  rcases (usual.place.bag bag).lack_or_first usual.keys with lacking | ⟨x, first⟩
  · rw [h.kept lacking]
    exact fine
  · exact (h.stored x first).1

end

/-! Readings of each kind of quantity. -/

section

variable {bag : Bag} {keys : List String} {key : String} {usual : Float}

private theorem Bag.findSome?_of_lacks (lacking : ∀ key ∈ keys, bag.Lacks key) :
    keys.findSome? bag.number? = none :=
  List.findSome?_eq_none_iff.2 fun key mem => number?_of_lacks (lacking key mem)

private theorem Bag.findSome?_of_first {x : Float} (first : bag.First x keys) :
    keys.findSome? bag.number? = some x ∧ isFinite x = true := by
  induction first with
  | here held => exact ⟨by rw [List.findSome?_cons, number?_of_holds held], held.finite⟩
  | later lacking rest ih => exact ⟨by rw [List.findSome?_cons, number?_of_lacks lacking, ih.1], ih.2⟩

theorem Entry.isRead_first (place : Place) (make : Option Float → Quantity)
    (settles : ∀ x, isFinite x = true →
      (make (some x)).InRange ∧ (make (some x)).value = (make none).settle (exactValue x)) :
    IsRead bag ⟨place, keys, make (keys.findSome? (place.bag bag).number?)⟩
      ⟨place, keys, make none⟩ := by
  refine ⟨fun lacking => ?_, fun x first => ?_⟩
  · rw [Bag.findSome?_of_lacks lacking]
  · obtain ⟨found, finite⟩ := Bag.findSome?_of_first first
    rw [found]
    exact settles x finite

theorem Entry.isRead_single (place : Place) (make : Option Float → Quantity)
    (settles : ∀ x, isFinite x = true →
      (make (some x)).InRange ∧ (make (some x)).value = (make none).settle (exactValue x)) :
    IsRead bag ⟨place, [key], make ((place.bag bag).number? key)⟩ ⟨place, [key], make none⟩ := by
  have single : [key].findSome? (place.bag bag).number? = (place.bag bag).number? key := by
    cases held : (place.bag bag).number? key <;> simp [held]
  rw [← single]
  exact isRead_first place make settles

theorem Entry.isRead_real :
    IsRead bag ⟨.own, [key], .real ((bag.number? key).getD usual)⟩ ⟨.own, [key], .real usual⟩ :=
  isRead_single .own (fun held => .real (held.getD usual)) fun _ finite => ⟨finite, rfl⟩

theorem Entry.isRead_size :
    IsRead bag ⟨.own, [key], .size ((bag.size? key).getD usual)⟩ ⟨.own, [key], .size usual⟩ := by
  refine isRead_single .own
    (fun held => .size ((held.map (Number.larger · 0.0)).getD usual)) fun x finite => ?_
  have zero := Number.isShare_zero.finite
  have value : exactValue (Number.larger x 0.0) = max (exactValue x) 0 := by
    rw [Number.exactValue_larger finite zero, Number.exactValue_zero]
  have larger : isFinite (Number.larger x 0.0) = true := by
    rcases Number.larger_or x 0.0 with same | same
    · rwa [same]
    · rwa [same]
  exact ⟨⟨larger, value ▸ le_max_right _ _⟩, value⟩

theorem Entry.isRead_share :
    IsRead bag ⟨.own, [key], .share ((bag.unit? key).getD usual)⟩ ⟨.own, [key], .share usual⟩ :=
  isRead_single .own (fun held => .share ((held.map (Number.clamp · 0.0 1.0)).getD usual))
    fun _ finite => ⟨Number.isShare_clamp finite, (Number.clamp_unit finite).value⟩

theorem Entry.isRead_power (fine : (Quantity.power usual).InRange) :
    IsRead bag ⟨.own, [key], .power (((bag.number? key).filter (0.0 < ·)).getD usual)⟩
      ⟨.own, [key], .power usual⟩ := by
  refine isRead_single .own
    (fun held => .power ((held.filter (0.0 < ·)).getD usual)) fun x finite => ?_
  have above : 0.0 < x ↔ 0 < exactValue x := by
    rw [Number.lt_iff Number.isShare_zero.finite finite, Number.exactValue_zero]
  by_cases positive : 0 < exactValue x
  · have kept : (some x).filter (fun x => decide (0.0 < x)) = some x := by
      simp [above.2 positive]
    simp only [kept, Option.getD_some, Quantity.settle, if_pos positive]
    exact ⟨⟨finite, positive⟩, rfl⟩
  · have dropped : (some x).filter (fun x => decide (0.0 < x)) = none := by
      simp [mt above.1 positive]
    simp only [dropped, Option.getD_none, Quantity.settle, if_neg positive]
    exact ⟨fine, rfl⟩

theorem Entry.isRead_count (place : Place) {low high : Float} {l h n : Nat} (hl : Exact low l)
    (hh : Exact high h) (ordered : l ≤ h) :
    IsRead bag ⟨place, [key], .count l h (((place.bag bag).count? key low high).getD n)⟩
      ⟨place, [key], .count l h n⟩ := by
  refine isRead_single place (fun held => .count l h ((held.map fun x => Number.Binary.wholePart
    (Number.clamp (Number.Binary.roundHalfAway x) low high)).getD n)) fun x finite => ?_
  have whole := Number.wholePart_clamp_roundHalfAway finite hl hh ordered
  simp only [Option.map_some, Option.getD_some, Quantity.InRange, Quantity.value, Quantity.settle]
  rw [← whole]
  refine ⟨?_, (Int.cast_natCast _).symm⟩
  omega

end

end Texture
