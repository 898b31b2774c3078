/- Texture/Proofs/Operator/Respelling
   digest: The keys that an operator reads. Its parameters depend on nothing that is stored
   elsewhere, and on a number only for its value, however it is spelled. -/

import Texture.Proofs.Json.Value
import Texture.Proofs.Operator.Decode

set_option autoImplicit false
set_option relaxedAutoImplicit false

namespace Texture

namespace Operator

def numberKeys (op : Operator) : List String := (Settings.usual op).entries.flatMap Entry.keys

def otherKeys : Operator → List String
  | .gradient => ["stops"]
  | .color => ["color"]
  | .image => ["image"]
  | .fill => ["fillEnabled"]
  | .polar => ["type"]
  | _ => []

def keys (op : Operator) : List String := op.numberKeys ++ op.otherKeys

end Operator

/-- A value is kept, or a number is spelled in a text, perhaps with blanks around it. -/
inductive Json.Spells : Json → Json → Prop
  | same (v : Json) : Spells v v
  | text {n : Json.Numeral} {s : String}
      (read : Number.Reader.float? (Text.trim s.toList) = some n.toFloat) :
      Spells (.number n) (.string s)

inductive Json.Object (change : Bag → Bag → Prop) : Json → Json → Prop
  | same (v : Json) : Object change v v
  | fields {fields fields' : Bag} (changed : change fields fields') :
      Object change (.object fields) (.object fields')

namespace Bag

def Spells (keys : List String) (bag bag' : Bag) : Prop :=
  ∀ key ∈ keys, Option.Rel Json.Spells (bag.get? key) (bag'.get? key)

def channelKeys : List String := ["r", "g", "b"]

/-- Channels of a colour are spelled in texts, in the bag itself or in an object of their own. -/
structure SpellsColor (bag bag' : Bag) : Prop where
  flat : Spells channelKeys bag bag'
  nested : Option.Rel (Json.Object (Spells channelKeys)) (bag.get? "color") (bag'.get? "color")

structure SpellsStop (bag bag' : Bag) : Prop where
  numbers : Spells ["offset", "opacity"] bag bag'
  color : SpellsColor bag bag'

end Bag

inductive Json.SpellsStops : Json → Json → Prop
  | same (v : Json) : SpellsStops v v
  | items {items items' : List Json}
      (stops : List.Forall₂ (Json.Object Bag.SpellsStop) items items') :
      SpellsStops (.array items) (.array items')

/-- What stands under a key of an operator is kept, or numbers in it are spelled in texts. -/
inductive Operator.Respells (op : Operator) (key : String) (v w : Json) : Prop
  | same (kept : v = w)
  | number (numeric : key ∈ op.numberKeys) (spells : v.Spells w)
  | color (nested : key = "color") (channels : v.Object (Bag.Spells Bag.channelKeys) w)
  | stops (list : key = "stops") (stops : v.SpellsStops w)

/-- Under all keys that an operator reads, numbers are spelled in texts or nothing is changed. -/
def Operator.Alike (op : Operator) (bag bag' : Bag) : Prop :=
  ∀ key ∈ op.keys, Option.Rel (op.Respells key) (bag.get? key) (bag'.get? key)

section

variable {bag bag' : Bag} {key : String}

private theorem Bag.rel_refl {R : Json → Json → Prop} (refl : ∀ v, R v v) (bag : Bag)
    (key : String) : Option.Rel R (bag.get? key) (bag.get? key) := by
  cases bag.get? key with
  | none => exact .none
  | some v => exact .some (refl v)

private theorem Bag.number?_congr (h : Option.Rel Json.Spells (bag.get? key) (bag'.get? key)) :
    bag.number? key = bag'.number? key := by
  unfold number?
  generalize bag.get? key = v at h ⊢
  generalize bag'.get? key = w at h ⊢
  cases h with
  | none => rfl
  | some spells =>
    cases spells with
    | same => rfl
    | text read => simp [read]

private theorem Bag.Spells.count?_eq {keys : List String} (h : Spells keys bag bag')
    (mem : key ∈ keys) (low high : Float) : bag.count? key low high = bag'.count? key low high := by
  rw [count?, count?, number?_congr (h key mem)]

private theorem Bag.Spells.unit?_eq {keys : List String} (h : Spells keys bag bag')
    (mem : key ∈ keys) : bag.unit? key = bag'.unit? key := by
  rw [unit?, unit?, number?_congr (h key mem)]

private theorem Bag.SpellsColor.palette (h : SpellsColor bag bag') :
    Spells channelKeys bag.palette bag'.palette := by
  obtain ⟨flat, nested⟩ := h
  unfold Bag.palette
  generalize bag.get? "color" = v at nested ⊢
  generalize bag'.get? "color" = w at nested ⊢
  cases nested with
  | none => exact flat
  | @some v w object =>
    cases object with
    | fields changed => exact changed
    | same =>
      cases fields : Json.fields? v with
      | none => simpa [fields] using flat
      | some inner =>
        intro key mem
        simp only [Option.bind_some, fields, Option.getD_some]
        exact rel_refl Json.Spells.same inner key

private theorem Bag.SpellsColor.color_eq (h : SpellsColor bag bag') : bag.color = bag'.color := by
  have level : ∀ key ∈ channelKeys,
      bag.palette.count? key 0.0 255.0 = bag'.palette.count? key 0.0 255.0 :=
    fun key mem => h.palette.count?_eq mem 0.0 255.0
  have parts : ∀ bag : Bag, bag.color =
      ⟨UInt8.ofNat ((bag.palette.count? "r" 0.0 255.0).getD 255),
        UInt8.ofNat ((bag.palette.count? "g" 0.0 255.0).getD 255),
        UInt8.ofNat ((bag.palette.count? "b" 0.0 255.0).getD 255)⟩ := fun _ => rfl
  rw [parts, parts, level "r" (by decide), level "g" (by decide), level "b" (by decide)]

private theorem Bag.SpellsStop.stopOfBag_eq (h : SpellsStop bag bag') :
    Gradient.stopOfBag bag = Gradient.stopOfBag bag' := by
  obtain ⟨numbers, color⟩ := h
  rw [Gradient.stopOfBag, Gradient.stopOfBag, numbers.unit?_eq (by decide),
    numbers.unit?_eq (by decide), color.color_eq]

private theorem Bag.stops_congr
    (h : Option.Rel Json.SpellsStops (bag.get? "stops") (bag'.get? "stops")) :
    Gradient.stopsOfBag bag = Gradient.stopsOfBag bag' := by
  unfold Gradient.stopsOfBag
  generalize bag.get? "stops" = v at h ⊢
  generalize bag'.get? "stops" = w at h ⊢
  cases h with
  | none => rfl
  | some spells =>
    cases spells with
    | same => rfl
    | items stops =>
      simp only
      induction stops with
      | nil => rfl
      | @cons v w items items' object rest ih =>
        cases object with
        | same => cases fields : Json.fields? v <;> simp [fields, ih]
        | fields changed => simp [Json.fields?, ih, changed.stopOfBag_eq]

end

namespace Operator

variable {op : Operator} {bag bag' : Bag} {key : String}

private theorem numberKeys_scalar (op : Operator) :
    "color" ∉ op.numberKeys ∧ "stops" ∉ op.numberKeys := by
  cases op <;> decide

namespace Respells

variable {v w : Json}

private theorem spells (h : op.Respells key v w) (numeric : key ∈ op.numberKeys) : v.Spells w := by
  cases h with
  | same kept => exact kept ▸ .same v
  | number numeric spells => exact spells
  | color nested channels => exact absurd (nested ▸ numeric) op.numberKeys_scalar.1
  | stops list stops => exact absurd (list ▸ numeric) op.numberKeys_scalar.2

private theorem channels (h : op.Respells "color" v w) :
    v.Object (Bag.Spells Bag.channelKeys) w := by
  cases h with
  | same kept => exact kept ▸ .same v
  | number numeric spells => exact absurd numeric op.numberKeys_scalar.1
  | color nested channels => exact channels
  | stops list stops => exact absurd list (by decide)

private theorem stopList (h : op.Respells "stops" v w) : v.SpellsStops w := by
  cases h with
  | same kept => exact kept ▸ .same v
  | number numeric spells => exact absurd numeric op.numberKeys_scalar.2
  | color nested channels => exact absurd nested (by decide)
  | stops list stops => exact stops

private theorem eq (h : op.Respells key v w)
    (plain : key ∉ op.numberKeys ∧ key ≠ "color" ∧ key ≠ "stops") : v = w := by
  cases h with
  | same kept => exact kept
  | number numeric spells => exact absurd numeric plain.1
  | color nested channels => exact absurd nested plain.2.1
  | stops list stops => exact absurd list plain.2.2

end Respells

namespace Alike

private theorem refl (op : Operator) (bag : Bag) : op.Alike bag bag :=
  fun key _ => bag.rel_refl (fun _ => .same rfl) key

variable (h : op.Alike bag bag')
include h

private theorem rel {R : Json → Json → Prop} (mem : key ∈ op.keys)
    (use : ∀ {v w}, op.Respells key v w → R v w) :
    Option.Rel R (bag.get? key) (bag'.get? key) := by
  have under := h key mem
  generalize bag.get? key = v at under ⊢
  generalize bag'.get? key = w at under ⊢
  cases under with
  | none => exact .none
  | some respells => exact .some (use respells)

private theorem spells (numeric : key ∈ op.numberKeys) :
    Option.Rel Json.Spells (bag.get? key) (bag'.get? key) :=
  h.rel (List.mem_append_left _ numeric) fun respells => respells.spells numeric

private theorem get?_eq (mem : key ∈ op.keys)
    (plain : key ∉ op.numberKeys ∧ key ≠ "color" ∧ key ≠ "stops") :
    bag.get? key = bag'.get? key := by
  have same := h.rel mem fun respells => respells.eq plain
  generalize bag.get? key = v at same ⊢
  generalize bag'.get? key = w at same ⊢
  cases same with
  | none => rfl
  | some same => rw [same]

end Alike

end Operator

namespace Settings

variable {op : Operator} {bag bag' : Bag}

/-- The parameters of an operator depend only on what it reads, and on its numbers only for their
values. -/
theorem ofBag_congr (h : op.Alike bag bag') : ofBag op bag = ofBag op bag' := by
  have number : ∀ key ∈ op.numberKeys, bag.number? key = bag'.number? key :=
    fun _ numeric => Bag.number?_congr (h.spells numeric)
  cases op with
  | gradient =>
    have stops : Gradient.stopsOfBag bag = Gradient.stopsOfBag bag' :=
      Bag.stops_congr (h.rel (by decide) fun respells => respells.stopList)
    simp (disch := decide) only [ofBag, Gradient.ofBag, stops, number]
  | color =>
    have color : bag.SpellsColor bag' :=
      ⟨fun key mem => h.spells (List.mem_append_right ["opacity", "a"] mem),
        h.rel (by decide) fun respells => respells.channels⟩
    simp (disch := decide) only [ofBag, color.color_eq, Bag.unit?, number]
  | image =>
    have payload : bag.get? "image" = bag'.get? "image" := h.get?_eq (by decide) (by decide)
    simp only [ofBag, Bag.text?, payload]
  | fill =>
    have enabled : bag.get? "fillEnabled" = bag'.get? "fillEnabled" :=
      h.get?_eq (by decide) (by decide)
    simp (disch := decide) only [ofBag, Bag.switch?, enabled, Bag.size?, number]
  | polar =>
    have mode : bag.get? "type" = bag'.get? "type" := h.get?_eq (by decide) (by decide)
    simp (disch := decide) only [ofBag, PolarSettings.ofBag, Bag.text?, mode, number]
  | _ =>
    simp (disch := decide) only [ofBag, GlowSettings.ofBag, Bag.size?, Bag.unit?, Bag.count?,
      number]

end Settings

/-- Every value of a patch stands under a key that is not read, or spells out numbers of the value
it replaces. -/
def Operator.Keeps (op : Operator) (bag patch : Bag) : Prop :=
  ∀ field ∈ patch, field.1 ∉ op.keys ∨ ∃ old, bag.get? field.1 = some old ∧
    op.Respells field.1 old field.2

theorem Operator.Keeps.alike {op : Operator} {bag patch : Bag} (keeps : op.Keeps bag patch) :
    op.Alike bag (bag.merge patch) := by
  suffices all : ∀ current, op.Alike bag current → op.Alike bag (current.merge patch) from
    all bag (.refl op bag)
  induction patch with
  | nil => exact fun current alike => alike
  | cons field patch ih =>
    obtain ⟨first, rest⟩ := List.forall_mem_cons.mp keeps
    intro current alike
    refine ih rest (current.insert field.1 field.2) fun key mem => ?_
    rw [Bag.get?_insert]
    by_cases here : key = field.1
    · subst here
      rw [if_pos rfl]
      rcases first with unread | ⟨old, held, respells⟩
      · exact absurd mem unread
      · rw [held]
        exact .some respells
    · rw [if_neg here]
      exact alike key mem

deriving instance DecidableEq for GradientStop, Gradient, RectangleSettings, CircleSettings,
  PolygonSettings, WavyRingSettings, BeamSettings, ColorSettings, FillSettings, GlowSettings,
  StrokeSettings, FadeSettings, TranslateSettings, PolarSettings, Settings

namespace Operator

/-- A value that is never the usual one under a key. -/
def unusual : String → Json
  | "fillEnabled" => .bool false
  | "type" => .string "ring"
  | "image" => .string "payload"
  | "color" => .object [("r", .number (.natural 0))]
  | "stops" => .array [.object []]
  | _ => .number (.real 0.25)

private theorem length_stops_ofBag (bag : Bag) : (Gradient.ofBag bag).stops.length =
    if (Gradient.stopsOfBag bag).isEmpty then 2 else (Gradient.stopsOfBag bag).length := by
  unfold Gradient.ofBag
  simp only
  split
  · exact List.length_mergeSort _
  · exact List.length_mergeSort _

private theorem ofBag_unusual (op : Operator) : ∀ key ∈ op.keys,
    Settings.ofBag op (Bag.insert key (unusual key) []) ≠ Settings.ofBag op [] := by
  cases op with
  | gradient =>
    -- Sorting the stops cannot be evaluated, but it keeps their number.
    intro key mem same
    have same := Settings.gradient.inj same
    have keys : key ∈ ["directionX", "directionY", "power", "stops"] := mem
    simp only [List.mem_cons, List.not_mem_nil, or_false] at keys
    rcases keys with rfl | rfl | rfl | rfl
    · exact absurd (congrArg Gradient.directionX same) (by decide +kernel)
    · exact absurd (congrArg Gradient.directionY same) (by decide +kernel)
    · exact absurd (congrArg Gradient.power same) (by decide +kernel)
    · have length := congrArg (fun g => g.stops.length) same
      simp only [length_stops_ofBag] at length
      exact absurd length (by decide +kernel)
  | _ => decide +kernel

/-- The keys that an operator reads are those under which a value can make a difference. -/
theorem mem_keys_iff {op : Operator} {key : String} :
    key ∈ op.keys ↔ ∃ bag v, Settings.ofBag op (bag.insert key v) ≠ Settings.ofBag op bag := by
  constructor
  · exact fun mem => ⟨[], unusual key, op.ofBag_unusual key mem⟩
  · rintro ⟨bag, v, differ⟩
    by_contra unread
    have keeps : op.Keeps bag [(key, v)] := List.forall_mem_singleton.mpr (.inl unread)
    exact differ (Settings.ofBag_congr keeps.alike).symm

end Operator

end Texture
