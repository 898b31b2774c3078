/- Texture/Json/Reading
   digest: Reading trees as values, texts, numbers, sequences and records; the first reason in the
   order of the text to refuse one decides. -/

import Texture.Json.Draft

set_option autoImplicit false
set_option relaxedAutoImplicit false

namespace Texture.Json

/-- Where a tree comes from: a text, of which so many levels may still be entered, or a value. -/
inductive Origin where
  | text (levels : Nat)
  | value
  deriving DecidableEq

namespace Origin

def wholeText : Origin := text 128

def enter : Origin → Except Refusal Origin
  | text levels => if levels ≤ 1 then .error .tooDeep else .ok (text (levels - 1))
  | value => .ok value

end Origin

namespace Draft

/-- What a tree is when something else was expected. -/
def found : Draft → Except Refusal Found
  | null => .ok .null
  | bool b => .ok (.bool b)
  | number n => n.map fun
    | .natural n => .natural n
    | .negative n => .negative n
    | .real x => .real x
  | string s => s.map .string
  | array _ => .ok .sequence
  | object _ => .ok .map

def refuse {α : Type} (expected : String) (d : Draft) : Except Refusal α := do
  .error (.wrongType (← d.found) expected)

def readString : Draft → Except Refusal String
  | string s => s
  | d => d.refuse "a string"

def readCount (d : Draft) : Except Refusal Nat :=
  match d with
  | number (.ok (.natural n)) =>
    if n < 4294967296 then .ok n else .error (.wrongValue (.natural n) "u32")
  | number (.ok (.negative n)) => .error (.wrongValue (.negative n) "u32")
  | d => d.refuse "u32"

def readOption {α : Type} (read : Draft → Except Refusal α) : Draft → Except Refusal (Option α)
  | null => .ok none
  | d => some <$> read d

def readList {α : Type} (read : Origin → Draft → Except Refusal α) (origin : Origin) :
    Draft → Except Refusal (List α)
  | array items => do
    let inner ← origin.enter
    items.mapM (read inner)
  | d => d.refuse "a sequence"

mutual

def toJson (origin : Origin) : Draft → Except Refusal Json
  | null => .ok .null
  | bool b => .ok (.bool b)
  | number n => n.map .number
  | string s => s.map .string
  | array items => do
    let inner ← origin.enter
    return .array (← toItems inner items)
  | object fields => do
    let inner ← origin.enter
    return .object (← toFields inner fields [])

def toItems (origin : Origin) : List Draft → Except Refusal (List Json)
  | [] => .ok []
  | d :: ds => do
    let x ← toJson origin d
    return x :: (← toItems origin ds)

def toFields (origin : Origin) : List (Scalar String × Draft) → Bag → Except Refusal Bag
  | [], bag => .ok bag
  | (key, d) :: rest, bag => do
    let name ← key
    let x ← toJson origin d
    toFields origin rest (bag.insert name x)

end

def readBag (origin : Origin) : Draft → Except Refusal Bag
  | object fields => do
    let inner ← origin.enter
    toFields inner fields []
  | d => d.refuse "a map"

end Draft

/-- A field of a record that is read into a state. -/
structure Slot (σ : Type) where
  name : String
  /-- Other names under which the field may stand. -/
  aliases : List String
  /-- Whether the field may be missing. -/
  optional : Bool
  filled : σ → Bool
  read : Origin → Draft → σ → Except Refusal σ

/-- A record: what it is called, and its fields in order. -/
structure Shape (σ : Type) where
  name : String
  slots : List (Slot σ)

namespace Shape

variable {σ : Type}

def slot? (shape : Shape σ) (name : String) : Option (Slot σ) :=
  shape.slots.find? fun slot => slot.name == name || slot.aliases.contains name

/-- Reads named fields in their order; a name without a field is passed over. -/
def readFields (shape : Shape σ) (origin : Origin) (state : σ) :
    List (Scalar String × Draft) → Except Refusal σ
  | [] => .ok state
  | (key, d) :: rest => do
    let name ← key
    match shape.slot? name with
    | none => readFields shape origin state rest
    | some slot =>
      if slot.filled state then .error (.repeated slot.name)
      else readFields shape origin (← slot.read origin d state) rest

/-- Reads the items of a sequence into the fields in their order. A sequence that is too short
counts as ending before the first field that it must have. -/
def readItems (shape : Shape σ) (origin : Origin) (total : Nat) :
    Nat → List (Slot σ) → List Draft → σ → Except Refusal σ
  | _, [], [], state => .ok state
  | _, [], _ :: _, _ =>
    match origin with
    | .text _ => .error .trailing
    | .value => .error (.wrongLength total "fewer elements in array")
  | count, slot :: slots, [], state =>
    if slot.optional then readItems shape origin total (count + 1) slots [] state
    else
      .error (.wrongLength count
        (shape.name ++ " with " ++ toString shape.slots.length ++ " elements"))
  | count, slot :: slots, d :: ds, state => do
    readItems shape origin total (count + 1) slots ds (← slot.read origin d state)

def read (shape : Shape σ) (start : σ) (origin : Origin) : Draft → Except Refusal σ
  | .object fields => do
    let inner ← origin.enter
    let state ← readFields shape inner start fields
    match shape.slots.find? fun slot => !slot.optional && !slot.filled state with
    | some slot => .error (.missing slot.name)
    | none => .ok state
  | .array items => do
    let inner ← origin.enter
    readItems shape inner items.length 0 shape.slots items start
  | d => d.refuse shape.name

end Shape

/-- The value of a whole text; none if it is not well formed. -/
def ofText? (text : String) : Option (Except Refusal Json) :=
  (Draft.ofText? text).map (Draft.toJson Origin.wholeText)

end Texture.Json
