/- Texture/Proofs/Graph/Stored
   digest: Nodes and edges are read from what is written for them; either shape of a node, with its
   fields in any order, is read as the same node. -/

import Texture.Graph.Stored
import Texture.Proofs.Json.Record

set_option autoImplicit false
set_option relaxedAutoImplicit false

namespace Texture

open Json (Draft Origin Refusal Scalar Shape Slot bind_eq_ok ok_bind)

namespace Operator

private theorem ofStoredName_storedName (op : Operator) : ofStoredName op.storedName = op := by
  cases op <;> decide

end Operator

namespace Node

private theorem innerShape_lawful : innerShape.Lawful where
  names := by decide
  fills := by
    intro slot held origin d s t read
    simp only [innerShape, List.mem_cons, List.not_mem_nil, or_false] at held
    rcases held with rfl | rfl
    all_goals
      obtain ⟨x, -, done⟩ := bind_eq_ok.1 read
      cases done
      rfl
  apart := by
    intro a aHeld b bHeld other origin d s t read
    simp only [innerShape, List.mem_cons, List.not_mem_nil, or_false] at aHeld bHeld
    rcases aHeld with rfl | rfl <;> rcases bHeld with rfl | rfl
    all_goals
      obtain ⟨x, -, done⟩ := bind_eq_ok.1 read
      cases done
      first | rfl | exact absurd rfl other
  commute := by
    intro a aHeld b bHeld other origin d e s t u first second
    simp only [innerShape, List.mem_cons, List.not_mem_nil, or_false] at aHeld bHeld
    rcases aHeld with rfl | rfl <;> rcases bHeld with rfl | rfl
    all_goals
      obtain ⟨x, xRead, done⟩ := bind_eq_ok.1 first
      obtain ⟨y, yRead, ends⟩ := bind_eq_ok.1 second
      cases done
      cases ends
      first
        | exact ⟨_, bind_eq_ok.2 ⟨y, yRead, rfl⟩, bind_eq_ok.2 ⟨x, xRead, rfl⟩⟩
        | exact absurd rfl other

private theorem shape_lawful : shape.Lawful where
  names := by decide
  fills := by
    intro slot held origin d s t read
    simp only [shape, List.mem_cons, List.not_mem_nil, or_false] at held
    rcases held with rfl | rfl | rfl | rfl
    all_goals
      obtain ⟨x, -, done⟩ := bind_eq_ok.1 read
      cases done
      rfl
  apart := by
    intro a aHeld b bHeld other origin d s t read
    simp only [shape, List.mem_cons, List.not_mem_nil, or_false] at aHeld bHeld
    rcases aHeld with rfl | rfl | rfl | rfl <;> rcases bHeld with rfl | rfl | rfl | rfl
    all_goals
      obtain ⟨x, -, done⟩ := bind_eq_ok.1 read
      cases done
      first | rfl | exact absurd rfl other
  commute := by
    intro a aHeld b bHeld other origin d e s t u first second
    simp only [shape, List.mem_cons, List.not_mem_nil, or_false] at aHeld bHeld
    rcases aHeld with rfl | rfl | rfl | rfl <;> rcases bHeld with rfl | rfl | rfl | rfl
    all_goals
      obtain ⟨x, xRead, done⟩ := bind_eq_ok.1 first
      obtain ⟨y, yRead, ends⟩ := bind_eq_ok.1 second
      cases done
      cases ends
      first
        | exact ⟨_, bind_eq_ok.2 ⟨y, yRead, rfl⟩, bind_eq_ok.2 ⟨x, xRead, rfl⟩⟩
        | exact absurd rfl other

theorem toJson_depth (n : Node) : n.toJson.depth = (Json.object n.bag).depth + 1 := by
  simp [toJson, Json.depth, Json.depthOfFields]

private theorem readBag_ofJson {origin : Origin} {bag : Bag} (held : (Json.object bag).IsValue)
    (fits : origin.Allows (Json.object bag).depth) :
    Draft.readBag origin (Draft.ofJson (.object bag)) = .ok bag := by
  obtain ⟨inner, entered, fits⟩ := Origin.allows_succ_iff.1 fits
  have read : Draft.toFields inner (Draft.ofFields bag) [] = .ok bag :=
    Draft.toFields_ofFields (by rw [List.nil_append]; exact held.1) held.2 fits
  simp only [Draft.ofJson, Draft.readBag, entered, ok_bind, read]

private theorem bagSlot_read {origin : Origin} {bag : Bag} (held : (Json.object bag).IsValue)
    (fits : origin.Allows (Json.object bag).depth) (parts : Parts) :
    bagSlot.read origin (Draft.ofJson (.object bag)) parts
      = .ok { parts with bag := some (some bag) } := by
  have read := readBag_ofJson held fits
  simp only [Draft.ofJson] at read ⊢
  simp only [bagSlot, Draft.readOption, read]
  rfl

private theorem operatorSlot_read (origin : Origin) (aliases : List String) (name : String)
    (parts : Parts) :
    (operatorSlot aliases).read origin (.string (.ok name)) parts
      = .ok { parts with operator := some (some (Operator.ofStoredName name)) } := rfl

theorem read_toJson {origin : Origin} {n : Node} (held : (Json.object n.bag).IsValue)
    (fits : origin.Allows n.toJson.depth) : read origin (Draft.ofJson n.toJson) = .ok n := by
  rw [toJson_depth] at fits
  obtain ⟨inner, entered, fits⟩ := Origin.allows_succ_iff.1 fits
  have fields : shape.readFields inner Parts.none (Draft.ofFields
      [("id", .string n.id), ("type", .string n.operator.storedName), ("params", .object n.bag)])
      = .ok ⟨some n.id, some (some n.operator), some (some n.bag), none⟩ := by
    refine Shape.readFields_slot rfl rfl rfl ?_
    refine Shape.readFields_slot rfl rfl (operatorSlot_read _ _ _ _) ?_
    refine Shape.readFields_slot rfl rfl (bagSlot_read held fits _) ?_
    rw [Operator.ofStoredName_storedName]
    rfl
  have whole := Shape.read_object entered fields rfl
  have known : ofParts ⟨some n.id, some (some n.operator), some (some n.bag), none⟩ = n := by
    obtain ⟨id, op, bag⟩ := n
    cases op <;> rfl
  rw [read, toJson, Draft.ofJson, whole]
  exact congrArg Except.ok known

/-- The names that a node gives a meaning, outside and inside its inner part. -/
def outerNames : List String := ["id", "type", "operatorType", "params", "data"]

def innerNames : List String := ["type", "params"]

private theorem slot?_eq_none {name : String} (unknown : name ∉ outerNames) :
    shape.slot? name = none := by
  simp only [outerNames, List.mem_cons, List.not_mem_nil, or_false, not_or] at unknown
  obtain ⟨id, type, operatorType, params, data⟩ := unknown
  simp [Shape.slot?, shape, operatorSlot, bagSlot, Ne.symm id, Ne.symm type, operatorType,
    Ne.symm params, Ne.symm data]

private theorem innerSlot?_eq_none {name : String} (unknown : name ∉ innerNames) :
    innerShape.slot? name = none := by
  simp only [innerNames, List.mem_cons, List.not_mem_nil, or_false, not_or] at unknown
  obtain ⟨type, params⟩ := unknown
  simp [Shape.slot?, innerShape, operatorSlot, bagSlot, Ne.symm type, Ne.symm params]

/-- The form in which an editor keeps a node. -/
theorem read_editor {origin : Origin} {n : Node} {outer : String}
    {fields inside extras others : List (Scalar String × Draft)}
    (known : n.operator ≠ .unknown) (held : (Json.object n.bag).IsValue)
    (fits : origin.Allows (n.toJson.depth + 1))
    (extra : ∀ field ∈ extras, ∃ name ∉ outerNames, field.1 = .ok name)
    (other : ∀ field ∈ others, ∃ name ∉ innerNames, field.1 = .ok name)
    (outside : fields.Perm ((.ok "id", .string (.ok n.id)) :: (.ok "type", .string (.ok outer))
      :: (.ok "data", .object inside) :: extras))
    (within : inside.Perm ((.ok "type", .string (.ok n.operator.storedName))
      :: (.ok "params", Draft.ofJson (.object n.bag)) :: others)) :
    read origin (.object fields) = .ok n := by
  rw [toJson_depth] at fits
  obtain ⟨middle, entered, fits⟩ := Origin.allows_succ_iff.1 fits
  obtain ⟨inner, deeper, fits⟩ := Origin.allows_succ_iff.1 fits
  have parts : innerShape.readFields inner Parts.none inside
      = .ok ⟨none, some (some n.operator), some (some n.bag), none⟩ := by
    refine Shape.readFields_perm innerShape_lawful within.symm ?_
    refine Shape.readFields_slot rfl rfl (operatorSlot_read _ _ _ _) ?_
    refine Shape.readFields_slot rfl rfl (bagSlot_read held fits _) ?_
    rw [Operator.ofStoredName_storedName]
    refine Shape.readFields_extras (fun field mem => ?_) _
    obtain ⟨name, unknown, named⟩ := other field mem
    exact ⟨name, named, innerSlot?_eq_none unknown⟩
  have data : innerShape.read Parts.none middle (.object inside)
      = .ok ⟨none, some (some n.operator), some (some n.bag), none⟩ :=
    Shape.read_object deeper parts rfl
  have present : Draft.readOption (innerShape.read Parts.none middle) (.object inside)
      = .ok (some ⟨none, some (some n.operator), some (some n.bag), none⟩) := by
    simp only [Draft.readOption, data]
    rfl
  have whole : shape.readFields middle Parts.none fields
      = .ok ⟨some n.id, some (some (Operator.ofStoredName outer)), none,
        some (some ⟨none, some (some n.operator), some (some n.bag), none⟩)⟩ := by
    refine Shape.readFields_perm shape_lawful outside.symm ?_
    refine Shape.readFields_slot rfl rfl rfl ?_
    refine Shape.readFields_slot rfl rfl (operatorSlot_read _ _ _ _) ?_
    refine Shape.readFields_slot rfl rfl (bind_eq_ok.2 ⟨_, present, rfl⟩) ?_
    refine Shape.readFields_extras (fun field mem => ?_) _
    obtain ⟨name, unknown, named⟩ := extra field mem
    exact ⟨name, named, slot?_eq_none unknown⟩
  have done := Shape.read_object entered whole rfl
  rw [read, done]
  refine congrArg Except.ok ?_
  obtain ⟨id, op, bag⟩ := n
  cases op <;> first | rfl | exact absurd rfl known

/-- A bag that can be read where so many levels are left. -/
def Fits (origin : Origin) (bag : Bag) : Prop :=
  (Json.object bag).IsValue ∧ origin.Allows (Json.object bag).depth

private theorem fits_of_readBag {origin : Origin} {d : Draft} {bag : Bag} (held : d.InRange)
    (read : d.readBag origin = .ok bag) : Fits origin bag := by
  cases d with
  | object fields =>
    obtain ⟨inner, entered, read⟩ := bind_eq_ok.1 read
    have start : (Json.object []).IsValue := ⟨List.Pairwise.nil, trivial⟩
    obtain ⟨value, fits⟩ := Draft.isValue_of_toFields held start (Origin.allows_zero inner) read
    exact ⟨value, Origin.allows_succ_iff.2 ⟨inner, entered, fits⟩⟩
  | null | bool _ | number _ | string _ | array _ => exact absurd read Draft.refuse_ne_ok

def Parts.BagFits (origin : Origin) (parts : Parts) : Prop :=
  ∀ bag, parts.bag = some (some bag) → Fits origin bag

private theorem bagSlot_fits {origin : Origin} {d : Draft} {s t : Parts} (held : d.InRange)
    (read : bagSlot.read origin d s = .ok t) : t.BagFits origin := by
  obtain ⟨x, one, done⟩ := bind_eq_ok.1 read
  cases done
  intro bag same
  cases same
  exact fits_of_readBag held (Draft.readOption_eq_some one)

private theorem operatorSlot_keeps {origin : Origin} {aliases : List String} {d : Draft}
    {s t : Parts} (read : (operatorSlot aliases).read origin d s = .ok t) :
    t.bag = s.bag ∧ t.inner = s.inner := by
  obtain ⟨x, -, done⟩ := bind_eq_ok.1 read
  cases done
  exact ⟨rfl, rfl⟩

private theorem innerShape_fits {origin : Origin} {d : Draft} {parts : Parts} (held : d.InRange)
    (read : innerShape.read Parts.none origin d = .ok parts) : parts.BagFits origin := by
  refine Shape.read_keeps (P := fun parts => parts.BagFits origin) ?_ held nofun read
  intro inner entered slot inside d s t held start read
  simp only [innerShape, List.mem_cons, List.not_mem_nil, or_false] at inside
  rcases inside with rfl | rfl
  · intro bag same
    exact start bag ((operatorSlot_keeps read).1.symm.trans same)
  · intro bag same
    obtain ⟨value, fits⟩ := bagSlot_fits held read bag same
    exact ⟨value, Origin.allows_of_enter entered fits⟩

theorem fits_of_read {origin inner : Origin} {d : Draft} {n : Node} (held : d.InRange)
    (entered : origin.enter = .ok inner) (room : inner.Allows 1)
    (read : Node.read origin d = .ok n) : Fits inner n.bag := by
  obtain ⟨parts, whole, done⟩ := bind_eq_ok.1 ((map_eq_pure_bind _ _).symm.trans read)
  cases done
  have kept : parts.BagFits inner ∧ ∀ q, parts.inner = some (some q) → q.BagFits inner := by
    refine Shape.read_keeps
      (P := fun parts => parts.BagFits inner ∧ ∀ q, parts.inner = some (some q) → q.BagFits inner)
      ?_ held ⟨nofun, nofun⟩ whole
    intro other again slot inside d s t held start read
    have same : other = inner := by
      rw [entered] at again
      cases again
      rfl
    subst same
    simp only [shape, List.mem_cons, List.not_mem_nil, or_false] at inside
    rcases inside with rfl | rfl | rfl | rfl
    · obtain ⟨x, -, done⟩ := bind_eq_ok.1 read
      cases done
      exact start
    · obtain ⟨bag, inner⟩ := operatorSlot_keeps read
      exact ⟨fun b at_ => start.1 b (bag.symm.trans at_),
        fun q at_ => start.2 q (inner.symm.trans at_)⟩
    · refine ⟨bagSlot_fits held read, ?_⟩
      obtain ⟨x, -, done⟩ := bind_eq_ok.1 read
      cases done
      exact start.2
    · obtain ⟨x, one, done⟩ := bind_eq_ok.1 read
      cases done
      refine ⟨start.1, fun q same => ?_⟩
      cases same
      exact innerShape_fits held (Draft.readOption_eq_some one)
  have empty : Fits inner [] := ⟨⟨List.Pairwise.nil, trivial⟩, room⟩
  obtain ⟨outer, data⟩ := kept
  obtain ⟨id, operator, bag, within⟩ := parts
  rcases within with _ | _ | ⟨_, _, _ | _ | b, _⟩ <;> rcases bag with _ | _ | c
  all_goals
    first
      | exact empty
      | exact outer _ rfl
      | exact data _ rfl _ rfl

end Node

namespace Edge

theorem read_toJson {origin : Origin} (room : origin.Allows 1) (e : Edge) :
    read origin (Draft.ofJson e.toJson) = .ok e := by
  obtain ⟨inner, entered, -⟩ := Origin.allows_succ_iff.1 room
  have fields : shape.readFields inner ⟨none, none, none, none, none⟩ (Draft.ofFields
      [("id", .string e.id), ("source", .string e.source),
        ("sourceHandle", .string e.sourceHandle), ("target", .string e.target),
        ("targetHandle", .string e.targetHandle)])
      = .ok ⟨some e.id, some e.source, some e.sourceHandle, some e.target,
        some e.targetHandle⟩ := by
    refine Shape.readFields_slot rfl rfl rfl ?_
    refine Shape.readFields_slot rfl rfl rfl ?_
    refine Shape.readFields_slot rfl rfl rfl ?_
    refine Shape.readFields_slot rfl rfl rfl ?_
    exact Shape.readFields_slot rfl rfl rfl rfl
  rw [read, toJson, Draft.ofJson, Shape.read_object entered fields rfl]
  rfl

end Edge

end Texture
