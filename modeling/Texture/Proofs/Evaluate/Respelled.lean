/- Texture/Proofs/Evaluate/Respelled
   digest: A patch of keys that are not read, or of numbers that are only spelled in another way,
   makes no difference to what a graph comes to. -/

import Texture.Evaluate
import Texture.Proofs.Operator.Respelling

set_option autoImplicit false
set_option relaxedAutoImplicit false

namespace Texture

structure Node.Resembles (n m : Node) : Prop where
  id : n.id = m.id
  operator : n.operator = m.operator
  settings : Settings.ofBag n.operator n.bag = Settings.ofBag m.operator m.bag

private theorem Node.Resembles.refl (n : Node) : n.Resembles n := ⟨rfl, rfl, rfl⟩

structure Graph.Resembles (g h : Graph) : Prop where
  nodes : List.Forall₂ Node.Resembles g.nodes h.nodes
  edges : g.edges = h.edges

namespace Graph

variable {g h : Graph}

private theorem find?_resembles {ns ms : List Node} (nodes : List.Forall₂ Node.Resembles ns ms)
    (p : Node → Bool) (blind : ∀ {n m : Node}, n.Resembles m → p n = p m) :
    Option.Rel Node.Resembles (ns.find? p) (ms.find? p) := by
  induction nodes with
  | nil => exact .none
  | @cons n m ns ms first rest ih =>
    rw [List.find?_cons, List.find?_cons, blind first]
    cases p m with
    | true => exact .some first
    | false => exact ih

private theorem modifyNode_resembles {id : String} {change : Node → Node} {ns : List Node}
    (slight : ∀ n, ns.find? (fun n => n.id == id) = some n → n.Resembles (change n)) :
    List.Forall₂ Node.Resembles ns (modifyNode id change ns) := by
  induction ns with
  | nil => exact .nil
  | cons n ns ih =>
    rw [modifyNode]
    by_cases here : n.id = id
    · rw [if_pos here]
      refine .cons (slight n ?_) (List.forall₂_same.mpr fun m _ => .refl m)
      rw [List.find?_cons_of_pos (by simpa using here)]
    · rw [if_neg here]
      refine .cons (.refl n) (ih fun m found => slight m ?_)
      rwa [List.find?_cons_of_neg (by simpa using here)]

private theorem updateBag_resembles {id : String} {patch : Bag}
    (keeps : ∀ n, g.node? id = some n → n.operator.Keeps n.bag patch) :
    g.Resembles (g.updateBag id patch).1 where
  nodes := modifyNode_resembles fun n found =>
    ⟨rfl, rfl, Settings.ofBag_congr (keeps n found).alike⟩
  edges := rfl

namespace Resembles

variable (alike : g.Resembles h)
include alike

private theorem node? (id : String) : Option.Rel Node.Resembles (g.node? id) (h.node? id) :=
  find?_resembles alike.nodes _ fun {n m} same => by rw [same.id]

private theorem producer? (id handle : String) :
    g.index.producer? id handle = h.index.producer? id handle := by
  rw [index_producer?, index_producer?, incoming?, incoming?, alike.edges]

private theorem root? (root : Option String) :
    Option.Rel Node.Resembles (Evaluate.root? g root) (Evaluate.root? h root) := by
  cases root with
  | some id => exact alike.node? id
  | none => exact find?_resembles alike.nodes _ fun {n m} same => by rw [same.operator]

end Resembles

end Graph

namespace Evaluate

variable {g h : Graph}

private theorem gather_index {visit : String → Memo → Work (Artifact × Memo)} {index index' : Index}
    {id : String} (fed : ∀ handle, index.producer? id handle = index'.producer? id handle)
    (handles : List Handle) (inputs : Inputs) (memo : Memo) :
    gather visit index id handles inputs memo = gather visit index' id handles inputs memo := by
  induction handles generalizing inputs memo with
  | nil => rfl
  | cons handle handles ih => simp only [gather, fed, ih]

private theorem visit_resembles (alike : g.Resembles h) (canvas : Canvas) (fuel : Nat)
    (path : List String) (id : String) (memo : Memo) :
    visit g.index canvas fuel path id memo = visit h.index canvas fuel path id memo := by
  induction fuel generalizing path id memo with
  | zero => rfl
  | succ fuel ih =>
    have below : visit g.index canvas fuel (id :: path) = visit h.index canvas fuel (id :: path) :=
      funext₂ fun source memo => ih (id :: path) source memo
    have node := alike.node? id
    simp only [visit, Graph.index_node?, below]
    generalize g.node? id = n? at node ⊢
    generalize h.node? id = m? at node ⊢
    cases node with
    | none => rfl
    | @some n m same =>
      simp only [same.settings]
      simp only [same.operator, gather_index (alike.producer? id)]

private theorem artifact_resembles (alike : g.Resembles h) (canvas : Canvas)
    (root : Option String) : artifact g canvas root = artifact h canvas root := by
  have start := alike.root? root
  rw [artifact, artifact, walk, walk, alike.nodes.length_eq]
  generalize root? g root = n? at start ⊢
  generalize root? h root = m? at start ⊢
  cases start with
  | none => rfl
  | some same => simp only [same.id, visit_resembles alike]

/-- A patch whose values stand under keys that are not read, or spell out the numbers that they
replace, changes neither the artifact nor the fault nor the wishes. Each key of an operator can make
a difference. -/
theorem artifact_respelled :
    (∀ (g : Graph) (id : String) (patch : Bag),
      (∀ n, g.node? id = some n → n.operator.Keeps n.bag patch) →
      ∀ canvas root, artifact (g.updateBag id patch).1 canvas root = artifact g canvas root) ∧
    ∀ (op : Operator) (key : String), key ∈ op.keys ↔
      ∃ bag v, Settings.ofBag op (bag.insert key v) ≠ Settings.ofBag op bag := by
  refine ⟨fun g id patch keeps canvas root => ?_, fun op key => Operator.mem_keys_iff⟩
  exact (artifact_resembles (Graph.updateBag_resembles keeps) canvas root).symm

def blueRamp : Graph :=
  let stop : Bag :=
    [("color", .object [("b", .number (.natural 7))]), ("offset", .number (.natural 1))]
  ⟨[⟨"ramp", .gradient, [("power", .number (.real 2.5)), ("stops", .array [.object stop])]⟩,
    ⟨"out", .output, []⟩], [⟨"1", "ramp", "out", "out", "in"⟩]⟩

def blueTexts : Bag :=
  let stop : Bag := [("color", .object [("b", .string "7.0")]), ("offset", .string "1")]
  [("note", .null), ("power", .string " 25e-1 "), ("stops", .array [.object stop])]

theorem artifact_blueRamp :
    (∀ n, blueRamp.node? "ramp" = some n → n.operator.Keeps n.bag blueTexts) ∧
      artifact (blueRamp.updateBag "ramp" blueTexts).1
          ⟨.standard, fun _ _ => .error (.other "")⟩ none =
        artifact blueRamp ⟨.standard, fun _ _ => .error (.other "")⟩ none := by
  have keeps : ∀ n, blueRamp.node? "ramp" = some n → n.operator.Keeps n.bag blueTexts := by
    intro n found
    obtain rfl := Option.some.inj found
    have channels : Bag.Spells Bag.channelKeys [("b", .number (.natural 7))]
        [("b", .string "7.0")] := by
      refine List.forall_mem_cons.mpr ⟨.none, List.forall_mem_cons.mpr ⟨.none, ?_⟩⟩
      exact List.forall_mem_singleton.mpr (.some (.text (by decide +kernel)))
    have flat : Bag.Spells Bag.channelKeys
        [("color", .object [("b", .number (.natural 7))]), ("offset", .number (.natural 1))]
        [("color", .object [("b", .string "7.0")]), ("offset", .string "1")] :=
      List.forall_mem_cons.mpr ⟨.none, List.forall_mem_cons.mpr ⟨.none,
        List.forall_mem_singleton.mpr .none⟩⟩
    have numbers : Bag.Spells ["offset", "opacity"]
        [("color", .object [("b", .number (.natural 7))]), ("offset", .number (.natural 1))]
        [("color", .object [("b", .string "7.0")]), ("offset", .string "1")] :=
      List.forall_mem_cons.mpr ⟨.some (.text (by decide +kernel)),
        List.forall_mem_singleton.mpr .none⟩
    refine List.forall_mem_cons.mpr ⟨.inl (by decide), List.forall_mem_cons.mpr ⟨.inr ?_,
      List.forall_mem_singleton.mpr (.inr ?_)⟩⟩
    · exact ⟨_, rfl, .number (by decide) (.text (by decide +kernel))⟩
    · have stop : Bag.SpellsStop
          [("color", .object [("b", .number (.natural 7))]), ("offset", .number (.natural 1))]
          [("color", .object [("b", .string "7.0")]), ("offset", .string "1")] :=
        ⟨numbers, flat, .some (.fields channels)⟩
      exact ⟨_, rfl, .stops rfl (.items (.cons (.fields stop) .nil))⟩
  exact ⟨keeps, artifact_respelled.1 blueRamp "ramp" blueTexts keeps _ none⟩

end Evaluate

end Texture
