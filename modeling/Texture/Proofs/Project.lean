/- Texture/Proofs/Project
   digest: A project is read again from what is written for it, and a text that was accepted is
   settled by writing it once. -/

import Texture.Project
import Texture.Proofs.Graph.Stored
import Texture.Proofs.Json.Written

set_option autoImplicit false
set_option relaxedAutoImplicit false

namespace Texture

open Json (Draft Origin Refusal Scalar Shape Slot Numeral bind_eq_ok ok_bind)

namespace Project

private theorem readResolution_pixels (r : Resolution) :
    readResolution (.number (.ok (.natural r.pixels))) = .ok r := by
  obtain ⟨pixels, positive, bounded⟩ := r
  have small : pixels < 4294967296 := lt_of_le_of_lt bounded (by decide)
  simp [readResolution, Draft.readCount, small, ok_bind, Resolution.ofPixels, positive, bounded]

private theorem ofItems_map {α : Type} (write : α → Json) (xs : List α) :
    Draft.ofItems (xs.map write) = xs.map fun x => Draft.ofJson (write x) := by
  induction xs with
  | nil => rfl
  | cons x xs ih => simp [Draft.ofItems, ih]

private theorem readList_map {α : Type} {read : Origin → Draft → Except Refusal α}
    {write : α → Json} {origin inner : Origin} {xs : List α} (entered : origin.enter = .ok inner)
    (each : ∀ x ∈ xs, read inner (Draft.ofJson (write x)) = .ok x) :
    (Draft.ofJson (.array (xs.map write))).readList read origin = .ok xs := by
  rw [Draft.ofJson, ofItems_map]
  refine Draft.readList_array entered (List.forall₂_map_left_iff.2 ?_)
  exact List.forall₂_same.2 each

private theorem toJson_depth (p : Project) :
    p.toJson.depth = max (Json.depthOfItems (p.graph.nodes.map Node.toJson) + 1)
      (Json.depthOfItems (p.graph.edges.map Edge.toJson) + 1) + 1 := by
  simp [toJson, Json.depth, Json.depthOfFields]

private theorem read_toJson {origin : Origin} {p : Project}
    (held : ∀ n ∈ p.graph.nodes, (Json.object n.bag).IsValue)
    (fits : origin.Allows p.toJson.depth) : read origin (Draft.ofJson p.toJson) = .ok p := by
  rw [toJson_depth] at fits
  obtain ⟨middle, entered, fits⟩ := Origin.allows_succ_iff.1 fits
  obtain ⟨nodeFits, edgeFits⟩ := Origin.allows_max.1 fits
  obtain ⟨inner, deeper, nodeFits⟩ := Origin.allows_succ_iff.1 nodeFits
  obtain ⟨other, again, edgeFits⟩ := Origin.allows_succ_iff.1 edgeFits
  have nodes : (Draft.ofJson (.array (p.graph.nodes.map Node.toJson))).readList Node.read middle
      = .ok p.graph.nodes := by
    refine readList_map deeper fun n inside => Node.read_toJson (held n inside) (nodeFits.mono ?_)
    exact Json.depthOfItems_le_iff.1 le_rfl _ (List.mem_map_of_mem inside)
  have edges : (Draft.ofJson (.array (p.graph.edges.map Edge.toJson))).readList Edge.read middle
      = .ok p.graph.edges := by
    refine readList_map again fun e inside => Edge.read_toJson (edgeFits.mono ?_) e
    have depth : e.toJson.depth = 1 := rfl
    rw [← depth]
    exact Json.depthOfItems_le_iff.1 le_rfl _ (List.mem_map_of_mem inside)
  have fields : shape.readFields middle ⟨none, none, none, none⟩ (Draft.ofFields
      [("name", .string p.name), ("resolution", .number (.natural p.resolution.pixels)),
        ("nodes", .array (p.graph.nodes.map Node.toJson)),
        ("edges", .array (p.graph.edges.map Edge.toJson))])
      = .ok ⟨some p.name, some p.resolution, some p.graph.nodes, some p.graph.edges⟩ := by
    refine Shape.readFields_slot rfl rfl rfl ?_
    refine Shape.readFields_slot rfl rfl
      (bind_eq_ok.2 ⟨_, readResolution_pixels p.resolution, rfl⟩) ?_
    refine Shape.readFields_slot rfl rfl (bind_eq_ok.2 ⟨_, nodes, rfl⟩) ?_
    exact Shape.readFields_slot rfl rfl (bind_eq_ok.2 ⟨_, edges, rfl⟩) rfl
  rw [read, toJson, Draft.ofJson, Shape.read_object entered fields rfl]
  rfl

private theorem eachNumber_toJson {P : Numeral → Prop} {p : Project}
    (whole : P (.natural p.resolution.pixels))
    (bags : ∀ n ∈ p.graph.nodes, (Json.object n.bag).EachNumber P) : p.toJson.EachNumber P := by
  have nodes : Json.EachOfItems P (p.graph.nodes.map Node.toJson) := by
    refine Json.eachOfItems_iff.2 fun x inside => ?_
    obtain ⟨n, held, rfl⟩ := List.mem_map.1 inside
    exact ⟨trivial, trivial, bags n held, trivial⟩
  have edges : Json.EachOfItems P (p.graph.edges.map Edge.toJson) := by
    refine Json.eachOfItems_iff.2 fun x inside => ?_
    obtain ⟨e, -, rfl⟩ := List.mem_map.1 inside
    exact ⟨trivial, trivial, trivial, trivial, trivial, trivial⟩
  exact ⟨trivial, whole, nodes, edges, trivial⟩

private theorem ofText_toText {p : Project}
    (held : ∀ n ∈ p.graph.nodes, (Json.object n.bag).IsValue)
    (exact : ∀ n ∈ p.graph.nodes, (Json.object n.bag).EachNumber Numeral.RealReadsBack)
    (fits : p.toJson.depth ≤ 127) : ofText p.toText = .ok p := by
  have small : p.resolution.pixels ≤ Json.Lexeme.limit := p.resolution.bounded.trans (by decide)
  have numbers : p.toJson.EachNumber Numeral.ReadsBack :=
    eachNumber_toJson (Numeral.readsBack_natural small) fun n inside =>
      Json.eachNumber_readsBack (.object n.bag) (held n inside) (exact n inside)
  have written : Draft.ofText? p.toText = some (Draft.ofJson p.toJson) :=
    Draft.ofText?_pretty numbers
  have done : read Origin.wholeText (Draft.ofJson p.toJson) = .ok p := read_toJson held fits
  simp only [ofText, written, done]
  rfl

private theorem fits_of_read {d : Draft} {p : Project} (held : d.InRange)
    (done : read Origin.wholeText d = .ok p) :
    ∀ n ∈ p.graph.nodes, Node.Fits (.text 125) n.bag := by
  obtain ⟨parts, whole, done⟩ := bind_eq_ok.1 done
  cases done
  have kept : ∀ nodes, parts.nodes = some nodes → ∀ n ∈ nodes, Node.Fits (.text 125) n.bag := by
    refine Shape.read_keeps
      (P := fun parts => ∀ nodes, parts.nodes = some nodes → ∀ n ∈ nodes,
        Node.Fits (.text 125) n.bag) ?_ held nofun whole
    intro inner entered slot inside d s t held start one
    cases entered
    simp only [shape, List.mem_cons, List.not_mem_nil, or_false] at inside
    rcases inside with rfl | rfl | rfl | rfl
    all_goals
      obtain ⟨x, found, done⟩ := bind_eq_ok.1 one
      cases done
    · exact start
    · exact start
    · intro nodes same n inside
      cases same
      obtain ⟨inner, entered, each⟩ := Draft.of_readList held found
      cases entered
      obtain ⟨e, ranged, read⟩ := each n inside
      exact Node.fits_of_read ranged rfl (by decide) read
    · exact start
  intro n inside
  obtain ⟨name, resolution, nodes, edges⟩ := parts
  cases nodes with
  | none => cases inside
  | some nodes => exact kept nodes rfl n inside

private theorem depth_le_of_fits {p : Project}
    (fits : ∀ n ∈ p.graph.nodes, Node.Fits (.text 125) n.bag) : p.toJson.depth ≤ 127 := by
  have nodes : Json.depthOfItems (p.graph.nodes.map Node.toJson) ≤ 125 := by
    refine Json.depthOfItems_le_iff.2 fun x inside => ?_
    obtain ⟨n, held, rfl⟩ := List.mem_map.1 inside
    have deep : (Json.object n.bag).depth ≤ 124 := (fits n held).2
    rw [Node.toJson_depth]
    omega
  have edges : Json.depthOfItems (p.graph.edges.map Edge.toJson) ≤ 125 := by
    refine Json.depthOfItems_le_iff.2 fun x inside => ?_
    obtain ⟨e, -, rfl⟩ := List.mem_map.1 inside
    have flat : e.toJson.depth = 1 := rfl
    omega
  rw [toJson_depth]
  omega

private theorem ofText_settled {text : String} {p : Project} (accepted : ofText text = .ok p)
    (exact : ∀ n ∈ p.graph.nodes, (Json.object n.bag).EachNumber Numeral.RealReadsBack) :
    ofText p.toText = .ok p := by
  unfold ofText at accepted
  split at accepted
  · cases accepted
  · rename_i d parsed
    have done : read Origin.wholeText d = .ok p := by
      cases result : read Origin.wholeText d with
      | error reason =>
        rw [result] at accepted
        cases accepted
      | ok q =>
        rw [result] at accepted
        cases accepted
        rfl
    have fits := fits_of_read (Draft.ofText?_inRange parsed) done
    exact ofText_toText (fun n inside => (fits n inside).1) exact (depth_le_of_fits fits)

/-- Projects survive saving. The tree of what is written is read as the project wherever its levels
can be entered, in a value in any case. The written text is read as the project unless it is nested
too deeply or spells a float inexactly, and for a project that came from a text the depth is never the
reason. The editor's form of a node is read as its flat form. -/
theorem survives_saving :
    (∀ (p : Project) (origin : Origin), (∀ n ∈ p.graph.nodes, (Json.object n.bag).IsValue) →
      origin.Allows p.toJson.depth → read origin (Draft.ofJson p.toJson) = .ok p) ∧
    (∀ p : Project, (∀ n ∈ p.graph.nodes, (Json.object n.bag).IsValue) →
      (∀ n ∈ p.graph.nodes, (Json.object n.bag).EachNumber Numeral.RealReadsBack) →
      p.toJson.depth ≤ 127 → ofText p.toText = .ok p) ∧
    (∀ (text : String) (p : Project), ofText text = .ok p →
      (∀ n ∈ p.graph.nodes, (Json.object n.bag).EachNumber Numeral.RealReadsBack) →
      ofText p.toText = .ok p) ∧
    ∀ (origin : Origin) (n : Node) (outer : String)
      (fields inside extras others : List (Scalar String × Draft)),
      n.operator ≠ .unknown → (Json.object n.bag).IsValue →
      origin.Allows (n.toJson.depth + 1) →
      (∀ field ∈ extras, ∃ name ∉ Node.outerNames, field.1 = .ok name) →
      (∀ field ∈ others, ∃ name ∉ Node.innerNames, field.1 = .ok name) →
      fields.Perm ((.ok "id", .string (.ok n.id)) :: (.ok "type", .string (.ok outer))
        :: (.ok "data", .object inside) :: extras) →
      inside.Perm ((.ok "type", .string (.ok n.operator.storedName))
        :: (.ok "params", Draft.ofJson (.object n.bag)) :: others) →
      Node.read origin (.object fields) = .ok n
        ∧ Node.read origin (Draft.ofJson n.toJson) = .ok n := by
  refine ⟨fun p origin held fits => read_toJson held fits,
    fun p held exact fits => ofText_toText held exact fits,
    fun text p accepted exact => ofText_settled accepted exact, ?_⟩
  intro origin n outer fields inside extras others known held fits extra other outside within
  exact ⟨Node.read_editor known held fits extra other outside within,
    Node.read_toJson held (fits.mono (Nat.le_succ _))⟩

/-- A text with both forms of a node and with other spellings. -/
def sketchText : String :=
  "\x7b\"nodes\":[\x7b\"id\":\"a\",\"position\":[],\"data\":\x7b\"type\":\"RECTANGLE\"\x7d,\"type\":\"base\"\x7d,"
    ++ "\x7b\"id\":\"b\",\"operatorType\":\"BLUR\",\"params\":null\x7d],"
    ++ "\"edges\":[\x7b\"sourceNodeId\":\"a\",\"target\":\"b\",\"sourceHandle\":null\x7d]\x7d"

def sketch : Project :=
  ⟨defaultName, Resolution.standard, ⟨[⟨"a", .rectangle, []⟩, ⟨"b", .unknown, []⟩],
    [⟨"", "a", "out", "b", "in"⟩]⟩⟩

set_option maxRecDepth 4000 in
private theorem ofText_sketchText : ofText sketchText = .ok sketch := by rfl

def drawing : Project :=
  ⟨"Ring", Resolution.standard,
    ⟨[⟨"a", .circle, [("radius", .number (.real 1.5)),
      ("style", .object [("dash", .array [.number (.natural 3), .null]), ("name", .string "\n")])]⟩],
      []⟩⟩

theorem drawing_survives :
    read .value (Draft.ofJson drawing.toJson) = .ok drawing
      ∧ ofText drawing.toText = .ok drawing
      ∧ (ofText sketchText = .ok sketch ∧ ofText sketch.toText = .ok sketch)
      ∧ Node.read .wholeText (.object [(.ok "position", .null),
          (.ok "data", .object [(.ok "label", .null), (.ok "params", .object []),
            (.ok "type", .string (.ok "GLOW"))]),
          (.ok "type", .string (.ok "custom")), (.ok "id", .string (.ok "g"))])
        = .ok ⟨"g", .glow, []⟩ := by
  obtain ⟨tree, text, settled, editor⟩ := survives_saving
  have bags : ∀ n ∈ drawing.graph.nodes, (Json.object n.bag).IsValue := by
    have three : Numeral.InRange (.natural 3) := Nat.le_of_ble_eq_true rfl
    intro n inside
    rw [List.mem_singleton.1 inside]
    exact ⟨by decide +kernel, trivial,
      ⟨by decide +kernel, ⟨three, trivial, trivial⟩, trivial, trivial⟩, trivial⟩
  have floats : ∀ n ∈ drawing.graph.nodes,
      (Json.object n.bag).EachNumber Numeral.RealReadsBack := by
    have spelled : (Numeral.real 1.5).ReadsBack := by
      unfold Numeral.ReadsBack
      decide +kernel
    intro n inside
    rw [List.mem_singleton.1 inside]
    exact ⟨spelled, ⟨⟨trivial, trivial, trivial⟩, trivial, trivial⟩, trivial⟩
  have plain : ∀ n ∈ sketch.graph.nodes,
      (Json.object n.bag).EachNumber Numeral.RealReadsBack := by
    intro n inside
    simp only [sketch, List.mem_cons, List.not_mem_nil, or_false] at inside
    rcases inside with rfl | rfl <;> trivial
  have accepted : ofText sketchText = .ok sketch := ofText_sketchText
  refine ⟨tree drawing .value bags trivial, text drawing bags floats (by decide),
    ⟨accepted, settled sketchText sketch accepted plain⟩, ?_⟩
  have extra : ∀ field ∈ [((Except.ok "position" : Scalar String), Draft.null)],
      ∃ name ∉ Node.outerNames, field.1 = .ok name := by
    intro field inside
    rw [List.mem_singleton.1 inside]
    exact ⟨"position", by decide, rfl⟩
  have other : ∀ field ∈ [((Except.ok "label" : Scalar String), Draft.null)],
      ∃ name ∉ Node.innerNames, field.1 = .ok name := by
    intro field inside
    rw [List.mem_singleton.1 inside]
    exact ⟨"label", by decide, rfl⟩
  exact (editor .wholeText ⟨"g", .glow, []⟩ "custom" _ _ _ _ (by decide)
    ⟨List.Pairwise.nil, trivial⟩ (by decide) extra other
    (List.reverse_perm _) (List.reverse_perm _)).1

end Project

end Texture
