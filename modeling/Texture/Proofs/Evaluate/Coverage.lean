/- Texture/Proofs/Evaluate/Coverage
   digest: Graphs of combinations and tints cover what their Boolean expression says, whatever the
   colours. -/

import Texture.Proofs.Evaluate.Made
import Texture.Proofs.Operator.Coverage

set_option autoImplicit false
set_option relaxedAutoImplicit false

namespace Texture

open Svg (Def Extent Renderer Sample)

/-- A picture put together from leaves, which are given by the ids of their nodes. -/
inductive Expression where
  | leaf (id : String)
  | missing
  | add (x y : Expression)
  | subtract (x y : Expression)
  | multiply (x y : Expression)
  | divide (x y : Expression)
  | color (x : Expression)

namespace Expression

def holds (leaves : String → Bool) : Expression → Bool
  | leaf id => leaves id
  | missing => false
  | add x y => x.holds leaves || y.holds leaves
  | subtract x y => x.holds leaves && !y.holds leaves
  | multiply x y => x.holds leaves && y.holds leaves
  | divide x y => x.holds leaves || y.holds leaves
  | color x => x.holds leaves

def leaves : Expression → List String
  | leaf id => [id]
  | missing => []
  | add x y | subtract x y | multiply x y | divide x y => x.leaves ++ y.leaves
  | color x => x.leaves

def binary? : Operator → Option (Expression → Expression → Expression)
  | .add => some add
  | .subtract => some subtract
  | .multiply => some multiply
  | .divide => some divide
  | _ => none

private theorem exists_combination {op : Operator} {build : Expression → Expression → Expression}
    (binary : binary? op = some build) (bag : Bag) :
    ∃ c : Combination, Settings.ofBag op bag = .math c ∧ op.handles = [.first, .second] ∧
      (∀ x y, (build x y).leaves = x.leaves ++ y.leaves) ∧
      ∀ x y leaves, (build x y).holds leaves = c.holds (x.holds leaves) (y.holds leaves) := by
  cases op <;> simp only [binary?, reduceCtorEq, Option.some.injEq] at binary <;> subst binary
  · exact ⟨.union, rfl, rfl, fun _ _ => rfl, fun _ _ _ => rfl⟩
  · exact ⟨.difference, rfl, rfl, fun _ _ => rfl, fun _ _ _ => rfl⟩
  · exact ⟨.intersection, rfl, rfl, fun _ _ => rfl, fun _ _ _ => rfl⟩
  · exact ⟨.exclusion, rfl, rfl, fun _ _ => rfl, fun _ _ _ => rfl⟩

end Expression

namespace Evaluate

/-- What is connected to an input, as an expression. Any id may be taken for a leaf; what is not
connected and what has no node is missing. -/
inductive Depicts (g : Graph) : Option String → Expression → Prop
  | leaf (id : String) : Depicts g (some id) (.leaf id)
  | unconnected : Depicts g none .missing
  | dangling {id : String} (absent : ¬ g.Has id) : Depicts g (some id) .missing
  | combined {n : Node} {build : Expression → Expression → Expression} {x y : Expression}
      (found : g.node? n.id = some n) (binary : Expression.binary? n.operator = some build)
      (first : Depicts g (g.producer? n.id .first) x)
      (second : Depicts g (g.producer? n.id .second) y) : Depicts g (some n.id) (build x y)
  | tinted {n : Node} {x : Expression} (found : g.node? n.id = some n)
      (operator : n.operator = .color) (connected : (g.producer? n.id .only).isSome)
      (only : Depicts g (g.producer? n.id .only) x) : Depicts g (some n.id) (.color x)
  | shown {n : Node} {x : Expression} (found : g.node? n.id = some n)
      (operator : n.operator = .output) (connected : (g.producer? n.id .only).isSome)
      (only : Depicts g (g.producer? n.id .only) x) : Depicts g (some n.id) x

variable {P : Type} {R : Renderer P} {g : Graph} {canvas : Canvas} {memo : Memo}

def connected (memo : Memo) (source : Option String) : Artifact :=
  (source.map (answer memo)).getD .empty

private theorem empty_covers (r : Resolution) :
    R.Covers r (R.fragment (Artifact.empty.toFragment r)) fun _ => false :=
  fun _ _ => rfl

section

variable {limit : Nat} {n : Node} {s t : Session} {W : Def → Prop}

private theorem Made.combination_covers (made : Made g canvas memo limit n s t W)
    (fills : R.FillsBoxes)
    (leaf : String → P → Bool) {build : Expression → Expression → Expression} {x y : Expression}
    (binary : Expression.binary? n.operator = some build)
    (covers : R.Covers canvas.resolution
      (R.fragment ((connected memo (g.producer? n.id .first)).toFragment canvas.resolution))
      fun p => x.holds fun id => leaf id p)
    (covers' : R.Covers canvas.resolution
      (R.fragment ((connected memo (g.producer? n.id .second)).toFragment canvas.resolution))
      fun p => y.holds fun id => leaf id p) :
    R.Covers canvas.resolution (R.fragment ((answer memo n.id).toFragment canvas.resolution))
      fun p => (build x y).holds fun id => leaf id p := by
  obtain ⟨c, settings, reads, -, holds⟩ := Expression.exists_combination binary n.bag
  have first : (inputsFrom g memo n).first = (g.producer? n.id .first).map (answer memo) :=
    get_inputsFrom_of_mem .first (by simp [reads])
  have second : (inputsFrom g memo n).second = (g.producer? n.id .second).map (answer memo) :=
    get_inputsFrom_of_mem .second (by simp [reads])
  have yields := made.yields
  rw [settings, Settings.apply] at yields
  rw [connected, ← first] at covers
  rw [connected, ← second] at covers'
  simp only [holds]
  exact c.apply_covers fills made.world made.fits.first made.fits.second covers covers' yields

private theorem Made.tint_covers (made : Made g canvas memo limit n s t W) (fills : R.FillsBoxes)
    (operator : n.operator = .color) {source : String}
    (edge : g.producer? n.id .only = some source) {A : P → Bool}
    (covers : R.Covers canvas.resolution
      (R.fragment ((answer memo source).toFragment canvas.resolution)) A) :
    R.Covers canvas.resolution
      (R.fragment ((answer memo n.id).toFragment canvas.resolution)) A := by
  have input : (inputsFrom g memo n).only = some (answer memo source) :=
    only_inputsFrom (by simp [operator, Operator.handles]) edge
  obtain ⟨settings, color⟩ : ∃ settings, Settings.ofBag n.operator n.bag = .color settings := by
    rw [operator]
    exact ⟨_, rfl⟩
  have yields := made.yields
  rw [color, Settings.apply, input] at yields
  exact Swatches.color_covers fills settings made.world (made.fits.only _ input) covers yields

private theorem Made.output_eq (made : Made g canvas memo limit n s t W)
    (operator : n.operator = .output)
    {source : String} (edge : g.producer? n.id .only = some source) :
    answer memo n.id = answer memo source := by
  have input : (inputsFrom g memo n).only = some (answer memo source) :=
    only_inputsFrom (by simp [operator, Operator.handles]) edge
  have output : Settings.ofBag n.operator n.bag = .output := by
    rw [operator]
    rfl
  have yields := made.yields
  rw [output, Settings.apply, input] at yields
  exact ((Work.yields_pure _ _ _ _).mp yields).1.symm

end

private theorem answer_covers {limit : Nat} {source : Option String} {e : Expression}
    (leaf : String → P → Bool) (fills : R.FillsBoxes)
    (justified : Justified g canvas memo limit) (closed : Closed g memo)
    (depicts : Depicts g source e) (done : ∀ id, source = some id → g.Has id → Done memo id)
    (covers : ∀ id ∈ e.leaves, R.Covers canvas.resolution
      (R.document ((answer memo id).toDocument canvas.resolution none)) (leaf id)) :
    R.Covers canvas.resolution
      (R.fragment ((connected memo source).toFragment canvas.resolution))
      fun p => e.holds fun id => leaf id p := by
  -- The tree below an input may meet a node of the graph many times; the memo answers each alike.
  induction depicts with
  | leaf id => exact covers id (by simp [Expression.leaves])
  | unconnected => exact empty_covers canvas.resolution
  | @dangling id absent =>
    have nothing : answer memo id = .empty :=
      answer_of_not_done fun made => absent (closed.has id made)
    simp only [connected, Option.map_some, Option.getD_some, nothing]
    exact empty_covers canvas.resolution
  | @combined n build x y found binary first second ihx ihy =>
    obtain ⟨c, -, reads, leaves, -⟩ := Expression.exists_combination binary n.bag
    have doneN := done n.id rfl (Graph.has_iff.mpr ⟨n, found⟩)
    obtain ⟨s, t, W, made⟩ := justified.made found doneN
    rw [leaves] at covers
    have coversX := ihx (fun id => closed.producer_done found doneN (by simp [reads]))
      fun id mem => covers id (List.mem_append_left _ mem)
    have coversY := ihy (fun id => closed.producer_done found doneN (by simp [reads]))
      fun id mem => covers id (List.mem_append_right _ mem)
    exact made.combination_covers fills leaf binary coversX coversY
  | @tinted n x found operator connect only ih =>
    have doneN := done n.id rfl (Graph.has_iff.mpr ⟨n, found⟩)
    have reads : Handle.only ∈ n.operator.handles := by simp [operator, Operator.handles]
    obtain ⟨s, t, W, made⟩ := justified.made found doneN
    obtain ⟨source, edge⟩ := Option.isSome_iff_exists.mp connect
    have coversX := ih (fun id => closed.producer_done found doneN reads) covers
    rw [edge] at coversX
    exact made.tint_covers fills operator edge coversX
  | @shown n x found operator connect only ih =>
    have doneN := done n.id rfl (Graph.has_iff.mpr ⟨n, found⟩)
    have reads : Handle.only ∈ n.operator.handles := by simp [operator, Operator.handles]
    obtain ⟨s, t, W, made⟩ := justified.made found doneN
    obtain ⟨source, edge⟩ := Option.isSome_iff_exists.mp connect
    have coversX := ih (fun id => closed.producer_done found doneN reads) covers
    rw [edge] at coversX
    rw [connected, Option.map_some, Option.getD_some, made.output_eq operator edge]
    exact coversX

/-- A document is opaque where the expression of its graph holds and shows nothing elsewhere on the
canvas, if this is so for its leaves. -/
theorem document_covers {P : Type} (R : Renderer P) (fills : R.FillsBoxes) (g : Graph)
    (canvas : Canvas) (root : Option String) (n : Node) (start : root? g root = some n)
    (a : Artifact) (memo : Memo) (t : Session)
    (yields : (walk g canvas root).Yields Session.start (a, memo) t) (e : Expression)
    (depicts : Depicts g (some n.id) e) (leaf : String → P → Bool)
    (covers : ∀ id ∈ e.leaves, R.Covers canvas.resolution
      (R.document ((answer memo id).toDocument canvas.resolution none)) (leaf id)) :
    R.Covers canvas.resolution (R.document (a.toDocument canvas.resolution none))
      fun p => e.holds fun id => leaf id p := by
  obtain ⟨⟨-, justified⟩, ran⟩ := walk_justified yields
  obtain ⟨done, same⟩ := ran.answer_eq n start
  rw [same]
  exact answer_covers leaf fills justified ran.closed depicts
    (fun id reached has => by cases reached; exact done) covers

open Classical in
noncomputable def boxes : Renderer Unit where
  shape := fun geometry style _ _ _ =>
    match geometry, style.fill with
    | .box b, .color c => if Extent.Within ⟨0, 0, 1, 1⟩ b then Sample.ofColor c else Sample.clear
    | _, _ => Sample.clear
  image := fun _ _ _ _ => Sample.clear
  move := fun _ layer => layer
  filter := fun _ _ layer => layer
  extent := fun _ => ⟨0, 0, 1, 1⟩

/-- A gray canvas and its tint, where both are, less nothing. -/
def tintedCut : Graph where
  nodes := [⟨"out", .output, []⟩, ⟨"less", .subtract, []⟩, ⟨"both", .multiply, []⟩,
    ⟨"tint", .color, []⟩, ⟨"base", .value, []⟩]
  edges := [⟨"1", "less", "out", "out", "in"⟩, ⟨"2", "both", "out", "less", "a"⟩,
    ⟨"3", "base", "out", "both", "a"⟩, ⟨"4", "tint", "out", "both", "b"⟩,
    ⟨"5", "base", "out", "tint", "in"⟩]

theorem document_tintedCut :
    ∃ a memo t, (walk tintedCut ⟨⟨1, by decide, by decide⟩, fun _ _ => .error (.other "")⟩
        none).Yields Session.start (a, memo) t ∧
      boxes.Covers ⟨1, by decide, by decide⟩
        (boxes.document (a.toDocument ⟨1, by decide, by decide⟩ none)) fun _ => true := by
  have fills : boxes.FillsBoxes := by
    intro b c p within
    exact if_pos within
  have run : ∃ a memo t,
      (walk tintedCut ⟨⟨1, by decide, by decide⟩, fun _ _ => .error (.other "")⟩ none).Yields
        Session.start (a, memo) t ∧
      answer memo "base" = Swatches.value ⟨1, by decide, by decide⟩ 0.5 := ⟨_, _, _, rfl, rfl⟩
  obtain ⟨a, memo, t, yields, base⟩ := run
  have depicts : Depicts tintedCut (some "out")
      (.subtract (.multiply (.leaf "base") (.color (.leaf "base"))) .missing) := by
    have base : Depicts tintedCut (some "base") (.leaf "base") := .leaf "base"
    have tint : Depicts tintedCut (some "tint") (.color (.leaf "base")) :=
      .tinted (n := ⟨"tint", .color, []⟩) rfl rfl rfl base
    have both : Depicts tintedCut (some "both") (.multiply (.leaf "base") (.color (.leaf "base"))) :=
      .combined (n := ⟨"both", .multiply, []⟩) rfl rfl base tint
    have less : Depicts tintedCut (some "less")
        (.subtract (.multiply (.leaf "base") (.color (.leaf "base"))) .missing) :=
      .combined (n := ⟨"less", .subtract, []⟩) rfl rfl both .unconnected
    exact .shown (n := ⟨"out", .output, []⟩) rfl rfl rfl less
  refine ⟨a, memo, t, yields, ?_⟩
  refine document_covers boxes fills tintedCut _ none _ rfl a memo t yields _ depicts
    (fun _ _ => true) ?_
  intro id mem p on
  obtain rfl : id = "base" := by simpa [Expression.leaves] using mem
  rw [base]
  exact Swatches.value_covers fills 0.5 p on

end Evaluate

end Texture
