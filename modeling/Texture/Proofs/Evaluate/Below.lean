/- Texture/Proofs/Evaluate/Below
   digest: What a root comes to depends on nothing but what lies below it: neither the artifact nor
   the wishes nor the faults tell graphs apart that agree there. -/

import Texture.Proofs.Evaluate.Relabel
import Texture.Proofs.Graph.Idle

set_option autoImplicit false
set_option relaxedAutoImplicit false

namespace Texture.Evaluate

open Relation (EqvGen ReflTransGen)

variable {g h : Graph} {root : String}

private theorem Memo.relabel_id
    (memo : Memo) : Memo.relabel (fun id => id) memo = memo := List.map_id' memo

private theorem visit_eq (canvas : Canvas) (fuel : Nat) (agree : g.AgreesBelow h root) :
    visit g.index canvas fuel [] root [] = visit h.index canvas fuel [] root [] := by
  have together : Work.Relabels (fun id => id) canvas.rasterizer (relabelSecond fun id => id)
      (visit g.index canvas fuel [] root []) (visit h.index canvas fuel [] root []) :=
    visit_relabels Function.injective_id fuel [] root [] fun id below => (agree id below).reflects
  have same : relabelSecond (fun id => id) = fun p : Artifact × Memo => p :=
    funext fun p => by rw [relabelSecond, Memo.relabel_id]
  rw [same] at together
  exact together.eq

private theorem walk_eq (canvas : Canvas) (agree : g.AgreesBelow h root) :
    walk g canvas (some root) = walk h canvas (some root) := by
  have here : g.node? root = h.node? root := (agree root ReflTransGen.refl).node
  cases found : g.node? root with
  | none =>
    have found' : h.node? root = none := here.symm.trans found
    simp only [walk, root?, found, found']
  | some n =>
    have found' : h.node? root = some n := here.symm.trans found
    simp only [walk, root?, found, found', Graph.node?_id found]
    -- The graphs may differ in the number of their nodes and so in the fuel. Both have enough.
    let fuel := g.nodes.length + h.nodes.length + 1
    calc visit g.index canvas (g.nodes.length + 1) [] root []
        = visit g.index canvas fuel [] root [] := (visit_of_le (by omega) root []).symm
      _ = visit h.index canvas fuel [] root [] := visit_eq canvas fuel agree
      _ = visit h.index canvas (h.nodes.length + 1) [] root [] := visit_of_le (by omega) root []

/-- Graphs that agree on all that a root depends on come to the same from there, from any session
on: the same artifact with the same minted ids or the same fault, after the same wishes. In
particular idle edits change nothing. -/
theorem artifact_eq_of_agreesBelow (canvas : Canvas) (root : String) (g h : Graph) :
    (g.AgreesBelow h root → artifact g canvas (some root) = artifact h canvas (some root)) ∧
      (EqvGen (Graph.Idle root) g h →
        g.AgreesBelow h root ∧ artifact g canvas (some root) = artifact h canvas (some root)) := by
  have below : g.AgreesBelow h root →
      artifact g canvas (some root) = artifact h canvas (some root) := by
    intro agree
    rw [artifact, artifact, walk_eq canvas agree]
  refine ⟨below, fun edits => ?_⟩
  have agree : g.AgreesBelow h root := Graph.agreesBelow_of_idle edits
  exact ⟨agree, below agree⟩

/-- A node beside the ring comes to what it comes to alone, and the edge into it, which it does not
read, makes no difference to the ring. -/
theorem artifact_besideRing :
    artifact ring ⟨.standard, fun _ _ => .error (.other "")⟩ (some "base") =
        artifact ⟨[⟨"base", .circle, []⟩], []⟩ ⟨.standard, fun _ _ => .error (.other "")⟩
          (some "base") ∧
      artifact ring ⟨.standard, fun _ _ => .error (.other "")⟩ (some "out") =
        artifact { ring with edges := ring.edges.dropLast }
          ⟨.standard, fun _ _ => .error (.other "")⟩ (some "out") := by
  have alone : ring.AgreesBelow ⟨[⟨"base", .circle, []⟩], []⟩ "base" := by
    intro id below
    have top : id = "base" := by
      have listed : id ∈ ["base"] := below.mem (by simp) (by decide +kernel)
      simpa using listed
    subst top
    refine ⟨rfl, ?_⟩
    intro n found handle read
    have same : ring.node? "base" = some ⟨"base", .circle, []⟩ := rfl
    rw [same, Option.some.injEq] at found
    subst found
    simp [Operator.handles] at read
  have edit : Graph.Idle "out" ring { ring with edges := ring.edges.dropLast } := by
    refine @Graph.Idle.unreadEdge "out" ring.nodes ring.edges.dropLast []
      ⟨"7", "sum", "out", "base", "in"⟩ ?_
    intro _ n found handle read
    have same : ring.node? "base" = some ⟨"base", .circle, []⟩ := rfl
    rw [Option.some.inj (found.symm.trans same)] at read
    simp [Operator.handles] at read
  exact ⟨(artifact_eq_of_agreesBelow _ "base" _ _).1 alone,
    ((artifact_eq_of_agreesBelow _ "out" _ _).2 (EqvGen.rel _ _ edit)).2⟩

end Texture.Evaluate
