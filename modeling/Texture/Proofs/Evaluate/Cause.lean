/- Texture/Proofs/Evaluate/Cause
   digest: What a walk can fail for: a cycle, a bitmap that cannot be read, or pixels while something
   is bent round. Nothing else below a root ever makes it fail. -/

import Texture.Proofs.Evaluate.Cycle

set_option autoImplicit false
set_option relaxedAutoImplicit false

namespace Texture.Evaluate

open Relation (ReflTransGen)
open Work (FailsWith)

/-- What is to blame for a fault, somewhere below a root. -/
inductive Cause (g : Graph) (rasterizer : Rasterizer) (root : String) : Fault → Session → Prop
  | cycle {id : String} {t : Session} (around : OnCycle g root id) :
      Cause g rasterizer root (.cyclic id) t
  /-- A bitmap with a payload that is not blank. -/
  | bitmap {id text : String} {n : Node} {e : Fault} {t : Session} (below : g.Depends root id)
      (found : g.node? id = some n) (image : n.operator = .image)
      (payload : n.bag.text? "image" = some text) (visible : Text.trim text.toList ≠ [])
      (unreadable : Picture.ofPayload text = .error e) : Cause g rasterizer root e t
  /-- A node that bends what is connected to it, which could not be painted. -/
  | bend {id source : String} {n : Node} {e : Fault} {t : Session} (below : g.Depends root id)
      (found : g.node? id = some n) (polar : n.operator = .polar)
      (connected : g.producer? id .only = some source) (about : e.OfPixels rasterizer t) :
      Cause g rasterizer root e t

private theorem operator_of_image {op : Operator} {bag : Bag} {text : String}
    (same : Settings.ofBag op bag = .image (some text)) :
    op = .image ∧ bag.text? "image" = some text ∧ Text.trim text.toList ≠ [] := by
  cases op with
  | image =>
    simp only [Settings.ofBag, Settings.image.injEq, Option.filter_eq_some_iff] at same
    exact ⟨rfl, same.1, by simpa using same.2⟩
  | _ => simp [Settings.ofBag] at same

private theorem operator_of_polar {op : Operator} {bag : Bag} {s : PolarSettings}
    (same : Settings.ofBag op bag = .polar s) : op = .polar := by
  cases op with
  | polar => rfl
  | _ => simp [Settings.ofBag] at same

variable {g : Graph} {canvas : Canvas} {id source : String} {e : Fault} {t : Session}

private theorem Cause.of_reads (edge : g.Reads id source)
    (cause : Cause g canvas.rasterizer source e t) : Cause g canvas.rasterizer id e t := by
  cases cause with
  | cycle around => exact Cause.cycle ⟨ReflTransGen.head edge around.1, around.2⟩
  | bitmap below found image payload visible unreadable =>
    exact Cause.bitmap (ReflTransGen.head edge below) found image payload visible unreadable
  | bend below found polar connected about =>
    exact Cause.bend (ReflTransGen.head edge below) found polar connected about

private theorem cause_explains (g : Graph) (canvas : Canvas) :
    Explains g canvas (Cause g canvas.rasterizer) where
  around id t around := Cause.cycle ⟨ReflTransGen.refl, around⟩
  apply id n inputs found fed := by
    intro s e t failed
    have blamed := Settings.apply_blames _ canvas inputs s e t failed
    generalize made : Settings.ofBag n.operator n.bag = settings at blamed
    cases blamed with
    | image unreadable =>
      obtain ⟨image, payload, visible⟩ := operator_of_image made
      exact Cause.bitmap ReflTransGen.refl found image payload visible unreadable
    | polar connected about =>
      obtain ⟨source, edge⟩ := fed .only _ connected
      exact Cause.bend ReflTransGen.refl found (operator_of_polar made) edge about
  reads id source e t := Cause.of_reads

private theorem Cause.recoverable (painter : ∀ earlier request e,
      canvas.rasterizer earlier request = .error e → e.isRecoverable = true)
    (cause : Cause g canvas.rasterizer id e t) :
    (∃ k, e = .cyclic k ∧ OnCycle g id k) ∨ e.isRecoverable = true := by
  cases cause with
  | @cycle k _ around => exact Or.inl ⟨k, rfl, around⟩
  | bitmap below found image payload visible unreadable =>
    obtain ⟨text, rfl⟩ := Picture.ofPayload_error unreadable
    exact Or.inr rfl
  | bend below found polar connected about =>
    rcases about with ⟨text, rfl⟩ | ⟨earlier, request, -, answered⟩
    · exact Or.inr rfl
    · exact Or.inr (painter earlier request e answered)

/-- Every fault that a graph ends with has a cause below its root, which is there. So without a
cycle, a bitmap that cannot be read and a connected node that bends, a graph has an artifact, and
without a root it has the empty one, whatever the painter answers. What a painter answers to an
input that is turned into large pixels never is a fault of the graph: the input then stays as it is.
If the painter only tells of pixels, so do all faults but those of cycles. -/
theorem artifact_faults (g : Graph) (canvas : Canvas) (root : Option String) (s : Session) :
    (∀ e t, (artifact g canvas root).after s = (.error e, t) →
      ∃ n, root? g root = some n ∧ Cause g canvas.rasterizer n.id e t) ∧
    ((∀ n e t, root? g root = some n → ¬ Cause g canvas.rasterizer n.id e t) →
      ∃ a t, (artifact g canvas root).Yields s a t) ∧
    (root? g root = none → (artifact g canvas root).Yields s .empty s) ∧
    (∀ size input s, (Pixelate.apply canvas size (some input)).after s =
      match (input.bake canvas (Pixelate.edge canvas.resolution size)).after s with
      | (.ok p, t) => (.ok (.raster p (Pixelate.rendering size)), t)
      | (.error _, t) => (.ok input, t)) ∧
    ((∀ earlier request e, canvas.rasterizer earlier request = .error e →
        e.isRecoverable = true) →
      ∀ e t, (artifact g canvas root).after s = (.error e, t) →
        (∃ n id, root? g root = some n ∧ e = .cyclic id ∧ OnCycle g n.id id) ∨
          e.isRecoverable = true) := by
  have missing : root? g root = none → (artifact g canvas root).Yields s .empty s := by
    intro absent
    simp [artifact, walk, absent]
  have causes : ∀ e t, (artifact g canvas root).after s = (.error e, t) →
      ∃ n, root? g root = some n ∧ Cause g canvas.rasterizer n.id e t := by
    intro e t failed
    cases start : root? g root with
    | none =>
      have yields := missing start
      rw [Work.Yields, failed] at yields
      simp at yields
    | some n => exact ⟨n, rfl, artifact_explained (cause_explains g canvas) start s e t failed⟩
  refine ⟨causes, ?_, missing, fun size input s => Pixelate.apply_after canvas size input s, ?_⟩
  · intro blameless
    rcases outcome : (artifact g canvas root).after s with ⟨e | a, t⟩
    · obtain ⟨n, start, cause⟩ := causes e t outcome
      exact absurd cause (blameless n e t start)
    · exact ⟨a, t, outcome⟩
  · intro painter e t failed
    obtain ⟨n, start, cause⟩ := causes e t failed
    rcases cause.recoverable painter with ⟨id, same, around⟩ | recoverable
    · exact Or.inl ⟨n, id, start, same, around⟩
    · exact Or.inr recoverable

def bentUnion : Graph where
  nodes := [⟨"out", .output, []⟩, ⟨"bend", .polar, []⟩, ⟨"large", .pixelate, []⟩,
    ⟨"sum", .add, []⟩, ⟨"one", .circle, []⟩, ⟨"two", .circle, []⟩]
  edges := [⟨"1", "bend", "out", "out", "in"⟩, ⟨"2", "large", "out", "bend", "in"⟩,
    ⟨"3", "sum", "out", "large", "in"⟩, ⟨"4", "one", "out", "sum", "a"⟩,
    ⟨"5", "two", "out", "sum", "b"⟩]

theorem artifact_bentUnion :
    (∃ t, (artifact bentUnion ⟨.standard, fun _ _ => .error (.rasterization "")⟩ none).after
        Session.start = (.error (.rasterization ""), t) ∧
      Cause bentUnion (fun _ _ => .error (.rasterization "")) "out" (.rasterization "") t) ∧
    ∃ a t, (artifact bentUnion ⟨.standard, fun _ _ => .error (.rasterization "")⟩
      (some "large")).Yields Session.start a t := by
  constructor
  · have run : ∃ t, (artifact bentUnion ⟨.standard, fun _ _ => .error (.rasterization "")⟩
        none).after Session.start = (.error (.rasterization ""), t) := ⟨_, rfl⟩
    obtain ⟨t, failed⟩ := run
    obtain ⟨n, start, cause⟩ := (artifact_faults _ _ none Session.start).1 _ t failed
    have top : root? bentUnion none = some ⟨"out", .output, []⟩ := rfl
    rw [top, Option.some.injEq] at start
    subst start
    exact ⟨t, failed, cause⟩
  · refine (artifact_faults _ _ (some "large") Session.start).2.1 ?_
    intro n e t start cause
    have top : root? bentUnion (some "large") = some ⟨"large", .pixelate, []⟩ := rfl
    rw [top, Option.some.injEq] at start
    subst start
    have listed : ∀ id, bentUnion.Depends "large" id → id ∈ ["large", "sum", "one", "two"] := by
      intro id below
      exact below.mem (by simp) (by decide +kernel)
    have harmless : ∀ id ∈ ["large", "sum", "one", "two"], ∀ n, bentUnion.node? id = some n →
        n.operator ≠ .image ∧ n.operator ≠ .polar := by
      simp [bentUnion, Graph.node?]
    cases cause with
    | cycle around =>
      have acyclic : bentUnion.AcyclicFrom "large" := by
        refine Graph.AcyclicFrom.of_ranks
          (fun id => (["one", "two", "sum", "large", "bend", "out"].idxOf? id).getD 0) ?_
        decide +kernel
      exact acyclic _ around.1 around.2
    | bitmap below found image => exact (harmless _ (listed _ below) _ found).1 image
    | bend below found polar => exact (harmless _ (listed _ below) _ found).2 polar

end Texture.Evaluate
