/- Texture/Proofs/Bake/Flatten
   digest: What a document asks for when it is painted: the layers of its additive groups in order,
   and then the document in which their sums stand for them. It fails only when a wish was not
   answered with a picture of the requested size. -/

import Texture.Proofs.Bake.Sum

set_option autoImplicit false
set_option relaxedAutoImplicit false

namespace Texture.Bake

open Svg (Def Definitions Document Stack)
open Work (Blames)

/-- An additive group that was added up: the definitions at that time, and the children with their
pixels. -/
structure Sum where
  definitions : Definitions
  painted : List (Svg.Node × Picture)

namespace Sum

def stack (sum : Sum) : Stack := ⟨sum.definitions, sum.painted.map Prod.fst⟩

def calls (canvas : Canvas) (width height : Nat) (sum : Sum) : List (Request × Picture) :=
  sum.painted.map (Layers.call ⟨canvas, sum.definitions, width, height⟩)

/-- The image over the whole canvas that stands for the children. -/
def image {width height : Nat} (edges : EdgesInRange width height) (r : Resolution) (sum : Sum) :
    Svg.Node :=
  Artifact.embed (totalPicture edges sum.painted) r .smooth

end Sum

section

variable {width height : Nat} (edges : EdgesInRange width height) (r : Resolution)

def imagesOf (sums : List Sum) (k : Nat) : Svg.Node :=
  (sums[k]?.map (Sum.image edges r)).getD default

/-- From a number on, images stand for some sums. -/
def Stands (images : Nat → Svg.Node) (k : Nat) (sums : List Sum) : Prop :=
  ∀ i sum, sums[i]? = some sum → images (k + i) = sum.image edges r

variable {edges} {r}

private theorem imagesOf_stands (sums : List Sum) :
    Stands edges r (imagesOf edges r sums) 0 sums := by
  intro i sum found
  rw [imagesOf, Nat.zero_add, found]
  rfl

private theorem Stands.split {images : Nat → Svg.Node} {k : Nat} {sums sums' : List Sum}
    (stands : Stands edges r images k (sums ++ sums')) :
    Stands edges r images k sums ∧ Stands edges r images (k + sums.length) sums' := by
  constructor
  · intro i sum found
    have inside : i < sums.length := (List.getElem?_eq_some_iff.mp found).1
    exact stands i sum (by rw [List.getElem?_append_left inside, found])
  · intro i sum found
    rw [Nat.add_assoc]
    refine stands _ sum ?_
    rw [List.getElem?_append_right (by omega), Nat.add_sub_cancel_left, found]

end

/-- A part of a document was flattened: what was asked for on the way, and what came out, whichever
images stand for the sums. -/
structure Flattens {α : Type} (canvas : Canvas) {width height : Nat}
    (edges : EdgesInRange width height) (additives : Nat)
    (replaced : (Nat → Svg.Node) → Nat → α) (allStacks : (Nat → Svg.Node) → Nat → List Stack)
    (s : Session) (out : α) (t : Session) (sums : List Sum) : Prop where
  length : sums.length = additives
  asked : Asked canvas.rasterizer s (sums.flatMap (Sum.calls canvas width height)) t
  out : ∀ images k, Stands edges canvas.resolution images k sums →
    out = replaced images k ∧ sums.map Sum.stack = allStacks images k

private theorem Flattens.append {α β γ : Type} {canvas : Canvas} {width height : Nat}
    {edges : EdgesInRange width height} {a b : Nat} {replaced : (Nat → Svg.Node) → Nat → α}
    {replaced' : (Nat → Svg.Node) → Nat → β} {both : (Nat → Svg.Node) → Nat → γ}
    {order order' allStacks : (Nat → Svg.Node) → Nat → List Stack} {x : α} {y : β} {z : γ}
    {s t u : Session} {sums sums' : List Sum}
    (ran : Flattens canvas edges a replaced order s x t sums)
    (ran' : Flattens canvas edges b replaced' order' t y u sums')
    (joined : ∀ images k, x = replaced images k → y = replaced' images (k + a) →
      z = both images k ∧ order images k ++ order' images (k + a) = allStacks images k) :
    Flattens canvas edges (a + b) both allStacks s z u (sums ++ sums') where
  length := by rw [List.length_append, ran.length, ran'.length]
  asked := by
    rw [List.flatMap_append]
    exact ran.asked.append ran'.asked
  out images k stands := by
    obtain ⟨front, back⟩ := stands.split
    rw [ran.length] at back
    obtain ⟨first, same⟩ := ran.out images k front
    obtain ⟨second, same'⟩ := ran'.out images _ back
    rw [List.map_append, same, same']
    exact joined images k first second

namespace Layers

variable {canvas : Canvas} {definitions : Definitions} {width height : Nat}
  (edges : EdgesInRange width height)

mutual

private theorem flatten_yields {n m : Svg.Node} {s t : Session}
    (yields : (flatten ⟨canvas, definitions, width, height⟩ n).Yields s m t) :
    ∃ sums, Flattens canvas edges n.additives (fun images k => n.replace images k)
      (fun images k => (n.summands images k).map (Stack.mk definitions)) s m t sums := by
  cases n with
  | shape geometry style =>
    rw [flatten, Work.yields_pure] at yields
    obtain ⟨rfl, rfl⟩ := yields
    exact ⟨[], rfl, Asked.refl s, fun _ _ _ => ⟨rfl, rfl⟩⟩
  | group effects children =>
    rw [flatten, Work.yields_bind] at yields
    obtain ⟨flat, u, below, rest⟩ := yields
    obtain ⟨sums, ran⟩ := flattenAll_yields below
    -- Whether a group is additive is asked of its flattened children, whose blends are the old
    -- ones.
    have additive : Svg.Node.isAdditive effects flat = Svg.Node.isAdditive effects children := by
      rw [(ran.out _ 0 (imagesOf_stands sums)).1, Svg.Node.isAdditive_replaceAll]
    rw [additive] at rest
    split at rest
    · rename_i isAdditive
      rw [Work.yields_bind] at rest
      obtain ⟨picture, v, summed, last⟩ := rest
      obtain ⟨rfl, rfl⟩ := (Work.yields_pure _ _ _ _).mp last
      obtain ⟨painted, order, asked, rfl⟩ := sum_yields edges summed
      refine ⟨sums ++ [⟨definitions, painted⟩], ?_, ?_, ?_⟩
      · rw [List.length_append, ran.length, Svg.Node.additives, if_pos isAdditive]
        rfl
      · rw [List.flatMap_append]
        exact ran.asked.append (by simpa [Sum.calls] using asked)
      · intro images k stands
        obtain ⟨front, last⟩ := stands.split
        obtain ⟨rfl, allStacks⟩ := ran.out images k front
        have image := last 0 ⟨definitions, painted⟩ rfl
        rw [ran.length] at image
        constructor
        · rw [Svg.Node.replace, if_pos isAdditive]
          exact congrArg (fun n => Svg.Node.group effects [n]) image.symm
        · rw [List.map_append, allStacks, Svg.Node.summands, if_pos isAdditive, List.map_append]
          simp [Sum.stack, order]
    · rename_i plain
      obtain ⟨rfl, rfl⟩ := (Work.yields_pure _ _ _ _).mp rest
      refine ⟨sums, ?_, ran.asked, ?_⟩
      · rw [ran.length, Svg.Node.additives, if_neg plain, Nat.add_zero]
      · intro images k stands
        obtain ⟨rfl, allStacks⟩ := ran.out images k stands
        rw [Svg.Node.replace, Svg.Node.summands, if_neg plain, if_neg plain, List.append_nil]
        exact ⟨rfl, allStacks⟩
  | image box address rendering =>
    rw [flatten, Work.yields_pure] at yields
    obtain ⟨rfl, rfl⟩ := yields
    exact ⟨[], rfl, Asked.refl s, fun _ _ _ => ⟨rfl, rfl⟩⟩

private theorem flattenAll_yields {ns ms : List Svg.Node} {s t : Session}
    (yields : (flattenAll ⟨canvas, definitions, width, height⟩ ns).Yields s ms t) :
    ∃ sums, Flattens canvas edges (Svg.Node.additivesAll ns)
      (fun images k => Svg.Node.replaceAll images k ns)
      (fun images k => (Svg.Node.summandsAll images k ns).map (Stack.mk definitions)) s ms t
      sums := by
  cases ns with
  | nil =>
    rw [flattenAll, Work.yields_pure] at yields
    obtain ⟨rfl, rfl⟩ := yields
    exact ⟨[], rfl, Asked.refl s, fun _ _ _ => ⟨rfl, rfl⟩⟩
  | cons n ns =>
    rw [flattenAll, Work.yields_bind] at yields
    obtain ⟨m, u, first, rest⟩ := yields
    obtain ⟨ms, v, others, last⟩ := (Work.yields_bind _ _ _ _ _).mp rest
    obtain ⟨rfl, rfl⟩ := (Work.yields_pure _ _ _ _).mp last
    obtain ⟨sums, ran⟩ := flatten_yields first
    obtain ⟨sums', ran'⟩ := flattenAll_yields others
    refine ⟨sums ++ sums', ran.append ran' ?_⟩
    rintro images k rfl rfl
    rw [Svg.Node.summandsAll, List.map_append]
    exact ⟨rfl, rfl⟩

end

mutual

private theorem flatten_blames (edges : EdgesInRange width height) (n : Svg.Node) :
    (flatten ⟨canvas, definitions, width, height⟩ n).Blames
      (Fulfilled canvas.rasterizer width height) := by
  cases n with
  | shape geometry style =>
    rw [flatten]
    exact Blames.pure _
  | group effects children =>
    rw [flatten]
    refine (flattenAll_blames edges children).bind' fun flat => ?_
    split
    · exact (sum_blames edges flat).bind' fun picture => Blames.pure _
    · exact Blames.pure _
  | image box address rendering =>
    rw [flatten]
    exact Blames.pure _

private theorem flattenAll_blames (edges : EdgesInRange width height) (ns : List Svg.Node) :
    (flattenAll ⟨canvas, definitions, width, height⟩ ns).Blames
      (Fulfilled canvas.rasterizer width height) := by
  cases ns with
  | nil =>
    rw [flattenAll]
    exact Blames.pure _
  | cons n ns =>
    rw [flattenAll]
    refine (flatten_blames edges n).bind' fun _ => ?_
    exact (flattenAll_blames edges ns).bind' fun _ => Blames.pure _

end

end Layers

section

variable {canvas : Canvas} {width height : Nat} (edges : EdgesInRange width height)

include edges

end

end Texture.Bake
