/- Texture/Proofs/Operator/Pixelate
   digest: Large pixels: how many cover the canvas, what becomes of an input that cannot be painted
   in them, and that a second time changes nothing. -/

import Texture.Proofs.Operator.Fault

set_option autoImplicit false
set_option relaxedAutoImplicit false

namespace Texture

/-- The same wish has the same answer, whatever was wished for before. -/
def Rasterizer.IsFixed (rasterizer : Rasterizer) : Prop :=
  ∀ earlier earlier' q, rasterizer earlier q = rasterizer earlier' q

def Rasterizer.KeepsSize (rasterizer : Rasterizer) : Prop :=
  ∀ earlier q p, rasterizer earlier q = .ok p → p.width = q.width ∧ p.height = q.height

namespace Pixelate

private theorem edge_covers (r : Resolution) (size : Nat) :
    1 ≤ edge r size ∧ edge r size ≤ r.pixels ∧
      (edge r size - 1) * max size 1 < r.pixels ∧ r.pixels ≤ edge r size * max size 1 := by
  obtain ⟨k, positive, same⟩ : ∃ k, 1 ≤ k ∧ max size 1 = k := ⟨_, le_max_right _ _, rfl⟩
  have canvas := r.positive
  have least : edge r size * k ≤ r.pixels + (k - 1) := by
    rw [edge, same]
    exact Nat.div_mul_le_self _ _
  have most : r.pixels + (k - 1) < (edge r size + 1) * k := by
    rw [edge, same, Nat.mul_comm]
    exact Nat.lt_mul_div_succ _ positive
  rw [Nat.add_mul] at most
  have some : 1 ≤ edge r size := by
    by_contra none
    have zero : edge r size = 0 := by omega
    rw [zero] at most
    omega
  have short : (edge r size - 1) * k < r.pixels := by
    rw [Nat.sub_mul]
    omega
  rw [same]
  refine ⟨some, ?_, short, by omega⟩
  have factor : edge r size - 1 ≤ (edge r size - 1) * k := Nat.le_mul_of_pos_right _ positive
  omega

private theorem rendering_eq (size : Nat) :
    rendering size = if 1 < size then Svg.Rendering.pixelated else .smooth := by
  by_cases large : 1 < size
  · rw [rendering, if_neg (by omega), if_pos large]
  · rw [rendering, if_pos (by omega), if_neg large]

/-- What becomes of an input that is put into large pixels from a session on. -/
structure Settled (canvas : Canvas) (size : Nat) (input : Artifact) (s : Session)
    (result : Artifact) (t : Session) : Prop where
  yields : (apply canvas size (some input)).Yields s result t
  minted : t.minted = s.minted
  /-- All pixels are asked for in the size of the small picture. -/
  asks : s.Adds (Request.HasSize (edge canvas.resolution size) (edge canvas.resolution size)) t
  painted : ∀ p u, (input.bake canvas (edge canvas.resolution size)).Yields s p u →
    result = .raster p (if 1 < size then .pixelated else .smooth) ∧ t = u
  kept : ∀ e u, (input.bake canvas (edge canvas.resolution size)).after s = (.error e, u) →
    result = input ∧ t = u
  /-- The first wish that is refused is the last one, and the input stays as it was. -/
  refused : ∀ earlier q later e, t.requests = s.requests ++ earlier ++ q :: later →
    canvas.rasterizer (s.requests ++ earlier) q = .error e → later = [] ∧ result = input

variable {canvas : Canvas} {size : Nat} {input : Artifact} {s : Session}

private theorem exists_settled (canvas : Canvas) (size : Nat) (input : Artifact) (s : Session) :
    ∃ result t, Settled canvas size input s result t := by
  have outcome := apply_after canvas size input s
  have painting := (input.bake_paints canvas (edge canvas.resolution size)).painted s
  have mints := (input.bake_paints canvas (edge canvas.resolution size)).mintsNothing s
  rcases baked : (input.bake canvas (edge canvas.resolution size)).after s with ⟨e | p, t⟩ <;>
    rw [baked] at outcome painting mints
  · refine ⟨input, t, outcome, mints, painting.adds, ?_, ?_, ?_⟩
    · intro p u yields
      exact nomatch baked.symm.trans yields
    · intro e' u failed
      exact ⟨rfl, (Prod.mk.inj (baked.symm.trans failed)).2⟩
    · intro earlier q later e' split refusal
      exact ⟨(painting.refused_last split refusal).1, rfl⟩
  · refine ⟨.raster p (rendering size), t, outcome, mints, painting.adds, ?_, ?_, ?_⟩
    · intro q u yields
      obtain ⟨same, rfl⟩ := Prod.mk.inj (baked.symm.trans yields)
      obtain rfl := Except.ok.inj same
      exact ⟨by rw [rendering_eq], rfl⟩
    · intro e u failed
      exact nomatch baked.symm.trans failed
    · intro earlier q later e split refusal
      exact nomatch (painting.refused_last split refusal).2

private theorem bake_size (keeps : canvas.rasterizer.KeepsSize) (n : Nat) (a : Artifact) :
    (a.bake canvas n).Ensures fun p => p.width = n ∧ p.height = n := by
  rcases a.bake_cases canvas n with ⟨p, rendering, -, fits, taken⟩ | painted
  · rw [taken]
    exact Work.Ensures.pure fits
  · rw [painted]
    refine (Work.Ensures.trivial _).bind fun flat _ => ?_
    intro s p t yields
    rw [Work.Yields, Work.after_rasterize, Prod.mk.injEq] at yields
    exact keeps _ _ _ yields.1

private theorem Settled.again {result : Artifact} {t : Session}
    (h : Settled canvas size input s result t)
    (fixed : canvas.rasterizer.IsFixed) (keeps : canvas.rasterizer.KeepsSize) (v : Session) :
    ∃ w, (apply canvas size (some result)).Yields v result w ∧
      ((∃ p u, (input.bake canvas (edge canvas.resolution size)).Yields s p u) → w = v) := by
  rcases baked : (input.bake canvas (edge canvas.resolution size)).after s with ⟨e | p, u⟩
  · -- What could not be painted once cannot be painted again.
    obtain ⟨rfl, -⟩ := h.kept e u baked
    have same := (result.bake_paints canvas (edge canvas.resolution size)).steady fixed v s
    have outcome := apply_after canvas size result v
    rw [baked] at same
    rcases again : (result.bake canvas (edge canvas.resolution size)).after v with ⟨e' | p, w⟩
    · rw [again] at outcome
      refine ⟨w, outcome, ?_⟩
      rintro ⟨p, u', yields⟩
      exact nomatch baked.symm.trans yields
    · rw [again] at same
      exact nomatch same
  · -- A picture of the right size is taken as it is.
    obtain ⟨rfl, -⟩ := h.painted p u baked
    have fits := bake_size keeps _ input s p u baked
    refine ⟨v, ?_, fun _ => rfl⟩
    have outcome := apply_after canvas size (.raster p (rendering size)) v
    simp only [Artifact.bake, if_pos fits, Work.after_pure] at outcome
    rw [← rendering_eq]
    exact outcome

/-- However an input is put into large pixels, this comes to something, and doing it again comes to
the same: from any session on, and without a wish if the input could be painted. -/
theorem apply_settles (canvas : Canvas) (size : Nat) (input : Artifact) (s : Session) :
    (1 ≤ edge canvas.resolution size ∧ edge canvas.resolution size ≤ canvas.resolution.pixels ∧
      (edge canvas.resolution size - 1) * max size 1 < canvas.resolution.pixels ∧
      canvas.resolution.pixels ≤ edge canvas.resolution size * max size 1) ∧
    ∃ result t, Settled canvas size input s result t ∧
      (canvas.rasterizer.IsFixed → canvas.rasterizer.KeepsSize → ∀ v,
        ∃ w, (apply canvas size (some result)).Yields v result w ∧
          ((∃ p u, (input.bake canvas (edge canvas.resolution size)).Yields s p u) → w = v)) := by
  obtain ⟨result, t, settled⟩ := exists_settled canvas size input s
  exact ⟨edge_covers canvas.resolution size, result, t, settled, settled.again⟩

def blank : Rasterizer := fun _ q => Picture.transparent q.width q.height

private theorem blank_keepsSize : blank.KeepsSize := by
  intro earlier q p painted
  unfold blank Picture.transparent at painted
  split at painted
  · obtain rfl := Except.ok.inj painted
    exact ⟨rfl, rfl⟩
  · exact nomatch painted

def addedLayers : Artifact :=
  let layer := Svg.Node.canvas .standard .white
  .single <| .group { Svg.Effects.isolate with blend := .plusLighter } [layer, layer]

/-- Two layers that are added up, in pixels of eight by eight and once more. -/
theorem apply_settles_addedLayers :
    blank.IsFixed ∧ blank.KeepsSize ∧
    ∃ result t, Settled ⟨.standard, blank⟩ 8 addedLayers Session.start result t ∧
      ∀ v, ∃ w, (apply ⟨.standard, blank⟩ 8 (some result)).Yields v result w := by
  obtain ⟨-, result, t, settled, again⟩ :=
    apply_settles ⟨.standard, blank⟩ 8 addedLayers Session.start
  have fixed : blank.IsFixed := fun _ _ _ => rfl
  refine ⟨fixed, blank_keepsSize, result, t, settled, fun v => ?_⟩
  obtain ⟨w, yields, -⟩ := again fixed blank_keepsSize v
  exact ⟨w, yields⟩

end Pixelate

end Texture
