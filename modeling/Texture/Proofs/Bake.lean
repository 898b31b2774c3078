/- Texture/Proofs/Bake
   digest: Painting is nothing but wishes for pixels of one size and what is put together from the
   answers. So it gives out no ids, and the first wish that is refused is its end. -/

import Texture.Bake
import Texture.Proofs.Requests

set_option autoImplicit false
set_option relaxedAutoImplicit false

namespace Texture

theorem Picture.ofBytes_error {width height : Nat} {bytes : ByteArray} {e : Fault}
    (failed : Picture.ofBytes width height bytes = .error e) :
    ∃ text, e = .rasterization text := by
  unfold ofBytes at failed
  split at failed
  · split at failed
    · simp at failed
    · exact ⟨_, (Except.error.inj failed).symm⟩
  · exact ⟨_, (Except.error.inj failed).symm⟩

private theorem Buffer.blend_error {name : String} {f : Pixel → Pixel → Pixel}
    {below above : ByteArray} {e : Fault} (failed : Buffer.blend name f below above = .error e) :
    ∃ text, e = .rasterization text := by
  unfold blend at failed
  split at failed
  · simp at failed
  · exact ⟨_, (Except.error.inj failed).symm⟩

def Request.HasSize (width height : Nat) (q : Request) : Prop := q.width = width ∧ q.height = height

namespace Work

/-- Work made of wishes of some kind and of pixels that are put together or do not fit. -/
inductive Paints (rasterizer : Rasterizer) (P : Request → Prop) : {α : Type} → Work α → Prop
  | compute {α : Type} {x : Except Fault α}
      (pixels : ∀ e, x = .error e → ∃ text, e = .rasterization text) :
      Paints rasterizer P (Work.ofExcept x)
  | ask {request : Request} (wanted : P request) :
      Paints rasterizer P (Work.rasterize rasterizer request)
  | bind {α β : Type} {x : Work α} {f : α → Work β} (first : Paints rasterizer P x)
      (rest : ∀ a, Paints rasterizer P (f a)) : Paints rasterizer P (x >>= f)

/-- What painting from a session comes to: all wishes were answered, or the last one was refused and
its fault is what painting fails with. -/
inductive Painted (rasterizer : Rasterizer) (P : Request → Prop) (s : Session) {α : Type} :
    Except Fault α × Session → Prop
  | answered {calls : List (Request × Picture)} {t : Session} {r : Except Fault α}
      (asked : Asked rasterizer s calls t) (wanted : ∀ call ∈ calls, P call.1)
      (pixels : ∀ e, r = .error e → ∃ text, e = .rasterization text) :
      Painted rasterizer P s (r, t)
  | refused {calls : List (Request × Picture)} {t : Session} {q : Request} {e : Fault}
      (asked : Asked rasterizer s calls t) (wanted : ∀ call ∈ calls, P call.1) (last : P q)
      (refusal : rasterizer t.requests q = .error e) :
      Painted rasterizer P s (.error e, { t with requests := t.requests ++ [q] })

def MintsNothing {α : Type} (x : Work α) : Prop := ∀ s, (x.after s).2.minted = s.minted

/-- What work comes to does not depend on the session in which it begins. -/
def Steady {α : Type} (x : Work α) : Prop := ∀ s u, (x.after s).1 = (x.after u).1

variable {rasterizer : Rasterizer} {P : Request → Prop} {α β : Type}

namespace MintsNothing

theorem pure (a : α) : (Pure.pure a : Work α).MintsNothing := fun _ => rfl

theorem bind {x : Work α} {f : α → Work β} (hx : x.MintsNothing) (hf : ∀ a, (f a).MintsNothing) :
    (x >>= f).MintsNothing := by
  intro s
  have first := hx s
  rw [after_bind]
  rcases outcome : x.after s with ⟨e | a, t⟩ <;> rw [outcome] at first
  · exact first
  · exact (hf a t).trans first

theorem tryCatch {x : Work α} {handle : Fault → Work α} (hx : x.MintsNothing)
    (hh : ∀ e, (handle e).MintsNothing) : (tryCatch x handle).MintsNothing := by
  intro s
  have first := hx s
  rw [after_tryCatch]
  rcases outcome : x.after s with ⟨e | a, t⟩ <;> rw [outcome] at first
  · exact (hh e t).trans first
  · exact first

theorem minted_eq {x : Work α} (hx : x.MintsNothing) {s t : Session} {a : α}
    (yields : x.Yields s a t) : t.minted = s.minted := by
  have same := hx s
  rwa [yields] at same

end MintsNothing

namespace Paints

theorem pure (a : α) : Paints rasterizer P (Pure.pure a : Work α) :=
  compute (x := .ok a) fun _ failed => nomatch failed

private theorem map {x : Work α} (hx : Paints rasterizer P x) (f : α → β) :
    Paints rasterizer P (f <$> x) := by
  rw [map_eq_pure_bind]
  exact hx.bind fun a => Paints.pure (f a)

theorem foldlM {f : β → α → Work β} (step : ∀ b a, Paints rasterizer P (f b a))
    (items : List α) (b : β) : Paints rasterizer P (items.foldlM f b) := by
  induction items generalizing b with
  | nil => exact Paints.pure b
  | cons a items ih =>
    rw [List.foldlM_cons]
    exact (step b a).bind ih

theorem painted {x : Work α} (h : Paints rasterizer P x) (s : Session) :
    Painted rasterizer P s (x.after s) := by
  induction h generalizing s with
  | @compute α x pixels =>
    rw [after_ofExcept]
    exact .answered (Asked.refl s) (List.forall_mem_nil _) pixels
  | @ask request wanted =>
    rw [after_rasterize]
    cases answer : rasterizer s.requests request with
    | error e => exact .refused (Asked.refl s) (List.forall_mem_nil _) wanted answer
    | ok p =>
      have asked : Asked rasterizer s [(request, p)]
          { s with requests := s.requests ++ [request] } := ⟨rfl, answer, trivial⟩
      exact .answered asked (List.forall_mem_singleton.mpr wanted) fun _ failed => nomatch failed
  | @bind α β x f first rest ih ih' =>
    have before := ih s
    rw [after_bind]
    generalize x.after s = outcome at before
    cases before with
    | refused asked wanted last refusal => exact .refused asked wanted last refusal
    | @answered calls t r asked wanted pixels =>
      cases r with
      | error e =>
        refine .answered asked wanted fun e' same => pixels e' ?_
        exact congrArg Except.error (Except.error.inj same)
      | ok a =>
        have after := ih' a t
        simp only
        generalize (f a).after t = outcome at after
        cases after with
        | answered asked' wanted' pixels' =>
          refine .answered (asked.append asked') ?_ pixels'
          rw [List.forall_mem_append]
          exact ⟨wanted, wanted'⟩
        | refused asked' wanted' last refusal =>
          refine .refused (asked.append asked') ?_ last refusal
          rw [List.forall_mem_append]
          exact ⟨wanted, wanted'⟩

theorem mintsNothing {x : Work α} (h : Paints rasterizer P x) : x.MintsNothing := by
  intro s
  have outcome := h.painted s
  generalize x.after s = after at outcome
  cases outcome with
  | answered asked wanted pixels => rw [asked.session]
  | refused asked wanted last refusal => rw [asked.session]

theorem steady {x : Work α} (h : Paints rasterizer P x)
    (fixed : ∀ earlier earlier' q, rasterizer earlier q = rasterizer earlier' q) : x.Steady := by
  induction h with
  | compute pixels =>
    intro s u
    rw [after_ofExcept, after_ofExcept]
  | ask wanted =>
    intro s u
    rw [after_rasterize, after_rasterize]
    exact fixed _ _ _
  | @bind α β x f first rest ih ih' =>
    intro s u
    have same := ih s u
    rw [after_bind, after_bind]
    generalize x.after s = left at same ⊢
    generalize x.after u = right at same ⊢
    rcases left with ⟨e | a, t⟩ <;> rcases right with ⟨e' | a', t'⟩
    · exact congrArg Except.error (Except.error.inj same)
    · exact nomatch same
    · exact nomatch same
    · obtain rfl : a = a' := Except.ok.inj same
      exact ih' a t t'

end Paints

namespace Painted

variable {s t : Session} {r : Except Fault α}

theorem adds (h : Painted rasterizer P s (r, t)) : s.Adds P t := by
  cases h with
  | @answered calls t r asked wanted pixels =>
    refine ⟨calls.map Prod.fst, by rw [asked.session], ?_⟩
    exact List.forall_mem_map.mpr wanted
  | @refused calls t q e asked wanted last refusal =>
    refine ⟨calls.map Prod.fst ++ [q], by rw [asked.session, List.append_assoc], ?_⟩
    rw [List.forall_mem_append]
    exact ⟨List.forall_mem_map.mpr wanted, List.forall_mem_singleton.mpr last⟩

private theorem not_refused {calls : List (Request × Picture)} {before : List Request}
    (answered : Answered rasterizer before calls) {earlier later : List Request} {q : Request}
    (split : calls.map Prod.fst = earlier ++ q :: later) (e : Fault) :
    rasterizer (before ++ earlier) q ≠ .error e := by
  obtain ⟨front, back, rfl, rfl, tail⟩ := List.map_eq_append_iff.mp split
  obtain ⟨call, rest, rfl, rfl, -⟩ := List.map_eq_cons_iff.mp tail
  rw [answered.split]
  exact nofun

/-- The first wish that is refused is the last one, and its fault is the one of the painting. -/
theorem refused_last (h : Painted rasterizer P s (r, t)) {earlier later : List Request}
    {q : Request} {e : Fault} (split : t.requests = s.requests ++ earlier ++ q :: later)
    (refusal : rasterizer (s.requests ++ earlier) q = .error e) : later = [] ∧ r = .error e := by
  cases h with
  | @answered calls t r asked wanted pixels =>
    rw [asked.session, List.append_assoc, List.append_cancel_left_eq] at split
    exact absurd refusal (not_refused asked.answered split e)
  | @refused calls t last e' asked wanted kind refusal' =>
    have requests : t.requests = s.requests ++ calls.map Prod.fst := by rw [asked.session]
    rw [requests, List.append_assoc, List.append_assoc, List.append_cancel_left_eq] at split
    rcases List.eq_nil_or_concat later with rfl | ⟨later, final, rfl⟩
    · obtain ⟨front, same⟩ := List.append_inj' split rfl
      obtain rfl : last = q := List.head_eq_of_cons_eq same
      rw [requests, front, refusal] at refusal'
      exact ⟨rfl, congrArg Except.error (Except.error.inj refusal').symm⟩
    · rw [List.concat_eq_append, ← List.cons_append, ← List.append_assoc] at split
      have front : calls.map Prod.fst = earlier ++ q :: later := (List.append_inj' split rfl).1
      exact absurd refusal (not_refused asked.answered front e)

end Painted

end Work

open Work (Paints)

namespace Bake

namespace Layers

variable (layers : Layers)

abbrev Paint {α : Type} (x : Work α) : Prop :=
  x.Paints layers.canvas.rasterizer (Request.HasSize layers.width layers.height)

private theorem lay_paints (below : Option ByteArray) (n : Svg.Node) :
    layers.Paint (layers.lay below n) := by
  refine (Paints.ask ⟨rfl, rfl⟩).bind fun layer => (Paints.compute fun e failed => ?_).map some
  split at failed
  · exact Buffer.blend_error failed
  · exact Buffer.blend_error failed

private theorem sum_paints (children : List Svg.Node) : layers.Paint (layers.sum children) :=
  (Paints.foldlM layers.lay_paints children none).bind fun _ =>
    Paints.compute fun _ => Picture.ofBytes_error

mutual

private theorem flatten_paints (n : Svg.Node) : layers.Paint (layers.flatten n) := by
  cases n with
  | shape geometry style =>
    rw [flatten]
    exact Paints.pure _
  | image box address rendering =>
    rw [flatten]
    exact Paints.pure _
  | group effects children =>
    rw [flatten]
    refine (flattenAll_paints children).bind fun flat => ?_
    split
    · exact (layers.sum_paints flat).bind fun _ => Paints.pure _
    · exact Paints.pure _

private theorem flattenAll_paints (ns : List Svg.Node) : layers.Paint (layers.flattenAll ns) := by
  cases ns with
  | nil =>
    rw [flattenAll]
    exact Paints.pure _
  | cons n ns =>
    rw [flattenAll]
    exact (flatten_paints n).bind fun _ => (flattenAll_paints ns).bind fun _ => Paints.pure _

end

end Layers

private theorem flattenMasks_paints (canvas : Canvas) (width height : Nat)
    (done rest : List Svg.Def) :
    (flattenMasks canvas width height done rest).Paints canvas.rasterizer
      (Request.HasSize width height) := by
  induction rest generalizing done with
  | nil => exact Paints.pure done
  | cons d rest ih =>
    cases d with
    | gradient g => exact (Paints.pure _).bind fun flat => ih (done ++ [flat])
    | filter id region primitives => exact (Paints.pure _).bind fun flat => ih (done ++ [flat])
    | mask id region content =>
      refine (Layers.flattenAll_paints ⟨canvas, _, width, height⟩ content).bind fun flat => ?_
      exact (Paints.pure _).bind fun d => ih (done ++ [d])

private theorem document_paints (rasterizer : Rasterizer) (width height : Nat)
    (doc : Svg.Document) :
    (document rasterizer width height doc).Paints rasterizer (Request.HasSize width height) := by
  refine Paints.bind ?_ fun flat => Paints.ask ⟨rfl, rfl⟩
  refine (flattenMasks_paints ⟨doc.resolution, rasterizer⟩ _ _ _ _).bind fun definitions => ?_
  exact (Layers.flattenAll_paints ⟨⟨doc.resolution, rasterizer⟩, _, width, height⟩ _).bind fun _ =>
    Paints.pure _

end Bake

/-- A picture of the size is taken as it is, and everything else is painted as a document. -/
theorem Artifact.bake_cases (canvas : Canvas) (size : Nat) (a : Artifact) :
    (∃ p rendering, a = .raster p rendering ∧ (p.width = size ∧ p.height = size) ∧
      a.bake canvas size = pure p) ∨
    a.bake canvas size =
      Bake.document canvas.rasterizer size size (a.toDocument canvas.resolution none) := by
  cases a with
  | vector f => exact .inr rfl
  | raster p rendering =>
    rw [bake]
    split
    · rename_i fits
      exact .inl ⟨p, rendering, rfl, fits, rfl⟩
    · exact .inr rfl

theorem Artifact.bake_paints (canvas : Canvas) (size : Nat) (a : Artifact) :
    (a.bake canvas size).Paints canvas.rasterizer (Request.HasSize size size) := by
  rcases a.bake_cases canvas size with ⟨p, rendering, -, -, taken⟩ | painted
  · rw [taken]
    exact Paints.pure p
  · rw [painted]
    exact Bake.document_paints _ _ _ _

end Texture
