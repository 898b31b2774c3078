/- Texture/Proofs/Operator/Fault
   digest: Why operators fail: for pixels that cannot be read or do not fit, or for what the
   painter answered to the last wish. -/

import Texture.Proofs.Bake
import Texture.Proofs.Operator.Rename
import Texture.Proofs.Picture.Grammar

set_option autoImplicit false
set_option relaxedAutoImplicit false

namespace Texture

namespace Work

variable {α β : Type}

/-- All faults that work can end with have a property, in the sessions they leave. -/
def FailsWith (x : Work α) (P : Fault → Session → Prop) : Prop :=
  ∀ s e t, x.after s = (.error e, t) → P e t

namespace FailsWith

variable {P Q : Fault → Session → Prop}

theorem mono {x : Work α} (h : x.FailsWith P) (sub : ∀ e t, P e t → Q e t) : x.FailsWith Q := by
  intro s e t failed
  exact sub e t (h s e t failed)

theorem pure (a : α) : (Pure.pure a : Work α).FailsWith P := by
  intro s e t failed
  simp at failed

theorem throw {e : Fault} (h : ∀ t, P e t) : (MonadExcept.throw e : Work α).FailsWith P := by
  intro s e' t failed
  obtain ⟨same, -⟩ := Prod.mk.inj ((after_throw e s).symm.trans failed)
  cases same
  exact h t

theorem bind_ensures {A : α → Prop} {x : Work α} {f : α → Work β} (hx : x.FailsWith P)
    (arrives : x.Ensures A) (hf : ∀ a, A a → (f a).FailsWith P) : (x >>= f).FailsWith P := by
  intro s e t failed
  rw [after_bind] at failed
  rcases first : x.after s with ⟨e' | a, u⟩ <;> rw [first] at failed
  · simp only [Prod.mk.injEq, Except.error.injEq] at failed
    obtain ⟨rfl, rfl⟩ := failed
    exact hx s _ _ first
  · exact hf a (arrives s a u first) u e t failed

theorem bind {x : Work α} {f : α → Work β} (hx : x.FailsWith P) (hf : ∀ a, (f a).FailsWith P) :
    (x >>= f).FailsWith P :=
  hx.bind_ensures (Ensures.trivial x) fun a _ => hf a

theorem of_decided {x : Work α} {fault : Option Fault} (decided : x.Decided fault)
    (h : ∀ e, fault = some e → ∀ t, P e t) : x.FailsWith P := by
  intro s e t failed
  cases fault with
  | none =>
    obtain ⟨a, u, yields⟩ := decided s
    rw [Yields, failed] at yields
    simp at yields
  | some e' =>
    obtain ⟨u, failed'⟩ := decided s
    rw [failed, Prod.mk.injEq, Except.error.injEq] at failed'
    exact h e (congrArg some failed'.1.symm) t

end FailsWith

end Work

open Work (FailsWith)

/-- The last wish of a session was answered with a fault. -/
def Session.Refused (rasterizer : Rasterizer) (e : Fault) (t : Session) : Prop :=
  ∃ earlier request, t.requests = earlier ++ [request] ∧ rasterizer earlier request = .error e

/-- A fault about pixels, or one that the painter answered with. -/
def Fault.OfPixels (rasterizer : Rasterizer) (e : Fault) (t : Session) : Prop :=
  (∃ text, e = .rasterization text) ∨ t.Refused rasterizer e

section

variable {rasterizer : Rasterizer} {e : Fault}

theorem Picture.ofPayload_error {payload : String} (failed : Picture.ofPayload payload = .error e) :
    ∃ text, e = .rasterization text := by
  unfold ofPayload at failed
  rcases read : payloadBytes payload with e' | file <;> rw [read] at failed
  · obtain rfl : e' = e := by simpa [bind, Except.bind] using failed
    exact payloadBytes_error read
  · simp only [bind, Except.bind, ofFile] at failed
    split at failed
    · exact ⟨_, (Except.error.inj failed).symm⟩
    · exact ofBytes_error failed

private theorem Work.Paints.failsWith {α : Type} {P : Request → Prop} {x : Work α}
    (h : x.Paints rasterizer P) : x.FailsWith (Fault.OfPixels rasterizer) := by
  intro s e t failed
  have outcome := h.painted s
  rw [failed] at outcome
  cases outcome with
  | answered asked wanted pixels => exact Or.inl (pixels e rfl)
  | refused asked wanted last refusal => exact Or.inr ⟨_, _, rfl, refusal⟩

/-- What an operator can fail for: a bitmap that cannot be read, or pixels while it bends what is
connected to it. -/
inductive Settings.Blamed (rasterizer : Rasterizer) (inputs : Inputs) :
    Settings → Fault → Session → Prop
  | image {text : String} {e : Fault} {t : Session}
      (unreadable : Picture.ofPayload text = .error e) :
      Blamed rasterizer inputs (.image (some text)) e t
  | polar {s : PolarSettings} {a : Artifact} {e : Fault} {t : Session}
      (connected : inputs.only = some a) (about : e.OfPixels rasterizer t) :
      Blamed rasterizer inputs (.polar s) e t

private theorem Settings.Blamed.ofPixels {settings : Settings} {inputs : Inputs} {t : Session}
    (blamed : settings.Blamed rasterizer inputs e t) : e.OfPixels rasterizer t := by
  cases blamed with
  | image unreadable => exact Or.inl (Picture.ofPayload_error unreadable)
  | polar connected about => exact about

/-- Large pixels are the pixels of the input or, where it cannot be painted, the input. -/
theorem Pixelate.apply_after (canvas : Canvas) (size : Nat) (input : Artifact) (s : Session) :
    (Pixelate.apply canvas size (some input)).after s =
      match (input.bake canvas (edge canvas.resolution size)).after s with
      | (.ok p, t) => (.ok (.raster p (rendering size)), t)
      | (.error _, t) => (.ok input, t) := by
  rw [apply, Work.after_tryCatch, Work.after_bind]
  rcases (input.bake canvas (edge canvas.resolution size)).after s with ⟨e | p, t⟩
  · rfl
  · rfl

private theorem Pixelate.apply_succeeds (canvas : Canvas) (size : Nat) (input : Option Artifact) :
    (Pixelate.apply canvas size input).Succeeds := by
  cases input with
  | none => exact Work.Succeeds.pure _
  | some a =>
    intro s
    have outcome := apply_after canvas size a s
    rcases painted : (a.bake canvas (edge canvas.resolution size)).after s with ⟨e | p, t⟩
    · rw [painted] at outcome
      exact ⟨a, t, outcome⟩
    · rw [painted] at outcome
      exact ⟨.raster p (rendering size), t, outcome⟩

theorem Settings.apply_blames (settings : Settings) (canvas : Canvas) (inputs : Inputs) :
    (settings.apply canvas inputs).FailsWith (settings.Blamed canvas.rasterizer inputs) := by
  cases paints : settings.bakes with
  | false =>
    refine FailsWith.of_decided (settings.apply_decided paints canvas inputs) ?_
    intro e same t
    cases settings with
    | image payload =>
      cases payload with
      | none => simp [fault?, Swatches.image] at same
      | some text =>
        refine Blamed.image ?_
        rcases read : Picture.ofPayload text with e' | p
        · simpa [fault?, Swatches.image, read, bind, Except.bind] using same
        · simp [fault?, Swatches.image, read, bind, Except.bind, pure, Except.pure] at same
    | _ => simp [fault?] at same
  | true =>
    cases settings with
    | pixelate size =>
      exact FailsWith.of_decided (Pixelate.apply_succeeds canvas size inputs.only) (by simp)
    | polar s =>
      simp only [apply]
      cases connected : inputs.only with
      | none => exact FailsWith.pure _
      | some a =>
        refine ((a.bake_paints canvas _).failsWith.mono ?_).bind fun _ => FailsWith.pure _
        exact fun e t => Blamed.polar connected
    | _ => simp [bakes] at paints

/-- An operator fails for pixels only. -/
theorem Settings.apply_failsWith (settings : Settings) (canvas : Canvas) (inputs : Inputs) :
    (settings.apply canvas inputs).FailsWith (Fault.OfPixels canvas.rasterizer) :=
  (settings.apply_blames canvas inputs).mono fun _ _ => Blamed.ofPixels

end

end Texture
