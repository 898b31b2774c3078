/- Texture/Proofs/Requests
   digest: The wishes for pixels that work adds to a session, how they are answered, and whose fault
   it is when work fails. -/

import Mathlib.Data.List.Infix
import Texture.Proofs.Work

set_option autoImplicit false
set_option relaxedAutoImplicit false

namespace Texture

/-- Wishes in a row with their answers, each given in the knowledge of those before it. -/
def Answered (rasterizer : Rasterizer) : List Request → List (Request × Picture) → Prop
  | _, [] => True
  | earlier, (request, p) :: calls =>
    rasterizer earlier request = .ok p ∧ Answered rasterizer (earlier ++ [request]) calls

/-- Between two sessions these wishes were answered, and nothing else happened. -/
structure Asked (rasterizer : Rasterizer) (s : Session) (calls : List (Request × Picture))
    (t : Session) : Prop where
  session : t = { s with requests := s.requests ++ calls.map Prod.fst }
  answered : Answered rasterizer s.requests calls

def Fulfilled (rasterizer : Rasterizer) (width height : Nat) (earlier : List Request)
    (request : Request) : Prop :=
  ∃ p, rasterizer earlier request = .ok p ∧ p.width = width ∧ p.height = height

section

variable {rasterizer : Rasterizer}

private theorem Answered.append {earlier : List Request} {calls calls' : List (Request × Picture)}
    (h : Answered rasterizer earlier calls)
    (h' : Answered rasterizer (earlier ++ calls.map Prod.fst) calls') :
    Answered rasterizer earlier (calls ++ calls') := by
  induction calls generalizing earlier with
  | nil => simpa using h'
  | cons call calls ih =>
    obtain ⟨first, rest⟩ := h
    refine ⟨first, ih rest ?_⟩
    simpa using h'

theorem Answered.split {earlier : List Request} {before after : List (Request × Picture)}
    {call : Request × Picture} (h : Answered rasterizer earlier (before ++ call :: after)) :
    rasterizer (earlier ++ before.map Prod.fst) call.1 = .ok call.2 := by
  induction before generalizing earlier with
  | nil => simpa using h.1
  | cons first before ih => simpa using ih h.2

theorem Answered.of_mem {earlier : List Request} {calls : List (Request × Picture)}
    {call : Request × Picture} (h : Answered rasterizer earlier calls) (mem : call ∈ calls) :
    ∃ before, rasterizer before call.1 = .ok call.2 := by
  obtain ⟨front, back, rfl⟩ := List.append_of_mem mem
  exact ⟨_, h.split⟩

namespace Asked

variable {s t u : Session} {calls calls' : List (Request × Picture)}

theorem refl (s : Session) : Asked rasterizer s [] s := ⟨by simp, trivial⟩

theorem append (h : Asked rasterizer s calls t) (h' : Asked rasterizer t calls' u) :
    Asked rasterizer s (calls ++ calls') u := by
  obtain ⟨rfl, answered⟩ := h
  obtain ⟨rfl, answered'⟩ := h'
  exact ⟨by simp, answered.append answered'⟩

theorem of_rasterize {request : Request} {p : Picture}
    (yields : (Work.rasterize rasterizer request).Yields s p t) :
    Asked rasterizer s [(request, p)] t := by
  rw [Work.Yields, Work.after_rasterize, Prod.mk.injEq] at yields
  exact ⟨yields.2.symm, yields.1, trivial⟩

end Asked

end

def Session.Adds (P : Request → Prop) (s t : Session) : Prop :=
  ∃ new, t.requests = s.requests ++ new ∧ ∀ q ∈ new, P q

namespace Session.Adds

variable {P : Request → Prop} {s t u : Session}

private theorem of_eq (h : t.requests = s.requests) : s.Adds P t := ⟨[], by simpa using h, by simp⟩

private theorem trans (h : s.Adds P t) (h' : t.Adds P u) : s.Adds P u := by
  obtain ⟨new, same, all⟩ := h
  obtain ⟨more, same', all'⟩ := h'
  refine ⟨new ++ more, by rw [same', same, List.append_assoc], ?_⟩
  rw [List.forall_mem_append]
  exact ⟨all, all'⟩

end Session.Adds

namespace Work

variable {α β : Type} {P : List Request → Request → Prop}

theorem map_ofExcept (f : α → β) (x : Except Fault α) :
    f <$> Work.ofExcept x = Work.ofExcept (f <$> x) := by
  cases x <;> rfl

/-- Work adds wishes to those before it, and it fails only right after one of its own wishes was
answered otherwise than it should be. -/
structure Blames (x : Work α) (P : List Request → Request → Prop) : Prop where
  grows : ∀ s, s.requests <+: (x.after s).2.requests
  blames : ∀ s e t, x.after s = (.error e, t) →
    ∃ earlier request, s.requests <+: earlier ∧ t.requests = earlier ++ [request] ∧
      ¬ P earlier request

namespace Blames

private theorem of_yields {x : Work α} {f : Session → α} (h : ∀ s, x.Yields s (f s) s) :
    x.Blames P := by
  constructor
  · intro s
    rw [h s]
  · intro s e t failed
    rw [h s] at failed
    simp at failed

theorem pure (a : α) : (Pure.pure a : Work α).Blames P := of_yields (f := fun _ => a) fun _ => rfl

theorem ofExcept {x : Except Fault α} {a : α} (h : x = .ok a) : (Work.ofExcept x).Blames P :=
  of_yields (f := fun _ => a) fun s => (yields_ofExcept x a s s).mpr ⟨h, rfl⟩

theorem bind {Q : α → Prop} {x : Work α} {f : α → Work β} (hx : x.Blames P) (ensures : x.Ensures Q)
    (hf : ∀ a, Q a → (f a).Blames P) : (x >>= f).Blames P := by
  constructor
  · intro s
    have first := hx.grows s
    rw [after_bind]
    rcases outcome : x.after s with ⟨e | a, t⟩ <;> rw [outcome] at first
    · exact first
    · exact first.trans ((hf a (ensures s a t outcome)).grows t)
  · intro s e u failed
    have first := hx.grows s
    rw [after_bind] at failed
    rcases outcome : x.after s with ⟨e' | a, t⟩ <;> rw [outcome] at first failed
    · obtain ⟨rfl, rfl⟩ : e' = e ∧ t = u := by simpa using failed
      exact hx.blames s _ _ outcome
    · obtain ⟨earlier, request, later, rest⟩ :=
        (hf a (ensures s a t outcome)).blames t e u failed
      exact ⟨earlier, request, first.trans later, rest⟩

theorem bind' {x : Work α} {f : α → Work β} (hx : x.Blames P) (hf : ∀ a, (f a).Blames P) :
    (x >>= f).Blames P :=
  hx.bind (Ensures.trivial x) fun a _ => hf a

theorem foldlM {Q : β → Prop} {f : β → α → Work β}
    (step : ∀ b a, Q b → (f b a).Blames P ∧ (f b a).Ensures Q) (items : List α) {b : β} (h : Q b) :
    (items.foldlM f b).Blames P := by
  induction items generalizing b with
  | nil => exact Blames.pure b
  | cons a items ih =>
    rw [List.foldlM_cons]
    obtain ⟨blames, ensures⟩ := step b a h
    exact blames.bind ensures fun c hc => ih hc

theorem rasterize {rasterizer : Rasterizer} {width height : Nat} {f : Picture → Except Fault α}
    (request : Request)
    (h : ∀ p : Picture, p.width = width → p.height = height → ∃ a, f p = .ok a) :
    (Work.rasterize rasterizer request >>= fun p => Work.ofExcept (f p)).Blames
      (Fulfilled rasterizer width height) := by
  constructor
  · intro s
    rw [after_bind, after_rasterize]
    cases rasterizer s.requests request with
    | error e => exact List.prefix_append _ _
    | ok p =>
      simp only [after_ofExcept]
      exact List.prefix_append _ _
  · intro s e t failed
    refine ⟨s.requests, request, List.prefix_rfl, ?_⟩
    rw [after_bind, after_rasterize] at failed
    cases answer : rasterizer s.requests request with
    | error e' =>
      simp only [answer, Prod.mk.injEq] at failed
      refine ⟨failed.2 ▸ rfl, ?_⟩
      rintro ⟨p, same, -⟩
      simp [answer] at same
    | ok p =>
      simp only [answer, after_ofExcept, Prod.mk.injEq] at failed
      refine ⟨failed.2 ▸ rfl, ?_⟩
      rintro ⟨q, same, wide, high⟩
      obtain rfl : p = q := by simpa [answer] using same
      obtain ⟨a, made⟩ := h p wide high
      simp [made] at failed

end Blames

/-- All wishes that work adds have a property, and so have all values it succeeds with. -/
structure Upholds (x : Work α) (P : Request → Prop) (Q : α → Prop) : Prop where
  asks : ∀ s : Session, s.Adds P (x.after s).2
  ensures : x.Ensures Q

namespace Upholds

variable {P : Request → Prop} {Q : α → Prop} {R : β → Prop}

theorem of_silent {x : Work α} (silent : ∀ s, (x.after s).2.requests = s.requests)
    (ensures : x.Ensures Q) : x.Upholds P Q :=
  ⟨fun s => Session.Adds.of_eq (silent s), ensures⟩

theorem pure {a : α} (h : Q a) : (Pure.pure a : Work α).Upholds P Q :=
  of_silent (fun _ => rfl) (Ensures.pure h)

theorem throw (e : Fault) : (MonadExcept.throw e : Work α).Upholds P Q :=
  of_silent (fun _ => rfl) fun s a t yields => absurd yields (yields_throw e a s t)

theorem ofExcept (x : Except Fault α) : (Work.ofExcept x).Upholds P fun _ => True :=
  of_silent (fun s => by rw [after_ofExcept]) (Ensures.trivial _)

theorem freshId (stem : String) : (Work.freshId stem).Upholds P fun _ => True :=
  of_silent (fun _ => rfl) (Ensures.trivial _)

theorem rasterize {rasterizer : Rasterizer} {request : Request} (h : P request) :
    (Work.rasterize rasterizer request).Upholds P fun _ => True := by
  refine ⟨fun s => ⟨[request], ?_, by simpa using h⟩, Ensures.trivial _⟩
  rw [after_rasterize]

theorem mono {P' : Request → Prop} {Q' : α → Prop} {x : Work α} (h : x.Upholds P Q)
    (wishes : ∀ q, P q → P' q) (values : ∀ a, Q a → Q' a) : x.Upholds P' Q' := by
  refine ⟨fun s => ?_, fun s a t yields => values a (h.ensures s a t yields)⟩
  obtain ⟨new, same, all⟩ := h.asks s
  exact ⟨new, same, fun q mem => wishes q (all q mem)⟩

theorem bind {x : Work α} {f : α → Work β} (hx : x.Upholds P Q)
    (hf : ∀ a, Q a → (f a).Upholds P R) : (x >>= f).Upholds P R := by
  refine ⟨fun s => ?_, hx.ensures.bind fun a ha => (hf a ha).ensures⟩
  have first := hx.asks s
  rw [after_bind]
  rcases outcome : x.after s with ⟨e | a, t⟩ <;> rw [outcome] at first
  · exact first
  · exact first.trans ((hf a (hx.ensures s a t outcome)).asks t)

theorem map {x : Work α} (hx : x.Upholds P Q) (f : α → β) :
    (f <$> x).Upholds P fun _ => True := by
  rw [map_eq_pure_bind]
  exact hx.bind fun a _ => Upholds.pure trivial

theorem tryCatch {x : Work α} {handle : Fault → Work α} (hx : x.Upholds P Q)
    (hh : ∀ e, (handle e).Upholds P Q) : (tryCatch x handle).Upholds P Q := by
  constructor
  · intro s
    have first := hx.asks s
    rw [after_tryCatch]
    rcases outcome : x.after s with ⟨e | a, t⟩ <;> rw [outcome] at first
    · exact first.trans ((hh e).asks t)
    · exact first
  · intro s a t yields
    rcases (yields_tryCatch x handle a s t).mp yields with first | ⟨e, u, -, second⟩
    · exact hx.ensures s a t first
    · exact (hh e).ensures u a t second

theorem foldlM {f : β → α → Work β} {items : List α}
    (step : ∀ b, ∀ a ∈ items, R b → (f b a).Upholds P R) (b : β) (h : R b) :
    (items.foldlM f b).Upholds P R := by
  induction items generalizing b with
  | nil => exact Upholds.pure h
  | cons a items ih =>
    rw [List.foldlM_cons]
    refine (step b a List.mem_cons_self h).bind fun c hc => ?_
    exact ih (fun b a mem => step b a (List.mem_cons_of_mem _ mem)) c hc

end Upholds

end Work

end Texture
