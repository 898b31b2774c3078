/- Texture/Proofs/Work
   digest: What work yields from session to session, and what all its yields have in common. -/

import Mathlib.Data.List.Induction
import Mathlib.Tactic.Common
import Texture.Proofs.Minted

set_option autoImplicit false
set_option relaxedAutoImplicit false

namespace Texture.Work

variable {α β : Type}

/-- What work comes to when it begins in a session, and the session it leaves. -/
def after (x : Work α) (s : Session) : Except Fault α × Session := (ExceptT.run x).run s

theorem ext {x y : Work α} (h : ∀ s, x.after s = y.after s) : x = y := by
  funext s
  exact h s

@[simp] theorem after_pure (a : α) (s : Session) : (pure a : Work α).after s = (.ok a, s) := rfl

@[simp] theorem after_throw (e : Fault) (s : Session) :
    (throw e : Work α).after s = (.error e, s) := rfl

@[simp] theorem after_get (s : Session) : (get : Work Session).after s = (.ok s, s) := rfl

@[simp] theorem after_modify (f : Session → Session) (s : Session) :
    (modify f : Work Unit).after s = (.ok (), f s) := rfl

@[simp] theorem after_freshId (stem : String) (s : Session) :
    (freshId stem).after s =
      (.ok (mintedId stem (s.minted + 1)), { s with minted := s.minted + 1 }) := rfl

theorem after_bind (x : Work α) (f : α → Work β) (s : Session) :
    (x >>= f).after s =
      match x.after s with
      | (.ok a, t) => (f a).after t
      | (.error e, t) => (.error e, t) := by
  simp only [after, ExceptT.run_bind, StateT.run_bind]
  rcases (ExceptT.run x).run s with ⟨_ | _, _⟩ <;> rfl

theorem after_ofExcept (x : Except Fault α) (s : Session) : (ofExcept x).after s = (x, s) := by
  cases x <;> rfl

theorem after_rasterize (rasterizer : Rasterizer) (request : Request) (s : Session) :
    (rasterize rasterizer request).after s =
      (rasterizer s.requests request, { s with requests := s.requests ++ [request] }) := by
  simp only [rasterize, after_bind, after_get, after_modify]
  cases rasterizer s.requests request <;> rfl

theorem after_tryCatch (x : Work α) (handle : Fault → Work α) (s : Session) :
    (tryCatch x handle).after s =
      match x.after s with
      | (.ok a, t) => (.ok a, t)
      | (.error e, t) => (handle e).after t := by
  simp only [after, tryCatch, tryCatchThe, MonadExceptOf.tryCatch, ExceptT.tryCatch,
    ExceptT.run_mk, StateT.run_bind]
  have same : StateT.run (m := Id) x s = (ExceptT.run x).run s := rfl
  rw [same]
  rcases (ExceptT.run x).run s with ⟨_ | _, _⟩ <;> rfl

/-- Work that begins in one session succeeds with a value and leaves another session. -/
def Yields (x : Work α) (s : Session) (a : α) (t : Session) : Prop := x.after s = (.ok a, t)

theorem Yields.unique {x : Work α} {s t u : Session} {a b : α} (h : x.Yields s a t)
    (h' : x.Yields s b u) : a = b ∧ t = u := by
  rw [Yields, h] at h'
  simpa using h'

@[simp] theorem yields_pure (a b : α) (s t : Session) :
    (pure a : Work α).Yields s b t ↔ a = b ∧ s = t := by
  simp [Yields]

@[simp] theorem yields_throw (e : Fault) (a : α) (s t : Session) :
    ¬ (throw e : Work α).Yields s a t := by
  simp [Yields]

@[simp] theorem yields_freshId (stem id : String) (s t : Session) :
    (freshId stem).Yields s id t ↔
      mintedId stem (s.minted + 1) = id ∧ { s with minted := s.minted + 1 } = t := by
  simp only [Yields, after_freshId, Prod.mk.injEq, Except.ok.injEq]

@[simp] theorem yields_ofExcept (x : Except Fault α) (a : α) (s t : Session) :
    (ofExcept x).Yields s a t ↔ x = .ok a ∧ s = t := by
  simp [Yields, after_ofExcept]

theorem yields_tryCatch (x : Work α) (handle : Fault → Work α) (a : α) (s t : Session) :
    (tryCatch x handle).Yields s a t ↔
      x.Yields s a t ∨ ∃ e u, x.after s = (.error e, u) ∧ (handle e).Yields u a t := by
  simp only [Yields, after_tryCatch]
  rcases x.after s with ⟨e | b, u⟩
  · simp
  · simp

theorem yields_bind (x : Work α) (f : α → Work β) (b : β) (s u : Session) :
    (x >>= f).Yields s b u ↔ ∃ a t, x.Yields s a t ∧ (f a).Yields t b u := by
  simp only [Yields, after_bind]
  rcases x.after s with ⟨e | a, t⟩
  · simp
  · constructor
    · intro h
      exact ⟨a, t, rfl, h⟩
    · rintro ⟨a', t', same, h⟩
      cases same
      exact h

theorem yields_map (f : α → β) (x : Work α) (b : β) (s t : Session) :
    (f <$> x).Yields s b t ↔ ∃ a, x.Yields s a t ∧ f a = b := by
  rw [map_eq_pure_bind, yields_bind]
  constructor
  · rintro ⟨a, u, h, rest⟩
    rcases (yields_pure _ _ _ _).mp rest with ⟨same, rfl⟩
    exact ⟨a, h, same⟩
  · rintro ⟨a, h, same⟩
    exact ⟨a, t, h, (yields_pure _ _ _ _).mpr ⟨same, rfl⟩⟩

theorem Yields.foldlM {P : List α → β → Session → Prop} {f : β → α → Work β} {b c : β}
    {s t : Session} {items : List α} (yields : (items.foldlM f b).Yields s c t) (start : P [] b s)
    (step : ∀ before x after b s c t, items = before ++ x :: after → P before b s →
      (f b x).Yields s c t → P (before ++ [x]) c t) : P items c t := by
  induction items using List.reverseRecOn generalizing c t with
  | nil =>
    obtain ⟨rfl, rfl⟩ := (yields_pure b c s t).mp yields
    exact start
  | append_singleton items x ih =>
    rw [List.foldlM_append, yields_bind] at yields
    obtain ⟨d, u, front, last⟩ := yields
    have kept : P items d u := by
      refine ih front ?_
      intro before y after b s c t split
      exact step before y (after ++ [x]) b s c t (by rw [split]; simp)
    refine step items x [] d u c t rfl kept ?_
    simpa using last

def Ensures (x : Work α) (P : α → Prop) : Prop := ∀ s a t, x.Yields s a t → P a

namespace Ensures

theorem pure {P : α → Prop} {a : α} (h : P a) : (Pure.pure a : Work α).Ensures P := by
  intro s b t yields
  rw [yields_pure] at yields
  exact yields.1 ▸ h

theorem bind {P : α → Prop} {Q : β → Prop} {x : Work α} {f : α → Work β} (hx : x.Ensures P)
    (hf : ∀ a, P a → (f a).Ensures Q) : (x >>= f).Ensures Q := by
  intro s b u yields
  rcases (yields_bind x f b s u).mp yields with ⟨a, t, first, second⟩
  exact hf a (hx s a t first) t b u second

theorem trivial (x : Work α) : x.Ensures fun _ => True := fun _ _ _ _ => True.intro

theorem foldlM {P : List α → β → Prop} {f : β → α → Work β} {b : β} (start : P [] b)
    (items : List α)
    (step : ∀ before x after b, items = before ++ x :: after → P before b →
      (f b x).Ensures (P (before ++ [x]))) :
    (items.foldlM f b).Ensures (P items) := by
  intro s c t yields
  refine Yields.foldlM (P := fun items c _ => P items c) yields start ?_
  intro before x after b s c t split kept last
  exact step before x after b split kept s c t last

end Ensures

/-- Where only some values can arrive, continuations need to agree on these only. -/
theorem bind_congr {P : α → Prop} {x : Work α} {f g : α → Work β} (hx : x.Ensures P)
    (h : ∀ a, P a → f a = g a) : x >>= f = x >>= g := by
  refine ext fun s => ?_
  rw [after_bind, after_bind]
  rcases outcome : x.after s with ⟨e | a, t⟩
  · rfl
  · simp only [h a (hx s a t outcome)]

theorem map_congr {P : α → Prop} {x : Work α} {f g : α → β} (hx : x.Ensures P)
    (h : ∀ a, P a → f a = g a) : f <$> x = g <$> x := by
  rw [map_eq_pure_bind, map_eq_pure_bind]
  exact bind_congr hx fun a ha => by rw [h a ha]

end Texture.Work
