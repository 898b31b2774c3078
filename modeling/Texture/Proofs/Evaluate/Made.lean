/- Texture/Proofs/Evaluate/Made
   digest: What a finished evaluation keeps was made by the operators from what it keeps of their
   producers. -/

import Texture.Proofs.Evaluate.Scope

set_option autoImplicit false
set_option relaxedAutoImplicit false

namespace Texture.Evaluate

open Svg (Def)

variable {g : Graph} {canvas : Canvas} {memo : Memo}

theorem inputs_ext {p q : Inputs} (h : ∀ handle, p.get handle = q.get handle) : p = q := by
  obtain ⟨only, first, second⟩ := p
  obtain ⟨only', first', second'⟩ := q
  have same := h .only
  have same' := h .first
  have same'' := h .second
  simp only [Inputs.get] at same same' same''
  rw [same, same', same'']

/-- How an artifact of the memo was made: its operator was applied to the answers of its producers,
in a world that they fit. -/
structure Made (g : Graph) (canvas : Canvas) (memo : Memo) (limit : Nat) (n : Node)
    (s t : Session) (W : Def → Prop) : Prop where
  found : g.node? n.id = some n
  world : World canvas.resolution s.minted W
  fits : (inputsFrom g memo n).Fits W
  yields : ((Settings.ofBag n.operator n.bag).apply canvas (inputsFrom g memo n)).Yields s
    (answer memo n.id) t
  bound : t.minted ≤ limit

def Justified (g : Graph) (canvas : Canvas) (memo : Memo) (limit : Nat) : Prop :=
  ∀ id, Done memo id → ∃ n s t W, n.id = id ∧ Made g canvas memo limit n s t W

private theorem inputsFrom_congr {later : Memo} (n : Node)
    (same : ∀ source ∈ g.feeds n.id n.operator.handles, answer later source = answer memo source) :
    inputsFrom g later n = inputsFrom g memo n := by
  refine inputs_ext fun handle => ?_
  rw [get_inputsFrom, get_inputsFrom]
  split
  · rename_i read
    cases found : g.producer? n.id handle with
    | none => rfl
    | some source =>
      have mem : source ∈ g.feeds n.id n.operator.handles :=
        List.mem_filterMap.mpr ⟨handle, read, found⟩
      simp only [Option.map_some, same source mem]
  · rfl

theorem inputsFrom_cons {n m : Node} {a : Artifact} (found : g.node? m.id = some m)
    (fresh : ¬ Done memo n.id) (has : g.Has n.id)
    (ready : ∀ source, g.Reads m.id source → g.Has source → Done memo source) :
    inputsFrom g ((n.id, a) :: memo) m = inputsFrom g memo m := by
  refine inputsFrom_congr m ?_
  intro source mem
  have edge : g.Reads m.id source := (Graph.reads_iff found).mpr mem
  have apart : source ≠ n.id := by
    rintro rfl
    exact fresh (ready n.id edge has)
  rw [answer_cons, if_neg apart]

theorem walk_justified {root : Option String} {a : Artifact} {t : Session}
    (yields : (walk g canvas root).Yields Session.start (a, memo) t) :
    (Orderly canvas.resolution memo t ∧ Justified g canvas memo t.minted) ∧
      Ran g root a memo := by
  refine walk_induction
    (P := fun memo t => Orderly canvas.resolution memo t ∧ Justified g canvas memo t.minted)
    yields ⟨(start_orderly canvas.resolution), fun id done => absurd done (not_done_nil id)⟩ ?_
  rintro memo n s a t closed found fresh ready ⟨orderly, justified⟩ made
  have has : g.Has n.id := Graph.has_iff.mpr ⟨n, found⟩
  obtain ⟨W, world, fits⟩ := orderly.world
  obtain ⟨-, W', grown, -⟩ :=
    Settings.apply_keeps _ canvas (inputsFrom_fits fits n) s a t world made
  refine ⟨orderly.step fresh made, ?_⟩
  intro id done
  rcases (done_cons memo n.id a id).mp done with rfl | old
  -- The new artifact was made of answers that it does not change.
  · have own := inputsFrom_cons (a := a) found fresh has ready
    refine ⟨n, s, t, W, rfl, found, world, ?_, ?_, Nat.le_refl _⟩
    · rw [own]
      exact inputsFrom_fits fits n
    · rw [own, answer_cons, if_pos rfl]
      exact made
  · obtain ⟨m, s₁, t₁, W₁, rfl, older⟩ := justified id old
    have kept := inputsFrom_cons (a := a) older.found fresh has
      fun source edge hasSource => closed.reads m.id old source edge hasSource
    have apart : m.id ≠ n.id := by
      intro same
      exact fresh (same ▸ old)
    refine ⟨m, s₁, t₁, W₁, rfl, older.found, older.world, ?_, ?_,
      Nat.le_trans older.bound grown.le⟩
    · rw [kept]
      exact older.fits
    · rw [kept, answer_cons, if_neg apart]
      exact older.yields

theorem Justified.made {limit : Nat} {n : Node} (justified : Justified g canvas memo limit)
    (found : g.node? n.id = some n) (done : Done memo n.id) :
    ∃ s t W, Made g canvas memo limit n s t W := by
  obtain ⟨m, s, t, W, same, made⟩ := justified n.id done
  have both : some m = some n := by rw [← made.found, same, found]
  cases both
  exact ⟨s, t, W, made⟩

theorem Closed.producer_done {n : Node} {handle : Handle} (closed : Closed g memo)
    (found : g.node? n.id = some n) (done : Done memo n.id) (read : handle ∈ n.operator.handles)
    {source : String} (edge : g.producer? n.id handle = some source) (has : g.Has source) :
    Done memo source := by
  refine closed.reads n.id done source ?_ has
  exact (Graph.reads_iff found).mpr (List.mem_filterMap.mpr ⟨handle, read, edge⟩)

theorem get_inputsFrom_of_mem {n : Node} (handle : Handle) (read : handle ∈ n.operator.handles) :
    (inputsFrom g memo n).get handle = (g.producer? n.id handle).map (answer memo) := by
  rw [get_inputsFrom, if_pos read]

theorem only_inputsFrom {n : Node} {source : String} (read : .only ∈ n.operator.handles)
    (edge : g.producer? n.id .only = some source) :
    (inputsFrom g memo n).only = some (answer memo source) := by
  have only : (inputsFrom g memo n).only = (g.producer? n.id .only).map (answer memo) :=
    get_inputsFrom_of_mem .only read
  rwa [edge] at only

end Texture.Evaluate
