/- Texture/Proofs/Evaluate/Sharing
   digest: Evaluation without a memo makes the same artifact as evaluation with one, up to the
   numbers in its ids. -/

import Texture.Proofs.Evaluate.Made
import Texture.Proofs.Evaluate.Unshared

set_option autoImplicit false
set_option relaxedAutoImplicit false

namespace Texture

open Svg (Def Definitions)

section

variable {r : Resolution} {n m : Nat} {V W : Def → Prop}

private theorem World.mono (world : World r n W) (sub : ∀ d, V d → W d) : World r n V :=
  ⟨fun d e hd he => world.agree d e (sub d hd) (sub e he), fun d hd => world.origin d (sub d hd)⟩

private theorem Artifact.Fits.narrow {a : Artifact} (fits : a.Fits W)
    (own : ∀ d ∈ a.definitions, V d) : a.Fits V := by
  cases a with
  | vector f =>
    have inner : f.Fits W := fits
    exact ⟨⟨own, inner.table.ordered⟩, inner.nodes⟩
  | raster p rendering => trivial

private theorem World.renumber_eq (world : World r n W) {θ θ' : Nat → Nat}
    (agree : ∀ k ≤ n, θ' k = θ k) {d : Def} (hd : W d) : renumber θ' d.id = renumber θ d.id := by
  rcases world.origin d hd with ⟨s, rfl⟩ | ⟨stem, number, bound, same⟩
  · exact (renumber_filterId θ' s).trans (renumber_filterId θ s).symm
  · rw [same, renumber_mintedId, renumber_mintedId, agree number bound]

private theorem renumber_offered (world : World r n W) {θ θ' : Nat → Nat}
    (agree : ∀ k ≤ n, θ' k = θ k) {items : List Def} (within : ∀ d ∈ items, W d)
    {ref : Svg.Reference} (offers : Svg.Offers items ref) :
    renumber θ' ref.id = renumber θ ref.id := by
  obtain ⟨d, mem, same, -⟩ := offers
  rw [← same]
  exact world.renumber_eq agree (within d mem)

private theorem Artifact.Fits.rename_def_congr {a : Artifact} (fits : a.Fits W)
    (world : World r n W)
    {θ θ' : Nat → Nat} (agree : ∀ k ≤ n, θ' k = θ k) {d : Def} (mem : d ∈ a.definitions) :
    d.rename (renumber θ') = d.rename (renumber θ) := by
  cases a with
  | raster p rendering => simp [definitions] at mem
  | vector f =>
    have inner : f.Fits W := fits
    refine Def.rename_congr (world.renumber_eq agree (inner.table.within d mem)) ?_
    intro ref memRef
    exact renumber_offered world agree inner.table.within
      (inner.wellScoped.contents d mem ref memRef)

private theorem Artifact.Fits.rename_congr {a : Artifact} (fits : a.Fits W) (world : World r n W)
    {θ θ' : Nat → Nat} (agree : ∀ k ≤ n, θ' k = θ k) :
    a.rename (renumber θ') = a.rename (renumber θ) := by
  cases a with
  | raster p rendering => rfl
  | vector f =>
    have inner : f.Fits W := fits
    have nodes := Svg.Node.renameAll_congr (ρ := renumber θ') (σ := renumber θ) f.nodes
      fun ref mem => renumber_offered world agree inner.table.within (inner.nodes ref mem)
    have definitions : f.definitions.rename (renumber θ') = f.definitions.rename (renumber θ) :=
      Definitions.rename_congr fun d mem => fits.rename_def_congr world agree mem
    rw [rename, rename, Fragment.rename, Fragment.rename, nodes, definitions]

end

/-- New ids under which no definition of an artifact is lost: those that come to have one id come to
be equal. -/
def Artifact.Faithful (ρ : String → String) (a : Artifact) : Prop :=
  ∀ d ∈ a.definitions, d.rename ρ ∈ (a.rename ρ).definitions

private theorem Artifact.mem_definitions_rename {ρ : String → String} {a : Artifact} {e : Def}
    (mem : e ∈ (a.rename ρ).definitions) : ∃ d ∈ a.definitions, e = d.rename ρ := by
  cases a with
  | raster p rendering => simp [rename, definitions] at mem
  | vector f =>
    obtain ⟨d, memD, rfl⟩ := List.mem_map.mp (Definitions.mem_of_mem_ofList mem)
    exact ⟨d, memD, rfl⟩

private theorem Artifact.exists_definition_rename {ρ : String → String} {a : Artifact} {d : Def}
    (mem : d ∈ a.definitions) : ∃ e ∈ (a.rename ρ).definitions, e.id = ρ d.id := by
  cases a with
  | raster p rendering => simp [definitions] at mem
  | vector f =>
    have present := (Definitions.contains_ofList (f.definitions.items.map (Def.rename ρ))
      (ρ d.id)).mpr ⟨d.rename ρ, List.mem_map_of_mem mem, d.rename_id⟩
    exact (Definitions.contains_iff _ _).mp present

namespace Evaluate

variable {g : Graph} {canvas : Canvas} {memo : Memo}

/-- An artifact of the evaluation with a memo, and what the evaluation without one makes instead:
the first is the second under new numbers. -/
structure Related (θ : Nat → Nat) (W : Def → Prop) (a b : Artifact) : Prop where
  eq : a = b.rename (renumber θ)
  fits : b.Fits W
  faithful : b.Faithful (renumber θ)

def RelatedInputs (θ : Nat → Nat) (W : Def → Prop) (p q : Inputs) : Prop :=
  ∀ handle, Option.Rel (Related θ W) (p.get handle) (q.get handle)

/-- New numbers, each between one and a limit, for all ids that were given out. -/
def Ranges (θ : Nat → Nat) (minted limit : Nat) : Prop :=
  ∀ k, 0 < k → k ≤ minted → 0 < θ k ∧ θ k ≤ limit

/-- How the evaluation without a memo goes on: the world grows, and numbers stay as they are. -/
structure GoesOn (r : Resolution) (limit : Nat) (θ : Nat → Nat) (minted : Nat) (W : Def → Prop)
    (θ' : Nat → Nat) (minted' : Nat) (W' : Def → Prop) : Prop where
  grown : Grown r minted W minted' W'
  agree : ∀ k ≤ minted, θ' k = θ k
  ranges : Ranges θ' minted' limit

private theorem GoesOn.refl {r : Resolution} {limit minted : Nat} {θ : Nat → Nat} {W : Def → Prop}
    (world : World r minted W) (ranges : Ranges θ minted limit) :
    GoesOn r limit θ minted W θ minted W := ⟨world.grown, fun _ _ => rfl, ranges⟩

private theorem GoesOn.trans {r : Resolution} {limit minted minted' minted'' : Nat}
    {θ θ' θ'' : Nat → Nat} {W W' W'' : Def → Prop} (h : GoesOn r limit θ minted W θ' minted' W')
    (h' : GoesOn r limit θ' minted' W' θ'' minted'' W'') :
    GoesOn r limit θ minted W θ'' minted'' W'' := by
  refine ⟨h.grown.trans h'.grown, ?_, h'.ranges⟩
  intro k bound
  rw [h'.agree k (Nat.le_trans bound h.grown.le), h.agree k bound]

private theorem Related.mono {r : Resolution} {minted : Nat} {θ θ' : Nat → Nat} {W W' : Def → Prop}
    {a b : Artifact} (related : Related θ W a b) (world : World r minted W)
    (sub : ∀ d, W d → W' d) (agree : ∀ k ≤ minted, θ' k = θ k) : Related θ' W' a b := by
  have same := related.fits.rename_congr world agree
  refine ⟨related.eq.trans same.symm, related.fits.mono sub, ?_⟩
  intro d mem
  rw [same, related.fits.rename_def_congr world agree mem]
  exact related.faithful d mem

private theorem RelatedInputs.mono {r : Resolution} {minted : Nat} {θ θ' : Nat → Nat}
    {W W' : Def → Prop} {p q : Inputs} (related : RelatedInputs θ W p q) (world : World r minted W)
    (sub : ∀ d, W d → W' d) (agree : ∀ k ≤ minted, θ' k = θ k) : RelatedInputs θ' W' p q := by
  intro handle
  have h := related handle
  generalize p.get handle = x at h ⊢
  generalize q.get handle = y at h ⊢
  cases h with
  | none => exact .none
  | some h => exact .some (h.mono world sub agree)

private theorem RelatedInputs.set {θ : Nat → Nat} {W : Def → Prop} {p q : Inputs} {a b : Artifact}
    (related : RelatedInputs θ W p q) (h : Related θ W a b) (handle : Handle) :
    RelatedInputs θ W (p.set a handle) (q.set b handle) := by
  intro other
  rw [Inputs.get_set, Inputs.get_set]
  split
  · exact .some h
  · exact related other

private theorem RelatedInputs.of_get {θ : Nat → Nat} {W : Def → Prop} {p q : Inputs}
    (related : RelatedInputs θ W p q) {handle : Handle} {b : Artifact}
    (connected : q.get handle = some b) :
    ∃ a, p.get handle = some a ∧ Related θ W a b := by
  have h := related handle
  rw [connected] at h
  generalize p.get handle = x at h
  cases h with
  | some h => exact ⟨_, rfl, h⟩

private theorem get_rename (ρ : String → String) (inputs : Inputs) (handle : Handle) :
    (inputs.rename ρ).get handle = (inputs.get handle).map (Artifact.rename ρ) := by
  cases handle <;> rfl

private theorem RelatedInputs.eq_rename {θ : Nat → Nat} {W : Def → Prop} {p q : Inputs}
    (related : RelatedInputs θ W p q) : p = q.rename (renumber θ) := by
  refine inputs_ext fun handle => ?_
  rw [get_rename]
  have h := related handle
  generalize p.get handle = x at h
  generalize q.get handle = y at h
  cases h with
  | none => rfl
  | some h => rw [Option.map_some, h.eq]

private theorem RelatedInputs.fits {θ : Nat → Nat} {W : Def → Prop} {p q : Inputs}
    (related : RelatedInputs θ W p q) : q.Fits W := by
  have each : ∀ handle b, q.get handle = some b → b.Fits W := by
    intro handle b connected
    obtain ⟨a, -, h⟩ := related.of_get connected
    exact h.fits
  exact ⟨each .only, each .first, each .second⟩

def inputDefinitions (q : Inputs) (d : Def) : Prop :=
  ∃ handle b, q.get handle = some b ∧ d ∈ b.definitions

private theorem inputs_fits_own {W : Def → Prop} {q : Inputs} (fits : q.Fits W) :
    q.Fits (inputDefinitions q) ∧ ∀ d, inputDefinitions q d → W d := by
  have each : ∀ handle b, q.get handle = some b → b.Fits W := by
    intro handle b connected
    cases handle with
    | only => exact fits.only b connected
    | first => exact fits.first b connected
    | second => exact fits.second b connected
  constructor
  · have own : ∀ handle b, q.get handle = some b → b.Fits (inputDefinitions q) := by
      intro handle b connected
      exact (each handle b connected).narrow fun d mem => ⟨handle, b, connected, mem⟩
    exact ⟨own .only, own .first, own .second⟩
  · rintro d ⟨handle, b, connected, mem⟩
    exact (each handle b connected).within mem

section

variable {settings : Settings} {θ : Nat → Nat} {W Ws : Def → Prop} {p q : Inputs}
  {a b : Artifact} {s t u v : Session}

/-- One operator applied in both evaluations, to inputs that correspond: `p` and from `s` to `t` with
a memo, `q` and from `u` to `v` without. The next numbers of the one go to those of the other. -/
structure Step (canvas : Canvas) (settings : Settings) (θ : Nat → Nat) (Ws W : Def → Prop)
    (p q : Inputs) (s t u v : Session) (a b : Artifact) : Prop where
  world : World canvas.resolution u.minted W
  inputs : RelatedInputs θ W p q
  made : (settings.apply canvas q).Yields u b v
  sharedWorld : World canvas.resolution s.minted Ws
  sharedFits : p.Fits Ws
  sharedMade : (settings.apply canvas p).Yields s a t
  shift : ∀ i, θ (u.minted + (i + 1)) = s.minted + (i + 1)

private theorem Step.tracks (step : Step canvas settings θ Ws W p q s t u v a b) :
    Tracks (renumber θ) u s := by
  intro stem i
  rw [renumber_mintedId, step.shift]

private theorem Step.mirrored (step : Step canvas settings θ Ws W p q s t u v a b)
    (paintless : settings.bakes = false) :
    a = b.rename (renumber θ) ∧ ∃ k, v.minted = u.minted + k ∧ t.minted = s.minted + k := by
  have outcome := Settings.apply_mirrors (renumber_filterId θ) settings canvas paintless q u s
    step.tracks
  have made : (settings.apply canvas q).after u = (.ok b, v) := step.made
  have sharedMade : (settings.apply canvas (q.rename (renumber θ))).after s = (.ok a, t) := by
    rw [← step.inputs.eq_rename]
    exact step.sharedMade
  rw [made, sharedMade] at outcome
  exact outcome

private theorem Step.input_rename (step : Step canvas settings θ Ws W p q s t u v a b) {d : Def}
    (mem : inputDefinitions q d) : Ws (d.rename (renumber θ)) := by
  obtain ⟨handle, c, connected, mem⟩ := mem
  obtain ⟨c', connected', related⟩ := step.inputs.of_get connected
  have fits : c'.Fits Ws := by
    cases handle with
    | only => exact step.sharedFits.only c' connected'
    | first => exact step.sharedFits.first c' connected'
    | second => exact step.sharedFits.second c' connected'
  refine fits.within ?_
  rw [related.eq]
  exact related.faithful d mem

private theorem Step.renumber_new (step : Step canvas settings θ Ws W p q s t u v a b)
    (stem : String) {k : Nat} (new : u.minted < k) :
    renumber θ (mintedId stem k) = mintedId stem (s.minted + (k - u.minted)) := by
  obtain ⟨i, rfl⟩ : ∃ i, k = u.minted + (i + 1) := ⟨k - u.minted - 1, by omega⟩
  rw [renumber_mintedId, step.shift, Nat.add_sub_cancel_left]

private theorem Step.renumber_new_inj (step : Step canvas settings θ Ws W p q s t u v a b)
    {stem stem' : String} {k k' : Nat} (new : u.minted < k) (new' : u.minted < k')
    (same : renumber θ (mintedId stem' k') = renumber θ (mintedId stem k)) :
    mintedId stem' k' = mintedId stem k := by
  rw [step.renumber_new stem new, step.renumber_new stem' new', mintedId_inj] at same
  rw [mintedId_inj]
  exact ⟨same.1, by omega⟩

private theorem Step.renumber_old_ne (step : Step canvas settings θ Ws W p q s t u v a b) {d : Def}
    (mem : inputDefinitions q d) (stem : String) {k : Nat} (new : u.minted < k) :
    renumber θ d.id ≠ renumber θ (mintedId stem k) := by
  intro same
  rw [step.renumber_new stem new, ← Def.rename_id (ρ := renumber θ)] at same
  rcases step.sharedWorld.origin _ (step.input_rename mem) with ⟨l, h⟩ | ⟨stem', k', bound, h⟩
  · rw [h] at same
    exact l.filterId_ne_mintedId _ _ same
  · rw [h, mintedId_inj] at same
    omega

private theorem Step.faithful (step : Step canvas settings θ Ws W p q s t u v a b)
    (paintless : settings.bakes = false) : b.Faithful (renumber θ) := by
  obtain ⟨same, -⟩ := step.mirrored paintless
  obtain ⟨fitsOwn, sub⟩ := inputs_fits_own step.inputs.fits
  obtain ⟨-, V, grown, fitsB⟩ :=
    Settings.apply_keeps settings canvas fitsOwn u b v (step.world.mono sub) step.made
  obtain ⟨-, Wt, grownA, fitsA⟩ :=
    Settings.apply_keeps settings canvas step.sharedFits s a t step.sharedWorld step.sharedMade
  intro d mem
  obtain ⟨e, memE, sameId⟩ := Artifact.exists_definition_rename (ρ := renumber θ) mem
  have he : Wt e := fitsA.within (by rwa [same])
  obtain ⟨c, memC, rfl⟩ := Artifact.mem_definitions_rename memE
  rw [Def.rename_id] at sameId
  -- the definition that stands for `d` comes from where `d` comes from
  rcases grown.origin d (fitsB.within mem) with hd | ⟨l, rfl⟩ | ⟨stem, k, low, high, hd⟩
  · have equal := grownA.world.agree _ _ he (grownA.sub _ (step.input_rename hd))
      (by rw [Def.rename_id, Def.rename_id, sameId])
    rwa [← equal]
  · have kept := Silhouette.rename_filter (r := canvas.resolution) (renumber_filterId θ) l
    rcases grownA.world.origin _ he with ⟨l', h⟩ | ⟨stem, k, -, h⟩
    · rw [h] at memE
      have ids : l'.filterId = l.filterId := by
        have first : (l'.filter canvas.resolution).id = renumber θ c.id := by
          rw [← h, Def.rename_id]
        exact first.trans (sameId.trans (renumber_filterId θ l))
      rw [Silhouette.filterId_inj.mp ids] at memE
      rwa [kept]
    · rw [Def.rename_id, sameId] at h
      exact absurd ((renumber_filterId θ l).symm.trans h) (l.filterId_ne_mintedId stem k)
  · rw [hd] at sameId
    rcases grown.origin c (fitsB.within memC) with hc | ⟨l, rfl⟩ | ⟨stem', k', low', high', hc⟩
    · exact absurd sameId (step.renumber_old_ne hc stem low)
    · have ids : l.filterId = renumber θ (mintedId stem k) :=
        (renumber_filterId θ l).symm.trans sameId
      rw [renumber_mintedId] at ids
      exact absurd ids (l.filterId_ne_mintedId _ _)
    · rw [hc] at sameId
      have ids : c.id = d.id := by rw [hc, hd, step.renumber_new_inj low low' sameId]
      have equal := grown.world.agree c d (fitsB.within memC) (fitsB.within mem) ids
      rwa [← equal]

private theorem Step.goesOn {limit : Nat} (world : World canvas.resolution u.minted W)
    (ranges : Ranges θ u.minted limit) (inputs : RelatedInputs θ W p q)
    (made : (settings.apply canvas q).Yields u b v)
    (sharedWorld : World canvas.resolution s.minted Ws) (sharedFits : p.Fits Ws)
    (sharedMade : (settings.apply canvas p).Yields s a t) (bound : t.minted ≤ limit)
    (paintless : settings.bakes = false) :
    ∃ θ' W', GoesOn canvas.resolution limit θ u.minted W θ' v.minted W' ∧ Related θ' W' a b := by
  let θ' : Nat → Nat := fun k => if k ≤ u.minted then θ k else s.minted + (k - u.minted)
  have agree : ∀ k ≤ u.minted, θ' k = θ k := fun k small => if_pos small
  have shift : ∀ i, θ' (u.minted + (i + 1)) = s.minted + (i + 1) := by
    intro i
    have above : ¬ u.minted + (i + 1) ≤ u.minted := by omega
    simp only [θ', if_neg above, Nat.add_sub_cancel_left]
  have step : Step canvas settings θ' Ws W p q s t u v a b :=
    ⟨world, inputs.mono world (fun _ h => h) agree, made, sharedWorld, sharedFits, sharedMade, shift⟩
  obtain ⟨same, k, hv, ht⟩ := step.mirrored paintless
  obtain ⟨-, W', grown, fits⟩ := Settings.apply_keeps settings canvas inputs.fits u b v world made
  refine ⟨θ', W', ⟨grown, agree, ?_⟩, same, fits, step.faithful paintless⟩
  intro j positive small
  by_cases old : j ≤ u.minted
  · rw [agree j old]
    exact ranges j positive old
  · obtain ⟨i, rfl⟩ : ∃ i, j = u.minted + (i + 1) := ⟨j - u.minted - 1, by omega⟩
    rw [shift]
    omega

end

/-- A visit that makes again what the memo answers, whatever was done before. -/
def Retraces (r : Resolution) (memo : Memo) (limit : Nat) (visit : Work Artifact)
    (source : String) : Prop :=
  ∀ u θ W b v, World r u.minted W → Ranges θ u.minted limit → visit.Yields u b v →
    ∃ θ' W', GoesOn r limit θ u.minted W θ' v.minted W' ∧ Related θ' W' (answer memo source) b

private theorem gatherEach_retraces {r : Resolution} {limit : Nat} (visit : String → Work Artifact)
    (id : String) (handles : List Handle)
    (visits : ∀ source ∈ g.feeds id handles, Retraces r memo limit (visit source) source)
    {θ : Nat → Nat} {W : Def → Prop} {p q q' : Inputs} {u v : Session}
    (world : World r u.minted W) (ranges : Ranges θ u.minted limit)
    (related : RelatedInputs θ W p q)
    (yields : (gatherEach visit g id handles q).Yields u q' v) :
    ∃ θ' W', GoesOn r limit θ u.minted W θ' v.minted W' ∧
      RelatedInputs θ' W' (handles.foldl (fill g memo id) p) q' := by
  induction handles generalizing θ W p q u with
  | nil =>
    obtain ⟨rfl, rfl⟩ := (Work.yields_pure _ _ _ _).mp yields
    exact ⟨θ, W, GoesOn.refl world ranges, related⟩
  | cons handle handles ih =>
    rw [gatherEach] at yields
    cases found : g.producer? id handle with
    | none =>
      rw [Graph.feeds_cons_none found] at visits
      simp only [found] at yields
      simp only [List.foldl_cons, fill, found]
      exact ih visits world ranges related yields
    | some source =>
      rw [Graph.feeds_cons_some found] at visits
      simp only [found, Work.yields_bind] at yields
      obtain ⟨b, w, visited, rest⟩ := yields
      obtain ⟨θ₁, W₁, goes, made⟩ := visits source List.mem_cons_self u θ W b w world ranges visited
      have related₁ := (related.mono world goes.grown.sub goes.agree).set made handle
      obtain ⟨θ₂, W₂, goes', related₂⟩ :=
        ih (fun k mem => visits k (List.mem_cons_of_mem source mem)) goes.grown.world goes.ranges
          related₁ rest
      refine ⟨θ₂, W₂, goes.trans goes', ?_⟩
      simpa only [List.foldl_cons, fill, found] using related₂

/-- Evaluation without a memo makes again what the memo answers. -/
private theorem unshared_retraces {limit : Nat} (justified : Justified g canvas memo limit)
    (closed : Closed g memo) (fuel : Nat) (id : String) (paintless : Paintless g id)
    (done : g.Has id → Done memo id) :
    Retraces canvas.resolution memo limit (unshared g canvas fuel id) id := by
  induction fuel generalizing id with
  | zero =>
    intro u θ W b v _ _ yields
    simp [unshared] at yields
  | succ fuel ih =>
    intro u θ W b v world ranges yields
    rw [unshared] at yields
    cases found : g.node? id with
    | none =>
      have missing : ¬ Done memo id := fun h => Graph.not_has_iff.mpr found (closed.has id h)
      simp only [found, Work.yields_pure] at yields
      obtain ⟨rfl, rfl⟩ := yields
      refine ⟨θ, W, GoesOn.refl world ranges, ?_⟩
      rw [answer_of_not_done missing]
      refine ⟨rfl, Artifact.Fits.empty W, ?_⟩
      intro d mem
      simp [Artifact.definitions, Artifact.empty, Fragment.empty, Definitions.empty] at mem
    | some n =>
      have has : g.Has id := Graph.has_iff.mpr ⟨n, found⟩
      -- How the memo came by its answer; the same operator is applied here once more.
      obtain ⟨m, s, t, Ws, rfl, made⟩ := justified id (done has)
      obtain rfl : n = m := Option.some.inj (found.symm.trans made.found)
      simp only [found, Work.yields_bind] at yields
      obtain ⟨q, w, gathered, applied⟩ := yields
      have start : RelatedInputs θ W Inputs.none Inputs.none := by
        intro handle
        rw [Inputs.get_none]
        exact .none
      have visits : ∀ source ∈ g.feeds n.id n.operator.handles,
          Retraces canvas.resolution memo limit (unshared g canvas fuel source) source := by
        intro source mem
        have edge : g.Reads n.id source := (Graph.reads_iff found).mpr mem
        exact ih source (paintless.of_reads edge) (closed.reads n.id (done has) source edge)
      obtain ⟨θ₁, W₁, goes, related⟩ :=
        gatherEach_retraces _ n.id n.operator.handles visits world ranges start gathered
      obtain ⟨θ₂, W₂, goes', result⟩ := Step.goesOn goes.grown.world goes.ranges related applied
        made.world made.fits made.yields made.bound (paintless.bakes_eq_false found)
      exact ⟨θ₂, W₂, goes.trans goes', result⟩

private theorem naive_retraces {root : Option String} {n : Node} {a b : Artifact} {t u : Session}
    (start : root? g root = some n) (paintless : Paintless g n.id)
    (yields : (walk g canvas root).Yields Session.start (a, memo) t)
    (yields' : (naive g canvas root).Yields Session.start b u) :
    ∃ θ W, GoesOn canvas.resolution t.minted (fun k => k) 0 (fun _ => False) θ u.minted W ∧
      Related θ W a b := by
  obtain ⟨⟨-, justified⟩, ran⟩ := walk_justified yields
  obtain ⟨done, rfl⟩ := ran.answer_eq n start
  simp only [naive, start] at yields'
  refine unshared_retraces justified ran.closed (g.nodes.length + 1) n.id paintless
    (fun _ => done) Session.start (fun k => k) (fun _ => False) b u (World.empty _ _) ?_ yields'
  intro k positive none
  simp only [Session.start] at none
  omega

private theorem schedule_decided {n : Node} (acyclic : g.AcyclicFrom n.id)
    (paintless : Paintless g n.id) :
    (schedule g canvas n.id).Decided
      ((g.unrolled (g.nodes.length + 1) n.id).findSome? (nodeFault g)) := by
  rw [← findSome?_eraseDups]
  refine performAll_decided (g.postorder n.id) [] ?_
  intro id mem m found
  have depends := (((Graph.isSchedule_postorder acyclic).mem_iff id).mp mem).1
  exact (bakes_ofBag m.operator m.bag).mpr (paintless id m depends found)

/-- Below a root without cycles and without inputs that are painted, a memo changes nothing but the
numbers in ids. Evaluation with and without one meets the same fault; or there is one renaming of
the ids given out without a memo, which keeps their stems and the silhouette filters, that turns the
nodes of the one artifact into those of the other, and the definitions, of which the first of each
id stay and all others are repetitions. -/
theorem artifact_eq_naive (g : Graph) (canvas : Canvas) (root : Option String)
    (acyclic : ∀ n, root? g root = some n → g.AcyclicFrom n.id)
    (paintless : ∀ n, root? g root = some n → Paintless g n.id) :
    (∃ e t u, (artifact g canvas root).after Session.start = (.error e, t) ∧
      (naive g canvas root).after Session.start = (.error e, u)) ∨
    ∃ a t b u ρ, (artifact g canvas root).Yields Session.start a t ∧
      (naive g canvas root).Yields Session.start b u ∧ FixesSilhouettes ρ ∧
      (∀ stem k, 0 < k → k ≤ u.minted →
        ∃ j, 0 < j ∧ j ≤ t.minted ∧ ρ (mintedId stem k) = mintedId stem j) ∧
      a = b.rename ρ ∧ b.Faithful ρ := by
  cases start : root? g root with
  | none =>
    right
    refine ⟨.empty, Session.start, .empty, Session.start, fun id => id, ?_, ?_, fun _ => rfl, ?_,
      rfl, ?_⟩
    · simp [artifact, walk, start]
    · simp [naive, start]
    · intro stem k positive none
      simp only [Session.start] at none
      omega
    · intro d mem
      simp [Artifact.definitions, Artifact.empty, Fragment.empty, Definitions.empty] at mem
  | some n =>
    have trail := Graph.Trail.nil g n.id
    have decided : (schedule g canvas n.id).Decided _ :=
      schedule_decided (acyclic n start) (paintless n start)
    have decided' : (unshared g canvas (g.nodes.length + 1) n.id).Decided _ :=
      unshared_decided _ [] n.id (acyclic n start) (paintless n start) trail (by simp)
    have walked : walk g canvas root = _ := walk_eq_schedule start (acyclic n start)
    -- The first fault in the unrolled order is the one of both evaluations, if there is any.
    cases fault : (g.unrolled (g.nodes.length + 1) n.id).findSome? (nodeFault g) with
    | some e =>
      left
      rw [fault] at decided decided'
      obtain ⟨t, failed⟩ := decided Session.start
      obtain ⟨u, failed'⟩ := decided' Session.start
      refine ⟨e, t, u, ?_, ?_⟩
      · simp only [artifact, walked, map_eq_pure_bind, Work.after_bind, failed]
      · simpa only [naive, start] using failed'
    | none =>
      right
      rw [fault] at decided decided'
      obtain ⟨memo, t, made⟩ := decided Session.start
      obtain ⟨b, u, made'⟩ := decided' Session.start
      have yields : (walk g canvas root).Yields Session.start (answer memo n.id, memo) t := by
        rw [walked, Work.yields_map]
        exact ⟨memo, made, rfl⟩
      have yields' : (naive g canvas root).Yields Session.start b u := by
        simpa only [naive, start] using made'
      obtain ⟨θ, W, goes, related⟩ := naive_retraces start (paintless n start) yields yields'
      refine ⟨answer memo n.id, t, b, u, renumber θ, ?_, yields', renumber_filterId θ, ?_,
        related.eq, related.faithful⟩
      · rw [artifact, Work.yields_bind]
        exact ⟨_, t, yields, by simp⟩
      · intro stem k positive small
        obtain ⟨low, high⟩ := goes.ranges k positive small
        exact ⟨θ k, low, high, renumber_mintedId θ stem k⟩

def sharedMask : Graph where
  nodes := [⟨"out", .add, []⟩, ⟨"left", .subtract, []⟩, ⟨"right", .subtract, []⟩,
    ⟨"tint", .color, []⟩, ⟨"base", .circle, []⟩]
  edges := [⟨"1", "left", "out", "out", "a"⟩, ⟨"2", "right", "out", "out", "b"⟩,
    ⟨"3", "base", "out", "left", "a"⟩, ⟨"4", "tint", "out", "left", "b"⟩,
    ⟨"5", "tint", "out", "right", "b"⟩, ⟨"6", "base", "out", "tint", "in"⟩]

theorem artifact_sharedMask :
    ∃ a t b u ρ,
      (artifact sharedMask ⟨.standard, fun _ _ => .error (.other "")⟩ (some "out")).Yields
        Session.start a t ∧
      (naive sharedMask ⟨.standard, fun _ _ => .error (.other "")⟩ (some "out")).Yields
        Session.start b u ∧
      t.minted = 3 ∧ u.minted = 4 ∧ FixesSilhouettes ρ ∧ a = b.rename ρ := by
  have shared : ∃ a t,
      (artifact sharedMask ⟨.standard, fun _ _ => .error (.other "")⟩ (some "out")).Yields
        Session.start a t ∧ t.minted = 3 := ⟨_, _, rfl, rfl⟩
  have each : ∃ b u,
      (naive sharedMask ⟨.standard, fun _ _ => .error (.other "")⟩ (some "out")).Yields
        Session.start b u ∧ u.minted = 4 := ⟨_, _, rfl, rfl⟩
  obtain ⟨a₀, t₀, made, three⟩ := shared
  obtain ⟨b₀, u₀, made', four⟩ := each
  have outcome := artifact_eq_naive sharedMask ⟨.standard, fun _ _ => .error (.other "")⟩
    (some "out")
    (fun n _ => Graph.AcyclicFrom.of_ranks
      (fun id => (["base", "tint", "left", "right", "out"].idxOf? id).getD 0) (by decide +kernel))
    (fun n _ id m _ found =>
      (by decide : ∀ m ∈ sharedMask.nodes, m.operator ≠ .pixelate ∧ m.operator ≠ .polar) m
        (List.mem_of_find?_eq_some found))
  rcases outcome with ⟨e, t, u, failed, -⟩ | ⟨a, t, b, u, ρ, made₁, made₂, fixes, -, same, -⟩
  · rw [made] at failed
    simp at failed
  · obtain ⟨rfl, rfl⟩ := made.unique made₁
    obtain ⟨rfl, rfl⟩ := made'.unique made₂
    exact ⟨a₀, t₀, b₀, u₀, ρ, made, made', three, four, fixes, same⟩

end Evaluate

end Texture
