/- Texture/Proofs/Evaluate/Scope
   digest: Everything that an evaluation makes is well scoped, and all its definitions agree. -/

import Mathlib.Algebra.Group.Nat.Defs
import Texture.Proofs.Evaluate.Run
import Texture.Proofs.Operator.Scope

set_option autoImplicit false
set_option relaxedAutoImplicit false

namespace Texture

open Svg (Def Offers)

/-- A fragment without a second definition of any id, in which all references, at any depth and
inside of masks, find a definition of the right kind, and those inside of a mask an earlier one. -/
structure Fragment.WellScoped (f : Fragment) : Prop where
  distinct : (f.definitions.items.map Def.id).Nodup
  nodes : ∀ ref ∈ Svg.Node.referencesAll f.nodes, Offers f.definitions.items ref
  contents : ∀ d ∈ f.definitions.items, ∀ ref ∈ d.references, Offers f.definitions.items ref
  earlier : ∀ before d after, f.definitions.items = before ++ d :: after →
    ∀ ref ∈ d.references, Offers before ref

def Artifact.definitions : Artifact → List Def
  | .vector f => f.definitions.items
  | .raster _ _ => []

theorem Fragment.Fits.wellScoped {W : Def → Prop} {f : Fragment} (fits : f.Fits W) :
    f.WellScoped := by
  refine ⟨fits.table.ordered.distinct, fits.nodes, ?_, fits.table.ordered.earlier⟩
  intro d mem ref memRef
  obtain ⟨before, after, split⟩ := List.append_of_mem mem
  refine (fits.table.ordered.earlier before d after split ref memRef).mono ?_
  rw [split]
  exact List.subset_append_left _ _

theorem Artifact.Fits.within {W : Def → Prop} {a : Artifact} (fits : a.Fits W) {d : Def}
    (mem : d ∈ a.definitions) : W d := by
  cases a with
  | vector f => exact Fragment.Fits.table fits |>.within d mem
  | raster p rendering => simp [definitions] at mem

namespace Evaluate

/-- The artifacts of an evaluation: the one it yields and those it keeps. -/
def Held (a : Artifact) (memo : Memo) (b : Artifact) : Prop := b = a ∨ ∃ id, (id, b) ∈ memo

/-- What holds between two nodes of an evaluation: its definitions agree, its artifacts fit them,
and it gave out at most two ids for each node. -/
structure Orderly (r : Resolution) (memo : Memo) (s : Session) : Prop where
  world : ∃ W, World r s.minted W ∧ ∀ id, (answer memo id).Fits W
  minted : s.minted ≤ 2 * memo.length
  nodup : (memo.map Prod.fst).Nodup

variable {g : Graph} {canvas : Canvas} {memo : Memo}

theorem inputsFrom_fits {W : Def → Prop} (fits : ∀ id, (answer memo id).Fits W) (n : Node) :
    (inputsFrom g memo n).Fits W := by
  have each : ∀ handle a, (inputsFrom g memo n).get handle = some a → a.Fits W := by
    intro handle a connected
    rw [get_inputsFrom] at connected
    split at connected
    · obtain ⟨source, -, rfl⟩ := Option.map_eq_some_iff.mp connected
      exact fits source
    · simp at connected
  exact ⟨each .only, each .first, each .second⟩

theorem answer_cons (memo : Memo) (id : String) (a : Artifact) (k : String) :
    answer ((id, a) :: memo) k = if k = id then a else answer memo k := by
  by_cases same : k = id
  · simp [answer, same]
  · simp [answer, same, Table.lookup_cons_of_ne same]

private theorem mem_fst_iff_done (memo : Memo) (id : String) :
    id ∈ memo.map Prod.fst ↔ Done memo id := by
  induction memo with
  | nil => simp [not_done_nil]
  | cons row memo ih =>
    obtain ⟨k, a⟩ := row
    rw [List.map_cons, List.mem_cons, ih, done_cons]

private theorem answer_of_mem {id : String} {a : Artifact} (nodup : (memo.map Prod.fst).Nodup)
    (mem : (id, a) ∈ memo) : answer memo id = a := by
  induction memo with
  | nil => simp at mem
  | cons row memo ih =>
    obtain ⟨k, b⟩ := row
    rw [List.map_cons, List.nodup_cons] at nodup
    rw [answer_cons]
    rcases List.mem_cons.mp mem with same | later
    · cases same
      simp
    · have apart : id ≠ k := by
        intro same
        exact nodup.1 (List.mem_map.mpr ⟨(id, a), later, same⟩)
      rw [if_neg apart, ih nodup.2 later]

/-- An operator applied to what an orderly evaluation made keeps it orderly. -/
theorem Orderly.step {n : Node} {s t : Session} {a : Artifact}
    (orderly : Orderly canvas.resolution memo s) (fresh : ¬ Done memo n.id)
    (yields : ((Settings.ofBag n.operator n.bag).apply canvas (inputsFrom g memo n)).Yields s a t) :
    Orderly canvas.resolution ((n.id, a) :: memo) t := by
  obtain ⟨W, world, fits⟩ := orderly.world
  obtain ⟨few, W', grown, fitsA⟩ :=
    Settings.apply_keeps _ canvas (inputsFrom_fits fits n) s a t world yields
  refine ⟨⟨W', grown.world, ?_⟩, ?_, ?_⟩
  · intro id
    rw [answer_cons]
    split
    · exact fitsA
    · exact (fits id).mono grown.sub
  · have before := orderly.minted
    rw [List.length_cons]
    omega
  · rw [List.map_cons, List.nodup_cons, mem_fst_iff_done]
    exact ⟨fresh, orderly.nodup⟩

theorem start_orderly (r : Resolution) : Orderly r [] Session.start := by
  refine ⟨⟨_, World.empty _ _, ?_⟩, Nat.zero_le _, List.nodup_nil⟩
  intro id
  exact Artifact.Fits.empty _

private theorem walk_orderly {root : Option String} {a : Artifact} {t : Session}
    (yields : (walk g canvas root).Yields Session.start (a, memo) t) :
    Orderly canvas.resolution memo t ∧ Ran g root a memo := by
  refine walk_induction yields (start_orderly _) ?_
  intro memo n s a t _ _ fresh _ orderly made
  exact orderly.step fresh made

private theorem Closed.length_le (closed : Closed g memo) (nodup : (memo.map Prod.fst).Nodup) :
    memo.length ≤ g.nodes.length := by
  have within : memo.map Prod.fst ⊆ g.nodes.map Node.id := by
    intro id mem
    obtain ⟨n, found⟩ := Graph.has_iff.mp (closed.has id ((mem_fst_iff_done memo id).mp mem))
    exact List.mem_map.mpr ⟨n, List.mem_of_find?_eq_some found, Graph.node?_id found⟩
  simpa using (nodup.subperm within).length_le

/-- All fragments that an evaluation makes are well scoped, and definitions of any two of its
artifacts that share an id are equal. With fewer than `2 ^ 31` nodes, the ids that it gives out can
be counted in 32 bits. -/
theorem artifact_wellScoped (g : Graph) (canvas : Canvas) (root : Option String) (a : Artifact)
    (t : Session) (yields : (artifact g canvas root).Yields Session.start a t) :
    ∃ memo, (walk g canvas root).Yields Session.start (a, memo) t ∧
      (∀ f, Held a memo (.vector f) → f.WellScoped) ∧
      (∀ b c, Held a memo b → Held a memo c → ∀ d ∈ b.definitions, ∀ e ∈ c.definitions,
        d.id = e.id → d = e) ∧
      (g.nodes.length < 2 ^ 31 → t.minted < 2 ^ 32) := by
  simp only [artifact, Work.yields_bind, Work.yields_pure] at yields
  obtain ⟨⟨a', memo⟩, u, walked, rfl, rfl⟩ := yields
  obtain ⟨orderly, ran⟩ := walk_orderly walked
  obtain ⟨W, world, fits⟩ := orderly.world
  have held : ∀ b, Held a' memo b → b.Fits W := by
    rintro b (rfl | ⟨id, mem⟩)
    · cases start : root? g root with
      | none =>
        rw [ran.empty_eq start]
        exact Artifact.Fits.empty W
      | some n =>
        rw [(ran.answer_eq n start).2]
        exact fits n.id
    · rw [← answer_of_mem orderly.nodup mem]
      exact fits id
  refine ⟨memo, walked, ?_, ?_, ?_⟩
  · intro f heldF
    exact Fragment.Fits.wellScoped (held _ heldF)
  · intro b c heldB heldC d memD e memE same
    exact world.agree d e ((held b heldB).within memD) ((held c heldC).within memE) same
  · intro few
    have bound := ran.closed.length_le orderly.nodup
    have minted := orderly.minted
    omega

/-- A tinted circle less a circle that a ramp fades, in two ways joined again. -/
def maskedGraph : Graph where
  nodes := [⟨"out", .output, []⟩, ⟨"both", .multiply, []⟩, ⟨"less", .subtract, []⟩,
    ⟨"tint", .color, []⟩, ⟨"fade", .gradientFade, []⟩, ⟨"base", .circle, []⟩]
  edges := [⟨"1", "both", "out", "out", "in"⟩, ⟨"2", "less", "out", "both", "a"⟩,
    ⟨"3", "tint", "out", "both", "b"⟩, ⟨"4", "tint", "out", "less", "a"⟩,
    ⟨"5", "fade", "out", "less", "b"⟩, ⟨"6", "base", "out", "tint", "in"⟩,
    ⟨"7", "base", "out", "fade", "in"⟩]

theorem artifact_maskedGraph :
    ∃ a t memo, (artifact maskedGraph ⟨.standard, fun _ _ => .error (.other "")⟩ none).Yields
        Session.start a t ∧
      (∀ f, Held a memo (.vector f) → f.WellScoped) ∧ t.minted < 2 ^ 32 := by
  have succeeds : ∃ a t,
      (artifact maskedGraph ⟨.standard, fun _ _ => .error (.other "")⟩ none).Yields
        Session.start a t := ⟨_, _, rfl⟩
  obtain ⟨a, t, yields⟩ := succeeds
  obtain ⟨memo, -, wellScoped, -, bound⟩ := artifact_wellScoped maskedGraph _ none a t yields
  exact ⟨a, t, memo, yields, wellScoped, bound (by decide)⟩

end Evaluate

end Texture
