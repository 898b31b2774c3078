/- Texture/Proofs/Svg/Rename
   digest: New ids for definitions and for all that refers to them. -/

import Texture.Proofs.Svg.Scope

set_option autoImplicit false
set_option relaxedAutoImplicit false

namespace Texture.Svg

section

variable (ρ : String → String)

def Paint.rename : Paint → Paint
  | .reference id => .reference (ρ id)
  | paint => paint

def Style.rename (s : Style) : Style :=
  { s with fill := s.fill.rename ρ, stroke := s.stroke.rename ρ }

def Effects.rename (e : Effects) : Effects :=
  { e with filter := e.filter.map ρ, mask := e.mask.map ρ }

namespace Node

mutual

def rename : Node → Node
  | shape geometry style => shape geometry (style.rename ρ)
  | group effects children => group (effects.rename ρ) (renameAll children)
  | image box address rendering => image box address rendering

def renameAll : List Node → List Node
  | [] => []
  | n :: ns => rename n :: renameAll ns

end

end Node

def Def.rename : Def → Def
  | .gradient g => .gradient { g with id := ρ g.id }
  | .filter id region primitives => .filter (ρ id) region primitives
  | .mask id region content => .mask (ρ id) region (Node.renameAll ρ content)

/-- Gives new ids to a table; of definitions whose ids come to be the same the first counts. -/
def Definitions.rename (ds : Definitions) : Definitions :=
  .ofList (ds.items.map (Def.rename ρ))

end

variable {ρ σ : String → String}

theorem Def.rename_gradient (g : LinearGradient) :
    (Def.gradient g).rename ρ = .gradient { g with id := ρ g.id } := rfl

theorem Def.rename_filter (id : String) (region : Region) (primitives : List Primitive) :
    (Def.filter id region primitives).rename ρ = .filter (ρ id) region primitives := rfl

theorem Def.rename_mask (id : String) (region : Region) (content : List Node) :
    (Def.mask id region content).rename ρ = .mask (ρ id) region (Node.renameAll ρ content) := rfl

theorem Def.rename_id (d : Def) : (d.rename ρ).id = ρ d.id := by
  cases d <;> rfl

namespace Node

@[simp] theorem renameAll_append (ns ms : List Node) :
    renameAll ρ (ns ++ ms) = renameAll ρ ns ++ renameAll ρ ms := by
  induction ns with
  | nil => simp [renameAll]
  | cons n ns ih => simp [renameAll, ih]

mutual

private theorem rename_restyle {f : Style → Style}
    (h : ∀ style, f (style.rename ρ) = (f style).rename ρ) (n : Node) :
    restyle f (n.rename ρ) = (restyle f n).rename ρ := by
  cases n with
  | shape geometry style => simp only [rename, restyle, h]
  | group effects children => simp only [rename, restyle, rename_restyleAll h children]
  | image box address rendering => rfl

theorem rename_restyleAll {f : Style → Style}
    (h : ∀ style, f (style.rename ρ) = (f style).rename ρ) (ns : List Node) :
    restyleAll f (renameAll ρ ns) = renameAll ρ (restyleAll f ns) := by
  cases ns with
  | nil => rfl
  | cons n ns => simp only [renameAll, restyleAll, rename_restyle h n, rename_restyleAll h ns]

end

end Node

private theorem Paint.rename_congr {paint : Paint}
    (h : ∀ ref ∈ paint.references, ρ ref.id = σ ref.id) : paint.rename ρ = paint.rename σ := by
  cases paint with
  | none => rfl
  | color c => rfl
  | reference id => simp only [rename, h ⟨.gradient, id⟩ (by simp [references])]

private theorem Style.rename_congr {s : Style} (h : ∀ ref ∈ s.references, ρ ref.id = σ ref.id) :
    s.rename ρ = s.rename σ := by
  have fill : s.fill.rename ρ = s.fill.rename σ :=
    Paint.rename_congr fun ref mem => h ref (List.mem_append_left _ mem)
  have stroke : s.stroke.rename ρ = s.stroke.rename σ :=
    Paint.rename_congr fun ref mem => h ref (List.mem_append_right _ mem)
  rw [rename, rename, fill, stroke]

private theorem Effects.rename_congr {e : Effects} (h : ∀ ref ∈ e.references, ρ ref.id = σ ref.id) :
    e.rename ρ = e.rename σ := by
  have filter : e.filter.map ρ = e.filter.map σ := by
    cases named : e.filter with
    | none => rfl
    | some id =>
      have same := h ⟨.filter, id⟩ (by simp [references, named])
      simpa using same
  have mask : e.mask.map ρ = e.mask.map σ := by
    cases named : e.mask with
    | none => rfl
    | some id =>
      have same := h ⟨.mask, id⟩ (by simp [references, named])
      simpa using same
  rw [rename, rename, filter, mask]

namespace Node

mutual

theorem rename_congr (n : Node) (h : ∀ ref ∈ n.references, ρ ref.id = σ ref.id) :
    n.rename ρ = n.rename σ := by
  cases n with
  | shape geometry style => rw [rename, rename, Style.rename_congr h]
  | group effects children =>
    rw [references] at h
    have own : effects.rename ρ = effects.rename σ :=
      Effects.rename_congr fun ref mem => h ref (List.mem_append_left _ mem)
    have below := renameAll_congr children fun ref mem => h ref (List.mem_append_right _ mem)
    rw [rename, rename, own, below]
  | image box address rendering => rfl

theorem renameAll_congr (ns : List Node) (h : ∀ ref ∈ referencesAll ns, ρ ref.id = σ ref.id) :
    renameAll ρ ns = renameAll σ ns := by
  cases ns with
  | nil => rfl
  | cons n ns =>
    rw [referencesAll] at h
    have first := rename_congr n fun ref mem => h ref (List.mem_append_left _ mem)
    have rest := renameAll_congr ns fun ref mem => h ref (List.mem_append_right _ mem)
    rw [renameAll, renameAll, first, rest]

end

end Node

theorem Def.rename_congr {d : Def} (own : ρ d.id = σ d.id)
    (h : ∀ ref ∈ d.references, ρ ref.id = σ ref.id) : d.rename ρ = d.rename σ := by
  cases d with
  | gradient g =>
    simp only [Def.id] at own
    rw [rename, rename, own]
  | filter id region primitives =>
    simp only [Def.id] at own
    rw [rename, rename, own]
  | mask id region content =>
    simp only [Def.id] at own
    rw [rename, rename, own, Node.renameAll_congr content h]

namespace Definitions

variable {ds es : Definitions} {d : Def}

private theorem ofList_snoc (items : List Def) (d : Def) :
    ofList (items ++ [d]) = (ofList items).insert d := by
  simp [ofList]

private theorem contains_insert (ds : Definitions) (d : Def) (id : String) :
    (ds.insert d).contains id = true ↔ ds.contains id = true ∨ d.id = id := by
  rw [insert]
  split
  · rename_i present
    constructor
    · exact Or.inl
    · rintro (h | rfl)
      · exact h
      · exact present
  · simp [contains]

theorem contains_merge (ds : Definitions) (items : List Def) (id : String) :
    (ds.merge ⟨items⟩).contains id = true ↔ ds.contains id = true ∨ ∃ d ∈ items, d.id = id := by
  induction items using List.reverseRecOn with
  | nil => simp [merge]
  | append_singleton items d ih =>
    rw [merge_snoc, contains_insert, ih]
    simp [or_assoc, or_and_right, exists_or]

theorem ofList_eq_merge (items : List Def) : ofList items = empty.merge ⟨items⟩ := rfl

theorem contains_ofList (items : List Def) (id : String) :
    (ofList items).contains id = true ↔ ∃ d ∈ items, d.id = id := by
  rw [ofList_eq_merge, contains_merge]
  simp [contains, empty]

theorem insert_of_contains (h : ds.contains d.id = true) : ds.insert d = ds := by
  rw [insert, if_pos h]

theorem mem_of_mem_ofList {items : List Def} (mem : d ∈ (ofList items).items) : d ∈ items := by
  induction items using List.reverseRecOn with
  | nil => simp [ofList, empty] at mem
  | append_singleton items e ih =>
    rw [ofList_snoc, insert] at mem
    split at mem
    · exact List.mem_append_left _ (ih mem)
    · rcases List.mem_append.mp mem with mem | mem
      · exact List.mem_append_left _ (ih mem)
      · exact List.mem_append_right _ mem

private theorem merge_ofList (ds : Definitions) (items : List Def) :
    ds.merge (ofList items) = ds.merge ⟨items⟩ := by
  induction items using List.reverseRecOn with
  | nil => rfl
  | append_singleton items d ih =>
    rw [ofList_snoc, merge_snoc, insert]
    split
    · rename_i present
      have known : (ds.merge ⟨items⟩).contains d.id = true :=
        (contains_merge ds items d.id).mpr (Or.inr ((contains_ofList items d.id).mp present))
      rw [ih, insert_of_contains known]
    · rw [merge_snoc, ← ih]

@[simp] theorem rename_empty : empty.rename ρ = empty := rfl

theorem rename_insert (ds : Definitions) (d : Def) :
    (ds.insert d).rename ρ = (ds.rename ρ).insert (d.rename ρ) := by
  rw [insert]
  split
  · rename_i present
    obtain ⟨e, mem, same⟩ := (contains_iff ds d.id).mp present
    have known : (ds.rename ρ).contains (d.rename ρ).id = true := by
      rw [rename, contains_ofList]
      refine ⟨e.rename ρ, List.mem_map_of_mem mem, ?_⟩
      rw [Def.rename_id, Def.rename_id, same]
    rw [insert_of_contains known]
  · rw [rename, List.map_append, List.map_singleton, ofList_snoc, rename]

theorem rename_merge (ds es : Definitions) :
    (ds.merge es).rename ρ = (ds.rename ρ).merge (es.rename ρ) := by
  obtain ⟨items⟩ := es
  rw [rename.eq_1 ρ ⟨items⟩, merge_ofList]
  induction items using List.reverseRecOn with
  | nil => rfl
  | append_singleton items d ih =>
    rw [merge_snoc, rename_insert, ih, List.map_append, List.map_singleton, merge_snoc]

theorem rename_congr (h : ∀ d ∈ ds.items, d.rename ρ = d.rename σ) : ds.rename ρ = ds.rename σ := by
  rw [rename, rename, List.map_congr_left h]

end Definitions

end Texture.Svg
