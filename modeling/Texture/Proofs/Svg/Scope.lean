/- Texture/Proofs/Svg/Scope
   digest: What nodes and definitions refer to, and tables in which every reference finds an earlier
   definition of the right kind. -/

import Mathlib.Data.List.Basic
import Mathlib.Data.List.Induction
import Mathlib.Tactic.Common
import Texture.Svg.Definitions

set_option autoImplicit false
set_option relaxedAutoImplicit false

namespace Texture.Svg

inductive Kind where
  | gradient
  | filter
  | mask
  deriving DecidableEq, Repr

/-- The mention of a definition: what it must be, and its id. -/
structure Reference where
  kind : Kind
  id : String
  deriving DecidableEq, Repr

def Def.kind : Def → Kind
  | .gradient _ => .gradient
  | .filter _ _ _ => .filter
  | .mask _ _ _ => .mask

def Paint.references : Paint → List Reference
  | .reference id => [⟨.gradient, id⟩]
  | _ => []

def Style.references (s : Style) : List Reference := s.fill.references ++ s.stroke.references

def Effects.references (e : Effects) : List Reference :=
  (e.filter.map (Reference.mk .filter)).toList ++ (e.mask.map (Reference.mk .mask)).toList

namespace Node

mutual

def references : Node → List Reference
  | shape _ style => style.references
  | group effects children => effects.references ++ referencesAll children
  | image _ _ _ => []

def referencesAll : List Node → List Reference
  | [] => []
  | n :: ns => references n ++ referencesAll ns

end

end Node

def Def.references : Def → List Reference
  | .mask _ _ content => Node.referencesAll content
  | _ => []

def Def.Answers (d : Def) (r : Reference) : Prop := d.id = r.id ∧ d.kind = r.kind

def Offers (items : List Def) (r : Reference) : Prop := ∃ d ∈ items, d.Answers r

/-- A list of definitions without a second one of any id, in which every definition refers to
earlier ones only. -/
structure Scoped (items : List Def) : Prop where
  distinct : (items.map Def.id).Nodup
  earlier : ∀ before d after, items = before ++ d :: after → ∀ r ∈ d.references, Offers before r

/-- Among some definitions no two different ones share an id. -/
def Agree (W : Def → Prop) : Prop := ∀ d e, W d → W e → d.id = e.id → d = e

namespace Node

@[simp] theorem referencesAll_append (ns ms : List Node) :
    referencesAll (ns ++ ms) = referencesAll ns ++ referencesAll ms := by
  induction ns with
  | nil => simp [referencesAll]
  | cons n ns ih => simp [referencesAll, ih]

mutual

private theorem references_restyle {f : Style → Style}
    (h : ∀ style r, r ∈ (f style).references → r ∈ style.references) (n : Node) (r : Reference)
    (mem : r ∈ (restyle f n).references) : r ∈ n.references := by
  cases n with
  | shape geometry style =>
    simp only [restyle, references] at mem ⊢
    exact h style r mem
  | group effects children =>
    simp only [restyle, references, List.mem_append] at mem ⊢
    rcases mem with mem | mem
    · exact Or.inl mem
    · exact Or.inr (references_restyleAll h children r mem)
  | image box address rendering => exact mem

theorem references_restyleAll {f : Style → Style}
    (h : ∀ style r, r ∈ (f style).references → r ∈ style.references) (ns : List Node)
    (r : Reference) (mem : r ∈ referencesAll (restyleAll f ns)) : r ∈ referencesAll ns := by
  cases ns with
  | nil => exact mem
  | cons n ns =>
    simp only [restyleAll, referencesAll, List.mem_append] at mem ⊢
    rcases mem with mem | mem
    · exact Or.inl (references_restyle h n r mem)
    · exact Or.inr (references_restyleAll h ns r mem)

end

end Node

theorem Offers.mono {items others : List Def} {r : Reference} (h : Offers items r)
    (sub : items ⊆ others) : Offers others r := by
  obtain ⟨d, mem, answers⟩ := h
  exact ⟨d, sub mem, answers⟩

namespace Scoped

variable {items : List Def} {d : Def}

theorem nil : Scoped [] := by
  refine ⟨List.nodup_nil, ?_⟩
  intro before d after split
  simp at split

private theorem snoc (sound : Scoped items) (fresh : ∀ e ∈ items, e.id ≠ d.id)
    (refs : ∀ r ∈ d.references, Offers items r) : Scoped (items ++ [d]) := by
  constructor
  · rw [List.map_append, List.nodup_append]
    refine ⟨sound.distinct, by simp, ?_⟩
    intro id mem id' last
    obtain ⟨e, memItems, rfl⟩ := List.mem_map.mp mem
    simp only [List.map_cons, List.map_nil, List.mem_singleton] at last
    exact last ▸ fresh e memItems
  · intro before e after split
    rcases List.eq_nil_or_concat' after with rfl | ⟨rest, last, rfl⟩
    · obtain ⟨rfl, same⟩ := List.append_inj' split rfl
      obtain rfl := List.singleton_inj.mp same
      exact refs
    · rw [← List.cons_append, ← List.append_assoc] at split
      exact sound.earlier before e rest (List.append_inj_left' split rfl)

private theorem front {others : List Def} (sound : Scoped (items ++ others)) : Scoped items := by
  constructor
  · have distinct := sound.distinct
    rw [List.map_append, List.nodup_append] at distinct
    exact distinct.1
  · intro before d after split
    exact sound.earlier before d (after ++ others) (by rw [split]; simp)

private theorem last (sound : Scoped (items ++ [d])) :
    (∀ e ∈ items, e.id ≠ d.id) ∧ ∀ r ∈ d.references, Offers items r := by
  refine ⟨?_, sound.earlier items d [] rfl⟩
  have distinct := sound.distinct
  rw [List.map_append, List.nodup_append] at distinct
  intro e mem
  exact distinct.2.2 e.id (List.mem_map_of_mem mem) d.id (by simp)

end Scoped

namespace Definitions

variable {ds es : Definitions} {d e : Def} {W : Def → Prop}

theorem contains_iff (ds : Definitions) (id : String) :
    ds.contains id = true ↔ ∃ d ∈ ds.items, d.id = id := by
  simp [contains]

theorem subset_insert (ds : Definitions) (d : Def) : ds.items ⊆ (ds.insert d).items := by
  rw [insert]
  split
  · exact List.Subset.refl _
  · exact List.subset_append_left _ _

theorem scoped_insert (sound : Scoped ds.items) (refs : ∀ r ∈ d.references, Offers ds.items r) :
    Scoped (ds.insert d).items := by
  rw [insert]
  split
  · exact sound
  · rename_i missing
    rw [contains_iff] at missing
    exact sound.snoc (fun e mem same => missing ⟨e, mem, same⟩) refs

theorem mem_insert (agree : Agree W) (within : ∀ e ∈ ds.items, W e) (hd : W d) :
    e ∈ (ds.insert d).items ↔ e ∈ ds.items ∨ e = d := by
  rw [insert]
  split
  · rename_i present
    obtain ⟨old, mem, same⟩ := (contains_iff ds d.id).mp present
    have equal := agree old d (within old mem) hd same
    subst equal
    constructor
    · exact Or.inl
    · rintro (h | rfl)
      · exact h
      · exact mem
  · simp

theorem merge_snoc (ds : Definitions) (items : List Def) (d : Def) :
    ds.merge ⟨items ++ [d]⟩ = (ds.merge ⟨items⟩).insert d := by
  simp [merge]

theorem forall_insert (h : ∀ e ∈ ds.items, W e) (hd : W d) : ∀ e ∈ (ds.insert d).items, W e := by
  rw [insert]
  split
  · exact h
  · exact List.forall_mem_append.mpr ⟨h, List.forall_mem_singleton.mpr hd⟩

theorem forall_merge (h : ∀ e ∈ ds.items, W e) (h' : ∀ e ∈ es.items, W e) :
    ∀ e ∈ (ds.merge es).items, W e := by
  obtain ⟨items⟩ := es
  induction items using List.reverseRecOn with
  | nil => exact h
  | append_singleton items d ih =>
    obtain ⟨front, last⟩ := List.forall_mem_append.mp h'
    rw [merge_snoc]
    exact forall_insert (ih front) (List.forall_mem_singleton.mp last)

theorem mem_merge (agree : Agree W) (within : ∀ e ∈ ds.items, W e) (within' : ∀ e ∈ es.items, W e) :
    e ∈ (ds.merge es).items ↔ e ∈ ds.items ∨ e ∈ es.items := by
  obtain ⟨items⟩ := es
  induction items using List.reverseRecOn generalizing e with
  | nil => simp [merge]
  | append_singleton items d ih =>
    have front : ∀ e ∈ items, W e := fun e mem => within' e (List.mem_append_left _ mem)
    have last : W d := within' d (by simp)
    rw [merge_snoc, mem_insert agree (forall_merge within front) last, ih front]
    simp [or_assoc]

theorem scoped_merge (agree : Agree W) (within : ∀ e ∈ ds.items, W e)
    (within' : ∀ e ∈ es.items, W e) (sound : Scoped ds.items) (sound' : Scoped es.items) :
    Scoped (ds.merge es).items := by
  obtain ⟨items⟩ := es
  induction items using List.reverseRecOn with
  | nil => exact sound
  | append_singleton items d ih =>
    have front : ∀ e ∈ items, W e := fun e mem => within' e (List.mem_append_left _ mem)
    rw [merge_snoc]
    refine scoped_insert (ih front sound'.front) ?_
    intro r mem
    refine (sound'.last.2 r mem).mono ?_
    intro e memItems
    exact (mem_merge agree within front).mpr (Or.inr memItems)

end Definitions

end Texture.Svg
