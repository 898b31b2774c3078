/- Texture/Proofs/Svg/Table
   digest: Tables of definitions as they are built up: the first definition of an id stays where it
   stands, whatever is inserted, merged or rewritten behind it. -/

import Texture.Bake
import Texture.Proofs.Svg.Rename
import Texture.Proofs.Work

set_option autoImplicit false
set_option relaxedAutoImplicit false

namespace Texture

namespace Svg

def Def.withContent (content : List Node) : Def → Def
  | .mask id region _ => .mask id region content
  | d => d

private theorem Def.withContent_id (content : List Node) (d : Def) :
    (d.withContent content).id = d.id := by
  cases d <;> rfl

def firsts : List Def → List Def
  | [] => []
  | d :: ds => d :: (firsts ds).filter fun e => e.id != d.id

private theorem find?_filter_id {p : Def → Bool} {id : String}
    (kept : ∀ d : Def, d.id = id → p d = true) (items : List Def) :
    (items.filter p).find? (fun d => d.id == id) = items.find? fun d => d.id == id := by
  have same : (fun d : Def => decide (p d = true ∧ (d.id == id) = true)) = fun d => d.id == id := by
    funext d
    by_cases wanted : d.id = id
    · simp [wanted, kept d wanted]
    · simp [wanted]
  rw [List.find?_filter, same]

private theorem firsts_of_nodup {items : List Def} (distinct : (items.map Def.id).Nodup) :
    firsts items = items := by
  induction items with
  | nil => rfl
  | cons d items ih =>
    obtain ⟨fresh, rest⟩ := List.nodup_cons.mp distinct
    rw [firsts, ih rest, List.filter_eq_self.mpr]
    intro e mem
    have other : e.id ≠ d.id := fun same => fresh (same ▸ List.mem_map_of_mem mem)
    exact bne_iff_ne.mpr other

private theorem find?_firsts (items : List Def) (id : String) :
    (firsts items).find? (fun d => d.id == id) = items.find? fun d => d.id == id := by
  induction items with
  | nil => rfl
  | cons d items ih =>
    rw [firsts, List.find?_cons, List.find?_cons]
    cases head : d.id == id with
    | true => rfl
    | false =>
      have other : ∀ e : Def, e.id = id → (e.id != d.id) = true := by
        intro e wanted
        rw [wanted]
        exact bne_iff_ne.mpr (Ne.symm (beq_eq_false_iff_ne.mp head))
      simp only [find?_filter_id other, ih]

namespace Definitions

variable {ds es fs : Definitions} {d : Def}

private theorem eq_of_items (same : ds.items = es.items) : ds = es := by
  cases ds
  cases es
  exact congrArg mk same

private theorem contains_append (ds : Definitions) (d : Def) (id : String) :
    contains ⟨ds.items ++ [d]⟩ id = (ds.contains id || d.id == id) := by
  simp [contains]

private theorem merge_firsts (ds : Definitions) (items : List Def) :
    (ds.merge ⟨items⟩).items = ds.items ++ (firsts items).filter fun d => !ds.contains d.id := by
  induction items generalizing ds with
  | nil => exact (List.append_nil _).symm
  | cons d items ih =>
    have step : ds.merge ⟨d :: items⟩ = (ds.insert d).merge ⟨items⟩ := rfl
    rw [step, ih, firsts, List.filter_cons, List.filter_filter, insert]
    -- A known definition drops out with its twins; a new one keeps its twins out from now on.
    cases known : ds.contains d.id with
    | true =>
      have same : ∀ e : Def, (!ds.contains e.id && e.id != d.id) = !ds.contains e.id := by
        intro e
        by_cases twin : e.id = d.id
        · simp [twin, known]
        · simp [twin]
      simp [same]
    | false =>
      have same : ∀ e : Def, (!contains ⟨ds.items ++ [d]⟩ e.id) =
          (!ds.contains e.id && e.id != d.id) := by
        intro e
        rw [contains_append, Bool.not_or, BEq.comm]
        rfl
      simp [same]

private theorem get?_merge (ds es : Definitions) (id : String) :
    (ds.merge es).get? id = (ds.get? id).or (es.get? id) := by
  obtain ⟨items⟩ := es
  rw [get?, merge_firsts, List.find?_append]
  cases found : ds.get? id with
  | some d =>
    rw [get?] at found
    rw [found]
    rfl
  | none =>
    rw [get?] at found
    have new : ∀ e : Def, e.id = id → (!ds.contains e.id) = true := by
      rintro e rfl
      rw [Bool.not_eq_true', ← Bool.not_eq_true, contains_iff]
      rintro ⟨d, mem, same⟩
      exact List.find?_eq_none.mp found d mem (beq_iff_eq.mpr same)
    rw [found, find?_filter_id new, find?_firsts]
    rfl

def Distinct (ds : Definitions) : Prop := (ds.items.map Def.id).Nodup

def rewriteMask (ds : Definitions) (i : Nat) (content : List Node) : Definitions :=
  ⟨ds.items.modify i (Def.withContent content)⟩

private theorem map_id_rewriteMask (ds : Definitions) (i : Nat) (content : List Node) :
    (ds.rewriteMask i content).items.map Def.id = ds.items.map Def.id := by
  rw [rewriteMask]
  by_cases inside : i < ds.items.length
  · obtain ⟨before, d, after, split, -, changed⟩ :=
      List.exists_of_modify (Def.withContent content) inside
    rw [changed, split]
    simp only [List.map_append, List.map_cons, Def.withContent_id]
  · rw [List.modify_eq_self (Nat.le_of_not_lt inside)]

theorem rewriteMask_append (before after : List Def) (d : Def) (content : List Node) :
    rewriteMask ⟨before ++ d :: after⟩ before.length content =
      ⟨before ++ d.withContent content :: after⟩ := by
  refine eq_of_items ?_
  induction before with
  | nil => rfl
  | cons e before ih => exact congrArg (e :: ·) ih

private theorem Distinct.insert (distinct : ds.Distinct) (d : Def) : (ds.insert d).Distinct := by
  rw [Definitions.insert]
  split
  · exact distinct
  · rename_i new
    rw [contains_iff] at new
    rw [Distinct, List.map_append, List.nodup_append]
    refine ⟨distinct, by simp, ?_⟩
    intro id mem other last same
    obtain ⟨e, held, rfl⟩ := List.mem_map.mp mem
    exact new ⟨e, held, same.trans (List.mem_singleton.mp last)⟩

private theorem Distinct.merge (distinct : ds.Distinct) (es : Definitions) :
    (ds.merge es).Distinct := by
  obtain ⟨items⟩ := es
  induction items using List.reverseRecOn with
  | nil => exact distinct
  | append_singleton items d ih =>
    rw [merge_snoc]
    exact ih.insert d

private theorem distinct_empty : empty.Distinct := List.nodup_nil

private theorem distinct_ofList (items : List Def) : (ofList items).Distinct := by
  rw [ofList_eq_merge]
  exact distinct_empty.merge ⟨items⟩

inductive Built : Definitions → Prop
  | empty : Built empty
  | insert {ds : Definitions} (built : Built ds) (d : Def) : Built (ds.insert d)
  | merge {ds es : Definitions} (built : Built ds) (built' : Built es) : Built (ds.merge es)
  | ofList (items : List Def) : Built (ofList items)
  | rewriteMask {ds : Definitions} (built : Built ds) (i : Nat) (content : List Node) :
      Built (ds.rewriteMask i content)

private theorem Built.distinct (built : Built ds) : ds.Distinct := by
  induction built with
  | empty => exact distinct_empty
  | insert built d ih => exact ih.insert d
  | merge built built' ih ih' => exact ih.merge _
  | ofList items => exact distinct_ofList items
  | rewriteMask built i content ih =>
    rw [Distinct, map_id_rewriteMask]
    exact ih

private theorem merge_items (ds : Definitions) (distinct : es.Distinct) :
    (ds.merge es).items = ds.items ++ es.items.filter fun d => !ds.contains d.id := by
  rw [← firsts_of_nodup distinct]
  exact merge_firsts ds es.items

private theorem contains_merge_eq (ds es : Definitions) (id : String) :
    (ds.merge es).contains id = (ds.contains id || es.contains id) := by
  rw [Bool.eq_iff_iff, contains_merge, Bool.or_eq_true, contains_iff es]

private theorem merge_assoc (ds : Definitions) (distinct : es.Distinct) (distinct' : fs.Distinct) :
    (ds.merge es).merge fs = ds.merge (es.merge fs) := by
  refine eq_of_items ?_
  rw [merge_items _ distinct', merge_items _ distinct, merge_items _ (distinct.merge fs),
    merge_items _ distinct', List.filter_append, List.filter_filter, List.append_assoc]
  simp only [contains_merge_eq, Bool.not_or]

private theorem merge_self (distinct : ds.Distinct) : ds.merge ds = ds := by
  have old : ds.items.filter (fun d => !ds.contains d.id) = [] := by
    refine List.filter_eq_nil_iff.mpr fun d mem => ?_
    have known : ds.contains d.id = true := (contains_iff ds d.id).mpr ⟨d, mem, rfl⟩
    rw [known]
    exact Bool.false_ne_true
  refine eq_of_items ?_
  rw [merge_items ds distinct, old, List.append_nil]

private theorem empty_merge (distinct : ds.Distinct) : empty.merge ds = ds := by
  refine eq_of_items ?_
  rw [merge_items empty distinct]
  exact List.filter_eq_self.mpr fun _ _ => rfl

private theorem register_eq (ds : Definitions) (d : Def) :
    ds.register d = (ds.insert d, !ds.contains d.id) := by
  rw [register, insert]
  cases ds.contains d.id <;> rfl

structure Registers (ds : Definitions) (d : Def) : Prop where
  inserted : (ds.register d).1 = ds.insert d
  fresh : (ds.register d).2 = true ↔ d.id ∉ ds.items.map Def.id
  appended : (ds.register d).2 = true → ds.insert d = ⟨ds.items ++ [d]⟩
  unchanged : (ds.register d).2 = false → ds.insert d = ds

private theorem registers (ds : Definitions) (d : Def) : ds.Registers d := by
  have absent : ds.contains d.id = false ↔ d.id ∉ ds.items.map Def.id := by
    rw [← Bool.not_eq_true, contains_iff, List.mem_map]
  constructor
  · rw [register_eq]
  · rw [register_eq, Bool.not_eq_true', absent]
  · intro new
    rw [register_eq, Bool.not_eq_true'] at new
    rw [insert, if_neg (Bool.not_eq_true _ ▸ new)]
  · intro old
    rw [register_eq, Bool.not_eq_false'] at old
    exact insert_of_contains old

structure Collects (items : List Def) : Prop where
  inOrder : (ofList items).items = firsts items
  found : ∀ id, (ofList items).get? id = items.find? fun d => d.id == id

private theorem collects (items : List Def) : Collects items := by
  constructor
  · rw [ofList_eq_merge, merge_firsts]
    exact List.filter_eq_self.mpr fun _ _ => rfl
  · intro id
    rw [ofList_eq_merge, get?_merge]
    rfl

/-- Tables are merged behind one another, and the first definition of an id wins. -/
structure FirstWins (ds es fs : Definitions) : Prop where
  distinct : ds.Distinct
  registers : ∀ d, ds.Registers d
  merged : (ds.merge es).items = ds.items ++ es.items.filter fun d => !ds.contains d.id
  found : ∀ id, (ds.merge es).get? id = (ds.get? id).or (es.get? id)
  assoc : (ds.merge es).merge fs = ds.merge (es.merge fs)
  idempotent : ds.merge ds = ds
  emptyBehind : ds.merge empty = ds
  emptyInFront : empty.merge ds = ds

private theorem Built.firstWins (built : Built ds) (built' : Built es) (built'' : Built fs) :
    FirstWins ds es fs :=
  ⟨built.distinct, ds.registers, merge_items ds built'.distinct, get?_merge ds es,
    merge_assoc ds built'.distinct built''.distinct, merge_self built.distinct, rfl,
    empty_merge built.distinct⟩

end Definitions

end Svg

open Svg (Def Definitions Document)
open Svg.Definitions (Built Collects FirstWins)

namespace Bake

private theorem flattenMasks_built (canvas : Canvas) (width height : Nat) {done ds : List Def}
    (built : Built ⟨done ++ ds⟩) :
    (flattenMasks canvas width height done ds).Ensures fun items => Built ⟨items⟩ := by
  induction ds generalizing done with
  | nil =>
    rw [List.append_nil] at built
    exact Work.Ensures.pure built
  | cons d ds ih =>
    have next : ∀ content, (flattenMasks canvas width height (done ++ [d.withContent content])
        ds).Ensures fun items => Built ⟨items⟩ := by
      intro content
      have rewritten := built.rewriteMask done.length content
      rw [Definitions.rewriteMask_append, List.append_cons] at rewritten
      exact ih rewritten
    -- Only a mask has content, so that other content leaves a gradient or a filter as it is.
    cases d with
    | gradient g => exact next []
    | filter id region primitives => exact next []
    | mask id region content =>
      exact (Work.Ensures.trivial _).bind fun flat _ => next flat

private theorem flatten_built (rasterizer : Rasterizer) (width height : Nat) {doc : Document}
    (built : Built doc.definitions) :
    (flatten rasterizer width height doc).Ensures fun flat => Built flat.definitions := by
  have masks : (flattenMasks ⟨doc.resolution, rasterizer⟩ width height []
      doc.definitions.items).Ensures fun items => Built ⟨items⟩ :=
    flattenMasks_built _ width height built
  refine masks.bind fun items rewritten => ?_
  exact (Work.Ensures.trivial _).bind fun content _ => Work.Ensures.pure rewritten

end Bake

namespace Svg.Definitions

/-- A table that is collected from a list holds the first definition of each id, in order. Tables
that are built up have no id twice; a definition is appended exactly if its id is new; and merging
is associative and idempotent, puts what is new behind what is there, and finds what stands in
front. Painting a document rewrites its table into one that is built up. -/
theorem built_firstWins :
    (∀ items : List Def, Collects items) ∧
      (∀ ds es fs : Definitions, Built ds → Built es → Built fs → FirstWins ds es fs) ∧
      ∀ (rasterizer : Rasterizer) (width height : Nat) (doc : Document), Built doc.definitions →
        (Bake.flatten rasterizer width height doc).Ensures fun flat => Built flat.definitions :=
  ⟨collects, fun _ _ _ => Built.firstWins, fun rasterizer width height _ =>
    Bake.flatten_built rasterizer width height⟩

/-- A filter and two masks; the first mask comes too late for its id. -/
def haloTable : Definitions := .ofList
  [.filter "halo" (.bounding 0.0 0.0 1.0 1.0) [], .mask "halo" (.bounding 0.0 0.0 1.0 1.0) [],
    .mask "cut" (.bounding 0.0 0.0 1.0 1.0) []]

def rampTable : Definitions :=
  (empty.insert (.gradient ⟨"halo", .userSpace, 0.0, 0.0, 1.0, 0.0, none, []⟩)).insert
    (.filter "glow" (.bounding 0.0 0.0 1.0 1.0) [])

def fadeTable : Definitions :=
  (ofList [.mask "glow" (.bounding 0.0 0.0 1.0 1.0) [], .mask "fade" (.bounding 0.0 0.0 1.0 1.0) []
    ]).rewriteMask 1 [.canvas .standard .white]

/-- Three tables with ids in common; of each id the first definition stays where they are merged. -/
theorem built_firstWins_halo :
    haloTable.Built ∧ rampTable.Built ∧ fadeTable.Built ∧ FirstWins haloTable rampTable fadeTable ∧
      ((haloTable.merge (rampTable.merge fadeTable)).items.map fun d => (d.id, d.kind)) =
        [("halo", .filter), ("cut", .mask), ("glow", .filter), ("fade", .mask)] ∧
      (Bake.flatten (fun _ _ => .error (.other "")) 1 1 ⟨.standard, fadeTable, none, []⟩).Ensures
        fun flat => flat.definitions.Built := by
  have halo : haloTable.Built := .ofList _
  have ramp : rampTable.Built := (Built.empty.insert _).insert _
  have fade : fadeTable.Built := (Built.ofList _).rewriteMask 1 _
  obtain ⟨-, laws, rewrites⟩ := built_firstWins
  exact ⟨halo, ramp, fade, laws haloTable rampTable fadeTable halo ramp fade, by decide,
    rewrites _ 1 1 ⟨.standard, fadeTable, none, []⟩ fade⟩

end Svg.Definitions

end Texture
