/- Texture/Proofs/Bake/Layering
   digest: Layers laid one on the other: no colour comes to exceed its opacity, painting over never
   runs past the largest byte, and what is added comes to its sum in any order. -/

import Mathlib.Algebra.GroupWithZero.Nat
import Texture.Proofs.Bake.Sum
import Texture.Proofs.Picture.Premultiplied

set_option autoImplicit false
set_option relaxedAutoImplicit false

namespace Texture

inductive Laying where
  | cover
  | add
  deriving DecidableEq, Repr

namespace Laying

def pixel : Laying → Pixel → Pixel → Pixel
  | cover => Pixel.cover
  | add => Pixel.add

def lay : Laying → ByteArray → ByteArray → Except Fault ByteArray
  | cover => Buffer.cover
  | add => Buffer.add

def name : Laying → String
  | cover => "over_in_place"
  | add => "add_in_place"

def writePixel (l : Laying) (above bytes : ByteArray) (i : Nat) : ByteArray :=
  Buffer.put bytes i (l.pixel (Buffer.pixelAt bytes i) (Buffer.pixelAt above i))

/-- Lays a layer on the buffer that the state is, pixel by pixel. -/
def write (l : Laying) (above : ByteArray) : ExceptT Fault (StateM ByteArray) Unit := do
  let below ← get
  if below.size = above.size ∧ below.size % 4 = 0 then
    (List.range (Buffer.count below)).forM fun i => modify fun bytes => l.writePixel above bytes i
  else throw (.rasterization s!"{l.name} expects equal-length rgba8 buffers")

/-- Whether a layer could be laid on a buffer, and what the buffer holds then. -/
def outcome (l : Laying) (below above : ByteArray) : Except Fault Unit × ByteArray :=
  (l.write above).run.run below

private theorem lay_eq_blend (l : Laying) (below above : ByteArray) :
    l.lay below above = Buffer.blend l.name l.pixel below above := by
  cases l <;> rfl

def written (l : Laying) (below above : ByteArray) (places : List Nat) : ByteArray :=
  places.foldl (l.writePixel above) below

variable {below above : ByteArray} {n : Nat}

private theorem run_forM_modify (f : ByteArray → Nat → ByteArray) (places : List Nat)
    (bytes : ByteArray) :
    (places.forM fun i => modify fun bytes => f bytes i :
      ExceptT Fault (StateM ByteArray) Unit).run.run bytes = (.ok (), places.foldl f bytes) := by
  induction places generalizing bytes with
  | nil => rfl
  | cons i places ih => exact ih (f bytes i)

private theorem outcome_eq (l : Laying) (below above : ByteArray) :
    l.outcome below above = if below.size = above.size ∧ below.size % 4 = 0 then
      (.ok (), l.written below above (List.range (Buffer.count below)))
    else (.error (.rasterization s!"{l.name} expects equal-length rgba8 buffers"), below) := by
  change (if below.size = above.size ∧ below.size % 4 = 0 then
    (List.range (Buffer.count below)).forM fun i => modify fun bytes => l.writePixel above bytes i
    else throw (.rasterization s!"{l.name} expects equal-length rgba8 buffers") :
      ExceptT Fault (StateM ByteArray) Unit).run.run below = _
  split
  · exact run_forM_modify (l.writePixel above) _ below
  · rfl

private theorem size_written (l : Laying) (below above : ByteArray) (places : List Nat) :
    (l.written below above places).size = below.size := by
  induction places generalizing below with
  | nil => rfl
  | cons i places ih =>
    have step : l.written below above (i :: places) =
        l.written (l.writePixel above below i) above places := rfl
    rw [step, ih, writePixel, Buffer.size_put]

private theorem pixelAt_written (l : Laying) (above : ByteArray) (size : below.size = n * 4)
    {k : Nat} (le : k ≤ n) (i : Nat) :
    Buffer.pixelAt (l.written below above (List.range k)) i =
      if i < k then l.pixel (Buffer.pixelAt below i) (Buffer.pixelAt above i)
      else Buffer.pixelAt below i := by
  induction k generalizing i with
  | zero => rfl
  | succ k ih =>
    have earlier := ih (Nat.le_of_succ_le le)
    have same : (l.written below above (List.range k)).size = n * 4 := by rw [size_written, size]
    have last : l.written below above (List.range (k + 1)) =
        l.writePixel above (l.written below above (List.range k)) k := by
      rw [written, List.range_succ, List.foldl_append]
      rfl
    rw [last, writePixel, Buffer.pixelAt_put same le, earlier, earlier, if_neg (Nat.lt_irrefl k)]
    by_cases here : i = k
    · rw [if_pos here, if_pos (by omega), here]
    · rw [if_neg here]
      by_cases front : i < k
      · rw [if_pos front, if_pos (by omega)]
      · rw [if_neg front, if_neg (by omega)]

private theorem lay_eq_outcome (l : Laying) (below above : ByteArray) :
    l.lay below above = (l.outcome below above).1.map fun _ => (l.outcome below above).2 := by
  rw [lay_eq_blend, outcome_eq, Buffer.blend]
  split
  · rename_i fit
    have size : below.size = Buffer.count below * 4 := by
      rw [Buffer.count]
      omega
    refine congrArg Except.ok (Buffer.ext (Picture.size_build _ _) ?_ fun i less => ?_)
    · rw [size_written, size]
    · rw [Buffer.pixelAt_build _ less, pixelAt_written l above size le_rfl, if_pos less]
  · rfl

private theorem lay_refused (l : Laying) (below above : ByteArray) :
    (∃ e, l.lay below above = .error e) ↔ below.size ≠ above.size ∨ below.size % 4 ≠ 0 := by
  rw [lay_eq_blend, Buffer.blend]
  split
  · rename_i fit
    constructor
    · rintro ⟨e, failed⟩
      cases failed
    · omega
  · rename_i unfit
    constructor
    · omega
    · exact fun _ => ⟨_, rfl⟩

private theorem outcome_untouched (l : Laying) {below above : ByteArray} {e : Fault}
    (failed : (l.outcome below above).1 = .error e) : (l.outcome below above).2 = below := by
  rw [outcome_eq] at failed ⊢
  split at failed
  · exact nomatch failed
  · rename_i unfit
    rw [if_neg unfit]

/-- What laying a layer on a buffer where it stands does. -/
structure InPlace (l : Laying) (below above : ByteArray) : Prop where
  refused : (∃ e, l.lay below above = .error e) ↔ below.size ≠ above.size ∨ below.size % 4 ≠ 0
  agrees : l.lay below above = (l.outcome below above).1.map fun _ => (l.outcome below above).2
  untouched : ∀ e, (l.outcome below above).1 = .error e → (l.outcome below above).2 = below

private theorem inPlace (l : Laying) (below above : ByteArray) : l.InPlace below above :=
  ⟨l.lay_refused below above, l.lay_eq_outcome below above, fun _ => l.outcome_untouched⟩

end Laying

/-- So many whole pixels, in which no colour exceeds its opacity. -/
structure Buffer.IsPremultiplied (n : Nat) (bytes : ByteArray) : Prop where
  size : bytes.size = n * 4
  pixels : ∀ i < n, (pixelAt bytes i).IsPremultiplied

/-- A layer, and how it is laid on those below. -/
structure Layer where
  laying : Laying
  bytes : ByteArray

namespace Layer

def layAll (n : Nat) (layers : List Layer) : Except Fault ByteArray :=
  layers.foldlM (fun below l => l.laying.lay below l.bytes) (Buffer.build n fun _ => Pixel.clear)

def stack (layers : List Layer) (i : Nat) : Pixel :=
  layers.foldl (fun below l => l.laying.pixel below (Buffer.pixelAt l.bytes i)) Pixel.clear

/-- The sum that painting over makes at a byte before it is held at the largest byte: the byte of
the layer, and the share of the byte below that shows through. -/
def sumAt (below above : ByteArray) (j : Nat) : Nat :=
  (Bytes.get above j).toNat + (Pixel.scaleByte (Bytes.get below j).toNat
    (255 - (Bytes.get above (4 * (j / 4) + 3)).toNat)).toNat

def AddsOn (layers : List Layer) : Prop := ∀ l ∈ layers.tail, l.laying = .add

variable {n : Nat} {layers others : List Layer}

private theorem layAll_concat (n : Nat) (layers : List Layer) (l : Layer) :
    layAll n (layers ++ [l]) = layAll n layers >>= fun below => l.laying.lay below l.bytes := by
  simp [layAll]

private theorem stack_concat (layers : List Layer) (l : Layer) (i : Nat) :
    stack (layers ++ [l]) i = l.laying.pixel (stack layers i) (Buffer.pixelAt l.bytes i) := by
  simp [stack]

private theorem layAll_eq (sizes : ∀ l ∈ layers, l.bytes.size = n * 4) :
    layAll n layers = .ok (Buffer.build n (stack layers)) := by
  induction layers using List.reverseRecOn with
  | nil => rfl
  | append_singleton layers l ih =>
    rw [List.forall_mem_append, List.forall_mem_singleton] at sizes
    rw [layAll_concat, ih sizes.1]
    change l.laying.lay _ l.bytes = _
    rw [Laying.lay_eq_blend, Buffer.blend_build sizes.2]
    exact congrArg Except.ok (Buffer.build_congr fun i _ => (stack_concat layers l i).symm)

private theorem stack_isPremultiplied {i : Nat}
    (h : ∀ l ∈ layers, (Buffer.pixelAt l.bytes i).IsPremultiplied) :
    (stack layers i).IsPremultiplied := by
  induction layers using List.reverseRecOn with
  | nil => exact Pixel.isPremultiplied_clear
  | append_singleton layers l ih =>
    rw [List.forall_mem_append, List.forall_mem_singleton] at h
    rw [stack_concat]
    cases l.laying with
    | cover => exact (ih h.1).cover h.2
    | add => exact (ih h.1).add h.2

/-- Layers that are added to a pixel come to a sum that is held at the largest byte once. -/
private theorem toNat_byte_foldl {i k : Nat} (adds : ∀ l ∈ layers, l.laying = .add) (p : Pixel) :
    ((layers.foldl (fun below l => l.laying.pixel below (Buffer.pixelAt l.bytes i)) p).byte
      k).toNat = min 255 ((p.byte k).toNat +
        (layers.map fun l => ((Buffer.pixelAt l.bytes i).byte k).toNat).sum) := by
  induction layers generalizing p with
  | nil =>
    have small := (p.byte k).toNat_lt
    simp only [List.foldl_nil, List.map_nil, List.sum_nil]
    omega
  | cons l layers ih =>
    obtain ⟨first, rest⟩ := List.forall_mem_cons.mp adds
    rw [List.foldl_cons, ih rest, first, Laying.pixel, Pixel.toNat_byte_add, List.map_cons,
      List.sum_cons]
    omega

private theorem toNat_byte_stack {i k : Nat} (adds : AddsOn layers)
    (h : ∀ l ∈ layers, (Buffer.pixelAt l.bytes i).IsPremultiplied) :
    ((stack layers i).byte k).toNat =
      min 255 (layers.map fun l => ((Buffer.pixelAt l.bytes i).byte k).toNat).sum := by
  cases layers with
  | nil =>
    rw [stack, List.foldl_nil, Pixel.byte_clear]
    rfl
  | cons l layers =>
    -- On nothing, a premultiplied layer is painted as it would be added.
    have first : l.laying.pixel Pixel.clear (Buffer.pixelAt l.bytes i) =
        Buffer.pixelAt l.bytes i := by
      cases l.laying with
      | cover => exact Pixel.cover_clear (h l List.mem_cons_self)
      | add => exact Pixel.clear_add _
    have rest : ∀ m ∈ layers, m.laying = .add := adds
    rw [stack, List.foldl_cons, first, toNat_byte_foldl rest, List.map_cons, List.sum_cons]

/-- What some layers laid on nothing come to. -/
structure Laid (n : Nat) (layers : List Layer) (bytes : ByteArray) : Prop where
  laid : layAll n layers = .ok bytes
  premultiplied : Buffer.IsPremultiplied n bytes
  /-- Wherever a layer is painted over those before it, no sum exceeds the largest byte. -/
  unheld : ∀ before l after, layers = before ++ l :: after → l.laying = .cover →
    ∃ below covered, layAll n before = .ok below ∧ layAll n (before ++ [l]) = .ok covered ∧
      ∀ j < n * 4, sumAt below l.bytes j ≤ 255 ∧ (Bytes.get covered j).toNat = sumAt below l.bytes j
  summed : AddsOn layers → ∀ j < n * 4, (Bytes.get bytes j).toNat =
    min 255 (layers.map fun l => (Bytes.get l.bytes j).toNat).sum
  anyOrder : AddsOn layers → ∀ others, AddsOn others →
    (others.map Layer.bytes).Perm (layers.map Layer.bytes) → layAll n others = .ok bytes

section

variable (sound : ∀ l ∈ layers, Buffer.IsPremultiplied n l.bytes)

include sound

private theorem layAll_build : layAll n layers = .ok (Buffer.build n (stack layers)) :=
  layAll_eq fun l mem => (sound l mem).size

private theorem build_isPremultiplied :
    Buffer.IsPremultiplied n (Buffer.build n (stack layers)) := by
  refine ⟨Picture.size_build _ _, fun i inside => ?_⟩
  rw [Buffer.pixelAt_build _ inside]
  exact stack_isPremultiplied fun l mem => (sound l mem).pixels i inside

private theorem get_build_stack (adds : AddsOn layers) {j : Nat} (inside : j < n * 4) :
    (Bytes.get (Buffer.build n (stack layers)) j).toNat =
      min 255 (layers.map fun l => (Bytes.get l.bytes j).toNat).sum := by
  have pixels : ∀ l ∈ layers, (Buffer.pixelAt l.bytes (j / 4)).IsPremultiplied :=
    fun l mem => (sound l mem).pixels _ (by omega)
  simp only [Buffer.get_build _ inside, toNat_byte_stack adds pixels, Buffer.get_eq_byte _ j]

/-- In whatever order layers are added, they come to the same. -/
private theorem layAll_perm (adds : AddsOn layers) (adds' : AddsOn others)
    (perm : (others.map Layer.bytes).Perm (layers.map Layer.bytes)) :
    layAll n others = .ok (Buffer.build n (stack layers)) := by
  have sound' : ∀ l ∈ others, Buffer.IsPremultiplied n l.bytes := by
    intro l mem
    obtain ⟨m, held, same⟩ := List.mem_map.mp (perm.mem_iff.mp (List.mem_map_of_mem mem))
    exact same ▸ sound m held
  rw [layAll_build sound']
  refine congrArg Except.ok (Bytes.ext ?_ fun j inside => ?_)
  · rw [Picture.size_build, Picture.size_build]
  · rw [Picture.size_build] at inside
    have sums := (perm.map fun bytes => (Bytes.get bytes j).toNat).sum_nat
    rw [List.map_map, List.map_map] at sums
    apply UInt8.toNat.inj
    rw [get_build_stack sound' adds' inside, get_build_stack sound adds inside]
    exact congrArg (min 255) sums

omit sound in
private theorem covered_unheld {l : Layer} (own : Buffer.IsPremultiplied n l.bytes)
    (covers : l.laying = .cover) {j : Nat} (inside : j < n * 4) :
    sumAt (Buffer.build n (stack layers)) l.bytes j ≤ 255 ∧
      (Bytes.get (Buffer.build n (stack (layers ++ [l]))) j).toNat =
        sumAt (Buffer.build n (stack layers)) l.bytes j := by
  have pixel : (Buffer.pixelAt l.bytes (j / 4)).IsPremultiplied := own.pixels _ (by omega)
  have through : sumAt (Buffer.build n (stack layers)) l.bytes j =
      ((Buffer.pixelAt l.bytes (j / 4)).byte (j % 4)).toNat +
        (Pixel.scaleByte ((stack layers (j / 4)).byte (j % 4)).toNat
          (255 - (Buffer.pixelAt l.bytes (j / 4)).alpha.toNat)).toNat := by
    rw [sumAt, Buffer.get_build _ inside, Buffer.get_eq_byte l.bytes j]
    rfl
  rw [through, Buffer.get_build _ inside, stack_concat, covers]
  exact ⟨Pixel.byte_add_scaleByte_le pixel _ _, Pixel.toNat_byte_cover pixel _ _⟩

private theorem exists_laid : ∃ bytes, Laid n layers bytes := by
  refine ⟨_, layAll_build sound, build_isPremultiplied sound, ?_,
    fun adds _ => get_build_stack sound adds, fun adds _ => layAll_perm sound adds⟩
  rintro before l after rfl covers
  obtain ⟨front, rest⟩ := List.forall_mem_append.mp sound
  have own : Buffer.IsPremultiplied n l.bytes := rest l List.mem_cons_self
  have next : ∀ m ∈ before ++ [l], Buffer.IsPremultiplied n m.bytes :=
    List.forall_mem_append.mpr ⟨front, List.forall_mem_singleton.mpr own⟩
  exact ⟨_, _, layAll_build front, layAll_build next, fun _ => covered_unheld own covers⟩

end

def ofChild (painted : Svg.Node × Picture) : Layer :=
  ⟨if painted.1.blend = .plusLighter then .add else .cover, painted.2.bytes⟩

/-- The children of an additive group, each painted on its own, are laid on nothing one after the
other, and that makes the picture. -/
def IsLaidUp (base : Bake.Layers) (children : List Svg.Node) (s : Session) (p : Picture)
    (t : Session) : Prop :=
  ∃ painted : List (Svg.Node × Picture), painted.map Prod.fst = children ∧
    Asked base.canvas.rasterizer s (painted.map base.call) t ∧
    layAll base.area (painted.map ofChild) = .ok p.bytes

private theorem sum_isLaidUp {base : Bake.Layers} {children : List Svg.Node} {s t : Session}
    {p : Picture} (yields : (base.sum children).Yields s p t) : IsLaidUp base children s p t := by
  rw [Bake.Layers.sum, Work.yields_bind] at yields
  obtain ⟨bytes, u, folded, whole⟩ := yields
  rw [Work.yields_ofExcept] at whole
  obtain ⟨whole, rfl⟩ := whole
  obtain ⟨-, -, same⟩ := Picture.ofBytes_ok whole
  rw [IsLaidUp, same]
  refine folded.foldlM
    (P := fun before bytes u => ∃ painted : List (Svg.Node × Picture),
      painted.map Prod.fst = before ∧ Asked base.canvas.rasterizer s (painted.map base.call) u ∧
      layAll base.area (painted.map ofChild) = .ok (bytes.getD base.ground))
    ⟨[], rfl, Asked.refl s, rfl⟩ ?_
  rintro before n after below v bytes w - ⟨painted, order, asked, laid⟩ step
  rw [Bake.Layers.lay, Work.yields_bind] at step
  obtain ⟨q, x, answered, added⟩ := step
  obtain ⟨sum, made, rfl⟩ := (Work.yields_map _ _ _ _ _).mp added
  rw [Work.yields_ofExcept] at made
  obtain ⟨made, rfl⟩ := made
  refine ⟨painted ++ [(n, q)], by rw [List.map_append, order]; rfl, ?_, ?_⟩
  · rw [List.map_append]
    exact asked.append (Asked.of_rasterize answered)
  · rw [List.map_append, List.map_singleton, layAll_concat, laid, Option.getD_some, ← made]
    unfold ofChild
    split <;> rfl

/-- A layer is laid unless the buffers do not fit, and then nothing changes. Layers in which no
colour exceeds its opacity come to pixels of the same kind, and where one is painted over others, no
sum has to be held at the largest byte. If all but the first are added, each byte is their sum, held
once, in any order. The sum of an additive group is such a laying. -/
theorem layAll_laid :
    (∀ (l : Laying) (below above : ByteArray), l.InPlace below above) ∧
      (∀ (n : Nat) (layers : List Layer), (∀ l ∈ layers, Buffer.IsPremultiplied n l.bytes) →
        ∃ bytes, Laid n layers bytes) ∧
      ∀ (base : Bake.Layers) (children : List Svg.Node) (s t : Session) (p : Picture),
        (base.sum children).Yields s p t → IsLaidUp base children s p t :=
  ⟨Laying.inPlace, fun _ _ sound => exists_laid sound, fun _ _ _ _ _ yields => sum_isLaidUp yields⟩

private theorem isPremultiplied_flat (n : Nat) {p : Pixel} (h : p.IsPremultiplied) :
    Buffer.IsPremultiplied n (Buffer.build n fun _ => p) := by
  refine ⟨Picture.size_build _ _, fun i inside => ?_⟩
  rw [Buffer.pixelAt_build _ inside]
  exact h

/-- Three washes of two pixels each; the opacities of the first two exceed the largest byte. -/
def washes (last : Laying) : List Layer :=
  [⟨.cover, Buffer.build 2 fun _ => ⟨100, 50, 0, 200⟩⟩,
    ⟨.add, Buffer.build 2 fun _ => ⟨90, 90, 90, 90⟩⟩,
    ⟨last, Buffer.build 2 fun _ => ⟨7, 7, 7, 129⟩⟩]

private theorem edges_dot : EdgesInRange 1 1 := by decide

def dot (p : Pixel) : Picture := .ofPixels 1 1 edges_dot fun _ _ => p

def whitePainter : Bake.Layers :=
  ⟨⟨.standard, fun _ _ => .ok (dot ⟨255, 255, 255, 255⟩)⟩, .empty, 1, 1⟩

def glowing : Svg.Node := .group { Svg.Effects.isolate with blend := .plusLighter } []

/-- The last of three washes is painted over the others or added to them, and a white pixel is laid
on nothing. -/
theorem layAll_laid_washes :
    (∀ last, ∀ l ∈ washes last, Buffer.IsPremultiplied 2 l.bytes) ∧ AddsOn (washes .add) ∧
      (∀ last, ∃ bytes, Laid 2 (washes last) bytes) ∧
      ∃ p t, (whitePainter.sum [glowing]).Yields Session.start p t ∧
        IsLaidUp whitePainter [glowing] Session.start p t := by
  have sound : ∀ last, ∀ l ∈ washes last, Buffer.IsPremultiplied 2 l.bytes := by
    intro last
    refine List.forall_mem_cons.mpr ⟨isPremultiplied_flat 2 ?_, List.forall_mem_cons.mpr
      ⟨isPremultiplied_flat 2 ?_, List.forall_mem_singleton.mpr (isPremultiplied_flat 2 ?_)⟩⟩
    all_goals
      unfold Pixel.IsPremultiplied
      decide
  have adds : AddsOn (washes .add) :=
    List.forall_mem_cons.mpr ⟨rfl, List.forall_mem_singleton.mpr rfl⟩
  have summed : (whitePainter.sum [glowing]).Yields Session.start (dot ⟨255, 255, 255, 255⟩)
      ⟨0, [(whitePainter.call (glowing, dot Pixel.clear)).1]⟩ := by
    rfl
  obtain ⟨-, laid, sums⟩ := layAll_laid
  exact ⟨sound, adds, fun last => laid 2 (washes last) (sound last), _, _, summed,
    sums whitePainter [glowing] _ _ _ summed⟩

end Layer

end Texture
