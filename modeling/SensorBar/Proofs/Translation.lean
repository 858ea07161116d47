import SensorBar.Filter.Translate
import SensorBar.Proofs.FilterConfinement

/-! # Translation in exact arithmetic

On either axis a translation is an increasing affine map that takes the bounds of the source to the
bounds of the destination.  So it keeps the order of coordinates, it takes the half-open source onto
the half-open destination, and the translation back undoes it.  Clipping moves a position to the
nearest point of the closed source first, which changes nothing inside.
-/

namespace SensorBar

variable {α : Type} [ExactScalar α]

/-! ## One axis -/

/-- The affine map that takes an offset of `w` from `lo` to an offset of `w'` from `lo'`. -/
def rescale (lo w lo' w' x : α) : α :=
  lo' + (x - lo) / w * w'

section

variable {lo w lo' w' : α}

theorem rescale_strictMono (lo lo' : α) (hw : 0 < w) (hw' : 0 < w') :
    StrictMono (rescale lo w lo' w') := by
  intro x y hlt
  have hoffset : (x - lo) / w < (y - lo) / w :=
    (div_lt_div_iff_of_pos_right hw).mpr (sub_lt_sub_right hlt lo)
  exact add_lt_add_right (mul_lt_mul_of_pos_right hoffset hw') lo'

theorem rescale_lo : rescale lo w lo' w' lo = lo' := by
  simp [rescale]

theorem rescale_hi (hw : 0 < w) : rescale lo w lo' w' (lo + w) = lo' + w' := by
  rw [rescale, add_sub_cancel_left, div_self hw.ne', one_mul]

theorem le_rescale_iff (hw : 0 < w) (hw' : 0 < w') {x : α} :
    lo' ≤ rescale lo w lo' w' x ↔ lo ≤ x := by
  have h := (rescale_strictMono lo lo' hw hw').le_iff_le (a := lo) (b := x)
  rwa [rescale_lo] at h

theorem rescale_lt_iff (hw : 0 < w) (hw' : 0 < w') {x : α} :
    rescale lo w lo' w' x < lo' + w' ↔ x < lo + w := by
  have h := (rescale_strictMono lo lo' hw hw').lt_iff_lt (a := x) (b := lo + w)
  rwa [rescale_hi hw] at h

theorem rescale_le_iff (hw : 0 < w) (hw' : 0 < w') {x : α} :
    rescale lo w lo' w' x ≤ lo' + w' ↔ x ≤ lo + w := by
  have h := (rescale_strictMono lo lo' hw hw').le_iff_le (a := x) (b := lo + w)
  rwa [rescale_hi hw] at h

theorem rescale_rescale (hw : 0 < w) (hw' : 0 < w') (x : α) :
    rescale lo' w' lo w (rescale lo w lo' w' x) = x := by
  simp only [rescale]
  field_simp
  ring

end

/-- The number between two bounds that is nearest to `x`. -/
def clip (lo hi x : α) : α :=
  min (max x lo) hi

section

variable {lo hi x : α}

theorem clip_mem (h : lo ≤ hi) : lo ≤ clip lo hi x ∧ clip lo hi x ≤ hi :=
  ⟨le_min (le_max_right x lo) h, min_le_right _ hi⟩

theorem clip_of_mem (hlo : lo ≤ x) (hhi : x ≤ hi) : clip lo hi x = x := by
  rw [clip, max_eq_left hlo, min_eq_left hhi]

theorem clip_mono (lo hi : α) : Monotone (clip lo hi) :=
  fun _ _ h => min_le_min_right hi (max_le_max_right lo h)

/-- On the way from `x` to a number between the bounds, the nearest one comes first. -/
theorem clip_between {y : α} (hlo : lo ≤ y) (hhi : y ≤ hi) :
    0 ≤ (y - clip lo hi x) * (clip lo hi x - x) := by
  rcases le_total x lo with hbelow | hlow
  · have hclip : clip lo hi x = lo := by
      rw [clip, max_eq_right hbelow, min_eq_left (hlo.trans hhi)]
    rw [hclip]
    exact mul_nonneg (sub_nonneg.mpr hlo) (sub_nonneg.mpr hbelow)
  · rcases le_total x hi with hinside | habove
    · rw [clip_of_mem hlow hinside, sub_self, mul_zero]
    · have hclip : clip lo hi x = hi := by
        rw [clip, max_eq_left hlow, min_eq_right habove]
      rw [hclip]
      exact mul_nonneg_of_nonpos_of_nonpos (sub_nonpos.mpr hhi) (sub_nonpos.mpr habove)

end

/-! ## Distances -/

namespace Point

theorem distSq_eq (p q : Point α) :
    p.distSq q = (q.x - p.x) * (q.x - p.x) + (q.y - p.y) * (q.y - p.y) :=
  rfl

theorem distSq_pos {p q : Point α} (h : p ≠ q) : 0 < p.distSq q := by
  rw [distSq_eq]
  refine (add_nonneg (mul_self_nonneg _) (mul_self_nonneg _)).lt_of_ne' fun hzero => h ?_
  obtain ⟨hx, hy⟩ := (mul_self_add_mul_self_eq_zero).mp hzero
  exact Point.ext (sub_eq_zero.mp hx).symm (sub_eq_zero.mp hy).symm

theorem four_mul_distSq_midpoint (p q r : Point α) :
    4 * p.distSq (q.midpoint r) = 2 * p.distSq q + 2 * p.distSq r - q.distSq r := by
  have htwo : ((2 : Nat) : α) = 2 := Nat.cast_ofNat
  simp only [distSq_eq, midpoint, htwo]
  field_simp
  ring

end Point

/-! ## Rectangles -/

namespace Rect

theorem isEmpty_eq_false_iff {r : Rect α} :
    r.isEmpty = false ↔ r.min.x < r.max.x ∧ r.min.y < r.max.y := by
  simp only [isEmpty, Bool.or_eq_false_iff, decide_eq_false_iff_not]
  exact and_congr not_le not_le

theorem contains_iff {r : Rect α} {p : Point α} :
    r.contains p = true ↔
      (r.min.x ≤ p.x ∧ p.x < r.max.x) ∧ (r.min.y ≤ p.y ∧ p.y < r.max.y) := by
  simp only [contains, Bool.and_eq_true, decide_eq_true_eq, and_assoc]

/-- The rectangle with all of its edges. -/
def closed (r : Rect α) : Box α :=
  .between r.min r.max

theorem mem_closed_of_contains {r : Rect α} {p : Point α} (h : r.contains p = true) :
    p ∈ r.closed := by
  obtain ⟨⟨hleft, hright⟩, hbelow, habove⟩ := contains_iff.mp h
  exact ⟨⟨hleft, hright.le⟩, hbelow, habove.le⟩

/-! ### Clipping -/

theorem clamp_eq (r : Rect α) (p : Point α) :
    r.clamp p = ⟨clip r.min.x r.max.x p.x, clip r.min.y r.max.y p.y⟩ := by
  simp only [clamp, Scalar.larger_eq_max, Scalar.smaller_eq_min, clip]

theorem clamp_mem_closed {r : Rect α} (nonempty : r.isEmpty = false) (p : Point α) :
    r.clamp p ∈ r.closed := by
  obtain ⟨hx, hy⟩ := isEmpty_eq_false_iff.mp nonempty
  rw [clamp_eq]
  exact ⟨clip_mem hx.le, clip_mem hy.le⟩

theorem clamp_of_mem_closed {r : Rect α} {p : Point α} (h : p ∈ r.closed) : r.clamp p = p := by
  obtain ⟨⟨hleft, hright⟩, hbelow, habove⟩ := h
  rw [clamp_eq, clip_of_mem hleft hright, clip_of_mem hbelow habove]

/-- Clipping leaves a right or obtuse angle towards every point of the rectangle. -/
theorem distSq_clamp_add_le (r : Rect α) (p : Point α) {q : Point α} (hq : q ∈ r.closed) :
    p.distSq (r.clamp p) + (r.clamp p).distSq q ≤ p.distSq q := by
  obtain ⟨⟨hleft, hright⟩, hbelow, habove⟩ := hq
  have hx := clip_between (x := p.x) hleft hright
  have hy := clip_between (x := p.y) hbelow habove
  rw [clamp_eq]
  simp only [Point.distSq_eq]
  linarith

/-- The point of a rectangle and its edges that is nearer than all others. -/
structure IsNearest (r : Rect α) (p q : Point α) : Prop where
  mem : q ∈ r.closed
  nearer : ∀ other ∈ r.closed, other ≠ q → p.distSq q < p.distSq other

theorem isNearest_clamp {r : Rect α} (nonempty : r.isEmpty = false) (p : Point α) :
    r.IsNearest p (r.clamp p) where
  mem := clamp_mem_closed nonempty p
  nearer other hother hne := by
    have hle := r.distSq_clamp_add_le p hother
    have hpos := Point.distSq_pos hne.symm
    linarith

/-- If one point of the half-open rectangle is nearest, it is nearest of the closed one. -/
theorem eq_clamp_of_least {r : Rect α} (nonempty : r.isEmpty = false) {p q : Point α}
    (hq : r.contains q = true)
    (least : ∀ other, r.contains other = true → p.distSq q ≤ p.distSq other) : q = r.clamp p := by
  by_contra hne
  -- Half way to the nearest point of the closed rectangle is inside, and nearer.
  have hmiddle : r.contains ((r.clamp p).midpoint q) = true := by
    obtain ⟨⟨hleft, hright⟩, hbelow, habove⟩ := clamp_mem_closed nonempty p
    obtain ⟨⟨hleft', hright'⟩, hbelow', habove'⟩ := contains_iff.mp hq
    have htwo : ((2 : Nat) : α) = 2 := Nat.cast_ofNat
    rw [contains_iff]
    simp only [Point.midpoint, htwo]
    constructor <;> constructor <;> linarith
  have hle := r.distSq_clamp_add_le p (mem_closed_of_contains hq)
  have hhalf := Point.four_mul_distSq_midpoint p (r.clamp p) q
  have hpos := Point.distSq_pos (Ne.symm hne)
  linarith [least _ hmiddle]

/-! ### The affine map -/

/-- The image of a point under the affine map of one rectangle onto another. -/
def image (source target : Rect α) (p : Point α) : Point α :=
  ⟨rescale source.min.x source.width target.min.x target.width p.x,
    rescale source.min.y source.height target.min.y target.height p.y⟩

theorem mapTo?_eq_image {source target : Rect α} (hsource : source.isEmpty = false)
    (htarget : target.isEmpty = false) (clipped : Bool) (p : Point α) :
    source.mapTo? target clipped p =
      some (source.image target (if clipped then source.clamp p else p)) := by
  unfold mapTo?
  rw [hsource, htarget]
  rfl

theorem mapTo?_eq_none {source target : Rect α}
    (h : source.isEmpty = true ∨ target.isEmpty = true) (clipped : Bool) (p : Point α) :
    source.mapTo? target clipped p = none :=
  if_pos (Bool.or_eq_true_iff.mpr h)

theorem extent_pos {r : Rect α} (nonempty : r.isEmpty = false) : 0 < r.width ∧ 0 < r.height := by
  obtain ⟨hx, hy⟩ := isEmpty_eq_false_iff.mp nonempty
  exact ⟨sub_pos.mpr hx, sub_pos.mpr hy⟩

theorem min_add_width (r : Rect α) : r.min.x + r.width = r.max.x :=
  add_sub_cancel r.min.x r.max.x

theorem min_add_height (r : Rect α) : r.min.y + r.height = r.max.y :=
  add_sub_cancel r.min.y r.max.y

section

variable {source target : Rect α} (hsource : source.isEmpty = false)
  (htarget : target.isEmpty = false)

include hsource htarget

theorem image_image (p : Point α) : target.image source (source.image target p) = p := by
  obtain ⟨hw, hh⟩ := extent_pos hsource
  obtain ⟨hw', hh'⟩ := extent_pos htarget
  exact Point.ext (rescale_rescale hw hw' p.x) (rescale_rescale hh hh' p.y)

theorem image_x_strictMono :
    StrictMono (rescale source.min.x source.width target.min.x target.width) :=
  rescale_strictMono _ _ (extent_pos hsource).1 (extent_pos htarget).1

theorem image_y_strictMono :
    StrictMono (rescale source.min.y source.height target.min.y target.height) :=
  rescale_strictMono _ _ (extent_pos hsource).2 (extent_pos htarget).2

theorem contains_image (p : Point α) :
    target.contains (source.image target p) = source.contains p := by
  obtain ⟨hw, hh⟩ := extent_pos hsource
  obtain ⟨hw', hh'⟩ := extent_pos htarget
  rw [Bool.eq_iff_iff, contains_iff, contains_iff, ← min_add_width target, ← min_add_height target,
    ← min_add_width source, ← min_add_height source]
  exact and_congr (and_congr (le_rescale_iff hw hw') (rescale_lt_iff hw hw'))
    (and_congr (le_rescale_iff hh hh') (rescale_lt_iff hh hh'))

theorem image_mem_closed {p : Point α} (h : p ∈ source.closed) :
    source.image target p ∈ target.closed := by
  obtain ⟨hw, hh⟩ := extent_pos hsource
  obtain ⟨hw', hh'⟩ := extent_pos htarget
  rw [closed, Box.mem_between_iff, ← min_add_width, ← min_add_height] at h ⊢
  exact ⟨⟨(le_rescale_iff hw hw').mpr h.1.1, (rescale_le_iff hw hw').mpr h.1.2⟩,
    (le_rescale_iff hh hh').mpr h.2.1, (rescale_le_iff hh hh').mpr h.2.2⟩

end

end Rect

/-! ## Translation of frames -/

namespace Mapping

theorem apply_of_missing (m : Mapping α) {f : Frame α} (missing : f.valid = false) :
    m.apply f = f :=
  if_neg (by simp [missing])

theorem apply_of_isEmpty {m : Mapping α}
    (h : m.source.isEmpty = true ∨ m.destination.isEmpty = true) {f : Frame α}
    (valid : f.valid = true) : m.apply f = { f with valid := false } := by
  rw [apply, if_pos valid, Rect.mapTo?_eq_none h]

/-- Without clipping a valid frame stays valid in the source only, whence it comes back exactly. -/
structure Exact (source destination : Rect α) (f : Frame α) : Prop where
  valid : (apply ⟨source, destination, false⟩ f).valid = source.contains f.position
  lands : source.contains f.position = true →
    destination.contains (apply ⟨source, destination, false⟩ f).position = true
  returns : source.contains f.position = true →
    apply ⟨destination, source, false⟩ (apply ⟨source, destination, false⟩ f) = f

/-- With clipping a valid frame stays valid, and is told where the nearest point of the source
goes. -/
structure Confined (source destination : Rect α) (f : Frame α) : Prop where
  valid : (apply ⟨source, destination, true⟩ f).valid = true
  closed : (apply ⟨source, destination, true⟩ f).position ∈ destination.closed
  nearest : ∃ q, source.IsNearest f.position q ∧
    source.mapTo? destination false q = some (apply ⟨source, destination, true⟩ f).position
  /-- Where the edges that do not belong to the source make no difference. -/
  nearest_inside : ∀ q, source.contains q = true →
    (∀ other, source.contains other = true → f.position.distSq q ≤ f.position.distSq other) →
      source.mapTo? destination false q = some (apply ⟨source, destination, true⟩ f).position
  agrees : source.contains f.position = true →
    apply ⟨source, destination, true⟩ f = apply ⟨source, destination, false⟩ f

/-- No two frames change places on either axis; without clipping they do not fall together
either. -/
structure KeepsOrder (m : Mapping α) (f g : Frame α) : Prop where
  x : f.position.x ≤ g.position.x → (m.apply f).position.x ≤ (m.apply g).position.x
  y : f.position.y ≤ g.position.y → (m.apply f).position.y ≤ (m.apply g).position.y
  x_strict : m.clamp = false → f.position.x < g.position.x →
    (m.apply f).position.x < (m.apply g).position.x
  y_strict : m.clamp = false → f.position.y < g.position.y →
    (m.apply f).position.y < (m.apply g).position.y

section

variable {source destination : Rect α} (hsource : source.isEmpty = false)
  (hdestination : destination.isEmpty = false)

include hsource hdestination

theorem apply_unclipped {f : Frame α} (valid : f.valid = true) :
    apply ⟨source, destination, false⟩ f =
      { f with
        valid := source.contains f.position
        position := source.image destination f.position } := by
  rw [apply, if_pos valid, Rect.mapTo?_eq_image hsource hdestination]
  rfl

theorem apply_clipped {f : Frame α} (valid : f.valid = true) :
    apply ⟨source, destination, true⟩ f =
      { f with
        valid := true
        position := source.image destination (source.clamp f.position) } := by
  rw [apply, if_pos valid, Rect.mapTo?_eq_image hsource hdestination]
  rfl

theorem exact_of_nonempty {f : Frame α} (valid : f.valid = true) :
    Exact source destination f := by
  have happly := apply_unclipped hsource hdestination valid
  constructor
  · rw [happly]
  · intro inside
    rw [happly]
    exact (Rect.contains_image hsource hdestination f.position).trans inside
  · intro inside
    have hvalid : (apply ⟨source, destination, false⟩ f).valid = true := by
      rw [happly]
      exact inside
    rw [apply_unclipped hdestination hsource hvalid, happly]
    simp only [Rect.image_image hsource hdestination, Rect.contains_image hsource hdestination,
      inside]
    rw [← valid]

theorem confined_of_nonempty {f : Frame α} (valid : f.valid = true) :
    Confined source destination f := by
  have happly := apply_clipped hsource hdestination valid
  have hmap : source.mapTo? destination false (source.clamp f.position) =
      some (apply ⟨source, destination, true⟩ f).position := by
    rw [happly]
    exact Rect.mapTo?_eq_image hsource hdestination false _
  constructor
  · rw [happly]
  · rw [happly]
    exact Rect.image_mem_closed hsource hdestination (Rect.clamp_mem_closed hsource _)
  · exact ⟨_, Rect.isNearest_clamp hsource f.position, hmap⟩
  · intro q hq least
    rw [Rect.eq_clamp_of_least hsource hq least, hmap]
  · intro inside
    have hclamp := Rect.clamp_of_mem_closed (Rect.mem_closed_of_contains inside)
    rw [happly, apply_unclipped hsource hdestination valid, hclamp, inside]

theorem keepsOrder_of_nonempty (clamp : Bool) {f g : Frame α} (hf : f.valid = true)
    (hg : g.valid = true) : KeepsOrder ⟨source, destination, clamp⟩ f g := by
  have hx := Rect.image_x_strictMono hsource hdestination
  have hy := Rect.image_y_strictMono hsource hdestination
  cases clamp with
  | false =>
    constructor <;> rw [apply_unclipped hsource hdestination hf,
      apply_unclipped hsource hdestination hg]
    · exact fun h => hx.monotone h
    · exact fun h => hy.monotone h
    · exact fun _ h => hx h
    · exact fun _ h => hy h
  | true =>
    constructor <;> rw [apply_clipped hsource hdestination hf,
      apply_clipped hsource hdestination hg, Rect.clamp_eq, Rect.clamp_eq]
    · exact fun h => hx.monotone (clip_mono _ _ h)
    · exact fun h => hy.monotone (clip_mono _ _ h)
    · exact nofun
    · exact nofun

end

/--
Between two rectangles that are not empty, a translation without clipping keeps valid frames of the
source valid and is undone by the translation back; with clipping it keeps every valid frame valid,
in the closed destination, and is the translation without clipping of the nearest point of the
source.  It keeps the order on either axis.  Missing frames are left alone, and an empty rectangle
takes the validity of a frame and nothing else.
-/
theorem translation_exact :
    (∀ source destination : Rect α, source.isEmpty = false → destination.isEmpty = false →
      (∀ f : Frame α, f.valid = true →
        Exact source destination f ∧ Confined source destination f) ∧
      ∀ (clamp : Bool) (f g : Frame α), f.valid = true → g.valid = true →
        KeepsOrder ⟨source, destination, clamp⟩ f g) ∧
    (∀ (m : Mapping α) (f : Frame α), f.valid = false → m.apply f = f) ∧
    ∀ (m : Mapping α) (f : Frame α), m.source.isEmpty = true ∨ m.destination.isEmpty = true →
      f.valid = true → m.apply f = { f with valid := false } := by
  refine ⟨fun source destination hsource hdestination => ⟨fun f valid => ?_, ?_⟩, ?_, ?_⟩
  · exact ⟨exact_of_nonempty hsource hdestination valid,
      confined_of_nonempty hsource hdestination valid⟩
  · intro clamp f g hf hg
    exact keepsOrder_of_nonempty hsource hdestination clamp hf hg
  · exact fun m f missing => m.apply_of_missing missing
  · exact fun m f h valid => apply_of_isEmpty h valid

/-- A screen as the destination: one position inside the source, and one outside of it. -/
theorem translation_exact_of_screen :
    let source : Rect ℝ := .ofBounds (-400) (-300) 400 300
    let screen : Rect ℝ := .ofBounds 0 0 1920 1080
    let inside : Frame ℝ := ⟨true, .good, ⟨-400, 299⟩, 1⟩
    let outside : Frame ℝ := ⟨true, .good, ⟨500, -1000⟩, 1⟩
    source.isEmpty = false ∧ screen.isEmpty = false ∧ source.contains inside.position = true ∧
      source.contains outside.position = false ∧
      apply ⟨screen, source, false⟩ (apply ⟨source, screen, false⟩ inside) = inside ∧
      (apply ⟨source, screen, false⟩ outside).valid = false ∧
      (apply ⟨source, screen, true⟩ outside).valid = true ∧
      (apply ⟨source, screen, true⟩ outside).position ∈ screen.closed ∧
      (apply ⟨source, screen, false⟩ inside).position.x <
        (apply ⟨source, screen, false⟩ outside).position.x ∧
      apply ⟨source, ⟨screen.max, screen.min⟩, true⟩ inside = { inside with valid := false } := by
  intro source screen inside outside
  have hsource : source.isEmpty = false := by
    rw [Rect.isEmpty_eq_false_iff]
    norm_num [source, Rect.ofBounds]
  have hscreen : screen.isEmpty = false := by
    rw [Rect.isEmpty_eq_false_iff]
    norm_num [screen, Rect.ofBounds]
  have hinside : source.contains inside.position = true := by
    rw [Rect.contains_iff]
    norm_num [source, inside, Rect.ofBounds]
  have houtside : source.contains outside.position = false := by
    rw [← Bool.not_eq_true, Rect.contains_iff]
    norm_num [source, outside, Rect.ofBounds]
  have hempty : (⟨screen.max, screen.min⟩ : Rect ℝ).isEmpty = true := by
    rw [← Bool.not_eq_false, Rect.isEmpty_eq_false_iff]
    norm_num [screen, Rect.ofBounds]
  obtain ⟨hnonempty, -, hvoid⟩ := translation_exact (α := ℝ)
  obtain ⟨hframes, horder⟩ := hnonempty source screen hsource hscreen
  obtain ⟨near, -⟩ := hframes inside rfl
  obtain ⟨far, confined⟩ := hframes outside rfl
  exact ⟨hsource, hscreen, hinside, houtside, near.returns hinside, far.valid.trans houtside,
    confined.valid, confined.closed,
    (horder false inside outside rfl rfl).x_strict rfl (by norm_num [inside, outside]),
    hvoid ⟨source, ⟨screen.max, screen.min⟩, true⟩ inside (.inr hempty) rfl⟩

end Mapping

end SensorBar
