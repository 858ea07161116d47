import Mathlib.Analysis.Convex.Basic
import SensorBar.Proofs.FilterStages
import SensorBar.Proofs.RadiusSmoothing

/-! # Confinement of filters

Dropout repair and glitch rejection repeat positions that they were given.  A pull of radius
smoothing ends between the smoothed position and the raw one, and on either axis a step of adaptive
smoothing ends between the old value and the new one, whatever cutoff its speed asks for.  So a box
that holds all the positions a filter was given holds all that it tells, and then so it is with
every chain.
-/

namespace SensorBar

/-- An interval on either axis, with or without its ends, and bounded or not. -/
structure Box (α : Type) [Preorder α] where
  x : Set α
  y : Set α
  x_ordConnected : x.OrdConnected
  y_ordConnected : y.OrdConnected

open ExactScalar

variable {α : Type} [ExactScalar α]

namespace Box

instance : Membership (Point α) (Box α) :=
  ⟨fun box p => p.x ∈ box.x ∧ p.y ∈ box.y⟩

/-- The closed box between two corners. -/
def between (lower upper : Point α) : Box α :=
  ⟨Set.Icc lower.x upper.x, Set.Icc lower.y upper.y, Set.ordConnected_Icc, Set.ordConnected_Icc⟩

theorem mem_between_iff {lower upper p : Point α} :
    p ∈ between lower upper ↔
      (lower.x ≤ p.x ∧ p.x ≤ upper.x) ∧ (lower.y ≤ p.y ∧ p.y ≤ upper.y) :=
  Iff.rfl

/-- A part of the way between two positions of a box does not leave it. -/
theorem add_scale_mem {box : Box α} {p q : Point α} (hp : p ∈ box) (hq : q ∈ box) {part : α}
    (nonneg : 0 ≤ part) (le_one : part ≤ 1) : p + (q - p).scale part ∈ box := by
  have hpart : part ∈ Set.Icc 0 1 := ⟨nonneg, le_one⟩
  have hx := box.x_ordConnected.convex.add_smul_sub_mem hp.1 hq.1 hpart
  have hy := box.y_ordConnected.convex.add_smul_sub_mem hp.2 hq.2 hpart
  rw [smul_eq_mul, mul_comm] at hx hy
  exact ⟨hx, hy⟩

end Box

namespace Filter

/-! ## Radius smoothing -/

theorem turns_radius_box {s : RadiusSettings α} (accepted : Accepted s.checks) (box : Box α) :
    (Filter.radius (.ofSettings s)).Turns (· ∈ box) (· ∈ box) := by
  refine turns_radius_of_follow (fun _ hp => hp) fun smoothed raw hsmoothed hraw => ?_
  rw [Radius.follow_eq accepted]
  exact Box.add_scale_mem hsmoothed hraw (Radius.gain_nonneg accepted _)
    (Radius.gain_le_one accepted _)

/-! ## Adaptive smoothing -/

theorem seconds_pos {span : Nat} (h : 0 < span) : (0 : α) < seconds span := by
  have hbillion : (0 : α) < (1000000000 : Nat) := Nat.cast_pos.mpr (by norm_num)
  have hwhole : (0 : α) ≤ (span / 1000000000 : Nat) := Nat.cast_nonneg _
  have hpart : (0 : α) ≤ ((span % 1000000000 : Nat) : α) / (1000000000 : Nat) :=
    div_nonneg (Nat.cast_nonneg _) hbillion.le
  -- A span below one second is its own remainder.
  by_cases hlong : 1000000000 ≤ span
  · have hseconds : (0 : α) < (span / 1000000000 : Nat) := Nat.cast_pos.mpr (by omega)
    exact add_pos_of_pos_of_nonneg hseconds hpart
  · have hrest : (0 : α) < (span % 1000000000 : Nat) := Nat.cast_pos.mpr (by omega)
    exact add_pos_of_nonneg_of_pos hwhole (div_pos hrest hbillion)

namespace LowPass

theorem weight_mem {dt cutoff : α} (hdt : 0 ≤ dt) (hcutoff : 0 ≤ cutoff) :
    weight dt cutoff ∈ Set.Icc 0 1 := by
  have htwo : (0 : α) ≤ (2 : Nat) := Nat.cast_nonneg 2
  have hr : 0 ≤ ((2 : Nat) : α) * Scalar.pi * cutoff * dt :=
    mul_nonneg (mul_nonneg (mul_nonneg htwo pi_pos.le) hcutoff) hdt
  have hone : ((1 : Nat) : α) = 1 := Nat.cast_one
  unfold weight
  simp only [hone]
  have hr' := add_pos_of_nonneg_of_pos hr one_pos
  exact ⟨div_nonneg hr hr'.le, (div_le_one hr').mpr (le_add_of_nonneg_right zero_le_one)⟩

/-- A blend of two values of an interval does not leave it. -/
theorem blend_mem {interval : Set α} (h : interval.OrdConnected) {a new old : α}
    (ha : a ∈ Set.Icc 0 1) (hnew : new ∈ interval) (hold : old ∈ interval) :
    blend a new old ∈ interval := by
  have hpart := h.convex.add_smul_sub_mem hold hnew ha
  have hblend : blend a new old = old + a • (new - old) := by
    have hone : ((1 : Nat) : α) = 1 := Nat.cast_one
    rw [blend, hone, smul_eq_mul]
    ring
  rwa [hblend]

/-- However fast a value moves, its cutoff is not negative. -/
theorem update_mem {s : AdaptiveSettings α} (accepted : Accepted s.checks) {interval : Set α}
    (h : interval.OrdConnected) {dt : α} (hdt : 0 ≤ dt) {p : LowPass α} {x : α}
    (hp : p.value ∈ interval) (hx : x ∈ interval) : (p.update s dt x).value ∈ interval := by
  obtain ⟨hmin, hbeta, -⟩ := s.accepted_iff.mp accepted
  have hcutoff (speed : α) : 0 ≤ s.minCutoff + s.beta * Scalar.abs speed :=
    add_nonneg hmin.le (mul_nonneg hbeta (abs_nonneg speed))
  exact blend_mem h (weight_mem hdt (hcutoff _)) hx hp

end LowPass

theorem turns_adaptive_box {s : AdaptiveSettings α} (accepted : Accepted s.checks) (box : Box α) :
    (Filter.adaptive (.ofSettings s)).Turns (· ∈ box) (· ∈ box) := by
  refine turns_adaptive_of_update (I := fun state => state.position ∈ box) (fun _ _ hp => hp) ?_
    fun _ hstate => hstate
  intro state p now later _ hstate hp
  have hdt : (0 : α) ≤ seconds (now - state.last) := (seconds_pos (by omega)).le
  exact ⟨LowPass.update_mem accepted box.x_ordConnected hdt hstate.1 hp.1,
    LowPass.update_mem accepted box.y_ordConnected hdt hstate.2 hp.2⟩

/-! ## Nested chains -/

/-- Fresh filters that leave the coordinate system alone, and chains of them to any depth. -/
inductive Steadying : Filter α → Prop where
  | dropout (maxCount : Nat) : Steadying (.dropout (.start maxCount))
  | glitch (maxCount : Nat) (distanceSquared : α) :
      Steadying (.glitch (.start maxCount distanceSquared))
  | radius {s : RadiusSettings α} (accepted : Accepted s.checks) :
      Steadying (.radius (.ofSettings s))
  | adaptive {s : AdaptiveSettings α} (accepted : Accepted s.checks) :
      Steadying (.adaptive (.ofSettings s))
  | chain {members : List (Filter α)} (each : ∀ g ∈ members, Steadying g) :
      Steadying (.chain members)

theorem Steadying.turns_box {g : Filter α} (h : Steadying g) (box : Box α) :
    g.Turns (· ∈ box) (· ∈ box) := by
  induction h with
  | dropout maxCount => exact turns_dropout maxCount
  | glitch maxCount distanceSquared => exact turns_glitch maxCount distanceSquared
  | radius accepted => exact turns_radius_box accepted box
  | adaptive accepted => exact turns_adaptive_box accepted box
  | chain each ih => exact turns_chain_of_forall ih

theorem steadying_ofSmoothing {s : Smoothing α} (accepted : Accepted s.checks) :
    ∀ g ∈ ofSmoothing s, Steadying g := by
  cases s with
  | off => exact List.forall_mem_nil _
  | radius s => exact List.forall_mem_singleton.mpr (.radius accepted)
  | adaptive s => exact List.forall_mem_singleton.mpr (.adaptive accepted)

/-- So is all that accepted settings without a translation make a chain of. -/
theorem steadying_ofSettings {s : FilterSettings α} (accepted : Accepted s.checks)
    (off : s.translate = .off) : ∀ g ∈ ofSettings s, Steadying g := by
  obtain ⟨-, hsmoothing, -⟩ := s.accepted_iff.mp accepted
  simp only [ofSettings, off, Translation.mapping, Option.toList_none, List.map_nil,
    List.append_nil, List.cons_append, List.nil_append, List.forall_mem_cons]
  exact ⟨.dropout _, .glitch _ _, steadying_ofSmoothing hsmoothing⟩

/--
Every chain of dropout repair, glitch rejection and smoothing, nested to any depth, tells positions
of a box as long as it is given positions of the box, at whatever instants.
-/
theorem run_confined {members : List (Filter α)} (steadying : ∀ g ∈ members, Steadying g)
    (stream : List (Frame α × Nat)) :
    ((Filter.chain members).run stream).2.length = stream.length ∧
      ∀ (k : Nat) (told : Frame α), ((Filter.chain members).run stream).2[k]? = some told →
        ∀ box : Box α, (∀ given ∈ stream.take (k + 1), given.1.Meets (· ∈ box)) →
          told.Meets (· ∈ box) := by
  refine ⟨length_run _ stream, ?_⟩
  intro k told htold box given
  have hmember : told ∈ ((Filter.chain members).run (stream.take (k + 1))).2 := by
    rw [run_take]
    refine List.mem_of_getElem? (i := k) ?_
    rw [List.getElem?_take_of_lt (Nat.lt_succ_self k), htold]
  exact (Steadying.chain steadying).turns_box box _ given told hmember

/-- A jump, told through two kinds of smoothing; what is missing then was nowhere near. -/
theorem run_confined_of_jump :
    let s : FilterSettings ℝ := ⟨⟨8⟩, ⟨5, 22500⟩, .radius .exactDefault, .off⟩
    let members := ofSettings s ++ [.chain [.adaptive (.ofSettings .exactDefault)]]
    let stream : List (Frame ℝ × Nat) := [(⟨true, .good, ⟨0, 0⟩, 1⟩, 0),
      (⟨true, .good, ⟨10, 4⟩, 1⟩, 8000000), (⟨false, .lost, ⟨500, 500⟩, 1⟩, 16000000)]
    (∀ g ∈ members, Steadying g) ∧ ((Filter.chain members).run stream).2.length = 3 ∧
      ∀ told ∈ ((Filter.chain members).run stream).2,
        told.Meets (· ∈ Box.between ⟨0, 0⟩ ⟨10, 4⟩) := by
  intro s members stream
  have hglitch : Accepted s.glitch.checks := s.glitch.accepted_iff.mpr (by norm_num [s])
  have accepted : Accepted s.checks :=
    s.accepted_iff.mpr ⟨hglitch, RadiusSettings.exactDefault_accepted, List.forall_mem_nil _⟩
  have steadying : ∀ g ∈ members, Steadying g := by
    rw [List.forall_mem_append, List.forall_mem_singleton]
    exact ⟨steadying_ofSettings accepted rfl, .chain <| List.forall_mem_singleton.mpr <|
      .adaptive AdaptiveSettings.exactDefault_accepted⟩
  have given : ∀ entry ∈ stream, entry.1.Meets (· ∈ Box.between (⟨0, 0⟩ : Point ℝ) ⟨10, 4⟩) := by
    simp [stream, Frame.Meets, Box.mem_between_iff]
  obtain ⟨hlength, hconfined⟩ := run_confined steadying stream
  refine ⟨steadying, hlength, fun told htold => ?_⟩
  obtain ⟨k, hk⟩ := List.getElem?_of_mem htold
  exact hconfined k told hk _ fun entry hentry => given entry (List.mem_of_mem_take hentry)

end Filter

end SensorBar
