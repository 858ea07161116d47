import SensorBar.Proofs.Double.Arithmetic
import SensorBar.Proofs.ReplayOutcome

/-! # The held roll

The estimate of the roll is that of the latest reading that can be trusted, and zero before the
first one.  A reading that cannot be trusted leaves no mark, so it may as well be left out; and a
reading that is not a number in some component is never trusted, because whatever is computed from
it is not a number either and compares with nothing.
-/

namespace SensorBar

open Double

section

variable {α : Type} [Scalar α]

/-! ## The latest trusted reading -/

/-- The latest reading that can be trusted. -/
def RollSettings.latest? (s : RollSettings α) (readings : List (Accel α)) : Option (Accel α) :=
  (readings.filter fun a => a.IsReliable s).getLast?

/-- The roll of the latest trusted reading, zero before there is one. -/
def RollSettings.held (s : RollSettings α) (readings : List (Accel α)) : α :=
  ((s.latest? readings).map (·.roll s.axis)).getD (0 : Nat)

theorem RollSettings.held_concat (s : RollSettings α) (readings : List (Accel α)) (a : Accel α) :
    s.held (readings ++ [a]) = if a.IsReliable s then a.roll s.axis else s.held readings := by
  unfold held latest?
  split <;> simp_all

namespace RollEstimator

theorem update_settings (e : RollEstimator α) (a : Accel α) :
    (e.update a).settings = e.settings := by
  unfold update
  split <;> rfl

theorem update_of_not_reliable {e : RollEstimator α} {a : Accel α}
    (h : ¬ a.IsReliable e.settings) : e.update a = e :=
  if_neg h

theorem foldl_update_start (s : RollSettings α) (readings : List (Accel α)) :
    readings.foldl update (start s) = ⟨s, s.held readings⟩ := by
  induction readings using List.reverseRecOn with
  | nil => rfl
  | append_singleton readings a ih =>
      rw [List.foldl_append, ih, s.held_concat, List.foldl_cons, List.foldl_nil, update]
      split <;> rfl

/-! ## Estimates -/

/-- The estimates of an estimator, one for every reading. -/
def estimates (e : RollEstimator α) : List (Accel α) → List α
  | [] => []
  | a :: rest => (e.update a).roll :: (e.update a).estimates rest

theorem getElem?_estimates (e : RollEstimator α) {readings : List (Accel α)} {i : Nat}
    (h : i < readings.length) :
    (e.estimates readings)[i]? = some ((readings.take (i + 1)).foldl update e).roll := by
  induction readings generalizing e i with
  | nil => exact absurd h (Nat.not_lt_zero i)
  | cons a rest ih =>
      cases i with
      | zero => rfl
      | succ i => exact ih (e.update a) (Nat.lt_of_succ_lt_succ h)

theorem exists_of_mem_estimates {e : RollEstimator α} {readings : List (Accel α)} {roll : α}
    (h : roll ∈ e.estimates readings) :
    ∃ heard : List (Accel α), roll = (heard.foldl update e).roll := by
  induction readings generalizing e with
  | nil => cases h
  | cons a rest ih =>
      rcases List.mem_cons.mp h with rfl | hrest
      · exact ⟨[a], rfl⟩
      · obtain ⟨heard, hroll⟩ := ih hrest
        exact ⟨a :: heard, hroll⟩

/-- Of some readings, each marked whether it is kept, those that are. -/
def kept {β : Type} (marked : List (β × Bool)) : List β :=
  (marked.filter (·.2)).map (·.1)

/-- Untrusted readings can be left out: the estimates at the others stay the same. -/
theorem estimates_kept {e : RollEstimator α} {marked : List (Accel α × Bool)}
    (h : ∀ m ∈ marked, m.2 = false → ¬ m.1.IsReliable e.settings) :
    e.estimates (kept marked) =
      kept ((e.estimates (marked.map (·.1))).zip (marked.map (·.2))) := by
  induction marked generalizing e with
  | nil => rfl
  | cons m rest ih =>
      obtain ⟨a, keep⟩ := m
      rw [List.forall_mem_cons] at h
      have hrest := ih (e := e.update a) (e.update_settings a ▸ h.2)
      cases keep with
      | true => simpa [kept, estimates] using hrest
      | false =>
          rw [update_of_not_reliable (h.1 rfl)] at hrest
          simpa [kept, estimates, update_of_not_reliable (h.1 rfl)] using hrest

end RollEstimator

/-! ## The roll of a replay -/

namespace Replay

theorem roll_of_step {r next : Replay α} {sample : Sample α} {o : Step α}
    (h : r.step sample = .ok (next, o)) : o.roll = (r.roll.update sample.accel).roll := by
  simp only [step] at h
  split at h
  · cases h
  · cases h
    rfl

/-- The roll of a step is the one that its tracker was given. -/
theorem exists_tracker_step_of_mem {r : Replay α} {results : List (Except Error (Sample α))}
    {o : Step α} (h : o ∈ (r.run results).steps) :
    ∃ (before after : Tracker α) (slots : Camera.Slots),
      before.step slots o.roll = .ok (after, o.raw) := by
  induction results generalizing r with
  | nil => cases h
  | cons result rest ih =>
      cases result with
      | error cause => cases h
      | ok sample =>
          cases hstep : r.step sample with
          | error breach => simp [run, hstep] at h
          | ok answer =>
              obtain ⟨next, first⟩ := answer
              rw [run_cons_of_step hstep] at h
              rcases List.mem_cons.mp h with rfl | hrest
              · exact ⟨r.tracker, next.tracker, sample.slots,
                  roll_of_step hstep ▸ (exists_of_step hstep).1⟩
              · exact ih hrest

/-- A replay estimates the roll from the readings that it hears, until it ends. -/
theorem map_roll_steps_prefix (r : Replay α) (results : List (Except Error (Sample α))) :
    (r.run results).steps.map (·.roll) <+: r.roll.estimates ((heard results).map (·.accel)) := by
  induction results generalizing r with
  | nil => exact List.prefix_rfl
  | cons result rest ih =>
      cases result with
      | error cause => exact List.prefix_rfl
      | ok sample =>
          cases hstep : r.step sample with
          | error breach => simp [run, hstep]
          | ok answer =>
              obtain ⟨next, o⟩ := answer
              have hroll : next.roll = r.roll.update sample.accel := (exists_of_step hstep).2.1
              rw [run_cons_of_step hstep]
              simpa [heard, RollEstimator.estimates, roll_of_step hstep, hroll]
                using ih next

end Replay

end

/-! ## Readings that are not numbers -/

variable [Trigonometry Float]

theorem Accel.isReliable_iff (s : RollSettings Float) (a : Accel Float) :
    a.IsReliable s ↔
      ((a.x * a.x + a.y * a.y + a.z * a.z).sqrt / s.gravity - Float.ofNat 1).abs ≤ s.tolerance :=
  Iff.rfl

/-- The square of a component, their sum, its root, the ratio and the deviation pass it on. -/
theorem Accel.not_nan_of_isReliable {s : RollSettings Float} {a : Accel Float}
    (h : a.IsReliable s) : ¬ a.x.isNaN ∧ ¬ a.y.isNaN ∧ ¬ a.z.isNaN := by
  by_contra hnan
  have component : a.x.isNaN ∨ a.y.isNaN ∨ a.z.isNaN := by
    simpa only [not_and_or, not_not] using hnan
  have squares : (a.x * a.x + a.y * a.y + a.z * a.z).isNaN := by
    rcases component with hx | hy | hz
    · exact isNaN_add (.inl (isNaN_add (.inl (isNaN_mul_self hx))))
    · exact isNaN_add (.inl (isNaN_add (.inr (isNaN_mul_self hy))))
    · exact isNaN_add (.inr (isNaN_mul_self hz))
  rw [isReliable_iff] at h
  exact not_le_of_isNaN (isNaN_abs (isNaN_sub (isNaN_div (isNaN_sqrt squares)))) h

/-- The angle of two numbers is a number. -/
def Trigonometry.KeepsNumbers : Prop :=
  ∀ y x : Float, ¬ y.isNaN → ¬ x.isNaN → ¬ (Trigonometry.atan2 y x).isNaN

theorem RollSettings.held_not_nan (defined : Trigonometry.KeepsNumbers) (s : RollSettings Float)
    (readings : List (Accel Float)) : ¬ (s.held readings).isNaN := by
  induction readings using List.reverseRecOn with
  | nil =>
      have zero : ¬ (Float.ofNat 0).isNaN := not_nan_of_isFinite (natCast_spec (by norm_num)).1
      exact zero
  | append_singleton readings a ih =>
      rw [s.held_concat]
      split
      · next reliable =>
          obtain ⟨hx, hy, hz⟩ := Accel.not_nan_of_isReliable reliable
          cases haxis : s.axis with
          | y => exact defined a.x a.y hx hy
          | z => exact defined a.x a.z hx hz
      · exact ih

/--
The estimate after every reading is the roll of the latest trusted one, or zero.  A reading that is
not a number in some component changes nothing, and leaving out untrusted readings changes no
estimate at the others.  If the angle of two numbers is a number, so is every estimate, and so is
the roll that any step of a replay gives to its tracker.
-/
theorem RollEstimator.estimates_hold (s : RollSettings Float) :
    (∀ (readings : List (Accel Float)) (i : Nat), i < readings.length →
      ((readings.take (i + 1)).foldl update (start s)).roll = s.held (readings.take (i + 1)) ∧
        ((start s).estimates readings)[i]? = some (s.held (readings.take (i + 1)))) ∧
    (∀ (e : RollEstimator Float) (a : Accel Float), a.x.isNaN ∨ a.y.isNaN ∨ a.z.isNaN →
      e.update a = e) ∧
    (∀ marked : List (Accel Float × Bool), (∀ m ∈ marked, m.2 = false → ¬ m.1.IsReliable s) →
      (start s).estimates (kept marked) =
        kept (((start s).estimates (marked.map (·.1))).zip (marked.map (·.2)))) ∧
    (Trigonometry.KeepsNumbers →
      (∀ readings, ∀ roll ∈ (start s).estimates readings, ¬ roll.isNaN) ∧
      ∀ (settings : Settings Float) (results : List (Except Error (Sample Float))),
        settings.roll = s → ∀ o ∈ ((Replay.start settings).run results).steps, ¬ o.roll.isNaN ∧
          ∃ (before after : Tracker Float) (slots : Camera.Slots),
            before.step slots o.roll = .ok (after, o.raw)) := by
  have numbers (defined : Trigonometry.KeepsNumbers) (readings : List (Accel Float)) :
      ∀ roll ∈ (start s).estimates readings, ¬ roll.isNaN := by
    intro roll hroll
    obtain ⟨heard, rfl⟩ := exists_of_mem_estimates hroll
    rw [foldl_update_start]
    exact s.held_not_nan defined heard
  refine ⟨?held, ?unread, ?left_out, fun defined => ⟨numbers defined, ?handed⟩⟩
  case held =>
    intro readings i hi
    rw [getElem?_estimates _ hi, foldl_update_start]
    exact ⟨rfl, rfl⟩
  case unread =>
    intro e a hnan
    refine update_of_not_reliable fun reliable => ?_
    obtain ⟨hx, hy, hz⟩ := Accel.not_nan_of_isReliable reliable
    rcases hnan with h | h | h
    exacts [hx h, hy h, hz h]
  case left_out =>
    intro marked untrusted
    exact estimates_kept untrusted
  case handed =>
    rintro settings results rfl o ho
    refine ⟨?_, Replay.exists_tracker_step_of_mem ho⟩
    exact numbers defined _ _
      ((Replay.map_roll_steps_prefix (Replay.start settings) results).subset
        (List.mem_map_of_mem ho))

/-- The functions of the angles between the axes of the right half plane. -/
@[reducible]
def Trigonometry.axial : Trigonometry Float where
  sin a := if a == 0 then 0 else if a < 0 then -1 else 1
  cos a := if a == 0 then 1 else 6.123233995736766e-17
  atan2 y _ := if y == 0 then 0 else if y < 0 then -1.5707963267948966 else 1.5707963267948966

omit [Trigonometry Float] in
theorem Trigonometry.axial_keepsNumbers : @Trigonometry.KeepsNumbers .axial := by
  intro y x _ _
  change ¬ (if y == 0 then 0 else if y < 0 then -1.5707963267948966 else 1.5707963267948966 :
    Float).isNaN
  split
  · decide +kernel
  · split
    · decide +kernel
    · decide +kernel

/-- Level, on its side, unreadable, thrown and falling, each marked whether it can be trusted. -/
def Accel.shaken : List (Accel Float × Bool) :=
  [(⟨0, 0, 1⟩, true), (⟨1, 0, 0⟩, true), (⟨0, Float.nan, 1⟩, false), (⟨0, 0, Float.inf⟩, false),
    (⟨0, 0, 0⟩, false)]

theorem Accel.shaken_unreliable :
    ∀ m ∈ shaken, m.2 = false → ¬ m.1.IsReliable RollSettings.default := by
  simp only [isReliable_iff]
  decide +kernel

/-- The samples of a controller that is turned and shaken while it sees two emitters. -/
def Replay.shakenSamples : List (Sample Float) :=
  Accel.shaken.map fun m => ⟨0, #v[some ⟨300, 384⟩, some ⟨700, 384⟩, none, none], m.1⟩

omit [Trigonometry Float] in
/-- On its side it stays for the tracker, whatever the readings that follow are. -/
theorem RollEstimator.estimates_hold_of_shaken :
    ∃ _ : Trigonometry Float, Trigonometry.KeepsNumbers ∧
      (∀ m ∈ Accel.shaken, m.2 = false → ¬ m.1.IsReliable RollSettings.default) ∧
      ((start .default).estimates (Accel.shaken.map (·.1)))[4]? = some 1.5707963267948966 ∧
      (start .default).estimates (kept Accel.shaken) =
        kept (((start .default).estimates (Accel.shaken.map (·.1))).zip
          (Accel.shaken.map (·.2))) ∧
      ∀ o ∈ ((Replay.start .default).run (Replay.shakenSamples.map .ok)).steps, ¬ o.roll.isNaN := by
  refine ⟨.axial, Trigonometry.axial_keepsNumbers, @Accel.shaken_unreliable .axial, ?_⟩
  obtain ⟨held, -, left_out, numbers⟩ := @estimates_hold .axial .default
  refine ⟨?_, left_out Accel.shaken (@Accel.shaken_unreliable .axial), fun o ho => ?_⟩
  · rw [(held (Accel.shaken.map (·.1)) 4 (by decide)).2]
    exact congrArg some (by decide +kernel)
  · exact ((numbers Trigonometry.axial_keepsNumbers).2 .default _ rfl o ho).1

end SensorBar
