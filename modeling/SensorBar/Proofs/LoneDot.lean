import SensorBar.Proofs.ApparentBar

/-! # One dot left

A single dot is no pair, so the search fails and the stored bar is moved onto the dot with the end
that is nearer to it.  When nothing tells against that (the dot is not far from a bar that was lost,
and no bounds say where the other emitter should have been seen) the whole bar is shifted by what
that one end moved.  The pointer then moves by the same vector, turned level with the bar: this
rests on the coherence of the stored bar, by which its level ends are its tilted ones turned by its
own offset angle.
-/

namespace SensorBar

variable {α : Type} [ExactScalar α]

theorem Point.distSq_eq_normSq_sub (p q : Point α) : p.distSq q = (p - q).normSq := by
  simp only [distSq, normSq_eq, sub_x, sub_y]
  ring

theorem Point.scale_add (p q : Point α) (k : α) : (p + q).scale k = p.scale k + q.scale k := by
  apply Point.ext
  · simp only [scale_x, add_x]
    ring
  · simp only [scale_y, add_y]
    ring

namespace Bar

/-- The end of a bar that is nearer to a tilted dot; of two equally near ones, the left end. -/
def nearerEnd (b : Bar α) (dot : Point α) : End :=
  if dot.distSq b.tilted.right < dot.distSq b.tilted.left then .right else .left

/-! ## The nearest match of one dot -/

theorem nearest_lone (b : Bar α) (dot : Point α) :
    nearest b [dot] =
      some ⟨dot.distSq (b.tilted.get (b.nearerEnd dot)), dot, b.nearerEnd dot⟩ := by
  by_cases h : dot.distSq b.tilted.right < dot.distSq b.tilted.left
  · have hbeats : ¬ dot.distSq b.tilted.left ≤ dot.distSq b.tilted.right := h.not_ge
    simp [nearest, allMatches, winner, challenge, nearerEnd, h, hbeats, Pair.get]
  · have hkeeps : dot.distSq b.tilted.left ≤ dot.distSq b.tilted.right := not_lt.mp h
    simp [nearest, allMatches, winner, challenge, nearerEnd, h, hkeeps, Pair.get]

/-- Without bounds in one direction no rebuilt emitter is expected to be in view. -/
theorem shouldBeVisible_of_boundless {s : PointerSettings α}
    (boundless : s.offScreenX = 0 ∨ s.offScreenY = 0) (emitter : Point α) :
    shouldBeVisible s emitter = false := by
  have habs : ∀ x : α, ¬ Scalar.abs x < 0 := fun x => (abs_nonneg x).not_gt
  rcases boundless with h | h
  · simp [shouldBeVisible, h, habs]
  · simp [shouldBeVisible, h, habs]

theorem followNearest_lone {s : PointerSettings α}
    (boundless : s.offScreenX = 0 ∨ s.offScreenY = 0) {health : Health} (roll : α) (b : Bar α)
    {dot : Point α} (near : health = .lost →
      dot.distSq (b.tilted.get (b.nearerEnd dot)) < s.singleNoGuessDistance) :
    followNearest s health roll b [dot] = some (b.shiftTo (b.nearerEnd dot) dot roll) := by
  have hbelieved : ¬ (health = .lost ∧
      s.singleNoGuessDistance ≤ dot.distSq (b.tilted.get (b.nearerEnd dot))) :=
    fun h => (near h.1).not_ge h.2
  simp [followNearest, nearest_lone, hbelieved, shouldBeVisible_of_boundless boundless]

/-! ## What the shift does -/

/-- Both tilted ends move by what the end on the dot moves. -/
theorem tilted_shiftTo (b : Bar α) (e : End) (dot : Point α) (roll : α) (other : End) :
    (b.shiftTo e dot roll).tilted.get other = b.tilted.get other + (dot - b.tilted.get e) := by
  cases e <;> cases other <;> apply Point.ext <;>
    simp [shiftTo, relevel, carry, Pair.place, Pair.get, End.other] <;> ring

/-- The level ends of a coherent bar are its tilted ones, turned. -/
theorem Coherent.corrected_get {b : Bar α} {roll : α} (h : b.Coherent roll) (e : End) :
    b.corrected.get e = (b.tilted.get e).rotate b.offsetAngle := by
  rw [h.corrected_of_tilted]
  cases e <;> rfl

theorem center_eq (b : Bar α) :
    b.center = ⟨((b.corrected.get .left).x + (b.corrected.get .right).x) / 2,
      ((b.corrected.get .left).y + (b.corrected.get .right).y) / 2⟩ := by
  have htwo : ((2 : Nat) : α) = 2 := Nat.cast_ofNat
  rw [← htwo]
  rfl

theorem center_shiftTo {b : Bar α} {before : α} (h : b.Coherent before) (e : End) (dot : Point α)
    (roll : α) :
    (b.shiftTo e dot roll).center =
      b.center + (dot - b.tilted.get e).rotate b.offsetAngle := by
  have hturn : (b.shiftTo e dot roll).offsetAngle = b.offsetAngle :=
    (sameShape_shiftTo h e dot roll).offsetAngle
  have hends : ∀ other, (b.shiftTo e dot roll).corrected.get other =
      b.corrected.get other + (dot - b.tilted.get e).rotate b.offsetAngle := by
    intro other
    rw [(coherent_shiftTo b e dot roll).corrected_get, hturn, tilted_shiftTo, h.corrected_get,
      Point.rotate_add]
  rw [center_eq, center_eq, hends, hends]
  apply Point.ext
  · simp only [Point.add_x]
    ring
  · simp only [Point.add_y]
    ring

end Bar

namespace Tracker

theorem candidates_lone (t : Tracker α) (roll : α) (p : Point α) : t.candidates roll [p] = [] :=
  rfl

/-- A step that sees one dot moves the stored bar onto it, when nothing tells against that. -/
theorem advance_lone {t : Tracker α} (boundless : t.settings.offScreenX = 0 ∨
    t.settings.offScreenY = 0) {b : Bar α} (last : t.lastBar = some b) (alive : t.health ≠ .dead)
    {roll : α} {p : Point α} (near : t.health = .lost →
      (p.rotate roll).distSq (b.tilted.get (b.nearerEnd (p.rotate roll))) <
        t.settings.singleNoGuessDistance) :
    let moved := t.follow (b.shiftTo (b.nearerEnd (p.rotate roll)) (p.rotate roll) roll) .single
    t.advance roll [p] = .ok (moved, moved.liveFrame) := by
  have hfollow := Bar.followNearest_lone boundless roll b near
  obtain ⟨edge, -, hedge⟩ := Bar.edgemost_eq_some t.settings.height (List.cons_ne_nil p [])
  have hrec : Bar.recover t.settings t.health roll t.lastBar [p] (rotateAll [p] roll) =
      .ok (some (b.shiftTo (b.nearerEnd (p.rotate roll)) (p.rotate roll) roll)) := by
    simp [Bar.recover, last, alive, hedge, rotateAll, hfollow]
  simp [advance, locate_of_recover (t.candidates_lone roll p) hrec]

/--
A step that sees one dot shifts the bar by what its nearer end moved, and the pointer by the same
vector made level with the bar.  The distance stays, and a dot that is where that end was does not
move the pointer at all.
-/
theorem step_lone_dot {s : PointerSettings α} (accepted : Accepted s.checks)
    (boundless : s.offScreenX = 0 ∨ s.offScreenY = 0) {past : List (Transition α)} {t : Tracker α}
    (reached : Reaches (start s) past t) {b : Bar α} (last : t.lastBar = some b)
    {slots : Camera.Slots} (inView : slots.InView) {spot : Camera.Spot}
    (lone : slots.spots = [spot]) (roll : α) :
    let dot := spot.toPoint.rotate roll
    let delta := dot - b.tilted.get (b.nearerEnd dot)
    (t.health = .good ∨ t.health = .single ∨
      t.health = .lost ∧ delta.normSq < s.singleNoGuessDistance) →
    (t.position, t.distance) = lastEstimate past ∧
      ∃ next frame moved, t.step slots roll = .ok (next, frame) ∧
        frame.valid = true ∧ frame.health = .single ∧ frame.distance = t.distance ∧
        frame.position = t.position + (delta.rotate b.offsetAngle).scale pointerScale ∧
        next.lastBar = some moved ∧ (∀ e, moved.tilted.get e = b.tilted.get e + delta) ∧
        (delta = .zero → frame.position = t.position) := by
  intro dot delta condition
  have positive := PointerSettings.minWidth_pos accepted
  obtain ⟨v, -, coherent, -⟩ := storesPlaced_of_reaches positive reached b last
  obtain ⟨hposition, hdistance⟩ := estimate_of_reaches reached last
  have settings : t.settings = s := reached.settings
  have alive : t.health ≠ .dead := by
    rcases condition with h | h | ⟨h, -⟩ <;> simp [h]
  have near : t.health = .lost →
      dot.distSq (b.tilted.get (b.nearerEnd dot)) < t.settings.singleNoGuessDistance := by
    intro lost
    rw [Point.distSq_eq_normSq_sub, settings]
    rcases condition with h | h | ⟨-, h⟩
    · simp [h] at lost
    · simp [h] at lost
    · exact h
  have hdots : slots.dots = [spot.toPoint (α := α)] := by
    simp [Camera.Slots.dots, lone]
  let next := t.follow (b.shiftTo (b.nearerEnd dot) dot roll) .single
  have hstep : t.step slots roll = .ok (next, next.liveFrame) := by
    rw [step_eq_ok_iff, hdots]
    exact ⟨inView, advance_lone (settings.symm ▸ boundless) last alive near⟩
  have hmoved : next.position =
      t.position + (delta.rotate b.offsetAngle).scale pointerScale := by
    rw [hposition, ← Point.scale_add, ← Bar.center_shiftTo coherent]
    rfl
  have hkept : next.distance = t.distance := by
    rw [hdistance, ← Bar.width_shiftTo coherent (b.nearerEnd dot) dot roll, ← settings]
    rfl
  refine ⟨(summary_of_reaches reached).estimate, next, next.liveFrame, _, hstep, rfl, rfl, hkept,
    hmoved, rfl, Bar.tilted_shiftTo b _ dot roll, ?_⟩
  intro still
  refine hmoved.trans ?_
  rw [still]
  apply Point.ext <;> simp

/-- After two emitters on a level camera, one of them on a turned camera. -/
theorem step_lone_dot_of_turningBar :
    ∃ (t next : Tracker ℝ) (b : Bar ℝ) (frame : Frame ℝ),
      t.health = .good ∧ t.lastBar = some b ∧
      t.step #v[some ⟨300, 500⟩, none, none, none] 1 = .ok (next, frame) ∧
      frame.health = .single ∧ frame.distance = t.distance := by
  obtain ⟨good, o, hrun, hshown, -⟩ := run_turningBar
  have split : (start .exactDefault).run turningBar = [] ++ good :: [o] := hrun
  obtain ⟨reached, genuine⟩ := reaches_of_run split
  obtain ⟨bar, hafter⟩ :=
    found_of_good reached genuine ((frame_good_iff reached genuine).mpr hshown)
  have hhealth : good.after.health = .good := by
    rw [hafter]
    rfl
  have last : good.after.lastBar = some bar := by
    rw [hafter]
    rfl
  have lone : Camera.Slots.spots #v[some ⟨300, 500⟩, none, none, none] = [⟨300, 500⟩] := rfl
  obtain ⟨-, next, frame, moved, hstep, -, hsingle, hdistance, -⟩ :=
    step_lone_dot PointerSettings.exactDefault_accepted (.inl rfl) (.step reached genuine) last
      (by decide) lone 1 (.inl hhealth)
  exact ⟨good.after, next, bar, frame, hhealth, last, hstep, hsingle, hdistance⟩

end Tracker

end SensorBar
