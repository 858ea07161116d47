import SensorBar.Proofs.FilterCascade

/-! # Filters and the clock

Adaptive smoothing is the one stage that asks for the time, and it asks only how long after its
latest frame the next one comes.  So a filter that has seen the same frames, all of them later by one
delay, holds the same but for its instants, and tells the same.  A filter with no adaptive smoothing
in it does not ask for the time at all.
-/

namespace SensorBar.Filter

variable {α : Type}

/-! ## Delays -/

/-- Adaptive smoothing whose frames have all come later by a delay. -/
def Adaptive.delay (d : Nat) (a : Adaptive α) : Adaptive α :=
  { a with state := a.state.map fun s => { s with last := d + s.last } }

mutual

/-- The filter whose frames have all come later by a delay. -/
def delay (d : Nat) : Filter α → Filter α
  | .dropout s => .dropout s
  | .glitch s => .glitch s
  | .radius s => .radius s
  | .adaptive a => .adaptive (a.delay d)
  | .translate m => .translate m
  | .chain members => .chain (delayAll d members)

def delayAll (d : Nat) : List (Filter α) → List (Filter α)
  | [] => []
  | g :: rest => g.delay d :: delayAll d rest

end

/-- A stream that comes later by a delay. -/
def delayed (d : Nat) (stream : List (Frame α × Nat)) : List (Frame α × Nat) :=
  stream.map fun (f, now) => (f, d + now)

/-- Whether no adaptive smoothing at any depth has taken a frame yet. -/
def HoldsNoInstant (g : Filter α) : Prop :=
  ∀ a, .adaptive a ∈ g.leaves → a.state = none

/-- Whether a filter has no adaptive smoothing at any depth. -/
def IgnoresTime (g : Filter α) : Prop :=
  ∀ a, .adaptive a ∉ g.leaves

theorem holdsNoInstant_chain_iff (members : List (Filter α)) :
    (Filter.chain members).HoldsNoInstant ↔ ∀ g ∈ members, g.HoldsNoInstant := by
  simp only [HoldsNoInstant, leaves_chain, List.mem_flatMap]
  exact ⟨fun h g hg a ha => h a ⟨g, hg, ha⟩, fun h a ⟨g, hg, ha⟩ => h g hg a ha⟩

theorem ignoresTime_chain_iff (members : List (Filter α)) :
    (Filter.chain members).IgnoresTime ↔ ∀ g ∈ members, g.IgnoresTime := by
  simp only [IgnoresTime, leaves_chain, List.mem_flatMap]
  exact ⟨fun h g hg a ha => h a ⟨g, hg, ha⟩, fun h a ⟨g, hg, ha⟩ => h g hg a ha⟩

theorem delayAll_eq_map (d : Nat) (members : List (Filter α)) :
    delayAll d members = members.map (delay d) := by
  induction members with
  | nil => rfl
  | cons g rest ih => rw [delayAll, ih, List.map_cons]

theorem delay_chain (d : Nat) (members : List (Filter α)) :
    (Filter.chain members).delay d = .chain (members.map (delay d)) := by
  rw [delay, delayAll_eq_map]

/-- A filter that holds no instant is the same after any delay. -/
theorem delay_of_holdsNoInstant (d : Nat) {g : Filter α} (h : g.HoldsNoInstant) :
    g.delay d = g := by
  induction g using induction_members with
  | adaptive a =>
      have hstate : a.state = none := h a (List.mem_singleton_self _)
      rw [delay, Adaptive.delay, hstate, Option.map_none, ← hstate]
  | chain members ih =>
      rw [holdsNoInstant_chain_iff] at h
      rw [delay_chain, List.map_congr_left fun g hg => ih g hg (h g hg), List.map_id']
  | _ => rfl

theorem holdsNoInstant_of_mem_ofSmoothing {s : Smoothing α} {g : Filter α}
    (h : g ∈ ofSmoothing s) : g.HoldsNoInstant := by
  cases s with
  | off => cases h
  | radius settings =>
      obtain rfl := List.mem_singleton.mp h
      intro a ha
      cases List.mem_singleton.mp ha
  | adaptive settings =>
      obtain rfl := List.mem_singleton.mp h
      intro a ha
      cases List.mem_singleton.mp ha
      rfl

variable [Scalar α]

/-- No filter of settings has taken a frame yet. -/
theorem holdsNoInstant_of_mem_ofSettings {s : FilterSettings α} {g : Filter α}
    (h : g ∈ ofSettings s) : g.HoldsNoInstant := by
  simp only [ofSettings, List.mem_append, List.mem_cons, List.not_mem_nil, or_false,
    List.mem_map] at h
  obtain ((rfl | rfl) | hsmoothing) | ⟨m, -, rfl⟩ := h
  case inl.inr => exact holdsNoInstant_of_mem_ofSmoothing hsmoothing
  all_goals
    intro a ha
    cases List.mem_singleton.mp ha

/-- Only the time since the latest frame counts. -/
theorem Adaptive.State.advance_delay (d : Nat) (settings : AdaptiveSettings α) (s : State α)
    (p : Point α) (now : Nat) :
    State.advance settings { s with last := d + s.last } p (d + now) =
      { s.advance settings p now with last := d + now } := by
  simp only [State.advance, Nat.add_sub_add_left]

theorem Adaptive.step_delay (d : Nat) (a : Adaptive α) (f : Frame α) (now : Nat) :
    (a.delay d).step f (d + now) = ((a.step f now).1.delay d, (a.step f now).2) := by
  cases hvalid : f.valid with
  | false => simp [step, hvalid]
  | true =>
      cases hstate : a.state with
      | none => simp [step, hvalid, delay, hstate, restart]
      | some s =>
          by_cases late : now ≤ s.last
          · simp [step, hvalid, delay, hstate, late, State.position]
          · by_cases gap : maxGap < now - s.last
            · simp only [step, hvalid, delay, hstate, restart, Option.map_some, if_true,
                Nat.add_le_add_iff_left, Nat.add_sub_add_left, if_neg late, if_pos gap]
            · simp only [step, hvalid, delay, hstate, Option.map_some, if_true,
                Nat.add_le_add_iff_left, Nat.add_sub_add_left, if_neg late, if_neg gap,
                State.advance_delay]
              rfl

theorem stepAll_delay_of_forall {d now : Nat} {members : List (Filter α)}
    (h : ∀ g ∈ members, ∀ f : Frame α,
      (g.delay d).step (d + now) f = ((g.step now f).1.delay d, (g.step now f).2)) (f : Frame α) :
    stepAll (d + now) (members.map (delay d)) f =
      ((stepAll now members f).1.map (delay d), (stepAll now members f).2) := by
  induction members generalizing f with
  | nil => rfl
  | cons g rest ih =>
      rw [List.forall_mem_cons] at h
      rw [List.map_cons, stepAll_cons, stepAll_cons, h.1, ih h.2, List.map_cons]

/-- A filter tells the same when all that it sees and has seen comes later by one delay. -/
theorem step_delay (d now : Nat) (g : Filter α) (f : Frame α) :
    (g.delay d).step (d + now) f = ((g.step now f).1.delay d, (g.step now f).2) := by
  induction g using induction_members generalizing f with
  | adaptive a =>
      rw [delay, step, a.step_delay]
      rfl
  | chain members ih =>
      rw [delay_chain, step_chain, step_chain, delay_chain, stepAll_delay_of_forall ih]
  | _ => rfl

theorem stepAll_delay (d now : Nat) (members : List (Filter α)) (f : Frame α) :
    stepAll (d + now) (members.map (delay d)) f =
      ((stepAll now members f).1.map (delay d), (stepAll now members f).2) :=
  stepAll_delay_of_forall (fun g _ => g.step_delay d now) f

theorem run_delay (d : Nat) (g : Filter α) (stream : List (Frame α × Nat)) :
    (g.delay d).run (delayed d stream) = ((g.run stream).1.delay d, (g.run stream).2) := by
  induction stream generalizing g with
  | nil => rfl
  | cons entry rest ih =>
      rw [delayed, List.map_cons, run_cons, run_cons, step_delay]
      rw [delayed] at ih
      rw [ih]

/-- One constant between the instants of two streams changes nothing of what is told. -/
theorem run_of_delayed_eq {g : Filter α} (h : g.HoldsNoInstant) {d d' : Nat}
    {stream stream' : List (Frame α × Nat)} (same : delayed d stream = delayed d' stream') :
    (g.run stream).2 = (g.run stream').2 := by
  have hrun := run_delay d g stream
  have hrun' := run_delay d' g stream'
  rw [delay_of_holdsNoInstant _ h] at hrun hrun'
  rw [same, hrun'] at hrun
  exact (congrArg Prod.snd hrun).symm

/-! ## No time at all -/

theorem stepAll_of_ignoresTime_of_forall {now now' : Nat} {members : List (Filter α)}
    (h : ∀ g ∈ members, ∀ f : Frame α,
      g.step now f = g.step now' f ∧ (g.step now f).1.IgnoresTime) (f : Frame α) :
    stepAll now members f = stepAll now' members f ∧
      ∀ g ∈ (stepAll now members f).1, g.IgnoresTime := by
  induction members generalizing f with
  | nil => exact ⟨rfl, List.forall_mem_nil _⟩
  | cons g rest ih =>
      rw [List.forall_mem_cons] at h
      obtain ⟨hstep, hnext⟩ := h.1 f
      obtain ⟨hrest, hlater⟩ := ih h.2 (g.step now f).2
      rw [stepAll_cons, stepAll_cons, ← hstep, ← hrest, List.forall_mem_cons]
      exact ⟨rfl, hnext, hlater⟩

/-- Without adaptive smoothing the instant of a frame makes no difference. -/
theorem step_of_ignoresTime (now now' : Nat) {g : Filter α} (h : g.IgnoresTime) (f : Frame α) :
    g.step now f = g.step now' f ∧ (g.step now f).1.IgnoresTime := by
  induction g using induction_members generalizing f with
  | adaptive a => exact absurd (List.mem_singleton_self _) (h a)
  | chain members ih =>
      rw [ignoresTime_chain_iff] at h
      obtain ⟨hstep, hnext⟩ := stepAll_of_ignoresTime_of_forall (fun g hg => ih g hg (h g hg)) f
      rw [step_chain, step_chain, ← hstep, ignoresTime_chain_iff]
      exact ⟨rfl, hnext⟩
  | _ => exact ⟨rfl, fun a ha => by cases List.mem_singleton.mp ha⟩

theorem run_of_ignoresTime {g : Filter α} (h : g.IgnoresTime)
    {stream stream' : List (Frame α × Nat)}
    (same : stream.map (·.1) = stream'.map (·.1)) : g.run stream = g.run stream' := by
  induction stream generalizing g stream' with
  | nil => rw [List.map_eq_nil_iff.mp same.symm]
  | cons entry rest ih =>
      obtain ⟨entry', rest', rfl, hentry, hrest⟩ := List.map_eq_cons_iff.mp same.symm
      obtain ⟨hstep, hnext⟩ := step_of_ignoresTime entry.2 entry'.2 h entry.1
      rw [run_cons, run_cons, hentry, ← hstep, ih hnext hrest.symm]

end SensorBar.Filter
