import SensorBar.Proofs.FilterCascade
import SensorBar.Proofs.GlitchRun

/-! # Stages

What a filter does to positions is stated about whole streams: from valid frames at positions with
one property it makes valid frames at positions with another.  The frames that leave a chain have
passed through its members one after another, so these statements compose along a chain, and each
one is proved from an invariant of the state of a single member.
-/

namespace SensorBar

variable {α : Type}

/-- The position of a valid frame has property `P`. -/
def Frame.Meets (P : Point α → Prop) (f : Frame α) : Prop :=
  f.valid = true → P f.position

theorem Frame.Meets.mono {P Q : Point α → Prop} {f : Frame α} (h : f.Meets P)
    (implies : ∀ p, P p → Q p) : f.Meets Q :=
  fun valid => implies _ (h valid)

namespace Filter

variable [Scalar α] {P Q R : Point α → Prop} {g : Filter α}

/-- Whatever the instants, valid frames at positions with `P` become valid frames at positions with
`Q`. -/
def Turns (P Q : Point α → Prop) (g : Filter α) : Prop :=
  ∀ stream : List (Frame α × Nat), (∀ entry ∈ stream, entry.1.Meets P) →
    ∀ f ∈ (g.run stream).2, f.Meets Q

theorem Turns.mono {P' Q' : Point α → Prop} (h : g.Turns P Q) (before : ∀ p, P' p → P p)
    (after : ∀ p, Q p → Q' p) : g.Turns P' Q' := by
  intro stream meets f hf
  exact (h stream (fun entry hentry => (meets entry hentry).mono before) f hf).mono after

/-! ## A single stage -/

/-- What every step keeps and tells holds of a run. -/
theorem turns_of_invariant {I : Filter α → Prop}
    (keeps : ∀ g f now, I g → Frame.Meets P f →
      I (g.step now f).1 ∧ (g.step now f).2.Meets Q)
    (start : I g) : g.Turns P Q := by
  intro stream
  induction stream generalizing g with
  | nil =>
    intro _ f hf
    cases hf
  | cons entry rest ih =>
    intro meets f hf
    obtain ⟨hnext, hout⟩ := keeps g entry.1 entry.2 start (meets entry List.mem_cons_self)
    rcases List.mem_cons.mp hf with rfl | hlater
    · exact hout
    · exact ih hnext (fun later h => meets later (List.mem_cons_of_mem entry h)) f hlater

/-- The same for a kind of filter, by an invariant of its own state. -/
theorem turns_of_stage {S : Type} (kind : S → Filter α) (own : S → Frame α → Nat → S × Frame α)
    (step_kind : ∀ s f now, (kind s).step now f = Prod.map kind id (own s f now)) {I : S → Prop}
    (keeps : ∀ s f now, I s → Frame.Meets P f → I (own s f now).1 ∧ (own s f now).2.Meets Q)
    {s : S} (start : I s) : (kind s).Turns P Q := by
  refine turns_of_invariant (I := fun g => ∃ s, g = kind s ∧ I s) ?_ ⟨s, rfl, start⟩
  rintro - f now ⟨s, rfl, hs⟩ meets
  obtain ⟨hnext, hout⟩ := keeps s f now hs meets
  rw [step_kind]
  exact ⟨⟨_, rfl, hnext⟩, hout⟩

/-- Dropout repair gives positions that it was given. -/
theorem turns_dropout (n : Nat) : (Filter.dropout (Dropout.start n)).Turns P P := by
  refine turns_of_stage .dropout (fun d f _ => d.step f) (fun d f now => by rw [step])
    (I := fun d => ∀ p ∈ d.position, P p) ?_ (by simp [Dropout.start])
  intro d f _ held meets
  unfold Dropout.step
  split
  next valid => exact ⟨by simpa using meets valid, meets⟩
  next missing =>
    split
    · exact ⟨held, meets⟩
    next p hp =>
      have hmember : P p := held p hp
      split
      · exact ⟨by simpa [hp] using hmember, fun _ => hmember⟩
      · exact ⟨held, meets⟩

/-- Glitch rejection gives positions that it was given. -/
theorem turns_glitch (n : Nat) (distanceSquared : α) :
    (Filter.glitch (Glitch.start n distanceSquared)).Turns P P := by
  refine turns_of_stage .glitch (fun g f _ => g.step f) (fun g f now => by rw [step])
    (I := fun g => ∀ p ∈ g.position, P p) ?_ (by simp [Glitch.start])
  intro g f _ held meets
  have moves := g.step_moves f
  generalize (g.step f).1 = next, (g.step f).2 = out at moves ⊢
  cases moves with
  | miss missing => exact ⟨held, meets⟩
  | accept valid due => exact ⟨by simpa [Glitch.accept] using meets valid, meets⟩
  | hold told far within => exact ⟨held, fun _ => held _ told⟩

/-- Radius smoothing, told by what one pull towards a raw position keeps. -/
theorem turns_radius_of_follow {s : RadiusSettings α} (first : ∀ p, P p → Q p)
    (follow : ∀ smoothed raw, Q smoothed → P raw → Q (Radius.follow s smoothed raw)) :
    (Filter.radius (.ofSettings s)).Turns P Q := by
  refine turns_of_stage .radius (fun r f _ => r.step f) (fun r f now => by rw [step])
    (I := fun r => r.settings = s ∧ ∀ p ∈ r.position, Q p) ?_ ⟨rfl, by simp [Radius.ofSettings]⟩
  rintro r f - ⟨rfl, held⟩ meets
  cases valid : f.valid with
  | false =>
    rw [show r.step f = (r, f) from if_neg (by simp [valid])]
    exact ⟨⟨rfl, held⟩, fun h => absurd h (by simp [valid])⟩
  | true =>
    obtain ⟨q, hstep, hq⟩ : ∃ q, r.step f =
        ({ r with position := some q }, { f with position := q }) ∧ Q q := by
      cases hp : r.position with
      | none => exact ⟨f.position, by simp [Radius.step, valid, hp], first _ (meets valid)⟩
      | some p =>
        exact ⟨_, by simp [Radius.step, valid, hp], follow p _ (held p hp) (meets valid)⟩
    rw [hstep]
    exact ⟨⟨rfl, by simpa using hq⟩, fun _ => hq⟩

/-- Adaptive smoothing, told by what one update of both axes keeps. -/
theorem turns_adaptive_of_update {s : AdaptiveSettings α} {I : Adaptive.State α → Prop}
    (restart : ∀ p now, P p → I ⟨.start p.x, .start p.y, now⟩)
    (advance : ∀ state p now, state.last < now → now - state.last ≤ maxGap → I state → P p →
      I (state.advance s p now))
    (tell : ∀ state, I state → P state.position) :
    (Filter.adaptive (.ofSettings s)).Turns P P := by
  refine turns_of_stage .adaptive (fun a f now => a.step f now) (fun a f now => by rw [step])
    (I := fun a => a.settings = s ∧ ∀ state ∈ a.state, I state) ?_
    ⟨rfl, by simp [Adaptive.ofSettings]⟩
  rintro a f now ⟨rfl, held⟩ meets
  have hrestart : f.valid = true →
      ((a.restart f now).1.settings = a.settings ∧ ∀ state ∈ (a.restart f now).1.state, I state) ∧
        (a.restart f now).2.Meets P := fun valid =>
    ⟨⟨rfl, by simpa [Adaptive.restart] using restart _ now (meets valid)⟩, meets⟩
  unfold Adaptive.step
  split
  next valid =>
    split
    · exact hrestart valid
    next state hstate =>
      have hmember : I state := held state hstate
      split
      · exact ⟨⟨rfl, held⟩, fun _ => tell state hmember⟩
      next later =>
        split
        · exact hrestart valid
        next close =>
          have hnext : I (state.advance a.settings f.position now) :=
            advance state _ now (by omega) (by omega) hmember (meets valid)
          exact ⟨⟨rfl, by simpa using hnext⟩, fun _ => tell _ hnext⟩
  next invalid => exact ⟨⟨rfl, held⟩, meets⟩

/-! ## Chains -/

theorem run_chain_nil (stream : List (Frame α × Nat)) :
    ((Filter.chain []).run stream).2 = stream.map (·.1) := by
  rw [run_chain_eq_cascade]
  rfl

/-- The members behind the first one see what leaves it, at the same instants. -/
theorem run_chain_cons (g : Filter α) (rest : List (Filter α)) (stream : List (Frame α × Nat)) :
    ((Filter.chain (g :: rest)).run stream).2 =
      ((Filter.chain rest).run ((g.run stream).2.zip (stream.map (·.2)))).2 := by
  rw [run_chain_eq_cascade, run_chain_eq_cascade]
  rfl

theorem run_chain_singleton (g : Filter α) (stream : List (Frame α × Nat)) :
    ((Filter.chain [g]).run stream).2 = (g.run stream).2 := by
  rw [run_chain_cons, run_chain_nil]
  exact List.map_fst_zip (by simp [length_run])

theorem turns_chain_nil : (Filter.chain []).Turns P P := by
  intro stream meets f hf
  rw [run_chain_nil] at hf
  obtain ⟨entry, hentry, rfl⟩ := List.mem_map.mp hf
  exact meets entry hentry

theorem turns_chain_cons {rest : List (Filter α)} (first : g.Turns P Q)
    (others : (Filter.chain rest).Turns Q R) : (Filter.chain (g :: rest)).Turns P R := by
  intro stream meets f hf
  rw [run_chain_cons] at hf
  refine others _ (fun entry hentry => ?_) f hf
  exact first stream meets entry.1 (List.of_mem_zip hentry).1

theorem turns_chain_of_forall {members : List (Filter α)} (h : ∀ g ∈ members, g.Turns P P) :
    (Filter.chain members).Turns P P := by
  induction members with
  | nil => exact turns_chain_nil
  | cons g rest ih =>
    rw [List.forall_mem_cons] at h
    exact turns_chain_cons h.1 (ih h.2)

end Filter

end SensorBar
