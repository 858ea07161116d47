import SensorBar.Proofs.FilterRun

/-! # Chains over whole streams

A chain passes each frame through all its members before it takes the next one.  It comes to the
same, in what is told and in what every member holds afterwards, when each member runs over the whole
stream that leaves the member before it.  Chains within chains can be spread out into their leaves,
and no filter has a say in the health and the distance of a frame.
-/

namespace SensorBar

/-- What a frame says of the tracking, apart from the pointer. -/
def Frame.tracking {α : Type} (f : Frame α) : Health × α :=
  (f.health, f.distance)

namespace Filter

variable {α : Type}

/-- What holds of every kind of filter, and of a chain when it holds of its members. -/
@[elab_as_elim]
theorem induction_members {motive : Filter α → Prop} (dropout : ∀ d, motive (.dropout d))
    (glitch : ∀ g, motive (.glitch g)) (radius : ∀ r, motive (.radius r))
    (adaptive : ∀ a, motive (.adaptive a)) (translate : ∀ m, motive (.translate m))
    (chain : ∀ members, (∀ g ∈ members, motive g) → motive (.chain members)) (g : Filter α) :
    motive g :=
  @Filter.rec α motive (fun members => ∀ g ∈ members, motive g) dropout glitch radius adaptive
    translate chain (List.forall_mem_nil _)
    (fun _ _ first others => List.forall_mem_cons.mpr ⟨first, others⟩) g

/-! ## Leaves -/

mutual

/-- The filters at the ends of a tree of chains, from left to right. -/
def leaves : Filter α → List (Filter α)
  | .dropout d => [.dropout d]
  | .glitch g => [.glitch g]
  | .radius r => [.radius r]
  | .adaptive a => [.adaptive a]
  | .translate m => [.translate m]
  | .chain members => leavesAll members

def leavesAll : List (Filter α) → List (Filter α)
  | [] => []
  | g :: rest => g.leaves ++ leavesAll rest

end

theorem leavesAll_eq_flatMap (members : List (Filter α)) :
    leavesAll members = members.flatMap leaves := by
  induction members with
  | nil => rfl
  | cons g rest ih => rw [leavesAll, ih, List.flatMap_cons]

theorem leaves_chain (members : List (Filter α)) :
    (Filter.chain members).leaves = members.flatMap leaves := by
  rw [leaves, leavesAll_eq_flatMap]

theorem ne_chain_of_mem_leaves {g leaf : Filter α} (h : leaf ∈ g.leaves)
    (members : List (Filter α)) : leaf ≠ .chain members := by
  induction g using induction_members with
  | chain inner ih =>
      rw [leaves_chain, List.mem_flatMap] at h
      obtain ⟨g, hg, hleaf⟩ := h
      exact ih g hg hleaf
  | _ =>
      rw [leaves, List.mem_singleton] at h
      simp [h]

variable [Scalar α]

theorem step_chain (now : Nat) (members : List (Filter α)) (f : Frame α) :
    (Filter.chain members).step now f =
      (.chain (stepAll now members f).1, (stepAll now members f).2) := by
  rw [step]
  rfl

theorem stepAll_cons (now : Nat) (g : Filter α) (rest : List (Filter α)) (f : Frame α) :
    stepAll now (g :: rest) f =
      ((g.step now f).1 :: (stepAll now rest (g.step now f).2).1,
        (stepAll now rest (g.step now f).2).2) :=
  rfl

theorem stepAll_append (now : Nat) (first second : List (Filter α)) (f : Frame α) :
    stepAll now (first ++ second) f =
      ((stepAll now first f).1 ++ (stepAll now second (stepAll now first f).2).1,
        (stepAll now second (stepAll now first f).2).2) := by
  induction first generalizing f with
  | nil => rfl
  | cons g rest ih => simp [stepAll, ih]

/-- A tree of chains and the list of its leaves make the same steps. -/
theorem stepAll_leaves (now : Nat) (g : Filter α) (f : Frame α) :
    stepAll now g.leaves f = ((g.step now f).1.leaves, (g.step now f).2) := by
  induction g using induction_members generalizing f with
  | chain members ih =>
      rw [step_chain, leaves_chain, leaves_chain]
      induction members generalizing f with
      | nil => rfl
      | cons g rest ihrest =>
          rw [List.forall_mem_cons] at ih
          rw [List.flatMap_cons, stepAll_append, ih.1, ihrest ih.2, stepAll_cons,
            List.flatMap_cons]
  | _ => rfl

/-- Spread out, a tree of chains tells the same, and ends as the leaves of what it ends as. -/
theorem run_chain_leaves (g : Filter α) (stream : List (Frame α × Nat)) :
    (Filter.chain g.leaves).run stream =
      (.chain (g.run stream).1.leaves, (g.run stream).2) := by
  induction stream generalizing g with
  | nil => rfl
  | cons entry rest ih => rw [run_cons, run_cons, step_chain, stepAll_leaves, ih]

/-! ## A stream through one member after another -/

/-- Each member over the whole stream that leaves the one before it, at the same instants. -/
def cascade : List (Filter α) → List (Frame α × Nat) → List (Filter α) × List (Frame α)
  | [], stream => ([], stream.map (·.1))
  | g :: rest, stream =>
      let (last, told) := g.run stream
      let (lasts, out) := cascade rest (told.zip (stream.map (·.2)))
      (last :: lasts, out)

theorem cascade_nil (members : List (Filter α)) : cascade members [] = (members, []) := by
  induction members with
  | nil => rfl
  | cons g rest ih => simp [cascade, run, ih]

/-- The first frame of a stream can go through all members ahead of the others. -/
theorem cascade_cons (members : List (Filter α)) (f : Frame α) (now : Nat)
    (rest : List (Frame α × Nat)) :
    cascade members ((f, now) :: rest) =
      ((cascade (stepAll now members f).1 rest).1,
        (stepAll now members f).2 :: (cascade (stepAll now members f).1 rest).2) := by
  induction members generalizing f rest with
  | nil => rfl
  | cons g others ih => simp [cascade, run, stepAll, ih]

theorem run_chain_eq_cascade (members : List (Filter α)) (stream : List (Frame α × Nat)) :
    (Filter.chain members).run stream =
      (.chain (cascade members stream).1, (cascade members stream).2) := by
  induction stream generalizing members with
  | nil => rw [cascade_nil, run]
  | cons entry rest ih => rw [run_cons, step_chain, cascade_cons, ih]

/-! ## What a frame says of the tracking -/

omit [Scalar α] in
theorem Dropout.step_tracking (d : Dropout α) (f : Frame α) :
    (d.step f).2.tracking = f.tracking := by
  grind [Dropout.step, Frame.tracking]

theorem Glitch.step_tracking (g : Glitch α) (f : Frame α) :
    (g.step f).2.tracking = f.tracking := by
  grind [Glitch.step, Frame.tracking]

theorem Radius.step_tracking (r : Radius α) (f : Frame α) :
    (r.step f).2.tracking = f.tracking := by
  grind [Radius.step, Frame.tracking]

theorem Adaptive.step_tracking (a : Adaptive α) (f : Frame α) (now : Nat) :
    (a.step f now).2.tracking = f.tracking := by
  grind [Adaptive.step, Adaptive.restart, Frame.tracking]

theorem apply_tracking (m : Mapping α) (f : Frame α) : (m.apply f).tracking = f.tracking := by
  grind [Mapping.apply, Frame.tracking]

theorem stepAll_tracking_of_forall {now : Nat} {members : List (Filter α)}
    (h : ∀ g ∈ members, ∀ f : Frame α, (g.step now f).2.tracking = f.tracking) (f : Frame α) :
    (stepAll now members f).2.tracking = f.tracking := by
  induction members generalizing f with
  | nil => rfl
  | cons g rest ih =>
      rw [List.forall_mem_cons] at h
      exact (ih h.2 (g.step now f).2).trans (h.1 f)

/-- No filter changes what a frame says of the tracking, however chains are nested. -/
theorem step_tracking (now : Nat) (g : Filter α) (f : Frame α) :
    (g.step now f).2.tracking = f.tracking := by
  induction g using induction_members generalizing f with
  | dropout d => exact d.step_tracking f
  | glitch g => exact g.step_tracking f
  | radius r => exact r.step_tracking f
  | adaptive a => exact a.step_tracking f now
  | translate m => exact apply_tracking m f
  | chain members ih =>
      rw [step_chain]
      exact stepAll_tracking_of_forall ih f

theorem map_tracking_run (g : Filter α) (stream : List (Frame α × Nat)) :
    (g.run stream).2.map Frame.tracking = stream.map (·.1.tracking) := by
  induction stream generalizing g with
  | nil => rfl
  | cons entry rest ih => rw [run_cons, List.map_cons, List.map_cons, step_tracking, ih]

/-! ## Chains -/

/--
A chain tells what its members tell one after another, each over the whole stream that leaves the
one before it, and its members end as they do then.  A tree of chains tells what the flat chain of
its leaves tells.  Frame by frame, what goes in and what comes out have one health and one distance.
-/
theorem run_chain_composes (members : List (Filter α)) (stream : List (Frame α × Nat)) :
    (Filter.chain members).run stream =
        (.chain (cascade members stream).1, (cascade members stream).2) ∧
      (Filter.chain (leavesAll members)).run stream =
        (.chain ((Filter.chain members).run stream).1.leaves,
          ((Filter.chain members).run stream).2) ∧
      (∀ leaf ∈ leavesAll members, ∀ inner, leaf ≠ .chain inner) ∧
      ((Filter.chain members).run stream).2.map (fun f => (f.health, f.distance)) =
        stream.map fun entry => (entry.1.health, entry.1.distance) := by
  refine ⟨run_chain_eq_cascade members stream, ?_, ?_, map_tracking_run _ stream⟩
  · exact run_chain_leaves (.chain members) stream
  · exact fun leaf hleaf => ne_chain_of_mem_leaves (g := .chain members) hleaf

end Filter

end SensorBar
