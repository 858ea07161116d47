import SensorBar.Bar.Basic
import SensorBar.Bar.Settings
import SensorBar.Breach
import SensorBar.Frame
import SensorBar.Selection

/-!
# Recovery of the bar from one emitter

When no pair of dots passes for the bar, the previous bar is moved as a rigid body so that one of
its ends lies on a visible dot: on the dot nearest to either end when that is believable, and
otherwise on the dot nearest to the edge of view, with the end whose partner is farthest out.
-/

namespace SensorBar.Bar

variable {α : Type} [Scalar α]

/-- The previous bar, moved so that end `e` lies on a tilted dot.  Its angles are still old. -/
def carry (previous : Bar α) (e : End) (dot : Point α) (roll : α) : Bar α :=
  let partner := previous.tilted.get e.other - previous.tilted.get e + dot
  let tilted := Pair.place e dot partner
  { previous with raw := tilted.rotate (-roll), tilted }

/-- Derives angles and levelled ends from the tilted ones.  A rebuilt bar has the score zero. -/
def relevel (b : Bar α) (roll : α) : Bar α :=
  let offsetAngle := b.tilted.levelling
  { b with
    offsetAngle
    angle := offsetAngle + roll
    corrected := b.tilted.rotate offsetAngle
    score := (0 : Nat) }

/-- The previous bar moved onto a dot and made level there. -/
def shiftTo (previous : Bar α) (e : End) (dot : Point α) (roll : α) : Bar α :=
  (previous.carry e dot roll).relevel roll

/-! ## The nearest dot -/

/-- A dot, an end of the previous bar, and their squared distance. -/
structure Match (α : Type) where
  distance : α
  dot : Point α
  endpoint : End

/-- Every dot against both ends, dot by dot. -/
def allMatches (previous : Bar α) (tilted : List (Point α)) : List (Match α) :=
  tilted.flatMap fun dot =>
    [⟨dot.distSq previous.tilted.left, dot, .left⟩,
      ⟨dot.distSq previous.tilted.right, dot, .right⟩]

/-- The match of least distance; of equal ones, the first. -/
def nearest (previous : Bar α) (tilted : List (Point α)) : Option (Match α) :=
  winner (fun m best => !(best.distance ≤ m.distance)) (allMatches previous tilted)

/-- Whether a rebuilt emitter lies so far inside the view that it should have been seen. -/
def shouldBeVisible (s : PointerSettings α) (emitter : Point α) : Bool :=
  Scalar.abs emitter.x < s.offScreenX && Scalar.abs emitter.y < s.offScreenY

/-- The previous bar moved onto the nearest dot, unless that is hard to believe. -/
def followNearest (s : PointerSettings α) (health : Health) (roll : α) (previous : Bar α)
    (tilted : List (Point α)) : Option (Bar α) :=
  match nearest previous tilted with
  | none => none
  | some m =>
      if health = .lost ∧ s.singleNoGuessDistance ≤ m.distance then none
      else
        let partner := (previous.carry m.endpoint m.dot roll).raw.get m.endpoint.other
        if shouldBeVisible s partner then none
        else some (previous.shiftTo m.endpoint m.dot roll)

/-! ## The dot at the edge of view -/

/-- The distance of a dot from the nearest side of the field of view. -/
def edgeMargin (height : α) (dot : Point α) : α :=
  Scalar.smaller ((1 : Nat) - Scalar.abs dot.x) (height - Scalar.abs dot.y)

/-- The position in `dots` of the dot of least margin; of equal ones, the first. -/
def edgemost (height : α) (dots : List (Point α)) : Option Nat :=
  (winner (fun d best => edgeMargin height d.1 < edgeMargin height best.1) dots.zipIdx).map (·.2)

/-- How far out the partner of end `e` ends up when `e` is put on a dot. -/
def partnerReach (height : α) (roll : α) (previous : Bar α) (dot : Point α) (e : End) : α :=
  let partner := (previous.carry e dot roll).raw.get e.other
  Scalar.larger (Scalar.abs partner.x) (Scalar.abs (partner.y / height))

/-- The previous bar moved onto a dot with the end whose partner reaches farther out. -/
def followEdge (s : PointerSettings α) (roll : α) (previous : Bar α) (dot : Point α) : Bar α :=
  let reach := partnerReach s.height roll previous dot
  previous.shiftTo (if reach .right < reach .left then .left else .right) dot roll

/-! ## Recovery -/

/--
The bar rebuilt from the dots of a frame; `none` without a previous bar, with a dead tracker, or
without dots.
-/
def recover (s : PointerSettings α) (health : Health) (roll : α) (previous : Option (Bar α))
    (dots tilted : List (Point α)) : Except Breach (Option (Bar α)) :=
  match previous with
  | none => .ok none
  | some bar =>
      if health = .dead then .ok none
      else
        match edgemost s.height dots with
        | none => .ok none
        | some edge =>
            match followNearest s health roll bar tilted with
            | some found => .ok (some found)
            | none =>
                match tilted[edge]? with
                | none => .error (.untiltedDot edge)
                | some dot => .ok (some (followEdge s roll bar dot))

end SensorBar.Bar
