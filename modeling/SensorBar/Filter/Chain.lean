import SensorBar.Filter.Adaptive
import SensorBar.Filter.Dropout
import SensorBar.Filter.Glitch
import SensorBar.Filter.Radius
import SensorBar.Filter.Translate

/-!
# Filters and chains

A filter turns frames into frames and keeps a state between them.  A chain is itself a filter: a
frame passes through its members from left to right, all at one instant.
-/

namespace SensorBar

inductive Filter (α : Type) where
  | dropout (state : Filter.Dropout α)
  | glitch (state : Filter.Glitch α)
  | radius (state : Filter.Radius α)
  | adaptive (state : Filter.Adaptive α)
  | translate (mapping : Mapping α)
  | chain (members : List (Filter α))

namespace Filter

variable {α : Type} [Scalar α]

mutual

/-- The filter after a frame that arrives at `now`, and what it makes of the frame. -/
def step (now : Nat) : Filter α → Frame α → Filter α × Frame α
  | .dropout d, f => Prod.map .dropout id (d.step f)
  | .glitch g, f => Prod.map .glitch id (g.step f)
  | .radius r, f => Prod.map .radius id (r.step f)
  | .adaptive a, f => Prod.map .adaptive id (a.step f now)
  | .translate m, f => (.translate m, m.apply f)
  | .chain members, f => Prod.map .chain id (stepAll now members f)

/-- The members of a chain after a frame, and what they make of it one after another. -/
def stepAll (now : Nat) : List (Filter α) → Frame α → List (Filter α) × Frame α
  | [], f => ([], f)
  | g :: rest, f =>
      let (g', f') := g.step now f
      let (rest', f'') := stepAll now rest f'
      (g' :: rest', f'')

end

/-- The filter after a stream of frames with their instants, and the stream that leaves it. -/
def run : Filter α → List (Frame α × Nat) → Filter α × List (Frame α)
  | g, [] => (g, [])
  | g, (f, now) :: rest =>
      let (g', f') := g.step now f
      let (last, fs) := g'.run rest
      (last, f' :: fs)

/-- The smoothing stage, unless it is switched off. -/
def ofSmoothing : Smoothing α → List (Filter α)
  | .off => []
  | .radius s => [.radius (.ofSettings s)]
  | .adaptive s => [.adaptive (.ofSettings s)]

/-- Dropout repair, glitch rejection, smoothing, then translation. -/
def ofSettings (s : FilterSettings α) : List (Filter α) :=
  [.dropout (.ofSettings s.error), .glitch (.ofSettings s.glitch)] ++
    ofSmoothing s.smoothing ++ s.translate.mapping.toList.map .translate

end Filter

end SensorBar
