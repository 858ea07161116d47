import SensorBar.Trace.Line

/-!
# Reading traces

A trace is a sequence of bytes that is read a line at a time; lines end at line feeds, and the last
one need not have an end.  Blank lines and comments are skipped, a bad line is reported under its
number, and reading goes on after it.  A line that is not UTF-8 is reported without a number and
is not counted.
-/

namespace SensorBar.Trace

inductive Error where
  | line (number : Nat) (cause : LineError)
  | notUtf8
  deriving DecidableEq

/-- The bytes that are left, and how many lines have been counted. -/
structure Reader where
  rest : List UInt8
  count : Nat

namespace Reader

def start (bytes : List UInt8) : Reader :=
  ⟨bytes, 0⟩

def lineFeed : UInt8 :=
  10

/-- The next line without its end, and the bytes after it; nothing at the end of the bytes. -/
def takeLine? (bytes : List UInt8) : Option (List UInt8 × List UInt8) :=
  if bytes.isEmpty then none
  else some (bytes.takeWhile (· != lineFeed), (bytes.dropWhile (· != lineFeed)).drop 1)

theorem length_of_takeLine? {bytes line rest : List UInt8}
    (h : takeLine? bytes = some (line, rest)) : rest.length < bytes.length := by
  unfold takeLine? at h
  split at h
  · simp at h
  · rename_i hne
    simp only [Option.some.injEq, Prod.mk.injEq] at h
    cases bytes with
    | nil => simp at hne
    | cons b bytes =>
        have htail := (List.dropWhile_sublist (l := bytes) (· != lineFeed)).length_le
        rw [← h.2, List.length_drop, List.dropWhile_cons, List.length_cons]
        split
        · omega
        · rw [List.length_cons]
          omega

def decode? (line : List UInt8) : Option (List Char) :=
  (String.fromUTF8? ⟨line.toArray⟩).map String.toList

/-- Whether a line, without the blanks at its ends, carries no sample. -/
def isSkipped : List Char → Bool
  | [] => true
  | c :: _ => c == '#'

/-- The next sample or error, and the reader after it; nothing at the end of the bytes. -/
def next? (r : Reader) : Option (Except Error (Sample Float) × Reader) :=
  match h : takeLine? r.rest with
  | none => none
  | some (line, rest) =>
      match decode? line with
      | none => some (.error .notUtf8, ⟨rest, r.count⟩)
      | some text =>
          let text := Text.trim text
          let after : Reader := ⟨rest, r.count + 1⟩
          if isSkipped text then
            have := length_of_takeLine? h
            after.next?
          else some ((ofLine text).mapError (.line after.count), after)
termination_by r.rest.length

theorem length_of_next? {r after : Reader} {result : Except Error (Sample Float)}
    (h : r.next? = some (result, after)) : after.rest.length < r.rest.length := by
  fun_induction next? r with
  | case1 => simp at h
  | case2 r line rest hline hutf =>
      simp only [Option.some.injEq, Prod.mk.injEq] at h
      exact h.2 ▸ length_of_takeLine? hline
  | case3 r line rest hline _ _ text' after' hskip hlt ih =>
      exact Nat.lt_trans (ih h) hlt
  | case4 r line rest hline =>
      simp only [Option.some.injEq, Prod.mk.injEq] at h
      exact h.2 ▸ length_of_takeLine? hline

/-- Every sample and every error up to the end of the bytes. -/
def readAll (r : Reader) : List (Except Error (Sample Float)) :=
  match h : r.next? with
  | none => []
  | some (result, after) =>
      have := length_of_next? h
      result :: after.readAll
termination_by r.rest.length

end Reader

def read (bytes : List UInt8) : List (Except Error (Sample Float)) :=
  (Reader.start bytes).readAll

end SensorBar.Trace
