import Mathlib.Data.List.TakeWhile
import SensorBar.Proofs.Lines
import SensorBar.Proofs.Words
import SensorBar.Trace.Reader

/-! # Traces line by line

What a reader tells of its bytes is told of their lines, one at a time and in order.  A line that is
UTF-8 is counted; it tells nothing when only blanks or a comment are on it, and otherwise one sample
or one error under the count.  A line that is not UTF-8 tells one error and is not counted.  So the
numbers of errors are those of physical lines as long as nothing has gone wrong before.
-/

namespace SensorBar.Trace

/-! ## What a line tells -/

/-- Whether a line is a text in UTF-8. -/
def Encodes (text : List Char) (line : List UInt8) : Prop :=
  text.flatMap String.utf8EncodeChar = line

/-- Whether a line, without the blanks at its ends, carries no sample: it is empty or a comment. -/
def Silent (kept : List Char) : Prop :=
  kept = [] ∨ kept.head? = some '#'

/-- What a line tells that is the `number`th one to be counted. -/
inductive Tells (number : Nat) (line : List UInt8) :
    Option (Except Error (Sample Float)) → Prop where
  | notUtf8 (foreign : ∀ text, ¬ Encodes text line) :
      Tells number line (some (.error .notUtf8))
  | silent {text kept : List Char} (encodes : Encodes text line) (trims : Text.Trims text kept)
      (silent : Silent kept) : Tells number line none
  | sample {text kept : List Char} {sample : Sample Float} (encodes : Encodes text line)
      (trims : Text.Trims text kept) (speaks : ¬ Silent kept) (parsed : ofLine kept = .ok sample) :
      Tells number line (some (.ok sample))
  | fault {text kept : List Char} {cause : LineError} (encodes : Encodes text line)
      (trims : Text.Trims text kept) (speaks : ¬ Silent kept)
      (parsed : ofLine kept = .error cause) : Tells number line (some (.error (.line number cause)))

/-! ## Lines in order -/

/-- The lines of a trace, without their ends. -/
def lines (bytes : List UInt8) : List (List UInt8) :=
  Text.lines Reader.lineFeed bytes

/-- Whether a line is UTF-8. -/
def isText (line : List UInt8) : Bool :=
  (Reader.decode? line).isSome

/-- What is answered to a line that is the `number`th one to be counted. -/
def answer? (number : Nat) (line : List UInt8) : Option (Except Error (Sample Float)) :=
  match Reader.decode? line with
  | none => some (.error .notUtf8)
  | some text =>
      if Reader.isSkipped (Text.trim text) then none
      else some ((ofLine (Text.trim text)).mapError (.line number))

/-- How many lines are counted after one more. -/
def countAfter (count : Nat) (line : List UInt8) : Nat :=
  if isText line then count + 1 else count

/-- What is answered to some lines, after `count` lines have been counted. -/
def answers (count : Nat) : List (List UInt8) → List (Except Error (Sample Float))
  | [] => []
  | line :: rest =>
      (answer? (countAfter count line) line).toList ++ answers (countAfter count line) rest

theorem answers_append (count : Nat) (earlier later : List (List UInt8)) :
    answers count (earlier ++ later) =
      answers count earlier ++ answers (count + earlier.countP isText) later := by
  induction earlier generalizing count with
  | nil => rfl
  | cons line rest ih =>
      rw [List.cons_append, answers, ih, answers, List.append_assoc, List.countP_cons, countAfter]
      cases isText line <;> simp [Nat.add_comm, Nat.add_left_comm]

theorem exists_answer?_of_mem {count : Nat} {ls : List (List UInt8)}
    {result : Except Error (Sample Float)} (h : result ∈ answers count ls) :
    ∃ number, ∃ line ∈ ls, answer? number line = some result := by
  induction ls generalizing count with
  | nil => simp [answers] at h
  | cons line rest ih =>
      rw [answers, List.mem_append, Option.mem_toList] at h
      rcases h with hline | hrest
      · exact ⟨_, line, List.mem_cons_self, hline⟩
      · obtain ⟨number, later, hlater, hanswer⟩ := ih hrest
        exact ⟨number, later, List.mem_cons_of_mem line hlater, hanswer⟩

/-! ## The answer to a line -/

namespace Reader

theorem fromUTF8?_eq_some_iff {bytes : ByteArray} {s : String} :
    String.fromUTF8? bytes = some s ↔ s.toByteArray = bytes := by
  unfold String.fromUTF8?
  constructor
  · intro h
    split at h
    · cases h
      rfl
    · cases h
  · rintro rfl
    rw [dif_pos s.isValidUTF8]
    rfl

theorem decode?_eq_some_iff {line : List UInt8} {text : List Char} :
    decode? line = some text ↔ Encodes text line := by
  have hbytes : (String.ofList text).toByteArray = ⟨line.toArray⟩ ↔ Encodes text line := by
    rw [String.toByteArray_ofList, List.utf8Encode, ByteArray.ext_iff, List.data_toByteArray,
      ← Array.toList_inj]
    rfl
  simp only [decode?, Option.map_eq_some_iff, fromUTF8?_eq_some_iff, ← hbytes]
  constructor
  · rintro ⟨s, hs, rfl⟩
    rw [String.ofList_toList, hs]
  · exact fun h => ⟨_, h, String.toList_ofList⟩

theorem isSkipped_iff (kept : List Char) : isSkipped kept = true ↔ Silent kept := by
  cases kept <;> simp [isSkipped, Silent]

end Reader

theorem isText_iff (line : List UInt8) : isText line = true ↔ ∃ text, Encodes text line := by
  simp only [isText, Option.isSome_iff_exists, Reader.decode?_eq_some_iff]

theorem tells_answer? (number : Nat) (line : List UInt8) :
    Tells number line (answer? number line) := by
  unfold answer?
  cases hdecode : Reader.decode? line with
  | none =>
      refine .notUtf8 fun text encodes => ?_
      rw [Reader.decode?_eq_some_iff.mpr encodes] at hdecode
      cases hdecode
  | some text =>
      have encodes := Reader.decode?_eq_some_iff.mp hdecode
      have trims := Text.trims_trim text
      dsimp only
      split
      next skipped => exact .silent encodes trims ((Reader.isSkipped_iff _).mp skipped)
      next told =>
        have speaks := mt (Reader.isSkipped_iff _).mpr told
        cases hparsed : ofLine (Text.trim text) with
        | ok sample => exact .sample encodes trims speaks hparsed
        | error cause => exact .fault encodes trims speaks hparsed

/-- A line tells one thing. -/
theorem Tells.eq {number : Nat} {line : List UInt8}
    {told : Option (Except Error (Sample Float))} (h : Tells number line told) :
    answer? number line = told := by
  cases h with
  | notUtf8 foreign =>
      have hdecode : Reader.decode? line = none :=
        Option.eq_none_iff_forall_ne_some.mpr fun text h =>
          foreign text (Reader.decode?_eq_some_iff.mp h)
      rw [answer?, hdecode]
  | silent encodes trims silent =>
      simp [answer?, Reader.decode?_eq_some_iff.mpr encodes, trims.eq,
        (Reader.isSkipped_iff _).mpr silent]
  | sample encodes trims speaks parsed =>
      simp [answer?, Reader.decode?_eq_some_iff.mpr encodes, trims.eq,
        mt (Reader.isSkipped_iff _).mp speaks, parsed, Except.mapError]
  | fault encodes trims speaks parsed =>
      simp [answer?, Reader.decode?_eq_some_iff.mpr encodes, trims.eq,
        mt (Reader.isSkipped_iff _).mp speaks, parsed, Except.mapError]

theorem answer?_eq_iff {number : Nat} {line : List UInt8}
    {told : Option (Except Error (Sample Float))} :
    answer? number line = told ↔ Tells number line told :=
  ⟨fun h => h ▸ tells_answer? number line, Tells.eq⟩

/-! ## One call -/

namespace Reader

theorem takeLine?_eq_none_iff (bytes : List UInt8) : takeLine? bytes = none ↔ bytes = [] := by
  simp [takeLine?]

theorem lines_of_takeLine? {bytes line rest : List UInt8}
    (h : takeLine? bytes = some (line, rest)) : lines bytes = line :: lines rest := by
  have hne : bytes ≠ [] := by
    intro hnil
    rw [(takeLine?_eq_none_iff bytes).mpr hnil] at h
    cases h
  have hbytes := List.takeWhile_append_dropWhile (p := (· != lineFeed)) (l := bytes)
  simp only [takeLine?, List.isEmpty_iff, if_neg hne, Option.some.injEq, Prod.mk.injEq] at h
  obtain ⟨hline, hrest⟩ := h
  have whole : lineFeed ∉ line := by
    intro hmem
    rw [← hline] at hmem
    simpa using List.mem_takeWhile_imp hmem
  rw [hline] at hbytes
  cases hdrop : bytes.dropWhile (· != lineFeed) with
  | nil =>
      rw [hdrop, List.append_nil] at hbytes
      rw [hdrop] at hrest
      subst hrest hbytes
      exact (Text.lines_of_not_mem whole hne).trans (by simp [lines])
  | cons b tail =>
      have hfeed : b = lineFeed := by
        have hhead := List.head?_dropWhile_not (· != lineFeed) bytes
        simpa [hdrop] using hhead
      rw [hdrop] at hbytes hrest
      obtain rfl : tail = rest := hrest
      rw [← hbytes, hfeed]
      exact Text.lines_cons whole tail

/-- A call of a reader answers by its first line that is not skipped. -/
theorem answers_of_next? {r after : Reader} {result : Except Error (Sample Float)}
    (h : r.next? = some (result, after)) :
    answers r.count (lines r.rest) = result :: answers after.count (lines after.rest) := by
  fun_induction next? r with
  | case1 => cases h
  | case2 r line rest hline hdecode =>
      obtain ⟨rfl, rfl⟩ := Prod.mk.inj (Option.some.inj h)
      rw [lines_of_takeLine? hline]
      simp [answers, answer?, countAfter, isText, hdecode]
  | case3 r line rest hline text hdecode text' after' hskip hlt ih =>
      rw [lines_of_takeLine? hline, ← ih h]
      simp [answers, answer?, countAfter, isText, hdecode, text', hskip, after']
  | case4 r line rest hline text hdecode text' after' hskip =>
      obtain ⟨rfl, rfl⟩ := Prod.mk.inj (Option.some.inj h)
      rw [lines_of_takeLine? hline]
      simp [answers, answer?, countAfter, isText, hdecode, text', hskip, after']

/-- A reader that answers no more has nothing left to tell. -/
theorem answers_of_next?_eq_none {r : Reader} (h : r.next? = none) :
    answers r.count (lines r.rest) = [] := by
  fun_induction next? r with
  | case1 r hnone =>
      rw [(takeLine?_eq_none_iff r.rest).mp hnone]
      simp [lines, answers]
  | case2 => cases h
  | case3 r line rest hline text hdecode text' after' hskip hlt ih =>
      rw [lines_of_takeLine? hline, answers]
      simpa [answer?, countAfter, isText, hdecode, text', hskip] using ih h
  | case4 => cases h

/-! ## Repeated calls -/

/-- A reader answers some calls in turn, and they lead to another reader. -/
inductive Yields : Reader → List (Except Error (Sample Float)) → Reader → Prop where
  | stop (r : Reader) : Yields r [] r
  | call {r next last : Reader} {result : Except Error (Sample Float)}
      {results : List (Except Error (Sample Float))} (answered : r.next? = some (result, next))
      (later : Yields next results last) : Yields r (result :: results) last

theorem readAll_eq_answers (r : Reader) : r.readAll = answers r.count (lines r.rest) := by
  fun_induction readAll r with
  | case1 r hnone => exact (answers_of_next?_eq_none hnone).symm
  | case2 r result after hnext hlt ih => rw [answers_of_next? hnext, ih]

/-- The calls of a reader come to an end. -/
theorem exists_yields_readAll (r : Reader) :
    ∃ last, r.Yields r.readAll last ∧ last.next? = none := by
  fun_induction readAll r with
  | case1 r hnone => exact ⟨r, .stop r, hnone⟩
  | case2 r result after hnext hlt ih =>
      obtain ⟨last, hyields, hlast⟩ := ih
      exact ⟨last, .call hnext hyields, hlast⟩

end Reader

/-! ## Numbers -/

theorem mapError_eq_ok_iff {ε δ β : Type} {x : Except ε β} {f : ε → δ} {b : β} :
    x.mapError f = .ok b ↔ x = .ok b := by
  cases x <;> simp [Except.mapError]

theorem mapError_eq_error_iff {ε δ β : Type} {x : Except ε β} {f : ε → δ} {d : δ} :
    x.mapError f = .error d ↔ ∃ e, x = .error e ∧ f e = d := by
  cases x <;> simp [Except.mapError]

/-- Only an error that is told of the encoding comes from a line that is not counted. -/
theorem isText_of_answer? {number : Nat} {line : List UInt8}
    (h : answer? number line ≠ some (.error .notUtf8)) : isText line = true := by
  cases hdecode : Reader.decode? line with
  | none => simp [answer?, hdecode] at h
  | some text => simp [isText, hdecode]

/-- An error is told under the number of its line. -/
theorem number_of_answer? {number told : Nat} {line : List UInt8} {cause : LineError}
    (h : answer? number line = some (.error (.line told cause))) : told = number := by
  cases answer?_eq_iff.mp h
  rfl

theorem answers_cons_of_isText {line : List UInt8} (text : isText line = true) (count : Nat)
    (rest : List (List UInt8)) :
    answers count (line :: rest) =
      (answer? (count + 1) line).toList ++ answers (count + 1) rest := by
  rw [answers, countAfter, if_pos text]

/-- As long as no error was told before, every line so far was counted. -/
theorem exists_line_of_answers {count : Nat} {ls : List (List UInt8)} {good : List (Sample Float)}
    {number : Nat} {cause : LineError} {rest : List (Except Error (Sample Float))}
    (h : answers count ls = good.map .ok ++ .error (.line number cause) :: rest) :
    ∃ before line after, ls = before ++ line :: after ∧ number = count + before.length + 1 ∧
      answers count before = good.map .ok ∧
      answer? number line = some (.error (.line number cause)) := by
  induction ls generalizing count good with
  | nil => simp [answers] at h
  | cons line ls ih =>
      have hcounted : ∀ {answer}, answer? (countAfter count line) line = answer →
          answer ≠ some (.error .notUtf8) →
          isText line = true ∧ answer? (count + 1) line = answer := by
        intro answer hanswer hne
        have text := isText_of_answer? (hanswer.symm ▸ hne)
        rw [countAfter, if_pos text] at hanswer
        exact ⟨text, hanswer⟩
      cases hanswer : answer? (countAfter count line) line with
      | none =>
          obtain ⟨text, hskipped⟩ := hcounted hanswer (by simp)
          rw [answers_cons_of_isText text, hskipped] at h
          obtain ⟨before, found, after, rfl, hnumber, hbefore, herror⟩ := ih h
          refine ⟨line :: before, found, after, rfl, ?_, ?_, herror⟩
          · rw [hnumber, List.length_cons]
            omega
          · rw [answers_cons_of_isText text, hskipped, hbefore]
            rfl
      | some result =>
          rw [answers, hanswer] at h
          cases good with
          | nil =>
              obtain ⟨rfl, -⟩ := List.cons.inj h
              obtain ⟨text, hfound⟩ := hcounted hanswer (by simp)
              obtain rfl := number_of_answer? hfound
              exact ⟨[], line, ls, rfl, rfl, rfl, hfound⟩
          | cons sample good =>
              obtain ⟨rfl, -⟩ := List.cons.inj h
              obtain ⟨text, hfound⟩ := hcounted hanswer (by simp)
              rw [countAfter, if_pos text] at h
              obtain ⟨before, found, after, rfl, hnumber, hbefore, herror⟩ := ih (List.cons.inj h).2
              refine ⟨line :: before, found, after, rfl, ?_, ?_, herror⟩
              · rw [hnumber, List.length_cons]
                omega
              · rw [answers_cons_of_isText text, hfound, hbefore]
                rfl

/--
A line is answered to by what it tells, and it is counted if it is UTF-8.  Reading a trace answers
to its lines one by one.  Repeated calls come to an end and lead there, whatever went wrong on the
way.  Every line is answered to in its place, under the number of lines that are counted up to it;
and the first error, if it has a number, has that of the physical line it comes from.
-/
theorem read_eq_answers (bytes : List UInt8) :
    (∀ number line told, answer? number line = told ↔ Tells number line told) ∧
      (∀ line, isText line = true ↔ ∃ text, Encodes text line) ∧
      read bytes = answers 0 (lines bytes) ∧
      (∃ last, (Reader.start bytes).Yields (read bytes) last ∧ last.next? = none) ∧
      (∀ before line after, lines bytes = before ++ line :: after →
        let number := (before ++ [line]).countP isText
        read bytes =
          answers 0 before ++ ((answer? number line).toList ++ answers number after)) ∧
      ∀ (good : List (Sample Float)) number cause rest,
        read bytes = good.map .ok ++ .error (.line number cause) :: rest →
        ∃ before line after, lines bytes = before ++ line :: after ∧
          number = before.length + 1 ∧ answers 0 before = good.map .ok ∧
          answer? number line = some (.error (.line number cause)) := by
  have hread : read bytes = answers 0 (lines bytes) := Reader.readAll_eq_answers (.start bytes)
  refine ⟨fun _ _ _ => answer?_eq_iff, isText_iff, hread,
    Reader.exists_yields_readAll (.start bytes), ?_, ?_⟩
  · intro before line after hlines number
    have hnumber : countAfter (0 + before.countP isText) line = number := by
      simp only [number, List.countP_append, List.countP_singleton, countAfter]
      cases isText line <;> simp
    rw [hread, hlines, answers_append, answers, hnumber]
  · intro good number cause rest hfirst
    obtain ⟨before, line, after, hlines, hnumber, hbefore, herror⟩ :=
      exists_line_of_answers (hread ▸ hfirst)
    exact ⟨before, line, after, hlines, by omega, hbefore, herror⟩

/--
A comment after a wide blank, a line that breaks off before its carriage return, which is the first
error, and one that is not UTF-8.
-/
theorem read_eq_answers_of_brokenOff :
    let bytes : List UInt8 := [227, 128, 128, 35, 10, 49, 13, 10, 255]
    read bytes = [.error (.line 2 (.missing (.x 0))), .error .notUtf8] ∧
      (∃ line ∈ (lines bytes)[1]?, answer? 2 line = some (.error (.line 2 (.missing (.x 0))))) ∧
      (∃ line ∈ (lines bytes)[0]?, Tells 1 line none) ∧
      ∃ line ∈ (lines bytes)[2]?, ∀ text, ¬ Encodes text line := by
  intro bytes
  obtain ⟨htells, htext, hread, -, -, hfirst⟩ := read_eq_answers bytes
  have hanswers : read bytes = [.error (.line 2 (.missing (.x 0))), .error .notUtf8] := by
    rw [hread]
    rfl
  obtain ⟨before, line, after, hlines, hnumber, -, herror⟩ :=
    hfirst [] 2 (.missing (.x 0)) [.error .notUtf8] hanswers
  have hbefore : before.length = 1 := by omega
  have hline : (lines bytes)[1]? = some line := by
    rw [hlines, ← hbefore]
    simp
  refine ⟨hanswers, ⟨line, hline, herror⟩, ⟨_, rfl, (htells 1 _ none).mp rfl⟩, _, rfl, ?_⟩
  intro text encodes
  have hcounted := (htext [255]).mpr ⟨text, encodes⟩
  cases hcounted

end SensorBar.Trace
