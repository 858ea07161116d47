/-!
# Tokens of settings text

Settings are written in TOML.  A text is cut into blanks, line ends, comments, punctuation, words
and strings; strings are already free of their quotes and escapes.
-/

namespace SensorBar.Toml

inductive Token where
  | blank (text : List Char)
  | lineEnd
  | comment
  | equals
  | period
  | comma
  | colon
  | plus
  | openBrace
  | closeBrace
  | openBracket
  | closeBracket
  | word (text : List Char)
  | string (value : List Char) (multiline : Bool)
  deriving DecidableEq

namespace Token

/-! ## Characters -/

def isSpace (c : Char) : Bool :=
  c == ' ' || c == '\t'

/-- The characters of bare keys, numbers and dates. -/
def isWordChar (c : Char) : Bool :=
  c.isAlphanum || c == '_' || c == '-'

def isCommentChar (c : Char) : Bool :=
  c == '\t' || ' ' ≤ c

def isStringChar (c : Char) : Bool :=
  c == '\t' || (' ' ≤ c && c != '\x7f')

/-- Line ends are single line feeds: a carriage return before one is dropped. -/
def foldLineEnds : List Char → List Char
  | '\r' :: '\n' :: cs => '\n' :: foldLineEnds cs
  | c :: cs => c :: foldLineEnds cs
  | [] => []

/-! ## Strings -/

def hexValue? (c : Char) : Option Nat :=
  if c.isDigit then some (c.toNat - '0'.toNat)
  else if 'a' ≤ c && c ≤ 'f' then some (c.toNat - 'a'.toNat + 10)
  else if 'A' ≤ c && c ≤ 'F' then some (c.toNat - 'A'.toNat + 10)
  else none

/-- The character with a code point in exactly `count` hexadecimal digits, and what follows it. -/
def readCodePoint? (count : Nat) (cs : List Char) : Option (Char × List Char) := do
  let digits ← (cs.take count).mapM hexValue?
  let value := digits.foldl (fun n d => 16 * n + d) 0
  if digits.length = count ∧ value.isValidChar then some (Char.ofNat value, cs.drop count) else none

def readEscape? : List Char → Option (Char × List Char)
  | '"' :: cs => some ('"', cs)
  | '\\' :: cs => some ('\\', cs)
  | 'b' :: cs => some ('\x08', cs)
  | 'f' :: cs => some ('\x0c', cs)
  | 'n' :: cs => some ('\n', cs)
  | 'r' :: cs => some ('\r', cs)
  | 't' :: cs => some ('\t', cs)
  | 'u' :: cs => readCodePoint? 4 cs
  | 'U' :: cs => readCodePoint? 8 cs
  | _ => none

/-- What follows a backslash that ends a line: blanks and line ends are left out. -/
def readContinuation? (cs : List Char) : Option (List Char) :=
  match cs.dropWhile isSpace with
  | '\n' :: rest => some (rest.dropWhile fun c => isSpace c || c == '\n')
  | _ => none

theorem length_dropWhile_le (p : Char → Bool) (cs : List Char) :
    (cs.dropWhile p).length ≤ cs.length :=
  (List.dropWhile_sublist p).length_le

theorem length_of_readEscape? {cs rest : List Char} {c : Char}
    (h : readEscape? cs = some (c, rest)) : rest.length ≤ cs.length := by
  unfold readEscape? at h
  split at h <;> simp_all [readCodePoint?, Option.bind_eq_some_iff] <;> grind

theorem length_of_readContinuation? {cs rest : List Char}
    (h : readContinuation? cs = some rest) : rest.length ≤ cs.length := by
  unfold readContinuation? at h
  split at h
  · rename_i tail heq
    have hcs := length_dropWhile_le isSpace cs
    have htail := length_dropWhile_le (fun c => isSpace c || c == '\n') tail
    rw [heq] at hcs
    simp at h hcs
    subst h
    omega
  · simp at h

/-- The content of a string on one line, after its opening quote, and what follows the string. -/
def readLine? (delimiter : Char) (cs : List Char) : Option (List Char × List Char) :=
  match cs with
  | [] => none
  | c :: cs =>
      if c = delimiter then some ([], cs)
      else if delimiter = '"' ∧ c = '\\' then
        match h : readEscape? cs with
        | none => none
        | some (value, rest) =>
            have := length_of_readEscape? h
            (readLine? delimiter rest).map (Prod.map (value :: ·) id)
      else if isStringChar c then (readLine? delimiter cs).map (Prod.map (c :: ·) id)
      else none
termination_by cs.length

/-- At a closing triple quote, the quotes that still belong to the content, and what follows it. -/
def closing? (delimiter : Char) (cs : List Char) : Option (List Char × List Char) :=
  let count := (cs.takeWhile (· == delimiter)).length
  if count < 3 then none
  else
    let extra := min (count - 3) 2
    some (List.replicate extra delimiter, cs.drop (3 + extra))

/-- The content of a string on several lines, after its opening quotes, and what follows it. -/
def readLines? (delimiter : Char) (cs : List Char) : Option (List Char × List Char) :=
  match cs with
  | [] => none
  | c :: cs =>
      match closing? delimiter (c :: cs) with
      | some closed => some closed
      | none =>
          if delimiter = '"' ∧ c = '\\' then
            match h : readEscape? cs with
            | some (value, rest) =>
                have := length_of_readEscape? h
                (readLines? delimiter rest).map (Prod.map (value :: ·) id)
            | none =>
                match h : readContinuation? cs with
                | none => none
                | some rest =>
                    have := length_of_readContinuation? h
                    readLines? delimiter rest
          else if isStringChar c || c == '\n' then
            (readLines? delimiter cs).map (Prod.map (c :: ·) id)
          else none
termination_by cs.length

/-- A string after its first quote.  A line end right after a triple quote is left out. -/
def readString? (delimiter : Char) (cs : List Char) : Option (Token × List Char) :=
  match cs with
  | c :: d :: rest =>
      if c = delimiter ∧ d = delimiter then
        let body := match rest with
          | '\n' :: rest => rest
          | _ => rest
        (readLines? delimiter body).map (Prod.map (.string · true) id)
      else (readLine? delimiter cs).map (Prod.map (.string · false) id)
  | _ => (readLine? delimiter cs).map (Prod.map (.string · false) id)

/-! ## Scanning -/

def punctuation? : Char → Option Token
  | '\n' => some .lineEnd
  | '=' => some .equals
  | '.' => some .period
  | ',' => some .comma
  | ':' => some .colon
  | '+' => some .plus
  | '\x7b' => some .openBrace
  | '\x7d' => some .closeBrace
  | '[' => some .openBracket
  | ']' => some .closeBracket
  | _ => none

/-- The token at the start of a text that begins with `c`, and what follows it. -/
def first? (c : Char) (cs : List Char) : Option (Token × List Char) :=
  if isSpace c then some (.blank (c :: cs.takeWhile isSpace), cs.dropWhile isSpace)
  else if c = '#' then some (.comment, cs.dropWhile isCommentChar)
  else if c = '"' ∨ c = '\'' then readString? c cs
  else if isWordChar c then some (.word (c :: cs.takeWhile isWordChar), cs.dropWhile isWordChar)
  else (punctuation? c).map (·, cs)

theorem length_of_readLine? {delimiter : Char} {cs value rest : List Char}
    (h : readLine? delimiter cs = some (value, rest)) : rest.length ≤ cs.length := by
  fun_induction readLine? delimiter cs generalizing value rest <;>
    simp_all [Option.map_eq_some_iff] <;> grind

theorem length_of_readLines? {delimiter : Char} {cs value rest : List Char}
    (h : readLines? delimiter cs = some (value, rest)) : rest.length ≤ cs.length := by
  fun_induction readLines? delimiter cs generalizing value rest with
  | case1 => simp at h
  | case2 c cs closed hclosed =>
      simp only [Option.some.injEq] at h
      simp only [closing?, h] at hclosed
      split at hclosed
      · simp at hclosed
      · simp only [Option.some.injEq, Prod.mk.injEq] at hclosed
        rw [← hclosed.2, List.length_drop]
        omega
  | case3 c cs _ _ c' rest' _ hle ih =>
      obtain ⟨⟨v, r⟩, hv, heq⟩ := Option.map_eq_some_iff.1 h
      have := ih hv
      simp only [Prod.map, id_eq, Prod.mk.injEq] at heq
      rw [← heq.2, List.length_cons]
      omega
  | case4 => simp at h
  | case5 c cs _ _ _ rest' _ hle ih =>
      have := ih h
      rw [List.length_cons]
      omega
  | case6 c cs _ _ _ ih =>
      obtain ⟨⟨v, r⟩, hv, heq⟩ := Option.map_eq_some_iff.1 h
      have := ih hv
      simp only [Prod.map, id_eq, Prod.mk.injEq] at heq
      rw [← heq.2, List.length_cons]
      omega
  | case7 => simp at h

theorem length_of_readString? {delimiter : Char} {cs rest : List Char} {t : Token}
    (h : readString? delimiter cs = some (t, rest)) : rest.length ≤ cs.length := by
  have line : ∀ {cs : List Char},
      (readLine? delimiter cs).map (Prod.map (Token.string · false) id) = some (t, rest) →
        rest.length ≤ cs.length := by
    intro cs h
    obtain ⟨⟨v, r⟩, hv, heq⟩ := Option.map_eq_some_iff.1 h
    simp only [Prod.map, id_eq, Prod.mk.injEq] at heq
    exact heq.2 ▸ length_of_readLine? hv
  unfold readString? at h
  split at h
  · rename_i c d tail
    split at h
    · obtain ⟨⟨v, r⟩, hv, heq⟩ := Option.map_eq_some_iff.1 h
      simp only [Prod.map, id_eq, Prod.mk.injEq] at heq
      have := length_of_readLines? hv
      rw [← heq.2]
      split at this <;> simp only [List.length_cons] <;> grind
    · exact line h
  · exact line h

theorem length_of_first? {c : Char} {cs rest : List Char} {t : Token}
    (h : first? c cs = some (t, rest)) : rest.length ≤ cs.length := by
  unfold first? at h
  split at h
  · simp at h; rw [← h.2]; exact length_dropWhile_le _ _
  split at h
  · simp at h; rw [← h.2]; exact length_dropWhile_le _ _
  split at h
  · exact length_of_readString? h
  split at h
  · simp at h; rw [← h.2]; exact length_dropWhile_le _ _
  · simp [Option.map_eq_some_iff] at h; grind

/-- All tokens of a text whose line ends are folded. -/
def scan? (cs : List Char) : Option (List Token) :=
  match cs with
  | [] => some []
  | c :: cs =>
      match h : first? c cs with
      | none => none
      | some (t, rest) =>
          have := length_of_first? h
          (scan? rest).map (t :: ·)
termination_by cs.length

/-- The tokens of a document.  A byte order mark at its start is left out. -/
def ofText? (cs : List Char) : Option (List Token) :=
  match foldLineEnds cs with
  | '\uFEFF' :: rest => scan? rest
  | cs => scan? cs

end Token

end SensorBar.Toml
