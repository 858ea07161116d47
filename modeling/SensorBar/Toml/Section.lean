import SensorBar.Toml.Number
import SensorBar.Toml.Token

/-!
# Sections of settings text

A document is read as a sequence of sections: the entries before the first header, and then those
after each header.  How sections make up tables is not settled here.
-/

namespace SensorBar.Toml

/-- A header, or none, with the entries under it. -/
structure Section where
  path : List String
  /-- Whether the header is written in double brackets. -/
  isArray : Bool
  entries : Entries

/-- Reads from the tokens that are left. -/
abbrev Reader := StateT (List Token) Option

namespace Reader

/-! ## Single tokens -/

def peek : Reader (Option Token) := do
  return (← get).head?

def next : Reader Token := do
  match ← get with
  | [] => failure
  | t :: rest =>
      set rest
      return t

def eat (t : Token) : Reader Bool := do
  match ← get with
  | [] => return false
  | u :: rest =>
      if u = t then
        set rest
        return true
      else return false

def expect (t : Token) : Reader Unit := do
  if !(← eat t) then failure

def skipBlank : Reader Unit := do
  match ← get with
  | .blank _ :: rest => set rest
  | _ => return

/-- Takes the end of a line, or meets the end of the document. -/
def lineEndOrEnd : Reader Unit := do
  match ← get with
  | [] => return
  | .lineEnd :: rest => set rest
  | _ => failure

def eatComment : Reader Bool := do
  if ← eat .comment then
    lineEndOrEnd
    return true
  else return false

/-- Takes what may stand after an entry or a header: blanks, a comment and the end of the line. -/
def restOfLine : Reader Unit := do
  skipBlank
  if !(← eatComment) then lineEndOrEnd

def word : Reader (List Char) := do
  match ← next with
  | .word w => return w
  | _ => failure

/-! ## Keys -/

/-- A bare key, or a string on one line. -/
def key : Reader String := do
  match ← next with
  | .word w => return String.ofList w
  | .string s false => return String.ofList s
  | _ => failure

/-- More keys after periods; `fuel` bounds their number. -/
def moreKeys : Nat → Reader (List String)
  | 0 => failure
  | fuel + 1 => do
      skipBlank
      if ← eat .period then
        skipBlank
        let k ← key
        let ks ← moreKeys fuel
        return k :: ks
      else return []

/-- A key with the keys that follow it after periods, and the blanks after them. -/
def path : Reader (List String) := do
  let k ← key
  let ks ← moreKeys ((← get).length + 1)
  return k :: ks

/-! ## Numbers and dates -/

/-- An exponent whose `e` ends a word: it may have a plus sign and has no minus sign. -/
def looseExponent : Reader (Bool × List Char × List Char) := do
  let _ ← eat .plus
  let w ← word
  let (digits, rest) ← StateT.lift (Number.readDigits? 10 true w)
  return (false, digits, rest)

/-- The exponent that `tail`, the rest of a word, holds or begins. -/
def exponent (tail : List Char) : Reader Int := do
  match tail with
  | [] => return 0
  | c :: cs =>
      if c ≠ 'e' ∧ c ≠ 'E' then failure
      let (negative, digits, rest) ←
        if cs.isEmpty then looseExponent else StateT.lift (Number.readSigned? true cs)
      if !rest.isEmpty then failure
      let value : Int := Decimal.digitsValue digits
      return if negative then -value else value

/-- A double from the word up to its period and, when there is one, the word after it. -/
def float (w : List Char) (afterPeriod : Option (List Char)) : Reader Value := do
  let (negative, whole, tail) ← StateT.lift (Number.readSigned? false w)
  let (fraction, tail) ← match afterPeriod with
    | none => pure ([], tail)
    | some after => do
        if !tail.isEmpty then failure
        StateT.lift (Number.readDigits? 10 true after)
  let e ← exponent tail
  let d : Decimal :=
    ⟨negative, Decimal.digitsValue (whole ++ fraction), e - (fraction.length : Int)⟩
  let x ← StateT.lift (Number.finite? d)
  return .float x

def integer (radix : Nat) (cs : List Char) : Reader Value := do
  let n ← StateT.lift (Number.readInteger? radix cs)
  return .integer n

def number (w : List Char) : Reader Value := do
  match w with
  | '0' :: 'x' :: cs => integer 16 cs
  | '0' :: 'o' :: cs => integer 8 cs
  | '0' :: 'b' :: cs => integer 2 cs
  | _ =>
      if w.contains 'e' || w.contains 'E' then float w none
      else if ← eat .period then
        let after ← word
        float w (some after)
      else if w = ['i', 'n', 'f'] then return .float (1.0 / 0.0)
      else if w = ['-', 'i', 'n', 'f'] then return .float (-(1.0 / 0.0))
      else if w = ['n', 'a', 'n'] then return .float (0.0 / 0.0)
      else if w = ['-', 'n', 'a', 'n'] then return .float (-(0.0 / 0.0))
      else integer 10 w

/-- Whether a word can only begin a date or a time. -/
def looksLikeDate (w : List Char) : Bool :=
  let hasExponent := (List.zip w (w.drop 1)).any fun (c, d) => (c == 'e' || c == 'E') && d == '-'
  w.contains 'T' || w.contains 't' || ((w.drop 1).contains '-' && !hasExponent)

/-- Minutes and seconds with what may follow them, after the colon that ends the hours. -/
def timeAfterHours : Reader Unit := do
  let _ ← word
  expect .colon
  let _ ← word
  if ← eat .period then let _ ← word
  if ← eat .plus then let _ ← word
  if ← eat .colon then let _ ← word

/-- A date or a time after its first word.  Its parts are not looked at. -/
def datetime (colonTaken : Bool) : Reader Value := do
  match ← get with
  | .blank [' '] :: .word _ :: rest => set rest
  | _ => pure ()
  let colon ← if colonTaken then pure true else eat .colon
  if colon then timeAfterHours
  return .datetime

def numberOrDate (w : List Char) : Reader Value := do
  if looksLikeDate w then datetime false
  else if ← eat .colon then datetime true
  else number w

def ofWord (w : List Char) : Reader Value := do
  if w = ['t', 'r', 'u', 'e'] then return .boolean true
  else if w = ['f', 'a', 'l', 's', 'e'] then return .boolean false
  else if w = ['i', 'n', 'f'] ∨ w = ['n', 'a', 'n'] then numberOrDate w
  else
    match w.head? with
    | some c => if c == '-' || c.isDigit then numberOrDate w else failure
    | none => failure

/-! ## Values -/

/-- Blanks, comments and line ends between the items of an array; `fuel` bounds their number. -/
def skipLines : Nat → Reader Unit
  | 0 => failure
  | fuel + 1 => do
      skipBlank
      if ← eat .lineEnd then skipLines fuel
      else if ← eatComment then skipLines fuel

def skipAllLines : Reader Unit := do
  skipLines ((← get).length + 1)

mutual

/-- A value; `fuel` bounds the depth to which values are nested and listed. -/
def value : Nat → Reader Value
  | 0 => failure
  | fuel + 1 => do
      match ← next with
      | .string s _ => return .string (String.ofList s)
      | .word w => ofWord w
      | .plus => do number (← word)
      | .openBrace => do
          skipBlank
          if ← eat .closeBrace then return .table .inline []
          else return .table .inline (← inlineEntries fuel [])
      | .openBracket => return .array (← items fuel)
      | _ => failure

def items : Nat → Reader (List Value)
  | 0 => failure
  | fuel + 1 => do
      skipAllLines
      if ← eat .closeBracket then return []
      else
        let v ← value fuel
        skipAllLines
        if ← eat .comma then return v :: (← items fuel)
        else
          expect .closeBracket
          return [v]

/-- The entries of an inline table after `entries`, and its closing brace. -/
def inlineEntries : Nat → Entries → Reader Entries
  | 0, _ => failure
  | fuel + 1, entries => do
      let k ← path
      expect .equals
      skipBlank
      let v ← value fuel
      let entries ← StateT.lift (entries.insert? v k)
      skipBlank
      if ← eat .closeBrace then return entries
      else
        expect .comma
        skipBlank
        inlineEntries fuel entries

end

/-! ## Lines -/

inductive Line where
  | header (path : List String) (isArray : Bool)
  | entry (path : List String) (value : Value)

def header : Reader Line := do
  expect .openBracket
  let isArray ← eat .openBracket
  skipBlank
  let path ← path
  expect .closeBracket
  if isArray then expect .closeBracket
  restOfLine
  return .header path isArray

def entry : Reader Line := do
  let k ← path
  expect .equals
  skipBlank
  let v ← value (2 * (← get).length + 2)
  restOfLine
  return .entry k v

/-- The lines of a document; `fuel` bounds their number. -/
def lines : Nat → Reader (List Line)
  | 0 => failure
  | fuel + 1 => do
      skipAllLines
      match ← peek with
      | none => return []
      | some t => do
          let line ← if t = .openBracket then header else entry
          return line :: (← lines fuel)

end Reader

namespace Section

/-- The sections that lines make up after `current`, which is none before the first line. -/
def ofLines : Option Section → List Reader.Line → Option (List Section)
  | current, [] => some current.toList
  | current, .header path isArray :: rest => do
      let later ← ofLines (some ⟨path, isArray, []⟩) rest
      return current.toList ++ later
  | current, .entry path value :: rest => do
      let s := current.getD ⟨[], false, []⟩
      let entries ← s.entries.insert? value path
      ofLines (some { s with entries }) rest

def ofText? (cs : List Char) : Option (List Section) := do
  let tokens ← Token.ofText? cs
  let (lines, _) ← (Reader.lines (tokens.length + 1)).run tokens
  ofLines none lines

end Section

end SensorBar.Toml
