import Mathlib.Data.List.Basic
import Mathlib.Data.List.TakeDrop
import Mathlib.Data.List.TakeWhile
import SensorBar.Decimal.Read
import SensorBar.Proofs.Words

/-! # Numbers as text

The texts that are read as numbers, and the numbers they are read as.  A whole number is written in
decimal digits after an optional plus sign.  A double is a word for an infinity or for no number, in
any case, or a decimal; either may have a sign.  A decimal has digits on at least one side of its
point, which may be left out at its end, and it may have an exponent.
-/

namespace SensorBar.Decimal

open Text (isBlank IsWord)

/-- Decimal digits, at least one. -/
def Digits (ds : List Char) : Prop :=
  ds ≠ [] ∧ ∀ c ∈ ds, c.isDigit = true

/-- A whole number in decimal digits, after an optional plus sign. -/
def Numeral (text : List Char) (n : Nat) : Prop :=
  ∃ ds, (text = ds ∨ text = '+' :: ds) ∧ Digits ds ∧ Nat.ofDigitChars 10 ds 0 = n

/-- A whole number below a bound. -/
def NumeralBelow (bound : Nat) (text : List Char) (n : Nat) : Prop :=
  Numeral text n ∧ n < bound

/-- An optional sign, and whether it is a minus sign. -/
inductive Sign : List Char → Bool → Prop where
  | absent : Sign [] false
  | plus : Sign ['+'] false
  | minus : Sign ['-'] true

/-- Digits on both sides of a point, or on one side only; a point at the end may be left out. -/
inductive Mantissa : List Char → (whole fraction : List Char) → Prop where
  | bare {ds : List Char} (digits : Digits ds) : Mantissa ds ds []
  | pointed {whole fraction : List Char} (digits : Digits (whole ++ fraction)) :
      Mantissa (whole ++ '.' :: fraction) whole fraction

/-- An optional power of ten. -/
inductive Exponent : List Char → Int → Prop where
  | absent : Exponent [] 0
  | marked {mark : Char} {sign ds : List Char} {negative : Bool} (letter : mark = 'e' ∨ mark = 'E')
      (signed : Sign sign negative) (digits : Digits ds) :
      Exponent (mark :: (sign ++ ds))
        (if negative then -(Nat.ofDigitChars 10 ds 0 : Int) else Nat.ofDigitChars 10 ds 0)

/-- A word for an infinity or for no number, in any case. -/
inductive Special : List Char → Float → Prop where
  | infinity {word : List Char} (spelled : word.map Char.toLower = "inf".toList ∨
      word.map Char.toLower = "infinity".toList) : Special word (1.0 / 0.0)
  | nan {word : List Char} (spelled : word.map Char.toLower = "nan".toList) :
      Special word (0.0 / 0.0)

/-- A double as text. -/
inductive Literal : List Char → Float → Prop where
  | special {sign word : List Char} {negative : Bool} {x : Float} (signed : Sign sign negative)
      (named : Special word x) : Literal (sign ++ word) (if negative then -x else x)
  | decimal {sign mantissa exponent whole fraction : List Char} {negative : Bool} {e : Int}
      (signed : Sign sign negative) (digits : Mantissa mantissa whole fraction)
      (scaled : Exponent exponent e) :
      Literal (sign ++ (mantissa ++ exponent))
        (toFloat ⟨negative, Nat.ofDigitChars 10 (whole ++ fraction) 0, e - fraction.length⟩)

/-! ## Characters -/

theorem toNat_of_isDigit {c : Char} (h : c.isDigit = true) : 48 ≤ c.toNat ∧ c.toNat ≤ 57 := by
  simpa [Char.isDigit, UInt32.le_iff_toNat_le] using h

/-- No blank is between the first digit and the last letter of ASCII. -/
theorem toNat_of_isBlank {c : Char} (h : isBlank c = true) : c.toNat < 48 ∨ 122 < c.toNat := by
  simp [isBlank, Text.inRanges] at h
  omega

theorem not_isBlank_of_isDigit {c : Char} (h : c.isDigit = true) : isBlank c = false := by
  by_contra hblank
  rw [Bool.not_eq_false] at hblank
  have hdigit := toNat_of_isDigit h
  rcases toNat_of_isBlank hblank with hbelow | habove <;> omega

theorem toLower_eq_self {c : Char} (h : c.toNat < 65 ∨ 90 < c.toNat) : c.toLower = c := by
  refine dif_neg fun ⟨hlower, hupper⟩ => ?_
  have hlower : 65 ≤ c.toNat := UInt32.le_iff_toNat_le.mp hlower
  have hupper : c.toNat ≤ 90 := UInt32.le_iff_toNat_le.mp hupper
  omega

theorem toLower_of_isDigit {c : Char} (h : c.isDigit = true) : c.toLower = c :=
  toLower_eq_self (.inl (by have := toNat_of_isDigit h; omega))

theorem toLower_of_isBlank {c : Char} (h : isBlank c = true) : c.toLower = c :=
  toLower_eq_self ((toNat_of_isBlank h).imp (by omega) (by omega))

/-! ## Whole numbers -/

theorem Digits.head_ne {ds : List Char} (h : Digits ds) {c : Char} (hc : c.isDigit = false) :
    ∀ b ∈ ds.head?, b ≠ c := by
  rintro b hb rfl
  have := h.2 b (List.mem_of_mem_head? hb)
  simp [hc] at this

theorem digits_iff {ds : List Char} :
    ¬ (ds.isEmpty || !ds.all Char.isDigit) = true ↔ Digits ds := by
  simp [Digits]

theorem readNat?_eq_some_iff {limit n : Nat} {text : List Char} :
    readNat? limit text = some n ↔ Numeral text n ∧ n ≤ limit := by
  unfold readNat?
  extract_lets unsigned
  rw [Option.ite_none_left_eq_some, Option.ite_none_right_eq_some, digits_iff]
  constructor
  · rintro ⟨hdigits, hle, hvalue⟩
    have htext : text = unsigned ∨ text = '+' :: unsigned := by
      unfold unsigned
      split <;> simp
    obtain rfl := Option.some.inj hvalue
    exact ⟨⟨unsigned, htext, hdigits, rfl⟩, hle⟩
  · rintro ⟨⟨ds, htext, hdigits, rfl⟩, hle⟩
    have hunsigned : unsigned = ds := by
      unfold unsigned
      rcases htext with rfl | rfl
      · split
        next rest => exact absurd rfl (hdigits.head_ne (by decide) '+' rfl)
        next => rfl
      · rfl
    rw [hunsigned]
    exact ⟨hdigits, hle, rfl⟩

theorem numeral_toDigits (n : Nat) : Numeral (Nat.toDigits 10 n) n :=
  ⟨Nat.toDigits 10 n, .inl rfl, ⟨Nat.toDigits_ne_nil,
    fun _ hc => Nat.isDigit_of_mem_toDigits (by decide) (by decide) hc⟩,
    Nat.ofDigitChars_toDigits (by decide) (by decide)⟩

theorem Numeral.unique {text : List Char} {m n : Nat} (hm : Numeral text m)
    (hn : Numeral text n) : m = n := by
  have hm' := readNat?_eq_some_iff.mpr ⟨hm, Nat.le_max_left m n⟩
  have hn' := readNat?_eq_some_iff.mpr ⟨hn, Nat.le_max_right m n⟩
  exact Option.some.inj (hm'.symm.trans hn')

theorem NumeralBelow.unique {bound : Nat} {text : List Char} {m n : Nat}
    (hm : NumeralBelow bound text m) (hn : NumeralBelow bound text n) : m = n :=
  hm.1.unique hn.1

theorem readNat?_pred_eq_some_iff {bound n : Nat} {text : List Char} (hbound : 0 < bound) :
    readNat? (bound - 1) text = some n ↔ NumeralBelow bound text n := by
  rw [readNat?_eq_some_iff, Nat.le_sub_one_iff_lt hbound, NumeralBelow]

theorem Digits.isWord {ds : List Char} (h : Digits ds) : IsWord ds :=
  ⟨h.1, fun c hc => not_isBlank_of_isDigit (h.2 c hc)⟩

theorem Numeral.isWord {text : List Char} {n : Nat} (h : Numeral text n) : IsWord text := by
  obtain ⟨ds, rfl | rfl, hdigits, -⟩ := h
  · exact hdigits.isWord
  · exact ⟨List.cons_ne_nil _ _, List.forall_mem_cons.mpr ⟨by decide, hdigits.isWord.2⟩⟩

/-! ## Signs -/

theorem exists_sign_of_readSign {cs rest : List Char} {negative : Bool}
    (h : readSign cs = (negative, rest)) : ∃ sign, Sign sign negative ∧ cs = sign ++ rest := by
  unfold readSign at h
  split at h <;> cases h
  · exact ⟨['-'], .minus, rfl⟩
  · exact ⟨['+'], .plus, rfl⟩
  · exact ⟨[], .absent, rfl⟩

theorem Sign.readSign_append {sign : List Char} {negative : Bool} (h : Sign sign negative)
    (rest : List Char) (hrest : ∀ c ∈ rest.head?, c ≠ '-' ∧ c ≠ '+') :
    readSign (sign ++ rest) = (negative, rest) := by
  cases h with
  | plus => rfl
  | minus => rfl
  | absent =>
      rw [List.nil_append]
      unfold readSign
      split
      · exact absurd rfl (hrest '-' rfl).1
      · exact absurd rfl (hrest '+' rfl).2
      · rfl

/-! ## Decimals -/

theorem span_eq_iff {cs ds rest : List Char} :
    cs.span Char.isDigit = (ds, rest) ↔ cs = ds ++ rest ∧ (∀ c ∈ ds, c.isDigit = true) ∧
      ∀ c ∈ rest.head?, c.isDigit = false := by
  rw [List.span_eq_takeWhile_dropWhile, Prod.mk.injEq]
  constructor
  · rintro ⟨rfl, rfl⟩
    refine ⟨List.takeWhile_append_dropWhile.symm, fun c hc => List.mem_takeWhile_imp hc, ?_⟩
    intro c hc
    have hfirst := List.head?_dropWhile_not Char.isDigit cs
    rwa [Option.mem_def.mp hc] at hfirst
  · rintro ⟨rfl, hds, hrest⟩
    rw [List.takeWhile_append_of_pos hds, List.dropWhile_append_of_pos hds]
    cases rest with
    | nil => exact ⟨List.append_nil ds, rfl⟩
    | cons c rest =>
        have hc : ¬ c.isDigit = true := Bool.eq_false_iff.mp (hrest c rfl)
        rw [List.takeWhile_cons_of_neg hc, List.dropWhile_cons_of_neg hc]
        exact ⟨List.append_nil ds, rfl⟩

theorem readExponent?_eq_some_iff {cs : List Char} {e : Int} :
    readExponent? cs = some e ↔ ∃ sign ds negative, cs = sign ++ ds ∧ Sign sign negative ∧
      Digits ds ∧ e = if negative then -(Nat.ofDigitChars 10 ds 0 : Int)
        else Nat.ofDigitChars 10 ds 0 := by
  constructor
  · intro h
    obtain ⟨negative, ds, hsplit⟩ : ∃ negative ds, readSign cs = (negative, ds) := ⟨_, _, rfl⟩
    obtain ⟨sign, hsign, hcs⟩ := exists_sign_of_readSign hsplit
    simp only [readExponent?, hsplit, Option.ite_none_left_eq_some, digits_iff] at h
    exact ⟨sign, ds, negative, hcs, hsign, h.1, (Option.some.inj h.2).symm⟩
  · rintro ⟨sign, ds, negative, rfl, hsign, hdigits, rfl⟩
    have hread := hsign.readSign_append ds fun c hc =>
      ⟨hdigits.head_ne (by decide) c hc, hdigits.head_ne (by decide) c hc⟩
    simp only [readExponent?, hread, Option.ite_none_left_eq_some, digits_iff]
    exact ⟨hdigits, rfl⟩

/-- What stands after the digits of a decimal. -/
theorem readTail_eq_some_iff {tail : List Char} {places : Int} {f : Int → Decimal} {d : Decimal} :
    (match tail with
      | [] => some (f (-places))
      | c :: rest =>
          if c == 'e' || c == 'E' then (readExponent? rest).map fun e => f (e - places)
          else none) = some d ↔ ∃ e, Exponent tail e ∧ f (e - places) = d := by
  constructor
  · intro h
    cases tail with
    | nil => exact ⟨0, .absent, by rw [Int.zero_sub]; exact Option.some.inj h⟩
    | cons c rest =>
        obtain ⟨hmark, h⟩ := Option.ite_none_right_eq_some.mp h
        obtain ⟨e, he, hd⟩ := Option.map_eq_some_iff.mp h
        obtain ⟨sign, ds, negative, rfl, hsign, hdigits, rfl⟩ := readExponent?_eq_some_iff.mp he
        exact ⟨_, .marked (by simpa using hmark) hsign hdigits, hd⟩
  · rintro ⟨e, he, rfl⟩
    cases he with
    | absent => rw [Int.zero_sub]
    | @marked mark sign ds negative letter signed digits =>
        have hread := readExponent?_eq_some_iff.mpr ⟨sign, ds, negative, rfl, signed, digits, rfl⟩
        have hmark : (mark == 'e' || mark == 'E') = true := by simpa using letter
        simp only [hmark, hread, if_true, Option.map_some]

theorem Exponent.head_not_isDigit {tail : List Char} {e : Int} (h : Exponent tail e) :
    ∀ c ∈ tail.head?, c.isDigit = false ∧ c ≠ '.' := by
  cases h with
  | absent => simp
  | marked letter =>
      rintro c ⟨⟩
      rcases letter with rfl | rfl <;> decide

/-- The digits after a point, if there is one, and what comes after them. -/
inductive Fraction : List Char → (fraction tail : List Char) → Prop where
  | pointed {rest fraction tail : List Char} (digits : rest.span Char.isDigit = (fraction, tail)) :
      Fraction ('.' :: rest) fraction tail
  | absent {tail : List Char} (head : ∀ c ∈ tail.head?, c ≠ '.') : Fraction tail [] tail

section

variable {negative : Bool} {cs whole fraction after tail : List Char} {d : Decimal}

theorem readUnsigned?_of_span (hwhole : cs.span Char.isDigit = (whole, after))
    (hfraction : Fraction after fraction tail) :
    readUnsigned? negative cs = some d ↔ whole ++ fraction ≠ [] ∧ ∃ e, Exponent tail e ∧
      ⟨negative, Nat.ofDigitChars 10 (whole ++ fraction) 0, e - fraction.length⟩ = d := by
  unfold readUnsigned?
  rw [hwhole]
  split
  next heq =>
    obtain ⟨rfl, rfl⟩ := Prod.mk.inj heq
    split
    next digits rest heq' =>
      obtain ⟨rfl, rfl⟩ : digits = fraction ∧ rest = tail := by
        cases hfraction with
        | pointed digits => exact Prod.mk.inj (heq'.symm.trans digits)
        | absent head =>
            split at heq'
            · exact absurd rfl (head '.' rfl)
            · exact Prod.mk.inj heq'.symm
      rw [Option.ite_none_left_eq_some]
      exact and_congr (by simp) (readTail_eq_some_iff
        (f := fun e => ⟨negative, digitsValue (whole ++ digits), e⟩))

theorem readUnsigned?_eq_some_iff :
    readUnsigned? negative cs = some d ↔ ∃ mantissa exponent whole fraction e,
      cs = mantissa ++ exponent ∧ Mantissa mantissa whole fraction ∧ Exponent exponent e ∧
      ⟨negative, Nat.ofDigitChars 10 (whole ++ fraction) 0, e - fraction.length⟩ = d := by
  constructor
  · intro h
    obtain ⟨whole, after, hspan⟩ : ∃ whole after, cs.span Char.isDigit = (whole, after) :=
      ⟨_, _, rfl⟩
    obtain ⟨rfl, hwhole, -⟩ := span_eq_iff.mp hspan
    by_cases hpoint : ∃ rest, after = '.' :: rest
    · obtain ⟨rest, rfl⟩ := hpoint
      obtain ⟨fraction, tail, hspan'⟩ :
          ∃ fraction tail, rest.span Char.isDigit = (fraction, tail) :=
        ⟨_, _, rfl⟩
      obtain ⟨rfl, hfraction, -⟩ := span_eq_iff.mp hspan'
      obtain ⟨hne, e, he, hd⟩ := (readUnsigned?_of_span hspan (.pointed hspan')).mp h
      exact ⟨whole ++ '.' :: fraction, tail, whole, fraction, e, by simp,
        .pointed ⟨hne, List.forall_mem_append.mpr ⟨hwhole, hfraction⟩⟩, he, hd⟩
    · have hnone : ∀ c ∈ after.head?, c ≠ '.' := by
        rintro c hc rfl
        exact hpoint ⟨after.tail, List.eq_cons_of_mem_head? hc⟩
      obtain ⟨hne, e, he, hd⟩ := (readUnsigned?_of_span hspan (.absent hnone)).mp h
      rw [List.append_nil] at hne
      exact ⟨whole, after, whole, [], e, rfl, .bare ⟨hne, hwhole⟩, he, hd⟩
  · rintro ⟨mantissa, exponent, whole, fraction, e, rfl, hmantissa, hexponent, hd⟩
    have hends := hexponent.head_not_isDigit
    cases hmantissa with
    | bare digits =>
        have hspan := span_eq_iff.mpr ⟨rfl, digits.2, fun c hc => (hends c hc).1⟩
        refine (readUnsigned?_of_span hspan (.absent fun c hc => (hends c hc).2)).mpr
          ⟨?_, e, hexponent, hd⟩
        rw [List.append_nil]
        exact digits.1
    | pointed digits =>
        obtain ⟨hwhole, hfraction⟩ := List.forall_mem_append.mp digits.2
        have hspan : (whole ++ '.' :: (fraction ++ exponent)).span Char.isDigit =
            (whole, '.' :: (fraction ++ exponent)) :=
          span_eq_iff.mpr ⟨rfl, hwhole, by simp⟩
        have hspan' := span_eq_iff.mpr ⟨rfl, hfraction, fun c hc => (hends c hc).1⟩
        rw [List.append_assoc, List.cons_append]
        exact (readUnsigned?_of_span hspan (.pointed hspan')).mpr ⟨digits.1, e, hexponent, hd⟩

end

/-! ## Doubles -/

theorem readWord?_eq_some_iff {cs : List Char} {x : Float} :
    readWord? cs = some x ↔ Special cs x := by
  simp only [readWord?, Bool.or_eq_true, beq_iff_eq, ← String.toList_inj, String.toList_ofList]
  constructor
  · intro h
    split_ifs at h with hinfinity hnan <;> cases h
    · exact .infinity hinfinity
    · exact .nan hnan
  · intro h
    cases h with
    | infinity spelled => rw [if_pos spelled]
    | nan spelled =>
        rw [if_neg (by rintro (h | h) <;> rw [spelled] at h <;> revert h <;> decide),
          if_pos spelled]

/-- The first letter of a word. -/
theorem Special.exists_head {word : List Char} {x : Float} (h : Special word x) :
    ∃ c rest, word = c :: rest ∧ (c.toLower = 'i' ∨ c.toLower = 'n') := by
  have hfirst (first : Char) (letter : first = 'i' ∨ first = 'n')
      (spelled : (word.map Char.toLower).head? = some first) :
      ∃ c rest, word = c :: rest ∧ (c.toLower = 'i' ∨ c.toLower = 'n') := by
    cases word with
    | nil => cases spelled
    | cons c rest =>
        obtain rfl : c.toLower = first := Option.some.inj spelled
        exact ⟨c, rest, rfl, letter⟩
  rcases h with (spelled | spelled) | spelled
  · exact hfirst 'i' (.inl rfl) (by rw [spelled]; rfl)
  · exact hfirst 'i' (.inl rfl) (by rw [spelled]; rfl)
  · exact hfirst 'n' (.inr rfl) (by rw [spelled]; rfl)

theorem Mantissa.head {mantissa whole fraction : List Char}
    (h : Mantissa mantissa whole fraction) (tail : List Char) :
    ∀ c ∈ (mantissa ++ tail).head?, c.isDigit = true ∨ c = '.' := by
  intro c hc
  cases h with
  | bare digits =>
      rw [List.head?_append_of_ne_nil _ digits.1] at hc
      exact .inl (digits.2 c (List.mem_of_mem_head? hc))
  | pointed digits =>
      cases whole with
      | nil => exact .inr (Option.some.inj hc).symm
      | cons d whole =>
          obtain rfl : d = c := Option.some.inj hc
          exact .inl (digits.2 d List.mem_cons_self)

/-- No word starts as a decimal does. -/
theorem Mantissa.readWord?_append {mantissa whole fraction : List Char}
    (h : Mantissa mantissa whole fraction) (tail : List Char) :
    readWord? (mantissa ++ tail) = none := by
  rw [Option.eq_none_iff_forall_ne_some]
  intro x hx
  obtain ⟨c, rest, hcs, hletter⟩ := (readWord?_eq_some_iff.mp hx).exists_head
  have hlower : c.toLower = c := by
    rcases h.head tail c (by rw [hcs]; rfl) with hdigit | rfl
    · exact toLower_of_isDigit hdigit
    · rfl
  rw [hlower] at hletter
  rcases hletter with rfl | rfl <;> exact absurd (h.head tail _ (by rw [hcs]; rfl)) (by decide)

theorem readFloat?_eq_some_iff {cs : List Char} {x : Float} :
    readFloat? cs = some x ↔ Literal cs x := by
  constructor
  · intro h
    obtain ⟨negative, rest, hsplit⟩ : ∃ negative rest, readSign cs = (negative, rest) :=
      ⟨_, _, rfl⟩
    obtain ⟨sign, hsign, rfl⟩ := exists_sign_of_readSign hsplit
    simp only [readFloat?, hsplit] at h
    split at h
    next y hword =>
      obtain rfl := Option.some.inj h
      exact .special hsign (readWord?_eq_some_iff.mp hword)
    next =>
      obtain ⟨d, hd, rfl⟩ := Option.map_eq_some_iff.mp h
      obtain ⟨mantissa, exponent, whole, fraction, e, rfl, hmantissa, hexponent, rfl⟩ :=
        readUnsigned?_eq_some_iff.mp hd
      exact .decimal hsign hmantissa hexponent
  · intro h
    cases h with
    | special signed named =>
        obtain ⟨c, rest, rfl, hc⟩ := named.exists_head
        have hsplit := signed.readSign_append (c :: rest) (by
          rintro b ⟨⟩
          constructor <;> rintro rfl <;> revert hc <;> decide)
        simp only [readFloat?, hsplit, readWord?_eq_some_iff.mpr named]
    | @decimal sign mantissa exponent _ _ _ _ signed digits scaled =>
        have hsplit := signed.readSign_append (mantissa ++ exponent) (by
          intro c hc
          constructor <;> rintro rfl <;> exact absurd (digits.head exponent _ hc) (by decide))
        simp only [readFloat?, hsplit, digits.readWord?_append]
        exact Option.map_eq_some_iff.mpr ⟨_, readUnsigned?_eq_some_iff.mpr
          ⟨_, _, _, _, _, rfl, digits, scaled, rfl⟩, rfl⟩

theorem Literal.unique {text : List Char} {x y : Float} (hx : Literal text x)
    (hy : Literal text y) : x = y :=
  Option.some.inj ((readFloat?_eq_some_iff.mpr hx).symm.trans (readFloat?_eq_some_iff.mpr hy))

/-! ### Literals are words -/

theorem Sign.not_isBlank {sign : List Char} {negative : Bool} (h : Sign sign negative) :
    ∀ c ∈ sign, isBlank c = false := by
  cases h with
  | absent => nofun
  | plus => exact List.forall_mem_singleton.mpr (by decide)
  | minus => exact List.forall_mem_singleton.mpr (by decide)

theorem Special.isWord {word : List Char} {x : Float} (h : Special word x) : IsWord word := by
  obtain ⟨c, rest, hword, -⟩ := h.exists_head
  refine ⟨by rw [hword]; exact List.cons_ne_nil c rest, fun b hb => ?_⟩
  have hletters : ∀ b ∈ word.map Char.toLower, isBlank b = false := by
    rcases h with (spelled | spelled) | spelled <;> rw [spelled] <;>
      simp [isBlank, Text.inRanges]
  by_contra hblank
  rw [Bool.not_eq_false] at hblank
  have hclean := hletters _ (List.mem_map_of_mem hb)
  rw [toLower_of_isBlank hblank, hblank] at hclean
  cases hclean

theorem Mantissa.isWord {mantissa whole fraction : List Char}
    (h : Mantissa mantissa whole fraction) : IsWord mantissa := by
  cases h with
  | bare digits => exact digits.isWord
  | pointed digits =>
      obtain ⟨hwhole, hfraction⟩ := List.forall_mem_append.mp digits.isWord.2
      exact ⟨by simp, List.forall_mem_append.mpr
        ⟨hwhole, List.forall_mem_cons.mpr ⟨by decide, hfraction⟩⟩⟩

theorem Exponent.not_isBlank {exponent : List Char} {e : Int} (h : Exponent exponent e) :
    ∀ c ∈ exponent, isBlank c = false := by
  cases h with
  | absent => nofun
  | marked letter signed digits =>
      refine List.forall_mem_cons.mpr
        ⟨?_, List.forall_mem_append.mpr ⟨signed.not_isBlank, digits.isWord.2⟩⟩
      rcases letter with rfl | rfl <;> decide

theorem Literal.isWord {text : List Char} {x : Float} (h : Literal text x) : IsWord text := by
  cases h with
  | special signed named => exact named.isWord.prepend signed.not_isBlank
  | decimal signed digits scaled =>
      exact (digits.isWord.append scaled.not_isBlank).prepend signed.not_isBlank

end SensorBar.Decimal
