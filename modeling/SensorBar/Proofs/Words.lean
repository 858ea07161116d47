import Mathlib.Data.List.TakeWhile
import SensorBar.Text.Blank

/-! # Words and trimmed texts

The words of a text are what stands between its blanks.  Everything about them follows from one
equation: a text can be cut at any blank.  So the words of a text are the only pieces without blanks
that it can be put together from, with blanks between them.  A trimmed text is likewise the only
piece that has no blank at its ends and nothing but blanks around it.
-/

namespace SensorBar.Text

/-- Text that holds nothing but blanks. -/
def AllBlank (cs : List Char) : Prop :=
  ∀ c ∈ cs, isBlank c = true

/-- Text that holds something and no blank. -/
def IsWord (cs : List Char) : Prop :=
  cs ≠ [] ∧ ∀ c ∈ cs, isBlank c = false

/-- Whether a text is some pieces in order, with blanks between them, and with or without blanks at
both ends. -/
def Spaced : List (List Char) → List Char → Prop
  | [], text => AllBlank text
  | piece :: later, text => ∃ gap rest, text = gap ++ (piece ++ rest) ∧ AllBlank gap ∧
      (∀ c ∈ rest.head?, isBlank c = true) ∧ Spaced later rest

/-- Whether `kept` is what is left of a text without the blanks at both of its ends. -/
structure Trims (text kept : List Char) : Prop where
  cut : ∃ before after, text = before ++ (kept ++ after) ∧ AllBlank before ∧ AllBlank after
  first : ∀ c ∈ kept.head?, isBlank c = false
  last : ∀ c ∈ kept.getLast?, isBlank c = false

theorem IsWord.append {xs ys : List Char} (hx : IsWord xs) (hy : ∀ c ∈ ys, isBlank c = false) :
    IsWord (xs ++ ys) :=
  ⟨List.append_ne_nil_of_left_ne_nil hx.1 ys, List.forall_mem_append.mpr ⟨hx.2, hy⟩⟩

theorem IsWord.prepend {xs ys : List Char} (hy : IsWord ys) (hx : ∀ c ∈ xs, isBlank c = false) :
    IsWord (xs ++ ys) :=
  ⟨List.append_ne_nil_of_right_ne_nil xs hy.1, List.forall_mem_append.mpr ⟨hx, hy.2⟩⟩

/-! ## Cutting a text -/

@[simp] theorem words_nil : words [] = [] :=
  rfl

theorem words_append_blank {c : Char} (hc : isBlank c = true) (xs ys : List Char) :
    words (xs ++ c :: ys) = words xs ++ words ys := by
  rw [words, List.splitOnP_append_cons xs ys hc, List.filter_append]
  rfl

theorem words_cons_blank {c : Char} (hc : isBlank c = true) (cs : List Char) :
    words (c :: cs) = words cs :=
  words_append_blank hc [] cs

theorem words_append_of_allBlank {gap : List Char} (hgap : AllBlank gap) (cs : List Char) :
    words (gap ++ cs) = words cs := by
  induction gap with
  | nil => rfl
  | cons c gap ih =>
      obtain ⟨hc, hrest⟩ := List.forall_mem_cons.mp hgap
      rw [List.cons_append, words_cons_blank hc, ih hrest]

theorem words_of_isWord {w : List Char} (hw : IsWord w) : words w = [w] := by
  rw [words, List.splitOnP_eq_singleton hw.2]
  simp [hw.1]

/-- A word ends where a blank follows it. -/
theorem words_append_of_isWord {w rest : List Char} (hw : IsWord w)
    (hrest : ∀ c ∈ rest.head?, isBlank c = true) : words (w ++ rest) = w :: words rest := by
  cases rest with
  | nil => rw [List.append_nil, words_of_isWord hw, words_nil]
  | cons c rest =>
      have hc : isBlank c = true := hrest c rfl
      rw [words_append_blank hc, words_of_isWord hw, words_cons_blank hc, List.singleton_append]

/-! ## The only way to cut it -/

theorem words_of_spaced {ws : List (List Char)} (hwords : ∀ w ∈ ws, IsWord w) {cs : List Char}
    (h : Spaced ws cs) : words cs = ws := by
  induction ws generalizing cs with
  | nil => simpa using words_append_of_allBlank h []
  | cons w ws ih =>
      obtain ⟨gap, rest, rfl, hgap, hends, hrest⟩ := h
      rw [List.forall_mem_cons] at hwords
      rw [words_append_of_allBlank hgap, words_append_of_isWord hwords.1 hends, ih hwords.2 hrest]

/-- A character before a text adds to its gap, adds to its first word, or is a word of its own. -/
theorem exists_spaced (cs : List Char) : ∃ ws, (∀ w ∈ ws, IsWord w) ∧ Spaced ws cs := by
  induction cs with
  | nil => exact ⟨[], nofun, nofun⟩
  | cons c cs ih =>
      obtain ⟨ws, hwords, hspaced⟩ := ih
      cases hc : isBlank c with
      | true =>
          cases ws with
          | nil => exact ⟨[], nofun, List.forall_mem_cons.mpr ⟨hc, hspaced⟩⟩
          | cons w ws =>
              obtain ⟨gap, rest, rfl, hgap, hrest⟩ := hspaced
              exact ⟨w :: ws, hwords, c :: gap, rest, rfl, List.forall_mem_cons.mpr ⟨hc, hgap⟩,
                hrest⟩
      | false =>
          have hword : IsWord [c] := ⟨List.cons_ne_nil c [], by simpa using hc⟩
          have alone {ws} (hws : ∀ w ∈ ws, IsWord w) (hends : ∀ b ∈ cs.head?, isBlank b = true)
              (h : Spaced ws cs) : ∃ ws, (∀ w ∈ ws, IsWord w) ∧ Spaced ws (c :: cs) :=
            ⟨[c] :: ws, List.forall_mem_cons.mpr ⟨hword, hws⟩, [], cs, rfl, nofun, hends, h⟩
          cases ws with
          | nil => exact alone hwords (fun b hb => hspaced b (List.mem_of_mem_head? hb)) hspaced
          | cons w ws =>
              have hsame := hspaced
              obtain ⟨gap, rest, rfl, hgap, hrest⟩ := hspaced
              cases gap with
              | nil =>
                  rw [List.forall_mem_cons] at hwords
                  exact ⟨(c :: w) :: ws,
                    List.forall_mem_cons.mpr ⟨hword.append hwords.1.2, hwords.2⟩,
                    [], rest, rfl, nofun, hrest⟩
              | cons b gap =>
                  refine alone hwords ?_ hsame
                  simpa using hgap b List.mem_cons_self

theorem words_eq_iff {cs : List Char} {ws : List (List Char)} :
    words cs = ws ↔ (∀ w ∈ ws, IsWord w) ∧ Spaced ws cs := by
  refine ⟨?_, fun ⟨hwords, hspaced⟩ => words_of_spaced hwords hspaced⟩
  rintro rfl
  obtain ⟨ws, hwords, hspaced⟩ := exists_spaced cs
  rw [words_of_spaced hwords hspaced]
  exact ⟨hwords, hspaced⟩

/-! ## Trimming -/

theorem allBlank_takeWhile (cs : List Char) : AllBlank (cs.takeWhile isBlank) :=
  List.all_eq_true.mp List.all_takeWhile

theorem isBlank_of_mem_head?_dropWhile (cs : List Char) :
    ∀ c ∈ (cs.dropWhile isBlank).head?, isBlank c = false := by
  intro c hc
  have hhead := List.head?_dropWhile_not isBlank cs
  rw [Option.mem_def.mp hc] at hhead
  exact hhead

theorem dropWhile_append_of_allBlank {gap cs : List Char} (hgap : AllBlank gap)
    (hcs : ∀ c ∈ cs.head?, isBlank c = false) : (gap ++ cs).dropWhile isBlank = cs := by
  rw [List.dropWhile_append_of_pos hgap]
  cases cs with
  | nil => rfl
  | cons c cs => exact List.dropWhile_cons_of_neg (Bool.eq_false_iff.mp (hcs c rfl))

theorem trims_trim (text : List Char) : Trims text (trim text) := by
  obtain ⟨after, hafter, hfront⟩ :
      ∃ after, AllBlank after ∧ text.dropWhile isBlank = trim text ++ after := by
    refine ⟨((text.dropWhile isBlank).reverse.takeWhile isBlank).reverse, fun c hc => ?_, ?_⟩
    · exact allBlank_takeWhile _ c (List.mem_reverse.mp hc)
    · rw [trim, ← List.reverse_append, List.takeWhile_append_dropWhile, List.reverse_reverse]
  refine ⟨⟨text.takeWhile isBlank, after, ?_, allBlank_takeWhile text, hafter⟩, fun c hc => ?_, ?_⟩
  · rw [← hfront, List.takeWhile_append_dropWhile]
  · refine isBlank_of_mem_head?_dropWhile text c ?_
    rw [hfront, List.head?_append, Option.mem_def.mp hc]
    rfl
  · rw [trim, List.getLast?_reverse]
    exact isBlank_of_mem_head?_dropWhile _

theorem Trims.eq {text kept : List Char} (h : Trims text kept) : trim text = kept := by
  obtain ⟨⟨before, after, rfl, hbefore, hafter⟩, first, last⟩ := h
  have hafter' : AllBlank after.reverse := fun c hc => hafter c (List.mem_reverse.mp hc)
  cases kept with
  | nil =>
      have hblank : AllBlank (before ++ after) := List.forall_mem_append.mpr ⟨hbefore, hafter⟩
      have hfront : (before ++ ([] ++ after)).dropWhile isBlank = [] := by
        rw [List.nil_append]
        exact List.dropWhile_eq_nil_iff.mpr hblank
      rw [trim, hfront]
      rfl
  | cons c kept =>
      have hfront : (before ++ (c :: kept ++ after)).dropWhile isBlank = c :: kept ++ after :=
        dropWhile_append_of_allBlank hbefore first
      rw [List.getLast?_eq_head?_reverse] at last
      rw [trim, hfront, List.reverse_append, dropWhile_append_of_allBlank hafter' last,
        List.reverse_reverse]

theorem trim_eq_iff {text kept : List Char} : trim text = kept ↔ Trims text kept :=
  ⟨fun h => h ▸ trims_trim text, Trims.eq⟩

end SensorBar.Text
