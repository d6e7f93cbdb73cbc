import Mathlib.Data.List.Basic
import Mathlib.Data.List.TakeWhile
import Mathlib.Tactic.Common

/-! # Text with separators and numbers

    Lists put one after the other with a separator in front of each, the pieces between the
    separators, and numbers written in decimal.

    The separator marks where a list begins only if the lists do not contain it.  What the
    text determines in general are the pieces (`tagged_eq_iff`), not how they were grouped.
    Reading a number back skips blanks, takes a sign and stops at the first character that is
    no digit: of a text in decimal it reads all (`stoi_of_digits`), of others a part. -/

namespace TpText

section Separators

variable {α : Type} [BEq α] [LawfulBEq α]

/-- The lists one after the other, each behind a separator. -/
def tagged (sep : α) (xs : List (List α)) : List α := xs.flatMap (sep :: ·)

/-- What stands between the separators, within and between the lists. -/
def pieces (sep : α) (xs : List (List α)) : List (List α) := xs.flatMap (List.splitOn sep)

theorem splitOn_tagged (sep : α) (xs : List (List α)) :
    ∀ s : List α, (s ++ tagged sep xs).splitOn sep = s.splitOn sep ++ pieces sep xs := by
  induction xs with
  | nil =>
      intro s
      rw [tagged, pieces, List.flatMap_nil, List.flatMap_nil, List.append_nil, List.append_nil]
  | cons x rest ih =>
      intro s
      have hrest : tagged sep (x :: rest) = sep :: (x ++ tagged sep rest) := rfl
      rw [hrest, List.splitOn_append_cons_self, ih x, pieces, pieces, List.flatMap_cons]

theorem splitOn_injective (sep : α) : Function.Injective (List.splitOn sep) :=
  Function.LeftInverse.injective (fun _ => List.intercalate_splitOn sep)

/-- **What a text with separators determines.**  Behind two headers without separators, the
    texts are equal exactly if the headers and the pieces are. -/
theorem tagged_eq_iff {sep : α} {s t : List α} (hs : sep ∉ s) (ht : sep ∉ t)
    (xs ys : List (List α)) :
    s ++ tagged sep xs = t ++ tagged sep ys ↔ s = t ∧ pieces sep xs = pieces sep ys := by
  rw [← (splitOn_injective sep).eq_iff, splitOn_tagged, splitOn_tagged,
    List.splitOn_eq_singleton hs, List.splitOn_eq_singleton ht, List.singleton_append,
    List.singleton_append, List.cons.injEq]

/-- The same pieces, grouped alike, are the same lists. -/
theorem eq_of_pieces {sep : α} {xs ys : List (List α)} (h : pieces sep xs = pieces sep ys)
    (hcut : xs.map (fun x => (x.splitOn sep).length) = ys.map (fun y => (y.splitOn sep).length)) :
    xs = ys := by
  induction xs generalizing ys with
  | nil => exact (List.map_eq_nil_iff.mp hcut.symm).symm
  | cons x rest ih =>
      cases ys with
      | nil => exact nomatch hcut
      | cons y rest' =>
          obtain ⟨hfirst, hlater⟩ := List.cons.inj hcut
          obtain ⟨hx, hrest⟩ := List.append_inj h hfirst
          rw [splitOn_injective sep hx, ih hrest hlater]

end Separators

-- ── Decimal numbers ──────────────────────────────────────────────────────────

/-- A number as an output stream writes it. -/
def decimal (n : Nat) : List Char := Nat.toDigits 10 n

theorem decimal_injective : Function.Injective decimal := by
  intro m n h
  have hback := congrArg (fun s => Nat.ofDigitChars 10 s 0) h
  simpa only [decimal, Nat.ofDigitChars_ten_toDigits] using hback

theorem isDigit_of_mem_decimal {n : Nat} {c : Char} (h : c ∈ decimal n) : c.isDigit = true :=
  Nat.isDigit_of_mem_toDigits (by decide) (by decide) h

theorem not_mem_decimal {n : Nat} {c : Char} (h : c.isDigit = false) : c ∉ decimal n := by
  intro hmem
  rw [isDigit_of_mem_decimal hmem] at h
  exact nomatch h

/-- A nonempty text of digits only, and the number that it writes. -/
structure Digits (s : List Char) (n : Nat) : Prop where
  ne_nil : s ≠ []
  isDigit : ∀ c ∈ s, c.isDigit = true
  value : Nat.ofDigitChars 10 s 0 = n

theorem digits_decimal (n : Nat) : Digits (decimal n) n where
  ne_nil := Nat.toDigits_ne_nil
  isDigit := fun _ hmem => isDigit_of_mem_decimal hmem
  value := Nat.ofDigitChars_ten_toDigits

-- ── C strings ────────────────────────────────────────────────────────────────

/-- The text that a function which takes a C string sees: what stands before the first
    null character. -/
def cStr (s : List Char) : List Char := s.takeWhile (· != '\x00')

theorem cStr_eq {s : List Char} (h : '\x00' ∉ s) : cStr s = s := by
  refine List.takeWhile_eq_self_iff.mpr ?_
  intro c hc
  exact bne_iff_ne.mpr (fun heq => h (heq ▸ hc))

/-- The first occurrence of a character cuts a text in two. -/
theorem idxOf?_append_cons {s : List Char} {c : Char} (h : c ∉ s) (t : List Char) :
    (s ++ c :: t).idxOf? c = some s.length := by
  induction s with
  | nil =>
      rw [List.nil_append, List.idxOf?_cons, if_pos (beq_self_eq_true c)]
      rfl
  | cons d s ih =>
      obtain ⟨hd, hs⟩ := List.ne_and_not_mem_of_not_mem_cons h
      have hne : ¬(d == c) = true := fun heq => hd (eq_of_beq heq).symm
      rw [List.cons_append, List.idxOf?_cons, if_neg hne, ih hs]
      rfl

/-- There is one first occurrence. -/
theorem cut_unique {s s' t t' : List Char} {c : Char} (hs : c ∉ s) (hs' : c ∉ s')
    (h : s ++ c :: t = s' ++ c :: t') : s = s' := by
  have hlength := idxOf?_append_cons hs t
  rw [h, idxOf?_append_cons hs' t'] at hlength
  exact (List.append_inj h (Option.some.inj hlength).symm).1

/-- How reading a number can fail. -/
inductive ReadError
  | invalidArgument
  | outOfRange
  deriving DecidableEq, Repr

/-- The blanks that a number may be preceded by. -/
def isSpace (c : Char) : Bool :=
  c = ' ' || c = '\t' || c = '\n' || c = '\x0b' || c = '\x0c' || c = '\x0d'

/-- The sign in front of a number, and what follows it. -/
def signOf : List Char → Bool × List Char
  | '-' :: rest => (true, rest)
  | '+' :: rest => (false, rest)
  | rest => (false, rest)

/-- Reading an `int`: blanks, a sign and digits; what follows is not looked at. -/
def stoi (s : List Char) : Except ReadError Int :=
  let (negative, body) := signOf (s.dropWhile isSpace)
  let digits := body.takeWhile Char.isDigit
  if digits = [] then .error .invalidArgument
  else
    let magnitude : Int := Nat.ofDigitChars 10 digits 0
    let value := if negative then -magnitude else magnitude
    if value < -2147483648 ∨ 2147483647 < value then .error .outOfRange else .ok value

theorem not_isSpace_of_isDigit {c : Char} (h : c.isDigit = true) : isSpace c = false := by
  have hne : ∀ d : Char, d.isDigit = false → c ≠ d := by
    intro d hd heq
    rw [heq, hd] at h
    exact nomatch h
  simp only [isSpace, Bool.or_eq_false_iff, decide_eq_false_iff_not]
  exact ⟨⟨⟨⟨⟨hne _ (by decide), hne _ (by decide)⟩, hne _ (by decide)⟩, hne _ (by decide)⟩,
    hne _ (by decide)⟩, hne _ (by decide)⟩

/-- Digits have no sign in front. -/
theorem signOf_of_isDigit {s : List Char} (h : ∀ c ∈ s, c.isDigit = true) :
    signOf s = (false, s) := by
  unfold signOf
  split
  · exact absurd (h '-' List.mem_cons_self) (by decide)
  · exact absurd (h '+' List.mem_cons_self) (by decide)
  · rfl

/-- Of digits all are read. -/
theorem stoi_eq {s : List Char} {n : Nat} (h : Digits s n) :
    stoi s = if 2147483647 < n then .error .outOfRange else .ok (n : Int) := by
  have hblanks : s.dropWhile isSpace = s := by
    refine List.dropWhile_eq_self_iff.mpr ?_
    intro hl
    rw [not_isSpace_of_isDigit (h.isDigit _ (List.getElem_mem hl))]
    exact Bool.false_ne_true
  have hdigits : s.takeWhile Char.isDigit = s := List.takeWhile_eq_self_iff.mpr h.isDigit
  simp only [stoi, hblanks, signOf_of_isDigit h.isDigit, hdigits, if_neg h.ne_nil, h.value,
    Bool.false_eq_true, if_false]
  by_cases hbig : 2147483647 < n
  · rw [if_pos (by omega), if_pos hbig]
  · rw [if_neg (by omega), if_neg hbig]

/-- **Decimal text is read as the number that it writes.** -/
theorem stoi_of_digits {s : List Char} {n : Nat} (h : Digits s n) (hn : n ≤ 2147483647) :
    stoi s = .ok (n : Int) := by
  rw [stoi_eq h, if_neg (Nat.not_lt.mpr hn)]

/-- A text that begins with a number, in its parts: blanks, a sign, digits, and behind them
    anything but another digit. -/
structure NumberText (blanks sign digits rest : List Char) (n : Nat) : Prop where
  blanks : ∀ c ∈ blanks, isSpace c = true
  sign : sign = [] ∨ sign = ['-'] ∨ sign = ['+']
  digits : Digits digits n
  rest : ∀ c ∈ rest.head?, c.isDigit = false

/-- The text of the parts. -/
def numberText (blanks sign digits rest : List Char) : List Char :=
  blanks ++ (sign ++ (digits ++ rest))

theorem numberText_ne_nil {blanks sign digits rest : List Char} {n : Nat}
    (h : NumberText blanks sign digits rest n) : numberText blanks sign digits rest ≠ [] := by
  intro hnil
  rw [numberText, List.append_eq_nil_iff, List.append_eq_nil_iff, List.append_eq_nil_iff] at hnil
  exact h.digits.ne_nil hnil.2.2.1

/-- What a number begins with, behind the blanks, is no blank. -/
theorem NumberText.dropBlanks {blanks sign digits rest : List Char} {n : Nat}
    (h : NumberText blanks sign digits rest n) :
    (numberText blanks sign digits rest).dropWhile isSpace = sign ++ (digits ++ rest) := by
  obtain ⟨d, later, rfl⟩ := List.exists_cons_of_ne_nil h.digits.ne_nil
  rw [numberText, List.dropWhile_append_of_pos h.blanks]
  rcases h.sign with rfl | rfl | rfl
  · refine List.dropWhile_cons_of_neg ?_
    rw [not_isSpace_of_isDigit (h.digits.isDigit d List.mem_cons_self)]
    exact Bool.false_ne_true
  · rfl
  · rfl

/-- The digits are all that is read behind the sign. -/
theorem NumberText.takeDigits {blanks sign digits rest : List Char} {n : Nat}
    (h : NumberText blanks sign digits rest n) :
    (digits ++ rest).takeWhile Char.isDigit = digits := by
  rw [List.takeWhile_append_of_pos h.digits.isDigit]
  cases rest with
  | nil => rw [List.takeWhile_nil, List.append_nil]
  | cons c rest =>
      rw [List.takeWhile_cons_of_neg (by rw [h.rest c rfl]; exact Bool.false_ne_true),
        List.append_nil]

theorem NumberText.signOf {blanks sign digits rest : List Char} {n : Nat}
    (h : NumberText blanks sign digits rest n) :
    TpText.signOf (sign ++ (digits ++ rest)) = (decide (sign = ['-']), digits ++ rest) := by
  obtain ⟨d, later, rfl⟩ := List.exists_cons_of_ne_nil h.digits.ne_nil
  have hdigit := h.digits.isDigit d List.mem_cons_self
  rcases h.sign with rfl | rfl | rfl
  · show TpText.signOf (d :: (later ++ rest)) = (false, d :: (later ++ rest))
    unfold TpText.signOf
    split
    · rename_i heq
      rw [(List.cons.inj heq).1] at hdigit
      exact absurd hdigit (by decide)
    · rename_i heq
      rw [(List.cons.inj heq).1] at hdigit
      exact absurd hdigit (by decide)
    · rfl
  · rfl
  · rfl

/-- **What is read of a text that begins with a number**: the number, if it fits. -/
theorem stoi_number {blanks sign digits rest : List Char} {n : Nat}
    (h : NumberText blanks sign digits rest n) :
    stoi (numberText blanks sign digits rest)
      = if (if sign = ['-'] then 2147483648 < n else 2147483647 < n) then .error .outOfRange
        else .ok (if sign = ['-'] then -(n : Int) else n) := by
  simp only [stoi, h.dropBlanks, h.signOf, h.takeDigits, if_neg h.digits.ne_nil, h.digits.value,
    decide_eq_true_eq]
  by_cases hsign : sign = ['-']
  · simp only [if_pos hsign]
    by_cases hbig : 2147483648 < n
    · rw [if_pos (by omega), if_pos hbig]
    · rw [if_neg (by omega), if_neg hbig]
  · simp only [if_neg hsign]
    by_cases hbig : 2147483647 < n
    · rw [if_pos (by omega), if_pos hbig]
    · rw [if_neg (by omega), if_neg hbig]

end TpText
