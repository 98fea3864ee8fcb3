/-
ResilientMesh/PyNumber.lean

The two ways Python reads a number from text, `int(s)` and `float(s)`, as far
as exact arithmetic goes: `pyInt` gives the integer, `pyFloat` the decimal
value (or infinity, or not-a-number) that is then rounded to a double.

Both first bring Unicode digits and spaces to ASCII, strip the space around
the literal, and drop underscores, each of which must stand between two
digits.  `none` is `ValueError`, which `int` also raises on a text of more than
4300 digits, as `str` does on such an integer.

Main result, `pyFloat_eq_of_pyInt`: a text that both readings accept has the
same value under both, also after its `+` signs have been turned into spaces.

Nothing in this file knows the services.
-/
import ResilientMesh.QueryString

namespace ResilientMesh

/-! ### Digits and spaces -/

/-- The zeros of Unicode's runs of ten decimal digits. -/
def decimalZeros : List ℕ :=
  [0x30, 0x660, 0x6f0, 0x7c0, 0x966, 0x9e6, 0xa66, 0xae6, 0xb66, 0xbe6, 0xc66, 0xce6, 0xd66,
   0xde6, 0xe50, 0xed0, 0xf20, 0x1040, 0x1090, 0x17e0, 0x1810, 0x1946, 0x19d0, 0x1a80, 0x1a90,
   0x1b50, 0x1bb0, 0x1c40, 0x1c50, 0xa620, 0xa8d0, 0xa900, 0xa9d0, 0xa9f0, 0xaa50, 0xabf0,
   0xff10, 0x104a0, 0x10d30, 0x11066, 0x110f0, 0x11136, 0x111d0, 0x112f0, 0x11450, 0x114d0,
   0x11650, 0x116c0, 0x11730, 0x118e0, 0x11950, 0x11c50, 0x11d50, 0x11da0, 0x16a60, 0x16ac0,
   0x16b50, 0x1d7ce, 0x1d7d8, 0x1d7e2, 0x1d7ec, 0x1d7f6, 0x1e140, 0x1e2f0, 0x1e950, 0x1fbf0]

/-- The value of a decimal digit of any script. -/
def decimal? (c : Char) : Option ℕ :=
  (decimalZeros.find? fun z => z ≤ c.toNat && c.toNat < z + 10).map (c.toNat - ·)

/-- The white space beyond ASCII. -/
def unicodeSpaces : List ℕ :=
  [0x85, 0xa0, 0x1680, 0x2000, 0x2001, 0x2002, 0x2003, 0x2004, 0x2005, 0x2006, 0x2007, 0x2008,
   0x2009, 0x200a, 0x2028, 0x2029, 0x202f, 0x205f, 0x3000]

/-- A digit or space of any script as its ASCII counterpart; `?` for what is
neither and can be part of no number. -/
def toAscii (c : Char) : Char :=
  if c.toNat < 0x7F then c
  else if c.toNat ∈ unicodeSpaces then ' '
  else match decimal? c with
    | some d => Nat.digitChar d
    | none => '?'

/-- The space that is stripped around a literal. -/
def isPySpace (c : Char) : Bool := c ∈ [' ', '\t', '\n', '\x0b', '\x0c', '\r']

/-- A text without the space at its two ends. -/
def strip (s : List Char) : List Char := (s.dropWhile isPySpace).rdropWhile isPySpace

/-- Every underscore stands between two digits; `prev` is the character before. -/
def underscoresOk (prev : Char) : List Char → Bool
  | [] => prev != '_'
  | c :: rest =>
    (if c = '_' then prev.isDigit else prev != '_' || c.isDigit) && underscoresOk c rest

/-! ### Literals -/

/-- One or more digits. -/
def natLit (s : List Char) : Option ℕ :=
  if s ≠ [] ∧ s.all Char.isDigit then some (Nat.ofDigitChars 10 s 0) else none

/-- Split off a sign: is it a minus, and what follows. -/
def signOf : List Char → Bool × List Char
  | [] => (false, [])
  | c :: rest =>
    if c = '-' then (true, rest) else if c = '+' then (false, rest) else (false, c :: rest)

/-- A sign and digits. -/
def intLit (s : List Char) : Option ℤ :=
  (natLit (signOf s).2).map fun n : ℕ => if (signOf s).1 then -(n : ℤ) else (n : ℤ)

/-- What `float` reads, before it is rounded. -/
inductive FloatText
  | nan
  | inf (neg : Bool)
  | dec (q : ℚ)
  deriving DecidableEq

/-- The exponent part of a decimal literal; absent, it is zero. -/
def exponentLit : List Char → Option ℤ
  | [] => some 0
  | c :: rest => if c = 'e' ∨ c = 'E' then intLit rest else none

/-- The digits after a decimal point, and what follows them. -/
def fractionLit : List Char → List Char × List Char
  | [] => ([], [])
  | c :: rest =>
    if c = '.' then (rest.takeWhile Char.isDigit, rest.dropWhile Char.isDigit) else ([], c :: rest)

/-- An unsigned decimal literal. -/
def decimalLit (s : List Char) : Option ℚ :=
  let whole := s.takeWhile Char.isDigit
  let frac := fractionLit (s.dropWhile Char.isDigit)
  if whole ++ frac.1 = [] then none
  else (exponentLit frac.2).map fun e : ℤ =>
    (Nat.ofDigitChars 10 (whole ++ frac.1) 0 : ℚ) * 10 ^ (e - (frac.1.length : ℤ))

/-- A magnitude under its sign. -/
def signed (neg : Bool) (q : ℚ) : ℚ := if neg then -q else q

/-- A floating-point literal. -/
def floatLit (s : List Char) : Option FloatText :=
  let neg := (signOf s).1
  let body := (signOf s).2
  let low := body.map Char.toLower
  if low = ['i', 'n', 'f'] ∨ low = ['i', 'n', 'f', 'i', 'n', 'i', 't', 'y'] then some (.inf neg)
  else if low = ['n', 'a', 'n'] then some .nan
  else (decimalLit body).map fun q => .dec (signed neg q)

/-- What both readings do to a text before they look for a literal. -/
def numberText (s : List Char) : Option (List Char) :=
  let t := strip (s.map toAscii)
  if underscoresOk ' ' t then some (t.filter (· ≠ '_')) else none

/-- The digits that an integer may have where it is converted from text or to
text. -/
def maxStrDigits : ℕ := 4300

/-- An integer that can be written. -/
def FitsDigits (n : ℤ) : Prop := n.natAbs < 10 ^ maxStrDigits

instance (n : ℤ) : Decidable (FitsDigits n) := Nat.decLt _ _

/-- The integer that a text shows, however long it is. -/
def intValue (s : List Char) : Option ℤ := (numberText s).bind intLit

/-- How many digits a text has. -/
def digitCount (s : List Char) : ℕ := s.countP fun c => (toAscii c).isDigit

/-- `int(s)`. -/
def pyInt (s : List Char) : Option ℤ := if digitCount s ≤ maxStrDigits then intValue s else none

/-- `float(s)`, unrounded. -/
def pyFloat (s : List Char) : Option FloatText := (numberText s).bind floatLit

/-- Whether the double that the text rounds to is below one.  The last double
below one is `1 - 2⁻⁵³`, and half way between the two the even one is taken,
which is one. -/
def FloatText.ltOne : FloatText → Bool
  | nan => false
  | inf neg => neg
  | dec q => q < 1 - 1 / 2 ^ 54

/-! ### Stripping -/

theorem rdropWhile_append_of_forall {α : Type*} {p : α → Bool} {w : List α}
    (h : ∀ c ∈ w, p c = true) (u : List α) : (u ++ w).rdropWhile p = u.rdropWhile p := by
  rw [List.rdropWhile, List.reverse_append, List.dropWhile_append_of_pos (by simpa using h),
    ← List.rdropWhile]

/-- Space around a text does not change what is left of it. -/
theorem strip_pad {w₁ w₂ : List Char} (h₁ : ∀ c ∈ w₁, isPySpace c = true)
    (h₂ : ∀ c ∈ w₂, isPySpace c = true) (y : List Char) : strip (w₁ ++ y ++ w₂) = strip y := by
  unfold strip
  rw [List.append_assoc, List.dropWhile_append_of_pos h₁, List.dropWhile_append]
  split_ifs with hy
  · have hw : w₂.dropWhile isPySpace = [] := List.dropWhile_eq_nil_iff.mpr h₂
    rw [hw, List.isEmpty_iff.mp hy]
  · exact rdropWhile_append_of_forall h₂ _

/-- A text is what is left of it with space around. -/
theorem exists_strip (r : List Char) : ∃ w₁ w₂, r = w₁ ++ strip r ++ w₂ ∧
    (∀ c ∈ w₁, isPySpace c = true) ∧ ∀ c ∈ w₂, isPySpace c = true := by
  refine ⟨r.takeWhile isPySpace, (r.dropWhile isPySpace).rtakeWhile isPySpace, ?_,
    fun c => List.mem_takeWhile_imp, fun c => List.mem_rtakeWhile_imp⟩
  rw [List.append_assoc, strip, List.rdropWhile_append_rtakeWhile,
    List.takeWhile_append_dropWhile]

theorem strip_eq_self {t : List Char} (h : ∀ c ∈ t, isPySpace c = false) : strip t = t := by
  have hdrop : t.dropWhile isPySpace = t := by
    cases t with
    | nil => rfl
    | cons c t => rw [List.dropWhile_cons, h c (by simp), if_neg Bool.false_ne_true]
  rw [strip, hdrop, List.rdropWhile_eq_self_iff]
  intro hne
  rw [h _ (List.getLast_mem hne)]
  exact Bool.false_ne_true

theorem mem_strip {r : List Char} {c : Char} (hc : c ∈ r) (hs : isPySpace c = false) :
    c ∈ strip r := by
  obtain ⟨w₁, w₂, hr, h₁, h₂⟩ := exists_strip r
  rw [hr] at hc
  rcases List.mem_append.mp hc with hc | hc
  · rcases List.mem_append.mp hc with hc | hc
    · exact absurd (h₁ c hc) (by simp [hs])
    · exact hc
  · exact absurd (h₂ c hc) (by simp [hs])

/-! ### Literals, read back -/

theorem natLit_eq_some {s : List Char} {n : ℕ} :
    natLit s = some n ↔
      s ≠ [] ∧ (∀ c ∈ s, c.isDigit = true) ∧ Nat.ofDigitChars 10 s 0 = n := by
  simp [natLit, and_assoc]

theorem isDigit_not {c : Char} (h : c.isDigit = true) :
    c ≠ '-' ∧ c ≠ '+' ∧ c ≠ '_' ∧ isPySpace c = false ∧ toAscii c = c := by
  have hlt : c.toNat < 0x3A := by
    simp only [Char.isDigit, Bool.and_eq_true, decide_eq_true_eq, UInt32.le_iff_toNat_le] at h
    exact Nat.lt_succ_of_le h.2
  have key : ∀ n < 0x3A, (Char.ofNat n).isDigit = true →
      Char.ofNat n ≠ '-' ∧ Char.ofNat n ≠ '+' ∧ Char.ofNat n ≠ '_' ∧
        isPySpace (Char.ofNat n) = false := by decide
  have hc := key c.toNat hlt
  rw [Char.ofNat_toNat] at hc
  obtain ⟨hminus, hplus, hunder, hspace⟩ := hc h
  exact ⟨hminus, hplus, hunder, hspace, by rw [toAscii, if_pos (by omega)]⟩

theorem signOf_digits {s : List Char} (h : ∀ c ∈ s, c.isDigit = true) : signOf s = (false, s) := by
  cases s with
  | nil => rfl
  | cons c s =>
    have hc := isDigit_not (h c (by simp))
    simp [signOf, hc.1, hc.2.1]

theorem intLit_digits {s : List Char} {n : ℕ} (h : natLit s = some n) :
    intLit s = some (n : ℤ) := by
  have hs := signOf_digits (natLit_eq_some.mp h).2.1
  simp [intLit, hs, h]

theorem underscoresOk_digits {prev : Char} {s : List Char} (hprev : prev ≠ '_')
    (h : ∀ c ∈ s, c.isDigit = true) : underscoresOk prev s = true := by
  induction s generalizing prev with
  | nil => simpa [underscoresOk] using hprev
  | cons c s ih =>
    have hc := isDigit_not (h c (by simp))
    simp [underscoresOk, hc.2.2.1, hprev, ih hc.2.2.1 fun c' hc' => h c' (by simp [hc'])]

/-- Digits are read as they stand. -/
theorem intValue_natLit {s : List Char} {n : ℕ} (h : natLit s = some n) :
    intValue s = some (n : ℤ) := by
  have hd := (natLit_eq_some.mp h).2.1
  have hascii : s.map toAscii = s :=
    (List.map_congr_left fun c hc => (isDigit_not (hd c hc)).2.2.2.2).trans (List.map_id' s)
  have hfilter : s.filter (· ≠ '_') = s :=
    List.filter_eq_self.mpr fun c hc => by simpa using (isDigit_not (hd c hc)).2.2.1
  have htext : numberText s = some s := by
    rw [numberText, hascii, strip_eq_self fun c hc => (isDigit_not (hd c hc)).2.2.2.1]
    rw [if_pos (underscoresOk_digits (by decide) hd), hfilter]
  rw [intValue, htext, Option.bind_some, intLit_digits h]

/-! ### The limit on digits -/

theorem pyInt_eq_some_iff {s : List Char} {a : ℤ} :
    pyInt s = some a ↔ digitCount s ≤ maxStrDigits ∧ intValue s = some a := by
  rw [pyInt]
  split_ifs with h
  · rw [and_iff_right h]
  · exact iff_of_false id fun hboth => h hboth.1

theorem intValue_toDigits (n : ℕ) : intValue (Nat.toDigits 10 n) = some (n : ℤ) :=
  intValue_natLit (natLit_eq_some.mpr ⟨Nat.toDigits_ne_nil,
    fun _ hc => Nat.isDigit_of_mem_toDigits (by decide) (by decide) hc,
    Nat.ofDigitChars_ten_toDigits⟩)

/-- A number written in decimal is read back, if it can be written. -/
theorem pyInt_toDigits {n : ℕ} (h : FitsDigits n) : pyInt (Nat.toDigits 10 n) = some (n : ℤ) := by
  refine pyInt_eq_some_iff.mpr ⟨?_, ?_⟩
  · exact List.countP_le_length.trans
      ((Nat.length_toDigits_le_iff (by decide) (by decide)).mpr h)
  · exact intValue_toDigits n

/-- A number that cannot be written cannot be read either. -/
theorem pyInt_toDigits_none {n : ℕ} (h : ¬FitsDigits n) : pyInt (Nat.toDigits 10 n) = none := by
  have hcount : digitCount (Nat.toDigits 10 n) = (Nat.toDigits 10 n).length := by
    refine List.countP_eq_length.mpr fun c hc => ?_
    have hdigit := Nat.isDigit_of_mem_toDigits (by decide) (by decide) hc
    rw [(isDigit_not hdigit).2.2.2.2]
    exact hdigit
  refine if_neg ?_
  rw [hcount, Nat.length_toDigits_le_iff (by decide) (by decide)]
  exact h

theorem fitsDigits_zero : FitsDigits 0 := Nat.pow_pos (by decide)

theorem fitsDigits_le {a b : ℤ} (h : FitsDigits b) (ha : 0 ≤ a) (hle : a ≤ b) : FitsDigits a := by
  have hnat : a.natAbs ≤ b.natAbs := by omega
  exact lt_of_le_of_lt hnat h

theorem ofDigitChars_lt {s : List Char} (h : ∀ c ∈ s, c.isDigit = true) (init : ℕ) :
    Nat.ofDigitChars 10 s init < (init + 1) * 10 ^ s.length := by
  induction s generalizing init with
  | nil =>
    rw [Nat.ofDigitChars_nil, List.length_nil, pow_zero, mul_one]
    exact Nat.lt_succ_self init
  | cons c s ih =>
    obtain ⟨hc, hs⟩ := List.forall_mem_cons.mp h
    have hdigit : c.toNat - '0'.toNat ≤ 9 := by
      simp only [Char.isDigit, Bool.and_eq_true, decide_eq_true_eq, UInt32.le_iff_toNat_le] at hc
      exact Nat.sub_le_iff_le_add.mpr hc.2
    rw [Nat.ofDigitChars_cons, List.length_cons, pow_succ]
    calc Nat.ofDigitChars 10 s (10 * init + (c.toNat - '0'.toNat))
        < (10 * init + (c.toNat - '0'.toNat) + 1) * 10 ^ s.length := ih hs _
      _ ≤ (init + 1) * 10 * 10 ^ s.length := Nat.mul_le_mul_right _ (by omega)
      _ = (init + 1) * (10 ^ s.length * 10) := by ring

theorem strip_sublist (s : List Char) : (strip s).Sublist s :=
  (List.rdropWhile_prefix _ _).sublist.trans (List.dropWhile_sublist _)

theorem signOf_sublist (s : List Char) : (signOf s).2.Sublist s := by
  cases s with
  | nil => exact List.Sublist.refl _
  | cons c s =>
    rw [signOf]
    split_ifs
    · exact List.sublist_cons_self c s
    · exact List.sublist_cons_self c s
    · exact List.Sublist.refl _

/-- **What is read can be written.** -/
theorem fitsDigits_of_pyInt {s : List Char} {a : ℤ} (h : pyInt s = some a) : FitsDigits a := by
  obtain ⟨hcount, hvalue⟩ := pyInt_eq_some_iff.mp h
  obtain ⟨t, ht, hlit⟩ := Option.bind_eq_some_iff.mp hvalue
  obtain ⟨n, hn, hsign⟩ := Option.map_eq_some_iff.mp hlit
  obtain ⟨-, hdigits, rfl⟩ := natLit_eq_some.mp hn
  -- the digits of the literal are some of those of the text
  have hsub : (signOf t).2.Sublist (s.map toAscii) := by
    rw [numberText] at ht
    split_ifs at ht
    obtain rfl := Option.some.inj ht
    exact (signOf_sublist _).trans (List.filter_sublist.trans (strip_sublist _))
  have hlen : (signOf t).2.length ≤ maxStrDigits := by
    have hle := hsub.countP_le (p := Char.isDigit)
    rw [List.countP_eq_length.mpr hdigits, List.countP_map] at hle
    exact hle.trans hcount
  have hlt := ofDigitChars_lt hdigits 0
  rw [zero_add, one_mul] at hlt
  have hnat : a.natAbs = Nat.ofDigitChars 10 (signOf t).2 0 := by
    rw [← hsign]
    split_ifs <;> simp
  rw [FitsDigits, hnat]
  exact lt_of_lt_of_le hlt (Nat.pow_le_pow_right (by decide) hlen)

/-! ### What the literals are made of -/

/-- A character that is a digit or a sign. -/
def isIntChar (c : Char) : Bool := c.isDigit || c == '+' || c == '-'

/-- A character of a floating-point literal. -/
def isFloatChar (c : Char) : Bool := isIntChar c || c.isAlpha || c == '.'

theorem mem_of_mem_signOf {s : List Char} {c : Char} (h : c ∈ s) :
    c = '-' ∨ c = '+' ∨ c ∈ (signOf s).2 := by
  cases s with
  | nil => simp at h
  | cons d s =>
    rw [signOf]
    split_ifs with h₁ h₂
    · exact (List.mem_cons.mp h).imp (fun e => e.trans h₁) .inr
    · exact .inr ((List.mem_cons.mp h).imp (fun e => e.trans h₂) id)
    · exact .inr (.inr h)

theorem intLit_chars {s : List Char} {a : ℤ} (h : intLit s = some a) :
    ∀ c ∈ s, isIntChar c = true := by
  intro c hc
  obtain ⟨n, hn, -⟩ := Option.map_eq_some_iff.mp h
  rcases mem_of_mem_signOf hc with rfl | rfl | hc
  · rfl
  · rfl
  · simp [isIntChar, (natLit_eq_some.mp hn).2.1 c hc]

theorem exponentLit_chars {s : List Char} {e : ℤ} (h : exponentLit s = some e) :
    ∀ c ∈ s, isFloatChar c = true := by
  cases s with
  | nil => simp
  | cons d s =>
    rw [exponentLit] at h
    split_ifs at h with he
    intro c hc
    rcases List.mem_cons.mp hc with rfl | hc
    · rcases he with rfl | rfl <;> rfl
    · simp [isFloatChar, intLit_chars h c hc]

theorem decimalLit_chars {s : List Char} {q : ℚ} (h : decimalLit s = some q) :
    ∀ c ∈ s, isFloatChar c = true := by
  have hdigit : ∀ {t : List Char} {c : Char}, c ∈ t.takeWhile Char.isDigit →
      isFloatChar c = true := fun hc => by
    simp [isFloatChar, isIntChar, List.mem_takeWhile_imp hc]
  unfold decimalLit at h
  dsimp only at h
  split_ifs at h with hne
  obtain ⟨e, he, -⟩ := Option.map_eq_some_iff.mp h
  have hexp := exponentLit_chars he
  -- a character stands in the whole part, in the fraction or in the exponent
  intro c hc
  rw [← @List.takeWhile_append_dropWhile _ Char.isDigit s] at hc
  rcases List.mem_append.mp hc with hc | hc
  · exact hdigit hc
  · cases hrest : s.dropWhile Char.isDigit with
    | nil => simp [hrest] at hc
    | cons d rest =>
      rw [hrest] at hc hexp
      rw [fractionLit] at hexp
      split_ifs at hexp with hd
      · rcases List.mem_cons.mp hc with rfl | hc
        · subst hd
          rfl
        · rw [← @List.takeWhile_append_dropWhile _ Char.isDigit rest] at hc
          exact (List.mem_append.mp hc).elim hdigit (hexp c)
      · exact hexp c hc

theorem isAlpha_of_toLower {c : Char} (h : c.toLower ∈ ['i', 'n', 'f', 'a', 't', 'y']) :
    c.isAlpha = true := by
  rw [Char.toLower] at h
  split_ifs at h with hup
  · have hupper : c.isUpper = true := by
      simpa [Char.isUpper] using hup
    simp [Char.isAlpha, hupper]
  · simp only [List.mem_cons, List.not_mem_nil, or_false] at h
    rcases h with rfl | rfl | rfl | rfl | rfl | rfl <;> rfl

/-- A special value is spelled in letters. -/
theorem special_chars {s name : List Char} (hname : ∀ c ∈ name, c ∈ ['i', 'n', 'f', 'a', 't', 'y'])
    (h : s.map Char.toLower = name) : ∀ c ∈ s, c.isAlpha = true := by
  intro c hc
  exact isAlpha_of_toLower (hname _ (h ▸ List.mem_map_of_mem hc))

theorem floatLit_chars {s : List Char} {f : FloatText} (h : floatLit s = some f) :
    ∀ c ∈ s, isFloatChar c = true := by
  intro c hc
  rcases mem_of_mem_signOf hc with rfl | rfl | hc
  · rfl
  · rfl
  · unfold floatLit at h
    dsimp only at h
    split_ifs at h with hinf hnan
    · have hc' : c.isAlpha = true := by
        rcases hinf with hinf | hinf
        · exact special_chars (by simp) hinf c hc
        · exact special_chars (by simp) hinf c hc
      simp [isFloatChar, hc']
    · simp [isFloatChar, special_chars (by simp) hnan c hc]
    · obtain ⟨q, hq, -⟩ := Option.map_eq_some_iff.mp h
      exact decimalLit_chars hq c hc

/-- A decimal literal with neither point nor exponent is a run of digits. -/
theorem decimalLit_whole {s : List Char} {q : ℚ} (h : decimalLit s = some q) :
    (∃ c ∈ s, (c.isAlpha || c == '.') = true) ∨ ∃ n : ℕ, natLit s = some n ∧ q = n := by
  unfold decimalLit at h
  dsimp only at h
  split_ifs at h with hne
  cases hrest : s.dropWhile Char.isDigit with
  | cons d rest =>
    -- what stops the digits is a point or the letter of an exponent
    have hd : d ∈ s := (List.dropWhile_sublist _).mem (hrest ▸ List.mem_cons_self)
    rw [hrest] at h
    left
    refine ⟨d, hd, ?_⟩
    rw [fractionLit] at h
    split_ifs at h with hdot
    · simp [hdot]
    · obtain ⟨e, he, -⟩ := Option.map_eq_some_iff.mp h
      rw [exponentLit] at he
      split_ifs at he with hexp
      rcases hexp with rfl | rfl <;> rfl
  | nil =>
    -- nothing stops them: the fraction is empty and the exponent 0
    right
    have hall : s.takeWhile Char.isDigit = s := by
      have happ := @List.takeWhile_append_dropWhile _ Char.isDigit s
      rwa [hrest, List.append_nil] at happ
    rw [hrest, hall] at h hne
    simp only [fractionLit, List.append_nil, exponentLit, Option.map_some, List.length_nil,
      Option.some.injEq] at h hne
    refine ⟨Nat.ofDigitChars 10 s 0, natLit_eq_some.mpr ⟨hne, ?_, rfl⟩, ?_⟩
    · intro c hc
      rw [← hall] at hc
      exact List.mem_takeWhile_imp hc
    · rw [← h]
      simp

/-- A floating-point literal with neither letter nor point is an integer
literal, of the same value. -/
theorem floatLit_whole {s : List Char} {f : FloatText} (h : floatLit s = some f) :
    (∃ c ∈ s, (c.isAlpha || c == '.') = true) ∨
      ∃ a : ℤ, intLit s = some a ∧ f = .dec a := by
  have hsub : ∀ {c}, c ∈ (signOf s).2 → c ∈ s := by
    intro c hc
    cases s with
    | nil => simp [signOf] at hc
    | cons d s =>
      rw [signOf] at hc
      split_ifs at hc
      · exact List.mem_cons_of_mem _ hc
      · exact List.mem_cons_of_mem _ hc
      · exact hc
  have hletter : ∀ {name : List Char}, (∀ c ∈ name, c ∈ ['i', 'n', 'f', 'a', 't', 'y']) →
      name ≠ [] → (signOf s).2.map Char.toLower = name →
      ∃ c ∈ s, (c.isAlpha || c == '.') = true := by
    intro name hname hne heq
    have hbody : (signOf s).2 ≠ [] := by
      intro hnil
      exact hne (by rw [← heq, hnil, List.map_nil])
    obtain ⟨c, hc⟩ := List.exists_mem_of_ne_nil _ hbody
    exact ⟨c, hsub hc, by simp [special_chars hname heq c hc]⟩
  unfold floatLit at h
  dsimp only at h
  split_ifs at h with hinf hnan
  · rcases hinf with hinf | hinf
    · exact .inl (hletter (by simp) (by simp) hinf)
    · exact .inl (hletter (by simp) (by simp) hinf)
  · exact .inl (hletter (by simp) (by simp) hnan)
  · obtain ⟨q, hq, rfl⟩ := Option.map_eq_some_iff.mp h
    rcases decimalLit_whole hq with ⟨c, hc, hchar⟩ | ⟨n, hn, rfl⟩
    · exact .inl ⟨c, hsub hc, hchar⟩
    · refine .inr ⟨_, by rw [intLit, hn, Option.map_some], ?_⟩
      cases (signOf s).1 <;> simp [signed]

/-! ### Reading a text whose `+` signs have become spaces -/

theorem toAscii_eq_plus {c : Char} (h : toAscii c = '+') : c = '+' := by
  unfold toAscii at h
  split_ifs at h with hlt hsp
  · exact h
  · exact absurd h (by decide)
  · cases hd : decimal? c with
    | none => simp [hd] at h
    | some d =>
      obtain ⟨z, hz, rfl⟩ := Option.map_eq_some_iff.mp hd
      have hrange := List.find?_some hz
      simp only [Bool.and_eq_true, decide_eq_true_eq] at hrange
      have hdigit : (Nat.digitChar (c.toNat - z)).isDigit = true :=
        Nat.isDigit_of_mem_toDigits (by decide : 0 < 10) (by decide)
          (by rw [Nat.toDigits_of_lt_base (by omega : c.toNat - z < 10)]; simp)
      rw [hd] at h
      exact absurd h (isDigit_not hdigit).2.1

theorem map_toAscii_plusToSpace (s : List Char) :
    (s.map plusToSpace).map toAscii = (s.map toAscii).map plusToSpace := by
  simp only [List.map_map]
  refine List.map_congr_left fun c _ => ?_
  by_cases hc : c = '+'
  · subst hc
    rfl
  · have hne : toAscii c ≠ '+' := fun h => hc (toAscii_eq_plus h)
    simp [plusToSpace, hc, hne]

theorem map_plusToSpace_eq_self {t : List Char} (h : '+' ∉ t) : t.map plusToSpace = t := by
  refine (List.map_congr_left fun c hc => ?_).trans (List.map_id' t)
  have hne : c ≠ '+' := fun e => h (e ▸ hc)
  simp [plusToSpace, hne]

/-- Stripping sees through the change, since space stays space. -/
theorem strip_map_plusToSpace (r : List Char) :
    strip (r.map plusToSpace) = strip ((strip r).map plusToSpace) := by
  obtain ⟨w₁, w₂, hr, h₁, h₂⟩ := exists_strip r
  have hpad : ∀ {w : List Char}, (∀ c ∈ w, isPySpace c = true) → w.map plusToSpace = w := by
    intro w hw
    refine map_plusToSpace_eq_self fun hplus => ?_
    exact absurd (hw _ hplus) (by decide)
  conv_lhs => rw [hr]
  rw [List.map_append, List.map_append, hpad h₁, hpad h₂, strip_pad h₁ h₂]

/-- An integer literal with its underscores: a digit or sign, then digits and
underscores. -/
theorem mem_numberText {t : List Char} {a : ℤ} (h : intLit (t.filter (· ≠ '_')) = some a) :
    ∀ c ∈ t, c = '_' ∨ isIntChar c = true := by
  intro c hc
  by_cases hu : c = '_'
  · exact .inl hu
  · exact .inr (intLit_chars h c (List.mem_filter.mpr ⟨hc, by simpa using hu⟩))

theorem isIntChar_not_space {c : Char} (h : c = '_' ∨ isIntChar c = true) :
    isPySpace c = false := by
  simp only [isIntChar, Bool.or_eq_true, beq_iff_eq] at h
  rcases h with rfl | (h | rfl) | rfl
  · rfl
  · exact (isDigit_not h).2.2.2.1
  · rfl
  · rfl

/-- A plus can only be the sign of an integer literal. -/
theorem intLit_plus {x : List Char} {a : ℤ} (h : intLit x = some a) (hplus : '+' ∈ x) :
    ∃ y n, x = '+' :: y ∧ natLit y = some n ∧ a = (n : ℤ) := by
  have hdigit : ∀ {y : List Char} {n : ℕ}, natLit y = some n → '+' ∉ y := by
    intro y n hn hmem
    exact absurd ((natLit_eq_some.mp hn).2.1 _ hmem) (by decide)
  cases x with
  | nil => simp at hplus
  | cons c rest =>
    obtain ⟨n, hn, rfl⟩ := Option.map_eq_some_iff.mp h
    by_cases h₁ : c = '-'
    · subst h₁
      exact absurd ((List.mem_cons.mp hplus).resolve_left (by decide)) (hdigit hn)
    · by_cases h₂ : c = '+'
      · subst h₂
        exact ⟨rest, n, rfl, hn, rfl⟩
      · rw [signOf, if_neg h₁, if_neg h₂] at hn
        exact absurd hplus (hdigit hn)

theorem underscoresOk_congr {p q : Char} (hp : p.isDigit = q.isDigit)
    (hu : (p != '_') = (q != '_')) (t : List Char) : underscoresOk p t = underscoresOk q t := by
  cases t <;> simp [underscoresOk, hp, hu]

/-- An integer is read the same once its `+` has become a space. -/
theorem intValue_plusToSpace {s : List Char} {a : ℤ} (h : intValue s = some a) :
    intValue (s.map plusToSpace) = some a := by
  unfold intValue numberText at h ⊢
  rw [map_toAscii_plusToSpace, strip_map_plusToSpace]
  generalize strip (s.map toAscii) = t at h ⊢
  dsimp only at h ⊢
  by_cases hok : underscoresOk ' ' t = true
  swap
  · rw [if_neg hok] at h
    cases h
  rw [if_pos hok, Option.bind_some] at h
  have hchars := mem_numberText h
  by_cases hplus : '+' ∈ t
  · -- the plus is the sign: it is stripped away
    have hmem : '+' ∈ t.filter (· ≠ '_') := List.mem_filter.mpr ⟨hplus, by simp⟩
    obtain ⟨y, n, hy, hn, rfl⟩ := intLit_plus h hmem
    obtain ⟨c, t', rfl⟩ := List.exists_cons_of_ne_nil (List.ne_nil_of_mem hplus)
    have hcu : c ≠ '_' := by
      rintro rfl
      simp [underscoresOk] at hok
    rw [List.filter_cons_of_pos (by simpa using hcu)] at hy
    obtain ⟨rfl, rfl⟩ := List.cons.inj hy
    have hrest : ∀ d ∈ t', d ≠ '+' ∧ isPySpace d = false := by
      intro d hd
      refine ⟨?_, isIntChar_not_space (hchars d (List.mem_cons_of_mem _ hd))⟩
      rintro rfl
      exact absurd ((natLit_eq_some.mp hn).2.1 _ (List.mem_filter.mpr ⟨hd, by simp⟩)) (by decide)
    have hmap : t'.map plusToSpace = t' := map_plusToSpace_eq_self fun hd => (hrest _ hd).1 rfl
    have hstrip : strip (' ' :: t') = t' := by
      have hpad := @strip_pad [' '] [] (by simp [isPySpace]) (by simp) t'
      rw [List.append_nil, List.singleton_append] at hpad
      rw [hpad, strip_eq_self fun d hd => (hrest d hd).2]
    have hok' : underscoresOk ' ' t' = true := by
      rw [underscoresOk, Bool.and_eq_true] at hok
      exact (@underscoresOk_congr ' ' '+' rfl rfl t').trans hok.2
    rw [List.map_cons, hmap, show plusToSpace '+' = ' ' from rfl, hstrip, if_pos hok',
      Option.bind_some, intLit_digits hn]
  · rw [map_plusToSpace_eq_self hplus, strip_eq_self fun c hc => isIntChar_not_space (hchars c hc),
      if_pos hok, Option.bind_some, h]

/-- A text that `float` accepts has no reserved character of a query in it. -/
theorem pyFloat_chars {s : List Char} {f : FloatText} (h : pyFloat s = some f) :
    ∀ c ∈ s, c ≠ '&' ∧ c ≠ '#' ∧ c ≠ '%' ∧ c ≠ '=' := by
  obtain ⟨x, hx, hf⟩ := Option.bind_eq_some_iff.mp h
  -- what is neither changed nor dropped on the way stands in the literal
  have key : ∀ c ∈ s, toAscii c = c → isPySpace c = false → c ≠ '_' → isFloatChar c = true := by
    intro c hc hascii hspace hu
    have hmem : c ∈ strip (s.map toAscii) :=
      mem_strip (List.mem_map.mpr ⟨c, hc, hascii⟩) hspace
    rw [numberText] at hx
    split_ifs at hx
    obtain rfl := Option.some.inj hx
    exact floatLit_chars hf c (List.mem_filter.mpr ⟨hmem, by simpa using hu⟩)
  intro c hc
  refine ⟨?_, ?_, ?_, ?_⟩ <;>
  · rintro rfl
    exact absurd (key _ hc rfl rfl (by decide)) (by decide)

theorem isAlpha_not {c : Char} (h : (c.isAlpha || c == '.') = true) :
    isPySpace c = false ∧ c ≠ '_' ∧ c ≠ '+' ∧ isIntChar c = false ∧ toAscii c = c := by
  have hlt : c.toNat < 0x7F := by
    simp only [Char.isAlpha, Char.isUpper, Char.isLower, Bool.or_eq_true, Bool.and_eq_true,
      decide_eq_true_eq, UInt32.le_iff_toNat_le, beq_iff_eq] at h
    rcases h with (h | h) | rfl
    · exact lt_of_le_of_lt h.2 (by decide)
    · exact lt_of_le_of_lt h.2 (by decide)
    · decide
  have key : ∀ n < 0x7F, ((Char.ofNat n).isAlpha || Char.ofNat n == '.') = true →
      isPySpace (Char.ofNat n) = false ∧ Char.ofNat n ≠ '_' ∧ Char.ofNat n ≠ '+' ∧
        isIntChar (Char.ofNat n) = false := by decide
  have hc := key c.toNat hlt
  rw [Char.ofNat_toNat] at hc
  obtain ⟨hspace, hunder, hplus, hint⟩ := hc h
  exact ⟨hspace, hunder, hplus, hint, by rw [toAscii, if_pos hlt]⟩

/-- A letter or a point is still there for `int` to refuse. -/
theorem pyInt_ne_some {s : List Char} {c : Char} (hc : c ∈ s.map toAscii)
    (hchar : (c.isAlpha || c == '.') = true) {a : ℤ} : pyInt (s.map plusToSpace) ≠ some a := by
  intro hread
  have ha := (pyInt_eq_some_iff.mp hread).2
  obtain ⟨hspace, hunder, hplus, hnot, -⟩ := isAlpha_not hchar
  obtain ⟨y, hy, hint⟩ := Option.bind_eq_some_iff.mp ha
  rw [numberText] at hy
  split_ifs at hy
  obtain rfl := Option.some.inj hy
  have hmem : c ∈ strip ((s.map plusToSpace).map toAscii) := by
    rw [map_toAscii_plusToSpace]
    exact mem_strip (List.mem_map.mpr ⟨c, hc, by simp [plusToSpace, hplus]⟩) hspace
  have hdig := intLit_chars hint c (List.mem_filter.mpr ⟨hmem, by simpa using hunder⟩)
  rw [hnot] at hdig
  cases hdig

theorem mem_of_mem_strip {r : List Char} {c : Char} (h : c ∈ strip r) : c ∈ r := by
  obtain ⟨w₁, w₂, hr, -, -⟩ := exists_strip r
  rw [hr]
  simp [h]

/-- **The two readings agree.**  A text that `float` accepts, and that `int`
accepts once its `+` has become a space, is the same number to both. -/
theorem pyFloat_eq_of_pyInt {s : List Char} {f : FloatText} {a : ℤ} (hf : pyFloat s = some f)
    (ha : pyInt (s.map plusToSpace) = some a) : f = .dec a := by
  obtain ⟨x, hx, hlit⟩ := Option.bind_eq_some_iff.mp hf
  rcases floatLit_whole hlit with ⟨c, hc, hchar⟩ | ⟨b, hb, rfl⟩
  · -- a letter or a point would still be there for `int`
    exfalso
    rw [numberText] at hx
    split_ifs at hx
    obtain rfl := Option.some.inj hx
    exact pyInt_ne_some (mem_of_mem_strip (List.mem_filter.mp hc).1) hchar ha
  · -- an integer literal, which the changed `+` does not touch
    have hint : intValue s = some b := Option.bind_eq_some_iff.mpr ⟨x, hx, hb⟩
    have hsame := intValue_plusToSpace hint
    rw [(pyInt_eq_some_iff.mp ha).2] at hsame
    rw [Option.some.inj hsame]

end ResilientMesh
