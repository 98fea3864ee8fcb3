/-
ResilientMesh/Json.lean

JSON texts: a reader, and the grammar of what it reads.  The grammar leaves
the white space and the escapes open, so it has the compact and the indented
texts of a writer alike.

Integers are of any length here; a Python whose `int` has a limit on digits
neither reads nor writes the longer ones.

Main result: every text of a value is read as that value (`loads_text`).

Nothing in this file knows the services.
-/
import ResilientMesh.PyNumber

namespace ResilientMesh

/-- A JSON value.  A number with a fraction or an exponent, and the three
special numbers, are kept as they are written. -/
inductive Json
  | null
  | bool (b : Bool)
  | int (n : ℤ)
  | float (literal : List Char)
  | str (s : List Char)
  | array (items : List Json)
  | object (members : List (List Char × Json))

namespace Json

/-! ### The reader -/

def isSpace (c : Char) : Bool := c ∈ [' ', '\t', '\n', '\r']

def skip (s : List Char) : List Char := s.dropWhile isSpace

/-- The character that an escape of two characters stands for. -/
def escapeChar (c : Char) : Option Char :=
  [('"', '"'), ('\\', '\\'), ('/', '/'), ('b', '\x08'), ('f', '\x0c'), ('n', '\n'), ('r', '\r'),
    ('t', '\t')].lookup c

def hex4 (a b c d : Char) : Option ℕ :=
  match hexOctet a b, hexOctet c d with
  | some high, some low => some (256 * high + low)
  | _, _ => none

def isHigh (n : ℕ) : Bool := 0xD800 ≤ n && n < 0xDC00

def isLow (n : ℕ) : Bool := 0xDC00 ≤ n && n < 0xE000

/-- The character of a surrogate pair. -/
def pairChar (high low : ℕ) : Char :=
  Char.ofNat (0x10000 + (high - 0xD800) * 0x400 + (low - 0xDC00))

/-- What is read, with one more character before it. -/
def prepend (c : Char) (read : Option (List Char × List Char)) : Option (List Char × List Char) :=
  read.map fun r => (c :: r.1, r.2)

/-- The text of a string after its opening quote, and what follows it. -/
def readString : List Char → Option (List Char × List Char)
  | [] => none
  | c :: rest =>
    if c = '"' then some ([], rest)
    else if c = '\\' then
      match rest with
      | [] => none
      | e :: rest =>
        if e = 'u' then
          match rest with
          | a₁ :: a₂ :: a₃ :: a₄ :: rest =>
            match hex4 a₁ a₂ a₃ a₄ with
            | none => none
            | some n =>
              if isHigh n then
                match rest with
                | back :: u :: b₁ :: b₂ :: b₃ :: b₄ :: rest =>
                  if back = '\\' ∧ u = 'u' then
                    match hex4 b₁ b₂ b₃ b₄ with
                    | none => none
                    | some m => if isLow m then prepend (pairChar n m) (readString rest) else none
                  -- half a pair is no character
                  else none
                | _ => none
              else if isLow n then none
              else prepend (Char.ofNat n) (readString rest)
          | _ => none
        else
          match escapeChar e with
          | none => none
          | some c => prepend c (readString rest)
    else if c.toNat < 0x20 then none
    else prepend c (readString rest)

/-- The digits before the point: a zero, or digits that do not begin with one. -/
def readWhole : List Char → Option (List Char × List Char)
  | [] => none
  | c :: rest =>
    if c = '0' then some ([c], rest)
    else if c.isDigit then some (c :: rest.takeWhile Char.isDigit, rest.dropWhile Char.isDigit)
    else none

/-- A point and digits, if they are there. -/
def readFraction : List Char → List Char × List Char
  | [] => ([], [])
  | c :: rest =>
    if c = '.' ∧ rest.takeWhile Char.isDigit ≠ [] then
      (c :: rest.takeWhile Char.isDigit, rest.dropWhile Char.isDigit)
    else ([], c :: rest)

/-- The sign of an exponent. -/
def readSign : List Char → List Char × List Char
  | [] => ([], [])
  | c :: rest => if c = '+' ∨ c = '-' then ([c], rest) else ([], c :: rest)

/-- An exponent, if it is there. -/
def readExponent : List Char → List Char × List Char
  | [] => ([], [])
  | c :: rest =>
    let sign := readSign rest
    if (c = 'e' ∨ c = 'E') ∧ sign.2.takeWhile Char.isDigit ≠ [] then
      (c :: sign.1 ++ sign.2.takeWhile Char.isDigit, sign.2.dropWhile Char.isDigit)
    else ([], c :: rest)

def minus (neg : Bool) : List Char := if neg then ['-'] else []

/-- The number that is written in these parts. -/
def numberOf (neg : Bool) (whole fraction exponent : List Char) : Json :=
  if fraction = [] ∧ exponent = [] then
    let n : ℤ := Nat.ofDigitChars 10 whole 0
    .int (if neg then -n else n)
  else .float (minus neg ++ whole ++ fraction ++ exponent)

/-- A number without its sign. -/
def readMagnitude (neg : Bool) (s : List Char) : Option (Json × List Char) :=
  match readWhole s with
  | none => none
  | some (whole, rest) =>
    let fraction := readFraction rest
    let exponent := readExponent fraction.2
    some (numberOf neg whole fraction.1 exponent.1, exponent.2)

def readNumber : List Char → Option (Json × List Char)
  | [] => none
  | c :: rest => if c = '-' then readMagnitude true rest else readMagnitude false (c :: rest)

/-- The values that are written as a word. -/
def words : List (List Char × Json) :=
  [("null".toList, .null), ("true".toList, .bool true), ("false".toList, .bool false),
    ("NaN".toList, .float "NaN".toList), ("Infinity".toList, .float "Infinity".toList),
    ("-Infinity".toList, .float "-Infinity".toList)]

def readWord (s : List Char) : Option (Json × List Char) :=
  words.findSome? fun word =>
    if word.1.isPrefixOf s then some (word.2, s.drop word.1.length) else none

/-- A number or a word. -/
def readScalar (s : List Char) : Option (Json × List Char) :=
  match readNumber s with
  | some r => some r
  | none => readWord s

mutual

/-- A value at the beginning of a text, and what follows it; the first argument
bounds the recursion. -/
def readValue : ℕ → List Char → Option (Json × List Char)
  | 0, _ => none
  | _ + 1, [] => none
  | fuel + 1, c :: rest =>
    if c = '"' then (readString rest).map fun r => (.str r.1, r.2)
    else if c = '{' then
      match skip rest with
      | [] => none
      | c :: rest =>
        if c = '}' then some (.object [], rest)
        else (readMembers fuel (c :: rest)).map fun r => (.object r.1, r.2)
    else if c = '[' then
      match skip rest with
      | [] => none
      | c :: rest =>
        if c = ']' then some (.array [], rest)
        else (readItems fuel (c :: rest)).map fun r => (.array r.1, r.2)
    else readScalar (c :: rest)

/-- The members of an object up to its brace. -/
def readMembers : ℕ → List Char → Option (List (List Char × Json) × List Char)
  | 0, _ => none
  | _ + 1, [] => none
  | fuel + 1, quote :: rest =>
    if quote ≠ '"' then none
    else
      match readString rest with
      | none => none
      | some (key, rest) =>
        match skip rest with
        | [] => none
        | colon :: rest =>
          if colon ≠ ':' then none
          else
            match readValue fuel (skip rest) with
            | none => none
            | some (value, rest) =>
              match skip rest with
              | [] => none
              | c :: rest =>
                if c = ',' then
                  (readMembers fuel (skip rest)).map fun r => ((key, value) :: r.1, r.2)
                else if c = '}' then some ([(key, value)], rest)
                else none

/-- The items of an array up to its bracket. -/
def readItems : ℕ → List Char → Option (List Json × List Char)
  | 0, _ => none
  | fuel + 1, s =>
    match readValue fuel s with
    | none => none
    | some (value, rest) =>
      match skip rest with
      | [] => none
      | c :: rest =>
        if c = ',' then (readItems fuel (skip rest)).map fun r => (value :: r.1, r.2)
        else if c = ']' then some ([value], rest)
        else none

end

/-- `json.loads`: a value, and white space around it. -/
def loads (s : List Char) : Option Json :=
  match readValue (2 * s.length) (skip s) with
  | some (value, rest) => if skip rest = [] then some value else none
  | none => none

/-! ### The grammar -/

/-- White space. -/
def Blank (w : List Char) : Prop := ∀ c ∈ w, isSpace c = true

/-- `StringText s t`: between its quotes, `s` may be written as `t`. -/
inductive StringText : List Char → List Char → Prop
  | nil : StringText [] []
  | plain {s t : List Char} {c : Char} : c ≠ '"' → c ≠ '\\' → 0x20 ≤ c.toNat → StringText s t →
      StringText (c :: s) (c :: t)
  | escape {s t : List Char} {c e : Char} : e ≠ 'u' → escapeChar e = some c → StringText s t →
      StringText (c :: s) ('\\' :: e :: t)
  | unicode {s t : List Char} {a b c d : Char} {n : ℕ} : hex4 a b c d = some n →
      isHigh n = false → isLow n = false → StringText s t →
      StringText (Char.ofNat n :: s) ('\\' :: 'u' :: a :: b :: c :: d :: t)
  | pair {s t : List Char} {a₁ a₂ a₃ a₄ b₁ b₂ b₃ b₄ : Char} {n m : ℕ} :
      hex4 a₁ a₂ a₃ a₄ = some n → hex4 b₁ b₂ b₃ b₄ = some m → isHigh n → isLow m → StringText s t →
      StringText (pairChar n m :: s)
        ('\\' :: 'u' :: a₁ :: a₂ :: a₃ :: a₄ :: '\\' :: 'u' :: b₁ :: b₂ :: b₃ :: b₄ :: t)

def AllDigits (s : List Char) : Prop := ∀ c ∈ s, c.isDigit = true

inductive WholeText : List Char → Prop
  | zero : WholeText ['0']
  | digits {c : Char} {s : List Char} : c ≠ '0' → c.isDigit → AllDigits s → WholeText (c :: s)

inductive FractionText : List Char → Prop
  | none : FractionText []
  | digits {s : List Char} : s ≠ [] → AllDigits s → FractionText ('.' :: s)

inductive SignText : List Char → Prop
  | none : SignText []
  | sign {c : Char} : c = '+' ∨ c = '-' → SignText [c]

inductive ExponentText : List Char → Prop
  | none : ExponentText []
  | digits {c : Char} {sign s : List Char} : c = 'e' ∨ c = 'E' → SignText sign → s ≠ [] →
      AllDigits s → ExponentText (c :: sign ++ s)

/-- What a text is the text of. -/
inductive Part
  | value (v : Json)
  | members (ms : List (List Char × Json))
  | items (l : List Json)

/-- `JsonText part t`: the value, or the members or items inside the brackets of
one, may be written as `t`. -/
inductive JsonText : Part → List Char → Prop
  | number (neg : Bool) {w f e : List Char} : WholeText w → FractionText f → ExponentText e →
      JsonText (.value (numberOf neg w f e)) (minus neg ++ w ++ f ++ e)
  | word {v : Json} {t : List Char} : (t, v) ∈ words → JsonText (.value v) t
  | str {s t : List Char} : StringText s t → JsonText (.value (.str s)) ('"' :: t ++ ['"'])
  | emptyObject {w : List Char} : Blank w → JsonText (.value (.object [])) ('{' :: w ++ ['}'])
  | object {w t : List Char} {ms : List (List Char × Json)} : Blank w → JsonText (.members ms) t →
      JsonText (.value (.object ms)) ('{' :: w ++ t ++ ['}'])
  | lastMember {k tk w₁ w₂ w₃ t : List Char} {v : Json} : StringText k tk → Blank w₁ → Blank w₂ →
      Blank w₃ → JsonText (.value v) t →
      JsonText (.members [(k, v)]) ('"' :: tk ++ '"' :: w₁ ++ ':' :: w₂ ++ t ++ w₃)
  | member {k tk w₁ w₂ w₃ w₄ t t' : List Char} {v : Json} {ms : List (List Char × Json)} :
      StringText k tk → Blank w₁ → Blank w₂ → Blank w₃ → Blank w₄ → JsonText (.value v) t →
      JsonText (.members ms) t' →
      JsonText (.members ((k, v) :: ms))
        ('"' :: tk ++ '"' :: w₁ ++ ':' :: w₂ ++ t ++ w₃ ++ ',' :: w₄ ++ t')
  | emptyArray {w : List Char} : Blank w → JsonText (.value (.array [])) ('[' :: w ++ [']'])
  | array {w t : List Char} {l : List Json} : Blank w → JsonText (.items l) t →
      JsonText (.value (.array l)) ('[' :: w ++ t ++ [']'])
  | lastItem {w t : List Char} {v : Json} : Blank w → JsonText (.value v) t →
      JsonText (.items [v]) (t ++ w)
  | item {w w' t t' : List Char} {v : Json} {l : List Json} : Blank w → Blank w' →
      JsonText (.value v) t → JsonText (.items l) t' →
      JsonText (.items (v :: l)) (t ++ w ++ ',' :: w' ++ t')

/-! ### Pieces, read back -/

theorem skip_blank {w : List Char} (h : Blank w) (s : List Char) : skip (w ++ s) = skip s := by
  induction w with
  | nil => rfl
  | cons c w ih =>
    show (c :: (w ++ s)).dropWhile isSpace = skip s
    rw [List.dropWhile_cons_of_pos (h c (by simp))]
    exact ih fun c' hc' => h c' (List.mem_cons_of_mem _ hc')

theorem skip_cons {c : Char} (h : isSpace c = false) (s : List Char) : skip (c :: s) = c :: s := by
  show (c :: s).dropWhile isSpace = c :: s
  rw [List.dropWhile_cons_of_neg]
  rw [h]
  exact Bool.false_ne_true

theorem readString_cons (c : Char) (rest : List Char) (h : c ≠ '\\') :
    readString (c :: rest) = if c = '"' then some ([], rest)
      else if c.toNat < 0x20 then none else prepend c (readString rest) := by
  rw [readString.eq_def]
  dsimp only
  rw [if_neg h]

/-- White space is not part of a number. -/
theorem isSpace_not {c : Char} (h : isSpace c) :
    ¬ c.isDigit = true ∧ c ≠ '.' ∧ c ≠ 'e' ∧ c ≠ 'E' := by
  have hmem : c ∈ [' ', '\t', '\n', '\r'] := of_decide_eq_true h
  simp only [List.mem_cons, List.not_mem_nil, or_false] at hmem
  rcases hmem with rfl | rfl | rfl | rfl <;> decide

/-- A string is read up to its closing quote. -/
theorem readString_text {s t : List Char} (h : StringText s t) (r : List Char) :
    readString (t ++ '"' :: r) = some (s, r) := by
  induction h with
  | nil =>
    show readString ('"' :: r) = _
    rw [readString_cons _ _ (by decide), if_pos rfl]
  | @plain s t c hquote hback hcontrol _ ih =>
    show readString (c :: (t ++ '"' :: r)) = _
    rw [readString_cons _ _ hback, if_neg hquote, if_neg (not_lt.mpr hcontrol), ih]
    rfl
  | @escape s t c e hu hescape _ ih =>
    show readString ('\\' :: e :: (t ++ '"' :: r)) = _
    rw [readString.eq_def]
    dsimp only
    rw [if_neg (by decide), if_pos rfl, if_neg hu, hescape]
    dsimp only
    rw [ih]
    rfl
  | @unicode s t a b c d n hn hhigh hlow _ ih =>
    show readString ('\\' :: 'u' :: a :: b :: c :: d :: (t ++ '"' :: r)) = _
    rw [readString.eq_def]
    dsimp only
    rw [if_neg (by decide), if_pos rfl, if_pos rfl, hn]
    dsimp only
    rw [hhigh, if_neg Bool.false_ne_true, hlow, if_neg Bool.false_ne_true, ih]
    rfl
  | @pair s t a₁ a₂ a₃ a₄ b₁ b₂ b₃ b₄ n m hn hm hhigh hlow _ ih =>
    show readString ('\\' :: 'u' :: a₁ :: a₂ :: a₃ :: a₄ :: '\\' :: 'u' :: b₁ :: b₂ :: b₃ :: b₄ ::
      (t ++ '"' :: r)) = _
    rw [readString.eq_def]
    dsimp only
    rw [if_neg (by decide), if_pos rfl, if_pos rfl, hn]
    dsimp only
    rw [if_pos hhigh, if_pos ⟨rfl, rfl⟩, hm]
    dsimp only
    rw [if_pos hlow, ih]
    rfl

/-- A text that no number goes on with. -/
def Ends (r : List Char) : Prop :=
  ∀ c ∈ r.head?, c.isDigit = false ∧ c ≠ '.' ∧ c ≠ 'e' ∧ c ≠ 'E'

theorem takeWhile_digits {s r : List Char} (hs : AllDigits s)
    (hr : ∀ c ∈ r.head?, c.isDigit = false) :
    (s ++ r).takeWhile Char.isDigit = s ∧ (s ++ r).dropWhile Char.isDigit = r := by
  induction s with
  | nil =>
    cases r with
    | nil => exact ⟨rfl, rfl⟩
    | cons c r =>
      have hc : ¬ c.isDigit = true := by
        rw [hr c rfl]
        exact Bool.false_ne_true
      exact ⟨List.takeWhile_cons_of_neg hc, List.dropWhile_cons_of_neg hc⟩
  | cons c s ih =>
    have hc : c.isDigit = true := hs c (by simp)
    obtain ⟨htake, hdrop⟩ := ih fun c' hc' => hs c' (List.mem_cons_of_mem _ hc')
    refine ⟨?_, ?_⟩
    · show (c :: (s ++ r)).takeWhile Char.isDigit = c :: s
      rw [List.takeWhile_cons_of_pos hc, htake]
    · show (c :: (s ++ r)).dropWhile Char.isDigit = r
      rw [List.dropWhile_cons_of_pos hc, hdrop]

/-- Digits, unless a zero is all there is. -/
theorem readWhole_text {w r : List Char} (h : WholeText w) (hr : ∀ c ∈ r.head?, c.isDigit = false) :
    readWhole (w ++ r) = some (w, r) := by
  cases h with
  | zero => rfl
  | @digits c s hzero hdigit hs =>
    obtain ⟨htake, hdrop⟩ := takeWhile_digits hs hr
    show readWhole (c :: (s ++ r)) = _
    rw [readWhole, if_neg hzero, if_pos hdigit, htake, hdrop]

theorem readFraction_text {f r : List Char} (h : FractionText f)
    (hr : ∀ c ∈ r.head?, c.isDigit = false ∧ c ≠ '.') : readFraction (f ++ r) = (f, r) := by
  cases h with
  | none =>
    cases r with
    | nil => rfl
    | cons c r => exact if_neg fun h => (hr c rfl).2 h.1
  | @digits s hne hs =>
    obtain ⟨htake, hdrop⟩ := takeWhile_digits hs fun c hc => (hr c hc).1
    show readFraction ('.' :: (s ++ r)) = _
    rw [readFraction, htake, hdrop, if_pos ⟨rfl, hne⟩]

theorem readSign_text {g r : List Char} (h : SignText g) (hr : ∀ c ∈ r.head?, c.isDigit = true) :
    readSign (g ++ r) = (g, r) := by
  cases h with
  | none =>
    cases r with
    | nil => rfl
    | cons c r =>
      have hc := isDigit_not (hr c rfl)
      exact if_neg fun h => h.elim hc.2.1 hc.1
  | sign hc => exact if_pos hc

theorem readExponent_text {e r : List Char} (h : ExponentText e) (hr : Ends r) :
    readExponent (e ++ r) = (e, r) := by
  cases h with
  | none =>
    cases r with
    | nil => rfl
    | cons c r => exact if_neg fun h => h.1.elim (hr c rfl).2.2.1 (hr c rfl).2.2.2
  | @digits c g s hc hg hne hs =>
    obtain ⟨htake, hdrop⟩ := takeWhile_digits hs fun c hc => (hr c hc).1
    have hsign : readSign (g ++ (s ++ r)) = (g, s ++ r) := by
      apply readSign_text hg
      intro d hd
      obtain ⟨d', s, rfl⟩ := List.exists_cons_of_ne_nil hne
      obtain rfl := Option.some.inj hd
      exact hs _ (by simp)
    rw [List.append_assoc]
    show readExponent (c :: (g ++ (s ++ r))) = _
    rw [readExponent, hsign]
    dsimp only
    rw [htake, hdrop, if_pos ⟨hc, hne⟩]

theorem ends_of_exponent {e r : List Char} (h : ExponentText e) (hr : Ends r) :
    ∀ c ∈ (e ++ r).head?, c.isDigit = false ∧ c ≠ '.' := by
  cases h with
  | none => exact fun c hc => ⟨(hr c hc).1, (hr c hc).2.1⟩
  | digits he _ _ _ =>
    intro c hc
    obtain rfl := Option.some.inj hc
    rcases he with rfl | rfl
    · exact ⟨rfl, by decide⟩
    · exact ⟨rfl, by decide⟩

theorem ends_of_fraction {f r : List Char} (h : FractionText f)
    (hr : ∀ c ∈ r.head?, c.isDigit = false ∧ c ≠ '.') :
    ∀ c ∈ (f ++ r).head?, c.isDigit = false := by
  cases h with
  | none => exact fun c hc => (hr c hc).1
  | digits _ _ =>
    intro c hc
    obtain rfl := Option.some.inj hc
    rfl

theorem readMagnitude_text (neg : Bool) {w f e r : List Char} (hw : WholeText w)
    (hf : FractionText f) (he : ExponentText e) (hr : Ends r) :
    readMagnitude neg (w ++ (f ++ (e ++ r))) = some (numberOf neg w f e, r) := by
  have hafter := ends_of_exponent he hr
  rw [readMagnitude, readWhole_text hw (ends_of_fraction hf hafter)]
  dsimp only
  rw [readFraction_text hf hafter, readExponent_text he hr]

theorem readScalar_number (neg : Bool) {w f e r : List Char} (hw : WholeText w)
    (hf : FractionText f) (he : ExponentText e) (hr : Ends r) :
    readScalar (minus neg ++ w ++ f ++ e ++ r) = some (numberOf neg w f e, r) := by
  have hmagnitude := readMagnitude_text neg hw hf he hr
  have hnumber : readNumber (minus neg ++ w ++ f ++ e ++ r) = some (numberOf neg w f e, r) := by
    simp only [List.append_assoc]
    cases neg with
    | true => exact hmagnitude
    | false =>
      -- a digit is no sign
      have hhead : ∃ c s, w ++ (f ++ (e ++ r)) = c :: s ∧ c ≠ '-' := by
        cases hw with
        | zero => exact ⟨'0', _, rfl, by decide⟩
        | digits _ hdigit _ => exact ⟨_, _, rfl, (isDigit_not hdigit).1⟩
      obtain ⟨c, s, hcons, hc⟩ := hhead
      show readNumber (w ++ (f ++ (e ++ r))) = _
      rw [hcons] at hmagnitude ⊢
      rw [readNumber, if_neg hc, hmagnitude]
  rw [readScalar, hnumber]

theorem readScalar_word {t : List Char} {v : Json} (h : (t, v) ∈ words) (r : List Char) :
    readScalar (t ++ r) = some (v, r) := by
  simp only [words, List.mem_cons, Prod.mk.injEq, List.not_mem_nil, or_false] at h
  rcases h with ⟨rfl, rfl⟩ | ⟨rfl, rfl⟩ | ⟨rfl, rfl⟩ | ⟨rfl, rfl⟩ | ⟨rfl, rfl⟩ | ⟨rfl, rfl⟩ <;> rfl

/-! ### Texts, read back -/

/-- No text begins with white space or with a closing bracket. -/
theorem JsonText.head {part : Part} {t : List Char} (h : JsonText part t) :
    ∃ c s, t = c :: s ∧ isSpace c = false ∧ c ≠ '}' ∧ c ≠ ']' := by
  induction h with
  | number neg hw hf he =>
    cases neg with
    | true => exact ⟨'-', _, rfl, by decide⟩
    | false =>
      cases hw with
      | zero => exact ⟨'0', _, rfl, by decide⟩
      | @digits c s _ hdigit _ =>
        refine ⟨c, _, rfl, ?_, ?_, ?_⟩
        · exact Bool.eq_false_iff.mpr fun hspace => (isSpace_not hspace).1 hdigit
        · rintro rfl
          cases hdigit
        · rintro rfl
          cases hdigit
  | word hmem =>
    simp only [words, List.mem_cons, Prod.mk.injEq, List.not_mem_nil, or_false] at hmem
    rcases hmem with ⟨rfl, -⟩ | ⟨rfl, -⟩ | ⟨rfl, -⟩ | ⟨rfl, -⟩ | ⟨rfl, -⟩ | ⟨rfl, -⟩ <;>
      exact ⟨_, _, rfl, by decide⟩
  | str _ => exact ⟨'"', _, rfl, by decide⟩
  | emptyObject _ => exact ⟨'{', _, rfl, by decide⟩
  | object _ _ _ => exact ⟨'{', _, rfl, by decide⟩
  | lastMember _ _ _ _ _ _ => exact ⟨'"', _, rfl, by decide⟩
  | member _ _ _ _ _ _ _ _ _ => exact ⟨'"', _, rfl, by decide⟩
  | emptyArray _ => exact ⟨'[', _, rfl, by decide⟩
  | array _ _ _ => exact ⟨'[', _, rfl, by decide⟩
  | lastItem _ _ ih =>
    obtain ⟨c, s, rfl, hc⟩ := ih
    exact ⟨c, _, rfl, hc⟩
  | item _ _ _ _ ih _ =>
    obtain ⟨c, s, rfl, hc⟩ := ih
    exact ⟨c, _, rfl, hc⟩

theorem JsonText.skip {part : Part} {t : List Char} (h : JsonText part t) (r : List Char) :
    skip (t ++ r) = t ++ r := by
  obtain ⟨c, s, rfl, hc, -⟩ := h.head
  exact skip_cons hc _

theorem Blank.ends {w : List Char} (h : Blank w) {r : List Char} (hr : Ends r) : Ends (w ++ r) := by
  cases w with
  | nil => exact hr
  | cons c w =>
    intro c' hc'
    obtain rfl := Option.some.inj hc'
    obtain ⟨hdigit, hnot⟩ := isSpace_not (h c (by simp))
    exact ⟨Bool.eq_false_iff.mpr hdigit, hnot⟩

/-- What the reader makes of a text, whatever follows it. -/
def ReadsBack (part : Part) (t : List Char) : Prop :=
  match part with
  | .value v => ∀ fuel r, 2 * t.length ≤ fuel → Ends r → readValue fuel (t ++ r) = some (v, r)
  | .members ms => ∀ fuel r, 2 * t.length ≤ fuel →
      readMembers fuel (t ++ '}' :: r) = some (ms, r)
  | .items l => ∀ fuel r, 2 * t.length < fuel → readItems fuel (t ++ ']' :: r) = some (l, r)

theorem ends_cons {c : Char} (h : c ∈ [',', '}', ']']) (r : List Char) : Ends (c :: r) := by
  intro c' hc'
  obtain rfl := Option.some.inj hc'
  simp only [List.mem_cons, List.not_mem_nil, or_false] at h
  rcases h with rfl | rfl | rfl <;> decide

/-- A key, its colon, and what comes of the value after it. -/
theorem readMembers_key {k tk w₁ w₂ w₃ t : List Char} {v : Json} (hk : StringText k tk)
    (hw₁ : Blank w₁) (hw₂ : Blank w₂) (hw₃ : Blank w₃) (htext : JsonText (.value v) t)
    (ih : ReadsBack (.value v) t) (fuel : ℕ) (hfuel : 2 * t.length ≤ fuel) {c : Char}
    (hc : c ∈ [',', '}', ']']) (r : List Char) :
    readMembers (fuel + 1) ('"' :: (tk ++ '"' :: (w₁ ++ ':' :: (w₂ ++ (t ++ (w₃ ++ c :: r))))))
      = if c = ',' then (readMembers fuel (skip r)).map fun r => ((k, v) :: r.1, r.2)
        else if c = '}' then some ([(k, v)], r) else none := by
  have hspace : isSpace c = false := by
    simp only [List.mem_cons, List.not_mem_nil, or_false] at hc
    rcases hc with rfl | rfl | rfl <;> rfl
  rw [readMembers, if_neg (not_not.mpr rfl), readString_text hk]
  dsimp only
  rw [skip_blank hw₁, skip_cons (by rfl)]
  dsimp only
  rw [if_neg (not_not.mpr rfl), skip_blank hw₂, htext.skip,
    ih fuel _ hfuel (hw₃.ends (ends_cons hc r))]
  dsimp only
  rw [skip_blank hw₃, skip_cons hspace]

/-- An item, and what comes of what is after it. -/
theorem readItems_value {w t : List Char} {v : Json} (hw : Blank w) (ih : ReadsBack (.value v) t)
    (fuel : ℕ) (hfuel : 2 * t.length ≤ fuel) {c : Char} (hc : c ∈ [',', '}', ']'])
    (r : List Char) :
    readItems (fuel + 1) (t ++ (w ++ c :: r))
      = if c = ',' then (readItems fuel (skip r)).map fun r => (v :: r.1, r.2)
        else if c = ']' then some ([v], r) else none := by
  have hspace : isSpace c = false := by
    simp only [List.mem_cons, List.not_mem_nil, or_false] at hc
    rcases hc with rfl | rfl | rfl <;> rfl
  rw [readItems, ih fuel _ hfuel (hw.ends (ends_cons hc r))]
  dsimp only
  rw [skip_blank hw, skip_cons hspace]

/-- A value that is neither a string nor in brackets is a number or a word. -/
theorem readsBack_scalar {v : Json} {t : List Char}
    (hhead : ∃ c s, t = c :: s ∧ c ≠ '"' ∧ c ≠ '{' ∧ c ≠ '[')
    (hscalar : ∀ r, Ends r → readScalar (t ++ r) = some (v, r)) : ReadsBack (.value v) t := by
  obtain ⟨c, s, rfl, hquote, hbrace, hbracket⟩ := hhead
  rintro (_ | fuel) r hfuel hr
  · simp at hfuel
  · show readValue (fuel + 1) (c :: (s ++ r)) = _
    rw [readValue, if_neg hquote, if_neg hbrace, if_neg hbracket]
    exact hscalar r hr

/-- A value in brackets is read by what reads its parts. -/
theorem readValue_object (fuel : ℕ) {w s : List Char} (hw : Blank w) {c : Char}
    (hspace : isSpace c = false) :
    readValue (fuel + 1) ('{' :: (w ++ c :: s)) = if c = '}' then some (.object [], s)
      else (readMembers fuel (c :: s)).map fun r => (.object r.1, r.2) := by
  rw [readValue, if_neg (by decide), if_pos rfl, skip_blank hw, skip_cons hspace]

theorem readValue_array (fuel : ℕ) {w s : List Char} (hw : Blank w) {c : Char}
    (hspace : isSpace c = false) :
    readValue (fuel + 1) ('[' :: (w ++ c :: s)) = if c = ']' then some (.array [], s)
      else (readItems fuel (c :: s)).map fun r => (.array r.1, r.2) := by
  rw [readValue, if_neg (by decide), if_neg (by decide), if_pos rfl, skip_blank hw,
    skip_cons hspace]

theorem JsonText.readsBack {part : Part} {t : List Char} (h : JsonText part t) :
    ReadsBack part t := by
  induction h with
  | @number neg w f e hw hf he =>
    refine readsBack_scalar ?_ fun r hr => readScalar_number neg hw hf he hr
    cases neg with
    | true => exact ⟨'-', _, rfl, by decide⟩
    | false =>
      cases hw with
      | zero => exact ⟨'0', _, rfl, by decide⟩
      | @digits c s _ hdigit _ =>
        refine ⟨c, _, rfl, ?_, ?_, ?_⟩ <;>
        · rintro rfl
          cases hdigit
  | word hmem =>
    refine readsBack_scalar ?_ fun r _ => readScalar_word hmem r
    simp only [words, List.mem_cons, Prod.mk.injEq, List.not_mem_nil, or_false] at hmem
    rcases hmem with ⟨rfl, -⟩ | ⟨rfl, -⟩ | ⟨rfl, -⟩ | ⟨rfl, -⟩ | ⟨rfl, -⟩ | ⟨rfl, -⟩ <;>
      exact ⟨_, _, rfl, by decide⟩
  | @str s t hs =>
    rintro (_ | fuel) r hfuel -
    · simp at hfuel
    · show readValue (fuel + 1) ('"' :: (t ++ ['"'] ++ r)) = _
      rw [readValue, if_pos rfl, List.append_assoc]
      show (readString (t ++ '"' :: r)).map _ = _
      rw [readString_text hs]
      rfl
  | @emptyObject w hw =>
    rintro (_ | fuel) r hfuel -
    · simp at hfuel
    · show readValue (fuel + 1) ('{' :: (w ++ ['}'] ++ r)) = _
      rw [List.append_assoc]
      show readValue (fuel + 1) ('{' :: (w ++ '}' :: r)) = _
      rw [readValue_object fuel hw (by rfl), if_pos rfl]
  | @object w t ms hw htext ih =>
    rintro (_ | fuel) r hfuel -
    · simp at hfuel
    · obtain ⟨c, s, rfl, hspace, hbrace, -⟩ := htext.head
      have hread := ih fuel r (by simp at hfuel ⊢; omega)
      show readValue (fuel + 1) ('{' :: (w ++ (c :: s) ++ ['}'] ++ r)) = _
      rw [List.append_assoc, List.append_assoc]
      show readValue (fuel + 1) ('{' :: (w ++ c :: (s ++ '}' :: r))) = _
      rw [readValue_object fuel hw hspace, if_neg hbrace]
      show (readMembers fuel (c :: s ++ '}' :: r)).map _ = _
      rw [hread]
      rfl
  | @lastMember k tk w₁ w₂ w₃ t v hk hw₁ hw₂ hw₃ htext ih =>
    rintro (_ | fuel) r hfuel
    · simp at hfuel
    · have hkey := readMembers_key hk hw₁ hw₂ hw₃ htext ih fuel (by simp at hfuel; omega)
        (c := '}') (by decide) r
      rw [if_neg (by decide), if_pos rfl] at hkey
      simpa using hkey
  | @member k tk w₁ w₂ w₃ w₄ t t' v ms hk hw₁ hw₂ hw₃ hw₄ htext htexts ih ihs =>
    rintro (_ | fuel) r hfuel
    · simp at hfuel
    · have hkey := readMembers_key hk hw₁ hw₂ hw₃ htext ih fuel (by simp at hfuel; omega)
        (c := ',') (by decide) (w₄ ++ (t' ++ '}' :: r))
      rw [if_pos rfl, skip_blank hw₄, htexts.skip, ihs fuel r (by simp at hfuel; omega)] at hkey
      simpa using hkey
  | @emptyArray w hw =>
    rintro (_ | fuel) r hfuel -
    · simp at hfuel
    · show readValue (fuel + 1) ('[' :: (w ++ [']'] ++ r)) = _
      rw [List.append_assoc]
      show readValue (fuel + 1) ('[' :: (w ++ ']' :: r)) = _
      rw [readValue_array fuel hw (by rfl), if_pos rfl]
  | @array w t l hw htext ih =>
    rintro (_ | fuel) r hfuel -
    · simp at hfuel
    · obtain ⟨c, s, rfl, hspace, -, hbracket⟩ := htext.head
      have hread := ih fuel r (by simp at hfuel ⊢; omega)
      show readValue (fuel + 1) ('[' :: (w ++ (c :: s) ++ [']'] ++ r)) = _
      rw [List.append_assoc, List.append_assoc]
      show readValue (fuel + 1) ('[' :: (w ++ c :: (s ++ ']' :: r))) = _
      rw [readValue_array fuel hw hspace, if_neg hbracket]
      show (readItems fuel (c :: s ++ ']' :: r)).map _ = _
      rw [hread]
      rfl
  | @lastItem w t v hw htext ih =>
    rintro (_ | fuel) r hfuel
    · simp at hfuel
    · have hvalue := readItems_value hw ih fuel (by simp at hfuel; omega) (c := ']')
        (by decide) r
      rw [if_neg (by decide), if_pos rfl] at hvalue
      simpa using hvalue
  | @item w w' t t' v l hw hw' htext htexts ih ihs =>
    rintro (_ | fuel) r hfuel
    · simp at hfuel
    · have hvalue := readItems_value hw ih fuel (by simp at hfuel; omega) (c := ',')
        (by decide) (w' ++ (t' ++ ']' :: r))
      rw [if_pos rfl, skip_blank hw', htexts.skip, ihs fuel r (by simp at hfuel; omega)] at hvalue
      simpa using hvalue

/-- **Every text of a value is read as that value.** -/
theorem loads_text {v : Json} {w t w' : List Char} (h : JsonText (.value v) t) (hw : Blank w)
    (hw' : Blank w') : loads (w ++ t ++ w') = some v := by
  have hends : Ends w' := by
    rw [← List.append_nil w']
    exact hw'.ends fun c hc => by cases hc
  rw [loads, List.append_assoc, skip_blank hw, h.skip,
    h.readsBack _ w' (by simp; omega) hends]
  dsimp only
  rw [← List.append_nil w', skip_blank hw', if_pos]
  rfl

/-! ### Texts that writers make -/

/-- An integer is written in decimal. -/
theorem wholeText_toDigits (n : ℕ) : WholeText (Nat.toDigits 10 n) := by
  induction n using Nat.strongRecOn with
  | ind n ih =>
    by_cases hsmall : n < 10
    · rw [Nat.toDigits_of_lt_base hsmall]
      by_cases hzero : n = 0
      · subst hzero
        exact .zero
      · have key : ∀ m < 10, m ≠ 0 → m.digitChar ≠ '0' ∧ m.digitChar.isDigit = true := by decide
        obtain ⟨hne, hdigit⟩ := key n hsmall hzero
        exact .digits hne hdigit fun c hc => by cases hc
    · rw [Nat.toDigits_of_base_le (by decide) (not_lt.mp hsmall)]
      have hlast : (n % 10).digitChar.isDigit = true :=
        (by decide : ∀ m < 10, m.digitChar.isDigit = true) (n % 10) (Nat.mod_lt _ (by decide))
      have hwhole := ih (n / 10) (Nat.div_lt_self (by omega) (by decide))
      have hvalue : Nat.ofDigitChars 10 (Nat.toDigits 10 (n / 10)) 0 = n / 10 :=
        Nat.ofDigitChars_ten_toDigits
      generalize Nat.toDigits 10 (n / 10) = s at hwhole hvalue
      cases hwhole with
      | zero =>
        have : n / 10 = 0 := hvalue.symm
        omega
      | @digits c s hne hdigit hs =>
        refine .digits hne hdigit ?_
        intro c' hc'
        rcases List.mem_append.mp hc' with hc' | hc'
        · exact hs c' hc'
        · rw [List.mem_singleton.mp hc']
          exact hlast

/-- `str(n)` is a text of `n`. -/
theorem jsonText_int (n : ℤ) : JsonText (.value (.int n)) (toString n).toList := by
  have key : ∀ (neg : Bool) (m : ℕ), JsonText (.value (.int (if neg then -(m : ℤ) else m)))
      (minus neg ++ Nat.toDigits 10 m) := by
    intro neg m
    have htext := JsonText.number neg (wholeText_toDigits m) .none .none
    rwa [numberOf, if_pos ⟨rfl, rfl⟩, Nat.ofDigitChars_ten_toDigits, List.append_nil,
      List.append_nil] at htext
  rw [Int.toString_eq_repr, Int.repr_eq_if]
  split_ifs with hsign
  · have htext := key false n.toNat
    rwa [if_neg Bool.false_ne_true, Int.toNat_of_nonneg hsign, ← Nat.toList_repr] at htext
  · have htext := key true (-n).toNat
    rw [if_pos rfl, Int.toNat_of_nonneg (by omega), neg_neg, ← Nat.toList_repr] at htext
    rw [String.toList_append]
    exact htext

/-- A text without quotes, backslashes and control characters stands for
itself. -/
theorem stringText_plain {s : List Char}
    (h : ∀ c ∈ s, c ≠ '"' ∧ c ≠ '\\' ∧ 0x20 ≤ c.toNat) : StringText s s := by
  induction s with
  | nil => exact .nil
  | cons c s ih =>
    obtain ⟨hquote, hback, hcontrol⟩ := h c (by simp)
    exact .plain hquote hback hcontrol (ih fun c' hc' => h c' (List.mem_cons_of_mem _ hc'))

end Json

end ResilientMesh
