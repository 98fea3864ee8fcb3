/-
ResilientMesh/QueryString.lean

URL queries as text: what a client library puts on the wire for a query it is
given as one string, and what a server library reads back from it.

* `sendQuery` drops the fragment that a `#` opens, and percent-encodes every
  character that may not stand in a query.  If every `%` of the query is
  followed by two hexadecimal digits, the query is taken to be encoded already
  and the `%` are kept; otherwise each of them is encoded.
* `parseQuery` splits at `&` and at the first `=`, reads `+` as a space and
  `%XX` as an octet, and decodes the octets as UTF-8; an octet that belongs to
  no character stays an escape.

An escape of an unreserved character may be sent as that character, and the
digits of an escape in upper case; neither is told apart when it is read.

The two are inverse to each other only on text without reserved characters:
`unquotePlus_encodeQuery_false` says what is read back if the `%` are encoded,
and `decode_unquote_eq_iff` which escapes survive if they are kept.

Nothing in this file knows the services.
-/
import Mathlib

namespace ResilientMesh

/-! ### UTF-8 -/

/-- The octets of a character. -/
def utf8 (c : Char) : List ℕ :=
  let n := c.toNat
  if n < 0x80 then [n]
  else if n < 0x800 then [0xC0 + n / 64, 0x80 + n % 64]
  else if n < 0x10000 then [0xE0 + n / 4096, 0x80 + n / 64 % 64, 0x80 + n % 64]
  else [0xF0 + n / 262144, 0x80 + n / 4096 % 64, 0x80 + n / 64 % 64, 0x80 + n % 64]

/-- The code point that the octets of one character name. -/
def codePoint : List ℕ → ℕ
  | [a] => a
  | [a, b] => (a - 0xC0) * 64 + (b - 0x80)
  | [a, b, c] => ((a - 0xE0) * 64 + (b - 0x80)) * 64 + (c - 0x80)
  | [a, b, c, d] => (((a - 0xF0) * 64 + (b - 0x80)) * 64 + (c - 0x80)) * 64 + (d - 0x80)
  | _ => 0

/-- The character that has these octets. -/
def spelled (octets : List ℕ) : Option Char :=
  let c := Char.ofNat (codePoint octets)
  if utf8 c = octets then some c else none

/-- The character that some octets begin with. -/
def firstChar (bs : List ℕ) : Option Char := [1, 2, 3, 4].findSome? fun k => spelled (bs.take k)

/-- How many octets a character has that begins with this one. -/
def lengthFrom (b : ℕ) : ℕ :=
  if b < 0x80 then 1 else if b < 0xE0 then 2 else if b < 0xF0 then 3 else 4

theorem char_cases (c : Char) : c.toNat < 0xD800 ∨ 0xDFFF < c.toNat ∧ c.toNat < 0x110000 :=
  c.valid

/-- The first octet of a character says how many follow, and only those that
follow are between 0x80 and 0xBF. -/
theorem utf8_cons (c : Char) : ∃ b cs, utf8 c = b :: cs ∧ (utf8 c).length = lengthFrom b ∧
    ¬ (0x80 ≤ b ∧ b < 0xC0) ∧ ∀ b' ∈ cs, 0x80 ≤ b' ∧ b' < 0xC0 := by
  have hc := char_cases c
  unfold utf8
  generalize c.toNat = n at hc
  dsimp only
  split_ifs with h₁ h₂ h₃
  · exact ⟨n, [], rfl, by simp [lengthFrom, h₁], by omega, by simp⟩
  · refine ⟨0xC0 + n / 64, _, rfl, ?_, by omega, by simp; omega⟩
    rw [lengthFrom, if_neg (by omega), if_pos (by omega)]
    rfl
  · refine ⟨0xE0 + n / 4096, _, rfl, ?_, by omega, by simp; omega⟩
    rw [lengthFrom, if_neg (by omega), if_neg (by omega), if_pos (by omega)]
    rfl
  · refine ⟨0xF0 + n / 262144, _, rfl, ?_, by omega, by simp; omega⟩
    rw [lengthFrom, if_neg (by omega), if_neg (by omega), if_neg (by omega)]
    rfl

theorem codePoint_utf8 (c : Char) : codePoint (utf8 c) = c.toNat := by
  have hc := char_cases c
  unfold utf8
  generalize c.toNat = n at hc
  dsimp only
  split_ifs with h₁ h₂ h₃
  · rfl
  · show (0xC0 + n / 64 - 0xC0) * 64 + (0x80 + n % 64 - 0x80) = n
    omega
  · show ((0xE0 + n / 4096 - 0xE0) * 64 + (0x80 + n / 64 % 64 - 0x80)) * 64
      + (0x80 + n % 64 - 0x80) = n
    omega
  · show (((0xF0 + n / 262144 - 0xF0) * 64 + (0x80 + n / 4096 % 64 - 0x80)) * 64
      + (0x80 + n / 64 % 64 - 0x80)) * 64 + (0x80 + n % 64 - 0x80) = n
    omega

theorem spelled_eq_some_iff {octets : List ℕ} {c : Char} :
    spelled octets = some c ↔ utf8 c = octets := by
  unfold spelled
  dsimp only
  constructor
  · intro h
    split_ifs at h with hutf
    rw [← Option.some.inj h]
    exact hutf
  · rintro rfl
    rw [codePoint_utf8, Char.ofNat_toNat, if_pos rfl]

/-- No character begins as another one does. -/
theorem eq_of_utf8_prefix {c c' : Char} {bs : List ℕ} (h : utf8 c <+: bs) (h' : utf8 c' <+: bs) :
    c = c' := by
  obtain ⟨b, cs, hutf, hlen, -, -⟩ := utf8_cons c
  obtain ⟨b', cs', hutf', hlen', -, -⟩ := utf8_cons c'
  have hfirst : b = b' := by
    rw [hutf] at h
    rw [hutf'] at h'
    obtain ⟨t, rfl⟩ := h
    obtain ⟨t', ht'⟩ := h'
    exact (List.cons.inj ht').1.symm
  have hle : (utf8 c).length = (utf8 c').length := by rw [hlen, hlen', hfirst]
  have hsame : utf8 c = utf8 c' :=
    (List.prefix_of_prefix_length_le h h' hle.le).eq_of_length hle
  exact Option.some.inj ((spelled_eq_some_iff.mpr hsame).symm.trans (spelled_eq_some_iff.mpr rfl))

/-- **`firstChar` finds the character that the octets begin with.** -/
theorem firstChar_eq_some_iff {bs : List ℕ} {c : Char} :
    firstChar bs = some c ↔ utf8 c <+: bs := by
  have hsound : ∀ {c}, firstChar bs = some c → utf8 c <+: bs := by
    intro c h
    obtain ⟨k, -, hk⟩ := List.exists_of_findSome?_eq_some h
    rw [spelled_eq_some_iff.mp hk]
    exact List.take_prefix k bs
  refine ⟨hsound, ?_⟩
  intro h
  -- the character is found at the length it has, if none was found before
  have hk : (utf8 c).length ∈ [1, 2, 3, 4] := by
    unfold utf8
    dsimp only
    split_ifs <;> simp
  have hsome : (firstChar bs).isSome := by
    rw [firstChar, List.findSome?_isSome_iff]
    refine ⟨_, hk, ?_⟩
    rw [← List.prefix_iff_eq_take.mp h, spelled_eq_some_iff.mpr rfl]
    rfl
  obtain ⟨c', hc'⟩ := Option.isSome_iff_exists.mp hsome
  rw [hc', eq_of_utf8_prefix (hsound hc') h]

/-! ### Percent-encoding -/

/-- An upper-case hexadecimal digit. -/
def hexDigit (n : ℕ) : Char := Char.ofNat (if n < 10 then 0x30 + n else 0x37 + n)

/-- The value of a hexadecimal digit of either case. -/
def hexValue (c : Char) : Option ℕ :=
  let n := c.toNat
  if 0x30 ≤ n ∧ n ≤ 0x39 then some (n - 0x30)
  else if 0x41 ≤ n ∧ n ≤ 0x46 then some (n - 0x37)
  else if 0x61 ≤ n ∧ n ≤ 0x66 then some (n - 0x57)
  else none

/-- `%XX` for an octet. -/
def percent (b : ℕ) : List Char := ['%', hexDigit (b / 16), hexDigit (b % 16)]

/-- The octet that two hexadecimal digits name. -/
def hexOctet (h l : Char) : Option ℕ :=
  match hexValue h, hexValue l with
  | some x, some y => some (16 * x + y)
  | _, _ => none

/-- The octet named by the first two characters of a text. -/
def escapeAt : List Char → Option ℕ
  | h :: l :: _ => hexOctet h l
  | _ => none

/-- Every `%` of the text is followed by two hexadecimal digits. -/
def allEscapes : List Char → Bool
  | [] => true
  | c :: rest => (c != '%' || (escapeAt rest).isSome) && allEscapes rest

/-- The characters that may stand in a query as they are. -/
def queryChar (c : Char) : Bool :=
  c.isAlphanum || c ∈ ['.', '_', '-', '~', '!', '$', '&', '\'', '(', ')', '*', '+', ',', ';',
    '=', ':', '@', '/', '?']

/-- A character of a query as it is sent, if the query counts as encoded or
not. -/
def encodeChar (encoded : Bool) (c : Char) : List Char :=
  if queryChar c || (encoded && c == '%') then [c] else (utf8 c).flatMap percent

def encodeQuery (encoded : Bool) (s : List Char) : List Char := s.flatMap (encodeChar encoded)

/-- What is sent for a query given as one text. -/
def sendQuery (s : List Char) : List Char :=
  let query := s.takeWhile (· ≠ '#')
  encodeQuery (allEscapes query) query

/-- The octets that a part of a query stands for. -/
def unquote : List Char → List ℕ
  | [] => []
  | c :: rest =>
    if c = '+' then 0x20 :: unquote rest
    else if c = '%' then
      match rest with
      | h :: l :: rest' =>
        match hexOctet h l with
        | some b => b :: unquote rest'
        -- no escape after all: the `%` stands for itself
        | none => 0x25 :: unquote (h :: l :: rest')
      | short => 0x25 :: unquote short
    else utf8 c ++ unquote rest

/-- Decode octets, the first `k` of which belong to a character that has been
read. -/
def decodeFrom : ℕ → List ℕ → List Char
  | _, [] => []
  | k + 1, _ :: bs => decodeFrom k bs
  | 0, b :: bs =>
    match firstChar (b :: bs) with
    | some c => c :: decodeFrom ((utf8 c).length - 1) bs
    | none => percent b ++ decodeFrom 0 bs

/-- Octets as text. -/
def decode (bs : List ℕ) : List Char := decodeFrom 0 bs

/-- The text that a part of a query stands for. -/
def unquotePlus (w : List Char) : List Char := decode (unquote w)

/-- How a form reads a `+`. -/
def plusToSpace (c : Char) : Char := if c = '+' then ' ' else c

/-- Every escape is read as itself: it is written in upper case, and nowhere is
a character spelled. -/
structure EscapesKept (s : List Char) : Prop where
  upper : ∀ h l b, hexOctet h l = some b → ['%', h, l] <:+: s → ['%', h, l] = percent b
  unspelled : ∀ c, ¬ (utf8 c).flatMap percent <:+: s

theorem plusToSpace_eq_iff {c : Char} : plusToSpace c = c ↔ c ≠ '+' := by
  rw [plusToSpace]
  split_ifs with h
  · subst h
    decide
  · exact iff_of_true rfl h

theorem hexValue_hexDigit : ∀ n < 16, hexValue (hexDigit n) = some n := by
  decide

/-- A property of hexadecimal digits need only be looked up among the ASCII
characters. -/
theorem of_hexValue {P : Char → Prop} [DecidablePred P]
    (hP : ∀ n < 0x80, (hexValue (Char.ofNat n)).isSome → P (Char.ofNat n))
    {c : Char} (h : (hexValue c).isSome) : P c := by
  have hlt : c.toNat < 0x80 := by
    unfold hexValue at h
    dsimp only at h
    split_ifs at h <;> first | omega | simp at h
  have hc := hP c.toNat hlt
  rw [Char.ofNat_toNat] at hc
  exact hc h

theorem queryChar_of_hexValue {c : Char} (h : (hexValue c).isSome) : queryChar c = true :=
  of_hexValue (P := fun c => queryChar c = true) (by decide) h

theorem hexOctet_eq_some {h l : Char} {b : ℕ} (hb : hexOctet h l = some b) :
    (hexValue h).isSome ∧ (hexValue l).isSome := by
  unfold hexOctet at hb
  split at hb
  · simp_all
  · cases hb

theorem hexOctet_hexDigit {b : ℕ} (h : b < 256) :
    hexOctet (hexDigit (b / 16)) (hexDigit (b % 16)) = some b := by
  simp only [hexOctet, hexValue_hexDigit (b / 16) (by omega), hexValue_hexDigit (b % 16) (by omega),
    Option.some.injEq]
  omega

theorem utf8_lt {c : Char} {b : ℕ} (h : b ∈ utf8 c) : b < 256 := by
  have hc := char_cases c
  unfold utf8 at h
  dsimp only at h
  split_ifs at h <;> simp only [List.mem_cons, List.not_mem_nil, or_false] at h <;> omega

/-! ### Decoding -/

theorem decodeFrom_append {cs : List ℕ} (bs : List ℕ) :
    decodeFrom cs.length (cs ++ bs) = decode bs := by
  induction cs with
  | nil => rfl
  | cons b cs ih => exact ih

/-- Decoding undoes encoding. -/
theorem decode_utf8 (c : Char) (bs : List ℕ) : decode (utf8 c ++ bs) = c :: decode bs := by
  obtain ⟨b, cs, hutf, -⟩ := utf8_cons c
  have hfirst : firstChar (b :: (cs ++ bs)) = some c :=
    firstChar_eq_some_iff.mpr ⟨bs, by rw [hutf]; rfl⟩
  rw [hutf, List.cons_append, decode, decodeFrom, hfirst]
  dsimp only
  rw [hutf, List.length_cons, Nat.add_sub_cancel, decodeFrom_append]

/-- Decoding undoes the encoding of a text. -/
theorem decode_flatMap_utf8 (s : List Char) (bs : List ℕ) :
    decode (s.flatMap utf8 ++ bs) = s ++ decode bs := by
  induction s with
  | nil => rfl
  | cons c s ih => rw [List.flatMap_cons, List.append_assoc, decode_utf8, ih, List.cons_append]

/-- An octet that no character begins with stays an escape. -/
theorem decode_of_none {b : ℕ} {bs : List ℕ} (h : firstChar (b :: bs) = none) :
    decode (b :: bs) = percent b ++ decode bs := by
  rw [decode, decodeFrom, h]
  rfl

/-! ### Unquoting -/

theorem unquote_percent {b : ℕ} (h : b < 256) (w : List Char) :
    unquote (percent b ++ w) = b :: unquote w := by
  simp [percent, unquote, hexOctet_hexDigit h]

theorem unquote_flatMap_percent {bs : List ℕ} (h : ∀ b ∈ bs, b < 256) (w : List Char) :
    unquote (bs.flatMap percent ++ w) = bs ++ unquote w := by
  induction bs with
  | nil => rfl
  | cons b bs ih =>
    rw [List.flatMap_cons, List.append_assoc, unquote_percent (h b (by simp)),
      ih fun b' hb' => h b' (by simp [hb']), List.cons_append]

/-- A character that opens no escape is read as itself, a `+` as a space. -/
theorem unquote_cons {c : Char} (h : c ≠ '%') (w : List Char) :
    unquote (c :: w) = utf8 (plusToSpace c) ++ unquote w := by
  have space : utf8 ' ' = [0x20] := rfl
  by_cases hp : c = '+'
  · rcases w with - | ⟨x, - | ⟨y, w⟩⟩ <;> simp [unquote, plusToSpace, hp, space]
  · rcases w with - | ⟨x, - | ⟨y, w⟩⟩ <;> simp [unquote, plusToSpace, h, hp]

theorem unquote_noEscape {w : List Char} (h : escapeAt w = none) :
    unquote ('%' :: w) = 0x25 :: unquote w := by
  match w with
  | [] => rfl
  | [x] => rfl
  | x :: y :: w =>
    rw [escapeAt] at h
    simp [unquote, h]

theorem unquote_escape {x y : Char} {b : ℕ} (h : hexOctet x y = some b) (w : List Char) :
    unquote ('%' :: x :: y :: w) = b :: unquote w := by
  simp [unquote, h]

/-- An escape, or not. -/
theorem escapeAt_cases (w : List Char) :
    escapeAt w = none ∨ ∃ x y b w', w = x :: y :: w' ∧ hexOctet x y = some b := by
  match w with
  | [] => exact .inl rfl
  | [x] => exact .inl rfl
  | x :: y :: w =>
    cases h : hexOctet x y with
    | none => exact .inl h
    | some b => exact .inr ⟨x, y, b, w, rfl, h⟩

/-! ### Sending -/

@[simp] theorem encodeQuery_nil (encoded : Bool) : encodeQuery encoded [] = [] := rfl

theorem encodeQuery_cons (encoded : Bool) (c : Char) (s : List Char) :
    encodeQuery encoded (c :: s) = encodeChar encoded c ++ encodeQuery encoded s :=
  List.flatMap_cons

theorem encodeQuery_append (encoded : Bool) (s t : List Char) :
    encodeQuery encoded (s ++ t) = encodeQuery encoded s ++ encodeQuery encoded t :=
  List.flatMap_append

theorem encodeChar_of_queryChar {c : Char} (h : queryChar c = true) (encoded : Bool) :
    encodeChar encoded c = [c] := by
  rw [encodeChar, h, Bool.true_or, if_pos rfl]

/-- A query that counts as encoded has its `%` left alone; otherwise it opens
an escape. -/
theorem encodeChar_percent (encoded : Bool) :
    encodeChar encoded '%' = if encoded then ['%'] else percent 0x25 := by
  cases encoded with
  | true => rfl
  | false => rfl

theorem queryChar_ne {c : Char} (h : queryChar c = true) : c ≠ '%' ∧ c ≠ '#' := by
  constructor
  · rintro rfl
    exact absurd h (by decide)
  · rintro rfl
    exact absurd h (by decide)

/-- Characters that may stand in a query are sent as they are. -/
theorem encodeQuery_of_queryChar {p : List Char} (h : ∀ c ∈ p, queryChar c = true)
    (encoded : Bool) : encodeQuery encoded p = p := by
  induction p with
  | nil => rfl
  | cons c p ih =>
    rw [encodeQuery_cons, encodeChar_of_queryChar (h c List.mem_cons_self),
      ih fun c' hc' => h c' (List.mem_cons_of_mem c hc')]
    rfl

/-- Without a percent sign it does not matter whether the query counts as
encoded. -/
theorem encodeQuery_of_notMem {s : List Char} (h : '%' ∉ s) (encoded : Bool) :
    encodeQuery encoded s = encodeQuery false s := by
  apply List.flatMap_congr
  intro c hc
  have hne : (c == '%') = false := by
    rw [beq_eq_false_iff_ne]
    rintro rfl
    exact h hc
  rw [encodeChar, encodeChar, hne, Bool.and_false, Bool.and_false]

theorem sendQuery_of_notMem {s : List Char} (h : '#' ∉ s) :
    sendQuery s = encodeQuery (allEscapes s) s := by
  have htake : s.takeWhile (· ≠ '#') = s := by
    refine List.takeWhile_eq_self_iff.mpr ?_
    intro c hc
    rw [decide_eq_true_eq]
    rintro rfl
    exact h hc
  rw [sendQuery, htake]

theorem escapeAt_of_head {x : Char} (hx : hexValue x = none) (w : List Char) :
    escapeAt (x :: w) = none := by
  cases w with
  | nil => rfl
  | cons y w => simp [escapeAt, hexOctet, hx]

/-- A character that is no hexadecimal digit ends every escape before it. -/
theorem escapeAt_append {x : Char} (hx : hexValue x = none) (u w : List Char) :
    escapeAt (u ++ x :: w) = escapeAt u := by
  match u with
  | [] => exact escapeAt_of_head hx w
  | [h] => cases hh : hexValue h <;> simp [escapeAt, hexOctet, hx]
  | h :: l :: u => rfl

theorem allEscapes_append {x : Char} (hx : hexValue x = none) (u w : List Char) :
    allEscapes (u ++ x :: w) = (allEscapes u && allEscapes (x :: w)) := by
  induction u with
  | nil => rfl
  | cons c u ih =>
    rw [List.cons_append, allEscapes, allEscapes, escapeAt_append hx, ih, Bool.and_assoc]

/-- Without a percent sign there is nothing to encode. -/
theorem allEscapes_of_notMem {s : List Char} (h : '%' ∉ s) : allEscapes s = true := by
  induction s with
  | nil => rfl
  | cons c s ih =>
    simp only [List.mem_cons, not_or] at h
    simp [allEscapes, Ne.symm h.1, ih h.2]

/-- What is encoded begins with the character, or with a `%`. -/
theorem encodeChar_cons (encoded : Bool) (c : Char) :
    encodeChar encoded c = [c] ∨ ∃ w, encodeChar encoded c = '%' :: w := by
  rw [encodeChar]
  split_ifs
  · exact .inl rfl
  · obtain ⟨b, cs, hutf, -⟩ := utf8_cons c
    exact .inr ⟨_, by rw [hutf]; rfl⟩

/-- Encoding makes no new escape. -/
theorem escapeAt_encodeQuery {encoded : Bool} {s : List Char} (h : escapeAt s = none) :
    escapeAt (encodeQuery encoded s) = none := by
  have hpercent : hexValue '%' = none := rfl
  match s with
  | [] => rfl
  | x :: s =>
    rw [encodeQuery_cons]
    rcases encodeChar_cons encoded x with hx | ⟨w, hx⟩
    · rw [hx, List.singleton_append]
      match s with
      | [] => rfl
      | y :: s =>
        rw [encodeQuery_cons]
        rcases encodeChar_cons encoded y with hy | ⟨w, hy⟩
        · rw [hy]
          exact h
        · rw [hy]
          cases hv : hexValue x <;> simp [escapeAt, hexOctet, hv, hpercent]
    · rw [hx, List.cons_append]
      exact escapeAt_of_head hpercent _

/-- Sent as encoded, a query is unquoted like the text itself. -/
theorem unquote_encodeQuery_true : ∀ s : List Char, unquote (encodeQuery true s) = unquote s
  | [] => rfl
  | c :: s => by
    rw [encodeQuery_cons]
    by_cases hc : c = '%'
    · subst hc
      rw [encodeChar_percent, if_pos rfl, List.singleton_append]
      rcases escapeAt_cases s with hesc | ⟨x, y, b, s', rfl, hb⟩
      · rw [unquote_noEscape hesc, unquote_noEscape (escapeAt_encodeQuery hesc),
          unquote_encodeQuery_true s]
      · obtain ⟨hx, hy⟩ := hexOctet_eq_some hb
        rw [encodeQuery_cons, encodeQuery_cons,
          encodeChar_of_queryChar (queryChar_of_hexValue hx),
          encodeChar_of_queryChar (queryChar_of_hexValue hy)]
        show unquote ('%' :: x :: y :: encodeQuery true s') = _
        rw [unquote_escape hb, unquote_escape hb, unquote_encodeQuery_true s']
    · rw [unquote_cons hc, encodeChar]
      have hne : (c == '%') = false := beq_eq_false_iff_ne.mpr hc
      rw [hne, Bool.and_false, Bool.or_false]
      split_ifs with hq
      · rw [List.singleton_append, unquote_cons hc, unquote_encodeQuery_true s]
      · rw [unquote_flatMap_percent fun b hb => utf8_lt hb, plusToSpace, if_neg,
          unquote_encodeQuery_true s]
        rintro rfl
        exact hq (by decide)
termination_by s => s.length

/-- Sent as not encoded, every character is read back as itself, but a `+` as
a space. -/
theorem unquotePlus_encodeQuery_false (s : List Char) :
    unquotePlus (encodeQuery false s) = s.map plusToSpace := by
  have key : unquote (encodeQuery false s) = (s.map plusToSpace).flatMap utf8 := by
    induction s with
    | nil => rfl
    | cons c s ih =>
      rw [encodeQuery_cons, List.map_cons, List.flatMap_cons, ← ih, encodeChar, Bool.false_and,
        Bool.or_false]
      split_ifs with hq
      · exact unquote_cons (queryChar_ne hq).1 _
      · rw [unquote_flatMap_percent fun b hb => utf8_lt hb, plusToSpace, if_neg]
        rintro rfl
        exact hq (by decide)
  have h := decode_flatMap_utf8 (s.map plusToSpace) []
  rwa [List.append_nil, show decode [] = [] from rfl, List.append_nil, ← key] at h

/-- A text without percent signs is read back as written, but for its `+`. -/
theorem unquotePlus_encodeQuery {s : List Char} (h : '%' ∉ s) (encoded : Bool) :
    unquotePlus (encodeQuery encoded s) = s.map plusToSpace := by
  rw [encodeQuery_of_notMem h, unquotePlus_encodeQuery_false]

theorem mem_percent {x : Char} {b : ℕ} (hb : b < 256) (h : x ∈ percent b) :
    x = '%' ∨ (hexValue x).isSome := by
  simp only [percent, List.mem_cons, List.not_mem_nil, or_false] at h
  rcases h with rfl | rfl | rfl
  · exact .inl rfl
  · exact .inr (by rw [hexValue_hexDigit _ (by omega)]; rfl)
  · exact .inr (by rw [hexValue_hexDigit _ (by omega)]; rfl)

/-- Nothing but escapes is added on the wire. -/
theorem mem_encodeQuery {encoded : Bool} {x : Char} {s : List Char}
    (h : x ∈ encodeQuery encoded s) : x ∈ s ∨ x = '%' ∨ (hexValue x).isSome := by
  obtain ⟨c, hc, hx⟩ := List.mem_flatMap.mp h
  rw [encodeChar] at hx
  split_ifs at hx
  · rw [List.mem_singleton.mp hx]
    exact .inl hc
  · obtain ⟨b, hb, hx⟩ := List.mem_flatMap.mp hx
    exact .inr (mem_percent (utf8_lt hb) hx)

theorem amp_notMem_encodeQuery {s : List Char} (h : '&' ∉ s) (encoded : Bool) :
    '&' ∉ encodeQuery encoded s := by
  intro hmem
  rcases mem_encodeQuery hmem with hs | hs | hs
  · exact h hs
  · exact absurd hs (by decide)
  · exact absurd hs (by decide)

/-! ### What becomes of escapes -/

/-- Octets that only go on with a character stand in a text as escapes. -/
theorem unquote_continuation {cs : List ℕ} (hcs : ∀ b ∈ cs, 0x80 ≤ b ∧ b < 0xC0) {s : List Char}
    (h : cs <+: unquote s) :
    ∃ es s', s = es ++ s' ∧ unquote s = cs ++ unquote s' ∧
      ((∀ x y b, hexOctet x y = some b → ['%', x, y] <:+: es → ['%', x, y] = percent b) →
        es = cs.flatMap percent) := by
  induction cs generalizing s with
  | nil => exact ⟨[], s, rfl, rfl, fun _ => rfl⟩
  | cons b cs ih =>
    obtain ⟨hb, hcs⟩ := List.forall_mem_cons.mp hcs
    match s with
    | [] => cases List.prefix_nil.mp h
    | c :: s =>
      -- a character does not begin with such an octet
      have hplain : ∀ (d : Char) (w : List ℕ), ¬ b :: cs <+: utf8 d ++ w := by
        intro d w hw
        obtain ⟨b', cs', hutf, -, hnot, -⟩ := utf8_cons d
        rw [hutf, List.cons_append, List.cons_prefix_cons] at hw
        exact hnot (hw.1 ▸ hb)
      by_cases hc : c = '%'
      · subst hc
        rcases escapeAt_cases s with hesc | ⟨x, y, b', s', rfl, hb'⟩
        · rw [unquote_noEscape hesc] at h
          exact absurd h (hplain '%' _)
        · rw [unquote_escape hb', List.cons_prefix_cons] at h
          obtain ⟨rfl, h⟩ := h
          obtain ⟨es, s'', rfl, hunquote, hupper⟩ := ih hcs h
          refine ⟨'%' :: x :: y :: es, s'', rfl, ?_, ?_⟩
          · rw [unquote_escape hb', hunquote]
            rfl
          · intro hall
            have hfirst := hall x y b hb' (List.IsPrefix.isInfix ⟨es, rfl⟩)
            have hrest := hupper fun x' y' b'' hb'' hin =>
              hall x' y' b'' hb'' (hin.trans (List.suffix_append ['%', x, y] es).isInfix)
            rw [List.flatMap_cons, ← hrest, ← hfirst]
            rfl
      · rw [unquote_cons hc] at h
        exact absurd h (hplain _ _)

/-- A character whose octets begin with an escape's: it is written in escapes,
and takes the place of them. -/
theorem exists_spelled {b : ℕ} {s : List Char} {c : Char}
    (h : firstChar (b :: unquote s) = some c) :
    ∃ es s', s = es ++ s' ∧ decode (b :: unquote s) = c :: decode (unquote s') ∧
      ((∀ x y b, hexOctet x y = some b → ['%', x, y] <:+: es → ['%', x, y] = percent b) →
        (utf8 c).flatMap percent = percent b ++ es) := by
  have hprefix := firstChar_eq_some_iff.mp h
  obtain ⟨b', cs, hutf, -, -, hcs⟩ := utf8_cons c
  rw [hutf, List.cons_prefix_cons] at hprefix
  obtain ⟨rfl, hprefix⟩ := hprefix
  obtain ⟨es, s', hs, hunquote, hupper⟩ := unquote_continuation hcs hprefix
  refine ⟨es, s', hs, ?_, ?_⟩
  · rw [hunquote, ← List.cons_append, ← hutf, decode_utf8]
  · intro hall
    rw [hutf, List.flatMap_cons, hupper hall]

/-- What is read back is never longer than what was sent. -/
theorem length_decode_unquote (s : List Char) : (decode (unquote s)).length ≤ s.length := by
  generalize hn : s.length = n
  induction n using Nat.strong_induction_on generalizing s with
  | _ n ih =>
    subst hn
    match s with
    | [] => exact le_rfl
    | c :: s =>
      by_cases hc : c = '%'
      swap
      · rw [unquote_cons hc, decode_utf8]
        exact Nat.succ_le_succ (ih s.length (Nat.lt_succ_self _) s rfl)
      subst hc
      rcases escapeAt_cases s with hesc | ⟨x, y, b, s, rfl, hb⟩
      · rw [unquote_noEscape hesc]
        have h := decode_utf8 '%' (unquote s)
        rw [show utf8 '%' = [0x25] from rfl, List.singleton_append] at h
        rw [h]
        exact Nat.succ_le_succ (ih s.length (Nat.lt_succ_self _) s rfl)
      · rw [unquote_escape hb]
        cases hfirst : firstChar (b :: unquote s) with
        | none =>
          have hrest := ih s.length (by simp only [List.length_cons]; omega) s rfl
          rw [decode_of_none hfirst, List.length_append, show (percent b).length = 3 from rfl]
          simp only [List.length_cons]
          omega
        | some d =>
          obtain ⟨es, s', rfl, hdecode, -⟩ := exists_spelled hfirst
          have hrest := ih s'.length (by simp only [List.length_cons, List.length_append]; omega)
            s' rfl
          rw [hdecode]
          simp only [List.length_cons, List.length_append]
          omega

theorem escapesKept_nil : EscapesKept [] := by
  constructor
  · intro x y b _ h
    cases List.infix_nil.mp h
  · intro c h
    obtain ⟨b, cs, hutf, -⟩ := utf8_cons c
    rw [hutf] at h
    cases List.infix_nil.mp h

/-- Escapes begin with a `%`. -/
theorem escapesKept_cons {c : Char} (hc : c ≠ '%') (s : List Char) :
    EscapesKept (c :: s) ↔ EscapesKept s := by
  have hwithin : ∀ w, '%' :: w <:+: c :: s ↔ '%' :: w <:+: s := by
    intro w
    rw [List.infix_cons_iff, or_iff_right]
    intro h
    rw [List.cons_prefix_cons] at h
    exact hc h.1.symm
  constructor
  · rintro ⟨hupper, hunspelled⟩
    refine ⟨fun x y b hb h => hupper x y b hb ((hwithin _).mpr h), ?_⟩
    intro d h
    apply hunspelled d
    obtain ⟨b, cs, hutf, -⟩ := utf8_cons d
    rw [hutf] at h ⊢
    exact (hwithin _).mpr h
  · rintro ⟨hupper, hunspelled⟩
    refine ⟨fun x y b hb h => hupper x y b hb ((hwithin _).mp h), ?_⟩
    intro d h
    apply hunspelled d
    obtain ⟨b, cs, hutf, -⟩ := utf8_cons d
    rw [hutf] at h ⊢
    exact (hwithin _).mp h

theorem escapesKept_of_notMem {s : List Char} (h : '%' ∉ s) : EscapesKept s := by
  induction s with
  | nil => exact escapesKept_nil
  | cons c s ih =>
    simp only [List.mem_cons, not_or] at h
    exact (escapesKept_cons (Ne.symm h.1) s).mpr (ih h.2)

/-- An escape is kept if it is in upper case and opens no character. -/
theorem escapesKept_escape {x y : Char} {b : ℕ} (hb : hexOctet x y = some b) (s : List Char) :
    EscapesKept ('%' :: x :: y :: s) ↔
      ['%', x, y] = percent b ∧ (∀ c, ¬ (utf8 c).flatMap percent <+: '%' :: x :: y :: s) ∧
        EscapesKept s := by
  obtain ⟨hx, hy⟩ := hexOctet_eq_some hb
  have hne : ∀ {z}, (hexValue z).isSome → z ≠ '%' :=
    fun hz => (queryChar_ne (queryChar_of_hexValue hz)).1
  constructor
  · rintro ⟨hupper, hunspelled⟩
    have hsuffix : s <:+: '%' :: x :: y :: s := (List.suffix_append ['%', x, y] s).isInfix
    refine ⟨hupper x y b hb (List.IsPrefix.isInfix ⟨s, rfl⟩), fun c h => hunspelled c h.isInfix, ?_⟩
    exact ⟨fun x' y' b' hb' h => hupper x' y' b' hb' (h.trans hsuffix),
      fun c h => hunspelled c (h.trans hsuffix)⟩
  · rintro ⟨hfirst, hprefix, hrest⟩
    have hrest' : EscapesKept (x :: y :: s) :=
      (escapesKept_cons (hne hx) _).mpr ((escapesKept_cons (hne hy) _).mpr hrest)
    constructor
    · intro x' y' b' hb' h
      rcases List.infix_cons_iff.mp h with h | h
      · obtain ⟨t, ht⟩ := h
        simp only [List.cons_append, List.nil_append, List.cons.injEq, true_and] at ht
        obtain ⟨rfl, rfl, -⟩ := ht
        cases hb.symm.trans hb'
        exact hfirst
      · exact hrest'.upper x' y' b' hb' h
    · intro c h
      rcases List.infix_cons_iff.mp h with h | h
      · exact hprefix c h
      · exact hrest'.unspelled c h

/-- There is no `+` in an escape. -/
theorem plus_notMem_escape {x y : Char} {b : ℕ} (hb : hexOctet x y = some b) (s : List Char) :
    '+' ∉ '%' :: x :: y :: s ↔ '+' ∉ s := by
  obtain ⟨hx, hy⟩ := hexOctet_eq_some hb
  have hne : ∀ {z}, (hexValue z).isSome → '+' ≠ z := by
    rintro z hz rfl
    exact absurd hz (by decide)
  simp [hne hx, hne hy]

/-- An octet that begins no character opens the escapes of none. -/
theorem not_spelled_of_none {x y : Char} {b : ℕ} {s : List Char} (hb : hexOctet x y = some b)
    (hfirst : firstChar (b :: unquote s) = none) (d : Char) :
    ¬ (utf8 d).flatMap percent <+: '%' :: x :: y :: s := by
  rintro ⟨t, ht⟩
  have hd := congrArg unquote ht
  rw [unquote_flatMap_percent fun b hb => utf8_lt hb, unquote_escape hb] at hd
  rw [firstChar_eq_some_iff.mpr ⟨_, hd⟩] at hfirst
  cases hfirst

/-- Where an octet begins a character, the escapes of that one stand there, if
they are in upper case. -/
theorem spelled_of_some {x y : Char} {b : ℕ} {s : List Char} {d : Char}
    (hfirst : firstChar (b :: unquote s) = some d) (hupper : ['%', x, y] = percent b)
    (hkept : EscapesKept s) : (utf8 d).flatMap percent <+: '%' :: x :: y :: s := by
  obtain ⟨es, s', rfl, -, hspelled⟩ := exists_spelled hfirst
  have hes : es <:+: es ++ s' := (List.prefix_append es s').isInfix
  rw [hspelled fun x' y' b' hb' h => hkept.upper x' y' b' hb' (h.trans hes), ← hupper]
  exact ⟨s', rfl⟩

/-- A character takes the place of its escapes, and the text becomes shorter. -/
theorem decode_ne_of_some {x y : Char} {b : ℕ} {s : List Char} {d : Char}
    (hfirst : firstChar (b :: unquote s) = some d) :
    decode (b :: unquote s) ≠ '%' :: x :: y :: s := by
  obtain ⟨es, s', rfl, hdecode, -⟩ := exists_spelled hfirst
  intro h
  rw [hdecode] at h
  have hlen := congrArg List.length h
  have hle := length_decode_unquote s'
  simp only [List.length_cons, List.length_append] at hlen
  omega

/-- **What an encoded text is read back as**: itself exactly if it has no `+`
and its escapes are kept. -/
theorem decode_unquote_eq_iff {s : List Char} (hall : allEscapes s = true) :
    decode (unquote s) = s ↔ '+' ∉ s ∧ EscapesKept s := by
  generalize hn : s.length = n
  induction n using Nat.strong_induction_on generalizing s with
  | _ n ih =>
    subst hn
    match s with
    | [] => exact iff_of_true rfl ⟨List.not_mem_nil, escapesKept_nil⟩
    | c :: s =>
      rw [allEscapes, Bool.and_eq_true] at hall
      by_cases hc : c = '%'
      swap
      · have hrest := ih s.length (Nat.lt_succ_self _) hall.2 rfl
        rw [unquote_cons hc, decode_utf8, escapesKept_cons hc, List.cons.injEq, hrest,
          plusToSpace_eq_iff, List.mem_cons, not_or, and_assoc]
        exact and_congr_left' ne_comm
      subst hc
      rcases escapeAt_cases s with hesc | ⟨x, y, b, s, rfl, hb⟩
      · rw [hesc] at hall
        cases hall.1
      · have hall' : allEscapes s = true := by
          have h := hall.2
          rw [allEscapes, allEscapes, Bool.and_eq_true, Bool.and_eq_true] at h
          exact h.2.2
        rw [unquote_escape hb, escapesKept_escape hb, plus_notMem_escape hb]
        cases hfirst : firstChar (b :: unquote s) with
        | none =>
          -- the octet stays an escape, and the rest is read back on its own
          have hrest := ih s.length (by simp only [List.length_cons]; omega) hall' rfl
          rw [decode_of_none hfirst]
          constructor
          · intro h
            have h : percent b ++ decode (unquote s) = ['%', x, y] ++ s := h
            obtain ⟨h₁, h₂⟩ := List.append_inj h rfl
            obtain ⟨hnone, hkept⟩ := hrest.mp h₂
            exact ⟨hnone, h₁.symm, not_spelled_of_none hb hfirst, hkept⟩
          · rintro ⟨hnone, h₁, -, hkept⟩
            rw [← h₁, hrest.mpr ⟨hnone, hkept⟩]
            rfl
        | some d =>
          apply iff_of_false (decode_ne_of_some hfirst)
          rintro ⟨-, hupper, hspelled, hkept⟩
          exact hspelled d (spelled_of_some hfirst hupper hkept)

/-! ### Reading -/

/-- One `key=value` field of a query; without a `=` the value is empty. -/
def parseField (w : List Char) : String × String :=
  (String.ofList (unquotePlus (w.takeWhile (· ≠ '='))),
    String.ofList (unquotePlus ((w.dropWhile (· ≠ '=')).drop 1)))

/-- The fields of a query, in order. -/
def parseQuery (w : List Char) : List (String × String) :=
  ((w.splitOn '&').filter (· ≠ [])).map parseField

/-- The first value sent for a key. -/
def argsGet (args : List (String × String)) (key : String) : Option String := args.lookup key

theorem parseField_eq {k v : List Char} (hk : '=' ∉ k) :
    parseField (k ++ '=' :: v)
      = (String.ofList (unquotePlus k), String.ofList (unquotePlus v)) := by
  have hne : ∀ x ∈ k, decide (x ≠ '=') = true := by
    intro x hx
    have : x ≠ '=' := fun h => hk (h ▸ hx)
    simpa using this
  have htake : (k ++ '=' :: v).takeWhile (· ≠ '=') = k := by
    rw [List.takeWhile_append_of_pos hne]
    simp
  have hdrop : (k ++ '=' :: v).dropWhile (· ≠ '=') = '=' :: v := by
    rw [List.dropWhile_append_of_pos hne]
    simp
  rw [parseField, htake, hdrop, List.drop_one, List.tail_cons]

theorem parseQuery_single {w : List Char} (h : '&' ∉ w) (hne : w ≠ []) :
    parseQuery w = [parseField w] := by
  simp [parseQuery, List.splitOn_eq_singleton h, hne]

theorem parseQuery_cons {w : List Char} (h : '&' ∉ w) (hne : w ≠ []) (rest : List Char) :
    parseQuery (w ++ '&' :: rest) = parseField w :: parseQuery rest := by
  simp [parseQuery, List.splitOn_append_cons_self_of_not_mem h, hne]

end ResilientMesh
