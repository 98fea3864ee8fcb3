/-
ResilientMesh/UrlEncode.lean

Queries that are written by an encoder.  `quotePlus` keeps the unreserved
characters, writes `+` for a space and percent-encodes the octets of the
others; `urlencode` joins the fields.

Unlike a query written by hand, an encoded one has nothing left to encode on
its way (`sendQuery_encodeFields`) and is read back as it was
(`parseQuery_urlencode`).

Nothing in this file knows the services.
-/
import ResilientMesh.QueryString

namespace ResilientMesh

/-! ### Encoding -/

/-- The characters that are never encoded. -/
def unreserved (c : Char) : Bool := c.isAlphanum || c ∈ ['_', '.', '-', '~']

def quoteChar (c : Char) : List Char :=
  if unreserved c then [c] else if c = ' ' then ['+'] else (utf8 c).flatMap percent

/-- `quote_plus`. -/
def quotePlus (s : List Char) : List Char := s.flatMap quoteChar

/-- One `key=value` field. -/
def encodeField (kv : String × String) : List Char :=
  quotePlus kv.1.toList ++ '=' :: quotePlus kv.2.toList

/-- The fields, one after the other. -/
def encodeFields : List (String × String) → List Char
  | [] => []
  | [kv] => encodeField kv
  | kv :: kv' :: rest => encodeField kv ++ '&' :: encodeFields (kv' :: rest)

/-- `urlencode`. -/
def urlencode (items : List (String × String)) : String := String.ofList (encodeFields items)

/-- `items()` of a multi-dictionary: every key once, with its first value. -/
def firstItems : List (String × String) → List (String × String)
  | [] => []
  | kv :: rest => kv :: (firstItems rest).filter fun kv' => kv'.1 ≠ kv.1

theorem lookup_firstItems (args : List (String × String)) (key : String) :
    (firstItems args).lookup key = args.lookup key := by
  induction args with
  | nil => rfl
  | cons kv rest ih =>
    obtain ⟨k, v⟩ := kv
    rw [firstItems, List.lookup_cons, List.lookup_cons]
    by_cases hk : key = k
    · subst hk
      simp
    · have hbeq : (key == k) = false := by simpa using hk
      rw [hbeq, ← ih]
      -- the fields that are dropped have another key
      induction firstItems rest with
      | nil => rfl
      | cons kv' rest' ih' =>
        obtain ⟨k', v'⟩ := kv'
        by_cases hk' : k' = k
        · have hne : (key == k') = false := by simpa [hk'] using hk
          rw [List.filter_cons_of_neg (by simpa using hk'), List.lookup_cons, hne]
          exact ih'
        · rw [List.filter_cons_of_pos (by simpa using hk'), List.lookup_cons, List.lookup_cons]
          cases key == k' with
          | true => rfl
          | false => exact ih'

/-! ### On the wire -/

theorem queryChar_of_unreserved {c : Char} (h : unreserved c = true) : queryChar c = true := by
  simp only [unreserved, Bool.or_eq_true, decide_eq_true_eq] at h
  rcases h with h | h
  · simp [queryChar, h]
  · simp only [List.mem_cons, List.not_mem_nil, or_false] at h
    rcases h with rfl | rfl | rfl | rfl <;> decide

/-- Every `%` of an octet's escape opens it. -/
theorem allEscapes_percent {b : ℕ} (h : b < 256) (w : List Char) :
    allEscapes (percent b ++ w) = allEscapes w := by
  have hesc : (escapeAt (hexDigit (b / 16) :: hexDigit (b % 16) :: w)).isSome := by
    rw [escapeAt, hexOctet_hexDigit h]
    rfl
  have hdigit : ∀ n < 16, (hexDigit n != '%') = true := by decide
  show allEscapes ('%' :: hexDigit (b / 16) :: hexDigit (b % 16) :: w) = _
  rw [allEscapes, allEscapes, allEscapes, hesc, hdigit _ (by omega), hdigit _ (by omega),
    Bool.or_true, Bool.true_or, Bool.true_or, Bool.true_and, Bool.true_and, Bool.true_and]

theorem allEscapes_flatMap_percent {bs : List ℕ} (h : ∀ b ∈ bs, b < 256) (w : List Char) :
    allEscapes (bs.flatMap percent ++ w) = allEscapes w := by
  induction bs with
  | nil => rfl
  | cons b bs ih =>
    rw [List.flatMap_cons, List.append_assoc, allEscapes_percent (h b List.mem_cons_self),
      ih fun b' hb' => h b' (List.mem_cons_of_mem _ hb')]

theorem allEscapes_cons {c : Char} (h : c ≠ '%') (w : List Char) :
    allEscapes (c :: w) = allEscapes w := by
  rw [allEscapes, bne_iff_ne.mpr h, Bool.true_or, Bool.true_and]

/-- **What is encoded counts as encoded.** -/
theorem allEscapes_quotePlus (s w : List Char) :
    allEscapes (quotePlus s ++ w) = allEscapes w := by
  induction s with
  | nil => rfl
  | cons c s ih =>
    show allEscapes (quoteChar c ++ quotePlus s ++ w) = allEscapes w
    rw [List.append_assoc, ← ih, quoteChar]
    split_ifs with hun hsp
    · exact allEscapes_cons (queryChar_ne (queryChar_of_unreserved hun)).1 _
    · exact allEscapes_cons (by decide) _
    · exact allEscapes_flatMap_percent (fun b hb => utf8_lt hb) _

theorem allEscapes_encodeFields (items : List (String × String)) :
    allEscapes (encodeFields items) = true := by
  have hfield : ∀ (kv : String × String) (w : List Char),
      allEscapes (encodeField kv ++ w) = allEscapes w := by
    intro kv w
    show allEscapes (quotePlus kv.1.toList ++ '=' :: quotePlus kv.2.toList ++ w) = _
    rw [List.append_assoc, allEscapes_quotePlus, List.cons_append, allEscapes_cons (by decide),
      allEscapes_quotePlus]
  induction items with
  | nil => rfl
  | cons kv rest ih =>
    cases rest with
    | nil =>
      have h := hfield kv []
      rw [List.append_nil] at h
      exact h
    | cons kv' rest => rw [encodeFields, hfield, allEscapes_cons (by decide), ih]

/-! ### Read back -/

theorem unquote_quotePlus (s w : List Char) :
    unquote (quotePlus s ++ w) = s.flatMap utf8 ++ unquote w := by
  induction s with
  | nil => rfl
  | cons c s ih =>
    show unquote (quoteChar c ++ quotePlus s ++ w) = utf8 c ++ s.flatMap utf8 ++ unquote w
    rw [List.append_assoc, List.append_assoc, ← ih]
    rw [quoteChar]
    split_ifs with hun hsp
    · have hne : c ≠ '%' ∧ c ≠ '+' := by
        constructor <;> rintro rfl <;> exact absurd hun (by decide)
      rw [List.singleton_append, unquote_cons hne.1, plusToSpace, if_neg hne.2]
    · subst hsp
      rw [List.singleton_append, unquote_cons (by decide)]
      rfl
    · exact unquote_flatMap_percent (fun b hb => utf8_lt hb) _

/-- **A text is read back as it was.** -/
theorem unquotePlus_quotePlus (s : List Char) : unquotePlus (quotePlus s) = s := by
  have hquote := unquote_quotePlus s []
  have hdecode := decode_flatMap_utf8 s []
  rw [List.append_nil] at hquote hdecode
  rw [unquotePlus, hquote]
  simpa [unquote, decode, decodeFrom] using hdecode

/-- The characters of an encoded text. -/
theorem mem_quotePlus {x : Char} {s : List Char} (h : x ∈ quotePlus s) :
    unreserved x = true ∨ x = '+' ∨ x = '%' ∨ (hexValue x).isSome := by
  obtain ⟨c, -, hx⟩ := List.mem_flatMap.mp h
  rw [quoteChar] at hx
  split_ifs at hx with hun hsp
  · rw [List.mem_singleton.mp hx]
    exact .inl hun
  · exact .inr (.inl (List.mem_singleton.mp hx))
  · obtain ⟨b, hb, hx⟩ := List.mem_flatMap.mp hx
    exact .inr (.inr (mem_percent (utf8_lt hb) hx))

theorem separators_notMem_quotePlus (s : List Char) :
    '&' ∉ quotePlus s ∧ '=' ∉ quotePlus s := by
  constructor
  · intro h
    exact absurd (mem_quotePlus h) (by decide)
  · intro h
    exact absurd (mem_quotePlus h) (by decide)

theorem amp_notMem_encodeField (kv : String × String) : '&' ∉ encodeField kv := by
  simp only [encodeField, List.mem_append, List.mem_cons, not_or]
  exact ⟨(separators_notMem_quotePlus _).1, by decide, (separators_notMem_quotePlus _).1⟩

/-- The characters of an encoded query. -/
theorem mem_encodeFields {x : Char} {items : List (String × String)} (h : x ∈ encodeFields items) :
    x = '&' ∨ x = '=' ∨ unreserved x = true ∨ x = '+' ∨ x = '%' ∨ (hexValue x).isSome := by
  have hfield : ∀ kv, x ∈ encodeField kv →
      x = '=' ∨ unreserved x = true ∨ x = '+' ∨ x = '%' ∨ (hexValue x).isSome := by
    intro kv hx
    rcases List.mem_append.mp hx with hx | hx
    · exact .inr (mem_quotePlus hx)
    · rcases List.mem_cons.mp hx with rfl | hx
      · exact .inl rfl
      · exact .inr (mem_quotePlus hx)
  induction items with
  | nil => cases h
  | cons kv rest ih =>
    cases rest with
    | nil => exact .inr (hfield kv h)
    | cons kv' rest =>
      rw [encodeFields] at h
      rcases List.mem_append.mp h with h | h
      · exact .inr (hfield kv h)
      · rcases List.mem_cons.mp h with rfl | h
        · exact .inl rfl
        · exact ih h

/-- **An encoded query is sent as it is.** -/
theorem sendQuery_encodeFields (items : List (String × String)) :
    sendQuery (encodeFields items) = encodeFields items := by
  have hquery : ∀ c ∈ encodeFields items, queryChar c = true ∨ c = '%' := by
    intro c hc
    rcases mem_encodeFields hc with rfl | rfl | h | rfl | rfl | h
    · exact .inl (by decide)
    · exact .inl (by decide)
    · exact .inl (queryChar_of_unreserved h)
    · exact .inl (by decide)
    · exact .inr rfl
    · exact .inl (queryChar_of_hexValue h)
  have hash : '#' ∉ encodeFields items := by
    intro hmem
    rcases hquery _ hmem with h | h
    · exact absurd h (by decide)
    · exact absurd h (by decide)
  rw [sendQuery_of_notMem hash, allEscapes_encodeFields]
  have hchar : ∀ c ∈ encodeFields items, encodeChar true c = [c] := by
    intro c hc
    rcases hquery c hc with h | rfl
    · exact encodeChar_of_queryChar h true
    · rfl
  rw [encodeQuery, List.flatMap_congr hchar, List.flatMap_singleton']

/-- A field is never written as nothing. -/
theorem encodeFields_eq_nil_iff {items : List (String × String)} :
    encodeFields items = [] ↔ items = [] := by
  cases items with
  | nil => exact iff_of_true rfl rfl
  | cons kv rest =>
    apply iff_of_false _ (List.cons_ne_nil kv rest)
    cases rest with
    | nil => simp [encodeFields, encodeField]
    | cons kv' rest => simp [encodeFields]

theorem firstItems_eq_nil_iff {args : List (String × String)} :
    firstItems args = [] ↔ args = [] := by
  cases args with
  | nil => exact iff_of_true rfl rfl
  | cons kv rest => exact iff_of_false (List.cons_ne_nil _ _) (List.cons_ne_nil _ _)

theorem parseField_encodeField (kv : String × String) : parseField (encodeField kv) = kv := by
  rw [encodeField, parseField_eq (separators_notMem_quotePlus _).2, unquotePlus_quotePlus,
    unquotePlus_quotePlus, String.ofList_toList, String.ofList_toList]

theorem parseQuery_encodeFields (items : List (String × String)) :
    parseQuery (encodeFields items) = items := by
  have hne : ∀ kv, encodeField kv ≠ [] := fun kv => by simp [encodeField]
  induction items with
  | nil => rfl
  | cons kv rest ih =>
    cases rest with
    | nil =>
      rw [encodeFields, parseQuery_single (amp_notMem_encodeField kv) (hne kv),
        parseField_encodeField]
    | cons kv' rest =>
      rw [encodeFields, parseQuery_cons (amp_notMem_encodeField kv) (hne kv), ih,
        parseField_encodeField]

/-- **An encoded query is read back as it was**, field by field. -/
theorem parseQuery_urlencode (items : List (String × String)) :
    parseQuery (sendQuery (urlencode items).toList) = items := by
  rw [urlencode, String.toList_ofList, sendQuery_encodeFields, parseQuery_encodeFields]

end ResilientMesh
