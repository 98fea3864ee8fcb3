/-
ResilientMesh/ChargeQuery.lean

The query `'user=' + user + '&amount=' + str(price)` that `calculate2` writes,
and the fields that billing reads from it.  The forwarding routes next to it
use `urlencode`; here nothing is escaped.

The first field ends at the user's first `&` or `#`, so both queries always
name one account (`sameAccount`), but it is the user's own exactly if the user
is plain: no `&`, no `#`, no `+`, and no escape that is read as something else
(`accountOf_eq_iff`).  A `%` that opens no escape keeps all the others from
being read as escapes.  For a plain user the amount is the price
(`payable_chargeQuery`), the two readings of it as a number included.
-/
import ResilientMesh.ControlCenter

namespace ResilientMesh

/-- A character that does not end a field. -/
def inField (c : Char) : Bool := c ≠ '&' && c ≠ '#'

/-- Whether what is sent of a user counts as encoded. -/
def sentEncoded (user : String) : Bool := allEscapes (user.toList.takeWhile (· ≠ '#'))

/-- The account that a `user` names in an unescaped query. -/
def accountOf (user : String) : String :=
  String.ofList (unquotePlus (encodeQuery (sentEncoded user) (user.toList.takeWhile inField)))

/-- A user that an unescaped query carries over as it is. -/
def Plain (user : String) : Prop :=
  '&' ∉ user.toList ∧ '#' ∉ user.toList ∧ '+' ∉ user.toList ∧
    (allEscapes user.toList = false ∨ EscapesKept user.toList)

/-! ### The first field -/

/-- Before the fragment a field ends at a `&` only. -/
theorem takeWhile_sent (v : List Char) :
    (v.takeWhile (· ≠ '#')).takeWhile (· ≠ '&') = v.takeWhile inField := by
  rw [List.takeWhile_takeWhile]
  congr 1
  funext c
  simp [inField]

/-- What is sent before the fragment is its first field, alone or followed by
others. -/
theorem encodeQuery_field (encoded : Bool) (v : List Char) :
    encodeQuery encoded v = encodeQuery encoded (v.takeWhile (· ≠ '&')) ∨
      ∃ rest, encodeQuery encoded v
        = encodeQuery encoded (v.takeWhile (· ≠ '&')) ++ '&' :: rest := by
  have hv : v.takeWhile (· ≠ '&') ++ v.dropWhile (· ≠ '&') = v := List.takeWhile_append_dropWhile
  cases h : v.dropWhile (· ≠ '&') with
  | nil =>
    rw [h, List.append_nil] at hv
    exact .inl (by rw [hv])
  | cons c w =>
    have hc : c = '&' := by
      have hne : v.dropWhile (· ≠ '&') ≠ [] := by
        rw [h]
        exact List.cons_ne_nil c w
      have hhead := List.head_dropWhile_not (· ≠ '&') hne
      simp only [h, List.head_cons] at hhead
      simpa using hhead
    subst hc
    rw [h] at hv
    refine .inr ⟨encodeQuery encoded w, ?_⟩
    conv_lhs => rw [← hv]
    rw [encodeQuery_append, encodeQuery_cons]
    rfl

/-- The first field of a query, read back. -/
theorem argsGet_first {k : List Char} (hq : ∀ c ∈ k, queryChar c = true) (hamp : '&' ∉ k)
    (heq : '=' ∉ k) (encoded : Bool) (v : List Char) :
    argsGet (parseQuery (encodeQuery encoded (k ++ '=' :: v))) (String.ofList (unquotePlus k))
      = some (String.ofList (unquotePlus (encodeQuery encoded (v.takeWhile (· ≠ '&'))))) := by
  have hsend : encodeQuery encoded (k ++ '=' :: v) = k ++ '=' :: encodeQuery encoded v := by
    rw [encodeQuery_append, encodeQuery_of_queryChar hq, encodeQuery_cons]
    rfl
  have hfield : '&' ∉ k ++ '=' :: encodeQuery encoded (v.takeWhile (· ≠ '&')) := by
    simp only [List.mem_append, List.mem_cons, not_or]
    refine ⟨hamp, by decide, amp_notMem_encodeQuery ?_ encoded⟩
    exact fun h => absurd (List.mem_takeWhile_imp h) (by decide)
  have hne : k ++ '=' :: encodeQuery encoded (v.takeWhile (· ≠ '&')) ≠ [] := by simp
  rw [hsend]
  rcases encodeQuery_field encoded v with h | ⟨rest, h⟩
  · rw [h, parseQuery_single hfield hne, parseField_eq heq]
    simp [argsGet]
  · rw [h, ← List.cons_append, ← List.append_assoc, parseQuery_cons hfield hne, parseField_eq heq]
    simp [argsGet]

theorem unquotePlus_user : String.ofList (unquotePlus "user".toList) = "user" := by decide +kernel

theorem takeWhile_cons_of_ne {c d : Char} (h : c ≠ d) (w : List Char) :
    (c :: w).takeWhile (· ≠ d) = c :: w.takeWhile (· ≠ d) := by
  rw [List.takeWhile_cons, if_pos (by simpa using h)]

/-- A query that begins with the user names the account of the user's first
field. -/
theorem query_user (v : List Char) :
    argsGet (parseQuery (sendQuery ("user=".toList ++ v))) "user"
      = some (String.ofList (unquotePlus
          (encodeQuery (allEscapes (v.takeWhile (· ≠ '#'))) (v.takeWhile inField)))) := by
  have hquery : ("user=".toList ++ v).takeWhile (· ≠ '#')
      = "user".toList ++ '=' :: v.takeWhile (· ≠ '#') := by
    rw [List.takeWhile_append_of_pos (by simp)]
    rfl
  have hall : allEscapes ("user".toList ++ '=' :: v.takeWhile (· ≠ '#'))
      = allEscapes (v.takeWhile (· ≠ '#')) := by
    rw [allEscapes_append (by decide)]
    rfl
  have h := argsGet_first (by simp [queryChar] : ∀ c ∈ "user".toList, queryChar c = true)
    (by decide) (by decide) (allEscapes (v.takeWhile (· ≠ '#'))) (v.takeWhile (· ≠ '#'))
  rw [unquotePlus_user, takeWhile_sent] at h
  rw [sendQuery, hquery, hall]
  exact h

theorem accountQuery_user (user : String) :
    (billingRequest .get (accountQuery user)).get "user" = some (accountOf user) := by
  rw [Request.get, billingRequest, accountQuery, String.toList_append]
  exact query_user user.toList

/-- What follows the user in the query of a charge has no part in the user's
field. -/
theorem takeWhile_user (u w : List Char) :
    (u ++ '&' :: w).takeWhile inField = u.takeWhile inField := by
  induction u with
  | nil => rfl
  | cons c u ih => cases hc : inField c <;> simp [hc, ih]

/-- A price without percent signs does not decide whether the query counts as
encoded. -/
theorem allEscapes_charge (u : List Char) {p : List Char} (hp : '%' ∉ p) :
    allEscapes ((u ++ '&' :: ("amount=".toList ++ p)).takeWhile (· ≠ '#'))
      = allEscapes (u.takeWhile (· ≠ '#')) := by
  rw [List.takeWhile_append]
  split_ifs with hlen
  · have hu : u.takeWhile (· ≠ '#') = u := (List.takeWhile_prefix _).eq_of_length hlen
    have hrest : ('&' :: ("amount=".toList ++ p)).takeWhile (· ≠ '#')
        = '&' :: ("amount=".toList ++ p.takeWhile (· ≠ '#')) := by
      rw [takeWhile_cons_of_ne (by decide), List.takeWhile_append_of_pos (by simp)]
    have hamount : '%' ∉ '&' :: ("amount=".toList ++ p.takeWhile (· ≠ '#')) := by
      simp only [List.mem_cons, List.mem_append, not_or]
      exact ⟨by decide, by decide, fun h => hp ((List.takeWhile_prefix _).subset h)⟩
    rw [hrest, allEscapes_append (by decide), allEscapes_of_notMem hamount, Bool.and_true, hu]
  · rfl

theorem chargeQuery_user (user : String) {price : JsonValue} (hp : '%' ∉ price.pyStr.toList) :
    (billingRequest .post (chargeQuery user price)).get "user" = some (accountOf user) := by
  have h := query_user (user.toList ++ '&' :: ("amount=".toList ++ price.pyStr.toList))
  rw [allEscapes_charge user.toList hp, takeWhile_user] at h
  rw [Request.get, billingRequest, chargeQuery]
  simp only [String.toList_append, List.append_assoc]
  exact h

/-- **The account that is charged is the account that was looked up.** -/
theorem sameAccount (user : String) {price : JsonValue} (hp : '%' ∉ price.pyStr.toList) :
    (billingRequest .post (chargeQuery user price)).get "user"
      = (billingRequest .get (accountQuery user)).get "user" := by
  rw [chargeQuery_user user hp, accountQuery_user]

/-! ### The named account -/

/-- What is read back is no longer than what was written. -/
theorem length_unquotePlus_encodeQuery (encoded : Bool) (s : List Char) :
    (unquotePlus (encodeQuery encoded s)).length ≤ s.length := by
  cases encoded with
  | true =>
    rw [unquotePlus, unquote_encodeQuery_true]
    exact length_decode_unquote s
  | false => rw [unquotePlus_encodeQuery_false, List.length_map]

theorem plus_notMem_map (s : List Char) : '+' ∉ s.map plusToSpace := by
  intro h
  obtain ⟨c, -, hc⟩ := List.mem_map.mp h
  unfold plusToSpace at hc
  split_ifs at hc with hcond
  · cases hc
  · exact hcond hc

theorem takeWhile_inField {user : String} (hamp : '&' ∉ user.toList) (hash : '#' ∉ user.toList) :
    user.toList.takeWhile inField = user.toList := by
  refine List.takeWhile_eq_self_iff.mpr ?_
  intro c hc
  have hne : c ≠ '&' ∧ c ≠ '#' := ⟨fun e => hamp (e ▸ hc), fun e => hash (e ▸ hc)⟩
  simp [inField, hne]

theorem sentEncoded_eq {user : String} (hash : '#' ∉ user.toList) :
    sentEncoded user = allEscapes user.toList := by
  rw [sentEncoded]
  congr 1
  refine List.takeWhile_eq_self_iff.mpr ?_
  intro c hc
  rw [decide_eq_true_eq]
  rintro rfl
  exact hash hc

/-- Reserved characters cut the user short or are changed, and an escape that
is read at all is kept only if it is read as itself. -/
theorem plain_of_accountOf {user : String} (h : accountOf user = user) : Plain user := by
  have hread : unquotePlus (encodeQuery (sentEncoded user) (user.toList.takeWhile inField))
      = user.toList := by
    conv_rhs => rw [← h, accountOf, String.toList_ofList]
  -- what is read back is no longer than the first field, so the field is the whole user
  have htake : user.toList.takeWhile inField = user.toList := by
    refine (List.takeWhile_prefix inField).eq_of_length_le ?_
    have hle := length_unquotePlus_encodeQuery (sentEncoded user) (user.toList.takeWhile inField)
    rwa [hread] at hle
  have hfield : ∀ c ∈ user.toList, inField c = true := by
    intro c hc
    rw [← htake] at hc
    exact List.mem_takeWhile_imp hc
  have hamp : '&' ∉ user.toList := fun hc => absurd (hfield _ hc) (by decide)
  have hash : '#' ∉ user.toList := fun hc => absurd (hfield _ hc) (by decide)
  rw [htake, sentEncoded_eq hash] at hread
  refine ⟨hamp, hash, ?_⟩
  cases hall : allEscapes user.toList with
  | false =>
    rw [hall, unquotePlus_encodeQuery_false] at hread
    exact ⟨hread ▸ plus_notMem_map user.toList, .inl rfl⟩
  | true =>
    rw [hall, unquotePlus, unquote_encodeQuery_true] at hread
    obtain ⟨hplus, hkept⟩ := (decode_unquote_eq_iff hall).mp hread
    exact ⟨hplus, .inr hkept⟩

/-- **The account is the user's own exactly for a plain user.** -/
theorem accountOf_eq_iff (user : String) : accountOf user = user ↔ Plain user := by
  refine ⟨plain_of_accountOf, ?_⟩
  rintro ⟨hamp, hash, hplus, hesc⟩
  rw [accountOf, takeWhile_inField hamp hash, sentEncoded_eq hash]
  cases hall : allEscapes user.toList with
  | false =>
    rw [unquotePlus_encodeQuery_false, map_plusToSpace_eq_self hplus, String.ofList_toList]
  | true =>
    have hkept := hesc.resolve_left (by rw [hall]; decide)
    rw [unquotePlus, unquote_encodeQuery_true, (decode_unquote_eq_iff hall).mpr ⟨hplus, hkept⟩,
      String.ofList_toList]

instance (user : String) : Decidable (Plain user) :=
  decidable_of_iff (accountOf user = user) (accountOf_eq_iff user)

/-- A user without reserved characters is plain. -/
theorem plain_of_notMem {user : String}
    (h : ∀ c ∈ user.toList, c ≠ '&' ∧ c ≠ '#' ∧ c ≠ '+' ∧ c ≠ '%') : Plain user := by
  have hpercent : '%' ∉ user.toList := fun hc => (h _ hc).2.2.2 rfl
  have hplus : '+' ∉ user.toList := fun hc => (h _ hc).2.2.1 rfl
  refine ⟨fun hc => (h _ hc).1 rfl, fun hc => (h _ hc).2.1 rfl, hplus, .inr ?_⟩
  exact escapesKept_of_notMem hpercent

/-! ### The amount -/

theorem price_chars_int (n : ℤ) :
    ∀ c ∈ (JsonValue.int n).pyStr.toList, c ≠ '&' ∧ c ≠ '#' ∧ c ≠ '%' := by
  intro c hc
  have hchar : isIntChar c = true := by
    cases n with
    | ofNat k =>
      have htext : (JsonValue.int (Int.ofNat k)).pyStr.toList = Nat.toDigits 10 k := Nat.toList_repr
      rw [htext] at hc
      have hdigit := Nat.isDigit_of_mem_toDigits (by decide) (by decide) hc
      simp [isIntChar, hdigit]
    | negSucc k =>
      have htext : (JsonValue.int (Int.negSucc k)).pyStr.toList
          = '-' :: Nat.toDigits 10 (k + 1) := by
        show ("-" ++ Nat.repr (k + 1)).toList = _
        rw [String.toList_append, Nat.toList_repr]
        rfl
      rw [htext] at hc
      rcases List.mem_cons.mp hc with rfl | hc
      · rfl
      · have hdigit := Nat.isDigit_of_mem_toDigits (by decide) (by decide) hc
        simp [isIntChar, hdigit]
  refine ⟨?_, ?_, ?_⟩ <;>
  · rintro rfl
    exact absurd hchar (by decide)

/-- A price that is compared with 1 is written without reserved characters. -/
theorem price_chars {price : JsonValue} (h : price.floatLtOne = .ok false) :
    ∀ c ∈ price.pyStr.toList, c ≠ '&' ∧ c ≠ '#' ∧ c ≠ '%' := by
  cases price with
  | null => simp [JsonValue.floatLtOne] at h
  | container text => simp [JsonValue.floatLtOne] at h
  | bool b => cases b <;> simp [JsonValue.pyStr]
  | int n => exact price_chars_int n
  | float x =>
    intro c hc
    have hfloat := x.repr_chars c hc
    refine ⟨?_, ?_, ?_⟩ <;>
    · rintro rfl
      exact absurd hfloat (by decide)
  | str s =>
    simp only [JsonValue.floatLtOne] at h
    cases hf : pyFloat s.toList with
    | none => simp [hf] at h
    | some f =>
      intro c hc
      have hchars := pyFloat_chars hf c hc
      exact ⟨hchars.1, hchars.2.1, hchars.2.2.1⟩

theorem percent_notMem_price {price : JsonValue} (h : price.floatLtOne = .ok false) :
    '%' ∉ price.pyStr.toList :=
  fun hc => (price_chars h _ hc).2.2 rfl

/-- For a plain user, the amount that billing reads is the price's text. -/
theorem chargeQuery_amount {user : String} (h : Plain user) {price : JsonValue}
    (hchars : ∀ c ∈ price.pyStr.toList, c ≠ '&' ∧ c ≠ '#' ∧ c ≠ '%') :
    (billingRequest .post (chargeQuery user price)).get "amount"
      = some (String.ofList (price.pyStr.toList.map plusToSpace)) := by
  obtain ⟨hamp, hash, -, -⟩ := h
  have hpercent : '%' ∉ price.pyStr.toList := fun hc => (hchars _ hc).2.2 rfl
  have hprice : price.pyStr.toList.takeWhile (· ≠ '&') = price.pyStr.toList := by
    refine List.takeWhile_eq_self_iff.mpr ?_
    intro c hc
    simp [hchars c hc]
  have hwhole : (chargeQuery user price).toList
      = "user=".toList ++ user.toList ++ '&' :: ("amount".toList ++ '=' :: price.pyStr.toList) := by
    rw [chargeQuery]
    simp only [String.toList_append, List.append_assoc]
    rfl
  have hnone : '#' ∉ (chargeQuery user price).toList := by
    rw [hwhole]
    simp only [List.mem_append, List.mem_cons, not_or]
    exact ⟨⟨by decide, hash⟩, by decide, by decide, by decide, fun hc => (hchars _ hc).2.1 rfl⟩
  generalize hall : allEscapes (chargeQuery user price).toList = encoded
  -- the user's field, and then the amount's
  have hfirst := argsGet_first (by simp [queryChar] : ∀ c ∈ "amount".toList, queryChar c = true)
    (by decide) (by decide) encoded price.pyStr.toList
  rw [hprice, unquotePlus_encodeQuery hpercent,
    show String.ofList (unquotePlus "amount".toList) = "amount" by decide +kernel] at hfirst
  have huser : '&' ∉ "user=".toList ++ encodeQuery encoded user.toList := by
    simp only [List.mem_append, not_or]
    exact ⟨by decide, amp_notMem_encodeQuery hamp encoded⟩
  have hne : "user=".toList ++ encodeQuery encoded user.toList ≠ [] := by simp
  have hsend : encodeQuery encoded (chargeQuery user price).toList
      = "user=".toList ++ encodeQuery encoded user.toList
          ++ '&' :: encodeQuery encoded ("amount".toList ++ '=' :: price.pyStr.toList) := by
    rw [hwhole, encodeQuery_append, encodeQuery_append, encodeQuery_cons,
      encodeQuery_of_queryChar (by simp [queryChar])]
    rfl
  have hkey : (parseField ("user=".toList ++ encodeQuery encoded user.toList)).1 = "user" := by
    rw [show "user=".toList ++ encodeQuery encoded user.toList
      = "user".toList ++ '=' :: encodeQuery encoded user.toList from rfl, parseField_eq (by decide)]
    exact unquotePlus_user
  rw [Request.get, billingRequest, sendQuery_of_notMem hnone, hall, hsend,
    parseQuery_cons huser hne, argsGet, List.lookup_cons, hkey]
  exact hfirst

/-- What billing makes of a price that is sent as it is. -/
theorem payable_text {user : String} (h : Plain user) {price : JsonValue}
    (hchars : ∀ c ∈ price.pyStr.toList, c ≠ '&' ∧ c ≠ '#' ∧ c ≠ '%') {amount : ℤ}
    (hpay : payable (billingRequest .post (chargeQuery user price)) = some amount) :
    pyInt (price.pyStr.toList.map plusToSpace) = some amount := by
  obtain ⟨hnamed, -⟩ := payable_eq_some_iff.mp hpay
  rw [chargeQuery_amount h hchars, tryToInt, String.toList_ofList] at hnamed
  exact Except.ok.inj hnamed

/-- A positive integer is charged as it is: its text is its digits. -/
theorem payable_int {user : String} (h : Plain user) {n : ℤ} (hpos : 0 < n) {amount : ℤ}
    (hpay : payable (billingRequest .post (chargeQuery user (.int n))) = some amount) :
    n = amount := by
  obtain ⟨k, rfl⟩ := Int.eq_ofNat_of_zero_le hpos.le
  have htext : (JsonValue.int (k : ℤ)).pyStr.toList = Nat.toDigits 10 k := Nat.toList_repr
  have hdigit : ∀ c ∈ Nat.toDigits 10 k, c.isDigit = true := fun c hc =>
    Nat.isDigit_of_mem_toDigits (by decide) (by decide) hc
  have hint := payable_text h (price_chars_int _) hpay
  have hplus : '+' ∉ Nat.toDigits 10 k := fun hc => absurd (hdigit _ hc) (by decide)
  rw [htext, map_plusToSpace_eq_self hplus] at hint
  have hvalue : intValue (Nat.toDigits 10 k) = some (k : ℤ) := intValue_toDigits k
  rw [(pyInt_eq_some_iff.mp hint).2] at hvalue
  exact (Option.some.inj hvalue).symm

/-- A float never is: its text shows a letter or a point, which `int` refuses. -/
theorem not_payable_float {user : String} (h : Plain user) {x : PyFloat}
    (hprice : (JsonValue.float x).floatLtOne = .ok false) (amount : ℤ) :
    payable (billingRequest .post (chargeQuery user (.float x))) ≠ some amount := by
  intro hpay
  have hint := payable_text h (price_chars hprice) hpay
  obtain ⟨c, hc, hletter⟩ := x.repr_float
  have hascii := (isAlpha_not hletter).2.2.2.2
  exact pyInt_ne_some (List.mem_map.mpr ⟨c, hc, hascii⟩) hletter hint

/-- **For a plain user, an amount that can be charged is the price**, as a
number, whatever kind of JSON value the price is. -/
theorem payable_chargeQuery {user : String} (h : Plain user) {price : JsonValue}
    (hprice : price.floatLtOne = .ok false) {amount : ℤ}
    (hpay : payable (billingRequest .post (chargeQuery user price)) = some amount) :
    price.number = some (amount : ℚ) := by
  cases price with
  | null => simp [JsonValue.floatLtOne] at hprice
  | container text => simp [JsonValue.floatLtOne] at hprice
  | bool b =>
    cases b with
    | false => simp [JsonValue.floatLtOne] at hprice
    | true =>
      have hint := payable_text h (price_chars hprice) hpay
      have hnone : pyInt ((JsonValue.bool true).pyStr.toList.map plusToSpace) = none := by
        decide +kernel
      rw [hnone] at hint
      cases hint
  | int n =>
    have hpos : ¬ n < 1 := by
      simp only [JsonValue.floatLtOne] at hprice
      split_ifs at hprice with hover
      simpa using hprice
    rw [← payable_int h (by omega) hpay]
    rfl
  | float x => exact absurd hpay (not_payable_float h hprice amount)
  | str s =>
    have hint := payable_text h (price_chars hprice) hpay
    simp only [JsonValue.floatLtOne] at hprice
    cases hf : pyFloat s.toList with
    | none => simp [hf] at hprice
    | some f =>
      rw [JsonValue.number, hf, Option.bind_some, pyFloat_eq_of_pyInt hf hint]
      rfl

end ResilientMesh
