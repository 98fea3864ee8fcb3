/-
ResilientMesh/Http.lean

What the Python services exchange: JSON values, response bodies, requests and
responses, and the exceptions a handler may end in.

A JSON value keeps what the handlers can see of it.  A float is its value and
the text that `str` makes of it; a list or an object inside a body is only
ever turned into text, so its text is all that is kept.
-/
import ResilientMesh.PyNumber

namespace ResilientMesh

/-- A Python float: its value, and what `repr` writes for it.  The text always
shows that it is a float, by a point, an exponent, or a special name. -/
structure PyFloat where
  value : FloatText
  repr : String
  repr_chars : ∀ c ∈ repr.toList, isFloatChar c = true
  repr_float : ∃ c ∈ repr.toList, (c.isAlpha || c == '.') = true

/-- A value inside a JSON object.  A text here has no lone surrogate, which a
JSON escape can spell; an integer of more than 4300 digits no body can have,
since Flask refuses it. -/
inductive JsonValue
  | null
  | bool (b : Bool)
  | int (n : ℤ)
  | float (x : PyFloat)
  | str (s : String)
  | container (text : String)

/-- A JSON object, as the dictionary it is read into. -/
abbrev JsonObject := List (String × JsonValue)

/-- The exceptions that end a handler. -/
inductive PyError
  | keyError
  | typeError
  | valueError
  | overflowError
  | connectionError
  deriving DecidableEq

/-- `str(v)`. -/
def JsonValue.pyStr : JsonValue → String
  | null => "None"
  | bool true => "True"
  | bool false => "False"
  | int n => toString n
  | float x => x.repr
  | str s => s
  | container text => text

/-- An integer whose nearest double is infinite: `float` raises on it. -/
def floatOverflows (n : ℤ) : Bool := 2 ^ 1024 - 2 ^ 970 ≤ n.natAbs

/-- `float(v) < 1`.  A double is compared exactly, an integer is below one
exactly if its double is, and a text is rounded first. -/
def JsonValue.floatLtOne : JsonValue → Except PyError Bool
  | null => .error .typeError
  | bool b => .ok (!b)
  | int n => if floatOverflows n then .error .overflowError else .ok (n < 1)
  | float x =>
    match x.value with
    | .nan => .ok false
    | .inf neg => .ok neg
    | .dec q => .ok (q < 1)
  | str s =>
    match pyFloat s.toList with
    | none => .error .valueError
    | some f => .ok f.ltOne
  | container _ => .error .typeError

/-- The number that a float literal denotes, if it denotes one. -/
def FloatText.number : FloatText → Option ℚ
  | dec q => some q
  | _ => none

/-- The number that a JSON value denotes, if it denotes one. -/
def JsonValue.number : JsonValue → Option ℚ
  | null => none
  | bool b => some (if b then 1 else 0)
  | int n => some n
  | float x => x.value.number
  | str s => (pyFloat s.toList).bind FloatText.number
  | container _ => none

/-- The body of a response: a JSON object, or any other text. -/
inductive Body
  | object (fields : JsonObject)
  | text (s : String)

/-- `json.loads(body)['balance']`; it raises on what is no JSON, no object, or
has no balance. -/
def Body.balance : Body → Except PyError JsonValue
  | object fields =>
    match fields.lookup "balance" with
    | some v => .ok v
    | none => .error .keyError
  | text _ => .error .valueError

/-- An integer inside a JSON object is written in decimal. -/
def JsonValue.writable : JsonValue → Bool
  | int n => FitsDigits n
  | _ => true

/-- The body can be turned into text; `ValueError` otherwise. -/
def Body.writable : Body → Bool
  | object fields => fields.all fun field => field.2.writable
  | text _ => true

structure Response where
  status : ℕ
  body : Body

inductive Method
  | get
  | head
  | post
  | delete
  deriving DecidableEq

/-- A request to a route: its method and the fields of its query. -/
structure Request where
  method : Method
  args : List (String × String)

/-- `request.args.get(key)`. -/
def Request.get (req : Request) (key : String) : Option String := argsGet req.args key

/-- `abort(403)`. -/
def forbidden : Response := ⟨403, .text "Forbidden"⟩

/-- What the client of a handler receives: an exception is answered 500. -/
def answer : Except PyError Response → Response
  | .ok r => r
  | .error _ => ⟨500, .text "Internal Server Error"⟩

@[simp] theorem answer_ok (r : Response) : answer (.ok r) = r := rfl

@[simp] theorem answer_error_status (e : PyError) : (answer (.error e)).status = 500 := rfl

end ResilientMesh
