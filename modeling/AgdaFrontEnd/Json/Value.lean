import AgdaFrontEnd.Binary64

/-!
# JSON values

* `Json`: the values; an object keeps its members in order and holds each key once.
* `Json.put`: the members with one key set: in place if it is there, at the end if not.
* `Json.member?`: the value of a key.
-/

namespace AgdaFrontEnd

/-- A JSON value.  Whole numbers and floating-point numbers are kept apart. -/
inductive Json where
  | null
  | bool (b : Bool)
  | int (n : Int)
  | float (x : Binary64)
  | string (t : Text)
  | array (items : List Json)
  | object (members : List (Text × Json))
  deriving Repr, Inhabited

namespace Json

/-- The members with `key` set to `value`. -/
def put (key : Text) (value : Json) : List (Text × Json) → List (Text × Json)
  | [] => [(key, value)]
  | (k, v) :: rest => if k = key then (k, value) :: rest else (k, v) :: put key value rest

/-- The value of `key` among the members. -/
def member? (key : Text) (members : List (Text × Json)) : Option Json :=
  (members.find? fun m => m.1 = key).map (·.2)

/-- Setting a key is seen at that key only. -/
theorem member?_put (key key' : Text) (value : Json) (members : List (Text × Json)) :
    member? key' (put key value members) =
      if key = key' then some value else member? key' members := by
  induction members with
  | nil => by_cases h : key = key' <;> simp [put, member?, h]
  | cons m rest ih =>
    obtain ⟨k, v⟩ := m
    by_cases hk : k = key
    · subst hk
      by_cases h : k = key' <;> simp [put, member?, h]
    · simp only [put, hk, if_false]
      by_cases h : k = key'
      · subst h
        simp [member?, Ne.symm hk]
      · simpa [member?, h] using ih

end Json

end AgdaFrontEnd
