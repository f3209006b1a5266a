import HerdBook.Concept.Call

/-!
# Calls by name

Besides its own actions every concept answers three calls about itself: `perform` performs the
action it is told by name, `query` does so for a query, and `_lookup` looks an action up. Since
they can be told to perform each other, a call by name is first resolved to the call that it ends
up as.
-/

namespace HerdBook

/-- What a call by name ends up as. -/
inductive Target where
  | action (name : String) (args : Value)
  | lookUp (name : String)
  deriving Inhabited

namespace Target

/-- The names of the calls that every concept answers. -/
def common : List String := ["perform", "query", "_lookup"]

/-- Whether a name is kept from callers. -/
def isHidden (name : String) : Bool := name.startsWith "__"

/-- A value as the name of an action. -/
def asName : Value → Except Fault String
  | .str s => .ok s
  | _ => .error (.misuse .attribute)

/-- The fault of a query whose name does not mark it as one. -/
def impureQuery : Fault := .raised "ValueError" "Query names must start with '_' to be pure"

/-- A value found in a table of fields is smaller than the table. -/
theorem sizeOf_get?_lt {key : String} {fields : Fields} {v : Value}
    (h : Table.get? key fields = some v) : sizeOf v < sizeOf fields := by
  induction fields with
  | nil => simp at h
  | cons entry rest ih =>
    obtain ⟨k, w⟩ := entry
    by_cases hk : k = key
    · simp only [Table.get?, hk, if_true, Option.some.injEq] at h
      subst h
      simp only [List.cons.sizeOf_spec, Prod.mk.sizeOf_spec]
      omega
    · simp only [Table.get?, hk, if_false] at h
      have := ih h
      simp only [List.cons.sizeOf_spec]
      omega

/-- The call that a call by name ends up as; `own` says which names the concept itself defines. -/
def resolve (own : String → Bool) (action : String) (args : Value) : Except Fault Target :=
  if own action || !common.contains action then .ok (.action action args)
  else
    match args with
    | .object fields =>
      if action = "_lookup" then do
        Arguments.exactly ["name"] fields
        return .lookUp (← asName (← Arguments.required fields "name"))
      else do
        let parameter := if action = "query" then "qname" else "action"
        Arguments.exactly [parameter, "input_map"] fields
        match _h : Table.get? "input_map" fields with
        | none => .error (.misuse .type)
        | some input =>
          let name ← asName (← Arguments.required fields parameter)
          if action = "query" && !name.startsWith "_" then .error impureQuery
          else resolve own name input
    | _ => .error (.misuse .type)
termination_by sizeOf args
decreasing_by
  have := sizeOf_get?_lt _h
  simp only [Value.object.sizeOf_spec]
  omega

end Target

end HerdBook
