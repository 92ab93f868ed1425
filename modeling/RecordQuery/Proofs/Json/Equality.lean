import RecordQuery.Json
import RecordQuery.Proofs.Formula.Equality

/-!
# Equality of JSON Values

A value that can be written as JSON holds no float that is no number, and no object in it has
two members of one name. Such a value is equal to itself, whatever order its members are in.

## Main results

* `Json.same_self` — a well-formed value is equal to itself.
-/

namespace RecordQuery

namespace Json

mutual

/-- Whether a value can be written as JSON: floats are numbers, and the members of an object
have names of their own. -/
def WellFormed : Json → Prop
  | .float value => value.isNaN = false
  | .array items => WellFormedItems items
  | .object members => (members.map Prod.fst).Nodup ∧ WellFormedMembers members
  | .null | .boolean _ | .integer _ | .string _ => True

/-- Whether every item can be written as JSON. -/
def WellFormedItems : List Json → Prop
  | [] => True
  | item :: rest => WellFormed item ∧ WellFormedItems rest

/-- Whether the value of every member can be written as JSON. -/
def WellFormedMembers : List (String × Json) → Prop
  | [] => True
  | (_, value) :: rest => WellFormed value ∧ WellFormedMembers rest

end

/-- What is an item can be written as JSON. -/
theorem WellFormedItems.of_mem {items : List Json} {item : Json} (h : WellFormedItems items)
    (hmem : item ∈ items) : item.WellFormed := by
  induction items with
  | nil => cases hmem
  | cons first rest ih =>
      obtain rfl | hrest := List.mem_cons.mp hmem
      · exact h.1
      · exact ih h.2 hrest

/-- What is under a name can be written as JSON. -/
theorem WellFormedMembers.of_mem {members : List (String × Json)} {name : String} {value : Json}
    (h : WellFormedMembers members) (hmem : (name, value) ∈ members) : value.WellFormed := by
  induction members with
  | nil => cases hmem
  | cons first rest ih =>
      obtain rfl | hrest := List.mem_cons.mp hmem
      · exact h.1
      · exact ih h.2 hrest

mutual

/-- **A well-formed value is equal to itself.** -/
theorem same_self (value : Json) (h : value.WellFormed) : value.same value = true := by
  cases value with
  | null => rfl
  | boolean value | integer value | string value => exact beq_self_eq_true value
  | float value => exact Binary.same_self_iff.mpr h
  | array items => exact sameItems_self items h
  | object members =>
      obtain ⟨hnodup, hvalues⟩ := h
      rw [same, beq_self_eq_true, Bool.true_and]
      refine sameMembers_self members hvalues fun name value hmember => ?_
      exact (Entries.find?_eq_some_iff hnodup).mpr hmember

theorem sameItems_self (items : List Json) (h : WellFormedItems items) :
    sameItems items items = true := by
  cases items with
  | nil => rfl
  | cons item rest =>
      rw [sameItems, same_self item h.1, sameItems_self rest h.2]
      rfl

/-- Members that are found among others have equal partners there. -/
theorem sameMembers_self (members : List (String × Json)) (h : WellFormedMembers members)
    {others : List (String × Json)}
    (hfound : ∀ name value, (name, value) ∈ members → Entries.find? name others = some value) :
    sameMembers members others = true := by
  cases members with
  | nil => rfl
  | cons member rest =>
      obtain ⟨name, value⟩ := member
      have hrest := sameMembers_self rest h.2 fun name' value' hmember =>
        hfound name' value' (List.mem_cons_of_mem _ hmember)
      rw [sameMembers, hfound name value List.mem_cons_self, hrest]
      simp only [same_self value h.1, Bool.true_and]

end

end Json

end RecordQuery
