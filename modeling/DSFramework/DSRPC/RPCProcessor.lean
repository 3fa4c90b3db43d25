/-!
# The table of services

`m_serviceProcedures` maps a service's name to its check and execute functions. A registered pair
is known by a number; `none` is the pair of empty functions that `operator[]` inserts for a name
it does not find, and calling one of those throws `std::bad_function_call`.
-/

namespace DSFramework.DSRPC

/-- `m_serviceProcedures`. -/
abbrev Procedures := List (String × Option Nat)

namespace RPCProcessor

/-- `m_serviceProcedures.find(serviceName)`. -/
def find (serviceName : String) (procedures : Procedures) : Option (Option Nat) :=
  (procedures.find? (·.1 == serviceName)).map Prod.snd

/-- `RegisterService`: only the first registration of a name counts. -/
def registerService (serviceName : String) (functions : Nat) (procedures : Procedures) :
    Procedures :=
  if (find serviceName procedures).isNone then procedures ++ [(serviceName, some functions)]
  else procedures

/-- `SearchService`. -/
def searchService (serviceName : String) (procedures : Procedures) : Bool :=
  (find serviceName procedures).isSome

/-- `m_serviceProcedures[serviceName]`: the table afterwards, and the functions found. -/
def subscript (serviceName : String) (procedures : Procedures) : Procedures × Option Nat :=
  match find serviceName procedures with
  | some functions => (procedures, functions)
  | none => (procedures ++ [(serviceName, none)], none)

/-- Is the service registered, with functions that can be called? -/
def registered (serviceName : String) (procedures : Procedures) : Bool :=
  (find serviceName procedures).any Option.isSome

theorem registered_of_find {serviceName : String} {procedures : Procedures} {functions : Nat}
    (h : find serviceName procedures = some (some functions)) :
    registered serviceName procedures = true := by
  rw [registered, h]
  rfl

/-- What a name finds behind a new entry. -/
theorem lookup_append {β : Type} (name serviceName : String) (x : β) (entries : List (String × β)) :
    ((entries ++ [(serviceName, x)]).find? (·.1 == name)).map Prod.snd =
      ((entries.find? (·.1 == name)).map Prod.snd).or
        (if serviceName = name then some x else none) := by
  rw [List.find?_append]
  cases entries.find? (·.1 == name) with
  | some entry => rfl
  | none =>
    by_cases heq : serviceName = name
    · simp only [if_pos heq, Option.none_or, Option.map_none, List.find?_cons,
        beq_iff_eq.mpr heq, Option.map_some]
    · simp only [if_neg heq, Option.none_or, Option.map_none, List.find?_cons,
        beq_eq_false_iff_ne.mpr heq, List.find?_nil]

theorem find_append (name serviceName : String) (functions : Option Nat)
    (procedures : Procedures) : find name (procedures ++ [(serviceName, functions)]) =
      (find name procedures).or (if serviceName = name then some functions else none) :=
  lookup_append name serviceName functions procedures

/-- The entry that `operator[]` inserts registers nothing. -/
theorem registered_subscript (name serviceName : String) (procedures : Procedures) :
    registered name (subscript serviceName procedures).1 = registered name procedures := by
  unfold subscript
  split
  case h_1 => rfl
  case h_2 hfind =>
    rw [registered, registered, find_append]
    cases hname : find name procedures with
    | some functions => rfl
    | none => split <;> rfl

/-- `operator[]` finds functions that can be called where the service is registered. -/
theorem subscript_registered (serviceName : String) (procedures : Procedures) :
    (subscript serviceName procedures).2.isSome = registered serviceName procedures := by
  unfold subscript registered
  split
  case h_1 functions hfind => rw [hfind, Option.any_some]
  case h_2 hfind => rw [hfind, Option.any_none, Option.isSome_none]

end RPCProcessor

end DSFramework.DSRPC
