import FormReader.Number.Binary64

/-! # JSON values — the data of token files

    Integers are unbounded and apart from numbers with a fraction or an
    exponent; the members of an object keep their order, and a name occurs once. -/

namespace FormReader

/-- A JSON value. -/
inductive Json where
  | null
  | bool (b : Bool)
  | integer (n : Int)
  | real (x : Binary64)
  | string (t : Text)
  | array (items : List Json)
  | object (members : List (Text × Json))

namespace Json

/-- The members of an object in order. -/
abbrev Members := List (Text × Json)

/-- The value of a member, if the name occurs. -/
def Members.find? (ms : Members) (name : Text) : Option Json :=
  (List.find? (fun m => m.1 = name) ms).map (·.2)

/-- A name that occurs gets a new value at its place, a new name goes to the end. -/
def Members.put (ms : Members) (name : Text) (v : Json) : Members :=
  if ms.any (fun m => m.1 = name) then ms.map fun m => if m.1 = name then (name, v) else m
  else ms ++ [(name, v)]

/-- The members with every name once: its first place and its last value. -/
def Members.settled (ms : Members) : Members :=
  ms.foldl (fun done m => Members.put done m.1 m.2) []

end Json

end FormReader
