/-!
# Tables of a configuration text

A configuration text defines a table. A table inside it can be written out in braces, opened by a
header, implied by the header of a table further inside, or made by a dotted key, and it depends on
this whether later lines may add to it (`descend`):

- a table in braces is complete where it stands;
- a header may open a table once, and it may open one that was only implied;
- a dotted key may add to a table that dotted keys have made, and to no other one.
-/

namespace ReplicaIntake.Toml

/-- How a table came about. -/
inductive Origin where
  /-- Written in braces. -/
  | inline
  /-- Opened by a header. -/
  | header
  /-- Implied by the header of a table inside it. -/
  | implied
  /-- Made by a dotted key. -/
  | dotted
  deriving DecidableEq

/-- A value. Of a number with a fraction and of a date or time only the form is of interest. -/
inductive Value where
  | integer (n : Int)
  /-- A number with a fraction or an exponent, or one that is infinite or no number at all. -/
  | fraction
  | boolean (b : Bool)
  | text (s : String)
  /-- A date, a time, or both. -/
  | moment
  /-- An array that is written as a value. -/
  | array (items : List Value)
  | table (origin : Origin) (members : List (String × Value))
  /-- An array of tables that are opened by headers, latest first. -/
  | tables (elements : List (List (String × Value)))

/-- The members of a table, in the order of their first mention. -/
abbrev Members := List (String × Value)

/-- The members with `v` under the key `k`, in the place of the old value if there is one. -/
def assign (k : String) (v : Value) : Members → Members
  | [] => [(k, v)]
  | (k', v') :: rest => if k = k' then (k, v) :: rest else (k', v') :: assign k v rest

/-- Changes the members of the table at the end of a path by `change`, which also gets its origin.
Tables that are missing on the way are made. On the path of a dotted key there may be no table that
was opened by a header. -/
def descend (isDotted : Bool) (change : Origin → Members → Option Members) :
    (path : List String) → Origin → Members → Option Members
  | [], origin, members => change origin members
  | k :: path, _, members =>
    match members.lookup k with
    | none =>
      let origin := if isDotted then .dotted else .implied
      (descend isDotted change path origin []).map fun inner => assign k (.table origin inner) members
    | some (.table origin inner) =>
      if origin = .inline ∨ (isDotted ∧ origin = .header) then none
      else
        (descend isDotted change path origin inner).map fun inner =>
          assign k (.table origin inner) members
    | some (.tables (latest :: earlier)) =>
      (descend isDotted change path .header latest).map fun latest =>
        assign k (.tables (latest :: earlier)) members
    | some _ => none

/-- Adds a new member. Only a dotted key adds to a table that dotted keys have made. -/
def addMember (isDotted : Bool) (k : String) (v : Value) (origin : Origin) (members : Members) :
    Option Members :=
  if (origin = .dotted) ≠ isDotted then none
  else if (members.lookup k).isSome then none
  else some (members ++ [(k, v)])

/-- Adds a member under a key of at least one part. -/
def addKey : (key : List String) → Value → Origin → Members → Option Members
  | key, v, origin, members =>
    match key.getLast? with
    | none => none
    | some k =>
      let path := key.dropLast
      descend true (addMember (!path.isEmpty) k v) path origin members

/-- Opens the table of a header. -/
def openTable (header : List String) (members : Members) : Option Members :=
  match header.getLast? with
  | none => none
  | some k =>
    descend false (fun _ members =>
      match members.lookup k with
      | none => some (members ++ [(k, .table .header [])])
      | some (.table .implied inner) => some (assign k (.table .header inner) members)
      | some _ => none) header.dropLast .header members

/-- Opens one more table in the array of tables of a header. -/
def openElement (header : List String) (members : Members) : Option Members :=
  match header.getLast? with
  | none => none
  | some k =>
    descend false (fun _ members =>
      match members.lookup k with
      | none => some (members ++ [(k, .tables [[]])])
      | some (.tables elements) => some (assign k (.tables ([] :: elements)) members)
      | some _ => none) header.dropLast .header members

end ReplicaIntake.Toml
