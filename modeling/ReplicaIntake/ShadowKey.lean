/-!
# Shadow keys

Each side of a conflict is stored under a *shadow key*: the primary key, the segment
`/conflicts/`, and a discriminator naming where the side came from. A discriminator is one path
segment, so the last occurrence of `/conflicts/` is where a shadow key divides; the primary key may
itself contain the segment.
-/

namespace ReplicaIntake.ShadowKey

/-- What stands between a primary key and a discriminator. -/
def segment : String := "/conflicts/"

/-- The shadow key of a primary key and a discriminator. -/
def make (primary discriminator : String) : String := primary ++ segment ++ discriminator

/-- What stands before and after the last occurrence of `mark` in the text. -/
def splitLast (mark : List Char) : List Char → Option (List Char × List Char)
  | [] => none
  | c :: rest =>
    match splitLast mark rest with
    | some (before, after) => some (c :: before, after)
    | none => if mark.isPrefixOf (c :: rest) then some ([], (c :: rest).drop mark.length) else none

/-- The primary key and discriminator of a shadow key. A key is no shadow key when the primary
key or the discriminator would be empty, or the discriminator would hold a slash. -/
def split (key : String) : Option (String × String) :=
  match splitLast segment.toList key.toList with
  | none => none
  | some (primary, discriminator) =>
    if primary.isEmpty || discriminator.isEmpty || discriminator.contains '/' then none
    else some (String.ofList primary, String.ofList discriminator)

/-- Whether the key is a shadow key. -/
def isShadow (key : String) : Bool := (split key).isSome

end ReplicaIntake.ShadowKey
