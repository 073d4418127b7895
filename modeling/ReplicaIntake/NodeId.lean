import ReplicaIntake.Format.Hex

/-!
# Generated node names

A store without a configured name gets a random UUID: sixteen bytes of which all but six bits are
random. Those six mark the version, 4, and the variant.
-/

namespace ReplicaIntake.NodeId

/-- The bytes with the marks of version and variant. -/
def mark (bytes : Bytes) : Bytes :=
  bytes.mapIdx fun i b =>
    if i = 6 then b &&& 0x0f ||| 0x40 else if i = 8 then b &&& 0x3f ||| 0x80 else b

/-- The UUID of sixteen random bytes, in groups of 8, 4, 4, 4 and 12 digits. -/
def ofBytes (bytes : Bytes) : String :=
  let group (first last : Nat) := Hex.encode (((mark bytes).take last).drop first)
  group 0 4 ++ "-" ++ group 4 6 ++ "-" ++ group 6 8 ++ "-" ++ group 8 10 ++ "-" ++ group 10 16

/-- Whether a text is a random UUID in lower case. -/
def isRandom (s : String) : Bool :=
  let cs := s.toList
  cs.length = 36 &&
    (cs.mapIdx fun i c =>
      if i = 8 ∨ i = 13 ∨ i = 18 ∨ i = 23 then c == '-'
      else if i = 14 then c == '4'
      else if i = 19 then c == '8' || c == '9' || c == 'a' || c == 'b'
      else c.isDigit || ('a' ≤ c && c ≤ 'f')).all id

end ReplicaIntake.NodeId
